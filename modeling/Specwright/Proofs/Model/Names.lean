import Specwright.Proofs.Model.References

/-!
# The names in a snapshot

All names that a class brings along, in its type references and of its constants and members.  What
holds of all names in a type reference passes on by substitution.  So it holds of every reference
that a session asks for when it holds of the names in the snapshot.
-/

namespace Specwright

namespace TypeRef

mutual

/-- The names in a type reference. -/
def names : TypeRef → List String
  | ⟨name, args, _, _⟩ => name :: listNames args

/-- The names in a list of type references. -/
def listNames : List TypeRef → List String
  | [] => []
  | type :: rest => names type ++ listNames rest

end

variable {good : String → Prop} {bindings : Bindings}

theorem mem_listNames_iff {types : List TypeRef} {name : String} :
    name ∈ listNames types ↔ ∃ type ∈ types, name ∈ type.names := by
  induction types with
  | nil => simp [listNames]
  | cons type rest ih => simp [listNames, ih]

theorem mem_names_iff {type : TypeRef} {name : String} :
    name ∈ type.names ↔ name = type.name ∨ ∃ arg ∈ type.args, name ∈ arg.names := by
  obtain ⟨own, args, kind, dims⟩ := type
  rw [names, List.mem_cons, mem_listNames_iff]

theorem names_withDims (type : TypeRef) (dims : Nat) :
    { type with dims := dims }.names = type.names := by
  obtain ⟨name, args, kind, own⟩ := type
  rw [names, names]

mutual

theorem forall_names_substitute
    (hbindings : ∀ pair ∈ bindings.pairs, ∀ name ∈ pair.2.names, good name) :
    ∀ {type : TypeRef}, (∀ name ∈ type.names, good name) →
      ∀ name ∈ (type.substitute bindings).names, good name
  | ⟨own, args, kind, dims⟩, h => by
    by_cases hkind : kind = .parameter
    · subst hkind
      rw [TypeRef.substitute]
      split
      next bound hbound =>
        obtain ⟨pair, hpair, rfl⟩ := Bindings.mem_of_lastBound hbound
        rw [addDims, names_withDims]
        exact hbindings pair hpair
      next => exact h
    · rw [names, List.forall_mem_cons] at h
      rw [TypeRef.substitute.eq_2 _ _ _ _ _ hkind, names, List.forall_mem_cons]
      exact ⟨h.1, forall_listNames_substituteAll hbindings h.2⟩

theorem forall_listNames_substituteAll
    (hbindings : ∀ pair ∈ bindings.pairs, ∀ name ∈ pair.2.names, good name) :
    ∀ {types : List TypeRef}, (∀ name ∈ listNames types, good name) →
      ∀ name ∈ listNames (substituteAll bindings types), good name
  | [], _ => by
    intro name hname
    cases hname
  | type :: rest, h => by
    rw [listNames, List.forall_mem_append] at h
    rw [substituteAll, listNames, List.forall_mem_append]
    exact ⟨forall_names_substitute hbindings h.1, forall_listNames_substituteAll hbindings h.2⟩

end

theorem hereditary_names (good : String → Prop) :
    Hereditary fun ref => ∀ name ∈ ref.names, good name where
  withDims h dims := by rwa [names_withDims]
  arg h harg name hname := h name (mem_names_iff.mpr (Or.inr ⟨_, harg, hname⟩))
  substitute hbindings h := forall_names_substitute hbindings h

end TypeRef

/-- The names of a method and of its parameters. -/
def MethodDecl.names (method : MethodDecl) : List String :=
  method.name :: method.params.map (·.name)

/-- The names in a class: those in its type references, with the class itself and its type
parameters among them, and those of its constants and members. -/
def ClassDecl.names (decl : ClassDecl) : List String :=
  decl.typeRefs.flatMap TypeRef.names ++ decl.enumConstants ++ decl.fields.map (·.name) ++
    decl.methods.flatMap MethodDecl.names

namespace Snapshot

/-- The names in the classes of a snapshot. -/
def allNames (snapshot : Snapshot) : List String :=
  snapshot.classes.flatMap ClassDecl.names

/-- Whether all names in the snapshot have a property. -/
def NamesWithin (snapshot : Snapshot) (good : String → Prop) : Prop :=
  ∀ name ∈ snapshot.allNames, good name

instance {snapshot : Snapshot} {good : String → Prop} [DecidablePred good] :
    Decidable (snapshot.NamesWithin good) :=
  inferInstanceAs (Decidable (∀ name ∈ snapshot.allNames, good name))

variable {snapshot : Snapshot} {good : String → Prop} {decl : ClassDecl}

namespace NamesWithin

variable (h : snapshot.NamesWithin good)

include h

theorem refsWithin : snapshot.RefsWithin fun ref => ∀ name ∈ ref.names, good name := by
  intro ref href name hname
  obtain ⟨decl, hdecl, href⟩ := List.mem_flatMap.mp href
  have hmem : name ∈ decl.typeRefs.flatMap TypeRef.names := List.mem_flatMap.mpr ⟨ref, href, hname⟩
  exact h name (List.mem_flatMap.mpr ⟨decl, hdecl, by simp [ClassDecl.names, hmem]⟩)

theorem className (hdecl : decl ∈ snapshot.classes) : good decl.name :=
  h.refsWithin.ownType hdecl _ (TypeRef.mem_names_iff.mpr (Or.inl rfl))

theorem enumConstant
    (hdecl : decl ∈ snapshot.classes) {constant : String}
    (hconstant : constant ∈ decl.enumConstants) :
    good constant :=
  h constant (List.mem_flatMap.mpr ⟨decl, hdecl, by simp [ClassDecl.names, hconstant]⟩)

theorem field {declaration : FieldDeclaration} (hbelongs : declaration.BelongsTo snapshot) :
    good declaration.field.name := by
  have hmem : declaration.field.name ∈ declaration.owner.fields.map (·.name) :=
    List.mem_map_of_mem hbelongs.2
  refine h _ (List.mem_flatMap.mpr ⟨_, hbelongs.1, ?_⟩)
  exact List.mem_append_left _ (List.mem_append_right _ hmem)

theorem ofMethod
    {declaration : Declaration} (hbelongs : declaration.BelongsTo snapshot) {name : String}
    (hname : name ∈ declaration.method.names) :
    good name := by
  refine h name (List.mem_flatMap.mpr ⟨_, hbelongs.1, ?_⟩)
  exact List.mem_append_right _ (List.mem_flatMap.mpr ⟨_, hbelongs.2, hname⟩)

end NamesWithin

end Snapshot

end Specwright
