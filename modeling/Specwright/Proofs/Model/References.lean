import Specwright.Proofs.Host.Spelling
import Specwright.Proofs.Lineage.Declarations
import Specwright.Proofs.Model.Construction

/-!
# The type references of a snapshot

Bindings along a hierarchy are made of references in the snapshot.  So a property that passes on
among references, and holds of all that are in the classes of a snapshot, holds of every reference
that the construction of a model asks for.  To obey an assignment of sorts to names is one.
-/

namespace Specwright

/-- The type references in the signature and the body of a method. -/
def MethodDecl.typeRefs (method : MethodDecl) : List TypeRef :=
  method.returnType.toList ++ method.paramTypes ++ method.variableUses.map (·.type)

/-- The type references in a class, with the one to the class itself. -/
def ClassDecl.typeRefs (decl : ClassDecl) : List TypeRef :=
  decl.ownType :: decl.supertypes ++ decl.fields.map (·.type) ++ decl.methods.flatMap (·.typeRefs)

namespace TypeRef

/-- Whether a property of references passes on to what they are made of and to what is made of them.
-/
structure Hereditary (within : TypeRef → Prop) : Prop where
  withDims {type : TypeRef} : within type → ∀ dims, within { type with dims := dims }
  arg {type arg : TypeRef} : within type → arg ∈ type.args → within arg
  substitute {bindings : Bindings} {type : TypeRef} :
    (∀ pair ∈ bindings.pairs, within pair.2) → within type → within (type.substitute bindings)

theorem hereditary_obeys (sortOf : String → TypeSort) :
    Hereditary fun ref => ref.Obeys sortOf where
  withDims hobeys dims := hobeys.withDims dims
  arg hobeys harg := hobeys.arg harg
  substitute hbindings hobeys := Obeys.substitute hbindings hobeys

end TypeRef

namespace Snapshot

/-- The type references in the classes of a snapshot. -/
def typeRefs (snapshot : Snapshot) : List TypeRef :=
  snapshot.classes.flatMap ClassDecl.typeRefs

/-- Whether a property holds of all references in the snapshot. -/
def RefsWithin (snapshot : Snapshot) (within : TypeRef → Prop) : Prop :=
  ∀ ref ∈ snapshot.typeRefs, within ref

/-- Whether no name in the snapshot holds a mark and each stands for the sort given to it. -/
def Obeys (sortOf : String → TypeSort) (snapshot : Snapshot) : Prop :=
  ∀ ref ∈ snapshot.typeRefs, ref.Obeys sortOf

variable {snapshot : Snapshot} {sortOf : String → TypeSort} {within : TypeRef → Prop}

instance : Decidable (snapshot.Obeys sortOf) :=
  inferInstanceAs (Decidable (∀ ref ∈ snapshot.typeRefs, ref.Obeys sortOf))

/-! ## The places of a reference -/

theorem RefsWithin.ownType
    {decl : ClassDecl} (h : snapshot.RefsWithin within) (hmem : decl ∈ snapshot.classes) :
    within decl.ownType :=
  h _ (List.mem_flatMap.mpr ⟨decl, hmem, by simp [ClassDecl.typeRefs]⟩)

theorem RefsWithin.supertype
    {decl : ClassDecl} {supertype : TypeRef}
    (h : snapshot.RefsWithin within) (hmem : decl ∈ snapshot.classes)
    (hsupertype : supertype ∈ decl.supertypes) :
    within supertype :=
  h _ (List.mem_flatMap.mpr ⟨decl, hmem, by simp [ClassDecl.typeRefs, hsupertype]⟩)

theorem RefsWithin.field
    {decl : ClassDecl} {field : FieldDecl}
    (h : snapshot.RefsWithin within) (hmem : decl ∈ snapshot.classes)
    (hfield : field ∈ decl.fields) :
    within field.type := by
  refine h _ (List.mem_flatMap.mpr ⟨decl, hmem, ?_⟩)
  exact List.mem_append_left _ (List.mem_append_right _ (List.mem_map_of_mem hfield))

theorem RefsWithin.method
    {decl : ClassDecl} {method : MethodDecl} {ref : TypeRef}
    (h : snapshot.RefsWithin within) (hmem : decl ∈ snapshot.classes)
    (hmethod : method ∈ decl.methods) (href : ref ∈ method.typeRefs) :
    within ref := by
  refine h _ (List.mem_flatMap.mpr ⟨decl, hmem, ?_⟩)
  exact List.mem_append_right _ (List.mem_flatMap.mpr ⟨method, hmethod, href⟩)

theorem Obeys.ownType
    {decl : ClassDecl} (h : snapshot.Obeys sortOf) (hmem : decl ∈ snapshot.classes) :
    decl.ownType.Obeys sortOf :=
  RefsWithin.ownType h hmem

theorem Obeys.field
    {decl : ClassDecl} {field : FieldDecl}
    (h : snapshot.Obeys sortOf) (hmem : decl ∈ snapshot.classes) (hfield : field ∈ decl.fields) :
    field.type.Obeys sortOf :=
  RefsWithin.field h hmem hfield

/-! ## Bindings along a hierarchy -/

/-- The bindings of supertypes are made of references in the snapshot. -/
theorem RefsWithin.passesUp
    (h : snapshot.RefsWithin within) (hhereditary : TypeRef.Hereditary within) :
    snapshot.PassesUp fun _ bindings => ∀ pair ∈ bindings.pairs, within pair.2 := by
  intro name bindings decl hbindings hfound supertype hsupertype
  have hwithin := h.supertype (mem_of_find? hfound) hsupertype
  rw [superBindings]
  split
  next above _ =>
    intro pair hpair
    obtain ⟨arg, harg, htype⟩ := List.mem_map.mp (List.of_mem_zip hpair).2
    rw [← htype]
    exact hhereditary.substitute hbindings (hhereditary.arg hwithin harg)
  next => simp [Bindings.empty]

end Snapshot

namespace Scope

variable {scope : Scope} {sortOf : String → TypeSort} {within : TypeRef → Prop}

section Hereditary

variable (hhereditary : TypeRef.Hereditary within) (h : scope.snapshot.RefsWithin within)

include hhereditary h

theorem within_bindingsFor
    (owner : ClassDecl) (viewer : Option ClassDecl) (method : MethodDecl) :
    ∀ pair ∈ (scope.bindingsFor owner viewer method).pairs, within pair.2 := by
  have hempty : ∀ pair ∈ Bindings.empty.pairs, within pair.2 := by
    simp [Bindings.empty]
  simp only [bindingsFor]
  split
  next viewer =>
    split
    · cases hseen : scope.bindingsSeenBy? viewer owner method with
      | none => exact hempty
      | some bindings =>
          obtain ⟨visible, hvisible, rfl⟩ := Option.map_eq_some_iff.mp hseen
          obtain ⟨entry, hentry, hmember⟩ :=
            List.mem_flatMap.mp (List.mem_of_find?_eq_some hvisible)
          have hbindings := Snapshot.seen_of_mem_lineage (h.passesUp hhereditary) hempty hentry
          rw [Snapshot.methodsOfAncestor] at hmember
          split at hmember
          · obtain ⟨_, -, rfl⟩ := List.mem_map.mp hmember
            exact hbindings
          · cases hmember
    · exact hempty
  next => exact hempty

/-! ## The references that a construction asks for -/

theorem within_of_mem_signatureRefs
    {viewer : Option ClassDecl} {declaration : Declaration} {ref : TypeRef}
    (hbelongs : declaration.BelongsTo scope.snapshot)
    (href : ref ∈ scope.signatureRefs viewer declaration) :
    within ref := by
  obtain ⟨type, htype, rfl⟩ := List.mem_map.mp href
  refine hhereditary.substitute (within_bindingsFor hhereditary h _ _ _) ?_
  exact h.method hbelongs.1 hbelongs.2 (List.mem_append_left _ htype)

/-- What passes on and holds of all references in the snapshot holds of all that an expansion of one
of them asks for. -/
theorem closed_of_hereditary : scope.Closed within where
  element hwithin := hhereditary.withDims hwithin _
  args hwithin _ harg := hhereditary.arg hwithin harg
  members := by
    intro name _ decl _ hfound ref href
    have hheld : scope.snapshot.find? decl.name = some decl := by
      rw [Snapshot.name_of_find? hfound, hfound]
    rcases mem_memberRefs_iff.mp href with
      ⟨declaration, hdeclaration, rfl⟩ | ⟨declaration, hdeclaration, href⟩
    · obtain ⟨howner, hfield⟩ := Snapshot.mem_of_mem_memberFields hheld hdeclaration
      exact h.field howner hfield
    · exact within_of_mem_signatureRefs hhereditary h
        (Snapshot.belongsTo_of_mem_memberMethods hheld hdeclaration) href

theorem within_of_mem_bodyRefs
    {declaration : Declaration} {ref : TypeRef} (hbelongs : declaration.BelongsTo scope.snapshot)
    (href : ref ∈ scope.bodyRefs declaration) :
    within ref := by
  rcases mem_bodyRefs_iff.mp href with
    ⟨call, hcall, href⟩ | ⟨target, htarget, href⟩ | ⟨use, huse, rfl⟩
  · exact within_of_mem_signatureRefs hhereditary h (belongsTo_of_mem_followedCalls hcall) href
  · exact within_of_mem_signatureRefs hhereditary h (belongsTo_of_mem_followedRefs htarget) href
  · refine h.method hbelongs.1 hbelongs.2 (List.mem_append_right _ ?_)
    exact List.mem_map_of_mem (mem_of_mem_visibleUses huse)

end Hereditary

theorem closed_obeys (h : scope.snapshot.Obeys sortOf) :
    scope.Closed fun ref => ref.Obeys sortOf :=
  closed_of_hereditary (TypeRef.hereditary_obeys sortOf) h

theorem obeys_of_mem_bodyRefs
    {declaration : Declaration} {ref : TypeRef}
    (h : scope.snapshot.Obeys sortOf) (hbelongs : declaration.BelongsTo scope.snapshot)
    (href : ref ∈ scope.bodyRefs declaration) :
    ref.Obeys sortOf :=
  within_of_mem_bodyRefs (TypeRef.hereditary_obeys sortOf) h hbelongs href

end Scope

end Specwright
