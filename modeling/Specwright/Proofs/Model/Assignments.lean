import Specwright.Proofs.Session.Extraction

/-!
# Fields that parameters are linked to

A host reports each assignment of a method with the field and the class that declares it.  A
parameter is linked to fields by the name of the field alone: the name is looked up again from the
class of the method, and the class that the host reported has no part in it.  So a link goes to a
field that the method assigns exactly when the name is assigned on the class where it is found.
-/

namespace Specwright

/-- Whether a method assigns a parameter, blanks around it aside, to a field of the class that
declares the field. -/
def MethodDecl.Assigns (method : MethodDecl) (param : String) (field : FieldModel) : Prop :=
  ∃ write ∈ method.fieldWrites,
    Text.trim write.value = param ∧ write.field = field.name ∧ write.declaringType = field.owner

instance {method : MethodDecl} {param : String} {field : FieldModel} :
    Decidable (method.Assigns param field) :=
  inferInstanceAs (Decidable (∃ write ∈ method.fieldWrites,
    Text.trim write.value = param ∧ write.field = field.name ∧ write.declaringType = field.owner))

namespace Snapshot

/-- The assignments of a parameter that count for its links: those of a method that is not static,
where the host reports assignments. -/
def assignmentsOf (snapshot : Snapshot) (method : MethodDecl) (param : String) :
    List FieldAssignment :=
  if !method.has .static && snapshot.fills .fieldWrites then
    method.fieldWrites.filter fun write => Text.trim write.value = param
  else []

variable {snapshot : Snapshot} {owner : ClassDecl} {method : MethodDecl} {param name : String}

theorem mem_assignmentsOf_iff {write : FieldAssignment} :
    write ∈ snapshot.assignmentsOf method param ↔
      (method.has .static = false ∧ snapshot.fills .fieldWrites = true) ∧
        write ∈ method.fieldWrites ∧ Text.trim write.value = param := by
  have hcounts : (!method.has .static && snapshot.fills .fieldWrites) = true ↔
      method.has .static = false ∧ snapshot.fills .fieldWrites = true := by
    rw [Bool.and_eq_true, Bool.not_eq_true']
  rw [assignmentsOf, ← hcounts]
  split
  next h => rw [List.mem_filter, decide_eq_true_eq, and_iff_right h]
  next h => exact iff_of_false List.not_mem_nil fun hboth => h hboth.1

/-- A field that is found has the name that was looked up. -/
theorem name_of_findField?
    {found : FieldDeclaration} (h : snapshot.findField? owner name = some found) :
    found.field.name = name := by
  have hdeclared {decl : ClassDecl} (hfound : decl.declaration? name = some found) :
      found.field.name = name := by
    obtain ⟨field, hfield, rfl⟩ := Option.map_eq_some_iff.mp hfound
    simpa using List.find?_some hfield
  rw [findField?] at h
  split at h
  next hown =>
    cases h
    exact hdeclared hown
  next =>
    obtain ⟨ancestor, -, hancestor⟩ := List.exists_of_findSome?_eq_some h
    obtain ⟨decl, -, hfound⟩ := Option.bind_eq_some_iff.mp hancestor
    exact hdeclared hfound

/-- The fields that a parameter is linked to are those that the class of the method finds under the
names of assigned fields. -/
theorem mem_fieldsAssignedFrom_iff {found : FieldDeclaration} :
    found ∈ snapshot.fieldsAssignedFrom owner method param ↔
      ∃ write ∈ snapshot.assignmentsOf method param,
        snapshot.findField? owner write.field = some found := by
  rw [fieldsAssignedFrom, namesAssignedFrom, assignmentsOf]
  by_cases hstatic : method.has .static = true
  · simp [hstatic]
  · by_cases hfills : snapshot.fills .fieldWrites = true
    · simp [hstatic, hfills, mem_distinct]
    · simp [hstatic, hfills]

end Snapshot

namespace MethodModel

/-- Whatever types and bodies are answered, the links of a parameter are read off the snapshot. -/
theorem forall₂_assignedTo
    (scope : Scope) (resolve : TypeRef → Session TypeModel) (body : Session (Option BodyModel))
    (viewer : Option ClassDecl) (declaration : Declaration) (cache : TypeCache) :
    List.Forall₂
      (fun param model => model.assignedTo =
        (scope.snapshot.fieldsAssignedFrom declaration.owner declaration.method param.name).map
          FieldModel.ofName)
      declaration.method.params
      ((MethodModel.build scope resolve Session.leaf body viewer declaration).run
        cache).1.params := by
  have hleaf (ref : TypeRef) :
      (Contract.keeping fun _ => True).Ensures (Session.leaf ref) (· = .nameOnly ref) :=
    Session.leaf_ensures (fun _ _ => trivial) ref
  have hbuild :
      (Contract.keeping fun _ => True).Ensures
        (MethodModel.build scope resolve Session.leaf body viewer declaration)
        (MethodModel.Shows scope (fun _ _ => True) (fun _ => True) viewer declaration) :=
    MethodModel.build_ensures hleaf (fun _ _ _ _ => ⟨trivial, trivial⟩)
      fun _ _ => ⟨trivial, trivial⟩
  obtain ⟨⟨returnType, params, _, -, hparams, -, hmodel⟩, -⟩ := hbuild cache trivial
  rw [hmodel]
  refine hparams.imp fun param model => ?_
  rintro ⟨type, -, rfl⟩
  rfl

/-- A parameter is linked to the fields that are found, from the class of the method, under the
names that the method assigns it to.  All of these are fields that the method assigns it to exactly
when each name is also assigned on the class that it is found in. -/
theorem linked_fields_exact
    (scope : Scope) (resolve : TypeRef → Session TypeModel) (body : Session (Option BodyModel))
    (viewer : Option ClassDecl) (declaration : Declaration) (cache : TypeCache) :
    List.Forall₂
      (fun param model =>
        (∀ field, field ∈ model.assignedTo ↔
          ∃ write ∈ scope.snapshot.assignmentsOf declaration.method param.name,
            ∃ found, scope.snapshot.findField? declaration.owner write.field = some found ∧
              FieldModel.ofName found = field) ∧
        ((∀ field ∈ model.assignedTo, declaration.method.Assigns param.name field) ↔
          ∀ write ∈ scope.snapshot.assignmentsOf declaration.method param.name,
            ∀ found, scope.snapshot.findField? declaration.owner write.field = some found →
              ∃ other ∈ scope.snapshot.assignmentsOf declaration.method param.name,
                other.field = write.field ∧ other.declaringType = found.owner.name))
      declaration.method.params
      ((MethodModel.build scope resolve Session.leaf body viewer declaration).run
        cache).1.params := by
  refine (forall₂_assignedTo scope resolve body viewer declaration cache).imp
    fun param model hlinks => ?_
  have hlinked (field : FieldModel) : field ∈ model.assignedTo ↔
      ∃ write ∈ scope.snapshot.assignmentsOf declaration.method param.name,
        ∃ found, scope.snapshot.findField? declaration.owner write.field = some found ∧
          FieldModel.ofName found = field := by
    rw [hlinks, List.mem_map]
    constructor
    · rintro ⟨found, hfound, rfl⟩
      obtain ⟨write, hwrite, hfind⟩ := Snapshot.mem_fieldsAssignedFrom_iff.mp hfound
      exact ⟨write, hwrite, found, hfind, rfl⟩
    · rintro ⟨write, hwrite, found, hfind, rfl⟩
      exact ⟨found, Snapshot.mem_fieldsAssignedFrom_iff.mpr ⟨write, hwrite, hfind⟩, rfl⟩
  refine ⟨hlinked, ?assigned⟩
  case assigned =>
    constructor
    · intro hassigns write hwrite found hfind
      obtain ⟨hcounts, -, -⟩ := Snapshot.mem_assignmentsOf_iff.mp hwrite
      obtain ⟨other, hother, hvalue, hfield, howner⟩ :=
        hassigns _ ((hlinked _).mpr ⟨write, hwrite, found, hfind, rfl⟩)
      exact ⟨other, Snapshot.mem_assignmentsOf_iff.mpr ⟨hcounts, hother, hvalue⟩,
        hfield.trans (Snapshot.name_of_findField? hfind), howner⟩
    · intro hdeclared field hfield
      obtain ⟨write, hwrite, found, hfind, rfl⟩ := (hlinked field).mp hfield
      obtain ⟨other, hother, hsame, howner⟩ := hdeclared write hwrite found hfind
      obtain ⟨-, hwritten, hvalue⟩ := Snapshot.mem_assignmentsOf_iff.mp hother
      exact ⟨other, hwritten, hvalue, hsame.trans (Snapshot.name_of_findField? hfind).symm, howner⟩

end MethodModel

/-! ## A letter that is forwarded in a parcel -/

/-- Writes the address on the parcel, not on the letter. -/
def forwardMethod : MethodDecl where
  name := "forward"
  modifiers := [.publicAccess]
  params := [
    { name := "parcel", type := .named "post.Parcel" },
    { name := "address", type := .named "post.Address" }]
  fieldWrites := [⟨"address", "post.Parcel", "address"⟩]

def postLetterClass : ClassDecl where
  name := "post.Letter"
  fields := [{ name := "address", type := .named "post.Address" }]
  methods := [forwardMethod]

def postParcelClass : ClassDecl where
  name := "post.Parcel"
  fields := [{ name := "address", type := .named "post.Address" }]

def postScope : Scope where
  snapshot := .ofClasses [postLetterClass, postParcelClass]
  subject := postLetterClass
  options := ⟨1, []⟩
  held := rfl

/-- The parameter that the method assigns to the address of the parcel is linked to that of the
letter, which the method assigns nothing to. -/
theorem forward_linked_to_letter :
    ∃ method ∈ ((Session.extractSubject postScope).run .empty).1.methods,
      method.id = (Declaration.mk postLetterClass forwardMethod).id ∧
        forwardMethod.has .static = false ∧
          ∃ param ∈ method.params, param.name = "address" ∧
            ∃ field ∈ param.assignedTo,
              field.owner = postLetterClass.name ∧ ¬forwardMethod.Assigns param.name field := by
  refine ⟨_, .head _, rfl, rfl, _, .tail _ (.head _), rfl, _, .head _, rfl, ?assigned⟩
  case assigned =>
    rintro ⟨write, hwrite, -, -, howner⟩
    obtain rfl : write = ⟨"address", "post.Parcel", "address"⟩ := List.mem_singleton.mp hwrite
    exact absurd howner (by decide)

end Specwright
