import Specwright.Feature.TestPlan
import Specwright.Proofs.Pointwise
import Specwright.Proofs.Session.Extraction

/-!
# The class under test as it is extracted

What the types in the model of the class under test are depends on the session, but which methods it
has does not: they show the declarations that the class has as members, in their order, and the own
methods have bodies.
-/

namespace Specwright

/-- A scope that is opened holds the snapshot, the options and the class of the name. -/
theorem Scope.open?_eq_some
    {snapshot : Snapshot} {name : String} {options : ModelOptions} {scope : Scope}
    (h : Scope.open? snapshot name options = some scope) :
    scope.snapshot = snapshot ∧ scope.options = options ∧
      snapshot.find? name = some scope.subject := by
  rw [open?] at h
  split at h
  next subject hsubject =>
    cases h
    exact ⟨rfl, rfl, hsubject⟩
  next => cases h

/-- An answer of which nothing is asked. -/
def anyAnswer (_ : TypeRef) (_ : TypeModel) : Prop :=
  True

namespace TypeModel

variable {scope : Scope} {same below : TypeRef → TypeModel → Prop}
variable {bodies : Declaration → Option BodyModel → Prop} {ref : TypeRef} {type : TypeModel}

/-- The fields and methods of a class that the snapshot holds show its members. -/
theorem Expands.members
    {decl : ClassDecl} (h : Expands scope same below bodies ref type)
    (href : ref.kind = .reference ∧ ref.dims = 0)
    (hfound : scope.snapshot.find? ref.name = some decl) :
    List.Forall₂ (FieldModel.Shows below (some decl)) (scope.snapshot.memberFields decl)
        type.fields ∧
      List.Forall₂
        (fun declaration => MethodModel.Shows scope below
          (if declaration.owner.name = decl.name then bodies declaration else (· = none))
          (some decl) declaration)
        (scope.snapshot.memberMethods decl) type.methods := by
  cases h with
  | array => cases href.2
  | named hkind => exact absurd href.1 hkind
  | outside hmissing => rw [hmissing] at hfound; cases hfound
  | declared hfound' _ hfields hmethods =>
      obtain rfl : _ = decl := Option.some.inj (hfound'.symm.trans hfound)
      exact ⟨hfields, hmethods⟩

end TypeModel

namespace MethodModel

variable {scope : Scope} {answers : TypeRef → TypeModel → Prop}
variable {bodies : Option BodyModel → Prop} {viewer : Option ClassDecl}
variable {declaration : Declaration} {method : MethodModel}

/-! ## What a model shows of its declaration -/

theorem Shows.id_eq (h : method.Shows scope answers bodies viewer declaration) :
    method.id = declaration.id := by
  obtain ⟨_, _, _, -, -, -, rfl⟩ := h
  rfl

theorem Shows.name_eq (h : method.Shows scope answers bodies viewer declaration) :
    method.name = declaration.method.name := by
  obtain ⟨_, _, _, -, -, -, rfl⟩ := h
  rfl

theorem Shows.owner_eq (h : method.Shows scope answers bodies viewer declaration) :
    method.owner = declaration.owner.name := by
  obtain ⟨_, _, _, -, -, -, rfl⟩ := h
  rfl

theorem Shows.traits_eq (h : method.Shows scope answers bodies viewer declaration) :
    method.traits = scope.traitsOf declaration.owner viewer declaration.method := by
  obtain ⟨_, _, _, -, -, -, rfl⟩ := h
  rfl

theorem Shows.length_params (h : method.Shows scope answers bodies viewer declaration) :
    method.params.length = declaration.method.params.length := by
  obtain ⟨_, _, _, -, hparams, -, rfl⟩ := h
  exact hparams.length_eq.symm

theorem Shows.names_params (h : method.Shows scope answers bodies viewer declaration) :
    method.params.map (·.name) = declaration.method.params.map (·.name) := by
  obtain ⟨_, _, _, -, hparams, -, rfl⟩ := h
  refine (map_eq_of_forall₂ hparams ?_).symm
  rintro param _ ⟨_, -, rfl⟩
  rfl

theorem Shows.body_holds (h : method.Shows scope answers bodies viewer declaration) :
    bodies method.body := by
  obtain ⟨_, _, _, -, -, hbody, rfl⟩ := h
  exact hbody

end MethodModel

namespace TypeModel

/-- The methods that the type declares itself. -/
def ownMethods (type : TypeModel) : List MethodModel :=
  type.methods.filter fun method => !method.traits.inherited

theorem selectedMethods_eq (type : TypeModel) (selection : Selection) :
    type.selectedMethods selection = type.ownMethods.filter (·.name ∈ selection) := by
  rw [selectedMethods, ownMethods, List.filter_filter]

variable {scope : Scope} {bodies : Declaration → Option BodyModel → Prop} {type : TypeModel}

/-- The methods that a class has as its own are those that it declares, in their order. -/
theorem forall₂_ownMethods_of_members
    {answers : TypeRef → TypeModel → Prop} {decl : ClassDecl}
    (hheld : scope.snapshot.find? decl.name = some decl)
    (hmethods : List.Forall₂
      (fun declaration =>
        MethodModel.Shows scope answers (bodies declaration) (some decl) declaration)
      (scope.snapshot.memberMethods decl) type.methods) :
    List.Forall₂
      (fun method =>
        MethodModel.Shows scope answers (bodies ⟨decl, method⟩) (some decl) ⟨decl, method⟩)
      decl.methods type.ownMethods := by
  have hkept : ∀ declaration model,
      MethodModel.Shows scope answers (bodies declaration) (some decl) declaration model →
      decide (declaration.owner.name = decl.name) = !model.traits.inherited := by
    intro declaration model hshows
    rw [hshows.traits_eq]
    simp [Scope.traitsOf, isInheritedBy, eq_comm]
  have hown := forall₂_filter hkept hmethods
  rwa [Snapshot.filter_own_memberMethods hheld, List.forall₂_map_left_iff] at hown

/-- Of the methods of a class only those are selected that it declares itself, in their order. -/
theorem forall₂_selectedMethods_of_members
    {answers : TypeRef → TypeModel → Prop} {decl : ClassDecl}
    (hheld : scope.snapshot.find? decl.name = some decl)
    (hmethods : List.Forall₂
      (fun declaration =>
        MethodModel.Shows scope answers (bodies declaration) (some decl) declaration)
      (scope.snapshot.memberMethods decl) type.methods)
    (selection : Selection) :
    List.Forall₂
      (fun method =>
        MethodModel.Shows scope answers (bodies ⟨decl, method⟩) (some decl) ⟨decl, method⟩)
      (decl.methods.filter (·.name ∈ selection)) (type.selectedMethods selection) := by
  rw [selectedMethods_eq]
  refine forall₂_filter (fun method model hshows => ?_)
    (forall₂_ownMethods_of_members hheld hmethods)
  rw [hshows.name_eq]

end TypeModel

namespace Session

variable {scope : Scope}

/-! ## Extraction in any state -/

private theorem anyDiscipline (scope : Scope) :
    CacheDiscipline scope (fun _ => True) (fun _ => anyAnswer) (fun _ => True) where
  counted _ _ := trivial
  served _ _ _ := trivial
  remembered _ _ _ := trivial
  bare _ := trivial
  built _ _ := trivial

/-- In every session the class under test is an expansion with the bodies of its own methods. -/
theorem extractSubject_expands (scope : Scope) (cache : TypeCache) :
    TypeModel.Expands scope anyAnswer anyAnswer (OwnBody scope (fun _ => anyAnswer))
      scope.subject.ownType ((extractSubject scope).run cache).1 := by
  have hextract := extractSubject_ensures (anyDiscipline scope) (closed_any scope) trivial
    fun _ _ _ _ => trivial
  exact (hextract cache trivial).1

/-- In every session a class that memory does not serve is an expansion without bodies. -/
theorem typeOf_expands
    (scope : Scope) {cache : TypeCache} {depth : Nat} {name : String} {args : List TypeRef}
    (hmiss : cache.lookup? (TypeRef.mk name args .reference 0).spelling (depth + 1) = none) :
    TypeModel.Expands scope anyAnswer anyAnswer (fun _ => (· = none)) ⟨name, args, .reference, 0⟩
      ((typeOf scope (depth + 1) ⟨name, args, .reference, 0⟩).run cache).1 :=
  typeOf_ensures_of_miss (anyDiscipline scope) (closed_any scope) trivial trivial hmiss

/-- The own methods of the extracted class show, one by one and with their bodies, the methods that
the class declares. -/
theorem forall₂_ownMethods (scope : Scope) (cache : TypeCache) :
    List.Forall₂
      (fun method => MethodModel.Shows scope anyAnswer
        (OwnBody scope (fun _ => anyAnswer) ⟨scope.subject, method⟩) (some scope.subject)
        ⟨scope.subject, method⟩)
      scope.subject.methods ((extractSubject scope).run cache).1.ownMethods := by
  obtain ⟨-, hmethods⟩ :=
    (extractSubject_expands scope cache).members ⟨rfl, rfl⟩ scope.held
  have hown := TypeModel.forall₂_ownMethods_of_members scope.held hmethods
  simp only [if_true] at hown
  exact hown

/-- The selected methods of the extracted class show, one by one and with their bodies, the selected
methods that the class declares. -/
theorem forall₂_selectedMethods (scope : Scope) (cache : TypeCache) (selection : Selection) :
    List.Forall₂
      (fun method => MethodModel.Shows scope anyAnswer
        (OwnBody scope (fun _ => anyAnswer) ⟨scope.subject, method⟩) (some scope.subject)
        ⟨scope.subject, method⟩)
      (scope.subject.methods.filter (·.name ∈ selection))
      (((extractSubject scope).run cache).1.selectedMethods selection) := by
  rw [TypeModel.selectedMethods_eq]
  refine forall₂_filter (fun method model hshows => ?_) (forall₂_ownMethods scope cache)
  rw [hshows.name_eq]

end Session

end Specwright
