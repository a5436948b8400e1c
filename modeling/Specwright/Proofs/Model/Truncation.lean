import Specwright.Proofs.Model.Construction
import Specwright.Proofs.Pointwise

/-!
# Types cut off below a level

A type that was looked into deeply answers a request for a shallow one.  To say in which sense it
does, a type is cut off below a number of levels of members: what remains at the last level are
names.  Two types agree down to a level when they are the same after the cut.  The bodies of methods
are left out throughout, since they belong to the class under test alone.
-/

namespace Specwright

mutual

/-- The type down to a number of levels of members, without bodies. -/
def TypeModel.cut : Nat → TypeModel → TypeModel
  | 0, ⟨names, _, _, _, _, _, _⟩ => ⟨names, {}, false, [], none, [], []⟩
  | levels + 1, ⟨names, facts, populated, args, element, fields, methods⟩ =>
    ⟨names, facts, populated, TypeModel.cutAll (levels + 1) args,
      TypeModel.cutElement (levels + 1) element, FieldModel.cutAll levels fields,
      MethodModel.cutAll levels methods⟩

/-- Cuts each of a list of types. -/
def TypeModel.cutAll : Nat → List TypeModel → List TypeModel
  | _, [] => []
  | levels, type :: rest => TypeModel.cut levels type :: TypeModel.cutAll levels rest

/-- Cuts a type that may be missing. -/
def TypeModel.cutElement : Nat → Option TypeModel → Option TypeModel
  | _, none => none
  | levels, some type => some (TypeModel.cut levels type)

/-- The field with its type cut. -/
def FieldModel.cut : Nat → FieldModel → FieldModel
  | levels, ⟨name, type, owner, visibility, isStatic, isFinal, inherited⟩ =>
    ⟨name, TypeModel.cut levels type, owner, visibility, isStatic, isFinal, inherited⟩

/-- Cuts the types of a list of fields. -/
def FieldModel.cutAll : Nat → List FieldModel → List FieldModel
  | _, [] => []
  | levels, field :: rest => FieldModel.cut levels field :: FieldModel.cutAll levels rest

/-- The parameter with its type cut. -/
def ParamModel.cut : Nat → ParamModel → ParamModel
  | levels, ⟨name, type, assignedTo⟩ => ⟨name, TypeModel.cut levels type, assignedTo⟩

/-- Cuts the types of a list of parameters. -/
def ParamModel.cutAll : Nat → List ParamModel → List ParamModel
  | _, [] => []
  | levels, param :: rest => ParamModel.cut levels param :: ParamModel.cutAll levels rest

/-- The method with its types cut and without a body. -/
def MethodModel.cut : Nat → MethodModel → MethodModel
  | levels, ⟨id, name, owner, returnType, params, traits, property, _⟩ =>
    ⟨id, name, owner, TypeModel.cutElement levels returnType, ParamModel.cutAll levels params,
      traits, property, none⟩

/-- Cuts the types of a list of methods. -/
def MethodModel.cutAll : Nat → List MethodModel → List MethodModel
  | _, [] => []
  | levels, method :: rest => MethodModel.cut levels method :: MethodModel.cutAll levels rest

end

theorem TypeModel.cutAll_eq_map (levels : Nat) (types : List TypeModel) :
    TypeModel.cutAll levels types = types.map (TypeModel.cut levels) := by
  induction types with
  | nil => rfl
  | cons type rest ih => rw [TypeModel.cutAll, ih, List.map_cons]

theorem FieldModel.cutAll_eq_map (levels : Nat) (fields : List FieldModel) :
    FieldModel.cutAll levels fields = fields.map (FieldModel.cut levels) := by
  induction fields with
  | nil => rfl
  | cons field rest ih => rw [FieldModel.cutAll, ih, List.map_cons]

theorem ParamModel.cutAll_eq_map (levels : Nat) (params : List ParamModel) :
    ParamModel.cutAll levels params = params.map (ParamModel.cut levels) := by
  induction params with
  | nil => rfl
  | cons param rest ih => rw [ParamModel.cutAll, ih, List.map_cons]

theorem MethodModel.cutAll_eq_map (levels : Nat) (methods : List MethodModel) :
    MethodModel.cutAll levels methods = methods.map (MethodModel.cut levels) := by
  induction methods with
  | nil => rfl
  | cons method rest ih => rw [MethodModel.cutAll, ih, List.map_cons]

/-! ## Agreement -/

/-- Whether two types are the same down to a number of levels of members, bodies aside. -/
def TypeModel.AgreesTo (levels : Nat) (type other : TypeModel) : Prop :=
  type.cut levels = other.cut levels

section Members

variable {scope : Scope} {answers answers' : TypeRef → TypeModel → Prop} {levels : Nat}
variable (hagree : ∀ ref type type',
  answers ref type → answers' ref type' → type.AgreesTo levels type')

include hagree

/-- Models of one field are the same after a cut when the answers for its type are. -/
theorem FieldModel.cut_eq_of_shows
    {viewer : Option ClassDecl} {declaration : FieldDeclaration} {field field' : FieldModel}
    (h : field.Shows answers viewer declaration)
    (h' : field'.Shows answers' viewer declaration) :
    field.cut levels = field'.cut levels := by
  obtain ⟨type, htype, rfl⟩ := h
  obtain ⟨type', htype', rfl⟩ := h'
  have htypes : type.cut levels = type'.cut levels := hagree _ _ _ htype htype'
  simp only [ofType, FieldModel.cut, htypes]

theorem ParamModel.cut_eq_of_shows
    {bindings : Bindings} {declaration : Declaration} {param : ParamDecl}
    {model model' : ParamModel}
    (h : model.Shows scope answers bindings declaration param)
    (h' : model'.Shows scope answers' bindings declaration param) :
    model.cut levels = model'.cut levels := by
  obtain ⟨type, htype, rfl⟩ := h
  obtain ⟨type', htype', rfl⟩ := h'
  have htypes : type.cut levels = type'.cut levels := hagree _ _ _ htype htype'
  simp only [ofType, ParamModel.cut, htypes]

theorem TypeModel.cutAll_eq_of_forall₂
    {refs : List TypeRef} {types types' : List TypeModel}
    (h : List.Forall₂ answers refs types) (h' : List.Forall₂ answers' refs types') :
    TypeModel.cutAll levels types = TypeModel.cutAll levels types' := by
  rw [TypeModel.cutAll_eq_map, TypeModel.cutAll_eq_map]
  exact map_eq_map_of_forall₂ h h' hagree

theorem FieldModel.cutAll_eq_of_forall₂
    {viewer : Option ClassDecl} {declarations : List FieldDeclaration}
    {fields fields' : List FieldModel}
    (h : List.Forall₂ (FieldModel.Shows answers viewer) declarations fields)
    (h' : List.Forall₂ (FieldModel.Shows answers' viewer) declarations fields') :
    FieldModel.cutAll levels fields = FieldModel.cutAll levels fields' := by
  rw [FieldModel.cutAll_eq_map, FieldModel.cutAll_eq_map]
  exact map_eq_map_of_forall₂ h h' fun _ _ _ => FieldModel.cut_eq_of_shows hagree

theorem ParamModel.cutAll_eq_of_forall₂
    {bindings : Bindings} {declaration : Declaration} {declarations : List ParamDecl}
    {params params' : List ParamModel}
    (h : List.Forall₂ (ParamModel.Shows scope answers bindings declaration) declarations params)
    (h' : List.Forall₂ (ParamModel.Shows scope answers' bindings declaration) declarations
      params') :
    ParamModel.cutAll levels params = ParamModel.cutAll levels params' := by
  rw [ParamModel.cutAll_eq_map, ParamModel.cutAll_eq_map]
  exact map_eq_map_of_forall₂ h h' fun _ _ _ => ParamModel.cut_eq_of_shows hagree

theorem TypeModel.cutElement_eq_of_rel
    {ref : Option TypeRef} {type type' : Option TypeModel}
    (h : Option.Rel answers ref type) (h' : Option.Rel answers' ref type') :
    TypeModel.cutElement levels type = TypeModel.cutElement levels type' := by
  cases h with
  | none =>
      cases h'
      rfl
  | some htype =>
      cases h' with
      | some htype' =>
          have htypes := hagree _ _ _ htype htype'
          rw [TypeModel.cutElement, TypeModel.cutElement, htypes]

/-- Models of one method are the same after a cut when the answers for its types are. -/
theorem MethodModel.cut_eq_of_shows
    {bodies bodies' : Option BodyModel → Prop} {viewer : Option ClassDecl}
    {declaration : Declaration} {method method' : MethodModel}
    (h : method.Shows scope answers bodies viewer declaration)
    (h' : method'.Shows scope answers' bodies' viewer declaration) :
    method.cut levels = method'.cut levels := by
  obtain ⟨returnType, params, body, hreturn, hparams, -, rfl⟩ := h
  obtain ⟨returnType', params', body', hreturn', hparams', -, rfl⟩ := h'
  have hreturns := TypeModel.cutElement_eq_of_rel hagree hreturn hreturn'
  have hparams := ParamModel.cutAll_eq_of_forall₂ hagree hparams hparams'
  simp only [ofParts, MethodModel.cut, hreturns, hparams]

theorem MethodModel.cutAll_eq_of_forall₂
    {bodies bodies' : Declaration → Option BodyModel → Prop} {viewer : Option ClassDecl}
    {declarations : List Declaration} {methods methods' : List MethodModel}
    (h : List.Forall₂
      (fun declaration => MethodModel.Shows scope answers (bodies declaration) viewer declaration)
      declarations methods)
    (h' : List.Forall₂
      (fun declaration => MethodModel.Shows scope answers' (bodies' declaration) viewer declaration)
      declarations methods') :
    MethodModel.cutAll levels methods = MethodModel.cutAll levels methods' := by
  rw [MethodModel.cutAll_eq_map, MethodModel.cutAll_eq_map]
  exact map_eq_map_of_forall₂ h h' fun _ _ _ => MethodModel.cut_eq_of_shows hagree

end Members

namespace TypeModel

variable {scope : Scope} {ref : TypeRef}

/-- Two expansions of one reference agree to a level when the answers for elements and type
arguments do and those for members agree to the level below. -/
theorem Expands.agreesTo
    {levels : Nat} {same same' below below' : TypeRef → TypeModel → Prop}
    {bodies bodies' : Declaration → Option BodyModel → Prop} {type type' : TypeModel}
    (hsame : ∀ ref type type',
      same ref type → same' ref type' → type.AgreesTo (levels + 1) type')
    (hbelow : ∀ ref type type', below ref type → below' ref type' → type.AgreesTo levels type')
    (h : Expands scope same below bodies ref type)
    (h' : Expands scope same' below' bodies' ref type') :
    type.AgreesTo (levels + 1) type' := by
  cases h with
  | array helement =>
      cases h' with
      | array helement' =>
          have helements := hsame _ _ _ helement helement'
          rw [AgreesTo] at helements ⊢
          simp only [nameOnly, cut, cutElement, helements]
  | named hkind =>
      cases h' with
      | named => rfl
      | outside => exact absurd rfl hkind
      | declared => exact absurd rfl hkind
  | outside hmissing htypes =>
      cases h' with
      | named hkind => exact absurd rfl hkind
      | outside _ htypes' =>
          have hargs := cutAll_eq_of_forall₂ hsame htypes htypes'
          rw [AgreesTo]
          simp only [nameOnly, cut, hargs]
      | declared hfound => rw [hmissing] at hfound; cases hfound
  | declared hfound htypes hfields hmethods =>
      cases h' with
      | named hkind => exact absurd rfl hkind
      | outside hmissing => rw [hmissing] at hfound; cases hfound
      | declared hfound' htypes' hfields' hmethods' =>
          obtain rfl : _ = _ := Option.some.inj (hfound.symm.trans hfound')
          have hargs := cutAll_eq_of_forall₂ hsame htypes htypes'
          have hfields := FieldModel.cutAll_eq_of_forall₂ hbelow hfields hfields'
          have hmethods := MethodModel.cutAll_eq_of_forall₂ hbelow hmethods hmethods'
          rw [AgreesTo]
          simp only [nameOnly, cut, hargs, hfields, hmethods]

end TypeModel

end Specwright
