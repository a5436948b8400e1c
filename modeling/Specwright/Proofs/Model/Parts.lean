import Mathlib.Logic.Relation
import Specwright.Proofs.Model.Construction

/-!
# The parts of a model

A model holds models of types, fields, methods, parameters and uses in one another.  Here its parts
are told apart, and what directly holds what is one relation, so that a property can be said to hold
throughout a model, whatever the way to a part is.
-/

namespace Specwright

/-- A part of a model. -/
inductive ModelPart where
  | type (type : TypeModel)
  | field (field : FieldModel)
  | method (method : MethodModel)
  | param (param : ParamModel)
  | use (use : ReferenceModel)

namespace ModelPart

/-- Whether a part directly holds another one. -/
inductive Has : ModelPart → ModelPart → Prop
  | arg {type arg : TypeModel} : arg ∈ type.args → Has (.type type) (.type arg)
  | element {type element : TypeModel} :
      type.element = some element → Has (.type type) (.type element)
  | field {type : TypeModel} {field : FieldModel} :
      field ∈ type.fields → Has (.type type) (.field field)
  | method {type : TypeModel} {method : MethodModel} :
      method ∈ type.methods → Has (.type type) (.method method)
  | fieldType (field : FieldModel) : Has (.field field) (.type field.type)
  | returnType {method : MethodModel} {type : TypeModel} :
      method.returnType = some type → Has (.method method) (.type type)
  | param {method : MethodModel} {param : ParamModel} :
      param ∈ method.params → Has (.method method) (.param param)
  | callee {method : MethodModel} {call : CallModel} :
      call ∈ method.directCalls → Has (.method method) (.method call.callee)
  | methodRef {method target : MethodModel} :
      target ∈ method.methodRefs → Has (.method method) (.method target)
  | reference {method : MethodModel} {use : ReferenceModel} :
      use ∈ method.references → Has (.method method) (.use use)
  | affectedField {method : MethodModel} {field : FieldModel} :
      field ∈ method.affectedFields → Has (.method method) (.field field)
  | paramType (param : ParamModel) : Has (.param param) (.type param.type)
  | assignedField {param : ParamModel} {field : FieldModel} :
      field ∈ param.assignedTo → Has (.param param) (.field field)
  | useType (use : ReferenceModel) : Has (.use use) (.type use.type)

/-- Whether a property holds of a part and of all that is in it, at any depth. -/
def Throughout (holds : ModelPart → Prop) (part : ModelPart) : Prop :=
  ∀ inner, Relation.ReflTransGen Has part inner → holds inner

/-- Whether a property holds of all that is in a part, at any depth. -/
def Inside (holds : ModelPart → Prop) (part : ModelPart) : Prop :=
  ∀ inner, Relation.TransGen Has part inner → holds inner

variable {holds : ModelPart → Prop} {part next : ModelPart}

theorem Throughout.here (h : part.Throughout holds) : holds part :=
  h part .refl

theorem Throughout.of_has (h : part.Throughout holds) (hhas : part.Has next) :
    next.Throughout holds :=
  fun inner hinner => h inner (.head hhas hinner)

theorem Throughout.inside (h : part.Throughout holds) : part.Inside holds :=
  fun inner hinner => h inner hinner.to_reflTransGen

theorem inside_iff : part.Inside holds ↔ ∀ next, part.Has next → next.Throughout holds := by
  constructor
  · intro h next hhas inner hinner
    exact h inner (Relation.TransGen.head'_iff.mpr ⟨next, hhas, hinner⟩)
  · intro h inner hinner
    obtain ⟨next, hhas, hinner⟩ := Relation.TransGen.head'_iff.mp hinner
    exact h next hhas inner hinner

theorem throughout_of_inside (hhere : holds part) (hinside : part.Inside holds) :
    part.Throughout holds := by
  intro inner hinner
  rcases Relation.reflTransGen_iff_eq_or_transGen.mp hinner with rfl | hinner
  · exact hhere
  · exact hinside inner hinner

/-! ## One kind of part after the other -/

/-- A type that was not looked into holds nothing. -/
theorem inside_nameOnly (ref : TypeRef) : (ModelPart.type (.nameOnly ref)).Inside holds := by
  refine inside_iff.mpr fun next hhas => ?_
  cases hhas with
  | arg harg => cases harg
  | element helement => cases helement
  | field hfield => cases hfield
  | method hmethod => cases hmethod

theorem inside_field {field : FieldModel} (htype : (ModelPart.type field.type).Throughout holds) :
    (ModelPart.field field).Inside holds := by
  refine inside_iff.mpr fun next hhas => ?_
  cases hhas
  exact htype

theorem inside_use {use : ReferenceModel} (htype : (ModelPart.type use.type).Throughout holds) :
    (ModelPart.use use).Inside holds := by
  refine inside_iff.mpr fun next hhas => ?_
  cases hhas
  exact htype

theorem inside_param
    {param : ParamModel} (htype : (ModelPart.type param.type).Throughout holds)
    (hassigned : ∀ field ∈ param.assignedTo, (ModelPart.field field).Throughout holds) :
    (ModelPart.param param).Inside holds := by
  refine inside_iff.mpr fun next hhas => ?_
  cases hhas with
  | paramType => exact htype
  | assignedField hfield => exact hassigned _ hfield

end ModelPart

/-- Whether a property holds throughout what was found in a body. -/
structure BodyModel.Throughout (holds : ModelPart → Prop) (body : BodyModel) : Prop where
  callees : ∀ call ∈ body.calls, (ModelPart.method call.callee).Throughout holds
  methodRefs : ∀ target ∈ body.methodRefs, (ModelPart.method target).Throughout holds
  references : ∀ use ∈ body.references, (ModelPart.use use).Throughout holds
  affectedFields : ∀ field ∈ body.affectedFields, (ModelPart.field field).Throughout holds

namespace ModelPart

variable {holds : ModelPart → Prop}

/-- What a view of a body shows is in the body. -/
theorem exists_body_of_mem
    {method : MethodModel} {α : Type} {view : BodyModel → List α} {item : α}
    (h : item ∈ (method.body.map view).getD []) :
    ∃ body, method.body = some body ∧ item ∈ view body := by
  cases hbody : method.body with
  | none =>
      rw [hbody] at h
      cases h
  | some body =>
      rw [hbody] at h
      exact ⟨body, rfl, h⟩

theorem inside_method
    {method : MethodModel}
    (hreturn : ∀ type, method.returnType = some type → (ModelPart.type type).Throughout holds)
    (hparams : ∀ param ∈ method.params, (ModelPart.param param).Throughout holds)
    (hbody : ∀ body, method.body = some body → body.Throughout holds) :
    (ModelPart.method method).Inside holds := by
  refine inside_iff.mpr fun next hhas => ?_
  cases hhas with
  | returnType htype => exact hreturn _ htype
  | param hparam => exact hparams _ hparam
  | callee hcall =>
      obtain ⟨body, hsome, hcall⟩ := exists_body_of_mem hcall
      exact (hbody body hsome).callees _ hcall
  | methodRef htarget =>
      obtain ⟨body, hsome, htarget⟩ := exists_body_of_mem htarget
      exact (hbody body hsome).methodRefs _ htarget
  | reference huse =>
      obtain ⟨body, hsome, huse⟩ := exists_body_of_mem huse
      exact (hbody body hsome).references _ huse
  | affectedField hfield =>
      obtain ⟨body, hsome, hfield⟩ := exists_body_of_mem hfield
      exact (hbody body hsome).affectedFields _ hfield

end ModelPart

end Specwright
