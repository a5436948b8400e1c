import Specwright.Model.Basic
import Specwright.Settings.Basic

/-!
# Test doubles

Which fields of the class under test are replaced by a double, and by which kind: a mock, or what a
factory makes for types that carry its annotation.  A call of a mock whose value the tested method
uses needs a response.
-/

namespace Specwright

/-- How a field is replaced. -/
inductive DoubleKind where
  | mock
  /-- By the value of an expression. -/
  | factory (expression : String)
  deriving Repr, DecidableEq, Inhabited

namespace DoublePolicy

/-- The placeholder of the type in a factory expression. -/
def typeMark : String := "<TYPE>"

/-- The factory expression for a type that carries the annotation of a rule. -/
def factory? (policy : DoublePolicy) (type : TypeModel) : Option String :=
  (policy.factories.find? fun rule => type.isAnnotated rule.marker).map
    fun rule =>
      Text.replaceAll typeMark type.erasedName rule.factory

/-- Whether a field of the class `subject` can be replaced: its type is a reference type other than
the class itself and the excluded types, and of a kind that may be mocked.  Constants stay. -/
def canReplace (policy : DoublePolicy) (subject : String) (field : FieldModel) : Bool :=
  let type := field.type
  !type.isPrimitive && !type.isVoid && !type.isTypeParameter &&
    type.erasedName ≠ subject && type.erasedName ∉ policy.excludedTypes &&
    !(field.isStatic && field.isFinal) &&
    (policy.mockFinal || !type.facts.isFinal) && (policy.mockEnums || !type.facts.isEnum) &&
    (policy.mockArrays || !type.isArray)

/-- Whether a field is replaced by a mock. -/
def isMocked (policy : DoublePolicy) (subject : String) (field : FieldModel) : Bool :=
  policy.canReplace subject field && (policy.factory? field.type).isNone

/-- The double that replaces a field. -/
def doubleOf? (policy : DoublePolicy) (subject : String) (field : FieldModel) :
    Option DoubleKind :=
  if policy.canReplace subject field then
    match policy.factory? field.type with
    | some expression => some (.factory expression)
    | none => some .mock
  else none

end DoublePolicy

/-- A call of a method on a mock that needs a response. -/
structure StubbedCall where
  field : FieldModel
  method : MethodModel

namespace DoublePolicy

/-- The methods with a value that a method calls on the type of a mockable field. -/
def stubbedCalls
    (policy : DoublePolicy) (subject : String) (method : MethodModel)
    (fields : List FieldModel) : List StubbedCall :=
  (fields.filter (policy.isMocked subject)).flatMap fun field =>
    (field.type.methods.filter fun callee => callee.givesValue && method.callsTo callee).map
      fun callee => ⟨field, callee⟩

end DoublePolicy

namespace Matchers

/-- The matcher for an argument of a type without one. -/
def fallback : String := "_"

/-- A matcher for each parameter. -/
def argumentMatchers (table : Matchers) (dialect : String) (params : List ParamModel) :
    String :=
  ", ".intercalate <| params.map fun param =>
    (matcher? table dialect param.type.erasedName).getD fallback

end Matchers

end Specwright
