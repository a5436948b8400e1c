import Specwright.Feature.Double
import Specwright.Feature.Selection
import Specwright.Feature.Spy
import Specwright.Literal.DataTable

/-!
# Plans of test classes

A plan says what a generated class is to contain: the instance under test, a double for each field
that gets one, and a feature method for each selected method of the class itself, with all literals
in it.  A plan holds no layout.

One selected method that cannot be tested spoils the whole plan.
-/

namespace Specwright

/-- The field with the instance under test. -/
structure SubjectPlan where
  name : String
  type : String
  deriving Repr, DecidableEq, Inhabited

/-- A field with a test double. -/
structure DoublePlan where
  name : String
  type : String
  double : DoubleKind
  deriving Repr, DecidableEq, Inhabited

/-- A response of a double to a call. -/
structure DoubleResponse where
  receiver : String
  method : String
  matchers : String
  response : String
  deriving Repr, DecidableEq, Inhabited

/-- A response of the spy to a call; a method without a value has none. -/
structure SpyResponse where
  method : String
  matchers : String
  response : Option String
  deriving Repr, DecidableEq, Inhabited

/-- What a tested method is called on. -/
inductive Receiver where
  /-- The class, for a static method. -/
  | static (type : String)
  | spy
  | subject
  deriving Repr, DecidableEq, Inhabited

/-- A feature method for one tested method. -/
structure FeaturePlan where
  name : String
  /-- The name of the tested method. -/
  method : String
  stubs : List DoubleResponse
  spy : Bool
  spies : List SpyResponse
  receiver : Receiver
  args : String
  returnsValue : Bool
  table : DataTable
  deriving Repr, DecidableEq, Inhabited

namespace FeaturePlan

/-- Whether anything is set up before the call. -/
def hasSetup (plan : FeaturePlan) : Bool :=
  !plan.stubs.isEmpty || plan.spy

end FeaturePlan

/-- What a generated class is to contain. -/
structure TestPlan where
  sourceClass : String
  superclass : String
  subject : SubjectPlan
  doubles : List DoublePlan
  features : List FeaturePlan
  deriving Repr, DecidableEq, Inhabited

/-- Why there is no plan. -/
inductive PlanError where
  /-- A selected method cannot be tested. -/
  | notTestable (type method : String)
  /-- A shape has a placeholder that does not exist. -/
  | shape (cause : ShapeError)
  deriving Repr, DecidableEq

namespace Settings

/-- The label of the response of a method. -/
def responseLabel (method : MethodModel) : String :=
  method.name ++ "Response"

/-- A matcher for each parameter of a method. -/
def matchersFor (settings : Settings) (method : MethodModel) : String :=
  settings.tables.matchers.argumentMatchers settings.matcherDialect method.params

/-- The response of a double to a call, if the callee has a return type. -/
def doubleResponse? (settings : Settings) (target : StubbedCall) :
    Except ShapeError (Option DoubleResponse) :=
  match target.method.returnType with
  | none => .ok none
  | some type => do
    let response ← settings.tables.topLiteral (responseLabel target.method) type
    pure <| some {
      receiver := target.field.name
      method := target.method.name
      matchers := settings.matchersFor target.method
      response }

/-- The responses of doubles that a method needs.  Inherited fields have no double. -/
def doubleResponses (settings : Settings) (type : TypeModel) (method : MethodModel) :
    Except ShapeError (List DoubleResponse) := do
  let targets := settings.doublePolicy.stubbedCalls type.erasedName method type.fields
  let lines ← (targets.filter fun target => !target.field.inherited).mapM settings.doubleResponse?
  pure (lines.filterMap id)

/-- The response of the spy to a call. -/
def spyResponse (settings : Settings) (callee : MethodModel) :
    Except ShapeError SpyResponse := do
  let response ← settings.tables.resultLiteral? (responseLabel callee) callee
  pure { method := callee.name, matchers := settings.matchersFor callee, response }

/-- What a method of a type is called on. -/
def receiverOf (type : TypeModel) (method : MethodModel) (spy : Bool) : Receiver :=
  if method.traits.isStatic then .static type.erasedName
  else if spy then .spy
  else .subject

/-- The feature method for a method of a type. -/
def featurePlan (settings : Settings) (type : TypeModel) (method : MethodModel) :
    Except ShapeError FeaturePlan := do
  let table ← settings.tables.dataTable settings.naming.expectedColumn method
  let stubs ← settings.doubleResponses type method
  let spies ← (method.spiedCallees settings.spySelfCalls).mapM settings.spyResponse
  let spy := !spies.isEmpty
  pure {
    name := method.name ++ settings.naming.testNameSuffix
    method := method.name
    stubs
    spy
    spies
    receiver := receiverOf type method spy
    args := table.invocationArgs
    returnsValue := method.givesValue
    table }

/-- The fields with doubles. -/
def doublePlans (settings : Settings) (type : TypeModel) : List DoublePlan :=
  (type.fields.filter fun field => !field.inherited).filterMap fun field =>
    (settings.doublePolicy.doubleOf? type.erasedName field).map fun double =>
      { name := field.name, type := field.type.erasedName, double }

end Settings

namespace TypeModel

/-- The selected methods that the type declares itself. -/
def selectedMethods (type : TypeModel) (selection : Selection) : List MethodModel :=
  type.methods.filter fun method => method.name ∈ selection && !method.traits.inherited

end TypeModel

namespace TestPlan

/-- The plan of the class that tests the selected methods of a type. -/
def build (settings : Settings) (type : TypeModel) (selection : Selection) :
    Except PlanError TestPlan :=
  let selected := type.selectedMethods selection
  match selected.find? fun method => !method.isTested with
  | some method => .error (.notTestable type.erasedName method.name)
  | none =>
    match selected.mapM (settings.featurePlan type) with
    | .error cause => .error (.shape cause)
    | .ok features =>
      .ok {
        sourceClass := type.erasedName
        superclass := settings.naming.superclass
        subject := ⟨settings.naming.subjectName, type.erasedName⟩
        doubles := settings.doublePlans type
        features }

end TestPlan

end Specwright
