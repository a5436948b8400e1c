import Specwright.Target.TestClass

/-!
# Merging plans into test classes

The members of a plan are put into a class as far as their names are new.  Doubles that are new are
assigned in the fixture method, which is extended, or written when there is none.  When it cannot be
extended the fields stay and no method is added.
-/

namespace Specwright

/-- What a merge changed, by name. -/
structure MergeReport where
  fieldsAdded : List String
  fixtureUpdated : Bool
  methodsAdded : List String
  /-- The features whose names were taken. -/
  methodsSkipped : List String
  deriving Repr, DecidableEq, Inhabited

namespace TestPlan

/-- The field with the instance under test as a member. -/
def subjectField (plan : TestPlan) : Member :=
  ⟨plan.subject.name, plan.subject.render⟩

/-- The fields with doubles as members. -/
def doubleFields (plan : TestPlan) : List Member :=
  plan.doubles.map fun double => ⟨double.name, double.render⟩

/-- The feature methods as members. -/
def featureMethods (plan : TestPlan) (settings : Settings) : List Member :=
  plan.features.map fun feature =>
    ⟨feature.name, feature.render settings.naming settings.labels⟩

end TestPlan

namespace TestClass

/-- The class with statements in its fixture method, which is written if there is none.  Without
statements nothing changes. -/
def withFixture (testClass : TestClass) (naming : Naming) (statements : List String) :
    Except FixtureError TestClass :=
  if statements.isEmpty then .ok testClass
  else
    match testClass.extendMethod naming.fixtureName statements with
    | .error cause => .error cause
    | .ok (some extended) => .ok extended
    | .ok none =>
      .ok (testClass.addMethods [⟨naming.fixtureName, naming.fixture statements⟩])

/-- The class with the fields of a plan and its superclass. -/
def withDeclarations (testClass : TestClass) (plan : TestPlan) : TestClass :=
  (testClass.withSuperclass plan.superclass).addFields (plan.subjectField :: plan.doubleFields)

/-- The doubles of a plan that are new to the class. -/
def newDoubles (testClass : TestClass) (plan : TestPlan) : List Member :=
  (testClass.addFields [plan.subjectField]).newFields plan.doubleFields

/-- The class with the members of a plan, and what changed, or why the fixture method could not be
extended. -/
def merge (testClass : TestClass) (settings : Settings) (plan : TestPlan) :
    TestClass × Except FixtureError MergeReport :=
  let declared := testClass.withDeclarations plan
  let fieldsAdded := testClass.newFields (plan.subjectField :: plan.doubleFields)
  let assignments :=
    (testClass.newDoubles plan).map fun double => settings.naming.assignment double.name
  match declared.withFixture settings.naming assignments with
  | .error cause => (declared, .error cause)
  | .ok prepared =>
    let features := plan.featureMethods settings
    let (added, skipped) := Member.sift prepared.methodNames features
    (prepared.addMethods features,
      .ok {
        fieldsAdded := fieldsAdded.map (·.name)
        fixtureUpdated := !assignments.isEmpty
        methodsAdded := added.map (·.name)
        methodsSkipped := skipped.map (·.name) })

end TestClass

end Specwright
