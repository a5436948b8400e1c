import Specwright.Settings.Expressions
import Specwright.Text.Blank
import Specwright.Text.Split

/-!
# Settings

Everything about a generated class that can be set: names, labels, which fields get a test double
and of which kind, the tables of literals and matchers, and how deep types are looked into.  What is
standard has a name of its own wherever it is no empty or negative value: it stands where nothing is
set, be it a single setting or a whole section.
-/

namespace Specwright

/-! ## Names -/

namespace Naming

def standardSuperclass : String := "spock.lang.Specification"

def standardTargetSuffix : String := "Test"

def standardSubjectName : String := "testObj"

def standardFixtureName : String := "setup"

def standardTestNameSuffix : String := "Test"

def standardUnrollMarker : String := "spock.lang.Unroll"

def standardSpyName : String := "spy"

def standardResultName : String := "result"

def standardExpectedColumn : String := "expectedResult"

end Naming

/-- The names in a generated class. -/
structure Naming where
  /-- The superclass of a generated class. -/
  superclass : String := Naming.standardSuperclass
  /-- What the name of a generated class has behind that of the class under test. -/
  targetSuffix : String := Naming.standardTargetSuffix
  /-- The field with the instance under test. -/
  subjectName : String := Naming.standardSubjectName
  /-- The method that assigns the doubles. -/
  fixtureName : String := Naming.standardFixtureName
  /-- What the name of a feature method has behind that of the tested method. -/
  testNameSuffix : String := Naming.standardTestNameSuffix
  /-- The annotation of feature methods; none when it is empty. -/
  unrollMarker : String := Naming.standardUnrollMarker
  /-- The local variable with the spy. -/
  spyName : String := Naming.standardSpyName
  /-- The local variable with the result of the call. -/
  resultName : String := Naming.standardResultName
  /-- The column with the expected result. -/
  expectedColumn : String := Naming.standardExpectedColumn
  deriving Repr, DecidableEq, Inhabited

/-! ## Labels -/

namespace Labels

def standardGiven : String := "prepare method inputs"

def standardStubs : String := "stub collaborator responses"

def standardSpies : String := "stub calls on the subject itself"

def standardOutcome : String := "the result matches the expectation"

def standardScenarios : String := "scenarios"

end Labels

/-- The labels of the blocks of a feature method. -/
structure Labels where
  given : String := Labels.standardGiven
  stubs : String := Labels.standardStubs
  spies : String := Labels.standardSpies
  outcome : String := Labels.standardOutcome
  scenarios : String := Labels.standardScenarios
  deriving Repr, DecidableEq, Inhabited

/-! ## Doubles -/

/-- An annotation on types whose instances come from a factory, and the expression that calls it,
with a placeholder for the type. -/
structure FactoryRule where
  marker : String
  factory : String
  deriving Repr, DecidableEq, Inhabited

namespace DoublePolicy

def standardExcludedTypes : List String := [
  "java.lang.String",
  "java.lang.Boolean",
  "java.lang.Byte",
  "java.lang.Character",
  "java.lang.Double",
  "java.lang.Float",
  "java.lang.Integer",
  "java.lang.Long",
  "java.lang.Short",
  "java.lang.Class"]

def standardFactories : List FactoryRule :=
  [⟨"org.mapstruct.Mapper", "org.mapstruct.factory.Mappers.getMapper(<TYPE>)"⟩]

end DoublePolicy

/-- Which fields get a test double and of which kind. -/
structure DoublePolicy where
  excludedTypes : List String := DoublePolicy.standardExcludedTypes
  mockFinal : Bool := false
  mockEnums : Bool := false
  mockArrays : Bool := false
  factories : List FactoryRule := DoublePolicy.standardFactories
  deriving Repr, DecidableEq, Inhabited

/-! ## Generators -/

namespace Settings

def standardMaxDepth : Nat := 3

def standardSpySelfCalls : Bool := true

def standardMatcherDialect : String := "groovy"

end Settings

/-- The settings of a generator. -/
structure Settings where
  /-- How deep types are looked into. -/
  maxDepth : Nat := Settings.standardMaxDepth
  /-- The admitted beginnings of the ids of callees, separated by commas. -/
  admittedText : String := ""
  /-- Whether calls of the subject to itself are stubbed on a spy. -/
  spySelfCalls : Bool := Settings.standardSpySelfCalls
  /-- The dialect from which argument matchers are taken. -/
  matcherDialect : String := Settings.standardMatcherDialect
  naming : Naming := {}
  labels : Labels := {}
  doublePolicy : DoublePolicy := {}
  tables : ExpressionTables := {}
  deriving Inhabited

namespace Settings

/-- The settings where nothing is set. -/
def standard : Settings := {}

/-- The admitted beginnings of the ids of callees: the parts between commas without the blanks
around them, as far as anything is left. -/
def admittedPrefixes (settings : Settings) : List String :=
  ((Text.splitAtEach ',' settings.admittedText.toList).map Text.trimChars).filterMap fun part =>
    if part.isEmpty then none else some (String.ofList part)

end Settings

end Specwright
