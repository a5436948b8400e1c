import Specwright.Json.Record
import Specwright.Settings.Basic

/-!
# Settings as records

How settings are written as JSON values and read back.  Everything is written; a key that is missing
when settings are read leaves the standard value in place, at any level of nesting.  Settings files
may give a record as an array, and values of it that belong to no key are passed over.
-/

namespace Specwright

open Json

namespace SortedMap

variable {α : Type}

/-- The map as an object. -/
def toJson (write : α → Json) (map : SortedMap α) : Json :=
  .obj (map.entries.map fun (key, value) => (key, write value))

/-- Reads a map from an object; of repeated keys the last counts. -/
def ofJson? (read : Json → Option α) (value : Json) : Option (SortedMap α) := do
  let members ← value.members?
  let entries ← members.mapM fun (key, value) => (read value).map (key, ·)
  pure (ofList entries)

end SortedMap

namespace ContainerShape

/-- The entry as a record. -/
def toJson (entry : ContainerShape) : Json :=
  .obj [("type", .str entry.type), ("shape", .str entry.shape)]

/-- Reads an entry from a record. -/
def ofJson? (value : Json) : Option ContainerShape := do
  let record ← Record.ofOpenJson? ["type", "shape"] value
  let type ← record.required "type" str?
  let shape ← record.required "shape" str?
  pure { type, shape }

end ContainerShape

namespace ContainerShapes

/-- The table as an array. -/
def toJson (table : ContainerShapes) : Json :=
  .arr (table.entries.map ContainerShape.toJson)

/-- Reads a table from an array. -/
def ofJson? (value : Json) : Option ContainerShapes :=
  (listOf? ContainerShape.ofJson? value).map ContainerShapes.mk

end ContainerShapes

namespace DefaultLiterals

/-- The literals as an object. -/
def toJson (literals : DefaultLiterals) : Json :=
  SortedMap.toJson .str literals

/-- Reads literals from an object. -/
def ofJson? (value : Json) : Option DefaultLiterals :=
  SortedMap.ofJson? str? value

end DefaultLiterals

namespace Matchers

/-- The matchers as an object of objects. -/
def toJson (table : Matchers) : Json :=
  SortedMap.toJson (SortedMap.toJson .str) table

/-- Reads matchers from an object of objects. -/
def ofJson? (value : Json) : Option Matchers :=
  SortedMap.ofJson? (SortedMap.ofJson? str?) value

end Matchers

namespace ExpressionTables

/-- The tables as a record. -/
def toJson (tables : ExpressionTables) : Json :=
  .obj [
    ("shapes", tables.shapes.toJson),
    ("nested_shapes", tables.nestedShapes.toJson),
    ("defaults", DefaultLiterals.toJson tables.defaults),
    ("matchers", Matchers.toJson tables.matchers)]

/-- Reads tables from a record. -/
def ofJson? (value : Json) : Option ExpressionTables := do
  let record ← Record.ofOpenJson? ["shapes", "nested_shapes", "defaults", "matchers"] value
  let shapes ← record.withDefault "shapes" ContainerShapes.ofJson? .standard
  let nestedShapes ← record.withDefault "nested_shapes" ContainerShapes.ofJson? .standard
  let defaults ← record.withDefault "defaults" DefaultLiterals.ofJson? DefaultLiterals.standard
  let matchers ← record.withDefault "matchers" Matchers.ofJson? Matchers.standard
  pure { shapes, nestedShapes, defaults, matchers }

end ExpressionTables

namespace Naming

/-- The names as a record. -/
def toJson (naming : Naming) : Json :=
  .obj [
    ("superclass", .str naming.superclass),
    ("target_suffix", .str naming.targetSuffix),
    ("subject_name", .str naming.subjectName),
    ("fixture_name", .str naming.fixtureName),
    ("test_name_suffix", .str naming.testNameSuffix),
    ("unroll_annotation", .str naming.unrollMarker),
    ("spy_name", .str naming.spyName),
    ("result_name", .str naming.resultName),
    ("expected_column", .str naming.expectedColumn)]

/-- Reads names from a record. -/
def ofJson? (value : Json) : Option Naming := do
  let record ← Record.ofOpenJson?
    ["superclass", "target_suffix", "subject_name", "fixture_name", "test_name_suffix",
      "unroll_annotation", "spy_name", "result_name", "expected_column"] value
  let superclass ← record.withDefault "superclass" str? standardSuperclass
  let targetSuffix ← record.withDefault "target_suffix" str? standardTargetSuffix
  let subjectName ← record.withDefault "subject_name" str? standardSubjectName
  let fixtureName ← record.withDefault "fixture_name" str? standardFixtureName
  let testNameSuffix ← record.withDefault "test_name_suffix" str? standardTestNameSuffix
  let unrollMarker ← record.withDefault "unroll_annotation" str? standardUnrollMarker
  let spyName ← record.withDefault "spy_name" str? standardSpyName
  let resultName ← record.withDefault "result_name" str? standardResultName
  let expectedColumn ← record.withDefault "expected_column" str? standardExpectedColumn
  pure {
    superclass, targetSuffix, subjectName, fixtureName, testNameSuffix, unrollMarker, spyName,
    resultName, expectedColumn }

end Naming

namespace Labels

/-- The labels as a record. -/
def toJson (labels : Labels) : Json :=
  .obj [
    ("given", .str labels.given),
    ("stubs", .str labels.stubs),
    ("spies", .str labels.spies),
    ("then", .str labels.outcome),
    ("scenarios", .str labels.scenarios)]

/-- Reads labels from a record. -/
def ofJson? (value : Json) : Option Labels := do
  let record ← Record.ofOpenJson? ["given", "stubs", "spies", "then", "scenarios"] value
  let given ← record.withDefault "given" str? standardGiven
  let stubs ← record.withDefault "stubs" str? standardStubs
  let spies ← record.withDefault "spies" str? standardSpies
  let outcome ← record.withDefault "then" str? standardOutcome
  let scenarios ← record.withDefault "scenarios" str? standardScenarios
  pure { given, stubs, spies, outcome, scenarios }

end Labels

namespace FactoryRule

/-- The rule as a record. -/
def toJson (rule : FactoryRule) : Json :=
  .obj [("annotation", .str rule.marker), ("factory", .str rule.factory)]

/-- Reads a rule from a record. -/
def ofJson? (value : Json) : Option FactoryRule := do
  let record ← Record.ofOpenJson? ["annotation", "factory"] value
  let marker ← record.required "annotation" str?
  let factory ← record.required "factory" str?
  pure { marker, factory }

end FactoryRule

namespace DoublePolicy

/-- The policy as a record. -/
def toJson (policy : DoublePolicy) : Json :=
  .obj [
    ("excluded_types", strings policy.excludedTypes),
    ("mock_final", .bool policy.mockFinal),
    ("mock_enums", .bool policy.mockEnums),
    ("mock_arrays", .bool policy.mockArrays),
    ("substitutions", .arr (policy.factories.map FactoryRule.toJson))]

/-- Reads a policy from a record. -/
def ofJson? (value : Json) : Option DoublePolicy := do
  let record ← Record.ofOpenJson?
    ["excluded_types", "mock_final", "mock_enums", "mock_arrays", "substitutions"] value
  let excludedTypes ← record.withDefault "excluded_types" (listOf? str?) standardExcludedTypes
  let mockFinal ← record.flag "mock_final" false
  let mockEnums ← record.flag "mock_enums" false
  let mockArrays ← record.flag "mock_arrays" false
  let factories ←
    record.withDefault "substitutions" (listOf? FactoryRule.ofJson?) standardFactories
  pure { excludedTypes, mockFinal, mockEnums, mockArrays, factories }

end DoublePolicy

namespace Settings

/-- The greatest depth that can be read. -/
def depthLimit : Nat := UInt64.size - 1

/-- The settings as a record. -/
def toJson (settings : Settings) : Json :=
  .obj [
    ("max_recursion_depth", .int settings.maxDepth),
    ("generate_pojo_prefix", .str settings.admittedText),
    ("spy_self_calls", .bool settings.spySelfCalls),
    ("matcher_dialect", .str settings.matcherDialect),
    ("naming", settings.naming.toJson),
    ("labels", settings.labels.toJson),
    ("mock_policy", settings.doublePolicy.toJson),
    ("tables", settings.tables.toJson)]

/-- Reads settings from a record. -/
def ofJson? (value : Json) : Option Settings := do
  let record ← Record.ofOpenJson?
    ["max_recursion_depth", "generate_pojo_prefix", "spy_self_calls", "matcher_dialect", "naming",
      "labels", "mock_policy", "tables"] value
  let maxDepth ←
    record.withDefault "max_recursion_depth" (natUpTo? depthLimit) standardMaxDepth
  let admittedText ← record.withDefault "generate_pojo_prefix" str? ""
  let spySelfCalls ← record.flag "spy_self_calls" standardSpySelfCalls
  let matcherDialect ← record.withDefault "matcher_dialect" str? standardMatcherDialect
  let naming ← record.withDefault "naming" Naming.ofJson? {}
  let labels ← record.withDefault "labels" Labels.ofJson? {}
  let doublePolicy ← record.withDefault "mock_policy" DoublePolicy.ofJson? {}
  let tables ← record.withDefault "tables" ExpressionTables.ofJson? {}
  pure {
    maxDepth, admittedText, spySelfCalls, matcherDialect, naming, labels, doublePolicy, tables }

/-- The settings as the document of a settings file. -/
def toDocument (settings : Settings) : Json :=
  .obj [("generator", settings.toJson)]

/-- Reads settings from the document of a settings file. -/
def ofDocument? (document : Json) : Option Settings := do
  let record ← Record.ofOpenJson? ["generator"] document
  record.withDefault "generator" ofJson? standard

end Settings

end Specwright
