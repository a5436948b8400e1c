import Specwright.Json.Printer
import Specwright.Report.Failure

/-!
# Responses

What a command answers, as JSON.  Every response starts with its status and the version of its form.
Lists that are usually empty and values that may be absent are left out instead of being written
empty.
-/

namespace Specwright

namespace Response

/-- The version of the form of responses. -/
def formVersion : String := "1"

/-- A response of a status. -/
def withStatus (status : String) (members : List (String × Json)) : Json :=
  .obj ([("status", .str status), ("schema_version", .str formVersion)] ++ members)

/-- A member that is left out when it has no items. -/
def unlessEmpty (key : String) (texts : List String) : List (String × Json) :=
  if texts.isEmpty then [] else [(key, Json.strings texts)]

/-- A member that is left out when there is no text. -/
def ifPresent (key : String) (text : Option String) : List (String × Json) :=
  text.toList.map fun text => (key, .str text)

/-- The text of a response, with the end of its last line. -/
def text (response : Json) : String :=
  response.pretty ++ "\n"

end Response

open Response

namespace Failure

/-- The response of a failed command. -/
def response (failure : Failure) : Json :=
  withStatus "error" [
    ("error", .obj ([("code", .int failure.code), ("message", .str failure.message)]
      ++ failure.details?.toList.map fun details => ("details", details)))]

end Failure

/-- What the command that generates answers. -/
structure GenerationSummary where
  target : String
  fieldsAdded : List String := []
  fixtureUpdated : Bool := false
  methodsAdded : List String := []
  methodsSkipped : List String := []
  source : Option String := none
  deriving Repr, DecidableEq, Inhabited

namespace GenerationSummary

/-- The answer for a report and the source of the target. -/
def ofReport (report : GenerationResult) (source : String) : GenerationSummary where
  target := report.target
  fieldsAdded := report.fieldsAdded
  fixtureUpdated := report.fixtureUpdated
  methodsAdded := report.methodsAdded
  methodsSkipped := report.methodsSkipped
  source := some source

/-- The response as JSON. -/
def toJson (response : GenerationSummary) : Json :=
  withStatus "ok" ([
    ("target", .str response.target),
    ("fields_added", Json.strings response.fieldsAdded),
    ("fixture_updated", .bool response.fixtureUpdated),
    ("methods_added", Json.strings response.methodsAdded)]
    ++ unlessEmpty "methods_skipped" response.methodsSkipped
    ++ ifPresent "source" response.source)

end GenerationSummary

namespace CacheCounters

/-- The counters as a record. -/
def toJson (stats : CacheCounters) : Json :=
  .obj [("hits", .int stats.hits), ("misses", .int stats.misses), ("stubs", .int stats.leaves)]

end CacheCounters

namespace FieldModel

/-- The field in short. -/
def summary (field : FieldModel) : Json :=
  .obj [
    ("name", .str field.name),
    ("type", .str field.type.spelling),
    ("owner", .str field.owner),
    ("is_static", .bool field.isStatic),
    ("inherited", .bool field.inherited)]

end FieldModel

namespace ParamModel

/-- The parameter in short: its name and its type. -/
def summary (param : ParamModel) : String :=
  param.name ++ ": " ++ param.type.spelling

end ParamModel

namespace MethodModel

/-- The method in short. -/
def summary (method : MethodModel) : Json :=
  .obj ([
    ("method_id", .str method.id),
    ("name", .str method.name),
    ("owner", .str method.owner)]
    ++ ifPresent "return_type" (method.returnType.map (·.spelling))
    ++ [
      ("params", Json.strings (method.params.map ParamModel.summary)),
      ("testable", .bool method.isTested),
      ("flags", .obj (method.traits.toList.map fun (name, value) => (name, .bool value))),
      ("calls", Json.strings (method.directCalls.map (·.callee.id))),
      ("spy_methods", Json.strings (method.siblingCallees.map (·.id)))]
    ++ unlessEmpty "method_references" (method.methodRefs.map (·.id))
    ++ unlessEmpty "indirectly_affected_fields" (method.affectedFields.map (·.name)))

end MethodModel

namespace TypeModel

/-- What the command that inspects a class answers. -/
def inspection (type : TypeModel) (cache : CacheCounters) : Json :=
  withStatus "ok" [
    ("class", .str type.erasedName),
    ("supertypes", Json.strings type.facts.supertypes),
    ("fields", .arr (type.fields.map FieldModel.summary)),
    ("methods", .arr (type.methods.map MethodModel.summary)),
    ("cache", cache.toJson)]

end TypeModel

end Specwright
