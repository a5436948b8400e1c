import Specwright.Feature.TestPlan

/-!
# The text of members

How the fields and methods of a plan are written in Groovy.  A method is a header, lines four spaces
deep, and a closing brace; the members themselves are not indented.
-/

namespace Specwright

/-- The blanks in front of a line inside a member. -/
def lineIndent : String := "    "

/-- A line inside a member, with its end. -/
def indentedLine (line : String) : String :=
  lineIndent ++ line ++ "\n"

/-- The lines inside a member. -/
def indentedLines (lines : List String) : String :=
  String.join (lines.map indentedLine)

/-- A method: the text up to its opening brace, the lines of its body, and the closing brace. -/
def methodText (header : String) (lines : List String) : String :=
  header ++ "\x7b\n" ++ indentedLines lines ++ "\x7d"

/-- The label of a block, with its description in quotes if there is one. -/
def blockLabel (block description : String) : String :=
  if description.isEmpty then block ++ ":"
  else block ++ ": \"" ++ Text.replaceAll "\"" "\\\"" description ++ "\""

namespace SubjectPlan

/-- The declaration of the field with the instance under test. -/
def render (subject : SubjectPlan) : String :=
  "def " ++ subject.name ++ " = new " ++ subject.type ++ "()"

end SubjectPlan

namespace DoublePlan

/-- The declaration of a field with a double. -/
def render (plan : DoublePlan) : String :=
  match plan.double with
  | .mock => "def " ++ plan.name ++ " = Mock(" ++ plan.type ++ ")"
  | .factory expression => "def " ++ plan.name ++ " = " ++ expression

end DoublePlan

namespace Naming

/-- The statement that puts a double into the instance under test. -/
def assignment (naming : Naming) (double : String) : String :=
  naming.subjectName ++ "." ++ double ++ " = " ++ double

/-- The fixture method with the given statements. -/
def fixture (naming : Naming) (statements : List String) : String :=
  methodText ("def " ++ naming.fixtureName ++ "()") statements

/-- The declaration of the spy. -/
def spyDeclaration (naming : Naming) : String :=
  "def " ++ naming.spyName ++ " = Spy(" ++ naming.subjectName ++ ")"

end Naming

namespace DoubleResponse

/-- The response of a double to a call. -/
def render (stub : DoubleResponse) : String :=
  stub.receiver ++ "." ++ stub.method ++ "(" ++ stub.matchers ++ ") >> " ++ stub.response

end DoubleResponse

namespace SpyResponse

/-- The response of the spy to a call; without a value it does nothing. -/
def render (naming : Naming) (spy : SpyResponse) : String :=
  naming.spyName ++ "." ++ spy.method ++ "(" ++ spy.matchers ++ ") >> "
    ++ spy.response.getD "\x7b\x7d"

end SpyResponse

namespace DataTable

/-- The column that goes beside a lone one. -/
def paddingColumn : String := "_"

/-- Cells of one row. -/
def cells (texts : List String) : String :=
  " | ".intercalate texts

/-- The lines of the table: a data pipe for the expected result alone, otherwise a header and a
row.  A table needs two columns, so a lone input is padded. -/
def render (table : DataTable) : List String :=
  let names := table.inputs.map (·.name)
  let values := table.inputs.map (·.value)
  match table.expected with
  | some expected =>
    if table.inputs.isEmpty then [expected.name ++ " << [" ++ expected.value ++ "]"]
    else
      [cells names ++ " || " ++ expected.name, cells values ++ " || " ++ expected.value]
  | none =>
    if table.inputs.length = 1 then
      [cells (names ++ [paddingColumn]), cells (values ++ [paddingColumn])]
    else [cells names, cells values]

end DataTable

namespace FeaturePlan

/-- The lines that set up doubles and spy. -/
def setupLines (naming : Naming) (labels : Labels) (plan : FeaturePlan) : List String :=
  if plan.hasSetup then
    [blockLabel "given" labels.given, blockLabel "and" labels.stubs]
      ++ plan.stubs.map DoubleResponse.render
      ++ (if plan.spy then
          [blockLabel "and" labels.spies, naming.spyDeclaration]
            ++ plan.spies.map (SpyResponse.render naming)
        else [])
  else []

/-- The name of what the tested method is called on. -/
def receiverName (naming : Naming) (plan : FeaturePlan) : String :=
  match plan.receiver with
  | .static type => type
  | .spy => naming.spyName
  | .subject => naming.subjectName

/-- The call of the tested method, its value kept if there is one. -/
def invocation (naming : Naming) (plan : FeaturePlan) : String :=
  let call := plan.receiverName naming ++ "." ++ plan.method ++ "(" ++ plan.args ++ ")"
  if plan.returnsValue then "def " ++ naming.resultName ++ " = " ++ call else call

/-- What has to hold after the call. -/
def assertion (naming : Naming) (plan : FeaturePlan) : String :=
  if plan.returnsValue then naming.resultName ++ " == " ++ naming.expectedColumn
  else "noExceptionThrown()"

/-- The lines with the data table. -/
def tableLines (labels : Labels) (plan : FeaturePlan) : List String :=
  if plan.table.isEmpty then []
  else blockLabel "where" labels.scenarios :: plan.table.render

/-- The lines of the body. -/
def bodyLines (naming : Naming) (labels : Labels) (plan : FeaturePlan) : List String :=
  plan.setupLines naming labels
    ++ ["when:", plan.invocation naming]
    ++ [blockLabel "then" labels.outcome, plan.assertion naming]
    ++ plan.tableLines labels

/-- The annotation on a line of its own, if there is one. -/
def markerLine (naming : Naming) : String :=
  if naming.unrollMarker.isEmpty then "" else "@" ++ naming.unrollMarker ++ "\n"

/-- The feature method from its annotation to the closing brace. -/
def render (naming : Naming) (labels : Labels) (plan : FeaturePlan) : String :=
  markerLine naming
    ++ methodText ("def \"" ++ plan.name ++ "\"()") (plan.bodyLines naming labels)

end FeaturePlan

end Specwright
