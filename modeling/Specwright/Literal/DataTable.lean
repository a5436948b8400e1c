import Specwright.Literal.Synthesis

/-!
# Data tables

The table of a feature method has one column for each parameter and one for the expected result,
which a method without a value lacks, and a single row of literals.
-/

namespace Specwright

/-- A column of a data table with its value in the only row. -/
structure DataColumn where
  name : String
  value : String
  deriving Repr, DecidableEq, Inhabited

/-- A data table with one row. -/
structure DataTable where
  inputs : List DataColumn := []
  expected : Option DataColumn := none
  deriving Repr, DecidableEq, Inhabited

namespace DataTable

/-- Whether the table has no column. -/
def isEmpty (table : DataTable) : Bool :=
  table.inputs.isEmpty && table.expected.isNone

/-- The arguments of the call of the tested method. -/
def invocationArgs (table : DataTable) : String :=
  ", ".intercalate (table.inputs.map (·.value))

end DataTable

namespace ExpressionTables

/-- The column of a parameter. -/
def inputColumn (tables : ExpressionTables) (param : ParamModel) :
    Except ShapeError DataColumn := do
  let value ← tables.topLiteral param.name param.type
  pure ⟨param.name, value⟩

/-- The value that a method gives back, labelled; none for a method without one. -/
def resultLiteral? (tables : ExpressionTables) (label : String) (method : MethodModel) :
    Except ShapeError (Option String) :=
  match method.returnType with
  | some type =>
    if method.givesValue then (tables.topLiteral label type).map some else .ok none
  | none => .ok none

/-- The data table of a method with the given name for the column of the expected result. -/
def dataTable (tables : ExpressionTables) (expectedColumn : String) (method : MethodModel) :
    Except ShapeError DataTable := do
  let inputs ← method.params.mapM tables.inputColumn
  let result ← tables.resultLiteral? expectedColumn method
  pure { inputs, expected := result.map fun value => ⟨expectedColumn, value⟩ }

end ExpressionTables

end Specwright
