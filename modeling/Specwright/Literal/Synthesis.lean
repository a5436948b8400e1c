import Specwright.Literal.Shape
import Specwright.Model.Basic
import Specwright.Settings.Basic

/-!
# Literals for types

A literal stands for a value of a type.  The tables come first: a default literal, then a shape of
the type itself or of the first container type above it.  Texts are their label in quotes, arrays
have one element, enums give their first constant, and classes that can be made without arguments
are made so.  What is left is null.

The literals inside a shape or an array are taken from a table of their own.
-/

namespace Specwright

/-- The types whose literal is the label in quotes. -/
def textTypes : List String :=
  ["java.lang.String", "java.lang.Object", "scala.Nothing", "scala.Predef.String", "String"]

/-- The label in quotes. -/
def quotedLabel (label : String) : String :=
  "\"" ++ label ++ "\""

namespace TypeModel

/-- The literal of a type to which no table applies. -/
def constructedLiteral (type : TypeModel) : String :=
  match type.facts.isEnum, type.facts.enumValues with
  | true, constant :: _ => type.erasedName ++ "." ++ constant
  | _, _ =>
    if type.hasEmptyConstructor then "new " ++ type.erasedName ++ "()" else Shape.noValue

end TypeModel

namespace ContainerShapes

/-- The shape for a class: its own, or else that of the first type in the table above it. -/
def shapeFor?
    (table : ContainerShapes) (name : String) (supertypes : List String) :
    Option String :=
  (table.shapeOf? name).or ((table.firstAmong? supertypes).map (·.shape))

end ContainerShapes

namespace ExpressionTables

mutual

/-- The literal of a type, with the label for texts and the shapes that apply at the top. -/
def literal (tables : ExpressionTables) (label : String) (shapes : ContainerShapes) :
    TypeModel → Except ShapeError String
  | ⟨names, facts, populated, args, element, fields, methods⟩ =>
    match tables.defaults.get? names.erasedName with
    | some literal => .ok literal
    | none =>
      if names.erasedName ∈ textTypes then .ok (quotedLabel label)
      else
        match element with
        | some element => do
          let value ← literal tables label tables.nestedShapes element
          pure ("[" ++ value ++ "] as " ++ names.erasedName)
        | none =>
          match shapes.shapeFor? names.erasedName facts.supertypes with
          | some shape => do
            let values ← literals tables label args
            Shape.fill shape values (args.map (·.spelling))
          | none =>
            .ok (TypeModel.mk names facts populated args none fields methods).constructedLiteral

/-- The literals inside a shape. -/
def literals (tables : ExpressionTables) (label : String) :
    List TypeModel → Except ShapeError (List String)
  | [] => .ok []
  | type :: rest => do
    let value ← literal tables label tables.nestedShapes type
    let values ← literals tables label rest
    pure (value :: values)

end

/-- The literal of a parameter, a result or a response. -/
def topLiteral (tables : ExpressionTables) (label : String) (type : TypeModel) :
    Except ShapeError String :=
  tables.literal label tables.shapes type

end ExpressionTables

end Specwright
