import Specwright.Proofs.Literal.Texts
import Specwright.Proofs.Session.Brackets

/-!
# Brackets in literals

Placeholders are no brackets, so a shape that is filled has the brackets of the shape and, in place
of placeholders, those of balanced values.  Literals are therefore balanced when the tables are and
all that is written of the types is.
-/

namespace Specwright

open Text (WellNested SameBrackets)

/-! ## Filling -/

namespace Shape

variable {values : List String}

theorem wellNested_placed {value : String} (h : Text.Balanced value) (asKey : Bool) :
    WellNested (placed value asKey) := by
  rw [placed]
  split
  · exact .nest rfl h .nil
  · exact h

/-- Balanced values that are put between pieces count as little as the placeholders did. -/
theorem sameBrackets_weave
    (h : ∀ value ∈ values, Text.Balanced value) (index : Nat) (pieces : List (List Char)) :
    SameBrackets (weave values index pieces) (valueMark.toList.intercalate pieces) := by
  have hmark : Text.Balanced valueMark := Text.balanced_of_plain rfl
  induction pieces generalizing index with
  | nil => exact .refl []
  | cons piece pieces ih =>
      cases pieces with
      | nil => simpa [weave, List.intercalate] using SameBrackets.refl piece
      | cons next rest =>
          have hvalue := wellNested_placed (Text.compositional_balanced.valueFor h index)
            (next.head? == some ':')
          rw [weave, List.intercalate_cons_of_ne_nil (List.cons_ne_nil next rest)]
          exact ((SameBrackets.refl piece).append (hvalue.same hmark)).append (ih (index + 1))

end Shape

theorem Text.literalProperty_balanced : LiteralProperty Balanced where
  toCompositional := compositional_balanced
  weave {shape values} hshape hvalues := by
    rw [Balanced, String.toList_ofList]
    have hwoven := Shape.sameBrackets_weave hvalues 0 (splitAtPattern Shape.valueMark shape.toList)
    rw [intercalate_splitAtPattern (by decide)] at hwoven
    exact hwoven.wellNested_iff.mpr hshape

/-! ## Tables -/

/-- Whether all texts in the tables are balanced. -/
structure ExpressionTables.WellBracketed (tables : ExpressionTables) : Prop where
  shapes : ∀ entry ∈ tables.shapes.entries, Text.Balanced entry.shape
  nestedShapes : ∀ entry ∈ tables.nestedShapes.entries, Text.Balanced entry.shape
  defaults : ∀ entry ∈ tables.defaults.entries, Text.Balanced entry.2
  matchers : ∀ dialect ∈ tables.matchers.entries, ∀ entry ∈ dialect.2.entries, Text.Balanced entry.2

theorem ExpressionTables.WellBracketed.texts
    {tables : ExpressionTables} (h : tables.WellBracketed) :
    ∀ text ∈ tables.texts, Text.Balanced text :=
  forall_mem_texts.mpr ⟨⟨⟨h.shapes, h.nestedShapes⟩, h.defaults⟩, h.matchers⟩

/-- Whether the name and the value of a column are balanced. -/
structure DataColumn.WellBracketed (column : DataColumn) : Prop where
  name : Text.Balanced column.name
  value : Text.Balanced column.value

/-- Whether all texts in a table are balanced. -/
structure DataTable.WellBracketed (table : DataTable) : Prop where
  inputs : ∀ column ∈ table.inputs, column.WellBracketed
  expected : ∀ column ∈ table.expected, column.WellBracketed

theorem DataColumn.wellBracketed_iff {column : DataColumn} :
    column.WellBracketed ↔ Text.Balanced column.name ∧ Text.Balanced column.value :=
  ⟨fun h => ⟨h.name, h.value⟩, fun ⟨hname, hvalue⟩ => ⟨hname, hvalue⟩⟩

theorem DataTable.wellBracketed_iff {table : DataTable} :
    table.WellBracketed ↔ ∀ text ∈ table.texts, Text.Balanced text := by
  simp only [forall_mem_texts, ← DataColumn.wellBracketed_iff]
  exact ⟨fun h => ⟨h.inputs, h.expected⟩, fun ⟨hinputs, hexpected⟩ => ⟨hinputs, hexpected⟩⟩

end Specwright
