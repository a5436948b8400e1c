import Specwright.Proofs.Literal.Texts
import Specwright.Proofs.Text.Lines

/-!
# Shapes of one line

A shape that is filled has the characters of the shape, of the values and of the types, and besides
them only brackets and commas.  So literals have no line end where the tables and the types have
none.
-/

namespace Specwright

namespace Shape

open Text (SingleLine)

variable {values : List String}

theorem notMem_placed {value : String} (h : SingleLine value) (asKey : Bool) :
    '\n' ∉ placed value asKey := by
  rw [placed]
  split
  · simpa [SingleLine] using h
  · exact h

theorem notMem_weave
    (hvalues : ∀ value ∈ values, SingleLine value) {pieces : List (List Char)}
    (hpieces : ∀ piece ∈ pieces, '\n' ∉ piece) (index : Nat) :
    '\n' ∉ weave values index pieces := by
  induction pieces generalizing index with
  | nil => simp [weave]
  | cons piece pieces ih =>
      obtain ⟨hpiece, hrest⟩ := List.forall_mem_cons.mp hpieces
      cases pieces with
      | nil => exact hpiece
      | cons next rest =>
          rw [weave, List.mem_append, List.mem_append]
          rintro ((hmem | hmem) | hmem)
          · exact hpiece hmem
          · exact notMem_placed (Text.compositional_singleLine.valueFor hvalues index) _ hmem
          · exact ih hrest (index + 1) hmem

end Shape

theorem Text.literalProperty_singleLine : LiteralProperty SingleLine where
  toCompositional := compositional_singleLine
  weave {shape values} hshape hvalues := by
    rw [SingleLine, String.toList_ofList]
    refine Shape.notMem_weave hvalues ?_ 0
    intro piece hpiece hc
    exact hshape (mem_of_mem_piecesFrom hpiece hc)

theorem ContainerShapes.singleLine_standard :
    ∀ entry ∈ standard.entries, Text.SingleLine entry.shape := by
  decide +kernel

/-- The literals and matchers that are there by default are of one line. -/
theorem ExpressionTables.singleLine_standard :
    ∀ text ∈ (default : ExpressionTables).texts, Text.SingleLine text := by
  refine forall_mem_texts.mpr ⟨⟨⟨?shapes, ?shapes⟩, ?defaults⟩, ?matchers⟩
  case shapes => exact ContainerShapes.singleLine_standard
  case defaults => exact SortedMap.forall_mem_ofList (by decide +kernel)
  case matchers => exact SortedMap.forall_mem_ofList (by decide +kernel)

end Specwright
