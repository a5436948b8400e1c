import Specwright.Proofs.Text.Composition

/-!
# Texts of one line

Texts without a line end stay so when they are composed and when patterns in them are replaced.  A
text that is put together of lines, each with its end, is these lines with line ends between them.
-/

namespace Specwright

namespace Text

/-- A text that ends no line. -/
def SingleLine (text : String) : Prop :=
  '\n' ∉ text.toList

instance (text : String) : Decidable (SingleLine text) :=
  inferInstanceAs (Decidable ('\n' ∉ text.toList))

@[simp]
theorem singleLine_append_iff {text other : String} :
    SingleLine (text ++ other) ↔ SingleLine text ∧ SingleLine other := by
  simp [SingleLine]

/-! ## Replacement -/

/-- The pieces of a text have its characters only. -/
theorem mem_of_mem_piecesFrom
    {pattern : List Char} {skip : Nat} {text piece : List Char} {c : Char}
    (hpiece : piece ∈ piecesFrom pattern skip text) (hc : c ∈ piece) : c ∈ text := by
  induction text generalizing skip piece with
  | nil =>
      rw [piecesFrom, List.mem_singleton] at hpiece
      rwa [hpiece] at hc
  | cons first rest ih =>
      cases skip with
      | succ skip => exact List.mem_cons_of_mem _ (ih hpiece hc)
      | zero =>
          rw [piecesFrom] at hpiece
          split at hpiece
          · rcases List.mem_cons.mp hpiece with rfl | hrest
            · cases hc
            · exact List.mem_cons_of_mem _ (ih hrest hc)
          · split at hpiece
            next inside pieces hpieces =>
              rcases List.mem_cons.mp hpiece with rfl | hrest
              · rcases List.mem_cons.mp hc with rfl | hinside
                · exact List.mem_cons_self
                · exact List.mem_cons_of_mem _
                    (ih (hpieces ▸ List.mem_cons_self : inside ∈ piecesFrom pattern 0 rest) hinside)
              · exact List.mem_cons_of_mem _ (ih (hpieces ▸ List.mem_cons_of_mem _ hrest) hc)
            next hnone => exact absurd hnone (piecesFrom_ne_nil _ _ _)

/-- A character between or in pieces is one of the separator or of a piece. -/
theorem mem_or_exists_of_mem_intercalate
    {separator : List Char} {pieces : List (List Char)} {c : Char}
    (h : c ∈ separator.intercalate pieces) : c ∈ separator ∨ ∃ piece ∈ pieces, c ∈ piece := by
  induction pieces with
  | nil => simp [List.intercalate] at h
  | cons piece pieces ih =>
      by_cases hnone : pieces = []
      · subst hnone
        exact Or.inr ⟨piece, List.mem_cons_self, by simpa [List.intercalate] using h⟩
      · rw [List.intercalate_cons_of_ne_nil hnone, List.mem_append, List.mem_append] at h
        rcases h with (hpiece | hseparator) | hrest
        · exact Or.inr ⟨piece, List.mem_cons_self, hpiece⟩
        · exact Or.inl hseparator
        · refine (ih hrest).imp_right ?_
          rintro ⟨other, hother, hc⟩
          exact ⟨other, List.mem_cons_of_mem _ hother, hc⟩

theorem SingleLine.replaceAll
    {pattern replacement text : String} (htext : SingleLine text)
    (hreplacement : SingleLine replacement) : SingleLine (replaceAll pattern replacement text) := by
  rw [SingleLine, Text.replaceAll, String.toList_ofList]
  intro hmem
  rcases mem_or_exists_of_mem_intercalate hmem with hseparator | ⟨piece, hpiece, hc⟩
  · exact hreplacement hseparator
  · exact htext (mem_of_mem_piecesFrom hpiece hc)

/-- A pattern of one character is replaced character by character. -/
theorem intercalate_piecesFrom_singleton
    (mark : Char) (replacement text : List Char) :
    replacement.intercalate (piecesFrom [mark] 0 text) =
      text.flatMap fun c => if c = mark then replacement else [c] := by
  induction text with
  | nil => simp [piecesFrom, List.intercalate]
  | cons c rest ih =>
      rw [List.flatMap_cons, ← ih, piecesFrom]
      by_cases hc : c = mark
      · have hprefix : [mark].isPrefixOf (c :: rest) = true := by simp [hc]
        rw [if_pos hprefix, if_pos hc, List.intercalate_cons_of_ne_nil (piecesFrom_ne_nil _ _ _)]
        rfl
      · have hprefix : ¬[mark].isPrefixOf (c :: rest) = true := by simp [Ne.symm hc]
        rw [if_neg hprefix, if_neg hc]
        split
        next piece pieces hpieces =>
          rw [List.intercalate_cons_cons_left, hpieces]
          rfl
        next hnone => exact absurd hnone (piecesFrom_ne_nil _ _ _)

theorem compositional_singleLine : Compositional SingleLine where
  neutral {text} h hmem := by
    have hneutral := List.all_eq_true.mp h _ hmem
    exact absurd hneutral (by decide)
  append h h' := singleLine_append_iff.mpr ⟨h, h'⟩
  bracketed h := by
    rw [singleLine_append_iff, singleLine_append_iff]
    exact ⟨⟨by decide, h⟩, by decide⟩
  parenthesized h := by
    rw [singleLine_append_iff, singleLine_append_iff]
    exact ⟨⟨by decide, h⟩, by decide⟩
  braced h := by
    rw [singleLine_append_iff, singleLine_append_iff]
    exact ⟨⟨by decide, h⟩, by decide⟩
  replaceAll _ _ hreplacement htext := htext.replaceAll hreplacement

/-! ## Lines -/

/-- Lines that each end, and one behind them that does not, are all these lines with line ends
between them. -/
theorem join_append_eq_intercalate (lines : List String) (last : String) :
    String.join (lines.map (· ++ "\n")) ++ last = "\n".intercalate (lines ++ [last]) := by
  induction lines with
  | nil => simp
  | cons line rest ih =>
      rw [List.map_cons, String.join_cons, String.append_assoc, ih, List.cons_append,
        String.intercalate_cons_of_ne_nil (by simp)]

end Text

end Specwright
