import Specwright.Proofs.Text.Brackets

/-!
# Brackets in texts that are taken apart

A text is its pieces with the pattern between them, and its lines are what is left of it without
line ends.  So replacing a pattern, and writing lines in another way, leave a text balanced.
-/

namespace Specwright

namespace Text

variable {pattern replacement text : List Char}

theorem piecesFrom_ne_nil (pattern : List Char) (skip : Nat) (text : List Char) :
    piecesFrom pattern skip text ≠ [] := by
  induction text generalizing skip with
  | nil => simp [piecesFrom]
  | cons c rest ih =>
      cases skip with
      | succ skip => exact ih skip
      | zero =>
          rw [piecesFrom]
          split
          · simp
          · split
            · simp
            · simp

/-- The pieces with the pattern between them make up the text, as far as it is not passed over. -/
theorem intercalate_piecesFrom
    (hpattern : pattern ≠ []) (skip : Nat) (text : List Char) :
    pattern.intercalate (piecesFrom pattern skip text) = text.drop skip := by
  induction text generalizing skip with
  | nil => simp [piecesFrom, List.intercalate]
  | cons c rest ih =>
      cases skip with
      | succ skip => exact ih skip
      | zero =>
          rw [piecesFrom]
          split
          next hprefix =>
            obtain ⟨behind, hbehind⟩ := List.isPrefixOf_iff_prefix.mp hprefix
            obtain ⟨first, others, rfl⟩ := List.exists_cons_of_ne_nil hpattern
            obtain ⟨rfl, hrest⟩ := List.cons.inj hbehind
            rw [List.intercalate_cons_of_ne_nil (piecesFrom_ne_nil _ _ _), ih, ← hrest]
            simp
          next =>
            split
            next piece pieces hpieces =>
              rw [List.intercalate_cons_cons_left, ← hpieces, ih]
              rfl
            next hnone => exact absurd hnone (piecesFrom_ne_nil _ _ _)

theorem intercalate_splitAtPattern {pattern : String} (hsome : pattern ≠ "") (text : List Char) :
    pattern.toList.intercalate (splitAtPattern pattern text) = text :=
  intercalate_piecesFrom (fun h => hsome (String.toList_injective h)) 0 text

/-- What stands between pieces may be exchanged for what has the same brackets. -/
theorem SameBrackets.intercalate
    (h : SameBrackets pattern replacement) (pieces : List (List Char)) :
    SameBrackets (pattern.intercalate pieces) (replacement.intercalate pieces) := by
  induction pieces with
  | nil => exact .refl _
  | cons piece pieces ih =>
      by_cases hnone : pieces = []
      · subst hnone
        simpa [List.intercalate] using SameBrackets.refl piece
      · rw [List.intercalate_cons_of_ne_nil hnone, List.intercalate_cons_of_ne_nil hnone]
        exact ((SameBrackets.refl piece).append h).append ih

/-- A balanced text stays balanced when a balanced pattern is replaced by a balanced text. -/
theorem Balanced.replaceAll
    {pattern replacement text : String} (htext : Balanced text) (hsome : pattern ≠ "")
    (hpattern : Balanced pattern) (hreplacement : Balanced replacement) :
    Balanced (replaceAll pattern replacement text) := by
  have hsame := SameBrackets.intercalate (WellNested.same hreplacement hpattern)
    (splitAtPattern pattern text.toList)
  rw [intercalate_splitAtPattern hsome] at hsame
  rw [Balanced, Text.replaceAll, String.toList_ofList]
  exact hsame.wellNested_iff.mpr htext

/-! ## Lines -/

/-- The lines of a text have its brackets. -/
theorem sameBrackets_linesOf (text : List Char) : SameBrackets (linesOf text).flatten text := by
  have hfeed (rest : List Char) : SameBrackets rest ('\n' :: rest) :=
    (sameBrackets_plain rfl rest).symm
  fun_induction linesOf text with
  | case1 => exact .refl []
  | case2 rest ih =>
      refine SameBrackets.trans ?_ (sameBrackets_plain rfl _).symm
      exact ih.trans (hfeed rest)
  | case3 rest ih => exact ih.trans (hfeed rest)
  | case4 c rest _ _ line lines hlines ih =>
      rw [hlines] at ih
      exact ih.cons c
  | case5 c rest _ _ hnone ih =>
      rw [hnone] at ih
      exact ih.cons c

/-- Lines that are written with their brackets make up a text with the brackets of all. -/
theorem sameBrackets_flatMap
    {written : List Char → List Char} (h : ∀ line, SameBrackets (written line) line)
    (lines : List (List Char)) :
    SameBrackets (lines.flatMap written) lines.flatten := by
  induction lines with
  | nil => exact .refl []
  | cons line rest ih =>
      rw [List.flatMap_cons, List.flatten_cons]
      exact (h line).append ih

end Text

end Specwright
