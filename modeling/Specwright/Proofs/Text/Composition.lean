import Specwright.Proofs.Text.Pieces

/-!
# Texts that are composed

A property of texts that holds of what has no brackets and no line ends, and is kept when texts are
put one behind the other, in a pair of brackets or in the place of others, holds of all that is
composed in these ways of texts that have it.
-/

namespace Specwright

namespace Text

/-- A character that is no bracket and ends no line. -/
def isNeutral (c : Char) : Bool :=
  isPlain c && c != '\n'

/-- Whether a property of texts is kept when texts are composed. -/
structure Compositional (good : String → Prop) : Prop where
  neutral {text : String} : text.toList.all isNeutral = true → good text
  append {text other : String} : good text → good other → good (text ++ other)
  bracketed {text : String} : good text → good ("[" ++ text ++ "]")
  parenthesized {text : String} : good text → good ("(" ++ text ++ ")")
  braced {text : String} : good text → good ("\x7b" ++ text ++ "\x7d")
  replaceAll {pattern replacement text : String} :
    pattern ≠ "" → good pattern → good replacement → good text →
      good (Text.replaceAll pattern replacement text)

namespace Compositional

variable {good : String → Prop} (hgood : Compositional good)

include hgood

theorem empty : good "" :=
  hgood.neutral rfl

theorem join {texts : List String} (h : ∀ text ∈ texts, good text) : good (String.join texts) := by
  induction texts with
  | nil => exact hgood.empty
  | cons first rest ih =>
      obtain ⟨hfirst, hrest⟩ := List.forall_mem_cons.mp h
      rw [String.join_cons]
      exact hgood.append hfirst (ih hrest)

theorem intercalate
    {separator : String} {texts : List String} (hseparator : good separator)
    (h : ∀ text ∈ texts, good text) :
    good (separator.intercalate texts) := by
  induction texts with
  | nil => exact hgood.empty
  | cons first rest ih =>
      obtain ⟨hfirst, hrest⟩ := List.forall_mem_cons.mp h
      cases rest with
      | nil => simpa using hfirst
      | cons second rest =>
          rw [String.intercalate_cons_cons]
          exact hgood.append (hgood.append hfirst hseparator) (ih hrest)

end Compositional

theorem compositional_balanced : Compositional Balanced where
  neutral h := by
    refine balanced_of_plain (List.all_eq_true.mpr fun c hc => ?_)
    exact (Bool.and_eq_true_iff.mp (List.all_eq_true.mp h c hc)).1
  append := Balanced.append
  bracketed h := by
    simp only [balanced_iff, awaitedBehind_text_append, h.read]
    rfl
  parenthesized h := by
    simp only [balanced_iff, awaitedBehind_text_append, h.read]
    rfl
  braced h := by
    simp only [balanced_iff, awaitedBehind_text_append, h.read]
    rfl
  replaceAll hsome hpattern hreplacement htext := htext.replaceAll hsome hpattern hreplacement

end Text

end Specwright
