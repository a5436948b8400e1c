import Mathlib.Data.List.Basic
import Specwright.Text.Split

/-!
# Brackets in texts

A text is balanced when its brackets form a well-nested word.  Balance is decided by reading: what
counts about a text is only which closing brackets are waited for behind it.  Two texts that cannot
be told apart in this way may stand for each other anywhere, so a balanced text may be put into
another one, or be taken out of it, at any place.
-/

namespace Specwright

namespace Text

/-- The bracket that closes a bracket. -/
def closing? : Char → Option Char
  | '(' => some ')'
  | '[' => some ']'
  | '\x7b' => some '\x7d'
  | _ => none

/-- A closing bracket. -/
def isClosing (c : Char) : Bool :=
  c = ')' || c = ']' || c = '\x7d'

/-- A character that is no bracket. -/
def isPlain (c : Char) : Bool :=
  (closing? c).isNone && !isClosing c

/-- Whether the brackets in a word are well nested. -/
inductive WellNested : List Char → Prop
  | nil : WellNested []
  | plain {c : Char} {rest : List Char} :
      isPlain c = true → WellNested rest → WellNested (c :: rest)
  | nest {opening closing : Char} {inside rest : List Char} :
      closing? opening = some closing → WellNested inside → WellNested rest →
        WellNested (opening :: (inside ++ closing :: rest))

/-- A text whose brackets are well nested. -/
def Balanced (text : String) : Prop :=
  WellNested text.toList

/-! ## Reading -/

/-- The closing brackets that are waited for behind a character, the nearest first, when some are
waited for in front of it; nothing when it closes another bracket than the nearest. -/
def awaitedAfter (awaited : List Char) (c : Char) : Option (List Char) :=
  match closing? c with
  | some closing => some (closing :: awaited)
  | none =>
    if isClosing c then
      match awaited with
      | nearest :: others => if nearest = c then some others else none
      | [] => none
    else some awaited

/-- The closing brackets that are waited for behind a word. -/
def awaitedBehind (awaited word : List Char) : Option (List Char) :=
  word.foldlM awaitedAfter awaited

variable {awaited word word' more more' inside : List Char} {opening closing : Char}

theorem isClosing_of_closing? (h : closing? opening = some closing) :
    isClosing closing = true ∧ closing? closing = none := by
  unfold closing? at h
  split at h
  · cases h
    exact ⟨rfl, rfl⟩
  · cases h
    exact ⟨rfl, rfl⟩
  · cases h
    exact ⟨rfl, rfl⟩
  · cases h

theorem awaitedAfter_opening (h : closing? opening = some closing) :
    awaitedAfter awaited opening = some (closing :: awaited) := by
  unfold awaitedAfter
  rw [h]

theorem awaitedAfter_closing (h : closing? opening = some closing) :
    awaitedAfter (closing :: awaited) closing = some awaited := by
  obtain ⟨hcloses, hnone⟩ := isClosing_of_closing? h
  unfold awaitedAfter
  rw [hnone]
  simp [hcloses]

theorem awaitedAfter_plain {c : Char} (h : isPlain c = true) :
    awaitedAfter awaited c = some awaited := by
  obtain ⟨hopens, hcloses⟩ := Bool.and_eq_true_iff.mp h
  unfold awaitedAfter
  have hclosing : isClosing c = false := by simpa using hcloses
  rw [Option.isNone_iff_eq_none.mp hopens]
  simp [hclosing]

theorem awaitedBehind_cons (awaited : List Char) (c : Char) (word : List Char) :
    awaitedBehind awaited (c :: word) =
      (awaitedAfter awaited c).bind (awaitedBehind · word) :=
  List.foldlM_cons

theorem awaitedBehind_append (awaited word more : List Char) :
    awaitedBehind awaited (word ++ more) =
      (awaitedBehind awaited word).bind (awaitedBehind · more) :=
  List.foldlM_append

/-- Whether two words cannot be told apart by what is waited for behind them. -/
def SameBrackets (word other : List Char) : Prop :=
  ∀ awaited, awaitedBehind awaited word = awaitedBehind awaited other

theorem SameBrackets.refl (word : List Char) : SameBrackets word word :=
  fun _ => rfl

theorem SameBrackets.symm (h : SameBrackets word more) : SameBrackets more word :=
  fun awaited => (h awaited).symm

theorem SameBrackets.trans (h : SameBrackets word more) (h' : SameBrackets more inside) :
    SameBrackets word inside :=
  fun awaited => (h awaited).trans (h' awaited)

theorem SameBrackets.append (h : SameBrackets word word') (h' : SameBrackets more more') :
    SameBrackets (word ++ more) (word' ++ more') := by
  intro awaited
  rw [awaitedBehind_append, awaitedBehind_append, h awaited]
  congr 1
  funext between
  exact h' between

theorem SameBrackets.cons (c : Char) (h : SameBrackets word more) :
    SameBrackets (c :: word) (c :: more) :=
  SameBrackets.append (.refl [c]) h

theorem sameBrackets_plain {c : Char} (h : isPlain c = true) (word : List Char) :
    SameBrackets (c :: word) word := by
  intro awaited
  rw [awaitedBehind_cons, awaitedAfter_plain h]
  rfl

/-! ## Reading decides -/

theorem WellNested.append (h : WellNested word) (h' : WellNested more) :
    WellNested (word ++ more) := by
  induction h with
  | nil => exact h'
  | plain hplain _ ih => exact .plain hplain ih
  | nest hcloses hinside _ _ ih =>
      rw [List.cons_append, List.append_assoc, List.cons_append]
      exact .nest hcloses hinside ih

/-- Behind a well-nested word the same is waited for as in front of it. -/
theorem WellNested.sameBrackets (h : WellNested word) : SameBrackets word [] := by
  induction h with
  | nil => exact .refl []
  | plain hplain _ ih => exact (sameBrackets_plain hplain _).trans ih
  | @nest opening closing inside rest hcloses _ _ hinside hrest =>
      intro awaited
      have hbehind : awaitedBehind (closing :: awaited) (inside ++ closing :: rest) =
          awaitedBehind (closing :: awaited) (closing :: rest) :=
        hinside.append (.refl (closing :: rest)) (closing :: awaited)
      rw [awaitedBehind_cons, awaitedAfter_opening hcloses, Option.bind_some, hbehind,
        awaitedBehind_cons, awaitedAfter_closing hcloses]
      exact hrest awaited

/-- Whether a word closes the brackets that are waited for, one after the other, with well-nested
words between them. -/
inductive Closes : List Char → List Char → Prop
  | done {word : List Char} : WellNested word → Closes [] word
  | next {closing : Char} {others inside rest : List Char} :
      WellNested inside → Closes others rest →
        Closes (closing :: others) (inside ++ closing :: rest)

theorem Closes.prepend (hword : WellNested word) (h : Closes awaited more) :
    Closes awaited (word ++ more) := by
  cases h with
  | done hmore => exact .done (hword.append hmore)
  | next hinside hrest =>
      rw [← List.append_assoc]
      exact .next (hword.append hinside) hrest

theorem closes_of_awaitedBehind (h : awaitedBehind awaited word = some []) :
    Closes awaited word := by
  induction word generalizing awaited with
  | nil =>
      cases h
      exact .done .nil
  | cons c rest ih =>
      obtain ⟨between, hafter, hrest⟩ := Option.bind_eq_some_iff.mp
        ((awaitedBehind_cons awaited c rest).symm.trans h)
      have hcloses := ih hrest
      unfold awaitedAfter at hafter
      split at hafter
      next closing hopens =>
        -- What the bracket opens is closed first, and the two make a word of their own.
        cases hafter
        cases hcloses with
        | @next _ _ inside behind hinside hbehind =>
            have hnest : WellNested (c :: (inside ++ [closing])) := .nest hopens hinside .nil
            have hwhole := hbehind.prepend hnest
            rwa [List.cons_append, List.append_assoc, List.singleton_append] at hwhole
      next hopens =>
        split at hafter
        next hclosing =>
          split at hafter
          next nearest others =>
            split at hafter
            next hsame =>
              cases hafter
              rw [hsame]
              exact .next .nil hcloses
            next => cases hafter
          next => cases hafter
        next hclosing =>
          cases hafter
          have hplain : isPlain c = true := by simp [isPlain, hopens, hclosing]
          exact hcloses.prepend (.plain hplain .nil)

/-- A word is well nested exactly when nothing is waited for behind it. -/
theorem wellNested_iff : WellNested word ↔ awaitedBehind [] word = some [] := by
  constructor
  · intro h
    exact h.sameBrackets []
  · intro h
    cases closes_of_awaitedBehind h with
    | done hword => exact hword

instance {word : List Char} : Decidable (WellNested word) :=
  decidable_of_iff _ wellNested_iff.symm

instance {text : String} : Decidable (Balanced text) :=
  inferInstanceAs (Decidable (WellNested text.toList))

theorem SameBrackets.wellNested_iff (h : SameBrackets word more) :
    WellNested word ↔ WellNested more := by
  rw [Text.wellNested_iff, Text.wellNested_iff, h []]

/-- Well-nested words may be put in for each other. -/
theorem WellNested.same (h : WellNested word) (h' : WellNested more) : SameBrackets word more :=
  h.sameBrackets.trans h'.sameBrackets.symm

/-! ## Texts -/

variable {text other : String}

/-- A text that is put together can be read part by part, where nothing comes of the parts that are
balanced. -/
theorem balanced_iff : Balanced text ↔ awaitedBehind [] text.toList = some [] :=
  wellNested_iff

theorem awaitedBehind_text_append (awaited : List Char) (text other : String) :
    awaitedBehind awaited (text ++ other).toList =
      (awaitedBehind awaited text.toList).bind (awaitedBehind · other.toList) := by
  rw [String.toList_append, awaitedBehind_append]

theorem Balanced.read (h : Balanced text) (awaited : List Char) :
    awaitedBehind awaited text.toList = some awaited :=
  h.sameBrackets awaited

theorem Balanced.append (h : Balanced text) (h' : Balanced other) : Balanced (text ++ other) := by
  rw [Balanced, String.toList_append]
  exact WellNested.append h h'

theorem balanced_of_plain (h : text.toList.all isPlain = true) : Balanced text := by
  rw [Balanced]
  generalize text.toList = word at h
  induction word with
  | nil => exact .nil
  | cons c rest ih =>
      rw [List.all_cons, Bool.and_eq_true] at h
      exact .plain h.1 (ih h.2)

end Text

end Specwright
