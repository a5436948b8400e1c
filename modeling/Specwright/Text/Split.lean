/-!
# Taking texts apart

Cutting at the last occurrence of a character, at every occurrence of one, and at line ends.  All
functions work on lists of characters and lose nothing but the separators.
-/

namespace Specwright

namespace Text

/-- The parts before and after the last occurrence of a character. -/
def splitAtLast (mark : Char) : List Char → Option (List Char × List Char)
  | [] => none
  | c :: rest =>
    match splitAtLast mark rest with
    | some (before, after) => some (c :: before, after)
    | none => if c = mark then some ([], rest) else none

/-- A successful cut gives the text back when the character is put between the parts. -/
theorem append_of_splitAtLast
    {mark : Char} {chars before after : List Char}
    (h : splitAtLast mark chars = some (before, after)) :
    chars = before ++ mark :: after := by
  induction chars generalizing before with
  | nil => simp [splitAtLast] at h
  | cons c rest ih =>
    rw [splitAtLast] at h
    split at h
    · next found =>
      cases h
      simpa using ih found
    · split at h
      · next hc => cases h; simp [hc]
      · cases h

/-- Nothing is cut exactly where the character does not occur. -/
theorem splitAtLast_eq_none_iff
    {mark : Char} {chars : List Char} :
    splitAtLast mark chars = none ↔ mark ∉ chars := by
  induction chars with
  | nil => simp [splitAtLast]
  | cons c rest ih =>
    rw [splitAtLast]
    split
    · next found =>
      have : mark ∈ rest := by
        rw [append_of_splitAtLast found]
        simp
      simp [this]
    · next missing =>
      have absent := ih.mp missing
      by_cases hc : c = mark
      · simp [hc]
      · have : mark ≠ c := fun h => hc h.symm
        simp [hc, absent, this]

/-- The cut is at the last occurrence: none comes behind it. -/
theorem not_mem_of_splitAtLast
    {mark : Char} {chars before after : List Char}
    (h : splitAtLast mark chars = some (before, after)) :
    mark ∉ after := by
  induction chars generalizing before with
  | nil => simp [splitAtLast] at h
  | cons c rest ih =>
    rw [splitAtLast] at h
    split at h
    · next found =>
      cases h
      exact ih found
    · next missing =>
      split at h
      · cases h
        exact splitAtLast_eq_none_iff.mp missing
      · cases h

theorem splitAtLast_append
    {mark : Char} {before after : List Char} (h : mark ∉ after) :
    splitAtLast mark (before ++ mark :: after) = some (before, after) := by
  induction before with
  | nil => simp [splitAtLast, splitAtLast_eq_none_iff.mpr h]
  | cons c rest ih => simp [splitAtLast, ih]

/-- The pieces between the occurrences of a character; there is one more than occurrences. -/
def splitAtEach (mark : Char) : List Char → List (List Char)
  | [] => [[]]
  | c :: rest =>
    if c = mark then [] :: splitAtEach mark rest
    else
      match splitAtEach mark rest with
      | piece :: pieces => (c :: piece) :: pieces
      | [] => [[c]]

/-- The lines of a text.  A line ends at a line feed, which takes one carriage return right before
it along; the end of the text ends the last line, unless that would be empty. -/
def linesOf : List Char → List (List Char)
  | [] => []
  | '\r' :: '\n' :: rest => [] :: linesOf rest
  | '\n' :: rest => [] :: linesOf rest
  | c :: rest =>
    match linesOf rest with
    | line :: lines => (c :: line) :: lines
    | [] => [[c]]

/-- The lines of a text as texts. -/
def lines (text : String) : List String :=
  (linesOf text.toList).map String.ofList

/-- The pieces between the occurrences of a pattern, read from the left; occurrences do not
overlap.  `skip` characters of an occurrence are still to be passed over. -/
def piecesFrom (pattern : List Char) : Nat → List Char → List (List Char)
  | _, [] => [[]]
  | skip + 1, _ :: rest => piecesFrom pattern skip rest
  | 0, c :: rest =>
    if pattern.isPrefixOf (c :: rest) then [] :: piecesFrom pattern (pattern.length - 1) rest
    else
      match piecesFrom pattern 0 rest with
      | piece :: pieces => (c :: piece) :: pieces
      | [] => [[c]]

/-- The pieces between the occurrences of a pattern that is not empty. -/
def splitAtPattern (pattern : String) (text : List Char) : List (List Char) :=
  piecesFrom pattern.toList 0 text

/-- The text with every occurrence of a pattern replaced; what is put in is not read again. -/
def replaceAll (pattern replacement text : String) : String :=
  String.ofList (replacement.toList.intercalate (splitAtPattern pattern text.toList))

/-- What a text has before the first occurrence of a character, or all of it. -/
def beforeFirst (mark : Char) (text : String) : String :=
  String.ofList (text.toList.takeWhile (· ≠ mark))

end Text

end Specwright
