import Specwright.Text.Split

/-!
# Filling shapes

A shape is the text of a literal with placeholders: one for the list of type arguments, which may
stand anywhere, and one for each value inside.  Any other capital word in angle brackets is taken
for a misspelt placeholder and refused.

Type arguments are put in first and values afterwards.  A value in the place of a map key that
starts with a letter is put in parentheses, so that it is not read as the key itself.
-/

namespace Specwright

/-- A shape with a placeholder that does not exist. -/
structure ShapeError where
  placeholder : String
  shape : String
  deriving Repr, DecidableEq

namespace ShapeError

/-- The message of the error. -/
def message (cause : ShapeError) : String :=
  "unknown placeholder '" ++ cause.placeholder ++ "' in shape '" ++ cause.shape ++ "'"

end ShapeError

namespace Shape

/-- The placeholder of a value. -/
def valueMark : String := "<VAL>"

/-- The placeholder of the list of type arguments. -/
def typesMark : String := "<TYPES>"

/-- The literal where there is no value. -/
def noValue : String := "null"

/-- A capital letter of ASCII. -/
def isCapital (c : Char) : Bool :=
  'A' ≤ c && c ≤ 'Z'

/-- The capital word in angle brackets with which a text starts, brackets included. -/
def leadingToken? : List Char → Option String
  | '<' :: rest =>
    match rest.takeWhile isCapital, rest.dropWhile isCapital with
    | [], _ => none
    | word, '>' :: _ => some (String.ofList ('<' :: word ++ ['>']))
    | _, _ => none
  | _ => none

/-- The capital words in angle brackets that a text contains, in order. -/
def tokens : List Char → List String
  | [] => []
  | c :: rest => (leadingToken? (c :: rest)).toList ++ tokens rest

/-- The first capital word in angle brackets that is no placeholder. -/
def unknownToken? (shape : String) : Option String :=
  (tokens shape.toList).find? fun token => token ≠ valueMark && token ≠ typesMark

/-- The list of type arguments in angle brackets; nothing when there are none. -/
def typeList (types : List String) : String :=
  if types.isEmpty then "" else "<" ++ ",".intercalate types ++ ">"

/-- The value for the placeholder of a number: the value of that number, or the last one when there
are not so many. -/
def valueFor (values : List String) (index : Nat) : String :=
  (values[index]?.or values.getLast?).getD noValue

/-- A letter of ASCII. -/
def isLetter (c : Char) : Bool :=
  c.isAlpha

/-- A value as it is put in; `asKey` says that a colon follows. -/
def placed (value : String) (asKey : Bool) : List Char :=
  if asKey && value.toList.head?.any isLetter then '(' :: value.toList ++ [')'] else value.toList

/-- Puts values between the pieces of a shape, the first of them having the given number. -/
def weave (values : List String) : Nat → List (List Char) → List Char
  | _, [] => []
  | _, [piece] => piece
  | index, piece :: next :: pieces =>
    piece ++ placed (valueFor values index) (next.head? == some ':')
      ++ weave values (index + 1) (next :: pieces)

/-- Fills the placeholders of a shape. -/
def fill (shape : String) (values types : List String) : Except ShapeError String :=
  match unknownToken? shape with
  | some placeholder => .error ⟨placeholder, shape⟩
  | none =>
    let typed := Text.replaceAll typesMark (typeList types) shape
    .ok (String.ofList (weave values 0 (Text.splitAtPattern valueMark typed.toList)))

end Shape

end Specwright
