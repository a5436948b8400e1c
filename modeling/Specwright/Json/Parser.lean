import Specwright.Json.Basic

/-!
# Reading JSON text

A reader for the grammar of JSON: one value, surrounded by blanks and nothing else.  Each step
takes the characters that are left and gives back what it read with the rest.  Nesting is bounded by
the length of the text, which no value can exceed.

Escapes are read as 16-bit units first and joined to characters afterwards; text with a unit that
belongs to no character is `Json.unreadable`.
-/

namespace Specwright

namespace Json

/-- The blanks of the grammar: space, tab, line feed and carriage return. -/
def isBlank (c : Char) : Bool :=
  c = ' ' || c = '\t' || c = '\n' || c = '\r'

/-- The text without its leading blanks. -/
def skipBlanks (text : List Char) : List Char :=
  text.dropWhile isBlank

/-- The value of a hexadecimal digit in either case. -/
def hexDigit? (c : Char) : Option Nat :=
  if '0' ≤ c ∧ c ≤ '9' then some (c.toNat - '0'.toNat)
  else if 'a' ≤ c ∧ c ≤ 'f' then some (c.toNat - 'a'.toNat + 10)
  else if 'A' ≤ c ∧ c ≤ 'F' then some (c.toNat - 'A'.toNat + 10)
  else none

/-- The value of four hexadecimal digits. -/
def hexUnit? (a b c d : Char) : Option Nat := do
  let a ← hexDigit? a
  let b ← hexDigit? b
  let c ← hexDigit? c
  let d ← hexDigit? d
  pure (((a * 16 + b) * 16 + c) * 16 + d)

/-- The character of a one-letter escape. -/
def shortEscape? : Char → Option Char
  | '"' => some '"'
  | '\\' => some '\\'
  | '/' => some '/'
  | 'b' => some '\x08'
  | 'f' => some '\x0c'
  | 'n' => some '\n'
  | 'r' => some '\r'
  | 't' => some '\t'
  | _ => none

/-- A piece of a string literal: a character, or a 16-bit unit written as an escape. -/
inductive Piece where
  | char (c : Char)
  | unit (value : Nat)

/-- The pieces of a string literal after its opening quote, and the text after its closing quote.
Control characters have to be written as escapes. -/
def pieces : List Char → Option (List Piece × List Char)
  | '"' :: rest => some ([], rest)
  | '\\' :: 'u' :: a :: b :: c :: d :: rest => do
    let value ← hexUnit? a b c d
    let (tail, rest) ← pieces rest
    pure (.unit value :: tail, rest)
  | '\\' :: e :: rest => do
    let c ← shortEscape? e
    let (tail, rest) ← pieces rest
    pure (.char c :: tail, rest)
  | c :: rest =>
    if c.toNat < 0x20 then none
    else do
      let (tail, rest) ← pieces rest
      pure (.char c :: tail, rest)
  | [] => none

/-- Joins pieces to characters: a high surrogate needs a low one right behind it, and a low one
stands nowhere else. -/
def joinPieces : List Piece → Option (List Char)
  | [] => some []
  | .char c :: rest => (joinPieces rest).map (c :: ·)
  | .unit high :: .unit low :: rest =>
    if 0xD800 ≤ high ∧ high < 0xDC00 then
      if 0xDC00 ≤ low ∧ low < 0xE000 then
        (joinPieces rest).map
          (Char.ofNat (0x10000 + (high - 0xD800) * 0x400 + (low - 0xDC00)) :: ·)
      else none
    else if 0xDC00 ≤ high ∧ high < 0xE000 then none
    else (joinPieces (.unit low :: rest)).map (Char.ofNat high :: ·)
  | .unit value :: rest =>
    if 0xD800 ≤ value ∧ value < 0xE000 then none
    else (joinPieces rest).map (Char.ofNat value :: ·)

/-- The text of pieces, when they make characters. -/
def textOfPieces (parts : List Piece) : Option String :=
  (joinPieces parts).map String.ofList

/-- The run of digits at the head of the text, and the rest. -/
def digits (text : List Char) : List Char × List Char :=
  (text.takeWhile Char.isDigit, text.dropWhile Char.isDigit)

/-- The digits before the point: a single zero, or digits that do not start with one. -/
def wholePart (text : List Char) : Option (List Char × List Char) :=
  match digits text with
  | ([], _) => none
  | ('0' :: _ :: _, _) => none
  | (whole, rest) => some (whole, rest)

/-- The point and the digits after it, which may be missing altogether. -/
def fractionPart : List Char → Option (List Char × List Char)
  | '.' :: rest =>
    match digits rest with
    | ([], _) => none
    | (ds, rest) => some ('.' :: ds, rest)
  | rest => some ([], rest)

/-- The exponent, which may be missing altogether. -/
def exponentPart : List Char → Option (List Char × List Char)
  | e :: rest =>
    if e = 'e' ∨ e = 'E' then
      let (sign, rest) : List Char × List Char :=
        match rest with
        | '+' :: rest => (['+'], rest)
        | '-' :: rest => (['-'], rest)
        | rest => ([], rest)
      match digits rest with
      | ([], _) => none
      | (ds, rest) => some (e :: sign ++ ds, rest)
    else some ([], e :: rest)
  | [] => some ([], [])

/-- The number that decimal digits write. -/
def natOfDigits (ds : List Char) : Nat :=
  ds.foldl (fun n d => n * 10 + (d.toNat - '0'.toNat)) 0

/-- A number literal without fraction and exponent is an integer when it fits the signed or the
unsigned 64-bit range; minus zero is none. -/
def integerOf (negative : Bool) (whole : List Char) : Json :=
  let magnitude := natOfDigits whole
  let text := String.ofList (if negative then '-' :: whole else whole)
  if negative then
    if 0 < magnitude ∧ magnitude ≤ UInt64.size / 2 then .int (-(magnitude : Int))
    else .decimal text
  else
    if magnitude < UInt64.size then .int magnitude else .decimal text

/-- A number literal and the text after it. -/
def number (text : List Char) : Option (Json × List Char) := do
  let (negative, text) : Bool × List Char :=
    match text with
    | '-' :: rest => (true, rest)
    | rest => (false, rest)
  let (whole, rest) ← wholePart text
  let (fraction, rest) ← fractionPart rest
  let (exponent, rest) ← exponentPart rest
  if fraction.isEmpty && exponent.isEmpty then
    pure (integerOf negative whole, rest)
  else
    let sign := if negative then ['-'] else []
    pure (.decimal (String.ofList (sign ++ whole ++ fraction ++ exponent)), rest)

/-- An object of these members, unless a key is unreadable. -/
def objectOf (members : List (Option String × Json)) : Json :=
  match members.mapM fun (key, value) => key.map (·, value) with
  | some members => .obj members
  | none => .unreadable

mutual

/-- A value at the head of the text and the text after it; `bound` limits the nesting. -/
def valueAt : Nat → List Char → Option (Json × List Char)
  | 0, _ => none
  | bound + 1, text =>
    match skipBlanks text with
    | 'n' :: 'u' :: 'l' :: 'l' :: rest => some (.null, rest)
    | 't' :: 'r' :: 'u' :: 'e' :: rest => some (.bool true, rest)
    | 'f' :: 'a' :: 'l' :: 's' :: 'e' :: rest => some (.bool false, rest)
    | '"' :: rest => do
      let (parts, rest) ← pieces rest
      pure ((textOfPieces parts).elim .unreadable .str, rest)
    | '[' :: rest =>
      match skipBlanks rest with
      | ']' :: rest => some (.arr [], rest)
      | rest => do
        let (items, rest) ← itemsAt bound rest
        pure (.arr items, rest)
    | '\x7b' :: rest =>
      match skipBlanks rest with
      | '\x7d' :: rest => some (.obj [], rest)
      | rest => do
        let (members, rest) ← membersAt bound rest
        pure (objectOf members, rest)
    | rest => number rest

/-- One or more items up to the closing bracket. -/
def itemsAt : Nat → List Char → Option (List Json × List Char)
  | 0, _ => none
  | bound + 1, text => do
    let (item, rest) ← valueAt bound text
    match skipBlanks rest with
    | ',' :: rest =>
      let (items, rest) ← itemsAt bound rest
      pure (item :: items, rest)
    | ']' :: rest => pure ([item], rest)
    | _ => none

/-- One or more members up to the closing brace; an unreadable key is kept as `none`. -/
def membersAt : Nat → List Char → Option (List (Option String × Json) × List Char)
  | 0, _ => none
  | bound + 1, text =>
    match skipBlanks text with
    | '"' :: rest => do
      let (parts, rest) ← pieces rest
      let key := textOfPieces parts
      match skipBlanks rest with
      | ':' :: rest =>
        let (value, rest) ← valueAt bound rest
        match skipBlanks rest with
        | ',' :: rest =>
          let (members, rest) ← membersAt bound rest
          pure ((key, value) :: members, rest)
        | '\x7d' :: rest => pure ([(key, value)], rest)
        | _ => none
      | _ => none
    | _ => none

end

/-- The value that a whole text writes. -/
def parse? (text : String) : Option Json :=
  let chars := text.toList
  match valueAt (2 * chars.length + 2) chars with
  | some (value, rest) => if (skipBlanks rest).isEmpty then some value else none
  | none => none

end Json

end Specwright
