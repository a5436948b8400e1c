import Specwright.Json.Parser

/-!
# Numbers of TOML

Floats, special floats, and integers in four bases.  Two digits may have an underscore between them.
Integers have to fit the signed 64-bit range; nothing is kept of a float but that it is one.
-/

namespace Specwright

namespace Toml

/-- Digits of which any two neighbours may have an underscore between them. -/
def digitRun (isDigit : Char → Bool) : Bool → List Char → List Char × List Char
  | _, [] => ([], [])
  | started, c :: rest =>
    if isDigit c then
      let (ds, rest) := digitRun isDigit true rest
      (c :: ds, rest)
    else if started && c = '_' && rest.head?.any isDigit then digitRun isDigit false rest
    else ([], c :: rest)

/-- A sign, if there is one. -/
def sign : List Char → List Char × List Char
  | '+' :: rest => (['+'], rest)
  | '-' :: rest => (['-'], rest)
  | rest => ([], rest)

/-- The whole part of a decimal number: a zero alone, or digits that do not start with one. -/
def decimalWhole (text : List Char) : Option (List Char × List Char) :=
  match text with
  | '0' :: rest => some (['0'], rest)
  | text =>
    match digitRun Char.isDigit false text with
    | ([], _) => none
    | found => some found

/-- The digits after a point. -/
def fraction? : List Char → Option (List Char × List Char)
  | '.' :: rest =>
    match digitRun Char.isDigit false rest with
    | ([], _) => none
    | (ds, rest) => some ('.' :: ds, rest)
  | _ => none

/-- An exponent. -/
def exponent? : List Char → Option (List Char × List Char)
  | e :: rest =>
    if e = 'e' ∨ e = 'E' then
      let (s, rest) := sign rest
      match digitRun Char.isDigit false rest with
      | ([], _) => none
      | (ds, rest) => some (e :: s ++ ds, rest)
    else none
  | [] => none

/-- The number that digits write in a base. -/
def numeral (base : Nat) (ds : List Char) : Nat :=
  ds.foldl (fun n d => n * base + (Json.hexDigit? d).getD 0) 0

/-- The number that decimal digits write behind a sign, which may be missing. -/
def signedNumeral : List Char → Int
  | '-' :: ds => -(numeral 10 ds : Int)
  | '+' :: ds => numeral 10 ds
  | ds => numeral 10 ds

/-- The least number that is rounded to infinity: the middle between the greatest float and the
power of two above it.  It has 309 digits. -/
def floatLimit : Nat :=
  ((1 <<< 54) - 1) <<< 970

/-- Whether a number is rounded to infinity.  It is given by its digits and by how many of them
stand before the point.  The limit is whole, so only the digits before the point matter. -/
def overflows (ds : List Char) (point : Int) : Bool :=
  let leading := (ds.takeWhile (· = '0')).length
  let significant := ds.drop leading
  let places := point - leading
  !significant.isEmpty &&
    (309 < places || (places = 309 &&
      floatLimit ≤ numeral 10 ((significant ++ List.replicate 309 '0').take 309)))

/-- A float with a fraction, an exponent or both.  A positive one has to be finite; a negative one
that is too great is infinity. -/
def float? (text : List Char) : Option (Json × List Char) := do
  let (s, rest) := sign text
  let (whole, rest) ← decimalWhole rest
  let (fraction, exponent, rest) ←
    match fraction? rest with
    | some (fraction, rest) =>
      let (exponent, rest) := (exponent? rest).getD ([], rest)
      some (fraction, exponent, rest)
    | none => (exponent? rest).map fun (exponent, rest) => ([], exponent, rest)
  let point := whole.length + signedNumeral (exponent.drop 1)
  if s ≠ ['-'] ∧ overflows (whole ++ fraction.drop 1) point then none
  else pure (.decimal (String.ofList (s ++ whole ++ fraction ++ exponent)), rest)

/-- Infinity, or what is no number. -/
def specialFloat? (text : List Char) : Option (Json × List Char) :=
  let (s, rest) := sign text
  match rest with
  | 'i' :: 'n' :: 'f' :: rest => some (.decimal (String.ofList (s ++ ['i', 'n', 'f'])), rest)
  | 'n' :: 'a' :: 'n' :: rest => some (.decimal (String.ofList (s ++ ['n', 'a', 'n'])), rest)
  | _ => none

/-- A digit of a base. -/
def isDigitOf (base : Nat) (c : Char) : Bool :=
  (Json.hexDigit? c).any (· < base)

/-- An integer of the signed 64-bit range. -/
def integerValue (negative : Bool) (magnitude : Nat) : Option Json :=
  if negative then
    if magnitude ≤ UInt64.size / 2 then some (.int (-(magnitude : Int))) else none
  else if magnitude < UInt64.size / 2 then some (.int magnitude)
  else none

/-- An integer without sign in a base other than ten. -/
def basedInteger? (base : Nat) (text : List Char) : Option (Json × List Char) :=
  match digitRun (isDigitOf base) false text with
  | ([], _) => none
  | (ds, rest) => (integerValue false (numeral base ds)).map (·, rest)

/-- An integer. -/
def integer? (text : List Char) : Option (Json × List Char) :=
  match text with
  | '0' :: 'x' :: rest => basedInteger? 16 rest
  | '0' :: 'o' :: rest => basedInteger? 8 rest
  | '0' :: 'b' :: rest => basedInteger? 2 rest
  | text => do
    let (s, rest) := sign text
    let (ds, rest) ← decimalWhole rest
    let value ← integerValue (s = ['-']) (numeral 10 ds)
    pure (value, rest)

end Toml

end Specwright
