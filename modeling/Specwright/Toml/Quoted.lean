import Specwright.Json.Parser

/-!
# Quoted texts of TOML

Blanks, line ends and comments, and texts in their four spellings.  Each reader takes the characters
that are left and gives back what it read with the rest, or nothing when the text does not start
with what it reads.
-/

namespace Specwright

namespace Toml

/-- A space or a tab. -/
def isSpace (c : Char) : Bool :=
  c = ' ' || c = '\t'

/-- The text without its leading spaces and tabs. -/
def skipSpaces (text : List Char) : List Char :=
  text.dropWhile isSpace

/-- The characters of a comment: all but control characters, the tab aside. -/
def isCommentChar (c : Char) : Bool :=
  c = '\t' || (' ' ≤ c && c.toNat ≠ 0x7F)

/-- The text after a line end. -/
def lineEnd? : List Char → Option (List Char)
  | '\n' :: rest => some rest
  | '\r' :: '\n' :: rest => some rest
  | _ => none

/-- Whether spaces and a line end come next. -/
def endsLine (text : List Char) : Bool :=
  (lineEnd? (skipSpaces text)).isSome

/-- The text after a character. -/
def after? (c : Char) : List Char → Option (List Char)
  | d :: rest => if c = d then some rest else none
  | [] => none

/-- The character of a code point, unless it is none. -/
def scalar? (n : Nat) : Option Char :=
  if n < 0xD800 ∨ (0xE000 ≤ n ∧ n < 0x110000) then some (Char.ofNat n) else none

/-- The character of a one-letter escape. -/
def shortEscape? : Char → Option Char
  | 'b' => some '\x08'
  | 't' => some '\t'
  | 'n' => some '\n'
  | 'f' => some '\x0c'
  | 'r' => some '\r'
  | '"' => some '"'
  | '\\' => some '\\'
  | _ => none

/-- A text in a number of steps: a character in front of what is read from the rest. -/
def consChar (c : Char) (tail : Option (List Char × List Char)) :
    Option (List Char × List Char) :=
  tail.map fun (chars, rest) => (c :: chars, rest)

/-- A text in double quotes on one line, after its opening quote. -/
def basicText : List Char → Option (List Char × List Char)
  | '"' :: rest => some ([], rest)
  | '\\' :: 'u' :: a :: b :: c :: d :: rest => do
    let value ← Json.hexUnit? a b c d
    consChar (← scalar? value) (basicText rest)
  | '\\' :: 'U' :: a :: b :: c :: d :: e :: f :: g :: h :: rest => do
    let high ← Json.hexUnit? a b c d
    let low ← Json.hexUnit? e f g h
    consChar (← scalar? (high * 0x10000 + low)) (basicText rest)
  | '\\' :: e :: rest => do
    consChar (← shortEscape? e) (basicText rest)
  | c :: rest => if isCommentChar c then consChar c (basicText rest) else none
  | [] => none

/-- A text in single quotes on one line, after its opening quote. -/
def literalText : List Char → Option (List Char × List Char)
  | '\'' :: rest => some ([], rest)
  | c :: rest => if isCommentChar c then consChar c (literalText rest) else none
  | [] => none

/-- The quotes in front of a closing triple, at most two, and the text after it. -/
def closing? (quote : Char) : List Char → Option (List Char × List Char)
  | a :: b :: c :: rest =>
    if a = quote ∧ b = quote ∧ c = quote then
      let extra := (rest.take 2).takeWhile (· = quote)
      some (extra, rest.drop extra.length)
    else none
  | _ => none

/-- A text in triples of double quotes, after the opening one.  While `trimming`, blanks and line
ends are passed over, as they are after a backslash at the end of a line. -/
def multilineBasic : Bool → List Char → Option (List Char × List Char)
  | _, [] => none
  | trimming, c :: rest =>
    match closing? '"' (c :: rest) with
    | some found => some found
    | none =>
      if trimming && (isSpace c || c = '\n') then multilineBasic true rest
      else if c = '\n' then consChar '\n' (multilineBasic false rest)
      else if c = '\r' then
        match rest with
        | '\n' :: rest =>
          if trimming then multilineBasic true rest
          else consChar '\n' (multilineBasic false rest)
        | _ => none
      else if c = '\\' then
        if endsLine rest then multilineBasic true rest
        else
          match rest with
          | 'u' :: a :: b :: c :: d :: rest => do
            let value ← Json.hexUnit? a b c d
            consChar (← scalar? value) (multilineBasic false rest)
          | 'U' :: a :: b :: c :: d :: e :: f :: g :: h :: rest => do
            let high ← Json.hexUnit? a b c d
            let low ← Json.hexUnit? e f g h
            consChar (← scalar? (high * 0x10000 + low)) (multilineBasic false rest)
          | e :: rest => do
            consChar (← shortEscape? e) (multilineBasic false rest)
          | [] => none
      else if isCommentChar c then consChar c (multilineBasic false rest)
      else none

/-- A text in triples of single quotes, after the opening one. -/
def multilineLiteral : List Char → Option (List Char × List Char)
  | [] => none
  | c :: rest =>
    match closing? '\'' (c :: rest) with
    | some found => some found
    | none =>
      if c = '\n' then consChar '\n' (multilineLiteral rest)
      else if c = '\r' then
        match rest with
        | '\n' :: rest => consChar '\n' (multilineLiteral rest)
        | _ => none
      else if isCommentChar c then consChar c (multilineLiteral rest)
      else none

/-- The text after a line end, if there is one right at the start. -/
def skipFirstLineEnd (text : List Char) : List Char :=
  (lineEnd? text).getD text

/-- A text in any spelling. -/
def anyText : List Char → Option (List Char × List Char)
  | '"' :: '"' :: '"' :: rest => multilineBasic false (skipFirstLineEnd rest)
  | '"' :: rest => basicText rest
  | '\'' :: '\'' :: '\'' :: rest => multilineLiteral (skipFirstLineEnd rest)
  | '\'' :: rest => literalText rest
  | _ => none

end Toml

end Specwright
