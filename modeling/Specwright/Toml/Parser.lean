import Specwright.Toml.DateTime
import Specwright.Toml.Table

/-!
# Reading TOML documents

A document is read line by line into a tree of tables, and the tree is given back as a JSON value.
Nesting is limited, in values as in paths of keys; the number of items and lines is bounded by the
length of the text.
-/

namespace Specwright

namespace Toml

/-- The text without leading blanks, line ends and comments, as they may stand in arrays. -/
def skipGaps : Bool → List Char → List Char
  | _, [] => []
  | inComment, c :: rest =>
    if inComment && isCommentChar c then skipGaps true rest
    else if isSpace c || c = '\n' then skipGaps false rest
    else if c = '#' then skipGaps true rest
    else if c = '\r' then
      match rest with
      | '\n' :: rest => skipGaps false rest
      | rest => '\r' :: rest
    else c :: rest

/-- The characters of a bare key. -/
def isBareKeyChar (c : Char) : Bool :=
  c.isAlphanum || c = '_' || c = '-'

/-- A key without dots. -/
def simpleKey : List Char → Option (String × List Char)
  | '"' :: rest => (basicText rest).map fun (chars, rest) => (String.ofList chars, rest)
  | '\'' :: rest => (literalText rest).map fun (chars, rest) => (String.ofList chars, rest)
  | text =>
    match text.takeWhile isBareKeyChar with
    | [] => none
    | chars => some (String.ofList chars, text.dropWhile isBareKeyChar)

/-- How many containers may stand in one another in a value, and how many keys a path may have. -/
def nestingLimit : Nat := 79

/-- At most so many keys with dots between them, blanks around each key passed over. -/
def keyPath : Nat → List Char → Option (List String × List Char)
  | 0, _ => none
  | limit + 1, text => do
    let (key, rest) ← simpleKey (skipSpaces text)
    match skipSpaces rest with
    | '.' :: rest =>
      let (keys, rest) ← keyPath limit rest
      pure (key :: keys, rest)
    | rest => pure ([key], rest)

/-- A value that is neither a text nor a container. -/
def simpleValue : List Char → Option (Json × List Char)
  | 't' :: 'r' :: 'u' :: 'e' :: rest => some (.bool true, rest)
  | 'f' :: 'a' :: 'l' :: 's' :: 'e' :: rest => some (.bool false, rest)
  | text =>
    if startsDateTime text then dateTime? text
    else ((float? text).or (specialFloat? text)).or (integer? text)

mutual

/-- A value with at most so many containers in one another. -/
def valueAt : Nat → Nat → List Char → Option (Json × List Char)
  | 0, _, _ => none
  | bound + 1, levels, text =>
    match text with
    | '[' :: rest =>
      match levels with
      | 0 => none
      | levels + 1 => do
        let (items, rest) ← itemsAt bound levels rest
        pure (.arr items, rest)
    | '\x7b' :: rest =>
      match levels, skipSpaces rest with
      | 0, _ => none
      | _, '\x7d' :: rest => some (.obj [], rest)
      | levels + 1, rest => do
        let (entries, rest) ← pairsAt bound levels [] rest
        pure (entries.toJson, rest)
    | text =>
      match text.head? with
      | some '"' | some '\'' =>
        (anyText text).map fun (chars, rest) => (.str (String.ofList chars), rest)
      | _ => simpleValue text

/-- The items of an array up to its closing bracket; a comma may stand behind the last one. -/
def itemsAt : Nat → Nat → List Char → Option (List Json × List Char)
  | 0, _, _ => none
  | bound + 1, levels, text =>
    match skipGaps false text with
    | ']' :: rest => some ([], rest)
    | text => do
      let (item, rest) ← valueAt bound levels text
      match skipGaps false rest with
      | ',' :: rest =>
        let (items, rest) ← itemsAt bound levels rest
        pure (item :: items, rest)
      | ']' :: rest => pure ([item], rest)
      | _ => none

/-- The pairs of a table in braces up to its closing brace, added to those before. -/
def pairsAt : Nat → Nat → Entries → List Char → Option (Entries × List Char)
  | 0, _, _, _ => none
  | bound + 1, levels, entries, text => do
    let (keys, rest) ← keyPath nestingLimit text
    let rest ← after? '=' rest
    let (value, rest) ← valueAt bound levels (skipSpaces rest)
    let entries ← entries.putDotted keys value
    match skipSpaces rest with
    | ',' :: rest => pairsAt bound levels entries rest
    | '\x7d' :: rest => pure (entries, rest)
    | _ => none

end

/-- The text after the end of a line, which may have blanks and a comment before it. -/
def finishLine (text : List Char) : Option (List Char) :=
  let rest :=
    match skipSpaces text with
    | '#' :: rest => rest.dropWhile isCommentChar
    | rest => rest
  match rest with
  | [] => some []
  | rest => lineEnd? rest

/-- A document in reading: the tables so far and the keys of the last header. -/
structure Document where
  header : List String
  entries : Entries

/-- Reads a header or a pair. -/
def statement (document : Document) (text : List Char) : Option (Document × List Char) :=
  match text with
  | '[' :: '[' :: rest => do
    let (path, rest) ← keyPath nestingLimit rest
    let rest ← (after? ']' rest).bind (after? ']')
    let entries ← document.entries.openSeries path
    pure (⟨path, entries⟩, rest)
  | '[' :: rest => do
    let (path, rest) ← keyPath nestingLimit rest
    let rest ← after? ']' rest
    let entries ← document.entries.openTable path
    pure (⟨path, entries⟩, rest)
  | text => do
    let (keys, rest) ← keyPath nestingLimit text
    let rest ← after? '=' rest
    let (value, rest) ← valueAt (text.length + 1) nestingLimit (skipSpaces rest)
    let entries ← document.entries.putUnder document.header keys value
    pure ({ document with entries }, rest)

/-- Reads the lines of a document. -/
def linesAt : Nat → Document → List Char → Option Document
  | 0, _, _ => none
  | bound + 1, document, text =>
    match skipSpaces text with
    | [] => some document
    | c :: rest => do
      if c = '#' ∨ c = '\n' ∨ c = '\r' then
        linesAt bound document (← finishLine (c :: rest))
      else
        let (document, rest) ← statement document (c :: rest)
        linesAt bound document (← finishLine rest)

/-- The text without the byte-order mark that it may start with. -/
def skipMark : List Char → List Char
  | '\uFEFF' :: rest => rest
  | text => text

/-- The document that a text writes, as a JSON object. -/
def parse? (text : String) : Option Json :=
  let chars := skipMark text.toList
  (linesAt (chars.length + 1) ⟨[], []⟩ chars).map fun document => document.entries.toJson

end Toml

end Specwright
