import Specwright.Json.Basic

/-!
# Tables of a TOML document

A document is a tree of tables that grows line by line.  Every table is defined once: by a header,
by dotted keys, or in one piece as a value.  A table that a deeper header or dotted key only passes
through is implicit, and a header may define it later; one that dotted keys made is theirs alone.
-/

namespace Specwright

namespace Toml

/-- A node of a document. -/
inductive Node where
  /-- A finished value. -/
  | value (json : Json)
  /-- A table.  An implicit one has only been passed through; a dotted one was made by dotted
  keys. -/
  | table (implicit dotted : Bool) (entries : List (String × Node))
  /-- An array of tables, which grows by headers: the tables that are done and the last one. -/
  | series (done : List (List (String × Node))) (last : List (String × Node))

/-- The entries of a table. -/
abbrev Entries :=
  List (String × Node)

namespace Entries

/-- The entries with another node under a key that is there. -/
def replace (key : String) (node : Node) : Entries → Entries
  | [] => []
  | (other, old) :: rest =>
    if other = key then (key, node) :: rest else (other, old) :: replace key node rest

/-- Changes the table at the end of a path.  Tables on the way that are missing are made.  A path of
dotted keys does not enter tables that were defined otherwise; no path enters a finished value.
`change` is told whether the table was made by dotted keys. -/
def alterAt
    (dotted : Bool) (change : Bool → Entries → Option Entries) :
    List String → Bool → Entries → Option Entries
  | [], isDotted, entries => change isDotted entries
  | key :: path, _, entries =>
    match entries.lookup key with
    | none => do
      let inner ← alterAt dotted change path dotted []
      pure (entries ++ [(key, .table true dotted inner)])
    | some (.value _) => none
    | some (.series done last) => do
      let last ← alterAt dotted change path false last
      pure (replace key (.series done last) entries)
    | some (.table implicit isDotted inner) =>
      if dotted && !implicit then none
      else do
        let inner ← alterAt dotted change path isDotted inner
        pure (replace key (.table implicit isDotted inner) entries)

/-- Adds a value under a key that is not there yet.  Plain keys do not go into a table made by
dotted keys, nor dotted keys into any other. -/
def put (viaDots : Bool) (key : String) (value : Json) (isDotted : Bool) (entries : Entries) :
    Option Entries :=
  if isDotted != viaDots || (entries.lookup key).isSome then none
  else some (entries ++ [(key, .value value)])

/-- Adds a value under the last of a list of dotted keys. -/
def putDotted (keys : List String) (value : Json) (entries : Entries) : Option Entries := do
  let key ← keys.getLast?
  let path := keys.dropLast
  alterAt true (put (!path.isEmpty) key value) path false entries

/-- Defines the table of a header. -/
def openTable (path : List String) (entries : Entries) : Option Entries := do
  let key ← path.getLast?
  let define (_ : Bool) (entries : Entries) : Option Entries :=
    match entries.lookup key with
    | none => some (entries ++ [(key, .table false false [])])
    | some (.table true false inner) => some (replace key (.table false false inner) entries)
    | some _ => none
  alterAt false define path.dropLast false entries

/-- Adds a table to the array of a header. -/
def openSeries (path : List String) (entries : Entries) : Option Entries := do
  let key ← path.getLast?
  let define (_ : Bool) (entries : Entries) : Option Entries :=
    match entries.lookup key with
    | none => some (entries ++ [(key, .series [] [])])
    | some (.series done last) => some (replace key (.series (done ++ [last]) []) entries)
    | some _ => none
  alterAt false define path.dropLast false entries

/-- Adds a value under dotted keys in the table of the last header. -/
def putUnder (header keys : List String) (value : Json) (entries : Entries) : Option Entries :=
  alterAt false (fun _ inner => putDotted keys value inner) header false entries

end Entries

namespace Node

mutual

/-- The node as a value. -/
def toJson : Node → Json
  | .value json => json
  | .table _ _ entries => .obj (entriesToJson entries)
  | .series done last => .arr (seriesToJson done ++ [.obj (entriesToJson last)])

/-- The entries as members of an object. -/
def entriesToJson : List (String × Node) → List (String × Json)
  | [] => []
  | (key, node) :: rest => (key, toJson node) :: entriesToJson rest

/-- Finished tables of an array as objects. -/
def seriesToJson : List (List (String × Node)) → List Json
  | [] => []
  | entries :: rest => .obj (entriesToJson entries) :: seriesToJson rest

end

end Node

/-- The entries as an object. -/
def Entries.toJson (entries : Entries) : Json :=
  .obj (Node.entriesToJson entries)

end Toml

end Specwright
