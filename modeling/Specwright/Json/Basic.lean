/-!
# JSON values

The values that snapshots, settings, test classes and responses are read from and written as.
Objects keep their members in the order in which they stand, repeated keys included, because some
readers refuse a repeated key and others let the last one win.
-/

namespace Specwright

/-- A JSON value.

Numbers are kept apart by what a reader may do with them: `int` is an integer literal of the
64-bit ranges, `decimal` is every other number, by its text.  `unreadable` stands for well-formed
text whose escapes name no character; a reader that looks at it refuses it, and one that passes
over it does not mind. -/
inductive Json where
  | null
  | bool (value : Bool)
  | int (value : Int)
  | decimal (text : String)
  | str (text : String)
  | arr (items : List Json)
  | obj (members : List (String × Json))
  | unreadable
  deriving Inhabited

namespace Json

/-- The value of the first member named `key`. -/
def member? (key : String) : Json → Option Json
  | .obj members => members.lookup key
  | _ => none

/-- The text of a string value. -/
def str? : Json → Option String
  | .str text => some text
  | _ => none

/-- The truth value of a Boolean. -/
def bool? : Json → Option Bool
  | .bool value => some value
  | _ => none

/-- An integer from `0` to `limit`. -/
def natUpTo? (limit : Nat) : Json → Option Nat
  | .int value =>
    if 0 ≤ value ∧ value.toNat ≤ limit then some value.toNat else none
  | _ => none

/-- The items of an array. -/
def items? : Json → Option (List Json)
  | .arr items => some items
  | _ => none

/-- The members of an object. -/
def members? : Json → Option (List (String × Json))
  | .obj members => some members
  | _ => none

/-- An array whose items are all read by `read`. -/
def listOf? {α : Type} (read : Json → Option α) (value : Json) : Option (List α) := do
  (← value.items?).mapM read

/-- An array of strings. -/
def strings (texts : List String) : Json :=
  .arr (texts.map .str)

/-- Puts a member in its place by key; an equal key that is already there is the later one and
stays. -/
def insertMember (key : String) (value : Json) :
    List (String × Json) → List (String × Json)
  | [] => [(key, value)]
  | (k, v) :: rest =>
    if key < k then (key, value) :: (k, v) :: rest
    else if key = k then (k, v) :: rest
    else (k, v) :: insertMember key value rest

mutual

/-- The value with the members of each object sorted by key, where the last of several members
with one key stands. -/
def canonical : Json → Json
  | .arr items => .arr (canonicalItems items)
  | .obj members => .obj (canonicalMembers members)
  | value => value

/-- The items in canonical form. -/
def canonicalItems : List Json → List Json
  | [] => []
  | item :: rest => canonical item :: canonicalItems rest

/-- The members in canonical form, sorted by key. -/
def canonicalMembers : List (String × Json) → List (String × Json)
  | [] => []
  | (key, value) :: rest => insertMember key (canonical value) (canonicalMembers rest)

end

end Json

end Specwright
