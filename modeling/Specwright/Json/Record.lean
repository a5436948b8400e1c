import Specwright.Json.Basic

/-!
# Reading records from JSON values

A record is read from the members of an object by key.  Keys that the record does not know are
passed over; a key that it knows may stand only once.  An array is read as the values of the first
keys of the record, in their order; a format says whether it may hold more.  Each reader names what
a missing key means: `required` refuses it, `withDefault` supplies a value, and `nullable` takes it,
like null, for absence.
-/

namespace Specwright

/-- The values from which a record is read, by key. -/
structure Record where
  members : List (String × Json)

namespace Record

/-- The record of an object in which no key of `keys` is repeated, or of an array.  Values of an
array beyond the last key are passed over. -/
def ofOpenJson? (keys : List String) : Json → Option Record
  | .obj members =>
    if keys.all fun key => decide ((members.filter (·.1 = key)).length ≤ 1)
    then some ⟨members⟩ else none
  | .arr items => some ⟨keys.zip items⟩
  | _ => none

/-- The record of an object in which no key of `keys` is repeated, or of an array with at most one
value for each of them. -/
def ofJson? (keys : List String) (value : Json) : Option Record :=
  match value with
  | .arr items => if items.length ≤ keys.length then ofOpenJson? keys value else none
  | _ => ofOpenJson? keys value

/-- The value of a key. -/
def get? (record : Record) (key : String) : Option Json :=
  record.members.lookup key

variable {α : Type}

/-- Reads a key that has to be there. -/
def required (record : Record) (key : String) (read : Json → Option α) : Option α :=
  (record.get? key).bind read

/-- Reads a key that stands for `default` when it is missing. -/
def withDefault
    (record : Record) (key : String) (read : Json → Option α)
    (default : α) : Option α :=
  match record.get? key with
  | none => some default
  | some value => read value

/-- Reads a key that may be missing or null. -/
def nullable
    (record : Record) (key : String) (read : Json → Option α) :
    Option (Option α) :=
  match record.get? key with
  | none => some none
  | some .null => some none
  | some value => (read value).map some

/-- Reads an array that is empty when it is missing. -/
def list
    (record : Record) (key : String) (read : Json → Option α) :
    Option (List α) :=
  record.withDefault key (Json.listOf? read) []

/-- Reads a Boolean that stands for `default` when it is missing. -/
def flag (record : Record) (key : String) (default : Bool) : Option Bool :=
  record.withDefault key Json.bool? default

end Record

end Specwright
