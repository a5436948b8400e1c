import Specwright.Text.Lowercase
import Specwright.Text.Uppercase
import Specwright.Text.WordChar

/-!
# Accessor names

Names of the form `getName`, `isName` and `setName`, where the part after the verb starts with an
upper-case letter and goes on in word characters, and the property that such a name stands for.
-/

namespace Specwright

namespace Text

/-- The verb of an accessor name. -/
inductive AccessorVerb where
  | get
  | is
  | set
  deriving DecidableEq, Repr

/-- The part of an accessor name after its verb: an upper-case letter and word characters. -/
def isPropertyPart : List Char → Bool
  | first :: rest => isUppercaseLetter first && rest.all isWordChar
  | [] => false

/-- The verb of an accessor name and the part after it. -/
def cutAccessor : List Char → Option (AccessorVerb × List Char)
  | 'g' :: 'e' :: 't' :: rest => if isPropertyPart rest then some (.get, rest) else none
  | 'i' :: 's' :: rest => if isPropertyPart rest then some (.is, rest) else none
  | 's' :: 'e' :: 't' :: rest => if isPropertyPart rest then some (.set, rest) else none
  | _ => none

/-- The part with its first letter in lower case, unless its first two letters are capitals. -/
def lowerFirst : List Char → List Char
  | first :: second :: rest =>
    if isUppercase first && isUppercase second then first :: second :: rest
    else lowercase first ++ second :: rest
  | [first] => lowercase first
  | [] => []

/-- The property that an accessor name stands for. -/
def propertyName (name : String) : Option String :=
  (cutAccessor name.toList).map fun (_, part) => String.ofList (lowerFirst part)

end Text

end Specwright
