import Specwright.Text.Split

/-!
# Dotted names

A qualified name is cut at its last dot: the package stands before it and the simple name after it.
A name without a dot is its own simple name and lies in the package without a name.
-/

namespace Specwright

namespace Text

/-- The package and the simple name of a qualified name that has a dot. -/
def cutQualified (name : String) : Option (String × String) :=
  (splitAtLast '.' name.toList).map fun (package, simple) =>
    (String.ofList package, String.ofList simple)

/-- The last segment of a qualified name. -/
def simpleName (name : String) : String :=
  match cutQualified name with
  | some (_, simple) => simple
  | none => name

/-- The part of a qualified name before its last dot. -/
def packageName (name : String) : String :=
  match cutQualified name with
  | some (package, _) => package
  | none => ""

end Text

end Specwright
