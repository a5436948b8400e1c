import Specwright.SortedMap
import Specwright.Text.Blank
import Specwright.Text.Split

/-!
# Selections of methods

Methods are selected by name.  An entry may go on with a parameter list, which is passed over, so
that overloads are always selected together.
-/

namespace Specwright

/-- The names of selected methods. -/
abbrev Selection :=
  List String

namespace Selection

/-- The name in an entry: what stands before the first parenthesis, without the blanks around. -/
def nameOf (entry : String) : String :=
  Text.trim (Text.beforeFirst '(' entry)

/-- The names in the entries, sorted and each once; entries without a name are passed over. -/
def ofEntries (entries : List String) : Selection :=
  let names := (entries.map nameOf).filter (· ≠ "")
  (SortedMap.ofList (names.map fun name => (name, ()))).keys

end Selection

end Specwright
