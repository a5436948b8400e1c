import Specwright.Json.Record
import Specwright.Target.TestClass

/-!
# Test classes as JSON

How test classes are written as JSON values and read back.  Everything is written; only the name has
to be there when a class is read.
-/

namespace Specwright

open Json

namespace Member

/-- The member as a record. -/
def toJson (member : Member) : Json :=
  .obj [("name", .str member.name), ("text", .str member.text)]

/-- Reads a member from a record. -/
def ofJson? (value : Json) : Option Member := do
  let record ← Record.ofJson? ["name", "text"] value
  let name ← record.required "name" str?
  let text ← record.required "text" str?
  pure { name, text }

end Member

namespace TestClass

/-- The class as a record. -/
def toJson (testClass : TestClass) : Json :=
  .obj [
    ("package", .str testClass.package),
    ("name", .str testClass.name),
    ("superclass", (testClass.superclass.map Json.str).getD .null),
    ("fields", .arr (testClass.fields.map Member.toJson)),
    ("methods", .arr (testClass.methods.map Member.toJson)),
    ("read_only", .bool testClass.readOnly)]

/-- Reads a class from a record. -/
def ofJson? (value : Json) : Option TestClass := do
  let record ← Record.ofJson?
    ["package", "name", "superclass", "fields", "methods", "read_only"] value
  let package ← record.withDefault "package" str? ""
  let name ← record.required "name" str?
  let superclass ← record.nullable "superclass" str?
  let fields ← record.list "fields" Member.ofJson?
  let methods ← record.list "methods" Member.ofJson?
  let readOnly ← record.flag "read_only" false
  pure { package, name, superclass, fields, methods, readOnly }

end TestClass

end Specwright
