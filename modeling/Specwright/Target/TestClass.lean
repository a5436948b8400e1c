import Specwright.Feature.Rendering
import Specwright.Text.Dotted

/-!
# Test classes

A test class that is generated into: named fields and methods in order, each with its text.  Members
are told apart by name, and one that is already there is never replaced, so a class can be generated
into again and again.
-/

namespace Specwright

/-- A member of a class with its text. -/
structure Member where
  name : String
  text : String
  deriving Repr, DecidableEq, Inhabited

/-- A method that cannot be extended because it has no closing brace. -/
structure FixtureError where
  name : String
  deriving Repr, DecidableEq

namespace FixtureError

/-- The message of the error. -/
def message (cause : FixtureError) : String :=
  "fixture method '" ++ cause.name ++ "' has no closing brace"

end FixtureError

/-- A test class that is generated into. -/
structure TestClass where
  package : String := ""
  name : String
  superclass : Option String := none
  fields : List Member := []
  methods : List Member := []
  readOnly : Bool := false
  deriving Repr, DecidableEq, Inhabited

namespace Member

/-- Whether one of the members has a name. -/
def named (members : List Member) (name : String) : Bool :=
  members.any (·.name = name)

/-- Splits members into those whose names are new and those whose names are taken, by the names at
the start or by an earlier new member. -/
def sift (taken : List String) : List Member → List Member × List Member
  | [] => ([], [])
  | member :: rest =>
    if member.name ∈ taken then
      let (admitted, refused) := sift taken rest
      (admitted, member :: refused)
    else
      let (admitted, refused) := sift (member.name :: taken) rest
      (member :: admitted, refused)

/-- The lines of a member, indented by one level; empty lines stay empty. -/
def sourceLines (member : Member) : String :=
  String.join <| (Text.lines member.text).map fun line =>
    if line.isEmpty then "\n" else indentedLine line

end Member

namespace TestClass

/-- A class without members, by its qualified name. -/
def ofName (qualified : String) : TestClass where
  package := Text.packageName qualified
  name := Text.simpleName qualified

/-- The package and the name. -/
def qualifiedName (testClass : TestClass) : String :=
  if testClass.package.isEmpty then testClass.name else testClass.package ++ "." ++ testClass.name

/-- Whether there is a field of a name. -/
def hasField (testClass : TestClass) (name : String) : Bool :=
  Member.named testClass.fields name

/-- Whether there is a method of a name. -/
def hasMethod (testClass : TestClass) (name : String) : Bool :=
  Member.named testClass.methods name

/-- The names of the methods in order. -/
def methodNames (testClass : TestClass) : List String :=
  testClass.methods.map (·.name)

/-- The class with a superclass, unless it has one. -/
def withSuperclass (testClass : TestClass) (superclass : String) : TestClass :=
  { testClass with superclass := testClass.superclass.or (some superclass) }

/-- The class with further fields, as far as their names are new. -/
def addFields (testClass : TestClass) (fields : List Member) : TestClass :=
  { testClass with
    fields := testClass.fields ++ (Member.sift (testClass.fields.map (·.name)) fields).1 }

/-- The class with further methods, as far as their names are new. -/
def addMethods (testClass : TestClass) (methods : List Member) : TestClass :=
  { testClass with
    methods := testClass.methods ++ (Member.sift testClass.methodNames methods).1 }

/-- The fields whose names are new. -/
def newFields (testClass : TestClass) (fields : List Member) : List Member :=
  (Member.sift (testClass.fields.map (·.name)) fields).1

/-- The text of a method with statements put in before its last brace, on lines of their own. -/
def extendText? (text : String) (statements : List String) : Option String :=
  (Text.splitAtLast '\x7d' text.toList).map fun (before, after) =>
    String.ofList before
      ++ (if before.getLast? = some '\n' then "" else "\n")
      ++ indentedLines statements
      ++ String.ofList ('\x7d' :: after)

/-- Puts statements at the end of the first method of a name; nothing when there is none. -/
def extendFirst (name : String) (statements : List String) :
    List Member → Except FixtureError (Option (List Member))
  | [] => .ok none
  | member :: rest =>
    if member.name = name then
      match extendText? member.text statements with
      | some text => .ok (some ({ member with text } :: rest))
      | none => .error ⟨name⟩
    else
      match extendFirst name statements rest with
      | .ok extended => .ok (extended.map (member :: ·))
      | .error cause => .error cause

/-- The class with statements put at the end of the first method of a name, if there is one. -/
def extendMethod (testClass : TestClass) (name : String) (statements : List String) :
    Except FixtureError (Option TestClass) :=
  match extendFirst name statements testClass.methods with
  | .ok extended => .ok (extended.map fun methods => { testClass with methods })
  | .error cause => .error cause

/-- The source text of the class. -/
def sourceText (testClass : TestClass) : String :=
  (if testClass.package.isEmpty then "" else "package " ++ testClass.package ++ "\n\n")
    ++ "class " ++ testClass.name
    ++ (match testClass.superclass with
      | some superclass => " extends " ++ superclass
      | none => "")
    ++ " \x7b\n"
    ++ (if testClass.fields.isEmpty then ""
      else "\n" ++ String.join (testClass.fields.map Member.sourceLines))
    ++ String.join (testClass.methods.map fun method => "\n" ++ method.sourceLines)
    ++ "\x7d\n"

end TestClass

end Specwright
