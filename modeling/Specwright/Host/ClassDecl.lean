import Specwright.Host.Member

/-!
# Class declarations

A class, interface or enum as a host declares it.  Only direct supertypes are listed, the
superclass first; the classes above them are found through a snapshot.
-/

namespace Specwright

/-- The source language of a class. -/
inductive Language where
  | java
  | groovy
  | scala
  deriving DecidableEq, Repr, Inhabited

namespace Language

/-- The name of the language. -/
def label : Language → String
  | .java => "java"
  | .groovy => "groovy"
  | .scala => "scala"

end Language

/-- A class, interface or enum declaration.

`hasDefaultConstructor` says that the compiler supplies a constructor without parameters, and
`inProject` that the class belongs to the sources rather than to a library. -/
structure ClassDecl where
  name : String
  language : Language := .java
  isInterface : Bool := false
  isAbstract : Bool := false
  isEnum : Bool := false
  isFinal : Bool := false
  typeParams : List String := []
  supertypes : List TypeRef := []
  fields : List FieldDecl := []
  methods : List MethodDecl := []
  annotations : List String := []
  enumConstants : List String := []
  hasDefaultConstructor : Bool := true
  inProject : Bool := true
  deriving Repr, Inhabited

namespace ClassDecl

/-- A class with nothing declared in it. -/
def plain (name : String) : ClassDecl where
  name := name

/-- An interface with nothing declared in it. -/
def interface (name : String) : ClassDecl where
  name := name
  isInterface := true
  isAbstract := true
  hasDefaultConstructor := false

/-- The last segment of the qualified name. -/
def simpleName (decl : ClassDecl) : String :=
  Text.simpleName decl.name

/-- The package of the class. -/
def packageName (decl : ClassDecl) : String :=
  Text.packageName decl.name

/-- The class applied to its own type parameters. -/
def ownType (decl : ClassDecl) : TypeRef :=
  TypeRef.generic decl.name (decl.typeParams.map TypeRef.parameter)

/-- The first field of a name. -/
def findField? (decl : ClassDecl) (name : String) : Option FieldDecl :=
  decl.fields.find? (·.name = name)

end ClassDecl

end Specwright
