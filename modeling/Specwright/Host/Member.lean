import Specwright.Host.TypeRef

/-!
# Member declarations

Fields, parameters and methods as a host declares them, together with what the host found inside
method bodies: call sites, method references, uses of variables and writes to fields, all resolved
to qualified names.
-/

namespace Specwright

/-- A declaration modifier. -/
inductive Modifier where
  | publicAccess
  | protectedAccess
  | privateAccess
  | static
  | abstract
  | native
  | final
  deriving DecidableEq, Repr

/-- A fact about a method that is no modifier. -/
inductive Marker where
  /-- Generated by the compiler. -/
  | synthetic
  /-- A helper for dynamic dispatch that the runtime adds. -/
  | dynamicDispatch
  deriving DecidableEq, Repr

/-- A field declaration. -/
structure FieldDecl where
  name : String
  type : TypeRef
  modifiers : List Modifier := []
  deriving Repr, Inhabited

/-- A formal parameter. -/
structure ParamDecl where
  name : String
  type : TypeRef
  deriving Repr, Inhabited

/-- The target of a call or method reference: the declaring class as the host resolved it, the name
and the declared parameter types. -/
structure MethodSignature where
  owner : String
  name : String
  paramTypes : List TypeRef := []
  deriving Repr, Inhabited

/-- A call in a method body, its arguments as source text, with the field it is made on if its
receiver is one. -/
structure CallSite where
  target : MethodSignature
  args : List String := []
  field : Option String := none
  deriving Repr, Inhabited

/-- What a use of a variable does to it. -/
inductive Access where
  | read
  | write
  deriving DecidableEq, Repr, Inhabited

/-- A use of a variable or field in a method body; `owner` is the type that the member belongs
to. -/
structure VariableUse where
  name : String
  access : Access
  type : TypeRef
  owner : String
  deriving Repr, Inhabited

/-- An assignment to a field in a method body, the assigned expression as source text. -/
structure FieldAssignment where
  field : String
  declaringType : String
  value : String
  deriving Repr, DecidableEq, Inhabited

/-- A method or constructor declaration.

`returnType` is missing where the host exposes none; `delegatesTo` is the constructor that a
constructor hands over to. -/
structure MethodDecl where
  name : String
  modifiers : List Modifier := []
  returnType : Option TypeRef := none
  params : List ParamDecl := []
  isConstructor : Bool := false
  isPrimaryConstructor : Bool := false
  hasBody : Bool := true
  markers : List Marker := []
  callSites : List CallSite := []
  methodRefs : List MethodSignature := []
  variableUses : List VariableUse := []
  fieldWrites : List FieldAssignment := []
  delegatesTo : Option MethodSignature := none
  deriving Repr, Inhabited

namespace FieldDecl

/-- Whether the field is declared with a modifier. -/
def has (field : FieldDecl) (modifier : Modifier) : Bool :=
  decide (modifier ∈ field.modifiers)

end FieldDecl

namespace MethodDecl

/-- Whether the method is declared with a modifier. -/
def has (method : MethodDecl) (modifier : Modifier) : Bool :=
  decide (modifier ∈ method.modifiers)

/-- Whether the host marked the method. -/
def isMarked (method : MethodDecl) (marker : Marker) : Bool :=
  decide (marker ∈ method.markers)

/-- The declared parameter types. -/
def paramTypes (method : MethodDecl) : List TypeRef :=
  method.params.map (·.type)

/-- The spellings of the parameter types under bindings. -/
def paramSpellingsUnder (bindings : Bindings) (method : MethodDecl) : List String :=
  method.paramTypes.map fun type => (type.substitute bindings).spelling

/-- The spellings of the declared parameter types. -/
def paramSpellings (method : MethodDecl) : List String :=
  method.paramTypes.map TypeRef.spelling

/-- The text that identifies the method when a class declares it: `owner.name(types)` with the
declared parameter types. -/
def idIn (method : MethodDecl) (owner : String) : String :=
  owner ++ "." ++ method.name ++ "(" ++ ",".intercalate method.paramSpellings ++ ")"

/-- The signature that names the method when a class declares it. -/
def signatureIn (method : MethodDecl) (owner : String) : MethodSignature :=
  ⟨owner, method.name, method.paramTypes⟩

/-- Whether the method gives back a value. -/
def returnsValue (method : MethodDecl) : Bool :=
  method.returnType.any fun type => !type.isVoid

/-- A public method with a body and nothing else. -/
def plain (name : String) : MethodDecl where
  name := name
  modifiers := [.publicAccess]

end MethodDecl

namespace MethodSignature

/-- The spellings of the parameter types. -/
def paramSpellings (signature : MethodSignature) : List String :=
  signature.paramTypes.map TypeRef.spelling

/-- Whether a method has the name and the parameter types of the signature. -/
def matchesDecl (signature : MethodSignature) (method : MethodDecl) : Bool :=
  method.name = signature.name && method.paramSpellings = signature.paramSpellings

end MethodSignature

end Specwright
