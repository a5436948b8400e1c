import Specwright.Distinct
import Specwright.Host.LanguageRules

/-!
# The type model

What is known about a type of the host, as far as it was looked into: names, facts about the class,
fields and methods with the types in them.  A model is a finite tree.  A type that was not looked
into has names only and is said to be not populated.

A method of the class under test also has a body: the calls, method references and uses of variables
that were found in it.
-/

namespace Specwright

/-- What the type reference alone tells about a type. -/
structure TypeNames where
  /-- The spelling, by which types are told apart. -/
  spelling : String
  /-- The name with brackets and without type arguments. -/
  erasedName : String
  /-- The erased name without the package. -/
  name : String
  packageName : String
  kind : TypeSort
  deriving DecidableEq, Repr, Inhabited

/-- What the declaration of a class tells about a type; `known` says that there is one. -/
structure ClassFacts where
  known : Bool := false
  language : Language := .java
  isInterface : Bool := false
  isAbstract : Bool := false
  isEnum : Bool := false
  isFinal : Bool := false
  typeParams : List String := []
  /-- The names of the classes above, the nearest first. -/
  supertypes : List String := []
  enumValues : List String := []
  annotations : List String := []
  hasDefaultConstructor : Bool := false
  deriving DecidableEq, Repr, Inhabited

/-- How a method is classified. -/
structure MethodTraits where
  isPrivate : Bool := false
  isProtected : Bool := false
  /-- Visible in the package. -/
  isDefault : Bool := false
  isPublic : Bool := false
  isAbstract : Bool := false
  isNative : Bool := false
  isStatic : Bool := false
  isConstructor : Bool := false
  isPrimaryConstructor : Bool := false
  isGetter : Bool := false
  isSetter : Bool := false
  isGenerated : Bool := false
  /-- Declared without a body, as in an interface. -/
  inInterface : Bool := false
  /-- Declared above the class from which it is seen. -/
  inherited : Bool := false
  /-- Replaced by a concrete method nearer to the class from which it is seen. -/
  overridden : Bool := false
  /-- Callable from the class under test. -/
  accessible : Bool := false
  deriving DecidableEq, Repr, Inhabited

mutual

/-- A type, as far as it was looked into. -/
structure TypeModel where
  names : TypeNames
  facts : ClassFacts
  populated : Bool
  args : List TypeModel
  element : Option TypeModel
  fields : List FieldModel
  methods : List MethodModel

/-- A field of a type, its own or inherited. -/
structure FieldModel where
  name : String
  type : TypeModel
  owner : String
  visibility : Visibility
  isStatic : Bool
  isFinal : Bool
  inherited : Bool

/-- A parameter of a method with the fields that the method assigns it to. -/
structure ParamModel where
  name : String
  type : TypeModel
  assignedTo : List FieldModel

/-- A method or constructor of a type, its own or inherited. -/
structure MethodModel where
  id : String
  name : String
  owner : String
  returnType : Option TypeModel
  params : List ParamModel
  traits : MethodTraits
  property : Option String
  body : Option BodyModel

/-- What was found in the body of a method. -/
structure BodyModel where
  calls : List CallModel
  methodRefs : List MethodModel
  references : List ReferenceModel
  /-- The fields that the constructor it delegates to assigns. -/
  affectedFields : List FieldModel

/-- A call of a method with the source texts of its arguments. -/
structure CallModel where
  callee : MethodModel
  args : List String

/-- A use of a variable or field. -/
structure ReferenceModel where
  name : String
  access : Access
  type : TypeModel
  owner : String

end

namespace TypeModel

/-- The type as it is when nothing was looked into. -/
def nameOnly (ref : TypeRef) : TypeModel where
  names :=
    let (packageName, simpleName) :=
      match ref.kind, Text.cutQualified ref.name with
      | .reference, some (package, simple) => (package, simple)
      | _, _ => ("", ref.name)
    { spelling := ref.spelling
      erasedName := ref.erasure
      name := simpleName ++ TypeRef.dimsText ref.dims
      packageName
      kind := ref.kind }
  facts := {}
  populated := false
  args := []
  element := none
  fields := []
  methods := []

instance : Inhabited TypeModel :=
  ⟨nameOnly .void⟩

/-- The spelling with type arguments. -/
def spelling (type : TypeModel) : String :=
  type.names.spelling

/-- The erased name with brackets. -/
def erasedName (type : TypeModel) : String :=
  type.names.erasedName

/-- A type whose name ends in brackets. -/
def isArray (type : TypeModel) : Bool :=
  ['[', ']'].isSuffixOf type.erasedName.toList

/-- A primitive type that is no array. -/
def isPrimitive (type : TypeModel) : Bool :=
  type.names.kind = .primitive && type.element.isNone && !type.isArray

/-- The type without values. -/
def isVoid (type : TypeModel) : Bool :=
  type.names.kind = .void

/-- A type parameter that is no array. -/
def isTypeParameter (type : TypeModel) : Bool :=
  type.names.kind = .parameter && !type.isArray

/-- Whether the class carries an annotation of the given name. -/
def isAnnotated (type : TypeModel) (name : String) : Bool :=
  decide (name ∈ type.facts.annotations)

/-- The constructors among the methods. -/
def constructors (type : TypeModel) : List MethodModel :=
  type.methods.filter (·.traits.isConstructor)

/-- The first field of a name. -/
def findField? (type : TypeModel) (name : String) : Option FieldModel :=
  type.fields.find? (·.name = name)

/-- Whether an instance can be made without arguments: the class is known and concrete, and has a
default constructor or an accessible one without parameters. -/
def hasEmptyConstructor (type : TypeModel) : Bool :=
  !type.facts.isInterface && !type.facts.isAbstract && type.facts.known &&
    (type.facts.hasDefaultConstructor ||
      type.constructors.any fun c => c.traits.accessible && c.params.isEmpty)

end TypeModel

namespace MethodModel

/-- Whether the method gives back a value. -/
def givesValue (method : MethodModel) : Bool :=
  method.returnType.any fun type => !type.isVoid

/-- The calls in the body, in the order in which they are found. -/
def directCalls (method : MethodModel) : List CallModel :=
  (method.body.map (·.calls)).getD []

/-- The calls that decide about stubs: the direct ones. -/
def stubCalls (method : MethodModel) : List CallModel :=
  method.directCalls

/-- The calls that decide about spies: the direct ones, whatever the visibility of the callee. -/
def spyCalls (method : MethodModel) : List CallModel :=
  method.directCalls

/-- The method references in the body. -/
def methodRefs (method : MethodModel) : List MethodModel :=
  (method.body.map (·.methodRefs)).getD []

/-- The uses of variables in the body. -/
def references (method : MethodModel) : List ReferenceModel :=
  (method.body.map (·.references)).getD []

/-- The fields that the constructor it delegates to assigns. -/
def affectedFields (method : MethodModel) : List FieldModel :=
  (method.body.map (·.affectedFields)).getD []

/-- The callees that the class of the method declares itself, each once. -/
def siblingCallees (method : MethodModel) : List MethodModel :=
  distinctBy (·.id) ((method.spyCalls.map (·.callee)).filter (·.owner = method.owner))

/-- Whether the body calls a method. -/
def callsTo (method callee : MethodModel) : Bool :=
  method.stubCalls.any (·.callee.id = callee.id)

end MethodModel

namespace MethodTraits

/-- Whether a method of the class `owner` with these traits is tested by itself. -/
def isTestedIn (traits : MethodTraits) (owner : String) : Bool :=
  !isRootClass owner && !traits.isSetter && !traits.isGetter && !traits.isConstructor &&
    (traits.isPublic || ((traits.isDefault || traits.isProtected) && !traits.inherited)) &&
    !traits.overridden && !traits.inInterface && !traits.isAbstract && !traits.isGenerated

/-- The traits by name, in the order in which they are written. -/
def toList (traits : MethodTraits) : List (String × Bool) :=
  [("is_private", traits.isPrivate),
    ("is_protected", traits.isProtected),
    ("is_default", traits.isDefault),
    ("is_public", traits.isPublic),
    ("is_abstract", traits.isAbstract),
    ("is_native", traits.isNative),
    ("is_static", traits.isStatic),
    ("is_constructor", traits.isConstructor),
    ("is_primary_constructor", traits.isPrimaryConstructor),
    ("is_getter", traits.isGetter),
    ("is_setter", traits.isSetter),
    ("is_synthetic", traits.isGenerated),
    ("in_interface", traits.inInterface),
    ("inherited", traits.inherited),
    ("overridden", traits.overridden),
    ("accessible", traits.accessible)]

end MethodTraits

namespace MethodModel

/-- Whether the method is tested by itself. -/
def isTested (method : MethodModel) : Bool :=
  method.traits.isTestedIn method.owner

end MethodModel

end Specwright
