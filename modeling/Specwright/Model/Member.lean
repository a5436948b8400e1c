import Specwright.Model.Scope
import Specwright.Text.Accessor

/-!
# Models of members

How fields, parameters and methods are modelled once there is an answer to every question about a
type.  The answers come from a function to some monad, so that the same construction serves a
resolver with a cache and one without.

A method is classified by its modifiers, its name and signature, and its place in the hierarchy; an
inherited method that may mention type parameters is seen under the bindings of its class.
-/

namespace Specwright

namespace MethodDecl

/-- Whether the method reads a property: `get` and a value, or `is` and a primitive Boolean, without
parameters. -/
def isGetter (method : MethodDecl) : Bool :=
  !method.has .static && !method.isConstructor && method.params.isEmpty &&
    match Text.cutAccessor method.name.toList with
    | some (.get, _) => method.returnsValue
    | some (.is, _) =>
      method.returnType.any fun type => type.isPrimitive && type.name = "boolean"
    | _ => false

/-- Whether the method writes a property: `set`, one parameter and no value. -/
def isSetter (method : MethodDecl) : Bool :=
  !method.has .static && !method.isConstructor && method.params.length = 1 &&
    match Text.cutAccessor method.name.toList with
    | some (.set, _) => !method.returnsValue
    | _ => false

/-- The property that the method reads or writes. -/
def property? (method : MethodDecl) : Option String :=
  if method.isGetter || method.isSetter then Text.propertyName method.name else none

/-- Whether a parameter or the return type may depend on type parameters of the class. -/
def mayDependOnParameters (method : MethodDecl) : Bool :=
  method.paramTypes.any TypeRef.isReference || method.returnType.any TypeRef.isReference

end MethodDecl

/-- Whether a class other than `owner` looks at its members. -/
def isInheritedBy (owner : ClassDecl) (viewer : Option ClassDecl) : Bool :=
  viewer.any fun viewer => viewer.name ≠ owner.name

namespace Scope

/-- The classification of a method of `owner` as seen by a class, if there is one. -/
def traitsOf
    (scope : Scope) (owner : ClassDecl) (viewer : Option ClassDecl)
    (method : MethodDecl) : MethodTraits :=
  let visibility := owner.visibilityOf method.modifiers
  { isPrivate := visibility.isPrivate
    isProtected := visibility.isProtected
    isDefault := visibility.isDefault
    isPublic := visibility.isPublic
    isAbstract := method.has .abstract
    isNative := method.has .native
    isStatic := method.has .static
    isConstructor := method.isConstructor
    isPrimaryConstructor := method.isConstructor && method.isPrimaryConstructor
    isGetter := method.isGetter
    isSetter := method.isSetter
    isGenerated := owner.language.isGenerated method
    inInterface := method.has .abstract || (!method.hasBody && !method.has .native)
    inherited := isInheritedBy owner viewer
    overridden :=
      viewer.any fun viewer => scope.snapshot.isOverriddenFrom viewer.name owner.name method
    accessible := scope.reaches owner method.modifiers }

/-- The bindings under which a class sees a method of `owner`. -/
def bindingsSeenBy?
    (scope : Scope) (viewer owner : ClassDecl) (method : MethodDecl) :
    Option Bindings :=
  let signature := method.signatureIn owner.name
  ((scope.snapshot.visibleMethods viewer.name method.name).find? fun visible =>
    visible.owner.name = owner.name && signature.matchesDecl visible.method).map (·.bindings)

/-- The bindings under which the types of a method are looked up.  Only inherited methods that are
tested and may be generic have any. -/
def bindingsFor
    (scope : Scope) (owner : ClassDecl) (viewer : Option ClassDecl)
    (method : MethodDecl) : Bindings :=
  let traits := scope.traitsOf owner viewer method
  match viewer with
  | some viewer =>
    if traits.inherited && traits.isTestedIn owner.name && method.mayDependOnParameters then
      (scope.bindingsSeenBy? viewer owner method).getD .empty
    else .empty
  | none => .empty

end Scope

variable {m : Type → Type} [Monad m]

/-- The model of a field of `owner` as seen by a class, if there is one. -/
def FieldModel.build
    (resolve : TypeRef → m TypeModel) (viewer : Option ClassDecl)
    (declaration : FieldDeclaration) : m FieldModel := do
  let { owner, field } := declaration
  let type ← resolve field.type
  pure
    { name := field.name
      type
      owner := owner.name
      visibility := owner.visibilityOf field.modifiers
      isStatic := field.has .static
      isFinal := field.has .final
      inherited := isInheritedBy owner viewer }

/-- The model of a parameter.  The fields that it is assigned to are not looked into: their types
are answered by `stub`. -/
def ParamModel.build
    (scope : Scope) (resolve leaf : TypeRef → m TypeModel) (bindings : Bindings)
    (declaration : Declaration) (param : ParamDecl) : m ParamModel := do
  let type ← resolve (param.type.substitute bindings)
  let assignedTo ←
    (scope.snapshot.fieldsAssignedFrom declaration.owner declaration.method param.name).mapM
      (FieldModel.build leaf none)
  pure { name := param.name, type, assignedTo }

/-- The model of a method as seen by a class, if there is one.  The return type is resolved first,
then each parameter, and last the body. -/
def MethodModel.build
    (scope : Scope) (resolve leaf : TypeRef → m TypeModel) (body : m (Option BodyModel))
    (viewer : Option ClassDecl) (declaration : Declaration) : m MethodModel := do
  let { owner, method } := declaration
  let bindings := scope.bindingsFor owner viewer method
  let returnType ← (method.returnType.map (·.substitute bindings)).mapM resolve
  let params ← method.params.mapM (ParamModel.build scope resolve leaf bindings declaration)
  let body ← body
  pure
    { id := declaration.id
      name := method.name
      owner := owner.name
      returnType
      params
      traits := scope.traitsOf owner viewer method
      property := method.property?
      body }

end Specwright
