import Specwright.Model.Member

/-!
# Expanding type references

A type reference is expanded by levels.  At depth 0 nothing is looked into.  At a greater depth the
elements of an array and the type arguments are expanded to the same depth and the types of members
one level less, so the recursion goes down in the depth or, at one depth, in the reference.

`TypeModel.expand` leaves two things open: how an expansion of positive depth is carried out, which
is where a cache comes in, and what stands in at depth 0.
-/

namespace Specwright

namespace Snapshot

/-- The classes whose members a class has: its linearization as far as the snapshot holds it, or the
class alone when there is none. -/
def memberSources (snapshot : Snapshot) (decl : ClassDecl) : List ClassDecl :=
  match snapshot.linearize decl.name with
  | .ok chain => chain.filterMap fun ancestor => snapshot.find? ancestor.name
  | .error _ => [decl]

/-- The fields that a class has, its own first. -/
def memberFields (snapshot : Snapshot) (decl : ClassDecl) : List FieldDeclaration :=
  (snapshot.memberSources decl).flatMap fun owner => owner.fields.map fun field => ⟨owner, field⟩

/-- The methods that a class has, its own first; constructors are not inherited. -/
def memberMethods (snapshot : Snapshot) (decl : ClassDecl) : List Declaration :=
  (snapshot.memberSources decl).flatMap fun owner =>
    (owner.methods.filter fun method => !method.isConstructor || owner.name = decl.name).map
      fun method => ⟨owner, method⟩

/-- What the declaration of a class tells about its type. -/
def factsOf (snapshot : Snapshot) (decl : ClassDecl) : ClassFacts where
  known := true
  language := decl.language
  isInterface := decl.isInterface
  isAbstract := decl.isAbstract
  isEnum := decl.isEnum
  isFinal := decl.isFinal
  typeParams := decl.typeParams
  supertypes := snapshot.namesAbove decl.name
  enumValues := decl.enumConstants
  annotations := decl.annotations
  hasDefaultConstructor := decl.hasDefaultConstructor

end Snapshot

namespace TypeModel

variable {m : Type → Type} [Monad m]

/-- The type of a class with the given type arguments.  The types of its members are answered by
`lower`; `bodyOf` looks into the bodies of its own methods. -/
def ofClass
    (scope : Scope) (lower leaf : TypeRef → m TypeModel)
    (bodyOf : Declaration → m (Option BodyModel))
    (ref : TypeRef) (args : List TypeModel) : m TypeModel :=
  let type := { nameOnly ref with populated := true, args }
  match scope.snapshot.find? ref.name with
  | none => pure type
  | some decl => do
    let fields ←
      (scope.snapshot.memberFields decl).mapM (FieldModel.build lower (some decl))
    let methods ← (scope.snapshot.memberMethods decl).mapM fun declaration =>
      let body :=
        if declaration.owner.name = decl.name then bodyOf declaration else pure none
      MethodModel.build scope lower leaf body (some decl) declaration
    pure { type with facts := scope.snapshot.factsOf decl, fields, methods }

/-- Expands arrays over a reference: each dimension wraps the expansion of its elements. -/
def expandArray
    (serve : TypeRef → m TypeModel → m TypeModel)
    (base : TypeRef) (element : m TypeModel) : Nat → m TypeModel
  | 0 => element
  | dims + 1 =>
    let ref := { base with dims := dims + 1 }
    serve ref do
      let type ← expandArray serve base element dims
      pure { nameOnly ref with populated := true, element := some type }

mutual

/-- Expands a reference at one depth, where `lower` answers for the types of members and `serve`
carries out each expansion. -/
def expandAt
    (scope : Scope) (serve : TypeRef → m TypeModel → m TypeModel)
    (lower leaf : TypeRef → m TypeModel) : TypeRef → m TypeModel
  | ⟨name, args, kind, dims⟩ =>
    let base : TypeRef := ⟨name, args, kind, 0⟩
    let element :=
      serve base
        (if kind = .reference then do
          let types ← expandAllAt scope serve lower leaf args
          ofClass scope lower leaf (fun _ => pure none) base types
        else
          pure { nameOnly base with populated := true })
    expandArray serve base element dims

/-- Expands each of a list of references at one depth. -/
def expandAllAt
    (scope : Scope) (serve : TypeRef → m TypeModel → m TypeModel)
    (lower leaf : TypeRef → m TypeModel) : List TypeRef → m (List TypeModel)
  | [] => pure []
  | ref :: rest => do
    let type ← expandAt scope serve lower leaf ref
    let types ← expandAllAt scope serve lower leaf rest
    pure (type :: types)

end

/-- Expands a reference to a depth; `serve` carries out each expansion of a positive depth. -/
def expand
    (scope : Scope) (serve : Nat → TypeRef → m TypeModel → m TypeModel)
    (leaf : TypeRef → m TypeModel) : Nat → TypeRef → m TypeModel
  | 0 => leaf
  | depth + 1 => expandAt scope (serve (depth + 1)) (expand scope serve leaf depth) leaf

/-- The expansion of a reference by itself, without anything remembered. -/
def plain (scope : Scope) (depth : Nat) (ref : TypeRef) : TypeModel :=
  Id.run (expand scope (fun _ _ build => build) (fun ref => pure (nameOnly ref)) depth ref)

end TypeModel

end Specwright
