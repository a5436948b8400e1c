import Specwright.Lineage.Linearization

/-!
# Finding declarations in a hierarchy

Calls are resolved to the nearest declaration with the right name and parameter types, which are
compared both as declared and as seen from the class at the start.
-/

namespace Specwright

/-- A method with the class that declares it. -/
structure Declaration where
  owner : ClassDecl
  method : MethodDecl
  deriving Repr, Inhabited

namespace Declaration

/-- The text that identifies the declaration. -/
def id (declaration : Declaration) : String :=
  declaration.method.idIn declaration.owner.name

end Declaration

/-- A declaration with the bindings of its class as seen from the class at the start. -/
structure VisibleMethod extends Declaration where
  bindings : Bindings
  deriving Repr, Inhabited

namespace MethodSignature

/-- Whether a method of an ancestor answers the signature, its parameter types taken as declared or
under the bindings of the ancestor. -/
def answeredBy (signature : MethodSignature) (bindings : Bindings) (method : MethodDecl) : Bool :=
  method.name = signature.name &&
    (signature.matchesDecl method || method.paramSpellingsUnder bindings = signature.paramSpellings)

end MethodSignature

namespace Snapshot

/-- The first declaration among the ancestors that answers a signature. -/
def resolveAmong?
    (snapshot : Snapshot) (signature : MethodSignature)
    (chain : List LineageEntry) : Option Declaration :=
  chain.findSome? fun ancestor =>
    match snapshot.find? ancestor.name with
    | some decl =>
      (decl.methods.find? (signature.answeredBy ancestor.bindings)).map fun method =>
        ⟨decl, method⟩
    | none => none

/-- The declaration that a signature names: one of its owner, else the first one above the owner
that answers it. -/
def resolve? (snapshot : Snapshot) (signature : MethodSignature) : Option Declaration :=
  match snapshot.find? signature.owner with
  | none => none
  | some owner =>
    match owner.methods.find? signature.matchesDecl with
    | some method => some ⟨owner, method⟩
    | none => snapshot.resolveAmong? signature (snapshot.lineage signature.owner).tail

/-- The methods of a name that an ancestor declares, as seen from the class at the start. -/
def methodsOfAncestor
    (snapshot : Snapshot) (name : String) (ancestor : LineageEntry) :
    List VisibleMethod :=
  match snapshot.find? ancestor.name with
  | some decl =>
    (decl.methods.filter (·.name = name)).map fun method => ⟨⟨decl, method⟩, ancestor.bindings⟩
  | none => []

/-- All methods of a name that are seen from a class, the nearest first. -/
def visibleMethods (snapshot : Snapshot) (source name : String) : List VisibleMethod :=
  (snapshot.lineage source).flatMap (snapshot.methodsOfAncestor name)

end Snapshot

end Specwright
