import Specwright.Lineage.Linearization

/-!
# Finding fields in a hierarchy

A field name means the field that the class itself declares, else the one of the nearest class above
it.  The fields that a method assigns a parameter to are found by name in this way.
-/

namespace Specwright

/-- A field with the class that declares it. -/
structure FieldDeclaration where
  owner : ClassDecl
  field : FieldDecl
  deriving Repr, Inhabited

namespace ClassDecl

/-- The field of a name that the class itself declares. -/
def declaration? (decl : ClassDecl) (name : String) : Option FieldDeclaration :=
  (decl.findField? name).map fun field => ⟨decl, field⟩

end ClassDecl

namespace Snapshot

/-- The field of a name that a class declares or inherits. -/
def findField? (snapshot : Snapshot) (owner : ClassDecl) (name : String) :
    Option FieldDeclaration :=
  match owner.declaration? name with
  | some found => some found
  | none =>
    (snapshot.namesAbove owner.name).findSome? fun ancestor =>
      (snapshot.find? ancestor).bind (·.declaration? name)

/-- The fields that a method of `owner` assigns a parameter to, where the search for them can be
carried out; a static method assigns to none. -/
def fieldsAssignedFrom
    (snapshot : Snapshot) (owner : ClassDecl) (method : MethodDecl)
    (param : String) : List FieldDeclaration :=
  if method.has .static then []
  else
    match snapshot.namesAssignedFrom owner method param with
    | .ok names => names.filterMap (snapshot.findField? owner)
    | .error _ => []

/-- The names of the fields that a method of `owner` assigns any of its parameters to, where the
search for them can be carried out. -/
def namesAssignedBy (snapshot : Snapshot) (owner : ClassDecl) (method : MethodDecl) :
    List String :=
  distinct <| method.params.flatMap fun param =>
    match snapshot.namesAssignedFrom owner method param.name with
    | .ok names => names
    | .error _ => []

end Snapshot

end Specwright
