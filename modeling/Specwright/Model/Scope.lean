import Specwright.Lineage.Fields
import Specwright.Lineage.Lookup
import Specwright.Lineage.Override
import Specwright.Model.Basic

/-!
# The scope of a model

A model is built for one class of a snapshot, the class under test.  It decides from where members
have to be accessible, and with the admitted prefixes of method ids which callees are followed.
-/

namespace Specwright

/-- What shapes a model besides the snapshot and the class under test. -/
structure ModelOptions where
  /-- How many levels of members the class under test is given. -/
  maxDepth : Nat
  /-- The beginnings of the ids of callees that count whatever class declares them. -/
  admittedPrefixes : List String
  deriving Repr, DecidableEq

/-- A snapshot with a class under test that belongs to it. -/
structure Scope where
  snapshot : Snapshot
  subject : ClassDecl
  options : ModelOptions
  held : snapshot.find? subject.name = some subject

namespace Scope

/-- The scope of the class of a name, when the snapshot holds one. -/
def open? (snapshot : Snapshot) (name : String) (options : ModelOptions) : Option Scope :=
  match h : snapshot.find? name with
  | some subject =>
    some
      { snapshot, subject, options
        held := by rw [Snapshot.name_of_find? h]; exact h }
  | none => none

/-- Whether a member of `owner` with the given modifiers can be used from the class under test. -/
def reaches (scope : Scope) (owner : ClassDecl) (modifiers : List Modifier) : Bool :=
  let visibility := owner.visibilityOf modifiers
  let samePackage := decide (owner.packageName = scope.subject.packageName)
  if visibility.isPublic || owner.name = scope.subject.name then true
  else if visibility.isPrivate then false
  else if visibility.isProtected then
    samePackage || scope.snapshot.liesUnder scope.subject.name owner.name
  else samePackage

/-- Whether calls of a declaration are followed.  Methods of root types never are; those of other
classes of the project are, except helpers for dynamic dispatch; all others are when their id has an
admitted prefix. -/
def follows (scope : Scope) (declaration : Declaration) : Bool :=
  let owner := declaration.owner
  let dynamic := owner.language.isDispatchHelper declaration.method declaration.id
  !isRootClass owner.name &&
    ((!dynamic && owner.inProject) ||
      scope.options.admittedPrefixes.any fun start =>
        start.toList.isPrefixOf declaration.id.toList)

/-- The followed declaration that a signature names. -/
def followed? (scope : Scope) (signature : MethodSignature) : Option Declaration :=
  (scope.snapshot.resolve? signature).filter scope.follows

end Scope

end Specwright
