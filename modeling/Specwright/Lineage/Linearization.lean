import Specwright.Host.Snapshot

/-!
# Linearization of a hierarchy

The classes above a class, depth first in the order of declaration and each class once: the class
itself, its superclass with everything above it, then its interfaces.  Every entry carries the
bindings under which the class at the start sees the type parameters of the entry; of several ways
to one class the first decides.  Classes that the snapshot does not hold are listed without anything
above them.

A class that lies above itself has no linearization.
-/

namespace Specwright

/-- A class in the linearization of another one, with its type parameters bound to types of that
one.  `known` says that the snapshot holds the class. -/
structure LineageEntry where
  name : String
  bindings : Bindings
  known : Bool
  deriving Repr

/-- Why a class has no linearization. -/
inductive LineageError where
  /-- The class lies above itself. -/
  | cycle (name : String)
  deriving Repr, DecidableEq

namespace LineageError

/-- The message of the error. -/
def message : LineageError → String
  | .cycle name => "inheritance cycle through class '" ++ name ++ "'"

end LineageError

namespace Snapshot

/-- The bindings of a direct supertype: its type parameters paired with its arguments, which are
seen under the bindings of the class that lists it. -/
def superBindings (snapshot : Snapshot) (bindings : Bindings) (supertype : TypeRef) : Bindings :=
  match snapshot.find? supertype.name with
  | some decl => ⟨decl.typeParams.zip (supertype.args.map (·.substitute bindings))⟩
  | none => .empty

/-- Adds a class and everything above it to the entries found so far.

`path` holds the classes below, down to the start.  It consists of distinct classes of the snapshot,
so `bound`, which limits its length, is never used up when it starts beyond their number. -/
def extendLineage
    (snapshot : Snapshot) :
    Nat → List String → List LineageEntry → String → Bindings →
      Except LineageError (List LineageEntry)
  | 0, _, _, name, _ => .error (.cycle name)
  | bound + 1, path, found, name, bindings =>
    if name ∈ path then .error (.cycle name)
    else if found.any (·.name = name) then .ok found
    else
      match snapshot.find? name with
      | none => .ok (found ++ [⟨name, bindings, false⟩])
      | some decl =>
        decl.supertypes.foldlM
          (fun found supertype =>
            extendLineage snapshot bound (name :: path) found supertype.name
              (snapshot.superBindings bindings supertype))
          (found ++ [⟨name, bindings, true⟩])

/-- The linearization of a class, which starts with the class itself without bindings. -/
def linearize (snapshot : Snapshot) (name : String) : Except LineageError (List LineageEntry) :=
  snapshot.extendLineage (snapshot.classes.length + 1) [] [] name .empty

/-- The linearization of a class, or nothing when there is none. -/
def lineage (snapshot : Snapshot) (name : String) : List LineageEntry :=
  match snapshot.linearize name with
  | .ok chain => chain
  | .error _ => []

/-- The names of the classes above a class; none when there is no linearization. -/
def namesAbove (snapshot : Snapshot) (name : String) : List String :=
  (snapshot.lineage name).tail.map (·.name)

/-- Whether a class is another one or lies below it. -/
def liesUnder (snapshot : Snapshot) (child parent : String) : Bool :=
  child = parent || decide (parent ∈ snapshot.namesAbove child)

end Snapshot

end Specwright
