import Specwright.SortedMap
import Specwright.Target.TestClass

/-!
# Stores of test classes

Where test classes are kept, by qualified name.  A store may or may not create classes that it does
not hold, and refuses to hand out classes that are read-only.
-/

namespace Specwright

/-- Why a class of a store cannot be generated into. -/
inductive StoreRefusal where
  /-- The store does not hold the class and creates none. -/
  | creationRefused (name : String)
  /-- The class is read-only. -/
  | notWritable (name : String)
  deriving Repr, DecidableEq

namespace StoreRefusal

/-- The name of the class. -/
def target : StoreRefusal → String
  | .creationRefused name => name
  | .notWritable name => name

/-- The message of the error. -/
def message : StoreRefusal → String
  | .creationRefused name => "target '" ++ name ++ "' does not exist and cannot be created"
  | .notWritable name => "target '" ++ name ++ "' is not writable"

end StoreRefusal

/-- Test classes by qualified name. -/
structure Store where
  testClasses : SortedMap TestClass := .empty
  allowCreate : Bool := true

namespace Store

/-- The class under a name. -/
def get? (store : Store) (name : String) : Option TestClass :=
  store.testClasses.get? name

/-- The store with a class under a name. -/
def put (store : Store) (name : String) (testClass : TestClass) : Store :=
  { store with testClasses := store.testClasses.insert name testClass }

/-- The store with a class under its qualified name. -/
def insert (store : Store) (testClass : TestClass) : Store :=
  store.put testClass.qualifiedName testClass

/-- The class under a name for writing; an empty one where the store may create it. -/
def openTarget (store : Store) (name : String) : Except StoreRefusal TestClass :=
  match store.get? name with
  | some testClass => if testClass.readOnly then .error (.notWritable name) else .ok testClass
  | none => if store.allowCreate then .ok (.ofName name) else .error (.creationRefused name)

end Store

end Specwright
