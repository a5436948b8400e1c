import Specwright.Host.ClassDecl

/-!
# Rules of the source languages

What the source language decides about a member: its visibility when it declares none, whether the
compiler generated it, whether it is a helper for dynamic dispatch, and whether a callee is seen
from the class that declares it.
-/

namespace Specwright

/-- The visibility of a member, after the default of its language. -/
structure Visibility where
  isPublic : Bool
  isProtected : Bool
  isPrivate : Bool
  /-- Visible in the package. -/
  isDefault : Bool
  deriving DecidableEq, Repr, Inhabited

namespace Language

/-- Whether a member without a visibility modifier is public; otherwise it is visible in its
package. -/
def implicitlyPublic (language : Language) (inInterface : Bool) : Bool :=
  match language with
  | .java => inInterface
  | .groovy | .scala => true

/-- Whether the compiler generated a method, so that there is nothing to test. -/
def isGenerated (language : Language) (method : MethodDecl) : Bool :=
  match language with
  | .scala => method.isMarked .synthetic
  | .java | .groovy => false

/-- The ends of the method ids through which properties and methods are reached dynamically. -/
def dynamicAccessors : List String :=
  [".invokeMethod(java.lang.String,java.lang.Object)",
    ".getProperty(java.lang.String)",
    ".setProperty(java.lang.String,java.lang.Object)"]

/-- Whether a method is a helper for dynamic dispatch. -/
def isDispatchHelper (language : Language) (method : MethodDecl) (id : String) : Bool :=
  match language with
  | .groovy =>
    method.isMarked .dynamicDispatch ||
      dynamicAccessors.any fun accessor => accessor.toList.isSuffixOf id.toList
  | .java | .scala => false

/-- Whether the callees of a method are seen from the classes that declare them. -/
def keepsCalleeContext : Language → Bool
  | .java => true
  | .groovy | .scala => false

end Language

namespace ClassDecl

/-- The visibility of a member of the class with the given modifiers. -/
def visibilityOf (owner : ClassDecl) (modifiers : List Modifier) : Visibility :=
  let isPrivate := decide (.privateAccess ∈ modifiers)
  let isProtected := decide (.protectedAccess ∈ modifiers)
  let isPublic := decide (.publicAccess ∈ modifiers)
  let implicit := !isPrivate && !isProtected && !isPublic
  let implicitlyPublic := owner.language.implicitlyPublic owner.isInterface
  { isPublic := isPublic || (implicit && implicitlyPublic)
    isProtected
    isPrivate
    isDefault := implicit && !implicitlyPublic }

end ClassDecl

/-- The classes at the root of every hierarchy, whose methods are neither tested nor followed. -/
def rootClasses : List String :=
  ["java.lang.Object", "java.lang.Class", "groovy.lang.GroovyObjectSupport"]

/-- Whether a class is at the root of every hierarchy. -/
def isRootClass (name : String) : Bool :=
  decide (name ∈ rootClasses)

end Specwright
