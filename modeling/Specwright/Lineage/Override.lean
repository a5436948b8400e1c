import Specwright.Lineage.Linearization

/-!
# Overriding

A declaration is overridden, as seen from a class, when a class below its owner in the linearization
of that class has a concrete method with the same name and the same parameter types, each type taken
under the bindings of its class.
-/

namespace Specwright

namespace MethodDecl

/-- A method that can replace another one: no constructor, not abstract, and with a body. -/
def isConcrete (method : MethodDecl) : Bool :=
  !method.isConstructor && !method.has .abstract && method.hasBody

/-- Whether a method replaces one with the given name and parameter texts. -/
def replaces
    (candidate : MethodDecl) (bindings : Bindings)
    (name : String) (texts : List String) : Bool :=
  candidate.name = name && candidate.isConcrete && candidate.paramSpellingsUnder bindings = texts

end MethodDecl

namespace Snapshot

/-- Whether a method that `owner` declares is overridden as seen from `source`. -/
def isOverriddenFrom (snapshot : Snapshot) (source owner : String) (method : MethodDecl) : Bool :=
  if source = owner then false
  else
    let chain := snapshot.lineage source
    match chain.find? (·.name = owner) with
    | none => false
    | some entry =>
      let texts := method.paramSpellingsUnder entry.bindings
      chain.any fun ancestor =>
        ancestor.name ≠ owner && snapshot.liesUnder ancestor.name owner &&
          (snapshot.find? ancestor.name).any fun decl =>
            decl.methods.any fun candidate =>
              candidate.replaces ancestor.bindings method.name texts

end Snapshot

end Specwright
