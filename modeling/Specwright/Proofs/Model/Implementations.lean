import Specwright.Model.Member
import Specwright.Proofs.Lineage.Overriding

/-!
# Methods counted as implemented

Two places ask whether a method is implemented.  The model counts a method as left to the classes
below it when it is abstract, or has no body and is not native; the search for overriding methods
wants a body.  They differ on native methods without a body alone, so a method is overridden exactly
when one of the methods below it that the model counts as implemented has a body.
-/

namespace Specwright

namespace Scope

/-- Whether the model counts a method that a class sees as implemented. -/
def countsAsImplemented
    (scope : Scope) (viewer : ClassDecl) (visible : VisibleMethod) : Bool :=
  !visible.method.isConstructor &&
    !(scope.traitsOf visible.owner (some viewer) visible.method).inInterface

/-- The methods that the model counts as implemented among those with the name and parameter types
of one that a class sees, declared on classes below its own. -/
def implementationsBelow
    (scope : Scope) (viewer : ClassDecl) (visible : VisibleMethod) : List VisibleMethod :=
  (scope.snapshot.visibleMethods viewer.name visible.method.name).filter fun lower =>
    lower.owner.name ≠ visible.owner.name &&
      scope.snapshot.liesUnder lower.owner.name visible.owner.name &&
        lower.method.paramSpellingsUnder lower.bindings =
            visible.method.paramSpellingsUnder visible.bindings &&
          scope.countsAsImplemented viewer lower

variable {scope : Scope} {viewer : ClassDecl} {visible lower : VisibleMethod}

theorem countsAsImplemented_iff :
    scope.countsAsImplemented viewer visible = true ↔
      visible.method.isConstructor = false ∧ visible.method.has .abstract = false ∧
        (visible.method.hasBody = true ∨ visible.method.has .native = true) := by
  simp [countsAsImplemented, traitsOf, or_iff_not_imp_left]

theorem isConcrete_iff_countsAsImplemented (scope : Scope) (viewer : ClassDecl) :
    visible.method.isConcrete = true ↔
      scope.countsAsImplemented viewer visible = true ∧ visible.method.hasBody = true := by
  rw [countsAsImplemented_iff, MethodDecl.isConcrete, Bool.and_eq_true, Bool.and_eq_true,
    Bool.not_eq_true', Bool.not_eq_true']
  constructor
  · rintro ⟨⟨hnew, habstract⟩, hbody⟩
    exact ⟨⟨hnew, habstract, Or.inl hbody⟩, hbody⟩
  · rintro ⟨⟨hnew, habstract, -⟩, hbody⟩
    exact ⟨⟨hnew, habstract⟩, hbody⟩

theorem mem_implementationsBelow_iff :
    lower ∈ scope.implementationsBelow viewer visible ↔
      lower ∈ scope.snapshot.visibleMethods viewer.name visible.method.name ∧
        lower.owner.name ≠ visible.owner.name ∧
          scope.snapshot.liesUnder lower.owner.name visible.owner.name = true ∧
            lower.method.paramSpellingsUnder lower.bindings =
                visible.method.paramSpellingsUnder visible.bindings ∧
              scope.countsAsImplemented viewer lower = true := by
  simp only [implementationsBelow, List.mem_filter, Bool.and_eq_true, decide_eq_true_iff, and_assoc]

/-- What replaces a method are the implementations of it that have a body. -/
theorem isReplacedBy_iff_mem_implementationsBelow :
    scope.snapshot.IsReplacedBy viewer.name visible lower ↔
      lower ∈ scope.implementationsBelow viewer visible ∧ lower.method.hasBody = true := by
  rw [Snapshot.IsReplacedBy, Snapshot.mem_concreteMethods_iff, mem_implementationsBelow_iff,
    isConcrete_iff_countsAsImplemented scope viewer]
  constructor
  · rintro ⟨⟨hseen, ⟨hcounts, hbody⟩, htexts⟩, hne, hunder⟩
    exact ⟨⟨hseen, hne, hunder, htexts, hcounts⟩, hbody⟩
  · rintro ⟨⟨hseen, hne, hunder, htexts, hcounts⟩, hbody⟩
    exact ⟨⟨hseen, ⟨hcounts, hbody⟩, htexts⟩, hne, hunder⟩

/-- A method is overridden as seen from a class exactly when a method below it that the model counts
as its implementation has a body; so the implementations of a method that is not overridden are all
native and without a body. -/
theorem overridden_iff_implemented_with_body
    (hacyclic : scope.snapshot.Acyclic viewer.name)
    (hvisible : visible ∈ scope.snapshot.visibleMethods viewer.name visible.method.name) :
    (scope.snapshot.isOverriddenFrom viewer.name visible.owner.name visible.method = true ↔
      ∃ lower ∈ scope.implementationsBelow viewer visible, lower.method.hasBody = true) ∧
      (scope.snapshot.isOverriddenFrom viewer.name visible.owner.name visible.method = false →
        ∀ lower ∈ scope.implementationsBelow viewer visible,
          lower.method.has .native = true ∧ lower.method.hasBody = false) := by
  have hoverridden :
      scope.snapshot.isOverriddenFrom viewer.name visible.owner.name visible.method = true ↔
        ∃ lower ∈ scope.implementationsBelow viewer visible, lower.method.hasBody = true := by
    rw [hacyclic.isOverriddenFrom_iff hvisible, Snapshot.IsReplacedFrom]
    exact exists_congr fun lower => isReplacedBy_iff_mem_implementationsBelow
  refine ⟨hoverridden, ?_⟩
  intro hfree lower hlower
  have hbody : lower.method.hasBody = false := by
    rw [← Bool.not_eq_true]
    intro hbody
    rw [hoverridden.mpr ⟨lower, hlower, hbody⟩] at hfree
    cases hfree
  obtain ⟨-, -, -, -, hcounts⟩ := mem_implementationsBelow_iff.mp hlower
  obtain ⟨-, -, himplemented⟩ := countsAsImplemented_iff.mp hcounts
  exact ⟨himplemented.resolve_left (by simp [hbody]), hbody⟩

end Scope

/-! ## A store that hands a method to the system -/

/-- Writes out what is held back. -/
def syncMethod : MethodDecl where
  name := "sync"
  modifiers := [.publicAccess]

def storeClass : ClassDecl where
  name := "disk.Store"
  methods := [syncMethod]

/-- Writes out by itself. -/
def memoryStoreClass : ClassDecl where
  name := "disk.MemoryStore"
  supertypes := [.named "disk.Store"]
  methods := [syncMethod]

/-- Writes out by a call of the system. -/
def nativeSync : MethodDecl where
  name := "sync"
  modifiers := [.publicAccess, .native]
  hasBody := false

def fileStoreClass : ClassDecl where
  name := "disk.FileStore"
  supertypes := [.named "disk.Store"]
  methods := [nativeSync]

/-- The method of a store, as the stores below it see it. -/
def storeSync : VisibleMethod :=
  ⟨⟨storeClass, syncMethod⟩, .empty⟩

def diskScope : Scope where
  snapshot := .ofClasses [storeClass, memoryStoreClass, fileStoreClass]
  subject := fileStoreClass
  options := ⟨1, []⟩
  held := rfl

namespace Scope

/-- The store in memory has a method of its own for that of the store. -/
theorem overridden_iff_implemented_with_body_memoryStore :
    diskScope.snapshot.Acyclic memoryStoreClass.name ∧
      storeSync ∈ diskScope.snapshot.visibleMethods memoryStoreClass.name "sync" ∧
        ∃ lower ∈ diskScope.implementationsBelow memoryStoreClass storeSync,
          lower.method.hasBody = true := by
  have hacyclic : diskScope.snapshot.Acyclic memoryStoreClass.name :=
    Snapshot.acyclic_of_linearize rfl
  have hvisible : storeSync ∈ diskScope.snapshot.visibleMethods memoryStoreClass.name "sync" :=
    .tail _ (.head _)
  obtain ⟨hoverridden, -⟩ := overridden_iff_implemented_with_body hacyclic hvisible
  exact ⟨hacyclic, hvisible, hoverridden.mp (by decide +kernel)⟩

/-- The store of files leaves its method to the system: the model counts the method as implemented,
but that of the store is not overridden and is tested as the class sees it. -/
theorem native_does_not_override :
    diskScope.snapshot.Acyclic fileStoreClass.name ∧
      storeSync ∈ diskScope.snapshot.visibleMethods fileStoreClass.name "sync" ∧
        ⟨⟨fileStoreClass, nativeSync⟩, .empty⟩ ∈
            diskScope.implementationsBelow fileStoreClass storeSync ∧
          diskScope.snapshot.isOverriddenFrom fileStoreClass.name storeClass.name syncMethod =
              false ∧
            (diskScope.traitsOf storeClass (some fileStoreClass) syncMethod).isTestedIn
              storeClass.name = true :=
  ⟨Snapshot.acyclic_of_linearize rfl, .tail _ (.head _), .head _, by decide +kernel,
    by decide +kernel⟩

end Scope

end Specwright
