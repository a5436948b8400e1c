import Specwright.Proofs.Lineage.CallsOnly
import Specwright.Proofs.Model.Construction

/-!
# The core of a scope

How members are classified, under which bindings they are seen and which calls are followed depends
on the core of a scope alone: the snapshot and the class under test with nothing found in bodies but
the call sites, and the admitted prefixes.  How deep the class under test is looked into has no part
in it.
-/

namespace Specwright

namespace Scope

/-- The part of a scope that plans depend on. -/
def core (scope : Scope) : Scope where
  snapshot := scope.snapshot.callsOnly
  subject := scope.subject.callsOnly
  options := { scope.options with maxDepth := 0 }
  held := by
    rw [ClassDecl.name_callsOnly, Snapshot.find?_callsOnly, scope.held]
    rfl

variable (scope : Scope)

@[simp] theorem snapshot_core : scope.core.snapshot = scope.snapshot.callsOnly :=
  rfl

/-! ## Members -/

theorem reaches_core (owner : ClassDecl) (modifiers : List Modifier) :
    scope.core.reaches owner.callsOnly modifiers = scope.reaches owner modifiers := by
  rw [reaches, reaches, snapshot_core, Snapshot.liesUnder_callsOnly]
  rfl

theorem traitsOf_core (owner : ClassDecl) (viewer : Option ClassDecl) (method : MethodDecl) :
    scope.core.traitsOf owner.callsOnly (viewer.map ClassDecl.callsOnly) method.callsOnly =
      scope.traitsOf owner viewer method := by
  have hreaches : scope.core.reaches owner.callsOnly method.callsOnly.modifiers =
      scope.reaches owner method.modifiers :=
    scope.reaches_core owner method.modifiers
  have hoverridden :
      (viewer.map ClassDecl.callsOnly).any (fun viewer =>
          scope.core.snapshot.isOverriddenFrom viewer.name owner.callsOnly.name method.callsOnly) =
        viewer.any fun viewer =>
          scope.snapshot.isOverriddenFrom viewer.name owner.name method := by
    cases viewer with
    | none => rfl
    | some viewer => exact Snapshot.isOverriddenFrom_callsOnly _ _ _ _
  have hinherited :
      isInheritedBy owner.callsOnly (viewer.map ClassDecl.callsOnly) =
        isInheritedBy owner viewer := by
    cases viewer <;> rfl
  simp only [traitsOf, hreaches, hoverridden, hinherited]
  rfl

theorem bindingsSeenBy?_core (viewer owner : ClassDecl) (method : MethodDecl) :
    scope.core.bindingsSeenBy? viewer.callsOnly owner.callsOnly method.callsOnly =
      scope.bindingsSeenBy? viewer owner method := by
  rw [bindingsSeenBy?, bindingsSeenBy?, snapshot_core, ClassDecl.name_callsOnly,
    MethodDecl.name_callsOnly, Snapshot.visibleMethods_callsOnly, List.find?_map, Option.map_map]
  rfl

theorem bindingsFor_core (owner : ClassDecl) (viewer : Option ClassDecl) (method : MethodDecl) :
    scope.core.bindingsFor owner.callsOnly (viewer.map ClassDecl.callsOnly) method.callsOnly =
      scope.bindingsFor owner viewer method := by
  simp only [bindingsFor, traitsOf_core]
  cases viewer with
  | none => rfl
  | some viewer =>
      simp only [Option.map_some, bindingsSeenBy?_core]
      rfl

/-! ## Followed calls -/

theorem followed?_core (signature : MethodSignature) :
    scope.core.followed? signature = (scope.followed? signature).map Declaration.callsOnly := by
  rw [followed?, followed?, snapshot_core, Snapshot.resolve?_callsOnly, Option.filter_map]
  rfl

theorem followedCalls_core (method : MethodDecl) :
    scope.core.followedCalls method.callsOnly =
      (scope.followedCalls method).map fun call => (call.1.callsOnly, call.2) := by
  rw [followedCalls, followedCalls, snapshot_core, Snapshot.fills_callsOnly]
  split
  · simp only [MethodDecl.callSites_callsOnly, followed?_core, List.map_filterMap, Option.map_map]
    rfl
  · rfl

end Scope

/-! ## Scopes with one core -/

namespace Scope

theorem core_core (scope : Scope) : scope.core.core = scope.core := by
  have hmethods (methods : List MethodDecl) :
      (methods.map MethodDecl.callsOnly).map MethodDecl.callsOnly =
        methods.map MethodDecl.callsOnly := by
    rw [List.map_map]
    rfl
  have hdecl (decl : ClassDecl) : decl.callsOnly.callsOnly = decl.callsOnly := by
    rw [ClassDecl.callsOnly, ClassDecl.methods_callsOnly, hmethods]
    rfl
  have hclasses (classes : List ClassDecl) :
      (classes.map ClassDecl.callsOnly).map ClassDecl.callsOnly =
        classes.map ClassDecl.callsOnly := by
    rw [List.map_map]
    exact List.map_congr_left fun decl _ => hdecl decl
  have hsnapshot : scope.snapshot.callsOnly.callsOnly = scope.snapshot.callsOnly := by
    simp only [Snapshot.callsOnly, hclasses]
    rfl
  simp only [core, hsnapshot, hdecl]

variable {scope scope' : Scope} {name : String} {decl decl' : ClassDecl}
variable {declaration declaration' : Declaration} {viewer viewer' : Option ClassDecl}

theorem callsOnly_of_core (h : scope.core = scope'.core) :
    scope.snapshot.callsOnly = scope'.snapshot.callsOnly :=
  congrArg Scope.snapshot h

theorem find?_of_core (h : scope.core = scope'.core) (name : String) :
    (scope.snapshot.find? name).map ClassDecl.callsOnly =
      (scope'.snapshot.find? name).map ClassDecl.callsOnly := by
  rw [← Snapshot.find?_callsOnly, ← Snapshot.find?_callsOnly, callsOnly_of_core h]

theorem memberFields_of_core
    (h : scope.core = scope'.core) (hdecl : decl.callsOnly = decl'.callsOnly) :
    (scope.snapshot.memberFields decl).map FieldDeclaration.callsOnly =
      (scope'.snapshot.memberFields decl').map FieldDeclaration.callsOnly := by
  rw [← Snapshot.memberFields_callsOnly, ← Snapshot.memberFields_callsOnly, callsOnly_of_core h,
    hdecl]

theorem memberMethods_of_core
    (h : scope.core = scope'.core) (hdecl : decl.callsOnly = decl'.callsOnly) :
    (scope.snapshot.memberMethods decl).map Declaration.callsOnly =
      (scope'.snapshot.memberMethods decl').map Declaration.callsOnly := by
  rw [← Snapshot.memberMethods_callsOnly, ← Snapshot.memberMethods_callsOnly, callsOnly_of_core h,
    hdecl]

theorem factsOf_of_core
    (h : scope.core = scope'.core) (hdecl : decl.callsOnly = decl'.callsOnly) :
    scope.snapshot.factsOf decl = scope'.snapshot.factsOf decl' := by
  rw [← scope.snapshot.factsOf_callsOnly, ← scope'.snapshot.factsOf_callsOnly,
    callsOnly_of_core h, hdecl]

section Methods

variable (h : scope.core = scope'.core)
variable (hdeclaration : declaration.callsOnly = declaration'.callsOnly)

include h hdeclaration

theorem traitsOf_of_core
    (hviewer : viewer.map ClassDecl.callsOnly = viewer'.map ClassDecl.callsOnly) :
    scope.traitsOf declaration.owner viewer declaration.method =
      scope'.traitsOf declaration'.owner viewer' declaration'.method := by
  have howner : declaration.owner.callsOnly = declaration'.owner.callsOnly :=
    congrArg Declaration.owner hdeclaration
  have hmethod : declaration.method.callsOnly = declaration'.method.callsOnly :=
    congrArg Declaration.method hdeclaration
  rw [← scope.traitsOf_core, ← scope'.traitsOf_core, h, howner, hviewer, hmethod]

theorem bindingsFor_of_core
    (hviewer : viewer.map ClassDecl.callsOnly = viewer'.map ClassDecl.callsOnly) :
    scope.bindingsFor declaration.owner viewer declaration.method =
      scope'.bindingsFor declaration'.owner viewer' declaration'.method := by
  have howner : declaration.owner.callsOnly = declaration'.owner.callsOnly :=
    congrArg Declaration.owner hdeclaration
  have hmethod : declaration.method.callsOnly = declaration'.method.callsOnly :=
    congrArg Declaration.method hdeclaration
  rw [← scope.bindingsFor_core, ← scope'.bindingsFor_core, h, howner, hviewer, hmethod]

theorem followedCalls_of_core :
    (scope.followedCalls declaration.method).map (fun call => (call.1.callsOnly, call.2)) =
      (scope'.followedCalls declaration'.method).map fun call => (call.1.callsOnly, call.2) := by
  have hmethod : declaration.method.callsOnly = declaration'.method.callsOnly :=
    congrArg Declaration.method hdeclaration
  rw [← scope.followedCalls_core, ← scope'.followedCalls_core, h, hmethod]

end Methods

end Scope

end Specwright
