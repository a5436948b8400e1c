import Specwright.Model.Expansion
import Mathlib.Data.List.Basic

/-!
# Hierarchies read no bodies

Linearizations, members, overriding and the resolution of calls are read off names, signatures and
supertypes.  They stay what they are when nothing is kept of method bodies but the call sites.
-/

namespace Specwright

namespace MethodDecl

/-- The method with nothing found in its body but the call sites. -/
def callsOnly (method : MethodDecl) : MethodDecl :=
  { method with methodRefs := [], variableUses := [], fieldWrites := [], delegatesTo := none }

@[simp] theorem name_callsOnly (method : MethodDecl) : method.callsOnly.name = method.name :=
  rfl

@[simp] theorem callSites_callsOnly (method : MethodDecl) :
    method.callsOnly.callSites = method.callSites :=
  rfl

@[simp] theorem paramSpellingsUnder_callsOnly (bindings : Bindings) (method : MethodDecl) :
    method.callsOnly.paramSpellingsUnder bindings = method.paramSpellingsUnder bindings :=
  rfl

@[simp] theorem replaces_callsOnly
    (method : MethodDecl) (bindings : Bindings) (name : String) (texts : List String) :
    method.callsOnly.replaces bindings name texts = method.replaces bindings name texts :=
  rfl

end MethodDecl

namespace ClassDecl

/-- The class with nothing found in the bodies of its methods but the call sites. -/
def callsOnly (decl : ClassDecl) : ClassDecl :=
  { decl with methods := decl.methods.map MethodDecl.callsOnly }

@[simp] theorem name_callsOnly (decl : ClassDecl) : decl.callsOnly.name = decl.name :=
  rfl

@[simp] theorem supertypes_callsOnly (decl : ClassDecl) :
    decl.callsOnly.supertypes = decl.supertypes :=
  rfl

@[simp] theorem fields_callsOnly (decl : ClassDecl) : decl.callsOnly.fields = decl.fields :=
  rfl

@[simp] theorem methods_callsOnly (decl : ClassDecl) :
    decl.callsOnly.methods = decl.methods.map MethodDecl.callsOnly :=
  rfl

end ClassDecl

/-- The declaration with nothing found in bodies but the call sites. -/
def Declaration.callsOnly (declaration : Declaration) : Declaration :=
  ⟨declaration.owner.callsOnly, declaration.method.callsOnly⟩

/-- The field with nothing found in the bodies of its class but the call sites. -/
def FieldDeclaration.callsOnly (declaration : FieldDeclaration) : FieldDeclaration :=
  ⟨declaration.owner.callsOnly, declaration.field⟩

/-- The visible method with nothing found in bodies but the call sites. -/
def VisibleMethod.callsOnly (visible : VisibleMethod) : VisibleMethod :=
  ⟨visible.toDeclaration.callsOnly, visible.bindings⟩

namespace Snapshot

/-- The snapshot with nothing found in method bodies but the call sites, and with no other view of
them filled in. -/
def callsOnly (snapshot : Snapshot) : Snapshot where
  classes := snapshot.classes.map ClassDecl.callsOnly
  views := some ⟨snapshot.fills .callSites, false, false, false⟩
  sorted := List.pairwise_map.mpr snapshot.sorted

variable (snapshot : Snapshot)

@[simp] theorem fills_callsOnly : snapshot.callsOnly.fills .callSites = snapshot.fills .callSites :=
  rfl

@[simp] theorem find?_callsOnly (name : String) :
    snapshot.callsOnly.find? name = (snapshot.find? name).map ClassDecl.callsOnly := by
  rw [find?, find?, callsOnly, List.find?_map]
  rfl

/-! ## Linearizations -/

@[simp] theorem superBindings_callsOnly (bindings : Bindings) (supertype : TypeRef) :
    snapshot.callsOnly.superBindings bindings supertype =
      snapshot.superBindings bindings supertype := by
  rw [superBindings, superBindings, find?_callsOnly]
  cases snapshot.find? supertype.name <;> rfl

theorem extendLineage_callsOnly
    (bound : Nat) (path : List String) (found : List LineageEntry) (name : String)
    (bindings : Bindings) :
    snapshot.callsOnly.extendLineage bound path found name bindings =
      snapshot.extendLineage bound path found name bindings := by
  induction bound generalizing path found name bindings with
  | zero => rfl
  | succ bound ih =>
      rw [extendLineage, extendLineage, find?_callsOnly]
      cases snapshot.find? name with
      | none => rfl
      | some decl =>
          simp only [Option.map_some, ClassDecl.supertypes_callsOnly, superBindings_callsOnly, ih]

@[simp] theorem linearize_callsOnly (name : String) :
    snapshot.callsOnly.linearize name = snapshot.linearize name := by
  have hlength : snapshot.callsOnly.classes.length = snapshot.classes.length := List.length_map _
  rw [linearize, linearize, hlength, extendLineage_callsOnly]

@[simp] theorem lineage_callsOnly (name : String) :
    snapshot.callsOnly.lineage name = snapshot.lineage name := by
  rw [lineage, lineage, linearize_callsOnly]

@[simp] theorem namesAbove_callsOnly (name : String) :
    snapshot.callsOnly.namesAbove name = snapshot.namesAbove name := by
  rw [namesAbove, namesAbove, lineage_callsOnly]

@[simp] theorem liesUnder_callsOnly (child parent : String) :
    snapshot.callsOnly.liesUnder child parent = snapshot.liesUnder child parent := by
  rw [liesUnder, liesUnder, namesAbove_callsOnly]

/-! ## Declarations -/

theorem methodsOfAncestor_callsOnly (name : String) (ancestor : LineageEntry) :
    snapshot.callsOnly.methodsOfAncestor name ancestor =
      (snapshot.methodsOfAncestor name ancestor).map VisibleMethod.callsOnly := by
  rw [methodsOfAncestor, methodsOfAncestor, find?_callsOnly]
  cases snapshot.find? ancestor.name with
  | none => rfl
  | some decl =>
      simp only [Option.map_some, ClassDecl.methods_callsOnly, List.filter_map, List.map_map]
      rfl

@[simp] theorem visibleMethods_callsOnly (source name : String) :
    snapshot.callsOnly.visibleMethods source name =
      (snapshot.visibleMethods source name).map VisibleMethod.callsOnly := by
  rw [visibleMethods, visibleMethods, lineage_callsOnly, List.map_flatMap]
  exact congrArg (List.flatMap · _) (funext (methodsOfAncestor_callsOnly snapshot name))

@[simp] theorem isOverriddenFrom_callsOnly (source owner : String) (method : MethodDecl) :
    snapshot.callsOnly.isOverriddenFrom source owner method.callsOnly =
      snapshot.isOverriddenFrom source owner method := by
  have hreplaced (ancestor : LineageEntry) (texts : List String) :
      (snapshot.callsOnly.find? ancestor.name).any (fun decl => decl.methods.any fun candidate =>
          candidate.replaces ancestor.bindings method.name texts) =
        (snapshot.find? ancestor.name).any fun decl => decl.methods.any fun candidate =>
          candidate.replaces ancestor.bindings method.name texts := by
    rw [find?_callsOnly, Option.any_map]
    simp only [Option.any, ClassDecl.methods_callsOnly, List.any_map, Function.comp_def,
      MethodDecl.replaces_callsOnly]
  simp only [isOverriddenFrom, lineage_callsOnly, liesUnder_callsOnly, MethodDecl.name_callsOnly,
    MethodDecl.paramSpellingsUnder_callsOnly, hreplaced]

theorem resolveAmong?_callsOnly (signature : MethodSignature) (chain : List LineageEntry) :
    snapshot.callsOnly.resolveAmong? signature chain =
      (snapshot.resolveAmong? signature chain).map Declaration.callsOnly := by
  rw [resolveAmong?, resolveAmong?, List.map_findSome?]
  congr 1
  funext ancestor
  rw [Function.comp_apply, find?_callsOnly]
  cases snapshot.find? ancestor.name with
  | none => rfl
  | some decl =>
      simp only [Option.map_some, ClassDecl.methods_callsOnly, List.find?_map, Option.map_map]
      rfl

@[simp] theorem resolve?_callsOnly (signature : MethodSignature) :
    snapshot.callsOnly.resolve? signature =
      (snapshot.resolve? signature).map Declaration.callsOnly := by
  rw [resolve?, resolve?, find?_callsOnly]
  cases snapshot.find? signature.owner with
  | none => rfl
  | some owner =>
      have hfind : owner.callsOnly.methods.find? signature.matchesDecl =
          (owner.methods.find? signature.matchesDecl).map MethodDecl.callsOnly := by
        rw [ClassDecl.methods_callsOnly, List.find?_map]
        rfl
      simp only [Option.map_some, hfind, lineage_callsOnly, resolveAmong?_callsOnly]
      cases owner.methods.find? signature.matchesDecl <;> rfl

/-! ## Members -/

theorem memberSources_callsOnly (decl : ClassDecl) :
    snapshot.callsOnly.memberSources decl.callsOnly =
      (snapshot.memberSources decl).map ClassDecl.callsOnly := by
  rw [memberSources, memberSources, ClassDecl.name_callsOnly, linearize_callsOnly]
  cases snapshot.linearize decl.name with
  | error cause => rfl
  | ok chain => simp only [find?_callsOnly, List.map_filterMap]

@[simp] theorem memberFields_callsOnly (decl : ClassDecl) :
    snapshot.callsOnly.memberFields decl.callsOnly =
      (snapshot.memberFields decl).map FieldDeclaration.callsOnly := by
  rw [memberFields, memberFields, memberSources_callsOnly, List.map_flatMap, List.flatMap_map]
  simp only [ClassDecl.fields_callsOnly, List.map_map]
  rfl

@[simp] theorem memberMethods_callsOnly (decl : ClassDecl) :
    snapshot.callsOnly.memberMethods decl.callsOnly =
      (snapshot.memberMethods decl).map Declaration.callsOnly := by
  rw [memberMethods, memberMethods, memberSources_callsOnly, List.map_flatMap, List.flatMap_map]
  simp only [ClassDecl.methods_callsOnly, List.filter_map, List.map_map]
  rfl

@[simp] theorem factsOf_callsOnly (decl : ClassDecl) :
    snapshot.callsOnly.factsOf decl.callsOnly = snapshot.factsOf decl := by
  simp only [factsOf, ClassDecl.name_callsOnly, namesAbove_callsOnly]
  rfl

end Snapshot

end Specwright
