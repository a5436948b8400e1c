import Specwright.Proofs.Model.MethodIds
import Specwright.Proofs.Session.Replacement

/-!
# The members of a built type

A type that is built for a class has the members of the class and, behind them, those of the known
classes above it in the order of the linearization.  No class is listed twice there, so every
declaration has one model, and only the constructors of the classes above have none.  Two methods of
a type have one id only where one class declares two methods alike.  And a field of the type is
found by its name where the search through the hierarchy finds it, for both take the first.
-/

namespace Specwright

namespace Snapshot

variable {snapshot : Snapshot} {decl : ClassDecl} {others : List ClassDecl}

/-! ## The classes that members come from -/

/-- Whether these are the other classes that a class has members from: the known ones above it in
the order of the linearization, and none when the class reaches a cycle. -/
structure InheritsFrom (snapshot : Snapshot) (decl : ClassDecl) (others : List ClassDecl) :
    Prop where
  linear : snapshot.Acyclic decl.name →
    ∃ chain, snapshot.linearize decl.name = .ok chain ∧
      decl :: others = chain.filterMap fun entry => snapshot.find? entry.name
  cyclic : ¬snapshot.Acyclic decl.name → others = []
  distinct : ((decl :: others).map (·.name)).Nodup

theorem inheritsFrom_of_memberSources (h : snapshot.memberSources decl = decl :: others) :
    snapshot.InheritsFrom decl others := by
  refine ⟨?linear, ?cyclic, h ▸ nodup_names_memberSources snapshot decl⟩
  case linear =>
    intro hacyclic
    obtain ⟨chain, hchain⟩ := hacyclic.exists_linearize
    refine ⟨chain, hchain, ?_⟩
    rw [← h, memberSources, hchain]
  case cyclic =>
    intro hcyclic
    rw [memberSources] at h
    split at h
    next chain hchain => exact absurd (acyclic_of_linearize hchain) hcyclic
    next => exact (List.cons.inj h).2.symm

end Snapshot

/-! ## Ids of the methods of a class -/

namespace ClassDecl

/-- Whether the name of a class holds no opening parenthesis and its methods are legible. -/
def Legible (decl : ClassDecl) : Prop :=
  '(' ∉ decl.name.toList ∧ ∀ method ∈ decl.methods, method.Legible

/-- Whether no two methods of a class have the same name and parameter types of the same
spellings. -/
def TellsMethodsApart (decl : ClassDecl) : Prop :=
  (decl.methods.map fun method => (method.name, method.paramSpellings)).Nodup

instance {decl : ClassDecl} : Decidable decl.Legible :=
  inferInstanceAs (Decidable ('(' ∉ decl.name.toList ∧ ∀ method ∈ decl.methods, method.Legible))

instance {decl : ClassDecl} : Decidable decl.TellsMethodsApart :=
  inferInstanceAs (Decidable (List.Nodup _))

theorem Legible.nodup_ids {decl : ClassDecl} (h : decl.Legible) (hapart : decl.TellsMethodsApart) :
    (decl.methods.map (·.idIn decl.name)).Nodup := by
  obtain ⟨hname, hmethods⟩ := h
  rw [TellsMethodsApart, List.Nodup, List.pairwise_map] at hapart
  rw [List.Nodup, List.pairwise_map]
  refine hapart.imp_of_mem fun {method other} hmethod hother hne hid => hne ?_
  obtain ⟨-, hnames, hparams⟩ :=
    (MethodDecl.idIn_eq_iff hname hname (hmethods _ hmethod) (hmethods _ hother)).mp hid
  rw [hnames, MethodDecl.paramSpellings_eq_of_withoutSorts hparams]

end ClassDecl

namespace Snapshot

variable {snapshot : Snapshot} {decl : ClassDecl}

/-- The ids of the methods that a class has are distinct when they are on each source: the id of a
legible method gives away the class that declares it. -/
theorem nodup_ids_memberMethods
    (hlegible : ∀ owner ∈ snapshot.memberSources decl, owner.Legible)
    (hapart : ∀ owner ∈ snapshot.memberSources decl, owner.TellsMethodsApart) :
    ((snapshot.memberMethods decl).map (·.id)).Nodup := by
  have hmember : ∀ declaration ∈ snapshot.memberMethods decl,
      '(' ∉ declaration.owner.name.toList ∧ declaration.method.Legible := by
    intro declaration hdeclaration
    obtain ⟨owner, howner, hown⟩ := List.mem_flatMap.mp hdeclaration
    obtain ⟨method, hmethod, rfl⟩ := List.mem_map.mp hown
    obtain ⟨hname, hmethods⟩ := hlegible owner howner
    exact ⟨hname, hmethods method (List.mem_filter.mp hmethod).1⟩
  refine nodup_map_memberMethods ?_ ?_
  · intro owner howner
    exact (hlegible owner howner).nodup_ids (hapart owner howner)
  · intro declaration hdeclaration other hother hid
    obtain ⟨hname, hmethod⟩ := hmember declaration hdeclaration
    obtain ⟨hname', hmethod'⟩ := hmember other hother
    exact (MethodDecl.parts_of_idIn_eq hname hname' hmethod hmethod' hid).1

end Snapshot

/-! ## Models of members -/

/-- Whether a model is that of a field as a class sees it. -/
structure FieldModel.SeenFrom
    (viewer : ClassDecl) (declaration : FieldDeclaration) (field : FieldModel) : Prop where
  shows : field.Shows anyAnswer (some viewer) declaration
  owner_eq : field.owner = declaration.owner.name
  inherited_iff : field.inherited = true ↔ declaration.owner.name ≠ viewer.name

/-- Whether a model is that of a method as a class sees it, whatever is found in the body. -/
structure MethodModel.SeenFrom
    (scope : Scope) (viewer : ClassDecl) (declaration : Declaration) (method : MethodModel) :
    Prop where
  shows : method.Shows scope anyAnswer (fun _ => True) (some viewer) declaration
  id_eq : method.id = declaration.id
  owner_eq : method.owner = declaration.owner.name
  inherited_iff : method.traits.inherited = true ↔ declaration.owner.name ≠ viewer.name

theorem isInheritedBy_iff {owner viewer : ClassDecl} :
    isInheritedBy owner (some viewer) = true ↔ owner.name ≠ viewer.name := by
  rw [isInheritedBy, Option.any_some, decide_eq_true_iff, ne_comm]

namespace Scope

variable {scope : Scope} {decl : ClassDecl} {type : TypeModel}

theorem Builds.fields_seen (h : scope.Builds decl type) :
    List.Forall₂ (FieldModel.SeenFrom decl) (scope.snapshot.memberFields decl) type.fields := by
  refine h.shows_members.1.imp fun declaration field hshows => ?_
  obtain ⟨fieldType, -, rfl⟩ := id hshows
  exact ⟨hshows, rfl, isInheritedBy_iff⟩

theorem Builds.methods_seen (h : scope.Builds decl type) :
    List.Forall₂ (MethodModel.SeenFrom scope decl) (scope.snapshot.memberMethods decl)
      type.methods := by
  obtain ⟨bodies, hmethods⟩ := h.forall₂_members
  refine hmethods.imp fun declaration method hshows => ?_
  refine ⟨?shows, hshows.id_eq, hshows.owner_eq, ?inherited⟩
  case shows =>
    obtain ⟨returnType, params, body, hreturn, hparams, -, heq⟩ := hshows
    exact ⟨returnType, params, body, hreturn, hparams, trivial, heq⟩
  case inherited =>
    rw [hshows.traits_eq]
    exact isInheritedBy_iff

/-- A type that is built for a class lists every member once: the fields and methods of the class
and those of the known classes above it, in the order of the linearization, less the constructors of
these.  Where names are legible and no class declares two methods alike, the methods of the type
have distinct ids. -/
theorem members_listed_once (h : scope.Builds decl type) :
    ∃ others, scope.snapshot.InheritsFrom decl others ∧
      List.Forall₂ (FieldModel.SeenFrom decl)
        ((decl :: others).flatMap fun owner => owner.fields.map fun field => ⟨owner, field⟩)
        type.fields ∧
      List.Forall₂ (MethodModel.SeenFrom scope decl)
        ((decl.methods.map fun method => ⟨decl, method⟩) ++
          others.flatMap fun owner =>
            (owner.methods.filter fun method => !method.isConstructor).map
              fun method => ⟨owner, method⟩)
        type.methods ∧
      ((∀ owner ∈ decl :: others, owner.Legible ∧ owner.TellsMethodsApart) →
        (type.methods.map (·.id)).Nodup) := by
  have hsources := Snapshot.memberSources_eq h.held
  refine ⟨_, Snapshot.inheritsFrom_of_memberSources hsources, ?fields, ?methods, ?ids⟩
  case fields =>
    rw [← hsources]
    exact h.fields_seen
  case methods =>
    rw [← Snapshot.memberMethods_eq hsources]
    exact h.methods_seen
  case ids =>
    -- The models of the methods carry the ids of the declarations, so these are compared.
    intro howners
    rw [← hsources] at howners
    rw [← map_eq_of_forall₂ h.methods_seen fun _ _ hseen => hseen.id_eq.symm]
    exact Snapshot.nodup_ids_memberMethods (fun owner howner => (howners owner howner).1)
      fun owner howner => (howners owner howner).2

/-- Looking for a field through the classes above a class and looking for it in a type that is built
for the class find a field of the same class, or neither finds one; and the field of the type is the
model of the one that is declared. -/
theorem field_lookups_agree (h : scope.Builds decl type) (name : String) :
    (scope.snapshot.findField? decl name).map (·.owner.name) =
        (type.findField? name).map (·.owner) ∧
      Option.Rel (FieldModel.SeenFrom decl) (scope.snapshot.findField? decl name)
        (type.findField? name) := by
  have hrel : Option.Rel (FieldModel.SeenFrom decl) (scope.snapshot.findField? decl name)
      (type.findField? name) := by
    rw [Snapshot.findField?_eq_find? h.held, TypeModel.findField?]
    refine rel_find?_of_forall₂ h.fields_seen fun declaration field hseen => ?_
    obtain ⟨fieldType, -, rfl⟩ := hseen.shows
    rfl
  exact ⟨optionMap_eq_of_rel hrel fun _ _ hseen => hseen.owner_eq.symm, hrel⟩

end Scope

/-! ## Two ways up to one class -/

/-- A class above the two others, with a field that one of them declares again. -/
def vesselClass : ClassDecl where
  name := "port.Vessel"
  fields := [⟨"name", .named "port.Name", []⟩, ⟨"length", .primitive "int", []⟩]
  methods := [
    { name := "Vessel", isConstructor := true },
    { name := "board", modifiers := [.publicAccess], params := [⟨"guests", .primitive "int"⟩] }]

def sailingClass : ClassDecl where
  name := "port.Sailing"
  supertypes := [.named "port.Vessel"]
  fields := [⟨"name", .named "port.Name", []⟩]

/-- A class with a superclass that the snapshot does not hold. -/
def motoredClass : ClassDecl where
  name := "port.Motored"
  supertypes := [.named "lib.Engine", .named "port.Vessel"]
  methods := [{ name := "start", modifiers := [.publicAccess] }]

/-- A class that declares a method of the class at the top again. -/
def yachtClass : ClassDecl where
  name := "port.Yacht"
  supertypes := [.named "port.Sailing", .named "port.Motored"]
  methods := [
    { name := "Yacht", isConstructor := true },
    { name := "board", modifiers := [.publicAccess], params := [⟨"guests", .primitive "int"⟩] }]

def yachtScope : Scope where
  snapshot := .ofClasses [vesselClass, sailingClass, motoredClass, yachtClass]
  subject := yachtClass
  options := ⟨2, []⟩
  held := rfl

/-- The class under test as a session extracts it that begins with nothing. -/
def yachtType : TypeModel :=
  ((Session.extractSubject yachtScope).run .empty).1

namespace Scope

theorem members_listed_once_yacht :
    yachtScope.Builds yachtClass yachtType ∧
      yachtType.fields.map (·.owner) = ["port.Sailing", "port.Vessel", "port.Vessel"] ∧
      yachtType.methods.map (·.id) =
        ["port.Yacht.Yacht()", "port.Yacht.board(int)", "port.Vessel.board(int)",
          "port.Motored.start()"] ∧
      (yachtType.methods.map (·.id)).Nodup := by
  have hbuilds : yachtScope.Builds yachtClass yachtType := .subject .empty trivial
  obtain ⟨others, hinherits, hfields, hmethods, hids⟩ := members_listed_once hbuilds
  obtain ⟨chain, hchain, hothers⟩ := hinherits.linear (Snapshot.acyclic_of_linearize rfl)
  obtain rfl : [sailingClass, vesselClass, motoredClass] = others := by
    cases hchain
    exact (List.cons.inj hothers).2.symm
  have howners := map_eq_of_forall₂ hfields fun _ _ hseen => hseen.owner_eq.symm
  have hlisted := map_eq_of_forall₂ hmethods fun _ _ hseen => hseen.id_eq.symm
  exact ⟨hbuilds, howners.symm.trans rfl, hlisted.symm.trans (by decide), hids (by decide)⟩

/-- The nearer of two fields of one name is found in both ways. -/
theorem field_lookups_agree_yacht :
    yachtScope.Builds yachtClass yachtType ∧
      (yachtType.findField? "name").map (·.owner) = some "port.Sailing" ∧
      (yachtType.findField? "power").map (·.owner) = none := by
  have hbuilds : yachtScope.Builds yachtClass yachtType := .subject .empty trivial
  obtain ⟨hname, -⟩ := field_lookups_agree hbuilds "name"
  obtain ⟨hpower, -⟩ := field_lookups_agree hbuilds "power"
  exact ⟨hbuilds, hname.symm, hpower.symm⟩

end Scope

end Specwright
