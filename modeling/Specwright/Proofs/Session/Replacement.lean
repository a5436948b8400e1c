import Specwright.Proofs.Lineage.Overriding
import Specwright.Proofs.Session.Subject

/-!
# Overridden methods in the type of a class

A type that is built for a class has one model for each member of the class.  The model of a method
is marked as overridden exactly when a concrete method of a class further down replaces the method,
and it is not tested by itself then.
-/

namespace Specwright

namespace Snapshot

variable {snapshot : Snapshot} {decl : ClassDecl} {declaration : Declaration}

/-! ## Members as visible methods -/

theorem Acyclic.mem_memberSources_iff
    {owner : ClassDecl} (h : snapshot.Acyclic decl.name) :
    owner ∈ snapshot.memberSources decl ↔
      ∃ entry ∈ snapshot.lineage decl.name, snapshot.find? entry.name = some owner := by
  obtain ⟨chain, hchain⟩ := h.exists_linearize
  simp only [memberSources, lineage, hchain, List.mem_filterMap]

/-- The members of a class are the methods that it sees, less the constructors of other classes. -/
theorem Acyclic.mem_memberMethods_iff (h : snapshot.Acyclic decl.name) :
    declaration ∈ snapshot.memberMethods decl ↔
      (declaration.method.isConstructor = false ∨ declaration.owner.name = decl.name) ∧
        ∃ bindings, ⟨declaration, bindings⟩ ∈
          snapshot.visibleMethods decl.name declaration.method.name := by
  constructor
  · intro hmem
    obtain ⟨owner, howner, hown⟩ := List.mem_flatMap.mp hmem
    obtain ⟨method, hmethod, rfl⟩ := List.mem_map.mp hown
    obtain ⟨hmethod, hkind⟩ := List.mem_filter.mp hmethod
    obtain ⟨entry, hentry, hfound⟩ := h.mem_memberSources_iff.mp howner
    refine ⟨by simpa using hkind, entry.bindings, ?_⟩
    exact mem_visibleMethods_iff.mpr ⟨entry, hentry, hfound, hmethod, rfl, rfl⟩
  · rintro ⟨hkind, bindings, hvisible⟩
    obtain ⟨entry, hentry, hfound, hmethod, -, -⟩ := mem_visibleMethods_iff.mp hvisible
    have howner := h.mem_memberSources_iff.mpr ⟨entry, hentry, hfound⟩
    refine List.mem_flatMap.mpr ⟨declaration.owner, howner, List.mem_map.mpr ?_⟩
    exact ⟨declaration.method, List.mem_filter.mpr ⟨hmethod, by simpa using hkind⟩, rfl⟩

end Snapshot

namespace Scope

/-- Whether a type is built for a class from a memory of some kind: as the class under test, or on a
request that memory does not serve. -/
inductive BuildsFrom (scope : Scope) (memories : TypeCache → Prop) : ClassDecl → TypeModel → Prop
  | subject (cache : TypeCache) :
      memories cache →
        BuildsFrom scope memories scope.subject ((Session.extractSubject scope).run cache).1
  | requested {cache : TypeCache} {decl : ClassDecl} {name : String} {args : List TypeRef}
      {depth : Nat} :
      memories cache →
      scope.snapshot.find? name = some decl →
      cache.lookup? (TypeRef.mk name args .reference 0).spelling (depth + 1) = none →
        BuildsFrom scope memories decl
          ((Session.typeOf scope (depth + 1) ⟨name, args, .reference, 0⟩).run cache).1

/-- Whether a type is built for a class from any memory. -/
def Builds (scope : Scope) : ClassDecl → TypeModel → Prop :=
  scope.BuildsFrom fun _ => True

variable {scope : Scope} {decl : ClassDecl} {type : TypeModel}

theorem Builds.held (h : scope.Builds decl type) : scope.snapshot.find? decl.name = some decl := by
  cases h with
  | subject => exact scope.held
  | requested _ hfound => rw [Snapshot.name_of_find? hfound, hfound]

/-- The fields and methods of a type that is built for a class show the members of the class. -/
theorem Builds.shows_members (h : scope.Builds decl type) :
    List.Forall₂ (FieldModel.Shows anyAnswer (some decl)) (scope.snapshot.memberFields decl)
        type.fields ∧
      ∃ bodies : Declaration → Option BodyModel → Prop,
        List.Forall₂
          (fun declaration =>
            MethodModel.Shows scope anyAnswer (bodies declaration) (some decl) declaration)
          (scope.snapshot.memberMethods decl) type.methods := by
  cases h with
  | subject cache =>
      have hexpands := Session.extractSubject_expands scope cache
      obtain ⟨hfields, hmethods⟩ := hexpands.members ⟨rfl, rfl⟩ scope.held
      exact ⟨hfields, _, hmethods⟩
  | requested _ hfound hmiss =>
      have hexpands := Session.typeOf_expands scope hmiss
      obtain ⟨hfields, hmethods⟩ := hexpands.members ⟨rfl, rfl⟩ hfound
      exact ⟨hfields, _, hmethods⟩

theorem Builds.forall₂_members (h : scope.Builds decl type) :
    ∃ bodies : Declaration → Option BodyModel → Prop,
      List.Forall₂
        (fun declaration =>
          MethodModel.Shows scope anyAnswer (bodies declaration) (some decl) declaration)
        (scope.snapshot.memberMethods decl) type.methods :=
  h.shows_members.2

/-- Whether a model is that of a declaration as a class sees it, marked when it is replaced. -/
structure MarksReplaced
    (scope : Scope) (viewer : ClassDecl) (declaration : Declaration) (model : MethodModel) :
    Prop where
  id_eq : model.id = declaration.id
  owner_eq : model.owner = declaration.owner.name
  overridden_iff : ∀ bindings,
    ⟨declaration, bindings⟩ ∈
        scope.snapshot.visibleMethods viewer.name declaration.method.name →
      (model.traits.overridden = true ↔
        scope.snapshot.IsReplacedFrom viewer.name ⟨declaration, bindings⟩)
  not_tested : model.traits.overridden = true → model.isTested = false

theorem marksReplaced_of_shows
    {bodies : Option BodyModel → Prop} {declaration : Declaration} {model : MethodModel}
    (hacyclic : scope.snapshot.Acyclic decl.name)
    (h : model.Shows scope anyAnswer bodies (some decl) declaration) :
    scope.MarksReplaced decl declaration model := by
  have htraits : model.traits.overridden =
      scope.snapshot.isOverriddenFrom decl.name declaration.owner.name declaration.method := by
    rw [h.traits_eq]
    rfl
  refine ⟨h.id_eq, h.owner_eq, ?_, ?_⟩
  · intro bindings hvisible
    rw [htraits]
    exact hacyclic.isOverriddenFrom_iff hvisible
  · intro hoverridden
    simp [MethodModel.isTested, MethodTraits.isTestedIn, hoverridden]

end Scope

namespace Snapshot

/-- The nearest concrete declaration of a signature wins: of the concrete ones at least one is not
overridden, no two that are not overridden lie on different classes one below the other, and in
every type that is built for the class a method that is replaced is marked and not tested. -/
theorem nearest_concrete_wins
    {snapshot : Snapshot} {source : String} (hacyclic : snapshot.Acyclic source) :
    (∀ name texts, snapshot.concreteMethods source name texts ≠ [] →
      ∃ winner ∈ snapshot.concreteMethods source name texts,
        snapshot.isOverriddenFrom source winner.owner.name winner.method = false) ∧
    (∀ name texts,
      ∀ first ∈ snapshot.concreteMethods source name texts,
      ∀ second ∈ snapshot.concreteMethods source name texts,
        snapshot.isOverriddenFrom source first.owner.name first.method = false →
        snapshot.isOverriddenFrom source second.owner.name second.method = false →
        first.owner.name ≠ second.owner.name →
          snapshot.liesUnder first.owner.name second.owner.name = false) ∧
    ∀ (scope : Scope) (decl : ClassDecl) (type : TypeModel),
      scope.snapshot = snapshot → decl.name = source → scope.Builds decl type →
        (∀ declaration, declaration ∈ snapshot.memberMethods decl ↔
          (declaration.method.isConstructor = false ∨ declaration.owner.name = source) ∧
            ∃ bindings, ⟨declaration, bindings⟩ ∈
              snapshot.visibleMethods source declaration.method.name) ∧
        List.Forall₂ (scope.MarksReplaced decl) (snapshot.memberMethods decl) type.methods := by
  refine ⟨?_, ?_, ?_⟩
  · intro name texts hsome
    exact hacyclic.exists_not_overridden hsome
  · intro name texts first hfirst second hsecond _ hkept hne
    by_contra hunder
    have hoverridden :=
      hacyclic.isOverriddenFrom_of_liesUnder hfirst hsecond hne (by simpa using hunder)
    rw [hkept] at hoverridden
    cases hoverridden
  · rintro scope decl type rfl rfl hbuilds
    refine ⟨fun declaration => hacyclic.mem_memberMethods_iff, ?_⟩
    obtain ⟨bodies, hshows⟩ := hbuilds.forall₂_members
    refine hshows.imp ?_
    intro declaration model hmodel
    exact Scope.marksReplaced_of_shows hacyclic hmodel

end Snapshot

/-! ## A method that is replaced on one of two ways up -/

/-- A class that keeps things of some type. -/
def keeperClass : ClassDecl where
  name := "stock.Keeper"
  typeParams := ["T"]
  methods := [
    { name := "keep"
      modifiers := [.publicAccess]
      params := [⟨"thing", .parameter "T"⟩] }]

/-- A class that keeps books in its own way. -/
def shelfClass : ClassDecl where
  name := "stock.Shelf"
  supertypes := [.generic "stock.Keeper" [.named "stock.Book"]]
  methods := [
    { name := "keep"
      modifiers := [.publicAccess]
      params := [⟨"book", .named "stock.Book"⟩] }]

/-- A class that keeps books like any other thing. -/
def roomClass : ClassDecl where
  name := "stock.Room"
  supertypes := [.generic "stock.Keeper" [.named "stock.Book"]]

def libraryClass : ClassDecl where
  name := "stock.Library"
  supertypes := [.named "stock.Room", .named "stock.Shelf"]

def libraryScope : Scope where
  snapshot := .ofClasses [keeperClass, shelfClass, roomClass, libraryClass]
  subject := libraryClass
  options := ⟨2, []⟩
  held := rfl

namespace Snapshot

theorem nearest_concrete_wins_library :
    libraryScope.snapshot.Acyclic "stock.Library" ∧
      (∃ winner ∈ libraryScope.snapshot.concreteMethods "stock.Library" "keep" ["stock.Book"],
        libraryScope.snapshot.isOverriddenFrom "stock.Library" winner.owner.name winner.method =
          false) ∧
      ∃ model ∈ ((Session.extractSubject libraryScope).run .empty).1.methods,
        model.id = "stock.Keeper.keep(T)" ∧ model.traits.overridden = true ∧
          model.isTested = false := by
  have hacyclic : libraryScope.snapshot.Acyclic "stock.Library" := acyclic_of_linearize rfl
  obtain ⟨hkept, -, hmarks⟩ := nearest_concrete_wins hacyclic
  obtain ⟨-, hmodels⟩ := hmarks libraryScope libraryClass _ rfl rfl (.subject .empty trivial)
  obtain ⟨model, hmodel, hmarked⟩ := exists_related_of_mem hmodels (List.Mem.head _)
  have hreplaced : model.traits.overridden = true := by
    refine (hmarked.overridden_iff ⟨[("T", .named "stock.Book")]⟩ (List.Mem.head _)).mpr ?_
    exact ⟨_, List.Mem.tail _ (List.Mem.head _), by decide, by decide⟩
  exact ⟨hacyclic, hkept "keep" ["stock.Book"] (by decide), model, hmodel, hmarked.id_eq,
    hreplaced, hmarked.not_tested hreplaced⟩

end Snapshot

end Specwright
