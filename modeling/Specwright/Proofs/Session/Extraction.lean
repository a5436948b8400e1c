import Specwright.Proofs.Lineage.Declarations
import Specwright.Proofs.Model.Construction

/-!
# What a session answers

Every answer of a session is a bare name, a remembered type or a type that was just built, and what
was built is remembered.  An invariant of caches that fits together with a property of answers in
these three respects holds after every request, and every answer then has the property.
-/

namespace Specwright

/-! ## What a cache remembers -/

namespace TypeCache

variable {cache : TypeCache} {key : String} {depth : Nat} {type : TypeModel}

/-- What is found under a key was remembered with at least the depth asked for. -/
theorem exists_of_lookup?
    (h : cache.lookup? key depth = some type) :
    ∃ entry ∈ cache.entries, entry.key = key ∧ depth ≤ entry.depth ∧ entry.type = type := by
  obtain ⟨entry, hentry, rfl⟩ := Option.map_eq_some_iff.mp h
  obtain ⟨hfound, hdepth⟩ := Option.filter_eq_some_iff.mp hentry
  exact ⟨entry, List.mem_of_find?_eq_some hfound, by simpa using List.find?_some hfound,
    by simpa using hdepth, rfl⟩

theorem mem_of_mem_putEntry
    {entry other : CacheEntry} {entries : List CacheEntry}
    (h : other ∈ putEntry entry entries) :
    other = entry ∨ other ∈ entries := by
  induction entries with
  | nil => simpa [putEntry] using h
  | cons first rest ih =>
      rw [putEntry] at h
      split at h
      · rcases List.mem_cons.mp h with rfl | hrest
        · exact Or.inl rfl
        · exact Or.inr (List.mem_cons_of_mem _ hrest)
      · rcases List.mem_cons.mp h with rfl | hrest
        · exact Or.inr List.mem_cons_self
        · exact (ih hrest).imp id (List.mem_cons_of_mem _)

theorem mem_of_mem_remember
    {entry : CacheEntry} (h : entry ∈ (cache.remember key depth type).entries) :
    entry = ⟨key, depth, type⟩ ∨ entry ∈ cache.entries := by
  rw [remember] at h
  split at h
  · exact Or.inr h
  · exact mem_of_mem_putEntry h

end TypeCache

/-! ## Invariants of caches -/

/-- An invariant of caches and a property of answers to requests of a depth that carry each other
while requests are served, for the references in a set. -/
structure CacheMemory
    (within : TypeRef → Prop) (good : Nat → TypeRef → TypeModel → Prop)
    (invariant : TypeCache → Prop) : Prop where
  /-- The counters have no part in the invariant. -/
  counted {cache : TypeCache} (stats : CacheCounters) :
    invariant cache → invariant { cache with stats }
  /-- A remembered type is an answer. -/
  served {cache : TypeCache} {depth : Nat} {ref : TypeRef} {type : TypeModel} :
    invariant cache → within ref → cache.lookup? ref.spelling depth = some type →
      good depth ref type
  /-- An answer can be remembered. -/
  remembered {cache : TypeCache} {depth : Nat} {ref : TypeRef} {type : TypeModel} :
    invariant cache → within ref → good depth ref type →
      invariant (cache.remember ref.spelling depth type)

/-- What is remembered and what is built without bodies carry each other as well. -/
structure ExpansionDiscipline
    (scope : Scope) (within : TypeRef → Prop) (good : Nat → TypeRef → TypeModel → Prop)
    (invariant : TypeCache → Prop) : Prop extends CacheMemory within good invariant where
  bare {ref : TypeRef} : within ref → good 0 ref (.nameOnly ref)
  expanded {depth : Nat} {ref : TypeRef} {type : TypeModel} :
    within ref →
      TypeModel.Expands scope (good (depth + 1)) (good depth) (fun _ => (· = none)) ref type →
        good (depth + 1) ref type

/-- What is remembered and what is built carry each other, whatever the bodies are. -/
structure CacheDiscipline
    (scope : Scope) (within : TypeRef → Prop) (good : Nat → TypeRef → TypeModel → Prop)
    (invariant : TypeCache → Prop) : Prop extends CacheMemory within good invariant where
  /-- A bare name is an answer to a request of depth 0. -/
  bare (ref : TypeRef) : good 0 ref (.nameOnly ref)
  /-- What is built from answers is an answer. -/
  built {depth : Nat} {ref : TypeRef} {type : TypeModel}
    {bodies : Declaration → Option BodyModel → Prop} :
    within ref → TypeModel.Expands scope (good (depth + 1)) (good depth) bodies ref type →
      good (depth + 1) ref type

theorem CacheDiscipline.toExpansionDiscipline
    {scope : Scope} {within : TypeRef → Prop} {good : Nat → TypeRef → TypeModel → Prop}
    {invariant : TypeCache → Prop} (h : CacheDiscipline scope within good invariant) :
    ExpansionDiscipline scope within good invariant where
  toCacheMemory := h.toCacheMemory
  bare _ := h.bare _
  expanded hwithin hexpands := h.built hwithin hexpands

namespace Session

variable {scope : Scope} {within : TypeRef → Prop} {good : Nat → TypeRef → TypeModel → Prop}
variable {invariant : TypeCache → Prop}

theorem leaf_ensures
    (hcounted : ∀ cache, invariant cache → invariant cache.countLeaf) (ref : TypeRef) :
    (Contract.keeping invariant).Ensures (leaf ref) (· = .nameOnly ref) :=
  Contract.ensures_bind _ (Contract.keeping_modify hcounted) fun _ _ =>
    Contract.ensures_pure _ rfl

theorem run_serve_of_hit
    {cache : TypeCache} {depth : Nat} {ref : TypeRef} {type : TypeModel} (build : Session TypeModel)
    (hhit : cache.lookup? ref.spelling depth = some type) :
    (serve depth ref build).run cache = (type, cache.countHit) := by
  simp only [serve, bind_pure_comp, StateT.run_bind, StateT.run_get, pure_bind, hhit]
  rfl

/-- A request that memory does not serve is carried out, and the result is remembered. -/
theorem run_serve_of_miss
    {cache : TypeCache} {depth : Nat} {ref : TypeRef} (build : Session TypeModel)
    (hmiss : cache.lookup? ref.spelling depth = none) :
    (serve depth ref build).run cache =
      ((build.run cache.countMiss).1,
        (build.run cache.countMiss).2.remember ref.spelling depth
          (build.run cache.countMiss).1) := by
  simp only [serve, StateT.run_bind, StateT.run_get, pure_bind, hmiss]
  rfl

/-- A request that is served is answered, when what is built for it is an answer. -/
theorem serve_ensures
    (hmemory : CacheMemory within good invariant)
    {depth : Nat} {ref : TypeRef} {build : Session TypeModel} (hwithin : within ref)
    (hbuild : (Contract.keeping invariant).Ensures build (good depth ref)) :
    (Contract.keeping invariant).Ensures (serve depth ref build) (good depth ref) := by
  intro cache hcache
  -- A hit is an answer by the invariant, and what is built on a miss restores it.
  cases hlookup : cache.lookup? ref.spelling depth with
  | some type =>
      rw [run_serve_of_hit build hlookup]
      exact ⟨hmemory.served hcache hwithin hlookup, hmemory.counted _ hcache⟩
  | none =>
      rw [run_serve_of_miss build hlookup]
      obtain ⟨htype, hkept⟩ := hbuild cache.countMiss (hmemory.counted _ hcache)
      exact ⟨htype, hmemory.remembered hkept hwithin htype⟩

/-- Every request for a type is answered. -/
theorem typeOf_ensures_of_expansions
    (hdiscipline : ExpansionDiscipline scope within good invariant)
    (hclosed : scope.Closed within) (depth : Nat) (ref : TypeRef) (hwithin : within ref) :
    (Contract.keeping invariant).Ensures (typeOf scope depth ref) (good depth ref) := by
  have hleaf (ref : TypeRef) :
      (Contract.keeping invariant).Ensures (leaf ref) (· = .nameOnly ref) :=
    leaf_ensures (fun _ hcache => hdiscipline.counted _ hcache) ref
  refine TypeModel.expand_ensures ?_ hclosed hleaf (fun _ => hdiscipline.bare) depth ref hwithin
  intro depth ref build hwithin hbuild
  refine serve_ensures hdiscipline.toCacheMemory hwithin ?_
  exact Contract.ensures_mono _ hbuild fun type => hdiscipline.expanded hwithin

theorem typeOf_ensures
    (hdiscipline : CacheDiscipline scope within good invariant) (hclosed : scope.Closed within)
    (depth : Nat) (ref : TypeRef) (hwithin : within ref) :
    (Contract.keeping invariant).Ensures (typeOf scope depth ref) (good depth ref) :=
  typeOf_ensures_of_expansions hdiscipline.toExpansionDiscipline hclosed depth ref hwithin

/-- A class that memory does not serve is answered by an expansion without bodies. -/
theorem typeOf_ensures_of_miss
    (hdiscipline : CacheDiscipline scope within good invariant) (hclosed : scope.Closed within)
    {cache : TypeCache} {depth : Nat} {name : String} {args : List TypeRef}
    (hwithin : within ⟨name, args, .reference, 0⟩) (hcache : invariant cache)
    (hmiss : cache.lookup? (TypeRef.mk name args .reference 0).spelling (depth + 1) = none) :
    TypeModel.Expands scope (good (depth + 1)) (good depth) (fun _ => (· = none))
      ⟨name, args, .reference, 0⟩
      ((typeOf scope (depth + 1) ⟨name, args, .reference, 0⟩).run cache).1 := by
  have htypeOf := typeOf_ensures hdiscipline hclosed
  have hleaf (ref : TypeRef) :
      (Contract.keeping invariant).Ensures (leaf ref) (· = .nameOnly ref) :=
    leaf_ensures (fun _ hcache => hdiscipline.counted _ hcache) ref
  have hargs := Contract.ensures_mapM (Contract.keeping invariant)
    fun arg harg => htypeOf (depth + 1) arg (hclosed.args hwithin arg harg)
  have hbuild :
      (Contract.keeping invariant).Ensures
        (do
          let types ← args.mapM (typeOf scope (depth + 1))
          TypeModel.ofClass scope (typeOf scope depth) leaf (fun _ => pure none)
            ⟨name, args, .reference, 0⟩ types)
        (TypeModel.Expands scope (good (depth + 1)) (good depth) (fun _ => (· = none))
          ⟨name, args, .reference, 0⟩) := by
    refine Contract.ensures_bind _ hargs fun types htypes => ?_
    refine TypeModel.ofClass_ensures hleaf ?_ ?_ htypes
    · intro decl hfound ref href
      exact htypeOf depth ref (hclosed.members hwithin hfound ref href)
    · exact fun _ _ _ _ _ => Contract.ensures_pure _ rfl
  rw [typeOf, TypeModel.expand, TypeModel.expandAt, TypeModel.expandAllAt_eq_mapM,
    TypeModel.expandArray, run_serve_of_miss _ hmiss]
  exact (hbuild cache.countMiss (hdiscipline.counted _ hcache)).1

/-! ## The class under test -/

/-- What is found in the bodies of the own methods of the class under test. -/
def OwnBody
    (scope : Scope) (good : Nat → TypeRef → TypeModel → Prop) (declaration : Declaration)
    (body : Option BodyModel) : Prop :=
  ∃ found, body = some found ∧ BodyModel.Shows scope (good 1) declaration found

end Session

namespace TypeModel

variable {m : Type → Type} [Monad m] {contract : Contract m}

/-- The class under test with the bodies of its own methods, where `typeOf` answers for types and
the types of members are asked for to the given depth. -/
def ofSubject
    (scope : Scope) (typeOf : Nat → TypeRef → m TypeModel) (leaf : TypeRef → m TypeModel)
    (depth : Nat) : m TypeModel := do
  let types ← scope.subject.ownType.args.mapM (typeOf (depth + 1))
  let bodyOf (declaration : Declaration) : m (Option BodyModel) := do
    let body ← BodyModel.build scope (typeOf 1) leaf declaration
    pure (some body)
  ofClass scope (typeOf depth) leaf bodyOf scope.subject.ownType types

theorem ofSubject_ensures
    [LawfulMonad m] {scope : Scope} {typeOf : Nat → TypeRef → m TypeModel}
    {leaf : TypeRef → m TypeModel} {depth : Nat} {same below own : TypeRef → TypeModel → Prop}
    (hleaf : ∀ ref, contract.Ensures (leaf ref) (· = nameOnly ref))
    (hargs : ∀ arg ∈ scope.subject.ownType.args,
      contract.Ensures (typeOf (depth + 1) arg) (same arg))
    (hlower : ∀ ref ∈ scope.memberRefs scope.subject,
      contract.Ensures (typeOf depth ref) (below ref))
    (hbodies :
      ∀ method ∈ scope.subject.methods,
        ∀ ref ∈ scope.bodyRefs ⟨scope.subject, method⟩, contract.Ensures (typeOf 1 ref) (own ref)) :
    contract.Ensures (ofSubject scope typeOf leaf depth)
      (Expands scope same below (Session.OwnBody scope fun _ => own) scope.subject.ownType) := by
  rw [ofSubject]
  refine contract.ensures_bind (contract.ensures_mapM hargs) fun types htypes => ?_
  refine ofClass_ensures hleaf ?_ ?_ htypes
  · intro decl hfound ref href
    obtain rfl : scope.subject = decl := Option.some.inj (scope.held.symm.trans hfound)
    exact hlower ref href
  · intro decl hfound declaration hmem hname
    obtain rfl : scope.subject = decl := Option.some.inj (scope.held.symm.trans hfound)
    obtain ⟨method, hmethod, rfl⟩ := Snapshot.eq_own_of_mem_memberMethods scope.held hmem hname
    have hfoundBody :
        contract.Ensures (BodyModel.build scope (typeOf 1) leaf ⟨scope.subject, method⟩)
          (BodyModel.Shows scope own ⟨scope.subject, method⟩) :=
      BodyModel.build_ensures hleaf (hbodies method hmethod)
    exact contract.ensures_bind hfoundBody fun body hbody =>
      contract.ensures_pure ⟨body, rfl, hbody⟩

end TypeModel

namespace Session

variable {scope : Scope} {within : TypeRef → Prop} {good : Nat → TypeRef → TypeModel → Prop}
variable {invariant : TypeCache → Prop}

theorem exists_subjectDepth_eq (scope : Scope) : ∃ below, subjectDepth scope = below + 1 :=
  ⟨subjectDepth scope - 1, by rw [subjectDepth]; omega⟩

/-- The class under test is built from answers. -/
theorem ofSubject_ensures_of_expansions
    (hdiscipline : ExpansionDiscipline scope within good invariant)
    (hclosed : scope.Closed within) (hown : within scope.subject.ownType)
    (hbodies :
      ∀ method ∈ scope.subject.methods,
        ∀ ref ∈ scope.bodyRefs ⟨scope.subject, method⟩, within ref)
    (depth : Nat) :
    (Contract.keeping invariant).Ensures (TypeModel.ofSubject scope (typeOf scope) leaf depth)
      (TypeModel.Expands scope (good (depth + 1)) (good depth) (OwnBody scope good)
        scope.subject.ownType) := by
  have htypeOf := typeOf_ensures_of_expansions hdiscipline hclosed
  apply TypeModel.ofSubject_ensures
  · exact leaf_ensures fun _ hcache => hdiscipline.counted _ hcache
  · exact fun arg harg => htypeOf _ arg (hclosed.args hown arg harg)
  · exact fun ref href => htypeOf _ ref (hclosed.members hown scope.held ref href)
  · exact fun method hmethod ref href => htypeOf 1 ref (hbodies method hmethod ref href)

/-- An extraction is counted, carried out and remembered. -/
theorem extractSubject_eq (scope : Scope) :
    extractSubject scope =
      (do
        modify TypeCache.countMiss
        let type ← TypeModel.ofSubject scope (typeOf scope) leaf (subjectDepth scope - 1)
        modify (·.remember scope.subject.ownType.spelling (subjectDepth scope) type)
        pure type) := by
  obtain ⟨depth, hdepth⟩ := exists_subjectDepth_eq scope
  simp only [extractSubject, TypeModel.ofSubject, hdepth, Nat.add_sub_cancel, bind_assoc]

/-- The class under test is an expansion to its depth with the bodies of its own methods, and where
that is an answer, the cache keeps its invariant. -/
theorem extractSubject_ensures_of_expansions
    (hdiscipline : ExpansionDiscipline scope within good invariant)
    (hclosed : scope.Closed within) (hown : within scope.subject.ownType)
    (hbodies :
      ∀ method ∈ scope.subject.methods,
        ∀ ref ∈ scope.bodyRefs ⟨scope.subject, method⟩, within ref)
    (hextracted :
      ∀ type,
        TypeModel.Expands scope (good (subjectDepth scope)) (good (subjectDepth scope - 1))
          (OwnBody scope good) scope.subject.ownType type →
        good (subjectDepth scope) scope.subject.ownType type) :
    (Contract.keeping invariant).Ensures (extractSubject scope)
      (TypeModel.Expands scope (good (subjectDepth scope)) (good (subjectDepth scope - 1))
        (OwnBody scope good) scope.subject.ownType) := by
  obtain ⟨depth, hdepth⟩ := exists_subjectDepth_eq scope
  rw [hdepth] at hextracted
  have hsubject :
      (Contract.keeping invariant).Ensures (TypeModel.ofSubject scope (typeOf scope) leaf depth)
        (TypeModel.Expands scope (good (depth + 1)) (good depth) (OwnBody scope good)
          scope.subject.ownType) :=
    ofSubject_ensures_of_expansions hdiscipline hclosed hown hbodies depth
  rw [extractSubject_eq, hdepth]
  refine Contract.ensures_bind _ (Contract.keeping_modify fun _ hcache =>
    hdiscipline.counted _ hcache) fun _ _ => ?_
  refine Contract.ensures_bind _ hsubject fun type htype => ?_
  have hremember := Contract.keeping_modify fun cache (hcache : invariant cache) =>
    hdiscipline.remembered hcache hown (hextracted type htype)
  exact Contract.ensures_bind _ hremember fun _ _ => Contract.ensures_pure _ htype

theorem extractSubject_ensures
    (hdiscipline : CacheDiscipline scope within good invariant) (hclosed : scope.Closed within)
    (hown : within scope.subject.ownType)
    (hbodies :
      ∀ method ∈ scope.subject.methods,
        ∀ ref ∈ scope.bodyRefs ⟨scope.subject, method⟩, within ref) :
    (Contract.keeping invariant).Ensures (extractSubject scope)
      (TypeModel.Expands scope (good (subjectDepth scope)) (good (subjectDepth scope - 1))
        (OwnBody scope good) scope.subject.ownType) := by
  refine extractSubject_ensures_of_expansions hdiscipline.toExpansionDiscipline hclosed hown
    hbodies ?_
  obtain ⟨depth, hdepth⟩ := exists_subjectDepth_eq scope
  rw [hdepth]
  exact fun type htype => hdiscipline.built hown htype

/-! ## The caches of a session -/

/-- The caches that a session passes through: between its requests and, while one is carried out,
before each request that it makes in turn. -/
inductive Passes (scope : Scope) : TypeCache → Prop
  | start : Passes scope .empty
  | counted {cache : TypeCache} (stats : CacheCounters) :
      Passes scope cache → Passes scope { cache with stats }
  | answered {cache : TypeCache} (depth : Nat) (ref : TypeRef) :
      Passes scope cache → Passes scope ((typeOf scope depth ref).run cache).2
  | extracted {cache : TypeCache} :
      Passes scope cache → Passes scope ((extractSubject scope).run cache).2

theorem closed_any (scope : Scope) : scope.Closed fun _ => True :=
  ⟨fun _ => trivial, fun _ _ _ => trivial, fun _ _ _ _ => trivial⟩

/-- An invariant of caches holds throughout a session. -/
theorem Passes.keeps
    (hdiscipline : CacheDiscipline scope (fun _ => True) good invariant) (hstart : invariant .empty)
    {cache : TypeCache} (h : Passes scope cache) :
    invariant cache := by
  induction h with
  | start => exact hstart
  | counted stats _ ih => exact hdiscipline.counted stats ih
  | answered depth ref _ ih =>
      exact (typeOf_ensures hdiscipline (closed_any scope) depth ref trivial _ ih).2
  | extracted _ ih =>
      have hextract := extractSubject_ensures hdiscipline (closed_any scope) trivial
        fun _ _ _ _ => trivial
      exact (hextract _ ih).2

end Session

end Specwright
