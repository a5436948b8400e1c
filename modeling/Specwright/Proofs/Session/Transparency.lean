import Specwright.Proofs.Model.References
import Specwright.Proofs.Model.Truncation
import Specwright.Proofs.Session.Extraction

/-!
# A cache that cannot be told from none

A session answers requests out of what earlier requests left behind: a shallow one out of a deep
answer, and a request for the class under test out of its extraction.  As long as a spelling means
one type only, every answer agrees with the expansion of the requested reference by itself, down to
the depth of the request.
-/

namespace Specwright

namespace TypeModel

variable {scope : Scope} {depth : Nat} {ref : TypeRef} {type : TypeModel}

/-! ## Expansions by themselves -/

private theorem forall₂_expandAllAt_plain (scope : Scope) (depth : Nat) (refs : List TypeRef) :
    List.Forall₂ (fun ref type => type = plain scope (depth + 1) ref) refs
      (expandAllAt (m := Id) scope (fun _ build => build) (plain scope depth) nameOnly refs) := by
  induction refs with
  | nil => exact .nil
  | cons ref rest ih => exact .cons rfl ih

/-- An expansion by itself is made of expansions by themselves. -/
theorem plain_expands (scope : Scope) (depth : Nat) (ref : TypeRef) :
    Expands scope (fun ref type => type = plain scope (depth + 1) ref)
      (fun ref type => type = plain scope depth ref) (fun _ => (· = none)) ref
      (plain scope (depth + 1) ref) := by
  obtain ⟨name, args, kind, dims⟩ := ref
  cases dims with
  | succ dims => exact .array rfl
  | zero =>
      by_cases hkind : kind = .reference
      · subst hkind
        have hclass :
            Contract.ofValue.Ensures
              (ofClass (m := Id) scope (plain scope depth) nameOnly (fun _ => pure none)
                ⟨name, args, .reference, 0⟩
                (expandAllAt (m := Id) scope (fun _ build => build) (plain scope depth) nameOnly
                  args))
              (Expands scope (fun ref type => type = plain scope (depth + 1) ref)
                (fun ref type => type = plain scope depth ref) (fun _ => (· = none))
                ⟨name, args, .reference, 0⟩) :=
          ofClass_ensures (fun _ => rfl) (fun _ _ _ _ => rfl) (fun _ _ _ _ _ => rfl)
            (forall₂_expandAllAt_plain scope depth args)
        exact hclass
      · have hplain : plain scope (depth + 1) ⟨name, args, kind, 0⟩ =
            { nameOnly ⟨name, args, kind, 0⟩ with populated := true } := by
          show Id.run (if kind = .reference then _ else _) = _
          rw [if_neg hkind]
          rfl
        rw [hplain]
        exact .named hkind

/-- Whether a type can answer requests for a reference up to a depth: down to each level it agrees
with the expansion of the reference to that level by itself. -/
def StandsFor (scope : Scope) (depth : Nat) (ref : TypeRef) (type : TypeModel) : Prop :=
  ∀ levels ≤ depth, type.AgreesTo levels (plain scope levels ref)

theorem StandsFor.mono
    {shallow : Nat} (h : type.StandsFor scope depth ref) (hle : shallow ≤ depth) :
    type.StandsFor scope shallow ref :=
  fun levels hlevels => h levels (Nat.le_trans hlevels hle)

theorem standsFor_nameOnly (ref : TypeRef) : (nameOnly ref).StandsFor scope 0 ref := by
  intro levels hlevels
  obtain rfl := Nat.le_zero.mp hlevels
  rfl

/-- What is built from types that stand for their references stands for its reference. -/
theorem standsFor_of_expands
    {bodies : Declaration → Option BodyModel → Prop}
    (h : Expands scope (fun ref type => type.StandsFor scope (depth + 1) ref)
      (fun ref type => type.StandsFor scope depth ref) bodies ref type) :
    type.StandsFor scope (depth + 1) ref := by
  intro levels hlevels
  cases levels with
  | zero =>
      -- Only names are left, and expansions take them over unchanged.
      have hnames := h.names_eq
      cases type
      subst hnames
      rfl
  | succ levels =>
      refine h.agreesTo ?_ ?_ (plain_expands scope levels ref)
      · rintro ref type _ hstands rfl
        exact hstands (levels + 1) hlevels
      · rintro ref type _ hstands rfl
        exact hstands levels (Nat.le_of_succ_le_succ hlevels)

end TypeModel

/-! ## Caches that remember what stands for their keys -/

namespace TypeCache

/-- Whether every remembered type is an answer of its depth for a reference that obeys and is
spelled as its key. -/
def Remembers
    (sortOf : String → TypeSort) (good : Nat → TypeRef → TypeModel → Prop) (cache : TypeCache) :
    Prop :=
  ∀ entry ∈ cache.entries, ∃ ref : TypeRef,
    ref.Obeys sortOf ∧ entry.key = ref.spelling ∧ good entry.depth ref entry.type

theorem remembers_empty
    {sortOf : String → TypeSort} {good : Nat → TypeRef → TypeModel → Prop} :
    empty.Remembers sortOf good := by
  intro entry hentry
  cases hentry

/-- Caches that remember answers and answers that serve smaller depths carry each other: a spelling
under which a type is remembered belongs to one reference only. -/
theorem remembers_memory
    {sortOf : String → TypeSort} {good : Nat → TypeRef → TypeModel → Prop}
    (hmono : ∀ shallow depth ref type, shallow ≤ depth → good depth ref type →
      good shallow ref type) :
    CacheMemory (fun ref => ref.Obeys sortOf) good (Remembers sortOf good) where
  counted _ hcache := hcache
  served := by
    intro cache depth ref type hcache href hlookup
    obtain ⟨entry, hentry, hkey, hdepth, rfl⟩ := exists_of_lookup? hlookup
    obtain ⟨other, hother, hspelling, hgood⟩ := hcache entry hentry
    -- Spellings are read in one way, so the entry was made for the reference itself.
    obtain rfl : other = ref :=
      TypeRef.eq_of_spelling_eq hother href (hspelling.symm.trans hkey)
    exact hmono _ _ _ _ hdepth hgood
  remembered := by
    intro cache depth ref type hcache href hgood entry hentry
    rcases mem_of_mem_remember hentry with rfl | hold
    · exact ⟨ref, href, rfl, hgood⟩
    · exact hcache entry hold

/-- Whether every remembered type stands, to its depth, for a reference that obeys and is spelled as
its key. -/
def Faithful (scope : Scope) (sortOf : String → TypeSort) (cache : TypeCache) : Prop :=
  ∀ entry ∈ cache.entries, ∃ ref : TypeRef,
    ref.Obeys sortOf ∧ entry.key = ref.spelling ∧ entry.type.StandsFor scope entry.depth ref

theorem faithful_empty {scope : Scope} {sortOf : String → TypeSort} :
    empty.Faithful scope sortOf :=
  remembers_empty

end TypeCache

/-! ## Sequences of requests -/

/-- A request to a session: for a type under bindings, or for the class under test. -/
inductive CacheRequest where
  | type (ref : TypeRef) (depth : Nat) (keepArgs : Bool) (bindings : Bindings)
  | subject

namespace CacheRequest

/-- The reference that a request is about, after substitution and with or without arguments. -/
def target (scope : Scope) : CacheRequest → TypeRef
  | .type ref _ keepArgs bindings => Session.requested ref keepArgs bindings
  | .subject => scope.subject.ownType

/-- The depth that a request asks for. -/
def depth (scope : Scope) : CacheRequest → Nat
  | .type _ depth _ _ => depth
  | .subject => Session.subjectDepth scope

/-- Puts a request to a session. -/
def perform (scope : Scope) : CacheRequest → Session TypeModel
  | .type ref depth keepArgs bindings => Session.typeUnder scope ref depth keepArgs bindings
  | .subject => Session.extractSubject scope

/-- Whether an answer is right: it agrees with the expansion of the requested reference by itself,
down to the depth of the request. -/
def AnsweredBy (scope : Scope) (request : CacheRequest) (answer : TypeModel) : Prop :=
  answer.AgreesTo (request.depth scope)
    (.plain scope (request.depth scope) (request.target scope))

end CacheRequest

namespace Session

/-- The answers of one session to requests that are put to it one after the other. -/
def answers (scope : Scope) (requests : List CacheRequest) : List TypeModel :=
  ((requests.mapM (CacheRequest.perform scope)).run .empty).1

variable {scope : Scope} {sortOf : String → TypeSort}

/-- Faithful caches and types that stand for their references carry each other. -/
theorem faithful_discipline (scope : Scope) (sortOf : String → TypeSort) :
    CacheDiscipline scope (fun ref => ref.Obeys sortOf)
      (fun depth ref type => type.StandsFor scope depth ref) (·.Faithful scope sortOf) where
  toCacheMemory :=
    TypeCache.remembers_memory fun _ _ _ _ hle hstands => hstands.mono hle
  bare := TypeModel.standsFor_nameOnly
  built _ hexpands := TypeModel.standsFor_of_expands hexpands

/-- An extraction leaves the cache faithful, and the types of members in it stand for their
references one level below. -/
theorem extractSubject_ensures_standsFor (hsnapshot : scope.snapshot.Obeys sortOf) :
    (Contract.keeping (TypeCache.Faithful scope sortOf)).Ensures (extractSubject scope)
      (TypeModel.Expands scope (fun ref type => type.StandsFor scope (subjectDepth scope) ref)
        (fun ref type => type.StandsFor scope (subjectDepth scope - 1) ref)
        (OwnBody scope fun depth ref type => type.StandsFor scope depth ref)
        scope.subject.ownType) := by
  have hheld := Snapshot.mem_of_find? scope.held
  have hbodies : ∀ method ∈ scope.subject.methods,
      ∀ ref ∈ scope.bodyRefs ⟨scope.subject, method⟩, ref.Obeys sortOf := by
    intro method hmethod ref href
    exact Scope.obeys_of_mem_bodyRefs hsnapshot ⟨hheld, hmethod⟩ href
  exact extractSubject_ensures (faithful_discipline scope sortOf) (Scope.closed_obeys hsnapshot)
    (hsnapshot.ownType hheld) hbodies

/-- One request leaves the cache faithful, and its answer stands for the requested reference. -/
theorem perform_ensures
    (hsnapshot : scope.snapshot.Obeys sortOf) {request : CacheRequest}
    (hrequest : (request.target scope).Obeys sortOf) :
    (Contract.keeping (TypeCache.Faithful scope sortOf)).Ensures (request.perform scope)
      (·.StandsFor scope (request.depth scope) (request.target scope)) := by
  have hdiscipline := faithful_discipline scope sortOf
  have hclosed := Scope.closed_obeys hsnapshot
  cases request with
  | type ref depth keepArgs bindings =>
      exact typeOf_ensures hdiscipline hclosed depth _ hrequest
  | subject =>
      obtain ⟨below, hdepth⟩ := exists_subjectDepth_eq scope
      have hsubject := extractSubject_ensures_standsFor hsnapshot
      rw [hdepth] at hsubject
      rw [CacheRequest.depth, hdepth]
      exact Contract.ensures_mono _ hsubject fun type => TypeModel.standsFor_of_expands

/-- Whatever is requested of a session in whatever order, every answer is right, provided that no
name in the snapshot and the requests stands for types of two sorts or holds a mark. -/
theorem answers_right
    {requests : List CacheRequest}
    (hsnapshot : scope.snapshot.Obeys sortOf)
    (hrequests : ∀ request ∈ requests, (request.target scope).Obeys sortOf) :
    List.Forall₂ (CacheRequest.AnsweredBy scope) requests (answers scope requests) := by
  have hrun := Contract.ensures_mapM (Contract.keeping (TypeCache.Faithful scope sortOf))
    fun request hrequest => perform_ensures hsnapshot (hrequests request hrequest)
  obtain ⟨hanswers, -⟩ := hrun .empty TypeCache.faithful_empty
  exact hanswers.imp fun request answer hstands => hstands _ (Nat.le_refl _)

end Session

/-! ## A generic class and a class below it -/

/-- A chain of elements. -/
def chainClass : ClassDecl where
  name := "shop.Chain"
  typeParams := ["E"]
  fields := [{ name := "rest", type := .generic "shop.Chain" [.parameter "E"] }]
  methods := [
    { name := "head"
      modifiers := [.publicAccess]
      returnType := some (.parameter "E")
      params := [⟨"others", (TypeRef.parameter "E").addDims 1⟩] }]

/-- A chain of names that reads its first one. -/
def namesClass : ClassDecl where
  name := "shop.Names"
  supertypes := [.generic "shop.Chain" [.named "shop.Name"]]
  methods := [
    { name := "first"
      modifiers := [.publicAccess]
      returnType := some (.named "shop.Name")
      callSites := [{ target := ⟨"shop.Names", "head", []⟩ }] }]

def namesScope : Scope where
  snapshot := .ofClasses [chainClass, namesClass]
  subject := namesClass
  options := ⟨2, []⟩
  held := rfl

def namesSort (name : String) : TypeSort :=
  if name = "E" then .parameter else .reference

/-- A chain is asked for shallowly under bindings and then deeply, and the class under test after
its extraction. -/
def namesRequests : List CacheRequest := [
  .type (.generic "shop.Chain" [.parameter "E"]) 1 true ⟨[("E", .named "shop.Name")]⟩,
  .subject,
  .type ((TypeRef.generic "shop.Chain" [.named "shop.Name"]).addDims 1) 3 true .empty,
  .type (.generic "shop.Names" [.named "shop.Name"]) 1 false .empty]

namespace Session

theorem answers_right_namesRequests :
    namesScope.snapshot.Obeys namesSort ∧
      (∀ request ∈ namesRequests, (request.target namesScope).Obeys namesSort) ∧
      List.Forall₂ (CacheRequest.AnsweredBy namesScope) namesRequests
        (answers namesScope namesRequests) := by
  have hsnapshot : namesScope.snapshot.Obeys namesSort := by
    decide +kernel
  have hrequests : ∀ request ∈ namesRequests, (request.target namesScope).Obeys namesSort := by
    decide +kernel
  exact ⟨hsnapshot, hrequests, answers_right hsnapshot hrequests⟩

/-- A class that is named like a type parameter gets the answer for the type parameter. -/
theorem answers_wrong_across_sorts :
    namesScope.snapshot.Obeys namesSort ∧
      ¬List.Forall₂ (CacheRequest.AnsweredBy namesScope)
        [.type (.parameter "E") 1 true .empty, .type (.named "E") 1 true .empty]
        (answers namesScope
          [.type (.parameter "E") 1 true .empty, .type (.named "E") 1 true .empty]) := by
  constructor
  · decide +kernel
  · intro h
    have hsecond := (List.forall₂_cons.mp (List.forall₂_cons.mp h).2).1
    have hkinds : TypeSort.parameter = TypeSort.reference :=
      congrArg (fun type => type.names.kind) hsecond
    cases hkinds

end Session

end Specwright
