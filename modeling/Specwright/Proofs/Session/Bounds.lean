import Mathlib.Algebra.Order.BigOperators.Group.List
import Mathlib.Algebra.Order.Ring.Nat
import Specwright.Proofs.Session.Growth

/-!
# What a session remembers and what it costs

Requests are put to one session in any order.  What it remembers under a key is populated, spelled
as the key and never forgotten or made shallower, so a request that was answered once to a depth is
served from memory ever after.  The requests that are carried out are therefore bounded by the
depths that can be recorded: no more than the greatest depth for each key, and one for each
extraction.
-/

namespace Specwright

namespace TypeCache

/-- Whether every remembered type is spelled as its key, and populated unless its depth is 0. -/
def Populated (cache : TypeCache) : Prop :=
  ∀ entry ∈ cache.entries,
    entry.type.spelling = entry.key ∧ (0 < entry.depth → entry.type.populated = true)

/-- The credit of a cache is at most the greatest depth for each entry. -/
theorem credit_le
    {cache : TypeCache} {depth : Nat} (h : ∀ entry ∈ cache.entries, entry.depth ≤ depth) :
    cache.credit ≤ depth * cache.size := by
  have hall : ∀ recorded ∈ cache.entries.map (·.depth), recorded ≤ depth := by
    intro recorded hrecorded
    obtain ⟨entry, hentry, rfl⟩ := List.mem_map.mp hrecorded
    exact h entry hentry
  have hsum := List.sum_le_card_nsmul _ depth hall
  rw [List.length_map, Nat.nsmul_eq_mul, Nat.mul_comm] at hsum
  exact hsum

end TypeCache

theorem TypeModel.Expands.populated_eq
    {scope : Scope} {same below : TypeRef → TypeModel → Prop}
    {bodies : Declaration → Option BodyModel → Prop} {ref : TypeRef} {type : TypeModel}
    (h : Expands scope same below bodies ref type) :
    type.populated = true := by
  cases h <;> rfl

namespace Session

variable {scope : Scope} {cache : TypeCache}

/-- Types that are spelled like their references and populated from depth 1 on, and caches that
remember such types, carry each other. -/
theorem populated_discipline (scope : Scope) :
    CacheDiscipline scope (fun _ => True)
      (fun depth ref type =>
        type.spelling = ref.spelling ∧ (0 < depth → type.populated = true))
      TypeCache.Populated where
  counted _ hcache := hcache
  served := by
    intro cache depth ref type hcache _ hlookup
    obtain ⟨entry, hentry, hkey, hdepth, rfl⟩ := TypeCache.exists_of_lookup? hlookup
    obtain ⟨hspelling, hpopulated⟩ := hcache entry hentry
    exact ⟨hspelling.trans hkey, fun hpos => hpopulated (Nat.lt_of_lt_of_le hpos hdepth)⟩
  remembered := by
    intro cache depth ref type hcache _ hgood entry hentry
    rcases TypeCache.mem_of_mem_remember hentry with rfl | hold
    · exact hgood
    · exact hcache entry hold
  bare _ := ⟨rfl, fun hpos => absurd hpos (Nat.lt_irrefl 0)⟩
  built _ hexpands :=
    ⟨congrArg TypeNames.spelling hexpands.names_eq, fun _ => hexpands.populated_eq⟩

/-! ## A request that was answered is served from memory -/

/-- A request of positive depth is served like any other, whether it is for an array or not. -/
theorem exists_typeOf_eq_serve (scope : Scope) (depth : Nat) (ref : TypeRef) :
    ∃ build, typeOf scope (depth + 1) ref = serve (depth + 1) ref build := by
  obtain ⟨name, args, kind, dims⟩ := ref
  rw [typeOf, TypeModel.expand, TypeModel.expandAt]
  cases dims with
  | zero => exact ⟨_, rfl⟩
  | succ dims => exact ⟨_, rfl⟩

/-- A request of positive depth leaves an entry behind that is at least as deep. -/
theorem exists_entry_of_typeOf
    {depth : Nat} (hdepth : 0 < depth) (ref : TypeRef) (cache : TypeCache) :
    ∃ entry,
      TypeCache.entry? ((typeOf scope depth ref).run cache).2 ref.spelling = some entry ∧
        depth ≤ entry.depth := by
  obtain ⟨below, rfl⟩ := Nat.exists_eq_add_of_lt hdepth
  rw [Nat.zero_add]
  obtain ⟨build, hserve⟩ := exists_typeOf_eq_serve scope below ref
  rw [hserve]
  cases hlookup : cache.lookup? ref.spelling (below + 1) with
  | some type =>
      rw [run_serve_of_hit build hlookup]
      obtain ⟨entry, hentry, -⟩ := Option.map_eq_some_iff.mp hlookup
      obtain ⟨hfound, hle⟩ := Option.filter_eq_some_iff.mp hentry
      exact ⟨entry, hfound, of_decide_eq_true hle⟩
  | none =>
      rw [run_serve_of_miss build hlookup, TypeCache.entry?_remember]
      split
      · exact ⟨_, rfl, Nat.le_refl _⟩
      next hdeeper =>
        -- Nothing is remembered only where a deeper entry has come in the meantime.
        by_contra hnone
        refine hdeeper ⟨rfl, TypeCache.lookup?_eq_none_iff.mpr fun entry hentry => ?_⟩
        by_contra hlt
        exact hnone ⟨entry, hentry, by omega⟩

/-- Where a deep enough entry is remembered, a request only counts as a hit. -/
theorem run_typeOf_of_entry
    {entry : CacheEntry} {depth : Nat} {ref : TypeRef} (hdepth : 0 < depth)
    (hentry : cache.entry? ref.spelling = some entry) (hle : depth ≤ entry.depth) :
    (typeOf scope depth ref).run cache = (entry.type, cache.countHit) := by
  obtain ⟨below, rfl⟩ := Nat.exists_eq_add_of_lt hdepth
  rw [Nat.zero_add] at hle ⊢
  obtain ⟨build, hserve⟩ := exists_typeOf_eq_serve scope below ref
  have hlookup : cache.lookup? ref.spelling (below + 1) = some entry.type := by
    simp only [TypeCache.lookup?, hentry, Option.filter_some, decide_eq_true hle, if_true,
      Option.map_some]
  rw [hserve, run_serve_of_hit build hlookup]

end Session

/-! ## Sequences of requests -/

namespace CacheRequest

/-- Whether the class under test is asked for. -/
def isSubject : CacheRequest → Bool
  | .type .. => false
  | .subject => true

end CacheRequest

namespace Session

/-- The cache after requests that are put to a session one after the other. -/
def after (scope : Scope) (requests : List CacheRequest) (cache : TypeCache) : TypeCache :=
  ((requests.mapM (CacheRequest.perform scope)).run cache).2

/-- The greatest depth that is asked for, where the class under test counts in any case. -/
def greatestDepth (scope : Scope) (requests : List CacheRequest) : Nat :=
  (requests.map (·.depth scope)).foldr max (subjectDepth scope)

/-- How many requests are for the class under test. -/
def extractions (requests : List CacheRequest) : Nat :=
  requests.countP (·.isSubject)

variable {scope : Scope} {cache : TypeCache} {requests : List CacheRequest} {depth : Nat}

theorem after_nil (scope : Scope) (cache : TypeCache) : after scope [] cache = cache := by
  rw [after, List.mapM_nil]
  rfl

theorem after_cons
    (scope : Scope) (request : CacheRequest) (requests : List CacheRequest) (cache : TypeCache) :
    after scope (request :: requests) cache =
      after scope requests ((request.perform scope).run cache).2 := by
  rw [after, List.mapM_cons]
  rfl

theorem after_append
    (scope : Scope) (requests later : List CacheRequest) (cache : TypeCache) :
    after scope (requests ++ later) cache = after scope later (after scope requests cache) := by
  induction requests generalizing cache with
  | nil => rw [List.nil_append, after_nil]
  | cons request requests ih => rw [List.cons_append, after_cons, after_cons, ih]

theorem depth_le_greatestDepth {request : CacheRequest} (h : request ∈ requests) :
    request.depth scope ≤ greatestDepth scope requests := by
  induction requests with
  | nil => cases h
  | cons first rest ih =>
      rw [greatestDepth, List.map_cons, List.foldr_cons]
      rcases List.mem_cons.mp h with rfl | hrest
      · exact Nat.le_max_left _ _
      · exact Nat.le_trans (ih hrest) (Nat.le_max_right _ _)

theorem Passes.after (h : Passes scope cache) (requests : List CacheRequest) :
    Passes scope (after scope requests cache) := by
  induction requests generalizing cache with
  | nil => rwa [after_nil]
  | cons request requests ih =>
      rw [after_cons]
      cases request with
      | type ref depth keepArgs bindings => exact ih (h.answered depth _)
      | subject => exact ih h.extracted

/-- One request lets the cache grow, and counts as an extraction if it is one. -/
theorem perform_grows
    {request : CacheRequest} (hdepth : request.depth scope ≤ depth) (cache : TypeCache) :
    cache.Grows depth (extractions [request]) ((request.perform scope).run cache).2 := by
  cases request with
  | type ref shallow keepArgs bindings =>
      obtain ⟨-, hadvances⟩ := typeOf_advances scope shallow (requested ref keepArgs bindings) cache
      exact hadvances.toGrows.mono hdepth
  | subject => exact (extractSubject_grows scope cache).mono hdepth

/-- Requests up to a depth let the cache grow, with as many extractions as there are among them. -/
theorem after_grows
    (hdepth : ∀ request ∈ requests, request.depth scope ≤ depth) (cache : TypeCache) :
    cache.Grows depth (extractions requests) (after scope requests cache) := by
  induction requests generalizing cache with
  | nil =>
      rw [after_nil]
      exact .refl depth cache
  | cons request requests ih =>
      obtain ⟨hfirst, hrest⟩ := List.forall_mem_cons.mp hdepth
      have hcount : extractions (request :: requests) =
          extractions [request] + extractions requests := by
        rw [extractions, ← List.singleton_append, List.countP_append]
        rfl
      rw [after_cons, hcount]
      exact (perform_grows hfirst cache).trans (ih hrest _)

/-- What one of several requests left behind is there after all of them. -/
theorem exists_entry_of_request
    {ref : TypeRef} {keepArgs : Bool} {bindings : Bindings}
    (hrequest : .type ref depth keepArgs bindings ∈ requests) (hdepth : 0 < depth)
    (cache : TypeCache) :
    ∃ entry,
      TypeCache.entry? (after scope requests cache) (requested ref keepArgs bindings).spelling =
        some entry ∧ depth ≤ entry.depth := by
  obtain ⟨before, behind, rfl⟩ := List.append_of_mem hrequest
  rw [after_append, after_cons]
  generalize after scope before cache = middle
  obtain ⟨entry, hentry, hle⟩ : ∃ entry,
      TypeCache.entry?
          ((CacheRequest.perform scope (.type ref depth keepArgs bindings)).run middle).2
          (requested ref keepArgs bindings).spelling = some entry ∧ depth ≤ entry.depth :=
    exists_entry_of_typeOf hdepth (requested ref keepArgs bindings) middle
  have hgrows : TypeCache.Grows (greatestDepth scope behind) (extractions behind) _ _ :=
    after_grows (fun _ => depth_le_greatestDepth)
      ((CacheRequest.perform scope (.type ref depth keepArgs bindings)).run middle).2
  obtain ⟨later, hlater, hle'⟩ := hgrows.kept _ entry hentry
  exact ⟨later, hlater, Nat.le_trans hle hle'⟩

/-- Every entry that requests leave behind in an empty cache is within the depths asked for. -/
theorem depth_of_mem_after
    {entry : CacheEntry} (h : entry ∈ (after scope requests .empty).entries) :
    0 < entry.depth ∧ entry.depth ≤ greatestDepth scope requests := by
  have hgrows : TypeCache.Grows (greatestDepth scope requests) (extractions requests) .empty
      (after scope requests .empty) := after_grows (fun _ => depth_le_greatestDepth) .empty
  rcases hgrows.recent entry h with hold | hnew
  · cases hold
  · exact hnew

/-- In every state that requests to one session lead to, what is remembered is populated and spelled
as its key; no further request forgets a key or makes it shallower; a request that repeats an
earlier one, at most as deep, only counts as a hit; and the requests carried out are at least as
many as the keys, and at most the greatest depth for each key and one for each extraction. -/
theorem cache_improves_and_bounds_work
    (scope : Scope) (requests later : List CacheRequest) :
    let earlier := after scope requests .empty
    let cache := after scope later earlier
    (∀ entry ∈ cache.entries, entry.type.populated = true ∧ entry.type.spelling = entry.key) ∧
      (∀ key entry, earlier.entry? key = some entry →
        ∃ kept, cache.entry? key = some kept ∧ entry.depth ≤ kept.depth) ∧
      (∀ ref depth keepArgs bindings, .type ref depth keepArgs bindings ∈ requests →
        ∀ ref' depth' keepArgs' bindings',
          (requested ref' keepArgs' bindings').spelling =
              (requested ref keepArgs bindings).spelling →
            1 ≤ depth' → depth' ≤ depth →
              ((typeUnder scope ref' depth' keepArgs' bindings').run cache).2 = cache.countHit) ∧
      cache.size ≤ cache.stats.misses ∧
      cache.stats.misses ≤
        greatestDepth scope (requests ++ later) * cache.size + extractions (requests ++ later) := by
  intro earlier cache
  have hall : after scope (requests ++ later) .empty = cache :=
    after_append scope requests later .empty
  have hlater : earlier.Grows (greatestDepth scope later) (extractions later) cache :=
    after_grows (fun _ => depth_le_greatestDepth) earlier
  have hwhole : TypeCache.Grows (greatestDepth scope (requests ++ later))
      (extractions (requests ++ later)) .empty cache := by
    rw [← hall]
    exact after_grows (fun _ => depth_le_greatestDepth) .empty
  have hdepth : ∀ entry ∈ cache.entries,
      0 < entry.depth ∧ entry.depth ≤ greatestDepth scope (requests ++ later) := by
    rw [← hall]
    exact fun _ => depth_of_mem_after
  refine ⟨?populated, hlater.kept, ?served, ?counted, ?paid⟩
  case populated =>
    intro entry hentry
    have hpasses : Passes scope cache := (Passes.start.after requests).after later
    have hkeeps : cache.Populated :=
      hpasses.keeps (populated_discipline scope) fun _ hnone => absurd hnone List.not_mem_nil
    obtain ⟨hspelling, hpopulated⟩ := hkeeps entry hentry
    exact ⟨hpopulated (hdepth entry hentry).1, hspelling⟩
  case served =>
    intro ref depth keepArgs bindings hrequest ref' depth' keepArgs' bindings' hsame hpos hle
    obtain ⟨entry, hentry, hentryDepth⟩ :=
      exists_entry_of_request hrequest (Nat.lt_of_lt_of_le hpos hle) TypeCache.empty
    obtain ⟨kept, hkept, hkeptDepth⟩ := hlater.kept _ entry hentry
    rw [← hsame] at hkept
    rw [typeUnder, run_typeOf_of_entry hpos hkept (by omega)]
  case counted =>
    have hcounted := hwhole.counted
    have hsize : TypeCache.empty.size = 0 := rfl
    omega
  case paid =>
    have hpaid := hwhole.paid
    have hcredit : cache.credit ≤ greatestDepth scope (requests ++ later) * cache.size :=
      TypeCache.credit_le fun entry hentry => (hdepth entry hentry).2
    have hmisses : TypeCache.empty.stats.misses = 0 := rfl
    omega

/-- The chain that was asked for under bindings is served from memory when it is asked for as a
chain of names, although the class under test has been extracted in the meantime. -/
theorem cache_improves_and_bounds_work_namesRequests :
    ((typeUnder namesScope (.generic "shop.Chain" [.named "shop.Name"]) 1 true .empty).run
        (after namesScope [.subject] (after namesScope namesRequests .empty))).2 =
      (after namesScope [.subject] (after namesScope namesRequests .empty)).countHit := by
  obtain ⟨-, -, hserved, -, -⟩ :=
    cache_improves_and_bounds_work namesScope namesRequests [.subject]
  have hrequest : .type (.generic "shop.Chain" [.parameter "E"]) 1 true
      ⟨[("E", .named "shop.Name")]⟩ ∈ namesRequests := List.mem_cons_self
  exact hserved _ 1 true _ hrequest _ 1 true .empty rfl (Nat.le_refl 1) (Nat.le_refl 1)

end Session

end Specwright
