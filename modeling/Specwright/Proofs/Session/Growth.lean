import Mathlib.Algebra.Order.Ring.Nat
import Specwright.Proofs.Session.Subject
import Specwright.Proofs.Session.Transparency

/-!
# Caches only grow, and misses pay for it

Requests are carried out within one another, and many of them write to the cache before the outer
one does.  Still no entry is lost or made shallower, and every miss raises the depth that is
recorded under its key.  The second fact holds because a request never comes back to its own key at
its own depth: what it asks for at the same depth is spelled shorter.  So the sum of all recorded
depths bounds the misses.
-/

namespace Specwright

/-! ## What remembering changes -/

namespace TypeCache

variable {cache old new : TypeCache} {key other : String} {depth : Nat} {type : TypeModel}
variable {entry : CacheEntry}

/-- The sum of all recorded depths. -/
def credit (cache : TypeCache) : Nat :=
  (cache.entries.map (·.depth)).sum

/-- The depth that is recorded under a key; 0 where nothing is. -/
def recorded (cache : TypeCache) (key : String) : Nat :=
  ((cache.entry? key).map (·.depth)).getD 0

theorem find?_putEntry (entry : CacheEntry) (entries : List CacheEntry) (key : String) :
    (putEntry entry entries).find? (·.key = key) =
      if entry.key = key then some entry else entries.find? (·.key = key) := by
  induction entries with
  | nil =>
      rw [putEntry, List.find?_cons]
      by_cases h : entry.key = key
      · simp [h]
      · simp [h]
  | cons first rest ih =>
      rw [putEntry]
      by_cases hsame : first.key = entry.key
      · rw [if_pos hsame]
        by_cases h : entry.key = key
        · simp [h]
        · simp [h, hsame]
      · rw [if_neg hsame, List.find?_cons, List.find?_cons, ih]
        by_cases hfirst : first.key = key
        · have hother : entry.key ≠ key := fun h => hsame (hfirst.trans h.symm)
          simp [hfirst, hother]
        · simp [hfirst]

theorem length_putEntry_le (entry : CacheEntry) (entries : List CacheEntry) :
    (putEntry entry entries).length ≤ entries.length + 1 := by
  induction entries with
  | nil => exact Nat.le_refl _
  | cons first rest ih =>
      rw [putEntry]
      split
      · exact Nat.le_succ _
      · exact Nat.succ_le_succ ih

/-- Putting an entry adds its depth in the place of the one recorded under its key. -/
theorem sum_putEntry (entry : CacheEntry) (entries : List CacheEntry) :
    ((putEntry entry entries).map (·.depth)).sum +
        ((entries.find? (·.key = entry.key)).map (·.depth)).getD 0 =
      (entries.map (·.depth)).sum + entry.depth := by
  induction entries with
  | nil => simp [putEntry]
  | cons first rest ih =>
      rw [putEntry, List.find?_cons]
      by_cases h : first.key = entry.key
      · simp only [h, if_true, decide_true, List.map_cons, List.sum_cons, Option.map_some,
          Option.getD_some]
        omega
      · simp only [h, if_false, decide_false, List.map_cons, List.sum_cons]
        omega

theorem stats_remember : (cache.remember key depth type).stats = cache.stats := by
  rw [remember]
  split <;> rfl

/-- A request is not served exactly when what is recorded under its key is shallower. -/
theorem lookup?_eq_none_iff :
    cache.lookup? key depth = none ↔
      ∀ entry, cache.entry? key = some entry → entry.depth < depth := by
  rw [lookup?, Option.map_eq_none_iff, Option.filter_eq_none_iff]
  constructor
  · intro h entry hentry
    simpa using h entry hentry
  · intro h entry hentry
    simpa using h entry hentry

theorem entry?_remember :
    TypeCache.entry? (cache.remember key depth type) other =
      if other = key ∧ cache.lookup? key (depth + 1) = none then some ⟨key, depth, type⟩
      else cache.entry? other := by
  have hdeeper : (cache.entry? key).any (depth < ·.depth) = true ↔
      ¬cache.lookup? key (depth + 1) = none := by
    rw [lookup?_eq_none_iff]
    cases cache.entry? key with
    | none => simp
    | some entry =>
        simp only [Option.any_some, decide_eq_true_eq, Option.some.injEq, forall_eq', Nat.not_lt]
        exact Nat.lt_iff_add_one_le
  rw [remember]
  by_cases h : (cache.entry? key).any (depth < ·.depth) = true
  · rw [if_pos h, if_neg fun hboth => hdeeper.mp h hboth.2]
  · have hnone : cache.lookup? key (depth + 1) = none := by
      by_contra hsome
      exact h (hdeeper.mpr hsome)
    rw [if_neg h]
    unfold entry?
    rw [find?_putEntry]
    by_cases hkey : key = other
    · rw [if_pos hkey, if_pos ⟨hkey.symm, hnone⟩]
    · rw [if_neg hkey, if_neg fun hboth => hkey hboth.1.symm]

theorem depth_le_of_remember
    (h : cache.entry? other = some entry) :
    ∃ later, TypeCache.entry? (cache.remember key depth type) other = some later ∧
      entry.depth ≤ later.depth := by
  rw [entry?_remember]
  by_cases hboth : other = key ∧ cache.lookup? key (depth + 1) = none
  · rw [if_pos hboth]
    refine ⟨_, rfl, ?_⟩
    obtain ⟨rfl, hnone⟩ := hboth
    exact Nat.le_of_lt_succ (lookup?_eq_none_iff.mp hnone entry h)
  · rw [if_neg hboth]
    exact ⟨entry, h, Nat.le_refl _⟩

theorem size_remember_le : (cache.remember key depth type).size ≤ cache.size + 1 := by
  rw [remember]
  split
  · exact Nat.le_succ _
  · exact length_putEntry_le _ _

/-- Remembering a type raises the depth that is recorded under its key, and the credit with it. -/
theorem credit_remember :
    (cache.remember key depth type).credit + cache.recorded key =
      cache.credit + max (cache.recorded key) depth := by
  have hput : ((putEntry ⟨key, depth, type⟩ cache.entries).map (·.depth)).sum +
      cache.recorded key = cache.credit + depth := sum_putEntry ⟨key, depth, type⟩ cache.entries
  rw [remember]
  by_cases hdeeper : (cache.entry? key).any (depth < ·.depth) = true
  · obtain ⟨entry, hentry, hlt⟩ := (Option.any_eq_true _ _).mp hdeeper
    have hrecorded : cache.recorded key = entry.depth := by rw [recorded, hentry]; rfl
    rw [decide_eq_true_eq] at hlt
    rw [if_pos hdeeper]
    omega
  · have hrecorded : cache.recorded key ≤ depth := by
      rw [recorded]
      cases hentry : cache.entry? key with
      | none => exact Nat.zero_le _
      | some entry => simpa [hentry] using hdeeper
    rw [if_neg hdeeper, Nat.max_eq_right hrecorded]
    exact hput

theorem recorded_lt_of_miss
    (hdepth : 0 < depth) (hmiss : cache.lookup? key depth = none) :
    cache.recorded key < depth := by
  rw [recorded]
  cases hentry : cache.entry? key with
  | none => exact hdepth
  | some entry => exact lookup?_eq_none_iff.mp hmiss entry hentry

/-! ## How a cache changes while requests are carried out -/

/-- Whether a cache has come from another one by work that asks for types up to a depth, with a
number of extractions among it: no entry is lost or made shallower, the new ones are no deeper than
what was asked for, and misses and entries are accounted for. -/
structure Grows (depth extractions : Nat) (old new : TypeCache) : Prop where
  kept (key : String) (entry : CacheEntry) :
    old.entry? key = some entry → ∃ later, new.entry? key = some later ∧ entry.depth ≤ later.depth
  recent : ∀ entry ∈ new.entries, entry ∈ old.entries ∨ 0 < entry.depth ∧ entry.depth ≤ depth
  paid : new.stats.misses + old.credit ≤ old.stats.misses + new.credit + extractions
  counted : new.size + old.stats.misses ≤ old.size + new.stats.misses

theorem Grows.refl (depth : Nat) (cache : TypeCache) : cache.Grows depth 0 cache where
  kept _ entry hentry := ⟨entry, hentry, Nat.le_refl _⟩
  recent _ hentry := Or.inl hentry
  paid := Nat.le_refl _
  counted := Nat.le_refl _

theorem Grows.trans
    {few more : Nat} {middle : TypeCache} (h : Grows depth few old middle)
    (h' : Grows depth more middle new) :
    Grows depth (few + more) old new where
  kept := by
    intro key entry hentry
    obtain ⟨entry', hentry', hle⟩ := h.kept key entry hentry
    obtain ⟨later, hlater, hle'⟩ := h'.kept key entry' hentry'
    exact ⟨later, hlater, Nat.le_trans hle hle'⟩
  recent := by
    intro entry hentry
    rcases h'.recent entry hentry with hmiddle | hnew
    · exact h.recent entry hmiddle
    · exact Or.inr hnew
  paid := by
    have hpaid := h.paid
    have hpaid' := h'.paid
    omega
  counted := by
    have hcounted := h.counted
    have hcounted' := h'.counted
    omega

theorem Grows.mono
    {shallow extractions : Nat} (h : Grows shallow extractions old new) (hle : shallow ≤ depth) :
    Grows depth extractions old new where
  kept := h.kept
  recent := by
    intro entry hentry
    rcases h.recent entry hentry with hold | ⟨hpos, hdepth⟩
    · exact Or.inl hold
    · exact Or.inr ⟨hpos, Nat.le_trans hdepth hle⟩
  paid := h.paid
  counted := h.counted

/-- A request that was carried out: it was counted, its work let the cache grow, and the result was
remembered. -/
theorem Grows.remember
    (hdepth : 0 < depth) (h : Grows depth 0 old.countMiss new) (type : TypeModel) :
    Grows depth 1 old (new.remember key depth type) where
  kept := by
    intro other entry hentry
    obtain ⟨entry', hentry', hle⟩ := h.kept other entry hentry
    obtain ⟨later, hlater, hle'⟩ := depth_le_of_remember hentry'
    exact ⟨later, hlater, Nat.le_trans hle hle'⟩
  recent := by
    intro entry hentry
    rcases mem_of_mem_remember hentry with rfl | hnew
    · exact Or.inr ⟨hdepth, Nat.le_refl _⟩
    · rcases h.recent entry hnew with hold | ⟨hpos, hle⟩
      · exact Or.inl hold
      · exact Or.inr ⟨hpos, hle⟩
  paid := by
    have hpaid := h.paid
    have hcredit : (new.remember key depth type).credit + new.recorded key =
        new.credit + max (new.recorded key) depth := credit_remember
    have hstats : (new.remember key depth type).stats = new.stats := stats_remember
    have hcounted : old.countMiss.stats.misses = old.stats.misses + 1 := rfl
    have hsame : old.countMiss.credit = old.credit := rfl
    rw [hstats]
    omega
  counted := by
    have hcounted := h.counted
    have hsize : (new.remember key depth type).size ≤ new.size + 1 := size_remember_le
    have hstats : (new.remember key depth type).stats = new.stats := stats_remember
    have hmiss : old.countMiss.stats.misses = old.stats.misses + 1 := rfl
    have hsame : old.countMiss.size = old.size := rfl
    rw [hstats]
    omega

/-- Whether no work at a depth that asks at that very depth only for references with spellings
shorter than `length` can come to a request. -/
def Spares (depth length : Nat) (key : String) (other : Nat) : Prop :=
  depth < other ∨ depth = other ∧ length ≤ key.length

/-- Whether a cache has come from another one by such work, which serves no request that it cannot
come to. -/
structure Advances (depth length : Nat) (old new : TypeCache) : Prop
    extends Grows depth 0 old new where
  spared (key : String) (other : Nat) :
    Spares depth length key other → old.lookup? key other = none → new.lookup? key other = none

theorem Advances.refl (depth length : Nat) (cache : TypeCache) :
    cache.Advances depth length cache where
  toGrows := .refl depth cache
  spared _ _ _ hnone := hnone

theorem Advances.trans
    {length : Nat} {middle : TypeCache} (h : Advances depth length old middle)
    (h' : Advances depth length middle new) :
    Advances depth length old new where
  toGrows := h.toGrows.trans h'.toGrows
  spared key other hspares hnone := h'.spared key other hspares (h.spared key other hspares hnone)

/-- What spares a request of a smaller depth, or of a shorter spelling, spares the greater one. -/
theorem Advances.mono
    {shallow short length : Nat} (h : Advances shallow short old new)
    (hless : shallow < depth ∨ shallow = depth ∧ short ≤ length) :
    Advances depth length old new where
  toGrows := h.toGrows.mono (by omega)
  spared := by
    intro key other hspares hnone
    refine h.spared key other ?_ hnone
    unfold Spares at hspares ⊢
    omega

/-- A request that was carried out pays for its miss, since its work could not serve it. -/
theorem Advances.remember
    (hdepth : 0 < depth) (hmiss : old.lookup? key depth = none)
    (h : Advances depth key.length old.countMiss new) (type : TypeModel) :
    Advances depth (key.length + 1) old (new.remember key depth type) where
  toGrows := by
    have hgrows : Grows depth 1 old (new.remember key depth type) :=
      h.toGrows.remember hdepth type
    have hstill : new.lookup? key depth = none :=
      h.spared key depth (Or.inr ⟨rfl, Nat.le_refl _⟩) hmiss
    have hrecorded : new.recorded key < depth := recorded_lt_of_miss hdepth hstill
    have hcredit : (new.remember key depth type).credit + new.recorded key =
        new.credit + max (new.recorded key) depth := credit_remember
    refine ⟨hgrows.kept, hgrows.recent, ?_, hgrows.counted⟩
    have hpaid := h.paid
    have hstats : (new.remember key depth type).stats = new.stats := stats_remember
    have hcounted : old.countMiss.stats.misses = old.stats.misses + 1 := rfl
    have hsame : old.countMiss.credit = old.credit := rfl
    rw [hstats]
    omega
  spared := by
    intro other deeper hspares hnone
    have hspared : new.lookup? other deeper = none := by
      refine h.spared other deeper ?_ hnone
      unfold Spares at hspares ⊢
      omega
    rw [lookup?_eq_none_iff] at hspared ⊢
    intro entry hentry
    rw [entry?_remember] at hentry
    by_cases hboth : other = key ∧ new.lookup? key (depth + 1) = none
    · rw [if_pos hboth] at hentry
      cases hentry
      -- Under the key itself only greater depths are spared, since its spelling is not longer.
      rcases hspares with hlt | ⟨rfl, hlength⟩
      · exact hlt
      · rw [hboth.1] at hlength
        omega
    · rw [if_neg hboth] at hentry
      exact hspared entry hentry

end TypeCache

/-! ## The work of a session -/

namespace Session

/-- The contract of work at a depth that asks at that very depth only for references with spellings
shorter than a length. -/
def advancing (depth length : Nat) : Contract Session :=
  .advancing (TypeCache.Advances depth length) (.refl depth length) .trans

variable {scope : Scope} {depth length : Nat} {α : Type}

theorem advancing_mono
    {shallow short : Nat} {work : Session α} {post : α → Prop}
    (h : (advancing shallow short).Ensures work post)
    (hless : shallow < depth ∨ shallow = depth ∧ short ≤ length) :
    (advancing depth length).Ensures work post := by
  intro cache
  obtain ⟨hpost, hadvances⟩ := h cache
  exact ⟨hpost, hadvances.mono hless⟩

theorem leaf_advances (ref : TypeRef) :
    (advancing depth length).Ensures (leaf ref) (· = .nameOnly ref) := by
  intro cache
  refine ⟨rfl, ?_⟩
  have hrefl := TypeCache.Advances.refl depth length cache
  exact ⟨⟨hrefl.kept, hrefl.recent, hrefl.paid, hrefl.counted⟩, hrefl.spared⟩

/-- Serving a request is work with spellings up to its own, when carrying it out is work with
shorter ones. -/
theorem serve_advances
    {ref : TypeRef} {build : Session TypeModel} (hdepth : 0 < depth)
    (hbuild : (advancing depth ref.spelling.length).Ensures build (anyAnswer ref)) :
    (advancing depth (ref.spelling.length + 1)).Ensures (serve depth ref build)
      (anyAnswer ref) := by
  intro cache
  refine ⟨trivial, ?_⟩
  cases hlookup : cache.lookup? ref.spelling depth with
  | some type =>
      rw [run_serve_of_hit build hlookup]
      have hrefl := TypeCache.Advances.refl depth (ref.spelling.length + 1) cache
      exact ⟨⟨hrefl.kept, hrefl.recent, hrefl.paid, hrefl.counted⟩, hrefl.spared⟩
  | none =>
      rw [run_serve_of_miss build hlookup]
      obtain ⟨-, hwork⟩ := hbuild cache.countMiss
      exact TypeCache.Advances.remember hdepth hlookup hwork _

section OneDepth

variable {lower : TypeRef → Session TypeModel}

theorem expandArray_advances
    {name : String} {args : List TypeRef} {kind : TypeSort} {element : Session TypeModel}
    (hdepth : 0 < depth)
    (helement : (advancing depth ((TypeRef.mk name args kind 0).spelling.length + 1)).Ensures
      element (anyAnswer ⟨name, args, kind, 0⟩)) (dims : Nat) :
    (advancing depth ((TypeRef.mk name args kind dims).spelling.length + 1)).Ensures
      (TypeModel.expandArray (serve depth) ⟨name, args, kind, 0⟩ element dims)
      (anyAnswer ⟨name, args, kind, dims⟩) := by
  induction dims with
  | zero => exact helement
  | succ dims ih =>
      refine serve_advances hdepth ?_
      have hshorter := TypeRef.length_spelling_element name args kind dims
      refine Contract.ensures_bind _ (advancing_mono ih (Or.inr ⟨rfl, hshorter⟩)) fun type _ => ?_
      exact Contract.ensures_pure _ trivial

/-- An expansion at a depth is work with spellings up to that of its reference, when the types of
members are asked for at smaller depths. -/
theorem expandAt_advances
    (hdepth : 0 < depth)
    (hlower : ∀ ref length, (advancing depth length).Ensures (lower ref) (anyAnswer ref))
    (ref : TypeRef) :
    (advancing depth (ref.spelling.length + 1)).Ensures
      (TypeModel.expandAt scope (serve depth) lower leaf ref) (anyAnswer ref) := by
  obtain ⟨name, args, kind, dims⟩ := ref
  rw [TypeModel.expandAt, TypeModel.expandAllAt_eq_mapM]
  refine expandArray_advances hdepth ?_ dims
  refine serve_advances hdepth ?_
  split
  next hkind =>
    -- Type arguments are expanded to the same depth, but their spellings are shorter.
    have hargs : ∀ arg ∈ args,
        (advancing depth (TypeRef.mk name args kind 0).spelling.length).Ensures
          (TypeModel.expandAt scope (serve depth) lower leaf arg) (anyAnswer arg) := by
      intro arg harg
      have hshorter : arg.spelling.length < (TypeRef.mk name args kind 0).spelling.length :=
        TypeRef.length_spelling_arg harg
      exact advancing_mono (expandAt_advances hdepth hlower arg) (Or.inr ⟨rfl, hshorter⟩)
    subst hkind
    refine Contract.ensures_bind _ (Contract.ensures_mapM _ hargs) fun types htypes => ?_
    have hclass :
        (advancing depth (TypeRef.mk name args .reference 0).spelling.length).Ensures
          (TypeModel.ofClass scope lower leaf (fun _ => pure none) ⟨name, args, .reference, 0⟩
            types)
          (TypeModel.Expands scope anyAnswer anyAnswer (fun _ => (· = none))
            ⟨name, args, .reference, 0⟩) :=
      TypeModel.ofClass_ensures leaf_advances (fun _ _ ref _ => hlower ref _)
        (fun _ _ _ _ _ => Contract.ensures_pure _ rfl) htypes
    exact Contract.ensures_mono _ hclass fun _ _ => trivial
  next => exact Contract.ensures_pure _ trivial
termination_by ref

end OneDepth

/-- A request for a type is work with spellings up to that of its reference. -/
theorem typeOf_advances (scope : Scope) (depth : Nat) (ref : TypeRef) :
    (advancing depth (ref.spelling.length + 1)).Ensures (typeOf scope depth ref)
      (anyAnswer ref) := by
  induction depth generalizing ref with
  | zero => exact Contract.ensures_mono _ (leaf_advances ref) fun _ _ => trivial
  | succ depth ih =>
      refine expandAt_advances (Nat.succ_pos depth) ?_ ref
      intro ref length
      exact advancing_mono (ih ref) (Or.inl (Nat.lt_succ_self depth))

/-! ## Extractions and sequences of requests -/

/-- The contract of work up to a depth without extractions. -/
def growing (depth : Nat) : Contract Session :=
  .advancing (TypeCache.Grows depth 0) (.refl depth) .trans

theorem growing_of_advancing
    {shallow : Nat} {work : Session α} {post : α → Prop}
    (h : (advancing shallow length).Ensures work post) (hle : shallow ≤ depth) :
    (growing depth).Ensures work post := by
  intro cache
  obtain ⟨hpost, hadvances⟩ := h cache
  exact ⟨hpost, hadvances.toGrows.mono hle⟩

theorem extractSubject_grows (scope : Scope) (cache : TypeCache) :
    cache.Grows (subjectDepth scope) 1 ((extractSubject scope).run cache).2 := by
  obtain ⟨below, hdepth⟩ := exists_subjectDepth_eq scope
  have htypeOf (depth : Nat) (hle : depth ≤ below + 1) (ref : TypeRef) :
      (growing (below + 1)).Ensures (typeOf scope depth ref) (anyAnswer ref) :=
    growing_of_advancing (typeOf_advances scope depth ref) hle
  have hsubject :
      (growing (below + 1)).Ensures (TypeModel.ofSubject scope (typeOf scope) leaf below)
        (TypeModel.Expands scope anyAnswer anyAnswer (OwnBody scope fun _ => anyAnswer)
          scope.subject.ownType) := by
    apply TypeModel.ofSubject_ensures
    · exact fun ref => growing_of_advancing (@leaf_advances 0 0 ref) (Nat.zero_le _)
    · exact fun arg _ => htypeOf _ (Nat.le_refl _) arg
    · exact fun ref _ => htypeOf _ (Nat.le_succ _) ref
    · exact fun _ _ ref _ => htypeOf 1 (Nat.succ_le_succ (Nat.zero_le _)) ref
  obtain ⟨-, hgrows⟩ := hsubject cache.countMiss
  rw [extractSubject_eq, hdepth]
  exact hgrows.remember (Nat.succ_pos below) _

end Session

end Specwright
