import Mathlib.Tactic.Set
import Mathlib.Tactic.Tauto
import Specwright.Distinct
import Specwright.Proofs.Lineage.Reachability

/-!
# The order of a linearization

Without a cycle above a class its linearization can be read off those of its supertypes: it is the
class and, behind it, what the supertypes list one after the other, each class once.  A walk skips a
class that was found before, and nothing is lost by that as everything above the class was found
with it.  This is what `ClosedOff` says of the classes found, those on the path of the walk aside.
-/

namespace Specwright

namespace Snapshot

/-- The names in the linearization of a class, in their order. -/
def lineageNames (snapshot : Snapshot) (name : String) : List String :=
  (snapshot.lineage name).map (·.name)

/-- The names that the supertypes of a class list, one supertype after the other. -/
def namesOfSupers (snapshot : Snapshot) (supertypes : List TypeRef) : List String :=
  supertypes.flatMap fun supertype => snapshot.lineageNames supertype.name

/-- Whether names come with all names that they list, unless they are on the path. -/
def ClosedOff (snapshot : Snapshot) (path names : List String) : Prop :=
  ∀ name ∈ names, name ∉ path → ∀ other, snapshot.Lists name other → other ∈ names

variable {snapshot : Snapshot} {name other : String}

theorem lineageNames_of_linearize
    {chain : List LineageEntry} (h : snapshot.linearize name = .ok chain) :
    snapshot.lineageNames name = chain.map (·.name) := by
  rw [lineageNames, lineage, h]

theorem reaches_of_mem_lineageNames (h : other ∈ snapshot.lineageNames name) :
    snapshot.Reaches name other := by
  obtain ⟨entry, hentry, rfl⟩ := List.mem_map.mp h
  exact seen_of_mem_lineage (snapshot.passesUp_reaches name) Relation.ReflTransGen.refl hentry

theorem mem_namesOfSupers_iff
    {supertypes : List TypeRef} :
    other ∈ snapshot.namesOfSupers supertypes ↔
      ∃ supertype ∈ supertypes, other ∈ snapshot.lineageNames supertype.name :=
  List.mem_flatMap

theorem mem_append_new_iff
    {names more : List String} :
    name ∈ names ++ more.filter (· ∉ names) ↔ name ∈ names ∨ name ∈ more := by
  rw [List.mem_append, List.mem_filter]
  simp only [decide_not, Bool.not_eq_true', decide_eq_false_iff_not]
  tauto

theorem not_mem_append_new_iff
    {names more : List String} :
    name ∉ names ++ more.filter (· ∉ names) ↔ name ∉ names ∧ name ∉ more := by
  rw [mem_append_new_iff, not_or]

/-- A class that was found has everything above it found, when nothing above it is on the path. -/
theorem ClosedOff.mem_of_reaches
    {path names : List String} (h : snapshot.ClosedOff path names) (hname : name ∈ names)
    (hpath : ∀ third ∈ path, ¬snapshot.Reaches name third)
    (hreaches : snapshot.Reaches name other) :
    other ∈ names := by
  induction hreaches with
  | refl => exact hname
  | @tail below above hbelow hlists ih =>
      have hoff : below ∉ path := fun hmem => hpath below hmem hbelow
      exact h below ih hoff above hlists

/-- A class that goes on the path may be found before what is above it. -/
theorem ClosedOff.add
    {path names : List String} (h : snapshot.ClosedOff path names) (name : String) :
    snapshot.ClosedOff (name :: path) (names ++ [name]) := by
  intro third hthird hoff other hlists
  obtain ⟨hne, hoff⟩ := List.ne_and_not_mem_of_not_mem_cons hoff
  rcases List.mem_append.mp hthird with hold | hself
  · exact List.mem_append_left _ (h third hold hoff other hlists)
  · exact absurd (List.mem_singleton.mp hself) hne

/-! ## Walks that add a linearization -/

/-- Whether a walk to a class adds the linearization of the class as far as it is new, which lists
exactly the classes that are reached. -/
structure Walked (snapshot : Snapshot) (name : String) : Prop where
  adds (bound : Nat) (path : List String) (found : List LineageEntry) (bindings : Bindings) :
    snapshot.Ascent bound path name → snapshot.ClosedOff path (found.map (·.name)) →
      ∃ chain, snapshot.extendLineage bound path found name bindings = .ok chain ∧
        chain.map (·.name) =
          found.map (·.name) ++ (snapshot.lineageNames name).filter (· ∉ found.map (·.name))
  mem_iff (other : String) : other ∈ snapshot.lineageNames name ↔ snapshot.Reaches name other

theorem Walked.closedOff
    {path names : List String} (h : snapshot.Walked name)
    (hclosed : snapshot.ClosedOff path names) :
    snapshot.ClosedOff path (names ++ (snapshot.lineageNames name).filter (· ∉ names)) := by
  intro third hthird hoff other hlists
  have hmem : other ∈ names ∨ other ∈ snapshot.lineageNames name := by
    rcases List.mem_append.mp hthird with hold | hadded
    · exact Or.inl (hclosed third hold hoff other hlists)
    · have hreaches := (h.mem_iff third).mp (List.mem_filter.mp hadded).1
      exact Or.inr ((h.mem_iff other).mpr (hreaches.tail hlists))
  by_cases hold : other ∈ names
  · exact List.mem_append_left _ hold
  · refine List.mem_append_right _ (List.mem_filter.mpr ⟨hmem.resolve_left hold, ?_⟩)
    simpa using hold

theorem nodup_lineageNames (snapshot : Snapshot) (name : String) :
    (snapshot.lineageNames name).Nodup := by
  cases hchain : snapshot.linearize name with
  | ok chain =>
      rw [lineageNames_of_linearize hchain]
      exact nodup_names_linearize hchain
  | error cause => simp [lineageNames, lineage, hchain]

/-- Walks to several supertypes add what these list, each class once. -/
theorem foldlM_adds
    {bound : Nat} {path : List String} {bindings : Bindings} {supertypes : List TypeRef}
    (hwalked : ∀ supertype ∈ supertypes, snapshot.Walked supertype.name)
    (hascent : ∀ supertype ∈ supertypes, snapshot.Ascent bound path supertype.name)
    (found : List LineageEntry) (hclosed : snapshot.ClosedOff path (found.map (·.name))) :
    ∃ chain,
      supertypes.foldlM
          (fun found supertype =>
            snapshot.extendLineage bound path found supertype.name
              (snapshot.superBindings bindings supertype))
          found = .ok chain ∧
        chain.map (·.name) =
          found.map (·.name) ++
            (distinct (snapshot.namesOfSupers supertypes)).filter
              (· ∉ found.map (·.name)) := by
  induction supertypes generalizing found with
  | nil => exact ⟨found, rfl, by simp [namesOfSupers, distinct, distinctBy]⟩
  | cons first rest ih =>
      obtain ⟨hwalkedFirst, hwalkedRest⟩ := List.forall_mem_cons.mp hwalked
      obtain ⟨hascentFirst, hascentRest⟩ := List.forall_mem_cons.mp hascent
      obtain ⟨middle, hmiddle, hadded⟩ :=
        hwalkedFirst.adds bound path found (snapshot.superBindings bindings first) hascentFirst
          hclosed
      have hclosedMiddle : snapshot.ClosedOff path (middle.map (·.name)) := by
        rw [hadded]
        exact hwalkedFirst.closedOff hclosed
      obtain ⟨chain, hchain, hrest⟩ := ih hwalkedRest hascentRest middle hclosedMiddle
      refine ⟨chain, ?_, ?_⟩
      · rw [List.foldlM_cons, hmiddle]
        exact hchain
      · -- What the rest adds is new to the classes found and to those of the first supertype.
        have hkept : ∀ name, decide (name ∉ middle.map (·.name)) =
            (decide (name ∉ found.map (·.name)) &&
              decide (name ∉ snapshot.lineageNames first.name)) := by
          intro name
          rw [hadded, ← Bool.decide_and, decide_eq_decide]
          exact not_mem_append_new_iff
        have hnames : snapshot.namesOfSupers (first :: rest) =
            snapshot.lineageNames first.name ++ snapshot.namesOfSupers rest := rfl
        rw [hrest, hnames, distinct_append (snapshot.nodup_lineageNames first.name),
          List.filter_append, List.filter_filter]
        simp only [hkept]
        rw [hadded, List.append_assoc]

/-- A walk to a class that is new adds the class and then what its supertypes list. -/
theorem extendLineage_of_new
    {bound : Nat} {path : List String} {found : List LineageEntry}
    (hacyclic : snapshot.Acyclic name)
    (hwalked : ∀ other, snapshot.Lists name other → snapshot.Walked other)
    (hascent : snapshot.Ascent (bound + 1) path name)
    (hclosed : snapshot.ClosedOff path (found.map (·.name)))
    (hnew : name ∉ found.map (·.name)) (bindings : Bindings) :
    ∃ chain, snapshot.extendLineage (bound + 1) path found name bindings = .ok chain ∧
      chain.map (·.name) =
        found.map (·.name) ++ name ::
          (distinct (snapshot.namesOfSupers (snapshot.supertypesOf name))).filter
            (· ∉ found.map (·.name)) := by
  have hpath := hascent.not_mem_of_acyclic hacyclic
  have hnone : ¬found.any (·.name = name) = true := by simpa using hnew
  have hlists : ∀ supertype ∈ snapshot.supertypesOf name, snapshot.Lists name supertype.name :=
    fun supertype hmem => ⟨supertype, hmem, rfl⟩
  set entry : LineageEntry := ⟨name, bindings, (snapshot.find? name).isSome⟩ with hentry
  have hclosedAdded : snapshot.ClosedOff (name :: path) ((found ++ [entry]).map (·.name)) := by
    rw [List.map_append]
    exact hclosed.add name
  obtain ⟨chain, hchain, hnames⟩ :=
    foldlM_adds (fun supertype hmem => hwalked _ (hlists supertype hmem))
      (fun supertype hmem => hascent.step hpath (hlists supertype hmem)) _ hclosedAdded
  refine ⟨chain, ?_, ?_⟩
  · rw [extendLineage_succ, if_neg hpath, if_neg hnone]
    exact hchain
  · -- The class itself is not among what its supertypes list.
    have hkept : ∀ third ∈ distinct (snapshot.namesOfSupers (snapshot.supertypesOf name)),
        decide (third ∉ (found ++ [entry]).map (·.name)) =
          decide (third ∉ found.map (·.name)) := by
      intro third hthird
      obtain ⟨supertype, hmem, hlisted⟩ := mem_namesOfSupers_iff.mp (mem_distinct.mp hthird)
      have hne : third ≠ name := by
        rintro rfl
        exact hacyclic.not_reaches_of_transGen
          (Relation.TransGen.head' (hlists supertype hmem) (reaches_of_mem_lineageNames hlisted))
          Relation.ReflTransGen.refl
      simp [hentry, hne]
    rw [hnames, List.filter_congr hkept]
    simp [hentry]

theorem lineageNames_eq_of_walked
    (hacyclic : snapshot.Acyclic name)
    (hwalked : ∀ other, snapshot.Lists name other → snapshot.Walked other) :
    snapshot.lineageNames name =
      name :: distinct (snapshot.namesOfSupers (snapshot.supertypesOf name)) := by
  have hclosed : snapshot.ClosedOff [] (([] : List LineageEntry).map (·.name)) := by
    simp [ClosedOff]
  obtain ⟨chain, hchain, hnames⟩ :=
    extendLineage_of_new hacyclic hwalked (.start snapshot name) hclosed (by simp) .empty
  rw [lineageNames_of_linearize hchain, hnames]
  simp

/-- Walks to a class without a cycle above it add its linearization. -/
theorem Acyclic.walked (h : snapshot.Acyclic name) : snapshot.Walked name := by
  refine h.induction ?_
  intro name hacyclic hwalked
  have hnames := lineageNames_eq_of_walked hacyclic hwalked
  have hmem : ∀ other, other ∈ snapshot.lineageNames name ↔ snapshot.Reaches name other := by
    intro other
    constructor
    · exact reaches_of_mem_lineageNames
    · intro hreaches
      rw [hnames, List.mem_cons, mem_distinct, mem_namesOfSupers_iff]
      rcases Relation.ReflTransGen.cases_head hreaches with rfl | ⟨_, hlists, hrest⟩
      · exact Or.inl rfl
      · obtain ⟨supertype, hsupertype, rfl⟩ := id hlists
        exact Or.inr ⟨supertype, hsupertype, ((hwalked _ hlists).mem_iff other).mpr hrest⟩
  refine ⟨?_, hmem⟩
  intro bound path found bindings hascent hclosed
  obtain ⟨bound, rfl⟩ := Nat.exists_eq_succ_of_ne_zero hascent.bound_ne_zero
  by_cases hold : name ∈ found.map (·.name)
  · -- The class was found before, and with it all that its linearization lists.
    have hpath := hascent.not_mem_of_acyclic hacyclic
    have hsome : found.any (·.name = name) = true := by simpa using hold
    refine ⟨found, ?_, ?_⟩
    · rw [extendLineage_succ, if_neg hpath, if_pos hsome]
    · have hall : ∀ other ∈ snapshot.lineageNames name, other ∈ found.map (·.name) := by
        intro other hother
        refine hclosed.mem_of_reaches hold ?_ ((hmem other).mp hother)
        intro third hthird
        exact hacyclic.not_reaches_of_transGen (hascent.below third hthird)
      rw [List.filter_eq_nil_iff.mpr (by simpa using hall), List.append_nil]
  · obtain ⟨chain, hchain, hadded⟩ :=
      extendLineage_of_new hacyclic hwalked hascent hclosed hold bindings
    refine ⟨chain, hchain, ?_⟩
    rw [hadded, hnames, List.filter_cons_of_pos (by simpa using hold)]

/-! ## Linearizations -/

/-- The linearization of a class lists the class and then, each class once, what the linearizations
of its supertypes list one after the other. -/
theorem Acyclic.lineageNames_eq (h : snapshot.Acyclic name) :
    snapshot.lineageNames name =
      name :: distinct (snapshot.namesOfSupers (snapshot.supertypesOf name)) :=
  lineageNames_eq_of_walked h fun _ hlists => (h.of_lists hlists).walked

theorem Acyclic.mem_lineageNames_iff (h : snapshot.Acyclic name) :
    other ∈ snapshot.lineageNames name ↔ snapshot.Reaches name other :=
  h.walked.mem_iff other

/-- A class has a linearization exactly when it reaches no class on a cycle, and an error names such
a class.  The linearization lists the class and then, each class once, what those of its supertypes
list: exactly the classes that are reached, which are known when the snapshot holds them. -/
theorem linearize_exact (snapshot : Snapshot) (name : String) :
    ((∃ cause, snapshot.linearize name = .error cause) ↔
      ∃ other, snapshot.Reaches name other ∧ snapshot.OnCycle other) ∧
    (∀ other, snapshot.linearize name = .error (.cycle other) →
      snapshot.Reaches name other ∧ snapshot.OnCycle other) ∧
    ∀ chain, snapshot.linearize name = .ok chain →
      (∀ supertype ∈ snapshot.supertypesOf name,
        ∃ above, snapshot.linearize supertype.name = .ok above) ∧
      chain.map (·.name) =
        name :: distinct (snapshot.namesOfSupers (snapshot.supertypesOf name)) ∧
      (chain.map (·.name)).Nodup ∧
      (∀ other, other ∈ chain.map (·.name) ↔ snapshot.Reaches name other) ∧
      ∀ entry ∈ chain, entry.known = true ↔ entry.name ∈ snapshot.names := by
  refine ⟨⟨?_, ?_⟩, fun other h => cycleAbove_of_linearize h, ?_⟩
  · rintro ⟨cause, hcause⟩
    cases cause with
    | cycle other => exact ⟨other, cycleAbove_of_linearize hcause⟩
  · rintro ⟨other, hreaches, hcycle⟩
    cases hchain : snapshot.linearize name with
    | error cause => exact ⟨cause, rfl⟩
    | ok chain => exact absurd hcycle (acyclic_of_linearize hchain other hreaches)
  · intro chain hchain
    have hacyclic := acyclic_of_linearize hchain
    rw [← lineageNames_of_linearize hchain]
    refine ⟨?_, hacyclic.lineageNames_eq, snapshot.nodup_lineageNames name, ?_, ?_⟩
    · intro supertype hsupertype
      exact (hacyclic.of_lists ⟨supertype, hsupertype, rfl⟩).exists_linearize
    · intro other
      exact hacyclic.mem_lineageNames_iff
    · intro entry hentry
      rw [known_of_mem_linearize hchain hentry, isSome_find?_iff]

end Snapshot

end Specwright
