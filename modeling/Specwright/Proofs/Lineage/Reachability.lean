import Mathlib.Data.List.Perm.Subperm
import Mathlib.Logic.Relation
import Specwright.Proofs.Lineage.Walk

/-!
# Cycles above a class

A class reaches the classes that it lists, those that they list, and so on.  A walk along a
hierarchy goes up a path of distinct classes of the snapshot, each of which reaches the next, so it
has room for as many steps as there are classes.  It therefore fails over a cycle and nothing else:
it names a class that the start reaches and that reaches itself, and when it succeeds there is no
such class.
-/

namespace Specwright

namespace Snapshot

/-- The supertypes that a class lists; none when the snapshot does not hold the class. -/
def supertypesOf (snapshot : Snapshot) (name : String) : List TypeRef :=
  ((snapshot.find? name).map (·.supertypes)).getD []

/-- Whether a class lists another one among its supertypes. -/
def Lists (snapshot : Snapshot) (child parent : String) : Prop :=
  ∃ supertype ∈ snapshot.supertypesOf child, supertype.name = parent

/-- Whether a class is another one or lies below it by any number of supertypes. -/
def Reaches (snapshot : Snapshot) : String → String → Prop :=
  Relation.ReflTransGen snapshot.Lists

/-- Whether a class reaches itself by at least one supertype. -/
def OnCycle (snapshot : Snapshot) (name : String) : Prop :=
  Relation.TransGen snapshot.Lists name name

/-- Whether a class reaches no class on a cycle. -/
def Acyclic (snapshot : Snapshot) (name : String) : Prop :=
  ∀ other, snapshot.Reaches name other → ¬snapshot.OnCycle other

variable {snapshot : Snapshot} {name other : String}

theorem mem_names_of_lists (h : snapshot.Lists name other) : name ∈ snapshot.names := by
  obtain ⟨supertype, hsupertype, -⟩ := h
  rw [supertypesOf] at hsupertype
  cases hfound : snapshot.find? name with
  | none =>
      rw [hfound] at hsupertype
      cases hsupertype
  | some decl =>
      rw [← name_of_find? hfound]
      exact List.mem_map_of_mem (mem_of_find? hfound)

theorem supertypesOf_eq {decl : ClassDecl} (h : snapshot.find? name = some decl) :
    snapshot.supertypesOf name = decl.supertypes := by
  rw [supertypesOf, h]
  rfl

/-- What holds of a class and passes to the classes that it lists holds of all that it reaches. -/
theorem passesUp_reaches (snapshot : Snapshot) (start : String) :
    snapshot.PassesUp fun name _ => snapshot.Reaches start name := by
  intro name bindings decl hstart hfound supertype hsupertype
  rw [← supertypesOf_eq hfound] at hsupertype
  exact hstart.tail ⟨supertype, hsupertype, rfl⟩

/-! ## Classes without a cycle above them -/

namespace Acyclic

theorem of_reaches (h : snapshot.Acyclic name) (hreaches : snapshot.Reaches name other) :
    snapshot.Acyclic other :=
  fun third hthird => h third (hreaches.trans hthird)

theorem of_lists (h : snapshot.Acyclic name) (hlists : snapshot.Lists name other) :
    snapshot.Acyclic other :=
  h.of_reaches (Relation.ReflTransGen.single hlists)

/-- No class above is below. -/
theorem not_reaches_of_transGen
    (h : snapshot.Acyclic name) (habove : Relation.TransGen snapshot.Lists other name) :
    ¬snapshot.Reaches name other := by
  intro hreaches
  exact h other hreaches (habove.trans_left hreaches)

theorem eq_of_reaches
    (h : snapshot.Acyclic name) (hup : snapshot.Reaches name other)
    (hdown : snapshot.Reaches other name) :
    name = other := by
  rcases Relation.reflTransGen_iff_eq_or_transGen.mp hdown with heq | hbelow
  · exact heq
  · exact absurd hup (h.not_reaches_of_transGen hbelow)

/-- A class on a cycle lists a class on the same cycle. -/
theorem of_forall_lists
    (h : ∀ supertype ∈ snapshot.supertypesOf name, snapshot.Acyclic supertype.name) :
    snapshot.Acyclic name := by
  intro other hreaches
  rcases Relation.ReflTransGen.cases_head hreaches with rfl | ⟨_, ⟨supertype, hmem, rfl⟩, hrest⟩
  · intro hcycle
    obtain ⟨_, ⟨supertype, hmem, rfl⟩, hback⟩ := Relation.TransGen.head'_iff.mp hcycle
    exact h supertype hmem name hback hcycle
  · exact h supertype hmem other hrest

end Acyclic

/-! ## Room for a walk -/

/-- Whether a walk that came up a path of classes to another class has room for the classes that are
not on the path. -/
structure Ascent
    (snapshot : Snapshot) (bound : Nat) (path : List String) (name : String) : Prop where
  distinct : path.Nodup
  known : ∀ other ∈ path, other ∈ snapshot.names
  below : ∀ other ∈ path, Relation.TransGen snapshot.Lists other name
  room : bound + path.length = snapshot.classes.length + 1

namespace Ascent

variable {bound : Nat} {path : List String}

theorem start (snapshot : Snapshot) (name : String) :
    snapshot.Ascent (snapshot.classes.length + 1) [] name :=
  ⟨List.nodup_nil, by simp, by simp, rfl⟩

/-- A path of distinct classes is no longer than the snapshot. -/
theorem bound_ne_zero (h : snapshot.Ascent bound path name) : bound ≠ 0 := by
  have hlength : path.length ≤ snapshot.names.length :=
    (List.subperm_of_subset h.distinct h.known).length_le
  have hroom := h.room
  rw [names, List.length_map] at hlength
  omega

theorem step
    (h : snapshot.Ascent (bound + 1) path name) (hnew : name ∉ path)
    (hlists : snapshot.Lists name other) :
    snapshot.Ascent bound (name :: path) other where
  distinct := List.nodup_cons.mpr ⟨hnew, h.distinct⟩
  known := List.forall_mem_cons.mpr ⟨mem_names_of_lists hlists, h.known⟩
  below := by
    refine List.forall_mem_cons.mpr ⟨Relation.TransGen.single hlists, ?_⟩
    intro third hthird
    exact (h.below third hthird).tail hlists
  room := by
    have hroom := h.room
    rw [List.length_cons]
    omega

theorem not_mem_of_acyclic
    (h : snapshot.Ascent bound path name) (hacyclic : snapshot.Acyclic name) : name ∉ path := by
  intro hmem
  exact hacyclic.not_reaches_of_transGen (h.below name hmem) Relation.ReflTransGen.refl

end Ascent

/-- What passes down from the classes that a class lists to the class itself holds of every class
without a cycle above it. -/
theorem Acyclic.induction
    {holds : String → Prop} (hname : snapshot.Acyclic name)
    (hstep : ∀ name, snapshot.Acyclic name →
      (∀ other, snapshot.Lists name other → holds other) → holds name) :
    holds name := by
  -- The room that is left decreases on the way up.
  suffices h : ∀ bound path name,
      snapshot.Ascent bound path name → snapshot.Acyclic name → holds name from
    h _ _ _ (.start snapshot name) hname
  intro bound
  induction bound with
  | zero =>
      intro path name hascent
      exact absurd rfl hascent.bound_ne_zero
  | succ bound ih =>
      intro path name hascent hacyclic
      refine hstep name hacyclic ?_
      intro other hlists
      have hnew := hascent.not_mem_of_acyclic hacyclic
      exact ih (name :: path) other (hascent.step hnew hlists) (hacyclic.of_lists hlists)

/-! ## How a walk ends -/

/-- A walk with room refuses a class of its path, passes over one that was found, and otherwise adds
the class and goes on with its supertypes. -/
theorem extendLineage_succ
    (bound : Nat) (path : List String) (found : List LineageEntry) (name : String)
    (bindings : Bindings) :
    snapshot.extendLineage (bound + 1) path found name bindings =
      if name ∈ path then .error (.cycle name)
      else if found.any (·.name = name) then .ok found
      else
        (snapshot.supertypesOf name).foldlM
          (fun found supertype =>
            snapshot.extendLineage bound (name :: path) found supertype.name
              (snapshot.superBindings bindings supertype))
          (found ++ [⟨name, bindings, (snapshot.find? name).isSome⟩]) := by
  rw [extendLineage, supertypesOf]
  cases snapshot.find? name <;> rfl

/-- Whether an error names a class on a cycle that is reached from the start. -/
def CycleAbove (snapshot : Snapshot) (start : String) : LineageError → Prop
  | .cycle other => snapshot.Reaches start other ∧ snapshot.OnCycle other

/-- The classes found by a walk are on its path or have no cycle above them. -/
def Settled (snapshot : Snapshot) (path : List String) (found : List LineageEntry) : Prop :=
  ∀ entry ∈ found, entry.name ∈ path ∨ snapshot.Acyclic entry.name

/-- A walk ends in classes without a cycle above them, its own path aside, or over a cycle. -/
theorem extendLineage_outcome
    {start : String} {bound : Nat} {path : List String} {found : List LineageEntry}
    {bindings : Bindings} (hascent : snapshot.Ascent bound path name)
    (hstart : snapshot.Reaches start name) (hfound : snapshot.Settled path found) :
    (Contract.ofOutcome (snapshot.CycleAbove start)).Ensures
      (snapshot.extendLineage bound path found name bindings)
      fun chain => snapshot.Settled path chain ∧ snapshot.Acyclic name := by
  induction bound generalizing path found name bindings with
  | zero => exact absurd rfl hascent.bound_ne_zero
  | succ bound ih =>
      rw [extendLineage_succ]
      by_cases hpath : name ∈ path
      · rw [if_pos hpath]
        exact ⟨hstart, hascent.below name hpath⟩
      · rw [if_neg hpath]
        split
        next htaken =>
          obtain ⟨entry, hentry, rfl⟩ : ∃ entry ∈ found, entry.name = name := by
            simpa using htaken
          exact ⟨hfound, (hfound entry hentry).resolve_left hpath⟩
        next =>
          -- The class is on the path of the walks that follow, and off it once they are done.
          have hadded : snapshot.Settled (name :: path)
              (found ++ [⟨name, bindings, (snapshot.find? name).isSome⟩]) := by
            refine List.forall_mem_append.mpr ⟨?_, by simp⟩
            intro entry hentry
            exact (hfound entry hentry).imp_left (List.mem_cons_of_mem _)
          have hsupertype : ∀ chain, ∀ supertype ∈ snapshot.supertypesOf name,
              snapshot.Settled (name :: path) chain →
                (Contract.ofOutcome (snapshot.CycleAbove start)).Ensures
                  (snapshot.extendLineage bound (name :: path) chain supertype.name
                    (snapshot.superBindings bindings supertype))
                  fun chain =>
                    snapshot.Settled (name :: path) chain ∧ snapshot.Acyclic supertype.name := by
            intro chain supertype hmem hchain
            have hlists : snapshot.Lists name supertype.name := ⟨supertype, hmem, rfl⟩
            exact ih (hascent.step hpath hlists) (hstart.tail hlists) hchain
          have hsupers := Contract.ensures_foldlM_forall _ hadded hsupertype
          refine Contract.ensures_mono _ hsupers ?_
          rintro chain ⟨hchain, habove⟩
          have hacyclic := Acyclic.of_forall_lists habove
          refine ⟨?_, hacyclic⟩
          intro entry hentry
          rcases hchain entry hentry with hmem | hsettled
          · rcases List.mem_cons.mp hmem with heq | hold
            · exact Or.inr (heq ▸ hacyclic)
            · exact Or.inl hold
          · exact Or.inr hsettled

theorem linearize_outcome (snapshot : Snapshot) (name : String) :
    (Contract.ofOutcome (snapshot.CycleAbove name)).Ensures (snapshot.linearize name)
      fun _ => snapshot.Acyclic name := by
  have hnone : snapshot.Settled [] [] := by simp [Settled]
  have hwalk :
      (Contract.ofOutcome (snapshot.CycleAbove name)).Ensures (snapshot.linearize name) _ :=
    extendLineage_outcome (.start snapshot name) Relation.ReflTransGen.refl hnone
  exact Contract.ensures_mono _ hwalk fun _ h => h.2

theorem acyclic_of_linearize
    {chain : List LineageEntry} (h : snapshot.linearize name = .ok chain) :
    snapshot.Acyclic name := by
  have houtcome := linearize_outcome snapshot name
  rw [h] at houtcome
  exact houtcome

theorem cycleAbove_of_linearize
    {cause : LineageError} (h : snapshot.linearize name = .error cause) :
    snapshot.CycleAbove name cause := by
  have houtcome := linearize_outcome snapshot name
  rw [h] at houtcome
  exact houtcome

theorem Acyclic.exists_linearize (h : snapshot.Acyclic name) :
    ∃ chain, snapshot.linearize name = .ok chain := by
  cases hchain : snapshot.linearize name with
  | ok chain => exact ⟨chain, rfl⟩
  | error cause =>
      obtain ⟨hreaches, hcycle⟩ := cycleAbove_of_linearize hchain
      exact absurd hcycle (h _ hreaches)

end Snapshot

end Specwright
