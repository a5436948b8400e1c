import Mathlib.Data.List.Nodup
import Specwright.Lineage.Linearization
import Specwright.Proofs.Contract

/-!
# Walking a hierarchy

A linearization grows by one entry at a time, and each entry is reached from a class that lists it.
What every new entry keeps therefore holds of a whole linearization: it starts with its class and
lists no class twice, and every entry has what passes from classes to their supertypes.
-/

namespace Specwright

namespace Snapshot

variable {snapshot : Snapshot} {name : String}

theorem mem_of_find? {decl : ClassDecl} (h : snapshot.find? name = some decl) :
    decl ∈ snapshot.classes :=
  List.mem_of_find?_eq_some h

theorem find?_of_mem {decl : ClassDecl} (h : decl ∈ snapshot.classes) :
    snapshot.find? decl.name = some decl := by
  have hnodup : (snapshot.classes.map (·.name)).Nodup := by
    refine List.pairwise_map.mpr (snapshot.sorted.imp ?_)
    intro first second hbefore hname
    rw [ClassDecl.Before, hname] at hbefore
    exact String.lt_irrefl second.name hbefore
  exact (find?_key_eq_some_iff hnodup).mpr h

/-! ## The steps of a linearization -/

/-- What a property of names and bindings has to satisfy to hold all the way up: it passes from a
class to the supertypes that the class lists. -/
def PassesUp (snapshot : Snapshot) (seen : String → Bindings → Prop) : Prop :=
  ∀ name bindings decl, seen name bindings → snapshot.find? name = some decl →
    ∀ supertype ∈ decl.supertypes,
      seen supertype.name (snapshot.superBindings bindings supertype)

/-- What a property of lists of entries has to satisfy to hold of a linearization: an entry that is
not in the list yet can be added. -/
def AdmitsEntries
    (snapshot : Snapshot) (seen : String → Bindings → Prop)
    (keeps : List LineageEntry → Prop) : Prop :=
  ∀ found name bindings, keeps found → seen name bindings → (∀ entry ∈ found, entry.name ≠ name) →
    keeps (found ++ [⟨name, bindings, (snapshot.find? name).isSome⟩])

variable {seen : String → Bindings → Prop} {keeps : List LineageEntry → Prop}

/-- Adding a class and all above it keeps what every new entry keeps. -/
theorem extendLineage_ensures
    (hup : snapshot.PassesUp seen) (hadmits : snapshot.AdmitsEntries seen keeps)
    (bound : Nat) (path : List String) (found : List LineageEntry) (name : String)
    (bindings : Bindings) (hseen : seen name bindings) (hkeeps : keeps found) :
    (Contract.ofSuccess LineageError).Ensures
      (snapshot.extendLineage bound path found name bindings) keeps := by
  -- Without a bound left the walk fails, and a failed walk promises nothing.
  induction bound generalizing path found name bindings with
  | zero =>
      rintro chain ⟨⟩
  | succ bound ih =>
      rw [extendLineage]
      split
      · rintro chain ⟨⟩
      · split
        · rintro chain ⟨⟩
          exact hkeeps
        next hnew =>
          have hnew' : ∀ entry ∈ found, entry.name ≠ name := by simpa using hnew
          have hadmitted := hadmits found name bindings hkeeps hseen hnew'
          split
          next hmissing =>
            rintro chain ⟨⟩
            rwa [hmissing] at hadmitted
          next decl hfound =>
            rw [hfound] at hadmitted
            refine Contract.ensures_foldlM _ hadmitted ?_
            intro chain supertype hsupertype hchain
            exact ih _ chain supertype.name _ (hup name bindings decl hseen hfound _ hsupertype)
              hchain

/-- A linearization has what the entry of its class alone has and what every new entry keeps. -/
theorem linearize_keeps
    {chain : List LineageEntry}
    (hup : snapshot.PassesUp seen) (hadmits : snapshot.AdmitsEntries seen keeps)
    (hseen : seen name .empty)
    (hfirst : keeps [⟨name, .empty, (snapshot.find? name).isSome⟩])
    (h : snapshot.linearize name = .ok chain) :
    keeps chain := by
  rw [linearize, extendLineage] at h
  simp only [List.not_mem_nil, if_false, List.any_nil, Bool.false_eq_true, List.nil_append] at h
  split at h
  next hmissing =>
    cases h
    rwa [hmissing] at hfirst
  next decl hfound =>
    rw [hfound] at hfirst
    refine Contract.ensures_foldlM (.ofSuccess LineageError) hfirst ?_ chain h
    intro chain supertype hsupertype hchain
    exact extendLineage_ensures hup hadmits _ _ chain supertype.name _
      (hup name .empty decl hseen hfound _ hsupertype) hchain

/-- Every entry of a linearization has what passes up from its class. -/
theorem seen_of_mem_lineage
    {entry : LineageEntry} (hup : snapshot.PassesUp seen) (hseen : seen name .empty)
    (h : entry ∈ snapshot.lineage name) :
    seen entry.name entry.bindings := by
  rw [lineage] at h
  split at h
  next chain hchain =>
    have hadmits : snapshot.AdmitsEntries seen
        fun found => ∀ entry ∈ found, seen entry.name entry.bindings := by
      intro found name bindings hfound hname _
      exact List.forall_mem_append.mpr ⟨hfound, by simpa using hname⟩
    exact linearize_keeps hup hadmits hseen (by simpa using hseen) hchain entry h
  next => cases h

private theorem passesUp_trivially : snapshot.PassesUp fun _ _ => True :=
  fun _ _ _ _ _ _ _ => trivial

theorem linearize_eq_cons
    {chain : List LineageEntry} (h : snapshot.linearize name = .ok chain) :
    ∃ above, chain = ⟨name, .empty, (snapshot.find? name).isSome⟩ :: above := by
  have hadmits : snapshot.AdmitsEntries (fun _ _ => True)
      fun found => ∃ above, found = ⟨name, .empty, (snapshot.find? name).isSome⟩ :: above := by
    rintro _ name bindings ⟨above, rfl⟩ - -
    exact ⟨above ++ [⟨name, bindings, (snapshot.find? name).isSome⟩], rfl⟩
  exact linearize_keeps passesUp_trivially hadmits trivial ⟨[], rfl⟩ h

theorem nodup_names_linearize
    {chain : List LineageEntry} (h : snapshot.linearize name = .ok chain) :
    (chain.map (·.name)).Nodup := by
  have hadmits : snapshot.AdmitsEntries (fun _ _ => True)
      fun found => (found.map (·.name)).Nodup := by
    intro found name bindings hfound _ hnew
    rw [List.map_append, List.map_singleton]
    refine List.Nodup.append hfound (List.nodup_singleton _) ?_
    intro other hother hname
    obtain ⟨entry, hentry, rfl⟩ := List.mem_map.mp hother
    exact hnew entry hentry (by simpa using hname)
  exact linearize_keeps passesUp_trivially hadmits trivial (by simp) h

/-- An entry is known exactly when the snapshot holds its class. -/
theorem known_of_mem_linearize
    {chain : List LineageEntry} {entry : LineageEntry}
    (h : snapshot.linearize name = .ok chain) (hentry : entry ∈ chain) :
    entry.known = (snapshot.find? entry.name).isSome := by
  have hadmits : snapshot.AdmitsEntries (fun _ _ => True)
      fun found => ∀ entry ∈ found, entry.known = (snapshot.find? entry.name).isSome := by
    intro found name bindings hfound _ _
    exact List.forall_mem_append.mpr ⟨hfound, by simp⟩
  exact linearize_keeps passesUp_trivially hadmits trivial (by simp) h entry hentry

theorem isSome_find?_iff : (snapshot.find? name).isSome = true ↔ name ∈ snapshot.names := by
  rw [find?, List.find?_isSome, names, List.mem_map]
  simp

end Snapshot

end Specwright
