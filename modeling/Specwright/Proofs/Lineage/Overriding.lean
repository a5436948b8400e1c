import Mathlib.Data.Set.Finite.Lemmas
import Specwright.Lineage.Lookup
import Specwright.Lineage.Override
import Specwright.Proofs.Lineage.Order

/-!
# The nearest concrete declaration

A declaration is overridden by the concrete declarations of its signature on classes below its own.
Without a cycle a class below another one reaches strictly more classes, so among the concrete
declarations of a signature those on a class that reaches the most are not overridden.
-/

namespace Specwright

namespace Snapshot

/-- The concrete declarations of a signature that a class sees, where parameters are compared by
their texts under the bindings of each declaration. -/
def concreteMethods (snapshot : Snapshot) (source name : String) (texts : List String) :
    List VisibleMethod :=
  (snapshot.visibleMethods source name).filter fun visible =>
    visible.method.isConcrete && visible.method.paramSpellingsUnder visible.bindings = texts

/-- Whether a method that a class sees is replaced by a concrete one with its name and parameter
types that is declared on a class below its own. -/
def IsReplacedBy (snapshot : Snapshot) (source : String) (visible winner : VisibleMethod) : Prop :=
  winner ∈ snapshot.concreteMethods source visible.method.name
      (visible.method.paramSpellingsUnder visible.bindings) ∧
    winner.owner.name ≠ visible.owner.name ∧
      snapshot.liesUnder winner.owner.name visible.owner.name = true

/-- Whether a class below that of a declaration has a concrete declaration of the same signature. -/
def IsReplacedFrom (snapshot : Snapshot) (source : String) (visible : VisibleMethod) : Prop :=
  ∃ winner, snapshot.IsReplacedBy source visible winner

variable {snapshot : Snapshot} {source name other : String} {texts : List String}

/-! ## Classes below others -/

theorem Acyclic.liesUnder_iff (h : snapshot.Acyclic name) :
    snapshot.liesUnder name other = true ↔ snapshot.Reaches name other := by
  have habove : snapshot.namesAbove name = (snapshot.lineageNames name).tail := List.map_tail
  rw [← h.mem_lineageNames_iff, liesUnder, habove, h.lineageNames_eq, List.tail_cons,
    List.mem_cons, Bool.or_eq_true, decide_eq_true_iff, decide_eq_true_iff, eq_comm]

/-- A class below another one reaches strictly more classes. -/
theorem Acyclic.length_lineageNames_lt
    (h : snapshot.Acyclic name) (hreaches : snapshot.Reaches name other) (hne : name ≠ other) :
    (snapshot.lineageNames other).length < (snapshot.lineageNames name).length := by
  have habove := h.of_reaches hreaches
  have hnew : name ∉ snapshot.lineageNames other := by
    intro hmem
    exact hne (h.eq_of_reaches hreaches (habove.mem_lineageNames_iff.mp hmem))
  have hnodup : (name :: snapshot.lineageNames other).Nodup :=
    List.nodup_cons.mpr ⟨hnew, snapshot.nodup_lineageNames other⟩
  have hsubset : name :: snapshot.lineageNames other ⊆ snapshot.lineageNames name := by
    intro third hthird
    rw [h.mem_lineageNames_iff]
    rcases List.mem_cons.mp hthird with rfl | hmem
    · exact Relation.ReflTransGen.refl
    · exact hreaches.trans (habove.mem_lineageNames_iff.mp hmem)
  exact (List.subperm_of_subset hnodup hsubset).length_le

/-! ## Visible declarations -/

theorem find?_lineage
    {entry : LineageEntry} (h : entry ∈ snapshot.lineage source) :
    (snapshot.lineage source).find? (·.name = entry.name) = some entry :=
  (find?_key_eq_some_iff (snapshot.nodup_lineageNames source)).mpr h

theorem mem_visibleMethods_iff
    {visible : VisibleMethod} :
    visible ∈ snapshot.visibleMethods source name ↔
      ∃ entry ∈ snapshot.lineage source,
        snapshot.find? entry.name = some visible.owner ∧
          visible.method ∈ visible.owner.methods ∧ visible.method.name = name ∧
            visible.bindings = entry.bindings := by
  rw [visibleMethods, List.mem_flatMap]
  refine exists_congr fun entry => and_congr_right fun _ => ?_
  rw [methodsOfAncestor]
  cases hfound : snapshot.find? entry.name with
  | none => simp
  | some decl =>
      constructor
      · intro hmem
        obtain ⟨method, hmethod, rfl⟩ := List.mem_map.mp hmem
        obtain ⟨hmethod, hname⟩ := List.mem_filter.mp hmethod
        exact ⟨rfl, hmethod, by simpa using hname, rfl⟩
      · obtain ⟨⟨owner, method⟩, bindings⟩ := visible
        rintro ⟨howner, hmethod, hname, hbindings⟩
        cases howner
        cases hbindings
        exact List.mem_map.mpr ⟨method, List.mem_filter.mpr ⟨hmethod, by simpa using hname⟩, rfl⟩

theorem mem_concreteMethods_iff
    {visible : VisibleMethod} :
    visible ∈ snapshot.concreteMethods source name texts ↔
      visible ∈ snapshot.visibleMethods source name ∧ visible.method.isConcrete = true ∧
        visible.method.paramSpellingsUnder visible.bindings = texts := by
  rw [concreteMethods, List.mem_filter, Bool.and_eq_true, decide_eq_true_iff]

theorem reaches_of_mem_visibleMethods
    {visible : VisibleMethod} (h : visible ∈ snapshot.visibleMethods source name) :
    snapshot.Reaches source visible.owner.name := by
  obtain ⟨entry, hentry, hfound, -⟩ := mem_visibleMethods_iff.mp h
  rw [name_of_find? hfound]
  exact reaches_of_mem_lineageNames (List.mem_map_of_mem hentry)

theorem find?_lineage_of_mem_visibleMethods
    {visible : VisibleMethod} (h : visible ∈ snapshot.visibleMethods source name) :
    ∃ entry, (snapshot.lineage source).find? (·.name = visible.owner.name) = some entry ∧
      entry.bindings = visible.bindings := by
  obtain ⟨entry, hentry, hfound, -, -, hbindings⟩ := mem_visibleMethods_iff.mp h
  rw [name_of_find? hfound]
  exact ⟨entry, find?_lineage hentry, hbindings.symm⟩

/-! ## Overridden declarations -/

/-- A declaration is overridden as seen from a class exactly when a class below that of the
declaration has a concrete declaration of the same signature. -/
theorem Acyclic.isOverriddenFrom_iff
    {visible : VisibleMethod} (h : snapshot.Acyclic source)
    (hvisible : visible ∈ snapshot.visibleMethods source visible.method.name) :
    snapshot.isOverriddenFrom source visible.owner.name visible.method = true ↔
      snapshot.IsReplacedFrom source visible := by
  obtain ⟨entry, hentry, hbindings⟩ := find?_lineage_of_mem_visibleMethods hvisible
  rw [isOverriddenFrom]
  split
  next hself =>
    -- Nothing that the class sees lies below the class itself.
    simp only [Bool.false_eq_true, false_iff]
    rintro ⟨winner, hwinner, hne, hunder⟩
    have hreaches := reaches_of_mem_visibleMethods (mem_concreteMethods_iff.mp hwinner).1
    have hback := (h.of_reaches hreaches).liesUnder_iff.mp hunder
    rw [← hself] at hne hback
    exact hne (h.eq_of_reaches hreaches hback).symm
  next =>
    simp only [hentry, hbindings, List.any_eq_true]
    constructor
    · rintro ⟨ancestor, hancestor, hreplaces⟩
      simp only [Bool.and_eq_true, decide_eq_true_iff, Option.any_eq_true, List.any_eq_true,
        MethodDecl.replaces] at hreplaces
      obtain ⟨⟨hne, hunder⟩, decl, hdecl, candidate, hcandidate, ⟨hname, hconcrete⟩, htexts⟩ :=
        hreplaces
      refine ⟨⟨⟨decl, candidate⟩, ancestor.bindings⟩, ?_, ?_⟩
      · refine mem_concreteMethods_iff.mpr ⟨?_, hconcrete, htexts⟩
        exact mem_visibleMethods_iff.mpr ⟨ancestor, hancestor, hdecl, hcandidate, hname, rfl⟩
      · rw [name_of_find? hdecl]
        exact ⟨hne, hunder⟩
    · rintro ⟨winner, hwinner, hne, hunder⟩
      obtain ⟨hwinner, hconcrete, htexts⟩ := mem_concreteMethods_iff.mp hwinner
      obtain ⟨ancestor, hancestor, hdecl, hmethod, hname, hbindings⟩ :=
        mem_visibleMethods_iff.mp hwinner
      rw [hbindings] at htexts
      rw [name_of_find? hdecl] at hne hunder
      refine ⟨ancestor, hancestor, ?_⟩
      simp only [Bool.and_eq_true, decide_eq_true_iff, Option.any_eq_true, List.any_eq_true,
        MethodDecl.replaces]
      exact ⟨⟨hne, hunder⟩, winner.owner, hdecl, winner.method, hmethod, ⟨hname, hconcrete⟩,
        htexts⟩

/-- Of the concrete declarations of a signature at least one is not overridden. -/
theorem Acyclic.exists_not_overridden
    (h : snapshot.Acyclic source) (hsome : snapshot.concreteMethods source name texts ≠ []) :
    ∃ winner ∈ snapshot.concreteMethods source name texts,
      snapshot.isOverriddenFrom source winner.owner.name winner.method = false := by
  obtain ⟨first, hfirst⟩ := List.exists_mem_of_ne_nil _ hsome
  obtain ⟨winner, hwinner, hmost⟩ :=
    Set.exists_max_image {visible | visible ∈ snapshot.concreteMethods source name texts}
      (fun visible => (snapshot.lineageNames visible.owner.name).length)
      (List.finite_toSet _) ⟨first, hfirst⟩
  refine ⟨winner, hwinner, ?_⟩
  obtain ⟨hvisible, -, htexts⟩ := mem_concreteMethods_iff.mp hwinner
  obtain ⟨-, -, -, -, hname, -⟩ := mem_visibleMethods_iff.mp hvisible
  rw [← Bool.not_eq_true, h.isOverriddenFrom_iff (by rwa [hname])]
  rintro ⟨lower, hlower, hne, hunder⟩
  rw [hname, htexts] at hlower
  -- A declaration further down would be on a class that reaches more.
  have hreaches := reaches_of_mem_visibleMethods (mem_concreteMethods_iff.mp hlower).1
  have hacyclic := h.of_reaches hreaches
  have hmore := hacyclic.length_lineageNames_lt (hacyclic.liesUnder_iff.mp hunder) hne
  exact absurd (hmost lower hlower) (Nat.not_le.mpr hmore)

/-- Of two concrete declarations of a signature on different classes, one below the other, the upper
one is overridden. -/
theorem Acyclic.isOverriddenFrom_of_liesUnder
    {lower upper : VisibleMethod} (h : snapshot.Acyclic source)
    (hlower : lower ∈ snapshot.concreteMethods source name texts)
    (hupper : upper ∈ snapshot.concreteMethods source name texts)
    (hne : lower.owner.name ≠ upper.owner.name)
    (hunder : snapshot.liesUnder lower.owner.name upper.owner.name = true) :
    snapshot.isOverriddenFrom source upper.owner.name upper.method = true := by
  obtain ⟨hvisible, -, htexts⟩ := mem_concreteMethods_iff.mp hupper
  obtain ⟨-, -, -, -, hname, -⟩ := mem_visibleMethods_iff.mp hvisible
  rw [h.isOverriddenFrom_iff (by rwa [hname])]
  refine ⟨lower, ?_, hne, hunder⟩
  rwa [hname, htexts]

end Snapshot

end Specwright
