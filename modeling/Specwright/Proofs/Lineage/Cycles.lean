import Specwright.Lineage.Lookup
import Specwright.Lineage.Override
import Specwright.Proofs.Lineage.Order

/-!
# Classes below a cycle

A class that reaches a cycle has no linearization, and a class without supertypes has one that lists
nothing but the class.  Queries that only look at the classes above answer both alike, so a class
below a cycle is treated as one that lists no supertypes.  The methods that a class sees are read
off the whole linearization, the class included: below a cycle a class does not even see its own.
-/

namespace Specwright

/-! ## Taking supertypes away -/

/-- The class with no supertypes listed. -/
def ClassDecl.withoutSupertypes (decl : ClassDecl) : ClassDecl :=
  { decl with supertypes := [] }

/-- The declaration with no supertypes listed for its class. -/
def Declaration.withoutSupertypes (declaration : Declaration) : Declaration :=
  ⟨declaration.owner.withoutSupertypes, declaration.method⟩

namespace Snapshot

/-- The snapshot in which the class of a name lists no supertypes. -/
def detach (snapshot : Snapshot) (name : String) : Snapshot where
  classes :=
    snapshot.classes.map fun decl => if decl.name = name then decl.withoutSupertypes else decl
  views := snapshot.views
  sorted := by
    refine List.pairwise_map.mpr (snapshot.sorted.imp ?_)
    intro first second hbefore
    rw [ClassDecl.Before] at hbefore ⊢
    split <;> split <;> exact hbefore

variable {snapshot : Snapshot} {name other : String}

/-- The class of the name is held without its supertypes. -/
theorem find?_detach (snapshot : Snapshot) (name : String) :
    (snapshot.detach name).find? name =
      (snapshot.find? name).map ClassDecl.withoutSupertypes := by
  rw [find?, find?, detach, List.find?_map]
  have hnames : ((fun decl : ClassDecl => decide (decl.name = name)) ∘
      fun decl => if decl.name = name then decl.withoutSupertypes else decl) =
        fun decl => decide (decl.name = name) := by
    funext decl
    by_cases hname : decl.name = name
    · simp [hname, ClassDecl.withoutSupertypes]
    · simp [hname]
  rw [hnames]
  refine Option.map_congr fun decl hdecl => ?_
  have hname : decl.name = name := by simpa using List.find?_some hdecl
  rw [if_pos hname]

theorem supertypesOf_detach (snapshot : Snapshot) (name : String) :
    (snapshot.detach name).supertypesOf name = [] := by
  rw [supertypesOf, find?_detach]
  cases snapshot.find? name <;> rfl

/-! ## Linearizations that list no other class -/

/-- Whether a class has nothing above it in its linearization, or no linearization at all. -/
def StandsAlone (snapshot : Snapshot) (name : String) : Prop :=
  snapshot.lineage name = [] ∨
    snapshot.lineage name = [⟨name, .empty, (snapshot.find? name).isSome⟩]

theorem lineage_of_supertypesOf_eq_nil (h : snapshot.supertypesOf name = []) :
    snapshot.lineage name = [⟨name, .empty, (snapshot.find? name).isSome⟩] := by
  have hlinearize : snapshot.linearize name =
      .ok [⟨name, .empty, (snapshot.find? name).isSome⟩] := by
    rw [linearize, extendLineage_succ, if_neg List.not_mem_nil, List.any_nil,
      if_neg Bool.false_ne_true, h]
    rfl
  rw [lineage, hlinearize]

theorem lineage_of_cycle (h : ∃ other, snapshot.Reaches name other ∧ snapshot.OnCycle other) :
    snapshot.lineage name = [] := by
  obtain ⟨other, hreaches, hcycle⟩ := h
  rw [lineage]
  split
  next chain hchain => exact absurd hcycle (acyclic_of_linearize hchain other hreaches)
  next => rfl

theorem standsAlone_detach (snapshot : Snapshot) (name : String) :
    (snapshot.detach name).StandsAlone name :=
  Or.inr (lineage_of_supertypesOf_eq_nil (supertypesOf_detach snapshot name))

namespace StandsAlone

theorem tail_lineage (h : snapshot.StandsAlone name) : (snapshot.lineage name).tail = [] := by
  rcases h with hnone | hself
  · rw [hnone, List.tail_nil]
  · rw [hself, List.tail_cons]

theorem namesAbove_eq_nil (h : snapshot.StandsAlone name) : snapshot.namesAbove name = [] := by
  rw [namesAbove, h.tail_lineage, List.map_nil]

theorem liesUnder_eq (h : snapshot.StandsAlone name) (parent : String) :
    snapshot.liesUnder name parent = decide (name = parent) := by
  rw [liesUnder, h.namesAbove_eq_nil]
  simp

/-- Only the own methods of the class answer calls. -/
theorem resolve?_eq
    {signature : MethodSignature} (h : snapshot.StandsAlone signature.owner) :
    snapshot.resolve? signature =
      (snapshot.find? signature.owner).bind fun owner =>
        (owner.methods.find? signature.matchesDecl).map fun method => ⟨owner, method⟩ := by
  rw [resolve?, h.tail_lineage]
  cases snapshot.find? signature.owner with
  | none => rfl
  | some owner =>
      dsimp only [Option.bind_some]
      cases owner.methods.find? signature.matchesDecl <;> rfl

theorem isOverriddenFrom_eq_false
    (h : snapshot.StandsAlone name) (owner : String) (method : MethodDecl) :
    snapshot.isOverriddenFrom name owner method = false := by
  rw [isOverriddenFrom]
  split
  · rfl
  next hne =>
    -- The class of the method would have to be listed, and only the class itself is.
    have hnone : (snapshot.lineage name).find? (·.name = owner) = none := by
      rcases h with hnone | hself
      · rw [hnone, List.find?_nil]
      · rw [hself]
        simpa using hne
    simp only [hnone]

end StandsAlone

/-! ## Queries below a cycle -/

/-- A class that lists no supertypes sees its own methods, all without bindings. -/
theorem visibleMethods_of_supertypesOf_eq_nil
    {decl : ClassDecl} (h : snapshot.supertypesOf name = [])
    (hfound : snapshot.find? name = some decl) (sought : String) :
    snapshot.visibleMethods name sought =
      (decl.methods.filter (·.name = sought)).map fun method => ⟨⟨decl, method⟩, .empty⟩ := by
  rw [visibleMethods, lineage_of_supertypesOf_eq_nil h, List.flatMap_singleton, methodsOfAncestor,
    hfound]

theorem exists_find?_of_cycle
    (h : ∃ other, snapshot.Reaches name other ∧ snapshot.OnCycle other) :
    ∃ decl, snapshot.find? name = some decl := by
  obtain ⟨other, hreaches, hcycle⟩ := h
  rw [← Option.isSome_iff_exists, isSome_find?_iff]
  rcases Relation.ReflTransGen.cases_head hreaches with rfl | ⟨_, hlists, -⟩
  · obtain ⟨_, hlists, -⟩ := Relation.TransGen.head'_iff.mp hcycle
    exact mem_names_of_lists hlists
  · exact mem_names_of_lists hlists

/-- Below a cycle, the classes above, the place in the hierarchy, the resolution of calls and
overriding are what they would be if the class listed no supertypes.  The methods that a class sees
are not: it sees none, where it would see those of the name that it declares. -/
theorem cyclic_class_stands_alone
    (h : ∃ other, snapshot.Reaches name other ∧ snapshot.OnCycle other) :
    (snapshot.detach name).namesAbove name = snapshot.namesAbove name ∧
      (∀ parent,
        (snapshot.detach name).liesUnder name parent = snapshot.liesUnder name parent) ∧
      (∀ signature, signature.owner = name →
        (snapshot.detach name).resolve? signature =
          (snapshot.resolve? signature).map Declaration.withoutSupertypes) ∧
      (∀ owner method,
        (snapshot.detach name).isOverriddenFrom name owner method =
          snapshot.isOverriddenFrom name owner method) ∧
      ∃ decl, snapshot.find? name = some decl ∧
        ∀ sought,
          snapshot.visibleMethods name sought = [] ∧
            (snapshot.detach name).visibleMethods name sought =
              (decl.methods.filter (·.name = sought)).map fun method =>
                ⟨⟨decl.withoutSupertypes, method⟩, .empty⟩ := by
  have hlineage : snapshot.lineage name = [] := lineage_of_cycle h
  have hcyclic : snapshot.StandsAlone name := Or.inl hlineage
  have hdetached : (snapshot.detach name).StandsAlone name := standsAlone_detach snapshot name
  obtain ⟨decl, hdecl⟩ := exists_find?_of_cycle h
  have hfound : (snapshot.detach name).find? name = some decl.withoutSupertypes := by
    rw [find?_detach, hdecl, Option.map_some]
  refine ⟨?above, ?under, ?resolved, ?overridden, decl, hdecl, ?seen⟩
  case above => rw [hdetached.namesAbove_eq_nil, hcyclic.namesAbove_eq_nil]
  case under =>
    intro parent
    rw [hdetached.liesUnder_eq, hcyclic.liesUnder_eq]
  case resolved =>
    rintro signature rfl
    rw [hdetached.resolve?_eq, hcyclic.resolve?_eq, hfound, hdecl, Option.bind_some,
      Option.bind_some, Option.map_map]
    rfl
  case overridden =>
    intro owner method
    rw [hdetached.isOverriddenFrom_eq_false, hcyclic.isOverriddenFrom_eq_false]
  case seen =>
    intro sought
    refine ⟨?_, visibleMethods_of_supertypesOf_eq_nil (supertypesOf_detach snapshot name) hfound _⟩
    rw [visibleMethods, hlineage, List.flatMap_nil]

end Snapshot

/-! ## A chick below a hen and an egg -/

/-- Asks for food. -/
def peepMethod : MethodDecl where
  name := "peep"
  modifiers := [.publicAccess]

def chickClass : ClassDecl where
  name := "farm.Chick"
  supertypes := [.named "farm.Hen"]
  methods := [peepMethod]

def henClass : ClassDecl where
  name := "farm.Hen"
  supertypes := [.named "farm.Egg"]

/-- Comes from a hen, which comes from an egg. -/
def eggClass : ClassDecl where
  name := "farm.Egg"
  supertypes := [.named "farm.Hen"]

def farmSnapshot : Snapshot :=
  .ofClasses [chickClass, henClass, eggClass]

namespace Snapshot

theorem chick_below_cycle :
    ∃ other, farmSnapshot.Reaches "farm.Chick" other ∧ farmSnapshot.OnCycle other := by
  have hchick : farmSnapshot.Lists "farm.Chick" "farm.Hen" := ⟨_, List.Mem.head _, rfl⟩
  have hhen : farmSnapshot.Lists "farm.Hen" "farm.Egg" := ⟨_, List.Mem.head _, rfl⟩
  have hegg : farmSnapshot.Lists "farm.Egg" "farm.Hen" := ⟨_, List.Mem.head _, rfl⟩
  exact ⟨"farm.Hen", .single hchick, .tail (.single hhen) hegg⟩

/-- The chick has nothing above it and still answers calls by its own method. -/
theorem cyclic_class_stands_alone_chick :
    (∃ other, farmSnapshot.Reaches "farm.Chick" other ∧ farmSnapshot.OnCycle other) ∧
      farmSnapshot.liesUnder "farm.Chick" "farm.Hen" =
        (farmSnapshot.detach "farm.Chick").liesUnder "farm.Chick" "farm.Hen" ∧
      ((farmSnapshot.resolve? ⟨"farm.Chick", "peep", []⟩).map
        Declaration.withoutSupertypes).isSome = true := by
  obtain ⟨-, hunder, hresolved, -, -⟩ := cyclic_class_stands_alone chick_below_cycle
  refine ⟨chick_below_cycle, (hunder "farm.Hen").symm, ?_⟩
  rw [← hresolved ⟨"farm.Chick", "peep", []⟩ rfl]
  rfl

/-- Below the cycle the chick does not see its own method, which it would see without supertypes. -/
theorem chick_misses_own_method :
    (∃ other, farmSnapshot.Reaches "farm.Chick" other ∧ farmSnapshot.OnCycle other) ∧
      farmSnapshot.visibleMethods "farm.Chick" "peep" = [] ∧
        (farmSnapshot.detach "farm.Chick").visibleMethods "farm.Chick" "peep" =
          [⟨⟨chickClass.withoutSupertypes, peepMethod⟩, .empty⟩] :=
  ⟨chick_below_cycle, rfl, rfl⟩

end Snapshot

end Specwright
