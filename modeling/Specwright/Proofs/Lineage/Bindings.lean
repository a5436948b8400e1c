import Specwright.Proofs.Host.Substitution
import Specwright.Proofs.Lineage.Overriding

/-!
# Bindings along a hierarchy

A linearization lists a class under the bindings of the first way up: from every class on that way
it goes on with the first supertype that has the wanted class above it.  What a walk has found
before does not change this, as a class that was found has everything above it found as well.

When supertypes get one argument for each of their type parameters, and these are made of the type
parameters of the class that lists them, all type parameters on the way are bound.  Bindings can
then be put together from those of the parts of a way.
-/

namespace Specwright

namespace Snapshot

/-- The type parameters of a class; none when the snapshot does not hold the class. -/
def typeParamsOf (snapshot : Snapshot) (name : String) : List String :=
  ((snapshot.find? name).map (·.typeParams)).getD []

/-- The bindings under which a class lists another one in its linearization. -/
def bindingsOf? (snapshot : Snapshot) (source wanted : String) : Option Bindings :=
  ((snapshot.lineage source).find? (·.name = wanted)).map (·.bindings)

/-- The first supertype of a class that has another class in its linearization. -/
def firstAbove? (snapshot : Snapshot) (name wanted : String) : Option TypeRef :=
  (snapshot.supertypesOf name).find? fun supertype => wanted ∈ snapshot.lineageNames supertype.name

/-- Whether a class that is seen under bindings sees another one under other bindings along the
first way up. -/
inductive SeesAs (snapshot : Snapshot) (wanted : String) : String → Bindings → Bindings → Prop
  | here (bindings : Bindings) : SeesAs snapshot wanted wanted bindings bindings
  | above {name : String} {supertype : TypeRef} {bindings seen : Bindings} :
      name ≠ wanted →
      snapshot.firstAbove? name wanted = some supertype →
      SeesAs snapshot wanted supertype.name (snapshot.superBindings bindings supertype) seen →
        SeesAs snapshot wanted name bindings seen

variable {snapshot : Snapshot} {source name wanted : String} {bindings seen : Bindings}

/-! ## The first way up -/

theorem exists_of_mem_supertypesOf
    {supertype : TypeRef} (h : supertype ∈ snapshot.supertypesOf name) :
    ∃ decl, snapshot.find? name = some decl ∧ supertype ∈ decl.supertypes := by
  rw [supertypesOf] at h
  cases hfound : snapshot.find? name with
  | none =>
      rw [hfound] at h
      cases h
  | some decl =>
      rw [hfound] at h
      exact ⟨decl, rfl, h⟩

theorem typeParamsOf_eq {decl : ClassDecl} (h : snapshot.find? name = some decl) :
    snapshot.typeParamsOf name = decl.typeParams := by
  rw [typeParamsOf, h]
  rfl

theorem lists_of_firstAbove?
    {supertype : TypeRef} (h : snapshot.firstAbove? name wanted = some supertype) :
    snapshot.Lists name supertype.name :=
  ⟨supertype, List.mem_of_find?_eq_some h, rfl⟩

theorem firstAbove?_eq_some
    {before after : List TypeRef} {supertype : TypeRef}
    (hsupers : snapshot.supertypesOf name = before ++ supertype :: after)
    (hbefore : ∀ earlier ∈ before, wanted ∉ snapshot.lineageNames earlier.name)
    (hwanted : wanted ∈ snapshot.lineageNames supertype.name) :
    snapshot.firstAbove? name wanted = some supertype := by
  rw [firstAbove?, hsupers, List.find?_append, List.find?_eq_none.mpr (by simpa using hbefore),
    Option.none_or, List.find?_cons_of_pos (by simpa using hwanted)]

theorem SeesAs.reaches (h : snapshot.SeesAs wanted name bindings seen) :
    snapshot.Reaches name wanted := by
  induction h with
  | here => exact Relation.ReflTransGen.refl
  | above _ hfirst _ ih => exact Relation.ReflTransGen.head (lists_of_firstAbove? hfirst) ih

/-- There is one first way up. -/
theorem SeesAs.unique
    {other : Bindings} (h : snapshot.SeesAs wanted name bindings seen)
    (h' : snapshot.SeesAs wanted name bindings other) :
    seen = other := by
  induction h with
  | here =>
      cases h' with
      | here => rfl
      | above hne => exact absurd rfl hne
  | above hne hfirst _ ih =>
      cases h' with
      | here => exact absurd rfl hne
      | above _ hfirst' hrest =>
          obtain rfl := Option.some.inj (hfirst.symm.trans hfirst')
          exact ih hrest

/-! ## Walks along the first way up -/

/-- Whether a walk to a class lists what it adds as it is seen along the first way up. -/
def WalksFirst (snapshot : Snapshot) (name : String) : Prop :=
  ∀ bound path found bindings chain,
    snapshot.Ascent bound path name → snapshot.ClosedOff path (found.map (·.name)) →
      snapshot.extendLineage bound path found name bindings = .ok chain →
        ∀ entry ∈ chain, entry ∈ found ∨
          entry.name ∉ found.map (·.name) ∧
            snapshot.SeesAs entry.name name bindings entry.bindings

/-- A walk that goes through has then found what was found before and what the class lists, again
with everything above it but what is on the path. -/
theorem Walked.of_extendLineage
    {bound : Nat} {path : List String} {found chain : List LineageEntry}
    (h : snapshot.Walked name) (hascent : snapshot.Ascent bound path name)
    (hclosed : snapshot.ClosedOff path (found.map (·.name)))
    (hchain : snapshot.extendLineage bound path found name bindings = .ok chain) :
    (∀ other, other ∈ chain.map (·.name) ↔
        other ∈ found.map (·.name) ∨ other ∈ snapshot.lineageNames name) ∧
      snapshot.ClosedOff path (chain.map (·.name)) := by
  obtain ⟨_, hchain', hadded⟩ := h.adds bound path found bindings hascent hclosed
  obtain rfl := Except.ok.inj (hchain.symm.trans hchain')
  rw [hadded]
  exact ⟨fun _ => mem_append_new_iff, h.closedOff hclosed⟩

/-- Walks to the supertypes of a class list what they add as the class sees it along the first way
up, when what the supertypes before them list has been found. -/
theorem foldlM_walksFirst
    {bound : Nat} {path : List String} {before rest : List TypeRef}
    {found chain : List LineageEntry}
    (hsupers : snapshot.supertypesOf name = before ++ rest)
    (hwalked : ∀ supertype ∈ rest, snapshot.Walked supertype.name)
    (hfirst : ∀ supertype ∈ rest, snapshot.WalksFirst supertype.name)
    (hascent : ∀ supertype ∈ rest, snapshot.Ascent bound path supertype.name)
    (hclosed : snapshot.ClosedOff path (found.map (·.name)))
    (hself : name ∈ found.map (·.name))
    (hbefore : ∀ supertype ∈ before,
      snapshot.lineageNames supertype.name ⊆ found.map (·.name))
    (h : rest.foldlM
      (fun found supertype =>
        snapshot.extendLineage bound path found supertype.name
          (snapshot.superBindings bindings supertype))
      found = .ok chain) :
    ∀ entry ∈ chain, entry ∈ found ∨
      entry.name ∉ found.map (·.name) ∧
        snapshot.SeesAs entry.name name bindings entry.bindings := by
  induction rest generalizing before found with
  | nil =>
      obtain rfl : found = chain := Except.ok.inj h
      exact fun entry hentry => Or.inl hentry
  | cons first rest ih =>
      obtain ⟨hwalkedFirst, hwalkedRest⟩ := List.forall_mem_cons.mp hwalked
      obtain ⟨hfirstFirst, hfirstRest⟩ := List.forall_mem_cons.mp hfirst
      obtain ⟨hascentFirst, hascentRest⟩ := List.forall_mem_cons.mp hascent
      rw [List.foldlM_cons] at h
      obtain ⟨middle, hmiddle, hrest⟩ := Contract.exists_of_bind_eq_ok h
      obtain ⟨hmem, hclosedMiddle⟩ :=
        hwalkedFirst.of_extendLineage hascentFirst hclosed hmiddle
      have hbeforeMiddle : ∀ supertype ∈ before ++ [first],
          snapshot.lineageNames supertype.name ⊆ middle.map (·.name) := by
        intro supertype hsupertype other hother
        rw [hmem]
        rcases List.mem_append.mp hsupertype with hold | hlast
        · exact Or.inl (hbefore supertype hold hother)
        · rw [List.mem_singleton.mp hlast] at hother
          exact Or.inr hother
      have hadds := ih (by simpa using hsupers) hwalkedRest hfirstRest hascentRest hclosedMiddle
        ((hmem name).mpr (Or.inl hself)) hbeforeMiddle hrest
      intro entry hentry
      rcases hadds entry hentry with hold | ⟨hnew, hsees⟩
      · -- What the first supertype adds is above none of the supertypes before it.
        rcases hfirstFirst _ _ _ _ _ hascentFirst hclosed hmiddle entry hold with
          hfound | ⟨hnew, hsees⟩
        · exact Or.inl hfound
        · refine Or.inr ⟨hnew, .above ?_ (firstAbove?_eq_some hsupers ?_ ?_) hsees⟩
          · rintro rfl
            exact hnew hself
          · intro supertype hsupertype hlisted
            exact hnew (hbefore supertype hsupertype hlisted)
          · exact ((hmem entry.name).mp (List.mem_map_of_mem hold)).resolve_left hnew
      · exact Or.inr ⟨fun hfound => hnew ((hmem entry.name).mpr (Or.inl hfound)), hsees⟩

/-- Walks to a class without a cycle above it list what they add as it is seen along the first way
up. -/
theorem Acyclic.walksFirst (h : snapshot.Acyclic name) : snapshot.WalksFirst name := by
  refine h.induction ?_
  intro name hacyclic hwalksFirst bound path found bindings chain hascent hclosed hchain
  obtain ⟨bound, rfl⟩ := Nat.exists_eq_succ_of_ne_zero hascent.bound_ne_zero
  have hpath := hascent.not_mem_of_acyclic hacyclic
  rw [extendLineage_succ, if_neg hpath] at hchain
  split at hchain
  next =>
    obtain rfl := Except.ok.inj hchain
    exact fun entry hentry => Or.inl hentry
  next hnew =>
    have hlists : ∀ supertype ∈ snapshot.supertypesOf name, snapshot.Lists name supertype.name :=
      fun supertype hmem => ⟨supertype, hmem, rfl⟩
    have hsupers : snapshot.supertypesOf name = [] ++ snapshot.supertypesOf name := rfl
    have hadded := foldlM_walksFirst hsupers
      (fun supertype hmem => (hacyclic.of_lists (hlists supertype hmem)).walked)
      (fun supertype hmem => hwalksFirst _ (hlists supertype hmem))
      (fun supertype hmem => hascent.step hpath (hlists supertype hmem))
      (by rw [List.map_append]; exact hclosed.add name) (by simp) (by simp) hchain
    intro entry hentry
    rcases hadded entry hentry with hmem | ⟨hfresh, hsees⟩
    · rcases List.mem_append.mp hmem with hold | hself
      · exact Or.inl hold
      · obtain rfl := List.mem_singleton.mp hself
        exact Or.inr ⟨by simpa using hnew, .here bindings⟩
    · rw [List.map_append, List.mem_append, not_or] at hfresh
      exact Or.inr ⟨hfresh.1, hsees⟩

theorem exists_bindingsOf? (h : wanted ∈ snapshot.lineageNames source) :
    ∃ seen, snapshot.bindingsOf? source wanted = some seen := by
  obtain ⟨entry, hentry, rfl⟩ := List.mem_map.mp h
  exact ⟨entry.bindings, by rw [bindingsOf?, find?_lineage hentry, Option.map_some]⟩

/-- A class is listed under the bindings of the first way up to it, and under no others. -/
theorem Acyclic.bindingsOf?_eq_some_iff (h : snapshot.Acyclic source) :
    snapshot.bindingsOf? source wanted = some seen ↔
      snapshot.SeesAs wanted source .empty seen := by
  have hsees : ∀ seen, snapshot.bindingsOf? source wanted = some seen →
      snapshot.SeesAs wanted source .empty seen := by
    intro seen hlisted
    obtain ⟨entry, hfind, rfl⟩ := Option.map_eq_some_iff.mp hlisted
    obtain rfl : entry.name = wanted := by simpa using List.find?_some hfind
    have hentry := List.mem_of_find?_eq_some hfind
    obtain ⟨chain, hchain⟩ := h.exists_linearize
    rw [lineage, hchain] at hentry
    have hadded := h.walksFirst _ _ [] _ _ (.start snapshot source) (by simp [ClosedOff]) hchain
    exact ((hadded entry hentry).resolve_left List.not_mem_nil).2
  refine ⟨hsees seen, ?_⟩
  intro hseen
  obtain ⟨other, hother⟩ := exists_bindingsOf? (h.mem_lineageNames_iff.mpr hseen.reaches)
  rwa [(hsees other hother).unique hseen] at hother

/-- The first supertype that has a class above it is the first that has itself above it: one before
it would have both. -/
theorem Acyclic.firstAbove?_self
    {supertype : TypeRef} (h : snapshot.Acyclic name)
    (hfirst : snapshot.firstAbove? name wanted = some supertype) :
    snapshot.firstAbove? name supertype.name = some supertype := by
  obtain ⟨hwanted, before, after, hsupers, hbefore⟩ := List.find?_eq_some_iff_append.mp hfirst
  have hacyclic : ∀ other ∈ snapshot.supertypesOf name, snapshot.Acyclic other.name :=
    fun other hother => h.of_lists ⟨other, hother, rfl⟩
  rw [hsupers, List.forall_mem_append, List.forall_mem_cons] at hacyclic
  obtain ⟨hacyclicBefore, hacyclicSelf, -⟩ := hacyclic
  rw [decide_eq_true_iff, hacyclicSelf.mem_lineageNames_iff] at hwanted
  apply firstAbove?_eq_some hsupers
  · intro earlier hearlier hlisted
    have hmissed : wanted ∉ snapshot.lineageNames earlier.name := by
      simpa using hbefore earlier hearlier
    rw [(hacyclicBefore earlier hearlier).mem_lineageNames_iff] at hlisted hmissed
    exact hmissed (hlisted.trans hwanted)
  · exact hacyclicSelf.mem_lineageNames_iff.mpr Relation.ReflTransGen.refl

/-! ## Putting bindings together -/

/-- Whether every supertype that the snapshot holds is listed with one argument for each of its type
parameters, and with arguments that are made of type parameters of the class that lists it. -/
structure WellApplied (snapshot : Snapshot) : Prop where
  arity :
    ∀ decl ∈ snapshot.classes, ∀ supertype ∈ decl.supertypes,
      ∀ above ∈ snapshot.find? supertype.name, supertype.args.length = above.typeParams.length
  closed :
    ∀ decl ∈ snapshot.classes, ∀ supertype ∈ decl.supertypes,
      ∀ above ∈ snapshot.find? supertype.name, ∀ arg ∈ supertype.args,
        arg.parameters ⊆ decl.typeParams

variable {decl : ClassDecl} {supertype : TypeRef} {outer : Bindings}

theorem WellApplied.names_superBindings
    (h : snapshot.WellApplied) (hdecl : snapshot.find? name = some decl)
    (hsupertype : supertype ∈ decl.supertypes) (bindings : Bindings) :
    (snapshot.superBindings bindings supertype).names = snapshot.typeParamsOf supertype.name := by
  rw [superBindings, typeParamsOf]
  cases hfound : snapshot.find? supertype.name with
  | none => rfl
  | some above =>
      have harity := h.arity decl (mem_of_find? hdecl) supertype hsupertype above hfound
      exact List.map_fst_zip (by simp [harity])

theorem under_superBindings
    {inner both : Bindings}
    (h : ∀ above ∈ snapshot.find? supertype.name, ∀ arg ∈ supertype.args,
      (arg.substitute inner).substitute outer = arg.substitute both) :
    (snapshot.superBindings inner supertype).under outer =
      snapshot.superBindings both supertype := by
  rw [superBindings, superBindings]
  cases hfound : snapshot.find? supertype.name with
  | none => rfl
  | some above =>
      have hargs : (supertype.args.map (·.substitute inner)).map (·.substitute outer) =
          supertype.args.map (·.substitute both) := by
        rw [List.map_map]
        exact List.map_congr_left (h above hfound)
      exact congrArg Bindings.mk (by rw [← hargs, List.zip_map_right]; rfl)

/-- Bindings of all type parameters on the way can be substituted in at its beginning or at its
end. -/
theorem SeesAs.under
    (hwell : snapshot.WellApplied) (h : snapshot.SeesAs wanted name bindings seen)
    (hbound : snapshot.typeParamsOf name ⊆ bindings.names) (outer : Bindings) :
    snapshot.SeesAs wanted name (bindings.under outer) (seen.under outer) := by
  induction h with
  | here => exact .here _
  | @above name supertype bindings seen hne hfirst _ ih =>
      obtain ⟨decl, hdecl, hsupertype⟩ :=
        exists_of_mem_supertypesOf (List.mem_of_find?_eq_some hfirst)
      rw [typeParamsOf_eq hdecl] at hbound
      have hsuper : (snapshot.superBindings bindings supertype).under outer =
          snapshot.superBindings (bindings.under outer) supertype := by
        apply under_superBindings
        intro above habove arg harg
        apply TypeRef.substitute_under
        have hclosed := hwell.closed decl (mem_of_find? hdecl) supertype hsupertype above habove
        exact List.Subset.trans (hclosed arg harg) hbound
      have hnames := hwell.names_superBindings hdecl hsupertype bindings
      refine .above hne hfirst ?_
      rw [← hsuper]
      exact ih (hnames ▸ List.Subset.refl _)

/-- What lies above a class at the start is seen under bindings of the class with these substituted
in the bindings under which the class itself lists it. -/
theorem SeesAs.under_of_empty
    (hwell : snapshot.WellApplied) (h : snapshot.SeesAs wanted name .empty seen)
    (hne : name ≠ wanted) (outer : Bindings) :
    snapshot.SeesAs wanted name outer (seen.under outer) := by
  cases h with
  | here => exact absurd rfl hne
  | @above _ supertype _ _ _ hfirst hrest =>
      obtain ⟨decl, hdecl, hsupertype⟩ :=
        exists_of_mem_supertypesOf (List.mem_of_find?_eq_some hfirst)
      have hsuper : (snapshot.superBindings .empty supertype).under outer =
          snapshot.superBindings outer supertype := by
        apply under_superBindings
        intro above _ arg _
        rw [TypeRef.substitute_empty]
      have hnames := hwell.names_superBindings hdecl hsupertype .empty
      refine .above hne hfirst ?_
      rw [← hsuper]
      exact hrest.under hwell (hnames ▸ List.Subset.refl _) outer

/-- Whether the type parameters of a class are bound, and nothing else, to types that are made of
given type parameters. -/
structure BindsWithin
    (snapshot : Snapshot) (params : List String) (name : String) (bindings : Bindings) : Prop where
  names_eq : bindings.names = snapshot.typeParamsOf name
  within : ∀ pair ∈ bindings.pairs, pair.2.parameters ⊆ params

theorem WellApplied.bindsWithin_superBindings
    {params : List String} (h : snapshot.WellApplied) (hdecl : snapshot.find? name = some decl)
    (hsupertype : supertype ∈ decl.supertypes)
    (hargs : ∀ arg : TypeRef, arg.parameters ⊆ decl.typeParams →
      (arg.substitute bindings).parameters ⊆ params) :
    snapshot.BindsWithin params supertype.name (snapshot.superBindings bindings supertype) := by
  refine ⟨h.names_superBindings hdecl hsupertype bindings, ?_⟩
  intro pair hpair
  rw [superBindings] at hpair
  split at hpair
  next above habove =>
    obtain ⟨arg, harg, hsubstituted⟩ := List.mem_map.mp (List.of_mem_zip hpair).2
    rw [← hsubstituted]
    exact hargs arg (h.closed decl (mem_of_find? hdecl) supertype hsupertype above habove arg harg)
  next => cases hpair

/-- Every other class that a class lists has its type parameters bound to types that are made of
those of the class. -/
theorem WellApplied.bindsWithin_of_mem_lineage
    {entry : LineageEntry} (h : snapshot.WellApplied) (hdecl : snapshot.find? decl.name = some decl)
    (hentry : entry ∈ snapshot.lineage decl.name) (hne : entry.name ≠ decl.name) :
    snapshot.BindsWithin decl.typeParams entry.name entry.bindings := by
  have hup : snapshot.PassesUp fun name bindings =>
      name = decl.name ∧ bindings = .empty ∨
        snapshot.BindsWithin decl.typeParams name bindings := by
    intro name bindings below hseen hbelow supertype hsupertype
    refine Or.inr (h.bindsWithin_superBindings hbelow hsupertype ?_)
    intro arg harg
    rcases hseen with ⟨rfl, rfl⟩ | hbinds
    · obtain rfl := Option.some.inj (hdecl.symm.trans hbelow)
      rwa [TypeRef.substitute_empty]
    · intro param hparam
      rw [← typeParamsOf_eq hbelow, ← hbinds.names_eq] at harg
      obtain ⟨pair, hpair, hparam⟩ := TypeRef.parameters_substitute_of_bound harg hparam
      exact hbinds.within pair hpair hparam
  exact (seen_of_mem_lineage hup (Or.inl ⟨rfl, rfl⟩) hentry).resolve_left fun hself => hne hself.1

/-- Bindings compose along a hierarchy: the linearization of a class binds exactly the type
parameters of every other class in it, to types that are made of the type parameters of the class,
and it sees what lies above the first supertype that lists it under the bindings that the supertype
has for it, with those substituted that the class has for the supertype. -/
theorem bindings_compose
    (hwell : snapshot.WellApplied) (hdecl : snapshot.find? decl.name = some decl)
    (hacyclic : snapshot.Acyclic decl.name) :
    ∃ chain, snapshot.linearize decl.name = .ok chain ∧
      (∀ entry ∈ chain, entry.name ≠ decl.name →
        entry.bindings.names = snapshot.typeParamsOf entry.name ∧
          ∀ pair ∈ entry.bindings.pairs,
            pair.2.parameters ⊆ decl.typeParams ∧
              (decl.typeParams = [] → pair.2.mentionsParameter = false)) ∧
      ∀ supertype wanted,
        snapshot.firstAbove? decl.name wanted = some supertype → wanted ≠ supertype.name →
          ∃ inner outer,
            snapshot.bindingsOf? supertype.name wanted = some inner ∧
              snapshot.bindingsOf? decl.name supertype.name = some outer ∧
                snapshot.bindingsOf? decl.name wanted = some (inner.under outer) := by
  obtain ⟨chain, hchain⟩ := hacyclic.exists_linearize
  have hlineage : snapshot.lineage decl.name = chain := by
    rw [lineage, hchain]
  refine ⟨chain, hchain, ?_, ?_⟩
  · intro entry hentry hne
    rw [← hlineage] at hentry
    have hbinds := hwell.bindsWithin_of_mem_lineage hdecl hentry hne
    refine ⟨hbinds.names_eq, fun pair hpair => ⟨hbinds.within pair hpair, ?_⟩⟩
    intro hnone
    rw [TypeRef.mentionsParameter_eq_false_iff, ← List.subset_nil, ← hnone]
    exact hbinds.within pair hpair
  · intro supertype wanted hfirst hne
    have hlists := lists_of_firstAbove? hfirst
    have hself : ∀ other, snapshot.Reaches supertype.name other → decl.name ≠ other := by
      rintro _ habove rfl
      exact hacyclic.not_reaches_of_transGen (Relation.TransGen.head' hlists habove)
        Relation.ReflTransGen.refl
    obtain ⟨inner, hinner⟩ := exists_bindingsOf? (by simpa using List.find?_some hfirst)
    have hsees := ((hacyclic.of_lists hlists).bindingsOf?_eq_some_iff).mp hinner
    refine ⟨inner, snapshot.superBindings .empty supertype, hinner, ?_, ?_⟩
    · have hfirstSelf := hacyclic.firstAbove?_self hfirst
      rw [hacyclic.bindingsOf?_eq_some_iff]
      exact .above (hself _ Relation.ReflTransGen.refl) hfirstSelf (.here _)
    · rw [hacyclic.bindingsOf?_eq_some_iff]
      exact .above (hself _ hsees.reaches) hfirst (hsees.under_of_empty hwell hne.symm _)

end Snapshot

/-! ## Pipes that carry what is put together from their type parameters -/

/-- Gives out things of some type. -/
def sourceClass : ClassDecl where
  name := "flow.Source"
  typeParams := ["T"]

/-- Gives out pairs that are put together from the type parameters in another order. -/
def stageClass : ClassDecl where
  name := "flow.Stage"
  typeParams := ["A", "B"]
  supertypes := [.generic "flow.Source"
    [.generic "java.util.Map" [.parameter "B", (TypeRef.parameter "A").addDims 1]]]

/-- Has no type parameters and gives out texts. -/
def auditClass : ClassDecl where
  name := "flow.Audit"
  supertypes := [.generic "flow.Source" [.named "java.lang.String"]]

def stepClass : ClassDecl where
  name := "flow.Step"
  typeParams := ["X"]
  supertypes := [.named "java.io.Closeable",
    .generic "flow.Stage"
      [(TypeRef.parameter "X").addDims 1, .generic "java.util.List" [.parameter "X"]]]

/-- Has the source above it by way of the step and, listed later, of the audit. -/
def pipeClass : ClassDecl where
  name := "flow.Pipe"
  typeParams := ["E"]
  supertypes := [.generic "flow.Step" [.parameter "E"], .named "flow.Audit"]

def flowSnapshot : Snapshot :=
  .ofClasses [sourceClass, stageClass, auditClass, stepClass, pipeClass]

namespace Snapshot

/-- The pipe sees the source as the step does, with its own type parameter in the place of that of
the step, although the audit lists the source as well. -/
theorem bindings_compose_pipe :
    flowSnapshot.WellApplied ∧ flowSnapshot.find? "flow.Pipe" = some pipeClass ∧
      flowSnapshot.Acyclic "flow.Pipe" ∧
        flowSnapshot.bindingsOf? "flow.Pipe" "flow.Source" =
          some ⟨[("T", .generic "java.util.Map"
            [.generic "java.util.List" [.parameter "E"], (TypeRef.parameter "E").addDims 2])]⟩ := by
  have hwell : flowSnapshot.WellApplied := ⟨by decide +kernel, by decide +kernel⟩
  have hacyclic : flowSnapshot.Acyclic "flow.Pipe" := acyclic_of_linearize rfl
  have hdecl : flowSnapshot.find? pipeClass.name = some pipeClass := rfl
  obtain ⟨-, -, -, hcompose⟩ := bindings_compose hwell hdecl hacyclic
  obtain ⟨inner, outer, hinner, houter, hboth⟩ :=
    hcompose (.generic "flow.Step" [.parameter "E"]) "flow.Source" rfl (by decide)
  obtain rfl : _ = inner := Option.some.inj hinner
  obtain rfl : _ = outer := Option.some.inj houter
  exact ⟨hwell, hdecl, hacyclic, hboth⟩

end Snapshot

end Specwright
