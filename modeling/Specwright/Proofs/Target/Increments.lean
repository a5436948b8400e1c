import Specwright.Proofs.Feature.Selections
import Specwright.Proofs.Target.Difference

/-!
# Generating in increments

A class into which one plan was merged has the declarations and the assignments of every plan for
the same type, so a second plan only adds its features behind those of the first.  The features that
are taken of a list are told by the first of each name in it, and these are the same for a selection
and for its parts one after the other.  What remains open is the order of the methods.
-/

namespace Specwright

namespace Member

theorem find?_admitted (taken : List String) (members : List Member) (name : String) :
    (sift taken members).1.find? (·.name = name) =
      if name ∈ taken then none else members.find? (·.name = name) := by
  induction members generalizing taken with
  | nil => simp [sift]
  | cons first rest ih =>
      rw [sift]
      by_cases htaken : first.name ∈ taken
      · simp only [htaken, if_true]
        rw [ih taken]
        by_cases hname : name ∈ taken
        · rw [if_pos hname, if_pos hname]
        · have hne : first.name ≠ name := by
            rintro rfl
            exact hname htaken
          rw [if_neg hname, if_neg hname, List.find?_cons_of_neg (by simpa using hne)]
      · simp only [htaken, if_false]
        by_cases heq : first.name = name
        · rw [heq] at htaken
          rw [if_neg htaken, List.find?_cons_of_pos (by simpa using heq),
            List.find?_cons_of_pos (by simpa using heq)]
        · have hnames : name ∈ first.name :: taken ↔ name ∈ taken := by
            simp [Ne.symm heq]
          rw [List.find?_cons_of_neg (by simpa using heq),
            List.find?_cons_of_neg (by simpa using heq), ih, if_congr hnames rfl rfl]

/-- Members of distinct names are told by the first one of each name, their order aside. -/
theorem perm_of_find?_eq
    {first second : List Member} (hfirst : (first.map (·.name)).Nodup)
    (hsecond : (second.map (·.name)).Nodup)
    (h : ∀ name, first.find? (·.name = name) = second.find? (·.name = name)) :
    first.Perm second := by
  refine (List.perm_ext_iff_of_nodup hfirst.of_map hsecond.of_map).mpr ?_
  intro member
  rw [← find?_key_eq_some_iff hfirst, ← find?_key_eq_some_iff hsecond, h]

end Member

/-! ## Classes that are the same up to the order of methods -/

/-- Whether two classes are the same, the order of their methods aside.  The fixture method, the
first method of its name, is the same in both. -/
structure TestClass.SameUpToOrder (naming : Naming) (first second : TestClass) : Prop where
  package : first.package = second.package
  name : first.name = second.name
  readOnly : first.readOnly = second.readOnly
  superclass : first.superclass = second.superclass
  fields : first.fields = second.fields
  fixture :
    first.methods.find? (·.name = naming.fixtureName) =
      second.methods.find? (·.name = naming.fixtureName)
  methods : first.methods.Perm second.methods

/-- Whether two stores hold the same classes under the same names, the order of methods aside. -/
structure Store.SameUpToOrder (naming : Naming) (first second : Store) : Prop where
  allowCreate : first.allowCreate = second.allowCreate
  testClasses : ∀ name,
    Option.Rel (TestClass.SameUpToOrder naming) (first.get? name) (second.get? name)

namespace TestClass

variable {testClass : TestClass} {settings : Settings} {naming : Naming} {plan : TestPlan}

theorem SameUpToOrder.refl (naming : Naming) (testClass : TestClass) :
    testClass.SameUpToOrder naming testClass :=
  ⟨rfl, rfl, rfl, rfl, rfl, rfl, List.Perm.refl _⟩

theorem addMethods_append (testClass : TestClass) (methods others : List Member) :
    testClass.addMethods (methods ++ others) =
      (testClass.addMethods methods).addMethods others := by
  have hnames : (testClass.addMethods methods).methodNames =
      testClass.methodNames ++ (Member.sift testClass.methodNames methods).1.map (·.name) :=
    List.map_append
  simp only [addMethods] at hnames ⊢
  rw [hnames, Member.admitted_append, List.append_assoc]

/-- Methods with the same first one of each name make the same class, the order of methods aside. -/
theorem sameUpToOrder_addMethods
    {methods others : List Member} (naming : Naming) (testClass : TestClass)
    (h : ∀ name, methods.find? (·.name = name) = others.find? (·.name = name)) :
    (testClass.addMethods methods).SameUpToOrder naming (testClass.addMethods others) := by
  have hadmitted : ∀ name,
      (Member.sift testClass.methodNames methods).1.find? (·.name = name) =
        (Member.sift testClass.methodNames others).1.find? (·.name = name) := by
    intro name
    rw [Member.find?_admitted, Member.find?_admitted, h]
  refine ⟨rfl, rfl, rfl, rfl, rfl, ?_, ?_⟩
  · simp only [addMethods, List.find?_append, hadmitted]
  · refine List.Perm.append_left _ (Member.perm_of_find?_eq ?_ ?_ hadmitted)
    · exact Member.nodup_names_admitted _ _
    · exact Member.nodup_names_admitted _ _

/-! ## Merges of plans that differ in their features -/

theorem exists_merge_iff :
    (∃ merged report, testClass.merge settings plan = (merged, .ok report)) ↔
      ∃ prepared,
        (testClass.withDeclarations plan).withFixture settings.naming
          (testClass.newAssignments settings plan) = .ok prepared := by
  constructor
  · rintro ⟨merged, report, h⟩
    obtain ⟨prepared, hprepared, -⟩ := merge_cases h
    exact ⟨prepared, hprepared⟩
  · rintro ⟨prepared, hprepared⟩
    exact ⟨_, merge_of_withFixture hprepared⟩

/-- Whether a merge succeeds does not depend on the features. -/
theorem exists_merge_iff_of_eq
    {other : TestPlan} (h : other = { plan with features := other.features }) :
    (∃ merged report, testClass.merge settings other = (merged, .ok report)) ↔
      ∃ merged report, testClass.merge settings plan = (merged, .ok report) := by
  rw [exists_merge_iff, exists_merge_iff, h]
  rfl

theorem declaredIn_of_eq
    {other : TestPlan} (h : other = { plan with features := other.features })
    (hdeclared : plan.DeclaredIn testClass) : other.DeclaredIn testClass := by
  rw [h]
  exact ⟨hdeclared.superclass, hdeclared.fields⟩

/-- Merging two plans one after the other makes the class that one merge makes, the order of methods
aside, when all three plans differ in features only and have the same first feature of each name. -/
theorem sameUpToOrder_of_merges
    {first second both : TestPlan} {middle last merged : TestClass}
    {report report' report'' : MergeReport}
    (hsecond : second = { first with features := second.features })
    (hboth : both = { first with features := both.features })
    (hfeatures : ∀ name,
      (both.featureMethods settings).find? (·.name = name) =
        (first.featureMethods settings ++ second.featureMethods settings).find? (·.name = name))
    (hmerged : testClass.merge settings both = (merged, .ok report))
    (hmiddle : testClass.merge settings first = (middle, .ok report'))
    (hlast : middle.merge settings second = (last, .ok report'')) :
    merged.SameUpToOrder settings.naming last := by
  have hdeclared := declaredIn_of_eq hsecond (declaredIn_of_merge hmiddle)
  obtain ⟨prepared, hprepared, rfl, -⟩ := merge_cases hmerged
  obtain ⟨prepared', hprepared', rfl, -⟩ := merge_cases hmiddle
  obtain rfl : prepared = prepared' := by
    rw [hboth] at hprepared
    exact Except.ok.inj (hprepared.symm.trans hprepared')
  rw [merge_of_declaredIn hdeclared] at hlast
  obtain rfl := (Prod.mk.inj hlast).1
  rw [← addMethods_append]
  exact sameUpToOrder_addMethods settings.naming prepared hfeatures

end TestClass

namespace Store

variable {store : Store} {naming : Naming} {target : String} {first second : TestClass}

theorem get?_put_put (store : Store) (target : String) (first second : TestClass) (name : String) :
    ((store.put target first).put target second).get? name =
      (store.put target second).get? name := by
  by_cases heq : name = target
  · rw [heq, get?_put_self, get?_put_self]
  · rw [get?_put_of_ne heq, get?_put_of_ne heq, get?_put_of_ne heq]

theorem sameUpToOrder_put
    (store : Store) (target : String) (h : first.SameUpToOrder naming second) (middle : TestClass) :
    (store.put target first).SameUpToOrder naming
      ((store.put target middle).put target second) := by
  refine ⟨rfl, ?_⟩
  intro name
  rw [get?_put_put]
  by_cases heq : name = target
  · rw [heq, get?_put_self, get?_put_self]
    exact Option.Rel.some h
  · rw [get?_put_of_ne heq, get?_put_of_ne heq]
    cases store.get? name with
    | none => exact Option.Rel.none
    | some testClass => exact Option.Rel.some (.refl naming testClass)

end Store

namespace Settings

variable {settings : Settings} {snapshot : Snapshot} {store : Store} {task : GenerationTask}
variable {first second both : Selection}

/-! ## Plans of one class -/

theorem exists_plan_iff :
    (∃ plan cache, settings.plan snapshot task = .ok (plan, cache)) ↔
      ∃ scope, Scope.open? snapshot task.className settings.modelOptions = some scope ∧
        ∃ plan, TestPlan.build settings ((Session.extractSubject scope).run .empty).1
          task.selection = .ok plan := by
  constructor
  · rintro ⟨plan, cache, h⟩
    obtain ⟨scope, hscope, hplan⟩ := plan_cases h
    exact ⟨scope, hscope, plan, hplan⟩
  · rintro ⟨scope, hscope, plan, hplan⟩
    simp only [Settings.plan, hscope]
    split
    next type cache hrun =>
      rw [hrun] at hplan
      rw [hplan]
      exact ⟨plan, cache.stats, rfl⟩

theorem exists_plan_iff_of_union
    (hunion : ∀ name, name ∈ both ↔ name ∈ first ∨ name ∈ second) :
    (∃ plan cache, settings.plan snapshot { task with selection := both } = .ok (plan, cache)) ↔
      (∃ plan cache,
        settings.plan snapshot { task with selection := first } = .ok (plan, cache)) ∧
      ∃ plan cache,
        settings.plan snapshot { task with selection := second } = .ok (plan, cache) := by
  simp only [exists_plan_iff, TestPlan.exists_build_iff_of_union hunion]
  constructor
  · rintro ⟨scope, hscope, hfirst, hsecond⟩
    exact ⟨⟨scope, hscope, hfirst⟩, scope, hscope, hsecond⟩
  · rintro ⟨⟨scope, hscope, hfirst⟩, scope', hscope', hsecond⟩
    obtain rfl : scope = scope' := Option.some.inj (hscope.symm.trans hscope')
    exact ⟨scope, hscope, hfirst, hsecond⟩

theorem eq_of_plan
    {plan other : TestPlan} {cache cache' : CacheCounters}
    (h : settings.plan snapshot { task with selection := first } = .ok (plan, cache))
    (hother : settings.plan snapshot { task with selection := second } = .ok (other, cache')) :
    other = { plan with features := other.features } := by
  obtain ⟨scope, hscope, hplan⟩ := plan_cases h
  obtain ⟨scope', hscope', hplan'⟩ := plan_cases hother
  obtain rfl : scope = scope' := Option.some.inj (hscope.symm.trans hscope')
  exact TestPlan.eq_of_build hplan hplan'

theorem find?_featureMethods_of_union
    {plan plan' plan'' : TestPlan} {cache cache' cache'' : CacheCounters}
    (hunion : ∀ name, name ∈ both ↔ name ∈ first ∨ name ∈ second)
    (hboth : settings.plan snapshot { task with selection := both } = .ok (plan, cache))
    (hfirst : settings.plan snapshot { task with selection := first } = .ok (plan', cache'))
    (hsecond : settings.plan snapshot { task with selection := second } = .ok (plan'', cache''))
    (name : String) :
    (plan.featureMethods settings).find? (·.name = name) =
      (plan'.featureMethods settings ++ plan''.featureMethods settings).find? (·.name = name) := by
  obtain ⟨scope, hscope, hbuild⟩ := plan_cases hboth
  obtain ⟨scope', hscope', hbuild'⟩ := plan_cases hfirst
  obtain ⟨scope'', hscope'', hbuild''⟩ := plan_cases hsecond
  obtain rfl : scope = scope' := Option.some.inj (hscope.symm.trans hscope')
  obtain rfl : scope = scope'' := Option.some.inj (hscope.symm.trans hscope'')
  rw [TestPlan.featureMethods_of_build hbuild, TestPlan.featureMethods_of_build hbuild',
    TestPlan.featureMethods_of_build hbuild'']
  exact find?_featureMembers_of_union hunion name

/-! ## Generations -/

theorem exists_generate_iff :
    (∃ result after, settings.generate snapshot store task = (.ok result, after)) ↔
      ∃ plan cache testClass merged report,
        settings.plan snapshot task = .ok (plan, cache) ∧
          store.openTarget (settings.targetName task) = .ok testClass ∧
          testClass.merge settings plan = (merged, .ok report) := by
  constructor
  · rintro ⟨result, after, h⟩
    obtain ⟨plan, cache, testClass, merged, report, hplan, hopen, hmerge, -⟩ := generate_cases h
    exact ⟨plan, cache, testClass, merged, report, hplan, hopen, hmerge⟩
  · rintro ⟨plan, cache, testClass, merged, report, hplan, hopen, hmerge⟩
    exact ⟨_, _, generate_of_steps hplan hopen hmerge⟩

/-- Generating for two selections together succeeds exactly when generating for the first and then
for the second does, and leaves the same store, the order of methods aside. -/
theorem generate_increments
    (hunion : ∀ name, name ∈ both ↔ name ∈ first ∨ name ∈ second) :
    ((∃ result after,
        settings.generate snapshot store { task with selection := both } = (.ok result, after)) ↔
      ∃ result middle,
        settings.generate snapshot store { task with selection := first } = (.ok result, middle) ∧
          ∃ result' last,
            settings.generate snapshot middle { task with selection := second } =
              (.ok result', last)) ∧
    ∀ result after result' middle result'' last,
      settings.generate snapshot store { task with selection := both } = (.ok result, after) →
      settings.generate snapshot store { task with selection := first } = (.ok result', middle) →
      settings.generate snapshot middle { task with selection := second } = (.ok result'', last) →
        after.SameUpToOrder settings.naming last := by
  refine ⟨⟨?_, ?_⟩, ?_⟩
  · intro h
    obtain ⟨both, cache, testClass, merged, report, hboth, hopen, hmerge⟩ :=
      exists_generate_iff.mp h
    obtain ⟨⟨first, cache', hfirst⟩, second, cache'', hsecond⟩ :=
      (exists_plan_iff_of_union hunion).mp ⟨both, cache, hboth⟩
    have hsame := eq_of_plan hfirst hboth
    obtain ⟨middle, report', hmiddle⟩ :=
      (TestClass.exists_merge_iff_of_eq hsame).mp ⟨merged, report, hmerge⟩
    -- The second merge finds the declarations of the first, so nothing can be in its way.
    have hdeclared := TestClass.declaredIn_of_eq (eq_of_plan hfirst hsecond)
      (TestClass.declaredIn_of_merge hmiddle)
    have hreopen := Store.openTarget_put_of_merge hopen hmiddle
    exact ⟨_, _, generate_of_steps hfirst hopen hmiddle, _, _,
      generate_of_steps hsecond hreopen (TestClass.merge_of_declaredIn hdeclared)⟩
  · rintro ⟨result, store', hfirst, result', last, hsecond⟩
    obtain ⟨first, cache, testClass, middle, report, hfirst, hopen, hmiddle⟩ :=
      exists_generate_iff.mp ⟨result, store', hfirst⟩
    obtain ⟨second, cache', -, -, -, hsecond, -⟩ := exists_generate_iff.mp ⟨result', last, hsecond⟩
    obtain ⟨both, cache'', hboth⟩ :=
      (exists_plan_iff_of_union hunion).mpr ⟨⟨first, cache, hfirst⟩, second, cache', hsecond⟩
    have hsame := eq_of_plan hfirst hboth
    obtain ⟨merged, report', hmerge⟩ :=
      (TestClass.exists_merge_iff_of_eq hsame).mpr ⟨middle, report, hmiddle⟩
    exact ⟨_, _, generate_of_steps hboth hopen hmerge⟩
  · intro result after result' middle result'' last hboth hfirst hsecond
    obtain ⟨plan, cache, testClass, merged, report, hplan, hopen, hmerge, -, rfl⟩ :=
      generate_cases hboth
    obtain ⟨plan', cache', testClass', merged', report', hplan', hopen', hmerge', -, rfl⟩ :=
      generate_cases hfirst
    obtain ⟨plan'', cache'', testClass'', merged'', report'', hplan'', hopen'', hmerge'', -, rfl⟩ :=
      generate_cases hsecond
    obtain rfl : testClass = testClass' := Except.ok.inj (hopen.symm.trans hopen')
    have hreopen := Store.openTarget_put_of_merge hopen hmerge'
    obtain rfl : merged' = testClass'' := Except.ok.inj (hreopen.symm.trans hopen'')
    refine Store.sameUpToOrder_put store _ ?_ merged'
    exact TestClass.sameUpToOrder_of_merges (eq_of_plan hplan' hplan'') (eq_of_plan hplan' hplan)
      (find?_featureMethods_of_union hunion hplan hplan' hplan'') hmerge hmerge' hmerge''

/-- Both methods of the service at once, and the second one before the first. -/
theorem generate_increments_orderTask :
    ∃ result after result' middle result'' last,
      standard.generate orderSnapshot {} { orderTask with selection := ["describe", "discount"] } =
          (.ok result, after) ∧
        standard.generate orderSnapshot {} { orderTask with selection := ["discount"] } =
          (.ok result', middle) ∧
        standard.generate orderSnapshot middle { orderTask with selection := ["describe"] } =
          (.ok result'', last) ∧
        after.SameUpToOrder standard.naming last := by
  have hunion : ∀ name,
      name ∈ ["describe", "discount"] ↔ name ∈ ["discount"] ∨ name ∈ ["describe"] := by
    simp [or_comm]
  have hbatch : ∃ result,
      standard.generate orderSnapshot {} { orderTask with selection := ["describe", "discount"] } =
        (.ok result,
          (standard.generate orderSnapshot {}
            { orderTask with selection := ["describe", "discount"] }).2) := ⟨_, rfl⟩
  obtain ⟨result, hbatch⟩ := hbatch
  obtain ⟨hsucceeds, hsame⟩ :=
    @generate_increments standard orderSnapshot {} orderTask _ _ _ hunion
  obtain ⟨result', middle, hfirst, result'', last, hsecond⟩ := hsucceeds.mp ⟨result, _, hbatch⟩
  exact ⟨result, _, result', middle, result'', last, hbatch, hfirst, hsecond,
    hsame _ _ _ _ _ _ hbatch hfirst hsecond⟩

end Settings

end Specwright
