import Specwright.Proofs.Target.Merging

/-!
# Generating twice

A class into which a plan was merged has every member of the plan, by name.  Merging the plan into
it once more therefore changes nothing and reports every feature as skipped, and so does a second
generation with the same task on the store that the first one left.
-/

namespace Specwright

/-- The report of a merge that finds every member of a plan present. -/
def MergeReport.unchanged (plan : TestPlan) : MergeReport where
  fieldsAdded := []
  fixtureUpdated := false
  methodsAdded := []
  methodsSkipped := plan.features.map (·.name)

namespace TestPlan

/-- Whether a class has a superclass and all fields of a plan. -/
structure DeclaredIn (plan : TestPlan) (testClass : TestClass) : Prop where
  superclass : testClass.superclass ≠ none
  fields :
    ∀ field ∈ plan.subjectField :: plan.doubleFields,
      field.name ∈ testClass.fields.map (·.name)

/-- Whether a class has a superclass, all fields and all features of a plan. -/
structure PresentIn (plan : TestPlan) (settings : Settings) (testClass : TestClass) : Prop where
  superclass : testClass.superclass ≠ none
  fields :
    ∀ field ∈ plan.subjectField :: plan.doubleFields,
      field.name ∈ testClass.fields.map (·.name)
  features :
    ∀ feature ∈ plan.featureMethods settings, feature.name ∈ testClass.methodNames

variable {plan : TestPlan} {settings : Settings} {testClass : TestClass}

theorem PresentIn.declaredIn (h : plan.PresentIn settings testClass) : plan.DeclaredIn testClass :=
  ⟨h.superclass, h.fields⟩

end TestPlan

namespace TestClass

variable {testClass merged : TestClass} {settings : Settings} {plan : TestPlan}

/-! ## Classes that have the declarations of a plan -/

theorem declaredIn_withDeclarations (testClass : TestClass) (plan : TestPlan) :
    plan.DeclaredIn (testClass.withDeclarations plan) := by
  constructor
  · cases hold : testClass.superclass <;>
      simp [withDeclarations, withSuperclass, addFields, hold]
  · intro field hfield
    exact name_mem_addFields hfield

theorem withDeclarations_of_declaredIn
    (h : plan.DeclaredIn testClass) :
    testClass.withDeclarations plan = testClass := by
  have hsuper : testClass.withSuperclass plan.superclass = testClass := by
    obtain ⟨superclass, hsome⟩ := Option.ne_none_iff_exists'.mp h.superclass
    have hold : testClass.superclass.or (some plan.superclass) = testClass.superclass := by
      simp [hsome]
    rw [withSuperclass, hold]
  rw [withDeclarations, hsuper]
  exact addFields_of_forall_present h.fields

theorem newDoubles_of_declaredIn
    (h : plan.DeclaredIn testClass) :
    testClass.newDoubles plan = [] := by
  obtain ⟨hsubject, hdoubles⟩ := List.forall_mem_cons.mp h.fields
  have hkept : testClass.addFields [plan.subjectField] = testClass :=
    addFields_of_forall_present (by simpa using hsubject)
  rw [newDoubles, hkept, newFields, Member.sift_of_forall_taken hdoubles]

/-- Merging a plan into a class that has its declarations only adds the features that are new. -/
theorem merge_of_declaredIn
    (h : plan.DeclaredIn testClass) :
    testClass.merge settings plan =
      (testClass.addMethods (plan.featureMethods settings),
        .ok {
          fieldsAdded := []
          fixtureUpdated := false
          methodsAdded :=
            (Member.sift testClass.methodNames (plan.featureMethods settings)).1.map (·.name)
          methodsSkipped :=
            (Member.sift testClass.methodNames (plan.featureMethods settings)).2.map
              (·.name) }) := by
  have hdeclared := withDeclarations_of_declaredIn h
  have hdoubles := newDoubles_of_declaredIn h
  have hfields : testClass.newFields (plan.subjectField :: plan.doubleFields) = [] := by
    rw [newFields, Member.sift_of_forall_taken h.fields]
  simp [merge, hdeclared, hdoubles, hfields, withFixture]

/-! ## Classes into which a plan was merged -/

theorem declaredIn_of_merge
    {report : MergeReport}
    (h : testClass.merge settings plan = (merged, .ok report)) :
    plan.DeclaredIn merged := by
  obtain ⟨prepared, hprepared, rfl, -⟩ := merge_cases h
  have hkept := eq_of_withFixture hprepared
  have hdeclared := declaredIn_withDeclarations testClass plan
  rw [addMethods, hkept]
  exact ⟨hdeclared.superclass, hdeclared.fields⟩

/-- A merge that succeeds leaves the plan present. -/
theorem presentIn_of_merge
    {report : MergeReport}
    (h : testClass.merge settings plan = (merged, .ok report)) :
    plan.PresentIn settings merged := by
  have hdeclared := declaredIn_of_merge h
  refine ⟨hdeclared.superclass, hdeclared.fields, ?_⟩
  obtain ⟨prepared, -, rfl, -⟩ := merge_cases h
  intro feature hfeature
  exact name_mem_addMethods hfeature

/-- Merging a plan that is present changes nothing. -/
theorem merge_of_presentIn
    (h : plan.PresentIn settings testClass) :
    testClass.merge settings plan = (testClass, .ok (.unchanged plan)) := by
  have hsift := Member.sift_of_forall_taken h.features
  have hmethods := addMethods_of_forall_present h.features
  have hnames := plan.names_featureMethods settings
  simp [merge_of_declaredIn h.declaredIn, hsift, hmethods, hnames, MergeReport.unchanged]

end TestClass

/-! ## A class with a collaborator, and a target with a fixture -/

/-- A service that asks its repository, and another method of its own. -/
def orderService : ClassDecl where
  name := "shop.Orders"
  fields := [{ name := "repo", type := .named "shop.Repo", modifiers := [.privateAccess] }]
  methods := [
    { name := "describe"
      modifiers := [.publicAccess]
      returnType := some (.named "java.lang.String")
      params := [⟨"id", .primitive "long"⟩]
      callSites := [
        { target := ⟨"shop.Repo", "find", [.primitive "long"]⟩, args := ["id"] },
        { target := ⟨"shop.Orders", "discount", []⟩ }] },
    { name := "discount"
      modifiers := [.publicAccess]
      returnType := some (.primitive "int") }]

/-- The repository of the service. -/
def orderRepo : ClassDecl :=
  { ClassDecl.interface "shop.Repo" with
    methods := [
      { name := "find"
        modifiers := [.publicAccess, .abstract]
        returnType := some (.named "java.lang.String")
        params := [⟨"id", .primitive "long"⟩]
        hasBody := false }] }

def orderSnapshot : Snapshot :=
  .ofClasses [orderService, orderRepo]

/-- A store that creates nothing and holds a class with a fixture method and one feature. -/
def orderStore : Store where
  testClasses := .ofList [("shop.OrdersTest", {
    package := "shop"
    name := "OrdersTest"
    methods := [
      ⟨"setup", "def setup()\x7b\x7d"⟩,
      ⟨"discountTest", "def \"discountTest\"()\x7b\n\x7d"⟩] })]
  allowCreate := false

def orderTask : GenerationTask where
  className := "shop.Orders"
  selection := ["describe", "discount"]

/-! ## Whole generations -/

namespace Settings

variable {settings : Settings} {snapshot : Snapshot} {store after : Store} {task : GenerationTask}

/-- Carrying out a task that succeeded once more succeeds, leaves the store as it is, and reports
nothing but the skipped features of the plan in their order. -/
theorem generate_twice
    {result : GenerationResult}
    (h : settings.generate snapshot store task = (.ok result, after)) :
    ∃ plan cache,
      settings.plan snapshot task = .ok (plan, cache) ∧
        settings.generate snapshot after task =
          (.ok {
            target := settings.targetName task
            fieldsAdded := []
            fixtureUpdated := false
            methodsAdded := []
            methodsSkipped := plan.features.map (·.name)
            cache }, after) := by
  obtain ⟨plan, cache, testClass, merged, report, hplan, hopen, hmerge, -, rfl⟩ :=
    generate_cases h
  refine ⟨plan, cache, hplan, ?_⟩
  have hreopen := Store.openTarget_put_of_merge hopen hmerge
  have hagain := TestClass.merge_of_presentIn (TestClass.presentIn_of_merge hmerge)
  rw [generate_of_steps hplan hreopen hagain, Store.put_put_self]
  rfl

/-- The service into the class with the fixture: the first run adds two fields and a feature,
extends the fixture and skips the other feature, and the second run changes nothing. -/
theorem generate_twice_orderTask :
    ∃ after plan cache,
      standard.generate orderSnapshot orderStore orderTask =
          (.ok {
            target := "shop.OrdersTest"
            fieldsAdded := ["testObj", "repo"]
            fixtureUpdated := true
            methodsAdded := ["describeTest"]
            methodsSkipped := ["discountTest"]
            cache := ⟨2, 8, 0⟩ }, after) ∧
        standard.plan orderSnapshot orderTask = .ok (plan, cache) ∧
        standard.generate orderSnapshot after orderTask =
          (.ok {
            target := standard.targetName orderTask
            fieldsAdded := []
            fixtureUpdated := false
            methodsAdded := []
            methodsSkipped := plan.features.map (·.name)
            cache }, after) := by
  have hrun : standard.generate orderSnapshot orderStore orderTask =
      (.ok {
        target := "shop.OrdersTest"
        fieldsAdded := ["testObj", "repo"]
        fixtureUpdated := true
        methodsAdded := ["describeTest"]
        methodsSkipped := ["discountTest"]
        cache := ⟨2, 8, 0⟩ },
      (standard.generate orderSnapshot orderStore orderTask).2) := by
    rfl
  obtain ⟨plan, cache, hplan, hagain⟩ := generate_twice hrun
  exact ⟨_, plan, cache, hrun, hplan, hagain⟩

end Settings

end Specwright
