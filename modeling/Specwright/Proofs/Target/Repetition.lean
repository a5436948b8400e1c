import Specwright.Proofs.Target.Failure

/-!
# Repeating a generation that failed

A generation that fails before the merge leaves the store as it was, so it fails in the same way
when it is repeated.  One that fails over the fixture method has put in the declarations.  No double
is new to the class then, so a second run leaves the fixture method alone and goes through.
-/

namespace Specwright

/-- The names of the members that are left over: all names but one of each that is taken. -/
theorem Member.names_refused (taken : List String) (members : List Member) :
    (sift taken members).2.map (·.name) =
      (members.map (·.name)).diff ((sift taken members).1.map (·.name)) := by
  induction members generalizing taken with
  | nil => rfl
  | cons first rest ih =>
      rw [sift]
      split
      next htaken =>
        have hnot : first.name ∉ (sift taken rest).1.map (·.name) := by
          intro hmem
          obtain ⟨member, hmember, heq⟩ := List.mem_map.mp hmem
          rw [← heq] at htaken
          exact not_taken_of_mem_admitted hmember htaken
        rw [List.map_cons, List.map_cons, List.cons_diff_of_not_mem hnot, ih]
      next =>
        rw [List.map_cons, List.map_cons, List.diff_cons, List.erase_cons_head, ih]

/-- A merge into a class that has the declarations of the plan adds the first feature of each new
name. -/
theorem TestClass.merge_of_declaredIn_eq_distinctBy
    {testClass : TestClass} {settings : Settings} {plan : TestPlan} {added : List Member}
    (h : plan.DeclaredIn testClass)
    (hadded : added = distinctBy (·.name)
      ((plan.featureMethods settings).filter (·.name ∉ testClass.methodNames))) :
    testClass.merge settings plan =
      ({ testClass with methods := testClass.methods ++ added },
        .ok {
          fieldsAdded := []
          fixtureUpdated := false
          methodsAdded := added.map (·.name)
          methodsSkipped := (plan.features.map (·.name)).diff (added.map (·.name)) }) := by
  rw [merge_of_declaredIn h, Member.names_refused, plan.names_featureMethods, addMethods,
    Member.admitted_eq_distinctBy, ← hadded]

namespace Settings

variable {settings : Settings} {snapshot : Snapshot} {store after : Store} {task : GenerationTask}
variable {cause : GenerationFailure}

/-- A generation that failed fails in the same way when it is repeated on the store that it left
behind, unless it failed over the fixture method.  In that case the declarations have stayed, and
the second run goes through: it adds no field, leaves the fixture method as it is, and adds the
features that are new. -/
theorem generate_again_of_error
    (h : settings.generate snapshot store task = (.error cause, after)) :
    ((∀ fixture, cause ≠ .fixture fixture) →
      after = store ∧ settings.generate snapshot after task = (.error cause, after)) ∧
    ∀ fixture, cause = .fixture fixture →
      ∃ plan cache testClass added,
        settings.plan snapshot task = .ok (plan, cache) ∧
          plan.DeclaredIn testClass ∧
          after.get? (settings.targetName task) = some testClass ∧
          added = distinctBy (·.name)
            ((plan.featureMethods settings).filter (·.name ∉ testClass.methodNames)) ∧
          settings.generate snapshot after task =
            (.ok {
              target := settings.targetName task
              fieldsAdded := []
              fixtureUpdated := false
              methodsAdded := added.map (·.name)
              methodsSkipped := (plan.features.map (·.name)).diff (added.map (·.name))
              cache },
            after.put (settings.targetName task)
              { testClass with methods := testClass.methods ++ added }) := by
  constructor
  · intro hother
    rcases generate_error_cases h with ⟨-, rfl⟩ | ⟨plan, cache, -, hopened⟩
    · exact ⟨rfl, h⟩
    · rcases hopened with ⟨-, -, -, rfl⟩ | ⟨-, -, fixture, -, -, rfl, -⟩
      · exact ⟨rfl, h⟩
      · exact absurd rfl (hother fixture)
  · rintro fixture rfl
    obtain ⟨plan, cache, testClass, merged, hplan, hopen, hmerge, rfl⟩ :=
      generate_eq_fixture_iff.mp h
    -- The failed merge has written the declarations, so no double is left to be assigned.
    have hdeclared : plan.DeclaredIn merged := by
      obtain ⟨rfl, -⟩ := TestClass.merge_eq_error_iff.mp hmerge
      exact TestClass.declaredIn_withDeclarations testClass plan
    have hreopen := Store.openTarget_put_of_merge hopen hmerge
    refine ⟨plan, cache, merged, _, hplan, hdeclared, Store.get?_put_self, rfl, ?_⟩
    exact generate_of_steps hplan hreopen
      (TestClass.merge_of_declaredIn_eq_distinctBy hdeclared rfl)

end Settings

/-- A store with a class whose fixture method is cut off. -/
def cutOffStore : Store where
  testClasses := .ofList [("shop.OrdersTest", {
    package := "shop"
    name := "OrdersTest"
    methods := [⟨"setup", "def setup()"⟩] })]

namespace Settings

theorem generate_cutOffStore :
    standard.generate orderSnapshot cutOffStore orderTask =
      (.error (.fixture ⟨"setup"⟩),
        (standard.generate orderSnapshot cutOffStore orderTask).2) :=
  -- The parentheses keep the run from being evaluated again as a rewriting rule.
  (rfl)

theorem generate_again_of_error_orderTask :
    ∃ after,
      standard.generate orderSnapshot cutOffStore orderTask =
          (.error (.fixture ⟨"setup"⟩), after) ∧
        ∃ plan cache testClass added,
          standard.plan orderSnapshot orderTask = .ok (plan, cache) ∧
            plan.DeclaredIn testClass ∧
            after.get? (standard.targetName orderTask) = some testClass ∧
            added = distinctBy (·.name)
              ((plan.featureMethods standard).filter (·.name ∉ testClass.methodNames)) ∧
            standard.generate orderSnapshot after orderTask =
              (.ok {
                target := standard.targetName orderTask
                fieldsAdded := []
                fixtureUpdated := false
                methodsAdded := added.map (·.name)
                methodsSkipped := (plan.features.map (·.name)).diff (added.map (·.name))
                cache },
              after.put (standard.targetName orderTask)
                { testClass with methods := testClass.methods ++ added }) := by
  exact ⟨_, generate_cutOffStore, (generate_again_of_error generate_cutOffStore).2 _ rfl⟩

/-- The first run fails over the fixture method, and the second one does not. -/
theorem generate_again_goes_through :
    ¬∀ (settings : Settings) (snapshot : Snapshot) (store after : Store) (task : GenerationTask)
        (cause : GenerationFailure),
      settings.generate snapshot store task = (.error cause, after) →
        (settings.generate snapshot after task).1 = .error cause := by
  intro hsame
  have hsecond : (standard.generate orderSnapshot
        (standard.generate orderSnapshot cutOffStore orderTask).2 orderTask).1 =
      .ok {
        target := "shop.OrdersTest"
        fieldsAdded := []
        fixtureUpdated := false
        methodsAdded := ["describeTest", "discountTest"]
        methodsSkipped := []
        cache := ⟨2, 8, 0⟩ } := rfl
  have hfailed := hsame _ _ _ _ _ _ generate_cutOffStore
  rw [hsecond] at hfailed
  cases hfailed

end Settings

end Specwright
