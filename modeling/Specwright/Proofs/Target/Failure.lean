import Specwright.Proofs.Target.Difference

/-!
# What a failed generation leaves behind

A generation can fail at three steps.  Without a plan, or when the store refuses the target, nothing
has been written.  A merge fails over one thing only, a fixture method that is wanted and has no
closing brace, and has put in the declarations by then.
-/

namespace Specwright

namespace TestClass

variable {testClass merged : TestClass} {settings : Settings} {plan : TestPlan}

/-- A merge fails exactly when a double is to be assigned in a fixture method without a brace.  It
has written the declarations then, and no method. -/
theorem merge_eq_error_iff
    {cause : FixtureError} :
    testClass.merge settings plan = (merged, .error cause) ↔
      merged = testClass.withDeclarations plan ∧
        cause = ⟨settings.naming.fixtureName⟩ ∧
        (∃ double ∈ plan.doubles,
          double.name ∉ testClass.fields.map (·.name) ∧ double.name ≠ plan.subject.name) ∧
        ∃ fixture, testClass.methods.find? (·.name = settings.naming.fixtureName) = some fixture ∧
          '\x7d' ∉ fixture.text.toList := by
  have hstep : testClass.merge settings plan = (merged, .error cause) ↔
      merged = testClass.withDeclarations plan ∧
        (testClass.withDeclarations plan).withFixture settings.naming
          (testClass.newAssignments settings plan) = .error cause := by
    rw [merge]
    split
    next other hother =>
      rw [newAssignments, hother]
      simp only [Prod.mk.injEq, Except.error.injEq, eq_comm]
    next prepared hprepared =>
      rw [newAssignments, hprepared]
      simp
  have hwanted : testClass.newAssignments settings plan ≠ [] ↔
      ∃ double ∈ plan.doubles,
        double.name ∉ testClass.fields.map (·.name) ∧ double.name ≠ plan.subject.name := by
    rw [ne_eq, newAssignments_eq_nil_iff]
    push Not
    rfl
  have hmethods : (testClass.withDeclarations plan).methods = testClass.methods := rfl
  rw [hstep, withFixture_eq_error_iff, hwanted, hmethods]
  tauto

/-- The fields after the declarations: behind the old ones the first of each new name. -/
theorem fields_withDeclarations :
    (testClass.withDeclarations plan).fields =
      testClass.fields ++
        distinctBy (·.name) ((plan.subjectField :: plan.doubleFields).filter
          (·.name ∉ testClass.fields.map (·.name))) := by
  rw [← Member.admitted_eq_distinctBy]
  rfl

end TestClass

namespace Store

variable {store : Store} {target : String} {testClass : TestClass}

/-- A class that is handed out with a method is one that the store holds. -/
theorem get?_of_openTarget_of_mem
    {method : Member} (h : store.openTarget target = .ok testClass)
    (hmethod : method ∈ testClass.methods) :
    store.get? target = some testClass := by
  rcases (openTarget_cases h).2 with hheld | ⟨-, rfl⟩
  · exact hheld
  · cases hmethod

end Store

namespace Settings

variable {settings : Settings} {snapshot : Snapshot} {store after : Store} {task : GenerationTask}
variable {cause : GenerationFailure}

theorem plan_ne_fixture
    {fixture : FixtureError} : settings.plan snapshot task ≠ .error (.fixture fixture) := by
  intro h
  simp only [Settings.plan] at h
  split at h
  · cases h
  · split at h
    split at h
    next failed _ =>
      cases failed <;> cases h
    next => cases h

/-- The three steps at which a generation fails, and the store behind each. -/
theorem generate_error_cases
    (h : settings.generate snapshot store task = (.error cause, after)) :
    (settings.plan snapshot task = .error cause ∧ after = store) ∨
      ∃ plan cache, settings.plan snapshot task = .ok (plan, cache) ∧
        ((∃ refusal, store.openTarget (settings.targetName task) = .error refusal ∧
            cause = .target refusal ∧ after = store) ∨
          ∃ testClass merged fixture,
            store.openTarget (settings.targetName task) = .ok testClass ∧
              testClass.merge settings plan = (merged, .error fixture) ∧
              cause = .fixture fixture ∧
              after = store.put (settings.targetName task) merged) := by
  simp only [generate] at h
  split at h
  next failed hplan =>
    cases h
    exact Or.inl ⟨hplan, rfl⟩
  next plan cache hplan =>
    refine Or.inr ⟨plan, cache, hplan, ?_⟩
    split at h
    next refusal hopen =>
      cases h
      exact Or.inl ⟨refusal, hopen, rfl, rfl⟩
    next testClass hopen =>
      split at h
      next merged fixture hmerge =>
        cases h
        exact Or.inr ⟨testClass, merged, fixture, hopen, hmerge, rfl, rfl⟩
      next => cases h

/-- A generation fails over the fixture method exactly when there are a plan and a target of which
the merge fails. -/
theorem generate_eq_fixture_iff
    {fixture : FixtureError} :
    settings.generate snapshot store task = (.error (.fixture fixture), after) ↔
      ∃ plan cache testClass merged,
        settings.plan snapshot task = .ok (plan, cache) ∧
          store.openTarget (settings.targetName task) = .ok testClass ∧
          testClass.merge settings plan = (merged, .error fixture) ∧
          after = store.put (settings.targetName task) merged := by
  constructor
  · intro h
    rcases generate_error_cases h with ⟨hplan, -⟩ | ⟨plan, cache, hplan, hopened⟩
    · exact absurd hplan plan_ne_fixture
    · rcases hopened with
        ⟨refusal, -, hcause, -⟩ | ⟨testClass, merged, _, hopen, hmerge, hcause, rfl⟩
      · cases hcause
      · cases hcause
        exact ⟨plan, cache, testClass, merged, hplan, hopen, hmerge, rfl⟩
  · rintro ⟨plan, cache, testClass, merged, hplan, hopen, hmerge, rfl⟩
    simp [generate, hplan, hopen, hmerge]

/-- A generation that fails leaves the store as it was, unless it fails over the fixture method.
That happens exactly when there are a plan and a target, a double is to be assigned, and the fixture
method has no brace; the target has the new fields then, and nothing else is changed. -/
theorem generate_failure
    (settings : Settings) (snapshot : Snapshot) (store : Store) (task : GenerationTask) :
    (∀ cause after, settings.generate snapshot store task = (.error cause, after) →
      (∀ fixture, cause ≠ .fixture fixture) → after = store) ∧
    ((∃ fixture after,
        settings.generate snapshot store task = (.error (.fixture fixture), after)) ↔
      ∃ plan cache old,
        settings.plan snapshot task = .ok (plan, cache) ∧
          store.openTarget (settings.targetName task) = .ok old ∧
          (∃ double ∈ plan.doubles,
            double.name ∉ old.fields.map (·.name) ∧
              double.name ≠ settings.naming.subjectName) ∧
          ∃ method, old.methods.find? (·.name = settings.naming.fixtureName) = some method ∧
            '\x7d' ∉ method.text.toList) ∧
    ∀ fixture after,
      settings.generate snapshot store task = (.error (.fixture fixture), after) →
        fixture = ⟨settings.naming.fixtureName⟩ ∧
          after.allowCreate = store.allowCreate ∧
          (∀ other, other ≠ settings.targetName task → after.get? other = store.get? other) ∧
          ∃ plan cache old new,
            settings.plan snapshot task = .ok (plan, cache) ∧
              store.get? (settings.targetName task) = some old ∧
              after.get? (settings.targetName task) = some new ∧
              new.methods = old.methods ∧
              new.fields = old.fields ++
                distinctBy (·.name) ((plan.subjectField :: plan.doubleFields).filter
                  (·.name ∉ old.fields.map (·.name))) := by
  refine ⟨?_, ?_, ?_⟩
  · intro cause after h hother
    rcases generate_error_cases h with ⟨-, rfl⟩ | ⟨plan, cache, -, hopened⟩
    · rfl
    · rcases hopened with ⟨-, -, -, rfl⟩ | ⟨-, -, fixture, -, -, rfl, -⟩
      · rfl
      · exact absurd rfl (hother fixture)
  · constructor
    · rintro ⟨fixture, after, h⟩
      -- A plan names its subject as the settings do, so both sides leave out the same double.
      obtain ⟨plan, cache, old, merged, hplan, hopen, hmerge, -⟩ := generate_eq_fixture_iff.mp h
      obtain ⟨-, -, hdouble, hmethod⟩ := TestClass.merge_eq_error_iff.mp hmerge
      rw [subjectName_of_plan hplan] at hdouble
      exact ⟨plan, cache, old, hplan, hopen, hdouble, hmethod⟩
    · rintro ⟨plan, cache, old, hplan, hopen, hdouble, hmethod⟩
      rw [← subjectName_of_plan hplan] at hdouble
      have hmerge := TestClass.merge_eq_error_iff.mpr ⟨rfl, rfl, hdouble, hmethod⟩
      exact ⟨_, _, generate_eq_fixture_iff.mpr ⟨plan, cache, old, _, hplan, hopen, hmerge, rfl⟩⟩
  · intro fixture after h
    obtain ⟨plan, cache, old, merged, hplan, hopen, hmerge, rfl⟩ := generate_eq_fixture_iff.mp h
    obtain ⟨rfl, rfl, -, method, hmethod, -⟩ := TestClass.merge_eq_error_iff.mp hmerge
    have hheld := Store.get?_of_openTarget_of_mem hopen (List.mem_of_find?_eq_some hmethod)
    refine ⟨rfl, rfl, fun other hother => Store.get?_put_of_ne hother, ?_⟩
    exact ⟨plan, cache, old, _, hplan, hheld, Store.get?_put_self, rfl,
      TestClass.fields_withDeclarations⟩

/-- The service into a class whose fixture method is cut off. -/
example :
    (standard.generate orderSnapshot
      { testClasses := .ofList [("shop.OrdersTest", {
          name := "OrdersTest"
          methods := [⟨"setup", "def setup()\x7b"⟩] })] }
      orderTask).1 = .error (.fixture ⟨"setup"⟩) := by
  decide +kernel

end Settings

end Specwright
