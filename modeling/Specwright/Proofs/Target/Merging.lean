import Mathlib.Data.List.Basic
import Specwright.Target.Generation

/-!
# What a merge adds and keeps

Sifting members by name is described first, then each way in which a merge changes a class: the
superclass, the fields, the fixture method and the feature methods.  The last part takes a merge and
a whole generation apart, so that results about them need not look into their definitions.
-/

namespace Specwright

namespace SortedMap

variable {α : Type}

theorem insertEntry_insertEntry_self (key : String) (value : α) (entries : List (String × α)) :
    insertEntry key value (insertEntry key value entries) = insertEntry key value entries := by
  induction entries with
  | nil => simp [insertEntry]
  | cons first rest ih =>
      obtain ⟨other, old⟩ := first
      by_cases hlt : key < other
      · simp [insertEntry, hlt]
      · by_cases heq : key = other
        · simp [insertEntry, heq]
        · simp [insertEntry, hlt, heq, ih]

/-- An entry that was put in its place can be put there again without effect. -/
theorem insert_insert_self (map : SortedMap α) (key : String) (value : α) :
    (map.insert key value).insert key value = map.insert key value := by
  simp [insert, insertEntry_insertEntry_self]

end SortedMap

namespace Member

variable {taken : List String} {members : List Member}

theorem sift_of_forall_taken
    (h : ∀ member ∈ members, member.name ∈ taken) :
    sift taken members = ([], members) := by
  induction members with
  | nil => rfl
  | cons member rest ih =>
      obtain ⟨hfirst, hrest⟩ := List.forall_mem_cons.mp h
      rw [sift, if_pos hfirst, ih hrest]

/-- A sift leaves no name free: each is taken at the start or by an admitted member. -/
theorem name_taken_of_mem
    {member : Member} (h : member ∈ members) :
    member.name ∈ taken ∨ member.name ∈ (sift taken members).1.map (·.name) := by
  induction members generalizing taken with
  | nil => cases h
  | cons first rest ih =>
      rw [sift]
      split
      next htaken =>
        rcases List.mem_cons.mp h with rfl | hrest
        · exact Or.inl htaken
        · exact ih hrest
      next hfree =>
        rcases List.mem_cons.mp h with rfl | hrest
        · exact Or.inr (by simp)
        -- The rest is sifted with one more name taken, which the first member brought.
        · rcases @ih (first.name :: taken) hrest with htaken | hadmitted
          · rcases List.mem_cons.mp htaken with heq | hold
            · exact Or.inr (by simp [heq])
            · exact Or.inl hold
          · exact Or.inr (List.mem_cons_of_mem _ hadmitted)

theorem sift_of_fresh
    (hdistinct : (members.map (·.name)).Nodup)
    (hfresh : ∀ member ∈ members, member.name ∉ taken) :
    sift taken members = (members, []) := by
  induction members generalizing taken with
  | nil => rfl
  | cons first rest ih =>
      obtain ⟨hnew, hrest⟩ := List.nodup_cons.mp hdistinct
      have hfree : first.name ∉ taken := hfresh first List.mem_cons_self
      have hfresh' : ∀ member ∈ rest, member.name ∉ first.name :: taken := by
        intro member hmem hin
        rcases List.mem_cons.mp hin with heq | hold
        · exact hnew (List.mem_map.mpr ⟨member, hmem, heq⟩)
        · exact hfresh member (List.mem_cons_of_mem _ hmem) hold
      rw [sift, if_neg hfree, ih hrest hfresh']

theorem sift_singleton_of_fresh
    {member : Member} (h : member.name ∉ taken) : sift taken [member] = ([member], []) :=
  sift_of_fresh (by simp) (by simpa using h)

theorem admitted_eq_nil_iff :
    (sift taken members).1 = [] ↔ ∀ member ∈ members, member.name ∈ taken := by
  constructor
  · intro hnone member hmem
    rcases name_taken_of_mem hmem with htaken | hadmitted
    · exact htaken
    · rw [hnone] at hadmitted
      cases hadmitted
  · intro htaken
    rw [sift_of_forall_taken htaken]

theorem refused_eq_nil_iff :
    (sift taken members).2 = [] ↔
      (members.map (·.name)).Nodup ∧ ∀ member ∈ members, member.name ∉ taken := by
  constructor
  · intro hnone
    induction members generalizing taken with
    | nil => simp
    | cons first rest ih =>
        rw [sift] at hnone
        split at hnone
        next htaken => simp at hnone
        next hfree =>
          obtain ⟨hrest, hfresh⟩ := ih hnone
          constructor
          · refine List.nodup_cons.mpr ⟨?_, hrest⟩
            intro hmem
            obtain ⟨member, hin, heq⟩ := List.mem_map.mp hmem
            exact hfresh member hin (by simp [heq])
          · intro member hmem
            rcases List.mem_cons.mp hmem with rfl | hin
            · exact hfree
            · exact fun hold => hfresh member hin (List.mem_cons_of_mem _ hold)
  · rintro ⟨hdistinct, hfresh⟩
    rw [sift_of_fresh hdistinct hfresh]

end Member

theorem TestPlan.names_featureMethods (plan : TestPlan) (settings : Settings) :
    (plan.featureMethods settings).map (·.name) = plan.features.map (·.name) := by
  simp [featureMethods, Function.comp_def]

namespace TestClass

variable {testClass prepared : TestClass} {naming : Naming} {statements : List String}

theorem addFields_of_forall_present
    {fields : List Member}
    (h : ∀ field ∈ fields, field.name ∈ testClass.fields.map (·.name)) :
    testClass.addFields fields = testClass := by
  simp [addFields, Member.sift_of_forall_taken h]

theorem addMethods_of_forall_present
    {methods : List Member}
    (h : ∀ method ∈ methods, method.name ∈ testClass.methodNames) :
    testClass.addMethods methods = testClass := by
  simp [addMethods, Member.sift_of_forall_taken h]

theorem name_mem_addFields
    {fields : List Member} {field : Member} (h : field ∈ fields) :
    field.name ∈ (testClass.addFields fields).fields.map (·.name) := by
  rw [addFields, List.map_append, List.mem_append]
  exact Member.name_taken_of_mem h

theorem name_mem_addMethods
    {methods : List Member} {method : Member} (h : method ∈ methods) :
    method.name ∈ (testClass.addMethods methods).methodNames := by
  rw [methodNames, addMethods, List.map_append, List.mem_append]
  exact Member.name_taken_of_mem h

/-! ## The fixture method -/

theorem names_extendFirst
    {name : String} {members extended : List Member}
    (h : extendFirst name statements members = .ok (some extended)) :
    extended.map (·.name) = members.map (·.name) := by
  induction members generalizing extended with
  | nil => simp [extendFirst] at h
  | cons first rest ih =>
      rw [extendFirst] at h
      split at h
      next heq =>
        split at h
        · cases h
          rfl
        · cases h
      next hne =>
        split at h
        next found hfound =>
          cases found with
          | none => simp at h
          | some rest' =>
              obtain rfl : first :: rest' = extended := by simpa using h
              simp [ih hfound]
        next => cases h

theorem extendFirst_eq_none_iff
    {name : String} {members : List Member} :
    extendFirst name statements members = .ok none ↔ name ∉ members.map (·.name) := by
  induction members with
  | nil => simp [extendFirst]
  | cons first rest ih =>
      rw [extendFirst]
      split
      next heq => split <;> simp [heq]
      next hne =>
        have hne' : name ≠ first.name := fun h => hne h.symm
        rw [List.map_cons, List.mem_cons, not_or, ← ih]
        split
        next found hfound => cases found <;> simp [hfound, hne']
        next cause hfound => simp [hfound]

/-- The three ways in which the fixture method is dealt with: it is not wanted, it is extended, or
it is missing and written. -/
theorem withFixture_cases
    (h : testClass.withFixture naming statements = .ok prepared) :
    (statements = [] ∧ prepared = testClass) ∨
      (statements ≠ [] ∧ ∃ methods,
        extendFirst naming.fixtureName statements testClass.methods = .ok (some methods) ∧
          prepared = { testClass with methods }) ∨
      (statements ≠ [] ∧ naming.fixtureName ∉ testClass.methodNames ∧
        prepared = testClass.addMethods [⟨naming.fixtureName, naming.fixture statements⟩]) := by
  by_cases hempty : statements = []
  · subst hempty
    exact Or.inl ⟨rfl, by simpa [withFixture] using h.symm⟩
  · simp only [withFixture, List.isEmpty_iff, hempty, if_false, extendMethod] at h
    cases hextend : extendFirst naming.fixtureName statements testClass.methods with
    | error cause => simp [hextend] at h
    | ok found =>
        cases found with
        | some methods =>
            refine Or.inr (Or.inl ⟨hempty, methods, rfl, ?_⟩)
            simpa [hextend] using h.symm
        | none =>
            refine Or.inr (Or.inr ⟨hempty, extendFirst_eq_none_iff.mp hextend, ?_⟩)
            simpa [hextend] using h.symm

/-- Dealing with the fixture method changes methods only. -/
theorem eq_of_withFixture
    (h : testClass.withFixture naming statements = .ok prepared) :
    prepared = { testClass with methods := prepared.methods } := by
  rcases withFixture_cases h with ⟨-, rfl⟩ | ⟨-, methods, -, rfl⟩ | ⟨-, -, rfl⟩ <;> rfl

/-- The fixture method comes behind the old methods when it is wanted and missing, and no other name
is new. -/
theorem methodNames_of_withFixture
    (h : testClass.withFixture naming statements = .ok prepared) :
    prepared.methodNames =
      testClass.methodNames ++
        if statements = [] ∨ naming.fixtureName ∈ testClass.methodNames then []
        else [naming.fixtureName] := by
  rcases withFixture_cases h with
    ⟨hempty, rfl⟩ | ⟨hsome, methods, hextend, rfl⟩ | ⟨hsome, habsent, rfl⟩
  · simp [hempty]
  · have hnames := names_extendFirst hextend
    have hpresent : naming.fixtureName ∈ testClass.methodNames := by
      by_contra habsent
      rw [extendFirst_eq_none_iff.mpr habsent] at hextend
      simp at hextend
    rw [if_pos (Or.inr hpresent), List.append_nil]
    exact hnames
  · rw [if_neg (not_or.mpr ⟨hsome, habsent⟩), methodNames, addMethods,
      Member.sift_singleton_of_fresh habsent]
    simp [methodNames]

/-! ## Merges and generations -/

/-- The statements that assign the doubles of a plan that are new to the class. -/
def newAssignments (testClass : TestClass) (settings : Settings) (plan : TestPlan) :
    List String :=
  (testClass.newDoubles plan).map fun double => settings.naming.assignment double.name

/-- A merge that succeeds writes the declarations, deals with the fixture method, and adds the
features that are new to the class that it has by then. -/
theorem merge_cases
    {settings : Settings} {plan : TestPlan} {merged : TestClass} {report : MergeReport}
    (h : testClass.merge settings plan = (merged, .ok report)) :
    ∃ prepared,
      (testClass.withDeclarations plan).withFixture settings.naming
          (testClass.newAssignments settings plan) = .ok prepared ∧
        merged = prepared.addMethods (plan.featureMethods settings) ∧
        report = {
          fieldsAdded :=
            (testClass.newFields (plan.subjectField :: plan.doubleFields)).map (·.name)
          fixtureUpdated := !(testClass.newAssignments settings plan).isEmpty
          methodsAdded :=
            (Member.sift prepared.methodNames (plan.featureMethods settings)).1.map (·.name)
          methodsSkipped :=
            (Member.sift prepared.methodNames (plan.featureMethods settings)).2.map (·.name) } := by
  simp only [merge] at h
  split at h
  · cases h
  next prepared hprepared =>
    cases h
    exact ⟨prepared, hprepared, rfl, rfl⟩

theorem merge_of_withFixture
    {settings : Settings} {plan : TestPlan}
    (h : (testClass.withDeclarations plan).withFixture settings.naming
      (testClass.newAssignments settings plan) = .ok prepared) :
    ∃ report, testClass.merge settings plan =
      (prepared.addMethods (plan.featureMethods settings), .ok report) := by
  rw [newAssignments] at h
  rw [merge, h]
  exact ⟨_, rfl⟩

theorem readOnly_of_merge
    {settings : Settings} {plan : TestPlan} {merged : TestClass}
    {outcome : Except FixtureError MergeReport}
    (h : testClass.merge settings plan = (merged, outcome)) :
    merged.readOnly = testClass.readOnly := by
  cases outcome with
  | error cause =>
      simp only [merge] at h
      split at h <;> cases h
      rfl
  | ok report =>
      obtain ⟨prepared, hprepared, rfl, -⟩ := merge_cases h
      rw [addMethods, eq_of_withFixture hprepared]
      rfl

end TestClass

namespace Store

variable {store : Store} {target : String} {testClass : TestClass}

/-- A class that is handed out can be written to; it is the one that the store holds, or an empty
one where the store holds none. -/
theorem openTarget_cases
    (h : store.openTarget target = .ok testClass) :
    testClass.readOnly = false ∧
      (store.get? target = some testClass ∨
        store.get? target = none ∧ testClass = .ofName target) := by
  rw [openTarget] at h
  split at h
  next held hheld =>
    split at h
    · cases h
    next hwritable =>
      cases h
      exact ⟨by simpa using hwritable, Or.inl hheld⟩
  next hmissing =>
    split at h
    · cases h
      exact ⟨rfl, Or.inr ⟨hmissing, rfl⟩⟩
    · cases h

@[simp]
theorem get?_put_self : (store.put target testClass).get? target = some testClass :=
  SortedMap.get?_insert_self _ _ _

theorem put_put_self :
    (store.put target testClass).put target testClass = store.put target testClass := by
  simp [put, SortedMap.insert_insert_self]

/-- A class that was put back after a merge can be opened again: a merge leaves it writable. -/
theorem openTarget_put_of_merge
    {settings : Settings} {plan : TestPlan} {merged : TestClass}
    {outcome : Except FixtureError MergeReport} (hopen : store.openTarget target = .ok testClass)
    (hmerge : testClass.merge settings plan = (merged, outcome)) :
    (store.put target merged).openTarget target = .ok merged := by
  have hwritable : merged.readOnly = false := by
    rw [TestClass.readOnly_of_merge hmerge]
    exact (openTarget_cases hopen).1
  simp [openTarget, hwritable]

end Store

namespace Settings

variable {settings : Settings} {snapshot : Snapshot} {store after : Store} {task : GenerationTask}

/-- A plan is made for a class of the snapshot, from the model that a new session extracts. -/
theorem plan_cases
    {plan : TestPlan} {cache : CacheCounters}
    (h : settings.plan snapshot task = .ok (plan, cache)) :
    ∃ scope : Scope,
      Scope.open? snapshot task.className settings.modelOptions = some scope ∧
        TestPlan.build settings ((Session.extractSubject scope).run .empty).1 task.selection =
          .ok plan := by
  simp only [Settings.plan] at h
  split at h
  · cases h
  next scope hscope =>
    split at h
    next type _ hrun =>
      split at h
      · cases h
      next plan hplan =>
        cases h
        exact ⟨scope, hscope, by rw [hrun]; exact hplan⟩

/-- A generation that succeeds makes a plan, opens the target, merges the plan into it and puts it
back. -/
theorem generate_cases
    {result : GenerationResult}
    (h : settings.generate snapshot store task = (.ok result, after)) :
    ∃ plan cache testClass merged report,
      settings.plan snapshot task = .ok (plan, cache) ∧
        store.openTarget (settings.targetName task) = .ok testClass ∧
        testClass.merge settings plan = (merged, .ok report) ∧
        result = { report with target := settings.targetName task, cache } ∧
        after = store.put (settings.targetName task) merged := by
  simp only [generate] at h
  split at h
  · cases h
  next plan cache hplan =>
    split at h
    · cases h
    next testClass hopen =>
      split at h
      · cases h
      next merged report hmerge =>
        cases h
        exact ⟨plan, cache, testClass, merged, report, hplan, hopen, hmerge, rfl, rfl⟩

/-- The three steps of a generation, put together. -/
theorem generate_of_steps
    {plan : TestPlan} {cache : CacheCounters} {testClass merged : TestClass} {report : MergeReport}
    (hplan : settings.plan snapshot task = .ok (plan, cache))
    (hopen : store.openTarget (settings.targetName task) = .ok testClass)
    (hmerge : testClass.merge settings plan = (merged, .ok report)) :
    settings.generate snapshot store task =
      (.ok { report with target := settings.targetName task, cache },
        store.put (settings.targetName task) merged) := by
  simp [generate, hplan, hopen, hmerge]

end Settings

end Specwright
