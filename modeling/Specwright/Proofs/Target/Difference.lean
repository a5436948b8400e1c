import Specwright.Proofs.Feature.Planning
import Specwright.Proofs.Target.Insertion
import Specwright.Proofs.Target.Regeneration

/-!
# What a report says about a class

A merge keeps what a class has and puts new members behind it.  The one text that it may change is
that of the fixture method, and only by lines before its last brace.  The report of the merge names
the new members, so the class after a merge can be told from the class before it and the report:
nothing is left open but the texts of new members, which are those of the plan.
-/

namespace Specwright

namespace Member

variable {taken : List String}

theorem not_taken_of_mem_admitted
    {members : List Member} {member : Member} (h : member ∈ (sift taken members).1) :
    member.name ∉ taken := by
  rw [admitted_eq_distinctBy] at h
  have hkept := (distinctBy_sublist _).subset h
  simpa using (List.mem_filter.mp hkept).2

theorem admitted_append (taken : List String) (members others : List Member) :
    (sift taken (members ++ others)).1 =
      (sift taken members).1 ++
        (sift (taken ++ (sift taken members).1.map (·.name)) others).1 := by
  induction members generalizing taken with
  | nil =>
      rw [List.nil_append]
      exact admitted_congr (by simp [sift])
  | cons first rest ih =>
      rw [List.cons_append, sift, sift]
      by_cases htaken : first.name ∈ taken
      · simp only [htaken, if_true]
        exact ih taken
      · simp only [htaken, if_false, List.map_cons, List.cons_append, ih (first.name :: taken)]
        congr 2
        refine admitted_congr fun name => ?_
        simp only [List.mem_cons, List.mem_append]
        tauto

end Member

namespace TestClass

variable {testClass prepared : TestClass} {settings : Settings} {plan : TestPlan}

/-! ## Fields -/

theorem newFields_append (testClass : TestClass) (fields others : List Member) :
    testClass.newFields (fields ++ others) =
      testClass.newFields fields ++ (testClass.addFields fields).newFields others := by
  rw [newFields, Member.admitted_append, newFields, newFields, addFields, List.map_append]

/-- The doubles that are new to a class are its new fields without that of the subject. -/
theorem names_newDoubles :
    (testClass.newDoubles plan).map (·.name) =
      ((testClass.newFields (plan.subjectField :: plan.doubleFields)).map (·.name)).filter
        (· ≠ plan.subject.name) := by
  have hsplit : testClass.newFields (plan.subjectField :: plan.doubleFields) =
      testClass.newFields [plan.subjectField] ++ testClass.newDoubles plan :=
    newFields_append testClass [plan.subjectField] plan.doubleFields
  have hsubject : ∀ name ∈ (testClass.newFields [plan.subjectField]).map (·.name),
      name = plan.subject.name := by
    intro name hname
    obtain ⟨field, hfield, rfl⟩ := List.mem_map.mp hname
    rw [newFields] at hfield
    rw [List.mem_singleton.mp (Member.mem_of_mem_admitted hfield)]
    rfl
  have hdouble : ∀ name ∈ (testClass.newDoubles plan).map (·.name),
      name ≠ plan.subject.name := by
    intro name hname heq
    obtain ⟨double, hdouble, rfl⟩ := List.mem_map.mp hname
    refine Member.not_taken_of_mem_admitted hdouble ?_
    rw [heq]
    exact mem_names_addFields_singleton.mpr (Or.inr rfl)
  rw [hsplit, List.map_append, List.filter_append]
  rw [List.filter_eq_nil_iff.mpr, List.nil_append, List.filter_eq_self.mpr]
  · simpa using hdouble
  · simpa using hsubject

/-- The statements wanted in the fixture method assign the new fields but that of the subject. -/
theorem newAssignments_eq
    (testClass : TestClass) (hsubject : plan.subject.name = settings.naming.subjectName) :
    testClass.newAssignments settings plan =
      (((testClass.newFields (plan.subjectField :: plan.doubleFields)).map (·.name)).filter
        (· ≠ settings.naming.subjectName)).map settings.naming.assignment := by
  rw [← hsubject, ← names_newDoubles, List.map_map]
  rfl

/-! ## Methods -/

/-- The methods once the fixture method is dealt with: the old ones, with statements in the fixture
method if there is one, and behind them nothing but a fixture method. -/
theorem methods_of_withFixture
    {naming : Naming} {statements : List String}
    (h : testClass.withFixture naming statements = .ok prepared) :
    ∃ kept written,
      prepared.methods = kept ++ written ∧
        (∀ method ∈ written, method = ⟨naming.fixtureName, naming.fixture statements⟩) ∧
        if statements ≠ [] ∧ naming.fixtureName ∈ testClass.methodNames then
          FirstExtendedBy naming.fixtureName statements testClass.methods kept
        else kept = testClass.methods := by
  rcases withFixture_cases h with
    ⟨hempty, rfl⟩ | ⟨hsome, methods, hextend, rfl⟩ | ⟨hsome, habsent, rfl⟩
  · exact ⟨prepared.methods, [], by simp, by simp, by simp [hempty]⟩
  · have hpresent : naming.fixtureName ∈ testClass.methodNames := by
      by_contra habsent
      rw [extendFirst_eq_none_iff.mpr habsent] at hextend
      simp at hextend
    refine ⟨methods, [], by simp, by simp, ?_⟩
    rw [if_pos ⟨hsome, hpresent⟩]
    exact firstExtendedBy_of_extendFirst hextend
  · refine ⟨testClass.methods, _, rfl, ?_, by simp [habsent]⟩
    intro method hmethod
    exact List.mem_singleton.mp (Member.mem_of_mem_admitted hmethod)

end TestClass

/-! ## Reports -/

namespace MergeReport

/-- The statements that assign the doubles which a report names. -/
def assignments (report : MergeReport) (naming : Naming) : List String :=
  (report.fieldsAdded.filter (· ≠ naming.subjectName)).map fun name =>
    naming.subjectName ++ "." ++ name ++ " = " ++ name

/-- Whether a report accounts for what the merge of a plan made of a class. -/
structure Accounts
    (report : MergeReport) (settings : Settings) (plan : TestPlan) (old new : TestClass) :
    Prop where
  package : new.package = old.package
  name : new.name = old.name
  readOnly : new.readOnly = old.readOnly
  superclass : new.superclass = old.superclass.or (some plan.superclass)
  fields :
    ∃ added, new.fields = old.fields ++ added ∧ added.map (·.name) = report.fieldsAdded ∧
      added.Sublist (plan.subjectField :: plan.doubleFields)
  fixtureUpdated :
    report.fixtureUpdated = true ↔ ∃ name ∈ report.fieldsAdded, name ≠ settings.naming.subjectName
  methodNames :
    new.methodNames = old.methodNames ++
      (if report.fixtureUpdated = true ∧ settings.naming.fixtureName ∉ old.methodNames then
        [settings.naming.fixtureName] else []) ++
      report.methodsAdded
  /-- The old texts are kept, but for the assignments in the first method with the name of the
  fixture method. -/
  methods :
    ∃ kept added,
      new.methods = kept ++ added ∧
      (if report.fixtureUpdated = true ∧ settings.naming.fixtureName ∈ old.methodNames then
        FirstExtendedBy settings.naming.fixtureName (report.assignments settings.naming)
          old.methods kept
      else kept = old.methods) ∧
      ∀ method ∈ added,
        method = ⟨settings.naming.fixtureName,
          "def " ++ settings.naming.fixtureName ++ "()\x7b\n" ++
            String.join ((report.assignments settings.naming).map fun statement =>
              "    " ++ statement ++ "\n") ++
            "\x7d"⟩ ∨
        method ∈ plan.featureMethods settings
  features :
    Interleaves report.methodsAdded report.methodsSkipped (plan.features.map (·.name))

end MergeReport

namespace TestClass

variable {testClass merged : TestClass} {settings : Settings} {plan : TestPlan}
variable {report : MergeReport}

theorem accounts_of_merge
    (h : testClass.merge settings plan = (merged, .ok report))
    (hsubject : plan.subject.name = settings.naming.subjectName) :
    report.Accounts settings plan testClass merged := by
  obtain ⟨prepared, hprepared, rfl, hreport⟩ := merge_cases h
  have hassignments : testClass.newAssignments settings plan =
      report.assignments settings.naming := by
    rw [hreport]
    exact newAssignments_eq testClass hsubject
  subst hreport
  have hupdated : (!(testClass.newAssignments settings plan).isEmpty) = true ↔
      testClass.newAssignments settings plan ≠ [] := by
    simp
  have hkept := eq_of_withFixture hprepared
  have hnames := methodNames_of_withFixture hprepared
  obtain ⟨kept, written, hmethods, hwritten, hextended⟩ := methods_of_withFixture hprepared
  have hold : (testClass.withDeclarations plan).methodNames = testClass.methodNames := rfl
  rw [hold] at hnames hextended
  constructor
  case package | name | readOnly | superclass =>
    rw [addMethods, hkept]
    rfl
  case fields =>
    refine ⟨testClass.newFields (plan.subjectField :: plan.doubleFields), ?_, rfl, ?_⟩
    · rw [addMethods, hkept]
      rfl
    · exact (Member.interleaves_sift _ _).sublist_left
  case fixtureUpdated =>
    rw [hupdated, hassignments]
    simp [MergeReport.assignments]
  case methodNames =>
    simp only [hupdated]
    rw [methodNames, addMethods, List.map_append]
    congr 1
    refine hnames.trans (congrArg (testClass.methodNames ++ ·) ?_)
    by_cases hnone : testClass.newAssignments settings plan = []
    · simp [hnone]
    · by_cases hpresent : settings.naming.fixtureName ∈ testClass.methodNames
      · simp [hpresent]
      · simp [hnone, hpresent]
  case methods =>
    simp only [hupdated]
    rw [hassignments, Naming.fixture_eq] at hwritten
    refine ⟨kept, written ++ (Member.sift prepared.methodNames (plan.featureMethods settings)).1,
      ?_, ?_, ?_⟩
    · rw [addMethods, hmethods, List.append_assoc]
    · rwa [← hassignments]
    · intro method hmethod
      rcases List.mem_append.mp hmethod with hfixture | hfeature
      · exact Or.inl (hwritten method hfixture)
      · exact Or.inr (Member.mem_of_mem_admitted hfeature)
  case features =>
    have hwhole := (Member.interleaves_sift prepared.methodNames
      (plan.featureMethods settings)).map (·.name)
    rwa [plan.names_featureMethods settings] at hwhole

end TestClass

namespace Store

variable {store : Store} {target : String} {testClass : TestClass}

theorem get?_put_of_ne {other : String} (h : other ≠ target) :
    (store.put target testClass).get? other = store.get? other :=
  SortedMap.get?_insert_of_ne _ _ h

/-- The class that is opened is the one that the store holds; a missing one counts as empty. -/
theorem eq_getD_of_openTarget (h : store.openTarget target = .ok testClass) :
    testClass = (store.get? target).getD (.ofName target) := by
  rcases (openTarget_cases h).2 with hheld | ⟨hmissing, rfl⟩
  · rw [hheld]
    rfl
  · rw [hmissing]
    rfl

end Store

namespace Settings

variable {settings : Settings} {snapshot : Snapshot} {store after : Store} {task : GenerationTask}

theorem subjectName_of_plan
    {plan : TestPlan} {cache : CacheCounters}
    (h : settings.plan snapshot task = .ok (plan, cache)) :
    plan.subject.name = settings.naming.subjectName := by
  obtain ⟨scope, -, hplan⟩ := plan_cases h
  obtain ⟨-, features, -, rfl⟩ := TestPlan.build_cases hplan
  rfl

/-- A generation that succeeds changes its target only, and its report accounts for the change. -/
theorem generate_accounts
    {result : GenerationResult}
    (h : settings.generate snapshot store task = (.ok result, after)) :
    ∃ plan cache new,
      settings.plan snapshot task = .ok (plan, cache) ∧
        after.get? (settings.targetName task) = some new ∧
        (∀ other, other ≠ settings.targetName task → after.get? other = store.get? other) ∧
        after.allowCreate = store.allowCreate ∧
        result.toMergeReport.Accounts settings plan
          ((store.get? (settings.targetName task)).getD (.ofName (settings.targetName task)))
          new := by
  obtain ⟨plan, cache, testClass, merged, report, hplan, hopen, hmerge, rfl, rfl⟩ :=
    generate_cases h
  refine ⟨plan, cache, merged, hplan, Store.get?_put_self, ?_, rfl, ?_⟩
  · intro other hother
    exact Store.get?_put_of_ne hother
  · rw [← Store.eq_getD_of_openTarget hopen]
    exact TestClass.accounts_of_merge hmerge (subjectName_of_plan hplan)

/-- The service with a target whose fixture method is extended and which has one of the features. -/
theorem generate_accounts_orderTask :
    ∃ result after,
      standard.generate orderSnapshot orderStore orderTask = (.ok result, after) ∧
        result.fixtureUpdated = true ∧ result.methodsSkipped = ["discountTest"] ∧
        ∃ plan cache new,
          standard.plan orderSnapshot orderTask = .ok (plan, cache) ∧
            after.get? (standard.targetName orderTask) = some new ∧
            (∀ other, other ≠ standard.targetName orderTask →
              after.get? other = orderStore.get? other) ∧
            after.allowCreate = orderStore.allowCreate ∧
            result.toMergeReport.Accounts standard plan
              ((orderStore.get? (standard.targetName orderTask)).getD
                (.ofName (standard.targetName orderTask)))
              new := by
  have hrun : standard.generate orderSnapshot orderStore orderTask = (.ok _, _) := rfl
  exact ⟨_, _, hrun, rfl, rfl, generate_accounts hrun⟩

end Settings

end Specwright
