import Specwright.Proofs.Feature.Planning
import Specwright.Proofs.Session.Subject
import Specwright.Proofs.Target.Insertion

/-!
# Features that a new class does not get

A plan has a feature for every selected method, but a class takes only one method of a name.  In a
class that is new, a feature is lost when an earlier one has its name, that is, when overloads are
selected, or when the fixture method is written first and has its name.  Nothing else is lost.
-/

namespace Specwright

namespace TestClass

/-- The fixture method of a new class is not wanted exactly when no double has a field of its
own. -/
theorem newAssignments_ofName_eq_nil_iff
    {name : String} {settings : Settings} {plan : TestPlan} :
    (ofName name).newAssignments settings plan = [] ↔
      ∀ double ∈ plan.doubles, double.name = plan.subject.name := by
  have hfields : (ofName name).fields = [] := rfl
  rw [newAssignments_eq_nil_iff, hfields]
  simp

/-- The names that features of a plan find taken in a new class: that of the fixture method, when it
is written. -/
theorem methodNames_of_withFixture_ofName
    {name : String} {settings : Settings} {plan : TestPlan} {prepared : TestClass}
    (h : ((ofName name).withDeclarations plan).withFixture settings.naming
        ((ofName name).newAssignments settings plan) = .ok prepared) :
    prepared.methodNames =
      if ∀ double ∈ plan.doubles, double.name = plan.subject.name then []
      else [settings.naming.fixtureName] := by
  have hnone : ((ofName name).withDeclarations plan).methodNames = [] := rfl
  rw [methodNames_of_withFixture h, hnone, List.nil_append]
  simp only [newAssignments_ofName_eq_nil_iff, List.not_mem_nil, or_false]

variable {merged : TestClass} {report : MergeReport} {settings : Settings} {plan : TestPlan}

/-- When no feature is skipped, all are added and are methods of the class. -/
theorem added_of_merge
    {testClass : TestClass} (h : testClass.merge settings plan = (merged, .ok report))
    (hnone : report.methodsSkipped = []) :
    report.methodsAdded = plan.features.map (·.name) ∧
      ∀ feature ∈ plan.featureMethods settings, feature ∈ merged.methods := by
  obtain ⟨prepared, -, rfl, rfl⟩ := merge_cases h
  obtain ⟨hdistinct, hfresh⟩ := Member.refused_eq_nil_iff.mp (List.map_eq_nil_iff.mp hnone)
  have hsift := Member.sift_of_fresh hdistinct hfresh
  constructor
  · rw [hsift]
    exact plan.names_featureMethods settings
  · intro feature hfeature
    rw [addMethods, hsift]
    exact List.mem_append_right _ hfeature

/-- A merge into a new class skips no feature exactly when features have distinct names, none of
which is that of a fixture method that is wanted. -/
theorem skipped_of_merge_ofName_iff
    {name : String} (h : (ofName name).merge settings plan = (merged, .ok report)) :
    report.methodsSkipped = [] ↔
      (plan.features.map (·.name)).Nodup ∧
        ((∃ double ∈ plan.doubles, double.name ≠ plan.subject.name) →
          settings.naming.fixtureName ∉ plan.features.map (·.name)) := by
  obtain ⟨prepared, hprepared, -, rfl⟩ := merge_cases h
  have hfresh : (∀ feature ∈ plan.featureMethods settings, feature.name ∉ prepared.methodNames) ↔
      ((∃ double ∈ plan.doubles, double.name ≠ plan.subject.name) →
        settings.naming.fixtureName ∉ plan.features.map (·.name)) := by
    rw [methodNames_of_withFixture_ofName hprepared, ← plan.names_featureMethods settings]
    by_cases hunwanted : ∀ double ∈ plan.doubles, double.name = plan.subject.name
    · have hnone : ¬∃ double ∈ plan.doubles, double.name ≠ plan.subject.name := by
        rintro ⟨double, hdouble, hne⟩
        exact hne (hunwanted double hdouble)
      rw [if_pos hunwanted]
      exact ⟨fun _ hsome => absurd hsome hnone, fun _ _ _ => List.not_mem_nil⟩
    · have hsome : ∃ double ∈ plan.doubles, double.name ≠ plan.subject.name := by
        simpa using hunwanted
      rw [if_neg hunwanted]
      simp only [hsome, forall_true_left, List.mem_singleton, List.mem_map, not_exists, not_and]
  rw [List.map_eq_nil_iff, Member.refused_eq_nil_iff, hfresh, plan.names_featureMethods settings]

end TestClass

/-- Whether a generation reported a feature for each of a list of methods in order, skipped none,
and left all features of a plan in the class. -/
structure GenerationResult.Covers
    (result : GenerationResult) (settings : Settings) (methods : List MethodDecl) (plan : TestPlan)
    (testClass : TestClass) : Prop where
  skipped : result.methodsSkipped = []
  added : result.methodsAdded = methods.map (·.name ++ settings.naming.testNameSuffix)
  present : ∀ feature ∈ plan.featureMethods settings, feature ∈ testClass.methods

namespace Settings

variable {settings : Settings} {snapshot : Snapshot} {store after : Store} {task : GenerationTask}

/-- A suffix does not make distinct names equal. -/
theorem nodup_map_append_iff
    {methods : List MethodDecl} {suffix : String} :
    (methods.map (·.name ++ suffix)).Nodup ↔ (methods.map (·.name)).Nodup := by
  have hinjective : Function.Injective (· ++ suffix) := by
    intro name other h
    exact (String.append_left_inj suffix).mp h
  have hnames : methods.map (·.name ++ suffix) = (methods.map (·.name)).map (· ++ suffix) := by
    rw [List.map_map]
    rfl
  rw [hnames, List.nodup_map_iff hinjective]

/-- The features of a plan are named for the selected methods that the class under test declares. -/
theorem names_features_of_plan
    {plan : TestPlan} {cache : CacheCounters}
    (h : settings.plan snapshot task = .ok (plan, cache)) :
    ∃ subject,
      snapshot.find? task.className = some subject ∧
        plan.subject.name = settings.naming.subjectName ∧
        plan.features.map (·.name) =
          (subject.methods.filter (·.name ∈ task.selection)).map
            (·.name ++ settings.naming.testNameSuffix) := by
  obtain ⟨scope, hscope, hplan⟩ := plan_cases h
  obtain ⟨-, -, hsubject⟩ := Scope.open?_eq_some hscope
  refine ⟨scope.subject, hsubject, ?_, ?_⟩
  · obtain ⟨-, features, -, rfl⟩ := TestPlan.build_cases hplan
    rfl
  · rw [TestPlan.names_features_of_build hplan]
    have hselected := Session.forall₂_selectedMethods scope .empty task.selection
    refine (map_eq_of_forall₂ hselected ?_).symm
    intro method model hshows
    rw [hshows.name_eq]

/-- A generation into a class that the store did not hold covers the selection exactly when no two
selected methods have one name, and the fixture method has the name of no feature unless no double
needs it. -/
theorem generate_covers_iff
    {result : GenerationResult}
    (h : settings.generate snapshot store task = (.ok result, after))
    (hnew : store.get? (settings.targetName task) = none) :
    ∃ subject plan cache testClass,
      snapshot.find? task.className = some subject ∧
        settings.plan snapshot task = .ok (plan, cache) ∧
        after.get? (settings.targetName task) = some testClass ∧
        (result.Covers settings (subject.methods.filter (·.name ∈ task.selection)) plan testClass ↔
          ((subject.methods.filter (·.name ∈ task.selection)).map (·.name)).Nodup ∧
            ((∃ double ∈ plan.doubles, double.name ≠ settings.naming.subjectName) →
              ∀ method ∈ subject.methods.filter (·.name ∈ task.selection),
                method.name ++ settings.naming.testNameSuffix ≠ settings.naming.fixtureName)) := by
  obtain ⟨plan, cache, testClass, merged, report, hplan, hopen, hmerge, rfl, rfl⟩ :=
    generate_cases h
  obtain ⟨subject, hsubject, hname, hfeatures⟩ := names_features_of_plan hplan
  refine ⟨subject, plan, cache, merged, hsubject, hplan, Store.get?_put_self, ?_⟩
  obtain rfl : testClass = .ofName (settings.targetName task) := by
    rcases (Store.openTarget_cases hopen).2 with hheld | ⟨-, heq⟩
    · rw [hnew] at hheld
      cases hheld
    · exact heq
  have hskipped := TestClass.skipped_of_merge_ofName_iff hmerge
  rw [hfeatures, hname, nodup_map_append_iff] at hskipped
  have hfixture :
      settings.naming.fixtureName ∉
          (subject.methods.filter (·.name ∈ task.selection)).map
            (·.name ++ settings.naming.testNameSuffix) ↔
        ∀ method ∈ subject.methods.filter (·.name ∈ task.selection),
          method.name ++ settings.naming.testNameSuffix ≠ settings.naming.fixtureName := by
    rw [List.mem_map, not_exists]
    simp only [not_and, ne_eq]
  rw [← hfixture, ← hskipped]
  constructor
  · intro hcovers
    exact hcovers.skipped
  · intro hnone
    obtain ⟨hadded, hpresent⟩ := TestClass.added_of_merge hmerge hnone
    exact ⟨hnone, hadded.trans hfeatures, hpresent⟩

end Settings

/-! ## A class with overloads -/

/-- A till that logs amounts of two sizes. -/
def tillClass : ClassDecl where
  name := "shop.Till"
  fields := [{ name := "log", type := .named "shop.Log", modifiers := [.privateAccess] }]
  methods := [
    { name := "add", modifiers := [.publicAccess], params := [⟨"amount", .primitive "int"⟩] },
    { name := "add", modifiers := [.publicAccess], params := [⟨"amount", .primitive "long"⟩] },
    { name := "total", modifiers := [.publicAccess], returnType := some (.primitive "long") }]

/-- A task about the till for a target that no store holds yet. -/
def tillTask (selection : Selection) : GenerationTask where
  className := "shop.Till"
  selection := selection

namespace Settings

theorem generate_covers_iff_till :
    ∃ result after,
      standard.generate (.ofClasses [tillClass]) {} (tillTask ["total"]) = (.ok result, after) ∧
        ({} : Store).get? (standard.targetName (tillTask ["total"])) = none ∧
        ∃ subject plan cache testClass,
          (Snapshot.ofClasses [tillClass]).find? "shop.Till" = some subject ∧
            standard.plan (.ofClasses [tillClass]) (tillTask ["total"]) = .ok (plan, cache) ∧
            after.get? (standard.targetName (tillTask ["total"])) = some testClass ∧
            (result.Covers standard (subject.methods.filter (·.name ∈ ["total"])) plan testClass ↔
              ((subject.methods.filter (·.name ∈ ["total"])).map (·.name)).Nodup ∧
                ((∃ double ∈ plan.doubles, double.name ≠ standard.naming.subjectName) →
                  ∀ method ∈ subject.methods.filter (·.name ∈ ["total"]),
                    method.name ++ standard.naming.testNameSuffix ≠
                      standard.naming.fixtureName)) := by
  have hrun :
      standard.generate (.ofClasses [tillClass]) {} (tillTask ["total"]) = (.ok _, _) := rfl
  have hnew : ({} : Store).get? (standard.targetName (tillTask ["total"])) = none := rfl
  exact ⟨_, _, hrun, hnew, generate_covers_iff hrun hnew⟩

/-- Two overloads are selected, and the feature of the second is lost. -/
theorem generate_skips_overload :
    ∃ result after,
      standard.generate (.ofClasses [tillClass]) {} (tillTask ["add"]) = (.ok result, after) ∧
        ({} : Store).get? (standard.targetName (tillTask ["add"])) = none ∧
        result.methodsAdded = ["addTest"] ∧ result.methodsSkipped = ["addTest"] := by
  have hrun :
      standard.generate (.ofClasses [tillClass]) {} (tillTask ["add"]) = (.ok _, _) := rfl
  exact ⟨_, _, hrun, rfl, rfl, rfl⟩

end Settings

end Specwright
