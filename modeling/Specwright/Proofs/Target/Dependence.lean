import Specwright.Proofs.Feature.Likeness
import Specwright.Proofs.Feature.Responses
import Specwright.Proofs.Session.Reading

/-!
# What a generation depends on

A plan reads three levels of types, the class under test among them, and of method bodies the calls
alone.  So a greater depth does not change it, and neither do method references, uses of variables,
writes to fields and delegations, nor failing searches for them.
-/

namespace Specwright

/-! ## Scopes that are opened -/

namespace Scope

variable {snapshot snapshot' : Snapshot} {options options' : ModelOptions} {name : String}

/-- Scopes of one class have one core when the snapshots agree in the calls and the same prefixes
are admitted. -/
theorem core_eq_of_open?
    {scope scope' : Scope} (hcalls : snapshot.callsOnly = snapshot'.callsOnly)
    (hprefixes : options.admittedPrefixes = options'.admittedPrefixes)
    (h : open? snapshot name options = some scope)
    (h' : open? snapshot' name options' = some scope') :
    scope.core = scope'.core := by
  obtain ⟨hsnapshot, hoptions, hfound⟩ := open?_eq_some h
  obtain ⟨hsnapshot', hoptions', hfound'⟩ := open?_eq_some h'
  have hsubject : scope.subject.callsOnly = scope'.subject.callsOnly := by
    have hfind := Snapshot.find?_callsOnly snapshot name
    rw [hcalls, Snapshot.find?_callsOnly, hfound, hfound'] at hfind
    exact (Option.some.inj hfind).symm
  simp only [core, hsnapshot, hsnapshot', hcalls, hsubject, hoptions, hoptions', hprefixes]

theorem isSome_open? : (open? snapshot name options).isSome = (snapshot.find? name).isSome := by
  rw [open?]
  split
  next hfound => exact (congrArg Option.isSome hfound).symm
  next hmissing => exact (congrArg Option.isSome hmissing).symm

/-- A class is opened in both of two snapshots that agree in the calls, or in none. -/
theorem isSome_open?_eq
    (hcalls : snapshot.callsOnly = snapshot'.callsOnly) (name : String) :
    (open? snapshot name options).isSome = (open? snapshot' name options').isSome := by
  have hfind := Snapshot.find?_callsOnly snapshot name
  rw [hcalls, Snapshot.find?_callsOnly] at hfind
  have hsome := congrArg Option.isSome hfind
  rw [Option.isSome_map, Option.isSome_map] at hsome
  rw [isSome_open?, isSome_open?, hsome]

end Scope

namespace Session

variable {scope scope' : Scope}

/-- From three levels on plans read as much as from more. -/
theorem readDepth_eq
    (h : scope.options.maxDepth = scope'.options.maxDepth ∨
      3 ≤ scope.options.maxDepth ∧ 3 ≤ scope'.options.maxDepth) :
    readDepth scope = readDepth scope' := by
  rw [readDepth, readDepth, subjectDepth, subjectDepth]
  omega

end Session

namespace Settings

variable {settings settings' : Settings} {snapshot snapshot' : Snapshot} {task : GenerationTask}
variable {sortOf sortOf' : String → TypeSort}

/-- Apart from the counters, the plan of a task is that for the class which a new session
extracts. -/
theorem map_fst_plan
    {scope : Scope}
    (h : Scope.open? snapshot task.className settings.modelOptions = some scope) :
    (settings.plan snapshot task).map (·.1) =
      (TestPlan.build settings ((Session.extractSubject scope).run .empty).1
        task.selection).mapError (·.toGenerationFailure) := by
  simp only [plan, h]
  split
  next type cache hrun =>
    rw [hrun]
    cases TestPlan.build settings type task.selection <;> rfl

theorem map_fst_plan_of_not_open
    (h : Scope.open? snapshot task.className settings.modelOptions = none) :
    (settings.plan snapshot task).map (·.1) = .error (.classNotFound task.className) := by
  simp only [plan, h]
  rfl

/-- The plan of a task depends on the calls in bodies and on the depth up to three levels. -/
theorem plan_eq_of_callsOnly
    (hsnapshot : snapshot.Obeys sortOf) (hsnapshot' : snapshot'.Obeys sortOf')
    (hcalls : snapshot.callsOnly = snapshot'.callsOnly)
    (hprefixes : settings.admittedPrefixes = settings'.admittedPrefixes)
    (hdepth : settings.maxDepth = settings'.maxDepth ∨
      3 ≤ settings.maxDepth ∧ 3 ≤ settings'.maxDepth)
    (hbuild : ∀ type, TestPlan.build settings type task.selection =
      TestPlan.build settings' type task.selection) :
    (settings.plan snapshot task).map (·.1) = (settings'.plan snapshot' task).map (·.1) := by
  have hopens : (Scope.open? snapshot task.className settings.modelOptions).isSome =
      (Scope.open? snapshot' task.className settings'.modelOptions).isSome :=
    Scope.isSome_open?_eq hcalls task.className
  cases hopen : Scope.open? snapshot task.className settings.modelOptions with
  | none =>
      rw [hopen] at hopens
      have hopen' := Option.isNone_iff_eq_none.mp (Option.isSome_eq_false_iff.mp hopens.symm)
      rw [map_fst_plan_of_not_open hopen, map_fst_plan_of_not_open hopen']
  | some scope =>
      rw [hopen] at hopens
      obtain ⟨scope', hopen'⟩ := Option.isSome_iff_exists.mp hopens.symm
      have hcore := Scope.core_eq_of_open? hcalls hprefixes hopen hopen'
      rw [map_fst_plan hopen, map_fst_plan hopen']
      obtain ⟨rfl, hoptions, -⟩ := Scope.open?_eq_some hopen
      obtain ⟨rfl, hoptions', -⟩ := Scope.open?_eq_some hopen'
      have hread : Session.readDepth scope = Session.readDepth scope' := by
        apply Session.readDepth_eq
        rw [hoptions, hoptions']
        exact hdepth
      have halike := Session.alikeAsSubject_of_shows hcore hread
        (Session.extractSubject_shows hsnapshot) (Session.extractSubject_shows hsnapshot')
      rw [halike.build_eq, hbuild]

/-- Plans do not depend on the depth to which the class under test is looked into, from three levels
on: the plan of a task is the same, or the error in its place. -/
theorem plan_of_three_levels
    {shallow deep : Nat} (hsnapshot : snapshot.Obeys sortOf)
    (hshallow : 3 ≤ shallow) (hdeep : 3 ≤ deep) :
    (Settings.plan { settings with maxDepth := shallow } snapshot task).map (·.1) =
      (Settings.plan { settings with maxDepth := deep } snapshot task).map (·.1) :=
  plan_eq_of_callsOnly hsnapshot hsnapshot rfl rfl (Or.inr ⟨hshallow, hdeep⟩) fun _ => rfl

/-- A service is planned alike from the standard depth on. -/
theorem plan_of_three_levels_orderTask :
    orderSnapshot.Obeys orderSort ∧
      (Settings.plan { standard with maxDepth := 9 } orderSnapshot orderTask).map (·.1) =
        (standard.plan orderSnapshot orderTask).map (·.1) := by
  have hnames : orderSnapshot.Obeys orderSort := by
    decide +kernel
  exact ⟨hnames, plan_of_three_levels hnames (by decide) (Nat.le_refl 3)⟩

end Settings

/-! ## What a generation does not read -/

/-- The result of a task without the counters of the cache. -/
def GenerationResult.uncounted (result : GenerationResult) : GenerationResult :=
  { result with cache := {} }

namespace Settings

variable {settings : Settings} {snapshot snapshot' : Snapshot} {store : Store}
variable {task : GenerationTask} {sortOf sortOf' : String → TypeSort}

/-- Cross-references never influence what is generated: for two snapshots that agree but for the
method references, the uses of variables, the writes to fields and the delegations in bodies, and
for the views other than the call sites, a task ends in the same error, or in the same result apart
from the counters, and leaves the same store. -/
theorem generate_reads_calls_only
    (hsnapshot : snapshot.Obeys sortOf) (hsnapshot' : snapshot'.Obeys sortOf')
    (hcalls : snapshot.callsOnly = snapshot'.callsOnly) :
    (settings.generate snapshot store task).1.map (·.uncounted) =
        (settings.generate snapshot' store task).1.map (·.uncounted) ∧
      (settings.generate snapshot store task).2 = (settings.generate snapshot' store task).2 := by
  have hplans : (settings.plan snapshot task).map (·.1) =
      (settings.plan snapshot' task).map (·.1) :=
    plan_eq_of_callsOnly hsnapshot hsnapshot' hcalls rfl (Or.inl rfl) fun _ => rfl
  rw [generate, generate]
  generalize settings.plan snapshot task = planned at hplans
  generalize settings.plan snapshot' task = planned' at hplans
  cases planned with
  | error cause =>
      cases planned' with
      | error cause' =>
          obtain rfl : cause = cause' := Except.error.inj hplans
          exact ⟨rfl, rfl⟩
      | ok _ => cases hplans
  | ok made =>
      cases planned' with
      | error _ => cases hplans
      | ok made' =>
          obtain ⟨plan, cache⟩ := made
          obtain ⟨plan', cache'⟩ := made'
          obtain rfl : plan = plan' := Except.ok.inj hplans
          -- From here on only the counters differ, and they are only passed on.
          cases hopened : store.openTarget (settings.targetName task) with
          | error cause => simp only [hopened, and_self]
          | ok testClass =>
              rcases hmerged : testClass.merge settings plan with ⟨merged, cause | report⟩
              · simp only [hopened, hmerged, and_self]
              · simp only [hopened, hmerged, and_true]
                rfl

end Settings

/-! ## A service whose bodies are looked into -/

/-- The service with more found in its bodies than calls. -/
def busyService : ClassDecl :=
  { orderService with
    methods := orderService.methods.map fun method =>
      { method with
        methodRefs := [⟨"shop.Repo", "find", [.primitive "long"]⟩]
        variableUses := [⟨"repo", .read, .named "shop.Repo", "shop.Orders"⟩]
        fieldWrites := [⟨"repo", "shop.Orders", "id"⟩] } }

/-- The snapshot with the busy service, in which searches for writes to fields fail. -/
def busySnapshot : Snapshot :=
  (Snapshot.ofClasses [busyService, orderRepo]).withViews (some ⟨true, true, true, false⟩)

namespace Settings

theorem generate_reads_calls_only_orderTask :
    orderSnapshot.Obeys orderSort ∧ busySnapshot.Obeys orderSort ∧
      orderSnapshot.callsOnly = busySnapshot.callsOnly ∧
        (standard.generate orderSnapshot orderStore orderTask).1.map (·.uncounted) =
          (standard.generate busySnapshot orderStore orderTask).1.map (·.uncounted) ∧
        (standard.generate orderSnapshot orderStore orderTask).2 =
          (standard.generate busySnapshot orderStore orderTask).2 := by
  have hnames : orderSnapshot.Obeys orderSort := by
    decide +kernel
  have hnames' : busySnapshot.Obeys orderSort := by
    decide +kernel
  have hcalls : orderSnapshot.callsOnly = busySnapshot.callsOnly := rfl
  exact ⟨hnames, hnames', hcalls, generate_reads_calls_only hnames hnames' hcalls⟩

end Settings

end Specwright
