import Specwright.Model.Cache
import Specwright.Target.Merge
import Specwright.Target.Store

/-!
# Generation

One task from the snapshot to the store: the class under test is extracted, a plan is made, the
target is opened, and the plan is merged into it.  Everything that can fail before the merge fails
before the store is touched.
-/

namespace Specwright

/-- What to generate.  Without a target the name of the class under test and the suffix of the
settings give one. -/
structure GenerationTask where
  className : String
  selection : Selection
  target : Option String := none
  deriving Repr, DecidableEq, Inhabited

/-- Why nothing, or not everything, was generated. -/
inductive GenerationFailure where
  | classNotFound (name : String)
  | notTestable (type method : String)
  | shape (cause : ShapeError)
  | fixture (cause : FixtureError)
  | target (cause : StoreRefusal)
  deriving Repr, DecidableEq

namespace GenerationFailure

/-- The message of the error. -/
def message : GenerationFailure → String
  | .classNotFound name => "class under test '" ++ name ++ "' not found"
  | .notTestable type method => "method '" ++ method ++ "' of " ++ type ++ " cannot be tested"
  | .shape cause => cause.message
  | .fixture cause => cause.message
  | .target cause => cause.message

end GenerationFailure

/-- What a task changed. -/
structure GenerationResult extends MergeReport where
  target : String
  cache : CacheCounters
  deriving Repr, DecidableEq, Inhabited

namespace PlanError

/-- The failure of a task for which there is no plan. -/
def toGenerationFailure : PlanError → GenerationFailure
  | .notTestable type method => .notTestable type method
  | .shape cause => .shape cause

end PlanError

namespace Settings

/-- What shapes the model of the class under test. -/
def modelOptions (settings : Settings) : ModelOptions where
  maxDepth := settings.maxDepth
  admittedPrefixes := settings.admittedPrefixes

/-- The name of the target of a task. -/
def targetName (settings : Settings) (task : GenerationTask) : String :=
  task.target.getD (task.className ++ settings.naming.targetSuffix)

/-- The plan of a task, with the counters of the cache that answered for types. -/
def plan (settings : Settings) (snapshot : Snapshot) (task : GenerationTask) :
    Except GenerationFailure (TestPlan × CacheCounters) :=
  match Scope.open? snapshot task.className settings.modelOptions with
  | none => .error (.classNotFound task.className)
  | some scope =>
    let (type, cache) := (Session.extractSubject scope).run .empty
    match TestPlan.build settings type task.selection with
    | .error cause => .error cause.toGenerationFailure
    | .ok plan => .ok (plan, cache.stats)

/-- Carries out a task on a store. -/
def generate
    (settings : Settings) (snapshot : Snapshot) (store : Store)
    (task : GenerationTask) : Except GenerationFailure GenerationResult × Store :=
  match settings.plan snapshot task with
  | .error cause => (.error cause, store)
  | .ok (plan, cache) =>
    let target := settings.targetName task
    match store.openTarget target with
    | .error cause => (.error (.target cause), store)
    | .ok testClass =>
      match testClass.merge settings plan with
      | (merged, .error cause) => (.error (.fixture cause), store.put target merged)
      | (merged, .ok report) => (.ok { report with target, cache }, store.put target merged)

end Settings

end Specwright
