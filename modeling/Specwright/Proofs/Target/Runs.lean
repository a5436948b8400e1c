import Specwright.Proofs.Target.Failure

/-!
# Many generations on one store

Whatever is generated into a store that was empty at first, its classes stay sound: no name occurs
twice, and each double is assigned in the fixture method.  What carries this from run to run is that
all texts that are written end in a brace.  So the fixture method can always be extended, even when
it is a feature that happens to have its name, and it is extended behind the lines that it has.
-/

namespace Specwright

/-! ## Texts that end in a brace -/

/-- Whether a text ends in a closing brace. -/
def EndsInBrace (text : String) : Prop :=
  ∃ body : String, text = body ++ "\x7d"

/-- Whether a text has a line between two line feeds. -/
def HasLine (line text : String) : Prop :=
  ∃ before after : String, text = before ++ "\n" ++ line ++ "\n" ++ after

theorem HasLine.append
    {line text : String} (h : HasLine line text) (more : String) : HasLine line (text ++ more) := by
  obtain ⟨before, after, rfl⟩ := h
  exact ⟨before, after ++ more, by simp only [String.append_assoc]⟩

/-- The closing brace is in no line, so the lines of a text are those in front of it. -/
theorem hasLine_append_brace_iff
    {line body : String} : HasLine line (body ++ "\x7d") ↔ HasLine line body := by
  constructor
  · rintro ⟨before, after, heq⟩
    have hchars : body.toList ++ ['\x7d'] =
        before.toList ++ '\n' :: (line.toList ++ '\n' :: after.toList) := by
      simpa using congrArg String.toList heq
    rcases List.eq_nil_or_concat after.toList with hnil | ⟨front, last, hconcat⟩
    · -- The text would end in a line feed.
      have hboth : body.toList ++ ['\x7d'] =
          (before.toList ++ '\n' :: line.toList) ++ ['\n'] := by
        simpa [hnil] using hchars
      have hlast := (List.append_inj' hboth rfl).2
      cases hlast
    · have hfront : body.toList = before.toList ++ '\n' :: (line.toList ++ '\n' :: front) := by
        rw [hconcat] at hchars
        have hboth : body.toList ++ ['\x7d'] =
            (before.toList ++ '\n' :: (line.toList ++ '\n' :: front)) ++ [last] := by
          simpa using hchars
        exact (List.append_inj' hboth rfl).1
      refine ⟨before, .ofList front, ?_⟩
      apply String.toList_injective
      simpa using hfront
  · intro h
    exact h.append _

theorem indentedLines_cons (first : String) (rest : List String) :
    indentedLines (first :: rest) = lineIndent ++ first ++ "\n" ++ indentedLines rest := by
  simp [indentedLines, indentedLine, String.join_cons]

/-- Each of the lines written behind a line feed is a line of the text. -/
theorem hasLine_indentedLines
    {line : String} {lines : List String} (h : line ∈ lines) (before after : String) :
    HasLine (lineIndent ++ line) (before ++ "\n" ++ indentedLines lines ++ after) := by
  induction lines generalizing before with
  | nil => cases h
  | cons first rest ih =>
      rw [indentedLines_cons]
      rcases List.mem_cons.mp h with rfl | hrest
      · exact ⟨before, indentedLines rest ++ after, by simp only [String.append_assoc]⟩
      · have hbehind := ih hrest (before ++ "\n" ++ lineIndent ++ first)
        simpa only [String.append_assoc] using hbehind

namespace ExtendedBy

variable {lines : List String} {old new line : String}

/-- A text that ends in a brace is extended right before it. -/
theorem exists_body (h : ExtendedBy lines old new) (hold : EndsInBrace old) :
    ∃ body, old = body ++ "\x7d" ∧ new = body ++ insertion body lines ++ "\x7d" := by
  obtain ⟨before, after, hafter, rfl, rfl⟩ := h
  obtain ⟨body, hbody⟩ := hold
  have hempty : after = "" := by
    apply String.toList_injective
    rcases List.eq_nil_or_concat after.toList with hnil | ⟨front, last, hconcat⟩
    · exact hnil
    · have hchars : (before.toList ++ '\x7d' :: front) ++ [last] = body.toList ++ ['\x7d'] := by
        simpa [hconcat] using congrArg String.toList hbody
      have hbrace : [last] = ['\x7d'] := (List.append_inj' hchars rfl).2
      exact absurd (by simp [hconcat, hbrace]) hafter
  subst hempty
  exact ⟨before, by simp, by simp⟩

theorem endsInBrace (h : ExtendedBy lines old new) (hold : EndsInBrace old) :
    EndsInBrace new := by
  obtain ⟨body, -, rfl⟩ := h.exists_body hold
  exact ⟨_, rfl⟩

theorem hasLine_of_hasLine
    (h : ExtendedBy lines old new) (hold : EndsInBrace old) (hline : HasLine line old) :
    HasLine line new := by
  obtain ⟨body, rfl, rfl⟩ := h.exists_body hold
  have hbody := hasLine_append_brace_iff.mp hline
  exact (hbody.append _).append _

theorem hasLine_of_mem
    (h : ExtendedBy lines old new) (hold : EndsInBrace old) (hline : line ∈ lines) :
    HasLine (lineIndent ++ line) new := by
  obtain ⟨body, -, rfl⟩ := h.exists_body hold
  rw [insertion_eq, ← String.append_assoc]
  split
  next hfeed =>
    -- The line feed is already there, at the end of the body.
    obtain ⟨front, hfront⟩ := List.getLast?_eq_some_iff.mp hfeed
    have hbody : body = .ofList front ++ "\n" := by
      apply String.toList_injective
      simpa using hfront
    rw [hbody, String.append_empty]
    exact hasLine_indentedLines hline _ _
  next =>
    exact hasLine_indentedLines hline _ _

end ExtendedBy

/-! ## Texts that are written -/

theorem endsInBrace_methodText (header : String) (lines : List String) :
    EndsInBrace (methodText header lines) :=
  ⟨_, rfl⟩

theorem FeaturePlan.endsInBrace_render
    (feature : FeaturePlan) (naming : Naming) (labels : Labels) :
    EndsInBrace (feature.render naming labels) := by
  obtain ⟨body, hbody⟩ :=
    endsInBrace_methodText ("def \"" ++ feature.name ++ "\"()") (feature.bodyLines naming labels)
  rw [render, hbody]
  exact ⟨markerLine naming ++ body, by rw [String.append_assoc]⟩

theorem TestPlan.endsInBrace_of_mem_featureMethods
    {plan : TestPlan} {settings : Settings} {method : Member}
    (h : method ∈ plan.featureMethods settings) :
    EndsInBrace method.text := by
  obtain ⟨feature, -, rfl⟩ := List.mem_map.mp h
  exact feature.endsInBrace_render settings.naming settings.labels

theorem Naming.hasLine_fixture
    {naming : Naming} {line : String} {statements : List String} (h : line ∈ statements) :
    HasLine (lineIndent ++ line) (naming.fixture statements) := by
  have hopen : ("()\x7b\n" : String) = "()\x7b" ++ "\n" := rfl
  rw [fixture_eq, hopen, ← String.append_assoc]
  exact hasLine_indentedLines h ("def " ++ naming.fixtureName ++ "()\x7b") "\x7d"

/-! ## Methods that can be extended -/

namespace Member

/-- Whether members have pairwise distinct names and texts that end in a brace. -/
structure Extensible (members : List Member) : Prop where
  names : (members.map (·.name)).Nodup
  texts : ∀ member ∈ members, EndsInBrace member.text

/-- Whether a member of a name has a line. -/
def LineIn (name line : String) (members : List Member) : Prop :=
  ∃ member ∈ members, member.name = name ∧ HasLine line member.text

variable {name line : String} {lines : List String} {members extended : List Member}

theorem LineIn.append (h : LineIn name line members) (more : List Member) :
    LineIn name line (members ++ more) := by
  obtain ⟨member, hmember, hline⟩ := h
  exact ⟨member, List.mem_append_left more hmember, hline⟩

theorem Extensible.append_admitted
    {others : List Member} (h : Extensible members)
    (hothers : ∀ member ∈ others, EndsInBrace member.text) :
    Extensible (members ++ (sift (members.map (·.name)) others).1) := by
  constructor
  · rw [List.map_append]
    exact nodup_append_admitted h.names
  · intro member hmember
    rcases List.mem_append.mp hmember with hold | hnew
    · exact h.texts member hold
    · exact hothers member (mem_of_mem_admitted hnew)

theorem Extensible.extend
    (h : Extensible members) (hextended : FirstExtendedBy name lines members extended) :
    Extensible extended ∧
      (∀ other line, LineIn other line members → LineIn other line extended) ∧
      ∀ line ∈ lines, LineIn name (lineIndent ++ line) extended := by
  obtain ⟨before, after, first, text, -, hname, htext, rfl, rfl⟩ := hextended
  have hfirst : EndsInBrace first.text := h.texts first (by simp)
  refine ⟨⟨?_, ?_⟩, ?_, ?_⟩
  · simpa using h.names
  · intro member hmember
    rcases List.mem_append.mp hmember with hbefore | hrest
    · exact h.texts member (List.mem_append_left _ hbefore)
    · rcases List.mem_cons.mp hrest with rfl | hafter
      · exact htext.endsInBrace hfirst
      · exact h.texts member (List.mem_append_right _ (List.mem_cons_of_mem _ hafter))
  · rintro other line ⟨member, hmember, hother, hline⟩
    rcases List.mem_append.mp hmember with hbefore | hrest
    · exact ⟨member, List.mem_append_left _ hbefore, hother, hline⟩
    · rcases List.mem_cons.mp hrest with rfl | hafter
      · refine ⟨{ member with text }, by simp, hother, ?_⟩
        exact htext.hasLine_of_hasLine hfirst hline
      · have hkept := List.mem_append_right before (List.mem_cons_of_mem { first with text } hafter)
        exact ⟨member, hkept, hother, hline⟩
  · intro line hline
    exact ⟨{ first with text }, by simp, hname, htext.hasLine_of_mem hfirst hline⟩

end Member

/-! ## Sound classes -/

namespace TestClass

/-- Whether a class has no name twice, methods that all end in a brace, and an assignment for each
field besides that of the subject. -/
structure Sound (naming : Naming) (testClass : TestClass) : Prop where
  fields : (testClass.fields.map (·.name)).Nodup
  methods : Member.Extensible testClass.methods
  assigned :
    ∀ field ∈ testClass.fields, field.name ≠ naming.subjectName →
      Member.LineIn naming.fixtureName (lineIndent ++ naming.assignment field.name)
        testClass.methods

variable {testClass : TestClass} {settings : Settings} {plan : TestPlan}

theorem sound_ofName (naming : Naming) (name : String) : (ofName name).Sound naming := by
  constructor
  · exact List.nodup_nil
  · exact ⟨List.nodup_nil, by simp [ofName]⟩
  · simp [ofName]

/-- Methods that can be extended take up any statements, and keep all lines. -/
theorem withFixture_of_extensible
    (naming : Naming) (statements : List String) (h : Member.Extensible testClass.methods) :
    ∃ prepared, testClass.withFixture naming statements = .ok prepared ∧
      Member.Extensible prepared.methods ∧
      (∀ name line, Member.LineIn name line testClass.methods →
        Member.LineIn name line prepared.methods) ∧
      ∀ line ∈ statements,
        Member.LineIn naming.fixtureName (lineIndent ++ line) prepared.methods := by
  cases hprepared : testClass.withFixture naming statements with
  | error cause =>
      -- Only a method without a brace is in the way, and there is none.
      obtain ⟨-, -, method, hfind, hbrace⟩ := withFixture_eq_error_iff.mp hprepared
      obtain ⟨body, hbody⟩ := h.texts method (List.mem_of_find?_eq_some hfind)
      exact absurd (by simp [hbody]) hbrace
  | ok prepared =>
      refine ⟨prepared, rfl, ?_⟩
      rcases withFixture_cases hprepared with
        ⟨rfl, rfl⟩ | ⟨-, methods, hextend, rfl⟩ | ⟨-, habsent, rfl⟩
      · exact ⟨h, fun _ _ hline => hline, by simp⟩
      · exact h.extend (firstExtendedBy_of_extendFirst hextend)
      · have hwritten : ∀ method ∈ [⟨naming.fixtureName, naming.fixture statements⟩],
            EndsInBrace (Member.text method) := by
          intro method hmethod
          rw [List.mem_singleton.mp hmethod]
          exact endsInBrace_methodText _ _
        refine ⟨h.append_admitted hwritten, fun _ _ hline => hline.append _, ?_⟩
        intro line hline
        refine ⟨⟨naming.fixtureName, naming.fixture statements⟩, ?_, rfl, ?_⟩
        · rw [addMethods, Member.sift_singleton_of_fresh habsent]
          simp
        · exact Naming.hasLine_fixture hline

/-- The field of the subject aside, what a plan adds to the fields is assigned. -/
theorem assignment_mem_newAssignments
    {field : Member} (hsubject : plan.subject.name = settings.naming.subjectName)
    (hnew : field ∈ testClass.newFields (plan.subjectField :: plan.doubleFields))
    (hfield : field.name ≠ settings.naming.subjectName) :
    settings.naming.assignment field.name ∈ testClass.newAssignments settings plan := by
  rw [newAssignments_eq testClass hsubject]
  refine List.mem_map_of_mem (List.mem_filter.mpr ⟨List.mem_map_of_mem hnew, ?_⟩)
  simpa using hfield

/-- A merge into a sound class succeeds and keeps it sound. -/
theorem Sound.merge
    (h : testClass.Sound settings.naming)
    (hsubject : plan.subject.name = settings.naming.subjectName) :
    ∃ merged report,
      testClass.merge settings plan = (merged, .ok report) ∧ merged.Sound settings.naming := by
  -- Declarations leave methods alone, so the old assignments are there when a fixture is extended.
  have hmethods : Member.Extensible (testClass.withDeclarations plan).methods := h.methods
  obtain ⟨prepared, hprepared, hextensible, hkept, hstatements⟩ :=
    withFixture_of_extensible settings.naming (testClass.newAssignments settings plan) hmethods
  have hfields : prepared.fields =
      testClass.fields ++ testClass.newFields (plan.subjectField :: plan.doubleFields) := by
    rw [eq_of_withFixture hprepared]
    rfl
  obtain ⟨report, hmerge⟩ := merge_of_withFixture hprepared
  refine ⟨_, report, hmerge, ?_, ?_, ?_⟩
  · change (prepared.fields.map _).Nodup
    rw [hfields, List.map_append]
    exact Member.nodup_append_admitted h.fields
  · exact hextensible.append_admitted fun _ => TestPlan.endsInBrace_of_mem_featureMethods
  · intro field hfield hother
    change field ∈ prepared.fields at hfield
    rw [hfields] at hfield
    refine Member.LineIn.append ?_ _
    rcases List.mem_append.mp hfield with hold | hnew
    · exact hkept _ _ (h.assigned field hold hother)
    · exact hstatements _ (assignment_mem_newAssignments hsubject hnew hother)

end TestClass

/-! ## Runs -/

namespace Store

/-- Whether all classes of a store have a property. -/
def All (good : TestClass → Prop) (store : Store) : Prop :=
  ∀ name testClass, store.get? name = some testClass → good testClass

/-- Whether all classes of a store are sound. -/
def Sound (naming : Naming) (store : Store) : Prop :=
  store.All (TestClass.Sound naming)

variable {store : Store} {naming : Naming} {target : String} {testClass : TestClass}
variable {good : TestClass → Prop}

theorem all_empty (allowCreate : Bool) : ({ allowCreate } : Store).All good := by
  intro name testClass h
  cases h

theorem All.put (h : store.All good) (hclass : good testClass) :
    (store.put target testClass).All good := by
  intro name other hother
  by_cases heq : name = target
  · rw [heq, get?_put_self] at hother
    cases hother
    exact hclass
  · rw [get?_put_of_ne heq] at hother
    exact h name other hother

theorem All.openTarget
    (h : store.All good) (hnew : good (.ofName target))
    (hopen : store.openTarget target = .ok testClass) :
    good testClass := by
  rcases (openTarget_cases hopen).2 with hheld | ⟨-, rfl⟩
  · exact h target testClass hheld
  · exact hnew

theorem sound_empty : ({} : Store).Sound naming :=
  all_empty true

theorem Sound.put (h : store.Sound naming) (hclass : testClass.Sound naming) :
    (store.put target testClass).Sound naming :=
  All.put h hclass

theorem Sound.openTarget
    (h : store.Sound naming) (hopen : store.openTarget target = .ok testClass) :
    testClass.Sound naming :=
  All.openTarget h (TestClass.sound_ofName naming target) hopen

end Store

namespace Settings

variable {settings : Settings} {store : Store}

/-- One generation keeps a store sound, whether it succeeds or not, and does not fail over the
fixture method. -/
theorem sound_generate
    (h : store.Sound settings.naming) (snapshot : Snapshot) (task : GenerationTask) :
    (settings.generate snapshot store task).2.Sound settings.naming ∧
      ∀ fixture, (settings.generate snapshot store task).1 ≠ .error (.fixture fixture) := by
  rw [generate]
  split
  next cause hplan =>
    refine ⟨h, ?_⟩
    rintro fixture hfixture
    cases hfixture
    exact plan_ne_fixture hplan
  next plan cache hplan =>
    dsimp only
    split
    next => exact ⟨h, fun _ hfixture => by cases hfixture⟩
    next testClass hopen =>
      obtain ⟨merged, report, hmerge, hsound⟩ :=
        (h.openTarget hopen).merge (subjectName_of_plan hplan)
      rw [hmerge]
      exact ⟨h.put hsound, fun _ hfixture => by cases hfixture⟩

/-- Carries out tasks one after the other, each with its snapshot, however they end. -/
def generateAll
    (settings : Settings) (store : Store) :
    List (Snapshot × GenerationTask) → List (Except GenerationFailure GenerationResult) × Store
  | [] => ([], store)
  | (snapshot, task) :: rest =>
    let (outcome, after) := settings.generate snapshot store task
    let (outcomes, last) := settings.generateAll after rest
    (outcome :: outcomes, last)

/-- What holds of new targets and is kept by merges is kept by a task, however it ends. -/
theorem all_generate
    {good : TestClass → Prop} (h : store.All good) {snapshot : Snapshot} {task : GenerationTask}
    (hnew : ∀ plan cache, settings.plan snapshot task = .ok (plan, cache) →
      good (.ofName (settings.targetName task)))
    (hmerge : ∀ plan cache testClass, settings.plan snapshot task = .ok (plan, cache) →
      good testClass → good (testClass.merge settings plan).1) :
    (settings.generate snapshot store task).2.All good := by
  rw [generate]
  split
  next => exact h
  next plan cache hplan =>
    dsimp only
    split
    next => exact h
    next testClass hopen =>
      have hmerged := hmerge plan cache testClass hplan (h.openTarget (hnew plan cache hplan) hopen)
      split
      next merged cause hresult =>
        rw [hresult] at hmerged
        exact h.put hmerged
      next merged report hresult =>
        rw [hresult] at hmerged
        exact h.put hmerged

/-- What each single task keeps, all tasks keep. -/
theorem all_generateAll
    {good : TestClass → Prop} {tasks : List (Snapshot × GenerationTask)} (h : store.All good)
    (hstep : ∀ task ∈ tasks, ∀ before : Store, before.All good →
      (settings.generate task.1 before task.2).2.All good) :
    (settings.generateAll store tasks).2.All good := by
  induction tasks generalizing store with
  | nil => exact h
  | cons first rest ih =>
      obtain ⟨hfirst, hrest⟩ := List.forall_mem_cons.mp hstep
      exact ih (hfirst store h) hrest

theorem sound_generateAll
    (h : store.Sound settings.naming) (tasks : List (Snapshot × GenerationTask)) :
    (settings.generateAll store tasks).2.Sound settings.naming ∧
      ∀ outcome ∈ (settings.generateAll store tasks).1,
        ∀ fixture, outcome ≠ .error (.fixture fixture) := by
  induction tasks generalizing store with
  | nil => exact ⟨h, by simp [generateAll]⟩
  | cons first rest ih =>
      obtain ⟨hstep, hfirst⟩ := sound_generate h first.1 first.2
      obtain ⟨hlast, hrest⟩ := ih hstep
      refine ⟨hlast, ?_⟩
      exact List.forall_mem_cons.mpr ⟨hfirst, hrest⟩

/-- After any tasks on a store that was empty at first, each class has fields and methods with
pairwise distinct names and, for each field besides that of the subject, a fixture method with its
assignment; and none of the tasks has failed over a fixture method. -/
theorem generateAll_sound (settings : Settings) (tasks : List (Snapshot × GenerationTask)) :
    (∀ outcome ∈ (settings.generateAll {} tasks).1,
      ∀ fixture, outcome ≠ .error (.fixture fixture)) ∧
    ∀ name testClass, (settings.generateAll {} tasks).2.get? name = some testClass →
      (testClass.fields.map (·.name)).Nodup ∧
        testClass.methodNames.Nodup ∧
        ∀ field ∈ testClass.fields, field.name ≠ settings.naming.subjectName →
          ∃ method ∈ testClass.methods,
            method.name = settings.naming.fixtureName ∧
              HasLine
                ("    " ++
                  (settings.naming.subjectName ++ "." ++ field.name ++ " = " ++ field.name))
                method.text := by
  obtain ⟨hsound, houtcomes⟩ := sound_generateAll Store.sound_empty tasks
  refine ⟨houtcomes, ?_⟩
  intro name testClass hclass
  have hkept := hsound name testClass hclass
  exact ⟨hkept.fields, hkept.methods.names, hkept.assigned⟩

/-- The service into a store without classes: its repository is assigned. -/
theorem generateAll_sound_orderTask :
    ∃ testClass,
      (standard.generateAll {} [(orderSnapshot, orderTask)]).2.get? "shop.OrdersTest" =
          some testClass ∧
        testClass.fields.map (·.name) = ["testObj", "repo"] ∧
        ∃ method ∈ testClass.methods,
          method.name = "setup" ∧ HasLine "    testObj.repo = repo" method.text := by
  have hrun : ((standard.generateAll {} [(orderSnapshot, orderTask)]).2.get? "shop.OrdersTest").map
      (fun testClass => testClass.fields.map (·.name)) = some ["testObj", "repo"] := by
    decide +kernel
  obtain ⟨testClass, hclass, hfields⟩ := Option.map_eq_some_iff.mp hrun
  obtain ⟨field, hfield, hname⟩ : ∃ field ∈ testClass.fields, field.name = "repo" := by
    rw [← List.mem_map, hfields]
    decide
  obtain ⟨-, -, hassigned⟩ :=
    (generateAll_sound standard [(orderSnapshot, orderTask)]).2 _ testClass hclass
  obtain ⟨method, hmethod, hfixture, hline⟩ := hassigned field hfield (by rw [hname]; decide)
  rw [hname] at hline
  exact ⟨testClass, hclass, hfields, method, hmethod, hfixture, hline⟩

end Settings

end Specwright
