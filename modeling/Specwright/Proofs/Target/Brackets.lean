import Specwright.Proofs.Feature.Brackets
import Specwright.Proofs.Target.Runs

/-!
# Brackets in generated classes

Where all names and settings are balanced, so is all that is generated.  What carries this from run
to run is how a method is written: a balanced header and, in braces, balanced lines.  Its last brace
closes the one behind the header, and statements that are put in before it leave it at that.
-/

namespace Specwright

open Text (SameBrackets)

/-! ## Methods -/

theorem balanced_indentedLines {lines : List String} (h : ∀ line ∈ lines, Text.Balanced line) :
    Text.Balanced (indentedLines lines) := by
  refine Text.compositional_balanced.join ?_
  rw [List.forall_mem_map]
  intro line hline
  simp only [Text.balanced_iff, indentedLine, lineIndent, Text.awaitedBehind_text_append,
    (h line hline).read]
  rfl

/-- The text up to its opening brace of a method that is written: of the fixture method, or of a
feature method. -/
inductive Naming.IsHeader (naming : Naming) (name : String) : String → Prop
  | fixture : IsHeader naming name ("def " ++ name ++ "()")
  | feature : IsHeader naming name (FeaturePlan.markerLine naming ++ ("def \"" ++ name ++ "\"()"))

namespace Member

/-- Whether a method is a balanced header and a balanced body in braces. -/
structure Braced (naming : Naming) (method : Member) (header body : String) : Prop where
  isHeader : naming.IsHeader method.name header
  balancedHeader : Text.Balanced header
  balancedBody : Text.Balanced body
  text_eq : method.text = header ++ "\x7b" ++ body ++ "\x7d"

namespace Braced

variable {naming : Naming} {method : Member} {header body : String}

theorem balanced (h : method.Braced naming header body) : Text.Balanced method.text := by
  rw [h.text_eq]
  simp only [Text.balanced_iff, Text.awaitedBehind_text_append, h.balancedHeader.read,
    h.balancedBody.read]
  rfl

theorem endsInBrace (h : method.Braced naming header body) : EndsInBrace method.text :=
  ⟨_, h.text_eq⟩

/-- What is put into a method comes between its body and the brace that closes it. -/
theorem eq_of_extendedBy
    {lines : List String} {text : String} (h : method.Braced naming header body)
    (htext : ExtendedBy lines method.text text) :
    text = header ++ "\x7b" ++ body ++ insertion (header ++ "\x7b" ++ body) lines ++ "\x7d" := by
  obtain ⟨front, hold, rfl⟩ := htext.exists_body h.endsInBrace
  have hfront : header ++ "\x7b" ++ body = front :=
    (String.append_left_inj _).mp (h.text_eq.symm.trans hold)
  rw [hfront]

theorem extendText?_eq (h : method.Braced naming header body) (statements : List String) :
    TestClass.extendText? method.text statements =
      some (header ++ "\x7b" ++ body ++ insertion (header ++ "\x7b" ++ body) statements
        ++ "\x7d") := by
  have hnone : '\x7d' ∉ "".toList := by simp
  have hextend := TestClass.extendText?_of_last_brace (header ++ "\x7b" ++ body) hnone statements
  rwa [String.append_empty, String.append_empty, ← h.text_eq] at hextend

theorem extend
    {lines : List String} {text : String} (h : method.Braced naming header body)
    (hlines : ∀ line ∈ lines, Text.Balanced line) (htext : ExtendedBy lines method.text text) :
    ∃ longer, Braced naming { method with text } header longer := by
  have hinserted : Text.Balanced (insertion (header ++ "\x7b" ++ body) lines) := by
    rw [insertion_eq]
    split
    · exact Text.Balanced.append .nil (balanced_indentedLines hlines)
    · exact (Text.balanced_of_plain rfl).append (balanced_indentedLines hlines)
  refine ⟨_, h.isHeader, h.balancedHeader, h.balancedBody.append hinserted, ?_⟩
  rw [h.eq_of_extendedBy htext]
  simp only [String.append_assoc]

end Braced

/-- The lines of a member have the brackets of its text. -/
theorem sameBrackets_sourceLines (member : Member) :
    SameBrackets member.sourceLines.toList member.text.toList := by
  have hwritten (line : List Char) : SameBrackets
      (if (String.ofList line).isEmpty then "\n" else indentedLine (String.ofList line)).toList
      line := by
    split
    next hempty =>
      have hnil : line = [] := by simpa using hempty
      subst hnil
      exact Text.sameBrackets_plain rfl []
    next =>
      intro awaited
      have hindent : Text.Balanced lineIndent := Text.balanced_of_plain rfl
      have hend : Text.Balanced "\n" := Text.balanced_of_plain rfl
      simp only [indentedLine, Text.awaitedBehind_text_append, hindent.read, hend.read,
        Option.bind_some, Option.bind_fun_some, String.toList_ofList]
  rw [sourceLines, String.toList_join, Text.lines, List.map_map, List.flatMap_map]
  exact (Text.sameBrackets_flatMap hwritten _).trans (Text.sameBrackets_linesOf _)

theorem braced_methodText
    {naming : Naming} {name header : String} {lines : List String}
    (hisHeader : naming.IsHeader name header) (hheader : Text.Balanced header)
    (hlines : ∀ line ∈ lines, Text.Balanced line) :
    Braced naming ⟨name, methodText header lines⟩ header ("\n" ++ indentedLines lines) := by
  have hfeed : Text.Balanced "\n" := Text.balanced_of_plain rfl
  refine ⟨hisHeader, hheader, hfeed.append (balanced_indentedLines hlines), ?_⟩
  have hopen : ("\x7b\n" : String) = "\x7b" ++ "\n" := rfl
  rw [methodText, hopen]
  simp only [String.append_assoc]

end Member

namespace Naming.WellBracketed

variable {naming : Naming} (h : naming.WellBracketed)

include h

theorem braced_fixture
    {statements : List String} (hstatements : ∀ line ∈ statements, Text.Balanced line) :
    ∃ header body,
      Member.Braced naming ⟨naming.fixtureName, naming.fixture statements⟩ header body := by
  have hheader : Text.Balanced ("def " ++ naming.fixtureName ++ "()") := by
    simp only [Text.balanced_iff, Text.awaitedBehind_text_append, h.fixtureName.read]
    rfl
  exact ⟨_, _, Member.braced_methodText .fixture hheader hstatements⟩

theorem braced_feature
    {labels : Labels} {plan : FeaturePlan} (hlabels : labels.WellBracketed)
    (hplan : plan.WellBracketed) :
    ∃ header body, Member.Braced naming ⟨plan.name, plan.render naming labels⟩ header body := by
  have hmarker : Text.Balanced (FeaturePlan.markerLine naming) := by
    rw [FeaturePlan.markerLine]
    split
    · exact .nil
    · exact ((Text.balanced_of_plain rfl).append h.unrollMarker).append (Text.balanced_of_plain rfl)
  have hheader : Text.Balanced
      (FeaturePlan.markerLine naming ++ ("def \"" ++ plan.name ++ "\"()")) := by
    simp only [Text.balanced_iff, Text.awaitedBehind_text_append, hmarker.read, hplan.name.read]
    rfl
  have htext : plan.render naming labels =
      methodText (FeaturePlan.markerLine naming ++ ("def \"" ++ plan.name ++ "\"()"))
        (plan.bodyLines naming labels) := by
    simp only [FeaturePlan.render, methodText, String.append_assoc]
  rw [htext]
  exact ⟨_, _, Member.braced_methodText .feature hheader
    (FeaturePlan.balanced_bodyLines h hplan hlabels)⟩

end Naming.WellBracketed

/-! ## Classes -/

namespace Text

/-- A qualified name has the brackets of its package and its simple name. -/
theorem sameBrackets_dotted (name : String) :
    SameBrackets (packageName name ++ simpleName name).toList name.toList := by
  cases hcut : cutQualified name with
  | none =>
      rw [packageName, simpleName, hcut, String.empty_append]
      exact .refl _
  | some parts =>
      obtain ⟨⟨package, simple⟩, hsplit, rfl⟩ := Option.map_eq_some_iff.mp hcut
      rw [packageName, simpleName, hcut, append_of_splitAtLast hsplit]
      simp only [String.toList_append, String.toList_ofList]
      exact SameBrackets.append (.refl package) (sameBrackets_plain rfl simple).symm

end Text

namespace TestClass

/-- Whether all texts in a class are balanced, its package and its name taken together, and its
methods are headers with bodies in braces. -/
structure WellBracketed (naming : Naming) (testClass : TestClass) : Prop where
  names : Text.Balanced (testClass.package ++ testClass.name)
  superclass : ∀ text ∈ testClass.superclass, Text.Balanced text
  fields : ∀ field ∈ testClass.fields, Text.Balanced field.text
  methods : ∀ method ∈ testClass.methods, ∃ header body, method.Braced naming header body

theorem wellBracketed_ofName {name : String} (naming : Naming) (h : Text.Balanced name) :
    (ofName name).WellBracketed naming where
  names := (Text.sameBrackets_dotted name).wellNested_iff.mpr h
  superclass _ htext := by cases htext
  fields _ hfield := by cases hfield
  methods _ hmethod := by cases hmethod

/-- A class is its head and its superclass with members in braces behind them. -/
theorem balanced_source
    {head above fields methods : String} (hhead : Text.Balanced head) (habove : Text.Balanced above)
    (hfields : Text.Balanced fields) (hmethods : Text.Balanced methods) :
    Text.Balanced (head ++ above ++ " \x7b\n" ++ fields ++ methods ++ "\x7d\n") := by
  simp only [Text.balanced_iff, Text.awaitedBehind_text_append, hhead.read, habove.read,
    hfields.read, hmethods.read]
  rfl

theorem balanced_sourceLines {member : Member} (h : Text.Balanced member.text) :
    Text.Balanced member.sourceLines :=
  member.sameBrackets_sourceLines.wellNested_iff.mpr h

namespace WellBracketed

variable {naming : Naming} {testClass : TestClass} (h : testClass.WellBracketed naming)

include h

theorem balanced_text {method : Member} (hmethod : method ∈ testClass.methods) :
    Text.Balanced method.text := by
  obtain ⟨header, body, hbraced⟩ := h.methods method hmethod
  exact hbraced.balanced

/-- The words and line ends around the package and the name have no brackets. -/
theorem balanced_head :
    Text.Balanced
      ((if testClass.package.isEmpty then "" else "package " ++ testClass.package ++ "\n\n")
        ++ "class " ++ testClass.name) := by
  have hclass : Text.Balanced "class " := Text.balanced_of_plain rfl
  have hsame : SameBrackets
      ((if testClass.package.isEmpty then "" else "package " ++ testClass.package ++ "\n\n")
        ++ "class " ++ testClass.name).toList
      (testClass.package ++ testClass.name).toList := by
    intro awaited
    split
    next hempty =>
      have hnone : testClass.package = "" := by simpa using hempty
      rw [hnone]
      simp only [Text.awaitedBehind_text_append, hclass.read]
      rfl
    next =>
      have hpackage : Text.Balanced "package " := Text.balanced_of_plain rfl
      have hfeeds : Text.Balanced "\n\n" := Text.balanced_of_plain rfl
      simp only [Text.awaitedBehind_text_append, hclass.read, hpackage.read, hfeeds.read,
        Option.bind_some, Option.bind_fun_some]
  exact hsame.wellNested_iff.mpr h.names

/-- The source text of the class is balanced. -/
theorem balanced_sourceText : Text.Balanced testClass.sourceText := by
  have hfeed : Text.Balanced "\n" := Text.balanced_of_plain rfl
  rw [sourceText]
  refine balanced_source h.balanced_head ?above ?fields (Text.compositional_balanced.join ?methods)
  case above =>
    split
    next superclass hsuperclass =>
      exact (Text.balanced_of_plain rfl).append (h.superclass superclass hsuperclass)
    next => exact .nil
  case fields =>
    split
    · exact .nil
    · refine hfeed.append (Text.compositional_balanced.join (List.forall_mem_map.mpr ?_))
      exact fun field hfield => balanced_sourceLines (h.fields field hfield)
  case methods =>
    rw [List.forall_mem_map]
    exact fun method hmethod => hfeed.append (balanced_sourceLines (h.balanced_text hmethod))

/-! ## Merges -/

theorem addMethods
    {methods : List Member}
    (hmethods : ∀ method ∈ methods, ∃ header body, method.Braced naming header body) :
    (testClass.addMethods methods).WellBracketed naming where
  names := h.names
  superclass := h.superclass
  fields := h.fields
  methods := by
    refine List.forall_mem_append.mpr ⟨h.methods, ?_⟩
    exact fun method hmethod => hmethods method (Member.mem_of_mem_admitted hmethod)

theorem withDeclarations {plan : TestPlan} (hplan : plan.WellBracketed) :
    (testClass.withDeclarations plan).WellBracketed naming where
  names := h.names
  superclass := by
    intro text htext
    rcases Option.or_eq_some_iff.mp htext with hold | ⟨-, hnew⟩
    · exact h.superclass text hold
    · cases hnew
      exact hplan.superclass
  fields := by
    refine List.forall_mem_append.mpr ⟨h.fields, ?_⟩
    intro field hfield
    rcases List.mem_cons.mp (Member.mem_of_mem_admitted hfield) with rfl | hnew
    · exact SubjectPlan.balanced_render hplan.subjectName hplan.subjectType
    · obtain ⟨double, hdouble, rfl⟩ := List.mem_map.mp hnew
      exact (hplan.doubles double hdouble).balanced_render
  methods := h.methods

theorem withFixture
    (hnaming : naming.WellBracketed) {statements : List String}
    (hstatements : ∀ line ∈ statements, Text.Balanced line) {prepared : TestClass}
    (hprepared : testClass.withFixture naming statements = .ok prepared) :
    prepared.WellBracketed naming := by
  rcases withFixture_cases hprepared with
    ⟨-, rfl⟩ | ⟨-, methods, hextend, rfl⟩ | ⟨-, -, rfl⟩
  · exact h
  · refine ⟨h.names, h.superclass, h.fields, ?_⟩
    obtain ⟨before, after, first, text, -, -, htext, hold, rfl⟩ :=
      firstExtendedBy_of_extendFirst hextend
    have hmethods := h.methods
    rw [hold, List.forall_mem_append, List.forall_mem_cons] at hmethods
    obtain ⟨hbefore, ⟨header, body, hfirst⟩, hafter⟩ := hmethods
    obtain ⟨longer, hextended⟩ := hfirst.extend hstatements htext
    exact List.forall_mem_append.mpr
      ⟨hbefore, List.forall_mem_cons.mpr ⟨⟨header, longer, hextended⟩, hafter⟩⟩
  · refine h.addMethods ?_
    rw [List.forall_mem_singleton]
    exact hnaming.braced_fixture hstatements

end WellBracketed

variable {settings : Settings} {testClass : TestClass} {plan : TestPlan}

theorem balanced_newAssignments
    (hsettings : settings.WellBracketed) (hplan : plan.WellBracketed) :
    ∀ line ∈ testClass.newAssignments settings plan, Text.Balanced line := by
  rw [newAssignments, List.forall_mem_map]
  intro member hmember
  obtain ⟨double, hdouble, rfl⟩ := List.mem_map.mp (Member.mem_of_mem_admitted hmember)
  exact hsettings.naming.balanced_assignment (hplan.doubles double hdouble).name

/-- A merge of balanced texts keeps a class balanced, however it ends. -/
theorem WellBracketed.merge
    (h : testClass.WellBracketed settings.naming) (hsettings : settings.WellBracketed)
    (hplan : plan.WellBracketed) :
    (testClass.merge settings plan).1.WellBracketed settings.naming := by
  have hdeclared := h.withDeclarations hplan
  cases hmerge : testClass.merge settings plan with
  | mk merged outcome =>
      cases outcome with
      | error cause =>
          simp only [TestClass.merge] at hmerge
          split at hmerge
          · cases hmerge
            exact hdeclared
          · cases hmerge
      | ok report =>
          obtain ⟨prepared, hprepared, rfl, -⟩ := merge_cases hmerge
          have hassignments : ∀ line ∈ testClass.newAssignments settings plan, Text.Balanced line :=
            balanced_newAssignments hsettings hplan
          refine (hdeclared.withFixture hsettings.naming hassignments hprepared).addMethods ?_
          rw [TestPlan.featureMethods, List.forall_mem_map]
          intro feature hfeature
          exact hsettings.naming.braced_feature hsettings.labels (hplan.features feature hfeature)

end TestClass

/-! ## Runs -/

namespace Settings

variable {settings : Settings}

theorem wellBracketed_of_plan
    (hsettings : settings.WellBracketed) {snapshot : Snapshot} {task : GenerationTask}
    (hnames : snapshot.NamesWithin Text.Balanced) {plan : TestPlan} {cache : CacheCounters}
    (h : settings.plan snapshot task = .ok (plan, cache)) :
    plan.WellBracketed ∧ Text.Balanced task.className := by
  obtain ⟨scope, hscope, hplan⟩ := plan_cases h
  obtain ⟨rfl, -, hfound⟩ := Scope.open?_eq_some hscope
  constructor
  · exact TestPlan.wellBracketed_of_build hsettings (Session.extractSubject_bracketed hnames) hplan
  · have hclass := hnames.className (Snapshot.mem_of_find? hfound)
    rwa [Snapshot.name_of_find? hfound] at hclass

/-- A task with balanced names keeps the classes of a store balanced. -/
theorem wellBracketed_generate
    (hsettings : settings.WellBracketed) {snapshot : Snapshot} {task : GenerationTask}
    (hnames : snapshot.NamesWithin Text.Balanced)
    (htarget : ∀ target ∈ task.target, Text.Balanced target) {store : Store}
    (h : store.All (·.WellBracketed settings.naming)) :
    (settings.generate snapshot store task).2.All (·.WellBracketed settings.naming) := by
  refine all_generate h ?new ?merged
  case new =>
    intro plan cache hplan
    refine TestClass.wellBracketed_ofName _ ?_
    rw [targetName]
    cases hname : task.target with
    | some target => exact htarget target hname
    | none =>
        have hclass := (wellBracketed_of_plan hsettings hnames hplan).2
        exact hclass.append hsettings.naming.targetSuffix
  case merged =>
    intro plan cache testClass hplan htestClass
    exact htestClass.merge hsettings (wellBracketed_of_plan hsettings hnames hplan).1

/-- Where all names, texts of the settings and names of targets are balanced, after any tasks on an
empty store the texts of all members and the source text of each class are balanced.  A method is a
header with a balanced body in braces, and statements are put in right before the closing one. -/
theorem generateAll_balanced
    (hsettings : settings.WellBracketed) {tasks : List (Snapshot × GenerationTask)}
    (hnames : ∀ task ∈ tasks, task.1.NamesWithin Text.Balanced)
    (htargets : ∀ task ∈ tasks, ∀ target ∈ task.2.target, Text.Balanced target)
    (allowCreate : Bool) :
    ∀ name testClass,
      (settings.generateAll { allowCreate } tasks).2.get? name = some testClass →
        (∀ field ∈ testClass.fields, Text.Balanced field.text) ∧
        (∀ method ∈ testClass.methods, Text.Balanced method.text) ∧
        Text.Balanced testClass.sourceText ∧
        ∀ method ∈ testClass.methods, ∃ header body,
          method.Braced settings.naming header body ∧
            ∀ statements,
              TestClass.extendText? method.text statements =
                some (header ++ "\x7b" ++ body ++
                  insertion (header ++ "\x7b" ++ body) statements ++ "\x7d") := by
  intro name testClass hclass
  have hall := all_generateAll (Store.all_empty allowCreate)
    (fun task htask before hbefore => wellBracketed_generate hsettings (hnames task htask)
      (htargets task htask) hbefore)
  have hbracketed : testClass.WellBracketed settings.naming := hall name testClass hclass
  refine ⟨hbracketed.fields, fun _ => hbracketed.balanced_text, hbracketed.balanced_sourceText, ?_⟩
  intro method hmethod
  obtain ⟨header, body, hbraced⟩ := hbracketed.methods method hmethod
  exact ⟨header, body, hbraced, hbraced.extendText?_eq⟩

/-- The service, one method after the other: the class that is there in the end is balanced, and its
fixture method can be extended before the brace that closes it. -/
theorem generateAll_balanced_orderTask :
    let tasks := [(orderSnapshot, { orderTask with selection := ["describe"] }),
      (orderSnapshot, { orderTask with selection := ["discount"] })]
    standard.WellBracketed ∧ orderSnapshot.NamesWithin Text.Balanced ∧
      ∃ testClass, (standard.generateAll {} tasks).2.get? "shop.OrdersTest" = some testClass ∧
        testClass.methodNames = ["setup", "describeTest", "discountTest"] ∧
        Text.Balanced testClass.sourceText ∧
        ∃ setup ∈ testClass.methods, setup.name = "setup" ∧
          ∃ header body, setup.Braced standard.naming header body := by
  intro tasks
  have hnames : orderSnapshot.NamesWithin Text.Balanced := by decide +kernel
  have hclass : ∃ testClass,
      (standard.generateAll {} tasks).2.get? "shop.OrdersTest" = some testClass ∧
        testClass.methodNames = ["setup", "describeTest", "discountTest"] ∧
        ∃ setup ∈ testClass.methods, setup.name = "setup" :=
    ⟨_, rfl, rfl, _, List.Mem.head _, rfl⟩
  obtain ⟨testClass, hheld, hmethods, setup, hsetup, hname⟩ := hclass
  have hbalanced := generateAll_balanced wellBracketed_standard
    (by decide +kernel : ∀ task ∈ tasks, task.1.NamesWithin Text.Balanced)
    (by decide +kernel) true "shop.OrdersTest" testClass hheld
  obtain ⟨-, -, hsource, hbraced⟩ := hbalanced
  obtain ⟨header, body, hsetupBraced, -⟩ := hbraced setup hsetup
  exact ⟨wellBracketed_standard, hnames, testClass, hheld, hmethods, hsource, setup, hsetup, hname,
    header, body, hsetupBraced⟩

end Settings

end Specwright
