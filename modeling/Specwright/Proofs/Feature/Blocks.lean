import Specwright.Proofs.Feature.Texts
import Specwright.Proofs.Literal.Lines
import Specwright.Proofs.Session.Outline
import Specwright.Proofs.Target.Regeneration

/-!
# The blocks of a feature method

What a feature method says is settled by the tested method, the responses that are set up, a value
for each parameter and, where the method gives one back, the expected result.  Everything else in
its lines follows: what the method is called on, whether the value of the call is kept and compared,
and the form of the data table.  No line uses the spy, the result or a column that no other line
defines.  The lines are written out here, and shown to be those that are rendered.
-/

namespace Specwright

/-! ## What a feature method says -/

/-- What is put into the feature method for a method that a class declares. -/
structure FeatureContent (owner : ClassDecl) (method : MethodDecl) where
  stubs : List DoubleResponse
  spies : List SpyResponse
  /-- The values of the parameters. -/
  inputs : List DataColumn
  /-- The value that the method is expected to give back, if it gives one. -/
  expected : Option String
  /-- Each parameter has a value, in order. -/
  names_inputs : inputs.map (·.name) = method.params.map (·.name)
  /-- A static method is called on the class, which no spy answers for. -/
  spies_of_static : method.has .static = true → spies = []

/-! ## Lines written out -/

/-- The text with a backslash before each double quote. -/
def escaped (text : String) : String :=
  String.ofList (text.toList.flatMap fun c => if c = '"' then ['\\', '"'] else [c])

/-- The line that opens a block: its name and, if there is a description, that between quotes. -/
def blockLine (block description : String) : String :=
  if description = "" then block ++ ":" else block ++ ": \"" ++ escaped description ++ "\""

/-- A row of a data table: cells, and behind a double bar the cell of the expected result. -/
def tableRow (cells : List String) (result : Option String) : String :=
  match result with
  | some text => " | ".intercalate cells ++ " || " ++ text
  | none => " | ".intercalate cells

theorem blockLabel_eq (block description : String) :
    blockLabel block description = blockLine block description := by
  have hescaped : Text.replaceAll "\"" "\\\"" description = escaped description :=
    congrArg String.ofList (Text.intercalate_piecesFrom_singleton '"' ['\\', '"'] _)
  rw [blockLabel, blockLine, hescaped]
  simp

theorem cells_eq (texts : List String) : DataTable.cells texts = tableRow texts none :=
  rfl

namespace FeatureContent

variable {owner : ClassDecl} {method : MethodDecl}

section Lines

variable (naming : Naming) (labels : Labels) (content : FeatureContent owner method)

/-- What the method is called on: the class, the spy if there is anything for it to answer, or else
the instance under test. -/
def receiver : Receiver :=
  if method.has .static then .static owner.name
  else if content.spies = [] then .subject
  else .spy

/-- The name of what the method is called on. -/
def receiverName : String :=
  match content.receiver with
  | .static type => type
  | .spy => naming.spyName
  | .subject => naming.subjectName

/-- The call of the method with the values of its parameters. -/
def call : String :=
  content.receiverName naming ++ "." ++ method.name ++ "(" ++
    ", ".intercalate (content.inputs.map (·.value)) ++ ")"

/-- The call, and where a value is expected the variable that keeps what it gives. -/
def invocation : String :=
  match content.expected with
  | some _ => "def " ++ naming.resultName ++ " = " ++ content.call naming
  | none => content.call naming

/-- What has to hold after the call. -/
def assertion : String :=
  match content.expected with
  | some _ => naming.resultName ++ " == " ++ naming.expectedColumn
  | none => "noExceptionThrown()"

/-- The label and the responses of the spy behind its declaration, if there are any.  Where no value
is given back, the response does nothing. -/
def spyLines : List String :=
  if content.spies = [] then []
  else
    [blockLine "and" labels.spies,
      "def " ++ naming.spyName ++ " = Spy(" ++ naming.subjectName ++ ")"] ++
    content.spies.map fun spy =>
      naming.spyName ++ "." ++ spy.method ++ "(" ++ spy.matchers ++ ") >> " ++
        spy.response.getD "\x7b\x7d"

/-- The lines before the call, if there are any responses. -/
def setup : List String :=
  if content.stubs = [] ∧ content.spies = [] then []
  else
    [blockLine "given" labels.given, blockLine "and" labels.stubs] ++
    (content.stubs.map fun stub =>
      stub.receiver ++ "." ++ stub.method ++ "(" ++ stub.matchers ++ ") >> " ++ stub.response) ++
    content.spyLines naming labels

/-- The table without its label: nothing, a data pipe for an expected result alone, or a header and
a row, in which a lone cell gets a placeholder beside it. -/
def tableLines : List String :=
  match content.inputs, content.expected with
  | [], none => []
  | [], some value => [naming.expectedColumn ++ " << [" ++ value ++ "]"]
  | [input], none =>
    [tableRow [input.name, "_"] none, tableRow [input.value, "_"] none]
  | inputs, expected =>
    [tableRow (inputs.map (·.name)) (expected.map fun _ => naming.expectedColumn),
      tableRow (inputs.map (·.value)) expected]

/-- The table behind its label, unless there is none. -/
def scenarios : List String :=
  if content.tableLines naming = [] then []
  else blockLine "where" labels.scenarios :: content.tableLines naming

/-- The lines of the body. -/
def body : List String :=
  content.setup naming labels ++
    ["when:", content.invocation naming, blockLine "then" labels.outcome,
      content.assertion naming] ++
    content.scenarios naming labels

/-- The line with the annotation, unless there is none. -/
def markerLines : List String :=
  if naming.unrollMarker = "" then [] else ["@" ++ naming.unrollMarker]

/-- The lines of the feature method down to the one before its closing brace. -/
def linesBeforeEnd : List String :=
  markerLines naming ++ ["def \"" ++ method.name ++ naming.testNameSuffix ++ "\"()\x7b"] ++
    (content.body naming labels).map ("    " ++ ·)

/-- All lines of the feature method. -/
def lines : List String :=
  content.linesBeforeEnd naming labels ++ ["\x7d"]

/-- The plan of the feature method. -/
def toPlan : FeaturePlan where
  name := method.name ++ naming.testNameSuffix
  method := method.name
  stubs := content.stubs
  spy := !content.spies.isEmpty
  spies := content.spies
  receiver := content.receiver
  args := ", ".intercalate (content.inputs.map (·.value))
  returnsValue := content.expected.isSome
  table := {
    inputs := content.inputs
    expected := content.expected.map fun value => ⟨naming.expectedColumn, value⟩ }

end Lines

/-! ## The lines of a plan -/

section Plan

variable {naming : Naming} {labels : Labels} {content : FeatureContent owner method}

theorem setupLines_toPlan :
    (content.toPlan naming).setupLines naming labels = content.setup naming labels := by
  have hstub : DoubleResponse.render = fun stub =>
      stub.receiver ++ "." ++ stub.method ++ "(" ++ stub.matchers ++ ") >> " ++ stub.response := rfl
  have hspy : SpyResponse.render naming = fun spy =>
      naming.spyName ++ "." ++ spy.method ++ "(" ++ spy.matchers ++ ") >> " ++
        spy.response.getD "\x7b\x7d" := rfl
  rw [FeaturePlan.setupLines, setup, spyLines, Naming.spyDeclaration, hstub, hspy]
  by_cases hspies : content.spies = []
  · by_cases hstubs : content.stubs = []
    · simp [FeaturePlan.hasSetup, toPlan, hspies, hstubs]
    · simp [FeaturePlan.hasSetup, toPlan, hspies, hstubs, blockLabel_eq]
  · simp [FeaturePlan.hasSetup, toPlan, hspies, blockLabel_eq]

theorem receiverName_toPlan :
    (content.toPlan naming).receiverName naming = content.receiverName naming := by
  rw [FeaturePlan.receiverName, receiverName]
  cases hreceiver : content.receiver with
  | static type => simp [toPlan, hreceiver]
  | spy => simp [toPlan, hreceiver]
  | subject => simp [toPlan, hreceiver]

theorem invocation_toPlan :
    (content.toPlan naming).invocation naming = content.invocation naming := by
  rw [FeaturePlan.invocation, invocation, receiverName_toPlan]
  cases hexpected : content.expected with
  | none => simp [toPlan, hexpected, call]
  | some value => simp [toPlan, hexpected, call]

theorem assertion_toPlan :
    (content.toPlan naming).assertion naming = content.assertion naming := by
  rw [FeaturePlan.assertion, assertion]
  cases hexpected : content.expected with
  | none => simp [toPlan, hexpected]
  | some value => simp [toPlan, hexpected]

theorem tableLines_toPlan :
    (content.toPlan naming).tableLines labels = content.scenarios naming labels := by
  rw [FeaturePlan.tableLines, scenarios, tableLines, blockLabel_eq]
  cases hinputs : content.inputs with
  | nil =>
      cases hexpected : content.expected with
      | none => simp [toPlan, hinputs, hexpected, DataTable.isEmpty]
      | some value => simp [toPlan, hinputs, hexpected, DataTable.isEmpty, DataTable.render]
  | cons input rest =>
      cases hexpected : content.expected with
      | none =>
          cases rest with
          | nil =>
              simp [toPlan, hinputs, hexpected, DataTable.isEmpty, DataTable.render, cells_eq,
                DataTable.paddingColumn]
          | cons second rest =>
              simp [toPlan, hinputs, hexpected, DataTable.isEmpty, DataTable.render, cells_eq]
      | some value =>
          simp [toPlan, hinputs, hexpected, DataTable.isEmpty, DataTable.render, cells_eq, tableRow]

theorem bodyLines_toPlan :
    (content.toPlan naming).bodyLines naming labels = content.body naming labels := by
  rw [FeaturePlan.bodyLines, setupLines_toPlan, invocation_toPlan, assertion_toPlan,
    tableLines_toPlan, body, blockLabel_eq]
  simp

/-- The feature method is rendered as its lines, with line ends between them. -/
theorem render_toPlan :
    (content.toPlan naming).render naming labels =
      "\n".intercalate (content.lines naming labels) := by
  have hmarkerLine : FeaturePlan.markerLine naming =
      String.join ((markerLines naming).map (· ++ "\n")) := by
    rw [FeaturePlan.markerLine, markerLines]
    by_cases hmarker : naming.unrollMarker = ""
    · simp [hmarker]
    · simp [hmarker]
  have hindented : indentedLines (content.body naming labels) =
      String.join (((content.body naming labels).map ("    " ++ ·)).map (· ++ "\n")) := by
    rw [indentedLines, List.map_map]
    rfl
  rw [lines, ← Text.join_append_eq_intercalate, FeaturePlan.render, methodText, bodyLines_toPlan,
    hmarkerLine, hindented, linesBeforeEnd]
  simp [← String.toList_inj, toPlan]

section SingleLine

variable (hnaming : ∀ text ∈ naming.texts, Text.SingleLine text)
variable (hlabels : ∀ text ∈ labels.texts, Text.SingleLine text)
variable (h : ∀ text ∈ (content.toPlan naming).texts, Text.SingleLine text)

include hnaming hlabels h

theorem singleLine_linesBeforeEnd :
    ∀ line ∈ content.linesBeforeEnd naming labels, Text.SingleLine line := by
  have hmarker : Text.SingleLine naming.unrollMarker := hnaming _ (by simp [Naming.texts])
  have hsuffix : Text.SingleLine naming.testNameSuffix := hnaming _ (by simp [Naming.texts])
  have hmethod : Text.SingleLine method.name := h _ (by simp [FeaturePlan.texts, toPlan])
  have hbody : ∀ line ∈ content.body naming labels, Text.SingleLine line := by
    rw [← bodyLines_toPlan]
    exact FeaturePlan.good_bodyLines Text.compositional_singleLine hnaming h hlabels
  rw [linesBeforeEnd, List.forall_mem_append, List.forall_mem_append, List.forall_mem_singleton,
    List.forall_mem_map]
  refine ⟨⟨?marker, ?header⟩, ?body⟩
  case marker =>
    by_cases hempty : naming.unrollMarker = ""
    · simp [markerLines, hempty]
    · rw [markerLines, if_neg hempty, List.forall_mem_singleton, Text.singleLine_append_iff]
      exact ⟨by decide, hmarker⟩
  case header =>
    simp only [Text.singleLine_append_iff]
    exact ⟨⟨⟨by decide, hmethod⟩, hsuffix⟩, by decide⟩
  case body =>
    intro line hline
    rw [Text.singleLine_append_iff]
    exact ⟨by decide, hbody line hline⟩

/-- Where the texts of a plan and of the settings are of one line, so are the lines of the feature
method. -/
theorem singleLine_lines :
    ∀ line ∈ content.lines naming labels, Text.SingleLine line := by
  rw [lines, List.forall_mem_append, List.forall_mem_singleton]
  exact ⟨singleLine_linesBeforeEnd hnaming hlabels h, by decide⟩

end SingleLine

end Plan

/-! ## What the lines use -/

/-- Whether the lines of a table define a column for the expected result: in a data pipe, or as the
last one of a header with a value for it in the row. -/
def DefinesColumn (column : String) (table : List String) : Prop :=
  (∃ value, table = [column ++ " << [" ++ value ++ "]"]) ∨
    ∃ names values value, table = [tableRow names (some column), tableRow values (some value)]

/-- Whether the lines of a feature method use nothing that they do not define. -/
structure Closed (naming : Naming) (labels : Labels) (content : FeatureContent owner method) :
    Prop where
  /-- The call goes through the spy exactly where the spy answers calls. -/
  spy : content.receiver = .spy ↔ content.spies ≠ []
  /-- There it is declared. -/
  declared :
    content.spies ≠ [] →
      "def " ++ naming.spyName ++ " = Spy(" ++ naming.subjectName ++ ")" ∈
        content.setup naming labels
  /-- The result is compared with the expected column exactly where the call is kept in its variable
  and the table has that column. -/
  result :
    content.assertion naming = naming.resultName ++ " == " ++ naming.expectedColumn ↔
      content.invocation naming =
          "def " ++ naming.resultName ++ " = " ++ content.call naming ∧
        DefinesColumn naming.expectedColumn (content.tableLines naming)
  /-- Without parameters there is a data pipe at most. -/
  pipe :
    method.params = [] →
      content.tableLines naming =
        content.expected.toList.map fun value => naming.expectedColumn ++ " << [" ++ value ++ "]"
  /-- With parameters there is a header that starts with their names, and a row with as many cells
  that starts with the values that the call is made with. -/
  rows :
    method.params ≠ [] →
      ∃ names values,
        names.length = values.length ∧
          2 ≤ names.length + content.expected.toList.length ∧
          method.params.map (·.name) <+: names ∧ content.inputs.map (·.value) <+: values ∧
          content.tableLines naming =
            [tableRow names (content.expected.map fun _ => naming.expectedColumn),
              tableRow values content.expected]

section Closed

variable {naming : Naming} {labels : Labels} {content : FeatureContent owner method}

theorem receiver_eq_spy_iff : content.receiver = .spy ↔ content.spies ≠ [] := by
  rw [receiver]
  split
  next hstatic => simp [content.spies_of_static hstatic]
  next => split <;> simp [*]

theorem inputs_eq_nil_iff : content.inputs = [] ↔ method.params = [] := by
  rw [← List.map_eq_nil_iff (f := (·.name)), content.names_inputs, List.map_eq_nil_iff]

theorem isSome_of_assertion
    (h : content.assertion naming = naming.resultName ++ " == " ++ naming.expectedColumn) :
    content.expected.isSome = true := by
  cases hexpected : content.expected with
  | some value => rfl
  | none =>
      rw [assertion, hexpected] at h
      have htext : "noExceptionThrown()" = naming.resultName ++ " == " ++ naming.expectedColumn := h
      have hblank : ' ' ∈ "noExceptionThrown()".toList := by
        rw [htext]
        simp
      exact absurd hblank (by decide)

theorem isSome_of_invocation
    (h : content.invocation naming = "def " ++ naming.resultName ++ " = " ++ content.call naming) :
    content.expected.isSome = true := by
  cases hexpected : content.expected with
  | some value => rfl
  | none =>
      rw [invocation, hexpected] at h
      have hlength := congrArg String.length h
      simp only [String.length_append] at hlength
      have hprefix : "def ".length = 4 := rfl
      omega

theorem tableLines_of_nil (h : content.inputs = []) :
    content.tableLines naming =
      content.expected.toList.map fun value =>
        naming.expectedColumn ++ " << [" ++ value ++ "]" := by
  rw [tableLines, h]
  cases content.expected with
  | none => rfl
  | some value => rfl

theorem exists_rows_of_ne_nil (h : content.inputs ≠ []) :
    ∃ names values,
      names.length = values.length ∧
        2 ≤ names.length + content.expected.toList.length ∧
        content.inputs.map (·.name) <+: names ∧ content.inputs.map (·.value) <+: values ∧
        content.tableLines naming =
          [tableRow names (content.expected.map fun _ => naming.expectedColumn),
            tableRow values content.expected] := by
  rw [tableLines]
  cases hinputs : content.inputs with
  | nil => exact absurd hinputs h
  | cons input rest =>
      let names := (input :: rest).map (·.name)
      let values := (input :: rest).map (·.value)
      cases rest with
      | nil =>
          cases hexpected : content.expected with
          | none =>
              exact ⟨names ++ ["_"], values ++ ["_"], rfl,
                Nat.le_refl 2, List.prefix_append _ _, List.prefix_append _ _, rfl⟩
          | some value =>
              exact ⟨names, values, rfl, Nat.le_refl 2, List.prefix_rfl, List.prefix_rfl, rfl⟩
      | cons second rest =>
          refine ⟨names, values, ?_, ?_, List.prefix_rfl, List.prefix_rfl, rfl⟩
          · simp [names, values]
          · simp only [names, List.map_cons, List.length_cons]
            omega

/-- The lines of every feature method use only what they define. -/
theorem closed (naming : Naming) (labels : Labels) (content : FeatureContent owner method) :
    content.Closed naming labels where
  spy := receiver_eq_spy_iff
  declared h := by
    simp [setup, spyLines, h]
  result := by
    constructor
    · intro h
      obtain ⟨value, hvalue⟩ := Option.isSome_iff_exists.mp (isSome_of_assertion h)
      refine ⟨by rw [invocation, hvalue], ?_⟩
      by_cases hinputs : content.inputs = []
      · refine Or.inl ⟨value, ?_⟩
        rw [tableLines_of_nil hinputs, hvalue]
        rfl
      · obtain ⟨names, values, -, -, -, -, htable⟩ := exists_rows_of_ne_nil hinputs
        refine Or.inr ⟨names, values, value, ?_⟩
        rw [htable, hvalue]
        rfl
    · rintro ⟨h, -⟩
      obtain ⟨value, hvalue⟩ := Option.isSome_iff_exists.mp (isSome_of_invocation h)
      rw [assertion, hvalue]
  pipe h := tableLines_of_nil (inputs_eq_nil_iff.mpr h)
  rows h := by
    rw [← content.names_inputs]
    exact exists_rows_of_ne_nil (inputs_eq_nil_iff.not.mpr h)

end Closed

end FeatureContent

/-! ## Plans -/

/-- Whether the lines of a feature method are those of what goes into it for a method of a class,
with its responses in their order, and use nothing that they do not define. -/
def FeaturePlan.WritesClosed
    (naming : Naming) (labels : Labels) (owner : ClassDecl) (method : MethodDecl)
    (feature : FeaturePlan) : Prop :=
  ∃ content : FeatureContent owner method,
    content.stubs = feature.stubs ∧ content.spies = feature.spies ∧
      feature.render naming labels = "\n".intercalate (content.lines naming labels) ∧
      (∀ line ∈ content.lines naming labels, '\n' ∉ line.toList) ∧
      content.Closed naming labels

namespace Settings

variable {settings : Settings}

/-- The feature that is planned for a model of a method is one for what goes into its feature
method. -/
theorem exists_content_of_featurePlan
    {scope : Scope} {answers : TypeRef → TypeModel → Prop} {bodies : Option BodyModel → Prop}
    {viewer : Option ClassDecl} {owner : ClassDecl} {method : MethodDecl} {model : MethodModel}
    {type : TypeModel} {feature : FeaturePlan}
    (hshows : model.Shows scope answers bodies viewer ⟨owner, method⟩)
    (htype : type.erasedName = owner.name) (h : settings.featurePlan type model = .ok feature) :
    ∃ content : FeatureContent owner method, feature = content.toPlan settings.naming := by
  obtain ⟨⟨inputs, expected⟩, stubs, spies, htable, -, hspies, rfl⟩ := featurePlan_cases h
  obtain ⟨hinputs, result, hresult, rfl⟩ := ExpressionTables.dataTable_cases htable
  have hstatic : model.traits.isStatic = method.has .static := by
    rw [hshows.traits_eq]
    rfl
  have hnone (h : method.has .static = true) : spies = [] := by
    rw [MethodModel.spiedCallees, hstatic, h, Bool.or_true, if_pos rfl] at hspies
    cases hspies
    rfl
  let content : FeatureContent owner method :=
    ⟨stubs, spies, inputs, result, hinputs.trans hshows.names_params, hnone⟩
  have hreceiver : receiverOf type model (!spies.isEmpty) = content.receiver := by
    rw [receiverOf, FeatureContent.receiver, hstatic, htype]
    by_cases hspies : spies = []
    · simp [content, hspies]
    · simp [content, hspies]
  refine ⟨content, ?_⟩
  rw [FeatureContent.toPlan, ← hreceiver, hshows.name_eq, ← hresult]
  rfl

/-- Where the names in the snapshot and the texts in the settings are of one line, the lines of each
feature method that is planned are those of what goes into it, and they use nothing that they do not
define.  There is one for each selected method that the class declares, in their order. -/
theorem plan_writes_closed_features
    {snapshot : Snapshot} {task : GenerationTask} {plan : TestPlan} {cache : CacheCounters}
    (h : settings.plan snapshot task = .ok (plan, cache))
    (hnames : snapshot.NamesWithin Text.SingleLine)
    (hsettings : ∀ text ∈ settings.texts, Text.SingleLine text) :
    ∃ owner, snapshot.find? task.className = some owner ∧
      List.Forall₂
        (FeaturePlan.WritesClosed settings.naming settings.labels owner)
        (owner.methods.filter (·.name ∈ task.selection)) plan.features := by
  obtain ⟨scope, hscope, hplan⟩ := plan_cases h
  obtain ⟨rfl, -, hfound⟩ := Scope.open?_eq_some hscope
  refine ⟨scope.subject, hfound, ?_⟩
  have htexts := TestPlan.texts_features_of_build Text.literalProperty_singleLine hsettings
    (Session.extractSubject_textsWithin Text.compositional_singleLine hnames) hplan
  obtain ⟨-, features, hfeatures, rfl⟩ := TestPlan.build_cases hplan
  have hplanned := Contract.ensures_mapM (Contract.ofSuccess ShapeError)
    (fun model _ feature hfeature => hfeature) features hfeatures
  have hgood := forall₂_and_right hplanned htexts
  refine forall₂_comp (Session.forall₂_selectedMethods scope .empty task.selection) hgood ?_
  rintro method model feature hshows ⟨hfeature, hlines⟩
  obtain ⟨content, rfl⟩ := exists_content_of_featurePlan hshows
    (Session.erasedName_extractSubject scope .empty) hfeature
  rw [Settings.texts, List.forall_mem_append, List.forall_mem_append] at hsettings
  obtain ⟨⟨hnaming, hlabels⟩, -⟩ := hsettings
  exact ⟨content, rfl, rfl, FeatureContent.render_toPlan,
    FeatureContent.singleLine_lines hnaming hlabels hlines,
    content.closed settings.naming settings.labels⟩

/-- The service: one method with a response of the repository and one of the spy, and one without
parameters, the table of which is a data pipe. -/
theorem plan_writes_closed_features_orderTask :
    ∃ plan cache,
      standard.plan orderSnapshot orderTask = .ok (plan, cache) ∧
        orderSnapshot.NamesWithin Text.SingleLine ∧
        (∀ text ∈ standard.texts, Text.SingleLine text) ∧
        plan.features.map (FeaturePlan.render standard.naming standard.labels) = [
          "\n".intercalate [
            "@spock.lang.Unroll",
            "def \"describeTest\"()\x7b",
            "    given: \"prepare method inputs\"",
            "    and: \"stub collaborator responses\"",
            "    repo.find(_) >> \"findResponse\"",
            "    and: \"stub calls on the subject itself\"",
            "    def spy = Spy(testObj)",
            "    spy.discount() >> 0",
            "    when:",
            "    def result = spy.describe(0L)",
            "    then: \"the result matches the expectation\"",
            "    result == expectedResult",
            "    where: \"scenarios\"",
            "    id || expectedResult",
            "    0L || \"expectedResult\"",
            "\x7d"],
          "\n".intercalate [
            "@spock.lang.Unroll",
            "def \"discountTest\"()\x7b",
            "    when:",
            "    def result = testObj.discount()",
            "    then: \"the result matches the expectation\"",
            "    result == expectedResult",
            "    where: \"scenarios\"",
            "    expectedResult << [0]",
            "\x7d"]] ∧
        ∃ owner, orderSnapshot.find? orderTask.className = some owner ∧
          List.Forall₂
            (FeaturePlan.WritesClosed standard.naming standard.labels owner)
            (owner.methods.filter (·.name ∈ orderTask.selection)) plan.features := by
  have hplan : standard.plan orderSnapshot orderTask = .ok (_, _) := rfl
  have hnames : orderSnapshot.NamesWithin Text.SingleLine := by
    decide +kernel
  have hsettings : ∀ text ∈ standard.texts, Text.SingleLine text := by
    rw [texts, List.forall_mem_append]
    exact ⟨by decide, ExpressionTables.singleLine_standard⟩
  exact ⟨_, _, hplan, hnames, hsettings, by decide +kernel,
    plan_writes_closed_features hplan hnames hsettings⟩

end Settings

end Specwright
