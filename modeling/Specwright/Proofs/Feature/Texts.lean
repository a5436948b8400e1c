import Specwright.Feature.Rendering
import Specwright.Proofs.Feature.Planning
import Specwright.Proofs.Feature.SelfCalls
import Specwright.Proofs.Literal.Texts

/-!
# Texts in plans

Where the texts in the settings have a property that is kept when texts are composed and shapes are
filled, and so has all that is written of the model, the texts of all features in a plan have it and
with them the lines that are written for the features.
-/

namespace Specwright

/-! ## Settings and plans -/

/-- The names in a generated class. -/
def Naming.texts (naming : Naming) : List String :=
  [naming.superclass, naming.targetSuffix, naming.subjectName, naming.fixtureName,
    naming.testNameSuffix, naming.unrollMarker, naming.spyName, naming.resultName,
    naming.expectedColumn]

/-- The labels of the blocks. -/
def Labels.texts (labels : Labels) : List String :=
  [labels.given, labels.stubs, labels.spies, labels.outcome, labels.scenarios]

/-- The texts in the settings that are written in feature methods. -/
def Settings.texts (settings : Settings) : List String :=
  settings.naming.texts ++ settings.labels.texts ++ settings.tables.texts

/-- The texts of a response of a double. -/
def DoubleResponse.texts (stub : DoubleResponse) : List String :=
  [stub.receiver, stub.method, stub.matchers, stub.response]

/-- The texts of a response of the spy. -/
def SpyResponse.texts (spy : SpyResponse) : List String :=
  spy.method :: spy.matchers :: spy.response.toList

/-- The class on which a static method is called. -/
def Receiver.texts : Receiver → List String
  | .static type => [type]
  | .spy => []
  | .subject => []

/-- The texts of a feature method. -/
def FeaturePlan.texts (plan : FeaturePlan) : List String :=
  plan.name :: plan.method :: plan.args ::
    (plan.receiver.texts ++ plan.stubs.flatMap DoubleResponse.texts ++
      plan.spies.flatMap SpyResponse.texts ++ plan.table.texts)

variable {good : String → Prop}

theorem DoubleResponse.forall_mem_texts {stub : DoubleResponse} :
    (∀ text ∈ stub.texts, good text) ↔
      good stub.receiver ∧ good stub.method ∧ good stub.matchers ∧ good stub.response := by
  rw [texts, List.forall_mem_cons, List.forall_mem_cons, List.forall_mem_cons,
    List.forall_mem_singleton]

theorem SpyResponse.forall_mem_texts {spy : SpyResponse} :
    (∀ text ∈ spy.texts, good text) ↔
      good spy.method ∧ good spy.matchers ∧ ∀ text ∈ spy.response, good text := by
  simp only [texts, List.forall_mem_cons, Option.mem_toList, Option.mem_def]

theorem FeaturePlan.forall_mem_texts {plan : FeaturePlan} :
    (∀ text ∈ plan.texts, good text) ↔
      good plan.name ∧ good plan.method ∧ good plan.args ∧
        (((∀ text ∈ plan.receiver.texts, good text) ∧
          ∀ stub ∈ plan.stubs, ∀ text ∈ stub.texts, good text) ∧
          ∀ spy ∈ plan.spies, ∀ text ∈ spy.texts, good text) ∧
        ∀ text ∈ plan.table.texts, good text := by
  simp only [texts, List.forall_mem_cons, List.forall_mem_append, List.forall_mem_flatMap]

/-! ## Lines -/

namespace Text.Compositional

section Calls

variable (hgood : Compositional good) {receiver method args : String}
variable (hreceiver : good receiver) (hmethod : good method) (hargs : good args)

include hgood hreceiver hmethod hargs

theorem call : good (receiver ++ "." ++ method ++ "(" ++ args ++ ")") := by
  have hparts : receiver ++ "." ++ method ++ "(" ++ args ++ ")" =
      receiver ++ "." ++ method ++ ("(" ++ args ++ ")") := by
    simp only [String.append_assoc]
  rw [hparts]
  exact hgood.append (hgood.append (hgood.append hreceiver (hgood.neutral rfl)) hmethod)
    (hgood.parenthesized hargs)

theorem answeredCall {response : String} (hresponse : good response) :
    good (receiver ++ "." ++ method ++ "(" ++ args ++ ") >> " ++ response) := by
  have hparts : receiver ++ "." ++ method ++ "(" ++ args ++ ") >> " ++ response =
      receiver ++ "." ++ method ++ "(" ++ args ++ ")" ++ " >> " ++ response := by
    simp [← String.toList_inj]
  rw [hparts]
  exact hgood.append (hgood.append (hgood.call hreceiver hmethod hargs) (hgood.neutral rfl))
    hresponse

end Calls

theorem blockLabel
    (hgood : Compositional good) {block description : String} (hblock : good block)
    (h : good description) : good (blockLabel block description) := by
  rw [Specwright.blockLabel]
  split
  · exact hgood.append hblock (hgood.neutral rfl)
  · have hescaped : good (Text.replaceAll "\"" "\\\"" description) :=
      hgood.replaceAll (by decide) (hgood.neutral rfl) (hgood.neutral rfl) h
    have hopened := hgood.append hblock (hgood.neutral rfl : good ": \"")
    exact hgood.append (hgood.append hopened hescaped) (hgood.neutral rfl)

end Text.Compositional

theorem DoubleResponse.good_render
    (hgood : Text.Compositional good) {stub : DoubleResponse} (h : ∀ text ∈ stub.texts, good text) :
    good stub.render := by
  obtain ⟨hreceiver, hmethod, hmatchers, hresponse⟩ := forall_mem_texts.mp h
  exact hgood.answeredCall hreceiver hmethod hmatchers hresponse

theorem SpyResponse.good_render
    (hgood : Text.Compositional good) {naming : Naming} (hname : good naming.spyName)
    {spy : SpyResponse} (h : ∀ text ∈ spy.texts, good text) : good (spy.render naming) := by
  obtain ⟨hmethod, hmatchers, hresponse⟩ := forall_mem_texts.mp h
  have hnothing : good "\x7b\x7d" := hgood.braced hgood.empty
  refine hgood.answeredCall hname hmethod hmatchers ?_
  cases hvalue : spy.response with
  | none => exact hnothing
  | some text => exact hresponse text hvalue

namespace DataTable

variable {table : DataTable}

theorem good_cells
    (hgood : Text.Compositional good) {texts : List String} (h : ∀ text ∈ texts, good text) :
    good (cells texts) :=
  hgood.intercalate (hgood.neutral rfl) h

theorem good_render
    (hgood : Text.Compositional good) (h : ∀ text ∈ table.texts, good text) :
    ∀ line ∈ table.render, good line := by
  obtain ⟨hinputs, hexpected⟩ := forall_mem_texts.mp h
  have hnames : ∀ name ∈ table.inputs.map (·.name), good name :=
    List.forall_mem_map.mpr fun column hcolumn => (hinputs column hcolumn).1
  have hvalues : ∀ value ∈ table.inputs.map (·.value), good value :=
    List.forall_mem_map.mpr fun column hcolumn => (hinputs column hcolumn).2
  rw [DataTable.render]
  split
  next expected hsome =>
    obtain ⟨hname, hvalue⟩ := hexpected expected hsome
    split
    · rw [List.forall_mem_singleton]
      have hparts : expected.name ++ " << [" ++ expected.value ++ "]" =
          expected.name ++ " << " ++ ("[" ++ expected.value ++ "]") := by
        simp [← String.toList_inj]
      rw [hparts]
      exact hgood.append (hgood.append hname (hgood.neutral rfl)) (hgood.bracketed hvalue)
    · have hbar : good " || " := hgood.neutral rfl
      rw [List.forall_mem_cons, List.forall_mem_singleton]
      constructor
      · exact hgood.append (hgood.append (good_cells hgood hnames) hbar) hname
      · exact hgood.append (hgood.append (good_cells hgood hvalues) hbar) hvalue
  next =>
    split
    · have hpadded {texts : List String} (htexts : ∀ text ∈ texts, good text) :
          good (cells (texts ++ [paddingColumn])) :=
        good_cells hgood (List.forall_mem_append.mpr
          ⟨htexts, List.forall_mem_singleton.mpr (hgood.neutral rfl)⟩)
      rw [List.forall_mem_cons, List.forall_mem_singleton]
      exact ⟨hpadded hnames, hpadded hvalues⟩
    · rw [List.forall_mem_cons, List.forall_mem_singleton]
      exact ⟨good_cells hgood hnames, good_cells hgood hvalues⟩

end DataTable

namespace FeaturePlan

variable {naming : Naming} {labels : Labels} {plan : FeaturePlan}

section Lines

variable (hgood : Text.Compositional good) (hnaming : ∀ text ∈ naming.texts, good text)

include hgood hnaming

theorem good_spyDeclaration : good naming.spyDeclaration := by
  have hspy : good naming.spyName := hnaming _ (by simp [Naming.texts])
  have hsubject : good naming.subjectName := hnaming _ (by simp [Naming.texts])
  have hparts : naming.spyDeclaration =
      "def " ++ naming.spyName ++ " = Spy" ++ ("(" ++ naming.subjectName ++ ")") := by
    simp [Naming.spyDeclaration, ← String.toList_inj]
  rw [hparts]
  exact hgood.append (hgood.append (hgood.append (hgood.neutral rfl) hspy) (hgood.neutral rfl))
    (hgood.parenthesized hsubject)

theorem good_assertion (plan : FeaturePlan) : good (plan.assertion naming) := by
  have hresult : good naming.resultName := hnaming _ (by simp [Naming.texts])
  have hcolumn : good naming.expectedColumn := hnaming _ (by simp [Naming.texts])
  rw [assertion]
  split
  · exact hgood.append (hgood.append hresult (hgood.neutral rfl)) hcolumn
  · exact hgood.append (hgood.neutral rfl : good "noExceptionThrown")
      (hgood.parenthesized hgood.empty)

variable (h : ∀ text ∈ plan.texts, good text)

include h

theorem good_setupLines (hlabels : ∀ text ∈ labels.texts, good text) :
    ∀ line ∈ plan.setupLines naming labels, good line := by
  obtain ⟨-, -, -, ⟨⟨-, hstubs⟩, hspies⟩, -⟩ := forall_mem_texts.mp h
  have hspy : good naming.spyName := hnaming _ (by simp [Naming.texts])
  have hand : good "and" := hgood.neutral rfl
  rw [setupLines]
  split
  next =>
    rw [List.forall_mem_append, List.forall_mem_append, List.forall_mem_cons,
      List.forall_mem_singleton, List.forall_mem_map]
    refine ⟨⟨⟨?given, ?doubles⟩, ?stubs⟩, ?spies⟩
    case given => exact hgood.blockLabel (hgood.neutral rfl) (hlabels _ (by simp [Labels.texts]))
    case doubles => exact hgood.blockLabel hand (hlabels _ (by simp [Labels.texts]))
    case stubs => exact fun stub hstub => DoubleResponse.good_render hgood (hstubs stub hstub)
    case spies =>
      split
      · rw [List.forall_mem_append, List.forall_mem_cons, List.forall_mem_singleton,
          List.forall_mem_map]
        refine ⟨⟨?_, good_spyDeclaration hgood hnaming⟩, ?_⟩
        · exact hgood.blockLabel hand (hlabels _ (by simp [Labels.texts]))
        · exact fun spy hmem => SpyResponse.good_render hgood hspy (hspies spy hmem)
      · simp
  next => simp

omit hgood in
theorem good_receiverName : good (plan.receiverName naming) := by
  obtain ⟨-, -, -, ⟨⟨hreceiver, -⟩, -⟩, -⟩ := forall_mem_texts.mp h
  rw [receiverName]
  split
  next type hstatic =>
    rw [hstatic, Receiver.texts, List.forall_mem_singleton] at hreceiver
    exact hreceiver
  next => exact hnaming _ (by simp [Naming.texts])
  next => exact hnaming _ (by simp [Naming.texts])

theorem good_invocation : good (plan.invocation naming) := by
  have hreceiver := good_receiverName hnaming h
  have hresult : good naming.resultName := hnaming _ (by simp [Naming.texts])
  obtain ⟨-, hmethod, hargs, -⟩ := forall_mem_texts.mp h
  have hcall := hgood.call hreceiver hmethod hargs
  rw [invocation]
  split
  · have hdefined := hgood.append (hgood.neutral rfl : good "def ") hresult
    exact hgood.append (hgood.append hdefined (hgood.neutral rfl)) hcall
  · exact hcall

/-- The lines in the body of a feature method are composed of its texts and those of the
settings. -/
theorem good_bodyLines (hlabels : ∀ text ∈ labels.texts, good text) :
    ∀ line ∈ plan.bodyLines naming labels, good line := by
  rw [bodyLines, List.forall_mem_append, List.forall_mem_append, List.forall_mem_append,
    List.forall_mem_cons, List.forall_mem_singleton, List.forall_mem_cons,
    List.forall_mem_singleton]
  refine ⟨⟨⟨good_setupLines hgood hnaming h hlabels, ?call⟩, ?outcome⟩, ?table⟩
  case call => exact ⟨hgood.neutral rfl, good_invocation hgood hnaming h⟩
  case outcome =>
    refine ⟨?_, good_assertion hgood hnaming plan⟩
    exact hgood.blockLabel (hgood.neutral rfl) (hlabels _ (by simp [Labels.texts]))
  case table =>
    rw [tableLines]
    split
    · simp
    · have hlabel : good (blockLabel "where" labels.scenarios) :=
        hgood.blockLabel (hgood.neutral rfl) (hlabels _ (by simp [Labels.texts]))
      obtain ⟨-, -, -, -, htable⟩ := forall_mem_texts.mp h
      exact List.forall_mem_cons.mpr ⟨hlabel, DataTable.good_render hgood htable⟩

end Lines

end FeaturePlan

/-! ## Planning -/

theorem Matchers.good_argumentMatchers
    (hgood : Text.Compositional good) {tables : ExpressionTables}
    (h : ∀ text ∈ tables.texts, good text) (dialect : String) (params : List ParamModel) :
    good (argumentMatchers tables.matchers dialect params) := by
  refine hgood.intercalate (hgood.neutral rfl) ?_
  rw [List.forall_mem_map]
  intro param _
  cases hmatcher : matcher? tables.matchers dialect param.type.erasedName with
  | none => exact hgood.neutral rfl
  | some matcher => exact ExpressionTables.good_matcher h hmatcher

theorem DoublePolicy.mem_of_mem_stubbedCalls
    {policy : DoublePolicy} {subject : String} {method : MethodModel} {fields : List FieldModel}
    {target : StubbedCall} (h : target ∈ policy.stubbedCalls subject method fields) :
    target.field ∈ fields ∧ target.method ∈ target.field.type.methods := by
  obtain ⟨field, hfield, htarget⟩ := List.mem_flatMap.mp h
  obtain ⟨callee, hcallee, rfl⟩ := List.mem_map.mp htarget
  exact ⟨(List.mem_filter.mp hfield).1, (List.mem_filter.mp hcallee).1⟩

namespace Settings

variable {settings : Settings} {type : TypeModel} {method : MethodModel}

theorem good_responseLabel
    (hgood : Text.Compositional good) (hname : good method.name) :
    good (quotedLabel (responseLabel method)) :=
  hgood.quotedLabel (hgood.append hname (hgood.neutral rfl))

section Planning

variable (hgood : Text.LiteralProperty good) (htables : ∀ text ∈ settings.tables.texts, good text)

include hgood htables

theorem doubleResponse?_texts
    {target : StubbedCall} (hfield : good target.field.name)
    (hmethod : (ModelPart.method target.method).Throughout (ModelPart.TextsWithin good)) :
    (Contract.ofSuccess ShapeError).Ensures (settings.doubleResponse? target) fun stub =>
      ∀ response ∈ stub, ∀ text ∈ response.texts, good text := by
  have hname : good target.method.name := hmethod.here _ List.mem_cons_self
  rw [doubleResponse?]
  split
  next => exact Contract.ensures_pure _ (by simp)
  next type htype =>
    have hliteral := ExpressionTables.topLiteral_ensures
      (ExpressionTables.literalRules_of_texts hgood htables)
      (good_responseLabel hgood.toCompositional hname) (hmethod.of_has (.returnType htype))
    refine Contract.ensures_bind _ hliteral fun response hresponse => ?_
    refine Contract.ensures_pure _ ?_
    rintro stub ⟨⟩
    have hmatchers := Matchers.good_argumentMatchers hgood.toCompositional htables
      settings.matcherDialect target.method.params
    exact DoubleResponse.forall_mem_texts.mpr ⟨hfield, hname, hmatchers, hresponse⟩

theorem doubleResponses_texts
    (htype : (ModelPart.type type).Throughout (ModelPart.TextsWithin good))
    (method : MethodModel) :
    (Contract.ofSuccess ShapeError).Ensures (settings.doubleResponses type method) fun stubs =>
      ∀ stub ∈ stubs, ∀ text ∈ stub.texts, good text := by
  let targets := settings.doublePolicy.stubbedCalls type.erasedName method type.fields
  have hlines : ∀ target ∈ targets.filter (!·.field.inherited),
      (Contract.ofSuccess ShapeError).Ensures (settings.doubleResponse? target) fun stub =>
        ∀ response ∈ stub, ∀ text ∈ response.texts, good text := by
    intro target htarget
    obtain ⟨hfield, hcallee⟩ :=
      DoublePolicy.mem_of_mem_stubbedCalls (List.mem_filter.mp htarget).1
    have hwithin := htype.of_has (.field hfield)
    have hfieldType := hwithin.of_has (.fieldType target.field)
    exact doubleResponse?_texts hgood htables (hwithin.here _ List.mem_cons_self)
      (hfieldType.of_has (.method hcallee))
  refine Contract.ensures_bind _ (Contract.ensures_forall_mapM _ hlines) fun lines hlines => ?_
  refine Contract.ensures_pure _ ?_
  intro stub hstub
  obtain ⟨line, hline, heq⟩ := List.mem_filterMap.mp hstub
  exact hlines line hline stub heq

theorem spyResponse_texts
    {callee : MethodModel}
    (h : (ModelPart.method callee).Throughout (ModelPart.TextsWithin good)) :
    (Contract.ofSuccess ShapeError).Ensures (settings.spyResponse callee) fun spy =>
      ∀ text ∈ spy.texts, good text := by
  have hname : good callee.name := h.here _ List.mem_cons_self
  have hresult := ExpressionTables.resultLiteral?_ensures
    (ExpressionTables.literalRules_of_texts hgood htables)
    (good_responseLabel hgood.toCompositional hname) fun type htype =>
      h.of_has (.returnType htype)
  refine Contract.ensures_bind _ hresult fun response hresponse => ?_
  have hmatchers := Matchers.good_argumentMatchers hgood.toCompositional htables
    settings.matcherDialect callee.params
  apply Contract.ensures_pure
  exact SpyResponse.forall_mem_texts.mpr ⟨hname, hmatchers, hresponse⟩

/-- The texts of a feature come from the names of its method, the suffix and the column in the
settings, and literals. -/
theorem featurePlan_texts
    (hsuffix : good settings.naming.testNameSuffix) (hcolumn : good settings.naming.expectedColumn)
    (htype : (ModelPart.type type).Throughout (ModelPart.TextsWithin good))
    (hmethod : (ModelPart.method method).Throughout (ModelPart.TextsWithin good)) :
    (Contract.ofSuccess ShapeError).Ensures (settings.featurePlan type method) fun feature =>
      ∀ text ∈ feature.texts, good text := by
  have hname : good method.name := hmethod.here _ List.mem_cons_self
  have hspies : ∀ callee ∈ method.spiedCallees settings.spySelfCalls,
      (Contract.ofSuccess ShapeError).Ensures (settings.spyResponse callee) fun spy =>
        ∀ text ∈ spy.texts, good text := by
    intro callee hcallee
    have hsibling := (MethodModel.mem_spiedCallees_iff.mp hcallee).2.2.1
    have hcalled := (List.mem_filter.mp ((distinctBy_sublist _).subset hsibling)).1
    obtain ⟨call, hcall, rfl⟩ := List.mem_map.mp hcalled
    exact spyResponse_texts hgood htables (hmethod.of_has (.callee hcall))
  refine Contract.ensures_bind _
    (ExpressionTables.dataTable_texts hgood htables hcolumn hmethod) fun table htable => ?_
  refine Contract.ensures_bind _ (doubleResponses_texts hgood htables htype method) ?_
  intro stubs hstubs
  refine Contract.ensures_bind _ (Contract.ensures_forall_mapM _ hspies) fun spies hspies => ?_
  refine Contract.ensures_pure _ ?_
  have hreceiver : ∀ text ∈ (receiverOf type method !spies.isEmpty).texts, good text := by
    rw [receiverOf]
    split
    · rw [Receiver.texts, List.forall_mem_singleton]
      exact htype.here _ (by simp [ModelPart.texts, TypeModel.texts])
    · split
      · simp [Receiver.texts]
      · simp [Receiver.texts]
  have hargs : good table.invocationArgs := by
    apply hgood.intercalate (hgood.neutral rfl)
    rw [List.forall_mem_map]
    intro column hinput
    exact ((DataTable.forall_mem_texts.mp htable).1 column hinput).2
  exact FeaturePlan.forall_mem_texts.mpr
    ⟨hgood.append hname hsuffix, hname, hargs, ⟨⟨hreceiver, hstubs⟩, hspies⟩, htable⟩

end Planning

end Settings

/-- The texts of the features in a plan come from the settings and the model. -/
theorem TestPlan.texts_features_of_build
    {settings : Settings} {type : TypeModel} {selection : Selection} {plan : TestPlan}
    (hgood : Text.LiteralProperty good) (hsettings : ∀ text ∈ settings.texts, good text)
    (htype : (ModelPart.type type).Throughout (ModelPart.TextsWithin good))
    (h : build settings type selection = .ok plan) :
    ∀ feature ∈ plan.features, ∀ text ∈ feature.texts, good text := by
  rw [Settings.texts, List.forall_mem_append, List.forall_mem_append] at hsettings
  obtain ⟨⟨hnaming, -⟩, htables⟩ := hsettings
  obtain ⟨-, features, hfeatures, rfl⟩ := build_cases h
  have hplanned : ∀ method ∈ type.selectedMethods selection,
      (Contract.ofSuccess ShapeError).Ensures (settings.featurePlan type method) fun feature =>
        ∀ text ∈ feature.texts, good text := by
    intro method hmethod
    refine Settings.featurePlan_texts hgood htables (hnaming _ ?_) (hnaming _ ?_) htype
      (htype.of_has (.method (List.mem_filter.mp hmethod).1))
    · simp [Naming.texts]
    · simp [Naming.texts]
  exact Contract.ensures_forall_mapM _ hplanned features hfeatures

end Specwright
