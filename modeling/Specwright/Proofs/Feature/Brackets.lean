import Specwright.Proofs.Feature.Texts
import Specwright.Proofs.Literal.Brackets

/-!
# Brackets in plans

A plan from a model and settings in which all texts are balanced has balanced texts only, and so has
each line that is written for it: a line adds only pairs of brackets.
-/

namespace Specwright

/-! ## Settings -/

/-- Whether all names in a generated class are balanced. -/
structure Naming.WellBracketed (naming : Naming) : Prop where
  superclass : Text.Balanced naming.superclass
  targetSuffix : Text.Balanced naming.targetSuffix
  subjectName : Text.Balanced naming.subjectName
  fixtureName : Text.Balanced naming.fixtureName
  testNameSuffix : Text.Balanced naming.testNameSuffix
  unrollMarker : Text.Balanced naming.unrollMarker
  spyName : Text.Balanced naming.spyName
  resultName : Text.Balanced naming.resultName
  expectedColumn : Text.Balanced naming.expectedColumn

/-- Whether all labels are balanced. -/
structure Labels.WellBracketed (labels : Labels) : Prop where
  given : Text.Balanced labels.given
  stubs : Text.Balanced labels.stubs
  spies : Text.Balanced labels.spies
  outcome : Text.Balanced labels.outcome
  scenarios : Text.Balanced labels.scenarios

/-- Whether all texts in the settings that are written are balanced. -/
structure Settings.WellBracketed (settings : Settings) : Prop where
  naming : settings.naming.WellBracketed
  labels : settings.labels.WellBracketed
  factories : ∀ rule ∈ settings.doublePolicy.factories, Text.Balanced rule.factory
  tables : settings.tables.WellBracketed

theorem ContainerShapes.balanced_standard :
    ∀ entry ∈ standard.entries, Text.Balanced entry.shape := by
  decide +kernel

namespace Settings

theorem wellBracketed_standardTables : standard.tables.WellBracketed where
  shapes := ContainerShapes.balanced_standard
  nestedShapes := ContainerShapes.balanced_standard
  defaults := SortedMap.forall_mem_ofList (by decide +kernel)
  matchers := SortedMap.forall_mem_ofList (by decide +kernel)

theorem wellBracketed_standard : standard.WellBracketed where
  naming := by constructor <;> decide
  labels := by constructor <;> decide
  factories := by decide +kernel
  tables := wellBracketed_standardTables

end Settings

/-! ## Plans -/

/-- Whether the texts of a field with a double are balanced. -/
structure DoublePlan.WellBracketed (plan : DoublePlan) : Prop where
  name : Text.Balanced plan.name
  type : Text.Balanced plan.type
  factory {expression : String} : plan.double = .factory expression → Text.Balanced expression

/-- Whether the texts of a response of a double are balanced. -/
structure DoubleResponse.WellBracketed (stub : DoubleResponse) : Prop where
  receiver : Text.Balanced stub.receiver
  method : Text.Balanced stub.method
  matchers : Text.Balanced stub.matchers
  response : Text.Balanced stub.response

/-- Whether the texts of a response of the spy are balanced. -/
structure SpyResponse.WellBracketed (spy : SpyResponse) : Prop where
  method : Text.Balanced spy.method
  matchers : Text.Balanced spy.matchers
  response : ∀ text ∈ spy.response, Text.Balanced text

/-- Whether all texts of a feature method are balanced. -/
structure FeaturePlan.WellBracketed (plan : FeaturePlan) : Prop where
  name : Text.Balanced plan.name
  method : Text.Balanced plan.method
  stubs : ∀ stub ∈ plan.stubs, stub.WellBracketed
  spies : ∀ spy ∈ plan.spies, spy.WellBracketed
  receiver {type : String} : plan.receiver = .static type → Text.Balanced type
  args : Text.Balanced plan.args
  table : plan.table.WellBracketed

/-- Whether all texts in a plan are balanced. -/
structure TestPlan.WellBracketed (plan : TestPlan) : Prop where
  superclass : Text.Balanced plan.superclass
  subjectName : Text.Balanced plan.subject.name
  subjectType : Text.Balanced plan.subject.type
  doubles : ∀ double ∈ plan.doubles, double.WellBracketed
  features : ∀ feature ∈ plan.features, feature.WellBracketed

/-! ## Texts -/

theorem Naming.WellBracketed.texts {naming : Naming} (h : naming.WellBracketed) :
    ∀ text ∈ naming.texts, Text.Balanced text := by
  simp [Naming.texts, h.superclass, h.targetSuffix, h.subjectName, h.fixtureName,
    h.testNameSuffix, h.unrollMarker, h.spyName, h.resultName, h.expectedColumn]

theorem Labels.WellBracketed.texts {labels : Labels} (h : labels.WellBracketed) :
    ∀ text ∈ labels.texts, Text.Balanced text := by
  simp [Labels.texts, h.given, h.stubs, h.spies, h.outcome, h.scenarios]

theorem Settings.WellBracketed.texts {settings : Settings} (h : settings.WellBracketed) :
    ∀ text ∈ settings.texts, Text.Balanced text := by
  rw [Settings.texts, List.forall_mem_append, List.forall_mem_append]
  exact ⟨⟨h.naming.texts, h.labels.texts⟩, h.tables.texts⟩

theorem DoubleResponse.wellBracketed_iff {stub : DoubleResponse} :
    stub.WellBracketed ↔ ∀ text ∈ stub.texts, Text.Balanced text := by
  rw [forall_mem_texts]
  constructor
  · intro h
    exact ⟨h.receiver, h.method, h.matchers, h.response⟩
  · rintro ⟨hreceiver, hmethod, hmatchers, hresponse⟩
    exact ⟨hreceiver, hmethod, hmatchers, hresponse⟩

theorem SpyResponse.wellBracketed_iff {spy : SpyResponse} :
    spy.WellBracketed ↔ ∀ text ∈ spy.texts, Text.Balanced text := by
  rw [forall_mem_texts]
  constructor
  · intro h
    exact ⟨h.method, h.matchers, h.response⟩
  · rintro ⟨hmethod, hmatchers, hresponse⟩
    exact ⟨hmethod, hmatchers, hresponse⟩

theorem FeaturePlan.wellBracketed_iff {plan : FeaturePlan} :
    plan.WellBracketed ↔ ∀ text ∈ plan.texts, Text.Balanced text := by
  simp only [forall_mem_texts, ← DoubleResponse.wellBracketed_iff,
    ← SpyResponse.wellBracketed_iff, ← DataTable.wellBracketed_iff]
  constructor
  · intro h
    refine ⟨h.name, h.method, h.args, ⟨⟨?_, h.stubs⟩, h.spies⟩, h.table⟩
    cases hreceiver : plan.receiver with
    | static type => exact List.forall_mem_singleton.mpr (h.receiver hreceiver)
    | spy => simp [Receiver.texts]
    | subject => simp [Receiver.texts]
  · rintro ⟨hname, hmethod, hargs, ⟨⟨hreceiver, hstubs⟩, hspies⟩, htable⟩
    have hstatic {type : String} (h : plan.receiver = .static type) : Text.Balanced type :=
      hreceiver type (by simp [h, Receiver.texts])
    exact ⟨hname, hmethod, hstubs, hspies, hstatic, hargs, htable⟩

/-! ## Lines -/

theorem SubjectPlan.balanced_render
    {subject : SubjectPlan} (hname : Text.Balanced subject.name)
    (htype : Text.Balanced subject.type) :
    Text.Balanced subject.render := by
  simp only [Text.balanced_iff, render, Text.awaitedBehind_text_append, hname.read, htype.read]
  rfl

theorem DoublePlan.WellBracketed.balanced_render {plan : DoublePlan} (h : plan.WellBracketed) :
    Text.Balanced plan.render := by
  rw [DoublePlan.render]
  split
  next =>
    simp only [Text.balanced_iff, Text.awaitedBehind_text_append, h.name.read, h.type.read]
    rfl
  next expression hfactory =>
    have hexpression := h.factory hfactory
    simp only [Text.balanced_iff, Text.awaitedBehind_text_append, h.name.read, hexpression.read]
    rfl

theorem Naming.WellBracketed.balanced_assignment
    {naming : Naming} (h : naming.WellBracketed) {double : String}
    (hdouble : Text.Balanced double) :
    Text.Balanced (naming.assignment double) := by
  simp only [Text.balanced_iff, assignment, Text.awaitedBehind_text_append, h.subjectName.read,
    hdouble.read]
  rfl

/-- All lines in the body of a feature method are balanced. -/
theorem FeaturePlan.balanced_bodyLines
    {naming : Naming} {labels : Labels} {plan : FeaturePlan} (hnaming : naming.WellBracketed)
    (h : plan.WellBracketed) (hlabels : labels.WellBracketed) :
    ∀ line ∈ plan.bodyLines naming labels, Text.Balanced line :=
  good_bodyLines Text.compositional_balanced hnaming.texts (wellBracketed_iff.mp h) hlabels.texts

/-! ## Planning -/

theorem DoublePolicy.balanced_of_factory?
    {policy : DoublePolicy} {type : TypeModel} {expression : String}
    (hfactories : ∀ rule ∈ policy.factories, Text.Balanced rule.factory)
    (htype : Text.Balanced type.erasedName) (h : policy.factory? type = some expression) :
    Text.Balanced expression := by
  obtain ⟨rule, hrule, rfl⟩ := Option.map_eq_some_iff.mp h
  exact (hfactories rule (List.mem_of_find?_eq_some hrule)).replaceAll (by decide)
    (Text.balanced_of_plain rfl) htype

namespace Settings

variable {settings : Settings} {type : TypeModel}

theorem doublePlans_bracketed
    (hsettings : settings.WellBracketed) (htype : (ModelPart.type type).Bracketed) :
    ∀ double ∈ settings.doublePlans type, double.WellBracketed := by
  intro double hdouble
  obtain ⟨field, hfield, hplan⟩ := List.mem_filterMap.mp hdouble
  obtain ⟨kind, hkind, rfl⟩ := Option.map_eq_some_iff.mp hplan
  have hbracketed : (ModelPart.field field).Bracketed :=
    htype.of_has (.field (List.mem_filter.mp hfield).1)
  have hname : Text.Balanced field.type.erasedName :=
    (hbracketed.of_has (.fieldType field)).here.erasedName
  refine ⟨hbracketed.here, hname, ?_⟩
  rintro expression rfl
  rw [DoublePolicy.doubleOf?] at hkind
  split at hkind
  · split at hkind
    next found hfound =>
      cases hkind
      exact DoublePolicy.balanced_of_factory? hsettings.factories hname hfound
    next => cases hkind
  · cases hkind

end Settings

/-- A plan that is made from a model and settings with balanced texts has balanced texts. -/
theorem TestPlan.wellBracketed_of_build
    {settings : Settings} (hsettings : settings.WellBracketed) {type : TypeModel}
    (htype : (ModelPart.type type).Bracketed) {selection : Selection} {plan : TestPlan}
    (h : build settings type selection = .ok plan) :
    plan.WellBracketed := by
  have hfeatures := texts_features_of_build Text.literalProperty_balanced hsettings.texts
    (ModelPart.bracketed_iff.mp htype) h
  obtain ⟨-, features, -, rfl⟩ := build_cases h
  constructor
  · exact hsettings.naming.superclass
  · exact hsettings.naming.subjectName
  · exact htype.here.erasedName
  · exact Settings.doublePlans_bracketed hsettings htype
  · exact fun feature hfeature => FeaturePlan.wellBracketed_iff.mpr (hfeatures feature hfeature)

end Specwright
