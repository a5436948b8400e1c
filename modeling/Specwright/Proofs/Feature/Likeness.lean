import Specwright.Feature.TestPlan
import Specwright.Proofs.Model.Alike

/-!
# Alike classes have one plan

What a plan reads of the class under test is the same for two models of it that are alike, so the
plans are the same, or the errors that stand in their place.
-/

namespace Specwright

open TypeModel (Alike AlikeInMethods)

/-! ## Types -/

namespace TypeModel.Alike

variable {type other : TypeModel}

theorem erasedName_eq (h : type.Alike other) : type.erasedName = other.erasedName :=
  congrArg TypeNames.erasedName h.names

theorem isVoid_eq (h : type.Alike other) : type.isVoid = other.isVoid := by
  rw [isVoid, isVoid, h.names]

theorem isArray_eq (h : type.Alike other) : type.isArray = other.isArray := by
  rw [isArray, isArray, h.erasedName_eq]

theorem isPrimitive_eq (h : type.Alike other) : type.isPrimitive = other.isPrimitive := by
  rw [isPrimitive, isPrimitive, h.names, h.element, h.isArray_eq]

theorem isTypeParameter_eq (h : type.Alike other) :
    type.isTypeParameter = other.isTypeParameter := by
  rw [isTypeParameter, isTypeParameter, h.names, h.isArray_eq]

end TypeModel.Alike

/-! ## Literals and matchers -/

namespace MethodModel.AlikeBy

variable {method other : MethodModel} {tables : ExpressionTables}

theorem givesValue_eq (h : method.AlikeBy Alike other) : method.givesValue = other.givesValue := by
  have hreturn := h.returnType
  rw [givesValue, givesValue]
  generalize method.returnType = returnType at hreturn ⊢
  generalize other.returnType = returnType' at hreturn ⊢
  cases hreturn with
  | none => rfl
  | some htype => rw [Option.any_some, Option.any_some, htype.isVoid_eq]

theorem resultLiteral?_eq (h : method.AlikeBy Alike other) (label : String) :
    tables.resultLiteral? label method = tables.resultLiteral? label other := by
  have hreturn := h.returnType
  rw [ExpressionTables.resultLiteral?, ExpressionTables.resultLiteral?, h.givesValue_eq]
  generalize method.returnType = returnType at hreturn ⊢
  generalize other.returnType = returnType' at hreturn ⊢
  cases hreturn with
  | none => rfl
  | some htype => simp only [ExpressionTables.topLiteral, htype.literal]

theorem dataTable_eq (h : method.AlikeBy Alike other) (column : String) :
    tables.dataTable column method = tables.dataTable column other := by
  have hinputs : method.params.mapM tables.inputColumn = other.params.mapM tables.inputColumn := by
    refine mapM_eq_of_forall₂ h.params fun param param' hparam => ?_
    rw [ExpressionTables.inputColumn, ExpressionTables.inputColumn, ExpressionTables.topLiteral,
      ExpressionTables.topLiteral, hparam.name, hparam.type.literal]
  rw [ExpressionTables.dataTable, ExpressionTables.dataTable, hinputs, h.resultLiteral?_eq]

theorem matchersFor_eq (h : method.AlikeBy Alike other) (settings : Settings) :
    settings.matchersFor method = settings.matchersFor other := by
  rw [Settings.matchersFor, Settings.matchersFor, Matchers.argumentMatchers,
    Matchers.argumentMatchers]
  refine congrArg _ (map_eq_of_forall₂ h.params fun param param' hparam => ?_)
  rw [hparam.type.erasedName_eq]

theorem spyResponse_eq (h : method.AlikeBy Alike other) (settings : Settings) :
    settings.spyResponse method = settings.spyResponse other := by
  rw [Settings.spyResponse, Settings.spyResponse, Settings.responseLabel, Settings.responseLabel,
    h.name, h.resultLiteral?_eq, h.matchersFor_eq]

theorem isTested_eq {related : TypeModel → TypeModel → Prop} (h : method.AlikeBy related other) :
    method.isTested = other.isTested := by
  rw [isTested, isTested, h.traits, h.owner]

end MethodModel.AlikeBy

/-! ## Calls -/

namespace MethodModel.AlikeWithCalls

variable {method other : MethodModel}

theorem callsTo_eq
    {callee callee' : MethodModel} (h : method.AlikeWithCalls other)
    (hid : callee.id = callee'.id) :
    method.callsTo callee = other.callsTo callee' := by
  refine any_eq_of_forall₂ h.calls fun call call' hcall => ?_
  rw [hcall.callee.id, hid]

/-- The same callees are answered for by the spy. -/
theorem forall₂_spiedCallees (h : method.AlikeWithCalls other) (spySelfCalls : Bool) :
    List.Forall₂ (MethodModel.AlikeBy Alike) (method.spiedCallees spySelfCalls)
      (other.spiedCallees spySelfCalls) := by
  have hcallees : List.Forall₂ (MethodModel.AlikeBy Alike)
      (method.spyCalls.map (·.callee)) (other.spyCalls.map (·.callee)) := by
    rw [List.forall₂_map_left_iff, List.forall₂_map_right_iff]
    exact h.calls.imp fun call call' hcall => hcall.callee
  have hsiblings : List.Forall₂ (MethodModel.AlikeBy Alike) method.siblingCallees
      other.siblingCallees := by
    refine forall₂_distinctBy (fun _ _ hcallee => hcallee.id) (forall₂_filter ?_ hcallees)
    intro callee callee' hcallee
    rw [hcallee.owner, h.owner]
  rw [spiedCallees, spiedCallees, h.traits]
  split
  · exact .nil
  · refine forall₂_filter (fun callee callee' hcallee => ?_) hsiblings
    rw [canBeSpiedIn, canBeSpiedIn, hcallee.id, hcallee.traits, h.id]

end MethodModel.AlikeWithCalls

/-! ## Doubles -/

namespace FieldModel.AlikeBy

variable {policy : DoublePolicy} {subject : String} {field other : FieldModel}

theorem canReplace_eq (h : field.AlikeBy AlikeInMethods other) :
    policy.canReplace subject field = policy.canReplace subject other := by
  have htype := h.type.toAlike
  simp only [DoublePolicy.canReplace, htype.isPrimitive_eq, htype.isVoid_eq,
    htype.isTypeParameter_eq, htype.erasedName_eq, htype.isArray_eq, htype.facts, h.isStatic,
    h.isFinal]

theorem factory?_eq (h : field.AlikeBy AlikeInMethods other) :
    policy.factory? field.type = policy.factory? other.type := by
  have htype := h.type.toAlike
  simp only [DoublePolicy.factory?, TypeModel.isAnnotated, htype.facts, htype.erasedName_eq]

theorem isMocked_eq (h : field.AlikeBy AlikeInMethods other) :
    policy.isMocked subject field = policy.isMocked subject other := by
  rw [DoublePolicy.isMocked, DoublePolicy.isMocked, h.canReplace_eq, h.factory?_eq]

theorem doubleOf?_eq (h : field.AlikeBy AlikeInMethods other) :
    policy.doubleOf? subject field = policy.doubleOf? subject other := by
  rw [DoublePolicy.doubleOf?, DoublePolicy.doubleOf?, h.canReplace_eq, h.factory?_eq]

end FieldModel.AlikeBy

/-- Whether two calls of mocks are alike. -/
structure StubbedCall.AlikeCall (target other : StubbedCall) : Prop where
  field : target.field.AlikeBy AlikeInMethods other.field
  method : target.method.AlikeBy Alike other.method

theorem StubbedCall.AlikeCall.doubleResponse?_eq
    {target other : StubbedCall} (h : target.AlikeCall other) (settings : Settings) :
    settings.doubleResponse? target = settings.doubleResponse? other := by
  have hreturn := h.method.returnType
  rw [Settings.doubleResponse?, Settings.doubleResponse?, Settings.responseLabel,
    Settings.responseLabel, h.method.name, h.method.matchersFor_eq, h.field.name]
  generalize target.method.returnType = returnType at hreturn ⊢
  generalize other.method.returnType = returnType' at hreturn ⊢
  cases hreturn with
  | none => rfl
  | some htype => simp only [ExpressionTables.topLiteral, htype.literal]

/-- Alike methods call the same mocks. -/
theorem MethodModel.AlikeWithCalls.forall₂_stubbedCalls
    {policy : DoublePolicy} {subject : String} {method other : MethodModel}
    {fields fields' : List FieldModel} (h : method.AlikeWithCalls other)
    (hfields : List.Forall₂ (FieldModel.AlikeBy AlikeInMethods) fields fields') :
    List.Forall₂ StubbedCall.AlikeCall (policy.stubbedCalls subject method fields)
      (policy.stubbedCalls subject other fields') := by
  have hmocked : List.Forall₂ (FieldModel.AlikeBy AlikeInMethods)
      (fields.filter (policy.isMocked subject)) (fields'.filter (policy.isMocked subject)) :=
    forall₂_filter (fun field field' hfield => hfield.isMocked_eq) hfields
  refine List.rel_flatMap hmocked ?_
  intro field field' hfield
  have hcallees : List.Forall₂ (MethodModel.AlikeBy Alike)
      (field.type.methods.filter fun callee => callee.givesValue && method.callsTo callee)
      (field'.type.methods.filter fun callee => callee.givesValue && other.callsTo callee) := by
    refine forall₂_filter (fun callee callee' hcallee => ?_) hfield.type.methods
    rw [hcallee.givesValue_eq, h.callsTo_eq hcallee.id]
  rw [List.forall₂_map_left_iff, List.forall₂_map_right_iff]
  exact hcallees.imp fun callee callee' hcallee => ⟨hfield, hcallee⟩

/-! ## Plans -/

namespace TypeModel.AlikeAsSubject

variable {type other : TypeModel} {settings : Settings}

theorem doubleResponses_eq
    {method method' : MethodModel} (h : type.AlikeAsSubject other)
    (hmethod : method.AlikeWithCalls method') :
    settings.doubleResponses type method = settings.doubleResponses other method' := by
  have htargets : List.Forall₂ StubbedCall.AlikeCall
      (settings.doublePolicy.stubbedCalls type.erasedName method type.fields)
      (settings.doublePolicy.stubbedCalls other.erasedName method' other.fields) := by
    rw [h.erasedName]
    exact hmethod.forall₂_stubbedCalls h.fields
  have hkept (target target' : StubbedCall) (htarget : target.AlikeCall target') :
      (!target.field.inherited) = !target'.field.inherited := by
    rw [htarget.field.inherited]
  have hown := forall₂_filter hkept htargets
  have hlines := mapM_eq_of_forall₂ hown fun target target' htarget =>
    htarget.doubleResponse?_eq settings
  rw [Settings.doubleResponses, Settings.doubleResponses, hlines]

theorem featurePlan_eq
    {method method' : MethodModel} (h : type.AlikeAsSubject other)
    (hmethod : method.AlikeWithCalls method') :
    settings.featurePlan type method = settings.featurePlan other method' := by
  have hspies := mapM_eq_of_forall₂ (hmethod.forall₂_spiedCallees settings.spySelfCalls)
    fun callee callee' hcallee => hcallee.spyResponse_eq settings
  simp only [Settings.featurePlan, Settings.receiverOf, hmethod.dataTable_eq,
    h.doubleResponses_eq hmethod, hspies, hmethod.name, hmethod.traits, h.erasedName,
    hmethod.givesValue_eq]

theorem doublePlans_eq (h : type.AlikeAsSubject other) :
    settings.doublePlans type = settings.doublePlans other := by
  have hkept (field field' : FieldModel) (hfield : field.AlikeBy AlikeInMethods field') :
      (!field.inherited) = !field'.inherited := by
    rw [hfield.inherited]
  have hown := forall₂_filter hkept h.fields
  rw [Settings.doublePlans, Settings.doublePlans, h.erasedName]
  refine filterMap_eq_of_forall₂ hown fun field field' hfield => ?_
  rw [hfield.doubleOf?_eq, hfield.name, hfield.type.erasedName_eq]

theorem forall₂_selectedMethods (h : type.AlikeAsSubject other) (selection : Selection) :
    List.Forall₂ MethodModel.AlikeWithCalls (type.selectedMethods selection)
      (other.selectedMethods selection) := by
  refine forall₂_filter (fun method method' hmethod => ?_) h.methods
  rw [hmethod.name, hmethod.traits]

/-- The plan for a class under test, or the error in its place, is the same for all models of the
class that are alike. -/
theorem build_eq (h : type.AlikeAsSubject other) (selection : Selection) :
    TestPlan.build settings type selection = TestPlan.build settings other selection := by
  have hselected := h.forall₂_selectedMethods selection
  have hfails (method method' : MethodModel) (hmethod : method.AlikeWithCalls method') :
      (!method.isTested) = !method'.isTested := by
    rw [hmethod.isTested_eq]
  have huntested := rel_find?_of_forall₂ hselected hfails
  have hfeatures : (type.selectedMethods selection).mapM (settings.featurePlan type) =
      (other.selectedMethods selection).mapM (settings.featurePlan other) :=
    mapM_eq_of_forall₂ hselected fun method method' hmethod => h.featurePlan_eq hmethod
  simp only [TestPlan.build, hfeatures, h.doublePlans_eq, h.erasedName]
  generalize (type.selectedMethods selection).find? _ = first at huntested ⊢
  generalize (other.selectedMethods selection).find? _ = first' at huntested ⊢
  -- Of both models the same method is the first that cannot be tested, or none is.
  cases huntested with
  | none => rfl
  | some hmethod => simp only [hmethod.name]

end TypeModel.AlikeAsSubject

end Specwright
