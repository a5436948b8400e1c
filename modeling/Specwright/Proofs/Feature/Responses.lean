import Specwright.Proofs.Feature.Collaborators
import Specwright.Proofs.Target.Regeneration

/-!
# Responses of mocks in a plan

The responses that a plan has for a tested method are those to the calls of collaborators that the
method makes, one for each and in their order, and every field that is called on has a mock among
the doubles.  The class under test has to be expanded to two levels for this, so that the types of
its fields are looked into.
-/

namespace Specwright

/-! ## Responses to the calls that are stubbed -/

namespace DoublePolicy

variable {policy : DoublePolicy} {subject : String} {method : MethodModel}

theorem stubbedCalls_cons (field : FieldModel) (rest : List FieldModel) :
    policy.stubbedCalls subject method (field :: rest) =
      (if policy.isMocked subject field then
        (field.type.methods.filter fun callee => callee.givesValue && method.callsTo callee).map
          fun callee => ⟨field, callee⟩
      else []) ++ policy.stubbedCalls subject method rest := by
  rw [stubbedCalls, List.filter_cons]
  split <;> rfl

/-- Calls on own fields are the calls that are found when only those are looked at. -/
theorem filter_own_stubbedCalls (fields : List FieldModel) :
    (policy.stubbedCalls subject method fields).filter (fun target => !target.field.inherited) =
      policy.stubbedCalls subject method (fields.filter fun field => !field.inherited) := by
  induction fields with
  | nil => rfl
  | cons field rest ih =>
      rw [stubbedCalls_cons, List.filter_append, ih]
      cases hinherited : field.inherited with
      | true =>
          rw [List.filter_cons_of_neg (by simp [hinherited]), List.filter_eq_nil_iff.mpr,
            List.nil_append]
          intro target htarget
          split at htarget
          · obtain ⟨callee, -, rfl⟩ := List.mem_map.mp htarget
            simp [hinherited]
          · cases htarget
      | false =>
          rw [List.filter_cons_of_pos (by simp [hinherited]), stubbedCalls_cons,
            List.filter_eq_self.mpr]
          intro target htarget
          split at htarget
          · obtain ⟨callee, -, rfl⟩ := List.mem_map.mp htarget
            simp [hinherited]
          · cases htarget

theorem givesValue_of_mem_stubbedCalls
    {fields : List FieldModel} {target : StubbedCall}
    (h : target ∈ policy.stubbedCalls subject method fields) :
    target.method.givesValue = true := by
  obtain ⟨field, -, htarget⟩ := List.mem_flatMap.mp h
  obtain ⟨callee, hcallee, rfl⟩ := List.mem_map.mp htarget
  have hcalled := (List.mem_filter.mp hcallee).2
  exact (Bool.and_eq_true_iff.mp hcalled).1

end DoublePolicy

/-- Whether a response is one to a call that is stubbed. -/
structure StubbedCall.AnsweredBy
    (settings : Settings) (target : StubbedCall) (stub : DoubleResponse) : Prop where
  receiver : stub.receiver = target.field.name
  method : stub.method = target.method.name
  matchers : stub.matchers = settings.matchersFor target.method

namespace Settings

variable {settings : Settings}

theorem doubleResponse?_answers
    {target : StubbedCall} {line : Option DoubleResponse}
    (hvalue : target.method.givesValue = true) (h : settings.doubleResponse? target = .ok line) :
    Option.Rel (StubbedCall.AnsweredBy settings) (some target) line := by
  rw [doubleResponse?] at h
  cases hreturn : target.method.returnType with
  | none =>
      rw [MethodModel.givesValue, hreturn] at hvalue
      cases hvalue
  | some type =>
      rw [hreturn] at h
      obtain ⟨response, -, h⟩ := Contract.exists_of_bind_eq_ok h
      cases h
      exact .some ⟨rfl, rfl, rfl⟩

/-- The responses for a method are those to the calls on own fields, one for each. -/
theorem forall₂_doubleResponses
    {type : TypeModel} {method : MethodModel} {stubs : List DoubleResponse}
    (h : settings.doubleResponses type method = .ok stubs) :
    List.Forall₂ (StubbedCall.AnsweredBy settings)
      (settings.doublePolicy.stubbedCalls type.erasedName method
        (type.fields.filter fun field => !field.inherited))
      stubs := by
  rw [doubleResponses] at h
  obtain ⟨lines, hlines, h⟩ := Contract.exists_of_bind_eq_ok h
  cases h
  rw [DoublePolicy.filter_own_stubbedCalls] at hlines
  set targets := settings.doublePolicy.stubbedCalls type.erasedName method
    (type.fields.filter fun field => !field.inherited) with htargets
  have hanswers : ∀ target ∈ targets,
      (Contract.ofSuccess ShapeError).Ensures (settings.doubleResponse? target)
        (Option.Rel (StubbedCall.AnsweredBy settings) (some target)) := by
    intro target htarget line hline
    exact doubleResponse?_answers (DoublePolicy.givesValue_of_mem_stubbedCalls htarget) hline
  have hrelated := Contract.ensures_mapM _ hanswers lines hlines
  -- Each call has a response, so no call is lost where lines without one are dropped.
  have hkept : List.Forall₂ (StubbedCall.AnsweredBy settings) (targets.filterMap some)
      (lines.filterMap id) := by
    refine List.rel_filterMap ?_ hrelated
    intro target line hline
    exact hline
  rwa [List.filterMap_some] at hkept

theorem matchersFor_eq
    {method : MethodModel} :
    settings.matchersFor method =
      ", ".intercalate (method.face.paramTypes.map fun names =>
        (settings.tables.matchers.matcher? settings.matcherDialect names.erasedName).getD
          Matchers.fallback) := by
  rw [matchersFor, Matchers.argumentMatchers, MethodModel.face, List.map_map]
  rfl

end Settings

/-! ## Responses to calls of collaborators -/

namespace CollaboratorCall

/-- Whether a response is one to a call of a collaborator. -/
structure AnsweredBy
    (scope : Scope) (settings : Settings) (call : CollaboratorCall) (stub : DoubleResponse) :
    Prop where
  receiver : stub.receiver = call.field.name
  method : stub.method = call.callee.method.name
  matchers : stub.matchers = call.matchers scope settings

/-- Whether a call that is stubbed is a call of a collaborator, so far as its names tell. -/
def ShownBy (scope : Scope) (call : CollaboratorCall) (target : StubbedCall) : Prop :=
  target.field.name = call.field.name ∧ target.method.face = call.face scope

variable {scope : Scope} {settings : Settings} {call : CollaboratorCall} {target : StubbedCall}

theorem matchers_eq
    (h : call.ShownBy scope target) :
    settings.matchersFor target.method = call.matchers scope settings := by
  rw [Settings.matchersFor_eq, h.2, face, Scope.faceOf, List.map_map]
  rfl

theorem answeredBy_of_shownBy
    {stub : DoubleResponse}
    (h : call.ShownBy scope target) (hstub : target.AnsweredBy settings stub) :
    call.AnsweredBy scope settings stub where
  receiver := hstub.receiver.trans h.1
  method := hstub.method.trans (congrArg MethodFace.name h.2)
  matchers := hstub.matchers.trans (matchers_eq h)

end CollaboratorCall

namespace Scope

variable {scope : Scope} {method : MethodDecl} {model : MethodModel} {fields : List FieldModel}

/-- The calls that are stubbed are the calls of collaborators, one by one. -/
theorem forall₂_stubbedCalls
    (policy : DoublePolicy)
    (hnames : ∀ field ∈ scope.subject.fields, TypeRef.Unmarked field.type.name)
    (hfields : List.Forall₂
      (fun field => FieldModel.Outlines scope (some scope.subject) ⟨scope.subject, field⟩)
      scope.subject.fields fields)
    (hcalls : ∀ callee calleeModel, MethodModel.id calleeModel = Declaration.id callee →
      model.callsTo calleeModel = scope.calls method callee) :
    List.Forall₂ (CollaboratorCall.ShownBy scope) (scope.collaboratorCalls policy method)
      (policy.stubbedCalls scope.subject.name model fields) := by
  have hmocked : ∀ field fieldModel,
      (TypeRef.Unmarked field.type.name ∧
        FieldModel.Outlines scope (some scope.subject) ⟨scope.subject, field⟩ fieldModel) →
      policy.mocks scope.snapshot scope.subject.name field =
        policy.isMocked scope.subject.name fieldModel := by
    rintro field _ ⟨hname, type, htype, rfl⟩
    exact (DoublePolicy.isMocked_eq_mocks htype hname).symm
  have hboth := (List.forall₂_and_left _ _).mpr ⟨hnames, hfields⟩
  refine List.rel_flatMap (forall₂_filter hmocked hboth) ?_
  rintro field _ ⟨-, type, htype, rfl⟩
  -- The methods of the field in the model are those listed for its type, by their faces.
  have hlisted : List.Forall₂
      (fun callee calleeModel =>
        MethodModel.face calleeModel = (CollaboratorCall.mk field callee).face scope)
      (scope.snapshot.methodsOf field.type) type.methods := by
    have hfaces : List.Forall₂ Eq
        ((scope.snapshot.methodsOf field.type).map
          (scope.faceOf (scope.snapshot.classOf? field.type)))
        (type.methods.map (·.face)) := by
      rw [List.forall₂_eq_eq_eq]
      exact htype.faces.symm
    rw [List.forall₂_map_left_iff, List.forall₂_map_right_iff] at hfaces
    exact hfaces.imp fun _ _ heq => heq.symm
  have hcalled : ∀ callee calleeModel,
      MethodModel.face calleeModel = (CollaboratorCall.mk field callee).face scope →
        ((CollaboratorCall.mk field callee).givesValue scope && scope.calls method callee) =
          (calleeModel.givesValue && model.callsTo calleeModel) := by
    intro callee calleeModel hface
    rw [← MethodModel.givesValue_face, hface, CollaboratorCall.givesValue_face,
      hcalls callee calleeModel (congrArg MethodFace.id hface)]
  rw [List.forall₂_map_left_iff, List.forall₂_map_right_iff]
  refine (forall₂_filter hcalled hlisted).imp ?_
  intro callee calleeModel hface
  exact ⟨rfl, hface⟩

end Scope

/-! ## Plans -/

theorem MethodModel.isRootClass_of_isTested
    {method : MethodModel} (h : method.isTested = true) : isRootClass method.owner = false := by
  by_contra hroot
  rw [isTested, MethodTraits.isTestedIn] at h
  simp [hroot] at h

namespace TestPlan

variable {settings : Settings} {scope : Scope} {sortOf : String → TypeSort} {cache : TypeCache}
variable {selection : Selection} {plan : TestPlan}

/-- The features of a plan are for the selected methods in order, and the responses in each are
those to the calls of collaborators that its method makes. -/
theorem forall₂_features_of_build
    (hsnapshot : scope.snapshot.Obeys sortOf) (hcache : cache.Faithful scope sortOf)
    (hdepth : 2 ≤ scope.options.maxDepth)
    (h : build settings ((Session.extractSubject scope).run cache).1 selection = .ok plan) :
    List.Forall₂
      (fun method feature =>
        FeaturePlan.method feature = method.name ∧
          List.Forall₂ (CollaboratorCall.AnsweredBy scope settings)
            (scope.collaboratorCalls settings.doublePolicy method) feature.stubs)
      (scope.subject.methods.filter (·.name ∈ selection)) plan.features := by
  obtain ⟨htested, features, hfeatures, rfl⟩ := build_cases h
  have hfields := Session.forall₂_ownFields hsnapshot hcache hdepth
  have hnames : ∀ field ∈ scope.subject.fields, TypeRef.Unmarked field.type.name :=
    fun field hfield => (hsnapshot.field (Snapshot.mem_of_find? scope.held) hfield).unmarked
  have hselected := forall₂_and_right (Session.forall₂_selectedMethods scope cache selection)
    fun model hmodel => MethodModel.isRootClass_of_isTested (htested model hmodel)
  have hplanned := Contract.ensures_mapM (Contract.ofSuccess ShapeError)
    (fun model _ feature hfeature => hfeature) features hfeatures
  refine forall₂_comp hselected hplanned ?_
  rintro method model feature ⟨hshows, hroot⟩ hfeature
  obtain ⟨table, stubs, spies, -, hstubs, -, rfl⟩ := Settings.featurePlan_cases hfeature
  refine ⟨hshows.name_eq, ?_⟩
  rw [hshows.owner_eq] at hroot
  have hcalls := Scope.forall₂_stubbedCalls settings.doublePolicy hnames hfields
    fun callee calleeModel hid => Scope.callsTo_eq_calls hshows hroot hid
  have hanswered := Settings.forall₂_doubleResponses hstubs
  rw [Session.erasedName_extractSubject] at hanswered
  exact forall₂_comp hcalls hanswered fun _ _ _ => CollaboratorCall.answeredBy_of_shownBy

/-- Every field of the class under test that is mocked has a mock among the doubles. -/
theorem mock_mem_doubles_of_build
    {field : FieldDecl} (hsnapshot : scope.snapshot.Obeys sortOf)
    (hcache : cache.Faithful scope sortOf) (hdepth : 2 ≤ scope.options.maxDepth)
    (h : build settings ((Session.extractSubject scope).run cache).1 selection = .ok plan)
    (hfield : field ∈ scope.subject.fields)
    (hmocked : settings.doublePolicy.mocks scope.snapshot scope.subject.name field = true) :
    ⟨field.name, field.type.erasure, .mock⟩ ∈ plan.doubles := by
  obtain ⟨-, features, -, rfl⟩ := build_cases h
  have hfields := Session.forall₂_ownFields hsnapshot hcache hdepth
  obtain ⟨_, hmodel, type, htype, rfl⟩ := exists_related_of_mem hfields hfield
  have hname := (hsnapshot.field (Snapshot.mem_of_find? scope.held) hfield).unmarked
  have hmock : settings.doublePolicy.doubleOf? scope.subject.name
      (.ofType (some scope.subject) ⟨scope.subject, field⟩ type) = some .mock := by
    refine DoublePolicy.doubleOf?_of_isMocked ?_
    rw [DoublePolicy.isMocked_eq_mocks htype hname]
    exact hmocked
  have herased : type.erasedName = field.type.erasure := congrArg TypeNames.erasedName htype.names
  refine List.mem_filterMap.mpr ⟨_, hmodel, ?_⟩
  rw [Session.erasedName_extractSubject, hmock]
  exact congrArg (fun name => some (DoublePlan.mk field.name name .mock)) herased

end TestPlan

/-- Whether the responses in a plan are those to the calls of collaborators that the selected
methods of the class under test make. -/
structure TestPlan.AnswersCalls
    (plan : TestPlan) (settings : Settings) (scope : Scope) (selection : Selection) : Prop where
  features :
    List.Forall₂
      (fun method feature =>
        FeaturePlan.method feature = method.name ∧
          List.Forall₂ (CollaboratorCall.AnsweredBy scope settings)
            (scope.collaboratorCalls settings.doublePolicy method) feature.stubs)
      (scope.subject.methods.filter (·.name ∈ selection)) plan.features
  /-- There are none where call sites are not filled in. -/
  unfilled :
    scope.snapshot.fills .callSites = false → ∀ feature ∈ plan.features, feature.stubs = []
  /-- Every field that is called on has a mock. -/
  doubles :
    ∀ method, ∀ call ∈ scope.collaboratorCalls settings.doublePolicy method,
      ⟨call.field.name, call.field.type.erasure, .mock⟩ ∈ plan.doubles
  /-- The methods that can be called on a field are listed once. -/
  listedOnce :
    ∀ field ∈ scope.subject.fields,
      ((scope.snapshot.methodsOf field.type).map fun callee =>
        callee.method.signatureIn callee.owner.name).Nodup

namespace Settings

variable {settings : Settings} {snapshot : Snapshot} {task : GenerationTask}

/-- The responses that a plan has for each planned method are those to its calls of collaborators:
one for each field that is mocked and each method listed for its type that gives a value and is
called, in their order. -/
theorem plan_answers_calls
    {sortOf : String → TypeSort} {plan : TestPlan} {cache : CacheCounters}
    (h : settings.plan snapshot task = .ok (plan, cache))
    (hnames : snapshot.Obeys sortOf)
    (hdistinct : ∀ decl ∈ snapshot.classes, (decl.methods.map (·.signatureIn decl.name)).Nodup)
    (hdepth : 2 ≤ settings.maxDepth) :
    ∃ scope : Scope,
      Scope.open? snapshot task.className settings.modelOptions = some scope ∧
        plan.AnswersCalls settings scope task.selection := by
  obtain ⟨scope, hscope, hplan⟩ := plan_cases h
  obtain ⟨rfl, hoptions, -⟩ := Scope.open?_eq_some hscope
  have hlevels : 2 ≤ scope.options.maxDepth := by
    rw [hoptions]
    exact hdepth
  have hfeatures :=
    TestPlan.forall₂_features_of_build hnames TypeCache.faithful_empty hlevels hplan
  refine ⟨scope, hscope, hfeatures, ?_, ?_, ?_⟩
  · intro hunfilled feature hfeature
    obtain ⟨method, -, -, hstubs⟩ := exists_related_of_mem hfeatures.flip hfeature
    rw [Scope.collaboratorCalls_eq_nil hunfilled] at hstubs
    exact List.forall₂_nil_left_iff.mp hstubs
  · intro method call hcall
    obtain ⟨⟨hfield, hmocked⟩, -⟩ := Scope.mem_collaboratorCalls_iff.mp hcall
    exact TestPlan.mock_mem_doubles_of_build hnames TypeCache.faithful_empty hlevels hplan hfield
      hmocked
  · intro field _
    exact Snapshot.nodup_signatures_methodsOf hdistinct field.type

/-- What the names in the service and its repository stand for. -/
def orderSort (name : String) : TypeSort :=
  if name ∈ ["int", "long"] then .primitive else .reference

/-- The service asks its repository for a value, so the plan has a response for that. -/
theorem plan_answers_calls_orderTask :
    ∃ plan cache,
      standard.plan orderSnapshot orderTask = .ok (plan, cache) ∧
        orderSnapshot.Obeys orderSort ∧
        (∀ decl ∈ orderSnapshot.classes, (decl.methods.map (·.signatureIn decl.name)).Nodup) ∧
        2 ≤ standard.maxDepth ∧
        plan.features.map (fun feature => feature.stubs.map (·.method)) = [["find"], []] ∧
        ∃ scope : Scope,
          Scope.open? orderSnapshot orderTask.className standard.modelOptions = some scope ∧
            plan.AnswersCalls standard scope orderTask.selection := by
  have hplan : standard.plan orderSnapshot orderTask = .ok (_, _) := rfl
  have hnames : orderSnapshot.Obeys orderSort := by
    decide +kernel
  have hmethodNames : ∀ decl ∈ orderSnapshot.classes, (decl.methods.map (·.name)).Nodup := by
    decide +kernel
  have hdistinct : ∀ decl ∈ orderSnapshot.classes,
      (decl.methods.map (·.signatureIn decl.name)).Nodup := by
    intro decl hdecl
    refine List.Nodup.of_map MethodSignature.name ?_
    rw [List.map_map]
    exact hmethodNames decl hdecl
  have hdepth : 2 ≤ standard.maxDepth := by
    decide
  exact ⟨_, _, hplan, hnames, hdistinct, hdepth, rfl,
    plan_answers_calls hplan hnames hdistinct hdepth⟩

end Settings

end Specwright
