import Specwright.Proofs.Feature.Planning
import Specwright.Proofs.Session.Outline

/-!
# Calls of collaborators

A mock answers the calls that a tested method makes on it.  The calls are resolved from the body of
the method and the methods of the mock listed from its type, in two models that are built at
different depths; both know a method by the id of its declaration.  So the responses of a feature
are determined by declarations: there is one for each field that is mocked and each method listed
for its type that gives a value and is called, in their order.
-/

namespace Specwright

/-! ## Fields that are mocked -/

namespace DoublePolicy

/-- Whether a field of the class `subject` is replaced by a mock, as the snapshot has it. -/
def mocks
    (policy : DoublePolicy) (snapshot : Snapshot) (subject : String) (field : FieldDecl) : Bool :=
  let type := field.type
  let class? := snapshot.classOf? type
  !type.isPrimitive && !type.isVoid && !(type.kind = .parameter && !type.isArray) &&
    type.erasure ≠ subject && type.erasure ∉ policy.excludedTypes &&
    !(field.has .static && field.has .final) &&
    (policy.mockFinal || !class?.any (·.isFinal)) &&
    (policy.mockEnums || !class?.any (·.isEnum)) &&
    (policy.mockArrays || !type.isArray) &&
    !policy.factories.any fun rule => class?.any fun decl => rule.marker ∈ decl.annotations

variable {policy : DoublePolicy} {scope : Scope} {subject : String}

theorem isNone_factory?
    {type : TypeModel} :
    (policy.factory? type).isNone =
      !policy.factories.any fun rule => type.isAnnotated rule.marker := by
  rw [factory?, Option.isNone_map, Bool.eq_iff_iff, Option.isNone_iff_eq_none, List.find?_eq_none]
  simp

/-- A model of a field is mocked when its declaration is, if its type has the outline of the
declared type. -/
theorem isMocked_eq_mocks
    {viewer : Option ClassDecl} {owner : ClassDecl} {field : FieldDecl} {type : TypeModel}
    (htype : type.Outlines scope field.type) (hname : TypeRef.Unmarked field.type.name) :
    policy.isMocked subject (.ofType viewer ⟨owner, field⟩ type) =
      policy.mocks scope.snapshot subject field := by
  have herased : type.erasedName = field.type.erasure := by
    rw [TypeModel.erasedName, htype.names]
    rfl
  have hkind : type.names.kind = field.type.kind := by
    rw [htype.names]
    rfl
  have harray : type.isArray = field.type.isArray :=
    TypeModel.isArray_eq htype.names fun _ => hname.not_endsInBrackets
  have hprimitive : type.isPrimitive = field.type.isPrimitive := by
    refine TypeModel.isPrimitive_eq htype.names ?_ fun _ => hname.not_endsInBrackets
    intro hdims
    rw [htype.element, decide_eq_true hdims]
  have hfacts (property : ClassDecl → Bool) (fact : ClassFacts → Bool)
      (hknown : ∀ decl, fact (scope.snapshot.factsOf decl) = property decl)
      (hunknown : fact {} = false) :
      fact type.facts = (scope.snapshot.classOf? field.type).any property := by
    rw [htype.facts]
    cases scope.snapshot.classOf? field.type with
    | none => exact hunknown
    | some decl => exact hknown decl
  have hfinal := hfacts (·.isFinal) (·.isFinal) (fun _ => rfl) rfl
  have henum := hfacts (·.isEnum) (·.isEnum) (fun _ => rfl) rfl
  have hannotated (marker : String) :
      type.isAnnotated marker =
        (scope.snapshot.classOf? field.type).any fun decl => marker ∈ decl.annotations :=
    hfacts (fun decl => marker ∈ decl.annotations) (fun facts => marker ∈ facts.annotations)
      (fun _ => rfl) (by simp)
  simp only [isMocked, canReplace, FieldModel.ofType, isNone_factory?, TypeModel.isVoid,
    TypeModel.isTypeParameter, herased, hkind, harray, hprimitive, hfinal, henum, hannotated, mocks,
    TypeRef.isVoid]

/-- A field that is mocked has a mock as its double. -/
theorem doubleOf?_of_isMocked
    {field : FieldModel} (h : policy.isMocked subject field = true) :
    policy.doubleOf? subject field = some .mock := by
  rw [isMocked, Bool.and_eq_true] at h
  obtain ⟨hreplaced, hnone⟩ := h
  rw [doubleOf?, if_pos hreplaced, Option.isNone_iff_eq_none.mp hnone]

end DoublePolicy

/-! ## Calls of mocks -/

/-- A call of a method that is listed for the type of a field. -/
structure CollaboratorCall where
  field : FieldDecl
  callee : Declaration

namespace CollaboratorCall

/-- The bindings under which the type of the field has the method. -/
def bindings (scope : Scope) (call : CollaboratorCall) : Bindings :=
  scope.bindingsFor call.callee.owner (scope.snapshot.classOf? call.field.type) call.callee.method

/-- Whether the method gives back a value. -/
def givesValue (scope : Scope) (call : CollaboratorCall) : Bool :=
  call.callee.method.returnType.any fun type => !(type.substitute (call.bindings scope)).isVoid

/-- A matcher for each parameter of the method. -/
def matchers (scope : Scope) (settings : Settings) (call : CollaboratorCall) : String :=
  ", ".intercalate <| call.callee.method.paramTypes.map fun type =>
    (settings.tables.matchers.matcher? settings.matcherDialect
      (type.substitute (call.bindings scope)).erasure).getD Matchers.fallback

/-- The face of the method. -/
def face (scope : Scope) (call : CollaboratorCall) : MethodFace :=
  scope.faceOf (scope.snapshot.classOf? call.field.type) call.callee

theorem givesValue_face (scope : Scope) (call : CollaboratorCall) :
    (call.face scope).givesValue = call.givesValue scope := by
  rw [face, MethodFace.givesValue, Scope.faceOf, Option.any_map]
  rfl

end CollaboratorCall

namespace Scope

/-- Whether a call site of a method resolves to a followed declaration with the id of the given
one.  None is found where the snapshot does not fill in call sites. -/
def calls (scope : Scope) (method : MethodDecl) (callee : Declaration) : Bool :=
  scope.snapshot.fills .callSites &&
    method.callSites.any fun site => (scope.followed? site.target).any (·.id = callee.id)

/-- The calls of a method of the class under test on its mocks whose values are used: for each
mocked field in order, the called methods with a value that are listed for its type. -/
def collaboratorCalls (scope : Scope) (policy : DoublePolicy) (method : MethodDecl) :
    List CollaboratorCall :=
  (scope.subject.fields.filter (policy.mocks scope.snapshot scope.subject.name)).flatMap
    fun field =>
      ((scope.snapshot.methodsOf field.type).filter fun callee =>
          (CollaboratorCall.mk field callee).givesValue scope && scope.calls method callee).map
        fun callee => ⟨field, callee⟩

variable {scope : Scope} {policy : DoublePolicy} {method : MethodDecl} {model : MethodModel}

theorem mem_collaboratorCalls_iff
    {call : CollaboratorCall} :
    call ∈ scope.collaboratorCalls policy method ↔
      (call.field ∈ scope.subject.fields ∧
          policy.mocks scope.snapshot scope.subject.name call.field = true) ∧
        call.callee ∈ scope.snapshot.methodsOf call.field.type ∧
        call.givesValue scope = true ∧ scope.calls method call.callee = true := by
  rw [collaboratorCalls, List.mem_flatMap]
  constructor
  · rintro ⟨field, hfield, hcall⟩
    obtain ⟨callee, hcallee, rfl⟩ := List.mem_map.mp hcall
    obtain ⟨hlisted, hcalled⟩ := List.mem_filter.mp hcallee
    exact ⟨List.mem_filter.mp hfield, hlisted, by simpa using hcalled⟩
  · rintro ⟨hfield, hlisted, hcalled⟩
    refine ⟨call.field, List.mem_filter.mpr hfield, List.mem_map.mpr ⟨call.callee, ?_, rfl⟩⟩
    exact List.mem_filter.mpr ⟨hlisted, by simpa using hcalled⟩

theorem collaboratorCalls_eq_nil
    (h : scope.snapshot.fills .callSites = false) :
    scope.collaboratorCalls policy method = [] := by
  refine List.eq_nil_iff_forall_not_mem.mpr fun call hcall => ?_
  obtain ⟨-, -, -, hcalled⟩ := mem_collaboratorCalls_iff.mp hcall
  rw [calls, h, Bool.false_and] at hcalled
  cases hcalled

/-- The model of a method with a body calls what the method calls, by id. -/
theorem callsTo_eq_calls
    {callee : Declaration} {calleeModel : MethodModel}
    (hshows : model.Shows scope anyAnswer
      (Session.OwnBody scope (fun _ => anyAnswer) ⟨scope.subject, method⟩) (some scope.subject)
      ⟨scope.subject, method⟩)
    (hroot : isRootClass scope.subject.name = false) (hid : calleeModel.id = callee.id) :
    model.callsTo calleeModel = scope.calls method callee := by
  obtain ⟨body, hbody, hfound⟩ := hshows.body_holds
  cases hfound with
  | root hisRoot => rw [hisRoot] at hroot; cases hroot
  | @found calls _ _ _ hcalls _ _ =>
      have hstubs : model.stubCalls =
          distinctBy (fun call => (call.callee.id, call.args)) calls := by
        rw [MethodModel.stubCalls, MethodModel.directCalls, hbody]
        rfl
      have hids : (scope.followedCalls method).map (·.1.id) = calls.map (·.callee.id) :=
        map_eq_of_forall₂ hcalls fun call found hcall => hcall.1.id_eq.symm
      calc
        model.callsTo calleeModel
            = calls.any (fun call => decide (call.callee.id = callee.id)) := by
              rw [MethodModel.callsTo, hstubs, hid]
              exact any_distinctBy (fun key : String × List String => key.1 = callee.id) calls
          _ = (scope.followedCalls method).any (fun call => decide (call.1.id = callee.id)) := by
              have hany := congrArg (fun ids => ids.any fun id => decide (id = callee.id)) hids
              simpa only [List.any_map, Function.comp_def] using hany.symm
          _ = scope.calls method callee := by
              rw [followedCalls, Scope.calls]
              cases scope.snapshot.fills .callSites with
              | false => rfl
              | true =>
                  rw [if_pos rfl, List.any_filterMap, Bool.true_and]
                  congr 1
                  funext site
                  cases scope.followed? site.target <;> rfl

end Scope

end Specwright
