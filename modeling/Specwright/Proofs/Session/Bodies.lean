import Specwright.Proofs.Session.Bounds
import Specwright.Proofs.Session.Throughout

/-!
# How far bodies reach

Only the own methods of the class under test are looked into, and what they call is not.  The first
extraction of a session leads back to the class under test in many ways, but what it finds there was
built on request, before the extraction was remembered.  Later on, remembered bodies may turn up
anywhere in a model; still no callee has one.
-/

namespace Specwright

namespace MethodModel

/-- Whether a method was not looked into, so that no view of its body shows anything. -/
structure Bodiless (method : MethodModel) : Prop where
  body : method.body = none
  directCalls : method.directCalls = []
  methodRefs : method.methodRefs = []
  references : method.references = []
  affectedFields : method.affectedFields = []

variable {method : MethodModel}

theorem bodiless_of_body (h : method.body = none) : method.Bodiless := by
  refine ⟨h, ?_, ?_, ?_, ?_⟩
  · rw [directCalls, h]
    rfl
  · rw [MethodModel.methodRefs, h]
    rfl
  · rw [MethodModel.references, h]
    rfl
  · rw [MethodModel.affectedFields, h]
    rfl

/-- Whether nothing that the method calls or refers to was looked into. -/
structure CallsBodiless (method : MethodModel) : Prop where
  callees : ∀ call ∈ method.directCalls, call.callee.Bodiless
  methodRefs : ∀ target ∈ method.methodRefs, target.Bodiless

theorem Bodiless.callsBodiless (h : method.Bodiless) : method.CallsBodiless := by
  constructor
  · intro call hcall
    rw [h.directCalls] at hcall
    cases hcall
  · intro target htarget
    rw [h.methodRefs] at htarget
    cases htarget

/-- A method calls and refers to nothing that was looked into when its body shows what it is built
for. -/
theorem callsBodiless_of_body
    {scope : Scope} {answers : TypeRef → TypeModel → Prop} {declaration : Declaration}
    {body : BodyModel} (hbody : method.body = some body)
    (hshows : BodyModel.Shows scope answers declaration body) :
    method.CallsBodiless := by
  constructor
  · intro call hcall
    rw [directCalls, hbody] at hcall
    cases hshows with
    | root => cases hcall
    | found _ hcalls =>
        obtain ⟨_, -, hcallee, -⟩ :=
          exists_related_of_mem hcalls.flip ((distinctBy_sublist _).subset hcall)
        exact bodiless_of_body hcallee.body_holds
  · intro target htarget
    rw [MethodModel.methodRefs, hbody] at htarget
    cases hshows with
    | root => cases htarget
    | found _ _ hrefs =>
        obtain ⟨_, -, _, _, _, -, -, hnone, rfl⟩ :=
          exists_related_of_mem hrefs.flip ((distinctBy_sublist _).subset htarget)
        exact bodiless_of_body hnone

end MethodModel

namespace ModelPart

/-- Whether a part is no method that was looked into. -/
def Bodiless : ModelPart → Prop
  | .method known => known.Bodiless
  | _ => True

/-- Whether a part is no method that calls or refers to one that was looked into. -/
def CallsBodiless : ModelPart → Prop
  | .method known => known.CallsBodiless
  | _ => True

end ModelPart

namespace Scope

theorem grants_bodiless (scope : Scope) : scope.Grants (fun _ => True) ModelPart.Bodiless where
  bare _ := trivial
  expanded _ _ := trivial
  field _ := trivial
  param _ _ := trivial
  use := trivial
  method _ := MethodModel.bodiless_of_body rfl

theorem grantsBodies_callsBodiless (scope : Scope) :
    scope.GrantsBodies (fun _ => True) ModelPart.CallsBodiless where
  bare _ := trivial
  expanded _ _ := trivial
  field _ := trivial
  param _ _ := trivial
  use := trivial
  method _ := (MethodModel.bodiless_of_body rfl).callsBodiless
  own _ hshows := MethodModel.callsBodiless_of_body rfl hshows

end Scope

namespace Session

variable {scope : Scope} {requests : List CacheRequest} {cache : TypeCache}

/-- What every request keeps is kept by all of them. -/
theorem after_keeps
    {invariant : TypeCache → Prop} {good : TypeModel → Prop}
    (hperform : ∀ request ∈ requests,
      (Contract.keeping invariant).Ensures (request.perform scope) good)
    (hcache : invariant cache) :
    invariant (after scope requests cache) := by
  have hall : (Contract.keeping invariant).Ensures (requests.mapM (CacheRequest.perform scope))
      (List.Forall₂ (fun _ => good) requests) :=
    Contract.ensures_mapM _ hperform
  exact (hall cache hcache).2

/-- As long as the class under test is not extracted, no method in what is remembered was looked
into. -/
theorem bodiless_after (h : extractions requests = 0) :
    (after scope requests .empty).Throughout ModelPart.Bodiless := by
  have hperform : ∀ request ∈ requests,
      (Contract.keeping (TypeCache.Throughout ModelPart.Bodiless)).Ensures (request.perform scope)
        fun type => (ModelPart.type type).Throughout ModelPart.Bodiless := by
    intro request hrequest
    cases request with
    | type ref depth keepArgs bindings =>
        exact typeOf_throughout scope.grants_bodiless scope.encloses_any trivial depth
    | subject => exact absurd rfl (List.countP_eq_zero.mp h _ hrequest)
  exact after_keeps hperform TypeCache.throughout_empty

/-- In every session, what is remembered and what is answered calls nothing that was looked into. -/
theorem perform_callsBodiless (scope : Scope) (request : CacheRequest) :
    (Contract.keeping (TypeCache.Throughout ModelPart.CallsBodiless)).Ensures
      (request.perform scope) fun type => (ModelPart.type type).Throughout
        ModelPart.CallsBodiless := by
  have hgrants := scope.grantsBodies_callsBodiless
  cases request with
  | type ref depth keepArgs bindings =>
      exact typeOf_throughout hgrants.toGrants scope.encloses_any trivial depth
  | subject => exact extractSubject_throughout hgrants scope.encloses_any

/-- The class under test, extracted where nothing remembered was looked into, is built from answers
of which nothing was looked into either. -/
theorem extractSubject_of_bodiless (hcache : cache.Throughout ModelPart.Bodiless) :
    TypeModel.Expands scope
      (fun _ type => (ModelPart.type type).Throughout ModelPart.Bodiless)
      (fun _ type => (ModelPart.type type).Throughout ModelPart.Bodiless)
      (OwnBody scope fun _ _ type => (ModelPart.type type).Throughout ModelPart.Bodiless)
      scope.subject.ownType ((extractSubject scope).run cache).1 := by
  have hdiscipline := throughout_discipline scope.grants_bodiless scope.encloses_any
  obtain ⟨below, hdepth⟩ := exists_subjectDepth_eq scope
  have hsubject := ofSubject_ensures_of_expansions hdiscipline (closed_any scope) trivial
    (fun _ _ _ _ => trivial) below
  rw [extractSubject_eq, hdepth]
  exact (hsubject cache.countMiss hcache).1

/-- Bodies reach two levels.  Where the class under test is extracted for the first time, exactly
its own methods are looked into: neither are its inherited ones, nor any method that is reached
through another part of it.  And no method in any answer or in anything remembered calls or refers
to a method that was looked into. -/
theorem bodies_reach_two_levels (scope : Scope) :
    (∀ requests, extractions requests = 0 →
      let root := ((extractSubject scope).run (after scope requests .empty)).1
      (∀ method ∈ root.methods,
        if method.traits.inherited then method.Bodiless else method.body.isSome) ∧
      ∀ part method, (ModelPart.type root).Has part →
        Relation.TransGen ModelPart.Has part (.method method) → method.Bodiless) ∧
    ∀ (requests : List CacheRequest) (request : CacheRequest),
      let cache := after scope requests .empty
      ∀ type, type = ((request.perform scope).run cache).1 ∨
          (∃ entry ∈ cache.entries, entry.type = type) →
        ∀ method, Relation.ReflTransGen ModelPart.Has (.type type) (.method method) →
          (∀ call ∈ method.directCalls, call.callee.Bodiless) ∧
            ∀ target ∈ method.methodRefs, target.Bodiless := by
  constructor
  · intro requests hrequests root
    have hcache : (after scope requests .empty).Throughout ModelPart.Bodiless :=
      bodiless_after hrequests
    have hexpands : TypeModel.Expands scope _ _ _ scope.subject.ownType root :=
      extractSubject_of_bodiless hcache
    constructor
    · intro method hmethod
      obtain ⟨decl, declaration, hfound, -, hshown⟩ := hexpands.exists_declaration hmethod
      obtain rfl : scope.subject = decl := Option.some.inj (scope.held.symm.trans hfound)
      have hinherited : method.traits.inherited = true ↔
          ¬declaration.owner.name = scope.subject.name := by
        have hviewed : method.traits.inherited =
            decide (scope.subject.name ≠ declaration.owner.name) := by
          rw [hshown.traits_eq]
          rfl
        rw [hviewed, decide_eq_true_iff, ne_comm]
      have hbody := hshown.body_holds
      by_cases hown : declaration.owner.name = scope.subject.name
      · rw [if_pos hown] at hbody
        obtain ⟨found, hsome, -⟩ := hbody
        rw [if_neg fun h => hinherited.mp h hown, hsome]
        rfl
      · rw [if_neg hown] at hbody
        rw [if_pos (hinherited.mpr hown)]
        exact MethodModel.bodiless_of_body hbody
    · intro part method hhas hreach
      have hparts := scope.grants_bodiless.parts_of_expands scope.encloses_any
        (fun _ _ htype => htype) (fun _ _ htype => htype)
        (fun _ _ => throughout_of_ownBody scope.grants_bodiless scope.encloses_any) hexpands
      exact (hparts part hhas).1 (.method method) hreach
  · intro requests request cache type htype method hreach
    have hcache : cache.Throughout ModelPart.CallsBodiless :=
      after_keeps (fun request _ => perform_callsBodiless scope request)
        TypeCache.throughout_empty
    have hthroughout : (ModelPart.type type).Throughout ModelPart.CallsBodiless := by
      rcases htype with rfl | ⟨entry, hentry, rfl⟩
      · exact (perform_callsBodiless scope request cache hcache).1
      · exact hcache entry hentry
    have hcalls : method.CallsBodiless := hthroughout (.method method) hreach
    exact ⟨hcalls.callees, hcalls.methodRefs⟩

end Session

/-! ## A method that calls itself -/

/-- A node that leads to another one, which it asks for the last one. -/
def nodeClass : ClassDecl where
  name := "route.Node"
  fields := [{ name := "next", type := .named "route.Node" }]
  methods := [
    { name := "last"
      modifiers := [.publicAccess]
      returnType := some (.named "route.Node")
      callSites := [{ target := ⟨"route.Node", "last", []⟩ }] }]

def nodeScope : Scope where
  snapshot := .ofClasses [nodeClass]
  subject := nodeClass
  options := ⟨3, []⟩
  held := rfl

namespace Session

/-- Where a node is extracted after nodes have been asked for, its method is looked into, but not as
the callee of itself. -/
theorem bodies_reach_two_levels_nodeScope :
    extractions [.type (.named "route.Node") 2 true .empty] = 0 ∧
      ∃ method ∈ ((extractSubject nodeScope).run
          (after nodeScope [.type (.named "route.Node") 2 true .empty] .empty)).1.methods,
        method.body.isSome = true ∧
          ∃ call ∈ method.directCalls, call.callee.id = method.id ∧ call.callee.Bodiless := by
  have hnone : extractions [.type (.named "route.Node") 2 true .empty] = 0 := rfl
  have hcalls : ∃ method ∈ ((extractSubject nodeScope).run
        (after nodeScope [.type (.named "route.Node") 2 true .empty] .empty)).1.methods,
      method.traits.inherited = false ∧
        ∃ call ∈ method.directCalls, call.callee.id = method.id :=
    ⟨_, List.Mem.head _, rfl, _, List.Mem.head _, rfl⟩
  obtain ⟨method, hmethod, hown, call, hcall, hid⟩ := hcalls
  obtain ⟨hmethods, hdeeper⟩ := (bodies_reach_two_levels nodeScope).1 _ hnone
  have hbody := hmethods method hmethod
  rw [hown, if_neg Bool.false_ne_true] at hbody
  have hcallee : call.callee.Bodiless :=
    hdeeper _ _ (.method hmethod) (.single (.callee hcall))
  exact ⟨hnone, method, hmethod, hbody, call, hcall, hid, hcallee⟩

end Session

end Specwright
