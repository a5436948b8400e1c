import Specwright.Proofs.Feature.Planning
import Specwright.Proofs.Session.Subject

/-!
# Spies for namesakes of the tested method

A response of the spy carries a name and a matcher for each argument, and the matchers do not tell
types apart.  A spied callee with the name and the number of parameters of the tested method
therefore answers in its place.  Callees are told apart from the tested method by their ids, so this
happens exactly when the tested method calls an overload of itself that a spy can reach.
-/

namespace Specwright

namespace MethodModel

/-- Whether a spy answers for a callee with the name and the number of parameters of the method. -/
def SpiesNamesake (spySelfCalls : Bool) (method : MethodModel) : Prop :=
  ∃ callee ∈ method.spiedCallees spySelfCalls,
    callee.name = method.name ∧ callee.params.length = method.params.length

instance {spySelfCalls : Bool} {method : MethodModel} :
    Decidable (method.SpiesNamesake spySelfCalls) :=
  inferInstanceAs (Decidable (∃ callee ∈ method.spiedCallees spySelfCalls,
    callee.name = method.name ∧ callee.params.length = method.params.length))

theorem canBeSpiedIn_iff
    {candidate method : MethodModel} :
    candidate.canBeSpiedIn method = true ↔
      candidate.id ≠ method.id ∧ candidate.traits.isPrivate = false ∧
        candidate.traits.isStatic = false ∧ candidate.traits.isConstructor = false := by
  simp [canBeSpiedIn, and_assoc]

theorem mem_spiedCallees_iff
    {spySelfCalls : Bool} {method callee : MethodModel} :
    callee ∈ method.spiedCallees spySelfCalls ↔
      spySelfCalls = true ∧ method.traits.isStatic = false ∧
        callee ∈ method.siblingCallees ∧ callee.canBeSpiedIn method = true := by
  rw [spiedCallees]
  cases spySelfCalls <;> cases method.traits.isStatic <;> simp

end MethodModel

namespace Scope

/-- The declarations of the class under test that a method calls, each once, in the order of the
calls. -/
def siblingCalls (scope : Scope) (method : MethodDecl) : List Declaration :=
  let calls := distinctBy (fun call => (call.1.id, call.2)) (scope.followedCalls method)
  distinctBy (·.id) ((calls.map (·.1)).filter (·.owner.name = scope.subject.name))

/-- Whether a method of the class under test calls an overload of itself with as many parameters
that a spy can reach. -/
def CallsNamesake (scope : Scope) (method : MethodDecl) : Prop :=
  ∃ callee ∈ scope.siblingCalls method,
    callee.method.name = method.name ∧
      callee.method.params.length = method.params.length ∧
      callee.id ≠ method.idIn scope.subject.name ∧
      callee.method.has .privateAccess = false ∧ callee.method.has .static = false ∧
      callee.method.isConstructor = false

variable {scope : Scope} {method : MethodDecl} {model : MethodModel}

/-- A model of a callee, as a method of the class under test sees it. -/
def ShowsCallee (scope : Scope) (callee : Declaration) (model : MethodModel) : Prop :=
  model.Shows scope anyAnswer (· = none) (calleeViewer scope.subject callee) callee

/-- The sibling callees of a method with a body show the declarations that it calls. -/
theorem forall₂_siblingCallees
    (hshows : model.Shows scope anyAnswer
      (Session.OwnBody scope (fun _ => anyAnswer) ⟨scope.subject, method⟩) (some scope.subject)
      ⟨scope.subject, method⟩)
    (hroot : isRootClass scope.subject.name = false) :
    List.Forall₂ scope.ShowsCallee (scope.siblingCalls method) model.siblingCallees := by
  obtain ⟨body, hbody, hfound⟩ := hshows.body_holds
  have howner := hshows.owner_eq
  rw [MethodModel.siblingCallees, MethodModel.spyCalls, MethodModel.directCalls, hbody, howner]
  cases hfound with
  | root hisRoot => rw [hisRoot] at hroot; cases hroot
  | @found calls _ _ _ hcalls _ _ =>
      -- Repetitions are dropped, and other classes left out, in the same places on both sides.
      have hcallKeys : ∀ (call : Declaration × List String) (found : CallModel),
          found.Shows scope anyAnswer scope.subject call →
            (call.1.id, call.2) = (found.callee.id, found.args) := by
        intro call found hcall
        rw [hcall.1.id_eq, hcall.2]
      have hcallees :
          List.Forall₂ scope.ShowsCallee
            ((distinctBy (fun call => (call.1.id, call.2)) (scope.followedCalls method)).map (·.1))
            ((distinctBy (fun call => (call.callee.id, call.args)) calls).map (·.callee)) := by
        rw [List.forall₂_map_left_iff, List.forall₂_map_right_iff]
        exact (forall₂_distinctBy hcallKeys hcalls).imp fun call found hcall => hcall.1
      have howners : ∀ callee model, scope.ShowsCallee callee model →
          decide (callee.owner.name = scope.subject.name) =
            decide (model.owner = scope.subject.name) := by
        intro callee model hcallee
        rw [hcallee.owner_eq]
      refine forall₂_distinctBy ?_ (forall₂_filter howners hcallees)
      intro callee model hcallee
      exact hcallee.id_eq.symm

/-- A tested method has a namesake among its spied callees exactly when spies are wanted, it is not
static, and it calls an overload of itself that a spy can reach. -/
theorem spiesNamesake_iff
    {spySelfCalls : Bool}
    (hshows : model.Shows scope anyAnswer
      (Session.OwnBody scope (fun _ => anyAnswer) ⟨scope.subject, method⟩) (some scope.subject)
      ⟨scope.subject, method⟩)
    (hroot : isRootClass scope.subject.name = false) :
    model.SpiesNamesake spySelfCalls ↔
      spySelfCalls = true ∧ method.has .static = false ∧ scope.CallsNamesake method := by
  have hnamesake : ∀ callee found, scope.ShowsCallee callee found →
      ((callee.method.name = method.name ∧
        callee.method.params.length = method.params.length ∧
        callee.id ≠ method.idIn scope.subject.name ∧
        callee.method.has .privateAccess = false ∧ callee.method.has .static = false ∧
        callee.method.isConstructor = false) ↔
      (found.canBeSpiedIn model = true ∧
        found.name = model.name ∧ found.params.length = model.params.length)) := by
    intro callee found hcallee
    rw [MethodModel.canBeSpiedIn_iff, hcallee.id_eq, hcallee.name_eq, hcallee.length_params,
      hcallee.traits_eq, hshows.id_eq, hshows.name_eq, hshows.length_params]
    constructor
    · rintro ⟨hname, hlength, hid, hprivate, hstatic, hconstructor⟩
      exact ⟨⟨hid, hprivate, hstatic, hconstructor⟩, hname, hlength⟩
    · rintro ⟨⟨hid, hprivate, hstatic, hconstructor⟩, hname, hlength⟩
      exact ⟨hname, hlength, hid, hprivate, hstatic, hconstructor⟩
  have hcalls := exists_mem_iff_of_forall₂ hnamesake (forall₂_siblingCallees hshows hroot)
  have hstatic : model.traits.isStatic = method.has .static := by
    rw [hshows.traits_eq]
    rfl
  rw [CallsNamesake, hcalls, MethodModel.SpiesNamesake]
  simp only [MethodModel.mem_spiedCallees_iff, hstatic]
  constructor
  · rintro ⟨callee, ⟨hspies, hinstance, hmem, hspied⟩, hname, hlength⟩
    exact ⟨hspies, hinstance, callee, hmem, hspied, hname, hlength⟩
  · rintro ⟨hspies, hinstance, callee, hmem, hspied, hname, hlength⟩
    exact ⟨callee, ⟨hspies, hinstance, hmem, hspied⟩, hname, hlength⟩

end Scope

/-! ## Planned methods -/

namespace TestPlan

/-- Of the methods that a plan tests, exactly those have a namesake among their spied callees that
are not static and call an overload of themselves that a spy can reach, if spies are wanted. -/
theorem spiesNamesake_iff_of_build
    {settings : Settings} {scope : Scope} {cache : TypeCache} {selection : Selection}
    {plan : TestPlan}
    (hplan : build settings ((Session.extractSubject scope).run cache).1 selection = .ok plan) :
    List.Forall₂
      (fun (method : MethodDecl) (model : MethodModel) =>
        model.id = method.idIn scope.subject.name ∧
          (model.SpiesNamesake settings.spySelfCalls ↔
            settings.spySelfCalls = true ∧ method.has .static = false ∧
              scope.CallsNamesake method))
      (scope.subject.methods.filter (·.name ∈ selection))
      (((Session.extractSubject scope).run cache).1.selectedMethods selection) := by
  have hselected := Session.forall₂_selectedMethods scope cache selection
  obtain ⟨htested, -⟩ := build_cases hplan
  have hroot : ∀ model ∈ ((Session.extractSubject scope).run cache).1.selectedMethods selection,
      isRootClass model.owner = false := by
    intro model hmodel
    have htest := htested model hmodel
    by_contra hisRoot
    rw [MethodModel.isTested, MethodTraits.isTestedIn] at htest
    simp [hisRoot] at htest
  refine (forall₂_and_right hselected hroot).imp ?_
  rintro method model ⟨hshows, hnotRoot⟩
  rw [hshows.owner_eq] at hnotRoot
  exact ⟨hshows.id_eq, Scope.spiesNamesake_iff hshows hnotRoot⟩

end TestPlan

/-! ## An overload that delegates to another one -/

/-- A class whose method for small numbers calls its overload for large ones. -/
def sumsClass : ClassDecl where
  name := "shop.Sums"
  methods := [
    { name := "add"
      modifiers := [.publicAccess]
      returnType := some (.primitive "long")
      params := [⟨"amount", .primitive "int"⟩]
      callSites := [{ target := ⟨"shop.Sums", "add", [.primitive "long"]⟩, args := ["amount"] }] },
    { name := "add"
      modifiers := [.publicAccess]
      returnType := some (.primitive "long")
      params := [⟨"amount", .primitive "long"⟩] }]

def sumsScope : Scope where
  snapshot := .ofClasses [sumsClass]
  subject := sumsClass
  options := ⟨3, []⟩
  held := rfl

namespace TestPlan

/-- Both overloads can be planned. -/
theorem exists_plan_sums :
    ∃ plan,
      build .standard ((Session.extractSubject sumsScope).run .empty).1 ["add"] = .ok plan :=
  ⟨_, rfl⟩

theorem spiesNamesake_iff_of_build_sums :
    ∃ plan,
      build .standard ((Session.extractSubject sumsScope).run .empty).1 ["add"] = .ok plan ∧
        List.Forall₂
          (fun (method : MethodDecl) (model : MethodModel) =>
            model.id = method.idIn sumsScope.subject.name ∧
              (model.SpiesNamesake Settings.standard.spySelfCalls ↔
                Settings.standard.spySelfCalls = true ∧ method.has .static = false ∧
                  sumsScope.CallsNamesake method))
          (sumsScope.subject.methods.filter (·.name ∈ ["add"]))
          (((Session.extractSubject sumsScope).run .empty).1.selectedMethods ["add"]) := by
  obtain ⟨plan, hplan⟩ := exists_plan_sums
  exact ⟨plan, hplan, spiesNamesake_iff_of_build hplan⟩

/-- The spy answers for the overload, and so in the place of the tested method. -/
theorem sums_spies_namesake :
    (∃ plan,
      build .standard ((Session.extractSubject sumsScope).run .empty).1 ["add"] = .ok plan) ∧
      ∃ method ∈ ((Session.extractSubject sumsScope).run .empty).1.selectedMethods ["add"],
        method.SpiesNamesake Settings.standard.spySelfCalls := by
  have hspied :
      ∃ method ∈ ((Session.extractSubject sumsScope).run .empty).1.selectedMethods ["add"],
        method.SpiesNamesake Settings.standard.spySelfCalls := by
    decide +kernel
  exact ⟨exists_plan_sums, hspied⟩

end TestPlan

end Specwright
