import Specwright.Feature.TestPlan
import Specwright.Proofs.Contract
import Specwright.Proofs.Pointwise

/-!
# What a plan holds

A plan that is made holds a feature for each selected method in order, and all of these methods are
tested by themselves.
-/

namespace Specwright

namespace Settings

variable {settings : Settings} {type : TypeModel}

/-- A feature that is planned has a data table, responses of doubles and responses of the spy, none
of which failed. -/
theorem featurePlan_cases
    {method : MethodModel} {feature : FeaturePlan}
    (h : settings.featurePlan type method = .ok feature) :
    ∃ table stubs spies,
      settings.tables.dataTable settings.naming.expectedColumn method = .ok table ∧
        settings.doubleResponses type method = .ok stubs ∧
        (method.spiedCallees settings.spySelfCalls).mapM settings.spyResponse = .ok spies ∧
        feature = {
          name := method.name ++ settings.naming.testNameSuffix
          method := method.name
          stubs
          spy := !spies.isEmpty
          spies
          receiver := receiverOf type method !spies.isEmpty
          args := table.invocationArgs
          returnsValue := method.givesValue
          table } := by
  rw [featurePlan] at h
  obtain ⟨table, htable, h⟩ := Contract.exists_of_bind_eq_ok h
  obtain ⟨stubs, hstubs, h⟩ := Contract.exists_of_bind_eq_ok h
  obtain ⟨spies, hspies, h⟩ := Contract.exists_of_bind_eq_ok h
  cases h
  exact ⟨table, stubs, spies, htable, hstubs, hspies, rfl⟩

theorem names_of_mapM_featurePlan
    {methods : List MethodModel} {features : List FeaturePlan}
    (h : methods.mapM (settings.featurePlan type) = .ok features) :
    features.map (·.name) = methods.map (·.name ++ settings.naming.testNameSuffix) := by
  have hnamed : ∀ method ∈ methods,
      (Contract.ofSuccess ShapeError).Ensures (settings.featurePlan type method)
        (fun feature => feature.name = method.name ++ settings.naming.testNameSuffix) := by
    intro method _ feature hfeature
    obtain ⟨_, _, _, -, -, -, rfl⟩ := featurePlan_cases hfeature
    rfl
  have hfeatures := Contract.ensures_mapM _ hnamed features h
  exact (map_eq_of_forall₂ hfeatures fun _ _ hname => hname.symm).symm

end Settings

namespace TestPlan

variable {settings : Settings} {type : TypeModel} {selection : Selection} {plan : TestPlan}

/-- A plan that is made has selected methods that are all tested, and a feature for each. -/
theorem build_cases
    (h : build settings type selection = .ok plan) :
    (∀ method ∈ type.selectedMethods selection, method.isTested = true) ∧
      ∃ features,
        (type.selectedMethods selection).mapM (settings.featurePlan type) = .ok features ∧
          plan = {
            sourceClass := type.erasedName
            superclass := settings.naming.superclass
            subject := ⟨settings.naming.subjectName, type.erasedName⟩
            doubles := settings.doublePlans type
            features } := by
  simp only [build] at h
  split at h
  · cases h
  next hfound =>
    split at h
    · cases h
    next features hfeatures =>
      cases h
      exact ⟨by simpa using hfound, features, hfeatures, rfl⟩

theorem names_features_of_build
    (h : build settings type selection = .ok plan) :
    plan.features.map (·.name) =
      (type.selectedMethods selection).map (·.name ++ settings.naming.testNameSuffix) := by
  obtain ⟨-, features, hfeatures, rfl⟩ := build_cases h
  exact Settings.names_of_mapM_featurePlan hfeatures

end TestPlan

end Specwright
