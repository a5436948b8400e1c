import Specwright.Proofs.Feature.Planning
import Specwright.Proofs.Session.Subject
import Specwright.Target.Merge

/-!
# Plans for several selections

The plans for two selections of the methods of one type differ in their features only.  A selection
goes by names, and a feature is named for its method, so of the features of one name a plan has all
that there are for the type or none.  What is selected by two selections together has therefore the
same first feature of each name as what is selected by one and then the other.
-/

namespace Specwright

namespace TypeModel

variable {type : TypeModel} {first second both : Selection} {method : MethodModel}

theorem mem_selectedMethods_of_union
    (hunion : ∀ name, name ∈ both ↔ name ∈ first ∨ name ∈ second) :
    method ∈ type.selectedMethods both ↔
      method ∈ type.selectedMethods first ∨ method ∈ type.selectedMethods second := by
  simp only [selectedMethods_eq, List.mem_filter, hunion, decide_eq_true_iff]
  tauto

end TypeModel

namespace Settings

variable {settings : Settings} {type : TypeModel} {first second both : Selection}

/-- The feature method for a method of a type, where one can be planned. -/
def featureMember? (settings : Settings) (type : TypeModel) (method : MethodModel) :
    Option Member :=
  match settings.featurePlan type method with
  | .ok feature => some ⟨feature.name, feature.render settings.naming settings.labels⟩
  | .error _ => none

/-- The feature methods for the selected methods of a type. -/
def featureMembers (settings : Settings) (type : TypeModel) (selection : Selection) :
    List Member :=
  (type.selectedMethods selection).filterMap (settings.featureMember? type)

theorem name_of_featureMember?
    {method : MethodModel} {member : Member}
    (h : settings.featureMember? type method = some member) :
    member.name = method.name ++ settings.naming.testNameSuffix := by
  rw [featureMember?] at h
  split at h
  next feature hfeature =>
    obtain ⟨_, _, _, -, -, -, rfl⟩ := featurePlan_cases hfeature
    cases h
    rfl
  next => cases h

/-! ## Features of one name -/

/-- The first feature of a name is that of the whole type, when the method it is named for is
selected. -/
theorem find?_featureMembers (settings : Settings) (type : TypeModel) (selection : Selection)
    (name : String) :
    (settings.featureMembers type selection).find? (·.name = name) =
      if ∃ method ∈ selection, method ++ settings.naming.testNameSuffix = name then
        (type.ownMethods.filterMap (settings.featureMember? type)).find? (·.name = name)
      else none := by
  rw [featureMembers, TypeModel.selectedMethods_eq, List.find?_filterMap, List.find?_filterMap,
    List.find?_filter]
  -- A method with a feature of the name is selected when any method is that has the name for it.
  have hselected : ∀ method : MethodModel,
      (decide (method.name ∈ selection) = true ∧
          (settings.featureMember? type method).any (·.name = name) = true) ↔
        (∃ other ∈ selection, other ++ settings.naming.testNameSuffix = name) ∧
          (settings.featureMember? type method).any (·.name = name) = true := by
    intro method
    rw [decide_eq_true_iff]
    refine and_congr_left fun hnamed => ?_
    obtain ⟨member, hmember, hname⟩ := (Option.any_eq_true _ _).mp hnamed
    have hfor : method.name ++ settings.naming.testNameSuffix = name := by
      rw [← name_of_featureMember? hmember]
      simpa using hname
    constructor
    · intro hmem
      exact ⟨method.name, hmem, hfor⟩
    · rintro ⟨other, hother, heq⟩
      rw [← hfor] at heq
      rwa [← (String.append_left_inj _).mp heq]
  simp only [hselected]
  by_cases hany : ∃ other ∈ selection, other ++ settings.naming.testNameSuffix = name
  · simp only [hany, true_and, if_true, Bool.decide_eq_true]
  · rw [if_neg hany, List.find?_eq_none.mpr (by simp [hany]), Option.bind_none]

/-- Two selections together have the first feature of a name that one and then the other have. -/
theorem find?_featureMembers_of_union
    (hunion : ∀ name, name ∈ both ↔ name ∈ first ∨ name ∈ second) (name : String) :
    (settings.featureMembers type both).find? (·.name = name) =
      (settings.featureMembers type first ++ settings.featureMembers type second).find?
        (·.name = name) := by
  have hnamed :
      (∃ method ∈ both, method ++ settings.naming.testNameSuffix = name) ↔
        (∃ method ∈ first, method ++ settings.naming.testNameSuffix = name) ∨
          ∃ method ∈ second, method ++ settings.naming.testNameSuffix = name := by
    simp only [hunion, or_and_right, exists_or]
  rw [List.find?_append, find?_featureMembers, find?_featureMembers, find?_featureMembers]
  by_cases hfirst : ∃ method ∈ first, method ++ settings.naming.testNameSuffix = name
  · rw [if_pos (hnamed.mpr (Or.inl hfirst)), if_pos hfirst]
    split <;> simp
  · rw [if_neg hfirst, Option.none_or]
    by_cases hsecond : ∃ method ∈ second, method ++ settings.naming.testNameSuffix = name
    · rw [if_pos (hnamed.mpr (Or.inr hsecond)), if_pos hsecond]
    · have hneither := not_or.mpr ⟨hfirst, hsecond⟩
      rw [if_neg (fun hboth => hneither (hnamed.mp hboth)), if_neg hsecond]

end Settings

namespace TestPlan

variable {settings : Settings} {type : TypeModel} {selection first second both : Selection}
variable {plan other : TestPlan}

/-! ## Plans -/

theorem featureMethods_of_build
    (h : build settings type selection = .ok plan) :
    plan.featureMethods settings = settings.featureMembers type selection := by
  obtain ⟨-, features, hfeatures, rfl⟩ := build_cases h
  have hplanned := Contract.ensures_mapM (Contract.ofSuccess ShapeError)
    (fun method _ feature hfeature => hfeature) features hfeatures
  rw [featureMethods, Settings.featureMembers]
  clear h hfeatures
  generalize type.selectedMethods selection = selected at hplanned
  induction hplanned with
  | nil => rfl
  | @cons method feature _ _ hfirst _ ih =>
      have hmember : settings.featureMember? type method =
          some ⟨feature.name, feature.render settings.naming settings.labels⟩ := by
        rw [Settings.featureMember?, hfirst]
      rw [List.map_cons, ih, List.filterMap_cons_some hmember]

/-- A plan is made exactly when every selected method is tested and has a feature. -/
theorem exists_build_iff :
    (∃ plan, build settings type selection = .ok plan) ↔
      ∀ method ∈ type.selectedMethods selection,
        method.isTested = true ∧ ∃ feature, settings.featurePlan type method = .ok feature := by
  constructor
  · rintro ⟨plan, h⟩ method hmethod
    obtain ⟨htested, features, hfeatures, -⟩ := build_cases h
    exact ⟨htested method hmethod,
      Contract.exists_mapM_eq_ok_iff.mp ⟨features, hfeatures⟩ method hmethod⟩
  · intro h
    have huntested : (type.selectedMethods selection).find? (fun method => !method.isTested) =
        none := by
      rw [List.find?_eq_none]
      intro method hmethod
      simp [(h method hmethod).1]
    obtain ⟨features, hfeatures⟩ :=
      Contract.exists_mapM_eq_ok_iff.mpr fun method hmethod => (h method hmethod).2
    simp only [build, huntested, hfeatures]
    exact ⟨_, rfl⟩

theorem exists_build_iff_of_union
    (hunion : ∀ name, name ∈ both ↔ name ∈ first ∨ name ∈ second) :
    (∃ plan, build settings type both = .ok plan) ↔
      (∃ plan, build settings type first = .ok plan) ∧
        ∃ plan, build settings type second = .ok plan := by
  simp only [exists_build_iff, TypeModel.mem_selectedMethods_of_union hunion]
  constructor
  · intro h
    exact ⟨fun method hmethod => h method (Or.inl hmethod),
      fun method hmethod => h method (Or.inr hmethod)⟩
  · rintro ⟨hfirst, hsecond⟩ method (hmethod | hmethod)
    · exact hfirst method hmethod
    · exact hsecond method hmethod

/-- Plans for one type differ in their features only. -/
theorem eq_of_build
    (h : build settings type first = .ok plan) (hother : build settings type second = .ok other) :
    other = { plan with features := other.features } := by
  obtain ⟨-, _, -, rfl⟩ := build_cases h
  obtain ⟨-, _, -, rfl⟩ := build_cases hother
  rfl

end TestPlan

end Specwright
