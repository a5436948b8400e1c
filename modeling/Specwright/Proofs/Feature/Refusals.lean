import Specwright.Proofs.Feature.Planning
import Specwright.Proofs.Literal.Tokens
import Specwright.Proofs.Session.Replacement

/-!
# When planning is refused

A plan is refused for the first selected method that is not tested by itself, whatever else is
wrong.  Past that, literals are made in three places for each feature, and all that they can fail
for is a shape in the tables with a token that is no placeholder.
-/

namespace Specwright

namespace Settings

variable {settings : Settings} {type : TypeModel}

/-! ## Literals in a feature -/

theorem doubleResponses_sparing (settings : Settings) (type : TypeModel) (method : MethodModel) :
    settings.tables.sparing.Ensures (settings.doubleResponses type method) fun _ => True := by
  have hresponse (target : StubbedCall) :
      settings.tables.sparing.Ensures (settings.doubleResponse? target) fun _ => True := by
    rw [doubleResponse?]
    split
    · trivial
    · refine Contract.ensures_bind _ (ExpressionTables.topLiteral_sparing _ _ _) ?_
      exact fun _ _ => Contract.ensures_pure _ trivial
  refine Contract.ensures_bind _ (Contract.ensures_mapM _ fun target _ => hresponse target) ?_
  exact fun _ _ => Contract.ensures_pure _ trivial

theorem spyResponse_sparing (settings : Settings) (callee : MethodModel) :
    settings.tables.sparing.Ensures (settings.spyResponse callee) fun _ => True := by
  refine Contract.ensures_bind _ (ExpressionTables.resultLiteral?_ensures
    settings.tables.literalRules_sparing trivial fun _ _ => trivial) ?_
  exact fun _ _ => Contract.ensures_pure _ trivial

/-- A feature can be planned, or a shape in the tables is the cause. -/
theorem featurePlan_sparing (settings : Settings) (type : TypeModel) (method : MethodModel) :
    settings.tables.sparing.Ensures (settings.featurePlan type method) fun _ => True := by
  refine Contract.ensures_bind _ (ExpressionTables.dataTable_ensures
    settings.tables.literalRules_sparing trivial (fun _ _ => ⟨trivial, trivial⟩)
    fun _ _ => trivial) fun _ _ => ?_
  refine Contract.ensures_bind _ (doubleResponses_sparing settings type method) fun _ _ => ?_
  have hspies := Contract.ensures_mapM settings.tables.sparing
    fun callee (_ : callee ∈ method.spiedCallees settings.spySelfCalls) =>
      spyResponse_sparing settings callee
  refine Contract.ensures_bind _ hspies fun _ _ => ?_
  exact Contract.ensures_pure _ trivial

/-- Features can be planned for any methods, one by one, or a shape in the tables is the cause. -/
theorem mapM_featurePlan_sparing
    (settings : Settings) (type : TypeModel) (methods : List MethodModel) :
    match methods.mapM (settings.featurePlan type) with
    | .ok features =>
      List.Forall₂ (fun method feature => settings.featurePlan type method = .ok feature) methods
        features
    | .error cause => settings.tables.Causes cause := by
  have hcause := Contract.ensures_mapM settings.tables.sparing
    fun method (_ : method ∈ methods) => featurePlan_sparing settings type method
  have hplanned := Contract.ensures_mapM (Contract.ofSuccess ShapeError)
    fun method (_ : method ∈ methods) feature
      (hfeature : settings.featurePlan type method = .ok feature) => hfeature
  cases hfeatures : methods.mapM (settings.featurePlan type) with
  | error cause =>
      rw [hfeatures] at hcause
      exact hcause
  | ok features => exact hplanned features hfeatures

end Settings

/-! ## Selected methods of a class -/

namespace Scope

variable {scope : Scope} {decl : ClassDecl} {type : TypeModel}

/-- Whether a method that a class declares is tested by itself. -/
def tests (scope : Scope) (decl : ClassDecl) (method : MethodDecl) : Bool :=
  (scope.traitsOf decl (some decl) method).isTestedIn decl.name

theorem Builds.erasedName_eq (h : scope.Builds decl type) : type.erasedName = decl.name := by
  cases h with
  | subject cache =>
      rw [TypeModel.erasedName, (Session.extractSubject_expands scope cache).names_eq]
      exact String.append_empty
  | requested _ hfound hmiss =>
      rw [TypeModel.erasedName, (Session.typeOf_expands scope hmiss).names_eq,
        Snapshot.name_of_find? hfound]
      exact String.append_empty

/-- Whether a model is that of a method that a class declares, tested when the method is. -/
structure IsModelOf
    (scope : Scope) (decl : ClassDecl) (method : MethodDecl) (model : MethodModel) : Prop where
  id_eq : model.id = method.idIn decl.name
  name_eq : model.name = method.name
  isTested_eq : model.isTested = scope.tests decl method

/-- The selected methods of a type are models of those of its class, in their order. -/
theorem Builds.forall₂_selectedMethods (h : scope.Builds decl type) (selection : Selection) :
    List.Forall₂ (scope.IsModelOf decl) (decl.methods.filter (·.name ∈ selection))
      (type.selectedMethods selection) := by
  obtain ⟨bodies, hmembers⟩ := h.forall₂_members
  have hselected := TypeModel.forall₂_selectedMethods_of_members h.held hmembers selection
  refine hselected.imp fun method model hshows => ?_
  refine ⟨hshows.id_eq, hshows.name_eq, ?_⟩
  rw [MethodModel.isTested, hshows.traits_eq, hshows.owner_eq]
  rfl

end Scope

namespace TestPlan

variable {settings : Settings} {type : TypeModel} {selection : Selection}

/-- Planning ends in one of three ways, the first of which comes before all others. -/
theorem build_outcome (settings : Settings) (type : TypeModel) (selection : Selection) :
    match build settings type selection with
    | .error (.notTestable name method) =>
      name = type.erasedName ∧
        ∃ first, (type.selectedMethods selection).find? (!·.isTested) = some first ∧
          first.name = method
    | .error (.shape cause) =>
      (type.selectedMethods selection).find? (!·.isTested) = none ∧ settings.tables.Causes cause
    | .ok plan =>
      (type.selectedMethods selection).find? (!·.isTested) = none ∧
        List.Forall₂ (fun method feature => settings.featurePlan type method = .ok feature)
          (type.selectedMethods selection) plan.features := by
  have hfeatures :=
    Settings.mapM_featurePlan_sparing settings type (type.selectedMethods selection)
  cases hfirst : (type.selectedMethods selection).find? (!·.isTested) with
  | some first =>
      simp only [build, hfirst]
      exact ⟨trivial, first, rfl, rfl⟩
  | none =>
      cases hplanned : (type.selectedMethods selection).mapM (settings.featurePlan type) with
      | error cause =>
          rw [hplanned] at hfeatures
          simp only [build, hfirst, hplanned]
          exact ⟨trivial, hfeatures⟩
      | ok features =>
          rw [hplanned] at hfeatures
          simp only [build, hfirst, hplanned]
          exact ⟨trivial, hfeatures⟩

/-- Planning a type that is built for a class is refused for exactly the first selected method of
the class that is not tested, whatever else is wrong; for a shape only when one in the tables has a
token that is no placeholder, which the standard tables have not; and otherwise the plan holds
exactly one feature for each selected method that the class declares itself, in their order. -/
theorem build_refuses_untested_or_misspelt
    {scope : Scope} {decl : ClassDecl} (hbuilds : scope.Builds decl type)
    (settings : Settings) (selection : Selection) :
    let selected := decl.methods.filter (·.name ∈ selection)
    (∀ name method, build settings type selection = .error (.notTestable name method) ↔
      name = decl.name ∧
        ∃ first, selected.find? (!scope.tests decl ·) = some first ∧ first.name = method) ∧
    (∀ cause, build settings type selection = .error (.shape cause) →
      settings.tables.Causes cause) ∧
    (settings.tables.shapes = .standard → settings.tables.nestedShapes = .standard →
      ∀ cause, build settings type selection ≠ .error (.shape cause)) ∧
    ((∀ cause, build settings type selection ≠ .error cause) →
      ∃ plan, build settings type selection = .ok plan ∧
        List.Forall₂
          (fun method feature =>
            feature.method = method.name ∧
              ∃ model ∈ type.methods, model.id = method.idIn decl.name ∧
                settings.featurePlan type model = .ok feature)
          selected plan.features) := by
  intro selected
  have houtcome := build_outcome settings type selection
  have hselected : List.Forall₂ (scope.IsModelOf decl) selected (type.selectedMethods selection) :=
    hbuilds.forall₂_selectedMethods selection
  have hfirst : Option.Rel (scope.IsModelOf decl) (selected.find? (!scope.tests decl ·))
      ((type.selectedMethods selection).find? (!·.isTested)) := by
    refine rel_find?_of_forall₂ hselected fun method model hmodel => ?_
    rw [hmodel.isTested_eq]
  have hshape : ∀ cause, build settings type selection = .error (.shape cause) →
      settings.tables.Causes cause := by
    intro cause hcause
    rw [hcause] at houtcome
    exact houtcome.2
  refine ⟨?untested, hshape, ?standard, ?planned⟩
  case untested =>
    intro name method
    constructor
    · intro hrefused
      rw [hrefused] at houtcome
      obtain ⟨rfl, model, hmodel, rfl⟩ := houtcome
      rw [hmodel] at hfirst
      refine ⟨hbuilds.erasedName_eq, ?_⟩
      generalize selected.find? _ = found at hfirst
      cases hfirst with
      | some hmodel => exact ⟨_, rfl, hmodel.name_eq.symm⟩
    · rintro ⟨rfl, first, hfound, rfl⟩
      obtain ⟨model, hmodel, hrelated⟩ : ∃ model,
          (type.selectedMethods selection).find? (!·.isTested) = some model ∧
            scope.IsModelOf decl first model := by
        rw [hfound] at hfirst
        generalize (type.selectedMethods selection).find? _ = found at hfirst
        cases hfirst with
        | some hrelated => exact ⟨_, rfl, hrelated⟩
      -- The two other outcomes have no untested method among the selected ones.
      rw [hmodel] at houtcome
      cases hplan : build settings type selection with
      | ok plan =>
          rw [hplan] at houtcome
          cases houtcome.1
      | error cause =>
          rw [hplan] at houtcome
          cases cause with
          | shape cause => cases houtcome.1
          | notTestable name method =>
              obtain ⟨rfl, _, hsame, rfl⟩ := houtcome
              cases hsame
              rw [hbuilds.erasedName_eq, hrelated.name_eq]
  case standard =>
    rintro hshapes hnested cause hcause
    obtain ⟨entry, hentry, -, hmisspells⟩ := hshape cause hcause
    rw [hshapes, hnested, List.mem_append, or_self] at hentry
    exact ContainerShapes.not_misspells_standard hentry _ hmisspells
  case planned =>
    intro hnone
    cases hplan : build settings type selection with
    | error cause => exact absurd hplan (hnone cause)
    | ok plan =>
        rw [hplan] at houtcome
        have hmembers : ∀ model ∈ type.selectedMethods selection, model ∈ type.methods :=
          fun model hmodel => (List.mem_filter.mp hmodel).1
        refine ⟨plan, rfl,
          forall₂_comp (forall₂_and_right hselected hmembers) houtcome.2 ?_⟩
        rintro method model feature ⟨hmodel, hmember⟩ hfeature
        obtain ⟨_, _, _, -, -, -, rfl⟩ := Settings.featurePlan_cases hfeature
        exact ⟨hmodel.name_eq, model, hmember, hmodel.id_eq, hfeature⟩

end TestPlan

/-! ## A selection with an accessor in it -/

/-- A parcel that is weighed and has an owner. -/
def parcelClass : ClassDecl where
  name := "post.Parcel"
  methods := [
    { name := "weigh", modifiers := [.publicAccess], returnType := some (.primitive "int") },
    { name := "getOwner"
      modifiers := [.publicAccess]
      returnType := some (.named "post.Owner") }]

def parcelScope : Scope where
  snapshot := .ofClasses [parcelClass]
  subject := parcelClass
  options := ⟨1, []⟩
  held := rfl

namespace TestPlan

/-- The accessor spoils the plan, although the other method could be tested. -/
theorem build_refuses_untested_or_misspelt_parcelScope :
    parcelScope.Builds parcelClass ((Session.extractSubject parcelScope).run .empty).1 ∧
      build .standard ((Session.extractSubject parcelScope).run .empty).1 ["getOwner", "weigh"] =
        .error (.notTestable "post.Parcel" "getOwner") := by
  have hbuilds : parcelScope.Builds parcelClass
      ((Session.extractSubject parcelScope).run .empty).1 := .subject .empty trivial
  obtain ⟨huntested, -⟩ :=
    build_refuses_untested_or_misspelt hbuilds .standard ["getOwner", "weigh"]
  exact ⟨hbuilds, (huntested _ _).mpr ⟨rfl, _, rfl, rfl⟩⟩

end TestPlan

end Specwright
