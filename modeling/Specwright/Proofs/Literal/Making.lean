import Specwright.Literal.DataTable
import Specwright.Proofs.Contract
import Specwright.Proofs.Pointwise

/-!
# How literals are made

A literal is made in one of five ways from the tables and from the literals of the types inside.  A
contract that has a rule for each of them holds of all literals, and of the data tables made of
them.
-/

namespace Specwright

namespace ContainerShapes

variable {table : ContainerShapes} {name : String} {supertypes : List String} {shape : String}

theorem exists_entry_of_shapeFor? (h : table.shapeFor? name supertypes = some shape) :
    ∃ entry ∈ table.entries, entry.shape = shape := by
  rcases Option.or_eq_some_iff.mp h with hown | ⟨-, habove⟩
  · obtain ⟨entry, hentry, hshape⟩ := Option.map_eq_some_iff.mp hown
    exact ⟨entry, List.mem_of_find?_eq_some hentry, hshape⟩
  · obtain ⟨entry, hentry, hshape⟩ := Option.map_eq_some_iff.mp habove
    exact ⟨entry, List.mem_of_find?_eq_some hentry, hshape⟩

end ContainerShapes

namespace ExpressionTables

/-- What makes the literals of the types in a set good: the set is closed under the types that
literals are made for, and every way to make one keeps to good texts. -/
structure LiteralRules
    (tables : ExpressionTables) (contract : Contract (Except ShapeError))
    (within : TypeModel → Prop) (good : String → Prop) : Prop where
  arg {type arg : TypeModel} : within type → arg ∈ type.args → within arg
  element {type element : TypeModel} : within type → type.element = some element → within element
  default {type : TypeModel} {literal : String} :
    within type → tables.defaults.get? type.erasedName = some literal → good literal
  array {type : TypeModel} {value : String} :
    within type → good value → good ("[" ++ value ++ "] as " ++ type.erasedName)
  fill {type : TypeModel} {entry : ContainerShape} {values : List String} :
    within type → entry ∈ tables.shapes.entries ++ tables.nestedShapes.entries →
      (∀ value ∈ values, good value) →
        contract.Ensures (Shape.fill entry.shape values (type.args.map (·.spelling))) good
  constructed {type : TypeModel} : within type → good type.constructedLiteral

variable {tables : ExpressionTables} {contract : Contract (Except ShapeError)}
variable {within : TypeModel → Prop} {good : String → Prop} {label : String}

mutual

/-- The literal of a type in the set is good when it can be made. -/
theorem literal_ensures
    (rules : tables.LiteralRules contract within good) (hlabel : good (quotedLabel label))
    {shapes : ContainerShapes}
    (hshapes : shapes.entries ⊆ tables.shapes.entries ++ tables.nestedShapes.entries) :
    ∀ type : TypeModel, within type → contract.Ensures (tables.literal label shapes type) good
  | ⟨names, facts, populated, args, element, fields, methods⟩, h => by
    rw [literal.eq_def]
    dsimp only
    split
    next literal hdefault => exact Contract.ensures_ok (rules.default h hdefault)
    next =>
      split
      · exact Contract.ensures_ok hlabel
      · match element with
        | some element =>
            have helement : within element := rules.element h rfl
            have hliteral :=
              literal_ensures rules hlabel (List.subset_append_right _ _) element helement
            refine contract.ensures_bind hliteral fun value hvalue => ?_
            exact Contract.ensures_ok (rules.array h hvalue)
        | none =>
            dsimp only
            split
            next shape hshape =>
              obtain ⟨entry, hentry, rfl⟩ := ContainerShapes.exists_entry_of_shapeFor? hshape
              have hargs : ∀ arg ∈ args, within arg := fun arg harg => rules.arg h harg
              refine contract.ensures_bind (literals_ensures rules hlabel args hargs) ?_
              intro values hvalues
              -- The goal has the type in parts, which hides it from the rule.
              have hfill := rules.fill h (hshapes hentry) hvalues
              exact hfill
            next => exact Contract.ensures_ok (rules.constructed h)

theorem literals_ensures
    (rules : tables.LiteralRules contract within good) (hlabel : good (quotedLabel label)) :
    ∀ types : List TypeModel, (∀ type ∈ types, within type) →
      contract.Ensures (tables.literals label types) fun values => ∀ value ∈ values, good value
  | [], _ => Contract.ensures_ok (by simp)
  | type :: rest, h => by
    obtain ⟨htype, hrest⟩ := List.forall_mem_cons.mp h
    rw [literals]
    have hliteral := literal_ensures rules hlabel (List.subset_append_right _ _) type htype
    refine contract.ensures_bind hliteral fun value hvalue => ?_
    refine contract.ensures_bind (literals_ensures rules hlabel rest hrest) fun values hvalues => ?_
    exact Contract.ensures_ok (List.forall_mem_cons.mpr ⟨hvalue, hvalues⟩)

end

/-! ## Data tables -/

theorem isSome_of_resultLiteral?
    {method : MethodModel} {result : Option String}
    (h : tables.resultLiteral? label method = .ok result) : result.isSome = method.givesValue := by
  rw [resultLiteral?] at h
  split at h
  next type htype =>
    split at h
    next hvalue =>
      cases hliteral : tables.topLiteral label type with
      | error cause => rw [hliteral] at h; cases h
      | ok literal => rw [hliteral] at h; cases h; exact hvalue.symm
    next hvoid =>
      cases h
      simpa using hvoid
  next hnone =>
    cases h
    simp [MethodModel.givesValue, hnone]

/-- A data table has a column for each parameter in order, and one for the expected result exactly
where the method gives a value. -/
theorem dataTable_cases
    {expectedColumn : String} {method : MethodModel} {table : DataTable}
    (h : tables.dataTable expectedColumn method = .ok table) :
    table.inputs.map (·.name) = method.params.map (·.name) ∧
      ∃ result : Option String, result.isSome = method.givesValue ∧
        table.expected = result.map fun value => ⟨expectedColumn, value⟩ := by
  rw [dataTable] at h
  obtain ⟨inputs, hinputs, h⟩ := Contract.exists_of_bind_eq_ok h
  obtain ⟨result, hresult, h⟩ := Contract.exists_of_bind_eq_ok h
  cases h
  have hnamed : ∀ param ∈ method.params,
      (Contract.ofSuccess ShapeError).Ensures (tables.inputColumn param)
        (fun column => column.name = param.name) := by
    intro param _ column hcolumn
    obtain ⟨value, -, hcolumn⟩ := Contract.exists_of_bind_eq_ok hcolumn
    cases hcolumn
    rfl
  have hnames := Contract.ensures_mapM _ hnamed inputs hinputs
  refine ⟨?_, result, isSome_of_resultLiteral? hresult, rfl⟩
  exact (map_eq_of_forall₂ hnames fun _ _ hname => hname.symm).symm

section Tables

variable (rules : tables.LiteralRules contract within good)

include rules

theorem topLiteral_ensures
    (hlabel : good (quotedLabel label)) {type : TypeModel} (h : within type) :
    contract.Ensures (tables.topLiteral label type) good :=
  literal_ensures rules hlabel (List.subset_append_left _ _) type h

theorem resultLiteral?_ensures
    (hlabel : good (quotedLabel label)) {method : MethodModel}
    (hreturn : ∀ type ∈ method.returnType, within type) :
    contract.Ensures (tables.resultLiteral? label method) fun value =>
      ∀ literal ∈ value, good literal := by
  rw [resultLiteral?]
  split
  next type htype =>
    split
    · have hliteral := topLiteral_ensures rules hlabel (hreturn type htype)
      change contract.Ensures (some <$> tables.topLiteral label type) _
      rw [map_eq_pure_bind]
      refine contract.ensures_bind hliteral fun value hvalue => ?_
      exact contract.ensures_pure (by simpa using hvalue)
    · exact Contract.ensures_ok (by simp)
  next => exact Contract.ensures_ok (by simp)

/-- The columns of a data table have the names of the parameters, or that of the expected result,
and good values. -/
theorem dataTable_ensures
    {expectedColumn : String} (hcolumn : good (quotedLabel expectedColumn)) {method : MethodModel}
    (hparams : ∀ param ∈ method.params, good (quotedLabel param.name) ∧ within param.type)
    (hreturn : ∀ type ∈ method.returnType, within type) :
    contract.Ensures (tables.dataTable expectedColumn method) fun table =>
      (∀ column ∈ table.inputs,
        (∃ param ∈ method.params, column.name = param.name) ∧ good column.value) ∧
      ∀ column ∈ table.expected, column.name = expectedColumn ∧ good column.value := by
  have hinputs : ∀ param ∈ method.params,
      contract.Ensures (tables.inputColumn param) fun column =>
        (∃ param ∈ method.params, column.name = param.name) ∧ good column.value := by
    intro param hparam
    obtain ⟨hlabel, htype⟩ := hparams param hparam
    refine contract.ensures_bind (topLiteral_ensures rules hlabel htype) fun value hvalue => ?_
    exact contract.ensures_pure ⟨⟨param, hparam, rfl⟩, hvalue⟩
  refine contract.ensures_bind (contract.ensures_forall_mapM hinputs) fun inputs hinputs => ?_
  refine contract.ensures_bind (resultLiteral?_ensures rules hcolumn hreturn) ?_
  intro result hresult
  refine contract.ensures_pure ⟨hinputs, ?_⟩
  intro column hexpected
  obtain ⟨value, hvalue, rfl⟩ := Option.map_eq_some_iff.mp hexpected
  exact ⟨rfl, hresult value hvalue⟩

end Tables

end ExpressionTables

end Specwright
