import Specwright.Proofs.Literal.Making
import Specwright.Proofs.Session.Texts

/-!
# Texts in literals

Where the texts in the tables have a property that is kept when texts are composed and shapes are
filled, and so has all that is written of the types, literals have it as well.
-/

namespace Specwright

/-! ## What is put into shapes -/

namespace Text.Compositional

variable {good : String → Prop}

theorem typeList
    (hgood : Compositional good) {types : List String} (h : ∀ type ∈ types, good type) :
    good (Shape.typeList types) := by
  rw [Shape.typeList]
  split
  · exact hgood.empty
  · have hinside := hgood.intercalate (hgood.neutral rfl : good ",") h
    exact hgood.append (hgood.append (hgood.neutral rfl) hinside) (hgood.neutral rfl)

theorem valueFor
    (hgood : Compositional good) {values : List String} (h : ∀ value ∈ values, good value)
    (index : Nat) : good (Shape.valueFor values index) := by
  rw [Shape.valueFor]
  cases hvalue : values[index]?.or values.getLast? with
  | none => exact hgood.neutral rfl
  | some value =>
      rcases Option.or_eq_some_iff.mp hvalue with hown | ⟨-, hlast⟩
      · exact h value (List.mem_of_getElem? hown)
      · exact h value (List.mem_of_getLast? hlast)

end Text.Compositional

/-- Whether a property of texts is kept when texts are composed and values are put between the
pieces of a shape. -/
structure Text.LiteralProperty (good : String → Prop) : Prop extends Compositional good where
  weave {shape : String} {values : List String} :
    good shape → (∀ value ∈ values, good value) →
      good (String.ofList
        (Shape.weave values 0 (splitAtPattern Shape.valueMark shape.toList)))

namespace Text.LiteralProperty

variable {good : String → Prop}

/-- A good shape filled with good values and types is good. -/
theorem fill
    (hgood : LiteralProperty good) {shape filled : String} {values types : List String}
    (hshape : good shape) (hvalues : ∀ value ∈ values, good value)
    (htypes : ∀ type ∈ types, good type) (h : Shape.fill shape values types = .ok filled) :
    good filled := by
  have htyped : good (Text.replaceAll Shape.typesMark (Shape.typeList types) shape) :=
    hgood.replaceAll (by decide) (hgood.neutral rfl) (hgood.typeList htypes) hshape
  rw [Shape.fill] at h
  split at h
  next => cases h
  next =>
    rw [← Except.ok.inj h]
    exact hgood.weave htyped hvalues

end Text.LiteralProperty

/-! ## Tables -/

/-- The texts that a table of containers gives. -/
def ContainerShapes.texts (table : ContainerShapes) : List String :=
  table.entries.map (·.shape)

/-- The texts that the tables give. -/
def ExpressionTables.texts (tables : ExpressionTables) : List String :=
  tables.shapes.texts ++ tables.nestedShapes.texts ++ tables.defaults.entries.map (·.2) ++
    tables.matchers.entries.flatMap fun dialect => dialect.2.entries.map (·.2)

namespace SortedMap

theorem mem_map_of_get?
    {α : Type} {map : SortedMap α} {key : String} {value : α} (h : map.get? key = some value) :
    value ∈ map.entries.map (·.2) := by
  obtain ⟨before, after, heq, -⟩ := List.lookup_eq_some_iff.mp h
  exact List.mem_map.mpr ⟨(key, value), by simp [heq], rfl⟩

/-- What holds of the entries of which a map is made holds of the entries that it has. -/
theorem forall_mem_ofList
    {α : Type} {holds : String × α → Prop} {entries : List (String × α)}
    (h : ∀ entry ∈ entries, holds entry) : ∀ entry ∈ (ofList entries).entries, holds entry := by
  let keeps (map : SortedMap α) : Prop := ∀ entry ∈ map.entries, holds entry
  apply List.foldlRecOn (motive := keeps) entries
  · intro entry hentry
    cases hentry
  · intro map hmap last hlast entry hentry
    rcases key_of_mem_insertEntry hentry with rfl | hbefore
    · exact h last hlast
    · exact hmap entry hbefore

end SortedMap

variable {good : String → Prop} {tables : ExpressionTables}

namespace ExpressionTables

theorem forall_mem_texts :
    (∀ text ∈ tables.texts, good text) ↔
      (((∀ entry ∈ tables.shapes.entries, good entry.shape) ∧
        ∀ entry ∈ tables.nestedShapes.entries, good entry.shape) ∧
        ∀ entry ∈ tables.defaults.entries, good entry.2) ∧
        ∀ dialect ∈ tables.matchers.entries, ∀ entry ∈ dialect.2.entries, good entry.2 := by
  simp only [texts, ContainerShapes.texts, List.forall_mem_append, List.forall_mem_map,
    List.forall_mem_flatMap]

section Texts

variable (h : ∀ text ∈ tables.texts, good text)

include h

theorem good_shape
    {entry : ContainerShape}
    (hentry : entry ∈ tables.shapes.entries ++ tables.nestedShapes.entries) :
    good entry.shape := by
  have hmem : entry.shape ∈ tables.shapes.texts ++ tables.nestedShapes.texts := by
    rw [ContainerShapes.texts, ContainerShapes.texts, ← List.map_append]
    exact List.mem_map_of_mem hentry
  exact h _ (List.mem_append_left _ (List.mem_append_left _ hmem))

theorem good_default {key literal : String} (hdefault : tables.defaults.get? key = some literal) :
    good literal :=
  h _ (List.mem_append_left _ (List.mem_append_right _ (SortedMap.mem_map_of_get? hdefault)))

theorem good_matcher
    {dialect type matcher : String}
    (hmatcher : Matchers.matcher? tables.matchers dialect type = some matcher) :
    good matcher := by
  obtain ⟨matchers, hdialect, hmatcher⟩ := Option.bind_eq_some_iff.mp hmatcher
  have hmem : matcher ∈ matchers.entries.map (·.2) := by
    rcases Option.or_eq_some_iff.mp hmatcher with hown | ⟨-, hany⟩
    · exact SortedMap.mem_map_of_get? hown
    · exact SortedMap.mem_map_of_get? hany
  obtain ⟨entry, hentry, rfl⟩ := List.mem_map.mp (SortedMap.mem_map_of_get? hdialect)
  exact h _ (List.mem_append_right _ (List.mem_flatMap.mpr ⟨entry, hentry, hmem⟩))

end Texts

end ExpressionTables

/-! ## Literals -/

theorem Text.Compositional.quotedLabel
    (hgood : Compositional good) {label : String} (h : good label) : good (quotedLabel label) :=
  hgood.append (hgood.append (hgood.neutral rfl) h) (hgood.neutral rfl)

theorem TypeModel.good_constructedLiteral
    (hgood : Text.Compositional good) {type : TypeModel} (h : ∀ text ∈ type.texts, good text) :
    good type.constructedLiteral := by
  rw [texts, List.forall_mem_cons, List.forall_mem_cons] at h
  obtain ⟨-, herased, hconstants⟩ := h
  rw [constructedLiteral]
  split
  next constant _ _ hvalues =>
    have hconstant : good constant := hconstants constant (by simp [hvalues])
    exact hgood.append (hgood.append herased (hgood.neutral rfl)) hconstant
  next =>
    split
    · exact hgood.append (hgood.append (hgood.neutral rfl) herased)
        (hgood.parenthesized hgood.empty)
    · exact hgood.neutral rfl

namespace ExpressionTables

theorem literalRules_of_texts
    (hgood : Text.LiteralProperty good) (htables : ∀ text ∈ tables.texts, good text) :
    tables.LiteralRules (Contract.ofSuccess ShapeError)
      (fun type => (ModelPart.type type).Throughout (ModelPart.TextsWithin good)) good where
  arg htype harg := htype.of_has (.arg harg)
  element htype helement := htype.of_has (.element helement)
  default _ hdefault := good_default htables hdefault
  array {type value} htype hvalue := by
    have hname : good type.erasedName := htype.here _ (by simp [ModelPart.texts, TypeModel.texts])
    have hparts : "[" ++ value ++ "] as " ++ type.erasedName =
        ("[" ++ value ++ "]") ++ " as " ++ type.erasedName := by
      simp [String.append_assoc]
    rw [hparts]
    exact hgood.append (hgood.append (hgood.bracketed hvalue) (hgood.neutral rfl)) hname
  fill {type entry values} htype hentry hvalues := by
    intro filled hfilled
    refine hgood.fill (good_shape htables hentry) hvalues ?_ hfilled
    intro text htext
    obtain ⟨arg, harg, rfl⟩ := List.mem_map.mp htext
    exact (htype.of_has (.arg harg)).here _ List.mem_cons_self
  constructed htype := TypeModel.good_constructedLiteral hgood.toCompositional htype.here

end ExpressionTables

/-! ## Data tables -/

/-- The texts of a column. -/
def DataColumn.texts (column : DataColumn) : List String :=
  [column.name, column.value]

/-- The texts in a table. -/
def DataTable.texts (table : DataTable) : List String :=
  (table.inputs ++ table.expected.toList).flatMap DataColumn.texts

theorem DataColumn.forall_mem_texts {column : DataColumn} :
    (∀ text ∈ column.texts, good text) ↔ good column.name ∧ good column.value := by
  rw [texts, List.forall_mem_cons, List.forall_mem_singleton]

theorem DataTable.forall_mem_texts {table : DataTable} :
    (∀ text ∈ table.texts, good text) ↔
      (∀ column ∈ table.inputs, good column.name ∧ good column.value) ∧
        ∀ column ∈ table.expected, good column.name ∧ good column.value := by
  simp only [texts, List.forall_mem_flatMap, List.forall_mem_append, Option.mem_toList,
    Option.mem_def, DataColumn.forall_mem_texts]

theorem ExpressionTables.dataTable_texts
    (hgood : Text.LiteralProperty good) (htables : ∀ text ∈ tables.texts, good text)
    {expectedColumn : String} (hcolumn : good expectedColumn) {method : MethodModel}
    (h : (ModelPart.method method).Throughout (ModelPart.TextsWithin good)) :
    (Contract.ofSuccess ShapeError).Ensures (tables.dataTable expectedColumn method) fun table =>
      ∀ text ∈ table.texts, good text := by
  have hname : ∀ param ∈ method.params, good param.name := fun param hparam =>
    (h.of_has (.param hparam)).here _ List.mem_cons_self
  have htable := dataTable_ensures (literalRules_of_texts hgood htables)
    (hgood.quotedLabel hcolumn)
    (fun param hparam => ⟨hgood.quotedLabel (hname param hparam),
      (h.of_has (.param hparam)).of_has (.paramType param)⟩)
    fun type htype => h.of_has (.returnType htype)
  refine Contract.ensures_mono _ htable ?_
  rintro table ⟨hinputs, hexpected⟩
  rw [DataTable.forall_mem_texts]
  constructor
  · intro column hmem
    obtain ⟨⟨param, hparam, hsame⟩, hvalue⟩ := hinputs column hmem
    exact ⟨hsame ▸ hname param hparam, hvalue⟩
  · intro column hmem
    obtain ⟨hsame, hvalue⟩ := hexpected column hmem
    exact ⟨hsame ▸ hcolumn, hvalue⟩

end Specwright
