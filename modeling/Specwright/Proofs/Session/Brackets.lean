import Specwright.Proofs.Session.Texts

/-!
# Brackets in models

Where all names in a snapshot are balanced, so are the names and spellings in every model that is
built from it: a spelling adds only angle brackets, which are none here, and pairs of square ones.
-/

namespace Specwright

/-- Whether all that is written of a type is balanced. -/
structure TypeModel.WellBracketed (type : TypeModel) : Prop where
  spelling : Text.Balanced type.spelling
  erasedName : Text.Balanced type.erasedName
  enumValues : ∀ constant ∈ type.facts.enumValues, Text.Balanced constant

theorem TypeModel.wellBracketed_iff {type : TypeModel} :
    type.WellBracketed ↔ ∀ text ∈ type.texts, Text.Balanced text := by
  rw [texts, List.forall_mem_cons, List.forall_mem_cons]
  constructor
  · rintro ⟨hspelling, herased, hconstants⟩
    exact ⟨hspelling, herased, hconstants⟩
  · rintro ⟨hspelling, herased, hconstants⟩
    exact ⟨hspelling, herased, hconstants⟩

namespace ModelPart

/-- Whether all that is written of a part itself is balanced. -/
def WellBracketed : ModelPart → Prop
  | .type known => known.WellBracketed
  | .field known => Text.Balanced known.name
  | .method known => Text.Balanced known.name
  | .param known => Text.Balanced known.name
  | .use _ => True

/-- Whether all that is written of a part and of all that is in it is balanced. -/
abbrev Bracketed (part : ModelPart) : Prop :=
  part.Throughout WellBracketed

theorem wellBracketed_iff {part : ModelPart} :
    part.WellBracketed ↔ part.TextsWithin Text.Balanced := by
  cases part with
  | type known => exact TypeModel.wellBracketed_iff
  | field known => simp [WellBracketed, TextsWithin, texts]
  | method known => simp [WellBracketed, TextsWithin, texts]
  | param known => simp [WellBracketed, TextsWithin, texts]
  | use known => simp [WellBracketed, TextsWithin, texts]

theorem bracketed_iff {part : ModelPart} :
    part.Bracketed ↔ part.Throughout (TextsWithin Text.Balanced) :=
  forall₂_congr fun _ _ => wellBracketed_iff

end ModelPart

/-- Where all names in the snapshot are balanced, all that is written of any part of the class under
test is. -/
theorem Session.extractSubject_bracketed
    {scope : Scope} (h : scope.snapshot.NamesWithin Text.Balanced) :
    (ModelPart.type ((extractSubject scope).run .empty).1).Bracketed :=
  ModelPart.bracketed_iff.mpr (extractSubject_textsWithin Text.compositional_balanced h)

end Specwright
