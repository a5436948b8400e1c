import Specwright.Proofs.Model.Names
import Specwright.Proofs.Session.Throughout
import Specwright.Proofs.Text.Composition

/-!
# Texts in models

Where all names in a snapshot have a property that is kept when texts are composed, so have the
names and spellings in every model that is built from it.
-/

namespace Specwright

variable {good : String → Prop}

/-! ## Spellings -/

namespace Text.Compositional

theorem dimsText (hgood : Compositional good) (dims : Nat) : good (TypeRef.dimsText dims) := by
  refine hgood.join fun text htext => ?_
  rw [List.eq_of_mem_replicate htext]
  exact hgood.bracketed hgood.empty

theorem erasure
    (hgood : Compositional good) {type : TypeRef} (h : ∀ name ∈ type.names, good name) :
    good type.erasure :=
  hgood.append (h _ (TypeRef.mem_names_iff.mpr (Or.inl rfl))) (hgood.dimsText _)

mutual

theorem spelling (hgood : Compositional good) :
    ∀ {type : TypeRef}, (∀ name ∈ type.names, good name) → good type.spelling
  | ⟨name, args, kind, dims⟩, h => by
    rw [TypeRef.names, List.forall_mem_cons] at h
    rw [TypeRef.spelling]
    refine hgood.append (hgood.append h.1 ?_) (hgood.dimsText dims)
    split
    · exact hgood.empty
    · have hargs := hgood.intercalate (hgood.neutral rfl : good ",") (spellings hgood h.2)
      exact hgood.append (hgood.append (hgood.neutral rfl) hargs) (hgood.neutral rfl)

theorem spellings (hgood : Compositional good) :
    ∀ {types : List TypeRef}, (∀ name ∈ TypeRef.listNames types, good name) →
      ∀ text ∈ TypeRef.spellings types, good text
  | [], _ => by
    intro text htext
    cases htext
  | type :: rest, h => by
    rw [TypeRef.listNames, List.forall_mem_append] at h
    rw [TypeRef.spellings, List.forall_mem_cons]
    exact ⟨spelling hgood h.1, spellings hgood h.2⟩

end

end Text.Compositional

/-! ## Models -/

/-- All that is written of a type. -/
def TypeModel.texts (type : TypeModel) : List String :=
  type.spelling :: type.erasedName :: type.facts.enumValues

namespace ModelPart

/-- All that is written of a part itself. -/
def texts : ModelPart → List String
  | .type known => known.texts
  | .field known => [known.name]
  | .method known => [known.name]
  | .param known => [known.name]
  | .use _ => []

/-- Whether all that is written of a part itself has a property. -/
def TextsWithin (good : String → Prop) (part : ModelPart) : Prop :=
  ∀ text ∈ part.texts, good text

end ModelPart

namespace Scope

variable {scope : Scope}

theorem textsWithin_nameOnly (hgood : Text.Compositional good)
    {ref : TypeRef} (h : ∀ name ∈ ref.names, good name) :
    (ModelPart.type (.nameOnly ref)).TextsWithin good :=
  List.forall_mem_cons.mpr
    ⟨hgood.spelling h, List.forall_mem_singleton.mpr (hgood.erasure h)⟩

/-- A scope of names with such a property grants parts with texts of that kind, whether they have
bodies or not. -/
theorem grantsBodies_textsWithin
    (hgood : Text.Compositional good) (h : scope.snapshot.NamesWithin good) :
    scope.GrantsBodies (fun ref => ∀ name ∈ ref.names, good name)
      (ModelPart.TextsWithin good) where
  bare hwithin := textsWithin_nameOnly hgood hwithin
  expanded {same below bodies ref type} hwithin hexpands := by
    have hnames := hexpands.names_eq
    have hspelling : type.spelling = ref.spelling := by rw [TypeModel.spelling, hnames]; rfl
    have herased : type.erasedName = ref.erasure := by rw [TypeModel.erasedName, hnames]; rfl
    refine List.forall_mem_cons.mpr ⟨?_, List.forall_mem_cons.mpr ⟨?_, ?_⟩⟩
    · rw [hspelling]
      exact hgood.spelling hwithin
    · rw [herased]
      exact hgood.erasure hwithin
    · intro constant hconstant
      cases hexpands with
      | array => cases hconstant
      | named => cases hconstant
      | outside => cases hconstant
      | declared hfound => exact h.enumConstant (Snapshot.mem_of_find? hfound) hconstant
  field hbelongs := List.forall_mem_singleton.mpr (h.field hbelongs)
  param hbelongs hparam := List.forall_mem_singleton.mpr
    (h.ofMethod hbelongs (List.mem_cons_of_mem _ (List.mem_map_of_mem hparam)))
  use {_ _} := by
    intro text htext
    cases htext
  method hbelongs := List.forall_mem_singleton.mpr (h.ofMethod hbelongs List.mem_cons_self)
  own hbelongs _ := List.forall_mem_singleton.mpr (h.ofMethod hbelongs List.mem_cons_self)

end Scope

namespace Session

/-- Where all names in the snapshot have such a property, all that is written of any part of the
class under test has it. -/
theorem extractSubject_textsWithin
    {scope : Scope} (hgood : Text.Compositional good) (h : scope.snapshot.NamesWithin good) :
    (ModelPart.type ((extractSubject scope).run .empty).1).Throughout
      (ModelPart.TextsWithin good) := by
  have hencloses := Scope.encloses_of_hereditary (TypeRef.hereditary_names good) h.refsWithin
  have hextract := extractSubject_throughout (Scope.grantsBodies_textsWithin hgood h) hencloses
  exact (hextract .empty TypeCache.throughout_empty).1

end Session

end Specwright
