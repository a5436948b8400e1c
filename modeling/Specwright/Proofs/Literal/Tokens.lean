import Mathlib.Data.List.TakeWhile
import Specwright.Proofs.Literal.Making

/-!
# Why a literal cannot be made

A shape is refused for a capital word in angle brackets that is no placeholder.  Literals fail for
no other reason: whatever the type is, the cause is such a word in an entry of one of the two tables
of shapes.
-/

namespace Specwright

namespace Shape

/-- Whether a text has a token somewhere: a capital word in angle brackets. -/
def HasToken (text : List Char) (token : String) : Prop :=
  ∃ before word after : List Char,
    text = before ++ '<' :: (word ++ '>' :: after) ∧ word ≠ [] ∧
      (∀ c ∈ word, isCapital c = true) ∧ token = String.ofList ('<' :: word ++ ['>'])

theorem leadingToken?_eq_some_iff {text : List Char} {token : String} :
    leadingToken? text = some token ↔
      ∃ word after : List Char,
        text = '<' :: (word ++ '>' :: after) ∧ word ≠ [] ∧
          (∀ c ∈ word, isCapital c = true) ∧ token = String.ofList ('<' :: word ++ ['>']) := by
  constructor
  · intro h
    rw [leadingToken?.eq_def] at h
    split at h
    next rest =>
      have hrest : rest.takeWhile isCapital ++ rest.dropWhile isCapital = rest :=
        List.takeWhile_append_dropWhile
      have hword : ∀ c ∈ rest.takeWhile isCapital, isCapital c = true :=
        fun c hc => List.mem_takeWhile_imp hc
      split at h
      · cases h
      next _ after hafter hsome =>
        refine ⟨rest.takeWhile isCapital, after, ?_, hsome, hword, (Option.some.inj h).symm⟩
        rw [← hafter, hrest]
      · cases h
    next => cases h
  · rintro ⟨word, after, rfl, hsome, hword, rfl⟩
    have htake : (word ++ '>' :: after).takeWhile isCapital = word := by
      rw [List.takeWhile_append_of_pos hword, List.takeWhile_cons_of_neg (by decide),
        List.append_nil]
    have hdrop : (word ++ '>' :: after).dropWhile isCapital = '>' :: after := by
      rw [List.dropWhile_append_of_pos hword, List.dropWhile_cons_of_neg (by decide)]
    rw [leadingToken?, htake, hdrop]
    cases word with
    | nil => exact absurd rfl hsome
    | cons => rfl

/-- The tokens that are listed are those that the text has. -/
theorem mem_tokens_iff {text : List Char} {token : String} :
    token ∈ tokens text ↔ HasToken text token := by
  induction text with
  | nil =>
      constructor
      · intro h
        cases h
      · rintro ⟨before, word, after, heq, -⟩
        simp at heq
  | cons c rest ih =>
      rw [tokens, List.mem_append, Option.mem_toList, leadingToken?_eq_some_iff, ih]
      constructor
      · rintro (⟨word, after, heq, hword⟩ | ⟨before, word, after, heq, hword⟩)
        · exact ⟨[], word, after, heq, hword⟩
        · exact ⟨c :: before, word, after, by rw [heq, List.cons_append], hword⟩
      · rintro ⟨before, word, after, heq, hword⟩
        cases before with
        | nil => exact Or.inl ⟨word, after, heq, hword⟩
        | cons first before =>
            obtain ⟨rfl, hrest⟩ := List.cons.inj heq
            exact Or.inr ⟨before, word, after, hrest, hword⟩

/-- Whether a shape has a token that is no placeholder. -/
def Misspells (shape token : String) : Prop :=
  HasToken shape.toList token ∧ token ≠ valueMark ∧ token ≠ typesMark

theorem misspells_of_unknownToken? {shape token : String} (h : unknownToken? shape = some token) :
    Misspells shape token := by
  have hmem : token ∈ tokens shape.toList := List.mem_of_find?_eq_some h
  have hother := List.find?_some h
  rw [Bool.and_eq_true, decide_eq_true_iff, decide_eq_true_iff] at hother
  exact ⟨mem_tokens_iff.mp hmem, hother⟩

theorem unknownToken?_eq_none_iff {shape : String} :
    unknownToken? shape = none ↔ ∀ token, ¬Misspells shape token := by
  rw [unknownToken?, List.find?_eq_none]
  constructor
  · rintro h token ⟨htoken, hvalue, htypes⟩
    exact h token (mem_tokens_iff.mpr htoken) (by simp [hvalue, htypes])
  · intro h token htoken hother
    rw [Bool.and_eq_true, decide_eq_true_iff, decide_eq_true_iff] at hother
    exact h token ⟨mem_tokens_iff.mp htoken, hother⟩

/-! ## The first token -/

/-- A token does not reach over the start of another one. -/
theorem leadingToken?_append (c : Char) (before rest : List Char) :
    leadingToken? (c :: (before ++ '<' :: rest)) = leadingToken? (c :: before) := by
  ext token
  rw [leadingToken?_eq_some_iff, leadingToken?_eq_some_iff]
  constructor
  · rintro ⟨word, after, heq, hsome, hword, htoken⟩
    obtain ⟨rfl, hrest⟩ := List.cons.inj heq
    have hstart : '<' ∉ word ++ ['>'] := by
      intro hmem
      rcases List.mem_append.mp hmem with hmem | hmem
      · exact absurd (hword _ hmem) (by decide)
      · exact absurd hmem (by decide)
    rw [List.append_cons word] at hrest
    rcases List.append_eq_append_iff.mp hrest with ⟨beyond, hbeyond, hbehind⟩ | ⟨behind, hbefore, -⟩
    · cases beyond with
      | nil => exact ⟨word, [], by simpa using hbeyond.symm, hsome, hword, htoken⟩
      | cons first beyond =>
          obtain ⟨rfl, -⟩ := List.cons.inj hbehind
          rw [hbeyond] at hstart
          simp at hstart
    · exact ⟨word, behind, by simp [hbefore], hsome, hword, htoken⟩
  · rintro ⟨word, after, heq, hword⟩
    obtain ⟨rfl, rfl⟩ := List.cons.inj heq
    exact ⟨word, after ++ '<' :: rest, by simp, hword⟩

/-- The tokens of a text in which another one may start are those before it and those from there. -/
theorem tokens_append (before rest : List Char) :
    tokens (before ++ '<' :: rest) = tokens before ++ tokens ('<' :: rest) := by
  induction before with
  | nil => rfl
  | cons c before ih =>
      rw [List.cons_append, tokens, leadingToken?_append, ih, ← List.append_assoc]
      rfl

/-- The first token of a kind is the one before which there is none of the kind. -/
theorem find?_tokens_eq_some_iff {wanted : String → Bool} {text : List Char} {token : String} :
    (tokens text).find? wanted = some token ↔
      ∃ before word after : List Char,
        text = before ++ '<' :: (word ++ '>' :: after) ∧ word ≠ [] ∧
          (∀ c ∈ word, isCapital c = true) ∧ token = String.ofList ('<' :: word ++ ['>']) ∧
          wanted token = true ∧ ∀ other, HasToken before other → wanted other = false := by
  constructor
  · intro h
    induction text with
    | nil => cases h
    | cons c rest ih =>
        rw [tokens, List.find?_append, Option.or_eq_some_iff] at h
        rcases h with hleading | ⟨hleading, hrest⟩
        · have hwanted : wanted token = true := List.find?_some hleading
          obtain ⟨word, after, heq, hsome, hword, htoken⟩ := leadingToken?_eq_some_iff.mp
            (Option.mem_toList.mp (List.mem_of_find?_eq_some hleading))
          refine ⟨[], word, after, heq, hsome, hword, htoken, hwanted, fun other hother => ?_⟩
          cases mem_tokens_iff.mpr hother
        · obtain ⟨before, word, after, rfl, hsome, hword, htoken, hwanted, hbefore⟩ := ih hrest
          refine ⟨c :: before, word, after, rfl, hsome, hword, htoken, hwanted, ?_⟩
          intro other hother
          have hmem := mem_tokens_iff.mpr hother
          rw [tokens, ← leadingToken?_append c before (word ++ '>' :: after)] at hmem
          rcases List.mem_append.mp hmem with hmem | hmem
          · simpa using List.find?_eq_none.mp hleading other hmem
          · exact hbefore other (mem_tokens_iff.mp hmem)
  · rintro ⟨before, word, after, rfl, hsome, hword, htoken, hwanted, hbefore⟩
    have hnone : (tokens before).find? wanted = none :=
      List.find?_eq_none.mpr fun other hother => by simp [hbefore other (mem_tokens_iff.mp hother)]
    have hleading : leadingToken? ('<' :: (word ++ '>' :: after)) = some token :=
      leadingToken?_eq_some_iff.mpr ⟨word, after, rfl, hsome, hword, htoken⟩
    rw [tokens_append, List.find?_append, hnone, tokens, hleading]
    simp [hwanted]

/-- Whether a token is no placeholder, and all that stand before it in the shape are
placeholders. -/
def MisspellsFirst (shape token : String) : Prop :=
  ∃ before word after : List Char,
    shape.toList = before ++ '<' :: (word ++ '>' :: after) ∧ word ≠ [] ∧
      (∀ c ∈ word, isCapital c = true) ∧ token = String.ofList ('<' :: word ++ ['>']) ∧
      (token ≠ valueMark ∧ token ≠ typesMark) ∧
      ∀ other, HasToken before other → other = valueMark ∨ other = typesMark

theorem unknownToken?_eq_some_iff {shape token : String} :
    unknownToken? shape = some token ↔ MisspellsFirst shape token := by
  rw [unknownToken?, find?_tokens_eq_some_iff, MisspellsFirst]
  simp only [Bool.and_eq_true, Bool.and_eq_false_iff, decide_eq_true_iff, decide_eq_false_iff_not,
    not_not]

end Shape

/-! ## Causes of failure -/

namespace ExpressionTables

/-- Whether a shape in one of the tables is the cause of a failure, by a token that is no
placeholder. -/
def Causes (tables : ExpressionTables) (cause : ShapeError) : Prop :=
  ∃ entry ∈ tables.shapes.entries ++ tables.nestedShapes.entries,
    entry.shape = cause.shape ∧ Shape.Misspells entry.shape cause.placeholder

/-- The contract of literals: they can be made, or a shape in the tables is the cause. -/
def sparing (tables : ExpressionTables) : Contract (Except ShapeError) :=
  .ofOutcome tables.Causes

end ExpressionTables

namespace ContainerShapes

/-- The standard shapes have no tokens but the placeholders. -/
theorem not_misspells_standard {entry : ContainerShape} (h : entry ∈ standard.entries)
    (token : String) : ¬Shape.Misspells entry.shape token := by
  have hall : ∀ entry ∈ standard.entries, Shape.unknownToken? entry.shape = none := by
    decide +kernel
  exact Shape.unknownToken?_eq_none_iff.mp (hall entry h) token

end ContainerShapes

namespace ExpressionTables

variable {tables : ExpressionTables}

theorem fill_sparing
    {entry : ContainerShape} (h : entry ∈ tables.shapes.entries ++ tables.nestedShapes.entries)
    (values types : List String) :
    tables.sparing.Ensures (Shape.fill entry.shape values types) fun _ => True := by
  rw [Shape.fill]
  split
  next token htoken => exact ⟨entry, h, rfl, Shape.misspells_of_unknownToken? htoken⟩
  next => exact trivial

/-- Filling a shape is the only step in making a literal that can fail. -/
theorem literalRules_sparing (tables : ExpressionTables) :
    tables.LiteralRules tables.sparing (fun _ => True) fun _ => True where
  arg _ _ := trivial
  element _ _ := trivial
  default _ _ := trivial
  array _ _ := trivial
  fill _ hentry _ := fill_sparing hentry _ _
  constructed _ := trivial

/-- The literal of a type can be made, or a shape in the tables is the cause. -/
theorem topLiteral_sparing (tables : ExpressionTables) (label : String) (type : TypeModel) :
    tables.sparing.Ensures (tables.topLiteral label type) fun _ => True :=
  topLiteral_ensures tables.literalRules_sparing trivial trivial

end ExpressionTables

end Specwright
