import Specwright.Proofs.Literal.Tokens
import Specwright.Proofs.Text.Pieces

/-!
# Filling a shape at once and in turn

A shape asks for its placeholders to be filled at once: it is read from left to right, and what is
put in is not read again.  In fact the type arguments are put in first and the result is read for
the places of values.  The two agree, whatever the values are, exactly when putting in the type
arguments makes no place of a value that the shape does not have.
-/

namespace Specwright

namespace Text

variable {pattern replacement : List Char}

/-! ## Pieces step by step -/

theorem piecesFrom_eq_drop (pattern : List Char) (skip : Nat) (text : List Char) :
    piecesFrom pattern skip text = piecesFrom pattern 0 (text.drop skip) := by
  induction text generalizing skip with
  | nil => cases skip <;> simp [piecesFrom]
  | cons c rest ih =>
      cases skip with
      | zero => rfl
      | succ skip => exact ih skip

/-- An occurrence of the pattern ends the first piece. -/
theorem piecesFrom_pattern_append (hpattern : pattern ≠ []) (rest : List Char) :
    piecesFrom pattern 0 (pattern ++ rest) = [] :: piecesFrom pattern 0 rest := by
  obtain ⟨first, others, rfl⟩ := List.exists_cons_of_ne_nil hpattern
  have hprefix : (first :: others).isPrefixOf (first :: (others ++ rest)) = true :=
    List.isPrefixOf_iff_prefix.mpr (List.prefix_append (first :: others) rest)
  rw [List.cons_append, piecesFrom, if_pos hprefix, piecesFrom_eq_drop]
  simp

/-- A character with which no occurrence starts belongs to the first piece. -/
theorem piecesFrom_cons {c : Char} {rest : List Char} (h : ¬pattern <+: c :: rest) :
    ∃ piece pieces, piecesFrom pattern 0 rest = piece :: pieces ∧
      piecesFrom pattern 0 (c :: rest) = (c :: piece) :: pieces := by
  obtain ⟨piece, pieces, hpieces⟩ := List.exists_cons_of_ne_nil (piecesFrom_ne_nil pattern 0 rest)
  refine ⟨piece, pieces, hpieces, ?_⟩
  rw [piecesFrom, if_neg fun hprefix => h (List.isPrefixOf_iff_prefix.mp hprefix), hpieces]

/-- A character with which no occurrence starts is kept in front. -/
theorem intercalate_piecesFrom_cons {c : Char} {rest : List Char} (h : ¬pattern <+: c :: rest) :
    replacement.intercalate (piecesFrom pattern 0 (c :: rest)) =
      c :: replacement.intercalate (piecesFrom pattern 0 rest) := by
  obtain ⟨piece, pieces, hrest, hcons⟩ := piecesFrom_cons h
  rw [hcons, hrest, List.intercalate_cons_cons_left]

/-- An occurrence in front is replaced. -/
theorem intercalate_piecesFrom_pattern_append (hpattern : pattern ≠ []) (rest : List Char) :
    replacement.intercalate (piecesFrom pattern 0 (pattern ++ rest)) =
      replacement ++ replacement.intercalate (piecesFrom pattern 0 rest) := by
  rw [piecesFrom_pattern_append hpattern, List.intercalate_cons_of_ne_nil (piecesFrom_ne_nil _ _ _),
    List.nil_append]

/-- What does not hold the first character of the pattern is kept in front. -/
theorem intercalate_piecesFrom_append
    {first : Char} {others before : List Char} (h : first ∉ before) (rest : List Char) :
    replacement.intercalate (piecesFrom (first :: others) 0 (before ++ rest)) =
      before ++ replacement.intercalate (piecesFrom (first :: others) 0 rest) := by
  induction before with
  | nil => rfl
  | cons c before ih =>
      obtain ⟨hc, hbefore⟩ := not_or.mp fun hor => h (List.mem_cons.mpr hor)
      have hprefix : ¬first :: others <+: c :: (before ++ rest) := by
        rw [List.cons_prefix_cons]
        exact fun hprefix => hc hprefix.1
      rw [List.cons_append, intercalate_piecesFrom_cons hprefix, ih hbefore, List.cons_append]

end Text

namespace Shape

/-! ## Reading a shape once -/

/-- A part of a shape: a placeholder or a character that belongs to none. -/
inductive Part where
  | char (c : Char)
  | value
  | types
  deriving DecidableEq

/-- The parts of a shape from left to right. -/
def parts : List Char → List Part
  | '<' :: 'V' :: 'A' :: 'L' :: '>' :: rest => .value :: parts rest
  | '<' :: 'T' :: 'Y' :: 'P' :: 'E' :: 'S' :: '>' :: rest => .types :: parts rest
  | c :: rest => .char c :: parts rest
  | [] => []

namespace Part

/-- A part with the type arguments put in. -/
def typed (types : List String) : Part → List Char
  | .char c => [c]
  | .value => valueMark.toList
  | .types => (typeList types).toList

end Part

/-- Fills the parts of a shape, the first value having the given number.  A value is in the place of
a key when the rest of the shape starts with a colon once the type arguments are put in. -/
def fillParts (values types : List String) : Nat → List Part → List Char
  | _, [] => []
  | index, .char c :: rest => c :: fillParts values types index rest
  | index, .types :: rest => (typeList types).toList ++ fillParts values types index rest
  | index, .value :: rest =>
    placed (valueFor values index) ((rest.flatMap (Part.typed types)).head? == some ':') ++
      fillParts values types (index + 1) rest

/-- The shape with all its placeholders filled at once. -/
def filledAtOnce (shape : String) (values types : List String) : String :=
  String.ofList (fillParts values types 0 (parts shape.toList))

/-- The number of places of values in a text. -/
def valuePlaces (text : List Char) : Nat :=
  text.tails.countP valueMark.toList.isPrefixOf

/-- Whether putting in the type arguments makes no place of a value that the shape does not have. -/
def KeepsValuePlaces (shape : String) (types : List String) : Prop :=
  valuePlaces (Text.replaceAll typesMark (typeList types) shape).toList =
    valuePlaces shape.toList

instance (shape : String) (types : List String) : Decidable (KeepsValuePlaces shape types) :=
  inferInstanceAs (Decidable (_ = _))

theorem toList_valueMark : valueMark.toList = ['<', 'V', 'A', 'L', '>'] :=
  rfl

theorem toList_typesMark : typesMark.toList = ['<', 'T', 'Y', 'P', 'E', 'S', '>'] :=
  rfl

/-! ## Places of values -/

theorem valuePlaces_cons_of_mark {c : Char} {rest : List Char}
    (h : valueMark.toList <+: c :: rest) :
    valuePlaces (c :: rest) = valuePlaces rest + 1 := by
  rw [valuePlaces, List.tails, List.countP_cons_of_pos (List.isPrefixOf_iff_prefix.mpr h)]
  rfl

theorem valuePlaces_cons {c : Char} {rest : List Char} (h : ¬valueMark.toList <+: c :: rest) :
    valuePlaces (c :: rest) = valuePlaces rest := by
  rw [valuePlaces, List.tails,
    List.countP_cons_of_neg fun hprefix => h (List.isPrefixOf_iff_prefix.mp hprefix)]
  rfl

theorem not_prefix_of_ne {c : Char} {rest : List Char} (h : c ≠ '<') :
    ¬valueMark.toList <+: c :: rest := by
  rw [toList_valueMark, List.cons_prefix_cons]
  exact fun hprefix => h hprefix.1.symm

theorem valuePlaces_append_of_notMem {before rest : List Char} (h : '<' ∉ before) :
    valuePlaces (before ++ rest) = valuePlaces rest := by
  induction before with
  | nil => rfl
  | cons c before ih =>
      obtain ⟨hc, hbefore⟩ := not_or.mp (fun hor => h (List.mem_cons.mpr hor))
      rw [List.cons_append, valuePlaces_cons (not_prefix_of_ne (Ne.symm hc)), ih hbefore]

theorem valuePlaces_mark_append (rest : List Char) :
    valuePlaces (valueMark.toList ++ rest) = valuePlaces rest + 1 := by
  have hrest : valuePlaces (['V', 'A', 'L', '>'] ++ rest) = valuePlaces rest :=
    valuePlaces_append_of_notMem (by decide)
  rw [← hrest]
  exact valuePlaces_cons_of_mark (List.prefix_append valueMark.toList rest)

theorem valuePlaces_typesMark_append (rest : List Char) :
    valuePlaces (typesMark.toList ++ rest) = valuePlaces rest := by
  have hprefix : ¬valueMark.toList <+: '<' :: (['T', 'Y', 'P', 'E', 'S', '>'] ++ rest) := by
    simp [toList_valueMark]
  exact (valuePlaces_cons hprefix).trans (valuePlaces_append_of_notMem (by decide))

theorem valuePlaces_le_append (before rest : List Char) :
    valuePlaces rest ≤ valuePlaces (before ++ rest) := by
  induction before with
  | nil => exact Nat.le_refl _
  | cons c before ih =>
      rw [List.cons_append]
      by_cases hprefix : valueMark.toList <+: c :: (before ++ rest)
      · rw [valuePlaces_cons_of_mark hprefix]
        omega
      · rwa [valuePlaces_cons hprefix]

/-! ## Reading for the places of values -/

/-- The first piece starts with a colon exactly when the text does. -/
theorem head?_of_splitAtPattern
    {text piece : List Char} {pieces : List (List Char)}
    (h : Text.splitAtPattern valueMark text = piece :: pieces) :
    (piece.head? == some ':') = (text.head? == some ':') := by
  cases text with
  | nil =>
      obtain ⟨rfl, -⟩ := List.cons.inj h
      rfl
  | cons c rest =>
      by_cases hprefix : valueMark.toList <+: c :: rest
      · obtain ⟨behind, hbehind⟩ := hprefix
        rw [← hbehind, Text.splitAtPattern, Text.piecesFrom_pattern_append (by decide)] at h
        obtain ⟨rfl, -⟩ := List.cons.inj h
        rw [← hbehind]
        rfl
      · obtain ⟨start, _, -, hcons⟩ := Text.piecesFrom_cons hprefix
        rw [Text.splitAtPattern, hcons] at h
        obtain ⟨rfl, -⟩ := List.cons.inj h
        rfl

theorem weave_mark_append (values : List String) (index : Nat) (rest : List Char) :
    weave values index (Text.splitAtPattern valueMark (valueMark.toList ++ rest)) =
      placed (valueFor values index) (rest.head? == some ':') ++
        weave values (index + 1) (Text.splitAtPattern valueMark rest) := by
  obtain ⟨next, pieces, hrest⟩ :=
    List.exists_cons_of_ne_nil (Text.piecesFrom_ne_nil valueMark.toList 0 rest)
  have hkey := head?_of_splitAtPattern hrest
  rw [Text.splitAtPattern, Text.piecesFrom_pattern_append (by decide), Text.splitAtPattern, hrest,
    weave, hkey, List.nil_append]

theorem weave_cons {values : List String} {index : Nat} {c : Char} {rest : List Char}
    (h : ¬valueMark.toList <+: c :: rest) :
    weave values index (Text.splitAtPattern valueMark (c :: rest)) =
      c :: weave values index (Text.splitAtPattern valueMark rest) := by
  obtain ⟨piece, pieces, hrest, hcons⟩ := Text.piecesFrom_cons h
  rw [Text.splitAtPattern, Text.splitAtPattern, hrest, hcons]
  cases pieces with
  | nil => rfl
  | cons next pieces => rfl

/-- What holds no place of a value is left as it is. -/
theorem weave_append {values : List String} {index : Nat} {before rest : List Char}
    (h : valuePlaces (before ++ rest) = valuePlaces rest) :
    weave values index (Text.splitAtPattern valueMark (before ++ rest)) =
      before ++ weave values index (Text.splitAtPattern valueMark rest) := by
  induction before with
  | nil => rfl
  | cons c before ih =>
      have hle := valuePlaces_le_append before rest
      rw [List.cons_append] at h
      have hprefix : ¬valueMark.toList <+: c :: (before ++ rest) := by
        intro hprefix
        rw [valuePlaces_cons_of_mark hprefix] at h
        omega
      rw [valuePlaces_cons hprefix] at h
      rw [List.cons_append, weave_cons hprefix, ih h, List.cons_append]

/-! ## The parts of a shape -/

@[simp]
theorem parts_valueMark_append (rest : List Char) :
    parts (valueMark.toList ++ rest) = .value :: parts rest :=
  rfl

@[simp]
theorem parts_typesMark_append (rest : List Char) :
    parts (typesMark.toList ++ rest) = .types :: parts rest :=
  rfl

theorem parts_cons {c : Char} {rest : List Char}
    (hvalue : ¬valueMark.toList <+: c :: rest) (htypes : ¬typesMark.toList <+: c :: rest) :
    parts (c :: rest) = .char c :: parts rest := by
  rw [parts]
  · rintro behind rfl rfl
    exact hvalue ⟨behind, rfl⟩
  · rintro behind rfl rfl
    exact htypes ⟨behind, rfl⟩

/-- Induction on a shape by the part that it starts with. -/
@[elab_as_elim]
theorem parts_induction
    {motive : List Char → Prop} (nil : motive [])
    (value : ∀ rest, motive rest → motive (valueMark.toList ++ rest))
    (types : ∀ rest, motive rest → motive (typesMark.toList ++ rest))
    (char : ∀ c rest, ¬valueMark.toList <+: c :: rest → ¬typesMark.toList <+: c :: rest →
      motive rest → motive (c :: rest))
    (shape : List Char) : motive shape := by
  fun_induction parts shape with
  | case1 rest ih => exact value rest ih
  | case2 rest ih => exact types rest ih
  | case3 c rest hvalue htypes ih =>
      refine char c rest ?_ ?_ ih
      · rintro ⟨behind, hbehind⟩
        obtain ⟨rfl, rfl⟩ := List.cons.inj hbehind
        exact hvalue behind rfl rfl
      · rintro ⟨behind, hbehind⟩
        obtain ⟨rfl, rfl⟩ := List.cons.inj hbehind
        exact htypes behind rfl rfl
  | case4 => exact nil

theorem count_value_parts (shape : List Char) :
    (parts shape).count .value = valuePlaces shape := by
  induction shape using parts_induction with
  | nil => rfl
  | value rest ih =>
      rw [parts_valueMark_append, List.count_cons_self, ih, valuePlaces_mark_append]
  | types rest ih =>
      rw [parts_typesMark_append, List.count_cons_of_ne (by decide), ih,
        valuePlaces_typesMark_append]
  | char c rest hvalue htypes ih =>
      rw [parts_cons hvalue htypes, List.count_cons_of_ne (by simp), ih, valuePlaces_cons hvalue]

/-- Putting in the type arguments leaves the other parts as they are. -/
theorem replace_types (types : List String) (shape : List Char) :
    (typeList types).toList.intercalate (Text.splitAtPattern typesMark shape) =
      (parts shape).flatMap (Part.typed types) := by
  induction shape using parts_induction with
  | nil => rfl
  | value rest ih =>
      have hprefix : ¬typesMark.toList <+: '<' :: (['V', 'A', 'L', '>'] ++ rest) := by
        simp [toList_typesMark]
      have hword : (typeList types).toList.intercalate
            (Text.splitAtPattern typesMark (['V', 'A', 'L', '>'] ++ rest)) =
          ['V', 'A', 'L', '>'] ++
            (typeList types).toList.intercalate (Text.splitAtPattern typesMark rest) :=
        Text.intercalate_piecesFrom_append (by decide) rest
      rw [parts_valueMark_append, List.flatMap_cons, ← ih]
      calc
        _ = '<' :: (typeList types).toList.intercalate
            (Text.splitAtPattern typesMark (['V', 'A', 'L', '>'] ++ rest)) :=
          Text.intercalate_piecesFrom_cons hprefix
        _ = _ := congrArg ('<' :: ·) hword
  | types rest ih =>
      rw [parts_typesMark_append, List.flatMap_cons, ← ih]
      exact Text.intercalate_piecesFrom_pattern_append (by decide) rest
  | char c rest hvalue htypes ih =>
      rw [parts_cons hvalue htypes, List.flatMap_cons, ← ih]
      exact Text.intercalate_piecesFrom_cons htypes

theorem toList_typed (types : List String) (shape : String) :
    (Text.replaceAll typesMark (typeList types) shape).toList =
      (parts shape.toList).flatMap (Part.typed types) := by
  rw [Text.replaceAll, String.toList_ofList, replace_types]

/-! ## Filling at once and in turn -/

/-- Putting in the type arguments takes no place of a value away. -/
theorem count_value_le_valuePlaces (types : List String) (parts : List Part) :
    parts.count .value ≤ valuePlaces (parts.flatMap (Part.typed types)) := by
  induction parts with
  | nil => exact Nat.zero_le _
  | cons part rest ih =>
      rw [List.flatMap_cons]
      cases part with
      | value =>
          rw [List.count_cons_self, Part.typed, valuePlaces_mark_append]
          omega
      | char c =>
          rw [List.count_cons_of_ne (by simp)]
          exact ih.trans (valuePlaces_le_append _ _)
      | types =>
          rw [List.count_cons_of_ne (by decide)]
          exact ih.trans (valuePlaces_le_append _ _)

/-- Where putting in the type arguments makes no place of a value, reading the result for the places
of values fills the shape. -/
theorem weave_eq_fillParts
    {values types : List String} {index : Nat} {parts : List Part}
    (h : valuePlaces (parts.flatMap (Part.typed types)) = parts.count .value) :
    weave values index (Text.splitAtPattern valueMark (parts.flatMap (Part.typed types))) =
      fillParts values types index parts := by
  induction parts generalizing index with
  | nil => rfl
  | cons part rest ih =>
      have hrest := count_value_le_valuePlaces types rest
      rw [List.flatMap_cons] at h ⊢
      cases part with
      | value =>
          rw [Part.typed, valuePlaces_mark_append, List.count_cons_self] at h
          rw [Part.typed, weave_mark_append, fillParts, ih (by omega)]
      | char c =>
          rw [List.count_cons_of_ne (by simp)] at h
          have hkept := valuePlaces_le_append (Part.typed types (.char c))
            (rest.flatMap (Part.typed types))
          rw [weave_append (by omega), fillParts, ih (by omega)]
          rfl
      | types =>
          rw [List.count_cons_of_ne (by decide)] at h
          have hkept := valuePlaces_le_append (Part.typed types .types)
            (rest.flatMap (Part.typed types))
          rw [weave_append (by omega), fillParts, ih (by omega)]
          rfl

/-! ## Telling them apart

Where every value is empty, each place of a value makes the text shorter by the length of a
placeholder. -/

theorem placed_valueFor_empty (index : Nat) (asKey : Bool) :
    placed (valueFor [""] index) asKey = [] := by
  have hvalue : valueFor [""] index = "" := by
    cases index <;> rfl
  rw [hvalue]
  cases asKey <;> rfl

theorem length_weave_empty (index : Nat) (text : List Char) :
    (weave [""] index (Text.splitAtPattern valueMark text)).length + 5 * valuePlaces text =
      text.length := by
  induction text using parts_induction generalizing index with
  | nil => rfl
  | value rest ih =>
      have hrest := ih (index + 1)
      rw [weave_mark_append, placed_valueFor_empty, List.nil_append, valuePlaces_mark_append,
        List.length_append, toList_valueMark, List.length_cons]
      simp only [List.length_cons, List.length_nil]
      omega
  | types rest ih =>
      have hrest := ih index
      have hplaces := valuePlaces_typesMark_append rest
      rw [weave_append hplaces, List.length_append, List.length_append, hplaces]
      omega
  | char c rest hvalue _ ih =>
      have hrest := ih index
      rw [weave_cons hvalue, List.length_cons, List.length_cons, valuePlaces_cons hvalue]
      omega

theorem length_fillParts_empty (types : List String) (index : Nat) (parts : List Part) :
    (fillParts [""] types index parts).length + 5 * parts.count .value =
      (parts.flatMap (Part.typed types)).length := by
  induction parts generalizing index with
  | nil => rfl
  | cons part rest ih =>
      cases part with
      | value =>
          have hrest := ih (index + 1)
          rw [fillParts, placed_valueFor_empty, List.nil_append, List.count_cons_self,
            List.flatMap_cons, List.length_append, Part.typed, toList_valueMark]
          simp only [List.length_cons, List.length_nil]
          omega
      | char c =>
          have hrest := ih index
          rw [fillParts, List.count_cons_of_ne (by simp), List.flatMap_cons, List.length_append,
            Part.typed, List.length_cons, List.length_cons, List.length_nil]
          omega
      | types =>
          have hrest := ih index
          rw [fillParts, List.count_cons_of_ne (by decide), List.flatMap_cons, List.length_append,
            Part.typed, List.length_append]
          omega

/-! ## The result of filling -/

/-- Without a misspelt placeholder, all values are filled in as if at once exactly when the type
arguments make no new place for one. -/
theorem fill_eq_filledAtOnce_iff
    {shape : String} {types : List String} (hnone : unknownToken? shape = none) :
    (∀ values, fill shape values types = .ok (filledAtOnce shape values types)) ↔
      KeepsValuePlaces shape types := by
  have hfill (values : List String) :
      fill shape values types = .ok (filledAtOnce shape values types) ↔
        weave values 0 (Text.splitAtPattern valueMark
            ((parts shape.toList).flatMap (Part.typed types))) =
          fillParts values types 0 (parts shape.toList) := by
    simp only [fill, hnone, filledAtOnce, toList_typed, Except.ok.injEq, String.ofList_inj]
  simp only [hfill, KeepsValuePlaces, toList_typed, ← count_value_parts shape.toList]
  constructor
  · intro hall
    have hwoven := length_weave_empty 0 ((parts shape.toList).flatMap (Part.typed types))
    have hfilled := length_fillParts_empty types 0 (parts shape.toList)
    rw [hall [""]] at hwoven
    omega
  · intro hplaces values
    exact weave_eq_fillParts hplaces

/-- A shape is refused exactly for its first misspelt placeholder. -/
theorem fill_eq_error_iff {shape : String} {values types : List String} {cause : ShapeError} :
    fill shape values types = .error cause ↔
      cause.shape = shape ∧ MisspellsFirst shape cause.placeholder := by
  rw [fill, ← unknownToken?_eq_some_iff]
  cases unknownToken? shape with
  | none => simp
  | some token =>
      rw [Except.error.injEq, Option.some_inj]
      constructor
      · rintro rfl
        exact ⟨rfl, rfl⟩
      · rintro ⟨rfl, rfl⟩
        rfl

/-- Filling fails exactly for the first misspelt placeholder.  Without one, all values are filled in
as if at once exactly when the type arguments make no new place for one. -/
theorem fill_exact (shape : String) (types : List String) :
    (∀ values cause, fill shape values types = .error cause ↔
        cause.shape = shape ∧ MisspellsFirst shape cause.placeholder) ∧
      ((∀ token, ¬Misspells shape token) →
        ((∀ values, fill shape values types = .ok (filledAtOnce shape values types)) ↔
          KeepsValuePlaces shape types)) :=
  ⟨fun _ _ => fill_eq_error_iff, fun hnone =>
    fill_eq_filledAtOnce_iff (unknownToken?_eq_none_iff.mpr hnone)⟩

theorem fill_exact_map :
    (∀ token, ¬Misspells "[<VAL>: <VAL>] as java.util.Map<TYPES>" token) ∧
      (∀ values, fill "[<VAL>: <VAL>] as java.util.Map<TYPES>" values ["Key", "Long"] =
        .ok (filledAtOnce "[<VAL>: <VAL>] as java.util.Map<TYPES>" values ["Key", "Long"])) ∧
      filledAtOnce "[<VAL>: <VAL>] as java.util.Map<TYPES>" ["new Key()", "1L"] ["Key", "Long"] =
        "[(new Key()): 1L] as java.util.Map<Key,Long>" ∧
      MisspellsFirst "[<VALUE>] as java.util.Map<TYPES>" "<VALUE>" := by
  have hnone : ∀ token, ¬Misspells "[<VAL>: <VAL>] as java.util.Map<TYPES>" token :=
    unknownToken?_eq_none_iff.mp (by decide +kernel)
  have hplaces :
      KeepsValuePlaces "[<VAL>: <VAL>] as java.util.Map<TYPES>" ["Key", "Long"] := by
    decide +kernel
  have hrefused : fill "[<VALUE>] as java.util.Map<TYPES>" [] [] =
      .error ⟨"<VALUE>", "[<VALUE>] as java.util.Map<TYPES>"⟩ := by
    decide +kernel
  exact ⟨hnone, ((fill_exact _ _).2 hnone).mpr hplaces, by decide +kernel,
    (((fill_exact _ []).1 [] _).mp hrefused).2⟩

/-- The name of a type is read as a place for a value once it stands in angle brackets. -/
theorem fill_reads_type_as_value :
    (∀ token, ¬Misspells "[<VAL>] as java.util.Set<TYPES>" token) ∧
      filledAtOnce "[<VAL>] as java.util.Set<TYPES>" ["0"] ["VAL"] =
        "[0] as java.util.Set<VAL>" ∧
      fill "[<VAL>] as java.util.Set<TYPES>" ["0"] ["VAL"] = .ok "[0] as java.util.Set0" :=
  ⟨unknownToken?_eq_none_iff.mp (by decide +kernel), by decide +kernel, by decide +kernel⟩

end Shape

end Specwright
