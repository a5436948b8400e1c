import Specwright.Host.TypeRef

/-!
# Reading a spelling

The spelling of a type reference leaves out what the names in it stand for, and a name might hold
the marks that spellings are put together with.  When no name does, and every name stands for one
sort of type, a spelling can be read in one way only: two references with one spelling are equal.
-/

namespace Specwright

namespace TypeRef

/-- The characters that put a spelling together. -/
def marks : List Char :=
  ['<', '>', ',', '[', ']']

/-- Whether a name holds no mark. -/
def Unmarked (name : String) : Prop :=
  ∀ char ∈ name.toList, char ∉ marks

instance {name : String} : Decidable (Unmarked name) :=
  List.decidableBAll (fun char => char ∉ marks) name.toList

mutual

/-- Whether no name in a reference holds a mark and each stands for the sort that is given to it. -/
def Obeys (sortOf : String → TypeSort) : TypeRef → Prop
  | ⟨name, args, kind, _⟩ => Unmarked name ∧ kind = sortOf name ∧ AllObey sortOf args

/-- Whether each of a list of references obeys. -/
def AllObey (sortOf : String → TypeSort) : List TypeRef → Prop
  | [] => True
  | type :: rest => Obeys sortOf type ∧ AllObey sortOf rest

end

theorem allObey_iff {sortOf : String → TypeSort} {types : List TypeRef} :
    AllObey sortOf types ↔ ∀ type ∈ types, type.Obeys sortOf := by
  induction types with
  | nil => simp [AllObey]
  | cons type rest ih => simp [AllObey, ih]

mutual

def decidableObeys (sortOf : String → TypeSort) : ∀ type : TypeRef, Decidable (type.Obeys sortOf)
  | ⟨name, args, kind, _⟩ =>
    have := decidableAllObey sortOf args
    inferInstanceAs (Decidable (Unmarked name ∧ kind = sortOf name ∧ AllObey sortOf args))

def decidableAllObey (sortOf : String → TypeSort) :
    ∀ types : List TypeRef, Decidable (AllObey sortOf types)
  | [] => isTrue trivial
  | type :: rest =>
    have := decidableObeys sortOf type
    have := decidableAllObey sortOf rest
    inferInstanceAs (Decidable (type.Obeys sortOf ∧ AllObey sortOf rest))

end

instance {sortOf : String → TypeSort} {type : TypeRef} : Decidable (type.Obeys sortOf) :=
  decidableObeys sortOf type

end TypeRef

namespace Bindings

/-- Whether all types that type parameters are bound to obey. -/
def Obey (sortOf : String → TypeSort) (bindings : Bindings) : Prop :=
  ∀ pair ∈ bindings.pairs, pair.2.Obeys sortOf

theorem mem_of_lastBound
    {name : String} {pairs : List (String × TypeRef)} {type : TypeRef}
    (h : lastBound name pairs = some type) :
    ∃ pair ∈ pairs, pair.2 = type := by
  induction pairs with
  | nil => simp [lastBound] at h
  | cons pair rest ih =>
      obtain ⟨bound, own⟩ := pair
      rw [lastBound] at h
      split at h
      next later hlater =>
        cases h
        obtain ⟨pair, hpair, htype⟩ := ih hlater
        exact ⟨pair, List.mem_cons_of_mem _ hpair, htype⟩
      next =>
        split at h
        · cases h
          exact ⟨_, List.mem_cons_self, rfl⟩
        · cases h

theorem Obey.get?
    {sortOf : String → TypeSort} {bindings : Bindings} {name : String} {type : TypeRef}
    (h : bindings.Obey sortOf) (hget : bindings.get? name = some type) :
    type.Obeys sortOf := by
  obtain ⟨pair, hpair, rfl⟩ := mem_of_lastBound hget
  exact h pair hpair

end Bindings

namespace TypeRef

variable {sortOf : String → TypeSort} {bindings : Bindings}

/-! ## References made from others -/

theorem Obeys.unmarked {type : TypeRef} (h : type.Obeys sortOf) : Unmarked type.name := by
  obtain ⟨name, args, kind, dims⟩ := type
  rw [Obeys] at h
  exact h.1

theorem Obeys.arg {type arg : TypeRef} (h : type.Obeys sortOf) (harg : arg ∈ type.args) :
    arg.Obeys sortOf := by
  obtain ⟨name, args, kind, dims⟩ := type
  rw [Obeys] at h
  exact allObey_iff.mp h.2.2 arg harg

theorem Obeys.withDims {type : TypeRef} (h : type.Obeys sortOf) (dims : Nat) :
    { type with dims := dims }.Obeys sortOf := by
  obtain ⟨name, args, kind, own⟩ := type
  rwa [Obeys] at h ⊢

mutual

/-- Substituting types that obey in a type that obeys gives one that obeys. -/
theorem Obeys.substitute (hbindings : bindings.Obey sortOf) :
    ∀ {type : TypeRef}, type.Obeys sortOf → (type.substitute bindings).Obeys sortOf
  | ⟨name, args, kind, dims⟩, h => by
    by_cases hkind : kind = .parameter
    · subst hkind
      rw [TypeRef.substitute]
      split
      next bound hbound => exact (hbindings.get? hbound).withDims _
      next => exact h
    · rw [TypeRef.substitute.eq_2 _ _ _ _ _ hkind]
      rw [Obeys] at h ⊢
      exact ⟨h.1, h.2.1, AllObey.substituteAll hbindings h.2.2⟩

/-- Substituting types that obey in types that obey gives types that obey. -/
theorem AllObey.substituteAll (hbindings : bindings.Obey sortOf) :
    ∀ {types : List TypeRef}, AllObey sortOf types →
      AllObey sortOf (TypeRef.substituteAll bindings types)
  | [], _ => trivial
  | type :: rest, h => by
    rw [AllObey] at h
    rw [TypeRef.substituteAll, AllObey]
    exact ⟨Obeys.substitute hbindings h.1, AllObey.substituteAll hbindings h.2⟩

end

/-! ## Spellings as characters -/

/-- The brackets of a number of dimensions. -/
def dimsChars : Nat → List Char
  | 0 => []
  | dims + 1 => '[' :: ']' :: dimsChars dims

mutual

/-- The characters of a spelling. -/
def chars : TypeRef → List Char
  | ⟨name, args, _, dims⟩ =>
    name.toList ++
      ((if args.isEmpty then [] else '<' :: (listChars args ++ ['>'])) ++ dimsChars dims)

/-- The characters of the spellings of a list, with commas between them. -/
def listChars : List TypeRef → List Char
  | [] => []
  | type :: rest => chars type ++ restChars rest

/-- The characters of the spellings of a list, with a comma before each. -/
def restChars : List TypeRef → List Char
  | [] => []
  | type :: rest => ',' :: (chars type ++ restChars rest)

end

theorem toList_dimsText (dims : Nat) : (dimsText dims).toList = dimsChars dims := by
  induction dims with
  | zero => rfl
  | succ dims ih =>
      rw [dimsText] at ih ⊢
      rw [List.replicate_succ, String.join_cons, String.toList_append, ih]
      rfl

theorem dimsChars_succ (dims : Nat) : dimsChars (dims + 1) = dimsChars dims ++ ['[', ']'] := by
  induction dims with
  | zero => rfl
  | succ dims ih => exact congrArg (fun chars => '[' :: ']' :: chars) ih

/-- Whether a name ends in brackets like those of dimensions. -/
def EndsInBrackets (name : String) : Prop :=
  ['[', ']'] <:+ name.toList

instance {name : String} : Decidable (EndsInBrackets name) :=
  inferInstanceAs (Decidable (['[', ']'] <:+ name.toList))

theorem Unmarked.not_endsInBrackets {name : String} (h : Unmarked name) : ¬EndsInBrackets name := by
  intro hsuffix
  have hbracket : ']' ∈ name.toList := hsuffix.subset (by simp)
  exact absurd (by simp [marks]) (h ']' hbracket)

/-- Brackets at the end of an erasure are those of dimensions, unless the name brings its own. -/
theorem isSuffixOf_erasure
    {type : TypeRef} (h : type.dims = 0 → ¬EndsInBrackets type.name) :
    ['[', ']'].isSuffixOf type.erasure.toList = type.isArray := by
  rw [Bool.eq_iff_iff, List.isSuffixOf_iff_suffix, erasure, String.toList_append, toList_dimsText,
    isArray, decide_eq_true_eq]
  cases hdims : type.dims with
  | zero =>
      rw [dimsChars, List.append_nil]
      exact iff_of_false (h hdims) (Nat.lt_irrefl 0)
  | succ dims =>
      rw [dimsChars_succ, ← List.append_assoc]
      exact iff_of_true (List.suffix_append _ _) (Nat.succ_pos dims)

mutual

theorem toList_spelling : ∀ type : TypeRef, type.spelling.toList = chars type
  | ⟨name, args, kind, dims⟩ => by
    have hargs := toList_intercalate_spellings args
    rw [spelling, chars, String.toList_append, String.toList_append, toList_dimsText,
      List.append_assoc]
    cases args with
    | nil => rfl
    | cons type rest => simp [hargs]

theorem toList_intercalate_spellings :
    ∀ types : List TypeRef, (",".intercalate (spellings types)).toList = listChars types
  | [] => rfl
  | [type] => by
    simp [spellings, listChars, restChars, toList_spelling type]
  | type :: next :: rest => by
    have hrest := toList_intercalate_spellings (next :: rest)
    simp only [spellings] at hrest ⊢
    simp [String.intercalate_cons_cons, listChars, restChars, toList_spelling type, hrest]

end

/-! ## Unique reading -/

/-- Characters that may come behind a name: none, or some that begin with a mark. -/
def EndsName (rest : List Char) : Prop :=
  ∀ char ∈ rest.head?, char ∈ marks

/-- Characters that may come behind a whole spelling: they begin neither arguments nor brackets. -/
def EndsSpelling (rest : List Char) : Prop :=
  ∀ char ∈ rest.head?, char ∈ marks ∧ char ≠ '<' ∧ char ≠ '['

/-- A name without marks ends at the first mark. -/
theorem name_append_inj
    {name other rest rest' : List Char}
    (hname : ∀ char ∈ name, char ∉ marks) (hother : ∀ char ∈ other, char ∉ marks)
    (hrest : EndsName rest) (hrest' : EndsName rest')
    (h : name ++ rest = other ++ rest') :
    name = other ∧ rest = rest' := by
  induction name generalizing other with
  | nil =>
      cases other with
      | nil => exact ⟨rfl, h⟩
      | cons char other =>
          refine absurd (hrest char ?_) (hother char List.mem_cons_self)
          rw [← List.nil_append rest, h]
          rfl
  | cons char name ih =>
      cases other with
      | nil =>
          refine absurd (hrest' char ?_) (hname char List.mem_cons_self)
          rw [← List.nil_append rest', ← h]
          rfl
      | cons char' other =>
          obtain ⟨rfl, htail⟩ := List.cons.inj h
          obtain ⟨rfl, hends⟩ := ih (List.forall_mem_cons.mp hname).2
            (List.forall_mem_cons.mp hother).2 htail
          exact ⟨rfl, hends⟩

theorem dimsChars_append_inj
    {dims dims' : Nat} {rest rest' : List Char}
    (hrest : EndsSpelling rest) (hrest' : EndsSpelling rest')
    (h : dimsChars dims ++ rest = dimsChars dims' ++ rest') :
    dims = dims' ∧ rest = rest' := by
  induction dims generalizing dims' with
  | zero =>
      cases dims' with
      | zero => exact ⟨rfl, h⟩
      | succ dims' =>
          have hopen : '[' ∈ rest.head? := by
            rw [← List.nil_append rest, ← dimsChars, h]
            rfl
          exact absurd rfl (hrest _ hopen).2.2
  | succ dims ih =>
      cases dims' with
      | zero =>
          have hopen : '[' ∈ rest'.head? := by
            rw [← List.nil_append rest', ← dimsChars, ← h]
            rfl
          exact absurd rfl (hrest' _ hopen).2.2
      | succ dims' =>
          simp only [dimsChars, List.cons_append, List.cons.injEq, true_and] at h
          obtain ⟨rfl, hends⟩ := ih h
          exact ⟨rfl, hends⟩

theorem endsName_behind
    {args : List TypeRef} {dims : Nat} {rest : List Char} (hrest : EndsSpelling rest) :
    EndsName
      ((if args.isEmpty then [] else '<' :: (listChars args ++ ['>'])) ++
        (dimsChars dims ++ rest)) := by
  intro char hchar
  cases args with
  | nil =>
      cases dims with
      | zero => exact (hrest char hchar).1
      | succ dims =>
          obtain rfl : '[' = char := by simpa [dimsChars] using hchar
          decide
  | cons type args =>
      obtain rfl : '<' = char := by simpa using hchar
      decide

/-- What stands behind the first of several arguments ends its spelling. -/
theorem endsSpelling_restChars (types : List TypeRef) (rest : List Char) :
    EndsSpelling (restChars types ++ '>' :: rest) := by
  intro char hchar
  cases types with
  | nil =>
      obtain rfl : '>' = char := by simpa [restChars] using hchar
      decide
  | cons type types =>
      obtain rfl : ',' = char := by simpa [restChars] using hchar
      decide

/-- Arguments are there on both sides or on none. -/
theorem not_opens_of_endsSpelling
    {dims : Nat} {rest behind : List Char} (hrest : EndsSpelling rest) :
    dimsChars dims ++ rest ≠ '<' :: behind := by
  intro h
  cases dims with
  | zero =>
      have hopen : '<' ∈ rest.head? := by
        rw [← List.nil_append rest, ← dimsChars, h]
        rfl
      exact absurd rfl (hrest _ hopen).2.1
  | succ dims => simp [dimsChars] at h

mutual

/-- A reference that obeys is read off the beginning of its spelling. -/
theorem chars_append_inj :
    ∀ {type other : TypeRef} {rest rest' : List Char},
      type.Obeys sortOf → other.Obeys sortOf → EndsSpelling rest → EndsSpelling rest' →
        chars type ++ rest = chars other ++ rest' → type = other ∧ rest = rest'
  | ⟨name, args, kind, dims⟩, ⟨name', args', kind', dims'⟩, rest, rest',
      htype, hother, hrest, hrest', h => by
    rw [Obeys] at htype hother
    obtain ⟨hname, rfl, hargs⟩ := htype
    obtain ⟨hname', rfl, hargs'⟩ := hother
    simp only [chars, List.append_assoc] at h
    obtain ⟨hnames, hbehind⟩ := name_append_inj hname hname' (endsName_behind hrest)
      (endsName_behind hrest') h
    obtain rfl := String.toList_injective hnames
    -- The name settles the sort.  Whether there are arguments is read off the next mark.
    match args, args' with
    | [], [] =>
        obtain ⟨rfl, hends⟩ := dimsChars_append_inj hrest hrest' hbehind
        exact ⟨rfl, hends⟩
    | [], _ :: _ => exact absurd hbehind (not_opens_of_endsSpelling hrest)
    | _ :: _, [] => exact absurd hbehind.symm (not_opens_of_endsSpelling hrest')
    | arg :: args, arg' :: args' =>
        rw [AllObey] at hargs hargs'
        have hlist : chars arg ++ (restChars args ++ '>' :: (dimsChars dims ++ rest)) =
            chars arg' ++ (restChars args' ++ '>' :: (dimsChars dims' ++ rest')) := by
          simpa [listChars] using hbehind
        obtain ⟨rfl, hothers⟩ := chars_append_inj hargs.1 hargs'.1
          (endsSpelling_restChars _ _) (endsSpelling_restChars _ _) hlist
        obtain ⟨rfl, hdims⟩ := restChars_append_inj hargs.2 hargs'.2 hothers
        obtain ⟨rfl, hends⟩ := dimsChars_append_inj hrest hrest' hdims
        exact ⟨rfl, hends⟩

/-- Further arguments that obey are read off what stands before the closing mark. -/
theorem restChars_append_inj :
    ∀ {types others : List TypeRef} {rest rest' : List Char},
      AllObey sortOf types → AllObey sortOf others →
        restChars types ++ '>' :: rest = restChars others ++ '>' :: rest' →
          types = others ∧ rest = rest'
  | [], [], rest, rest', _, _, h => ⟨rfl, List.cons.inj h |>.2⟩
  | [], _ :: _, _, _, _, _, h => by simp [restChars] at h
  | _ :: _, [], _, _, _, _, h => by simp [restChars] at h
  | type :: types, other :: others, rest, rest', htypes, hothers, h => by
    rw [AllObey] at htypes hothers
    have hlist : chars type ++ (restChars types ++ '>' :: rest) =
        chars other ++ (restChars others ++ '>' :: rest') := by
      simpa [restChars] using h
    obtain ⟨rfl, hrest⟩ := chars_append_inj htypes.1 hothers.1
      (endsSpelling_restChars _ _) (endsSpelling_restChars _ _) hlist
    obtain ⟨rfl, hends⟩ := restChars_append_inj htypes.2 hothers.2 hrest
    exact ⟨rfl, hends⟩

end

/-- Two references that obey are equal when their spellings are. -/
theorem eq_of_spelling_eq
    {type other : TypeRef} (htype : type.Obeys sortOf) (hother : other.Obeys sortOf)
    (h : type.spelling = other.spelling) :
    type = other := by
  have hchars : chars type ++ [] = chars other ++ [] := by
    rw [← toList_spelling, ← toList_spelling, h]
  have hnothing : EndsSpelling [] := by
    intro char hchar
    cases hchar
  exact (chars_append_inj htype hother hnothing hnothing hchars).1

/-! ## What is spelled shorter -/

theorem length_spelling_element
    (name : String) (args : List TypeRef) (kind : TypeSort) (dims : Nat) :
    (TypeRef.mk name args kind dims).spelling.length <
      (TypeRef.mk name args kind (dims + 1)).spelling.length := by
  rw [← String.length_toList, ← String.length_toList, toList_spelling, toList_spelling, chars,
    chars, dimsChars_succ]
  simp only [List.length_append, List.length_cons, List.length_nil]
  omega

theorem length_chars_le_restChars
    {types : List TypeRef} {type : TypeRef} (h : type ∈ types) :
    (chars type).length ≤ (restChars types).length := by
  induction types with
  | nil => cases h
  | cons first rest ih =>
      rw [restChars, List.length_cons, List.length_append]
      rcases List.mem_cons.mp h with rfl | hmem
      · omega
      · have hle := ih hmem
        omega

theorem length_chars_le_listChars
    {types : List TypeRef} {type : TypeRef} (h : type ∈ types) :
    (chars type).length ≤ (listChars types).length := by
  cases types with
  | nil => cases h
  | cons first rest =>
      rw [listChars, List.length_append]
      rcases List.mem_cons.mp h with rfl | hmem
      · omega
      · have hle := length_chars_le_restChars hmem
        omega

/-- A type argument is spelled shorter than the reference that it belongs to. -/
theorem length_spelling_arg
    {name : String} {args : List TypeRef} {kind : TypeSort} {dims : Nat} {arg : TypeRef}
    (h : arg ∈ args) :
    arg.spelling.length < (TypeRef.mk name args kind dims).spelling.length := by
  have hle := length_chars_le_listChars h
  have hsome : args.isEmpty = false := by
    cases args with
    | nil => cases h
    | cons => rfl
  rw [← String.length_toList, ← String.length_toList, toList_spelling, toList_spelling, chars,
    hsome]
  simp only [List.length_append, List.length_cons, Bool.false_eq_true, if_false]
  omega

end TypeRef

end Specwright
