import Specwright.Proofs.Host.Substitution
import Specwright.Proofs.Model.Names

/-!
# Reading the id of a method

The id of a method is put together from the class, the name and the spellings of the parameter
types, and all comparisons of methods rest on it.  The first opening parenthesis ends the name, the
last dot before it ends the class, and the spellings between the parentheses can be read in one way
only, up to what the names in them stand for.  Names of types may hold dots and parentheses, but no
mark of a spelling.
-/

namespace Specwright

namespace TypeRef

variable {sortOf : String → TypeSort}

/-! ## Legible types -/

theorem name_mem_names (type : TypeRef) : type.name ∈ type.names :=
  mem_names_iff.mpr (Or.inl rfl)

/-- Whether no name in a type, at any level, is empty or holds a mark. -/
def Legible (type : TypeRef) : Prop :=
  ∀ name ∈ type.names, name ≠ "" ∧ Unmarked name

instance {type : TypeRef} : Decidable type.Legible :=
  inferInstanceAs (Decidable (∀ name ∈ type.names, name ≠ "" ∧ Unmarked name))

theorem Legible.arg {type arg : TypeRef} (h : type.Legible) (harg : arg ∈ type.args) :
    arg.Legible :=
  fun name hname => h name (mem_names_iff.mpr (Or.inr ⟨arg, harg, hname⟩))

/-! ## Types up to what their names stand for -/

mutual

/-- The type with every name in it taken for that of a class. -/
def withoutSorts : TypeRef → TypeRef
  | ⟨name, args, _, dims⟩ => ⟨name, allWithoutSorts args, .reference, dims⟩

/-- The types of a list with every name in them taken for that of a class. -/
def allWithoutSorts : List TypeRef → List TypeRef
  | [] => []
  | type :: rest => withoutSorts type :: allWithoutSorts rest

end

theorem allWithoutSorts_eq_map (types : List TypeRef) :
    allWithoutSorts types = types.map withoutSorts := by
  induction types with
  | nil => rfl
  | cons type rest ih => rw [allWithoutSorts, ih, List.map_cons]

/-- A spelling does not show what the names in it stand for. -/
theorem spelling_withoutSorts (type : TypeRef) : type.withoutSorts.spelling = type.spelling := by
  induction type using TypeRef.induction with
  | step name args kind dims ih =>
      have hargs : (args.map withoutSorts).map spelling = args.map spelling := by
        rw [List.map_map]
        exact List.map_congr_left ih
      rw [withoutSorts, allWithoutSorts_eq_map, spelling, spelling, spellings_eq_map,
        spellings_eq_map, hargs, List.isEmpty_map]

theorem Legible.obeys_withoutSorts {type : TypeRef} (h : type.Legible) :
    type.withoutSorts.Obeys fun _ => .reference := by
  induction type using TypeRef.induction with
  | step name args kind dims ih =>
      rw [withoutSorts, Obeys, allObey_iff, allWithoutSorts_eq_map, List.forall_mem_map]
      exact ⟨(h name (name_mem_names _)).2, rfl, fun arg harg => ih arg harg (Legible.arg h harg)⟩

/-- A spelling tells a legible type, up to what the names in it stand for. -/
theorem Legible.spelling_eq_iff
    {type other : TypeRef} (htype : type.Legible) (hother : other.Legible) :
    type.spelling = other.spelling ↔ type.withoutSorts = other.withoutSorts := by
  constructor
  · intro h
    refine eq_of_spelling_eq htype.obeys_withoutSorts hother.obeys_withoutSorts ?_
    rw [spelling_withoutSorts, spelling_withoutSorts, h]
  · intro h
    rw [← spelling_withoutSorts type, h, spelling_withoutSorts]

/-! ## Lists of spellings -/

theorem listChars_ne_nil
    {type : TypeRef} (h : type.name ≠ "") (rest : List TypeRef) :
    listChars (type :: rest) ≠ [] := by
  obtain ⟨name, args, kind, dims⟩ := type
  have hname : name.toList ≠ [] := fun hnil => h (String.toList_injective hnil)
  rw [listChars, chars]
  simp [hname]

/-- Types that obey and have names are read off their spellings with commas between them.  They need
names, since a list of one type without a name is spelled like the empty list. -/
theorem eq_of_listChars_eq
    {types others : List TypeRef} (htypes : ∀ type ∈ types, type.Obeys sortOf ∧ type.name ≠ "")
    (hothers : ∀ type ∈ others, type.Obeys sortOf ∧ type.name ≠ "")
    (h : listChars types = listChars others) :
    types = others := by
  have hobey : AllObey sortOf types := allObey_iff.mpr fun type htype => (htypes type htype).1
  have hobey' : AllObey sortOf others := allObey_iff.mpr fun type htype => (hothers type htype).1
  cases types with
  | nil =>
      cases others with
      | nil => rfl
      | cons other others =>
          exact absurd h.symm (listChars_ne_nil (hothers other List.mem_cons_self).2 others)
  | cons type types =>
      cases others with
      | nil => exact absurd h (listChars_ne_nil (htypes type List.mem_cons_self).2 types)
      | cons other others =>
          -- Behind a comma and before a closing mark, the lists are those of arguments.
          have hclosed :
              restChars (type :: types) ++ ['>'] = restChars (other :: others) ++ ['>'] :=
            congrArg (fun inner => ',' :: (inner ++ ['>'])) h
          exact (restChars_append_inj hobey hobey' hclosed).1

/-- The spellings of legible types, put together, tell the types up to what the names in them stand
for. -/
theorem map_withoutSorts_eq_of_intercalate_eq
    {types others : List TypeRef} (htypes : ∀ type ∈ types, type.Legible)
    (hothers : ∀ type ∈ others, type.Legible)
    (h : ",".intercalate (types.map spelling) = ",".intercalate (others.map spelling)) :
    types.map withoutSorts = others.map withoutSorts := by
  have hobeys {types : List TypeRef} (hlegible : ∀ type ∈ types, type.Legible) :
      ∀ type ∈ types.map withoutSorts, type.Obeys (fun _ => .reference) ∧ type.name ≠ "" := by
    rw [List.forall_mem_map]
    rintro ⟨name, args, kind, dims⟩ htype
    exact ⟨(hlegible _ htype).obeys_withoutSorts, (hlegible _ htype name (name_mem_names _)).1⟩
  have hchars (types : List TypeRef) :
      listChars (types.map withoutSorts) = (",".intercalate (types.map spelling)).toList := by
    rw [← toList_intercalate_spellings, spellings_eq_map, List.map_map]
    congr 2
    exact List.map_congr_left fun type _ => spelling_withoutSorts type
  refine eq_of_listChars_eq (hobeys htypes) (hobeys hothers) ?_
  rw [hchars, hchars, h]

end TypeRef

namespace MethodDecl

/-- Whether the name of a method holds neither dots nor opening parentheses and its parameter types
are legible. -/
def Legible (method : MethodDecl) : Prop :=
  '.' ∉ method.name.toList ∧ '(' ∉ method.name.toList ∧ ∀ type ∈ method.paramTypes, type.Legible

instance {method : MethodDecl} : Decidable method.Legible :=
  inferInstanceAs (Decidable ('.' ∉ method.name.toList ∧ '(' ∉ method.name.toList ∧
    ∀ type ∈ method.paramTypes, type.Legible))

variable {method other : MethodDecl} {owner owner' : String}

theorem toList_idIn (method : MethodDecl) (owner : String) :
    (method.idIn owner).toList =
      (owner.toList ++ '.' :: method.name.toList) ++
        '(' :: ((",".intercalate method.paramSpellings).toList ++ [')']) := by
  simp [idIn]

/-- The first of the marks in a text ends what stands before it. -/
theorem first_mark_inj
    {mark : Char} {head head' tail tail' : List Char} (hhead : mark ∉ head) (hhead' : mark ∉ head')
    (h : head ++ mark :: tail = head' ++ mark :: tail') :
    head = head' ∧ tail = tail' := by
  rcases List.append_eq_append_iff.mp h with ⟨between, rfl, hrest⟩ | ⟨between, rfl, hrest⟩
  all_goals
    cases between with
    | nil => simpa [eq_comm] using hrest
    | cons first between =>
        -- What stands between the heads would begin with the mark, and belongs to one of them.
        obtain ⟨rfl, -⟩ := List.cons.inj hrest
        simp at hhead hhead'

/-- The last dot ends the name of a class. -/
theorem owner_append_inj
    {owner owner' name name' : List Char} (hname : '.' ∉ name) (hname' : '.' ∉ name')
    (h : owner ++ '.' :: name = owner' ++ '.' :: name') :
    owner = owner' ∧ name = name' := by
  have hreverse :
      name.reverse ++ '.' :: owner.reverse = name'.reverse ++ '.' :: owner'.reverse := by
    simpa using congrArg List.reverse h
  obtain ⟨hnames, howners⟩ := first_mark_inj (by simpa using hname) (by simpa using hname') hreverse
  exact ⟨List.reverse_injective howners, List.reverse_injective hnames⟩

/-- An id gives away the class, the name and the text between the parentheses. -/
theorem parts_of_idIn_eq
    (howner : '(' ∉ owner.toList) (howner' : '(' ∉ owner'.toList)
    (hmethod : method.Legible) (hother : other.Legible)
    (h : method.idIn owner = other.idIn owner') :
    owner = owner' ∧ method.name = other.name ∧
      ",".intercalate method.paramSpellings = ",".intercalate other.paramSpellings := by
  obtain ⟨hdot, hparen, -⟩ := hmethod
  obtain ⟨hdot', hparen', -⟩ := hother
  have hchars := congrArg String.toList h
  rw [toList_idIn, toList_idIn] at hchars
  obtain ⟨hhead, htail⟩ := first_mark_inj (by simp [howner, hparen]) (by simp [howner', hparen'])
    hchars
  obtain ⟨howners, hnames⟩ := owner_append_inj hdot hdot' hhead
  exact ⟨String.toList_injective howners, String.toList_injective hnames,
    String.toList_injective (List.append_cancel_right htail)⟩

theorem paramSpellings_eq_of_withoutSorts
    (h : method.paramTypes.map TypeRef.withoutSorts = other.paramTypes.map TypeRef.withoutSorts) :
    method.paramSpellings = other.paramSpellings := by
  simpa [paramSpellings, Function.comp_def, TypeRef.spelling_withoutSorts] using
    congrArg (List.map TypeRef.spelling) h

/-- Legible methods of one id are declared by one class, with one name and with parameter types that
differ at most in what the names in them stand for. -/
theorem idIn_eq_iff
    (howner : '(' ∉ owner.toList) (howner' : '(' ∉ owner'.toList)
    (hmethod : method.Legible) (hother : other.Legible) :
    method.idIn owner = other.idIn owner' ↔
      owner = owner' ∧ method.name = other.name ∧
        method.paramTypes.map TypeRef.withoutSorts = other.paramTypes.map TypeRef.withoutSorts := by
  constructor
  · intro h
    obtain ⟨rfl, hname, hparams⟩ := parts_of_idIn_eq howner howner' hmethod hother h
    exact ⟨rfl, hname,
      TypeRef.map_withoutSorts_eq_of_intercalate_eq hmethod.2.2 hother.2.2 hparams⟩
  · rintro ⟨rfl, hname, hparams⟩
    rw [idIn, idIn, hname, paramSpellings_eq_of_withoutSorts hparams]

/-- Ids identify legible methods, and spellings identify legible types, both up to what the names of
types stand for. -/
theorem ids_identify
    (howner : '(' ∉ owner.toList) (howner' : '(' ∉ owner'.toList)
    (hmethod : method.Legible) (hother : other.Legible) :
    (method.idIn owner = other.idIn owner' ↔
      owner = owner' ∧ method.name = other.name ∧
        method.paramTypes.map TypeRef.withoutSorts =
          other.paramTypes.map TypeRef.withoutSorts) ∧
      ∀ type other : TypeRef, type.Legible → other.Legible →
        (type.spelling = other.spelling ↔ type.withoutSorts = other.withoutSorts) :=
  ⟨idIn_eq_iff howner howner' hmethod hother, fun _ _ htype hother => htype.spelling_eq_iff hother⟩

end MethodDecl

/-! ## Arguments of one parameter and two parameters -/

/-- Looks entries up in the map that it is given. -/
def lookUpMethod : MethodDecl where
  name := "lookUp"
  params := [
    { name := "map", type := .generic "java.util.Map" [.parameter "K", .parameter "V"] }]

/-- Looks an entry up among the values that it is given. -/
def lookUpAmongMethod : MethodDecl where
  name := "lookUp"
  params := [
    { name := "values", type := .generic "java.util.Set" [.parameter "K"] },
    { name := "value", type := .parameter "V" }]

namespace MethodDecl

/-- The arguments of a type are not taken for further parameters. -/
theorem ids_identify_lookUp :
    '(' ∉ "desk.Index".toList ∧ lookUpMethod.Legible ∧ lookUpAmongMethod.Legible ∧
      lookUpMethod.idIn "desk.Index" ≠ lookUpAmongMethod.idIn "desk.Index" ∧
        (TypeRef.parameter "K").spelling = (TypeRef.named "K").spelling := by
  have howner : '(' ∉ "desk.Index".toList := by decide
  have hmap : lookUpMethod.Legible := by decide
  have hvalues : lookUpAmongMethod.Legible := by decide
  obtain ⟨hids, hspellings⟩ := ids_identify howner howner hmap hvalues
  refine ⟨howner, hmap, hvalues, fun h => ?differ, ?alike⟩
  case differ =>
    obtain ⟨-, -, hparams⟩ := hids.mp h
    exact absurd (congrArg List.length hparams) (by decide)
  case alike => exact (hspellings _ _ (by decide) (by decide)).mpr rfl

end MethodDecl

end Specwright
