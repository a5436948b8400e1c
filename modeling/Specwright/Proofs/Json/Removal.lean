import Specwright.Proofs.Json.Records

/-!
# Taking keys out of objects

A key in a value is given by its path: the keys of the members around it, from the outermost one in,
and the key itself.  When keys are taken out of a value, a reader that has a standard value for each
key finds the standard values at the keys that are gone, and under the other keys what is left of
their values.
-/

namespace Specwright

/-- A set of keys in nested objects, given by their paths. -/
abbrev KeyPaths :=
  List String → Bool

namespace KeyPaths

/-- The set without keys. -/
def none : KeyPaths :=
  fun _ => false

/-- The set of the keys at the listed paths. -/
def ofList (listed : List (List String)) : KeyPaths :=
  fun path => decide (path ∈ listed)

/-- Whether a key of the outermost object belongs to the set. -/
def has (paths : KeyPaths) (key : String) : Bool :=
  paths [key]

/-- The keys in the value of a key. -/
def below (paths : KeyPaths) (key : String) : KeyPaths :=
  fun path => paths (key :: path)

/-- The standard value for a key of the set, and the given value for any other key. -/
def pick {α : Type} (paths : KeyPaths) (key : String) (standard value : α) : α :=
  if paths.has key then standard else value

/-- Whether the paths of the set have no more than the given number of keys. -/
def Within (paths : KeyPaths) (bound : Nat) : Prop :=
  ∀ path, paths path = true → path.length ≤ bound

variable {paths : KeyPaths} {bound : Nat}

theorem within_ofList {listed : List (List String)} (h : ∀ path ∈ listed, path.length ≤ bound) :
    (ofList listed).Within bound := by
  intro path hpath
  exact h path (of_decide_eq_true hpath)

theorem Within.below (h : paths.Within (bound + 1)) (key : String) :
    (paths.below key).Within bound := by
  intro path hpath
  exact Nat.le_of_succ_le_succ (h (key :: path) hpath)

/-- A set of keys of the outermost object has none in the values of the other keys. -/
theorem Within.below_eq_none
    {key : String} (h : paths.Within 1) (hkey : paths.has key = false) :
    paths.below key = none := by
  funext path
  cases path with
  | nil => exact hkey
  | cons next rest =>
      refine Bool.eq_false_iff.mpr fun hpath => ?_
      have hlength : (key :: next :: rest).length ≤ 1 := h _ hpath
      simp at hlength

end KeyPaths

namespace Json

mutual

/-- The value without the keys of a set in the objects that stand in one another. -/
def without (paths : KeyPaths) : Json → Json
  | .obj members => .obj (membersWithout paths members)
  | value => value

/-- The members without the keys of a set. -/
def membersWithout (paths : KeyPaths) : List (String × Json) → List (String × Json)
  | [] => []
  | (key, value) :: rest =>
    if paths.has key then membersWithout paths rest
    else (key, without (paths.below key) value) :: membersWithout paths rest

end

mutual

@[simp]
theorem without_none : ∀ value : Json, value.without .none = value
  | .obj members => by rw [without, membersWithout_none members]
  | .null | .bool _ | .int _ | .decimal _ | .str _ | .arr _ | .unreadable => rfl

theorem membersWithout_none :
    ∀ members : List (String × Json), membersWithout .none members = members
  | [] => rfl
  | (key, value) :: rest => by
    have hvalue : value.without (KeyPaths.none.below key) = value := without_none value
    have hkey : ¬KeyPaths.none.has key = true := Bool.false_ne_true
    rw [membersWithout, if_neg hkey, hvalue, membersWithout_none rest]

end

variable {paths : KeyPaths}

theorem keys_membersWithout (members : List (String × Json)) :
    ((membersWithout paths members).map (·.1)).Sublist (members.map (·.1)) := by
  induction members with
  | nil => exact .slnil
  | cons first rest ih =>
      rw [membersWithout]
      split
      · exact ih.cons _
      · exact ih.cons_cons _

/-- A key that is kept has what is left of its value. -/
theorem lookup_membersWithout (key : String) (members : List (String × Json)) :
    (membersWithout paths members).lookup key =
      if paths.has key then none else (members.lookup key).map (without (paths.below key)) := by
  induction members with
  | nil => simp [membersWithout]
  | cons first rest ih =>
      obtain ⟨other, value⟩ := first
      by_cases heq : key = other
      · subst heq
        by_cases hkey : paths.has key = true
        · rw [membersWithout, if_pos hkey, ih, if_pos hkey, if_pos hkey]
        · rw [membersWithout, if_neg hkey, if_neg hkey, List.lookup_cons_self,
            List.lookup_cons_self, Option.map_some]
      · have hne : (key == other) = false := beq_eq_false_iff_ne.mpr heq
        have hrest : ((other, value) :: rest).lookup key = rest.lookup key := by
          rw [List.lookup_cons, hne]
        rw [membersWithout, hrest]
        split
        · exact ih
        · rw [List.lookup_cons, hne]
          exact ih

end Json

namespace Record

variable {paths : KeyPaths} {members : List (String × Json)} {keys : List String}

theorem ofOpenJson?_without (h : (members.map (·.1)).Nodup) :
    ofOpenJson? keys ((Json.obj members).without paths) =
      some ⟨Json.membersWithout paths members⟩ :=
  ofOpenJson?_obj (h.sublist (Json.keys_membersWithout members))

/-- A key that was taken out has its standard value, and another one what is read from the rest of
its value. -/
theorem withDefault_without
    {α : Type} {key : String} {read : Json → Option α} {content : Json} {standard value : α}
    (hmember : members.lookup key = some content)
    (hread : paths.has key = false → read (content.without (paths.below key)) = some value) :
    withDefault ⟨Json.membersWithout paths members⟩ key read standard =
      some (paths.pick key standard value) := by
  rw [withDefault, get?, Json.lookup_membersWithout, hmember, KeyPaths.pick]
  cases hkey : paths.has key with
  | true => rfl
  | false => exact hread hkey

end Record

end Specwright
