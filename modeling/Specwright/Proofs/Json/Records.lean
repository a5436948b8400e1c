import Specwright.Host.Codec

/-!
# Reading back what was written

A record that is written as an object is read back by its keys when they are distinct.  A list is
read back when its items are, a choice by its label, and a value that may be missing whether it is
left out or written as null.
-/

namespace Specwright

/-- A list is read back when each of its items is. -/
theorem mapM_map_eq_some
    {α β : Type} {write : α → β} {read : β → Option α} {items : List α}
    (h : ∀ item ∈ items, read (write item) = some item) :
    (items.map write).mapM read = some items := by
  induction items with
  | nil => rfl
  | cons item rest ih =>
      obtain ⟨hitem, hrest⟩ := List.forall_mem_cons.mp h
      rw [List.map_cons, List.mapM_cons, hitem, ih hrest]
      rfl

namespace Record

variable {members : List (String × Json)} {keys : List String}

/-- An object whose keys are distinct is read as the record of its members. -/
theorem ofOpenJson?_obj (h : (members.map (·.1)).Nodup) :
    ofOpenJson? keys (.obj members) = some ⟨members⟩ := by
  have hfew : ∀ key : String, (members.filter (·.1 = key)).length ≤ 1 := by
    intro key
    induction members with
    | nil => exact Nat.zero_le _
    | cons first rest ih =>
        obtain ⟨hnew, hrest⟩ := List.nodup_cons.mp h
        by_cases hkey : first.1 = key
        · have hnone : rest.filter (·.1 = key) = [] := by
            refine List.filter_eq_nil_iff.mpr fun other hother => ?_
            rw [decide_eq_true_iff]
            exact fun heq => hnew (List.mem_map.mpr ⟨other, hother, heq.trans hkey.symm⟩)
          rw [List.filter_cons_of_pos (by simpa using hkey), hnone]
          exact Nat.le_refl 1
        · rw [List.filter_cons_of_neg (by simpa using hkey)]
          exact ih hrest
  rw [ofOpenJson?, if_pos]
  exact List.all_eq_true.mpr fun key _ => decide_eq_true (hfew key)

theorem ofJson?_obj (h : (members.map (·.1)).Nodup) :
    ofJson? keys (.obj members) = some ⟨members⟩ :=
  ofOpenJson?_obj h

@[simp]
theorem get?_cons (key first : String) (value : Json) (members : List (String × Json)) :
    get? ⟨(first, value) :: members⟩ key =
      if key = first then some value else get? ⟨members⟩ key := by
  rw [get?, List.lookup_cons]
  by_cases h : key = first
  · simp [h]
  · simp [h, get?, beq_eq_false_iff_ne.mpr h]

@[simp]
theorem get?_nil (key : String) : get? ⟨[]⟩ key = none :=
  rfl

attribute [simp] required withDefault list flag

/-- A record is read member by member: what is read of the first goes into reading the others. -/
theorem read_then
    {α β : Type} {read : Option α} {next : α → Option β} {value : α} {result : β}
    (h : read = some value) (hnext : next value = some result) :
    (read >>= next) = some result :=
  Option.bind_eq_some_iff.mpr ⟨value, h, hnext⟩

/-- Null is read as absence, and so is a key that is missing. -/
theorem nullable_of_get?
    {α : Type} {record : Record} {key : String} {write : α → Json} {read : Json → Option α}
    {item : Option α} (hread : ∀ value ∈ item, read (write value) = some value)
    (hwrite : ∀ value ∈ item, write value ≠ .null)
    (h : record.get? key = item.map write ∨ record.get? key = some ((item.map write).getD .null)) :
    record.nullable key read = some item := by
  cases item with
  | none => rcases h with h | h <;> simp [nullable, h]
  | some value =>
      have hget : record.get? key = some (write value) := by simpa using h
      have hvalue : write value ≠ .null := hwrite value rfl
      rw [nullable, hget]
      simp [hread value rfl]

end Record

namespace Json

variable {α : Type} {write : α → Json} {read : Json → Option α} {items : List α}

theorem listOf?_map (h : ∀ item ∈ items, read (write item) = some item) :
    listOf? read (.arr (items.map write)) = some items := by
  rw [listOf?, items?]
  exact mapM_map_eq_some h

theorem listOf?_strings
    {label : α → String} (h : ∀ item, read (.str (label item)) = some item) (items : List α) :
    listOf? read (strings (items.map label)) = some items := by
  rw [strings, List.map_map]
  exact listOf?_map fun item _ => h item

@[simp]
theorem listOf?_texts (texts : List String) : listOf? str? (strings texts) = some texts :=
  listOf?_map fun _ _ => rfl

/-- A choice is read back by its label when no two choices have the same. -/
theorem choice?_label
    {choices : List α} {label : α → String} {choice : α} (hlabels : (choices.map label).Nodup)
    (hchoice : choice ∈ choices) :
    choice? choices label (.str (label choice)) = some choice :=
  (find?_key_eq_some_iff hlabels).mpr hchoice

end Json

end Specwright
