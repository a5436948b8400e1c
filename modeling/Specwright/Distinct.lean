/-!
# First occurrences

Lists from which repetitions are removed: of several items with one key the first stays in its
place.
-/

namespace Specwright

/-- The items whose key no earlier item has. -/
def distinctBy {α β : Type} [DecidableEq β] (key : α → β) : List α → List α
  | [] => []
  | item :: rest => item :: (distinctBy key rest).filter fun other => key other ≠ key item

/-- The items without repetition. -/
def distinct {α : Type} [DecidableEq α] (items : List α) : List α :=
  distinctBy id items

variable {α β : Type} [DecidableEq β] {key : α → β}

/-- Removing repetitions adds nothing and keeps the order. -/
theorem distinctBy_sublist (items : List α) : (distinctBy key items).Sublist items := by
  induction items with
  | nil => exact .slnil
  | cons item rest ih =>
    exact .cons_cons item (List.filter_sublist.trans ih)

/-- Every key still occurs. -/
theorem exists_mem_distinctBy
    {items : List α} {item : α} (h : item ∈ items) :
    ∃ kept ∈ distinctBy key items, key kept = key item := by
  induction items with
  | nil => cases h
  | cons first rest ih =>
    by_cases heq : key item = key first
    · exact ⟨first, List.mem_cons_self, heq.symm⟩
    · rcases List.mem_cons.mp h with rfl | h
      · exact absurd rfl heq
      · obtain ⟨kept, hkept, hkey⟩ := ih h
        refine ⟨kept, List.mem_cons_of_mem _ (List.mem_filter.mpr ⟨hkept, ?_⟩), hkey⟩
        simpa [hkey] using heq

/-- No key occurs twice. -/
theorem pairwise_distinctBy (items : List α) :
    (distinctBy key items).Pairwise fun a b => key a ≠ key b := by
  induction items with
  | nil => exact .nil
  | cons item rest ih =>
    refine List.pairwise_cons.mpr ⟨fun other hmem => ?_, ih.filter _⟩
    have hne : key other ≠ key item := by simpa using (List.mem_filter.mp hmem).2
    exact hne.symm

/-- Of two lists one behind the other, the second loses the keys of the first. -/
theorem distinctBy_append (items others : List α) :
    distinctBy key (items ++ others) =
      distinctBy key items ++
        (distinctBy key others).filter fun other => key other ∉ items.map key := by
  induction items with
  | nil => exact (List.filter_eq_self.mpr (by simp)).symm
  | cons item rest ih =>
      have hkeys : ∀ other,
          (decide (key other ≠ key item) && decide (key other ∉ rest.map key)) =
            decide (key other ∉ (item :: rest).map key) := by
        intro other
        simp [not_or]
      rw [List.cons_append, distinctBy, ih, List.filter_append, List.filter_filter, distinctBy,
        List.cons_append]
      simp only [hkeys]

theorem distinctBy_of_nodup {items : List α} (h : (items.map key).Nodup) :
    distinctBy key items = items := by
  induction items with
  | nil => rfl
  | cons item rest ih =>
      obtain ⟨hnew, hrest⟩ := List.nodup_cons.mp h
      have hkept : ∀ other ∈ rest, decide (key other ≠ key item) = true := by
        intro other hother
        have hne : key other ≠ key item := fun heq => hnew (heq ▸ List.mem_map_of_mem hother)
        simpa using hne
      rw [distinctBy, ih hrest, List.filter_eq_self.mpr hkept]

/-- Whether a key with a property occurs does not depend on repetitions. -/
theorem any_distinctBy (holds : β → Bool) (items : List α) :
    (distinctBy key items).any (fun item => holds (key item)) =
      items.any fun item => holds (key item) := by
  rw [Bool.eq_iff_iff, List.any_eq_true, List.any_eq_true]
  constructor
  · rintro ⟨item, hitem, hholds⟩
    exact ⟨item, (distinctBy_sublist items).subset hitem, hholds⟩
  · rintro ⟨item, hitem, hholds⟩
    obtain ⟨kept, hkept, hkey⟩ : ∃ kept ∈ distinctBy key items, key kept = key item :=
      exists_mem_distinctBy hitem
    exact ⟨kept, hkept, by rw [hkey]; exact hholds⟩

/-- Dropping keys does not depend on whether repetitions have been removed before. -/
theorem filter_distinctBy (keep : β → Bool) (items : List α) :
    (distinctBy key items).filter (fun item => keep (key item)) =
      distinctBy key (items.filter fun item => keep (key item)) := by
  induction items with
  | nil => rfl
  | cons first rest ih =>
      rw [distinctBy, List.filter_cons, List.filter_cons]
      by_cases hkeep : keep (key first) = true
      · rw [if_pos hkeep, if_pos hkeep, distinctBy, ← ih, List.filter_filter, List.filter_filter]
        simp only [Bool.and_comm]
      · -- The first item is dropped, so its repetitions are dropped for their key.
        have hsame : ∀ item,
            (keep (key item) && decide (key item ≠ key first)) = keep (key item) := by
          intro item
          by_cases heq : key item = key first
          · simp [heq, hkeep]
          · simp [heq]
        rw [if_neg hkeep, if_neg hkeep, List.filter_filter, ← ih]
        simp only [hsame]

/-- The keys of what is left are the keys without repetition. -/
theorem map_distinctBy [BEq β] [LawfulBEq β] (items : List α) :
    (distinctBy key items).map key = (items.map key).eraseDups := by
  match items with
  | [] => rfl
  | first :: rest =>
      have hshorter := List.length_filter_le (fun item => decide (key item ≠ key first)) rest
      have hrest := map_distinctBy (rest.filter fun item => decide (key item ≠ key first))
      have hfilter :
          (distinctBy key rest).filter (fun item => decide (key item ≠ key first)) =
            distinctBy key (rest.filter fun item => decide (key item ≠ key first)) :=
        filter_distinctBy (fun other => decide (other ≠ key first)) rest
      have hkept : ((fun other => !other == key first) ∘ key) =
          fun item => decide (key item ≠ key first) := by
        funext item
        by_cases heq : key item = key first
        · simp [heq]
        · simp [heq, beq_eq_false_iff_ne.mpr heq]
      rw [distinctBy, List.map_cons, hfilter, hrest, List.map_cons, List.eraseDups_cons,
        List.filter_map, hkept]
  termination_by items.length
  decreasing_by exact Nat.lt_succ_of_le hshorter

/-- Where no key occurs twice, an item is the first one of its key exactly when it is listed. -/
theorem find?_key_eq_some_iff
    {items : List α} {item : α} (h : (items.map key).Nodup) :
    items.find? (fun other => key other = key item) = some item ↔ item ∈ items := by
  induction items with
  | nil => simp
  | cons first rest ih =>
    obtain ⟨hnew, hrest⟩ := List.nodup_cons.mp h
    by_cases heq : key first = key item
    · have hother : item ∉ rest := by
        intro hmem
        rw [heq] at hnew
        exact hnew (List.mem_map_of_mem hmem)
      have hfound : (first :: rest).find? (fun other => key other = key item) = some first := by
        simp [heq]
      rw [hfound, List.mem_cons, Option.some_inj]
      exact ⟨fun hfirst => .inl hfirst.symm, fun hmem => (hmem.resolve_right hother).symm⟩
    · have hne : item ≠ first := by
        rintro rfl
        exact heq rfl
      rw [List.find?_cons_of_neg (by simpa using heq), ih hrest, List.mem_cons]
      exact ⟨.inr, fun hmem => hmem.resolve_left hne⟩

section Items

variable [DecidableEq α] {items : List α}

theorem mem_distinct {item : α} : item ∈ distinct items ↔ item ∈ items := by
  constructor
  · intro h
    exact (distinctBy_sublist items).subset h
  · intro h
    obtain ⟨kept, hkept, rfl⟩ : ∃ kept ∈ distinct items, kept = item := exists_mem_distinctBy h
    exact hkept

/-- Of two lists without repetition, the second loses what the first has. -/
theorem distinct_append (h : items.Nodup) (others : List α) :
    distinct (items ++ others) = items ++ (distinct others).filter (· ∉ items) := by
  have hitems : (items.map id).Nodup := by simpa using h
  rw [distinct, distinctBy_append, distinctBy_of_nodup hitems]
  simp [distinct]

end Items

end Specwright
