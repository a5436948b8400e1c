/-!
# Maps sorted by key

A finite map from texts, kept as a list of entries in strictly ascending order of their keys.  Two
maps with the same entries are therefore equal, and the order in which entries are written is fixed
by the keys alone.
-/

namespace Specwright

/-- A finite map from texts, its entries in strictly ascending order. -/
structure SortedMap (α : Type) where
  entries : List (String × α)
  sorted : entries.Pairwise fun a b => a.1 < b.1

namespace SortedMap

variable {α : Type}

/-- The map without entries. -/
def empty : SortedMap α where
  entries := []
  sorted := .nil

instance : Inhabited (SortedMap α) :=
  ⟨empty⟩

/-- Puts an entry in its place by key, where it replaces the entry of the same key. -/
def insertEntry (key : String) (value : α) : List (String × α) → List (String × α)
  | [] => [(key, value)]
  | (other, old) :: rest =>
    if key < other then (key, value) :: (other, old) :: rest
    else if key = other then (key, value) :: rest
    else (other, old) :: insertEntry key value rest

theorem key_of_mem_insertEntry
    {key : String} {value : α} {entry : String × α}
    {entries : List (String × α)} (h : entry ∈ insertEntry key value entries) :
    entry = (key, value) ∨ entry ∈ entries := by
  induction entries with
  | nil => simpa [insertEntry] using h
  | cons first rest ih =>
    obtain ⟨other, old⟩ := first
    rw [insertEntry] at h
    split at h
    · simpa using h
    · split at h
      · rcases List.mem_cons.mp h with rfl | h
        · exact .inl rfl
        · exact .inr (List.mem_cons_of_mem _ h)
      · rcases List.mem_cons.mp h with rfl | h
        · exact .inr List.mem_cons_self
        · exact (ih h).imp id (List.mem_cons_of_mem _)

/-- Inserting keeps the order. -/
theorem sorted_insertEntry
    {key : String} {value : α} {entries : List (String × α)}
    (h : entries.Pairwise fun a b => a.1 < b.1) :
    (insertEntry key value entries).Pairwise fun a b => a.1 < b.1 := by
  induction entries with
  | nil => simp [insertEntry]
  | cons first rest ih =>
    obtain ⟨other, old⟩ := first
    obtain ⟨hfirst, hrest⟩ := List.pairwise_cons.mp h
    rw [insertEntry]
    split
    · next hlt =>
      refine List.pairwise_cons.mpr ⟨fun entry hmem => ?_, h⟩
      rcases List.mem_cons.mp hmem with rfl | hmem
      · exact hlt
      · exact String.lt_trans hlt (hfirst entry hmem)
    · next hge =>
      split
      · next heq =>
        refine List.pairwise_cons.mpr ⟨fun entry hmem => ?_, hrest⟩
        have : other < entry.1 := hfirst entry hmem
        rwa [← heq] at this
      · next hne =>
        refine List.pairwise_cons.mpr ⟨fun entry hmem => ?_, ih hrest⟩
        rcases key_of_mem_insertEntry hmem with rfl | hmem
        · have hle : other ≤ key := String.not_lt.mp hge
          refine Decidable.byContradiction fun hnot => hne ?_
          exact String.le_antisymm (String.not_lt.mp hnot) hle
        · exact hfirst entry hmem

/-- Binds a key to a value, in place of the value that it had. -/
def insert (map : SortedMap α) (key : String) (value : α) : SortedMap α where
  entries := insertEntry key value map.entries
  sorted := sorted_insertEntry map.sorted

/-- The map of a list of entries, the last of each key. -/
def ofList (entries : List (String × α)) : SortedMap α :=
  entries.foldl (fun map entry => map.insert entry.1 entry.2) empty

/-- The value of a key. -/
def get? (map : SortedMap α) (key : String) : Option α :=
  map.entries.lookup key

/-- Whether a key has a value. -/
def contains (map : SortedMap α) (key : String) : Bool :=
  (map.get? key).isSome

/-- The keys in ascending order. -/
def keys (map : SortedMap α) : List String :=
  map.entries.map (·.1)

theorem lookup_insertEntry_self
    (key : String) (value : α) (entries : List (String × α)) :
    (insertEntry key value entries).lookup key = some value := by
  induction entries with
  | nil => simp [insertEntry]
  | cons first rest ih =>
    obtain ⟨other, old⟩ := first
    rw [insertEntry]
    split
    · simp
    · split
      · simp
      · next hne =>
        have hbeq : (key == other) = false := by simpa using hne
        simpa [List.lookup_cons, hbeq] using ih

theorem lookup_insertEntry_of_ne
    {key wanted : String} (value : α) (entries : List (String × α))
    (h : wanted ≠ key) :
    (insertEntry key value entries).lookup wanted = entries.lookup wanted := by
  have hbeq : (wanted == key) = false := by simpa using h
  induction entries with
  | nil => simp [insertEntry, h]
  | cons first rest ih =>
    obtain ⟨other, old⟩ := first
    rw [insertEntry]
    split
    · simp [List.lookup_cons, hbeq]
    · split
      · next heq => simp [List.lookup_cons, hbeq, ← heq]
      · simp [List.lookup_cons, ih]

@[simp]
theorem get?_insert_self (map : SortedMap α) (key : String) (value : α) :
    (map.insert key value).get? key = some value :=
  lookup_insertEntry_self key value map.entries

theorem get?_insert_of_ne
    (map : SortedMap α) {key wanted : String} (value : α)
    (h : wanted ≠ key) :
    (map.insert key value).get? wanted = map.get? wanted :=
  lookup_insertEntry_of_ne value map.entries h

end SortedMap

end Specwright
