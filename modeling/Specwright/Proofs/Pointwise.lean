import Mathlib.Data.List.Forall2
import Specwright.Distinct

/-!
# Lists related item by item

The members of a model are related to declarations one by one.  What selects, drops or reads items
in the same way on both sides keeps the relation.
-/

namespace Specwright

variable {α β γ δ : Type} {related : α → β → Prop} {items : List α} {results : List β}

/-- Results that are related to the same items agree in what they are mapped to, when any two
results for one item do. -/
theorem map_eq_map_of_forall₂
    {related' : α → γ → Prop} {results' : List γ} {view : β → δ} {view' : γ → δ}
    (h : List.Forall₂ related items results) (h' : List.Forall₂ related' items results')
    (hagree : ∀ item result result',
      related item result → related' item result' → view result = view' result') :
    results.map view = results'.map view' := by
  induction h generalizing results' with
  | nil =>
      cases h'
      rfl
  | cons hfirst _ ih =>
      cases h' with
      | cons hfirst' hrest' =>
          rw [List.map_cons, List.map_cons, hagree _ _ _ hfirst hfirst', ih hrest']

theorem map_eq_of_forall₂
    {view : α → γ} {view' : β → γ}
    (h : List.Forall₂ related items results)
    (hagree : ∀ item result, related item result → view item = view' result) :
    items.map view = results.map view' := by
  induction h with
  | nil => rfl
  | cons hfirst _ ih => rw [List.map_cons, List.map_cons, hagree _ _ hfirst, ih]

theorem forall₂_filter
    {keep : α → Bool} {keep' : β → Bool}
    (hagree : ∀ item result, related item result → keep item = keep' result)
    (h : List.Forall₂ related items results) :
    List.Forall₂ related (items.filter keep) (results.filter keep') := by
  refine List.rel_filter ?_ h
  intro item result hrelated
  show keep item = true ↔ keep' result = true
  rw [hagree item result hrelated]

/-- Removing repetitions keeps lists related when related items have the same key. -/
theorem forall₂_distinctBy
    [DecidableEq δ] {key : α → δ} {key' : β → δ}
    (hagree : ∀ item result, related item result → key item = key' result)
    (h : List.Forall₂ related items results) :
    List.Forall₂ related (distinctBy key items) (distinctBy key' results) := by
  induction h with
  | nil => exact .nil
  | cons hfirst _ ih =>
      refine .cons hfirst (forall₂_filter ?_ ih)
      intro item result hrelated
      rw [hagree _ _ hrelated, hagree _ _ hfirst]

theorem forall₂_and_right
    {holds : β → Prop} (h : List.Forall₂ related items results)
    (hall : ∀ result ∈ results, holds result) :
    List.Forall₂ (fun item result => related item result ∧ holds result) items results := by
  induction h with
  | nil => exact .nil
  | cons hfirst _ ih =>
      obtain ⟨hhead, htail⟩ := List.forall_mem_cons.mp hall
      exact .cons ⟨hfirst, hhead⟩ (ih htail)

theorem exists_mem_iff_of_forall₂
    {holds : α → Prop} {holds' : β → Prop}
    (hagree : ∀ item result, related item result → (holds item ↔ holds' result))
    (h : List.Forall₂ related items results) :
    (∃ item ∈ items, holds item) ↔ ∃ result ∈ results, holds' result := by
  induction h with
  | nil => simp
  | cons hfirst _ ih =>
      rw [List.exists_mem_cons_iff, List.exists_mem_cons_iff, hagree _ _ hfirst, ih]

theorem exists_related_of_mem
    {item : α} (h : List.Forall₂ related items results) (hitem : item ∈ items) :
    ∃ result ∈ results, related item result := by
  induction h with
  | nil => cases hitem
  | @cons first result _ _ hfirst _ ih =>
      rcases List.mem_cons.mp hitem with rfl | hrest
      · exact ⟨result, List.mem_cons_self, hfirst⟩
      · obtain ⟨found, hfound, hrelated⟩ := ih hrest
        exact ⟨found, List.mem_cons_of_mem _ hfound, hrelated⟩

/-- What is related to the items through results is related to the items. -/
theorem forall₂_comp
    {related' : β → γ → Prop} {through : α → γ → Prop} {others : List γ}
    (h : List.Forall₂ related items results) (h' : List.Forall₂ related' results others)
    (hthrough : ∀ item result other,
      related item result → related' result other → through item other) :
    List.Forall₂ through items others := by
  induction h generalizing others with
  | nil =>
      cases h'
      exact .nil
  | cons hfirst _ ih =>
      cases h' with
      | cons hfirst' hrest' => exact .cons (hthrough _ _ _ hfirst hfirst') (ih hrest')

/-- Results that are related to items are related to each other when the items agree in a key. -/
theorem forall₂_of_map_eq
    {items' : List γ} {results' : List δ} {κ : Type} {key : α → κ} {key' : γ → κ}
    {related' : γ → δ → Prop} {between : β → δ → Prop}
    (hkeys : items.map key = items'.map key') (h : List.Forall₂ related items results)
    (h' : List.Forall₂ related' items' results')
    (hbetween : ∀ item item' result result', key item = key' item' →
      related item result → related' item' result' → between result result') :
    List.Forall₂ between results results' := by
  induction h generalizing items' results' with
  | nil =>
      cases h' with
      | nil => exact .nil
      | cons => cases hkeys
  | cons hfirst _ ih =>
      cases h' with
      | nil => cases hkeys
      | cons hfirst' hrest' =>
          obtain ⟨hkey, hkeys⟩ := List.cons.inj hkeys
          exact .cons (hbetween _ _ _ _ hkey hfirst hfirst') (ih hkeys hrest')

/-- Work on related items in turn is the same when it is the same on any two related ones. -/
theorem mapM_eq_of_forall₂
    {m : Type → Type} [Monad m] [LawfulMonad m] {work : α → m γ} {work' : β → m γ}
    (h : List.Forall₂ related items results)
    (hagree : ∀ item result, related item result → work item = work' result) :
    items.mapM work = results.mapM work' := by
  induction h with
  | nil => rw [List.mapM_nil, List.mapM_nil]
  | cons hfirst _ ih => rw [List.mapM_cons, List.mapM_cons, hagree _ _ hfirst, ih]

theorem filterMap_eq_of_forall₂
    {view : α → Option γ} {view' : β → Option γ}
    (h : List.Forall₂ related items results)
    (hagree : ∀ item result, related item result → view item = view' result) :
    items.filterMap view = results.filterMap view' := by
  induction h with
  | nil => rfl
  | cons hfirst _ ih => rw [List.filterMap_cons, List.filterMap_cons, hagree _ _ hfirst, ih]

theorem any_eq_of_forall₂
    {holds : α → Bool} {holds' : β → Bool}
    (h : List.Forall₂ related items results)
    (hagree : ∀ item result, related item result → holds item = holds' result) :
    items.any holds = results.any holds' := by
  induction h with
  | nil => rfl
  | cons hfirst _ ih => rw [List.any_cons, List.any_cons, hagree _ _ hfirst, ih]

theorem isEmpty_eq_of_forall₂ (h : List.Forall₂ related items results) :
    items.isEmpty = results.isEmpty := by
  cases h <;> rfl

/-- The first items with a property are related when the property agrees on related items. -/
theorem rel_find?_of_forall₂
    {holds : α → Bool} {holds' : β → Bool}
    (h : List.Forall₂ related items results)
    (hagree : ∀ item result, related item result → holds item = holds' result) :
    Option.Rel related (items.find? holds) (results.find? holds') := by
  induction h with
  | nil => exact .none
  | @cons first result _ _ hfirst _ ih =>
      rw [List.find?_cons, List.find?_cons, ← hagree _ _ hfirst]
      cases holds first with
      | true => exact .some hfirst
      | false => exact ih

/-! ## Optional items -/

theorem optionRel_flip
    {item : Option α} {result : Option β} (h : Option.Rel related item result) :
    Option.Rel (fun result item => related item result) result item := by
  cases h with
  | none => exact .none
  | some hvalue => exact .some hvalue

theorem optionMap_eq_of_rel
    {item : Option α} {result : Option β} {view : α → γ} {view' : β → γ}
    (h : Option.Rel related item result)
    (hagree : ∀ item result, related item result → view item = view' result) :
    item.map view = result.map view' := by
  cases h with
  | none => rfl
  | some hvalue => rw [Option.map_some, Option.map_some, hagree _ _ hvalue]

/-- What is related to an item through a result is related to the item, if there is one. -/
theorem optionRel_comp
    {related' : β → γ → Prop} {through : α → γ → Prop}
    {item : Option α} {result : Option β} {other : Option γ}
    (h : Option.Rel related item result) (h' : Option.Rel related' result other)
    (hthrough : ∀ item result other,
      related item result → related' result other → through item other) :
    Option.Rel through item other := by
  cases h with
  | none =>
      cases h'
      exact .none
  | some hvalue =>
      cases h' with
      | some hvalue' => exact .some (hthrough _ _ _ hvalue hvalue')

end Specwright
