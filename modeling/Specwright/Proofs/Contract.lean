import Mathlib.Data.List.Forall2

/-!
# Contracts of effectful work

Models are built in a monad that answers questions about types, and hierarchies are walked in one
that may fail.  A contract says what holds of the result of such work.  The rules below are all that
a proof about a construction needs, so that one proof serves every way to answer: a plain function,
a cache with an invariant, or a computation that counts only where it succeeds.
-/

namespace Specwright

/-- What it means for work in a monad to end in a result with a property. -/
structure Contract (m : Type → Type) [Monad m] where
  Ensures : {α : Type} → m α → (α → Prop) → Prop
  ensures_pure {α : Type} {post : α → Prop} {value : α} : post value → Ensures (pure value) post
  ensures_bind {α β : Type} {work : m α} {next : α → m β} {mid : α → Prop} {post : β → Prop} :
    Ensures work mid → (∀ value, mid value → Ensures (next value) post) →
      Ensures (work >>= next) post

namespace Contract

variable {m : Type → Type} [Monad m] {α β : Type}

section Rules

variable (contract : Contract m)

/-- A property that every step of a fold keeps holds at its end. -/
theorem ensures_foldlM
    {items : List α} {step : β → α → m β} {keeps : β → Prop} {start : β}
    (hstart : keeps start)
    (hstep : ∀ state item, item ∈ items → keeps state → contract.Ensures (step state item) keeps) :
    contract.Ensures (items.foldlM step start) keeps := by
  induction items generalizing start with
  | nil =>
      rw [List.foldlM_nil]
      exact contract.ensures_pure hstart
  | cons first rest ih =>
      rw [List.foldlM_cons]
      refine contract.ensures_bind (hstep start first List.mem_cons_self hstart) ?_
      intro state hstate
      exact ih hstate fun state item hitem => hstep state item (List.mem_cons_of_mem _ hitem)

variable [LawfulMonad m]

theorem ensures_mono
    {work : m α} {strong weak : α → Prop}
    (h : contract.Ensures work strong) (himp : ∀ value, strong value → weak value) :
    contract.Ensures work weak := by
  have hbind : contract.Ensures (work >>= pure) weak :=
    contract.ensures_bind h fun value hvalue => contract.ensures_pure (himp value hvalue)
  rwa [bind_pure] at hbind

/-- A property that every step of a fold keeps holds at its end, and so does what each step adds
about its item. -/
theorem ensures_foldlM_forall
    {items : List α} {step : β → α → m β} {keeps : β → Prop} {done : α → Prop} {start : β}
    (hstart : keeps start)
    (hstep : ∀ state item, item ∈ items → keeps state →
      contract.Ensures (step state item) fun state => keeps state ∧ done item) :
    contract.Ensures (items.foldlM step start) fun state =>
      keeps state ∧ ∀ item ∈ items, done item := by
  induction items generalizing start with
  | nil =>
      rw [List.foldlM_nil]
      exact contract.ensures_pure ⟨hstart, by simp⟩
  | cons first rest ih =>
      rw [List.foldlM_cons]
      refine contract.ensures_bind (hstep start first List.mem_cons_self hstart) ?_
      rintro state ⟨hstate, hfirst⟩
      have hrest := ih hstate fun state item hitem =>
        hstep state item (List.mem_cons_of_mem _ hitem)
      refine contract.ensures_mono hrest ?_
      rintro last ⟨hlast, hdone⟩
      exact ⟨hlast, List.forall_mem_cons.mpr ⟨hfirst, hdone⟩⟩

/-- Work on each item of a list ends in results that are related to the items one by one. -/
theorem ensures_mapM
    {items : List α} {work : α → m β} {related : α → β → Prop}
    (h : ∀ item ∈ items, contract.Ensures (work item) (related item)) :
    contract.Ensures (items.mapM work) (List.Forall₂ related items) := by
  induction items with
  | nil =>
      rw [List.mapM_nil]
      exact contract.ensures_pure List.Forall₂.nil
  | cons first rest ih =>
      obtain ⟨hfirst, hrest⟩ := List.forall_mem_cons.mp h
      rw [List.mapM_cons]
      refine contract.ensures_bind hfirst fun result hresult => ?_
      refine contract.ensures_bind (ih hrest) fun results hresults => ?_
      exact contract.ensures_pure (List.Forall₂.cons hresult hresults)

/-- What work on each item of a list ensures holds of all results. -/
theorem ensures_forall_mapM
    {items : List α} {work : α → m β} {good : β → Prop}
    (h : ∀ item ∈ items, contract.Ensures (work item) good) :
    contract.Ensures (items.mapM work) fun results => ∀ result ∈ results, good result := by
  refine contract.ensures_mono (contract.ensures_mapM h) fun results hresults => ?_
  induction hresults with
  | nil => simp
  | cons hfirst _ ih =>
      obtain ⟨-, hrest⟩ := List.forall_mem_cons.mp h
      exact List.forall_mem_cons.mpr ⟨hfirst, ih hrest⟩

/-- Work on an optional item ends in a result that is related to the item, if there is one. -/
theorem ensures_optionMapM
    {item : Option α} {work : α → m β} {related : α → β → Prop}
    (h : ∀ value ∈ item, contract.Ensures (work value) (related value)) :
    contract.Ensures (item.mapM work) (Option.Rel related item) := by
  cases item with
  | none => exact contract.ensures_pure Option.Rel.none
  | some value =>
      have hwork := h value rfl
      rw [Option.mapM_some, map_eq_pure_bind]
      exact contract.ensures_bind hwork fun result hresult =>
        contract.ensures_pure (Option.Rel.some hresult)

end Rules

/-- The contract of work without effects is a property of its value. -/
def ofValue : Contract Id where
  Ensures work post := post (Id.run work)
  ensures_pure h := h
  ensures_bind h hnext := hnext _ h

/-- The contract of work that may fail speaks of its result where there is one. -/
def ofSuccess (ε : Type) : Contract (Except ε) where
  Ensures work post := ∀ value, work = .ok value → post value
  ensures_pure h := by
    rintro value ⟨⟩
    exact h
  ensures_bind {_ _ work next _ _} h hnext := by
    intro value hvalue
    cases work with
    | error cause => cases hvalue
    | ok middle => exact hnext middle (h middle rfl) value hvalue

/-- The contract of work that may fail with the causes of a kind: it speaks of the result where
there is one, and otherwise of the cause. -/
def ofOutcome {ε : Type} (fails : ε → Prop) : Contract (Except ε) where
  Ensures work post :=
    match work with
    | .ok value => post value
    | .error cause => fails cause
  ensures_pure h := h
  ensures_bind {_ _ work next _ _} h hnext := by
    cases work with
    | error cause => exact h
    | ok middle => exact hnext middle h

theorem ensures_ok
    {ε : Type} {contract : Contract (Except ε)} {value : α} {post : α → Prop} (h : post value) :
    contract.Ensures (.ok value) post :=
  contract.ensures_pure h

/-- Work that may fail and succeeds is one step that succeeds after another. -/
theorem exists_of_bind_eq_ok
    {ε : Type} {work : Except ε α} {next : α → Except ε β} {value : β}
    (h : work >>= next = .ok value) :
    ∃ middle, work = .ok middle ∧ next middle = .ok value := by
  cases work with
  | error cause => cases h
  | ok middle => exact ⟨middle, rfl, h⟩

/-- Work on each item of a list succeeds exactly when it succeeds on every item. -/
theorem exists_mapM_eq_ok_iff
    {ε : Type} {items : List α} {work : α → Except ε β} :
    (∃ results, items.mapM work = .ok results) ↔
      ∀ item ∈ items, ∃ result, work item = .ok result := by
  induction items with
  | nil =>
      rw [List.mapM_nil]
      exact ⟨by simp, fun _ => ⟨[], rfl⟩⟩
  | cons first rest ih =>
      rw [List.mapM_cons, List.forall_mem_cons, ← ih]
      constructor
      · rintro ⟨results, h⟩
        obtain ⟨result, hfirst, h⟩ := exists_of_bind_eq_ok h
        obtain ⟨others, hrest, -⟩ := exists_of_bind_eq_ok h
        exact ⟨⟨result, hfirst⟩, others, hrest⟩
      · rintro ⟨⟨result, hfirst⟩, others, hrest⟩
        rw [hfirst, hrest]
        exact ⟨result :: others, rfl⟩

/-- The contract of work with a state: the state keeps an invariant. -/
def keeping {σ : Type} (invariant : σ → Prop) : Contract (StateM σ) where
  Ensures work post :=
    ∀ state, invariant state → post (work.run state).1 ∧ invariant (work.run state).2
  ensures_pure h := fun _ hstate => ⟨h, hstate⟩
  ensures_bind h hnext := by
    intro state hstate
    obtain ⟨hmid, hstate'⟩ := h state hstate
    exact hnext _ hmid _ hstate'

/-- The contract of work with a state: the state at the end has come from the one at the start. -/
def advancing
    {σ : Type} (comes : σ → σ → Prop) (hrefl : ∀ state, comes state state)
    (htrans : ∀ {first second third}, comes first second → comes second third →
      comes first third) :
    Contract (StateM σ) where
  Ensures work post := ∀ state, post (work.run state).1 ∧ comes state (work.run state).2
  ensures_pure h := fun state => ⟨h, hrefl state⟩
  ensures_bind h hnext := by
    intro state
    obtain ⟨hmid, hfirst⟩ := h state
    obtain ⟨hpost, hsecond⟩ := hnext _ hmid _
    exact ⟨hpost, htrans hfirst hsecond⟩

theorem keeping_modify
    {σ : Type} {invariant : σ → Prop} {change : σ → σ}
    (h : ∀ state, invariant state → invariant (change state)) :
    (keeping invariant).Ensures (modify change : StateM σ PUnit) fun _ => True :=
  fun state hstate => ⟨trivial, h state hstate⟩

end Contract

end Specwright
