/-!
# Work that comes to the same

A construction that is carried out in two monads, or twice in one with different answers, comes to
the same when all that it asks for does.  An agreement says what that means.  The rules below are
all that a proof about a construction needs, so that one proof serves every pair of ways to answer.
-/

namespace Specwright

/-- What it means for work in one monad to come to the same as work in another. -/
structure Agreement (m n : Type → Type) [Monad m] [Monad n] where
  Agree : {α : Type} → m α → n α → Prop
  agree_pure {α : Type} (value : α) : Agree (pure value) (pure value)
  agree_bind {α β : Type} {work : m α} {work' : n α} {next : α → m β} {next' : α → n β} :
    Agree work work' → (∀ value, Agree (next value) (next' value)) →
      Agree (work >>= next) (work' >>= next')

namespace Agreement

variable {m n : Type → Type} [Monad m] [Monad n] {α β : Type}

section Rules

variable [LawfulMonad m] [LawfulMonad n] (agreement : Agreement m n)

/-- Work on the items of a list comes to the same when it does on each item. -/
theorem agree_mapM
    {items : List α} {work : α → m β} {work' : α → n β}
    (h : ∀ item ∈ items, agreement.Agree (work item) (work' item)) :
    agreement.Agree (items.mapM work) (items.mapM work') := by
  induction items with
  | nil =>
      rw [List.mapM_nil, List.mapM_nil]
      exact agreement.agree_pure []
  | cons first rest ih =>
      obtain ⟨hfirst, hrest⟩ := List.forall_mem_cons.mp h
      rw [List.mapM_cons, List.mapM_cons]
      exact agreement.agree_bind hfirst fun result =>
        agreement.agree_bind (ih hrest) fun results => agreement.agree_pure _

theorem agree_optionMapM
    {item : Option α} {work : α → m β} {work' : α → n β}
    (h : ∀ value ∈ item, agreement.Agree (work value) (work' value)) :
    agreement.Agree (item.mapM work) (item.mapM work') := by
  cases item with
  | none => exact agreement.agree_pure none
  | some value =>
      rw [Option.mapM_some, Option.mapM_some, map_eq_pure_bind, map_eq_pure_bind]
      exact agreement.agree_bind (h value rfl) fun result => agreement.agree_pure _

end Rules

/-- Work in one monad comes to the same as equal work. -/
def equal (m : Type → Type) [Monad m] : Agreement m m where
  Agree work work' := work = work'
  agree_pure _ := rfl
  agree_bind := by
    rintro _ _ work _ next next' rfl hnext
    rw [funext hnext]

/-- Work with a state that may break off comes to the same as work that does not: it returns with
the same result and the same state. -/
def returning (σ : Type) : Agreement (StateT σ Option) (StateM σ) where
  Agree work work' := ∀ state, work.run state = some (work'.run state)
  agree_pure _ _ := rfl
  agree_bind {_ _ _ work' _ _} hwork hnext := by
    intro state
    rw [StateT.run_bind, hwork state]
    exact hnext (work'.run state).1 (work'.run state).2

end Agreement

end Specwright
