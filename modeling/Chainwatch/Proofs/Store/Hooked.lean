import Std.Data.ExtTreeMap.Lemmas
import Chainwatch.Store.Nested
import Chainwatch.Store.Relational

/-!
# Hooks and their state

A store changes the hook state through hooks only: a write leaves it as it was, or as the hooks left it
when they ran.
-/

namespace Chainwatch

variable {S σ α : Type}

/-- The hook state is unchanged, or is what the hooks left when they ran. -/
def Written.IsHooked (w : Written S σ α) (hooks : List (Hook σ α)) (state : σ) : Prop :=
  w.state = state ∨ ∃ stored, w.state = (runHooks hooks stored state).2

/-- A store that changes the hook state through its hooks only. -/
class HookedStore (S : Type) [BlockStore S] : Prop where
  createHead {σ : Type} (s : S) (head : Head) (hooks : List (Hook σ Head)) (state : σ) :
    (BlockStore.createHead s head hooks state).IsHooked hooks state
  upsertHead {σ : Type} (s : S) (head : Head) (hooks : List (Hook σ Head)) (state : σ) :
    (BlockStore.upsertHead s head hooks state).IsHooked hooks state
  saveLogs {σ : Type} (s : S) (chain : UInt64) (hash : String) (events : List Event)
    (hooks : List (Hook σ (List Event))) (state : σ) :
    (BlockStore.saveLogs s chain hash events hooks state).IsHooked hooks state

/-- Mapping the outcome of a write keeps `IsHooked`. -/
theorem isHooked_of_ran {hooks : List (Hook σ α)} {stored : α} {state after : σ} {outcome : Except TrackError Unit}
    (ran : runHooks hooks stored state = (outcome, after)) (w : Written S σ α) (same : w.state = after) :
    w.IsHooked hooks state :=
  Or.inr ⟨stored, by rw [ran, same]⟩

instance : HookedStore NestedStore where
  createHead s head hooks state := by
    change (s.createHead head hooks state).IsHooked hooks state
    unfold NestedStore.createHead
    dsimp only
    split
    · exact Or.inl rfl
    · split
      · exact Or.inl rfl
      · split <;> rename_i ran <;> exact isHooked_of_ran ran _ rfl
  upsertHead s head hooks state := by
    change (s.upsertHead head hooks state).IsHooked hooks state
    unfold NestedStore.upsertHead
    dsimp only
    split
    · exact Or.inl rfl
    · split <;> rename_i ran <;> exact isHooked_of_ran ran _ rfl
  saveLogs s chain hash events hooks state := by
    change (s.saveLogs chain hash events hooks state).IsHooked hooks state
    unfold NestedStore.saveLogs
    dsimp only
    split
    · exact Or.inl rfl
    · split
      · exact Or.inl rfl
      · split <;> rename_i ran <;> exact isHooked_of_ran ran _ rfl

instance : HookedStore RelationalStore where
  createHead s head hooks state := by
    change (s.createHead head hooks state).IsHooked hooks state
    unfold RelationalStore.createHead
    split
    · exact Or.inl rfl
    · split <;> rename_i ran <;> exact isHooked_of_ran ran _ rfl
  upsertHead s head hooks state := by
    change (s.upsertHead head hooks state).IsHooked hooks state
    unfold RelationalStore.upsertHead
    split
    · exact Or.inl rfl
    · split
      · exact Or.inl rfl
      · split <;> rename_i ran <;> exact isHooked_of_ran ran _ rfl
  saveLogs s chain hash events hooks state := by
    change (s.saveLogs chain hash events hooks state).IsHooked hooks state
    unfold RelationalStore.saveLogs
    dsimp only
    split
    · exact Or.inl rfl
    · split
      · exact Or.inl rfl
      · split
        · exact Or.inl rfl
        · split <;> rename_i ran <;> exact isHooked_of_ran ran _ rfl

end Chainwatch
