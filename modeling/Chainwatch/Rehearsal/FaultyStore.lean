import Chainwatch.Store.Contract
import Chainwatch.Tracker.Task

/-!
# Faulty stores

A store whose operations fail by script. An operation that fails does nothing else.
-/

namespace Chainwatch

structure FaultyStore (S : Type) where
  inner : S
  faults : List (StoreCall × TrackError)

namespace FaultyStore

variable {S σ α : Type}

def write (s : FaultyStore S) (call : StoreCall) (state : σ) (operation : S → Written S σ α) :
    Written (FaultyStore S) σ α :=
  match s.faults.lookup call with
  | some e => ⟨.error e, s, state⟩
  | none =>
    let written := operation s.inner
    ⟨written.outcome, { s with inner := written.store }, written.state⟩

instance [BlockStore S] : BlockStore (FaultyStore S) where
  createHead s head hooks state :=
    s.write .create state fun inner => BlockStore.createHead inner head hooks state
  upsertHead s head hooks state :=
    s.write .upsert state fun inner => BlockStore.upsertHead inner head hooks state
  saveLogs s chain hash events hooks state :=
    s.write .saveLogs state fun inner => BlockStore.saveLogs inner chain hash events hooks state
  height s chain :=
    match s.faults.lookup .height with
    | some e => .error e
    | none => BlockStore.height s.inner chain
  heads s := BlockStore.heads s.inner
  countHeads s := BlockStore.countHeads s.inner
  events s := BlockStore.events s.inner
  countEvents s := BlockStore.countEvents s.inner

end FaultyStore

end Chainwatch
