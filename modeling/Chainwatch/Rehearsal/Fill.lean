import Chainwatch.Rehearsal.Remote
import Chainwatch.Store.Contract

/-!
# Filled stores

Rows for a rehearsal that needs many blocks: plain heads in one state, some of them with a plain
event.
-/

namespace Chainwatch

def Log.plain (txHash : String) : Log where
  address := "0xaa"
  topics := ["0xsig"]
  data := []
  blockNumber := 0
  blockHash := ""
  txHash := txHash
  txIndex := 0
  logIndex := 0
  removed := false

structure Filling where
  chain : UInt64
  state : BlockState
  /-- The numbers that this divides get an event; with zero, none does. -/
  every : Nat

namespace Filling

variable {S : Type} [BlockStore S]

/-- Adds the event of a block, if it is to have one. -/
def addEvent (f : Filling) (number : Nat) (head : Head) (store : S) : Except TrackError Unit × S :=
  if f.every ≠ 0 ∧ number % f.every = 0 then
    let event := Event.ofLog 0 .unset (.plain ("0xt" ++ toString number))
    let saved := BlockStore.saveLogs store f.chain head.hash [event] [] ()
    (saved.outcome.map fun _ => (), saved.store)
  else (.ok (), store)

def addBlock (f : Filling) (number : Nat) (store : S) : Except TrackError Unit × S :=
  let head := Head.ofHeader f.chain (.plain (UInt64.ofNat number)) f.state
  let created := BlockStore.createHead store head [] ()
  match created.outcome with
  | .error e => (.error e, created.store)
  | .ok _ => f.addEvent number head created.store

/-- Adds so many blocks from a number on, up to the first that cannot be added. Answers how many
were added, and the failure if there was one. -/
def fill (f : Filling) (number : Nat) (store : S) : Nat → Nat × Option TrackError × S
  | 0 => (0, none, store)
  | count + 1 =>
    match f.addBlock number store with
    | (.error e, store) => (0, some e, store)
    | (.ok (), store) =>
      let (done, failure, store) := fill f (number + 1) store count
      (done + 1, failure, store)

end Filling

end Chainwatch
