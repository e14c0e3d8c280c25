import Chainwatch.Dispatcher
import Chainwatch.Store.Contract

/-!
# Ledger

The state shared by the loops of a tracker: the store, the subscribers, and the record of what happened so
far. A write dispatches notices through its hooks, so that they are given exactly when it takes effect.
The store may also fail a write by itself; then the write has no effect.
-/

namespace Chainwatch

/-- The context of a start; cancelling it stops what was started. -/
abbrev Context := String

/-- A question to the node. -/
inductive Call where
  | chainId
  | subscribe
  | header (number : UInt64)
  | logs (addresses : List String) (first last : UInt64)
  deriving DecidableEq, Repr

/-- An entry in the record of a tracker. -/
inductive Signal where
  | asked (call : Call)
  | head (head : Head)
  | event (event : Event)
  | failure (run : Nat) (cause : TrackError)
  | live (run : Nat) (number : UInt64)
  | spawned (task : Nat)
  | ended (task : Nat)
  | settled (run : Nat)
  | halted (run : Nat)
  | cancelled (context : Context)
  | rested
  deriving DecidableEq, Repr

/-- The subscribers, and what happened so far, oldest first. -/
structure Outlet where
  dispatcher : Dispatcher
  signals : List Signal
  deriving DecidableEq, Repr

namespace Outlet

def emit (o : Outlet) (signal : Signal) : Outlet :=
  { o with signals := o.signals ++ [signal] }

def tellHead (o : Outlet) (head : Head) : Outlet :=
  { o with dispatcher := o.dispatcher.dispatchHead head }.emit (.head head)

/-- Dispatches events one after another. -/
def tellEvents (o : Outlet) (events : List Event) : Outlet where
  dispatcher := o.dispatcher.dispatchEvents events
  signals := o.signals ++ events.map .event

/-- Queues the failure of a run for every address subscriber. -/
def tellFailure (o : Outlet) (run : Nat) (cause : TrackError) : Outlet :=
  { o with dispatcher := o.dispatcher.broadcast cause }.emit (.failure run cause)

/-- Whether a block with this bloom may hold something watched; `none` if the bloom is too short
to tell. -/
def mayHold? (o : Outlet) (bloom : Bloom) : Option Bool :=
  bloom.containsAny? o.dispatcher.addresses

end Outlet

structure Ledger (S : Type) where
  store : S
  outlet : Outlet

namespace Ledger

variable {S α : Type}

def emit (l : Ledger S) (signal : Signal) : Ledger S :=
  { l with outlet := l.outlet.emit signal }

/-- Carries out a write on the store, unless the store fails by itself. -/
def write (l : Ledger S) (fault : Option TrackError) (operation : S → Outlet → Written S Outlet α) :
    Except TrackError α × Ledger S :=
  match fault with
  | some e => (.error e, l)
  | none =>
    let written := operation l.store l.outlet
    (written.outcome, ⟨written.store, written.state⟩)

variable [BlockStore S]

/-- Creates a head and dispatches it as seen. -/
def recordHead (l : Ledger S) (fault : Option TrackError) (head : Head) :
    Except TrackError Head × Ledger S :=
  l.write fault fun store outlet =>
    BlockStore.createHead store head
      [fun stored outlet => (.ok (), outlet.tellHead (stored.withState .seen))] outlet

/-- Upserts a head and dispatches it as stored. -/
def promoteHead (l : Ledger S) (fault : Option TrackError) (head : Head) :
    Except TrackError Head × Ledger S :=
  l.write fault fun store outlet =>
    BlockStore.upsertHead store head
      [fun stored outlet => (.ok (), outlet.tellHead stored)] outlet

/-- Saves events of a block and dispatches them as stored. -/
def recordEvents (l : Ledger S) (fault : Option TrackError) (chain : UInt64) (hash : String)
    (events : List Event) : Except TrackError (List Event) × Ledger S :=
  l.write fault fun store outlet =>
    BlockStore.saveLogs store chain hash events
      [fun stored outlet => (.ok (), outlet.tellEvents stored)] outlet

def keepEvents (l : Ledger S) (fault : Option TrackError) (chain : UInt64) (hash : String)
    (events : List Event) : Except TrackError (List Event) × Ledger S :=
  l.write fault fun store outlet => BlockStore.saveLogs store chain hash events [] outlet

def height (l : Ledger S) (fault : Option TrackError) (chain : UInt64) :
    Except TrackError UInt64 :=
  match fault with
  | some e => .error e
  | none => BlockStore.height l.store chain

end Ledger

end Chainwatch
