import Chainwatch.Error
import Chainwatch.Query

/-!
# What a store does

A store keeps heads and their events. Every write takes hooks, which run after the write took effect
and within it: they see what was stored, may change a state of their own, and the first one that
fails undoes the write. What hooks did to their state stays done.
-/

namespace Chainwatch

/-- A hook of a write that stores an `α`; its own state is a `σ`. -/
abbrev Hook (σ α : Type) : Type := α → σ → Except TrackError Unit × σ

def runHooks {σ α : Type} : List (Hook σ α) → α → σ → Except TrackError Unit × σ
  | [], _, state => (.ok (), state)
  | hook :: rest, stored, state =>
    match hook stored state with
    | (.ok (), state) => runHooks rest stored state
    | (.error e, state) => (.error e.ofHook, state)

structure Written (S σ α : Type) where
  outcome : Except TrackError α
  store : S
  state : σ

/-- The operations of a store. -/
class BlockStore (S : Type) where
  /-- Adds a head. It conflicts with one of the same number or the same hash on its chain. -/
  createHead {σ : Type} : S → Head → List (Hook σ Head) → σ → Written S σ Head
  /-- Adds a head, or puts it in the place of the one of its number. It conflicts with one of the
  same hash and another number. A confirmed number stays confirmed. -/
  upsertHead {σ : Type} : S → Head → List (Hook σ Head) → σ → Written S σ Head
  /-- Adds events to the block of a hash. Of two events at one place, the earlier stays. -/
  saveLogs {σ : Type} :
    S → UInt64 → String → List Event → List (Hook σ (List Event)) → σ → Written S σ (List Event)
  /-- The greatest confirmed number on a chain, or zero. -/
  height : S → UInt64 → Except TrackError UInt64
  /-- The heads that a query admits, by chain and number. -/
  heads : S → HeadQuery → Except TrackError (List Head)
  countHeads : S → HeadQuery → Except TrackError Nat
  /-- The events that a query admits, by chain, number and place. -/
  events : S → EventQuery → Except TrackError (List Event)
  countEvents : S → EventQuery → Except TrackError Nat

namespace BlockStore

variable {S : Type} [BlockStore S]

def head? (s : S) (chain number : UInt64) : Except TrackError (Option Head) :=
  (heads s { chain := some chain, number := some number }).map List.head?

def headOfHash? (s : S) (chain : UInt64) (hash : String) : Except TrackError (Option Head) :=
  (heads s { chain := some chain, hash := some hash }).map List.head?

end BlockStore

end Chainwatch
