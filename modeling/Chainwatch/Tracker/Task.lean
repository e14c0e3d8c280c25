import Chainwatch.Settings
import Chainwatch.Tracker.Work

/-!
# Tasks and runs

A tracker advances by steps of its tasks: callers of start and of stop, the watch and the backfill of each
run, and the background task that ends a failed run. Between two steps a task is at one of a few points,
each of which waits for one thing. Tasks and runs are identified by their positions in the order of their
creation. The position of a run stands for its generation, a 64-bit counter that is incremented at each
launch: they agree as long as fewer than `2^64` runs have been launched.
-/

namespace Chainwatch

/-- What is known of the first live block of a run. -/
inductive FirstBlock where
  | awaited
  | arrived (number : UInt64)
  | missed
  deriving DecidableEq, Repr

structure Run where
  context : Context
  starter : Nat
  watch : Nat
  halted : Bool
  first : FirstBlock
  deriving DecidableEq, Repr

inductive StopPoint where
  | launched
  | joining (tasks : List Nat)
  /-- Waiting for another caller to finish; `ticket` counts the rests seen before. -/
  | awaiting (ticket : Nat)
  | done
  deriving DecidableEq, Repr

/-- Why a start gives up after it stopped the run. -/
inductive GiveUp where
  | cancelled
  | missed
  deriving DecidableEq, Repr

inductive StartPoint where
  | launched
  | askingChain
  | readingHeight (chain : UInt64)
  | awaitingFirst (session : Session) (lowest : UInt64)
  | stopping (reason : GiveUp) (point : StopPoint)
  deriving DecidableEq, Repr

inductive WatchPoint where
  | launched
  | subscribing
  | listening
  | observing (live : Header) (work : Work)
  | fetchingTarget (live : Header)
  | confirming (live : Header) (work : Work)
  deriving DecidableEq, Repr

inductive SweepPoint where
  | launched (lowest : UInt64)
  | fetching (number : UInt64)
  | working (number : UInt64) (work : Work)
  deriving DecidableEq, Repr

inductive Task where
  | starting (context : Context) (point : StartPoint)
  | stopping (point : StopPoint)
  | watching (session : Session) (point : WatchPoint)
  | sweeping (session : Session) (last : UInt64) (point : SweepPoint)
  | ended (outcome : Except TrackError Unit)
  /-- Dead, for a bloom that was too short. -/
  | crashed
  deriving Repr

inductive StoreCall where
  | create
  | upsert
  | saveLogs
  | height
  deriving DecidableEq, Repr

inductive Wait where
  | turn
  | node (call : Call)
  | store (call : StoreCall)
  /-- The next head, or the cancellation of the run. -/
  | arrival (run : Nat)
  /-- News of the first live block, or the cancellation of the run. -/
  | first (run : Nat)
  | task (task : Nat)
  /-- A rest after those that the ticket counts. -/
  | rest (ticket : Nat)
  deriving DecidableEq, Repr

def Work.wait : Work → Wait
  | .record _ _ => .store .create
  | .fetchSeen header addresses => .node (.logs addresses header.number header.number)
  | .saveSeen _ _ => .store .saveLogs
  | .fetchConfirmed header addresses => .node (.logs addresses header.number header.number)
  | .promote _ _ => .store .upsert
  | .saveConfirmed _ _ => .store .saveLogs

def StopPoint.wait : StopPoint → Wait
  | .launched => .turn
  | .joining [] => .turn
  | .joining (task :: _) => .task task
  | .awaiting ticket => .rest ticket
  | .done => .turn

def StartPoint.wait : StartPoint → Wait
  | .launched => .turn
  | .askingChain => .node .chainId
  | .readingHeight _ => .store .height
  | .awaitingFirst session _ => .first session.run
  | .stopping _ point => point.wait

def WatchPoint.wait (session : Session) : WatchPoint → Wait
  | .launched => .turn
  | .subscribing => .node .subscribe
  | .listening => .arrival session.run
  | .observing _ work => work.wait
  | .fetchingTarget live => .node (.header (live.number - session.threshold))
  | .confirming _ work => work.wait

def SweepPoint.wait : SweepPoint → Wait
  | .launched _ => .turn
  | .fetching number => .node (.header number)
  | .working _ work => work.wait

def Task.wait? : Task → Option Wait
  | .starting _ point => some point.wait
  | .stopping point => some point.wait
  | .watching session point => some (point.wait session)
  | .sweeping _ _ point => some point.wait
  | .ended _ | .crashed => none

end Chainwatch
