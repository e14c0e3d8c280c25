import Chainwatch.Rehearsal.Script
import Chainwatch.Tracker.Step

/-!
# Schedule

A rehearsal runs a tracker against a script, in one of the possible orders: a task runs until it
has to wait, tasks take turns in the order in which they were woken, and those woken by the same
event in the order in which they began to wait. Everything that can be answered is answered at
once.
-/

namespace Chainwatch

/-- A tracker, the script it runs against, and the order of its tasks. -/
structure Rehearsal (S : Type) where
  tracker : Tracker S
  script : Script
  active : Option Nat
  ready : List Nat
  waiting : List Nat
  calls : List Call

namespace Rehearsal

variable {S : Type}

def make (tracker : Tracker S) (script : Script) : Rehearsal S where
  tracker := tracker
  script := script
  active := none
  ready := []
  waiting := []
  calls := []

def runOf (r : Rehearsal S) (task : Nat) : Nat :=
  match r.tracker.tasks[task]? with
  | some (.watching session _) => session.run
  | some (.sweeping session _ _) => session.run
  | _ => 0

/-- What the script has to say to a waiting task, and the script afterwards. -/
def answer? (r : Rehearsal S) (task : Nat) : Option (Answer × Script) := do
  match ← r.tracker.wait? task with
  | .node call => if r.script.isHeld call then none else r.script.reply (r.runOf task) call
  | .store call => return (.stored (r.script.storeFaults.lookup call), r.script)
  | .arrival run =>
    if r.tracker.isOver run then return (.go, r.script) else r.script.arrival? run
  | wait => if r.tracker.isReady wait then return (.go, r.script) else none

/-- Moves the waiting tasks that an event concerns to the ready queue. -/
def wake (r : Rehearsal S) (concerned : Nat → Bool) : Rehearsal S :=
  { r with
    ready := r.ready ++ r.waiting.filter concerned
    waiting := r.waiting.filter (!concerned ·) }

def wakeWhere (r : Rehearsal S) (concerned : Wait → Bool) : Rehearsal S :=
  r.wake fun task => (r.tracker.wait? task).any concerned

/-- Whether a wait ends with the cancellation of a run. -/
def endsWith (run : Nat) : Wait → Bool
  | .arrival r => r == run
  | .first r => r == run
  | _ => false

/-- Forwards a signal to the tasks that it concerns. -/
def hear (r : Rehearsal S) : Signal → Rehearsal S
  | .asked call => { r with calls := r.calls ++ [call] }
  | .spawned task => { r with ready := r.ready ++ [task] }
  | .ended task => r.wakeWhere (· == .task task)
  | .settled run => r.wakeWhere (· == .first run)
  | .halted run => r.wakeWhere (endsWith run)
  | .rested => r.wakeWhere fun wait => match wait with | .rest _ => true | _ => false
  | .live _ _ | .head _ | .event _ | .failure _ _ | .cancelled _ => r

def listen (r : Rehearsal S) : Rehearsal S :=
  let (signals, tracker) := r.tracker.collect
  signals.foldl hear { r with tracker }

/-- Readies every task whose wait is over, and forwards the signals of the tracker. -/
def stir (r : Rehearsal S) : Rehearsal S :=
  let r := r.listen
  r.wake fun task => (r.answer? task).isSome

variable [BlockStore S]

/-- Runs the active task up to its next point, or the next ready one; `none` when every task waits. -/
def turn? (r : Rehearsal S) : Option (Rehearsal S) :=
  match r.active with
  | none =>
    match r.ready with
    | [] => none
    | task :: rest => some { r with active := some task, ready := rest }
  | some task =>
    match r.answer? task with
    | none =>
      if (r.tracker.wait? task).isSome then
        some { r with active := none, waiting := r.waiting ++ [task] }
      else some { r with active := none }
    | some (answer, script) =>
      match r.tracker.resume? task answer with
      | none => some { r with active := none }
      | some tracker => some { r with tracker, script }.listen

/-- Runs until every task waits, for at most `fuel` turns. -/
def settle (r : Rehearsal S) : Nat → Rehearsal S
  | 0 => r
  | turns + 1 =>
    match r.turn? with
    | none => r
    | some r => r.settle turns

end Rehearsal

end Chainwatch
