import Chainwatch.Error
import Chainwatch.Block
import Chainwatch.Queue
import Chainwatch.Settings

/-!
# Poller

A node that cannot announce its heads is asked for its newest block again and again. The poller
puts every header from the one after its last on the reader's queue, in order, and waits while the
queue is full. The first poll yields the newest header only. A failure is put on the queue too, and
is the last item. Time is counted in milliseconds.
-/

namespace Chainwatch

abbrev Poll : Type := Except TrackError Header

inductive Poller.Point where
  | resting
  | askingTip
  | askingBlock (number tip : UInt64)
  | sending (header : Header) (number tip : UInt64)
  | failing (cause : TrackError)
  | ended

/-- A poller and the queue between it and its reader. -/
structure Poller where
  interval : Nat
  due : Nat
  /-- The number of the next header to report, once there was one. -/
  next : Option UInt64
  cancelled : Bool
  point : Poller.Point
  queue : Queue Poll

namespace Poller

def make (settings : PollSettings) (now : Nat) : Poller where
  interval := max settings.intervalMs.toNat 1
  due := now
  next := none
  cancelled := false
  point := .resting
  queue := .make settings.buffer.toNat

/-- Whether a poller can be made with the settings: its queue must not be too large. -/
def canMake (settings : PollSettings) : Bool :=
  settings.buffer.toNat ≤ Queue.largestCapacity

inductive Wait where
  | tick (due : Nat)
  | tip
  | block (number : UInt64)
  | room
  deriving DecidableEq, Repr

/-- What a poller gets. Where it has both a tick that is due and its cancellation, it may get either first. -/
inductive Answer where
  | time (now : Nat)
  | cancelled
  | tip (outcome : Except TrackError UInt64)
  | block (outcome : Except TrackError Header)
  | room

def wait? (p : Poller) : Option Wait :=
  match p.point with
  | .resting => some (.tick p.due)
  | .askingTip => some .tip
  | .askingBlock number _ => some (.block number)
  | .sending _ _ _ | .failing _ => some .room
  | .ended => none

/-- The end of the poller: its queue gets no more items. -/
def finish (p : Poller) : Poller :=
  { p with point := .ended, queue := p.queue.close.2 }

/-- How late a tick may be without moving those after it. -/
def tolerance : Nat := 5

/-- The latest time at which a tick can be due, the clock having 64 bits. -/
def latestDue : Nat := UInt64.size - 3

/-- How far ahead the next tick is put where its time is beyond the clock: thirty years. -/
def farAhead : Nat := 30 * 365 * 86400 * 1000

/-- When the next tick is due, after one that came now. -/
def nextDue (p : Poller) (now : Nat) : Nat :=
  let due := if p.due + tolerance < now then now + p.interval else p.due + p.interval
  if due ≤ latestDue then due else now + farAhead

/-- Goes on to a block, unless the poller is cancelled; behind the newest it rests. -/
def advance (p : Poller) (number tip : UInt64) : Poller :=
  if tip < number then { p with point := .resting }
  else if p.cancelled then p.finish
  else { p with point := .askingBlock number tip }

def hasRoom (p : Poller) : Bool :=
  p.queue.isClosed || p.queue.items.length < p.queue.capacity

/-- Takes a poller one step on with an answer; `none` if this is no answer to what it waits for. -/
def resume? (p : Poller) (answer : Answer) : Option Poller :=
  match p.point, answer with
  | .resting, .time now =>
    if p.due ≤ now then some { p with point := .askingTip, due := p.nextDue now } else none
  | .resting, .cancelled => if p.cancelled then some p.finish else none
  | .askingTip, .tip (.error e) => some { p with point := .failing e }
  | .askingTip, .tip (.ok tip) => some (p.advance (p.next.getD tip) tip)
  | .askingBlock _ _, .block (.error e) => some { p with point := .failing e }
  | .askingBlock number tip, .block (.ok header) =>
    some { p with point := .sending header number tip }
  | .sending header number tip, .room =>
    match p.queue.push (.ok header) with
    | (.accepted, queue) =>
      let p := { p with queue, next := some (number + 1) }
      some (if number < tip then p.advance (number + 1) tip else { p with point := .resting })
    | (.closed _, _) => some p.finish
    | (.full _, _) => none
  | .failing e, .room =>
    match p.queue.push (.error e) with
    | (.accepted, queue) => some { p with queue }.finish
    | (.closed _, _) => some p.finish
    | (.full _, _) => none
  | _, _ => none

def cancel (p : Poller) : Poller :=
  { p with cancelled := true }

def abandon (p : Poller) : Poller :=
  { p with queue := p.queue.abandon }

end Poller

end Chainwatch
