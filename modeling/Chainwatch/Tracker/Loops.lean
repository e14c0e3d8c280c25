import Chainwatch.Tracker.Lifecycle

/-!
# Watch and backfill

The watch observes each live block and then confirms the block that it makes final. The backfill
goes through the blocks before the first live one in ascending order and confirms those that are
final already. Any failure but a conflict with what is recorded ends the run.
-/

namespace Chainwatch

namespace Tracker

variable {S : Type}

/-! ## Watch -/

/-- Ends a watch. A start that still waits for a first block will not see one. -/
def finishWatch (t : Tracker S) (id : Nat) (session : Session) : Tracker S :=
  (t.settle session.run .missed).finish id (.ok ())

def crashWatch (t : Tracker S) (id : Nat) (session : Session) : Tracker S :=
  (t.settle session.run .missed).crash id

def failWatch (t : Tracker S) (id : Nat) (session : Session) (cause : TrackError) : Tracker S :=
  (t.fail session cause).finishWatch id session

/-- Ends a watch whose run was cancelled. It stops the run if only the context was cancelled. -/
def leaveWatch (t : Tracker S) (id : Nat) (session : Session) : Tracker S :=
  (t.stopInBackground session.run).finishWatch id session

def listen (t : Tracker S) (id : Nat) (session : Session) : Tracker S :=
  t.put id (.watching session .listening)

/-- After observing a live block: requests the block that it makes final, if there is one. -/
def afterLive (t : Tracker S) (id : Nat) (session : Session) (live : Header) : Tracker S :=
  if session.threshold ≤ live.number then
    (t.emit (.asked (.header (live.number - session.threshold)))).put id
      (.watching session (.fetchingTarget live))
  else t.listen id session

/-- After a step of observing a live block. -/
def putObserving (t : Tracker S) (id : Nat) (session : Session) (live : Header) :
    Progress → Tracker S
  | .waits work => t.put id (.watching session (.observing live work))
  | .finished => t.afterLive id session live
  | .failed e => t.failWatch id session e
  | .crashed => t.crashWatch id session

/-- After a step of confirming a final block. -/
def putConfirming (t : Tracker S) (id : Nat) (session : Session) (live : Header) :
    Progress → Tracker S
  | .waits work => t.put id (.watching session (.confirming live work))
  | .finished => t.listen id session
  | .failed e => t.failWatch id session e
  | .crashed => t.crashWatch id session

def meetLive (t : Tracker S) (id : Nat) (session : Session) (live : Header) : Tracker S :=
  let t := (t.emit (.live session.run live.number)).settle session.run (.arrived live.number)
  t.putObserving id session live (Work.observe t.ledger live)

/-- A step of a watch; `none` if the answer does not fit what it waits for. -/
def resumeWatch? [BlockStore S] (t : Tracker S) (id : Nat) (session : Session) (point : WatchPoint)
    (answer : Answer) : Option (Tracker S) :=
  match point, answer with
  | .launched, .go =>
    some ((t.emit (.asked .subscribe)).put id (.watching session .subscribing))
  | .subscribing, .subscribed (.error e) => some (t.failWatch id session e)
  | .subscribing, .subscribed (.ok ()) => some (t.listen id session)
  | .listening, .go => if t.isOver session.run then some (t.leaveWatch id session) else none
  | .listening, .arrival item =>
    if t.isOver session.run then none
    else
      match item with
      | some (.ok live) => some (t.meetLive id session live)
      | some (.error e) => some (t.failWatch id session e)
      | none => some (t.failWatch id session (.rpc "head subscription ended"))
  | .observing live work, answer =>
    (work.resume? session t.ledger answer).map fun (progress, ledger) =>
      { t with ledger }.putObserving id session live progress
  | .fetchingTarget _, .header (.error e) => some (t.failWatch id session e)
  | .fetchingTarget live, .header (.ok target) =>
    let (progress, ledger) := Work.confirm t.ledger target
    some ({ t with ledger }.putConfirming id session live progress)
  | .confirming live work, answer =>
    (work.resume? session t.ledger answer).map fun (progress, ledger) =>
      { t with ledger }.putConfirming id session live progress
  | _, _ => none

/-! ## Backfill -/

def finishSweep (t : Tracker S) (id : Nat) : Tracker S :=
  t.finish id (.ok ())

def failSweep (t : Tracker S) (id : Nat) (session : Session) (cause : TrackError) : Tracker S :=
  (t.fail session cause).finishSweep id

/-- Continues the backfill at a block, unless the run is over. -/
def sweepFrom (t : Tracker S) (id : Nat) (session : Session) (last number : UInt64) : Tracker S :=
  if t.isOver session.run then t.finishSweep id
  else
    (t.emit (.asked (.header number))).put id (.sweeping session last (.fetching number))

def beginSweep (t : Tracker S) (id : Nat) (session : Session) (last lowest : UInt64) : Tracker S :=
  if last = 0 ∨ last < lowest then t.finishSweep id else t.sweepFrom id session last lowest

/-- After a step of the work on a block of the backfill. -/
def putSweeping (t : Tracker S) (id : Nat) (session : Session) (last number : UInt64) :
    Progress → Tracker S
  | .waits work => t.put id (.sweeping session last (.working number work))
  | .finished =>
    if number < last then t.sweepFrom id session last (number + 1) else t.finishSweep id
  | .failed e => t.failSweep id session e
  | .crashed => t.crash id

/-- The last block of a backfill that is final already, unless the threshold exceeds the range. -/
def split? (session : Session) (last : UInt64) : Option UInt64 :=
  if session.threshold ≤ last then some (last - session.threshold) else none

/-- Whether the backfill up to `last` confirms a block. These are the blocks up to `split?`, so the
single pass is a range of confirmed blocks followed by a range of observed ones, see
`Sweep.fullTrace_eq_ranges`. -/
def isSettledBy (session : Session) (last number : UInt64) : Bool :=
  (split? session last).any (number ≤ ·)

def beginWork (t : Tracker S) (session : Session) (last number : UInt64) (header : Header) :
    Progress × Ledger S :=
  if isSettledBy session last number then Work.confirm t.ledger header
  else (Work.observe t.ledger header, t.ledger)

/-- A step of a backfill; `none` if the answer does not fit what it waits for. -/
def resumeSweep? [BlockStore S] (t : Tracker S) (id : Nat) (session : Session) (last : UInt64)
    (point : SweepPoint) (answer : Answer) : Option (Tracker S) :=
  match point, answer with
  | .launched lowest, .go => some (t.beginSweep id session last lowest)
  | .fetching _, .header (.error e) => some (t.failSweep id session e)
  | .fetching number, .header (.ok header) =>
    let (progress, ledger) := t.beginWork session last number header
    some ({ t with ledger }.putSweeping id session last number progress)
  | .working number work, answer =>
    (work.resume? session t.ledger answer).map fun (progress, ledger) =>
      { t with ledger }.putSweeping id session last number progress
  | _, _ => none

end Tracker

end Chainwatch
