import Chainwatch.Tracker.State

/-!
# Start and stop

A start asks for the chain id and the stored height, launches the watch, and waits for its first live
block before it launches the backfill up to that block. A stop cancels the run, closes every subscription
and waits for the loops; a caller that finds a stop in progress waits for its completion. A loop that
fails stops its own run through a background task, since it cannot wait for itself.
-/

namespace Chainwatch

namespace Tracker

variable {S : Type}

/-! ## Stop -/

/-- Begins a stop: the run is cancelled and every subscription closed. Answers the tasks to wait for. -/
def beginStop (t : Tracker S) : List Nat × Tracker S :=
  let t := { t with status := .stopping }
  let t :=
    match t.token with
    | some run => { t.halt run with token := none }
    | none => t
  let loops := t.loops
  let t := { t with loops := [] }
  (loops, t.withDispatcher t.dispatcher.closeAll.2)

def rest (t : Tracker S) : Tracker S :=
  { t with status := .idle, rests := t.rests + 1 }.emit .rested

/-- Waits for the remaining tasks, or comes to rest. -/
def join (t : Tracker S) : List Nat → StopPoint × Tracker S
  | [] => (.done, t.rest)
  | tasks => (.joining tasks, t)

/-- Determines what a caller of stop waits for, and begins a stop if none is under way. -/
def enterStop (t : Tracker S) : StopPoint × Tracker S :=
  match t.status with
  | .idle => (.done, t)
  | .stopping => (.awaiting t.rests, t)
  | .starting | .running =>
    let (tasks, t) := t.beginStop
    t.join tasks

/-- A step of a caller of stop, if what it waits for has come. -/
def resumeStop? (t : Tracker S) : StopPoint → Option (StopPoint × Tracker S)
  | .launched => some t.enterStop
  | .joining [] => some (t.join [])
  | .joining (task :: rest) => if t.hasEnded task then some (t.join rest) else none
  | .awaiting ticket => if ticket < t.rests then some (.done, t) else none
  | .done => none

def putStop (t : Tracker S) (id : Nat) : StopPoint → Tracker S
  | .done => t.finish id (.ok ())
  | point => t.put id (.stopping point)

/-- Stops a run from within, if it is the latest and not being stopped: it is marked and cancelled at
once, and a new task waits for its loops. -/
def stopInBackground (t : Tracker S) (run : Nat) : Tracker S :=
  if t.isLatest run then
    match t.status with
    | .idle | .stopping => t
    | .starting | .running =>
      let (tasks, t) := t.beginStop
      (t.spawn (.stopping (.joining tasks))).2
  else t

/-- Ends a run after a failure: it is broadcast to address subscribers, and the run is stopped. A
failure in a run that is over is ignored. -/
def fail (t : Tracker S) (session : Session) (cause : TrackError) : Tracker S :=
  if t.isOver session.run then t
  else
    let outlet := t.ledger.outlet.tellFailure session.run cause
    { t with ledger := { t.ledger with outlet } }.stopInBackground session.run

/-! ## Start -/

/-- The lowest block of a backfill: above the stored height, and not below the start height. -/
def resumeHeight (startHeight stored : UInt64) : UInt64 :=
  if 0 < stored then max startHeight (stored + 1) else startHeight

/-- The last block of a backfill before the first live one. -/
def lastBefore (first : UInt64) : UInt64 :=
  if first = 0 then 0 else first - 1

def giveUpError (t : Tracker S) (context : Context) : GiveUp → TrackError
  | .cancelled => .cancelled
  | .missed =>
    if t.isCancelled context then .cancelled
    else .aborted "watch loop ended before the first live block"

/-- Moves a start that gives up to a point of its stop. -/
def putGiveUp (t : Tracker S) (id : Nat) (context : Context) (reason : GiveUp) :
    StopPoint → Tracker S
  | .done => t.finish id (.error (t.giveUpError context reason))
  | point => t.put id (.starting context (.stopping reason point))

def giveUp (t : Tracker S) (id : Nat) (context : Context) (reason : GiveUp) : Tracker S :=
  let (point, t) := t.enterStop
  t.putGiveUp id context reason point

/-- Ends a start that failed before it launched anything. -/
def abandonStart (t : Tracker S) (id : Nat) (cause : TrackError) : Tracker S :=
  { t with status := .idle }.finish id (.error cause)

/-- Launches the watch of a new run, unless the tracker was stopped in between. -/
def launch (t : Tracker S) (id : Nat) (context : Context) (chain height : UInt64) : Tracker S :=
  if t.status = .starting then
    let session : Session :=
      { run := t.runs.length, chain, threshold := t.settings.threshold chain }
    let (watch, t) := t.spawn (.watching session .launched)
    let run : Run := { context, starter := id, watch, halted := false, first := .awaited }
    let t :=
      { t with
        chain := some chain
        threshold := some session.threshold
        token := some session.run
        loops := t.loops ++ [watch]
        runs := t.runs ++ [run] }
    t.put id (.starting context (.awaitingFirst session (resumeHeight t.startHeight height)))
  else t.finish id (.error .cancelled)

/-- Launches the backfill up to the first live block, unless the run is over. -/
def launchSweep (t : Tracker S) (id : Nat) (session : Session) (lowest first : UInt64) :
    Tracker S :=
  if t.status = .starting ∧ ¬t.isOver session.run then
    let (sweep, t) := t.spawn (.sweeping session (lastBefore first) (.launched lowest))
    { t with status := .running, loops := t.loops ++ [sweep] }.finish id (.ok ())
  else t.finish id (.error .cancelled)

/-- A step of a start; `none` if the answer does not fit what it waits for. -/
def resumeStart? [BlockStore S] (t : Tracker S) (id : Nat) (context : Context) (point : StartPoint)
    (answer : Answer) : Option (Tracker S) :=
  match point, answer with
  | .launched, .go =>
    if t.status = .idle then
      let t := { t with status := .starting }
      some ((t.emit (.asked .chainId)).put id (.starting context .askingChain))
    else some (t.finish id (.error .alreadyRunning))
  | .askingChain, .chain (.error e) => some (t.abandonStart id e)
  | .askingChain, .chain (.ok chain) => some (t.put id (.starting context (.readingHeight chain)))
  | .readingHeight chain, .stored fault =>
    match t.ledger.height fault chain with
    | .error e => some (t.abandonStart id e)
    | .ok height => some (t.launch id context chain height)
  | .awaitingFirst session lowest, .go =>
    match t.first session.run with
    | .arrived first => some (t.launchSweep id session lowest first)
    | .missed => some (t.giveUp id context .missed)
    | .awaited => if t.isOver session.run then some (t.giveUp id context .cancelled) else none
  | .stopping reason point, .go =>
    (t.resumeStop? point).map fun (point, t) => t.putGiveUp id context reason point
  | _, _ => none

end Tracker

end Chainwatch
