import Chainwatch.Tracker.Task

/-!
# Tracker

The state of a tracker: its settings and ledger, where it is in its life, and the runs and tasks it
has had. At most one run is the latest; only that one may still be stopped from within.
-/

namespace Chainwatch

structure Tracker (S : Type) where
  settings : TrackerSettings
  ledger : Ledger S
  status : Status
  chain : Option UInt64
  startHeight : UInt64
  /-- The threshold in effect, once a start has found it. -/
  threshold : Option UInt64
  /-- The run that a stop would cancel. -/
  token : Option Nat
  /-- The tasks that a stop would wait for. -/
  loops : List Nat
  runs : List Run
  cancelled : List Context
  rests : Nat
  tasks : List Task

namespace Tracker

variable {S : Type}

def make (settings : TrackerSettings) (store : S) : Tracker S where
  settings := settings
  ledger :=
    { store
      outlet :=
        { dispatcher := .make settings.queueCapacity.toNat settings.errorCapacity.toNat
          signals := [] } }
  status := .idle
  chain := none
  startHeight := settings.startHeight
  threshold := none
  token := none
  loops := []
  runs := []
  cancelled := []
  rests := 0
  tasks := []

def dispatcher (t : Tracker S) : Dispatcher :=
  t.ledger.outlet.dispatcher

def withDispatcher (t : Tracker S) (dispatcher : Dispatcher) : Tracker S :=
  { t with ledger := { t.ledger with outlet := { t.ledger.outlet with dispatcher } } }

def emit (t : Tracker S) (signal : Signal) : Tracker S :=
  { t with ledger := t.ledger.emit signal }

def collect (t : Tracker S) : List Signal × Tracker S :=
  (t.ledger.outlet.signals,
    { t with ledger := { t.ledger with outlet := { t.ledger.outlet with signals := [] } } })

def subscriberCount (t : Tracker S) : Nat :=
  t.dispatcher.headCount + t.dispatcher.eventCount

/-- Sets the first block that the backfill considers, unless a start has asked for the chain. -/
def setHeight (t : Tracker S) (height : UInt64) : Except TrackError Unit × Tracker S :=
  match t.chain with
  | some chain => (.error (.heightLocked chain), t)
  | none => (.ok (), { t with startHeight := height })

/-! ## Tasks -/

/-- Adds a task; answers its place. -/
def spawn (t : Tracker S) (task : Task) : Nat × Tracker S :=
  (t.tasks.length, { t with tasks := t.tasks ++ [task] }.emit (.spawned t.tasks.length))

def put (t : Tracker S) (id : Nat) (task : Task) : Tracker S :=
  { t with tasks := t.tasks.set id task }

def finish (t : Tracker S) (id : Nat) (outcome : Except TrackError Unit) : Tracker S :=
  (t.put id (.ended outcome)).emit (.ended id)

def crash (t : Tracker S) (id : Nat) : Tracker S :=
  (t.put id .crashed).emit (.ended id)

def hasEnded (t : Tracker S) (id : Nat) : Bool :=
  match t.tasks[id]? with
  | some (.ended _) | some .crashed => true
  | _ => false

def outcome? (t : Tracker S) (id : Nat) : Option (Except TrackError Unit) :=
  match t.tasks[id]? with
  | some (.ended outcome) => some outcome
  | _ => none

def start (t : Tracker S) (context : Context) : Nat × Tracker S :=
  t.spawn (.starting context .launched)

def stop (t : Tracker S) : Nat × Tracker S :=
  t.spawn (.stopping .launched)

/-! ## Runs -/

def isCancelled (t : Tracker S) (context : Context) : Bool :=
  t.cancelled.contains context

/-- Whether a run is cancelled, by the tracker or with its context. -/
def isOver (t : Tracker S) (run : Nat) : Bool :=
  t.runs[run]?.any fun r => r.halted || t.isCancelled r.context

/-- Whether no later run has been launched. -/
def isLatest (t : Tracker S) (run : Nat) : Bool :=
  run + 1 == t.runs.length

def first (t : Tracker S) (run : Nat) : FirstBlock :=
  (t.runs[run]?.map (·.first)).getD .awaited

/-- Sets the first live block of a run, unless it is set. -/
def settle (t : Tracker S) (run : Nat) (first : FirstBlock) : Tracker S :=
  if t.first run = .awaited then
    { t with runs := t.runs.modify run fun r => { r with first } }.emit (.settled run)
  else t

/-- Cancels a context, and every run under it. -/
def cancel (t : Tracker S) (context : Context) : Tracker S :=
  { t with cancelled := context :: t.cancelled }.emit (.cancelled context)

def halt (t : Tracker S) (run : Nat) : Tracker S :=
  { t with runs := t.runs.modify run fun r => { r with halted := true } }.emit (.halted run)

end Tracker

end Chainwatch
