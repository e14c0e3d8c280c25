import Chainwatch.Rehearsal.Holder
import Chainwatch.Rehearsal.Schedule

/-!
# Stage

A rehearsal as driven by a test: it calls start and stop, subscribes, and changes what the node does, all
under names. After every act that can wake a task, the tasks run until all of them wait.
-/

namespace Chainwatch

/-- A rehearsal with the names that its caller uses. -/
structure Stage (S : Type) where
  rehearsal : Rehearsal S
  holder : Holder
  starts : List (String × Nat)
  stops : List (String × Nat)

namespace Stage

variable {S : Type}

def make (tracker : Tracker S) (script : Script) : Stage S where
  rehearsal := .make tracker script
  holder := .empty
  starts := []
  stops := []

def tracker (s : Stage S) : Tracker S :=
  s.rehearsal.tracker

def script (s : Stage S) : Script :=
  s.rehearsal.script

/-- The stage with another tracker, of which no task takes notice. -/
def withTracker (s : Stage S) (tracker : Tracker S) : Stage S :=
  { s with rehearsal := { s.rehearsal with tracker } }

/-- The stage with another script, of which no task takes notice. -/
def withScript (s : Stage S) (script : Script) : Stage S :=
  { s with rehearsal := { s.rehearsal with script } }

def subscribe (s : Stage S) (name : String) (opened : Subscription × Dispatcher) :
    Subscription × Stage S :=
  let (holder, dispatcher) := s.holder.put opened.2 name opened.1
  (opened.1, { s with holder }.withTracker (s.tracker.withDispatcher dispatcher))

def reportCalls (s : Stage S) : List Call × Stage S :=
  (s.rehearsal.calls, { s with rehearsal := { s.rehearsal with calls := [] } })

/-- What came of the start called last under a name. -/
def startOutcome? (s : Stage S) (name : String) : Option (Except TrackError Unit) :=
  (s.starts.lookup name).bind s.tracker.outcome?

/-- What came of the stop called last under a name. -/
def stopOutcome? (s : Stage S) (name : String) : Option (Except TrackError Unit) :=
  (s.stops.lookup name).bind s.tracker.outcome?

variable [BlockStore S]

/-- Runs the tasks after a change, for at most so many turns. -/
def play (s : Stage S) (turns : Nat) : Stage S :=
  { s with rehearsal := s.rehearsal.stir.settle turns }

def start (s : Stage S) (turns : Nat) (name : String) (context : Context) : Stage S :=
  let (task, tracker) := s.tracker.start context
  ({ s with starts := (name, task) :: s.starts }.withTracker tracker).play turns

def stop (s : Stage S) (turns : Nat) (name : String) : Stage S :=
  let (task, tracker) := s.tracker.stop
  ({ s with stops := (name, task) :: s.stops }.withTracker tracker).play turns

def cancel (s : Stage S) (turns : Nat) (context : Context) : Stage S :=
  (s.withTracker (s.tracker.cancel context)).play turns

def change (s : Stage S) (turns : Nat) (script : Script) : Stage S :=
  (s.withScript script).play turns

end Stage

end Chainwatch
