import Chainwatch.Tracker.Loops

/-!
# Steps of a tracker

A tracker moves when one of its tasks gets what it waits for. Which task comes next, and what the
node and the store reply, is not decided here: every order and every reply is a possible history.
-/

namespace Chainwatch

namespace Tracker

variable {S : Type}

def wait? (t : Tracker S) (id : Nat) : Option Wait :=
  t.tasks[id]?.bind Task.wait?

/-- Whether a wait that only the tracker itself can answer is over. -/
def isReady (t : Tracker S) : Wait → Bool
  | .turn => true
  | .arrival run => t.isOver run
  | .first run => t.first run != .awaited || t.isOver run
  | .task task => t.hasEnded task
  | .rest ticket => ticket < t.rests
  | .node _ | .store _ => false

/-- A step of a task; `none` if the answer does not fit what it waits for. -/
def resume? [BlockStore S] (t : Tracker S) (id : Nat) (answer : Answer) : Option (Tracker S) :=
  match t.tasks[id]?, answer with
  | some (.starting context point), answer => t.resumeStart? id context point answer
  | some (.stopping point), .go =>
    (t.resumeStop? point).map fun (point, t) => t.putStop id point
  | some (.watching session point), answer => t.resumeWatch? id session point answer
  | some (.sweeping session last point), answer => t.resumeSweep? id session last point answer
  | _, _ => none

end Tracker

end Chainwatch
