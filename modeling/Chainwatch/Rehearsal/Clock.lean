import Chainwatch.Node.Poller
import Chainwatch.Rehearsal.Remote

/-!
# Pollers on a clock

Pollers run against a scripted node on a clock that only moves when it is told to. It jumps: a tick
that came due on the way is late. Pollers whose ticks come due in one jump run in the order of the
due times, and at equal times in the order in which they began to wait. A poller that was cancelled
while it was busy takes a tick that is due before it takes notice.
-/

namespace Chainwatch

structure PollRehearsal where
  settings : PollSettings
  node : RemoteScript
  now : Nat
  pollers : List (Nat × Poller)
  nextId : Nat
  stream : Option Nat

namespace PollRehearsal

def make (settings : PollSettings) (node : RemoteScript) : PollRehearsal where
  settings := settings
  node := node
  now := 0
  pollers := []
  nextId := 0
  stream := none

/-- Runs a poller against a node until it waits for time or for room, at most so many steps. -/
def run (now : Nat) (p : Poller) (node : RemoteScript) : Nat → Poller × RemoteScript
  | 0 => (p, node)
  | steps + 1 =>
    match p.wait? with
    | none => (p, node)
    | some (.tick due) =>
      match p.resume? (if due ≤ now then .time now else .cancelled) with
      | none => (p, node)
      | some p => run now p node steps
    | some .tip =>
      let (outcome, node) := RemoteNode.tip node
      run now ((p.resume? (.tip outcome)).getD p) node steps
    | some (.block number) =>
      let (outcome, node) := RemoteNode.header number node
      run now ((p.resume? (.block outcome)).getD p) node steps
    | some .room =>
      match p.resume? .room with
      | none => (p, node)
      | some p => run now p node steps

def find? (r : PollRehearsal) (id : Nat) : Option Poller :=
  r.pollers.lookup id

def put (r : PollRehearsal) (id : Nat) (p : Poller) : PollRehearsal :=
  { r with pollers := r.pollers.map fun (i, old) => (i, if i = id then p else old) }

def isReady (r : PollRehearsal) (p : Poller) : Bool :=
  match p.wait? with
  | some (.tick due) => p.cancelled || due ≤ r.now
  | some .room => p.hasRoom
  | some _ => true
  | none => false

def runOne (r : PollRehearsal) (steps : Nat) (id : Nat) : PollRehearsal :=
  match r.find? id with
  | none => r
  | some p =>
    let (p, node) := run r.now p r.node steps
    { r with node, pollers := r.pollers.filter (·.1 != id) ++ [(id, p)] }

/-- Runs every poller for which something has come until it waits, each for so many steps at
most. -/
def settle (r : PollRehearsal) (steps : Nat) : PollRehearsal :=
  let ready := (r.pollers.filter (r.isReady ·.2)).mergeSort fun a b => decide (a.2.due ≤ b.2.due)
  ready.foldl (fun r entry => r.runOne steps entry.1) r

def advance (r : PollRehearsal) (ms : Nat) : PollRehearsal :=
  { r with now := r.now + ms }

def unsubscribe (r : PollRehearsal) : PollRehearsal :=
  match r.stream with
  | none => r
  | some id =>
    let r := { r with stream := none }
    match r.find? id with
    | none => r
    | some p => r.put id p.abandon

def subscribe (r : PollRehearsal) : PollRehearsal :=
  let r := r.unsubscribe
  { r with
    pollers := r.pollers ++ [(r.nextId, .make r.settings r.now)]
    nextId := r.nextId + 1
    stream := some r.nextId }

def cancelLast (r : PollRehearsal) : PollRehearsal :=
  match r.find? (r.nextId - 1) with
  | none => r
  | some p => r.put (r.nextId - 1) p.cancel

def receive (r : PollRehearsal) : Option (Queue.Receipt Poll × PollRehearsal) := do
  let id ← r.stream
  let p ← r.find? id
  let (receipt, queue) := p.queue.receive
  return (receipt, r.put id { p with queue })

end PollRehearsal

end Chainwatch
