import Chainwatch.Block
import Chainwatch.Mailbox

/-!
# Dispatcher

Hands out heads and events to the subscribers that are registered at the moment, without ever
waiting for one. Head subscribers get every head; an address subscriber gets the events of its
address, in letters of any case. Numbers of subscriptions are never used twice.
-/

namespace Chainwatch

/-- The live subscriptions, and those closed but still held. -/
structure Dispatcher where
  capacity : Nat
  errorCapacity : Nat
  /-- The next subscription id. The counter has 64 bits and wraps; a `Nat` stands for it as long as fewer than `2^64`
  subscriptions have been opened. -/
  nextId : Nat
  heads : Registry Head
  events : Registry Event
  deriving DecidableEq, Repr

inductive Notice where
  | head (head : Head)
  | event (event : Event)
  deriving DecidableEq, Repr

/-- The registry that holds a subscription. -/
inductive Interest where
  | heads
  | events
  deriving DecidableEq, Repr

structure Subscription where
  id : Nat
  interest : Interest
  deriving DecidableEq, Repr

/-- The first of each group of texts that agree up to the case of letters. -/
def distinctTopics (topics : List String) : List String :=
  topics.foldl
    (fun kept topic => if kept.any (Text.eqIgnoreCase · topic) then kept else kept ++ [topic]) []

namespace Dispatcher

/-- A dispatcher without subscriptions. The capacities are checked when a subscription is opened, see `canOpen`. -/
def make (capacity errorCapacity : Nat) : Dispatcher where
  capacity := capacity
  errorCapacity := errorCapacity
  nextId := 1
  heads := .empty
  events := .empty

/-- Whether the channels of a subscription can be made. Otherwise subscribing panics, and no subscription is opened. -/
def canOpen (d : Dispatcher) : Bool :=
  d.capacity ≤ Queue.largestCapacity && d.errorCapacity ≤ Queue.largestCapacity

def subscribeHeads (d : Dispatcher) : Subscription × Dispatcher :=
  (⟨d.nextId, .heads⟩,
    { d with
      nextId := d.nextId + 1
      heads := d.heads.register (.make d.nextId none d.capacity d.errorCapacity) })

def subscribeEvents (d : Dispatcher) (address : String) : Subscription × Dispatcher :=
  (⟨d.nextId, .events⟩,
    { d with
      nextId := d.nextId + 1
      events := d.events.register (.make d.nextId (some address) d.capacity d.errorCapacity) })

def contains (d : Dispatcher) (id : Nat) : Bool :=
  d.heads.contains id || d.events.contains id

def unsubscribe (d : Dispatcher) (id : Nat) : Bool × Dispatcher :=
  let (head, heads) := d.heads.remove id
  let (event, events) := d.events.remove id
  (head || event, { d with heads, events })

def closeAll (d : Dispatcher) : Nat × Dispatcher :=
  let (headCount, heads) := d.heads.clear
  let (eventCount, events) := d.events.clear
  (headCount + eventCount, { d with heads, events })

/-- The watched addresses, one of each spelling. -/
def addresses (d : Dispatcher) : List String :=
  distinctTopics (d.events.registered.filterMap (·.topic))

def dispatchHead (d : Dispatcher) (head : Head) : Dispatcher :=
  { d with heads := d.heads.forAll (.offer Head.describe head) }

def dispatchEvent (d : Dispatcher) (event : Event) : Dispatcher :=
  { d with
    events := d.events.forAll fun m =>
      if m.watches event.address then m.offer Event.describe event else m }

def dispatchEvents (d : Dispatcher) (events : List Event) : Dispatcher :=
  events.foldl dispatchEvent d

/-- Leaves an error with every address subscriber. -/
def broadcast (d : Dispatcher) (cause : TrackError) : Dispatcher :=
  { d with events := d.events.forAll (·.signal (.unrecoverable cause)) }

def headCount (d : Dispatcher) : Nat := d.heads.registered.length

def eventCount (d : Dispatcher) : Nat := d.events.registered.length

end Dispatcher

/-! ## The owner's side -/

namespace Subscription

variable (s : Subscription) (d : Dispatcher)

def topic? : Option String :=
  match s.interest with
  | .heads => none
  | .events => (d.events.find? s.id).bind (·.topic)

def pending : Nat :=
  match s.interest with
  | .heads => d.heads.pending s.id
  | .events => d.events.pending s.id

def pendingErrors : Nat :=
  match s.interest with
  | .heads => d.heads.pendingErrors s.id
  | .events => d.events.pendingErrors s.id

def isClosed : Bool := !d.contains s.id

def receive : Queue.Receipt Notice × Dispatcher :=
  match s.interest with
  | .heads =>
    let (receipt, heads) := d.heads.receive s.id
    (receipt.map .head, { d with heads })
  | .events =>
    let (receipt, events) := d.events.receive s.id
    (receipt.map .event, { d with events })

def receiveError : Queue.Receipt SubscriptionError × Dispatcher :=
  match s.interest with
  | .heads =>
    let (receipt, heads) := d.heads.receiveError s.id
    (receipt, { d with heads })
  | .events =>
    let (receipt, events) := d.events.receiveError s.id
    (receipt, { d with events })

def take (d : Dispatcher) : Nat → List Notice × Dispatcher
  | 0 => ([], d)
  | count + 1 =>
    match s.receive d with
    | (.item notice, d) =>
      let (notices, d) := take d count
      (notice :: notices, d)
    | (_, d) => ([], d)

def takeErrors (d : Dispatcher) : Nat → List SubscriptionError × Dispatcher
  | 0 => ([], d)
  | count + 1 =>
    match s.receiveError d with
    | (.item e, d) =>
      let (errors, d) := takeErrors d count
      (e :: errors, d)
    | (_, d) => ([], d)

def drain : List Notice × List SubscriptionError × Dispatcher :=
  let (notices, d) := s.take d (s.pending d)
  let (errors, d) := s.takeErrors d (s.pendingErrors d)
  (notices, errors, d)

/-- Ends the subscription; what is queued stays with the owner. -/
def unsubscribe : Dispatcher := (d.unsubscribe s.id).2

/-- Ends the subscription and gives up what is queued. -/
def drop : Dispatcher :=
  let d := (d.unsubscribe s.id).2
  match s.interest with
  | .heads => { d with heads := d.heads.forget s.id }
  | .events => { d with events := d.events.forget s.id }

end Subscription

end Chainwatch
