/-!
# Bounded queue

One producer pushes without waiting, one consumer takes items in the order of their arrival. The
producer closes the queue once, after which what is queued can still be taken; a consumer that
leaves takes the queued items with it.
-/

namespace Chainwatch

structure Queue (α : Type) where
  capacity : Nat
  items : List α
  closed : Bool
  abandoned : Bool
  deriving DecidableEq, Repr

namespace Queue

variable {α β : Type}

/-- The largest capacity of a channel. Making a channel with a larger one panics, so a queue exists only for
capacities up to this bound. -/
def largestCapacity : Nat := 0x1fffffffffffffff

/-- An empty queue with room for at least one item. It stands for a channel when the capacity is at most
`largestCapacity`; a larger one is refused by the channel, and there is no queue. -/
def make (capacity : Nat) : Queue α where
  capacity := max capacity 1
  items := []
  closed := false
  abandoned := false

/-- What became of a pushed item: a refusal hands it back. -/
inductive Push (α : Type) where
  | accepted
  | full (item : α)
  | closed (item : α)
  deriving DecidableEq, Repr

def isClosed (q : Queue α) : Bool :=
  q.closed || q.abandoned

def push (q : Queue α) (item : α) : Push α × Queue α :=
  if q.isClosed then (.closed item, q)
  else if q.capacity ≤ q.items.length then (.full item, q)
  else (.accepted, { q with items := q.items ++ [item] })

/-- Closes the queue for the producer; answers whether this call did it. -/
def close (q : Queue α) : Bool × Queue α :=
  (!q.closed, { q with closed := true })

def abandon (q : Queue α) : Queue α :=
  { q with items := [], abandoned := true }

def pop (q : Queue α) : Option α × Queue α :=
  match q.items with
  | [] => (none, q)
  | item :: rest => (some item, { q with items := rest })

/-- What a consumer that is ready to wait finds. -/
inductive Receipt (α : Type) where
  | item (item : α)
  | pending
  | ended
  deriving DecidableEq, Repr

def Receipt.map (f : α → β) (receipt : Receipt α) : Receipt β :=
  match receipt with
  | .item a => .item (f a)
  | .pending => .pending
  | .ended => .ended

def receive (q : Queue α) : Receipt α × Queue α :=
  match q.pop with
  | (some item, rest) => (.item item, rest)
  | (none, rest) => (if q.closed then .ended else .pending, rest)

def length (q : Queue α) : Nat :=
  q.items.length

def isEmpty (q : Queue α) : Bool :=
  q.items.isEmpty

end Queue

end Chainwatch
