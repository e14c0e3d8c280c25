import Chainwatch.Error
import Chainwatch.Queue
import Chainwatch.Text.Ascii

/-!
# Mailboxes

A subscription owns two bounded queues, one for notices and one for errors. A registry holds the mailboxes
of one kind of notice: the registered ones, which get what is dispatched, and the closed ones, which their
owners can still empty.
-/

namespace Chainwatch

structure Mailbox (α : Type) where
  id : Nat
  topic : Option String
  notices : Queue α
  errors : Queue SubscriptionError
  deriving DecidableEq, Repr

namespace Mailbox

variable {α : Type}

def make (id : Nat) (topic : Option String) (capacity errorCapacity : Nat) : Mailbox α where
  id := id
  topic := topic
  notices := .make capacity
  errors := .make errorCapacity

/-- Queues an error; if there is no room for it, it is lost. -/
def signal (m : Mailbox α) (e : SubscriptionError) : Mailbox α :=
  { m with errors := (m.errors.push e).2 }

/-- Queues a notice; if there is no room for it, an error reports the loss. -/
def offer (describe : α → String) (notice : α) (m : Mailbox α) : Mailbox α :=
  match m.notices.push notice with
  | (.full lost, _) => m.signal (.queueFull m.id (describe lost))
  | (_, notices) => { m with notices }

def close (m : Mailbox α) : Mailbox α :=
  { m with notices := m.notices.close.2, errors := m.errors.close.2 }

/-- Whether the mailbox watches this address, in letters of any case. -/
def watches (m : Mailbox α) (address : String) : Bool :=
  m.topic.any (Text.eqIgnoreCase · address)

end Mailbox

/-- The mailboxes of one kind of notice, oldest first. -/
structure Registry (α : Type) where
  registered : List (Mailbox α)
  retired : List (Mailbox α)
  deriving DecidableEq, Repr

namespace Registry

variable {α : Type}

def empty : Registry α := ⟨[], []⟩

def register (d : Registry α) (m : Mailbox α) : Registry α :=
  { d with registered := d.registered ++ [m] }

def contains (d : Registry α) (id : Nat) : Bool :=
  d.registered.any (·.id == id)

/-- Removes and closes the mailbox with this number; answers whether it was registered. -/
def remove (d : Registry α) (id : Nat) : Bool × Registry α :=
  (d.contains id,
    { registered := d.registered.filter (·.id != id)
      retired := d.retired ++ (d.registered.filter (·.id == id)).map Mailbox.close })

def clear (d : Registry α) : Nat × Registry α :=
  (d.registered.length,
    { registered := [], retired := d.retired ++ d.registered.map Mailbox.close })

def forAll (d : Registry α) (f : Mailbox α → Mailbox α) : Registry α :=
  { d with registered := d.registered.map f }

/-- The mailbox with this number, registered or not. -/
def find? (d : Registry α) (id : Nat) : Option (Mailbox α) :=
  (d.registered ++ d.retired).find? (·.id == id)

def update (d : Registry α) (m : Mailbox α) : Registry α :=
  let swap (old : Mailbox α) := if old.id = m.id then m else old
  { registered := d.registered.map swap, retired := d.retired.map swap }

/-- Takes the next notice of a mailbox, or says whether one may still come. -/
def receive (d : Registry α) (id : Nat) : Queue.Receipt α × Registry α :=
  match d.find? id with
  | none => (.ended, d)
  | some m =>
    let (receipt, notices) := m.notices.receive
    (receipt, d.update { m with notices })

def receiveError (d : Registry α) (id : Nat) : Queue.Receipt SubscriptionError × Registry α :=
  match d.find? id with
  | none => (.ended, d)
  | some m =>
    let (receipt, errors) := m.errors.receive
    (receipt, d.update { m with errors })

def pending (d : Registry α) (id : Nat) : Nat :=
  ((d.find? id).map (·.notices.length)).getD 0

def pendingErrors (d : Registry α) (id : Nat) : Nat :=
  ((d.find? id).map (·.errors.length)).getD 0

/-- Forgets a closed mailbox, which its owner has given up. -/
def forget (d : Registry α) (id : Nat) : Registry α :=
  { d with retired := d.retired.filter (·.id != id) }

end Registry

end Chainwatch
