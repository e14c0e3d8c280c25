import Chainwatch.Tracker.Ledger

/-!
# The work on one block

A block is observed or confirmed. Observing records it as seen, or as skipped when its bloom excludes
every watched address, and then its events; a block that is recorded already is skipped over. Confirming
dispatches the events first, then upserts the head and saves the events. The work waits for the node or
the store between its steps, and other tasks may run meanwhile.
-/

namespace Chainwatch

/-- What the loops of a run share. -/
structure Session where
  /-- The place of the run among the runs of its tracker. -/
  run : Nat
  chain : UInt64
  threshold : UInt64
  deriving DecidableEq, Repr

/-- The events that a block's logs give rise to; logs dropped by a reorganisation give none. -/
def Session.events (session : Session) (state : BlockState) (logs : List Log) : List Event :=
  (logs.filter (!·.removed)).map (Event.ofLog session.chain state)

/-- A reply of the node or the store to a task, or the turn that a task needs to continue. -/
inductive Answer where
  | go
  | chain (outcome : Except TrackError UInt64)
  | subscribed (outcome : Except TrackError Unit)
  | header (outcome : Except TrackError Header)
  | logs (outcome : Except TrackError (List Log))
  | arrival (item : Option (Except TrackError Header))
  | stored (fault : Option TrackError)

/-- What the work on a block waits for. -/
inductive Work where
  | record (header : Header) (state : BlockState)
  | fetchSeen (header : Header) (addresses : List String)
  | saveSeen (header : Header) (events : List Event)
  | fetchConfirmed (header : Header) (addresses : List String)
  | promote (header : Header) (events : List Event)
  | saveConfirmed (header : Header) (events : List Event)
  deriving DecidableEq, Repr

/-- What comes of a step of the work. -/
inductive Progress where
  | waits (work : Work)
  | finished
  | failed (cause : TrackError)
  /-- A bloom was too short to be looked up in: the task dies. -/
  | crashed
  deriving DecidableEq, Repr

namespace Work

variable {S : Type}

def observe (ledger : Ledger S) (header : Header) : Progress :=
  match ledger.outlet.mayHold? header.bloom with
  | none => .crashed
  | some held => .waits (.record header (if held then .seen else .skipped))

/-- Continues with an observed block that has been recorded. -/
def afterRecord (ledger : Ledger S) (header : Header) (state : BlockState) : Progress × Ledger S :=
  if state = .seen then
    match ledger.outlet.dispatcher.addresses with
    | [] => (.finished, ledger)
    | addresses =>
      (.waits (.fetchSeen header addresses),
        ledger.emit (.asked (.logs addresses header.number header.number)))
  else (.finished, ledger)

/-- Reports the events of a block that is confirmed. -/
def tellConfirmed (ledger : Ledger S) (header : Header) (events : List Event) :
    Progress × Ledger S :=
  (.waits (.promote header events), { ledger with outlet := ledger.outlet.tellEvents events })

def confirm (ledger : Ledger S) (header : Header) : Progress × Ledger S :=
  match ledger.outlet.mayHold? header.bloom with
  | none => (.crashed, ledger)
  | some false => tellConfirmed ledger header []
  | some true =>
    match ledger.outlet.dispatcher.addresses with
    | [] => tellConfirmed ledger header []
    | addresses =>
      (.waits (.fetchConfirmed header addresses),
        ledger.emit (.asked (.logs addresses header.number header.number)))

variable [BlockStore S]

/-- A step of the work; `none` if the answer does not fit what it waits for. -/
def resume? (session : Session) (ledger : Ledger S) (work : Work) (answer : Answer) :
    Option (Progress × Ledger S) :=
  match work, answer with
  | .record header state, .stored fault =>
    match ledger.recordHead fault (.ofHeader session.chain header state) with
    | (.ok _, ledger) => some (afterRecord ledger header state)
    | (.error e, ledger) => some (if e.isConflict then .finished else .failed e, ledger)
  | .fetchSeen _ _, .logs (.error e) => some (.failed e, ledger)
  | .fetchSeen header _, .logs (.ok logs) =>
    match session.events .seen logs with
    | [] => some (.finished, ledger)
    | events => some (.waits (.saveSeen header events), ledger)
  | .saveSeen header events, .stored fault =>
    match ledger.recordEvents fault session.chain header.hash events with
    | (.ok _, ledger) => some (.finished, ledger)
    | (.error e, ledger) => some (.failed e, ledger)
  | .fetchConfirmed _ _, .logs (.error e) => some (.failed e, ledger)
  | .fetchConfirmed header _, .logs (.ok logs) =>
    some (tellConfirmed ledger header (session.events .confirmed logs))
  | .promote header events, .stored fault =>
    match ledger.promoteHead fault (.ofHeader session.chain header .confirmed) with
    | (.ok _, ledger) =>
      some (if events.isEmpty then .finished else .waits (.saveConfirmed header events), ledger)
    | (.error e, ledger) => some (.failed e, ledger)
  | .saveConfirmed header events, .stored fault =>
    match ledger.keepEvents fault session.chain header.hash events with
    | (.ok _, ledger) => some (.finished, ledger)
    | (.error e, ledger) => some (.failed e, ledger)
  | _, _ => none

end Work

end Chainwatch
