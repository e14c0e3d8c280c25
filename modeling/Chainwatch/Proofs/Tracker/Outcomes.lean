import Chainwatch.Tracker.Work

/-!
# Outcomes of a step of the work

Work continues with the reply that it waits for. The possible outcomes are listed here once, with the
write that was made and the request that follows; proofs about a step of the work go by these cases.
-/

namespace Chainwatch

namespace Work

variable {S : Type} [BlockStore S]

/-- The possible results of a step of the work: how it continues, and the ledger after it. -/
inductive Outcome (session : Session) (l : Ledger S) : Work → Answer → Progress → Ledger S → Prop where
  | recorded {header : Header} {state : BlockState} {fault : Option TrackError} {head : Head} {after : Ledger S} :
      l.recordHead fault (.ofHeader session.chain header state) = (.ok head, after) →
      (state = .seen → after.outlet.dispatcher.addresses = []) →
      Outcome session l (.record header state) (.stored fault) .finished after
  | asks {header : Header} {fault : Option TrackError} {head : Head} {after : Ledger S} :
      l.recordHead fault (.ofHeader session.chain header .seen) = (.ok head, after) →
      after.outlet.dispatcher.addresses ≠ [] →
      Outcome session l (.record header .seen) (.stored fault)
        (.waits (.fetchSeen header after.outlet.dispatcher.addresses))
        (after.emit (.asked (.logs after.outlet.dispatcher.addresses header.number header.number)))
  | known {header : Header} {state : BlockState} {fault : Option TrackError} {cause : TrackError}
      {after : Ledger S} :
      l.recordHead fault (.ofHeader session.chain header state) = (.error cause, after) → cause.isConflict →
      Outcome session l (.record header state) (.stored fault) .finished after
  | unrecorded {header : Header} {state : BlockState} {fault : Option TrackError} {cause : TrackError}
      {after : Ledger S} :
      l.recordHead fault (.ofHeader session.chain header state) = (.error cause, after) → ¬cause.isConflict →
      Outcome session l (.record header state) (.stored fault) (.failed cause) after
  | unserved {header : Header} {addresses : List String} {cause : TrackError} :
      Outcome session l (.fetchSeen header addresses) (.logs (.error cause)) (.failed cause) l
  | eventless {header : Header} {addresses : List String} {logs : List Log} : session.events .seen logs = [] →
      Outcome session l (.fetchSeen header addresses) (.logs (.ok logs)) .finished l
  | served {header : Header} {addresses : List String} {logs : List Log} : session.events .seen logs ≠ [] →
      Outcome session l (.fetchSeen header addresses) (.logs (.ok logs))
        (.waits (.saveSeen header (session.events .seen logs))) l
  | saved {header : Header} {events stored : List Event} {fault : Option TrackError} {after : Ledger S} :
      l.recordEvents fault session.chain header.hash events = (.ok stored, after) →
      Outcome session l (.saveSeen header events) (.stored fault) .finished after
  | unsaved {header : Header} {events : List Event} {fault : Option TrackError} {cause : TrackError}
      {after : Ledger S} :
      l.recordEvents fault session.chain header.hash events = (.error cause, after) →
      Outcome session l (.saveSeen header events) (.stored fault) (.failed cause) after
  | unconfirmed {header : Header} {addresses : List String} {cause : TrackError} :
      Outcome session l (.fetchConfirmed header addresses) (.logs (.error cause)) (.failed cause) l
  | told {header : Header} {addresses : List String} {logs : List Log} :
      Outcome session l (.fetchConfirmed header addresses) (.logs (.ok logs))
        (.waits (.promote header (session.events .confirmed logs)))
        { l with outlet := l.outlet.tellEvents (session.events .confirmed logs) }
  | promoted {header : Header} {fault : Option TrackError} {head : Head} {after : Ledger S} :
      l.promoteHead fault (.ofHeader session.chain header .confirmed) = (.ok head, after) →
      Outcome session l (.promote header []) (.stored fault) .finished after
  | keeps {header : Header} {events : List Event} {fault : Option TrackError} {head : Head} {after : Ledger S} :
      l.promoteHead fault (.ofHeader session.chain header .confirmed) = (.ok head, after) → events ≠ [] →
      Outcome session l (.promote header events) (.stored fault) (.waits (.saveConfirmed header events)) after
  | unpromoted {header : Header} {events : List Event} {fault : Option TrackError} {cause : TrackError}
      {after : Ledger S} :
      l.promoteHead fault (.ofHeader session.chain header .confirmed) = (.error cause, after) →
      Outcome session l (.promote header events) (.stored fault) (.failed cause) after
  | kept {header : Header} {events stored : List Event} {fault : Option TrackError} {after : Ledger S} :
      l.keepEvents fault session.chain header.hash events = (.ok stored, after) →
      Outcome session l (.saveConfirmed header events) (.stored fault) .finished after
  | unkept {header : Header} {events : List Event} {fault : Option TrackError} {cause : TrackError}
      {after : Ledger S} :
      l.keepEvents fault session.chain header.hash events = (.error cause, after) →
      Outcome session l (.saveConfirmed header events) (.stored fault) (.failed cause) after

variable {session : Session} {l after : Ledger S} {work next : Work} {answer : Answer} {progress : Progress}

/-- Every step of the work has one of these outcomes. -/
theorem outcome_of_resume? (moved : work.resume? session l answer = some (progress, after)) :
    Outcome session l work answer progress after := by
  unfold resume? at moved
  split at moved
  case h_1 header state fault =>
    split at moved <;> rename_i written
    · unfold afterRecord at moved
      split at moved
      · rename_i seen
        subst seen
        split at moved <;> rename_i watched <;> cases moved
        · exact .recorded written fun _ => watched
        · exact .asks written watched
      · rename_i unseen
        cases moved
        exact .recorded written fun seen => (unseen seen).elim
    · split at moved <;> cases moved
      · exact .known written ‹_›
      · exact .unrecorded written ‹_›
  case h_2 =>
    cases moved
    exact .unserved
  case h_3 =>
    split at moved <;> rename_i gives <;> cases moved
    · exact .eventless gives
    · exact .served gives
  case h_4 =>
    split at moved <;> rename_i written <;> cases moved
    · exact .saved written
    · exact .unsaved written
  case h_5 =>
    cases moved
    exact .unconfirmed
  case h_6 =>
    cases moved
    exact .told
  case h_7 header events fault =>
    split at moved <;> rename_i written
    · cases events with
      | nil =>
          cases moved
          exact .promoted written
      | cons event rest =>
          cases moved
          exact .keeps written (List.cons_ne_nil event rest)
    · cases moved
      exact .unpromoted written
  case h_8 =>
    split at moved <;> rename_i written <;> cases moved
    · exact .kept written
    · exact .unkept written
  case h_9 => cases moved

end Work

end Chainwatch
