import Chainwatch.Proofs.Dispatcher.Accounts

/-!
# Subscribers are isolated

The answers to an owner depend only on the dispatches and on the operations on its own subscription. What
others subscribe, receive, leave unread or drop has no effect on them.
-/

namespace Chainwatch

open Dispatcher (Operation)

/-- Everything that the owner of a subscription can be answered in a state. -/
structure OwnerView where
  topic : Option String
  next : Queue.Receipt Notice
  nextError : Queue.Receipt SubscriptionError
  pending : Nat
  pendingErrors : Nat
  closed : Bool
  deriving DecidableEq, Repr

namespace Subscription

variable (s : Subscription)

def ownerView (d : Dispatcher) : OwnerView where
  topic := s.topic? d
  next := (s.receive d).1
  nextError := (s.receiveError d).1
  pending := s.pending d
  pendingErrors := s.pendingErrors d
  closed := s.isClosed d

/-- Whether an operation reaches every subscriber or is one on this subscription. -/
def concernedBy : Operation → Bool
  | .dispatchHead _ | .dispatchEvents _ | .broadcast _ | .closeAll => true
  | .receive owner | .receiveError owner => owner = s
  | .unsubscribe id => id = s.id
  | .drop owner => owner.id = s.id
  | .subscribe _ => false

/-- The owner's view before each operation that concerns the subscription, and at the end. -/
def ownerViews : List Operation → Dispatcher → List OwnerView
  | [], d => [s.ownerView d]
  | operation :: rest, d =>
    (if s.concernedBy operation then [s.ownerView d] else []) ++ ownerViews rest (d.perform operation)

/-! ## Answers without the others -/

def ownerViewFrom (stood : Slot Notice) : OwnerView where
  topic := if s.interest = .heads then none else stood.mailbox?.bind (·.topic)
  next := (stood.mailbox?.map fun m => m.notices.receive.1).getD .ended
  nextError := (stood.mailbox?.map fun m => m.errors.receive.1).getD .ended
  pending := stood.notices.length
  pendingErrors := stood.errors.length
  closed := !stood.isLive

/-- The views along operations that all concern the subscription, computed from its slot alone. -/
def ownerViewsFrom : List Operation → Slot Notice → List OwnerView
  | [], stood => [s.ownerViewFrom stood]
  | operation :: rest, stood => s.ownerViewFrom stood :: ownerViewsFrom rest (stood.after s operation)

variable {s} {d : Dispatcher}

theorem topic?_eq (s : Subscription) (d : Dispatcher) :
    s.topic? d = if s.interest = .heads then none else (s.slot d).mailbox?.bind (·.topic) := by
  rcases s with ⟨id, _ | _⟩
  · rfl
  · change (d.events.find? id).bind (·.topic) = (slot ⟨id, .events⟩ d).mailbox?.bind (·.topic)
    rw [slot_events, Slot.mailbox?_relabel, Registry.find?_eq]
    cases (d.events.slot id).mailbox? <;> rfl

theorem ownerView_eq (own : s.IsOf d) : s.ownerView d = s.ownerViewFrom (s.slot d) := by
  simp only [ownerView, ownerViewFrom, topic?_eq, receive_eq, receiveError_eq, pending_eq, pendingErrors_eq, isClosed,
    own.contains_eq]

/-- An operation that does not concern a subscription leaves its slot as it is. -/
theorem after_of_not_concernedBy {operation : Operation} (apart : s.concernedBy operation = false)
    (stood : Slot Notice) : stood.after s operation = stood := by
  cases operation with
  | subscribe target => rfl
  | dispatchHead | dispatchEvents | broadcast | closeAll => cases apart
  | receive owner | receiveError owner =>
      have other : owner ≠ s := of_decide_eq_false apart
      exact if_neg other
  | unsubscribe id =>
      have other : id ≠ s.id := of_decide_eq_false apart
      exact if_neg other
  | drop owner =>
      have other : owner.id ≠ s.id := of_decide_eq_false apart
      have another : owner ≠ s := fun same => other (congrArg Subscription.id same)
      exact (if_neg another).trans (if_neg other)

/-- The views along a history are those along the operations that concern the subscription. -/
theorem ownerViews_eq (tidy : d.Tidy) (own : s.IsOf d) (operations : List Operation) :
    s.ownerViews operations d = s.ownerViewsFrom (operations.filter s.concernedBy) (s.slot d) := by
  induction operations generalizing d with
  | nil => exact congrArg ([·]) (ownerView_eq own)
  | cons operation operations ih =>
      have moved := slot_perform tidy own.below operation
      have rest := ih (tidy.perform operation) (own.perform tidy operation)
      rw [ownerViews, rest, moved]
      cases concerned : s.concernedBy operation with
      | true =>
          rw [List.filter_cons_of_pos concerned, ownerView_eq own]
          rfl
      | false =>
          have apart : ¬ s.concernedBy operation = true := Bool.eq_false_iff.mp concerned
          rw [List.filter_cons_of_neg apart, after_of_not_concernedBy concerned]
          rfl

/-- The views along the history of a new subscription. -/
theorem ownerViews_subscribe (tidy : d.Tidy) (target : Target) (later : List Operation) :
    (d.subscribe target).1.ownerViews later (d.subscribe target).2 =
      (d.subscribe target).1.ownerViewsFrom (later.filter (d.subscribe target).1.concernedBy)
        (.live (.make d.nextId target.topic? d.capacity d.errorCapacity)) := by
  obtain ⟨own, stood⟩ := isOf_subscribe tidy target
  rw [ownerViews_eq (tidy.subscribe target) own, stood]

end Subscription

/-- Two histories of dispatchers of the same capacities that agree on the id of a subscription and on
the operations that concern it give its owner the same answers. -/
theorem Dispatcher.answers_of_what_concerns (capacity errorCapacity : Nat) (target : Target)
    (earlier earlier' later later' : List Operation)
    (sameId : ((make capacity errorCapacity).performAll earlier).nextId =
      ((make capacity errorCapacity).performAll earlier').nextId) :
    let opened := ((make capacity errorCapacity).performAll earlier).subscribe target
    let opened' := ((make capacity errorCapacity).performAll earlier').subscribe target
    later.filter opened.1.concernedBy = later'.filter opened.1.concernedBy →
      opened.1 = opened'.1 ∧ opened.1.ownerViews later opened.2 = opened'.1.ownerViews later' opened'.2 := by
  intro opened opened' sameConcerns
  have tidy := (tidy_make capacity errorCapacity).performAll earlier
  have tidy' := (tidy_make capacity errorCapacity).performAll earlier'
  obtain ⟨room, errorRoom⟩ := (make capacity errorCapacity).capacities_performAll earlier
  obtain ⟨room', errorRoom'⟩ := (make capacity errorCapacity).capacities_performAll earlier'
  have same : opened.1 = opened'.1 := by
    cases target <;> exact congrArg (Subscription.mk · _) sameId
  refine ⟨same, ?_⟩
  rw [Subscription.ownerViews_subscribe tidy target later, Subscription.ownerViews_subscribe tidy' target later']
  change opened.1.ownerViewsFrom (later.filter opened.1.concernedBy) _ =
    opened'.1.ownerViewsFrom (later'.filter opened'.1.concernedBy) _
  rw [sameConcerns, same, sameId, room, errorRoom, room', errorRoom']

/-- The second of three subscribers, of which the first never reads and the third comes and goes, gets
the answers of a subscriber beside a watcher of events that left at once. -/
theorem Dispatcher.answers_beside_idle_reader :
    let head (number : UInt64) : Head := { (default : Head) with number }
    let idle : List Operation := [.subscribe .heads]
    let left : List Operation := [.subscribe (.events "0xaa"), .drop ⟨1, .events⟩]
    let busy : List Operation := [.dispatchHead (head 1), .subscribe .heads, .dispatchHead (head 2),
      .receive ⟨3, .heads⟩, .receive ⟨2, .heads⟩, .drop ⟨3, .heads⟩, .receiveError ⟨2, .heads⟩]
    let quiet : List Operation :=
      [.dispatchHead (head 1), .dispatchHead (head 2), .receive ⟨2, .heads⟩, .receiveError ⟨2, .heads⟩]
    let beside := ((make 1 1).performAll idle).subscribe .heads
    let alone := ((make 1 1).performAll left).subscribe .heads
    ((make 1 1).performAll idle).nextId = ((make 1 1).performAll left).nextId ∧
      busy.filter beside.1.concernedBy = quiet.filter beside.1.concernedBy ∧
      beside.1.ownerViews busy beside.2 = alone.1.ownerViews quiet alone.2 := by
  intro head idle left busy quiet beside alone
  have sameConcerns : busy.filter beside.1.concernedBy = quiet.filter beside.1.concernedBy := rfl
  exact ⟨rfl, sameConcerns, (answers_of_what_concerns 1 1 .heads idle left busy quiet rfl sameConcerns).2⟩

end Chainwatch
