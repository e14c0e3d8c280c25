import Chainwatch.Proofs.Dispatcher.Hearing

/-!
# The broadcast of a failure

A fatal failure is queued for every address subscriber, and then every subscription is closed. Each
address subscriber gets it once if there is room, no head subscriber gets it, and closed mailboxes only
lose items.
-/

namespace Chainwatch

open Dispatcher (Operation)

namespace Slot

variable {s : Subscription} {stood : Slot Notice} {errorCapacity : Nat} {operation : Operation}

/-! ## Closed mailboxes -/

/-- The queues hold no more than before. -/
structure AddsNothing (stood stands : Slot Notice) : Prop where
  notices : stands.notices <:+ stood.notices
  errors : stands.errors <:+ stood.errors

theorem AddsNothing.refl (stood : Slot Notice) : stood.AddsNothing stood :=
  ⟨List.suffix_refl _, List.suffix_refl _⟩

theorem AddsNothing.trans {middle stands : Slot Notice} (h : stood.AddsNothing middle) (g : middle.AddsNothing stands) :
    stood.AddsNothing stands :=
  ⟨g.notices.trans h.notices, g.errors.trans h.errors⟩

theorem addsNothing_close (stood : Slot Notice) : stood.AddsNothing stood.close :=
  ⟨notices_close stood ▸ List.suffix_refl _, errors_close stood ▸ List.suffix_refl _⟩

theorem addsNothing_gone (stood : Slot Notice) : stood.AddsNothing .gone :=
  ⟨List.nil_suffix, List.nil_suffix⟩

theorem isLive_hear (stood : Slot Notice) (delivery : Delivery) :
    (stood.hear s delivery).isLive = stood.isLive := by
  cases stood <;> rfl

theorem hear_of_not_live (ended : stood.isLive = false) (delivery : Delivery) : stood.hear s delivery = stood := by
  cases stood with
  | live m => cases ended
  | closed m => rfl
  | gone => rfl

theorem hearAll_of_not_live (ended : stood.isLive = false) (deliveries : List Delivery) :
    deliveries.foldl (hear s) stood = stood := by
  induction deliveries with
  | nil => rfl
  | cons delivery deliveries ih => rw [List.foldl_cons, hear_of_not_live ended, ih]

/-- A closed mailbox only loses items. -/
theorem addsNothing_after (ended : stood.isLive = false) (operation : Operation) :
    stood.AddsNothing (stood.after s operation) := by
  cases operation with
  | subscribe target => exact .refl _
  | dispatchHead | dispatchEvents | broadcast =>
      rw [after, hearAll_of_not_live ended]
      exact .refl _
  | receive owner =>
      rw [after]
      split
      · exact ⟨notices_pop stood ▸ List.tail_suffix _, errors_pop stood ▸ List.suffix_refl _⟩
      · exact .refl _
  | receiveError owner =>
      rw [after]
      split
      · exact ⟨notices_popError stood ▸ List.suffix_refl _, errors_popError stood ▸ List.tail_suffix _⟩
      · exact .refl _
  | unsubscribe id =>
      rw [after]
      split
      · exact addsNothing_close _
      · exact .refl _
  | drop owner =>
      rw [after]
      split
      · exact addsNothing_gone _
      · split
        · exact addsNothing_close _
        · exact .refl _
  | closeAll => exact addsNothing_close _

/-! ## No failure before -/

/-- The mailbox holds no failure while it is registered, and never if it is one for heads;
`errorCapacity` is the room of its error queue. -/
def NoFailureQueued (s : Subscription) (errorCapacity : Nat) : Slot Notice → Prop
  | live m => m.errors.IsOpen errorCapacity ∧ ∀ cause, .unrecoverable cause ∉ m.errors.items
  | closed m => s.interest = .heads → ∀ cause, .unrecoverable cause ∉ m.errors.items
  | gone => True

/-- A notice adds at most one error, which reports its loss. -/
theorem errors_accept (notice : Notice) (m : Mailbox Notice) : (m.accept (.notice notice)).errors = m.errors ∨
    (m.accept (.notice notice)).errors = (m.errors.push (.queueFull m.id notice.describe)).2 := by
  rw [Mailbox.accept, Mailbox.offer_eq]
  split
  · exact Or.inl rfl
  · split
    · exact Or.inr rfl
    · exact Or.inl rfl

theorem NoFailureQueued.hear_notice (h : stood.NoFailureQueued s errorCapacity) (notice : Notice) :
    (stood.hear s (.notice notice)).NoFailureQueued s errorCapacity ∧
      stood.errors <+: (stood.hear s (.notice notice)).errors := by
  cases stood with
  | closed m => exact ⟨h, List.prefix_refl _⟩
  | gone => exact ⟨h, List.prefix_refl _⟩
  | live m =>
      by_cases hears : s.hears m (.notice notice)
      · have moved : (live m).hear s (.notice notice) = live (m.accept (.notice notice)) := by
          simp [hear, mapLive, hears]
        rw [moved]
        obtain ⟨room, noFailureQueued⟩ := h
        rcases errors_accept notice m with same | pushed
        · exact ⟨⟨same ▸ room, same ▸ noFailureQueued⟩, by simp [errors, mailbox?, same]⟩
        · obtain ⟨room, items⟩ := room.push (.queueFull m.id notice.describe)
          rw [← pushed] at room items
          refine ⟨⟨room, fun cause mem => ?_⟩, ?_⟩
          · rw [items] at mem
            rcases List.mem_append.mp mem with mem | mem
            · exact noFailureQueued cause mem
            · split at mem <;> simp at mem
          · simp [errors, mailbox?, items]
      · have moved : (live m).hear s (.notice notice) = live m := by simp [hear, mapLive, hears]
        rw [moved]
        exact ⟨h, List.prefix_refl _⟩

theorem NoFailureQueued.close (h : stood.NoFailureQueued s errorCapacity) :
    stood.close.NoFailureQueued s errorCapacity := by
  cases stood with
  | live m => exact fun _ => h.2
  | closed m => exact h
  | gone => exact h

theorem NoFailureQueued.after (h : stood.NoFailureQueued s errorCapacity) (silent : operation.deliveries = []) :
    (stood.after s operation).NoFailureQueued s errorCapacity := by
  have popped : (stood.map Mailbox.pop).NoFailureQueued s errorCapacity := by
    cases stood <;> exact h
  have popped_error : (stood.map Mailbox.popError).NoFailureQueued s errorCapacity := by
    have fewer {m : Mailbox Notice} {e : SubscriptionError} (mem : e ∈ m.popError.errors.items) :
        e ∈ m.errors.items := by
      rw [Mailbox.popError, Queue.receive_rest] at mem
      exact List.mem_of_mem_tail mem
    cases stood with
    | live m => exact ⟨h.1.rest, fun cause mem => h.2 cause (fewer mem)⟩
    | closed m => exact fun heads cause mem => h heads cause (fewer mem)
    | gone => exact h
  cases operation with
  | subscribe target => exact h
  | dispatchHead head => cases silent
  | dispatchEvents events => rwa [Slot.after, silent]
  | broadcast cause => cases silent
  | receive owner =>
      rw [Slot.after]
      split
      · exact popped
      · exact h
  | receiveError owner =>
      rw [Slot.after]
      split
      · exact popped_error
      · exact h
  | unsubscribe id =>
      rw [Slot.after]
      split
      · exact h.close
      · exact h
  | drop owner =>
      rw [Slot.after]
      split
      · trivial
      · split
        · exact h.close
        · exact h
  | closeAll => exact h.close

/-- A broadcast followed by closing queues the failure once, if there is room, and closes the mailbox. -/
theorem NoFailureQueued.escalate (h : stood.NoFailureQueued s errorCapacity) (cause : TrackError) :
    (stood.hear s (.failure cause)).close.NoFailureQueued s errorCapacity ∧
      (stood.isLive → s.interest = .events → (stood.hear s (.failure cause)).close.errors =
        stood.errors ++ if stood.errors.length < errorCapacity then [.unrecoverable cause] else []) := by
  cases stood with
  | closed m => exact ⟨h, by simp [isLive]⟩
  | gone => exact ⟨h, by simp [isLive]⟩
  | live m =>
      by_cases events : s.interest = .events
      · have moved : (live m).hear s (.failure cause) = live (m.accept (.failure cause)) := by
          simp [hear, mapLive, Subscription.hears, events]
        rw [moved]
        refine ⟨fun heads => ?_, fun _ _ => ?_⟩
        · cases heads.symm.trans events
        · rw [errors_close]
          exact (h.1.push _).2
      · have moved : (live m).hear s (.failure cause) = live m := by
          simp [hear, mapLive, Subscription.hears, events]
        rw [moved]
        exact ⟨h.close, fun _ other => (events other).elim⟩

end Slot

namespace Dispatcher

variable {d : Dispatcher}

/-- No registered mailbox holds a failure. -/
structure NoFailureTold (d : Dispatcher) : Prop where
  tidy : d.Tidy
  noFailureQueued : ∀ s : Subscription, (s.slot d).NoFailureQueued s (max d.errorCapacity 1)

theorem slot_of_le (tidy : d.Tidy) {s : Subscription} (le : d.nextId ≤ s.id) : s.slot d = .gone := by
  rcases s with ⟨id, _ | _⟩
  · exact congrArg (Slot.relabel _) (tidy.heads.slot_gone le)
  · exact congrArg (Slot.relabel _) (tidy.events.slot_gone le)

theorem noFailureTold_make (capacity errorCapacity : Nat) : (make capacity errorCapacity).NoFailureTold := by
  have tidy := tidy_make capacity errorCapacity
  refine ⟨tidy, fun s => ?_⟩
  rcases s with ⟨id, _ | _⟩ <;> trivial

theorem NoFailureTold.subscribe (h : d.NoFailureTold) (target : Target) : (d.subscribe target).2.NoFailureTold := by
  have capacity : (d.subscribe target).2.errorCapacity = d.errorCapacity :=
    (d.capacities_perform (.subscribe target)).2
  have opened : (d.subscribe target).1 = ⟨d.nextId, target.interest⟩ := by cases target <;> rfl
  have next : (d.subscribe target).2.nextId = d.nextId + 1 := by cases target <;> rfl
  have tidy := h.tidy.subscribe target
  obtain ⟨own, stood⟩ := Subscription.isOf_subscribe h.tidy target
  rw [opened] at own stood
  refine ⟨tidy, fun s => ?_⟩
  rw [capacity]
  rcases s with ⟨id, interest⟩
  rcases Nat.lt_trichotomy id d.nextId with below | rfl | above
  · rw [Subscription.slot_subscribe below]
    exact h.noFailureQueued _
  · by_cases same : interest = target.interest
    · rw [same, stood]
      exact ⟨Queue.isOpen_make _, by simp [Mailbox.make, Queue.make]⟩
    · have other : interest = target.interest.other := by
        cases interest <;> cases target <;> first | rfl | exact (same rfl).elim
      have gone := own.alone
      rw [← other] at gone
      rw [gone]
      trivial
  · rw [slot_of_le tidy (next ▸ above)]
    trivial

theorem NoFailureTold.of_after (h : d.NoFailureTold) {operation : Operation} (silent : operation.deliveries = [])
    (stood : ∀ s : Subscription, s.slot (d.perform operation) = (s.slot d).after s operation) :
    (d.perform operation).NoFailureTold := by
  refine ⟨h.tidy.perform operation, fun s => ?_⟩
  rw [(d.capacities_perform operation).2, stood]
  exact (h.noFailureQueued s).after silent

/-- Operations of owners queue no failure. -/
theorem NoFailureTold.perform (h : d.NoFailureTold) {operation : Operation} (silent : operation.deliveries = []) :
    (d.perform operation).NoFailureTold := by
  cases operation with
  | subscribe target => exact h.subscribe target
  | dispatchHead head => cases silent
  | dispatchEvents events =>
      rw [List.map_eq_nil_iff.mp silent]
      exact h
  | broadcast cause => cases silent
  | receive owner => exact h.of_after silent fun s => s.slot_receive owner d
  | receiveError owner => exact h.of_after silent fun s => s.slot_receiveError owner d
  | unsubscribe id => exact h.of_after silent fun s => s.slot_unsubscribe h.tidy id
  | drop owner => exact h.of_after silent fun s => s.slot_drop owner h.tidy
  | closeAll => exact h.of_after silent fun s => s.slot_closeAll h.tidy

theorem NoFailureTold.deliver_notice (h : d.NoFailureTold) (notice : Notice) :
    (d.deliver (.notice notice)).NoFailureTold := by
  have capacity : (d.deliver (.notice notice)).errorCapacity = d.errorCapacity :=
    (d.capacities_deliverAll [.notice notice]).2
  refine ⟨h.tidy.deliver _, fun s => ?_⟩
  rw [capacity, s.slot_deliver]
  exact ((h.noFailureQueued s).hear_notice notice).1

/-- Notices queue no failure and leave what is queued in place. -/
theorem NoFailureTold.tell (h : d.NoFailureTold) (notices : List Notice) : (d.tell notices).NoFailureTold ∧
    ∀ s : Subscription, (s.slot (d.tell notices)).isLive = (s.slot d).isLive ∧
      (s.slot d).errors <+: (s.slot (d.tell notices)).errors := by
  induction notices generalizing d with
  | nil => exact ⟨h, fun s => ⟨rfl, List.prefix_refl _⟩⟩
  | cons notice notices ih =>
      obtain ⟨noFailureTold, told⟩ := ih (h.deliver_notice notice)
      refine ⟨noFailureTold, fun s => ?_⟩
      obtain ⟨live, grown⟩ := told s
      rw [s.slot_deliver] at live grown
      exact ⟨live.trans (Slot.isLive_hear _ _), ((h.noFailureQueued s).hear_notice notice).2.trans grown⟩

/-- A broadcast followed by closing queues the failure for every address subscriber and closes every mailbox. -/
theorem NoFailureTold.escalate (h : d.NoFailureTold) (cause : TrackError) :
    (d.broadcast cause).closeAll.2.NoFailureTold ∧
    ∀ s : Subscription, (s.slot (d.broadcast cause).closeAll.2).isLive = false ∧
      ((s.slot d).isLive → s.interest = .events → (s.slot (d.broadcast cause).closeAll.2).errors =
        (s.slot d).errors ++
          if (s.slot d).errors.length < max d.errorCapacity 1 then [.unrecoverable cause] else []) := by
  have tidy : (d.broadcast cause).Tidy := h.tidy.deliver (.failure cause)
  have stood (s : Subscription) :
      s.slot (d.broadcast cause).closeAll.2 = ((s.slot d).hear s (.failure cause)).close := by
    rw [s.slot_closeAll tidy, s.slot_broadcast]
  refine ⟨⟨tidy.perform .closeAll, fun s => ?_⟩, fun s => ?_⟩
  · rw [stood]
    exact ((h.noFailureQueued s).escalate cause).1
  · rw [stood]
    exact ⟨Slot.isLive_close _, ((h.noFailureQueued s).escalate cause).2⟩

/-- No mailbox for heads holds a failure. -/
theorem NoFailureTold.noFailureQueued_heads (h : d.NoFailureTold) {s : Subscription} (heads : s.interest = .heads)
    (cause : TrackError) : .unrecoverable cause ∉ (s.slot d).errors := by
  have noFailureQueued := h.noFailureQueued s
  intro mem
  cases stood : s.slot d with
  | live m =>
      rw [stood] at noFailureQueued mem
      exact noFailureQueued.2 cause mem
  | closed m =>
      rw [stood] at noFailureQueued mem
      exact noFailureQueued heads cause mem
  | gone =>
      rw [stood] at mem
      cases mem

/-- No registered mailbox holds a failure. -/
theorem NoFailureTold.noFailureQueued_live (h : d.NoFailureTold) {s : Subscription} (live : (s.slot d).isLive)
    (cause : TrackError) : .unrecoverable cause ∉ (s.slot d).errors := by
  have noFailureQueued := h.noFailureQueued s
  cases stood : s.slot d with
  | live m =>
      rw [stood] at noFailureQueued
      exact noFailureQueued.2 cause
  | closed m =>
      rw [stood] at live
      cases live
  | gone =>
      rw [stood] at live
      cases live

theorem NoFailureTold.below_of_live (h : d.NoFailureTold) {s : Subscription} (live : (s.slot d).isLive) :
    s.id < d.nextId := by
  refine Nat.lt_of_not_le fun le => ?_
  rw [slot_of_le h.tidy le] at live
  cases live

/-! ## Afterwards -/

def noticeOperation : Notice → Operation
  | .head head => .dispatchHead head
  | .event event => .dispatchEvents [event]

theorem tell_eq_performAll (d : Dispatcher) (notices : List Notice) :
    d.tell notices = d.performAll (notices.map noticeOperation) := by
  induction notices generalizing d with
  | nil => rfl
  | cons notice notices ih =>
      refine (ih (d.deliver (.notice notice))).trans ?_
      cases notice <;> rfl

theorem performAll_append (d : Dispatcher) (first second : List Operation) :
    d.performAll (first ++ second) = (d.performAll first).performAll second :=
  List.foldl_append

theorem nextId_le_performAll (d : Dispatcher) (operations : List Operation) :
    d.nextId ≤ (d.performAll operations).nextId := by
  induction operations generalizing d with
  | nil => exact Nat.le_refl _
  | cons operation operations ih => exact Nat.le_trans (d.nextId_le_perform operation) (ih _)

/-- No operation adds anything to the queues of a subscription that has ended. -/
theorem addsNothing_performAll (tidy : d.Tidy) {s : Subscription} (below : s.id < d.nextId)
    (ended : (s.slot d).isLive = false) (operations : List Operation) :
    (s.slot (d.performAll operations)).isLive = false ∧
      (s.slot d).AddsNothing (s.slot (d.performAll operations)) := by
  induction operations generalizing d with
  | nil => exact ⟨ended, .refl _⟩
  | cons operation operations ih =>
      have stood := Subscription.slot_perform tidy below operation
      have still : (s.slot (d.perform operation)).isLive = false := by
        rw [stood, Subscription.isLive_after, ended, Bool.false_and]
      have known := Nat.lt_of_lt_of_le below (d.nextId_le_perform operation)
      obtain ⟨ends, waned⟩ := ih (tidy.perform operation) known still
      exact ⟨ends, (stood ▸ Slot.addsNothing_after ended operation).trans waned⟩

end Dispatcher

end Chainwatch
