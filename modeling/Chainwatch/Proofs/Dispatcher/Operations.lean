import Chainwatch.Dispatcher
import Chainwatch.Proofs.Dispatcher.Slots

/-!
# Operations on one subscription

The effect of an operation on a subscription is a function of its own slot and of the operation.
-/

namespace Chainwatch

/-! ## Operations -/

inductive Target where
  | heads
  | events (address : String)
  deriving DecidableEq, Repr

/-- What one dispatch hands to every matching mailbox. -/
inductive Delivery where
  | notice (notice : Notice)
  | failure (cause : TrackError)

def Target.topic? : Target → Option String
  | heads => none
  | events address => some address

def Target.interest : Target → Interest
  | heads => .heads
  | events _ => .events

namespace Dispatcher

/-- An operation on a dispatcher or on one of its subscriptions. -/
inductive Operation where
  | subscribe (target : Target)
  | dispatchHead (head : Head)
  | dispatchEvents (events : List Event)
  | broadcast (cause : TrackError)
  | receive (owner : Subscription)
  | receiveError (owner : Subscription)
  | unsubscribe (id : Nat)
  | drop (owner : Subscription)
  | closeAll

def subscribe (d : Dispatcher) : Target → Subscription × Dispatcher
  | .heads => d.subscribeHeads
  | .events address => d.subscribeEvents address

def deliver (d : Dispatcher) : Delivery → Dispatcher
  | .notice (.head head) => d.dispatchHead head
  | .notice (.event event) => d.dispatchEvent event
  | .failure cause => d.broadcast cause

def perform (d : Dispatcher) : Operation → Dispatcher
  | .subscribe target => (d.subscribe target).2
  | .dispatchHead head => d.dispatchHead head
  | .dispatchEvents events => d.dispatchEvents events
  | .broadcast cause => d.broadcast cause
  | .receive owner => (owner.receive d).2
  | .receiveError owner => (owner.receiveError d).2
  | .unsubscribe id => (d.unsubscribe id).2
  | .drop owner => owner.drop d
  | .closeAll => d.closeAll.2

def performAll (d : Dispatcher) (operations : List Operation) : Dispatcher :=
  operations.foldl perform d

def Operation.deliveries : Operation → List Delivery
  | .dispatchHead head => [.notice (.head head)]
  | .dispatchEvents events => events.map fun event => .notice (.event event)
  | .broadcast cause => [.failure cause]
  | .subscribe _ | .receive _ | .receiveError _ | .unsubscribe _ | .drop _ | .closeAll => []

theorem dispatchEvents_eq (d : Dispatcher) (events : List Event) :
    d.dispatchEvents events = (events.map fun event => Delivery.notice (.event event)).foldl deliver d := by
  rw [List.foldl_map]
  rfl

end Dispatcher

/-! ## One kind of notice as any kind -/

def Notice.describe : Notice → String
  | .head h => h.describe
  | .event e => e.describe

section Map

variable {α β : Type} (f : α → β)

def Queue.map (q : Queue α) : Queue β where
  capacity := q.capacity
  items := q.items.map f
  closed := q.closed
  abandoned := q.abandoned

theorem Queue.receive_map (q : Queue α) : (q.map f).receive.1 = q.receive.1.map f := by
  obtain ⟨capacity, items, closed, abandoned⟩ := q
  cases items <;> cases closed <;> rfl

namespace Mailbox

def relabel (m : Mailbox α) : Mailbox β where
  id := m.id
  topic := m.topic
  notices := m.notices.map f
  errors := m.errors

theorem relabel_offer {describe : α → String} {describe' : β → String} (same : ∀ a, describe' (f a) = describe a)
    (notice : α) (m : Mailbox α) : (m.offer describe notice).relabel f = (m.relabel f).offer describe' (f notice) := by
  have closed : (m.relabel f).notices.isClosed = m.notices.isClosed := rfl
  have length : (m.relabel f).notices.items.length = m.notices.items.length := List.length_map f
  rw [offer_eq, offer_eq, closed, length, same]
  by_cases shut : m.notices.isClosed
  · rw [if_pos shut, if_pos shut]
  · rw [if_neg shut, if_neg shut]
    by_cases full : m.notices.capacity ≤ m.notices.items.length
    · exact (congrArg (relabel f) (if_pos full)).trans (if_pos full).symm
    · refine (congrArg (relabel f) (if_neg full)).trans (Eq.trans ?_ (if_neg full).symm)
      simp [relabel, Queue.map]

theorem relabel_pop (m : Mailbox α) : m.pop.relabel f = (m.relabel f).pop := by
  unfold pop
  rw [Queue.receive_rest, Queue.receive_rest]
  simp [relabel, Queue.map]

end Mailbox

namespace Slot

def relabel : Slot α → Slot β
  | live m => live (m.relabel f)
  | closed m => closed (m.relabel f)
  | gone => gone

variable {f} (stood : Slot α)

@[simp] theorem isLive_relabel : (stood.relabel f).isLive = stood.isLive := by
  cases stood <;> rfl

@[simp] theorem mailbox?_relabel : (stood.relabel f).mailbox? = stood.mailbox?.map (·.relabel f) := by
  cases stood <;> rfl

theorem relabel_mapLive {g : Mailbox α → Mailbox α} {g' : Mailbox β → Mailbox β}
    (same : ∀ m, (g m).relabel f = g' (m.relabel f)) : (stood.mapLive g).relabel f = (stood.relabel f).mapLive g' := by
  cases stood with
  | live m => exact congrArg live (same m)
  | closed m => rfl
  | gone => rfl

theorem relabel_close : stood.close.relabel f = (stood.relabel f).close := by
  cases stood <;> rfl

theorem relabel_forget : stood.forget.relabel f = (stood.relabel f).forget := by
  cases stood <;> rfl

theorem relabel_pop : (stood.map Mailbox.pop).relabel f = (stood.relabel f).map Mailbox.pop := by
  cases stood with
  | live m => exact congrArg live (m.relabel_pop f)
  | closed m => exact congrArg closed (m.relabel_pop f)
  | gone => rfl

theorem relabel_popError : (stood.map Mailbox.popError).relabel f = (stood.relabel f).map Mailbox.popError := by
  cases stood <;> rfl

end Slot

end Map

/-! ## One subscription -/

def Interest.other : Interest → Interest
  | heads => events
  | events => heads

namespace Mailbox

/-- The mailbox after a delivery. -/
def accept (delivery : Delivery) (m : Mailbox Notice) : Mailbox Notice :=
  match delivery with
  | .notice notice => m.offer Notice.describe notice
  | .failure cause => m.signal (.unrecoverable cause)

end Mailbox

namespace Subscription

variable (s : Subscription)

/-- The slot of a subscription. -/
def slot (d : Dispatcher) : Slot Notice :=
  match s.interest with
  | .heads => (d.heads.slot s.id).relabel .head
  | .events => (d.events.slot s.id).relabel .event

def hears (m : Mailbox Notice) : Delivery → Bool
  | .notice (.head _) => s.interest = .heads
  | .notice (.event event) => s.interest = .events && m.watches event.address
  | .failure _ => s.interest = .events

/-- The id of the subscription was given out before and belongs to it alone. -/
structure IsOf (d : Dispatcher) : Prop where
  below : s.id < d.nextId
  alone : slot ⟨s.id, s.interest.other⟩ d = .gone

end Subscription

namespace Slot

variable (s : Subscription)

def hear (stood : Slot Notice) (delivery : Delivery) : Slot Notice :=
  stood.mapLive fun m => if s.hears m delivery then m.accept delivery else m

/-- The slot after an operation. -/
def after (operation : Dispatcher.Operation) (stood : Slot Notice) : Slot Notice :=
  match operation with
  | .subscribe _ => stood
  | .dispatchHead _ | .dispatchEvents _ | .broadcast _ => operation.deliveries.foldl (hear s) stood
  | .receive owner => if owner = s then stood.map Mailbox.pop else stood
  | .receiveError owner => if owner = s then stood.map Mailbox.popError else stood
  | .unsubscribe id => if id = s.id then stood.close else stood
  | .drop owner => if owner = s then .gone else if owner.id = s.id then stood.close else stood
  | .closeAll => stood.close

end Slot

/-! ## Tidy dispatchers -/

namespace Dispatcher

variable {d : Dispatcher}

theorem nextId_deliverAll (d : Dispatcher) (deliveries : List Delivery) :
    (deliveries.foldl deliver d).nextId = d.nextId := by
  induction deliveries generalizing d with
  | nil => rfl
  | cons delivery deliveries ih =>
      refine (ih (d.deliver delivery)).trans ?_
      rcases delivery with (_ | _) | _ <;> rfl

theorem capacities_deliverAll (d : Dispatcher) (deliveries : List Delivery) :
    (deliveries.foldl deliver d).capacity = d.capacity ∧
      (deliveries.foldl deliver d).errorCapacity = d.errorCapacity := by
  induction deliveries generalizing d with
  | nil => exact ⟨rfl, rfl⟩
  | cons delivery deliveries ih =>
      obtain ⟨capacity, errorCapacity⟩ := ih (d.deliver delivery)
      rcases delivery with (_ | _) | _ <;> exact ⟨capacity, errorCapacity⟩

theorem capacities_perform (d : Dispatcher) (operation : Operation) :
    (d.perform operation).capacity = d.capacity ∧ (d.perform operation).errorCapacity = d.errorCapacity := by
  cases operation with
  | subscribe target => cases target <;> exact ⟨rfl, rfl⟩
  | dispatchEvents events =>
      rw [perform, dispatchEvents_eq]
      exact d.capacities_deliverAll _
  | receive owner => rcases owner with ⟨id, _ | _⟩ <;> exact ⟨rfl, rfl⟩
  | receiveError owner => rcases owner with ⟨id, _ | _⟩ <;> exact ⟨rfl, rfl⟩
  | drop owner => rcases owner with ⟨id, _ | _⟩ <;> exact ⟨rfl, rfl⟩
  | dispatchHead | broadcast | unsubscribe | closeAll => exact ⟨rfl, rfl⟩

theorem capacities_performAll (d : Dispatcher) (operations : List Operation) :
    (d.performAll operations).capacity = d.capacity ∧ (d.performAll operations).errorCapacity = d.errorCapacity := by
  induction operations generalizing d with
  | nil => exact ⟨rfl, rfl⟩
  | cons operation operations ih =>
      obtain ⟨capacity, errorCapacity⟩ := d.capacities_perform operation
      exact ⟨(ih _).1.trans capacity, (ih _).2.trans errorCapacity⟩

theorem nextId_le_perform (d : Dispatcher) (operation : Operation) : d.nextId ≤ (d.perform operation).nextId := by
  cases operation with
  | subscribe target => cases target <;> exact Nat.le_succ _
  | dispatchEvents events =>
      have same : (d.perform (.dispatchEvents events)).nextId = d.nextId := by
        rw [perform, dispatchEvents_eq, nextId_deliverAll]
      exact Nat.le_of_eq same.symm
  | receive owner => rcases owner with ⟨id, _ | _⟩ <;> exact Nat.le_refl _
  | receiveError owner => rcases owner with ⟨id, _ | _⟩ <;> exact Nat.le_refl _
  | drop owner => rcases owner with ⟨id, _ | _⟩ <;> exact Nat.le_refl _
  | dispatchHead | broadcast | unsubscribe | closeAll => exact Nat.le_refl _

/-- At each registry no id is both registered and retired, and all ids were given out before. -/
structure Tidy (d : Dispatcher) : Prop where
  heads : d.heads.Tidy d.nextId
  events : d.events.Tidy d.nextId

theorem tidy_make (capacity errorCapacity : Nat) : (make capacity errorCapacity).Tidy :=
  ⟨Registry.tidy_empty, Registry.tidy_empty⟩

theorem Tidy.dispatchEvent (h : d.Tidy) (event : Event) : (d.dispatchEvent event).Tidy := by
  refine ⟨h.heads, h.events.forAll fun m => ?_⟩
  split
  · exact Mailbox.offer_id ..
  · rfl

theorem Tidy.deliver (h : d.Tidy) (delivery : Delivery) : (d.deliver delivery).Tidy := by
  cases delivery with
  | notice notice =>
      cases notice with
      | head head => exact ⟨h.heads.forAll fun m => Mailbox.offer_id .., h.events⟩
      | event event => exact h.dispatchEvent event
  | failure cause => exact ⟨h.heads, h.events.forAll fun _ => rfl⟩

theorem Tidy.deliverAll (h : d.Tidy) (deliveries : List Delivery) : (deliveries.foldl Dispatcher.deliver d).Tidy := by
  induction deliveries generalizing d with
  | nil => exact h
  | cons delivery deliveries ih => exact ih (h.deliver delivery)

theorem Tidy.subscribe (h : d.Tidy) (target : Target) : (d.subscribe target).2.Tidy := by
  cases target with
  | heads => exact ⟨h.heads.register (Nat.le_refl _) (Nat.lt_succ_self _), h.events.le (Nat.le_succ _)⟩
  | events address => exact ⟨h.heads.le (Nat.le_succ _), h.events.register (Nat.le_refl _) (Nat.lt_succ_self _)⟩

theorem Tidy.unsubscribe (h : d.Tidy) (id : Nat) : (d.unsubscribe id).2.Tidy :=
  ⟨h.heads.remove id, h.events.remove id⟩

theorem Tidy.perform (h : d.Tidy) (operation : Operation) : (d.perform operation).Tidy := by
  cases operation with
  | subscribe target => exact h.subscribe target
  | dispatchHead head => exact h.deliver (.notice (.head head))
  | dispatchEvents events =>
      rw [Dispatcher.perform, dispatchEvents_eq]
      exact h.deliverAll _
  | broadcast cause => exact h.deliver (.failure cause)
  | receive owner =>
      rcases owner with ⟨id, _ | _⟩
      · exact ⟨h.heads.receive id, h.events⟩
      · exact ⟨h.heads, h.events.receive id⟩
  | receiveError owner =>
      rcases owner with ⟨id, _ | _⟩
      · exact ⟨h.heads.receiveError id, h.events⟩
      · exact ⟨h.heads, h.events.receiveError id⟩
  | unsubscribe id => exact h.unsubscribe id
  | drop owner =>
      have closed := h.unsubscribe owner.id
      rcases owner with ⟨id, _ | _⟩
      · exact ⟨closed.heads.forget id, closed.events⟩
      · exact ⟨closed.heads, closed.events.forget id⟩
  | closeAll => exact ⟨h.heads.clear, h.events.clear⟩

theorem Tidy.performAll (h : d.Tidy) (operations : List Operation) : (d.performAll operations).Tidy := by
  induction operations generalizing d with
  | nil => exact h
  | cons operation operations ih => exact ih (h.perform operation)

end Dispatcher

/-! ## The step -/

namespace Subscription

open Dispatcher (Operation)

variable {s : Subscription} {d : Dispatcher}

theorem slot_heads (id : Nat) (d : Dispatcher) :
    slot ⟨id, .heads⟩ d = (d.heads.slot id).relabel .head := rfl

theorem slot_events (id : Nat) (d : Dispatcher) :
    slot ⟨id, .events⟩ d = (d.events.slot id).relabel .event := rfl

theorem slot_dispatchHead (s : Subscription) (d : Dispatcher) (head : Head) :
    s.slot (d.dispatchHead head) = (s.slot d).hear s (.notice (.head head)) := by
  rcases s with ⟨id, _ | _⟩
  · have moved := Registry.slot_forAll (f := .offer Head.describe head) (Mailbox.offer_id Head.describe head) d.heads id
    rw [slot_heads, slot_heads, Dispatcher.dispatchHead, moved]
    refine Slot.relabel_mapLive _ fun m => ?_
    have described (h : Head) : (Notice.head h).describe = h.describe := rfl
    exact Mailbox.relabel_offer Notice.head described head m
  · exact (Slot.mapLive_id _).symm

theorem slot_dispatchEvent (s : Subscription) (d : Dispatcher) (event : Event) :
    s.slot (d.dispatchEvent event) = (s.slot d).hear s (.notice (.event event)) := by
  rcases s with ⟨id, _ | _⟩
  · exact (Slot.mapLive_id _).symm
  · have same (m : Mailbox Event) :
        (if m.watches event.address then m.offer Event.describe event else m).id = m.id := by
      split
      · exact Mailbox.offer_id ..
      · rfl
    rw [slot_events, slot_events, Dispatcher.dispatchEvent, Registry.slot_forAll same]
    refine Slot.relabel_mapLive _ fun m => ?_
    have heard : hears ⟨id, .events⟩ (m.relabel Notice.event) (.notice (.event event)) = m.watches event.address := rfl
    rw [heard]
    have described (e : Event) : (Notice.event e).describe = e.describe := rfl
    by_cases watches : m.watches event.address
    · rw [if_pos watches, if_pos watches]
      exact Mailbox.relabel_offer Notice.event described event m
    · rw [if_neg watches, if_neg watches]

theorem slot_broadcast (s : Subscription) (d : Dispatcher) (cause : TrackError) :
    s.slot (d.broadcast cause) = (s.slot d).hear s (.failure cause) := by
  rcases s with ⟨id, _ | _⟩
  · exact (Slot.mapLive_id _).symm
  · have moved := Registry.slot_forAll (f := (·.signal (.unrecoverable cause))) (fun _ => rfl) d.events id
    rw [slot_events, slot_events, Dispatcher.broadcast, moved]
    exact Slot.relabel_mapLive _ fun m => rfl

theorem slot_deliver (s : Subscription) (d : Dispatcher) (delivery : Delivery) :
    s.slot (d.deliver delivery) = (s.slot d).hear s delivery := by
  rcases delivery with (head | event) | cause
  · exact s.slot_dispatchHead d head
  · exact s.slot_dispatchEvent d event
  · exact s.slot_broadcast d cause

theorem slot_deliverAll (s : Subscription) (d : Dispatcher) (deliveries : List Delivery) :
    s.slot (deliveries.foldl Dispatcher.deliver d) = deliveries.foldl (Slot.hear s) (s.slot d) := by
  induction deliveries generalizing d with
  | nil => rfl
  | cons delivery deliveries ih =>
      rw [List.foldl_cons, List.foldl_cons, ih, slot_deliver]

theorem slot_subscribe (below : s.id < d.nextId) (target : Target) : s.slot (d.subscribe target).2 = s.slot d := by
  have other : d.nextId ≠ s.id := Nat.ne_of_gt below
  rcases s with ⟨id, _ | _⟩ <;> cases target
  · exact congrArg (Slot.relabel _) (Registry.slot_register_of_ne d.heads other)
  · rfl
  · rfl
  · exact congrArg (Slot.relabel _) (Registry.slot_register_of_ne d.events other)

theorem slot_unsubscribe (s : Subscription) (tidy : d.Tidy) (id : Nat) :
    s.slot (d.unsubscribe id).2 = if id = s.id then (s.slot d).close else s.slot d := by
  rcases s with ⟨own, _ | _⟩
  · refine (congrArg (Slot.relabel _) (Registry.slot_remove tidy.heads id own)).trans ?_
    rw [apply_ite (Slot.relabel Notice.head), Slot.relabel_close]
    rfl
  · refine (congrArg (Slot.relabel _) (Registry.slot_remove tidy.events id own)).trans ?_
    rw [apply_ite (Slot.relabel Notice.event), Slot.relabel_close]
    rfl

theorem slot_receive (s owner : Subscription) (d : Dispatcher) :
    s.slot (owner.receive d).2 = if owner = s then (s.slot d).map Mailbox.pop else s.slot d := by
  rcases owner with ⟨id, _ | _⟩ <;> rcases s with ⟨own, _ | _⟩
  · refine (congrArg (Slot.relabel _) (Registry.slot_receive d.heads id own)).trans ?_
    rw [apply_ite (Slot.relabel Notice.head), Slot.relabel_pop]
    simp [slot]
  · simp [receive, slot]
  · simp [receive, slot]
  · refine (congrArg (Slot.relabel _) (Registry.slot_receive d.events id own)).trans ?_
    rw [apply_ite (Slot.relabel Notice.event), Slot.relabel_pop]
    simp [slot]

theorem slot_receiveError (s owner : Subscription) (d : Dispatcher) :
    s.slot (owner.receiveError d).2 = if owner = s then (s.slot d).map Mailbox.popError else s.slot d := by
  rcases owner with ⟨id, _ | _⟩ <;> rcases s with ⟨own, _ | _⟩
  · refine (congrArg (Slot.relabel _) (Registry.slot_receiveError d.heads id own)).trans ?_
    rw [apply_ite (Slot.relabel Notice.head), Slot.relabel_popError]
    simp [slot]
  · simp [receiveError, slot]
  · simp [receiveError, slot]
  · refine (congrArg (Slot.relabel _) (Registry.slot_receiveError d.events id own)).trans ?_
    rw [apply_ite (Slot.relabel Notice.event), Slot.relabel_popError]
    simp [slot]

theorem slot_drop (s owner : Subscription) (tidy : d.Tidy) : s.slot (owner.drop d) =
    if owner = s then .gone else if owner.id = s.id then (s.slot d).close else s.slot d := by
  have closed := s.slot_unsubscribe tidy owner.id
  rcases owner with ⟨id, _ | _⟩ <;> rcases s with ⟨own, _ | _⟩
  · refine (congrArg (Slot.relabel _) (Registry.slot_forget (d.unsubscribe id).2.heads id own)).trans ?_
    rw [apply_ite (Slot.relabel Notice.head), Slot.relabel_forget, ← slot_heads, closed]
    by_cases same : id = own <;> simp [same]
  · simpa [drop, slot] using closed
  · simpa [drop, slot] using closed
  · refine (congrArg (Slot.relabel _) (Registry.slot_forget (d.unsubscribe id).2.events id own)).trans ?_
    rw [apply_ite (Slot.relabel Notice.event), Slot.relabel_forget, ← slot_events, closed]
    by_cases same : id = own <;> simp [same]

theorem slot_closeAll (s : Subscription) (tidy : d.Tidy) : s.slot d.closeAll.2 = (s.slot d).close := by
  rcases s with ⟨own, _ | _⟩
  · exact (congrArg (Slot.relabel _) (Registry.slot_clear tidy.heads own)).trans (Slot.relabel_close _)
  · exact (congrArg (Slot.relabel _) (Registry.slot_clear tidy.events own)).trans (Slot.relabel_close _)

/-- The effect of an operation on one slot depends on that slot alone. -/
theorem slot_perform (tidy : d.Tidy) (below : s.id < d.nextId) (operation : Operation) :
    s.slot (d.perform operation) = (s.slot d).after s operation := by
  cases operation with
  | subscribe target => exact slot_subscribe below target
  | dispatchHead head => exact s.slot_deliver d (.notice (.head head))
  | dispatchEvents events =>
      rw [Dispatcher.perform, Dispatcher.dispatchEvents_eq]
      exact s.slot_deliverAll d _
  | broadcast cause => exact s.slot_deliver d (.failure cause)
  | receive owner => exact s.slot_receive owner d
  | receiveError owner => exact s.slot_receiveError owner d
  | unsubscribe id => exact s.slot_unsubscribe tidy id
  | drop owner => exact s.slot_drop owner tidy
  | closeAll => exact s.slot_closeAll tidy

/-- A slot that is gone stays so. -/
theorem after_gone (s : Subscription) (operation : Operation) : (Slot.gone).after s operation = .gone := by
  have deaf (deliveries : List Delivery) : deliveries.foldl (Slot.hear s) .gone = .gone := by
    induction deliveries with
    | nil => rfl
    | cons _ _ ih => exact ih
  cases operation with
  | dispatchHead | dispatchEvents | broadcast => exact deaf _
  | subscribe => rfl
  | receive | receiveError | unsubscribe | closeAll => simp [Slot.after, Slot.map, Slot.close]
  | drop => simp [Slot.after, Slot.close]

theorem IsOf.deliver (own : s.IsOf d) (delivery : Delivery) : s.IsOf (d.deliver delivery) := by
  refine ⟨Nat.lt_of_lt_of_eq own.below (d.nextId_deliverAll [delivery]).symm, ?_⟩
  rw [slot_deliver, own.alone]
  rfl

theorem IsOf.perform (own : s.IsOf d) (tidy : d.Tidy) (operation : Operation) : s.IsOf (d.perform operation) := by
  refine ⟨Nat.lt_of_lt_of_le own.below (d.nextId_le_perform operation), ?_⟩
  rw [slot_perform (s := ⟨s.id, s.interest.other⟩) tidy own.below, own.alone, after_gone]

theorem IsOf.contains_eq (own : s.IsOf d) : d.contains s.id = (s.slot d).isLive := by
  have none_live := congrArg Slot.isLive own.alone
  rw [Dispatcher.contains, Registry.contains_eq, Registry.contains_eq]
  rcases s with ⟨id, _ | _⟩
  · have none_live : (d.events.slot id).isLive = false := (Slot.isLive_relabel _).symm.trans none_live
    rw [slot_heads, Slot.isLive_relabel, none_live, Bool.or_false]
  · have none_live : (d.heads.slot id).isLive = false := (Slot.isLive_relabel _).symm.trans none_live
    rw [slot_events, Slot.isLive_relabel, none_live, Bool.false_or]

/-- A new subscription has an id of its own and an empty mailbox. -/
theorem isOf_subscribe (tidy : d.Tidy) (target : Target) : (d.subscribe target).1.IsOf (d.subscribe target).2 ∧
    (d.subscribe target).1.slot (d.subscribe target).2 =
      .live (.make d.nextId target.topic? d.capacity d.errorCapacity) := by
  cases target with
  | heads =>
      have opened := Registry.slot_register (m := .make d.nextId none d.capacity d.errorCapacity)
        (tidy.heads.slot_gone (Nat.le_refl _))
      have alone := tidy.events.slot_gone (Nat.le_refl _)
      exact ⟨⟨Nat.lt_succ_self _, congrArg (Slot.relabel _) alone⟩, congrArg (Slot.relabel _) opened⟩
  | events address =>
      have opened := Registry.slot_register (m := .make d.nextId (some address) d.capacity d.errorCapacity)
        (tidy.events.slot_gone (Nat.le_refl _))
      have alone := tidy.heads.slot_gone (Nat.le_refl _)
      exact ⟨⟨Nat.lt_succ_self _, congrArg (Slot.relabel _) alone⟩, congrArg (Slot.relabel _) opened⟩

end Subscription

end Chainwatch
