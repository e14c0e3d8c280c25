import Chainwatch.Proofs.Dispatcher.Operations

/-!
# Conservation of notices

What a subscription received and what it has queued is what was dispatched to it, in order, except what
found its queue full; and every loss is reported on its error queue, unless that was full as well.
-/

namespace Chainwatch

open Dispatcher (Operation)

/-! ## The journal of a subscription -/

def Target.hears : Target → Delivery → Bool
  | .heads, .notice (.head _) => true
  | .events address, .notice (.event event) => Text.eqIgnoreCase address event.address
  | .events _, .failure _ => true
  | .heads, .notice (.event _) | .heads, .failure _ | .events _, .notice (.head _) => false

/-- What reached a registered subscription, and how much waited in its queues at that moment. -/
structure Arrival where
  delivery : Delivery
  waiting : Nat
  waitingErrors : Nat

namespace Arrival

/-- The notice that is queued for an arrival: there must have been room for it. -/
def notice? (capacity : Nat) (a : Arrival) : Option Notice :=
  match a.delivery with
  | .notice notice => if a.waiting < capacity then some notice else none
  | .failure _ => none

def cause? (id capacity : Nat) (a : Arrival) : Option SubscriptionError :=
  match a.delivery with
  | .notice notice => if a.waiting < capacity then none else some (.queueFull id notice.describe)
  | .failure cause => some (.unrecoverable cause)

/-- The error that is queued for an arrival: there must have been room for it as well. -/
def error? (id capacity errorCapacity : Nat) (a : Arrival) : Option SubscriptionError :=
  if a.waitingErrors < errorCapacity then a.cause? id capacity else none

end Arrival

structure Journal where
  arrivals : List Arrival
  received : List Notice
  receivedErrors : List SubscriptionError
  forgone : List Notice
  forgoneErrors : List SubscriptionError

namespace Journal

def empty : Journal := ⟨[], [], [], [], []⟩

def append (first second : Journal) : Journal where
  arrivals := first.arrivals ++ second.arrivals
  received := first.received ++ second.received
  receivedErrors := first.receivedErrors ++ second.receivedErrors
  forgone := first.forgone ++ second.forgone
  forgoneErrors := first.forgoneErrors ++ second.forgoneErrors

end Journal

def Queue.Receipt.item? {α : Type} : Queue.Receipt α → Option α
  | item a => some a
  | pending | ended => none

theorem Queue.receive_item? {α : Type} (q : Queue α) : q.receive.1.item? = q.items.head? := by
  rw [receive_receipt]
  cases q.items with
  | nil => cases q.closed <;> rfl
  | cons item rest => rfl

namespace Subscription

variable (s : Subscription) (target : Target)

/-- What reaches a subscription of what is handed out. -/
def arrivals : List Delivery → Dispatcher → List Arrival
  | [], _ => []
  | delivery :: rest, d =>
    (if d.contains s.id && target.hears delivery then [⟨delivery, s.pending d, s.pendingErrors d⟩] else []) ++
      arrivals rest (d.deliver delivery)

/-- The journal entries of an operation. -/
def note (operation : Operation) (d : Dispatcher) : Journal where
  arrivals := s.arrivals target operation.deliveries d
  received :=
    match operation with
    | .receive owner => if owner = s then (s.receive d).1.item?.toList else []
    | _ => []
  receivedErrors :=
    match operation with
    | .receiveError owner => if owner = s then (s.receiveError d).1.item?.toList else []
    | _ => []
  forgone :=
    match operation with
    | .drop owner => if owner = s then (s.drain d).1 else []
    | _ => []
  forgoneErrors :=
    match operation with
    | .drop owner => if owner = s then (s.drain d).2.1 else []
    | _ => []

def journal : List Operation → Dispatcher → Journal
  | [], _ => .empty
  | operation :: rest, d => (s.note target operation d).append (journal rest (d.perform operation))

/-- Whether an operation ends a subscription. -/
def endedBy : Operation → Bool
  | .unsubscribe id => id == s.id
  | .drop owner => owner.id == s.id
  | .closeAll => true
  | .subscribe _ | .dispatchHead _ | .dispatchEvents _ | .broadcast _ | .receive _ | .receiveError _ => false

end Subscription

/-! ## Queued items -/

namespace Slot

def notices (stood : Slot Notice) : List Notice :=
  (stood.mailbox?.map (·.notices.items)).getD []

def errors (stood : Slot Notice) : List SubscriptionError :=
  (stood.mailbox?.map (·.errors.items)).getD []

@[simp] theorem notices_close (stood : Slot Notice) : stood.close.notices = stood.notices := by
  cases stood <;> rfl

@[simp] theorem errors_close (stood : Slot Notice) : stood.close.errors = stood.errors := by
  cases stood <;> rfl

@[simp] theorem notices_gone : (gone : Slot Notice).notices = [] := rfl

@[simp] theorem errors_gone : (gone : Slot Notice).errors = [] := rfl

@[simp] theorem notices_pop (stood : Slot Notice) : (stood.map Mailbox.pop).notices = stood.notices.tail := by
  cases stood <;> simp [notices, mailbox?, map, Mailbox.pop, Queue.receive_rest]

@[simp] theorem errors_pop (stood : Slot Notice) : (stood.map Mailbox.pop).errors = stood.errors := by
  cases stood <;> rfl

@[simp] theorem notices_popError (stood : Slot Notice) :
    (stood.map Mailbox.popError).notices = stood.notices := by
  cases stood <;> rfl

@[simp] theorem errors_popError (stood : Slot Notice) :
    (stood.map Mailbox.popError).errors = stood.errors.tail := by
  cases stood <;> simp [errors, mailbox?, map, Mailbox.popError, Queue.receive_rest]

end Slot

namespace Subscription

variable (s : Subscription) (d : Dispatcher)

theorem pending_eq : s.pending d = (s.slot d).notices.length := by
  rcases s with ⟨id, _ | _⟩
  · change d.heads.pending id = _
    rw [slot_heads, Registry.pending, Registry.find?_eq]
    cases d.heads.slot id <;> simp [Slot.relabel, Slot.notices, Slot.mailbox?, Queue.length,
      Mailbox.relabel, Queue.map]
  · change d.events.pending id = _
    rw [slot_events, Registry.pending, Registry.find?_eq]
    cases d.events.slot id <;> simp [Slot.relabel, Slot.notices, Slot.mailbox?, Queue.length,
      Mailbox.relabel, Queue.map]

theorem pendingErrors_eq : s.pendingErrors d = (s.slot d).errors.length := by
  rcases s with ⟨id, _ | _⟩
  · change d.heads.pendingErrors id = _
    rw [slot_heads, Registry.pendingErrors, Registry.find?_eq]
    cases d.heads.slot id <;> rfl
  · change d.events.pendingErrors id = _
    rw [slot_events, Registry.pendingErrors, Registry.find?_eq]
    cases d.events.slot id <;> rfl

theorem receive_eq :
    (s.receive d).1 = ((s.slot d).mailbox?.map fun m => m.notices.receive.1).getD .ended := by
  rcases s with ⟨id, _ | _⟩
  · change (d.heads.receive id).1.map Notice.head = _
    rw [slot_heads, Slot.mailbox?_relabel, Registry.receive_eq]
    cases (d.heads.slot id).mailbox? with
    | none => rfl
    | some m => exact (m.notices.receive_map Notice.head).symm
  · change (d.events.receive id).1.map Notice.event = _
    rw [slot_events, Slot.mailbox?_relabel, Registry.receive_eq]
    cases (d.events.slot id).mailbox? with
    | none => rfl
    | some m => exact (m.notices.receive_map Notice.event).symm

theorem receiveError_eq :
    (s.receiveError d).1 = ((s.slot d).mailbox?.map fun m => m.errors.receive.1).getD .ended := by
  rcases s with ⟨id, _ | _⟩
  · change (d.heads.receiveError id).1 = _
    rw [slot_heads, Slot.mailbox?_relabel, Registry.receiveError_eq]
    cases (d.heads.slot id).mailbox? <;> rfl
  · change (d.events.receiveError id).1 = _
    rw [slot_events, Slot.mailbox?_relabel, Registry.receiveError_eq]
    cases (d.events.slot id).mailbox? <;> rfl

theorem receive_item? : (s.receive d).1.item? = (s.slot d).notices.head? := by
  rw [receive_eq, Slot.notices]
  cases (s.slot d).mailbox? with
  | none => rfl
  | some m => exact m.notices.receive_item?

theorem receiveError_item? : (s.receiveError d).1.item? = (s.slot d).errors.head? := by
  rw [receiveError_eq, Slot.errors]
  cases (s.slot d).mailbox? with
  | none => rfl
  | some m => exact m.errors.receive_item?

theorem take_eq (count : Nat) : (s.take d count).1 = (s.slot d).notices.take count ∧
    (s.slot (s.take d count).2).errors = (s.slot d).errors := by
  induction count generalizing d with
  | zero => exact ⟨rfl, rfl⟩
  | succ count ih =>
      have item := s.receive_item? d
      have moved := s.slot_receive s d
      rw [if_pos rfl] at moved
      cases received : s.receive d with
      | mk receipt after =>
          rw [received] at item moved
          cases receipt with
          | item notice =>
              obtain ⟨notices, errors⟩ := ih after
              obtain ⟨rest, waiting⟩ := List.head?_eq_some_iff.mp item.symm
              simp only [moved, Slot.notices_pop, Slot.errors_pop, waiting, List.tail_cons] at notices errors
              simp [take, received, notices, errors, waiting]
          | pending | ended =>
              have waiting := List.head?_eq_none_iff.mp item.symm
              simp [take, received, moved, waiting]

theorem takeErrors_eq (count : Nat) : (s.takeErrors d count).1 = (s.slot d).errors.take count := by
  induction count generalizing d with
  | zero => rfl
  | succ count ih =>
      have item := s.receiveError_item? d
      have moved := s.slot_receiveError s d
      rw [if_pos rfl] at moved
      cases received : s.receiveError d with
      | mk receipt after =>
          rw [received] at item moved
          cases receipt with
          | item e =>
              have errors := ih after
              obtain ⟨rest, waiting⟩ := List.head?_eq_some_iff.mp item.symm
              simp only [moved, Slot.errors_popError, waiting, List.tail_cons] at errors
              simp [takeErrors, received, errors, waiting]
          | pending | ended =>
              have waiting := List.head?_eq_none_iff.mp item.symm
              simp [takeErrors, received, waiting]

theorem drain_eq : (s.drain d).1 = (s.slot d).notices ∧ (s.drain d).2.1 = (s.slot d).errors := by
  obtain ⟨notices, errors⟩ := s.take_eq d (s.pending d)
  refine ⟨notices.trans ?_, (s.takeErrors_eq _ _).trans ?_⟩
  · rw [pending_eq, List.take_length]
  · rw [pendingErrors_eq, List.take_length, errors]

end Subscription

/-! ## Arrivals -/

/-- A queue that takes items as long as there is room. -/
structure Queue.IsOpen {α : Type} (q : Queue α) (capacity : Nat) : Prop where
  capacity_eq : q.capacity = capacity
  not_closed : q.isClosed = false
  fits : q.items.length ≤ capacity

namespace Queue

variable {α : Type} {q : Queue α} {capacity : Nat}

theorem isOpen_make (capacity : Nat) : (make capacity : Queue α).IsOpen (max capacity 1) :=
  ⟨rfl, rfl, Nat.zero_le _⟩

theorem IsOpen.rest (h : q.IsOpen capacity) : q.receive.2.IsOpen capacity := by
  rw [receive_rest]
  refine ⟨h.capacity_eq, h.not_closed, ?_⟩
  have fits := h.fits
  simp only [List.length_tail]
  omega

theorem IsOpen.push (h : q.IsOpen capacity) (item : α) : (q.push item).2.IsOpen capacity ∧
    (q.push item).2.items = q.items ++ if q.items.length < capacity then [item] else [] := by
  obtain rfl := h.capacity_eq
  unfold Queue.push
  rw [h.not_closed, if_neg Bool.false_ne_true]
  by_cases room : q.items.length < q.capacity
  · rw [if_neg (Nat.not_le_of_lt room), if_pos room]
    have grown : (q.items ++ [item]).length ≤ q.capacity := by
      rw [List.length_append, List.length_singleton]
      exact room
    exact ⟨⟨rfl, h.not_closed, grown⟩, rfl⟩
  · rw [if_pos (Nat.le_of_not_lt room), if_neg room]
    exact ⟨h, by simp⟩

end Queue

structure Mailbox.Serves (target : Target) (id capacity errorCapacity : Nat) (m : Mailbox Notice) : Prop where
  id_eq : m.id = id
  topic : m.topic = target.topic?
  notices : m.notices.IsOpen capacity
  errors : m.errors.IsOpen errorCapacity

def Slot.Serves (target : Target) (id capacity errorCapacity : Nat) : Slot Notice → Prop
  | live m => m.Serves target id capacity errorCapacity
  | closed _ | gone => True

section Arrivals

variable {target : Target} {id capacity errorCapacity : Nat} {m : Mailbox Notice} {stood : Slot Notice}
  {s : Subscription} {d : Dispatcher}

namespace Mailbox

theorem Serves.signal (h : m.Serves target id capacity errorCapacity) (e : SubscriptionError) :
    (m.signal e).Serves target id capacity errorCapacity ∧ (m.signal e).notices.items = m.notices.items ∧
      (m.signal e).errors.items = m.errors.items ++ if m.errors.items.length < errorCapacity then [e] else [] := by
  obtain ⟨pushed, items⟩ := h.errors.push e
  exact ⟨⟨h.id_eq, h.topic, h.notices, pushed⟩, rfl, items⟩

/-- An arrival is queued, or its loss is reported. -/
theorem Serves.accept (h : m.Serves target id capacity errorCapacity) (delivery : Delivery) {a : Arrival}
    (arrival : a = ⟨delivery, m.notices.items.length, m.errors.items.length⟩) :
    (m.accept delivery).Serves target id capacity errorCapacity ∧
      (m.accept delivery).notices.items = m.notices.items ++ [a].filterMap (Arrival.notice? capacity) ∧
      (m.accept delivery).errors.items =
        m.errors.items ++ [a].filterMap (Arrival.error? id capacity errorCapacity) := by
  subst arrival
  cases delivery with
  | failure cause =>
      obtain ⟨serves, notices, errors⟩ := h.signal (.unrecoverable cause)
      refine ⟨serves, notices.trans (by simp [Arrival.notice?]), errors.trans ?_⟩
      by_cases room : m.errors.items.length < errorCapacity <;> simp [Arrival.error?, Arrival.cause?, room]
  | notice notice =>
      have offered := m.offer_eq Notice.describe notice
      rw [h.notices.not_closed, h.notices.capacity_eq, if_neg Bool.false_ne_true] at offered
      by_cases room : m.notices.items.length < capacity
      · rw [if_neg (Nat.not_le_of_lt room)] at offered
        have grown : (m.notices.items ++ [notice]).length ≤ capacity := by
          rw [List.length_append, List.length_singleton]
          exact room
        rw [Mailbox.accept, offered]
        refine ⟨⟨h.id_eq, h.topic, ⟨h.notices.capacity_eq, h.notices.not_closed, grown⟩, h.errors⟩, ?_, ?_⟩
        · simp [Arrival.notice?, room]
        · simp [Arrival.error?, Arrival.cause?, room]
      · rw [if_pos (Nat.le_of_not_lt room), h.id_eq] at offered
        obtain ⟨serves, notices, errors⟩ := h.signal (.queueFull id notice.describe)
        rw [Mailbox.accept, offered]
        refine ⟨serves, notices.trans (by simp [Arrival.notice?, room]), errors.trans ?_⟩
        by_cases room' : m.errors.items.length < errorCapacity <;> simp [Arrival.error?, Arrival.cause?, room, room']

theorem Serves.hears_eq (h : m.Serves target id capacity errorCapacity) (interest : s.interest = target.interest)
    (delivery : Delivery) : s.hears m delivery = target.hears delivery := by
  rcases delivery with (head | event) | cause <;> cases target <;>
    simp [Subscription.hears, Target.hears, interest, Target.interest, watches, h.topic, Target.topic?]

end Mailbox

/-- What became of a subscription, and what arrived meanwhile. -/
structure Handed (target : Target) (id capacity errorCapacity : Nat) (stood : Slot Notice) (deliveries : List Delivery)
    (arrivals : List Arrival) (stands : Slot Notice) : Prop where
  serves : stands.Serves target id capacity errorCapacity
  live : stands.isLive = stood.isLive
  arrived : arrivals.map (·.delivery) = if stood.isLive then deliveries.filter target.hears else []
  room : ∀ a ∈ arrivals, a.waiting ≤ capacity ∧ a.waitingErrors ≤ errorCapacity
  notices : stands.notices = stood.notices ++ arrivals.filterMap (Arrival.notice? capacity)
  errors : stands.errors = stood.errors ++ arrivals.filterMap (Arrival.error? id capacity errorCapacity)

theorem Handed.trans {stands ends : Slot Notice} {first second : List Delivery} {before after : List Arrival}
    (h : Handed target id capacity errorCapacity stood first before stands)
    (g : Handed target id capacity errorCapacity stands second after ends) :
    Handed target id capacity errorCapacity stood (first ++ second) (before ++ after) ends where
  serves := g.serves
  live := g.live.trans h.live
  arrived := by
    rw [List.map_append, h.arrived, g.arrived, h.live]
    cases stood.isLive <;> simp
  room a mem := (List.mem_append.mp mem).elim (h.room a) (g.room a)
  notices := by rw [g.notices, h.notices, List.filterMap_append, List.append_assoc]
  errors := by rw [g.errors, h.errors, List.filterMap_append, List.append_assoc]

theorem Slot.handed_hear (serves : stood.Serves target id capacity errorCapacity)
    (interest : s.interest = target.interest) (delivery : Delivery) :
    Handed target id capacity errorCapacity stood [delivery]
      (if stood.isLive && target.hears delivery then [⟨delivery, stood.notices.length, stood.errors.length⟩] else [])
      (stood.hear s delivery) := by
  cases stood with
  | closed m =>
    exact ⟨trivial, rfl, rfl, by simp [isLive], by simp [isLive, hear, mapLive], by simp [isLive, hear, mapLive]⟩
  | gone =>
    exact ⟨trivial, rfl, rfl, by simp [isLive], by simp [isLive, hear, mapLive], by simp [isLive, hear, mapLive]⟩
  | live m =>
      have serves : m.Serves target id capacity errorCapacity := serves
      have hears := serves.hears_eq interest delivery
      by_cases heard : target.hears delivery
      · obtain ⟨accepts, notices, errors⟩ := serves.accept delivery rfl
        have moved : (live m).hear s delivery = live (m.accept delivery) := by
          simp [hear, mapLive, hears, heard]
        rw [moved]
        simp only [isLive, heard, Bool.and_self, if_true]
        refine ⟨accepts, rfl, by simp [isLive, heard], ?_, ?_, ?_⟩
        · intro a mem
          rw [List.mem_singleton.mp mem]
          exact ⟨serves.notices.fits, serves.errors.fits⟩
        · exact notices
        · exact errors
      · have moved : (live m).hear s delivery = live m := by simp [hear, mapLive, hears, heard]
        rw [moved]
        simp only [heard, Bool.and_false]
        exact ⟨serves, rfl, by simp [isLive, heard], by simp, by simp, by simp⟩

theorem Subscription.handed_deliverAll (own : s.IsOf d) (serves : (s.slot d).Serves target id capacity errorCapacity)
    (interest : s.interest = target.interest) (deliveries : List Delivery) :
    Handed target id capacity errorCapacity (s.slot d) deliveries (s.arrivals target deliveries d)
      (s.slot (deliveries.foldl Dispatcher.deliver d)) := by
  induction deliveries generalizing d with
  | nil => exact ⟨serves, rfl, by simp [arrivals], by simp [arrivals], by simp [arrivals], by simp [arrivals]⟩
  | cons delivery deliveries ih =>
      have first := Slot.handed_hear serves interest delivery
      rw [← slot_deliver] at first
      have rest := ih (own.deliver delivery) first.serves
      rw [arrivals, own.contains_eq, pending_eq, pendingErrors_eq]
      exact first.trans rest

/-! ## Operations -/

/-- The effect of an operation on a subscription, with its journal entries. -/
structure Noted (target : Target) (id capacity errorCapacity : Nat) (stood : Slot Notice) (j : Journal)
    (stands : Slot Notice) : Prop where
  serves : stands.Serves target id capacity errorCapacity
  room : ∀ a ∈ j.arrivals, a.waiting ≤ capacity ∧ a.waitingErrors ≤ errorCapacity
  notices : j.received ++ j.forgone ++ stands.notices =
    stood.notices ++ j.arrivals.filterMap (Arrival.notice? capacity)
  errors : j.receivedErrors ++ j.forgoneErrors ++ stands.errors =
    stood.errors ++ j.arrivals.filterMap (Arrival.error? id capacity errorCapacity)
  forgone : stands = .gone ∨ j.forgone = [] ∧ j.forgoneErrors = []

theorem Noted.of_handed {stands : Slot Notice} {deliveries : List Delivery} {arrivals : List Arrival}
    (h : Handed target id capacity errorCapacity stood deliveries arrivals stands) :
    Noted target id capacity errorCapacity stood ⟨arrivals, [], [], [], []⟩ stands :=
  ⟨h.serves, h.room, h.notices, h.errors, Or.inr ⟨rfl, rfl⟩⟩

theorem Noted.of_same {stands : Slot Notice} (serves : stands.Serves target id capacity errorCapacity)
    (notices : stands.notices = stood.notices) (errors : stands.errors = stood.errors) :
    Noted target id capacity errorCapacity stood .empty stands :=
  ⟨serves, by simp [Journal.empty], by simp [Journal.empty, notices], by simp [Journal.empty, errors],
    Or.inr ⟨rfl, rfl⟩⟩

namespace Slot

theorem serves_close (stood : Slot Notice) : stood.close.Serves target id capacity errorCapacity := by
  cases stood <;> trivial

theorem Serves.pop (serves : stood.Serves target id capacity errorCapacity) :
    (stood.map Mailbox.pop).Serves target id capacity errorCapacity := by
  cases stood with
  | live m =>
      have serves : m.Serves target id capacity errorCapacity := serves
      exact ⟨serves.id_eq, serves.topic, serves.notices.rest, serves.errors⟩
  | closed m => trivial
  | gone => trivial

theorem Serves.popError (serves : stood.Serves target id capacity errorCapacity) :
    (stood.map Mailbox.popError).Serves target id capacity errorCapacity := by
  cases stood with
  | live m =>
      have serves : m.Serves target id capacity errorCapacity := serves
      exact ⟨serves.id_eq, serves.topic, serves.notices, serves.errors.rest⟩
  | closed m => trivial
  | gone => trivial

end Slot

namespace Subscription

/-- Every operation satisfies `Noted`. -/
theorem noted_perform (tidy : d.Tidy) (own : s.IsOf d) (serves : (s.slot d).Serves target s.id capacity errorCapacity)
    (interest : s.interest = target.interest) (operation : Operation) :
    Noted target s.id capacity errorCapacity (s.slot d) (s.note target operation d)
      (s.slot (d.perform operation)) := by
  have moved := slot_perform tidy own.below operation
  cases operation with
  | dispatchHead head => exact .of_handed (handed_deliverAll own serves interest [.notice (.head head)])
  | dispatchEvents events =>
      have handed := handed_deliverAll own serves interest (Operation.dispatchEvents events).deliveries
      rw [Dispatcher.perform, Dispatcher.dispatchEvents_eq]
      exact .of_handed handed
  | broadcast cause => exact .of_handed (handed_deliverAll own serves interest [.failure cause])
  | subscribe target =>
      rw [moved]
      exact .of_same serves rfl rfl
  | unsubscribe id =>
      rw [moved, Slot.after]
      split
      · exact .of_same (Slot.serves_close _) (Slot.notices_close _) (Slot.errors_close _)
      · exact .of_same serves rfl rfl
  | closeAll =>
      rw [moved]
      exact .of_same (Slot.serves_close _) (Slot.notices_close _) (Slot.errors_close _)
  | receive owner =>
      rw [moved, Slot.after]
      by_cases mine : owner = s
      · rw [if_pos mine]
        refine ⟨serves.pop, by simp [note, Operation.deliveries, arrivals], ?_, ?_, Or.inr ⟨rfl, rfl⟩⟩
        · cases waiting : (s.slot d).notices <;>
            simp [note, Operation.deliveries, arrivals, mine, receive_item?, waiting]
        · simp [note, Operation.deliveries, arrivals]
      · rw [if_neg mine]
        refine ⟨serves, by simp [note, Operation.deliveries, arrivals], ?_, ?_, Or.inr ⟨rfl, rfl⟩⟩ <;>
          simp [note, Operation.deliveries, arrivals, mine]
  | receiveError owner =>
      rw [moved, Slot.after]
      by_cases mine : owner = s
      · rw [if_pos mine]
        refine ⟨serves.popError, by simp [note, Operation.deliveries, arrivals], ?_, ?_, Or.inr ⟨rfl, rfl⟩⟩
        · simp [note, Operation.deliveries, arrivals]
        · cases waiting : (s.slot d).errors <;>
            simp [note, Operation.deliveries, arrivals, mine, receiveError_item?, waiting]
      · rw [if_neg mine]
        refine ⟨serves, by simp [note, Operation.deliveries, arrivals], ?_, ?_, Or.inr ⟨rfl, rfl⟩⟩ <;>
          simp [note, Operation.deliveries, arrivals, mine]
  | drop owner =>
      rw [moved, Slot.after]
      by_cases mine : owner = s
      · rw [if_pos mine]
        obtain ⟨notices, errors⟩ := s.drain_eq d
        refine ⟨trivial, by simp [note, Operation.deliveries, arrivals], ?_, ?_, Or.inl rfl⟩ <;>
          simp [note, Operation.deliveries, arrivals, mine, notices, errors]
      · have nothing : s.note target (.drop owner) d = .empty := by
          simp [note, Operation.deliveries, arrivals, mine, Journal.empty]
        rw [if_neg mine, nothing]
        split
        · exact .of_same (Slot.serves_close _) (Slot.notices_close _) (Slot.errors_close _)
        · exact .of_same serves rfl rfl

/-! ## Histories -/

theorem map_delivery_arrivals (own : s.IsOf d) (serves : (s.slot d).Serves target s.id capacity errorCapacity)
    (interest : s.interest = target.interest) (deliveries : List Delivery) :
    (s.arrivals target deliveries d).map (·.delivery) =
      if (s.slot d).isLive then deliveries.filter target.hears else [] :=
  (handed_deliverAll own serves interest deliveries).arrived

theorem note_gone (tidy : d.Tidy) (own : s.IsOf d) (interest : s.interest = target.interest)
    (gone : s.slot d = .gone) (operation : Operation) : s.note target operation d = .empty := by
  have serves : (s.slot d).Serves target s.id 0 0 := by
    rw [gone]
    trivial
  have none_arrived : (s.note target operation d).arrivals = [] := by
    have arrived := map_delivery_arrivals own serves interest operation.deliveries
    rw [gone] at arrived
    exact List.map_eq_nil_iff.mp arrived
  have noted := noted_perform tidy own serves interest operation
  have notices := noted.notices
  have errors := noted.errors
  rw [gone, none_arrived] at notices errors
  simp only [Slot.notices_gone, Slot.errors_gone, List.filterMap_nil, List.append_nil,
    List.append_eq_nil_iff] at notices errors
  generalize s.note target operation d = j at *
  obtain ⟨arrivals, received, receivedErrors, forgone, forgoneErrors⟩ := j
  simp_all [Journal.empty]

theorem journal_gone (tidy : d.Tidy) (own : s.IsOf d) (interest : s.interest = target.interest)
    (gone : s.slot d = .gone) (operations : List Operation) :
    s.journal target operations d = .empty ∧ s.slot (d.performAll operations) = .gone := by
  induction operations generalizing d with
  | nil => exact ⟨rfl, gone⟩
  | cons operation operations ih =>
      have still : s.slot (d.perform operation) = .gone := by
        rw [slot_perform tidy own.below, gone, after_gone]
      obtain ⟨rest, ends⟩ := ih (tidy.perform operation) (own.perform tidy operation) still
      refine ⟨?_, ends⟩
      rw [journal, note_gone tidy own interest gone, rest]
      rfl

/-- Every history satisfies `Noted`. -/
theorem noted_performAll (tidy : d.Tidy) (own : s.IsOf d)
    (serves : (s.slot d).Serves target s.id capacity errorCapacity) (interest : s.interest = target.interest)
    (operations : List Operation) :
    Noted target s.id capacity errorCapacity (s.slot d) (s.journal target operations d)
      (s.slot (d.performAll operations)) := by
  induction operations generalizing d with
  | nil => exact .of_same serves rfl rfl
  | cons operation operations ih =>
      have tidy' := tidy.perform operation
      have own' := own.perform tidy operation
      have first := noted_perform tidy own serves interest operation
      have rest := ih tidy' own' first.serves
      have room (a : Arrival) (mem : a ∈ (s.journal target (operation :: operations) d).arrivals) :
          a.waiting ≤ capacity ∧ a.waitingErrors ≤ errorCapacity :=
        (List.mem_append.mp mem).elim (first.room a) (rest.room a)
      rw [Dispatcher.performAll, List.foldl_cons]
      change Noted target s.id capacity errorCapacity _ _ (s.slot ((d.perform operation).performAll operations))
      rcases first.forgone with gone | ⟨none_forgone, no_errors_forgone⟩
      · -- nothing follows what was given up
        obtain ⟨nothing, ends⟩ := journal_gone tidy' own' interest gone operations
        have notices := first.notices
        have errors := first.errors
        rw [gone] at notices errors
        refine ⟨ends ▸ trivial, room, ?_, ?_, Or.inl ends⟩
        · simpa [journal, Journal.append, nothing, Journal.empty, ends] using notices
        · simpa [journal, Journal.append, nothing, Journal.empty, ends] using errors
      · have notices := first.notices
        have errors := first.errors
        rw [none_forgone, List.append_nil] at notices
        rw [no_errors_forgone, List.append_nil] at errors
        refine ⟨rest.serves, room, ?_, ?_, ?_⟩
        · rw [journal]
          simp only [Journal.append, none_forgone, List.nil_append, List.filterMap_append, List.append_assoc]
          rw [← List.append_assoc (s.journal ..).received, rest.notices, ← List.append_assoc, notices,
            List.append_assoc]
        · rw [journal]
          simp only [Journal.append, no_errors_forgone, List.nil_append, List.filterMap_append, List.append_assoc]
          rw [← List.append_assoc (s.journal ..).receivedErrors, rest.errors, ← List.append_assoc, errors,
            List.append_assoc]
        · refine rest.forgone.imp_right fun none_later => ?_
          simp [journal, Journal.append, none_forgone, no_errors_forgone, none_later]

theorem isLive_after (s : Subscription) (stood : Slot Notice) (operation : Operation) :
    (stood.after s operation).isLive = (stood.isLive && !s.endedBy operation) := by
  have heard (deliveries : List Delivery) (stood : Slot Notice) :
      (deliveries.foldl (Slot.hear s) stood).isLive = stood.isLive := by
    induction deliveries generalizing stood with
    | nil => rfl
    | cons delivery deliveries ih =>
        rw [List.foldl_cons, ih]
        cases stood <;> rfl
  cases operation with
  | dispatchHead | dispatchEvents | broadcast => simp [Slot.after, heard, endedBy]
  | subscribe => simp [Slot.after, endedBy]
  | closeAll => simp [Slot.after, endedBy]
  | receive owner | receiveError owner =>
      simp only [Slot.after, endedBy]
      split <;> cases stood <;> rfl
  | unsubscribe id =>
      by_cases mine : id = s.id <;> simp [Slot.after, endedBy, mine]
  | drop owner =>
      by_cases mine : owner = s
      · simp [Slot.after, endedBy, mine, Slot.isLive]
      · by_cases same : owner.id = s.id <;> simp [Slot.after, endedBy, mine, same]

theorem deliveries_of_endedBy {operation : Operation} (ends : s.endedBy operation) : operation.deliveries = [] := by
  cases operation <;> first | rfl | cases ends

/-- What reaches a subscription is what is handed out before it ends and is what it was opened for. -/
theorem map_delivery_journal (tidy : d.Tidy) (own : s.IsOf d)
    (serves : (s.slot d).Serves target s.id capacity errorCapacity) (interest : s.interest = target.interest)
    (operations : List Operation) :
    (s.journal target operations d).arrivals.map (·.delivery) = if (s.slot d).isLive then
        ((operations.takeWhile fun operation => !s.endedBy operation).flatMap Operation.deliveries).filter target.hears
      else [] := by
  induction operations generalizing d with
  | nil => simp [journal, Journal.empty]
  | cons operation operations ih =>
      have first := map_delivery_arrivals own serves interest operation.deliveries
      have rest := ih (tidy.perform operation) (own.perform tidy operation)
        (noted_perform tidy own serves interest operation).serves
      rw [slot_perform tidy own.below, isLive_after] at rest
      rw [journal, Journal.append, List.map_append, rest]
      refine (congrArg (· ++ _) first).trans ?_
      cases (s.slot d).isLive with
      | false => simp
      | true =>
          by_cases ends : s.endedBy operation
          · simp [ends, deliveries_of_endedBy ends]
          · simp [ends]

/-- What was handed out to a subscription, what its owner took and what waits for it are in keeping. -/
structure Accounts (s : Subscription) (target : Target) (capacity errorCapacity : Nat) (operations : List Operation)
    (d : Dispatcher) : Prop where
  /-- What reached it is what was handed out until it ended and is what it was opened for. -/
  arrived : (s.journal target operations d).arrivals.map (·.delivery) =
    ((operations.takeWhile fun operation => !s.endedBy operation).flatMap Operation.deliveries).filter target.hears
  /-- No more ever waited than there was room for. -/
  room : ∀ a ∈ (s.journal target operations d).arrivals, a.waiting ≤ capacity ∧ a.waitingErrors ≤ errorCapacity
  /-- What was taken, given up or waits is what arrived while there was room. -/
  notices : (s.journal target operations d).received ++ (s.journal target operations d).forgone ++
      (s.drain (d.performAll operations)).1 =
    (s.journal target operations d).arrivals.filterMap (Arrival.notice? capacity)
  /-- Errors taken, dropped or queued are those of the arrivals that found room: each loss gives one
  error, unless there was no room for it either. -/
  errors : (s.journal target operations d).receivedErrors ++ (s.journal target operations d).forgoneErrors ++
      (s.drain (d.performAll operations)).2.1 =
    (s.journal target operations d).arrivals.filterMap (Arrival.error? s.id capacity errorCapacity)

end Subscription

end Arrivals

/-- After any operations before a subscription is opened and any afterwards, by its owner and by others:
what it received and what it has queued is what was dispatched to it, in order and once each, except
what found its queue full, and its errors report these losses. -/
theorem Dispatcher.every_notice_accounted_for (capacity errorCapacity : Nat) (earlier : List Operation)
    (target : Target) (later : List Operation) :
    (((make capacity errorCapacity).performAll earlier).subscribe target).1.Accounts target (max capacity 1)
      (max errorCapacity 1) later (((make capacity errorCapacity).performAll earlier).subscribe target).2 := by
  have tidy := (tidy_make capacity errorCapacity).performAll earlier
  obtain ⟨rooms, errorRooms⟩ := (make capacity errorCapacity).capacities_performAll earlier
  generalize (make capacity errorCapacity).performAll earlier = d at *
  obtain ⟨own, stood⟩ := Subscription.isOf_subscribe tidy target
  have tidy := tidy.subscribe target
  have id_eq : (d.subscribe target).1.id = d.nextId := by cases target <;> rfl
  have interest : (d.subscribe target).1.interest = target.interest := by cases target <;> rfl
  rw [← id_eq, rooms, errorRooms] at stood
  generalize d.subscribe target = opened at *
  obtain ⟨s, d⟩ := opened
  have serves : (s.slot d).Serves target s.id (max capacity 1) (max errorCapacity 1) := by
    rw [stood]
    exact ⟨rfl, rfl, Queue.isOpen_make _, Queue.isOpen_make _⟩
  have arrived := Subscription.map_delivery_journal tidy own serves interest later
  have noted := Subscription.noted_performAll tidy own serves interest later
  obtain ⟨notices, errors⟩ := s.drain_eq (d.performAll later)
  rw [stood] at arrived noted
  refine ⟨arrived, noted.room, ?_, ?_⟩
  · rw [notices]
    exact noted.notices
  · rw [errors]
    exact noted.errors

/-- A queue of one has room for the first of two heads, the loss of the second is reported, and a third
comes after the end. -/
example :
    let head (number : UInt64) : Head := { (default : Head) with number }
    let opened := (Dispatcher.make 0 0).subscribe .heads
    let left := opened.1.drain (opened.2.performAll
      [.dispatchHead (head 1), .dispatchHead (head 2), .closeAll, .dispatchHead (head 3)])
    left.1 = [.head (head 1)] ∧ left.2.1 = [.queueFull 1 "head 2 (unset)"] := by
  decide +kernel

end Chainwatch
