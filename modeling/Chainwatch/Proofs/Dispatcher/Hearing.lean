import Chainwatch.Proofs.Dispatcher.Accounts

/-!
# What an open subscription receives

As long as its queue has room, a subscription to an address receives every dispatched event of that
address, in order. Operations of other owners do not affect it, and its address counts as watched.
-/

namespace Chainwatch

open Dispatcher (Operation)

def Notice.event? : Notice → Option Event
  | .head _ => none
  | .event e => some e

/-- The events of a list that a subscription to the address receives. -/
def heardOf (address : String) (events : List Event) : List Notice :=
  (events.filter fun event => Text.eqIgnoreCase address event.address).map .event

theorem heardOf_append (address : String) (first second : List Event) :
    heardOf address (first ++ second) = heardOf address first ++ heardOf address second := by
  simp [heardOf]

/-- Dispatches notices one after another. -/
def Dispatcher.tell (d : Dispatcher) (notices : List Notice) : Dispatcher :=
  (notices.map Delivery.notice).foldl deliver d

/-! ## Watched addresses -/

def IsSpelled (topic : String) (spellings : List String) : Prop :=
  ∃ spelling ∈ spellings, Text.eqIgnoreCase spelling topic

/-- The distinct topics contain each topic in one spelling. -/
theorem isSpelled_distinctTopics {topics : List String} {topic : String} (mem : topic ∈ topics) :
    IsSpelled topic (distinctTopics topics) := by
  have grown (rest kept : List String) (known : IsSpelled topic kept ∨ topic ∈ rest) :
      IsSpelled topic (rest.foldl (fun kept topic =>
        if kept.any (Text.eqIgnoreCase · topic) then kept else kept ++ [topic]) kept) := by
    induction rest generalizing kept with
    | nil => exact known.resolve_right (by simp)
    | cons next rest ih =>
        rw [List.foldl_cons]
        refine ih _ ?_
        by_cases taken : kept.any (Text.eqIgnoreCase · next)
        · rw [if_pos taken]
          rcases known with spelled | mem
          · exact Or.inl spelled
          · rcases List.mem_cons.mp mem with rfl | later
            · exact Or.inl (List.any_eq_true.mp taken)
            · exact Or.inr later
        · rw [if_neg taken]
          rcases known with ⟨spelling, held, same⟩ | mem
          · exact Or.inl ⟨spelling, List.mem_append_left _ held, same⟩
          · rcases List.mem_cons.mp mem with rfl | later
            · exact Or.inl ⟨topic, by simp, Text.eqIgnoreCase_refl topic⟩
            · exact Or.inr later
  exact grown topics [] (Or.inr mem)

namespace Subscription

/-- A registered subscription to an address, with room for so many notices and errors. -/
structure IsOpen (s : Subscription) (address : String) (capacity errorCapacity : Nat) (d : Dispatcher) : Prop where
  tidy : d.Tidy
  own : s.IsOf d
  interest : s.interest = .events
  live : (s.slot d).isLive
  serves : (s.slot d).Serves (.events address) s.id capacity errorCapacity

variable {s : Subscription} {address : String} {capacity errorCapacity : Nat} {d : Dispatcher}

theorem isOpen_subscribe (tidy : d.Tidy) (address : String) :
    (d.subscribe (.events address)).1.IsOpen address (max d.capacity 1) (max d.errorCapacity 1)
      (d.subscribe (.events address)).2 := by
  obtain ⟨own, stood⟩ := isOf_subscribe tidy (.events address)
  refine ⟨tidy.subscribe _, own, rfl, ?_, ?_⟩
  · rw [stood]
    rfl
  · rw [stood]
    exact ⟨rfl, rfl, Queue.isOpen_make _, Queue.isOpen_make _⟩

theorem IsOpen.watched (h : s.IsOpen address capacity errorCapacity d) :
    IsSpelled address d.addresses := by
  obtain ⟨-, -, interest, live, serves⟩ := h
  rcases s with ⟨id, _ | _⟩
  · cases interest
  · rw [slot_events] at live serves
    cases found : d.events.registered.find? (·.id == id) with
    | some m =>
        rw [Registry.slot, found] at serves
        exact isSpelled_distinctTopics (List.mem_filterMap.mpr ⟨m, List.mem_of_find?_eq_some found, serves.topic⟩)
    | none =>
        rw [Registry.slot, found] at live
        cases retired : d.events.retired.find? (·.id == id) <;> rw [retired] at live <;> cases live

/-! ## Notices -/

theorem IsOpen.deliver (h : s.IsOpen address capacity errorCapacity d) (delivery : Delivery) :
    s.IsOpen address capacity errorCapacity (d.deliver delivery) := by
  have handed := handed_deliverAll h.own h.serves h.interest [delivery]
  exact ⟨h.tidy.deliver delivery, h.own.deliver delivery, h.interest, handed.live.trans h.live, handed.serves⟩

theorem IsOpen.tell (h : s.IsOpen address capacity errorCapacity d) (notices : List Notice) :
    s.IsOpen address capacity errorCapacity (d.tell notices) := by
  induction notices generalizing d with
  | nil => exact h
  | cons notice notices ih => exact ih (h.deliver (.notice notice))

/-- A dispatched notice is queued if it carries an event of the address and there is room. -/
theorem IsOpen.queued_deliver (h : s.IsOpen address capacity errorCapacity d) (notice : Notice) :
    (s.slot (d.deliver (.notice notice))).notices = (s.slot d).notices ++
      if (s.slot d).notices.length < capacity then heardOf address notice.event?.toList else [] := by
  have heard : heardOf address notice.event?.toList =
      if Target.hears (.events address) (.notice notice) then [notice] else [] := by
    cases notice with
    | head head => simp [heardOf, Notice.event?, Target.hears]
    | event event =>
        cases same : Text.eqIgnoreCase address event.address <;> simp [heardOf, Notice.event?, Target.hears, same]
  have queued := (Slot.handed_hear h.serves h.interest (.notice notice)).notices
  rw [← slot_deliver, h.live, Bool.true_and] at queued
  rw [queued, heard]
  cases Target.hears (.events address) (.notice notice) <;>
    by_cases room : (s.slot d).notices.length < capacity <;> simp [Arrival.notice?, room]

/-- While there is room, every event of the address is queued. -/
theorem IsOpen.queued_tell (h : s.IsOpen address capacity errorCapacity d) (notices : List Notice)
    (room : s.pending (d.tell notices) < capacity) : (s.slot (d.tell notices)).notices =
      (s.slot d).notices ++ heardOf address (notices.filterMap Notice.event?) := by
  induction notices generalizing d with
  | nil => simp [Dispatcher.tell, heardOf]
  | cons notice notices ih =>
      have first := h.queued_deliver notice
      have rest := ih (h.deliver (.notice notice)) room
      have told : d.tell (notice :: notices) = (d.deliver (.notice notice)).tell notices := rfl
      rw [told, pending_eq, rest, List.length_append] at room
      -- what is queued stays queued, so there was room all along
      have early : (s.slot d).notices.length < capacity := by
        rw [first, List.length_append] at room
        omega
      rw [if_pos early] at first
      rw [told, rest, first, List.append_assoc]
      rw [← heardOf_append]
      cases notice <;> rfl

/-! ## Owners -/

theorem IsOpen.perform (h : s.IsOpen address capacity errorCapacity d) {operation : Operation}
    (spared : s.endedBy operation = false) : s.IsOpen address capacity errorCapacity (d.perform operation) := by
  have noted := noted_perform h.tidy h.own h.serves h.interest operation
  refine ⟨h.tidy.perform operation, h.own.perform h.tidy operation, h.interest, ?_, noted.serves⟩
  rw [slot_perform h.tidy h.own.below, isLive_after, h.live, spared]
  rfl

/-- An owner takes the oldest queued items, and other operations leave the queue alone. -/
theorem IsOpen.queued_perform (h : s.IsOpen address capacity errorCapacity d) {operation : Operation}
    (spared : s.endedBy operation = false) (silent : operation.deliveries = []) :
    (s.note (.events address) operation d).received ++ (s.slot (d.perform operation)).notices =
      (s.slot d).notices := by
  have noted := noted_perform h.tidy h.own h.serves h.interest operation
  have kept : (s.note (.events address) operation d).forgone = [] := by
    rcases noted.forgone with gone | none
    · have live := (h.perform spared).live
      rw [gone] at live
      cases live
    · exact none.1
  have none_arrived : (s.note (.events address) operation d).arrivals = [] := by
    change s.arrivals _ operation.deliveries d = []
    rw [silent]
    rfl
  simpa [kept, none_arrived] using noted.notices

end Subscription

end Chainwatch
