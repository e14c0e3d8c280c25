import Mathlib.Data.List.Induction
import Chainwatch.Proofs.Dispatcher.Failures
import Chainwatch.Proofs.Dispatcher.Isolation
import Chainwatch.Proofs.Dispatcher.Registry
import Chainwatch.Proofs.Rehearsal.Blocks

/-!
# The watched addresses

Of the spellings under which an address is watched, one is listed, which one depends on the order of
visits. Up to the case of letters the list holds exactly the watched addresses, so that each log requested
with it has a subscription for its event.
-/

namespace Chainwatch

open Dispatcher (Operation)

/-! ## One spelling of each -/

section Spellings

variable {topics : List String} {topic : String}

theorem distinctTopics_concat (topics : List String) (topic : String) : distinctTopics (topics ++ [topic]) =
    if (distinctTopics topics).any (Text.eqIgnoreCase · topic) then distinctTopics topics
    else distinctTopics topics ++ [topic] := by
  rw [distinctTopics, List.foldl_append]
  rfl

theorem distinctTopics_subset (topics : List String) : distinctTopics topics ⊆ topics := by
  induction topics using List.reverseRecOn with
  | nil => exact List.Subset.refl _
  | append_singleton topics topic ih =>
      have early := List.subset_append_of_subset_left [topic] ih
      rw [distinctTopics_concat]
      split
      · exact early
      · exact List.append_subset.mpr ⟨early, List.subset_append_right ..⟩

theorem pairwise_distinctTopics (topics : List String) :
    (distinctTopics topics).Pairwise fun a b => Text.eqIgnoreCase a b = false := by
  induction topics using List.reverseRecOn with
  | nil => exact List.Pairwise.nil
  | append_singleton topics topic ih =>
      rw [distinctTopics_concat]
      split
      · exact ih
      · rename_i new
        refine List.pairwise_append.mpr ⟨ih, List.pairwise_singleton .., fun a mem b last => ?_⟩
        rw [List.mem_singleton.mp last, ← Bool.not_eq_true]
        exact fun same => new (List.any_eq_true.mpr ⟨a, mem, same⟩)

end Spellings

/-! ## Live subscriptions -/

namespace Registry

variable {α : Type} {d : Registry α}

theorem numbers_update (d : Registry α) (m : Mailbox α) : (d.update m).numbers = d.numbers := by
  rw [numbers, update, List.map_map]
  refine List.map_congr_left fun old _ => ?_
  rw [Function.comp_apply]
  split
  · rename_i same
    exact same.symm
  · rfl

theorem numbers_receive (d : Registry α) (id : Nat) : (d.receive id).2.numbers = d.numbers := by
  unfold receive
  split
  · rfl
  · exact numbers_update ..

theorem numbers_receiveError (d : Registry α) (id : Nat) : (d.receiveError id).2.numbers = d.numbers := by
  unfold receiveError
  split
  · rfl
  · exact numbers_update ..

/-- Where ids are distinct, a registered mailbox is the one that its id selects. -/
theorem slot_of_mem (distinct : d.numbers.Nodup) {m : Mailbox α} (mem : m ∈ d.registered) :
    d.slot m.id = .live m := by
  obtain ⟨found, first⟩ : ∃ found, d.registered.find? (·.id == m.id) = some found :=
    Option.isSome_iff_exists.mp (List.find?_isSome.mpr ⟨m, mem, beq_self_eq_true m.id⟩)
  have same : found.id = m.id := by simpa using List.find?_some first
  obtain rfl := List.inj_on_of_nodup_map distinct (List.mem_of_find?_eq_some first) mem same
  rw [slot, first]

end Registry

namespace Dispatcher

variable {d : Dispatcher} {topic : String}

/-- Every operation preserves that the ids on the register of events are distinct. -/
theorem nodup_perform (tidy : d.Tidy) (distinct : d.events.numbers.Nodup) (operation : Operation) :
    (d.perform operation).events.numbers.Nodup := by
  have removed (id : Nat) : (d.events.remove id).2.numbers.Nodup :=
    distinct.sublist (List.filter_sublist.map _)
  cases operation with
  | subscribe target =>
      cases target with
      | heads => exact distinct
      | events address =>
          have grown : (d.perform (.subscribe (.events address))).events.numbers = d.events.numbers ++ [d.nextId] :=
            List.map_append
          rw [grown]
          refine List.nodup_append.mpr ⟨distinct, List.nodup_singleton _, fun id given new last => ?_⟩
          rw [List.mem_singleton.mp last]
          exact Nat.ne_of_lt (tidy.events.registered id given)
  | dispatchHead head => exact distinct
  | dispatchEvents events =>
      rw [perform, dispatchEvents_eq, (d.alike_deliverAll _).events.numbers]
      exact distinct
  | broadcast cause => exact (d.alike_deliver (.failure cause)).events.numbers ▸ distinct
  | receive owner =>
      rcases owner with ⟨id, _ | _⟩
      · exact distinct
      · exact (d.events.numbers_receive id).symm ▸ distinct
  | receiveError owner =>
      rcases owner with ⟨id, _ | _⟩
      · exact distinct
      · exact (d.events.numbers_receiveError id).symm ▸ distinct
  | unsubscribe id => exact removed id
  | drop owner =>
      rcases owner with ⟨id, _ | _⟩
      · exact removed id
      · exact removed id
  | closeAll => exact List.nodup_nil

theorem nodup_performAll (tidy : d.Tidy) (distinct : d.events.numbers.Nodup) (operations : List Operation) :
    (d.performAll operations).events.numbers.Nodup := by
  induction operations generalizing d with
  | nil => exact distinct
  | cons operation rest ih => exact ih (tidy.perform operation) (nodup_perform tidy distinct operation)

end Dispatcher

structure Subscription.Watches (s : Subscription) (topic : String) (d : Dispatcher) : Prop where
  interest : s.interest = .events
  live : (s.slot d).isLive
  topic : s.topic? d = some topic

theorem Queue.Receipt.eq_item_iff {α : Type} {receipt : Queue.Receipt α} {a : α} :
    receipt = .item a ↔ receipt.item? = some a := by
  cases receipt <;> simp [item?]

namespace Subscription

variable {s : Subscription} {address : String} {capacity errorCapacity : Nat} {d : Dispatcher}

theorem interest_of_receive {event : Event} (handed : (s.receive d).1 = .item (.event event)) :
    s.interest = .events := by
  rcases s with ⟨id, _ | _⟩
  · change (d.heads.receive id).1.map Notice.head = .item (.event event) at handed
    cases received : (d.heads.receive id).1 <;> rw [received] at handed <;> cases handed
  · rfl

theorem IsOpen.topic? (h : s.IsOpen address capacity errorCapacity d) : s.topic? d = some address := by
  obtain ⟨-, -, interest, live, serves⟩ := h
  rw [topic?_eq, if_neg (by rw [interest]; exact nofun)]
  cases stood : s.slot d with
  | live m =>
      rw [stood] at serves
      exact serves.topic
  | closed m | gone =>
      rw [stood] at live
      cases live

theorem IsOpen.take (h : s.IsOpen address capacity errorCapacity d) (count : Nat) :
    s.IsOpen address capacity errorCapacity (s.take d count).2 ∧
      (s.slot (s.take d count).2).notices = (s.slot d).notices.drop count := by
  induction count generalizing d with
  | zero => exact ⟨h, rfl⟩
  | succ count ih =>
      have opened : s.IsOpen address capacity errorCapacity (s.receive d).2 :=
        h.perform (show s.endedBy (.receive s) = false from rfl)
      have item := s.receive_item? d
      have moved := s.slot_receive s d
      rw [if_pos rfl] at moved
      cases received : s.receive d with
      | mk receipt after =>
          rw [received] at opened item moved
          cases receipt with
          | item notice =>
              obtain ⟨opened, rest⟩ := ih opened
              rw [moved, Slot.notices_pop, List.drop_tail] at rest
              simpa [Subscription.take, received] using ⟨opened, rest⟩
          | pending | ended =>
              have waiting := List.head?_eq_none_iff.mp item.symm
              rw [Subscription.take, received]
              refine ⟨opened, ?_⟩
              rw [moved, Slot.notices_pop, waiting, List.drop_nil, List.tail_nil]

/-- A subscription with empty queues receives an event next exactly if it is of the watched address. -/
theorem IsOpen.handed_iff (h : s.IsOpen address capacity errorCapacity d) (positive : 0 < capacity) (event : Event) :
    (s.receive ((s.take d (s.pending d)).2.dispatchEvents [event])).1 = .item (.event event) ↔
      Text.eqIgnoreCase address event.address := by
  obtain ⟨ready, waiting⟩ := h.take (s.pending d)
  rw [pending_eq, List.drop_length, ← pending_eq] at waiting
  have queued := ready.queued_deliver (.event event)
  rw [waiting, List.length_nil, if_pos positive, List.nil_append] at queued
  have item := s.receive_item? ((s.take d (s.pending d)).2.deliver (.notice (.event event)))
  rw [queued] at item
  rw [Queue.Receipt.eq_item_iff]
  refine (Eq.congr_left item).trans ?_
  by_cases same : Text.eqIgnoreCase address event.address <;> simp [heardOf, Notice.event?, same]

end Subscription

namespace Dispatcher

variable {d : Dispatcher} {topic : String} {addresses : List String}

theorem exists_watches_iff (distinct : d.events.numbers.Nodup) :
    (∃ s : Subscription, s.Watches topic d) ↔ topic ∈ d.events.registered.filterMap (·.topic) := by
  rw [List.mem_filterMap]
  constructor
  · rintro ⟨⟨id, _ | _⟩, interest, live, watched⟩
    · cases interest
    · rw [Subscription.slot_events, Slot.isLive_relabel] at live
      rw [Subscription.topic?, Registry.find?_eq] at watched
      cases found : d.events.registered.find? (·.id == id) with
      | some m =>
          rw [Registry.slot, found] at watched
          exact ⟨m, List.mem_of_find?_eq_some found, watched⟩
      | none =>
          rw [← Registry.contains_eq, Registry.contains, ← List.isSome_find?, found] at live
          cases live
  · rintro ⟨m, mem, watched⟩
    have slot := Registry.slot_of_mem distinct mem
    refine ⟨⟨m.id, .events⟩, rfl, ?_, ?_⟩
    · rw [Subscription.slot_events, slot]
      rfl
    · rw [Subscription.topic?, Registry.find?_eq, slot]
      exact watched

/-! ## Dispatched events -/

/-- Some live subscription receives an event, once dispatched, as soon as it has emptied its queue. -/
def IsHeard (d : Dispatcher) (event : Event) : Prop :=
  ∃ s : Subscription, (s.slot d).isLive ∧
    (s.receive ((s.take d (s.pending d)).2.dispatchEvents [event])).1 = .item (.event event)

/-- Every live subscription to an address has an open mailbox. -/
structure AllOpen (d : Dispatcher) : Prop where
  tidy : d.Tidy
  opened : ∀ s : Subscription, s.interest = .events → (s.slot d).isLive →
    ∃ address, s.IsOpen address (max d.capacity 1) (max d.errorCapacity 1) d

theorem allOpen_make (capacity errorCapacity : Nat) : (make capacity errorCapacity).AllOpen := by
  refine ⟨tidy_make capacity errorCapacity, fun s interest live => ?_⟩
  rcases s with ⟨id, _ | _⟩ <;> cases live

/-- A subscription that is live after an operation and was not before was opened by it. -/
theorem eq_subscribe_of_live (tidy : d.Tidy) {s : Subscription} (interest : s.interest = .events)
    (new : d.nextId ≤ s.id) {operation : Operation} (live : (s.slot (d.perform operation)).isLive) :
    ∃ address, operation = .subscribe (.events address) ∧ s = (d.subscribe (.events address)).1 := by
  have given : s.id < (d.perform operation).nextId := by
    refine Nat.lt_of_not_le fun le => ?_
    rw [slot_of_le (tidy.perform operation) le] at live
    cases live
  cases operation with
  | subscribe target =>
      have last : s = ⟨d.nextId, .events⟩ := by
        have next : (d.perform (.subscribe target)).nextId = d.nextId + 1 := by cases target <;> rfl
        rw [next] at given
        rcases s with ⟨id, _ | _⟩
        · cases interest
        · exact congrArg (Subscription.mk · _) (Nat.le_antisymm (Nat.le_of_lt_succ given) new)
      cases target with
      | heads =>
          rw [last] at live
          have gone : Subscription.slot ⟨d.nextId, .events⟩ (d.perform (.subscribe .heads)) = .gone :=
            (Subscription.isOf_subscribe tidy .heads).1.alone
          rw [gone] at live
          cases live
      | events address => exact ⟨address, rfl, last⟩
  | dispatchEvents events =>
      rw [perform, dispatchEvents_eq, nextId_deliverAll] at given
      exact (Nat.not_le_of_lt given new).elim
  | receive owner | receiveError owner | drop owner =>
      rcases owner with ⟨id, _ | _⟩ <;> exact (Nat.not_le_of_lt given new).elim
  | dispatchHead | broadcast | unsubscribe | closeAll => exact (Nat.not_le_of_lt given new).elim

theorem AllOpen.perform (h : d.AllOpen) (operation : Operation) : (d.perform operation).AllOpen := by
  obtain ⟨capacity, errorCapacity⟩ := d.capacities_perform operation
  refine ⟨h.tidy.perform operation, fun s interest live => ?_⟩
  rw [capacity, errorCapacity]
  rcases Nat.lt_or_ge s.id d.nextId with below | new
  · rw [Subscription.slot_perform h.tidy below, Subscription.isLive_after, Bool.and_eq_true] at live
    obtain ⟨address, opened⟩ := h.opened s interest live.1
    exact ⟨address, opened.perform (Bool.not_eq_true' _ ▸ live.2)⟩
  · obtain ⟨address, rfl, rfl⟩ := eq_subscribe_of_live h.tidy interest new live
    exact ⟨address, Subscription.isOpen_subscribe h.tidy address⟩

theorem AllOpen.performAll (h : d.AllOpen) (operations : List Operation) : (d.performAll operations).AllOpen := by
  induction operations generalizing d with
  | nil => exact h
  | cons operation rest ih => exact ih (h.perform operation)

/-- A dispatched event reaches some subscription exactly if its address is watched. -/
theorem AllOpen.isHeard_iff (h : d.AllOpen) (event : Event) : d.IsHeard event ↔
    ∃ (s : Subscription) (topic : String), s.Watches topic d ∧ Text.eqIgnoreCase topic event.address := by
  constructor
  · rintro ⟨s, live, handed⟩
    have interest := Subscription.interest_of_receive handed
    obtain ⟨address, opened⟩ := h.opened s interest live
    exact ⟨s, address, ⟨interest, live, opened.topic?⟩, (opened.handed_iff (by omega) event).mp handed⟩
  · rintro ⟨s, topic, watches, same⟩
    obtain ⟨address, opened⟩ := h.opened s watches.interest watches.live
    obtain rfl : address = topic := Option.some.inj (opened.topic?.symm.trans watches.topic)
    exact ⟨s, watches.live, (opened.handed_iff (by omega) event).mpr same⟩

/-! ## Covers -/

/-- A list of addresses holds, up to the case of letters, exactly the watched addresses, each once. -/
structure IsCover (d : Dispatcher) (addresses : List String) : Prop where
  covers : ∀ (s : Subscription) topic, s.Watches topic d → IsSpelled topic addresses
  watched : ∀ address ∈ addresses, ∃ s : Subscription, s.Watches address d
  distinct : addresses.Pairwise fun a b => Text.eqIgnoreCase a b = false

/-- The addresses listed when the mailboxes are visited in the given order. -/
def spellings (visited : List (Mailbox Event)) : List String :=
  distinctTopics (visited.filterMap (·.topic))

theorem addresses_eq (d : Dispatcher) : d.addresses = spellings d.events.registered := rfl

/-- The addresses listed for any order of visits form a cover. -/
theorem isCover_spellings (distinct : d.events.numbers.Nodup) {visited : List (Mailbox Event)}
    (order : visited.Perm d.events.registered) : d.IsCover (spellings visited) := by
  have topics (topic : String) :
      topic ∈ visited.filterMap (·.topic) ↔ ∃ s : Subscription, s.Watches topic d :=
    (order.filterMap _).mem_iff.trans (exists_watches_iff distinct).symm
  constructor
  case covers => exact fun s topic watches => isSpelled_distinctTopics ((topics topic).mpr ⟨s, watches⟩)
  case watched => exact fun address listed => (topics address).mp (distinctTopics_subset _ listed)
  case distinct => exact pairwise_distinctTopics _

/-- Two covers of the same addresses agree up to order and the case of letters. -/
theorem IsCover.agree {addresses' : List String} (h : d.IsCover addresses) (h' : d.IsCover addresses') :
    (addresses.map Text.lower).Perm (addresses'.map Text.lower) := by
  have nodup {addresses : List String} (h : d.IsCover addresses) : (addresses.map Text.lower).Nodup := by
    refine List.pairwise_map.mpr (h.distinct.imp fun apart same => ?_)
    rw [Text.eqIgnoreCase_iff.mpr same] at apart
    cases apart
  have among {addresses addresses' : List String} (h : d.IsCover addresses) (h' : d.IsCover addresses') {text : String}
      (mem : text ∈ addresses.map Text.lower) : text ∈ addresses'.map Text.lower := by
    obtain ⟨address, listed, rfl⟩ := List.mem_map.mp mem
    obtain ⟨s, watches⟩ := h.watched address listed
    obtain ⟨spelling, listed', same⟩ := h'.covers s address watches
    exact List.mem_map.mpr ⟨spelling, listed', Text.eqIgnoreCase_iff.mp same⟩
  exact (List.perm_ext_iff_of_nodup (nodup h) (nodup h')).mpr fun text => ⟨among h h', among h' h⟩

/-- The address of an event is in a cover exactly if it is watched. -/
theorem IsCover.any_iff (h : d.IsCover addresses) (event : Event) :
    (addresses.any (Text.eqIgnoreCase · event.address)) = true ↔
      ∃ (s : Subscription) (topic : String), s.Watches topic d ∧ Text.eqIgnoreCase topic event.address := by
  rw [List.any_eq_true]
  constructor
  · rintro ⟨address, listed, same⟩
    obtain ⟨s, watches⟩ := h.watched address listed
    exact ⟨s, address, watches, same⟩
  · rintro ⟨s, topic, watches, same⟩
    obtain ⟨spelling, listed, spelled⟩ := h.covers s topic watches
    refine ⟨spelling, listed, ?_⟩
    rw [Text.eqIgnoreCase_iff] at same spelled ⊢
    exact spelled.trans same

/-- After any operations and for any order of visits: the list covers the watched addresses, it is
unique up to order and the case of letters, and a log requested with it is reported exactly if its event
reaches a subscription. -/
theorem addresses_cover_watched (capacity errorCapacity : Nat) (operations : List Operation)
    (visited : List (Mailbox Event)) :
    let d := (make capacity errorCapacity).performAll operations
    visited.Perm d.events.registered →
      d.IsCover (spellings visited) ∧ ((spellings visited).map Text.lower).Perm (d.addresses.map Text.lower) ∧
        ∀ (c : PracticeChain) (first last : UInt64) (state : BlockState), c.failsLogs = false → first ≤ last →
          ∃ logs, c.filterLogs? (spellings visited) first last = some (.ok logs) ∧
            ∀ log, log ∈ logs ↔ log ∈ c.reportedIn first last ∧ d.IsHeard (.ofLog c.chain state log) := by
  intro d order
  have distinct : d.events.numbers.Nodup :=
    nodup_performAll (tidy_make capacity errorCapacity) List.nodup_nil operations
  have cover : d.IsCover (spellings visited) := isCover_spellings distinct order
  have listed : d.IsCover d.addresses := d.addresses_eq ▸ isCover_spellings distinct (List.Perm.refl _)
  have allOpen : d.AllOpen := (allOpen_make capacity errorCapacity).performAll operations
  refine ⟨cover, cover.agree listed, fun c first last state works ordered => ?_⟩
  refine ⟨_, PracticeChain.filterLogs?_eq works (spellings visited) ordered, fun log => ?_⟩
  rw [List.mem_filter]
  exact and_congr_right fun _ => (cover.any_iff _).trans (allOpen.isHeard_iff (.ofLog c.chain state log)).symm

/-- Two spellings of one address are watched; visiting the mailboxes backwards lists the other one. -/
theorem addresses_cover_watched_backwards :
    let d := (make 1 1).performAll [.subscribe (.events "0xAB"), .subscribe .heads, .subscribe (.events "0xab"),
      .subscribe (.events "0xcd"), .subscribe (.events "0xEF"), .unsubscribe 4]
    let visited := d.events.registered.reverse
    let c := ((PracticeChain.make 7).mineSilently [⟨"0xaB", ["0x01"], []⟩, ⟨"0xcd", ["0x01"], []⟩]).2
    visited.Perm d.events.registered ∧ d.addresses = ["0xAB", "0xEF"] ∧ spellings visited = ["0xEF", "0xab"] ∧
      d.IsCover (spellings visited) ∧ c.failsLogs = false ∧ (0 : UInt64) ≤ 1 ∧
        ∃ logs, c.filterLogs? (spellings visited) 0 1 = some (.ok logs) ∧
          ∀ log, log ∈ logs ↔ log ∈ c.reportedIn 0 1 ∧ d.IsHeard (.ofLog c.chain .seen log) := by
  intro d visited c
  have order : visited.Perm d.events.registered := List.reverse_perm _
  obtain ⟨cover, -, asked⟩ := addresses_cover_watched 1 1 [.subscribe (.events "0xAB"), .subscribe .heads,
    .subscribe (.events "0xab"), .subscribe (.events "0xcd"), .subscribe (.events "0xEF"), .unsubscribe 4] visited order
  exact ⟨order, by decide, by decide, cover, rfl, by decide, asked c 0 1 .seen rfl (by decide)⟩

end Dispatcher

end Chainwatch
