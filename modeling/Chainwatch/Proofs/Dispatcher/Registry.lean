import Mathlib.Data.List.Nodup
import Mathlib.Data.List.Perm.Basic
import Chainwatch.Proofs.Dispatcher.Operations

/-!
# Registered and removed ids

The ids that are registered and those that were removed, and the effect of each operation on them.
Registered mailboxes have open queues, and removed ones closed queues unless the closing is still to come.
Removing a mailbox and closing its queues are separate steps here; taken in sequence they are the
operations.
-/

namespace Chainwatch

/-! ## Mailboxes -/

namespace Mailbox

variable {α : Type} (m : Mailbox α)

def IsOpen : Prop :=
  m.notices.isClosed = false ∧ m.errors.isClosed = false

def IsShut : Prop :=
  m.notices.isClosed = true ∧ m.errors.isClosed = true

def flags : Nat × Bool × Bool :=
  (m.id, m.notices.isClosed, m.errors.isClosed)

theorem isOpen_make (id : Nat) (topic : Option String) (capacity errorCapacity : Nat) :
    (make id topic capacity errorCapacity : Mailbox α).IsOpen :=
  ⟨rfl, rfl⟩

theorem isShut_close : m.close.IsShut :=
  ⟨rfl, rfl⟩

theorem isOpen_of_flags {n : Mailbox α} (same : m.flags = n.flags) (h : n.IsOpen) : m.IsOpen := by
  simp only [flags, Prod.mk.injEq] at same
  exact ⟨same.2.1.trans h.1, same.2.2.trans h.2⟩

theorem isShut_of_flags {n : Mailbox α} (same : m.flags = n.flags) (h : n.IsShut) : m.IsShut := by
  simp only [flags, Prod.mk.injEq] at same
  exact ⟨same.2.1.trans h.1, same.2.2.trans h.2⟩

theorem flags_signal (e : SubscriptionError) : (m.signal e).flags = m.flags := by
  unfold signal Queue.push flags
  split <;> [skip; split] <;> rfl

theorem flags_offer (describe : α → String) (notice : α) : (m.offer describe notice).flags = m.flags := by
  rw [offer_eq]
  split
  · rfl
  · split
    · exact m.flags_signal _
    · rfl

theorem flags_pop : m.pop.flags = m.flags := by
  simp only [pop, Queue.receive_rest]
  rfl

theorem flags_popError : m.popError.flags = m.flags := by
  simp only [popError, Queue.receive_rest]
  rfl

end Mailbox

/-! ## Registries -/

namespace Registry

variable {α : Type} {d e : Registry α} {m : Mailbox α} {closing : List Nat}

def numbers (d : Registry α) : List Nat :=
  d.registered.map (·.id)

def retiredIds (d : Registry α) : List Nat :=
  d.retired.map (·.id)

theorem contains_iff (d : Registry α) (id : Nat) : d.contains id = true ↔ id ∈ d.numbers := by
  simp [contains, numbers]

/-- Removes a mailbox from the register without closing its queues. -/
def take (d : Registry α) (id : Nat) : Registry α where
  registered := d.registered.filter (·.id != id)
  retired := d.retired ++ d.registered.filter (·.id == id)

/-- Removes every mailbox from the register without closing a queue. -/
def takeAll (d : Registry α) : Registry α where
  registered := []
  retired := d.retired ++ d.registered

def shut (d : Registry α) (id : Nat) : Registry α :=
  { d with retired := d.retired.map fun m => if m.id = id then m.close else m }

/-- Registered mailboxes have open queues, and all others closed ones except for those listed as being
closed. -/
structure Kept (d : Registry α) (closing : List Nat) : Prop where
  opened : ∀ m ∈ d.registered, m.IsOpen
  closed : ∀ m ∈ d.retired, m.id ∈ closing ∨ m.IsShut

theorem kept_empty : (empty : Registry α).Kept closing := by
  constructor <;> simp [empty]

theorem Kept.mono (h : d.Kept closing) {more : List Nat} (sub : closing ⊆ more) : d.Kept more :=
  ⟨h.opened, fun m mem => (h.closed m mem).imp_left (sub ·)⟩

/-! ### Operations that keep the register -/

/-- Two registries agree on the ids of their mailboxes and on which queues are closed. -/
structure Alike (d e : Registry α) : Prop where
  registered : d.registered.map (·.flags) = e.registered.map (·.flags)
  retired : d.retired.map (·.flags) = e.retired.map (·.flags)

theorem Alike.refl (d : Registry α) : d.Alike d :=
  ⟨rfl, rfl⟩

theorem Alike.trans {c : Registry α} (h : c.Alike d) (g : d.Alike e) : c.Alike e :=
  ⟨h.registered.trans g.registered, h.retired.trans g.retired⟩

theorem Alike.numbers (h : d.Alike e) : d.numbers = e.numbers := by
  have same := congrArg (List.map Prod.fst) h.registered
  simpa [List.map_map, Function.comp_def, Mailbox.flags, Registry.numbers] using same

theorem Alike.retiredIds (h : d.Alike e) : d.retiredIds = e.retiredIds := by
  have same := congrArg (List.map Prod.fst) h.retired
  simpa [List.map_map, Function.comp_def, Mailbox.flags, Registry.retiredIds] using same

theorem Alike.kept (h : d.Alike e) (kept : e.Kept closing) : d.Kept closing := by
  constructor
  · intro m mem
    obtain ⟨twin, listed, same⟩ := List.mem_map.mp (h.registered ▸ List.mem_map_of_mem mem)
    exact m.isOpen_of_flags same.symm (kept.opened twin listed)
  · intro m mem
    obtain ⟨twin, listed, same⟩ := List.mem_map.mp (h.retired ▸ List.mem_map_of_mem mem)
    have id : twin.id = m.id := congrArg Prod.fst same
    exact (kept.closed twin listed).imp (id ▸ ·) (m.isShut_of_flags same.symm)

theorem alike_forAll {f : Mailbox α → Mailbox α} (same : ∀ m, (f m).flags = m.flags) (d : Registry α) :
    (d.forAll f).Alike d := by
  refine ⟨?_, rfl⟩
  simp [forAll, Function.comp_def, same]

theorem eq_of_find? (distinct : (d.numbers ++ d.retiredIds).Nodup) {id : Nat} (found : d.find? id = some m)
    {other : Mailbox α} (mem : other ∈ d.registered ++ d.retired) (own : other.id = id) : other = m := by
  rw [numbers, retiredIds, ← List.map_append] at distinct
  have first : m.id = id := by simpa using List.find?_some found
  exact List.inj_on_of_nodup_map distinct mem (List.mem_of_find?_eq_some found) (own.trans first.symm)

theorem alike_update {f : Mailbox α → Mailbox α} (same : ∀ m, (f m).flags = m.flags)
    (distinct : (d.numbers ++ d.retiredIds).Nodup) {id : Nat} (found : d.find? id = some m) :
    (d.update (f m)).Alike d := by
  have first : m.id = id := by simpa using List.find?_some found
  have number : (f m).id = id := (congrArg Prod.fst (same m)).trans first
  have swapped {old : Mailbox α} (mem : old ∈ d.registered ++ d.retired) :
      (if old.id = (f m).id then f m else old).flags = old.flags := by
    split
    · rename_i own
      rw [same, eq_of_find? distinct found mem (own.trans number)]
    · rfl
  constructor
  · simp only [update, List.map_map]
    exact List.map_congr_left fun old mem => swapped (List.mem_append_left _ mem)
  · simp only [update, List.map_map]
    exact List.map_congr_left fun old mem => swapped (List.mem_append_right _ mem)

theorem alike_receive (distinct : (d.numbers ++ d.retiredIds).Nodup) (id : Nat) : (d.receive id).2.Alike d := by
  rw [receive]
  split
  · exact .refl d
  · rename_i m found
    exact alike_update Mailbox.flags_pop distinct found

theorem alike_receiveError (distinct : (d.numbers ++ d.retiredIds).Nodup) (id : Nat) :
    (d.receiveError id).2.Alike d := by
  rw [receiveError]
  split
  · exact .refl d
  · rename_i m found
    exact alike_update Mailbox.flags_popError distinct found

/-! ### Operations that change the register -/

@[simp] theorem numbers_register (d : Registry α) (m : Mailbox α) : (d.register m).numbers = d.numbers ++ [m.id] := by
  simp [numbers, register]

@[simp] theorem retiredIds_register (d : Registry α) (m : Mailbox α) : (d.register m).retiredIds = d.retiredIds := rfl

theorem Kept.register (h : d.Kept closing) (fresh : m.IsOpen) : (d.register m).Kept closing := by
  refine ⟨?_, h.closed⟩
  intro other mem
  rcases List.mem_append.mp mem with mem | mem
  · exact h.opened other mem
  · exact List.mem_singleton.mp mem ▸ fresh

@[simp] theorem numbers_take (d : Registry α) (id : Nat) : (d.take id).numbers = d.numbers.filter (· != id) := by
  simp [numbers, take, List.filter_map, Function.comp_def]

@[simp] theorem retiredIds_take (d : Registry α) (id : Nat) :
    (d.take id).retiredIds = d.retiredIds ++ d.numbers.filter (· == id) := by
  simp [numbers, retiredIds, take, List.filter_map, Function.comp_def]

theorem Kept.take (h : d.Kept closing) (id : Nat) : (d.take id).Kept (closing ++ d.numbers.filter (· == id)) := by
  constructor
  · exact fun m mem => h.opened m (List.mem_filter.mp mem).1
  · intro m mem
    rcases List.mem_append.mp mem with mem | mem
    · exact (h.closed m mem).imp_left (List.mem_append_left _)
    · obtain ⟨listed, own⟩ := List.mem_filter.mp mem
      refine Or.inl (List.mem_append_right _ (List.mem_filter.mpr ⟨List.mem_map_of_mem listed, own⟩))

@[simp] theorem numbers_takeAll (d : Registry α) : d.takeAll.numbers = [] := rfl

@[simp] theorem retiredIds_takeAll (d : Registry α) : d.takeAll.retiredIds = d.retiredIds ++ d.numbers := by
  simp [numbers, retiredIds, takeAll]

theorem Kept.takeAll (h : d.Kept closing) : d.takeAll.Kept (closing ++ d.numbers) := by
  constructor
  · simp [Registry.takeAll]
  · intro m mem
    rcases List.mem_append.mp mem with mem | mem
    · exact (h.closed m mem).imp_left (List.mem_append_left _)
    · exact Or.inl (List.mem_append_right _ (List.mem_map_of_mem mem))

@[simp] theorem numbers_shut (d : Registry α) (id : Nat) : (d.shut id).numbers = d.numbers := rfl

@[simp] theorem retiredIds_shut (d : Registry α) (id : Nat) : (d.shut id).retiredIds = d.retiredIds := by
  simp only [retiredIds, shut, List.map_map]
  refine List.map_congr_left fun m _ => ?_
  by_cases own : m.id = id <;> simp [own]

theorem Kept.shut (h : d.Kept closing) (id : Nat) : (d.shut id).Kept (closing.filter (· != id)) := by
  refine ⟨h.opened, ?_⟩
  intro m mem
  obtain ⟨old, listed, rfl⟩ := List.mem_map.mp mem
  by_cases own : old.id = id
  · rw [if_pos own]
    exact Or.inr old.isShut_close
  · rw [if_neg own]
    exact (h.closed old listed).imp_left fun on_way => List.mem_filter.mpr ⟨on_way, by simpa using own⟩

@[simp] theorem numbers_forget (d : Registry α) (id : Nat) : (d.forget id).numbers = d.numbers := rfl

@[simp] theorem retiredIds_forget (d : Registry α) (id : Nat) :
    (d.forget id).retiredIds = d.retiredIds.filter (· != id) := by
  simp [retiredIds, forget, List.filter_map, Function.comp_def]

theorem Kept.forget (h : d.Kept closing) (id : Nat) : (d.forget id).Kept closing :=
  ⟨h.opened, fun m mem => h.closed m (List.mem_filter.mp mem).1⟩

@[simp] theorem numbers_remove (d : Registry α) (id : Nat) : (d.remove id).2.numbers = d.numbers.filter (· != id) :=
  d.numbers_take id

@[simp] theorem retiredIds_remove (d : Registry α) (id : Nat) :
    (d.remove id).2.retiredIds = d.retiredIds ++ d.numbers.filter (· == id) := by
  rw [← retiredIds_take]
  simp [retiredIds, remove, take, Function.comp_def]

theorem Kept.remove (h : d.Kept closing) (id : Nat) : (d.remove id).2.Kept closing := by
  constructor
  · exact fun m mem => h.opened m (List.mem_filter.mp mem).1
  · intro m mem
    rcases List.mem_append.mp mem with mem | mem
    · exact h.closed m mem
    · obtain ⟨old, -, rfl⟩ := List.mem_map.mp mem
      exact Or.inr old.isShut_close

@[simp] theorem numbers_clear (d : Registry α) : d.clear.2.numbers = [] := rfl

@[simp] theorem retiredIds_clear (d : Registry α) : d.clear.2.retiredIds = d.retiredIds ++ d.numbers := by
  simp [numbers, retiredIds, clear, Function.comp_def]

theorem Kept.clear (h : d.Kept closing) : d.clear.2.Kept closing := by
  constructor
  · simp [Registry.clear]
  · intro m mem
    rcases List.mem_append.mp mem with mem | mem
    · exact h.closed m mem
    · obtain ⟨old, -, rfl⟩ := List.mem_map.mp mem
      exact Or.inr old.isShut_close

/-! ### Closing removed mailboxes -/

theorem foldl_shut (d : Registry α) (ids : List Nat) :
    ids.foldl shut d = { d with retired := d.retired.map fun m => if m.id ∈ ids then m.close else m } := by
  induction ids generalizing d with
  | nil => simp
  | cons id ids ih =>
      have again (m : Mailbox α) : m.close.close = m.close := rfl
      rw [List.foldl_cons, ih, shut, List.map_map]
      congr 1
      refine List.map_congr_left fun m _ => ?_
      by_cases first : m.id = id
      · by_cases later : id ∈ ids <;> simp [first, later, again]
      · by_cases later : m.id ∈ ids <;> simp [first, later]

/-- Closing the queues of removed mailboxes affects no other mailbox. -/
theorem shut_taken {ids : List Nat} (apart : ∀ id ∈ ids, id ∉ d.retiredIds) (taken : List (Mailbox α))
    (all : ∀ m ∈ taken, m.id ∈ ids) :
    (d.retired ++ taken).map (fun m => if m.id ∈ ids then m.close else m) = d.retired ++ taken.map Mailbox.close := by
  rw [List.map_append]
  congr 1
  · refine (List.map_congr_left fun m mem => if_neg fun listed => ?_).trans (List.map_id _)
    exact apart m.id listed (List.mem_map_of_mem mem)
  · exact List.map_congr_left fun m mem => if_pos (all m mem)

theorem shut_take {id : Nat} (apart : id ∉ d.retiredIds) : (d.take id).shut id = (d.remove id).2 := by
  have off : ∀ n ∈ [id], n ∉ d.retiredIds := by simpa using apart
  have closed := shut_taken off (d.registered.filter (·.id == id)) (by simp)
  simpa [take, shut, remove] using closed

theorem shutAll_takeAll {ids : List Nat} (apart : ∀ id ∈ ids, id ∉ d.retiredIds) (all : d.numbers ⊆ ids) :
    ids.foldl shut d.takeAll = d.clear.2 := by
  rw [foldl_shut, takeAll, clear]
  congr 1
  exact shut_taken apart d.registered fun m mem => all (List.mem_map_of_mem mem)

theorem take_of_not_mem {id : Nat} (off : id ∉ d.numbers) : d.take id = (d.remove id).2 := by
  have none_taken : d.registered.filter (·.id == id) = [] := by
    refine List.filter_eq_nil_iff.mpr fun m mem => ?_
    simpa using fun own : m.id = id => off (own ▸ List.mem_map_of_mem mem)
  simp [take, remove, none_taken]

end Registry

/-! ## Dispatchers -/

namespace Dispatcher

variable {d e : Dispatcher} {closing : List Nat}

def numbers (d : Dispatcher) : List Nat :=
  d.heads.numbers ++ d.events.numbers

def retiredIds (d : Dispatcher) : List Nat :=
  d.heads.retiredIds ++ d.events.retiredIds

theorem contains_iff (d : Dispatcher) (id : Nat) : d.contains id = true ↔ id ∈ d.numbers := by
  rw [contains, Bool.or_eq_true, Registry.contains_iff, Registry.contains_iff, numbers, List.mem_append]

def enter (d : Dispatcher) (id : Nat) : Target → Dispatcher
  | .heads => { d with heads := d.heads.register (.make id none d.capacity d.errorCapacity) }
  | .events address => { d with events := d.events.register (.make id (some address) d.capacity d.errorCapacity) }

/-- Removes a mailbox from the register without closing its queues. -/
def take (d : Dispatcher) (id : Nat) : Dispatcher :=
  { d with heads := d.heads.take id, events := d.events.take id }

/-- Removes every mailbox from the register without closing a queue. -/
def takeAll (d : Dispatcher) : Dispatcher :=
  { d with heads := d.heads.takeAll, events := d.events.takeAll }

def shut (d : Dispatcher) (id : Nat) : Dispatcher :=
  { d with heads := d.heads.shut id, events := d.events.shut id }

/-- Drops the queues of a mailbox that was removed from the register. -/
def release (d : Dispatcher) (owner : Subscription) : Dispatcher :=
  match owner.interest with
  | .heads => { d with heads := d.heads.forget owner.id }
  | .events => { d with events := d.events.forget owner.id }

structure Kept (d : Dispatcher) (closing : List Nat) : Prop where
  heads : d.heads.Kept closing
  events : d.events.Kept closing

theorem Kept.enter (h : d.Kept closing) (id : Nat) (target : Target) : (d.enter id target).Kept closing := by
  cases target with
  | heads => exact ⟨h.heads.register (Mailbox.isOpen_make ..), h.events⟩
  | events address => exact ⟨h.heads, h.events.register (Mailbox.isOpen_make ..)⟩

theorem Kept.unsubscribe (h : d.Kept closing) (id : Nat) : (d.unsubscribe id).2.Kept closing :=
  ⟨h.heads.remove id, h.events.remove id⟩

theorem Kept.release (h : d.Kept closing) (owner : Subscription) : (d.release owner).Kept closing := by
  rcases owner with ⟨id, _ | _⟩
  · exact ⟨h.heads.forget id, h.events⟩
  · exact ⟨h.heads, h.events.forget id⟩

structure Alike (d e : Dispatcher) : Prop where
  next : d.nextId = e.nextId
  heads : d.heads.Alike e.heads
  events : d.events.Alike e.events

theorem Alike.refl (d : Dispatcher) : d.Alike d :=
  ⟨rfl, .refl _, .refl _⟩

theorem Alike.trans {c : Dispatcher} (h : c.Alike d) (g : d.Alike e) : c.Alike e :=
  ⟨h.next.trans g.next, h.heads.trans g.heads, h.events.trans g.events⟩

theorem Alike.numbers (h : d.Alike e) : d.numbers = e.numbers := by
  rw [Dispatcher.numbers, h.heads.numbers, h.events.numbers, Dispatcher.numbers]

theorem Alike.retiredIds (h : d.Alike e) : d.retiredIds = e.retiredIds := by
  rw [Dispatcher.retiredIds, h.heads.retiredIds, h.events.retiredIds, Dispatcher.retiredIds]

theorem Alike.kept (h : d.Alike e) (kept : e.Kept closing) : d.Kept closing :=
  ⟨h.heads.kept kept.heads, h.events.kept kept.events⟩

theorem alike_deliver (d : Dispatcher) (delivery : Delivery) : (d.deliver delivery).Alike d := by
  rcases delivery with (head | event) | cause
  · exact ⟨rfl, Registry.alike_forAll (fun m => m.flags_offer _ head) d.heads, .refl _⟩
  · refine ⟨rfl, .refl _, Registry.alike_forAll (fun m => ?_) d.events⟩
    split
    · exact m.flags_offer _ event
    · rfl
  · exact ⟨rfl, .refl _, Registry.alike_forAll (fun m => m.flags_signal _) d.events⟩

theorem alike_deliverAll (d : Dispatcher) (deliveries : List Delivery) : (deliveries.foldl deliver d).Alike d := by
  induction deliveries generalizing d with
  | nil => exact .refl d
  | cons delivery deliveries ih => exact (ih (d.deliver delivery)).trans (d.alike_deliver delivery)

namespace Operation

/-- Whether an operation neither opens nor closes a mailbox. -/
def isQuiet : Operation → Bool
  | .dispatchHead _ | .dispatchEvents _ | .broadcast _ | .receive _ | .receiveError _ => true
  | .subscribe _ | .unsubscribe _ | .drop _ | .closeAll => false

end Operation

theorem alike_perform (distinct : (d.numbers ++ d.retiredIds).Nodup) {operation : Operation}
    (quiet : operation.isQuiet) : (d.perform operation).Alike d := by
  have apart : (d.heads.numbers ++ d.heads.retiredIds).Nodup ∧ (d.events.numbers ++ d.events.retiredIds).Nodup := by
    simp only [numbers, retiredIds, List.nodup_append, List.mem_append] at distinct ⊢
    grind
  cases operation with
  | dispatchHead head => exact d.alike_deliver (.notice (.head head))
  | dispatchEvents events =>
      rw [perform, dispatchEvents_eq]
      exact d.alike_deliverAll _
  | broadcast cause => exact d.alike_deliver (.failure cause)
  | receive owner =>
      rcases owner with ⟨id, _ | _⟩
      · exact ⟨rfl, Registry.alike_receive apart.1 id, .refl _⟩
      · exact ⟨rfl, .refl _, Registry.alike_receive apart.2 id⟩
  | receiveError owner =>
      rcases owner with ⟨id, _ | _⟩
      · exact ⟨rfl, Registry.alike_receiveError apart.1 id, .refl _⟩
      · exact ⟨rfl, .refl _, Registry.alike_receiveError apart.2 id⟩
  | subscribe | unsubscribe | drop | closeAll => cases quiet

/-- The number of subscriptions that an operation reports as ended; dropping a handle ends its own, if
it is registered. -/
def answer (d : Dispatcher) : Operation → Nat
  | .unsubscribe id => (d.unsubscribe id).1.toNat
  | .drop owner => (d.unsubscribe owner.id).1.toNat
  | .closeAll => d.closeAll.1
  | .subscribe _ | .dispatchHead _ | .dispatchEvents _ | .broadcast _ | .receive _ | .receiveError _ => 0

/-! ### Operations that change the register -/

theorem perm_append_append_comm (a b c d : List Nat) : ((a ++ b) ++ (c ++ d)).Perm ((a ++ c) ++ (b ++ d)) := by
  refine List.perm_iff_count.mpr fun n => ?_
  simp only [List.count_append]
  omega

theorem retiredIds_take (d : Dispatcher) (id : Nat) :
    (d.take id).retiredIds.Perm (d.retiredIds ++ d.numbers.filter (· == id)) := by
  simp only [retiredIds, numbers, take, Registry.retiredIds_take, List.filter_append]
  exact perm_append_append_comm ..

theorem retiredIds_unsubscribe (d : Dispatcher) (id : Nat) :
    (d.unsubscribe id).2.retiredIds.Perm (d.retiredIds ++ d.numbers.filter (· == id)) := by
  simp only [retiredIds, numbers, unsubscribe, Registry.retiredIds_remove, List.filter_append]
  exact perm_append_append_comm ..

theorem contains_unsubscribe (d : Dispatcher) (id : Nat) : (d.unsubscribe id).2.contains id = false := by
  rw [Bool.eq_false_iff, Ne, contains_iff]
  simp [unsubscribe, numbers]

theorem numbers_release (d : Dispatcher) (owner : Subscription) : (d.release owner).numbers = d.numbers := by
  rcases owner with ⟨id, _ | _⟩ <;> rfl

theorem retiredIds_release (d : Dispatcher) (owner : Subscription) :
    (d.release owner).retiredIds.Sublist d.retiredIds := by
  rcases owner with ⟨id, _ | _⟩
  · simp [release, retiredIds]
  · simp [release, retiredIds]

theorem drop_eq (owner : Subscription) (d : Dispatcher) : owner.drop d = (d.unsubscribe owner.id).2.release owner := by
  rcases owner with ⟨id, _ | _⟩ <;> rfl

theorem numbers_enter (d : Dispatcher) (id : Nat) (target : Target) :
    (d.enter id target).numbers.Perm (d.numbers ++ [id]) := by
  cases target with
  | heads =>
      simp only [enter, numbers, Registry.numbers_register, Mailbox.make, List.append_assoc]
      exact List.perm_append_comm.append_left d.heads.numbers
  | events address =>
      simp [enter, numbers, Mailbox.make]

theorem retiredIds_enter (d : Dispatcher) (id : Nat) (target : Target) :
    (d.enter id target).retiredIds = d.retiredIds := by
  cases target <;> rfl

/-- Subscribing draws an id and registers a mailbox under it. -/
theorem subscribe_eq (d : Dispatcher) (target : Target) :
    (d.subscribe target).2 = enter { d with nextId := d.nextId + 1 } d.nextId target := by
  cases target <;> rfl

/-! ### Closing removed mailboxes -/

theorem take_unsubscribe (apart : (d.numbers ++ d.retiredIds).Nodup) (id : Nat) :
    (if d.contains id then (d.take id).shut id else d.take id) = (d.unsubscribe id).2 := by
  split
  · rename_i registered
    have off : id ∉ d.retiredIds := fun former =>
      (List.nodup_append.mp apart).2.2 id ((contains_iff d id).mp registered) id former rfl
    simp only [retiredIds, List.mem_append, not_or] at off
    simp only [shut, take, unsubscribe, Registry.shut_take off.1, Registry.shut_take off.2]
  · rename_i unknown
    rw [contains_iff, numbers, List.mem_append, not_or] at unknown
    simp only [take, unsubscribe, Registry.take_of_not_mem unknown.1, Registry.take_of_not_mem unknown.2]

theorem foldl_shut (d : Dispatcher) (ids : List Nat) :
    ids.foldl shut d =
      { d with heads := ids.foldl Registry.shut d.heads, events := ids.foldl Registry.shut d.events } := by
  induction ids generalizing d with
  | nil => rfl
  | cons id ids ih => exact ih (d.shut id)

theorem takeAll_closeAll (apart : (d.numbers ++ d.retiredIds).Nodup) :
    d.numbers.foldl shut d.takeAll = d.closeAll.2 := by
  have off (id : Nat) (registered : id ∈ d.numbers) : id ∉ d.heads.retiredIds ∧ id ∉ d.events.retiredIds := by
    rw [← not_or, ← List.mem_append]
    exact fun former => (List.nodup_append.mp apart).2.2 id registered id former rfl
  have heads := Registry.shutAll_takeAll (d := d.heads) (fun id mem => (off id mem).1) (List.subset_append_left ..)
  have events := Registry.shutAll_takeAll (d := d.events) (fun id mem => (off id mem).2) (List.subset_append_right ..)
  simp only [foldl_shut, takeAll, closeAll, heads, events]

end Dispatcher

/-! ## Queues -/

namespace Subscription

variable (s : Subscription) (d : Dispatcher)

/-- Whether the id of a subscription is on the register. -/
def isRegistered : Bool :=
  match s.interest with
  | .heads => d.heads.contains s.id
  | .events => d.events.contains s.id

/-- The subscription has a mailbox, and both its queues accept items. -/
def Accepts : Prop :=
  ∃ m, (s.slot d).mailbox? = some m ∧ m.IsOpen

def Refuses : Prop :=
  ∀ m, (s.slot d).mailbox? = some m → m.IsShut

end Subscription

namespace Registry

variable {α : Type} {d : Registry α} {closing : List Nat} {id : Nat}

theorem Kept.open_of_contains (h : d.Kept closing) (registered : d.contains id = true) :
    ∃ m, (d.slot id).mailbox? = some m ∧ m.IsOpen := by
  rw [contains_eq] at registered
  unfold slot at *
  cases found : d.registered.find? (·.id == id) with
  | some m => exact ⟨m, rfl, h.opened m (List.mem_of_find?_eq_some found)⟩
  | none =>
      rw [found] at registered
      cases other : d.retired.find? (·.id == id) <;> simp [other, Slot.isLive] at registered

theorem Kept.shut_of_not_contains (h : d.Kept closing) (off : d.contains id = false) :
    id ∈ closing ∨ ∀ m, (d.slot id).mailbox? = some m → m.IsShut := by
  rw [contains_eq] at off
  unfold slot at *
  cases found : d.registered.find? (·.id == id) with
  | some m => simp [found, Slot.isLive] at off
  | none =>
      cases other : d.retired.find? (·.id == id) with
      | none => exact Or.inr fun m held => by simp [Slot.mailbox?] at held
      | some m =>
          have own : m.id = id := by simpa using List.find?_some other
          refine (h.closed m (List.mem_of_find?_eq_some other)).imp (own ▸ ·) fun shut held same => ?_
          exact Option.some.inj same ▸ shut

end Registry

namespace Dispatcher

variable {d : Dispatcher} {closing : List Nat}

theorem Kept.accepts (h : d.Kept closing) {s : Subscription} (registered : s.isRegistered d = true) : s.Accepts d := by
  rcases s with ⟨id, _ | _⟩
  · obtain ⟨m, held, opened⟩ := h.heads.open_of_contains registered
    exact ⟨m.relabel .head, by simp [Subscription.slot, held], opened⟩
  · obtain ⟨m, held, opened⟩ := h.events.open_of_contains registered
    exact ⟨m.relabel .event, by simp [Subscription.slot, held], opened⟩

theorem Kept.refuses (h : d.Kept closing) {s : Subscription} (off : s.isRegistered d = false) :
    s.id ∈ closing ∨ s.Refuses d := by
  rcases s with ⟨id, _ | _⟩
  · refine (h.heads.shut_of_not_contains off).imp_right fun shut m held => ?_
    obtain ⟨own, found, rfl⟩ := Option.map_eq_some_iff.mp ((Slot.mailbox?_relabel _).symm.trans held)
    exact shut own found
  · refine (h.events.shut_of_not_contains off).imp_right fun shut m held => ?_
    obtain ⟨own, found, rfl⟩ := Option.map_eq_some_iff.mp ((Slot.mailbox?_relabel _).symm.trans held)
    exact shut own found

end Dispatcher

end Chainwatch
