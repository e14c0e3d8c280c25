import Chainwatch.Mailbox

/-!
# The slot of an id

A mailbox is registered, then closed until its owner drops it. The effect of an operation of a registry on
one mailbox depends on the slot of that mailbox only.
-/

namespace Chainwatch

/-- The state of the mailbox of one id. -/
inductive Slot (α : Type) where
  /-- Registered: deliveries reach it. -/
  | live (m : Mailbox α)
  /-- Closed, and its owner can still empty it. -/
  | closed (m : Mailbox α)
  | gone

namespace Slot

variable {α : Type}

def mailbox? : Slot α → Option (Mailbox α)
  | live m | closed m => some m
  | gone => none

def isLive : Slot α → Bool
  | live _ => true
  | closed _ | gone => false

def map (f : Mailbox α → Mailbox α) : Slot α → Slot α
  | live m => live (f m)
  | closed m => closed (f m)
  | gone => gone

def mapLive (f : Mailbox α → Mailbox α) : Slot α → Slot α
  | live m => live (f m)
  | closed m => closed m
  | gone => gone

def close : Slot α → Slot α
  | live m => closed m.close
  | closed m => closed m
  | gone => gone

/-- The slot after its owner gave up what is closed. -/
def forget : Slot α → Slot α
  | live m => live m
  | closed _ | gone => gone

@[simp] theorem isLive_close (s : Slot α) : s.close.isLive = false := by
  cases s <;> rfl

theorem mapLive_id (s : Slot α) : s.mapLive (fun m => m) = s := by
  cases s <;> rfl

@[simp] theorem forget_close (s : Slot α) : s.close.forget = gone := by
  cases s <;> rfl

end Slot

namespace Queue

variable {α : Type}

theorem receive_rest (q : Queue α) : q.receive.2 = { q with items := q.items.tail } := by
  obtain ⟨capacity, items, closed, abandoned⟩ := q
  cases items <;> rfl

theorem receive_receipt (q : Queue α) :
    q.receive.1 = match q.items with
      | [] => if q.closed then .ended else .pending
      | item :: _ => .item item := by
  unfold receive pop
  cases q.items <;> rfl

end Queue

namespace Mailbox

variable {α : Type}

def pop (m : Mailbox α) : Mailbox α :=
  { m with notices := m.notices.receive.2 }

def popError (m : Mailbox α) : Mailbox α :=
  { m with errors := m.errors.receive.2 }

@[simp] theorem close_id (m : Mailbox α) : m.close.id = m.id := rfl

/-- An offered notice is queued while there is room and reported as lost otherwise; a closed mailbox
drops it. -/
theorem offer_eq (describe : α → String) (notice : α) (m : Mailbox α) : m.offer describe notice =
    if m.notices.isClosed then m
    else if m.notices.capacity ≤ m.notices.items.length then m.signal (.queueFull m.id (describe notice))
    else { m with notices := { m.notices with items := m.notices.items ++ [notice] } } := by
  unfold offer Queue.push
  by_cases closed : m.notices.isClosed
  · simp [closed]
  · by_cases full : m.notices.capacity ≤ m.notices.items.length <;> simp [closed, full]

@[simp] theorem offer_id (describe : α → String) (notice : α) (m : Mailbox α) :
    (m.offer describe notice).id = m.id := by
  rw [offer_eq]
  split
  · rfl
  · split <;> rfl

@[simp] theorem offer_topic (describe : α → String) (notice : α) (m : Mailbox α) :
    (m.offer describe notice).topic = m.topic := by
  rw [offer_eq]
  split
  · rfl
  · split <;> rfl

end Mailbox

namespace Registry

variable {α : Type} {d : Registry α} {i id bound : Nat} {m : Mailbox α}

def slot (d : Registry α) (id : Nat) : Slot α :=
  match d.registered.find? (·.id == id), d.retired.find? (·.id == id) with
  | some m, _ => .live m
  | none, some m => .closed m
  | none, none => .gone

theorem contains_eq (d : Registry α) (id : Nat) : d.contains id = (d.slot id).isLive := by
  have found : d.contains id = (d.registered.find? (·.id == id)).isSome := by
    rw [contains, List.isSome_find?]
  rw [found, slot]
  cases d.registered.find? (·.id == id) with
  | some m => rfl
  | none => cases d.retired.find? (·.id == id) <;> rfl

theorem find?_eq (d : Registry α) (id : Nat) : d.find? id = (d.slot id).mailbox? := by
  rw [find?, List.find?_append, slot]
  cases d.registered.find? (·.id == id) with
  | some m => rfl
  | none => cases d.retired.find? (·.id == id) <;> rfl

/-! ## Numbers -/

/-- No id is both registered and retired, and all ids are below a bound. -/
structure Tidy (d : Registry α) (bound : Nat) : Prop where
  apart : ∀ n ∈ d.registered.map (·.id), n ∉ d.retired.map (·.id)
  registered : ∀ n ∈ d.registered.map (·.id), n < bound
  retired : ∀ n ∈ d.retired.map (·.id), n < bound

theorem tidy_empty : (empty : Registry α).Tidy bound := by
  constructor <;> simp [empty]

theorem Tidy.le (h : d.Tidy bound) {more : Nat} (le : bound ≤ more) : d.Tidy more :=
  ⟨h.apart, fun n mem => Nat.lt_of_lt_of_le (h.registered n mem) le,
    fun n mem => Nat.lt_of_lt_of_le (h.retired n mem) le⟩

theorem Tidy.slot_gone (h : d.Tidy bound) (le : bound ≤ id) : d.slot id = .gone := by
  have none_registered : d.registered.find? (·.id == id) = none := by
    refine List.find?_eq_none.mpr fun m mem => ?_
    have below := h.registered m.id (List.mem_map_of_mem mem)
    simp only [beq_iff_eq]
    omega
  have none_retired : d.retired.find? (·.id == id) = none := by
    refine List.find?_eq_none.mpr fun m mem => ?_
    have below := h.retired m.id (List.mem_map_of_mem mem)
    simp only [beq_iff_eq]
    omega
  rw [slot, none_registered, none_retired]

theorem Tidy.retired_eq_none (h : d.Tidy bound) (found : d.registered.find? (·.id == id) = some m) :
    d.retired.find? (·.id == id) = none := by
  have mem := List.mem_map_of_mem (f := (·.id)) (List.mem_of_find?_eq_some found)
  have own : m.id = id := by simpa using List.find?_some found
  refine List.find?_eq_none.mpr fun r retired => ?_
  simp only [beq_iff_eq]
  intro same
  exact h.apart m.id mem ((same.trans own.symm) ▸ List.mem_map_of_mem (f := (·.id)) retired)

theorem Tidy.of_ids {e : Registry α} (h : d.Tidy bound) (registered : e.registered.map (·.id) = d.registered.map (·.id))
    (retired : e.retired.map (·.id) = d.retired.map (·.id)) : e.Tidy bound := by
  constructor
  · rw [registered, retired]
    exact h.apart
  · rw [registered]
    exact h.registered
  · rw [retired]
    exact h.retired

theorem Tidy.forAll (h : d.Tidy bound) {f : Mailbox α → Mailbox α} (same : ∀ m, (f m).id = m.id) :
    (d.forAll f).Tidy bound := by
  refine h.of_ids ?_ rfl
  simp [Registry.forAll, same]

theorem Tidy.update (h : d.Tidy bound) (m : Mailbox α) : (d.update m).Tidy bound := by
  have same (old : Mailbox α) : (if old.id = m.id then m else old).id = old.id := by
    split
    · exact Eq.symm ‹_›
    · rfl
  refine h.of_ids ?_ ?_ <;> simp [Registry.update, same]

theorem Tidy.register (h : d.Tidy bound) (le : bound ≤ m.id) (lt : m.id < i) : (d.register m).Tidy i := by
  have grown := h.le (Nat.le_of_lt (Nat.lt_of_le_of_lt le lt))
  constructor
  · intro n mem
    simp only [Registry.register, List.map_append, List.mem_append, List.map_cons, List.map_nil, List.mem_singleton]
      at mem
    rcases mem with mem | rfl
    · exact h.apart n mem
    · intro retired
      have below := h.retired _ retired
      omega
  · intro n mem
    simp only [Registry.register, List.map_append, List.mem_append, List.map_cons, List.map_nil, List.mem_singleton]
      at mem
    rcases mem with mem | rfl
    · exact grown.registered n mem
    · exact lt
  · exact grown.retired

theorem Tidy.remove (h : d.Tidy bound) (i : Nat) : (d.remove i).2.Tidy bound := by
  have kept {n : Nat} (mem : n ∈ (d.registered.filter (·.id != i)).map (·.id)) :
      n ∈ d.registered.map (·.id) ∧ n ≠ i := by
    obtain ⟨m, stored, rfl⟩ := List.mem_map.mp mem
    obtain ⟨stored, other⟩ := List.mem_filter.mp stored
    exact ⟨List.mem_map_of_mem stored, by simpa using other⟩
  have retired {n : Nat} (mem : n ∈ (d.remove i).2.retired.map (·.id)) :
      n ∈ d.retired.map (·.id) ∨ n = i ∧ n ∈ d.registered.map (·.id) := by
    simp only [Registry.remove, List.map_append, List.mem_append, List.map_map] at mem
    rcases mem with mem | mem
    · exact Or.inl mem
    · obtain ⟨m, stored, rfl⟩ := List.mem_map.mp mem
      obtain ⟨stored, own⟩ := List.mem_filter.mp stored
      exact Or.inr ⟨by simpa using own, List.mem_map_of_mem (f := (·.id)) stored⟩
  constructor
  · intro n mem mem'
    rcases retired mem' with old | ⟨rfl, -⟩
    · exact h.apart n (kept mem).1 old
    · exact (kept mem).2 rfl
  · exact fun n mem => h.registered n (kept mem).1
  · intro n mem
    rcases retired mem with old | ⟨-, mem⟩
    · exact h.retired n old
    · exact h.registered n mem

theorem Tidy.clear (h : d.Tidy bound) : d.clear.2.Tidy bound := by
  constructor
  · simp [Registry.clear]
  · simp [Registry.clear]
  · intro n mem
    simp only [Registry.clear, List.map_append, List.mem_append, List.map_map] at mem
    rcases mem with mem | mem
    · exact h.retired n mem
    · exact h.registered n mem

theorem Tidy.forget (h : d.Tidy bound) (i : Nat) : (d.forget i).Tidy bound := by
  have sub {n : Nat} (mem : n ∈ (d.forget i).retired.map (·.id)) : n ∈ d.retired.map (·.id) := by
    obtain ⟨m, stored, rfl⟩ := List.mem_map.mp mem
    exact List.mem_map_of_mem (List.mem_filter.mp stored).1
  exact ⟨fun n mem mem' => h.apart n mem (sub mem'), h.registered, fun n mem => h.retired n (sub mem)⟩

/-! ## Operations -/

theorem slot_forAll {f : Mailbox α → Mailbox α} (same : ∀ m, (f m).id = m.id) (d : Registry α) (id : Nat) :
    (d.forAll f).slot id = (d.slot id).mapLive f := by
  have kept : ((·.id == id) ∘ f : Mailbox α → Bool) = (·.id == id) := funext fun m => congrArg (· == id) (same m)
  rw [slot, slot, forAll, List.find?_map, kept]
  cases d.registered.find? (·.id == id) with
  | some m => rfl
  | none => cases d.retired.find? (·.id == id) <;> rfl

theorem slot_register_of_ne (d : Registry α) (other : m.id ≠ id) : (d.register m).slot id = d.slot id := by
  have not_own : (m.id == id) = false := by simpa using other
  rw [slot, slot, register, List.find?_append]
  cases d.registered.find? (·.id == id) with
  | some m => rfl
  | none => simp [not_own]

theorem slot_register (free : d.slot m.id = .gone) : (d.register m).slot m.id = .live m := by
  have unused : d.registered.find? (·.id == m.id) = none := by
    rw [slot] at free
    cases found : d.registered.find? (·.id == m.id) with
    | none => rfl
    | some other => simp [found] at free
  rw [slot, register, List.find?_append, unused]
  simp

theorem slot_update (d : Registry α) (m : Mailbox α) (id : Nat) :
    (d.update m).slot id = if m.id = id then (d.slot id).map fun _ => m else d.slot id := by
  have swapped (ms : List (Mailbox α)) : (ms.map fun old => if old.id = m.id then m else old).find? (·.id == id) =
      (ms.find? (·.id == id)).map fun old => if m.id = id then m else old := by
    have kept : ((·.id == id) ∘ fun old : Mailbox α => if old.id = m.id then m else old) = (·.id == id) := by
      funext old
      by_cases same : old.id = m.id <;> simp [same]
    rw [List.find?_map, kept]
    cases found : ms.find? (·.id == id) with
    | none => rfl
    | some old =>
        have own : old.id = id := by simpa using List.find?_some found
        simp [own, eq_comm (a := id)]
  rw [slot, slot, update]
  dsimp only
  rw [swapped, swapped]
  by_cases own : m.id = id
  · simp only [own, if_true]
    cases d.registered.find? (·.id == id) with
    | some m => rfl
    | none => cases d.retired.find? (·.id == id) <;> rfl
  · simp [own]

theorem id_of_mailbox? (found : (d.slot id).mailbox? = some m) : m.id = id := by
  rw [← find?_eq, find?] at found
  simpa using List.find?_some found

theorem receive_eq (d : Registry α) (id : Nat) :
    (d.receive id).1 = ((d.slot id).mailbox?.map fun m => m.notices.receive.1).getD .ended := by
  rw [receive, find?_eq]
  cases (d.slot id).mailbox? <;> rfl

theorem receiveError_eq (d : Registry α) (id : Nat) :
    (d.receiveError id).1 = ((d.slot id).mailbox?.map fun m => m.errors.receive.1).getD .ended := by
  rw [receiveError, find?_eq]
  cases (d.slot id).mailbox? <;> rfl

/-- An update changes the mailbox of one slot and no other slot. -/
theorem slot_update_found {f : Mailbox α → Mailbox α} (same : ∀ m, (f m).id = m.id)
    (found : (d.slot i).mailbox? = some m) :
    (d.update (f m)).slot id = if i = id then (d.slot id).map f else d.slot id := by
  rw [slot_update, same, id_of_mailbox? found]
  by_cases own : i = id
  · subst own
    rw [if_pos rfl, if_pos rfl]
    cases stood : d.slot i <;> simp_all [Slot.mailbox?, Slot.map]
  · rw [if_neg own, if_neg own]

theorem map_of_not_found {f : Mailbox α → Mailbox α} (none : (d.slot i).mailbox? = none) :
    d.slot id = if i = id then (d.slot id).map f else d.slot id := by
  split
  · subst i
    cases stood : d.slot id <;> simp_all [Slot.mailbox?, Slot.map]
  · rfl

theorem slot_receive (d : Registry α) (i id : Nat) :
    (d.receive i).2.slot id = if i = id then (d.slot id).map Mailbox.pop else d.slot id := by
  rw [receive, find?_eq]
  cases found : (d.slot i).mailbox? with
  | none => exact map_of_not_found found
  | some m => exact slot_update_found (f := Mailbox.pop) (fun _ => rfl) found

theorem slot_receiveError (d : Registry α) (i id : Nat) :
    (d.receiveError i).2.slot id = if i = id then (d.slot id).map Mailbox.popError else d.slot id := by
  rw [receiveError, find?_eq]
  cases found : (d.slot i).mailbox? with
  | none => exact map_of_not_found found
  | some m => exact slot_update_found (f := Mailbox.popError) (fun _ => rfl) found

theorem Tidy.receive (h : d.Tidy bound) (i : Nat) : (d.receive i).2.Tidy bound := by
  rw [Registry.receive]
  split
  · exact h
  · exact h.update _

theorem Tidy.receiveError (h : d.Tidy bound) (i : Nat) : (d.receiveError i).2.Tidy bound := by
  rw [Registry.receiveError]
  split
  · exact h
  · exact h.update _

theorem slot_remove (h : d.Tidy bound) (i id : Nat) :
    (d.remove i).2.slot id = if i = id then (d.slot id).close else d.slot id := by
  rw [slot, slot, remove]
  dsimp only
  rw [List.find?_append, List.find?_map]
  by_cases own : i = id
  · subst own
    have none_left : (d.registered.filter (·.id != i)).find? (·.id == i) = none := by
      simp [List.find?_eq_none]
    have closed : (d.registered.filter (·.id == i)).find? ((·.id == i) ∘ Mailbox.close) =
        d.registered.find? (·.id == i) := by
      rw [List.find?_filter]
      refine congrArg (List.find? · d.registered) (funext fun m => ?_)
      by_cases same : m.id = i <;> simp [same]
    rw [if_pos rfl, none_left, closed]
    cases found : d.registered.find? (·.id == i) with
    | some m =>
        rw [h.retired_eq_none found]
        rfl
    | none => cases d.retired.find? (·.id == i) <;> rfl
  · have kept : (d.registered.filter (·.id != i)).find? (·.id == id) = d.registered.find? (·.id == id) := by
      rw [List.find?_filter]
      refine congrArg (List.find? · d.registered) (funext fun m => ?_)
      by_cases same : m.id = id
      · simp [same, Ne.symm own]
      · simp [same]
    have none_closed : (d.registered.filter (·.id == i)).find? ((·.id == id) ∘ Mailbox.close) = none := by
      refine List.find?_eq_none.mpr fun m mem => ?_
      have other : m.id = i := by simpa using (List.mem_filter.mp mem).2
      simpa [Mailbox.close, other] using own
    rw [if_neg own, kept, none_closed]
    simp

theorem slot_clear (h : d.Tidy bound) (id : Nat) : d.clear.2.slot id = (d.slot id).close := by
  have closed : ((·.id == id) ∘ Mailbox.close : Mailbox α → Bool) = (·.id == id) := rfl
  rw [slot, slot, clear]
  dsimp only
  rw [List.find?_append, List.find?_map, closed]
  cases found : d.registered.find? (·.id == id) with
  | some m =>
      rw [h.retired_eq_none found]
      rfl
  | none => cases d.retired.find? (·.id == id) <;> rfl

theorem slot_forget (d : Registry α) (i id : Nat) :
    (d.forget i).slot id = if i = id then (d.slot id).forget else d.slot id := by
  rw [slot, slot, forget]
  dsimp only
  by_cases own : i = id
  · subst own
    have none_left : (d.retired.filter (·.id != i)).find? (·.id == i) = none := by
      simp [List.find?_eq_none]
    rw [if_pos rfl, none_left]
    cases d.registered.find? (·.id == i) with
    | some m => rfl
    | none => cases d.retired.find? (·.id == i) <;> rfl
  · have kept : (d.retired.filter (·.id != i)).find? (·.id == id) = d.retired.find? (·.id == id) := by
      rw [List.find?_filter]
      refine congrArg (List.find? · d.retired) (funext fun m => ?_)
      by_cases same : m.id = id
      · simp [same, Ne.symm own]
      · simp [same]
    rw [if_neg own, kept]

end Registry

end Chainwatch
