import Chainwatch.Proofs.Dispatcher.Registry

/-!
# Every subscription is closed once

Opening and closing consist of atomic steps, and those of several callers interleave arbitrarily: an id is
drawn and registered later, a mailbox is removed from the register and its queues are closed later. In
every state each id is reserved, registered or removed, and the step that removed it has reported it.
-/

namespace Chainwatch

/-! ## Parts of operations -/

/-- A dispatcher together with the operations that its callers have begun and not finished. -/
structure ConcurrentState where
  dispatcher : Dispatcher
  /-- The ids that were handed out and are not registered yet, with what they were handed out for. -/
  reserved : List (Nat × Target)
  /-- The ids that were taken off the register and whose queues are still open. -/
  closing : List Nat

/-- An atomic step, taken by any caller. -/
inductive AtomicStep where
  | whole (operation : Dispatcher.Operation)
  | reserve (target : Target)
  | enter (id : Nat)
  | take (id : Nat)
  | takeAll
  | shut (id : Nat)
  | release (owner : Subscription)

namespace ConcurrentState

def ofDispatcher (d : Dispatcher) : ConcurrentState := ⟨d, [], []⟩

def step (t : ConcurrentState) : AtomicStep → ConcurrentState
  | .whole operation => { t with dispatcher := t.dispatcher.perform operation }
  | .reserve target =>
    { t with
      dispatcher := { t.dispatcher with nextId := t.dispatcher.nextId + 1 }
      reserved := t.reserved ++ [(t.dispatcher.nextId, target)] }
  | .enter id =>
    match t.reserved.find? (·.1 == id) with
    | none => t
    | some (_, target) =>
      { t with dispatcher := t.dispatcher.enter id target, reserved := t.reserved.filter (·.1 != id) }
  | .take id =>
    { t with
      dispatcher := t.dispatcher.take id
      closing := t.closing ++ t.dispatcher.numbers.filter (· == id) }
  | .takeAll => { t with dispatcher := t.dispatcher.takeAll, closing := t.closing ++ t.dispatcher.numbers }
  | .shut id => { t with dispatcher := t.dispatcher.shut id, closing := t.closing.filter (· != id) }
  | .release owner => { t with dispatcher := t.dispatcher.release owner }

def run (t : ConcurrentState) (ops : List AtomicStep) : ConcurrentState :=
  ops.foldl step t

/-- The number of subscriptions that a step reports as ended. -/
def answer (t : ConcurrentState) : AtomicStep → Nat
  | .whole operation => t.dispatcher.answer operation
  | .take id => (t.dispatcher.contains id).toNat
  | .takeAll => t.dispatcher.headCount + t.dispatcher.eventCount
  | .reserve _ | .enter _ | .shut _ | .release _ => 0

def answerAll (t : ConcurrentState) : List AtomicStep → Nat
  | [] => 0
  | op :: ops => t.answer op + (t.step op).answerAll ops

/-- The ids that are registered before a step and not after it. -/
def removes (t : ConcurrentState) (op : AtomicStep) : List Nat :=
  t.dispatcher.numbers.filter fun id => !(t.step op).dispatcher.contains id

def removesAll (t : ConcurrentState) : List AtomicStep → List Nat
  | [] => []
  | op :: ops => t.removes op ++ (t.step op).removesAll ops

end ConcurrentState

def AtomicStep.opens : AtomicStep → Bool
  | .whole (.subscribe _) | .reserve _ => true
  | _ => false

namespace ConcurrentState

variable {t : ConcurrentState}

/-- The ids that were handed out, except those given up. -/
def allIds (t : ConcurrentState) : List Nat :=
  t.reserved.map (·.1) ++ (t.dispatcher.numbers ++ t.dispatcher.retiredIds)

def newIds (t : ConcurrentState) (op : AtomicStep) : List Nat :=
  if op.opens then [t.dispatcher.nextId] else []

structure Sound (t : ConcurrentState) : Prop where
  distinct : t.allIds.Nodup
  below : ∀ id ∈ t.allIds, id < t.dispatcher.nextId
  kept : t.dispatcher.Kept t.closing

theorem sound_make (capacity errorCapacity : Nat) : (ofDispatcher (.make capacity errorCapacity)).Sound where
  distinct := List.nodup_nil
  below := by simp [ofDispatcher, allIds, Dispatcher.numbers, Dispatcher.retiredIds, Dispatcher.make, Registry.empty,
    Registry.numbers, Registry.retiredIds]
  kept := ⟨Registry.kept_empty, Registry.kept_empty⟩

/-! ### One step -/

/-- The effect of a step on the ids: those on the register stay or are removed, and new ones are entered. -/
structure Passes (t : ConcurrentState) (op : AtomicStep) (stays : Nat → Bool) (entered : List Nat) : Prop where
  numbers : (t.step op).dispatcher.numbers.Perm (t.dispatcher.numbers.filter stays ++ entered)
  reserved : ((t.step op).reserved.map (·.1) ++ entered).Perm (t.reserved.map (·.1) ++ t.newIds op)
  retiredIds : (t.step op).dispatcher.retiredIds.Subperm
    (t.dispatcher.retiredIds ++ t.dispatcher.numbers.filter (!stays ·))
  answer : t.answer op = (t.dispatcher.numbers.filter (!stays ·)).length

theorem passes_none {op : AtomicStep} (numbers : (t.step op).dispatcher.numbers = t.dispatcher.numbers)
    (reserved : ((t.step op).reserved.map (·.1)) = t.reserved.map (·.1) ++ t.newIds op)
    (retiredIds : (t.step op).dispatcher.retiredIds.Subperm t.dispatcher.retiredIds) (answer : t.answer op = 0) :
    t.Passes op (fun _ => true) [] := by
  constructor
  · simp [numbers]
  · simp [reserved]
  · simpa using retiredIds
  · simp [answer]

theorem length_filter_beq {ids : List Nat} (distinct : ids.Nodup) (id : Nat) :
    (ids.filter (· == id)).length = (decide (id ∈ ids)).toNat := by
  rw [← List.countP_eq_length_filter, ← List.count, distinct.count]
  by_cases mem : id ∈ ids <;> simp [mem]

theorem passes_take (h : t.Sound) {op : AtomicStep} (id : Nat)
    (numbers : (t.step op).dispatcher.numbers = t.dispatcher.numbers.filter (· != id))
    (reserved : ((t.step op).reserved.map (·.1)) = t.reserved.map (·.1) ++ t.newIds op)
    (retiredIds : (t.step op).dispatcher.retiredIds.Subperm
      (t.dispatcher.retiredIds ++ t.dispatcher.numbers.filter (· == id)))
    (answer : t.answer op = (t.dispatcher.contains id).toNat) : t.Passes op (· != id) [] := by
  have own : (fun n => !(n != id)) = (· == id) := by
    funext n
    simp [bne]
  constructor
  · simp [numbers]
  · simp [reserved]
  · rwa [own]
  · have distinct : t.dispatcher.numbers.Nodup := (List.nodup_append.mp (List.nodup_append.mp h.distinct).2.1).1
    rw [own, length_filter_beq distinct, answer]
    congr 1
    rw [Bool.eq_iff_iff, Dispatcher.contains_iff, decide_eq_true_iff]

theorem exists_passes_subscribe (t : ConcurrentState) (target : Target) :
    ∃ stays entered, t.Passes (.whole (.subscribe target)) stays entered := by
  refine ⟨fun _ => true, [t.dispatcher.nextId], ?_, .refl _, ?_, ?_⟩
  · simp only [step, Dispatcher.perform, Dispatcher.subscribe_eq, List.filter_true]
    exact Dispatcher.numbers_enter ..
  · simp only [step, Dispatcher.perform, Dispatcher.subscribe_eq, Dispatcher.retiredIds_enter]
    exact (List.sublist_append_left ..).subperm
  · simp [ConcurrentState.answer, Dispatcher.answer]

theorem exists_passes_whole (h : t.Sound) (operation : Dispatcher.Operation) :
    ∃ stays entered, t.Passes (.whole operation) stays entered := by
  cases quiet : operation.isQuiet with
  | true =>
      have alike := Dispatcher.alike_perform (List.nodup_append.mp h.distinct).2.1 quiet
      refine ⟨_, _, passes_none alike.numbers ?_ (alike.retiredIds ▸ .refl _) ?_⟩
      · cases operation <;> simp_all [step, newIds, AtomicStep.opens, Dispatcher.Operation.isQuiet]
      · cases operation <;> simp_all [answer, Dispatcher.answer, Dispatcher.Operation.isQuiet]
  | false =>
      cases operation with
      | subscribe target => exact t.exists_passes_subscribe target
      | unsubscribe id =>
          refine ⟨_, _, passes_take h id ?_ (by simp [step, newIds, AtomicStep.opens]) ?_ ?_⟩
          · simp [step, Dispatcher.perform, Dispatcher.unsubscribe, Dispatcher.numbers]
          · exact (Dispatcher.retiredIds_unsubscribe _ id).subperm
          · rfl
      | drop owner =>
          refine ⟨_, _, passes_take h owner.id ?_ (by simp [step, newIds, AtomicStep.opens]) ?_ ?_⟩
          · simp only [step, Dispatcher.perform, Dispatcher.drop_eq, Dispatcher.numbers_release]
            simp [Dispatcher.unsubscribe, Dispatcher.numbers]
          · simp only [step, Dispatcher.perform, Dispatcher.drop_eq]
            exact (Dispatcher.retiredIds_release _ owner).subperm.trans
              (Dispatcher.retiredIds_unsubscribe _ owner.id).subperm
          · rfl
      | closeAll =>
          refine ⟨fun _ => false, [], ?_, ?_, ?_, ?_⟩
          · simp [step, Dispatcher.perform, Dispatcher.closeAll, Dispatcher.numbers]
          · simp [step, newIds, AtomicStep.opens]
          · simp only [step, Dispatcher.perform, Dispatcher.closeAll, Dispatcher.numbers, Dispatcher.retiredIds,
              Registry.retiredIds_clear, Bool.not_false, List.filter_true]
            exact (Dispatcher.perm_append_append_comm ..).subperm
          · simp [answer, Dispatcher.answer, Dispatcher.closeAll, Dispatcher.numbers, Registry.clear, Registry.numbers]
      | dispatchHead | dispatchEvents | broadcast | receive | receiveError => cases quiet

theorem exists_passes_enter (h : t.Sound) (id : Nat) : ∃ stays entered, t.Passes (.enter id) stays entered := by
  cases found : t.reserved.find? (·.1 == id) with
  | none =>
      have same : t.step (.enter id) = t := by simp [step, found]
      refine ⟨_, _, passes_none ?_ ?_ ?_ rfl⟩ <;> simp [same, newIds, AtomicStep.opens, List.Subperm.refl]
  | some guest =>
      obtain ⟨number, target⟩ := guest
      have own : number = id := by simpa using List.find?_some found
      have mem := List.mem_map_of_mem (f := (·.1)) (List.mem_of_find?_eq_some found)
      have distinct : (t.reserved.map (·.1)).Nodup := (List.nodup_append.mp h.distinct).1
      subst own
      have moved : t.step (.enter number) =
          { t with dispatcher := t.dispatcher.enter number target, reserved := t.reserved.filter (·.1 != number) } := by
        simp [step, found]
      refine ⟨fun _ => true, [number], ?_, ?_, ?_, ?_⟩
      · rw [moved, List.filter_true]
        exact Dispatcher.numbers_enter ..
      · have left : (t.reserved.filter (·.1 != number)).map (·.1) = (t.reserved.map (·.1)).erase number := by
          rw [distinct.erase_eq_filter]
          simp [List.filter_map, Function.comp_def]
        rw [moved, left]
        simp only [newIds, AtomicStep.opens, Bool.false_eq_true, if_false, List.append_nil]
        exact List.perm_append_comm.trans (List.perm_cons_erase mem).symm
      · rw [moved]
        simpa [Dispatcher.retiredIds_enter] using List.Subperm.refl _
      · simp [answer]

theorem exists_passes (h : t.Sound) (op : AtomicStep) : ∃ stays entered, t.Passes op stays entered := by
  cases op with
  | whole operation => exact exists_passes_whole h operation
  | reserve target =>
      refine ⟨_, _, passes_none rfl ?_ (.refl _) rfl⟩
      simp [step, newIds, AtomicStep.opens]
  | enter id => exact exists_passes_enter h id
  | take id =>
      refine ⟨_, _, passes_take h id ?_ (by simp [step, newIds, AtomicStep.opens]) ?_ rfl⟩
      · simp [step, Dispatcher.take, Dispatcher.numbers]
      · exact (Dispatcher.retiredIds_take _ id).subperm
  | takeAll =>
      refine ⟨fun _ => false, [], ?_, ?_, ?_, ?_⟩
      · simp [step, Dispatcher.takeAll, Dispatcher.numbers]
      · simp [step, newIds, AtomicStep.opens]
      · simp only [step, Dispatcher.takeAll, Dispatcher.numbers, Dispatcher.retiredIds, Registry.retiredIds_takeAll,
          Bool.not_false, List.filter_true]
        exact (Dispatcher.perm_append_append_comm ..).subperm
      · simp [answer, Dispatcher.headCount, Dispatcher.eventCount, Dispatcher.numbers, Registry.numbers]
  | shut id =>
      refine ⟨_, _, passes_none rfl ?_ ?_ rfl⟩
      · simp [step, newIds, AtomicStep.opens]
      · simp [step, Dispatcher.shut, Dispatcher.retiredIds, List.Subperm.refl]
  | release owner =>
      have retiredIds := (Dispatcher.retiredIds_release t.dispatcher owner).subperm
      refine ⟨_, _, passes_none (Dispatcher.numbers_release _ owner) ?_ retiredIds rfl⟩
      simp [step, newIds, AtomicStep.opens]

/-! ### Runs -/

section Step

variable {op : AtomicStep} {stays : Nat → Bool} {entered : List Nat}

theorem nextId_step (h : t.Sound) (op : AtomicStep) :
    (t.step op).dispatcher.nextId = t.dispatcher.nextId + (t.newIds op).length := by
  cases op with
  | whole operation =>
      cases quiet : operation.isQuiet with
      | true =>
          have alike := Dispatcher.alike_perform (List.nodup_append.mp h.distinct).2.1 quiet
          refine alike.next.trans ?_
          cases operation <;> simp_all [newIds, AtomicStep.opens, Dispatcher.Operation.isQuiet]
      | false =>
          cases operation with
          | subscribe target => cases target <;> rfl
          | drop owner => rcases owner with ⟨id, _ | _⟩ <;> rfl
          | unsubscribe | closeAll => rfl
          | dispatchHead | dispatchEvents | broadcast | receive | receiveError => cases quiet
  | enter id =>
      cases found : t.reserved.find? (·.1 == id) with
      | none => simp [ConcurrentState.step, found, newIds, AtomicStep.opens]
      | some guest =>
          rcases guest with ⟨number, _ | _⟩ <;>
            simp [ConcurrentState.step, found, newIds, AtomicStep.opens, Dispatcher.enter]
  | release owner => rcases owner with ⟨id, _ | _⟩ <;> rfl
  | reserve | take | takeAll | shut => rfl

theorem Sound.not_mem_entered (h : t.Sound) (passes : t.Passes op stays entered) {id : Nat}
    (mem : id ∈ t.dispatcher.numbers) : id ∉ entered := by
  intro enters
  have origin := (passes.reserved.mem_iff (a := id)).mp (List.mem_append_right _ enters)
  rcases List.mem_append.mp origin with comes | handed
  · exact (List.nodup_append.mp h.distinct).2.2 id comes id (List.mem_append_left _ mem) rfl
  · have below := h.below id (List.mem_append_right _ (List.mem_append_left _ mem))
    unfold newIds at handed
    split at handed
    · have next := List.mem_singleton.mp handed
      omega
    · cases handed

theorem removes_eq (h : t.Sound) (passes : t.Passes op stays entered) :
    t.removes op = t.dispatcher.numbers.filter (!stays ·) := by
  refine List.filter_congr fun id mem => ?_
  have fresh := h.not_mem_entered passes mem
  rw [Bool.not_inj_iff, Bool.eq_iff_iff, Dispatcher.contains_iff, passes.numbers.mem_iff, List.mem_append,
    List.mem_filter]
  simp [mem, fresh]

/-- A step reports as many subscriptions as it takes off the register. -/
theorem answer_eq (h : t.Sound) (op : AtomicStep) : t.answer op = (t.removes op).length := by
  obtain ⟨stays, entered, passes⟩ := exists_passes h op
  rw [removes_eq h passes, passes.answer]

/-- Conservation of ids in one step: those reserved, registered or removed afterwards are those of
before and the new ones. -/
theorem balance_step (h : t.Sound) (op : AtomicStep) :
    ((t.step op).reserved.map (·.1) ++ (t.step op).dispatcher.numbers ++ t.removes op).Perm
      (t.reserved.map (·.1) ++ t.dispatcher.numbers ++ t.newIds op) := by
  obtain ⟨stays, entered, passes⟩ := exists_passes h op
  rw [removes_eq h passes]
  -- counted per id: one that enters was reserved, and one that does not stay is removed
  refine List.perm_iff_count.mpr fun id => ?_
  have reserved := passes.reserved.count_eq id
  have numbers := passes.numbers.count_eq id
  have parted := (List.filter_append_perm stays t.dispatcher.numbers).count_eq id
  simp only [List.count_append] at *
  omega

theorem count_allIds_step (h : t.Sound) (op : AtomicStep) (id : Nat) :
    (t.step op).allIds.count id ≤ (t.allIds ++ t.newIds op).count id := by
  obtain ⟨stays, entered, passes⟩ := exists_passes h op
  -- no more than before, and fewer where the mailbox of a number is given up
  have reserved := passes.reserved.count_eq id
  have numbers := passes.numbers.count_eq id
  have retiredIds := passes.retiredIds.count_le id
  have parted := (List.filter_append_perm stays t.dispatcher.numbers).count_eq id
  simp only [allIds, List.count_append] at *
  omega

theorem kept_step (h : t.Sound) (op : AtomicStep) : (t.step op).dispatcher.Kept (t.step op).closing := by
  have kept := h.kept
  cases op with
  | whole operation =>
      cases quiet : operation.isQuiet with
      | true => exact (Dispatcher.alike_perform (List.nodup_append.mp h.distinct).2.1 quiet).kept kept
      | false =>
          cases operation with
          | subscribe target =>
              have next : Dispatcher.Kept { t.dispatcher with nextId := t.dispatcher.nextId + 1 } t.closing :=
                ⟨kept.heads, kept.events⟩
              simp only [ConcurrentState.step, Dispatcher.perform, Dispatcher.subscribe_eq]
              exact next.enter _ target
          | unsubscribe id => exact kept.unsubscribe id
          | drop owner =>
              simp only [ConcurrentState.step, Dispatcher.perform, Dispatcher.drop_eq]
              exact (kept.unsubscribe owner.id).release owner
          | closeAll => exact ⟨kept.heads.clear, kept.events.clear⟩
          | dispatchHead | dispatchEvents | broadcast | receive | receiveError => cases quiet
  | reserve target => exact ⟨kept.heads, kept.events⟩
  | enter id =>
      cases found : t.reserved.find? (·.1 == id) with
      | none => simpa [ConcurrentState.step, found] using kept
      | some guest => simpa [ConcurrentState.step, found] using kept.enter id guest.2
  | take id =>
      refine ⟨(kept.heads.take id).mono ?_, (kept.events.take id).mono ?_⟩ <;>
        simp [ConcurrentState.step, Dispatcher.numbers]
  | takeAll =>
      refine ⟨kept.heads.takeAll.mono ?_, kept.events.takeAll.mono ?_⟩ <;>
        simp [ConcurrentState.step, Dispatcher.numbers]
  | shut id => exact ⟨kept.heads.shut id, kept.events.shut id⟩
  | release owner => exact kept.release owner

theorem Sound.step (h : t.Sound) (op : AtomicStep) : (t.step op).Sound := by
  have fresh : (t.allIds ++ t.newIds op).Nodup := by
    refine List.nodup_append.mpr ⟨h.distinct, ?_, ?_⟩
    · unfold newIds
      split <;> simp
    · intro id mem other handed same
      have below := h.below id mem
      unfold newIds at handed
      split at handed <;> simp_all
  refine ⟨?_, ?_, kept_step h op⟩
  · refine List.nodup_iff_count_le_one.mpr fun id => ?_
    exact Nat.le_trans (count_allIds_step h op id) (List.nodup_iff_count_le_one.mp fresh id)
  · intro id mem
    have listed : id ∈ t.allIds ++ t.newIds op :=
      List.count_pos_iff.mp (Nat.lt_of_lt_of_le (List.count_pos_iff.mpr mem) (count_allIds_step h op id))
    rw [nextId_step h]
    rcases List.mem_append.mp listed with old | handed
    · exact Nat.lt_of_lt_of_le (h.below id old) (Nat.le_add_right ..)
    · unfold newIds at handed ⊢
      split at handed <;> simp_all

end Step

theorem Sound.run (h : t.Sound) (ops : List AtomicStep) : (t.run ops).Sound := by
  induction ops generalizing t with
  | nil => exact h
  | cons op ops ih => exact ih (h.step op)

theorem nextId_run (h : t.Sound) (ops : List AtomicStep) :
    (t.run ops).dispatcher.nextId = t.dispatcher.nextId + ops.countP AtomicStep.opens := by
  induction ops generalizing t with
  | nil => rfl
  | cons op ops ih =>
      have first := nextId_step h op
      have rest := ih (h.step op)
      simp only [run, List.foldl_cons] at *
      rw [rest, first, List.countP_cons, newIds]
      split
      · simp
        omega
      · simp

theorem newIds_append (h : t.Sound) (op : AtomicStep) (ops : List AtomicStep) :
    t.newIds op ++ List.range' (t.step op).dispatcher.nextId (ops.countP AtomicStep.opens) =
      List.range' t.dispatcher.nextId ((op :: ops).countP AtomicStep.opens) := by
  rw [nextId_step h, List.countP_cons, newIds]
  split
  · simp [List.range'_succ]
  · simp

/-- Conservation of ids over a run. -/
theorem balance_run (h : t.Sound) (ops : List AtomicStep) :
    ((t.run ops).reserved.map (·.1) ++ (t.run ops).dispatcher.numbers ++ t.removesAll ops).Perm
      (t.reserved.map (·.1) ++ t.dispatcher.numbers ++
        List.range' t.dispatcher.nextId (ops.countP AtomicStep.opens)) := by
  induction ops generalizing t with
  | nil => simp [run, removesAll]
  | cons op ops ih =>
      refine List.perm_iff_count.mpr fun id => ?_
      have first := (balance_step h op).count_eq id
      have rest := (ih (h.step op)).count_eq id
      simp only [← newIds_append h, run, List.foldl_cons, removesAll, List.count_append] at *
      omega

theorem answerAll_eq (h : t.Sound) (ops : List AtomicStep) : t.answerAll ops = (t.removesAll ops).length := by
  induction ops generalizing t with
  | nil => rfl
  | cons op ops ih =>
      rw [answerAll, removesAll, List.length_append, answer_eq h, ih (h.step op)]

theorem removesAll_append (t : ConcurrentState) (ops more : List AtomicStep) :
    t.removesAll (ops ++ more) = t.removesAll ops ++ (t.run ops).removesAll more := by
  induction ops generalizing t with
  | nil => rfl
  | cons op ops ih =>
      rw [List.cons_append, removesAll, removesAll, ih, List.append_assoc]
      rfl

end ConcurrentState

/-! ## Whole operations -/

namespace Dispatcher

/-- The atomic steps of an operation, in the order in which one caller takes them. -/
def parts (d : Dispatcher) : Operation → List AtomicStep
  | .subscribe target => [.reserve target, .enter d.nextId]
  | .unsubscribe id => .take id :: if d.contains id then [.shut id] else []
  | .drop owner => .take owner.id :: (if d.contains owner.id then [.shut owner.id] else []) ++ [.release owner]
  | .closeAll => .takeAll :: d.numbers.map .shut
  | operation => [.whole operation]

end Dispatcher

namespace ConcurrentState

theorem run_append (t : ConcurrentState) (ops more : List AtomicStep) : t.run (ops ++ more) = (t.run ops).run more :=
  List.foldl_append ..

theorem run_whole (d : Dispatcher) (operations : List Dispatcher.Operation) :
    (ofDispatcher d).run (operations.map .whole) = ofDispatcher (d.performAll operations) := by
  induction operations generalizing d with
  | nil => rfl
  | cons operation operations ih => exact ih (d.perform operation)

theorem run_shut (t : ConcurrentState) (ids : List Nat) : t.run (ids.map .shut) =
    { t with dispatcher := ids.foldl Dispatcher.shut t.dispatcher, closing := t.closing.filter (· ∉ ids) } := by
  induction ids generalizing t with
  | nil => simp [run]
  | cons id ids ih =>
      have rest := ih (t.step (.shut id))
      simp only [run, List.map_cons, List.foldl_cons] at *
      rw [rest]
      simp [step, List.filter_filter, Bool.and_comm, bne, beq_eq_decide]

theorem run_take (d : Dispatcher) (apart : (d.numbers ++ d.retiredIds).Nodup) (id : Nat) :
    (ofDispatcher d).run (.take id :: if d.contains id then [.shut id] else []) =
      ofDispatcher (d.unsubscribe id).2 := by
  rw [← Dispatcher.take_unsubscribe apart id]
  split
  · simp [run, step, ofDispatcher]
  · rename_i unknown
    have none_taken : d.numbers.filter (· == id) = [] := by
      refine List.filter_eq_nil_iff.mpr fun n mem own => unknown ?_
      rw [Dispatcher.contains_iff]
      exact beq_iff_eq.mp own ▸ mem
    simp [run, step, ofDispatcher, none_taken]

/-- Taken one after another by one caller, the steps of an operation have the effect of the operation. -/
theorem run_parts (d : Dispatcher) (sound : (ofDispatcher d).Sound) (operation : Dispatcher.Operation) :
    (ofDispatcher d).run (d.parts operation) = ofDispatcher (d.perform operation) := by
  have apart : (d.numbers ++ d.retiredIds).Nodup := (List.nodup_append.mp sound.distinct).2.1
  cases operation with
  | subscribe target => simp [Dispatcher.parts, run, step, ofDispatcher, Dispatcher.perform, Dispatcher.subscribe_eq]
  | unsubscribe id => exact run_take d apart id
  | drop owner =>
      rw [Dispatcher.parts, run_append, run_take d apart owner.id, Dispatcher.perform, Dispatcher.drop_eq]
      rfl
  | closeAll =>
      have closed := Dispatcher.takeAll_closeAll apart
      refine (run_shut ((ofDispatcher d).step .takeAll) d.numbers).trans ?_
      simp [step, ofDispatcher, closed, Dispatcher.perform]
  | dispatchHead | dispatchEvents | broadcast | receive | receiveError => rfl

end ConcurrentState

/-! ## Every subscription -/

/-- What is so after a run, of every subscription that it opened. -/
structure ClosesOnce (start : ConcurrentState) (ops : List AtomicStep) : Prop where
  /-- The numbers that are handed out follow one another, so none is used twice. -/
  next : (start.run ops).dispatcher.nextId = ops.countP AtomicStep.opens + 1
  /-- Each number handed out is on its way to the register, or on it, or was taken off it, once. -/
  accounted : ((start.run ops).reserved.map (·.1) ++ (start.run ops).dispatcher.numbers ++
    start.removesAll ops).Perm (List.range' 1 (ops.countP AtomicStep.opens))
  one_register : ∀ id, (start.run ops).dispatcher.heads.contains id = true →
    (start.run ops).dispatcher.events.contains id = false
  opened : ∀ s : Subscription, s.isRegistered (start.run ops).dispatcher = true →
    s.Accepts (start.run ops).dispatcher
  /-- A number that is not registered has closed queues, unless the step that closes them is still to come. -/
  closed : ∀ s : Subscription, s.isRegistered (start.run ops).dispatcher = false →
    s.id ∈ (start.run ops).closing ∨ s.Refuses (start.run ops).dispatcher
  stays_closed : ∀ id ∈ start.removesAll ops, ∀ more : List AtomicStep,
    (start.run (ops ++ more)).dispatcher.contains id = false
  /-- Unsubscribing reports an id as registered exactly if it takes the id off the register. -/
  answered : ∀ id, ((start.run ops).dispatcher.unsubscribe id).1 = true ↔
    (start.run ops).dispatcher.contains id = true ∧
      ((start.run ops).dispatcher.unsubscribe id).2.contains id = false
  /-- Every step answers how many numbers it took off the register. -/
  told : ∀ op, (start.run ops).answer op = ((start.run ops).removes op).length
  counted : ops.countP AtomicStep.opens = (start.run ops).reserved.length +
    ((start.run ops).dispatcher.headCount + (start.run ops).dispatcher.eventCount) + start.answerAll ops

namespace ConcurrentState

variable {start : ConcurrentState}

theorem fresh_balance (h : start.Sound) (fresh : start.allIds = []) (ops : List AtomicStep) :
    ((start.run ops).reserved.map (·.1) ++ (start.run ops).dispatcher.numbers ++ start.removesAll ops).Perm
      (List.range' start.dispatcher.nextId (ops.countP AtomicStep.opens)) := by
  simp only [allIds, List.append_eq_nil_iff] at fresh
  simpa [fresh] using balance_run h ops

/-- A number that was taken off the register is off it for good, since it is accounted for already. -/
theorem not_contains_of_removed (h : start.Sound) (fresh : start.allIds = []) {ops : List AtomicStep} {id : Nat}
    (removed : id ∈ start.removesAll ops) (more : List AtomicStep) :
    (start.run (ops ++ more)).dispatcher.contains id = false := by
  have distinct := (fresh_balance h fresh (ops ++ more)).nodup_iff.mpr (List.nodup_range' ..)
  rw [Bool.eq_false_iff, Ne, Dispatcher.contains_iff]
  intro registered
  refine (List.nodup_append.mp distinct).2.2 id (List.mem_append_right _ registered) id ?_ rfl
  rw [removesAll_append]
  exact List.mem_append_left _ removed

theorem closesOnce_of_fresh (h : start.Sound) (fresh : start.allIds = []) (next : start.dispatcher.nextId = 1)
    (ops : List AtomicStep) : ClosesOnce start ops where
  next := by rw [nextId_run h, next, Nat.add_comm]
  accounted := next ▸ fresh_balance h fresh ops
  one_register := by
    intro id heads
    rw [Bool.eq_false_iff, Ne, Registry.contains_iff]
    intro events
    have distinct := (List.nodup_append.mp (List.nodup_append.mp (h.run ops).distinct).2.1).1
    exact (List.nodup_append.mp distinct).2.2 id ((Registry.contains_iff _ id).mp heads) id events rfl
  opened _ registered := (h.run ops).kept.accepts registered
  closed _ off := (h.run ops).kept.refuses off
  stays_closed _ removed := not_contains_of_removed h fresh removed
  answered id := by
    rw [and_iff_left (Dispatcher.contains_unsubscribe _ id)]
    rfl
  told := answer_eq (h.run ops)
  counted := by
    have balanced := (fresh_balance h fresh ops).length_eq
    rw [answerAll_eq h]
    simp only [List.length_append, List.length_map, List.length_range'] at balanced
    rw [← balanced]
    simp [Dispatcher.numbers, Registry.numbers, Dispatcher.headCount, Dispatcher.eventCount]

end ConcurrentState

/-- Whatever callers do with a new dispatcher, with the parts of what they do in any order: every subscription that is
opened is closed at most once and then for good, its queues are open while it is registered, and what unsubscribing
and closing answer adds up to what was opened and is not registered. Among operations that are each done whole nothing
is ever on its way. -/
theorem subscriptions_close_once (capacity errorCapacity : Nat) :
    (∀ ops, ClosesOnce (.ofDispatcher (.make capacity errorCapacity)) ops) ∧
      ∀ operations, (ConcurrentState.ofDispatcher (.make capacity errorCapacity)).run (operations.map .whole) =
        .ofDispatcher ((Dispatcher.make capacity errorCapacity).performAll operations) :=
  ⟨ConcurrentState.closesOnce_of_fresh (ConcurrentState.sound_make capacity errorCapacity) rfl rfl,
    ConcurrentState.run_whole _⟩

end Chainwatch
