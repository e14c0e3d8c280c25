import Chainwatch.Proofs.Tracker.Handover
import Chainwatch.Proofs.Tracker.TaskSteps

/-!
# The blocks that a run processes

A run observes what lies between its lowest block, or its first live one, and the last live block, and
confirms what is final there. Every task at work is on one of these blocks.
-/

namespace Chainwatch

/-- These are the first and the last of the live blocks. -/
structure Spans (lives : List UInt64) (first last : UInt64) : Prop where
  head : lives.head? = some first
  last : lives.getLast? = some last

theorem spans_of_last {lives : List UInt64} {last : UInt64} (found : lives.getLast? = some last) :
    ∃ first, Spans lives first last := by
  cases lives with
  | nil => cases found
  | cons first rest => exact ⟨first, rfl, found⟩

theorem Spans.unique {lives : List UInt64} {first last first' last' : UInt64} (h : Spans lives first last)
    (g : Spans lives first' last') : first = first' ∧ last = last' :=
  ⟨Option.some.inj (h.head.symm.trans g.head), Option.some.inj (h.last.symm.trans g.last)⟩

namespace Outset

variable {S : Type} [BlockStore S] [LawfulStore S] (o : Outset S)

/-- With these first and last live blocks, the run observes the number. -/
def Observes (first last number : UInt64) : Prop :=
  o.plan.lowest ≤ number ∧ number < first ∨ first ≤ number ∧ number ≤ last

/-- With these first and last live blocks, the run confirms the number. -/
def Confirms (first last number : UInt64) : Prop :=
  o.plan.lowest ≤ number ∧ number.toNat + o.plan.threshold.toNat < first.toNat ∨
    first.toNat ≤ number.toNat + o.plan.threshold.toNat ∧ o.IsFinal number last

instance (first last number : UInt64) : Decidable (o.Observes first last number) :=
  inferInstanceAs (Decidable (_ ∨ _))

instance (number last : UInt64) : Decidable (o.IsFinal number last) :=
  inferInstanceAs (Decidable (_ ≤ _))

instance (first last number : UInt64) : Decidable (o.Confirms first last number) :=
  inferInstanceAs (Decidable (_ ∨ _))

/-- The run may have observed the number, with these live blocks so far. -/
def MayObserve (lives : List UInt64) (number : UInt64) : Prop :=
  ∃ first last, Spans lives first last ∧ o.Observes first last number

/-- The run may have confirmed the number, with these live blocks so far. -/
def MayConfirm (lives : List UInt64) (number : UInt64) : Prop :=
  ∃ first last, Spans lives first last ∧ o.Confirms first last number

variable {o} {lives : List UInt64} {first last live number : UInt64}

theorem spans_append (spans : Spans lives first last)
    (next : ∀ {last : UInt64}, lives.getLast? = some last → live.toNat = last.toNat + 1) :
    Spans (lives ++ [live]) first live ∧ live.toNat = last.toNat + 1 := by
  refine ⟨⟨?_, List.getLast?_concat⟩, next spans.last⟩
  rw [List.head?_append, spans.head]
  rfl

theorem MayObserve.append (h : o.MayObserve lives number)
    (next : ∀ {last : UInt64}, lives.getLast? = some last → live.toNat = last.toNat + 1) :
    o.MayObserve (lives ++ [live]) number := by
  obtain ⟨first, last, spans, place⟩ := h
  obtain ⟨spans, runAt⟩ := spans_append spans next
  refine ⟨first, live, spans, place.imp_right fun range => ⟨range.1, ?_⟩⟩
  have high := UInt64.le_iff_toNat_le.mp range.2
  rw [UInt64.le_iff_toNat_le]
  omega

theorem MayConfirm.append (h : o.MayConfirm lives number)
    (next : ∀ {last : UInt64}, lives.getLast? = some last → live.toNat = last.toNat + 1) :
    o.MayConfirm (lives ++ [live]) number := by
  obtain ⟨first, last, spans, place⟩ := h
  obtain ⟨spans, runAt⟩ := spans_append spans next
  refine ⟨first, live, spans, place.imp_right fun range => ⟨range.1, ?_⟩⟩
  have final : number.toNat + o.plan.threshold.toNat ≤ last.toNat := range.2
  unfold IsFinal
  omega

theorem MayObserve.observes (h : o.MayObserve lives number) (spans : Spans lives first last) :
    o.Observes first last number := by
  obtain ⟨_, _, spans', observes⟩ := h
  obtain ⟨rfl, rfl⟩ := spans.unique spans'
  exact observes

theorem MayConfirm.confirms (h : o.MayConfirm lives number) (spans : Spans lives first last) :
    o.Confirms first last number := by
  obtain ⟨_, _, spans', confirms⟩ := h
  obtain ⟨rfl, rfl⟩ := spans.unique spans'
  exact confirms

variable (o)

/-- The work is on a block that the run observes or confirms. -/
structure IsAtWork (t : Tracker S) (number : UInt64) (confirms : Bool) (work : Work) : Prop where
  on : work.IsOn o.chain number confirms
  stored : work.isWritten → (LawfulStore.view t.ledger.store).isStored o.chain.id number
  observes : confirms = false → o.MayObserve (t.lives o.run) number
  finalizes : confirms = true → o.MayConfirm (t.lives o.run) number

end Outset

namespace RunAt

variable {S : Type} [BlockStore S] [LawfulStore S] {o : Outset S} {troubled : Prop} {t : Tracker S} {m : Mark}
  {id : Nat} {live : Header} {last number : UInt64} {work : Work}

theorem observes_live (h : RunAt o troubled none t m) (done : m.done = live.number.toNat)
    (met : (t.lives o.run).getLast? = some live.number) : o.MayObserve (t.lives o.run) live.number := by
  obtain ⟨first, spans⟩ := spans_of_last met
  refine ⟨first, live.number, spans, Or.inr ⟨?_, UInt64.le_refl _⟩⟩
  rw [UInt64.le_iff_toNat_le, ← h.storeAt.head spans.head, ← done]
  exact h.storeAt.order

/-- The block that a live one makes final is confirmed by the run. -/
theorem confirms_target (h : RunAt o troubled none t m) (known : m.first ≤ live.number.toNat)
    (met : (t.lives o.run).getLast? = some live.number) (final : o.plan.threshold ≤ live.number) :
    o.MayConfirm (t.lives o.run) (live.number - o.plan.threshold) := by
  obtain ⟨first, spans⟩ := spans_of_last met
  have target := target_toNat final
  refine ⟨first, live.number, spans, Or.inr ⟨?_, Nat.le_of_eq target⟩⟩
  rw [target, ← h.storeAt.head spans.head]
  exact known

/-- The block of a backfill is observed by the run, and confirmed if it is final before the first live one. -/
theorem reach_of_sweep (h : RunAt o troubled none t m) (sweep : m.sweep = some id)
    (bound : last.toNat = m.first - 1) (some : last ≠ 0) (low : o.plan.lowest ≤ number) (high : number ≤ last) :
    o.MayObserve (t.lives o.run) number ∧
      (Tracker.isSettledBy o.session last number → o.MayConfirm (t.lives o.run) number) := by
  have met : t.lives o.run ≠ [] := by
    intro none
    rw [(h.storeAt.unmet none).1] at sweep
    cases sweep
  obtain ⟨first, spans⟩ := spans_of_last (List.getLast?_eq_some_getLast met)
  have known := h.storeAt.head spans.head
  have positive : last.toNat ≠ 0 := fun zero => some (UInt64.toNat_inj.mp zero)
  have high := UInt64.le_iff_toNat_le.mp high
  constructor
  · refine ⟨first, _, spans, Or.inl ⟨low, ?_⟩⟩
    rw [UInt64.lt_iff_toNat_lt]
    omega
  · intro settled
    refine ⟨first, _, spans, Or.inl ⟨low, ?_⟩⟩
    have final : number.toNat + o.plan.threshold.toNat < m.first :=
      (Tracker.isSettledBy_iff o.session bound some).mp settled
    omega

/-- Every task at work is on a block that the run observes or confirms. -/
theorem isAtWork (h : RunAt o troubled none t m) {task : Task} {session : Session}
    (found : t.tasks[id]? = some task) (under : task.work? = some (session, work)) :
    session = o.session ∧ ∃ number confirms, o.IsAtWork t number confirms work := by
  have stands := h.tasks (by simp) found
  cases task with
  | watching other point =>
      cases point with
      | observing live work =>
          cases under
          obtain ⟨-, same, place⟩ := stands
          have stored := h.stored_observing place
          obtain ⟨met, on, done, -⟩ := place
          exact ⟨same, live.number, false, on, stored, fun _ => h.observes_live done met, by simp⟩
      | confirming live work =>
          cases under
          obtain ⟨-, same, place⟩ := stands
          have stored := h.stored_confirming place
          obtain ⟨met, final, known, on, -, -⟩ := place
          exact ⟨same, _, true, on, stored, by simp, fun _ => h.confirms_target known met final⟩
      | _ => cases under
  | sweeping other last point =>
      cases point with
      | working number work =>
          cases under
          obtain ⟨sweep, same, bound, place⟩ := stands
          have stored := h.stored_working place
          obtain ⟨some, low, high, on, -⟩ := place
          obtain ⟨observes, finalizes⟩ := h.reach_of_sweep sweep bound some low high
          exact ⟨same, number, _, on, stored, fun _ => observes, finalizes⟩
      | _ => cases under
  | starting context point => cases under
  | stopping point => cases under
  | ended outcome => cases under
  | crashed => cases under

end RunAt

end Chainwatch
