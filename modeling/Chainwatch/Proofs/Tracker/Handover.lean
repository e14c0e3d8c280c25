import Chainwatch.Proofs.Tracker.Replay

/-!
# The hand-over from the backfill to the watch

The watch confirms from the block that the first live one makes final, and the backfill confirms what lies
below that and only observes the rest. Once the backfill is done nothing between them is missing, and in a
run without failures every block from the lowest to the last live one is stored, and confirmed exactly if
it is final.
-/

namespace Chainwatch

variable {S : Type} [BlockStore S] [LawfulStore S] {o : Outset S} {troubled : Prop} {t : Tracker S}
  {m : Mark} {first last : UInt64}

/-- The watch has processed the live blocks from the first to the last and waits for the next. -/
structure Outset.HasWatched (o : Outset S) (t : Tracker S) (first last : UInt64) : Prop where
  listening : ∃ (id : Nat) (session : Session), t.tasks[id]? = some (.watching session .listening)
  met : (t.lives o.run).head? = some first
  processed : (t.lives o.run).getLast? = some last

/-- The start succeeded, and the backfill it launched has ended. -/
structure Outset.SweepEnded (o : Outset S) (t : Tracker S) : Prop where
  started : t.outcome? o.starter = some (.ok ())
  ended : ∀ {id : Nat} {session : Session} {last : UInt64} {point : SweepPoint},
    t.tasks[id]? ≠ some (.sweeping session last point)

/-- The backfill has ended, and the watch has processed the live blocks from the first to the last. -/
structure Outset.CaughtUp (o : Outset S) (t : Tracker S) (first last : UInt64) : Prop
    extends o.SweepEnded t, o.HasWatched t first last

def Outset.hasCaughtUp (o : Outset S) (t : Tracker S) (first last : UInt64) : Bool :=
  (match t.outcome? o.starter with
    | some (.ok _) => true
    | _ => false) &&
  t.tasks.all (fun | .sweeping _ _ _ => false | _ => true) &&
  t.tasks.any (fun | .watching _ .listening => true | _ => false) &&
  (t.lives o.run).head? == some first && (t.lives o.run).getLast? == some last

theorem Outset.caughtUp_of_hasCaughtUp (h : o.hasCaughtUp t first last) : o.CaughtUp t first last := by
  simp only [hasCaughtUp, Bool.and_eq_true, beq_iff_eq, List.all_eq_true, List.any_eq_true] at h
  obtain ⟨⟨⟨⟨started, ended⟩, task, mem, listens⟩, met⟩, processed⟩ := h
  refine ⟨⟨?_, ?_⟩, ?_, met, processed⟩
  · split at started
    · assumption
    · cases started
  · intro id session last point found
    exact Bool.false_ne_true (ended _ (List.mem_of_getElem? found))
  · split at listens
    · obtain ⟨id, found⟩ := List.mem_iff_getElem?.mp mem
      exact ⟨id, _, found⟩
    · cases listens

/-- A block becomes final when it has as many successors as the threshold asks for. -/
def Outset.IsFinal (o : Outset S) (number last : UInt64) : Prop :=
  number.toNat + o.plan.threshold.toNat ≤ last.toNat

namespace RunAt

/-- The backfill of a successful start is complete if it has ended and the run is not over. -/
theorem isSwept (h : RunAt o troubled none t m) (swept : o.SweepEnded t)
    (running : t.isOver o.run = false) : m.sweep ≠ none ∧ m.IsSwept := by
  obtain ⟨task, found, starter⟩ := h.starter
  have started := swept.started
  unfold Tracker.outcome? at started
  rw [found] at started
  have launched : m.sweep ≠ none := by
    cases task with
    | ended outcome =>
        cases started
        exact starter
    | _ => cases started
  refine ⟨launched, ?_⟩
  obtain ⟨id, place⟩ := Option.ne_none_iff_exists'.mp launched
  rcases h.swept place with ⟨session, last, point, going⟩ | ceased | done
  · exact (swept.ended going).elim
  · rw [running] at ceased
    cases ceased
  · exact done

/-- A complete backfill has reached the first live block. One that ends at block zero does nothing, so
that the first live block must come later or not above the lowest one. -/
theorem reached (h : RunAt o troubled none t m) (swept : m.IsSwept) (known : m.first = first.toNat)
    (range : 2 ≤ first ∨ first ≤ o.plan.lowest) : m.first ≤ m.pos := by
  rcases swept with early | reached
  · have bottom := h.storeAt.bottom
    rcases range with late | low
    · have late : 2 ≤ first.toNat := UInt64.le_iff_toNat_le.mp late
      omega
    · have low := UInt64.le_iff_toNat_le.mp low
      omega
  · exact reached

theorem counts (h : RunAt o troubled none t m) (watched : o.HasWatched t first last) :
    m.first = first.toNat ∧ m.seen = last.toNat + 1 ∧ m.done = last.toNat + 1 := by
  obtain ⟨⟨id, session, found⟩, met, processed⟩ := watched
  obtain ⟨-, -, seen, done⟩ := h.tasks (by simp) found
  have done := done processed
  exact ⟨h.storeAt.head met, seen.trans done, done⟩

variable {number : UInt64}

/-- The confirmed blocks of a run that has caught up. -/
theorem isConfirmed_iff (h : RunAt o troubled none t m) (watched : o.HasWatched t first last)
    (reached : m.first ≤ m.pos) (number : UInt64) :
    (LawfulStore.view t.ledger.store).isConfirmed o.chain.id number ↔
      o.plan.before.isConfirmed o.chain.id number ∨
        o.IsFinal number last ∧
          (o.plan.lowest ≤ number ∨ first.toNat ≤ number.toNat + o.plan.threshold.toNat) := by
  obtain ⟨known, -, done⟩ := h.counts watched
  have order := h.storeAt.order
  apply (h.storeAt.covers.confirmed number).trans
  unfold Outset.IsFinal
  rw [UInt64.le_iff_toNat_le]
  constructor
  · intro h
    rcases h with before | range | range
    · exact Or.inl before
    · exact Or.inr ⟨by omega, Or.inl (by omega)⟩
    · exact Or.inr ⟨by omega, Or.inr (by omega)⟩
  · intro h
    rcases h with before | ⟨final, place⟩
    · exact Or.inl before
    · by_cases early : number.toNat + o.plan.threshold.toNat < m.first
      · exact Or.inr (Or.inl ⟨by omega, by omega, early⟩)
      · exact Or.inr (Or.inr ⟨by omega, by omega⟩)

theorem isStored (h : RunAt o troubled none t m) (watched : o.HasWatched t first last)
    (reached : m.first ≤ m.pos) (low : o.plan.lowest ≤ number) (high : number ≤ last) :
    (LawfulStore.view t.ledger.store).isStored o.chain.id number := by
  obtain ⟨-, seen, -⟩ := h.counts watched
  have low := UInt64.le_iff_toNat_le.mp low
  have high := UInt64.le_iff_toNat_le.mp high
  by_cases live : m.first ≤ number.toNat
  · exact h.storeAt.covers.seen number live (by omega)
  · exact h.storeAt.covers.swept number low (by omega)

end RunAt

/-- In a run without failures and stops, over a store without confirmed blocks from the lowest on: every
block from the lowest to the last live one is stored once, with the hash of the chain, and is confirmed
exactly if it is final; and no failure is reported. -/
theorem no_gap_of_caughtUp (wanted : o.tracker.isCancelled o.context = false)
    (unconfirmed : ∀ number, o.plan.lowest ≤ number → ¬o.plan.before.isConfirmed o.chain.id number)
    (history : Tracker.Reaches (o.Allows False) o.begun t) (caught : o.CaughtUp t first last)
    (range : 2 ≤ first ∨ first ≤ o.plan.lowest) :
    (∀ number, o.plan.lowest ≤ number → number ≤ last →
      ∃ head, BlockStore.heads t.ledger.store { chain := some o.chain.id, number := some number } = .ok [head] ∧
        head.hash = (o.chain.block number).hash ∧ (head.state = .confirmed ↔ o.IsFinal number last)) ∧
      ∀ cause, Signal.failure o.run cause ∉ t.ledger.outlet.signals := by
  obtain ⟨-, m, runAt⟩ := o.reaches (fun _ => wanted) history
  obtain ⟨running, -, -, silent⟩ := runAt.faultFree id
  have swept := (runAt.isSwept caught.toSweepEnded running).2
  have watched := caught.toHasWatched
  have reached := runAt.reached swept (runAt.storeAt.head caught.met) range
  constructor
  · intro number low high
    obtain ⟨head, found, hash⟩ :=
      View.Carries.holds runAt.storeAt.carries (runAt.isStored watched reached low high)
    have found : (LawfulStore.view t.ledger.store).headAt? o.chain.id number = some head := found
    refine ⟨head, ?_, hash, ?_⟩
    · rw [LawfulStore.heads_number o.chain.id number runAt.storeAt.sound]
      exact congrArg (fun head : Option Head => Except.ok head.toList) found
    · have confirmed := runAt.isConfirmed_iff watched reached number
      rw [View.isConfirmed_iff, found] at confirmed
      constructor
      · intro state
        rcases confirmed.mp ⟨head, rfl, state⟩ with before | ⟨final, -⟩
        · exact (unconfirmed number low before).elim
        · exact final
      · intro final
        obtain ⟨other, same, state⟩ := confirmed.mpr (Or.inr ⟨final, Or.inl low⟩)
        cases same
        exact state
  · intro cause told
    exact silent (List.mem_filter.mpr ⟨told, rfl⟩)

/-- A run in which the third block is the first live one, and a block is final when one follows it. -/
def handoverOutset : Outset NestedStore := plainOutset { confirmations := some 1 }

/-- The watch and the backfill of that run take turns. -/
def handoverMoves : List Move :=
  [.resume 0 .go, .resume 0 (.chain (.ok 1)), .resume 0 (.stored none), .resume 1 .go,
    .resume 1 (.subscribed (.ok ())), .resume 1 (.arrival (some (.ok (plainChain.block 2)))),
    .resume 0 .go, .resume 2 .go, .resume 2 (.header (.ok (plainChain.block 0))),
    .resume 1 (.stored none), .resume 2 (.stored none), .resume 1 (.header (.ok (plainChain.block 1))),
    .resume 2 (.header (.ok (plainChain.block 1))), .resume 1 (.stored none), .resume 2 (.stored none)]

theorem no_gap_of_caughtUp_third_block : ∃ t, handoverOutset.CaughtUp t 2 2 ∧
    (∀ number, handoverOutset.plan.lowest ≤ number → number ≤ 2 →
      ∃ head, BlockStore.heads t.ledger.store { chain := some 1, number := some number } = .ok [head] ∧
        head.hash = (plainChain.block number).hash ∧
          (head.state = .confirmed ↔ handoverOutset.IsFinal number 2)) ∧
      ∀ cause, Signal.failure 0 cause ∉ t.ledger.outlet.signals := by
  have caught : handoverOutset.CaughtUp (handoverOutset.played false handoverMoves) 2 2 :=
    Outset.caughtUp_of_hasCaughtUp (by decide +kernel)
  have unconfirmed : ∀ number, handoverOutset.plan.lowest ≤ number →
      ¬handoverOutset.plan.before.isConfirmed handoverOutset.chain.id number := by
    intro number _ confirmed
    cases confirmed
  exact ⟨_, caught, no_gap_of_caughtUp rfl unconfirmed (handoverOutset.reaches_played false Bool.false_ne_true _)
    caught (Or.inl (by decide))⟩

end Chainwatch
