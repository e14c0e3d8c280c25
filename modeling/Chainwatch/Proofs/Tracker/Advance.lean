import Chainwatch.Proofs.Tracker.Follow

/-!
# The steps of a run

Each step of the watch, of the backfill and of the start takes a run from a mark to a mark. The watch
advances over the live blocks and what they make final, the backfill over the blocks below the first live
one.
-/

namespace Chainwatch

namespace Tracker

variable {S : Type}

theorem lastBefore_toNat (first : UInt64) : (lastBefore first).toNat = first.toNat - 1 := by
  unfold lastBefore
  split
  · rename_i zero
    simp [zero]
  · rename_i positive
    have differ : first.toNat ≠ 0 := fun zero => positive (UInt64.toNat_inj.mp zero)
    have le : (1 : UInt64) ≤ first := by
      rw [UInt64.le_iff_toNat_le, UInt64.toNat_one]
      omega
    rw [UInt64.toNat_sub_of_le _ _ le, UInt64.toNat_one]

theorem toNat_succ_of_lt {number last : UInt64} (less : number < last) : (number + 1).toNat = number.toNat + 1 := by
  have less := UInt64.lt_iff_toNat_lt.mp less
  have size := last.toNat_lt
  rw [UInt64.toNat_add, UInt64.toNat_one]
  omega

/-- Whether a backfill confirms a block is decided by the threshold alone. -/
theorem isSettledBy_iff_le (session : Session) (last number : UInt64) :
    isSettledBy session last number ↔ number.toNat + session.threshold.toNat ≤ last.toNat := by
  unfold isSettledBy split?
  split
  · rename_i reached
    rw [Option.any_some, decide_eq_true_eq, UInt64.le_iff_toNat_le, UInt64.toNat_sub_of_le _ _ reached]
    have reached := UInt64.le_iff_toNat_le.mp reached
    omega
  · rename_i missed
    have missed := UInt64.lt_iff_toNat_lt.mp (UInt64.not_le.mp missed)
    simp only [Option.any_none, Bool.false_eq_true, false_iff]
    omega

/-- A block below the first live one is settled exactly if the threshold makes it final. -/
theorem isSettledBy_iff (session : Session) {last number : UInt64} {first : Nat}
    (bound : last.toNat = first - 1) (some : last ≠ 0) :
    isSettledBy session last number ↔ number.toNat + session.threshold.toNat < first := by
  have positive : 0 < last.toNat := by
    have differ : last.toNat ≠ 0 := fun zero => some (UInt64.toNat_inj.mp zero)
    omega
  rw [isSettledBy_iff_le]
  omega

theorem beginWork_spec (t : Tracker S) (chain : ServedChain) (session : Session) (last number : UInt64) :
    (t.beginWork session last number (chain.block number)).1.IsOn chain number
        (isSettledBy session last number) false False ∧
      (t.beginWork session last number (chain.block number)).2.store = t.ledger.store ∧
      (t.beginWork session last number (chain.block number)).2.news = t.ledger.news := by
  unfold beginWork
  cases isSettledBy session last number with
  | true => exact Work.confirm_spec t.ledger chain number
  | false => exact ⟨Work.observe_spec t.ledger chain number, rfl, rfl⟩

end Tracker

variable {S : Type} [BlockStore S] [LawfulStore S] {o : Outset S} {troubled : Prop} {t u : Tracker S}
  {m : Mark} {id : Nat} {answer : Answer}

theorem Outset.Serves.isHonest (h : o.Serves t id answer) : answer.IsHonest := by
  cases answer with
  | stored fault => exact h
  | _ => trivial

theorem Outset.Serves.header_eq {header : Header} {number : UInt64} {task : Task}
    (h : o.Serves t id (.header (.ok header))) (found : t.tasks[id]? = some task)
    (waits : task.wait? = some (.node (.header number))) : header = o.chain.block number := by
  apply h rfl
  rw [Tracker.wait?, found]
  exact waits

/-- The step that launches the watch of the run. -/
structure Outset.LaunchesWatch (o : Outset S) (t u : Tracker S) : Prop where
  tasks : u.tasks = t.tasks ++ [.watching o.session .launched]
  store : u.ledger.store = t.ledger.store
  news : u.ledger.news = t.ledger.news
  cancelled : u.cancelled = t.cancelled
  settings : u.settings = t.settings
  startHeight : u.startHeight = t.startHeight
  launched : ∃ run, u.runs = t.runs ++ [run] ∧ run.context = o.context ∧ run.halted = false ∧ run.first = .awaited

namespace Outset.LaunchesWatch

theorem lives (h : o.LaunchesWatch t u) : u.lives o.run = t.lives o.run := by
  simp only [Tracker.lives, h.news]

theorem length_runs (h : o.LaunchesWatch t u) : u.runs.length = t.runs.length + 1 := by
  obtain ⟨run, runs, -⟩ := h.launched
  rw [runs, List.length_append]
  rfl

theorem first (h : o.LaunchesWatch t u) (early : t.runs.length = o.run) : u.first o.run = .awaited := by
  obtain ⟨run, runs, -, -, awaits⟩ := h.launched
  simp [Tracker.first, runs, ← early, awaits]

theorem faultFree (h : o.LaunchesWatch t u) (early : t.runs.length = o.run) (faultFree : t.FaultFree o.context o.run) :
    u.FaultFree o.context o.run := by
  obtain ⟨run, runs, context, halted, -⟩ := h.launched
  have wanted : u.isCancelled o.context = false := by
    unfold Tracker.isCancelled
    rw [h.cancelled]
    exact faultFree.wanted
  constructor
  · simp [Tracker.isOver, runs, ← early, halted, context, wanted]
  · exact wanted
  · simp [h.first early]
  · exact fun told => faultFree.silent (h.news ▸ told)

end Outset.LaunchesWatch

namespace RunAt

/-! ## Blocks that are in place -/

section Stored

variable {busy : Option Nat} {live : Header} {last number : UInt64} {work : Work}

theorem stored_observing (h : RunAt o troubled busy t m)
    (stands : (WatchPoint.observing live work).IsAt o m (t.lives o.run)) (written : work.isWritten) :
    (LawfulStore.view t.ledger.store).isStored o.chain.id live.number := by
  obtain ⟨-, -, done, seen⟩ := stands
  apply h.storeAt.covers.seen live.number (done ▸ h.storeAt.order)
  simp [seen, written]

theorem target_toNat {live threshold : UInt64} (final : threshold ≤ live) :
    (live - threshold).toNat + threshold.toNat = live.toNat := by
  rw [UInt64.toNat_sub_of_le _ _ final]
  exact Nat.sub_add_cancel (UInt64.le_iff_toNat_le.mp final)

theorem stored_confirming (h : RunAt o troubled busy t m)
    (stands : (WatchPoint.confirming live work).IsAt o m (t.lives o.run)) (written : work.isWritten) :
    (LawfulStore.view t.ledger.store).isStored o.chain.id (live.number - o.plan.threshold) := by
  obtain ⟨-, final, known, -, done, -⟩ := stands
  refine View.isStored_of_isConfirmed ((h.storeAt.covers.confirmed _).mpr (Or.inr (Or.inr ?_)))
  rw [target_toNat final]
  simp [done, written, known]

theorem stored_working (h : RunAt o troubled busy t m) (stands : (SweepPoint.working number work).IsAt o m last)
    (written : work.isWritten) : (LawfulStore.view t.ledger.store).isStored o.chain.id number := by
  obtain ⟨-, low, -, -, pos⟩ := stands
  apply h.storeAt.covers.swept number (UInt64.le_iff_toNat_le.mp low)
  simp [pos, written]

end Stored

/-! ## Watch -/

section Watch

variable {session : Session} {point : WatchPoint} {live : Header} {progress : Progress}

theorem listen (h : RunAt o troubled (some id) t m) (watch : m.watch = some id)
    (found : t.tasks[id]? = some (.watching session point))
    (last : (t.lives o.run).getLast? = some live.number) (done : m.done = live.number.toNat + 1)
    (seen : m.seen = live.number.toNat + 1) : RunAt o troubled none (t.listen id o.session) m := by
  refine h.put_watch found ⟨watch, rfl, seen.trans done.symm, ?_⟩
  intro number found
  rw [last] at found
  cases found
  exact done

theorem afterLive (h : RunAt o troubled (some id) t m) (watch : m.watch = some id)
    (found : t.tasks[id]? = some (.watching session point))
    (last : (t.lives o.run).getLast? = some live.number) (done : m.done = live.number.toNat)
    (seen : m.seen = live.number.toNat + 1) :
    ∃ n, RunAt o troubled none (t.afterLive id o.session live) n ∧ m.Grows n := by
  unfold Tracker.afterLive
  split
  · rename_i final
    have keepsRun : t.KeepsRun o.run (t.emit (.asked (.header (live.number - o.session.threshold)))) :=
      Tracker.keepsRun_emit rfl
    have last := (keepsRun.lives o.run).symm ▸ last
    exact ⟨m, (h.emit rfl).put_watch found ⟨watch, rfl, last, final, done, seen⟩, .refl⟩
  · rename_i early
    have met : t.lives o.run ≠ [] := by
      intro none
      rw [none] at last
      cases last
    have storeAt := h.storeAt.pass met (UInt64.lt_iff_toNat_lt.mp (UInt64.not_le.mp early)) done
    refine ⟨{ m with done := live.number.toNat + 1 }, ?_, m.grows_done _⟩
    have passed : RunAt o troubled (some id) t { m with done := live.number.toNat + 1 } :=
      h.watched watch rfl storeAt ⟨rfl, rfl, rfl, rfl⟩
    exact passed.listen watch found last rfl seen

theorem putObserving (h : RunAt o troubled (some id) t m) (watch : m.watch = some id)
    (found : t.tasks[id]? = some (.watching session point)) {written : Bool} {fault : Prop}
    (on : progress.IsOn o.chain live.number false written fault) (trouble : fault → troubled)
    (last : (t.lives o.run).getLast? = some live.number) (done : m.done = live.number.toNat)
    (seen : m.seen = live.number.toNat + written.toNat) :
    ∃ n, RunAt o troubled none (t.putObserving id o.session live progress) n ∧ m.Grows n := by
  cases progress with
  | waits work =>
      rcases on with ⟨on, rfl⟩
      exact ⟨m, h.put_watch found ⟨watch, rfl, last, on, done, seen⟩, .refl⟩
  | finished =>
      cases on
      exact h.afterLive watch found last done seen
  | failed e => exact ⟨m, h.failWatch (trouble on) (by simp [watch]) found e, .refl⟩
  | crashed => exact on.elim

theorem putConfirming (h : RunAt o troubled (some id) t m) (watch : m.watch = some id)
    (found : t.tasks[id]? = some (.watching session point)) {written : Bool} {fault : Prop}
    (final : o.plan.threshold ≤ live.number) (known : m.first ≤ live.number.toNat)
    (on : progress.IsOn o.chain (live.number - o.plan.threshold) true written fault)
    (trouble : fault → troubled) (last : (t.lives o.run).getLast? = some live.number)
    (done : m.done = live.number.toNat + written.toNat) (seen : m.seen = live.number.toNat + 1) :
    ∃ n, RunAt o troubled none (t.putConfirming id o.session live progress) n ∧ m.Grows n := by
  cases progress with
  | waits work =>
      rcases on with ⟨on, rfl⟩
      exact ⟨m, h.put_watch found ⟨watch, rfl, last, final, known, on, done, seen⟩, .refl⟩
  | finished =>
      cases on
      exact ⟨m, h.listen watch found last done seen, .refl⟩
  | failed e => exact ⟨m, h.failWatch (trouble on) (by simp [watch]) found e, .refl⟩
  | crashed => exact on.elim

theorem met_of_last (last : (t.lives o.run).getLast? = some live.number) : t.lives o.run ≠ [] := by
  intro none
  rw [none] at last
  cases last

/-- Taking up a live block brings the run to the mark `Mark.meet`. -/
theorem meetLive (h : RunAt o troubled (some id) t m) (watch : m.watch = some id)
    (found : t.tasks[id]? = some (.watching session point)) (idle : m.seen = m.done)
    (last : ∀ {last : UInt64}, (t.lives o.run).getLast? = some last → m.done = last.toNat + 1)
    (same : live = o.chain.block live.number)
    (next : ∀ {last : UInt64}, (t.lives o.run).getLast? = some last → live.number.toNat = last.toNat + 1) :
    ∃ n, RunAt o troubled none (t.meetLive id o.session live) n ∧ m.Grows n := by
  have taken := h.recordsLive (by simp [watch]) live.number
  obtain ⟨storeAt, seen, done⟩ := h.storeAt.meet idle last next
  have met := h.of_recordsLive watch taken storeAt
  have found := (congrArg (·[id]?) taken.keeps.tasks).trans found
  have ends : (((t.emit (.live o.run live.number)).settle o.run (.arrived live.number)).lives
      o.run).getLast? = some live.number := by
    rw [taken.lives, List.getLast?_concat]
  have on := Work.observe_spec ((t.emit (.live o.run live.number)).settle o.run (.arrived live.number)).ledger
    o.chain live.number
  rw [← same] at on
  obtain ⟨n, runAt, grows⟩ := met.putObserving ((m.meet_watch ..).trans watch) found on False.elim ends done
    seen
  refine ⟨n, runAt, Mark.Grows.trans ⟨Nat.le_of_eq (m.meet_pos ..).symm, ?_⟩ grows⟩
  exact fun going => ⟨m.meet_sweep .., by rw [h.storeAt.meet_of_sweep going]⟩

theorem observing {work : Work} {ledger : Ledger S} (h : RunAt o troubled (some id) t m)
    (watch : m.watch = some id) (found : t.tasks[id]? = some (.watching session point))
    (stands : (WatchPoint.observing live work).IsAt o m (t.lives o.run)) (honest : answer.IsHonest)
    (trouble : answer.IsFault → troubled)
    (moved : work.resume? o.session t.ledger answer = some (progress, ledger)) :
    ∃ n, RunAt o troubled none (Tracker.putObserving { t with ledger } id o.session live progress) n ∧
      m.Grows n := by
  have stored := h.stored_observing stands
  obtain ⟨last, on, done, seen⟩ := stands
  obtain ⟨written, advances, on⟩ :=
    Work.resume?_spec (rfl : o.session.chain = o.chain.id) h.storeAt.sound h.storeAt.carries on stored honest moved
  have storeAt := h.storeAt.observe (met_of_last last) advances seen
  have runAt := h.watched watch advances.news storeAt ⟨rfl, rfl, rfl, rfl⟩
  have last := (Tracker.lives_ledger advances.news o.run).symm ▸ last
  obtain ⟨n, runAt, grows⟩ := runAt.putObserving watch found on trouble last done rfl
  exact ⟨n, runAt, (m.grows_seen _).trans grows⟩

/-- A step of confirming the block that a live block makes final preserves the invariant of the run. -/
theorem confirming {work : Work} {ledger : Ledger S} (h : RunAt o troubled (some id) t m)
    (watch : m.watch = some id) (found : t.tasks[id]? = some (.watching session point))
    (stands : (WatchPoint.confirming live work).IsAt o m (t.lives o.run)) (honest : answer.IsHonest)
    (trouble : answer.IsFault → troubled)
    (moved : work.resume? o.session t.ledger answer = some (progress, ledger)) :
    ∃ n, RunAt o troubled none (Tracker.putConfirming { t with ledger } id o.session live progress) n ∧
      m.Grows n := by
  have stored := h.stored_confirming stands
  obtain ⟨last, final, known, on, done, seen⟩ := stands
  have target : (live.number - o.plan.threshold).toNat + o.plan.threshold.toNat = live.number.toNat :=
    target_toNat final
  obtain ⟨written, advances, on⟩ :=
    Work.resume?_spec (rfl : o.session.chain = o.chain.id) h.storeAt.sound h.storeAt.carries on stored honest moved
  have storeAt := h.storeAt.confirm (met_of_last last) advances target known done
  have runAt := h.watched watch advances.news storeAt ⟨rfl, rfl, rfl, rfl⟩
  have last := (Tracker.lives_ledger advances.news o.run).symm ▸ last
  obtain ⟨n, runAt, grows⟩ :=
    runAt.putConfirming watch found final known on trouble last rfl seen
  exact ⟨n, runAt, (m.grows_done _).trans grows⟩

theorem resumeWatch? (h : RunAt o troubled none t m)
    (found : t.tasks[id]? = some (.watching session point)) (serves : o.Serves t id answer)
    (trouble : answer.IsFault → troubled) (moved : t.resumeWatch? id session point answer = some u) :
    ∃ n, RunAt o troubled none u n ∧ m.Grows n := by
  rcases h.tasks (by simp) found with ⟨watch, rfl, stands⟩
  have launched : m.watch ≠ none := by simp [watch]
  have h := h.lift id
  unfold Tracker.resumeWatch? at moved
  split at moved
  case h_1 =>
    cases moved
    have keepsRun : t.KeepsRun o.run (t.emit (.asked .subscribe)) := Tracker.keepsRun_emit rfl
    have stands : WatchPoint.subscribing.IsAt o m ((t.emit (.asked .subscribe)).lives o.run) :=
      (keepsRun.lives o.run).symm ▸ stands
    exact ⟨m, (h.emit rfl).put_watch found ⟨watch, rfl, stands⟩, .refl⟩
  case h_2 e =>
    cases moved
    exact ⟨m, h.failWatch (trouble ⟨e, rfl⟩) launched found e, .refl⟩
  case h_3 =>
    cases moved
    exact ⟨m, h.put_watch found ⟨watch, rfl, stands⟩, .refl⟩
  case h_4 =>
    split at moved <;> cases moved
    rename_i ceased
    have trouble : troubled := by
      refine Classical.byContradiction fun faultFree => ?_
      exact Bool.false_ne_true ((h.faultFree faultFree).running.symm.trans ceased)
    exact ⟨m, h.leaveWatch trouble launched found, .refl⟩
  case h_5 item =>
    split at moved
    · cases moved
    · split at moved <;> cases moved
      · obtain ⟨same, next⟩ := serves rfl
        exact h.meetLive watch found stands.1 stands.2 same next
      · exact ⟨m, h.failWatch (trouble (by simp [Answer.IsFault])) launched found _, .refl⟩
      · exact ⟨m, h.failWatch (trouble (by simp [Answer.IsFault])) launched found _, .refl⟩
  case h_6 =>
    rcases Option.map_eq_some_iff.mp moved with ⟨⟨progress, ledger⟩, worked, rfl⟩
    exact h.observing watch found stands serves.isHonest trouble worked
  case h_7 e =>
    cases moved
    exact ⟨m, h.failWatch (trouble ⟨e, rfl⟩) launched found e, .refl⟩
  case h_8 live target =>
    cases moved
    obtain ⟨last, final, done, seen⟩ := stands
    have same : target = o.chain.block (live.number - o.plan.threshold) := serves.header_eq found rfl
    subst same
    obtain ⟨on, store, news⟩ := Work.confirm_spec t.ledger o.chain (live.number - o.plan.threshold)
    have storeAt : o.plan.StoreAt (Work.confirm t.ledger _).2.store (t.lives o.run) m := store.symm ▸ h.storeAt
    have runAt := h.watched watch news storeAt ⟨rfl, rfl, rfl, rfl⟩
    have last := (Tracker.lives_ledger news o.run).symm ▸ last
    exact runAt.putConfirming watch found final (done ▸ h.storeAt.order) on False.elim last done seen
  case h_9 =>
    rcases Option.map_eq_some_iff.mp moved with ⟨⟨progress, ledger⟩, worked, rfl⟩
    exact h.confirming watch found stands serves.isHonest trouble worked
  case h_10 => cases moved

end Watch

/-! ## Backfill -/

section Sweep

variable {session : Session} {last number : UInt64} {point : SweepPoint} {progress : Progress}

theorem sweepFrom (h : RunAt o troubled (some id) t m) (sweep : m.sweep = some id)
    (found : t.tasks[id]? = some (.sweeping session last point)) (bound : last.toNat = m.first - 1)
    (some : last ≠ 0) (low : o.plan.lowest ≤ number) (high : number ≤ last) (pos : m.pos = number.toNat) :
    RunAt o troubled none (t.sweepFrom id o.session last number) m := by
  unfold Tracker.sweepFrom
  split
  · rename_i ceased
    exact h.finishSweep found (Or.inl ceased)
  · exact (h.emit rfl).put_sweep found ⟨sweep, rfl, bound, some, low, high, pos⟩ (Or.inl ⟨_, _, _, rfl⟩)

/-- A launched backfill begins at its lowest block, or ends if there is none. -/
theorem beginSweep (h : RunAt o troubled (some id) t m) (sweep : m.sweep = some id)
    (found : t.tasks[id]? = some (.sweeping session last point)) (bound : last.toNat = m.first - 1)
    (pos : m.pos = o.plan.lowest.toNat) :
    RunAt o troubled none (t.beginSweep id o.session last o.plan.lowest) m := by
  unfold Tracker.beginSweep
  split
  · rename_i nothing
    refine h.finishSweep found (Or.inr ?_)
    unfold Mark.IsSwept
    rcases nothing with rfl | above
    · have zero : UInt64.toNat 0 = 0 := rfl
      omega
    · have above := UInt64.lt_iff_toNat_lt.mp above
      omega
  · rename_i something
    obtain ⟨some, below⟩ := not_or.mp something
    exact h.sweepFrom sweep found bound some (UInt64.le_refl _) (UInt64.not_lt.mp below) pos

theorem putSweeping (h : RunAt o troubled (some id) t m) (life : t.life.Sound) (sweep : m.sweep = some id)
    (found : t.tasks[id]? = some (.sweeping session last point)) (bound : last.toNat = m.first - 1)
    (some : last ≠ 0) (low : o.plan.lowest ≤ number) (high : number ≤ last) {written : Bool} {fault : Prop}
    (on : progress.IsOn o.chain number (Tracker.isSettledBy o.session last number) written fault)
    (trouble : fault → troubled) (pos : m.pos = number.toNat + written.toNat) :
    RunAt o troubled none (t.putSweeping id o.session last number progress) m := by
  have le := UInt64.le_iff_toNat_le.mp high
  cases progress with
  | waits work =>
      rcases on with ⟨on, rfl⟩
      exact h.put_sweep found ⟨sweep, rfl, bound, some, low, high, on, pos⟩ (Or.inl ⟨_, _, _, rfl⟩)
  | finished =>
      cases on
      simp only [Tracker.putSweeping]
      split
      · rename_i below
        have less := UInt64.lt_iff_toNat_lt.mp below
        have next := Tracker.toNat_succ_of_lt below
        refine h.sweepFrom sweep found bound some ?_ ?_ (pos.trans next.symm)
        · rw [UInt64.le_iff_toNat_le] at low ⊢
          omega
        · rw [UInt64.le_iff_toNat_le]
          omega
      · rename_i end_
        have reached := UInt64.le_iff_toNat_le.mp (UInt64.not_lt.mp end_)
        refine h.finishSweep found (Or.inr ?_)
        unfold Mark.IsSwept
        simp only [Bool.toNat_true] at pos
        omega
  | failed e => exact h.failSweep life (trouble on) found sweep e
  | crashed => exact on.elim

theorem resumeSweep? (h : RunAt o troubled none t m) (life : t.life.Sound)
    (found : t.tasks[id]? = some (.sweeping session last point)) (serves : o.Serves t id answer)
    (trouble : answer.IsFault → troubled) (moved : t.resumeSweep? id session last point answer = some u) :
    ∃ n, RunAt o troubled none u n ∧ m.Grows n := by
  rcases h.tasks (by simp) found with ⟨sweep, rfl, bound, stands⟩
  have h := h.lift id
  unfold Tracker.resumeSweep? at moved
  split at moved
  case h_1 lowest =>
    cases moved
    rcases stands with ⟨rfl, pos⟩
    exact ⟨m, h.beginSweep sweep found bound pos, .refl⟩
  case h_2 e =>
    cases moved
    exact ⟨m, h.failSweep life (trouble ⟨e, rfl⟩) found sweep e, .refl⟩
  case h_3 number header =>
    cases moved
    obtain ⟨some, low, high, pos⟩ := stands
    have same : header = o.chain.block number := serves.header_eq found rfl
    subst same
    obtain ⟨on, store, news⟩ := Tracker.beginWork_spec t o.chain o.session last number
    have storeAt : o.plan.StoreAt (t.beginWork o.session last number (o.chain.block number)).2.store
        (t.lives o.run) m := store.symm ▸ h.storeAt
    have runAt := h.swept_on sweep news (Nat.le_refl _) storeAt
    exact ⟨m, runAt.putSweeping life sweep found bound some low high on False.elim pos, .refl⟩
  case h_4 number work =>
    rcases Option.map_eq_some_iff.mp moved with ⟨⟨progress, ledger⟩, worked, rfl⟩
    have stored := h.stored_working stands
    obtain ⟨some, low, high, on, pos⟩ := stands
    obtain ⟨written, advances, on⟩ := Work.resume?_spec (rfl : o.session.chain = o.chain.id) h.storeAt.sound
      h.storeAt.carries on stored serves.isHonest worked
    have storeAt := h.storeAt.sweep (by simp [sweep]) advances (UInt64.le_iff_toNat_le.mp low)
      (Tracker.isSettledBy_iff o.session bound some) pos
    have le : m.pos ≤ number.toNat + (work.isWritten || written).toNat := by
      rw [pos]
      cases work.isWritten <;> cases written <;> simp
    have runAt := h.swept_on sweep advances.news le storeAt
    exact ⟨_, runAt.putSweeping life sweep found bound some low high on trouble rfl, m.grows_pos le⟩
  case h_5 => cases moved

end Sweep

/-! ## Start and stop -/

section Start

variable {context : Context} {point : StartPoint} {task : Task}

theorem restatus (h : RunAt o troubled (some id) t m) (status : Status) :
    RunAt o troubled (some id) { t with status } m := by
  have keepsRun : t.KeepsRun o.run { t with status } := ⟨rfl, rfl, rfl, rfl, rfl, rfl, fun ceased => ceased⟩
  exact h.beside keepsRun rfl fun faultFree => (h.faultFree faultFree).of_keepsRun keepsRun rfl rfl

theorem put_start (h : RunAt o troubled (some id) t m)
    (found : t.tasks[id]? = some (.starting context point))
    (stands : task.IsAt o troubled m (t.lives o.run) id) (starter : task.IsStarter m)
    (unswept : m.sweep = none) : RunAt o troubled none (t.put id task) m :=
  h.put found stands (fun _ => starter) (by simp [unswept])

/-- A start that fails leaves the mark as it is. -/
theorem failStart (h : RunAt o troubled (some id) t m)
    (found : t.tasks[id]? = some (.starting context point)) (unswept : m.sweep = none) (cause : TrackError) :
    RunAt o troubled none (t.finish id (.error cause)) m := by
  have stands : Task.IsAt o troubled m (t.lives o.run) id (.ended (.error cause)) := trivial
  exact (h.put_start found stands trivial unswept).emit rfl

theorem putGiveUp (h : RunAt o troubled (some id) t m) (trouble : troubled)
    (found : t.tasks[id]? = some (.starting context point)) (place : id = o.starter) (unswept : m.sweep = none)
    (reason : GiveUp) (next : StopPoint) :
    RunAt o troubled none (t.putGiveUp id o.context reason next) m := by
  cases next with
  | done => exact h.failStart found unswept _
  | launched => exact h.put_start found ⟨place, rfl, unswept, trouble⟩ trivial unswept
  | joining tasks => exact h.put_start found ⟨place, rfl, unswept, trouble⟩ trivial unswept
  | awaiting ticket => exact h.put_start found ⟨place, rfl, unswept, trouble⟩ trivial unswept

theorem giveUp (h : RunAt o troubled (some id) t m) (trouble : troubled)
    (found : t.tasks[id]? = some (.starting context point)) (place : id = o.starter) (unswept : m.sweep = none)
    (reason : GiveUp) : RunAt o troubled none (t.giveUp id o.context reason) m := by
  obtain ⟨keepsRun, tasks⟩ := Tracker.keepsRun_enterStop (t := t) (j := o.run)
  exact (h.beside keepsRun tasks fun faultFree => (faultFree trouble).elim).putGiveUp trouble (tasks ▸ found) place
    unswept
    reason _

/-- Launching the watch while the start is still at work preserves the invariant of the run. -/
theorem launched (h : RunAt o troubled (some id) t m) (place : id = o.starter) (unlaunched : m.watch = none)
    (launches : o.LaunchesWatch t u) :
    RunAt o troubled (some id) u { m with watch := some t.tasks.length } := by
  obtain ⟨unswept, idle, early, -⟩ := h.early unlaunched
  have lives := launches.lives
  have awaits := launches.first early
  have unmet : t.lives o.run = [] := h.awaited (by simp [Tracker.first, ← early])
  constructor
  case storeAt =>
    rw [launches.store, lives]
    exact h.storeAt.launch _
  case tasks =>
    intro j task free found
    rw [launches.tasks] at found
    rw [lives]
    rcases found_append_singleton found with old | ⟨rfl, rfl⟩
    · have other : j ≠ o.starter := fun same => free (congrArg some (place.trans same.symm))
      exact (h.tasks free old).of_launch other unlaunched unswept _
    · exact ⟨rfl, rfl, idle, by simp [unmet]⟩
  case starter =>
    obtain ⟨task, found, starter⟩ := h.starter
    refine ⟨task, ?_, starter.of_sweep fun launched => launched⟩
    rw [launches.tasks]
    exact found_append found _
  case early => rintro ⟨⟩
  case fixed =>
    rw [launches.settings, launches.startHeight]
    exact h.fixed
  case latest => exact fun _ => launches.length_runs.trans (congrArg (· + 1) early)
  case arrived => exact fun met => by cases awaits.symm.trans met
  case awaited => exact fun _ => lives.trans unmet
  case silent =>
    intro signal run mem told
    rw [launches.length_runs]
    exact Nat.lt_succ_of_lt (h.silent (launches.news ▸ mem) told)
  case swept => exact fun place => by cases unswept.symm.trans place
  case faultFree => exact fun faultFree => launches.faultFree early (h.faultFree faultFree)

theorem launch (h : RunAt o troubled (some id) t m) {chain height : UInt64}
    (found : t.tasks[id]? = some (.starting context point)) (place : id = o.starter)
    (unlaunched : m.watch = none) (same : chain = o.chain.id)
    (read : BlockStore.height t.ledger.store o.chain.id = .ok height) :
    ∃ n, RunAt o troubled none (t.launch id o.context chain height) n ∧ m.Grows n := by
  obtain ⟨unswept, idle, runs, store⟩ := h.early unlaunched
  obtain ⟨settings, startHeight⟩ := h.fixed
  subst same
  unfold Tracker.launch
  split
  case isFalse => exact ⟨m, h.failStart found unswept _, .refl⟩
  case isTrue starting =>
    have height_eq : height = o.height := by
      rw [store, o.height_eq] at read
      exact (Except.ok.inj read).symm
    have session : (⟨t.runs.length, o.chain.id, t.settings.threshold o.chain.id⟩ : Session) = o.session := by
      rw [runs, settings]
      rfl
    have lowest : Tracker.resumeHeight t.startHeight height = o.plan.lowest := by
      rw [startHeight, height_eq]
      rfl
    rw [session]
    have spawned : t.KeepsRun o.run (t.spawn (.watching o.session .launched)).2 := Tracker.keepsRun_spawn _
    have far : m.Grows { m with watch := some t.tasks.length } := ⟨Nat.le_refl _, fun _ => ⟨rfl, rfl⟩⟩
    have runAt : RunAt o troubled (some id)
        { (t.spawn (.watching o.session .launched)).2 with
          chain := some o.chain.id
          threshold := some o.session.threshold
          token := some o.session.run
          loops := t.loops ++ [t.tasks.length]
          runs := t.runs ++ [⟨o.context, id, t.tasks.length, false, .awaited⟩] }
        { m with watch := some t.tasks.length } :=
      h.launched place unlaunched
        ⟨rfl, rfl, spawned.news, rfl, rfl, rfl, _, rfl, rfl, rfl, rfl⟩
    have found : (t.spawn (.watching o.session .launched)).2.tasks[id]? = some (.starting context point) :=
      found_append found _
    have stands (lives : List UInt64) : Task.IsAt o troubled { m with watch := some t.tasks.length } lives id
        (.starting o.context (.awaitingFirst o.session (Tracker.resumeHeight t.startHeight height))) :=
      ⟨place, rfl, unswept, rfl, lowest⟩
    exact ⟨_, runAt.put_start found (stands _) trivial unswept, far⟩

/-- Launching the backfill while the start is still at work preserves the invariant of the run. -/
theorem sweptUp (h : RunAt o troubled (some id) t m) (place : id = o.starter) (unswept : m.sweep = none)
    {first last : UInt64} (arrived : t.first o.run = .arrived first) (bound : last.toNat = first.toNat - 1)
    (keepsRun : t.KeepsRun o.run u) (same : u.isOver o.run = t.isOver o.run) (cancelled : u.cancelled = t.cancelled)
    (tasks : u.tasks = t.tasks ++ [.sweeping o.session last (.launched o.plan.lowest)]) :
    RunAt o troubled (some id) u { m with sweep := some t.tasks.length } := by
  have head := h.arrived arrived
  have met : t.lives o.run ≠ [] := fun none => by simp [none] at head
  have launched : m.watch ≠ none := by
    intro unlaunched
    have known := Tracker.known_of_first arrived (by simp)
    rw [(h.early unlaunched).2.2.1] at known
    exact Nat.lt_irrefl _ known
  have lives := keepsRun.lives o.run
  constructor
  case storeAt =>
    rw [keepsRun.store, lives]
    exact h.storeAt.launchSweep met _
  case tasks =>
    intro j task free found
    rw [tasks] at found
    rw [lives]
    rcases found_append_singleton found with old | ⟨rfl, rfl⟩
    · have other : j ≠ o.starter := fun same => free (congrArg some (place.trans same.symm))
      exact (h.tasks free old).of_launchSweep other unswept _
    · exact ⟨rfl, rfl, (h.storeAt.head head).symm ▸ bound, rfl, h.storeAt.unswept unswept⟩
  case starter =>
    obtain ⟨task, found, starter⟩ := h.starter
    refine ⟨task, ?_, starter.of_sweep fun launched => by simp⟩
    rw [tasks]
    exact found_append found _
  case early => exact fun unlaunched => (launched unlaunched).elim
  case fixed =>
    rw [keepsRun.settings, keepsRun.startHeight]
    exact h.fixed
  case latest => exact fun _ => keepsRun.runs.trans (h.latest launched)
  case arrived => exact fun met => lives ▸ h.arrived (keepsRun.first ▸ met)
  case awaited => exact fun waits => by cases (keepsRun.first.trans arrived).symm.trans waits
  case silent =>
    intro signal run mem told
    rw [keepsRun.runs]
    exact h.silent (keepsRun.news ▸ mem) told
  case swept =>
    intro j here
    cases here
    exact Or.inl ⟨o.session, last, .launched o.plan.lowest, by rw [tasks]; simp⟩
  case faultFree => exact fun faultFree => (h.faultFree faultFree).of_keepsRun keepsRun same cancelled

theorem launchSweep (h : RunAt o troubled (some id) t m) {first : UInt64}
    (found : t.tasks[id]? = some (.starting context point)) (place : id = o.starter)
    (unswept : m.sweep = none) (arrived : t.first o.run = .arrived first) :
    ∃ n, RunAt o troubled none (t.launchSweep id o.session o.plan.lowest first) n ∧ m.Grows n := by
  unfold Tracker.launchSweep
  split
  case isFalse => exact ⟨m, h.failStart found unswept _, .refl⟩
  case isTrue =>
    have spawned : t.KeepsRun o.run { (t.spawn (.sweeping o.session (Tracker.lastBefore first)
        (.launched o.plan.lowest))).2 with status := .running, loops := t.loops ++ [t.tasks.length] } :=
      (Tracker.keepsRun_spawn _).trans ⟨rfl, rfl, rfl, rfl, rfl, rfl, fun ceased => ceased⟩
    have differ : t.tasks.length ≠ id := Nat.ne_of_gt (List.getElem?_eq_some_iff.mp found).1
    have runAt := h.sweptUp place unswept arrived (Tracker.lastBefore_toNat first) spawned rfl rfl rfl
    have found : (t.spawn (.sweeping o.session (Tracker.lastBefore first) (.launched o.plan.lowest))).2.tasks[id]? =
        some (.starting context point) :=
      found_append found _
    have stands (lives : List UInt64) : Task.IsAt o troubled { m with sweep := some t.tasks.length } lives id
        (.ended (.ok ())) := trivial
    refine ⟨_, (runAt.put found (stands _) (fun _ => by simp [Task.IsStarter]) ?_).emit rfl,
      ⟨Nat.le_refl _, fun launched => (launched unswept).elim⟩⟩
    intro same
    exact (differ (Option.some.inj same)).elim

/-- Every step of the start preserves the invariant of the run. -/
theorem resumeStart? (h : RunAt o troubled none t m)
    (found : t.tasks[id]? = some (.starting context point)) (serves : o.Serves t id answer)
    (moved : t.resumeStart? id context point answer = some u) :
    ∃ n, RunAt o troubled none u n ∧ m.Grows n := by
  rcases h.tasks (by simp) found with ⟨place, rfl, unswept, stands⟩
  have h := h.lift id
  unfold Tracker.resumeStart? at moved
  split at moved
  case h_1 =>
    split at moved <;> cases moved
    · exact ⟨m, ((h.restatus .starting).emit rfl).put_start found ⟨place, rfl, unswept, stands⟩ trivial unswept,
        .refl⟩
    · exact ⟨m, h.failStart found unswept _, .refl⟩
  case h_2 =>
    cases moved
    exact ⟨m, (h.restatus .idle).failStart found unswept _, .refl⟩
  case h_3 chain =>
    cases moved
    exact ⟨m, h.put_start found ⟨place, rfl, unswept, stands, serves rfl⟩ trivial unswept, .refl⟩
  case h_4 chain fault =>
    obtain ⟨unlaunched, same⟩ := stands
    split at moved
    · cases moved
      exact ⟨m, (h.restatus .idle).failStart found unswept _, .refl⟩
    · rename_i height read
      cases moved
      apply h.launch found place unlaunched same
      cases fault with
      | none => exact same ▸ read
      | some e => cases read
  case h_5 session lowest =>
    rcases stands with ⟨rfl, rfl⟩
    split at moved
    · rename_i first arrived
      cases moved
      exact h.launchSweep found place unswept arrived
    · rename_i missed
      cases moved
      have trouble : troubled := Classical.byContradiction fun faultFree => (h.faultFree faultFree).met missed
      exact ⟨m, h.giveUp trouble found place unswept _, .refl⟩
    · split at moved <;> cases moved
      rename_i ceased
      have trouble : troubled := by
        refine Classical.byContradiction fun faultFree => ?_
        exact Bool.false_ne_true ((h.faultFree faultFree).running.symm.trans ceased)
      exact ⟨m, h.giveUp trouble found place unswept _, .refl⟩
  case h_6 reason stop =>
    rcases Option.map_eq_some_iff.mp moved with ⟨⟨next, v⟩, stopped, rfl⟩
    obtain ⟨keepsRun, tasks⟩ := Tracker.keepsRun_resumeStop? (j := o.run) stopped
    exact ⟨m, (h.beside keepsRun tasks fun faultFree => (faultFree stands).elim).putGiveUp stands (tasks ▸ found)
      place unswept
      reason next, .refl⟩
  case h_7 => cases moved

theorem resumeStop? (h : RunAt o troubled none t m) {stop next : StopPoint}
    (found : t.tasks[id]? = some (.stopping stop)) (moved : t.resumeStop? stop = some (next, u)) :
    RunAt o troubled none (u.putStop id next) m := by
  have trouble : troubled := h.tasks (by simp) found
  obtain ⟨keepsRun, tasks⟩ := Tracker.keepsRun_resumeStop? (j := o.run) moved
  have runAt := (h.lift id).beside keepsRun tasks fun faultFree => (faultFree trouble).elim
  have found : u.tasks[id]? = some (.stopping stop) := tasks ▸ found
  have put {task : Task} (stands : task.IsAt o troubled m (u.lives o.run) id) :
      RunAt o troubled none (u.put id task) m :=
    runAt.put found stands (fun same => (runAt.ne_starter found (by simp [Task.IsStarter]) same).elim)
      fun place => Or.inr (runAt.swept_of_other found (by simp) place)
  cases next with
  | done =>
      have stands : Task.IsAt o troubled m (u.lives o.run) id (.ended (.ok ())) := trivial
      exact (put stands).emit rfl
  | launched => exact put trouble
  | joining tasks => exact put trouble
  | awaiting ticket => exact put trouble

end Start

/-! ## Moves -/

theorem start_of_undecided {task : Task} (h : task.role = .undecided) :
    ∃ context point, task = .starting context point ∧ point ≠ .launched := by
  cases task with
  | starting context point =>
      refine ⟨context, point, rfl, ?_⟩
      intro h
      cases h
      cases h
  | stopping point => cases point <;> cases h
  | watching session point => cases h
  | sweeping session last point => cases h
  | ended outcome => cases h
  | crashed => cases h

/-- Only the one start of the run is ever undecided. -/
theorem orderly (h : RunAt o troubled none t m) (answer : Answer) : t.Orderly (.resume id answer) := by
  cases answer with
  | go =>
      intro h _
      rcases h with ⟨context, found⟩
      intro undecided
      obtain ⟨j, held⟩ := List.mem_iff_getElem?.mp undecided
      rw [Tracker.life_roles] at held
      obtain ⟨task, other, role⟩ := Option.map_eq_some_iff.mp held
      rcases start_of_undecided role with ⟨context, point, rfl, later⟩
      have here := (h.tasks (by simp) found).1
      have there := (h.tasks (by simp) other).1
      rw [there, ← here, found] at other
      cases other
      exact later rfl
  | _ => trivial

theorem cancel (h : RunAt o troubled none t m) (trouble : troubled) (context : Context) :
    RunAt o troubled none (t.cancel context) m := by
  have cancelled : t.KeepsRun o.run { t with cancelled := context :: t.cancelled } := by
    refine ⟨rfl, rfl, rfl, rfl, rfl, rfl, ?_⟩
    unfold Tracker.isOver Tracker.isCancelled
    cases t.runs[o.run]? with
    | none => exact fun ceased => ceased
    | some run =>
        simp only [Option.any_some, Bool.or_eq_true, List.contains_cons]
        intro h
        rcases h with halted | old
        · exact Or.inl halted
        · exact Or.inr (Or.inr old)
  exact h.beside (cancelled.trans (Tracker.keepsRun_emit rfl)) rfl fun faultFree => (faultFree trouble).elim

/-- Every move that the run allows preserves its invariant, with a mark that has grown. -/
theorem move? (h : RunAt o troubled none t m) (life : t.life.Sound) {move : Move}
    (allowed : o.Allows troubled t move) (moved : t.move? move = some u) :
    u.life.Sound ∧ ∃ n, RunAt o troubled none u n ∧ m.Grows n := by
  cases move with
  | start context => exact allowed.elim
  | setHeight height => exact allowed.elim
  | stop =>
      refine ⟨life.steps (Tracker.steps_move? (m := .stop) trivial moved), m, ?_, .refl⟩
      cases moved
      exact h.join allowed (Tracker.keepsRun_spawn _) (Or.inr ⟨.launched, rfl⟩)
  | cancel context =>
      refine ⟨life.steps (Tracker.steps_move? (m := .cancel context) trivial moved), m, ?_, .refl⟩
      cases moved
      exact h.cancel allowed context
  | resubscribe dispatcher =>
      refine ⟨life.steps (Tracker.steps_move? (m := .resubscribe dispatcher) trivial moved), m, ?_, .refl⟩
      cases moved
      have keepsRun : t.KeepsRun o.run (t.withDispatcher dispatcher) :=
        ⟨rfl, rfl, rfl, rfl, rfl, rfl, fun ceased => ceased⟩
      exact h.beside keepsRun rfl fun faultFree => (h.faultFree faultFree).of_keepsRun keepsRun rfl rfl
  | resume id answer =>
      obtain ⟨serves, trouble⟩ := allowed
      refine ⟨life.steps (Tracker.steps_move? (h.orderly answer) moved), ?_⟩
      simp only [Tracker.move?] at moved
      unfold Tracker.resume? at moved
      split at moved
      · rename_i found
        exact h.resumeStart? found serves moved
      · rename_i found
        rcases Option.map_eq_some_iff.mp moved with ⟨⟨next, v⟩, stopped, rfl⟩
        exact ⟨m, h.resumeStop? found stopped, .refl⟩
      · rename_i found
        exact h.resumeWatch? found serves trouble moved
      · rename_i found
        exact h.resumeSweep? life found serves trouble moved
      · cases moved

/-- The invariant of a run holds throughout its history. -/
theorem reaches (h : RunAt o troubled none t m) (life : t.life.Sound)
    (history : Tracker.Reaches (o.Allows troubled) t u) :
    u.life.Sound ∧ ∃ n, RunAt o troubled none u n ∧ m.Grows n := by
  induction history with
  | refl => exact ⟨life, m, h, .refl⟩
  | move _ allowed moved ih =>
      obtain ⟨life, n, runAt, grows⟩ := ih
      obtain ⟨life, k, runAt, grows'⟩ := runAt.move? life allowed moved
      exact ⟨life, k, runAt, grows.trans grows'⟩

end RunAt

def Outset.mark (o : Outset S) : Mark where
  watch := none
  sweep := none
  first := 0
  seen := 0
  done := 0
  pos := o.plan.lowest.toNat

/-- The initial mark covers exactly what is confirmed at first. -/
theorem Outset.storeAt_mark (o : Outset S) : o.plan.StoreAt o.tracker.ledger.store [] o.mark := by
  refine ⟨o.sound, o.carries, ⟨?_, ?_, ?_⟩, Nat.le_refl _, Nat.le_refl _, nofun, fun _ => ⟨rfl, rfl⟩, fun _ => rfl⟩
  · exact fun n _ high => (Nat.not_lt_zero _ high).elim
  · exact fun n low high => (Nat.not_lt.mpr low high).elim
  · intro n
    constructor
    · exact Or.inl
    · intro h
      rcases h with before | ⟨low, high, -⟩ | ⟨-, high⟩
      · exact before
      · exact (Nat.not_lt.mpr low high).elim
      · exact (Nat.not_lt_zero _ high).elim

theorem Outset.runAt (o : Outset S) (wanted : ¬troubled → o.tracker.isCancelled o.context = false) :
    RunAt o troubled none o.begun o.mark := by
  have keepsRun : o.tracker.KeepsRun o.run o.begun := Tracker.keepsRun_spawn _
  have lives : o.begun.lives o.run = [] :=
    (keepsRun.lives o.run).trans (Tracker.IsSilent.lives o.rest.silent (Nat.le_refl _))
  have awaits : o.begun.first o.run = .awaited := by
    rw [keepsRun.first]
    simp [Tracker.first, run]
  have here : o.begun.tasks[o.starter]? = some (.starting o.context .launched) := by
    simp [begun, Tracker.start, Tracker.spawn, Tracker.emit, starter]
  constructor
  case storeAt =>
    rw [lives]
    exact o.storeAt_mark
  case tasks =>
    intro id task _ found
    rcases found_append_singleton found with old | ⟨rfl, rfl⟩
    · have ended := o.rest.ended old
      cases task with
      | ended outcome => trivial
      | crashed => trivial
      | _ => cases ended
    · exact ⟨rfl, rfl, rfl, rfl⟩
  case starter => exact ⟨_, here, trivial⟩
  case early => exact fun _ => ⟨rfl, rfl, rfl, rfl⟩
  case fixed => exact ⟨rfl, rfl⟩
  case latest => exact fun launched => (launched rfl).elim
  case arrived =>
    intro first met
    rw [awaits] at met
    cases met
  case awaited => exact fun _ => lives
  case silent =>
    intro signal run mem told
    exact o.rest.silent (keepsRun.news ▸ mem) told
  case swept => rintro id ⟨⟩
  case faultFree =>
    intro faultFree
    constructor
    · simp [Tracker.isOver, begun, Tracker.start, Tracker.spawn, Tracker.emit, run]
    · exact wanted faultFree
    · simp [awaits]
    · intro cause told
      exact Nat.lt_irrefl _ (o.rest.silent (keepsRun.news ▸ told) rfl)

/-- After any history of the run, its invariant holds at some mark. -/
theorem Outset.reaches (o : Outset S) (wanted : ¬troubled → o.tracker.isCancelled o.context = false)
    (history : Tracker.Reaches (o.Allows troubled) o.begun t) :
    t.life.Sound ∧ ∃ m, RunAt o troubled none t m := by
  have begun : o.begun.life.Sound :=
    o.rest.life.steps (Tracker.steps_move? (m := .start o.context) trivial rfl)
  obtain ⟨life, m, runAt, -⟩ := (o.runAt wanted).reaches begun history
  exact ⟨life, m, runAt⟩

end Chainwatch
