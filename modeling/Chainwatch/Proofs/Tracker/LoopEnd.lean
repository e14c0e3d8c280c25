import Chainwatch.Proofs.Tracker.Escalation

/-!
# The end of a backfill

A run is over once its failure was reported or it is cancelled. Its backfill then requests no further
block, and before that it ends only with its last block.
-/

namespace Chainwatch

namespace Life

variable {l m : Life} {id run : Nat}

theorem Step.lt_of_awaiting (step : l.Step m)
    (known : ∀ {id run : Nat}, l.roles[id]? = some (.awaiting run) → run < l.runs.length)
    (found : m.roles[id]? = some (.awaiting run)) : run < m.runs.length := by
  have old (found : l.roles[id]? = some (.awaiting run)) : run < m.runs.length :=
    Nat.lt_of_lt_of_le (known found) step.precedes.length
  have played {k : Life} {other : Nat} {next : Role} (differ : next ≠ .awaiting run) (same : k.roles = l.roles)
      (found : (k.setRole other next).roles[id]? = some (.awaiting run)) : l.roles[id]? = some (.awaiting run) := by
    rcases roles_setRole found with ⟨-, new⟩ | ⟨-, found⟩
    · exact (differ new.symm).elim
    · exact same ▸ found
  have appended {role : Role} (differ : role ≠ .awaiting run)
      (found : (l.roles ++ [role])[id]? = some (.awaiting run)) : l.roles[id]? = some (.awaiting run) :=
    (found_append_singleton found).resolve_right fun new => differ new.2.symm
  cases step with
  | enter => exact old (appended (by simp) found)
  | cancel context => exact old found
  | claim idle free => exact old (played (k := { l with status := .starting }) (by simp) rfl found)
  | abandon held => exact old (played (k := { l with status := .idle }) (by simp) rfl found)
  | launch context held starting =>
      rcases roles_setRole (l := { l with roles := l.roles ++ [.looping l.runs.length] }) found with ⟨-, new⟩ |
        ⟨-, found⟩
      · cases new
        simp [Life.launch]
      · exact old (appended (by simp) found)
  | launchSweep held starting bound live =>
      rename_i launched
      rcases roles_setRole (l := { l with roles := l.roles ++ [.looping launched] }) found with ⟨-, new⟩ | ⟨-, found⟩
      · cases new
      · exact old (appended (by simp) found)
  | leave held free => exact old (played (by simp) rfl found)
  | halt active loops held free => exact old (played (k := l.halt) (by simp) rfl found)
  | stop active loops held free => exact old (played (k := l.halt.rest) (by simp) rfl found)
  | haltBehind active live => exact old (appended (by simp) found)
  | join joiner gone => exact old (played (by simp) rfl found)
  | rest joiner => exact old (played (k := l.rest) (by simp) rfl found)

theorem Steps.lt_of_awaiting (steps : l.Steps m)
    (known : ∀ {id run : Nat}, l.roles[id]? = some (.awaiting run) → run < l.runs.length)
    (found : m.roles[id]? = some (.awaiting run)) : run < m.runs.length := by
  induction steps generalizing id run with
  | refl => exact known found
  | tail _ step ih => exact step.lt_of_awaiting ih found

end Life

/-- The points at which a backfill may continue: with a further block only if its run is not over. -/
def Task.ContinuesSweep (ceased : Bool) : Task → Prop
  | .sweeping _ _ (.fetching _) => ceased = false
  | .sweeping _ _ (.working _ _) | .ended _ | .crashed => True
  | .sweeping _ _ (.launched _) | .starting _ _ | .stopping _ | .watching _ _ => False

namespace Tracker

variable {S : Type} {t u : Tracker S} {id : Nat} {session : Session} {last : UInt64} {point : SweepPoint}

theorem isOver_fail_of_live (stopInv : t.StopInvariant) (live : t.LoopIsLive id session.run) (cause : TrackError) :
    (t.fail session cause).isOver session.run := by
  by_cases ended : t.isOver session.run
  · unfold fail
    rw [if_pos ended]
    exact ended
  · have governed := (oneRun_of_sound stopInv.sound).governed live
    have latest := stopInv.tokenInv.latest (governed.resolve_left ended)
    apply isOver_fail stopInv.sound
    simpa [life] using latest.symm

theorem eq_of_put {task next other : Task} (found : t.tasks[id]? = some task)
    (here : (t.put id next).tasks[id]? = some other) : next = other := by
  rw [getElem?_tasks_put found] at here
  exact Option.some.inj here

/-- A backfill that ends with a block has ended its run, or the block is its last. -/
theorem ends_of_sweepFrom (found : t.tasks[id]? = some (.sweeping session last point)) {number : UInt64}
    {outcome : Except TrackError Unit}
    (ended : (t.sweepFrom id session last number).tasks[id]? = some (.ended outcome)) :
    (t.sweepFrom id session last number).isOver session.run := by
  unfold sweepFrom at ended ⊢
  split at ended
  · rename_i ceased
    rw [if_pos ceased]
    exact ceased
  · cases eq_of_put (t := t.emit _) found ended

theorem ends_of_putSweeping (stopInv : t.StopInvariant) (found : t.tasks[id]? = some (.sweeping session last point))
    {number : UInt64} {progress : Progress} {outcome : Except TrackError Unit}
    (ended : (t.putSweeping id session last number progress).tasks[id]? = some (.ended outcome)) :
    (t.putSweeping id session last number progress).isOver session.run ∨ progress = .finished ∧ ¬number < last := by
  cases progress with
  | waits next => cases eq_of_put found ended
  | finished =>
      simp only [putSweeping] at ended ⊢
      split at ended
      · rename_i less
        rw [if_pos less]
        exact Or.inl (ends_of_sweepFrom found ended)
      · rename_i done
        exact Or.inr ⟨trivial, done⟩
  | failed cause => exact Or.inl (isOver_fail_of_live stopInv (Or.inr ⟨session, last, point, found, rfl⟩) cause)
  | crashed => cases eq_of_put found ended

theorem StopInvariant.ledger (stopInv : t.StopInvariant) (ledger : Ledger S) : StopInvariant { t with ledger } :=
  ⟨stopInv.sound, stopInv.tokenInv, fun waits => stopInv.waits (waits.of_tasks rfl), stopInv.chain⟩

variable [BlockStore S] {settings : TrackerSettings} {store : S} {answer : Answer}

theorem lt_of_awaitingFirst (history : Reaches Orderly (make settings store) t) {context : Context} {lowest : UInt64}
    (found : t.tasks[id]? = some (.starting context (.awaitingFirst session lowest))) :
    session.run < t.runs.length := by
  have known : ∀ {id run : Nat}, (make settings store).life.roles[id]? = some (.awaiting run) →
      run < (make settings store).life.runs.length := by
    intro id run found
    cases found
  have awaits : t.life.roles[id]? = some (.awaiting session.run) := by
    rw [life_roles, found]
    rfl
  simpa [life] using (steps_of_reaches history).lt_of_awaiting known awaits

theorem isOver_of_failures [HookedStore S] (history : Reaches Orderly (make settings store) t) {run : Nat}
    {cause : TrackError} (failed : (run, cause) ∈ t.failures) : t.isOver run := by
  have kept := history.invariant
    (P := fun t => t.StopInvariant ∧ ∀ {run : Nat} {cause : TrackError}, (run, cause) ∈ t.failures → t.isOver run)
    ⟨stopInvariant_make settings store, fun failed => by cases failed⟩ ?_
  · exact kept.2 failed
  · rintro v w m ⟨stopInv, ended⟩ orderly moved
    refine ⟨stopInv.move? orderly moved, fun {run cause} failed => ?_⟩
    have steps := steps_move? orderly moved
    rcases stopInv.fails_or moved with same | ⟨run', cause', fails⟩
    · exact isOver_steps steps (ended (same ▸ failed))
    · rw [fails.failures] at failed
      rcases List.mem_append.mp failed with old | new
      · exact isOver_steps steps (ended old)
      · cases List.mem_singleton.mp new
        exact stopInv.isOver_of_fails orderly moved fails

theorem ends_of_resumeSweep? (stopInv : t.StopInvariant) (found : t.tasks[id]? = some (.sweeping session last point))
    (moved : t.resumeSweep? id session last point answer = some u) {outcome : Except TrackError Unit}
    (ended : u.tasks[id]? = some (.ended outcome)) : u.isOver session.run ∨
      (∃ lowest, point = .launched lowest ∧ (last = 0 ∨ last < lowest)) ∨
      ∃ number work mid, point = .working number work ∧
        work.resume? session t.ledger answer = some (.finished, mid) ∧ ¬number < last := by
  unfold resumeSweep? at moved
  split at moved
  case h_1 lowest =>
    have same := Option.some.inj moved
    subst same
    unfold beginSweep at ended ⊢
    split at ended
    · exact Or.inr (Or.inl ⟨lowest, rfl, by assumption⟩)
    · rename_i something
      rw [if_neg something]
      exact Or.inl (ends_of_sweepFrom found ended)
  case h_2 cause =>
    cases moved
    exact Or.inl (isOver_fail_of_live stopInv (Or.inr ⟨session, last, _, found, rfl⟩) cause)
  case h_3 number header =>
    cases begun : t.beginWork session last number header with
    | mk progress mid =>
        simp only [begun, Option.some.injEq] at moved
        subst moved
        have unfinished : progress ≠ .finished := by
          rintro rfl
          rcases beginWork_cases t session last number header with ⟨work, waits⟩ | crashed
          · rw [begun] at waits
            cases waits
          · rw [begun] at crashed
            cases crashed
        left
        exact (ends_of_putSweeping (stopInv.ledger mid) found ended).resolve_right fun done => unfinished done.1
  case h_4 number work =>
    obtain ⟨⟨progress, mid⟩, worked, same⟩ := Option.map_eq_some_iff.mp moved
    subst same
    refine (ends_of_putSweeping (stopInv.ledger mid) found ended).imp_right fun done => Or.inr ?_
    exact ⟨number, work, mid, rfl, done.1 ▸ worked, done.2⟩
  case h_5 => cases moved

/-- A step of a backfill continues it, with a further block only if its run is not over, or ends it. -/
theorem continuesSweep_of_resumeSweep? (found : t.tasks[id]? = some (.sweeping session last point))
    (moved : t.resumeSweep? id session last point answer = some u) :
    ∃ next, u.tasks[id]? = some next ∧ next.ContinuesSweep (t.isOver session.run) := by
  have at_end {v : Tracker S} {task : Task} (here : v.tasks[id]? = some task) :
      ∃ next, (v.finishSweep id).tasks[id]? = some next ∧ next.ContinuesSweep (t.isOver session.run) :=
    ⟨_, getElem?_tasks_put here, trivial⟩
  have further {v : Tracker S} (here : v.tasks[id]? = some (.sweeping session last point))
      (same : v.isOver session.run = t.isOver session.run) (number : UInt64) : ∃ next,
        (v.sweepFrom id session last number).tasks[id]? = some next ∧ next.ContinuesSweep (t.isOver session.run) := by
    unfold sweepFrom
    split
    · exact at_end here
    · rename_i live
      exact ⟨_, getElem?_tasks_put (t := v.emit _) here, same.symm.trans (Bool.eq_false_iff.mpr live)⟩
  have worked (ledger : Ledger S) (number : UInt64) (progress : Progress) : ∃ next,
      (putSweeping { t with ledger } id session last number progress).tasks[id]? = some next ∧
        next.ContinuesSweep (t.isOver session.run) := by
    have here : ({ t with ledger } : Tracker S).tasks[id]? = some (.sweeping session last point) := found
    cases progress with
    | waits work => exact ⟨_, getElem?_tasks_put here, trivial⟩
    | finished =>
        simp only [putSweeping]
        split
        · exact further here rfl _
        · exact at_end here
    | failed cause => exact at_end (found_fail here session cause)
    | crashed => exact ⟨_, getElem?_tasks_put here, trivial⟩
  unfold resumeSweep? at moved
  split at moved
  case h_1 lowest =>
    cases moved
    unfold beginSweep
    split
    · exact at_end found
    · exact further found rfl lowest
  case h_2 cause =>
    cases moved
    exact at_end (found_fail found session cause)
  case h_3 =>
    cases moved
    exact worked _ _ _
  case h_4 =>
    obtain ⟨⟨progress, ledger⟩, -, rfl⟩ := Option.map_eq_some_iff.mp moved
    exact worked ledger _ progress
  case h_5 => cases moved

end Tracker

end Chainwatch
