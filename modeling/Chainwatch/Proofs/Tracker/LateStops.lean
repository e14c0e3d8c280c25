import Chainwatch.Proofs.Tracker.Stopping

/-!
# Runs that are finished

A tracker at rest is finished with its runs: they are over, their loops have ended, and no task waits for
one. What remains of them are callers that are still to return, possibly after another start has taken the
tracker. In every order of steps they leave the later run unchanged, and so does the context of the
earlier one. There is one exception: a start that is resumed late, after its run was stopped, stops
whatever run is current.
-/

namespace Chainwatch

/-- A caller that remains of a run: it waits for the first live block of the run or for the tracker to
rest, or has returned. -/
inductive Task.IsRemainingCaller (run : Nat) : Task → Prop where
  | start {context : Context} {session : Session} {lowest : UInt64} :
      session.run = run → IsRemainingCaller run (.starting context (.awaitingFirst session lowest))
  | waits {task : Task} {ticket : Nat} : task.ticket? = some ticket → IsRemainingCaller run task
  | returned {outcome : Except TrackError Unit} : IsRemainingCaller run (.ended outcome)

namespace Tracker

variable {S : Type} {t u v : Tracker S} {id run : Nat}

/-! ## Ended runs -/

/-- The run is over, and its loops have ended. -/
structure RunEnded (t : Tracker S) (run : Nat) : Prop where
  known : run < t.runs.length
  stopped : t.isOver run
  ended : ∀ {id : Nat}, ¬t.LoopIsLive id run

/-- The run has ended, and no task waits for its loops. -/
structure RunJoined (t : Tracker S) (run : Nat) : Prop extends t.RunEnded run where
  joined : ∀ {id : Nat} {tasks : List Nat}, ¬t.Joins id tasks

theorem runJoined_of_idle (sound : t.life.Sound) (idle : t.status = .idle) (known : run < t.runs.length) :
    t.RunJoined run where
  known := known
  stopped := isOver_resting sound known (Or.inl idle)
  ended live := sound.idle idle (role_of_loopIsLive live)
  joined joins := by cases idle.symm.trans (sound.joining joins).1

/-! ## Remaining callers -/

/-- The task is the start of the run, one of its loops, or a caller of stop that waits for it. -/
inductive BelongsToRun (t : Tracker S) (run id : Nat) : Prop where
  | awaits : t.life.roles[id]? = some (.awaiting run) → BelongsToRun t run id
  | loops : t.LoopIsLive id run → BelongsToRun t run id
  | joins {tasks : List Nat} : t.Joins id tasks → BelongsToRun t run id
  | waits {ticket : Nat} : t.Waits id ticket → BelongsToRun t run id

theorem starting_of_awaiting (awaits : t.life.roles[id]? = some (.awaiting run)) :
    ∃ context session lowest, t.tasks[id]? = some (.starting context (.awaitingFirst session lowest)) ∧
      session.run = run := by
  rw [life_roles] at awaits
  obtain ⟨task, found, role⟩ := Option.map_eq_some_iff.mp awaits
  cases task with
  | starting context point =>
      cases point with
      | awaitingFirst session lowest =>
          cases role
          exact ⟨context, session, lowest, found, rfl⟩
      | stopping reason point => cases point <;> cases role
      | _ => cases role
  | stopping point => cases point <;> cases role
  | _ => cases role

theorem RunJoined.isRemainingCaller (h : t.RunJoined run) (part : t.BelongsToRun run id) :
    ∃ task, t.tasks[id]? = some task ∧ task.IsRemainingCaller run := by
  cases part with
  | awaits awaits =>
      obtain ⟨context, session, lowest, found, same⟩ := starting_of_awaiting awaits
      exact ⟨_, found, .start same⟩
  | loops live => exact (h.ended live).elim
  | joins joins => exact (h.joined joins).elim
  | waits waits =>
      obtain ⟨task, found, ticket⟩ := waits
      exact ⟨task, found, .waits ticket⟩

/-- The start of the run gives up while the tracker is neither at rest nor stopping. -/
def stopsLate (t : Tracker S) (run : Nat) : Move → Bool
  | .resume id _ =>
    t.life.roles[id]? == some (.awaiting run) && (t.status == .starting || t.status == .running) &&
      match t.first run with
      | .arrived _ => false
      | .awaited | .missed => true
  | _ => false

/-- The task returns, or continues to wait for the tracker to rest. -/
inductive TaskReturns (t : Tracker S) (id : Nat) : Tracker S → Prop where
  | returns (outcome : Except TrackError Unit) : TaskReturns t id (t.finish id outcome)
  | waits (context : Context) (reason : GiveUp) :
      TaskReturns t id (t.put id (.starting context (.stopping reason (.awaiting t.rests))))

theorem taskReturns_giveUp (inactive : ¬t.IsActive) (context : Context) (reason : GiveUp) :
    t.TaskReturns id (t.giveUp id context reason) := by
  unfold giveUp enterStop
  cases status : t.status with
  | idle => exact .returns _
  | stopping => exact .waits context reason
  | starting => exact (inactive (Or.inl status)).elim
  | running => exact (inactive (Or.inr status)).elim

theorem stopsLate_iff {answer : Answer} : t.stopsLate run (.resume id answer) = true ↔
    t.life.roles[id]? = some (.awaiting run) ∧ t.IsActive ∧ ∀ number, t.first run ≠ .arrived number := by
  simp only [stopsLate, Bool.and_eq_true, Bool.or_eq_true, beq_iff_eq, and_assoc]
  refine and_congr_right fun _ => and_congr_right fun _ => ?_
  cases t.first run <;> simp

theorem TaskReturns.isRemainingCaller (h : t.TaskReturns id u) {task : Task} (found : t.tasks[id]? = some task) :
    ∃ next, u.tasks[id]? = some next ∧ next.IsRemainingCaller run := by
  cases h with
  | returns outcome => exact ⟨_, getElem?_tasks_put found, .returned⟩
  | waits context reason => exact ⟨_, getElem?_tasks_put found, .waits (show Task.ticket? _ = some t.rests from rfl)⟩

/-! ## Preserving other runs -/

/-- The move acts on the run: it cancels its context, or resumes a task that belongs to it. -/
def ActsOnRun (t : Tracker S) (run : Nat) : Move → Prop
  | .resume id _ => t.BelongsToRun run id
  | .cancel context => ∃ r, t.runs[run]? = some r ∧ r.context = context
  | _ => False

/-- The move changes nothing of other runs: no other run is cancelled, nor the context of a start that
is still to launch its run. -/
structure PreservesOtherRuns (run : Nat) (m : Move) (t u : Tracker S) : Prop where
  status : u.status = t.status
  token : u.token = t.token
  loops : u.loops = t.loops
  runs : u.runs = t.runs
  rests : u.rests = t.rests
  spared : ∀ {other : Nat}, other ≠ run → u.isOver other = t.isOver other
  undecided : ∀ {id : Nat} {context : Context} {point : StartPoint},
    t.tasks[id]? = some (.starting context point) → t.life.roles[id]? = some .undecided →
      u.isCancelled context = t.isCancelled context
  tasks : ∀ {id : Nat}, (∀ answer, m ≠ .resume id answer) → u.tasks[id]? = t.tasks[id]?
  dispatcher : u.dispatcher = t.dispatcher
  failures : u.failures = t.failures

/-- The context that is cancelled is that of another run, or of another start that is still to launch
its run. -/
def CancelsOther (t : Tracker S) (run : Nat) : Move → Prop
  | .cancel context => t.isCancelled context = false ∧
    ((∃ (other : Nat) (r : Run), other ≠ run ∧ t.runs[other]? = some r ∧ r.context = context ∧ r.halted = false) ∨
      ∃ (id : Nat) (point : StartPoint),
        t.tasks[id]? = some (.starting context point) ∧ t.life.roles[id]? = some .undecided)
  | _ => False

theorem TaskReturns.preservesOtherRuns (h : t.TaskReturns id u) (answer : Answer) :
    PreservesOtherRuns run (.resume id answer) t u := by
  have others {j : Nat} {task : Task} (other : ∀ a, Move.resume id answer ≠ .resume j a) :
      (t.put id task).tasks[j]? = t.tasks[j]? := by
    refine getElem?_tasks_put_ne ?_ task
    rintro rfl
    exact other answer rfl
  cases h with
  | returns outcome =>
      exact ⟨rfl, rfl, rfl, rfl, rfl, fun _ => rfl, fun _ _ => rfl, others, rfl, Outlet.failures_emit rfl⟩
  | waits context reason => exact ⟨rfl, rfl, rfl, rfl, rfl, fun _ => rfl, fun _ _ => rfl, others, rfl, rfl⟩

theorem isCancelled_cancel (context other : Context) :
    (t.cancel context).isCancelled other = (decide (other = context) || t.isCancelled other) := by
  simp [isCancelled, cancel, emit]

theorem preservesOtherRuns_cancel_iff (context : Context) :
    PreservesOtherRuns run (.cancel context) t (t.cancel context) ↔ ¬t.CancelsOther run (.cancel context) := by
  constructor
  · rintro alone ⟨live, ⟨other, r, differ, found, rfl, halted⟩ | ⟨id, point, found, undecided⟩⟩
    · have same : (t.runs[other]?.any fun r' => r'.halted || (t.cancel r.context).isCancelled r'.context) =
          t.isOver other := alone.spared differ
      simp [isOver, found, halted, live, isCancelled_cancel] at same
    · have same := alone.undecided found undecided
      simp [live, isCancelled_cancel] at same
  · intro spares
    -- cancelling a cancelled context changes nothing, and any other is not shared with another run
    have kept {other : Context} (late : other = context → t.isCancelled context ≠ false) :
        (t.cancel context).isCancelled other = t.isCancelled other := by
      rw [isCancelled_cancel]
      by_cases same : other = context
      · subst same
        simp [late rfl]
      · simp [same]
    refine ⟨rfl, rfl, rfl, rfl, rfl, fun {other} differ => ?_, fun {id} {other} {point} found undecided => ?_,
      fun _ => rfl, rfl, Outlet.failures_emit rfl⟩
    · show (t.runs[other]?.any fun r => r.halted || (t.cancel context).isCancelled r.context) = t.isOver other
      unfold isOver
      cases found : t.runs[other]? with
      | none => rfl
      | some r =>
          simp only [Option.any_some]
          cases halted : r.halted with
          | true => rfl
          | false => exact kept fun same live => spares ⟨live, Or.inl ⟨other, r, differ, found, same, halted⟩⟩
    · refine kept fun same live => spares ⟨live, Or.inr ⟨id, point, ?_, undecided⟩⟩
      rw [found, same]

theorem not_preservesOtherRuns_giveUp (active : t.IsActive) (context : Context) (reason : GiveUp) (m : Move) :
    ¬PreservesOtherRuns run m t (t.giveUp id context reason) := by
  have status : (t.giveUp id context reason).status = t.enterStop.2.status := by
    unfold giveUp
    cases h : t.enterStop with
    | mk point u => cases point <;> rfl
  intro alone
  refine (noRunStep_enterStop (t := t)).2 ?_
  unfold IsActive
  rw [← status, alone.status]
  exact active

/-! ## Moves -/

section Moves

variable [BlockStore S] {m : Move}

/-- A move is some life steps, or a start that takes the tracker. -/
theorem steps_or_claims (moved : t.move? m = some u) :
    t.life.Steps u.life ∨ ∃ id, u.life = Life.setRole { t.life with status := .starting } id .undecided := by
  by_cases orderly : t.Orderly m
  · exact Or.inl (steps_move? orderly moved)
  · obtain ⟨id, context, -, -, -, -, -, rfl⟩ := claims_of_not_orderly orderly moved
    exact Or.inr ⟨id, life_put _ _ _⟩

/-- A run that has ended stays so, whatever starts do. -/
theorem RunEnded.move? (h : t.RunEnded run) (moved : t.move? m = some u) : u.RunEnded run := by
  have known : run < t.life.runs.length := by simpa [life] using h.known
  have ceased : t.life.isOver run := (isOver_life t run).trans h.stopped
  have ended {id : Nat} : t.life.roles[id]? ≠ some (.looping run) := fun live => h.ended (loopIsLive_iff.mpr live)
  have later : t.life.Precedes u.life ∧ ∀ {id : Nat}, u.life.roles[id]? ≠ some (.looping run) := by
    rcases steps_or_claims moved with steps | ⟨claimer, claimed⟩
    · exact ⟨steps.precedes, fun live => ended (steps.loop_of_over known ceased live)⟩
    · rw [claimed]
      refine ⟨Life.precedes_of_same rfl rfl, fun live => ?_⟩
      rcases Life.roles_setRole live with ⟨-, other⟩ | ⟨-, old⟩
      · cases other
      · exact ended old
  obtain ⟨precedes, ended⟩ := later
  refine ⟨?_, (isOver_life u run).symm.trans (precedes.isOver ceased), fun live => ended (role_of_loopIsLive live)⟩
  simpa [life] using Nat.lt_of_lt_of_le known precedes.length

/-- A remaining caller of a run that is over returns or waits, unless it stops the tracker late. -/
theorem taskReturns_of_isRemainingCaller {task : Task} {answer : Answer} (ceased : t.isOver run)
    (found : t.tasks[id]? = some task)
    (left : task.IsRemainingCaller run) (noLateStop : t.stopsLate run (.resume id answer) = false)
    (moved : t.resume? id answer = some u) : t.TaskReturns id u := by
  cases left with
  | start same =>
      rename_i context session lowest
      have awaits : t.life.roles[id]? = some (.awaiting run) := by
        rw [life_roles, found, ← same]
        rfl
      have gaveUp (unmet : ∀ number, t.first run ≠ .arrived number) (reason : GiveUp) :
          t.TaskReturns id (t.giveUp id context reason) := by
        refine taskReturns_giveUp (fun active => ?_) context reason
        rw [stopsLate_iff.mpr ⟨awaits, active, unmet⟩] at noLateStop
        cases noLateStop
      rw [← same] at ceased gaveUp
      cases answer with
      | go =>
          simp only [resume?, found, resumeStart?] at moved
          -- it met its first block and would sweep, or gives the run up, missed or over
          split at moved <;> rename_i first
          · cases moved
            rw [launchSweep, if_neg (by simp [ceased])]
            exact .returns _
          · cases moved
            exact gaveUp (by simp [first]) _
          · rw [if_pos ceased] at moved
            cases moved
            exact gaveUp (by simp [first]) _
      | _ => simp [resume?, found, resumeStart?] at moved
  | waits ticket =>
      cases task with
      | starting context point =>
          cases point with
          | stopping reason point =>
              cases point with
              | awaiting seen =>
                  cases answer with
                  | go =>
                      simp only [resume?, found, resumeStart?, resumeStop?] at moved
                      split at moved <;> cases moved
                      exact .returns _
                  | _ => simp [resume?, found, resumeStart?] at moved
              | _ => cases ticket
          | _ => cases ticket
      | stopping point =>
          cases point with
          | awaiting seen =>
              cases answer with
              | go =>
                  simp only [resume?, found, resumeStop?] at moved
                  split at moved <;> cases moved
                  exact .returns _
              | _ => simp [resume?, found] at moved
          | _ => cases ticket
      | _ => cases ticket
  | returned => simp [resume?, found] at moved

/-- A remaining caller stays one. -/
theorem isRemainingCaller_move? {m : Move} (ceased : t.isOver run)
    (left : ∃ task, t.tasks[id]? = some task ∧ task.IsRemainingCaller run)
    (noLateStop : t.stopsLate run m = false) (moved : t.move? m = some u) :
    ∃ task, u.tasks[id]? = some task ∧ task.IsRemainingCaller run := by
  obtain ⟨task, found, left⟩ := left
  rcases takesStep_or_spawnsTasks_of_move? moved with ⟨other, answer, _, rfl, -, _, _, _, -, stepsTo⟩ |
    ⟨new, spawnsTasks, -⟩
  · by_cases same : id = other
    · subst same
      exact (taskReturns_of_isRemainingCaller ceased found left noLateStop moved).isRemainingCaller found
    · exact ⟨task, stepsTo.kept same found, left⟩
  · obtain ⟨behind, tasks⟩ := spawnsTasks.tasks
    refine ⟨task, ?_, left⟩
    rw [tasks]
    exact found_append (found_append found new) _

/-- No start of the run stops the tracker late. -/
def NoLateStop (run : Nat) (t : Tracker S) (m : Move) : Prop :=
  t.stopsLate run m = false

/-- Until its start is late, an ended run takes no further step, and only callers remain of it. -/
theorem RunJoined.reaches (h : t.RunJoined run) (later : Reaches (NoLateStop run) t u) :
    u.RunEnded run ∧ ∀ {id : Nat}, t.BelongsToRun run id →
      ∃ task, u.tasks[id]? = some task ∧ task.IsRemainingCaller run := by
  -- a task stays left since the run is over, so both are carried along
  refine later.invariant (P := fun u => u.RunEnded run ∧
    ∀ {id : Nat}, t.BelongsToRun run id → ∃ task, u.tasks[id]? = some task ∧ task.IsRemainingCaller run)
    ⟨h.toRunEnded, h.isRemainingCaller⟩ ?_
  rintro v w m ⟨ceased, left⟩ noLateStop moved
  exact ⟨ceased.move? moved, fun part => isRemainingCaller_move? ceased.stopped (left part) noLateStop moved⟩

theorem giveUp_of_stopsLate {answer : Answer} (late : t.stopsLate run (.resume id answer) = true)
    (moved : t.resume? id answer = some u) : t.IsActive ∧ ∃ context reason, u = t.giveUp id context reason := by
  obtain ⟨awaits, active, unmet⟩ := stopsLate_iff.mp late
  obtain ⟨context, session, lowest, found, rfl⟩ := starting_of_awaiting awaits
  refine ⟨active, context, ?_⟩
  cases answer with
  | go =>
      simp only [resume?, found, resumeStart?] at moved
      split at moved <;> rename_i first
      · exact (unmet _ first).elim
      · cases moved
        exact ⟨_, rfl⟩
      · split at moved <;> cases moved
        exact ⟨_, rfl⟩
  | _ => simp [resume?, found, resumeStart?] at moved

/-- A remaining caller of a run that is over preserves other runs exactly if it does not stop the
tracker late. -/
theorem preservesOtherRuns_iff_noLateStop {task : Task} {answer : Answer} (ceased : t.isOver run)
    (found : t.tasks[id]? = some task) (left : task.IsRemainingCaller run) (moved : t.resume? id answer = some u) :
    PreservesOtherRuns run (.resume id answer) t u ↔ NoLateStop run t (.resume id answer) := by
  constructor
  · intro alone
    refine Bool.eq_false_iff.mpr fun late => ?_
    obtain ⟨active, context, reason, rfl⟩ := giveUp_of_stopsLate late moved
    exact not_preservesOtherRuns_giveUp active context reason _ alone
  · exact fun noLateStop =>
      (taskReturns_of_isRemainingCaller ceased found left noLateStop moved).preservesOtherRuns answer

/-- Every run launched before the tracker came to rest in order is finished: whatever tasks and later
starts do, it takes no further step, and as long as its start has not stopped the tracker late, the next
move on the run preserves all later runs exactly if it is no late stop and cancels no context that they
share. -/
theorem spares_later_runs_iff {t : Tracker S} {run : Nat} (launched : run < t.runs.length) :
    (∀ {settings : TrackerSettings} {store : S}, Reaches Orderly (make settings store) t → t.status = .idle →
      t.RunJoined run) ∧
    (t.RunJoined run → ∀ {u : Tracker S}, Reaches (NoLateStop run) t u → u.RunEnded run ∧
      ∀ {m : Move} {v : Tracker S}, t.ActsOnRun run m → u.move? m = some v →
        (PreservesOtherRuns run m u v ↔ NoLateStop run u m ∧ ¬u.CancelsOther run m)) := by
  refine ⟨fun history idle => runJoined_of_idle (life_sound_of_orderly _ _ history) idle launched, ?_⟩
  intro runJoined u later
  obtain ⟨ceased, left⟩ := runJoined.reaches later
  refine ⟨ceased, fun {m v} actsOn moved => ?_⟩
  cases m with
  | resume id answer =>
      obtain ⟨task, found, left⟩ := left actsOn
      rw [and_iff_left (show ¬u.CancelsOther run (.resume id answer) from not_false)]
      exact preservesOtherRuns_iff_noLateStop ceased.stopped found left moved
  | cancel context =>
      cases moved
      exact (preservesOtherRuns_cancel_iff context).trans (and_iff_right rfl).symm
  | _ => exact actsOn.elim

end Moves

/-! ## A late start -/

section Late

/-- The run of a start is stopped before or after its first live block, and the start is still to be resumed. -/
def endedMoves (met : List Move) : List Move :=
  [.start "first", .resume 0 .go, .resume 0 (.chain (.ok 1)), .resume 0 (.stored none), .resume 1 .go,
    .resume 1 (.subscribed (.ok ()))] ++ met ++ [.stop, .resume 2 .go, .resume 1 .go, .resume 2 .go]

/-- Another start launches a run, which has a subscriber. -/
def nextMoves : List Move :=
  [.start "second", .resume 3 .go, .resume 3 (.chain (.ok 1)), .resume 3 (.stored none),
    .resubscribe ((make {} NestedStore.empty).dispatcher.perform (.subscribe .heads))]

theorem spares_later_runs_iff_met : ∃ t u v : Tracker NestedStore,
    (make {} NestedStore.empty).trial? isOrderly
        (endedMoves [.resume 1 (.arrival (some (.ok default))), .resume 1 (.stored none)]) = some t ∧
      t.RunJoined 0 ∧ t.BelongsToRun 0 0 ∧ Reaches (NoLateStop 0) t u ∧ u.token = some 1 ∧
      u.move? (.resume 0 .go) = some v ∧ PreservesOtherRuns 0 (.resume 0 .go) u v := by
  have shape : ((make {} NestedStore.empty).trial? isOrderly
      (endedMoves [.resume 1 (.arrival (some (.ok default))), .resume 1 (.stored none)])).bind (fun t =>
        (t.trial? (fun t m => !t.stopsLate 0 m) nextMoves).bind fun u => (u.move? (.resume 0 .go)).map fun _ =>
          (t.status, t.runs.length, t.life.roles[0]?, u.token, u.stopsLate 0 (.resume 0 .go))) =
      some (.idle, 1, some (.awaiting 0), some 1, false) := by
    rfl
  obtain ⟨t, ended, shape⟩ := Option.bind_eq_some_iff.mp shape
  obtain ⟨u, next, shape⟩ := Option.bind_eq_some_iff.mp shape
  obtain ⟨v, moved, at_end⟩ := Option.map_eq_some_iff.mp shape
  simp only [Prod.mk.injEq] at at_end
  obtain ⟨idle, launched, awaits, token, noLateStop⟩ := at_end
  have later : Reaches (NoLateStop 0) t u :=
    reaches_of_trial? (fun passed => Bool.not_eq_true' _ |>.mp passed) next
  obtain ⟨rested, spares⟩ := @spares_later_runs_iff NestedStore _ t 0 (by rw [launched]; exact Nat.one_pos)
  have runJoined := rested (reaches_of_trial? orderly_of_isOrderly ended) idle
  exact ⟨t, u, v, ended, runJoined, .awaits awaits, later, token, moved,
    ((spares runJoined later).2 (show t.ActsOnRun 0 (.resume 0 .go) from .awaits awaits) moved).mpr
      ⟨noLateStop, not_false⟩⟩

/-- A start that is resumed after its run was stopped stops the later run. -/
theorem later_run_stopped : ∃ t u v : Tracker NestedStore,
    Reaches Orderly (make {} NestedStore.empty) t ∧ t.status = .idle ∧ t.BelongsToRun 0 0 ∧
      Reaches Orderly t u ∧ u.status = .starting ∧ u.token = some 1 ∧ u.isOver 1 = false ∧ u.subscriberCount = 1 ∧
      u.move? (.resume 0 .go) = some v ∧
      v.status = .stopping ∧ v.token = none ∧ v.isOver 1 ∧ v.subscriberCount = 0 := by
  have shape : ((make {} NestedStore.empty).trial? isOrderly (endedMoves [])).bind (fun t =>
      (t.trial? isOrderly nextMoves).bind fun u => (u.move? (.resume 0 .go)).map fun v =>
        (t.status, t.life.roles[0]?, (u.status, u.token, u.isOver 1, u.subscriberCount),
          (v.status, v.token, v.isOver 1, v.subscriberCount))) =
      some (.idle, some (.awaiting 0), (.starting, some 1, false, 1), (.stopping, none, true, 0)) := by
    rfl
  obtain ⟨t, ended, shape⟩ := Option.bind_eq_some_iff.mp shape
  obtain ⟨u, next, shape⟩ := Option.bind_eq_some_iff.mp shape
  obtain ⟨v, late, at_end⟩ := Option.map_eq_some_iff.mp shape
  simp only [Prod.mk.injEq] at at_end
  obtain ⟨idle, awaits, ⟨starting, token, live, subscribed⟩, stopping, free, ceased, closed⟩ := at_end
  exact ⟨t, u, v, reaches_of_trial? orderly_of_isOrderly ended, idle, .awaits awaits,
    reaches_of_trial? orderly_of_isOrderly next, starting, token, live, subscribed, late, stopping, free, ceased,
    closed⟩

end Late

end Tracker

end Chainwatch
