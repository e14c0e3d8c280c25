import Chainwatch.Proofs.Tracker.Replay
import Chainwatch.Proofs.Tracker.TaskSteps

/-!
# An active tracker has a watch

A tracker that is starting or running has a live watch, as long as no watch fails on a live block after
its context was cancelled. Such a failure is ignored like one that follows a stop, and the watch ends
without the check that would notice the cancellation, so that nothing stops the tracker. Every other end
of a watch stops it, or is left to the start that still waits for a first live block.
-/

namespace Chainwatch

def WatchPoint.isOnBlock : WatchPoint → Bool
  | .observing _ _ | .fetchingTarget _ | .confirming _ _ => true
  | .launched | .subscribing | .listening => false

/-- What is known of the first live block while the watch is at this point. -/
def WatchPoint.Fits (first : FirstBlock) : WatchPoint → Prop
  | .launched | .subscribing => first = .awaited
  | .listening => first ≠ .missed
  | .observing _ _ | .fetchingTarget _ | .confirming _ _ => ∃ number, first = .arrived number

namespace Task

/-- The start of a run waits for the first live block, or has taken it. -/
inductive Awaits (run : Nat) (first : FirstBlock) : Task → Prop where
  | waits {context : Context} {session : Session} {lowest : UInt64} : session.run = run →
      Awaits run first (.starting context (.awaitingFirst session lowest))
  | met {outcome : Except TrackError Unit} {number : UInt64} : first = .arrived number →
      Awaits run first (.ended outcome)

/-- The watch of a run is at work, has crashed, or ended before the first live block. -/
inductive WatchStatus (run : Nat) (first : FirstBlock) : Task → Prop where
  | follows {session : Session} {point : WatchPoint} : session.run = run → point.Fits first →
      WatchStatus run first (.watching session point)
  | died : WatchStatus run first .crashed
  | missed {outcome : Except TrackError Unit} : first = .missed → WatchStatus run first (.ended outcome)

/-- The task is neither a watch nor a start that waits for one, and has not ended. -/
def isUnrelated : Task → Bool
  | .starting _ (.awaitingFirst _ _) | .watching _ _ | .ended _ | .crashed => false
  | _ => true

def isWatch : Task → Bool
  | .watching _ _ => true
  | _ => false

variable {task : Task} {run : Nat} {first : FirstBlock}

theorem Awaits.not_unrelated (h : task.Awaits run first) : ¬task.isUnrelated := by
  cases h <;> simp [isUnrelated]

theorem WatchStatus.not_unrelated (h : task.WatchStatus run first) : ¬task.isUnrelated := by
  cases h <;> simp [isUnrelated]

theorem Awaits.settled {settled : FirstBlock} (h : task.Awaits run first)
    (kept : ∀ number, first = .arrived number → settled = .arrived number) : task.Awaits run settled := by
  cases h with
  | waits same => exact .waits same
  | met arrived => exact .met (kept _ arrived)

end Task

namespace Tracker

variable {S : Type} {t u v : Tracker S} {id : Nat} {task next : Task}

def IsActive (t : Tracker S) : Prop :=
  t.status = .starting ∨ t.status = .running

def runTasks (t : Tracker S) : List (Nat × Nat) :=
  t.runs.map fun r => (r.starter, r.watch)

/-- The run is the latest, its start waits for the first live block or has taken it, and its watch is at
work, has crashed, or ended without a live block. -/
def HasLiveWatch (t : Tracker S) (run : Nat) : Prop :=
  ∃ starter watch, t.runTasks[run]? = some (starter, watch) ∧ t.runTasks.length = run + 1 ∧
    (∃ task, t.tasks[starter]? = some task ∧ task.Awaits run (t.first run)) ∧
    ∃ task, t.tasks[watch]? = some task ∧ task.WatchStatus run (t.first run)

/-- An active tracker has a live watch, unless a start is still to launch a run. -/
structure WatchInvariant (t : Tracker S) : Prop where
  held : t.IsActive → Role.undecided ∉ t.life.roles → t.token ≠ none
  stands : ∀ {run : Nat}, t.token = some run → t.HasLiveWatch run
  watched : ∀ {i : Nat} {session : Session} {point : WatchPoint}, t.tasks[i]? = some (.watching session point) →
    ∃ starter, t.runTasks[session.run]? = some (starter, i)

/-- An active tracker without a watch: the watch and the start of the latest run have ended, and no
start is still to launch another. -/
def IsUnwatched (t : Tracker S) : Prop :=
  t.IsActive ∧ Role.undecided ∉ t.life.roles ∧
    ∃ r, t.runs.getLast? = some r ∧ t.outcome? r.watch ≠ none ∧ t.outcome? r.starter ≠ none

/-- `WatchInvariant` excludes `IsUnwatched`: a watch that ended missed the first live block, and a start
that ended took it. -/
theorem WatchInvariant.not_isUnwatched (h : t.WatchInvariant) : ¬t.IsUnwatched := by
  intro unwatched
  obtain ⟨active, decided, r, last, watch_ended, start_ended⟩ := unwatched
  obtain ⟨run, token⟩ := Option.ne_none_iff_exists'.mp (h.held active decided)
  obtain ⟨starter, watch, post, latest, ⟨start, start_found, awaits⟩, other, watch_found, status⟩ := h.stands token
  have same : (r.starter, r.watch) = (starter, watch) := by
    simp only [runTasks, List.length_map] at latest
    rw [List.getLast?_eq_getElem?, latest, Nat.add_sub_cancel] at last
    simp only [runTasks, List.getElem?_map, last, Option.map_some, Option.some.injEq] at post
    exact post
  cases same
  cases status with
  | follows => simp [outcome?, watch_found] at watch_ended
  | died => simp [outcome?, watch_found] at watch_ended
  | missed missed =>
      cases awaits with
      | waits => simp [outcome?, start_found] at start_ended
      | met arrived => cases missed.symm.trans arrived

/-! ## Steps that belong to no run -/

/-- A step that belongs to no run: no task of a run changes, and at most the tracker is stopped. -/
structure NoRunStep (t u : Tracker S) : Prop where
  active : u.IsActive → t.IsActive ∧ u.token = t.token
  token : ∀ {run : Nat}, u.token = some run → t.token = some run
  runTasks : u.runTasks = t.runTasks
  first : ∀ run, u.first run = t.first run
  kept : ∀ {i : Nat} {task : Task}, t.tasks[i]? = some task → u.tasks[i]? = some task
  watches : ∀ {i : Nat} {session : Session} {point : WatchPoint},
    u.tasks[i]? = some (.watching session point) → t.tasks[i]? = some (.watching session point)

theorem NoRunStep.refl : t.NoRunStep t :=
  ⟨fun active => ⟨active, rfl⟩, fun token => token, rfl, fun _ => rfl, fun found => found, fun found => found⟩

theorem NoRunStep.trans (h : t.NoRunStep u) (g : u.NoRunStep v) : t.NoRunStep v where
  active active := by
    obtain ⟨before, token⟩ := g.active active
    obtain ⟨first, same⟩ := h.active before
    exact ⟨first, token.trans same⟩
  token held := h.token (g.token held)
  runTasks := g.runTasks.trans h.runTasks
  first run := (g.first run).trans (h.first run)
  kept found := g.kept (h.kept found)
  watches found := h.watches (g.watches found)

theorem noRunStep_of_same (status : u.status = t.status) (token : u.token = t.token) (runs : u.runs = t.runs)
    (tasks : u.tasks = t.tasks) : t.NoRunStep u where
  active active := ⟨by simpa [IsActive, status] using active, token⟩
  token held := token ▸ held
  runTasks := congrArg (List.map _) runs
  first run := by rw [Tracker.first, runs]; rfl
  kept found := tasks ▸ found
  watches found := tasks ▸ found

theorem noRunStep_spawn (other : task.isWatch = false) : t.NoRunStep (t.spawn task).2 where
  active active := ⟨active, rfl⟩
  token held := held
  runTasks := rfl
  first _ := rfl
  kept found := found_append found _
  watches found := by
    rcases found_append_singleton found with found | ⟨-, rfl⟩
    · exact found
    · cases other

theorem runTasks_modify (i : Nat) (f : Run → Run) (same : ∀ r, ((f r).starter, (f r).watch) = (r.starter, r.watch)) :
    runTasks { t with runs := t.runs.modify i f } = t.runTasks := by
  unfold runTasks
  rw [map_modify (f := fun r : Run => (r.starter, r.watch)) (g := f) (h := id) same]
  exact List.modify_id _ _

theorem noRunStep_beginStop : t.NoRunStep t.beginStop.2 ∧ ¬t.beginStop.2.IsActive ∧ t.beginStop.2.token = none := by
  have status : t.beginStop.2.status = .stopping := by
    unfold beginStop
    cases t.token <;> rfl
  have token : t.beginStop.2.token = none := by
    unfold beginStop
    cases t.token <;> simp [withDispatcher]
  have idle : ¬t.beginStop.2.IsActive := by
    simp [IsActive, status]
  refine ⟨⟨fun active => (idle active).elim, fun held => ?_, ?_, fun run => keepsRun_beginStop.first, ?_, ?_⟩,
    idle, token⟩
  · rw [token] at held
    cases held
  · unfold beginStop
    cases t.token with
    | none => rfl
    | some run => exact runTasks_modify run _ fun _ => rfl
  · rw [tasks_beginStop]
    exact fun found => found
  · rw [tasks_beginStop]
    exact fun found => found

theorem noRunStep_rest : t.NoRunStep t.rest :=
  ⟨fun active => (by rcases active with active | active <;> cases active), fun held => held, rfl, fun _ => rfl,
    fun found => found, fun found => found⟩

theorem noRunStep_join (tasks : List Nat) : t.NoRunStep (t.join tasks).2 := by
  cases tasks with
  | nil => exact noRunStep_rest
  | cons task rest => exact .refl

theorem noRunStep_enterStop : t.NoRunStep t.enterStop.2 ∧ ¬t.enterStop.2.IsActive := by
  have begun : t.NoRunStep (t.beginStop.2.join t.beginStop.1).2 ∧ ¬(t.beginStop.2.join t.beginStop.1).2.IsActive := by
    obtain ⟨noRunStep, idle, -⟩ := noRunStep_beginStop (t := t)
    have joined := noRunStep_join (t := t.beginStop.2) t.beginStop.1
    exact ⟨noRunStep.trans joined, fun active => idle (joined.active active).1⟩
  unfold enterStop
  cases status : t.status with
  | idle => exact ⟨.refl, by simp [IsActive, status]⟩
  | stopping => exact ⟨.refl, by simp [IsActive, status]⟩
  | starting => exact begun
  | running => exact begun

theorem noRunStep_resumeStop? {point next : StopPoint} (moved : t.resumeStop? point = some (next, u)) :
    t.NoRunStep u := by
  unfold resumeStop? at moved
  split at moved
  · have same : t.enterStop.2 = u := congrArg Prod.snd (Option.some.inj moved)
    exact same ▸ noRunStep_enterStop.1
  · have same : (t.join []).2 = u := congrArg Prod.snd (Option.some.inj moved)
    exact same ▸ noRunStep_join []
  · rename_i rest
    split at moved
    · have same : (t.join rest).2 = u := congrArg Prod.snd (Option.some.inj moved)
      exact same ▸ noRunStep_join rest
    · cases moved
  · split at moved <;> cases moved
    exact .refl
  · cases moved

/-- Stopping in the background stops the latest run only. -/
theorem noRunStep_stopInBackground (run : Nat) : t.NoRunStep (t.stopInBackground run) ∧
    (t.isLatest run → t.IsActive → (t.stopInBackground run).token = none) := by
  have begun : t.NoRunStep (t.beginStop.2.spawn (.stopping (.joining t.beginStop.1))).2 ∧
      (t.beginStop.2.spawn (.stopping (.joining t.beginStop.1))).2.token = none := by
    obtain ⟨noRunStep, -, token⟩ := noRunStep_beginStop (t := t)
    exact ⟨noRunStep.trans (noRunStep_spawn rfl), token⟩
  unfold stopInBackground
  split
  case isTrue =>
    cases status : t.status with
    | idle => exact ⟨.refl, by simp [IsActive, status]⟩
    | stopping => exact ⟨.refl, by simp [IsActive, status]⟩
    | starting => exact ⟨begun.1, fun _ _ => begun.2⟩
    | running => exact ⟨begun.1, fun _ _ => begun.2⟩
  case isFalse other => exact ⟨.refl, fun latest => (other latest).elim⟩

theorem noRunStep_fail (session : Session) (cause : TrackError) : t.NoRunStep (t.fail session cause) ∧
    (t.isOver session.run = false → t.isLatest session.run → t.IsActive → (t.fail session cause).token = none) := by
  unfold fail
  split
  case isTrue ceased => exact ⟨.refl, by simp [ceased]⟩
  case isFalse =>
    have told : t.NoRunStep { t with ledger := { t.ledger with
        outlet := t.ledger.outlet.tellFailure session.run cause } } := noRunStep_of_same rfl rfl rfl rfl
    obtain ⟨noRunStep, stopped⟩ := noRunStep_stopInBackground (t := { t with ledger := { t.ledger with
        outlet := t.ledger.outlet.tellFailure session.run cause } }) session.run
    exact ⟨told.trans noRunStep, fun _ latest active => stopped latest active⟩

/-! ## Steps of the tasks -/

theorem mem_roles_iff {role : Role} :
    role ∈ t.life.roles ↔ ∃ (i : Nat) (task : Task), t.tasks[i]? = some task ∧ task.role = role := by
  rw [List.mem_iff_getElem?]
  simp only [life_roles, Option.map_eq_some_iff]

theorem HasLiveWatch.noRunStep {run : Nat} (h : t.HasLiveWatch run) (noRunStep : t.NoRunStep u) :
    u.HasLiveWatch run := by
  obtain ⟨starter, watch, post, latest, ⟨start, start_found, awaits⟩, other, watch_found, status⟩ := h
  rw [← noRunStep.runTasks] at post latest
  rw [← noRunStep.first] at awaits status
  exact ⟨starter, watch, post, latest, ⟨start, noRunStep.kept start_found, awaits⟩, other, noRunStep.kept watch_found,
    status⟩

theorem WatchInvariant.noRunStep (h : t.WatchInvariant) (noRunStep : t.NoRunStep u) : u.WatchInvariant where
  held active decided := by
    obtain ⟨before, token⟩ := noRunStep.active active
    rw [token]
    refine h.held before ?_
    intro undecided
    obtain ⟨i, task, found, role⟩ := mem_roles_iff.mp undecided
    exact decided (mem_roles_iff.mpr ⟨i, task, noRunStep.kept found, role⟩)
  stands token := (h.stands (noRunStep.token token)).noRunStep noRunStep
  watched found := by
    rw [noRunStep.runTasks]
    exact h.watched (noRunStep.watches found)

theorem watched_put (h : t.WatchInvariant) (id : Nat) (other : next.isWatch = false) {i : Nat} {session : Session}
    {point : WatchPoint} (found : (t.put id next).tasks[i]? = some (.watching session point)) :
    ∃ starter, t.runTasks[session.run]? = some (starter, i) := by
  by_cases same : i = id
  · subst same
    simp only [put, List.getElem?_set, if_true] at found
    split at found <;> cases found
    cases other
  · rw [getElem?_tasks_put_ne same] at found
    exact h.watched found

/-- An active tracker keeps its run when another task is replaced. -/
theorem held_put (h : t.WatchInvariant) (found : t.tasks[id]? = some task)
    (decided : task.role = .undecided → next.role = .undecided ∨ ¬t.IsActive) (active : t.IsActive)
    (free : Role.undecided ∉ (t.put id next).life.roles) : t.token ≠ none := by
  refine h.held active ?_
  intro undecided
  obtain ⟨i, holder, held, role⟩ := mem_roles_iff.mp undecided
  by_cases same : i = id
  · subst same
    cases held.symm.trans found
    rcases decided role with still | idle
    · exact free (mem_roles_iff.mpr ⟨i, next, getElem?_tasks_put found, still⟩)
    · exact idle active
  · exact free (mem_roles_iff.mpr ⟨i, holder, (getElem?_tasks_put_ne same next).trans held, role⟩)

/-- `WatchInvariant` does not depend on a task outside the run. -/
theorem WatchInvariant.put_unrelated (h : t.WatchInvariant) (found : t.tasks[id]? = some task)
    (unrelated : task.isUnrelated)
    (other : next.isWatch = false) (decided : task.role = .undecided → next.role = .undecided ∨ ¬t.IsActive) :
    (t.put id next).WatchInvariant where
  held := held_put h found decided
  stands {run} token := by
    obtain ⟨starter, watch, post, latest, ⟨start, start_found, awaits⟩, follower, watch_found, status⟩ :=
      h.stands token
    have start_differs : starter ≠ id := by
      rintro rfl
      cases start_found.symm.trans found
      exact awaits.not_unrelated unrelated
    have watch_differs : watch ≠ id := by
      rintro rfl
      cases watch_found.symm.trans found
      exact status.not_unrelated unrelated
    exact ⟨starter, watch, post, latest, ⟨start, (getElem?_tasks_put_ne start_differs next).trans start_found, awaits⟩,
      follower, (getElem?_tasks_put_ne watch_differs next).trans watch_found, status⟩
  watched found' := watched_put h id other found'

theorem WatchInvariant.put_stopped (h : t.WatchInvariant) (token : t.token = none) (idle : ¬t.IsActive)
    (other : next.isWatch = false) : (t.put id next).WatchInvariant where
  held active := (idle active).elim
  stands held := by cases token.symm.trans held
  watched found := watched_put h id other found

theorem WatchInvariant.emit (h : t.WatchInvariant) (signal : Signal) : (t.emit signal).WatchInvariant :=
  h.noRunStep (noRunStep_of_same rfl rfl rfl rfl)

theorem WatchInvariant.finish_unrelated (h : t.WatchInvariant) (found : t.tasks[id]? = some task)
    (unrelated : task.isUnrelated)
    (decided : task.role ≠ .undecided ∨ ¬t.IsActive) (outcome : Except TrackError Unit) :
    (t.finish id outcome).WatchInvariant := by
  refine (h.put_unrelated found unrelated rfl ?_).emit _
  exact fun undecided => Or.inr (decided.resolve_left (fun differs => differs undecided))

/-! ## Starts -/

section Starts

variable {context : Context} {session : Session} {lowest : UInt64}

theorem WatchInvariant.finish_start (h : t.WatchInvariant)
    (found : t.tasks[id]? = some (.starting context (.awaitingFirst session lowest))) {number : UInt64}
    (met : t.first session.run = .arrived number) (outcome : Except TrackError Unit) :
    (t.finish id outcome).WatchInvariant := by
  refine WatchInvariant.emit (t := t.put id (.ended outcome)) ⟨held_put h found (by simp [Task.role]), ?_, ?_⟩ _
  · intro run token
    obtain ⟨starter, watch, post, latest, ⟨start, start_found, awaits⟩, follower, watch_found, status⟩ :=
      h.stands token
    have watch_differs : watch ≠ id := by
      rintro rfl
      cases watch_found.symm.trans found
      cases status
    refine ⟨starter, watch, post, latest, ?_, follower,
      (getElem?_tasks_put_ne watch_differs _).trans watch_found, status⟩
    by_cases same : starter = id
    · subst same
      cases start_found.symm.trans found
      cases awaits with
      | waits same => exact ⟨_, getElem?_tasks_put found, .met (same ▸ met)⟩
    · exact ⟨start, (getElem?_tasks_put_ne same _).trans start_found, awaits⟩
  · exact fun found => watched_put h id rfl found

theorem WatchInvariant.launchSweep (h : t.WatchInvariant)
    (found : t.tasks[id]? = some (.starting context (.awaitingFirst session lowest))) {first : UInt64}
    (met : t.first session.run = .arrived first) : (t.launchSweep id session lowest first).WatchInvariant := by
  unfold Tracker.launchSweep
  split
  case isTrue ready =>
    have spawned : t.NoRunStep (t.spawn (.sweeping session (lastBefore first) (.launched lowest))).2 :=
      noRunStep_spawn rfl
    have launched : t.NoRunStep { (t.spawn (.sweeping session (lastBefore first) (.launched lowest))).2 with
        status := .running, loops := t.loops ++ [t.tasks.length] } :=
      ⟨fun _ => ⟨Or.inl ready.1, rfl⟩, fun held => held, rfl, fun _ => rfl, spawned.kept, spawned.watches⟩
    exact (h.noRunStep launched).finish_start (launched.kept found) ((launched.first _).trans met) _
  case isFalse => exact h.finish_start found met _

/-- The watch of a newly launched run is still to take the first live block. -/
theorem WatchInvariant.launch (h : t.WatchInvariant) (sound : t.life.Sound) {chain : UInt64}
    (found : t.tasks[id]? = some (.starting context (.readingHeight chain))) (height : UInt64) :
    (t.launch id context chain height).WatchInvariant := by
  have undecided : t.life.roles[id]? = some .undecided := by
    rw [life_roles, found]
    rfl
  unfold Tracker.launch
  split
  case isFalse other =>
    refine h.finish_unrelated found rfl (Or.inr ?_) _
    obtain ⟨-, -, early, -⟩ := sound.undecided undecided
    have idle : t.status = .idle := early.resolve_left other
    simp [IsActive, idle]
  case isTrue =>
    have bound := (List.getElem?_eq_some_iff.mp found).1
    have differs : t.tasks.length ≠ id := Nat.ne_of_gt bound
    have run_first : (t.runs ++ [⟨context, id, t.tasks.length, false, .awaited⟩])[t.runs.length]? =
        some ⟨context, id, t.tasks.length, false, .awaited⟩ := List.getElem?_concat_length
    refine ⟨(fun _ _ none => by cases none), ?_, ?_⟩
    · intro run token
      cases token
      refine ⟨id, t.tasks.length, ?_, ?_, ⟨_, getElem?_tasks_put (found_append found _), .waits rfl⟩, _,
        (getElem?_tasks_put_ne differs _).trans List.getElem?_concat_length, .follows rfl ?_⟩
      · exact (List.getElem?_map ..).trans (congrArg _ run_first)
      · simp [runTasks, put, spawn, Tracker.emit]
      · exact congrArg (fun r : Option Run => (r.map (·.first)).getD .awaited) run_first
    · intro i other point here
      rw [show runTasks _ = t.runTasks ++ [(id, t.tasks.length)] by simp [runTasks, put, spawn, Tracker.emit]]
      by_cases same : i = id
      · subst same
        cases (getElem?_tasks_put (found_append found _)).symm.trans here
      · rcases found_append_singleton ((getElem?_tasks_put_ne same _).symm.trans here) with old | ⟨rfl, new⟩
        · obtain ⟨starter, post⟩ := h.watched old
          exact ⟨starter, found_append post _⟩
        · cases new
          exact ⟨id, by simp [runTasks]⟩

theorem token_enterStop (sound : t.life.Sound) : t.enterStop.2.token = none := by
  have begun : (t.beginStop.2.join t.beginStop.1).2.token = none := by
    rw [Option.eq_none_iff_forall_ne_some]
    intro run held
    cases noRunStep_beginStop.2.2.symm.trans ((noRunStep_join _).token held)
  unfold enterStop
  cases status : t.status with
  | idle => exact (sound.resting (Or.inl status)).1
  | stopping => exact (sound.resting (Or.inr status)).1
  | starting => exact begun
  | running => exact begun

theorem WatchInvariant.giveUp (h : t.WatchInvariant) (sound : t.life.Sound) (id : Nat) (context : Context)
    (reason : GiveUp) : (t.giveUp id context reason).WatchInvariant := by
  obtain ⟨noRunStep, idle⟩ := noRunStep_enterStop (t := t)
  have stopped {next : Task} (other : next.isWatch = false) : (t.enterStop.2.put id next).WatchInvariant :=
    (h.noRunStep noRunStep).put_stopped (token_enterStop sound) idle other
  unfold Tracker.giveUp
  dsimp only
  cases t.enterStop.1 with
  | done => exact WatchInvariant.emit (t := t.enterStop.2.put id (.ended _)) (stopped rfl) _
  | launched => exact stopped rfl
  | joining tasks => exact stopped rfl
  | awaiting ticket => exact stopped rfl

theorem WatchInvariant.putGiveUp (h : t.WatchInvariant) (found : t.tasks[id]? = some task)
    (unrelated : task.isUnrelated) (decided : task.role ≠ .undecided) (reason : GiveUp) (point : StopPoint) :
    (t.putGiveUp id context reason point).WatchInvariant := by
  cases point with
  | done => exact h.finish_unrelated found unrelated (Or.inl decided) _
  | _ => exact h.put_unrelated found unrelated rfl fun undecided => (decided undecided).elim

/-- A start that fails before launching gives up the tracker. -/
theorem WatchInvariant.abandonStart (h : t.WatchInvariant) (found : t.tasks[id]? = some task)
    (unrelated : task.isUnrelated) (cause : TrackError) : (t.abandonStart id cause).WatchInvariant := by
  have idle : ¬IsActive { t with status := .idle } := by simp [IsActive]
  have noRunStep : t.NoRunStep { t with status := .idle } :=
    ⟨fun active => (idle active).elim, fun held => held, rfl, fun _ => rfl, fun found => found, fun found => found⟩
  exact (h.noRunStep noRunStep).finish_unrelated (noRunStep.kept found) unrelated (Or.inr idle) _

theorem WatchInvariant.claim (h : t.WatchInvariant) (sound : t.life.Sound) (found : t.tasks[id]? = some task)
    (idle : t.status = .idle) :
    ((Tracker.emit { t with status := .starting } (.asked .chainId)).put id
      (.starting context .askingChain)).WatchInvariant := by
  refine ⟨?_, ?_, fun here => watched_put h id rfl here⟩
  · intro _ decided
    exact (decided (mem_roles_iff.mpr ⟨id, _, getElem?_tasks_put found, rfl⟩)).elim
  · intro run held
    cases (sound.resting (Or.inl idle)).1.symm.trans held

variable [BlockStore S]

theorem WatchInvariant.resumeStart? (h : t.WatchInvariant) (sound : t.life.Sound) {point : StartPoint} {answer : Answer}
    (found : t.tasks[id]? = some (.starting context point))
    (moved : t.resumeStart? id context point answer = some u) : u.WatchInvariant := by
  unfold Tracker.resumeStart? at moved
  split at moved
  case h_1 =>
    split at moved <;> cases moved
    · rename_i idle
      exact h.claim sound found idle
    · exact h.finish_unrelated found rfl (Or.inl (by simp [Task.role])) _
  case h_2 =>
    cases moved
    exact h.abandonStart found rfl _
  case h_3 =>
    cases moved
    exact h.put_unrelated found rfl rfl fun _ => Or.inl rfl
  case h_4 =>
    split at moved <;> cases moved
    · exact h.abandonStart found rfl _
    · exact h.launch sound found _
  case h_5 =>
    split at moved
    · rename_i met
      cases moved
      exact h.launchSweep found met
    · cases moved
      exact h.giveUp sound id context _
    · split at moved <;> cases moved
      exact h.giveUp sound id context _
  case h_6 reason point =>
    rcases Option.map_eq_some_iff.mp moved with ⟨⟨next, v⟩, stopped, rfl⟩
    have noRunStep := noRunStep_resumeStop? stopped
    refine (h.noRunStep noRunStep).putGiveUp (noRunStep.kept found) rfl ?_ reason next
    cases point <;> simp [Task.role, StopPoint.role]
  case h_7 => cases moved

end Starts

theorem WatchInvariant.resumeStop? (h : t.WatchInvariant) {point next : StopPoint}
    (found : t.tasks[id]? = some (.stopping point)) (moved : t.resumeStop? point = some (next, u)) :
    (u.putStop id next).WatchInvariant := by
  have noRunStep := noRunStep_resumeStop? moved
  have decided : (Task.stopping point).role ≠ .undecided := by cases point <;> simp [Task.role, StopPoint.role]
  cases next with
  | done => exact (h.noRunStep noRunStep).finish_unrelated (noRunStep.kept found) rfl (Or.inl decided) _
  | _ =>
    exact (h.noRunStep noRunStep).put_unrelated (noRunStep.kept found) rfl rfl fun undecided =>
      (decided undecided).elim

/-! ## Backfills -/

section Sweep

variable {session : Session} {last : UInt64} {point : SweepPoint}

theorem WatchInvariant.put_sweep (h : t.WatchInvariant) (found : t.tasks[id]? = some (.sweeping session last point))
    (other : next.isWatch = false) : (t.put id next).WatchInvariant :=
  h.put_unrelated found rfl other fun undecided => by cases undecided

theorem WatchInvariant.finishSweep (h : t.WatchInvariant) (found : t.tasks[id]? = some (.sweeping session last point)) :
    (t.finishSweep id).WatchInvariant :=
  (h.put_sweep found rfl).emit _

theorem WatchInvariant.failSweep (h : t.WatchInvariant) (found : t.tasks[id]? = some (.sweeping session last point))
    (cause : TrackError) : (t.failSweep id session cause).WatchInvariant := by
  have noRunStep := (noRunStep_fail (t := t) session cause).1
  exact (h.noRunStep noRunStep).finishSweep (noRunStep.kept found)

theorem WatchInvariant.sweepFrom (h : t.WatchInvariant) (found : t.tasks[id]? = some (.sweeping session last point))
    (number : UInt64) : (t.sweepFrom id session last number).WatchInvariant := by
  unfold Tracker.sweepFrom
  split
  · exact h.finishSweep found
  · exact (h.emit _).put_sweep found rfl

theorem WatchInvariant.putSweeping (h : t.WatchInvariant) (found : t.tasks[id]? = some (.sweeping session last point))
    (number : UInt64) (progress : Progress) : (t.putSweeping id session last number progress).WatchInvariant := by
  cases progress with
  | waits work => exact h.put_sweep found rfl
  | finished =>
      simp only [Tracker.putSweeping]
      split
      · exact h.sweepFrom found _
      · exact h.finishSweep found
  | failed e => exact h.failSweep found e
  | crashed => exact (h.put_sweep found rfl).emit _

variable [BlockStore S]

theorem WatchInvariant.resumeSweep? (h : t.WatchInvariant) (found : t.tasks[id]? = some (.sweeping session last point))
    {answer : Answer} (moved : t.resumeSweep? id session last point answer = some u) : u.WatchInvariant := by
  have told (mid : Ledger S) : WatchInvariant { t with ledger := mid } :=
    h.noRunStep (noRunStep_of_same rfl rfl rfl rfl)
  unfold Tracker.resumeSweep? at moved
  split at moved
  case h_1 =>
    cases moved
    unfold beginSweep
    split
    · exact h.finishSweep found
    · exact h.sweepFrom found _
  case h_2 =>
    cases moved
    exact h.failSweep found _
  case h_3 =>
    cases moved
    exact (told (t.beginWork session last _ _).2).putSweeping found _ _
  case h_4 =>
    rcases Option.map_eq_some_iff.mp moved with ⟨⟨progress, mid⟩, -, rfl⟩
    exact (told mid).putSweeping found _ progress
  case h_5 => cases moved

end Sweep

/-! ## Watches -/

/-- At most the first live block of a run that had none is set. -/
structure SettlesFirst (run : Nat) (t u : Tracker S) : Prop where
  status : u.status = t.status
  token : u.token = t.token
  runTasks : u.runTasks = t.runTasks
  tasks : u.tasks = t.tasks
  others : ∀ {other : Nat}, other ≠ run → u.first other = t.first other
  arrived : ∀ {number : UInt64}, t.first run = .arrived number → u.first run = .arrived number

theorem SettlesFirst.trans {run : Nat} (h : t.SettlesFirst run u) (g : u.SettlesFirst run v) :
    t.SettlesFirst run v where
  status := g.status.trans h.status
  token := g.token.trans h.token
  runTasks := g.runTasks.trans h.runTasks
  tasks := g.tasks.trans h.tasks
  others differ := (g.others differ).trans (h.others differ)
  arrived met := g.arrived (h.arrived met)

theorem settlesFirst_ledger (run : Nat) (mid : Ledger S) : t.SettlesFirst run { t with ledger := mid } :=
  ⟨rfl, rfl, rfl, rfl, fun _ => rfl, fun met => met⟩

theorem settlesFirst_settle (run : Nat) (first : FirstBlock) : t.SettlesFirst run (t.settle run first) := by
  unfold settle
  split
  case isFalse => exact ⟨rfl, rfl, rfl, rfl, fun _ => rfl, fun met => met⟩
  case isTrue waits =>
    refine ⟨rfl, rfl, runTasks_modify run _ fun _ => rfl, rfl, ?_, fun met => by cases waits.symm.trans met⟩
    intro other differ
    simp [Tracker.first, Tracker.emit, Ne.symm differ]

section Watch

variable {session : Session} {point : WatchPoint}

/-- A step of a watch preserves `WatchInvariant` if the watch of a run that can still be stopped stays
at work. -/
theorem WatchInvariant.put_watch (h : t.WatchInvariant) (found : t.tasks[id]? = some (.watching session point))
    (settles : t.SettlesFirst session.run v)
    (same : ∀ {other : Session} {at_point : WatchPoint}, next = .watching other at_point → other.run = session.run)
    (status : t.token = some session.run → point.Fits (t.first session.run) →
      next.WatchStatus session.run (v.first session.run)) : (v.put id next).WatchInvariant := by
  have tasks : (v.put id next).tasks = (t.put id next).tasks := congrArg (·.set id next) settles.tasks
  obtain ⟨starter, watched⟩ := h.watched found
  constructor
  case held =>
    intro active free
    rw [show (v.put id next).token = t.token from settles.token]
    have before : t.IsActive := by simpa [IsActive, put, settles.status] using active
    have decided : Role.undecided ∉ (t.put id next).life.roles := by simpa [life, tasks] using free
    exact held_put h found (by simp [Task.role]) before decided
  case stands =>
    intro run token
    have token : t.token = some run := settles.token ▸ token
    obtain ⟨starter, watch, post, latest, ⟨start, start_found, awaits⟩, follower, watch_found, attended⟩ :=
      h.stands token
    have start_differs : starter ≠ id := by
      rintro rfl
      cases start_found.symm.trans found
      cases awaits
    have start_found' : (v.put id next).tasks[starter]? = some start := by
      rw [tasks, getElem?_tasks_put_ne start_differs]
      exact start_found
    by_cases mine : run = session.run
    · subst mine
      cases post.symm.trans watched
      cases watch_found.symm.trans found
      cases attended with
      | follows _ fits =>
          exact ⟨starter, id, settles.runTasks ▸ post, settles.runTasks ▸ latest,
            ⟨start, start_found', awaits.settled fun _ => settles.arrived⟩, next,
            tasks ▸ getElem?_tasks_put found, status token fits⟩
    · have watch_differs : watch ≠ id := by
        rintro rfl
        cases watch_found.symm.trans found
        cases attended with
        | follows same => exact mine same.symm
      have first : (v.put id next).first run = t.first run := settles.others mine
      refine ⟨starter, watch, settles.runTasks ▸ post, settles.runTasks ▸ latest, ⟨start, start_found', first ▸ awaits⟩,
        follower, ?_, first ▸ attended⟩
      rw [tasks, getElem?_tasks_put_ne watch_differs]
      exact watch_found
  case watched =>
    intro i other at_point here
    rw [show (v.put id next).runTasks = t.runTasks from settles.runTasks]
    rw [tasks] at here
    by_cases place : i = id
    · subst place
      cases (getElem?_tasks_put found).symm.trans here
      exact ⟨starter, same rfl ▸ watched⟩
    · exact h.watched ((getElem?_tasks_put_ne place next).symm.trans here)

/-- The outcomes of a step of a watch: it continues, fails, ends at the cancellation of its run, or crashes. -/
inductive WatchStep (t : Tracker S) (id : Nat) (session : Session) : WatchPoint → Tracker S → Prop where
  | on {point next : WatchPoint} {v : Tracker S} : t.SettlesFirst session.run v →
      (point.Fits (t.first session.run) → next.Fits (v.first session.run)) →
      WatchStep t id session point (v.put id (.watching session next))
  | fail {point : WatchPoint} (mid : Ledger S) (cause : TrackError) : point ≠ .launched →
      (point = .listening → t.isOver session.run = false) →
      WatchStep t id session point (failWatch { t with ledger := mid } id session cause)
  | leave : WatchStep t id session .listening (t.leaveWatch id session)
  | die {point : WatchPoint} {v : Tracker S} : t.SettlesFirst session.run v →
      WatchStep t id session point (v.crashWatch id session)

theorem watchStep_putObserving {live : Header} {work : Work} (mid : Ledger S) (progress : Progress) :
    t.WatchStep id session (.observing live work) (putObserving { t with ledger := mid } id session live progress) := by
  cases progress with
  | waits next => exact .on (settlesFirst_ledger _ mid) fun fits => fits
  | finished =>
      simp only [putObserving, afterLive]
      split
      · exact .on ((settlesFirst_ledger _ mid).trans (settlesFirst_ledger _ _)) fun fits => fits
      · refine .on (settlesFirst_ledger _ mid) ?_
        rintro ⟨number, arrived⟩ missed
        cases arrived.symm.trans missed
  | failed e => exact .fail mid e (by simp) (by simp)
  | crashed => exact .die (settlesFirst_ledger _ mid)

theorem watchStep_putConfirming {live : Header} (onBlock : point.isOnBlock) (mid : Ledger S) (progress : Progress) :
    t.WatchStep id session point (putConfirming { t with ledger := mid } id session live progress) := by
  have arrived {first : FirstBlock} (fits : point.Fits first) : ∃ number, first = .arrived number := by
    cases point <;> first | exact fits | cases onBlock
  cases progress with
  | waits next => exact .on (settlesFirst_ledger _ mid) arrived
  | finished =>
      refine .on (settlesFirst_ledger _ mid) ?_
      intro fits missed
      obtain ⟨number, met⟩ := arrived fits
      cases met.symm.trans missed
  | failed e =>
      refine .fail mid e ?_ ?_
      · rintro rfl
        cases onBlock
      · rintro rfl
        cases onBlock
  | crashed => exact .die (settlesFirst_ledger _ mid)

theorem watchStep_meetLive (bound : session.run < t.runs.length) (live : Header) :
    t.WatchStep id session .listening (t.meetLive id session live) := by
  have settles : t.SettlesFirst session.run
      ((t.emit (.live session.run live.number)).settle session.run (.arrived live.number)) :=
    (settlesFirst_ledger _ _).trans (settlesFirst_settle _ _)
  have first := first_settle (t := t.emit (.live session.run live.number)) bound (.arrived live.number)
  unfold meetLive
  dsimp only
  rcases Work.observe_cases ((t.emit (.live session.run live.number)).settle session.run
    (.arrived live.number)).ledger live with ⟨work, begun⟩ | crashed
  · rw [begun]
    refine .on settles ?_
    intro unmissed
    rw [first]
    have same : (t.emit (.live session.run live.number)).first session.run = t.first session.run := rfl
    cases known : t.first session.run with
    | awaited => exact ⟨live.number, by simp [same, known]⟩
    | arrived number => exact ⟨number, by simp [same, known]⟩
    | missed => exact (unmissed known).elim
  · rw [crashed]
    exact .die settles

variable [BlockStore S]

theorem watchStep_resumeWatch? (bound : session.run < t.runs.length) {answer : Answer}
    (moved : t.resumeWatch? id session point answer = some u) : t.WatchStep id session point u := by
  unfold resumeWatch? at moved
  split at moved
  case h_1 =>
    cases moved
    exact .on (settlesFirst_ledger _ _) fun fits => fits
  case h_2 =>
    cases moved
    exact .fail t.ledger _ (by simp) (by simp)
  case h_3 =>
    cases moved
    refine .on (settlesFirst_ledger _ t.ledger) ?_
    intro awaited missed
    cases awaited.symm.trans missed
  case h_4 =>
    split at moved <;> cases moved
    exact .leave
  case h_5 =>
    split at moved
    · cases moved
    · rename_i live
      split at moved <;> cases moved
      · exact watchStep_meetLive bound _
      · exact .fail t.ledger _ (by simp) fun _ => by simpa using live
      · exact .fail t.ledger _ (by simp) fun _ => by simpa using live
  case h_6 =>
    rcases Option.map_eq_some_iff.mp moved with ⟨⟨progress, mid⟩, -, rfl⟩
    exact watchStep_putObserving mid progress
  case h_7 =>
    cases moved
    exact .fail t.ledger _ (by simp) (by simp)
  case h_8 =>
    cases moved
    exact watchStep_putConfirming rfl _ _
  case h_9 =>
    rcases Option.map_eq_some_iff.mp moved with ⟨⟨progress, mid⟩, -, rfl⟩
    exact watchStep_putConfirming rfl mid progress
  case h_10 => cases moved

end Watch

/-! ## Moves -/

section Moves

variable {session : Session} {point : WatchPoint} {m : Move}

theorem isActive_of_token (sound : t.life.Sound) {run : Nat} (token : t.token = some run) : t.IsActive := by
  have held (still : t.status = .idle ∨ t.status = .stopping) : False := by
    cases (sound.resting still).1.symm.trans token
  cases status : t.status with
  | idle => exact (held (Or.inl status)).elim
  | stopping => exact (held (Or.inr status)).elim
  | starting => exact Or.inl status
  | running => exact Or.inr status

theorem WatchInvariant.isLatest (h : t.WatchInvariant) {run : Nat} (token : t.token = some run) : t.isLatest run := by
  obtain ⟨starter, watch, -, latest, -⟩ := h.stands token
  have length : t.runTasks.length = t.runs.length := List.length_map _
  simp [Tracker.isLatest, ← length, latest]

theorem sound_finish (sound : t.life.Sound) (id : Nat) (outcome : Except TrackError Unit) :
    (t.finish id outcome).life.Sound := by
  rw [life_finish]
  exact sound.leave id

theorem outcome?_finish (found : t.tasks[id]? = some task) (outcome : Except TrackError Unit) :
    (t.finish id outcome).outcome? id = some outcome := by
  have here : (t.finish id outcome).tasks[id]? = some (.ended outcome) := getElem?_tasks_put found
  rw [outcome?, here]

theorem outcome?_finish_ne {i : Nat} (differ : i ≠ id) (outcome : Except TrackError Unit) :
    (t.finish id outcome).outcome? i = t.outcome? i := by
  have same : (t.finish id outcome).tasks[i]? = t.tasks[i]? := getElem?_tasks_put_ne differ _
  rw [outcome?, outcome?, same]

theorem outcome?_failWatch (found : t.tasks[id]? = some task) (session : Session) (cause : TrackError) :
    (t.failWatch id session cause).outcome? id = some (.ok ()) := by
  have settles := settlesFirst_settle (t := t.fail session cause) session.run .missed
  exact outcome?_finish (settles.tasks ▸ (noRunStep_fail session cause).1.kept found) _

/-- A watch that fails stops its run, unless the run has been cancelled. -/
theorem WatchInvariant.failWatch (h : t.WatchInvariant) (sound : t.life.Sound)
    (found : t.tasks[id]? = some (.watching session point)) (cause : TrackError)
    (early : t.token = some session.run → t.isOver session.run → point.Fits (t.first session.run) →
      t.first session.run = .awaited) : (t.failWatch id session cause).WatchInvariant := by
  obtain ⟨noRunStep, stopped⟩ := noRunStep_fail (t := t) session cause
  refine ((h.noRunStep noRunStep).put_watch (noRunStep.kept found) (settlesFirst_settle session.run .missed)
    (by simp) ?_).emit _
  intro token fits
  have before := noRunStep.token token
  have first := noRunStep.first session.run
  cases ceased : t.isOver session.run with
  | false => cases (stopped ceased (h.isLatest before) (isActive_of_token sound before)).symm.trans token
  | true =>
      obtain ⟨starter, watched⟩ := (h.noRunStep noRunStep).watched (noRunStep.kept found)
      have bound : session.run < (t.fail session cause).runs.length := by
        simpa [runTasks] using (List.getElem?_eq_some_iff.mp watched).1
      rw [first_settle bound, first, early before ceased (first ▸ fits), if_pos rfl]
      exact .missed rfl

/-- A step of a watch preserves `WatchInvariant`, unless it ends the watch on a block while only its
context is cancelled. -/
theorem WatchInvariant.watchStep (h : t.WatchInvariant) (sound : t.life.Sound)
    (found : t.tasks[id]? = some (.watching session point)) (watchStep : t.WatchStep id session point u)
    (stays : point.isOnBlock → t.token = some session.run → t.isOver session.run → u.outcome? id = none) :
    u.WatchInvariant := by
  cases watchStep with
  | on settles fits =>
      refine h.put_watch found settles ?_ fun _ before => .follows rfl (fits before)
      rintro other at_point ⟨⟩
      rfl
  | die settles =>
      have settles := settles.trans (settlesFirst_settle session.run .missed)
      exact (h.put_watch found settles (by simp) fun _ _ => .died).emit _
  | leave =>
      obtain ⟨noRunStep, stopped⟩ := noRunStep_stopInBackground (t := t) session.run
      refine ((h.noRunStep noRunStep).put_watch (noRunStep.kept found) (settlesFirst_settle session.run .missed)
        (by simp) ?_).emit _
      intro token
      have before := noRunStep.token token
      cases (stopped (h.isLatest before) (isActive_of_token sound before)).symm.trans token
  | fail mid cause other live =>
      have told : WatchInvariant { t with ledger := mid } := h.noRunStep (noRunStep_of_same rfl rfl rfl rfl)
      refine told.failWatch sound found cause ?_
      intro token ceased fits
      have ended := outcome?_failWatch (t := { t with ledger := mid }) found session cause
      cases point with
      | launched => exact (other rfl).elim
      | subscribing => exact fits
      | listening => cases (live rfl).symm.trans ceased
      | observing _ _ => cases (stays rfl token ceased).symm.trans ended
      | fetchingTarget _ => cases (stays rfl token ceased).symm.trans ended
      | confirming _ _ => cases (stays rfl token ceased).symm.trans ended

/-- A watch and a start of the latest run that have both ended leave an active tracker unwatched. -/
theorem isUnwatched_of_ended {run starter watch : Nat} (sound : t.life.Sound) (token : t.token = some run)
    (post : t.runTasks[run]? = some (starter, watch)) (latest : t.runTasks.length = run + 1)
    (watch_ended : t.outcome? watch ≠ none) (start_ended : t.outcome? starter ≠ none) : t.IsUnwatched := by
  refine ⟨isActive_of_token sound token, ?_, ?_⟩
  · intro undecided
    obtain ⟨i, found⟩ := List.mem_iff_getElem?.mp undecided
    cases (sound.undecided found).1.symm.trans token
  · rw [runTasks, List.getElem?_map] at post
    obtain ⟨r, found, same⟩ := Option.map_eq_some_iff.mp post
    cases same
    rw [runTasks, List.length_map] at latest
    exact ⟨r, by rw [List.getLast?_eq_getElem?, latest, Nat.add_sub_cancel, found], watch_ended, start_ended⟩

/-- A failure in a run that is over is ignored, and so is the end of its watch once the first live block
is known. -/
theorem failWatch_of_over (id : Nat) (ceased : t.isOver session.run) {number : UInt64}
    (met : t.first session.run = .arrived number) (cause : TrackError) :
    t.failWatch id session cause = t.finish id (.ok ()) := by
  rw [Tracker.failWatch, Tracker.fail, if_pos ceased, finishWatch, settle, if_neg (by simp [met])]

/-- A watch that ends on a block while its run is over changes nothing else. -/
theorem WatchStep.eq_finish (h : t.WatchStep id session point u) (found : t.tasks[id]? = some (.watching session point))
    (onBlock : point.isOnBlock) (ceased : t.isOver session.run) {number : UInt64}
    (met : t.first session.run = .arrived number) (ended : u.outcome? id ≠ none) :
    ∃ mid, u = { t with ledger := mid }.finish id (.ok ()) := by
  cases h with
  | @on _ next v settles =>
      have here : (v.put id (.watching session next)).tasks[id]? = some (.watching session next) :=
        getElem?_tasks_put (settles.tasks ▸ found)
      simp [outcome?, here] at ended
  | @die _ v settles =>
      have settles := settles.trans (settlesFirst_settle session.run .missed)
      have here : (v.crashWatch id session).tasks[id]? = some .crashed :=
        getElem?_tasks_put (settles.tasks ▸ found)
      simp [outcome?, here] at ended
  | leave => cases onBlock
  | fail mid cause => exact ⟨mid, failWatch_of_over (t := { t with ledger := mid }) id ceased met cause⟩

variable [BlockStore S]

/-- A watch ends on a live block after its context was cancelled and before the tracker is stopped. -/
def LosesWatch (t : Tracker S) : Move → Prop
  | .resume id answer => ∃ session point u, t.tasks[id]? = some (.watching session point) ∧ point.isOnBlock ∧
      t.token = some session.run ∧ t.isOver session.run ∧ t.resume? id answer = some u ∧ u.outcome? id ≠ none
  | _ => False

theorem WatchInvariant.move? (h : t.WatchInvariant) (sound : t.life.Sound) (stays : ¬t.LosesWatch m)
    (moved : t.move? m = some u) : u.WatchInvariant := by
  cases m with
  | start context =>
      cases moved
      exact h.noRunStep (noRunStep_spawn rfl)
  | stop =>
      cases moved
      exact h.noRunStep (noRunStep_spawn rfl)
  | cancel context =>
      cases moved
      exact h.noRunStep (noRunStep_of_same rfl rfl rfl rfl)
  | setHeight height =>
      cases moved
      unfold setHeight
      split
      · exact h
      · exact h.noRunStep (noRunStep_of_same rfl rfl rfl rfl)
  | resubscribe dispatcher =>
      cases moved
      exact h.noRunStep (noRunStep_of_same rfl rfl rfl rfl)
  | resume id answer =>
      have resumed : t.resume? id answer = some u := moved
      simp only [Tracker.move?] at moved
      unfold resume? at moved
      split at moved
      · rename_i found
        exact h.resumeStart? sound found moved
      · rename_i found
        rcases Option.map_eq_some_iff.mp moved with ⟨⟨next, v⟩, stopped, rfl⟩
        exact h.resumeStop? found stopped
      · rename_i session point found
        obtain ⟨starter, watched⟩ := h.watched found
        have bound : session.run < t.runs.length := by
          simpa [runTasks] using (List.getElem?_eq_some_iff.mp watched).1
        refine h.watchStep sound found (watchStep_resumeWatch? bound moved) ?_
        intro onBlock token ceased
        cases ended : u.outcome? id with
        | none => rfl
        | some outcome =>
            exact (stays ⟨session, point, u, found, onBlock, token, ceased, resumed, by simp [ended]⟩).elim
      · rename_i found
        exact h.resumeSweep? found moved
      · cases moved

/-- A history in which no start takes the tracker from an undecided one and no watch is lost. -/
def KeepsWatch (t : Tracker S) (m : Move) : Prop :=
  t.Orderly m ∧ ¬t.LosesWatch m

theorem watchInvariant_of_keepsWatch {settings : TrackerSettings} {store : S}
    (history : Reaches KeepsWatch (make settings store) t) : t.life.Sound ∧ t.WatchInvariant := by
  refine history.invariant (P := fun t => t.life.Sound ∧ t.WatchInvariant) ⟨Life.sound_make, ?_⟩ ?_
  · refine ⟨fun active => ?_, fun token => ?_, fun found => ?_⟩
    · rcases active with active | active <;> cases active
    · cases token
    · cases found
  · intro v w m ih allowed moved
    obtain ⟨orderly, stays⟩ := allowed
    exact ⟨ih.1.steps (steps_move? orderly moved), ih.2.move? ih.1 stays moved⟩

theorem resume?_of_over {context : Context} {lowest number : UInt64}
    (found : t.tasks[id]? = some (.starting context (.awaitingFirst session lowest)))
    (met : t.first session.run = .arrived number) (ceased : t.isOver session.run) :
    t.resume? id .go = some (t.finish id (.error .cancelled)) := by
  simp [resume?, found, Tracker.resumeStart?, met, Tracker.launchSweep, ceased]

/-- A lost watch leaves the tracker unwatched, at the latest when its start has ended. -/
theorem WatchInvariant.exists_isUnwatched (h : t.WatchInvariant) (sound : t.life.Sound) (loses : t.LosesWatch m)
    (moved : t.move? m = some u) : ∃ v, Reaches KeepsWatch u v ∧ v.IsUnwatched := by
  cases m with
  | resume id answer =>
      obtain ⟨session, point, u', found, onBlock, token, ceased, resumed, ended⟩ := loses
      cases resumed.symm.trans moved
      obtain ⟨starter, watch, post, latest, ⟨start, start_found, awaits⟩, follower, watch_found, status⟩ :=
        h.stands token
      obtain ⟨starter', watched⟩ := h.watched found
      cases post.symm.trans watched
      cases watch_found.symm.trans found
      -- a watch is on a block only when its first live block is known
      obtain ⟨number, met⟩ : ∃ number, t.first session.run = .arrived number := by
        cases status with
        | follows _ fits => cases point <;> first | exact fits | cases onBlock
      have walked : t.WatchStep id session point u := by
        have bound : session.run < t.runs.length := by
          simpa [runTasks] using (List.getElem?_eq_some_iff.mp watched).1
        simp only [resume?, found] at resumed
        exact watchStep_resumeWatch? bound resumed
      obtain ⟨mid, rfl⟩ := walked.eq_finish found onBlock ceased met ended
      have sound : ({ t with ledger := mid }.finish id (.ok ())).life.Sound :=
        sound_finish (t := { t with ledger := mid }) sound id _
      have start_differs : starter ≠ id := by
        rintro rfl
        cases start_found.symm.trans found
        cases awaits
      have start_found : ({ t with ledger := mid }.finish id (.ok ())).tasks[starter]? = some start :=
        (getElem?_tasks_put_ne start_differs _).trans start_found
      cases awaits with
      | met => exact ⟨_, .refl, isUnwatched_of_ended sound token post latest ended (by simp [outcome?, start_found])⟩
      | waits same =>
          -- the start comes upon the cancellation, and leaves the stop to the watch
          have gone := resume?_of_over start_found (same ▸ met) (same ▸ ceased)
          refine ⟨_, .move (m := .resume starter .go) .refl ⟨?_, ?_⟩ gone, ?_⟩
          · rintro ⟨context, launched⟩
            cases start_found.symm.trans launched
          · rintro ⟨other, at_point, v, watching, -⟩
            cases start_found.symm.trans watching
          · refine isUnwatched_of_ended (sound_finish sound starter _) token post latest ?_ ?_
            · rwa [outcome?_finish_ne (Ne.symm start_differs)]
            · rw [outcome?_finish start_found]
              simp
  | _ => exact loses.elim

/-- Along histories in which no start took the tracker from an undecided one and no watch was lost, an
active tracker has a watch; and the next move preserves this in every continuation exactly if it loses
no watch either. -/
theorem watched_iff_not_losesWatch {settings : TrackerSettings} {store : S}
    (history : Reaches KeepsWatch (make settings store) t) (orderly : t.Orderly m) (moved : t.move? m = some u) :
    ¬t.IsUnwatched ∧ (¬t.LosesWatch m ↔ ∀ v, Reaches KeepsWatch u v → ¬v.IsUnwatched) := by
  obtain ⟨sound, attended⟩ := watchInvariant_of_keepsWatch history
  refine ⟨attended.not_isUnwatched, ?_, ?_⟩
  · intro stays v rest
    exact (watchInvariant_of_keepsWatch ((history.move ⟨orderly, stays⟩ moved).trans rest)).2.not_isUnwatched
  · intro kept loses
    obtain ⟨v, rest, unwatched⟩ := attended.exists_isUnwatched sound loses moved
    exact kept v rest unwatched

end Moves

/-! ## A lost watch -/

section LostWatch

variable [BlockStore S]

def isLosingWatch (t : Tracker S) : Move → Bool
  | .resume id answer =>
      match t.tasks[id]? with
      | some (.watching session point) =>
          point.isOnBlock && t.token == some session.run && t.isOver session.run &&
            (t.resume? id answer).any fun u => (u.outcome? id).isSome
      | _ => false
  | _ => false

theorem isLosingWatch_of_losesWatch {m : Move} (h : t.LosesWatch m) : t.isLosingWatch m := by
  cases m with
  | resume id answer =>
      obtain ⟨session, point, u, found, onBlock, token, ceased, resumed, ended⟩ := h
      simp [isLosingWatch, found, onBlock, token, ceased, resumed, Option.isSome_iff_ne_none, ended]
  | _ => exact h.elim

/-- The context is cancelled while the watch requests the block that its first live block makes final. -/
def cancelledMoves : List Move :=
  [.start "plain", .resume 0 .go, .resume 0 (.chain (.ok 1)), .resume 0 (.stored none), .resume 1 .go,
    .resume 1 (.subscribed (.ok ())), .resume 1 (.arrival (some (.ok (plainChain.block 1)))), .resume 0 .go,
    .resume 2 .go, .resume 1 (.stored none), .cancel "plain"]

/-- The node then fails to answer. -/
def unanswered : Move :=
  .resume 1 (.header (.error (.rpc "down")))

theorem watched_iff_not_losesWatch_unanswered :
    ∃ t u : Tracker NestedStore, (make { confirmations := some 1 } NestedStore.empty).trial?
        (fun t m => t.isOrderly m && !t.isLosingWatch m) cancelledMoves = some t ∧ t.move? unanswered = some u ∧
      ¬t.IsUnwatched ∧ (¬t.LosesWatch unanswered ↔ ∀ v, Reaches KeepsWatch u v → ¬v.IsUnwatched) := by
  have shape : (((make { confirmations := some 1 } NestedStore.empty).trial?
      (fun t m => t.isOrderly m && !t.isLosingWatch m) cancelledMoves).bind (·.move? unanswered)).isSome := by
    decide +kernel
  obtain ⟨u, moved⟩ := Option.isSome_iff_exists.mp shape
  obtain ⟨t, tried, moved⟩ := Option.bind_eq_some_iff.mp moved
  have history : Reaches KeepsWatch (make { confirmations := some 1 } NestedStore.empty) t := by
    refine reaches_of_trial? ?_ tried
    intro t m allowed
    simp only [Bool.and_eq_true, Bool.not_eq_true'] at allowed
    exact ⟨orderly_of_isOrderly allowed.1, fun loses => by
      cases allowed.2.symm.trans (isLosingWatch_of_losesWatch loses)⟩
  exact ⟨t, u, tried, moved, watched_iff_not_losesWatch history trivial moved⟩

/-- The tracker has no watch, and its status is running. -/
theorem exists_isUnwatched_of_orderly :
    ∃ t, Reaches Orderly (make { confirmations := some 1 } NestedStore.empty) t ∧ t.IsUnwatched := by
  have shape : ((make { confirmations := some 1 } NestedStore.empty).trial? isOrderly
      (cancelledMoves ++ [unanswered])).map (fun t => (t.status, t.life.roles.contains .undecided,
        t.runs.map fun r => ((t.outcome? r.watch).isSome, (t.outcome? r.starter).isSome))) =
      some (.running, false, [(true, true)]) := by
    decide +kernel
  obtain ⟨t, tried, at_end⟩ := Option.map_eq_some_iff.mp shape
  simp only [Prod.mk.injEq, List.map_eq_singleton_iff] at at_end
  obtain ⟨running, decided, r, runs, watch_ended, start_ended⟩ := at_end
  refine ⟨t, reaches_of_trial? orderly_of_isOrderly tried, Or.inr running, ?_, r, by rw [runs]; rfl,
    Option.isSome_iff_ne_none.mp watch_ended, Option.isSome_iff_ne_none.mp start_ended⟩
  intro undecided
  cases decided.symm.trans (List.contains_iff_mem.mpr undecided)

end LostWatch

end Tracker

end Chainwatch
