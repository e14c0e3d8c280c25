import Chainwatch.Proofs.Tracker.Escalation
import Chainwatch.Proofs.Tracker.Work

/-!
# Conflicts of the loops

A loop that records a block may find it recorded: the store refuses the head with a conflict, and the loop
continues as if the block were done. The other writes of a loop may conflict as well, when the hash of a
block is stored under another number. Such a conflict is reported like any failure, and ends a run that is
not over.
-/

namespace Chainwatch

def Answer.isNodeFault : Answer → Bool
  | .chain (.error _) | .subscribed (.error _) | .header (.error _) | .logs (.error _) => true
  | .arrival none | .arrival (some (.error _)) => true
  | _ => false

def Move.isNodeFault : Move → Bool
  | .resume _ answer => answer.isNodeFault
  | _ => false

/-- The tracker is not stopped, no context is cancelled, and blooms have their full length. -/
def Move.IsHarmless : Move → Prop
  | .stop | .cancel _ => False
  | .resume _ (.header (.ok header)) | .resume _ (.arrival (some (.ok header))) => header.bloom.IsFull
  | _ => True

def Task.isStop : Task → Bool
  | .stopping _ | .starting _ (.stopping _ _) => true
  | _ => false

/-- A write of a loop that the store refuses. -/
structure Refusal where
  run : Nat
  work : Work
  cause : TrackError
  deriving DecidableEq, Repr

namespace Work

variable {S α : Type}

/-- The work is recording an observed block. -/
def isRecording : Work → Bool
  | .record _ _ => true
  | _ => false

def cause? : Except TrackError α → Option TrackError
  | .error e => some e
  | .ok _ => none

theorem cause?_eq_some {outcome : Except TrackError α} {cause : TrackError} :
    cause? outcome = some cause ↔ outcome = .error cause := by
  cases outcome <;> simp [cause?]

variable [BlockStore S]

/-- The refusal of the write that the work waits for; `none` if the store accepts it, or if the work
waits for the node. -/
def refusal? (session : Session) (l : Ledger S) (fault : Option TrackError) : Work → Option TrackError
  | .record header state => cause? (l.recordHead fault (.ofHeader session.chain header state)).1
  | .saveSeen header events => cause? (l.recordEvents fault session.chain header.hash events).1
  | .promote header _ => cause? (l.promoteHead fault (.ofHeader session.chain header .confirmed)).1
  | .saveConfirmed header events => cause? (l.keepEvents fault session.chain header.hash events).1
  | .fetchSeen _ _ | .fetchConfirmed _ _ => none

variable {session : Session} {l after : Ledger S} {work : Work} {answer : Answer} {cause : TrackError}
  {fault : Option TrackError} {progress : Progress}

/-- Work whose write is refused fails, unless it finds the block recorded. -/
theorem resume?_of_refusal? (refused : work.refusal? session l fault = some cause) : ∃ after,
    work.resume? session l (.stored fault) =
      some (if work.isRecording ∧ cause.isConflict then .finished else .failed cause, after) := by
  cases work with
  | record header state =>
      rw [refusal?, cause?_eq_some] at refused
      refine ⟨(l.recordHead fault (.ofHeader session.chain header state)).2, ?_⟩
      simp only [resume?, isRecording, true_and]
      split <;> rename_i recorded <;> rw [recorded] at refused <;> cases refused
      rw [recorded]
  | saveSeen header events =>
      rw [refusal?, cause?_eq_some] at refused
      refine ⟨(l.recordEvents fault session.chain header.hash events).2, ?_⟩
      simp only [resume?, isRecording, Bool.false_eq_true, false_and, if_false]
      split <;> rename_i saved <;> rw [saved] at refused <;> cases refused
      rw [saved]
  | promote header events =>
      rw [refusal?, cause?_eq_some] at refused
      refine ⟨(l.promoteHead fault (.ofHeader session.chain header .confirmed)).2, ?_⟩
      simp only [resume?, isRecording, Bool.false_eq_true, false_and, if_false]
      split <;> rename_i promoted <;> rw [promoted] at refused <;> cases refused
      rw [promoted]
  | saveConfirmed header events =>
      rw [refusal?, cause?_eq_some] at refused
      refine ⟨(l.keepEvents fault session.chain header.hash events).2, ?_⟩
      simp only [resume?, isRecording, Bool.false_eq_true, false_and, if_false]
      split <;> rename_i saved <;> rw [saved] at refused <;> cases refused
      rw [saved]
  | fetchSeen header addresses => cases refused
  | fetchConfirmed header addresses => cases refused

theorem refusal?_of_failed (moved : work.resume? session l answer = some (.failed cause, after))
    (served : answer.isNodeFault = false) : ∃ fault, answer = .stored fault ∧
      work.refusal? session l fault = some cause ∧ ¬(work.isRecording ∧ cause.isConflict) := by
  cases outcome_of_resume? moved with
  | unserved | unconfirmed => cases served
  | unrecorded written severe =>
      exact ⟨_, rfl, cause?_eq_some.mpr (congrArg Prod.fst written), fun passed => severe passed.2⟩
  | unsaved written | unpromoted written | unkept written =>
      exact ⟨_, rfl, cause?_eq_some.mpr (congrArg Prod.fst written), by simp [isRecording]⟩

theorem resume?_ne_crashed (moved : work.resume? session l answer = some (progress, after)) :
    progress ≠ .crashed := by
  rintro rfl
  cases outcome_of_resume? moved

omit [BlockStore S] in
theorem exists_observe (l : Ledger S) {header : Header} (full : header.bloom.IsFull) :
    ∃ work, observe l header = .waits work := by
  obtain ⟨held, told⟩ := Option.isSome_iff_exists.mp
    (Bloom.containsAny?_isSome full l.outlet.dispatcher.addresses)
  simp only [observe, Outlet.mayHold?, told]
  exact ⟨_, rfl⟩

omit [BlockStore S] in
theorem exists_confirm (l : Ledger S) {header : Header} (full : header.bloom.IsFull) :
    ∃ work, (confirm l header).1 = .waits work := by
  refine (confirm_cases l header).resolve_right fun crashed => ?_
  obtain ⟨held, told⟩ := Option.isSome_iff_exists.mp
    (Bloom.containsAny?_isSome full l.outlet.dispatcher.addresses)
  simp only [confirm, Outlet.mayHold?, told] at crashed
  cases held with
  | false => cases congrArg Prod.fst crashed
  | true =>
      dsimp only at crashed
      split at crashed <;> cases congrArg Prod.fst crashed

/-! ## Clashes -/

/-- The work would store a block at an occupied number, or one whose hash is stored under another number. -/
def Clashes (view : View) (session : Session) : Work → Prop
  | .record header state => view.Taken (.ofHeader session.chain header state)
  | .promote header _ => view.OwnedElsewhere (.ofHeader session.chain header .confirmed)
  | _ => False

variable [LawfulStore S]

/-- `saveLogs` never reports a conflict. -/
theorem isConflict_saveLogs (sound : LawfulStore.Sound l.store) {chain : UInt64} {hash : String} {events : List Event}
    {hooks : List (Hook Outlet (List Event))} (passes : ∀ stored, (runHooks hooks stored l.outlet).1 = .ok ())
    (refused : cause? (l.write none fun store outlet =>
      BlockStore.saveLogs store chain hash events hooks outlet).1 = some cause) : cause.isConflict = false := by
  simp only [Ledger.write, cause?_eq_some] at refused
  by_cases none : events = []
  · subst none
    rw [LawfulStore.saveLogs_nil] at refused
    cases refused
  by_cases held : ∃ number, (LawfulStore.view l.store).holds chain number hash
  · obtain ⟨number, held⟩ := held
    obtain ⟨block, found, same⟩ := View.holds_iff.mp held
    have applied := LawfulStore.saveLogs_known hooks l.outlet sound none found same
    rw [applied.outcome, passes] at refused
    cases refused
  · rw [LawfulStore.saveLogs_unknown hooks l.outlet sound none fun number at_number =>
      held ⟨number, at_number⟩] at refused
    cases refused
    rfl

/-- A store that does not fail by itself refuses a write with a conflict exactly if the work clashes
with what is stored. -/
theorem refuses_iff_clashes (sound : LawfulStore.Sound l.store) (full : work.header.bloom.IsFull) :
    (∃ cause, work.refusal? session l none = some cause ∧ cause.isConflict) ↔
      work.Clashes (LawfulStore.view l.store) session := by
  cases work with
  | record header state =>
      simp only [refusal?, Ledger.recordHead, Ledger.write, cause?_eq_some, Clashes]
      by_cases taken : (LawfulStore.view l.store).Taken (.ofHeader session.chain header state)
      · obtain ⟨e, conflict, refused⟩ := LawfulStore.createHead_taken
          [fun stored outlet => (.ok (), outlet.tellHead (stored.withState .seen))] l.outlet sound taken
        rw [refused]
        exact iff_of_true ⟨e, rfl, conflict⟩ taken
      · have applied := LawfulStore.createHead_free
          [fun stored outlet => (.ok (), outlet.tellHead (stored.withState .seen))] l.outlet sound taken full
        refine iff_of_false ?_ taken
        rintro ⟨cause, refused, -⟩
        rw [applied.outcome] at refused
        cases refused
  | promote header events =>
      simp only [refusal?, Ledger.promoteHead, Ledger.write, cause?_eq_some, Clashes]
      by_cases taken : (LawfulStore.view l.store).OwnedElsewhere (.ofHeader session.chain header .confirmed)
      · rw [LawfulStore.upsertHead_taken [fun stored outlet => (.ok (), outlet.tellHead stored)] l.outlet sound taken]
        exact iff_of_true ⟨_, rfl, rfl⟩ taken
      · have applied := LawfulStore.upsertHead_free [fun stored outlet => (.ok (), outlet.tellHead stored)] l.outlet
          sound taken full
        refine iff_of_false ?_ taken
        rintro ⟨cause, refused, -⟩
        rw [applied.outcome] at refused
        cases refused
  | saveSeen header events =>
      refine iff_of_false ?_ not_false
      rintro ⟨cause, refused, conflict⟩
      exact Bool.false_ne_true ((isConflict_saveLogs sound (fun _ => rfl) refused).symm.trans conflict)
  | saveConfirmed header events =>
      refine iff_of_false ?_ not_false
      rintro ⟨cause, refused, conflict⟩
      exact Bool.false_ne_true ((isConflict_saveLogs sound (fun _ => rfl) refused).symm.trans conflict)
  | fetchSeen header addresses =>
      refine iff_of_false ?_ not_false
      rintro ⟨cause, refused, -⟩
      cases refused
  | fetchConfirmed header addresses =>
      refine iff_of_false ?_ not_false
      rintro ⟨cause, refused, -⟩
      cases refused

end Work

namespace Tracker

variable {S : Type} {t u : Tracker S} {id : Nat} {session : Session} {work : Work} {task : Task} {answer : Answer}

/-! ## Tasks at work -/

/-- Continues a task with the outcome of its work. -/
def proceed (t : Tracker S) (id : Nat) (progress : Progress) : Task → Tracker S
  | .watching session (.observing live _) => t.putObserving id session live progress
  | .watching session (.confirming live _) => t.putConfirming id session live progress
  | .sweeping session last (.working number _) => t.putSweeping id session last number progress
  | _ => t

theorem resume?_of_work? [BlockStore S] (found : t.tasks[id]? = some task)
    (under : task.work? = some (session, work)) :
    t.resume? id answer = (work.resume? session t.ledger answer).map fun (progress, ledger) =>
      { t with ledger }.proceed id progress task := by
  cases task with
  | watching run point =>
      cases point with
      | observing live on => cases under; simp only [resume?, found]; rfl
      | confirming live on => cases under; simp only [resume?, found]; rfl
      | _ => cases under
  | sweeping run last point =>
      cases point with
      | working number on => cases under; simp only [resume?, found]; rfl
      | _ => cases under
  | _ => cases under

/-! ## Failures -/

theorem failures_stopInBackground (run : Nat) : (t.stopInBackground run).failures = t.failures := by
  obtain ⟨-, -, -, -, -, -, begun⟩ := t.beginStop_spec
  have stopped : (t.beginStop.2.spawn (.stopping (.joining t.beginStop.1))).2.failures = t.failures :=
    (noEffect_spawn rfl).failures.trans begun
  unfold stopInBackground
  split
  · cases t.status with
    | idle | stopping => rfl
    | starting | running => exact stopped
  · rfl

theorem failures_fail (cause : TrackError) : (t.fail session cause).failures =
    t.failures ++ if t.isOver session.run then [] else [(session.run, cause)] := by
  unfold fail
  split
  · exact (List.append_nil _).symm
  · rw [failures_stopInBackground]
    exact List.filterMap_append ..

theorem failures_failWatch (cause : TrackError) : (t.failWatch id session cause).failures =
    t.failures ++ if t.isOver session.run then [] else [(session.run, cause)] :=
  noEffect_finishWatch.failures.trans (failures_fail cause)

theorem failures_failSweep (cause : TrackError) : (t.failSweep id session cause).failures =
    t.failures ++ if t.isOver session.run then [] else [(session.run, cause)] :=
  (noEffect_finish _).failures.trans (failures_fail cause)

theorem failures_proceed (under : task.work? = some (session, work)) (cause : TrackError) :
    (t.proceed id (.failed cause) task).failures =
      t.failures ++ if t.isOver session.run then [] else [(session.run, cause)] := by
  cases task with
  | watching run point =>
      cases point with
      | observing live on | confirming live on => cases under; exact failures_failWatch cause
      | _ => cases under
  | sweeping run last point =>
      cases point with
      | working number on => cases under; exact failures_failSweep cause
      | _ => cases under
  | _ => cases under

theorem fail_of_over (ended : t.isOver session.run) (cause : TrackError) : t.fail session cause = t :=
  if_pos ended

/-- If its work has not failed or its run is over, a task continues without a stop or a notice of failure. -/
theorem noEffect_proceed (under : task.work? = some (session, work)) {progress : Progress}
    (passes : ∀ cause, progress = .failed cause → t.isOver session.run) : t.NoEffect (t.proceed id progress task) := by
  have ended {cause : TrackError} (failed : progress = .failed cause) : t.fail session cause = t :=
    fail_of_over (passes cause failed) cause
  have watched {cause : TrackError} (failed : progress = .failed cause) :
      t.NoEffect (t.failWatch id session cause) := by
    rw [failWatch, ended failed]
    exact noEffect_finishWatch
  cases task with
  | watching run point =>
      cases point with
      | observing live on =>
          cases under
          cases progress with
          | waits next => exact noEffect_put rfl
          | finished => exact noEffect_afterLive live
          | failed cause => exact watched rfl
          | crashed => exact noEffect_crashWatch
      | confirming live on =>
          cases under
          cases progress with
          | waits next => exact noEffect_put rfl
          | finished => exact noEffect_put rfl
          | failed cause => exact watched rfl
          | crashed => exact noEffect_crashWatch
      | _ => cases under
  | sweeping run last point =>
      cases point with
      | working number on =>
          cases under
          cases progress with
          | waits next => exact noEffect_put rfl
          | finished =>
              simp only [proceed, putSweeping]
              split
              · exact noEffect_sweepFrom last _
              · exact noEffect_finish _
          | failed cause =>
              simp only [proceed, putSweeping, failSweep, ended rfl]
              exact noEffect_finish _
          | crashed => exact noEffect_crash
      | _ => cases under
  | _ => cases under

theorem failures_join (tasks : List Nat) : (t.join tasks).2.failures = t.failures := by
  cases tasks with
  | nil => exact Outlet.failures_emit rfl
  | cons task rest => rfl

theorem failures_enterStop : t.enterStop.2.failures = t.failures := by
  obtain ⟨-, -, -, -, -, -, begun⟩ := t.beginStop_spec
  unfold enterStop
  cases t.status with
  | idle | stopping => rfl
  | starting | running => exact (failures_join _).trans begun

theorem failures_resumeStop? {point following : StopPoint} (moved : t.resumeStop? point = some (following, u)) :
    u.failures = t.failures := by
  unfold resumeStop? at moved
  split at moved
  · have same : t.enterStop.2 = u := congrArg Prod.snd (Option.some.inj moved)
    exact same ▸ failures_enterStop
  · have same : (t.join []).2 = u := congrArg Prod.snd (Option.some.inj moved)
    exact same ▸ failures_join []
  · rename_i rest
    split at moved
    · have same : (t.join rest).2 = u := congrArg Prod.snd (Option.some.inj moved)
      exact same ▸ failures_join rest
    · cases moved
  · split at moved <;> cases moved
    rfl
  · cases moved

theorem failures_putStop (point : StopPoint) : (t.putStop id point).failures = t.failures := by
  cases point with
  | done => exact (noEffect_finish _).failures
  | _ => rfl

theorem failures_putGiveUp (context : Context) (reason : GiveUp) (point : StopPoint) :
    (t.putGiveUp id context reason point).failures = t.failures := by
  cases point with
  | done => exact (noEffect_finish _).failures
  | _ => rfl

theorem failures_meetLive (live : Header) : (t.meetLive id session live).failures = t.failures := by
  have met : ((t.emit (.live session.run live.number)).settle session.run (.arrived live.number)).failures =
      t.failures := (noEffect_settle _ _).failures.trans (Outlet.failures_emit rfl)
  unfold meetLive
  dsimp only
  rcases Work.observe_cases ((t.emit (.live session.run live.number)).settle session.run
    (.arrived live.number)).ledger live with ⟨work, begun⟩ | crashed
  · rw [begun]
    exact met
  · rw [crashed]
    exact noEffect_crashWatch.failures.trans met

variable [BlockStore S] {last : UInt64}

theorem failures_resumeStart? {context : Context} {point : StartPoint}
    (moved : t.resumeStart? id context point answer = some u) : u.failures = t.failures := by
  unfold resumeStart? at moved
  split at moved
  case h_1 =>
    split at moved <;> cases moved
    · exact Outlet.failures_emit rfl
    · exact (noEffect_finish _).failures
  case h_2 =>
    cases moved
    exact (noEffect_finish _).failures
  case h_3 =>
    cases moved
    rfl
  case h_4 =>
    split at moved <;> cases moved
    · exact (noEffect_finish _).failures
    · unfold launch
      split
      · exact Outlet.failures_emit rfl
      · exact (noEffect_finish _).failures
  case h_5 =>
    split at moved
    · cases moved
      unfold launchSweep
      split
      · exact (noEffect_finish _).failures.trans (Outlet.failures_emit rfl)
      · exact (noEffect_finish _).failures
    · cases moved
      exact (failures_putGiveUp _ _ _).trans failures_enterStop
    · split at moved <;> cases moved
      exact (failures_putGiveUp _ _ _).trans failures_enterStop
  case h_6 =>
    obtain ⟨⟨following, v⟩, stopped, rfl⟩ := Option.map_eq_some_iff.mp moved
    exact (failures_putGiveUp _ _ _).trans (failures_resumeStop? stopped)
  case h_7 => cases moved

theorem failures_resumeWatch? {point : WatchPoint} (idle : (Task.watching session point).work? = none)
    (served : answer.isNodeFault = false) (moved : t.resumeWatch? id session point answer = some u) :
    u.failures = t.failures := by
  unfold resumeWatch? at moved
  split at moved
  case h_1 =>
    cases moved
    exact Outlet.failures_emit rfl
  case h_2 => cases served
  case h_3 =>
    cases moved
    rfl
  case h_4 =>
    split at moved <;> cases moved
    exact noEffect_finishWatch.failures.trans (failures_stopInBackground _)
  case h_5 =>
    split at moved
    · cases moved
    · split at moved
      · cases moved
        exact failures_meetLive _
      · cases served
      · cases served
  case h_6 => cases idle
  case h_7 => cases served
  case h_8 live target =>
    have told := (Work.tells_confirm t.ledger target).failures
    rcases Work.confirm_cases t.ledger target with ⟨work, begun⟩ | crashed
    · simp only [begun, Option.some.injEq] at moved
      cases moved
      exact told
    · rw [crashed] at moved
      cases moved
      exact noEffect_crashWatch.failures
  case h_9 => cases idle
  case h_10 => cases moved

theorem failures_resumeSweep? {point : SweepPoint} (idle : (Task.sweeping session last point).work? = none)
    (served : answer.isNodeFault = false) (moved : t.resumeSweep? id session last point answer = some u) :
    u.failures = t.failures := by
  unfold resumeSweep? at moved
  split at moved
  case h_1 =>
    cases moved
    exact (noEffect_beginSweep last _).failures
  case h_2 => cases served
  case h_3 number header =>
    have told : (t.beginWork session last number header).2.outlet.failures = t.failures :=
      (tells_beginWork number header).failures
    rcases beginWork_cases t session last number header with ⟨work, begun⟩ | crashed
    · simp only [begun, Option.some.injEq] at moved
      cases moved
      exact told
    · rw [crashed] at moved
      cases moved
      exact noEffect_crash.failures
  case h_4 => cases idle
  case h_5 => cases moved

/-! ## Refusals -/

/-- The refusal met by the write of this move. -/
def refused? (t : Tracker S) : Move → Option Refusal
  | .resume id (.stored fault) =>
    (t.tasks[id]?.bind Task.work?).bind fun (session, work) =>
      (work.refusal? session t.ledger fault).map fun cause => ⟨session.run, work, cause⟩
  | _ => none

variable {m : Move} {r : Refusal}

theorem mem_refused? (refused : r ∈ t.refused? m) : ∃ id fault task session, m = .resume id (.stored fault) ∧
    t.tasks[id]? = some task ∧ task.work? = some (session, r.work) ∧ session.run = r.run ∧
      r.work.refusal? session t.ledger fault = some r.cause := by
  unfold refused? at refused
  split at refused
  · rename_i id fault
    obtain ⟨⟨session, work⟩, at_work, refused⟩ := Option.bind_eq_some_iff.mp refused
    obtain ⟨task, found, under⟩ := Option.bind_eq_some_iff.mp at_work
    obtain ⟨cause, caused, rfl⟩ := Option.map_eq_some_iff.mp refused
    exact ⟨id, fault, task, session, rfl, found, under, rfl, caused⟩
  · cases refused

theorem refused?_eq_some {fault : Option TrackError} {cause : TrackError} (found : t.tasks[id]? = some task)
    (under : task.work? = some (session, work)) (refused : work.refusal? session t.ledger fault = some cause) :
    t.refused? (.resume id (.stored fault)) = some ⟨session.run, work, cause⟩ := by
  simp only [refused?, found, Option.bind_some, under, refused, Option.map_some]

structure NotInterrupted (t u : Tracker S) : Prop where
  status : u.status = t.status
  rests : u.rests = t.rests
  ended : ∀ run, u.isOver run = t.isOver run
  told : ∃ notices, u.dispatcher = t.dispatcher.tell notices
  failures : u.failures = t.failures

/-- The loop continues after the refusal, or its run is over. -/
def IsTolerated (t : Tracker S) (r : Refusal) : Prop :=
  r.work.isRecording ∧ r.cause.isConflict ∨ t.isOver r.run

instance : Decidable (t.IsTolerated r) := inferInstanceAs (Decidable (_ ∨ _))

variable [HookedStore S]

theorem notInterrupted_of_refused (refused : r ∈ t.refused? m) (passed : t.IsTolerated r) (moved : t.move? m = some u) :
    t.NotInterrupted u := by
  obtain ⟨id, fault, task, session, rfl, found, under, same, refused⟩ := mem_refused? refused
  obtain ⟨after, resumed⟩ := Work.resume?_of_refusal? refused
  rw [Tracker.move?, resume?_of_work? found under] at moved
  generalize outcome : (if r.work.isRecording ∧ r.cause.isConflict then Progress.finished else .failed r.cause) =
    progress at resumed
  simp only [resumed, Option.map_some, Option.some.injEq] at moved
  obtain ⟨told, failures⟩ := Work.tells_resume? resumed
  have ended (cause : TrackError) (failed : progress = .failed cause) : t.isOver session.run := by
    rcases passed with recorded | ended
    · rw [if_pos recorded] at outcome
      cases outcome.trans failed
    · exact same ▸ ended
  have noEffect : NoEffect { t with ledger := after } u := moved ▸ noEffect_proceed under ended
  exact ⟨noEffect.status, noEffect.rests, noEffect.isOver, noEffect.dispatcher ▸ told, noEffect.failures.trans failures⟩

/-- Any other refusal is reported as the failure of the run. -/
theorem failures_of_refused (refused : r ∈ t.refused? m) (escalates : ¬t.IsTolerated r) (moved : t.move? m = some u) :
    u.failures = t.failures ++ [(r.run, r.cause)] := by
  obtain ⟨id, fault, task, session, rfl, found, under, same, refused⟩ := mem_refused? refused
  obtain ⟨fails, going⟩ := not_or.mp escalates
  obtain ⟨after, resumed⟩ := Work.resume?_of_refusal? refused
  rw [if_neg fails] at resumed
  rw [Tracker.move?, resume?_of_work? found under] at moved
  simp only [resumed, Option.map_some, Option.some.injEq] at moved
  subst moved
  have going : ¬isOver { t with ledger := after } session.run := same ▸ going
  rw [failures_proceed under, if_neg going, same]
  exact congrArg (· ++ [(r.run, r.cause)]) (Work.tells_resume? resumed).failures

/-- Where the node answers and the store refuses nothing, no failure is reported. -/
theorem failures_of_unrefused (served : m.isNodeFault = false) (unrefused : t.refused? m = none)
    (moved : t.move? m = some u) : u.failures = t.failures := by
  cases m with
  | start context =>
      cases moved
      exact Outlet.failures_emit rfl
  | stop =>
      cases moved
      exact Outlet.failures_emit rfl
  | cancel context =>
      cases moved
      exact Outlet.failures_emit rfl
  | setHeight height =>
      cases moved
      unfold setHeight
      split <;> rfl
  | resubscribe dispatcher =>
      cases moved
      rfl
  | resume id answer =>
      cases found : t.tasks[id]? with
      | none => simp [Tracker.move?, resume?, found] at moved
      | some task =>
          cases under : task.work? with
          | some at_work =>
              obtain ⟨session, work⟩ := at_work
              rw [Tracker.move?, resume?_of_work? found under] at moved
              obtain ⟨⟨progress, after⟩, resumed, rfl⟩ := Option.map_eq_some_iff.mp moved
              have sound (cause : TrackError) (failed : progress = .failed cause) : t.isOver session.run := by
                subst failed
                obtain ⟨fault, rfl, refused, -⟩ := Work.refusal?_of_failed resumed served
                rw [refused?_eq_some found under refused] at unrefused
                cases unrefused
              exact (noEffect_proceed (t := { t with ledger := after }) under sound).failures.trans
                (Work.tells_resume? resumed).failures
          | none =>
              simp only [Tracker.move?, resume?, found] at moved
              cases task with
              | starting context point => exact failures_resumeStart? moved
              | watching session point => exact failures_resumeWatch? under served moved
              | sweeping session last point => exact failures_resumeSweep? under served moved
              | stopping point =>
                  cases answer with
                  | go =>
                      obtain ⟨⟨following, v⟩, stopped, rfl⟩ := Option.map_eq_some_iff.mp moved
                      exact (failures_putStop _).trans (failures_resumeStop? stopped)
                  | _ => cases moved
              | ended outcome => cases moved
              | crashed => cases moved

/-! ## Histories of conflicts -/

/-- The node answers, and the store refuses writes of the loops for conflicts only. -/
def OnlyConflicts (t : Tracker S) (m : Move) : Prop :=
  m.isNodeFault = false ∧ ∀ r ∈ t.refused? m, r.cause.isConflict

/-- The move meets nothing but a conflict, and that while recording a block or in a run that is over. -/
def Swallows (t : Tracker S) (m : Move) : Prop :=
  t.OnlyConflicts m ∧ ∀ r ∈ t.refused? m, r.work.isRecording ∨ t.isOver r.run

instance : Decidable (t.OnlyConflicts m) := inferInstanceAs (Decidable (_ ∧ _))

instance : Decidable (t.Swallows m) := inferInstanceAs (Decidable (_ ∧ _))

/-- No failure is reported exactly if none was before and the move swallows what it meets. -/
theorem failures_eq_nil_iff (rule : t.OnlyConflicts m) (moved : t.move? m = some u) :
    u.failures = [] ↔ t.failures = [] ∧ t.Swallows m := by
  cases refused : t.refused? m with
  | none =>
      have swallows : t.Swallows m := ⟨rule, by simp [refused]⟩
      rw [failures_of_unrefused rule.1 refused moved, and_iff_left swallows]
  | some r =>
      have conflict := rule.2 r refused
      have swallows : t.Swallows m ↔ t.IsTolerated r := by simp [Swallows, IsTolerated, rule, refused, conflict]
      rw [swallows]
      by_cases passed : t.IsTolerated r
      · rw [(notInterrupted_of_refused refused passed moved).failures, and_iff_left passed]
      · simp [failures_of_refused refused passed moved, passed]

/-- Nothing other than swallowed conflicts interrupts the runs. -/
def Undisturbed (t : Tracker S) (m : Move) : Prop :=
  t.Swallows m ∧ m.IsHarmless

theorem failures_eq_nil_iff_reaches {first : Tracker S} (fresh : first.failures = [])
    (history : Reaches OnlyConflicts first t) : t.failures = [] ↔ Reaches Swallows first t := by
  constructor
  · intro silent
    induction history with
    | refl => exact .refl
    | move before rule moved ih =>
        obtain ⟨silent, swallows⟩ := (failures_eq_nil_iff rule moved).mp silent
        exact .move (ih silent) swallows moved
  · intro later
    exact later.invariant fresh fun silent swallows moved =>
      (failures_eq_nil_iff swallows.1 moved).mpr ⟨silent, swallows⟩

end Tracker

/-! ## Histories without a stop -/

namespace Tracker

variable {S : Type} {t u : Tracker S} {id : Nat} {session : Session} {work : Work} {task : Task} {answer : Answer}

/-- No run is stopped, and no task is about to stop one. -/
structure NothingStopped (t : Tracker S) : Prop where
  status : t.status ≠ .stopping
  cancelled : t.cancelled = []
  runs : ∀ {run : Nat} {r : Run}, t.runs[run]? = some r → r.halted = false ∧ r.first ≠ .missed
  tasks : ∀ {task : Task}, task ∈ t.tasks → task.isStop = false

theorem nothingStopped_make (settings : TrackerSettings) (store : S) : (make settings store).NothingStopped where
  status := by simp [make]
  cancelled := rfl
  runs found := by cases found
  tasks mem := by cases mem

namespace NothingStopped

theorem isOver (h : t.NothingStopped) (run : Nat) : t.isOver run = false := by
  unfold Tracker.isOver isCancelled
  cases found : t.runs[run]? with
  | none => rfl
  | some r => simp [(h.runs found).1, h.cancelled]

theorem of_same (h : t.NothingStopped) (status : u.status ≠ .stopping) (cancelled : u.cancelled = t.cancelled)
    (runs : u.runs = t.runs) (tasks : u.tasks = t.tasks) : u.NothingStopped where
  status := status
  cancelled := cancelled.trans h.cancelled
  runs found := h.runs (runs ▸ found)
  tasks mem := h.tasks (tasks ▸ mem)

theorem ledger (h : t.NothingStopped) (after : Ledger S) : NothingStopped { t with ledger := after } :=
  h.of_same h.status rfl rfl rfl

theorem emit (h : t.NothingStopped) (signal : Signal) : (t.emit signal).NothingStopped :=
  h.of_same h.status rfl rfl rfl

theorem put (h : t.NothingStopped) {next : Task} (goes : next.isStop = false) : (t.put id next).NothingStopped where
  status := h.status
  cancelled := h.cancelled
  runs := h.runs
  tasks mem := by
    rcases List.mem_or_eq_of_mem_set mem with old | rfl
    · exact h.tasks old
    · exact goes

theorem spawn (h : t.NothingStopped) {next : Task} (goes : next.isStop = false) : (t.spawn next).2.NothingStopped where
  status := h.status
  cancelled := h.cancelled
  runs := h.runs
  tasks mem := by
    rcases List.mem_append.mp mem with old | new
    · exact h.tasks old
    · exact List.mem_singleton.mp new ▸ goes

theorem finish (h : t.NothingStopped) (outcome : Except TrackError Unit) : (t.finish id outcome).NothingStopped :=
  (h.put rfl).emit _

theorem settle (h : t.NothingStopped) (run : Nat) (number : UInt64) :
    (t.settle run (.arrived number)).NothingStopped := by
  unfold Tracker.settle
  split
  · refine ⟨h.status, h.cancelled, fun {other r} found => ?_, h.tasks⟩
    rw [Tracker.emit, List.getElem?_modify] at found
    cases old : t.runs[other]? with
    | none => simp [old] at found
    | some before =>
        simp only [old, Option.map_eq_map, Option.map_some, Option.some.injEq] at found
        subst found
        split
        · exact ⟨(h.runs old).1, by simp⟩
        · exact h.runs old
  · exact h

theorem sweepFrom (h : t.NothingStopped) (last number : UInt64) :
    (t.sweepFrom id session last number).NothingStopped := by
  unfold Tracker.sweepFrom
  split
  · exact h.finish _
  · exact (h.emit _).put rfl

theorem beginSweep (h : t.NothingStopped) (last lowest : UInt64) :
    (t.beginSweep id session last lowest).NothingStopped := by
  unfold Tracker.beginSweep
  split
  · exact h.finish _
  · exact h.sweepFrom last lowest

theorem afterLive (h : t.NothingStopped) (live : Header) : (t.afterLive id session live).NothingStopped := by
  unfold Tracker.afterLive
  split
  · exact (h.emit _).put rfl
  · exact h.put rfl

/-- A task whose work neither fails nor crashes preserves `NothingStopped`. -/
theorem proceed (h : t.NothingStopped) {progress : Progress} (sound : ∀ cause, progress ≠ .failed cause)
    (lives : progress ≠ .crashed) (task : Task) : (t.proceed id progress task).NothingStopped := by
  cases progress with
  | failed cause => exact (sound cause rfl).elim
  | crashed => exact (lives rfl).elim
  | waits next =>
      unfold Tracker.proceed
      split
      · exact h.put rfl
      · exact h.put rfl
      · exact h.put rfl
      · exact h
  | finished =>
      unfold Tracker.proceed
      split
      · exact h.afterLive _
      · exact h.put rfl
      · simp only [putSweeping]
        split
        · exact h.sweepFrom _ _
        · exact h.finish _
      · exact h

theorem launch (h : t.NothingStopped) (context : Context) (chain height : UInt64) :
    (t.launch id context chain height).NothingStopped := by
  unfold Tracker.launch
  split
  case isFalse => exact h.finish _
  case isTrue =>
    have spawned :
        (t.spawn (.watching ⟨t.runs.length, chain, t.settings.threshold chain⟩ .launched)).2.NothingStopped :=
      h.spawn rfl
    refine put ?_ rfl
    refine ⟨h.status, h.cancelled, fun {run r} found => ?_, spawned.tasks⟩
    rcases found_append_singleton found with old | ⟨-, rfl⟩
    · exact h.runs old
    · simp

theorem launchSweep (h : t.NothingStopped) (lowest first : UInt64) :
    (t.launchSweep id session lowest first).NothingStopped := by
  unfold Tracker.launchSweep
  split
  · have spawned : (t.spawn (.sweeping session (lastBefore first) (.launched lowest))).2.NothingStopped := h.spawn rfl
    have running : NothingStopped { (t.spawn (.sweeping session (lastBefore first) (.launched lowest))).2 with
        status := .running, loops := t.loops ++ [t.tasks.length] } := spawned.of_same (by simp) rfl rfl rfl
    exact running.finish _
  · exact h.finish _

theorem meetLive (h : t.NothingStopped) {live : Header} (full : live.bloom.IsFull) :
    (t.meetLive id session live).NothingStopped := by
  have met : ((t.emit (.live session.run live.number)).settle session.run (.arrived live.number)).NothingStopped :=
    (h.emit _).settle _ _
  unfold Tracker.meetLive
  dsimp only
  obtain ⟨work, begun⟩ := Work.exists_observe
    ((t.emit (.live session.run live.number)).settle session.run (.arrived live.number)).ledger full
  rw [begun]
  exact met.put rfl

theorem not_missed (h : t.NothingStopped) (run : Nat) : t.first run ≠ .missed := by
  unfold first
  cases found : t.runs[run]? with
  | none => simp
  | some r => exact (h.runs found).2

variable [BlockStore S]

theorem resumeStart? (h : t.NothingStopped) {context : Context} {point : StartPoint}
    (going : (Task.starting context point).isStop = false) (moved : t.resumeStart? id context point answer = some u) :
    u.NothingStopped := by
  unfold Tracker.resumeStart? at moved
  split at moved
  case h_1 =>
    split at moved <;> cases moved
    · have taken : NothingStopped { t with status := .starting } := h.of_same (by simp) rfl rfl rfl
      exact (taken.emit _).put rfl
    · exact h.finish _
  case h_2 =>
    cases moved
    have freed : NothingStopped { t with status := .idle } := h.of_same (by simp) rfl rfl rfl
    exact freed.finish _
  case h_3 =>
    cases moved
    exact h.put rfl
  case h_4 =>
    split at moved <;> cases moved
    · have freed : NothingStopped { t with status := .idle } := h.of_same (by simp) rfl rfl rfl
      exact freed.finish _
    · exact h.launch _ _ _
  case h_5 session lowest =>
    split at moved
    · cases moved
      exact h.launchSweep _ _
    · rename_i missed
      exact (h.not_missed _ missed).elim
    · rw [if_neg (by simp [h.isOver])] at moved
      cases moved
  case h_6 => cases going
  case h_7 => cases moved

theorem resumeWatch? (h : t.NothingStopped) {point : WatchPoint} (idle : (Task.watching session point).work? = none)
    (served : answer.isNodeFault = false) (harmless : (Move.resume id answer).IsHarmless)
    (moved : t.resumeWatch? id session point answer = some u) : u.NothingStopped := by
  unfold Tracker.resumeWatch? at moved
  split at moved
  case h_1 =>
    cases moved
    exact (h.emit _).put rfl
  case h_2 => cases served
  case h_3 =>
    cases moved
    exact h.put rfl
  case h_4 =>
    rw [if_neg (by simp [h.isOver])] at moved
    cases moved
  case h_5 =>
    rw [if_neg (by simp [h.isOver])] at moved
    split at moved
    · cases moved
      exact h.meetLive harmless
    · cases served
    · cases served
  case h_6 => cases idle
  case h_7 => cases served
  case h_8 live target =>
    obtain ⟨work, begun⟩ := Work.exists_confirm t.ledger harmless
    simp only [begun, Option.some.injEq] at moved
    cases moved
    exact (h.ledger _).put rfl
  case h_9 => cases idle
  case h_10 => cases moved

theorem resumeSweep? (h : t.NothingStopped) {last : UInt64} {point : SweepPoint}
    (idle : (Task.sweeping session last point).work? = none) (served : answer.isNodeFault = false)
    (harmless : (Move.resume id answer).IsHarmless) (moved : t.resumeSweep? id session last point answer = some u) :
    u.NothingStopped := by
  unfold Tracker.resumeSweep? at moved
  split at moved
  case h_1 =>
    cases moved
    exact h.beginSweep last _
  case h_2 => cases served
  case h_3 number header =>
    have begins : ∃ work, (t.beginWork session last number header).1 = .waits work := by
      unfold beginWork
      split
      · exact Work.exists_confirm t.ledger harmless
      · exact Work.exists_observe t.ledger harmless
    obtain ⟨work, begun⟩ := begins
    simp only [begun, Option.some.injEq] at moved
    cases moved
    exact (h.ledger _).put rfl
  case h_4 => cases idle
  case h_5 => cases moved

theorem move? {m : Move} (h : t.NothingStopped) (allowed : t.Undisturbed m) (moved : t.move? m = some u) :
    u.NothingStopped := by
  obtain ⟨⟨⟨served, conflicts⟩, swallows⟩, harmless⟩ := allowed
  cases m with
  | start context =>
      cases moved
      exact h.spawn rfl
  | stop => exact harmless.elim
  | cancel context => exact harmless.elim
  | setHeight height =>
      cases moved
      unfold setHeight
      split
      · exact h
      · exact h.of_same h.status rfl rfl rfl
  | resubscribe dispatcher =>
      cases moved
      exact h.of_same h.status rfl rfl rfl
  | resume id answer =>
      cases found : t.tasks[id]? with
      | none => simp [Tracker.move?, Tracker.resume?, found] at moved
      | some task =>
          have going := h.tasks (List.mem_of_getElem? found)
          cases under : task.work? with
          | some at_work =>
              obtain ⟨session, work⟩ := at_work
              rw [Tracker.move?, resume?_of_work? found under] at moved
              obtain ⟨⟨progress, after⟩, resumed, rfl⟩ := Option.map_eq_some_iff.mp moved
              refine (h.ledger after).proceed ?_ (Work.resume?_ne_crashed resumed) task
              rintro cause rfl
              obtain ⟨fault, rfl, refused, fails⟩ := Work.refusal?_of_failed resumed served
              have refusal := refused?_eq_some found under refused
              have conflict := conflicts _ refusal
              rcases swallows _ refusal with recording | ended
              · exact fails ⟨recording, conflict⟩
              · cases (h.isOver _).symm.trans ended
          | none =>
              simp only [Tracker.move?, Tracker.resume?, found] at moved
              cases task with
              | starting context point => exact h.resumeStart? going moved
              | watching session point => exact h.resumeWatch? under served harmless moved
              | sweeping session last point => exact h.resumeSweep? under served harmless moved
              | stopping point => cases going
              | ended outcome => cases moved
              | crashed => cases moved

end NothingStopped

/-! ## Where conflicts are swallowed -/

/-- Over histories whose only failures are conflicts, no failure is reported exactly if each conflict
was met while recording a block or in a run that is over, and without other interruptions no run is
stopped. After any history such a conflict is swallowed, and any other is reported as the failure of its
run. A store that does not fail by itself refuses a write with a conflict exactly if a block to be
recorded is stored already, or if the hash of a block to be confirmed is stored under another number. -/
theorem conflicts_swallowed_iff [BlockStore S] [HookedStore S] [LawfulStore S] (t : Tracker S) :
    (∀ {settings : TrackerSettings} {store : S}, Reaches OnlyConflicts (make settings store) t →
      (t.failures = [] ↔ Reaches Swallows (make settings store) t)) ∧
    (∀ {settings : TrackerSettings} {store : S}, Reaches Undisturbed (make settings store) t →
      t.status ≠ .stopping ∧ ∀ run, t.isOver run = false) ∧
    (∀ {m : Move} {u : Tracker S} {r : Refusal}, r ∈ t.refused? m → r.cause.isConflict → t.move? m = some u →
      if r.work.isRecording ∨ t.isOver r.run then t.NotInterrupted u
      else u.failures = t.failures ++ [(r.run, r.cause)]) ∧
    (LawfulStore.Sound t.ledger.store → ∀ {session : Session} {work : Work}, work.header.bloom.IsFull →
      ((∃ cause, work.refusal? session t.ledger none = some cause ∧ cause.isConflict) ↔
        work.Clashes (LawfulStore.view t.ledger.store) session)) := by
  refine ⟨failures_eq_nil_iff_reaches rfl, ?_, ?_, fun sound {session work} => Work.refuses_iff_clashes sound⟩
  · intro settings store undisturbed
    have goes : t.NothingStopped := undisturbed.invariant (nothingStopped_make settings store) NothingStopped.move?
    exact ⟨goes.status, goes.isOver⟩
  · intro m u r refused conflict moved
    have passed : t.IsTolerated r ↔ r.work.isRecording ∨ t.isOver r.run := by simp [IsTolerated, conflict]
    split
    case isTrue passes => exact notInterrupted_of_refused refused (passed.mpr passes) moved
    case isFalse escalates => exact failures_of_refused refused (fun passes => escalates (passed.mp passes)) moved

def heldStore (number : UInt64) : NestedStore :=
  (NestedStore.empty.createHead (.ofHeader 1 { (default : Header) with number } .seen) [] ()).store

def metMoves : List Move :=
  [.start "plain", .resume 0 .go, .resume 0 (.chain (.ok 1)), .resume 0 (.stored none), .resume 1 .go,
    .resume 1 (.subscribed (.ok ())), .resume 1 (.arrival (some (.ok default)))]

theorem conflicts_swallowed_iff_recorded : ∃ t u : Tracker NestedStore,
    Reaches OnlyConflicts (make { confirmations := some 0 } (heldStore 0)) t ∧
      (t.refused? (.resume 1 (.stored none))).map Refusal.cause = some (.headConflict 1 0) ∧
      t.move? (.resume 1 (.stored none)) = some u ∧ t.failures = [] ∧ t.NotInterrupted u := by
  have shape : ((make { confirmations := some 0 } (heldStore 0)).trial? (fun t m => decide (t.Swallows m))
      metMoves).bind (fun t => (t.refused? (.resume 1 (.stored none))).bind fun r =>
        (t.move? (.resume 1 (.stored none))).map fun _ => (r.cause, r.work.isRecording)) =
      some (.headConflict 1 0, true) := by
    decide +kernel
  obtain ⟨t, met, shape⟩ := Option.bind_eq_some_iff.mp shape
  obtain ⟨r, refused, shape⟩ := Option.bind_eq_some_iff.mp shape
  obtain ⟨u, moved, at_end⟩ := Option.map_eq_some_iff.mp shape
  simp only [Prod.mk.injEq] at at_end
  obtain ⟨cause, recording⟩ := at_end
  have swallowed : Reaches Swallows (make { confirmations := some 0 } (heldStore 0)) t :=
    reaches_of_trial? of_decide_eq_true met
  have history : Reaches OnlyConflicts (make { confirmations := some 0 } (heldStore 0)) t :=
    reaches_of_trial? (fun passed => (of_decide_eq_true passed : Swallows _ _).1) met
  obtain ⟨silent, -, next, -⟩ := conflicts_swallowed_iff t
  have passes := next refused (by rw [cause]; rfl) moved
  rw [if_pos (Or.inl recording)] at passes
  exact ⟨t, u, history, by rw [refused, ← cause]; rfl, moved, (silent history).mpr swallowed, passes⟩

/-- The hash of the first live block is stored under another number. The conflict of recording it is
swallowed; that of confirming it is reported, and the tracker stops. -/
theorem conflict_escalated : ∃ t : Tracker NestedStore,
    Reaches OnlyConflicts (make { confirmations := some 0 } (heldStore 9)) t ∧
      t.failures = [(0, .hashConflict 1 "")] ∧ t.status = .stopping ∧
      ((Subscription.mk 1 .events).drain t.dispatcher).2.1 = [.unrecoverable (.hashConflict 1 "")] := by
  have shape : ((make { confirmations := some 0 } (heldStore 9)).trial? (fun t m => decide (t.OnlyConflicts m))
      (metMoves ++ [.resume 1 (.stored none), .resume 1 (.header (.ok default)),
        .resubscribe ((make { confirmations := some 0 } (heldStore 9)).dispatcher.perform
          (.subscribe (.events "weth"))),
        .resume 1 (.stored none)])).map (fun t =>
          (t.failures, t.status, ((Subscription.mk 1 .events).drain t.dispatcher).2.1)) =
      some ([(0, .hashConflict 1 "")], .stopping, [.unrecoverable (.hashConflict 1 "")]) := by
    decide +kernel
  obtain ⟨t, moved, at_end⟩ := Option.map_eq_some_iff.mp shape
  simp only [Prod.mk.injEq] at at_end
  obtain ⟨failed, stopping, queued⟩ := at_end
  exact ⟨t, reaches_of_trial? of_decide_eq_true moved, failed, stopping, queued⟩

end Tracker

end Chainwatch
