import Chainwatch.Proofs.Tracker.Follow
import Chainwatch.Proofs.Tracker.Outcomes

/-!
# The steps of a task

A task that is resumed with an answer may take a step of the work on a block, and then moves to another
point. Besides that it only launches loops and leaves callers of stop behind: this changes no store and
dispatches no head or event.
-/

namespace Chainwatch

/-- The signal is no notice of a head or an event, and no live block. -/
def Signal.isPlain : Signal → Bool
  | .head _ | .event _ | .live _ _ => false
  | _ => true

namespace Ledger

variable {S : Type} {l m after : Ledger S}

/-- A step of the ledger without a write, a notice, or a live block. -/
structure Quiet (l after : Ledger S) : Prop where
  store : after.store = l.store
  signals : ∃ more, after.outlet.signals = l.outlet.signals ++ more ∧ ∀ s ∈ more, s.isPlain

theorem Quiet.refl : l.Quiet l :=
  ⟨rfl, [], by simp, by simp⟩

theorem Quiet.trans (h : l.Quiet m) (g : m.Quiet after) : l.Quiet after := by
  obtain ⟨more, told, plain⟩ := h.signals
  obtain ⟨rest, told', plain'⟩ := g.signals
  refine ⟨g.store.trans h.store, more ++ rest, by rw [told', told, List.append_assoc], ?_⟩
  intro s mem
  rcases List.mem_append.mp mem with mem | mem
  · exact plain s mem
  · exact plain' s mem

theorem quiet_emit {signal : Signal} (plain : signal.isPlain) : l.Quiet (l.emit signal) :=
  ⟨rfl, [signal], rfl, by simpa using plain⟩

theorem quiet_tellFailure (run : Nat) (cause : TrackError) :
    l.Quiet { l with outlet := l.outlet.tellFailure run cause } :=
  ⟨rfl, [.failure run cause], rfl, by simp [Signal.isPlain]⟩

theorem Quiet.mem (h : l.Quiet after) {signal : Signal} (told : signal ∈ l.outlet.signals) :
    signal ∈ after.outlet.signals := by
  obtain ⟨more, signals, -⟩ := h.signals
  rw [signals]
  exact List.mem_append_left more told

end Ledger

namespace Work

variable {S : Type}

/-- The work of confirming a block begins, unless its bloom is too short. -/
theorem confirm_cases (l : Ledger S) (target : Header) :
    (∃ work, (confirm l target).1 = .waits work) ∨ confirm l target = (.crashed, l) := by
  unfold confirm tellConfirmed
  split
  · exact Or.inr rfl
  · exact Or.inl ⟨_, rfl⟩
  · split <;> exact Or.inl ⟨_, rfl⟩

theorem observe_cases (l : Ledger S) (header : Header) :
    (∃ work, observe l header = .waits work) ∨ observe l header = .crashed := by
  unfold observe
  split
  · exact Or.inr rfl
  · exact Or.inl ⟨_, rfl⟩

theorem quiet_afterRecord (l : Ledger S) (header : Header) (state : BlockState) :
    l.Quiet (afterRecord l header state).2 := by
  unfold afterRecord
  split
  · split
    · exact .refl
    · exact Ledger.quiet_emit rfl
  · exact .refl

theorem quiet_confirm {l after : Ledger S} {target : Header} {progress : Progress}
    (begun : confirm l target = (progress, after)) : l.Quiet after := by
  have untold : l.Quiet { l with outlet := l.outlet.tellEvents [] } :=
    ⟨rfl, [], by simp [Outlet.tellEvents], by simp⟩
  unfold confirm tellConfirmed at begun
  split at begun
  · cases begun
    exact .refl
  · cases begun
    exact untold
  · split at begun
    · cases begun
      exact untold
    · cases begun
      exact Ledger.quiet_emit rfl

variable [BlockStore S] {session : Session} {l after : Ledger S} {work next : Work} {answer : Answer}
  {progress : Progress}

/-- The possible effects of a step of the work on the ledger. -/
inductive LedgerEffect (session : Session) (l : Ledger S) : Work → Answer → Ledger S → Prop where
  | record {header : Header} {state : BlockState} {fault : Option TrackError} {after : Ledger S} :
      (l.recordHead fault (.ofHeader session.chain header state)).2.Quiet after →
      LedgerEffect session l (.record header state) (.stored fault) after
  | tell {header : Header} {addresses : List String} {logs : List Log} :
      LedgerEffect session l (.fetchConfirmed header addresses) (.logs (.ok logs))
        { l with outlet := l.outlet.tellEvents (session.events .confirmed logs) }
  | saveSeen {header : Header} {events : List Event} {fault : Option TrackError} :
      LedgerEffect session l (.saveSeen header events) (.stored fault)
        (l.recordEvents fault session.chain header.hash events).2
  | promote {header : Header} {events : List Event} {fault : Option TrackError} :
      LedgerEffect session l (.promote header events) (.stored fault)
        (l.promoteHead fault (.ofHeader session.chain header .confirmed)).2
  | saveConfirmed {header : Header} {events : List Event} {fault : Option TrackError} :
      LedgerEffect session l (.saveConfirmed header events) (.stored fault)
        (l.keepEvents fault session.chain header.hash events).2
  | nothing {work : Work} {answer : Answer} : LedgerEffect session l work answer l

theorem ledgerEffect_of_resume? (moved : work.resume? session l answer = some (progress, after)) :
    LedgerEffect session l work answer after := by
  have made {α : Type} {written : Except TrackError α × Ledger S} {outcome : Except TrackError α}
      (made : written = (outcome, after)) : written.2 = after := congrArg Prod.snd made
  cases outcome_of_resume? moved with
  | recorded written | known written | unrecorded written => exact .record (made written ▸ .refl)
  | asks written => exact .record (by rw [written]; exact Ledger.quiet_emit rfl)
  | unserved | eventless | served | unconfirmed => exact .nothing
  | told => exact .tell
  | saved written | unsaved written => exact made written ▸ .saveSeen
  | promoted written | keeps written | unpromoted written => exact made written ▸ .promote
  | kept written | unkept written => exact made written ▸ .saveConfirmed

/-- Continued work is on the same block for the same purpose, and the block is recorded only once. -/
theorem resume?_waits (moved : work.resume? session l answer = some (.waits next, after)) :
    next.header = work.header ∧ next.confirms = work.confirms ∧ ∀ header state, next ≠ .record header state := by
  cases outcome_of_resume? moved with
  | asks | served | told | keeps => exact ⟨rfl, rfl, by simp⟩

end Work

/-- The work that a task is at, and the run for which it is done. -/
def Task.work? : Task → Option (Session × Work)
  | .watching session (.observing _ work) | .watching session (.confirming _ work) => some (session, work)
  | .sweeping session _ (.working _ work) => some (session, work)
  | _ => none

def Task.isRetired : Task → Bool
  | .starting _ (.stopping _ _) | .stopping _ | .ended _ | .crashed => true
  | _ => false

def Task.isCalled : Task → Bool
  | .starting _ .launched | .stopping .launched => true
  | _ => false

namespace Tracker

variable {S : Type} {t u v : Tracker S} {mid : Ledger S} {new : List Task} {id : Nat}

/-- A task at work waits for what its work waits for. -/
theorem wait?_of_work? {task : Task} {session : Session} {work : Work} (found : t.tasks[id]? = some task)
    (under : task.work? = some (session, work)) : t.wait? id = some work.wait := by
  rw [wait?, found, Option.bind_some]
  cases task with
  | watching run point =>
      cases point with
      | observing live on | confirming live on => cases under; rfl
      | _ => cases under
  | sweeping run last point =>
      cases point with
      | working number on => cases under; rfl
      | _ => cases under
  | _ => cases under

/-! ## Spawned tasks -/

/-- The tracker launches loops and leaves callers of stop behind, with the ledger otherwise unchanged. -/
structure SpawnsTasks (t : Tracker S) (mid : Ledger S) (new : List Task) (u : Tracker S) : Prop where
  quiet : mid.Quiet u.ledger
  tasks : ∃ behind : List StopPoint, u.tasks = t.tasks ++ new ++ behind.map .stopping
  settings : u.settings = t.settings
  first : ∀ {run : Nat} {number : UInt64}, u.first run = .arrived number →
    t.first run = .arrived number ∨ .live run number ∈ u.ledger.outlet.signals

theorem SpawnsTasks.refl (mid : Ledger S) : SpawnsTasks t mid [] { t with ledger := mid } :=
  ⟨.refl, ⟨[], by simp⟩, rfl, Or.inl⟩

theorem SpawnsTasks.trans (h : SpawnsTasks t mid new u) (g : SpawnsTasks u u.ledger [] v) :
    SpawnsTasks t mid new v := by
  obtain ⟨behind, tasks⟩ := h.tasks
  obtain ⟨more, tasks'⟩ := g.tasks
  refine ⟨h.quiet.trans g.quiet, ⟨behind ++ more, by simp [tasks', tasks]⟩, g.settings.trans h.settings, ?_⟩
  intro run number arrived
  rcases g.first arrived with arrived | told
  · exact (h.first arrived).imp_right g.quiet.mem
  · exact Or.inr told

theorem spawnsTasks_of_quiet (quiet : t.ledger.Quiet u.ledger) (tasks : u.tasks = t.tasks)
    (settings : u.settings = t.settings) (first : ∀ run, u.first run = t.first run) :
    SpawnsTasks t t.ledger [] u :=
  ⟨quiet, ⟨[], by simp [tasks]⟩, settings, fun {run _} arrived => Or.inl (first run ▸ arrived)⟩

theorem spawnsTasks_emit {signal : Signal} (plain : signal.isPlain) : SpawnsTasks t t.ledger [] (t.emit signal) :=
  spawnsTasks_of_quiet (Ledger.quiet_emit plain) rfl rfl fun _ => rfl

theorem spawnsTasks_beginStop : SpawnsTasks t t.ledger [] t.beginStop.2 := by
  refine spawnsTasks_of_quiet ?_ tasks_beginStop (keepsRun_beginStop (j := 0)).settings fun run =>
    keepsRun_beginStop.first
  unfold beginStop
  cases t.token with
  | none => exact ⟨rfl, [], by simp [withDispatcher], by simp⟩
  | some run => exact ⟨rfl, [.halted run], rfl, by simp [Signal.isPlain]⟩

theorem spawnsTasks_rest : SpawnsTasks t t.ledger [] t.rest :=
  spawnsTasks_of_quiet ⟨rfl, [.rested], rfl, by simp [Signal.isPlain]⟩ rfl rfl fun _ => rfl

theorem spawnsTasks_join (tasks : List Nat) : SpawnsTasks t t.ledger [] (t.join tasks).2 := by
  cases tasks with
  | nil => exact spawnsTasks_rest
  | cons task rest => exact .refl t.ledger

theorem spawnsTasks_enterStop : SpawnsTasks t t.ledger [] t.enterStop.2 := by
  have begun : SpawnsTasks t t.ledger [] (t.beginStop.2.join t.beginStop.1).2 :=
    spawnsTasks_beginStop.trans (spawnsTasks_join _)
  unfold enterStop
  cases t.status with
  | idle => exact .refl t.ledger
  | stopping => exact .refl t.ledger
  | starting => exact begun
  | running => exact begun

theorem spawnsTasks_resumeStop? {point next : StopPoint} (moved : t.resumeStop? point = some (next, u)) :
    SpawnsTasks t t.ledger [] u := by
  unfold resumeStop? at moved
  split at moved
  · have same : t.enterStop.2 = u := congrArg Prod.snd (Option.some.inj moved)
    exact same ▸ spawnsTasks_enterStop
  · have same : (t.join []).2 = u := congrArg Prod.snd (Option.some.inj moved)
    exact same ▸ spawnsTasks_join []
  · rename_i rest
    split at moved
    · have same : (t.join rest).2 = u := congrArg Prod.snd (Option.some.inj moved)
      exact same ▸ spawnsTasks_join rest
    · cases moved
  · split at moved <;> cases moved
    exact .refl t.ledger
  · cases moved

theorem quiet_beginWork {session : Session} {last number : UInt64} {header : Header} {progress : Progress}
    {mid : Ledger S} (begun : t.beginWork session last number header = (progress, mid)) : t.ledger.Quiet mid := by
  unfold beginWork at begun
  split at begun
  · exact Work.quiet_confirm begun
  · cases begun
    exact .refl

theorem spawnsTasks_spawn (task : Task) : SpawnsTasks t t.ledger [task] (t.spawn task).2 :=
  ⟨⟨rfl, [.spawned t.tasks.length], rfl, by simp [Signal.isPlain]⟩, ⟨[], by simp [spawn, emit]⟩, rfl, Or.inl⟩

theorem spawnsTasks_stopInBackground (run : Nat) : SpawnsTasks t t.ledger [] (t.stopInBackground run) := by
  have begun : SpawnsTasks t t.ledger [] (t.beginStop.2.spawn (.stopping (.joining t.beginStop.1))).2 := by
    obtain ⟨quiet, ⟨behind, tasks⟩, settings, first⟩ :=
      spawnsTasks_spawn (t := t.beginStop.2) (.stopping (.joining t.beginStop.1))
    refine spawnsTasks_beginStop.trans ⟨quiet, ⟨.joining t.beginStop.1 :: behind, ?_⟩, settings, first⟩
    simp [tasks]
  unfold stopInBackground
  split
  · cases t.status with
    | idle => exact .refl t.ledger
    | stopping => exact .refl t.ledger
    | starting => exact begun
    | running => exact begun
  · exact .refl t.ledger

theorem spawnsTasks_fail (session : Session) (cause : TrackError) :
    SpawnsTasks t t.ledger [] (t.fail session cause) := by
  unfold fail
  split
  · exact .refl t.ledger
  · have told : SpawnsTasks t t.ledger [] { t with ledger := { t.ledger with
        outlet := t.ledger.outlet.tellFailure session.run cause } } :=
      spawnsTasks_of_quiet (Ledger.quiet_tellFailure session.run cause) rfl rfl fun _ => rfl
    exact told.trans (spawnsTasks_stopInBackground session.run)

theorem spawnsTasks_settle {run : Nat} {first : FirstBlock}
    (told : ∀ number, first = .arrived number → .live run number ∈ t.ledger.outlet.signals) :
    SpawnsTasks t t.ledger [] (t.settle run first) := by
  unfold settle
  split
  case isFalse => exact .refl t.ledger
  case isTrue waits =>
    refine ⟨⟨rfl, [.settled run], rfl, by simp [Signal.isPlain]⟩, ⟨[], by simp [emit]⟩, rfl, ?_⟩
    intro other number arrived
    by_cases same : run = other
    · subst same
      have bound : run < t.runs.length := by
        have known := known_of_first arrived (by simp)
        simpa [emit] using known
      simp only [Tracker.first, emit, List.getElem?_modify_eq, List.getElem?_eq_getElem bound,
        Option.map_eq_map, Option.map_some, Option.getD_some] at arrived
      exact Or.inr (List.mem_append_left _ (told number arrived))
    · left
      simpa [Tracker.first, emit, List.getElem?_modify, same] using arrived

/-! ## Steps of a task -/

/-- The task moves to another point, after its work. -/
structure StepsTo (t : Tracker S) (id : Nat) (mid : Ledger S) (next : Task) (new : List Task) (u : Tracker S) :
    Prop where
  quiet : mid.Quiet u.ledger
  tasks : ∃ behind : List StopPoint, u.tasks = (t.tasks ++ new ++ behind.map Task.stopping).set id next
  settings : u.settings = t.settings
  first : ∀ {run : Nat} {number : UInt64}, u.first run = .arrived number →
    t.first run = .arrived number ∨ .live run number ∈ u.ledger.outlet.signals

variable {task next other : Task} {j : Nat}

theorem SpawnsTasks.cases (h : SpawnsTasks t mid new u) (found : u.tasks[j]? = some other) :
    t.tasks[j]? = some other ∨ other ∈ new ∨ ∃ point, other = .stopping point := by
  obtain ⟨behind, tasks⟩ := h.tasks
  rw [tasks] at found
  rcases found_append_cases found with before | left_behind
  · exact (found_append_cases before).imp_right Or.inl
  · obtain ⟨point, -, rfl⟩ := List.mem_map.mp left_behind
    exact Or.inr (Or.inr ⟨point, rfl⟩)

theorem SpawnsTasks.kept (h : SpawnsTasks t mid new u) (found : t.tasks[j]? = some other) :
    u.tasks[j]? = some other := by
  obtain ⟨behind, tasks⟩ := h.tasks
  rw [tasks]
  exact found_append (found_append found new) _

theorem SpawnsTasks.put (h : SpawnsTasks t mid new u) (id : Nat) (next : Task) :
    StepsTo t id mid next new (u.put id next) := by
  obtain ⟨behind, tasks⟩ := h.tasks
  exact ⟨h.quiet, ⟨behind, congrArg (·.set id next) tasks⟩, h.settings, h.first⟩

theorem StepsTo.emit (h : StepsTo t id mid next new u) {signal : Signal} (plain : signal.isPlain) :
    StepsTo t id mid next new (u.emit signal) :=
  ⟨h.quiet.trans (Ledger.quiet_emit plain), h.tasks, h.settings,
    fun arrived => (h.first arrived).imp_right (Ledger.quiet_emit plain).mem⟩

theorem SpawnsTasks.finish (h : SpawnsTasks t mid new u) (id : Nat) (outcome : Except TrackError Unit) :
    StepsTo t id mid (.ended outcome) new (u.finish id outcome) :=
  (h.put id _).emit rfl

theorem SpawnsTasks.crash (h : SpawnsTasks t mid new u) (id : Nat) : StepsTo t id mid .crashed new (u.crash id) :=
  (h.put id _).emit rfl

theorem StepsTo.here (h : StepsTo t id mid next new u) (found : t.tasks[id]? = some task) :
    u.tasks[id]? = some next := by
  obtain ⟨behind, tasks⟩ := h.tasks
  have bound := (List.getElem?_eq_some_iff.mp found).1
  rw [tasks, List.getElem?_set_self]
  rw [List.length_append, List.length_append]
  omega

theorem StepsTo.kept (h : StepsTo t id mid next new u) (differ : j ≠ id) (found : t.tasks[j]? = some other) :
    u.tasks[j]? = some other := by
  obtain ⟨behind, tasks⟩ := h.tasks
  rw [tasks, List.getElem?_set_ne (Ne.symm differ)]
  exact found_append (found_append found new) _

theorem StepsTo.places (h : StepsTo t id mid next new u) (found : u.tasks[j]? = some other) :
    j = id ∧ other = next ∨ j ≠ id ∧ (t.tasks ++ new)[j]? = some other ∨ ∃ point, other = .stopping point := by
  obtain ⟨behind, tasks⟩ := h.tasks
  rw [tasks] at found
  by_cases same : j = id
  · subst same
    rw [List.getElem?_set] at found
    simp only [if_true] at found
    split at found
    · exact Or.inl ⟨rfl, (Option.some.inj found).symm⟩
    · cases found
  · rw [List.getElem?_set_ne (Ne.symm same)] at found
    rcases found_append_cases found with before | left_behind
    · exact Or.inr (Or.inl ⟨same, before⟩)
    · obtain ⟨point, -, rfl⟩ := List.mem_map.mp left_behind
      exact Or.inr (Or.inr ⟨point, rfl⟩)

theorem StepsTo.cases (h : StepsTo t id mid next new u) (found : u.tasks[j]? = some other) :
    j = id ∧ other = next ∨ j ≠ id ∧ t.tasks[j]? = some other ∨ other ∈ new ∨
      ∃ point, other = .stopping point := by
  rcases h.places found with here | ⟨differ, before⟩ | left_behind
  · exact Or.inl here
  · rcases found_append_cases before with kept | launched
    · exact Or.inr (Or.inl ⟨differ, kept⟩)
    · exact Or.inr (Or.inr (Or.inl launched))
  · exact Or.inr (Or.inr (Or.inr left_behind))

theorem StepsTo.cases_launched {launched : Task} (h : StepsTo t id mid next [launched] u)
    (found : u.tasks[j]? = some other) : j = id ∧ other = next ∨ j ≠ id ∧ t.tasks[j]? = some other ∨
      j = t.tasks.length ∧ other = launched ∨ ∃ point, other = .stopping point := by
  rcases h.places found with here | ⟨differ, before⟩ | left_behind
  · exact Or.inl here
  · rcases found_append_singleton before with kept | launched
    · exact Or.inr (Or.inl ⟨differ, kept⟩)
    · exact Or.inr (Or.inr (Or.inl launched))
  · exact Or.inr (Or.inr (Or.inr left_behind))

theorem StepsTo.launched {launched : Task} (h : StepsTo t id mid next [launched] u) (bound : id < t.tasks.length) :
    u.tasks[t.tasks.length]? = some launched := by
  obtain ⟨behind, tasks⟩ := h.tasks
  rw [tasks, List.getElem?_set_ne (Nat.ne_of_lt bound)]
  exact found_append List.getElem?_concat_length _

theorem beginWork_cases (t : Tracker S) (session : Session) (last number : UInt64) (header : Header) :
    (∃ work, (t.beginWork session last number header).1 = .waits work) ∨
      t.beginWork session last number header = (.crashed, t.ledger) := by
  unfold beginWork
  split
  · exact Work.confirm_cases t.ledger header
  · rcases Work.observe_cases t.ledger header with begun | crashed
    · exact Or.inl begun
    · exact Or.inr (by rw [crashed])

theorem SpawnsTasks.finishWatch {v : Tracker S} (h : SpawnsTasks t mid [] v) (id : Nat) (session : Session) :
    StepsTo t id mid (.ended (.ok ())) [] (v.finishWatch id session) :=
  (h.trans (spawnsTasks_settle (by simp))).finish id _

theorem SpawnsTasks.crashWatch {v : Tracker S} (h : SpawnsTasks t mid [] v) (id : Nat) (session : Session) :
    StepsTo t id mid .crashed [] (v.crashWatch id session) :=
  (h.trans (spawnsTasks_settle (by simp))).crash id

theorem SpawnsTasks.failWatch {v : Tracker S} (h : SpawnsTasks t mid [] v) (id : Nat) (session : Session)
    (cause : TrackError) : StepsTo t id mid (.ended (.ok ())) [] (v.failWatch id session cause) :=
  (h.trans (spawnsTasks_fail session cause)).finishWatch id session

theorem SpawnsTasks.failSweep {v : Tracker S} (h : SpawnsTasks t mid [] v) (id : Nat) (session : Session)
    (cause : TrackError) : t.StepsTo id mid (.ended (.ok ())) [] (v.failSweep id session cause) :=
  (h.trans (spawnsTasks_fail session cause)).finish id _

theorem spawnsTasks_restatus (status : Status) : SpawnsTasks t t.ledger [] { t with status } :=
  spawnsTasks_of_quiet .refl rfl rfl fun _ => rfl

theorem SpawnsTasks.putGiveUp {v : Tracker S} (h : SpawnsTasks t mid [] v) (id : Nat) (context : Context)
    (reason : GiveUp)
    (point : StopPoint) : ∃ next, next.isRetired ∧ t.StepsTo id mid next [] (v.putGiveUp id context reason point) := by
  cases point <;> first | exact ⟨_, rfl, h.finish id _⟩ | exact ⟨_, rfl, h.put id _⟩

end Tracker

namespace Tracker

variable {S : Type} [BlockStore S] {t u : Tracker S} {id : Nat}

/-- The possible steps of a task on an answer: the ledger after its work, its next point, and the loop
that it launches. -/
inductive TaskStep (t : Tracker S) : Task → Answer → Ledger S → Task → List Task → Prop where
  | rest {task next : Task} {answer : Answer} : task.work? = none → next.isRetired →
      TaskStep t task answer t.ledger next []
  | retire {session : Session} {task next : Task} {answer : Answer} {work : Work} {progress : Progress}
      {mid : Ledger S} :
      task.work? = some (session, work) → work.resume? session t.ledger answer = some (progress, mid) →
      (∀ more, progress ≠ .waits more) → next.isRetired → TaskStep t task answer mid next []
  | ask {context : Context} :
      TaskStep t (.starting context .launched) .go t.ledger (.starting context .askingChain) []
  | name {context : Context} {chain : UInt64} :
      TaskStep t (.starting context .askingChain) (.chain (.ok chain)) t.ledger
        (.starting context (.readingHeight chain)) []
  | launch {context : Context} {chain lowest : UInt64} {answer : Answer} :
      TaskStep t (.starting context (.readingHeight chain)) answer t.ledger
        (.starting context (.awaitingFirst ⟨t.runs.length, chain, t.settings.threshold chain⟩ lowest))
        [.watching ⟨t.runs.length, chain, t.settings.threshold chain⟩ .launched]
  | launchSweep {session : Session} {context : Context} {lowest first : UInt64} : t.first session.run = .arrived first →
      TaskStep t (.starting context (.awaitingFirst session lowest)) .go t.ledger (.ended (.ok ()))
        [.sweeping session (lastBefore first) (.launched lowest)]
  | subscribe {session : Session} :
      TaskStep t (.watching session .launched) .go t.ledger (.watching session .subscribing) []
  | listen {session : Session} : TaskStep t (.watching session .subscribing) (.subscribed (.ok ())) t.ledger
      (.watching session .listening) []
  | meet {session : Session} {live : Header} {work : Work} : Work.observe t.ledger live = .waits work →
      TaskStep t (.watching session .listening) (.arrival (some (.ok live)))
        (t.ledger.emit (.live session.run live.number)) (.watching session (.observing live work)) []
  | fall {session : Session} {live : Header} : Work.observe t.ledger live = .crashed →
      TaskStep t (.watching session .listening) (.arrival (some (.ok live)))
        (t.ledger.emit (.live session.run live.number)) .crashed []
  | observe {session : Session} {live : Header} {work next : Work} {answer : Answer} {mid : Ledger S} :
      work.resume? session t.ledger answer = some (.waits next, mid) →
      TaskStep t (.watching session (.observing live work)) answer mid (.watching session (.observing live next)) []
  | target {session : Session} {live : Header} {work : Work} {answer : Answer} {mid : Ledger S} :
      work.resume? session t.ledger answer = some (.finished, mid) → session.threshold ≤ live.number →
      TaskStep t (.watching session (.observing live work)) answer mid (.watching session (.fetchingTarget live)) []
  | pass {session : Session} {live : Header} {work : Work} {answer : Answer} {mid : Ledger S} :
      work.resume? session t.ledger answer = some (.finished, mid) → ¬session.threshold ≤ live.number →
      TaskStep t (.watching session (.observing live work)) answer mid (.watching session .listening) []
  | confirm {session : Session} {live target : Header} {work : Work} {mid : Ledger S} :
      Work.confirm t.ledger target = (.waits work, mid) →
      TaskStep t (.watching session (.fetchingTarget live)) (.header (.ok target)) mid
        (.watching session (.confirming live work)) []
  | promote {session : Session} {live : Header} {work next : Work} {answer : Answer} {mid : Ledger S} :
      work.resume? session t.ledger answer = some (.waits next, mid) →
      TaskStep t (.watching session (.confirming live work)) answer mid
        (.watching session (.confirming live next)) []
  | confirmed {session : Session} {live : Header} {work : Work} {answer : Answer} {mid : Ledger S} :
      work.resume? session t.ledger answer = some (.finished, mid) →
      TaskStep t (.watching session (.confirming live work)) answer mid (.watching session .listening) []
  | sweep {session : Session} {last lowest : UInt64} : last ≠ 0 → lowest ≤ last →
      TaskStep t (.sweeping session last (.launched lowest)) .go t.ledger (.sweeping session last (.fetching lowest)) []
  | begin {session : Session} {last number : UInt64} {header : Header} {work : Work} {mid : Ledger S} :
      t.beginWork session last number header = (.waits work, mid) →
      TaskStep t (.sweeping session last (.fetching number)) (.header (.ok header)) mid
        (.sweeping session last (.working number work)) []
  | work {session : Session} {last number : UInt64} {work next : Work} {answer : Answer} {mid : Ledger S} :
      work.resume? session t.ledger answer = some (.waits next, mid) →
      TaskStep t (.sweeping session last (.working number work)) answer mid
        (.sweeping session last (.working number next)) []
  | next {session : Session} {last number : UInt64} {work : Work} {answer : Answer} {mid : Ledger S} :
      work.resume? session t.ledger answer = some (.finished, mid) → number < last →
      TaskStep t (.sweeping session last (.working number work)) answer mid
        (.sweeping session last (.fetching (number + 1))) []

/-- The move resumes this task with this step. -/
def TakesStep (t : Tracker S) (id : Nat) (task : Task) (answer : Answer) (u : Tracker S) : Prop :=
  ∃ mid next new, t.TaskStep task answer mid next new ∧ t.StepsTo id mid next new u

variable {task : Task} {answer : Answer} {mid : Ledger S} {session : Session}

/-- A step of a task is one of its work, or records at most a live block. -/
theorem TaskStep.ledger_cases {next : Task} {new : List Task} (turn : t.TaskStep task answer mid next new) :
    (∃ session work progress, task.work? = some (session, work) ∧
      work.resume? session t.ledger answer = some (progress, mid)) ∨
    t.ledger.Quiet mid ∨ ∃ run number, mid = t.ledger.emit (.live run number) := by
  cases turn with
  | retire under moved => exact Or.inl ⟨_, _, _, under, moved⟩
  | observe moved | target moved | pass moved | promote moved | confirmed moved | work moved | next moved =>
      exact Or.inl ⟨_, _, _, rfl, moved⟩
  | meet | fall => exact Or.inr (Or.inr ⟨_, _, rfl⟩)
  | confirm begun => exact Or.inr (Or.inl (Work.quiet_confirm begun))
  | begin begun => exact Or.inr (Or.inl (quiet_beginWork begun))
  | _ => exact Or.inr (Or.inl .refl)

theorem takesStep_rest {next : Task} (free : task.work? = none) (retired : next.isRetired)
    (stepsTo : t.StepsTo id t.ledger next [] u) : t.TakesStep id task answer u :=
  ⟨_, _, _, .rest free retired, stepsTo⟩

/-! ### Watch -/

section Watch

variable {live : Header} {progress : Progress} {work : Work}

theorem takesStep_putObserving (worked : work.resume? session t.ledger answer = some (progress, mid)) :
    t.TakesStep id (.watching session (.observing live work)) answer
      (putObserving { t with ledger := mid } id session live progress) := by
  have spawnsTasks : SpawnsTasks t mid [] { t with ledger := mid } := .refl mid
  cases progress with
  | waits next => exact ⟨_, _, _, .observe worked, spawnsTasks.put id _⟩
  | finished =>
      simp only [putObserving, afterLive]
      split
      · rename_i final
        exact ⟨_, _, _, .target worked final, (spawnsTasks.trans (spawnsTasks_emit rfl)).put id _⟩
      · rename_i early
        exact ⟨_, _, _, .pass worked early, spawnsTasks.put id _⟩
  | failed e => exact ⟨_, _, _, .retire rfl worked (by simp) rfl, spawnsTasks.failWatch id session e⟩
  | crashed => exact ⟨_, _, _, .retire rfl worked (by simp) rfl, spawnsTasks.crashWatch id session⟩

theorem takesStep_putConfirming (worked : work.resume? session t.ledger answer = some (progress, mid)) :
    t.TakesStep id (.watching session (.confirming live work)) answer
      (putConfirming { t with ledger := mid } id session live progress) := by
  have spawnsTasks : SpawnsTasks t mid [] { t with ledger := mid } := .refl mid
  cases progress with
  | waits next => exact ⟨_, _, _, .promote worked, spawnsTasks.put id _⟩
  | finished => exact ⟨_, _, _, .confirmed worked, spawnsTasks.put id _⟩
  | failed e => exact ⟨_, _, _, .retire rfl worked (by simp) rfl, spawnsTasks.failWatch id session e⟩
  | crashed => exact ⟨_, _, _, .retire rfl worked (by simp) rfl, spawnsTasks.crashWatch id session⟩

theorem takesStep_confirm {target : Header} (worked : Work.confirm t.ledger target = (progress, mid)) :
    t.TakesStep id (.watching session (.fetchingTarget live)) (.header (.ok target))
      (putConfirming { t with ledger := mid } id session live progress) := by
  rcases Work.confirm_cases t.ledger target with ⟨work, begun⟩ | crashed
  · rw [worked] at begun
    cases begun
    exact ⟨_, _, _, .confirm worked, (SpawnsTasks.refl mid).put id _⟩
  · rw [worked] at crashed
    cases crashed
    exact takesStep_rest rfl rfl ((SpawnsTasks.refl t.ledger).crashWatch id session)

theorem takesStep_meetLive (id : Nat) (session : Session) (live : Header) :
    t.TakesStep id (.watching session .listening) (.arrival (some (.ok live))) (t.meetLive id session live) := by
  have settled : SpawnsTasks (t.emit (.live session.run live.number)) (t.ledger.emit (.live session.run live.number)) []
      ((t.emit (.live session.run live.number)).settle session.run (.arrived live.number)) := by
    refine spawnsTasks_settle ?_
    intro number h
    cases h
    exact List.mem_append_right _ (List.mem_singleton_self _)
  have same : Work.observe ((t.emit (.live session.run live.number)).settle session.run
      (.arrived live.number)).ledger live = Work.observe t.ledger live := by
    unfold settle
    split <;> rfl
  unfold meetLive
  dsimp only
  rw [same]
  rcases Work.observe_cases t.ledger live with ⟨work, begun⟩ | crashed
  · rw [begun]
    exact ⟨_, _, _, .meet begun, ((SpawnsTasks.refl _).trans settled).put id _⟩
  · rw [crashed]
    exact ⟨_, _, _, .fall crashed, ((SpawnsTasks.refl _).trans settled).crashWatch id session⟩

theorem takesStep_resumeWatch? {point : WatchPoint} (moved : t.resumeWatch? id session point answer = some u) :
    t.TakesStep id (.watching session point) answer u := by
  have spawnsTasks : SpawnsTasks t t.ledger [] t := .refl t.ledger
  unfold resumeWatch? at moved
  split at moved
  case h_1 =>
    cases moved
    exact ⟨_, _, _, .subscribe, (spawnsTasks.trans (spawnsTasks_emit rfl)).put id _⟩
  case h_2 =>
    cases moved
    exact takesStep_rest rfl rfl (spawnsTasks.failWatch id session _)
  case h_3 =>
    cases moved
    exact ⟨_, _, _, .listen, spawnsTasks.put id _⟩
  case h_4 =>
    split at moved <;> cases moved
    exact takesStep_rest rfl rfl ((spawnsTasks.trans (spawnsTasks_stopInBackground session.run)).finishWatch id session)
  case h_5 =>
    split at moved
    · cases moved
    · split at moved <;> cases moved
      · exact takesStep_meetLive id session _
      · exact takesStep_rest rfl rfl (spawnsTasks.failWatch id session _)
      · exact takesStep_rest rfl rfl (spawnsTasks.failWatch id session _)
  case h_6 =>
    rcases Option.map_eq_some_iff.mp moved with ⟨⟨progress, mid⟩, worked, rfl⟩
    exact takesStep_putObserving worked
  case h_7 =>
    cases moved
    exact takesStep_rest rfl rfl (spawnsTasks.failWatch id session _)
  case h_8 =>
    cases moved
    exact takesStep_confirm rfl
  case h_9 =>
    rcases Option.map_eq_some_iff.mp moved with ⟨⟨progress, mid⟩, worked, rfl⟩
    exact takesStep_putConfirming worked
  case h_10 => cases moved

end Watch

/-! ### Backfill -/

section Sweep

variable {last number : UInt64} {progress : Progress} {work : Work}

theorem takesStep_beginSweep (id : Nat) (session : Session) (last lowest : UInt64) :
    t.TakesStep id (.sweeping session last (.launched lowest)) .go (t.beginSweep id session last lowest) := by
  have spawnsTasks : SpawnsTasks t t.ledger [] t := .refl t.ledger
  unfold beginSweep
  split
  · exact takesStep_rest rfl rfl (spawnsTasks.finish id _)
  · rename_i something
    obtain ⟨some, below⟩ := not_or.mp something
    unfold sweepFrom
    split
    · exact takesStep_rest rfl rfl (spawnsTasks.finish id _)
    · exact ⟨_, _, _, .sweep some (UInt64.not_lt.mp below), (spawnsTasks.trans (spawnsTasks_emit rfl)).put id _⟩

theorem takesStep_putSweeping (worked : work.resume? session t.ledger answer = some (progress, mid)) :
    t.TakesStep id (.sweeping session last (.working number work)) answer
      (putSweeping { t with ledger := mid } id session last number progress) := by
  have spawnsTasks : SpawnsTasks t mid [] { t with ledger := mid } := .refl mid
  cases progress with
  | waits next => exact ⟨_, _, _, .work worked, spawnsTasks.put id _⟩
  | finished =>
      simp only [putSweeping, sweepFrom]
      split
      · rename_i less
        split
        · exact ⟨_, _, _, .retire rfl worked (by simp) rfl, spawnsTasks.finish id _⟩
        · exact ⟨_, _, _, .next worked less, (spawnsTasks.trans (spawnsTasks_emit rfl)).put id _⟩
      · exact ⟨_, _, _, .retire rfl worked (by simp) rfl, spawnsTasks.finish id _⟩
  | failed e => exact ⟨_, _, _, .retire rfl worked (by simp) rfl, spawnsTasks.failSweep id session e⟩
  | crashed => exact ⟨_, _, _, .retire rfl worked (by simp) rfl, spawnsTasks.crash id⟩

theorem takesStep_beginWork {header : Header} (worked : t.beginWork session last number header = (progress, mid)) :
    t.TakesStep id (.sweeping session last (.fetching number)) (.header (.ok header))
      (putSweeping { t with ledger := mid } id session last number progress) := by
  rcases beginWork_cases t session last number header with ⟨work, begun⟩ | crashed
  · rw [worked] at begun
    cases begun
    exact ⟨_, _, _, .begin worked, (SpawnsTasks.refl mid).put id _⟩
  · rw [worked] at crashed
    cases crashed
    exact takesStep_rest rfl rfl ((SpawnsTasks.refl t.ledger).crash id)

theorem takesStep_resumeSweep? {point : SweepPoint} (moved : t.resumeSweep? id session last point answer = some u) :
    t.TakesStep id (.sweeping session last point) answer u := by
  unfold resumeSweep? at moved
  split at moved
  case h_1 =>
    cases moved
    exact takesStep_beginSweep id session last _
  case h_2 =>
    cases moved
    exact takesStep_rest rfl rfl ((SpawnsTasks.refl t.ledger).failSweep id session _)
  case h_3 =>
    cases moved
    exact takesStep_beginWork rfl
  case h_4 =>
    rcases Option.map_eq_some_iff.mp moved with ⟨⟨progress, mid⟩, worked, rfl⟩
    exact takesStep_putSweeping worked
  case h_5 => cases moved

end Sweep

/-! ### Start and stop -/

theorem takesStep_giveUp {context : Context} {point : StartPoint} {reason : GiveUp} :
    t.TakesStep id (.starting context point) answer (t.giveUp id context reason) := by
  obtain ⟨next, retired, stepsTo⟩ := (spawnsTasks_enterStop (t := t)).putGiveUp id context reason t.enterStop.1
  exact takesStep_rest rfl retired stepsTo

theorem takesStep_launch {context : Context} {chain height : UInt64} :
    t.TakesStep id (.starting context (.readingHeight chain)) answer (t.launch id context chain height) := by
  unfold launch
  split
  case isFalse => exact takesStep_rest rfl rfl ((SpawnsTasks.refl t.ledger).finish id _)
  case isTrue =>
    have spawnsTasks : SpawnsTasks t t.ledger [.watching ⟨t.runs.length, chain, t.settings.threshold chain⟩ .launched]
        { (t.spawn (.watching ⟨t.runs.length, chain, t.settings.threshold chain⟩ .launched)).2 with
          chain := some chain
          threshold := some (t.settings.threshold chain)
          token := some t.runs.length
          loops := t.loops ++ [t.tasks.length]
          runs := t.runs ++ [⟨context, id, t.tasks.length, false, .awaited⟩] } := by
      obtain ⟨quiet, tasks, settings, -⟩ := spawnsTasks_spawn (t := t)
        (.watching ⟨t.runs.length, chain, t.settings.threshold chain⟩ .launched)
      refine ⟨quiet, tasks, settings, ?_⟩
      intro run number arrived
      left
      -- of the new run no first live block is known
      simp only [Tracker.first] at arrived ⊢
      by_cases old : run < t.runs.length
      · rwa [List.getElem?_append_left old] at arrived
      · rw [List.getElem?_append_right (Nat.le_of_not_lt old)] at arrived
        cases found : ([⟨context, id, t.tasks.length, false, .awaited⟩] : List Run)[run - t.runs.length]? with
        | none =>
            rw [found] at arrived
            cases arrived
        | some r =>
            rw [found] at arrived
            rw [List.mem_singleton.mp (List.mem_of_getElem? found)] at arrived
            cases arrived
    exact ⟨_, _, _, .launch, spawnsTasks.put id _⟩

theorem takesStep_launchSweep {context : Context} {lowest first : UInt64}
    (arrived : t.first session.run = .arrived first) :
    t.TakesStep id (.starting context (.awaitingFirst session lowest)) .go (t.launchSweep id session lowest first) := by
  unfold launchSweep
  split
  case isFalse => exact takesStep_rest rfl rfl ((SpawnsTasks.refl t.ledger).finish id _)
  case isTrue =>
    have spawnsTasks : SpawnsTasks t t.ledger [.sweeping session (lastBefore first) (.launched lowest)]
        { (t.spawn (.sweeping session (lastBefore first) (.launched lowest))).2 with
          status := .running, loops := t.loops ++ [t.tasks.length] } := by
      obtain ⟨quiet, tasks, settings, first⟩ := spawnsTasks_spawn (t := t)
        (.sweeping session (lastBefore first) (.launched lowest))
      exact ⟨quiet, tasks, settings, first⟩
    exact ⟨_, _, _, .launchSweep arrived, spawnsTasks.finish id _⟩

theorem takesStep_resumeStart? {context : Context} {point : StartPoint}
    (moved : t.resumeStart? id context point answer = some u) : t.TakesStep id (.starting context point) answer u := by
  have spawnsTasks : SpawnsTasks t t.ledger [] t := .refl t.ledger
  unfold resumeStart? at moved
  split at moved
  case h_1 =>
    split at moved <;> cases moved
    · exact ⟨_, _, _, .ask, ((spawnsTasks_restatus .starting).trans (spawnsTasks_emit rfl)).put id _⟩
    · exact takesStep_rest rfl rfl (spawnsTasks.finish id _)
  case h_2 =>
    cases moved
    exact takesStep_rest rfl rfl ((spawnsTasks_restatus .idle).finish id _)
  case h_3 =>
    cases moved
    exact ⟨_, _, _, .name, spawnsTasks.put id _⟩
  case h_4 =>
    split at moved <;> cases moved
    · exact takesStep_rest rfl rfl ((spawnsTasks_restatus .idle).finish id _)
    · exact takesStep_launch
  case h_5 =>
    split at moved
    · rename_i arrived
      cases moved
      exact takesStep_launchSweep arrived
    · cases moved
      exact takesStep_giveUp
    · split at moved <;> cases moved
      exact takesStep_giveUp
  case h_6 reason stop =>
    rcases Option.map_eq_some_iff.mp moved with ⟨⟨next, v⟩, stopped, rfl⟩
    obtain ⟨after, retired, stepsTo⟩ := (spawnsTasks_resumeStop? stopped).putGiveUp id context reason next
    exact takesStep_rest rfl retired stepsTo
  case h_7 => cases moved

/-- Every resumed task takes one of these steps. -/
theorem takesStep_resume? (moved : t.resume? id answer = some u) :
    ∃ task, t.tasks[id]? = some task ∧ t.TakesStep id task answer u := by
  unfold resume? at moved
  split at moved
  · rename_i found
    exact ⟨_, found, takesStep_resumeStart? moved⟩
  · rename_i found
    rcases Option.map_eq_some_iff.mp moved with ⟨⟨next, v⟩, stopped, rfl⟩
    have spawnsTasks := spawnsTasks_resumeStop? stopped
    refine ⟨_, found, ?_⟩
    cases next with
    | done => exact takesStep_rest rfl rfl (spawnsTasks.finish id _)
    | _ => exact takesStep_rest rfl rfl (spawnsTasks.put id _)
  · rename_i found
    exact ⟨_, found, takesStep_resumeWatch? moved⟩
  · rename_i found
    exact ⟨_, found, takesStep_resumeSweep? moved⟩
  · cases moved

/-- Every move is a step of one task, or spawns tasks at most. -/
theorem takesStep_or_spawnsTasks_of_move? {m : Move} (moved : t.move? m = some u) :
    (∃ id answer task, m = .resume id answer ∧ t.tasks[id]? = some task ∧ t.TakesStep id task answer u) ∨
      ∃ new, SpawnsTasks t t.ledger new u ∧ ∀ task ∈ new, task.isCalled := by
  cases m with
  | start context =>
      cases moved
      exact Or.inr ⟨_, spawnsTasks_spawn _, by simp [Task.isCalled]⟩
  | stop =>
      cases moved
      exact Or.inr ⟨_, spawnsTasks_spawn _, by simp [Task.isCalled]⟩
  | cancel context =>
      cases moved
      exact Or.inr ⟨[], spawnsTasks_of_quiet (Ledger.quiet_emit rfl) rfl rfl fun _ => rfl, by simp⟩
  | setHeight height =>
      cases moved
      refine Or.inr ⟨[], ?_, by simp⟩
      unfold setHeight
      split
      · exact .refl t.ledger
      · exact spawnsTasks_of_quiet .refl rfl rfl fun _ => rfl
  | resubscribe dispatcher =>
      cases moved
      have quiet : t.ledger.Quiet (t.withDispatcher dispatcher).ledger := ⟨rfl, [], by simp [withDispatcher], by simp⟩
      exact Or.inr ⟨[], spawnsTasks_of_quiet quiet rfl rfl fun _ => rfl, by simp⟩
  | resume id answer =>
      obtain ⟨task, found, takesStep⟩ := takesStep_resume? moved
      exact Or.inl ⟨id, answer, task, rfl, found, takesStep⟩

end Tracker

end Chainwatch
