import Chainwatch.Proofs.Tracker.Keeping

/-!
# Events are kept throughout a run

In a run without failures, with fixed subscriptions and a node that replies with the logs of one chain,
every move keeps the events once, whichever task makes it; a task that has put a block in place and not
yet saved its events is recorded as lacking them.
-/

namespace Chainwatch

/-! ## Events still to be added -/

/-- The task has put a block in place and is still to add its events. -/
def Task.LacksEvents (task : Task) (number : UInt64) : Prop :=
  ∃ session work, task.work? = some (session, work) ∧ number = work.header.number ∧ work.isWritten

/-- The task is a watch that has confirmed what the last live block makes final. -/
def Task.hasConfirmedLast : Task → Bool
  | .watching _ .launched | .watching _ .subscribing | .watching _ .listening => true
  | .watching _ (.confirming _ work) => work.isWritten
  | _ => false

def Progress.work? : Progress → Option Work
  | .waits work => some work
  | .finished | .failed _ | .crashed => none

namespace Task

variable {task : Task} {session : Session} {work : Work} {number : UInt64}

theorem lacksEvents_iff (under : task.work? = some (session, work)) :
    task.LacksEvents number ↔ number = work.header.number ∧ work.isWritten := by
  constructor
  · rintro ⟨_, _, same, lacksEvents⟩
    cases under.symm.trans same
    exact lacksEvents
  · exact fun lacksEvents => ⟨session, work, under, lacksEvents⟩

theorem not_lacksEvents (free : task.work? = none) : ¬task.LacksEvents number := by
  simp [LacksEvents, free]

theorem watching_of_hasConfirmedLast (confirmedLast : task.hasConfirmedLast) :
    ∃ session point, task = .watching session point := by
  cases task with
  | watching session point => exact ⟨session, point, rfl⟩
  | _ => cases confirmedLast

theorem work?_of_isRetired (retired : task.isRetired) : task.work? = none ∧ task.hasConfirmedLast = false := by
  cases task with
  | watching session point => cases retired
  | sweeping session last point => cases retired
  | _ => exact ⟨rfl, rfl⟩

end Task

theorem Work.isWritten_of_confirm {S : Type} {l after : Ledger S} {target : Header} {work : Work}
    (begun : confirm l target = (.waits work, after)) : work.isWritten = false := by
  unfold confirm tellConfirmed at begun
  split at begun
  · cases begun
  · cases begun
    rfl
  · split at begun <;> cases begun <;> rfl

namespace Tracker

variable {S : Type} {t u : Tracker S} {id : Nat} {task next : Task} {new : List Task} {mid : Ledger S}
  {number : UInt64}

/-- Some task is still to add the events of a number. -/
def LacksEvents (t : Tracker S) (number : UInt64) : Prop :=
  ∃ (id : Nat) (task : Task), t.tasks[id]? = some task ∧ task.LacksEvents number

/-- Some other task is still to add the events of a number. -/
def OtherLacksEvents (t : Tracker S) (id : Nat) (number : UInt64) : Prop :=
  ∃ (j : Nat) (task : Task), j ≠ id ∧ t.tasks[j]? = some task ∧ task.LacksEvents number

/-- The watch has confirmed what the last live block makes final. -/
def HasConfirmedLast (t : Tracker S) : Prop :=
  ∃ (id : Nat) (task : Task), t.tasks[id]? = some task ∧ task.hasConfirmedLast

theorem lacksEvents_iff (found : t.tasks[id]? = some task) :
    t.LacksEvents number ↔ t.OtherLacksEvents id number ∨ task.LacksEvents number := by
  constructor
  · rintro ⟨j, other, there, lacksEvents⟩
    by_cases same : j = id
    · subst same
      cases found.symm.trans there
      exact Or.inr lacksEvents
    · exact Or.inl ⟨j, other, same, there, lacksEvents⟩
  · intro h
    rcases h with ⟨j, other, -, there, lacksEvents⟩ | lacksEvents
    · exact ⟨j, other, there, lacksEvents⟩
    · exact ⟨id, task, found, lacksEvents⟩

theorem StepsTo.lacksEvents_iff (h : t.StepsTo id mid next new u) (found : t.tasks[id]? = some task)
    (free : ∀ launched ∈ new, launched.work? = none) :
    u.LacksEvents number ↔ t.OtherLacksEvents id number ∨ next.LacksEvents number := by
  constructor
  · rintro ⟨j, other, there, lacksEvents⟩
    rcases h.cases there with ⟨-, rfl⟩ | ⟨differ, old⟩ | launched | ⟨point, rfl⟩
    · exact Or.inr lacksEvents
    · exact Or.inl ⟨j, other, differ, old, lacksEvents⟩
    · exact (Task.not_lacksEvents (free other launched) lacksEvents).elim
    · exact (Task.not_lacksEvents rfl lacksEvents).elim
  · intro h'
    rcases h' with ⟨j, other, differ, there, lacksEvents⟩ | lacksEvents
    · exact ⟨j, other, h.kept differ there, lacksEvents⟩
    · exact ⟨id, next, h.here found, lacksEvents⟩

theorem StepsTo.hasConfirmedLast (h : t.StepsTo id mid next new u) (confirmedLast : u.HasConfirmedLast) :
    next.hasConfirmedLast ∨ (∃ (j : Nat) (other : Task), j ≠ id ∧ t.tasks[j]? = some other ∧ other.hasConfirmedLast) ∨
      ∃ launched ∈ new, launched.hasConfirmedLast := by
  obtain ⟨j, other, there, confirmedLast⟩ := confirmedLast
  rcases h.cases there with ⟨-, rfl⟩ | ⟨differ, old⟩ | launched | ⟨point, rfl⟩
  · exact Or.inl confirmedLast
  · exact Or.inr (Or.inl ⟨j, other, differ, old, confirmedLast⟩)
  · exact Or.inr (Or.inr ⟨other, launched, confirmedLast⟩)
  · cases confirmedLast

/-! ## Steps with and without work -/

/-- A step without work changes neither the store nor the record, and only a launch creates a watch that
has confirmed what the last live block makes final. -/
structure StepsWithoutWork (t : Tracker S) (task : Task) (mid : Ledger S) (next : Task) (new : List Task) : Prop where
  quiet : t.ledger.Quiet mid
  confirmedLast : next.hasConfirmedLast → task.hasConfirmedLast
  launched : ∀ launched ∈ new, launched.hasConfirmedLast →
    ∃ context chain, task = .starting context (.readingHeight chain)

theorem stepsWithoutWork_of_behind (quiet : t.ledger.Quiet mid) (behind : next.hasConfirmedLast = false) :
    t.StepsWithoutWork task mid next [] :=
  ⟨quiet, fun confirmedLast => (Bool.false_ne_true (behind.symm.trans confirmedLast)).elim, by simp⟩

variable [BlockStore S] {answer : Answer} {session : Session} {work : Work}

/-- A task that is at work takes a step of its work. -/
theorem TaskStep.worked (turn : t.TaskStep task answer mid next new) (under : task.work? = some (session, work)) :
    new = [] ∧ ∃ progress, work.resume? session t.ledger answer = some (progress, mid) ∧
      next.work? = progress.work?.map (session, ·) ∧
      (next.hasConfirmedLast → task.hasConfirmedLast ∨
        (∃ live, task = .watching session (.observing live work) ∧ ¬session.threshold ≤ live.number) ∨
        ∃ live, task = .watching session (.confirming live work) ∧ progress.isPlaced) := by
  cases turn with
  | rest free =>
      rw [free] at under
      cases under
  | @retire _ _ _ _ _ progress _ under' worked ended retired =>
      cases under.symm.trans under'
      obtain ⟨free, idle⟩ := Task.work?_of_isRetired retired
      refine ⟨rfl, progress, worked, ?_, fun confirmedLast => (Bool.false_ne_true (idle.symm.trans confirmedLast)).elim⟩
      rw [free]
      cases progress with
      | waits more => exact (ended more rfl).elim
      | _ => rfl
  | observe worked =>
      cases under
      exact ⟨rfl, _, worked, rfl, fun confirmedLast => nomatch confirmedLast⟩
  | target worked =>
      cases under
      exact ⟨rfl, _, worked, rfl, fun confirmedLast => nomatch confirmedLast⟩
  | pass worked early =>
      cases under
      exact ⟨rfl, _, worked, rfl, fun _ => Or.inr (Or.inl ⟨_, rfl, early⟩)⟩
  | promote worked =>
      cases under
      exact ⟨rfl, _, worked, rfl, fun placed => Or.inr (Or.inr ⟨_, rfl, placed⟩)⟩
  | confirmed worked =>
      cases under
      exact ⟨rfl, _, worked, rfl, fun _ => Or.inr (Or.inr ⟨_, rfl, rfl⟩)⟩
  | work worked =>
      cases under
      exact ⟨rfl, _, worked, rfl, fun confirmedLast => nomatch confirmedLast⟩
  | next worked =>
      cases under
      exact ⟨rfl, _, worked, rfl, fun confirmedLast => nomatch confirmedLast⟩
  | _ => cases under

/-- A task that is not at work does not change the store, and only a watch that takes a live block
records one. -/
theorem TaskStep.free (turn : t.TaskStep task answer mid next new) (free : task.work? = none) :
    (∀ launched ∈ new, launched.work? = none) ∧ (t.StepsWithoutWork task mid next new ∨
      ∃ session live, task = .watching session .listening ∧ answer = .arrival (some (.ok live)) ∧
        mid = t.ledger.emit (.live session.run live.number) ∧ new = [] ∧ next.hasConfirmedLast = false) := by
  cases turn with
  | rest _ retired => exact ⟨by simp, Or.inl (stepsWithoutWork_of_behind .refl (Task.work?_of_isRetired retired).2)⟩
  | retire under =>
      rw [free] at under
      cases under
  | launch =>
      refine ⟨by simp [Task.work?], Or.inl ⟨.refl, ?_, fun _ _ _ => ⟨_, _, rfl⟩⟩⟩
      simp [Task.hasConfirmedLast]
  | launchSweep =>
    exact ⟨by simp [Task.work?], Or.inl ⟨.refl, by simp [Task.hasConfirmedLast], by simp [Task.hasConfirmedLast]⟩⟩
  | subscribe => exact ⟨by simp, Or.inl ⟨.refl, fun _ => rfl, by simp⟩⟩
  | listen => exact ⟨by simp, Or.inl ⟨.refl, fun _ => rfl, by simp⟩⟩
  | meet => exact ⟨by simp, Or.inr ⟨_, _, rfl, rfl, rfl, rfl, rfl⟩⟩
  | fall => exact ⟨by simp, Or.inr ⟨_, _, rfl, rfl, rfl, rfl, rfl⟩⟩
  | confirm begun =>
      exact ⟨by simp, Or.inl (stepsWithoutWork_of_behind (Work.quiet_confirm begun) (Work.isWritten_of_confirm begun))⟩
  | begin begun => exact ⟨by simp, Or.inl (stepsWithoutWork_of_behind (quiet_beginWork begun) rfl)⟩
  | ask => exact ⟨by simp, Or.inl (stepsWithoutWork_of_behind .refl rfl)⟩
  | name => exact ⟨by simp, Or.inl (stepsWithoutWork_of_behind .refl rfl)⟩
  | sweep => exact ⟨by simp, Or.inl (stepsWithoutWork_of_behind .refl rfl)⟩
  | _ => cases free

theorem lacksEvents_of_worked {progress : Progress}
    (worked : work.resume? session t.ledger answer = some (progress, mid))
    (under : next.work? = progress.work?.map (session, ·)) :
    next.LacksEvents number ↔ number = work.header.number ∧ progress.lacksEvents := by
  cases progress with
  | waits more =>
      rw [Task.lacksEvents_iff under, (Work.resume?_waits worked).1]
      rfl
  | _ => simp [Progress.lacksEvents, Task.not_lacksEvents under]

end Tracker

theorem Ledger.Quiet.lives {S : Type} {l after : Ledger S} (h : l.Quiet after) (run : Nat) :
    after.news.filterMap (Signal.live? run) = l.news.filterMap (Signal.live? run) := by
  obtain ⟨more, told, plain⟩ := h.signals
  have none : (more.filter Signal.isNews).filterMap (Signal.live? run) = [] := by
    rw [List.filterMap_eq_nil_iff]
    intro signal mem
    have untold := plain signal (List.mem_filter.mp mem).1
    cases signal with
    | live _ _ => cases untold
    | _ => rfl
  rw [Ledger.news, told, List.filter_append, List.filterMap_append, none, List.append_nil]
  rfl

theorem Tracker.StepsTo.lives_of_live {S : Type} {t u : Tracker S} {id run : Nat} {number : UInt64} {next : Task}
    {new : List Task} (h : t.StepsTo id (t.ledger.emit (.live run number)) next new u) :
    u.lives run = t.lives run ++ [number] := by
  have told : [Signal.live run number].filter Signal.isNews = [.live run number] := rfl
  refine (h.quiet.lives run).trans ?_
  rw [Ledger.news_emit, told]
  simp [Signal.live?, Tracker.lives]

namespace RunAt

variable {S : Type} [BlockStore S] [LawfulStore S] {o : Outset S} {troubled : Prop} {t u : Tracker S} {m : Mark}
  {id j : Nat} {task next : Task} {new : List Task} {answer : Answer} {mid : Ledger S} {session other : Session}
  {work : Work} {progress : Progress} {point place : WatchPoint}

/-- There is only one watch. -/
theorem watch_unique (h : RunAt o troubled none t m) (found : t.tasks[id]? = some (.watching session point))
    (there : t.tasks[j]? = some (.watching other place)) : j = id :=
  Option.some.inj ((h.tasks (by simp) there).1.symm.trans (h.tasks (by simp) found).1)

theorem lives_of_worked (h : RunAt o troubled none t m) (found : t.tasks[id]? = some task)
    (under : task.work? = some (session, work)) (honest : answer.IsHonest)
    (worked : work.resume? session t.ledger answer = some (progress, mid)) (stepsTo : t.StepsTo id mid next new u) :
    u.lives o.run = t.lives o.run := by
  obtain ⟨same, number, confirms, at_work⟩ := h.isAtWork found under
  obtain ⟨_, advances, -⟩ := Work.resume?_spec (congrArg Session.chain same) h.storeAt.sound h.storeAt.carries
    at_work.on at_work.stored honest worked
  exact (stepsTo.quiet.lives o.run).trans (congrArg (List.filterMap (Signal.live? o.run)) advances.news)

theorem head?_lives (h : RunAt o troubled none t m) (honest : answer.IsHonest) (found : t.tasks[id]? = some task)
    (turn : t.TaskStep task answer mid next new) (stepsTo : t.StepsTo id mid next new u) {first : UInt64}
    (head : (t.lives o.run).head? = some first) : (u.lives o.run).head? = some first := by
  cases under : task.work? with
  | some at_work =>
      obtain ⟨-, progress, worked, -⟩ := turn.worked under
      rw [h.lives_of_worked found under honest worked stepsTo]
      exact head
  | none =>
      obtain ⟨-, withoutWork | ⟨session, live, rfl, -, rfl, -⟩⟩ := turn.free under
      · have lives : u.lives o.run = t.lives o.run := (stepsTo.quiet.lives o.run).trans (withoutWork.quiet.lives o.run)
        rw [lives]
        exact head
      · obtain ⟨-, rfl, -⟩ := h.tasks (by simp) found
        have lives : u.lives o.run = t.lives o.run ++ [live.number] := stepsTo.lives_of_live
        rw [lives, List.head?_append, head]
        rfl

end RunAt

/-! ## The invariant of a run -/

section Run

variable {S : Type} [BlockStore S] [LawfulStore S]

namespace Outset

variable (o : Outset S)

/-- The watch has confirmed the number. -/
def Promoted (t : Tracker S) (number : UInt64) : Prop :=
  ∃ first last, Spans (t.lives o.run) first last ∧ first.toNat ≤ number.toNat + o.plan.threshold.toNat ∧
    (number.toNat + o.plan.threshold.toNat < last.toNat ∨
      number.toNat + o.plan.threshold.toNat = last.toNat ∧ t.HasConfirmedLast)

/-- What the run may have done to the numbers of its chain so far. -/
def runRecord (t : Tracker S) : RunRecord where
  observes := o.MayObserve (t.lives o.run)
  confirms := o.MayConfirm (t.lives o.run)
  lacksEvents := t.LacksEvents
  promoted := o.Promoted t

def beside (t : Tracker S) (id : Nat) : RunRecord :=
  { o.runRecord t with lacksEvents := t.OtherLacksEvents id }

end Outset

variable {o : Outset S} (book : Logbook o.chain)

namespace Logbook

/-- The moves of a run without failures, in which subscriptions stay and the node replies with the logs
of the chain. -/
structure Allows (t : Tracker S) (move : Move) : Prop where
  allowed : o.Allows False t move
  asked : ∀ {dispatcher : Dispatcher}, move = .resubscribe dispatcher → book.AreWatched dispatcher.addresses
  replied : ∀ {id : Nat} {logs : List Log} {addresses : List String} {number : UInt64},
    move = .resume id (.logs (.ok logs)) → t.wait? id = some (.node (.logs addresses number number)) →
    logs = book.reply addresses number

/-- Every event is kept once, and all work is about the watched logs. -/
structure Kept (t : Tracker S) : Prop where
  keeps : book.Keeps o.plan.before (o.runRecord t) (LawfulStore.view t.ledger.store)
  due : ∀ {id : Nat} {task : Task} {session : Session} {work : Work}, t.tasks[id]? = some task →
    task.work? = some (session, work) → book.IsDue work.header.number work
  asked : book.AreWatched t.addresses

/-- The effect of a step: events are kept, the task is at work on the watched logs, and newly launched
tasks are not at work. -/
structure StepInvariant (u : Tracker S) (next : Task) (new : List Task) : Prop where
  keeps : book.Keeps o.plan.before (o.runRecord u) (LawfulStore.view u.ledger.store)
  launched : ∀ launched ∈ new, launched.work? = none
  due : ∀ {session : Session} {work : Work}, next.work? = some (session, work) → book.IsDue work.header.number work

variable {book} {t u : Tracker S} {m : Mark} {id : Nat} {task next : Task} {answer : Answer} {mid : Ledger S}
  {new : List Task} {session : Session} {work : Work}

/-- `Keeps` is monotone in what was observed and confirmed. -/
theorem keeps_runRecord {lives : List UInt64} {k : RunRecord} {v : View} (h : book.Keeps o.plan.before k v)
    (told : u.lives o.run = lives) (observes : ∀ n, k.observes n → o.MayObserve lives n)
    (confirms : ∀ n, k.confirms n → o.MayConfirm lives n) (lacksEvents : ∀ n, k.lacksEvents n ↔ u.LacksEvents n)
    (promoted : ∀ n, o.Promoted u n → k.promoted n) : book.Keeps o.plan.before (o.runRecord u) v := by
  subst told
  exact h.grows observes confirms lacksEvents promoted

theorem Kept.keeps_beside (h : book.Kept t) (found : t.tasks[id]? = some task) {number : UInt64} {lacksEvents : Prop}
    (same : ∀ n, task.LacksEvents n ↔ n = number ∧ lacksEvents) :
    book.Keeps o.plan.before ((o.beside t id).at number lacksEvents False) (LawfulStore.view t.ledger.store) := by
  refine h.keeps.grows (fun _ h => h) (fun _ h => h) ?_ ?_
  · intro n
    exact (Tracker.lacksEvents_iff found).trans (or_congr_right (same n))
  · intro n promoted
    exact promoted.resolve_right fun h => h.2

/-! ### Steps with work -/

theorem promoted_of_worked {progress : Progress} {number n : UInt64} {confirms : Bool}
    (runAt : RunAt o False none t m) (found : t.tasks[id]? = some task) (on : work.IsOn o.chain number confirms)
    (stepsTo : t.StepsTo id mid next [] u) (lives : u.lives o.run = t.lives o.run)
    (confirmedLast : next.hasConfirmedLast → task.hasConfirmedLast ∨
      (∃ live, task = .watching session (.observing live work) ∧ ¬session.threshold ≤ live.number) ∨
      ∃ live, task = .watching session (.confirming live work) ∧ progress.isPlaced)
    (h : o.Promoted u n) : o.Promoted t n ∨ n = number ∧ confirms ∧ progress.isPlaced := by
  obtain ⟨first, last, spans, low, high⟩ := h
  rw [lives] at spans
  rcases high with below | ⟨top, caught⟩
  · exact Or.inl ⟨first, last, spans, low, Or.inl below⟩
  · rcases stepsTo.hasConfirmedLast caught with here | ⟨j, other, -, there, early⟩ | ⟨launched, mem, -⟩
    · rcases confirmedLast here with old | ⟨live, rfl, early⟩ | ⟨live, rfl, placed⟩
      · exact Or.inl ⟨first, last, spans, low, Or.inr ⟨top, id, task, found, old⟩⟩
      · -- the watch passes by a live block that makes none final
        obtain ⟨-, rfl, met, -⟩ := runAt.tasks (by simp) found
        cases spans.last.symm.trans met
        refine (early ?_).elim
        have most : o.plan.threshold.toNat ≤ live.number.toNat := by omega
        exact UInt64.le_iff_toNat_le.mpr most
      · obtain ⟨-, rfl, met, final, -, at_target, -⟩ := runAt.tasks (by simp) found
        cases spans.last.symm.trans met
        have target := RunAt.target_toNat final
        have same : n = live.number - o.plan.threshold := UInt64.toNat_inj.mp (by omega)
        have place : number = live.number - o.plan.threshold := by
          rw [← o.chain.number_eq number, ← on.header_eq, at_target.header_eq, o.chain.number_eq]
        exact Or.inr ⟨same.trans place.symm, on.confirms_eq.symm.trans at_target.confirms_eq, placed⟩
    · exact Or.inl ⟨first, last, spans, low, Or.inr ⟨top, j, other, there, early⟩⟩
    · cases mem

theorem Kept.worked (h : book.Kept t) (runAt : RunAt o False none t m)
    (allowed : book.Allows t (.resume id answer)) (found : t.tasks[id]? = some task)
    (under : task.work? = some (session, work)) (turn : t.TaskStep task answer mid next new)
    (stepsTo : t.StepsTo id mid next new u) : book.StepInvariant u next new := by
  obtain ⟨rfl, progress, worked, next_eq, confirmedLast⟩ := turn.worked under
  obtain ⟨same, number, confirms, at_work⟩ := runAt.isAtWork found under
  have place : work.header.number = number := at_work.on.header_eq ▸ o.chain.number_eq number
  subst place
  obtain ⟨⟨serves, faultless⟩, -, replied⟩ := allowed
  have waits := Tracker.wait?_of_work? found under
  -- the step is stated for the record of the other tasks, with what this one has to add set apart
  obtain ⟨keeps, goes⟩ := Work.resume?_keeps (congrArg Session.chain same) runAt.storeAt.sound
    runAt.storeAt.carries at_work.on (h.due found under) h.asked at_work.observes at_work.finalizes faultless
    (fun asked told => replied (told ▸ rfl) (waits.trans (congrArg some asked)))
    (h.keeps_beside found fun n => Task.lacksEvents_iff under) worked
  have lives : u.lives o.run = t.lives o.run := runAt.lives_of_worked found under serves.isHonest worked stepsTo
  refine ⟨?_, by simp, ?_⟩
  · rw [stepsTo.quiet.store]
    refine keeps_runRecord keeps lives (fun _ h => h) (fun _ h => h) ?_ ?_
    · intro n
      exact ((stepsTo.lacksEvents_iff found (by simp)).trans
        (or_congr_right (Tracker.lacksEvents_of_worked worked next_eq))).symm
    · exact fun n => promoted_of_worked runAt found at_work.on stepsTo lives confirmedLast
  · intro session' work' begun
    rw [next_eq] at begun
    cases progress with
    | waits more =>
        cases begun
        rw [(Work.resume?_waits worked).1]
        exact goes _ rfl
    | _ => cases begun

/-! ### Steps without work -/

theorem due_of_began (asked : book.AreWatched t.addresses) (serves : o.Serves t id answer)
    (found : t.tasks[id]? = some task) (free : task.work? = none) (turn : t.TaskStep task answer mid next new)
    (under : next.work? = some (session, work)) :
    book.IsDue work.header.number work ∧ work.isWritten = false := by
  cases turn with
  | rest _ retired =>
      rw [(Task.work?_of_isRetired retired).1] at under
      cases under
  | retire begun =>
      rw [free] at begun
      cases begun
  | @meet _ live _ begun =>
      cases under
      obtain ⟨same, -⟩ := serves rfl
      rw [same] at begun
      exact Work.isDue_of_observe asked begun
  | confirm begun =>
      cases under
      cases serves.header_eq found rfl
      exact Work.isDue_of_confirm asked begun
  | begin begun =>
      cases under
      cases serves.header_eq found rfl
      unfold Tracker.beginWork at begun
      split at begun
      · exact Work.isDue_of_confirm asked begun
      · exact Work.isDue_of_observe asked (congrArg Prod.fst begun)
  | observe => cases free
  | promote => cases free
  | work => cases free
  | _ => cases under

theorem promoted_of_stepsWithoutWork {n : UInt64} (runAt : RunAt o False none t m) (found : t.tasks[id]? = some task)
    (withoutWork : t.StepsWithoutWork task mid next new) (stepsTo : t.StepsTo id mid next new u)
    (lives : u.lives o.run = t.lives o.run) (h : o.Promoted u n) : o.Promoted t n := by
  obtain ⟨first, last, spans, low, high⟩ := h
  rw [lives] at spans
  refine ⟨first, last, spans, low, high.imp_right fun ⟨top, caught⟩ => ⟨top, ?_⟩⟩
  rcases stepsTo.hasConfirmedLast caught with here | ⟨j, other, -, there, early⟩ | ⟨launched, mem, early⟩
  · exact ⟨id, task, found, withoutWork.confirmedLast here⟩
  · exact ⟨j, other, there, early⟩
  · -- before the launch there are no live blocks
    obtain ⟨context, chain, rfl⟩ := withoutWork.launched launched mem early
    obtain ⟨-, -, -, unwatched, -⟩ := runAt.tasks (by simp) found
    obtain ⟨-, -, runs, -⟩ := runAt.early unwatched
    have none := spans.head
    rw [Tracker.IsSilent.lives runAt.silent (Nat.le_of_eq runs)] at none
    cases none

theorem promoted_of_meet {n : UInt64} {live : Header} (runAt : RunAt o False none t m)
    (found : t.tasks[id]? = some (.watching session .listening)) (stepsTo : t.StepsTo id mid next [] u)
    (behind : next.hasConfirmedLast = false) (lives : u.lives o.run = t.lives o.run ++ [live.number])
    (follow : ∀ {last : UInt64}, (t.lives o.run).getLast? = some last → live.number.toNat = last.toNat + 1)
    (h : o.Promoted u n) : o.Promoted t n := by
  obtain ⟨first, last, ⟨head, top⟩, low, high⟩ := h
  rw [lives] at head top
  cases List.getLast?_concat.symm.trans top
  -- there is but one watch, and it has just fallen behind
  have early : ¬u.HasConfirmedLast := by
    intro caught
    rcases stepsTo.hasConfirmedLast caught with here | ⟨j, other, differ, there, confirmedLast⟩ | ⟨launched, mem, -⟩
    · exact Bool.false_ne_true (behind.symm.trans here)
    · obtain ⟨run, point, rfl⟩ := Task.watching_of_hasConfirmedLast confirmedLast
      exact differ (runAt.watch_unique found there)
    · cases mem
  have below := high.resolve_right fun h => early h.2
  cases known : t.lives o.run with
  | nil =>
      rw [known] at head
      cases head
      omega
  | cons earliest rest =>
      obtain ⟨before, last⟩ : ∃ before, (t.lives o.run).getLast? = some before :=
        ⟨_, List.getLast?_eq_some_getLast (by simp [known])⟩
      have next := follow last
      rw [known] at head
      refine ⟨first, before, ⟨known ▸ head, last⟩, low, ?_⟩
      rcases Nat.lt_or_eq_of_le (show n.toNat + o.plan.threshold.toNat ≤ before.toNat by omega) with less | same
      · exact Or.inl less
      · exact Or.inr ⟨same, id, _, found, rfl⟩

theorem Kept.free (h : book.Kept t) (runAt : RunAt o False none t m)
    (allowed : book.Allows t (.resume id answer)) (found : t.tasks[id]? = some task)
    (free : task.work? = none) (turn : t.TaskStep task answer mid next new) (stepsTo : t.StepsTo id mid next new u) :
    book.StepInvariant u next new := by
  obtain ⟨⟨serves, -⟩, -, -⟩ := allowed
  obtain ⟨launched, taken⟩ := turn.free free
  have due {session : Session} {work : Work} (under : next.work? = some (session, work)) :
      book.IsDue work.header.number work ∧ work.isWritten = false :=
    due_of_began h.asked serves found free turn under
  have lacksEvents (n : UInt64) : t.LacksEvents n ↔ u.LacksEvents n := by
    have idle : ¬next.LacksEvents n := by
      rintro ⟨session, work, under, -, written⟩
      exact Bool.false_ne_true ((due under).2.symm.trans written)
    rw [Tracker.lacksEvents_iff found, stepsTo.lacksEvents_iff found launched]
    exact or_congr_right (iff_of_false (Task.not_lacksEvents free) idle)
  refine ⟨?_, launched, fun under => (due under).1⟩
  rw [stepsTo.quiet.store]
  rcases taken with withoutWork | ⟨session, live, rfl, rfl, rfl, rfl, behind⟩
  · have lives : u.lives o.run = t.lives o.run := (stepsTo.quiet.lives o.run).trans (withoutWork.quiet.lives o.run)
    rw [withoutWork.quiet.store]
    exact keeps_runRecord h.keeps lives (fun _ h => h) (fun _ h => h) lacksEvents
      fun _ => promoted_of_stepsWithoutWork runAt found withoutWork stepsTo lives
  · obtain ⟨-, rfl, -⟩ := runAt.tasks (by simp) found
    obtain ⟨-, follow⟩ := serves rfl
    have lives : u.lives o.run = t.lives o.run ++ [live.number] := stepsTo.lives_of_live
    exact keeps_runRecord h.keeps lives (fun _ observes => observes.append follow)
      (fun _ confirms => confirms.append follow) lacksEvents
      fun _ => promoted_of_meet runAt found stepsTo behind lives follow

theorem Kept.move? (h : book.Kept t) (runAt : RunAt o False none t m) {move : Move} (allowed : book.Allows t move)
    (moved : t.move? move = some u) : book.Kept u := by
  cases move with
  | start context => exact allowed.allowed.elim
  | setHeight height => exact allowed.allowed.elim
  | stop => exact allowed.allowed.elim
  | cancel context => exact allowed.allowed.elim
  | resubscribe dispatcher =>
      cases moved
      exact ⟨h.keeps, h.due, allowed.asked rfl⟩
  | resume id answer =>
      obtain ⟨task, found, mid, next, new, turn, stepsTo⟩ := Tracker.takesStep_resume? moved
      have asked : book.AreWatched u.addresses := by
        rw [runAt.addresses_resume? allowed.allowed moved]
        exact h.asked
      obtain ⟨keeps, launched, due⟩ : book.StepInvariant u next new := by
        cases under : task.work? with
        | none => exact h.free runAt allowed found under turn stepsTo
        | some at_work => exact h.worked runAt allowed found under turn stepsTo
      refine ⟨keeps, ?_, asked⟩
      intro j other session work there under
      rcases stepsTo.cases there with ⟨-, rfl⟩ | ⟨-, old⟩ | mem | ⟨point, rfl⟩
      · exact due under
      · exact h.due old under
      · rw [launched other mem] at under
        cases under
      · cases under

variable (book)

theorem kept_begun (asked : book.AreWatched o.tracker.addresses) : book.Kept o.begun := by
  have keepsRun : o.tracker.KeepsRun o.run o.begun := Tracker.keepsRun_spawn _
  have lives : o.begun.lives o.run = [] :=
    (keepsRun.lives o.run).trans (Tracker.IsSilent.lives o.rest.silent (Nat.le_refl _))
  have free {id : Nat} {task : Task} (found : o.begun.tasks[id]? = some task) : task.work? = none := by
    rcases found_append_singleton found with old | ⟨rfl, rfl⟩
    · have ended := o.rest.ended old
      cases task with
      | ended outcome => rfl
      | crashed => rfl
      | _ => cases ended
    · rfl
  refine ⟨⟨fun _ _ => ⟨rfl, rfl⟩, fun n => .untouched rfl rfl ?_ ?_⟩, ?_, asked⟩
  · rintro ⟨id, task, found, lacksEvents⟩
    exact Task.not_lacksEvents (free found) lacksEvents
  · rintro ⟨first, last, ⟨head, -⟩, -⟩
    rw [lives] at head
    cases head
  · intro id task session work found under
    rw [free found] at under
    cases under

theorem kept_of_reaches (wanted : o.tracker.isCancelled o.context = false)
    (asked : book.AreWatched o.tracker.addresses) (history : Tracker.Reaches book.Allows o.begun t) :
    book.Kept t ∧ t.life.Sound ∧ ∃ m, RunAt o False none t m := by
  induction history with
  | refl => exact ⟨book.kept_begun asked, o.reaches (fun _ => wanted) .refl⟩
  | move _ allowed moved ih =>
      obtain ⟨kept, life, m, runAt⟩ := ih
      obtain ⟨life', n, follows', -⟩ := runAt.move? life allowed.allowed moved
      exact ⟨kept.move? runAt allowed moved, life', n, follows'⟩

end Logbook

end Run

end Chainwatch
