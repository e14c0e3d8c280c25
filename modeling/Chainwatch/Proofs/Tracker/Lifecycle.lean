import Chainwatch.Proofs.Tracker.History

/-!
# The life of a tracker

The life of a tracker is the part of its state that decides which runs are live: the status, the run that
a stop would cancel, the loops it would wait for, which runs are cancelled, and the role of each task.
Whatever the node, the store and the subscribers do, a move changes it by one of a few transitions.
-/

namespace Chainwatch

/-- The role of a task in the life of its tracker. -/
inductive Role where
  /-- A start that holds the tracker and has launched nothing yet. -/
  | undecided
  /-- A start that launched a run and waits for its first live block. -/
  | awaiting (run : Nat)
  | joining (tasks : List Nat)
  | looping (run : Nat)
  | inactive
  deriving DecidableEq, Repr

/-- The role of a caller of stop at this point. -/
def StopPoint.role : StopPoint → Role
  | .joining tasks => .joining tasks
  | .launched | .awaiting _ | .done => .inactive

def Task.role : Task → Role
  | .starting _ .launched => .inactive
  | .starting _ .askingChain | .starting _ (.readingHeight _) => .undecided
  | .starting _ (.awaitingFirst session _) => .awaiting session.run
  | .starting _ (.stopping _ point) => point.role
  | .stopping point => point.role
  | .watching session _ | .sweeping session _ _ => .looping session.run
  | .ended _ | .crashed => .inactive

/-- The part of a tracker that decides which runs are live: status, runs, cancellations, and the role of
each task. -/
structure Life where
  status : Status
  token : Option Nat
  loops : List Nat
  runs : List (Context × Bool)
  cancelled : List Context
  roles : List Role
  deriving DecidableEq

namespace Life

def isOver (l : Life) (run : Nat) : Bool :=
  l.runs[run]?.any fun r => r.2 || l.cancelled.contains r.1

def setRole (l : Life) (id : Nat) (role : Role) : Life :=
  { l with roles := l.roles.set id role }

/-- Begins a stop. -/
def halt (l : Life) : Life :=
  { l with
    status := .stopping
    runs :=
      match l.token with
      | some run => l.runs.modify run fun r => (r.1, true)
      | none => l.runs
    token := none
    loops := [] }

def rest (l : Life) : Life :=
  { l with status := .idle }

/-- Launches the watch of a new run. -/
def launch (l : Life) (id : Nat) (context : Context) : Life :=
  { l with
    token := some l.runs.length
    loops := l.loops ++ [l.roles.length]
    runs := l.runs ++ [(context, false)]
    roles := (l.roles ++ [Role.looping l.runs.length]).set id (.awaiting l.runs.length) }

def launchSweep (l : Life) (id run : Nat) : Life :=
  { l with
    status := .running
    loops := l.loops ++ [l.roles.length]
    roles := (l.roles ++ [Role.looping run]).set id .inactive }

/-- The transitions of a life. A start takes the tracker only while no other is undecided. -/
inductive Step (l : Life) : Life → Prop where
  | enter : Step l { l with roles := l.roles ++ [.inactive] }
  | cancel (context : Context) : Step l { l with cancelled := context :: l.cancelled }
  | claim {id : Nat} : l.status = .idle → Role.undecided ∉ l.roles →
      Step l ({ l with status := .starting }.setRole id .undecided)
  | abandon {id : Nat} : l.roles[id]? = some .undecided →
      Step l ({ l with status := .idle }.setRole id .inactive)
  | launch {id : Nat} (context : Context) : l.roles[id]? = some .undecided → l.status = .starting →
      Step l (l.launch id context)
  | launchSweep {id run : Nat} : l.roles[id]? = some (.awaiting run) → l.status = .starting →
      run < l.runs.length → l.isOver run = false → Step l (l.launchSweep id run)
  | leave {id : Nat} {role : Role} : l.roles[id]? = some role → (∀ tasks, role ≠ .joining tasks) →
      Step l (l.setRole id .inactive)
  | halt {id : Nat} {role : Role} : l.status = .starting ∨ l.status = .running → l.loops ≠ [] →
      l.roles[id]? = some role → (∀ tasks, role ≠ .joining tasks) →
      Step l (l.halt.setRole id (.joining l.loops))
  | stop {id : Nat} {role : Role} : l.status = .starting ∨ l.status = .running → l.loops = [] →
      l.roles[id]? = some role → (∀ tasks, role ≠ .joining tasks) →
      Step l (l.halt.rest.setRole id .inactive)
  | haltBehind {id run : Nat} : l.status = .starting ∨ l.status = .running →
      l.roles[id]? = some (.looping run) →
      Step l { l.halt with roles := l.roles ++ [.joining l.loops] }
  | join {id task : Nat} {tasks : List Nat} : l.roles[id]? = some (.joining (task :: tasks)) →
      l.roles[task]? = some .inactive → Step l (l.setRole id (.joining tasks))
  | rest {id : Nat} : l.roles[id]? = some (.joining []) → Step l (l.rest.setRole id .inactive)

inductive Steps (l : Life) : Life → Prop where
  | refl : Steps l l
  | tail {m n : Life} : Steps l m → Step m n → Steps l n

theorem Step.steps {l m : Life} (h : Step l m) : Steps l m :=
  .tail .refl h

end Life

namespace Tracker

variable {S : Type}

/-- The life of a tracker. -/
def life (t : Tracker S) : Life where
  status := t.status
  token := t.token
  loops := t.loops
  runs := t.runs.map fun r => (r.context, r.halted)
  cancelled := t.cancelled
  roles := t.tasks.map Task.role

variable (t : Tracker S)

@[simp] theorem life_emit (signal : Signal) : (t.emit signal).life = t.life := rfl

@[simp] theorem life_withDispatcher (dispatcher : Dispatcher) :
    (t.withDispatcher dispatcher).life = t.life := rfl

@[simp] theorem life_ledger (ledger : Ledger S) : life { t with ledger } = t.life := rfl

@[simp] theorem life_put (id : Nat) (task : Task) : (t.put id task).life = t.life.setRole id task.role := by
  simp [life, put, Life.setRole, List.map_set]

@[simp] theorem life_finish (id : Nat) (outcome : Except TrackError Unit) :
    (t.finish id outcome).life = t.life.setRole id .inactive :=
  life_put t id (.ended outcome)

@[simp] theorem life_crash (id : Nat) : (t.crash id).life = t.life.setRole id .inactive :=
  life_put t id .crashed

@[simp] theorem life_spawn (task : Task) :
    (t.spawn task).2.life = { t.life with roles := t.life.roles ++ [task.role] } := by
  simp [life, spawn, emit]

theorem life_roles (id : Nat) : t.life.roles[id]? = t.tasks[id]?.map Task.role := by
  simp [life]

theorem map_modify {α β : Type} {f : α → β} {g : α → α} {h : β → β} (comm : ∀ a, f (g a) = h (f a))
    (xs : List α) (i : Nat) : (xs.modify i g).map f = (xs.map f).modify i h := by
  apply List.ext_getElem?
  intro j
  rw [List.getElem?_map, List.getElem?_modify, List.getElem?_modify, List.getElem?_map]
  cases xs[j]? with
  | none => rfl
  | some a =>
      simp only [Option.map_eq_map, Option.map_some]
      split <;> simp [comm]

@[simp] theorem life_settle (run : Nat) (first : FirstBlock) : (t.settle run first).life = t.life := by
  unfold settle
  split
  · rw [life_emit]
    simp only [life, Life.mk.injEq, true_and, and_true]
    rw [map_modify (f := fun r : Run => (r.context, r.halted)) (h := id)]
    · exact List.modify_id _ _
    · intro r
      rfl
  · rfl

@[simp] theorem life_halt (run : Nat) :
    (t.halt run).life = { t.life with runs := t.life.runs.modify run fun r => (r.1, true) } := by
  unfold halt
  rw [life_emit]
  simp only [life, Life.mk.injEq, true_and, and_true]
  exact map_modify (f := fun r : Run => (r.context, r.halted)) (h := fun r => (r.1, true))
    (fun _ => rfl) _ _

theorem isOver_life (run : Nat) : t.life.isOver run = t.isOver run := by
  unfold Life.isOver isOver isCancelled
  simp only [life, List.getElem?_map]
  cases t.runs[run]? <;> rfl

theorem beginStop_fst : t.beginStop.1 = t.life.loops := by
  unfold beginStop
  cases h : t.token <;> rfl

theorem life_beginStop : t.beginStop.2.life = t.life.halt := by
  unfold beginStop
  cases h : t.token with
  | none =>
      rw [life_withDispatcher]
      simp only [life, Life.halt, h]
  | some run =>
      rw [life_withDispatcher]
      have halted := congrArg Life.runs (life_halt t run)
      simp only [life, Life.halt, h, Life.mk.injEq] at halted ⊢
      exact ⟨rfl, trivial, trivial, halted, rfl, rfl⟩

/-! ## Stop -/

variable {t} {l m : Life} {id : Nat} {role : Role}

@[simp] theorem life_putStop (point : StopPoint) :
    (t.putStop id point).life = t.life.setRole id point.role := by
  cases point <;> first | exact life_finish t id _ | exact life_put t id _

@[simp] theorem life_putGiveUp (context : Context) (reason : GiveUp) (point : StopPoint) :
    (t.putGiveUp id context reason point).life = t.life.setRole id point.role := by
  cases point <;> first | exact life_finish t id _ | exact life_put t id _

@[simp] theorem life_rest : t.rest.life = t.life.rest := rfl

theorem steps_enterStop (h : t.life.roles[id]? = some role) (free : ∀ tasks, role ≠ .joining tasks) :
    t.life.Steps (t.enterStop.2.life.setRole id t.enterStop.1.role) := by
  unfold enterStop
  have begun (active : t.life.status = .starting ∨ t.life.status = .running) :
      t.life.Steps ((t.beginStop.2.join t.beginStop.1).2.life.setRole id
        (t.beginStop.2.join t.beginStop.1).1.role) := by
    rw [beginStop_fst]
    cases hl : t.life.loops with
    | nil =>
        have stopped := (Life.Step.stop active hl h free).steps
        simpa [join, life_beginStop, StopPoint.role] using stopped
    | cons first rest =>
        have halted := (Life.Step.halt active (by simp [hl]) h free).steps
        rw [hl] at halted
        simpa [join, life_beginStop, StopPoint.role] using halted
  cases hs : t.status with
  | idle => exact (Life.Step.leave h free).steps
  | stopping => exact (Life.Step.leave h free).steps
  | starting => exact begun (Or.inl hs)
  | running => exact begun (Or.inr hs)

theorem steps_resumeStop? (point : StopPoint) {next : StopPoint} {u : Tracker S}
    (h : t.life.roles[id]? = some point.role) (moved : t.resumeStop? point = some (next, u)) :
    t.life.Steps (u.life.setRole id next.role) := by
  have here (role : Role) : (t.life.setRole id role).roles[id]? = some role := by
    simp [Life.setRole, (List.getElem?_eq_some_iff.mp h).1]
  cases point with
  | launched =>
      simp only [resumeStop?, Option.some.injEq] at moved
      have entered := steps_enterStop h (by simp [StopPoint.role])
      rw [moved] at entered
      exact entered
  | joining tasks =>
      cases tasks with
      | nil =>
          simp only [resumeStop?, join, Option.some.injEq, Prod.mk.injEq] at moved
          rcases moved with ⟨rfl, rfl⟩
          exact (Life.Step.rest h).steps
      | cons task tasks =>
          simp only [resumeStop?] at moved
          split at moved
          · rename_i ended
            have gone : t.life.roles[task]? = some .inactive := by
              unfold hasEnded at ended
              rw [life_roles]
              split at ended <;> simp_all [Task.role]
            have joined := Life.Step.join h gone
            cases tasks with
            | nil =>
                simp only [join, Option.some.injEq, Prod.mk.injEq] at moved
                rcases moved with ⟨rfl, rfl⟩
                have rested := joined.steps.tail (.rest (here _))
                simpa [Life.setRole, Life.rest, StopPoint.role] using rested
            | cons second rest =>
                simp only [join, Option.some.injEq, Prod.mk.injEq] at moved
                rcases moved with ⟨rfl, rfl⟩
                exact joined.steps
          · cases moved
  | awaiting ticket =>
      simp only [resumeStop?] at moved
      split at moved
      · cases moved
        exact (Life.Step.leave h (by simp [StopPoint.role])).steps
      · cases moved
  | done => cases moved

/-- A run that a loop stops: the tasks that exist keep their roles. -/
theorem stopInBackground_life {loop looped : Nat} (h : t.life.roles[loop]? = some (.looping looped))
    (run : Nat) : t.life.Steps (t.stopInBackground run).life ∧
      ∀ {id : Nat} {role : Role}, t.life.roles[id]? = some role →
        (t.stopInBackground run).life.roles[id]? = some role := by
  have begun (active : t.life.status = .starting ∨ t.life.status = .running) :
      t.life.Steps (t.beginStop.2.spawn (.stopping (.joining t.beginStop.1))).2.life ∧
        ∀ {id : Nat} {role : Role}, t.life.roles[id]? = some role →
          (t.beginStop.2.spawn (.stopping (.joining t.beginStop.1))).2.life.roles[id]? = some role := by
    rw [life_spawn, life_beginStop, beginStop_fst]
    refine ⟨(Life.Step.haltBehind active h).steps, ?_⟩
    intro id role h
    exact found_append h _
  unfold stopInBackground
  split
  · cases hs : t.status with
    | idle => exact ⟨.refl, fun h => h⟩
    | stopping => exact ⟨.refl, fun h => h⟩
    | starting => exact begun (Or.inl hs)
    | running => exact begun (Or.inr hs)
  · exact ⟨.refl, fun h => h⟩

theorem fail_life {loop looped : Nat} (h : t.life.roles[loop]? = some (.looping looped))
    (session : Session) (cause : TrackError) : t.life.Steps (t.fail session cause).life ∧
      ∀ {id : Nat} {role : Role}, t.life.roles[id]? = some role →
        (t.fail session cause).life.roles[id]? = some role := by
  unfold fail
  split
  · exact ⟨.refl, fun h => h⟩
  · dsimp only
    generalize ht : ({ t with ledger := { t.ledger with
      outlet := t.ledger.outlet.tellFailure session.run cause } } : Tracker S) = told
    have same : told.life = t.life := by rw [← ht, life_ledger]
    rw [← same] at h ⊢
    exact stopInBackground_life h session.run

/-! ## Loops -/

theorem setRole_self (h : l.roles[id]? = some role) : l.setRole id role = l := by
  rcases List.getElem?_eq_some_iff.mp h with ⟨bound, rfl⟩
  simp [Life.setRole]

theorem life_put_same (task : Task) (h : t.life.roles[id]? = some task.role) :
    (t.put id task).life = t.life := by
  rw [life_put, setRole_self h]

theorem steps_finish {run : Nat} (steps : l.Steps t.life) (h : t.life.roles[id]? = some (.looping run)) :
    l.Steps (t.life.setRole id .inactive) :=
  steps.tail (.leave h (by simp))

section Watch

variable {session : Session}

theorem steps_finishWatch (steps : l.Steps t.life)
    (h : t.life.roles[id]? = some (.looping session.run)) :
    l.Steps (t.finishWatch id session).life := by
  simpa [finishWatch] using steps_finish steps h

theorem steps_failWatch (h : t.life.roles[id]? = some (.looping session.run)) (cause : TrackError) :
    t.life.Steps (t.failWatch id session cause).life := by
  obtain ⟨steps, kept⟩ := fail_life h session cause
  exact steps_finishWatch steps (kept h)

theorem steps_leaveWatch (h : t.life.roles[id]? = some (.looping session.run)) :
    t.life.Steps (t.leaveWatch id session).life := by
  obtain ⟨steps, kept⟩ := stopInBackground_life h session.run
  exact steps_finishWatch steps (kept h)

theorem steps_crashWatch (h : t.life.roles[id]? = some (.looping session.run)) :
    t.life.Steps (t.crashWatch id session).life := by
  simpa [crashWatch] using steps_finish .refl h

theorem life_listen (h : t.life.roles[id]? = some (.looping session.run)) :
    (t.listen id session).life = t.life :=
  life_put_same (.watching session .listening) h

theorem life_afterLive (h : t.life.roles[id]? = some (.looping session.run)) (live : Header) :
    (t.afterLive id session live).life = t.life := by
  unfold afterLive
  split
  · exact life_put_same (t := t.emit _) (.watching session (.fetchingTarget live)) h
  · exact life_listen h

theorem steps_putObserving (h : t.life.roles[id]? = some (.looping session.run)) (live : Header)
    (progress : Progress) : t.life.Steps (t.putObserving id session live progress).life := by
  cases progress with
  | waits work => exact (life_put_same (.watching session (.observing live work)) h) ▸ .refl
  | finished => exact (life_afterLive h live) ▸ .refl
  | failed e => exact steps_failWatch h e
  | crashed => exact steps_crashWatch h

theorem steps_putConfirming (h : t.life.roles[id]? = some (.looping session.run)) (live : Header)
    (progress : Progress) : t.life.Steps (t.putConfirming id session live progress).life := by
  cases progress with
  | waits work => exact (life_put_same (.watching session (.confirming live work)) h) ▸ .refl
  | finished => exact (life_listen h) ▸ .refl
  | failed e => exact steps_failWatch h e
  | crashed => exact steps_crashWatch h

theorem steps_meetLive (h : t.life.roles[id]? = some (.looping session.run)) (live : Header) :
    t.life.Steps (t.meetLive id session live).life := by
  unfold meetLive
  dsimp only
  generalize hu : (t.emit (.live session.run live.number)).settle session.run (.arrived live.number) = u
  have same : u.life = t.life := by rw [← hu, life_settle, life_emit]
  rw [← same] at h ⊢
  exact steps_putObserving h live _

variable [BlockStore S]

theorem steps_resumeWatch? {point : WatchPoint} {answer : Answer} {u : Tracker S}
    (h : t.life.roles[id]? = some (.looping session.run))
    (moved : t.resumeWatch? id session point answer = some u) : t.life.Steps u.life := by
  unfold resumeWatch? at moved
  split at moved
  case h_1 =>
    cases moved
    exact (life_put_same (t := t.emit _) (.watching session .subscribing) h) ▸ .refl
  case h_2 =>
    cases moved
    exact steps_failWatch h _
  case h_3 =>
    cases moved
    exact (life_listen h) ▸ .refl
  case h_4 =>
    split at moved
    · cases moved
      exact steps_leaveWatch h
    · cases moved
  case h_5 =>
    split at moved
    · cases moved
    · split at moved <;> cases moved
      · exact steps_meetLive h _
      · exact steps_failWatch h _
      · exact steps_failWatch h _
  case h_6 =>
    rcases Option.map_eq_some_iff.mp moved with ⟨⟨progress, ledger⟩, -, rfl⟩
    exact steps_putObserving (t := { t with ledger }) h _ progress
  case h_7 =>
    cases moved
    exact steps_failWatch h _
  case h_8 =>
    cases moved
    exact steps_putConfirming (t := { t with ledger := (Work.confirm t.ledger _).2 }) h _ _
  case h_9 =>
    rcases Option.map_eq_some_iff.mp moved with ⟨⟨progress, ledger⟩, -, rfl⟩
    exact steps_putConfirming (t := { t with ledger }) h _ progress
  case h_10 => cases moved

end Watch

section Sweep

variable {session : Session}

theorem steps_finishSweep (h : t.life.roles[id]? = some (.looping session.run)) :
    t.life.Steps (t.finishSweep id).life := by
  simpa [finishSweep] using steps_finish .refl h

theorem steps_failSweep (h : t.life.roles[id]? = some (.looping session.run)) (cause : TrackError) :
    t.life.Steps (t.failSweep id session cause).life := by
  obtain ⟨steps, kept⟩ := fail_life h session cause
  simpa [failSweep, finishSweep] using steps_finish steps (kept h)

theorem steps_sweepFrom (h : t.life.roles[id]? = some (.looping session.run)) (last number : UInt64) :
    t.life.Steps (t.sweepFrom id session last number).life := by
  unfold sweepFrom
  split
  · exact steps_finishSweep h
  · exact (life_put_same (t := t.emit _) (.sweeping session last (.fetching number)) h) ▸ .refl

theorem steps_beginSweep (h : t.life.roles[id]? = some (.looping session.run)) (last lowest : UInt64) :
    t.life.Steps (t.beginSweep id session last lowest).life := by
  unfold beginSweep
  split
  · exact steps_finishSweep h
  · exact steps_sweepFrom h last lowest

theorem steps_putSweeping (h : t.life.roles[id]? = some (.looping session.run)) (last number : UInt64)
    (progress : Progress) : t.life.Steps (t.putSweeping id session last number progress).life := by
  cases progress with
  | waits work =>
      exact (life_put_same (.sweeping session last (.working number work)) h) ▸ .refl
  | finished =>
      simp only [putSweeping]
      split
      · exact steps_sweepFrom h last _
      · exact steps_finishSweep h
  | failed e => exact steps_failSweep h e
  | crashed => simpa [putSweeping] using steps_finish .refl h

variable [BlockStore S]

theorem steps_resumeSweep? {last : UInt64} {point : SweepPoint} {answer : Answer} {u : Tracker S}
    (h : t.life.roles[id]? = some (.looping session.run))
    (moved : t.resumeSweep? id session last point answer = some u) : t.life.Steps u.life := by
  unfold resumeSweep? at moved
  split at moved
  case h_1 =>
    cases moved
    exact steps_beginSweep h last _
  case h_2 =>
    cases moved
    exact steps_failSweep h _
  case h_3 =>
    cases moved
    exact steps_putSweeping (t := { t with ledger := (t.beginWork session last _ _).2 }) h last _ _
  case h_4 =>
    rcases Option.map_eq_some_iff.mp moved with ⟨⟨progress, ledger⟩, -, rfl⟩
    exact steps_putSweeping (t := { t with ledger }) h last _ progress
  case h_5 => cases moved

end Sweep

/-! ## Starts -/

/-- The rule for starts: a start takes an idle tracker only if no other start is undecided. -/
def Orderly (t : Tracker S) : Move → Prop
  | .resume id .go =>
    (∃ context, t.tasks[id]? = some (.starting context .launched)) → t.status = .idle →
      Role.undecided ∉ t.life.roles
  | _ => True

/-- Whether a move keeps the rule for starts. -/
def isOrderly (t : Tracker S) : Move → Bool
  | .resume id .go =>
      match t.tasks[id]? with
      | some (.starting _ .launched) => t.status != .idle || !t.life.roles.contains .undecided
      | _ => true
  | _ => true

theorem orderly_of_isOrderly {m : Move} (h : t.isOrderly m) : t.Orderly m := by
  cases m with
  | resume id answer =>
      cases answer with
      | go =>
          intro launched idle
          obtain ⟨context, found⟩ := launched
          simpa [isOrderly, found, idle] using h
      | _ => trivial
  | _ => trivial

theorem steps_leave_start {task : Task} (h : t.tasks[id]? = some task)
    (free : ∀ tasks, task.role ≠ .joining tasks) (outcome : Except TrackError Unit) :
    t.life.Steps (t.finish id outcome).life := by
  rw [life_finish]
  have here : t.life.roles[id]? = some task.role := by rw [life_roles, h, Option.map_some]
  exact (Life.Step.leave here free).steps

theorem step_abandonStart {task : Task} (h : t.tasks[id]? = some task) (held : task.role = .undecided)
    (cause : TrackError) : t.life.Step (t.abandonStart id cause).life := by
  unfold abandonStart
  rw [life_finish]
  apply Life.Step.abandon (l := t.life)
  rw [life_roles, h, Option.map_some, held]

theorem steps_launch {context : Context} {chain height : UInt64}
    (h : t.tasks[id]? = some (.starting context (.readingHeight chain))) :
    t.life.Steps (t.launch id context chain height).life := by
  have here : t.life.roles[id]? = some .undecided := by rw [life_roles, h]; rfl
  unfold launch
  split
  · rename_i starting
    have launched := (Life.Step.launch context here starting).steps
    rw [life_put]
    refine cast (congrArg t.life.Steps ?_) launched
    simp [Life.launch, Life.setRole, life, spawn, emit, Task.role]
  · exact steps_leave_start h (by simp [Task.role]) _

theorem steps_launchSweep {context : Context} {session : Session} {lowest first : UInt64}
    (h : t.tasks[id]? = some (.starting context (.awaitingFirst session lowest)))
    (known : session.run < t.runs.length) :
    t.life.Steps (t.launchSweep id session lowest first).life := by
  have here : t.life.roles[id]? = some (.awaiting session.run) := by rw [life_roles, h]; rfl
  unfold launchSweep
  split
  · rename_i ready
    have running : t.life.isOver session.run = false := by
      rw [isOver_life]
      simpa using ready.2
    have bound : session.run < t.life.runs.length := by simpa [life] using known
    have launched := (Life.Step.launchSweep here ready.1 bound running).steps
    rw [life_finish]
    refine cast (congrArg t.life.Steps ?_) launched
    simp [Life.launchSweep, Life.setRole, life, spawn, emit, Task.role]
  · exact steps_leave_start h (by simp [Task.role]) _

/-- Only a run that was launched has a first live block. -/
theorem known_of_first {run : Nat} {first : FirstBlock} (h : t.first run = first)
    (settled : first ≠ .awaited) : run < t.runs.length := by
  unfold Tracker.first at h
  cases found : t.runs[run]? with
  | none =>
      rw [found] at h
      exact (settled h.symm).elim
  | some r => exact (List.getElem?_eq_some_iff.mp found).1

theorem steps_giveUp (h : t.life.roles[id]? = some role) (free : ∀ tasks, role ≠ .joining tasks)
    (context : Context) (reason : GiveUp) : t.life.Steps (t.giveUp id context reason).life := by
  unfold giveUp
  rw [life_putGiveUp]
  exact steps_enterStop h free

variable [BlockStore S]

theorem steps_resumeStart? {context : Context} {point : StartPoint} {answer : Answer} {u : Tracker S}
    (h : t.tasks[id]? = some (.starting context point)) (orderly : t.Orderly (.resume id answer))
    (moved : t.resumeStart? id context point answer = some u) : t.life.Steps u.life := by
  have here : t.life.roles[id]? = some (Task.starting context point).role := by rw [life_roles, h]; rfl
  unfold resumeStart? at moved
  split at moved
  case h_1 =>
    split at moved <;> cases moved
    · rename_i idle
      have claimed : t.life.Step ({ t.life with status := .starting }.setRole id .undecided) :=
        .claim idle (orderly ⟨context, h⟩ idle)
      rw [life_put]
      exact claimed.steps
    · exact steps_leave_start h (by simp [Task.role]) _
  case h_2 =>
    cases moved
    exact (step_abandonStart h rfl _).steps
  case h_3 =>
    cases moved
    exact (life_put_same (.starting context (.readingHeight _)) here) ▸ .refl
  case h_4 =>
    split at moved <;> cases moved
    · exact (step_abandonStart h rfl _).steps
    · exact steps_launch h
  case h_5 =>
    split at moved
    · rename_i arrived
      cases moved
      exact steps_launchSweep h (known_of_first arrived (by simp))
    · cases moved
      exact steps_giveUp here (by simp [Task.role]) context _
    · split at moved <;> cases moved
      exact steps_giveUp here (by simp [Task.role]) context _
  case h_6 point =>
    rcases Option.map_eq_some_iff.mp moved with ⟨⟨next, v⟩, stopped, rfl⟩
    rw [life_putGiveUp]
    exact steps_resumeStop? point here stopped
  case h_7 => cases moved

/-- Every move that keeps the rule for starts is a sequence of life steps. -/
theorem steps_move? {u : Tracker S} {m : Move} (orderly : t.Orderly m) (moved : t.move? m = some u) :
    t.life.Steps u.life := by
  cases m with
  | start context =>
      cases moved
      rw [start, life_spawn]
      exact (Life.Step.enter (l := t.life)).steps
  | stop =>
      cases moved
      rw [stop, life_spawn]
      exact (Life.Step.enter (l := t.life)).steps
  | cancel context =>
      cases moved
      exact (Life.Step.cancel (l := t.life) context).steps
  | setHeight height =>
      cases moved
      unfold setHeight
      split <;> exact .refl
  | resubscribe dispatcher =>
      cases moved
      exact .refl
  | resume id answer =>
      simp only [move?] at moved
      unfold resume? at moved
      have here {task : Task} (h : t.tasks[id]? = some task) : t.life.roles[id]? = some task.role := by
        rw [life_roles, h]
        rfl
      split at moved
      · rename_i context point _ h
        exact steps_resumeStart? h orderly moved
      · rename_i point h
        rcases Option.map_eq_some_iff.mp moved with ⟨⟨next, v⟩, stopped, rfl⟩
        rw [life_putStop]
        exact steps_resumeStop? point (here h) stopped
      · rename_i session point _ h
        exact steps_resumeWatch? (here h) moved
      · rename_i session last point _ h
        exact steps_resumeSweep? (here h) moved
      · cases moved

end Tracker

end Chainwatch
