import Chainwatch.Proofs.Dispatcher.Hearing
import Chainwatch.Proofs.Store.Hooked
import Chainwatch.Proofs.Tracker.Cancellation
import Chainwatch.Proofs.Tracker.CurrentRun

/-!
# The effect of a move on the status

A move changes nothing about the status, begins a stop, fails a run, or completes a stop. In each case
heads and events are reported before that and nothing afterwards, and a caller of stop begins to wait for
a rest only when it finds the tracker stopping.
-/

namespace Chainwatch

/-- The run and the cause of a reported failure. -/
def Signal.failure? : Signal → Option (Nat × TrackError)
  | .failure run cause => some (run, cause)
  | _ => none

/-! ## Notices along the way -/

namespace Outlet

variable {o p q : Outlet}

/-- The reported failures, oldest first. -/
def failures (o : Outlet) : List (Nat × TrackError) :=
  o.signals.filterMap Signal.failure?

/-- Between two outlets only heads and events are reported. -/
structure Tells (o p : Outlet) : Prop where
  told : ∃ notices, p.dispatcher = o.dispatcher.tell notices
  failures : p.failures = o.failures

theorem Tells.refl (o : Outlet) : o.Tells o :=
  ⟨⟨[], rfl⟩, rfl⟩

theorem Tells.trans (h : o.Tells p) (g : p.Tells q) : o.Tells q := by
  obtain ⟨first, told⟩ := h.told
  obtain ⟨rest, told'⟩ := g.told
  refine ⟨⟨first ++ rest, ?_⟩, g.failures.trans h.failures⟩
  rw [told', told, Dispatcher.tell, Dispatcher.tell, Dispatcher.tell, List.map_append, List.foldl_append]

theorem failures_emit {signal : Signal} (other : signal.failure? = none) : (o.emit signal).failures = o.failures := by
  simp [failures, emit, other]

theorem tells_emit {signal : Signal} (other : signal.failure? = none) : o.Tells (o.emit signal) :=
  ⟨⟨[], rfl⟩, failures_emit other⟩

theorem tells_tellHead (o : Outlet) (head : Head) : o.Tells (o.tellHead head) :=
  ⟨⟨[.head head], rfl⟩, failures_emit (o := { o with dispatcher := _ }) rfl⟩

theorem tells_tellEvents (o : Outlet) (events : List Event) : o.Tells (o.tellEvents events) := by
  refine ⟨⟨events.map .event, ?_⟩, ?_⟩
  · rw [Dispatcher.tell, List.map_map]
    exact o.dispatcher.dispatchEvents_eq events
  · have none : (events.map Signal.event).filterMap Signal.failure? = [] := by
      rw [List.filterMap_map]
      exact List.filterMap_eq_nil_iff.mpr fun _ _ => rfl
    rw [failures, tellEvents, List.filterMap_append, none, List.append_nil, failures]

end Outlet

namespace Ledger

variable {S α : Type} {l : Ledger S}

theorem tells_of_hooked (fault : Option TrackError) {operation : S → Outlet → Written S Outlet α}
    {hooks : List (Hook Outlet α)} (hooked : (operation l.store l.outlet).IsHooked hooks l.outlet)
    (tells : ∀ stored, l.outlet.Tells (runHooks hooks stored l.outlet).2) :
    l.outlet.Tells (l.write fault operation).2.outlet := by
  unfold write
  cases fault with
  | some e => exact .refl _
  | none =>
      rcases hooked with same | ⟨stored, ran⟩
      · change l.outlet.Tells (operation l.store l.outlet).state
        rw [same]
        exact .refl _
      · change l.outlet.Tells (operation l.store l.outlet).state
        rw [ran]
        exact tells stored

end Ledger

namespace Work

variable {S : Type}

theorem tells_afterRecord (l : Ledger S) (header : Header) (state : BlockState) :
    l.outlet.Tells (afterRecord l header state).2.outlet := by
  unfold afterRecord
  split
  · split
    · exact .refl _
    · exact Outlet.tells_emit rfl
  · exact .refl _

theorem tells_confirm (l : Ledger S) (header : Header) : l.outlet.Tells (confirm l header).2.outlet := by
  unfold confirm tellConfirmed
  split
  · exact .refl _
  · exact l.outlet.tells_tellEvents []
  · split
    · exact l.outlet.tells_tellEvents []
    · exact Outlet.tells_emit rfl

variable [BlockStore S] {session : Session} {l after : Ledger S} {work : Work} {answer : Answer} {progress : Progress}

theorem tells_resume? [HookedStore S] (moved : work.resume? session l answer = some (progress, after)) :
    l.outlet.Tells after.outlet := by
  unfold resume? at moved
  split at moved
  case h_1 header state fault =>
    have tells : l.outlet.Tells (l.recordHead fault (.ofHeader session.chain header state)).2.outlet :=
      Ledger.tells_of_hooked fault (HookedStore.createHead _ _ _ _) fun stored => l.outlet.tells_tellHead _
    split at moved <;> rename_i recorded <;> rw [recorded] at tells
    · rename_i ledger
      have after_eq : (afterRecord ledger header state).2 = after := congrArg Prod.snd (Option.some.inj moved)
      exact after_eq ▸ tells.trans (tells_afterRecord ledger header state)
    · cases moved
      exact tells
  case h_2 =>
    cases moved
    exact .refl _
  case h_3 => split at moved <;> cases moved <;> exact .refl _
  case h_4 header events fault =>
    have tells : l.outlet.Tells (l.recordEvents fault session.chain header.hash events).2.outlet :=
      Ledger.tells_of_hooked fault (HookedStore.saveLogs _ _ _ _ _ _) fun stored => l.outlet.tells_tellEvents _
    split at moved <;> rename_i saved <;> rw [saved] at tells <;> cases moved <;> exact tells
  case h_5 =>
    cases moved
    exact .refl _
  case h_6 =>
    cases moved
    exact l.outlet.tells_tellEvents _
  case h_7 header events fault =>
    have tells : l.outlet.Tells (l.promoteHead fault (.ofHeader session.chain header .confirmed)).2.outlet :=
      Ledger.tells_of_hooked fault (HookedStore.upsertHead _ _ _ _) fun stored => l.outlet.tells_tellHead _
    split at moved <;> rename_i promoted <;> rw [promoted] at tells <;> cases moved <;> exact tells
  case h_8 header events fault =>
    have tells : l.outlet.Tells (l.keepEvents fault session.chain header.hash events).2.outlet :=
      Ledger.tells_of_hooked fault (HookedStore.saveLogs _ _ _ _ [] _) fun stored => .refl _
    split at moved <;> rename_i saved <;> rw [saved] at tells <;> cases moved <;> exact tells
  case h_9 => cases moved

end Work

/-! ## Callers of stop that wait -/

/-- The number of rests seen by a caller of stop that waits for another. -/
def StopPoint.ticket? : StopPoint → Option Nat
  | .awaiting ticket => some ticket
  | .launched | .joining _ | .done => none

def Task.ticket? : Task → Option Nat
  | .starting _ (.stopping _ point) | .stopping point => point.ticket?
  | _ => none

namespace Tracker

variable {S : Type} {t u v : Tracker S} {id : Nat} {next : Task} {session : Session}

/-- The task waits for a rest, having seen `ticket` of them. -/
def Waits (t : Tracker S) (id ticket : Nat) : Prop :=
  ∃ task, t.tasks[id]? = some task ∧ task.ticket? = some ticket

theorem Waits.of_tasks {ticket : Nat} (h : u.Waits id ticket) (same : u.tasks = t.tasks) : t.Waits id ticket := by
  obtain ⟨task, found, waits⟩ := h
  exact ⟨task, same ▸ found, waits⟩

theorem Waits.of_spawn {ticket : Nat} (h : (t.spawn next).2.Waits id ticket) (free : next.ticket? = none) :
    t.Waits id ticket := by
  obtain ⟨task, found, waits⟩ := h
  rcases found_append_singleton found with found | ⟨-, rfl⟩
  · exact ⟨task, found, waits⟩
  · rw [free] at waits
    cases waits

theorem Waits.of_put {j ticket : Nat} (h : (t.put id next).Waits j ticket) :
    t.Waits j ticket ∨ next.ticket? = some ticket := by
  obtain ⟨task, found, waits⟩ := h
  by_cases same : j = id
  · subst same
    simp only [put, List.getElem?_set, if_true] at found
    split at found <;> cases found
    exact Or.inr waits
  · rw [getElem?_tasks_put_ne same] at found
    exact Or.inl ⟨task, found, waits⟩

/-! ## Steps without effect -/

/-- The reported failures of runs, oldest first. -/
def failures (t : Tracker S) : List (Nat × TrackError) :=
  t.ledger.outlet.failures

/-- The step reports nothing and stops nothing. -/
structure NoEffect (t u : Tracker S) : Prop where
  status : u.status = t.status
  rests : u.rests = t.rests
  chain : u.chain = t.chain
  runs : u.life.runs = t.life.runs
  cancelled : u.cancelled = t.cancelled
  dispatcher : u.dispatcher = t.dispatcher
  failures : u.failures = t.failures
  waits : ∀ {j ticket : Nat}, u.Waits j ticket → t.Waits j ticket

theorem NoEffect.refl : t.NoEffect t :=
  ⟨rfl, rfl, rfl, rfl, rfl, rfl, rfl, id⟩

theorem NoEffect.trans (h : t.NoEffect u) (g : u.NoEffect v) : t.NoEffect v where
  status := g.status.trans h.status
  rests := g.rests.trans h.rests
  chain := g.chain.trans h.chain
  runs := g.runs.trans h.runs
  cancelled := g.cancelled.trans h.cancelled
  dispatcher := g.dispatcher.trans h.dispatcher
  failures := g.failures.trans h.failures
  waits := h.waits ∘ g.waits

theorem NoEffect.isOver (h : t.NoEffect u) (run : Nat) : u.isOver run = t.isOver run := by
  rw [← isOver_life, ← isOver_life, Life.isOver, Life.isOver, h.runs]
  exact congrArg (fun cancelled => (t.life.runs[run]?).any fun r => r.2 || cancelled.contains r.1) h.cancelled

theorem NoEffect.length_runs (h : t.NoEffect u) : u.runs.length = t.runs.length := by
  simpa [life] using congrArg List.length h.runs

theorem noEffect_emit {signal : Signal} (other : signal.failure? = none) : t.NoEffect (t.emit signal) :=
  ⟨rfl, rfl, rfl, rfl, rfl, rfl, Outlet.failures_emit other, fun waits => waits.of_tasks rfl⟩

theorem noEffect_put (free : next.ticket? = none) : t.NoEffect (t.put id next) := by
  refine ⟨rfl, rfl, rfl, rfl, rfl, rfl, rfl, fun waits => waits.of_put.resolve_right ?_⟩
  simp [free]

theorem noEffect_spawn (free : next.ticket? = none) : t.NoEffect (t.spawn next).2 :=
  ⟨rfl, rfl, rfl, rfl, rfl, rfl, Outlet.failures_emit rfl, fun waits => waits.of_spawn free⟩

theorem noEffect_finish (outcome : Except TrackError Unit) : t.NoEffect (t.finish id outcome) :=
  (noEffect_put rfl).trans (noEffect_emit rfl)

theorem noEffect_crash : t.NoEffect (t.crash id) :=
  (noEffect_put rfl).trans (noEffect_emit rfl)

theorem noEffect_settle (run : Nat) (first : FirstBlock) : t.NoEffect (t.settle run first) := by
  have life := t.life_settle run first
  unfold settle at life ⊢
  split
  case isFalse => exact .refl
  case isTrue waits =>
    rw [if_pos waits] at life
    exact ⟨rfl, rfl, rfl, congrArg Life.runs life, rfl, rfl, Outlet.failures_emit rfl, fun waits => waits.of_tasks rfl⟩

theorem noEffect_finishWatch : t.NoEffect (t.finishWatch id session) :=
  (noEffect_settle _ _).trans (noEffect_finish _)

theorem noEffect_crashWatch : t.NoEffect (t.crashWatch id session) :=
  (noEffect_settle _ _).trans noEffect_crash

theorem noEffect_afterLive (live : Header) : t.NoEffect (t.afterLive id session live) := by
  unfold afterLive
  split
  · exact (noEffect_emit rfl).trans (noEffect_put rfl)
  · exact noEffect_put rfl

theorem noEffect_sweepFrom (last number : UInt64) : t.NoEffect (t.sweepFrom id session last number) := by
  unfold sweepFrom
  split
  · exact noEffect_finish _
  · exact (noEffect_emit rfl).trans (noEffect_put rfl)

theorem noEffect_beginSweep (last lowest : UInt64) : t.NoEffect (t.beginSweep id session last lowest) := by
  unfold beginSweep
  split
  · exact noEffect_finish _
  · exact noEffect_sweepFrom last lowest

/-! ## Effects of a move -/

/-- The effect of a move on the status, and what it reports. -/
inductive StatusEffect (t u : Tracker S) : Prop where
  | goes (notices : List Notice) : u.status = t.status ∨ t.status ≠ .stopping ∧ u.status ≠ .stopping →
      u.rests = t.rests → u.dispatcher = t.dispatcher.tell notices → u.failures = t.failures → StatusEffect t u
  | begins (notices : List Notice) : t.IsActive →
      u.status = .stopping ∧ u.rests = t.rests ∨ u.status = .idle ∧ u.rests = t.rests + 1 →
      u.dispatcher = (t.dispatcher.tell notices).closeAll.2 → u.failures = t.failures → StatusEffect t u
  | fails (notices : List Notice) {run : Nat} {cause : TrackError} : t.IsActive → run < t.runs.length →
      t.isOver run = false → u.status = .stopping → u.rests = t.rests →
      u.dispatcher = ((t.dispatcher.tell notices).broadcast cause).closeAll.2 →
      u.failures = t.failures ++ [(run, cause)] → StatusEffect t u
  | rests (notices : List Notice) : t.status = .stopping → u.status = .idle → u.rests = t.rests + 1 →
      u.dispatcher = t.dispatcher.tell notices → u.failures = t.failures → StatusEffect t u

/-- The effect of a move: a task that waits for a rest did so before or found the tracker stopping, and
once a run is launched the chain is known. -/
structure MoveEffect (t u : Tracker S) : Prop where
  effect : t.StatusEffect u
  waits : ∀ {j ticket : Nat}, u.Waits j ticket → t.Waits j ticket ∨ ticket = t.rests ∧ t.status = .stopping
  chain : u.chain = t.chain ∧ u.runs.length = t.runs.length ∨ u.chain ≠ none ∧ u.runs ≠ []

theorem NoEffect.moveEffect (h : t.NoEffect u) : t.MoveEffect u :=
  ⟨.goes [] (Or.inl h.status) h.rests h.dispatcher h.failures, fun waits => Or.inl (h.waits waits),
    Or.inl ⟨h.chain, h.length_runs⟩⟩

theorem StatusEffect.of_same (h : t.StatusEffect u) (status : v.status = u.status) (rests : v.rests = u.rests)
    (dispatcher : v.dispatcher = u.dispatcher) (failures : v.failures = u.failures) : t.StatusEffect v := by
  cases h with
  | goes notices going rested told kept =>
      exact .goes notices (status ▸ going) (rests.trans rested) (dispatcher.trans told) (failures.trans kept)
  | begins notices active ending told kept =>
      exact .begins notices active (by rw [status, rests]; exact ending) (dispatcher.trans told) (failures.trans kept)
  | fails notices active bound live stopping rested told kept =>
      exact .fails notices active bound live (status.trans stopping) (rests.trans rested) (dispatcher.trans told)
        (failures.trans kept)
  | rests notices stopping idle rested told kept =>
      exact .rests notices stopping (status.trans idle) (rests.trans rested) (dispatcher.trans told)
        (failures.trans kept)

theorem StatusEffect.noEffect (h : t.StatusEffect u) (noEffect : u.NoEffect v) : t.StatusEffect v :=
  h.of_same noEffect.status noEffect.rests noEffect.dispatcher noEffect.failures

theorem MoveEffect.noEffect (h : t.MoveEffect u) (noEffect : u.NoEffect v) : t.MoveEffect v where
  effect := h.effect.noEffect noEffect
  waits waits := h.waits (noEffect.waits waits)
  chain := by
    refine h.chain.imp (fun same => ⟨noEffect.chain.trans same.1, noEffect.length_runs.trans same.2⟩) fun launched => ?_
    refine ⟨noEffect.chain ▸ launched.1, fun none => launched.2 ?_⟩
    rw [← List.length_eq_zero_iff, ← noEffect.length_runs, none]
    rfl

theorem StatusEffect.tell {mid : Ledger S} (h : StatusEffect { t with ledger := mid } u)
    (tells : t.ledger.outlet.Tells mid.outlet) : t.StatusEffect u := by
  obtain ⟨⟨first, told⟩, kept⟩ := tells
  have joined (notices : List Notice) :
      mid.outlet.dispatcher.tell notices = t.dispatcher.tell (first ++ notices) := by
    rw [told, Dispatcher.tell, Dispatcher.tell, Dispatcher.tell, List.map_append, List.foldl_append]
    rfl
  cases h with
  | goes notices going rested told' kept' =>
      exact .goes (first ++ notices) going rested (told'.trans (joined notices)) (kept'.trans kept)
  | begins notices active ending told' kept' =>
      exact .begins (first ++ notices) active ending
        (told'.trans (congrArg (fun d => (Dispatcher.closeAll d).2) (joined notices))) (kept'.trans kept)
  | fails notices active bound live stopping rested told' kept' =>
      exact .fails (first ++ notices) active bound live stopping rested
        (told'.trans (congrArg (fun d => (Dispatcher.closeAll (Dispatcher.broadcast d _)).2) (joined notices)))
        (kept'.trans (congrArg (· ++ _) kept))
  | rests notices stopping idle rested told' kept' =>
      exact .rests (first ++ notices) stopping idle rested (told'.trans (joined notices)) (kept'.trans kept)

theorem MoveEffect.tell {mid : Ledger S} (h : MoveEffect { t with ledger := mid } u)
    (tells : t.ledger.outlet.Tells mid.outlet) : t.MoveEffect u :=
  ⟨h.effect.tell tells, h.waits, h.chain⟩

theorem NoEffect.then (h : t.NoEffect u) (g : u.MoveEffect v) : t.MoveEffect v where
  effect := by
    have active (active : u.IsActive) : t.IsActive := by rwa [IsActive, ← h.status]
    have told (notices : List Notice) : u.dispatcher.tell notices = t.dispatcher.tell notices :=
      congrArg (·.tell notices) h.dispatcher
    cases g.effect with
    | goes notices going rested heard kept =>
        exact .goes notices (h.status ▸ going) (rested.trans h.rests) (heard.trans (told _)) (kept.trans h.failures)
    | begins notices acts ending heard kept =>
        exact .begins notices (active acts) (h.rests ▸ ending) (told notices ▸ heard) (kept.trans h.failures)
    | fails notices acts bound live stopping rested heard kept =>
        exact .fails notices (active acts) (h.length_runs ▸ bound) (h.isOver _ ▸ live) stopping (rested.trans h.rests)
          (told notices ▸ heard) (h.failures ▸ kept)
    | rests notices stopping idle rested heard kept =>
        exact .rests notices (h.status ▸ stopping) idle (h.rests ▸ rested) (heard.trans (told _))
          (kept.trans h.failures)
  waits waits := by
    rcases g.waits waits with waits | ⟨ticket, stopping⟩
    · exact Or.inl (h.waits waits)
    · exact Or.inr ⟨ticket.trans h.rests, h.status ▸ stopping⟩
  chain := g.chain.imp_left fun same => ⟨same.1.trans h.chain, same.2.trans h.length_runs⟩

/-! ## Stopping -/

theorem beginStop_spec (t : Tracker S) : t.beginStop.2.status = .stopping ∧ t.beginStop.2.rests = t.rests ∧
    t.beginStop.2.chain = t.chain ∧ t.beginStop.2.runs.length = t.runs.length ∧ t.beginStop.2.tasks = t.tasks ∧
    t.beginStop.2.dispatcher = t.dispatcher.closeAll.2 ∧ t.beginStop.2.failures = t.failures := by
  unfold beginStop
  cases t.token with
  | none => exact ⟨rfl, rfl, rfl, rfl, rfl, rfl, rfl⟩
  | some run => exact ⟨rfl, rfl, rfl, List.length_modify .., rfl, rfl, Outlet.failures_emit rfl⟩

theorem moveEffect_beginStop (active : t.IsActive) : t.MoveEffect t.beginStop.2 := by
  obtain ⟨status, rests, chain, runs, tasks, dispatcher, failures⟩ := t.beginStop_spec
  exact ⟨.begins [] active (Or.inl ⟨status, rests⟩) dispatcher failures, fun waits => Or.inl (waits.of_tasks tasks),
    Or.inl ⟨chain, runs⟩⟩

theorem moveEffect_join (active : t.IsActive) : t.MoveEffect (t.beginStop.2.join t.beginStop.1).2 := by
  cases t.beginStop.1 with
  | cons task rest => exact moveEffect_beginStop active
  | nil =>
      obtain ⟨-, rests, chain, runs, tasks, dispatcher, failures⟩ := t.beginStop_spec
      have rested : t.beginStop.2.rest.failures = t.failures := (Outlet.failures_emit rfl).trans failures
      refine ⟨.begins [] active (Or.inr ⟨rfl, congrArg (· + 1) rests⟩) dispatcher rested, ?_, Or.inl ⟨chain, runs⟩⟩
      exact fun waits => Or.inl (waits.of_tasks tasks)

theorem moveEffect_stopInBackground (run : Nat) : t.MoveEffect (t.stopInBackground run) := by
  unfold stopInBackground
  split
  · cases status : t.status with
    | idle => exact NoEffect.refl.moveEffect
    | stopping => exact NoEffect.refl.moveEffect
    | starting => exact (moveEffect_beginStop (Or.inl status)).noEffect (noEffect_spawn rfl)
    | running => exact (moveEffect_beginStop (Or.inr status)).noEffect (noEffect_spawn rfl)
  · exact NoEffect.refl.moveEffect

/-- A caller that waits for a rest found the tracker stopping. -/
theorem moveEffect_enterStop (t : Tracker S) : t.MoveEffect t.enterStop.2 ∧
    ∀ {ticket : Nat}, t.enterStop.1.ticket? = some ticket → ticket = t.rests ∧ t.status = .stopping := by
  have joins (tasks : List Nat) {ticket : Nat} : (t.beginStop.2.join tasks).1.ticket? ≠ some ticket := by
    cases tasks <;> simp [join, StopPoint.ticket?]
  unfold enterStop
  cases status : t.status with
  | idle => exact ⟨NoEffect.refl.moveEffect, fun waits => by cases waits⟩
  | stopping => exact ⟨NoEffect.refl.moveEffect, fun waits => ⟨(Option.some.inj waits).symm, rfl⟩⟩
  | starting => exact ⟨moveEffect_join (Or.inl status), fun waits => (joins _ waits).elim⟩
  | running => exact ⟨moveEffect_join (Or.inr status), fun waits => (joins _ waits).elim⟩

theorem moveEffect_resumeStop? {point following : StopPoint}
    (joins : ∀ tasks, point = .joining tasks → t.status = .stopping)
    (moved : t.resumeStop? point = some (following, u)) : t.MoveEffect u ∧
      ∀ {ticket : Nat}, following.ticket? = some ticket → ticket = t.rests ∧ t.status = .stopping := by
  have joined {tasks : List Nat} (stopping : t.status = .stopping) (done : t.join tasks = (following, u)) :
      t.MoveEffect u ∧ ∀ {ticket : Nat}, following.ticket? = some ticket → ticket = t.rests ∧ t.status = .stopping := by
    cases tasks with
    | cons task rest =>
        cases done
        exact ⟨NoEffect.refl.moveEffect, fun waits => by cases waits⟩
    | nil =>
        cases done
        refine ⟨⟨.rests [] stopping rfl rfl rfl (Outlet.failures_emit rfl), ?_, Or.inl ⟨rfl, rfl⟩⟩,
          fun waits => by cases waits⟩
        exact fun waits => Or.inl (waits.of_tasks rfl)
  cases point with
  | launched =>
      have entered := t.moveEffect_enterStop
      rw [Option.some.inj moved] at entered
      exact entered
  | joining tasks =>
      have stopping := joins tasks rfl
      cases tasks with
      | nil => exact joined stopping (Option.some.inj moved)
      | cons task rest =>
          simp only [resumeStop?] at moved
          split at moved
          · exact joined stopping (Option.some.inj moved)
          · cases moved
  | awaiting ticket =>
      simp only [resumeStop?] at moved
      split at moved <;> cases moved
      exact ⟨NoEffect.refl.moveEffect, fun waits => by cases waits⟩
  | done => cases moved

/-! ## Steps of callers -/

/-- A task may move to a point where it waits for a rest only if the tracker is stopping. -/
theorem MoveEffect.put (h : t.MoveEffect u) (next : Task)
    (waits : ∀ {ticket : Nat}, next.ticket? = some ticket → ticket = t.rests ∧ t.status = .stopping) (id : Nat) :
    t.MoveEffect (u.put id next) where
  effect := h.effect.of_same rfl rfl rfl rfl
  waits here := here.of_put.elim h.waits fun new => Or.inr (waits new)
  chain := h.chain

theorem MoveEffect.putStop {point : StopPoint} (h : t.MoveEffect u)
    (waits : ∀ {ticket : Nat}, point.ticket? = some ticket → ticket = t.rests ∧ t.status = .stopping) (id : Nat) :
    t.MoveEffect (u.putStop id point) := by
  cases point with
  | done => exact h.noEffect (noEffect_finish _)
  | launched => exact h.put (.stopping .launched) waits id
  | joining tasks => exact h.put (.stopping (.joining tasks)) waits id
  | awaiting ticket => exact h.put (.stopping (.awaiting ticket)) waits id

theorem MoveEffect.putGiveUp {point : StopPoint} (h : t.MoveEffect u)
    (waits : ∀ {ticket : Nat}, point.ticket? = some ticket → ticket = t.rests ∧ t.status = .stopping) (id : Nat)
    (context : Context) (reason : GiveUp) : t.MoveEffect (u.putGiveUp id context reason point) := by
  cases point with
  | done => exact h.noEffect (noEffect_finish _)
  | launched => exact h.put (.starting context (.stopping reason .launched)) waits id
  | joining tasks => exact h.put (.starting context (.stopping reason (.joining tasks))) waits id
  | awaiting ticket => exact h.put (.starting context (.stopping reason (.awaiting ticket))) waits id

/-! ## Loops -/

theorem stopInBackground_of_active {run : Nat} (latest : t.isLatest run) (active : t.IsActive) :
    t.stopInBackground run = (t.beginStop.2.spawn (.stopping (.joining t.beginStop.1))).2 := by
  rw [stopInBackground, if_pos latest]
  rcases active with active | active <;> simp only [active]

section Loops

variable {last : UInt64} {loop : Nat}

/-- A loop that fails in a run that is not over stops it: it is the latest run, and the one that a stop
would cancel. -/
theorem moveEffect_fail (sound : t.life.Sound) (tokenInv : t.life.TokenInvariant)
    (live : t.life.roles[loop]? = some (.looping session.run)) (cause : TrackError) :
    t.MoveEffect (t.fail session cause) := by
  unfold fail
  split
  case isTrue => exact NoEffect.refl.moveEffect
  case isFalse going =>
    have going : t.isOver session.run = false := by simpa using going
    have token := sound.token_of_loop live ((t.isOver_life _).trans going)
    have active := isActive_of_token sound token
    have runs : t.life.runs.length = t.runs.length := List.length_map _
    have bound : session.run < t.runs.length := runs ▸ sound.known live
    have latest : t.isLatest session.run := by simp [isLatest, tokenInv.latest token, runs]
    dsimp only
    rw [stopInBackground_of_active (t := { t with ledger := { t.ledger with
      outlet := t.ledger.outlet.tellFailure session.run cause } }) latest active]
    refine MoveEffect.noEffect ?_ (noEffect_spawn rfl)
    obtain ⟨status, rests, chain, runs, tasks, dispatcher, failures⟩ := beginStop_spec
      { t with ledger := { t.ledger with outlet := t.ledger.outlet.tellFailure session.run cause } }
    refine ⟨.fails [] active bound going status rests dispatcher (failures.trans ?_), ?_, Or.inl ⟨chain, runs⟩⟩
    · exact List.filterMap_append ..
    · exact fun waits => Or.inl (waits.of_tasks tasks)

theorem moveEffect_failWatch (sound : t.life.Sound) (tokenInv : t.life.TokenInvariant)
    (live : t.life.roles[loop]? = some (.looping session.run)) (cause : TrackError) :
    t.MoveEffect (t.failWatch id session cause) :=
  (moveEffect_fail sound tokenInv live cause).noEffect noEffect_finishWatch

theorem moveEffect_failSweep (sound : t.life.Sound) (tokenInv : t.life.TokenInvariant)
    (live : t.life.roles[loop]? = some (.looping session.run)) (cause : TrackError) :
    t.MoveEffect (t.failSweep id session cause) :=
  (moveEffect_fail sound tokenInv live cause).noEffect (noEffect_finish _)

theorem moveEffect_putObserving (sound : t.life.Sound) (tokenInv : t.life.TokenInvariant)
    (live : t.life.roles[loop]? = some (.looping session.run)) (block : Header) (progress : Progress) :
    t.MoveEffect (t.putObserving id session block progress) := by
  cases progress with
  | waits work => exact (noEffect_put rfl).moveEffect
  | finished => exact (noEffect_afterLive block).moveEffect
  | failed e => exact moveEffect_failWatch sound tokenInv live e
  | crashed => exact noEffect_crashWatch.moveEffect

theorem moveEffect_putConfirming (sound : t.life.Sound) (tokenInv : t.life.TokenInvariant)
    (live : t.life.roles[loop]? = some (.looping session.run)) (block : Header) (progress : Progress) :
    t.MoveEffect (t.putConfirming id session block progress) := by
  cases progress with
  | waits work => exact (noEffect_put rfl).moveEffect
  | finished => exact (noEffect_put rfl).moveEffect
  | failed e => exact moveEffect_failWatch sound tokenInv live e
  | crashed => exact noEffect_crashWatch.moveEffect

theorem moveEffect_meetLive (sound : t.life.Sound) (tokenInv : t.life.TokenInvariant)
    (live : t.life.roles[loop]? = some (.looping session.run)) (block : Header) :
    t.MoveEffect (t.meetLive id session block) := by
  have met : t.NoEffect ((t.emit (.live session.run block.number)).settle session.run (.arrived block.number)) :=
    (noEffect_emit rfl).trans (noEffect_settle _ _)
  have same : ((t.emit (.live session.run block.number)).settle session.run (.arrived block.number)).life = t.life := by
    rw [life_settle, life_emit]
  rw [← same] at sound tokenInv live
  exact met.then (moveEffect_putObserving sound tokenInv live block _)

theorem moveEffect_putSweeping (sound : t.life.Sound) (tokenInv : t.life.TokenInvariant)
    (live : t.life.roles[loop]? = some (.looping session.run)) (number : UInt64) (progress : Progress) :
    t.MoveEffect (t.putSweeping id session last number progress) := by
  cases progress with
  | waits work => exact (noEffect_put rfl).moveEffect
  | finished =>
      simp only [putSweeping]
      split
      · exact (noEffect_sweepFrom last _).moveEffect
      · exact (noEffect_finish _).moveEffect
  | failed e => exact moveEffect_failSweep sound tokenInv live e
  | crashed => exact noEffect_crash.moveEffect

theorem tells_beginWork (number : UInt64) (header : Header) :
    t.ledger.outlet.Tells (t.beginWork session last number header).2.outlet := by
  unfold beginWork
  split
  · exact Work.tells_confirm _ _
  · exact .refl _

variable [BlockStore S] [HookedStore S] {answer : Answer}

theorem moveEffect_resumeWatch? {point : WatchPoint} (sound : t.life.Sound) (tokenInv : t.life.TokenInvariant)
    (live : t.life.roles[id]? = some (.looping session.run))
    (moved : t.resumeWatch? id session point answer = some u) : t.MoveEffect u := by
  unfold resumeWatch? at moved
  split at moved
  case h_1 =>
    cases moved
    exact ((noEffect_emit rfl).trans (noEffect_put rfl)).moveEffect
  case h_2 =>
    cases moved
    exact moveEffect_failWatch sound tokenInv live _
  case h_3 =>
    cases moved
    exact (noEffect_put rfl).moveEffect
  case h_4 =>
    split at moved <;> cases moved
    exact (moveEffect_stopInBackground _).noEffect noEffect_finishWatch
  case h_5 =>
    split at moved
    · cases moved
    · split at moved <;> cases moved
      · exact moveEffect_meetLive sound tokenInv live _
      · exact moveEffect_failWatch sound tokenInv live _
      · exact moveEffect_failWatch sound tokenInv live _
  case h_6 =>
    obtain ⟨⟨progress, mid⟩, worked, rfl⟩ := Option.map_eq_some_iff.mp moved
    exact MoveEffect.tell (moveEffect_putObserving (t := { t with ledger := mid }) sound tokenInv live _ progress)
      (Work.tells_resume? worked)
  case h_7 =>
    cases moved
    exact moveEffect_failWatch sound tokenInv live _
  case h_8 =>
    cases moved
    exact MoveEffect.tell
      (moveEffect_putConfirming (t := { t with ledger := (Work.confirm t.ledger _).2 }) sound tokenInv live _ _)
      (Work.tells_confirm _ _)
  case h_9 =>
    obtain ⟨⟨progress, mid⟩, worked, rfl⟩ := Option.map_eq_some_iff.mp moved
    exact MoveEffect.tell (moveEffect_putConfirming (t := { t with ledger := mid }) sound tokenInv live _ progress)
      (Work.tells_resume? worked)
  case h_10 => cases moved

theorem moveEffect_resumeSweep? {point : SweepPoint} (sound : t.life.Sound) (tokenInv : t.life.TokenInvariant)
    (live : t.life.roles[id]? = some (.looping session.run))
    (moved : t.resumeSweep? id session last point answer = some u) : t.MoveEffect u := by
  unfold resumeSweep? at moved
  split at moved
  case h_1 =>
    cases moved
    exact (noEffect_beginSweep last _).moveEffect
  case h_2 =>
    cases moved
    exact moveEffect_failSweep sound tokenInv live _
  case h_3 =>
    cases moved
    exact MoveEffect.tell
      (moveEffect_putSweeping (t := { t with ledger := (t.beginWork session last _ _).2 }) sound tokenInv live _ _)
      (tells_beginWork _ _)
  case h_4 =>
    obtain ⟨⟨progress, mid⟩, worked, rfl⟩ := Option.map_eq_some_iff.mp moved
    exact MoveEffect.tell (moveEffect_putSweeping (t := { t with ledger := mid }) sound tokenInv live _ progress)
      (Work.tells_resume? worked)
  case h_5 => cases moved

end Loops

/-! ## Starts -/

section Starts

variable {context : Context} {answer : Answer}

theorem moveEffect_status (status : Status) (before : t.status ≠ .stopping) (after : status ≠ .stopping) :
    t.MoveEffect { t with status } :=
  ⟨.goes [] (Or.inr ⟨before, after⟩) rfl rfl rfl, fun waits => Or.inl (waits.of_tasks rfl), Or.inl ⟨rfl, rfl⟩⟩

theorem moveEffect_abandonStart (sound : t.life.Sound) (held : t.life.roles[id]? = some .undecided)
    (cause : TrackError) : t.MoveEffect (t.abandonStart id cause) := by
  have before : t.status ≠ .stopping := by
    intro stopping
    rcases (sound.undecided held).2.2.1 with early | early <;> cases stopping.symm.trans early
  exact (moveEffect_status .idle before (by simp)).noEffect (noEffect_finish _)

theorem moveEffect_launch (chain height : UInt64) : t.MoveEffect (t.launch id context chain height) := by
  unfold launch
  split
  case isFalse => exact (noEffect_finish _).moveEffect
  case isTrue starting =>
    have launched (run : Run) (session : Session) : t.MoveEffect { (t.spawn (.watching session .launched)).2 with
        chain := some chain, threshold := some session.threshold, token := some session.run,
        loops := t.loops ++ [t.tasks.length], runs := t.runs ++ [run] } :=
      ⟨.goes [] (Or.inl rfl) rfl rfl (Outlet.failures_emit rfl), fun waits => Or.inl (Waits.of_spawn waits rfl),
        Or.inr ⟨by simp, by simp⟩⟩
    exact (launched _ _).noEffect (noEffect_put rfl)

theorem moveEffect_launchSweep (lowest first : UInt64) : t.MoveEffect (t.launchSweep id session lowest first) := by
  unfold launchSweep
  split
  case isFalse => exact (noEffect_finish _).moveEffect
  case isTrue ready =>
    have launched : t.MoveEffect { (t.spawn (.sweeping session (lastBefore first) (.launched lowest))).2 with
        status := .running, loops := t.loops ++ [t.tasks.length] } :=
      ⟨.goes [] (Or.inr ⟨by simp [ready.1], by simp⟩) rfl rfl (Outlet.failures_emit rfl),
        fun waits => Or.inl (Waits.of_spawn waits rfl), Or.inl ⟨rfl, rfl⟩⟩
    exact launched.noEffect (noEffect_finish _)

theorem moveEffect_giveUp (reason : GiveUp) : t.MoveEffect (t.giveUp id context reason) := by
  obtain ⟨moveEffect, waits⟩ := t.moveEffect_enterStop
  exact moveEffect.putGiveUp waits id context reason

variable [BlockStore S]

theorem moveEffect_resumeStart? {point : StartPoint} (sound : t.life.Sound)
    (found : t.tasks[id]? = some (.starting context point))
    (moved : t.resumeStart? id context point answer = some u) : t.MoveEffect u := by
  have held : t.life.roles[id]? = some (Task.starting context point).role := by rw [life_roles, found]; rfl
  unfold resumeStart? at moved
  split at moved
  case h_1 =>
    split at moved <;> cases moved
    · rename_i idle
      exact (moveEffect_status .starting (by simp [idle]) (by simp)).noEffect
        ((noEffect_emit rfl).trans (noEffect_put rfl))
    · exact (noEffect_finish _).moveEffect
  case h_2 =>
    cases moved
    exact moveEffect_abandonStart sound held _
  case h_3 =>
    cases moved
    exact (noEffect_put rfl).moveEffect
  case h_4 =>
    split at moved <;> cases moved
    · exact moveEffect_abandonStart sound held _
    · exact moveEffect_launch _ _
  case h_5 =>
    split at moved
    · cases moved
      exact moveEffect_launchSweep _ _
    · cases moved
      exact moveEffect_giveUp _
    · split at moved <;> cases moved
      exact moveEffect_giveUp _
  case h_6 point =>
    obtain ⟨⟨following, v⟩, stopped, rfl⟩ := Option.map_eq_some_iff.mp moved
    obtain ⟨moveEffect, waits⟩ := moveEffect_resumeStop? (fun tasks joins => (sound.joining (joins ▸ held)).1) stopped
    exact moveEffect.putGiveUp waits id context _
  case h_7 => cases moved

end Starts

/-! ## Moves -/

variable [BlockStore S] [HookedStore S] {m : Move}

/-- Every move has a `MoveEffect`; owners change only what is queued and for whom. -/
theorem moveEffect_move? (sound : t.life.Sound) (tokenInv : t.life.TokenInvariant) (moved : t.move? m = some u) :
    t.MoveEffect u ∨ ∃ dispatcher, m = .resubscribe dispatcher := by
  cases m with
  | start context =>
      cases moved
      exact Or.inl (noEffect_spawn rfl).moveEffect
  | stop =>
      cases moved
      exact Or.inl (noEffect_spawn rfl).moveEffect
  | cancel context =>
      cases moved
      exact Or.inl ⟨.goes [] (Or.inl rfl) rfl rfl (Outlet.failures_emit rfl), fun waits => Or.inl (waits.of_tasks rfl),
        Or.inl ⟨rfl, rfl⟩⟩
  | setHeight height =>
      cases moved
      unfold setHeight
      split
      · exact Or.inl NoEffect.refl.moveEffect
      · exact Or.inl (NoEffect.moveEffect ⟨rfl, rfl, rfl, rfl, rfl, rfl, rfl, fun waits => waits.of_tasks rfl⟩)
  | resubscribe dispatcher => exact Or.inr ⟨dispatcher, rfl⟩
  | resume id answer =>
      left
      simp only [Tracker.move?] at moved
      unfold resume? at moved
      have held {task : Task} (found : t.tasks[id]? = some task) : t.life.roles[id]? = some task.role := by
        rw [life_roles, found]
        rfl
      split at moved
      · rename_i found
        exact moveEffect_resumeStart? sound found moved
      · rename_i point found
        obtain ⟨⟨following, v⟩, stopped, rfl⟩ := Option.map_eq_some_iff.mp moved
        obtain ⟨moveEffect, waits⟩ :=
          moveEffect_resumeStop? (fun tasks joins => (sound.joining (joins ▸ held found)).1) stopped
        exact moveEffect.putStop waits id
      · rename_i found
        exact moveEffect_resumeWatch? sound tokenInv (held found) moved
      · rename_i found
        exact moveEffect_resumeSweep? sound tokenInv (held found) moved
      · cases moved

end Tracker

end Chainwatch
