import Chainwatch.Proofs.Tracker.StatusChanges

/-!
# Stops that end in order

For any number of callers of stop, and whatever fails or is cancelled meanwhile: a stop that begins closes
every subscription, one task waits for the loops, the tracker rests when they have ended, and every task
that waits for that is woken.
-/

namespace Chainwatch

/-! ## Closed registries -/

/-- No mailbox is registered, and those that were have both queues closed. -/
structure Registry.Closes {α : Type} (d after : Registry α) : Prop where
  left : after.registered = []
  closed : ∀ m ∈ d.registered, ∃ n ∈ after.retired, n.id = m.id ∧ n.notices.closed ∧ n.errors.closed

theorem Registry.closes_clear {α : Type} {d e : Registry α} (same : e.registered.map (·.id) = d.registered.map (·.id)) :
    d.Closes e.clear.2 where
  left := rfl
  closed m mem := by
    have held : m.id ∈ e.registered.map (·.id) := same ▸ List.mem_map_of_mem mem
    obtain ⟨n, mem, own⟩ := List.mem_map.mp held
    exact ⟨n.close, List.mem_append_right _ (List.mem_map_of_mem mem), own, rfl, rfl⟩

namespace Dispatcher

variable {d : Dispatcher}

/-- No subscription is registered, and those that were have their queues closed. -/
structure Closes (d after : Dispatcher) : Prop where
  heads : d.heads.Closes after.heads
  events : d.events.Closes after.events

theorem ids_deliverAll (d : Dispatcher) (deliveries : List Delivery) :
    (deliveries.foldl deliver d).heads.registered.map (·.id) = d.heads.registered.map (·.id) ∧
      (deliveries.foldl deliver d).events.registered.map (·.id) = d.events.registered.map (·.id) := by
  induction deliveries generalizing d with
  | nil => exact ⟨rfl, rfl⟩
  | cons delivery deliveries ih =>
      obtain ⟨heads, events⟩ := ih (d.deliver delivery)
      rw [List.foldl_cons, heads, events]
      rcases delivery with (head | event) | cause
      · simp [deliver, dispatchHead, Registry.forAll]
      · simp [deliver, dispatchEvent, Registry.forAll, apply_ite Mailbox.id]
      · simp [deliver, broadcast, Registry.forAll, Mailbox.signal]

/-- Closing after any deliveries closes everything that was registered. -/
theorem closes_closeAll (d : Dispatcher) (deliveries : List Delivery) :
    d.Closes (deliveries.foldl deliver d).closeAll.2 := by
  obtain ⟨heads, events⟩ := d.ids_deliverAll deliveries
  exact ⟨Registry.closes_clear heads, Registry.closes_clear events⟩

theorem closes_broadcast (d : Dispatcher) (notices : List Notice) (cause : TrackError) :
    d.Closes ((d.tell notices).broadcast cause).closeAll.2 := by
  have handed := d.closes_closeAll (notices.map .notice ++ [.failure cause])
  rw [List.foldl_append] at handed
  exact handed

end Dispatcher

/-! ## Callers that return -/

/-- A caller of stop that found the tracker not at rest, after `since` rests, returns only after
the next one. -/
def StopPoint.Since (since rests : Nat) : StopPoint → Prop
  | .launched => False
  | .joining _ => since ≤ rests
  | .awaiting ticket => since ≤ ticket
  | .done => since < rests

theorem StopPoint.Since.le {since rests more : Nat} {point : StopPoint} (h : point.Since since rests)
    (le : rests ≤ more) : point.Since since more := by
  cases point with
  | launched => exact h
  | joining tasks => exact Nat.le_trans h le
  | awaiting ticket => exact h
  | done => exact Nat.lt_of_lt_of_le h le

/-- The point of a caller of stop that may have returned. -/
def Task.stopPoint? : Task → Option StopPoint
  | .starting _ (.stopping _ point) | .stopping point => some point
  | .ended _ => some .done
  | _ => none

namespace Tracker

variable {S : Type} {t u : Tracker S} {id since : Nat} {point next : StopPoint}

/-- The task is a caller of stop that found the tracker not at rest after `since` rests. -/
def StopsSince (t : Tracker S) (id since : Nat) : Prop :=
  ∃ task point, t.tasks[id]? = some task ∧ task.stopPoint? = some point ∧ point.Since since t.rests

theorem StopsSince.rested (h : t.StopsSince id since) (ended : t.hasEnded id) : since < t.rests := by
  obtain ⟨task, point, found, stands, waits⟩ := h
  unfold hasEnded at ended
  rw [found] at ended
  cases task with
  | ended outcome =>
      cases stands
      exact waits
  | crashed => cases stands
  | _ => cases ended

theorem since_join (le : since ≤ t.rests) (tasks : List Nat) :
    (t.join tasks).1.Since since (t.join tasks).2.rests := by
  cases tasks with
  | nil => exact Nat.lt_succ_of_le le
  | cons task rest => exact le

theorem since_enterStop (busy : t.status ≠ .idle) : t.enterStop.1.Since t.rests t.enterStop.2.rests := by
  have rests := t.beginStop_spec.2.1
  unfold enterStop
  cases status : t.status with
  | idle => exact (busy status).elim
  | stopping => exact Nat.le_refl _
  | starting => exact since_join (Nat.le_of_eq rests.symm) _
  | running => exact since_join (Nat.le_of_eq rests.symm) _

theorem since_resumeStop? (waits : point.Since since t.rests) (moved : t.resumeStop? point = some (next, u)) :
    next.Since since u.rests := by
  have joined {tasks : List Nat} (le : since ≤ t.rests) (done : t.join tasks = (next, u)) :
      next.Since since u.rests := by
    have since := since_join le tasks
    rwa [done] at since
  cases point with
  | launched => exact waits.elim
  | joining tasks =>
      cases tasks with
      | nil => exact joined waits (Option.some.inj moved)
      | cons task rest =>
          simp only [resumeStop?] at moved
          split at moved
          · exact joined waits (Option.some.inj moved)
          · cases moved
  | awaiting ticket =>
      simp only [resumeStop?] at moved
      split at moved <;> cases moved
      exact Nat.lt_of_le_of_lt waits (by assumption)
  | done => cases moved

theorem stopsSince_putStop {task : Task} (found : u.tasks[id]? = some task) (waits : point.Since since u.rests) :
    (u.putStop id point).StopsSince id since := by
  cases point with
  | done => exact ⟨_, .done, getElem?_tasks_put found, rfl, waits⟩
  | launched => exact waits.elim
  | joining tasks => exact ⟨_, _, getElem?_tasks_put found, rfl, waits⟩
  | awaiting ticket => exact ⟨_, _, getElem?_tasks_put found, rfl, waits⟩

theorem stopsSince_putGiveUp {task : Task} (found : u.tasks[id]? = some task) (waits : point.Since since u.rests)
    (context : Context) (reason : GiveUp) : (u.putGiveUp id context reason point).StopsSince id since := by
  cases point with
  | done => exact ⟨_, .done, getElem?_tasks_put found, rfl, waits⟩
  | launched => exact waits.elim
  | joining tasks => exact ⟨_, _, getElem?_tasks_put found, rfl, waits⟩
  | awaiting ticket => exact ⟨_, _, getElem?_tasks_put found, rfl, waits⟩

/-! ## Stops that begin -/

/-- A stop begins, and may be complete at once. -/
def BeginsStop (t u : Tracker S) : Prop :=
  t.IsActive ∧ (u.status = .stopping ∨ t.rests < u.rests)

/-- The task waits for the loops of a run to end. -/
def Joins (t : Tracker S) (id : Nat) (tasks : List Nat) : Prop :=
  t.life.roles[id]? = some (.joining tasks)

theorem not_stopping_of_active (active : t.IsActive) : t.status ≠ .stopping := by
  rcases active with active | active <;> simp [active]

theorem StatusEffect.rests_le (h : t.StatusEffect u) : t.rests ≤ u.rests := by
  cases h with
  | goes _ _ rested => exact Nat.le_of_eq rested.symm
  | begins _ _ ending =>
      rcases ending with ⟨-, rested⟩ | ⟨-, rested⟩
      · exact Nat.le_of_eq rested.symm
      · exact rested ▸ Nat.le_succ _
  | fails _ _ _ _ _ rested => exact Nat.le_of_eq rested.symm
  | rests _ _ _ rested => exact rested ▸ Nat.le_succ _

theorem StatusEffect.stopping_or_rests_lt (h : t.StatusEffect u) (stopping : t.status = .stopping) :
    u.status = .stopping ∧ u.rests = t.rests ∨ t.rests < u.rests := by
  cases h with
  | goes _ going rested =>
      refine Or.inl ⟨?_, rested⟩
      rcases going with same | ⟨other, -⟩
      · exact same.trans stopping
      · exact (other stopping).elim
  | begins _ active => exact (not_stopping_of_active active stopping).elim
  | fails _ active => exact (not_stopping_of_active active stopping).elim
  | rests _ _ _ rested => exact Or.inr (rested ▸ Nat.lt_succ_self _)

theorem StatusEffect.closes (h : t.StatusEffect u) (begins : t.BeginsStop u) : t.dispatcher.Closes u.dispatcher := by
  obtain ⟨active, ending⟩ := begins
  cases h with
  | goes _ going rested =>
      have other : u.status ≠ .stopping := by
        rcases going with same | ⟨-, other⟩
        · exact same ▸ not_stopping_of_active active
        · exact other
      rcases ending with stopping | rested'
      · exact (other stopping).elim
      · exact (Nat.lt_irrefl _ (rested ▸ rested')).elim
  | begins notices _ _ told => exact told ▸ t.dispatcher.closes_closeAll (notices.map .notice)
  | fails notices _ _ _ _ _ told => exact told ▸ t.dispatcher.closes_broadcast notices _
  | rests _ stopping => exact (not_stopping_of_active active stopping).elim

/-- A task that waits for a rest will be woken by one, and the chain is known once a run is launched. -/
structure StopInvariant (t : Tracker S) : Prop where
  sound : t.life.Sound
  tokenInv : t.life.TokenInvariant
  waits : ∀ {id ticket : Nat}, t.Waits id ticket → ticket = t.rests ∧ t.status = .stopping ∨ ticket < t.rests
  chain : t.chain ≠ none ↔ t.runs ≠ []

theorem stopInvariant_make (settings : TrackerSettings) (store : S) : (make settings store).StopInvariant where
  sound := Life.sound_make
  tokenInv := Life.tokenInvariant_make
  waits {id ticket} waits := by
    obtain ⟨task, found, -⟩ := waits
    cases found
  chain := by simp [make]

/-! ## Steps of callers -/

variable [BlockStore S]

/-- A caller of stop looks at the status: one that called stop, or a start that gives up its run. -/
def EntersStop (t : Tracker S) (id : Nat) (u : Tracker S) : Prop :=
  t.resume? id .go = some u ∧
    (t.tasks[id]? = some (.stopping .launched) ∨
      ∃ context session lowest, t.tasks[id]? = some (.starting context (.awaitingFirst session lowest)) ∧
        ∀ number, t.first session.run ≠ .arrived number)

theorem EntersStop.stopsSince (h : t.EntersStop id u) (busy : t.status ≠ .idle) : u.StopsSince id t.rests := by
  obtain ⟨moved, called | ⟨context, session, lowest, given, unmet⟩⟩ := h
  · simp only [resume?, called, resumeStop?, Option.map_some, Option.some.injEq] at moved
    rw [← moved]
    exact stopsSince_putStop (noRunStep_enterStop.1.kept called) (since_enterStop busy)
  · have gaveUp (reason : GiveUp) : (t.giveUp id context reason).StopsSince id t.rests :=
      stopsSince_putGiveUp (noRunStep_enterStop.1.kept given) (since_enterStop busy) context reason
    simp only [resume?, given, resumeStart?] at moved
    split at moved
    · rename_i met
      exact (unmet _ met).elim
    · cases moved
      exact gaveUp _
    · split at moved <;> cases moved
      exact gaveUp _

/-- A caller of stop stays one, and stays returned once it has. -/
theorem StopsSince.move? (h : t.StopsSince id since) {m : Move} (le : t.rests ≤ u.rests) (moved : t.move? m = some u) :
    u.StopsSince id since := by
  obtain ⟨task, point, found, stands, waits⟩ := h
  have kept (found : u.tasks[id]? = some task) : u.StopsSince id since := ⟨task, point, found, stands, waits.le le⟩
  rcases takesStep_or_spawnsTasks_of_move? moved with ⟨other, answer, _, rfl, -, _, _, _, -, stepsTo⟩ |
    ⟨new, spawnsTasks, -⟩
  · by_cases differ : id = other
    · subst differ
      simp only [Tracker.move?, resume?, found] at moved
      cases task with
      | starting context start =>
          cases start with
          | stopping reason place =>
              cases stands
              cases answer <;> try cases moved
              obtain ⟨⟨next, v⟩, stopped, rfl⟩ := Option.map_eq_some_iff.mp moved
              exact stopsSince_putGiveUp ((noRunStep_resumeStop? stopped).kept found)
                (since_resumeStop? waits stopped) _ _
          | _ => cases stands
      | stopping place =>
          cases stands
          cases answer <;> try cases moved
          obtain ⟨⟨next, v⟩, stopped, rfl⟩ := Option.map_eq_some_iff.mp moved
          exact stopsSince_putStop ((noRunStep_resumeStop? stopped).kept found) (since_resumeStop? waits stopped)
      | ended outcome => cases moved
      | watching session place => cases stands
      | sweeping session last place => cases stands
      | crashed => cases stands
    · exact kept (stepsTo.kept differ found)
  · obtain ⟨behind, tasks⟩ := spawnsTasks.tasks
    refine kept ?_
    rw [tasks]
    exact found_append (found_append found new) _

/-- A task that waits for a rest that has come returns when resumed. -/
theorem Waits.returns {ticket : Nat} (h : t.Waits id ticket) (rested : ticket < t.rests) :
    ∃ u, t.resume? id .go = some u ∧ u.hasEnded id := by
  obtain ⟨task, found, waits⟩ := h
  have ended (outcome : Except TrackError Unit) : (t.finish id outcome).hasEnded id := by
    have here : (t.finish id outcome).tasks[id]? = some (.ended outcome) := getElem?_tasks_put found
    rw [hasEnded, here]
  cases task with
  | starting context start =>
      cases start with
      | stopping reason point =>
          cases point <;> cases waits
          have moved : t.resume? id .go = some (t.finish id (.error (t.giveUpError context reason))) := by
            simp only [resume?, found, resumeStart?, resumeStop?, if_pos rested, Option.map_some, putGiveUp]
          exact ⟨_, moved, ended _⟩
      | _ => cases waits
  | stopping point =>
      cases point <;> cases waits
      have moved : t.resume? id .go = some (t.finish id (.ok ())) := by
        simp only [resume?, found, resumeStop?, if_pos rested, Option.map_some, putStop]
      exact ⟨_, moved, ended _⟩
  | _ => cases waits

/-! ## Trackers at rest or about to be -/

/-- A live loop of a run that is over was one when the run ended. -/
theorem StopInvariant.loopIsLive_of_over (h : t.StopInvariant) {run loop : Nat} (bound : run < t.runs.length)
    (still : t.status = .idle ∨ t.status = .stopping) (later : Reaches Orderly t u) (live : u.LoopIsLive loop run) :
    t.LoopIsLive loop run := by
  have halted := isOver_resting h.sound bound still
  rw [← isOver_life] at halted
  have known : run < t.life.runs.length := by simpa [life] using bound
  exact loopIsLive_iff.mpr ((steps_of_reaches later).loop_of_over known halted (role_of_loopIsLive live))

theorem resume?_stop_of_idle (idle : t.status = .idle) (called : t.tasks[id]? = some (.stopping .launched)) :
    t.resume? id .go = some (t.finish id (.ok ())) := by
  simp [resume?, called, resumeStop?, enterStop, idle, putStop]

theorem resume?_start_of_idle {context : Context} (idle : t.status = .idle)
    (called : t.tasks[id]? = some (.starting context .launched)) :
    ∃ u, t.resume? id .go = some u ∧ u.status = .starting ∧ u.tasks[id]? = some (.starting context .askingChain) := by
  have claimed : t.resume? id .go = some ((Tracker.emit { t with status := .starting } (.asked .chainId)).put id
      (.starting context .askingChain)) := by
    simp only [resume?, called, resumeStart?, if_pos idle]
  exact ⟨_, claimed, rfl, getElem?_tasks_put (t := Tracker.emit { t with status := .starting } _) called⟩

/-! ## Histories -/

variable [HookedStore S] {m : Move}

theorem StopInvariant.rests_le (h : t.StopInvariant) (moved : t.move? m = some u) : t.rests ≤ u.rests := by
  rcases moveEffect_move? h.sound h.tokenInv moved with moveEffect | ⟨dispatcher, rfl⟩
  · exact moveEffect.effect.rests_le
  · cases moved
    exact Nat.le_refl _

theorem StopInvariant.move? (h : t.StopInvariant) (orderly : t.Orderly m) (moved : t.move? m = some u) :
    u.StopInvariant := by
  have steps := steps_move? orderly moved
  refine ⟨h.sound.steps steps, h.tokenInv.steps steps, ?_, ?_⟩
  · intro id ticket waits
    rcases moveEffect_move? h.sound h.tokenInv moved with moveEffect | ⟨dispatcher, rfl⟩
    · have effect := moveEffect.effect
      have before : ticket = t.rests ∧ t.status = .stopping ∨ ticket < t.rests :=
        (moveEffect.waits waits).elim h.waits Or.inl
      rcases before with ⟨rfl, stopping⟩ | seen
      · exact (effect.stopping_or_rests_lt stopping).imp_left fun still => ⟨still.2.symm, still.1⟩
      · exact Or.inr (Nat.lt_of_lt_of_le seen effect.rests_le)
    · cases moved
      exact h.waits (waits.of_tasks rfl)
  · rcases moveEffect_move? h.sound h.tokenInv moved with moveEffect | ⟨dispatcher, rfl⟩
    · rcases moveEffect.chain with ⟨chain, runs⟩ | ⟨chain, runs⟩
      · rw [chain, h.chain, ← List.length_pos_iff, ← List.length_pos_iff, runs]
      · exact ⟨fun _ => runs, fun _ => chain⟩
    · cases moved
      exact h.chain

theorem stopInvariant_of_orderly {settings : TrackerSettings} {store : S}
    (history : Reaches Orderly (make settings store) t) : t.StopInvariant :=
  history.invariant (stopInvariant_make settings store) StopInvariant.move?

theorem StopInvariant.reaches (h : t.StopInvariant) (later : Reaches Orderly t u) : u.StopInvariant :=
  later.invariant h StopInvariant.move?

theorem StopsSince.reaches (h : t.StopsSince id since) (stopInv : t.StopInvariant) (later : Reaches Orderly t u) :
    u.StopsSince id since := by
  refine (later.invariant (P := fun t => t.StopsSince id since ∧ t.StopInvariant) ⟨h, stopInv⟩ ?_).1
  intro v w m ih orderly moved
  exact ⟨ih.1.move? (ih.2.rests_le moved) moved, ih.2.move? orderly moved⟩

/-- Once a run was launched the chain stays known. -/
theorem StopInvariant.chain_reaches (h : t.StopInvariant) (known : t.chain ≠ none) (later : Reaches Orderly t u) :
    u.chain ≠ none := by
  have launched := List.length_pos_iff.mpr (h.chain.mp known)
  have more := (steps_of_reaches later).precedes.length
  simp only [life, List.length_map] at more
  exact (h.reaches later).chain.mpr (List.length_pos_iff.mp (Nat.lt_of_lt_of_le launched more))

/-- Stops in order. A stop closes every registered subscription with both queues; while the tracker is
stopping one task waits for all live loops, and otherwise none does; the tracker rests only when every
loop has ended; no loop is added to a run that is stopped; a caller of stop returns after the tracker
has rested, and every caller that waits for a rest is woken by one; a stop at rest only returns, a start
at rest is accepted, and once the chain is known the height is fixed. -/
structure StopsInOrder (t : Tracker S) : Prop where
  closes : ∀ {m : Move} {u : Tracker S}, t.move? m = some u → t.BeginsStop u → t.dispatcher.Closes u.dispatcher
  taken : t.status = .stopping → t.loops = [] ∧ ∃ id tasks, t.Joins id tasks ∧
    (∀ {other : Nat} {more : List Nat}, t.Joins other more → other = id) ∧
    ∀ {loop run : Nat}, t.LoopIsLive loop run → loop ∈ tasks
  untaken : t.status ≠ .stopping → ∀ {id : Nat} {tasks : List Nat}, ¬t.Joins id tasks
  rested : t.status = .idle → ∀ {loop run : Nat}, ¬t.LoopIsLive loop run
  sealed : t.status = .stopping → ∀ {run : Nat}, run < t.runs.length → ∀ {u : Tracker S}, Reaches Orderly t u →
    ∀ {loop : Nat}, u.LoopIsLive loop run → t.LoopIsLive loop run
  returns : ∀ {id : Nat} {u : Tracker S}, t.EntersStop id u → t.status ≠ .idle → ∀ {v : Tracker S},
    Reaches Orderly u v → v.hasEnded id → t.rests < v.rests
  woken : ∀ {id ticket : Nat}, t.Waits id ticket → ticket = t.rests ∧ t.status = .stopping ∨
    ∃ u, t.resume? id .go = some u ∧ u.hasEnded id
  nothing : t.status = .idle → ∀ {id : Nat}, t.tasks[id]? = some (.stopping .launched) →
    t.resume? id .go = some (t.finish id (.ok ()))
  again : t.status = .idle → ∀ {id : Nat} {context : Context}, t.tasks[id]? = some (.starting context .launched) →
    ∃ u, t.resume? id .go = some u ∧ u.status = .starting ∧ u.tasks[id]? = some (.starting context .askingChain)
  locked : t.chain ≠ none → ∀ {u : Tracker S}, Reaches Orderly t u → ∀ height : UInt64,
    ∃ chain, u.setHeight height = (.error (.heightLocked chain), u)

theorem stopsInOrder_of_orderly {settings : TrackerSettings} {store : S}
    (history : Reaches Orderly (make settings store) t) : t.StopsInOrder := by
  have stopInv := stopInvariant_of_orderly history
  have sound := stopInv.sound
  constructor
  case closes =>
    intro m u moved begins
    rcases moveEffect_move? sound stopInv.tokenInv moved with moveEffect | ⟨dispatcher, rfl⟩
    · exact moveEffect.effect.closes begins
    · cases moved
      obtain ⟨active, stopping | rested⟩ := begins
      · exact (not_stopping_of_active active stopping).elim
      · exact (Nat.lt_irrefl _ rested).elim
  case taken =>
    intro stopping
    obtain ⟨id, tasks, joins⟩ := stopInv.tokenInv.joined stopping
    exact ⟨(sound.resting (Or.inr stopping)).2, id, tasks, joins, fun other => sound.joiner other joins,
      fun live => (sound.joining joins).2 (role_of_loopIsLive live)⟩
  case untaken => exact fun active id tasks joins => active (sound.joining joins).1
  case rested => exact fun idle loop run live => sound.idle idle (role_of_loopIsLive live)
  case sealed =>
    exact fun stopping run bound u later loop live => stopInv.loopIsLive_of_over bound (Or.inr stopping) later live
  case returns =>
    intro id u enters busy v later ended
    have entered : u.StopInvariant := stopInv.move? (m := .resume id .go) ?_ enters.1
    · exact ((enters.stopsSince busy).reaches entered later).rested ended
    · exact fun _ idle => (busy idle).elim
  case woken => exact fun waits => (stopInv.waits waits).imp_right waits.returns
  case nothing => exact fun idle => resume?_stop_of_idle idle
  case again => exact fun idle => resume?_start_of_idle idle
  case locked =>
    intro known u later height
    obtain ⟨chain, known⟩ := Option.ne_none_iff_exists'.mp (stopInv.chain_reaches known later)
    exact ⟨chain, by simp [setHeight, known]⟩

/-- One caller of stop waits for the watch of a run, and another for the first caller. -/
def stoppedMoves : List Move :=
  [.start "plain", .resume 0 .go, .resume 0 (.chain (.ok 1)), .resume 0 (.stored none), .resume 1 .go,
    .resume 1 (.subscribed (.ok ())), .stop, .stop, .resume 2 .go, .resume 3 .go]

theorem stopsInOrder_of_orderly_two_callers : ∃ t : Tracker NestedStore,
    (make {} NestedStore.empty).trial? isOrderly stoppedMoves = some t ∧ t.status = .stopping ∧ t.Joins 2 [1] ∧
      t.Waits 3 0 ∧ t.StopsInOrder := by
  have shape : ((make {} NestedStore.empty).trial? isOrderly stoppedMoves).map (fun t =>
      (t.status, t.life.roles[2]?, t.tasks[3]?.bind Task.ticket?)) = some (.stopping, some (.joining [1]), some 0) := by
    decide +kernel
  obtain ⟨t, tried, at_end⟩ := Option.map_eq_some_iff.mp shape
  simp only [Prod.mk.injEq] at at_end
  obtain ⟨stopping, joins, waits⟩ := at_end
  exact ⟨t, tried, stopping, joins, Option.bind_eq_some_iff.mp waits,
    stopsInOrder_of_orderly (reaches_of_trial? orderly_of_isOrderly tried)⟩

end Tracker

end Chainwatch
