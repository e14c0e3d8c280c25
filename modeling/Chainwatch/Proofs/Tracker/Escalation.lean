import Chainwatch.Proofs.Dispatcher.Failures
import Chainwatch.Proofs.Tracker.Stopping

/-!
# Failures that end a run

Whatever fails in the node or the store, and in whichever loop: at most one failure is reported for each
run. The move that reports it ends the run and closes every subscription, so that the other loop has no
subscriber left.
-/

namespace Chainwatch

open Dispatcher (Operation)

/-- With this step every address subscriber gets the failure after what was queued, which holds none, if
there is room. -/
def Subscription.GetsFailure (s : Subscription) (cause : TrackError) (d after : Dispatcher) : Prop :=
  ∃ earlier, (s.drain d).2.1 <+: earlier ∧ (∀ other, .unrecoverable other ∉ earlier) ∧
    (s.drain after).2.1 = earlier ++ if earlier.length < max d.errorCapacity 1 then [.unrecoverable cause] else []

namespace Tracker

variable {S : Type} {t u v : Tracker S} {run : Nat} {cause : TrackError}

/-! ## Failing moves -/

/-- A move that reports the failure of a run that is not over. -/
structure Fails (t u : Tracker S) (run : Nat) (cause : TrackError) : Prop where
  active : t.IsActive
  bound : run < t.runs.length
  live : t.isOver run = false
  stopping : u.status = .stopping
  told : ∃ notices, u.dispatcher = ((t.dispatcher.tell notices).broadcast cause).closeAll.2
  failures : u.failures = t.failures ++ [(run, cause)]

theorem StatusEffect.fails_or (h : t.StatusEffect u) : u.failures = t.failures ∨ ∃ run cause, t.Fails u run cause := by
  cases h with
  | goes _ _ _ _ kept => exact Or.inl kept
  | begins _ _ _ _ kept => exact Or.inl kept
  | rests _ _ _ _ _ kept => exact Or.inl kept
  | fails notices active bound live stopping _ told kept =>
      exact Or.inr ⟨_, _, active, bound, live, stopping, ⟨notices, told⟩, kept⟩

theorem StatusEffect.noFailureTold (h : t.StatusEffect u) (noFailureTold : t.dispatcher.NoFailureTold) :
    u.dispatcher.NoFailureTold := by
  cases h with
  | goes notices _ _ told => exact told ▸ (noFailureTold.tell notices).1
  | begins notices _ _ told =>
      have closed : ((t.dispatcher.tell notices).perform .closeAll).NoFailureTold :=
        (noFailureTold.tell notices).1.perform rfl
      exact told ▸ closed
  | rests notices _ _ _ told => exact told ▸ (noFailureTold.tell notices).1
  | fails notices _ _ _ _ _ told => exact told ▸ ((noFailureTold.tell notices).1.escalate _).1

/-- The effect of a move on the subscribers is that of operations of the dispatcher. -/
theorem StatusEffect.operations (h : t.StatusEffect u) :
    ∃ operations, u.dispatcher = t.dispatcher.performAll operations := by
  have told (notices : List Notice) (more : List Operation) : (t.dispatcher.tell notices).performAll more =
      t.dispatcher.performAll (notices.map Dispatcher.noticeOperation ++ more) := by
    rw [Dispatcher.tell_eq_performAll, ← Dispatcher.performAll_append]
  cases h with
  | goes notices _ _ heard => exact ⟨_, heard.trans (told notices [])⟩
  | begins notices _ _ heard => exact ⟨_, heard.trans (told notices [.closeAll])⟩
  | rests notices _ _ _ heard => exact ⟨_, heard.trans (told notices [])⟩
  | fails notices _ _ _ _ _ heard => exact ⟨_, heard.trans (told notices [.broadcast _, .closeAll])⟩

theorem Fails.closes (h : t.Fails u run cause) : t.dispatcher.Closes u.dispatcher := by
  obtain ⟨notices, told⟩ := h.told
  exact told ▸ t.dispatcher.closes_broadcast notices cause

theorem Fails.getsFailure (h : t.Fails u run cause) (noFailureTold : t.dispatcher.NoFailureTold) {s : Subscription}
    (events : s.interest = .events) (live : (s.slot t.dispatcher).isLive) :
    s.GetsFailure cause t.dispatcher u.dispatcher := by
  obtain ⟨notices, told⟩ := h.told
  obtain ⟨untold, heard⟩ := noFailureTold.tell notices
  obtain ⟨same, grown⟩ := heard s
  have errors := ((untold.escalate cause).2 s).2 (same.trans live) events
  have capacity : (t.dispatcher.tell notices).errorCapacity = t.dispatcher.errorCapacity :=
    (t.dispatcher.capacities_deliverAll _).2
  refine ⟨(s.slot (t.dispatcher.tell notices)).errors, ?_, untold.noFailureQueued_live (same.trans live), ?_⟩
  · rw [(s.drain_eq t.dispatcher).2]
    exact grown
  · rw [(s.drain_eq u.dispatcher).2, told, ← capacity]
    exact errors

theorem Fails.ended (h : t.Fails u run cause) (noFailureTold : t.dispatcher.NoFailureTold) (s : Subscription) :
    (s.slot u.dispatcher).isLive = false := by
  obtain ⟨notices, told⟩ := h.told
  rw [told]
  exact (((noFailureTold.tell notices).1.escalate cause).2 s).1

/-! ## Histories -/

/-- Owners open and end subscriptions, and take what is queued for them. -/
def OwnersOnly (t : Tracker S) : Move → Prop
  | .resubscribe dispatcher => ∃ operation : Operation, operation.deliveries = [] ∧
      dispatcher = t.dispatcher.perform operation
  | _ => True

/-- No start takes the tracker from an undecided one, and owners use their own subscriptions only. -/
def Regular (t : Tracker S) (m : Move) : Prop :=
  t.Orderly m ∧ t.OwnersOnly m

/-- Whether no start takes the tracker from an undecided one and owners do nothing. -/
def isRegular (t : Tracker S) : Move → Bool
  | .resubscribe _ => false
  | m => t.isOrderly m

theorem regular_of_isRegular {m : Move} (h : t.isRegular m) : t.Regular m := by
  cases m with
  | resubscribe dispatcher => cases h
  | start | stop | cancel | setHeight | resume => exact ⟨orderly_of_isOrderly h, trivial⟩

/-- A run whose failure was reported is over, and no registered mailbox holds a failure. -/
structure FailureInvariant (t : Tracker S) : Prop where
  stopInv : t.StopInvariant
  noFailureTold : t.dispatcher.NoFailureTold
  once : (t.failures.map Prod.fst).Nodup
  ended : ∀ {run : Nat} {cause : TrackError}, (run, cause) ∈ t.failures → t.isOver run

theorem failureInvariant_make (settings : TrackerSettings) (store : S) : (make settings store).FailureInvariant where
  stopInv := stopInvariant_make settings store
  noFailureTold := Dispatcher.noFailureTold_make _ _
  once := List.nodup_nil
  ended failed := by cases failed

theorem isOver_steps (steps : t.life.Steps u.life) (ended : t.isOver run) : u.isOver run := by
  rw [← isOver_life] at ended ⊢
  exact steps.precedes.isOver ended

variable [BlockStore S] {m : Move}

/-- A run is over once its failure is reported. -/
theorem StopInvariant.isOver_of_fails (h : t.StopInvariant) (orderly : t.Orderly m) (moved : t.move? m = some u)
    (fails : t.Fails u run cause) : u.isOver run := by
  have steps := steps_move? orderly moved
  have bound : run < u.runs.length := by
    have more := steps.precedes.length
    simp only [life, List.length_map] at more
    exact Nat.lt_of_lt_of_le fails.bound more
  exact isOver_resting (h.sound.steps steps) bound (Or.inr fails.stopping)

theorem Reaches.orderly (h : Reaches Regular t u) : Reaches Orderly t u := by
  induction h with
  | refl => exact .refl
  | move _ regular moved ih => exact .move ih regular.1 moved

variable [HookedStore S]

theorem StopInvariant.fails_or (h : t.StopInvariant) (moved : t.move? m = some u) :
    u.failures = t.failures ∨ ∃ run cause, t.Fails u run cause := by
  rcases moveEffect_move? h.sound h.tokenInv moved with moveEffect | ⟨dispatcher, rfl⟩
  · exact moveEffect.effect.fails_or
  · cases moved
    exact Or.inl rfl

theorem StopInvariant.operations (h : t.StopInvariant) (regular : t.Regular m) (moved : t.move? m = some u) :
    ∃ operations, u.dispatcher = t.dispatcher.performAll operations := by
  rcases moveEffect_move? h.sound h.tokenInv moved with moveEffect | ⟨dispatcher, rfl⟩
  · exact moveEffect.effect.operations
  · cases moved
    obtain ⟨operation, -, rfl⟩ := regular.2
    exact ⟨[operation], rfl⟩

theorem StopInvariant.operations_of_reaches (h : t.StopInvariant) (later : Reaches Regular t u) :
    ∃ operations, u.dispatcher = t.dispatcher.performAll operations := by
  induction later with
  | refl => exact ⟨[], rfl⟩
  | move before regular moved ih =>
      obtain ⟨first, told⟩ := ih
      obtain ⟨rest, told'⟩ := (h.reaches before.orderly).operations regular moved
      exact ⟨first ++ rest, by rw [told', told, Dispatcher.performAll_append]⟩

theorem FailureInvariant.move? (h : t.FailureInvariant) (regular : t.Regular m) (moved : t.move? m = some u) :
    u.FailureInvariant := by
  have steps := steps_move? regular.1 moved
  have stopInv := h.stopInv.move? regular.1 moved
  have noFailureTold : u.dispatcher.NoFailureTold := by
    rcases moveEffect_move? h.stopInv.sound h.stopInv.tokenInv moved with moveEffect | ⟨dispatcher, rfl⟩
    · exact moveEffect.effect.noFailureTold h.noFailureTold
    · cases moved
      obtain ⟨operation, silent, rfl⟩ := regular.2
      exact h.noFailureTold.perform silent
  rcases h.stopInv.fails_or moved with same | ⟨run, cause, fails⟩
  · exact ⟨stopInv, noFailureTold, same ▸ h.once, fun failed => isOver_steps steps (h.ended (same ▸ failed))⟩
  · have ended := h.stopInv.isOver_of_fails regular.1 moved fails
    refine ⟨stopInv, noFailureTold, ?_, ?_⟩
    · rw [fails.failures, List.map_append, List.map_singleton]
      refine List.nodup_append.mpr ⟨h.once, by simp, ?_⟩
      rintro told mem other new rfl
      obtain ⟨⟨run', cause'⟩, failed, rfl⟩ := List.mem_map.mp mem
      cases List.mem_singleton.mp new
      cases fails.live.symm.trans (h.ended failed)
    · intro run' cause' failed
      rw [fails.failures] at failed
      rcases List.mem_append.mp failed with old | new
      · exact isOver_steps steps (h.ended old)
      · cases List.mem_singleton.mp new
        exact ended

theorem failureInvariant_of_regular {settings : TrackerSettings} {store : S}
    (history : Reaches Regular (make settings store) t) : t.FailureInvariant :=
  history.invariant (failureInvariant_make settings store) FailureInvariant.move?

/-- No failure is reported for a run that is over. -/
theorem FailureInvariant.failures_of_over (h : t.FailureInvariant) (ended : t.isOver run)
    (later : Reaches Regular t u) :
    u.isOver run ∧ u.failures.filter (·.1 == run) = t.failures.filter (·.1 == run) := by
  refine (later.invariant (P := fun u => u.FailureInvariant ∧ u.isOver run ∧
    u.failures.filter (·.1 == run) = t.failures.filter (·.1 == run)) ⟨h, ended, rfl⟩ ?_).2
  rintro v w m ⟨stopInv, ended, same⟩ regular moved
  refine ⟨stopInv.move? regular moved, isOver_steps (steps_move? regular.1 moved) ended, ?_⟩
  rcases stopInv.stopInv.fails_or moved with kept | ⟨run', cause, fails⟩
  · rw [kept, same]
  · have other : (run' == run) = false := by
      refine beq_false_of_ne ?_
      rintro rfl
      cases fails.live.symm.trans ended
    rw [fails.failures, List.filter_append, same]
    simp [other]

/-! ## Once -/

/-- Fatal failures are reported once: one for each run, by a move that also ends the run, begins the
stop and closes every subscription; to address subscribers only, if there is room; and nothing is queued
afterwards for subscriptions that were live then. -/
structure EscalatesOnce (t : Tracker S) : Prop where
  once : (t.failures.map Prod.fst).Nodup
  ends : ∀ {m : Move} {u : Tracker S}, t.Regular m → t.move? m = some u → u.failures ≠ t.failures → ∃ run cause,
    u.failures = t.failures ++ [(run, cause)] ∧ run < t.runs.length ∧ t.isOver run = false ∧ u.isOver run ∧
      u.status = .stopping ∧ t.dispatcher.Closes u.dispatcher
  notifies : ∀ {m : Move} {u : Tracker S} {run : Nat} {cause : TrackError}, t.move? m = some u →
    u.failures = t.failures ++ [(run, cause)] → ∀ {s : Subscription}, s.interest = .events →
      (s.slot t.dispatcher).isLive → s.GetsFailure cause t.dispatcher u.dispatcher
  heads : ∀ {s : Subscription}, s.interest = .heads → ∀ cause, .unrecoverable cause ∉ (s.drain t.dispatcher).2.1
  live : ∀ {s : Subscription}, (s.slot t.dispatcher).isLive →
    ∀ cause, .unrecoverable cause ∉ (s.drain t.dispatcher).2.1
  quiet : ∀ {m : Move} {u : Tracker S}, t.Regular m → t.move? m = some u → u.failures ≠ t.failures →
    ∀ {s : Subscription}, (s.slot t.dispatcher).isLive → ∀ {v : Tracker S}, Reaches Regular u v →
      (s.slot v.dispatcher).isLive = false ∧ (s.drain v.dispatcher).1 <:+ (s.drain u.dispatcher).1 ∧
        (s.drain v.dispatcher).2.1 <:+ (s.drain u.dispatcher).2.1
  ended : ∀ {run : Nat}, t.isOver run → ∀ {u : Tracker S}, Reaches Regular t u →
    u.isOver run ∧ u.failures.filter (·.1 == run) = t.failures.filter (·.1 == run)
  stopped : t.status = .stopping ∨ t.status = .idle → ∀ {run : Nat}, run < t.runs.length → t.isOver run

theorem escalatesOnce_of_regular {settings : TrackerSettings} {store : S}
    (history : Reaches Regular (make settings store) t) : t.EscalatesOnce := by
  have stopInv := failureInvariant_of_regular history
  constructor
  case once => exact stopInv.once
  case ends =>
    intro m u regular moved failed
    obtain ⟨run, cause, fails⟩ := (stopInv.stopInv.fails_or moved).resolve_left failed
    exact ⟨run, cause, fails.failures, fails.bound, fails.live, stopInv.stopInv.isOver_of_fails regular.1 moved fails,
      fails.stopping, fails.closes⟩
  case notifies =>
    intro m u run cause moved failed s events live
    rcases stopInv.stopInv.fails_or moved with same | ⟨run', cause', fails⟩
    · simp [same] at failed
    · have new := fails.failures.symm.trans failed
      simp only [List.append_cancel_left_eq, List.cons.injEq, Prod.mk.injEq, and_true] at new
      exact new.2 ▸ fails.getsFailure stopInv.noFailureTold events live
  case heads =>
    intro s heads cause
    rw [(s.drain_eq t.dispatcher).2]
    exact stopInv.noFailureTold.noFailureQueued_heads heads cause
  case live =>
    intro s live cause
    rw [(s.drain_eq t.dispatcher).2]
    exact stopInv.noFailureTold.noFailureQueued_live live cause
  case quiet =>
    intro m u regular moved failed s live v later
    obtain ⟨run, cause, fails⟩ := (stopInv.stopInv.fails_or moved).resolve_left failed
    have after := stopInv.move? regular moved
    obtain ⟨operations, told⟩ := after.stopInv.operations_of_reaches later
    obtain ⟨first, told'⟩ := stopInv.stopInv.operations regular moved
    have below : s.id < u.dispatcher.nextId := by
      rw [told']
      exact Nat.lt_of_lt_of_le (stopInv.noFailureTold.below_of_live live) (t.dispatcher.nextId_le_performAll first)
    obtain ⟨ended, addsNothing⟩ :=
      Dispatcher.addsNothing_performAll after.noFailureTold.tidy below (fails.ended stopInv.noFailureTold s) operations
    rw [told, (s.drain_eq _).1, (s.drain_eq _).1, (s.drain_eq _).2, (s.drain_eq _).2]
    exact ⟨ended, addsNothing.notices, addsNothing.errors⟩
  case ended => exact fun halted u later => stopInv.failures_of_over halted later
  case stopped => exact fun still run bound => isOver_resting stopInv.stopInv.sound bound still.symm

def watchedTracker : Tracker NestedStore :=
  let fresh := make {} .empty
  fresh.withDispatcher ((fresh.dispatcher.perform (.subscribe (.events "weth"))).perform (.subscribe .heads))

theorem reaches_watchedTracker : Reaches Regular (make {} NestedStore.empty) watchedTracker := by
  let first := (make {} NestedStore.empty).dispatcher.perform (.subscribe (.events "weth"))
  have opened : Reaches Regular (make {} NestedStore.empty) ((make {} NestedStore.empty).withDispatcher first) :=
    .move (m := .resubscribe first) .refl ⟨trivial, _, rfl, rfl⟩ rfl
  exact opened.move (m := .resubscribe (first.perform (.subscribe .heads))) ⟨trivial, _, rfl, rfl⟩ rfl

def refusedMoves : List Move :=
  [.start "plain", .resume 0 .go, .resume 0 (.chain (.ok 1)), .resume 0 (.stored none), .resume 1 .go,
    .resume 1 (.subscribed (.error (.rpc "down")))]

theorem escalatesOnce_of_regular_refused : ∃ t : Tracker NestedStore,
    watchedTracker.trial? isRegular refusedMoves = some t ∧ t.failures = [(0, .rpc "down")] ∧
      ((Subscription.mk 1 .events).drain t.dispatcher).2.1 = [.unrecoverable (.rpc "down")] ∧
      ((Subscription.mk 2 .heads).drain t.dispatcher).2.1 = [] ∧ t.EscalatesOnce := by
  have shape : (watchedTracker.trial? isRegular refusedMoves).map (fun t =>
      (t.failures, ((Subscription.mk 1 .events).drain t.dispatcher).2.1,
        ((Subscription.mk 2 .heads).drain t.dispatcher).2.1)) =
      some ([(0, .rpc "down")], [.unrecoverable (.rpc "down")], []) := by
    decide +kernel
  obtain ⟨t, tried, at_end⟩ := Option.map_eq_some_iff.mp shape
  simp only [Prod.mk.injEq] at at_end
  obtain ⟨failed, queued, spared⟩ := at_end
  have history := reaches_watchedTracker.trans (reaches_of_trial? regular_of_isRegular tried)
  exact ⟨t, tried, failed, queued, spared, escalatesOnce_of_regular history⟩

end Tracker

end Chainwatch
