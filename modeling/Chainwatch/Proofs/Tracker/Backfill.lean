import Chainwatch.Proofs.Tracker.Sweeping

/-!
# The backfill of a run

At any time, and in any order of events, the actions of a backfill are a part of its full trace. They stop
early only when the run is cancelled or fails. Blocks that are final when the first live block is known
are confirmed, and none of them is ever reported as seen, whatever the watch reports meanwhile.
-/

namespace Chainwatch

open PlainStore (view)
open Tracker (Reaches Orderly Traces make)

/-- The backfill of the run is still to be launched or is not finished. -/
def Task.IsPending (run : Nat) : Task → Prop
  | .starting _ (.awaitingFirst session _) | .sweeping session _ _ => session.run = run
  | .starting _ _ | .stopping _ | .watching _ _ | .ended _ | .crashed => False

/-- A bound on the answers that the work on a block still needs. -/
def Work.left : Work → Nat
  | .record _ _ | .fetchConfirmed _ _ => 3
  | .fetchSeen _ _ | .promote _ _ => 2
  | .saveSeen _ _ | .saveConfirmed _ _ => 1

theorem Work.left_le (work : Work) : work.left ≤ 3 := by
  cases work <;> simp [left]

def Work.answer : Work → Answer
  | .record _ _ | .saveSeen _ _ | .promote _ _ | .saveConfirmed _ _ => .stored none
  | .fetchSeen _ _ | .fetchConfirmed _ _ => .logs (.ok [])

theorem Work.resume?_answer {S : Type} [BlockStore S] (work : Work) (session : Session) (l : Ledger S) :
    ∃ progress after, work.resume? session l work.answer = some (progress, after) := by
  cases work with
  | record | saveSeen | promote | saveConfirmed =>
      simp only [answer, resume?]
      split <;> exact ⟨_, _, rfl⟩
  | fetchSeen | fetchConfirmed => exact ⟨_, _, rfl⟩

theorem Work.left_lt {S : Type} [BlockStore S] {work next : Work} {session : Session} {l after : Ledger S}
    {answer : Answer} (moved : work.resume? session l answer = some (.waits next, after)) : next.left < work.left := by
  cases outcome_of_resume? moved with
  | asks | told => exact Nat.lt_succ_self 2
  | served | keeps => exact Nat.lt_succ_self 1

/-- A bound on the answers that a backfill still needs to reach a number. -/
def SweepPoint.left (upTo : Nat) : SweepPoint → Nat
  | .launched lowest => 5 * (upTo - lowest.toNat) + 5
  | .fetching number => 5 * (upTo - number.toNat) + 4
  | .working number work => 5 * (upTo - number.toNat) + work.left

def SweepPoint.answer : SweepPoint → Answer
  | .launched _ => .go
  | .fetching number => .header (.ok { (default : Header) with number })
  | .working _ work => work.answer

namespace Sweep

variable {S : Type} [BlockStore S] [PlainStore S] {p : Sweep S} {t u : Tracker S} {m : Move} {id : Nat}
  {answer : Answer} {task next : Task} {actions more : List SweepAction} {phase : Option Nat} {mid : Ledger S}

/-! ### Pending backfills -/

theorem busy_of_isPending {run : Nat} (pending : task.IsPending run) :
    task.isRetired = false ∧ task.isCalled = false := by
  cases task with
  | starting context point =>
      cases point with
      | awaitingFirst => exact ⟨rfl, rfl⟩
      | _ => exact pending.elim
  | sweeping => exact ⟨rfl, rfl⟩
  | stopping | watching | ended | crashed => exact pending.elim

omit [PlainStore S] in
/-- A backfill is pending after a step only if it was launched by it or was pending before. -/
theorem isPending_of_taskStep {new : List Task} {run : Nat} (turn : t.TaskStep task answer mid next new) {comes : Task}
    (among : comes = next ∨ comes ∈ new) (pending : comes.IsPending run) :
    task.IsPending run ∨ ∃ context chain, task = .starting context (.readingHeight chain) := by
  cases turn with
  | rest free retired | retire under moved _ retired =>
      rcases among with rfl | new
      · cases (busy_of_isPending pending).1.symm.trans retired
      · cases new
  | launch => exact Or.inr ⟨_, _, rfl⟩
  | launchSweep =>
      rcases among with rfl | new
      · exact pending.elim
      · rw [List.mem_singleton.mp new] at pending
        exact Or.inl pending
  | sweep | begin | work | next =>
      rcases among with rfl | new
      · exact Or.inl pending
      · cases new
  | _ =>
      rcases among with rfl | new
      · exact pending.elim
      · cases new

/-- No backfill becomes pending once the run is launched. -/
theorem Invariant.pending_of_move? (h : p.Invariant actions phase t) (moved : t.move? m = some u)
    (there : u.tasks[id]? = some task) (pending : task.IsPending p.run) :
    ∃ (place : Nat) (before : Task), t.tasks[place]? = some before ∧ before.IsPending p.run := by
  rcases Tracker.takesStep_or_spawnsTasks_of_move? moved with
    ⟨mover, answer, moving, -, found, mid, next, new, turn, stepsTo⟩ | ⟨new, spawnsTasks, called⟩
  · have came (among : task = next ∨ task ∈ new) :
        ∃ (place : Nat) (before : Task), t.tasks[place]? = some before ∧ before.IsPending p.run := by
      rcases isPending_of_taskStep turn among pending with before | ⟨context, chain, rfl⟩
      · exact ⟨mover, moving, found, before⟩
      · exact (h.stands found).elim
    rcases stepsTo.cases there with ⟨-, same⟩ | ⟨-, old⟩ | launched | ⟨point, rfl⟩
    · exact came (Or.inl same)
    · exact ⟨id, task, old, pending⟩
    · exact came (Or.inr launched)
    · exact pending.elim
  · rcases spawnsTasks.cases there with old | new | ⟨point, rfl⟩
    · exact ⟨id, task, old, pending⟩
    · cases (busy_of_isPending pending).2.symm.trans (called task new)
    · exact pending.elim

section Ends

variable [HookedStore S]

/-- No header is requested for a run that is over. -/
theorem Invariant.asks_of_over (h : p.Invariant actions phase t) (moved : t.move? m = some u)
    (ceased : t.isOver p.run) : ∀ action ∈ t.actions m u, action.asks? = none := by
  by_cases sweeps : ∃ id answer session last point, m = .resume id answer ∧
      t.tasks[id]? = some (.sweeping session last point)
  · obtain ⟨id, answer, session, last, point, rfl, found⟩ := sweeps
    obtain ⟨-, rfl, -⟩ := h.stands found
    obtain ⟨next, here, continues⟩ :=
      Tracker.continuesSweep_of_resumeSweep? found (Tracker.resumeSweep?_of_resume? found moved)
    rw [Tracker.actions_resume found moved here]
    intro action mem
    rcases List.mem_append.mp mem with done | asked
    · cases point with
      | launched lowest => cases done
      | fetching number =>
          obtain ⟨begun, -, rfl⟩ := List.mem_map.mp done
          rfl
      | working number work =>
          cases answer with
          | stored fault => rw [List.mem_singleton.mp done]; rfl
          | _ => cases done
    · cases next with
      | sweeping session last point =>
          cases point with
          | launched lowest => exact continues.elim
          | fetching number => cases ceased.symm.trans continues
          | working number work =>
              rcases isBlockWork_asked work action asked with rfl | rfl <;> rfl
      | ended | crashed => cases asked
      | starting | stopping | watching => exact continues.elim
  · rw [Tracker.actions_of_other]
    · intro action mem
      cases mem
    · intro id answer same session last point found
      exact sweeps ⟨id, answer, session, last, point, same, found⟩

theorem Invariant.asks_of_traces (h : p.Invariant actions phase t) (later : Traces p.Allows t more u)
    (ceased : t.isOver p.run) : ∀ action ∈ more, action.asks? = none := by
  have still : u.isOver p.run ∧ ∀ action ∈ more, action.asks? = none := by
    induction later with
    | refl => exact ⟨ceased, fun action mem => by cases mem⟩
    | move before allowed moved ih =>
        obtain ⟨ceased, silent⟩ := ih
        obtain ⟨_, kept, -⟩ := h.traces before
        refine ⟨over_resumed allowed moved ceased, fun action mem => ?_⟩
        rcases List.mem_append.mp mem with mem | mem
        · exact silent action mem
        · exact kept.asks_of_over moved ceased action mem
  exact still.2

/-- Without a pending backfill no action is taken, and none becomes pending. -/
theorem Invariant.idle_of_traces (h : p.Invariant actions phase t) (later : Traces p.Allows t more u)
    (nobody : ∀ {id : Nat} {task : Task}, t.tasks[id]? = some task → ¬task.IsPending p.run) : more = [] := by
  have still : (∀ {id : Nat} {task : Task}, u.tasks[id]? = some task → ¬task.IsPending p.run) ∧ more = [] := by
    induction later with
    | refl => exact ⟨nobody, rfl⟩
    | move before allowed moved ih =>
        obtain ⟨nobody, rfl⟩ := ih
        obtain ⟨_, kept, -⟩ := h.traces before
        refine ⟨fun there pending => ?_, ?_⟩
        · obtain ⟨place, task, found, pending⟩ := kept.pending_of_move? moved there pending
          exact nobody found pending
        · rw [List.nil_append, Tracker.actions_of_other]
          intro id answer _ session last point found
          obtain ⟨-, rfl, -⟩ := kept.stands found
          exact nobody found rfl
  exact still.2

end Ends

/-! ### Termination -/

section Progress

variable {session : Session} {last : UInt64} {point : SweepPoint}

omit [PlainStore S] in
/-- A pending backfill always has an answer to continue with. -/
theorem exists_resume? (found : t.tasks[id]? = some (.sweeping session last point)) :
    ∃ u, t.move? (.resume id point.answer) = some u := by
  simp only [Tracker.move?, Tracker.resume?, found]
  cases point with
  | launched | fetching => exact ⟨_, rfl⟩
  | working number work =>
      obtain ⟨progress, after, moved⟩ := work.resume?_answer session t.ledger
      have moves : (t.resumeSweep? id session last (.working number work) work.answer).isSome := by
        show ((work.resume? session t.ledger work.answer).map _).isSome
        rw [Option.isSome_map, moved]
        rfl
      exact Option.isSome_iff_exists.mp moves

theorem allows_answer (found : t.tasks[id]? = some (.sweeping session last point)) :
    p.Allows t (.resume id point.answer) := by
  refine ⟨fun _ context called => ?_, fun {number header} waits same => ?_, fun {live} same => ?_⟩
  · cases found.symm.trans called
  · rw [Tracker.wait?, found] at waits
    cases point with
    | launched => cases same
    | fetching => cases waits; cases same; rfl
    | working number work => cases work <;> cases same
  · cases point with
    | launched | fetching => cases same
    | working number work => cases work <;> cases same

omit [PlainStore S] in
/-- Each answer decreases `SweepPoint.left`. -/
theorem left_lt_of_taskStep {upTo : Nat} (bound : last.toNat + 1 = upTo) {other : Session} {final : UInt64}
    {comes : SweepPoint} {new : List Task}
    (turn : t.TaskStep (.sweeping session last point) answer mid (.sweeping other final comes) new) :
    comes.left upTo < point.left upTo := by
  cases turn with
  | rest free retired | retire under moved _ retired => cases retired
  | sweep some below => exact Nat.lt_succ_self _
  | begin begun =>
      apply Nat.add_lt_add_left
      exact Nat.lt_succ_of_le (Work.left_le _)
  | work moved => exact Nat.add_lt_add_left (Work.left_lt moved) _
  | @next _ _ number work _ _ moved less =>
      have below := UInt64.lt_iff_toNat_lt.mp less
      simp only [SweepPoint.left, Tracker.toNat_succ_of_lt less]
      omega

/-- Some answers bring a pending backfill to its end. -/
theorem Invariant.exists_end [HookedStore S] (h : p.Invariant actions phase t)
    (found : t.tasks[id]? = some (.sweeping session last point)) :
    ∃ more u, Traces p.Allows t more u ∧ u.hasEnded id := by
  induction left : point.left p.first.toNat using Nat.strongRecOn generalizing actions phase t session last point
  rename_i ih
  have allowed : p.Allows t (.resume id point.answer) := allows_answer found
  obtain ⟨u, moved⟩ := exists_resume? found
  obtain ⟨later, kept, -⟩ := h.move? allowed moved
  have went : Traces p.Allows t ([] ++ t.actions (.resume id point.answer) u) u := .move .refl allowed moved
  obtain ⟨task, found', mid, next, new, turn, stepsTo⟩ := Tracker.takesStep_resume? moved
  cases found.symm.trans found'
  have here := stepsTo.here found
  obtain ⟨there, here', continues⟩ :=
    Tracker.continuesSweep_of_resumeSweep? found (Tracker.resumeSweep?_of_resume? found moved)
  cases here.symm.trans here'
  cases next with
  | sweeping other final comes =>
      obtain ⟨-, -, bound, -⟩ := h.stands found
      obtain ⟨more, v, rest, ended⟩ := ih _ (left ▸ left_lt_of_taskStep bound turn) kept here rfl
      exact ⟨_, v, went.trans rest, ended⟩
  | ended | crashed => exact ⟨_, u, went, by rw [Tracker.hasEnded, here]⟩
  | starting | stopping | watching => exact continues.elim

end Progress

/-! ## The sweep -/

/-- The order of the actions of a backfill, up to a state `t` and from there to `u`. Its actions are a
part of the full trace from its beginning; headers are requested in ascending order without repetition
or gap; a backfill that ends in a run that is not over has the full trace; once the run is over no
header is requested and at most the block at hand is written; a backfill that has ended takes no action;
no final block is reported as seen; the backfill can always be brought to its end, and its blocks lie
below the first live one. -/
structure InOrder (p : Sweep S) (actions : List SweepAction) (t : Tracker S) (more : List SweepAction)
    (u : Tracker S) : Prop where
  cut : p.IsPartialTrace (actions ++ more)
  asks : (actions ++ more).filterMap SweepAction.asks? <+:
    List.range' p.lowest.toNat (p.first.toNat - p.lowest.toNat)
  whole : ∀ {id : Nat} {session : Session} {last : UInt64} {point : SweepPoint} {outcome : Except TrackError Unit},
    t.tasks[id]? = some (.sweeping session last point) → u.tasks[id]? = some (.ended outcome) →
    u.isOver p.run = false → p.IsFullTrace (actions ++ more) ∧
      (actions ++ more).filterMap SweepAction.asks? = List.range' p.lowest.toNat (p.first.toNat - p.lowest.toNat)
  cut_short : t.isOver p.run ∨ (∃ cause, (p.run, cause) ∈ t.failures) →
    ∀ action ∈ more, action.asks? = none ∧ .ask action.number ∈ actions
  at_end : (∀ {id : Nat} {task : Task}, t.tasks[id]? = some task → ¬task.IsPending p.run) → more = []
  told : p.Tells p.launched.ledger u.ledger
  ends : ∀ {id : Nat} {session : Session} {last : UInt64} {point : SweepPoint},
    u.tasks[id]? = some (.sweeping session last point) → ∃ rest v, Traces p.Allows u rest v ∧ v.hasEnded id
  bounds : ∀ {id : Nat} {session : Session} {last : UInt64} {point : SweepPoint},
    u.tasks[id]? = some (.sweeping session last point) → session = p.session ∧ last.toNat + 1 = p.first.toNat ∧
      ∀ {number : UInt64}, point.number? = some number → p.lowest ≤ number ∧ number ≤ last

section Order

variable [HookedStore S]

/-- Whatever happens to a run and in whatever order: its backfill goes through the blocks from the
lowest up to the first live one, confirms those that are final and observes the rest, and stops early
only with its run. -/
theorem inOrder_of_traces (history : Traces p.Allows p.launched actions t) (later : Traces p.Allows t more u) :
    p.InOrder actions t more u := by
  obtain ⟨phase, kept, -⟩ := (invariant_launched p).traces history
  obtain ⟨after, kept', stays⟩ := kept.traces later
  rw [List.nil_append] at kept kept'
  refine ⟨kept'.cut, kept'.cut.asks, ?_, ?_, ?_, kept'.told, kept'.exists_end, ?_⟩
  · intro id session last point outcome sweeps ended going
    obtain ⟨mine, -⟩ := kept.stands sweeps
    obtain ⟨task, there, backfill⟩ := kept'.swept (stays mine)
    cases ended.symm.trans there
    have walked : p.IsFullTrace (actions ++ more) := backfill.resolve_left (by simp [going])
    exact ⟨walked, walked.asks⟩
  · intro ends
    have ceased : t.isOver p.run := by
      rcases ends with ceased | ⟨cause, failed⟩
      · exact ceased
      · exact Tracker.isOver_of_failures kept.history failed
    have silent := kept.asks_of_traces later ceased
    intro action mem
    refine ⟨silent action mem, ?_⟩
    rcases List.mem_append.mp (kept'.cut.ask_mem (List.mem_append_right _ mem)) with before | since
    · exact before
    · cases silent _ since
  · intro nobody
    exact kept.idle_of_traces later nobody
  · intro id session last point sweeps
    obtain ⟨-, own, bound, stands⟩ := kept'.stands sweeps
    refine ⟨own, bound, fun {number} at_number => ?_⟩
    have covers : p.Covers number := by
      cases point with
      | launched lowest => cases at_number
      | fetching number => cases at_number; exact stands.1
      | working number work => cases at_number; exact stands.1
    have high := UInt64.lt_iff_toNat_lt.mp covers.2
    exact ⟨covers.1, UInt64.le_iff_toNat_le.mpr (by omega)⟩

end Order

/-! ### A backfill of two blocks -/

section TwoBlocks

def isAllowed (p : Sweep S) (t : Tracker S) : Move → Bool
  | .resume id answer =>
      (t.status != .idle ||
        match t.tasks[id]? with
        | some (.starting _ .launched) => false
        | _ => true) &&
      (match t.wait? id, answer with
        | some (.node (.header number)), .header (.ok header) => header.number == number
        | _, _ => true) &&
      match answer with
      | .arrival (some (.ok live)) =>
          decide (p.first ≤ live.number) && (t.first p.run != .awaited || live.number == p.first)
      | _ => true
  | _ => true

theorem allows_of_isAllowed (passed : p.isAllowed t m) : p.Allows t m := by
  cases m with
  | resume id answer =>
      simp only [isAllowed, Bool.and_eq_true] at passed
      obtain ⟨⟨rested, numbered⟩, late⟩ := passed
      refine ⟨fun idle context called => ?_, fun {number header} waits same => ?_, fun {live} same => ?_⟩
      · simp [idle, called] at rested
      · subst same
        simpa [waits] using numbered
      · subst same
        simp only [Bool.and_eq_true, decide_eq_true_eq, Bool.or_eq_true, bne_iff_ne, beq_iff_eq] at late
        exact ⟨late.1, fun awaited => late.2.resolve_left fun other => other awaited⟩
  | _ => trivial

def twoSettings : TrackerSettings := { startHeight := 1, confirmations := some 1 }

def askedMoves : List Move :=
  [.start "plain", .resume 0 .go, .resume 0 (.chain (.ok 1))]

def asked : Tracker NestedStore :=
  ((make twoSettings NestedStore.empty).trial? Tracker.isOrderly askedMoves).getD (make twoSettings NestedStore.empty)

theorem reaches_asked : Reaches Orderly (make twoSettings NestedStore.empty) asked := by
  have moved : (make twoSettings NestedStore.empty).trial? Tracker.isOrderly askedMoves = some asked := rfl
  exact Tracker.reaches_of_trial? Tracker.orderly_of_isOrderly moved

/-- An empty store, a threshold of one block, and block three as the first live one. -/
def twoBlocks : Sweep NestedStore where
  settings := twoSettings
  store := NestedStore.empty
  tracker := asked
  context := "plain"
  starter := 0
  chain := 1
  height := 0
  first := 3
  sound := NestedStore.sound_empty
  history := reaches_asked
  starting := rfl
  found := rfl
  read := rfl
  late := by decide

def twoHeader (number : UInt64) (hash : String) : Header :=
  { (default : Header) with number, hash }

def takenUpMoves : List Move :=
  [.resume 1 .go, .resume 1 (.subscribed (.ok ())), .resume 1 (.arrival (some (.ok (twoHeader 3 "c")))),
    .resume 0 .go, .resume 2 .go, .resume 2 (.header (.ok (twoHeader 1 "a")))]

def doneMoves : List Move :=
  [.resume 2 (.stored none), .resume 2 (.header (.ok (twoHeader 2 "b"))), .resume 2 (.stored none)]

theorem inOrder_of_two_blocks : ∃ t u : Tracker NestedStore,
    Traces twoBlocks.Allows twoBlocks.launched [.ask 1, .take 1 true] t ∧
      Traces twoBlocks.Allows t [.write 1, .ask 2, .take 2 false, .write 2] u ∧ u.hasEnded 2 ∧
      twoBlocks.InOrder [.ask 1, .take 1 true] t [.write 1, .ask 2, .take 2 false, .write 2] u := by
  have shape : (twoBlocks.launched.trace? twoBlocks.isAllowed takenUpMoves).bind (fun first =>
      (first.2.trace? twoBlocks.isAllowed doneMoves).map fun second => (first.1, second.1, second.2.hasEnded 2)) =
      some ([.ask 1, .take 1 true], [.write 1, .ask 2, .take 2 false, .write 2], true) := by
    decide +kernel
  obtain ⟨⟨actions, t⟩, before, shape⟩ := Option.bind_eq_some_iff.mp shape
  obtain ⟨⟨more, u⟩, since, at_end⟩ := Option.map_eq_some_iff.mp shape
  simp only [Prod.mk.injEq] at at_end
  obtain ⟨rfl, rfl, ended⟩ := at_end
  have history := Tracker.traces_of_trace? allows_of_isAllowed before
  have later := Tracker.traces_of_trace? allows_of_isAllowed since
  exact ⟨t, u, history, later, ended, inOrder_of_traces history later⟩

end TwoBlocks

end Sweep

end Chainwatch
