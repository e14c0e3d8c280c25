import Chainwatch.Proofs.Tracker.Settling
import Chainwatch.Proofs.Tracker.SweepTrace

/-!
# The sweep of a backfill

In every order of the steps of the tasks, the backfill of a run goes through the blocks below the first
live one, and stops early only when its run is cancelled or fails. Blocks that are final when the first
live block is known it confirms, and none of them is ever reported as seen, whatever the watch reports
meanwhile.
-/

namespace Chainwatch

open PlainStore (Sound view)
open Tracker (Reaches Orderly Traces make)

namespace Sweep

/-! ## Steps of a backfill -/

section Steps

variable {S : Type} [BlockStore S] [PlainStore S] {p : Sweep S} {v w : View} {session : Session} {l mid : Ledger S}
  {actions : List SweepAction} {point : SweepPoint} {number : UInt64} {work next : Work} {answer : Answer}
  {progress : Progress}

theorem isSettledBy_eq {last : UInt64} (bound : last.toNat + 1 = p.first.toNat) (number : UInt64) :
    Tracker.isSettledBy p.session last number = decide (p.IsFinal number.toNat) := by
  have late := p.two_le_first
  have below : last.toNat = p.first.toNat - 1 := by omega
  have some : last ≠ 0 := by
    rintro rfl
    rw [UInt64.toNat_zero] at bound
    omega
  rw [Bool.eq_iff_iff, decide_eq_true_eq, Tracker.isSettledBy_iff p.session below some, IsFinal]
  omega

theorem isBlockWork_asked (work : Work) :
    IsBlockWork work.header.number.toNat (work.wait.call?.bind Call.action?).toList := by
  intro action mem
  cases work with
  | fetchSeen | fetchConfirmed => exact Or.inl (List.mem_singleton.mp mem)
  | record | saveSeen | promote | saveConfirmed => cases mem

theorem IsSweeping.isPartialTrace (h : p.IsSweeping v actions point) : p.IsPartialTrace actions := by
  cases point with
  | launched lowest =>
      obtain ⟨-, rfl⟩ := h
      exact isPartialTrace_nil
  | fetching number =>
      obtain ⟨covers, blockWork, allBlockWork, rfl⟩ := h
      have none : IsBlockWork number.toNat [] := by
        intro action mem
        cases mem
      apply isPartialTrace_of_block covers allBlockWork none
      exact List.cons_prefix_cons.mpr ⟨rfl, List.nil_prefix⟩
  | working number work =>
      obtain ⟨covers, -, -, -, blockWork, done, allBlockWork, does, -, rfl⟩ := h
      exact isPartialTrace_of_block covers allBlockWork does List.prefix_rfl

theorem isSweeping_lowest (some : p.lowest < p.first) (v : View) :
    p.IsSweeping v [.ask p.lowest.toNat] (.fetching p.lowest) :=
  ⟨⟨UInt64.le_refl _, some⟩, _, areBlockWork_write, by rw [traceUpTo_lowest, List.nil_append]⟩

theorem IsSweeping.begun (h : p.IsSweeping v actions (.fetching number)) (on : work.header.number = number)
    (confirms : work.confirms = decide (p.IsFinal number.toNat)) (fresh : work.isWritten = false) :
    p.IsSweeping v (actions ++ .take work.header.number.toNat work.confirms ::
      (work.wait.call?.bind Call.action?).toList) (.working number work) := by
  obtain ⟨covers, blockWork, allBlockWork, rfl⟩ := h
  have unwritten : ¬work.isWritten := by simp [fresh]
  refine ⟨covers, on, confirms, fun _ written => (unwritten written).elim, blockWork, _, allBlockWork,
    on ▸ isBlockWork_asked work,
    fun written => (unwritten written).elim, ?_⟩
  rw [confirms, on, List.append_assoc, List.singleton_append]

/-- A step of the work extends the trace by block work. -/
theorem IsSweeping.worked (h : p.IsSweeping v actions (.working number work))
    (moved : work.resume? session l answer = some (progress, mid)) : ∃ blockWork done, AreBlockWork blockWork ∧
      IsBlockWork number.toNat done ∧ (progress = .finished → .write number.toNat ∈ done) ∧
      (∀ next, progress = .waits next → next.isWritten → .write number.toNat ∈ done) ∧
      ∀ begun, actions ++ (SweepPoint.working number work).actions answer begun =
        p.traceUpTo blockWork number.toNat ++
          .ask number.toNat :: .take number.toNat (p.IsFinal number.toNat) :: done := by
  obtain ⟨-, on, -, -, blockWork, done, allBlockWork, does, written, rfl⟩ := h
  rcases Work.writes_of_resume? moved with ⟨fault, rfl⟩ | ⟨⟨outcome, rfl⟩, last, more⟩
  · have writes : IsBlockWork number.toNat (done ++ [.write number.toNat]) :=
      does.append fun action mem => Or.inr (List.mem_singleton.mp mem)
    have there : .write number.toNat ∈ done ++ [.write number.toNat] :=
      List.mem_append_right _ (List.mem_singleton_self _)
    refine ⟨blockWork, _, allBlockWork, writes, fun _ => there, fun _ _ _ => there, fun begun => ?_⟩
    simp only [SweepPoint.actions, on, List.append_assoc, List.cons_append]
  · refine ⟨blockWork, done, allBlockWork, does, fun finished => written (last finished),
      fun next waits placed => written (more next waits placed), fun begun => ?_⟩
    exact List.append_nil _

theorem IsSweeping.goesOn (sound : Sound l.store) (after : Sound mid.store)
    (h : p.IsSweeping (view l.store) actions (.working number work))
    (moved : work.resume? p.session l answer = some (.waits next, mid)) :
    p.IsSweeping (view mid.store)
      (actions ++ ((SweepPoint.working number work).actions answer (some (p.session, next)) ++
      (next.wait.call?.bind Call.action?).toList)) (.working number next) := by
  obtain ⟨blockWork, done, allBlockWork, does, -, writes, same⟩ := h.worked moved
  obtain ⟨covers, on, confirms, unheld, -⟩ := h
  obtain ⟨header, ends, -⟩ := Work.resume?_waits moved
  have asked := isBlockWork_asked next
  rw [header, on] at asked
  refine ⟨covers, header ▸ on, ends ▸ confirms, ?_, blockWork, _, allBlockWork, does.append asked, ?_, ?_⟩
  · intro observes written
    rcases Work.holds_of_waits sound moved written observes with ⟨before, kept⟩ | held
    · rw [header, kept]
      exact unheld (ends ▸ observes) before
    · refine unheld_of_holds (PlainStore.view_sound after) held ?_
      rw [header, on]
      exact of_decide_eq_false ((ends ▸ confirms).symm.trans observes)
  · exact fun written => List.mem_append_left _ (writes next rfl written)
  · rw [← List.append_assoc, same, List.append_assoc, List.cons_append, List.cons_append]

theorem IsSweeping.asksNext (h : p.IsSweeping v actions (.working number work))
    (moved : work.resume? session l answer = some (.finished, mid)) (less : number.toNat + 1 < p.first.toNat)
    (begun : Option (Session × Work)) (w : View) :
    p.IsSweeping w (actions ++ ((SweepPoint.working number work).actions answer begun ++ [.ask (number + 1).toNat]))
      (.fetching (number + 1)) := by
  obtain ⟨blockWork, done, allBlockWork, does, writes, -, same⟩ := h.worked moved
  obtain ⟨⟨low, high⟩, -⟩ := h
  have low := UInt64.le_iff_toNat_le.mp low
  have succ := Tracker.toNat_succ_of_lt high
  obtain ⟨more, allBlockWork, done⟩ := exists_traceUpTo_succ low allBlockWork does (writes rfl)
  refine ⟨⟨?_, ?_⟩, more, allBlockWork, ?_⟩
  · rw [UInt64.le_iff_toNat_le, succ]
    omega
  · rw [UInt64.lt_iff_toNat_lt, succ]
    exact less
  · rw [succ, done, ← same begun, List.append_assoc]

theorem IsSweeping.isFullTrace (h : p.IsSweeping v actions (.working number work))
    (moved : work.resume? session l answer = some (.finished, mid)) (last : number.toNat + 1 = p.first.toNat)
    (begun : Option (Session × Work)) :
    p.IsFullTrace (actions ++ (SweepPoint.working number work).actions answer begun) := by
  obtain ⟨blockWork, done, allBlockWork, does, writes, -, same⟩ := h.worked moved
  obtain ⟨⟨low, -⟩, -⟩ := h
  obtain ⟨more, allBlockWork, done⟩ :=
    exists_traceUpTo_succ (UInt64.le_iff_toNat_le.mp low) allBlockWork does (writes rfl)
  refine ⟨more, allBlockWork, ?_⟩
  rw [same, fullTrace, ← last, done]

/-- Work that ends leaves a partial trace. -/
theorem IsSweeping.isPartialTrace_worked (h : p.IsSweeping v actions (.working number work))
    (moved : work.resume? session l answer = some (progress, mid)) (begun : Option (Session × Work)) :
    p.IsPartialTrace (actions ++ (SweepPoint.working number work).actions answer begun) := by
  obtain ⟨blockWork, done, allBlockWork, does, -, -, same⟩ := h.worked moved
  rw [same]
  exact isPartialTrace_of_block h.1 allBlockWork does List.prefix_rfl

end Steps

/-! ## Notices -/

section Tells

variable {S : Type} [BlockStore S] [PlainStore S]

/-- Between two ledgers only lawful signals are reported. -/
def Tells (p : Sweep S) (l after : Ledger S) : Prop :=
  ∃ told, after.outlet.signals = l.outlet.signals ++ told ∧ ∀ signal ∈ told, p.IsLawful signal

variable {p : Sweep S} {l mid after : Ledger S} {work : Work}

theorem Tells.refl : p.Tells l l :=
  ⟨[], (List.append_nil _).symm, by simp⟩

theorem Tells.trans (h : p.Tells l mid) (g : p.Tells mid after) : p.Tells l after := by
  obtain ⟨told, signals, lawful⟩ := h
  obtain ⟨more, signals', lawful'⟩ := g
  refine ⟨told ++ more, by rw [signals', signals, List.append_assoc], fun signal mem => ?_⟩
  rcases List.mem_append.mp mem with mem | mem
  · exact lawful signal mem
  · exact lawful' signal mem

theorem tells_of_quiet (quiet : l.Quiet after) : p.Tells l after := by
  obtain ⟨told, signals, plain⟩ := quiet.signals
  exact ⟨told, signals, fun signal mem => isLawful_of_isPlain (plain signal mem)⟩

theorem tells_of_treats (treats : l.Treats p.session work after) (spares : p.RespectsFinal (view l.store) work) :
    p.Tells l after := by
  obtain ⟨told, signals, tells⟩ := treats.told
  exact ⟨told, signals, fun signal mem => spares.isLawful (tells signal mem)⟩

theorem agreesOnFinal_of_treats (treats : l.Treats p.session work after)
    (yet : ¬p.IsFinal work.header.number.toNat) : p.AgreesOnFinal (view l.store) (view after.store) := by
  intro number final
  apply treats.heads
  rintro ⟨-, rfl⟩
  exact yet final

theorem agreesOnLive_of_treats (treats : l.Treats p.session work after) (below : work.header.number < p.first) :
    p.AgreesOnLive (view l.store) (view after.store) := by
  intro number live
  apply treats.heads
  rintro ⟨-, rfl⟩
  exact UInt64.not_lt.mpr live below

end Tells

/-! ## Steps of a task -/

section Turns

variable {S : Type} [BlockStore S] [PlainStore S] {p : Sweep S} {t : Tracker S} {id : Nat} {answer : Answer}
  {mid : Ledger S} {next : Task} {new : List Task} {actions : List SweepAction} {phase : Option Nat}

/-- A step of the work reports lawful signals only, and at a block that is not final it preserves the
final ones. -/
theorem tells_of_resume? {work : Work} {progress : Progress} (sound : Sound t.ledger.store)
    (spares : p.RespectsFinal (view t.ledger.store) work) (yet : ¬p.IsFinal work.header.number.toNat)
    (moved : work.resume? p.session t.ledger answer = some (progress, mid)) :
    p.Tells t.ledger mid ∧ p.AgreesOnFinal (view t.ledger.store) (view mid.store) := by
  have treats := Work.treats_of_resume? sound moved
  exact ⟨tells_of_treats treats spares, agreesOnFinal_of_treats treats yet⟩

section Watch

variable {live : Header} {work : Work} {progress : Progress}

theorem IsWatching.observed (sound : Sound t.ledger.store)
    (h : p.IsWatching (view t.ledger.store) (.observing live work))
    (moved : work.resume? p.session t.ledger answer = some (progress, mid)) :
    p.Tells t.ledger mid ∧ p.AgreesOnFinal (view t.ledger.store) (view mid.store) :=
  tells_of_resume? sound (respectsFinal_observing (PlainStore.view_sound sound) h) (h.2.1 ▸ not_isFinal_of_le h.1) moved

theorem IsWatching.confirmed (sound : Sound t.ledger.store)
    (h : p.IsWatching (view t.ledger.store) (.confirming live work))
    (moved : work.resume? p.session t.ledger answer = some (progress, mid)) :
    p.Tells t.ledger mid ∧ p.AgreesOnFinal (view t.ledger.store) (view mid.store) :=
  tells_of_resume? sound (respectsFinal_confirming h) h.2 moved

theorem IsWatching.goesOn {next : Work} (sound : Sound t.ledger.store)
    (h : p.IsWatching (view t.ledger.store) (.observing live work))
    (moved : work.resume? p.session t.ledger answer = some (.waits next, mid)) :
    p.IsWatching (view mid.store) (.observing live next) := by
  obtain ⟨first, rfl, observes, held⟩ := h
  obtain ⟨header, ends, -⟩ := Work.resume?_waits moved
  refine ⟨first, header, ends ▸ observes, fun written => ?_⟩
  rcases Work.holds_of_waits sound moved written (ends ▸ observes) with ⟨before, kept⟩ | held'
  · rw [kept]
    exact held before
  · exact header ▸ held'

theorem IsWatching.begun {target : Header} (h : p.IsWatching (view t.ledger.store) (.fetchingTarget live))
    (numbered : target.number = live.number - p.session.threshold)
    (begun : Work.confirm t.ledger target = (.waits work, mid)) :
    p.IsWatching (view mid.store) (.confirming live work) := by
  obtain ⟨on, confirms, -⟩ := Work.confirm_waits begun
  have yet := not_isFinal_target h.1 h.2
  rw [← numbered, ← on] at yet
  exact ⟨confirms, yet⟩

end Watch

/-- A step of the watch preserves the blocks that were final before the first live one, and reports none
of them as seen. -/
theorem watched_of_taskStep {point : WatchPoint} (sound : Sound t.ledger.store)
    (stands : p.IsWatching (view t.ledger.store) point)
    (late : ∀ {live : Header}, answer = .arrival (some (.ok live)) → p.first ≤ live.number)
    (numbered : ∀ {number : UInt64} {header : Header}, point.wait p.session = .node (.header number) →
      answer = .header (.ok header) → header.number = number)
    (turn : t.TaskStep (.watching p.session point) answer mid next new) :
    new = [] ∧ p.Tells t.ledger mid ∧ p.IsAt (view mid.store) actions phase p.watch next ∧
      p.AgreesOnFinal (view t.ledger.store) (view mid.store) := by
  cases turn with
  | rest free retired => exact ⟨rfl, .refl, isAt_of_isRetired retired, fun _ _ => rfl⟩
  | retire under moved _ retired =>
      cases point with
      | observing live work =>
          cases under
          obtain ⟨tells, same⟩ := stands.observed sound moved
          exact ⟨rfl, tells, isAt_of_isRetired retired, same⟩
      | confirming live work =>
          cases under
          obtain ⟨tells, same⟩ := stands.confirmed sound moved
          exact ⟨rfl, tells, isAt_of_isRetired retired, same⟩
      | _ => cases under
  | subscribe | listen => exact ⟨rfl, .refl, ⟨rfl, rfl, trivial⟩, fun _ _ => rfl⟩
  | meet begun =>
      obtain ⟨on, observes, fresh⟩ := Work.observe_waits begun
      refine ⟨rfl, ⟨[_], rfl, ?_⟩, ⟨rfl, rfl, late rfl, on, observes, by simp [fresh]⟩, fun _ _ => rfl⟩
      exact fun signal mem => List.mem_singleton.mp mem ▸ trivial
  | fall =>
      refine ⟨rfl, ⟨[_], rfl, ?_⟩, trivial, fun _ _ => rfl⟩
      exact fun signal mem => List.mem_singleton.mp mem ▸ trivial
  | observe moved =>
      obtain ⟨tells, same⟩ := stands.observed sound moved
      exact ⟨rfl, tells, ⟨rfl, rfl, stands.goesOn sound moved⟩, same⟩
  | target moved final =>
      obtain ⟨tells, same⟩ := stands.observed sound moved
      exact ⟨rfl, tells, ⟨rfl, rfl, stands.1, final⟩, same⟩
  | pass moved =>
      obtain ⟨tells, same⟩ := stands.observed sound moved
      exact ⟨rfl, tells, ⟨rfl, rfl, trivial⟩, same⟩
  | confirm begun =>
      have quiet := Work.quiet_confirm begun
      exact ⟨rfl, tells_of_quiet quiet, ⟨rfl, rfl, stands.begun (numbered rfl rfl) begun⟩,
        fun _ _ => by rw [quiet.store]⟩
  | promote moved =>
      obtain ⟨tells, same⟩ := stands.confirmed sound moved
      obtain ⟨header, ends, -⟩ := Work.resume?_waits moved
      exact ⟨rfl, tells, ⟨rfl, rfl, ends ▸ stands.1, header ▸ stands.2⟩, same⟩
  | confirmed moved =>
      obtain ⟨tells, same⟩ := stands.confirmed sound moved
      exact ⟨rfl, tells, ⟨rfl, rfl, trivial⟩, same⟩

theorem idle_of_isRetired (retired : next.isRetired) : next.work? = none ∧ next.asks? = none := by
  cases next with
  | starting context point =>
      cases point with
      | stopping reason stop =>
          refine ⟨rfl, ?_⟩
          cases stop with
          | joining tasks => cases tasks <;> rfl
          | _ => rfl
      | _ => cases retired
  | stopping stop =>
      refine ⟨rfl, ?_⟩
      cases stop with
      | joining tasks => cases tasks <;> rfl
      | _ => rfl
  | watching | sweeping => cases retired
  | ended | crashed => exact ⟨rfl, rfl⟩

omit [BlockStore S] [PlainStore S] in
theorem beginWork_waits {session : Session} {last number : UInt64} {header : Header} {work : Work}
    (begun : t.beginWork session last number header = (.waits work, mid)) :
    work.header = header ∧ work.confirms = Tracker.isSettledBy session last number ∧ work.isWritten = false := by
  unfold Tracker.beginWork at begun
  cases settled : Tracker.isSettledBy session last number with
  | true =>
      rw [if_pos settled] at begun
      exact Work.confirm_waits begun
  | false =>
      rw [if_neg (by simp [settled])] at begun
      exact Work.observe_waits (congrArg Prod.fst begun)

/-- A step of the work of a backfill reports lawful signals only, and preserves the live blocks. -/
theorem IsSweeping.tells_of_resume? {number : UInt64} {work : Work} {progress : Progress}
    (h : p.IsSweeping (view t.ledger.store) actions (.working number work)) (sound : Sound t.ledger.store)
    (moved : work.resume? p.session t.ledger answer = some (progress, mid)) :
    p.Tells t.ledger mid ∧ Sound mid.store ∧ p.AgreesOnLive (view t.ledger.store) (view mid.store) := by
  have treats := Work.treats_of_resume? sound moved
  have spares := respectsFinal_working h
  obtain ⟨⟨-, below⟩, on, -⟩ := h
  exact ⟨tells_of_treats treats spares, treats.sound, agreesOnLive_of_treats treats (on ▸ below)⟩

/-- A backfill that neither works nor requests takes no further action. -/
theorem actions_of_isRetired {point : SweepPoint} {session : Session} {last : UInt64}
    (free : (Task.sweeping session last point).work? = none) (retired : next.isRetired) :
    actions ++ (point.actions answer next.work? ++ next.asks?.toList) = actions := by
  obtain ⟨idle, silent⟩ := idle_of_isRetired retired
  rw [idle, silent]
  cases point with
  | launched | fetching => exact List.append_nil _
  | working number work => cases free

/-- A step of the backfill extends its trace, preserves the live blocks, and reports no final one as seen. -/
theorem swept_of_taskStep {point : SweepPoint} {last : UInt64} (sound : Sound t.ledger.store)
    (bound : last.toNat + 1 = p.first.toNat) (mine : phase = some id)
    (stands : p.IsSweeping (view t.ledger.store) actions point)
    (numbered : ∀ {number : UInt64} {header : Header}, point.wait = .node (.header number) →
      answer = .header (.ok header) → header.number = number)
    (turn : t.TaskStep (.sweeping p.session last point) answer mid next new) :
    new = [] ∧ p.Tells t.ledger mid ∧
      p.IsPartialTrace (actions ++ (point.actions answer next.work? ++ next.asks?.toList)) ∧
      p.IsAt (view mid.store) (actions ++ (point.actions answer next.work? ++ next.asks?.toList)) phase id next ∧
      p.AgreesOnLive (view t.ledger.store) (view mid.store) := by
  -- only the points of a backfill constrain the trace
  have placed (next : SweepPoint) (stands : p.IsSweeping (view mid.store)
      (actions ++ (point.actions answer (Task.sweeping p.session last next).work? ++
        (Task.sweeping p.session last next).asks?.toList)) next) :=
    And.intro stands.isPartialTrace
      (show p.IsAt _ _ phase id (.sweeping p.session last next) from ⟨mine, rfl, bound, stands⟩)
  cases turn with
  | rest free retired =>
      rw [actions_of_isRetired free retired]
      exact ⟨rfl, .refl, stands.isPartialTrace, isAt_of_isRetired retired, fun _ _ => rfl⟩
  | retire under moved _ retired =>
      cases point with
      | working number work =>
          cases under
          obtain ⟨tells, -, same⟩ := stands.tells_of_resume? sound moved
          have cut := stands.isPartialTrace_worked moved next.work?
          rw [(idle_of_isRetired retired).2, Option.toList_none, List.append_nil]
          exact ⟨rfl, tells, cut, isAt_of_isRetired retired, same⟩
      | _ => cases under
  | sweep some below =>
      obtain ⟨rfl, rfl⟩ := stands
      have low := UInt64.le_iff_toNat_le.mp below
      have less : p.lowest < p.first := UInt64.lt_iff_toNat_lt.mpr (by omega)
      obtain ⟨cut, stands⟩ := placed (.fetching p.lowest) (isSweeping_lowest less _)
      exact ⟨rfl, .refl, cut, stands, fun _ _ => rfl⟩
  | @begin _ _ number header work _ begun =>
      have quiet := Tracker.quiet_beginWork begun
      obtain ⟨rfl, confirms, fresh⟩ := beginWork_waits begun
      have on := numbered rfl rfl
      have final := confirms.trans (isSettledBy_eq bound number)
      have stands := placed (.working number work) ((quiet.store ▸ stands).begun on final fresh)
      exact ⟨rfl, tells_of_quiet quiet, stands.1, stands.2, fun _ _ => by rw [quiet.store]⟩
  | work moved =>
      obtain ⟨tells, after, same⟩ := stands.tells_of_resume? sound moved
      have stands := placed (.working _ _) (stands.goesOn sound after moved)
      exact ⟨rfl, tells, stands.1, stands.2, same⟩
  | next moved less =>
      obtain ⟨tells, -, same⟩ := stands.tells_of_resume? sound moved
      have below := UInt64.lt_iff_toNat_lt.mp less
      have stands := placed (.fetching _) (stands.asksNext moved (by omega) none _)
      exact ⟨rfl, tells, stands.1, stands.2, same⟩

end Turns

/-! ## Runs -/

section Run

variable {S : Type} [BlockStore S] [PlainStore S]

/-- The runs before the sweep are over, and its first live block is the expected one. -/
structure RunFacts (p : Sweep S) (t : Tracker S) : Prop where
  history : Reaches Orderly (make p.settings p.store) t
  bound : p.run < t.runs.length
  stale : ∀ {run : Nat}, run < p.run → t.isOver run
  met : ∀ {number : UInt64}, t.first p.run = .arrived number → number = p.first

/-- The state of a sweep with these actions; `phase` is the task of its backfill once it is launched. -/
structure Invariant (p : Sweep S) (actions : List SweepAction) (phase : Option Nat) (t : Tracker S) : Prop
    extends p.RunFacts t where
  told : p.Tells p.launched.ledger t.ledger
  cut : p.IsPartialTrace actions
  early : phase = none → actions = []
  stands : ∀ {id : Nat} {task : Task}, t.tasks[id]? = some task →
    p.IsAt (view t.ledger.store) actions phase id task
  swept : ∀ {id : Nat}, phase = some id → ∃ task, t.tasks[id]? = some task ∧
    p.IsBackfill actions (t.isOver p.run) task

variable {p : Sweep S} {t u : Tracker S} {m : Move} {id : Nat} {answer : Answer} {task next : Task}
  {actions more : List SweepAction} {phase : Option Nat} {mid : Ledger S}

/-! ### At the launch -/

variable (p) in
theorem move_launched : p.tracker.move? (.resume p.starter (.stored none)) = some p.launched := by
  simp only [Tracker.move?, Tracker.resume?, p.found, Tracker.resumeStart?, p.read]
  rfl

variable (p) in
theorem runFacts_launched : p.RunFacts p.launched := by
  have history : Reaches Orderly (make p.settings p.store) p.launched :=
    .move (m := .resume p.starter (.stored none)) p.history trivial (move_launched p)
  have runs : p.launched.runs = p.tracker.runs ++ [⟨p.context, p.starter, p.watch, false, .awaited⟩] := by
    rw [Sweep.launched, Tracker.launch, if_pos p.starting]
    rfl
  have token : p.launched.life.token = some p.run := by
    rw [Sweep.launched, Tracker.launch, if_pos p.starting]
    rfl
  have count : p.launched.life.runs.length = p.run + 1 := by simp [Tracker.life, runs, run]
  refine ⟨history, by simp [runs, run], fun {earlier} before => ?_, fun {number} arrived => ?_⟩
  · -- a run that is not halted is the one that a stop would cancel
    have found := List.getElem?_eq_getElem (show earlier < p.launched.life.runs.length by omega)
    rw [← Tracker.isOver_life, Life.isOver, found]
    rcases (Tracker.life_sound_of_orderly p.settings p.store history).halted found with halted | latest
    · simp [halted]
    · cases token.symm.trans latest
      omega
  · rw [Tracker.first, runs, run, List.getElem?_concat_length] at arrived
    cases arrived

variable (p) in
theorem invariant_launched : p.Invariant [] none p.launched := by
  have tasks : p.launched.tasks = (p.tracker.tasks ++ [Task.watching p.session .launched]).set p.starter
      (.starting p.context (.awaitingFirst p.session p.lowest)) := by
    rw [Sweep.launched, Tracker.launch, if_pos p.starting]
    rfl
  have sound := Tracker.life_sound_of_orderly p.settings p.store p.history
  have deciding : p.tracker.life.roles[p.starter]? = some .undecided := by
    rw [Tracker.life_roles, p.found]
    rfl
  refine ⟨runFacts_launched p, .refl, isPartialTrace_nil, fun _ => rfl,
    fun {id task} found => ?_, fun launched => by cases launched⟩
  rw [tasks] at found
  by_cases same : id = p.starter
  · subst same
    have bound := (List.getElem?_eq_some_iff.mp p.found).1
    rw [List.getElem?_set_self (by simp; omega)] at found
    cases found
    exact Or.inr ⟨rfl, rfl, rfl, rfl⟩
  · rw [List.getElem?_set_ne (Ne.symm same)] at found
    rcases found_append_singleton found with old | ⟨rfl, rfl⟩
    · have plays : p.tracker.life.roles[id]? = some task.role := by rw [Tracker.life_roles, old, Option.map_some]
      cases task with
      | starting context point =>
          cases point with
          | askingChain | readingHeight => exact (same (sound.decider plays deciding)).elim
          | awaitingFirst session lowest => exact Or.inl (Tracker.lt_of_awaitingFirst p.history old)
          | launched | stopping => trivial
      | watching | sweeping => exact ((sound.undecided deciding).2.2.2 plays).elim
      | stopping | ended | crashed => trivial
    · exact ⟨rfl, rfl, trivial⟩

/-! ### During the run -/

theorem orderly_of_allows (allowed : p.Allows t m) : t.Orderly m := by
  cases m with
  | resume id answer =>
      cases answer with
      | go =>
          rintro ⟨context, called⟩ idle
          exact (allowed.1 idle context called).elim
      | _ => trivial
  | _ => trivial

theorem number_of_allows (allowed : p.Allows t (.resume id answer)) (found : t.tasks[id]? = some task)
    {wait : Wait} (waits : task.wait? = some wait) {number : UInt64} {header : Header}
    (asks : wait = .node (.header number)) : answer = .header (.ok header) → header.number = number := by
  apply allowed.2.1
  rw [Tracker.wait?, found, Option.bind_some, waits, asks]

theorem RunFacts.sound (h : p.RunFacts t) : Sound t.ledger.store :=
  h.history.invariant (P := fun t => Sound t.ledger.store) p.sound fun sound _ moved => Tracker.sound_move? sound moved

/-- `IsBackfill` is monotone: a backfill that ended with its run or with a full trace stays so. -/
theorem IsBackfill.mono {ceased : Bool} (h : p.IsBackfill actions ceased task) {later : Bool} (grows : ceased → later) :
    p.IsBackfill actions later task := by
  cases task with
  | ended outcome => exact h.imp_left grows
  | starting | stopping | watching => cases h
  | sweeping | crashed => trivial

theorem RunFacts.move? (h : p.RunFacts t) (allowed : p.Allows t m) (moved : t.move? m = some u) : p.RunFacts u := by
  have orderly := orderly_of_allows allowed
  have steps := Tracker.steps_move? orderly moved
  refine ⟨.move h.history orderly moved, ?_, fun before => Tracker.isOver_steps steps (h.stale before), ?_⟩
  · have more := steps.precedes.length
    simp only [Tracker.life, List.length_map] at more
    exact Nat.lt_of_lt_of_le h.bound more
  · intro number arrived
    rcases Tracker.first_of_move? h.bound moved with same | ⟨awaited, missed | ⟨id, live, rfl, first⟩⟩
    · exact h.met (same ▸ arrived)
    · cases missed.symm.trans arrived
    · cases first.symm.trans arrived
      exact (allowed.2.2 rfl).2 awaited

omit [PlainStore S] in
theorem idle_of_asking {context : Context} (found : t.tasks[id]? = some (.starting context .launched))
    (moved : t.resume? id answer = some u) (asks : u.tasks[id]? = some (.starting context .askingChain)) :
    t.status = .idle := by
  simp only [Tracker.resume?, found] at moved
  unfold Tracker.resumeStart? at moved
  split at moved
  case h_1 =>
    split at moved
    · assumption
    · cases moved
      have here : (t.finish id (.error .alreadyRunning)).tasks[id]? = some (.ended _) :=
        Tracker.getElem?_tasks_put found
      cases here.symm.trans asks
  all_goals simp_all

namespace Invariant

theorem not_launched (h : p.Invariant actions phase t) (found : t.tasks[id]? = some task)
    (other : ¬p.IsBackfill actions (t.isOver p.run) task) : phase ≠ some id := by
  intro mine
  obtain ⟨there, found', backfill⟩ := h.swept mine
  cases found.symm.trans found'
  exact other backfill

theorem stepsTo (h : p.Invariant actions phase t) (facts : p.RunFacts u) (ceased : t.isOver p.run → u.isOver p.run)
    (found : t.tasks[id]? = some task) (stepsTo : t.StepsTo id mid next [] u) (told : p.Tells t.ledger mid)
    (cut : p.IsPartialTrace more) (stands : p.IsAt (view mid.store) more phase id next)
    (others : ∀ {j : Nat} {other : Task}, j ≠ id → p.IsAt (view t.ledger.store) actions phase j other →
      p.IsAt (view mid.store) more phase j other)
    (mine : phase = some id → p.IsBackfill more (u.isOver p.run) next) (same : phase ≠ some id → more = actions) :
    p.Invariant more phase u := by
  have store := stepsTo.quiet.store
  refine ⟨facts, h.told.trans (told.trans (tells_of_quiet stepsTo.quiet)), cut, ?_, ?_, ?_⟩
  · intro none
    rw [same (by simp [none])]
    exact h.early none
  · intro j other there
    rw [store]
    rcases stepsTo.cases there with ⟨rfl, rfl⟩ | ⟨differ, old⟩ | new | ⟨point, rfl⟩
    · exact stands
    · exact others differ (h.stands old)
    · cases new
    · trivial
  · intro j launched
    by_cases mover : j = id
    · subst mover
      exact ⟨next, stepsTo.here found, mine launched⟩
    · have unmoved : phase ≠ some id := by simp [launched, mover]
      obtain ⟨other, old, backfill⟩ := h.swept launched
      rw [same unmoved]
      exact ⟨other, stepsTo.kept mover old, backfill.mono ceased⟩

theorem stirred {new : List Task} (h : p.Invariant actions phase t) (facts : p.RunFacts u)
    (ceased : t.isOver p.run → u.isOver p.run) (spawnsTasks : t.SpawnsTasks t.ledger new u)
    (called : ∀ task ∈ new, task.isCalled) : p.Invariant actions phase u := by
  refine ⟨facts, h.told.trans (tells_of_quiet spawnsTasks.quiet), h.cut, h.early, fun {id task} there => ?_,
    fun {id} launched => ?_⟩
  · rw [spawnsTasks.quiet.store]
    rcases spawnsTasks.cases there with old | new | ⟨point, rfl⟩
    · exact h.stands old
    · exact isAt_of_isCalled (called task new)
    · trivial
  · obtain ⟨task, old, backfill⟩ := h.swept launched
    exact ⟨task, spawnsTasks.kept old, backfill.mono ceased⟩

/-! ### Steps of the tasks -/

theorem over_resumed (allowed : p.Allows t m) (moved : t.move? m = some u) {run : Nat} (ceased : t.isOver run) :
    u.isOver run :=
  Tracker.isOver_steps (Tracker.steps_move? (orderly_of_allows allowed) moved) ceased

section Resume

variable (h : p.Invariant actions phase t) (allowed : p.Allows t (.resume id answer))
  (moved : t.move? (.resume id answer) = some u)
include h allowed moved

theorem rest (found : t.tasks[id]? = some task) (other : ¬p.IsBackfill actions (t.isOver p.run) task)
    (retired : next.isRetired) (stepsTo : t.StepsTo id t.ledger next [] u) : p.Invariant actions phase u :=
  h.stepsTo (h.toRunFacts.move? allowed moved) (over_resumed allowed moved) found stepsTo .refl h.cut
    (isAt_of_isRetired retired) (fun _ stands => stands) (fun mine => (h.not_launched found other mine).elim)
    fun _ => rfl

theorem stop {point : StopPoint} (found : t.tasks[id]? = some (.stopping point)) : p.Invariant actions phase u := by
  obtain ⟨task, found', mid, next, new, turn, stepsTo⟩ := Tracker.takesStep_resume? moved
  cases found.symm.trans found'
  cases turn with
  | rest free retired => exact rest h allowed moved found (fun none => none) retired stepsTo
  | retire under => cases under

theorem watch {session : Session} {point : WatchPoint} (found : t.tasks[id]? = some (.watching session point)) :
    p.Invariant actions phase u := by
  obtain ⟨task, found', mid, next, new, turn, stepsTo⟩ := Tracker.takesStep_resume? moved
  cases found.symm.trans found'
  obtain ⟨rfl, rfl, stands⟩ := h.stands found
  obtain ⟨rfl, tells, stands, same⟩ :=
    watched_of_taskStep h.sound stands (fun met => (allowed.2.2 met).1) (number_of_allows allowed found rfl) turn
  exact h.stepsTo (h.toRunFacts.move? allowed moved) (over_resumed allowed moved) found stepsTo tells h.cut stands
    (fun differ stands => stands.watched differ same)
    (fun mine => (h.not_launched found (fun none => none) mine).elim) fun _ => rfl

theorem start {context : Context} {point : StartPoint} (found : t.tasks[id]? = some (.starting context point)) :
    ∃ later, p.Invariant actions later u ∧ ∀ {place : Nat}, phase = some place → later = some place := by
  obtain ⟨task, found', mid, next, new, turn, stepsTo⟩ := Tracker.takesStep_resume? moved
  cases found.symm.trans found'
  have orderly := orderly_of_allows allowed
  cases turn with
  | rest free retired =>
      exact ⟨phase, rest h allowed moved found (fun none => none) retired stepsTo, fun mine => mine⟩
  | retire under => cases under
  | ask => exact (allowed.1 (idle_of_asking found moved (stepsTo.here found)) _ found).elim
  | name | launch => exact (h.stands found).elim
  | @launchSweep session _ lowest first arrived =>
      have bound := (List.getElem?_eq_some_iff.mp found).1
      have placed := stepsTo.launched bound
      rcases h.stands found with before | ⟨rfl, rfl, rfl, rfl⟩
      · -- no loop joins a run that is over
        have ended := (t.isOver_life _).trans (h.stale before)
        have known : session.run < t.life.runs.length := by
          have bound := h.bound
          simp only [Tracker.life, List.length_map]
          omega
        have looping : u.life.roles[t.tasks.length]? = some (.looping session.run) := by
          rw [Tracker.life_roles, placed]
          rfl
        have old := (Tracker.steps_move? orderly moved).loop_of_over known ended looping
        rw [Tracker.life_roles, List.getElem?_eq_none (Nat.le_refl _)] at old
        cases old
      · have late := p.two_le_first
        have last := Tracker.lastBefore_toNat first
        rw [h.met arrived] at last
        refine ⟨some t.tasks.length,
          ⟨h.toRunFacts.move? allowed moved, h.told.trans (tells_of_quiet stepsTo.quiet), h.cut,
          by simp, fun {j other} there => ?_, fun {j} launched => ?_⟩, by simp⟩
        · rw [stepsTo.quiet.store]
          rcases stepsTo.cases_launched there with ⟨rfl, rfl⟩ | ⟨differ, old⟩ | ⟨rfl, rfl⟩ | ⟨point, rfl⟩
          · trivial
          · exact (h.stands old).launched differ _
          · refine ⟨rfl, rfl, ?_, rfl, h.early rfl⟩
            rw [h.met arrived]
            omega
          · trivial
        · cases launched
          exact ⟨_, placed, trivial⟩

variable [HookedStore S]

/-- A step of the backfill extends its trace, and ends it only with its run or with its last block. -/
theorem sweep {session : Session} {last : UInt64} {point : SweepPoint}
    (found : t.tasks[id]? = some (.sweeping session last point)) :
    p.Invariant (actions ++ t.actions (.resume id answer) u) phase u := by
  obtain ⟨task, found', mid, next, new, turn, stepsTo⟩ := Tracker.takesStep_resume? moved
  cases found.symm.trans found'
  obtain ⟨mine, rfl, bound, stands⟩ := h.stands found
  have here := stepsTo.here found
  obtain ⟨rfl, tells, cut, stands', same⟩ :=
    swept_of_taskStep h.sound bound mine stands (number_of_allows allowed found rfl) turn
  rw [Tracker.actions_resume found moved here]
  refine h.stepsTo (h.toRunFacts.move? allowed moved) (over_resumed allowed moved) found stepsTo tells cut stands'
    (fun differ stands => stands.swept mine differ same) (fun _ => ?_) fun other => (other mine).elim
  have stepped := Tracker.resumeSweep?_of_resume? found moved
  obtain ⟨there, here', continues⟩ := Tracker.continuesSweep_of_resumeSweep? found stepped
  cases here.symm.trans here'
  cases next with
  | sweeping | crashed => trivial
  | starting | stopping | watching => cases continues
  | ended outcome =>
      have stopInv := Tracker.stopInvariant_of_orderly h.history
      rcases Tracker.ends_of_resumeSweep? stopInv found stepped here with
        ceased | ⟨lowest, rfl, nothing⟩ | ⟨number, work, ledger, rfl, worked, done⟩
      · exact Or.inl ceased
      · obtain ⟨rfl, rfl⟩ := stands
        right
        apply isFullTrace_nil
        rw [UInt64.le_iff_toNat_le]
        rcases nothing with rfl | below
        · have late := p.two_le_first
          rw [UInt64.toNat_zero] at bound
          omega
        · have below := UInt64.lt_iff_toNat_lt.mp below
          omega
      · right
        have high := UInt64.lt_iff_toNat_lt.mp stands.1.2
        have last := UInt64.le_iff_toNat_le.mp (UInt64.not_lt.mp done)
        have walked := stands.isFullTrace worked (by omega) (Task.ended outcome).work?
        rw [← List.append_nil (SweepPoint.actions _ _ _)] at walked
        exact walked

/-- Every resumed task preserves the invariant of the sweep. -/
theorem resumed : ∃ later, p.Invariant (actions ++ t.actions (.resume id answer) u) later u ∧
    ∀ {place : Nat}, phase = some place → later = some place := by
  obtain ⟨task, found, -⟩ := Tracker.takesStep_resume? moved
  have still (other : ∀ session last point, task ≠ .sweeping session last point) :
      actions ++ t.actions (.resume id answer) u = actions := by
    rw [Tracker.actions_of_other, List.append_nil]
    intro id answer same session last point there
    cases same
    exact other session last point (Option.some.inj (found.symm.trans there))
  cases task with
  | starting context point =>
      rw [still (by simp)]
      exact start h allowed moved found
  | stopping point =>
      rw [still (by simp)]
      exact ⟨phase, stop h allowed moved found, fun mine => mine⟩
  | watching session point =>
      rw [still (by simp)]
      exact ⟨phase, watch h allowed moved found, fun mine => mine⟩
  | sweeping session last point => exact ⟨phase, sweep h allowed moved found, fun mine => mine⟩
  | ended | crashed =>
      simp only [Tracker.move?, Tracker.resume?, found] at moved
      cases moved

end Resume

variable [HookedStore S]

theorem move? (h : p.Invariant actions phase t) (allowed : p.Allows t m) (moved : t.move? m = some u) :
    ∃ later, p.Invariant (actions ++ t.actions m u) later u ∧ ∀ {place : Nat}, phase = some place →
      later = some place := by
  have called (other : ∀ id answer, m ≠ .resume id answer) (still : t.actions m u = []) :
      ∃ later, p.Invariant (actions ++ t.actions m u) later u ∧ ∀ {place : Nat}, phase = some place →
        later = some place := by
    rcases Tracker.takesStep_or_spawnsTasks_of_move? moved with ⟨id, answer, task, resumed, -⟩ |
      ⟨new, spawnsTasks, called⟩
    · exact (other id answer resumed).elim
    · rw [still, List.append_nil]
      exact ⟨phase, h.stirred (h.toRunFacts.move? allowed moved) (over_resumed allowed moved) spawnsTasks called,
        fun mine => mine⟩
  cases m with
  | resume id answer => exact resumed h allowed moved
  | _ => exact called (by simp) rfl

/-- The invariant of the sweep holds throughout a history. -/
theorem traces (h : p.Invariant actions phase t) (trace : Traces p.Allows t more u) :
    ∃ later, p.Invariant (actions ++ more) later u ∧ ∀ {place : Nat}, phase = some place → later = some place := by
  induction trace with
  | refl => exact ⟨phase, by rwa [List.append_nil], fun mine => mine⟩
  | move _ allowed moved ih =>
      obtain ⟨between, kept, stays⟩ := ih
      obtain ⟨later, kept, stays'⟩ := kept.move? allowed moved
      rw [← List.append_assoc]
      exact ⟨later, kept, fun mine => stays' (stays mine)⟩

end Invariant

end Run

end Sweep

end Chainwatch
