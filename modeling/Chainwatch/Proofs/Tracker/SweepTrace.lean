import Chainwatch.Proofs.Tracker.Advance
import Chainwatch.Proofs.Tracker.LoopEnd
import Chainwatch.Proofs.Tracker.Settling
import Chainwatch.Proofs.Tracker.SweepActions
import Chainwatch.Proofs.Tracker.Treatment

/-!
# The trace of a backfill

A backfill goes through the blocks below the first live one in ascending order, and finishes each before
it requests the next. This module defines its full trace, the parts of it that occur, and the points of
the backfill and the watch meanwhile.
-/

namespace Chainwatch

open PlainStore (Sound view)
open Tracker (Reaches Orderly make)

/-- A run that is about to be launched, and the number of its first live block. -/
structure Sweep (S : Type) [BlockStore S] [PlainStore S] where
  settings : TrackerSettings
  store : S
  tracker : Tracker S
  context : Context
  starter : Nat
  chain : UInt64
  height : UInt64
  first : UInt64
  sound : Sound store
  history : Reaches Orderly (make settings store) tracker
  starting : tracker.status = .starting
  found : tracker.tasks[starter]? = some (.starting context (.readingHeight chain))
  read : tracker.ledger.height none chain = .ok height
  late : 2 ≤ first

namespace Sweep

section Plan

variable {S : Type} [BlockStore S] [PlainStore S] (p : Sweep S)

def run : Nat := p.tracker.runs.length

def watch : Nat := p.tracker.tasks.length

def session : Session where
  run := p.run
  chain := p.chain
  threshold := p.tracker.settings.threshold p.chain

/-- The lowest block of the backfill. -/
def lowest : UInt64 := Tracker.resumeHeight p.tracker.startHeight p.height

def launched : Tracker S := p.tracker.launch p.starter p.context p.chain p.height

/-- The block is final once the last block before the first live one is known. -/
def IsFinal (number : Nat) : Prop :=
  number + p.session.threshold.toNat ≤ p.first.toNat - 1

theorem two_le_first : 2 ≤ p.first.toNat :=
  UInt64.le_iff_toNat_le.mp p.late

instance (number : Nat) : Decidable (p.IsFinal number) :=
  inferInstanceAs (Decidable (_ ≤ _))

/-- No other run is launched, the node replies with headers of the requested number, the first live
block of the run is the expected one, and no live block is below it. -/
def Allows (t : Tracker S) : Move → Prop
  | .resume id answer =>
      (t.status = .idle → ∀ context, t.tasks[id]? ≠ some (.starting context .launched)) ∧
      (∀ {number : UInt64} {header : Header}, t.wait? id = some (.node (.header number)) →
        answer = .header (.ok header) → header.number = number) ∧
      ∀ {live : Header}, answer = .arrival (some (.ok live)) →
        p.first ≤ live.number ∧ (t.first p.run = .awaited → live.number = p.first)
  | _ => True

/-- The signal is no seen notice of a final block. -/
def IsLawful : Signal → Prop
  | .head head => p.IsFinal head.number.toNat → head.state = .confirmed
  | .event event => p.IsFinal event.blockNumber.toNat → event.state = .confirmed
  | _ => True

/-- The block lies from the lowest on and below the first live one. -/
def Covers (number : UInt64) : Prop :=
  p.lowest ≤ number ∧ number < p.first

/-! ## Traces -/

/-- The actions for one block after its header: requests for its logs, and writes. -/
def IsBlockWork (number : Nat) (blockWork : List SweepAction) : Prop :=
  ∀ action ∈ blockWork, action = .look number number ∨ action = .write number

/-- The work on each block is block work that includes a write. -/
def AreBlockWork (blockWork : Nat → List SweepAction) : Prop :=
  ∀ number, IsBlockWork number (blockWork number) ∧ .write number ∈ blockWork number

/-- The actions for one block: requesting its header, taking it to confirm it if it is final, and its work. -/
def block (blockWork : Nat → List SweepAction) (number : Nat) : List SweepAction :=
  .ask number :: .take number (p.IsFinal number) :: blockWork number

/-- The actions for the blocks from the lowest on and below a number. -/
def traceUpTo (blockWork : Nat → List SweepAction) (number : Nat) : List SweepAction :=
  (List.range' p.lowest.toNat (number - p.lowest.toNat)).flatMap (p.block blockWork)

/-- The actions for all blocks below the first live one. -/
def fullTrace (blockWork : Nat → List SweepAction) : List SweepAction :=
  p.traceUpTo blockWork p.first.toNat

/-- The actions are a beginning of a full trace. -/
def IsPartialTrace (actions : List SweepAction) : Prop :=
  ∃ blockWork, AreBlockWork blockWork ∧ actions <+: p.fullTrace blockWork

/-- The actions are a full trace. -/
def IsFullTrace (actions : List SweepAction) : Prop :=
  ∃ blockWork, AreBlockWork blockWork ∧ actions = p.fullTrace blockWork

variable {p} {blockWork : Nat → List SweepAction} {number : Nat} {done actions : List SweepAction}

theorem IsBlockWork.append {more : List SweepAction} (h : IsBlockWork number done) (g : IsBlockWork number more) :
    IsBlockWork number (done ++ more) := by
  intro action mem
  rcases List.mem_append.mp mem with mem | mem
  · exact h action mem
  · exact g action mem

theorem traceUpTo_lowest (blockWork : Nat → List SweepAction) : p.traceUpTo blockWork p.lowest.toNat = [] := by
  simp [traceUpTo]

theorem traceUpTo_succ (low : p.lowest.toNat ≤ number) (blockWork : Nat → List SweepAction) :
    p.traceUpTo blockWork (number + 1) = p.traceUpTo blockWork number ++ p.block blockWork number := by
  have count : number + 1 - p.lowest.toNat = (number - p.lowest.toNat) + 1 := by omega
  have place : p.lowest.toNat + (number - p.lowest.toNat) = number := by omega
  rw [traceUpTo, traceUpTo, count, List.range'_1_concat, List.flatMap_append, place, List.flatMap_singleton]

theorem traceUpTo_mono {more : Nat} (le : number ≤ more) (blockWork : Nat → List SweepAction) :
    p.traceUpTo blockWork number <+: p.traceUpTo blockWork more := by
  induction more with
  | zero =>
      cases Nat.le_zero.mp le
      exact List.prefix_rfl
  | succ more ih =>
      rcases Nat.lt_or_eq_of_le le with less | rfl
      · by_cases low : p.lowest.toNat ≤ more
        · rw [traceUpTo_succ low]
          exact (ih (Nat.le_of_lt_succ less)).trans (List.prefix_append _ _)
        · have none : number - p.lowest.toNat = 0 := by omega
          simp [traceUpTo, none]
      · exact List.prefix_rfl

theorem traceUpTo_update (blockWork : Nat → List SweepAction) (number : Nat) (done : List SweepAction) :
    p.traceUpTo (Function.update blockWork number done) number = p.traceUpTo blockWork number := by
  apply List.flatMap_congr
  intro other mem
  obtain ⟨low, below⟩ := List.mem_range'_1.mp mem
  have differ : other ≠ number := by omega
  rw [block, block, Function.update_of_ne differ]

theorem AreBlockWork.update (h : AreBlockWork blockWork) (does : IsBlockWork number done)
    (writes : .write number ∈ done) : AreBlockWork (Function.update blockWork number done) := by
  intro other
  by_cases same : other = number
  · subst same
    rw [Function.update_self]
    exact ⟨does, writes⟩
  · rw [Function.update_of_ne same]
    exact h other

/-- The trace up to a number extends by the finished work on the block of that number. -/
theorem exists_traceUpTo_succ (low : p.lowest.toNat ≤ number) (allBlockWork : AreBlockWork blockWork)
    (does : IsBlockWork number done) (writes : .write number ∈ done) : ∃ next, AreBlockWork next ∧
      p.traceUpTo next (number + 1) =
        p.traceUpTo blockWork number ++ .ask number :: .take number (p.IsFinal number) :: done := by
  refine ⟨Function.update blockWork number done, allBlockWork.update does writes, ?_⟩
  rw [traceUpTo_succ low, traceUpTo_update, block, Function.update_self]

/-- A backfill at a block below the first live one has a partial trace. -/
theorem isPartialTrace_of_block {number : UInt64} (covers : p.Covers number) (allBlockWork : AreBlockWork blockWork)
    (does : IsBlockWork number.toNat done)
    (cut : actions <+: .ask number.toNat :: .take number.toNat (p.IsFinal number.toNat) :: done) :
    p.IsPartialTrace (p.traceUpTo blockWork number.toNat ++ actions) := by
  have low := UInt64.le_iff_toNat_le.mp covers.1
  have high := UInt64.lt_iff_toNat_lt.mp covers.2
  have finished : IsBlockWork number.toNat (done ++ [SweepAction.write number.toNat]) :=
    does.append fun action mem => Or.inr (List.mem_singleton.mp mem)
  obtain ⟨next, allBlockWork, same⟩ :=
    exists_traceUpTo_succ low allBlockWork finished (List.mem_append_right _ (List.mem_singleton_self _))
  refine ⟨next, allBlockWork, List.IsPrefix.trans ?_ (traceUpTo_mono (Nat.succ_le_of_lt high) next)⟩
  rw [Nat.succ_eq_add_one, same]
  apply (List.prefix_append_right_inj _).mpr
  exact cut.trans (List.prefix_append _ [SweepAction.write number.toNat])

/-- Every list of block work extends to one that includes a write. -/
theorem areBlockWork_write : AreBlockWork fun number => [.write number] := by
  intro number
  exact ⟨fun action mem => Or.inr (List.mem_singleton.mp mem), List.mem_singleton_self _⟩

theorem isPartialTrace_nil : p.IsPartialTrace [] :=
  ⟨_, areBlockWork_write, List.nil_prefix⟩

theorem isFullTrace_nil (none : p.first ≤ p.lowest) : p.IsFullTrace [] := by
  have count : p.first.toNat - p.lowest.toNat = 0 := Nat.sub_eq_zero_of_le (UInt64.le_iff_toNat_le.mp none)
  refine ⟨_, areBlockWork_write, ?_⟩
  simp [fullTrace, traceUpTo, count]

/-! ### The two ranges of a trace -/

variable (p) in
/-- The blocks of the first range, `lowest..=split`. -/
def confirmedRange : List Nat :=
  match Tracker.split? p.session (Tracker.lastBefore p.first) with
  | some split => List.range' p.lowest.toNat (split.toNat + 1 - p.lowest.toNat)
  | none => []

variable (p) in
/-- The first block of the second range. The successor of the split saturates. -/
def seenFrom : Nat :=
  match Tracker.split? p.session (Tracker.lastBefore p.first) with
  | some split => max p.lowest.toNat (min (split.toNat + 1) (UInt64.size - 1))
  | none => p.lowest.toNat

variable (p) in
/-- The blocks of the second range, `seenFrom..=last`. -/
def seenRange : List Nat :=
  List.range' p.seenFrom ((Tracker.lastBefore p.first).toNat + 1 - p.seenFrom)

theorem split_toNat {split : UInt64} (h : Tracker.split? p.session (Tracker.lastBefore p.first) = some split) :
    split.toNat + p.session.threshold.toNat + 1 = p.first.toNat := by
  have late := p.two_le_first
  unfold Tracker.split? at h
  split at h
  · rename_i reached
    cases h
    have low := UInt64.le_iff_toNat_le.mp reached
    rw [Tracker.lastBefore_toNat] at low
    rw [UInt64.toNat_sub_of_le _ _ reached, Tracker.lastBefore_toNat]
    omega
  · cases h

theorem no_split (h : Tracker.split? p.session (Tracker.lastBefore p.first) = none) :
    p.first.toNat - 1 < p.session.threshold.toNat := by
  unfold Tracker.split? at h
  split at h
  · cases h
  · rename_i missed
    have missed := UInt64.lt_iff_toNat_lt.mp (UInt64.not_le.mp missed)
    rwa [Tracker.lastBefore_toNat] at missed

/-- The first live block is a 64-bit number, so the successor of the split never saturates and the
second range begins where the first one ends. -/
theorem range_eq_ranges :
    List.range' p.lowest.toNat (p.first.toNat - p.lowest.toNat) = p.confirmedRange ++ p.seenRange := by
  have late := p.two_le_first
  have size := p.first.toNat_lt
  have last : (Tracker.lastBefore p.first).toNat + 1 = p.first.toNat := by
    rw [Tracker.lastBefore_toNat]
    omega
  cases found : Tracker.split? p.session (Tracker.lastBefore p.first) with
  | none => simp only [confirmedRange, seenRange, seenFrom, found, last, List.nil_append]
  | some split =>
      have place := split_toNat found
      have begins : p.seenFrom = p.lowest.toNat + (split.toNat + 1 - p.lowest.toNat) := by
        simp only [seenFrom, found, UInt64.size]
        omega
      have count : p.first.toNat - p.lowest.toNat =
          (split.toNat + 1 - p.lowest.toNat) + (p.first.toNat - p.seenFrom) := by
        omega
      simp only [confirmedRange, seenRange, found, last]
      rw [count, ← List.range'_append_1, ← begins]

theorem isFinal_of_mem_confirmedRange (mem : number ∈ p.confirmedRange) : p.IsFinal number := by
  unfold confirmedRange at mem
  split at mem
  · rename_i split found
    have place := split_toNat found
    obtain ⟨low, high⟩ := List.mem_range'_1.mp mem
    unfold IsFinal
    omega
  · cases mem

theorem not_isFinal_of_mem_seenRange (mem : number ∈ p.seenRange) : ¬p.IsFinal number := by
  have late := p.two_le_first
  have size := p.first.toNat_lt
  obtain ⟨low, -⟩ := List.mem_range'_1.mp mem
  unfold IsFinal
  cases found : Tracker.split? p.session (Tracker.lastBefore p.first) with
  | none =>
      have missed := no_split found
      omega
  | some split =>
      have place := split_toNat found
      simp only [seenFrom, found, UInt64.size] at low
      omega

/-- The full trace is that of the two loops of a backfill: it confirms the blocks of the first range,
then observes those of the second. -/
theorem fullTrace_eq_ranges (blockWork : Nat → List SweepAction) :
    p.fullTrace blockWork =
      p.confirmedRange.flatMap (fun number => .ask number :: .take number true :: blockWork number) ++
        p.seenRange.flatMap (fun number => .ask number :: .take number false :: blockWork number) := by
  rw [fullTrace, traceUpTo, range_eq_ranges, List.flatMap_append]
  congr 1
  · apply List.flatMap_congr
    intro number mem
    simp only [block, isFinal_of_mem_confirmedRange mem, decide_true]
  · apply List.flatMap_congr
    intro number mem
    simp only [block, not_isFinal_of_mem_seenRange mem, decide_false]

/-! ### Requests of a trace -/

theorem IsBlockWork.asks (h : IsBlockWork number done) : done.filterMap SweepAction.asks? = [] := by
  apply List.filterMap_eq_nil_iff.mpr
  intro action mem
  rcases h action mem with rfl | rfl <;> rfl

theorem asks_traceUpTo (allBlockWork : AreBlockWork blockWork) (number : Nat) :
    (p.traceUpTo blockWork number).filterMap SweepAction.asks? =
      List.range' p.lowest.toNat (number - p.lowest.toNat) := by
  have once (number : Nat) : (p.block blockWork number).filterMap SweepAction.asks? = [number] := by
    simp only [block, List.filterMap_cons, SweepAction.asks?, (allBlockWork number).1.asks]
  simp only [traceUpTo, List.filterMap_flatMap, once, List.flatMap_singleton']

/-- A full trace requests each header once, in ascending order. -/
theorem IsFullTrace.asks (h : p.IsFullTrace actions) :
    actions.filterMap SweepAction.asks? = List.range' p.lowest.toNat (p.first.toNat - p.lowest.toNat) := by
  obtain ⟨blockWork, allBlockWork, rfl⟩ := h
  exact asks_traceUpTo allBlockWork _

theorem IsPartialTrace.asks (h : p.IsPartialTrace actions) :
    actions.filterMap SweepAction.asks? <+: List.range' p.lowest.toNat (p.first.toNat - p.lowest.toNat) := by
  obtain ⟨blockWork, allBlockWork, cut⟩ := h
  have asked := cut.filterMap SweepAction.asks?
  rw [fullTrace, asks_traceUpTo allBlockWork] at asked
  exact asked

theorem number_of_mem_block (allBlockWork : AreBlockWork blockWork) {action : SweepAction}
    (mem : action ∈ p.block blockWork number) : action.number = number := by
  rcases List.mem_cons.mp mem with rfl | mem
  · rfl
  rcases List.mem_cons.mp mem with rfl | mem
  · rfl
  rcases (allBlockWork number).1 action mem with rfl | rfl <;> rfl

theorem ask_mem_of_cut {numbers : List Nat} (allBlockWork : AreBlockWork blockWork)
    (cut : actions <+: numbers.flatMap (p.block blockWork)) {action : SweepAction} (mem : action ∈ actions) :
    .ask action.number ∈ actions := by
  induction numbers generalizing actions with
  | nil =>
      rw [List.prefix_nil.mp cut] at mem
      cases mem
  | cons number rest ih =>
      rw [List.flatMap_cons] at cut
      rcases List.prefix_or_prefix_of_prefix cut (List.prefix_append (p.block blockWork number) _) with within |
        ⟨more, rfl⟩
      · rw [number_of_mem_block allBlockWork (within.subset mem)]
        cases actions with
        | nil => cases mem
        | cons first others =>
            rw [(List.cons_prefix_cons.mp within).1]
            exact List.mem_cons_self
      · rcases List.mem_append.mp mem with here | later
        · rw [number_of_mem_block allBlockWork here]
          exact List.mem_append_left _ List.mem_cons_self
        · exact List.mem_append_right _ (ih ((List.prefix_append_right_inj _).mp cut) later)

/-- Every action for a block follows the request for its header. -/
theorem IsPartialTrace.ask_mem (h : p.IsPartialTrace actions) {action : SweepAction} (mem : action ∈ actions) :
    .ask action.number ∈ actions := by
  obtain ⟨blockWork, allBlockWork, cut⟩ := h
  exact ask_mem_of_cut allBlockWork cut mem

/-! ## Points of the tasks -/

variable (p)

/-- No final block has the hash. -/
def Unheld (v : View) (hash : String) : Prop :=
  ∀ number : UInt64, p.IsFinal number.toNat → ¬v.holds p.session.chain number hash

/-- The views have the same heads at the final blocks. -/
def AgreesOnFinal (v w : View) : Prop :=
  ∀ number : UInt64, p.IsFinal number.toNat →
    w.headAt? p.session.chain number = v.headAt? p.session.chain number

/-- The views have the same heads at the live blocks. -/
def AgreesOnLive (v w : View) : Prop :=
  ∀ number : UInt64, p.first ≤ number → w.headAt? p.session.chain number = v.headAt? p.session.chain number

/-- The points of a watch: it works on live blocks and on those that they make final. -/
def IsWatching (v : View) : WatchPoint → Prop
  | .launched | .subscribing | .listening => True
  | .observing live work =>
      p.first ≤ live.number ∧ work.header = live ∧ work.confirms = false ∧
        (work.isWritten → v.holds p.session.chain live.number live.hash)
  | .fetchingTarget live => p.first ≤ live.number ∧ p.session.threshold ≤ live.number
  | .confirming _ work => work.confirms ∧ ¬p.IsFinal work.header.number.toNat

/-- The points of a backfill with these actions. -/
def IsSweeping (v : View) (actions : List SweepAction) : SweepPoint → Prop
  | .launched lowest => lowest = p.lowest ∧ actions = []
  | .fetching number =>
      p.Covers number ∧ ∃ blockWork, AreBlockWork blockWork ∧
        actions = p.traceUpTo blockWork number.toNat ++ [.ask number.toNat]
  | .working number work =>
      p.Covers number ∧ work.header.number = number ∧ work.confirms = decide (p.IsFinal number.toNat) ∧
        (work.confirms = false → work.isWritten → p.Unheld v work.header.hash) ∧
        ∃ blockWork done, AreBlockWork blockWork ∧ IsBlockWork number.toNat done ∧
          (work.isWritten → .write number.toNat ∈ done) ∧
          actions = p.traceUpTo blockWork number.toNat ++
            .ask number.toNat :: .take number.toNat (p.IsFinal number.toNat) :: done

/-- The states of the task of a backfill: it ends only with its run, or with a full trace. -/
def IsBackfill (actions : List SweepAction) (ceased : Bool) : Task → Prop
  | .sweeping _ _ _ | .crashed => True
  | .ended _ => ceased ∨ p.IsFullTrace actions
  | .starting _ _ | .stopping _ | .watching _ _ => False

/-- The points of a task in a phase of the backfill, which is `none` until the launch. -/
def IsAt (v : View) (actions : List SweepAction) (phase : Option Nat) (id : Nat) : Task → Prop
  | .starting _ .askingChain | .starting _ (.readingHeight _) => False
  | .starting _ (.awaitingFirst session lowest) =>
      session.run < p.run ∨ id = p.starter ∧ session = p.session ∧ lowest = p.lowest ∧ phase = none
  | .watching session point => id = p.watch ∧ session = p.session ∧ p.IsWatching v point
  | .sweeping session last point =>
      phase = some id ∧ session = p.session ∧ last.toNat + 1 = p.first.toNat ∧ p.IsSweeping v actions point
  | .starting _ .launched | .starting _ (.stopping _ _) | .stopping _ | .ended _ | .crashed => True

variable {p} {v w : View} {phase : Option Nat} {id place : Nat} {task : Task} {more : List SweepAction} {hash : String}

theorem isAt_of_isRetired (retired : task.isRetired) : p.IsAt v actions phase id task := by
  cases task with
  | starting context point => cases point <;> trivial
  | stopping | ended | crashed => trivial
  | watching | sweeping => cases retired

theorem isAt_of_isCalled (called : task.isCalled) : p.IsAt v actions phase id task := by
  cases task with
  | starting context point => cases point <;> trivial
  | stopping => trivial
  | watching | sweeping | ended | crashed => cases called

theorem holds_congr {chain number : UInt64} (same : w.headAt? chain number = v.headAt? chain number) (hash : String) :
    w.holds chain number hash = v.holds chain number hash := by
  rw [View.holds, View.holds, same]

theorem Unheld.congr (h : p.Unheld v hash) (same : p.AgreesOnFinal v w) : p.Unheld w hash := by
  intro number final
  rw [holds_congr (same number final)]
  exact h number final

theorem unheld_of_holds (sound : v.Sound) {number : UInt64} (held : v.holds p.session.chain number hash)
    (yet : ¬p.IsFinal number.toNat) : p.Unheld v hash := by
  intro other final there
  rw [sound.hash_unique there held] at final
  exact yet final

/-- The first live block and those above it are not final before it is taken. -/
theorem not_isFinal_of_le {number : UInt64} (le : p.first ≤ number) : ¬p.IsFinal number.toNat := by
  have late := p.two_le_first
  have le := UInt64.le_iff_toNat_le.mp le
  unfold IsFinal
  omega

/-- The block made final by a live block was not final before. -/
theorem not_isFinal_target {live : UInt64} (le : p.first ≤ live) (deep : p.session.threshold ≤ live) :
    ¬p.IsFinal (live - p.session.threshold).toNat := by
  have late := p.two_le_first
  have le := UInt64.le_iff_toNat_le.mp le
  have target := RunAt.target_toNat deep
  unfold IsFinal
  omega

theorem IsAt.watched (h : p.IsAt v actions phase id task) (other : id ≠ p.watch) (same : p.AgreesOnFinal v w) :
    p.IsAt w actions phase id task := by
  cases task with
  | starting context point => cases point <;> exact h
  | watching session point => exact (other h.1).elim
  | sweeping session last point =>
      obtain ⟨place, own, bound, stands⟩ := h
      refine ⟨place, own, bound, ?_⟩
      cases point with
      | launched lowest => exact stands
      | fetching number => exact stands
      | working number work =>
          obtain ⟨covered, on, confirms, unheld, does⟩ := stands
          exact ⟨covered, on, confirms, fun observes written => (unheld observes written).congr same, does⟩
  | stopping | ended | crashed => trivial

theorem IsAt.swept (h : p.IsAt v actions phase id task) (sweep : phase = some place) (other : id ≠ place)
    (same : p.AgreesOnLive v w) : p.IsAt w more phase id task := by
  cases task with
  | starting context point => cases point <;> exact h
  | watching session point =>
      obtain ⟨here, own, stands⟩ := h
      refine ⟨here, own, ?_⟩
      cases point with
      | observing live work =>
          obtain ⟨late, on, observes, held⟩ := stands
          refine ⟨late, on, observes, fun written => ?_⟩
          rw [holds_congr (same live.number late)]
          exact held written
      | _ => exact stands
  | sweeping session last point =>
      have here := sweep.symm.trans h.1
      exact (other (Option.some.inj here).symm).elim
  | stopping | ended | crashed => trivial

theorem IsAt.launched (h : p.IsAt v actions none id task) (other : id ≠ p.starter) (place : Nat) :
    p.IsAt v actions (some place) id task := by
  cases task with
  | starting context point =>
      cases point with
      | awaitingFirst session lowest => exact Or.inl (h.resolve_right fun mine => other mine.1)
      | _ => exact h
  | watching session point => exact h
  | sweeping session last point => cases h.1
  | stopping | ended | crashed => trivial

/-! ## Work -/

variable {work next : Work} {answer : Answer} {signal : Signal}

variable (p) in
/-- The work confirms its block, or observes one that is not final with a hash that no final block has. -/
def RespectsFinal (v : View) (work : Work) : Prop :=
  work.confirms = false → ¬p.IsFinal work.header.number.toNat ∧ (work.isWritten → p.Unheld v work.header.hash)

theorem RespectsFinal.isLawful (h : p.RespectsFinal v work) (tells : work.Tells p.session v signal) :
    p.IsLawful signal := by
  cases signal with
  | head head =>
      intro final
      cases confirms : work.confirms with
      | true => exact tells.2 confirms
      | false =>
          rw [tells.1] at final
          exact ((h confirms).1 final).elim
  | event event =>
      intro final
      cases confirms : work.confirms with
      | true =>
          rw [Work.Tells, if_pos confirms] at tells
          exact tells
      | false =>
          rw [Work.Tells, if_neg (by simp [confirms])] at tells
          exact ((h confirms).2 tells.1 _ final tells.2).elim
  | _ => trivial

theorem isLawful_of_isPlain (plain : signal.isPlain) : p.IsLawful signal := by
  cases signal with
  | head | event | live => cases plain
  | _ => trivial

theorem respectsFinal_observing {live : Header} (sound : v.Sound) (stands : p.IsWatching v (.observing live work)) :
    p.RespectsFinal v work := by
  obtain ⟨late, rfl, observes, held⟩ := stands
  intro _
  have yet := not_isFinal_of_le late
  exact ⟨yet, fun written => unheld_of_holds sound (held written) yet⟩

theorem respectsFinal_confirming {live : Header} (stands : p.IsWatching v (.confirming live work)) :
    p.RespectsFinal v work := by
  intro observes
  cases stands.1.symm.trans observes

theorem respectsFinal_working {number : UInt64} (stands : p.IsSweeping v actions (.working number work)) :
    p.RespectsFinal v work := by
  obtain ⟨-, rfl, confirms, unheld, -⟩ := stands
  intro observes
  rw [observes] at confirms
  exact ⟨of_decide_eq_false confirms.symm, unheld observes⟩

end Plan

end Sweep

end Chainwatch
