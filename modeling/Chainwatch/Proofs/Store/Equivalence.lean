import Chainwatch.Proofs.Store.RelationalAnswers

/-!
# Both stores behave alike

The same writes with the same hooks, given to an empty nested and an empty relational store, succeed or
fail alike, return the same records, run their hooks on the same values, and leave stores that answer
every query alike. What a write does is the same in any two lawful stores of one view; what is asked
afterwards depends on the view alone.
-/

namespace Chainwatch

inductive TrackError.Kind where
  | rpc
  | storage
  | conflict
  | notFound
  | alreadyRunning
  | heightLocked
  | hook
  | aborted
  | cancelled
  | other
  deriving DecidableEq, Repr

def TrackError.kind : TrackError → Kind
  | rpc _ => .rpc
  | storage _ => .storage
  | conflict _ _ => .conflict
  | notFound _ => .notFound
  | alreadyRunning => .alreadyRunning
  | heightLocked _ => .heightLocked
  | hook _ => .hook
  | aborted _ => .aborted
  | cancelled => .cancelled
  | other _ => .other

theorem TrackError.kind_of_isConflict {e : TrackError} (h : e.isConflict) : e.kind = .conflict := by
  cases e <;> simp_all [isConflict, kind]

/-! ## Writes as data -/

inductive Stored where
  | head (head : Head)
  | events (events : List Event)
  deriving DecidableEq, Repr

inductive Write (σ : Type) where
  | createHead (head : Head) (hooks : List (Hook σ Head))
  | upsertHead (head : Head) (hooks : List (Hook σ Head))
  | saveLogs (chain : UInt64) (hash : String) (events : List Event)
      (hooks : List (Hook σ (List Event)))

def Written.stored {S σ α : Type} (written : Written S σ α) (f : α → Stored) : Written S σ Stored :=
  ⟨written.outcome.map f, written.store, written.state⟩

variable {σ : Type}

namespace Write

/-- A written head has a small chain and number and a full bloom. -/
def Fits : Write σ → Prop
  | createHead head _ | upsertHead head _ =>
    head.chain.toNat < 0x8000000000000000 ∧ head.number.toNat < 0x8000000000000000 ∧ head.bloom.IsFull
  | saveLogs _ _ _ _ => True

def run {S : Type} [BlockStore S] (w : Write σ) (s : S) (state : σ) : Written S σ Stored :=
  match w with
  | createHead head hooks => (BlockStore.createHead s head hooks state).stored .head
  | upsertHead head hooks => (BlockStore.upsertHead s head hooks state).stored .head
  | saveLogs chain hash events hooks =>
    (BlockStore.saveLogs s chain hash events hooks state).stored .events

end Write

structure Ran (S σ : Type) where
  outcomes : List (Except TrackError Stored)
  store : S
  state : σ

/-- Applies writes to a store one after another. -/
def runWrites {S : Type} [BlockStore S] : List (Write σ) → S → σ → Ran S σ
  | [], s, state => ⟨[], s, state⟩
  | w :: writes, s, state =>
    let written := w.run s state
    let rest := runWrites writes written.store written.state
    ⟨written.outcome :: rest.outcomes, rest.store, rest.state⟩

/-- A property preserved by each write is preserved by a list of writes. -/
theorem runWrites_invariant {S : Type} [BlockStore S] {I : S → Prop} (writes : List (Write σ))
    (step : ∀ w ∈ writes, ∀ s state, I s → I (w.run s state).store) {s : S} (h : I s) (state : σ) :
    I (runWrites writes s state).store := by
  induction writes generalizing s state with
  | nil => exact h
  | cons w writes ih =>
      exact ih (fun w mem => step w (List.mem_cons_of_mem _ mem)) (step w List.mem_cons_self s state h) _

/-! ## One write -/

namespace View

variable {v : View}

theorem IsSmall.put (h : v.IsSmall) {head : Head}
    (small : head.chain.toNat < 0x8000000000000000 ∧ head.number.toNat < 0x8000000000000000) :
    (v.put head).IsSmall := by
  intro chain number placed
  by_cases place : chain = head.chain ∧ number = head.number
  · rcases place with ⟨rfl, rfl⟩
    exact small
  · exact h _ _ (by simpa [View.put, place] using placed)

theorem IsSmall.keep (h : v.IsSmall) (block : Head) (events : List Event) :
    (v.keep block events).IsSmall := h

end View

section Agreement

variable {S T : Type} [BlockStore S] [LawfulStore S] [BlockStore T] [LawfulStore T]

structure Agree (s : S) (t : T) : Prop where
  left : LawfulStore.Sound s
  right : LawfulStore.Sound t
  same : LawfulStore.view s = LawfulStore.view t
  small : (LawfulStore.view s).IsSmall

/-- Two results agree up to the wording of an error. -/
structure SameResult {α : Type} (a : Written S σ α) (b : Written T σ α) : Prop where
  outcome : a.outcome.mapError TrackError.kind = b.outcome.mapError TrackError.kind
  state : a.state = b.state
  agree : Agree a.store b.store

theorem SameResult.stored {α : Type} {a : Written S σ α} {b : Written T σ α} (h : SameResult a b)
    (f : α → Stored) : SameResult (a.stored f) (b.stored f) := by
  refine ⟨?_, h.state, h.agree⟩
  have commutes (outcome : Except TrackError α) :
      (outcome.map f).mapError TrackError.kind = (outcome.mapError TrackError.kind).map f := by
    cases outcome <;> rfl
  exact (commutes a.outcome).trans ((congrArg (Except.map f) h.outcome).trans (commutes b.outcome).symm)

/-- A write that only its hooks can fail has the same result in stores of one view. -/
theorem SameResult.of_applied {α : Type} {a : Written S σ α} {b : Written T σ α}
    {hooked : Except TrackError Unit × σ} {stored : α} {before after : View}
    (ha : Applied LawfulStore.Sound LawfulStore.view a hooked stored before after)
    (hb : Applied LawfulStore.Sound LawfulStore.view b hooked stored before after)
    (small : before.IsSmall) (small_after : after.IsSmall) : SameResult a b := by
  refine ⟨by rw [ha.outcome, hb.outcome], by rw [ha.state, hb.state],
    ha.sound, hb.sound, by rw [ha.view, hb.view], ?_⟩
  rw [ha.view]
  cases hooked.1 with
  | ok _ => exact small_after
  | error _ => exact small

variable {s : S} {t : T}

/-- A write has the same effect on stores of one view. -/
theorem Write.run_agree (h : Agree s t) (w : Write σ) (fits : w.Fits) (state : σ) :
    SameResult (w.run s state) (w.run t state) := by
  have hv := h.same
  cases w with
  | createHead head hooks =>
      obtain ⟨chain, number, full⟩ := fits
      refine SameResult.stored ?_ _
      by_cases taken : (LawfulStore.view s).Taken head
      · obtain ⟨d, hd, left⟩ := LawfulStore.createHead_taken hooks state h.left taken
        obtain ⟨e, he, right⟩ := LawfulStore.createHead_taken hooks state h.right (hv ▸ taken)
        rw [left, right]
        refine ⟨?_, rfl, h⟩
        exact congrArg Except.error ((TrackError.kind_of_isConflict hd).trans (TrackError.kind_of_isConflict he).symm)
      · have left := LawfulStore.createHead_free hooks state h.left taken full
        have right := LawfulStore.createHead_free hooks state h.right (hv ▸ taken) full
        rw [← hv] at right
        exact .of_applied left right h.small (h.small.put ⟨chain, number⟩)
  | upsertHead head hooks =>
      obtain ⟨chain, number, full⟩ := fits
      refine SameResult.stored ?_ _
      by_cases taken : (LawfulStore.view s).OwnedElsewhere head
      · rw [LawfulStore.upsertHead_taken hooks state h.left taken,
          LawfulStore.upsertHead_taken hooks state h.right (hv ▸ taken)]
        exact ⟨rfl, rfl, h⟩
      · have left := LawfulStore.upsertHead_free hooks state h.left taken full
        have right := LawfulStore.upsertHead_free hooks state h.right (hv ▸ taken) full
        rw [← hv] at right
        exact .of_applied left right h.small (h.small.put (by simpa using ⟨chain, number⟩))
  | saveLogs chain hash events hooks =>
      refine SameResult.stored ?_ _
      by_cases none : events = []
      · subst none
        rw [LawfulStore.saveLogs_nil, LawfulStore.saveLogs_nil]
        exact ⟨rfl, rfl, h⟩
      · by_cases known : ∃ number, (LawfulStore.view s).holds chain number hash
        · obtain ⟨number, held⟩ := known
          obtain ⟨block, placed, own⟩ := View.holds_iff.mp held
          have left := LawfulStore.saveLogs_known hooks state h.left none placed own
          have right := LawfulStore.saveLogs_known hooks state h.right none (hv ▸ placed) own
          rw [← hv] at right
          exact .of_applied left right h.small (h.small.keep block events)
        · have unknown (number : UInt64) : ¬(LawfulStore.view s).holds chain number hash :=
            fun held => known ⟨number, held⟩
          rw [LawfulStore.saveLogs_unknown hooks state h.left none unknown,
            LawfulStore.saveLogs_unknown hooks state h.right none (hv ▸ unknown)]
          exact ⟨rfl, rfl, h⟩

/-- A list of writes has the same effect on stores of one view. -/
theorem runWrites_agree (h : Agree s t) (writes : List (Write σ)) (fits : ∀ w ∈ writes, w.Fits)
    (state : σ) :
    (runWrites writes s state).outcomes.map (·.mapError TrackError.kind) =
        (runWrites writes t state).outcomes.map (·.mapError TrackError.kind) ∧
      (runWrites writes s state).state = (runWrites writes t state).state ∧
      Agree (runWrites writes s state).store (runWrites writes t state).store := by
  induction writes generalizing s t state with
  | nil => exact ⟨rfl, rfl, h⟩
  | cons w writes ih =>
      have first := w.run_agree h (fits w List.mem_cons_self) state
      obtain ⟨outcomes, states, agree⟩ :=
        ih first.agree (fun w mem => fits w (List.mem_cons_of_mem _ mem)) (w.run s state).state
      simp only [runWrites, List.map_cons, first.outcome, ← first.state, outcomes, states, agree, and_self]

end Agreement

/-! ## Answers -/

/-- Two stores answer every query alike. Queries for events are those whose texts tables compare up to
the case of letters. -/
structure SameAnswers {S T : Type} [BlockStore S] [BlockStore T] (s : S) (t : T) : Prop where
  height : ∀ chain, BlockStore.height s chain = BlockStore.height t chain
  heads : ∀ q, BlockStore.heads s q = BlockStore.heads t q
  countHeads : ∀ q, BlockStore.countHeads s q = BlockStore.countHeads t q
  events : ∀ q : EventQuery, q.IsCollated → BlockStore.events s q = BlockStore.events t q
  countEvents : ∀ q : EventQuery, q.IsCollated → BlockStore.countEvents s q = BlockStore.countEvents t q
  head? : ∀ chain number, BlockStore.head? s chain number = BlockStore.head? t chain number
  headOfHash? : ∀ chain hash, BlockStore.headOfHash? s chain hash = BlockStore.headOfHash? t chain hash

/-- A nested and a relational store of one view give the same answers. -/
theorem sameAnswers_of_agree {s : NestedStore} {t : RelationalStore} (h : Agree s t) :
    SameAnswers s t := by
  have same : s.view = t.view := h.same
  have small : t.view.IsSmall := same ▸ h.small
  have heads (q : HeadQuery) : s.heads q = (t.selectBlocks q).map (·.kept) :=
    (same ▸ NestedStore.heads_lists h.left q).unique (RelationalStore.heads_lists h.right small q)
  have events (q : EventQuery) (collated : q.IsCollated) : s.events q = (t.found q).mergeSort Event.before :=
    (same ▸ NestedStore.events_lists h.left q).unique (RelationalStore.events_lists h.right collated)
  have answer (q : HeadQuery) : BlockStore.heads s q = BlockStore.heads t q :=
    (congrArg Except.ok (heads q)).trans (RelationalStore.heads_ok h.right q).symm
  constructor
  case height =>
    intro chain
    exact congrArg Except.ok ((same ▸ s.height_isHeight chain).unique
      (RelationalStore.height_isHeight h.right small chain))
  case heads => exact answer
  case countHeads =>
    intro q
    exact congrArg Except.ok ((congrArg List.length (heads q)).trans (t.countHeads_eq q).symm)
  case events =>
    intro q collated
    exact (congrArg Except.ok (events q collated)).trans (RelationalStore.selectEvents_ok h.right q).symm
  case countEvents =>
    intro q collated
    exact congrArg Except.ok ((congrArg List.length (events q collated)).trans
      (RelationalStore.countEvents_eq h.right q).symm)
  case head? =>
    intro chain number
    rw [BlockStore.head?, BlockStore.head?, answer]
  case headOfHash? =>
    intro chain hash
    rw [BlockStore.headOfHash?, BlockStore.headOfHash?, answer]

theorem empty_agree : Agree NestedStore.empty RelationalStore.empty where
  left := NestedStore.sound_empty
  right := RelationalStore.sound_empty
  same := by
    apply View.ext
    · intro chain number
      simp [LawfulStore.view, NestedStore.view, NestedStore.empty, NestedStore.table, ChainTable.empty,
        RelationalStore.view, RelationalStore.empty, RelationalStore.rowOfNumber?]
    · intro chain number
      simp [LawfulStore.view, NestedStore.view, NestedStore.empty, NestedStore.table, ChainTable.empty,
        RelationalStore.view, RelationalStore.empty, RelationalStore.rowOfNumber?, ChainTable.eventsAt]
  small := by
    intro chain number placed
    simp [LawfulStore.view, NestedStore.view, NestedStore.empty, NestedStore.table, ChainTable.empty] at placed

/-- The same writes with the same hooks, applied to an empty nested and an empty relational store, have
the same outcomes up to the wording of errors and leave the same hook state, and afterwards both stores
answer alike. -/
theorem nested_relational_equivalent (writes : List (Write σ)) (state : σ)
    (fits : ∀ w ∈ writes, w.Fits) :
    (runWrites writes NestedStore.empty state).outcomes.map (·.mapError TrackError.kind) =
        (runWrites writes RelationalStore.empty state).outcomes.map (·.mapError TrackError.kind) ∧
      (runWrites writes NestedStore.empty state).state =
        (runWrites writes RelationalStore.empty state).state ∧
      SameAnswers (runWrites writes NestedStore.empty state).store
        (runWrites writes RelationalStore.empty state).store := by
  obtain ⟨outcomes, states, agree⟩ := runWrites_agree empty_agree writes fits state
  exact ⟨outcomes, states, sameAnswers_of_agree agree⟩

/-- A block, a block in its place, the same hash once more, and a confirmation whose hook fails; each
hook that succeeds counts. -/
def forkedWrites : List (Write Nat) :=
  let head (number : UInt64) (hash : String) (state : BlockState) : Head :=
    { (default : Head) with chain := 1, number, hash, state }
  let count : Hook Nat Head := fun _ n => (.ok (), n + 1)
  let fail : Hook Nat Head := fun _ n => (.error .cancelled, n)
  [.createHead (head 5 "0xa" .seen) [count],
    .upsertHead (head 5 "0xb" .confirmed) [count],
    .createHead (head 6 "0xb" .seen) [count],
    .upsertHead (head 5 "0xc" .seen) [count, fail]]

theorem forkedWrites_equivalent :
    (∀ w ∈ forkedWrites, w.Fits) ∧
      (runWrites forkedWrites NestedStore.empty 0).outcomes.map (·.mapError TrackError.kind) =
        (runWrites forkedWrites RelationalStore.empty 0).outcomes.map (·.mapError TrackError.kind) := by
  have fits : ∀ w ∈ forkedWrites, w.Fits := by
    intro w mem
    have full : (default : Bloom).IsFull := List.length_replicate
    simp only [forkedWrites, List.mem_cons, List.not_mem_nil, or_false] at mem
    rcases mem with rfl | rfl | rfl | rfl <;> exact ⟨by decide, by decide, full⟩
  exact ⟨fits, (nested_relational_equivalent forkedWrites 0 fits).1⟩

end Chainwatch
