import Chainwatch.Proofs.Store.Answers
import Chainwatch.Proofs.Store.Equivalence

/-!
# A failed write leaves no trace

A write that fails was rejected before any hook ran, or undone at the first hook that failed. The
relational store then is as it was. The nested one may keep an empty table or an empty list of events,
which no later write or query can distinguish.
-/

namespace Chainwatch

/-- Two stores are indistinguishable: any writes with any hooks have the same outcomes in both, and
afterwards both answer every query alike. -/
def BlockStore.Indistinct {S : Type} [BlockStore S] (s t : S) : Prop :=
  ∀ {σ : Type} (writes : List (Write σ)) (state : σ),
    (runWrites writes s state).outcomes = (runWrites writes t state).outcomes ∧
      (runWrites writes s state).state = (runWrites writes t state).state ∧
      BlockStore.Alike (runWrites writes s state).store (runWrites writes t state).store

theorem BlockStore.Indistinct.refl {S : Type} [BlockStore S] (s : S) : BlockStore.Indistinct s s :=
  fun _ _ => ⟨rfl, rfl, .refl _⟩

/-! ## Hooks -/

/-- The hooks ran in order on what was stored up to the first that failed, and its error is reported. -/
structure BrokeAt {σ α : Type} (before : List (Hook σ α)) (hook : Hook σ α) (stored : α) (state : σ) (e : TrackError)
    (after : σ) : Prop where
  passed : ∃ mid cause, runHooks before stored state = (.ok (), mid) ∧ hook stored mid = (.error cause, after) ∧
    e = cause.ofHook
  kind : e.kind = .hook

/-- How far the hooks of a failed write came. -/
inductive HooksFailed {σ α : Type} (hooks : List (Hook σ α)) (state : σ) (e : TrackError) (after : σ) : Prop where
  | refused : e.kind = .conflict ∨ e.kind = .notFound ∨ e.kind = .storage → after = state →
      HooksFailed hooks state e after
  | broke {before rest : List (Hook σ α)} {hook : Hook σ α} {stored : α} : hooks = before ++ hook :: rest →
      BrokeAt before hook stored state e after → HooksFailed hooks state e after

theorem TrackError.kind_ofHook (e : TrackError) : e.ofHook.kind = .hook := by
  cases e <;> rfl

section Hooks

variable {σ α : Type} {hooks : List (Hook σ α)} {stored : α} {state after : σ} {e : TrackError}

theorem runHooks_error (failed : runHooks hooks stored state = (.error e, after)) :
    ∃ before hook rest, hooks = before ++ hook :: rest ∧ BrokeAt before hook stored state e after := by
  induction hooks generalizing state with
  | nil => cases failed
  | cons hook hooks ih =>
      cases ran : hook stored state with
      | mk outcome mid =>
          cases outcome with
          | error cause =>
              simp only [runHooks, ran, Prod.mk.injEq, Except.error.injEq] at failed
              rcases failed with ⟨rfl, rfl⟩
              exact ⟨[], hook, hooks, rfl, ⟨state, cause, rfl, ran, rfl⟩, cause.kind_ofHook⟩
          | ok _ =>
              simp only [runHooks, ran] at failed
              obtain ⟨before, broken, rest, rfl, ⟨last, cause, passed, broke, same⟩, kind⟩ := ih failed
              refine ⟨hook :: before, broken, rest, rfl, ⟨last, cause, ?_, broke, same⟩, kind⟩
              simpa only [runHooks, ran] using passed

theorem hooksFailed_of_runHooks (failed : runHooks hooks stored state = (.error e, after)) :
    HooksFailed hooks state e after := by
  obtain ⟨before, hook, rest, split, broke⟩ := runHooks_error failed
  exact .broke split broke

end Hooks

/-- How far the hooks of a failed write came, whatever it writes. -/
def Write.Failed {σ : Type} (w : Write σ) (state : σ) (e : TrackError) (after : σ) : Prop :=
  match w with
  | createHead _ hooks | upsertHead _ hooks => HooksFailed hooks state e after
  | saveLogs _ _ _ hooks => HooksFailed hooks state e after

/-- A failed write of a store whose writes only hooks can fail was undone for a hook. -/
theorem Applied.of_error {S σ α : Type} {Sound : S → Prop} {view : S → View} {written : Written S σ α}
    {hooks : List (Hook σ α)} {state : σ} {told stored : α} {before after : View} {e : TrackError}
    (h : Applied Sound view written (runHooks hooks told state) stored before after)
    (failed : written.outcome = .error e) :
    Sound written.store ∧ view written.store = before ∧ HooksFailed hooks state e written.state := by
  have state_eq := h.state
  have kept := h.view
  rw [h.outcome] at failed
  cases ran : runHooks hooks told state with
  | mk outcome mid =>
      rw [ran] at failed state_eq kept
      cases outcome with
      | ok _ => cases failed
      | error cause =>
          cases failed
          exact ⟨h.sound, kept, state_eq ▸ hooksFailed_of_runHooks ran⟩

theorem Written.stored_error {S σ α : Type} {written : Written S σ α} {f : α → Stored} {e : TrackError} :
    (written.stored f).outcome = .error e ↔ written.outcome = .error e := by
  cases h : written.outcome <;> simp [Written.stored, h, Except.map]

/-! ## Nested stores -/

namespace NestedStore

variable {s t : NestedStore} {σ : Type}

/-- A failed write leaves the view as it was. -/
theorem run_error (h : s.Sound) (w : Write σ) {state : σ} {e : TrackError}
    (failed : (w.run s state).outcome = .error e) :
    (w.run s state).store.Sound ∧ (w.run s state).store.view = s.view ∧ w.Failed state e (w.run s state).state := by
  cases w with
  | createHead head hooks =>
      have failed : (s.createHead head hooks state).outcome = .error e := Written.stored_error.mp failed
      change (s.createHead head hooks state).store.Sound ∧ (s.createHead head hooks state).store.view = s.view ∧
        HooksFailed hooks state e (s.createHead head hooks state).state
      by_cases taken : s.view.Taken head
      · rw [createHead_taken hooks state h taken] at failed ⊢
        cases failed
        exact ⟨h, rfl, .refused (Or.inl (by split <;> rfl)) rfl⟩
      · exact (createHead_free hooks state h taken).of_error failed
  | upsertHead head hooks =>
      have failed : (s.upsertHead head hooks state).outcome = .error e := Written.stored_error.mp failed
      change (s.upsertHead head hooks state).store.Sound ∧ (s.upsertHead head hooks state).store.view = s.view ∧
        HooksFailed hooks state e (s.upsertHead head hooks state).state
      by_cases taken : s.view.OwnedElsewhere head
      · rw [upsertHead_taken hooks state h taken] at failed ⊢
        cases failed
        exact ⟨h, rfl, .refused (Or.inl rfl) rfl⟩
      · exact (upsertHead_free hooks state h taken).of_error failed
  | saveLogs chain hash events hooks =>
      have failed : (s.saveLogs chain hash events hooks state).outcome = .error e := Written.stored_error.mp failed
      change (s.saveLogs chain hash events hooks state).store.Sound ∧
        (s.saveLogs chain hash events hooks state).store.view = s.view ∧
        HooksFailed hooks state e (s.saveLogs chain hash events hooks state).state
      by_cases none : events = []
      · subst none
        cases failed
      by_cases known : ∃ number, s.view.holds chain number hash
      · obtain ⟨number, held⟩ := known
        obtain ⟨block, placed, rfl⟩ := View.holds_iff.mp held
        exact (saveLogs_known hooks state h none placed).of_error failed
      · rw [saveLogs_unknown hooks state h none fun number held => known ⟨number, held⟩] at failed ⊢
        cases failed
        exact ⟨h, rfl, .refused (Or.inr (Or.inl rfl)) rfl⟩

/-- Two results are the same, and the stores have the same view. -/
structure SameWritten {α : Type} (a b : Written NestedStore σ α) : Prop where
  outcome : a.outcome = b.outcome
  state : a.state = b.state
  left : a.store.Sound
  right : b.store.Sound
  view : a.store.view = b.store.view

theorem SameWritten.stored {α : Type} {a b : Written NestedStore σ α} (h : SameWritten a b) (f : α → Stored) :
    SameWritten (a.stored f) (b.stored f) :=
  ⟨congrArg (Except.map f) h.outcome, h.state, h.left, h.right, h.view⟩

theorem sameWritten_of_applied {α : Type} {a b : Written NestedStore σ α} {hooked : Except TrackError Unit × σ}
    {stored : α} {before after : View} (ha : Applied Sound view a hooked stored before after)
    (hb : Applied Sound view b hooked stored before after) : SameWritten a b :=
  ⟨ha.outcome.trans hb.outcome.symm, ha.state.trans hb.state.symm, ha.sound, hb.sound, ha.view.trans hb.view.symm⟩

theorem run_same (h : s.Sound) (g : t.Sound) (same : s.view = t.view) (w : Write σ) (state : σ) :
    SameWritten (w.run s state) (w.run t state) := by
  cases w with
  | createHead head hooks =>
      refine SameWritten.stored (a := s.createHead head hooks state) (b := t.createHead head hooks state) ?_ _
      by_cases taken : s.view.Taken head
      · rw [createHead_taken hooks state h taken, createHead_taken hooks state g (same ▸ taken), same]
        exact ⟨rfl, rfl, h, g, same⟩
      · have right := createHead_free hooks state g (same ▸ taken)
        rw [← same] at right
        exact sameWritten_of_applied (createHead_free hooks state h taken) right
  | upsertHead head hooks =>
      refine SameWritten.stored (a := s.upsertHead head hooks state) (b := t.upsertHead head hooks state) ?_ _
      by_cases taken : s.view.OwnedElsewhere head
      · rw [upsertHead_taken hooks state h taken, upsertHead_taken hooks state g (same ▸ taken)]
        exact ⟨rfl, rfl, h, g, same⟩
      · have right := upsertHead_free hooks state g (same ▸ taken)
        rw [← same] at right
        exact sameWritten_of_applied (upsertHead_free hooks state h taken) right
  | saveLogs chain hash events hooks =>
      refine SameWritten.stored (a := s.saveLogs chain hash events hooks state)
        (b := t.saveLogs chain hash events hooks state) ?_ _
      by_cases none : events = []
      · subst none
        exact ⟨rfl, rfl, h, g, same⟩
      by_cases known : ∃ number, s.view.holds chain number hash
      · obtain ⟨number, held⟩ := known
        obtain ⟨block, placed, rfl⟩ := View.holds_iff.mp held
        have right := saveLogs_known hooks state g none (same ▸ placed)
        rw [← same] at right
        exact sameWritten_of_applied (saveLogs_known hooks state h none placed) right
      · have unknown (number : UInt64) : ¬s.view.holds chain number hash := fun held => known ⟨number, held⟩
        rw [saveLogs_unknown hooks state h none unknown, saveLogs_unknown hooks state g none (same ▸ unknown)]
        exact ⟨rfl, rfl, h, g, same⟩

theorem run_sound (h : s.Sound) (w : Write σ) (state : σ) : (w.run s state).store.Sound :=
  (run_same h h rfl w state).left

theorem runWrites_sound (h : s.Sound) (writes : List (Write σ)) (state : σ) :
    (runWrites writes s state).store.Sound :=
  runWrites_invariant (I := Sound) writes (fun w _ _ state h => run_sound h w state) h state

/-- Stores of one view are indistinguishable. -/
theorem indistinct_of_view (h : s.Sound) (g : t.Sound) (same : s.view = t.view) : BlockStore.Indistinct s t := by
  intro σ writes state
  induction writes generalizing s t state with
  | nil => exact ⟨rfl, rfl, AnsweringStore.alike h g same⟩
  | cons w writes ih =>
      have first := run_same h g same w state
      obtain ⟨outcomes, states, alike⟩ := ih first.left first.right first.view (w.run s state).state
      simp only [runWrites, first.outcome, ← first.state, outcomes, states, alike, and_self]

end NestedStore

/-! ## Relational stores -/

namespace RelationalStore

variable {s : RelationalStore} {σ : Type}

theorem kind_of_head {row : BlockRow} {e : TrackError} (unread : row.head = .error e) : e.kind = .storage := by
  unfold BlockRow.head at unread
  split at unread
  · cases unread
    rfl
  · split at unread <;> cases unread
    rfl

variable {head : Head} {chain : UInt64} {hash : String} {events : List Event} {state : σ} {e : TrackError}

theorem createHead_error {hooks : List (Hook σ Head)} {written : Written RelationalStore σ Head}
    (moved : s.createHead head hooks state = written) (failed : written.outcome = .error e) :
    written.store = s ∧ HooksFailed hooks state e written.state := by
  unfold createHead at moved
  split at moved
  · subst moved
    cases failed
    exact ⟨rfl, .refused (Or.inl rfl) rfl⟩
  · split at moved <;> rename_i ran <;> subst moved <;> cases failed
    exact ⟨rfl, hooksFailed_of_runHooks ran⟩

theorem upsertHead_error {hooks : List (Hook σ Head)} {written : Written RelationalStore σ Head}
    (moved : s.upsertHead head hooks state = written) (failed : written.outcome = .error e) :
    written.store = s ∧ HooksFailed hooks state e written.state := by
  unfold upsertHead at moved
  split at moved
  · subst moved
    cases failed
    exact ⟨rfl, .refused (Or.inl rfl) rfl⟩
  · split at moved
    · rename_i unread
      subst moved
      cases failed
      exact ⟨rfl, .refused (Or.inr (Or.inr (kind_of_head unread))) rfl⟩
    · split at moved <;> rename_i ran <;> subst moved <;> cases failed
      exact ⟨rfl, hooksFailed_of_runHooks ran⟩

theorem saveLogs_error {hooks : List (Hook σ (List Event))} {written : Written RelationalStore σ (List Event)}
    (moved : s.saveLogs chain hash events hooks state = written) (failed : written.outcome = .error e) :
    written.store = s ∧ HooksFailed hooks state e written.state := by
  unfold saveLogs at moved
  dsimp only at moved
  split at moved
  · subst moved
    cases failed
  · split at moved
    · subst moved
      cases failed
      exact ⟨rfl, .refused (Or.inr (Or.inl rfl)) rfl⟩
    · split at moved
      · rename_i unread
        subst moved
        cases failed
        exact ⟨rfl, .refused (Or.inr (Or.inr (kind_of_head unread))) rfl⟩
      · split at moved <;> rename_i ran <;> subst moved <;> cases failed
        exact ⟨rfl, hooksFailed_of_runHooks ran⟩

/-- A failed write leaves the tables as they were. -/
theorem run_error (w : Write σ) (failed : (w.run s state).outcome = .error e) :
    (w.run s state).store = s ∧ w.Failed state e (w.run s state).state := by
  cases w with
  | createHead head hooks => exact createHead_error rfl (Written.stored_error.mp failed)
  | upsertHead head hooks => exact upsertHead_error rfl (Written.stored_error.mp failed)
  | saveLogs chain hash events hooks => exact saveLogs_error rfl (Written.stored_error.mp failed)

end RelationalStore

/-! ## Both stores -/

/-- After any writes to an empty nested or relational store, a further write that fails was rejected
before its hooks or undone at the first hook that failed, and the store it leaves is indistinguishable
from the one it was given. -/
theorem failed_write_leaves_no_trace {σ τ : Type} (writes : List (Write σ)) (start : σ) (w : Write τ) (state : τ) :
    (∀ {e : TrackError}, (w.run (runWrites writes NestedStore.empty start).store state).outcome = .error e →
      BlockStore.Indistinct (w.run (runWrites writes NestedStore.empty start).store state).store
          (runWrites writes NestedStore.empty start).store ∧
        w.Failed state e (w.run (runWrites writes NestedStore.empty start).store state).state) ∧
    ∀ {e : TrackError}, (w.run (runWrites writes RelationalStore.empty start).store state).outcome = .error e →
      BlockStore.Indistinct (w.run (runWrites writes RelationalStore.empty start).store state).store
          (runWrites writes RelationalStore.empty start).store ∧
        w.Failed state e (w.run (runWrites writes RelationalStore.empty start).store state).state := by
  constructor
  · intro e failed
    have sound := NestedStore.runWrites_sound NestedStore.sound_empty writes start
    obtain ⟨left, same, broke⟩ := NestedStore.run_error sound w failed
    exact ⟨NestedStore.indistinct_of_view left sound same, broke⟩
  · intro e failed
    obtain ⟨same, broke⟩ := RelationalStore.run_error w failed
    refine ⟨?_, broke⟩
    rw [same]
    intro ρ later state
    exact ⟨rfl, rfl, .refl _⟩

def brokenWrite : Write Nat :=
  .upsertHead { (default : Head) with chain := 1, number := 5, hash := "0xc" }
    [fun _ n => (.ok (), n + 1), fun _ n => (.error .cancelled, n), fun _ n => (.ok (), n + 10)]

theorem failed_write_leaves_no_trace_fork :
    (brokenWrite.run (runWrites forkedWrites NestedStore.empty 0).store 0).outcome =
        .error (.hook "Operation cancelled") ∧
      (brokenWrite.run (runWrites forkedWrites NestedStore.empty 0).store 0).state = 1 ∧
      BlockStore.Indistinct (brokenWrite.run (runWrites forkedWrites NestedStore.empty 0).store 0).store
        (runWrites forkedWrites NestedStore.empty 0).store := by
  have failed : (brokenWrite.run (runWrites forkedWrites NestedStore.empty 0).store 0).outcome =
      .error (.hook "Operation cancelled") := by rfl
  exact ⟨failed, by rfl, ((failed_write_leaves_no_trace forkedWrites 0 brokenWrite 0).1 failed).1⟩

end Chainwatch
