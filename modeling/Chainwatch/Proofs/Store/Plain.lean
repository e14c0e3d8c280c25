import Chainwatch.Proofs.Store.Bare
import Chainwatch.Proofs.Store.Rollback

/-!
# Writes of any heads

The effect of the operations of both stores on a view, with no condition on the blooms of heads: the view
of a relational store leaves them out. A write that fails leaves the view unchanged, and one that succeeds
has put its head in place or added its events.
-/

namespace Chainwatch

/-- A store whose writes have the specified effect on its view, whatever the blooms of their heads. -/
class PlainStore (S : Type) [BlockStore S] where
  Sound : S → Prop
  view : S → View
  shown : Head → Head
  shown_eq (head : Head) : (shown head).chain = head.chain ∧ (shown head).number = head.number ∧
    (shown head).hash = head.hash ∧ (shown head).state = head.state
  view_sound {s : S} : Sound s → (view s).Sound
  events_merged {s : S} {chain number : UInt64} {e : Event} : Sound s → e ∈ (view s).eventsAt chain number →
    ∃ head, (view s).headAt? chain number = some head ∧ e.mergeWith head = e
  events_distinct {s : S} (chain number : UInt64) : Sound s →
    ((view s).eventsAt chain number).Pairwise (·.logIndex ≠ ·.logIndex)
  createHead_taken {σ : Type} {s : S} {head : Head} (hooks : List (Hook σ Head)) (state : σ) :
    Sound s → (view s).Taken head → ∃ e : TrackError, BlockStore.createHead s head hooks state = ⟨.error e, s, state⟩
  createHead_free {σ : Type} {s : S} {head : Head} (hooks : List (Hook σ Head)) (state : σ) :
    Sound s → ¬(view s).Taken head →
      Applied Sound view (BlockStore.createHead s head hooks state) (runHooks hooks head state) head
        (view s) ((view s).put (shown head))
  upsertHead_cases {σ : Type} {s : S} {head : Head} (hooks : List (Hook σ Head)) (state : σ) : Sound s →
    (∃ e : TrackError, BlockStore.upsertHead s head hooks state = ⟨.error e, s, state⟩) ∨
      ∃ stored : Head, ¬(view s).OwnedElsewhere head ∧ shown stored = (view s).settled (shown head) ∧
        Applied Sound view (BlockStore.upsertHead s head hooks state) (runHooks hooks stored state) stored
          (view s) ((view s).put (shown stored))
  saveLogs_nil {σ : Type} (s : S) (chain : UInt64) (hash : String)
    (hooks : List (Hook σ (List Event))) (state : σ) :
      BlockStore.saveLogs s chain hash [] hooks state = ⟨.ok [], s, state⟩
  saveLogs_unread {σ : Type} {s : S} {chain : UInt64} {hash : String} {events : List Event}
    (hooks : List (Hook σ (List Event))) (state : σ) :
    Sound s → events ≠ [] → (¬∃ block, BlockStore.headOfHash? s chain hash = .ok (some block)) →
      ∃ e : TrackError, BlockStore.saveLogs s chain hash events hooks state = ⟨.error e, s, state⟩
  saveLogs_read {σ : Type} {s : S} {chain : UInt64} {hash : String} {block : Head} {events : List Event}
    (hooks : List (Hook σ (List Event))) (state : σ) :
    Sound s → events ≠ [] → BlockStore.headOfHash? s chain hash = .ok (some block) →
      Applied Sound view (BlockStore.saveLogs s chain hash events hooks state)
        (runHooks hooks (events.map (·.mergeWith block)) state) (events.map (·.mergeWith block))
        (view s) ((view s).keep (shown block) events)
  headOfHash_view {s : S} {chain : UInt64} {hash : String} {block : Head} : Sound s →
    BlockStore.headOfHash? s chain hash = .ok (some block) →
      (view s).headAt? chain block.number = some (shown block) ∧ block.chain = chain ∧ block.hash = hash
  headOfHash_none {s : S} {chain : UInt64} {hash : String} : Sound s →
    (∀ number, ¬(view s).holds chain number hash) → BlockStore.headOfHash? s chain hash = .ok none
  upsertHead_read {σ : Type} {s : S} {head stored : Head} {hooks : List (Hook σ Head)} {state : σ} : Sound s →
    (BlockStore.upsertHead s head hooks state).outcome = .ok stored →
      BlockStore.headOfHash? (BlockStore.upsertHead s head hooks state).store stored.chain stored.hash =
        .ok (some stored)
  has_iff {s : S} (q : HeadQuery) : Sound s →
    (BlockStore.Has s q ↔ ∃ head, (view s).headAt? head.chain head.number = some head ∧ q.admits head)
  events_stored {s : S} {q : EventQuery} {answer : List Event} : Sound s → BlockStore.events s q = .ok answer →
    ∀ e ∈ answer, e ∈ (view s).eventsAt e.chain e.blockNumber
  events_block {s : S} {chain : UInt64} {hash : String} {block : Head} {q : EventQuery} : Sound s →
    BlockStore.headOfHash? s chain hash = .ok (some block) → q.IsOf block → q.IsCollated →
      ∃ answer, BlockStore.events s q = .ok answer ∧ (view s).ListsEvents q answer
  countEvents_zero {s : S} {q : EventQuery} : Sound s → q.IsCollated →
    (∀ e, e ∈ (view s).eventsAt e.chain e.blockNumber → ¬q.admits e) → BlockStore.countEvents s q = .ok 0

namespace NestedStore

variable {s : NestedStore} {chain : UInt64} {hash : String} {block : Head}

theorem view_of_headOfHash? (h : s.Sound) (resolved : BlockStore.headOfHash? s chain hash = .ok (some block)) :
    s.view.headAt? chain block.number = some block ∧ block.chain = chain ∧ block.hash = hash := by
  have listed : block ∈ s.heads { chain := some chain, hash := some hash } :=
    List.mem_of_head? (Except.ok.inj resolved)
  obtain ⟨placed, admits⟩ := ((heads_lists h _).mem_iff block).mp listed
  simp only [HeadQuery.admits, fieldAdmits, Option.all_some, Option.all_none, Bool.and_true, Bool.and_eq_true,
    beq_iff_eq] at admits
  rcases admits with ⟨rfl, rfl⟩
  exact ⟨placed, rfl, rfl⟩

theorem headOfHash?_of_holds (h : s.Sound) {number : UInt64} (held : s.view.holds chain number hash) :
    ∃ block, BlockStore.headOfHash? s chain hash = .ok (some block) := by
  obtain ⟨head, placed, rfl⟩ := View.holds_iff.mp held
  have chain_eq := (view_sound h).chain_eq placed
  have number_eq := (view_sound h).number_eq placed
  subst chain_eq number_eq
  have listed : head ∈ s.heads { chain := some head.chain, hash := some head.hash } :=
    ((heads_lists h _).mem_iff head).mpr ⟨placed, by simp [HeadQuery.admits, fieldAdmits]⟩
  exact ⟨_, congrArg Except.ok (List.head?_eq_some_head (List.ne_nil_of_mem listed))⟩

theorem headOfHash?_of_not_holds (h : s.Sound) (unheld : ∀ number, ¬s.view.holds chain number hash) :
    BlockStore.headOfHash? s chain hash = .ok none := by
  have empty : s.heads { chain := some chain, hash := some hash } = [] :=
    List.eq_nil_iff_forall_not_mem.mpr fun head mem => by
      obtain ⟨placed, admits⟩ := ((heads_lists h _).mem_iff head).mp mem
      simp only [HeadQuery.admits, fieldAdmits, Option.all_some, Option.all_none, Bool.and_true, Bool.and_eq_true,
        beq_iff_eq] at admits
      rw [← admits.1] at placed
      exact unheld head.number (View.holds_iff.mpr ⟨head, placed, admits.2.symm⟩)
  exact congrArg (fun answer => Except.ok answer.head?) empty

theorem upsertHead_read {σ : Type} {head stored : Head} {hooks : List (Hook σ Head)} {state : σ} (h : s.Sound)
    (ok : (BlockStore.upsertHead s head hooks state).outcome = .ok stored) :
    BlockStore.headOfHash? (BlockStore.upsertHead s head hooks state).store stored.chain stored.hash =
      .ok (some stored) := by
  by_cases taken : s.view.OwnedElsewhere head
  · have refused := upsertHead_taken hooks state h taken
    rw [show BlockStore.upsertHead s head hooks state = _ from refused] at ok
    cases ok
  · have applied := upsertHead_free hooks state h taken
    have outcome := applied.outcome
    have seen := applied.view
    change (BlockStore.upsertHead s head hooks state).outcome = _ at outcome
    rw [ok] at outcome
    generalize runHooks hooks (s.view.settled head) state = hooked at outcome seen
    rcases hooked with ⟨(e | _), after⟩
    · cases outcome
    · cases outcome
      have sound := applied.sound
      have placed : (s.upsertHead head hooks state).store.view.headAt? (s.view.settled head).chain
          (s.view.settled head).number = some (s.view.settled head) := by
        rw [seen]
        exact if_pos ⟨rfl, rfl⟩
      obtain ⟨block, resolved⟩ := headOfHash?_of_holds sound (View.holds_iff.mpr ⟨_, placed, rfl⟩)
      obtain ⟨found, -, own⟩ := view_of_headOfHash? sound resolved
      have number := (view_sound sound).hash_unique (View.holds_iff.mpr ⟨block, found, own⟩)
        (View.holds_iff.mpr ⟨_, placed, rfl⟩)
      rw [number, placed] at found
      exact Option.some.inj found ▸ resolved

theorem merged_of_mem_eventsAt {number : UInt64} {e : Event} (mem : e ∈ s.view.eventsAt chain number) :
    ∃ head, s.view.headAt? chain number = some head ∧ e.mergeWith head = e := by
  obtain ⟨head, placed, old, -, rfl⟩ := ChainTable.mem_eventsAt.mp mem
  exact ⟨head, placed, rfl⟩

theorem upsertHead_cases {σ : Type} {head : Head} (hooks : List (Hook σ Head)) (state : σ) (h : s.Sound) :
    (∃ e : TrackError, s.upsertHead head hooks state = ⟨.error e, s, state⟩) ∨
      ∃ stored : Head, ¬s.view.OwnedElsewhere head ∧ stored = s.view.settled head ∧
        Applied Sound view (s.upsertHead head hooks state) (runHooks hooks stored state) stored s.view
          (s.view.put stored) := by
  by_cases taken : s.view.OwnedElsewhere head
  · exact Or.inl ⟨_, upsertHead_taken hooks state h taken⟩
  · exact Or.inr ⟨_, taken, rfl, upsertHead_free hooks state h taken⟩

theorem saveLogs_read {σ : Type} {events : List Event} (hooks : List (Hook σ (List Event))) (state : σ) (h : s.Sound)
    (some_events : events ≠ []) (resolved : BlockStore.headOfHash? s chain hash = .ok (some block)) :
    Applied Sound view (s.saveLogs chain hash events hooks state)
      (runHooks hooks (events.map (·.mergeWith block)) state) (events.map (·.mergeWith block)) s.view
      (s.view.keep block events) := by
  obtain ⟨placed, -, rfl⟩ := view_of_headOfHash? h resolved
  exact saveLogs_known hooks state h some_events placed

theorem saveLogs_unread {σ : Type} {events : List Event} (hooks : List (Hook σ (List Event))) (state : σ)
    (h : s.Sound) (some_events : events ≠ [])
    (unread : ¬∃ block, BlockStore.headOfHash? s chain hash = .ok (some block)) :
    ∃ e : TrackError, s.saveLogs chain hash events hooks state = ⟨.error e, s, state⟩ :=
  ⟨_, saveLogs_unknown hooks state h some_events fun _ held => unread (headOfHash?_of_holds h held)⟩

theorem saveLogs_nil {σ : Type} (s : NestedStore) (chain : UInt64) (hash : String)
    (hooks : List (Hook σ (List Event))) (state : σ) :
    BlockStore.saveLogs s chain hash [] hooks state = ⟨.ok [], s, state⟩ := rfl

theorem events_stored {q : EventQuery} {answer : List Event} (h : s.Sound) (ok : BlockStore.events s q = .ok answer) :
    ∀ e ∈ answer, e ∈ s.view.eventsAt e.chain e.blockNumber := by
  intro e mem
  cases ok
  exact (((events_lists h _).mem_iff e).mp mem).1

theorem countEvents_zero {q : EventQuery} (h : s.Sound)
    (none : ∀ e, e ∈ s.view.eventsAt e.chain e.blockNumber → ¬q.admits e) : BlockStore.countEvents s q = .ok 0 := by
  have empty : s.events q = [] := List.eq_nil_iff_forall_not_mem.mpr fun e mem => by
    obtain ⟨stored, admits⟩ := ((events_lists h q).mem_iff e).mp mem
    exact none e stored admits
  exact congrArg (fun answer => Except.ok answer.length) empty

end NestedStore

instance : PlainStore NestedStore where
  Sound := NestedStore.Sound
  view := NestedStore.view
  shown := id
  shown_eq _ := ⟨rfl, rfl, rfl, rfl⟩
  view_sound := NestedStore.view_sound
  events_merged _ mem := NestedStore.merged_of_mem_eventsAt mem
  events_distinct chain number h := (NestedStore.places h chain number).distinct
  createHead_taken hooks state h taken := ⟨_, NestedStore.createHead_taken hooks state h taken⟩
  createHead_free hooks state h free := NestedStore.createHead_free hooks state h free
  upsertHead_cases hooks state h := NestedStore.upsertHead_cases hooks state h
  saveLogs_nil := NestedStore.saveLogs_nil
  saveLogs_unread hooks state h some_events unread := NestedStore.saveLogs_unread hooks state h some_events unread
  saveLogs_read hooks state h some_events resolved := NestedStore.saveLogs_read hooks state h some_events resolved
  headOfHash_view h resolved := NestedStore.view_of_headOfHash? h resolved
  headOfHash_none h unheld := NestedStore.headOfHash?_of_not_holds h unheld
  upsertHead_read h ok := NestedStore.upsertHead_read h ok
  has_iff q h := NestedStore.has_iff h q
  events_stored h ok := NestedStore.events_stored h ok
  events_block h _ _ _ := ⟨_, rfl, NestedStore.events_lists h _⟩
  countEvents_zero h _ none := NestedStore.countEvents_zero h none

namespace RelationalStore

variable {s : RelationalStore} {chain : UInt64} {hash : String}

theorem upsertHead_read {σ : Type} {head stored : Head} {hooks : List (Hook σ Head)} {state : σ} (h : s.Intact)
    (ok : (BlockStore.upsertHead s head hooks state).outcome = .ok stored) :
    BlockStore.headOfHash? (BlockStore.upsertHead s head hooks state).store stored.chain stored.hash =
      .ok (some stored) := by
  change (s.upsertHead head hooks state).outcome = .ok stored at ok
  change BlockStore.headOfHash? (s.upsertHead head hooks state).store _ _ = _
  unfold upsertHead at ok ⊢
  split at ok
  · cases ok
  · rename_i row t written
    split at ok
    · cases ok
    · rename_i read
      split at ok
      · rename_i passed
        cases ok
        obtain ⟨-, -, intact, -⟩ := h.upsertBlock? written read
        have readable := BlockRow.isReadable_of_head read
        have kept := BlockRow.kept_of_head read
        refine (headOfHash?_eq_some intact).mpr ⟨row, rowOfHash?_of_mem intact ?_ ?_ ?_, read⟩
        · exact (writes_of_upsert h.keyed written).mem
        · rw [readable.chain, kept]
        · rw [readable.hash, kept]
      · cases ok

theorem merged_of_mem_eventsAt (h : s.Intact) {number : UInt64} {e : Event}
    (mem : e ∈ s.bare.view.eventsAt chain number) :
    ∃ head, s.bare.view.headAt? chain number = some head ∧ e.mergeWith head = e := by
  obtain ⟨row, stored, chain, number, r, -, -, rfl⟩ := (mem_eventsAt h.sound).mp mem
  exact ⟨row.kept, (headAt?_eq_some h.sound).mpr ⟨row, stored, rfl, chain, number⟩, rfl⟩

theorem view_of_headOfHash? {block : Head} (h : s.Intact)
    (resolved : BlockStore.headOfHash? s chain hash = .ok (some block)) :
    s.bare.view.headAt? chain block.number = some block.bare ∧ block.chain = chain ∧ block.hash = hash := by
  obtain ⟨row, found, read⟩ := (headOfHash?_eq_some h).mp resolved
  obtain ⟨mem, chain, hash⟩ := mem_of_rowOfHash? found read
  refine ⟨(headAt?_eq_some h.sound).mpr ⟨row.bare, mem_bare mem, ?_, chain, rfl⟩, chain, hash⟩
  exact BlockRow.kept_of_head (BlockRow.head_bare read)

theorem headOfHash?_of_not_holds (h : s.Intact) (unheld : ∀ number, ¬s.bare.view.holds chain number hash) :
    BlockStore.headOfHash? s chain hash = .ok none := by
  rw [headOfHash?_eq h]
  cases found : s.rowOfHash? chain hash with
  | none => rfl
  | some row =>
      have held := (holds_iff_row h.sound).mpr ⟨row.bare, by rw [bare_rowOfHash?, found]; rfl, rfl⟩
      exact (unheld _ held).elim

theorem has_iff_view (h : s.Intact) (q : HeadQuery) : BlockStore.Has s q ↔
    ∃ head, s.bare.view.headAt? head.chain head.number = some head ∧ q.admits head := by
  rw [has_iff]
  constructor
  · intro found
    obtain ⟨row, mem, admits⟩ := found
    have bare_mem := mem_bare mem
    have admits : row.bare.admittedBy q := admits
    rw [(h.sound.readable bare_mem).admittedBy] at admits
    exact ⟨row.bare.kept, (headAt?_eq_some h.sound).mpr ⟨row.bare, bare_mem, rfl, rfl, rfl⟩, admits⟩
  · intro found
    obtain ⟨head, placed, admits⟩ := found
    obtain ⟨_, bare_mem, rfl, -, -⟩ := (headAt?_eq_some h.sound).mp placed
    rw [← (h.sound.readable bare_mem).admittedBy] at admits
    obtain ⟨row, mem, rfl⟩ := List.mem_map.mp bare_mem
    exact ⟨row, mem, admits⟩

theorem saveLogs_nil {σ : Type} (s : RelationalStore) (chain : UInt64) (hash : String)
    (hooks : List (Hook σ (List Event))) (state : σ) :
    BlockStore.saveLogs s chain hash [] hooks state = ⟨.ok [], s, state⟩ := rfl

theorem events_block {block : Head} {q : EventQuery} (h : s.Intact)
    (resolved : BlockStore.headOfHash? s chain hash = .ok (some block)) (of : q.IsOf block)
    (collated : q.IsCollated) : ∃ answer, BlockStore.events s q = .ok answer ∧ s.bare.view.ListsEvents q answer := by
  obtain ⟨row, found, read⟩ := (headOfHash?_eq_some h).mp resolved
  have answered := (bare_selectEvents h (readsBlocks_of_block h found read of)).symm.trans (selectEvents_ok h.sound q)
  exact ⟨_, answered, events_lists h.sound collated⟩

theorem countEvents_zero {q : EventQuery} (h : s.Intact) (collated : q.IsCollated)
    (none : ∀ e, e ∈ s.bare.view.eventsAt e.chain e.blockNumber → ¬q.admits e) :
    BlockStore.countEvents s q = .ok 0 := by
  have same : s.countEvents q = s.bare.countEvents q := by
    simp only [countEvents, bare, List.any_map]
    rfl
  have empty : (s.bare.found q).mergeSort Event.before = [] := List.eq_nil_iff_forall_not_mem.mpr fun e mem => by
    obtain ⟨stored, admits⟩ := ((events_lists h.sound collated).mem_iff e).mp mem
    exact none e stored admits
  exact congrArg Except.ok (by rw [same, countEvents_eq h.sound, empty]; rfl)

end RelationalStore

instance : PlainStore RelationalStore where
  Sound := RelationalStore.Intact
  view s := s.bare.view
  shown := Head.bare
  shown_eq _ := ⟨rfl, rfl, rfl, rfl⟩
  view_sound h := RelationalStore.view_sound h.sound
  events_merged h mem := RelationalStore.merged_of_mem_eventsAt h mem
  events_distinct chain number h := (RelationalStore.places h.sound chain number).distinct
  createHead_taken hooks state h taken := RelationalStore.createHead_refused hooks state h taken
  createHead_free hooks state h free := RelationalStore.createHead_placed hooks state h free
  upsertHead_cases hooks state h := RelationalStore.upsertHead_cases hooks state h
  saveLogs_nil := RelationalStore.saveLogs_nil
  saveLogs_unread hooks state h some_events unread := RelationalStore.saveLogs_refused hooks state h some_events unread
  saveLogs_read hooks state h some_events resolved := RelationalStore.saveLogs_kept hooks state h some_events resolved
  headOfHash_view h resolved := RelationalStore.view_of_headOfHash? h resolved
  headOfHash_none h unheld := RelationalStore.headOfHash?_of_not_holds h unheld
  upsertHead_read h ok := RelationalStore.upsertHead_read h ok
  has_iff q h := RelationalStore.has_iff_view h q
  events_stored h ok _ mem := RelationalStore.mem_eventsAt_of_selectEvents h ok mem
  events_block h resolved of collated := RelationalStore.events_block h resolved of collated
  countEvents_zero h collated none := RelationalStore.countEvents_zero h collated none

theorem NestedStore.headAt?_empty (chain number : UInt64) :
    (PlainStore.view NestedStore.empty).headAt? chain number = none := by
  simp [PlainStore.view, view, empty, table, ChainTable.empty]

theorem RelationalStore.headAt?_empty (chain number : UInt64) :
    (PlainStore.view RelationalStore.empty).headAt? chain number = none := rfl

/-! ## One write -/

/-- The head that a write puts in place, if it writes one. -/
def Write.head? {σ : Type} : Write σ → Option Head
  | createHead head _ | upsertHead head _ => some head
  | saveLogs _ _ _ _ => none

namespace PlainStore

variable {S σ : Type} [BlockStore S] [PlainStore S] {s : S}

@[simp] theorem shown_chain (head : Head) : (shown S head).chain = head.chain := (shown_eq head).1

@[simp] theorem shown_number (head : Head) : (shown S head).number = head.number := (shown_eq head).2.1

@[simp] theorem shown_hash (head : Head) : (shown S head).hash = head.hash := (shown_eq head).2.2.1

@[simp] theorem shown_state (head : Head) : (shown S head).state = head.state := (shown_eq head).2.2.2

@[simp] theorem mergeWith_shown (e : Event) (block : Head) : e.mergeWith (shown S block) = e.mergeWith block := by
  simp [Event.mergeWith]

/-- The effect of a write on a store. -/
inductive Becomes (s : S) : Write σ → Except TrackError Stored → S → Prop where
  | failed {w : Write σ} {e : TrackError} {t : S} : view t = view s → Becomes s w (.error e) t
  | placed {w : Write σ} {head stored : Head} {t : S} : w.head? = some head →
      stored.chain = head.chain → stored.number = head.number → stored.hash = head.hash →
      ¬(view s).OwnedElsewhere stored → view t = (view s).put (shown S stored) → Becomes s w (.ok (.head stored)) t
  | empty {chain : UInt64} {hash : String} {hooks : List (Hook σ (List Event))} :
      Becomes s (.saveLogs chain hash [] hooks) (.ok (.events [])) s
  | kept {chain : UInt64} {hash : String} {events : List Event} {hooks : List (Hook σ (List Event))} {block : Head}
      {t : S} : BlockStore.headOfHash? s chain hash = .ok (some block) →
      view t = (view s).keep (shown S block) events →
      Becomes s (.saveLogs chain hash events hooks) (.ok (.events (events.map (·.mergeWith block)))) t

/-- A write that only its hooks can fail takes effect as a whole or not at all. -/
theorem becomes_of_applied {α : Type} {w : Write σ} {written : Written S σ α} {hooked : Except TrackError Unit × σ}
    {stored : α} {after : View} {f : α → Stored}
    (applied : Applied Sound view written hooked stored (view s) after)
    (done : view written.store = after → Becomes s w (.ok (f stored)) written.store) :
    Sound (written.stored f).store ∧ Becomes s w (written.stored f).outcome (written.stored f).store := by
  have outcome : (written.stored f).outcome = (hooked.1.map fun _ => stored).map f :=
    congrArg (Except.map f) applied.outcome
  have seen := applied.view
  refine ⟨applied.sound, ?_⟩
  rw [outcome]
  cases ran : hooked.1 with
  | error e =>
      rw [ran] at seen
      exact .failed seen
  | ok _ =>
      rw [ran] at seen
      exact done seen

/-- A write leaves the view as it is, or takes effect as a whole. -/
theorem run_becomes (h : Sound s) (w : Write σ) (state : σ) :
    Sound (w.run s state).store ∧ Becomes s w (w.run s state).outcome (w.run s state).store := by
  cases w with
  | createHead head hooks =>
      by_cases taken : (view s).Taken head
      · obtain ⟨e, refused⟩ := createHead_taken hooks state h taken
        rw [Write.run, refused]
        exact ⟨h, .failed rfl⟩
      · have free : ¬(view s).OwnedElsewhere head := fun ⟨number, _, held⟩ => taken (Or.inr ⟨number, held⟩)
        exact becomes_of_applied (createHead_free hooks state h taken) (.placed rfl rfl rfl rfl free)
  | upsertHead head hooks =>
      rcases upsertHead_cases hooks state h with ⟨e, refused⟩ | ⟨stored, free, settled, applied⟩
      · rw [Write.run, refused]
        exact ⟨h, .failed rfl⟩
      · have chain : stored.chain = head.chain := by simpa using congrArg Head.chain settled
        have number : stored.number = head.number := by simpa using congrArg Head.number settled
        have hash : stored.hash = head.hash := by simpa using congrArg Head.hash settled
        have free : ¬(view s).OwnedElsewhere stored := by rwa [View.OwnedElsewhere, chain, number, hash]
        exact becomes_of_applied applied (.placed rfl chain number hash free)
  | saveLogs chain hash events hooks =>
      by_cases none : events = []
      · subst none
        rw [Write.run, saveLogs_nil]
        exact ⟨h, .empty⟩
      by_cases resolved : ∃ block, BlockStore.headOfHash? s chain hash = .ok (some block)
      · obtain ⟨block, resolved⟩ := resolved
        exact becomes_of_applied (saveLogs_read hooks state h none resolved) (.kept resolved)
      · obtain ⟨e, refused⟩ := saveLogs_unread hooks state h none resolved
        rw [Write.run, refused]
        exact ⟨h, .failed rfl⟩

theorem runWrites_sound (h : Sound s) (writes : List (Write σ)) (state : σ) :
    Sound (runWrites writes s state).store :=
  runWrites_invariant (I := Sound) writes (fun w _ _ state h => (run_becomes h w state).1) h state

end PlainStore

end Chainwatch
