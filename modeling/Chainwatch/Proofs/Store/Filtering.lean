import Chainwatch.Proofs.Store.Answers
import Chainwatch.Proofs.Store.Equivalence
import Chainwatch.Proofs.Store.Rollback

/-!
# Answers are what the filter says

A query is answered with what is stored and admitted, in order and each once, and the counts are the
lengths of the answers. Tables compare an address or a signature only up to a NUL. They miss nothing that
a query for events admits, and answer with more exactly if a stored event differs from the query behind a
NUL alone.
-/

namespace Chainwatch

/-! ## Texts up to a NUL -/

namespace Text

theorem takeWhile_map_toLower (s : List Char) :
    (s.map Char.toLower).takeWhile (· != '\x00') = (s.takeWhile (· != '\x00')).map Char.toLower := by
  induction s with
  | nil => rfl
  | cons c s ih =>
      by_cases nul : c = '\x00'
      · subst nul
        rfl
      · have small : c.toLower ≠ '\x00' := fun same => nul (eq_nul_of_toLower same)
        simp [nul, small, ih]

/-- Texts that agree up to the case of letters agree up to a NUL. -/
theorem eqBeforeNul_of_eqIgnoreCase {s t : String} (same : eqIgnoreCase s t) : eqBeforeNul s t := by
  have same : s.toList.map Char.toLower = t.toList.map Char.toLower := eq_of_beq same
  have before := congrArg (List.takeWhile (· != '\x00')) same
  rw [takeWhile_map_toLower, takeWhile_map_toLower] at before
  simp only [eqBeforeNul, utf8, beforeNul, length_utf8_of_lower_eq same, before, beq_self_eq_true, Bool.and_self]

end Text

/-! ## What tables find -/

namespace EventQuery

/-- The conditions of a query on the block that owns an event. -/
def ofOwner (q : EventQuery) : EventQuery :=
  { chain := q.chain, blockNumber := q.blockNumber, blockHash := q.blockHash, state := q.state }

/-- Whether the tables find an event: address and signature are compared up to a NUL. -/
def finds (q : EventQuery) (e : Event) : Bool :=
  q.ofOwner.admits e && (EventRow.ofEvent 0 e).admittedBy q

variable {q : EventQuery} {e : Event}

theorem admits_eq (q : EventQuery) (e : Event) : q.admits e = (q.ofOwner.admits e && q.admitsOwn e) := by
  simp [admits, ofOwner, admitsOwn, fieldAdmits]

theorem ofOwner_admits_mergeWith (q : EventQuery) (e : Event) (block : Head) :
    q.ofOwner.admits (e.mergeWith block) = q.ofBlock?.all (·.admits block) := by
  rw [admits_mergeWith]
  have own : q.ofOwner.admitsOwn e = true := by simp [ofOwner, admitsOwn, fieldAdmits]
  rw [own, Bool.and_true]
  rfl

/-- The tables find every event that a query admits. -/
theorem finds_of_admits (admits : q.admits e) : q.finds e := by
  rw [admits_eq, Bool.and_eq_true] at admits
  obtain ⟨owner, own⟩ := admits
  rw [finds, owner, Bool.true_and]
  simp only [admitsOwn, Bool.and_eq_true] at own
  obtain ⟨⟨⟨⟨⟨address, txHash⟩, txIndex⟩, logIndex⟩, topic⟩, removed⟩ := own
  have address : q.address.all (Text.eqBeforeNul e.address) := by
    cases asked : q.address with
    | none => rfl
    | some address' =>
        rw [asked, Option.all_some, Text.eqIgnoreCase_comm] at address
        exact Text.eqBeforeNul_of_eqIgnoreCase address
  have topic : q.topic.all (fun topic => e.signature?.any (Text.eqBeforeNul · topic)) := by
    cases asked : q.topic with
    | none => rfl
    | some topic' =>
        rw [asked, Option.all_some, Option.any_eq_true] at topic
        obtain ⟨signature, mem, same⟩ := topic
        exact Option.any_eq_true _ _ |>.mpr ⟨signature, mem, Text.eqBeforeNul_of_eqIgnoreCase same⟩
  simp only [EventRow.admittedBy, EventRow.ofEvent, address, txHash, txIndex, logIndex, topic, removed, Bool.and_self]

/-- Without a NUL in the query, the tables find exactly the events that it admits. -/
theorem finds_eq_admits (collated : q.IsCollated) (e : Event) : q.finds e = q.admits e := by
  have own : (EventRow.ofEvent 0 e).admittedBy q = q.admitsOwn e :=
    EventRow.admittedBy_eq (show (EventRow.ofEvent 0 e).signature = e.topics.head? from rfl) collated default
  rw [finds, own, ← admits_eq]

end EventQuery

/-- Every query is answered with what is stored and admitted, in order and each once, and counts are the
lengths of the answers. -/
structure AnswersExactly {S : Type} [BlockStore S] (s : S) (v : View) (admitted : EventQuery → Event → Bool) :
    Prop where
  heads : ∀ q, ∃ answer, BlockStore.heads s q = .ok answer ∧ v.ListsHeads q answer ∧
    BlockStore.countHeads s q = .ok answer.length
  events : ∀ q, ∃ answer, BlockStore.events s q = .ok answer ∧ answer.Pairwise Event.Precedes ∧
    (∀ e, e ∈ answer ↔ e ∈ v.eventsAt e.chain e.blockNumber ∧ admitted q e) ∧
    BlockStore.countEvents s q = .ok answer.length

theorem NestedStore.answersExactly {s : NestedStore} (h : s.Sound) : AnswersExactly s s.view EventQuery.admits where
  heads q := ⟨s.heads q, rfl, heads_lists h q, rfl⟩
  events q :=
    have lists := events_lists h q
    ⟨s.events q, rfl, lists.ordered, lists.mem_iff, rfl⟩

namespace RelationalStore

variable {s : RelationalStore} {q : EventQuery} {e : Event}

theorem mem_found_iff_finds (h : s.Sound) :
    e ∈ s.found q ↔ e ∈ s.view.eventsAt e.chain e.blockNumber ∧ q.finds e := by
  rw [mem_found_iff h]
  refine and_congr_right fun stored => ?_
  obtain ⟨row, mem, -, -, r, -, -, merged⟩ := (mem_eventsAt h).mp stored
  -- the block that the event was merged with is the one stored under its number
  have placed : s.view.headAt? e.chain e.blockNumber = some row.kept :=
    (headAt?_eq_some h).mpr ⟨row, mem, rfl, by rw [← merged]; rfl, by rw [← merged]; rfl⟩
  have owner : q.ofOwner.admits e = q.ofBlock?.all (·.admits row.kept) := by
    rw [← EventQuery.ofOwner_admits_mergeWith q e, ← merged, EventRow.event_mergeWith]
  rw [EventQuery.finds, owner, Bool.and_eq_true, and_comm]
  simp only [placed, Option.some.injEq, exists_eq_left']

theorem answersExactly (h : s.Sound) (small : s.view.IsSmall) : AnswersExactly s s.view EventQuery.finds where
  heads q := ⟨_, heads_ok h q, heads_lists h small q, congrArg Except.ok (s.countHeads_eq q)⟩
  events q := by
    refine ⟨_, selectEvents_ok h q, found_ordered h q, fun e => ?_, congrArg Except.ok (countEvents_eq h q)⟩
    rw [List.mem_mergeSort, mem_found_iff_finds h]

end RelationalStore

/-- The answer is exact if and only if every event found is admitted. -/
theorem AnswersExactly.lists_iff {S : Type} [BlockStore S] {s : S} {v : View} {admitted : EventQuery → Event → Bool}
    (exactly : AnswersExactly s v admitted) {q : EventQuery} (wider : ∀ e, q.admits e → admitted q e) :
    (∃ answer, BlockStore.events s q = .ok answer ∧ v.ListsEvents q answer) ↔
      ∀ e ∈ v.eventsAt e.chain e.blockNumber, admitted q e → q.admits e := by
  obtain ⟨answer, ok, ordered, mem_iff, -⟩ := exactly.events q
  constructor
  · rintro ⟨answer', ok', lists⟩ e stored found
    cases ok.symm.trans ok'
    exact ((lists.mem_iff e).mp ((mem_iff e).mpr ⟨stored, found⟩)).2
  · intro none
    refine ⟨answer, ok, ordered, fun e => ?_⟩
    rw [mem_iff e]
    exact and_congr_right fun stored => ⟨none e stored, wider e⟩

/-! ## Stores that writes lead to -/

/-- After any writes, a nested store answers every query with exactly what it holds and the query
admits. A relational store of the same view does so for heads. For events it misses nothing, and is
exact if and only if no stored event differs from the query behind a NUL alone; a query without a NUL is
answered exactly. -/
theorem queries_answered_exactly {σ : Type} (writes : List (Write σ)) (state : σ) :
    let nested := (runWrites writes NestedStore.empty state).store
    let relational := (runWrites writes RelationalStore.empty state).store
    AnswersExactly nested nested.view EventQuery.admits ∧
      ((∀ w ∈ writes, w.Fits) →
        relational.view = nested.view ∧ AnswersExactly relational relational.view EventQuery.finds ∧
          ∀ q : EventQuery, (∀ e, q.admits e → q.finds e) ∧
            ((∃ answer, BlockStore.events relational q = .ok answer ∧ relational.view.ListsEvents q answer) ↔
              ∀ e ∈ relational.view.eventsAt e.chain e.blockNumber, q.finds e → q.admits e) ∧
            ((∀ text, text ∈ q.address ∨ text ∈ q.topic → '\x00' ∉ text.toList) → ∀ e, q.finds e = q.admits e)) := by
  intro nested relational
  refine ⟨NestedStore.answersExactly (NestedStore.runWrites_sound NestedStore.sound_empty writes state), ?_⟩
  intro fits
  obtain ⟨-, -, agree⟩ := runWrites_agree empty_agree writes fits state
  have same : nested.view = relational.view := agree.same
  have sound : relational.Sound := agree.right
  have exactly : AnswersExactly relational relational.view EventQuery.finds :=
    RelationalStore.answersExactly sound (same ▸ agree.small)
  refine ⟨same.symm, exactly, fun q => ⟨fun e => EventQuery.finds_of_admits, ?_, fun plain e => ?_⟩⟩
  · exact exactly.lists_iff fun e => EventQuery.finds_of_admits
  · exact EventQuery.finds_eq_admits
      (EventQuery.isCollated_of_plain (fun text mem => plain text (Or.inl mem))
        fun text mem => plain text (Or.inr mem)) e

def nulWrites : List (Write Unit) :=
  let log (address : String) (logIndex : UInt32) : Event := { (default : Event) with address, logIndex }
  [.createHead { (default : Head) with chain := 1, number := 1, hash := "0xh1" } [],
    .saveLogs 1 "0xh1" [log "0xaa\x00x" 0, log "0xAA\x00y" 1] []]

theorem nulWrites_fit : ∀ w ∈ nulWrites, w.Fits := by
  intro w mem
  simp only [nulWrites, List.mem_cons, List.not_mem_nil, or_false] at mem
  rcases mem with rfl | rfl
  · exact ⟨by decide, by decide, List.length_replicate⟩
  · trivial

theorem queries_answered_exactly_two_events :
    (∀ w ∈ nulWrites, w.Fits) ∧
      AnswersExactly (runWrites nulWrites RelationalStore.empty ()).store
        (runWrites nulWrites RelationalStore.empty ()).store.view EventQuery.finds :=
  ⟨nulWrites_fit, ((queries_answered_exactly nulWrites ()).2 nulWrites_fit).2.1⟩

/-- A query for the address of one event is answered by a relational store with the other as well. -/
theorem relational_answers_unasked_event :
    (∀ w ∈ nulWrites, w.Fits) ∧
      ∃ answer, BlockStore.events (runWrites nulWrites RelationalStore.empty ()).store
          { address := some "0xaa\x00x" } = .ok answer ∧
        ∃ e ∈ answer, ({ address := some "0xaa\x00x" } : EventQuery).admits e = false := by
  obtain ⟨-, -, agree⟩ := runWrites_agree empty_agree nulWrites nulWrites_fit ()
  have sound : (runWrites nulWrites RelationalStore.empty ()).store.Sound := agree.right
  have small : (runWrites nulWrites RelationalStore.empty ()).store.view.IsSmall :=
    (show _ = RelationalStore.view _ from agree.same) ▸ agree.small
  obtain ⟨answer, ok, -, mem_iff, -⟩ :=
    (RelationalStore.answersExactly sound small).events { address := some "0xaa\x00x" }
  let other : Event := { (default : Event) with
    chain := 1, blockNumber := 1, blockHash := "0xh1", address := "0xAA\x00y", logIndex := 1 }
  exact ⟨nulWrites_fit, answer, ok, other, (mem_iff other).mpr (by decide +kernel), by decide⟩

end Chainwatch
