import Std.Data.ExtTreeMap.Lemmas
import Chainwatch.Proofs.Store.View

/-!
# The nested store keeps its view

The maps of a chain stay consistent: heads and numbers are inverse, and events are stored under the hash
of a stored head. A failed hook leaves the table as it was, so that every operation has the effect on the
view that `LawfulStore` specifies.
-/

namespace Chainwatch

namespace Event

@[simp] theorem mergeWith_logIndex (e : Event) (block : Head) :
    (e.mergeWith block).logIndex = e.logIndex := rfl

@[simp] theorem mergeWith_mergeWith (e : Event) (old block : Head) :
    (e.mergeWith old).mergeWith block = e.mergeWith block := rfl

end Event

theorem EventQuery.admits_mergeWith (q : EventQuery) (e : Event) (block : Head) :
    q.admits (e.mergeWith block) = (q.ofBlock?.all (·.admits block) && q.admitsOwn e) := by
  have own : q.admitsOwn (e.mergeWith block) = q.admitsOwn e := rfl
  unfold EventQuery.ofBlock?
  dsimp only
  split
  · rename_i nothing
    simp only [HeadQuery.mk.injEq] at nothing
    obtain ⟨chain, number, hash, -, state⟩ := nothing
    simp [EventQuery.admits, own, chain, number, hash, state, fieldAdmits]
  · rw [EventQuery.admits, own]
    simp only [Option.all_some, HeadQuery.admits, Event.mergeWith, fieldAdmits, Option.all_none,
      Bool.and_true]

namespace ChainTable

/-! ## Adding events -/

@[simp] theorem appendNew_nil (kept : List Event) : appendNew kept [] = kept := rfl

theorem appendNew_cons (kept : List Event) (e : Event) (events : List Event) :
    appendNew kept (e :: events) =
      appendNew (if kept.any (·.logIndex == e.logIndex) then kept else kept ++ [e]) events := rfl

theorem appendNew_prefix (kept events : List Event) :
    ∃ added, appendNew kept events = kept ++ added := by
  induction events generalizing kept with
  | nil => exact ⟨[], by simp⟩
  | cons e events ih =>
      rw [appendNew_cons]
      split
      · exact ih kept
      · obtain ⟨added, h⟩ := ih (kept ++ [e])
        exact ⟨e :: added, by simp [h]⟩

theorem take_appendNew (kept events : List Event) :
    (appendNew kept events).take kept.length = kept := by
  obtain ⟨added, h⟩ := appendNew_prefix kept events
  simp [h]

theorem mem_appendNew {kept events : List Event} {e : Event} (h : e ∈ appendNew kept events) :
    e ∈ kept ∨ e ∈ events := by
  induction events generalizing kept with
  | nil => exact Or.inl h
  | cons first events ih =>
      rw [appendNew_cons] at h
      rcases ih h with h | h
      · split at h
        · exact Or.inl h
        · rcases List.mem_append.mp h with h | h
          · exact Or.inl h
          · exact Or.inr (by simp_all)
      · exact Or.inr (List.mem_cons_of_mem _ h)

theorem appendNew_distinct {kept : List Event} (events : List Event)
    (h : kept.Pairwise (·.logIndex ≠ ·.logIndex)) :
    (appendNew kept events).Pairwise (·.logIndex ≠ ·.logIndex) := by
  induction events generalizing kept with
  | nil => exact h
  | cons e events ih =>
      rw [appendNew_cons]
      apply ih
      split
      · exact h
      · rename_i fresh
        rw [List.pairwise_append]
        refine ⟨h, List.pairwise_singleton _ _, ?_⟩
        intro a ha b hb same
        rcases List.mem_singleton.mp hb with rfl
        exact fresh (List.any_eq_true.mpr ⟨a, ha, by simp [same]⟩)

theorem map_appendNew {f : Event → Event} (hf : ∀ e, (f e).logIndex = e.logIndex)
    (kept events : List Event) :
    (appendNew kept events).map f = appendNew (kept.map f) (events.map f) := by
  induction events generalizing kept with
  | nil => rfl
  | cons e events ih =>
      rw [List.map_cons, appendNew_cons, appendNew_cons, ih]
      have same : (kept.map f).any (·.logIndex == (f e).logIndex) =
          kept.any (·.logIndex == e.logIndex) := by
        simp [List.any_map, Function.comp_def, hf]
      rw [same]
      split <;> simp

theorem appendNew_of_present {kept events : List Event}
    (present : ∀ e ∈ events, ∃ old ∈ kept, old.logIndex = e.logIndex) : appendNew kept events = kept := by
  induction events with
  | nil => rfl
  | cons e events ih =>
      obtain ⟨old, mem, same⟩ := present e List.mem_cons_self
      rw [appendNew_cons, if_pos (List.any_eq_true.mpr ⟨old, mem, by simp [same]⟩)]
      exact ih fun e mem => present e (List.mem_cons_of_mem _ mem)

theorem present_appendNew (kept events : List Event) :
    ∀ e ∈ events, ∃ old ∈ appendNew kept events, old.logIndex = e.logIndex := by
  induction events generalizing kept with
  | nil => simp
  | cons first events ih =>
      intro e mem
      rw [appendNew_cons]
      rcases List.mem_cons.mp mem with rfl | mem
      · obtain ⟨added, front⟩ := appendNew_prefix (if kept.any (·.logIndex == e.logIndex) then kept
          else kept ++ [e]) events
        rw [front]
        split
        · rename_i taken
          obtain ⟨old, held, same⟩ := List.any_eq_true.mp taken
          exact ⟨old, List.mem_append_left _ held, beq_iff_eq.mp same⟩
        · exact ⟨e, by simp, rfl⟩
      · exact ih _ e mem

/-- `appendNew` is idempotent. -/
theorem appendNew_appendNew (kept events : List Event) :
    appendNew (appendNew kept events) events = appendNew kept events :=
  appendNew_of_present (present_appendNew kept events)

/-- Events of distinct free places are all added. -/
theorem appendNew_of_distinct {kept events : List Event} (distinct : events.Pairwise (·.logIndex ≠ ·.logIndex))
    (free : ∀ old ∈ kept, ∀ e ∈ events, old.logIndex ≠ e.logIndex) : appendNew kept events = kept ++ events := by
  induction events generalizing kept with
  | nil => simp
  | cons e events ih =>
      obtain ⟨apart, rest⟩ := List.pairwise_cons.mp distinct
      have fresh : ¬kept.any (·.logIndex == e.logIndex) := by
        rw [List.any_eq_true]
        intro taken
        obtain ⟨old, mem, same⟩ := taken
        exact free old mem e List.mem_cons_self (beq_iff_eq.mp same)
      rw [appendNew_cons, if_neg fresh, ih rest]
      · simp
      · intro old mem other member
        rcases List.mem_append.mp mem with mem | mem
        · exact free old mem other (List.mem_cons_of_mem _ member)
        · rw [List.mem_singleton.mp mem]
          exact apart other member

/-! ## Consistency of one chain -/

/-- The maps of one chain are consistent. -/
structure Sound (chain : UInt64) (s : ChainTable) : Prop where
  chain_eq : ∀ {number : UInt64} {head : Head}, s.heads[number]? = some head → head.chain = chain
  number_eq : ∀ {number : UInt64} {head : Head}, s.heads[number]? = some head → head.number = number
  numbers : ∀ {hash : String} {number : UInt64},
    s.numbers[hash]? = some number ↔ ∃ head : Head, s.heads[number]? = some head ∧ head.hash = hash
  owned : ∀ {hash : String} {e : Event}, e ∈ s.eventsOf hash →
    e.chain = chain ∧ e.blockHash = hash ∧ s.numbers[hash]? = some e.blockNumber
  distinct : ∀ hash, (s.eventsOf hash).Pairwise (·.logIndex ≠ ·.logIndex)

/-- The events of a number, merged with its head. -/
def eventsAt (s : ChainTable) (number : UInt64) : List Event :=
  match s.heads[number]? with
  | none => []
  | some head => (s.eventsOf head.hash).map (·.mergeWith head)

theorem sound_empty (chain : UInt64) : Sound chain .empty := by
  constructor <;> simp [empty, eventsOf]

variable {chain : UInt64} {s : ChainTable} {head : Head}

theorem Sound.eventsOf_free (h : s.Sound chain) {hash : String} (free : s.numbers[hash]? = none) :
    s.eventsOf hash = [] := by
  apply List.eq_nil_iff_forall_not_mem.mpr
  intro e he
  rw [(h.owned he).2.2] at free
  cases free

/-! ## Putting a head in place -/

theorem replacedBy_congr {a b : Head} (number : a.number = b.number) (hash : a.hash = b.hash) :
    s.replacedBy a = s.replacedBy b := by
  simp only [replacedBy, number, hash]

theorem put_eq_replace (free : s.heads[head.number]? = none) :
    s.put head = s.replace head (s.replacedBy head) := by
  simp [replace, replacedBy, free]

theorem replacedBy_head (s : ChainTable) (head : Head) :
    (s.replacedBy head).head = s.heads[head.number]? := by
  unfold replacedBy
  cases s.heads[head.number]? <;> rfl

theorem replace_heads (s : ChainTable) (head : Head) :
    (s.replace head (s.replacedBy head)).heads = s.heads.insert head.number head := by
  unfold replace replacedBy
  cases s.heads[head.number]? <;> rfl

theorem replace_numbers (h : s.Sound chain) (head : Head) (hash : String) :
    (s.replace head (s.replacedBy head)).numbers[hash]? =
      if hash = head.hash then some head.number
      else if s.numbers[hash]? = some head.number then none else s.numbers[hash]? := by
  unfold replace replacedBy
  cases hold : s.heads[head.number]? with
  | none =>
      have absent : s.numbers[hash]? ≠ some head.number := by
        simp [h.numbers, hold]
      simp only [put, Std.ExtTreeMap.getElem?_insert, Std.LawfulEqCmp.compare_eq_iff_eq]
      by_cases eq : hash = head.hash
      · simp [eq]
      · simp [eq, Ne.symm eq, absent]
  | some old =>
      have own : s.numbers[old.hash]? = some head.number := h.numbers.mpr ⟨old, hold, rfl⟩
      simp only [Std.ExtTreeMap.getElem?_insert, Std.ExtTreeMap.getElem?_erase,
        Std.LawfulEqCmp.compare_eq_iff_eq]
      by_cases eq : hash = head.hash
      · simp [eq]
      · by_cases eqOld : hash = old.hash
        · subst eqOld
          simp [eq, Ne.symm eq, own]
        · have other : s.numbers[hash]? ≠ some head.number := by
            intro same
            rcases h.numbers.mp same with ⟨found, hfound, rfl⟩
            rw [hold] at hfound
            cases hfound
            exact eqOld rfl
          simp [eq, Ne.symm eq, Ne.symm eqOld, other]

theorem replace_eventsOf (h : s.Sound chain) (hash : String) :
    (s.replace head (s.replacedBy head)).eventsOf hash =
      if hash ≠ head.hash ∧ s.numbers[hash]? = some head.number then [] else s.eventsOf hash := by
  unfold replace replacedBy
  cases hold : s.heads[head.number]? with
  | none =>
      have absent : s.numbers[hash]? ≠ some head.number := by
        simp [h.numbers, hold]
      simp [absent, put, eventsOf]
  | some old =>
      have own : s.numbers[old.hash]? = some head.number := h.numbers.mpr ⟨old, hold, rfl⟩
      have only : s.numbers[hash]? = some head.number ↔ hash = old.hash := by
        constructor
        · intro same
          rcases h.numbers.mp same with ⟨found, hfound, rfl⟩
          rw [hold] at hfound
          cases hfound
          rfl
        · intro h
          cases h
          exact own
      simp only [only, eventsOf]
      by_cases same : old.hash = head.hash
      · by_cases eq : hash = old.hash
        · simp [eq, same]
        · simp [same]
      · by_cases eq : hash = old.hash
        · subst eq
          simp [same]
        · simp [same, eq, Std.ExtTreeMap.getD_erase, Std.LawfulEqCmp.compare_eq_iff_eq, Ne.symm eq]

theorem getElem?_heads_replace (number : UInt64) : (s.replace head (s.replacedBy head)).heads[number]? =
    if number = head.number then some head else s.heads[number]? := by
  rw [replace_heads, Std.ExtTreeMap.getElem?_insert]
  simp only [Std.LawfulEqCmp.compare_eq_iff_eq, eq_comm (a := head.number)]

/-- After `replace` the map of hashes is still the inverse of the map of heads. -/
theorem numbers_replace_iff (h : s.Sound chain)
    (free : ∀ number, s.numbers[head.hash]? = some number → number = head.number) {hash : String} {number : UInt64} :
    (s.replace head (s.replacedBy head)).numbers[hash]? = some number ↔
      ∃ found, (s.replace head (s.replacedBy head)).heads[number]? = some found ∧ found.hash = hash := by
  rw [replace_numbers h, getElem?_heads_replace]
  by_cases eq : hash = head.hash
  · subst eq
    by_cases same : number = head.number
    · simp [same]
    · simp only [if_true, same, if_false, Option.some.injEq, Ne.symm same, false_iff]
      intro h
      rcases h with ⟨found, hf, hhash⟩
      exact same (free number (h.numbers.mpr ⟨found, hf, hhash⟩))
  · by_cases own : s.numbers[hash]? = some head.number
    · by_cases same : number = head.number
      · simp [eq, own, same, Ne.symm eq]
      · simp only [eq, own, same, if_false, if_true, reduceCtorEq, false_iff]
        intro found
        rw [← h.numbers, own] at found
        simp_all
    · by_cases same : number = head.number
      · subst same
        simp [eq, own, Ne.symm eq]
      · simp [eq, own, same, h.numbers]

theorem replace_sound (h : s.Sound chain) (hc : head.chain = chain)
    (free : ∀ number, s.numbers[head.hash]? = some number → number = head.number) :
    (s.replace head (s.replacedBy head)).Sound chain := by
  constructor
  case chain_eq =>
    intro number found hf
    rw [getElem?_heads_replace] at hf
    split at hf
    · cases hf; exact hc
    · exact h.chain_eq hf
  case number_eq =>
    intro number found hf
    rw [getElem?_heads_replace] at hf
    split at hf
    · cases hf; simp_all
    · exact h.number_eq hf
  case numbers => exact numbers_replace_iff h free
  case owned =>
    intro hash e he
    rw [replace_eventsOf h] at he
    split at he
    · simp at he
    · rename_i kept
      obtain ⟨hchain, hhash, hnumber⟩ := h.owned he
      refine ⟨hchain, hhash, ?_⟩
      rw [replace_numbers h, hnumber]
      by_cases eq : hash = head.hash
      · subst eq
        simp [free _ hnumber]
      · rw [hnumber] at kept
        simp_all
  case distinct =>
    intro hash
    rw [replace_eventsOf h]
    split
    · exact List.Pairwise.nil
    · exact h.distinct hash

/-- `restore` undoes `replace`. -/
theorem restore_replace (h : s.Sound chain)
    (free : ∀ number, s.numbers[head.hash]? = some number → number = head.number) :
    (s.replace head (s.replacedBy head)).restore head (s.replacedBy head) = s := by
  cases s with
  | mk heads numbers events =>
    cases hold : heads[head.number]? with
    | none =>
        have absent : numbers[head.hash]? = none := by
          cases hn : numbers[head.hash]? with
          | none => rfl
          | some number =>
              obtain ⟨found, hf, -⟩ := h.numbers.mp hn
              rw [free number hn] at hf
              simp_all
        simp only [replace, restore, replacedBy, hold, put, take, ChainTable.mk.injEq, and_true]
        constructor
        · apply Std.ExtTreeMap.ext_getElem?
          intro number
          by_cases eq : head.number = number <;>
            simp_all [Std.ExtTreeMap.getElem?_erase, Std.ExtTreeMap.getElem?_insert]
        · apply Std.ExtTreeMap.ext_getElem?
          intro hash
          by_cases eq : head.hash = hash <;>
            simp_all [Std.ExtTreeMap.getElem?_erase, Std.ExtTreeMap.getElem?_insert]
    | some old =>
        have own : numbers[old.hash]? = some head.number := h.numbers.mpr ⟨old, hold, rfl⟩
        have number : old.number = head.number := h.number_eq hold
        have only : old.hash ≠ head.hash → numbers[head.hash]? = none := by
          intro other
          cases hn : numbers[head.hash]? with
          | none => rfl
          | some n =>
              obtain ⟨found, hf, hhash⟩ := h.numbers.mp hn
              rw [free n hn] at hf
              simp_all
        simp only [replace, restore, replacedBy, hold, ChainTable.mk.injEq]
        refine ⟨?_, ?_, ?_⟩
        · apply Std.ExtTreeMap.ext_getElem?
          intro n
          by_cases eq : head.number = n <;> simp_all [Std.ExtTreeMap.getElem?_insert]
        · apply Std.ExtTreeMap.ext_getElem?
          intro hash
          by_cases eqOld : old.hash = hash
          · simp_all
          · by_cases eq : head.hash = hash <;>
              simp_all [Std.ExtTreeMap.getElem?_erase, Std.ExtTreeMap.getElem?_insert]
        · by_cases same : old.hash = head.hash
          · simp [same]
          · simp only [same, if_false]
            apply Std.ExtTreeMap.ext_getElem?
            intro hash
            cases he : events[old.hash]? <;> by_cases eq : old.hash = hash <;>
              simp_all [Std.ExtTreeMap.getElem?_erase, Std.ExtTreeMap.getElem?_insert]

theorem take_put (h : s.Sound chain) (number : s.heads[head.number]? = none)
    (hash : s.numbers[head.hash]? = none) : (s.put head).take head = s := by
  have restored : (s.replace head (s.replacedBy head)).restore head (s.replacedBy head) = s :=
    restore_replace h (by simp [hash])
  rw [← put_eq_replace number] at restored
  simpa [restore, replacedBy, number] using restored

/-! ## Events of a number -/

theorem mem_select (h : s.Sound chain) {q : HeadQuery} :
    head ∈ s.select q ↔ s.heads[head.number]? = some head ∧ q.admits head := by
  simp only [select, List.mem_filter, List.mem_map, Prod.exists, exists_eq_right,
    Std.ExtTreeMap.mem_toList_iff_getElem?_eq_some]
  refine and_congr_left fun _ => ⟨?_, fun placed => ⟨_, placed⟩⟩
  intro h
  rcases h with ⟨number, placed⟩
  rw [h.number_eq placed]
  exact placed

theorem heads_ordered (h : s.Sound chain) : (s.heads.toList.map (·.2)).Pairwise Head.Precedes := by
  rw [List.pairwise_map]
  apply Std.ExtTreeMap.ordered_keys_toList.imp_of_mem
  intro h g ha hb hmn
  rcases h with ⟨m, a⟩
  rcases g with ⟨n, b⟩
  rw [Std.ExtTreeMap.mem_toList_iff_getElem?_eq_some] at ha hb
  refine Or.inr ⟨(h.chain_eq ha).trans (h.chain_eq hb).symm, ?_⟩
  rw [h.number_eq ha, h.number_eq hb]
  exact compareOfLessAndEq_eq_lt.mp hmn

theorem select_ordered (h : s.Sound chain) (q : HeadQuery) :
    (s.select q).Pairwise Head.Precedes :=
  (heads_ordered h).filter _

@[simp] theorem putEvents_heads (s : ChainTable) (hash : String) (events : List Event) :
    (s.putEvents hash events).heads = s.heads := rfl

theorem putEvents_eventsOf (s : ChainTable) (hash : String) (events : List Event) (other : String) :
    (s.putEvents hash events).eventsOf other =
      if other = hash then events else s.eventsOf other := by
  simp only [putEvents, eventsOf, Std.ExtTreeMap.getD_insert, Std.LawfulEqCmp.compare_eq_iff_eq,
    eq_comm (a := hash)]

/-- Putting events under the hash of the head that owns them preserves soundness. -/
theorem putEvents_sound (h : s.Sound chain) (placed : s.heads[head.number]? = some head)
    {events : List Event} (distinct : events.Pairwise (·.logIndex ≠ ·.logIndex))
    (merged : ∀ e ∈ events, e ∈ s.eventsOf head.hash ∨ ∃ f : Event, e = f.mergeWith head) :
    (s.putEvents head.hash events).Sound chain := by
  refine ⟨h.chain_eq, h.number_eq, h.numbers, ?_, ?_⟩
  · intro hash e he
    rw [putEvents_eventsOf] at he
    split at he
    · rename_i eq
      subst eq
      rcases merged e he with old | ⟨f, rfl⟩
      · exact h.owned old
      · exact ⟨h.chain_eq placed, rfl, h.numbers.mpr ⟨head, placed, rfl⟩⟩
    · exact h.owned he
  · intro hash
    rw [putEvents_eventsOf]
    split
    · exact distinct
    · exact h.distinct hash

theorem eventsAt_congr {t : ChainTable} (heads : t.heads = s.heads)
    (events : ∀ hash, t.eventsOf hash = s.eventsOf hash) : t.eventsAt = s.eventsAt := by
  funext number
  simp only [eventsAt, heads, events]

theorem mem_eventsAt {number : UInt64} {e : Event} :
    e ∈ s.eventsAt number ↔ ∃ head : Head, s.heads[number]? = some head ∧
      ∃ f ∈ s.eventsOf head.hash, f.mergeWith head = e := by
  unfold eventsAt
  cases s.heads[number]? <;> simp

theorem chain_of_mem_eventsAt (h : s.Sound chain) {number : UInt64} {e : Event}
    (stored : e ∈ s.eventsAt number) : e.chain = chain := by
  rcases mem_eventsAt.mp stored with ⟨head, placed, f, -, rfl⟩
  exact h.chain_eq placed

theorem mem_selectEvents (h : s.Sound chain) {q : EventQuery} {e : Event} :
    e ∈ s.selectEvents q ↔ e ∈ s.eventsAt e.blockNumber ∧ q.admits e := by
  simp only [selectEvents, List.mem_flatMap, List.mem_filter, List.mem_map, Prod.exists,
    exists_eq_right, Std.ExtTreeMap.mem_toList_iff_getElem?_eq_some, selectEventsOf,
    List.mem_mergeSort, mem_eventsAt]
  constructor
  · intro h
    rcases h with ⟨head, ⟨⟨number, placed⟩, block⟩, f, ⟨stored, own⟩, rfl⟩
    refine ⟨⟨head, ?_, f, stored, rfl⟩, ?_⟩
    · rw [show (f.mergeWith head).blockNumber = head.number from rfl, h.number_eq placed]
      exact placed
    · rw [EventQuery.admits_mergeWith, block, own]
      rfl
  · intro h
    rcases h with ⟨⟨head, placed, f, stored, rfl⟩, admits⟩
    rw [EventQuery.admits_mergeWith, Bool.and_eq_true] at admits
    exact ⟨head, ⟨⟨_, placed⟩, admits.1⟩, f, ⟨stored, admits.2⟩, rfl⟩

theorem sorted_ordered {events : List Event} (distinct : events.Pairwise (·.logIndex ≠ ·.logIndex))
    (one : ∀ a ∈ events, ∀ b ∈ events, a.chain = b.chain ∧ a.blockNumber = b.blockNumber) :
    (events.mergeSort fun a b => decide (a.logIndex ≤ b.logIndex)).Pairwise Event.Precedes := by
  have apart := (List.mergeSort_perm events fun a b => decide (a.logIndex ≤ b.logIndex)).symm.pairwise distinct
    fun {_ _} differ => Ne.symm differ
  have sorted : (events.mergeSort fun a b => decide (a.logIndex ≤ b.logIndex)).Pairwise
      fun a b => decide (a.logIndex ≤ b.logIndex) = true := by
    apply List.pairwise_mergeSort
    · intro a b c hab hbc
      simp only [decide_eq_true_eq] at *
      exact UInt32.le_trans hab hbc
    · intro a b
      simpa using UInt32.le_total a.logIndex b.logIndex
  apply (apart.and sorted).imp_of_mem
  intro a b ha hb h
  rcases h with ⟨differ, le⟩
  obtain ⟨chain, number⟩ := one a (List.mem_mergeSort.mp ha) b (List.mem_mergeSort.mp hb)
  exact Or.inr ⟨chain, Or.inr ⟨number, UInt32.lt_of_le_of_ne (of_decide_eq_true le) differ⟩⟩

theorem selectEventsOf_ordered (h : s.Sound chain) (q : EventQuery) (head : Head) :
    (s.selectEventsOf q head).Pairwise Event.Precedes := by
  apply sorted_ordered
  · rw [List.pairwise_map]
    exact (h.distinct head.hash).filter _
  · intro a ha b hb
    obtain ⟨e, -, rfl⟩ := List.mem_map.mp ha
    obtain ⟨f, -, rfl⟩ := List.mem_map.mp hb
    exact ⟨rfl, rfl⟩

theorem selectEvents_ordered (h : s.Sound chain) (q : EventQuery) :
    (s.selectEvents q).Pairwise Event.Precedes := by
  unfold selectEvents
  rw [List.pairwise_flatMap]
  refine ⟨fun head _ => selectEventsOf_ordered h q head, ((heads_ordered h).filter _).imp ?_⟩
  intro a b hab d hd e he
  simp only [selectEventsOf, List.mem_mergeSort, List.mem_map] at hd he
  rcases hd with ⟨d, -, rfl⟩
  rcases he with ⟨e, -, rfl⟩
  rcases hab with chain | ⟨chain, number⟩
  · exact Or.inl chain
  · exact Or.inr ⟨chain, Or.inl number⟩

end ChainTable

namespace NestedStore

/-- The tables of all chains are consistent. -/
def Sound (s : NestedStore) : Prop :=
  ∀ chain, (s.table chain).Sound chain

/-- The view of a store. -/
def view (s : NestedStore) : View where
  headAt? chain number := (s.table chain).heads[number]?
  eventsAt chain number := (s.table chain).eventsAt number

theorem sound_empty : empty.Sound := by
  intro chain
  simpa [empty, table] using ChainTable.sound_empty chain

theorem table_putTable (s : NestedStore) (chain : UInt64) (table : ChainTable) (other : UInt64) :
    (s.putTable chain table).table other = if other = chain then table else s.table other := by
  simp only [putTable, NestedStore.table, Std.ExtTreeMap.getD_insert,
    Std.LawfulEqCmp.compare_eq_iff_eq, eq_comm (a := chain)]

variable {s : NestedStore} {head : Head}

theorem Sound.putTable (h : s.Sound) {chain : UInt64} {table : ChainTable} (hs : table.Sound chain) :
    (s.putTable chain table).Sound := by
  intro other
  rw [table_putTable]
  split
  · rename_i eq
    exact eq ▸ hs
  · exact h other

theorem view_putTable_same {chain : UInt64} {table : ChainTable} (heads : table.heads = (s.table chain).heads)
    (events : ∀ hash, table.eventsOf hash = (s.table chain).eventsOf hash) :
    (s.putTable chain table).view = s.view := by
  apply View.ext
  · intro c n
    simp only [view, table_putTable]
    split <;> simp_all
  · intro c n
    simp only [view, table_putTable]
    split
    · rename_i eq
      subst eq
      rw [ChainTable.eventsAt_congr heads events]
    · rfl

/-- Events put under the hash of a block show as kept by it. -/
theorem view_putEvents {chain : UInt64} {block : Head} {events : List Event}
    (hs : (s.table chain).Sound chain) (placed : (s.table chain).heads[block.number]? = some block)
    (hc : block.chain = chain) :
    (s.putTable chain ((s.table chain).putEvents block.hash
      (ChainTable.appendNew ((s.table chain).eventsOf block.hash) (events.map (·.mergeWith block))))).view =
      s.view.keep block events := by
  subst hc
  apply View.ext
  · intro c n
    simp only [view, View.keep, table_putTable]
    split
    · rename_i eq
      subst eq
      rfl
    · rfl
  · intro c n
    simp only [view, View.keep, table_putTable]
    by_cases eq : c = block.chain
    · subst eq
      simp only [if_true, true_and, ChainTable.eventsAt, ChainTable.putEvents_heads, ChainTable.putEvents_eventsOf]
      by_cases same : n = block.number
      · subst same
        simp only [placed, if_true, ChainTable.map_appendNew (fun e => e.mergeWith_logIndex block),
          List.map_map, Function.comp_def, Event.mergeWith_mergeWith]
      · simp only [same, if_false]
        cases hold : (s.table block.chain).heads[n]? with
        | none => rfl
        | some other =>
            have differs : other.hash ≠ block.hash := by
              intro hash
              have own := hs.numbers.mpr ⟨other, hold, hash⟩
              rw [hs.numbers.mpr ⟨block, placed, rfl⟩] at own
              cases own
              exact same rfl
            simp [differs]
    · simp [eq]

theorem view_sound (h : s.Sound) : s.view.Sound := by
  constructor
  case chain_eq =>
    intro chain number head hf
    exact (h chain).chain_eq hf
  case number_eq =>
    intro chain number head hf
    exact (h chain).number_eq hf
  case hash_unique =>
    intro chain m n hash hm hn
    have one := (h chain).numbers.mpr (View.holds_iff.mp hm)
    have other := (h chain).numbers.mpr (View.holds_iff.mp hn)
    rw [one] at other
    exact Option.some.inj other

theorem holds_iff_numbers (h : s.Sound) {chain number : UInt64} {hash : String} :
    s.view.holds chain number hash ↔ (s.table chain).numbers[hash]? = some number := by
  rw [View.holds_iff, (h chain).numbers]
  rfl

theorem not_ownedElsewhere (h : s.Sound) (free : ¬s.view.OwnedElsewhere head) {number : UInt64}
    (hn : (s.table head.chain).numbers[head.hash]? = some number) : number = head.number := by
  by_cases eq : number = head.number
  · exact eq
  · exact (free ⟨number, eq, (holds_iff_numbers h).mpr hn⟩).elim

theorem eventsOf_fresh (h : s.Sound) (free : ¬s.view.OwnedElsewhere head)
    (other : ¬∃ g, (s.table head.chain).heads[head.number]? = some g ∧ g.hash = head.hash) :
    (s.table head.chain).eventsOf head.hash = [] := by
  apply (h head.chain).eventsOf_free
  cases hn : (s.table head.chain).numbers[head.hash]? with
  | none => rfl
  | some number =>
      rcases not_ownedElsewhere h free hn with rfl
      exact (other ((h head.chain).numbers.mp hn)).elim

theorem ownedElsewhere_iff (h : s.Sound) :
    s.view.OwnedElsewhere head ↔
      (s.table head.chain).numbers[head.hash]?.any (· != head.number) := by
  cases hn : (s.table head.chain).numbers[head.hash]? with
  | none =>
      simp only [Option.any_none, Bool.false_eq_true, iff_false]
      intro h
      rcases h with ⟨number, -, held⟩
      rw [holds_iff_numbers h, hn] at held
      cases held
  | some number =>
      simp only [Option.any_some, bne_iff_ne, ne_eq]
      constructor
      · intro h
        rcases h with ⟨other, differs, held⟩
        rw [holds_iff_numbers h, hn] at held
        cases held
        exact differs
      · intro differs
        exact ⟨number, differs, (holds_iff_numbers h).mpr hn⟩

/-- `replace` shows as the view with the head put. -/
theorem view_replace (h : s.Sound) (free : ¬s.view.OwnedElsewhere head) :
    (s.putTable head.chain
      ((s.table head.chain).replace head ((s.table head.chain).replacedBy head))).view =
      s.view.put head := by
  have hs := h head.chain
  apply View.ext
  · intro chain number
    simp only [view, View.put, table_putTable]
    by_cases eq : chain = head.chain
    · subst eq
      simp only [if_true, true_and, ChainTable.replace_heads, Std.ExtTreeMap.getElem?_insert,
        Std.LawfulEqCmp.compare_eq_iff_eq, eq_comm (a := head.number)]
    · simp [eq]
  · intro chain number
    simp only [view, View.put, table_putTable]
    by_cases eq : chain = head.chain
    · subst eq
      simp only [if_true, true_and, ChainTable.eventsAt, ChainTable.replace_heads,
        Std.ExtTreeMap.getElem?_insert, Std.LawfulEqCmp.compare_eq_iff_eq, ChainTable.replace_eventsOf hs]
      by_cases same : number = head.number
      · subst same
        simp only [if_true, ne_eq, not_true_eq_false, false_and, if_false]
        -- the events come from the head that stood here, if it had the same hash
        cases hold : (s.table head.chain).heads[head.number]? with
        | none => simp [View.holds, hold, eventsOf_fresh h free (by simp [hold])]
        | some old =>
            by_cases hash : old.hash = head.hash
            · simp [View.holds, hold, hash]
            · have other : ¬∃ g, (s.table head.chain).heads[head.number]? = some g ∧
                  g.hash = head.hash := by simp [hold, hash]
              simp [View.holds, hold, hash, eventsOf_fresh h free other]
      · simp only [same, Ne.symm same, if_false]
        cases hold : (s.table head.chain).heads[number]? with
        | none => rfl
        | some old =>
            have own : (s.table head.chain).numbers[old.hash]? = some number :=
              hs.numbers.mpr ⟨old, hold, rfl⟩
            simp [own, same]
    · simp [eq]

/-! ## Writes -/

variable {σ : Type}

theorem createHead_taken (hooks : List (Hook σ Head)) (state : σ) (h : s.Sound)
    (taken : s.view.Taken head) :
    s.createHead head hooks state =
      ⟨.error (if (s.view.headAt? head.chain head.number).isSome then .headConflict head.chain head.number
        else .hashConflict head.chain head.hash), s, state⟩ := by
  have here : (s.table head.chain).heads.contains head.number = (s.view.headAt? head.chain head.number).isSome :=
    Std.ExtTreeMap.contains_eq_isSome_getElem?
  unfold createHead
  dsimp only
  rw [here]
  by_cases number : (s.view.headAt? head.chain head.number).isSome
  · simp only [number, if_true]
  · have hash : ((s.table head.chain).numbers.contains head.hash) = true := by
      rcases taken with held | ⟨other, held⟩
      · exact (number held).elim
      · rw [holds_iff_numbers h] at held
        simp [Std.ExtTreeMap.contains_eq_isSome_getElem?, held]
    simp only [number, hash, if_true, Bool.false_eq_true, if_false]

theorem createHead_free (hooks : List (Hook σ Head)) (state : σ) (h : s.Sound)
    (free : ¬s.view.Taken head) :
    Applied Sound view (s.createHead head hooks state) (runHooks hooks head state) head
      s.view (s.view.put head) := by
  have hs := h head.chain
  have number : (s.table head.chain).heads[head.number]? = none := by
    cases hold : (s.table head.chain).heads[head.number]? with
    | none => rfl
    | some old => exact (free (Or.inl (by simp [view, hold]))).elim
  have hash : (s.table head.chain).numbers[head.hash]? = none := by
    cases hn : (s.table head.chain).numbers[head.hash]? with
    | none => rfl
    | some other => exact (free (Or.inr ⟨other, (holds_iff_numbers h).mpr hn⟩)).elim
  have unowned : ¬s.view.OwnedElsewhere head := fun ⟨other, _, held⟩ => free (Or.inr ⟨other, held⟩)
  unfold createHead
  simp only [Std.ExtTreeMap.contains_eq_isSome_getElem?, number, hash, Option.isSome_none,
    Bool.false_eq_true, if_false, ChainTable.take_put hs number hash]
  rcases runHooks hooks head state with ⟨(e | _), state⟩
  · exact ⟨h.putTable hs, rfl, rfl, view_putTable_same rfl fun _ => rfl⟩
  · rw [ChainTable.put_eq_replace number]
    exact ⟨h.putTable (ChainTable.replace_sound hs rfl (by simp [hash])), rfl, rfl, view_replace h unowned⟩

theorem upsertHead_taken (hooks : List (Hook σ Head)) (state : σ) (h : s.Sound)
    (taken : s.view.OwnedElsewhere head) :
    s.upsertHead head hooks state = ⟨.error (.hashConflict head.chain head.hash), s, state⟩ := by
  unfold upsertHead
  rw [ownedElsewhere_iff h] at taken
  simp only [taken, if_true]

theorem upsertHead_free (hooks : List (Hook σ Head)) (state : σ) (h : s.Sound)
    (free : ¬s.view.OwnedElsewhere head) :
    Applied Sound view (s.upsertHead head hooks state)
      (runHooks hooks (s.view.settled head) state) (s.view.settled head)
      s.view (s.view.put (s.view.settled head)) := by
  have settled : (if ((s.table head.chain).replacedBy head).head.any (·.state == .confirmed) then
      head.withState .confirmed else head) = s.view.settled head := by
    rw [ChainTable.replacedBy_head]
    rfl
  have unowned : ¬s.view.OwnedElsewhere (s.view.settled head) := by
    simpa [View.OwnedElsewhere] using free
  have hs := h head.chain
  have own (number : UInt64) (hn : (s.table head.chain).numbers[head.hash]? = some number) :
      number = head.number := not_ownedElsewhere h free hn
  unfold upsertHead
  rw [ownedElsewhere_iff h] at free
  simp only [free, settled]
  generalize hg : s.view.settled head = g at unowned
  have chain : g.chain = head.chain := by rw [← hg, View.settled_chain]
  have number : g.number = head.number := by rw [← hg, View.settled_number]
  have hash : g.hash = head.hash := by rw [← hg, View.settled_hash]
  rw [ChainTable.replacedBy_congr number.symm hash.symm]
  rw [← chain, ← hash, ← number] at own
  rw [← chain] at hs ⊢
  rw [ChainTable.restore_replace hs own]
  rcases runHooks hooks g state with ⟨(e | _), state⟩
  · exact ⟨h.putTable hs, rfl, rfl, view_putTable_same rfl fun _ => rfl⟩
  · exact ⟨h.putTable (ChainTable.replace_sound hs rfl own), rfl, rfl, view_replace h unowned⟩

theorem saveLogs_unknown {chain : UInt64} {hash : String} {events : List Event}
    (hooks : List (Hook σ (List Event))) (state : σ) (h : s.Sound) (some_events : events ≠ [])
    (unknown : ∀ number, ¬s.view.holds chain number hash) :
    s.saveLogs chain hash events hooks state = ⟨.error (.noBlockHash chain hash), s, state⟩ := by
  have absent : (s.table chain).headOfHash? hash = none := by
    unfold ChainTable.headOfHash?
    cases hn : (s.table chain).numbers[hash]? with
    | none => rfl
    | some number => exact (unknown number ((holds_iff_numbers h).mpr hn)).elim
  unfold saveLogs
  simp [some_events, absent]

theorem headOfHash?_eq (h : s.Sound) {chain number : UInt64} {block : Head}
    (hb : s.view.headAt? chain number = some block) :
    (s.table chain).headOfHash? block.hash = some block := by
  have own : (s.table chain).numbers[block.hash]? = some number :=
    (h chain).numbers.mpr ⟨block, hb, rfl⟩
  have placed : (s.table chain).heads[number]? = some block := hb
  simp [ChainTable.headOfHash?, own, placed]

theorem saveLogs_known {chain number : UInt64} {block : Head} {events : List Event}
    (hooks : List (Hook σ (List Event))) (state : σ) (h : s.Sound) (some_events : events ≠ [])
    (hb : s.view.headAt? chain number = some block) :
    Applied Sound view (s.saveLogs chain block.hash events hooks state)
      (runHooks hooks (events.map (·.mergeWith block)) state) (events.map (·.mergeWith block))
      s.view (s.view.keep block events) := by
  have hs := h chain
  have hc : block.chain = chain := hs.chain_eq hb
  have hn : block.number = number := hs.number_eq hb
  have placed : (s.table chain).heads[block.number]? = some block := hn ▸ hb
  unfold saveLogs
  simp only [List.isEmpty_iff, some_events, if_false, headOfHash?_eq h hb]
  generalize runHooks hooks (events.map (·.mergeWith block)) state = hooked
  rcases hooked with ⟨(e | _), state⟩
  · dsimp only
    rw [ChainTable.take_appendNew]
    refine ⟨h.putTable ?_, rfl, rfl, ?_⟩
    · exact ChainTable.putEvents_sound hs placed (hs.distinct _) fun e he => Or.inl he
    · refine view_putTable_same (ChainTable.putEvents_heads _ _ _) fun hash => ?_
      rw [ChainTable.putEvents_eventsOf]
      split <;> simp_all
  · dsimp only
    refine ⟨h.putTable ?_, rfl, rfl, view_putEvents hs placed hc⟩
    apply ChainTable.putEvents_sound hs placed (ChainTable.appendNew_distinct _ (hs.distinct _))
    intro e he
    rcases ChainTable.mem_appendNew he with he | he
    · exact Or.inl he
    · rcases List.mem_map.mp he with ⟨f, -, rfl⟩
      exact Or.inr ⟨f, rfl⟩

/-! ## Answers -/

theorem table_of_mem {chain : UInt64} {table : ChainTable} (h : (chain, table) ∈ s.chains.toList) :
    s.table chain = table := by
  rw [Std.ExtTreeMap.mem_toList_iff_getElem?_eq_some] at h
  simp [NestedStore.table, Std.ExtTreeMap.getD_eq_getD_getElem?, h]

theorem mem_chains {chain number : UInt64} (placed : (s.table chain).heads[number]? = some head) :
    (chain, s.table chain) ∈ s.chains.toList := by
  rw [Std.ExtTreeMap.mem_toList_iff_getElem?_eq_some]
  cases hc : s.chains[chain]? with
  | none => simp [NestedStore.table, Std.ExtTreeMap.getD_eq_getD_getElem?, hc, ChainTable.empty] at placed
  | some table => simp [NestedStore.table, Std.ExtTreeMap.getD_eq_getD_getElem?, hc]

theorem tables_ordered (s : NestedStore) (q : Option UInt64) :
    ∃ chains : List UInt64, s.tables q = chains.map s.table ∧ chains.Pairwise (· < ·) ∧
      (∀ chain ∈ chains, fieldAdmits q chain) ∧
      ∀ {chain number : UInt64} {head : Head}, (s.table chain).heads[number]? = some head →
        fieldAdmits q chain → chain ∈ chains := by
  refine ⟨(s.chains.toList.filter fun entry => fieldAdmits q entry.1).map (·.1), ?_, ?_, ?_, ?_⟩
  · unfold tables
    rw [List.map_map]
    apply List.map_congr_left
    intro h mem
    rcases h with ⟨chain, table⟩
    exact (table_of_mem (List.mem_filter.mp mem).1).symm
  · rw [List.pairwise_map]
    apply (Std.ExtTreeMap.ordered_keys_toList.filter _).imp
    intro a b hab
    exact compareOfLessAndEq_eq_lt.mp hab
  · intro chain mem
    rcases List.mem_map.mp mem with ⟨entry, hentry, rfl⟩
    exact (List.mem_filter.mp hentry).2
  · intro chain number head placed admits
    exact List.mem_map.mpr ⟨(chain, s.table chain),
      List.mem_filter.mpr ⟨mem_chains placed, admits⟩, rfl⟩

theorem heads_lists (h : s.Sound) (q : HeadQuery) : s.view.ListsHeads q (s.heads q) := by
  obtain ⟨chains, tables, ordered, admitted, complete⟩ := s.tables_ordered q.chain
  have answer : s.heads q = chains.flatMap fun chain => (s.table chain).select q := by
    rw [heads, tables, List.flatMap_map]
  rw [answer]
  constructor
  · rw [List.pairwise_flatMap]
    refine ⟨fun chain _ => ChainTable.select_ordered (h chain) q, ordered.imp ?_⟩
    intro c d hcd a ha b hb
    apply Or.inl
    rw [(h c).chain_eq (ChainTable.mem_select (h c)|>.mp ha).1, (h d).chain_eq (ChainTable.mem_select (h d)|>.mp hb).1]
    exact hcd
  · intro head
    rw [List.mem_flatMap]
    constructor
    · intro h
      rcases h with ⟨chain, -, mem⟩
      obtain ⟨placed, admits⟩ := (ChainTable.mem_select (h chain)).mp mem
      rw [(h chain).chain_eq placed]
      exact ⟨placed, admits⟩
    · intro h
      rcases h with ⟨placed, admits⟩
      refine ⟨head.chain, complete placed ?_, (ChainTable.mem_select (h _)).mpr ⟨placed, admits⟩⟩
      simp only [HeadQuery.admits, Bool.and_eq_true] at admits
      exact admits.1.1.1.1

theorem events_lists (h : s.Sound) (q : EventQuery) : s.view.ListsEvents q (s.events q) := by
  obtain ⟨chains, tables, ordered, admitted, complete⟩ := s.tables_ordered q.chain
  have answer : s.events q = chains.flatMap fun chain => (s.table chain).selectEvents q := by
    rw [events, tables, List.flatMap_map]
  rw [answer]
  constructor
  · rw [List.pairwise_flatMap]
    refine ⟨fun chain _ => ChainTable.selectEvents_ordered (h chain) q, ordered.imp ?_⟩
    intro c d hcd a ha b hb
    apply Or.inl
    rw [ChainTable.chain_of_mem_eventsAt (h c) ((ChainTable.mem_selectEvents (h c)).mp ha).1,
      ChainTable.chain_of_mem_eventsAt (h d) ((ChainTable.mem_selectEvents (h d)).mp hb).1]
    exact hcd
  · intro e
    rw [List.mem_flatMap]
    constructor
    · intro h
      rcases h with ⟨chain, -, mem⟩
      obtain ⟨stored, admits⟩ := (ChainTable.mem_selectEvents (h chain)).mp mem
      rw [ChainTable.chain_of_mem_eventsAt (h chain) stored]
      exact ⟨stored, admits⟩
    · intro h
      rcases h with ⟨stored, admits⟩
      refine ⟨e.chain, ?_, (ChainTable.mem_selectEvents (h _)).mpr ⟨stored, admits⟩⟩
      obtain ⟨head, placed, -⟩ := ChainTable.mem_eventsAt.mp stored
      apply complete placed
      simp only [EventQuery.admits, Bool.and_eq_true] at admits
      exact admits.1.1.1.1

theorem height_isHeight (s : NestedStore) (chain : UInt64) :
    s.view.IsHeight chain (s.table chain).height := by
  unfold ChainTable.height
  cases found : (s.table chain).heads.toList.reverse.find? (·.2.state == .confirmed) with
  | none =>
      refine ⟨Or.inl rfl, ?_⟩
      intro number confirmed
      obtain ⟨head, placed, state⟩ := View.isConfirmed_iff.mp confirmed
      have mem := Std.ExtTreeMap.mem_toList_iff_getElem?_eq_some.mpr placed
      exact (List.find?_eq_none.mp found _ (List.mem_reverse.mpr mem) (by simp [state])).elim
  | some entry =>
      obtain ⟨top, before, after, split, unconfirmed⟩ := List.find?_eq_some_iff_append.mp found
      have mem := List.mem_reverse.mp (List.mem_of_find?_eq_some found)
      refine ⟨Or.inr (View.isConfirmed_iff.mpr ⟨entry.2, ?_, by simpa using top⟩), ?_⟩
      · exact Std.ExtTreeMap.mem_toList_iff_getElem?_eq_some.mp mem
      · intro number confirmed
        obtain ⟨head, placed, state⟩ := View.isConfirmed_iff.mp confirmed
        have descending := List.pairwise_reverse.mpr
          (Std.ExtTreeMap.ordered_keys_toList (t := (s.table chain).heads))
        have mem := List.mem_reverse.mpr (Std.ExtTreeMap.mem_toList_iff_getElem?_eq_some.mpr placed)
        rw [split] at descending mem
        -- numbers descend from the first confirmed one on
        rcases List.mem_append.mp mem with mem | mem
        · have unconfirmed := unconfirmed _ mem
          simp [state] at unconfirmed
        · rcases List.mem_cons.mp mem with rfl | mem
          · exact UInt64.le_refl _
          · have lower := (List.pairwise_cons.mp (List.pairwise_append.mp descending).2.1).1 _ mem
            exact UInt64.le_of_lt (compareOfLessAndEq_eq_lt.mp lower)

theorem heads_number (h : s.Sound) (chain number : UInt64) :
    s.heads { chain := some chain, number := some number } =
      (s.view.headAt? chain number).toList :=
  (heads_lists h _).unique (View.listsHeads_number (view_sound h) chain number)

instance : LawfulStore NestedStore where
  Sound := Sound
  view := view
  view_sound := view_sound
  createHead_taken hooks state h taken := ⟨_, by split <;> rfl, createHead_taken hooks state h taken⟩
  createHead_free hooks state h free _ := createHead_free hooks state h free
  upsertHead_taken hooks state h taken := upsertHead_taken hooks state h taken
  upsertHead_free hooks state h free _ := upsertHead_free hooks state h free
  saveLogs_nil _ _ _ _ _ := rfl
  saveLogs_unknown hooks state h some_events unknown := saveLogs_unknown hooks state h some_events unknown
  saveLogs_known hooks state h some_events hb hash :=
    hash ▸ saveLogs_known hooks state h some_events hb
  heads_number chain number h := congrArg Except.ok (heads_number h chain number)
  height_ok _ _ := ⟨_, rfl⟩
  height_confirmed {s chain _} _ height := Except.ok.inj height ▸ (height_isHeight s chain).reached

end NestedStore

end Chainwatch
