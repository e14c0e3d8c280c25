import Chainwatch.Proofs.Store.Rollback

/-!
# The maps of the nested store are consistent

The consistency of the three maps of a chain, stated entry by entry. It is equivalent to soundness, which
every write preserves, whether it succeeds or is rolled back.
-/

namespace Chainwatch

namespace ChainTable

/-- The maps of one chain are consistent: heads and numbers are inverse to each other, a head is stored
under its own chain and number, and events are stored under the hash of a stored head, which owns them.
-/
structure IsConsistent (chain : UInt64) (s : ChainTable) : Prop where
  inverse : ∀ (hash : String) (number : UInt64), s.numbers[hash]? = some number ↔
    ∃ head : Head, s.heads[number]? = some head ∧ head.chain = chain ∧ head.number = number ∧ head.hash = hash
  own_place : ∀ (number : UInt64) (head : Head), s.heads[number]? = some head →
    head.chain = chain ∧ head.number = number
  distinct_numbers : (s.heads.toList.map (·.2.number)).Nodup
  distinct_hashes : (s.heads.toList.map (·.2.hash)).Nodup
  owner : ∀ (hash : String) (events : List Event), s.events[hash]? = some events → events ≠ [] →
    ∃ head : Head, s.heads[head.number]? = some head ∧ head.hash = hash ∧
      ∀ e ∈ events, e.chain = head.chain ∧ e.blockNumber = head.number ∧ e.blockHash = head.hash
  distinct_places : ∀ (hash : String) (events : List Event), s.events[hash]? = some events →
    (events.map (·.logIndex)).Nodup

variable {chain : UInt64} {s : ChainTable}

theorem eventsOf_of_getElem? {hash : String} {events : List Event} (kept : s.events[hash]? = some events) :
    s.eventsOf hash = events := by
  rw [eventsOf, Std.ExtTreeMap.getD_eq_getD_getElem?, kept, Option.getD_some]

theorem getElem?_events_of_mem {hash : String} {e : Event} (mem : e ∈ s.eventsOf hash) :
    s.events[hash]? = some (s.eventsOf hash) := by
  rw [eventsOf, Std.ExtTreeMap.getD_eq_getD_getElem?] at mem ⊢
  cases kept : s.events[hash]? with
  | none => simp [kept] at mem
  | some events => rfl

/-- The heads of one chain have distinct numbers. -/
theorem Sound.distinct_numbers (h : s.Sound chain) : (s.heads.toList.map (·.2.number)).Nodup := by
  have ordered := heads_ordered h
  rw [List.pairwise_map] at ordered
  rw [List.Nodup, List.pairwise_map]
  apply ordered.imp_of_mem
  intro a b ha hb before same
  rw [Std.ExtTreeMap.mem_toList_iff_getElem?_eq_some] at ha hb
  rcases before with below | ⟨-, below⟩
  · rw [h.chain_eq ha, h.chain_eq hb] at below
    exact UInt64.lt_irrefl _ below
  · rw [same] at below
    exact UInt64.lt_irrefl _ below

/-- The heads of one chain have distinct hashes, since each hash determines its number. -/
theorem Sound.distinct_hashes (h : s.Sound chain) : (s.heads.toList.map (·.2.hash)).Nodup := by
  have numbers := h.distinct_numbers
  rw [List.Nodup, List.pairwise_map] at numbers ⊢
  apply numbers.imp_of_mem
  intro a b ha hb apart same
  rw [Std.ExtTreeMap.mem_toList_iff_getElem?_eq_some] at ha hb
  have left := h.numbers.mpr ⟨_, ha, rfl⟩
  have right := h.numbers.mpr ⟨_, hb, same.symm⟩
  have keys : a.1 = b.1 := Option.some.inj (left.symm.trans right)
  exact apart (by rw [h.number_eq ha, h.number_eq hb, keys])

/-- The stored head that owns the events of a hash. -/
theorem Sound.owner (h : s.Sound chain) {hash : String} {events : List Event}
    (kept : s.events[hash]? = some events) (some_event : events ≠ []) :
    ∃ head : Head, s.heads[head.number]? = some head ∧ head.hash = hash ∧
      ∀ e ∈ events, e.chain = head.chain ∧ e.blockNumber = head.number ∧ e.blockHash = head.hash := by
  have listed := eventsOf_of_getElem? kept
  obtain ⟨first, mem⟩ := List.exists_mem_of_ne_nil events some_event
  obtain ⟨-, -, known⟩ := h.owned (listed ▸ mem)
  obtain ⟨head, placed, own⟩ := h.numbers.mp known
  have number := h.number_eq placed
  refine ⟨head, number.symm ▸ placed, own, ?_⟩
  intro e he
  obtain ⟨chain_eq, hash_eq, found⟩ := h.owned (listed ▸ he)
  rw [known] at found
  exact ⟨chain_eq.trans (h.chain_eq placed).symm, (Option.some.inj found).symm.trans number.symm,
    hash_eq.trans own.symm⟩

theorem Sound.isConsistent (h : s.Sound chain) : s.IsConsistent chain where
  inverse hash number := by
    rw [h.numbers]
    constructor
    · rintro ⟨head, placed, own⟩
      exact ⟨head, placed, h.chain_eq placed, h.number_eq placed, own⟩
    · rintro ⟨head, placed, -, -, own⟩
      exact ⟨head, placed, own⟩
  own_place _ _ placed := ⟨h.chain_eq placed, h.number_eq placed⟩
  distinct_numbers := h.distinct_numbers
  distinct_hashes := h.distinct_hashes
  owner _ _ kept some_event := h.owner kept some_event
  distinct_places hash events kept := by
    rw [List.Nodup, List.pairwise_map, ← eventsOf_of_getElem? kept]
    exact h.distinct hash

theorem IsConsistent.sound (h : s.IsConsistent chain) : s.Sound chain where
  chain_eq placed := (h.own_place _ _ placed).1
  number_eq placed := (h.own_place _ _ placed).2
  numbers := by
    intro hash number
    rw [h.inverse]
    constructor
    · rintro ⟨head, placed, -, -, own⟩
      exact ⟨head, placed, own⟩
    · rintro ⟨head, placed, own⟩
      obtain ⟨chain_eq, number_eq⟩ := h.own_place _ _ placed
      exact ⟨head, placed, chain_eq, number_eq, own⟩
  owned := by
    intro hash e mem
    obtain ⟨head, placed, own, carried⟩ :=
      h.owner hash _ (getElem?_events_of_mem mem) (List.ne_nil_of_mem mem)
    obtain ⟨chain_eq, number_eq, hash_eq⟩ := carried e mem
    have place := h.own_place _ _ placed
    refine ⟨chain_eq.trans place.1, hash_eq.trans own, ?_⟩
    rw [h.inverse, number_eq]
    exact ⟨head, placed, place.1, rfl, own⟩
  distinct := by
    intro hash
    cases listed : s.eventsOf hash with
    | nil => exact .nil
    | cons e events =>
        have first : e ∈ s.eventsOf hash := by simp [listed]
        have kept := getElem?_events_of_mem first
        have distinct := h.distinct_places hash _ kept
        rwa [List.Nodup, List.pairwise_map, listed] at distinct

end ChainTable

namespace NestedStore

variable {s : NestedStore} {σ : Type}

def IsConsistent (s : NestedStore) : Prop :=
  ∀ chain, (s.table chain).IsConsistent chain

theorem isConsistent_iff_sound : s.IsConsistent ↔ s.Sound :=
  ⟨fun h chain => (h chain).sound, fun h chain => (h chain).isConsistent⟩

/-- A write preserves consistency, whether its hooks succeed or it is rolled back. -/
theorem run_isConsistent (h : s.IsConsistent) (w : Write σ) (state : σ) : (w.run s state).store.IsConsistent :=
  isConsistent_iff_sound.mpr (run_sound (isConsistent_iff_sound.mp h) w state)

/-- After any writes to an empty store, successful or not, the maps of every chain are consistent. -/
theorem runWrites_isConsistent (writes : List (Write σ)) (state : σ) :
    (runWrites writes empty state).store.IsConsistent :=
  runWrites_invariant (I := IsConsistent) writes (fun w _ _ state h => run_isConsistent h w state)
    (isConsistent_iff_sound.mpr sound_empty) state

end NestedStore

end Chainwatch
