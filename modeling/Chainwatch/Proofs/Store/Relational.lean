import Chainwatch.Proofs.Store.Rows

/-!
# The relational store keeps its view

Every row can be read, the keys of the tables stay unique, and every event has its block. A rejected write
leaves the tables as they were; any other has the effect on the view that `LawfulStore` specifies.
-/

namespace Chainwatch

namespace RelationalStore

def eventsOf (s : RelationalStore) (id : Nat) : List EventRow :=
  s.events.filter (·.blockId == id)

/-- The tables are consistent. -/
structure Sound (s : RelationalStore) : Prop where
  readable : ∀ {row : BlockRow}, row ∈ s.blocks → row.IsReadable
  ids : s.blocks.Pairwise (·.id ≠ ·.id)
  fresh : ∀ {row : BlockRow}, row ∈ s.blocks → row.id < s.nextId
  numbers : ∀ {a b : BlockRow}, a ∈ s.blocks → b ∈ s.blocks →
    a.kept.chain = b.kept.chain → a.kept.number = b.kept.number → a = b
  hashes : ∀ {a b : BlockRow}, a ∈ s.blocks → b ∈ s.blocks →
    a.kept.chain = b.kept.chain → a.kept.hash = b.kept.hash → a = b
  owned : ∀ {e : EventRow}, e ∈ s.events → ∃ row ∈ s.blocks, row.id = e.blockId
  signed : ∀ {e : EventRow}, e ∈ s.events → e.signature = e.topics.head?
  places : s.events.Pairwise fun a b => ¬(a.blockId = b.blockId ∧ a.logIndex = b.logIndex)

/-- The view of a store. -/
def view (s : RelationalStore) : View where
  headAt? chain number := (s.rowOfNumber? chain number).map (·.kept)
  eventsAt chain number :=
    match s.rowOfNumber? chain number with
    | none => []
    | some row => (s.eventsOf row.id).map (·.event row.kept)

theorem sound_empty : empty.Sound := by
  constructor <;> simp [empty]

variable {s : RelationalStore} {head : Head} {row : BlockRow} {chain number : UInt64} {hash : String}

theorem Sound.id_inj (h : s.Sound) {a b : BlockRow} (ha : a ∈ s.blocks) (hb : b ∈ s.blocks)
    (same : a.id = b.id) : a = b :=
  eq_of_pairwise_ne h.ids ha hb same

theorem rowOfNumber?_eq_some (h : s.Sound) :
    s.rowOfNumber? chain number = some row ↔
      row ∈ s.blocks ∧ row.kept.chain = chain ∧ row.kept.number = number := by
  have key {row : BlockRow} (mem : row ∈ s.blocks) :
      (row.chain == chain.toInt64 && row.number == number.toInt64) = true ↔
        row.kept.chain = chain ∧ row.kept.number = number := by
    simp [(h.readable mem).chain, (h.readable mem).number, UInt64.toInt64_inj]
  unfold rowOfNumber?
  rw [find?_eq_some_of_unique]
  · exact and_congr_right fun mem => key mem
  · intro a ha b hb hpa hpb
    rcases (key ha).mp hpa with ⟨rfl, rfl⟩
    obtain ⟨chain, number⟩ := (key hb).mp hpb
    exact h.numbers ha hb chain.symm number.symm

theorem rowOfHash?_eq_some (h : s.Sound) :
    s.rowOfHash? chain hash = some row ↔
      row ∈ s.blocks ∧ row.kept.chain = chain ∧ row.kept.hash = hash := by
  have key {row : BlockRow} (mem : row ∈ s.blocks) :
      (row.chain == chain.toInt64 && row.hash == hash) = true ↔
        row.kept.chain = chain ∧ row.kept.hash = hash := by
    simp [(h.readable mem).chain, (h.readable mem).hash, UInt64.toInt64_inj]
  unfold rowOfHash?
  rw [find?_eq_some_of_unique]
  · exact and_congr_right fun mem => key mem
  · intro a ha b hb hpa hpb
    rcases (key ha).mp hpa with ⟨rfl, rfl⟩
    obtain ⟨chain, hash⟩ := (key hb).mp hpb
    exact h.hashes ha hb chain.symm hash.symm

theorem headAt?_eq_some (h : s.Sound) :
    s.view.headAt? chain number = some head ↔
      ∃ row ∈ s.blocks, row.kept = head ∧ head.chain = chain ∧ head.number = number := by
  simp only [view, Option.map_eq_some_iff, rowOfNumber?_eq_some h]
  constructor
  · intro h
    rcases h with ⟨row, ⟨mem, chain, number⟩, rfl⟩
    exact ⟨row, mem, rfl, chain, number⟩
  · intro h
    rcases h with ⟨row, mem, rfl, chain, number⟩
    exact ⟨row, ⟨mem, chain, number⟩, rfl⟩

theorem holds_iff_row (h : s.Sound) :
    s.view.holds chain number hash ↔
      ∃ row, s.rowOfHash? chain hash = some row ∧ row.kept.number = number := by
  simp only [View.holds_iff, headAt?_eq_some h, rowOfHash?_eq_some h]
  constructor
  · intro h
    rcases h with ⟨head, ⟨row, mem, rfl, chain, number⟩, hash⟩
    exact ⟨row, ⟨mem, chain, hash⟩, number⟩
  · intro h
    rcases h with ⟨row, ⟨mem, chain, hash⟩, number⟩
    exact ⟨row.kept, ⟨row, mem, rfl, chain, number⟩, hash⟩

theorem view_sound (h : s.Sound) : s.view.Sound := by
  constructor
  case chain_eq =>
    intro chain number head found
    obtain ⟨row, -, -, eq, -⟩ := (headAt?_eq_some h).mp found
    exact eq
  case number_eq =>
    intro chain number head found
    obtain ⟨row, -, -, -, eq⟩ := (headAt?_eq_some h).mp found
    exact eq
  case hash_unique =>
    intro chain m n hash hm hn
    rcases (holds_iff_row h).mp hm with ⟨row, found, rfl⟩
    rcases (holds_iff_row h).mp hn with ⟨other, found', rfl⟩
    rw [found] at found'
    cases found'
    rfl

/-! ## Putting a head in place -/

/-- Replacing the row of a number shows as the view with the head put. -/
theorem view_put (row : BlockRow) {t : RelationalStore} (h : s.Sound)
    (rows : ∀ chain number, t.rowOfNumber? chain number =
      if chain = head.chain ∧ number = head.number then some row else s.rowOfNumber? chain number)
    (kept : row.kept = head)
    (others : ∀ r ∈ s.blocks, ¬(r.kept.chain = head.chain ∧ r.kept.number = head.number) →
      t.eventsOf r.id = s.eventsOf r.id)
    (own : (t.eventsOf row.id).map (·.event head) =
      if s.view.holds head.chain head.number head.hash then
        (s.view.eventsAt head.chain head.number).map (·.mergeWith head)
      else []) :
    t.view = s.view.put head := by
  apply View.ext
  · intro chain number
    simp only [view, View.put, rows]
    split <;> simp [kept]
  · intro chain number
    by_cases place : chain = head.chain ∧ number = head.number
    · rcases place with ⟨rfl, rfl⟩
      simp only [View.put, and_self, if_true, ← own]
      simp [view, rows, kept]
    · simp only [view, View.put, rows, place, if_false]
      cases found : s.rowOfNumber? chain number with
      | none => rfl
      | some r =>
          rcases (rowOfNumber?_eq_some h).mp found with ⟨mem, rfl, rfl⟩
          simp only [others r mem place]

theorem eventsOf_nextId (h : s.Sound) : s.eventsOf s.nextId = [] := by
  apply List.filter_eq_nil_iff.mpr
  intro e mem same
  obtain ⟨row, hrow, id⟩ := h.owned mem
  have fresh := h.fresh hrow
  rw [id, eq_of_beq same] at fresh
  exact Nat.lt_irrefl _ fresh

theorem taken_iff (h : s.Sound) :
    s.view.Taken head ↔ (s.rowOfNumber? head.chain head.number).isSome ∨
      (s.rowOfHash? head.chain head.hash).isSome := by
  have number : (s.view.headAt? head.chain head.number).isSome =
      (s.rowOfNumber? head.chain head.number).isSome := by
    simp [view]
  unfold View.Taken
  rw [number]
  apply or_congr_right
  simp only [holds_iff_row h, Option.isSome_iff_exists]
  constructor
  · intro h
    rcases h with ⟨number, row, found, -⟩
    exact ⟨row, found⟩
  · intro h
    rcases h with ⟨row, found⟩
    exact ⟨_, row, found, rfl⟩

theorem insertBlock?_eq_none (h : s.Sound) : s.insertBlock? head = none ↔ s.view.Taken head := by
  unfold insertBlock?
  rw [taken_iff h]
  split <;> simp_all

theorem insertBlock?_of_free (h : s.Sound) (free : ¬s.view.Taken head) :
    s.insertBlock? head = some (BlockRow.ofHead s.nextId head,
      { s with blocks := s.blocks ++ [BlockRow.ofHead s.nextId head], nextId := s.nextId + 1 }) := by
  rw [taken_iff h] at free
  unfold insertBlock?
  simp only [Bool.or_eq_true, free, if_false]

theorem insert_sound (h : s.Sound) (free : ¬s.view.Taken head) (full : head.bloom.IsFull) :
    Sound { s with blocks := s.blocks ++ [BlockRow.ofHead s.nextId head], nextId := s.nextId + 1 } := by
  have kept := BlockRow.kept_ofHead s.nextId full
  have number {row : BlockRow} (mem : row ∈ s.blocks) (chain : row.kept.chain = head.chain)
      (number : row.kept.number = head.number) : False := by
    refine free (Or.inl (Option.isSome_iff_exists.mpr ⟨row.kept, ?_⟩))
    exact (headAt?_eq_some h).mpr ⟨row, mem, rfl, chain, number⟩
  have hash {row : BlockRow} (mem : row ∈ s.blocks) (chain : row.kept.chain = head.chain)
      (hash : row.kept.hash = head.hash) : False := by
    refine free (Or.inr ⟨row.kept.number, (holds_iff_row h).mpr ⟨row, ?_, rfl⟩⟩)
    exact (rowOfHash?_eq_some h).mpr ⟨mem, chain, hash⟩
  have cases {row : BlockRow} (mem : row ∈ s.blocks ++ [BlockRow.ofHead s.nextId head]) :
      row ∈ s.blocks ∨ row = BlockRow.ofHead s.nextId head := by simpa using mem
  refine ⟨?_, ?_, ?_, ?_, ?_, ?_, h.signed, h.places⟩
  · intro row mem
    rcases cases mem with mem | rfl
    · exact h.readable mem
    · exact BlockRow.isReadable_ofHead _ full
  · refine List.pairwise_append.mpr ⟨h.ids, List.pairwise_singleton _ _, ?_⟩
    intro a ha b hb
    rcases List.mem_singleton.mp hb with rfl
    exact Nat.ne_of_lt (h.fresh ha)
  · intro row mem
    rcases cases mem with mem | rfl
    · exact Nat.lt_succ_of_lt (h.fresh mem)
    · exact Nat.lt_succ_self _
  · intro a b ha hb hchain hnumber
    rcases cases ha with ha | rfl <;> rcases cases hb with hb | rfl
    · exact h.numbers ha hb hchain hnumber
    · rw [kept] at hchain hnumber
      exact (number ha hchain hnumber).elim
    · rw [kept] at hchain hnumber
      exact (number hb hchain.symm hnumber.symm).elim
    · rfl
  · intro a b ha hb hchain hhash
    rcases cases ha with ha | rfl <;> rcases cases hb with hb | rfl
    · exact h.hashes ha hb hchain hhash
    · rw [kept] at hchain hhash
      exact (hash ha hchain hhash).elim
    · rw [kept] at hchain hhash
      exact (hash hb hchain.symm hhash.symm).elim
    · rfl
  · intro e mem
    obtain ⟨row, hrow, id⟩ := h.owned mem
    exact ⟨row, List.mem_append_left _ hrow, id⟩

/-- Inserting a row shows as the view with the head put. -/
theorem insert_view (h : s.Sound) (free : ¬s.view.Taken head) (full : head.bloom.IsFull) :
    view { s with blocks := s.blocks ++ [BlockRow.ofHead s.nextId head], nextId := s.nextId + 1 } =
      s.view.put head := by
  have none : s.rowOfNumber? head.chain head.number = none := by
    rw [taken_iff h, not_or] at free
    exact Option.not_isSome_iff_eq_none.mp free.1
  apply view_put (BlockRow.ofHead s.nextId head) h
  · intro chain number
    have fits : (chain = head.chain ∧ number = head.number) ↔
        ((BlockRow.ofHead s.nextId head).chain == chain.toInt64 &&
          (BlockRow.ofHead s.nextId head).number == number.toInt64) = true := by
      simp only [BlockRow.ofHead, Bool.and_eq_true, beq_iff_eq, UInt64.toInt64_inj]
      exact and_congr eq_comm eq_comm
    unfold rowOfNumber? at none ⊢
    rw [List.find?_append, List.find?_singleton]
    by_cases place : chain = head.chain ∧ number = head.number
    · rw [if_pos (fits.mp place), if_pos place]
      rcases place with ⟨rfl, rfl⟩
      rw [none]
      rfl
    · rw [if_neg fun fit => place (fits.mpr fit), if_neg place, Option.or_none]
  · exact BlockRow.kept_ofHead _ full
  · intro r _ _
    rfl
  · have absent : s.view.holds head.chain head.number head.hash = false := by
      simp [View.holds, view, none]
    rw [absent]
    exact congrArg (List.map _) (eventsOf_nextId h)

/-- The tables after a head overwrote a row, with those of its events that `events` leaves. -/
def overwritten (s : RelationalStore) (id : Nat) (head : Head) (events : List EventRow) :
    RelationalStore :=
  { s with
    blocks := s.blocks.map fun r => if r.id = id then BlockRow.ofHead id head else r
    events := events }

section Overwritten

variable {old : BlockRow} {events : List EventRow}

theorem mem_overwritten (h : s.Sound) (mem : old ∈ s.blocks) :
    row ∈ (s.overwritten old.id head events).blocks ↔
      row = BlockRow.ofHead old.id head ∨ row ∈ s.blocks ∧ row ≠ old := by
  simp only [overwritten, List.mem_map]
  constructor
  · intro h
    rcases h with ⟨r, hr, rfl⟩
    split
    · exact Or.inl rfl
    · rename_i other
      exact Or.inr ⟨hr, fun same => other (same ▸ rfl)⟩
  · intro h
    rcases h with rfl | ⟨hr, other⟩
    · exact ⟨old, mem, by simp⟩
    · exact ⟨row, hr, if_neg fun same => other (h.id_inj hr mem same)⟩

theorem overwritten_sound (h : s.Sound) (mem : old ∈ s.blocks) (chain : old.kept.chain = head.chain)
    (number : old.kept.number = head.number) (free : ¬s.view.OwnedElsewhere head)
    (full : head.bloom.IsFull) (sub : events.Sublist s.events) :
    (s.overwritten old.id head events).Sound := by
  have kept := BlockRow.kept_ofHead old.id full
  have hash {row : BlockRow} (hr : row ∈ s.blocks) (other : row ≠ old)
      (hc : row.kept.chain = head.chain) (hh : row.kept.hash = head.hash) : False := by
    refine free ⟨row.kept.number, ?_, (holds_iff_row h).mpr ⟨row, ?_, rfl⟩⟩
    · intro same
      exact other (h.numbers hr mem (hc.trans chain.symm) (same.trans number.symm))
    · exact (rowOfHash?_eq_some h).mpr ⟨hr, hc, hh⟩
  refine ⟨?_, ?_, ?_, ?_, ?_, ?_, fun he => h.signed (sub.subset he), h.places.sublist sub⟩
  · intro row hrow
    rcases (mem_overwritten h mem).mp hrow with rfl | ⟨hr, -⟩
    · exact BlockRow.isReadable_ofHead _ full
    · exact h.readable hr
  · rw [overwritten, List.pairwise_map]
    have id (r : BlockRow) : (if r.id = old.id then BlockRow.ofHead old.id head else r).id = r.id := by
      split <;> simp_all [BlockRow.ofHead]
    simpa only [id] using h.ids
  · intro row hrow
    rcases (mem_overwritten h mem).mp hrow with rfl | ⟨hr, -⟩
    · exact show old.id < s.nextId from h.fresh mem
    · exact h.fresh hr
  · intro a b ha hb hchain hnumber
    rcases (mem_overwritten h mem).mp ha with rfl | ⟨ha, a_other⟩ <;>
      rcases (mem_overwritten h mem).mp hb with rfl | ⟨hb, b_other⟩
    · rfl
    · rw [kept] at hchain hnumber
      exact (b_other (h.numbers hb mem (hchain.symm.trans chain.symm)
        (hnumber.symm.trans number.symm))).elim
    · rw [kept] at hchain hnumber
      exact (a_other (h.numbers ha mem (hchain.trans chain.symm)
        (hnumber.trans number.symm))).elim
    · exact h.numbers ha hb hchain hnumber
  · intro a b ha hb hchain hhash
    rcases (mem_overwritten h mem).mp ha with rfl | ⟨ha, a_other⟩ <;>
      rcases (mem_overwritten h mem).mp hb with rfl | ⟨hb, b_other⟩
    · rfl
    · rw [kept] at hchain hhash
      exact (hash hb b_other hchain.symm hhash.symm).elim
    · rw [kept] at hchain hhash
      exact (hash ha a_other hchain hhash).elim
    · exact h.hashes ha hb hchain hhash
  · intro e he
    obtain ⟨r, hr, id⟩ := h.owned (sub.subset he)
    by_cases same : r = old
    · exact ⟨_, (mem_overwritten h mem).mpr (Or.inl rfl), by rw [← id, same]; rfl⟩
    · exact ⟨r, (mem_overwritten h mem).mpr (Or.inr ⟨hr, same⟩), id⟩

theorem overwritten_rowOfNumber? (h : s.Sound) (mem : old ∈ s.blocks)
    (chain : old.kept.chain = head.chain) (number : old.kept.number = head.number)
    (full : head.bloom.IsFull) (ht : (s.overwritten old.id head events).Sound) (c n : UInt64) :
    (s.overwritten old.id head events).rowOfNumber? c n =
      if c = head.chain ∧ n = head.number then some (BlockRow.ofHead old.id head)
      else s.rowOfNumber? c n := by
  have kept := BlockRow.kept_ofHead old.id full
  apply Option.ext
  intro r
  rw [rowOfNumber?_eq_some ht, mem_overwritten h mem]
  split
  · rename_i place
    rcases place with ⟨rfl, rfl⟩
    constructor
    · intro h
      rcases h with ⟨rfl | ⟨hr, other⟩, hc, hn⟩
      · rfl
      · exact (other (h.numbers hr mem (hc.trans chain.symm) (hn.trans number.symm))).elim
    · intro h
      cases h
      exact ⟨Or.inl rfl, congrArg _ kept, congrArg _ kept⟩
  · rename_i place
    rw [rowOfNumber?_eq_some h]
    constructor
    · intro h
      rcases h with ⟨rfl | ⟨hr, -⟩, hc, hn⟩
      · rw [kept] at hc hn
        exact (place ⟨hc.symm, hn.symm⟩).elim
      · exact ⟨hr, hc, hn⟩
    · intro h
      rcases h with ⟨hr, hc, hn⟩
      refine ⟨Or.inr ⟨hr, ?_⟩, hc, hn⟩
      intro h
      cases h
      exact place ⟨hc.symm.trans chain, hn.symm.trans number⟩

end Overwritten

/-! ## Adding events -/

theorem insertEvent_of_row (found : s.rowOfHash? chain hash = some row) (e : Event) :
    insertEvent chain hash s e =
      if (s.eventsOf row.id).any (·.logIndex == e.logIndex) then s
      else { s with events := s.events ++ [.ofEvent row.id e] } := by
  have place : (s.events.any fun r => r.blockId == row.id && r.logIndex == e.logIndex) =
      (s.eventsOf row.id).any (·.logIndex == e.logIndex) := by
    rw [eventsOf, List.any_filter]
  unfold insertEvent
  simp only [found, place]

theorem insertEvent_sound (h : s.Sound) (found : s.rowOfHash? chain hash = some row) (e : Event) :
    (insertEvent chain hash s e).Sound := by
  have mem := ((rowOfHash?_eq_some h).mp found).1
  rw [insertEvent_of_row found]
  split
  · exact h
  · rename_i free
    refine ⟨h.readable, h.ids, h.fresh, h.numbers, h.hashes, ?_, ?_, ?_⟩
    · intro r hr
      rcases List.mem_append.mp hr with hr | hr
      · exact h.owned hr
      · rcases List.mem_singleton.mp hr with rfl
        exact ⟨row, mem, rfl⟩
    · intro r hr
      rcases List.mem_append.mp hr with hr | hr
      · exact h.signed hr
      · rcases List.mem_singleton.mp hr with rfl
        rfl
    · refine List.pairwise_append.mpr ⟨h.places, List.pairwise_singleton _ _, ?_⟩
      intro a ha b hb h
      rcases h with ⟨id, place⟩
      rcases List.mem_singleton.mp hb with rfl
      refine free (List.any_eq_true.mpr ⟨a, List.mem_filter.mpr ⟨ha, ?_⟩, ?_⟩)
      · exact beq_iff_eq.mpr id
      · exact beq_iff_eq.mpr place

theorem insertEvent_blocks (s : RelationalStore) (chain : UInt64) (hash : String) (e : Event) :
    (insertEvent chain hash s e).blocks = s.blocks := by
  unfold insertEvent
  split
  · rfl
  · split <;> rfl

theorem rowOfHash?_congr {t : RelationalStore} (blocks : t.blocks = s.blocks) :
    t.rowOfHash? = s.rowOfHash? := by
  funext chain hash
  rw [rowOfHash?, rowOfHash?, blocks]

theorem insertEvent_view (h : s.Sound) (found : s.rowOfHash? chain hash = some row) (e : Event) :
    (insertEvent chain hash s e).view = s.view.keep row.kept [e] := by
  rcases (rowOfHash?_eq_some h).mp found with ⟨mem, rfl, rfl⟩
  have placed : s.rowOfNumber? row.kept.chain row.kept.number = some row :=
    (rowOfNumber?_eq_some h).mpr ⟨mem, rfl, rfl⟩
  have rows : (insertEvent row.kept.chain row.kept.hash s e).rowOfNumber? = s.rowOfNumber? := by
    funext chain number
    rw [rowOfNumber?, rowOfNumber?, insertEvent_blocks]
  apply View.ext
  · intro chain number
    simp only [view, View.keep, rows]
  · intro chain number
    simp only [view, View.keep, rows]
    by_cases place : chain = row.kept.chain ∧ number = row.kept.number
    · rcases place with ⟨rfl, rfl⟩
      simp only [placed, and_self, if_true, insertEvent_of_row found, List.map_cons, List.map_nil,
        ChainTable.appendNew_cons, ChainTable.appendNew_nil, List.any_map, Function.comp_def,
        EventRow.event_logIndex, Event.mergeWith_logIndex]
      split
      · rfl
      · simp [eventsOf, EventRow.ofEvent, EventRow.event, Event.mergeWith]
    · simp only [place, if_false]
      cases found' : s.rowOfNumber? chain number with
      | none => rfl
      | some r =>
          rcases (rowOfNumber?_eq_some h).mp found' with ⟨hr, rfl, rfl⟩
          have other : row.id ≠ r.id := by
            intro same
            rcases h.id_inj mem hr same with rfl
            exact place ⟨rfl, rfl⟩
          have same : (insertEvent row.kept.chain row.kept.hash s e).eventsOf r.id = s.eventsOf r.id := by
            rw [insertEvent_of_row found]
            split
            · rfl
            · simp [eventsOf, EventRow.ofEvent, other]
          simp only [same]

/-- Inserting events one at a time adds what `appendNew` adds. -/
theorem insertEvents (h : s.Sound) (found : s.rowOfHash? chain hash = some row) (events : List Event) :
    (events.foldl (insertEvent chain hash) s).Sound ∧
      (events.foldl (insertEvent chain hash) s).blocks = s.blocks ∧
      (events.foldl (insertEvent chain hash) s).view = s.view.keep row.kept events := by
  induction events generalizing s with
  | nil => exact ⟨h, rfl, (View.keep_nil _).symm⟩
  | cons e events ih =>
      have blocks := insertEvent_blocks s chain hash e
      have found' : (insertEvent chain hash s e).rowOfHash? chain hash = some row := by
        rw [rowOfHash?_congr blocks, found]
      obtain ⟨sound, same, seen⟩ := ih (insertEvent_sound h found e) found'
      refine ⟨sound, same.trans blocks, ?_⟩
      rw [List.foldl_cons, seen, insertEvent_view h found, View.keep_keep]
      rfl

theorem insertEvents_of_none (none : s.rowOfHash? chain hash = none) (events : List Event) :
    events.foldl (insertEvent chain hash) s = s := by
  induction events with
  | nil => rfl
  | cons e events ih =>
      have same : insertEvent chain hash s e = s := by simp [insertEvent, none]
      rw [List.foldl_cons, same, ih]

/-! ## Writes -/

variable {σ : Type}

theorem createHead_taken (hooks : List (Hook σ Head)) (state : σ) (h : s.Sound)
    (taken : s.view.Taken head) :
    ∃ e : TrackError, e.isConflict ∧ s.createHead head hooks state = ⟨.error e, s, state⟩ := by
  unfold createHead
  rw [(insertBlock?_eq_none h).mpr taken]
  exact ⟨_, rfl, rfl⟩

theorem createHead_free (hooks : List (Hook σ Head)) (state : σ) (h : s.Sound)
    (free : ¬s.view.Taken head) (full : head.bloom.IsFull) :
    Applied Sound view (s.createHead head hooks state) (runHooks hooks head state) head
      s.view (s.view.put head) := by
  unfold createHead
  rw [insertBlock?_of_free h free]
  dsimp only
  rcases runHooks hooks head state with ⟨(e | _), state⟩
  · exact ⟨h, rfl, rfl, rfl⟩
  · exact ⟨insert_sound h free full, rfl, rfl, insert_view h free full⟩

theorem deleteReplacedEvents_of_none (none : s.rowOfNumber? head.chain head.number = none) :
    s.deleteReplacedEvents head = s := by
  simp [deleteReplacedEvents, none]

/-- The events that remain when a head overwrites the row of its number. -/
def leftFor (s : RelationalStore) (old : BlockRow) (head : Head) : List EventRow :=
  if old.kept.hash = head.hash then s.events else s.events.filter (·.blockId != old.id)

theorem ownedElsewhere_iff (h : s.Sound) {old : BlockRow}
    (found : s.rowOfNumber? head.chain head.number = some old) :
    s.view.OwnedElsewhere head ↔ (s.rowOfHash? head.chain head.hash).any (·.id != old.id) := by
  obtain ⟨mem, chain, number⟩ := (rowOfNumber?_eq_some h).mp found
  simp only [View.OwnedElsewhere, holds_iff_row h, Option.any_eq_true, bne_iff_ne]
  constructor
  · intro h
    rcases h with ⟨other, differs, row, owner, rfl⟩
    refine ⟨row, owner, ?_⟩
    intro same
    obtain ⟨hr, -, -⟩ := (rowOfHash?_eq_some h).mp owner
    rcases h.id_inj hr mem same with rfl
    exact differs number
  · intro h
    rcases h with ⟨row, owner, differs⟩
    obtain ⟨hr, hc, -⟩ := (rowOfHash?_eq_some h).mp owner
    refine ⟨row.kept.number, ?_, row, owner, rfl⟩
    intro same
    rcases h.numbers hr mem (hc.trans chain.symm) (same.trans number.symm) with rfl
    exact differs rfl

theorem upsertBlock?_of_some (h : s.Sound) {old : BlockRow}
    (found : s.rowOfNumber? head.chain head.number = some old) :
    (s.deleteReplacedEvents head).upsertBlock? head =
      if (s.rowOfHash? head.chain head.hash).any (·.id != old.id) then none
      else some (BlockRow.ofHead old.id (s.view.settled head),
        s.overwritten old.id (s.view.settled head) (s.leftFor old head)) := by
  have mem := ((rowOfNumber?_eq_some h).mp found).1
  have settled : s.view.settled head =
      if old.kept.state = .confirmed then head.withState .confirmed else head := by
    simp [View.settled, View.isConfirmed, view, found]
  have left : s.deleteReplacedEvents head = { s with events := s.leftFor old head } := by
    unfold deleteReplacedEvents leftFor
    rw [found]
    dsimp only
    rw [(h.readable mem).hash]
    split <;> rfl
  have row : RelationalStore.rowOfNumber? { s with events := s.leftFor old head } head.chain head.number =
      some old := found
  rw [left, settled]
  simp only [upsertBlock?, row, (h.readable mem).overwrite]
  rfl

theorem upsertHead_taken (hooks : List (Hook σ Head)) (state : σ) (h : s.Sound)
    (taken : s.view.OwnedElsewhere head) :
    s.upsertHead head hooks state = ⟨.error (.hashConflict head.chain head.hash), s, state⟩ := by
  unfold upsertHead
  cases found : s.rowOfNumber? head.chain head.number with
  | none =>
      rw [deleteReplacedEvents_of_none found]
      have none : s.insertBlock? head = none := by
        rw [insertBlock?_eq_none h]
        obtain ⟨number, -, held⟩ := taken
        exact Or.inr ⟨number, held⟩
      simp only [upsertBlock?, found, none]
  | some old =>
      rw [upsertBlock?_of_some h found, if_pos ((ownedElsewhere_iff h found).mp taken)]

/-- Overwriting the row of a number shows as the view with the head put. -/
theorem overwritten_view (h : s.Sound) {old : BlockRow}
    (found : s.rowOfNumber? head.chain head.number = some old) (free : ¬s.view.OwnedElsewhere head)
    (full : head.bloom.IsFull) :
    (s.overwritten old.id head (s.leftFor old head)).Sound ∧
      (s.overwritten old.id head (s.leftFor old head)).view = s.view.put head := by
  obtain ⟨mem, chain, number⟩ := (rowOfNumber?_eq_some h).mp found
  have sub : (s.leftFor old head).Sublist s.events := by
    unfold leftFor
    split
    · exact List.Sublist.refl _
    · exact List.filter_sublist
  have sound := overwritten_sound h mem chain number free full sub
  refine ⟨sound, view_put _ h (overwritten_rowOfNumber? h mem chain number full sound)
    (BlockRow.kept_ofHead _ full) ?_ ?_⟩
  · intro r hr place
    have other : r.id ≠ old.id := by
      intro same
      rcases h.id_inj hr mem same with rfl
      exact place ⟨chain, number⟩
    unfold eventsOf overwritten leftFor
    split
    · rfl
    · rw [List.filter_filter]
      refine List.filter_congr fun e _ => ?_
      by_cases own : e.blockId = r.id <;> simp [own, other]
  · have holds : s.view.holds head.chain head.number head.hash = decide (old.kept.hash = head.hash) := by
      simp [View.holds, view, found, Bool.beq_eq_decide_eq]
    rw [holds]
    by_cases same : old.kept.hash = head.hash
    · simp [same, view, found, eventsOf, overwritten, leftFor, BlockRow.ofHead, Function.comp_def]
    · have cleared : ∀ e ∈ s.events.filter (·.blockId != old.id), ¬(e.blockId == old.id) = true := by
        intro e he
        simpa using (List.mem_filter.mp he).2
      simp only [eventsOf, overwritten, leftFor, same, if_false, BlockRow.ofHead,
        List.filter_eq_nil_iff.mpr cleared, List.map_nil, decide_false, Bool.false_eq_true]

theorem upsertHead_free (hooks : List (Hook σ Head)) (state : σ) (h : s.Sound)
    (free : ¬s.view.OwnedElsewhere head) (full : head.bloom.IsFull) :
    Applied Sound view (s.upsertHead head hooks state)
      (runHooks hooks (s.view.settled head) state) (s.view.settled head)
      s.view (s.view.put (s.view.settled head)) := by
  unfold upsertHead
  cases found : s.rowOfNumber? head.chain head.number with
  | none =>
      have settled : s.view.settled head = head := by
        simp [View.settled, View.isConfirmed, view, found]
      have untaken : ¬s.view.Taken head := by
        intro h
        rcases h with placed | ⟨number, held⟩
        · simp [view, found] at placed
        · by_cases same : number = head.number
          · subst same
            simp [View.holds, view, found] at held
          · exact free ⟨number, same, held⟩
      rw [deleteReplacedEvents_of_none found, settled]
      simp only [upsertBlock?, found, insertBlock?_of_free h untaken, BlockRow.head_ofHead _ full]
      rcases runHooks hooks head state with ⟨(e | _), state⟩
      · exact ⟨h, rfl, rfl, rfl⟩
      · exact ⟨insert_sound h untaken full, rfl, rfl, insert_view h untaken full⟩
  | some old =>
      rw [upsertBlock?_of_some h found, if_neg (fun taken => free ((ownedElsewhere_iff h found).mpr taken))]
      generalize hg : s.view.settled head = g
      have chain : g.chain = head.chain := by rw [← hg, View.settled_chain]
      have number : g.number = head.number := by rw [← hg, View.settled_number]
      have hash : g.hash = head.hash := by rw [← hg, View.settled_hash]
      have full : g.bloom.IsFull := by rwa [← hg, View.settled_bloom]
      have free : ¬s.view.OwnedElsewhere g := by
        simpa [View.OwnedElsewhere, chain, number, hash] using free
      have left : s.leftFor old head = s.leftFor old g := by simp only [leftFor, hash]
      rw [← chain, ← number] at found
      simp only [BlockRow.head_ofHead _ full, left]
      obtain ⟨sound, seen⟩ := overwritten_view h found free full
      rcases runHooks hooks g state with ⟨(e | _), state⟩
      · exact ⟨h, rfl, rfl, rfl⟩
      · exact ⟨sound, rfl, rfl, seen⟩

theorem saveLogs_unknown {events : List Event} (hooks : List (Hook σ (List Event))) (state : σ)
    (h : s.Sound) (some_events : events ≠ []) (unknown : ∀ number, ¬s.view.holds chain number hash) :
    s.saveLogs chain hash events hooks state = ⟨.error (.noBlockHash chain hash), s, state⟩ := by
  have absent : s.rowOfHash? chain hash = none := by
    cases found : s.rowOfHash? chain hash with
    | none => rfl
    | some row => exact (unknown _ ((holds_iff_row h).mpr ⟨row, found, rfl⟩)).elim
  unfold saveLogs
  simp only [List.isEmpty_iff, some_events, if_false, insertEvents_of_none absent, absent]

theorem saveLogs_known {block : Head} {events : List Event} (hooks : List (Hook σ (List Event)))
    (state : σ) (h : s.Sound) (some_events : events ≠ [])
    (hb : s.view.headAt? chain number = some block) :
    Applied Sound view (s.saveLogs chain block.hash events hooks state)
      (runHooks hooks (events.map (·.mergeWith block)) state) (events.map (·.mergeWith block))
      s.view (s.view.keep block events) := by
  rcases (headAt?_eq_some h).mp hb with ⟨row, mem, rfl, hc, -⟩
  have found : s.rowOfHash? chain row.kept.hash = some row :=
    (rowOfHash?_eq_some h).mpr ⟨mem, hc, rfl⟩
  obtain ⟨sound, blocks, seen⟩ := insertEvents h found events
  have row_after := (congrFun (congrFun (rowOfHash?_congr blocks) chain) row.kept.hash).trans found
  unfold saveLogs
  have readable : row.head = .ok row.kept := h.readable mem
  simp only [List.isEmpty_iff, some_events, if_false, row_after, readable]
  generalize runHooks hooks (events.map (·.mergeWith row.kept)) state = hooked
  rcases hooked with ⟨(e | _), state⟩
  · exact ⟨h, rfl, rfl, rfl⟩
  · exact ⟨sound, rfl, rfl, seen⟩

end RelationalStore

end Chainwatch
