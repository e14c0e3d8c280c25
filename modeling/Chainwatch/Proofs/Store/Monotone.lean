import Chainwatch.Proofs.Store.Relational

/-!
# What no write takes away

A number that has a head keeps one, and it is confirmed only by a write of a confirmed head. This holds of
heads with any bloom: where a relational store cannot read a head back, it rejects the write.
-/

namespace Chainwatch

namespace BlockStore

variable {S : Type} [BlockStore S]

def Has (s : S) (q : HeadQuery) : Prop :=
  ∃ count, countHeads s q = .ok (count + 1)

def Holds (s : S) (chain number : UInt64) : Prop :=
  Has s { chain := some chain, number := some number }

def HoldsConfirmed (s : S) (chain number : UInt64) : Prop :=
  Has s { chain := some chain, number := some number, state := some .confirmed }

end BlockStore

open BlockStore (Has Holds HoldsConfirmed)

section Writes

variable {S : Type} [BlockStore S] {σ : Type}

/-- A rejected write: nothing changes and no hook runs. -/
structure Refused {α : Type} (s : S) (state : σ) (written : Written S σ α) : Prop where
  store : written.store = s
  state : written.state = state

/-- A write that stores a head unless its hooks fail on it. -/
structure Placed (Sound : S → Prop) (s : S) (hooked : Except TrackError Unit × σ) (stored : Head)
    (written : Written S σ Head) : Prop where
  sound : Sound written.store
  state : written.state = hooked.2
  held : hooked.1 = .ok () → Holds written.store stored.chain stored.number
  kept : ∀ {chain number : UInt64}, Holds s chain number → Holds written.store chain number
  confirmed : ∀ {chain number : UInt64}, HoldsConfirmed written.store chain number →
    HoldsConfirmed s chain number ∨ chain = stored.chain ∧ number = stored.number ∧ stored.state = .confirmed

/-- A write that may store events and changes no head. -/
structure Logged (Sound : S → Prop) (s : S) (written : Written S σ (List Event)) : Prop where
  sound : Sound written.store
  kept : ∀ {chain number : UInt64}, Holds s chain number → Holds written.store chain number
  confirmed : ∀ {chain number : UInt64}, HoldsConfirmed written.store chain number →
    HoldsConfirmed s chain number

end Writes

/-- A store that never loses the head of a number and confirms none on its own. -/
class MonotoneStore (S : Type) [BlockStore S] where
  Sound : S → Prop
  createHead_cases {σ : Type} {s : S} (head : Head) (hooks : List (Hook σ Head)) (state : σ) : Sound s →
    Refused s state (BlockStore.createHead s head hooks state) ∨
      ¬Holds s head.chain head.number ∧
        Placed Sound s (runHooks hooks head state) head (BlockStore.createHead s head hooks state)
  upsertHead_cases {σ : Type} {s : S} (head : Head) (hooks : List (Hook σ Head)) (state : σ) : Sound s →
    Refused s state (BlockStore.upsertHead s head hooks state) ∨
      ∃ stored : Head, stored.chain = head.chain ∧ stored.number = head.number ∧
        (head.state = .confirmed → stored.state = .confirmed) ∧
        Placed Sound s (runHooks hooks stored state) stored (BlockStore.upsertHead s head hooks state)
  saveLogs_cases {σ : Type} {s : S} (chain : UInt64) (hash : String) (events : List Event)
    (hooks : List (Hook σ (List Event))) (state : σ) : Sound s →
    Logged Sound s (BlockStore.saveLogs s chain hash events hooks state) ∧
      ((BlockStore.saveLogs s chain hash events hooks state).state = state ∨
        ∃ block : Head, block.chain = chain ∧
          (block.state = .confirmed → HoldsConfirmed s chain block.number) ∧
          (BlockStore.saveLogs s chain hash events hooks state).state =
            (runHooks hooks (events.map (·.mergeWith block)) state).2)

/-! ## Nested stores -/

namespace NestedStore

variable {s t : NestedStore} {σ : Type}

theorem has_iff (h : s.Sound) (q : HeadQuery) :
    Has s q ↔ ∃ head, s.view.headAt? head.chain head.number = some head ∧ q.admits head := by
  have answer : BlockStore.countHeads s q = .ok (s.heads q).length := rfl
  have listed (head : Head) := (heads_lists h q).mem_iff head
  unfold Has
  rw [answer]
  constructor
  · intro h
    obtain ⟨count, length⟩ := h
    obtain ⟨head, mem⟩ := List.exists_mem_of_length_pos
      (show 0 < (s.heads q).length from Except.ok.inj length ▸ Nat.succ_pos count)
    exact ⟨head, (listed head).mp mem⟩
  · intro h
    obtain ⟨head, found⟩ := h
    have positive := List.length_pos_of_mem ((listed head).mpr found)
    exact ⟨(s.heads q).length - 1, by rw [Nat.sub_add_cancel positive]⟩

theorem holds_iff (h : s.Sound) (chain number : UInt64) :
    Holds s chain number ↔ ∃ head, s.view.headAt? chain number = some head := by
  rw [Holds, has_iff h]
  constructor
  · intro h
    obtain ⟨head, found, admits⟩ := h
    simp only [HeadQuery.admits, fieldAdmits, Option.all_some, Option.all_none, Bool.and_true,
      Bool.and_eq_true, beq_iff_eq] at admits
    exact ⟨head, admits.1 ▸ admits.2 ▸ found⟩
  · intro found
    obtain ⟨head, found⟩ := found
    have chain_eq := (view_sound h).chain_eq found
    have number_eq := (view_sound h).number_eq found
    subst chain_eq number_eq
    exact ⟨head, found, by simp [HeadQuery.admits, fieldAdmits]⟩

theorem holdsConfirmed_iff (h : s.Sound) (chain number : UInt64) :
    HoldsConfirmed s chain number ↔ s.view.isConfirmed chain number := by
  rw [HoldsConfirmed, has_iff h, View.isConfirmed_iff]
  constructor
  · intro h
    obtain ⟨head, found, admits⟩ := h
    simp only [HeadQuery.admits, fieldAdmits, Option.all_some, Option.all_none, Bool.and_true,
      Bool.and_eq_true, beq_iff_eq] at admits
    exact ⟨head, admits.1.1 ▸ admits.1.2 ▸ found, admits.2.symm⟩
  · intro found
    obtain ⟨head, found, state⟩ := found
    have chain_eq := (view_sound h).chain_eq found
    have number_eq := (view_sound h).number_eq found
    subst chain_eq number_eq
    exact ⟨head, found, by simp [HeadQuery.admits, fieldAdmits, state]⟩

/-- A write that is not rejected places its head. -/
theorem placed_of_applied {head : Head} {hooked : Except TrackError Unit × σ}
    {written : Written NestedStore σ Head} (h : s.Sound)
    (applied : Applied Sound view written hooked head s.view (s.view.put head)) :
    Placed Sound s hooked head written := by
  have sound := applied.sound
  obtain ⟨outcome, state⟩ := hooked
  have after := applied.view
  refine ⟨sound, applied.state, ?_, ?_, ?_⟩
  · intro ok
    rw [holds_iff sound, after, ok]
    exact ⟨head, if_pos ⟨rfl, rfl⟩⟩
  · intro chain number held
    rw [holds_iff h] at held
    rw [holds_iff sound, after]
    cases outcome with
    | error e => exact held
    | ok _ =>
        by_cases place : chain = head.chain ∧ number = head.number
        · exact ⟨head, if_pos place⟩
        · obtain ⟨old, found⟩ := held
          exact ⟨old, (if_neg place).trans found⟩
  · intro chain number confirmed
    rw [holdsConfirmed_iff sound, after] at confirmed
    rw [holdsConfirmed_iff h]
    cases outcome with
    | error e => exact Or.inl confirmed
    | ok _ =>
        by_cases place : chain = head.chain ∧ number = head.number
        · right
          simpa [View.isConfirmed, View.put, place] using confirmed
        · left
          simpa [View.isConfirmed, View.put, place] using confirmed

theorem logged_of_heads {written : Written NestedStore σ (List Event)} (h : s.Sound)
    (sound : written.store.Sound) (heads : written.store.view.headAt? = s.view.headAt?) :
    Logged Sound s written := by
  refine ⟨sound, ?_, ?_⟩
  · intro chain number held
    rw [holds_iff h] at held
    rwa [holds_iff sound, heads]
  · intro chain number confirmed
    rw [holdsConfirmed_iff sound, View.isConfirmed, heads] at confirmed
    rwa [holdsConfirmed_iff h]

instance : MonotoneStore NestedStore where
  Sound := Sound
  createHead_cases {_ s} head hooks state h := by
    by_cases taken : s.view.Taken head
    · have same := createHead_taken hooks state h taken
      exact Or.inl ⟨congrArg Written.store same, congrArg Written.state same⟩
    · refine Or.inr ⟨?_, placed_of_applied h (createHead_free hooks state h taken)⟩
      rw [holds_iff h]
      exact fun held => taken (Or.inl (Option.isSome_iff_exists.mpr held))
  upsertHead_cases {_ s} head hooks state h := by
    by_cases taken : s.view.OwnedElsewhere head
    · have same := upsertHead_taken hooks state h taken
      exact Or.inl ⟨congrArg Written.store same, congrArg Written.state same⟩
    · refine Or.inr ⟨s.view.settled head, by simp, by simp, ?_,
        placed_of_applied h (upsertHead_free hooks state h taken)⟩
      intro confirmed
      unfold View.settled
      split
      · rfl
      · exact confirmed
  saveLogs_cases {_ s} chain hash events hooks state h := by
    by_cases none : events = []
    · subst none
      exact ⟨logged_of_heads h h rfl, Or.inl rfl⟩
    by_cases known : ∃ number, s.view.holds chain number hash
    · obtain ⟨number, held⟩ := known
      obtain ⟨block, found, rfl⟩ := View.holds_iff.mp held
      have applied := saveLogs_known hooks state h none found
      refine ⟨logged_of_heads h applied.sound ?_,
        Or.inr ⟨block, (view_sound h).chain_eq found, ?_, applied.state⟩⟩
      · refine (congrArg View.headAt? applied.view).trans ?_
        split <;> rfl
      · intro confirmed
        have number_eq := (view_sound h).number_eq found
        subst number_eq
        exact (holdsConfirmed_iff h _ _).mpr (View.isConfirmed_iff.mpr ⟨block, found, confirmed⟩)
    · have same := saveLogs_unknown hooks state h none fun number held => known ⟨number, held⟩
      exact ⟨logged_of_heads h ((congrArg Written.store same) ▸ h)
        (congrArg (fun w => w.store.view.headAt?) same), Or.inl (congrArg Written.state same)⟩

end NestedStore

/-! ## Relational stores -/

theorem BlockRow.of_head {row : BlockRow} {head : Head} (h : row.head = .ok head) :
    row.chain = head.chain.toInt64 ∧ row.number = head.number.toInt64 ∧ row.state = head.state.code := by
  have kept : row.kept = head := by simp [BlockRow.kept, h, Except.toOption]
  have readable : row.IsReadable := h.trans (congrArg Except.ok kept.symm)
  exact kept ▸ ⟨readable.chain, readable.number, readable.state⟩

namespace RelationalStore

variable {s t : RelationalStore} {σ : Type}

structure Keyed (s : RelationalStore) : Prop where
  ids : s.blocks.Pairwise (·.id ≠ ·.id)
  fresh : ∀ {row : BlockRow}, row ∈ s.blocks → row.id < s.nextId

theorem has_iff (s : RelationalStore) (q : HeadQuery) : Has s q ↔ ∃ row ∈ s.blocks, row.admittedBy q := by
  have answer : BlockStore.countHeads s q = .ok (s.blocks.filter (·.admittedBy q)).length := rfl
  unfold Has
  rw [answer]
  constructor
  · intro h
    obtain ⟨count, length⟩ := h
    obtain ⟨row, mem⟩ := List.exists_mem_of_length_pos
      (show 0 < (s.blocks.filter (·.admittedBy q)).length from Except.ok.inj length ▸ Nat.succ_pos count)
    exact ⟨row, List.mem_filter.mp mem⟩
  · intro h
    obtain ⟨row, mem, admits⟩ := h
    have positive : 0 < (s.blocks.filter (·.admittedBy q)).length :=
      List.length_pos_of_mem (List.mem_filter.mpr ⟨mem, admits⟩)
    exact ⟨_, by rw [Nat.sub_add_cancel positive]⟩

theorem holds_iff (s : RelationalStore) (chain number : UInt64) :
    Holds s chain number ↔ ∃ row ∈ s.blocks, row.chain = chain.toInt64 ∧ row.number = number.toInt64 := by
  rw [Holds, has_iff]
  simp [BlockRow.admittedBy, fieldAdmits, eq_comm (a := chain.toInt64), eq_comm (a := number.toInt64)]

theorem holdsConfirmed_iff (s : RelationalStore) (chain number : UInt64) :
    HoldsConfirmed s chain number ↔ ∃ row ∈ s.blocks, row.chain = chain.toInt64 ∧ row.number = number.toInt64 ∧
      row.state = BlockState.confirmed.code := by
  rw [HoldsConfirmed, has_iff]
  simp [BlockRow.admittedBy, fieldAdmits, and_assoc, eq_comm (a := chain.toInt64),
    eq_comm (a := number.toInt64), eq_comm (a := BlockState.confirmed.code)]

theorem holds_iff_rowOfNumber? (s : RelationalStore) (chain number : UInt64) :
    Holds s chain number ↔ (s.rowOfNumber? chain number).isSome := by
  rw [holds_iff, rowOfNumber?, List.find?_isSome]
  simp

theorem logged_of_blocks {written : Written RelationalStore σ (List Event)} (h : s.Keyed)
    (blocks : written.store.blocks = s.blocks) (nextId : written.store.nextId = s.nextId) :
    Logged Keyed s written := by
  refine ⟨⟨blocks ▸ h.ids, ?_⟩, ?_, ?_⟩
  · rw [blocks, nextId]
    exact h.fresh
  · intro chain number
    rw [holds_iff, holds_iff, blocks]
    exact id
  · intro chain number
    rw [holdsConfirmed_iff, holdsConfirmed_iff, blocks]
    exact id

/-- A head is written as a row that replaces at most the row of its number. -/
structure Writes (s : RelationalStore) (head : Head) (row : BlockRow) (t : RelationalStore) : Prop where
  keyed : t.Keyed
  mem : row ∈ t.blocks
  chain : row.chain = head.chain.toInt64
  number : row.number = head.number.toInt64
  state : row.state = head.state.code ∨ row.state = BlockState.confirmed.code
  kept : ∀ {old : BlockRow}, old ∈ s.blocks → old ∈ t.blocks ∨ old.chain = row.chain ∧ old.number = row.number ∧
    (old.state = BlockState.confirmed.code → row.state = BlockState.confirmed.code)
  only : ∀ {r : BlockRow}, r ∈ t.blocks → r ∈ s.blocks ∨ r = row

theorem writes_of_insertBlock? (h : s.Keyed) {head : Head} {row : BlockRow}
    (written : s.insertBlock? head = some (row, t)) :
    s.rowOfNumber? head.chain head.number = none ∧ row = .ofHead s.nextId head ∧ s.Writes head row t := by
  unfold insertBlock? at written
  split at written
  · cases written
  · rename_i free
    cases written
    simp only [Bool.or_eq_true, not_or, Bool.not_eq_true, Option.isSome_eq_false_iff, Option.isNone_iff_eq_none]
      at free
    refine ⟨free.1, rfl, ⟨?_, ?_⟩, by simp, rfl, rfl, Or.inl rfl, ?_, ?_⟩
    · rw [List.pairwise_append]
      refine ⟨h.ids, List.pairwise_singleton _ _, ?_⟩
      intro a ha b hb
      rw [List.mem_singleton.mp hb]
      exact Nat.ne_of_lt (h.fresh ha)
    · intro r mem
      rcases List.mem_append.mp mem with old | new
      · exact Nat.lt_succ_of_lt (h.fresh old)
      · rw [List.mem_singleton.mp new]
        exact Nat.lt_succ_self _
    · exact fun old => Or.inl (List.mem_append_left _ old)
    · exact fun mem => (List.mem_append.mp mem).imp_right List.mem_singleton.mp

theorem writes_of_upsertBlock? (h : s.Keyed) {head : Head} {row : BlockRow}
    (written : s.upsertBlock? head = some (row, t)) : s.Writes head row t := by
  unfold upsertBlock? at written
  split at written
  · exact (writes_of_insertBlock? h written).2.2
  · rename_i old found
    split at written
    · cases written
    · cases written
      have mem := List.mem_of_find?_eq_some found
      have place := List.find?_some found
      simp only [Bool.and_eq_true, beq_iff_eq] at place
      have same {r : BlockRow} (hr : r ∈ s.blocks) (id : r.id = old.id) : r = old :=
        eq_of_pairwise_ne h.ids hr mem id
      refine ⟨⟨?_, ?_⟩, ?_, rfl, rfl, ?_, ?_, ?_⟩
      · rw [List.pairwise_map]
        refine h.ids.imp ?_
        intro a b differ
        split <;> split <;> simp_all [overwrite, BlockRow.ofHead]
      · intro r hr
        obtain ⟨r, old_mem, rfl⟩ := List.mem_map.mp hr
        have below := h.fresh mem
        split
        · exact below
        · exact h.fresh old_mem
      · exact List.mem_map.mpr ⟨old, mem, if_pos rfl⟩
      · unfold overwrite
        split
        · exact Or.inr ‹_›
        · exact Or.inl rfl
      · intro r hr
        by_cases id : r.id = old.id
        · rw [same hr id]
          exact Or.inr ⟨place.1, place.2, fun confirmed => by simp [overwrite, confirmed]⟩
        · exact Or.inl (List.mem_map.mpr ⟨r, hr, if_neg id⟩)
      · intro r hr
        obtain ⟨r, old_mem, rfl⟩ := List.mem_map.mp hr
        split
        · exact Or.inr rfl
        · exact Or.inl old_mem

theorem placed_of_writes (h : s.Keyed) {head stored : Head} {row : BlockRow} (writes : s.Writes head row t)
    (chain : stored.chain = head.chain) (number : stored.number = head.number)
    (state : row.state = BlockState.confirmed.code → stored.state = .confirmed)
    {hooked : Except TrackError Unit × σ} {written : Written RelationalStore σ Head}
    (store : written.store = match hooked.1 with
      | .ok _ => t
      | .error _ => s) (state_eq : written.state = hooked.2) : Placed Keyed s hooked stored written := by
  obtain ⟨outcome, after⟩ := hooked
  cases outcome with
  | error e =>
      dsimp only at store
      refine ⟨store ▸ h, state_eq, by simp, ?_, ?_⟩
      · exact fun held => store ▸ held
      · exact fun confirmed => Or.inl (store ▸ confirmed)
  | ok _ =>
      dsimp only at store
      have here : Holds t stored.chain stored.number :=
        (holds_iff t _ _).mpr ⟨row, writes.mem, chain ▸ writes.chain, number ▸ writes.number⟩
      refine ⟨store ▸ writes.keyed, state_eq, fun _ => store ▸ here, ?_, ?_⟩
      · intro c n held
        obtain ⟨old, mem, hc, hn⟩ := (holds_iff s c n).mp held
        rw [store, holds_iff]
        rcases writes.kept mem with mem | ⟨same_chain, same_number, -⟩
        · exact ⟨old, mem, hc, hn⟩
        · exact ⟨row, writes.mem, same_chain ▸ hc, same_number ▸ hn⟩
      · intro c n confirmed
        rw [store] at confirmed
        obtain ⟨r, mem, hc, hn, hs⟩ := (holdsConfirmed_iff t c n).mp confirmed
        rcases writes.only mem with old | rfl
        · exact Or.inl ((holdsConfirmed_iff s c n).mpr ⟨r, old, hc, hn, hs⟩)
        · right
          rw [chain, number]
          exact ⟨UInt64.toInt64_inj.mp (hc.symm.trans writes.chain),
            UInt64.toInt64_inj.mp (hn.symm.trans writes.number), state hs⟩

theorem insertEvents_blocks (s : RelationalStore) (chain : UInt64) (hash : String) (events : List Event) :
    (events.foldl (insertEvent chain hash) s).blocks = s.blocks ∧
      (events.foldl (insertEvent chain hash) s).nextId = s.nextId := by
  induction events generalizing s with
  | nil => exact ⟨rfl, rfl⟩
  | cons e events ih =>
      obtain ⟨blocks, nextId⟩ := ih (insertEvent chain hash s e)
      refine ⟨blocks.trans (insertEvent_blocks s chain hash e), nextId.trans ?_⟩
      unfold insertEvent
      split
      · rfl
      · split <;> rfl

theorem deleteReplacedEvents_blocks (s : RelationalStore) (head : Head) :
    (s.deleteReplacedEvents head).blocks = s.blocks ∧ (s.deleteReplacedEvents head).nextId = s.nextId := by
  unfold deleteReplacedEvents
  split
  · exact ⟨rfl, rfl⟩
  · split <;> exact ⟨rfl, rfl⟩

/-- Deleting the events of a replaced block changes no block row. -/
theorem writes_of_upsert (h : s.Keyed) {head : Head} {row : BlockRow}
    (written : (s.deleteReplacedEvents head).upsertBlock? head = some (row, t)) : s.Writes head row t := by
  obtain ⟨blocks, nextId⟩ := s.deleteReplacedEvents_blocks head
  have keyed : (s.deleteReplacedEvents head).Keyed := by
    refine ⟨blocks ▸ h.ids, ?_⟩
    rw [blocks, nextId]
    exact h.fresh
  have writes := writes_of_upsertBlock? keyed written
  exact ⟨writes.keyed, writes.mem, writes.chain, writes.number, writes.state,
    fun mem => writes.kept (blocks.symm ▸ mem), fun mem => blocks ▸ writes.only mem⟩

instance : MonotoneStore RelationalStore where
  Sound := Keyed
  createHead_cases {_ s} head hooks state h := by
    simp only [BlockStore.createHead, createHead]
    split
    · exact Or.inl ⟨rfl, rfl⟩
    · rename_i row t written
      obtain ⟨free, rfl, writes⟩ := writes_of_insertBlock? h written
      refine Or.inr ⟨?_, placed_of_writes h writes rfl rfl ?_ ?_ ?_⟩
      · rw [holds_iff_rowOfNumber?, free]
        simp
      · exact BlockState.code_inj.mp
      · rcases runHooks hooks head state with ⟨(e | _), state⟩ <;> rfl
      · rcases runHooks hooks head state with ⟨(e | _), state⟩ <;> rfl
  upsertHead_cases {_ s} head hooks state h := by
    simp only [BlockStore.upsertHead, upsertHead]
    split
    · exact Or.inl ⟨rfl, rfl⟩
    · rename_i row t written
      have writes := writes_of_upsert h written
      split
      · exact Or.inl ⟨rfl, rfl⟩
      · rename_i stored read
        obtain ⟨chain, number, code⟩ := BlockRow.of_head read
        have chain := UInt64.toInt64_inj.mp (chain.symm.trans writes.chain)
        have number := UInt64.toInt64_inj.mp (number.symm.trans writes.number)
        refine Or.inr ⟨stored, chain, number, ?_, placed_of_writes h writes chain number ?_ ?_ ?_⟩
        · intro confirmed
          rcases writes.state with same | same
          · exact BlockState.code_inj.mp (code.symm.trans (confirmed ▸ same))
          · exact BlockState.code_inj.mp (code.symm.trans same)
        · exact fun same => BlockState.code_inj.mp (code.symm.trans same)
        · rcases runHooks hooks stored state with ⟨(e | _), state⟩ <;> rfl
        · rcases runHooks hooks stored state with ⟨(e | _), state⟩ <;> rfl
  saveLogs_cases {_ s} chain hash events hooks state h := by
    obtain ⟨blocks, nextId⟩ := insertEvents_blocks s chain hash events
    simp only [BlockStore.saveLogs, saveLogs]
    split
    · exact ⟨logged_of_blocks h rfl rfl, Or.inl rfl⟩
    · split
      · exact ⟨logged_of_blocks h rfl rfl, Or.inl rfl⟩
      · rename_i row found
        split
        · exact ⟨logged_of_blocks h rfl rfl, Or.inl rfl⟩
        · rename_i block read
          obtain ⟨chain_eq, number_eq, code⟩ := BlockRow.of_head read
          have mem : row ∈ s.blocks := blocks ▸ List.mem_of_find?_eq_some found
          have asked : block.chain = chain := by
            have matched := List.find?_some found
            simp only [Bool.and_eq_true, beq_iff_eq] at matched
            exact UInt64.toInt64_inj.mp (chain_eq.symm.trans matched.1)
          have stored (confirmed : block.state = .confirmed) : HoldsConfirmed s chain block.number :=
            (holdsConfirmed_iff s _ _).mpr ⟨row, mem, asked ▸ chain_eq, number_eq, confirmed ▸ code⟩
          cases hooked : runHooks hooks (events.map (·.mergeWith block)) state with
          | mk outcome after =>
              cases outcome with
              | error e => exact ⟨logged_of_blocks h rfl rfl, Or.inr ⟨block, asked, stored, by rw [hooked]⟩⟩
              | ok _ => exact ⟨logged_of_blocks h blocks nextId, Or.inr ⟨block, asked, stored, by rw [hooked]⟩⟩

end RelationalStore

end Chainwatch
