import Chainwatch.Proofs.Store.Answers
import Chainwatch.Proofs.Store.Monotone

/-!
# Tables without their blooms

A relational store accepts heads of any bloom and fails only when it reads such a row back. Without the
blooms its tables are those of a store whose rows are all readable, so that the results about such stores
apply to all: which writes succeed, and what they leave. A block with events was read when they were
saved, and is still readable.
-/

namespace Chainwatch

def Head.bare (head : Head) : Head :=
  { head with bloom := .empty }

namespace Head

@[simp] theorem bare_chain (head : Head) : head.bare.chain = head.chain := rfl

@[simp] theorem bare_number (head : Head) : head.bare.number = head.number := rfl

@[simp] theorem bare_hash (head : Head) : head.bare.hash = head.hash := rfl

theorem bare_isFull (head : Head) : head.bare.bloom.IsFull :=
  List.length_replicate

end Head

/-! ## Rows -/

namespace BlockRow

def bare (row : BlockRow) : BlockRow :=
  { row with bloom := Bloom.empty.bytes }

theorem bare_ofHead (id : Nat) (head : Head) : (ofHead id head).bare = ofHead id head.bare := rfl

variable {row : BlockRow} {head : Head}

theorem isReadable_of_head (read : row.head = .ok head) : row.IsReadable := by
  rw [IsReadable, kept, read]
  rfl

theorem kept_of_head (read : row.head = .ok head) : row.kept = head := by
  rw [kept, read]
  rfl

/-- A row that can be read can be read without its bloom. -/
theorem head_bare (read : row.head = .ok head) : row.bare.head = .ok head.bare := by
  obtain ⟨made, -⟩ := (isReadable_of_head read).eq_ofHead
  rw [kept_of_head read] at made
  rw [made, bare_ofHead, head_ofHead _ head.bare_isFull]

theorem kept_bare (read : row.IsReadable) : row.bare.kept = row.kept.bare :=
  kept_of_head (head_bare read)

end BlockRow

namespace RelationalStore

/-- The tables without blooms. -/
def bare (s : RelationalStore) : RelationalStore :=
  { s with blocks := s.blocks.map BlockRow.bare }

variable {s : RelationalStore} {head : Head} {chain number : UInt64} {hash : String}

theorem bare_rowOfNumber? (s : RelationalStore) (chain number : UInt64) :
    s.bare.rowOfNumber? chain number = (s.rowOfNumber? chain number).map BlockRow.bare := by
  rw [rowOfNumber?, bare, List.find?_map]
  rfl

theorem bare_rowOfHash? (s : RelationalStore) (chain : UInt64) (hash : String) :
    s.bare.rowOfHash? chain hash = (s.rowOfHash? chain hash).map BlockRow.bare := by
  rw [rowOfHash?, bare, List.find?_map]
  rfl

theorem bare_insertBlock? (s : RelationalStore) (head : Head) :
    s.bare.insertBlock? head.bare = (s.insertBlock? head).map (Prod.map BlockRow.bare bare) := by
  simp only [insertBlock?, bare_rowOfNumber?, bare_rowOfHash?, Head.bare_chain, Head.bare_number, Head.bare_hash,
    Option.isSome_map]
  split
  · rfl
  · simp [bare, BlockRow.bare_ofHead, Prod.map]

theorem bare_deleteReplacedEvents (s : RelationalStore) (head : Head) :
    s.bare.deleteReplacedEvents head.bare = (s.deleteReplacedEvents head).bare := by
  unfold deleteReplacedEvents
  rw [bare_rowOfNumber?, Head.bare_chain, Head.bare_number]
  cases s.rowOfNumber? head.chain head.number with
  | none => rfl
  | some row =>
      change (if row.hash = head.hash then s.bare else _) = _
      dsimp only
      split <;> rfl

theorem bare_upsertBlock? (s : RelationalStore) (head : Head) :
    s.bare.upsertBlock? head.bare = (s.upsertBlock? head).map (Prod.map BlockRow.bare bare) := by
  unfold upsertBlock?
  rw [bare_rowOfNumber?, bare_rowOfHash?, Head.bare_chain, Head.bare_number, Head.bare_hash]
  cases s.rowOfNumber? head.chain head.number with
  | none => exact s.bare_insertBlock? head
  | some old =>
      simp only [Option.map_some, Option.any_map]
      change (if (s.rowOfHash? head.chain head.hash).any (·.id != old.id) then _ else _) = _
      split
      · rfl
      · simp only [bare, Option.map_some, Prod.map, List.map_map]
        congr 3
        refine List.map_congr_left fun r _ => ?_
        change (if r.id = old.id then _ else _) = BlockRow.bare (if r.id = old.id then _ else _)
        split <;> rfl

theorem bare_insertEvent (s : RelationalStore) (chain : UInt64) (hash : String) (e : Event) :
    insertEvent chain hash s.bare e = (insertEvent chain hash s e).bare := by
  unfold insertEvent
  rw [bare_rowOfHash?]
  cases s.rowOfHash? chain hash with
  | none => rfl
  | some row =>
      change (if s.events.any (fun r => r.blockId == row.id && r.logIndex == e.logIndex) then _ else _) = _
      dsimp only
      split <;> rfl

theorem bare_insertEvents (s : RelationalStore) (chain : UInt64) (hash : String) (events : List Event) :
    events.foldl (insertEvent chain hash) s.bare = (events.foldl (insertEvent chain hash) s).bare := by
  induction events generalizing s with
  | nil => rfl
  | cons e events ih => rw [List.foldl_cons, List.foldl_cons, bare_insertEvent, ih]

/-! ## Writes -/

/-- The tables are consistent apart from blooms, and every block with events can be read. -/
structure Intact (s : RelationalStore) : Prop where
  sound : s.bare.Sound
  read : ∀ {row : BlockRow} {e : EventRow}, row ∈ s.blocks → e ∈ s.events → e.blockId = row.id → row.IsReadable

theorem intact_empty : empty.Intact :=
  ⟨sound_empty, fun mem => by cases mem⟩

theorem mem_bare {row : BlockRow} (mem : row ∈ s.blocks) : row.bare ∈ s.bare.blocks :=
  List.mem_map_of_mem mem

theorem Intact.keyed (h : s.Intact) : s.Keyed := by
  constructor
  · have ids : (s.blocks.map BlockRow.bare).Pairwise (·.id ≠ ·.id) := h.sound.ids
    rwa [List.pairwise_map] at ids
  · intro row mem
    have fresh := h.sound.fresh (mem_bare mem)
    exact fresh

/-- `Intact` is preserved by writes that place event rows under readable blocks only. -/
theorem Intact.of_writes (h : s.Intact) {t : RelationalStore} {row : BlockRow} (writes : s.Writes head row t)
    (sound : t.bare.Sound) (events : t.events ⊆ s.events)
    (read : row.IsReadable ∨ ∀ e ∈ t.events, e.blockId ≠ row.id) : t.Intact := by
  refine ⟨sound, ?_⟩
  intro r e mem he own
  rcases writes.only mem with old | rfl
  · exact h.read old (events he) own
  · rcases read with read | none
    · exact read
    · exact (none e he own).elim

variable {σ : Type}

theorem insertBlock?_events {row : BlockRow} {t : RelationalStore} (written : s.insertBlock? head = some (row, t)) :
    t.events = s.events := by
  unfold insertBlock? at written
  split at written <;> cases written
  rfl

theorem upsertBlock?_events {row : BlockRow} {t : RelationalStore} (written : s.upsertBlock? head = some (row, t)) :
    t.events = s.events := by
  unfold upsertBlock? at written
  split at written
  · exact insertBlock?_events written
  · split at written <;> cases written
    rfl

theorem deleteReplacedEvents_subset (s : RelationalStore) (head : Head) :
    (s.deleteReplacedEvents head).events ⊆ s.events := by
  unfold deleteReplacedEvents
  split
  · exact List.Subset.refl _
  · split
    · exact List.Subset.refl _
    · exact List.filter_subset_self _

theorem createHead_refused (hooks : List (Hook σ Head)) (state : σ) (h : s.Intact)
    (taken : s.bare.view.Taken head) :
    ∃ e : TrackError, s.createHead head hooks state = ⟨.error e, s, state⟩ := by
  have none : (s.insertBlock? head).map (Prod.map BlockRow.bare bare) = none := by
    rw [← bare_insertBlock?]
    exact (insertBlock?_eq_none h.sound).mpr taken
  unfold createHead
  rw [Option.map_eq_none_iff.mp none]
  exact ⟨_, rfl⟩

theorem createHead_placed (hooks : List (Hook σ Head)) (state : σ) (h : s.Intact)
    (free : ¬s.bare.view.Taken head) :
    Applied Intact (fun s => s.bare.view) (s.createHead head hooks state) (runHooks hooks head state) head
      s.bare.view (s.bare.view.put head.bare) := by
  have freed : ¬s.bare.view.Taken head.bare := free
  have bare_written := insertBlock?_of_free h.sound freed
  rw [bare_insertBlock?] at bare_written
  obtain ⟨⟨row, t⟩, written, same⟩ := Option.map_eq_some_iff.mp bare_written
  obtain ⟨-, rfl, writes⟩ := writes_of_insertBlock? h.keyed written
  have after : t.bare = _ := congrArg Prod.snd same
  have sound : t.bare.Sound := after ▸ insert_sound h.sound free head.bare_isFull
  have seen : t.bare.view = s.bare.view.put head.bare := after ▸ insert_view h.sound free head.bare_isFull
  have events := insertBlock?_events written
  have intact : t.Intact := by
    refine h.of_writes writes sound (events ▸ List.Subset.refl _) (Or.inr ?_)
    intro e mem own
    obtain ⟨block, hb, id⟩ := h.sound.owned (events ▸ mem)
    have fresh := h.sound.fresh hb
    rw [id, own] at fresh
    exact Nat.lt_irrefl _ fresh
  unfold createHead
  rw [written]
  dsimp only
  rcases runHooks hooks head state with ⟨(e | _), state⟩
  · exact ⟨h, rfl, rfl, rfl⟩
  · exact ⟨intact, rfl, rfl, seen⟩

/-- Without blooms and hooks, an upsert of a readable head puts it in its place. -/
theorem bare_upsertHead {row : BlockRow} {t : RelationalStore} {stored : Head}
    (written : (s.deleteReplacedEvents head).upsertBlock? head = some (row, t)) (read : row.head = .ok stored) :
    s.bare.upsertHead head.bare [] () = ⟨.ok stored.bare, t.bare, ()⟩ := by
  unfold upsertHead
  rw [bare_deleteReplacedEvents, bare_upsertBlock?, written]
  simp only [Option.map_some, Prod.map, BlockRow.head_bare read]
  rfl

/-- An upsert of a readable head preserves `Intact`. -/
theorem Intact.upsertBlock? (h : s.Intact) {row : BlockRow} {t : RelationalStore} {stored : Head}
    (written : (s.deleteReplacedEvents head).upsertBlock? head = some (row, t)) (read : row.head = .ok stored) :
    ¬s.bare.view.OwnedElsewhere head ∧ stored.bare = s.bare.view.settled head.bare ∧ t.Intact ∧
      t.bare.view = s.bare.view.put stored.bare := by
  have done := bare_upsertHead written read
  by_cases taken : s.bare.view.OwnedElsewhere head.bare
  · rw [upsertHead_taken [] () h.sound taken] at done
    cases congrArg Written.outcome done
  · have applied := upsertHead_free [] () h.sound taken head.bare_isFull
    rw [done] at applied
    have settled : stored.bare = s.bare.view.settled head.bare := Except.ok.inj applied.outcome
    have events : t.events ⊆ s.events := by
      rw [upsertBlock?_events written]
      exact s.deleteReplacedEvents_subset head
    exact ⟨taken, settled, h.of_writes (writes_of_upsert h.keyed written) applied.sound events
      (Or.inl (BlockRow.isReadable_of_head read)), settled ▸ applied.view⟩

theorem upsertHead_cases (hooks : List (Hook σ Head)) (state : σ) (h : s.Intact) :
    (∃ e : TrackError, s.upsertHead head hooks state = ⟨.error e, s, state⟩) ∨
      ∃ stored : Head, ¬s.bare.view.OwnedElsewhere head ∧ stored.bare = s.bare.view.settled head.bare ∧
        Applied Intact (fun s => s.bare.view) (s.upsertHead head hooks state) (runHooks hooks stored state) stored
          s.bare.view (s.bare.view.put stored.bare) := by
  unfold upsertHead
  split
  · exact Or.inl ⟨_, rfl⟩
  · rename_i row t written
    split
    · exact Or.inl ⟨_, rfl⟩
    · rename_i stored read
      obtain ⟨free, settled, intact, seen⟩ := h.upsertBlock? written read
      refine Or.inr ⟨stored, free, settled, ?_⟩
      rcases runHooks hooks stored state with ⟨(e | _), state⟩
      · exact ⟨h, rfl, rfl, rfl⟩
      · exact ⟨intact, rfl, rfl, seen⟩

/-! ## The block of a hash -/

/-- Where at most one element satisfies a predicate, `filter` gives what `find?` finds. -/
theorem filter_eq_toList_find? {α : Type} {p : α → Bool} {xs : List α}
    (unique : xs.Pairwise fun a b => ¬(p a ∧ p b)) : xs.filter p = (xs.find? p).toList := by
  induction xs with
  | nil => rfl
  | cons a xs ih =>
      obtain ⟨apart, rest⟩ := List.pairwise_cons.mp unique
      by_cases fits : p a
      · rw [List.filter_cons_of_pos fits, List.find?_cons_of_pos fits]
        have none : xs.filter p = [] := List.filter_eq_nil_iff.mpr fun b mem other => apart b mem ⟨fits, other⟩
        rw [none]
        rfl
      · rw [List.filter_cons_of_neg fits, List.find?_cons_of_neg fits, ih rest]

theorem Intact.hash_inj (h : s.Intact) {a b : BlockRow} (ha : a ∈ s.blocks) (hb : b ∈ s.blocks)
    (chain : a.chain = b.chain) (hash : a.hash = b.hash) : a.id = b.id := by
  have read_a := h.sound.readable (mem_bare ha)
  have read_b := h.sound.readable (mem_bare hb)
  have same_chain : a.bare.kept.chain = b.bare.kept.chain :=
    UInt64.toInt64_inj.mp (read_a.chain.symm.trans (chain.trans read_b.chain))
  have same_hash : a.bare.kept.hash = b.bare.kept.hash := read_a.hash.symm.trans (hash.trans read_b.hash)
  have same : a.bare = b.bare := h.sound.hashes (mem_bare ha) (mem_bare hb) same_chain same_hash
  have ids : a.bare.id = b.bare.id := by rw [same]
  exact ids

theorem Intact.number_inj (h : s.Intact) {a b : BlockRow} (ha : a ∈ s.blocks) (hb : b ∈ s.blocks)
    (chain : a.chain = b.chain) (number : a.number = b.number) : a.id = b.id := by
  have read_a := h.sound.readable (mem_bare ha)
  have read_b := h.sound.readable (mem_bare hb)
  have same_chain : a.bare.kept.chain = b.bare.kept.chain :=
    UInt64.toInt64_inj.mp (read_a.chain.symm.trans (chain.trans read_b.chain))
  have same_number : a.bare.kept.number = b.bare.kept.number :=
    UInt64.toInt64_inj.mp (read_a.number.symm.trans (number.trans read_b.number))
  have same : a.bare = b.bare := h.sound.numbers (mem_bare ha) (mem_bare hb) same_chain same_number
  have ids : a.bare.id = b.bare.id := by rw [same]
  exact ids

/-- A query that fits at most one row selects the row that `rowOfNumber?` or `rowOfHash?` finds. -/
theorem selectBlocks_eq {q : HeadQuery} (unique : s.blocks.Pairwise fun a b => ¬(a.admittedBy q ∧ b.admittedBy q)) :
    s.selectBlocks q = (s.blocks.find? (·.admittedBy q)).toList := by
  rw [selectBlocks, filter_eq_toList_find? unique]
  cases s.blocks.find? (·.admittedBy q) <;> simp

theorem selectBlocks_hash (h : s.Intact) (chain : UInt64) (hash : String) :
    s.selectBlocks { chain := some chain, hash := some hash } = (s.rowOfHash? chain hash).toList := by
  have fits (row : BlockRow) : row.admittedBy { chain := some chain, hash := some hash } =
      (row.chain == chain.toInt64 && row.hash == hash) := by
    simp [BlockRow.admittedBy, fieldAdmits, BEq.comm]
  rw [selectBlocks_eq, rowOfHash?]
  · simp only [fits]
  · refine h.keyed.ids.imp_of_mem ?_
    intro a b ha hb apart both
    simp only [fits, Bool.and_eq_true, beq_iff_eq] at both
    exact apart (h.hash_inj ha hb (both.1.1.trans both.2.1.symm) (both.1.2.trans both.2.2.symm))

theorem headOfHash?_eq (h : s.Intact) (chain : UInt64) (hash : String) :
    BlockStore.headOfHash? s chain hash = ((s.rowOfHash? chain hash).toList.mapM BlockRow.head).map List.head? := by
  rw [← selectBlocks_hash h]
  rfl

theorem headOfHash?_eq_some (h : s.Intact) {block : Head} :
    BlockStore.headOfHash? s chain hash = .ok (some block) ↔
      ∃ row, s.rowOfHash? chain hash = some row ∧ row.head = .ok block := by
  rw [headOfHash?_eq h]
  cases s.rowOfHash? chain hash with
  | none =>
      simp only [Option.toList_none, List.mapM_nil, reduceCtorEq, false_and, exists_false, iff_false]
      intro h
      cases h
  | some row =>
      simp only [Option.toList_some, Option.some.injEq, exists_eq_left']
      cases read : row.head <;> simp [read, Except.map, pure, Except.pure, bind, Except.bind]

theorem rowOfHash?_of_mem (h : s.Intact) {row : BlockRow} (mem : row ∈ s.blocks) (chain_eq : row.chain = chain.toInt64)
    (hash_eq : row.hash = hash) : s.rowOfHash? chain hash = some row := by
  unfold rowOfHash?
  rw [find?_eq_some_of_unique]
  · exact ⟨mem, by simp [chain_eq, hash_eq]⟩
  · intro a ha b hb fits_a fits_b
    simp only [Bool.and_eq_true, beq_iff_eq] at fits_a fits_b
    exact eq_of_pairwise_ne h.keyed.ids ha hb
      (h.hash_inj ha hb (fits_a.1.trans fits_b.1.symm) (fits_a.2.trans fits_b.2.symm))

/-! ## Events of a block -/

section Saving

variable {row : BlockRow} {e : EventRow} {events : List Event}

theorem mem_insertEvents (found : s.rowOfHash? chain hash = some row)
    (mem : e ∈ (events.foldl (insertEvent chain hash) s).events) : e ∈ s.events ∨ e.blockId = row.id := by
  induction events generalizing s with
  | nil => exact Or.inl mem
  | cons event events ih =>
      have still : (insertEvent chain hash s event).rowOfHash? chain hash = some row := by
        rw [rowOfHash?_congr (insertEvent_blocks s chain hash event), found]
      refine (ih still mem).elim ?_ Or.inr
      intro mem
      rw [insertEvent_of_row found] at mem
      split at mem
      · exact Or.inl mem
      · exact (List.mem_append.mp mem).imp_right fun mem => by rw [List.mem_singleton.mp mem]; rfl

/-- Events added to a readable block preserve `Intact` and show as kept. -/
theorem Intact.insertEvents (h : s.Intact) {block : Head} (found : s.rowOfHash? chain hash = some row)
    (read : row.head = .ok block) (events : List Event) :
    (events.foldl (insertEvent chain hash) s).Intact ∧
      (events.foldl (insertEvent chain hash) s).bare.view = s.bare.view.keep block.bare events := by
  have found_bare : s.bare.rowOfHash? chain hash = some row.bare := by
    rw [bare_rowOfHash?, found]
    rfl
  obtain ⟨sound, -, seen⟩ := RelationalStore.insertEvents h.sound found_bare events
  rw [bare_insertEvents] at sound seen
  rw [BlockRow.kept_of_head (BlockRow.head_bare read)] at seen
  refine ⟨⟨sound, ?_⟩, seen⟩
  intro other e mem he own
  rw [(insertEvents_blocks s chain hash events).1] at mem
  rcases mem_insertEvents found he with he | id
  · exact h.read mem he own
  · have same : other = row :=
      eq_of_pairwise_ne h.keyed.ids mem (List.mem_of_find?_eq_some found) (own.symm.trans id)
    exact same ▸ BlockRow.isReadable_of_head read

end Saving

theorem saveLogs_refused {events : List Event} (hooks : List (Hook σ (List Event))) (state : σ) (h : s.Intact)
    (some_events : events ≠ []) (unread : ¬∃ block, BlockStore.headOfHash? s chain hash = .ok (some block)) :
    ∃ e : TrackError, s.saveLogs chain hash events hooks state = ⟨.error e, s, state⟩ := by
  simp only [headOfHash?_eq_some h] at unread
  unfold saveLogs
  simp only [List.isEmpty_iff, some_events, if_false, rowOfHash?_congr (insertEvents_blocks s chain hash events).1]
  split
  · exact ⟨_, rfl⟩
  · rename_i row found
    split
    · exact ⟨_, rfl⟩
    · rename_i block read
      exact (unread ⟨block, row, found, read⟩).elim

theorem saveLogs_kept {events : List Event} {block : Head} (hooks : List (Hook σ (List Event))) (state : σ)
    (h : s.Intact) (some_events : events ≠ [])
    (resolved : BlockStore.headOfHash? s chain hash = .ok (some block)) :
    Applied Intact (fun s => s.bare.view) (s.saveLogs chain hash events hooks state)
      (runHooks hooks (events.map (·.mergeWith block)) state) (events.map (·.mergeWith block))
      s.bare.view (s.bare.view.keep block.bare events) := by
  obtain ⟨row, found, read⟩ := (headOfHash?_eq_some h).mp resolved
  obtain ⟨intact, seen⟩ := h.insertEvents found read events
  unfold saveLogs
  simp only [List.isEmpty_iff, some_events, if_false, rowOfHash?_congr (insertEvents_blocks s chain hash events).1,
    found, read]
  generalize runHooks hooks (events.map (·.mergeWith block)) state = hooked
  rcases hooked with ⟨(e | _), state⟩
  · exact ⟨h, rfl, rfl, rfl⟩
  · exact ⟨intact, rfl, rfl, seen⟩

/-! ## Answers -/

theorem bare_selectBlocks (s : RelationalStore) (q : HeadQuery) :
    s.bare.selectBlocks q = (s.selectBlocks q).map BlockRow.bare := by
  have sorted : ((s.blocks.filter (·.admittedBy q)).mergeSort BlockRow.before).map BlockRow.bare =
      ((s.blocks.filter (·.admittedBy q)).map BlockRow.bare).mergeSort BlockRow.before :=
    List.map_mergeSort fun _ _ _ _ => rfl
  rw [selectBlocks, selectBlocks, sorted, bare, List.filter_map]
  rfl

theorem bare_blocksById (s : RelationalStore) (ids : List Nat) :
    s.bare.blocksById ids = (s.blocksById ids).map BlockRow.bare := by
  rw [blocksById, blocksById, List.map_flatMap]
  refine List.flatMap_congr fun piece _ => ?_
  rw [bare, List.filter_map]
  rfl

def bareHeads (known : List (Nat × Head)) : List (Nat × Head) :=
  known.map (Prod.map id Head.bare)

theorem lookup_bareHeads (known : List (Nat × Head)) (id : Nat) :
    (bareHeads known).lookup id = (known.lookup id).map Head.bare := by
  induction known with
  | nil => rfl
  | cons entry known ih =>
      change List.lookup id ((entry.1, entry.2.bare) :: bareHeads known) = ((entry :: known).lookup id).map Head.bare
      rw [List.lookup_cons, List.lookup_cons]
      cases id == entry.1 with
      | true => rfl
      | false => exact ih

theorem bare_mergeRow (owners : List (Nat × Head)) (row : EventRow) :
    mergeRow (bareHeads owners) row = mergeRow owners row := by
  rw [mergeRow, mergeRow, lookup_bareHeads]
  cases owners.lookup row.blockId <;> rfl

theorem bare_missingBlocks (known : List (Nat × Head)) (rows : List EventRow) :
    missingBlocks (bareHeads known) rows = missingBlocks known rows := by
  simp only [missingBlocks, lookup_bareHeads, Option.isNone_map]

theorem bare_readBlocks {rows : List BlockRow} (read : ∀ row ∈ rows, row.IsReadable) :
    readBlocks rows = .ok (atHand rows) ∧ readBlocks (rows.map BlockRow.bare) = .ok (bareHeads (atHand rows)) := by
  constructor
  · refine mapM_ok_of_forall fun row mem => ?_
    rw [show row.head = .ok row.kept from read row mem]
    rfl
  · have heads : bareHeads (atHand rows) = (rows.map BlockRow.bare).map fun row => (row.id, row.kept) := by
      simp only [bareHeads, atHand, List.map_map]
      refine List.map_congr_left fun row mem => ?_
      simp only [Function.comp_apply, Prod.map, id_eq, BlockRow.kept_bare (read row mem)]
      rfl
    rw [heads]
    refine mapM_ok_of_forall fun _ mem => ?_
    obtain ⟨row, own, rfl⟩ := List.mem_map.mp mem
    rw [BlockRow.head_bare (read row own), BlockRow.kept_bare (read row own)]
    rfl

theorem exists_of_mapM_ok {ε α β : Type} {f : α → Except ε β} {xs : List α} {ys : List β}
    (ok : xs.mapM f = .ok ys) : ∀ a ∈ xs, ∃ b, f a = .ok b := by
  induction xs generalizing ys with
  | nil => simp
  | cons a xs ih =>
      rw [List.mapM_cons] at ok
      cases first : f a with
      | error e => simp [first, bind, Except.bind] at ok
      | ok b =>
          cases rest : xs.mapM f with
          | error e => simp [first, rest, bind, Except.bind] at ok
          | ok bs =>
              intro c mem
              rcases List.mem_cons.mp mem with rfl | mem
              · exact ⟨b, first⟩
              · exact ih rest c mem

theorem readable_of_readBlocks {rows : List BlockRow} {known : List (Nat × Head)}
    (read : readBlocks rows = .ok known) {row : BlockRow} (mem : row ∈ rows) : row.IsReadable := by
  obtain ⟨entry, own⟩ := exists_of_mapM_ok read row mem
  cases own_head : row.head with
  | error e => simp [own_head, Except.map] at own
  | ok head => exact BlockRow.isReadable_of_head own_head

/-- Merging the rows of events does not depend on blooms, since only blocks with events are read. -/
theorem bare_secondPass (h : s.Intact) {rows : List EventRow} (kept : rows ⊆ s.events) (known : List (Nat × Head)) :
    s.bare.secondPass rows (bareHeads known) = s.secondPass rows known := by
  have read : ∀ row ∈ s.blocksById (missingBlocks known rows), row.IsReadable := by
    intro row mem
    obtain ⟨stored, missing⟩ := mem_blocksById.mp mem
    obtain ⟨⟨e, he, own⟩, -⟩ := mem_missingBlocks.mp missing
    exact h.read stored (kept he) own
  obtain ⟨ok, bare_ok⟩ := bare_readBlocks read
  have merged : rows.mapM (mergeRow (bareHeads known ++ bareHeads (atHand (s.blocksById (missingBlocks known rows))))) =
      rows.mapM (mergeRow (known ++ atHand (s.blocksById (missingBlocks known rows)))) := by
    have same : bareHeads known ++ bareHeads (atHand (s.blocksById (missingBlocks known rows))) =
        bareHeads (known ++ atHand (s.blocksById (missingBlocks known rows))) := List.map_append.symm
    rw [same]
    congr 1
    exact funext (bare_mergeRow _)
  rw [secondPass, secondPass, bare_missingBlocks, bare_blocksById, bare_ok, ok]
  change (do let found ← rows.mapM (mergeRow _); return found.mergeSort Event.before) = _
  rw [merged]
  rfl

theorem eventRows_subset (s : RelationalStore) (q : EventQuery) (ids : Option (List Nat)) :
    s.eventRows q ids ⊆ s.events := by
  cases ids with
  | none => exact List.filter_subset_self _
  | some ids =>
      intro row mem
      obtain ⟨piece, -, mem⟩ := List.mem_flatMap.mp mem
      exact List.mem_of_mem_filter mem

theorem bare_eventRows (s : RelationalStore) (q : EventQuery) (ids : Option (List Nat)) :
    s.bare.eventRows q ids = s.eventRows q ids := by
  cases ids <;> rfl

/-- Every block that a query for events has to read is readable. -/
def ReadsBlocks (s : RelationalStore) (q : EventQuery) : Prop :=
  ∀ block ∈ q.ofBlock?, ∀ row ∈ s.selectBlocks block, row.IsReadable

theorem selectEvents_of_none (s : RelationalStore) {q : EventQuery} (asked : q.ofBlock? = none) :
    s.selectEvents q = s.secondPass (s.eventRows q none) [] := by
  unfold selectEvents firstPass
  rw [asked]
  rfl

theorem selectEvents_of_some (s : RelationalStore) {q : EventQuery} {block : HeadQuery}
    (asked : q.ofBlock? = some block) :
    s.selectEvents q = (readBlocks (s.selectBlocks block)).bind fun known =>
      s.secondPass (s.eventRows q (some (known.map (·.1)))) known := by
  unfold selectEvents firstPass
  rw [asked]
  dsimp only
  cases readBlocks (s.selectBlocks block) <;> rfl

/-- Where its blocks are readable, a query for events is answered as without blooms. -/
theorem bare_selectEvents (h : s.Intact) {q : EventQuery} (read : s.ReadsBlocks q) :
    s.bare.selectEvents q = s.selectEvents q := by
  cases asked : q.ofBlock? with
  | none =>
      rw [selectEvents_of_none _ asked, selectEvents_of_none _ asked, bare_eventRows]
      exact bare_secondPass h (s.eventRows_subset q none) []
  | some block =>
      obtain ⟨ok, bare_ok⟩ := bare_readBlocks (read block asked)
      have ids : (bareHeads (atHand (s.selectBlocks block))).map (·.1) = (atHand (s.selectBlocks block)).map (·.1) := by
        simp only [bareHeads, List.map_map]
        rfl
      rw [selectEvents_of_some _ asked, selectEvents_of_some _ asked, bare_selectBlocks, ok, bare_ok]
      simp only [Except.bind, ids, bare_eventRows]
      exact bare_secondPass h (s.eventRows_subset q _) _

/-- Where one of them is not, the query fails. -/
theorem readsBlocks_of_selectEvents {q : EventQuery} {answer : List Event} (ok : s.selectEvents q = .ok answer) :
    s.ReadsBlocks q := by
  intro block asked row mem
  rw [selectEvents_of_some _ asked] at ok
  cases read : readBlocks (s.selectBlocks block) with
  | error e =>
      rw [read] at ok
      cases ok
  | ok known => exact readable_of_readBlocks read mem

/-- Every event in an answer is stored. -/
theorem mem_eventsAt_of_selectEvents (h : s.Intact) {q : EventQuery} {answer : List Event}
    (ok : s.selectEvents q = .ok answer) {e : Event} (mem : e ∈ answer) :
    e ∈ s.bare.view.eventsAt e.chain e.blockNumber := by
  rw [← bare_selectEvents h (readsBlocks_of_selectEvents ok), selectEvents_ok h.sound] at ok
  cases ok
  rw [List.mem_mergeSort] at mem
  exact ((mem_found_iff h.sound).mp mem).1

theorem mem_of_rowOfHash? {row : BlockRow} {block : Head} (found : s.rowOfHash? chain hash = some row)
    (read : row.head = .ok block) : row ∈ s.blocks ∧ block.chain = chain ∧ block.hash = hash := by
  have fits := List.find?_some found
  simp only [Bool.and_eq_true, beq_iff_eq] at fits
  have readable := BlockRow.isReadable_of_head read
  have kept := BlockRow.kept_of_head read
  have chain_eq : block.chain = chain := by
    rw [← UInt64.toInt64_inj, ← kept, ← readable.chain, fits.1]
  exact ⟨List.mem_of_find?_eq_some found, chain_eq, kept ▸ readable.hash.symm.trans fits.2⟩

end RelationalStore

/-! ## Queries for one block -/

/-- The query is for the events of one block, given by its number or its hash. -/
def EventQuery.IsOf (q : EventQuery) (block : Head) : Prop :=
  q.chain = some block.chain ∧ (q.blockNumber = some block.number ∨ q.blockHash = some block.hash)

theorem EventQuery.of_ofBlock? {q : EventQuery} {block : HeadQuery} (asked : q.ofBlock? = some block) :
    block.chain = q.chain ∧ block.number = q.blockNumber ∧ block.hash = q.blockHash := by
  unfold ofBlock? at asked
  dsimp only at asked
  split at asked <;> cases asked
  exact ⟨rfl, rfl, rfl⟩

namespace RelationalStore

variable {s : RelationalStore} {chain : UInt64} {hash : String}

theorem readsBlocks_of_block (h : s.Intact) {row : BlockRow} {block : Head}
    (found : s.rowOfHash? chain hash = some row) (read : row.head = .ok block) {q : EventQuery} (of : q.IsOf block) :
    s.ReadsBlocks q := by
  obtain ⟨mem, -, -⟩ := mem_of_rowOfHash? found read
  obtain ⟨readable, kept⟩ := And.intro (BlockRow.isReadable_of_head read) (BlockRow.kept_of_head read)
  intro asked mem_asked other selected
  obtain ⟨stored, admitted⟩ := List.mem_filter.mp (List.mem_mergeSort.mp selected)
  obtain ⟨asked_chain, asked_number, asked_hash⟩ := EventQuery.of_ofBlock? mem_asked
  simp only [BlockRow.admittedBy, asked_chain, of.1, asked_number, asked_hash, Bool.and_eq_true, fieldAdmits,
    Option.map_some, Option.all_some, beq_iff_eq] at admitted
  have same_chain : other.chain = row.chain := by
    rw [readable.chain, kept, admitted.1.1.1.1]
  have same : other.id = row.id := by
    rcases of.2 with number | hash
    · have number_eq : block.number.toInt64 = other.number := by simpa [number] using admitted.1.1.1.2
      exact h.number_inj stored mem same_chain (number_eq.symm.trans (kept ▸ readable.number.symm))
    · have hash_eq : block.hash = other.hash := by simpa [hash] using admitted.1.1.2
      exact h.hash_inj stored mem same_chain (hash_eq.symm.trans (kept ▸ readable.hash.symm))
  exact eq_of_pairwise_ne h.keyed.ids stored mem same ▸ readable

end RelationalStore

end Chainwatch
