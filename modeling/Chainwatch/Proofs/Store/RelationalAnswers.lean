import Chainwatch.Proofs.Store.Passes

/-!
# Answers of the relational store

A query is answered from the rows it admits, in the order of signed numbers for heads and of the numbers
themselves for events. With small numbers all answers are those that the view determines.
-/

namespace Chainwatch

namespace RelationalStore

variable {s : RelationalStore} {head : Head} {row : BlockRow} {chain number : UInt64}

/-! ## Heads -/

theorem mem_selectBlocks (h : s.Sound) {q : HeadQuery} :
    row ∈ s.selectBlocks q ↔ row ∈ s.blocks ∧ q.admits row.kept := by
  simp only [selectBlocks, List.mem_mergeSort, List.mem_filter]
  exact and_congr_right fun mem => by rw [(h.readable mem).admittedBy]

theorem heads_ok (h : s.Sound) (q : HeadQuery) :
    s.heads q = .ok ((s.selectBlocks q).map (·.kept)) :=
  mapM_ok_of_forall fun _ mem => h.readable ((mem_selectBlocks h).mp mem).1

theorem mem_heads (h : s.Sound) (q : HeadQuery) :
    head ∈ (s.selectBlocks q).map (·.kept) ↔
      s.view.headAt? head.chain head.number = some head ∧ q.admits head := by
  rw [List.mem_map, headAt?_eq_some h]
  constructor
  · intro h
    rcases h with ⟨row, mem, rfl⟩
    obtain ⟨mem, admits⟩ := (mem_selectBlocks h).mp mem
    exact ⟨⟨row, mem, rfl, rfl, rfl⟩, admits⟩
  · intro h
    rcases h with ⟨⟨row, mem, rfl, -, -⟩, admits⟩
    exact ⟨row, (mem_selectBlocks h).mpr ⟨mem, admits⟩, rfl⟩

theorem selectBlocks_ids (h : s.Sound) (q : HeadQuery) :
    (s.selectBlocks q).Pairwise (·.id ≠ ·.id) :=
  (List.mergeSort_perm _ _).symm.pairwise (h.ids.filter _) fun {_ _} differ => Ne.symm differ

theorem heads_number (h : s.Sound) (chain number : UInt64) :
    s.heads { chain := some chain, number := some number } =
      .ok (s.view.headAt? chain number).toList := by
  rw [heads_ok h]
  generalize hq : ({ chain := some chain, number := some number } : HeadQuery) = q
  have lists := View.listsHeads_number (view_sound h) chain number
  rw [hq] at lists
  have same (head : Head) : head ∈ (s.selectBlocks q).map (·.kept) ↔
      head ∈ (s.view.headAt? chain number).toList := by
    rw [mem_heads h, lists.mem_iff]
  have ids := selectBlocks_ids h q
  have mem {row : BlockRow} (hr : row ∈ s.selectBlocks q) := (mem_selectBlocks h).mp hr
  generalize s.selectBlocks q = rows at *
  -- two rows of one number would be the same row
  cases rows with
  | nil =>
      cases found : s.view.headAt? chain number with
      | none => rfl
      | some head => simp [found] at same
  | cons first rest =>
      have found : s.view.headAt? chain number = some first.kept := by
        simpa using (same first.kept).mp (by simp)
      cases rest with
      | nil => simp [found]
      | cons second rest =>
          have twice : s.view.headAt? chain number = some second.kept := by
            simpa using (same second.kept).mp (by simp)
          rw [found] at twice
          have kept := Option.some.inj twice
          have one := h.numbers (mem (by simp)).1 (mem (show second ∈ first :: second :: rest by simp)).1
            (congrArg _ kept) (congrArg _ kept)
          rw [one] at ids
          simp at ids

theorem heads_lists (h : s.Sound) (small : s.view.IsSmall) (q : HeadQuery) :
    s.view.ListsHeads q ((s.selectBlocks q).map (·.kept)) := by
  refine ⟨?_, fun head => mem_heads h q⟩
  rw [List.pairwise_map]
  have sorted : (s.selectBlocks q).Pairwise fun a b => a.before b = true :=
    List.pairwise_mergeSort BlockRow.before_trans BlockRow.before_total _
  apply ((selectBlocks_ids h q).and sorted).imp_of_mem
  intro a b ha hb h
  rcases h with ⟨ids, before⟩
  have ha := ((mem_selectBlocks h).mp ha).1
  have hb := ((mem_selectBlocks h).mp hb).1
  have small {r : BlockRow} (hr : r ∈ s.blocks) :
      r.kept.chain.toNat < 0x8000000000000000 ∧ r.kept.number.toNat < 0x8000000000000000 :=
    small _ _ (Option.isSome_of_eq_some ((headAt?_eq_some h).mpr ⟨r, hr, rfl, rfl, rfl⟩))
  refine BlockRow.precedes_of_before (h.readable ha) (h.readable hb) ?_ before ?_
  · intro head mem
    simp only [List.mem_cons, List.not_mem_nil, or_false] at mem
    rcases mem with rfl | rfl
    · exact small ha
    · exact small hb
  · intro h
    rcases h with ⟨chain, number⟩
    exact ids (congrArg _ (h.numbers ha hb chain number))

theorem countHeads_eq (s : RelationalStore) (q : HeadQuery) :
    s.countHeads q = ((s.selectBlocks q).map (·.kept)).length := by
  simp [countHeads, selectBlocks]

/-! ## The height -/

theorem foldl_max (first : Int64) (rest : List Int64) :
    rest.foldl (fun a b => if a < b then b else a) first ∈ first :: rest ∧
      ∀ n ∈ first :: rest, n ≤ rest.foldl (fun a b => if a < b then b else a) first := by
  induction rest generalizing first with
  | nil => simp
  | cons second rest ih =>
      rw [List.foldl_cons]
      obtain ⟨mem, above⟩ := ih (if first < second then second else first)
      have greatest := above _ List.mem_cons_self
      constructor
      · rcases List.mem_cons.mp mem with eq | mem
        · rw [eq]
          split <;> simp
        · exact List.mem_cons_of_mem _ (List.mem_cons_of_mem _ mem)
      · intro n hn
        have le : first ≤ (if first < second then second else first) ∧
            second ≤ (if first < second then second else first) := by
          split
          · rename_i lt
            exact ⟨Int64.le_of_lt lt, Int64.le_rfl⟩
          · rename_i not_lt
            exact ⟨Int64.le_rfl, Int64.not_lt.mp not_lt⟩
        rcases List.mem_cons.mp hn with rfl | hn
        · exact Int64.le_trans le.1 greatest
        · rcases List.mem_cons.mp hn with rfl | hn
          · exact Int64.le_trans le.2 greatest
          · exact above n (List.mem_cons_of_mem _ hn)

/-- The height is the number of a confirmed row, the greatest of its chain as a signed number, or there
is none. -/
theorem height_rows (s : RelationalStore) (chain : UInt64) :
    (s.height chain = 0 ∧ ∀ row ∈ s.blocks, row.chain = chain.toInt64 → row.state ≠ BlockState.confirmed.code) ∨
      ∃ top ∈ s.blocks, top.chain = chain.toInt64 ∧ top.state = BlockState.confirmed.code ∧
        top.number = (s.height chain).toInt64 ∧
        ∀ row ∈ s.blocks, row.chain = chain.toInt64 → row.state = BlockState.confirmed.code →
          row.number ≤ top.number := by
  have mem (n : Int64) : n ∈ (s.blocks.filter fun row =>
        row.chain == chain.toInt64 && row.state == BlockState.confirmed.code).map (·.number) ↔
      ∃ row ∈ s.blocks, row.chain = chain.toInt64 ∧ row.state = BlockState.confirmed.code ∧ row.number = n := by
    simp [and_assoc]
  unfold height
  dsimp only
  generalize (s.blocks.filter fun row =>
    row.chain == chain.toInt64 && row.state == BlockState.confirmed.code).map (·.number) = numbers at *
  cases numbers with
  | nil =>
      refine Or.inl ⟨rfl, ?_⟩
      intro row stored chain_eq confirmed
      simpa using (mem row.number).mpr ⟨row, stored, chain_eq, confirmed, rfl⟩
  | cons first rest =>
      obtain ⟨reached, greatest⟩ := foldl_max first rest
      obtain ⟨top, stored, chain_eq, confirmed, number⟩ := (mem _).mp reached
      refine Or.inr ⟨top, stored, chain_eq, confirmed, number.trans (by simp), ?_⟩
      intro row stored chain_eq confirmed
      rw [number]
      exact greatest _ ((mem _).mpr ⟨row, stored, chain_eq, confirmed, rfl⟩)

theorem isConfirmed_iff_row (h : s.Sound) (chain number : UInt64) :
    s.view.isConfirmed chain number ↔ ∃ row ∈ s.blocks, row.chain = chain.toInt64 ∧
      row.state = BlockState.confirmed.code ∧ row.number = number.toInt64 := by
  simp only [View.isConfirmed_iff, headAt?_eq_some h]
  constructor
  · intro h'
    rcases h' with ⟨head, ⟨row, mem, rfl, rfl, rfl⟩, state⟩
    have readable := h.readable mem
    exact ⟨row, mem, readable.chain, by rw [readable.state, state], readable.number⟩
  · intro h'
    rcases h' with ⟨row, mem, chain_eq, state, number_eq⟩
    have readable := h.readable mem
    rw [readable.chain, UInt64.toInt64_inj] at chain_eq
    rw [readable.state, BlockState.code_inj] at state
    rw [readable.number, UInt64.toInt64_inj] at number_eq
    exact ⟨row.kept, ⟨row, mem, rfl, chain_eq, number_eq⟩, state⟩

/-- The height is confirmed and, as a signed number, the greatest, or nothing is confirmed. -/
theorem height_cases (h : s.Sound) (chain : UInt64) :
    (s.height chain = 0 ∧ ∀ number, ¬s.view.isConfirmed chain number) ∨
      s.view.isConfirmed chain (s.height chain) ∧
        ∀ number, s.view.isConfirmed chain number → number.toInt64 ≤ (s.height chain).toInt64 := by
  rcases s.height_rows chain with ⟨zero, none⟩ | ⟨top, mem, chain_eq, confirmed, number, greatest⟩
  · refine Or.inl ⟨zero, ?_⟩
    intro number confirmed
    obtain ⟨row, mem, chain_eq, state, -⟩ := (isConfirmed_iff_row h chain number).mp confirmed
    exact none row mem chain_eq state
  · refine Or.inr ⟨(isConfirmed_iff_row h chain _).mpr ⟨top, mem, chain_eq, confirmed, number⟩, ?_⟩
    intro n confirmed
    obtain ⟨row, mem, chain_eq, state, number_eq⟩ := (isConfirmed_iff_row h chain n).mp confirmed
    rw [← number_eq, ← number]
    exact greatest row mem chain_eq state

theorem height_isHeight (h : s.Sound) (small : s.view.IsSmall) (chain : UInt64) :
    s.view.IsHeight chain (s.height chain) := by
  rcases height_cases h chain with ⟨zero, none⟩ | ⟨reached, greatest⟩
  · exact ⟨Or.inl zero, fun number confirmed => (none number confirmed).elim⟩
  · refine ⟨Or.inr reached, ?_⟩
    intro number confirmed
    have le := greatest number confirmed
    rw [Int64.le_iff_toInt_le, UInt64.toInt_toInt64 (small.isConfirmed confirmed).2,
      UInt64.toInt_toInt64 (small.isConfirmed reached).2] at le
    rw [UInt64.le_iff_toNat_le]
    omega

/-! ## Events -/

def ownerFor? (s : RelationalStore) (q : EventQuery) (id : Nat) : Option Head :=
  (s.headOfId? id).filter fun head => q.ofBlock?.all (·.admits head)

theorem ownerFor?_eq_some (h : s.Sound) {q : EventQuery} {id : Nat} : s.ownerFor? q id = some head ↔
    ∃ row ∈ s.blocks, row.id = id ∧ q.ofBlock?.all (·.admits row.kept) ∧ row.kept = head := by
  rw [ownerFor?, Option.filter_eq_some_iff, headOfId?_eq_some h]
  constructor
  · rintro ⟨⟨row, mem, id, rfl⟩, admits⟩
    exact ⟨row, mem, id, admits, rfl⟩
  · rintro ⟨row, mem, id, admits, rfl⟩
    exact ⟨⟨row, mem, id, rfl⟩, admits⟩

def found (s : RelationalStore) (q : EventQuery) : List Event :=
  (s.events.filter (·.admittedBy q)).filterMap fun row => (s.ownerFor? q row.blockId).map row.event

theorem mem_found (h : s.Sound) {q : EventQuery} {e : Event} :
    e ∈ s.found q ↔ ∃ r ∈ s.events, r.admittedBy q ∧ ∃ row ∈ s.blocks,
      row.id = r.blockId ∧ q.ofBlock?.all (·.admits row.kept) ∧ r.event row.kept = e := by
  simp only [found, List.mem_filterMap, List.mem_filter, Option.map_eq_some_iff, ownerFor?_eq_some h]
  constructor
  · rintro ⟨r, ⟨hr, admitted⟩, head, ⟨row, mem, id, block, rfl⟩, rfl⟩
    exact ⟨r, hr, admitted, row, mem, id, block, rfl⟩
  · rintro ⟨r, hr, admitted, row, mem, id, block, rfl⟩
    exact ⟨r, ⟨hr, admitted⟩, row.kept, ⟨row, mem, id, block, rfl⟩, rfl⟩

theorem mem_eventsAt (h : s.Sound) {e : Event} :
    e ∈ s.view.eventsAt chain number ↔ ∃ row ∈ s.blocks, row.kept.chain = chain ∧
      row.kept.number = number ∧ ∃ r ∈ s.events, r.blockId = row.id ∧ r.event row.kept = e := by
  simp only [view]
  constructor
  · cases found : s.rowOfNumber? chain number with
    | none => simp
    | some row =>
        intro mem
        obtain ⟨mem_row, hc, hn⟩ := (rowOfNumber?_eq_some h).mp found
        rcases List.mem_map.mp mem with ⟨r, hr, rfl⟩
        obtain ⟨hr, id⟩ := List.mem_filter.mp hr
        exact ⟨row, mem_row, hc, hn, r, hr, beq_iff_eq.mp id, rfl⟩
  · intro h
    rcases h with ⟨row, mem, hc, hn, r, hr, id, rfl⟩
    rw [(rowOfNumber?_eq_some h).mpr ⟨mem, hc, hn⟩]
    exact List.mem_map.mpr ⟨r, List.mem_filter.mpr ⟨hr, beq_iff_eq.mpr id⟩, rfl⟩

/-- No two events share a place. -/
def Distinct (events : List Event) : Prop :=
  events.Pairwise fun a b => ¬(a.chain = b.chain ∧ a.blockNumber = b.blockNumber ∧ a.logIndex = b.logIndex)

theorem Distinct.perm {events others : List Event} (h : Distinct events) (perm : events.Perm others) :
    Distinct others :=
  perm.pairwise h fun differ same => differ ⟨same.1.symm, same.2.1.symm, same.2.2.symm⟩

theorem found_distinct (h : s.Sound) (q : EventQuery) : Distinct (s.found q) := by
  unfold found Distinct
  rw [List.pairwise_filterMap]
  apply (h.places.filter _).imp
  intro r t apart a ha b hb h
  rcases h with ⟨chain, number, place⟩
  rcases Option.map_eq_some_iff.mp ha with ⟨head, owner, rfl⟩
  rcases Option.map_eq_some_iff.mp hb with ⟨other, owner', rfl⟩
  rcases (ownerFor?_eq_some h).mp owner with ⟨row, hrow, id, -, rfl⟩
  rcases (ownerFor?_eq_some h).mp owner' with ⟨row', hrow', id', -, rfl⟩
  have same := h.numbers hrow hrow' chain number
  exact apart ⟨by rw [← id, ← id', same], place⟩

theorem Distinct.ordered {events : List Event} (h : Distinct events) :
    (events.mergeSort Event.before).Pairwise Event.Precedes := by
  have sorted : (events.mergeSort Event.before).Pairwise fun a b => a.before b = true :=
    List.pairwise_mergeSort Event.before_trans Event.before_total _
  have distinct := h.perm (List.mergeSort_perm events Event.before).symm
  exact (distinct.and sorted).imp fun {a b} both => Event.precedes_of_before both.2 both.1

theorem found_ordered (h : s.Sound) (q : EventQuery) :
    ((s.found q).mergeSort Event.before).Pairwise Event.Precedes :=
  (found_distinct h q).ordered

/-- The first pass selects the rows that a query admits, each once, together with the blocks read for them. -/
theorem firstPass_ok (h : s.Sound) (q : EventQuery) : ∃ rows blocks, blocks ⊆ s.blocks ∧
    s.firstPass q = .ok (rows, atHand blocks) ∧
      rows.Perm ((s.events.filter (·.admittedBy q)).filter fun row => (s.ownerFor? q row.blockId).isSome) := by
  unfold firstPass
  cases asked : q.ofBlock? with
  | none =>
      refine ⟨s.eventRows q none, [], List.nil_subset _, rfl, .of_eq (Eq.symm ?_)⟩
      refine List.filter_eq_self.mpr fun row mem => ?_
      obtain ⟨block, hb, id⟩ := h.owned (List.mem_filter.mp mem).1
      exact Option.isSome_of_eq_some ((ownerFor?_eq_some h).mpr ⟨block, hb, id, by rw [asked]; rfl, rfl⟩)
  | some block =>
      have stored : s.selectBlocks block ⊆ s.blocks := fun row mem => ((mem_selectBlocks h).mp mem).1
      have distinct : ((atHand (s.selectBlocks block)).map (·.1)).Nodup := by
        rw [atHand, List.map_map, List.Nodup, List.pairwise_map]
        exact selectBlocks_ids h block
      refine ⟨s.eventRows q (some ((atHand (s.selectBlocks block)).map (·.1))), s.selectBlocks block, stored, ?_, ?_⟩
      · dsimp only
        rw [readBlocks_ok h stored]
        rfl
      · refine (eventRows_perm distinct).trans (.of_eq ?_)
        rw [List.filter_filter]
        refine List.filter_congr fun row _ => ?_
        congr 1
        rw [Bool.eq_iff_iff, List.contains_iff_mem, Option.isSome_iff_exists]
        simp only [atHand, List.map_map, List.mem_map, Function.comp_apply, mem_selectBlocks h, ownerFor?_eq_some h,
          asked, Option.all_some]
        grind

theorem selectEvents_ok (h : s.Sound) (q : EventQuery) :
    s.selectEvents q = .ok ((s.found q).mergeSort Event.before) := by
  obtain ⟨rows, blocks, stored, first, perm⟩ := firstPass_ok h q
  have kept : rows ⊆ s.events := fun row mem => List.mem_of_mem_filter (List.mem_of_mem_filter (perm.subset mem))
  -- rows without an admitted owner bring nothing, and the others are merged with the head of their row number
  have merged : (rows.filterMap fun row => (s.headOfId? row.blockId).map row.event).Perm (s.found q) := by
    refine (perm.filterMap _).trans (.of_eq ?_)
    rw [found, List.filterMap_filter]
    refine List.filterMap_congr fun row _ => ?_
    cases owner : s.ownerFor? q row.blockId with
    | none => rfl
    | some head =>
        have own : s.headOfId? row.blockId = some head := (Option.filter_eq_some_iff.mp owner).1
        simp [own]
  have second := secondPass_ok h stored kept
  have same := eq_of_ordered Event.Precedes.asymm ((found_distinct h q).perm merged.symm).ordered (found_ordered h q)
    fun e => by rw [List.mem_mergeSort, List.mem_mergeSort, merged.mem_iff]
  rw [same] at second
  rw [selectEvents, first]
  exact second

theorem events_lists (h : s.Sound) {q : EventQuery} (collated : q.IsCollated) :
    s.view.ListsEvents q ((s.found q).mergeSort Event.before) := by
  constructor
  · exact found_ordered h q
  · intro e
    rw [List.mem_mergeSort, mem_found h, mem_eventsAt h]
    constructor
    · intro h
      rcases h with ⟨r, hr, admitted, row, mem, id, block, rfl⟩
      refine ⟨⟨row, mem, rfl, rfl, r, hr, id.symm, rfl⟩, ?_⟩
      rw [EventRow.admittedBy_eq (h.signed hr) collated row.kept] at admitted
      rw [← EventRow.event_mergeWith r row.kept row.kept, EventQuery.admits_mergeWith, block, admitted]
      rfl
    · intro h
      rcases h with ⟨⟨row, mem, -, -, r, hr, id, rfl⟩, admits⟩
      rw [← EventRow.event_mergeWith r row.kept row.kept, EventQuery.admits_mergeWith,
        Bool.and_eq_true, ← EventRow.admittedBy_eq (h.signed hr) collated row.kept] at admits
      exact ⟨r, hr, admits.2, row, mem, id.symm, admits.1, rfl⟩

theorem countEvents_eq (h : s.Sound) (q : EventQuery) :
    s.countEvents q = ((s.found q).mergeSort Event.before).length := by
  rw [List.length_mergeSort, found, List.length_filterMap_eq_countP, List.countP_eq_length_filter,
    List.filter_filter, countEvents]
  congr 1
  refine List.filter_congr fun r _ => ?_
  rw [Bool.and_comm]
  congr 1
  rw [Bool.eq_iff_iff, List.any_eq_true, Option.isSome_map, Option.isSome_iff_exists]
  simp only [ownerFor?_eq_some h, Bool.and_eq_true, beq_iff_eq]
  constructor
  · rintro ⟨row, mem, id, admitted⟩
    refine ⟨row.kept, row, mem, id, ?_, rfl⟩
    simpa only [(h.readable mem).admittedBy] using admitted
  · rintro ⟨head, row, mem, id, block, rfl⟩
    refine ⟨row, mem, id, ?_⟩
    simpa only [(h.readable mem).admittedBy] using block

instance : LawfulStore RelationalStore where
  Sound := Sound
  view := view
  view_sound := view_sound
  createHead_taken hooks state h taken := createHead_taken hooks state h taken
  createHead_free hooks state h free full := createHead_free hooks state h free full
  upsertHead_taken hooks state h taken := upsertHead_taken hooks state h taken
  upsertHead_free hooks state h free full := upsertHead_free hooks state h free full
  saveLogs_nil _ _ _ _ _ := rfl
  saveLogs_unknown hooks state h some_events unknown := saveLogs_unknown hooks state h some_events unknown
  saveLogs_known hooks state h some_events hb hash :=
    hash ▸ saveLogs_known hooks state h some_events hb
  heads_number chain number h := heads_number h chain number
  height_ok _ _ := ⟨_, rfl⟩
  height_confirmed {_ chain _} h height :=
    Except.ok.inj height ▸ (height_cases h chain).imp (fun none => none.1) fun reached => reached.1

end RelationalStore

end Chainwatch
