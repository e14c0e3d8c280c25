import Chainwatch.Proofs.Store.RelationalAnswers

/-!
# Answers depend on the view

Two stores of one kind with the same view answer every query alike, whatever writes led to them. For one
number of a chain the events of the answer are those of the view.
-/

namespace Chainwatch

/-- Two stores give the same answer to every query. -/
structure BlockStore.Alike {S : Type} [BlockStore S] (s t : S) : Prop where
  height : ∀ chain, height s chain = height t chain
  heads : ∀ q, heads s q = heads t q
  countHeads : ∀ q, countHeads s q = countHeads t q
  events : ∀ q, events s q = events t q
  countEvents : ∀ q, countEvents s q = countEvents t q

theorem BlockStore.Alike.refl {S : Type} [BlockStore S] (s : S) : BlockStore.Alike s s :=
  ⟨fun _ => rfl, fun _ => rfl, fun _ => rfl, fun _ => rfl, fun _ => rfl⟩

/-- A lawful store whose answers are determined by its view. -/
class AnsweringStore (S : Type) [BlockStore S] [LawfulStore S] : Prop where
  alike {s t : S} : LawfulStore.Sound s → LawfulStore.Sound t → LawfulStore.view s = LawfulStore.view t →
    BlockStore.Alike s t
  events_number {s : S} (chain number : UInt64) : LawfulStore.Sound s → ∃ answer,
    BlockStore.events s { chain := some chain, blockNumber := some number } = .ok answer ∧
      answer.Perm ((LawfulStore.view s).eventsAt chain number)

namespace View

variable {v : View} {chain number : UInt64}

/-- The events of a number carry its chain and number, each at a place of its own. -/
structure Places (v : View) (chain number : UInt64) : Prop where
  chain_eq : ∀ e ∈ v.eventsAt chain number, e.chain = chain
  number_eq : ∀ e ∈ v.eventsAt chain number, e.blockNumber = number
  distinct : (v.eventsAt chain number).Pairwise (·.logIndex ≠ ·.logIndex)

/-- A query for the events of one number is answered with these, up to order. -/
theorem ListsEvents.perm {answer : List Event}
    (lists : v.ListsEvents { chain := some chain, blockNumber := some number } answer)
    (places : v.Places chain number) : answer.Perm (v.eventsAt chain number) := by
  have once : answer.Nodup := by
    refine lists.ordered.imp ?_
    rintro a b precedes rfl
    exact precedes.asymm precedes
  have apart : (v.eventsAt chain number).Nodup := by
    refine places.distinct.imp ?_
    rintro a b differ rfl
    exact differ rfl
  refine (List.perm_ext_iff_of_nodup once apart).mpr ?_
  intro e
  rw [lists.mem_iff]
  simp only [EventQuery.admits, EventQuery.admitsOwn, fieldAdmits, Option.all_some, Option.all_none, Bool.and_true,
    Bool.and_eq_true, beq_iff_eq]
  constructor
  · intro h
    rcases h with ⟨mem, rfl, rfl⟩
    exact mem
  · intro mem
    have chain_eq := places.chain_eq e mem
    have number_eq := places.number_eq e mem
    subst chain_eq number_eq
    exact ⟨mem, rfl, rfl⟩

end View

/-! ## Nested stores -/

namespace NestedStore

variable {s t : NestedStore}

theorem places (h : s.Sound) (chain number : UInt64) : s.view.Places chain number := by
  have found {e : Event} (mem : e ∈ s.view.eventsAt chain number) := ChainTable.mem_eventsAt.mp mem
  refine ⟨?_, ?_, ?_⟩
  · intro e mem
    obtain ⟨head, placed, old, -, rfl⟩ := found mem
    exact (h chain).chain_eq placed
  · intro e mem
    obtain ⟨head, placed, old, -, rfl⟩ := found mem
    exact (h chain).number_eq placed
  · simp only [view, ChainTable.eventsAt]
    split
    · exact List.Pairwise.nil
    · rw [List.pairwise_map]
      exact (h chain).distinct _

instance : AnsweringStore NestedStore where
  alike {s t} h g same := by
    have heads (q : HeadQuery) : s.heads q = t.heads q :=
      (heads_lists h q).unique ((show s.view = t.view from same) ▸ heads_lists g q)
    have events (q : EventQuery) : s.events q = t.events q :=
      (events_lists h q).unique ((show s.view = t.view from same) ▸ events_lists g q)
    constructor
    · intro chain
      exact congrArg Except.ok
        ((height_isHeight s chain).unique ((show s.view = t.view from same) ▸ height_isHeight t chain))
    · exact fun q => congrArg Except.ok (heads q)
    · exact fun q => congrArg (fun answer => Except.ok answer.length) (heads q)
    · exact fun q => congrArg Except.ok (events q)
    · exact fun q => congrArg (fun answer => Except.ok answer.length) (events q)
  events_number {s} chain number h :=
    ⟨_, rfl, (events_lists h _).perm (places h chain number)⟩

end NestedStore

/-! ## Relational stores -/

/-- The order of the table of blocks: by chain, then by number, both as signed numbers. -/
def Head.PrecedesSigned (a b : Head) : Prop :=
  a.chain.toInt64 < b.chain.toInt64 ∨ a.chain = b.chain ∧ a.number.toInt64 < b.number.toInt64

theorem Head.PrecedesSigned.asymm {a b : Head} (h : a.PrecedesSigned b) : ¬b.PrecedesSigned a := by
  unfold PrecedesSigned at *
  grind

namespace RelationalStore

variable {s t : RelationalStore}

theorem places (h : s.Sound) (chain number : UInt64) : s.view.Places chain number := by
  refine ⟨?_, ?_, ?_⟩
  · intro e mem
    obtain ⟨row, -, placed, -, r, -, -, rfl⟩ := (mem_eventsAt h).mp mem
    exact placed
  · intro e mem
    obtain ⟨row, -, -, placed, r, -, -, rfl⟩ := (mem_eventsAt h).mp mem
    exact placed
  · simp only [view]
    split
    · exact List.Pairwise.nil
    · rw [List.pairwise_map]
      refine (h.places.filter _).imp_of_mem ?_
      intro a b ha hb apart same
      have ia := beq_iff_eq.mp (List.mem_filter.mp ha).2
      have ib := beq_iff_eq.mp (List.mem_filter.mp hb).2
      exact apart ⟨ia.trans ib.symm, same⟩

theorem heads_ordered (h : s.Sound) (q : HeadQuery) :
    ((s.selectBlocks q).map (·.kept)).Pairwise Head.PrecedesSigned := by
  rw [List.pairwise_map]
  have sorted : (s.selectBlocks q).Pairwise fun a b => a.before b = true :=
    List.pairwise_mergeSort BlockRow.before_trans BlockRow.before_total _
  refine ((selectBlocks_ids h q).and sorted).imp_of_mem ?_
  intro a b ha hb both
  obtain ⟨ids, before⟩ := both
  have ha := ((mem_selectBlocks h).mp ha).1
  have hb := ((mem_selectBlocks h).mp hb).1
  have differ (chain : a.kept.chain = b.kept.chain) (number : a.kept.number = b.kept.number) : False :=
    ids (congrArg _ (h.numbers ha hb chain number))
  simp only [BlockRow.before, (h.readable ha).chain, (h.readable hb).chain, (h.readable ha).number,
    (h.readable hb).number, Bool.or_eq_true, Bool.and_eq_true, decide_eq_true_eq, beq_iff_eq, UInt64.toInt64_inj,
    Int64.le_iff_lt_or_eq] at before
  rcases before with lower | ⟨chain, lower | number⟩
  · exact Or.inl lower
  · exact Or.inr ⟨chain, lower⟩
  · exact (differ chain number).elim

theorem mem_found_iff (h : s.Sound) {q : EventQuery} {e : Event} :
    e ∈ s.found q ↔ e ∈ s.view.eventsAt e.chain e.blockNumber ∧ (EventRow.ofEvent 0 e).admittedBy q ∧
      ∃ head, s.view.headAt? e.chain e.blockNumber = some head ∧ q.ofBlock?.all (·.admits head) := by
  have own {r : EventRow} (mem : r ∈ s.events) (head : Head) :
      (EventRow.ofEvent 0 (r.event head)).admittedBy q = r.admittedBy q := by
    simp only [EventRow.admittedBy, EventRow.ofEvent, EventRow.event, Event.signature?, h.signed mem]
  rw [mem_found h, mem_eventsAt h]
  constructor
  · intro found
    obtain ⟨r, hr, admitted, row, mem, id, block, rfl⟩ := found
    exact ⟨⟨row, mem, rfl, rfl, r, hr, id.symm, rfl⟩, own hr row.kept ▸ admitted, row.kept,
      (headAt?_eq_some h).mpr ⟨row, mem, rfl, rfl, rfl⟩, block⟩
  · intro kept
    obtain ⟨⟨row, mem, -, -, r, hr, id, rfl⟩, admitted, head, placed, block⟩ := kept
    cases placed.symm.trans ((headAt?_eq_some h).mpr ⟨row, mem, rfl, rfl, rfl⟩)
    exact ⟨r, hr, own hr row.kept ▸ admitted, row, mem, id.symm, block, rfl⟩

theorem height_unique (h : s.Sound) (g : t.Sound) (same : s.view = t.view) (chain : UInt64) :
    s.height chain = t.height chain := by
  rcases height_cases h chain with ⟨zero, none⟩ | ⟨reached, greatest⟩ <;>
    rcases height_cases g chain with ⟨zero', none'⟩ | ⟨reached', greatest'⟩
  · exact zero.trans zero'.symm
  · exact (none _ (same ▸ reached')).elim
  · exact (none' _ (same ▸ reached)).elim
  · exact UInt64.toInt64_inj.mp
      (Int64.le_antisymm (greatest' _ (same ▸ reached)) (greatest _ (same ▸ reached')))

instance : AnsweringStore RelationalStore where
  alike {s t} h g same := by
    have same : s.view = t.view := same
    have heads (q : HeadQuery) : (s.selectBlocks q).map (·.kept) = (t.selectBlocks q).map (·.kept) :=
      eq_of_ordered Head.PrecedesSigned.asymm (heads_ordered h q) (heads_ordered g q) fun head => by
        rw [mem_heads h, mem_heads g, same]
    have events (q : EventQuery) : (s.found q).mergeSort Event.before = (t.found q).mergeSort Event.before :=
      eq_of_ordered Event.Precedes.asymm (found_ordered h q) (found_ordered g q) fun e => by
        rw [List.mem_mergeSort, List.mem_mergeSort, mem_found_iff h, mem_found_iff g, same]
    constructor
    · exact fun chain => congrArg Except.ok (height_unique h g same chain)
    · intro q
      exact (heads_ok h q).trans ((congrArg Except.ok (heads q)).trans (heads_ok g q).symm)
    · intro q
      exact congrArg Except.ok ((s.countHeads_eq q).trans
        ((congrArg List.length (heads q)).trans (t.countHeads_eq q).symm))
    · intro q
      exact (selectEvents_ok h q).trans ((congrArg Except.ok (events q)).trans (selectEvents_ok g q).symm)
    · intro q
      exact congrArg Except.ok ((countEvents_eq h q).trans
        ((congrArg List.length (events q)).trans (countEvents_eq g q).symm))
  events_number {s} chain number h := by
    have collated : EventQuery.IsCollated { chain := some chain, blockNumber := some number } :=
      EventQuery.isCollated_of_plain (by simp) (by simp)
    exact ⟨_, selectEvents_ok h _, (events_lists h collated).perm (places h chain number)⟩

end RelationalStore

end Chainwatch
