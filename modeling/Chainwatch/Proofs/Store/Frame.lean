import Chainwatch.Proofs.Store.Batches

/-!
# A write touches one block

A write is on one number of one chain, and what can be asked of all others is answered as before. When a head of
another hash takes the place of one, nothing is left of that one: its hash is free, its events are gone, and they
stay gone when the hash comes back.
-/

namespace Chainwatch

def HeadQuery.Avoids (q : HeadQuery) (chain number : UInt64) : Prop :=
  (∃ c ∈ q.chain, c ≠ chain) ∨ ∃ n ∈ q.number, n ≠ number

def EventQuery.Avoids (q : EventQuery) (chain number : UInt64) : Prop :=
  (∃ c ∈ q.chain, c ≠ chain) ∨ ∃ n ∈ q.blockNumber, n ≠ number

/-- The head stands on another chain or under another number. -/
def Head.isBeside (head : Head) (chain number : UInt64) : Bool :=
  head.chain != chain || head.number != number

/-- The event stands on another chain or under another number. -/
def Event.isBeside (e : Event) (chain number : UInt64) : Bool :=
  e.chain != chain || e.blockNumber != number

theorem HeadQuery.Avoids.isBeside {q : HeadQuery} {chain number : UInt64} (avoids : q.Avoids chain number) {head : Head}
    (admits : q.admits head) : head.isBeside chain number := by
  simp only [HeadQuery.admits, fieldAdmits, Bool.and_eq_true] at admits
  rcases avoids with ⟨c, asked, other⟩ | ⟨n, asked, other⟩
  · have same : c = head.chain := by simpa [show q.chain = some c from asked] using admits.1.1.1.1
    simp [Head.isBeside, ← same, other]
  · have same : n = head.number := by simpa [show q.number = some n from asked] using admits.1.1.1.2
    simp [Head.isBeside, ← same, other]

theorem EventQuery.Avoids.isBeside {q : EventQuery} {chain number : UInt64} (avoids : q.Avoids chain number) {e : Event}
    (admits : q.admits e) : e.isBeside chain number := by
  simp only [EventQuery.admits, fieldAdmits, Bool.and_eq_true] at admits
  rcases avoids with ⟨c, asked, other⟩ | ⟨n, asked, other⟩
  · have same : c = e.chain := by simpa [show q.chain = some c from asked] using admits.1.1.1.1
    simp [Event.isBeside, ← same, other]
  · have same : n = e.blockNumber := by simpa [show q.blockNumber = some n from asked] using admits.1.1.1.2
    simp [Event.isBeside, ← same, other]

/-- Two stores answer alike about everything but one number of one chain. -/
structure BlockStore.AlikeBeside {S : Type} [BlockStore S] (s t : S) (chain number : UInt64) : Prop where
  height : ∀ other, other ≠ chain → height s other = height t other
  heads : ∀ q : HeadQuery, q.Avoids chain number → heads s q = heads t q
  countHeads : ∀ q : HeadQuery, q.Avoids chain number → countHeads s q = countHeads t q
  events : ∀ q : EventQuery, q.Avoids chain number → events s q = events t q
  countEvents : ∀ q : EventQuery, q.Avoids chain number → countEvents s q = countEvents t q
  heads_beside : ∀ (q : HeadQuery) (xs ys : List Head), BlockStore.heads s q = .ok xs → BlockStore.heads t q = .ok ys →
    xs.filter (·.isBeside chain number) = ys.filter (·.isBeside chain number)
  events_beside : ∀ (q : EventQuery) (xs ys : List Event), BlockStore.events s q = .ok xs →
    BlockStore.events t q = .ok ys → xs.filter (·.isBeside chain number) = ys.filter (·.isBeside chain number)

theorem BlockStore.AlikeBeside.refl {S : Type} [BlockStore S] (s : S) (chain number : UInt64) :
    AlikeBeside s s chain number where
  height _ _ := rfl
  heads _ _ := rfl
  countHeads _ _ := rfl
  events _ _ := rfl
  countEvents _ _ := rfl
  heads_beside _ _ _ hx hy := by
    cases hx.symm.trans hy
    rfl
  events_beside _ _ _ hx hy := by
    cases hx.symm.trans hy
    rfl

namespace View

/-- Two views agree except at one number of one chain. -/
def SameBeside (v w : View) (chain number : UInt64) : Prop :=
  ∀ c n, ¬(c = chain ∧ n = number) → v.headAt? c n = w.headAt? c n ∧ v.eventsAt c n = w.eventsAt c n

theorem SameBeside.refl (v : View) (chain number : UInt64) : v.SameBeside v chain number := fun _ _ _ => ⟨rfl, rfl⟩

theorem sameBeside_put (v : View) (head : Head) : v.SameBeside (v.put head) head.chain head.number :=
  fun _ _ other => ⟨(if_neg other).symm, (if_neg other).symm⟩

theorem sameBeside_keep (v : View) (block : Head) (events : List Event) :
    v.SameBeside (v.keep block events) block.chain block.number :=
  fun _ _ other => ⟨rfl, (if_neg other).symm⟩

variable {v w : View} {chain number : UInt64}

theorem SameBeside.events (same : v.SameBeside w chain number) {e : Event} (beside : e.isBeside chain number) :
    v.headAt? e.chain e.blockNumber = w.headAt? e.chain e.blockNumber ∧
      v.eventsAt e.chain e.blockNumber = w.eventsAt e.chain e.blockNumber := by
  refine same _ _ ?_
  rintro ⟨rfl, rfl⟩
  simp [Event.isBeside] at beside

theorem SameBeside.heads (same : v.SameBeside w chain number) {head : Head} (beside : head.isBeside chain number) :
    v.headAt? head.chain head.number = w.headAt? head.chain head.number := by
  refine (same _ _ ?_).1
  rintro ⟨rfl, rfl⟩
  simp [Head.isBeside] at beside

end View

/-- The chain and number that a write is on: those of its head, or of the block of its hash. -/
def Write.IsOn {S σ : Type} [BlockStore S] (w : Write σ) (s : S) (chain number : UInt64) : Prop :=
  match w with
  | createHead head _ | upsertHead head _ => head.chain = chain ∧ head.number = number
  | saveLogs c hash _ _ =>
    c = chain ∧ BlockStore.Has s { chain := some chain, number := some number, hash := some hash }

section Places

variable {S σ : Type} [BlockStore S] [PlainStore S] {s : S} {chain number : UInt64}

open PlainStore (Sound view shown)

/-- A write changes the view only at the number that it is on. -/
theorem Write.sameBeside (h : Sound s) (w : Write σ) (state : σ)
    (on : ∀ {c n}, w.IsOn s c n → c = chain ∧ n = number) :
    (view s).SameBeside (view (w.run s state).store) chain number := by
  obtain ⟨-, became⟩ := PlainStore.run_becomes h w state
  generalize (w.run s state).outcome = outcome, (w.run s state).store = t at became
  cases became with
  | failed same =>
      rw [same]
      exact .refl _ _ _
  | @placed _ head stored _ of_head chain_eq number_eq _ _ seen =>
      have place : stored.chain = chain ∧ stored.number = number := by
        rw [chain_eq, number_eq]
        cases w <;> cases of_head <;> exact on ⟨rfl, rfl⟩
      rw [seen, ← place.1, ← place.2]
      have put := (view s).sameBeside_put (shown S stored)
      rwa [PlainStore.shown_chain, PlainStore.shown_number] at put
  | empty => exact .refl _ _ _
  | @kept c hash events hooks block _ resolved seen =>
      obtain ⟨placed, chain_eq, hash_eq⟩ := PlainStore.headOfHash_view h resolved
      subst chain_eq
      have place : block.chain = chain ∧ block.number = number := by
        refine on ⟨rfl, (PlainStore.has_iff _ h).mpr ⟨shown S block, by simpa using placed, ?_⟩⟩
        simp [HeadQuery.admits, fieldAdmits, hash_eq]
      rw [seen, ← place.1, ← place.2]
      have keep := (view s).sameBeside_keep (shown S block) events
      rwa [PlainStore.shown_chain, PlainStore.shown_number] at keep

end Places

/-! ## Nested stores -/

namespace NestedStore

variable {s t : NestedStore} {chain number : UInt64}

theorem alikeBeside (h : s.Sound) (g : t.Sound) (same : s.view.SameBeside t.view chain number) :
    BlockStore.AlikeBeside s t chain number := by
  have heads (q : HeadQuery) :
      (s.heads q).filter (·.isBeside chain number) = (t.heads q).filter (·.isBeside chain number) := by
    refine eq_of_ordered Head.Precedes.asymm ((heads_lists h q).ordered.filter _)
      ((heads_lists g q).ordered.filter _) ?_
    intro head
    rw [List.mem_filter, List.mem_filter, (heads_lists h q).mem_iff, (heads_lists g q).mem_iff]
    refine and_congr_left fun beside => ?_
    rw [same.heads beside]
  have events (q : EventQuery) :
      (s.events q).filter (·.isBeside chain number) = (t.events q).filter (·.isBeside chain number) := by
    refine eq_of_ordered Event.Precedes.asymm ((events_lists h q).ordered.filter _)
      ((events_lists g q).ordered.filter _) ?_
    intro e
    rw [List.mem_filter, List.mem_filter, (events_lists h q).mem_iff, (events_lists g q).mem_iff]
    refine and_congr_left fun beside => ?_
    rw [(same.events beside).2]
  have all_heads {q : HeadQuery} (avoids : q.Avoids chain number) : s.heads q = t.heads q := by
    have beside {r : NestedStore} (sound : r.Sound) : (r.heads q).filter (·.isBeside chain number) = r.heads q :=
      List.filter_eq_self.mpr fun head mem => avoids.isBeside (((heads_lists sound q).mem_iff head).mp mem).2
    rw [← beside h, ← beside g, heads]
  have all_events {q : EventQuery} (avoids : q.Avoids chain number) : s.events q = t.events q := by
    have beside {r : NestedStore} (sound : r.Sound) : (r.events q).filter (·.isBeside chain number) = r.events q :=
      List.filter_eq_self.mpr fun e mem => avoids.isBeside (((events_lists sound q).mem_iff e).mp mem).2
    rw [← beside h, ← beside g, events]
  constructor
  case height =>
    intro other differs
    have confirmed (n : UInt64) : s.view.isConfirmed other n = t.view.isConfirmed other n := by
      rw [View.isConfirmed, View.isConfirmed, (same other n fun place => differs place.1).1]
    have height := height_isHeight s other
    refine congrArg Except.ok (View.IsHeight.unique (v := t.view) ⟨?_, ?_⟩ (height_isHeight t other))
    · rw [← confirmed]
      exact height.reached
    · intro n
      rw [← confirmed]
      exact height.greatest n
  case heads => exact fun q avoids => congrArg Except.ok (all_heads avoids)
  case countHeads => exact fun q avoids => congrArg (fun answer => Except.ok answer.length) (all_heads avoids)
  case events => exact fun q avoids => congrArg Except.ok (all_events avoids)
  case countEvents => exact fun q avoids => congrArg (fun answer => Except.ok answer.length) (all_events avoids)
  case heads_beside =>
    intro q xs ys hx hy
    cases hx
    cases hy
    exact heads q
  case events_beside =>
    intro q xs ys hx hy
    cases hx
    cases hy
    exact events q

end NestedStore

/-! ## Relational stores -/

namespace RelationalStore

structure SameRows (s t : RelationalStore) (id : Nat) (chain number : UInt64) : Prop where
  blocks : s.blocks.filter (·.id != id) = t.blocks.filter (·.id != id)
  events : s.events.filter (·.blockId != id) = t.events.filter (·.blockId != id)
  place : ∀ {row : BlockRow}, row ∈ s.blocks ∨ row ∈ t.blocks → row.id = id →
    row.chain = chain.toInt64 ∧ row.number = number.toInt64

variable {s t : RelationalStore} {id : Nat} {chain number : UInt64}

theorem filter_eq_of_filter_ne {α : Type} {key : α → Nat} {xs ys : List α} {p : α → Bool}
    (same : xs.filter (key · != id) = ys.filter (key · != id)) (apart : ∀ a, a ∈ xs ∨ a ∈ ys → p a → key a ≠ id) :
    xs.filter p = ys.filter p := by
  have narrowed {zs : List α} (own : ∀ a ∈ zs, p a → key a ≠ id) :
      zs.filter p = (zs.filter (key · != id)).filter p := by
    rw [List.filter_filter]
    refine List.filter_congr fun a mem => ?_
    by_cases fits : p a
    · simp [fits, own a mem fits]
    · simp [fits]
  rw [narrowed fun a mem => apart a (Or.inl mem), narrowed fun a mem => apart a (Or.inr mem), same]

theorem SameRows.blocks_eq (same : SameRows s t id chain number) {p : BlockRow → Bool}
    (apart : ∀ {row : BlockRow}, p row → ¬(row.chain = chain.toInt64 ∧ row.number = number.toInt64)) :
    s.blocks.filter p = t.blocks.filter p :=
  filter_eq_of_filter_ne same.blocks fun _ mem fits own => apart fits (same.place mem own)

theorem not_placed_of_avoids {q : HeadQuery} (avoids : q.Avoids chain number) {row : BlockRow}
    (admitted : row.admittedBy q) : ¬(row.chain = chain.toInt64 ∧ row.number = number.toInt64) := by
  rintro ⟨chain_eq, number_eq⟩
  simp only [BlockRow.admittedBy, fieldAdmits, Bool.and_eq_true] at admitted
  rcases avoids with ⟨c, asked, other⟩ | ⟨n, asked, other⟩
  · have same : c.toInt64 = row.chain := by simpa [show q.chain = some c from asked] using admitted.1.1.1.1
    exact other (UInt64.toInt64_inj.mp (same.trans chain_eq))
  · have same : n.toInt64 = row.number := by simpa [show q.number = some n from asked] using admitted.1.1.1.2
    exact other (UInt64.toInt64_inj.mp (same.trans number_eq))

theorem exists_block_of_avoids {q : EventQuery} (avoids : q.Avoids chain number) :
    ∃ block, q.ofBlock? = some block ∧ block.Avoids chain number := by
  have asked : q.ofBlock? ≠ none := by
    intro nothing
    unfold EventQuery.ofBlock? at nothing
    dsimp only at nothing
    split at nothing
    · rename_i empty
      simp only [HeadQuery.mk.injEq] at empty
      rcases avoids with ⟨c, asked, -⟩ | ⟨n, asked, -⟩
      · rw [empty.1] at asked
        cases asked
      · rw [empty.2.1] at asked
        cases asked
    · cases nothing
  obtain ⟨block, asked⟩ := Option.ne_none_iff_exists'.mp asked
  obtain ⟨chain_eq, number_eq, -⟩ := EventQuery.of_ofBlock? asked
  refine ⟨block, asked, ?_⟩
  rw [HeadQuery.Avoids, chain_eq, number_eq]
  exact avoids

theorem SameRows.selectBlocks (same : SameRows s t id chain number) {q : HeadQuery} (avoids : q.Avoids chain number) :
    s.selectBlocks q = t.selectBlocks q := by
  rw [RelationalStore.selectBlocks, RelationalStore.selectBlocks, same.blocks_eq (not_placed_of_avoids avoids)]

theorem SameRows.eventRows (same : SameRows s t id chain number) {q : EventQuery} {ids : List Nat} (apart : id ∉ ids) :
    s.eventRows q (some ids) = t.eventRows q (some ids) := by
  refine List.flatMap_congr fun piece mem => filter_eq_of_filter_ne same.events fun row _ fits own => ?_
  simp only [Bool.and_eq_true, List.contains_iff_mem] at fits
  refine apart ?_
  rw [← pieces_flatten largestPiece ids]
  exact List.mem_flatten.mpr ⟨piece, mem, own ▸ fits.1⟩

theorem SameRows.blocksById (same : SameRows s t id chain number) {ids : List Nat} (apart : id ∉ ids) :
    s.blocksById ids = t.blocksById ids := by
  refine List.flatMap_congr fun piece mem => filter_eq_of_filter_ne same.blocks fun row _ fits own => ?_
  refine apart ?_
  rw [← pieces_flatten largestPiece ids]
  exact List.mem_flatten.mpr ⟨piece, mem, own ▸ List.contains_iff_mem.mp fits⟩

theorem SameRows.secondPass (same : SameRows s t id chain number) {rows : List EventRow} {known : List (Nat × Head)}
    (apart : ∀ row ∈ rows, row.blockId ≠ id) : s.secondPass rows known = t.secondPass rows known := by
  have missing : id ∉ missingBlocks known rows := by
    intro mem
    obtain ⟨⟨row, own, under⟩, -⟩ := mem_missingBlocks.mp mem
    exact apart row own under
  rw [RelationalStore.secondPass, RelationalStore.secondPass, same.blocksById missing]

theorem SameRows.selectEvents (same : SameRows s t id chain number) {q : EventQuery} (avoids : q.Avoids chain number) :
    s.selectEvents q = t.selectEvents q := by
  obtain ⟨block, asked, avoids⟩ := exists_block_of_avoids avoids
  rw [selectEvents_of_some _ asked, selectEvents_of_some _ asked, ← same.selectBlocks avoids]
  cases read : readBlocks (s.selectBlocks block) with
  | error e => rfl
  | ok known =>
      cases (bare_readBlocks fun _ mem => readable_of_readBlocks read mem).1.symm.trans read
      have apart : id ∉ (atHand (s.selectBlocks block)).map (·.1) := by
        intro mem
        simp only [atHand, List.map_map, List.mem_map, Function.comp_apply] at mem
        obtain ⟨row, selected, own⟩ := mem
        obtain ⟨stored, admitted⟩ := List.mem_filter.mp (List.mem_mergeSort.mp selected)
        exact not_placed_of_avoids avoids admitted (same.place (Or.inl stored) own)
      simp only [Except.bind, same.eventRows apart]
      refine same.secondPass fun row mem own => ?_
      obtain ⟨piece, cut, mem⟩ := List.mem_flatMap.mp mem
      have fits := (List.mem_filter.mp mem).2
      simp only [Bool.and_eq_true, List.contains_iff_mem] at fits
      rw [← pieces_flatten largestPiece ((atHand (s.selectBlocks block)).map (·.1))] at apart
      exact apart (List.mem_flatten.mpr ⟨piece, cut, own ▸ fits.1⟩)

theorem any_eq_of_filter {α : Type} {p : α → Bool} {xs ys : List α} (same : xs.filter p = ys.filter p) :
    xs.any p = ys.any p := by
  have narrowed (zs : List α) : zs.any p = (zs.filter p).any p := by
    rw [List.any_filter]
    simp only [Bool.and_self]
  rw [narrowed xs, narrowed ys, same]

theorem SameRows.countEvents (same : SameRows s t id chain number) {q : EventQuery} (avoids : q.Avoids chain number) :
    s.countEvents q = t.countEvents q := by
  obtain ⟨block, asked, avoids⟩ := exists_block_of_avoids avoids
  have owners (e : EventRow) : (s.blocks.any fun row => row.id == e.blockId && row.admittedBy block) =
      t.blocks.any fun row => row.id == e.blockId && row.admittedBy block := by
    refine any_eq_of_filter (same.blocks_eq ?_)
    exact fun fits => not_placed_of_avoids avoids (Bool.and_eq_true_iff.mp fits).2
  simp only [RelationalStore.countEvents, asked, Option.all_some, owners]
  refine congrArg List.length (filter_eq_of_filter_ne same.events fun e _ fits own => ?_)
  obtain ⟨row, stored, fits⟩ := List.any_eq_true.mp (Bool.and_eq_true_iff.mp fits).2
  simp only [Bool.and_eq_true, beq_iff_eq] at fits
  exact not_placed_of_avoids avoids fits.2 (same.place (Or.inr stored) (fits.1.trans own))

theorem SameRows.height (same : SameRows s t id chain number) {other : UInt64} (differs : other ≠ chain) :
    s.height other = t.height other := by
  have rows := same.blocks_eq (p := fun row => row.chain == other.toInt64 && row.state == BlockState.confirmed.code)
    fun {row} fits place => by
      simp only [Bool.and_eq_true, beq_iff_eq] at fits
      exact differs (UInt64.toInt64_inj.mp (fits.1.symm.trans place.1))
  rw [RelationalStore.height, RelationalStore.height, rows]

theorem SameRows.mem_iff (same : SameRows s t id chain number) {row : BlockRow} {head : Head}
    (read : row.head = .ok head) (beside : head.isBeside chain number) : row ∈ s.blocks ↔ row ∈ t.blocks := by
  have apart : (row.chain == chain.toInt64 && row.number == number.toInt64) = false := by
    obtain ⟨chain_eq, number_eq, -⟩ := BlockRow.of_head read
    rw [Bool.eq_false_iff]
    intro place
    simp only [Bool.and_eq_true, beq_iff_eq, chain_eq, number_eq, UInt64.toInt64_inj] at place
    simp [Head.isBeside, place.1, place.2] at beside
  have rows := same.blocks_eq (p := fun row => !(row.chain == chain.toInt64 && row.number == number.toInt64))
    fun fits place => by simp [place.1, place.2] at fits
  constructor
  · intro mem
    exact List.mem_of_mem_filter (rows ▸ List.mem_filter.mpr ⟨mem, by simp only [apart, Bool.not_false]⟩)
  · intro mem
    exact List.mem_of_mem_filter (rows ▸ List.mem_filter.mpr ⟨mem, by simp only [apart, Bool.not_false]⟩)

theorem heads_spec (h : s.Intact) {q : HeadQuery} {answer : List Head} (ok : s.heads q = .ok answer) :
    answer.Pairwise Head.PrecedesSigned ∧
      ∀ head, head ∈ answer ↔ ∃ row ∈ s.blocks, row.admittedBy q ∧ row.head = .ok head := by
  have read : ∀ row ∈ s.selectBlocks q, row.IsReadable := fun row mem => by
    obtain ⟨head, read⟩ := exists_of_mapM_ok ok row mem
    exact BlockRow.isReadable_of_head read
  have listed : answer = (s.selectBlocks q).map (·.kept) :=
    Except.ok.inj (ok.symm.trans (mapM_ok_of_forall read))
  constructor
  · have ordered := heads_ordered h.sound q
    rw [bare_selectBlocks, List.map_map, List.pairwise_map] at ordered
    rw [listed, List.pairwise_map]
    refine ordered.imp_of_mem fun {a b} ha hb precedes => ?_
    simp only [Function.comp_apply, BlockRow.kept_bare (read a ha), BlockRow.kept_bare (read b hb)] at precedes
    exact precedes
  · intro head
    rw [listed, List.mem_map]
    constructor
    · rintro ⟨row, mem, rfl⟩
      obtain ⟨stored, admitted⟩ := List.mem_filter.mp (List.mem_mergeSort.mp mem)
      exact ⟨row, stored, admitted, read row mem⟩
    · rintro ⟨row, stored, admitted, own⟩
      exact ⟨row, List.mem_mergeSort.mpr (List.mem_filter.mpr ⟨stored, admitted⟩), BlockRow.kept_of_head own⟩

theorem alikeBeside (h : s.Intact) (g : t.Intact) (rows : SameRows s t id chain number)
    (same : s.bare.view.SameBeside t.bare.view chain number) : BlockStore.AlikeBeside s t chain number where
  height _ differs := congrArg Except.ok (rows.height differs)
  heads q avoids := by
    change (s.selectBlocks q).mapM BlockRow.head = (t.selectBlocks q).mapM BlockRow.head
    rw [rows.selectBlocks avoids]
  countHeads q avoids := by
    refine congrArg (fun rows : List BlockRow => Except.ok rows.length) (rows.blocks_eq ?_)
    exact fun admitted => not_placed_of_avoids avoids admitted
  events _ avoids := rows.selectEvents avoids
  countEvents _ avoids := congrArg Except.ok (rows.countEvents avoids)
  heads_beside q xs ys hx hy := by
    obtain ⟨ordered_x, mem_x⟩ := heads_spec h hx
    obtain ⟨ordered_y, mem_y⟩ := heads_spec g hy
    refine eq_of_ordered Head.PrecedesSigned.asymm (ordered_x.filter _) (ordered_y.filter _) fun head => ?_
    rw [List.mem_filter, List.mem_filter, mem_x, mem_y]
    refine and_congr_left fun beside => exists_congr fun row => ?_
    constructor
    · rintro ⟨mem, admitted, read⟩
      exact ⟨(rows.mem_iff read beside).mp mem, admitted, read⟩
    · rintro ⟨mem, admitted, read⟩
      exact ⟨(rows.mem_iff read beside).mpr mem, admitted, read⟩
  events_beside q xs ys hx hy := by
    have answer {r : RelationalStore} {zs : List Event} (intact : r.Intact) (ok : r.selectEvents q = .ok zs) :
        zs = (r.bare.found q).mergeSort Event.before := by
      rw [← bare_selectEvents intact (readsBlocks_of_selectEvents ok), selectEvents_ok intact.sound] at ok
      exact (Except.ok.inj ok).symm
    rw [answer h hx, answer g hy]
    refine eq_of_ordered Event.Precedes.asymm ((found_ordered h.sound q).filter _)
      ((found_ordered g.sound q).filter _) fun e => ?_
    rw [List.mem_filter, List.mem_filter, List.mem_mergeSort, List.mem_mergeSort, mem_found_iff h.sound,
      mem_found_iff g.sound]
    refine and_congr_left fun beside => ?_
    rw [(same.events beside).1, (same.events beside).2]

/-! ### Rows that a write leaves alone -/

variable {head : Head} {row : BlockRow} {hash : String}

theorem sameRows_of_insertBlock? (h : s.Keyed) (written : s.insertBlock? head = some (row, t)) :
    SameRows s t row.id head.chain head.number := by
  unfold insertBlock? at written
  split at written
  · cases written
  · cases written
    have old : ∀ r ∈ s.blocks, (r.id != s.nextId) = true := fun r mem => bne_iff_ne.mpr (Nat.ne_of_lt (h.fresh mem))
    refine ⟨?_, rfl, ?_⟩
    · simp [BlockRow.ofHead]
    · rintro r (mem | mem) own
      · exact (bne_iff_ne.mp (old r mem) own).elim
      · rcases List.mem_append.mp mem with mem | mem
        · exact (bne_iff_ne.mp (old r mem) own).elim
        · rw [List.mem_singleton.mp mem]
          exact ⟨rfl, rfl⟩

theorem filter_ne_overwritten (blocks : List BlockRow) {new : BlockRow} (own : new.id = id) :
    (blocks.map fun r => if r.id = id then new else r).filter (·.id != id) = blocks.filter (·.id != id) := by
  induction blocks with
  | nil => rfl
  | cons r blocks ih =>
      by_cases same : r.id = id
      · simpa [same, own] using ih
      · simpa [same] using ih

theorem sameRows_of_upsertBlock? (h : s.Keyed)
    (written : (s.deleteReplacedEvents head).upsertBlock? head = some (row, t)) :
    SameRows s t row.id head.chain head.number := by
  unfold upsertBlock? at written
  have rows : (s.deleteReplacedEvents head).rowOfNumber? head.chain head.number =
      s.rowOfNumber? head.chain head.number := by
    rw [rowOfNumber?, rowOfNumber?, (s.deleteReplacedEvents_blocks head).1]
  rw [rows] at written
  cases found : s.rowOfNumber? head.chain head.number with
  | none =>
      rw [found, deleteReplacedEvents_of_none found] at written
      exact sameRows_of_insertBlock? h written
  | some old =>
      rw [found] at written
      dsimp only at written
      split at written
      · cases written
      · cases written
        have mem := List.mem_of_find?_eq_some found
        have fits := List.find?_some found
        simp only [Bool.and_eq_true, beq_iff_eq] at fits
        refine ⟨?_, ?_, ?_⟩
        · rw [(s.deleteReplacedEvents_blocks head).1]
          have own : (overwrite old head).id = old.id := rfl
          exact (filter_ne_overwritten s.blocks own).symm
        · change _ = (s.deleteReplacedEvents head).events.filter (·.blockId != old.id)
          unfold deleteReplacedEvents
          rw [found]
          dsimp only
          split
          · rfl
          · rw [List.filter_filter]
            simp only [Bool.and_self]
            rfl
        · rintro r (stored | stored) own
          · rw [eq_of_pairwise_ne h.ids stored mem own]
            exact fits
          · rw [(s.deleteReplacedEvents_blocks head).1] at stored
            obtain ⟨r', -, rfl⟩ := List.mem_map.mp stored
            by_cases same : r'.id = old.id
            · rw [if_pos same]
              exact ⟨rfl, rfl⟩
            · rw [if_neg same] at own
              exact (same own).elim

theorem sameRows_of_insertEvents (h : s.Keyed) (found : s.rowOfHash? chain hash = some row) (events : List Event) :
    SameRows s (events.foldl (insertEvent chain hash) s) row.id chain row.number.toUInt64 := by
  have blocks := (s.insertEvents_blocks chain hash events).1
  refine ⟨by rw [blocks], ?_, ?_⟩
  · clear blocks
    induction events generalizing s with
    | nil => rfl
    | cons e events ih =>
        have still : (insertEvent chain hash s e).rowOfHash? chain hash = some row := by
          rw [rowOfHash?_congr (insertEvent_blocks s chain hash e), found]
        have one : s.events.filter (·.blockId != row.id) =
            (insertEvent chain hash s e).events.filter (·.blockId != row.id) := by
          rw [insertEvent_of_row found]
          split
          · rfl
          · simp [EventRow.ofEvent]
        have keyed : (insertEvent chain hash s e).Keyed := by
          obtain ⟨blocks, nextId⟩ := s.insertEvents_blocks chain hash [e]
          rw [List.foldl_cons, List.foldl_nil] at blocks nextId
          exact ⟨blocks ▸ h.ids, fun mem => nextId ▸ h.fresh (blocks ▸ mem)⟩
        exact one.trans (ih keyed still)
  · intro r stored own
    rw [blocks, or_self] at stored
    rw [eq_of_pairwise_ne h.ids stored (List.mem_of_find?_eq_some found) own]
    have fits := List.find?_some found
    simp only [Bool.and_eq_true, beq_iff_eq] at fits
    exact ⟨fits.1, by simp⟩

variable {σ : Type}

/-- A write leaves the rows of all other numbers alone. -/
theorem rows_of_run (h : s.Intact) (w : Write σ) (state : σ)
    (on : ∀ {c n}, w.IsOn s c n → c = chain ∧ n = number) :
    (w.run s state).store = s ∨ ∃ id, SameRows s (w.run s state).store id chain number := by
  cases w with
  | createHead head hooks =>
      obtain ⟨rfl, rfl⟩ := on ⟨rfl, rfl⟩
      change (s.createHead head hooks state).store = s ∨ ∃ id, SameRows s (s.createHead head hooks state).store id _ _
      unfold createHead
      split
      · exact Or.inl rfl
      · rename_i row t written
        split
        · exact Or.inr ⟨_, sameRows_of_insertBlock? h.keyed written⟩
        · exact Or.inl rfl
  | upsertHead head hooks =>
      obtain ⟨rfl, rfl⟩ := on ⟨rfl, rfl⟩
      change (s.upsertHead head hooks state).store = s ∨ ∃ id, SameRows s (s.upsertHead head hooks state).store id _ _
      unfold upsertHead
      split
      · exact Or.inl rfl
      · rename_i row t written
        split
        · exact Or.inl rfl
        · split
          · exact Or.inr ⟨_, sameRows_of_upsertBlock? h.keyed written⟩
          · exact Or.inl rfl
  | saveLogs c hash events hooks =>
      change (s.saveLogs c hash events hooks state).store = s ∨
        ∃ id, SameRows s (s.saveLogs c hash events hooks state).store id chain number
      have rows := rowOfHash?_congr (s.insertEvents_blocks c hash events).1
      unfold saveLogs
      dsimp only
      rw [rows]
      split
      · exact Or.inl rfl
      · split
        · exact Or.inl rfl
        · rename_i row found
          split
          · exact Or.inl rfl
          · split
            · have fits := List.find?_some found
              simp only [Bool.and_eq_true, beq_iff_eq] at fits
              obtain ⟨rfl, rfl⟩ := on (c := c) (n := row.number.toUInt64) ⟨rfl, (has_iff s _).mpr
                ⟨row, List.mem_of_find?_eq_some found, by simp [BlockRow.admittedBy, fieldAdmits, fits.1, fits.2]⟩⟩
              exact Or.inr ⟨_, sameRows_of_insertEvents h.keyed found events⟩
            · exact Or.inl rfl

theorem run_alikeBeside (h : s.Intact) (w : Write σ) (state : σ)
    (on : ∀ {c n}, w.IsOn s c n → c = chain ∧ n = number) :
    BlockStore.AlikeBeside s (w.run s state).store chain number := by
  have intact : (w.run s state).store.Intact := (PlainStore.run_becomes (S := RelationalStore) h w state).1
  rcases rows_of_run h w state on with same | ⟨id, rows⟩
  · rw [same]
    exact .refl _ _ _
  · exact alikeBeside h intact rows (w.sameBeside h state on)

end RelationalStore

/-! ## A head in the place of another -/

namespace BlockStore

variable {S : Type} [BlockStore S]

/-- No event of a block is kept, and none is answered to any query. -/
structure HasNoEvents (s : S) (chain : UInt64) (hash : String) : Prop where
  counted : countEvents s { chain := some chain, blockHash := some hash } = .ok 0
  unseen : ∀ {q : EventQuery} {answer : List Event}, events s q = .ok answer →
    ∀ e ∈ answer, ¬(e.chain = chain ∧ e.blockHash = hash)

/-- Nothing is left of a hash whose head was replaced at a number by another. -/
structure Forgets (s : S) (chain number : UInt64) (old new : String) : Prop where
  unresolved : headOfHash? s chain old = .ok none
  gone : HasNoEvents s chain old
  /-- The new block starts with no events. -/
  fresh : HasNoEvents s chain new
  fresh_number : events s { chain := some chain, blockNumber := some number } = .ok []
  /-- The hash may be stored again under a free number. -/
  storable : ∀ {σ : Type} {head : Head} {hooks : List (Hook σ Head)} {state : σ}, head.chain = chain →
    head.hash = old → ¬Holds s chain head.number → (runHooks hooks head state).1 = .ok () →
    (createHead s head hooks state).outcome = .ok head
  /-- Whatever is written until the hash comes back, it comes back without events. -/
  unrevived : ∀ {σ τ : Type} (later : List (Write σ)) (state : σ) (w : Write τ) (start : τ) {head : Head}
    {stored : Stored}, w.head? = some head → head.chain = chain → head.hash = old →
    isStored (runWrites later s state).store chain old = false →
    (w.run (runWrites later s state).store start).outcome = .ok stored →
    HasNoEvents (w.run (runWrites later s state).store start).store chain old

end BlockStore

section Replaced

variable {S : Type} [BlockStore S] [PlainStore S] {s t : S} {chain number : UInt64} {hash : String}

open PlainStore (Sound view shown view_sound)

theorem hasNoEvents_of_view (h : Sound s)
    (none : ∀ n, (view s).holds chain n hash → (view s).eventsAt chain n = []) :
    BlockStore.HasNoEvents s chain hash := by
  have absent : ∀ e, e ∈ (view s).eventsAt e.chain e.blockNumber → ¬(e.chain = chain ∧ e.blockHash = hash) := by
    rintro e mem ⟨rfl, rfl⟩
    obtain ⟨head, found, merged⟩ := PlainStore.events_merged h mem
    have own : head.hash = e.blockHash := congrArg Event.blockHash merged
    rw [none e.blockNumber (View.holds_iff.mpr ⟨head, found, own⟩)] at mem
    cases mem
  constructor
  · refine PlainStore.countEvents_zero h (EventQuery.isCollated_of_plain (by simp) (by simp)) ?_
    intro e mem admits
    simp only [EventQuery.admits, fieldAdmits, Option.all_some, Bool.and_eq_true, beq_iff_eq] at admits
    exact absent e mem ⟨admits.1.1.1.1.symm, admits.1.1.2.symm⟩
  · intro q answer ok e mem
    exact absent e (PlainStore.events_stored h ok e mem)

theorem hasNoEvents_of_placed (g : Sound t) {stored : Head}
    (seen : view t = (view s).put (shown S stored))
    (new : ¬(view s).holds stored.chain stored.number stored.hash) :
    (view t).eventsAt stored.chain stored.number = [] ∧ BlockStore.HasNoEvents t stored.chain stored.hash := by
  have empty : (view t).eventsAt stored.chain stored.number = [] := by
    simp [seen, View.put, new]
  refine ⟨empty, hasNoEvents_of_view g fun n held => ?_⟩
  have own : (view t).holds stored.chain stored.number stored.hash := by
    simp [seen, View.holds, View.put]
  rw [(view_sound g).hash_unique held own, empty]

/-- A hash that was not stored is stored without events. -/
theorem hasNoEvents_of_new {σ : Type} (h : Sound s) (w : Write σ) (state : σ) {head : Head} {stored : Stored}
    (of_head : w.head? = some head) (chain_eq : head.chain = chain) (hash_eq : head.hash = hash)
    (new : isStored s chain hash = false) (ok : (w.run s state).outcome = .ok stored) :
    BlockStore.HasNoEvents (w.run s state).store chain hash := by
  obtain ⟨g, became⟩ := PlainStore.run_becomes h w state
  rw [ok] at became
  generalize (w.run s state).store = t at g became ⊢
  have unheld (n : UInt64) : ¬(view s).holds chain n hash := by
    rw [Bool.eq_false_iff, Ne, isStored_iff h] at new
    exact fun held => new ⟨n, held⟩
  cases became with
  | @placed _ placed_head stored _ of_placed stored_chain stored_number stored_hash free seen =>
      cases of_head.symm.trans of_placed
      rw [← chain_eq, ← hash_eq, ← stored_chain, ← stored_hash] at unheld ⊢
      exact (hasNoEvents_of_placed g seen (unheld _)).2
  | empty => cases of_head
  | kept => cases of_head

theorem holds_of_has (h : Sound s)
    (held : BlockStore.Has s { chain := some chain, number := some number, hash := some hash }) :
    (view s).holds chain number hash := by
  obtain ⟨placed, found, admits⟩ := (PlainStore.has_iff _ h).mp held
  simp only [HeadQuery.admits, fieldAdmits, Option.all_some, Option.all_none, Bool.and_true, Bool.and_eq_true,
    beq_iff_eq] at admits
  obtain ⟨⟨rfl, rfl⟩, same⟩ := admits
  exact View.holds_iff.mpr ⟨placed, found, same.symm⟩

theorem not_holds_put {v : View} (sound : v.Sound) (head : Head) {old : String} (other : old ≠ head.hash)
    (held : v.holds head.chain head.number old) (n : UInt64) : ¬(v.put head).holds head.chain n old := by
  intro there
  simp only [View.holds, View.put] at there
  by_cases place : n = head.number
  · rw [if_pos ⟨trivial, place⟩] at there
    have own : head.hash = old := by simpa using there
    exact other own.symm
  · rw [if_neg fun both => place both.2] at there
    exact place (sound.hash_unique there held)

theorem events_number_nil (g : Sound t) {stored : Head}
    (resolved : BlockStore.headOfHash? t stored.chain stored.hash = .ok (some stored))
    (empty : (view t).eventsAt stored.chain stored.number = []) :
    BlockStore.events t { chain := some stored.chain, blockNumber := some stored.number } = .ok [] := by
  have of : EventQuery.IsOf { chain := some stored.chain, blockNumber := some stored.number } stored :=
    ⟨rfl, Or.inl rfl⟩
  obtain ⟨answer, answered, lists⟩ := PlainStore.events_block g resolved of
    (EventQuery.isCollated_of_plain (by simp) (by simp))
  have nothing : answer = [] := List.eq_nil_iff_forall_not_mem.mpr fun e mem => by
    obtain ⟨kept, admits⟩ := (lists.mem_iff e).mp mem
    simp only [EventQuery.admits, fieldAdmits, Option.all_some, Bool.and_eq_true, beq_iff_eq] at admits
    rw [← admits.1.1.1.1, ← admits.1.1.1.2, empty] at kept
    cases kept
  rw [answered, nothing]

theorem createHead_of_free {σ : Type} (g : Sound t) {head : Head} (hooks : List (Hook σ Head)) (state : σ)
    (unheld : ¬BlockStore.Holds t head.chain head.number)
    (free : ∀ n, ¬(view t).holds head.chain n head.hash) (passed : (runHooks hooks head state).1 = .ok ()) :
    (BlockStore.createHead t head hooks state).outcome = .ok head := by
  have untaken : ¬(view t).Taken head := by
    rintro (number | ⟨n, there⟩)
    · obtain ⟨placed, found⟩ := Option.isSome_iff_exists.mp number
      refine unheld ((PlainStore.has_iff _ g).mpr ⟨placed, ?_, ?_⟩)
      · rwa [(view_sound g).chain_eq found, (view_sound g).number_eq found]
      · simp [HeadQuery.admits, fieldAdmits, (view_sound g).chain_eq found, (view_sound g).number_eq found]
    · exact free n there
  rw [(PlainStore.createHead_free hooks state g untaken).outcome, passed]
  rfl

/-- A head that replaces one of another hash leaves nothing of that hash. -/
theorem forgets_of_upsert {σ : Type} (h : Sound s) {head stored : Head} {hooks : List (Hook σ Head)} {state : σ}
    {old : String} (held : BlockStore.Has s { chain := some head.chain, number := some head.number, hash := some old })
    (other : old ≠ head.hash) (ok : (BlockStore.upsertHead s head hooks state).outcome = .ok stored) :
    BlockStore.Forgets (BlockStore.upsertHead s head hooks state).store head.chain head.number old head.hash := by
  have resolved := PlainStore.upsertHead_read h ok
  obtain ⟨g, became⟩ := PlainStore.run_becomes h (.upsertHead head hooks) state
  have outcome : ((Write.upsertHead head hooks).run s state).outcome = .ok (.head stored) :=
    congrArg (Except.map Stored.head) ok
  rw [outcome] at became
  change Sound (BlockStore.upsertHead s head hooks state).store at g
  change PlainStore.Becomes s _ _ (BlockStore.upsertHead s head hooks state).store at became
  generalize (BlockStore.upsertHead s head hooks state).store = t at g became resolved ⊢
  have held := holds_of_has h held
  cases became with
  | @placed _ _ _ _ of_head chain_eq number_eq hash_eq free seen =>
  cases of_head
  rw [← chain_eq, ← number_eq] at held ⊢
  rw [← hash_eq] at other ⊢
  have new : ¬(view s).holds stored.chain stored.number stored.hash := by
    intro held_new
    obtain ⟨a, found, own⟩ := View.holds_iff.mp held
    obtain ⟨b, found', own'⟩ := View.holds_iff.mp held_new
    cases found.symm.trans found'
    exact other (own.symm.trans own')
  have free_old (n : UInt64) : ¬(view t).holds stored.chain n old := by
    rw [← PlainStore.shown_chain (S := S)] at held ⊢
    rw [← PlainStore.shown_number (S := S)] at held
    rw [← PlainStore.shown_hash (S := S)] at other
    rw [seen]
    exact not_holds_put (view_sound h) (shown S stored) other held n
  obtain ⟨empty, none⟩ := hasNoEvents_of_placed g seen new
  constructor
  case unresolved => exact PlainStore.headOfHash_none g free_old
  case gone => exact hasNoEvents_of_view g fun n there => (free_old n there).elim
  case fresh => exact none
  case fresh_number => exact events_number_nil g resolved empty
  case storable =>
    intro σ again hooks state chain_eq hash_eq unheld passed
    exact createHead_of_free g hooks state (chain_eq.symm ▸ unheld) (by rwa [chain_eq, hash_eq]) passed
  case unrevived =>
    intro σ τ later state w start again outcome of_head chain_eq hash_eq unstored brought
    exact hasNoEvents_of_new (PlainStore.runWrites_sound g later state) w start of_head chain_eq hash_eq unstored
      brought

end Replaced

/-! ## Both stores -/

/-- Each write touches only the block that it is on, and a head that replaces one of another hash leaves
nothing of it. -/
structure TouchesOneBlock {S : Type} [BlockStore S] (s : S) : Prop where
  frame : ∀ {σ : Type} (w : Write σ) (state : σ) {chain number : UInt64},
    (∀ {c n}, w.IsOn s c n → c = chain ∧ n = number) → BlockStore.AlikeBeside s (w.run s state).store chain number
  replaced : ∀ {σ : Type} {head stored : Head} {hooks : List (Hook σ Head)} {state : σ} {old : String},
    BlockStore.Has s { chain := some head.chain, number := some head.number, hash := some old } → old ≠ head.hash →
    (BlockStore.upsertHead s head hooks state).outcome = .ok stored →
    BlockStore.Forgets (BlockStore.upsertHead s head hooks state).store head.chain head.number old head.hash

/-- After any writes to an empty nested or relational store, successful or not, further writes touch one
block each, and a replaced block leaves nothing behind. -/
theorem writes_touch_one_block {σ : Type} (writes : List (Write σ)) (start : σ) :
    TouchesOneBlock (runWrites writes NestedStore.empty start).store ∧
      TouchesOneBlock (runWrites writes RelationalStore.empty start).store := by
  constructor
  · have sound : PlainStore.Sound (runWrites writes NestedStore.empty start).store :=
      PlainStore.runWrites_sound (S := NestedStore) NestedStore.sound_empty writes start
    refine ⟨fun w state _ _ on => ?_, fun held other ok => forgets_of_upsert sound held other ok⟩
    exact NestedStore.alikeBeside sound (PlainStore.run_becomes sound w state).1 (w.sameBeside sound state on)
  · have sound : PlainStore.Sound (runWrites writes RelationalStore.empty start).store :=
      PlainStore.runWrites_sound (S := RelationalStore) RelationalStore.intact_empty writes start
    exact ⟨fun w state _ _ on => RelationalStore.run_alikeBeside sound w state on,
      fun held other ok => forgets_of_upsert sound held other ok⟩

def returningHash : List (Write Unit) :=
  let head (number : UInt64) (hash : String) : Head := { (default : Head) with chain := 1, number, hash }
  [.createHead (head 5 "0xa") [], .saveLogs 1 "0xa" [default] [], .upsertHead (head 5 "0xb") [],
    .createHead (head 7 "0xa") []]

example : (List.range 5).map (fun count => BlockStore.countEvents
      (runWrites (returningHash.take count) RelationalStore.empty ()).store
        { chain := some 1, blockHash := some "0xa" }) =
    [.ok 0, .ok 0, .ok 1, .ok 0, .ok 0] := by
  decide +kernel

end Chainwatch
