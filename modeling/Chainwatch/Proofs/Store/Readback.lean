import Chainwatch.Proofs.Store.Frame

/-!
# Heads read back

A relational store that accepts a head has a row of it, and the row stays until another head replaces it.
Queries for its number and its hash are answered with what the row reads as: the head, or an error if its
bloom does not have its full length. Only an upsert reads the row at once; a create does not.
-/

namespace Chainwatch

variable {σ : Type}

/-- The write replaces the head of this number. -/
def Write.Replaces (w : Write σ) (chain number : UInt64) : Prop :=
  ∃ head hooks, w = .upsertHead head hooks ∧ head.chain = chain ∧ head.number = number

/-- Whenever a relational store has taken a head with this bloom, this is its answer for the number and
for the hash of the head, until another head replaces it. -/
def Bloom.Answered (b : Bloom) (answer : Head → Except TrackError (Option Head)) : Prop :=
  ∀ (σ : Type) (state : σ) (earlier later : List (Write σ)) (w : Write σ) (head stored : Head),
    let before := runWrites earlier RelationalStore.empty state
    let written := w.run before.store before.state
    let after := (runWrites later written.store written.state).store
    w.head? = some head → head.bloom = b → written.outcome = .ok (.head stored) →
      (∀ v ∈ later, ¬v.Replaces stored.chain stored.number) →
        stored.bloom = b ∧ BlockStore.head? after stored.chain stored.number = answer stored ∧
          BlockStore.headOfHash? after stored.chain stored.hash = answer stored

namespace RelationalStore

variable {s t : RelationalStore} {head stored : Head} {row : BlockRow}

/-! ## The row of a head -/

/-- The tables hold a row of the head, readable or not. -/
def HasRowOf (s : RelationalStore) (head : Head) : Prop :=
  ∃ id, BlockRow.ofHead id head ∈ s.blocks

theorem upsertBlock?_bloom (written : s.upsertBlock? head = some (row, t)) : row.bloom = head.bloom.bytes := by
  unfold upsertBlock? at written
  split at written
  · unfold insertBlock? at written
    split at written <;> cases written
    rfl
  · split at written <;> cases written
    rfl

theorem bloom_of_head (read : row.head = .ok stored) : stored.bloom.bytes = row.bloom := by
  have made := (BlockRow.isReadable_of_head read).eq_ofHead.1
  rw [BlockRow.kept_of_head read] at made
  exact (congrArg BlockRow.bloom made).symm

theorem createHead_row {hooks : List (Hook σ Head)} {state : σ}
    (ok : (s.createHead head hooks state).outcome = .ok stored) :
    stored = head ∧ (s.createHead head hooks state).store.HasRowOf stored := by
  unfold createHead at ok ⊢
  split at ok
  · cases ok
  · rename_i row t written
    split at ok
    · rename_i passed
      cases ok
      refine ⟨rfl, s.nextId, ?_⟩
      unfold insertBlock? at written
      split at written <;> cases written
      exact List.mem_append_right _ List.mem_cons_self
    · cases ok

theorem upsertHead_row (h : s.Intact) {hooks : List (Hook σ Head)} {state : σ}
    (ok : (s.upsertHead head hooks state).outcome = .ok stored) :
    stored.bloom = head.bloom ∧ (s.upsertHead head hooks state).store.HasRowOf stored := by
  unfold upsertHead at ok ⊢
  split at ok
  · cases ok
  · rename_i row t written
    split at ok
    · cases ok
    · rename_i read
      split at ok
      · rename_i passed
        cases ok
        have made := (BlockRow.isReadable_of_head read).eq_ofHead.1
        rw [BlockRow.kept_of_head read] at made
        refine ⟨?_, row.id, made ▸ (writes_of_upsert h.keyed written).mem⟩
        exact congrArg Bloom.mk ((bloom_of_head read).trans (upsertBlock?_bloom written))
      · cases ok

theorem run_row (h : s.Intact) {w : Write σ} {state : σ} (of : w.head? = some head)
    (ok : (w.run s state).outcome = .ok (.head stored)) :
    stored.bloom = head.bloom ∧ (w.run s state).store.HasRowOf stored := by
  have took {outcome : Except TrackError Head} (ok : outcome.map Stored.head = .ok (.head stored)) :
      outcome = .ok stored := by
    cases outcome <;> cases ok
    rfl
  cases w with
  | createHead head hooks =>
      cases of
      obtain ⟨rfl, row⟩ := createHead_row (took ok)
      exact ⟨rfl, row⟩
  | upsertHead head hooks =>
      cases of
      exact upsertHead_row h (took ok)
  | saveLogs => cases of

/-! ## The row stays -/

theorem createHead_keeps (s : RelationalStore) (head : Head) (hooks : List (Hook σ Head)) (state : σ) :
    s.blocks ⊆ (s.createHead head hooks state).store.blocks := by
  unfold createHead
  split
  · exact List.Subset.refl _
  · rename_i row t written
    split
    · unfold insertBlock? at written
      split at written <;> cases written
      exact List.subset_append_left ..
    · exact List.Subset.refl _

theorem saveLogs_keeps (chain : UInt64) (hash : String) (events : List Event) (hooks : List (Hook σ (List Event)))
    (state : σ) : (s.saveLogs chain hash events hooks state).store.blocks = s.blocks := by
  unfold saveLogs
  split
  · rfl
  · dsimp only
    split
    · rfl
    · split
      · rfl
      · split
        · exact (s.insertEvents_blocks chain hash events).1
        · rfl

theorem upsertHead_keeps (h : s.Keyed) (hooks : List (Hook σ Head)) (state : σ) (row : BlockRow) (mem : row ∈ s.blocks)
    (beside : ¬(row.chain = head.chain.toInt64 ∧ row.number = head.number.toInt64)) :
    row ∈ (s.upsertHead head hooks state).store.blocks := by
  unfold upsertHead
  split
  · exact mem
  · rename_i new t written
    split
    · exact mem
    · split
      · have writes := writes_of_upsert h written
        refine (writes.kept mem).resolve_right fun place => beside ⟨?_, ?_⟩
        · rw [place.1, writes.chain]
        · rw [place.2.1, writes.number]
      · exact mem

/-- A write that does not replace a head keeps its row. -/
theorem HasRowOf.run (has : s.HasRowOf stored) (h : s.Intact) {w : Write σ}
    (spares : ¬w.Replaces stored.chain stored.number) (state : σ) : (w.run s state).store.HasRowOf stored := by
  obtain ⟨id, mem⟩ := has
  refine ⟨id, ?_⟩
  cases w with
  | createHead head hooks => exact s.createHead_keeps head hooks state mem
  | upsertHead head hooks =>
      refine upsertHead_keeps h.keyed hooks state _ mem ?_
      rintro ⟨chain, number⟩
      exact spares ⟨head, hooks, rfl, (UInt64.toInt64_inj.mp chain).symm, (UInt64.toInt64_inj.mp number).symm⟩
  | saveLogs chain hash events hooks =>
      have same := s.saveLogs_keeps chain hash events hooks state
      exact same.symm ▸ mem

theorem HasRowOf.runWrites (has : s.HasRowOf stored) (h : s.Intact) {writes : List (Write σ)}
    (spare : ∀ w ∈ writes, ¬w.Replaces stored.chain stored.number) (state : σ) :
    (Chainwatch.runWrites writes s state).store.Intact ∧
      (Chainwatch.runWrites writes s state).store.HasRowOf stored := by
  refine runWrites_invariant (I := fun (s : RelationalStore) => s.Intact ∧ s.HasRowOf stored) writes ?_ ⟨h, has⟩ state
  rintro w mem s state ⟨intact, has⟩
  exact ⟨(PlainStore.run_becomes (S := RelationalStore) intact w state).1, has.run intact (spare w mem) state⟩

/-! ## Answers -/

theorem admittedBy_place (row : BlockRow) (chain number : UInt64) :
    row.admittedBy { chain := some chain, number := some number } ↔
      row.chain = chain.toInt64 ∧ row.number = number.toInt64 := by
  simp [BlockRow.admittedBy, fieldAdmits, eq_comm (a := chain.toInt64), eq_comm (a := number.toInt64)]

theorem admittedBy_hash (row : BlockRow) (chain : UInt64) (hash : String) :
    row.admittedBy { chain := some chain, hash := some hash } ↔ row.chain = chain.toInt64 ∧ row.hash = hash := by
  simp [BlockRow.admittedBy, fieldAdmits, eq_comm (a := chain.toInt64), eq_comm (a := hash)]

theorem heads_of_unique (h : s.Intact) {q : HeadQuery} (mem : row ∈ s.blocks) (admitted : row.admittedBy q)
    (unique : ∀ a ∈ s.blocks, ∀ b ∈ s.blocks, a.admittedBy q → b.admittedBy q → a.id = b.id) :
    (BlockStore.heads s q).map List.head? = row.head.map some := by
  have one : s.selectBlocks q = [row] := by
    rw [selectBlocks_eq]
    · rw [(find?_eq_some_of_unique fun a ha b hb fits_a fits_b =>
        eq_of_pairwise_ne h.keyed.ids ha hb (unique a ha b hb fits_a fits_b)).mpr ⟨mem, admitted⟩]
      rfl
    · exact h.keyed.ids.imp_of_mem fun ha hb apart both => apart (unique _ ha _ hb both.1 both.2)
  have listed : BlockStore.heads s q = [row].mapM BlockRow.head := one ▸ rfl
  rw [listed, List.mapM_cons]
  cases row.head <;> rfl

theorem head?_of_row (h : s.Intact) {id : Nat} (mem : BlockRow.ofHead id stored ∈ s.blocks) :
    BlockStore.head? s stored.chain stored.number = (BlockRow.ofHead id stored).head.map some := by
  refine heads_of_unique h mem ((admittedBy_place _ _ _).mpr ⟨rfl, rfl⟩) fun a ha b hb fits_a fits_b => ?_
  rw [admittedBy_place] at fits_a fits_b
  exact h.number_inj ha hb (fits_a.1.trans fits_b.1.symm) (fits_a.2.trans fits_b.2.symm)

theorem headOfHash?_of_row (h : s.Intact) {id : Nat} (mem : BlockRow.ofHead id stored ∈ s.blocks) :
    BlockStore.headOfHash? s stored.chain stored.hash = (BlockRow.ofHead id stored).head.map some := by
  refine heads_of_unique h mem ((admittedBy_hash _ _ _).mpr ⟨rfl, rfl⟩) fun a ha b hb fits_a fits_b => ?_
  rw [admittedBy_hash] at fits_a fits_b
  exact h.hash_inj ha hb (fits_a.1.trans fits_b.1.symm) (fits_a.2.trans fits_b.2.symm)

end RelationalStore

/-! ## Full and other filters -/

theorem BlockRow.head_ofHead_of_not_isFull (id : Nat) {head : Head} (other : ¬head.bloom.IsFull) :
    (ofHead id head).head = .error (.storage ("bad bloom length " ++ toString head.bloom.bytes.length)) := by
  unfold BlockRow.head ofHead
  simp only [BlockState.ofCode?_code, Bloom.ofBytes?]
  rw [if_neg (show ¬head.bloom.bytes.length = Bloom.size from other)]

namespace Bloom

variable {b : Bloom}

/-- A stored head is answered with what its row reads as. -/
theorem answered_of_row {answer : Head → Except TrackError (Option Head)}
    (reads : ∀ (id : Nat) (stored : Head), stored.bloom = b →
      (BlockRow.ofHead id stored).head.map some = answer stored) :
    b.Answered answer := by
  intro σ state earlier later w head stored before written after of own ok spare
  have intact : before.store.Intact :=
    PlainStore.runWrites_sound (S := RelationalStore) RelationalStore.intact_empty earlier state
  obtain ⟨bloom, has⟩ := RelationalStore.run_row intact of ok
  have intact_written : written.store.Intact := (PlainStore.run_becomes (S := RelationalStore) intact w _).1
  obtain ⟨intact_after, id, mem⟩ := has.runWrites intact_written spare written.state
  have same : stored.bloom = b := bloom.trans own
  refine ⟨same, ?_, ?_⟩
  · exact (RelationalStore.head?_of_row intact_after mem).trans (reads id stored same)
  · exact (RelationalStore.headOfHash?_of_row intact_after mem).trans (reads id stored same)

/-- A head with a full bloom is read back. -/
theorem answered_of_isFull (full : b.IsFull) : b.Answered fun stored => .ok (some stored) :=
  answered_of_row fun id stored own => by
    rw [BlockRow.head_ofHead id (own ▸ full)]
    rfl

/-- A head with any other bloom is not. -/
theorem answered_of_not_isFull (other : ¬b.IsFull) :
    b.Answered fun _ => .error (.storage ("bad bloom length " ++ toString b.bytes.length)) :=
  answered_of_row fun id stored own => by
    rw [BlockRow.head_ofHead_of_not_isFull id (own ▸ other), own]
    rfl

end Bloom

end Chainwatch
