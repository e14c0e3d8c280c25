import Mathlib.Data.List.Nodup
import Chainwatch.Proofs.Store.Relational

/-!
# Two passes over the tables

Events are answered in two passes: first the blocks that a query has conditions on, and the rows of events
of these blocks, selected in pieces; then the remaining blocks, in pieces too, and each row merged with
its own. For any number of blocks the pieces partition the selection, and every row is merged with the
head of its row number.
-/

namespace Chainwatch

namespace RelationalStore

/-! ## Pieces -/

section Pieces

variable {α β : Type}

theorem piecesAfter_flatten (size : Nat) (list : List α) (room : Nat) :
    (piecesAfter size list room).1 ++ (piecesAfter size list room).2.flatten = list := by
  induction list generalizing room with
  | nil => rfl
  | cons a rest ih =>
      cases room with
      | zero => simpa [piecesAfter] using ih (size - 1)
      | succ room => simp [piecesAfter, ih room]

theorem pieces_flatten (size : Nat) (list : List α) : (pieces size list).flatten = list := by
  have whole := piecesAfter_flatten size list 0
  cases list with
  | nil => rfl
  | cons a rest => simpa [pieces, piecesAfter] using whole

/-- Selecting by keys in pieces gives the selection by all keys at once, if no key occurs in two pieces. -/
theorem flatMap_filter_perm (key : α → Nat) (p : α → Bool) (values : List α) {keys : List (List Nat)}
    (distinct : keys.flatten.Nodup) :
    (keys.flatMap fun piece => values.filter fun a => piece.contains (key a) && p a).Perm
      (values.filter fun a => keys.flatten.contains (key a) && p a) := by
  induction keys with
  | nil => simp
  | cons piece keys ih =>
      obtain ⟨-, rest, apart⟩ := List.nodup_append.mp (List.flatten_cons ▸ distinct)
      rw [List.flatMap_cons, List.flatten_cons]
      refine ((ih rest).append_left _).trans ?_
      have parted := List.filter_append_perm (fun a => piece.contains (key a))
        (values.filter fun a => (piece ++ keys.flatten).contains (key a) && p a)
      rw [List.filter_filter, List.filter_filter] at parted
      refine List.Perm.trans (List.Perm.of_eq ?_) parted
      congr 1
      · refine List.filter_congr fun a _ => ?_
        cases first : piece.contains (key a) <;> simp_all
      · refine List.filter_congr fun a _ => ?_
        cases first : piece.contains (key a) with
        | false => simp_all
        | true =>
            have elsewhere : keys.flatten.contains (key a) = false := by
              rw [Bool.eq_false_iff, Ne, List.contains_iff_mem]
              exact fun mem => apart _ (List.contains_iff_mem.mp first) _ mem rfl
            rw [elsewhere, Bool.false_and, Bool.not_true, Bool.false_and]

theorem mem_eraseReps_loop [BEq β] [LawfulBEq β] {b : β} (first : β) (rest seen : List β) :
    b ∈ List.eraseRepsBy.loop (· == ·) first rest seen ↔ b ∈ seen ∨ b = first ∨ b ∈ rest := by
  induction rest generalizing first seen with
  | nil => simp [List.eraseRepsBy.loop, or_comm]
  | cons second rest ih =>
      rw [List.eraseRepsBy.loop]
      cases same : first == second with
      | true =>
          rw [ih, beq_iff_eq.mp same, List.mem_cons, or_self_left]
      | false =>
          rw [ih, List.mem_cons, List.mem_cons, or_assoc, or_left_comm]

theorem mem_eraseReps [BEq β] [LawfulBEq β] {b : β} (list : List β) : b ∈ list.eraseReps ↔ b ∈ list := by
  cases list with
  | nil => rfl
  | cons first rest =>
      refine (mem_eraseReps_loop first rest []).trans ?_
      simp

end Pieces

theorem mapM_ok_filterMap {ε α β : Type} {f : α → Except ε β} {g : α → Option β} {xs : List α}
    (read : ∀ a ∈ xs, ∃ b, f a = .ok b ∧ g a = some b) : xs.mapM f = .ok (xs.filterMap g) := by
  induction xs with
  | nil => rfl
  | cons a xs ih =>
      obtain ⟨b, ok, wanted⟩ := read a List.mem_cons_self
      rw [List.mapM_cons, ok, ih fun c mem => read c (List.mem_cons_of_mem a mem), List.filterMap_cons_some wanted]
      rfl

/-! ## Rows by their numbers -/

variable {s : RelationalStore} {head : Head} {row : BlockRow} {blocks : List BlockRow} {id : Nat}

def headOfId? (s : RelationalStore) (id : Nat) : Option Head :=
  (s.blocks.find? (·.id == id)).map (·.kept)

theorem headOfId?_eq_some (h : s.Sound) :
    s.headOfId? id = some head ↔ ∃ row ∈ s.blocks, row.id = id ∧ row.kept = head := by
  have unique {a : BlockRow} : s.blocks.find? (·.id == id) = some a ↔ a ∈ s.blocks ∧ (a.id == id) = true := by
    refine find?_eq_some_of_unique fun a ha b hb own other => h.id_inj ha hb ?_
    rw [beq_iff_eq.mp own, beq_iff_eq.mp other]
  simp only [headOfId?, Option.map_eq_some_iff, unique, beq_iff_eq, and_assoc]

/-- Rows read so far: each head with its row number. -/
def atHand (blocks : List BlockRow) : List (Nat × Head) :=
  blocks.map fun row => (row.id, row.kept)

theorem readBlocks_ok (h : s.Sound) (stored : blocks ⊆ s.blocks) : readBlocks blocks = .ok (atHand blocks) := by
  refine mapM_ok_of_forall fun row mem => ?_
  rw [h.readable (stored mem)]
  rfl

theorem lookup_atHand (h : s.Sound) (stored : blocks ⊆ s.blocks) :
    (atHand blocks).lookup id = some head ↔ ∃ row ∈ blocks, row.id = id ∧ row.kept = head := by
  have mem {head : Head} (found : (atHand blocks).lookup id = some head) :
      ∃ row ∈ blocks, row.id = id ∧ row.kept = head := by
    obtain ⟨before, after, split, -⟩ := List.lookup_eq_some_iff.mp found
    have pair : (id, head) ∈ atHand blocks := by simp [split]
    obtain ⟨row, hr, eq⟩ := List.mem_map.mp pair
    cases eq
    exact ⟨row, hr, rfl, rfl⟩
  refine ⟨mem, ?_⟩
  rintro ⟨row, hr, rfl, rfl⟩
  cases found : (atHand blocks).lookup row.id with
  | none =>
      have absent := List.lookup_eq_none_iff.mp found _ (List.mem_map.mpr ⟨row, hr, rfl⟩)
      simp at absent
  | some head =>
      rcases mem found with ⟨other, ho, id, rfl⟩
      rw [h.id_inj (stored ho) (stored hr) id]

theorem mem_blocksById {ids : List Nat} : row ∈ s.blocksById ids ↔ row ∈ s.blocks ∧ row.id ∈ ids := by
  have listed : row.id ∈ ids ↔ ∃ piece ∈ pieces largestPiece ids, row.id ∈ piece := by
    rw [← List.mem_flatten, pieces_flatten]
  simp only [blocksById, List.mem_flatMap, List.mem_filter, List.contains_iff_mem, listed]
  grind

theorem mem_missingBlocks {known : List (Nat × Head)} {rows : List EventRow} :
    id ∈ missingBlocks known rows ↔ (∃ row ∈ rows, row.blockId = id) ∧ known.lookup id = none := by
  simp [missingBlocks, mem_eraseReps]

theorem eventRows_perm {q : EventQuery} {ids : List Nat} (distinct : ids.Nodup) :
    (s.eventRows q (some ids)).Perm
      (s.events.filter fun row => ids.contains row.blockId && row.admittedBy q) := by
  have perm := flatMap_filter_perm EventRow.blockId (·.admittedBy q) s.events
    ((pieces_flatten largestPiece ids).symm ▸ distinct)
  rwa [pieces_flatten] at perm

/-- Whatever blocks were read before, the second pass merges every row with the head of its row number. -/
theorem secondPass_ok (h : s.Sound) (stored : blocks ⊆ s.blocks) {rows : List EventRow} (kept : rows ⊆ s.events) :
    s.secondPass rows (atHand blocks) =
      .ok ((rows.filterMap fun row => (s.headOfId? row.blockId).map row.event).mergeSort Event.before) := by
  have more : s.blocksById (missingBlocks (atHand blocks) rows) ⊆ s.blocks := fun row mem => (mem_blocksById.mp mem).1
  have owner (row : EventRow) (mem : row ∈ rows) : ∃ head, s.headOfId? row.blockId = some head ∧
      (atHand blocks ++ atHand (s.blocksById (missingBlocks (atHand blocks) rows))).lookup row.blockId = some head := by
    obtain ⟨block, hb, id⟩ := h.owned (kept mem)
    refine ⟨block.kept, (headOfId?_eq_some h).mpr ⟨block, hb, id, rfl⟩, ?_⟩
    rw [List.lookup_append]
    cases known : (atHand blocks).lookup row.blockId with
    | some head =>
        obtain ⟨other, ho, same, rfl⟩ := (lookup_atHand h stored).mp known
        rw [h.id_inj (stored ho) hb (same.trans id.symm)]
        rfl
    | none =>
        refine (lookup_atHand h more).mpr ⟨block, mem_blocksById.mpr ⟨hb, ?_⟩, id, rfl⟩
        exact mem_missingBlocks.mpr ⟨⟨row, mem, id.symm⟩, id ▸ known⟩
  have merged : rows.mapM (mergeRow (atHand blocks ++ atHand (s.blocksById (missingBlocks (atHand blocks) rows)))) =
      .ok (rows.filterMap fun row => (s.headOfId? row.blockId).map row.event) := by
    refine mapM_ok_filterMap fun row mem => ?_
    obtain ⟨head, own, found⟩ := owner row mem
    exact ⟨row.event head, by rw [mergeRow, found], by rw [own, Option.map_some]⟩
  rw [secondPass, readBlocks_ok h more]
  exact congrArg (Except.map (·.mergeSort Event.before)) merged

end RelationalStore

end Chainwatch
