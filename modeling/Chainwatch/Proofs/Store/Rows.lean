import Chainwatch.Proofs.Store.Nested
import Chainwatch.Store.Relational

/-!
# Rows of the relational store

A readable row is made of the head it keeps, and a query admits the row if it admits the head. Signed
numbers are ordered like the unsigned ones of the same bits as long as these are small; texts are compared
up to a NUL, which changes nothing for a query without one.
-/

namespace Chainwatch

/-! ## Lists -/

theorem eq_of_pairwise_ne {α β : Type} {key : α → β} {xs : List α} (h : xs.Pairwise (key · ≠ key ·))
    {a b : α} (ha : a ∈ xs) (hb : b ∈ xs) (same : key a = key b) : a = b := by
  induction xs with
  | nil => cases ha
  | cons x xs ih =>
      obtain ⟨apart, rest⟩ := List.pairwise_cons.mp h
      rcases List.mem_cons.mp ha with ha | ha <;> rcases List.mem_cons.mp hb with hb | hb
      · exact ha.trans hb.symm
      · exact (apart b hb (ha ▸ same)).elim
      · exact (apart a ha (hb ▸ same.symm)).elim
      · exact ih rest ha hb

theorem mapM_ok_of_forall {ε α β : Type} {f : α → Except ε β} {g : α → β} {xs : List α}
    (read : ∀ a ∈ xs, f a = .ok (g a)) : xs.mapM f = .ok (xs.map g) := by
  induction xs with
  | nil => rfl
  | cons a xs ih =>
      rw [List.mapM_cons, read a List.mem_cons_self, ih fun b hb => read b (List.mem_cons_of_mem a hb)]
      rfl

theorem find?_eq_some_of_unique {α : Type} {p : α → Bool} {xs : List α}
    (unique : ∀ a ∈ xs, ∀ b ∈ xs, p a → p b → a = b) {a : α} :
    xs.find? p = some a ↔ a ∈ xs ∧ p a := by
  constructor
  · intro found
    exact ⟨List.mem_of_find?_eq_some found, List.find?_some found⟩
  · intro h
    rcases h with ⟨mem, fits⟩
    cases found : xs.find? p with
    | none => exact (List.find?_eq_none.mp found a mem fits).elim
    | some b =>
        rw [unique b (List.mem_of_find?_eq_some found) a mem (List.find?_some found) fits]

theorem UInt64.toInt64_inj {m n : UInt64} : m.toInt64 = n.toInt64 ↔ m = n :=
  ⟨fun h => by simpa using congrArg Int64.toUInt64 h, congrArg _⟩

theorem UInt64.toInt_toInt64 {n : UInt64} (h : n.toNat < 0x8000000000000000) : n.toInt64.toInt = n.toNat := by
  rw [← Int64.toInt_toBitVec]
  exact BitVec.toInt_eq_toNat_of_lt (x := n.toBitVec) (by simpa using by omega)

/-- Numbers below `2 ^ 63` are ordered alike as signed and as unsigned numbers. -/
theorem UInt64.toInt64_lt {m n : UInt64} (hm : m.toNat < 0x8000000000000000) (hn : n.toNat < 0x8000000000000000) :
    m.toInt64 < n.toInt64 ↔ m < n := by
  rw [Int64.lt_iff_toInt_lt, toInt_toInt64 hm, toInt_toInt64 hn, UInt64.lt_iff_toNat_lt]
  omega

namespace BlockState

theorem ofCode?_code (state : BlockState) : ofCode? state.code = some state := by
  cases state <;> rfl

theorem code_inj {a b : BlockState} : a.code = b.code ↔ a = b := by
  constructor
  · intro h
    have read := congrArg ofCode? h
    rw [ofCode?_code, ofCode?_code] at read
    exact Option.some.inj read
  · exact congrArg code

theorem code_of_ofCode? {code : Int} {state : BlockState} (h : ofCode? code = some state) :
    state.code = code := by
  simpa using List.find?_some h

end BlockState

/-! ## Rows of blocks -/

namespace BlockRow

/-- The head that a row keeps, if it can be read. -/
def kept (row : BlockRow) : Head :=
  row.head.toOption.getD default

def IsReadable (row : BlockRow) : Prop :=
  row.head = .ok row.kept

theorem head_ofHead (id : Nat) {head : Head} (full : head.bloom.IsFull) :
    (ofHead id head).head = .ok head := by
  unfold BlockRow.head ofHead
  simp only [BlockState.ofCode?_code, Bloom.ofBytes?]
  rw [if_pos (show head.bloom.bytes.length = Bloom.size from full)]
  simp

theorem kept_ofHead (id : Nat) {head : Head} (full : head.bloom.IsFull) :
    (ofHead id head).kept = head := by
  simp [kept, head_ofHead id full, Except.toOption]

theorem isReadable_ofHead (id : Nat) {head : Head} (full : head.bloom.IsFull) :
    (ofHead id head).IsReadable := by
  rw [IsReadable, head_ofHead id full, kept_ofHead id full]

/-- A readable row is determined by what it keeps. -/
theorem IsReadable.eq_ofHead {row : BlockRow} (h : row.IsReadable) :
    row = ofHead row.id row.kept ∧ row.kept.bloom.IsFull := by
  unfold IsReadable at h
  generalize row.kept = head at h
  unfold BlockRow.head at h
  cases hs : BlockState.ofCode? row.state with
  | none => simp [hs] at h
  | some state =>
      cases hb : Bloom.ofBytes? row.bloom with
      | none => simp [hs, hb] at h
      | some bloom =>
          simp only [hs, hb, Except.ok.injEq] at h
          unfold Bloom.ofBytes? at hb
          split at hb
          · cases hb
            subst h
            refine ⟨?_, by assumption⟩
            cases row
            simp [ofHead, BlockState.code_of_ofCode? hs]
          · cases hb

variable {row : BlockRow}

theorem IsReadable.chain (h : row.IsReadable) : row.chain = row.kept.chain.toInt64 :=
  congrArg BlockRow.chain h.eq_ofHead.1

theorem IsReadable.number (h : row.IsReadable) : row.number = row.kept.number.toInt64 :=
  congrArg BlockRow.number h.eq_ofHead.1

theorem IsReadable.hash (h : row.IsReadable) : row.hash = row.kept.hash :=
  congrArg BlockRow.hash h.eq_ofHead.1

theorem IsReadable.state (h : row.IsReadable) : row.state = row.kept.state.code :=
  congrArg BlockRow.state h.eq_ofHead.1

theorem IsReadable.parentHash (h : row.IsReadable) : row.parentHash = row.kept.parentHash :=
  congrArg BlockRow.parentHash h.eq_ofHead.1

/-- A query admits a row exactly if it admits the head that the row keeps. -/
theorem IsReadable.admittedBy (h : row.IsReadable) (q : HeadQuery) :
    row.admittedBy q = q.admits row.kept := by
  have number (wanted : Option UInt64) (n : UInt64) :
      fieldAdmits (wanted.map UInt64.toInt64) n.toInt64 = fieldAdmits wanted n := by
    cases wanted with
    | none => rfl
    | some m => simp [fieldAdmits, Bool.beq_eq_decide_eq, UInt64.toInt64_inj]
  have state (wanted : Option BlockState) (state : BlockState) :
      fieldAdmits (wanted.map BlockState.code) state.code = fieldAdmits wanted state := by
    cases wanted with
    | none => rfl
    | some m => simp [fieldAdmits, Bool.beq_eq_decide_eq, BlockState.code_inj]
  simp only [BlockRow.admittedBy, HeadQuery.admits, h.chain, h.number, h.hash, h.parentHash, h.state,
    number, state]

/-- A head that overwrites a readable row is settled: what is confirmed stays confirmed. -/
theorem IsReadable.overwrite (h : row.IsReadable) (head : Head) :
    RelationalStore.overwrite row head =
      ofHead row.id (if row.kept.state = .confirmed then head.withState .confirmed else head) := by
  unfold RelationalStore.overwrite
  rw [h.state]
  by_cases confirmed : row.kept.state = .confirmed
  · simp [confirmed, ofHead, Head.withState]
  · simp [confirmed, BlockState.code_inj, ofHead]

end BlockRow

/-! ## Rows of events -/

/-- For the texts of this query, the tables compare up to the case of letters. -/
structure EventQuery.IsCollated (q : EventQuery) : Prop where
  address : ∀ address ∈ q.address, ∀ s, Text.eqBeforeNul s address = Text.eqIgnoreCase s address
  topic : ∀ topic ∈ q.topic, ∀ s, Text.eqBeforeNul s topic = Text.eqIgnoreCase s topic

theorem EventQuery.isCollated_of_plain {q : EventQuery}
    (address : ∀ address ∈ q.address, '\x00' ∉ address.toList)
    (topic : ∀ topic ∈ q.topic, '\x00' ∉ topic.toList) : q.IsCollated where
  address a mem _ := Text.eqBeforeNul_eq_of_right (address a mem)
  topic t mem _ := Text.eqBeforeNul_eq_of_right (topic t mem)

namespace EventRow

@[simp] theorem event_mergeWith (row : EventRow) (old block : Head) :
    (row.event old).mergeWith block = row.event block := rfl

@[simp] theorem event_logIndex (row : EventRow) (block : Head) :
    (row.event block).logIndex = row.logIndex := rfl

/-- A query admits a row exactly if it admits the event's own fields. -/
theorem admittedBy_eq {row : EventRow} (signed : row.signature = row.topics.head?) {q : EventQuery}
    (collated : q.IsCollated) (block : Head) : row.admittedBy q = q.admitsOwn (row.event block) := by
  have address : q.address.all (Text.eqBeforeNul row.address) =
      q.address.all (Text.eqIgnoreCase · row.address) := by
    cases h : q.address with
    | none => rfl
    | some address =>
        rw [Option.all_some, Option.all_some, collated.address _ h,
          Text.eqIgnoreCase_comm]
  have topic : q.topic.all (fun topic => row.signature.any (Text.eqBeforeNul · topic)) =
      q.topic.all fun topic => row.topics.head?.any (Text.eqIgnoreCase · topic) := by
    cases h : q.topic with
    | none => rfl
    | some topic =>
        simp only [Option.all_some, signed, collated.topic _ h]
  rw [EventRow.admittedBy, address, topic]
  rfl

end EventRow

/-! ## Orders -/

theorem BlockRow.before_trans (a b c : BlockRow) (hab : a.before b) (hbc : b.before c) : a.before c := by
  simp only [before, Bool.or_eq_true, Bool.and_eq_true, decide_eq_true_eq, beq_iff_eq] at *
  grind

theorem BlockRow.before_total (a b : BlockRow) : a.before b || b.before a := by
  simp only [before, Bool.or_eq_true, Bool.and_eq_true, decide_eq_true_eq, beq_iff_eq]
  grind

theorem Event.before_trans (a b c : Event) (hab : a.before b) (hbc : b.before c) : a.before c := by
  simp only [before, Bool.or_eq_true, Bool.and_eq_true, decide_eq_true_eq, beq_iff_eq] at *
  grind

theorem Event.before_total (a b : Event) : a.before b || b.before a := by
  simp only [before, Bool.or_eq_true, Bool.and_eq_true, decide_eq_true_eq, beq_iff_eq]
  grind

/-- Rows of small numbers are in the order of their heads. -/
theorem BlockRow.precedes_of_before {a b : BlockRow} (ha : a.IsReadable) (hb : b.IsReadable)
    (small : ∀ head ∈ [a.kept, b.kept], head.chain.toNat < 0x8000000000000000 ∧ head.number.toNat < 0x8000000000000000)
    (before : a.before b) (differ : ¬(a.kept.chain = b.kept.chain ∧ a.kept.number = b.kept.number)) :
    a.kept.Precedes b.kept := by
  have sa := small a.kept (by simp)
  have sb := small b.kept (by simp)
  simp only [BlockRow.before, ha.chain, hb.chain, ha.number, hb.number, Bool.or_eq_true,
    Bool.and_eq_true, decide_eq_true_eq, beq_iff_eq, UInt64.toInt64_inj, UInt64.toInt64_lt sa.1 sb.1,
    Int64.le_iff_lt_or_eq, UInt64.toInt64_lt sa.2 sb.2] at before
  unfold Head.Precedes
  grind

theorem Event.precedes_of_before {a b : Event} (before : a.before b)
    (differ : ¬(a.chain = b.chain ∧ a.blockNumber = b.blockNumber ∧ a.logIndex = b.logIndex)) :
    a.Precedes b := by
  simp only [Event.before, Bool.or_eq_true, Bool.and_eq_true, decide_eq_true_eq, beq_iff_eq] at before
  unfold Event.Precedes
  grind

end Chainwatch
