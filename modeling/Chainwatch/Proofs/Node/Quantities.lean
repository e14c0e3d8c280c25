import Chainwatch.Node.RawLog
import Chainwatch.Proofs.Text.Numeral

/-!
# Quantities

A node writes a number in hexadecimal digits. A text is read as a quantity exactly if, behind at most one mark and at
most one plus sign, its digits denote a number of 64 bits, and it is read as that number; every other text is refused.
-/

namespace Chainwatch

open Text (Numeral.IsNumeral Numeral.Denotes)

variable {s : String} {n : Nat}

/-- A text is a quantity: behind at most one mark, and then at most one plus sign, it has digits of either case that
denote a number by their places. -/
def IsQuantity (s : String) (n : Nat) : Prop :=
  Numeral.IsNumeral 16 (Text.Hex.unmarked s) n

def badQuantity (s : String) (fault : Text.Numeral.Fault) : TrackError :=
  .rpc ("bad quantity " ++ Text.Quoted.encode s ++ ": " ++ fault.message)

theorem IsQuantity.unique {m : Nat} (first : IsQuantity s n) (second : IsQuantity s m) : n = m :=
  Numeral.IsNumeral.unique (by decide) first second

theorem quantity_eq_ok_iff {v : UInt64} : quantity s = .ok v ↔ IsQuantity s v.toNat := by
  rw [IsQuantity, ← Text.Numeral.read_eq_ok_iff (by decide) (by decide), quantity]
  cases Text.Numeral.read 16 (Text.Hex.unmarked s) with
  | ok n => simp
  | error fault => simp

structure Refuses (s : String) (fault : Text.Numeral.Fault) : Prop where
  empty : fault = .empty ↔ Text.Hex.unmarked s = []
  tooLarge : fault = .tooLarge ↔ Text.Numeral.Overruns 16 (Text.Hex.unmarked s)

/-- A text that is no quantity of 64 bits is refused, and the error names the text and the reason. -/
theorem quantity_eq_error (other : ∀ v : UInt64, ¬IsQuantity s v.toNat) :
    ∃ fault, Refuses s fault ∧ quantity s = .error (badQuantity s fault) := by
  cases read : Text.Numeral.read 16 (Text.Hex.unmarked s) with
  | ok v =>
      have denoted := (Text.Numeral.read_eq_ok_iff (by decide) (by decide)).mp read
      exact (other v denoted).elim
  | error fault =>
      obtain ⟨empty, tooLarge⟩ := Text.Numeral.fault_of_read (by decide) read
      exact ⟨fault, ⟨empty, tooLarge⟩, by rw [quantity, read, badQuantity]⟩

/-! ## Texts that are refused -/

/-- Something is wrong with a text: behind the mark it is empty, a sign alone, or has a minus sign, another mark or a
blank in it; or its number is too large. -/
def IsMalformed (s : String) : Prop :=
  Text.Hex.unmarked s = [] ∨ Text.Hex.unmarked s = ['+'] ∨ (∃ c ∈ ['-', 'x', ' '], c ∈ Text.Hex.unmarked s) ∨
    ∃ n, 2 ^ 64 ≤ n ∧ IsQuantity s n

theorem not_isQuantity_of_isMalformed (amiss : IsMalformed s) (v : UInt64) : ¬IsQuantity s v.toNat := by
  intro denoted
  rcases amiss with empty | sign | ⟨c, odd, mem⟩ | ⟨n, large, denoted'⟩
  · have read := quantity_eq_ok_iff.mpr denoted
    rw [quantity, empty] at read
    cases read
  · have read := quantity_eq_ok_iff.mpr denoted
    rw [quantity, sign] at read
    cases read
  · have no_digit : ∀ c ∈ ['-', 'x', ' '], Text.Numeral.digit? 16 c = none ∧ c ≠ '+' := by
      simp [Text.Numeral.digit?]
    exact Text.Numeral.not_isNumeral_of_mem (by decide) mem (no_digit c odd).1 (no_digit c odd).2 denoted
  · rw [denoted'.unique denoted] at large
    exact Nat.not_le.mpr v.toNat_lt large

/-! ## Written quantities -/

/-- A text writes a number in hexadecimal digits of either case, with some zeros before them, and with or without the
mark. -/
def Writes (s : String) (n : Nat) : Prop :=
  ∃ (width : Nat) (cs : List Char), cs.map Char.toLower = (Text.Numeral.hex width n).toList ∧
    (s.toList = cs ∨ s.toList = '0' :: 'x' :: cs)

theorem unmarked_of_denotes {cs : List Char} (denoted : Numeral.Denotes 16 cs n)
    (written : s.toList = cs ∨ s.toList = '0' :: 'x' :: cs) : Text.Hex.unmarked s = cs := by
  rcases written with rfl | marked
  · rcases Text.Hex.unmarked_cases s with marked | ⟨bare, -⟩
    · have mem : 'x' ∈ s.toList := by
        rw [marked]
        simp
      exact (Text.Numeral.not_denotes_of_mem (by decide) mem (by decide) denoted).elim
    · exact bare
  · exact Text.Hex.unmarked_of_marked marked

theorem isQuantity_of_writes (written : Writes s n) : IsQuantity s n := by
  obtain ⟨width, cs, spelled, placed⟩ := written
  rw [Text.Numeral.hex, String.toList_ofList] at spelled
  have denoted := Text.Numeral.denotes_of_lower_eq (by decide) spelled
  exact ⟨cs, .inl (unmarked_of_denotes denoted placed).symm, denoted⟩

/-! ## Exactness -/

/-- A text is read as a number of 64 bits exactly if it denotes it, and refused otherwise, with an error that names the
text and the reason; a number that is written in digits is read as itself. -/
theorem quantities_read_exactly (s : String) :
    (∀ v : UInt64, quantity s = .ok v ↔ IsQuantity s v.toNat) ∧
      ((∀ v : UInt64, ¬IsQuantity s v.toNat) → ∃ fault, Refuses s fault ∧ quantity s = .error (badQuantity s fault)) ∧
      (IsMalformed s → ∃ fault, Refuses s fault ∧ quantity s = .error (badQuantity s fault)) ∧
      (∀ v : UInt64, Writes s v.toNat → quantity s = .ok v) := by
  refine ⟨fun v => quantity_eq_ok_iff, quantity_eq_error, ?_, ?_⟩
  · exact fun amiss => quantity_eq_error (not_isQuantity_of_isMalformed amiss)
  · exact fun v written => quantity_eq_ok_iff.mpr (isQuantity_of_writes written)

/-- The largest number in capitals behind two zeros, and the number after it. -/
theorem quantities_read_exactly_bound :
    quantity "0x00FfFFFFFFFFFFFFFf" = .ok 0xffffffffffffffff ∧
      ∃ fault, Refuses "0x10000000000000000" fault ∧
        quantity "0x10000000000000000" = .error (badQuantity "0x10000000000000000" fault) := by
  refine ⟨(quantities_read_exactly _).2.2.2 0xffffffffffffffff ⟨18, _, ?_, .inr rfl⟩,
    (quantities_read_exactly _).2.2.1 (.inr (.inr (.inr ⟨2 ^ 64, Nat.le_refl _, ?_⟩)))⟩
  · decide +kernel
  · exact isQuantity_of_writes ⟨17, _, by decide +kernel, .inr rfl⟩

end Chainwatch
