import Chainwatch.Bloom
import Chainwatch.Proofs.Text.Hex

/-!
# The bytes that a spelling stands for

Two texts that differ in the case of letters only stand for the same bytes if both are read as digits, and otherwise
not unless they are the same text: a text that is not read as digits stands for itself, capitals and all.
-/

namespace Chainwatch

namespace Bloom

open Text.Hex (IsRead decodeText)

theorem addressBytes_of_isRead {s : String} {bytes : List UInt8} (read : decodeText s = .ok bytes) :
    addressBytes s = bytes := by
  rw [addressBytes, read]

theorem addressBytes_of_not_isRead {s : String} (unread : ¬IsRead s) : addressBytes s = Text.utf8 s := by
  unfold addressBytes
  split
  · rename_i bytes read
    exact (unread ⟨bytes, read⟩).elim
  · rfl

/-- Texts of one length, of which one alone is read, do not stand for the same. -/
theorem addressBytes_ne {s t : String} (same : Text.eqIgnoreCase s t) (read : IsRead s) (unread : ¬IsRead t) :
    addressBytes s ≠ addressBytes t := by
  obtain ⟨bytes, read⟩ := read
  have present : s ≠ "" := by
    rintro rfl
    have none : t.toList = [] := List.map_eq_nil_iff.mp (beq_iff_eq.mp same).symm
    obtain rfl : t = "" := String.toList_eq_nil_iff.mp none
    exact unread ⟨bytes, read⟩
  have shorter := Text.Hex.length_lt_of_decodeText read present
  rw [addressBytes_of_isRead read, addressBytes_of_not_isRead unread]
  rintro rfl
  exact Nat.lt_irrefl _ (Nat.lt_of_lt_of_eq shorter (Text.length_utf8_of_eqIgnoreCase same))

/-- Two spellings that differ in the case of letters only stand for the same bytes exactly if they are the same text or
both are read as digits. -/
theorem addressBytes_eq_iff {s t : String} (same : Text.eqIgnoreCase s t) :
    addressBytes s = addressBytes t ↔ s = t ∨ IsRead s ∧ IsRead t := by
  constructor
  · intro equal
    by_cases read : IsRead s <;> by_cases read' : IsRead t
    · exact Or.inr ⟨read, read'⟩
    · exact (addressBytes_ne same read read' equal).elim
    · rw [Text.eqIgnoreCase_comm] at same
      exact (addressBytes_ne same read' read equal.symm).elim
    · rw [addressBytes_of_not_isRead read, addressBytes_of_not_isRead read'] at equal
      exact Or.inl (Text.utf8_injective equal)
  · rintro (rfl | ⟨⟨bytes, read⟩, ⟨bytes', read'⟩⟩)
    · rfl
    · rw [addressBytes_of_isRead read, addressBytes_of_isRead read', Text.Hex.decodeText_eq same read read']

end Bloom

end Chainwatch
