/-!
# Letter case in ASCII

Addresses and event signatures are compared without regard to the case of ASCII letters, and
states are read in any case. Characters outside ASCII have no case here. A second comparison stops at
a NUL, and agrees with the first on texts that hold none.
-/

namespace Chainwatch.Text

def lower (s : String) : String :=
  String.ofList (s.toList.map Char.toLower)

/-- Whether two texts differ at most in the case of ASCII letters. -/
def eqIgnoreCase (s t : String) : Bool :=
  s.toList.map Char.toLower == t.toList.map Char.toLower

def utf8 (s : String) : List UInt8 :=
  s.toList.flatMap String.utf8EncodeChar

/-- The characters of a text before its first NUL. -/
def beforeNul (s : String) : List Char :=
  s.toList.takeWhile (· != '\x00')

/-- Whether two texts of the same length in bytes differ, up to the NUL that ends both, at most in the
case of ASCII letters. What stands behind the NUL is not compared. -/
def eqBeforeNul (s t : String) : Bool :=
  (utf8 s).length == (utf8 t).length
    && (beforeNul s).map Char.toLower == (beforeNul t).map Char.toLower

theorem eqIgnoreCase_iff {s t : String} : eqIgnoreCase s t = true ↔ lower s = lower t := by
  simp [eqIgnoreCase, lower, String.ofList_inj]

theorem eqIgnoreCase_refl (s : String) : eqIgnoreCase s s = true := by
  simp [eqIgnoreCase]

theorem length_encode_toLower (c : Char) :
    (String.utf8EncodeChar c.toLower).length = (String.utf8EncodeChar c).length := by
  rw [String.length_utf8EncodeChar, String.length_utf8EncodeChar]
  unfold Char.toLower
  split
  · rename_i h
    have hc : c.val ≤ 'Z'.val := h.2
    have small : c.val ≤ 127 := UInt32.le_trans hc (by decide)
    have raised : c.val + 32 ≤ 127 := by
      have := UInt32.le_iff_toNat_le.mp hc
      rw [UInt32.le_iff_toNat_le, UInt32.toNat_add]
      simp at this ⊢
      omega
    simp [Char.utf8Size, small, raised]
  · rfl

theorem length_utf8_of_lower_eq {s t : List Char} (h : s.map Char.toLower = t.map Char.toLower) :
    (s.flatMap String.utf8EncodeChar).length = (t.flatMap String.utf8EncodeChar).length := by
  induction s generalizing t with
  | nil => simp_all
  | cons c s ih =>
    cases t with
    | nil => simp at h
    | cons d t =>
      simp only [List.map_cons, List.cons.injEq] at h
      have hc := length_encode_toLower c
      rw [h.1, length_encode_toLower d] at hc
      simp [ih h.2, hc]

theorem takeWhile_ne_of_notMem {s : List Char} (h : '\x00' ∉ s) :
    s.takeWhile (· != '\x00') = s := by
  induction s with
  | nil => rfl
  | cons c s ih =>
    simp only [List.mem_cons, not_or] at h
    have hc : c ≠ '\x00' := fun e => h.1 e.symm
    simp [hc, ih h.2]

/-- Without a NUL nothing is left out of the comparison. -/
theorem eqBeforeNul_eq_eqIgnoreCase {s t : String} (hs : '\x00' ∉ s.toList)
    (ht : '\x00' ∉ t.toList) : eqBeforeNul s t = eqIgnoreCase s t := by
  simp only [eqBeforeNul, eqIgnoreCase, beforeNul, takeWhile_ne_of_notMem hs,
    takeWhile_ne_of_notMem ht, utf8]
  by_cases h : s.toList.map Char.toLower = t.toList.map Char.toLower
  · simp [h, length_utf8_of_lower_eq h]
  · simp [h]

theorem length_utf8_takeWhile_lt {s : List Char} (h : '\x00' ∈ s) :
    ((s.takeWhile (· != '\x00')).flatMap String.utf8EncodeChar).length <
      (s.flatMap String.utf8EncodeChar).length := by
  induction s with
  | nil => cases h
  | cons c s ih =>
    have hc : 0 < (String.utf8EncodeChar c).length := by
      rw [String.length_utf8EncodeChar]
      exact c.utf8Size_pos
    by_cases nul : c = '\x00'
    · subst nul
      simp only [bne_self_eq_false, Bool.false_eq_true, not_false_eq_true,
        List.takeWhile_cons_of_neg, List.flatMap_nil, List.length_nil, List.flatMap_cons,
        List.length_append]
      omega
    · have rest := ih ((List.mem_cons.mp h).resolve_left (Ne.symm nul))
      simp [nul] at rest ⊢
      exact rest

theorem eq_nul_of_toLower {c : Char} (h : c.toLower = '\x00') : c = '\x00' := by
  unfold Char.toLower at h
  split at h
  · rename_i capital
    have low : 65 ≤ c.val.toNat := UInt32.le_iff_toNat_le.mp capital.1
    have high : c.val.toNat ≤ 90 := UInt32.le_iff_toNat_le.mp capital.2
    have zero : (c.val + 32).toNat = 0 := congrArg (fun c : Char => c.val.toNat) h
    rw [UInt32.toNat_add, show (32 : UInt32).toNat = 32 from rfl] at zero
    omega
  · exact h

/-- Without a NUL in one of them both comparisons agree. -/
theorem eqBeforeNul_eq_of_right {s t : String} (ht : '\x00' ∉ t.toList) :
    eqBeforeNul s t = eqIgnoreCase s t := by
  by_cases hs : '\x00' ∈ s.toList
  · have differ : ¬eqIgnoreCase s t := by
      intro same
      have small : '\x00' ∈ s.toList.map Char.toLower := List.mem_map.mpr ⟨_, hs, rfl⟩
      rw [eq_of_beq same] at small
      obtain ⟨c, hc, nul⟩ := List.mem_map.mp small
      exact ht (eq_nul_of_toLower nul ▸ hc)
    have shorter : ¬eqBeforeNul s t := by
      unfold eqBeforeNul beforeNul utf8
      rw [Bool.and_eq_true, beq_iff_eq, beq_iff_eq, takeWhile_ne_of_notMem ht]
      rintro ⟨length, same⟩
      have lt := length_utf8_takeWhile_lt hs
      rw [length_utf8_of_lower_eq same] at lt
      omega
    simp [differ, shorter]
  · exact eqBeforeNul_eq_eqIgnoreCase hs ht

theorem eqIgnoreCase_comm (s t : String) : eqIgnoreCase s t = eqIgnoreCase t s :=
  Bool.beq_comm

end Chainwatch.Text
