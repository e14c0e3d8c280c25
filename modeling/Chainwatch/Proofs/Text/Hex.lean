import Chainwatch.Text.Hex

/-!
# What is read as bytes

A text is read as the bytes whose digits it spells, in letters of either case and with or without the mark `0x`, and
as nothing else. Two texts that differ in the case of letters only are read the same, if both are read. The mark `0X`
is not read.
-/

namespace Chainwatch

namespace Text

theorem utf8_injective {s t : String} (same : utf8 s = utf8 t) : s = t := by
  apply String.toByteArray_inj.mp
  rw [← String.utf8Encode_toList, ← String.utf8Encode_toList]
  exact congrArg List.toByteArray same

theorem length_utf8_of_eqIgnoreCase {s t : String} (same : eqIgnoreCase s t) : (utf8 s).length = (utf8 t).length :=
  length_utf8_of_lower_eq (beq_iff_eq.mp same)

theorem toLower_cases (c : Char) :
    c.toLower = c ∨ 65 ≤ c.toNat ∧ c.toNat ≤ 90 ∧ c.toLower.toNat = c.toNat + 32 := by
  by_cases capital : c.val ≥ 'A'.val ∧ c.val ≤ 'Z'.val
  · have low : 65 ≤ c.toNat := UInt32.le_iff_toNat_le.mp capital.1
    have high : c.toNat ≤ 90 := UInt32.le_iff_toNat_le.mp capital.2
    have raised : (c.val + ('a'.val - 'A'.val)).toNat = c.toNat + 32 := by
      rw [UInt32.toNat_add, show ('a'.val - 'A'.val).toNat = 32 from rfl]
      change (c.toNat + 32) % _ = _
      omega
    refine Or.inr ⟨low, high, ?_⟩
    unfold Char.toLower
    rw [dif_pos capital]
    exact raised
  · unfold Char.toLower
    exact Or.inl (dif_neg capital)

namespace Hex

/-! ## Digits of either case -/

def IsRead (s : String) : Prop :=
  ∃ bytes, decodeText s = .ok bytes

instance (s : String) : Decidable (IsRead s) :=
  match h : decodeText s with
  | .ok bytes => isTrue ⟨bytes, h⟩
  | .error _ => isFalse fun ⟨_, read⟩ => by rw [h] at read; cases read

def values (cs : List Char) : List (Option UInt8) :=
  (cs.flatMap String.utf8EncodeChar).map digit?

theorem values_cons (c : Char) (cs : List Char) :
    values (c :: cs) = (String.utf8EncodeChar c).map digit? ++ values cs := by
  rw [values, List.flatMap_cons, List.map_append, values]

theorem digit?_small : ∀ n ≤ 90, 65 ≤ n → digit? (UInt8.ofNat (n + 32)) = digit? (UInt8.ofNat n) := by
  decide +kernel

theorem digits_toLower (c : Char) :
    (String.utf8EncodeChar c.toLower).map digit? = (String.utf8EncodeChar c).map digit? := by
  rcases toLower_cases c with same | ⟨low, high, raised⟩
  · rw [same]
  · have one : c.toNat ≤ 127 := by omega
    have one_raised : c.toNat + 32 ≤ 127 := by omega
    have encoded : String.utf8EncodeChar c = [UInt8.ofNat c.toNat] := if_pos one
    have encoded_raised : String.utf8EncodeChar c.toLower = [UInt8.ofNat (c.toNat + 32)] := by
      rw [← raised] at one_raised ⊢
      exact if_pos one_raised
    rw [encoded, encoded_raised, List.map_singleton, List.map_singleton, digit?_small _ high low]

theorem values_lower (cs : List Char) : values (cs.map Char.toLower) = values cs := by
  induction cs with
  | nil => rfl
  | cons c cs ih => rw [List.map_cons, values_cons, values_cons, digits_toLower, ih]

/-! ## Reading -/

/-- Two digits are decoded to one byte. -/
theorem decodePairs_cons_cons {index : Nat} {high low : UInt8} {rest bytes : List UInt8}
    (read : decodePairs index (high :: low :: rest) = .ok bytes) :
    ∃ h l tail, digit? high = some h ∧ digit? low = some l ∧ decodePairs (index + 2) rest = .ok tail ∧
      bytes = (h * 16 + l) :: tail := by
  rw [decodePairs] at read
  split at read
  · cases read
  · cases read
  · rename_i h l first second
    cases tail : decodePairs (index + 2) rest with
    | error fault =>
        rw [tail] at read
        cases read
    | ok tail' =>
        rw [tail] at read
        cases read
        exact ⟨h, l, tail', first, second, rfl, rfl⟩

theorem length_decodePairs : {digits bytes : List UInt8} → {index : Nat} → decodePairs index digits = .ok bytes →
    digits.length = 2 * bytes.length
  | [], _, _, rfl => rfl
  | high :: low :: rest, bytes, index, read => by
      obtain ⟨-, -, tail, -, -, later, rfl⟩ := decodePairs_cons_cons read
      have shorter := length_decodePairs later
      simp only [List.length_cons]
      omega

/-- Decoding depends on the values of the digits only. -/
theorem decodePairs_eq : {xs ys bytes bytes' : List UInt8} → {index index' : Nat} → xs.map digit? = ys.map digit? →
    decodePairs index xs = .ok bytes → decodePairs index' ys = .ok bytes' → bytes = bytes'
  | [], [], _, _, _, _, _, rfl, rfl => rfl
  | high :: low :: rest, high' :: low' :: rest', bytes, bytes', index, index', same, first, second => by
      simp only [List.map_cons, List.cons.injEq] at same
      obtain ⟨sameHigh, sameLow, sameRest⟩ := same
      obtain ⟨h, l, tail, hHigh, hLow, later, rfl⟩ := decodePairs_cons_cons first
      obtain ⟨h', l', tail', hHigh', hLow', later', rfl⟩ := decodePairs_cons_cons second
      rw [sameHigh, hHigh'] at hHigh
      rw [sameLow, hLow'] at hLow
      rw [Option.some.inj hHigh, Option.some.inj hLow, decodePairs_eq sameRest later later']

theorem decode_ok {digits bytes : List UInt8} (read : decode digits = .ok bytes) :
    decodePairs 0 digits = .ok bytes := by
  unfold decode at read
  split at read
  · cases read
  · exact read

theorem unmarked_cases (s : String) :
    s.toList = '0' :: 'x' :: unmarked s ∨ unmarked s = s.toList ∧ ∀ rest, s.toList ≠ '0' :: 'x' :: rest := by
  unfold unmarked
  split
  · rename_i rest marked
    exact Or.inl marked
  · rename_i rest other
    exact Or.inr ⟨rfl, other⟩

theorem unmarked_of_marked {s : String} {cs : List Char} (marked : s.toList = '0' :: 'x' :: cs) : unmarked s = cs := by
  rw [unmarked, marked]
  rfl

theorem not_isRead_of_capital {s : String} {rest : List Char} (begins : s.toList = '0' :: 'X' :: rest) : ¬IsRead s := by
  rintro ⟨bytes, read⟩
  rcases unmarked_cases s with marked | ⟨same, -⟩
  · rw [begins] at marked
    simp at marked
  · have read := decode_ok read
    rw [same, begins] at read
    obtain ⟨h, l, tail, -, bad, -, -⟩ := decodePairs_cons_cons read
    cases bad

theorem eq_mark_of_lower {c d : Char} (zero : c.toLower = '0') (x : d.toLower = 'x') :
    c = '0' ∧ (d = 'x' ∨ d = 'X') := by
  constructor
  · rcases toLower_cases c with same | ⟨low, high, raised⟩
    · rw [← same, zero]
    · rw [zero] at raised
      simp at raised
      omega
  · rcases toLower_cases d with same | ⟨low, high, raised⟩
    · exact Or.inl (same.symm.trans x)
    · rw [x] at raised
      have capital : d.toNat = 'X'.toNat := by
        simp at raised ⊢
        omega
      exact Or.inr (Char.toNat_inj.mp capital)

/-- Of two readable texts that differ in the case of letters only, both begin with the mark or neither does. -/
theorem lower_unmarked_eq {s t : String} (same : s.toList.map Char.toLower = t.toList.map Char.toLower)
    (first : IsRead s) (second : IsRead t) : (unmarked s).map Char.toLower = (unmarked t).map Char.toLower := by
  have apart {s t : String} (same : s.toList.map Char.toLower = t.toList.map Char.toLower) (second : IsRead t)
      (marked : s.toList = '0' :: 'x' :: unmarked s) (bare : ∀ rest, t.toList ≠ '0' :: 'x' :: rest) : False := by
    rw [marked] at same
    match text : t.toList with
    | [] | [_] => simp [text] at same
    | c :: d :: rest =>
        simp only [text, List.map_cons, List.cons.injEq] at same
        obtain ⟨rfl, rfl | rfl⟩ := eq_mark_of_lower same.1.symm same.2.1.symm
        · exact bare rest text
        · exact not_isRead_of_capital text second
  rcases unmarked_cases s with marked | ⟨bare, unmarked_s⟩ <;>
    rcases unmarked_cases t with marked' | ⟨bare', unmarked_t⟩
  · rw [marked, marked'] at same
    simpa using same
  · exact (apart same second marked unmarked_t).elim
  · exact (apart same.symm first marked' unmarked_s).elim
  · rw [bare, bare', same]

/-- Readable texts that differ in the case of letters only are decoded alike. -/
theorem decodeText_eq {s t : String} (same : eqIgnoreCase s t) {bytes bytes' : List UInt8}
    (first : decodeText s = .ok bytes) (second : decodeText t = .ok bytes') : bytes = bytes' := by
  have lower := lower_unmarked_eq (beq_iff_eq.mp same) ⟨bytes, first⟩ ⟨bytes', second⟩
  have sameValues : values (unmarked s) = values (unmarked t) := by
    rw [← values_lower, lower, values_lower]
  exact decodePairs_eq sameValues (decode_ok first) (decode_ok second)

theorem length_lt_of_decodeText {s : String} {bytes : List UInt8} (read : decodeText s = .ok bytes) (present : s ≠ "") :
    bytes.length < (utf8 s).length := by
  have paired := length_decodePairs (decode_ok read)
  rcases unmarked_cases s with marked | ⟨bare, -⟩
  · have longer : (utf8 s).length = 2 + ((unmarked s).flatMap String.utf8EncodeChar).length := by
      rw [utf8, marked, List.flatMap_cons, List.flatMap_cons, List.length_append, List.length_append]
      change 1 + (1 + _) = _
      omega
    omega
  · rw [bare] at paired
    have some_byte : utf8 s ≠ [] := fun none => present (utf8_injective none)
    have positive := List.length_pos_iff.mpr some_byte
    unfold utf8 at positive ⊢
    omega

/-! ## What is written is what is read -/

theorem lt_of_digit? {b v : UInt8} (digit : digit? b = some v) : v < 16 := by
  grind [digit?]

theorem encode_of_ascii {c : Char} (ascii : c.toNat ≤ 127) : String.utf8EncodeChar c = [UInt8.ofNat c.toNat] :=
  if_pos ascii

theorem digit?_of_le {b : UInt8} (high : 128 ≤ b) : digit? b = none := by
  grind [digit?]

theorem encode_of_not_ascii {c : Char} (beyond : 127 < c.toNat) :
    ∃ b rest, String.utf8EncodeChar c = b :: rest ∧ digit? b = none := by
  have no_digit {n : Nat} (low : 128 ≤ n) (high : n < 256) : digit? (UInt8.ofNat n) = none := by
    apply digit?_of_le
    rw [UInt8.le_iff_toNat_le, UInt8.toNat_ofNat_of_lt' high]
    exact low
  have long : ¬c.val.toNat ≤ 127 := Nat.not_le.mpr beyond
  unfold String.utf8EncodeChar
  rw [if_neg long]
  split
  · exact ⟨_, _, rfl, no_digit (by omega) (by omega)⟩
  · split <;> exact ⟨_, _, rfl, no_digit (by omega) (by omega)⟩

theorem digit?_ascii : ∀ n < 128, ∀ v < 16,
    digit? (UInt8.ofNat n) = some (UInt8.ofNat v) ↔ (Char.ofNat n).toLower = digitChar v := by
  decide +kernel

theorem toNat_digitChar : ∀ v < 16, (digitChar v).toNat ≤ 127 := by
  decide +kernel

/-- A character has the value of a digit exactly if it is that digit, small or capital. -/
theorem values_cons_eq_cons_iff {c : Char} {cs : List Char} {v : UInt8} {rest : List (Option UInt8)} :
    values (c :: cs) = some v :: rest ↔ (v < 16 ∧ c.toLower = digitChar v.toNat) ∧ values cs = rest := by
  rw [values_cons]
  by_cases ascii : c.toNat ≤ 127
  · rw [encode_of_ascii ascii, List.map_singleton, List.singleton_append, List.cons.injEq]
    refine and_congr_left fun _ => ⟨fun digit => ?_, fun ⟨small, same⟩ => ?_⟩
    · have small := lt_of_digit? digit
      have read := digit?_ascii c.toNat (by omega) v.toNat (UInt8.lt_iff_toNat_lt.mp small)
      rw [UInt8.ofNat_toNat, Char.ofNat_toNat] at read
      exact ⟨small, read.mp digit⟩
    · have read := digit?_ascii c.toNat (by omega) v.toNat (UInt8.lt_iff_toNat_lt.mp small)
      rw [UInt8.ofNat_toNat, Char.ofNat_toNat] at read
      exact read.mpr same
  · obtain ⟨b, more, encoded, none⟩ := encode_of_not_ascii (by omega : 127 < c.toNat)
    rw [encoded, List.map_cons, List.cons_append, none]
    constructor
    · intro same
      cases same
    · rintro ⟨⟨small, same⟩, -⟩
      have bound := toNat_digitChar v.toNat (UInt8.lt_iff_toNat_lt.mp small)
      rw [← same] at bound
      rcases toLower_cases c with kept | ⟨low, high, raised⟩
      · rw [kept] at bound
        exact (ascii bound).elim
      · omega

def halves (bytes : List UInt8) : List (Option UInt8) :=
  bytes.flatMap fun b => [some (b / 16), some (b % 16)]

/-- Characters have the values of some bytes exactly if they spell them, in letters of either case. -/
theorem values_eq_halves_iff {cs : List Char} {bytes : List UInt8} :
    values cs = halves bytes ↔ cs.map Char.toLower = digits bytes := by
  induction bytes generalizing cs with
  | nil =>
      cases cs with
      | nil => simp [values, halves, digits]
      | cons c cs =>
          have positive : 0 < (String.utf8EncodeChar c).length := by
            rw [String.length_utf8EncodeChar]
            exact c.utf8Size_pos
          have some_value : values (c :: cs) ≠ [] := by
            rw [values_cons, ← List.length_pos_iff, List.length_append, List.length_map]
            omega
          simp [halves, digits, some_value]
  | cons b bytes ih =>
      have high : b / 16 < 16 := by grind
      have low : b % 16 < 16 := by grind
      change values cs = some (b / 16) :: some (b % 16) :: halves bytes ↔
        cs.map Char.toLower = digitChar (b / 16).toNat :: digitChar (b % 16).toNat :: digits bytes
      match cs with
      | [] => simp [values]
      | [c] =>
          rw [values_cons_eq_cons_iff]
          simp [values]
      | c :: d :: cs =>
          rw [values_cons_eq_cons_iff, values_cons_eq_cons_iff, ih]
          simp [high, low]

theorem eq_pair_iff {b h l : UInt8} (high : h < 16) (low : l < 16) : b = h * 16 + l ↔ b / 16 = h ∧ b % 16 = l := by
  grind

theorem decodePairs_eq_ok_iff : {xs bytes : List UInt8} → {index : Nat} →
    (decodePairs index xs = .ok bytes ↔ xs.map digit? = halves bytes)
  | [], [], _ => by simp [decodePairs, halves]
  | [], _ :: _, _ => by simp [decodePairs, halves]
  | [x], [], _ => by simp [decodePairs, halves]
  | [x], _ :: _, _ => by simp [decodePairs, halves]
  | high :: low :: rest, bytes, index => by
      constructor
      · intro read
        obtain ⟨h, l, tail, first, second, later, rfl⟩ := decodePairs_cons_cons read
        obtain ⟨upper, lower⟩ := (eq_pair_iff (lt_of_digit? first) (lt_of_digit? second)).mp rfl
        simp [halves, first, second, upper, lower, decodePairs_eq_ok_iff.mp later]
      · intro same
        cases bytes with
        | nil => simp [halves] at same
        | cons b bytes =>
            change digit? high :: digit? low :: rest.map digit? = some (b / 16) :: some (b % 16) :: halves bytes at same
            simp only [List.cons.injEq] at same
            obtain ⟨first, second, later⟩ := same
            have pair := (eq_pair_iff (lt_of_digit? first) (lt_of_digit? second)).mpr ⟨rfl, rfl⟩
            rw [decodePairs, first, second]
            simp [decodePairs_eq_ok_iff.mpr later, ← pair, Except.map]

/-- A text is decoded to some bytes exactly if, its mark aside, it spells them. -/
theorem decodeText_eq_ok_iff {s : String} {bytes : List UInt8} :
    decodeText s = .ok bytes ↔ (unmarked s).map Char.toLower = digits bytes := by
  rw [← values_eq_halves_iff, values, ← @decodePairs_eq_ok_iff _ _ 0]
  constructor
  · exact decode_ok
  · intro read
    have paired := length_decodePairs read
    rw [decodeText, decode, if_neg (by omega)]
    exact read

theorem map_toLower_digits (bytes : List UInt8) : (digits bytes).map Char.toLower = digits bytes := by
  have small : ∀ v < 16, (digitChar v).toLower = digitChar v := by decide +kernel
  have high (b : UInt8) : b.toNat / 16 < 16 := by
    have := b.toNat_lt
    omega
  induction bytes with
  | nil => rfl
  | cons b bytes ih =>
      simp only [digits, List.flatMap_cons, List.map_append, List.map_cons, List.map_nil] at ih ⊢
      rw [ih, small _ (high b), small _ (Nat.mod_lt _ (by decide))]

/-- Decoding inverts encoding. -/
theorem decodeText_encodeMarked (bytes : List UInt8) : decodeText (encodeMarked bytes) = .ok bytes := by
  have bare : unmarked (encodeMarked bytes) = digits bytes := unmarked_of_marked String.toList_ofList
  rw [decodeText_eq_ok_iff, bare, map_toLower_digits]

def IsDigit (c : Char) : Prop :=
  ∃ v < 16, c.toLower = digitChar v

/-- Digits in pairs spell some bytes. -/
theorem exists_digits_eq : {cs : List Char} → (∀ c ∈ cs, IsDigit c) → cs.length % 2 = 0 →
    ∃ bytes, cs.map Char.toLower = digits bytes
  | [], _, _ => ⟨[], rfl⟩
  | [_], _, paired => by simp at paired
  | c :: d :: cs, digit, paired => by
      simp only [List.forall_mem_cons] at digit
      obtain ⟨⟨h, high, first⟩, ⟨l, low, second⟩, later⟩ := digit
      obtain ⟨bytes, spelled⟩ := exists_digits_eq later (by simpa [Nat.add_assoc] using paired)
      have value : (UInt8.ofNat (h * 16 + l)).toNat = h * 16 + l := UInt8.toNat_ofNat_of_lt' (by change _ < 256; omega)
      have upper : (h * 16 + l) / 16 = h := by omega
      have lower : (h * 16 + l) % 16 = l := by omega
      refine ⟨UInt8.ofNat (h * 16 + l) :: bytes, ?_⟩
      simp only [digits, List.flatMap_cons] at spelled ⊢
      rw [List.map_cons, List.map_cons, first, second, spelled, value, upper, lower]
      rfl

/-- The texts that spell these digits: small or capital, behind the mark or without it. -/
def IsSpelling (ds : List Char) (s : String) : Prop :=
  ∃ cs, cs.map Char.toLower = ds.map Char.toLower ∧ (s.toList = cs ∨ s.toList = '0' :: 'x' :: cs)

theorem ne_mark_of_isDigit {c : Char} (digit : IsDigit c) : c.toLower ≠ 'x' := by
  have apart : ∀ v < 16, digitChar v ≠ 'x' := by decide +kernel
  obtain ⟨v, small, same⟩ := digit
  rw [same]
  exact apart v small

theorem lower_unmarked_of_isSpelling {ds : List Char} {s : String} (digit : ∀ c ∈ ds, IsDigit c)
    (spelled : IsSpelling ds s) : (unmarked s).map Char.toLower = ds.map Char.toLower := by
  obtain ⟨cs, same, bare | marked⟩ := spelled
  · rcases unmarked_cases s with marked | ⟨kept, -⟩
    · have mem : 'x'.toLower ∈ cs.map Char.toLower := by
        rw [← bare, marked]
        exact List.mem_map_of_mem (by simp)
      rw [same] at mem
      obtain ⟨c, inside, lower⟩ := List.mem_map.mp mem
      exact (ne_mark_of_isDigit (digit c inside) lower).elim
    · rw [kept, bare, same]
  · rw [unmarked_of_marked marked, same]

/-- Digits in pairs denote the same bytes in every spelling. -/
theorem exists_decodeText_eq_ok {ds : List Char} (digit : ∀ c ∈ ds, IsDigit c) (paired : ds.length % 2 = 0) :
    ∃ bytes, ds.map Char.toLower = digits bytes ∧ ∀ s, IsSpelling ds s → decodeText s = .ok bytes := by
  obtain ⟨bytes, denoted⟩ := exists_digits_eq digit paired
  refine ⟨bytes, denoted, fun s spelled => ?_⟩
  rw [decodeText_eq_ok_iff, lower_unmarked_of_isSpelling digit spelled, denoted]

end Hex

end Text

end Chainwatch
