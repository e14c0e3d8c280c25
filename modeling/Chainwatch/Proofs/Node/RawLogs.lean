import Chainwatch.Proofs.Node.Quantities

/-!
# Logs as a node writes them

A log is decoded to the values that its fields denote, and to none if a field denotes no value. The two positions alone
are read at 64 bits and kept at 32: a log that can be read otherwise, and has a position beyond 32 bits, is decoded to
another, and the logs of two positions of a block fall together if these are the same in their lowest 32 bits.
-/

namespace Chainwatch

namespace RawLog

variable {r r' : RawLog} {l l' : Log}

/-- A log has the values that the fields of another denote. -/
structure Denotes (r : RawLog) (l : Log) : Prop where
  data : (Text.Hex.unmarked r.data).map Char.toLower = Text.Hex.digits l.data
  blockNumber : IsQuantity r.blockNumber l.blockNumber.toNat
  txIndex : IsQuantity r.txIndex l.txIndex.toNat
  logIndex : IsQuantity r.logIndex l.logIndex.toNat
  address : l.address = r.address
  topics : l.topics = r.topics
  blockHash : l.blockHash = r.blockHash
  txHash : l.txHash = r.txHash
  removed : l.removed = r.removed.getD false

/-- Each field that has to be read denotes a value, a number one of 64 bits. -/
structure IsReadable (r : RawLog) : Prop where
  data : ∃ bytes, (Text.Hex.unmarked r.data).map Char.toLower = Text.Hex.digits bytes
  blockNumber : ∃ v : UInt64, IsQuantity r.blockNumber v.toNat
  txIndex : ∃ v : UInt64, IsQuantity r.txIndex v.toNat
  logIndex : ∃ v : UInt64, IsQuantity r.logIndex v.toNat

/-- All of a log can be read, and one of its positions is beyond 32 bits. -/
def IsNarrowed (r : RawLog) : Prop :=
  r.IsReadable ∧ ∃ n, 2 ^ 32 ≤ n ∧ (IsQuantity r.txIndex n ∨ IsQuantity r.logIndex n)

/-! ## Decoding -/

theorem quantity_cases (s : String) : (∃ v, quantity s = .ok v) ∨ ∃ text, quantity s = .error (.rpc text) := by
  unfold quantity
  split
  · exact .inl ⟨_, rfl⟩
  · exact .inr ⟨_, rfl⟩

def assemble (r : RawLog) (data : List UInt8) (blockNumber txIndex logIndex : UInt64) : Log where
  address := r.address
  topics := r.topics
  data := data
  blockNumber := blockNumber
  blockHash := r.blockHash
  txHash := r.txHash
  txIndex := txIndex.toUInt32
  logIndex := logIndex.toUInt32
  removed := r.isRemoved

/-- A log is decoded field by field, or one of its fields is refused. -/
theorem decode_cases (r : RawLog) :
    (∃ text, r.decode = .error (.rpc text)) ∨
      ∃ data blockNumber txIndex logIndex, Text.Hex.decodeText r.data = .ok data ∧
        quantity r.blockNumber = .ok blockNumber ∧ quantity r.txIndex = .ok txIndex ∧
        quantity r.logIndex = .ok logIndex ∧ r.decode = .ok (r.assemble data blockNumber txIndex logIndex) := by
  unfold decode
  cases digits : Text.Hex.decodeText r.data with
  | error fault => exact .inl ⟨_, rfl⟩
  | ok data =>
      rcases quantity_cases r.blockNumber with ⟨blockNumber, first⟩ | ⟨text, refused⟩
      · rcases quantity_cases r.txIndex with ⟨txIndex, second⟩ | ⟨text, refused⟩
        · rcases quantity_cases r.logIndex with ⟨logIndex, third⟩ | ⟨text, refused⟩
          · rw [first, second, third]
            exact .inr ⟨data, blockNumber, txIndex, logIndex, rfl, rfl, rfl, rfl, rfl⟩
          · rw [first, second, refused]
            exact .inl ⟨text, rfl⟩
        · rw [first, refused]
          exact .inl ⟨text, rfl⟩
      · rw [refused]
        exact .inl ⟨text, rfl⟩

/-- A log is decoded exactly if all of it can be read, and to what was read with each position cut to 32 bits. -/
theorem decode_eq_ok_iff : r.decode = .ok l ↔
    ∃ txIndex logIndex : UInt64, (Text.Hex.unmarked r.data).map Char.toLower = Text.Hex.digits l.data ∧
      IsQuantity r.blockNumber l.blockNumber.toNat ∧ IsQuantity r.txIndex txIndex.toNat ∧
      IsQuantity r.logIndex logIndex.toNat ∧ l = r.assemble l.data l.blockNumber txIndex logIndex := by
  simp only [← quantity_eq_ok_iff, ← Text.Hex.decodeText_eq_ok_iff]
  constructor
  · intro decoded
    rcases decode_cases r with ⟨text, refused⟩ | ⟨data, n, i, j, digits, first, second, third, made⟩
    · rw [refused] at decoded
      cases decoded
    · rw [made] at decoded
      cases decoded
      exact ⟨i, j, digits, first, second, third, rfl⟩
  · rintro ⟨i, j, digits, first, second, third, made⟩
    rw [decode, digits, first, second, third, made]
    rfl

/-! ## Exactness -/

/-- A log is decoded to the one that its fields denote, and refused if they denote none. -/
structure IsExact (r : RawLog) : Prop where
  decodes : ∀ l, r.decode = .ok l ↔ r.Denotes l
  refuses : (∀ l, ¬r.Denotes l) → ∃ text, r.decode = .error (.rpc text)

theorem isReadable_iff : r.IsReadable ↔ ∃ l, r.decode = .ok l := by
  simp only [decode_eq_ok_iff]
  constructor
  · rintro ⟨⟨data, spelled⟩, ⟨n, first⟩, ⟨i, second⟩, ⟨j, third⟩⟩
    exact ⟨r.assemble data n i j, i, j, spelled, first, second, third, rfl⟩
  · rintro ⟨l, i, j, spelled, first, second, third, -⟩
    exact ⟨⟨l.data, spelled⟩, ⟨l.blockNumber, first⟩, ⟨i, second⟩, ⟨j, third⟩⟩

theorem Denotes.decode (denoted : r.Denotes l) : r.decode = .ok l := by
  refine decode_eq_ok_iff.mpr ⟨l.txIndex.toUInt64, l.logIndex.toUInt64, denoted.data, denoted.blockNumber, ?_, ?_, ?_⟩
  · simpa using denoted.txIndex
  · simpa using denoted.logIndex
  · cases l
    simp [assemble, isRemoved, ← denoted.address, ← denoted.topics, ← denoted.blockHash, ← denoted.txHash,
      ← denoted.removed]

theorem isExact_iff : r.IsExact ↔ ¬r.IsNarrowed := by
  constructor
  · rintro exact ⟨readable, n, large, position⟩
    obtain ⟨l, decoded⟩ := isReadable_iff.mp readable
    have denoted := (exact.decodes l).mp decoded
    rcases position with position | position
    · rw [position.unique denoted.txIndex] at large
      exact Nat.not_le.mpr l.txIndex.toNat_lt large
    · rw [position.unique denoted.logIndex] at large
      exact Nat.not_le.mpr l.logIndex.toNat_lt large
  · intro whole
    have decodes (l : Log) : r.decode = .ok l ↔ r.Denotes l := by
      refine ⟨fun decoded => ?_, Denotes.decode⟩
      have readable := isReadable_iff.mpr ⟨l, decoded⟩
      obtain ⟨i, j, spelled, first, second, third, made⟩ := decode_eq_ok_iff.mp decoded
      have fits {n : Nat} (position : IsQuantity r.txIndex n ∨ IsQuantity r.logIndex n) : n % 2 ^ 32 = n := by
        by_contra cut
        exact whole ⟨readable, n, by omega, position⟩
      rw [made]
      constructor
      case data => exact spelled
      case blockNumber => exact first
      case txIndex => rwa [assemble, UInt64.toNat_toUInt32, fits (.inl second)]
      case logIndex => rwa [assemble, UInt64.toNat_toUInt32, fits (.inr third)]
      all_goals rfl
    refine ⟨decodes, fun other => ?_⟩
    rcases decode_cases r with refused | ⟨data, n, i, j, -, -, -, -, made⟩
    · exact refused
    · exact (other _ ((decodes _).mp made)).elim

theorem toNat_logIndex_of_decode {n : Nat} (decoded : r.decode = .ok l) (position : IsQuantity r.logIndex n) :
    l.logIndex.toNat = n % 2 ^ 32 := by
  obtain ⟨i, j, -, -, -, third, made⟩ := decode_eq_ok_iff.mp decoded
  rw [made, position.unique third]
  exact UInt64.toNat_toUInt32 j

/-- A log is decoded to exactly what its fields denote, or refused, unless all of it can be read and a
position exceeds 32 bits. Two positions are identified only if they agree in their lowest 32 bits, so
those that fit never are. -/
theorem isExact_iff_not_isNarrowed (r : RawLog) :
    (r.IsExact ↔ ¬r.IsNarrowed) ∧
      ∀ (r' : RawLog) (l l' : Log) (n n' : Nat), r.decode = .ok l → r'.decode = .ok l' →
        IsQuantity r.logIndex n → IsQuantity r'.logIndex n' →
          (l.logIndex = l'.logIndex ↔ n % 2 ^ 32 = n' % 2 ^ 32) ∧
            (r.IsExact → r'.IsExact → n ≠ n' → l.logIndex ≠ l'.logIndex) := by
  refine ⟨isExact_iff, fun r' l l' n n' decoded decoded' position position' => ⟨?_, ?_⟩⟩
  · rw [← UInt32.toNat_inj, toNat_logIndex_of_decode decoded position, toNat_logIndex_of_decode decoded' position']
  · intro exact exact' differ same
    have whole := position.unique ((exact.decodes l).mp decoded).logIndex
    have whole' := position'.unique ((exact'.decodes l').mp decoded').logIndex
    exact differ (by rw [whole, whole', same])

def atPosition (logIndex : String) : RawLog where
  address := "0xaa"
  topics := ["0x01"]
  data := "0x00Ff"
  blockNumber := "0x7"
  blockHash := "0xb7"
  txHash := "0xt1"
  txIndex := "0x0"
  logIndex := logIndex
  removed := none

def loggedAt (logIndex : UInt32) : Log where
  address := "0xaa"
  topics := ["0x01"]
  data := [0x00, 0xff]
  blockNumber := 7
  blockHash := "0xb7"
  txHash := "0xt1"
  txIndex := 0
  logIndex := logIndex
  removed := false

/-- The last position of 32 bits, and the first. -/
theorem isExact_iff_not_isNarrowed_bound :
    (atPosition "0xFFFFFFFF").IsExact ∧ (atPosition "0xFFFFFFFF").decode = .ok (loggedAt 0xffffffff) ∧
      (loggedAt 0xffffffff).logIndex ≠ (loggedAt 0).logIndex := by
  have zero : IsQuantity "0x0" 0 := isQuantity_of_writes ⟨1, _, by decide +kernel, .inr rfl⟩
  have last : IsQuantity "0xFFFFFFFF" 0xffffffff := isQuantity_of_writes ⟨8, _, by decide +kernel, .inr rfl⟩
  have fits {text : String} {m : Nat} (low : m < 2 ^ 32) (position : IsQuantity text m) :
      ¬(atPosition text).IsNarrowed := by
    rintro ⟨-, n, large, first | second⟩
    · rw [first.unique zero] at large
      cases large
    · rw [second.unique position] at large
      exact Nat.not_le.mpr low large
  have exact := (isExact_iff_not_isNarrowed (atPosition "0xFFFFFFFF")).1.mpr (fits (by decide) last)
  have exact' := (isExact_iff_not_isNarrowed (atPosition "0x0")).1.mpr (fits (by decide) zero)
  have decoded : (atPosition "0xFFFFFFFF").decode = .ok (loggedAt 0xffffffff) := by decide +kernel
  have decoded' : (atPosition "0x0").decode = .ok (loggedAt 0) := by decide +kernel
  refine ⟨exact, decoded, ?_⟩
  exact ((isExact_iff_not_isNarrowed (atPosition "0xFFFFFFFF")).2 (atPosition "0x0") _ _ _ _ decoded decoded' last
    zero).2 exact exact' (by decide)

/-- The first position beyond 32 bits is decoded to the first position of all. -/
theorem not_isExact_beyond :
    ¬(atPosition "0x100000000").IsExact ∧ (atPosition "0x100000000").decode = .ok (loggedAt 0) ∧
      (atPosition "0x0").decode = .ok (loggedAt 0) := by
  have decoded : (atPosition "0x100000000").decode = .ok (loggedAt 0) := by decide +kernel
  have position : IsQuantity "0x100000000" 0x100000000 := isQuantity_of_writes ⟨9, _, by decide +kernel, .inr rfl⟩
  refine ⟨fun exact => ?_, decoded, by decide +kernel⟩
  have whole := position.unique ((exact.decodes _).mp decoded).logIndex
  cases whole

end RawLog

end Chainwatch
