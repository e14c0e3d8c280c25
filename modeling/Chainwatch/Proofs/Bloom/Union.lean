import Chainwatch.Proofs.Bloom.Length
import Chainwatch.Proofs.Bloom.Spelling

/-!
# A bloom as a set of bits

The bits of a filter are counted from its end. An addition sets the three bits that the digest selects and no other, a
look-up asks for the same three, and a filter of 256 bytes is known by its bits: so additions form the union, in
whatever order and however often they are made, and whatever was added is found. All of this holds for every digest.
-/

namespace Chainwatch

namespace Bloom

variable {b c : Bloom} {n m : Nat}

/-! ## Bits -/

def place (n : Nat) : Probe :=
  ⟨size - 1 - n / 8, 1 <<< UInt8.ofNat (n % 8)⟩

theorem testBit_mask : ∀ k < 8, ∀ j < 8, ((1 : UInt8) <<< UInt8.ofNat k).toNat.testBit j = decide (j = k) := by
  decide +kernel

theorem and_mask_eq_iff : ∀ byte < 256, ∀ k < 8,
    UInt8.ofNat byte &&& 1 <<< UInt8.ofNat k = 1 <<< UInt8.ofNat k ↔ byte.testBit k := by
  decide +kernel

theorem eq_of_testBit {x y : UInt8} (same : ∀ k < 8, x.toNat.testBit k = y.toNat.testBit k) : x = y := by
  apply UInt8.toNat_inj.mp
  refine Nat.eq_of_testBit_eq fun k => ?_
  by_cases inside : k < 8
  · exact same k inside
  · have beyond (z : UInt8) : z.toNat < 2 ^ k :=
      Nat.lt_of_lt_of_le z.toNat_lt (Nat.pow_le_pow_right (by decide) (Nat.not_lt.mp inside))
    rw [Nat.testBit_lt_two_pow (beyond x), Nat.testBit_lt_two_pow (beyond y)]

theorem mem_bits (b : Bloom) (n : Nat) :
    n ∈ b.bits ↔ ∃ byte, b.bytes.reverse[n / 8]? = some byte ∧ byte.toNat.testBit (n % 8) := by
  simp only [bits, List.mem_flatMap, Prod.exists, List.mem_zipIdx_iff_getElem?, List.mem_filterMap, List.mem_range]
  constructor
  · rintro ⟨byte, row, found, k, inside, set⟩
    split at set
    · cases set
      have quotient : (8 * row + k) / 8 = row := by omega
      have remainder : (8 * row + k) % 8 = k := by omega
      rw [quotient, remainder]
      exact ⟨byte, found, ‹_›⟩
    · cases set
  · rintro ⟨byte, found, set⟩
    refine ⟨byte, n / 8, found, n % 8, Nat.mod_lt n (by decide), ?_⟩
    rw [if_pos set, Nat.div_add_mod]

theorem mem_bits_iff (full : b.IsFull) : n ∈ b.bits ↔
    n < 2048 ∧ ∃ byte, b.bytes[size - 1 - n / 8]? = some byte ∧ byte.toNat.testBit (n % 8) := by
  rw [mem_bits]
  by_cases inside : n < 2048
  · have bound : n / 8 < b.bytes.length := by
      rw [full]
      exact Nat.div_lt_of_lt_mul inside
    rw [List.getElem?_reverse bound, full]
    simp [inside]
  · have beyond : b.bytes.reverse.length ≤ n / 8 := by
      rw [List.length_reverse, full]
      exact (Nat.le_div_iff_mul_le (by decide)).mpr (Nat.not_lt.mp inside)
    rw [List.getElem?_eq_none beyond]
    simp [inside]

/-- A filter of 256 bytes is known by its bits. -/
theorem eq_of_bits (full : b.IsFull) (full' : c.IsFull) (same : ∀ n, n ∈ b.bits ↔ n ∈ c.bits) : b = c := by
  suffices b.bytes = c.bytes by
    cases b
    cases c
    exact congrArg Bloom.mk this
  refine List.ext_getElem (full.trans full'.symm) fun row inside inside' => eq_of_testBit fun k fits => ?_
  have row_lt : row < size := Nat.lt_of_lt_of_eq inside full
  have read {d : Bloom} (full : d.IsFull) (inside : row < d.bytes.length) :
      8 * (size - 1 - row) + k ∈ d.bits ↔ d.bytes[row].toNat.testBit k := by
    have quotient : size - 1 - (8 * (size - 1 - row) + k) / 8 = row := by
      unfold size at row_lt ⊢
      omega
    have remainder : (8 * (size - 1 - row) + k) % 8 = k := by omega
    have bound : 8 * (size - 1 - row) + k < 2048 := by
      unfold size at row_lt ⊢
      omega
    rw [mem_bits_iff full, quotient, remainder, List.getElem?_eq_getElem inside]
    simp [bound]
  exact Bool.eq_iff_iff.mpr ((read full inside).symm.trans ((same _).trans (read full' inside')))

theorem mem_bits_saturated : n ∈ saturated.bits ↔ n < 2048 := by
  have ones : ∀ k < 8, (0xff : UInt8).toNat.testBit k := by decide +kernel
  rw [mem_bits_iff isFull_saturated]
  refine and_iff_left_of_imp fun inside => ⟨0xff, ?_, ones _ (Nat.mod_lt n (by decide))⟩
  exact List.getElem?_replicate_of_lt (by unfold size; omega)

theorem not_mem_bits_empty : n ∉ empty.bits := by
  rw [mem_bits_iff isFull_empty]
  rintro ⟨-, byte, found, set⟩
  obtain rfl : byte = 0 := List.eq_of_mem_replicate (List.mem_of_getElem? found)
  simp at set

/-! ## One bit -/

/-- To set a bit of a byte sets that bit and no other. -/
theorem testBit_or_mask (byte : UInt8) {k j : Nat} (inside : k < 8) (inside' : j < 8) :
    (byte ||| 1 <<< UInt8.ofNat k).toNat.testBit j ↔ byte.toNat.testBit j ∨ j = k := by
  rw [UInt8.toNat_or, Nat.testBit_or, testBit_mask k inside j inside', Bool.or_eq_true, decide_eq_true_iff]

theorem mem_bits_setProbe (full : b.IsFull) (inside : n < 2048) :
    m ∈ (b.setProbe (place n)).bits ↔ m ∈ b.bits ∨ m = n := by
  rw [mem_bits_iff (isFull_setProbe full _), mem_bits_iff full, getElem?_setProbe]
  by_cases within : m < 2048
  · have bound : size - 1 - m / 8 < b.bytes.length := by
      rw [full]
      unfold size
      omega
    rw [List.getElem?_eq_getElem bound]
    simp only [Option.map_some, Option.some.injEq, exists_eq_left', within, true_and]
    by_cases here : n / 8 = m / 8
    · have same : (place n).byte = size - 1 - m / 8 := by rw [place, here]
      rw [if_pos same, place, testBit_or_mask _ (Nat.mod_lt n (by decide)) (Nat.mod_lt m (by decide))]
      exact or_congr_right (by omega)
    · have other : (place n).byte ≠ size - 1 - m / 8 := by
        unfold place size
        dsimp only
        omega
      rw [if_neg other]
      exact (or_iff_left (by rintro rfl; exact here rfl)).symm
  · have differ : m ≠ n := by omega
    simp [within, differ]

/-- A bit is found at its place exactly if it is set. -/
theorem has_place_iff (full : b.IsFull) (inside : n < 2048) : b.Has (place n) ↔ n ∈ b.bits := by
  have read (byte : UInt8) : byte &&& (place n).mask = (place n).mask ↔ byte.toNat.testBit (n % 8) := by
    have mask := and_mask_eq_iff byte.toNat byte.toNat_lt (n % 8) (Nat.mod_lt n (by decide))
    rwa [UInt8.ofNat_toNat] at mask
  rw [mem_bits_iff full, Has]
  simp only [read, inside, true_and]
  rfl

theorem byte_place_lt (n : Nat) : (place n).byte < size :=
  Nat.lt_of_le_of_lt (Nat.sub_le ..) (by decide)

/-! ## Additions by a digest -/

/-- The numbers of the bits that a digest selects: the lowest eleven bits of its first three pairs of bytes. -/
def numbers : List UInt8 → List Nat
  | a :: b :: c :: d :: e :: f :: _ =>
    [(a.toNat * 256 + b.toNat) % 2048, (c.toNat * 256 + d.toNat) % 2048, (e.toNat * 256 + f.toNat) % 2048]
  | _ => []

variable (hash : List UInt8 → List UInt8)

def probesBy (input : List UInt8) : List Probe :=
  (numbers (hash input)).map place

def accrueBy (b : Bloom) (input : List UInt8) : Bloom :=
  (probesBy hash input).foldl setProbe b

def accrueBy? (b : Bloom) (input : List UInt8) : Except Bloom Bloom :=
  (probesBy hash input).foldlM setProbe? b

def containsBy? (b : Bloom) (input : List UInt8) : Option Bool :=
  b.hasProbes? (probesBy hash input)

def accrueAddressBy (b : Bloom) (address : String) : Bloom :=
  b.accrueBy hash (addressBytes address)

def containsAddressBy? (b : Bloom) (address : String) : Option Bool :=
  b.containsBy? hash (addressBytes address)

/-- The filter with all inputs added, one after another. -/
def accrueAllBy (b : Bloom) (inputs : List (List UInt8)) : Bloom :=
  inputs.foldl (accrueBy hash) b

theorem lt_of_mem_numbers {digest : List UInt8} (mem : n ∈ numbers digest) : n < 2048 := by
  unfold numbers at mem
  split at mem
  · simp only [List.mem_cons, List.not_mem_nil, or_false] at mem
    rcases mem with rfl | rfl | rfl <;> exact Nat.mod_lt _ (by decide)
  · cases mem

theorem probes_eq : probes = probesBy Digest.Keccak.hash := by
  funext input
  unfold probes probesBy
  match Digest.Keccak.hash input with
  | _ :: _ :: _ :: _ :: _ :: _ :: _ => rfl
  | [] | [_] | [_, _] | [_, _, _] | [_, _, _, _] | [_, _, _, _, _] => rfl

/-- What is added to a filter and looked up in it is added and looked up by that digest. -/
theorem kept_by_hash : accrue = accrueBy Digest.Keccak.hash ∧ accrue? = accrueBy? Digest.Keccak.hash ∧
    contains? = containsBy? Digest.Keccak.hash ∧ accrueAddress = accrueAddressBy Digest.Keccak.hash ∧
    containsAddress? = containsAddressBy? Digest.Keccak.hash := by
  refine ⟨?_, ?_, ?_, ?_, ?_⟩ <;> funext b input
  · rw [accrue, accrueBy, probes_eq]
  · rw [accrue?_eq_foldlM, accrueBy?, probes_eq]
  · rw [contains?, containsBy?, probes_eq]
  · rw [accrueAddress, accrueAddressBy, accrue, accrueBy, probes_eq]
  · rw [containsAddress?, containsAddressBy?, contains?, containsBy?, probes_eq]

variable {hash} {input : List UInt8} {inputs : List (List UInt8)}

theorem mem_bits_setAll (full : b.IsFull) {ns : List Nat} (inside : ∀ n ∈ ns, n < 2048) :
    m ∈ ((ns.map place).foldl setProbe b).bits ↔ m ∈ b.bits ∨ m ∈ ns := by
  induction ns generalizing b with
  | nil => simp
  | cons n ns ih =>
      obtain ⟨here, later⟩ := List.forall_mem_cons.mp inside
      rw [List.map_cons, List.foldl_cons, ih (isFull_setProbe full _) later, mem_bits_setProbe full here, List.mem_cons,
        or_assoc]

theorem mem_bits_accrueBy (full : b.IsFull) :
    m ∈ (b.accrueBy hash input).bits ↔ m ∈ b.bits ∨ m ∈ numbers (hash input) :=
  mem_bits_setAll full fun _ => lt_of_mem_numbers

theorem containsBy?_eq_true_iff (full : b.IsFull) :
    b.containsBy? hash input = some true ↔ ∀ n ∈ numbers (hash input), n ∈ b.bits := by
  rw [containsBy?, hasProbes?_eq_true, probesBy, List.forall_mem_map]
  exact forall₂_congr fun n mem => has_place_iff full (lt_of_mem_numbers mem)

theorem isFull_accrueBy (full : b.IsFull) : (b.accrueBy hash input).IsFull :=
  isFull_setAll full _

theorem isFull_accrueAllBy (full : b.IsFull) : (b.accrueAllBy hash inputs).IsFull := by
  induction inputs generalizing b with
  | nil => exact full
  | cons input inputs ih => exact ih (isFull_accrueBy full)

theorem accrueAllBy_cons (b : Bloom) (input : List UInt8) (inputs : List (List UInt8)) :
    b.accrueAllBy hash (input :: inputs) = (b.accrueBy hash input).accrueAllBy hash inputs := rfl

theorem mem_bits_accrueAllBy (full : b.IsFull) :
    m ∈ (b.accrueAllBy hash inputs).bits ↔ m ∈ b.bits ∨ ∃ input ∈ inputs, m ∈ numbers (hash input) := by
  induction inputs generalizing b with
  | nil => simp [accrueAllBy]
  | cons input inputs ih =>
      rw [accrueAllBy_cons, ih (isFull_accrueBy full), mem_bits_accrueBy full, List.exists_mem_cons_iff, or_assoc]

/-! ## The bitwise or -/

def union (b c : Bloom) : Bloom :=
  ⟨List.zipWith (· ||| ·) b.bytes c.bytes⟩

theorem isFull_union (full : b.IsFull) (full' : c.IsFull) : (b.union c).IsFull := by
  rw [IsFull, union, List.length_zipWith, full, full', Nat.min_self]

theorem mem_bits_union (full : b.IsFull) (full' : c.IsFull) : n ∈ (b.union c).bits ↔ n ∈ b.bits ∨ n ∈ c.bits := by
  rw [mem_bits_iff (isFull_union full full'), mem_bits_iff full, mem_bits_iff full', ← and_or_left]
  refine and_congr_right fun inside => ?_
  have bound {d : Bloom} (full : d.IsFull) : size - 1 - n / 8 < d.bytes.length := by
    rw [full]
    unfold size
    omega
  rw [union, List.getElem?_zipWith, List.getElem?_eq_getElem (bound full), List.getElem?_eq_getElem (bound full')]
  simp

/-! ## Additions form the union -/

theorem accrueBy?_eq (full : b.IsFull) : b.accrueBy? hash input = .ok (b.accrueBy hash input) := by
  refine setAll?_eq full (List.forall_mem_map.mpr fun n _ => ?_)
  exact byte_place_lt n

theorem accrueAllBy?_eq (full : b.IsFull) :
    inputs.foldlM (accrueBy? hash) b = .ok (b.accrueAllBy hash inputs) := by
  induction inputs generalizing b with
  | nil => rfl
  | cons input inputs ih =>
      rw [List.foldlM_cons, accrueBy?_eq full]
      exact ih (isFull_accrueBy full)

theorem isFull_unionAll (full : b.IsFull) {others : List Bloom} (full' : ∀ c ∈ others, c.IsFull) :
    (others.foldl union b).IsFull ∧ ∀ n, n ∈ (others.foldl union b).bits ↔ n ∈ b.bits ∨ ∃ c ∈ others, n ∈ c.bits := by
  induction others generalizing b with
  | nil => simp [full]
  | cons c others ih =>
      obtain ⟨here, later⟩ := List.forall_mem_cons.mp full'
      obtain ⟨whole, bits⟩ := ih (isFull_union full here) later
      refine ⟨whole, fun n => ?_⟩
      rw [List.foldl_cons, bits, mem_bits_union full here, List.exists_mem_cons_iff, or_assoc]

theorem containsBy?_mono (full : b.IsFull) (full' : c.IsFull) (more : ∀ n, n ∈ b.bits → n ∈ c.bits)
    (found : b.containsBy? hash input = some true) : c.containsBy? hash input = some true := by
  rw [containsBy?_eq_true_iff full] at found
  rw [containsBy?_eq_true_iff full']
  exact fun n mem => more n (found n mem)

theorem containsBy?_saturated : saturated.containsBy? hash input = some true :=
  (containsBy?_eq_true_iff isFull_saturated).mpr fun _ mem => mem_bits_saturated.mpr (lt_of_mem_numbers mem)

/-- A filter becomes its union with those of the inputs. -/
structure Unites (hash : List UInt8 → List UInt8) (b : Bloom) (inputs : List (List UInt8)) : Prop where
  taken : inputs.foldlM (accrueBy? hash) b = .ok (b.accrueAllBy hash inputs)
  full : (b.accrueAllBy hash inputs).IsFull
  /-- The bits that the digests of the inputs select are set, and no other. -/
  bits : ∀ n, n ∈ (b.accrueAllBy hash inputs).bits ↔ n ∈ b.bits ∨ ∃ input ∈ inputs, n ∈ numbers (hash input)
  /-- An input is found where the bits of its digest are set. -/
  asks : ∀ input, (b.accrueAllBy hash inputs).containsBy? hash input = some true ↔
    ∀ n ∈ numbers (hash input), n ∈ (b.accrueAllBy hash inputs).bits
  found : ∀ input ∈ inputs, (b.accrueAllBy hash inputs).containsBy? hash input = some true
  kept : ∀ input, b.containsBy? hash input = some true →
    (b.accrueAllBy hash inputs).containsBy? hash input = some true
  /-- Order and repetition do not count. -/
  alike : ∀ others : List (List UInt8), (∀ input, input ∈ others ↔ input ∈ inputs) →
    b.accrueAllBy hash others = b.accrueAllBy hash inputs
  joined : b.accrueAllBy hash inputs = (inputs.map (empty.accrueBy hash)).foldl union b
  anything : ∀ input, saturated.containsBy? hash input = some true

theorem unites (full : b.IsFull) : Unites hash b inputs := by
  have whole {inputs : List (List UInt8)} : (b.accrueAllBy hash inputs).IsFull := isFull_accrueAllBy full
  constructor
  case taken => exact accrueAllBy?_eq full
  case full => exact whole
  case bits => exact fun _ => mem_bits_accrueAllBy full
  case asks => exact fun _ => containsBy?_eq_true_iff whole
  case found =>
    intro input mem
    refine (containsBy?_eq_true_iff whole).mpr fun n selected => ?_
    exact (mem_bits_accrueAllBy full).mpr (Or.inr ⟨input, mem, selected⟩)
  case kept =>
    intro input found
    exact containsBy?_mono full whole (fun n mem => (mem_bits_accrueAllBy full).mpr (Or.inl mem)) found
  case alike =>
    intro others same
    refine eq_of_bits whole whole fun n => ?_
    rw [mem_bits_accrueAllBy full, mem_bits_accrueAllBy full]
    simp only [same]
  case joined =>
    have full' : ∀ c ∈ inputs.map (empty.accrueBy hash), c.IsFull :=
      List.forall_mem_map.mpr fun _ _ => isFull_accrueBy isFull_empty
    obtain ⟨whole', bits⟩ := isFull_unionAll full full'
    refine eq_of_bits whole whole' fun n => ?_
    rw [mem_bits_accrueAllBy full, bits]
    simp [mem_bits_accrueBy isFull_empty, not_mem_bits_empty]
  case anything => exact fun _ => containsBy?_saturated

/-- Whatever the digest, additions to a full filter form the union and whatever was added is found; and digits in pairs
stand for the bytes that they denote in every spelling, with the same additions and answers. -/
theorem additions_unite {b : Bloom} (full : b.IsFull) (inputs : List (List UInt8)) :
    (∀ hash, Unites hash b inputs) ∧
      (accrue = accrueBy Digest.Keccak.hash ∧ accrue? = accrueBy? Digest.Keccak.hash ∧
        contains? = containsBy? Digest.Keccak.hash ∧ accrueAddress = accrueAddressBy Digest.Keccak.hash ∧
        containsAddress? = containsAddressBy? Digest.Keccak.hash) ∧
      ∀ ds, (∀ c ∈ ds, Text.Hex.IsDigit c) → ds.length % 2 = 0 →
        ∃ bytes, ds.map Char.toLower = Text.Hex.digits bytes ∧
          ∀ s, Text.Hex.IsSpelling ds s → addressBytes s = bytes ∧
            ∀ (hash : List UInt8 → List UInt8) (c : Bloom),
              c.containsAddressBy? hash s = c.containsBy? hash bytes ∧
                c.accrueAddressBy hash s = c.accrueBy hash bytes := by
  refine ⟨fun _ => unites full, kept_by_hash, fun ds digit paired => ?_⟩
  obtain ⟨bytes, denoted, read⟩ := Text.Hex.exists_decodeText_eq_ok digit paired
  refine ⟨bytes, denoted, fun s spelled => ?_⟩
  have stands := addressBytes_of_isRead (read s spelled)
  refine ⟨stands, fun hash c => ?_⟩
  rw [containsAddressBy?, accrueAddressBy, stands]
  exact ⟨rfl, rfl⟩

/-- Two inputs, one of them twice, that both stand for themselves; and an address in two spellings. -/
theorem additions_unite_twice :
    (empty.accrueAllBy id [[0, 1, 0, 2, 0, 3], [7, 255, 0, 0, 0, 9], [0, 1, 0, 2, 0, 3]]).containsBy? id
        [7, 255, 0, 0, 0, 9] = some true ∧
      empty.accrueAllBy id [[0, 1, 0, 2, 0, 3], [7, 255, 0, 0, 0, 9]] =
        empty.accrueAllBy id [[0, 1, 0, 2, 0, 3], [7, 255, 0, 0, 0, 9], [0, 1, 0, 2, 0, 3]] ∧
      addressBytes "0xAb" = addressBytes "aB" := by
  obtain ⟨united, -, spellings⟩ :=
    additions_unite isFull_empty [[0, 1, 0, 2, 0, 3], [7, 255, 0, 0, 0, 9], [0, 1, 0, 2, 0, 3]]
  have digit : ∀ c ∈ ['a', 'b'], Text.Hex.IsDigit c := by
    simp only [List.forall_mem_cons]
    exact ⟨⟨10, by decide⟩, ⟨11, by decide⟩, nofun⟩
  obtain ⟨bytes, -, same⟩ := spellings ['a', 'b'] digit rfl
  have marked : Text.Hex.IsSpelling ['a', 'b'] "0xAb" := ⟨['A', 'b'], by decide⟩
  have bare : Text.Hex.IsSpelling ['a', 'b'] "aB" := ⟨['a', 'B'], by decide⟩
  refine ⟨(united id).found _ (by simp), (united id).alike _ fun input => by grind, ?_⟩
  rw [(same _ marked).1, (same _ bare).1]

end Bloom

end Chainwatch
