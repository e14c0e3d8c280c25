import Chainwatch.Proofs.Tracker.Work

/-!
# What was added to a bloom is found

Adding an input sets the bits it selects and clears none, so that whatever else is added, before or after, the input
is found. Of all filters that an address was added to, the one with nothing else tells least.
-/

namespace Chainwatch

namespace Bloom

variable {b c d : Bloom} {p : Probe}

def Has (b : Bloom) (p : Probe) : Prop :=
  ∃ byte, b.bytes[p.byte]? = some byte ∧ byte &&& p.mask = p.mask

theorem hasProbes?_eq_true {ps : List Probe} : b.hasProbes? ps = some true ↔ ∀ p ∈ ps, b.Has p := by
  induction ps with
  | nil => simp [hasProbes?]
  | cons p rest ih =>
      rw [List.forall_mem_cons, ← ih, hasProbes?]
      cases found : b.bytes[p.byte]? with
      | none => simp [Has, found]
      | some byte =>
          by_cases set : byte &&& p.mask = p.mask <;> simp [Has, found, set]

/-! ## More bits -/

/-- Every bit of one filter is set in another. -/
def Covers (b c : Bloom) : Prop :=
  ∀ (place : Nat) (byte : UInt8), c.bytes[place]? = some byte →
    ∃ byte', b.bytes[place]? = some byte' ∧ byte' &&& byte = byte

/-- Bits that are set in what is covered are set in what covers it. -/
theorem and_eq_of_and_eq {x y z : UInt8} (outer : x &&& y = y) (inner : y &&& z = z) : x &&& z = z := by
  rw [← inner, ← UInt8.and_assoc, outer]

theorem Covers.refl (b : Bloom) : b.Covers b :=
  fun _ byte found => ⟨byte, found, UInt8.and_self⟩

theorem Covers.trans (first : b.Covers c) (second : c.Covers d) : b.Covers d := by
  intro place byte found
  obtain ⟨middle, among, inner⟩ := second place byte found
  obtain ⟨outer, set, beyond⟩ := first place middle among
  exact ⟨outer, set, and_eq_of_and_eq beyond inner⟩

theorem Covers.has (h : b.Covers c) (set : c.Has p) : b.Has p := by
  obtain ⟨byte, found, inner⟩ := set
  obtain ⟨byte', among, outer⟩ := h p.byte byte found
  exact ⟨byte', among, and_eq_of_and_eq outer inner⟩

theorem covers_empty (full : b.IsFull) : b.Covers empty := by
  intro place byte found
  obtain ⟨inside, rfl⟩ := List.getElem?_eq_some_iff.mp found
  have bound : place < b.bytes.length := by
    rw [full]
    exact Nat.lt_of_lt_of_eq inside List.length_replicate
  exact ⟨b.bytes[place], List.getElem?_eq_getElem bound, by simp [empty]⟩

/-! ## Setting a bit -/

theorem or_and_left (x y : UInt8) : (x ||| y) &&& x = x := by
  apply UInt8.toBitVec_inj.mp
  ext i inside
  simp only [UInt8.toBitVec_and, UInt8.toBitVec_or, BitVec.getElem_and, BitVec.getElem_or]
  cases x.toBitVec[i] <;> simp

theorem or_and_right (x y : UInt8) : (x ||| y) &&& y = y := by
  rw [UInt8.or_comm, or_and_left]

theorem and_or_distrib (x y z : UInt8) : x &&& (y ||| z) = (x &&& y) ||| (x &&& z) := by
  apply UInt8.toBitVec_inj.mp
  ext i inside
  simp only [UInt8.toBitVec_and, UInt8.toBitVec_or, BitVec.getElem_and, BitVec.getElem_or]
  cases x.toBitVec[i] <;> simp

theorem getElem?_setProbe (b : Bloom) (p : Probe) (place : Nat) : (b.setProbe p).bytes[place]? =
    (b.bytes[place]?).map fun byte => if p.byte = place then byte ||| p.mask else byte :=
  List.getElem?_modify ..

theorem isFull_setProbe (full : b.IsFull) (p : Probe) : (b.setProbe p).IsFull :=
  (List.length_modify ..).trans full

theorem has_setProbe (inside : p.byte < b.bytes.length) : (b.setProbe p).Has p := by
  refine ⟨b.bytes[p.byte] ||| p.mask, ?_, or_and_right ..⟩
  rw [getElem?_setProbe, List.getElem?_eq_getElem inside]
  simp

theorem covers_setProbe (b : Bloom) (p : Probe) : (b.setProbe p).Covers b := by
  intro place byte found
  rw [getElem?_setProbe, found]
  by_cases here : p.byte = place
  · exact ⟨byte ||| p.mask, by simp [here], or_and_left ..⟩
  · exact ⟨byte, by simp [here], UInt8.and_self⟩

theorem Covers.setProbe (h : b.Covers c) (set : b.Has p) : b.Covers (c.setProbe p) := by
  intro place byte found
  rw [getElem?_setProbe] at found
  obtain ⟨old, among, rfl⟩ := Option.map_eq_some_iff.mp found
  obtain ⟨byte', here, beyond⟩ := h place old among
  by_cases same : p.byte = place
  · obtain ⟨byte'', there, mask⟩ := set
    obtain rfl : byte' = byte'' := by
      rw [same, here] at there
      exact Option.some.inj there
    exact ⟨byte', here, by rw [if_pos same, and_or_distrib, beyond, mask]⟩
  · exact ⟨byte', here, by rw [if_neg same, beyond]⟩

/-! ## Adding inputs -/

theorem isFull_setAll (full : b.IsFull) (ps : List Probe) : (ps.foldl setProbe b).IsFull := by
  induction ps generalizing b with
  | nil => exact full
  | cons p ps ih => exact ih (isFull_setProbe full p)

theorem covers_setAll (b : Bloom) (ps : List Probe) : (ps.foldl setProbe b).Covers b := by
  induction ps generalizing b with
  | nil => exact .refl b
  | cons p ps ih => exact (ih (b.setProbe p)).trans (covers_setProbe b p)

theorem has_setAll (full : b.IsFull) {ps : List Probe} (inside : ∀ p ∈ ps, p.byte < size) :
    ∀ p ∈ ps, (ps.foldl setProbe b).Has p := by
  induction ps generalizing b with
  | nil => simp
  | cons p ps ih =>
      obtain ⟨here, later⟩ := List.forall_mem_cons.mp inside
      refine List.forall_mem_cons.mpr ⟨?_, ih (isFull_setProbe full p) later⟩
      exact (covers_setAll (b.setProbe p) ps).has (has_setProbe (Nat.lt_of_lt_of_eq here full.symm))

theorem Covers.setAll (h : b.Covers c) {ps : List Probe} (set : ∀ p ∈ ps, b.Has p) :
    b.Covers (ps.foldl .setProbe c) := by
  induction ps generalizing c with
  | nil => exact h
  | cons p ps ih =>
      obtain ⟨here, later⟩ := List.forall_mem_cons.mp set
      exact ih (h.setProbe here) later

theorem isFull_accrueAll (full : b.IsFull) (inputs : List (List UInt8)) : (inputs.foldl accrue b).IsFull := by
  induction inputs generalizing b with
  | nil => exact full
  | cons input inputs ih => exact ih (isFull_setAll full _)

theorem covers_accrueAll (b : Bloom) (inputs : List (List UInt8)) : (inputs.foldl accrue b).Covers b := by
  induction inputs generalizing b with
  | nil => exact .refl b
  | cons input inputs ih => exact (ih (b.accrue input)).trans (covers_setAll b _)

/-- What was added is found, whatever was added before and after. -/
theorem has_accrueAll (full : b.IsFull) {inputs : List (List UInt8)} {input : List UInt8} (mem : input ∈ inputs) :
    ∀ p ∈ probes input, (inputs.foldl accrue b).Has p := by
  induction inputs generalizing b with
  | nil => cases mem
  | cons first inputs ih =>
      rcases List.mem_cons.mp mem with rfl | later
      · intro p among
        have set := has_setAll full (fun _ mem => byte_lt_of_mem_probes mem) p among
        exact (covers_accrueAll (b.accrue input) inputs).has set
      · exact ih (isFull_setAll full _) later

/-! ## Adding addresses -/

/-- A full filter to which each of these addresses was added, in whatever order and whatever else was added. -/
def Accrues (b : Bloom) (addresses : List String) : Prop :=
  ∃ (start : Bloom) (inputs : List (List UInt8)), start.IsFull ∧
    (∀ address ∈ addresses, addressBytes address ∈ inputs) ∧ inputs.foldl accrue start = b

variable {addresses : List String} {address spelling : String}

theorem Accrues.full (h : b.Accrues addresses) : b.IsFull := by
  obtain ⟨start, inputs, full, -, rfl⟩ := h
  exact isFull_accrueAll full inputs

theorem Accrues.has (h : b.Accrues addresses) (mem : address ∈ addresses) :
    ∀ p ∈ probes (addressBytes address), b.Has p := by
  obtain ⟨start, inputs, full, added, rfl⟩ := h
  exact has_accrueAll full (added address mem)

theorem isFull_empty : empty.IsFull :=
  List.length_replicate

/-- The filter that one address alone was added to. -/
theorem accrues_accrueAddress (address : String) : (empty.accrueAddress address).Accrues [address] :=
  ⟨empty, [addressBytes address], isFull_empty, by simp, by rw [List.foldl_cons, List.foldl_nil, accrueAddress]⟩

theorem Accrues.covers (h : b.Accrues addresses) (mem : address ∈ addresses) : b.Covers (empty.accrueAddress address) :=
  (covers_empty h.full).setAll (h.has mem)

theorem Covers.containsAddress? (h : b.Covers c) (found : c.containsAddress? address = some true) :
    b.containsAddress? address = some true :=
  hasProbes?_eq_true.mpr fun p mem => h.has (hasProbes?_eq_true.mp found p mem)

/-- An address that was added is found under every spelling that stands for the same bytes. -/
theorem Accrues.containsAddress? (h : b.Accrues addresses) (mem : address ∈ addresses)
    (same : addressBytes spelling = addressBytes address) : b.containsAddress? spelling = some true := by
  refine hasProbes?_eq_true.mpr ?_
  rw [same]
  exact h.has mem

end Bloom

end Chainwatch
