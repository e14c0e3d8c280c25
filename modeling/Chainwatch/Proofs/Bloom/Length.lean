import Chainwatch.Block.Json
import Chainwatch.Json.Reader
import Chainwatch.Node.RawLog
import Chainwatch.Proofs.Bloom.Accrual
import Chainwatch.Proofs.Store.Readback

/-!
# The length of a bloom

Filters that are made, given as bytes or digits, or served by a node have 256 bytes, and additions keep the length. A
filter that is read as a value of its own, or as a part of a record, has as many bytes as its digits give. One of 256
bytes holds every place that an input selects, and a head with it is read back from the tables that took it; a head
with any other is not.
-/

namespace Chainwatch

namespace Bloom

variable {b c : Bloom} {text : String}

/-! ## Where a filter comes from -/

/-- A way to come by a filter. -/
inductive Source where
  | empty
  | saturated
  | bytes (content : List UInt8)
  | digits (text : String)
  | served (block : Json)
  | alone (document : String)
  | ofHeader (document : String)
  | ofHead (document : String)

namespace Source

def bloom? : Source → Option Bloom
  | empty => some .empty
  | saturated => some .saturated
  | bytes content => ofBytes? content
  | digits text => ofHex? text
  | served block => (Header.ofNodeJson? block).map (·.bloom)
  | alone document => (Json.read document).bind ofJson?
  | ofHeader document => ((Json.read document).bind ofJson?).map Header.bloom
  | ofHead document => ((Json.read document).bind ofJson?).map Head.bloom

/-- The text in the place of the bloom, of a record with these part names. -/
def part? (names : List String) (j : Json) : Option String :=
  ((Json.Record.ofJson? names j).bind (·.parts.lookup "bloom")).bind Json.text?

/-- The text that is read as a filter of any length, where one is. -/
def unmeasured? : Source → Option String
  | empty | saturated | bytes _ | digits _ | served _ => none
  | alone document => (Json.read document).bind Json.text?
  | ofHeader document => (Json.read document).bind (part? ["number", "hash", "parent_hash", "timestamp", "bloom"])
  | ofHead document =>
    (Json.read document).bind (part? ["chain_id", "number", "hash", "parent_hash", "state", "timestamp", "bloom"])

/-- What is read as a filter of any length gives 256 bytes. -/
def IsWhole (source : Source) : Prop :=
  ∀ text ∈ source.unmeasured?, (ofHex? text).isSome

end Source

/-! ## Measured filters -/

theorem isFull_saturated : saturated.IsFull :=
  List.length_replicate

theorem isFull_of_ofBytes? {content : List UInt8} (given : ofBytes? content = some b) : b.IsFull := by
  unfold ofBytes? at given
  split at given <;> cases given
  assumption

theorem isFull_of_ofHex? (given : ofHex? text = some b) : b.IsFull := by
  unfold ofHex? at given
  split at given
  · exact isFull_of_ofBytes? given
  · cases given

/-- A node serves a filter of the right length, or it counts as saturated. -/
theorem isFull_of_ofNodeJson? {block : Json} {header : Header} (served : Header.ofNodeJson? block = some header) :
    header.bloom.IsFull := by
  simp only [Header.ofNodeJson?, Option.bind_eq_bind, Option.bind_eq_some_iff, Option.pure_def, Option.some.injEq]
    at served
  obtain ⟨-, -, -, -, -, -, -, -, -, -, -, -, rfl⟩ := served
  dsimp only
  cases read : ((block.member? "logsBloom").bind Json.text?).bind ofHex? with
  | none => exact isFull_saturated
  | some bloom =>
      obtain ⟨text, -, digits⟩ := Option.bind_eq_some_iff.mp read
      exact isFull_of_ofHex? digits

/-! ## Filters of any length -/

theorem isFull_iff_of_ofAnyHex? (read : ofAnyHex? text = some b) : b.IsFull ↔ (ofHex? text).isSome := by
  unfold ofAnyHex? at read
  unfold ofHex?
  cases digits : Text.Hex.decodeText text with
  | error fault =>
      rw [digits] at read
      cases read
  | ok content =>
      rw [digits] at read
      cases read
      unfold ofBytes? IsFull
      split <;> simp_all

theorem ofAnyHex?_of_get {names : List String} {j : Json} {r : Json.Record}
    (record : Json.Record.ofJson? names j = some r) (given : r.get "bloom" = some b) :
    ∃ text, Source.part? names j = some text ∧ ofAnyHex? text = some b := by
  obtain ⟨item, placed, read⟩ := Option.bind_eq_some_iff.mp given
  obtain ⟨text, written, digits⟩ := Option.bind_eq_some_iff.mp read
  refine ⟨text, ?_, digits⟩
  simp [Source.part?, record, placed, written]

theorem ofAnyHex?_of_header {j : Json} {header : Header} (read : ofJson? j = some header) :
    ∃ text, Source.part? ["number", "hash", "parent_hash", "timestamp", "bloom"] j = some text ∧
      ofAnyHex? text = some header.bloom := by
  simp only [ofJson?, Option.bind_eq_bind, Option.bind_eq_some_iff, Option.pure_def, Option.some.injEq] at read
  obtain ⟨r, record, -, -, -, -, -, -, -, -, b, given, rfl⟩ := read
  exact ofAnyHex?_of_get record given

theorem ofAnyHex?_of_head {j : Json} {head : Head} (read : ofJson? j = some head) :
    ∃ text, Source.part? ["chain_id", "number", "hash", "parent_hash", "state", "timestamp", "bloom"] j = some text ∧
      ofAnyHex? text = some head.bloom := by
  simp only [ofJson?, Option.bind_eq_bind, Option.bind_eq_some_iff, Option.pure_def, Option.some.injEq] at read
  obtain ⟨r, record, -, -, -, -, -, -, -, -, -, -, -, -, b, given, rfl⟩ := read
  exact ofAnyHex?_of_get record given

/-- A filter is measured where it comes from, or it is that of a text of any length. -/
theorem Source.measured_or_read {source : Source} (given : source.bloom? = some b) :
    source.unmeasured? = none ∧ b.IsFull ∨ ∃ text, source.unmeasured? = some text ∧ ofAnyHex? text = some b := by
  cases source with
  | empty =>
      cases given
      exact Or.inl ⟨rfl, isFull_empty⟩
  | saturated =>
      cases given
      exact Or.inl ⟨rfl, isFull_saturated⟩
  | bytes content => exact Or.inl ⟨rfl, isFull_of_ofBytes? given⟩
  | digits text => exact Or.inl ⟨rfl, isFull_of_ofHex? given⟩
  | served block =>
      obtain ⟨header, served, rfl⟩ := Option.map_eq_some_iff.mp given
      exact Or.inl ⟨rfl, isFull_of_ofNodeJson? served⟩
  | alone document =>
      obtain ⟨j, parsed, read⟩ := Option.bind_eq_some_iff.mp given
      obtain ⟨text, written, digits⟩ := Option.bind_eq_some_iff.mp read
      exact Or.inr ⟨text, by simp [unmeasured?, parsed, written], digits⟩
  | ofHeader document =>
      obtain ⟨header, read, rfl⟩ := Option.map_eq_some_iff.mp given
      obtain ⟨j, parsed, read⟩ := Option.bind_eq_some_iff.mp read
      obtain ⟨text, part, digits⟩ := ofAnyHex?_of_header read
      exact Or.inr ⟨text, by simp [unmeasured?, parsed, part], digits⟩
  | ofHead document =>
      obtain ⟨head, read, rfl⟩ := Option.map_eq_some_iff.mp given
      obtain ⟨j, parsed, read⟩ := Option.bind_eq_some_iff.mp read
      obtain ⟨text, part, digits⟩ := ofAnyHex?_of_head read
      exact Or.inr ⟨text, by simp [unmeasured?, parsed, part], digits⟩

/-- A filter has 256 bytes exactly if it was measured, or read from a text that gives them. -/
theorem Source.isFull_iff {source : Source} (given : source.bloom? = some b) : b.IsFull ↔ source.IsWhole := by
  rcases measured_or_read given with ⟨none, full⟩ | ⟨text, some, read⟩
  · simp [IsWhole, none, full]
  · simp [IsWhole, some, isFull_iff_of_ofAnyHex? read]

/-! ## Additions -/

inductive Addition where
  | input (bytes : List UInt8)
  | address (text : String)

def Addition.content : Addition → List UInt8
  | input bytes => bytes
  | address text => addressBytes text

/-- Adds one after another, up to a place past the end. -/
def addAll? (b : Bloom) (additions : List Addition) : Except Bloom Bloom :=
  additions.foldlM (fun b addition => b.accrue? addition.content) b

def setProbe? (b : Bloom) (p : Probe) : Except Bloom Bloom :=
  if p.byte < b.bytes.length then .ok (b.setProbe p) else .error b

theorem accrue?_eq_foldlM (b : Bloom) (input : List UInt8) : b.accrue? input = (probes input).foldlM setProbe? b := rfl

theorem length_setAll? {ps : List Probe} (done : ps.foldlM setProbe? b = .ok c) : c.bytes.length = b.bytes.length := by
  induction ps generalizing b with
  | nil =>
      cases done
      rfl
  | cons p ps ih =>
      rw [List.foldlM_cons, setProbe?] at done
      split at done
      · exact (ih done).trans (List.length_modify ..)
      · cases done

/-- A full filter takes all bits within it. -/
theorem setAll?_eq (full : b.IsFull) {ps : List Probe} (inside : ∀ p ∈ ps, p.byte < size) :
    ps.foldlM setProbe? b = .ok (ps.foldl setProbe b) := by
  induction ps generalizing b with
  | nil => rfl
  | cons p ps ih =>
      obtain ⟨here, later⟩ := List.forall_mem_cons.mp inside
      rw [List.foldlM_cons, setProbe?, if_pos (Nat.lt_of_lt_of_eq here full.symm)]
      exact ih (isFull_setProbe full p) later

theorem accrue?_eq (full : b.IsFull) (input : List UInt8) : b.accrue? input = .ok (b.accrue input) := by
  rw [accrue?_eq_foldlM]
  exact setAll?_eq full fun _ mem => byte_lt_of_mem_probes mem

theorem length_addAll? {additions : List Addition} (done : b.addAll? additions = .ok c) :
    c.bytes.length = b.bytes.length := by
  induction additions generalizing b with
  | nil =>
      cases done
      rfl
  | cons addition additions ih =>
      rw [addAll?, List.foldlM_cons] at done
      cases first : b.accrue? addition.content with
      | error stuck =>
          rw [first] at done
          cases done
      | ok next =>
          rw [first] at done
          exact (ih done).trans (length_setAll? (accrue?_eq_foldlM b _ ▸ first))

theorem isFull_addAll? (full : b.IsFull) (additions : List Addition) :
    ∃ c, b.addAll? additions = .ok c ∧ c.IsFull := by
  induction additions generalizing b with
  | nil => exact ⟨b, rfl, full⟩
  | cons addition additions ih =>
      rw [addAll?, List.foldlM_cons, accrue?_eq full]
      exact ih (isFull_setAll full _)

/-! ## What a full filter answers -/

theorem length_probes (input : List UInt8) : (probes input).length = 3 := by
  have digest := Digest.Keccak.length_hash input
  unfold probes
  split
  · rfl
  · rename_i short
    match digest' : Digest.Keccak.hash input with
    | a :: b :: c :: d :: e :: f :: rest => exact (short a b c d e f rest digest').elim
    | [] | [_] | [_, _] | [_, _, _] | [_, _, _, _] | [_, _, _, _, _] =>
        rw [digest'] at digest
        simp at digest

theorem faults_nil (input : List UInt8) :
    (⟨[]⟩ : Bloom).contains? input = none ∧ (⟨[]⟩ : Bloom).accrue? input = .error ⟨[]⟩ := by
  have some_probe := length_probes input
  rw [accrue?_eq_foldlM, contains?]
  match selected : probes input with
  | [] =>
      rw [selected] at some_probe
      cases some_probe
  | p :: ps => exact ⟨rfl, rfl⟩

theorem not_isFull_nil : ¬(⟨[]⟩ : Bloom).IsFull :=
  Nat.ne_of_lt (by decide : 0 < size)

/-- Whatever is looked up in the filter, added to it or kept with it, there is a result. -/
structure IsTotal (b : Bloom) : Prop where
  length : b.bytes.length = 256
  inside : ∀ input, (probes input).length = 3 ∧ ∀ p ∈ probes input, p.byte < b.bytes.length
  contains : ∀ input, ∃ found, b.contains? input = some found
  containsAddress : ∀ address, ∃ found, b.containsAddress? address = some found
  accrue : ∀ input, b.accrue? input = .ok (b.accrue input)
  accrueAddress : ∀ address, b.accrue? (addressBytes address) = .ok (b.accrueAddress address)
  readBack : b.Answered fun stored => .ok (some stored)

theorem contains?_eq_some (full : b.IsFull) (input : List UInt8) : ∃ found, b.contains? input = some found :=
  Option.isSome_iff_exists.mp (hasProbes?_isSome full fun _ mem => byte_lt_of_mem_probes mem)

theorem isTotal_iff_isFull : b.IsTotal ↔ b.IsFull := by
  constructor
  · exact fun total => total.length
  · intro full
    constructor
    case length => exact full
    case inside =>
      intro input
      refine ⟨length_probes input, fun p mem => ?_⟩
      exact Nat.lt_of_lt_of_eq (byte_lt_of_mem_probes mem) full.symm
    case contains => exact contains?_eq_some full
    case containsAddress => exact fun address => contains?_eq_some full (addressBytes address)
    case accrue => exact accrue?_eq full
    case accrueAddress => exact fun address => accrue?_eq full (addressBytes address)
    case readBack => exact answered_of_isFull full

/-- From a filter that was measured, or read from a text of 256 bytes, additions lead to filters that always give a
result. From any other they lead to none of 256 bytes, and a head with one cannot be read back. -/
theorem addAll?_isTotal {source : Source} {start : Bloom} (given : source.bloom? = some start) :
    (source.IsWhole → ∀ additions, ∃ made, start.addAll? additions = .ok made ∧ made.IsTotal) ∧
      (¬source.IsWhole → ∀ additions made, start.addAll? additions = .ok made →
        made.bytes.length ≠ 256 ∧
          made.Answered fun _ => .error (.storage ("bad bloom length " ++ toString made.bytes.length))) := by
  rw [← Source.isFull_iff given]
  constructor
  · intro full additions
    obtain ⟨made, done, still⟩ := isFull_addAll? full additions
    exact ⟨made, done, isTotal_iff_isFull.mpr still⟩
  · intro other additions made done
    have differs : ¬made.IsFull := by
      intro full
      exact other ((length_addAll? done).symm.trans full)
    exact ⟨differs, answered_of_not_isFull differs⟩

/-- The filter that is made empty, and one that is read from no digits. -/
theorem addAll?_isTotal_made_and_read :
    (∃ made, empty.addAll? [.address "0xaa", .input [1]] = .ok made ∧ made.IsTotal) ∧
      (Source.alone "\"0x\"").bloom? = some ⟨[]⟩ ∧
        (⟨[]⟩ : Bloom).Answered fun _ => .error (.storage "bad bloom length 0") := by
  have read : (Source.alone "\"0x\"").bloom? = some ⟨[]⟩ := by decide +kernel
  have short : ¬(Source.alone "\"0x\"").IsWhole := by
    rw [← Source.isFull_iff read]
    exact not_isFull_nil
  refine ⟨?_, read, ?_⟩
  · exact (addAll?_isTotal (rfl : Source.empty.bloom? = some .empty)).1 (fun _ mem => by cases mem) _
  · exact ((addAll?_isTotal read).2 short [] _ rfl).2

/-- A filter of no bytes is read from a text. It has no place for any input, and a store takes a head with it that it
cannot read back. -/
theorem alone_no_byte :
    (Source.alone "\"0x\"").bloom? = some ⟨[]⟩ ∧ ¬(⟨[]⟩ : Bloom).IsTotal ∧
      (∀ input, (⟨[]⟩ : Bloom).contains? input = none ∧ (⟨[]⟩ : Bloom).accrue? input = .error ⟨[]⟩) ∧
        let written := RelationalStore.empty.createHead { (default : Head) with bloom := ⟨[]⟩ } [] ()
        written.outcome = .ok { (default : Head) with bloom := ⟨[]⟩ } ∧
          BlockStore.head? written.store 0 0 = .error (.storage "bad bloom length 0") := by
  refine ⟨by decide +kernel, ?_, faults_nil, rfl, by decide +kernel⟩
  rw [isTotal_iff_isFull]
  exact not_isFull_nil

end Bloom

end Chainwatch
