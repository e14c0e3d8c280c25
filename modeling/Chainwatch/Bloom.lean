import Chainwatch.Digest.Keccak
import Chainwatch.Text.Hex

/-!
# Logs bloom

The 2048-bit filter in every block header. An input selects three bits by the low eleven bits of the
first three byte pairs of its digest; bit `i` is bit `i % 8` of the byte `i / 8` places before the
last. A filter read from outside may be shorter than 256 bytes: a probe past its end is a fault.
-/

namespace Chainwatch

/-- A logs bloom. -/
structure Bloom where
  bytes : List UInt8
  deriving DecidableEq, Repr

namespace Bloom

def size : Nat := 256

def empty : Bloom := ⟨List.replicate size 0⟩

/-- The filter with every bit set, which rules nothing out. -/
def saturated : Bloom := ⟨List.replicate size 0xff⟩

instance : Inhabited Bloom := ⟨empty⟩

def ofBytes? (bytes : List UInt8) : Option Bloom :=
  if bytes.length = size then some ⟨bytes⟩ else none

/-- The filter written in hexadecimal digits, with or without `0x`, if they give 256 bytes. -/
def ofHex? (s : String) : Option Bloom :=
  match Text.Hex.decodeText s with
  | .ok bytes => ofBytes? bytes
  | .error _ => none

def toHex (b : Bloom) : String :=
  Text.Hex.encodeMarked b.bytes

def describe (b : Bloom) : String :=
  "Bloom(" ++ b.toHex ++ ")"

def ofAnyHex? (s : String) : Option Bloom :=
  match Text.Hex.decodeText s with
  | .ok bytes => some ⟨bytes⟩
  | .error _ => none

def isEmpty (b : Bloom) : Bool :=
  b.bytes.all (· == 0)

structure Probe where
  byte : Nat
  mask : UInt8
  deriving DecidableEq, Repr

/-- The place of the bit that two bytes of a digest select in a filter of 256 bytes. -/
def probe (high low : UInt8) : Probe :=
  let bit := (high.toNat * 256 + low.toNat) % 2048
  ⟨size - 1 - bit / 8, 1 <<< UInt8.ofNat (bit % 8)⟩

/-- The three places that an input selects. -/
def probes (input : List UInt8) : List Probe :=
  match Digest.Keccak.hash input with
  | a :: b :: c :: d :: e :: f :: _ => [probe a b, probe c d, probe e f]
  | _ => []

def setProbe (b : Bloom) (p : Probe) : Bloom :=
  ⟨b.bytes.modify p.byte (· ||| p.mask)⟩

def accrue (b : Bloom) (input : List UInt8) : Bloom :=
  (probes input).foldl setProbe b

/-- Adds an input as far as the filter reaches: at a place past the end it stops with an error that
holds the filter so far. -/
def accrue? (b : Bloom) (input : List UInt8) : Except Bloom Bloom :=
  (probes input).foldlM (fun b p => if p.byte < b.bytes.length then .ok (b.setProbe p) else .error b) b

/-- Whether the bits at these places are set, looked up in turn up to the first that is not; `none`
if one of those looked up lies past the end. -/
def hasProbes? (b : Bloom) : List Probe → Option Bool
  | [] => some true
  | p :: rest =>
    match b.bytes[p.byte]? with
    | none => none
    | some byte => if byte &&& p.mask = p.mask then b.hasProbes? rest else some false

def contains? (b : Bloom) (input : List UInt8) : Option Bool :=
  b.hasProbes? (probes input)

/-- The bytes that stand for a textual address: those its digits denote, or else those of the text
itself. -/
def addressBytes (address : String) : List UInt8 :=
  match Text.Hex.decodeText address with
  | .ok bytes => bytes
  | .error _ => Text.utf8 address

def accrueAddress (b : Bloom) (address : String) : Bloom :=
  b.accrue (addressBytes address)

/-- Whether a textual address may have been added; `none` at a place past the end. -/
def containsAddress? (b : Bloom) (address : String) : Option Bool :=
  b.contains? (addressBytes address)

/-- Whether one of these addresses may have been added, looked up in turn up to the first that may;
`none` at a place past the end. -/
def containsAny? (b : Bloom) : List String → Option Bool
  | [] => some false
  | address :: rest =>
    match b.containsAddress? address with
    | some false => b.containsAny? rest
    | found => found

def bits (b : Bloom) : List Nat :=
  (b.bytes.reverse.zipIdx).flatMap fun (byte, place) =>
    (List.range 8).filterMap fun i =>
      if byte.toNat.testBit i then some (8 * place + i) else none

end Bloom

end Chainwatch
