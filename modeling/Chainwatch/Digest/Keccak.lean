/-!
# Keccak-256

The sponge over the 1600-bit permutation with a rate of 136 bytes and the first padding byte `0x01`.
Lane `(x, y)` of the state stands at index `x + 5 * y`.
-/

namespace Chainwatch.Digest.Keccak

abbrev State := Vector UInt64 25

/-- The lane at `(x, y)`, coordinates taken modulo five. -/
def State.lane (s : State) (x y : Nat) : UInt64 :=
  s.get ⟨x % 5 + 5 * (y % 5), by omega⟩

def State.ofLanes (f : Nat → Nat → UInt64) : State :=
  Vector.ofFn fun i => f (i.val % 5) (i.val / 5)

def rotate (w : UInt64) (n : UInt64) : UInt64 :=
  (w <<< n) ||| (w >>> (64 - n))

def offsets : Vector UInt64 25 :=
  #v[0, 1, 62, 28, 27, 36, 44, 6, 55, 20, 3, 10, 43, 25, 39, 41, 45, 15, 21, 8, 18, 2, 61, 56, 14]

/-- The constant that each round adds to the first lane. -/
def roundConstants : List UInt64 :=
  [0x0000000000000001, 0x0000000000008082, 0x800000000000808a, 0x8000000080008000,
    0x000000000000808b, 0x0000000080000001, 0x8000000080008081, 0x8000000000008009,
    0x000000000000008a, 0x0000000000000088, 0x0000000080008009, 0x000000008000000a,
    0x000000008000808b, 0x800000000000008b, 0x8000000000008089, 0x8000000000008003,
    0x8000000000008002, 0x8000000000000080, 0x000000000000800a, 0x800000008000000a,
    0x8000000080008081, 0x8000000000008080, 0x0000000080000001, 0x8000000080008008]

def mixColumns (s : State) : State :=
  let parity : Vector UInt64 5 := Vector.ofFn fun x =>
    s.lane x.val 0 ^^^ s.lane x.val 1 ^^^ s.lane x.val 2 ^^^ s.lane x.val 3 ^^^ s.lane x.val 4
  let column (x : Nat) : UInt64 := parity.get ⟨x % 5, by omega⟩
  .ofLanes fun x y => s.lane x y ^^^ column (x + 4) ^^^ rotate (column (x + 1)) 1

def moveLanes (s : State) : State :=
  .ofLanes fun x y => rotate (s.lane (x + 3 * y) x) (State.lane offsets (x + 3 * y) x)

/-- Combines the lanes of a row without linearity. -/
def combineRows (s : State) : State :=
  .ofLanes fun x y => s.lane x y ^^^ ((~~~ s.lane (x + 1) y) &&& s.lane (x + 2) y)

def round (s : State) (constant : UInt64) : State :=
  let s := combineRows (moveLanes (mixColumns s))
  s.set 0 (s[0] ^^^ constant)

/-- The permutation of 24 rounds. -/
def permute (s : State) : State :=
  roundConstants.foldl round s

def word (bytes : List UInt8) : UInt64 :=
  bytes.foldr (fun b acc => (acc <<< 8) ||| b.toUInt64) 0

/-- The lowest `n` bytes of a word, least byte first. -/
def bytesOf : Nat → UInt64 → List UInt8
  | 0, _ => []
  | n + 1, w => w.toUInt8 :: bytesOf n (w >>> 8)

def rate : Nat := 136

/-- The message with its padding: a whole number of blocks. -/
def pad (message : List UInt8) : List UInt8 :=
  let room := rate - message.length % rate
  if room = 1 then message ++ [0x81]
  else message ++ [0x01] ++ List.replicate (room - 2) 0 ++ [0x80]

/-- Takes in `blocks` blocks of the padded message. -/
def absorb : Nat → List UInt8 → State → State
  | 0, _, s => s
  | blocks + 1, bytes, s =>
    let block := (bytes.take rate).toArray
    let mixed := State.ofLanes fun x y =>
      let i := x + 5 * y
      s.lane x y ^^^ word (block.extract (8 * i) (8 * i + 8)).toList
    absorb blocks (bytes.drop rate) (permute mixed)

def hash (message : List UInt8) : List UInt8 :=
  let padded := pad message
  let s := absorb (padded.length / rate) padded (Vector.replicate 25 0)
  bytesOf 8 s[0] ++ bytesOf 8 s[1] ++ bytesOf 8 s[2] ++ bytesOf 8 s[3]

theorem length_bytesOf (n : Nat) (w : UInt64) : (bytesOf n w).length = n := by
  induction n generalizing w with
  | zero => rfl
  | succ n ih => simp [bytesOf, ih]

theorem length_hash (message : List UInt8) : (hash message).length = 32 := by
  simp [hash, length_bytesOf]

end Chainwatch.Digest.Keccak
