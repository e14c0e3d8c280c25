import Chainwatch.Text.Ascii
import Chainwatch.Text.Quoted

/-!
# Hexadecimal bytes

Byte strings are written as two small hexadecimal digits a byte, often behind the mark `0x`. Reading
takes digits of either case. Faults are found in the order: an odd number of digits, then the first
character that is no digit.
-/

namespace Chainwatch.Text.Hex

inductive Fault where
  | oddLength
  /-- The byte at `index` is no hexadecimal digit. -/
  | badDigit (byte : UInt8) (index : Nat)
  deriving DecidableEq, Repr

/-- The fault in words; a byte is quoted as the character of that code. -/
def Fault.message : Fault → String
  | .oddLength => "Odd number of digits"
  | .badDigit byte index =>
    "Invalid character " ++ Quoted.encodeChar (Char.ofNat byte.toNat) ++ " at position "
      ++ toString index

def digit? (b : UInt8) : Option UInt8 :=
  if 48 ≤ b ∧ b ≤ 57 then some (b - 48)
  else if 97 ≤ b ∧ b ≤ 102 then some (b - 87)
  else if 65 ≤ b ∧ b ≤ 70 then some (b - 55)
  else none

/-- Reads pairs of digits; `index` counts the digits before them. -/
def decodePairs : Nat → List UInt8 → Except Fault (List UInt8)
  | _, [] => .ok []
  | _, [_] => .error .oddLength
  | index, high :: low :: rest =>
    match digit? high, digit? low with
    | none, _ => .error (.badDigit high index)
    | some _, none => .error (.badDigit low (index + 1))
    | some h, some l => (decodePairs (index + 2) rest).map ((h * 16 + l) :: ·)

def decode (digits : List UInt8) : Except Fault (List UInt8) :=
  if digits.length % 2 = 1 then .error .oddLength else decodePairs 0 digits

/-- The text without one leading `0x`. -/
def unmarked (s : String) : List Char :=
  match s.toList with
  | '0' :: 'x' :: rest => rest
  | cs => cs

def decodeText (s : String) : Except Fault (List UInt8) :=
  decode ((unmarked s).flatMap String.utf8EncodeChar)

def digitChar (n : Nat) : Char :=
  if n < 10 then Char.ofNat (48 + n) else Char.ofNat (87 + n)

def digits (bytes : List UInt8) : List Char :=
  bytes.flatMap fun b => [digitChar (b.toNat / 16), digitChar (b.toNat % 16)]

def encode (bytes : List UInt8) : String :=
  String.ofList (digits bytes)

def encodeMarked (bytes : List UInt8) : String :=
  String.ofList ('0' :: 'x' :: digits bytes)

end Chainwatch.Text.Hex
