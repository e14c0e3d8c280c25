import Chainwatch.Text.Hex

/-!
# Numerals of 64 bits

Digits of a radix, with at most one plus sign before them, denote a number below `2 ^ 64`. Reading
goes from the left and stops at the first fault: a character that is no digit, or a digit that
brings the value to `2 ^ 64` or more.
-/

namespace Chainwatch.Text.Numeral

inductive Fault where
  | empty
  | badDigit
  | tooLarge
  deriving DecidableEq, Repr

def Fault.message : Fault → String
  | .empty => "cannot parse integer from empty string"
  | .badDigit => "invalid digit found in string"
  | .tooLarge => "number too large to fit in target type"

/-- The value of a character as a digit of `radix`, which is at most sixteen. -/
def digit? (radix : Nat) (c : Char) : Option Nat :=
  let value :=
    if '0' ≤ c ∧ c ≤ '9' then some (c.toNat - 48)
    else if 'a' ≤ c ∧ c ≤ 'f' then some (c.toNat - 87)
    else if 'A' ≤ c ∧ c ≤ 'F' then some (c.toNat - 55)
    else none
  value.filter (· < radix)

/-- Reads digits onto `acc`. -/
def readDigits (radix : Nat) : Nat → List Char → Except Fault Nat
  | acc, [] => .ok acc
  | acc, c :: rest =>
    match digit? radix c with
    | none => .error .badDigit
    | some d =>
      if acc * radix + d < UInt64.size then readDigits radix (acc * radix + d) rest
      else .error .tooLarge

def read (radix : Nat) : List Char → Except Fault UInt64
  | [] => .error .empty
  | ['+'] => .error .badDigit
  | '+' :: rest => (readDigits radix 0 rest).map UInt64.ofNat
  | cs => (readDigits radix 0 cs).map UInt64.ofNat

/-- Reads a decimal numeral in its shortest form: no sign, and no zero before other digits. -/
def readShortest : List Char → Option UInt64
  | [] => none
  | '0' :: _ :: _ => none
  | cs => (readDigits 10 0 cs).toOption.map UInt64.ofNat

/-- The digits of `n` in hexadecimal, at least `width` of them. -/
def hex (width n : Nat) : String :=
  let ds := (Nat.toDigits 16 n)
  String.ofList (List.replicate (width - ds.length) '0' ++ ds)

end Chainwatch.Text.Numeral
