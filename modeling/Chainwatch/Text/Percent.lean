import Chainwatch.Text.Ascii
import Chainwatch.Text.Hex

/-!
# Percent escapes

A byte of a text may be written as a percent sign and two hexadecimal digits. Reading puts each byte
in the place of its escape, and leaves a percent sign that opens none as it stands. The bytes that
result have to be UTF-8.
-/

namespace Chainwatch.Text.Percent

def escaped? (mark high low : UInt8) : Option UInt8 := do
  if mark ≠ 37 then none
  let h ← Hex.digit? high
  let l ← Hex.digit? low
  return h * 16 + l

/-- The bytes with every escape read, from the left. -/
def decodeBytes : List UInt8 → List UInt8
  | mark :: high :: low :: rest =>
    match escaped? mark high low with
    | some byte => byte :: decodeBytes rest
    | none => mark :: decodeBytes (high :: low :: rest)
  | bytes => bytes

def decode? (s : String) : Option String :=
  String.fromUTF8? ⟨(decodeBytes (utf8 s)).toArray⟩

end Chainwatch.Text.Percent
