import Chainwatch.Text.Hidden

/-!
# Quoted text

A text in an error message stands between double quotes, and a single character between single ones.
The quote in use, the backslash and four controls have a short escape, and every other character that
shows nothing by itself is written by its code.
-/

namespace Chainwatch.Text.Quoted

/-- The written form of one character between quotes of this kind. -/
def escape (quote c : Char) : List Char :=
  if c = quote then ['\\', c]
  else match c with
    | '\\' => ['\\', '\\']
    | '\n' => ['\\', 'n']
    | '\r' => ['\\', 'r']
    | '\t' => ['\\', 't']
    | '\x00' => ['\\', '0']
    | c =>
      if isHidden c then ['\\', 'u', '\x7b'] ++ Nat.toDigits 16 c.toNat ++ ['\x7d']
      else [c]

def encode (s : String) : String :=
  String.ofList (['"'] ++ s.toList.flatMap (escape '"') ++ ['"'])

def encodeChar (c : Char) : String :=
  String.ofList (['\x27'] ++ escape '\x27' c ++ ['\x27'])

end Chainwatch.Text.Quoted
