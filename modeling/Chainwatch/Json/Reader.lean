import Chainwatch.Json
import Chainwatch.Text.Numeral

/-!
# Reading JSON

A text is read as one value between blanks. Numbers have no leading zeros, strings no bare control
characters, and lists no comma at their end. A string with half of a surrogate pair is accepted as
such, since it does no harm where it is not looked at.
-/

namespace Chainwatch.Json.Reader

def skipBlanks (cs : List Char) : List Char :=
  cs.dropWhile fun c => c == ' ' || c == '\n' || c == '\t' || c == '\r'

def word (w : List Char) (cs : List Char) : Option (List Char) :=
  if w.isPrefixOf cs then some (cs.drop w.length) else none

def hex4 : List Char → Option (Nat × List Char)
  | a :: b :: c :: d :: rest => do
    let a ← Text.Numeral.digit? 16 a
    let b ← Text.Numeral.digit? 16 b
    let c ← Text.Numeral.digit? 16 c
    let d ← Text.Numeral.digit? 16 d
    some (((a * 16 + b) * 16 + c) * 16 + d, rest)
  | _ => none

def shortEscape? : Char → Option Char
  | '"' => some '"'
  | '\\' => some '\\'
  | '/' => some '/'
  | 'b' => some '\x08'
  | 'f' => some '\x0c'
  | 'n' => some '\n'
  | 'r' => some '\r'
  | 't' => some '\t'
  | _ => none

def isHigh (unit : Nat) : Bool := 0xd800 ≤ unit && unit < 0xdc00

def isLow (unit : Nat) : Bool := 0xdc00 ≤ unit && unit < 0xe000

/-- Reads the rest of a string, behind its opening quote. The result is `none` if the string holds
half of a surrogate pair. -/
def string : Nat → List Char → Option (Option (List Char) × List Char)
  | 0, _ => none
  | fuel + 1, cs =>
    let add (c : Char) (rest : List Char) : Option (Option (List Char) × List Char) :=
      (string fuel rest).map fun (tail, rest) => (tail.map (c :: ·), rest)
    match cs with
    | [] => none
    | '"' :: rest => some (some [], rest)
    | '\\' :: 'u' :: rest => do
      let (unit, rest) ← hex4 rest
      if isHigh unit then
        match rest with
        | '\\' :: 'u' :: after =>
          let (second, after) ← hex4 after
          if isLow second then
            add (Char.ofNat (0x10000 + (unit - 0xd800) * 0x400 + (second - 0xdc00))) after
          else
            let (_, rest) ← string fuel rest
            some (none, rest)
        | _ =>
          let (_, rest) ← string fuel rest
          some (none, rest)
      else if isLow unit then
        let (_, rest) ← string fuel rest
        some (none, rest)
      else add (Char.ofNat unit) rest
    | '\\' :: c :: rest => do
      let c ← shortEscape? c
      add c rest
    | c :: rest => if c.toNat < 32 then none else add c rest

def digits (cs : List Char) : Option (List Char × List Char) :=
  match cs.takeWhile Char.isDigit with
  | [] => none
  | ds => some (ds, cs.dropWhile Char.isDigit)

def value (ds : List Char) : Nat :=
  ds.foldl (fun acc d => acc * 10 + (d.toNat - 48)) 0

def fraction : List Char → Option (Bool × List Char)
  | '.' :: rest => (digits rest).map fun (_, rest) => (true, rest)
  | cs => some (false, cs)

def exponent : List Char → Option (Bool × List Char)
  | e :: rest =>
    if e == 'e' || e == 'E' then
      let unsigned := match rest with
        | '+' :: more => more
        | '-' :: more => more
        | more => more
      (digits unsigned).map fun (_, rest) => (true, rest)
    else some (false, e :: rest)
  | [] => some (false, [])

def number (negative : Bool) (cs : List Char) : Option (Json × List Char) := do
  let (whole, rest) ← digits cs
  if 1 < whole.length && whole.head? == some '0' then none
  let (hasFraction, rest) ← fraction rest
  let (hasExponent, rest) ← exponent rest
  let n := value whole
  if hasFraction || hasExponent || (negative && n == 0) then some (.real, rest)
  else some (.integer (if negative then -(n : Int) else n), rest)

mutual

def readValue : Nat → List Char → Option (Json × List Char)
  | 0, _ => none
  | fuel + 1, cs =>
    match skipBlanks cs with
    | 'n' :: rest => (word ['u', 'l', 'l'] rest).map fun rest => (.null, rest)
    | 't' :: rest => (word ['r', 'u', 'e'] rest).map fun rest => (.bool true, rest)
    | 'f' :: rest => (word ['a', 'l', 's', 'e'] rest).map fun rest => (.bool false, rest)
    | '"' :: rest => (string (rest.length + 1) rest).map fun (text, rest) =>
      match text with
      | some cs => (.string (String.ofList cs), rest)
      | none => (.unpaired, rest)
    | '-' :: rest => number true rest
    | '[' :: rest =>
      match skipBlanks rest with
      | ']' :: rest => some (.array [], rest)
      | rest => (readItems fuel rest).map fun (items, rest) => (.array items, rest)
    | '{' :: rest =>
      match skipBlanks rest with
      | '}' :: rest => some (.object [], rest)
      | rest => (readMembers fuel rest).map fun (members, rest) =>
        match members with
        | some members => (.object members, rest)
        | none => (.unpaired, rest)
    | cs => number false cs

def readItems : Nat → List Char → Option (List Json × List Char)
  | 0, _ => none
  | fuel + 1, cs => do
    let (item, rest) ← readValue fuel cs
    match skipBlanks rest with
    | ',' :: rest =>
      let (items, rest) ← readItems fuel rest
      some (item :: items, rest)
    | ']' :: rest => some ([item], rest)
    | _ => none

/-- Reads the members of an object up to its end; `none` stands for members among which one has
half of a surrogate pair in its key. -/
def readMembers : Nat → List Char → Option ((Option (List (Key × Json))) × List Char)
  | 0, _ => none
  | fuel + 1, cs => do
    let .cons '"' rest := skipBlanks cs | none
    let plain := (rest.takeWhile (· != '"')).all (· != '\\')
    let (key, rest) ← string (rest.length + 1) rest
    let .cons ':' rest := skipBlanks rest | none
    let (item, rest) ← readValue fuel rest
    let member := key.map fun key => (⟨String.ofList key, plain⟩, item)
    match skipBlanks rest with
    | ',' :: rest =>
      let (members, rest) ← readMembers fuel rest
      some (member.bind fun m => members.map (m :: ·), rest)
    | '}' :: rest => some (member.map ([·]), rest)
    | _ => none

end

end Chainwatch.Json.Reader

namespace Chainwatch.Json

def read (text : String) : Option Json := do
  let cs := text.toList
  let (value, rest) ← Reader.readValue (2 * cs.length + 2) cs
  if (Reader.skipBlanks rest).isEmpty then some value else none

end Chainwatch.Json
