import Chainwatch.Json

/-!
# Writing JSON

Values are laid out over lines, two blanks deeper for each level, with the members of an object in
the order of their names.
-/

namespace Chainwatch.Json

namespace Writer

def escape (c : Char) : List Char :=
  match c with
  | '"' => ['\\', '"']
  | '\\' => ['\\', '\\']
  | '\x08' => ['\\', 'b']
  | '\x0c' => ['\\', 'f']
  | '\n' => ['\\', 'n']
  | '\r' => ['\\', 'r']
  | '\t' => ['\\', 't']
  | c =>
    if c.toNat < 32 then
      ['\\', 'u', '0', '0', Nat.digitChar (c.toNat / 16), Nat.digitChar (c.toNat % 16)]
    else [c]

def quote (s : String) : String :=
  String.ofList (['"'] ++ s.toList.flatMap escape ++ ['"'])

/-- A line break and the blanks of a level. -/
def newline (level : Nat) : String :=
  String.ofList ('\n' :: List.replicate (2 * level) ' ')

def block (opening closing : String) (level : Nat) (items : List String) : String :=
  if items.isEmpty then opening ++ closing
  else
    opening ++ newline (level + 1)
      ++ String.intercalate ("," ++ newline (level + 1)) items
      ++ newline level ++ closing

def sorted (members : List (String × String)) : List (String × String) :=
  members.mergeSort fun a b => decide (a.1 ≤ b.1)

mutual

/-- Lays out a value that starts at a level. -/
def layout (level : Nat) : Json → String
  | .null => "null"
  | .bool b => if b then "true" else "false"
  | .integer n => toString n
  | .real => "0.0"
  | .string s => quote s
  | .array items => block "[" "]" level (layoutItems (level + 1) items)
  | .object members =>
    block "\x7b" "\x7d" level
      ((sorted (layoutMembers (level + 1) members)).map fun (key, text) => quote key ++ ": " ++ text)
  | .unpaired => "null"

def layoutItems (level : Nat) : List Json → List String
  | [] => []
  | item :: rest => layout level item :: layoutItems level rest

def layoutMembers (level : Nat) : List (Key × Json) → List (String × String)
  | [] => []
  | (key, item) :: rest => (key.text, layout level item) :: layoutMembers level rest

end

end Writer

def pretty (j : Json) : String :=
  Writer.layout 0 j

end Chainwatch.Json
