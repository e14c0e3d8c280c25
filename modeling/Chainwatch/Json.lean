/-!
# JSON values

Settings, policies and records are kept as JSON. Numbers other than whole ones occur in none of them
and are told apart no further; an object keeps its members in the order and as often as they are
written.
-/

namespace Chainwatch

structure Json.Key where
  text : String
  /-- Whether it is written without escapes. Only such a name can stand for a number. -/
  plain : Bool := true
  deriving DecidableEq, Repr, Inhabited

instance : Coe String Json.Key := ⟨fun text => { text }⟩

inductive Json where
  | null
  | bool (value : Bool)
  | integer (value : Int)
  | real
  | string (text : String)
  | array (items : List Json)
  | object (members : List (Json.Key × Json))
  | unpaired
  deriving Repr, Inhabited

/-- A type whose values are written as JSON and read back. -/
class Coded (α : Type) where
  toJson : α → Json
  ofJson? : Json → Option α

export Coded (toJson ofJson?)

namespace Json

def natBelow? (bound : Nat) : Json → Option Nat
  | .integer (.ofNat n) => if n < bound then some n else none
  | _ => none

instance : Coded UInt64 where
  toJson n := .integer n.toNat
  ofJson? j := (j.natBelow? UInt64.size).map UInt64.ofNat

instance : Coded UInt32 where
  toJson n := .integer n.toNat
  ofJson? j := (j.natBelow? UInt32.size).map UInt32.ofNat

instance : Coded UInt8 where
  toJson n := .integer n.toNat
  ofJson? j := (j.natBelow? UInt8.size).map UInt8.ofNat

instance : Coded Bool where
  toJson := .bool
  ofJson?
    | .bool b => some b
    | _ => none

instance : Coded String where
  toJson := .string
  ofJson?
    | .string s => some s
    | _ => none

instance [Coded α] : Coded (List α) where
  toJson xs := .array (xs.map toJson)
  ofJson?
    | .array items => items.mapM ofJson?
    | _ => none

instance [Coded α] : Coded (Option α) where
  toJson
    | none => .null
    | some a => toJson a
  ofJson?
    | .null => some none
    | j => (ofJson? j).map some

def named (members : List (Key × Json)) : List (String × Json) :=
  members.map fun (key, item) => (key.text, item)

def member? (j : Json) (name : String) : Option Json :=
  match j with
  | .object members => (named members).lookup name
  | _ => none

def text? : Json → Option String
  | .string s => some s
  | _ => none

/-- Reads one of the names of a finite type: as a string, or as an object whose only member has this
name and no content. -/
def name? (ofName? : String → Option α) : Json → Option α
  | .string s => ofName? s
  | .object [(key, .null)] => ofName? key.text
  | _ => none

end Json

/-- The parts of a record that were given. -/
structure Json.Record where
  positional : Bool
  parts : List (String × Json)

namespace Json.Record

/-- The parts of a record with these part names. They are the members of an object, where a known
name may occur once only, or the items of an array, of which there may not be more than names. -/
def ofJson? (names : List String) : Json → Option Record
  | .object members =>
    if names.all (fun name => (members.filter (·.1.text == name)).length ≤ 1) then
      some ⟨false, named members⟩
    else none
  | .array items => if items.length ≤ names.length then some ⟨true, names.zip items⟩ else none
  | _ => none

def get [Coded α] (r : Record) (name : String) : Option α :=
  (r.parts.lookup name).bind Chainwatch.ofJson?

def getOptional [Coded α] (r : Record) (name : String) : Option (Option α) :=
  match r.parts.lookup name with
  | none => if r.positional then none else some none
  | some j => Chainwatch.ofJson? j

def getD [Coded α] (r : Record) (name : String) (default : α) : Option α :=
  match r.parts.lookup name with
  | none => some default
  | some j => Chainwatch.ofJson? j

end Json.Record

end Chainwatch
