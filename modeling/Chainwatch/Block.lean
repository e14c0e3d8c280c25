import Chainwatch.Bloom
import Chainwatch.Text.Ascii

/-!
# Blocks and events

Headers and logs are what a node serves; heads and events are what a store keeps of them. A head is
unique on its chain by number and by hash, and an event belongs to one head, from which it takes
chain, number, hash and state.
-/

namespace Chainwatch

/-- How far a block has come, and its events with it. -/
inductive BlockState where
  | unset
  /-- Observed, and nothing watched can be in it. -/
  | skipped
  | seen
  | confirmed
  | removed
  deriving DecidableEq, Repr, Inhabited

namespace BlockState

def all : List BlockState := [unset, skipped, seen, confirmed, removed]

def code : BlockState → Int
  | unset => 0
  | skipped => 1
  | seen => 2
  | confirmed => 3
  | removed => 4

def ofCode? (code : Int) : Option BlockState :=
  all.find? (·.code == code)

def name : BlockState → String
  | unset => "unset"
  | skipped => "skipped"
  | seen => "seen"
  | confirmed => "confirmed"
  | removed => "removed"

def ofName? (s : String) : Option BlockState :=
  all.find? (·.name == s)

/-- The state named by a text in letters of any case. -/
def parse (s : String) : Except String BlockState :=
  match ofName? (Text.lower s) with
  | some state => .ok state
  | none => .error ("unknown block state: " ++ Text.lower s)

end BlockState

/-- A block header as a node serves it. -/
structure Header where
  number : UInt64
  hash : String
  parentHash : String
  timestamp : UInt64
  bloom : Bloom
  deriving DecidableEq, Repr, Inhabited

structure Log where
  address : String
  topics : List String
  data : List UInt8
  blockNumber : UInt64
  blockHash : String
  txHash : String
  txIndex : UInt32
  logIndex : UInt32
  removed : Bool
  deriving DecidableEq, Repr, Inhabited

structure Block where
  header : Header
  logs : List Log
  deriving DecidableEq, Repr, Inhabited

structure Head where
  chain : UInt64
  number : UInt64
  hash : String
  parentHash : String
  state : BlockState
  timestamp : UInt64
  bloom : Bloom
  deriving DecidableEq, Repr, Inhabited

namespace Head

def ofHeader (chain : UInt64) (header : Header) (state : BlockState) : Head where
  chain := chain
  number := header.number
  hash := header.hash
  parentHash := header.parentHash
  state := state
  timestamp := header.timestamp
  bloom := header.bloom

def withState (head : Head) (state : BlockState) : Head :=
  { head with state }

def describe (head : Head) : String :=
  "head " ++ toString head.number ++ " (" ++ head.state.name ++ ")"

end Head

structure Event where
  chain : UInt64
  blockNumber : UInt64
  blockHash : String
  state : BlockState
  address : String
  topics : List String
  data : List UInt8
  txHash : String
  txIndex : UInt32
  logIndex : UInt32
  removed : Bool
  deriving DecidableEq, Repr, Inhabited

namespace Event

def ofLog (chain : UInt64) (state : BlockState) (log : Log) : Event where
  chain := chain
  blockNumber := log.blockNumber
  blockHash := log.blockHash
  state := state
  address := log.address
  topics := log.topics
  data := log.data
  txHash := log.txHash
  txIndex := log.txIndex
  logIndex := log.logIndex
  removed := log.removed

def signature? (event : Event) : Option String :=
  event.topics.head?

/-- The event with what it takes from the block that owns it. -/
def mergeWith (event : Event) (block : Head) : Event :=
  { event with
    chain := block.chain
    blockNumber := block.number
    blockHash := block.hash
    state := block.state }

def describe (event : Event) : String :=
  "event " ++ toString event.blockNumber ++ "#" ++ toString event.logIndex ++ " ("
    ++ event.state.name ++ ")"

end Event

end Chainwatch
