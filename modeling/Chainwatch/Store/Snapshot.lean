import Chainwatch.Json.Reader
import Chainwatch.Json.Writer
import Chainwatch.Store.Relational

/-!
# Snapshots

A database file holds the tables of a relational store: a line that marks it, and the rows as JSON.
A file of at most one byte is a database in which nothing was written yet.
-/

namespace Chainwatch

instance : Coded Nat where
  toJson n := .integer n
  ofJson?
    | .integer (.ofNat n) => some n
    | _ => none

/-- A signed number, kept as the unsigned one of the same bits. -/
instance : Coded Int64 where
  toJson n := toJson n.toUInt64
  ofJson? j := (ofJson? j).map UInt64.toInt64

instance : Coded BlockRow where
  toJson row := .array
    [toJson row.id, toJson row.chain, toJson row.number, toJson row.hash, toJson row.parentHash,
      .integer row.state, toJson row.timestamp, toJson row.bloom]
  ofJson?
    | .array [id, chain, number, hash, parentHash, .integer state, timestamp, bloom] => do
      return {
        id := ← ofJson? id
        chain := ← ofJson? chain
        number := ← ofJson? number
        hash := ← ofJson? hash
        parentHash := ← ofJson? parentHash
        state := state
        timestamp := ← ofJson? timestamp
        bloom := ← ofJson? bloom }
    | _ => none

instance : Coded EventRow where
  toJson row := .array
    [toJson row.blockId, toJson row.address, toJson row.topics, toJson row.signature,
      toJson row.data, toJson row.txHash, toJson row.txIndex, toJson row.logIndex,
      toJson row.removed]
  ofJson?
    | .array [blockId, address, topics, signature, data, txHash, txIndex, logIndex, removed] => do
      return {
        blockId := ← ofJson? blockId
        address := ← ofJson? address
        topics := ← ofJson? topics
        signature := ← ofJson? signature
        data := ← ofJson? data
        txHash := ← ofJson? txHash
        txIndex := ← ofJson? txIndex
        logIndex := ← ofJson? logIndex
        removed := ← ofJson? removed }
    | _ => none

instance : Coded RelationalStore where
  toJson s := .array [toJson s.blocks, toJson s.events, toJson s.nextId]
  ofJson?
    | .array [blocks, events, nextId] => do
      return { blocks := ← ofJson? blocks, events := ← ofJson? events, nextId := ← ofJson? nextId }
    | _ => none

namespace RelationalStore

/-- The line at the head of a database file. -/
def mark : String := "chainwatch database\n"

def toSnapshot (s : RelationalStore) : String :=
  mark ++ (toJson s).pretty

def isBlank (content : String) : Bool :=
  content.utf8ByteSize ≤ 1

def ofSnapshot? (content : String) : Option RelationalStore :=
  if isBlank content then some .empty
  else if content.startsWith mark then
    (Json.read (String.ofList (content.toList.drop mark.toList.length))).bind ofJson?
  else none

end RelationalStore

end Chainwatch
