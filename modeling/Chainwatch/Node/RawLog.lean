import Chainwatch.Block
import Chainwatch.Error
import Chainwatch.Json
import Chainwatch.Text.Numeral
import Chainwatch.Text.Quoted

/-!
# What a node answers

A node writes numbers as hexadecimal quantities and byte strings as hexadecimal digits. A log is
decoded field by field, and the first field that cannot be read makes the failure. A header without
a readable bloom gets the bloom that rules nothing out.
-/

namespace Chainwatch

/-- The number that a hexadecimal quantity denotes, with or without `0x`. -/
def quantity (s : String) : Except TrackError UInt64 :=
  match Text.Numeral.read 16 (Text.Hex.unmarked s) with
  | .ok n => .ok n
  | .error fault =>
    .error (.rpc ("bad quantity " ++ Text.Quoted.encode s ++ ": " ++ fault.message))

structure RawLog where
  address : String
  topics : List String
  data : String
  blockNumber : String
  blockHash : String
  txHash : String
  txIndex : String
  logIndex : String
  removed : Option Bool
  deriving DecidableEq, Repr

namespace RawLog

def isRemoved (r : RawLog) : Bool :=
  r.removed.getD false

/-- The log with its fields read. The two positions keep their lowest 32 bits. -/
def decode (r : RawLog) : Except TrackError Log := do
  let data ←
    match Text.Hex.decodeText r.data with
    | .ok bytes => .ok bytes
    | .error fault => .error (.rpc ("log data: " ++ fault.message))
  let blockNumber ← quantity r.blockNumber
  let txIndex ← quantity r.txIndex
  let logIndex ← quantity r.logIndex
  return {
    address := r.address
    topics := r.topics
    data := data
    blockNumber := blockNumber
    blockHash := r.blockHash
    txHash := r.txHash
    txIndex := txIndex.toUInt32
    logIndex := logIndex.toUInt32
    removed := r.isRemoved }

end RawLog

instance : Coded RawLog where
  toJson r := .object
    [("address", toJson r.address), ("topics", toJson r.topics), ("data", toJson r.data),
      ("blockNumber", toJson r.blockNumber), ("blockHash", toJson r.blockHash),
      ("transactionHash", toJson r.txHash), ("transactionIndex", toJson r.txIndex),
      ("logIndex", toJson r.logIndex), ("removed", toJson r.removed)]
  ofJson? j := do
    let r ← Json.Record.ofJson?
      ["address", "topics", "data", "blockNumber", "blockHash", "transactionHash",
        "transactionIndex", "logIndex", "removed"] j
    return {
      address := ← r.get "address"
      topics := ← r.get "topics"
      data := ← r.get "data"
      blockNumber := ← r.get "blockNumber"
      blockHash := ← r.get "blockHash"
      txHash := ← r.get "transactionHash"
      txIndex := ← r.get "transactionIndex"
      logIndex := ← r.get "logIndex"
      removed := ← r.getOptional "removed" }

/-- The header that a node writes as a JSON object, if all of it but the bloom can be read. -/
def Header.ofNodeJson? (j : Json) : Option Header := do
  let text (name : String) := (j.member? name).bind Json.text?
  let number ← (quantity (← text "number")).toOption
  let hash ← text "hash"
  let parentHash ← text "parentHash"
  let timestamp ← (quantity (← text "timestamp")).toOption
  let bloom := ((text "logsBloom").bind Bloom.ofHex?).getD Bloom.saturated
  return { number, hash, parentHash, timestamp, bloom }

end Chainwatch
