import Chainwatch.Block
import Chainwatch.Json

/-!
# Blocks and events as JSON

Records are objects with one member a field. A bloom is a string of hexadecimal digits, a state its
name, and the data of a log a list of byte values.
-/

namespace Chainwatch

instance : Coded Bloom where
  toJson b := .string b.toHex
  ofJson? j := j.text?.bind Bloom.ofAnyHex?

instance : Coded BlockState where
  toJson state := .string state.name
  ofJson? j := j.name? BlockState.ofName?

instance : Coded Header where
  toJson h := .object
    [("number", toJson h.number), ("hash", toJson h.hash), ("parent_hash", toJson h.parentHash),
      ("timestamp", toJson h.timestamp), ("bloom", toJson h.bloom)]
  ofJson? j := do
    let r ← Json.Record.ofJson? ["number", "hash", "parent_hash", "timestamp", "bloom"] j
    return {
      number := ← r.get "number"
      hash := ← r.get "hash"
      parentHash := ← r.get "parent_hash"
      timestamp := ← r.get "timestamp"
      bloom := ← r.get "bloom" }

instance : Coded Log where
  toJson l := .object
    [("address", toJson l.address), ("topics", toJson l.topics), ("data", toJson l.data),
      ("block_number", toJson l.blockNumber), ("block_hash", toJson l.blockHash),
      ("tx_hash", toJson l.txHash), ("tx_index", toJson l.txIndex),
      ("log_index", toJson l.logIndex), ("removed", toJson l.removed)]
  ofJson? j := do
    let r ← Json.Record.ofJson?
      ["address", "topics", "data", "block_number", "block_hash", "tx_hash", "tx_index",
        "log_index", "removed"] j
    return {
      address := ← r.get "address"
      topics := ← r.get "topics"
      data := ← r.get "data"
      blockNumber := ← r.get "block_number"
      blockHash := ← r.get "block_hash"
      txHash := ← r.get "tx_hash"
      txIndex := ← r.get "tx_index"
      logIndex := ← r.get "log_index"
      removed := ← r.get "removed" }

instance : Coded Head where
  toJson h := .object
    [("chain_id", toJson h.chain), ("number", toJson h.number), ("hash", toJson h.hash),
      ("parent_hash", toJson h.parentHash), ("state", toJson h.state),
      ("timestamp", toJson h.timestamp), ("bloom", toJson h.bloom)]
  ofJson? j := do
    let r ← Json.Record.ofJson?
      ["chain_id", "number", "hash", "parent_hash", "state", "timestamp", "bloom"] j
    return {
      chain := ← r.get "chain_id"
      number := ← r.get "number"
      hash := ← r.get "hash"
      parentHash := ← r.get "parent_hash"
      state := ← r.get "state"
      timestamp := ← r.get "timestamp"
      bloom := ← r.get "bloom" }

instance : Coded Event where
  toJson e := .object
    [("chain_id", toJson e.chain), ("block_number", toJson e.blockNumber),
      ("block_hash", toJson e.blockHash), ("state", toJson e.state),
      ("address", toJson e.address), ("topics", toJson e.topics), ("data", toJson e.data),
      ("tx_hash", toJson e.txHash), ("tx_index", toJson e.txIndex),
      ("log_index", toJson e.logIndex), ("removed", toJson e.removed)]
  ofJson? j := do
    let r ← Json.Record.ofJson?
      ["chain_id", "block_number", "block_hash", "state", "address", "topics", "data", "tx_hash",
        "tx_index", "log_index", "removed"] j
    return {
      chain := ← r.get "chain_id"
      blockNumber := ← r.get "block_number"
      blockHash := ← r.get "block_hash"
      state := ← r.get "state"
      address := ← r.get "address"
      topics := ← r.get "topics"
      data := ← r.get "data"
      txHash := ← r.get "tx_hash"
      txIndex := ← r.get "tx_index"
      logIndex := ← r.get "log_index"
      removed := ← r.get "removed" }

end Chainwatch
