import Chainwatch.Block.Json
import Chainwatch.Query

/-!
# Queries as JSON

A query is an object with one member a field; a field that narrows nothing is `null`, or left out.
-/

namespace Chainwatch

instance : Coded HeadQuery where
  toJson q := .object
    [("chain_id", toJson q.chain), ("number", toJson q.number), ("hash", toJson q.hash),
      ("parent_hash", toJson q.parentHash), ("state", toJson q.state)]
  ofJson? j := do
    let r ← Json.Record.ofJson? ["chain_id", "number", "hash", "parent_hash", "state"] j
    return {
      chain := ← r.getOptional "chain_id"
      number := ← r.getOptional "number"
      hash := ← r.getOptional "hash"
      parentHash := ← r.getOptional "parent_hash"
      state := ← r.getOptional "state" }

instance : Coded EventQuery where
  toJson q := .object
    [("chain_id", toJson q.chain), ("block_number", toJson q.blockNumber),
      ("block_hash", toJson q.blockHash), ("state", toJson q.state),
      ("address", toJson q.address), ("tx_hash", toJson q.txHash),
      ("tx_index", toJson q.txIndex), ("log_index", toJson q.logIndex),
      ("topic", toJson q.topic), ("removed", toJson q.removed)]
  ofJson? j := do
    let r ← Json.Record.ofJson?
      ["chain_id", "block_number", "block_hash", "state", "address", "tx_hash", "tx_index",
        "log_index", "topic", "removed"] j
    return {
      chain := ← r.getOptional "chain_id"
      blockNumber := ← r.getOptional "block_number"
      blockHash := ← r.getOptional "block_hash"
      state := ← r.getOptional "state"
      address := ← r.getOptional "address"
      txHash := ← r.getOptional "tx_hash"
      txIndex := ← r.getOptional "tx_index"
      logIndex := ← r.getOptional "log_index"
      topic := ← r.getOptional "topic"
      removed := ← r.getOptional "removed" }

end Chainwatch
