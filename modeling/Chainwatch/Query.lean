import Chainwatch.Block

/-!
# Queries

A query narrows heads or events field by field; a field left out narrows nothing. Addresses and
topics match in letters of any case, all other fields exactly.
-/

namespace Chainwatch

/-- What a query asks of one field: nothing, or a value equal to the one given. -/
def fieldAdmits [BEq α] (wanted : Option α) (value : α) : Bool :=
  wanted.all (· == value)

structure HeadQuery where
  chain : Option UInt64 := none
  number : Option UInt64 := none
  hash : Option String := none
  parentHash : Option String := none
  state : Option BlockState := none
  deriving DecidableEq, Repr, Inhabited

def HeadQuery.admits (q : HeadQuery) (head : Head) : Bool :=
  fieldAdmits q.chain head.chain
    && fieldAdmits q.number head.number
    && fieldAdmits q.hash head.hash
    && fieldAdmits q.parentHash head.parentHash
    && fieldAdmits q.state head.state

structure EventQuery where
  chain : Option UInt64 := none
  blockNumber : Option UInt64 := none
  blockHash : Option String := none
  state : Option BlockState := none
  address : Option String := none
  txHash : Option String := none
  txIndex : Option UInt32 := none
  logIndex : Option UInt32 := none
  topic : Option String := none
  removed : Option Bool := none
  deriving DecidableEq, Repr, Inhabited

namespace EventQuery

/-- What the query asks of the block that owns the event, if it asks anything. -/
def ofBlock? (q : EventQuery) : Option HeadQuery :=
  let block : HeadQuery :=
    { chain := q.chain, number := q.blockNumber, hash := q.blockHash, state := q.state }
  if block = {} then none else some block

def admitsOwn (q : EventQuery) (event : Event) : Bool :=
  q.address.all (Text.eqIgnoreCase · event.address)
    && fieldAdmits q.txHash event.txHash
    && fieldAdmits q.txIndex event.txIndex
    && fieldAdmits q.logIndex event.logIndex
    && q.topic.all (fun topic => event.signature?.any (Text.eqIgnoreCase · topic))
    && fieldAdmits q.removed event.removed

def admits (q : EventQuery) (event : Event) : Bool :=
  fieldAdmits q.chain event.chain
    && fieldAdmits q.blockNumber event.blockNumber
    && fieldAdmits q.blockHash event.blockHash
    && fieldAdmits q.state event.state
    && q.admitsOwn event

end EventQuery

end Chainwatch
