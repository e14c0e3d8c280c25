import Chainwatch.Node.Feed
import Chainwatch.Text.Numeral

/-!
# Practice chain

A chain that grows on command. Block zero is there from the start; every block after it holds the
events it was made with. Feeds carry what is announced after they were opened.
-/

namespace Chainwatch

structure PracticeEvent where
  address : String
  topics : List String
  data : List UInt8
  deriving DecidableEq, Repr

structure PracticeFeed where
  name : String
  feed : Feed
  attached : Bool
  cancelled : Bool

structure PracticeChain where
  chain : UInt64
  blocks : List Block
  feeds : List PracticeFeed
  failsChainId : Bool
  failsHeaders : Bool
  failsLogs : Bool
  logsRemoved : Bool

namespace PracticeChain

def hashOf (chain number : UInt64) : String :=
  "0x" ++ Text.Numeral.hex 8 chain.toNat ++ Text.Numeral.hex 56 number.toNat

/-- The hash that stands for the parent of a number. -/
def parentHashOf (chain number : UInt64) : String :=
  if number = 0 then "0x" ++ Text.Numeral.hex 64 0 else hashOf chain (number - 1)

def txHashOf (number : UInt64) (place : Nat) : String :=
  "0x" ++ Text.Numeral.hex 32 number.toNat ++ Text.Numeral.hex 32 place

/-- The filter that holds the addresses and the topics of these events. -/
def bloomOf (events : List PracticeEvent) : Bloom :=
  events.foldl (fun b e => e.topics.foldl Bloom.accrueAddress (b.accrueAddress e.address)) .empty

def logOf (chain number : UInt64) (event : PracticeEvent) (place : Nat) : Log where
  address := event.address
  topics := event.topics
  data := event.data
  blockNumber := number
  blockHash := hashOf chain number
  txHash := txHashOf number place
  txIndex := UInt32.ofNat place
  logIndex := UInt32.ofNat place
  removed := false

def blockOf (chain number : UInt64) (events : List PracticeEvent) : Block where
  header :=
    { number := number
      hash := hashOf chain number
      parentHash := parentHashOf chain number
      timestamp := 1700000000 + number * 12
      bloom := bloomOf events }
  logs := events.zipIdx.map fun (event, place) => logOf chain number event place

def make (chain : UInt64) : PracticeChain where
  chain := chain
  blocks := [blockOf chain 0 []]
  feeds := []
  failsChainId := false
  failsHeaders := false
  failsLogs := false
  logsRemoved := false

def headNumber (c : PracticeChain) : UInt64 :=
  UInt64.ofNat (c.blocks.length - 1)

def header? (c : PracticeChain) (number : UInt64) : Option Header :=
  c.blocks[number.toNat]?.map (·.header)

/-! ## Growth -/

/-- Appends a block without announcing it. -/
def mineSilently (c : PracticeChain) (events : List PracticeEvent) : Header × PracticeChain :=
  let block := blockOf c.chain (UInt64.ofNat c.blocks.length) events
  (block.header, { c with blocks := c.blocks ++ [block] })

def announce (c : PracticeChain) (item : Except TrackError Header) : PracticeChain :=
  { c with
    feeds := c.feeds.map fun f => if f.attached then { f with feed := f.feed.push item } else f }

def mine (c : PracticeChain) (events : List PracticeEvent) : Header × PracticeChain :=
  let (header, c) := c.mineSilently events
  (header, c.announce (.ok header))

def mineEmpty (c : PracticeChain) : Nat → PracticeChain
  | 0 => c
  | count + 1 => (c.mine []).2.mineEmpty count

/-- Announces a failure of the node, in the words in which the node reports it. -/
def breakFeeds (c : PracticeChain) (reason : String) : PracticeChain :=
  c.announce (.error (.rpc (TrackError.message (.rpc reason))))

/-! ## Feeds -/

def subscribe (c : PracticeChain) (name : String) : PracticeChain :=
  { c with
    feeds := c.feeds.filter (·.name != name)
      ++ [{ name, feed := .empty, attached := true, cancelled := false }] }

def unsubscribe (c : PracticeChain) (name : String) : Bool × PracticeChain :=
  (c.feeds.any (·.name == name), { c with feeds := c.feeds.filter (·.name != name) })

def cancel (c : PracticeChain) (name : String) : PracticeChain :=
  { c with
    feeds := c.feeds.map fun f => if f.name = name then { f with cancelled := true } else f }

/-- Ends every feed behind what has come. -/
def closeFeeds (c : PracticeChain) : PracticeChain :=
  { c with
    feeds := c.feeds.map fun f =>
      if f.attached then { f with feed := f.feed.close, attached := false } else f }

def subscriberCount (c : PracticeChain) : Nat :=
  (c.feeds.filter (·.attached)).length

/-- Takes the next item of a feed; `none` if there is no feed of the name. A feed whose token has
fired has ended, whatever waits on it. -/
def receive (c : PracticeChain) (name : String) :
    Option (Queue.Receipt (Except TrackError Header) × PracticeChain) := do
  let f ← c.feeds.find? (·.name == name)
  if f.cancelled then return (.ended, c)
  let (receipt, feed) := f.feed.receive
  let feeds := c.feeds.map fun old => if old.name = name then { old with feed } else old
  return (receipt, { c with feeds })

/-! ## Questions -/

def chainId (c : PracticeChain) : Except TrackError UInt64 :=
  if c.failsChainId then .error (.rpc "chain id unavailable") else .ok c.chain

def headerByNumber (c : PracticeChain) (number : UInt64) : Except TrackError Header :=
  if c.failsHeaders then .error (.rpc ("header " ++ toString number ++ " unavailable"))
  else
    match c.header? number with
    | some header => .ok header
    | none => .error (.noBlock number)

/-- The logs of the blocks from the first to the last whose address is one of these, in letters of
any case. A range that ends before it begins is no question: the answer is `none`. -/
def filterLogs? (c : PracticeChain) (addresses : List String) (first last : UInt64) :
    Option (Except TrackError (List Log)) :=
  if c.failsLogs then some (.error (.rpc "log filter unavailable"))
  else if last < first then none
  else
    let blocks := c.blocks.filter fun b => first ≤ b.header.number && b.header.number ≤ last
    let logs := (blocks.flatMap (·.logs)).filter fun log =>
      addresses.any (Text.eqIgnoreCase · log.address)
    some (.ok (logs.map fun log => { log with removed := c.logsRemoved }))

end PracticeChain

end Chainwatch
