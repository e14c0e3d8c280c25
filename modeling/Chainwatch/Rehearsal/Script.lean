import Std.Data.ExtTreeMap.Basic
import Chainwatch.Node.Feed
import Chainwatch.Tracker.Task

/-!
# Script

A script plays the node, and the store's bad days: which blocks there are, which calls fail, which
are held back for a while, and what comes on the feeds of the runs.
-/

namespace Chainwatch

/-- What a fault or a hold is about. -/
inductive Cue where
  | chainId
  | subscribe
  | headers
  | header (number : UInt64)
  | logs
  | logsFrom (number : UInt64)
  deriving DecidableEq, Repr

/-- The cues that concern a call, the most general first. -/
def Call.cues : Call → List Cue
  | .chainId => [.chainId]
  | .subscribe => [.subscribe]
  | .header number => [.headers, .header number]
  | .logs _ first _ => [.logs, .logsFrom first]

/-- How the node and the store behave. -/
structure Script where
  chain : UInt64
  blocks : Std.ExtTreeMap UInt64 Block
  faults : List (Cue × TrackError)
  storeFaults : List (StoreCall × TrackError)
  holds : List Cue
  feeds : List (Nat × Feed)

namespace Script

def make (chain : UInt64) : Script where
  chain := chain
  blocks := ∅
  faults := []
  storeFaults := []
  holds := []
  feeds := []

def nextNumber (s : Script) : UInt64 :=
  match s.blocks.maxKey? with
  | none => 0
  | some number => number + 1

def store (s : Script) (block : Block) : Script :=
  { s with blocks := s.blocks.insert block.header.number block }

def announce (s : Script) (item : Except TrackError Header) : Script :=
  { s with feeds := s.feeds.map fun (run, feed) => (run, feed.push item) }

def endFeeds (s : Script) : Script :=
  { s with feeds := s.feeds.map fun (run, feed) => (run, feed.close) }

def setFault (s : Script) (cue : Cue) (fault : Option TrackError) : Script :=
  { s with faults := (fault.map (cue, ·)).toList ++ s.faults.filter (·.1 != cue) }

def setStoreFault (s : Script) (call : StoreCall) (fault : Option TrackError) : Script :=
  { s with
    storeFaults := (fault.map (call, ·)).toList ++ s.storeFaults.filter (·.1 != call) }

def hold (s : Script) (cue : Cue) : Script :=
  { s with holds := cue :: s.holds }

def release (s : Script) (cue : Cue) : Script :=
  { s with holds := s.holds.filter (· != cue) }

def isHeld (s : Script) (call : Call) : Bool :=
  call.cues.any s.holds.contains

def fault? (s : Script) (call : Call) : Option TrackError :=
  call.cues.findSome? fun cue => s.faults.lookup cue

/-- The logs of the blocks in a range whose address is one of these, in letters of any case. -/
def logs (s : Script) (addresses : List String) (first last : UInt64) : List Log :=
  let blocks := s.blocks.toList.filter fun (number, _) => first ≤ number && number ≤ last
  blocks.flatMap fun (_, block) =>
    block.logs.filter fun log => addresses.any (Text.eqIgnoreCase · log.address)

def attempt (s : Script) (call : Call) (a : α) : Except TrackError α :=
  match s.fault? call with
  | some e => .error e
  | none => .ok a

def header (s : Script) (number : UInt64) : Except TrackError Header := do
  s.attempt (.header number) ()
  match s.blocks[number]? with
  | some block => .ok block.header
  | none => .error (.noBlock number)

def openFeed (s : Script) (run : Nat) : Script :=
  { s with feeds := s.feeds ++ [(run, .empty)] }

def reply (s : Script) (run : Nat) (call : Call) : Answer × Script :=
  match call with
  | .chainId => (.chain (s.attempt call s.chain), s)
  | .subscribe =>
    match s.attempt call () with
    | .ok () => (.subscribed (.ok ()), s.openFeed run)
    | .error e => (.subscribed (.error e), s)
  | .header number => (.header (s.header number), s)
  | .logs addresses first last => (.logs (s.attempt call (s.logs addresses first last)), s)

/-- The next item on the feed of a run, if there is one or the feed has ended. -/
def arrival? (s : Script) (run : Nat) : Option (Answer × Script) :=
  match s.feeds.lookup run with
  | none => none
  | some feed =>
    match feed.receive with
    | (.item item, feed) =>
      some (.arrival (some item),
        { s with feeds := s.feeds.map fun (r, old) => (r, if r = run then feed else old) })
    | (.ended, _) => some (.arrival none, s)
    | (.pending, _) => none

end Script

end Chainwatch
