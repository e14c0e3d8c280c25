import Std.Data.ExtTreeMap.Basic
import Chainwatch.Node.Remote

/-!
# Scripted remote node

A remote node whose blocks, logs and failures are given beforehand. It notes every question.
-/

namespace Chainwatch

inductive RemoteCall where
  | chainId
  | tip
  | block (number : UInt64)
  | logs (first last : UInt64) (addresses : List String)
  deriving DecidableEq, Repr

/-- What a fault of a remote node is about. -/
inductive RemoteCue where
  | chainId
  | tip
  | block
  | blockOf (number : UInt64)
  | logs
  /-- The request for logs with this place among them, counted from one. -/
  | logsAt (place : Nat)
  deriving DecidableEq, Repr

structure RemoteScript where
  chain : UInt64
  tip : UInt64
  /-- The blocks about which something is said: as JSON, which may be anything. -/
  blocks : Std.ExtTreeMap UInt64 Json
  logs : List RawLog
  faults : List (RemoteCue × TrackError)
  logCalls : Nat
  calls : List RemoteCall

def Header.plain (number : UInt64) : Header where
  number := number
  hash := "0xh" ++ toString number
  parentHash := "0xh" ++ toString (if number = 0 then 0 else number - 1)
  timestamp := 0
  bloom := .empty

namespace RemoteScript

def note (s : RemoteScript) (call : RemoteCall) : RemoteScript :=
  { s with calls := s.calls ++ [call] }

def setFault (s : RemoteScript) (cue : RemoteCue) (fault : Option TrackError) : RemoteScript :=
  { s with faults := (fault.map (cue, ·)).toList ++ s.faults.filter (·.1 != cue) }

/-- What a call yields, unless one of these faults is set; the first one set is the failure. -/
def attempt (s : RemoteScript) (cues : List RemoteCue) (a : α) : Except TrackError α :=
  match cues.findSome? fun cue => s.faults.lookup cue with
  | some e => .error e
  | none => .ok a

def header? (s : RemoteScript) (number : UInt64) : Option Header :=
  match s.blocks[number]? with
  | some json => Header.ofNodeJson? json
  | none => if number ≤ s.tip then some (.plain number) else none

/-- Whether a log belongs to a range; one whose number cannot be read belongs to all. -/
def isWithin (first last : UInt64) (log : RawLog) : Bool :=
  match quantity log.blockNumber with
  | .ok number => first ≤ number && number ≤ last
  | .error _ => true

instance : RemoteNode RemoteScript where
  chainId s := (s.attempt [.chainId] s.chain, s.note .chainId)
  tip s := (s.attempt [.tip] s.tip, s.note .tip)
  block number s := (s.attempt [.block, .blockOf number] (s.header? number), s.note (.block number))
  logs first last addresses s :=
    let s := { s with logCalls := s.logCalls + 1 }.note (.logs first last addresses)
    (s.attempt [.logs, .logsAt s.logCalls] (s.logs.filter (isWithin first last)), s)

def report (s : RemoteScript) : List RemoteCall × RemoteScript :=
  (s.calls, { s with calls := [] })

end RemoteScript

end Chainwatch
