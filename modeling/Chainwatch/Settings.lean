import Chainwatch.Policy

/-!
# Settings

The settings of a tracker, of a polling node and of a database file, each with the values it has
when nothing is said.
-/

namespace Chainwatch

structure TrackerSettings where
  startHeight : UInt64 := 0
  confirmations : Option UInt64 := none
  tier : Tier := .fast
  policy : Policy := .builtin
  queueCapacity : UInt64 := 1024
  errorCapacity : UInt64 := 16
  deriving DecidableEq, Inhabited

def TrackerSettings.threshold (s : TrackerSettings) (chain : UInt64) : UInt64 :=
  s.confirmations.getD (s.policy.threshold chain s.tier)

structure PollSettings where
  intervalMs : UInt64 := 2000
  /-- The largest number of blocks in one request for logs, less one. -/
  maxLogRange : UInt64 := 1000
  buffer : UInt64 := 64
  deriving DecidableEq, Repr, Inhabited

structure DatabaseSettings where
  maxConnections : UInt32 := 4
  busyTimeoutMs : UInt64 := 5000
  writeAhead : Bool := true
  deriving DecidableEq, Repr, Inhabited

/-- Whether a database can be opened with the settings: a timeout is a signed number of 32 bits. -/
def DatabaseSettings.canOpen (s : DatabaseSettings) : Bool :=
  s.busyTimeoutMs < 0x80000000

inductive Status where
  | idle
  | starting
  | running
  | stopping
  deriving DecidableEq, Repr, Inhabited

namespace Status

def all : List Status := [idle, starting, running, stopping]

def name : Status → String
  | idle => "idle"
  | starting => "starting"
  | running => "running"
  | stopping => "stopping"

def ofName? (s : String) : Option Status :=
  all.find? (·.name == s)

end Status

end Chainwatch
