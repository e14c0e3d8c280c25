/-!
# Errors

What can go wrong while a chain is followed, and the notices that a subscriber finds on its error
queue. Each cause has one constructor; the wording stands in `message` alone.
-/

namespace Chainwatch

inductive TrackError where
  | rpc (text : String)
  | storage (text : String)
  | conflict (chain : UInt64) (what : String)
  | notFound (text : String)
  | alreadyRunning
  | heightLocked (chain : UInt64)
  | hook (text : String)
  | aborted (reason : String)
  | cancelled
  | other (text : String)
  deriving DecidableEq, Repr

namespace TrackError

instance : Inhabited TrackError := ⟨.cancelled⟩

def message : TrackError → String
  | rpc text => "RPC error: " ++ text
  | storage text => "Storage error: " ++ text
  | conflict chain what => "Conflict on chain " ++ toString chain ++ ": " ++ what ++ " already exists"
  | notFound text => "Not found: " ++ text
  | alreadyRunning => "Tracker is already running"
  | heightLocked chain =>
    "Start height cannot change after chain " ++ toString chain ++ " was resolved"
  | hook text => "Hook failed: " ++ text
  | aborted reason => "Tracker aborted: " ++ reason
  | cancelled => "Operation cancelled"
  | other text => text

def isConflict : TrackError → Bool
  | conflict _ _ => true
  | _ => false

def headConflict (chain number : UInt64) : TrackError :=
  .conflict chain ("block " ++ toString number)

def hashConflict (chain : UInt64) (hash : String) : TrackError :=
  .conflict chain ("block hash " ++ hash)

def noBlock (number : UInt64) : TrackError :=
  .notFound ("block " ++ toString number)

def noBlockHash (chain : UInt64) (hash : String) : TrackError :=
  .notFound ("block " ++ hash ++ " on chain " ++ toString chain)

/-- What a write reports when one of its hooks failed. -/
def ofHook : TrackError → TrackError
  | hook text => hook text
  | e => hook e.message

end TrackError

/-- A notice on a subscription's error queue. -/
inductive SubscriptionError where
  | queueFull (subscription : Nat) (dropped : String)
  | unrecoverable (cause : TrackError)
  deriving DecidableEq, Repr

def SubscriptionError.message : SubscriptionError → String
  | queueFull subscription dropped =>
    "subscription " ++ toString subscription ++ " queue full, dropped " ++ dropped
  | unrecoverable cause => "tracker stopped: " ++ cause.message

end Chainwatch
