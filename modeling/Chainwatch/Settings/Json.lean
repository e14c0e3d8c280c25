import Chainwatch.Policy.Json
import Chainwatch.Settings

/-!
# Settings as JSON

Settings are objects with one member a field, and each field may be left out for its usual value.
-/

namespace Chainwatch

instance : Coded Status where
  toJson status := .string status.name
  ofJson? j := j.name? Status.ofName?

instance : Coded TrackerSettings where
  toJson s := .object
    [("start_height", toJson s.startHeight), ("confirmations", toJson s.confirmations),
      ("tier", toJson s.tier), ("policy", toJson s.policy),
      ("queue_capacity", toJson s.queueCapacity),
      ("error_queue_capacity", toJson s.errorCapacity)]
  ofJson? j := do
    let r ← Json.Record.ofJson?
      ["start_height", "confirmations", "tier", "policy", "queue_capacity",
        "error_queue_capacity"] j
    let usual : TrackerSettings := {}
    return {
      startHeight := ← r.getD "start_height" usual.startHeight
      confirmations := ← r.getD "confirmations" usual.confirmations
      tier := ← r.getD "tier" usual.tier
      policy := ← r.getD "policy" usual.policy
      queueCapacity := ← r.getD "queue_capacity" usual.queueCapacity
      errorCapacity := ← r.getD "error_queue_capacity" usual.errorCapacity }

instance : Coded PollSettings where
  toJson s := .object
    [("interval_ms", toJson s.intervalMs), ("max_log_range", toJson s.maxLogRange),
      ("buffer", toJson s.buffer)]
  ofJson? j := do
    let r ← Json.Record.ofJson? ["interval_ms", "max_log_range", "buffer"] j
    let usual : PollSettings := {}
    return {
      intervalMs := ← r.getD "interval_ms" usual.intervalMs
      maxLogRange := ← r.getD "max_log_range" usual.maxLogRange
      buffer := ← r.getD "buffer" usual.buffer }

instance : Coded DatabaseSettings where
  toJson s := .object
    [("max_connections", toJson s.maxConnections), ("busy_timeout_ms", toJson s.busyTimeoutMs),
      ("wal", toJson s.writeAhead)]
  ofJson? j := do
    let r ← Json.Record.ofJson? ["max_connections", "busy_timeout_ms", "wal"] j
    let usual : DatabaseSettings := {}
    return {
      maxConnections := ← r.getD "max_connections" usual.maxConnections
      busyTimeoutMs := ← r.getD "busy_timeout_ms" usual.busyTimeoutMs
      writeAhead := ← r.getD "wal" usual.writeAhead }

end Chainwatch
