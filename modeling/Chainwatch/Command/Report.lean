import Chainwatch.Block.Json
import Chainwatch.Command.Calendar
import Chainwatch.Json.Writer
import Chainwatch.Policy.Json
import Chainwatch.Settings
import Chainwatch.Store.Contract

/-!
# Reports

The texts that the command prints, line by line, or as JSON.
-/

namespace Chainwatch.Command

def lines (texts : List String) : String :=
  String.join (texts.map (· ++ "\n"))

/-! ## Thresholds -/

structure TierRow where
  chain : Option UInt64
  tiers : Tiers

def tierRows (policy : Policy) : Option UInt64 → List TierRow
  | some chain => [⟨some chain, policy.tiers chain⟩]
  | none =>
    policy.entries.map (fun (chain, tiers) => ⟨some chain, tiers⟩) ++ [⟨none, policy.fallback⟩]

def tierRowName (policy : Policy) : Option UInt64 → String
  | some chain =>
    (KnownChain.name? chain).getD (if policy.isKnown chain then "custom" else "default")
  | none => "default"

def tierLine (chain name instant fast safe finalized : String) : String :=
  " ".intercalate
    [Text.padRight 10 chain, Text.padRight 10 name, Text.padLeft 8 instant, Text.padLeft 8 fast,
      Text.padLeft 8 safe, Text.padLeft 10 finalized]

def tierTable (policy : Policy) (chain : Option UInt64) : String :=
  lines (tierLine "CHAIN ID" "NAME" "INSTANT" "FAST" "SAFE" "FINALIZED"
    :: (tierRows policy chain).map fun row =>
      tierLine (row.chain.elim "*" toString) (tierRowName policy row.chain)
        (toString row.tiers.instant) (toString row.tiers.fast) (toString row.tiers.safe)
        (toString row.tiers.finalized))

def TierRow.json (row : TierRow) : Json :=
  .object
    [("chain_id", toJson row.chain), ("name", toJson (row.chain.bind KnownChain.name?)),
      ("instant", toJson row.tiers.instant), ("fast", toJson row.tiers.fast),
      ("safe", toJson row.tiers.safe), ("finalized", toJson row.tiers.finalized)]

def tierJson (policy : Policy) (chain : Option UInt64) : String :=
  lines [(Json.array ((tierRows policy chain).map TierRow.json)).pretty]

/-! ## Databases -/

structure Summary where
  chain : UInt64
  height : UInt64
  blocks : List (BlockState × Nat)
  events : Nat
  recent : List Head

def countedStates : List BlockState := [.skipped, .seen, .confirmed, .removed]

/-- Sums up a chain, with its newest blocks, as many as the limit, or those of them in one state. -/
def summarize {S : Type} [BlockStore S] (store : S) (chain : UInt64) (state : Option BlockState)
    (limit : UInt64) : Except TrackError Summary := do
  let height ← BlockStore.height store chain
  let blocks ← countedStates.mapM fun s =>
    (BlockStore.countHeads store { chain := some chain, state := some s }).map (s, ·)
  let events ← BlockStore.countEvents store { chain := some chain }
  let heads ← BlockStore.heads store { chain := some chain, state }
  return { chain, height, blocks, events, recent := heads.reverse.take limit.toNat }

def headLine (number state time hash : String) : String :=
  Text.padLeft 12 number ++ "  " ++ Text.padRight 10 state ++ "  " ++ Text.padRight 20 time ++ "  "
    ++ hash

/-- The time of a block, whose seconds are read as a signed number. -/
def showTime (timestamp : UInt64) : String :=
  (Calendar.dateTime? timestamp.toInt64.toInt).getD "-"

def Summary.text (s : Summary) : String :=
  let name := (KnownChain.name? s.chain).getD "unknown"
  let opening :=
    ["Chain " ++ toString s.chain ++ " (" ++ name ++ ")",
      "  Confirmed height: " ++ toString s.height]
  let counts := s.blocks.map fun (state, count) =>
    "  " ++ Text.padRight 10 (state.name ++ ":") ++ " " ++ toString count ++ " blocks"
  let events := ["  Events:    " ++ toString s.events]
  let table :=
    if s.recent.isEmpty then []
    else
      "" :: headLine "NUMBER" "STATE" "TIME (UTC)" "HASH"
        :: s.recent.map fun head =>
          headLine (toString head.number) head.state.name (showTime head.timestamp) head.hash
  lines (opening ++ counts ++ events ++ table)

def Summary.json (s : Summary) : String :=
  let blocks := s.blocks.map fun (state, count) => (⟨state.name, true⟩, Json.integer count)
  lines [(Json.object
    [("chain_id", toJson s.chain), ("height", toJson s.height), ("blocks", .object blocks),
      ("events", .integer s.events), ("recent", toJson s.recent)]).pretty]

/-! ## The program itself -/

def version : String := "0.1.0"

def infoText : String :=
  let settings : TrackerSettings := {}
  lines
    ["chaintrack v" ++ version, "", "Defaults:",
      "  Confirmation tier:     " ++ settings.tier.title,
      "  Start height:          " ++ toString settings.startHeight,
      "  Subscriber queue:      " ++ toString settings.queueCapacity ++ " notices",
      "  Subscriber error queue: " ++ toString settings.errorCapacity ++ " notices",
      "  Fast threshold (eth):  " ++ toString (settings.policy.threshold 1 .fast) ++ " blocks", "",
      "Storage backends: memory (core), SQLite (chaintrack-storage)",
      "Chain sources:    EVM JSON-RPC polling (chaintrack-evm)"]

def versionText : String :=
  lines ["chaintrack " ++ version]

def helpText : String :=
  lines
    ["Block/event tracker: inspect stored state and confirmation policies", "",
      "Usage: chaintrack [OPTIONS] <COMMAND>", "", "Commands:",
      "  tiers    Show confirmation thresholds per chain",
      "           [--chain-id <ID>] [--policy <FILE>] [--json]",
      "  inspect  Summarise a tracker database",
      "           --db <FILE> --chain-id <ID> [--state <STATE>] [--limit <COUNT>] [--json]",
      "  info     Show build and default configuration info",
      "  help     Print this message", "", "Options:",
      "  -v, --verbose   Enable debug logging",
      "      --log-json  Emit logs as JSON lines",
      "  -h, --help      Print help",
      "  -V, --version   Print version"]

end Chainwatch.Command
