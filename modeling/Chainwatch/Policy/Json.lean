import Chainwatch.Error
import Chainwatch.Json.Reader
import Chainwatch.Policy

/-!
# Policies as JSON

A policy is an object with the members `chains` and `default`. The chains stand in an object under
their decimal numerals, written without escapes; where one occurs twice, the later entry holds. A
policy without `chains` has no entries, and one without `default` the standard tiers.
-/

namespace Chainwatch

instance : Coded Tier where
  toJson tier := .string tier.name
  ofJson? j := j.name? Tier.ofName?

instance : Coded Tiers where
  toJson t := .object
    [("instant", toJson t.instant), ("fast", toJson t.fast), ("safe", toJson t.safe),
      ("finalized", toJson t.finalized)]
  ofJson? j := do
    let r ← Json.Record.ofJson? ["instant", "fast", "safe", "finalized"] j
    return {
      instant := ← r.get "instant"
      fast := ← r.get "fast"
      safe := ← r.get "safe"
      finalized := ← r.get "finalized" }

instance : Coded (Std.ExtTreeMap UInt64 Tiers) where
  toJson chains :=
    .object (chains.toList.map fun (chain, tiers) => (⟨toString chain, true⟩, toJson tiers))
  ofJson?
    | .object members =>
      members.foldlM
        (fun chains (key, value) => do
          let chain ← if key.plain then Text.Numeral.readShortest key.text.toList else none
          let tiers ← ofJson? value
          some (chains.insert chain tiers)) ∅
    | _ => none

instance : Coded Policy where
  toJson p := .object [("chains", toJson p.chains), ("default", toJson p.fallback)]
  ofJson? j := do
    let r ← Json.Record.ofJson? ["chains", "default"] j
    return {
      chains := ← r.getD "chains" ∅
      fallback := ← r.getD "default" Tiers.standard }

def Policy.ofText? (text : String) : Option Policy :=
  (Json.read text).bind ofJson?

/-- Reads a policy. The error says only what was being read. -/
def Policy.parse (text : String) : Except TrackError Policy :=
  match ofText? text with
  | some policy => .ok policy
  | none => .error (.other "confirmation policy: ")

end Chainwatch
