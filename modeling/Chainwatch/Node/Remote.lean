import Chainwatch.Node.RawLog

/-!
# Remote nodes

A node that is asked one question at a time, about its chain, its newest block, one block, or the
logs of a range of blocks. Ranges too long for one request are cut into consecutive batches.
-/

namespace Chainwatch

/-- A node that may change with every question. -/
class RemoteNode (σ : Type) where
  chainId : σ → Except TrackError UInt64 × σ
  tip : σ → Except TrackError UInt64 × σ
  block : UInt64 → σ → Except TrackError (Option Header) × σ
  logs : UInt64 → UInt64 → List String → σ → Except TrackError (List RawLog) × σ

structure BlockRange where
  first : UInt64
  last : UInt64
  deriving DecidableEq, Repr

/-- Consecutive ranges that make up the range from the first to the last block, each as long as can be; `span` is the
greatest distance between the ends of one. A loop over the ranges that keeps the cursor `end + 1` cannot express the
position after block `2^64 - 1`: for that `last` its cursor overflows, and this recursion ends. -/
def batches (first last span : UInt64) : List BlockRange :=
  if last < first then []
  else if last - first ≤ span then [⟨first, last⟩]
  else ⟨first, first + span⟩ :: batches (first + span + 1) last span
termination_by last.toNat - first.toNat
decreasing_by
  rename_i ordered long
  simp only [UInt64.lt_iff_toNat_lt, UInt64.le_iff_toNat_le] at ordered long
  have bound := last.toNat_lt
  rw [UInt64.toNat_sub_of_le _ _ (UInt64.le_iff_toNat_le.2 (by omega))] at long
  have inner : (first + span).toNat = first.toNat + span.toNat := by
    rw [UInt64.toNat_add]; omega
  rw [UInt64.toNat_add, inner]
  simp only [UInt64.toNat_one]
  omega

namespace RemoteNode

variable {σ : Type} [RemoteNode σ]

def header (number : UInt64) (node : σ) : Except TrackError Header × σ :=
  match block number node with
  | (.error e, node) => (.error e, node)
  | (.ok none, node) => (.error (.noBlock number), node)
  | (.ok (some header), node) => (.ok header, node)

def logsOf (addresses : List String) : List BlockRange → σ → Except TrackError (List RawLog) × σ
  | [], node => (.ok [], node)
  | range :: rest, node =>
    match logs range.first range.last addresses node with
    | (.error e, node) => (.error e, node)
    | (.ok found, node) =>
      let (others, node) := logsOf addresses rest node
      (others.map (found ++ ·), node)

/-- The logs of the blocks from the first to the last, asked for in batches. Without an address
there is nothing to ask for. -/
def logsBetween (first last : UInt64) (addresses : List String) (span : UInt64) (node : σ) :
    Except TrackError (List RawLog) × σ :=
  if addresses.isEmpty then (.ok [], node) else logsOf addresses (batches first last span) node

def decodedLogs (first last : UInt64) (addresses : List String) (span : UInt64) (node : σ) :
    Except TrackError (List Log) × σ :=
  let (found, node) := logsBetween first last addresses span node
  (found.bind fun raw => raw.mapM RawLog.decode, node)

end RemoteNode

end Chainwatch
