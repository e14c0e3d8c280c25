import Mathlib.Data.List.Chain
import Chainwatch.Node.Remote

/-!
# Logs in batches

A range of blocks that is too long for one request is asked for in pieces. The pieces are consecutive, none is too long,
and together they are the range, so nothing is left out and nothing comes twice; and the first failure is the last
request.
-/

namespace Chainwatch

/-! ## Pieces of a range -/

/-- Consecutive ranges that cover the blocks from one number up to another, exclusive, each with a
distance of at most `span` between its ends. -/
inductive Tiles (span : Nat) : Nat → List BlockRange → Nat → Prop where
  | nil (first : Nat) : Tiles span first [] first
  | cons {first stop : Nat} {range : BlockRange} {rest : List BlockRange} (starts : range.first.toNat = first)
      (ordered : range.first ≤ range.last) (short : range.last.toNat - range.first.toNat ≤ span)
      (next : Tiles span (range.last.toNat + 1) rest stop) : Tiles span first (range :: rest) stop

namespace Tiles

variable {span first stop : Nat} {ranges : List BlockRange}

theorem le (h : Tiles span first ranges stop) : first ≤ stop := by
  induction h with
  | nil => exact Nat.le_refl _
  | cons starts ordered short next ih =>
      have := UInt64.le_iff_toNat_le.mp ordered
      omega

theorem bounds (h : Tiles span first ranges stop) {range : BlockRange} (mem : range ∈ ranges) :
    range.first ≤ range.last ∧ range.last.toNat - range.first.toNat ≤ span ∧ first ≤ range.first.toNat ∧
      range.last.toNat < stop := by
  induction h with
  | nil => cases mem
  | cons starts ordered short next ih =>
      have reach := UInt64.le_iff_toNat_le.mp ordered
      rcases List.mem_cons.mp mem with rfl | later
      · exact ⟨ordered, short, Nat.le_of_eq starts.symm, next.le⟩
      · obtain ⟨own, fits, low, high⟩ := ih later
        exact ⟨own, fits, by omega, high⟩

theorem isChain (h : Tiles span first ranges stop) :
    ranges.IsChain fun a b => b.first.toNat = a.last.toNat + 1 := by
  induction h with
  | nil => exact .nil
  | cons starts ordered short next ih =>
      cases next with
      | nil => exact .singleton _
      | cons begins => exact .cons_cons begins ih

theorem pairwise (h : Tiles span first ranges stop) : ranges.Pairwise fun a b => a.last < b.first := by
  induction h with
  | nil => exact .nil
  | cons starts ordered short next ih =>
      exact .cons (fun range mem => UInt64.lt_iff_toNat_lt.mpr (next.bounds mem).2.2.1) ih

theorem covers (h : Tiles span first ranges stop) (number : UInt64) :
    (∃ range ∈ ranges, range.first ≤ number ∧ number ≤ range.last) ↔ first ≤ number.toNat ∧ number.toNat < stop := by
  induction h with
  | nil first =>
      simp only [List.not_mem_nil, false_and, exists_false, false_iff]
      omega
  | cons starts ordered short next ih =>
      have reach := UInt64.le_iff_toNat_le.mp ordered
      have bound := next.le
      rw [List.exists_mem_cons_iff, ih]
      simp only [UInt64.le_iff_toNat_le]
      omega

theorem of_append {more : List BlockRange} (h : Tiles span first (ranges ++ more) stop) :
    ∃ middle, Tiles span first ranges middle ∧ middle ≤ stop := by
  induction ranges generalizing first with
  | nil => exact ⟨first, .nil first, h.le⟩
  | cons range rest ih =>
      cases h with
      | cons starts ordered short next =>
          obtain ⟨middle, tiles, below⟩ := ih next
          exact ⟨middle, .cons starts ordered short tiles, below⟩

end Tiles

theorem toNat_add_of_long {first last span : UInt64} (ordered : first ≤ last) (long : ¬last - first ≤ span) :
    (first + span).toNat = first.toNat + span.toNat ∧ (first + span + 1).toNat = first.toNat + span.toNat + 1 ∧
      first.toNat + span.toNat < last.toNat := by
  rw [UInt64.le_iff_toNat_le, UInt64.toNat_sub_of_le _ _ ordered] at long
  have bound := last.toNat_lt
  have inner : (first + span).toNat = first.toNat + span.toNat := by
    rw [UInt64.toNat_add]
    omega
  refine ⟨inner, ?_, by omega⟩
  rw [UInt64.toNat_add, inner, UInt64.toNat_one]
  omega

/-- The batches of a range are consecutive and cover it. -/
theorem tiles_batches {first last : UInt64} (span : UInt64) (ordered : first ≤ last) :
    Tiles span.toNat first.toNat (batches first last span) (last.toNat + 1) := by
  fun_induction batches first last span with
  | case1 first below => exact (UInt64.not_lt.mpr ordered below).elim
  | case2 first _ short =>
      rw [UInt64.le_iff_toNat_le, UInt64.toNat_sub_of_le _ _ ordered] at short
      exact .cons rfl ordered short (.nil _)
  | case3 first _ long ih =>
      obtain ⟨reach, next, below⟩ := toNat_add_of_long ordered long
      have rest := ih (UInt64.le_iff_toNat_le.mpr (by omega))
      rw [next, ← reach] at rest
      have within : first ≤ first + span := UInt64.le_iff_toNat_le.mpr (by omega)
      exact .cons rfl within (show (first + span).toNat - first.toNat ≤ span.toNat by omega) rest

/-- There are as few batches as possible. -/
theorem length_batches {first last : UInt64} (span : UInt64) (ordered : first ≤ last) :
    (batches first last span).length = (last.toNat - first.toNat) / (span.toNat + 1) + 1 := by
  fun_induction batches first last span with
  | case1 first below => exact (UInt64.not_lt.mpr ordered below).elim
  | case2 first _ short =>
      rw [UInt64.le_iff_toNat_le, UInt64.toNat_sub_of_le _ _ ordered] at short
      rw [Nat.div_eq_of_lt (Nat.lt_succ_of_le short)]
      rfl
  | case3 first _ long ih =>
      obtain ⟨-, next, below⟩ := toNat_add_of_long ordered long
      have rest := ih (UInt64.le_iff_toNat_le.mpr (by omega))
      have whole : last.toNat - first.toNat = last.toNat - (first.toNat + span.toNat + 1) + (span.toNat + 1) := by
        omega
      rw [List.length_cons, rest, next, whole, Nat.add_div_right _ (Nat.succ_pos _)]

theorem batches_of_lt {first last : UInt64} (span : UInt64) (below : last < first) : batches first last span = [] := by
  rw [batches, if_pos below]

/-! ## Requests -/

structure LogCall where
  range : BlockRange
  addresses : List String
  outcome : Except TrackError (List RawLog)

namespace LogCall

def found (call : LogCall) : List RawLog :=
  call.outcome.toOption.getD []

end LogCall

/-- A node together with the requests for logs that it got. -/
structure RecordsCalls (σ : Type) where
  node : σ
  calls : List LogCall

namespace RemoteNode

variable {σ : Type} [RemoteNode σ]

instance : RemoteNode (RecordsCalls σ) where
  chainId heard := ((chainId heard.node).1, { heard with node := (chainId heard.node).2 })
  tip heard := ((tip heard.node).1, { heard with node := (tip heard.node).2 })
  block number heard := ((block number heard.node).1, { heard with node := (block number heard.node).2 })
  logs first last addresses heard :=
    let (outcome, node) := logs first last addresses heard.node
    (outcome, ⟨node, heard.calls ++ [⟨⟨first, last⟩, addresses, outcome⟩]⟩)

/-- The requests made for some ranges: none follows a failure. -/
def callsOf (addresses : List String) : List BlockRange → σ → List LogCall
  | [], _ => []
  | range :: rest, node =>
    let (outcome, node) := logs range.first range.last addresses node
    ⟨range, addresses, outcome⟩ ::
      match outcome with
      | .ok _ => callsOf addresses rest node
      | .error _ => []

variable (addresses : List String) (ranges : List BlockRange) (node : σ)

theorem logsOf_recordsCalls (calls : List LogCall) : logsOf addresses ranges (RecordsCalls.mk node calls) =
    ((logsOf addresses ranges node).1, ⟨(logsOf addresses ranges node).2, calls ++ callsOf addresses ranges node⟩) := by
  induction ranges generalizing node calls with
  | nil => simp [logsOf, callsOf]
  | cons range rest ih =>
      simp only [logsOf, callsOf]
      rw [show logs range.first range.last addresses (RecordsCalls.mk node calls) =
        ((logs range.first range.last addresses node).1, ⟨(logs range.first range.last addresses node).2,
          calls ++ [⟨range, addresses, (logs range.first range.last addresses node).1⟩]⟩) from rfl]
      rcases logs range.first range.last addresses node with ⟨e | found, after⟩
      · simp
      · simp [ih]

theorem addresses_callsOf : ∀ call ∈ callsOf addresses ranges node, call.addresses = addresses := by
  induction ranges generalizing node with
  | nil => simp [callsOf]
  | cons range rest ih =>
      simp only [callsOf]
      rcases logs range.first range.last addresses node with ⟨e | found, after⟩
      · simp
      · simpa using ih after

/-- The outcome of requesting some ranges one after another up to the first failure. -/
inductive Ends : List BlockRange → List LogCall → Except TrackError (List RawLog) → Prop where
  | nil : Ends [] [] (.ok [])
  | brought {call : LogCall} {found : List RawLog} {rest : List BlockRange} {calls : List LogCall}
      {outcome : Except TrackError (List RawLog)} (brings : call.outcome = .ok found)
      (later : Ends rest calls outcome) : Ends (call.range :: rest) (call :: calls) (outcome.map (found ++ ·))
  | failed {call : LogCall} {e : TrackError} (fails : call.outcome = .error e) (rest : List BlockRange) :
      Ends (call.range :: rest) [call] (.error e)

theorem ends_callsOf : Ends ranges (callsOf addresses ranges node) (logsOf addresses ranges node).1 := by
  induction ranges generalizing node with
  | nil => exact .nil
  | cons range rest ih =>
      simp only [logsOf, callsOf]
      rcases logs range.first range.last addresses node with ⟨e | found, after⟩
      · have fails : (LogCall.mk range addresses (.error e)).outcome = .error e := rfl
        exact .failed fails rest
      · have brings : (LogCall.mk range addresses (.ok found)).outcome = .ok found := rfl
        exact .brought brings (ih after)

namespace Ends

variable {addresses : List String} {ranges : List BlockRange} {calls : List LogCall}
  {outcome : Except TrackError (List RawLog)}

theorem ranges_prefix (h : Ends ranges calls outcome) : calls.map (·.range) <+: ranges := by
  induction h with
  | nil => exact List.prefix_rfl
  | brought brings later ih => exact List.cons_prefix_cons.mpr ⟨rfl, ih⟩
  | failed fails rest => exact List.cons_prefix_cons.mpr ⟨rfl, List.nil_prefix⟩

/-- Without a failure every range was requested, and the logs are concatenated in this order. -/
theorem whole (h : Ends ranges calls outcome) (brought : ∀ call ∈ calls, ∃ found, call.outcome = .ok found) :
    calls.map (·.range) = ranges ∧ outcome = .ok (calls.flatMap (·.found)) := by
  induction h with
  | nil => exact ⟨rfl, rfl⟩
  | @brought call found rest calls outcome brings later ih =>
      obtain ⟨all, joined⟩ := ih (List.forall_mem_cons.mp brought).2
      have own : call.found = found := by rw [LogCall.found, brings]; rfl
      refine ⟨congrArg _ all, ?_⟩
      rw [joined, List.flatMap_cons, own]
      rfl
  | failed fails rest =>
      obtain ⟨found, brings⟩ := brought _ List.mem_cons_self
      cases fails.symm.trans brings

/-- The first failure is the outcome, and nothing is requested after it. -/
theorem failure (h : Ends ranges calls outcome) {before after : List LogCall} {call : LogCall} {e : TrackError}
    (made : calls = before ++ call :: after) (fails : call.outcome = .error e) : after = [] ∧ outcome = .error e := by
  induction h generalizing before with
  | nil => simp at made
  | brought brings later ih =>
      rcases List.cons_eq_append_iff.mp made with ⟨rfl, same⟩ | ⟨before, rfl, same⟩
      · cases same
        cases fails.symm.trans brings
      · obtain ⟨last, failed⟩ := ih same
        exact ⟨last, by rw [failed]; rfl⟩
  | failed fails' rest =>
      rcases List.cons_eq_append_iff.mp made with ⟨rfl, same⟩ | ⟨before, rfl, same⟩
      · cases same
        cases fails.symm.trans fails'
        exact ⟨rfl, rfl⟩
      · simp at same

end Ends

/-! ## Logs of a range -/

/-- The requests for the logs of a range of blocks and their outcome: the requested ranges lie within
the range, are consecutive and short enough; without a failure they cover the range and their logs are
concatenated; a failure is the outcome and the last request. -/
structure AsksInBatches (first last span : UInt64) (addresses : List String) (calls : List LogCall)
    (outcome : Except TrackError (List RawLog)) : Prop where
  addresses : ∀ call ∈ calls, call.addresses = addresses
  within : ∀ call ∈ calls, first ≤ call.range.first ∧ call.range.first ≤ call.range.last ∧ call.range.last ≤ last ∧
    call.range.last.toNat - call.range.first.toNat + 1 ≤ span.toNat + 1
  consecutive : calls.IsChain fun a b => b.range.first.toNat = a.range.last.toNat + 1
  numbered : ∀ call ∈ calls, call.range.last.toNat + 1 < UInt64.size
  disjoint : calls.Pairwise fun a b => a.range.last < b.range.first
  few : calls.length ≤ (last.toNat - first.toNat) / (span.toNat + 1) + 1
  whole : (∀ call ∈ calls, ∃ found, call.outcome = .ok found) → outcome = .ok (calls.flatMap (·.found)) ∧
    ∀ number, (∃ call ∈ calls, call.range.first ≤ number ∧ number ≤ call.range.last) ↔ first ≤ number ∧ number ≤ last
  failed : ∀ {before after : List LogCall} {call : LogCall} {e : TrackError}, calls = before ++ call :: after →
    call.outcome = .error e → after = [] ∧ outcome = .error e

/-- Whatever was requested before, the node answers a range with these logs. -/
def AnswersWith (addresses : List String) (logsIn : UInt64 → UInt64 → List RawLog) (node : σ) : Prop :=
  ∀ (earlier : List BlockRange) (first last : UInt64),
    (logs first last addresses
      (earlier.foldl (fun node range => (logs range.first range.last addresses node).2) node)).1 =
        .ok (logsIn first last)

def IsJoined (logsIn : UInt64 → UInt64 → List RawLog) : Prop :=
  ∀ {first middle last : UInt64}, first ≤ middle → middle < last →
    logsIn first last = logsIn first middle ++ logsIn (middle + 1) last

section Joined

variable {addresses : List String} {logsIn : UInt64 → UInt64 → List RawLog} {node : σ}

theorem AnswersWith.now (h : AnswersWith addresses logsIn node) (first last : UInt64) :
    (logs first last addresses node).1 = .ok (logsIn first last) :=
  h [] first last

theorem AnswersWith.next (h : AnswersWith addresses logsIn node) (first last : UInt64) :
    AnswersWith addresses logsIn (logs first last addresses node).2 :=
  fun earlier => h (⟨first, last⟩ :: earlier)

theorem logsOf_cons {range : BlockRange} {found : List RawLog}
    (brings : (logs range.first range.last addresses node).1 = .ok found) (rest : List BlockRange) :
    (logsOf addresses (range :: rest) node).1 =
      (logsOf addresses rest (logs range.first range.last addresses node).2).1.map (found ++ ·) := by
  simp only [logsOf]
  generalize logs range.first range.last addresses node = asked at *
  obtain ⟨outcome, after⟩ := asked
  cases brings
  rfl

/-- Requested in batches, a range gives the logs that a single request would give. -/
theorem logsOf_batches (joined : IsJoined logsIn) {first last : UInt64} (span : UInt64) (ordered : first ≤ last)
    (h : AnswersWith addresses logsIn node) :
    (logsOf addresses (batches first last span) node).1 = .ok (logsIn first last) := by
  fun_induction batches first last span generalizing node with
  | case1 first below => exact (UInt64.not_lt.mpr ordered below).elim
  | case2 first _ short =>
      rw [logsOf_cons (h.now first last)]
      exact congrArg Except.ok (List.append_nil _)
  | case3 first _ long ih =>
      obtain ⟨reach, next, below⟩ := toNat_add_of_long ordered long
      have later := ih (UInt64.le_iff_toNat_le.mpr (by omega)) (h.next first (first + span))
      have low : first ≤ first + span := UInt64.le_iff_toNat_le.mpr (by omega)
      have high : first + span < last := UInt64.lt_iff_toNat_lt.mpr (by omega)
      rw [logsOf_cons (h.now first (first + span)), later, joined low high]
      rfl

end Joined

theorem asksInBatches_of_ends {first last span : UInt64} {addresses : List String} {calls : List LogCall}
    {outcome : Except TrackError (List RawLog)} (below : last.toNat + 1 < UInt64.size)
    (same : ∀ call ∈ calls, call.addresses = addresses) (ends : Ends (batches first last span) calls outcome) :
    AsksInBatches first last span addresses calls outcome := by
  by_cases empty : last < first
  · rw [batches_of_lt span empty] at ends
    cases ends
    have apart (number : UInt64) : ¬(first ≤ number ∧ number ≤ last) := fun within =>
      UInt64.not_lt.mpr (UInt64.le_trans within.1 within.2) empty
    constructor <;> simp [apart]
  · have ordered := UInt64.not_lt.mp empty
    have tiles := tiles_batches span ordered
    obtain ⟨later, shape⟩ := ends.ranges_prefix
    have parts := tiles
    rw [← shape] at parts
    obtain ⟨stop, asked, stops⟩ := parts.of_append
    have bounds (call : LogCall) (mem : call ∈ calls) := asked.bounds (List.mem_map_of_mem (f := LogCall.range) mem)
    constructor
    case addresses => exact same
    case within =>
      intro call mem
      obtain ⟨own, short, low, high⟩ := bounds call mem
      exact ⟨UInt64.le_iff_toNat_le.mpr low, own, UInt64.le_iff_toNat_le.mpr (by omega), by omega⟩
    case consecutive => exact (List.isChain_map _).mp asked.isChain
    case numbered =>
      intro call mem
      have high := (bounds call mem).2.2.2
      omega
    case disjoint => exact List.pairwise_map.mp asked.pairwise
    case few =>
      rw [← length_batches span ordered, ← shape, List.length_append, List.length_map]
      exact Nat.le_add_right _ _
    case whole =>
      intro brought
      obtain ⟨all, joined⟩ := ends.whole brought
      refine ⟨joined, fun number => ?_⟩
      have covers := tiles.covers number
      rw [← all] at covers
      simp only [List.mem_map, exists_exists_and_eq_and] at covers
      rw [covers, UInt64.le_iff_toNat_le, UInt64.le_iff_toNat_le, Nat.lt_succ_iff]
    case failed => exact ends.failure

/-- The logs of a range are requested in consecutive batches that cover it, up to the first failure. For
a node whose logs of a range are those of its parts, the batches give what one request would. -/
theorem logsBetween_asks_in_batches (first last span : UInt64) {addresses : List String} (node : σ)
    (below : last.toNat + 1 < UInt64.size) (some : addresses ≠ []) :
    AsksInBatches first last span addresses
        (logsBetween first last addresses span (RecordsCalls.mk node [])).2.calls
        (logsBetween first last addresses span node).1 ∧
      (first ≤ last → ∀ logsIn, IsJoined logsIn → AnswersWith addresses logsIn node →
        (logsBetween first last addresses span node).1 = (logs first last addresses node).1) := by
  have nonempty : addresses.isEmpty = false := by
    rwa [← Bool.not_eq_true, List.isEmpty_iff]
  have asked {τ : Type} [RemoteNode τ] (node : τ) :
      logsBetween first last addresses span node = logsOf addresses (batches first last span) node := by
    rw [logsBetween, nonempty, if_neg Bool.false_ne_true]
  rw [asked, asked, logsOf_recordsCalls]
  constructor
  · rw [List.nil_append]
    exact asksInBatches_of_ends below (addresses_callsOf _ _ node) (ends_callsOf _ _ node)
  · intro ordered logsIn joined answers
    rw [logsOf_batches joined span ordered answers, answers.now]

end RemoteNode

/-! ### A node that keeps the logs of each block -/

def Archive : Type := UInt64 → List RawLog

namespace Archive

def logsIn (a : Archive) (first last : UInt64) : List RawLog :=
  (List.range' first.toNat (last.toNat + 1 - first.toNat)).flatMap fun number => a (.ofNat number)

instance : RemoteNode Archive where
  chainId a := (.ok 1, a)
  tip a := (.ok 0, a)
  block _ a := (.ok none, a)
  logs first last _ a := (.ok (a.logsIn first last), a)

theorem isJoined_logsIn (a : Archive) : RemoteNode.IsJoined a.logsIn := by
  intro first middle last low high
  rw [UInt64.le_iff_toNat_le] at low
  rw [UInt64.lt_iff_toNat_lt] at high
  have bound := last.toNat_lt
  have next : (middle + 1).toNat = middle.toNat + 1 := by
    rw [UInt64.toNat_add, UInt64.toNat_one]
    omega
  have whole : last.toNat + 1 - first.toNat =
      (middle.toNat + 1 - first.toNat) + (last.toNat + 1 - (middle.toNat + 1)) := by
    omega
  have seam : first.toNat + (middle.toNat + 1 - first.toNat) = middle.toNat + 1 := by
    omega
  rw [logsIn, logsIn, logsIn, next, ← List.flatMap_append, whole, ← List.range'_append_1, seam]

theorem answersWith_logsIn (a : Archive) (addresses : List String) :
    RemoteNode.AnswersWith addresses a.logsIn a := by
  intro earlier first last
  induction earlier with
  | nil => rfl
  | cons range rest ih => exact ih

def oneEach : Archive := fun number =>
  [{ address := "0xaa", topics := [], data := "0x", blockNumber := toString number, blockHash := "0xb", txHash := "0xt",
     txIndex := "0x0", logIndex := "0x0", removed := none }]

end Archive

namespace RemoteNode

/-- Five blocks, two at a time. -/
theorem logsBetween_asks_in_batches_five_blocks :
    let asked := logsBetween 0 4 ["0xaa"] 1 (RecordsCalls.mk Archive.oneEach [])
    (4 : UInt64).toNat + 1 < UInt64.size ∧ ["0xaa"] ≠ [] ∧
      asked.2.calls.map (·.range) = [⟨0, 1⟩, ⟨2, 3⟩, ⟨4, 4⟩] ∧
      AsksInBatches 0 4 1 ["0xaa"] asked.2.calls (logsBetween 0 4 ["0xaa"] 1 Archive.oneEach).1 ∧
      (logsBetween 0 4 ["0xaa"] 1 Archive.oneEach).1 = (logs 0 4 ["0xaa"] Archive.oneEach).1 := by
  obtain ⟨batched, once⟩ :=
    logsBetween_asks_in_batches 0 4 1 Archive.oneEach (by decide) (List.cons_ne_nil "0xaa" [])
  have cut : batches 0 4 1 = [⟨0, 1⟩, ⟨2, 3⟩, ⟨4, 4⟩] := by
    rw [batches, batches, batches]
    rfl
  refine ⟨by decide, by decide, ?_, batched, once (by decide) _ Archive.oneEach.isJoined_logsIn
    (Archive.oneEach.answersWith_logsIn _)⟩
  dsimp only [logsBetween]
  rw [cut]
  rfl

end RemoteNode

end Chainwatch
