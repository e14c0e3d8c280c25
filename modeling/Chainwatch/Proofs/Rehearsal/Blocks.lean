import Chainwatch.Proofs.Bloom.Accrual
import Chainwatch.Proofs.Text.Numeral
import Chainwatch.Rehearsal.PracticeChain
import Mathlib.Data.List.Nodup

/-!
# The blocks of a practice chain

A block follows from its chain, its place and its events. As long as places are numbers of 64 bits, no two blocks of
any chains have one hash, each block names the hash of the one before it, and a range of numbers is a range of places.
-/

namespace Chainwatch

/-! ## Hashes -/

namespace Text.Numeral

theorem hex_injective {width m n : Nat} (same : hex width m = hex width n) : m = n := by
  have denotes (k : Nat) : Denotes 16 (hex width k).toList k := by
    have spelled : (hex width k).toList.map Char.toLower =
        List.replicate (width - (Nat.toDigits 16 k).length) '0' ++ Nat.toDigits 16 k := by
      rw [hex, String.toList_ofList, List.map_append, List.map_replicate, map_toLower_toDigits (by decide) (by decide)]
      rfl
    exact denotes_of_lower_eq (by decide) spelled
  exact (denotes m).unique (by decide) (same ▸ denotes n)

theorem length_hex {width n : Nat} (positive : 0 < width) (fits : n < 16 ^ width) :
    (hex width n).toList.length = width := by
  have short := Nat.toDigits_length 16 n width positive fits
  rw [hex, String.toList_ofList, List.length_append, List.length_replicate]
  omega

end Text.Numeral

/-- A range of positions of a list is a contiguous part of it. -/
theorem filter_eq_drop_take {α : Type} {p : α → Bool} {l : List α} {first next : Nat}
    (chosen : ∀ place x, l[place]? = some x → (p x = true ↔ first ≤ place ∧ place < next)) :
    l.filter p = (l.take next).drop first := by
  induction l generalizing first next with
  | nil => simp
  | cons x rest ih =>
      have head := chosen 0 x rfl
      have tail (place : Nat) (y : α) (found : rest[place]? = some y) := chosen (place + 1) y found
      cases next with
      | zero =>
          rw [List.take_zero, List.drop_nil, List.filter_eq_nil_iff]
          intro y mem
          obtain ⟨place, found⟩ := List.mem_iff_getElem?.mp mem
          rw [chosen place y found]
          omega
      | succ next =>
          cases first with
          | zero =>
              have later : rest.filter p = (rest.take next).drop 0 := by
                refine ih fun place y found => ?_
                rw [tail place y found]
                omega
              rw [List.filter_cons_of_pos (head.mpr (by omega)), later]
              rfl
          | succ first =>
              have later : rest.filter p = (rest.take next).drop first := by
                refine ih fun place y found => ?_
                rw [tail place y found]
                omega
              have passed_over : ¬p x = true := fun passed => Nat.not_succ_le_zero first (head.mp passed).1
              rw [List.filter_cons_of_neg passed_over, later]
              rfl

namespace PracticeChain

open Text.Numeral in
/-- A hash determines chain and number, since the number is written at a fixed width. -/
theorem hashOf_injective {chain chain' number number' : UInt64} (same : hashOf chain number = hashOf chain' number') :
    chain = chain' ∧ number = number' := by
  have width (n : UInt64) : (hex 56 n.toNat).toList.length = 56 :=
    length_hex (by decide) (Nat.lt_of_lt_of_le n.toNat_lt (by decide))
  have texts := congrArg String.toList same
  simp only [hashOf, String.toList_append] at texts
  obtain ⟨front, back⟩ := List.append_inj' texts ((width number).trans (width number').symm)
  have chains := hex_injective (String.toList_inj.mp (List.append_cancel_left front))
  have numbers := hex_injective (String.toList_inj.mp back)
  exact ⟨UInt64.toNat_inj.mp chains, UInt64.toNat_inj.mp numbers⟩

theorem parentHashOf_succ (chain : UInt64) {place : Nat} (fits : place + 1 < 2 ^ 64) :
    parentHashOf chain (UInt64.ofNat (place + 1)) = hashOf chain (UInt64.ofNat place) := by
  have later : UInt64.ofNat (place + 1) ≠ 0 := by
    rw [Ne, ← UInt64.toNat_inj, UInt64.toNat_ofNat_of_lt' fits]
    exact Nat.succ_ne_zero place
  rw [parentHashOf, if_neg later, UInt64.ofNat_add]
  exact congrArg (hashOf chain) (UInt64.add_sub_cancel ..)

/-! ## Blooms -/

def textsOf (events : List PracticeEvent) : List String :=
  events.flatMap fun event => event.address :: event.topics

theorem accrues_bloomOf (events : List PracticeEvent) : (bloomOf events).Accrues (textsOf events) := by
  refine ⟨.empty, (textsOf events).map Bloom.addressBytes, Bloom.isFull_empty, ?_, ?_⟩
  · exact fun text mem => List.mem_map_of_mem mem
  · rw [List.foldl_map, textsOf, List.foldl_flatMap]
    rfl

/-! ## Logs -/

theorem getElem?_logs_blockOf (chain number : UInt64) (events : List PracticeEvent) (place : Nat) :
    (blockOf chain number events).logs[place]? = (events[place]?).map fun event => logOf chain number event place := by
  simp [blockOf, List.getElem?_zipIdx, Function.comp_def]

def eventOf (log : Log) : PracticeEvent :=
  ⟨log.address, log.topics, log.data⟩

theorem map_eventOf_logs (chain number : UInt64) (events : List PracticeEvent) :
    (blockOf chain number events).logs.map eventOf = events := by
  apply List.ext_getElem?
  intro place
  rw [List.getElem?_map, getElem?_logs_blockOf, Option.map_map]
  exact Option.map_id' ..

def reported (c : PracticeChain) (log : Log) : Log :=
  { log with removed := c.logsRemoved }

def reportedIn (c : PracticeChain) (first last : UInt64) : List Log :=
  ((c.blocks.filter fun b => first ≤ b.header.number && b.header.number ≤ last).flatMap (·.logs)).map c.reported

/-- A range is answered with the logs of the addresses, compared in letters of any case. -/
theorem filterLogs?_eq {c : PracticeChain} (works : c.failsLogs = false) (addresses : List String) {first last : UInt64}
    (ordered : first ≤ last) : c.filterLogs? addresses first last =
      some (.ok ((c.reportedIn first last).filter fun log => addresses.any (Text.eqIgnoreCase · log.address))) := by
  rw [filterLogs?, works, if_neg Bool.false_ne_true, if_neg (UInt64.not_lt.mpr ordered), reportedIn, List.filter_map]
  rfl

/-! ## A chain of blocks -/

def blocksOf (chain : UInt64) (contents : List (List PracticeEvent)) : List Block :=
  contents.zipIdx.map fun (events, place) => blockOf chain (UInt64.ofNat place) events

theorem length_blocksOf (chain : UInt64) (contents : List (List PracticeEvent)) :
    (blocksOf chain contents).length = contents.length := by
  rw [blocksOf, List.length_map, List.length_zipIdx]

theorem getElem?_blocksOf (chain : UInt64) (contents : List (List PracticeEvent)) (place : Nat) :
    (blocksOf chain contents)[place]? = (contents[place]?).map (blockOf chain (UInt64.ofNat place)) := by
  simp [blocksOf, List.getElem?_zipIdx, Function.comp_def]

theorem blocksOf_concat (chain : UInt64) (contents : List (List PracticeEvent)) (events : List PracticeEvent) :
    blocksOf chain (contents ++ [events]) =
      blocksOf chain contents ++ [blockOf chain (UInt64.ofNat contents.length) events] := by
  simp [blocksOf, List.zipIdx_append]

theorem exists_of_mem_blocksOf {chain : UInt64} {contents : List (List PracticeEvent)} {block : Block}
    (mem : block ∈ blocksOf chain contents) :
    ∃ number, ∃ events ∈ contents, block = blockOf chain number events := by
  obtain ⟨⟨events, place⟩, among, rfl⟩ := List.mem_map.mp mem
  exact ⟨_, events, List.fst_mem_of_mem_zipIdx among, rfl⟩

theorem map_number_blocksOf {chain : UInt64} {contents : List (List PracticeEvent)} (short : contents.length ≤ 2 ^ 64) :
    (blocksOf chain contents).map (·.header.number.toNat) = List.range contents.length := by
  apply List.ext_getElem?
  intro place
  rw [List.getElem?_map, getElem?_blocksOf, Option.map_map]
  by_cases inside : place < contents.length
  · rw [List.getElem?_eq_getElem inside, List.getElem?_range inside, Option.map_some]
    exact congrArg some (UInt64.toNat_ofNat_of_lt' (Nat.lt_of_lt_of_le inside short))
  · rw [List.getElem?_eq_none (Nat.not_lt.mp inside), List.getElem?_eq_none (by simpa using inside)]
    rfl

theorem nodup_hash_blocksOf {chain : UInt64} {contents : List (List PracticeEvent)} (short : contents.length ≤ 2 ^ 64) :
    ((blocksOf chain contents).map (·.header.hash)).Nodup := by
  have numbers : ((blocksOf chain contents).map (·.header.number)).Nodup := by
    refine List.Nodup.of_map UInt64.toNat ?_
    rw [List.map_map]
    exact (map_number_blocksOf short).symm ▸ List.nodup_range
  have hashes : (blocksOf chain contents).map (·.header.hash) =
      ((blocksOf chain contents).map (·.header.number)).map (hashOf chain) := by
    simp [blocksOf, blockOf, Function.comp_def]
  rw [hashes]
  exact List.Nodup.map (fun _ _ same => (hashOf_injective same).2) numbers

/-- Where blocks are numbered by position, a range of numbers is a contiguous part. -/
theorem filter_number_eq {blocks : List Block}
    (numbered : blocks.map (·.header.number.toNat) = List.range blocks.length) (first last : UInt64) :
    blocks.filter (fun b => first ≤ b.header.number && b.header.number ≤ last) =
      (blocks.take (last.toNat + 1)).drop first.toNat := by
  apply filter_eq_drop_take
  intro place block found
  obtain ⟨inside, -⟩ := List.getElem?_eq_some_iff.mp found
  have number : block.header.number.toNat = place := by
    have same := congrArg (·[place]?) numbered
    simp only [List.getElem?_map, found, List.getElem?_range inside, Option.map_some] at same
    exact Option.some.inj same
  rw [Bool.and_eq_true, decide_eq_true_iff, decide_eq_true_iff, UInt64.le_iff_toNat_le, UInt64.le_iff_toNat_le, number,
    Nat.lt_succ_iff]

/-- The blocks of a chain are faithful to what was mined: they are numbered from zero by position, found
by number, their logs are indexed by position, and a range is answered with the logs of its blocks and
of the given addresses, in order. -/
structure IsFaithful (c : PracticeChain) (contents : List (List PracticeEvent)) : Prop where
  holds : c.blocks.map (fun b => b.logs.map eventOf) = contents
  numbered : c.blocks.map (·.header.number.toNat) = List.range (c.headNumber.toNat + 1)
  found : ∀ number, (c.header? number).map (·.number) = if number ≤ c.headNumber then some number else none
  identified : (c.blocks.map (·.header.hash)).Nodup
  linked : ∀ place block next, c.blocks[place]? = some block → c.blocks[place + 1]? = some next →
    next.header.parentHash = block.header.hash
  probed : ∀ block ∈ c.blocks, ∀ log ∈ block.logs, ∀ text ∈ log.address :: log.topics,
    block.header.bloom.containsAddress? text = some true
  indexed : ∀ block ∈ c.blocks, ∀ place log, block.logs[place]? = some log → place < 2 ^ 32 →
    log.logIndex.toNat = place
  filters : ∀ addresses first last, c.failsLogs = false → first ≤ last → c.filterLogs? addresses first last =
    some (.ok (((((c.blocks.take (last.toNat + 1)).drop first.toNat).flatMap (·.logs)).map c.reported).filter
      fun log => addresses.any (Text.eqIgnoreCase · log.address)))
  unmarked : c.logsRemoved = false → ∀ block ∈ c.blocks, block.logs.map c.reported = block.logs

theorem linked_blocksOf {chain : UInt64} {contents : List (List PracticeEvent)} (short : contents.length ≤ 2 ^ 64)
    {place : Nat} {block next : Block} (found : (blocksOf chain contents)[place]? = some block)
    (behind : (blocksOf chain contents)[place + 1]? = some next) : next.header.parentHash = block.header.hash := by
  rw [getElem?_blocksOf] at found behind
  obtain ⟨events, -, rfl⟩ := Option.map_eq_some_iff.mp found
  obtain ⟨events', among, rfl⟩ := Option.map_eq_some_iff.mp behind
  obtain ⟨inside, -⟩ := List.getElem?_eq_some_iff.mp among
  exact parentHashOf_succ chain (Nat.lt_of_lt_of_le inside short)

theorem probed_blockOf {chain number : UInt64} {events : List PracticeEvent} {log : Log}
    (mem : log ∈ (blockOf chain number events).logs) {text : String} (among : text ∈ log.address :: log.topics) :
    (blockOf chain number events).header.bloom.containsAddress? text = some true := by
  refine (accrues_bloomOf events).containsAddress? ?_ rfl
  have event : eventOf log ∈ events := map_eventOf_logs chain number events ▸ List.mem_map_of_mem mem
  exact List.mem_flatMap.mpr ⟨eventOf log, event, among⟩

theorem map_eventOf_blocksOf (chain : UInt64) (contents : List (List PracticeEvent)) :
    (blocksOf chain contents).map (fun b => b.logs.map eventOf) = contents := by
  apply List.ext_getElem?
  intro place
  rw [List.getElem?_map, getElem?_blocksOf, Option.map_map]
  refine (Option.map_congr fun events _ => ?_).trans (Option.map_id' ..)
  exact map_eventOf_logs ..

theorem header?_number_of_blocks {c : PracticeChain} {contents : List (List PracticeEvent)}
    (made : c.blocks = blocksOf c.chain contents) (begun : 0 < contents.length)
    (newest : c.headNumber.toNat = contents.length - 1) (number : UInt64) :
    (c.header? number).map (·.number) = if number ≤ c.headNumber then some number else none := by
  rw [header?, made, getElem?_blocksOf, Option.map_map, Option.map_map]
  by_cases inside : number ≤ c.headNumber
  · have place : number.toNat < contents.length := by
      rw [UInt64.le_iff_toNat_le, newest] at inside
      omega
    rw [if_pos inside, List.getElem?_eq_getElem place]
    exact congrArg some UInt64.ofNat_toNat
  · have place : contents.length ≤ number.toNat := by
      rw [UInt64.le_iff_toNat_le, newest] at inside
      omega
    rw [if_neg inside, List.getElem?_eq_none place]
    rfl

theorem map_reported_logs {c : PracticeChain} (plain : c.logsRemoved = false) (number : UInt64)
    (events : List PracticeEvent) :
    (blockOf c.chain number events).logs.map c.reported = (blockOf c.chain number events).logs := by
  apply List.ext_getElem?
  intro place
  rw [List.getElem?_map, getElem?_logs_blockOf, Option.map_map]
  refine Option.map_congr fun event _ => ?_
  simp [reported, plain, logOf]

/-- The blocks made by mining form a faithful chain, as long as there are no more than there are block
numbers. -/
theorem isFaithful_of_blocks {c : PracticeChain} {contents : List (List PracticeEvent)}
    (made : c.blocks = blocksOf c.chain contents) (begun : contents ≠ []) (short : contents.length ≤ 2 ^ 64) :
    c.IsFaithful contents := by
  have length : c.blocks.length = contents.length := made ▸ length_blocksOf c.chain contents
  have positive : 0 < contents.length := List.length_pos_iff.mpr begun
  have newest : c.headNumber.toNat = contents.length - 1 := by
    rw [headNumber, length]
    exact UInt64.toNat_ofNat_of_lt' (Nat.lt_of_lt_of_le (Nat.sub_lt positive Nat.one_pos) short)
  have numbered : c.blocks.map (·.header.number.toNat) = List.range c.blocks.length := by
    rw [length, made, map_number_blocksOf short]
  constructor
  case holds => rw [made, map_eventOf_blocksOf]
  case numbered => rw [numbered, newest, length, Nat.sub_add_cancel positive]
  case found => exact header?_number_of_blocks made positive newest
  case identified => exact made ▸ nodup_hash_blocksOf short
  case linked =>
    intro place block next here behind
    rw [made] at here behind
    exact linked_blocksOf short here behind
  case probed =>
    intro block mem log among text
    obtain ⟨number, events, -, rfl⟩ := exists_of_mem_blocksOf (made ▸ mem)
    exact probed_blockOf among
  case indexed =>
    intro block mem place log at_place fits
    obtain ⟨number, events, -, rfl⟩ := exists_of_mem_blocksOf (made ▸ mem)
    rw [getElem?_logs_blockOf] at at_place
    obtain ⟨event, -, rfl⟩ := Option.map_eq_some_iff.mp at_place
    exact UInt32.toNat_ofNat_of_lt' fits
  case filters =>
    intro addresses first last works ordered
    rw [filterLogs?_eq works addresses ordered, reportedIn, filter_number_eq numbered]
  case unmarked =>
    intro plain block mem
    obtain ⟨number, events, -, rfl⟩ := exists_of_mem_blocksOf (made ▸ mem)
    exact map_reported_logs plain number events

end PracticeChain

end Chainwatch
