import Std.Data.ExtTreeMap.Basic
import Chainwatch.Store.Contract

/-!
# Nested store

Maps within maps: chains, and in each chain the heads by number, the numbers by hash and the events
by the hash of their block. A write changes the maps first and runs its hooks then; when one fails,
the write is taken back entry by entry.
-/

namespace Chainwatch

structure ChainTable where
  heads : Std.ExtTreeMap UInt64 Head
  /-- The number of each hash. -/
  numbers : Std.ExtTreeMap String UInt64
  events : Std.ExtTreeMap String (List Event)
  deriving DecidableEq

namespace ChainTable

def empty : ChainTable := ⟨∅, ∅, ∅⟩

def put (s : ChainTable) (head : Head) : ChainTable :=
  { s with
    heads := s.heads.insert head.number head
    numbers := s.numbers.insert head.hash head.number }

/-- Takes away what `put` put. -/
def take (s : ChainTable) (head : Head) : ChainTable :=
  { s with
    heads := s.heads.erase head.number
    numbers := s.numbers.erase head.hash }

structure Replaced where
  head : Option Head
  events : Option (List Event)

/-- What a head would replace. -/
def replacedBy (s : ChainTable) (head : Head) : Replaced :=
  match s.heads[head.number]? with
  | none => ⟨none, none⟩
  | some old => ⟨some old, if old.hash = head.hash then none else s.events[old.hash]?⟩

/-- Puts a head in the place of another: that one's hash is forgotten, and with another hash its
events too. -/
def replace (s : ChainTable) (head : Head) (replaced : Replaced) : ChainTable :=
  match replaced.head with
  | none => s.put head
  | some old =>
    { heads := s.heads.insert head.number head
      numbers := (s.numbers.erase old.hash).insert head.hash head.number
      events := if old.hash = head.hash then s.events else s.events.erase old.hash }

/-- Takes away what `replace` put and brings back what it pushed out. -/
def restore (s : ChainTable) (head : Head) (replaced : Replaced) : ChainTable :=
  match replaced.head with
  | none => s.take head
  | some old =>
    { heads := s.heads.insert old.number old
      numbers := (s.numbers.erase head.hash).insert old.hash old.number
      events :=
        match replaced.events with
        | none => s.events
        | some events => s.events.insert old.hash events }

def headOfHash? (s : ChainTable) (hash : String) : Option Head :=
  s.numbers[hash]?.bind (s.heads[·]?)

def eventsOf (s : ChainTable) (hash : String) : List Event :=
  s.events.getD hash []

/-- Adds the events whose place is not taken, by those kept or by those before them. -/
def appendNew (kept : List Event) (events : List Event) : List Event :=
  events.foldl
    (fun kept event => if kept.any (·.logIndex == event.logIndex) then kept else kept ++ [event])
    kept

def putEvents (s : ChainTable) (hash : String) (events : List Event) : ChainTable :=
  { s with events := s.events.insert hash events }

def height (s : ChainTable) : UInt64 :=
  ((s.heads.toList.reverse.find? (·.2.state == .confirmed)).map (·.1)).getD 0

def select (s : ChainTable) (q : HeadQuery) : List Head :=
  (s.heads.toList.map (·.2)).filter q.admits

/-- The events of one block that a query admits, by place. -/
def selectEventsOf (s : ChainTable) (q : EventQuery) (head : Head) : List Event :=
  (((s.eventsOf head.hash).filter q.admitsOwn).map (·.mergeWith head)).mergeSort
    fun a b => decide (a.logIndex ≤ b.logIndex)

def selectEvents (s : ChainTable) (q : EventQuery) : List Event :=
  let blocks := (s.heads.toList.map (·.2)).filter fun head => q.ofBlock?.all (·.admits head)
  blocks.flatMap (s.selectEventsOf q)

end ChainTable

structure NestedStore where
  chains : Std.ExtTreeMap UInt64 ChainTable
  deriving DecidableEq

namespace NestedStore

def empty : NestedStore := ⟨∅⟩

instance : Inhabited NestedStore := ⟨empty⟩

def table (s : NestedStore) (chain : UInt64) : ChainTable :=
  s.chains.getD chain .empty

def putTable (s : NestedStore) (chain : UInt64) (table : ChainTable) : NestedStore :=
  ⟨s.chains.insert chain table⟩

variable {σ : Type}

def createHead (s : NestedStore) (head : Head) (hooks : List (Hook σ Head)) (state : σ) :
    Written NestedStore σ Head :=
  let table := s.table head.chain
  if table.heads.contains head.number then
    ⟨.error (.headConflict head.chain head.number), s, state⟩
  else if table.numbers.contains head.hash then
    ⟨.error (.hashConflict head.chain head.hash), s, state⟩
  else
    let placed := table.put head
    match runHooks hooks head state with
    | (.ok (), state) => ⟨.ok head, s.putTable head.chain placed, state⟩
    | (.error e, state) => ⟨.error e, s.putTable head.chain (placed.take head), state⟩

/-- Adds a head, or puts it in the place of the one of its number. -/
def upsertHead (s : NestedStore) (head : Head) (hooks : List (Hook σ Head)) (state : σ) :
    Written NestedStore σ Head :=
  let table := s.table head.chain
  if table.numbers[head.hash]?.any (· != head.number) then
    ⟨.error (.hashConflict head.chain head.hash), s, state⟩
  else
    let replaced := table.replacedBy head
    let head := if replaced.head.any (·.state == .confirmed) then head.withState .confirmed else head
    let placed := table.replace head replaced
    match runHooks hooks head state with
    | (.ok (), state) => ⟨.ok head, s.putTable head.chain placed, state⟩
    | (.error e, state) => ⟨.error e, s.putTable head.chain (placed.restore head replaced), state⟩

def saveLogs (s : NestedStore) (chain : UInt64) (hash : String) (events : List Event)
    (hooks : List (Hook σ (List Event))) (state : σ) : Written NestedStore σ (List Event) :=
  if events.isEmpty then ⟨.ok events, s, state⟩
  else
    let table := s.table chain
    match table.headOfHash? hash with
    | none => ⟨.error (.noBlockHash chain hash), s, state⟩
    | some block =>
      let merged := events.map (·.mergeWith block)
      let kept := table.eventsOf block.hash
      let extended := ChainTable.appendNew kept merged
      match runHooks hooks merged state with
      | (.ok (), state) =>
        ⟨.ok merged, s.putTable chain (table.putEvents block.hash extended), state⟩
      | (.error e, state) =>
        let cut := extended.take kept.length
        ⟨.error e, s.putTable chain (table.putEvents block.hash cut), state⟩

/-- The tables that a query for a chain looks at, in the order of the chains. -/
def tables (s : NestedStore) (chain : Option UInt64) : List ChainTable :=
  (s.chains.toList.filter fun entry => fieldAdmits chain entry.1).map (·.2)

def heads (s : NestedStore) (q : HeadQuery) : List Head :=
  (s.tables q.chain).flatMap (·.select q)

def events (s : NestedStore) (q : EventQuery) : List Event :=
  (s.tables q.chain).flatMap (·.selectEvents q)

instance : BlockStore NestedStore where
  createHead := createHead
  upsertHead := upsertHead
  saveLogs := saveLogs
  height s chain := .ok (s.table chain).height
  heads s q := .ok (s.heads q)
  countHeads s q := .ok (s.heads q).length
  events s q := .ok (s.events q)
  countEvents s q := .ok (s.events q).length

end NestedStore

end Chainwatch
