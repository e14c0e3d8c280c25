import Chainwatch.Store.Contract

/-!
# Relational store

Two tables: blocks, unique by chain and number and by chain and hash, and events, unique by block
and place. Numbers of 64 bits are kept as signed ones of the same bits, so the order within the
tables puts those from `2 ^ 63` on before zero. Addresses and signatures are compared in letters of
any case, and only up to a NUL. A write is a transaction: it takes effect as a
whole, after its hooks. A block row is read back with the check that its bloom has its full length.
-/

namespace Chainwatch

structure BlockRow where
  id : Nat
  chain : Int64
  number : Int64
  hash : String
  parentHash : String
  state : Int
  timestamp : Int64
  bloom : List UInt8
  deriving DecidableEq

namespace BlockRow

def ofHead (id : Nat) (head : Head) : BlockRow where
  id := id
  chain := head.chain.toInt64
  number := head.number.toInt64
  hash := head.hash
  parentHash := head.parentHash
  state := head.state.code
  timestamp := head.timestamp.toInt64
  bloom := head.bloom.bytes

def head (row : BlockRow) : Except TrackError Head :=
  match BlockState.ofCode? row.state with
  | none => .error (.storage ("unknown block state code " ++ toString row.state))
  | some state =>
    match Bloom.ofBytes? row.bloom with
    | none => .error (.storage ("bad bloom length " ++ toString row.bloom.length))
    | some bloom => .ok {
        chain := row.chain.toUInt64
        number := row.number.toUInt64
        hash := row.hash
        parentHash := row.parentHash
        state := state
        timestamp := row.timestamp.toUInt64
        bloom := bloom }

def admittedBy (row : BlockRow) (q : HeadQuery) : Bool :=
  fieldAdmits (q.chain.map UInt64.toInt64) row.chain
    && fieldAdmits (q.number.map UInt64.toInt64) row.number
    && fieldAdmits q.hash row.hash
    && fieldAdmits q.parentHash row.parentHash
    && fieldAdmits (q.state.map BlockState.code) row.state

/-- The order of the table: by chain, then by number. -/
def before (a b : BlockRow) : Bool :=
  decide (a.chain < b.chain) || (a.chain == b.chain && decide (a.number ≤ b.number))

end BlockRow

structure EventRow where
  blockId : Nat
  address : String
  topics : List String
  signature : Option String
  data : List UInt8
  txHash : String
  txIndex : UInt32
  logIndex : UInt32
  removed : Bool
  deriving DecidableEq

namespace EventRow

def ofEvent (blockId : Nat) (event : Event) : EventRow where
  blockId := blockId
  address := event.address
  topics := event.topics
  signature := event.signature?
  data := event.data
  txHash := event.txHash
  txIndex := event.txIndex
  logIndex := event.logIndex
  removed := event.removed

/-- The event that a row keeps, merged with its block. -/
def event (row : EventRow) (block : Head) : Event where
  chain := block.chain
  blockNumber := block.number
  blockHash := block.hash
  state := block.state
  address := row.address
  topics := row.topics
  data := row.data
  txHash := row.txHash
  txIndex := row.txIndex
  logIndex := row.logIndex
  removed := row.removed

/-- Whether the row has every value that a query asks for of an event's own fields. -/
def admittedBy (row : EventRow) (q : EventQuery) : Bool :=
  q.address.all (Text.eqBeforeNul row.address)
    && fieldAdmits q.txHash row.txHash
    && fieldAdmits q.txIndex row.txIndex
    && fieldAdmits q.logIndex row.logIndex
    && q.topic.all (fun topic => row.signature.any (Text.eqBeforeNul · topic))
    && fieldAdmits q.removed row.removed

end EventRow

/-- The order of answers: by chain, number and place, as unsigned numbers. -/
def Event.before (a b : Event) : Bool :=
  decide (a.chain < b.chain)
    || (a.chain == b.chain
      && (decide (a.blockNumber < b.blockNumber)
        || (a.blockNumber == b.blockNumber && decide (a.logIndex ≤ b.logIndex))))

structure RelationalStore where
  blocks : List BlockRow
  events : List EventRow
  nextId : Nat
  deriving DecidableEq

namespace RelationalStore

def empty : RelationalStore := ⟨[], [], 1⟩

instance : Inhabited RelationalStore := ⟨empty⟩

def rowOfNumber? (s : RelationalStore) (chain number : UInt64) : Option BlockRow :=
  s.blocks.find? fun row => row.chain == chain.toInt64 && row.number == number.toInt64

def rowOfHash? (s : RelationalStore) (chain : UInt64) (hash : String) : Option BlockRow :=
  s.blocks.find? fun row => row.chain == chain.toInt64 && row.hash == hash

def insertBlock? (s : RelationalStore) (head : Head) : Option (BlockRow × RelationalStore) :=
  if (s.rowOfNumber? head.chain head.number).isSome || (s.rowOfHash? head.chain head.hash).isSome then
    none
  else
    let row := BlockRow.ofHead s.nextId head
    some (row, { s with blocks := s.blocks ++ [row], nextId := s.nextId + 1 })

/-- The row with a head's values in the place of its own; a confirmed one stays confirmed. -/
def overwrite (row : BlockRow) (head : Head) : BlockRow :=
  { BlockRow.ofHead row.id head with
    state := if row.state = BlockState.confirmed.code then row.state else head.state.code }

/-- Adds a row for a head or overwrites the one of its number, if no other has its hash. -/
def upsertBlock? (s : RelationalStore) (head : Head) : Option (BlockRow × RelationalStore) :=
  match s.rowOfNumber? head.chain head.number with
  | none => s.insertBlock? head
  | some old =>
    if (s.rowOfHash? head.chain head.hash).any (·.id != old.id) then none
    else
      let row := overwrite old head
      some (row, { s with blocks := s.blocks.map fun r => if r.id = old.id then row else r })

/-- Removes the events of a block at a head's number that has another hash. -/
def deleteReplacedEvents (s : RelationalStore) (head : Head) : RelationalStore :=
  match s.rowOfNumber? head.chain head.number with
  | none => s
  | some row =>
    if row.hash = head.hash then s
    else { s with events := s.events.filter (·.blockId != row.id) }

/-- Adds an event to the block of a hash, if there is one and the place is not taken. -/
def insertEvent (chain : UInt64) (hash : String) (s : RelationalStore) (event : Event) :
    RelationalStore :=
  match s.rowOfHash? chain hash with
  | none => s
  | some row =>
    if s.events.any fun e => e.blockId == row.id && e.logIndex == event.logIndex then s
    else { s with events := s.events ++ [.ofEvent row.id event] }

variable {σ : Type}

def createHead (s : RelationalStore) (head : Head) (hooks : List (Hook σ Head)) (state : σ) :
    Written RelationalStore σ Head :=
  match s.insertBlock? head with
  | none =>
    let what := "block " ++ toString head.number ++ " (" ++ head.hash ++ ")"
    ⟨.error (.conflict head.chain what), s, state⟩
  | some (_, written) =>
    match runHooks hooks head state with
    | (.ok (), state) => ⟨.ok head, written, state⟩
    | (.error e, state) => ⟨.error e, s, state⟩

def upsertHead (s : RelationalStore) (head : Head) (hooks : List (Hook σ Head)) (state : σ) :
    Written RelationalStore σ Head :=
  match (s.deleteReplacedEvents head).upsertBlock? head with
  | none => ⟨.error (.hashConflict head.chain head.hash), s, state⟩
  | some (row, written) =>
    match row.head with
    | .error e => ⟨.error e, s, state⟩
    | .ok stored =>
      match runHooks hooks stored state with
      | (.ok (), state) => ⟨.ok stored, written, state⟩
      | (.error e, state) => ⟨.error e, s, state⟩

def saveLogs (s : RelationalStore) (chain : UInt64) (hash : String) (events : List Event)
    (hooks : List (Hook σ (List Event))) (state : σ) : Written RelationalStore σ (List Event) :=
  if events.isEmpty then ⟨.ok events, s, state⟩
  else
    let written := events.foldl (insertEvent chain hash) s
    match written.rowOfHash? chain hash with
    | none => ⟨.error (.noBlockHash chain hash), s, state⟩
    | some row =>
      match row.head with
      | .error e => ⟨.error e, s, state⟩
      | .ok block =>
        let merged := events.map (·.mergeWith block)
        match runHooks hooks merged state with
        | (.ok (), state) => ⟨.ok merged, written, state⟩
        | (.error e, state) => ⟨.error e, s, state⟩

/-- The greatest confirmed number on a chain, as a signed number, or zero. -/
def height (s : RelationalStore) (chain : UInt64) : UInt64 :=
  let rows := s.blocks.filter fun row =>
    row.chain == chain.toInt64 && row.state == BlockState.confirmed.code
  match rows.map (·.number) with
  | [] => 0
  | first :: rest => (rest.foldl (fun a b => if a < b then b else a) first).toUInt64

def selectBlocks (s : RelationalStore) (q : HeadQuery) : List BlockRow :=
  (s.blocks.filter (·.admittedBy q)).mergeSort BlockRow.before

def heads (s : RelationalStore) (q : HeadQuery) : Except TrackError (List Head) :=
  (s.selectBlocks q).mapM (·.head)

def countHeads (s : RelationalStore) (q : HeadQuery) : Nat :=
  (s.blocks.filter (·.admittedBy q)).length

/-! ### Events, in two passes -/

/-- How many row numbers one statement asks for at most. -/
def largestPiece : Nat := 500

/-- The rest of a piece that has room for more, and the pieces after it. -/
def piecesAfter {α : Type} (size : Nat) : List α → Nat → List α × List (List α)
  | [], _ => ([], [])
  | a :: rest, 0 =>
    let (piece, pieces) := piecesAfter size rest (size - 1)
    ([], (a :: piece) :: pieces)
  | a :: rest, room + 1 =>
    let (piece, pieces) := piecesAfter size rest room
    (a :: piece, pieces)

/-- A list in pieces of one size, the last of which may be shorter. -/
def pieces {α : Type} (size : Nat) (list : List α) : List (List α) :=
  (piecesAfter size list 0).2

/-- The heads of rows, each with its row number. -/
def readBlocks (rows : List BlockRow) : Except TrackError (List (Nat × Head)) :=
  rows.mapM fun row => row.head.map (row.id, ·)

/-- The rows of some row numbers, asked for piece by piece. -/
def blocksById (s : RelationalStore) (ids : List Nat) : List BlockRow :=
  (pieces largestPiece ids).flatMap fun piece => s.blocks.filter (piece.contains ·.id)

/-- The rows that a query admits by the events' own fields: of all blocks, or piece by piece of some. -/
def eventRows (s : RelationalStore) (q : EventQuery) : Option (List Nat) → List EventRow
  | none => s.events.filter (·.admittedBy q)
  | some ids =>
    (pieces largestPiece ids).flatMap fun piece =>
      s.events.filter fun row => piece.contains row.blockId && row.admittedBy q

/-- The blocks of rows that were not read yet, each once. -/
def missingBlocks (known : List (Nat × Head)) (rows : List EventRow) : List Nat :=
  let ids := (rows.map (·.blockId)).filter fun id => (known.lookup id).isNone
  (ids.mergeSort fun a b => decide (a ≤ b)).eraseReps

/-- The event of a row, merged with its block. -/
def mergeRow (owners : List (Nat × Head)) (row : EventRow) : Except TrackError Event :=
  match owners.lookup row.blockId with
  | none => .error (.storage ("event references missing block " ++ toString row.blockId))
  | some block => .ok (row.event block)

/-- The rows to answer with, and the blocks read for them: where a query has conditions on the block,
its blocks are selected first and narrow the rows. -/
def firstPass (s : RelationalStore) (q : EventQuery) :
    Except TrackError (List EventRow × List (Nat × Head)) :=
  match q.ofBlock? with
  | none => .ok (s.eventRows q none, [])
  | some block =>
    (readBlocks (s.selectBlocks block)).map fun known => (s.eventRows q (some (known.map (·.1))), known)

/-- Reads the remaining blocks and merges each row with its own. -/
def secondPass (s : RelationalStore) (rows : List EventRow) (known : List (Nat × Head)) :
    Except TrackError (List Event) := do
  let more ← readBlocks (s.blocksById (missingBlocks known rows))
  let found ← rows.mapM (mergeRow (known ++ more))
  return found.mergeSort Event.before

def selectEvents (s : RelationalStore) (q : EventQuery) : Except TrackError (List Event) := do
  let (rows, known) ← s.firstPass q
  s.secondPass rows known

def countEvents (s : RelationalStore) (q : EventQuery) : Nat :=
  (s.events.filter fun e =>
    e.admittedBy q && s.blocks.any fun row =>
      row.id == e.blockId && q.ofBlock?.all (row.admittedBy ·)).length

instance : BlockStore RelationalStore where
  createHead := createHead
  upsertHead := upsertHead
  saveLogs := saveLogs
  height s chain := .ok (s.height chain)
  heads := heads
  countHeads s q := .ok (s.countHeads q)
  events := selectEvents
  countEvents s q := .ok (s.countEvents q)

end RelationalStore

end Chainwatch
