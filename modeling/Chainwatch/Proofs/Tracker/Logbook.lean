import Chainwatch.Proofs.Tracker.TaskSteps

/-!
# The logs of a served chain

A node that serves a chain replies with the logs of a block that have a watched address. In every order of
the work on a block, and whatever its bloom, the work is about the same logs, and no log is left out.
-/

namespace Chainwatch

/-! ## Look-ups in full blooms -/

namespace Bloom

variable {b : Bloom}

/-- A full bloom contains some watched address if it contains one of the addresses. -/
theorem containsAny?_eq (full : b.IsFull) (addresses : List String) :
    b.containsAny? addresses = some (addresses.any fun address => b.containsAddress? address == some true) := by
  induction addresses with
  | nil => rfl
  | cons address rest ih =>
      have found : (b.containsAddress? address).isSome :=
        hasProbes?_isSome full fun _ mem => byte_lt_of_mem_probes mem
      unfold containsAny?
      split
      · rename_i absent
        simp [ih, absent]
      · rename_i other
        cases held : b.containsAddress? address with
        | none => simp [held] at found
        | some held' =>
            cases held' with
            | false => exact (other held).elim
            | true => simp [held]

theorem containsAddress?_saturated (address : String) : saturated.containsAddress? address = some true := by
  have every {ps : List Probe} (inside : ∀ p ∈ ps, p.byte < size) : saturated.hasProbes? ps = some true := by
    induction ps with
    | nil => rfl
    | cons p rest ih =>
        have byte : saturated.bytes[p.byte]? = some 0xff := List.getElem?_replicate_of_lt (inside p List.mem_cons_self)
        have mask : (0xff : UInt8) &&& p.mask = p.mask := by
          rw [UInt8.and_comm]
          exact UInt8.and_neg_one
        unfold hasProbes?
        rw [byte]
        dsimp only
        rw [if_pos mask]
        exact ih fun q mem => inside q (List.mem_cons_of_mem p mem)
  exact every fun _ mem => byte_lt_of_mem_probes mem

end Bloom

/-! ## Logbooks -/

/-- The logs of a chain and the watched addresses. The bloom of a block contains every watched address
that occurs in a log of the block. -/
structure Logbook (chain : ServedChain) where
  addresses : List String
  logs : UInt64 → List Log
  distinct : ∀ number, (logs number).Pairwise (·.logIndex ≠ ·.logIndex)
  probed : ∀ {number : UInt64} {log : Log} {address : String}, log ∈ logs number → log.removed = false →
    address ∈ addresses → Text.eqIgnoreCase address log.address →
    (chain.block number).bloom.containsAddress? address = some true

namespace Logbook

variable {chain : ServedChain} (book : Logbook chain)

def AreWatched (addresses : List String) : Prop :=
  ∀ address, address ∈ addresses ↔ address ∈ book.addresses

/-- The reply of a node to a request for the logs of a block with these addresses. -/
def reply (addresses : List String) (number : UInt64) : List Log :=
  (book.logs number).filter fun log => addresses.any (Text.eqIgnoreCase · log.address)

/-- The logs of a block that have a watched address and were not dropped. -/
def watched (number : UInt64) : List Log :=
  (book.reply book.addresses number).filter (!·.removed)

/-- The events of a stored block: one of each watched log, with the fields of the log and of the block. -/
def records (head : Head) : List Event :=
  (book.watched head.number).map fun log => (Event.ofLog head.chain head.state log).mergeWith head

/-- The state in which a block is recorded when it is observed. -/
def observed (number : UInt64) : BlockState :=
  if book.addresses.any fun address => (chain.block number).bloom.containsAddress? address == some true then .seen
  else .skipped

/-- The work on a block is about its watched logs. -/
def IsDue (number : UInt64) : Work → Prop
  | .record _ state => state = book.observed number
  | .fetchSeen _ addresses | .fetchConfirmed _ addresses => book.AreWatched addresses
  | .saveSeen _ events | .promote _ events | .saveConfirmed _ events =>
      ∃ state, events = (book.watched number).map (Event.ofLog chain.id state)

variable {book} {number : UInt64} {addresses : List String}

theorem AreWatched.any_eq (h : book.AreWatched addresses) (p : String → Bool) :
    addresses.any p = book.addresses.any p := by
  rw [Bool.eq_iff_iff, List.any_eq_true, List.any_eq_true]
  exact exists_congr fun address => and_congr_left fun _ => h address

theorem observed_ne_confirmed (book : Logbook chain) (number : UInt64) : book.observed number ≠ .confirmed := by
  unfold observed
  split <;> simp

/-- The bloom of a block alone decides whether it may contain something watched. -/
theorem AreWatched.containsAny?_eq (h : book.AreWatched addresses) (number : UInt64) :
    (chain.block number).bloom.containsAny? addresses = some (book.observed number == .seen) := by
  rw [Bloom.containsAny?_eq (chain.bloom_full number), h.any_eq, observed]
  cases book.addresses.any _ <;> rfl

theorem watched_eq_nil (skipped : book.observed number ≠ .seen) : book.watched number = [] := by
  unfold observed at skipped
  rw [watched, reply, List.filter_filter, List.filter_eq_nil_iff]
  intro log mem kept
  simp only [Bool.and_eq_true, Bool.not_eq_true', List.any_eq_true] at kept
  obtain ⟨present, address, asked, bears⟩ := kept
  refine skipped (if_pos (List.any_eq_true.mpr ⟨address, asked, ?_⟩))
  rw [book.probed mem present asked bears]
  rfl

theorem AreWatched.reply_eq (h : book.AreWatched addresses) (number : UInt64) :
    book.reply addresses number = book.reply book.addresses number :=
  List.filter_congr fun log _ => h.any_eq (Text.eqIgnoreCase · log.address)

theorem AreWatched.watched_eq_nil (h : book.AreWatched []) (number : UInt64) : book.watched number = [] := by
  rw [watched, ← h.reply_eq number, reply]
  simp

theorem AreWatched.events_eq (h : book.AreWatched addresses) {session : Session} (state : BlockState)
    (number : UInt64) : session.events state (book.reply addresses number) =
      (book.watched number).map (Event.ofLog session.chain state) := by
  rw [Session.events, h.reply_eq]
  rfl

/-! ### Records -/

theorem records_mergeWith {head other : Head} (same : head.number = other.number) :
    (book.records head).map (·.mergeWith other) = book.records other := by
  unfold records
  rw [List.map_map, same]
  rfl

theorem map_mergeWith_eq_records {head : Head} (place : head.number = number) (id : UInt64) (state : BlockState) :
    ((book.watched number).map (Event.ofLog id state)).map (·.mergeWith head) = book.records head := by
  subst place
  rw [List.map_map]
  rfl

theorem records_distinct (head : Head) : (book.records head).Pairwise (·.logIndex ≠ ·.logIndex) := by
  unfold records watched reply
  rw [List.pairwise_map]
  exact ((book.distinct head.number).filter _).filter _

end Logbook

/-! ## The work that begins -/

namespace Work

variable {S : Type} {chain : ServedChain} {book : Logbook chain} {number : UInt64} {l after : Ledger S}
  {work : Work}

/-- A block is recorded on observation in the state given by its bloom. -/
theorem observe_eq (asked : book.AreWatched l.outlet.dispatcher.addresses) (number : UInt64) :
    observe l (chain.block number) = .waits (.record (chain.block number) (book.observed number)) := by
  have state : (if book.observed number == .seen then BlockState.seen else .skipped) = book.observed number := by
    unfold Logbook.observed
    split <;> rfl
  unfold observe Outlet.mayHold?
  rw [asked.containsAny?_eq]
  exact congrArg (fun state => Progress.waits (.record (chain.block number) state)) state

/-- The logs of a block are requested for the watched addresses, if its bloom contains one. -/
theorem confirm_eq (asked : book.AreWatched l.outlet.dispatcher.addresses)
    (watching : l.outlet.dispatcher.addresses ≠ []) (held : book.observed number = .seen) :
    confirm l (chain.block number) =
      (.waits (.fetchConfirmed (chain.block number) l.outlet.dispatcher.addresses),
        l.emit (.asked (.logs l.outlet.dispatcher.addresses number number))) := by
  unfold confirm Outlet.mayHold?
  rw [asked.containsAny?_eq, held]
  simp only [beq_self_eq_true, chain.number_eq]

theorem isDue_of_observe (asked : book.AreWatched l.outlet.dispatcher.addresses)
    (begun : observe l (chain.block number) = .waits work) :
    book.IsDue work.header.number work ∧ work.isWritten = false := by
  rw [observe_eq asked] at begun
  cases begun
  exact ⟨by rw [header, chain.number_eq]; rfl, rfl⟩

theorem isDue_of_confirm (asked : book.AreWatched l.outlet.dispatcher.addresses)
    (begun : confirm l (chain.block number) = (.waits work, after)) :
    book.IsDue work.header.number work ∧ work.isWritten = false := by
  have nothing (none : book.watched number = []) :
      book.IsDue (chain.block number).number (.promote (chain.block number) []) :=
    ⟨.unset, by rw [chain.number_eq, none]; rfl⟩
  unfold confirm tellConfirmed Outlet.mayHold? at begun
  rw [asked.containsAny?_eq] at begun
  split at begun
  · cases begun
  · rename_i absent
    cases begun
    refine ⟨nothing (Logbook.watched_eq_nil ?_), rfl⟩
    simpa using absent
  · split at begun
    · rename_i none
      cases begun
      exact ⟨nothing ((none ▸ asked).watched_eq_nil number), rfl⟩
    · cases begun
      exact ⟨asked, rfl⟩

end Work

end Chainwatch
