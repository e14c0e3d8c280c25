import Chainwatch.Proofs.Tracker.Logbook
import Chainwatch.Proofs.Tracker.Subscriptions

/-!
# The notices of one block

Subscriptions to other addresses come and go while the work on a block is done, so that the requested logs
change. A lasting subscription gets the logs of its address all the same: once as seen, when the events of
an observed block are saved, and once as confirmed, before the head of a final block is put in place.
-/

namespace Chainwatch

/-- The logs of a chain as a node serves them, each with the number and the hash of its block. -/
structure ServedLogs (chain : ServedChain) where
  logs : UInt64 → List Log
  number_eq : ∀ {number : UInt64} {log : Log}, log ∈ logs number → log.blockNumber = number
  hash_eq : ∀ {number : UInt64} {log : Log}, log ∈ logs number → log.blockHash = (chain.block number).hash

namespace ServedLogs

variable {chain : ServedChain} (book : ServedLogs chain) (address : String)

/-- The reply of the node to a request for the logs of a block with these addresses. -/
def reply (addresses : List String) (number : UInt64) : List Log :=
  (book.logs number).filter fun log => addresses.any (Text.eqIgnoreCase · log.address)

/-- The events of a reply; logs dropped by a reorganisation give none. -/
def events (state : BlockState) (addresses : List String) (number : UInt64) : List Event :=
  ((book.reply addresses number).filter (!·.removed)).map (Event.ofLog chain.id state)

/-- The logs of a block with an address, except those that were dropped. -/
def emitted (number : UInt64) : List Log :=
  (book.logs number).filter fun log => !log.removed && Text.eqIgnoreCase address log.address

/-- The notices of these logs in a state, in their order. -/
def notices (state : BlockState) (number : UInt64) : List Notice :=
  (book.emitted address number).map fun log => .event (.ofLog chain.id state log)

/-- The bloom of a block contains the address of each of these logs, however it is spelled. -/
def IsProbed (spellings : List String) : Prop :=
  ∀ {number : UInt64} {log : Log} {spelling : String}, log ∈ book.emitted address number → spelling ∈ spellings →
    Text.eqIgnoreCase spelling log.address → (chain.block number).bloom.containsAddress? spelling = some true

variable {book} {address} {addresses : List String} {number : UInt64} {state : BlockState} {log : Log}

theorem mem_emitted : log ∈ book.emitted address number ↔
    log ∈ book.logs number ∧ log.removed = false ∧ Text.eqIgnoreCase address log.address := by
  simp [emitted]

theorem events_eq {session : Session} (same : session.chain = chain.id) (state : BlockState) (number : UInt64) :
    session.events state (book.reply addresses number) = book.events state addresses number := by
  rw [Session.events, same]
  rfl

theorem events_mergeWith (book : ServedLogs chain) (state : BlockState) (addresses : List String) (number : UInt64) :
    (book.events state addresses number).map (·.mergeWith (.ofHeader chain.id (chain.block number) state)) =
      book.events state addresses number := by
  unfold events
  rw [List.map_map]
  refine List.map_congr_left fun log mem => ?_
  have logged : log ∈ book.logs number := (List.mem_filter.mp (List.mem_filter.mp mem).1).1
  have numbered : log.blockNumber = (chain.block number).number :=
    (book.number_eq logged).trans (chain.number_eq number).symm
  have hashed := book.hash_eq logged
  simp only [Function.comp_apply, Event.mergeWith, Event.ofLog, Head.ofHeader, numbered, hashed]

/-- A request for more addresses gives a subscription the same events. -/
theorem heardOf_events (spelled : IsSpelled address addresses) (state : BlockState) (number : UInt64) :
    heardOf address (book.events state addresses number) = book.notices address state number := by
  obtain ⟨spelling, asked, same⟩ := spelled
  have among (log : Log) : (Text.eqIgnoreCase address log.address && !log.removed &&
      addresses.any (Text.eqIgnoreCase · log.address)) = (!log.removed && Text.eqIgnoreCase address log.address) := by
    rw [Bool.and_comm (Text.eqIgnoreCase address log.address)]
    cases bears : Text.eqIgnoreCase address log.address with
    | false => simp
    | true =>
        have bears : Text.eqIgnoreCase spelling log.address := by
          rw [Text.eqIgnoreCase_iff] at same bears ⊢
          exact same.trans bears
        have found : addresses.any (Text.eqIgnoreCase · log.address) := List.any_eq_true.mpr ⟨spelling, asked, bears⟩
        rw [found, Bool.and_true]
  unfold heardOf events notices emitted reply
  rw [List.filter_map, List.map_map, List.filter_filter, List.filter_filter]
  exact congrArg (List.map _) (List.filter_congr fun log _ => among log)

theorem emitted_eq_nil (probed : book.IsProbed address addresses) (spelled : IsSpelled address addresses)
    (absent : (chain.block number).bloom.containsAny? addresses = some false) : book.emitted address number = [] := by
  obtain ⟨spelling, asked, same⟩ := spelled
  rw [List.eq_nil_iff_forall_not_mem]
  intro log mem
  have bears : Text.eqIgnoreCase spelling log.address := by
    have bears := (mem_emitted.mp mem).2.2
    rw [Text.eqIgnoreCase_iff] at same bears ⊢
    exact same.trans bears
  rw [Bloom.containsAny?_eq (chain.bloom_full number), Option.some.injEq, List.any_eq_false] at absent
  exact absent spelling asked (by rw [probed mem asked bears]; rfl)

theorem notices_eq_nil (none : book.emitted address number = []) (state : BlockState) :
    book.notices address state number = [] := by
  rw [notices, none]
  rfl

end ServedLogs

/-! ## The work on a block -/

/-- A request for the logs of a block is answered with those of the chain. -/
def ServedLogs.Replies {chain : ServedChain} (book : ServedLogs chain) (number : UInt64) (work : Work)
    (answer : Answer) : Prop :=
  ∀ {addresses : List String} {logs : List Log}, work.wait = .node (.logs addresses number number) →
    answer = .logs (.ok logs) → logs = book.reply addresses number

/-- The work is still to report the events of a block that it confirms. -/
def Work.isUntold : Work → Bool
  | fetchConfirmed _ _ => true
  | record _ _ | fetchSeen _ _ | saveSeen _ _ | promote _ _ | saveConfirmed _ _ => false

theorem Work.blockNumber_of_told {chain : ServedChain} {book : ServedLogs chain} {number : UInt64} {session : Session}
    {block : Head} {work : Work} {answer : Answer} (on : work.header = chain.block number)
    (place : work.isWritten → block.number = number)
    (replied : book.Replies number work answer) {event : Event}
    (mem : event ∈ work.told session block answer) : event.blockNumber = number := by
  unfold told at mem
  split at mem
  · obtain ⟨kept, -, rfl⟩ := List.mem_map.mp mem
    exact place rfl
  · rename_i header addresses logs
    cases on
    rw [replied (by rw [wait, chain.number_eq]) rfl] at mem
    obtain ⟨log, kept, rfl⟩ := List.mem_map.mp mem
    exact book.number_eq (List.mem_filter.mp (List.mem_filter.mp kept).1).1
  · cases mem

section Work

variable {S : Type} {chain : ServedChain} (book : ServedLogs chain) (address : String)

/-- The work on a block will report its logs to a subscription to the address. Until it observes the
block its number has no head, and from then on the head that it recorded. -/
def ServedLogs.IsDue (v : View) (number : UInt64) : Work → Prop
  | .record _ state =>
      v.headAt? chain.id number = none ∧ (state = .seen ∨ book.emitted address number = [])
  | .fetchSeen _ addresses =>
      v.headAt? chain.id number = some (.ofHeader chain.id (chain.block number) .seen) ∧ IsSpelled address addresses
  | .saveSeen _ events =>
      v.headAt? chain.id number = some (.ofHeader chain.id (chain.block number) .seen) ∧
        ∃ addresses, IsSpelled address addresses ∧ events = book.events .seen addresses number
  | .fetchConfirmed _ addresses => IsSpelled address addresses
  | .promote _ _ | .saveConfirmed _ _ => True

variable {book} {address} {l after : Ledger S} {number : UInt64} {work : Work} {answer : Answer}
  {session : Session} {progress : Progress} {v w : View}

theorem ServedLogs.IsDue.congr (h : book.IsDue address v number work)
    (same : w.headAt? chain.id number = v.headAt? chain.id number) : book.IsDue address w number work := by
  cases work with
  | record header state => exact ⟨same.trans h.1, h.2⟩
  | fetchSeen header addresses => exact ⟨same.trans h.1, h.2⟩
  | saveSeen header events => exact ⟨same.trans h.1, h.2⟩
  | fetchConfirmed header addresses => exact h
  | promote header events => trivial
  | saveConfirmed header events => trivial

theorem ServedLogs.IsDue.of_confirms (h : book.IsDue address v number work) (confirms : work.confirms = true) :
    book.IsDue address w number work := by
  cases work with
  | fetchConfirmed header addresses => exact h
  | promote header events => trivial
  | saveConfirmed header events => trivial
  | _ => cases confirms

namespace Work

/-- A live block is observed with its logs, unless it has none of the address. -/
theorem isDue_of_observing (probed : book.IsProbed address l.addresses) (spelled : IsSpelled address l.addresses)
    (free : v.headAt? chain.id number = none) (begun : observe l (chain.block number) = .waits work) :
    book.IsDue address v number work := by
  unfold observe Outlet.mayHold? at begun
  split at begun
  · cases begun
  · rename_i held found
    cases begun
    refine ⟨free, ?_⟩
    cases held with
    | true => exact Or.inl rfl
    | false => exact Or.inr (ServedLogs.emitted_eq_nil probed spelled found)

/-- A block is confirmed without a request for its logs only if it has none of the address. -/
theorem isDue_of_confirming (probed : book.IsProbed address l.addresses) (spelled : IsSpelled address l.addresses)
    (begun : confirm l (chain.block number) = (.waits work, after)) :
    book.IsDue address v number work ∧ (work.isUntold ∨ book.emitted address number = []) := by
  unfold confirm tellConfirmed Outlet.mayHold? at begun
  split at begun
  · cases begun
  · rename_i found
    cases begun
    exact ⟨trivial, Or.inr (ServedLogs.emitted_eq_nil probed spelled found)⟩
  · split at begun
    · rename_i none
      obtain ⟨spelling, asked, -⟩ := spelled
      rw [Ledger.addresses, none] at asked
      cases asked
    · cases begun
      exact ⟨spelled, Or.inl rfl⟩

end Work

namespace Work

variable [BlockStore S]

/-- The notices of a step of confirming a block: those not given before, and none afterwards. -/
structure TellsConfirmed (book : ServedLogs chain) (address : String) (number : UInt64) (untold : Bool)
    (events : List Event) (progress : Progress) (v : View) : Prop where
  heard : heardOf address events = if untold then book.notices address .confirmed number else []
  waits : ∀ {next : Work}, progress = .waits next → next.isUntold = false ∧ book.IsDue address v number next
  finished : untold → progress ≠ .finished

/-- Every step of confirming a block satisfies `TellsConfirmed`. -/
theorem tellsConfirmed_resume? (same : session.chain = chain.id) (on : work.IsOn chain number true)
    (due : book.IsDue address v number work) (faultless : ¬answer.IsFault)
    (replied : book.Replies number work answer)
    (moved : work.resume? session l answer = some (progress, after)) (block : Head) (w : View) :
    TellsConfirmed book address number work.isUntold (work.told session block answer) progress w := by
  obtain ⟨header_eq, confirms_eq, -⟩ := on
  unfold resume? at moved
  split at moved
  case h_5 => exact (faultless ⟨_, rfl⟩).elim
  case h_6 header addresses logs =>
    cases header_eq
    rw [replied (by rw [wait, chain.number_eq]) rfl] at moved ⊢
    cases moved
    refine ⟨?_, ?_, by simp⟩
    · rw [told, ServedLogs.events_eq same]
      exact ServedLogs.heardOf_events due .confirmed number
    · rintro _ ⟨⟩
      exact ⟨rfl, trivial⟩
  case h_7 header events fault =>
    refine ⟨rfl, ?_, by simp [isUntold]⟩
    rintro next rfl
    split at moved
    · split at moved <;> cases moved
      exact ⟨rfl, trivial⟩
    · cases moved
  case h_8 header events fault =>
    refine ⟨rfl, ?_, by simp [isUntold]⟩
    rintro next rfl
    split at moved <;> cases moved
  case h_9 => cases moved
  all_goals cases confirms_eq

end Work

variable [BlockStore S] [LawfulStore S]

theorem Ledger.recordHead_free (sound : LawfulStore.Sound l.store) (carries : (LawfulStore.view l.store).Carries chain)
    (free : (LawfulStore.view l.store).headAt? chain.id number = none) (state : BlockState)
    {outcome : Except TrackError Head}
    (moved : l.recordHead none (.ofHeader chain.id (chain.block number) state) = (outcome, after)) :
    (∃ head, outcome = .ok head) ∧ (LawfulStore.view after.store).headAt? chain.id number =
      some (.ofHeader chain.id (chain.block number) state) := by
  have untaken : ¬(LawfulStore.view l.store).Taken (.ofHeader chain.id (chain.block number) state) := by
    intro taken
    have stored := carries.isStored_of_taken taken
    rw [View.isStored, free] at stored
    cases stored
  have applied := LawfulStore.createHead_free
    [fun stored outlet => (.ok (), Outlet.tellHead outlet (stored.withState .seen))] l.outlet sound untaken
    (chain.bloom_full number)
  simp only [recordHead, write, Prod.mk.injEq] at moved
  rcases moved with ⟨rfl, rfl⟩
  refine ⟨⟨_, applied.outcome⟩, ?_⟩
  rw [applied.view]
  exact if_pos ⟨rfl, (chain.number_eq number).symm⟩

namespace Work

/-- The notices of a step of observing a block: none as long as the work continues, and all of them once
it is done. -/
structure TellsSeen (book : ServedLogs chain) (address : String) (number : UInt64) (events : List Event)
    (progress : Progress) (v : View) : Prop where
  waits : ∀ {next : Work}, progress = .waits next → heardOf address events = [] ∧ book.IsDue address v number next
  finished : progress = .finished → heardOf address events = book.notices address .seen number

theorem tellsSeen_afterRecord {state : BlockState} (spelled : IsSpelled address l.addresses)
    (found : (LawfulStore.view l.store).headAt? chain.id number = some (.ofHeader chain.id (chain.block number) state))
    (due : state = .seen ∨ book.emitted address number = [])
    (moved : afterRecord l (chain.block number) state = (progress, after)) :
    TellsSeen book address number [] progress (LawfulStore.view after.store) := by
  unfold afterRecord at moved
  split at moved
  · rename_i seen
    subst seen
    split at moved
    · rename_i none
      obtain ⟨spelling, asked, -⟩ := spelled
      rw [Ledger.addresses, none] at asked
      cases asked
    · cases moved
      refine ⟨?_, by simp⟩
      rintro _ ⟨⟩
      exact ⟨rfl, found, spelled⟩
  · rename_i skipped
    cases moved
    refine ⟨by simp, fun _ => ?_⟩
    exact (ServedLogs.notices_eq_nil (due.resolve_left skipped) .seen).symm

/-- Every step of observing a live block satisfies `TellsSeen`. -/
theorem tellsSeen_resume? (same : session.chain = chain.id) (sound : LawfulStore.Sound l.store)
    (carries : (LawfulStore.view l.store).Carries chain) (on : work.IsOn chain number false)
    (spelled : IsSpelled address l.addresses) (due : book.IsDue address (LawfulStore.view l.store) number work)
    (faultless : ¬answer.IsFault) {block : Head}
    (known : work.isWritten → (LawfulStore.view l.store).headAt? chain.id number = some block)
    (replied : book.Replies number work answer)
    (moved : work.resume? session l answer = some (progress, after)) :
    TellsSeen book address number (work.told session block answer) progress (LawfulStore.view after.store) := by
  obtain ⟨header_eq, confirms_eq, -⟩ := on
  unfold resume? at moved
  split at moved
  case h_1 header state fault =>
    cases header_eq
    cases Decidable.not_not.mp faultless
    rw [same] at moved
    have kept := (Ledger.reports_recordHead sound none (.ofHeader chain.id (chain.block number) state)
      (chain.bloom_full number)).informs.addresses
    cases recorded : l.recordHead none (.ofHeader chain.id (chain.block number) state) with
    | mk outcome ledger =>
        obtain ⟨⟨head, rfl⟩, found⟩ := Ledger.recordHead_free sound carries due.1 state recorded
        rw [recorded] at kept
        simp only [recorded, Option.some.injEq] at moved
        exact tellsSeen_afterRecord (kept ▸ spelled) found due.2 moved
  case h_2 => exact (faultless ⟨_, rfl⟩).elim
  case h_3 header addresses logs =>
    cases header_eq
    obtain ⟨found, spelled⟩ := due
    have asked : logs = book.reply addresses number := replied (by rw [wait, chain.number_eq]) rfl
    rw [asked, ServedLogs.events_eq same] at moved
    split at moved <;> rename_i told <;> cases moved
    · refine ⟨by simp, fun _ => ?_⟩
      exact (congrArg (heardOf address) told).symm.trans (ServedLogs.heardOf_events spelled .seen number)
    · refine ⟨?_, by simp⟩
      rintro _ ⟨⟩
      exact ⟨rfl, found, addresses, spelled, rfl⟩
  case h_4 header events fault =>
    obtain ⟨found, addresses, spelled, rfl⟩ := due
    cases found.symm.trans (known rfl)
    refine ⟨?_, fun _ => ?_⟩
    · rintro next rfl
      split at moved <;> cases moved
    · rw [told, ServedLogs.events_mergeWith]
      exact ServedLogs.heardOf_events spelled .seen number
  case h_9 => cases moved
  all_goals cases confirms_eq

end Work

end Work

end Chainwatch
