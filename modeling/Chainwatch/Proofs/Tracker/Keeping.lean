import Chainwatch.Proofs.Tracker.Logbook
import Chainwatch.Proofs.Tracker.Subscriptions

/-!
# Events are kept once

Two tasks may work on one block, and each submits its events. The first to submit them adds them and the
other adds nothing; from then on they are merged with whatever head is put in place. So a number is as it
was at the outset, or it has a head of the chain and, unless a task is still to add them, its events.
-/

namespace Chainwatch

/-- An upper bound on what was done to the numbers of a chain so far. -/
structure RunRecord where
  /-- The number may have been observed. -/
  observes : UInt64 → Prop
  confirms : UInt64 → Prop
  lacksEvents : UInt64 → Prop
  promoted : UInt64 → Prop

/-- The record with the work on one more number. -/
def RunRecord.at (k : RunRecord) (number : UInt64) (lacksEvents promoted : Prop) : RunRecord :=
  { k with
    lacksEvents := fun n => k.lacksEvents n ∨ n = number ∧ lacksEvents
    promoted := fun n => k.promoted n ∨ n = number ∧ promoted }

namespace Logbook

variable {chain : ServedChain} (book : Logbook chain) (before : View)

/-- The events that a number had at the outset, merged with the head that it has now. -/
def inherited (chain : ServedChain) (before : View) (head : Head) : List Event :=
  if (before.headAt? chain.id head.number).isSome then
    (before.eventsAt chain.id head.number).map (·.mergeWith head)
  else []

/-- All events that a number is to have. -/
def complete (head : Head) : List Event :=
  ChainTable.appendNew (inherited chain before head) (book.records head)

/-- The possible contents of a number. -/
inductive NumberHolds (k : RunRecord) (v : View) (number : UInt64) : Prop where
  | untouched : v.headAt? chain.id number = before.headAt? chain.id number →
      v.eventsAt chain.id number = before.eventsAt chain.id number → ¬k.lacksEvents number → ¬k.promoted number →
      NumberHolds k v number
  /-- A head of the chain, with its events unless a task is still to add them. -/
  | touched {head : Head} {state : BlockState} : head = .ofHeader chain.id (chain.block number) state →
      v.headAt? chain.id number = some head →
      (state = .confirmed ∧ k.confirms number ∨
        state = book.observed number ∧ before.headAt? chain.id number = none ∧ k.observes number) →
      (v.eventsAt chain.id number = book.complete before head ∨
        k.lacksEvents number ∧ v.eventsAt chain.id number = inherited chain before head) →
      NumberHolds k v number

/-- Every number of the chain satisfies `NumberHolds`, and other chains are as at the outset. -/
structure Keeps (k : RunRecord) (v : View) : Prop where
  others : ∀ {id : UInt64} (number : UInt64), id ≠ chain.id →
    v.headAt? id number = before.headAt? id number ∧ v.eventsAt id number = before.eventsAt id number
  stands : ∀ number, book.NumberHolds before k v number

variable {book} {before} {k l : RunRecord} {v w : View} {number : UInt64}

/-! ## Events under another head -/

theorem inherited_mergeWith {head other : Head} (same : head.number = other.number) :
    (inherited chain before head).map (·.mergeWith other) = inherited chain before other := by
  unfold inherited
  rw [same]
  split
  · rw [List.map_map]
    rfl
  · rfl

theorem complete_mergeWith {head other : Head} (same : head.number = other.number) :
    (book.complete before head).map (·.mergeWith other) = book.complete before other := by
  unfold complete
  rw [ChainTable.map_appendNew fun e => Event.mergeWith_logIndex e other, inherited_mergeWith same,
    records_mergeWith same]

theorem complete_of_watched_eq_nil {head : Head} (none : book.watched head.number = []) :
    book.complete before head = inherited chain before head := by
  rw [complete, records, none]
  rfl

theorem complete_of_fresh {head : Head} (fresh : before.headAt? chain.id head.number = none) :
    book.complete before head = book.records head := by
  rw [complete, inherited, fresh]
  exact ChainTable.appendNew_of_distinct (book.records_distinct head) (by simp)

/-! ## Steps -/

theorem NumberHolds.congr (h : book.NumberHolds before k v number)
    (head : w.headAt? chain.id number = v.headAt? chain.id number)
    (events : w.eventsAt chain.id number = v.eventsAt chain.id number)
    (observes : k.observes number → l.observes number) (confirms : k.confirms number → l.confirms number)
    (lacksEvents : k.lacksEvents number ↔ l.lacksEvents number) (promoted : l.promoted number → k.promoted number) :
    book.NumberHolds before l w number := by
  cases h with
  | untouched same same_events idle early =>
      exact .untouched (head.trans same) (events.trans same_events) (idle ∘ lacksEvents.mpr) (early ∘ promoted)
  | touched of found state kept =>
      refine .touched of (head.trans found) ?_ ?_
      · exact state.imp (fun final => ⟨final.1, confirms final.2⟩) fun seen => ⟨seen.1, seen.2.1, observes seen.2.2⟩
      · rw [events]
        exact kept.imp_right fun owing => ⟨lacksEvents.mp owing.1, owing.2⟩

theorem Keeps.grows (h : book.Keeps before k v) (observes : ∀ n, k.observes n → l.observes n)
    (confirms : ∀ n, k.confirms n → l.confirms n) (lacksEvents : ∀ n, k.lacksEvents n ↔ l.lacksEvents n)
    (promoted : ∀ n, l.promoted n → k.promoted n) : book.Keeps before l v :=
  ⟨h.others, fun n => (h.stands n).congr rfl rfl (observes n) (confirms n) (lacksEvents n) (promoted n)⟩

/-- `Keeps` depends on the record only through what is still to be added and what is confirmed. -/
theorem Keeps.restate {lacksEvents lacksEvents' promoted promoted' : Prop}
    (h : book.Keeps before (k.at number lacksEvents promoted) v)
    (same : lacksEvents ↔ lacksEvents') (less : promoted' → promoted) : book.Keeps before (k.at number lacksEvents' promoted') v :=
  h.grows (fun _ => id) (fun _ => id) (fun _ => or_congr_right (and_congr_right_iff.mpr fun _ => same))
    fun _ => Or.imp_right (And.imp_right less)

theorem NumberHolds.elsewhere {lacksEvents lacksEvents' promoted promoted' : Prop} {n : UInt64}
    (h : book.NumberHolds before (k.at number lacksEvents promoted) v n) (differ : n ≠ number)
    (head : w.headAt? chain.id n = v.headAt? chain.id n) (events : w.eventsAt chain.id n = v.eventsAt chain.id n) :
    book.NumberHolds before (k.at number lacksEvents' promoted') w n :=
  h.congr head events id id (by simp [RunRecord.at, differ]) (by simp [RunRecord.at, differ])

/-- A head of the chain is put in place. Its events are still to be added, unless there are none. -/
theorem Keeps.put {state : BlockState} {lacksEvents promoted : Prop} (h : book.Keeps before (k.at number False False) v)
    (carries : v.Carries chain)
    (reach : state = .confirmed ∧ k.confirms number ∨
      state = book.observed number ∧ before.headAt? chain.id number = none ∧ k.observes number)
    (owing : lacksEvents ∨ book.watched number = []) :
    book.Keeps before (k.at number lacksEvents promoted) (v.put (.ofHeader chain.id (chain.block number) state)) := by
  generalize of : Head.ofHeader chain.id (chain.block number) state = head
  have on : head.chain = chain.id := of ▸ rfl
  have place : head.number = number := of ▸ chain.number_eq number
  have hash : head.hash = (chain.block number).hash := of ▸ rfl
  constructor
  · intro id n differ
    simpa [View.put, on, differ] using h.others n differ
  · intro n
    by_cases same : n = number
    case neg => exact (h.stands n).elsewhere same (by simp [View.put, place, same]) (by simp [View.put, place, same])
    subst same
    have found : (v.put head).headAt? chain.id n = some head := by simp [View.put, on, place]
    -- a head of the chain has the hash of whatever stood there, so the events pass over to it
    have kept : (v.put head).eventsAt chain.id n =
        if (v.headAt? chain.id n).isSome then (v.eventsAt chain.id n).map (·.mergeWith head) else [] := by
      have held : v.holds chain.id n head.hash = (v.headAt? chain.id n).isSome := by
        cases old : v.headAt? chain.id n with
        | none => simp [View.holds, old]
        | some head' => simp [View.holds, old, hash, carries old]
      simp [View.put, on, place, held]
    have owed (events : (v.put head).eventsAt chain.id n = inherited chain before head) :
        (v.put head).eventsAt chain.id n = book.complete before head ∨
          (k.at n lacksEvents promoted).lacksEvents n ∧
            (v.put head).eventsAt chain.id n = inherited chain before head := by
      rcases owing with owing | none
      · exact Or.inr ⟨Or.inr ⟨rfl, owing⟩, events⟩
      · exact Or.inl (events.trans (complete_of_watched_eq_nil (place.symm ▸ none)).symm)
    refine .touched of.symm found reach ?_
    cases h.stands n with
    | untouched same same_events idle early =>
        refine owed ?_
        rw [kept, same, same_events, inherited, place]
    | @touched old former was old_found _ old_events =>
        have old_place : old.number = head.number := was ▸ (chain.number_eq n).trans place.symm
        rw [old_found, Option.isSome_some, if_pos rfl] at kept
        rcases old_events with complete | ⟨-, left⟩
        · exact Or.inl (kept.trans (complete ▸ complete_mergeWith old_place))
        · exact owed (kept.trans (left ▸ inherited_mergeWith old_place))

/-- The events of a number that has its head are added, and are then complete. -/
theorem Keeps.keep {block : Head} {events : List Event} {promoted : Prop}
    (h : book.Keeps before (k.at number True False) v) (found : v.headAt? chain.id number = some block)
    (due : ∃ state, events = (book.watched number).map (Event.ofLog chain.id state)) :
    book.Keeps before (k.at number False promoted) (v.keep block events) := by
  obtain ⟨state, rfl⟩ := due
  cases h.stands number with
  | untouched _ _ idle _ => exact (idle (Or.inr ⟨rfl, trivial⟩)).elim
  | @touched head state of placed reach kept =>
      cases found.symm.trans placed
      have on : block.chain = chain.id := of ▸ rfl
      have place : block.number = number := of ▸ chain.number_eq number
      constructor
      · intro id n differ
        simpa [View.keep, on, differ] using h.others n differ
      · intro n
        by_cases same : n = number
        case neg => exact (h.stands n).elsewhere same rfl (by simp [View.keep, place, same])
        subst same
        refine .touched of placed reach (Or.inl ?_)
        simp only [View.keep, on, place, and_self, if_true, map_mergeWith_eq_records place]
        -- the other task may have added them already: then every place is taken, and nothing is added twice
        rcases kept with complete | ⟨-, left⟩
        · rw [complete, Logbook.complete, ChainTable.appendNew_appendNew]
        · rw [left, Logbook.complete]

/-- A task that finds no watched logs has nothing to add. -/
theorem Keeps.release {lacksEvents promoted : Prop} (h : book.Keeps before (k.at number lacksEvents promoted) v)
    (none : book.watched number = []) : book.Keeps before (k.at number False promoted) v := by
  refine ⟨h.others, fun n => ?_⟩
  by_cases same : n = number
  case neg => exact (h.stands n).elsewhere same rfl rfl
  subst same
  cases h.stands n with
  | untouched head events idle early =>
      exact .untouched head events (fun owing => idle (owing.imp_right fun h => h.2.elim)) early
  | @touched head state of found reach kept =>
      have place : head.number = n := of ▸ chain.number_eq n
      refine .touched of found reach (Or.inl ?_)
      rcases kept with complete | ⟨-, left⟩
      · exact complete
      · exact left.trans (complete_of_watched_eq_nil (place.symm ▸ none)).symm

/-- A number whose events are still to be added has its head. -/
theorem Keeps.placed {promoted : Prop} (h : book.Keeps before (k.at number True promoted) v) :
    ∃ head, v.headAt? chain.id number = some head ∧ head.hash = (chain.block number).hash := by
  cases h.stands number with
  | untouched _ _ idle _ => exact (idle (Or.inr ⟨rfl, trivial⟩)).elim
  | touched of found => exact ⟨_, found, of ▸ rfl⟩

end Logbook

/-! ## Writes -/

namespace Ledger

variable {S : Type} [BlockStore S] [LawfulStore S] {chain : ServedChain} {book : Logbook chain} {before : View}
  {k : RunRecord} {number : UInt64} {l after : Ledger S}

/-- Recording an observed block puts it in place, unless its number has a head. -/
theorem keeps_recordHead {outcome : Except TrackError Head} (sound : LawfulStore.Sound l.store)
    (carries : (LawfulStore.view l.store).Carries chain) (observes : k.observes number)
    (h : book.Keeps before (k.at number False False) (LawfulStore.view l.store))
    (moved : l.recordHead none (.ofHeader chain.id (chain.block number) (book.observed number)) = (outcome, after)) :
    ((∃ head, outcome = .ok head) ∧ ∀ {lacksEvents : Prop}, lacksEvents ∨ book.watched number = [] →
        book.Keeps before (k.at number lacksEvents False) (LawfulStore.view after.store)) ∨
      ∃ e, outcome = .error e ∧ e.isConflict ∧ after.store = l.store := by
  simp only [recordHead, write, Prod.mk.injEq] at moved
  rcases moved with ⟨rfl, rfl⟩
  by_cases taken : (LawfulStore.view l.store).Taken (.ofHeader chain.id (chain.block number) (book.observed number))
  · obtain ⟨e, conflict, same⟩ := LawfulStore.createHead_taken
      [fun stored outlet => (.ok (), Outlet.tellHead outlet (stored.withState .seen))] l.outlet sound taken
    exact Or.inr ⟨e, congrArg Written.outcome same, conflict, congrArg Written.store same⟩
  · have applied := LawfulStore.createHead_free
      [fun stored outlet => (.ok (), Outlet.tellHead outlet (stored.withState .seen))] l.outlet sound taken
      (chain.bloom_full number)
    have fresh : (LawfulStore.view l.store).headAt? chain.id number = none := by
      rw [← Option.not_isSome_iff_eq_none]
      intro stored
      exact taken (Or.inl (by simpa [Head.ofHeader, chain.number_eq] using stored))
    have new : before.headAt? chain.id number = none := by
      cases h.stands number with
      | untouched same => exact same.symm.trans fresh
      | touched _ found =>
          rw [fresh] at found
          cases found
    refine Or.inl ⟨⟨_, applied.outcome⟩, ?_⟩
    intro lacksEvents owing
    exact applied.view ▸ h.put carries (Or.inr ⟨rfl, new, observes⟩) owing

/-- Confirming a block puts it in place. -/
theorem keeps_promoteHead {outcome : Except TrackError Head} (sound : LawfulStore.Sound l.store)
    (carries : (LawfulStore.view l.store).Carries chain) (confirms : k.confirms number)
    (h : book.Keeps before (k.at number False False) (LawfulStore.view l.store))
    (moved : l.promoteHead none (.ofHeader chain.id (chain.block number) .confirmed) = (outcome, after)) :
    (∃ head, outcome = .ok head) ∧ ∀ {lacksEvents : Prop}, lacksEvents ∨ book.watched number = [] →
      book.Keeps before (k.at number lacksEvents True) (LawfulStore.view after.store) := by
  simp only [promoteHead, write, Prod.mk.injEq] at moved
  rcases moved with ⟨rfl, rfl⟩
  have applied := LawfulStore.upsertHead_free [fun stored outlet => (.ok (), Outlet.tellHead outlet stored)] l.outlet
    sound (carries.not_ownedElsewhere number .confirmed) (chain.bloom_full number)
  have settled : (LawfulStore.view l.store).settled (.ofHeader chain.id (chain.block number) .confirmed) =
      .ofHeader chain.id (chain.block number) .confirmed := by
    unfold View.settled
    split <;> rfl
  refine ⟨⟨_, applied.outcome⟩, ?_⟩
  intro lacksEvents owing
  rw [applied.view, settled]
  exact h.put carries (Or.inl ⟨rfl, confirms⟩) owing

theorem keeps_saveLogs {promoted : Prop} {events : List Event} {hooks : List (Hook Outlet (List Event))}
    {outcome : Except TrackError (List Event)} (sound : LawfulStore.Sound l.store)
    (tell : ∀ stored, (runHooks hooks stored l.outlet).1 = .ok ())
    (h : book.Keeps before (k.at number True False) (LawfulStore.view l.store))
    (due : ∃ state, events = (book.watched number).map (Event.ofLog chain.id state))
    (moved : l.write none (fun store outlet =>
      BlockStore.saveLogs store chain.id (chain.block number).hash events hooks outlet) = (outcome, after)) :
    (∃ stored, outcome = .ok stored) ∧
      book.Keeps before (k.at number False promoted) (LawfulStore.view after.store) := by
  simp only [write, Prod.mk.injEq] at moved
  rcases moved with ⟨rfl, rfl⟩
  obtain ⟨block, found, hash⟩ := h.placed
  have complete : book.Keeps before (k.at number False promoted) ((LawfulStore.view l.store).keep block events) :=
    h.keep found due
  by_cases none : events = []
  · rw [none, View.keep_nil] at complete
    rw [none, LawfulStore.saveLogs_nil]
    exact ⟨⟨_, rfl⟩, complete⟩
  · have applied := LawfulStore.saveLogs_known hooks l.outlet sound none found hash
    have told := tell (events.map (·.mergeWith block))
    have kept := applied.view
    rw [told] at kept
    exact ⟨⟨_, by rw [applied.outcome, told]; rfl⟩, kept ▸ complete⟩

end Ledger

/-! ## Steps of the work -/

namespace Progress

def lacksEvents : Progress → Bool
  | .waits work => work.isWritten
  | .finished | .failed _ | .crashed => false

def isPlaced : Progress → Bool
  | .waits work => work.isWritten
  | .finished => true
  | .failed _ | .crashed => false

end Progress

/-- With the block in place, the work continues with its events, or there are none. -/
def Logbook.Continues {chain : ServedChain} (book : Logbook chain) (number : UInt64) : Progress → Prop
  | .waits work => work.isWritten ∧ book.IsDue number work
  | .finished => book.watched number = []
  | .failed _ | .crashed => False

namespace Work

variable {S : Type} {chain : ServedChain} {book : Logbook chain} {before : View} {k : RunRecord} {number : UInt64}
  {l after : Ledger S} {progress : Progress}

theorem continues_afterRecord (asked : book.AreWatched l.addresses) (header : Header) :
    book.Continues number (afterRecord l header (book.observed number)).1 := by
  unfold afterRecord
  split
  · split
    · rename_i none
      exact Logbook.AreWatched.watched_eq_nil (none ▸ asked) number
    · exact ⟨rfl, asked⟩
  · rename_i skipped
    exact Logbook.watched_eq_nil skipped

theorem continues_promote {events : List Event} (header : Header)
    (due : ∃ state, events = (book.watched number).map (Event.ofLog chain.id state)) :
    book.Continues number (if events.isEmpty then .finished else .waits (.saveConfirmed header events)) := by
  split
  · rename_i none
    obtain ⟨state, rfl⟩ := due
    exact List.map_eq_nil_iff.mp (List.isEmpty_iff.mp none)
  · exact ⟨rfl, due⟩

variable [BlockStore S] [LawfulStore S] {session : Session}

/-- The effect of a step of the work on a number: `Keeps` is preserved, and the work is about the events
of that number. -/
def Keeps (book : Logbook chain) (before : View) (k : RunRecord) (number : UInt64) (confirms : Bool)
    (progress : Progress) (after : Ledger S) : Prop :=
  book.Keeps before (k.at number progress.lacksEvents (confirms ∧ progress.isPlaced)) (LawfulStore.view after.store) ∧
    ∀ next, progress = .waits next → book.IsDue number next

theorem keeps_finished {confirms : Bool} {promoted : Prop} (final : confirms → promoted)
    (h : book.Keeps before (k.at number False promoted) (LawfulStore.view after.store)) :
    Keeps book before k number confirms .finished after :=
  ⟨h.restate (by simp [Progress.lacksEvents]) fun both => final both.1, by simp⟩

theorem keeps_waits {work next : Work} {confirms : Bool} (still : next.isWritten = work.isWritten)
    (unplaced : confirms → next.isWritten = false) (due : book.IsDue number next)
    (h : book.Keeps before (k.at number work.isWritten False) (LawfulStore.view after.store)) :
    Keeps book before k number confirms (.waits next) after := by
  refine ⟨h.restate (by rw [← still]; rfl) ?_, fun other same => by cases same; exact due⟩
  rintro ⟨final, placed⟩
  exact Bool.false_ne_true ((unplaced final).symm.trans placed)

/-- Once the block is in place, the rest of the work adds its events. -/
theorem keeps_of_continues {confirms : Bool} {promoted : Prop} (h : book.Continues number progress)
    (final : confirms → promoted)
    (put : ∀ {lacksEvents : Prop}, lacksEvents ∨ book.watched number = [] →
      book.Keeps before (k.at number lacksEvents promoted) (LawfulStore.view after.store)) :
    Keeps book before k number confirms progress after := by
  cases progress with
  | waits work =>
      exact ⟨(put (Or.inl h.1)).restate Iff.rfl fun both => final both.1, fun next same => by cases same; exact h.2⟩
  | finished => exact keeps_finished final (put (Or.inr h))
  | failed e => exact h.elim
  | crashed => exact h.elim

theorem keeps_record (same : session.chain = chain.id) (sound : LawfulStore.Sound l.store)
    (carries : (LawfulStore.view l.store).Carries chain) (asked : book.AreWatched l.addresses)
    (observes : k.observes number)
    (h : book.Keeps before (k.at number False False) (LawfulStore.view l.store))
    (moved : (record (chain.block number) (book.observed number)).resume? session l (.stored none) =
      some (progress, after)) : Keeps book before k number false progress after := by
  have kept := (Ledger.reports_recordHead sound none
    (.ofHeader chain.id (chain.block number) (book.observed number)) (chain.bloom_full number)).informs.addresses
  unfold resume? at moved
  rw [same] at moved
  cases recorded : l.recordHead none (.ofHeader chain.id (chain.block number) (book.observed number)) with
  | mk outcome ledger =>
      rw [recorded] at kept
      rcases Ledger.keeps_recordHead sound carries observes h recorded with
        ⟨⟨head, rfl⟩, put⟩ | ⟨e, rfl, conflict, store⟩
      · simp only [recorded, Option.some.injEq] at moved
        have continues : book.Continues number (afterRecord ledger (chain.block number) (book.observed number)).1 :=
          continues_afterRecord (kept ▸ asked) (chain.block number)
        have quiet := (quiet_afterRecord ledger (chain.block number) (book.observed number)).store
        rw [moved] at continues quiet
        exact keeps_of_continues continues Bool.false_ne_true.elim (quiet ▸ put)
      · simp only [recorded, conflict, if_true, Option.some.injEq, Prod.mk.injEq] at moved
        rcases moved with ⟨rfl, rfl⟩
        exact keeps_finished Bool.false_ne_true.elim (store ▸ h)

theorem keeps_promote {events : List Event} (same : session.chain = chain.id) (sound : LawfulStore.Sound l.store)
    (carries : (LawfulStore.view l.store).Carries chain) (confirms : k.confirms number)
    (due : ∃ state, events = (book.watched number).map (Event.ofLog chain.id state))
    (h : book.Keeps before (k.at number False False) (LawfulStore.view l.store))
    (moved : (promote (chain.block number) events).resume? session l (.stored none) = some (progress, after)) :
    Keeps book before k number true progress after := by
  unfold resume? at moved
  rw [same] at moved
  cases promoted : l.promoteHead none (.ofHeader chain.id (chain.block number) .confirmed) with
  | mk outcome ledger =>
      obtain ⟨⟨head, rfl⟩, put⟩ := Ledger.keeps_promoteHead sound carries confirms h promoted
      simp only [promoted, Option.some.injEq, Prod.mk.injEq] at moved
      rcases moved with ⟨rfl, rfl⟩
      exact keeps_of_continues (continues_promote (chain.block number) due) (fun _ => trivial) put

theorem keeps_saved {promoted : Prop} {confirms : Bool} {outcome : Except TrackError (List Event)} {kept : Ledger S}
    (final : confirms → promoted)
    (saved : (∃ stored, outcome = .ok stored) ∧
      book.Keeps before (k.at number False promoted) (LawfulStore.view kept.store))
    (ok : ∀ events, outcome = .ok events → progress = .finished ∧ after = kept) :
    Keeps book before k number confirms progress after := by
  obtain ⟨⟨stored, same⟩, keeps⟩ := saved
  rcases ok stored same with ⟨rfl, rfl⟩
  exact keeps_finished final keeps

theorem keeps_saveSeen {events : List Event} (same : session.chain = chain.id) (sound : LawfulStore.Sound l.store)
    (due : ∃ state, events = (book.watched number).map (Event.ofLog chain.id state))
    (h : book.Keeps before (k.at number True False) (LawfulStore.view l.store))
    (moved : (saveSeen (chain.block number) events).resume? session l (.stored none) = some (progress, after)) :
    Keeps book before k number false progress after := by
  unfold resume? at moved
  rw [same] at moved
  cases recorded : l.recordEvents none chain.id (chain.block number).hash events with
  | mk outcome ledger =>
      have saved : _ ∧ book.Keeps before (k.at number False False) _ :=
        Ledger.keeps_saveLogs sound (fun _ => rfl) h due recorded
      refine keeps_saved Bool.false_ne_true.elim saved ?_
      rintro stored rfl
      simpa [recorded, eq_comm] using moved

theorem keeps_saveConfirmed {events : List Event} (same : session.chain = chain.id)
    (sound : LawfulStore.Sound l.store)
    (due : ∃ state, events = (book.watched number).map (Event.ofLog chain.id state))
    (h : book.Keeps before (k.at number True False) (LawfulStore.view l.store))
    (moved : (saveConfirmed (chain.block number) events).resume? session l (.stored none) = some (progress, after)) :
    Keeps book before k number true progress after := by
  unfold resume? at moved
  rw [same] at moved
  cases kept : l.keepEvents none chain.id (chain.block number).hash events with
  | mk outcome ledger =>
      have saved : _ ∧ book.Keeps before (k.at number False True) _ :=
        Ledger.keeps_saveLogs sound (fun _ => rfl) h due kept
      refine keeps_saved (fun _ => trivial) saved ?_
      rintro stored rfl
      simpa [kept, eq_comm] using moved

theorem events_of_reply {addresses : List String} {logs : List Log} (same : session.chain = chain.id)
    (asked : book.AreWatched addresses) (replied : logs = book.reply addresses number) (state : BlockState) :
    session.events state logs = (book.watched number).map (Event.ofLog chain.id state) := by
  rw [replied, asked.events_eq, same]

variable {work : Work} {answer : Answer} {confirms : Bool}

/-- A step of the work on a served block preserves `Keeps`. -/
theorem resume?_keeps (same : session.chain = chain.id) (sound : LawfulStore.Sound l.store)
    (carries : (LawfulStore.view l.store).Carries chain) (on : work.IsOn chain number confirms)
    (due : book.IsDue number work) (asked : book.AreWatched l.addresses)
    (observes : confirms = false → k.observes number) (finalizes : confirms = true → k.confirms number)
    (faultless : ¬answer.IsFault)
    (replied : ∀ {addresses : List String} {logs : List Log}, work.wait = .node (.logs addresses number number) →
      answer = .logs (.ok logs) → logs = book.reply addresses number)
    (h : book.Keeps before (k.at number work.isWritten False) (LawfulStore.view l.store))
    (moved : work.resume? session l answer = some (progress, after)) :
    Keeps book before k number confirms progress after := by
  obtain ⟨header_eq, confirms_eq, -⟩ := on
  have split_moved := moved
  unfold resume? at split_moved
  split at split_moved
  case h_1 header state fault =>
    cases header_eq
    cases confirms_eq
    cases due
    cases Decidable.not_not.mp faultless
    exact keeps_record same sound carries asked (observes rfl) (h.restate (by simp [isWritten]) id) moved
  case h_2 => exact (faultless ⟨_, rfl⟩).elim
  case h_3 header addresses logs =>
    cases header_eq
    cases confirms_eq
    have events := events_of_reply same due (replied (by rw [wait, chain.number_eq]) rfl) .seen
    split at split_moved <;> rename_i told <;> cases split_moved
    · exact keeps_finished Bool.false_ne_true.elim (h.release (List.map_eq_nil_iff.mp (events.symm.trans told)))
    · exact keeps_waits rfl Bool.false_ne_true.elim ⟨.seen, events⟩ h
  case h_4 header events fault =>
    cases header_eq
    cases confirms_eq
    cases Decidable.not_not.mp faultless
    exact keeps_saveSeen same sound due (h.restate (by simp [isWritten]) id) moved
  case h_5 => exact (faultless ⟨_, rfl⟩).elim
  case h_6 header addresses logs =>
    cases header_eq
    cases confirms_eq
    cases split_moved
    have events := events_of_reply same due (replied (by rw [wait, chain.number_eq]) rfl) .confirmed
    exact keeps_waits rfl (fun _ => rfl) ⟨.confirmed, events⟩ h
  case h_7 header events fault =>
    cases header_eq
    cases confirms_eq
    cases Decidable.not_not.mp faultless
    exact keeps_promote same sound carries (finalizes rfl) due (h.restate (by simp [isWritten]) id) moved
  case h_8 header events fault =>
    cases header_eq
    cases confirms_eq
    cases Decidable.not_not.mp faultless
    exact keeps_saveConfirmed same sound due (h.restate (by simp [isWritten]) id) moved
  case h_9 => cases split_moved

end Work

end Chainwatch
