import Chainwatch.Proofs.Store.Answers
import Chainwatch.Proofs.Tracker.Kept
import Chainwatch.Proofs.Tracker.Replay

/-!
# The result does not depend on the interleaving

Once the watch and the backfill of a run have caught up, the view of the store is determined by the
initial view, the chain with its logs, and the first and the last live block. Every interleaving of the
two gives the same heads and every event once.
-/

namespace Chainwatch

variable {S : Type} [BlockStore S] [LawfulStore S] {o : Outset S} {t u : Tracker S} {m : Mark} {first last : UInt64}

/-! ## The view at the end -/

namespace Logbook

variable (book : Logbook o.chain)

def placed? (first last number : UInt64) : Option BlockState :=
  if o.Confirms first last number then some .confirmed
  else if o.plan.before.headAt? o.chain.id number = none ∧ o.Observes first last number then some (book.observed number)
  else none

/-- The view of the store when the run has caught up. -/
def outcome (first last : UInt64) : View where
  headAt? id number :=
    if id = o.chain.id then
      match book.placed? first last number with
      | some state => some (.ofHeader o.chain.id (o.chain.block number) state)
      | none => o.plan.before.headAt? id number
    else o.plan.before.headAt? id number
  eventsAt id number :=
    if id = o.chain.id then
      match book.placed? first last number with
      | some state => book.complete o.plan.before (.ofHeader o.chain.id (o.chain.block number) state)
      | none => o.plan.before.eventsAt id number
    else o.plan.before.eventsAt id number

end Logbook

/-! ## Runs that have caught up -/

namespace RunAt

theorem listens (h : RunAt o False none t m) (caught : o.CaughtUp t first last) :
    t.HasConfirmedLast ∧ ∀ number, ¬t.LacksEvents number := by
  obtain ⟨id, session, found⟩ := caught.listening
  refine ⟨⟨id, _, found, rfl⟩, ?_⟩
  rintro number ⟨j, task, there, run, work, under, -⟩
  cases task with
  | watching other point =>
      cases h.watch_unique found there
      cases found.symm.trans there
      cases under
  | sweeping other last point => exact caught.ended there
  | _ => cases under

theorem isStored_of_observes (h : RunAt o False none t m) (watched : o.HasWatched t first last)
    (reached : m.first ≤ m.pos) {number : UInt64} (observes : o.Observes first last number) :
    (LawfulStore.view t.ledger.store).isStored o.chain.id number := by
  obtain ⟨known, seen, done⟩ := h.counts watched
  have order := h.storeAt.order
  rcases observes with ⟨low, high⟩ | ⟨low, high⟩
  · have low := UInt64.le_iff_toNat_le.mp low
    have high := UInt64.lt_iff_toNat_lt.mp high
    exact h.storeAt.covers.swept number low (by omega)
  · have low := UInt64.le_iff_toNat_le.mp low
    have high := UInt64.le_iff_toNat_le.mp high
    exact h.storeAt.covers.seen number (by omega) (by omega)

theorem isConfirmed_of_confirms (h : RunAt o False none t m) (watched : o.HasWatched t first last)
    (reached : m.first ≤ m.pos) {number : UInt64} (confirms : o.Confirms first last number) :
    (LawfulStore.view t.ledger.store).isConfirmed o.chain.id number := by
  obtain ⟨known, seen, done⟩ := h.counts watched
  have order := h.storeAt.order
  rw [h.isConfirmed_iff watched reached]
  rcases confirms with ⟨low, high⟩ | ⟨low, final⟩
  · exact Or.inr ⟨by unfold Outset.IsFinal; omega, Or.inl low⟩
  · exact Or.inr ⟨final, Or.inr low⟩

end RunAt

namespace Logbook

variable {book : Logbook o.chain}

theorem promoted_of_confirms (runAt : RunAt o False none t m) (caught : o.CaughtUp t first last)
    (reached : m.first ≤ m.pos)
    (fresh : ∀ number, o.plan.lowest ≤ number → o.plan.before.headAt? o.chain.id number = none) {number : UInt64}
    (confirms : o.Confirms first last number) (same : (LawfulStore.view t.ledger.store).headAt? o.chain.id number =
      o.plan.before.headAt? o.chain.id number) : o.Promoted t number := by
  rcases confirms with swept | ⟨low, final⟩
  · have confirmed := runAt.isConfirmed_of_confirms caught.toHasWatched reached (Or.inl swept)
    rw [View.isConfirmed, same, fresh number swept.1] at confirmed
    cases confirmed
  · refine ⟨first, last, ⟨caught.met, caught.processed⟩, low, ?_⟩
    rcases Nat.lt_or_eq_of_le final with below | top
    · exact Or.inl below
    · exact Or.inr ⟨top, (runAt.listens caught).1⟩

/-- A number has the state in which the run leaves it, or is as it was. -/
theorem Kept.settled (kept : book.Kept t) (runAt : RunAt o False none t m) (caught : o.CaughtUp t first last)
    (reached : m.first ≤ m.pos)
    (fresh : ∀ number, o.plan.lowest ≤ number → o.plan.before.headAt? o.chain.id number = none) (number : UInt64) :
    (LawfulStore.view t.ledger.store).headAt? o.chain.id number = (book.outcome first last).headAt? o.chain.id number ∧
      (LawfulStore.view t.ledger.store).eventsAt o.chain.id number =
        (book.outcome first last).eventsAt o.chain.id number := by
  have spans : Spans (t.lives o.run) first last := ⟨caught.met, caught.processed⟩
  have watched := caught.toHasWatched
  simp only [outcome, if_true]
  cases kept.keeps.stands number with
  | untouched same events idle early =>
      -- whatever the run observes or confirms it has stored by now, so it did not come to this number
      have left : book.placed? first last number = none := by
        unfold placed?
        rw [if_neg, if_neg]
        · rintro ⟨none, observes⟩
          have stored := runAt.isStored_of_observes watched reached observes
          rw [View.isStored, same, none] at stored
          cases stored
        · exact fun confirms => early (promoted_of_confirms runAt caught reached fresh confirms same)
      rw [left]
      exact ⟨same, events⟩
  | @touched head state of found reach events =>
      have placed : book.placed? first last number = some state := by
        unfold placed?
        rcases reach with ⟨rfl, confirms⟩ | ⟨rfl, none, observes⟩
        · exact if_pos (confirms.confirms spans)
        · rw [if_neg, if_pos ⟨none, observes.observes spans⟩]
          intro confirms
          obtain ⟨other, found', confirmed⟩ :=
            View.isConfirmed_iff.mp (runAt.isConfirmed_of_confirms watched reached confirms)
          cases found.symm.trans found'
          subst of
          exact book.observed_ne_confirmed number confirmed
      rw [placed]
      subst of
      refine ⟨found, ?_⟩
      -- no task is at work, so all events are present
      rcases events with complete | ⟨lacksEvents, -⟩
      · exact complete
      · exact ((runAt.listens caught).2 number lacksEvents).elim

/-- The view of a run that has caught up is `outcome`. -/
theorem Kept.view_eq (kept : book.Kept t) (runAt : RunAt o False none t m) (caught : o.CaughtUp t first last)
    (reached : m.first ≤ m.pos)
    (fresh : ∀ number, o.plan.lowest ≤ number → o.plan.before.headAt? o.chain.id number = none) :
    LawfulStore.view t.ledger.store = book.outcome first last := by
  have settled := kept.settled runAt caught reached fresh
  apply View.ext
  · intro id number
    by_cases same : id = o.chain.id
    · exact same ▸ (settled number).1
    · simpa [outcome, same] using (kept.keeps.others number same).1
  · intro id number
    by_cases same : id = o.chain.id
    · exact same ▸ (settled number).2
    · simpa [outcome, same] using (kept.keeps.others number same).2

/-- Every number in the range of the run has its block and exactly the records of its watched logs. -/
theorem outcome_of_reach (book : Logbook o.chain) (first : UInt64)
    (fresh : ∀ number, o.plan.lowest ≤ number → o.plan.before.headAt? o.chain.id number = none) {number : UInt64}
    (low : o.plan.lowest ≤ number) (high : number ≤ last) :
    ∃ state, (book.outcome first last).headAt? o.chain.id number =
        some (.ofHeader o.chain.id (o.chain.block number) state) ∧
      (book.outcome first last).eventsAt o.chain.id number =
        book.records (.ofHeader o.chain.id (o.chain.block number) state) := by
  have new := fresh number low
  have observes : o.Observes first last number := by
    by_cases early : number < first
    · exact Or.inl ⟨low, early⟩
    · exact Or.inr ⟨UInt64.not_lt.mp early, high⟩
  obtain ⟨state, placed⟩ : ∃ state, book.placed? first last number = some state := by
    unfold placed?
    split
    · exact ⟨_, rfl⟩
    · exact ⟨_, if_pos ⟨new, observes⟩⟩
  refine ⟨state, by simp [outcome, placed], ?_⟩
  have place : (Head.ofHeader o.chain.id (o.chain.block number) state).number = number := o.chain.number_eq number
  simp only [outcome, if_true, placed]
  exact complete_of_fresh (place.symm ▸ new)

end Logbook

/-! ## Independence of the order -/

section Answers

variable [AnsweringStore S] {book : Logbook o.chain}

/-- Over a store without heads from the lowest number on, in a run without failures and stops: once
backfill and watch have caught up, every block from the lowest to the last live one is stored, with one
record of each watched log and no others, and any other interleaving of the two leaves a store that
answers every query alike. -/
theorem events_once_of_caughtUp (wanted : o.tracker.isCancelled o.context = false)
    (asked : book.AreWatched o.tracker.addresses)
    (fresh : ∀ number, o.plan.lowest ≤ number → o.plan.before.headAt? o.chain.id number = none)
    (history : Tracker.Reaches book.Allows o.begun t) (caught : o.CaughtUp t first last)
    (range : 2 ≤ first ∨ first ≤ o.plan.lowest) :
    (∀ number, o.plan.lowest ≤ number → number ≤ last → ∃ state answer,
      BlockStore.heads t.ledger.store { chain := some o.chain.id, number := some number } =
        .ok [.ofHeader o.chain.id (o.chain.block number) state] ∧
      BlockStore.events t.ledger.store { chain := some o.chain.id, blockNumber := some number } = .ok answer ∧
      answer.Perm (book.records (.ofHeader o.chain.id (o.chain.block number) state))) ∧
    ∀ u, Tracker.Reaches book.Allows o.begun u → o.CaughtUp u first last →
      BlockStore.Alike t.ledger.store u.ledger.store := by
  have shows {v : Tracker S} (history : Tracker.Reaches book.Allows o.begun v) (caught : o.CaughtUp v first last) :
      LawfulStore.Sound v.ledger.store ∧ LawfulStore.view v.ledger.store = book.outcome first last := by
    obtain ⟨kept, -, m, runAt⟩ := book.kept_of_reaches wanted asked history
    have swept := (runAt.isSwept caught.toSweepEnded (runAt.faultFree id).running).2
    have reached := runAt.reached swept (runAt.storeAt.head caught.met) range
    exact ⟨runAt.storeAt.sound, kept.view_eq runAt caught reached fresh⟩
  obtain ⟨sound, view⟩ := shows history caught
  constructor
  · intro number low high
    obtain ⟨state, found, records⟩ := book.outcome_of_reach first fresh low high
    obtain ⟨answer, answered, perm⟩ := AnsweringStore.events_number o.chain.id number sound
    refine ⟨state, answer, ?_, answered, ?_⟩
    · rw [LawfulStore.heads_number o.chain.id number sound, view, found]
      rfl
    · rw [view, records] at perm
      exact perm
  · intro u history' caught'
    obtain ⟨sound', view'⟩ := shows history' caught'
    exact AnsweringStore.alike sound sound' (view.trans view'.symm)

end Answers

/-! ## Two orders of one run -/

namespace Logbook

variable (book : Logbook o.chain)

/-- Whether a run without failures allows a move, while subscriptions stay as they are. -/
def allows (t : Tracker S) (move : Move) : Bool :=
  o.allows false t move &&
  match move with
  | .resubscribe _ => false
  | .resume id (.logs (.ok logs)) =>
      match t.wait? id with
      | some (.node (.logs addresses number _)) => logs == book.reply addresses number
      | _ => true
  | _ => true

theorem allows_of_allows {move : Move} (h : book.allows t move) : book.Allows t move := by
  simp only [allows, Bool.and_eq_true] at h
  refine ⟨o.allows_of_allows Bool.false_ne_true.elim h.1, ?_, ?_⟩
  · rintro dispatcher rfl
    cases h.2
  · rintro id logs addresses number rfl waits
    simpa [waits] using h.2

def played (t : Tracker S) (moves : List Move) : Tracker S :=
  (t.trial? book.allows moves).getD t

theorem reaches_played (history : Tracker.Reaches book.Allows o.begun t) (moves : List Move) :
    Tracker.Reaches book.Allows o.begun (book.played t moves) := by
  unfold played
  cases moved : t.trial? book.allows moves with
  | none => exact history
  | some u => exact history.trans (Tracker.reaches_of_trial? book.allows_of_allows moved)

end Logbook

/-- The plain chain with saturated blooms. -/
def loggedChain : ServedChain where
  id := 1
  block number := { plainChain.block number with bloom := .saturated }
  number_eq _ := rfl
  hash_unique := plainChain.hash_unique
  bloom_full _ := by simp [Bloom.IsFull, Bloom.saturated]

/-- A tracker of that chain with one subscription, a backfill from the second block, and a threshold of
one block. -/
def loggedTracker : Tracker NestedStore :=
  let fresh := Tracker.make { confirmations := some 1 } NestedStore.empty
  { fresh.withDispatcher (fresh.dispatcher.subscribeEvents "weth").2 with startHeight := 1 }

def loggedOutset : Outset NestedStore where
  chain := loggedChain
  tracker := loggedTracker
  context := "logged"
  height := 0
  rest := ⟨rfl, Life.sound_make, by simp [loggedTracker, Tracker.withDispatcher, Tracker.make],
    by simp [loggedTracker, Tracker.IsSilent, Tracker.withDispatcher, Tracker.make, Ledger.news]⟩
  sound := NestedStore.sound_empty
  carries found := by cases found
  height_eq := rfl

/-- Every block has a log of the watched address, one of another address, and one that was dropped. -/
def loggedBook : Logbook loggedOutset.chain where
  addresses := ["weth"]
  logs number :=
    let log (address : String) (index : UInt32) (removed : Bool) : Log :=
      ⟨address, ["transfer"], [], number, (loggedChain.block number).hash, "", 0, index, removed⟩
    [log "WETH" 0 false, log "dai" 1 false, log "weth" 2 true]
  distinct _ := by simp
  probed _ _ _ _ := Bloom.containsAddress?_saturated _

theorem loggedBook_observed (number : UInt64) : loggedBook.observed number = .seen := by
  have told : (loggedOutset.chain.block number).bloom.containsAddress? "weth" = some true :=
    Bloom.containsAddress?_saturated "weth"
  unfold Logbook.observed
  refine if_pos (List.any_eq_true.mpr ⟨"weth", List.mem_singleton_self "weth", ?_⟩)
  rw [told]
  rfl

namespace LoggedRun

variable {t : Tracker NestedStore}

def meets (t : Tracker NestedStore) : Tracker NestedStore :=
  ((t.emit (.live loggedOutset.session.run (loggedChain.block 2).number)).settle loggedOutset.session.run
    (.arrived (loggedChain.block 2).number)).put 1
    (.watching loggedOutset.session (.observing (loggedChain.block 2) (.record (loggedChain.block 2) .seen)))

def sweeps (t : Tracker NestedStore) : Tracker NestedStore :=
  t.put 2 (.sweeping loggedOutset.session 1 (.working 1 (.record (loggedChain.block 1) .seen)))

def confirms (t : Tracker NestedStore) : Tracker NestedStore :=
  (t.emit (.asked (.logs t.addresses 1 1))).put 1 (.watching loggedOutset.session
    (.confirming (loggedChain.block 2) (.fetchConfirmed (loggedChain.block 1) t.addresses)))

theorem areWatched (asked : t.addresses = ["weth"]) : loggedBook.AreWatched t.addresses := by
  rw [asked]
  exact fun _ => Iff.rfl

theorem observe_eq (asked : t.addresses = ["weth"]) (number : UInt64) :
    Work.observe t.ledger (loggedChain.block number) = .waits (.record (loggedChain.block number) .seen) :=
  loggedBook_observed number ▸ Work.observe_eq (areWatched asked) number

theorem beginWork_eq (asked : t.addresses = ["weth"]) :
    t.beginWork loggedOutset.session 1 1 (loggedChain.block 1) =
      (.waits (.record (loggedChain.block 1) .seen), t.ledger) :=
  (if_neg Bool.false_ne_true).trans (congrArg (·, t.ledger) (observe_eq asked 1))

theorem confirm_eq (asked : t.addresses = ["weth"]) (number : UInt64) :
    Work.confirm t.ledger (loggedChain.block number) =
      (.waits (.fetchConfirmed (loggedChain.block number) t.addresses),
        t.ledger.emit (.asked (.logs t.addresses number number))) := by
  have watching : t.addresses ≠ [] := by simp [asked]
  exact Work.confirm_eq (areWatched asked) watching (loggedBook_observed number)

theorem reaches_meets (history : Tracker.Reaches loggedBook.Allows loggedOutset.begun t)
    (asked : t.addresses = ["weth"]) (found : t.tasks[1]? = some (.watching loggedOutset.session .listening))
    (running : t.isOver loggedOutset.session.run = false)
    (allowed : loggedBook.allows t (.resume 1 (.arrival (some (.ok (loggedChain.block 2)))))) :
    Tracker.Reaches loggedBook.Allows loggedOutset.begun (meets t) :=
  .move history (loggedBook.allows_of_allows allowed) (Tracker.move?_meet found running (observe_eq asked 2))

theorem reaches_sweeps (history : Tracker.Reaches loggedBook.Allows loggedOutset.begun t)
    (asked : t.addresses = ["weth"]) (found : t.tasks[2]? = some (.sweeping loggedOutset.session 1 (.fetching 1)))
    (allowed : loggedBook.allows t (.resume 2 (.header (.ok (loggedChain.block 1))))) :
    Tracker.Reaches loggedBook.Allows loggedOutset.begun (sweeps t) :=
  .move history (loggedBook.allows_of_allows allowed) (Tracker.move?_begin found (beginWork_eq asked))

theorem reaches_confirms (history : Tracker.Reaches loggedBook.Allows loggedOutset.begun t)
    (asked : t.addresses = ["weth"])
    (found : t.tasks[1]? = some (.watching loggedOutset.session (.fetchingTarget (loggedChain.block 2))))
    (allowed : loggedBook.allows t (.resume 1 (.header (.ok (loggedChain.block 1))))) :
    Tracker.Reaches loggedBook.Allows loggedOutset.begun (confirms t) :=
  .move history (loggedBook.allows_of_allows allowed) (Tracker.move?_target found (confirm_eq asked 1))

def met : Tracker NestedStore :=
  meets (loggedBook.played loggedOutset.begun
    [.resume 0 .go, .resume 0 (.chain (.ok 1)), .resume 0 (.stored none), .resume 1 .go,
      .resume 1 (.subscribed (.ok ()))])

theorem reaches_met : Tracker.Reaches loggedBook.Allows loggedOutset.begun met :=
  reaches_meets (loggedBook.reaches_played .refl _) rfl rfl rfl (by decide +kernel)

/-- The backfill puts the second block in place, and adds its events after the watch has confirmed it. -/
def overlapped : Tracker NestedStore :=
  loggedBook.played (confirms (loggedBook.played (sweeps (loggedBook.played met [.resume 0 .go, .resume 2 .go]))
    [.resume 2 (.stored none), .resume 1 (.stored none), .resume 1 (.logs (.ok (loggedBook.reply ["weth"] 2))),
      .resume 1 (.stored none)]))
    [.resume 1 (.logs (.ok (loggedBook.reply ["weth"] 1))), .resume 2 (.logs (.ok (loggedBook.reply ["weth"] 1))),
      .resume 1 (.stored none), .resume 2 (.stored none), .resume 1 (.stored none)]

theorem reaches_overlapped : Tracker.Reaches loggedBook.Allows loggedOutset.begun overlapped := by
  have swept := reaches_sweeps (loggedBook.reaches_played reaches_met [.resume 0 .go, .resume 2 .go]) rfl rfl
    (by decide +kernel)
  exact loggedBook.reaches_played
    (reaches_confirms (loggedBook.reaches_played swept _) rfl rfl (by decide +kernel)) _

/-- The watch does all its work before the backfill begins. -/
def inTurn : Tracker NestedStore :=
  loggedBook.played (sweeps (loggedBook.played (confirms (loggedBook.played met
    [.resume 1 (.stored none), .resume 1 (.logs (.ok (loggedBook.reply ["weth"] 2))), .resume 1 (.stored none)]))
    [.resume 1 (.logs (.ok (loggedBook.reply ["weth"] 1))), .resume 1 (.stored none), .resume 1 (.stored none),
      .resume 0 .go, .resume 2 .go]))
    [.resume 2 (.stored none)]

theorem reaches_inTurn : Tracker.Reaches loggedBook.Allows loggedOutset.begun inTurn := by
  have confirmed := reaches_confirms (loggedBook.reaches_played reaches_met [.resume 1 (.stored none),
    .resume 1 (.logs (.ok (loggedBook.reply ["weth"] 2))), .resume 1 (.stored none)]) rfl rfl (by decide +kernel)
  exact loggedBook.reaches_played
    (reaches_sweeps (loggedBook.reaches_played confirmed _) rfl rfl (by decide +kernel)) _

end LoggedRun

theorem events_once_of_caughtUp_two_orders :
    loggedOutset.CaughtUp LoggedRun.overlapped 2 2 ∧
    (∀ number, loggedOutset.plan.lowest ≤ number → number ≤ 2 → ∃ state answer,
      BlockStore.heads LoggedRun.overlapped.ledger.store { chain := some 1, number := some number } =
        .ok [.ofHeader 1 (loggedChain.block number) state] ∧
      BlockStore.events LoggedRun.overlapped.ledger.store { chain := some 1, blockNumber := some number } =
        .ok answer ∧ answer.Perm (loggedBook.records (.ofHeader 1 (loggedChain.block number) state))) ∧
    loggedOutset.CaughtUp LoggedRun.inTurn 2 2 ∧
    BlockStore.Alike LoggedRun.overlapped.ledger.store LoggedRun.inTurn.ledger.store := by
  have caught : loggedOutset.CaughtUp LoggedRun.overlapped 2 2 := Outset.caughtUp_of_hasCaughtUp (by decide +kernel)
  have caught' : loggedOutset.CaughtUp LoggedRun.inTurn 2 2 := Outset.caughtUp_of_hasCaughtUp (by decide +kernel)
  obtain ⟨records, alike⟩ := events_once_of_caughtUp (o := loggedOutset) rfl (LoggedRun.areWatched rfl)
    (fun _ _ => rfl) LoggedRun.reaches_overlapped caught (Or.inl (by decide))
  exact ⟨caught, records, caught', alike _ LoggedRun.reaches_inTurn caught'⟩

end Chainwatch
