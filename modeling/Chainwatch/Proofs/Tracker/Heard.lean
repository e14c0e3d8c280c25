import Chainwatch.Proofs.Tracker.Confluence
import Chainwatch.Proofs.Tracker.Order

/-!
# The notices of a subscription during a run

Owners take what is queued, subscribe and unsubscribe while a run is going on. What the owner of a lasting
subscription has taken, together with what is queued for it, grows by the notices of each step of the run,
so that in the end it is what the live blocks give, in their order.
-/

namespace Chainwatch

variable {S : Type} [BlockStore S] [LawfulStore S]

/-- The notices that the owner of a subscription took, or that wait for it, of the blocks from some
number on. -/
def Subscription.heardSince (s : Subscription) (first : UInt64) (taken : List Notice) (d : Dispatcher) : List Notice :=
  (taken ++ (s.drain d).1).filter fun notice => first ≤ notice.number

namespace Outset

variable (o : Outset S) (book : ServedLogs o.chain) (s : Subscription) (address : String) (capacity : Nat)

/-- A run without failures, and what the owner of one subscription has taken so far. Owners may do
anything except end this subscription; blooms contain its address in the spelling in which it is
watched; its queue always has room. -/
inductive ReachesTaking : List Notice → Tracker S → Prop where
  | begun : ReachesTaking [] o.begun
  | resume {taken : List Notice} {t u : Tracker S} {id : Nat} {answer : Answer} :
      ReachesTaking taken t → o.Allows False t (.resume id answer) → o.Replies book t id answer →
      t.resume? id answer = some u → s.pending u.dispatcher < capacity → ReachesTaking taken u
  | tend {taken : List Notice} {t : Tracker S} {operation : Dispatcher.Operation} :
      ReachesTaking taken t → operation.deliveries = [] → s.endedBy operation = false →
      book.IsProbed address (t.dispatcher.perform operation).addresses →
      ReachesTaking (taken ++ (s.note (.events address) operation t.dispatcher).received)
        (t.withDispatcher (t.dispatcher.perform operation))

end Outset

section Run

variable {o : Outset S} {book : ServedLogs o.chain} {s : Subscription} {address : String} {capacity errorCapacity : Nat}
  {first last : UInt64} {taken : List Notice} {t u : Tracker S} {id : Nat} {answer : Answer}

/-- The subscription is open and, if the first live block is the expected one, has received what the
live blocks brought. -/
structure Outset.SubscriberInvariant (o : Outset S) (book : ServedLogs o.chain) (s : Subscription) (address : String)
    (capacity errorCapacity : Nat) (first : UInt64) (taken : List Notice) (t : Tracker S) : Prop where
  isOpen : s.IsOpen address capacity errorCapacity t.dispatcher
  probed : book.IsProbed address t.addresses
  life : t.life.Sound
  runAt : ∃ m, RunAt o False none t m
  brought : (∀ {f : UInt64}, (t.lives o.run).head? = some f → f = first) →
    o.Brought book address first (s.heardSince first taken t.dispatcher) t

namespace Outset

theorem subscriberInvariant_begun (wanted : o.tracker.isCancelled o.context = false)
    (opened : s.IsOpen address capacity errorCapacity o.tracker.dispatcher)
    (unread : s.heardSince first [] o.tracker.dispatcher = []) (probed : book.IsProbed address o.tracker.addresses)
    (fresh : ∀ n, first ≤ n → o.plan.before.headAt? o.chain.id n = none) :
    o.SubscriberInvariant book s address capacity errorCapacity first [] o.begun := by
  obtain ⟨life, runAt⟩ := o.reaches (fun _ => wanted) .refl
  have keepsRun : o.tracker.KeepsRun o.run o.begun := Tracker.keepsRun_spawn _
  have lives : o.begun.lives o.run = [] :=
    (keepsRun.lives o.run).trans (Tracker.IsSilent.lives o.rest.silent (Nat.le_refl _))
  refine ⟨opened, probed, life, runAt, fun _ => ⟨by rw [lives]; rfl, ?_, fun _ => unread, ?_⟩⟩
  · intro n late
    rw [lives] at late
    exact fresh n (UInt64.le_iff_toNat_le.mpr late)
  · intro id session point found
    rcases found_append_singleton found with old | ⟨-, same⟩
    · cases o.rest.ended old
    · cases same

theorem SubscriberInvariant.tend (h : o.SubscriberInvariant book s address capacity errorCapacity first taken t)
    {operation : Dispatcher.Operation} (silent : operation.deliveries = []) (spared : s.endedBy operation = false)
    (probed : book.IsProbed address (t.dispatcher.perform operation).addresses) :
    o.SubscriberInvariant book s address capacity errorCapacity first
      (taken ++ (s.note (.events address) operation t.dispatcher).received)
      (t.withDispatcher (t.dispatcher.perform operation)) := by
  obtain ⟨isOpen, -, life, ⟨m, runAt⟩, brought⟩ := h
  have allowed : o.Allows False t (.resubscribe (t.dispatcher.perform operation)) := trivial
  obtain ⟨life', m', follows', -⟩ := runAt.move? life allowed rfl
  have queued := isOpen.queued_perform spared silent
  have heard : s.heardSince first (taken ++ (s.note (.events address) operation t.dispatcher).received)
      (t.dispatcher.perform operation) = s.heardSince first taken t.dispatcher := by
    unfold Subscription.heardSince
    rw [(s.drain_eq _).1, (s.drain_eq _).1, List.append_assoc, queued]
  refine ⟨isOpen.perform spared, probed, life', ⟨m', follows'⟩, fun met => ?_⟩
  obtain ⟨counts, free, early, watch⟩ := brought met
  rw [← heard] at early watch
  exact ⟨counts, free, early, watch⟩

theorem SubscriberInvariant.resume (h : o.SubscriberInvariant book s address capacity errorCapacity first taken t)
    (allowed : o.Allows False t (.resume id answer)) (replies : o.Replies book t id answer)
    (moved : t.resume? id answer = some u) (room : s.pending u.dispatcher < capacity) :
    o.SubscriberInvariant book s address capacity errorCapacity first taken u := by
  obtain ⟨isOpen, probed, life, ⟨m, runAt⟩, brought⟩ := h
  obtain ⟨life', m', follows', -⟩ := runAt.move? life allowed moved
  have watched := isOpen.watched
  have addresses := runAt.addresses_resume? allowed moved
  obtain ⟨task, found, mid, next, new, turn, stepsTo⟩ := Tracker.takesStep_resume? moved
  have relays := runAt.relays_resume? allowed found moved
  have earlier (met : ∀ {f : UInt64}, (u.lives o.run).head? = some f → f = first) {f : UInt64}
      (head : (t.lives o.run).head? = some f) : f = first :=
    met (runAt.head?_lives allowed.1.isHonest found turn stepsTo head)
  cases under : task.work? with
  | none =>
      have same : u.dispatcher = t.dispatcher := by simpa [Tracker.Relays, under] using relays
      refine ⟨same ▸ isOpen, addresses ▸ probed, life', ⟨m', follows'⟩, fun met => ?_⟩
      rw [same]
      exact (brought (earlier met)).free_taskStep runAt allowed.1 probed watched found under turn stepsTo met
  | some at_work =>
      obtain ⟨session, work⟩ := at_work
      obtain ⟨progress, ledger, worked, same⟩ : ∃ progress ledger,
          work.resume? session t.ledger answer = some (progress, ledger) ∧ u.dispatcher = ledger.outlet.dispatcher := by
        simpa [Tracker.Relays, under] using relays
      obtain ⟨block, known⟩ := runAt.exists_block found under
      obtain ⟨notices, told, among⟩ := (runAt.reports_resume? found under allowed.2 worked known).informs
      have dispatcher : u.dispatcher = t.dispatcher.tell notices := same.trans told
      have heard : s.heardSince first taken u.dispatcher =
          s.heardSince first taken t.dispatcher ++ work.newly address first session block answer := by
        unfold Subscription.heardSince Work.newly
        rw [(s.drain_eq _).1, (s.drain_eq _).1, dispatcher, isOpen.queued_tell notices (dispatcher ▸ room), among,
          ← List.append_assoc, List.filter_append]
      refine ⟨dispatcher ▸ isOpen.tell notices, addresses ▸ probed, life', ⟨m', follows'⟩, fun met => ?_⟩
      rw [heard]
      exact (brought (earlier met)).worked_taskStep runAt allowed replies watched found under known turn stepsTo

theorem subscriberInvariant_of_reachesTaking (wanted : o.tracker.isCancelled o.context = false)
    (opened : s.IsOpen address capacity errorCapacity o.tracker.dispatcher)
    (unread : s.heardSince first [] o.tracker.dispatcher = []) (probed : book.IsProbed address o.tracker.addresses)
    (fresh : ∀ n, first ≤ n → o.plan.before.headAt? o.chain.id n = none)
    (history : o.ReachesTaking book s address capacity taken t) :
    o.SubscriberInvariant book s address capacity errorCapacity first taken t := by
  induction history with
  | begun => exact subscriberInvariant_begun wanted opened unread probed fresh
  | resume _ allowed replies moved room ih => exact ih.resume allowed replies moved room
  | tend _ silent spared probed ih => exact ih.tend silent spared probed

end Outset

/-- The first block is known once the watch has taken it. -/
theorem Outset.SubscriberInvariant.heardSince_eq
    (h : o.SubscriberInvariant book s address capacity errorCapacity first taken t)
    (watched : o.HasWatched t first last) :
    first ≤ last ∧
    s.heardSince first taken t.dispatcher = (numbersBetween first last).flatMap (o.brings book address first) := by
  have brought := h.brought fun met => Option.some.inj (met.symm.trans watched.met)
  obtain ⟨id, session, listening⟩ := watched.listening
  refine ⟨brought.first_le_last watched.processed, ?_⟩
  rw [(brought.watch listening).1, WatchPoint.brought, brought.lives_eq watched.processed]

/-- For a subscription to an address that is open before the start and never ended, with room in its
queue throughout, over a store without heads from the first live block on: in a run without failures and
stops, whatever the backfill and other owners do, once the watch has processed the live blocks from the
first to the last the owner has received, of the blocks from the first on, exactly the logs of each live
block as seen, followed by those of the block that it makes final as confirmed. So each log of a final
block is reported twice, first as seen and then as confirmed. -/
theorem seen_then_confirmed_in_order (wanted : o.tracker.isCancelled o.context = false)
    (opened : s.IsOpen address capacity errorCapacity o.tracker.dispatcher)
    (unread : s.heardSince first [] o.tracker.dispatcher = []) (probed : book.IsProbed address o.tracker.addresses)
    (fresh : ∀ number, first ≤ number → o.plan.before.headAt? o.chain.id number = none)
    (history : o.ReachesTaking book s address capacity taken t) (watched : o.HasWatched t first last) :
    s.heardSince first taken t.dispatcher = (numbersBetween first last).flatMap (o.brings book address first) ∧
    ∀ number, first ≤ number → o.IsFinal number last →
      (taken ++ (s.drain t.dispatcher).1).filter (fun notice => notice.number = number) =
        book.notices address .seen number ++ book.notices address .confirmed number := by
  obtain ⟨rises, heard⟩ :=
    (o.subscriberInvariant_of_reachesTaking wanted opened unread probed fresh history).heardSince_eq watched
  refine ⟨heard, fun number known final => ?_⟩
  have among : (s.heardSince first taken t.dispatcher).filter (fun notice => notice.number = number) =
      (taken ++ (s.drain t.dispatcher).1).filter fun notice => notice.number = number := by
    unfold Subscription.heardSince
    rw [List.filter_filter]
    refine List.filter_congr fun notice _ => ?_
    by_cases here : notice.number = number <;> simp [here, known]
  have low := UInt64.le_iff_toNat_le.mp rises
  have final : number.toNat + o.plan.threshold.toNat ≤ last.toNat := final
  have bounded := last.toNat_lt_size
  rw [← among, heard, numbersBetween, filter_flatMap_brings o book address known (by omega), if_pos (by omega),
    if_pos (by omega)]

end Run

/-! ## Two live blocks -/

namespace Outset

variable (o : Outset S) (book : ServedLogs o.chain) (s : Subscription) (capacity : Nat)

/-- Whether an answer is what the node of the chain replies. -/
def replies (t : Tracker S) (id : Nat) : Answer → Bool
  | .logs (.ok logs) =>
      match t.wait? id with
      | some (.node (.logs addresses number _)) => logs == book.reply addresses number
      | _ => true
  | _ => true

def resumeAllowed (t : Tracker S) (turn : Nat × Answer) : Tracker S :=
  match t.resume? turn.1 turn.2 with
  | none => t
  | some u =>
      if o.allows false t (.resume turn.1 turn.2) && o.replies book t turn.1 turn.2 &&
          decide (s.pending u.dispatcher < capacity) then u
      else t

variable {o} {book} {s} {capacity} {address : String} {taken : List Notice} {t : Tracker S}

theorem replies_of_replies {id : Nat} {answer : Answer} (h : o.replies book t id answer) :
    o.Replies book t id answer := by
  rintro addresses logs number waits rfl
  simpa [replies, waits] using h

theorem ReachesTaking.resumeAllowed (h : o.ReachesTaking book s address capacity taken t) (turn : Nat × Answer) :
    o.ReachesTaking book s address capacity taken (o.resumeAllowed book s capacity t turn) := by
  unfold Outset.resumeAllowed
  split
  · exact h
  · rename_i moved
    split
    · rename_i allowed
      simp only [Bool.and_eq_true, decide_eq_true_eq] at allowed
      exact .resume h (o.allows_of_allows Bool.false_ne_true.elim allowed.1.1) (replies_of_replies allowed.1.2) moved
        allowed.2
    · exact h

theorem ReachesTaking.resumeAllAllowed (h : o.ReachesTaking book s address capacity taken t)
    (turns : List (Nat × Answer)) :
    o.ReachesTaking book s address capacity taken (turns.foldl (o.resumeAllowed book s capacity) t) := by
  induction turns generalizing t with
  | nil => exact h
  | cons turn turns ih => exact ih (h.resumeAllowed turn)

end Outset

def loggedSubscription : Subscription :=
  ((Tracker.make { confirmations := some 1 } NestedStore.empty).dispatcher.subscribeEvents "weth").1

def servedBook : ServedLogs loggedOutset.chain where
  logs := loggedBook.logs
  number_eq mem := by
    simp only [loggedBook, List.mem_cons, List.not_mem_nil, or_false] at mem
    rcases mem with rfl | rfl | rfl <;> rfl
  hash_eq mem := by
    simp only [loggedBook, List.mem_cons, List.not_mem_nil, or_false] at mem
    rcases mem with rfl | rfl | rfl <;> rfl

theorem isProbed_servedBook (spellings : List String) : servedBook.IsProbed "weth" spellings :=
  fun _ _ _ => Bloom.containsAddress?_saturated _

namespace HeardRun

abbrev ReachesTaking : List Notice → Tracker NestedStore → Prop :=
  loggedOutset.ReachesTaking servedBook loggedSubscription "weth" 1024

def resumeAllAllowed (t : Tracker NestedStore) (turns : List (Nat × Answer)) : Tracker NestedStore :=
  turns.foldl (loggedOutset.resumeAllowed servedBook loggedSubscription 1024) t

def meets (number : UInt64) (t : Tracker NestedStore) : Tracker NestedStore :=
  ((t.emit (.live loggedOutset.session.run (loggedChain.block number).number)).settle loggedOutset.session.run
    (.arrived (loggedChain.block number).number)).put 1
    (.watching loggedOutset.session (.observing (loggedChain.block number) (.record (loggedChain.block number) .seen)))

def confirms (live number : UInt64) (t : Tracker NestedStore) : Tracker NestedStore :=
  (t.emit (.asked (.logs t.addresses number number))).put 1 (.watching loggedOutset.session
    (.confirming (loggedChain.block live) (.fetchConfirmed (loggedChain.block number) t.addresses)))

def next (t : Tracker NestedStore) : List Notice :=
  (loggedSubscription.note (.events "weth") (.receive loggedSubscription) t.dispatcher).received

def receives (t : Tracker NestedStore) : Tracker NestedStore :=
  t.withDispatcher (t.dispatcher.perform (.receive loggedSubscription))

variable {heard : List Notice} {t : Tracker NestedStore} {number live : UInt64}

theorem reachesTaking_receives (history : ReachesTaking heard t) : ReachesTaking (heard ++ next t) (receives t) :=
  .tend history rfl rfl (isProbed_servedBook _)

theorem reachesTaking_meets (history : ReachesTaking heard t) (asked : t.addresses = ["weth"])
    (found : t.tasks[1]? = some (.watching loggedOutset.session .listening))
    (running : t.isOver loggedOutset.session.run = false)
    (allowed : loggedOutset.allows false t (.resume 1 (.arrival (some (.ok (loggedChain.block number))))))
    (room : loggedSubscription.pending (meets number t).dispatcher < 1024) : ReachesTaking heard (meets number t) :=
  .resume history (loggedOutset.allows_of_allows Bool.false_ne_true.elim allowed) (fun _ brought => nomatch brought)
    (Tracker.move?_meet found running (LoggedRun.observe_eq asked number)) room

theorem reachesTaking_sweeps (history : ReachesTaking heard t) (asked : t.addresses = ["weth"])
    (found : t.tasks[2]? = some (.sweeping loggedOutset.session 1 (.fetching 1)))
    (allowed : loggedOutset.allows false t (.resume 2 (.header (.ok (loggedChain.block 1)))))
    (room : loggedSubscription.pending (LoggedRun.sweeps t).dispatcher < 1024) :
    ReachesTaking heard (LoggedRun.sweeps t) :=
  .resume history (loggedOutset.allows_of_allows Bool.false_ne_true.elim allowed) (fun _ brought => nomatch brought)
    (Tracker.move?_begin found (LoggedRun.beginWork_eq asked)) room

theorem reachesTaking_confirms (history : ReachesTaking heard t) (asked : t.addresses = ["weth"])
    (found : t.tasks[1]? = some (.watching loggedOutset.session (.fetchingTarget (loggedChain.block live))))
    (allowed : loggedOutset.allows false t (.resume 1 (.header (.ok (loggedChain.block number)))))
    (room : loggedSubscription.pending (confirms live number t).dispatcher < 1024) :
    ReachesTaking heard (confirms live number t) :=
  .resume history (loggedOutset.allows_of_allows Bool.false_ne_true.elim allowed) (fun _ brought => nomatch brought)
    (Tracker.move?_target found (LoggedRun.confirm_eq asked number)) room

def listening : Tracker NestedStore :=
  resumeAllAllowed loggedOutset.begun
    [(0, .go), (0, .chain (.ok 1)), (0, .stored none), (1, .go), (1, .subscribed (.ok ()))]

/-- The watch has taken the third block, and both tasks observe a block. -/
def observed : Tracker NestedStore :=
  resumeAllAllowed (LoggedRun.sweeps (resumeAllAllowed (meets 2 listening) [(0, .go), (2, .go)]))
    [(2, .stored none), (1, .stored none), (1, .logs (.ok (servedBook.reply ["weth"] 2))), (1, .stored none),
      (2, .logs (.ok (servedBook.reply ["weth"] 1))), (2, .stored none)]

theorem reachesTaking_observed : ReachesTaking [] observed := by
  have listens : ReachesTaking [] listening := Outset.ReachesTaking.begun.resumeAllAllowed _
  have met : ReachesTaking [] (meets 2 listening) :=
    reachesTaking_meets listens rfl rfl rfl (by decide +kernel) (by decide +kernel)
  have swept := reachesTaking_sweeps (met.resumeAllAllowed [(0, .go), (2, .go)]) rfl rfl (by decide +kernel)
    (by decide +kernel)
  exact swept.resumeAllAllowed _

def taken : List Notice :=
  next observed

/-- The watch has confirmed the second block. -/
def first : Tracker NestedStore :=
  resumeAllAllowed (confirms 2 1 (receives observed))
    [(1, .logs (.ok (servedBook.reply ["weth"] 1))), (1, .stored none), (1, .stored none)]

/-- The watch has observed the fourth block and confirmed the third. -/
def second : Tracker NestedStore :=
  resumeAllAllowed (confirms 3 2 (resumeAllAllowed (meets 3 first)
    [(1, .stored none), (1, .logs (.ok (servedBook.reply ["weth"] 3))), (1, .stored none)]))
    [(1, .logs (.ok (servedBook.reply ["weth"] 2))), (1, .stored none), (1, .stored none)]

theorem reachesTaking_second : ReachesTaking taken second := by
  have confirmed : ReachesTaking taken first :=
    (reachesTaking_confirms (reachesTaking_receives reachesTaking_observed) rfl rfl (by decide +kernel)
      (by decide +kernel)).resumeAllAllowed _
  have met : ReachesTaking taken (meets 3 first) :=
    reachesTaking_meets confirmed rfl rfl rfl (by decide +kernel) (by decide +kernel)
  have seen := met.resumeAllAllowed
    [(1, .stored none), (1, .logs (.ok (servedBook.reply ["weth"] 3))), (1, .stored none)]
  exact (reachesTaking_confirms seen rfl rfl (by decide +kernel) (by decide +kernel)).resumeAllAllowed _

end HeardRun

/-- The notices seen of block three, seen of block four, and confirmed of block three. -/
theorem seen_then_confirmed_in_order_two_blocks :
    HeardRun.ReachesTaking HeardRun.taken HeardRun.second ∧ loggedOutset.HasWatched HeardRun.second 2 3 ∧
    loggedSubscription.heardSince 2 HeardRun.taken HeardRun.second.dispatcher =
      servedBook.notices "weth" .seen 2 ++
        (servedBook.notices "weth" .seen 3 ++ servedBook.notices "weth" .confirmed 2) ∧
    (HeardRun.taken ++ (loggedSubscription.drain HeardRun.second.dispatcher).1).filter
        (fun notice => notice.number = 2) =
      servedBook.notices "weth" .seen 2 ++ servedBook.notices "weth" .confirmed 2 := by
  have opened : loggedSubscription.IsOpen "weth" 1024 16 loggedOutset.tracker.dispatcher :=
    Subscription.isOpen_subscribe (Dispatcher.tidy_make 1024 16) "weth"
  have watched : loggedOutset.HasWatched HeardRun.second 2 3 :=
    (Outset.caughtUp_of_hasCaughtUp (by decide +kernel)).toHasWatched
  obtain ⟨heard, twice⟩ := seen_then_confirmed_in_order (o := loggedOutset) rfl opened rfl (isProbed_servedBook _)
    (fun _ _ => rfl) HeardRun.reachesTaking_second watched
  exact ⟨HeardRun.reachesTaking_second, watched, heard.trans (by decide +kernel), twice 2 (by decide) (by decide)⟩

end Chainwatch
