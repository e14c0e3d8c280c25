import Chainwatch.Proofs.Dispatcher.Hearing
import Chainwatch.Proofs.Tracker.Reach

/-!
# What subscribers are sent

Dispatching closes no subscription. In a run without failures and stops, subscribers get exactly the
notices of the work on blocks, and the watched addresses change only when an owner subscribes or
unsubscribes.
-/

namespace Chainwatch

namespace Dispatcher

theorem addresses_deliver (d : Dispatcher) (notice : Notice) :
    (d.deliver (.notice notice)).addresses = d.addresses := by
  cases notice with
  | head head => rfl
  | event event =>
      have same : (fun m : Mailbox Event =>
        (if m.watches event.address then m.offer Event.describe event else m).topic) =
          (·.topic) := by
        funext m
        split
        · exact Mailbox.offer_topic ..
        · rfl
      unfold addresses deliver dispatchEvent Registry.forAll
      rw [List.filterMap_map]
      exact congrArg (fun topic => distinctTopics (d.events.registered.filterMap topic)) same

theorem addresses_tell (d : Dispatcher) (notices : List Notice) : (d.tell notices).addresses = d.addresses := by
  induction notices generalizing d with
  | nil => rfl
  | cons notice notices ih => exact (ih (d.deliver (.notice notice))).trans (d.addresses_deliver notice)

end Dispatcher

namespace Ledger

variable {S : Type} {l after : Ledger S} {events : List Event}

def addresses (l : Ledger S) : List String :=
  l.outlet.dispatcher.addresses

/-- Between two ledgers, heads and exactly these events are reported, one after another. -/
def Informs (l : Ledger S) (events : List Event) (after : Ledger S) : Prop :=
  ∃ notices, after.outlet.dispatcher = l.outlet.dispatcher.tell notices ∧ notices.filterMap Notice.event? = events

theorem Informs.addresses (h : l.Informs events after) : after.addresses = l.addresses := by
  obtain ⟨notices, told, -⟩ := h
  rw [Ledger.addresses, told]
  exact Dispatcher.addresses_tell ..

theorem informs_of_same (same : after.outlet.dispatcher = l.outlet.dispatcher) : l.Informs [] after :=
  ⟨[], same, rfl⟩

theorem informs_head {head : Head} (told : after.outlet = l.outlet.tellHead head) : l.Informs [] after :=
  ⟨[.head head], congrArg Outlet.dispatcher told, rfl⟩

theorem informs_events (told : after.outlet = l.outlet.tellEvents events) : l.Informs events after := by
  refine ⟨events.map .event, (congrArg Outlet.dispatcher told).trans ?_, ?_⟩
  · rw [Dispatcher.tell, List.map_map]
    exact l.outlet.dispatcher.dispatchEvents_eq events
  · rw [List.filterMap_map]
    exact List.filterMap_some

variable [BlockStore S] [LawfulStore S] {chain number : UInt64} {block : Head}

/-- Between two ledgers, heads and exactly these events are reported, and no head is put in place except
under this number. -/
structure Reports (chain number : UInt64) (events : List Event) (l after : Ledger S) : Prop where
  informs : l.Informs events after
  elsewhere : ∀ {id n : UInt64}, ¬(id = chain ∧ n = number) →
    (LawfulStore.view after.store).headAt? id n = (LawfulStore.view l.store).headAt? id n

theorem reports_of_same (store : after.store = l.store) (dispatcher : after.outlet.dispatcher = l.outlet.dispatcher) :
    l.Reports chain number [] after :=
  ⟨informs_of_same dispatcher, fun _ => by rw [store]⟩

theorem Reports.same (h : l.Reports chain number events after) {ledger : Ledger S} (store : ledger.store = after.store)
    (dispatcher : ledger.outlet.dispatcher = after.outlet.dispatcher) : l.Reports chain number events ledger := by
  obtain ⟨notices, told, among⟩ := h.informs
  exact ⟨⟨notices, dispatcher.trans told, among⟩, fun other => by rw [store, h.elsewhere other]⟩

/-- A store that only saves events puts no head in place. -/
theorem reports_of_told (informs : l.Informs events after)
    (same : (LawfulStore.view after.store).headAt? = (LawfulStore.view l.store).headAt?) :
    l.Reports chain number events after :=
  ⟨informs, fun _ => by rw [same]⟩

theorem reports_of_put {head told : Head} (outlet : after.outlet = l.outlet.tellHead told)
    (view : LawfulStore.view after.store = (LawfulStore.view l.store).put head) :
    l.Reports head.chain head.number [] after := by
  refine ⟨informs_head outlet, fun other => ?_⟩
  rw [view]
  exact if_neg other

theorem reports_recordHead (sound : LawfulStore.Sound l.store) (fault : Option TrackError) (head : Head)
    (full : head.bloom.IsFull) : l.Reports head.chain head.number [] (l.recordHead fault head).2 := by
  unfold recordHead write
  cases fault with
  | some e => exact reports_of_same rfl rfl
  | none =>
      by_cases taken : (LawfulStore.view l.store).Taken head
      · obtain ⟨e, -, same⟩ := LawfulStore.createHead_taken
          [fun stored outlet => (.ok (), Outlet.tellHead outlet (stored.withState .seen))] l.outlet sound taken
        dsimp only
        rw [same]
        exact reports_of_same rfl rfl
      · have applied := LawfulStore.createHead_free
          [fun stored outlet => (.ok (), Outlet.tellHead outlet (stored.withState .seen))] l.outlet sound taken full
        exact reports_of_put applied.state applied.view

theorem reports_promoteHead (sound : LawfulStore.Sound l.store) (fault : Option TrackError) (head : Head)
    (full : head.bloom.IsFull) : l.Reports head.chain head.number [] (l.promoteHead fault head).2 := by
  unfold promoteHead write
  cases fault with
  | some e => exact reports_of_same rfl rfl
  | none =>
      by_cases owned : (LawfulStore.view l.store).OwnedElsewhere head
      · dsimp only
        rw [LawfulStore.upsertHead_taken _ _ sound owned]
        exact reports_of_same rfl rfl
      · have applied := LawfulStore.upsertHead_free [fun stored outlet => (.ok (), Outlet.tellHead outlet stored)]
          l.outlet sound owned full
        rw [← View.settled_chain (v := LawfulStore.view l.store) head,
          ← View.settled_number (v := LawfulStore.view l.store) head]
        exact reports_of_put applied.state applied.view

theorem reports_recordEvents (sound : LawfulStore.Sound l.store)
    (found : (LawfulStore.view l.store).headAt? chain number = some block) (events : List Event) :
    l.Reports chain number (events.map (·.mergeWith block)) (l.recordEvents none chain block.hash events).2 := by
  unfold recordEvents write
  dsimp only
  by_cases none : events = []
  · rw [none, LawfulStore.saveLogs_nil]
    exact reports_of_same rfl rfl
  · have applied := LawfulStore.saveLogs_known
      [fun stored outlet => (.ok (), Outlet.tellEvents outlet stored)] l.outlet sound none found rfl
    refine reports_of_told (informs_events applied.state) ?_
    rw [applied.view]
    rfl

theorem reports_keepEvents (sound : LawfulStore.Sound l.store)
    (found : (LawfulStore.view l.store).headAt? chain number = some block) (events : List Event) :
    l.Reports chain number [] (l.keepEvents none chain block.hash events).2 := by
  unfold keepEvents write
  dsimp only
  by_cases none : events = []
  · rw [none, LawfulStore.saveLogs_nil]
    exact reports_of_same rfl rfl
  · have applied := LawfulStore.saveLogs_known (σ := Outlet) [] l.outlet sound none found rfl
    refine reports_of_told (informs_of_same (congrArg Outlet.dispatcher applied.state)) ?_
    rw [applied.view]
    rfl

end Ledger

/-! ## The work -/

namespace Work

variable {S : Type} {l after : Ledger S}

theorem dispatcher_confirm (l : Ledger S) (header : Header) :
    (confirm l header).2.outlet.dispatcher = l.outlet.dispatcher := by
  unfold confirm
  split
  · rfl
  · rfl
  · split <;> rfl

theorem dispatcher_afterRecord (l : Ledger S) (header : Header) (state : BlockState) :
    (afterRecord l header state).2.outlet.dispatcher = l.outlet.dispatcher := by
  unfold afterRecord
  split
  · split <;> rfl
  · rfl

theorem observe_ne_failed (l : Ledger S) (header : Header) (e : TrackError) : observe l header ≠ .failed e := by
  rcases observe_cases l header with ⟨work, begun⟩ | crashed
  · simp [begun]
  · simp [crashed]

theorem confirm_ne_failed (l : Ledger S) (header : Header) (e : TrackError) : (confirm l header).1 ≠ .failed e := by
  rcases confirm_cases l header with ⟨work, begun⟩ | crashed
  · simp [begun]
  · simp [crashed]

/-- The events that a step of the work reports, given the stored head of its block. -/
def told (session : Session) (block : Head) : Work → Answer → List Event
  | .saveSeen _ events, _ => events.map (·.mergeWith block)
  | .fetchConfirmed _ _, .logs (.ok logs) => session.events .confirmed logs
  | _, _ => []

variable [BlockStore S] [LawfulStore S] {session : Session} {work : Work} {answer : Answer} {progress : Progress}
  {chain : ServedChain} {number : UInt64} {confirms : Bool} {block : Head}

theorem reports_resume? (same : session.chain = chain.id) (sound : LawfulStore.Sound l.store)
    (carries : (LawfulStore.view l.store).Carries chain) (on : work.IsOn chain number confirms)
    (found : work.isWritten → (LawfulStore.view l.store).headAt? chain.id number = some block)
    (faultless : ¬answer.IsFault) (moved : work.resume? session l answer = some (progress, after)) :
    l.Reports chain.id number (work.told session block answer) after := by
  obtain ⟨header_eq, -, -⟩ := on
  have still : l.Reports chain.id number [] l := Ledger.reports_of_same rfl rfl
  have hash (written : work.isWritten) : (chain.block number).hash = block.hash := (carries (found written)).symm
  have place (state : BlockState) : (Head.ofHeader chain.id (chain.block number) state).number = number :=
    chain.number_eq number
  unfold resume? at moved
  rw [same] at moved
  split at moved
  case h_1 header state fault =>
    cases header_eq
    have reports := Ledger.reports_recordHead sound fault (.ofHeader chain.id (chain.block number) state)
      (chain.bloom_full number)
    rw [place] at reports
    split at moved <;> rename_i recorded <;> rw [recorded] at reports
    · rename_i ledger
      have after_eq : (afterRecord ledger (chain.block number) state).2 = after :=
        congrArg Prod.snd (Option.some.inj moved)
      rw [← after_eq]
      exact reports.same (afterRecord_spec ledger chain number state).2.1 (dispatcher_afterRecord ..)
    · cases moved
      exact reports
  case h_2 e => exact (faultless ⟨e, rfl⟩).elim
  case h_3 => split at moved <;> cases moved <;> exact still
  case h_4 header events fault =>
    cases header_eq
    cases fault with
    | some e => exact (faultless (by simp [Answer.IsFault])).elim
    | none =>
        have reports := Ledger.reports_recordEvents sound (found rfl) events
        rw [← hash rfl] at reports
        split at moved <;> rename_i saved <;> rw [saved] at reports <;> cases moved <;> exact reports
  case h_5 e => exact (faultless ⟨e, rfl⟩).elim
  case h_6 header addresses logs =>
    cases moved
    exact Ledger.reports_of_told (Ledger.informs_events rfl) rfl
  case h_7 header events fault =>
    cases header_eq
    have reports := Ledger.reports_promoteHead sound fault (.ofHeader chain.id (chain.block number) .confirmed)
      (chain.bloom_full number)
    rw [place] at reports
    split at moved <;> rename_i promoted <;> rw [promoted] at reports <;> cases moved <;> exact reports
  case h_8 header events fault =>
    cases header_eq
    cases fault with
    | some e => exact (faultless (by simp [Answer.IsFault])).elim
    | none =>
        have reports := Ledger.reports_keepEvents sound (found rfl) events
        rw [← hash rfl] at reports
        split at moved <;> rename_i saved <;> rw [saved] at reports <;> cases moved <;> exact reports
  case h_9 => cases moved

end Work

/-! ## The run -/

namespace Tracker

variable {S : Type} {t : Tracker S}

def addresses (t : Tracker S) : List String :=
  t.ledger.addresses

theorem dispatcher_settle (run : Nat) (first : FirstBlock) : (t.settle run first).dispatcher = t.dispatcher := by
  unfold settle
  split <;> rfl

theorem dispatcher_putObserving (id : Nat) (session : Session) (live : Header) {progress : Progress}
    (sound : ∀ e, progress ≠ .failed e) : (t.putObserving id session live progress).dispatcher = t.dispatcher := by
  cases progress with
  | waits work => rfl
  | finished =>
      simp only [putObserving, afterLive]
      split <;> rfl
  | failed e => exact (sound e rfl).elim
  | crashed => exact dispatcher_settle session.run .missed

theorem dispatcher_putConfirming (id : Nat) (session : Session) (live : Header) {progress : Progress}
    (sound : ∀ e, progress ≠ .failed e) : (t.putConfirming id session live progress).dispatcher = t.dispatcher := by
  cases progress with
  | waits work => rfl
  | finished => rfl
  | failed e => exact (sound e rfl).elim
  | crashed => exact dispatcher_settle session.run .missed

theorem dispatcher_meetLive (id : Nat) (session : Session) (live : Header) :
    (t.meetLive id session live).dispatcher = t.dispatcher :=
  (dispatcher_putObserving id session live (Work.observe_ne_failed _ live)).trans (dispatcher_settle ..)

theorem dispatcher_sweepFrom (id : Nat) (session : Session) (last number : UInt64) :
    (t.sweepFrom id session last number).dispatcher = t.dispatcher := by
  unfold sweepFrom
  split <;> rfl

theorem dispatcher_putSweeping (id : Nat) (session : Session) (last number : UInt64) {progress : Progress}
    (sound : ∀ e, progress ≠ .failed e) :
    (t.putSweeping id session last number progress).dispatcher = t.dispatcher := by
  cases progress with
  | waits work => rfl
  | finished =>
      simp only [putSweeping]
      split
      · exact dispatcher_sweepFrom ..
      · rfl
  | failed e => exact (sound e rfl).elim
  | crashed => rfl

theorem dispatcher_beginWork (session : Session) (last number : UInt64) (header : Header) :
    (∀ e, (t.beginWork session last number header).1 ≠ .failed e) ∧
      (t.beginWork session last number header).2.outlet.dispatcher = t.dispatcher := by
  unfold beginWork
  split
  · exact ⟨Work.confirm_ne_failed t.ledger header, Work.dispatcher_confirm t.ledger header⟩
  · exact ⟨Work.observe_ne_failed t.ledger header, rfl⟩

/-- The notices of a step of a task are those of its work, if it has any. -/
def Relays [BlockStore S] (t : Tracker S) (task : Task) (answer : Answer) (u : Tracker S) : Prop :=
  match task.work? with
  | none => u.dispatcher = t.dispatcher
  | some (session, work) => ∃ progress ledger,
      work.resume? session t.ledger answer = some (progress, ledger) ∧ u.dispatcher = ledger.outlet.dispatcher

end Tracker

theorem Progress.IsOn.ne_failed {chain : ServedChain} {number : UInt64} {confirms written : Bool} {fault : Prop}
    {progress : Progress} (h : progress.IsOn chain number confirms written fault) (sound : ¬fault) (e : TrackError) :
    progress ≠ .failed e := by
  rintro rfl
  exact sound h

variable {S : Type} [BlockStore S] [LawfulStore S] {o : Outset S} {t u : Tracker S} {m : Mark} {id : Nat}
  {answer : Answer}

namespace RunAt

theorem ne_failed (h : RunAt o False none t m) {task : Task} {session : Session} {work : Work}
    (found : t.tasks[id]? = some task) (under : task.work? = some (session, work)) (honest : answer.IsHonest)
    (faultless : ¬answer.IsFault) {progress : Progress} {ledger : Ledger S}
    (moved : work.resume? session t.ledger answer = some (progress, ledger)) (e : TrackError) :
    progress ≠ .failed e := by
  obtain ⟨same, number, confirms, at_work⟩ := h.isAtWork found under
  obtain ⟨written, -, on⟩ := Work.resume?_spec (congrArg Session.chain same) h.storeAt.sound h.storeAt.carries
    at_work.on at_work.stored honest moved
  exact on.ne_failed faultless e

theorem relays_resumeStart? (h : RunAt o False none t m) {context : Context} {point : StartPoint}
    (found : t.tasks[id]? = some (.starting context point))
    (moved : t.resumeStart? id context point answer = some u) : t.Relays (.starting context point) answer u := by
  obtain ⟨running, -, met, -⟩ := h.faultFree not_false
  rcases h.tasks (by simp) found with ⟨-, -, -, stands⟩
  unfold Tracker.resumeStart? at moved
  split at moved
  case h_1 => split at moved <;> cases moved <;> rfl
  case h_2 =>
    cases moved
    rfl
  case h_3 =>
    cases moved
    rfl
  case h_4 =>
    split at moved <;> cases moved
    · rfl
    · unfold Tracker.launch
      split <;> rfl
  case h_5 session lowest =>
    rcases stands with ⟨rfl, -⟩
    split at moved
    · cases moved
      unfold Tracker.launchSweep
      split <;> rfl
    · rename_i missed
      exact (met missed).elim
    · split at moved <;> cases moved
      rename_i ceased
      exact (Bool.false_ne_true (running.symm.trans ceased)).elim
  case h_6 => exact stands.elim
  case h_7 => cases moved

theorem relays_resumeWatch? (h : RunAt o False none t m) {session : Session} {point : WatchPoint}
    (found : t.tasks[id]? = some (.watching session point)) (serves : o.Serves t id answer)
    (faultless : ¬answer.IsFault) (moved : t.resumeWatch? id session point answer = some u) :
    t.Relays (.watching session point) answer u := by
  obtain ⟨running, -, -, -⟩ := h.faultFree not_false
  obtain ⟨-, same, stands⟩ := h.tasks (by simp) found
  unfold Tracker.resumeWatch? at moved
  split at moved
  case h_1 =>
    cases moved
    rfl
  case h_2 e => exact (faultless ⟨e, rfl⟩).elim
  case h_3 =>
    cases moved
    rfl
  case h_4 =>
    split at moved <;> cases moved
    rename_i ceased
    rw [same] at ceased
    exact (Bool.false_ne_true (running.symm.trans ceased)).elim
  case h_5 item =>
    split at moved
    · cases moved
    · split at moved <;> cases moved
      · exact Tracker.dispatcher_meetLive ..
      · exact (faultless (by simp [Answer.IsFault])).elim
      · exact (faultless (by simp [Answer.IsFault])).elim
  case h_6 live work =>
    rcases Option.map_eq_some_iff.mp moved with ⟨⟨progress, ledger⟩, worked, rfl⟩
    have sound := h.ne_failed found rfl serves.isHonest faultless worked
    exact ⟨progress, ledger, worked, Tracker.dispatcher_putObserving (t := { t with ledger }) id session live sound⟩
  case h_7 e => exact (faultless ⟨e, rfl⟩).elim
  case h_8 live target =>
    have sound := Work.confirm_ne_failed t.ledger target
    cases moved
    exact (Tracker.dispatcher_putConfirming (t := { t with ledger := _ }) id session live sound).trans
      (Work.dispatcher_confirm t.ledger target)
  case h_9 live work =>
    rcases Option.map_eq_some_iff.mp moved with ⟨⟨progress, ledger⟩, worked, rfl⟩
    have sound := h.ne_failed found rfl serves.isHonest faultless worked
    exact ⟨progress, ledger, worked, Tracker.dispatcher_putConfirming (t := { t with ledger }) id session live sound⟩
  case h_10 => cases moved

theorem relays_resumeSweep? (h : RunAt o False none t m) {session : Session} {last : UInt64}
    {point : SweepPoint} (found : t.tasks[id]? = some (.sweeping session last point)) (serves : o.Serves t id answer)
    (faultless : ¬answer.IsFault) (moved : t.resumeSweep? id session last point answer = some u) :
    t.Relays (.sweeping session last point) answer u := by
  unfold Tracker.resumeSweep? at moved
  split at moved
  case h_1 =>
    cases moved
    change (t.beginSweep id session last _).dispatcher = t.dispatcher
    unfold Tracker.beginSweep
    split
    · rfl
    · exact Tracker.dispatcher_sweepFrom ..
  case h_2 e => exact (faultless ⟨e, rfl⟩).elim
  case h_3 number header =>
    obtain ⟨sound, kept⟩ := Tracker.dispatcher_beginWork (t := t) session last number header
    cases moved
    exact (Tracker.dispatcher_putSweeping (t := { t with ledger := _ }) id session last number sound).trans kept
  case h_4 number work =>
    rcases Option.map_eq_some_iff.mp moved with ⟨⟨progress, ledger⟩, worked, rfl⟩
    have sound := h.ne_failed found rfl serves.isHonest faultless worked
    exact ⟨progress, ledger, worked,
      Tracker.dispatcher_putSweeping (t := { t with ledger }) id session last number sound⟩
  case h_5 => cases moved

/-- In a run without failures every resumed task satisfies `Relays`. -/
theorem relays_resume? (h : RunAt o False none t m) (allowed : o.Allows False t (.resume id answer)) {task : Task}
    (found : t.tasks[id]? = some task) (moved : t.resume? id answer = some u) : t.Relays task answer u := by
  obtain ⟨serves, faultless⟩ := allowed
  unfold Tracker.resume? at moved
  rw [found] at moved
  split at moved
  · rename_i same
    cases same
    exact h.relays_resumeStart? found moved
  · rename_i same
    cases same
    exact (show False from h.tasks (by simp) found).elim
  · rename_i same
    cases same
    exact h.relays_resumeWatch? found serves faultless moved
  · rename_i same
    cases same
    exact h.relays_resumeSweep? found serves faultless moved
  · cases moved

/-- Work that has put its block in place finds it stored. -/
theorem exists_block (h : RunAt o False none t m) {task : Task} {session : Session} {work : Work}
    (found : t.tasks[id]? = some task) (under : task.work? = some (session, work)) : ∃ block, work.isWritten →
      (LawfulStore.view t.ledger.store).headAt? o.chain.id work.header.number = some block := by
  obtain ⟨-, number, confirms, at_work⟩ := h.isAtWork found under
  have place : work.header.number = number := at_work.on.header_eq ▸ o.chain.number_eq number
  by_cases written : work.isWritten
  · obtain ⟨block, stored⟩ := Option.isSome_iff_exists.mp (at_work.stored written)
    exact ⟨block, fun _ => place ▸ stored⟩
  · exact ⟨default, fun h => (written h).elim⟩

/-- A step of the work reports on its own block only. -/
theorem reports_resume? (h : RunAt o False none t m) {task : Task} {session : Session} {work : Work}
    (found : t.tasks[id]? = some task) (under : task.work? = some (session, work)) (faultless : ¬answer.IsFault)
    {progress : Progress} {ledger : Ledger S} (worked : work.resume? session t.ledger answer = some (progress, ledger))
    {block : Head}
    (known : work.isWritten → (LawfulStore.view t.ledger.store).headAt? o.chain.id work.header.number = some block) :
    t.ledger.Reports o.chain.id work.header.number (work.told session block answer) ledger := by
  obtain ⟨same, number, confirms, at_work⟩ := h.isAtWork found under
  have place : work.header.number = number := at_work.on.header_eq ▸ o.chain.number_eq number
  subst place
  exact Work.reports_resume? (congrArg Session.chain same) h.storeAt.sound h.storeAt.carries at_work.on known faultless
    worked

theorem addresses_resume? (h : RunAt o False none t m) (allowed : o.Allows False t (.resume id answer))
    (moved : t.resume? id answer = some u) : u.addresses = t.addresses := by
  obtain ⟨task, found, -⟩ := Tracker.takesStep_resume? moved
  have relays := h.relays_resume? allowed found moved
  unfold Tracker.Relays at relays
  split at relays
  · exact congrArg Dispatcher.addresses relays
  · rename_i session work under
    obtain ⟨progress, ledger, worked, same⟩ := relays
    obtain ⟨block, known⟩ := h.exists_block found under
    have reports := h.reports_resume? found under allowed.2 worked known
    exact (congrArg Dispatcher.addresses same).trans reports.informs.addresses

end RunAt

end Chainwatch
