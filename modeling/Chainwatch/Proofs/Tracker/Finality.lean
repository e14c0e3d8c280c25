import Chainwatch.Proofs.Store.Monotone
import Chainwatch.Proofs.Tracker.Handover
import Chainwatch.Proofs.Tracker.TaskSteps

/-!
# No block is confirmed early

The watch confirms a block when a live one is at least the threshold above it. The backfill confirms a
block by the last one before the first live block, so that it too was made final by a live block. Where
the node answers with the requested blocks, nothing else is stored or reported as confirmed, whatever the
live blocks are and wherever a run is broken off.
-/

namespace Chainwatch

open BlockStore (HoldsConfirmed)

/-- Some live block that was taken makes this one final. -/
def MadeFinal (signals : List Signal) (threshold number : UInt64) : Prop :=
  ∃ run live, Signal.live run live ∈ signals ∧ number.toNat + threshold.toNat ≤ live.toNat

/-- Some live block beyond this one was taken. -/
def HasPassed (signals : List Signal) (last : UInt64) : Prop :=
  ∃ run live, Signal.live run live ∈ signals ∧ last.toNat < live.toNat

section Grows

variable {signals more : List Signal} {threshold number last : UInt64}

theorem MadeFinal.grows (h : MadeFinal signals threshold number) (kept : signals ⊆ more) :
    MadeFinal more threshold number := by
  obtain ⟨run, live, told, high⟩ := h
  exact ⟨run, live, kept told, high⟩

theorem HasPassed.grows (h : HasPassed signals last) (kept : signals ⊆ more) : HasPassed more last := by
  obtain ⟨run, live, told, high⟩ := h
  exact ⟨run, live, kept told, high⟩

theorem HasPassed.madeFinal (h : HasPassed signals last) {session : Session}
    (settled : Tracker.isSettledBy session last number) : MadeFinal signals session.threshold number := by
  obtain ⟨run, live, told, high⟩ := h
  refine ⟨run, live, told, ?_⟩
  have below := (Tracker.isSettledBy_iff_le session last number).mp settled
  omega

end Grows

/-- A notice of a confirmed block is about a final one. -/
def Signal.IsTimely (signals : List Signal) (threshold : UInt64) : Signal → Prop
  | .head told => told.state = .confirmed → MadeFinal signals threshold told.number
  | .event told => told.state = .confirmed → MadeFinal signals threshold told.blockNumber
  | _ => True

theorem Signal.IsTimely.grows {signals more : List Signal} {threshold : UInt64} {signal : Signal}
    (h : signal.IsTimely signals threshold) (kept : signals ⊆ more) : signal.IsTimely more threshold := by
  cases signal with
  | head told => exact fun confirmed => (h confirmed).grows kept
  | event told => exact fun confirmed => (h confirmed).grows kept
  | _ => trivial

theorem Signal.isTimely_of_isPlain {signals : List Signal} {threshold : UInt64} {signal : Signal}
    (plain : signal.isPlain) : signal.IsTimely signals threshold := by
  cases signal with
  | head told => cases plain
  | event told => cases plain
  | _ => trivial

variable {chain threshold : UInt64}

namespace Ledger

variable {S : Type} [BlockStore S] [MonotoneStore S] {l mid after : Ledger S}

/-- Only final blocks of the chain are confirmed. -/
structure ConfirmsFinal (chain threshold : UInt64) (l : Ledger S) : Prop where
  sound : MonotoneStore.Sound l.store
  stored : ∀ {number : UInt64}, HoldsConfirmed l.store chain number → MadeFinal l.outlet.signals threshold number
  told : ∀ s ∈ l.outlet.signals, s.IsTimely l.outlet.signals threshold

/-- One ledger extends another and confirms only final blocks. -/
structure AddsFinal (chain threshold : UInt64) (l after : Ledger S) : Prop where
  confirmsFinal : after.ConfirmsFinal chain threshold
  kept : l.outlet.signals ⊆ after.outlet.signals

theorem ConfirmsFinal.refl (h : l.ConfirmsFinal chain threshold) : l.AddsFinal chain threshold l :=
  ⟨h, fun _ mem => mem⟩

theorem ConfirmsFinal.grows (h : l.ConfirmsFinal chain threshold) (told : List Signal)
    (sound : MonotoneStore.Sound after.store) (signals : after.outlet.signals = l.outlet.signals ++ told)
    (stored : ∀ {number : UInt64}, HoldsConfirmed after.store chain number →
      HoldsConfirmed l.store chain number ∨ MadeFinal l.outlet.signals threshold number)
    (timely : ∀ s ∈ told, s.IsTimely l.outlet.signals threshold) : l.AddsFinal chain threshold after := by
  have kept : l.outlet.signals ⊆ after.outlet.signals := signals ▸ List.subset_append_left _ _
  refine ⟨⟨sound, ?_, ?_⟩, kept⟩
  · intro number confirmed
    rcases stored confirmed with before | final
    · exact (h.stored before).grows kept
    · exact final.grows kept
  · intro s mem
    rw [signals] at mem
    rcases List.mem_append.mp mem with old | new
    · exact (h.told s old).grows kept
    · exact (timely s new).grows kept

theorem Quiet.addsFinal (quiet : l.Quiet after) (h : l.ConfirmsFinal chain threshold) :
    l.AddsFinal chain threshold after := by
  obtain ⟨told, signals, plain⟩ := quiet.signals
  refine h.grows told (quiet.store ▸ h.sound) signals (fun confirmed => Or.inl (quiet.store ▸ confirmed)) ?_
  exact fun s mem => Signal.isTimely_of_isPlain (plain s mem)

theorem AddsFinal.trans (h : l.AddsFinal chain threshold mid) (g : mid.AddsFinal chain threshold after) :
    l.AddsFinal chain threshold after :=
  ⟨g.confirmsFinal, List.Subset.trans h.kept g.kept⟩

theorem addsFinal_write {α : Type} {operation : S → Outlet → Written S Outlet α} (h : l.ConfirmsFinal chain threshold)
    (fault : Option TrackError)
    (written : l.AddsFinal chain threshold
      ⟨(operation l.store l.outlet).store, (operation l.store l.outlet).state⟩) :
    l.AddsFinal chain threshold (l.write fault operation).2 := by
  cases fault with
  | none => exact written
  | some e => exact h.refl

theorem addsFinal_of_refused {α : Type} {written : Written S Outlet α} (h : l.ConfirmsFinal chain threshold)
    (refused : Refused l.store l.outlet written) :
    l.AddsFinal chain threshold ⟨written.store, written.state⟩ := by
  have same : (⟨written.store, written.state⟩ : Ledger S) = l := by rw [refused.store, refused.state]
  rw [same]
  exact h.refl

theorem addsFinal_of_placed {stored shown : Head} {written : Written S Outlet Head}
    (h : l.ConfirmsFinal chain threshold)
    (placed : Placed MonotoneStore.Sound l.store (.ok (), l.outlet.tellHead shown) stored written)
    (put : stored.state = .confirmed → MadeFinal l.outlet.signals threshold stored.number)
    (told : shown.state = .confirmed → MadeFinal l.outlet.signals threshold shown.number) :
    l.AddsFinal chain threshold ⟨written.store, written.state⟩ := by
  refine h.grows [.head shown] placed.sound (congrArg Outlet.signals placed.state) ?_ ?_
  · intro number confirmed
    rcases placed.confirmed confirmed with before | ⟨-, rfl, state⟩
    · exact Or.inl before
    · exact Or.inr (put state)
  · intro s mem
    rw [List.mem_singleton.mp mem]
    exact told

theorem addsFinal_recordHead (h : l.ConfirmsFinal chain threshold) (fault : Option TrackError) {head : Head}
    (unconfirmed : head.state ≠ .confirmed) : l.AddsFinal chain threshold (l.recordHead fault head).2 := by
  apply addsFinal_write h
  rcases MonotoneStore.createHead_cases head
    [fun stored outlet => (.ok (), Outlet.tellHead outlet (stored.withState .seen))] l.outlet h.sound with
    refused | ⟨-, placed⟩
  · exact addsFinal_of_refused h refused
  · refine addsFinal_of_placed h placed (fun confirmed => (unconfirmed confirmed).elim) ?_
    intro confirmed
    cases confirmed

theorem addsFinal_promoteHead (h : l.ConfirmsFinal chain threshold) (fault : Option TrackError) {head : Head}
    (final : MadeFinal l.outlet.signals threshold head.number) :
    l.AddsFinal chain threshold (l.promoteHead fault head).2 := by
  apply addsFinal_write h
  rcases MonotoneStore.upsertHead_cases head [fun stored outlet => (.ok (), Outlet.tellHead outlet stored)]
    l.outlet h.sound with refused | ⟨stored, -, number_eq, -, placed⟩
  · exact addsFinal_of_refused h refused
  · exact addsFinal_of_placed h placed (fun _ => number_eq ▸ final) fun _ => number_eq ▸ final

theorem addsFinal_tellEvents (h : l.ConfirmsFinal chain threshold) {events : List Event}
    (final : ∀ event ∈ events, MadeFinal l.outlet.signals threshold event.blockNumber) :
    l.AddsFinal chain threshold { l with outlet := l.outlet.tellEvents events } := by
  refine h.grows (events.map .event) h.sound rfl Or.inl ?_
  intro s mem
  obtain ⟨event, told, rfl⟩ := List.mem_map.mp mem
  exact fun _ => final event told

theorem addsFinal_recordEvents (h : l.ConfirmsFinal chain threshold) (fault : Option TrackError) (hash : String)
    (events : List Event) : l.AddsFinal chain threshold (l.recordEvents fault chain hash events).2 := by
  apply addsFinal_write h
  obtain ⟨logged, same | ⟨block, -, confirmed, hooked⟩⟩ := MonotoneStore.saveLogs_cases chain hash events
    [fun stored outlet => (.ok (), Outlet.tellEvents outlet stored)] l.outlet h.sound
  · refine h.grows [] logged.sound (by simp [same]) (fun confirmed => Or.inl (logged.confirmed confirmed)) ?_
    simp
  · refine h.grows _ logged.sound (congrArg Outlet.signals hooked)
      (fun confirmed => Or.inl (logged.confirmed confirmed)) ?_
    intro s mem
    obtain ⟨saved, merged, rfl⟩ := List.mem_map.mp mem
    obtain ⟨event, -, rfl⟩ := List.mem_map.mp merged
    exact fun state => h.stored (confirmed state)

theorem addsFinal_keepEvents (h : l.ConfirmsFinal chain threshold) (fault : Option TrackError) (hash : String)
    (events : List Event) : l.AddsFinal chain threshold (l.keepEvents fault chain hash events).2 := by
  apply addsFinal_write h
  obtain ⟨logged, same⟩ := MonotoneStore.saveLogs_cases chain hash events [] l.outlet h.sound
  have silent : (BlockStore.saveLogs l.store chain hash events [] l.outlet).state = l.outlet := by
    rcases same with same | ⟨block, -, -, hooked⟩
    · exact same
    · exact hooked
  refine h.grows [] logged.sound (by simp [silent]) (fun confirmed => Or.inl (logged.confirmed confirmed)) ?_
  simp

end Ledger

/-! ## The work on one block -/

namespace Work

/-- Work that confirms its block is on a final one. -/
structure ConfirmsFinal (signals : List Signal) (threshold : UInt64) (work : Work) : Prop where
  final : work.confirms → MadeFinal signals threshold work.header.number
  unconfirmed : ∀ {header : Header} {state : BlockState}, work = .record header state → state ≠ .confirmed

variable {S : Type} {signals more : List Signal} {work after : Work} {l mid : Ledger S} {session : Session}
  {answer : Answer}

theorem ConfirmsFinal.grows (h : work.ConfirmsFinal signals threshold) (kept : signals ⊆ more) :
    work.ConfirmsFinal more threshold :=
  ⟨fun confirms => (h.final confirms).grows kept, h.unconfirmed⟩

theorem confirmsFinal_of_observe {header : Header} (begun : observe l header = .waits work) :
    work.ConfirmsFinal signals threshold := by
  unfold observe at begun
  split at begun
  · cases begun
  · rename_i held _
    cases begun
    refine ⟨(fun confirms => by cases confirms), ?_⟩
    intro header state same
    cases same
    cases held <;> simp

theorem confirmsFinal_of_confirm {header : Header} (begun : confirm l header = (.waits work, mid))
    (final : MadeFinal signals threshold header.number) : work.ConfirmsFinal signals threshold := by
  unfold confirm tellConfirmed at begun
  split at begun
  · cases begun
  · cases begun
    exact ⟨fun _ => final, by simp⟩
  · split at begun
    · cases begun
      exact ⟨fun _ => final, by simp⟩
    · cases begun
      exact ⟨fun _ => final, by simp⟩

variable [BlockStore S]

theorem ConfirmsFinal.next (h : work.ConfirmsFinal signals threshold)
    (moved : work.resume? session l answer = some (.waits after, mid)) : after.ConfirmsFinal signals threshold := by
  obtain ⟨header_eq, confirms_eq, recorded⟩ := resume?_waits moved
  refine ⟨?_, fun same => (recorded _ _ same).elim⟩
  rw [confirms_eq, header_eq]
  exact h.final

variable [MonotoneStore S]

/-- A step of the work confirms final blocks only, if the logs are those of the requested block. -/
theorem LedgerEffect.addsFinal (h : work.LedgerEffect session l answer mid) (named : session.chain = chain)
    (ledger : l.ConfirmsFinal chain threshold) (confirmsFinal : work.ConfirmsFinal l.outlet.signals threshold)
    (served : ∀ logs addresses number, answer = .logs (.ok logs) →
      work.wait = .node (.logs addresses number number) → ∀ log ∈ logs, log.blockNumber = number) :
    l.AddsFinal chain threshold mid := by
  subst named
  cases h with
  | @record header state fault _ quiet =>
      have unconfirmed : (Head.ofHeader session.chain header state).state ≠ .confirmed := confirmsFinal.unconfirmed rfl
      have recorded := Ledger.addsFinal_recordHead ledger fault unconfirmed
      exact recorded.trans (quiet.addsFinal recorded.confirmsFinal)
  | @tell header addresses logs =>
      apply Ledger.addsFinal_tellEvents ledger
      intro event mem
      obtain ⟨log, kept, rfl⟩ := List.mem_map.mp mem
      have number := served logs addresses header.number rfl rfl log (List.mem_filter.mp kept).1
      exact (show (Event.ofLog _ _ log).blockNumber = header.number from number) ▸ confirmsFinal.final rfl
  | saveSeen => exact Ledger.addsFinal_recordEvents ledger _ _ _
  | promote => exact Ledger.addsFinal_promoteHead ledger _ (confirmsFinal.final rfl)
  | saveConfirmed => exact Ledger.addsFinal_keepEvents ledger _ _ _
  | nothing => exact ledger.refl

end Work

/-! ## Runs -/

structure Session.IsOf (session : Session) (chain threshold : UInt64) : Prop where
  chain_eq : session.chain = chain
  threshold_eq : session.threshold = threshold

def WatchPoint.ConfirmsFinal (signals : List Signal) (threshold : UInt64) : WatchPoint → Prop
  | .observing live work => (∃ run, .live run live.number ∈ signals) ∧ work.ConfirmsFinal signals threshold
  | .fetchingTarget live => (∃ run, .live run live.number ∈ signals) ∧ threshold ≤ live.number
  | .confirming _ work => work.ConfirmsFinal signals threshold
  | _ => True

def SweepPoint.ConfirmsFinal (signals : List Signal) (threshold last : UInt64) : SweepPoint → Prop
  | .launched _ => last ≠ 0 → HasPassed signals last
  | .fetching _ => HasPassed signals last
  | .working _ work => HasPassed signals last ∧ work.ConfirmsFinal signals threshold

/-- A task of the chain that will confirm final blocks only. -/
def Task.ConfirmsFinal (signals : List Signal) (chain threshold : UInt64) : Task → Prop
  | .starting _ (.readingHeight named) => named = chain
  | .starting _ (.awaitingFirst session _) => session.IsOf chain threshold
  | .watching session point => session.IsOf chain threshold ∧ point.ConfirmsFinal signals threshold
  | .sweeping session last point => session.IsOf chain threshold ∧ point.ConfirmsFinal signals threshold last
  | _ => True

theorem Task.ConfirmsFinal.grows {signals more : List Signal} {task : Task}
    (h : task.ConfirmsFinal signals chain threshold)
    (kept : signals ⊆ more) : task.ConfirmsFinal more chain threshold := by
  cases task with
  | starting context point => cases point <;> exact h
  | watching session point =>
      refine ⟨h.1, ?_⟩
      cases point with
      | observing live work => exact ⟨h.2.1.imp fun _ told => kept told, h.2.2.grows kept⟩
      | fetchingTarget live => exact ⟨h.2.1.imp fun _ told => kept told, h.2.2⟩
      | confirming live work => exact h.2.grows kept
      | _ => trivial
  | sweeping session last point =>
      refine ⟨h.1, ?_⟩
      cases point with
      | launched lowest => exact fun some => (h.2 some).grows kept
      | fetching number => exact h.2.grows kept
      | working number work => exact ⟨h.2.1.grows kept, h.2.2.grows kept⟩
  | _ => trivial

theorem Task.ConfirmsFinal.work {signals : List Signal} {task : Task} (h : task.ConfirmsFinal signals chain threshold)
    {session : Session} {work : Work} (under : task.work? = some (session, work)) :
    session.IsOf chain threshold ∧ work.ConfirmsFinal signals threshold := by
  cases task with
  | watching run point =>
      cases point with
      | observing live on =>
          cases under
          exact ⟨h.1, h.2.2⟩
      | confirming live on =>
          cases under
          exact h
      | _ => cases under
  | sweeping run last point =>
      cases point with
      | working number on =>
          cases under
          exact ⟨h.1, h.2.2⟩
      | _ => cases under
  | _ => cases under

theorem Task.confirmsFinal_of_isRetired {signals : List Signal} {task : Task} (h : task.isRetired) :
    task.ConfirmsFinal signals chain threshold := by
  cases task with
  | starting context point => cases point <;> trivial
  | watching session point => cases h
  | sweeping session last point => cases h
  | _ => trivial

theorem Task.confirmsFinal_of_isCalled {signals : List Signal} {task : Task} (h : task.isCalled) :
    task.ConfirmsFinal signals chain threshold := by
  cases task with
  | starting context point => cases point <;> trivial
  | watching session point => cases h
  | sweeping session last point => cases h
  | _ => trivial

namespace Tracker

variable {S : Type} {t u : Tracker S} {id : Nat} {task : Task} {answer : Answer} {mid : Ledger S}

/-- The node names the chain and answers with the requested block and its logs. -/
def IsServed (chain : UInt64) (t : Tracker S) : Move → Prop
  | .resume _ (.chain (.ok named)) => named = chain
  | .resume id (.header (.ok header)) => ∀ number, t.wait? id = some (.node (.header number)) → header.number = number
  | .resume id (.logs (.ok logs)) => ∀ addresses number,
      t.wait? id = some (.node (.logs addresses number number)) → ∀ log ∈ logs, log.blockNumber = number
  | _ => True

/-- Whether the node answers with what was requested. -/
def isServed (chain : UInt64) (t : Tracker S) : Move → Bool
  | .resume _ (.chain (.ok named)) => named == chain
  | .resume id (.header (.ok header)) =>
      match t.wait? id with
      | some (.node (.header number)) => header.number == number
      | _ => true
  | .resume id (.logs (.ok logs)) =>
      match t.wait? id with
      | some (.node (.logs _ number _)) => logs.all (·.blockNumber == number)
      | _ => true
  | _ => true

theorem isServed_of_isServed {m : Move} (h : t.isServed chain m) : t.IsServed chain m := by
  cases m with
  | resume id answer =>
      cases answer with
      | chain outcome =>
          cases outcome with
          | ok named => exact beq_iff_eq.mp h
          | error e => trivial
      | header outcome =>
          cases outcome with
          | ok header =>
              intro number asked
              simpa [isServed, asked] using h
          | error e => trivial
      | logs outcome =>
          cases outcome with
          | ok logs =>
              intro addresses number asked
              simpa [isServed, asked] using h
          | error e => trivial
      | _ => trivial
  | _ => trivial

variable [BlockStore S] [MonotoneStore S]

/-- Confirmed blocks are final, and so are those that tasks will confirm. -/
structure ConfirmsFinal (chain threshold : UInt64) (t : Tracker S) : Prop where
  ledger : t.ledger.ConfirmsFinal chain threshold
  settings : t.settings.threshold chain = threshold
  first : ∀ {run : Nat} {number : UInt64}, t.first run = .arrived number →
    .live run number ∈ t.ledger.outlet.signals
  tasks : ∀ {i : Nat} {task : Task}, t.tasks[i]? = some task →
    task.ConfirmsFinal t.ledger.outlet.signals chain threshold

/-- The effect of a step: its confirmations, and those that its task or a launched loop will make, are
of final blocks. -/
structure FinalStep (chain threshold : UInt64) (t : Tracker S) (mid : Ledger S) (next : Task) (new : List Task) :
    Prop where
  ledger : t.ledger.AddsFinal chain threshold mid
  next : next.ConfirmsFinal mid.outlet.signals chain threshold
  new : ∀ launched ∈ new, launched.ConfirmsFinal mid.outlet.signals chain threshold

variable {next : Task} {new : List Task}

theorem TaskStep.addsFinal (turn : t.TaskStep task answer mid next new) (h : t.ConfirmsFinal chain threshold)
    (found : t.tasks[id]? = some task) (served : IsServed chain t (.resume id answer)) :
    t.ledger.AddsFinal chain threshold mid := by
  rcases turn.ledger_cases with ⟨session, work, progress, under, moved⟩ | quiet | ⟨run, number, rfl⟩
  · obtain ⟨of, on⟩ := (h.tasks found).work under
    refine (Work.ledgerEffect_of_resume? moved).addsFinal of.chain_eq h.ledger on ?_
    intro logs addresses number same asked
    subst same
    refine served addresses number ?_
    rw [wait?_of_work? found under, asked]
  · exact quiet.addsFinal h.ledger
  · exact h.ledger.grows [.live run number] h.ledger.sound rfl Or.inl (by simp [Signal.IsTimely])

theorem TaskStep.next_confirmsFinal (turn : t.TaskStep task answer mid next new) (h : t.ConfirmsFinal chain threshold)
    (found : t.tasks[id]? = some task) (served : IsServed chain t (.resume id answer)) :
    next.ConfirmsFinal mid.outlet.signals chain threshold := by
  have ledger := turn.addsFinal h found served
  have confirmsFinal := h.tasks found
  have goes {session : Session} {work after : Work} (under : task.work? = some (session, work))
      (moved : work.resume? session t.ledger answer = some (.waits after, mid)) :
      after.ConfirmsFinal mid.outlet.signals threshold :=
    ((confirmsFinal.work under).2.next moved).grows ledger.kept
  cases turn with
  | rest _ retired => exact Task.confirmsFinal_of_isRetired retired
  | retire _ _ _ retired => exact Task.confirmsFinal_of_isRetired retired
  | ask => trivial
  | name => exact served
  | launch =>
      have same : _ = chain := confirmsFinal
      exact ⟨same, same ▸ h.settings⟩
  | launchSweep => trivial
  | subscribe => exact ⟨confirmsFinal.1, trivial⟩
  | listen => exact ⟨confirmsFinal.1, trivial⟩
  | @meet session live work begun =>
      refine ⟨confirmsFinal.1, ⟨session.run, ?_⟩, Work.confirmsFinal_of_observe begun⟩
      exact List.mem_append_right _ (List.mem_singleton_self _)
  | fall => trivial
  | observe moved => exact ⟨confirmsFinal.1, confirmsFinal.2.1.imp fun _ told => ledger.kept told, goes rfl moved⟩
  | target moved final =>
      exact ⟨confirmsFinal.1, confirmsFinal.2.1.imp fun _ told => ledger.kept told,
        confirmsFinal.1.threshold_eq ▸ final⟩
  | pass => exact ⟨confirmsFinal.1, trivial⟩
  | @confirm session live target work mid begun =>
      obtain ⟨of, ⟨run, told⟩, low⟩ := confirmsFinal
      have low := UInt64.le_iff_toNat_le.mp low
      have number := served (live.number - session.threshold) (by rw [wait?, found]; rfl)
      have final : MadeFinal t.ledger.outlet.signals threshold target.number := by
        refine ⟨run, live.number, told, ?_⟩
        rw [number, of.threshold_eq, UInt64.toNat_sub_of_le _ _ (UInt64.le_iff_toNat_le.mpr low)]
        omega
      exact ⟨of, (Work.confirmsFinal_of_confirm begun final).grows ledger.kept⟩
  | promote moved => exact ⟨confirmsFinal.1, goes rfl moved⟩
  | confirmed => exact ⟨confirmsFinal.1, trivial⟩
  | sweep some => exact ⟨confirmsFinal.1, confirmsFinal.2 some⟩
  | @begin session last number header work mid begun =>
      obtain ⟨of, passed⟩ := confirmsFinal
      have number_eq := served number (by rw [wait?, found]; rfl)
      refine ⟨of, passed.grows ledger.kept, Work.ConfirmsFinal.grows ?_ ledger.kept⟩
      -- a block is confirmed in the backfill only if the live blocks have got beyond it by the threshold
      unfold beginWork at begun
      split at begun
      · rename_i settled
        refine Work.confirmsFinal_of_confirm begun ?_
        rw [number_eq, ← of.threshold_eq]
        exact HasPassed.madeFinal passed settled
      · exact Work.confirmsFinal_of_observe (congrArg Prod.fst begun)
  | work moved => exact ⟨confirmsFinal.1, confirmsFinal.2.1.grows ledger.kept, goes rfl moved⟩
  | next => exact ⟨confirmsFinal.1, confirmsFinal.2.1.grows ledger.kept⟩

theorem TaskStep.launched_confirmsFinal (turn : t.TaskStep task answer mid next new)
    (h : t.ConfirmsFinal chain threshold)
    (found : t.tasks[id]? = some task) :
    ∀ launched ∈ new, launched.ConfirmsFinal mid.outlet.signals chain threshold := by
  have confirmsFinal := h.tasks found
  intro launched mem
  cases turn with
  | launch =>
      have same : _ = chain := confirmsFinal
      rw [List.mem_singleton.mp mem]
      exact ⟨⟨same, same ▸ h.settings⟩, trivial⟩
  | @launchSweep session context lowest first arrived =>
      rw [List.mem_singleton.mp mem]
      refine ⟨confirmsFinal, ?_⟩
      intro some
      -- the backfill ends before a live block that was taken up
      have below := lastBefore_toNat first
      have positive : (lastBefore first).toNat ≠ 0 := fun zero => some (UInt64.toNat_inj.mp zero)
      exact ⟨session.run, first, h.first arrived, by omega⟩
  | _ => cases mem

/-- Every step of a task is a `FinalStep`. -/
theorem TaskStep.finalStep (turn : t.TaskStep task answer mid next new) (h : t.ConfirmsFinal chain threshold)
    (found : t.tasks[id]? = some task) (served : IsServed chain t (.resume id answer)) :
    t.FinalStep chain threshold mid next new :=
  ⟨turn.addsFinal h found served, turn.next_confirmsFinal h found served, turn.launched_confirmsFinal h found⟩

theorem ConfirmsFinal.stepsTo (h : t.ConfirmsFinal chain threshold) (stepsTo : t.StepsTo id mid next new u)
    (finalStep : t.FinalStep chain threshold mid next new) : u.ConfirmsFinal chain threshold := by
  have after := stepsTo.quiet.addsFinal finalStep.ledger.confirmsFinal
  have kept := List.Subset.trans finalStep.ledger.kept after.kept
  refine ⟨after.confirmsFinal, stepsTo.settings ▸ h.settings, ?_, ?_⟩
  · intro run number arrived
    exact (stepsTo.first arrived).elim (fun before => kept (h.first before)) fun told => told
  · intro i other here
    rcases stepsTo.cases here with ⟨-, rfl⟩ | ⟨-, old⟩ | launched | ⟨point, rfl⟩
    · exact finalStep.next.grows after.kept
    · exact (h.tasks old).grows kept
    · exact (finalStep.new other launched).grows after.kept
    · trivial

/-- Spawning tasks confirms nothing. -/
theorem ConfirmsFinal.spawnsTasks (h : t.ConfirmsFinal chain threshold) (spawnsTasks : t.SpawnsTasks t.ledger new u)
    (called : ∀ task ∈ new, task.isCalled) : u.ConfirmsFinal chain threshold := by
  obtain ⟨after, kept⟩ := spawnsTasks.quiet.addsFinal h.ledger
  obtain ⟨behind, tasks⟩ := spawnsTasks.tasks
  refine ⟨after, spawnsTasks.settings ▸ h.settings, ?_, ?_⟩
  · intro run number arrived
    exact (spawnsTasks.first arrived).elim (fun before => kept (h.first before)) fun told => told
  · intro i other here
    rw [tasks, List.append_assoc] at here
    rcases List.mem_append.mp (List.mem_of_getElem? here) with old | added
    · obtain ⟨j, found⟩ := List.mem_iff_getElem?.mp old
      exact (h.tasks found).grows kept
    · rcases List.mem_append.mp added with launched | left_behind
      · exact Task.confirmsFinal_of_isCalled (called other launched)
      · obtain ⟨point, -, rfl⟩ := List.mem_map.mp left_behind
        trivial

theorem ConfirmsFinal.move? (h : t.ConfirmsFinal chain threshold) {m : Move} (served : IsServed chain t m)
    (moved : t.move? m = some u) : u.ConfirmsFinal chain threshold := by
  rcases takesStep_or_spawnsTasks_of_move? moved with
    ⟨id, answer, task, rfl, found, mid, next, new, turn, stepsTo⟩ | ⟨new, spawnsTasks, called⟩
  · exact h.stepsTo stepsTo (turn.finalStep h found served)
  · exact h.spawnsTasks spawnsTasks called

/-- A fresh tracker has no work. -/
theorem ConfirmsFinal.reopen (h : t.ConfirmsFinal chain threshold) {settings : TrackerSettings}
    (fixed : settings.threshold chain = threshold) : (t.reopen settings).ConfirmsFinal chain threshold := by
  have quiet : t.ledger.Quiet (t.reopen settings).ledger := ⟨rfl, [], by simp [Tracker.reopen], by simp⟩
  refine ⟨(quiet.addsFinal h.ledger).confirmsFinal, fixed, ?_, ?_⟩
  · intro run number arrived
    cases arrived
  · intro i task found
    cases found

/-- Over a store without confirmed heads of the chain, for any live blocks: whatever is stored or
reported as confirmed was made final by a live block. -/
theorem confirmed_madeFinal {settings : TrackerSettings} {store : S} (sound : MonotoneStore.Sound store)
    (fixed : settings.threshold chain = threshold) (unconfirmed : ∀ number, ¬HoldsConfirmed store chain number)
    (history : History (IsServed chain) (fun later => later.threshold chain = threshold)
      (make settings store) u) :
    (∀ number, HoldsConfirmed u.ledger.store chain number →
      MadeFinal u.ledger.outlet.signals threshold number) ∧
    (∀ head, .head head ∈ u.ledger.outlet.signals → head.state = .confirmed →
      MadeFinal u.ledger.outlet.signals threshold head.number) ∧
    ∀ event, .event event ∈ u.ledger.outlet.signals → event.state = .confirmed →
      MadeFinal u.ledger.outlet.signals threshold event.blockNumber := by
  have confirmsFinal : u.ConfirmsFinal chain threshold := by
    induction history with
    | refl =>
        refine ⟨⟨sound, fun confirmed => (unconfirmed _ confirmed).elim, by simp [make]⟩, fixed, ?_, ?_⟩
        · intro run number arrived
          cases arrived
        · intro i task found
          cases found
    | move _ served moved ih => exact ih.move? served moved
    | reopen _ fixed ih => exact ih.reopen fixed
  exact ⟨fun number => confirmsFinal.ledger.stored, fun head told => confirmsFinal.ledger.told _ told,
    fun event told => confirmsFinal.ledger.told _ told⟩

/-- The watch confirms the second block and the backfill the first, both with the third. -/
theorem confirmed_madeFinal_third_block :
    ∃ u, (make { confirmations := some 1 } NestedStore.empty).trial? (isServed 1)
        (.start "plain" :: handoverMoves) = some u ∧
      (HoldsConfirmed u.ledger.store 1 0 ∧ HoldsConfirmed u.ledger.store 1 1) ∧
      (∀ number, HoldsConfirmed u.ledger.store 1 number → MadeFinal u.ledger.outlet.signals 1 number) ∧
      (∀ head, .head head ∈ u.ledger.outlet.signals → head.state = .confirmed →
        MadeFinal u.ledger.outlet.signals 1 head.number) ∧
      ∀ event, .event event ∈ u.ledger.outlet.signals → event.state = .confirmed →
        MadeFinal u.ledger.outlet.signals 1 event.blockNumber := by
  have shape : ((make { confirmations := some 1 } NestedStore.empty).trial? (isServed 1)
      (.start "plain" :: handoverMoves)).map (fun u =>
        ([0, 1] : List UInt64).map fun number => (u.ledger.store.heads
          { chain := some 1, number := some number, state := some .confirmed }).length) = some [1, 1] := by
    decide +kernel
  obtain ⟨u, moved, counts⟩ := Option.map_eq_some_iff.mp shape
  simp only [List.map_cons, List.map_nil, List.cons.injEq] at counts
  obtain ⟨first, second, -⟩ := counts
  have history : Reaches (IsServed 1) _ u := reaches_of_trial? isServed_of_isServed moved
  have unconfirmed (number : UInt64) : ¬HoldsConfirmed NestedStore.empty 1 number := by
    intro held
    obtain ⟨count, held⟩ := held
    cases held
  exact ⟨u, moved, ⟨⟨0, congrArg _ first⟩, ⟨0, congrArg _ second⟩⟩,
    confirmed_madeFinal NestedStore.sound_empty rfl unconfirmed history.toHistory⟩

end Tracker

end Chainwatch
