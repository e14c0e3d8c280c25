import Chainwatch.Proofs.Store.Plain
import Chainwatch.Proofs.Tracker.TaskSteps

/-!
# What the work on a block touches

For any headers that the node serves, and over either store: the work on a block changes the head of its
number only. Its notices are of that head, and of events that are final or are kept in the block of its
hash.
-/

namespace Chainwatch

open PlainStore (Sound view shown)

variable {S : Type} [BlockStore S] [PlainStore S]

/-- The notices of the work over a view: of its own block, as final if it confirms it, and of events
that are final then or belong to the block with its hash once it is in place. -/
def Work.Tells (session : Session) (v : View) (work : Work) : Signal → Prop
  | .head head => head.number = work.header.number ∧ (work.confirms → head.state = .confirmed)
  | .event event =>
      if work.confirms then event.state = .confirmed
      else work.isWritten ∧ v.holds session.chain event.blockNumber work.header.hash
  | .live _ _ => False
  | _ => True

theorem Work.tells_of_isPlain {session : Session} {v : View} {work : Work} {signal : Signal}
    (plain : signal.isPlain) : work.Tells session v signal := by
  cases signal with
  | head | event | live => cases plain
  | _ => trivial

namespace Ledger

variable {l mid after : Ledger S} {session : Session} {work : Work}

/-- The effect of the work on a block on a ledger. -/
structure Treats (session : Session) (work : Work) (l after : Ledger S) : Prop where
  sound : Sound after.store
  heads : ∀ {chain number : UInt64}, ¬(chain = session.chain ∧ number = work.header.number) →
    (view after.store).headAt? chain number = (view l.store).headAt? chain number
  told : ∃ told, after.outlet.signals = l.outlet.signals ++ told ∧
    ∀ signal ∈ told, work.Tells session (view l.store) signal

theorem Quiet.treats (h : l.Quiet after) (sound : Sound l.store) (session : Session) (work : Work) :
    Treats session work l after := by
  obtain ⟨told, signals, plain⟩ := h.signals
  refine ⟨h.store ▸ sound, fun _ => by rw [h.store], told, signals, ?_⟩
  exact fun signal mem => Work.tells_of_isPlain (plain signal mem)

theorem Treats.quiet (h : Treats session work l mid) (g : mid.Quiet after) : Treats session work l after := by
  obtain ⟨told, signals, tells⟩ := h.told
  obtain ⟨more, signals', plain⟩ := g.signals
  refine ⟨g.store ▸ h.sound, fun other => by rw [g.store, h.heads other], told ++ more, ?_, ?_⟩
  · rw [signals', signals, List.append_assoc]
  · intro signal mem
    rcases List.mem_append.mp mem with mem | mem
    · exact tells signal mem
    · exact Work.tells_of_isPlain (plain signal mem)

theorem treats_of_applied {written : Written S Outlet Head} {stored head : Head}
    (applied : Applied Sound view written (.ok (), l.outlet.tellHead head) stored (view l.store)
      ((view l.store).put (shown S stored)))
    (chain : stored.chain = session.chain) (number : stored.number = work.header.number)
    (same : head.number = work.header.number) (final : work.confirms → head.state = .confirmed) :
    Treats session work l ⟨written.store, written.state⟩ := by
  refine ⟨applied.sound, ?_, [.head head], congrArg Outlet.signals applied.state, ?_⟩
  · intro chain' number' other
    have placed : view written.store = (view l.store).put (shown S stored) := applied.view
    show (view written.store).headAt? chain' number' = _
    rw [placed]
    apply if_neg
    rw [PlainStore.shown_chain, PlainStore.shown_number, chain, number]
    exact other
  · intro signal mem
    rw [List.mem_singleton.mp mem]
    exact ⟨same, final⟩

theorem treats_recordHead (sound : Sound l.store) (fault : Option TrackError) (header : Header) (state : BlockState) :
    Treats session (.record header state) l (l.recordHead fault (.ofHeader session.chain header state)).2 := by
  unfold recordHead write
  cases fault with
  | some e => exact Quiet.refl.treats sound session _
  | none =>
      by_cases taken : (view l.store).Taken (.ofHeader session.chain header state)
      · obtain ⟨e, refused⟩ := PlainStore.createHead_taken
          [fun stored outlet => (.ok (), outlet.tellHead (stored.withState .seen))] l.outlet sound taken
        simp only [refused]
        exact Quiet.refl.treats sound session _
      · have applied := PlainStore.createHead_free
          [fun stored outlet => (.ok (), outlet.tellHead (stored.withState .seen))] l.outlet sound taken
        exact treats_of_applied applied rfl rfl rfl (by simp [Work.confirms])

theorem treats_promoteHead (sound : Sound l.store) (fault : Option TrackError) (header : Header)
    (events : List Event) :
    Treats session (.promote header events) l (l.promoteHead fault (.ofHeader session.chain header .confirmed)).2 := by
  unfold promoteHead write
  cases fault with
  | some e => exact Quiet.refl.treats sound session _
  | none =>
      have cases := @PlainStore.upsertHead_cases S _ _ _ l.store (.ofHeader session.chain header .confirmed)
        [fun stored outlet => (.ok (), outlet.tellHead stored)] l.outlet sound
      rcases cases with ⟨e, refused⟩ | ⟨stored, -, settled, applied⟩
      · simp only [refused]
        exact Quiet.refl.treats sound session _
      · have chain : stored.chain = session.chain := by
          simpa [Head.ofHeader] using congrArg Head.chain settled
        have number : stored.number = header.number := by
          simpa [Head.ofHeader] using congrArg Head.number settled
        have state : stored.state = .confirmed := by
          have state := congrArg Head.state settled
          rw [PlainStore.shown_state, View.settled] at state
          split at state
          · exact state
          · exact state.trans (PlainStore.shown_state _)
        exact treats_of_applied applied chain number number fun _ => state

theorem treats_saveLogs (sound : Sound l.store) (fault : Option TrackError) {hash : String} {events : List Event}
    {hooks : List (Hook Outlet (List Event))} (tell : List Event → List Signal)
    (passes : ∀ stored, (runHooks hooks stored l.outlet).1 = .ok ())
    (tells : ∀ stored, (runHooks hooks stored l.outlet).2.signals = l.outlet.signals ++ tell stored)
    (among : ∀ {stored : List Event}, (∀ event ∈ stored, (view l.store).holds session.chain event.blockNumber hash) →
      ∀ signal ∈ tell stored, work.Tells session (view l.store) signal) :
    Treats session work l (l.write fault fun store outlet =>
      BlockStore.saveLogs store session.chain hash events hooks outlet).2 := by
  unfold write
  cases fault with
  | some e => exact Quiet.refl.treats sound session _
  | none =>
      by_cases none : events = []
      · subst none
        simp only [PlainStore.saveLogs_nil]
        exact Quiet.refl.treats sound session _
      by_cases read : ∃ block, BlockStore.headOfHash? l.store session.chain hash = .ok (some block)
      · obtain ⟨block, read⟩ := read
        have applied := PlainStore.saveLogs_read hooks l.outlet sound none read
        obtain ⟨placed, -, own⟩ := PlainStore.headOfHash_view sound read
        refine ⟨applied.sound, fun _ => ?_, tell (events.map (·.mergeWith block)), ?_, among ?_⟩
        · have kept := applied.view
          rw [passes] at kept
          show (view (BlockStore.saveLogs l.store session.chain hash events hooks l.outlet).store).headAt? _ _ = _
          rw [kept]
          rfl
        · exact (congrArg Outlet.signals applied.state).trans (tells _)
        · intro event mem
          obtain ⟨before, -, rfl⟩ := List.mem_map.mp mem
          exact View.holds_iff.mpr ⟨_, placed, (PlainStore.shown_hash block).trans own⟩
      · obtain ⟨e, refused⟩ := PlainStore.saveLogs_unread hooks l.outlet sound none read
        simp only [refused]
        exact Quiet.refl.treats sound session _

theorem treats_recordEvents (sound : Sound l.store) (fault : Option TrackError) (header : Header)
    (events : List Event) : Treats session (.saveSeen header events) l
      (l.recordEvents fault session.chain header.hash events).2 := by
  apply treats_saveLogs sound fault fun stored => stored.map Signal.event
  · exact fun _ => rfl
  · exact fun _ => rfl
  · intro stored held signal mem
    obtain ⟨event, told, rfl⟩ := List.mem_map.mp mem
    exact ⟨rfl, held event told⟩

theorem treats_keepEvents (sound : Sound l.store) (fault : Option TrackError) (header : Header)
    (events : List Event) : Treats session (.saveConfirmed header events) l
      (l.keepEvents fault session.chain header.hash events).2 := by
  apply treats_saveLogs sound fault fun _ => []
  · exact fun _ => rfl
  · exact fun _ => (List.append_nil _).symm
  · intro stored held signal mem
    cases mem

end Ledger

namespace Work

variable {session : Session} {l after : Ledger S} {work next : Work} {answer : Answer} {progress : Progress}

theorem treats_of_resume? (sound : Sound l.store) (moved : work.resume? session l answer = some (progress, after)) :
    l.Treats session work after := by
  cases ledgerEffect_of_resume? moved with
  | record quiet => exact (Ledger.treats_recordHead sound _ _ _).quiet quiet
  | saveSeen => exact Ledger.treats_recordEvents sound _ _ _
  | promote => exact Ledger.treats_promoteHead sound _ _ _
  | saveConfirmed => exact Ledger.treats_keepEvents sound _ _ _
  | nothing => exact Ledger.Quiet.refl.treats sound session _
  | @tell header addresses logs =>
      refine ⟨sound, fun _ => rfl, (session.events .confirmed logs).map .event, rfl, ?_⟩
      intro signal mem
      obtain ⟨event, told, rfl⟩ := List.mem_map.mp mem
      obtain ⟨log, -, rfl⟩ := List.mem_map.mp told
      rfl

omit [BlockStore S] [PlainStore S] in
theorem observe_waits {header : Header} (begun : observe l header = .waits work) :
    work.header = header ∧ work.confirms = false ∧ work.isWritten = false := by
  unfold observe at begun
  split at begun
  · cases begun
  · cases begun
    exact ⟨rfl, rfl, rfl⟩

omit [BlockStore S] [PlainStore S] in
theorem confirm_waits {header : Header} (begun : confirm l header = (.waits work, after)) :
    work.header = header ∧ work.confirms ∧ work.isWritten = false := by
  unfold confirm tellConfirmed at begun
  split at begun
  · cases begun
  · cases begun
    exact ⟨rfl, rfl, rfl⟩
  · split at begun <;> cases begun <;> exact ⟨rfl, rfl, rfl⟩

/-- A recorded block is in place, with its hash. -/
theorem holds_of_recorded (sound : Sound l.store) {header : Header} {state : BlockState} {fault : Option TrackError}
    {head : Head} (written : l.recordHead fault (.ofHeader session.chain header state) = (.ok head, after)) :
    (view after.store).holds session.chain header.number header.hash := by
  let hooks : List (Hook Outlet Head) := [fun stored outlet => (.ok (), outlet.tellHead (stored.withState .seen))]
  unfold Ledger.recordHead Ledger.write at written
  cases fault with
  | some e => cases written
  | none =>
      simp only [Prod.mk.injEq] at written
      obtain ⟨outcome, rfl⟩ := written
      by_cases taken : (view l.store).Taken (.ofHeader session.chain header state)
      · obtain ⟨e, refused⟩ := PlainStore.createHead_taken hooks l.outlet sound taken
        rw [refused] at outcome
        cases outcome
      · have placed := (PlainStore.createHead_free hooks l.outlet sound taken).view
        apply View.holds_iff.mpr
        refine ⟨shown S (.ofHeader session.chain header state), ?_, by simp [Head.ofHeader]⟩
        show (view (BlockStore.createHead _ _ _ _).store).headAt? _ _ = _
        rw [placed]
        exact if_pos (by simp [Head.ofHeader])

/-- An observed block is in place when its logs are looked at, with its hash. -/
theorem holds_of_waits (sound : Sound l.store)
    (moved : work.resume? session l answer = some (.waits next, after)) (written : next.isWritten)
    (observes : next.confirms = false) :
    (work.isWritten ∧ after.store = l.store) ∨
      (view after.store).holds session.chain next.header.number next.header.hash := by
  cases outcome_of_resume? moved with
  | asks recorded =>
      have held := holds_of_recorded sound recorded
      exact Or.inr held
  | served => exact Or.inl ⟨rfl, rfl⟩
  | told => cases written
  | keeps => cases observes

omit [PlainStore S] in
/-- The work on a block ends only after a write for it, and the block is in place from its first write on. -/
theorem writes_of_resume? (moved : work.resume? session l answer = some (progress, after)) :
    (∃ fault, answer = .stored fault) ∨ (∃ outcome, answer = .logs outcome) ∧
      (progress = .finished → work.isWritten) ∧ ∀ next, progress = .waits next → next.isWritten → work.isWritten := by
  cases outcome_of_resume? moved with
  | unserved | unconfirmed => exact Or.inr ⟨⟨_, rfl⟩, by simp, by simp⟩
  | eventless | served => exact Or.inr ⟨⟨_, rfl⟩, fun _ => rfl, fun _ _ _ => rfl⟩
  | told =>
      refine Or.inr ⟨⟨_, rfl⟩, by simp, ?_⟩
      rintro next ⟨⟩ written
      cases written
  | _ => exact Or.inl ⟨_, rfl⟩

end Work

namespace Tracker

variable {t u : Tracker S} {m : Move}

theorem sound_move? (sound : Sound t.ledger.store) (moved : t.move? m = some u) : Sound u.ledger.store := by
  rcases takesStep_or_spawnsTasks_of_move? moved with ⟨id, answer, task, -, -, mid, next, new, turn, stepsTo⟩ |
    ⟨new, spawnsTasks, -⟩
  · have worked : Sound mid.store := by
      rcases turn.ledger_cases with ⟨session, work, progress, -, resumed⟩ | quiet | ⟨run, number, rfl⟩
      · exact (Work.treats_of_resume? sound resumed).sound
      · exact quiet.store ▸ sound
      · exact sound
    exact stepsTo.quiet.store ▸ worked
  · exact spawnsTasks.quiet.store ▸ sound

end Tracker

end Chainwatch
