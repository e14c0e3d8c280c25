import Chainwatch.Proofs.Store.Monotone
import Chainwatch.Proofs.Tracker.Replay
import Chainwatch.Proofs.Tracker.TaskSteps

/-!
# Each block is seen once

A seen notice is dispatched by the write that gives its number a head, and no number loses its head. So
each number is reported as seen at most once, and before it is reported as confirmed, in every
interleaving of the loops, over stops and starts and fresh trackers over the same store.
-/

namespace Chainwatch

open BlockStore (Holds)

namespace Signal

/-- The signal is a notice of a head of this number. -/
def isHeadOf (chain number : UInt64) : Signal → Bool
  | .head told => told.chain == chain && told.number == number
  | _ => false

/-- The signal is a notice of a head of this number in this state. -/
def isHeadAs (state : BlockState) (chain number : UInt64) : Signal → Bool
  | .head told => told.chain == chain && told.number == number && told.state == state
  | _ => false

variable {signal : Signal} {chain number : UInt64}

theorem isHeadOf_of_isHeadAs {state : BlockState} (h : signal.isHeadAs state chain number) :
    signal.isHeadOf chain number := by
  cases signal with
  | head told =>
      simp only [isHeadAs, Bool.and_eq_true] at h
      simp only [isHeadOf, Bool.and_eq_true]
      exact h.1
  | _ => cases h

theorem not_isHeadOf_of_isPlain (plain : signal.isPlain) : ¬signal.isHeadOf chain number := by
  cases signal with
  | head told => cases plain
  | _ => exact Bool.false_ne_true

end Signal

variable {S : Type} [BlockStore S] [MonotoneStore S]

namespace Ledger

variable {l m after : Ledger S}

/-- The notices between two ledgers: every number with a notice has a head afterwards, and a seen notice
is only given for a number that had neither a head nor a notice before. -/
structure Tells (l : Ledger S) (told : List Signal) (after : Ledger S) : Prop where
  sound : MonotoneStore.Sound after.store
  signals : after.outlet.signals = l.outlet.signals ++ told
  kept : ∀ {chain number : UInt64}, Holds l.store chain number → Holds after.store chain number
  held : ∀ {chain number : UInt64} {s : Signal}, s ∈ told → s.isHeadOf chain number →
    Holds after.store chain number
  fresh : ∀ {chain number : UInt64} {s : Signal}, s ∈ told → s.isHeadAs .seen chain number →
    ¬Holds l.store chain number
  first : told.Pairwise fun a b => ∀ {chain number : UInt64}, b.isHeadAs .seen chain number →
    ¬a.isHeadOf chain number

theorem tells_of_plain {told : List Signal} (sound : MonotoneStore.Sound after.store)
    (signals : after.outlet.signals = l.outlet.signals ++ told)
    (kept : ∀ {chain number : UInt64}, Holds l.store chain number → Holds after.store chain number)
    (plain : ∀ {chain number : UInt64}, ∀ s ∈ told, ¬s.isHeadOf chain number) : l.Tells told after where
  sound := sound
  signals := signals
  kept := kept
  held mem head := (plain _ mem head).elim
  fresh mem seen := (plain _ mem (Signal.isHeadOf_of_isHeadAs seen)).elim
  first := List.pairwise_of_forall_mem_list fun a ha _ _ _ _ _ => plain a ha

theorem Quiet.tells (h : l.Quiet after) (sound : MonotoneStore.Sound l.store) :
    ∃ told, l.Tells told after := by
  obtain ⟨told, signals, plain⟩ := h.signals
  refine ⟨told, tells_of_plain (h.store ▸ sound) signals (fun held => h.store ▸ held) ?_⟩
  exact fun s mem => Signal.not_isHeadOf_of_isPlain (plain s mem)

theorem Tells.refl (sound : MonotoneStore.Sound l.store) : l.Tells [] l :=
  tells_of_plain sound (by simp) (fun held => held) (by simp)

theorem Tells.trans {told more : List Signal} (h : l.Tells told m) (g : m.Tells more after) :
    l.Tells (told ++ more) after where
  sound := g.sound
  signals := by rw [g.signals, h.signals, List.append_assoc]
  kept held := g.kept (h.kept held)
  held mem head := by
    rcases List.mem_append.mp mem with mem | mem
    · exact g.kept (h.held mem head)
    · exact g.held mem head
  fresh mem seen := by
    rcases List.mem_append.mp mem with mem | mem
    · exact h.fresh mem seen
    · exact fun held => g.fresh mem seen (h.kept held)
  first := by
    rw [List.pairwise_append]
    refine ⟨h.first, g.first, ?_⟩
    intro a ha b hb chain number seen head
    exact g.fresh hb seen (h.held ha head)

/-- A placed head gives a notice, and a seen notice only if its number had no head. -/
theorem tells_of_placed {stored shown : Head} {written : Written S Outlet Head}
    (placed : Placed MonotoneStore.Sound l.store (.ok (), l.outlet.tellHead shown) stored written)
    (chain_eq : shown.chain = stored.chain) (number_eq : shown.number = stored.number)
    (fresh : shown.state = .seen → ¬Holds l.store stored.chain stored.number) :
    l.Tells [.head shown] ⟨written.store, written.state⟩ where
  sound := placed.sound
  signals := congrArg Outlet.signals placed.state
  kept := placed.kept
  held := by
    intro chain number s mem head
    rw [List.mem_singleton.mp mem] at head
    simp only [Signal.isHeadOf, Bool.and_eq_true, beq_iff_eq] at head
    rcases head with ⟨rfl, rfl⟩
    exact chain_eq ▸ number_eq ▸ placed.held rfl
  fresh := by
    intro chain number s mem seen
    rw [List.mem_singleton.mp mem] at seen
    simp only [Signal.isHeadAs, Bool.and_eq_true, beq_iff_eq] at seen
    rcases seen with ⟨⟨rfl, rfl⟩, state⟩
    exact chain_eq ▸ number_eq ▸ fresh state
  first := List.pairwise_singleton _ _

theorem tells_of_refused {α : Type} {written : Written S Outlet α} (sound : MonotoneStore.Sound l.store)
    (refused : Refused l.store l.outlet written) : l.Tells [] ⟨written.store, written.state⟩ := by
  have same : (⟨written.store, written.state⟩ : Ledger S) = l := by rw [refused.store, refused.state]
  rw [same]
  exact .refl sound

theorem tells_write {α : Type} {operation : S → Outlet → Written S Outlet α} (sound : MonotoneStore.Sound l.store)
    (fault : Option TrackError)
    (written : ∃ told, l.Tells told
      ⟨(operation l.store l.outlet).store, (operation l.store l.outlet).state⟩) :
    ∃ told, l.Tells told (l.write fault operation).2 := by
  cases fault with
  | none => exact written
  | some e => exact ⟨[], .refl sound⟩

theorem tells_recordHead (sound : MonotoneStore.Sound l.store) (fault : Option TrackError) (head : Head) :
    ∃ told, l.Tells told (l.recordHead fault head).2 := by
  apply tells_write sound
  rcases MonotoneStore.createHead_cases head
    [fun stored outlet => (.ok (), Outlet.tellHead outlet (stored.withState .seen))] l.outlet sound with
    refused | ⟨free, placed⟩
  · exact ⟨_, tells_of_refused sound refused⟩
  · exact ⟨_, tells_of_placed placed rfl rfl fun _ => free⟩

theorem tells_promoteHead (sound : MonotoneStore.Sound l.store) (fault : Option TrackError) {head : Head}
    (confirmed : head.state = .confirmed) : ∃ told, l.Tells told (l.promoteHead fault head).2 := by
  apply tells_write sound
  rcases MonotoneStore.upsertHead_cases head [fun stored outlet => (.ok (), Outlet.tellHead outlet stored)]
    l.outlet sound with refused | ⟨stored, -, -, state, placed⟩
  · exact ⟨_, tells_of_refused sound refused⟩
  · refine ⟨_, tells_of_placed placed rfl rfl ?_⟩
    intro seen
    rw [state confirmed] at seen
    cases seen

theorem tells_tellEvents (sound : MonotoneStore.Sound l.store) (events : List Event) :
    ∃ told, l.Tells told { l with outlet := l.outlet.tellEvents events } := by
  refine ⟨events.map .event, tells_of_plain sound rfl (fun held => held) ?_⟩
  intro chain number s mem head
  obtain ⟨event, -, rfl⟩ := List.mem_map.mp mem
  cases head

theorem tells_saveLogs (sound : MonotoneStore.Sound l.store) (fault : Option TrackError) (chain : UInt64)
    (hash : String) (events : List Event) (hooks : List (Hook Outlet (List Event)))
    (plain : ∀ stored, ∃ told, (runHooks hooks stored l.outlet).2.signals = l.outlet.signals ++ told ∧
      ∀ {chain number : UInt64}, ∀ s ∈ told, ¬s.isHeadOf chain number) :
    ∃ told, l.Tells told (l.write fault fun store outlet =>
      BlockStore.saveLogs store chain hash events hooks outlet).2 := by
  apply tells_write sound
  obtain ⟨logged, same | ⟨block, -, -, hooked⟩⟩ :=
    MonotoneStore.saveLogs_cases chain hash events hooks l.outlet sound
  · exact ⟨[], tells_of_plain logged.sound (by simp [same]) logged.kept (by simp)⟩
  · obtain ⟨told, signals, plain⟩ := plain (events.map (·.mergeWith block))
    exact ⟨told, tells_of_plain logged.sound ((congrArg Outlet.signals hooked).trans signals) logged.kept plain⟩

theorem tells_recordEvents (sound : MonotoneStore.Sound l.store) (fault : Option TrackError) (chain : UInt64)
    (hash : String) (events : List Event) :
    ∃ told, l.Tells told (l.recordEvents fault chain hash events).2 := by
  apply tells_saveLogs sound
  intro stored
  refine ⟨stored.map .event, rfl, ?_⟩
  intro chain number s mem head
  obtain ⟨event, -, rfl⟩ := List.mem_map.mp mem
  cases head

theorem tells_keepEvents (sound : MonotoneStore.Sound l.store) (fault : Option TrackError) (chain : UInt64)
    (hash : String) (events : List Event) : ∃ told, l.Tells told (l.keepEvents fault chain hash events).2 :=
  tells_saveLogs sound fault chain hash events [] fun _ => ⟨[], by simp [runHooks], by simp⟩

end Ledger

/-! ## Steps of the work -/

variable {l mid : Ledger S} {session : Session} {work : Work} {answer : Answer}

theorem Work.LedgerEffect.tells (h : work.LedgerEffect session l answer mid) (sound : MonotoneStore.Sound l.store) :
    ∃ told, l.Tells told mid := by
  cases h with
  | record quiet =>
      obtain ⟨told, recorded⟩ := Ledger.tells_recordHead sound _ _
      obtain ⟨more, after⟩ := quiet.tells recorded.sound
      exact ⟨_, recorded.trans after⟩
  | tell => exact Ledger.tells_tellEvents sound _
  | saveSeen => exact Ledger.tells_recordEvents sound _ _ _ _
  | promote => exact Ledger.tells_promoteHead sound _ rfl
  | saveConfirmed => exact Ledger.tells_keepEvents sound _ _ _ _
  | nothing => exact ⟨[], .refl sound⟩

namespace Tracker

variable {t u : Tracker S}

theorem TaskStep.tells {task next : Task} {new : List Task} (turn : t.TaskStep task answer mid next new)
    (sound : MonotoneStore.Sound t.ledger.store) : ∃ told, t.ledger.Tells told mid := by
  rcases turn.ledger_cases with ⟨session, work, progress, -, moved⟩ | quiet | ⟨run, number, rfl⟩
  · exact (Work.ledgerEffect_of_resume? moved).tells sound
  · exact quiet.tells sound
  · exact ⟨[.live run number], Ledger.tells_of_plain sound rfl (fun held => held) (by simp [Signal.isHeadOf])⟩

/-- Every move satisfies `Tells`. -/
theorem tells_move? (sound : MonotoneStore.Sound t.ledger.store) {m : Move} (moved : t.move? m = some u) :
    ∃ told, t.ledger.Tells told u.ledger := by
  rcases takesStep_or_spawnsTasks_of_move? moved with ⟨id, answer, task, -, -, mid, next, new, turn, stepsTo⟩ |
    ⟨new, spawnsTasks, -⟩
  · obtain ⟨told, worked⟩ := turn.tells sound
    obtain ⟨more, after⟩ := stepsTo.quiet.tells worked.sound
    exact ⟨_, worked.trans after⟩
  · exact spawnsTasks.quiet.tells sound

theorem tells_reopen (sound : MonotoneStore.Sound t.ledger.store) (settings : TrackerSettings) :
    t.ledger.Tells [] (t.reopen settings).ledger :=
  Ledger.tells_of_plain sound (by simp [reopen]) (fun held => held) (by simp)

theorem History.tells {allowed : Tracker S → Move → Prop} {fits : TrackerSettings → Prop}
    (history : History allowed fits t u) (sound : MonotoneStore.Sound t.ledger.store) :
    ∃ told, t.ledger.Tells told u.ledger := by
  induction history with
  | refl => exact ⟨[], .refl sound⟩
  | move _ _ moved ih =>
      obtain ⟨told, before⟩ := ih
      obtain ⟨more, after⟩ := tells_move? before.sound moved
      exact ⟨_, before.trans after⟩
  | reopen _ _ ih =>
      obtain ⟨told, before⟩ := ih
      exact ⟨_, before.trans (tells_reopen before.sound _)⟩

/-- From any state of a tracker and over any number of restarts: each number is reported as seen at most
once, not at all if the store held it, and never after it was reported as confirmed. -/
theorem seen_at_most_once (sound : MonotoneStore.Sound t.ledger.store)
    (history : History AnyMove (fun _ => True) t u) :
    ∃ told, u.ledger.outlet.signals = t.ledger.outlet.signals ++ told ∧ ∀ chain number,
      told.countP (·.isHeadAs .seen chain number) ≤ 1 ∧
      (Holds t.ledger.store chain number → told.countP (·.isHeadAs .seen chain number) = 0) ∧
      told.Pairwise fun a b => a.isHeadAs .confirmed chain number → ¬b.isHeadAs .seen chain number := by
  obtain ⟨told, tells⟩ := history.tells sound
  refine ⟨told, tells.signals, ?_⟩
  intro chain number
  refine ⟨?_, ?_, ?_⟩
  · -- of two notices of heads, the second is no seen notice
    rw [List.countP_eq_length_filter]
    have alone : (told.filter (·.isHeadAs .seen chain number)).Pairwise fun _ _ => False := by
      rw [List.pairwise_filter]
      refine tells.first.imp ?_
      intro a b first ha hb
      exact first hb (Signal.isHeadOf_of_isHeadAs ha)
    cases kept : told.filter (·.isHeadAs .seen chain number) with
    | nil => simp
    | cons a rest =>
        cases rest with
        | nil => simp
        | cons b rest =>
            rw [kept] at alone
            exact ((List.pairwise_cons.mp alone).1 b List.mem_cons_self).elim
  · intro held
    rw [List.countP_eq_zero]
    exact fun s mem seen => tells.fresh mem seen held
  · refine tells.first.imp ?_
    intro a b first confirmed seen
    exact first seen (Signal.isHeadOf_of_isHeadAs confirmed)

/-- The same live block comes twice, and makes the block before it final both times. -/
def repeatedMoves : List Move :=
  [.start "plain", .resume 0 .go, .resume 0 (.chain (.ok 1)), .resume 0 (.stored none), .resume 1 .go,
    .resume 1 (.subscribed (.ok ())), .resume 1 (.arrival (some (.ok (plainChain.block 1)))),
    .resume 1 (.stored none), .resume 1 (.header (.ok (plainChain.block 0))), .resume 1 (.stored none),
    .resume 1 (.arrival (some (.ok (plainChain.block 1)))), .resume 1 (.stored none),
    .resume 1 (.header (.ok (plainChain.block 0))), .resume 1 (.stored none)]

theorem seen_at_most_once_repeated_block :
    ∃ u, (make { confirmations := some 1 } NestedStore.empty).moves? repeatedMoves = some u ∧
      u.ledger.outlet.signals.countP (·.isHeadAs .confirmed 1 0) = 2 ∧
      ∃ told, u.ledger.outlet.signals = [] ++ told ∧ ∀ chain number,
        told.countP (·.isHeadAs .seen chain number) ≤ 1 ∧
        (Holds NestedStore.empty chain number → told.countP (·.isHeadAs .seen chain number) = 0) ∧
        told.Pairwise fun a b => a.isHeadAs .confirmed chain number → ¬b.isHeadAs .seen chain number := by
  have shape : ((make { confirmations := some 1 } NestedStore.empty).moves? repeatedMoves).map
      (fun u => u.ledger.outlet.signals.countP (·.isHeadAs .confirmed 1 0)) = some 2 := by decide +kernel
  obtain ⟨u, moved, twice⟩ := Option.map_eq_some_iff.mp shape
  exact ⟨u, moved, twice, seen_at_most_once NestedStore.sound_empty (reaches_of_moves? moved).toHistory⟩

end Tracker

end Chainwatch
