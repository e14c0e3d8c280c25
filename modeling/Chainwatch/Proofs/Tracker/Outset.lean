import Chainwatch.Proofs.Tracker.Coverage
import Chainwatch.Proofs.Tracker.OneRun

/-!
# A run and its initial configuration

A run begins with one start of a tracker at rest, over a store whose heads have the hashes of the served
chain. This module defines the moves of the run, and the points of its tasks when the run has reached a
mark.
-/

namespace Chainwatch

namespace Signal

def run? : Signal → Option Nat
  | .live run _ | .failure run _ => some run
  | _ => none

def live? (run : Nat) : Signal → Option UInt64
  | .live r number => if r = run then some number else none
  | _ => none

end Signal

namespace Tracker

variable {S : Type}

/-- The live blocks that a run took, oldest first. -/
def lives (t : Tracker S) (run : Nat) : List UInt64 :=
  t.ledger.news.filterMap (Signal.live? run)

theorem lives_ledger {t : Tracker S} {ledger : Ledger S} (news : ledger.news = t.ledger.news) (run : Nat) :
    lives { t with ledger } run = t.lives run := by
  simp only [lives, news]

/-- Every signal of a run is about one that was launched. -/
def IsSilent (t : Tracker S) : Prop :=
  ∀ {signal : Signal} {run : Nat}, signal ∈ t.ledger.news → signal.run? = some run → run < t.runs.length

theorem IsSilent.lives {t : Tracker S} (h : t.IsSilent) {run : Nat} (late : t.runs.length ≤ run) :
    t.lives run = [] := by
  unfold Tracker.lives
  rw [List.filterMap_eq_nil_iff]
  intro signal mem
  cases signal with
  | live r number =>
      have known := h mem rfl
      exact if_neg (by omega)
  | _ => rfl

/-- The tracker is idle, and every task has ended. -/
structure AtRest (t : Tracker S) : Prop where
  status : t.status = .idle
  life : t.life.Sound
  ended : ∀ {id : Nat} {task : Task}, t.tasks[id]? = some task → task.wait? = none
  silent : t.IsSilent

theorem atRest_make (settings : TrackerSettings) (store : S) : (make settings store).AtRest where
  status := rfl
  life := Life.sound_make
  ended found := by simp [make] at found
  silent mem := by simp [make, Ledger.news] at mem

theorem store_make (settings : TrackerSettings) (store : S) : (make settings store).ledger.store = store := rfl

end Tracker

/-- The initial configuration of a run: a tracker at rest, and the chain that its node serves. -/
structure Outset (S : Type) [BlockStore S] [LawfulStore S] where
  chain : ServedChain
  tracker : Tracker S
  context : Context
  height : UInt64
  rest : tracker.AtRest
  sound : LawfulStore.Sound tracker.ledger.store
  carries : (LawfulStore.view tracker.ledger.store).Carries chain
  height_eq : BlockStore.height tracker.ledger.store chain.id = .ok height

namespace Outset

variable {S : Type} [BlockStore S] [LawfulStore S] (o : Outset S)

def run : Nat := o.tracker.runs.length

def starter : Nat := o.tracker.tasks.length

def session : Session where
  run := o.run
  chain := o.chain.id
  threshold := o.tracker.settings.threshold o.chain.id

def plan : Plan where
  chain := o.chain
  before := LawfulStore.view o.tracker.ledger.store
  threshold := o.tracker.settings.threshold o.chain.id
  lowest := Tracker.resumeHeight o.tracker.startHeight o.height

def begun : Tracker S := (o.tracker.start o.context).2

/-- The answers of a node that serves the chain and of an honest store. New heads are consecutive. -/
def Serves (t : Tracker S) (id : Nat) : Answer → Prop
  | .chain outcome => ∀ {id : UInt64}, outcome = .ok id → id = o.chain.id
  | .header outcome => ∀ {header : Header} {number : UInt64}, outcome = .ok header →
      t.wait? id = some (.node (.header number)) → header = o.chain.block number
  | .arrival item => ∀ {live : Header}, item = some (.ok live) → live = o.chain.block live.number ∧
      ∀ {last : UInt64}, (t.lives o.run).getLast? = some last → live.number.toNat = last.toNat + 1
  | answer => answer.IsHonest

/-- The moves of the run: no other start of the tracker, and unless the run is `troubled`, no stop, no
cancellation of its context, and no failure of node or store. -/
def Allows (troubled : Prop) (t : Tracker S) : Move → Prop
  | .start _ | .setHeight _ => False
  | .stop | .cancel _ => troubled
  | .resubscribe _ => True
  | .resume id answer => o.Serves t id answer ∧ (answer.IsFault → troubled)

end Outset

/-! ## Points of the tasks -/

section Places

variable {S : Type} [BlockStore S] [LawfulStore S] (o : Outset S) (troubled : Prop) (m : Mark)
  (lives : List UInt64)

def StartPoint.IsAt : StartPoint → Prop
  | .launched | .askingChain => m.watch = none
  | .readingHeight chain => m.watch = none ∧ chain = o.chain.id
  | .awaitingFirst session lowest => session = o.session ∧ lowest = o.plan.lowest
  | .stopping _ _ => troubled

def WatchPoint.IsAt : WatchPoint → Prop
  | .launched | .subscribing | .listening =>
      m.seen = m.done ∧ ∀ {last : UInt64}, lives.getLast? = some last → m.done = last.toNat + 1
  | .observing live work =>
      lives.getLast? = some live.number ∧ work.IsOn o.chain live.number false ∧
        m.done = live.number.toNat ∧ m.seen = live.number.toNat + work.isWritten.toNat
  | .fetchingTarget live =>
      lives.getLast? = some live.number ∧ o.plan.threshold ≤ live.number ∧
        m.done = live.number.toNat ∧ m.seen = live.number.toNat + 1
  | .confirming live work =>
      lives.getLast? = some live.number ∧ o.plan.threshold ≤ live.number ∧
        m.first ≤ live.number.toNat ∧ work.IsOn o.chain (live.number - o.plan.threshold) true ∧
        m.done = live.number.toNat + work.isWritten.toNat ∧ m.seen = live.number.toNat + 1

def SweepPoint.IsAt (last : UInt64) : SweepPoint → Prop
  | .launched lowest => lowest = o.plan.lowest ∧ m.pos = lowest.toNat
  | .fetching number =>
      last ≠ 0 ∧ o.plan.lowest ≤ number ∧ number ≤ last ∧ m.pos = number.toNat
  | .working number work =>
      last ≠ 0 ∧ o.plan.lowest ≤ number ∧ number ≤ last ∧
        work.IsOn o.chain number (Tracker.isSettledBy o.session last number) ∧
        m.pos = number.toNat + work.isWritten.toNat

/-- The points at which a task may be when the run has reached a mark. -/
def Task.IsAt (id : Nat) : Task → Prop
  | .starting context point =>
      id = o.starter ∧ context = o.context ∧ m.sweep = none ∧ point.IsAt o troubled m
  | .stopping _ => troubled
  | .watching session point => m.watch = some id ∧ session = o.session ∧ point.IsAt o m lives
  | .sweeping session last point =>
      m.sweep = some id ∧ session = o.session ∧ last.toNat = m.first - 1 ∧ point.IsAt o m last
  | .ended _ | .crashed => True

/-- The task is the start, or has its result: success once the backfill is launched. -/
def Task.IsStarter : Task → Prop
  | .starting _ _ => True
  | .ended (.ok _) => m.sweep ≠ none
  | .ended (.error _) => True
  | .stopping _ | .watching _ _ | .sweeping _ _ _ | .crashed => False

/-- The backfill has nothing left to do. -/
def Mark.IsSwept : Prop :=
  m.first ≤ 1 ∨ m.first ≤ m.pos

end Places

/-- The run is not cancelled, has not failed, and has not missed its first live block. -/
structure Tracker.FaultFree {S : Type} (t : Tracker S) (context : Context) (run : Nat) : Prop where
  running : t.isOver run = false
  wanted : t.isCancelled context = false
  met : t.first run ≠ .missed
  silent : ∀ {cause : TrackError}, .failure run cause ∉ t.ledger.news

/-- The run has reached a mark. Nothing is said about the point of a busy task. -/
structure RunAt {S : Type} [BlockStore S] [LawfulStore S] (o : Outset S) (troubled : Prop)
    (busy : Option Nat) (t : Tracker S) (m : Mark) : Prop where
  storeAt : o.plan.StoreAt t.ledger.store (t.lives o.run) m
  tasks : ∀ {id : Nat} {task : Task}, busy ≠ some id → t.tasks[id]? = some task →
    task.IsAt o troubled m (t.lives o.run) id
  starter : ∃ task, t.tasks[o.starter]? = some task ∧ task.IsStarter m
  early : m.watch = none → m.sweep = none ∧ m.seen = m.done ∧ t.runs.length = o.run ∧
    t.ledger.store = o.tracker.ledger.store
  fixed : t.settings = o.tracker.settings ∧ t.startHeight = o.tracker.startHeight
  latest : m.watch ≠ none → t.runs.length = o.run + 1
  arrived : ∀ {first : UInt64}, t.first o.run = .arrived first → (t.lives o.run).head? = some first
  awaited : t.first o.run = .awaited → t.lives o.run = []
  silent : t.IsSilent
  swept : ∀ {id : Nat}, m.sweep = some id →
    (∃ session last point, t.tasks[id]? = some (.sweeping session last point)) ∨
      t.isOver o.run ∨ m.IsSwept
  faultFree : ¬troubled → t.FaultFree o.context o.run

end Chainwatch
