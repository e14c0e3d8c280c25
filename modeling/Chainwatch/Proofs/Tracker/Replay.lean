import Chainwatch.Proofs.Store.Nested
import Chainwatch.Proofs.Tracker.Advance

/-!
# Replaying a run

Whether a run allows a move can be computed, and with it whether moves in turn are a history of the run.
-/

namespace Chainwatch

namespace Answer

def isFault : Answer → Bool
  | .go => false
  | .chain (.ok _) | .subscribed (.ok _) | .header (.ok _) | .logs (.ok _) => false
  | .chain (.error _) | .subscribed (.error _) | .header (.error _) | .logs (.error _) => true
  | .arrival (some (.ok _)) => false
  | .arrival (some (.error _)) | .arrival none => true
  | .stored fault => fault.isSome

theorem isFault_of_isFault {answer : Answer} (h : answer.IsFault) : answer.isFault := by
  cases answer with
  | go => exact h.elim
  | chain outcome => obtain ⟨e, rfl⟩ := h; rfl
  | subscribed outcome => obtain ⟨e, rfl⟩ := h; rfl
  | header outcome => obtain ⟨e, rfl⟩ := h; rfl
  | logs outcome => obtain ⟨e, rfl⟩ := h; rfl
  | arrival item =>
      cases item with
      | none => rfl
      | some outcome =>
          cases outcome with
          | ok live => exact (h live rfl).elim
          | error e => rfl
  | stored fault =>
      cases fault with
      | none => exact (h rfl).elim
      | some e => rfl

end Answer

namespace Outset

variable {S : Type} [BlockStore S] [LawfulStore S] (o : Outset S) {troubled : Bool} {t u : Tracker S}

/-- Whether an answer is one of the node and of an honest store. -/
def serves (t : Tracker S) (id : Nat) : Answer → Bool
  | .chain (.ok id) => id == o.chain.id
  | .header (.ok header) =>
      match t.wait? id with
      | some (.node (.header number)) => header == o.chain.block number
      | _ => true
  | .arrival (some (.ok live)) =>
      live == o.chain.block live.number &&
        (t.lives o.run).getLast?.all fun last => live.number.toNat == last.toNat + 1
  | .stored fault => fault.all fun e => !e.isConflict
  | _ => true

theorem serves_of_serves {id : Nat} {answer : Answer} (h : o.serves t id answer) : o.Serves t id answer := by
  cases answer with
  | chain outcome =>
      intro chain h
      cases h
      simpa [serves] using h
  | header outcome =>
      intro header number h waits
      cases h
      simpa [serves, waits] using h
  | arrival item =>
      intro live h
      cases h
      simp only [serves, Bool.and_eq_true, beq_iff_eq] at h
      refine ⟨h.1, ?_⟩
      intro last found
      simpa [found] using h.2
  | stored fault =>
      intro e h
      cases h
      simpa [serves] using h
  | _ => trivial

/-- Whether the run allows a move. -/
def allows (troubled : Bool) (t : Tracker S) : Move → Bool
  | .start _ | .setHeight _ => false
  | .stop | .cancel _ => troubled
  | .resubscribe _ => true
  | .resume id answer => o.serves t id answer && (!answer.isFault || troubled)

theorem allows_of_allows {P : Prop} (trouble : troubled → P) {move : Move} (h : o.allows troubled t move) :
    o.Allows P t move := by
  cases move with
  | start context => cases h
  | stop => exact trouble h
  | cancel context => exact trouble h
  | setHeight height => cases h
  | resubscribe dispatcher => trivial
  | resume id answer =>
      simp only [allows, Bool.and_eq_true, Bool.or_eq_true, Bool.not_eq_true'] at h
      refine ⟨o.serves_of_serves h.1, ?_⟩
      intro fault
      rcases h.2 with sound | troubled
      · rw [Answer.isFault_of_isFault fault] at sound
        cases sound
      · exact trouble troubled

/-- Replays moves, as long as the run allows them. -/
def replay? (troubled : Bool) (t : Tracker S) (moves : List Move) : Option (Tracker S) :=
  moves.foldlM (fun t move => if o.allows troubled t move then t.move? move else none) t

theorem reaches_of_replay? {P : Prop} (trouble : troubled → P) {moves : List Move}
    (h : o.replay? troubled t moves = some u) : Tracker.Reaches (o.Allows P) t u :=
  Tracker.reaches_of_trial? (o.allows_of_allows trouble) (show t.trial? (o.allows troubled) moves = some u from h)

def played (troubled : Bool) (moves : List Move) : Tracker S :=
  (o.replay? troubled o.begun moves).getD o.begun

theorem reaches_played {P : Prop} (troubled : Bool) (trouble : troubled → P) (moves : List Move) :
    Tracker.Reaches (o.Allows P) o.begun (o.played troubled moves) := by
  unfold played
  cases moved : o.replay? troubled o.begun moves with
  | none => exact .refl
  | some t => exact o.reaches_of_replay? trouble moved

end Outset

/-! ## Looks into blooms

A look into a bloom takes long to compute. Where it is known what the work begins with, the move need not look. -/

namespace Tracker

variable {S : Type} [BlockStore S] {t : Tracker S} {id : Nat} {session : Session} {live target : Header}
  {last number : UInt64} {work : Work} {ledger : Ledger S}

theorem move?_meet (found : t.tasks[id]? = some (.watching session .listening))
    (running : t.isOver session.run = false) (begun : Work.observe t.ledger live = .waits work) :
    t.move? (.resume id (.arrival (some (.ok live)))) =
      some (((t.emit (.live session.run live.number)).settle session.run (.arrived live.number)).put id
        (.watching session (.observing live work))) := by
  have same : Work.observe ((t.emit (.live session.run live.number)).settle session.run
      (.arrived live.number)).ledger live = .waits work := by
    rw [← begun]
    unfold settle
    split <;> rfl
  simp only [move?, resume?, found, resumeWatch?, running, meetLive, same, putObserving, Bool.false_eq_true, if_false]

theorem move?_target (found : t.tasks[id]? = some (.watching session (.fetchingTarget live)))
    (begun : Work.confirm t.ledger target = (.waits work, ledger)) :
    t.move? (.resume id (.header (.ok target))) =
      some ({ t with ledger }.put id (.watching session (.confirming live work))) := by
  simp only [move?, resume?, found, resumeWatch?, begun, putConfirming]

theorem move?_begin (found : t.tasks[id]? = some (.sweeping session last (.fetching number)))
    (begun : t.beginWork session last number target = (.waits work, ledger)) :
    t.move? (.resume id (.header (.ok target))) =
      some ({ t with ledger }.put id (.sweeping session last (.working number work))) := by
  simp only [move?, resume?, found, resumeSweep?, begun, putSweeping]

end Tracker

/-! ## A plain chain -/

/-- The chain whose blocks have only a number and a hash of that length. -/
def plainChain : ServedChain where
  id := 1
  block number := ⟨number, String.ofList (List.replicate number.toNat 'x'), "", 0, .empty⟩
  number_eq _ := rfl
  hash_unique same := by
    have length := congrArg List.length (String.ofList_injective same)
    simpa [UInt64.toNat_inj] using length
  bloom_full _ := by simp [Bloom.IsFull, Bloom.empty]

/-- A fresh tracker of the plain chain, over an empty store. -/
def plainOutset (settings : TrackerSettings) : Outset NestedStore where
  chain := plainChain
  tracker := .make settings .empty
  context := "plain"
  height := 0
  rest := Tracker.atRest_make settings NestedStore.empty
  sound := NestedStore.sound_empty
  carries found := by
    cases found
  height_eq := rfl

end Chainwatch
