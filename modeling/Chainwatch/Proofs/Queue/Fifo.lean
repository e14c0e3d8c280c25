import Chainwatch.Proofs.Dispatcher.Slots

/-!
# Queues are first in, first out

A queue is used by its producer and by its consumer, in any order. What was taken and what is left is what
was accepted, in the order of the pushes. A push is refused for one of two reasons: the queue is full, or
one of the two sides has closed it.
-/

namespace Chainwatch.Queue

variable {α : Type}

inductive Use (α : Type) where
  | push (item : α)
  | close
  | askClosed
  | receive
  | pop
  | count
  | abandon

inductive Outcome (α : Type) where
  | pushed (outcome : Push α)
  /-- Whether this was the call that closed the queue. -/
  | closed (first : Bool)
  | isClosed (closed : Bool)
  | received (receipt : Receipt α)
  | popped (item? : Option α)
  | counted (length : Nat)
  | nothing

/-- The outcome for a consumer, which can do nothing once it has left. -/
def consume (q : Queue α) (outcome : Outcome α × Queue α) : Outcome α × Queue α :=
  if q.abandoned then (.nothing, q) else outcome

def use (q : Queue α) : Use α → Outcome α × Queue α
  | .push item => (.pushed (q.push item).1, (q.push item).2)
  | .close => (.closed q.close.1, q.close.2)
  | .askClosed => (.isClosed q.isClosed, q)
  | .receive => q.consume (.received q.receive.1, q.receive.2)
  | .pop => q.consume (.popped q.pop.1, q.pop.2)
  | .count => q.consume (.counted q.length, q)
  | .abandon => q.consume (.nothing, q.abandon)

def after (q : Queue α) (uses : List (Use α)) : Queue α :=
  uses.foldl (fun q use => (q.use use).2) q

def log (q : Queue α) : List (Use α) → List (Use α × Outcome α)
  | [] => []
  | use :: rest => (use, (q.use use).1) :: log (q.use use).2 rest

def accepted : Use α × Outcome α → List α
  | (.push item, .pushed .accepted) => [item]
  | _ => []

def taken : Use α × Outcome α → List α
  | (_, .received (.item item)) => [item]
  | (_, .popped item?) => item?.toList
  | _ => []

def isFirstClose : Use α × Outcome α → Bool
  | (_, .closed first) => first
  | _ => false

/-- What is queued after some uses, or, once the consumer has left, what was queued at that moment. -/
def left (q : Queue α) : List (Use α) → List α
  | [] => q.items
  | .abandon :: _ => q.items
  | use :: rest => left (q.use use).2 rest

variable {q : Queue α} {uses : List (Use α)}

theorem left_cons {use : Use α} (stays : use ≠ .abandon) (rest : List (Use α)) :
    q.left (use :: rest) = (q.use use).2.left rest := by
  cases use with
  | abandon => exact (stays rfl).elim
  | _ => rfl

/-! ## One use -/

theorem pop_eq (q : Queue α) : q.pop = (q.items.head?, q.receive.2) := by
  rw [receive_rest]
  obtain ⟨capacity, items, closed, abandoned⟩ := q
  cases items <;> rfl

/-- A push is accepted while there is room, and otherwise returns the item with the reason. -/
theorem push_cases (q : Queue α) (item : α) :
    q.isClosed = true ∧ q.push item = (.closed item, q) ∨
      q.isClosed = false ∧ q.capacity ≤ q.items.length ∧ q.push item = (.full item, q) ∨
      q.isClosed = false ∧ q.items.length < q.capacity ∧
        q.push item = (.accepted, { q with items := q.items ++ [item] }) := by
  unfold push
  by_cases closed : q.isClosed = true
  · exact Or.inl ⟨closed, if_pos closed⟩
  · rw [if_neg closed]
    rw [Bool.not_eq_true] at closed
    by_cases full : q.capacity ≤ q.items.length
    · exact Or.inr (Or.inl ⟨closed, full, if_pos full⟩)
    · exact Or.inr (Or.inr ⟨closed, Nat.lt_of_not_le full, if_neg full⟩)

theorem push_refused (q : Queue α) (item : α) : (q.push item).1 = .accepted ∨
    ((q.push item).1 = .full item ∨ (q.push item).1 = .closed item) ∧ (q.push item).2 = q := by
  rcases q.push_cases item with ⟨-, same⟩ | ⟨-, -, same⟩ | ⟨-, -, same⟩ <;> simp [same]

theorem push_full_iff (q : Queue α) (item : α) :
    (q.push item).1 = .full item ↔ q.isClosed = false ∧ q.capacity ≤ q.items.length := by
  rcases q.push_cases item with ⟨shut, same⟩ | ⟨able, full, same⟩ | ⟨able, free, same⟩
  · simp [same, shut]
  · simp [same, able, full]
  · simp [same, free]

theorem push_closed_iff (q : Queue α) (item : α) : (q.push item).1 = .closed item ↔ q.isClosed = true := by
  rcases q.push_cases item with ⟨shut, same⟩ | ⟨able, -, same⟩ | ⟨able, -, same⟩ <;> simp [*]

theorem receive_ended_iff (q : Queue α) : q.receive.1 = .ended ↔ q.closed = true ∧ q.items = [] := by
  rw [receive_receipt]
  cases q.items with
  | nil => cases q.closed <;> simp
  | cons item rest => simp

theorem consume_cases (q : Queue α) (outcome : Outcome α) (rest : Queue α) :
    q.abandoned = true ∧ q.consume (outcome, rest) = (.nothing, q) ∨
      q.abandoned = false ∧ q.consume (outcome, rest) = (outcome, rest) := by
  unfold consume
  cases q.abandoned <;> simp

theorem use_frame (q : Queue α) (use : Use α) : (q.use use).2.capacity = q.capacity ∧
    ((q.use use).2.closed = true ↔ q.closed = true ∨ .close = use) ∧
    ((q.use use).2.abandoned = true ↔ q.abandoned = true ∨ .abandon = use) := by
  cases use with
  | push item =>
      simp only [Queue.use]
      rcases q.push_cases item with ⟨-, same⟩ | ⟨-, -, same⟩ | ⟨-, -, same⟩ <;> rw [same] <;> simp
  | close => simp [Queue.use, close]
  | askClosed => simp [Queue.use]
  | receive | pop | count | abandon =>
      simp only [Queue.use, pop_eq]
      rcases q.consume_cases _ _ with ⟨gone, same⟩ | ⟨there, same⟩ <;> rw [same] <;>
        simp [receive_rest, abandon, *]

theorem use_fits (fits : q.items.length ≤ q.capacity) (use : Use α) :
    (q.use use).2.items.length ≤ (q.use use).2.capacity := by
  cases use with
  | push item =>
      simp only [Queue.use]
      rcases q.push_cases item with ⟨-, same⟩ | ⟨-, -, same⟩ | ⟨-, room, same⟩ <;> rw [same]
      · exact fits
      · exact fits
      · rw [List.length_append]
        exact room
  | close => exact fits
  | askClosed => exact fits
  | receive | pop =>
      simp only [Queue.use, pop_eq]
      rcases q.consume_cases _ _ with ⟨-, same⟩ | ⟨-, same⟩ <;> rw [same]
      · exact fits
      · simp only [receive_rest, List.length_tail]
        omega
  | count =>
      simp only [Queue.use]
      rcases q.consume_cases _ _ with ⟨-, same⟩ | ⟨-, same⟩ <;> rw [same] <;> exact fits
  | abandon =>
      simp only [Queue.use]
      rcases q.consume_cases _ _ with ⟨-, same⟩ | ⟨-, same⟩ <;> rw [same]
      · exact fits
      · exact Nat.zero_le _

/-- While the consumer is present, items leave at the front and accepted ones enter at the back. -/
theorem use_passes (there : q.abandoned = false) {use : Use α} (stays : use ≠ .abandon) :
    taken (use, (q.use use).1) ++ (q.use use).2.items = q.items ++ accepted (use, (q.use use).1) := by
  cases use with
  | push item =>
      simp only [Queue.use]
      rcases q.push_cases item with ⟨-, same⟩ | ⟨-, -, same⟩ | ⟨-, -, same⟩ <;> rw [same] <;>
        simp [taken, accepted]
  | close => simp [Queue.use, close, taken, accepted]
  | askClosed => simp [Queue.use, taken, accepted]
  | receive =>
      simp only [Queue.use, consume, there, receive_rest, receive_receipt]
      cases q.items with
      | nil => cases q.closed <;> simp [taken, accepted]
      | cons item rest => simp [taken, accepted]
  | pop =>
      simp only [Queue.use, consume, there, pop_eq, receive_rest]
      cases q.items <;> simp [taken, accepted]
  | count => simp [Queue.use, consume, there, taken, accepted]
  | abandon => exact (stays rfl).elim

theorem use_empties (empties : q.abandoned = true → q.items = []) (use : Use α) :
    (q.use use).2.abandoned = true → (q.use use).2.items = [] := by
  cases use with
  | push item =>
      simp only [Queue.use]
      rcases q.push_cases item with ⟨-, same⟩ | ⟨-, -, same⟩ | ⟨able, -, same⟩ <;> rw [same]
      · exact empties
      · exact empties
      · intro gone
        replace gone : q.abandoned = true := gone
        rw [isClosed, gone, Bool.or_true] at able
        cases able
  | close | askClosed => exact empties
  | receive | pop | count | abandon =>
      simp only [Queue.use, pop_eq]
      rcases q.consume_cases _ _ with ⟨-, same⟩ | ⟨there, same⟩ <;> rw [same]
      · exact empties
      · simp [receive_rest, abandon, there]

theorem use_waits (gone : q.abandoned = true) (use : Use α) :
    taken (use, (q.use use).1) = [] ∧ accepted (use, (q.use use).1) = [] := by
  cases use with
  | push item =>
      have closed : q.isClosed = true := by simp [isClosed, gone]
      simp [Queue.use, push, closed, taken, accepted]
  | close | askClosed | receive | pop | count | abandon => simp [Queue.use, consume, gone, taken, accepted]

theorem isFirstClose_iff (q : Queue α) (use : Use α) :
    isFirstClose (use, (q.use use).1) = true ↔ .close = use ∧ q.closed = false := by
  cases use with
  | close => simp [Queue.use, close, isFirstClose]
  | push | askClosed => simp [Queue.use, isFirstClose]
  | receive | pop | count | abandon =>
      simp only [Queue.use]
      rcases q.consume_cases _ _ with ⟨-, same⟩ | ⟨-, same⟩ <;> rw [same] <;> simp [isFirstClose]

/-! ## Any number of uses -/

theorem after_frame (q : Queue α) (uses : List (Use α)) : (q.after uses).capacity = q.capacity ∧
    ((q.after uses).closed = true ↔ q.closed = true ∨ .close ∈ uses) ∧
    ((q.after uses).abandoned = true ↔ q.abandoned = true ∨ .abandon ∈ uses) := by
  induction uses generalizing q with
  | nil => simp [after]
  | cons use rest ih =>
      obtain ⟨room, closed, abandoned⟩ := ih (q.use use).2
      obtain ⟨same, closes, abandons⟩ := q.use_frame use
      refine ⟨room.trans same, closed.trans ?_, abandoned.trans ?_⟩
      · rw [closes, List.mem_cons, or_assoc]
      · rw [abandons, List.mem_cons, or_assoc]

theorem after_fits (fits : q.items.length ≤ q.capacity) (uses : List (Use α)) :
    (q.after uses).items.length ≤ (q.after uses).capacity := by
  induction uses generalizing q with
  | nil => exact fits
  | cons use rest ih => exact ih (use_fits fits use)

theorem log_waits (gone : q.abandoned = true) (uses : List (Use α)) :
    (q.log uses).flatMap taken = [] ∧ (q.log uses).flatMap accepted = [] := by
  induction uses generalizing q with
  | nil => exact ⟨rfl, rfl⟩
  | cons use rest ih =>
      obtain ⟨untaken, unaccepted⟩ := use_waits gone use
      have still : (q.use use).2.abandoned = true := (q.use_frame use).2.2.mpr (Or.inl gone)
      rw [log, List.flatMap_cons, List.flatMap_cons, untaken, unaccepted]
      exact ih still

/-- Items taken and items left are the initial ones followed by those accepted, in that order. -/
theorem taken_append_left (there : q.abandoned = false) (uses : List (Use α)) :
    (q.log uses).flatMap taken ++ q.left uses = q.items ++ (q.log uses).flatMap accepted := by
  induction uses generalizing q with
  | nil => simp [log, left]
  | cons use rest ih =>
      by_cases leaves : use = .abandon
      · subst leaves
        have gone : (q.use .abandon).2.abandoned = true := (q.use_frame .abandon).2.2.mpr (Or.inr rfl)
        obtain ⟨untaken, unaccepted⟩ := log_waits gone rest
        rw [log, List.flatMap_cons, List.flatMap_cons, untaken, unaccepted]
        simp [left, Queue.use, consume, there, taken, accepted]
      · have still : (q.use use).2.abandoned = false := by
          rw [← Bool.not_eq_true, (q.use_frame use).2.2, there]
          simp [Ne.symm leaves]
        rw [log, List.flatMap_cons, List.flatMap_cons, left_cons leaves, List.append_assoc, ih still,
          ← List.append_assoc, use_passes there leaves, List.append_assoc]

theorem left_eq (uses : List (Use α)) (stays : .abandon ∉ uses) : q.left uses = (q.after uses).items := by
  induction uses generalizing q with
  | nil => rfl
  | cons use rest ih =>
      rw [left_cons (Ne.symm (List.ne_of_not_mem_cons stays)), ih (List.not_mem_of_not_mem_cons stays)]
      rfl

theorem after_abandoned (empties : q.abandoned = true → q.items = []) (uses : List (Use α)) :
    (q.after uses).abandoned = true → (q.after uses).items = [] := by
  induction uses generalizing q with
  | nil => exact empties
  | cons use rest ih => exact ih (use_empties empties use)

theorem countP_isFirstClose (q : Queue α) (uses : List (Use α)) : (q.log uses).countP isFirstClose ≤ 1 ∧
    (0 < (q.log uses).countP isFirstClose ↔ .close ∈ uses ∧ q.closed = false) := by
  induction uses generalizing q with
  | nil => simp [log]
  | cons use rest ih =>
      obtain ⟨once, some_iff⟩ := ih (q.use use).2
      have first := q.isFirstClose_iff use
      have closes := (q.use_frame use).2.1
      rw [log, List.countP_cons]
      grind

/-! ## From the beginning -/

/-- A queue with room for `capacity` items, at least one, after some uses: items come out in the order
of acceptance and once each, a push is refused only when the queue is full or closed, the queue is
closed once, and its end is reported exactly when it is closed and empty. -/
structure IsFifo (capacity : Nat) (uses : List (Use α)) (log : List (Use α × Outcome α)) (q : Queue α) : Prop where
  passes : .abandon ∉ uses → log.flatMap taken ++ q.items = log.flatMap accepted
  forgoes : .abandon ∈ uses → q.items = [] ∧ log.flatMap taken ++ (make capacity).left uses = log.flatMap accepted
  fits : q.items.length ≤ max capacity 1
  length_eq : .abandon ∉ uses → (log.flatMap taken).length + q.length = (log.flatMap accepted).length
  refused : ∀ item, (q.push item).1 = .accepted ∨
    ((q.push item).1 = .full item ∨ (q.push item).1 = .closed item) ∧ (q.push item).2 = q
  full_iff : ∀ item, (q.push item).1 = .full item ↔
    .close ∉ uses ∧ .abandon ∉ uses ∧ q.items.length = max capacity 1
  closed_iff : ∀ item, (q.push item).1 = .closed item ↔ .close ∈ uses ∨ .abandon ∈ uses
  isClosed_iff : q.isClosed = true ↔ .close ∈ uses ∨ .abandon ∈ uses
  closes_once : .close ∈ uses → log.countP isFirstClose = 1
  closes_first : q.close.1 = true ↔ .close ∉ uses
  ended_iff : .abandon ∉ uses → (q.receive.1 = .ended ↔ .close ∈ uses ∧ log.flatMap taken = log.flatMap accepted)

/-- Under any sequence of uses a queue is first in, first out, bounded, and closed once. -/
theorem isFifo_make (capacity : Nat) (uses : List (Use α)) :
    IsFifo capacity uses ((make capacity).log uses) ((make capacity).after uses) := by
  obtain ⟨room, closed, abandoned⟩ := (make capacity : Queue α).after_frame uses
  have passes := taken_append_left (q := make capacity) rfl uses
  have waits := left_eq (q := make capacity) uses
  have empties := after_abandoned (q := make capacity) (fun gone => by cases gone) uses
  have fits := after_fits (q := make capacity) (Nat.zero_le _) uses
  obtain ⟨once, some_iff⟩ := (make capacity : Queue α).countP_isFirstClose uses
  have open_iff : ((make capacity : Queue α).after uses).isClosed = true ↔ .close ∈ uses ∨ .abandon ∈ uses := by
    rw [isClosed, Bool.or_eq_true, closed, abandoned]
    simp [make]
  generalize (make capacity : Queue α).log uses = log at *
  generalize (make capacity : Queue α).after uses = q at *
  replace room : q.capacity = max capacity 1 := room
  replace closed : q.closed = true ↔ .close ∈ uses := closed.trans (by simp [make])
  replace abandoned : q.abandoned = true ↔ .abandon ∈ uses := abandoned.trans (by simp [make])
  replace passes : log.flatMap taken ++ (make capacity).left uses = log.flatMap accepted := passes
  have passes_there (stays : .abandon ∉ uses) : log.flatMap taken ++ q.items = log.flatMap accepted := by
    rw [← waits stays, passes]
  constructor
  case passes => exact passes_there
  case forgoes => exact fun gone => ⟨empties (abandoned.mpr gone), passes⟩
  case fits => exact room ▸ fits
  case length_eq => exact fun stays => by rw [← passes_there stays, List.length_append, length]
  case refused => exact q.push_refused
  case full_iff =>
    intro item
    rw [push_full_iff, ← Bool.not_eq_true, open_iff, not_or, and_assoc, ← room]
    exact and_congr_right fun _ => and_congr_right fun _ => ⟨Nat.le_antisymm fits, fun full => Nat.le_of_eq full.symm⟩
  case closed_iff => exact fun item => (q.push_closed_iff item).trans open_iff
  case isClosed_iff => exact open_iff
  case closes_once => exact fun closes => Nat.le_antisymm once (some_iff.mpr ⟨closes, rfl⟩)
  case closes_first =>
    rw [← closed]
    simp [close]
  case ended_iff =>
    intro stays
    rw [receive_ended_iff, closed, ← passes_there stays, List.self_eq_append_right]

example :
    let uses : List (Use Nat) := [.push 1, .push 2, .receive, .push 3, .close, .push 4, .close, .receive, .receive]
    ((make 0).log uses).flatMap accepted = [1, 3] ∧ ((make 0).log uses).map (isFirstClose ·) =
      [false, false, false, false, true, false, false, false, false] ∧ ((make 0).after uses).receive.1 = .ended := by
  decide

end Chainwatch.Queue
