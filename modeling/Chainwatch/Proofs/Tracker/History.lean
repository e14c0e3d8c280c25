import Chainwatch.Tracker.Step

/-!
# Histories of a tracker

A tracker is moved by its owners, who start, stop and subscribe, by contexts that are cancelled, and by
its own tasks, which get answers in any order. A history is any number of moves that a rule allows; with
no rule it is every interleaving of every number of callers.
-/

namespace Chainwatch

section Lists

variable {α : Type} {xs : List α} {i : Nat} {a : α}

theorem found_append (found : xs[i]? = some a) (ys : List α) : (xs ++ ys)[i]? = some a :=
  (List.getElem?_append_left (List.getElem?_eq_some_iff.mp found).1).trans found

theorem found_append_singleton {b : α} (found : (xs ++ [b])[i]? = some a) :
    xs[i]? = some a ∨ i = xs.length ∧ a = b := by
  by_cases below : i < xs.length
  · exact Or.inl ((List.getElem?_append_left below).symm.trans found)
  · rw [List.getElem?_append_right (Nat.le_of_not_lt below)] at found
    rcases List.getElem?_eq_some_iff.mp found with ⟨bound, rfl⟩
    simp only [List.length_singleton, Nat.lt_one_iff] at bound
    exact Or.inr ⟨by omega, by simp [bound]⟩

theorem found_append_cases {ys : List α} (found : (xs ++ ys)[i]? = some a) : xs[i]? = some a ∨ a ∈ ys := by
  by_cases old : i < xs.length
  · exact Or.inl ((List.getElem?_append_left old).symm.trans found)
  · rw [List.getElem?_append_right (Nat.le_of_not_lt old)] at found
    exact Or.inr (List.mem_of_getElem? found)

end Lists

/-- An event in the life of a tracker. -/
inductive Move where
  | start (context : Context)
  | stop
  | cancel (context : Context)
  | setHeight (height : UInt64)
  | resubscribe (dispatcher : Dispatcher)
  | resume (task : Nat) (answer : Answer)

namespace Tracker

variable {S : Type} [BlockStore S]

/-- The tracker after a move; `none` if the move is impossible. -/
def move? (t : Tracker S) : Move → Option (Tracker S)
  | .start context => some (t.start context).2
  | .stop => some t.stop.2
  | .cancel context => some (t.cancel context)
  | .setHeight height => some (t.setHeight height).2
  | .resubscribe dispatcher => some (t.withDispatcher dispatcher)
  | .resume task answer => t.resume? task answer

def moves? (t : Tracker S) (moves : List Move) : Option (Tracker S) :=
  moves.foldlM move? t

/-- A history from one tracker to another, each of whose moves satisfies a rule. -/
inductive Reaches (allowed : Tracker S → Move → Prop) (start : Tracker S) : Tracker S → Prop where
  | refl : Reaches allowed start start
  | move {t u : Tracker S} {m : Move} :
      Reaches allowed start t → allowed t m → t.move? m = some u → Reaches allowed start u

def AnyMove (_ : Tracker S) (_ : Move) : Prop := True

variable {allowed : Tracker S → Move → Prop} {t u v : Tracker S}

theorem Reaches.trans (h : Reaches allowed t u) (g : Reaches allowed u v) : Reaches allowed t v := by
  induction g with
  | refl => exact h
  | move _ ok moved ih => exact .move ih ok moved

/-- A property that holds at first and is preserved by every allowed move holds throughout a history. -/
theorem Reaches.invariant {P : Tracker S → Prop} (h : Reaches allowed t u) (first : P t)
    (kept : ∀ {v w : Tracker S} {m : Move}, P v → allowed v m → v.move? m = some w → P w) : P u := by
  induction h with
  | refl => exact first
  | move _ ok moved ih => exact kept ih ok moved

def trial? (check : Tracker S → Move → Bool) (t : Tracker S) (moves : List Move) : Option (Tracker S) :=
  moves.foldlM (fun t m => if check t m then t.move? m else none) t

theorem reaches_of_trial? {check : Tracker S → Move → Bool} {moves : List Move}
    (sound : ∀ {t : Tracker S} {m : Move}, check t m → allowed t m) (h : t.trial? check moves = some u) :
    Reaches allowed t u := by
  induction moves generalizing t with
  | nil =>
      cases h
      exact .refl
  | cons m moves ih =>
      simp only [trial?, List.foldlM_cons, Option.bind_eq_bind, Option.bind_eq_some_iff] at h
      obtain ⟨v, first, rest⟩ := h
      split at first
      · rename_i passed
        exact Reaches.trans (.move .refl (sound passed) first) (ih rest)
      · cases first

theorem reaches_of_moves? {moves : List Move} (h : t.moves? moves = some u) : Reaches AnyMove t u := by
  have checked : t.trial? (fun _ _ => true) moves = some u := by simpa [trial?, moves?] using h
  exact reaches_of_trial? (fun _ => trivial) checked

/-! ## Trackers one after another -/

/-- A fresh tracker over the store of another, with the record of earlier notices. -/
def reopen (t : Tracker S) (settings : TrackerSettings) : Tracker S :=
  let fresh := make settings t.ledger.store
  { fresh with ledger.outlet.signals := t.ledger.outlet.signals }

/-- A history in which the tracker may also be replaced by a fresh one with admissible settings. -/
inductive History (allowed : Tracker S → Move → Prop) (fits : TrackerSettings → Prop) (start : Tracker S) :
    Tracker S → Prop where
  | refl : History allowed fits start start
  | move {t u : Tracker S} {m : Move} :
      History allowed fits start t → allowed t m → t.move? m = some u → History allowed fits start u
  | reopen {t : Tracker S} {settings : TrackerSettings} :
      History allowed fits start t → fits settings → History allowed fits start (t.reopen settings)

theorem Reaches.toHistory {fits : TrackerSettings → Prop} (h : Reaches allowed t u) :
    History allowed fits t u := by
  induction h with
  | refl => exact .refl
  | move _ ok moved ih => exact .move ih ok moved

end Tracker

end Chainwatch
