import Chainwatch.Proofs.Tracker.OneRun

/-!
# The current run

The run that a stop would cancel is the latest one, and while a tracker is stopping some task waits for
its loops. A run that is over stays over, and no loop is added to it.
-/

namespace Chainwatch

namespace Life

variable {l m n : Life} {id run : Nat} {role : Role}

/-! ## The run that a stop would cancel -/

/-- Only the latest run can still be cancelled, and while the tracker is stopping some task waits for
its loops. -/
structure TokenInvariant (l : Life) : Prop where
  latest : ∀ {run : Nat}, l.token = some run → run + 1 = l.runs.length
  joined : l.status = .stopping → ∃ (id : Nat) (tasks : List Nat), l.roles[id]? = some (.joining tasks)

theorem tokenInvariant_make : TokenInvariant ⟨.idle, none, [], [], [], []⟩ := by
  constructor <;> simp

theorem joined_setRole (joined : ∃ (i : Nat) (tasks : List Nat), l.roles[i]? = some (.joining tasks))
    (held : l.roles[id]? = some role)
    (free : ∀ tasks, role ≠ .joining tasks) (next : Role) :
    ∃ (i : Nat) (tasks : List Nat), (l.setRole id next).roles[i]? = some (.joining tasks) := by
  obtain ⟨i, tasks, found⟩ := joined
  have differ : i ≠ id := by
    rintro rfl
    exact free tasks (Option.some.inj (held.symm.trans found))
  exact ⟨i, tasks, (List.getElem?_set_ne (Ne.symm differ)).trans found⟩

theorem found_setRole (held : l.roles[id]? = some role) (next : Role) : (l.setRole id next).roles[id]? = some next := by
  simp [setRole, (List.getElem?_eq_some_iff.mp held).1]

theorem Steps.trans (h : l.Steps m) (g : m.Steps n) : l.Steps n := by
  induction g with
  | refl => exact h
  | tail _ step ih => exact ih.tail step

theorem TokenInvariant.step (h : l.TokenInvariant) (step : l.Step m) : m.TokenInvariant := by
  cases step with
  | enter =>
      refine ⟨h.latest, fun stopping => ?_⟩
      obtain ⟨i, tasks, found⟩ := h.joined stopping
      exact ⟨i, tasks, found_append found _⟩
  | cancel context => exact ⟨h.latest, h.joined⟩
  | claim idle free => exact ⟨h.latest, fun stopping => by cases stopping⟩
  | abandon held => exact ⟨h.latest, fun stopping => by cases stopping⟩
  | launch context held starting =>
      refine ⟨fun token => ?_, fun stopping => by cases starting.symm.trans stopping⟩
      cases token
      simp [Life.launch]
  | launchSweep held starting bound live => exact ⟨h.latest, fun stopping => by cases stopping⟩
  | leave held free => exact ⟨h.latest, fun stopping => joined_setRole (h.joined stopping) held free _⟩
  | halt active loops held free =>
      exact ⟨(fun token => by cases token), fun _ => ⟨_, _, found_setRole (l := l.halt) held _⟩⟩
  | stop active loops held free => exact ⟨(fun token => by cases token), fun stopping => by cases stopping⟩
  | haltBehind active live => exact ⟨(fun token => by cases token), fun _ => ⟨_, _, List.getElem?_concat_length⟩⟩
  | join joiner gone => exact ⟨h.latest, fun _ => ⟨_, _, found_setRole joiner _⟩⟩
  | rest joiner => exact ⟨h.latest, fun stopping => by cases stopping⟩

theorem TokenInvariant.steps (h : l.TokenInvariant) (steps : l.Steps m) : m.TokenInvariant := by
  induction steps with
  | refl => exact h
  | tail _ step ih => exact ih.step step

/-- A run that is not over and has a loop is the one that a stop would cancel. -/
theorem Sound.token_of_loop (h : l.Sound) (live : l.roles[id]? = some (.looping run)) (ceased : l.isOver run = false) :
    l.token = some run := by
  have found := List.getElem?_eq_getElem (h.known live)
  refine (h.halted found).resolve_left fun halted => ?_
  simp [isOver, found, halted] at ceased

/-! ## Runs that are ended -/

/-- One life precedes another: runs and cancellations are never undone. -/
structure Precedes (l m : Life) : Prop where
  cancelled : ∀ {context : Context}, context ∈ l.cancelled → context ∈ m.cancelled
  runs : ∀ {i : Nat} {r : Context × Bool}, l.runs[i]? = some r →
    ∃ halted, m.runs[i]? = some (r.1, halted) ∧ (r.2 = true → halted = true)

theorem precedes_of_same (cancelled : m.cancelled = l.cancelled) (runs : m.runs = l.runs) : l.Precedes m where
  cancelled mem := cancelled ▸ mem
  runs {_ r} found := ⟨r.2, runs ▸ found, id⟩

theorem Precedes.trans (h : l.Precedes m) (g : m.Precedes n) : l.Precedes n where
  cancelled mem := g.cancelled (h.cancelled mem)
  runs found := by
    obtain ⟨halted, found, kept⟩ := h.runs found
    obtain ⟨ceased, found, kept'⟩ := g.runs found
    exact ⟨ceased, found, kept' ∘ kept⟩

theorem Precedes.isOver (h : l.Precedes m) (ended : l.isOver run) : m.isOver run := by
  unfold Life.isOver at ended ⊢
  cases before : l.runs[run]? with
  | none => simp [before] at ended
  | some r =>
      obtain ⟨halted, found, kept⟩ := h.runs before
      simp only [before, Option.any_some, Bool.or_eq_true, List.contains_iff_mem] at ended
      simp only [found, Option.any_some, Bool.or_eq_true, List.contains_iff_mem]
      exact ended.imp kept h.cancelled

theorem Precedes.length (h : l.Precedes m) : l.runs.length ≤ m.runs.length := by
  refine Nat.le_of_not_lt fun shorter => ?_
  obtain ⟨halted, found, -⟩ := h.runs (List.getElem?_eq_getElem shorter)
  exact Nat.lt_irrefl _ (List.getElem?_eq_some_iff.mp found).1

theorem precedes_halt (l : Life) : l.Precedes l.halt where
  cancelled mem := mem
  runs {i r} found := by
    unfold halt
    cases l.token with
    | none => exact ⟨r.2, found, id⟩
    | some run =>
        simp only [List.getElem?_modify, found, Option.map_eq_map, Option.map_some]
        split
        · exact ⟨true, rfl, fun _ => rfl⟩
        · exact ⟨r.2, rfl, id⟩

theorem Step.precedes (step : l.Step m) : l.Precedes m := by
  cases step with
  | enter => exact precedes_of_same rfl rfl
  | cancel context => exact ⟨List.mem_cons_of_mem _, fun {_ r} found => ⟨r.2, found, id⟩⟩
  | claim idle free => exact precedes_of_same rfl rfl
  | abandon held => exact precedes_of_same rfl rfl
  | launch context held starting => exact ⟨id, fun {_ r} found => ⟨r.2, found_append found _, id⟩⟩
  | launchSweep held starting bound live => exact precedes_of_same rfl rfl
  | leave held free => exact precedes_of_same rfl rfl
  | halt active loops held free => exact (precedes_halt l).trans (precedes_of_same rfl rfl)
  | stop active loops held free => exact (precedes_halt l).trans (precedes_of_same rfl rfl)
  | haltBehind active live => exact (precedes_halt l).trans (precedes_of_same rfl rfl)
  | join joiner gone => exact precedes_of_same rfl rfl
  | rest joiner => exact precedes_of_same rfl rfl

theorem Steps.precedes (steps : l.Steps m) : l.Precedes m := by
  induction steps with
  | refl => exact precedes_of_same rfl rfl
  | tail before step ih => exact ih.trans step.precedes

/-! ## Loops that are launched -/

/-- A loop is launched by a start, for a new run or for one that is not over. -/
theorem Step.loop_cases (step : l.Step m) (found : m.roles[id]? = some (.looping run)) :
    l.roles[id]? = some (.looping run) ∨
      l.status = .starting ∧ (run < l.runs.length → l.isOver run = false) := by
  have played {k : Life} {other : Nat} {next : Role} (differ : next ≠ .looping run) (same : k.roles = l.roles)
      (found : (k.setRole other next).roles[id]? = some (.looping run)) : l.roles[id]? = some (.looping run) := by
    rcases roles_setRole found with ⟨-, new⟩ | ⟨-, old⟩
    · exact (differ new.symm).elim
    · exact same ▸ old
  cases step with
  | enter => exact Or.inl ((found_append_singleton found).resolve_right fun new => by cases new.2)
  | cancel context => exact Or.inl found
  | claim idle free => exact Or.inl (played (k := { l with status := .starting }) (by simp) rfl found)
  | abandon held => exact Or.inl (played (k := { l with status := .idle }) (by simp) rfl found)
  | launch context held starting =>
      rcases roles_setRole (l := { l with roles := l.roles ++ [.looping l.runs.length] }) found with ⟨-, new⟩ |
        ⟨-, found⟩
      · cases new
      · refine (found_append_singleton found).imp_right fun new => ⟨starting, fun bound => ?_⟩
        cases new.2
        exact (Nat.lt_irrefl _ bound).elim
  | launchSweep held starting bound live =>
      rename_i launched
      rcases roles_setRole (l := { l with roles := l.roles ++ [.looping launched] }) found with ⟨-, new⟩ | ⟨-, found⟩
      · cases new
      · refine (found_append_singleton found).imp_right fun new => ⟨starting, fun _ => ?_⟩
        cases new.2
        exact live
  | leave held free => exact Or.inl (played (by simp) rfl found)
  | halt active loops held free => exact Or.inl (played (k := l.halt) (by simp) rfl found)
  | stop active loops held free => exact Or.inl (played (k := l.halt.rest) (by simp) rfl found)
  | haltBehind active live => exact Or.inl ((found_append_singleton found).resolve_right fun new => by cases new.2)
  | join joiner gone => exact Or.inl (played (by simp) rfl found)
  | rest joiner => exact Or.inl (played (k := l.rest) (by simp) rfl found)

/-- No loop is added to a run that is over. -/
theorem Steps.loop_of_over (steps : l.Steps m) (bound : run < l.runs.length) (ended : l.isOver run)
    (found : m.roles[id]? = some (.looping run)) : l.roles[id]? = some (.looping run) := by
  induction steps with
  | refl => exact found
  | tail before step ih =>
      rcases step.loop_cases found with old | ⟨-, live⟩
      · exact ih old
      · have precedes := before.precedes
        cases (precedes.isOver ended).symm.trans (live (Nat.lt_of_lt_of_le bound precedes.length))

end Life

namespace Tracker

variable {S : Type} {t u : Tracker S} {id run : Nat}

theorem loopIsLive_iff : t.LoopIsLive id run ↔ t.life.roles[id]? = some (.looping run) := by
  refine ⟨role_of_loopIsLive, fun found => ?_⟩
  rw [life_roles] at found
  obtain ⟨task, here, role⟩ := Option.map_eq_some_iff.mp found
  cases task with
  | starting context point =>
      cases point with
      | stopping reason point => cases point <;> cases role
      | _ => cases role
  | stopping point => cases point <;> cases role
  | watching session point =>
      cases role
      exact Or.inl ⟨session, point, here, rfl⟩
  | sweeping session last point =>
      cases role
      exact Or.inr ⟨session, last, point, here, rfl⟩
  | ended outcome => cases role
  | crashed => cases role

variable [BlockStore S]

/-- A history in which no start takes the tracker from an undecided one is a sequence of life steps. -/
theorem steps_of_reaches (h : Reaches Orderly t u) : t.life.Steps u.life := by
  induction h with
  | refl => exact .refl
  | move _ orderly moved ih => exact ih.trans (steps_move? orderly moved)

end Tracker

end Chainwatch
