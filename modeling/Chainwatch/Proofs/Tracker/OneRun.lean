import Chainwatch.Proofs.Store.Nested
import Chainwatch.Proofs.Tracker.Lifecycle

/-!
# One run at a time

As long as no start takes the tracker while another is undecided, every run is cancelled or the one that a
stop would cancel, a stop waits for every loop, and a tracker at rest has none. A start that takes the
tracker from an undecided one breaks this: the later of the two to decide leaves an idle tracker with a
live loop.
-/

namespace Chainwatch

namespace Life

/-- At most one run is live, and a stop in progress waits for all of its loops. -/
structure Sound (l : Life) : Prop where
  known : ∀ {id run : Nat}, l.roles[id]? = some (.looping run) → run < l.runs.length
  halted : ∀ {run : Nat} {r : Context × Bool}, l.runs[run]? = some r → r.2 = true ∨ l.token = some run
  resting : l.status = .idle ∨ l.status = .stopping → l.token = none ∧ l.loops = []
  idle : l.status = .idle → ∀ {id run : Nat}, l.roles[id]? ≠ some (.looping run)
  waited : l.status = .starting ∨ l.status = .running →
    ∀ {id run : Nat}, l.roles[id]? = some (.looping run) → id ∈ l.loops
  joining : ∀ {id : Nat} {tasks : List Nat}, l.roles[id]? = some (.joining tasks) →
    l.status = .stopping ∧ ∀ {loop run : Nat}, l.roles[loop]? = some (.looping run) → loop ∈ tasks
  joiner : ∀ {i j : Nat} {tasks more : List Nat}, l.roles[i]? = some (.joining tasks) →
    l.roles[j]? = some (.joining more) → i = j
  undecided : ∀ {id : Nat}, l.roles[id]? = some .undecided →
    l.token = none ∧ l.loops = [] ∧ (l.status = .starting ∨ l.status = .idle) ∧
      ∀ {loop run : Nat}, l.roles[loop]? ≠ some (.looping run)
  decider : ∀ {i j : Nat}, l.roles[i]? = some .undecided → l.roles[j]? = some .undecided → i = j

variable {l : Life} {id : Nat} {role : Role}

theorem roles_setRole {j : Nat} {other : Role} (h : (l.setRole id role).roles[j]? = some other) :
    j = id ∧ other = role ∨ j ≠ id ∧ l.roles[j]? = some other := by
  simp only [setRole, List.getElem?_set] at h
  split at h
  · rename_i same
    split at h
    · exact Or.inl ⟨same.symm, (Option.some.inj h).symm⟩
    · cases h
  · rename_i differ
    exact Or.inr ⟨Ne.symm differ, h⟩

theorem sound_make : Sound ⟨.idle, none, [], [], [], []⟩ := by
  constructor <;> simp

theorem Sound.of_fewer {m : Life} (h : l.Sound) (status : m.status = l.status)
    (token : m.token = l.token) (loops : m.loops = l.loops) (runs : m.runs = l.runs)
    (fewer : ∀ {j : Nat} {other : Role}, m.roles[j]? = some other → other ≠ .inactive →
      l.roles[j]? = some other) : m.Sound where
  known loop := by
    rw [runs]
    exact h.known (fewer loop (by simp))
  halted run := by
    rw [runs] at run
    rw [token]
    exact h.halted run
  resting still := by
    rw [token, loops]
    exact h.resting (status ▸ still)
  idle still loop := fun live => h.idle (status ▸ still) (fewer live (by simp))
  waited active _ _ loop := by
    rw [loops]
    exact h.waited (status ▸ active) (fewer loop (by simp))
  joining joiner := by
    obtain ⟨stopping, all⟩ := h.joining (fewer joiner (by simp))
    exact ⟨status.trans stopping, fun loop => all (fewer loop (by simp))⟩
  joiner i j := h.joiner (fewer i (by simp)) (fewer j (by simp))
  undecided start := by
    obtain ⟨free, none, early, unlaunched⟩ := h.undecided (fewer start (by simp))
    rw [token, loops, status]
    exact ⟨free, none, early, fun loop => unlaunched (fewer loop (by simp))⟩
  decider i j := h.decider (fewer i (by simp)) (fewer j (by simp))

theorem Sound.enter (h : l.Sound) : Sound { l with roles := l.roles ++ [.inactive] } := by
  refine h.of_fewer rfl rfl rfl rfl ?_
  intro j other found busy
  rcases found_append_singleton found with found | ⟨-, rfl⟩
  · exact found
  · exact (busy rfl).elim

theorem Sound.leave (h : l.Sound) (id : Nat) : (l.setRole id .inactive).Sound := by
  refine h.of_fewer rfl rfl rfl rfl ?_
  intro j other found busy
  rcases roles_setRole found with ⟨-, rfl⟩ | ⟨-, found⟩
  · exact (busy rfl).elim
  · exact found

/-- No task joins while the tracker is not stopping. -/
theorem Sound.not_joining (h : l.Sound) (active : l.status ≠ .stopping) {tasks : List Nat} :
    l.roles[id]? ≠ some (.joining tasks) :=
  fun joiner => active (h.joining joiner).1

theorem Sound.claim (h : l.Sound) (idle : l.status = .idle) (free : Role.undecided ∉ l.roles) (id : Nat) :
    ({ l with status := .starting }.setRole id .undecided).Sound := by
  have undecided {j : Nat} : l.roles[j]? ≠ some .undecided :=
    fun found => free (List.mem_of_getElem? found)
  have loop {j run : Nat} (found : ({ l with status := .starting }.setRole id .undecided).roles[j]? =
      some (.looping run)) : False := by
    rcases roles_setRole found with ⟨-, other⟩ | ⟨-, found⟩
    · cases other
    · exact h.idle idle found
  have joins {j : Nat} {tasks : List Nat}
      (found : ({ l with status := .starting }.setRole id .undecided).roles[j]? = some (.joining tasks)) :
      False := by
    rcases roles_setRole found with ⟨-, other⟩ | ⟨-, found⟩
    · cases other
    · exact h.not_joining (by simp [idle]) found
  have start {j : Nat}
      (found : ({ l with status := .starting }.setRole id .undecided).roles[j]? = some .undecided) :
      j = id := by
    rcases roles_setRole found with ⟨same, -⟩ | ⟨-, found⟩
    · exact same
    · exact (undecided found).elim
  obtain ⟨token, loops⟩ := h.resting (Or.inl idle)
  constructor
  case known => exact fun found => (loop found).elim
  case halted => exact h.halted
  case resting => rintro (still | still) <;> cases still
  case idle => rintro ⟨⟩
  case waited => exact fun _ _ _ found => (loop found).elim
  case joining => exact fun found => (joins found).elim
  case joiner => exact fun found => (joins found).elim
  case undecided => exact fun _ => ⟨token, loops, Or.inl rfl, loop⟩
  case decider => exact fun i j => (start i).trans (start j).symm

theorem Sound.abandon (h : l.Sound) (held : l.roles[id]? = some .undecided) :
    ({ l with status := .idle }.setRole id .inactive).Sound := by
  obtain ⟨token, loops, early, unlaunched⟩ := h.undecided held
  have active : l.status ≠ .stopping := by
    rcases early with early | early <;> simp [early]
  have old {j : Nat} {other : Role} (busy : other ≠ .inactive)
      (found : ({ l with status := .idle }.setRole id .inactive).roles[j]? = some other) :
      j ≠ id ∧ l.roles[j]? = some other := by
    rcases roles_setRole found with ⟨-, rfl⟩ | found
    · exact (busy rfl).elim
    · exact found
  constructor
  case known => exact fun found => h.known (old (by simp) found).2
  case halted => exact h.halted
  case resting => exact fun _ => ⟨token, loops⟩
  case idle => exact fun _ _ _ found => unlaunched (old (by simp) found).2
  case waited => rintro (still | still) <;> cases still
  case joining => exact fun found => (h.not_joining active (old (by simp) found).2).elim
  case joiner => exact fun found => (h.not_joining active (old (by simp) found).2).elim
  case undecided =>
    intro j found
    obtain ⟨differ, found⟩ := old (by simp) found
    exact (differ (h.decider found held)).elim
  case decider => exact fun i j => h.decider (old (by simp) i).2 (old (by simp) j).2

/-- The launch of an undecided start makes the new run the one that a stop would cancel. -/
theorem Sound.launch (h : l.Sound) (held : l.roles[id]? = some .undecided) (starting : l.status = .starting)
    (context : Context) : (l.launch id context).Sound := by
  obtain ⟨token, loops, -, unlaunched⟩ := h.undecided held
  have active : l.status ≠ .stopping := by simp [starting]
  have cases {j : Nat} {other : Role} (found : (l.launch id context).roles[j]? = some other) :
      j = id ∧ other = .awaiting l.runs.length ∨ j ≠ id ∧ l.roles[j]? = some other ∨
        j = l.roles.length ∧ other = .looping l.runs.length := by
    rcases roles_setRole (l := { l with roles := l.roles ++ [.looping l.runs.length] }) found with
      found | ⟨differ, found⟩
    · exact Or.inl found
    · rcases found_append_singleton found with found | found
      · exact Or.inr (Or.inl ⟨differ, found⟩)
      · exact Or.inr (Or.inr found)
  have loop {j run : Nat} (found : (l.launch id context).roles[j]? = some (.looping run)) :
      j = l.roles.length ∧ run = l.runs.length := by
    rcases cases found with ⟨-, other⟩ | ⟨-, found⟩ | ⟨place, other⟩
    · cases other
    · exact (unlaunched found).elim
    · exact ⟨place, by injection other⟩
  have joins {j : Nat} {tasks : List Nat}
      (found : (l.launch id context).roles[j]? = some (.joining tasks)) : False := by
    rcases cases found with ⟨-, other⟩ | ⟨-, found⟩ | ⟨-, other⟩
    · cases other
    · exact h.not_joining active found
    · cases other
  have start {j : Nat} (found : (l.launch id context).roles[j]? = some .undecided) : False := by
    rcases cases found with ⟨-, other⟩ | ⟨differ, found⟩ | ⟨-, other⟩
    · cases other
    · exact differ (h.decider found held)
    · cases other
  constructor
  case known =>
    intro j run found
    rcases loop found with ⟨-, rfl⟩
    simp [Life.launch]
  case halted =>
    intro run r found
    by_cases old : run < l.runs.length
    · rw [Life.launch, List.getElem?_append_left old] at found
      rcases h.halted found with halted | other
      · exact Or.inl halted
      · rw [token] at other
        cases other
    · have bound := (List.getElem?_eq_some_iff.mp found).1
      simp only [Life.launch, List.length_append, List.length_singleton] at bound
      exact Or.inr (congrArg some (by omega))
  case resting => rintro (still | still) <;> cases starting.symm.trans still
  case idle => exact fun still => by cases starting.symm.trans still
  case waited =>
    intro _ j run found
    rcases loop found with ⟨rfl, -⟩
    exact List.mem_append_right _ List.mem_cons_self
  case joining => exact fun found => (joins found).elim
  case joiner => exact fun found => (joins found).elim
  case undecided => exact fun found => (start found).elim
  case decider => exact fun found => (start found).elim

/-- A backfill belongs to the run that a stop would cancel, as its watch does. -/
theorem Sound.launchSweep (h : l.Sound) {run : Nat} (starting : l.status = .starting)
    (live : l.isOver run = false) (bound : run < l.runs.length) : (l.launchSweep id run).Sound := by
  have active : l.status ≠ .stopping := by simp [starting]
  have token : l.token = some run := by
    have found := List.getElem?_eq_getElem bound
    rcases h.halted found with halted | token
    · simp [isOver, found, halted] at live
    · exact token
  have undecided {j : Nat} : l.roles[j]? ≠ some .undecided := by
    intro found
    have none := (h.undecided found).1
    rw [token] at none
    cases none
  have cases {j : Nat} {other : Role} (busy : other ≠ .inactive)
      (found : (l.launchSweep id run).roles[j]? = some other) :
      l.roles[j]? = some other ∨ j = l.roles.length ∧ other = .looping run := by
    rcases roles_setRole (l := { l with roles := l.roles ++ [.looping run] }) found with
      ⟨-, other⟩ | ⟨-, found⟩
    · exact (busy other).elim
    · exact found_append_singleton found
  have joins {j : Nat} {tasks : List Nat}
      (found : (l.launchSweep id run).roles[j]? = some (.joining tasks)) : False := by
    rcases cases (by simp) found with found | ⟨-, other⟩
    · exact h.not_joining active found
    · cases other
  have start {j : Nat} (found : (l.launchSweep id run).roles[j]? = some .undecided) : False := by
    rcases cases (by simp) found with found | ⟨-, other⟩
    · exact undecided found
    · cases other
  constructor
  case known =>
    intro j other found
    rcases cases (by simp) found with found | ⟨-, same⟩
    · exact h.known found
    · injection same with same
      exact same ▸ bound
  case halted => exact h.halted
  case resting => rintro (still | still) <;> cases still
  case idle => rintro ⟨⟩
  case waited =>
    intro _ j other found
    rcases cases (by simp) found with found | ⟨rfl, -⟩
    · exact List.mem_append_left _ (h.waited (Or.inl starting) found)
    · exact List.mem_append_right _ List.mem_cons_self
  case joining => exact fun found => (joins found).elim
  case joiner => exact fun found => (joins found).elim
  case undecided => exact fun found => (start found).elim
  case decider => exact fun found => (start found).elim

/-! ## Stopping -/

theorem length_halt (l : Life) : l.halt.runs.length = l.runs.length := by
  unfold halt
  cases l.token <;> simp

theorem Sound.halt_runs (h : l.Sound) {run : Nat} {r : Context × Bool}
    (found : l.halt.runs[run]? = some r) : r.2 = true := by
  unfold halt at found
  cases token : l.token with
  | none =>
      simp only [token] at found
      rcases h.halted found with halted | other
      · exact halted
      · rw [token] at other
        cases other
  | some current =>
      simp only [token, List.getElem?_modify] at found
      rcases Option.map_eq_some_iff.mp found with ⟨old, before, rfl⟩
      split
      · rfl
      · rename_i differ
        rcases h.halted before with halted | other
        · exact halted
        · rw [token] at other
          exact (differ (Option.some.inj other)).elim

theorem Sound.not_undecided (h : l.Sound) {loop run : Nat} (live : l.roles[loop]? = some (.looping run)) :
    l.roles[id]? ≠ some .undecided :=
  fun found => (h.undecided found).2.2.2 live

/-- After a halt with loops one new task waits for every loop. -/
theorem Sound.halt_joined {m : Life} (h : l.Sound) (joiner : Nat)
    (active : l.status = .starting ∨ l.status = .running) (still : m = { l.halt with roles := m.roles })
    (cases : ∀ {j : Nat} {other : Role}, m.roles[j]? = some other →
      j = joiner ∧ other = .joining l.loops ∨ l.roles[j]? = some other ∨ other = .inactive)
    (free : ∀ {j : Nat}, l.roles[j]? ≠ some .undecided) : m.Sound := by
  have unjoined : l.status ≠ .stopping := by rcases active with active | active <;> simp [active]
  have loop {j run : Nat} (found : m.roles[j]? = some (.looping run)) :
      l.roles[j]? = some (.looping run) := by
    rcases cases found with ⟨-, other⟩ | found | other
    · cases other
    · exact found
    · cases other
  have joins {j : Nat} {tasks : List Nat} (found : m.roles[j]? = some (.joining tasks)) :
      j = joiner ∧ tasks = l.loops := by
    rcases cases found with ⟨place, other⟩ | found | other
    · exact ⟨place, by injection other⟩
    · exact (h.not_joining unjoined found).elim
    · cases other
  have start {j : Nat} (found : m.roles[j]? = some .undecided) : False := by
    rcases cases found with ⟨-, other⟩ | found | other
    · cases other
    · exact free found
    · cases other
  have status : m.status = .stopping := by rw [still]; rfl
  constructor
  case known =>
    intro j run found
    rw [still]
    exact (length_halt l).symm ▸ h.known (loop found)
  case halted =>
    intro run r found
    rw [still] at found
    exact Or.inl (h.halt_runs found)
  case resting =>
    intro _
    rw [still]
    exact ⟨rfl, rfl⟩
  case idle => exact fun idle => by cases status.symm.trans idle
  case waited => rintro (other | other) <;> cases status.symm.trans other
  case joining =>
    intro j tasks found
    rcases joins found with ⟨-, rfl⟩
    exact ⟨status, fun found => h.waited active (loop found)⟩
  case joiner => exact fun i j => (joins i).1.trans (joins j).1.symm
  case undecided => exact fun found => (start found).elim
  case decider => exact fun found => (start found).elim

theorem Sound.halt (h : l.Sound) (active : l.status = .starting ∨ l.status = .running)
    (loops : l.loops ≠ []) (id : Nat) : (l.halt.setRole id (.joining l.loops)).Sound := by
  refine h.halt_joined id active rfl ?_ ?_
  · intro j other found
    rcases roles_setRole found with ⟨place, other⟩ | ⟨-, found⟩
    · exact Or.inl ⟨place, other⟩
    · exact Or.inr (Or.inl found)
  · exact fun found => loops (h.undecided found).2.1

theorem Sound.haltBehind (h : l.Sound) (active : l.status = .starting ∨ l.status = .running)
    {run : Nat} (live : l.roles[id]? = some (.looping run)) :
    Sound { l.halt with roles := l.roles ++ [.joining l.loops] } := by
  refine h.halt_joined l.roles.length active rfl ?_ (h.not_undecided live)
  intro j other found
  rcases found_append_singleton found with found | found
  · exact Or.inr (Or.inl found)
  · exact Or.inl found

theorem Sound.stop (h : l.Sound) (active : l.status = .starting ∨ l.status = .running)
    (loops : l.loops = []) (id : Nat) : (l.halt.rest.setRole id .inactive).Sound := by
  have unjoined : l.status ≠ .stopping := by rcases active with active | active <;> simp [active]
  have unlaunched {j run : Nat} : l.roles[j]? ≠ some (.looping run) := by
    intro found
    have waited := h.waited active found
    rw [loops] at waited
    cases waited
  have old {j : Nat} {other : Role} (busy : other ≠ .inactive)
      (found : (l.halt.rest.setRole id .inactive).roles[j]? = some other) : l.roles[j]? = some other := by
    rcases roles_setRole found with ⟨-, rfl⟩ | ⟨-, found⟩
    · exact (busy rfl).elim
    · exact found
  constructor
  case known => exact fun found => (unlaunched (old (by simp) found)).elim
  case halted => exact fun found => Or.inl (h.halt_runs found)
  case resting => exact fun _ => ⟨rfl, rfl⟩
  case idle => exact fun _ _ _ found => unlaunched (old (by simp) found)
  case waited => rintro (other | other) <;> cases other
  case joining => exact fun found => (h.not_joining unjoined (old (by simp) found)).elim
  case joiner => exact fun found => (h.not_joining unjoined (old (by simp) found)).elim
  case undecided =>
    exact fun _ => ⟨rfl, rfl, Or.inr rfl, fun found => unlaunched (old (by simp) found)⟩
  case decider => exact fun i j => h.decider (old (by simp) i) (old (by simp) j)

theorem Sound.join (h : l.Sound) {task : Nat} {tasks : List Nat}
    (joiner : l.roles[id]? = some (.joining (task :: tasks))) (gone : l.roles[task]? = some .inactive) :
    (l.setRole id (.joining tasks)).Sound := by
  obtain ⟨stopping, all⟩ := h.joining joiner
  have loop {j run : Nat} (found : (l.setRole id (.joining tasks)).roles[j]? = some (.looping run)) :
      l.roles[j]? = some (.looping run) := by
    rcases roles_setRole found with ⟨-, other⟩ | ⟨-, found⟩
    · cases other
    · exact found
  have joins {j : Nat} {more : List Nat}
      (found : (l.setRole id (.joining tasks)).roles[j]? = some (.joining more)) : j = id ∧ more = tasks := by
    rcases roles_setRole found with ⟨place, other⟩ | ⟨differ, found⟩
    · exact ⟨place, by injection other⟩
    · exact (differ (h.joiner found joiner)).elim
  have start {j : Nat} (found : (l.setRole id (.joining tasks)).roles[j]? = some .undecided) : False := by
    rcases roles_setRole found with ⟨-, other⟩ | ⟨-, found⟩
    · cases other
    · rcases (h.undecided found).2.2.1 with early | early <;> cases stopping.symm.trans early
  constructor
  case known => exact fun found => h.known (loop found)
  case halted => exact h.halted
  case resting => exact h.resting
  case idle => exact fun idle => by cases stopping.symm.trans idle
  case waited => exact fun active _ _ found => h.waited active (loop found)
  case joining =>
    intro j more found
    rcases joins found with ⟨-, rfl⟩
    refine ⟨stopping, ?_⟩
    intro k run found
    rcases List.mem_cons.mp (all (loop found)) with rfl | mem
    · cases gone.symm.trans (loop found)
    · exact mem
  case joiner => exact fun i j => (joins i).1.trans (joins j).1.symm
  case undecided => exact fun found => (start found).elim
  case decider => exact fun found => (start found).elim

theorem Sound.rest (h : l.Sound) (joiner : l.roles[id]? = some (.joining [])) :
    (l.rest.setRole id .inactive).Sound := by
  obtain ⟨stopping, all⟩ := h.joining joiner
  obtain ⟨token, loops⟩ := h.resting (Or.inr stopping)
  have unlaunched {j run : Nat} : l.roles[j]? ≠ some (.looping run) :=
    fun found => by cases all found
  have old {j : Nat} {other : Role} (busy : other ≠ .inactive)
      (found : (l.rest.setRole id .inactive).roles[j]? = some other) : j ≠ id ∧ l.roles[j]? = some other := by
    rcases roles_setRole found with ⟨-, rfl⟩ | found
    · exact (busy rfl).elim
    · exact found
  have start {j : Nat} (found : (l.rest.setRole id .inactive).roles[j]? = some .undecided) : False := by
    rcases (h.undecided (old (by simp) found).2).2.2.1 with early | early <;>
      cases stopping.symm.trans early
  have joins {j : Nat} {tasks : List Nat}
      (found : (l.rest.setRole id .inactive).roles[j]? = some (.joining tasks)) : False := by
    obtain ⟨differ, found⟩ := old (by simp) found
    exact differ (h.joiner found joiner)
  constructor
  case known => exact fun found => (unlaunched (old (by simp) found).2).elim
  case halted => exact h.halted
  case resting => exact fun _ => ⟨token, loops⟩
  case idle => exact fun _ _ _ found => unlaunched (old (by simp) found).2
  case waited => rintro (other | other) <;> cases other
  case joining => exact fun found => (joins found).elim
  case joiner => exact fun found => (joins found).elim
  case undecided => exact fun found => (start found).elim
  case decider => exact fun found => (start found).elim

theorem Sound.step {m : Life} (h : l.Sound) (step : l.Step m) : m.Sound := by
  cases step with
  | enter => exact h.enter
  | cancel context => exact h.of_fewer rfl rfl rfl rfl fun found _ => found
  | claim idle free => exact h.claim idle free _
  | abandon held => exact h.abandon held
  | launch context held starting => exact h.launch held starting context
  | launchSweep _ starting bound live => exact h.launchSweep starting live bound
  | leave _ _ => exact h.leave _
  | halt active loops _ _ => exact h.halt active loops _
  | stop active loops _ _ => exact h.stop active loops _
  | haltBehind active live => exact h.haltBehind active live
  | join joiner gone => exact h.join joiner gone
  | rest joiner => exact h.rest joiner

theorem Sound.steps {m : Life} (h : l.Sound) (steps : l.Steps m) : m.Sound := by
  induction steps with
  | refl => exact h
  | tail _ step ih => exact ih.step step

end Life

namespace Tracker

variable {S : Type} {t u : Tracker S}

/-- A watch of a run that has not ended. -/
def WatchIsLive (t : Tracker S) (id run : Nat) : Prop :=
  ∃ session point, t.tasks[id]? = some (.watching session point) ∧ session.run = run

/-- A watch or a backfill of a run that has not ended. -/
def LoopIsLive (t : Tracker S) (id run : Nat) : Prop :=
  t.WatchIsLive id run ∨
    ∃ session last point, t.tasks[id]? = some (.sweeping session last point) ∧ session.run = run

/-- One run at a time: live watches that are not cancelled belong to one run, a live loop belongs to a
cancelled run or to the one that a stop would cancel, and a tracker at rest has no live loop. -/
structure OneRun (t : Tracker S) : Prop where
  watch : ∀ {i j run other : Nat}, t.WatchIsLive i run → t.isOver run = false →
    t.WatchIsLive j other → t.isOver other = false → run = other
  governed : ∀ {id run : Nat}, t.LoopIsLive id run → t.isOver run ∨ t.token = some run
  idle : t.status = .idle → ∀ {id run : Nat}, ¬t.LoopIsLive id run

theorem role_of_loopIsLive {id run : Nat} (h : t.LoopIsLive id run) :
    t.life.roles[id]? = some (.looping run) := by
  rcases h with ⟨session, point, found, rfl⟩ | ⟨session, last, point, found, rfl⟩ <;>
    rw [life_roles, found] <;> rfl

theorem oneRun_of_sound (h : t.life.Sound) : t.OneRun := by
  have governed {id run : Nat} (live : t.LoopIsLive id run) : t.isOver run ∨ t.token = some run := by
    have bound := h.known (role_of_loopIsLive live)
    rcases h.halted (List.getElem?_eq_getElem bound) with halted | token
    · left
      rw [← isOver_life, Life.isOver, List.getElem?_eq_getElem bound, Option.any_some, halted]
      rfl
    · exact Or.inr token
  constructor
  case watch =>
    intro i j run other hi live hj live'
    have one := (governed (Or.inl hi)).resolve_left (by simp [live])
    have two := (governed (Or.inl hj)).resolve_left (by simp [live'])
    exact Option.some.inj (one.symm.trans two)
  case governed => exact governed
  case idle => exact fun idle _ _ live => h.idle idle (role_of_loopIsLive live)

variable [BlockStore S]

theorem life_sound_of_orderly (settings : TrackerSettings) (store : S)
    (h : Reaches Orderly (make settings store) t) : t.life.Sound :=
  h.invariant (P := fun t => t.life.Sound) Life.sound_make
    fun sound orderly moved => sound.steps (steps_move? orderly moved)

end Tracker

/-! ## Overlapping starts -/

namespace Tracker

variable {S : Type} {t u : Tracker S}

theorem getElem?_tasks_put {id : Nat} {task other : Task} (h : t.tasks[id]? = some other) :
    (t.put id task).tasks[id]? = some task := by
  simp [put, (List.getElem?_eq_some_iff.mp h).1]

theorem getElem?_tasks_put_ne {i id : Nat} (h : i ≠ id) (task : Task) :
    (t.put id task).tasks[i]? = t.tasks[i]? :=
  List.getElem?_set_ne (Ne.symm h)

theorem launch_tasks {id : Nat} {task : Task} (context : Context) (chain height : UInt64)
    (starting : t.status = .starting) (h : t.tasks[id]? = some task) :
    (t.launch id context chain height).WatchIsLive t.tasks.length t.runs.length ∧
      ∀ {i : Nat} {other : Task}, i ≠ id → t.tasks[i]? = some other →
        (t.launch id context chain height).tasks[i]? = some other := by
  have bound := (List.getElem?_eq_some_iff.mp h).1
  have tasks : (t.launch id context chain height).tasks =
      (t.tasks ++ [Task.watching ⟨t.runs.length, chain, t.settings.threshold chain⟩ .launched]).set id
        (.starting context (.awaitingFirst ⟨t.runs.length, chain, t.settings.threshold chain⟩
          (resumeHeight t.startHeight height))) := by
    unfold launch
    rw [if_pos starting]
    rfl
  constructor
  · refine ⟨⟨t.runs.length, chain, t.settings.threshold chain⟩, .launched, ?_, rfl⟩
    rw [tasks, List.getElem?_set_ne (Nat.ne_of_lt bound)]
    simp
  · intro i other differ found
    rw [tasks, List.getElem?_set_ne (Ne.symm differ)]
    exact found_append found _

variable [BlockStore S]

theorem abandon_undecided {i : Nat} (held : t.life.roles[i]? = some .undecided) :
    ∃ answer cause, t.Orderly (.resume i answer) ∧
      t.resume? i answer = some (t.abandonStart i cause) := by
  rw [life_roles] at held
  obtain ⟨task, found, role⟩ := Option.map_eq_some_iff.mp held
  cases task with
  | starting context point =>
      cases point with
      | askingChain =>
          exact ⟨.chain (.error .cancelled), .cancelled, trivial, by simp [resume?, found, resumeStart?]⟩
      | readingHeight chain =>
          exact ⟨.stored (some .cancelled), .cancelled, trivial, by
            simp [resume?, found, resumeStart?, Ledger.height]⟩
      | stopping reason point => cases point <;> simp [Task.role, StopPoint.role] at role
      | _ => simp [Task.role] at role
  | stopping point => cases point <;> simp [Task.role, StopPoint.role] at role
  | _ => simp [Task.role] at role

/-- The only moves that break the rule are starts that take the tracker from an undecided one. -/
theorem claims_of_not_orderly {m : Move} (overlap : ¬t.Orderly m) (moved : t.move? m = some u) :
    ∃ (id : Nat) (context : Context) (i : Nat), m = .resume id .go ∧
      t.tasks[id]? = some (.starting context .launched) ∧ t.status = .idle ∧ t.life.roles[i]? = some .undecided ∧
      u = ({ t with status := .starting }.emit (.asked .chainId)).put id (.starting context .askingChain) := by
  unfold Orderly at overlap
  split at overlap
  · rename_i id
    simp only [Classical.not_imp, Classical.not_not] at overlap
    obtain ⟨⟨context, found⟩, idle, held⟩ := overlap
    obtain ⟨i, held⟩ := List.mem_iff_getElem?.mp held
    simp only [move?, resume?, found, resumeStart?, idle, if_true, Option.some.injEq] at moved
    exact ⟨id, context, i, rfl, found, idle, held, moved.symm⟩
  · exact (overlap trivial).elim

variable [LawfulStore S]

/-- After a start that takes the tracker from an undecided one, some continuation ends with an idle
tracker over a live watch. -/
theorem overlap_breaks {m : Move} (overlap : ¬t.Orderly m) (moved : t.move? m = some u) :
    ∃ v, Reaches Orderly u v ∧ ¬v.OneRun := by
  obtain ⟨id, context, i, rfl, found, idle, held, claimed⟩ := claims_of_not_orderly overlap moved
  have differ : i ≠ id := by
    intro h
    cases h
    rw [life_roles, found] at held
    cases held
  rw [life_roles] at held
  obtain ⟨task, undecided, role⟩ := Option.map_eq_some_iff.mp held
  have starting : u.status = .starting := by rw [claimed]; rfl
  have asking : u.tasks[id]? = some (.starting context .askingChain) := by
    rw [claimed]
    exact getElem?_tasks_put (t := { t with status := .starting }.emit (.asked .chainId)) found
  have waiting : u.tasks[i]? = some task := by
    rw [claimed, getElem?_tasks_put_ne differ]
    exact undecided
  -- the later start gets its answers first and launches a watch
  obtain ⟨height, stored⟩ := LawfulStore.height_ok u.ledger.store 0
  let v := u.put id (.starting context (.readingHeight 0))
  have reading : v.tasks[id]? = some (.starting context (.readingHeight 0)) := getElem?_tasks_put asking
  have asked : u.move? (.resume id (.chain (.ok 0))) = some v := by
    simp only [move?, resume?, asking, resumeStart?]
    rfl
  have read : v.move? (.resume id (.stored none)) = some (v.launch id context 0 height) := by
    have answer : v.ledger.height none 0 = .ok height := stored
    simp only [move?, resume?, reading, resumeStart?, answer]
  obtain ⟨live, kept⟩ := launch_tasks (t := v) context 0 height starting reading
  -- then the earlier one fails
  have still : (v.launch id context 0 height).life.roles[i]? = some .undecided := by
    rw [life_roles, kept differ ((getElem?_tasks_put_ne differ _).trans waiting)]
    exact congrArg some role
  obtain ⟨answer, cause, orderly, abandoned⟩ := abandon_undecided still
  have answered : Reaches Orderly u v := .move (m := .resume id (.chain (.ok 0))) .refl trivial asked
  have launched := Reaches.move (m := .resume id (.stored none)) answered trivial read
  refine ⟨_, launched.move orderly abandoned, ?_⟩
  intro one
  obtain ⟨session, point, watch, -⟩ := live
  have bound := (List.getElem?_eq_some_iff.mp waiting).1
  have other : v.tasks.length ≠ i := by
    have same : v.tasks.length = u.tasks.length := List.length_set
    omega
  refine one.idle rfl (show LoopIsLive _ v.tasks.length _ from Or.inl ⟨session, point, ?_, rfl⟩)
  exact (getElem?_tasks_put_ne (t := { v.launch id context 0 height with status := .idle }) other _).trans watch

/-- After a history in which no start took the tracker from an undecided one there is one run at a time,
and the next move preserves this in every continuation exactly if it does not do that either. -/
theorem oneRun_iff_orderly {settings : TrackerSettings} {store : S} {m : Move}
    (history : Reaches Orderly (make settings store) t) (moved : t.move? m = some u) :
    t.OneRun ∧ (t.Orderly m ↔ ∀ v, Reaches Orderly u v → v.OneRun) := by
  refine ⟨oneRun_of_sound (life_sound_of_orderly settings store history), ?_, ?_⟩
  · intro orderly v rest
    exact oneRun_of_sound (life_sound_of_orderly settings store ((history.move orderly moved).trans rest))
  · intro kept
    by_cases orderly : t.Orderly m
    · exact orderly
    · obtain ⟨v, rest, broken⟩ := overlap_breaks orderly moved
      exact (broken (kept v rest)).elim

/-- A run is launched and stopped before its first live block, and the tracker is idle when the next
start is called. -/
def restartedMoves : List Move :=
  [.start "a", .resume 0 .go, .resume 0 (.chain (.ok 1)), .resume 0 (.stored none), .resume 1 .go, .stop,
    .resume 2 .go, .resume 1 (.subscribed (.ok ())), .resume 1 .go, .resume 0 .go, .resume 2 .go, .resume 0 .go,
    .start "b"]

theorem oneRun_iff_orderly_restart :
    ∃ t u : Tracker NestedStore, (make {} NestedStore.empty).trial? isOrderly restartedMoves = some t ∧
      t.move? (.resume 3 .go) = some u ∧ t.runs.length = 1 ∧ t.rests = 1 ∧ u.status = .starting ∧
      t.OneRun ∧ (t.Orderly (.resume 3 .go) ↔ ∀ v, Reaches Orderly u v → v.OneRun) := by
  have shape : ((make {} NestedStore.empty).trial? isOrderly restartedMoves).bind (fun t =>
      (t.move? (.resume 3 .go)).map fun u => (t.runs.length, t.rests, u.status)) = some (1, 1, .starting) := rfl
  obtain ⟨t, tried, moved⟩ := Option.bind_eq_some_iff.mp shape
  obtain ⟨u, moved, at_end⟩ := Option.map_eq_some_iff.mp moved
  simp only [Prod.mk.injEq] at at_end
  obtain ⟨runs, rests, starting⟩ := at_end
  have history := reaches_of_trial? orderly_of_isOrderly tried
  exact ⟨t, u, tried, moved, runs, rests, starting, oneRun_iff_orderly history moved⟩

/-- A start whose chain id is answered late, a stop, and another start: both find the tracker starting. -/
def overlappedMoves : List Move :=
  [.start "a", .resume 0 .go, .stop, .resume 1 .go, .start "b", .resume 2 .go,
    .resume 0 (.chain (.ok 1)), .resume 0 (.stored none),
    .resume 2 (.chain (.ok 1)), .resume 2 (.stored none)]

/-- Two watches are live and not cancelled, and a stop would cancel one of them. -/
theorem overlapped_not_oneRun :
    ∃ t, Reaches AnyMove (make {} NestedStore.empty) t ∧ ¬t.OneRun := by
  have shape : ((make {} NestedStore.empty).moves? overlappedMoves).map
      (fun t => (t.life, t.tasks[3]?, t.tasks[4]?)) =
      some (⟨.starting, some 1, [3, 4], [("a", false), ("b", false)], [],
          [.awaiting 0, .inactive, .awaiting 1, .looping 0, .looping 1]⟩,
        some (.watching ⟨0, 1, Policy.builtin.threshold 1 .fast⟩ .launched),
        some (.watching ⟨1, 1, Policy.builtin.threshold 1 .fast⟩ .launched)) := rfl
  obtain ⟨t, moved, at_end⟩ := Option.map_eq_some_iff.mp shape
  simp only [Prod.mk.injEq] at at_end
  obtain ⟨life, first, second⟩ := at_end
  refine ⟨t, reaches_of_moves? moved, ?_⟩
  intro one
  have same := one.watch (i := 3) (j := 4) ⟨_, _, first, rfl⟩ (by rw [← isOver_life, life]; rfl)
    ⟨_, _, second, rfl⟩ (by rw [← isOver_life, life]; rfl)
  cases same

end Tracker

end Chainwatch
