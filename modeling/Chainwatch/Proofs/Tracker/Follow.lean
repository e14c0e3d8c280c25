import Chainwatch.Proofs.Tracker.Outset

/-!
# Steps that advance a mark

The changes of a tracker that keep a run at its mark, and those of the watch and of the backfill that
advance it, in any interleaving with starts and stops.
-/

namespace Chainwatch

namespace Tracker

variable {S : Type} {t u v : Tracker S} {j : Nat}

/-- What a run depends on besides its tasks is unchanged, except that more may be cancelled. -/
structure KeepsRun (run : Nat) (t u : Tracker S) : Prop where
  store : u.ledger.store = t.ledger.store
  news : u.ledger.news = t.ledger.news
  settings : u.settings = t.settings
  startHeight : u.startHeight = t.startHeight
  runs : u.runs.length = t.runs.length
  first : u.first run = t.first run
  ceased : t.isOver run → u.isOver run

theorem KeepsRun.refl : KeepsRun j t t :=
  ⟨rfl, rfl, rfl, rfl, rfl, rfl, id⟩

theorem KeepsRun.trans (h : KeepsRun j t u) (g : KeepsRun j u v) : KeepsRun j t v where
  store := g.store.trans h.store
  news := g.news.trans h.news
  settings := g.settings.trans h.settings
  startHeight := g.startHeight.trans h.startHeight
  runs := g.runs.trans h.runs
  first := g.first.trans h.first
  ceased := g.ceased ∘ h.ceased

theorem KeepsRun.lives (h : KeepsRun j t u) (run : Nat) : u.lives run = t.lives run := by
  simp only [Tracker.lives, h.news]

theorem FaultFree.of_keepsRun {context : Context} (h : t.FaultFree context j) (keepsRun : t.KeepsRun j u)
    (sameOver : u.isOver j = t.isOver j) (cancelled : u.cancelled = t.cancelled) : u.FaultFree context j where
  running := sameOver.trans h.running
  wanted := by
    unfold isCancelled
    rw [cancelled]
    exact h.wanted
  met := by
    rw [keepsRun.first]
    exact h.met
  silent told := h.silent (keepsRun.news ▸ told)

theorem keepsRun_emit {signal : Signal} (plain : signal.isNews = false) : KeepsRun j t (t.emit signal) where
  store := rfl
  news := by simp [emit, Ledger.news_emit, plain]
  settings := rfl
  startHeight := rfl
  runs := rfl
  first := rfl
  ceased := id

theorem keepsRun_spawn (task : Task) : KeepsRun j t (t.spawn task).2 := by
  have appended : KeepsRun j t { t with tasks := t.tasks ++ [task] } :=
    ⟨rfl, rfl, rfl, rfl, rfl, rfl, fun ceased => ceased⟩
  exact appended.trans (keepsRun_emit rfl)

theorem first_modify {i : Nat} (f : Run → Run) (same : ∀ r, (f r).first = r.first) :
    first { t with runs := t.runs.modify i f } j = t.first j := by
  unfold first
  simp only [List.getElem?_modify]
  cases t.runs[j]? with
  | none => rfl
  | some r =>
      simp only [Option.map_eq_map, Option.map_some, Option.getD_some]
      split <;> simp [same]

theorem isOver_halted (halted : Nat) (ceased : t.isOver j) :
    isOver { t with runs := t.runs.modify halted fun r => { r with halted := true } } j := by
  unfold isOver isCancelled at ceased ⊢
  simp only [List.getElem?_modify]
  cases found : t.runs[j]? with
  | none => simp [found] at ceased
  | some r =>
      simp only [Option.map_eq_map, Option.map_some, Option.any_some]
      split
      · rfl
      · simpa [found] using ceased

theorem keepsRun_halt (halted : Nat) : KeepsRun j t (t.halt halted) := by
  have modified : KeepsRun j t { t with runs := t.runs.modify halted fun r => { r with halted := true } } :=
    ⟨rfl, rfl, rfl, rfl, List.length_modify .., first_modify _ fun _ => rfl, isOver_halted halted⟩
  exact modified.trans (keepsRun_emit rfl)

theorem keepsRun_beginStop : KeepsRun j t t.beginStop.2 := by
  have stopping : KeepsRun j t { t with status := .stopping } :=
    ⟨rfl, rfl, rfl, rfl, rfl, rfl, fun ceased => ceased⟩
  unfold beginStop
  cases t.token with
  | none => exact stopping.trans ⟨rfl, rfl, rfl, rfl, rfl, rfl, fun ceased => ceased⟩
  | some token =>
      exact (stopping.trans (keepsRun_halt token)).trans ⟨rfl, rfl, rfl, rfl, rfl, rfl, fun ceased => ceased⟩

theorem tasks_beginStop : t.beginStop.2.tasks = t.tasks := by
  unfold beginStop
  cases t.token <;> rfl

theorem keepsRun_rest : KeepsRun j t t.rest := by
  have rested : KeepsRun j t { t with status := .idle, rests := t.rests + 1 } :=
    ⟨rfl, rfl, rfl, rfl, rfl, rfl, fun ceased => ceased⟩
  exact rested.trans (keepsRun_emit rfl)

theorem keepsRun_join (tasks : List Nat) : KeepsRun j t (t.join tasks).2 ∧ (t.join tasks).2.tasks = t.tasks := by
  cases tasks with
  | nil => exact ⟨keepsRun_rest, rfl⟩
  | cons task rest => exact ⟨.refl, rfl⟩

theorem keepsRun_enterStop : KeepsRun j t t.enterStop.2 ∧ t.enterStop.2.tasks = t.tasks := by
  have begun : KeepsRun j t (t.beginStop.2.join t.beginStop.1).2 ∧
      (t.beginStop.2.join t.beginStop.1).2.tasks = t.tasks := by
    obtain ⟨keepsRun, tasks⟩ := keepsRun_join (t := t.beginStop.2) (j := j) t.beginStop.1
    exact ⟨keepsRun_beginStop.trans keepsRun, tasks.trans tasks_beginStop⟩
  unfold enterStop
  cases t.status with
  | idle => exact ⟨.refl, rfl⟩
  | stopping => exact ⟨.refl, rfl⟩
  | starting => exact begun
  | running => exact begun

theorem keepsRun_resumeStop? {point next : StopPoint} (moved : t.resumeStop? point = some (next, u)) :
    KeepsRun j t u ∧ u.tasks = t.tasks := by
  unfold resumeStop? at moved
  split at moved
  · have same : t.enterStop.2 = u := congrArg Prod.snd (Option.some.inj moved)
    exact same ▸ keepsRun_enterStop
  · have same : (t.join []).2 = u := congrArg Prod.snd (Option.some.inj moved)
    exact same ▸ keepsRun_join []
  · rename_i rest
    split at moved
    · have same : (t.join rest).2 = u := congrArg Prod.snd (Option.some.inj moved)
      exact same ▸ keepsRun_join rest
    · cases moved
  · split at moved <;> cases moved
    exact ⟨.refl, rfl⟩
  · cases moved

theorem keepsRun_stopInBackground (stopped : Nat) : KeepsRun j t (t.stopInBackground stopped) ∧
    ((t.stopInBackground stopped).tasks = t.tasks ∨
      ∃ point, (t.stopInBackground stopped).tasks = t.tasks ++ [.stopping point]) := by
  have begun : KeepsRun j t (t.beginStop.2.spawn (.stopping (.joining t.beginStop.1))).2 ∧
      (t.beginStop.2.spawn (.stopping (.joining t.beginStop.1))).2.tasks =
        t.tasks ++ [.stopping (.joining t.beginStop.1)] :=
    ⟨keepsRun_beginStop.trans (keepsRun_spawn _), congrArg (· ++ [_]) tasks_beginStop⟩
  unfold stopInBackground
  split
  · cases t.status with
    | idle => exact ⟨.refl, Or.inl rfl⟩
    | stopping => exact ⟨.refl, Or.inl rfl⟩
    | starting => exact ⟨begun.1, Or.inr ⟨_, begun.2⟩⟩
    | running => exact ⟨begun.1, Or.inr ⟨_, begun.2⟩⟩
  · exact ⟨.refl, Or.inl rfl⟩

theorem found_stopInBackground {id : Nat} {task : Task} (found : t.tasks[id]? = some task) (stopped : Nat) :
    (t.stopInBackground stopped).tasks[id]? = some task := by
  rcases keepsRun_stopInBackground (j := stopped) (t := t) stopped with ⟨-, same | ⟨point, appended⟩⟩
  · rw [same]
    exact found
  · rw [appended]
    exact found_append found _

theorem found_fail {id : Nat} {task : Task} (found : t.tasks[id]? = some task) (session : Session)
    (cause : TrackError) : (t.fail session cause).tasks[id]? = some task := by
  unfold fail
  split
  · exact found
  · exact found_stopInBackground (t := { t with ledger := { t.ledger with
      outlet := t.ledger.outlet.tellFailure session.run cause } }) found session.run

/-- Setting the first live block of a run changes nothing else. -/
structure SettleKeeps (t u : Tracker S) : Prop where
  store : u.ledger.store = t.ledger.store
  news : u.ledger.news = t.ledger.news
  tasks : u.tasks = t.tasks
  settings : u.settings = t.settings
  startHeight : u.startHeight = t.startHeight
  runs : u.runs.length = t.runs.length
  sameOver : ∀ run, u.isOver run = t.isOver run
  cancelled : u.cancelled = t.cancelled

theorem settleKeeps_settle (first : FirstBlock) : t.SettleKeeps (t.settle j first) := by
  have sameOver (run : Nat) : (t.settle j first).isOver run = t.isOver run := by
    rw [← isOver_life, life_settle, isOver_life]
  unfold settle at sameOver ⊢
  split
  · rename_i waits
    simp only [waits, if_true] at sameOver
    refine ⟨rfl, ?_, rfl, rfl, rfl, List.length_modify .., sameOver, rfl⟩
    exact (keepsRun_emit (j := j) (t := { t with runs := t.runs.modify j _ }) rfl).news
  · exact ⟨rfl, rfl, rfl, rfl, rfl, rfl, fun _ => rfl, rfl⟩

theorem SettleKeeps.lives (h : t.SettleKeeps u) (run : Nat) : u.lives run = t.lives run := by
  simp only [Tracker.lives, h.news]

theorem first_settle (bound : j < t.runs.length) (first : FirstBlock) :
    (t.settle j first).first j = if t.first j = .awaited then first else t.first j := by
  unfold settle
  split
  · simp [Tracker.first, emit, List.getElem?_eq_getElem bound]
  · rfl

/-- The run takes a live block: it is recorded, and it is the first of the run if that had none. -/
structure RecordsLive (run : Nat) (number : UInt64) (t u : Tracker S) : Prop where
  keeps : (t.emit (.live run number)).SettleKeeps u
  first : u.first run = if t.first run = .awaited then .arrived number else t.first run

theorem recordsLive_settle (bound : j < t.runs.length) (number : UInt64) :
    t.RecordsLive j number ((t.emit (.live j number)).settle j (.arrived number)) :=
  ⟨settleKeeps_settle _, first_settle (t := t.emit (.live j number)) bound _⟩

namespace RecordsLive

variable {number : UInt64}

theorem news (h : t.RecordsLive j number u) : u.ledger.news = t.ledger.news ++ [.live j number] := by
  rw [h.keeps.news, emit, Ledger.news_emit]
  rfl

theorem lives (h : t.RecordsLive j number u) : u.lives j = t.lives j ++ [number] := by
  simp [Tracker.lives, h.news, Signal.live?]

theorem head?_lives (h : t.RecordsLive j number u) {f : UInt64} (met : u.first j = .arrived f)
    (awaited : t.first j = .awaited → t.lives j = [])
    (arrived : t.first j = .arrived f → (t.lives j).head? = some f) : (u.lives j).head? = some f := by
  rw [h.first] at met
  rw [h.lives]
  split at met
  · rename_i waits
    cases met
    rw [awaited waits]
    rfl
  · rw [List.head?_append, arrived met]
    rfl

theorem not_awaited (h : t.RecordsLive j number u) : u.first j ≠ .awaited := by
  rw [h.first]
  split
  · exact nofun
  · assumption

theorem isSilent (h : t.RecordsLive j number u) (bound : j < t.runs.length) (silent : t.IsSilent) : u.IsSilent := by
  intro signal run mem told
  rw [h.news, List.mem_append, List.mem_singleton] at mem
  rw [h.keeps.runs]
  rcases mem with old | rfl
  · exact silent old told
  · cases told
    exact bound

theorem faultFree (h : t.RecordsLive j number u) {context : Context} (faultFree : t.FaultFree context j) :
    u.FaultFree context j := by
  obtain ⟨running, wanted, met, silent⟩ := faultFree
  constructor
  case running => exact (h.keeps.sameOver j).trans running
  case wanted =>
    unfold isCancelled
    rw [h.keeps.cancelled]
    exact wanted
  case met =>
    rw [h.first]
    split
    · exact nofun
    · exact met
  case silent =>
    intro cause mem
    rw [h.news, List.mem_append, List.mem_singleton] at mem
    rcases mem with old | other
    · exact silent old
    · cases other

end RecordsLive

theorem isOver_resting (life : t.life.Sound) (bound : j < t.runs.length)
    (still : t.status = .idle ∨ t.status = .stopping) : t.isOver j := by
  have bound : j < t.life.runs.length := by simpa [Tracker.life] using bound
  have found := List.getElem?_eq_getElem bound
  rcases life.halted found with halted | token
  · rw [← isOver_life, Life.isOver, found, Option.any_some, halted]
    rfl
  · rw [(life.resting still).1] at token
    cases token

theorem isOver_beginStop (life : t.life.Sound) (bound : j < t.runs.length) : t.beginStop.2.isOver j := by
  have bound : j < t.life.halt.runs.length := by
    rw [Life.length_halt]
    simpa [Tracker.life] using bound
  rw [← isOver_life, life_beginStop, Life.isOver, List.getElem?_eq_getElem bound, Option.any_some,
    life.halt_runs (List.getElem?_eq_getElem bound)]
  rfl

theorem isOver_fail (life : t.life.Sound) {session : Session} (latest : t.runs.length = session.run + 1)
    (cause : TrackError) : (t.fail session cause).isOver session.run := by
  unfold fail
  split
  · assumption
  · dsimp only
    generalize hu : ({ t with ledger := { t.ledger with
      outlet := t.ledger.outlet.tellFailure session.run cause } } : Tracker S) = u
    have same : u.life = t.life := by rw [← hu, life_ledger]
    have runs : u.runs = t.runs := by rw [← hu]
    have bound : session.run < u.runs.length := by rw [runs]; omega
    rw [← same] at life
    unfold stopInBackground
    rw [if_pos (by simp [isLatest, runs, latest])]
    cases hs : u.status with
    | idle => exact isOver_resting life bound (Or.inl hs)
    | stopping => exact isOver_resting life bound (Or.inr hs)
    | starting => exact (keepsRun_spawn _).ceased (isOver_beginStop life bound)
    | running => exact (keepsRun_spawn _).ceased (isOver_beginStop life bound)

end Tracker

/-! ## Marks -/

/-- One mark is at least as far as another. -/
structure Mark.Grows (m n : Mark) : Prop where
  pos : m.pos ≤ n.pos
  sweep : m.sweep ≠ none → n.sweep = m.sweep ∧ n.first = m.first

variable {S : Type} [BlockStore S] [LawfulStore S] {o : Outset S} {troubled : Prop} {busy : Option Nat}
  {t u : Tracker S} {m n k : Mark} {id : Nat} {lives more : List UInt64} {task : Task}

theorem Mark.Grows.refl : m.Grows m :=
  ⟨Nat.le_refl _, fun _ => ⟨rfl, rfl⟩⟩

theorem Mark.Grows.trans (h : m.Grows n) (g : n.Grows k) : m.Grows k := by
  refine ⟨Nat.le_trans h.pos g.pos, ?_⟩
  intro launched
  obtain ⟨sweep, first⟩ := h.sweep launched
  obtain ⟨sweep', first'⟩ := g.sweep (sweep ▸ launched)
  exact ⟨sweep'.trans sweep, first'.trans first⟩

theorem Mark.grows_seen (m : Mark) (seen : Nat) : m.Grows { m with seen } :=
  ⟨Nat.le_refl _, fun _ => ⟨rfl, rfl⟩⟩

theorem Mark.grows_done (m : Mark) (done : Nat) : m.Grows { m with done } :=
  ⟨Nat.le_refl _, fun _ => ⟨rfl, rfl⟩⟩

theorem Mark.grows_pos (m : Mark) {pos : Nat} (le : m.pos ≤ pos) : m.Grows { m with pos } :=
  ⟨le, fun _ => ⟨rfl, rfl⟩⟩

theorem Mark.Grows.isSwept (h : m.Grows n) (launched : m.sweep ≠ none) (swept : m.IsSwept) : n.IsSwept := by
  obtain ⟨-, first⟩ := h.sweep launched
  have pos := h.pos
  unfold Mark.IsSwept at swept ⊢
  omega

theorem Task.IsStarter.of_sweep (h : task.IsStarter m) (launched : m.sweep ≠ none → n.sweep ≠ none) :
    task.IsStarter n := by
  cases task with
  | ended outcome =>
      cases outcome with
      | ok _ => exact launched h
      | error _ => trivial
  | _ => exact h

/-- Progress of the watch does not affect the points of other tasks. -/
theorem Task.IsAt.of_watch (h : task.IsAt o troubled m lives id) (other : m.watch ≠ some id)
    (watch : n.watch = m.watch) (sweep : n.sweep = m.sweep) (pos : n.pos = m.pos)
    (first : m.sweep ≠ none → n.first = m.first) : task.IsAt o troubled n more id := by
  cases task with
  | starting context point =>
      obtain ⟨place, same, unswept, stands⟩ := h
      refine ⟨place, same, sweep.trans unswept, ?_⟩
      cases point with
      | launched => exact watch.trans stands
      | askingChain => exact watch.trans stands
      | readingHeight chain => exact ⟨watch.trans stands.1, stands.2⟩
      | awaitingFirst session lowest => exact stands
      | stopping reason point => exact stands
  | stopping point => exact h
  | watching session point => exact (other h.1).elim
  | sweeping session last point =>
      obtain ⟨place, same, bound, stands⟩ := h
      have known := first (by simp [place])
      refine ⟨sweep.trans place, same, known ▸ bound, ?_⟩
      cases point with
      | launched lowest => exact ⟨stands.1, pos.trans stands.2⟩
      | fetching number => exact ⟨stands.1, stands.2.1, stands.2.2.1, pos.trans stands.2.2.2⟩
      | working number work =>
          exact ⟨stands.1, stands.2.1, stands.2.2.1, stands.2.2.2.1, pos.trans stands.2.2.2.2⟩
  | ended outcome => trivial
  | crashed => trivial

theorem Task.IsAt.of_sweep {place pos : Nat} (h : task.IsAt o troubled m lives id)
    (sweep : m.sweep = some place) (other : id ≠ place) :
    task.IsAt o troubled { m with pos } lives id := by
  cases task with
  | starting context point =>
      have unswept := h.2.2.1
      rw [sweep] at unswept
      cases unswept
  | stopping point => exact h
  | watching session point =>
      obtain ⟨place, same, stands⟩ := h
      refine ⟨place, same, ?_⟩
      cases point <;> exact stands
  | sweeping session last point =>
      have here := h.1
      rw [sweep] at here
      exact (other (Option.some.inj here).symm).elim
  | ended outcome => trivial
  | crashed => trivial

theorem Task.IsAt.of_launch (h : task.IsAt o troubled m lives id) (other : id ≠ o.starter)
    (unlaunched : m.watch = none) (unswept : m.sweep = none) (watch : Option Nat) :
    task.IsAt o troubled { m with watch } lives id := by
  cases task with
  | starting context point => exact (other h.1).elim
  | stopping point => exact h
  | watching session point => cases unlaunched.symm.trans h.1
  | sweeping session last point => cases unswept.symm.trans h.1
  | ended outcome => trivial
  | crashed => trivial

theorem Task.IsAt.of_launchSweep (h : task.IsAt o troubled m lives id) (other : id ≠ o.starter)
    (unswept : m.sweep = none) (sweep : Option Nat) : task.IsAt o troubled { m with sweep } lives id := by
  cases task with
  | starting context point => exact (other h.1).elim
  | stopping point => exact h
  | watching session point =>
      obtain ⟨here, same, stands⟩ := h
      refine ⟨here, same, ?_⟩
      cases point <;> exact stands
  | sweeping session last point => cases unswept.symm.trans h.1
  | ended outcome => trivial
  | crashed => trivial

/-! ## Changes that keep a run at its mark -/

namespace RunAt

/-- A step that keeps what the run depends on preserves its invariant. -/
theorem keepsRun (h : RunAt o troubled busy t m) (keepsRun : t.KeepsRun o.run u)
    (kept : ∀ {id : Nat} {task : Task}, t.tasks[id]? = some task → u.tasks[id]? = some task)
    (new : ∀ {id : Nat} {task : Task}, u.tasks[id]? = some task →
      t.tasks[id]? = some task ∨ task.IsAt o troubled m (t.lives o.run) id)
    (faultFree : ¬troubled → u.FaultFree o.context o.run) : RunAt o troubled busy u m := by
  have lives := keepsRun.lives o.run
  constructor
  case storeAt =>
    rw [keepsRun.store, lives]
    exact h.storeAt
  case tasks =>
    intro id task free found
    rw [lives]
    rcases new found with old | stands
    · exact h.tasks free old
    · exact stands
  case starter =>
    obtain ⟨task, found, starter⟩ := h.starter
    exact ⟨task, kept found, starter⟩
  case early =>
    intro unlaunched
    rw [keepsRun.runs, keepsRun.store]
    exact h.early unlaunched
  case fixed =>
    rw [keepsRun.settings, keepsRun.startHeight]
    exact h.fixed
  case latest => exact fun launched => keepsRun.runs.trans (h.latest launched)
  case arrived =>
    intro first met
    rw [lives]
    exact h.arrived (keepsRun.first ▸ met)
  case awaited =>
    intro waits
    rw [lives]
    exact h.awaited (keepsRun.first ▸ waits)
  case silent =>
    intro signal run mem told
    rw [keepsRun.runs]
    exact h.silent (keepsRun.news ▸ mem) told
  case swept =>
    intro id place
    rcases h.swept place with ⟨session, last, point, found⟩ | ceased | swept
    · exact Or.inl ⟨session, last, point, kept found⟩
    · exact Or.inr (Or.inl (keepsRun.ceased ceased))
    · exact Or.inr (Or.inr swept)
  case faultFree => exact faultFree

theorem beside (h : RunAt o troubled busy t m) (keepsRun : t.KeepsRun o.run u) (tasks : u.tasks = t.tasks)
    (faultFree : ¬troubled → u.FaultFree o.context o.run) : RunAt o troubled busy u m :=
  h.keepsRun keepsRun (fun found => tasks ▸ found) (fun found => Or.inl (tasks ▸ found)) faultFree

theorem emit (h : RunAt o troubled busy t m) {signal : Signal} (plain : signal.isNews = false) :
    RunAt o troubled busy (t.emit signal) m :=
  h.beside (Tracker.keepsRun_emit plain) rfl fun faultFree =>
    (h.faultFree faultFree).of_keepsRun (Tracker.keepsRun_emit plain) rfl rfl

theorem join (h : RunAt o troubled busy t m) (trouble : troubled) (keepsRun : t.KeepsRun o.run u)
    (tasks : u.tasks = t.tasks ∨ ∃ point, u.tasks = t.tasks ++ [.stopping point]) :
    RunAt o troubled busy u m := by
  rcases tasks with same | ⟨point, appended⟩
  · exact h.beside keepsRun same fun faultFree => (faultFree trouble).elim
  · refine h.keepsRun keepsRun ?_ ?_ fun faultFree => (faultFree trouble).elim
    · intro id task found
      rw [appended]
      exact found_append found _
    · intro id task found
      rw [appended] at found
      rcases found_append_singleton found with old | ⟨-, rfl⟩
      · exact Or.inl old
      · exact Or.inr trouble

theorem tell (h : RunAt o troubled busy t m) (trouble : troubled) (launched : m.watch ≠ none)
    (cause : TrackError) : RunAt o troubled busy
      { t with ledger := { t.ledger with outlet := t.ledger.outlet.tellFailure o.run cause } } m := by
  have news : Ledger.news { t.ledger with outlet := t.ledger.outlet.tellFailure o.run cause } =
      t.ledger.news ++ [.failure o.run cause] := by
    simp [Ledger.news, Outlet.tellFailure, Outlet.emit, Signal.isNews]
  have lives : Tracker.lives
      { t with ledger := { t.ledger with outlet := t.ledger.outlet.tellFailure o.run cause } } o.run =
        t.lives o.run := by
    simp [Tracker.lives, news, Signal.live?]
  constructor
  case storeAt => exact lives.symm ▸ h.storeAt
  case tasks => exact lives.symm ▸ h.tasks
  case starter => exact h.starter
  case early => exact h.early
  case fixed => exact h.fixed
  case latest => exact h.latest
  case arrived => exact lives.symm ▸ h.arrived
  case awaited => exact lives.symm ▸ h.awaited
  case silent =>
    intro signal run mem told
    rw [news, List.mem_append, List.mem_singleton] at mem
    rcases mem with old | rfl
    · exact h.silent old told
    · have latest := h.latest launched
      cases told
      show o.run < t.runs.length
      omega
  case swept => exact h.swept
  case faultFree => exact fun faultFree => (faultFree trouble).elim

theorem fail (h : RunAt o troubled busy t m) (trouble : troubled) (launched : m.watch ≠ none)
    (cause : TrackError) : RunAt o troubled busy (t.fail o.session cause) m := by
  unfold Tracker.fail
  split
  · exact h
  · obtain ⟨keepsRun, tasks⟩ := Tracker.keepsRun_stopInBackground (j := o.run) (t := { t with ledger :=
      { t.ledger with outlet := t.ledger.outlet.tellFailure o.session.run cause } }) o.session.run
    exact (h.tell trouble launched cause).join trouble keepsRun tasks

/-- A busy task moves to another point. -/
theorem put (h : RunAt o troubled (some id) t m) {old : Task} (found : t.tasks[id]? = some old)
    (stands : task.IsAt o troubled m (t.lives o.run) id) (starter : id = o.starter → task.IsStarter m)
    (sweep : m.sweep = some id →
      (∃ session last point, task = .sweeping session last point) ∨ t.isOver o.run ∨ m.IsSwept) :
    RunAt o troubled none (t.put id task) m := by
  have here : (t.put id task).tasks[id]? = some task := Tracker.getElem?_tasks_put found
  constructor
  case storeAt => exact h.storeAt
  case tasks =>
    intro j other _ at_j
    by_cases same : j = id
    · subst same
      rw [here] at at_j
      cases at_j
      exact stands
    · rw [Tracker.getElem?_tasks_put_ne same] at at_j
      exact h.tasks (fun busy => same (Option.some.inj busy).symm) at_j
  case starter =>
    by_cases same : o.starter = id
    · exact ⟨task, same ▸ here, starter same.symm⟩
    · obtain ⟨first, at_start, starts⟩ := h.starter
      exact ⟨first, (Tracker.getElem?_tasks_put_ne same task).trans at_start, starts⟩
  case early => exact h.early
  case fixed => exact h.fixed
  case latest => exact h.latest
  case arrived => exact h.arrived
  case awaited => exact h.awaited
  case silent => exact h.silent
  case swept =>
    intro j place
    by_cases same : j = id
    · subst same
      rcases sweep place with ⟨session, last, point, rfl⟩ | rest
      · exact Or.inl ⟨session, last, point, here⟩
      · exact Or.inr rest
    · rcases h.swept place with ⟨session, last, point, sweeps⟩ | rest
      · exact Or.inl ⟨session, last, point, (Tracker.getElem?_tasks_put_ne same task).trans sweeps⟩
      · exact Or.inr rest
  case faultFree =>
    intro faultFree
    obtain ⟨running, wanted, met, silent⟩ := h.faultFree faultFree
    exact ⟨running, wanted, met, silent⟩

theorem lift (h : RunAt o troubled none t m) (id : Nat) : RunAt o troubled (some id) t m :=
  { h with tasks := fun _ => h.tasks (by simp) }

theorem ne_starter (h : RunAt o troubled busy t m) (found : t.tasks[id]? = some task)
    (other : ¬task.IsStarter m) : id ≠ o.starter := by
  intro h
  cases h
  obtain ⟨starter, at_start, starts⟩ := h.starter
  rw [found] at at_start
  cases at_start
  exact other starts

theorem swept_of_other (h : RunAt o troubled busy t m) (found : t.tasks[id]? = some task)
    (other : ∀ session last point, task ≠ .sweeping session last point) (place : m.sweep = some id) :
    t.isOver o.run ∨ m.IsSwept := by
  rcases h.swept place with ⟨session, last, point, sweeps⟩ | rest
  · rw [found] at sweeps
    exact (other _ _ _ (Option.some.inj sweeps)).elim
  · exact rest

/-- A busy task changes the ledger within what its mark covers. -/
theorem advance (h : RunAt o troubled (some id) t m) (launched : m.watch ≠ none) {ledger : Ledger S}
    (news : ledger.news = t.ledger.news) (storeAt : o.plan.StoreAt ledger.store (t.lives o.run) n)
    (watch : n.watch = m.watch) (sweep : n.sweep = m.sweep) (grows : m.Grows n)
    (others : ∀ {j : Nat} {task : Task}, j ≠ id → task.IsAt o troubled m (t.lives o.run) j →
      task.IsAt o troubled n (t.lives o.run) j) :
    RunAt o troubled (some id) { t with ledger } n := by
  have lives := Tracker.lives_ledger (t := t) news o.run
  constructor
  case storeAt => exact lives.symm ▸ storeAt
  case tasks =>
    intro j task free found
    rw [lives]
    exact others (fun same => free (congrArg some same.symm)) (h.tasks free found)
  case starter =>
    obtain ⟨task, found, starter⟩ := h.starter
    exact ⟨task, found, starter.of_sweep fun launched => sweep ▸ launched⟩
  case early => exact fun unlaunched => (launched (watch ▸ unlaunched)).elim
  case fixed => exact h.fixed
  case latest => exact fun _ => h.latest launched
  case arrived => exact lives.symm ▸ h.arrived
  case awaited => exact lives.symm ▸ h.awaited
  case silent => exact fun mem told => h.silent (news ▸ mem) told
  case swept =>
    intro j place
    rw [sweep] at place
    rcases h.swept place with going | ceased | swept
    · exact Or.inl going
    · exact Or.inr (Or.inl ceased)
    · exact Or.inr (Or.inr (grows.isSwept (by simp [place]) swept))
  case faultFree =>
    intro faultFree
    obtain ⟨running, wanted, met, silent⟩ := h.faultFree faultFree
    exact ⟨running, wanted, met, fun told => silent (news ▸ told)⟩

/-! ## The watch -/

section Watch

variable {session : Session} {point : WatchPoint}

theorem put_watch (h : RunAt o troubled (some id) t m)
    (found : t.tasks[id]? = some (.watching session point))
    (stands : task.IsAt o troubled m (t.lives o.run) id) : RunAt o troubled none (t.put id task) m :=
  h.put found stands (fun same => (h.ne_starter found (by simp [Task.IsStarter]) same).elim)
    fun place => Or.inr (h.swept_of_other found (by simp) place)

theorem settle_missed (h : RunAt o troubled busy t m) (trouble : troubled) (launched : m.watch ≠ none) :
    RunAt o troubled busy (t.settle o.run .missed) m := by
  have keeps : t.SettleKeeps (t.settle o.run .missed) := Tracker.settleKeeps_settle _
  have latest := h.latest launched
  have first := Tracker.first_settle (t := t) (j := o.run) (by omega) .missed
  have lives := keeps.lives o.run
  constructor
  case storeAt => rw [keeps.store, lives]; exact h.storeAt
  case tasks => rw [keeps.tasks, lives]; exact h.tasks
  case starter => rw [keeps.tasks]; exact h.starter
  case early => exact fun unlaunched => (launched unlaunched).elim
  case fixed => rw [keeps.settings, keeps.startHeight]; exact h.fixed
  case latest => exact fun launched => keeps.runs.trans (h.latest launched)
  case arrived =>
    intro number met
    rw [lives]
    rw [first] at met
    split at met
    · cases met
    · exact h.arrived met
  case awaited =>
    intro waits
    rw [first] at waits
    split at waits
    · cases waits
    · exact (‹¬_› waits).elim
  case silent =>
    intro signal run mem told
    rw [keeps.runs]
    exact h.silent (keeps.news ▸ mem) told
  case swept => rw [keeps.tasks, keeps.sameOver]; exact h.swept
  case faultFree => exact fun faultFree => (faultFree trouble).elim

theorem found_settle {first : FirstBlock} (found : t.tasks[id]? = some task) :
    (t.settle o.run first).tasks[id]? = some task := by
  rw [(Tracker.settleKeeps_settle (t := t) (j := o.run) first).tasks]
  exact found

theorem finishWatch (h : RunAt o troubled (some id) t m) (trouble : troubled) (launched : m.watch ≠ none)
    (found : t.tasks[id]? = some (.watching session point)) :
    RunAt o troubled none (t.finishWatch id o.session) m := by
  have stands : Task.IsAt o troubled m ((t.settle o.run .missed).lives o.run) id (.ended (.ok ())) := trivial
  exact ((h.settle_missed trouble launched).put_watch (found_settle found) stands).emit rfl

theorem failWatch (h : RunAt o troubled (some id) t m) (trouble : troubled) (launched : m.watch ≠ none)
    (found : t.tasks[id]? = some (.watching session point)) (cause : TrackError) :
    RunAt o troubled none (t.failWatch id o.session cause) m :=
  (h.fail trouble launched cause).finishWatch trouble launched (Tracker.found_fail found o.session cause)

theorem leaveWatch (h : RunAt o troubled (some id) t m) (trouble : troubled) (launched : m.watch ≠ none)
    (found : t.tasks[id]? = some (.watching session point)) :
    RunAt o troubled none (t.leaveWatch id o.session) m := by
  obtain ⟨keepsRun, tasks⟩ := Tracker.keepsRun_stopInBackground (j := o.run) (t := t) o.session.run
  exact (h.join trouble keepsRun tasks).finishWatch trouble launched
    (Tracker.found_stopInBackground found o.session.run)

/-- The watch changes the ledger within what its mark covers. -/
theorem watched (h : RunAt o troubled (some id) t m) (watch : m.watch = some id) {ledger : Ledger S}
    (news : ledger.news = t.ledger.news) (storeAt : o.plan.StoreAt ledger.store (t.lives o.run) n)
    (same : n.watch = m.watch ∧ n.sweep = m.sweep ∧ n.first = m.first ∧ n.pos = m.pos) :
    RunAt o troubled (some id) { t with ledger } n := by
  obtain ⟨same_watch, same_sweep, same_first, same_pos⟩ := same
  refine h.advance (by simp [watch]) news storeAt same_watch same_sweep
    ⟨Nat.le_of_eq same_pos.symm, fun _ => ⟨same_sweep, same_first⟩⟩ ?_
  intro j task other stands
  refine stands.of_watch ?_ same_watch same_sweep same_pos fun _ => same_first
  rw [watch]
  exact fun same => other (Option.some.inj same).symm

/-- Taking a live block preserves the invariant, with the mark `Mark.meet`. -/
theorem of_recordsLive (h : RunAt o troubled (some id) t m) (watch : m.watch = some id) {number : UInt64}
    (taken : t.RecordsLive o.run number u)
    (storeAt : o.plan.StoreAt t.ledger.store (t.lives o.run ++ [number]) (m.meet (t.lives o.run) number)) :
    RunAt o troubled (some id) u (m.meet (t.lives o.run) number) := by
  have launched : m.watch ≠ none := by simp [watch]
  have latest := h.latest launched
  have tasks : u.tasks = t.tasks := taken.keeps.tasks
  constructor
  case storeAt =>
    rw [taken.keeps.store, taken.lives]
    exact storeAt
  case tasks =>
    intro j task free found
    refine (h.tasks free (tasks ▸ found)).of_watch ?_ (m.meet_watch ..) (m.meet_sweep ..) (m.meet_pos ..)
      fun going => by rw [h.storeAt.meet_of_sweep going]
    rw [watch]
    exact free
  case starter =>
    obtain ⟨task, found, starter⟩ := h.starter
    rw [tasks]
    exact ⟨task, found, starter.of_sweep fun launched => (m.meet_sweep ..) ▸ launched⟩
  case early => exact fun unlaunched => (launched ((m.meet_watch ..) ▸ unlaunched)).elim
  case fixed =>
    rw [taken.keeps.settings, taken.keeps.startHeight]
    exact h.fixed
  case latest => exact fun _ => taken.keeps.runs.trans latest
  case arrived => exact fun met => taken.head?_lives met h.awaited h.arrived
  case awaited => exact fun waits => (taken.not_awaited waits).elim
  case silent => exact taken.isSilent (latest ▸ Nat.lt_succ_self _) h.silent
  case swept =>
    intro j place
    rw [m.meet_sweep] at place
    rw [tasks, taken.keeps.sameOver, h.storeAt.meet_of_sweep (by simp [place])]
    exact h.swept place
  case faultFree => exact fun faultFree => taken.faultFree (h.faultFree faultFree)

theorem recordsLive (h : RunAt o troubled busy t m) (launched : m.watch ≠ none) (number : UInt64) :
    t.RecordsLive o.run number ((t.emit (.live o.run number)).settle o.run (.arrived number)) :=
  Tracker.recordsLive_settle (by rw [h.latest launched]; exact Nat.lt_succ_self _) number

end Watch

/-! ## The backfill -/

section Sweep

variable {session : Session} {last : UInt64} {point : SweepPoint}

theorem launched_of_sweep (h : RunAt o troubled busy t m) (sweep : m.sweep = some id) : m.watch ≠ none := by
  intro unlaunched
  rw [(h.early unlaunched).1] at sweep
  cases sweep

theorem put_sweep (h : RunAt o troubled (some id) t m)
    (found : t.tasks[id]? = some (.sweeping session last point))
    (stands : task.IsAt o troubled m (t.lives o.run) id)
    (rest : (∃ session last point, task = .sweeping session last point) ∨ t.isOver o.run ∨ m.IsSwept) :
    RunAt o troubled none (t.put id task) m :=
  h.put found stands (fun same => (h.ne_starter found (by simp [Task.IsStarter]) same).elim) fun _ => rest

theorem finishSweep (h : RunAt o troubled (some id) t m)
    (found : t.tasks[id]? = some (.sweeping session last point)) (rest : t.isOver o.run ∨ m.IsSwept) :
    RunAt o troubled none (t.finishSweep id) m := by
  have stands : Task.IsAt o troubled m (t.lives o.run) id (.ended (.ok ())) := trivial
  exact (h.put_sweep found stands (Or.inr rest)).emit rfl

theorem failSweep (h : RunAt o troubled (some id) t m) (life : t.life.Sound) (trouble : troubled)
    (found : t.tasks[id]? = some (.sweeping session last point)) (sweep : m.sweep = some id)
    (cause : TrackError) : RunAt o troubled none (t.failSweep id o.session cause) m := by
  have launched := h.launched_of_sweep sweep
  have ceased : (t.fail o.session cause).isOver o.run := Tracker.isOver_fail life (h.latest launched) cause
  exact (h.fail trouble launched cause).finishSweep (Tracker.found_fail found o.session cause) (Or.inl ceased)

theorem swept_on (h : RunAt o troubled (some id) t m) (sweep : m.sweep = some id) {ledger : Ledger S}
    {pos : Nat} (news : ledger.news = t.ledger.news) (le : m.pos ≤ pos)
    (storeAt : o.plan.StoreAt ledger.store (t.lives o.run) { m with pos }) :
    RunAt o troubled (some id) { t with ledger } { m with pos } :=
  h.advance (h.launched_of_sweep sweep) news storeAt rfl rfl (m.grows_pos le)
    fun other stands => stands.of_sweep sweep other

end Sweep

end RunAt

end Chainwatch
