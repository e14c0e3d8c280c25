import Chainwatch.Proofs.Tracker.Follow

/-!
# The first live block of a run

The first live block of a run is set by its watch only, and only once.
-/

namespace Chainwatch

namespace Tracker

variable {S : Type} {t u : Tracker S} {id j : Nat} {session : Session} {last : UInt64}

theorem first_settle_cases (settled : Nat) (first : FirstBlock) :
    (t.settle settled first).first j = t.first j ∨
      t.first j = .awaited ∧ (t.settle settled first).first j = first := by
  unfold settle
  split
  case isFalse => exact Or.inl rfl
  case isTrue waits =>
    by_cases same : settled = j
    · subst same
      by_cases bound : settled < t.runs.length
      · have known := t.first_settle bound first
        rw [settle, if_pos waits, if_pos waits] at known
        exact Or.inr ⟨waits, known⟩
      · left
        simp [Tracker.first, emit, List.getElem?_eq_none (Nat.le_of_not_lt bound)]
    · left
      simp [Tracker.first, emit, same]

theorem first_fail (cause : TrackError) : (t.fail session cause).first j = t.first j := by
  unfold fail
  split
  · rfl
  · exact (keepsRun_stopInBackground (j := j) (t := { t with ledger := { t.ledger with
      outlet := t.ledger.outlet.tellFailure session.run cause } }) session.run).1.first

theorem first_failWatch (cause : TrackError) : (t.failWatch id session cause).first j = t.first j ∨
    t.first j = .awaited ∧ (t.failWatch id session cause).first j = .missed := by
  have settled := first_settle_cases (t := t.fail session cause) (j := j) session.run .missed
  rw [first_fail] at settled
  exact settled

theorem first_putGiveUp (context : Context) (reason : GiveUp) (stop : StopPoint) :
    (t.putGiveUp id context reason stop).first j = t.first j := by
  cases stop <;> rfl

theorem first_launch (bound : j < t.runs.length) (context : Context) (chain height : UInt64) :
    (t.launch id context chain height).first j = t.first j := by
  unfold launch
  split
  · simp [Tracker.first, put, spawn, emit, List.getElem?_append_left bound]
  · rfl

theorem first_launchSweep (lowest first : UInt64) :
    (t.launchSweep id session lowest first).first j = t.first j := by
  unfold launchSweep
  split <;> rfl

theorem first_sweepFrom (number : UInt64) : (t.sweepFrom id session last number).first j = t.first j := by
  unfold sweepFrom
  split <;> rfl

theorem first_putSweeping (number : UInt64) (progress : Progress) :
    (t.putSweeping id session last number progress).first j = t.first j := by
  cases progress with
  | waits work => rfl
  | finished =>
      simp only [putSweeping]
      split
      · exact first_sweepFrom _
      · rfl
  | failed cause => exact first_fail cause
  | crashed => rfl

/-- After a step of a watch the first live block is as before, or is missed. -/
theorem first_putObserving (live : Header) (progress : Progress) :
    (t.putObserving id session live progress).first j = t.first j ∨
      t.first j = .awaited ∧ (t.putObserving id session live progress).first j = .missed := by
  cases progress with
  | waits work => exact Or.inl rfl
  | finished =>
      left
      simp only [putObserving, afterLive]
      split <;> rfl
  | failed cause => exact first_failWatch cause
  | crashed => exact first_settle_cases session.run .missed

theorem first_putConfirming (live : Header) (progress : Progress) :
    (t.putConfirming id session live progress).first j = t.first j ∨
      t.first j = .awaited ∧ (t.putConfirming id session live progress).first j = .missed := by
  cases progress with
  | waits work => exact Or.inl rfl
  | finished => exact Or.inl rfl
  | failed cause => exact first_failWatch cause
  | crashed => exact first_settle_cases session.run .missed

theorem first_meetLive (live : Header) : (t.meetLive id session live).first j = t.first j ∨
    t.first j = .awaited ∧ ((t.meetLive id session live).first j = .missed ∨
      (t.meetLive id session live).first j = .arrived live.number) := by
  have met := first_settle_cases (t := t.emit (.live session.run live.number)) (j := j) session.run
    (.arrived live.number)
  unfold meetLive
  dsimp only
  generalize (t.emit (.live session.run live.number)).settle session.run (.arrived live.number) = v at met
  have worked : (v.putObserving id session live (Work.observe v.ledger live)).first j = v.first j ∨
      v.first j = .awaited ∧ (v.putObserving id session live (Work.observe v.ledger live)).first j = .missed :=
    first_putObserving live _
  rcases met with same | ⟨waits, arrived⟩
  · rw [same] at worked
    exact worked.imp_right fun missed => ⟨missed.1, Or.inl missed.2⟩
  · rw [arrived] at worked
    rcases worked with same | ⟨waits', -⟩
    · exact Or.inr ⟨waits, Or.inr same⟩
    · cases waits'

variable [BlockStore S] {answer : Answer}

theorem first_resumeStart? (bound : j < t.runs.length) {context : Context} {start : StartPoint}
    (moved : t.resumeStart? id context start answer = some u) : u.first j = t.first j := by
  have gaveUp (reason : GiveUp) : (t.giveUp id context reason).first j = t.first j :=
    (first_putGiveUp ..).trans (keepsRun_enterStop (j := j)).1.first
  unfold resumeStart? at moved
  split at moved
  case h_1 => split at moved <;> cases moved <;> rfl
  case h_2 => cases moved; rfl
  case h_3 => cases moved; rfl
  case h_4 =>
    split at moved <;> cases moved
    · rfl
    · exact first_launch bound _ _ _
  case h_5 =>
    split at moved
    · cases moved
      exact first_launchSweep _ _
    · cases moved
      exact gaveUp _
    · split at moved <;> cases moved
      exact gaveUp _
  case h_6 =>
    obtain ⟨⟨next, v⟩, stopped, rfl⟩ := Option.map_eq_some_iff.mp moved
    exact (first_putGiveUp ..).trans (keepsRun_resumeStop? (j := j) stopped).1.first
  case h_7 => cases moved

theorem first_resumeWatch? {watch : WatchPoint} (moved : t.resumeWatch? id session watch answer = some u) :
    u.first j = t.first j ∨ t.first j = .awaited ∧ (u.first j = .missed ∨
      ∃ live, answer = .arrival (some (.ok live)) ∧ u.first j = .arrived live.number) := by
  have missing (missed : u.first j = t.first j ∨ t.first j = .awaited ∧ u.first j = .missed) :
      u.first j = t.first j ∨ t.first j = .awaited ∧ (u.first j = .missed ∨
        ∃ live, answer = .arrival (some (.ok live)) ∧ u.first j = .arrived live.number) :=
    missed.imp_right fun missed => ⟨missed.1, Or.inl missed.2⟩
  unfold resumeWatch? at moved
  split at moved
  case h_1 => cases moved; exact Or.inl rfl
  case h_2 => cases moved; exact missing (first_failWatch _)
  case h_3 => cases moved; exact Or.inl rfl
  case h_4 =>
    split at moved <;> cases moved
    have settled := first_settle_cases (t := t.stopInBackground session.run) (j := j) session.run .missed
    rw [(keepsRun_stopInBackground (j := j) session.run).1.first] at settled
    exact missing settled
  case h_5 =>
    split at moved
    · cases moved
    · split at moved <;> cases moved
      · rename_i live
        exact (first_meetLive live).imp_right fun met =>
          ⟨met.1, met.2.imp_right fun arrived => ⟨live, rfl, arrived⟩⟩
      · exact missing (first_failWatch _)
      · exact missing (first_failWatch _)
  case h_6 =>
    obtain ⟨⟨progress, ledger⟩, -, rfl⟩ := Option.map_eq_some_iff.mp moved
    exact missing (first_putObserving (t := { t with ledger }) _ progress)
  case h_7 => cases moved; exact missing (first_failWatch _)
  case h_8 =>
    cases moved
    exact missing (first_putConfirming (t := { t with ledger := _ }) _ _)
  case h_9 =>
    obtain ⟨⟨progress, ledger⟩, -, rfl⟩ := Option.map_eq_some_iff.mp moved
    exact missing (first_putConfirming (t := { t with ledger }) _ progress)
  case h_10 => cases moved

theorem first_resumeSweep? {point : SweepPoint} (moved : t.resumeSweep? id session last point answer = some u) :
    u.first j = t.first j := by
  unfold resumeSweep? at moved
  split at moved
  case h_1 =>
    cases moved
    unfold beginSweep
    split
    · rfl
    · exact first_sweepFrom _
  case h_2 cause => cases moved; exact first_fail cause
  case h_3 =>
    cases moved
    exact first_putSweeping (t := { t with ledger := _ }) _ _
  case h_4 =>
    obtain ⟨⟨progress, ledger⟩, -, rfl⟩ := Option.map_eq_some_iff.mp moved
    exact first_putSweeping (t := { t with ledger }) _ progress
  case h_5 => cases moved

/-- The first live block of a run is set once: when it arrives, or when the watch ends before. -/
theorem first_of_move? (bound : j < t.runs.length) {m : Move} (moved : t.move? m = some u) :
    u.first j = t.first j ∨ t.first j = .awaited ∧ (u.first j = .missed ∨
      ∃ id live, m = .resume id (.arrival (some (.ok live))) ∧ u.first j = .arrived live.number) := by
  cases m with
  | start context => cases moved; exact Or.inl rfl
  | stop => cases moved; exact Or.inl rfl
  | cancel context => cases moved; exact Or.inl rfl
  | setHeight height =>
      cases moved
      left
      unfold setHeight
      split <;> rfl
  | resubscribe dispatcher => cases moved; exact Or.inl rfl
  | resume id answer =>
      simp only [move?] at moved
      unfold resume? at moved
      split at moved
      · exact Or.inl (first_resumeStart? bound moved)
      · obtain ⟨⟨next, v⟩, stopped, rfl⟩ := Option.map_eq_some_iff.mp moved
        left
        have same := (keepsRun_resumeStop? (j := j) stopped).1.first
        cases next <;> exact same
      · exact (first_resumeWatch? moved).imp_right fun met => ⟨met.1, met.2.imp_right fun arrived => by
          obtain ⟨live, rfl, first⟩ := arrived
          exact ⟨id, live, rfl, first⟩⟩
      · exact Or.inl (first_resumeSweep? moved)
      · cases moved

end Tracker

end Chainwatch
