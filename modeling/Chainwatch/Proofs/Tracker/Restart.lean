import Chainwatch.Proofs.Tracker.Handover

/-!
# Restarts

Runs follow one another over one store, each broken off anywhere. The next run begins above the highest
confirmed block, whatever lies below it. A run whose watch confirmed blocks before its backfill was done
may leave a hole there, which no later backfill fills; where every run completed its backfill, or was
ended before its watch confirmed anything, there is none.
-/

namespace Chainwatch

variable {S : Type} [BlockStore S]

def BlockStore.Confirms (store : S) (chain number : UInt64) : Prop :=
  ∃ head, BlockStore.heads store { chain := some chain, number := some number } = .ok [head] ∧
    head.state = .confirmed

instance (store : S) (chain number : UInt64) : Decidable (BlockStore.Confirms store chain number) :=
  match found : BlockStore.heads store { chain := some chain, number := some number } with
  | .ok [head] => decidable_of_iff (head.state = .confirmed) (by simp [BlockStore.Confirms, found])
  | .ok [] => isFalse (by simp [BlockStore.Confirms, found])
  | .ok (_ :: _ :: _) => isFalse (by simp [BlockStore.Confirms, found])
  | .error _ => isFalse (by simp [BlockStore.Confirms, found])

/-- From a number on, every block below a confirmed one is confirmed. -/
def BlockStore.IsWhole (store : S) (chain start : UInt64) : Prop :=
  ∀ m n, start ≤ m → m ≤ n → Confirms store chain n → Confirms store chain m

variable [LawfulStore S] {o : Outset S} {t : Tracker S} {m : Mark} {troubled : Prop}
  {first last : UInt64}

theorem BlockStore.confirms_iff {store : S} (sound : LawfulStore.Sound store) (chain number : UInt64) :
    Confirms store chain number ↔ (LawfulStore.view store).isConfirmed chain number := by
  unfold Confirms
  rw [LawfulStore.heads_number chain number sound, View.isConfirmed_iff]
  cases (LawfulStore.view store).headAt? chain number with
  | none => simp
  | some head => simp

/-! ## Settled runs -/

namespace Outset

/-- The backfill was completed: at some moment it had ended in a run that was not over. -/
def HasSwept (o : Outset S) (t : Tracker S) : Prop :=
  ∃ v, Tracker.Reaches (o.Allows True) o.begun v ∧ Tracker.Reaches (o.Allows True) v t ∧
    o.SweepEnded v ∧ v.isOver o.run = false

/-- The watch of the run confirmed nothing new, or its backfill was completed. -/
def Settles (o : Outset S) (t : Tracker S) : Prop :=
  ∀ {first : UInt64}, (t.lives o.run).head? = some first →
    (∀ {number : UInt64}, first.toNat ≤ number.toNat + o.plan.threshold.toNat →
      BlockStore.Confirms t.ledger.store o.chain.id number →
      BlockStore.Confirms o.tracker.ledger.store o.chain.id number) ∨
    o.HasSwept t ∧ (2 ≤ first ∨ first ≤ o.plan.lowest)

/-- A completed backfill has reached the first live block. -/
theorem reached (swept : o.HasSwept t) (met : (t.lives o.run).head? = some first)
    (range : 2 ≤ first ∨ first ≤ o.plan.lowest) : ∃ m, RunAt o True none t m ∧ m.first ≤ m.pos := by
  obtain ⟨v, early, late, ended, running⟩ := swept
  obtain ⟨life, n, runAt⟩ := o.reaches (fun faultFree => (faultFree trivial).elim) early
  obtain ⟨launched, swept⟩ := runAt.isSwept ended running
  obtain ⟨-, m, later, grows⟩ := runAt.reaches life late
  exact ⟨m, later, later.reached (grows.isSwept launched swept) (later.storeAt.head met) range⟩

/-- A block that a run does not process is confirmed in a store without holes. -/
theorem confirms_below (o : Outset S)
    (whole : BlockStore.IsWhole o.tracker.ledger.store o.chain.id o.tracker.startHeight) {number : UInt64}
    (low : o.tracker.startHeight ≤ number) (below : number < o.plan.lowest) :
    BlockStore.Confirms o.tracker.ledger.store o.chain.id number := by
  unfold plan Tracker.resumeHeight at below
  dsimp only at below
  split at below
  · rename_i positive
    have confirmed := (LawfulStore.height_confirmed o.sound o.height_eq).resolve_left (by
      intro zero
      rw [zero] at positive
      exact UInt64.lt_irrefl _ positive)
    have next : number < o.height + 1 := by
      change number < (if o.tracker.startHeight ≤ o.height + 1 then o.height + 1 else o.tracker.startHeight) at below
      split at below
      · exact below
      · exact (UInt64.lt_irrefl _ (UInt64.lt_of_le_of_lt low below)).elim
    refine whole _ _ low ?_ ((BlockStore.confirms_iff o.sound _ _).mpr confirmed)
    -- the successor of the greatest number is zero, and nothing is below that
    rw [UInt64.lt_iff_toNat_lt, UInt64.toNat_add, UInt64.toNat_one] at next
    rw [UInt64.le_iff_toNat_le]
    have bound := Nat.mod_le (o.height.toNat + 1) (2 ^ 64)
    omega
  · exact (UInt64.lt_irrefl _ (UInt64.lt_of_le_of_lt low below)).elim

/-- A run leaves no hole if its watch confirmed nothing new or its backfill reached the first live block. -/
theorem isWhole_of_covers (runAt : RunAt o troubled none t m)
    (whole : BlockStore.IsWhole o.tracker.ledger.store o.chain.id o.tracker.startHeight)
    (settled : m.first ≤ m.pos ∨ ∀ n : UInt64, m.first ≤ n.toNat + o.plan.threshold.toNat →
      n.toNat + o.plan.threshold.toNat < m.done → BlockStore.Confirms o.tracker.ledger.store o.chain.id n) :
    BlockStore.IsWhole t.ledger.store o.chain.id o.tracker.startHeight := by
  have covers (n : UInt64) := (BlockStore.confirms_iff runAt.storeAt.sound o.chain.id n).trans
    (runAt.storeAt.covers.confirmed n)
  have before (n : UInt64) := BlockStore.confirms_iff o.sound o.chain.id n
  intro k n low le confirmed
  have le_nat := UInt64.le_iff_toNat_le.mp le
  rw [covers]
  by_cases passed : k < o.plan.lowest
  · exact Or.inl ((before k).mp (o.confirms_below whole low passed))
  have above := UInt64.le_iff_toNat_le.mp (UInt64.not_lt.mp passed)
  rcases (covers n).mp confirmed with old | range | range
  · exact Or.inl ((before k).mp (whole k n low le ((before n).mpr old)))
  · exact Or.inr (Or.inl ⟨above, by omega, by omega⟩)
  · rcases settled with reached | nothing
    · by_cases early : k.toNat + o.plan.threshold.toNat < m.first
      · exact Or.inr (Or.inl ⟨above, by omega, early⟩)
      · exact Or.inr (Or.inr ⟨by omega, by omega⟩)
    · exact Or.inl ((before k).mp (whole k n low le (nothing n range.1 range.2)))

/-- A run that settles preserves `IsWhole`. -/
theorem isWhole_of_settles (whole : BlockStore.IsWhole o.tracker.ledger.store o.chain.id o.tracker.startHeight)
    (history : Tracker.Reaches (o.Allows True) o.begun t) (settles : o.Settles t) :
    BlockStore.IsWhole t.ledger.store o.chain.id o.tracker.startHeight := by
  obtain ⟨-, m, runAt⟩ := o.reaches (fun faultFree => (faultFree trivial).elim) history
  cases met : (t.lives o.run).head? with
  | none =>
      have same := (runAt.storeAt.unmet (List.head?_eq_none_iff.mp met)).2
      exact isWhole_of_covers runAt whole (Or.inr fun n live done => by omega)
  | some first =>
      rcases settles met with nothing | ⟨swept, range⟩
      · refine isWhole_of_covers runAt whole (Or.inr ?_)
        intro n live done
        have confirmed := (runAt.storeAt.covers.confirmed n).mpr (Or.inr (Or.inr ⟨live, done⟩))
        exact nothing (runAt.storeAt.head met ▸ live)
          ((BlockStore.confirms_iff runAt.storeAt.sound _ _).mpr confirmed)
      · obtain ⟨m, runAt, reached⟩ := reached swept met range
        exact isWhole_of_covers runAt whole (Or.inl reached)

/-! ## Runs one after another -/

/-- The run of another tracker at rest, over the store as this run left it. -/
def next (o : Outset S) (history : Tracker.Reaches (o.Allows True) o.begun t) (tracker : Tracker S)
    (rest : tracker.AtRest) (store : tracker.ledger.store = t.ledger.store) (context : Context) : Outset S where
  chain := o.chain
  tracker := tracker
  context := context
  height := match BlockStore.height tracker.ledger.store o.chain.id with
    | .ok height => height
    | .error _ => 0
  rest := rest
  sound := by
    obtain ⟨-, m, runAt⟩ := o.reaches (fun faultFree => (faultFree trivial).elim) history
    exact store ▸ runAt.storeAt.sound
  carries := by
    obtain ⟨-, m, runAt⟩ := o.reaches (fun faultFree => (faultFree trivial).elim) history
    exact store ▸ runAt.storeAt.carries
  height_eq := by
    obtain ⟨height, height_eq⟩ := LawfulStore.height_ok tracker.ledger.store o.chain.id
    rw [height_eq]

end Outset

/-- A tracker is run again and again over one store and chain, with a property required of each run
where it is broken off. -/
inductive Runs (chain : ServedChain) (settings : TrackerSettings) (asked : Outset S → Tracker S → Prop)
    (empty : S) : S → Prop where
  | none : Runs chain settings asked empty empty
  | run {o : Outset S} {t : Tracker S} : Runs chain settings asked empty o.tracker.ledger.store →
      o.chain = chain → o.tracker.settings = settings → o.tracker.startHeight = settings.startHeight →
      Tracker.Reaches (o.Allows True) o.begun t → asked o t → Runs chain settings asked empty t.ledger.store

/-- Runs that settle leave no hole. -/
theorem Runs.isWhole {chain : ServedChain} {settings : TrackerSettings} {empty store : S}
    (untouched : ∀ number, ¬BlockStore.Confirms empty chain.id number)
    (runs : Runs chain settings Outset.Settles empty store) :
    BlockStore.IsWhole store chain.id settings.startHeight := by
  induction runs with
  | none => exact fun m n _ _ confirmed => (untouched n confirmed).elim
  | run earlier same_chain _ same_start history settles ih =>
      subst same_chain
      rw [← same_start] at ih ⊢
      exact Outset.isWhole_of_settles ih history settles

namespace Outset

/-- Every final block from the start height on is confirmed. -/
def HasNoHole (o : Outset S) (t : Tracker S) (last : UInt64) : Prop :=
  ∀ number, o.tracker.startHeight ≤ number → o.IsFinal number last →
    BlockStore.Confirms t.ledger.store o.chain.id number

/-- Every block that the run does not process, and its watch does not confirm, was confirmed before. -/
def MissesNone (o : Outset S) (first : UInt64) : Prop :=
  ∀ number, o.tracker.startHeight ≤ number → number < o.plan.lowest →
    number.toNat + o.plan.threshold.toNat < first.toNat →
    BlockStore.Confirms o.tracker.ledger.store o.chain.id number

theorem hasNoHole_iff_missesNone (runAt : RunAt o troubled none t m) (watched : o.HasWatched t first last)
    (reached : m.first ≤ m.pos) : o.HasNoHole t last ↔ o.MissesNone first := by
  have after (n : UInt64) := (BlockStore.confirms_iff runAt.storeAt.sound o.chain.id n).trans
    (runAt.isConfirmed_iff watched reached n)
  have before (n : UInt64) := BlockStore.confirms_iff o.sound o.chain.id n
  constructor
  · intro complete n low below early
    obtain ⟨known, -, done⟩ := runAt.counts watched
    have order := runAt.storeAt.order
    have final : o.IsFinal n last := by
      unfold IsFinal
      omega
    rcases (after n).mp (complete n low final) with old | ⟨-, above | live⟩
    · exact (before n).mpr old
    · exact (UInt64.lt_irrefl _ (UInt64.lt_of_lt_of_le below above)).elim
    · omega
  · intro none_missed n low final
    rw [after]
    by_cases above : o.plan.lowest ≤ n
    · exact Or.inr ⟨final, Or.inl above⟩
    by_cases live : first.toNat ≤ n.toNat + o.plan.threshold.toNat
    · exact Or.inr ⟨final, Or.inr live⟩
    · exact Or.inl ((before n).mp (none_missed n low (UInt64.not_le.mp above) (Nat.lt_of_not_le live)))

theorem missesNone_of_isWhole
    (whole : BlockStore.IsWhole o.tracker.ledger.store o.chain.id o.tracker.startHeight) :
    o.MissesNone first :=
  fun _ low below _ => o.confirms_below whole low below

end Outset

/-- Once a run has caught up there is no hole exactly if it missed none at its launch; and it misses
none after runs that settle, over a store that was empty at first. -/
theorem hasNoHole_of_restarts (swept : o.HasSwept t) (watched : o.HasWatched t first last)
    (late : 2 ≤ first) :
    (o.HasNoHole t last ↔ o.MissesNone first) ∧
    ∀ {empty : S}, (∀ number, ¬BlockStore.Confirms empty o.chain.id number) →
      o.tracker.startHeight = o.tracker.settings.startHeight →
      Runs o.chain o.tracker.settings Outset.Settles empty o.tracker.ledger.store → o.HasNoHole t last := by
  obtain ⟨m, runAt, reached⟩ := Outset.reached swept watched.met (Or.inl late)
  have exact_condition := Outset.hasNoHole_iff_missesNone runAt watched reached
  refine ⟨exact_condition, ?_⟩
  intro empty untouched same_start runs
  have whole := runs.isWhole untouched
  rw [← same_start] at whole
  exact exact_condition.mpr (Outset.missesNone_of_isWhole whole)

def resumedOutset : Outset NestedStore :=
  handoverOutset.next (t := handoverOutset.played false handoverMoves)
    (handoverOutset.reaches_played false (fun _ => trivial) handoverMoves)
    (.make { confirmations := some 1 } (handoverOutset.played false handoverMoves).ledger.store)
    (Tracker.atRest_make _ _) (Tracker.store_make _ _) "plain"

theorem resumedOutset_store :
    resumedOutset.tracker.ledger.store = (handoverOutset.played false handoverMoves).ledger.store :=
  Tracker.store_make _ _

def resumedMoves : List Move :=
  [.resume 0 .go, .resume 0 (.chain (.ok 1)), .resume 0 (.stored none), .resume 1 .go,
    .resume 1 (.subscribed (.ok ())), .resume 1 (.arrival (some (.ok (plainChain.block 4)))),
    .resume 0 .go, .resume 2 .go, .resume 2 (.header (.ok (plainChain.block 2))), .resume 2 (.stored none),
    .resume 2 (.header (.ok (plainChain.block 3))), .resume 2 (.stored none), .resume 1 (.stored none),
    .resume 1 (.header (.ok (plainChain.block 3))), .resume 1 (.stored none)]

theorem hasNoHole_of_restarts_fifth_block :
    ∃ t, resumedOutset.HasSwept t ∧ resumedOutset.HasWatched t 4 4 ∧ resumedOutset.HasNoHole t 4 := by
  have before := handoverOutset.reaches_played (P := True) false (fun _ => trivial) handoverMoves
  have earlier : handoverOutset.CaughtUp (handoverOutset.played false handoverMoves) 2 2 :=
    Outset.caughtUp_of_hasCaughtUp (by decide +kernel)
  have history := resumedOutset.reaches_played (P := True) false (fun _ => trivial) resumedMoves
  have caught : resumedOutset.CaughtUp (resumedOutset.played false resumedMoves) 4 4 :=
    Outset.caughtUp_of_hasCaughtUp (by decide +kernel)
  have settles : handoverOutset.Settles (handoverOutset.played false handoverMoves) := by
    intro first met
    rw [earlier.met] at met
    cases met
    exact Or.inr ⟨⟨_, before, .refl, earlier.toSweepEnded, by decide +kernel⟩, Or.inl (by decide)⟩
  have untouched : ∀ number, ¬BlockStore.Confirms NestedStore.empty resumedOutset.chain.id number := by
    intro number h
    rcases h with ⟨head, found, -⟩
    cases found
  have swept : resumedOutset.HasSwept (resumedOutset.played false resumedMoves) :=
    ⟨_, history, .refl, caught.toSweepEnded, by decide +kernel⟩
  have runs : Runs plainChain { confirmations := some 1 } Outset.Settles NestedStore.empty
      resumedOutset.tracker.ledger.store := by
    rw [resumedOutset_store]
    exact .run .none rfl rfl rfl before settles
  exact ⟨_, swept, caught.toHasWatched,
    (hasNoHole_of_restarts swept caught.toHasWatched (by decide)).2 untouched rfl runs⟩

/-- A run in which every block is final at once, and the fourth block is the first live one. -/
def brokenOutset : Outset NestedStore := plainOutset { confirmations := some 0 }

/-- Its watch confirms the fourth block, and its backfill fails at the first. -/
def brokenMoves : List Move :=
  [.resume 0 .go, .resume 0 (.chain (.ok 1)), .resume 0 (.stored none), .resume 1 .go,
    .resume 1 (.subscribed (.ok ())), .resume 1 (.arrival (some (.ok (plainChain.block 3)))),
    .resume 0 .go, .resume 1 (.stored none), .resume 1 (.header (.ok (plainChain.block 3))),
    .resume 1 (.stored none), .resume 2 .go, .resume 2 (.header (.error (.rpc "down")))]

def holedOutset : Outset NestedStore :=
  brokenOutset.next (t := brokenOutset.played true brokenMoves)
    (brokenOutset.reaches_played true (fun _ => trivial) brokenMoves)
    (.make { confirmations := some 0 } (brokenOutset.played true brokenMoves).ledger.store)
    (Tracker.atRest_make _ _) (Tracker.store_make _ _) "plain"

theorem holedOutset_store :
    holedOutset.tracker.ledger.store = (brokenOutset.played true brokenMoves).ledger.store :=
  Tracker.store_make _ _

def holedMoves : List Move :=
  [.resume 0 .go, .resume 0 (.chain (.ok 1)), .resume 0 (.stored none), .resume 1 .go,
    .resume 1 (.subscribed (.ok ())), .resume 1 (.arrival (some (.ok (plainChain.block 4)))),
    .resume 0 .go, .resume 2 .go, .resume 1 (.stored none),
    .resume 1 (.header (.ok (plainChain.block 4))), .resume 1 (.stored none)]

/-- A restart after a run that was broken off may leave a hole. -/
theorem exists_hole : ∃ (o : Outset NestedStore) (t : Tracker NestedStore),
    Runs o.chain o.tracker.settings (fun _ _ => True) NestedStore.empty o.tracker.ledger.store ∧
      o.HasSwept t ∧ o.HasWatched t 4 4 ∧ ¬o.HasNoHole t 4 := by
  have history := holedOutset.reaches_played (P := True) false (fun _ => trivial) holedMoves
  have caught : holedOutset.CaughtUp (holedOutset.played false holedMoves) 4 4 :=
    Outset.caughtUp_of_hasCaughtUp (by decide +kernel)
  have runs : Runs plainChain { confirmations := some 0 } (fun _ _ => True) NestedStore.empty
      holedOutset.tracker.ledger.store := by
    rw [holedOutset_store]
    exact .run .none rfl rfl rfl (brokenOutset.reaches_played true (fun _ => trivial) brokenMoves) trivial
  have missing : ¬BlockStore.Confirms (holedOutset.played false holedMoves).ledger.store 1 1 := by
    decide +kernel
  have final : holedOutset.IsFinal 1 4 := by
    unfold Outset.IsFinal
    decide +kernel
  refine ⟨_, _, runs, ⟨_, history, .refl, caught.toSweepEnded, by decide +kernel⟩, caught.toHasWatched, ?_⟩
  intro complete
  exact missing (complete 1 (by decide +kernel) final)

end Chainwatch
