import Chainwatch.Proofs.Store.Monotone
import Chainwatch.Proofs.Store.Rollback

/-!
# Stored progress only grows

Whatever is written, a number that has a head keeps one, a confirmed number stays confirmed, and so the height of a
chain never goes back. A relational store puts numbers from `2 ^ 63` on before zero, so its height speaks of the
numbers below.
-/

namespace Chainwatch

namespace BlockStore

variable {S : Type} [BlockStore S]

/-- Every number stored in the one store is stored in the other. -/
structure Progresses (s t : S) : Prop where
  kept : ∀ {chain number : UInt64}, Holds s chain number → Holds t chain number
  confirmed : ∀ {chain number : UInt64}, HoldsConfirmed s chain number → HoldsConfirmed t chain number

theorem Progresses.refl (s : S) : Progresses s s := ⟨id, id⟩

theorem Progresses.trans {s t u : S} (first : Progresses s t) (second : Progresses t u) : Progresses s u :=
  ⟨fun held => second.kept (first.kept held), fun held => second.confirmed (first.confirmed held)⟩

/-- The greatest confirmed number of a chain, or zero without one. -/
structure Tops (s : S) (chain height : UInt64) : Prop where
  reached : height = 0 ∨ HoldsConfirmed s chain height
  greatest : ∀ {number : UInt64}, HoldsConfirmed s chain number → number ≤ height

theorem Tops.le {s t : S} {chain m n : UInt64} (progress : Progresses s t) (hm : Tops s chain m)
    (hn : Tops t chain n) : m ≤ n := by
  rcases hm.reached with rfl | confirmed
  · exact UInt64.zero_le
  · exact hn.greatest (progress.confirmed confirmed)

/-- The height of a chain is answered, and is the greatest confirmed number. -/
def TellsHeight (s : S) : Prop :=
  ∀ chain, ∃ height, BlockStore.height s chain = .ok height ∧ Tops s chain height

/-- Both stores answer the height of every chain, and it is no less in the second. -/
def Rises (s t : S) : Prop :=
  ∀ chain, ∃ m n, BlockStore.height s chain = .ok m ∧ BlockStore.height t chain = .ok n ∧
    Tops s chain m ∧ Tops t chain n ∧ m ≤ n

theorem Progresses.rises {s t : S} (progress : Progresses s t) (hs : TellsHeight s) (ht : TellsHeight t) :
    Rises s t := by
  intro chain
  obtain ⟨m, hm, top_m⟩ := hs chain
  obtain ⟨n, hn, top_n⟩ := ht chain
  exact ⟨m, n, hm, hn, top_m, top_n, top_m.le progress top_n⟩

end BlockStore

open BlockStore (Holds HoldsConfirmed Progresses TellsHeight Rises)

def Write.IsLow {σ : Type} : Write σ → Prop
  | createHead head _ | upsertHead head _ => head.number.toNat < 0x8000000000000000
  | saveLogs _ _ _ _ => True

/-! ## Nested stores -/

/-- No number loses its head or its confirmation. -/
structure View.Grows (v w : View) : Prop where
  kept : ∀ {chain number : UInt64}, (v.headAt? chain number).isSome → (w.headAt? chain number).isSome
  confirmed : ∀ {chain number : UInt64}, v.isConfirmed chain number → w.isConfirmed chain number

namespace View

variable {v : View} {head : Head}

theorem Grows.refl (v : View) : v.Grows v := ⟨id, id⟩

theorem grows_put (keeps : v.isConfirmed head.chain head.number → head.state = .confirmed) : v.Grows (v.put head) := by
  constructor
  · intro chain number placed
    by_cases place : chain = head.chain ∧ number = head.number
    · simp [put, place]
    · simpa [put, place] using placed
  · intro chain number confirmed
    by_cases place : chain = head.chain ∧ number = head.number
    · rw [place.1, place.2] at confirmed
      simp [isConfirmed, put, place, keeps confirmed]
    · simpa [isConfirmed, put, place] using confirmed

theorem grows_settled (v : View) (head : Head) : v.Grows (v.put (v.settled head)) := by
  refine grows_put ?_
  intro confirmed
  simp only [settled_chain, settled_number] at confirmed
  simp [settled, confirmed, Head.withState]

theorem grows_free (free : ¬v.Taken head) : v.Grows (v.put head) := by
  refine grows_put ?_
  intro confirmed
  obtain ⟨old, placed, -⟩ := isConfirmed_iff.mp confirmed
  exact (free (Or.inl (Option.isSome_of_eq_some placed))).elim

end View

namespace NestedStore

variable {s t : NestedStore} {σ : Type}

theorem grows_of_applied {α : Type} {written : Written NestedStore σ α} {hooked : Except TrackError Unit × σ}
    {stored : α} {after : View} (applied : Applied Sound view written hooked stored s.view after)
    (grows : s.view.Grows after) : s.view.Grows written.store.view := by
  rw [applied.view]
  split
  · exact grows
  · exact .refl _

/-- Every write grows the view. -/
theorem run_grows (h : s.Sound) (w : Write σ) (state : σ) : s.view.Grows (w.run s state).store.view := by
  cases w with
  | createHead head hooks =>
      change s.view.Grows (s.createHead head hooks state).store.view
      by_cases taken : s.view.Taken head
      · rw [createHead_taken hooks state h taken]
        exact .refl _
      · exact grows_of_applied (createHead_free hooks state h taken) (View.grows_free taken)
  | upsertHead head hooks =>
      change s.view.Grows (s.upsertHead head hooks state).store.view
      by_cases taken : s.view.OwnedElsewhere head
      · rw [upsertHead_taken hooks state h taken]
        exact .refl _
      · exact grows_of_applied (upsertHead_free hooks state h taken) (s.view.grows_settled head)
  | saveLogs chain hash events hooks =>
      change s.view.Grows (s.saveLogs chain hash events hooks state).store.view
      by_cases none : events = []
      · subst none
        exact .refl _
      by_cases known : ∃ number, s.view.holds chain number hash
      · obtain ⟨number, held⟩ := known
        obtain ⟨block, placed, rfl⟩ := View.holds_iff.mp held
        exact grows_of_applied (saveLogs_known hooks state h none placed) ⟨id, id⟩
      · rw [saveLogs_unknown hooks state h none fun number held => known ⟨number, held⟩]
        exact .refl _

theorem progresses_of_grows (h : s.Sound) (g : t.Sound) (grows : s.view.Grows t.view) : Progresses s t := by
  constructor
  · intro chain number held
    rw [holds_iff h, ← Option.isSome_iff_exists] at held
    rw [holds_iff g, ← Option.isSome_iff_exists]
    exact grows.kept held
  · intro chain number held
    rw [holdsConfirmed_iff h] at held
    rw [holdsConfirmed_iff g]
    exact grows.confirmed held

theorem runWrites_progresses (h : s.Sound) (writes : List (Write σ)) (state : σ) :
    Progresses s (runWrites writes s state).store := by
  have run : (runWrites writes s state).store.Sound ∧ Progresses s (runWrites writes s state).store := by
    refine runWrites_invariant (I := fun t => t.Sound ∧ Progresses s t) writes ?_ ⟨h, .refl s⟩ state
    intro w _ t state ⟨sound, progress⟩
    have after := run_sound sound w state
    exact ⟨after, progress.trans (progresses_of_grows sound after (run_grows sound w state))⟩
  exact run.2

theorem tellsHeight (h : s.Sound) : TellsHeight s := by
  intro chain
  have height := s.height_isHeight chain
  refine ⟨_, rfl, ?_, ?_⟩
  · exact height.reached.imp_right (holdsConfirmed_iff h _ _).mpr
  · exact fun confirmed => height.greatest _ ((holdsConfirmed_iff h _ _).mp confirmed)

end NestedStore

/-! ## Relational stores -/

namespace RelationalStore

variable {s t : RelationalStore} {σ : Type}

inductive Rewrote (s : RelationalStore) (w : Write σ) (t : RelationalStore) : Prop where
  | same : t.blocks = s.blocks → t.nextId = s.nextId → Rewrote s w t
  | written {head : Head} {row : BlockRow} : (w.IsLow → head.number.toNat < 0x8000000000000000) →
      s.Writes head row t → Rewrote s w t

theorem run_rewrote (h : s.Keyed) (w : Write σ) (state : σ) : s.Rewrote w (w.run s state).store := by
  cases w with
  | createHead head hooks =>
      change s.Rewrote _ (s.createHead head hooks state).store
      unfold createHead
      split
      · exact .same rfl rfl
      · rename_i row t written
        split
        · exact .written id (writes_of_insertBlock? h written).2.2
        · exact .same rfl rfl
  | upsertHead head hooks =>
      change s.Rewrote _ (s.upsertHead head hooks state).store
      unfold upsertHead
      split
      · exact .same rfl rfl
      · rename_i row t written
        split
        · exact .same rfl rfl
        · split
          · exact .written id (writes_of_upsert h written)
          · exact .same rfl rfl
  | saveLogs chain hash events hooks =>
      change s.Rewrote _ (s.saveLogs chain hash events hooks state).store
      obtain ⟨blocks, nextId⟩ := insertEvents_blocks s chain hash events
      unfold saveLogs
      dsimp only
      split
      · exact .same rfl rfl
      · split
        · exact .same rfl rfl
        · split
          · exact .same rfl rfl
          · split
            · exact .same blocks nextId
            · exact .same rfl rfl

theorem Keyed.of_rows (h : s.Keyed) (blocks : t.blocks = s.blocks) (nextId : t.nextId = s.nextId) : t.Keyed := by
  refine ⟨blocks ▸ h.ids, ?_⟩
  rw [blocks, nextId]
  exact h.fresh

theorem Writes.progresses {head : Head} {row : BlockRow} (writes : s.Writes head row t) : Progresses s t := by
  constructor
  · intro chain number held
    obtain ⟨old, mem, hc, hn⟩ := (holds_iff s _ _).mp held
    rw [holds_iff]
    rcases writes.kept mem with mem | ⟨same_chain, same_number, -⟩
    · exact ⟨old, mem, hc, hn⟩
    · exact ⟨row, writes.mem, same_chain ▸ hc, same_number ▸ hn⟩
  · intro chain number held
    obtain ⟨old, mem, hc, hn, confirmed⟩ := (holdsConfirmed_iff s _ _).mp held
    rw [holdsConfirmed_iff]
    rcases writes.kept mem with mem | ⟨same_chain, same_number, stays⟩
    · exact ⟨old, mem, hc, hn, confirmed⟩
    · exact ⟨row, writes.mem, same_chain ▸ hc, same_number ▸ hn, stays confirmed⟩

theorem progresses_of_blocks (blocks : t.blocks = s.blocks) : Progresses s t := by
  constructor <;> intro chain number
  · rw [holds_iff, holds_iff, blocks]
    exact id
  · rw [holdsConfirmed_iff, holdsConfirmed_iff, blocks]
    exact id

theorem run_keyed (h : s.Keyed) (w : Write σ) (state : σ) : (w.run s state).store.Keyed := by
  rcases run_rewrote h w state with ⟨blocks, nextId⟩ | ⟨-, writes⟩
  · exact h.of_rows blocks nextId
  · exact writes.keyed

theorem run_progresses (h : s.Keyed) (w : Write σ) (state : σ) : Progresses s (w.run s state).store := by
  rcases run_rewrote h w state with ⟨blocks, -⟩ | ⟨-, writes⟩
  · exact progresses_of_blocks blocks
  · exact writes.progresses

def IsLow (s : RelationalStore) : Prop :=
  ∀ row ∈ s.blocks, row.number.toUInt64.toNat < 0x8000000000000000

theorem run_isLow (h : s.Keyed) (low : s.IsLow) (w : Write σ) (fits : w.IsLow) (state : σ) :
    (w.run s state).store.IsLow := by
  rcases run_rewrote h w state with ⟨blocks, -⟩ | ⟨number, writes⟩
  · rw [IsLow, blocks]
    exact low
  · intro r mem
    rcases writes.only mem with old | rfl
    · exact low r old
    · rw [writes.number]
      simpa using number fits

theorem keyed_empty : empty.Keyed :=
  ⟨List.Pairwise.nil, by simp [empty]⟩

theorem runWrites_keyed (h : s.Keyed) (writes : List (Write σ)) (state : σ) :
    (runWrites writes s state).store.Keyed :=
  runWrites_invariant (I := Keyed) writes (fun w _ _ state h => run_keyed h w state) h state

theorem runWrites_isLow (h : s.Keyed) (low : s.IsLow) (writes : List (Write σ)) (fits : ∀ w ∈ writes, w.IsLow)
    (state : σ) : (runWrites writes s state).store.IsLow := by
  have run : (runWrites writes s state).store.Keyed ∧ (runWrites writes s state).store.IsLow := by
    refine runWrites_invariant (I := fun t => Keyed t ∧ IsLow t) writes ?_ ⟨h, low⟩ state
    intro w mem t state ⟨keyed, low⟩
    exact ⟨run_keyed keyed w state, run_isLow keyed low w (fits w mem) state⟩
  exact run.2

theorem runWrites_progresses (h : s.Keyed) (writes : List (Write σ)) (state : σ) :
    Progresses s (runWrites writes s state).store := by
  have run : (runWrites writes s state).store.Keyed ∧ Progresses s (runWrites writes s state).store := by
    refine runWrites_invariant (I := fun t => Keyed t ∧ Progresses s t) writes ?_ ⟨h, .refl s⟩ state
    intro w _ t state ⟨keyed, progress⟩
    exact ⟨run_keyed keyed w state, progress.trans (run_progresses keyed w state)⟩
  exact run.2

theorem tellsHeight (low : s.IsLow) : TellsHeight s := by
  intro chain
  refine ⟨_, rfl, ?_⟩
  rcases s.height_rows chain with ⟨zero, none⟩ | ⟨top, mem, chain_eq, confirmed, number, greatest⟩
  · refine ⟨Or.inl zero, ?_⟩
    intro n held
    obtain ⟨row, mem, hc, -, hs⟩ := (holdsConfirmed_iff s chain n).mp held
    exact (none row mem hc hs).elim
  · refine ⟨Or.inr ((holdsConfirmed_iff s chain _).mpr ⟨top, mem, chain_eq, number, confirmed⟩), ?_⟩
    intro n held
    obtain ⟨row, stored, hc, hn, hs⟩ := (holdsConfirmed_iff s chain n).mp held
    have row_low : n.toNat < 0x8000000000000000 := by simpa [hn] using low row stored
    have top_low : (s.height chain).toNat < 0x8000000000000000 := by simpa [number] using low top mem
    have le := greatest row stored hc hs
    rw [hn, number, Int64.le_iff_toInt_le, UInt64.toInt_toInt64 row_low, UInt64.toInt_toInt64 top_low] at le
    rw [UInt64.le_iff_toNat_le]
    omega

end RelationalStore

/-! ## Both stores -/

/-- After any writes to an empty nested or relational store, further writes of any outcome keep a head
at every number that has one, keep what is confirmed confirmed, and never lower the height of a chain,
which is its greatest confirmed number; for a relational store numbers are below `2 ^ 63`. -/
theorem progress_only_grows {σ τ : Type} (earlier : List (Write σ)) (start : σ) (later : List (Write τ)) (state : τ) :
    (Progresses (runWrites earlier NestedStore.empty start).store
        (runWrites later (runWrites earlier NestedStore.empty start).store state).store ∧
      Rises (runWrites earlier NestedStore.empty start).store
        (runWrites later (runWrites earlier NestedStore.empty start).store state).store) ∧
    Progresses (runWrites earlier RelationalStore.empty start).store
        (runWrites later (runWrites earlier RelationalStore.empty start).store state).store ∧
      ((∀ w ∈ earlier, w.IsLow) → (∀ w ∈ later, w.IsLow) →
        Rises (runWrites earlier RelationalStore.empty start).store
          (runWrites later (runWrites earlier RelationalStore.empty start).store state).store) := by
  constructor
  · have sound := NestedStore.runWrites_sound NestedStore.sound_empty earlier start
    have after := NestedStore.runWrites_sound sound later state
    have progress := NestedStore.runWrites_progresses sound later state
    exact ⟨progress, progress.rises (NestedStore.tellsHeight sound) (NestedStore.tellsHeight after)⟩
  · have keyed := RelationalStore.runWrites_keyed RelationalStore.keyed_empty earlier start
    have progress := RelationalStore.runWrites_progresses keyed later state
    refine ⟨progress, ?_⟩
    intro low_earlier low_later
    have none_stored : RelationalStore.empty.IsLow := by simp [RelationalStore.IsLow, RelationalStore.empty]
    have low := RelationalStore.runWrites_isLow RelationalStore.keyed_empty none_stored earlier low_earlier start
    have low' := RelationalStore.runWrites_isLow keyed low later low_later state
    exact progress.rises (RelationalStore.tellsHeight low) (RelationalStore.tellsHeight low')

theorem progress_only_grows_fork :
    (∀ w ∈ forkedWrites, w.IsLow) ∧
      (runWrites forkedWrites RelationalStore.empty 0).store.height 1 = 5 ∧
      Rises (runWrites (forkedWrites.take 1) RelationalStore.empty 0).store
        (runWrites forkedWrites (runWrites (forkedWrites.take 1) RelationalStore.empty 0).store 0).store := by
  have low : ∀ w ∈ forkedWrites, w.IsLow := by
    intro w mem
    simp only [forkedWrites, List.mem_cons, List.not_mem_nil, or_false] at mem
    rcases mem with rfl | rfl | rfl | rfl <;> simp [Write.IsLow]
  have first : ∀ w ∈ forkedWrites.take 1, w.IsLow := fun w mem => low w (List.mem_of_mem_take mem)
  exact ⟨low, by decide +kernel, (progress_only_grows (forkedWrites.take 1) 0 forkedWrites 0).2.2 first low⟩

end Chainwatch
