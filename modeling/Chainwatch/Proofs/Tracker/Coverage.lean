import Chainwatch.Proofs.Tracker.Work

/-!
# What a run has covered

The watch stores the live blocks and confirms the blocks that they make final; the backfill processes the
blocks below the first live one, and confirms those that are final before it. In every interleaving, four
numbers determine which blocks are confirmed.
-/

namespace Chainwatch

/-- The work of a run over a store. -/
structure Plan where
  chain : ServedChain
  before : View
  threshold : UInt64
  lowest : UInt64

/-- The progress of a run. -/
structure Mark where
  watch : Option Nat
  sweep : Option Nat
  first : Nat
  seen : Nat
  done : Nat
  pos : Nat

/-- The mark after the run takes a live block; the first one determines where the backfill ends. -/
def Mark.meet (m : Mark) (lives : List UInt64) (number : UInt64) : Mark :=
  if lives = [] then { m with first := number.toNat, seen := number.toNat, done := number.toNat } else m

@[simp] theorem Mark.meet_watch (m : Mark) (lives : List UInt64) (number : UInt64) :
    (m.meet lives number).watch = m.watch := by
  unfold meet; split <;> rfl

@[simp] theorem Mark.meet_sweep (m : Mark) (lives : List UInt64) (number : UInt64) :
    (m.meet lives number).sweep = m.sweep := by
  unfold meet; split <;> rfl

@[simp] theorem Mark.meet_pos (m : Mark) (lives : List UInt64) (number : UInt64) :
    (m.meet lives number).pos = m.pos := by
  unfold meet; split <;> rfl

namespace Plan

/-- What is stored and confirmed once a run has reached a mark. -/
structure Covers (p : Plan) (v : View) (m : Mark) : Prop where
  seen : ∀ n : UInt64, m.first ≤ n.toNat → n.toNat < m.seen → v.isStored p.chain.id n
  swept : ∀ n : UInt64, p.lowest.toNat ≤ n.toNat → n.toNat < m.pos → v.isStored p.chain.id n
  confirmed : ∀ n : UInt64, v.isConfirmed p.chain.id n ↔ p.before.isConfirmed p.chain.id n ∨
    p.lowest.toNat ≤ n.toNat ∧ n.toNat < m.pos ∧ n.toNat + p.threshold.toNat < m.first ∨
    m.first ≤ n.toNat + p.threshold.toNat ∧ n.toNat + p.threshold.toNat < m.done

variable {p : Plan} {v w : View} {m : Mark} {number : UInt64} {before written : Bool}

/-- Taking a live block extends what is covered; before the backfill begins, the first live block is
arbitrary. -/
theorem Covers.meet (h : p.Covers v m) (unmet : m.done = m.first) (unswept : m.pos = p.lowest.toNat)
    (first : Nat) : p.Covers v { m with first, seen := first, done := first } := by
  obtain ⟨-, swept, confirmed⟩ := h
  constructor
  · intro n low high
    dsimp only at low high
    omega
  · exact swept
  · intro n
    rw [confirmed]
    dsimp only
    constructor
    · intro h
      rcases h with old | range | range
      · exact Or.inl old
      · omega
      · omega
    · intro h
      rcases h with old | range | range
      · exact Or.inl old
      · omega
      · omega

/-- Observing a live block. -/
theorem Covers.observe (h : p.Covers v m) (wrote : v.Wrote w p.chain.id number false written)
    (place : m.seen = number.toNat + before.toNat) :
    p.Covers w { m with seen := number.toNat + (before || written).toNat } := by
  obtain ⟨seen, swept, confirmed⟩ := h
  constructor
  · intro n low high
    dsimp only at low high
    rw [wrote.stored]
    by_cases below : n.toNat < m.seen
    · exact Or.inl (seen n low below)
    · cases before <;> cases written <;> simp at high place ⊢ <;> try omega
      exact Or.inr (UInt64.toNat_inj.mp (by omega))
  · intro n low high
    rw [wrote.stored]
    exact Or.inl (swept n low high)
  · intro n
    rw [wrote.confirmed, confirmed]
    simp

/-- Confirming the block that a live one makes final. -/
theorem Covers.confirm (h : p.Covers v m) (wrote : v.Wrote w p.chain.id number true written) {live : Nat}
    (target : number.toNat + p.threshold.toNat = live) (known : m.first ≤ live)
    (place : m.done = live + before.toNat) :
    p.Covers w { m with done := live + (before || written).toNat } := by
  obtain ⟨seen, swept, confirmed⟩ := h
  constructor
  · intro n low high
    rw [wrote.stored]
    exact Or.inl (seen n low high)
  · intro n low high
    rw [wrote.stored]
    exact Or.inl (swept n low high)
  · intro n
    rw [wrote.confirmed, confirmed, ← UInt64.toNat_inj]
    cases before <;> cases written <;> simp at place ⊢ <;> grind

/-- A live block that makes none final. -/
theorem Covers.pass (h : p.Covers v m) {live : Nat} (early : live < p.threshold.toNat)
    (place : m.done = live) : p.Covers v { m with done := live + 1 } := by
  obtain ⟨seen, swept, confirmed⟩ := h
  refine ⟨seen, swept, ?_⟩
  intro n
  rw [confirmed]
  dsimp only
  grind

/-- Finishing a block of the backfill, which is confirmed if it is final before the first live one. -/
theorem Covers.sweep (h : p.Covers v m) {confirms : Bool}
    (wrote : v.Wrote w p.chain.id number confirms written) (low : p.lowest.toNat ≤ number.toNat)
    (final : confirms ↔ number.toNat + p.threshold.toNat < m.first)
    (place : m.pos = number.toNat + before.toNat) :
    p.Covers w { m with pos := number.toNat + (before || written).toNat } := by
  obtain ⟨seen, swept, confirmed⟩ := h
  constructor
  · intro n low high
    rw [wrote.stored]
    exact Or.inl (seen n low high)
  · intro n low high
    dsimp only at low high
    rw [wrote.stored]
    by_cases below : n.toNat < m.pos
    · exact Or.inl (swept n low below)
    · cases before <;> cases written <;> simp at high place ⊢ <;> try omega
      exact Or.inr (UInt64.toNat_inj.mp (by omega))
  · intro n
    rw [wrote.confirmed, confirmed, final, ← UInt64.toNat_inj]
    cases before <;> cases written <;> simp at place ⊢ <;> grind

/-! ## Store and mark -/

variable {S : Type} [BlockStore S] [LawfulStore S]

/-- The store and the live blocks so far agree with a mark. -/
structure StoreAt (p : Plan) (store : S) (lives : List UInt64) (m : Mark) : Prop where
  sound : LawfulStore.Sound store
  carries : (LawfulStore.view store).Carries p.chain
  covers : p.Covers (LawfulStore.view store) m
  order : m.first ≤ m.done
  bottom : p.lowest.toNat ≤ m.pos
  head : ∀ {first : UInt64}, lives.head? = some first → m.first = first.toNat
  unmet : lives = [] → m.sweep = none ∧ m.done = m.first
  unswept : m.sweep = none → m.pos = p.lowest.toNat

variable {store : S} {lives : List UInt64} {l after : Ledger S}

/-- Launching the watch or the backfill covers nothing new. -/
theorem StoreAt.launch (h : p.StoreAt store lives m) (watch : Option Nat) : p.StoreAt store lives { m with watch } where
  sound := h.sound
  carries := h.carries
  covers := ⟨h.covers.seen, h.covers.swept, h.covers.confirmed⟩
  order := h.order
  bottom := h.bottom
  head := h.head
  unmet := h.unmet
  unswept := h.unswept

theorem StoreAt.launchSweep (h : p.StoreAt store lives m) (met : lives ≠ []) (id : Nat) :
    p.StoreAt store lives { m with sweep := some id } where
  sound := h.sound
  carries := h.carries
  covers := ⟨h.covers.seen, h.covers.swept, h.covers.confirmed⟩
  order := h.order
  bottom := h.bottom
  head := h.head
  unmet none := (met none).elim
  unswept := nofun

theorem StoreAt.meet_of_sweep (h : p.StoreAt store lives m) (launched : m.sweep ≠ none) (number : UInt64) :
    m.meet lives number = m :=
  if_neg fun none => launched (h.unmet none).1

theorem StoreAt.meet (h : p.StoreAt store lives m) (idle : m.seen = m.done)
    (last : ∀ {last : UInt64}, lives.getLast? = some last → m.done = last.toNat + 1)
    (next : ∀ {last : UInt64}, lives.getLast? = some last → number.toNat = last.toNat + 1) :
    p.StoreAt store (lives ++ [number]) (m.meet lives number) ∧
      (m.meet lives number).seen = number.toNat ∧ (m.meet lives number).done = number.toNat := by
  unfold Mark.meet
  by_cases none : lives = []
  · obtain ⟨unswept, unmet⟩ := h.unmet none
    rw [if_pos none]
    refine ⟨⟨h.sound, h.carries, ?_, Nat.le_refl _, h.bottom, ?_, by simp, h.unswept⟩, rfl, rfl⟩
    · exact h.covers.meet unmet (h.unswept unswept) number.toNat
    · subst none
      intro first h
      cases h
      rfl
  · rw [if_neg none]
    obtain ⟨final, found⟩ : ∃ final, lives.getLast? = some final :=
      ⟨_, List.getLast?_eq_some_getLast none⟩
    have place := last found
    have runAt := next found
    refine ⟨⟨h.sound, h.carries, h.covers, h.order, h.bottom, ?_, by simp, h.unswept⟩, by omega, by omega⟩
    intro first met
    refine h.head (Eq.trans ?_ met)
    cases lives with
    | nil => exact (none rfl).elim
    | cons first rest => rfl

theorem StoreAt.observe (h : p.StoreAt l.store lives m) (met : lives ≠ [])
    (advances : l.Advances p.chain number false written after)
    (place : m.seen = number.toNat + before.toNat) :
    p.StoreAt after.store lives { m with seen := number.toNat + (before || written).toNat } :=
  ⟨advances.sound, advances.carries, h.covers.observe advances.wrote place, h.order, h.bottom, h.head,
    fun none => (met none).elim, h.unswept⟩

theorem StoreAt.confirm (h : p.StoreAt l.store lives m) (met : lives ≠ [])
    (advances : l.Advances p.chain number true written after) {live : Nat}
    (target : number.toNat + p.threshold.toNat = live) (known : m.first ≤ live)
    (place : m.done = live + before.toNat) :
    p.StoreAt after.store lives { m with done := live + (before || written).toNat } :=
  ⟨advances.sound, advances.carries, h.covers.confirm advances.wrote target known place,
    Nat.le_trans known (Nat.le_add_right _ _), h.bottom, h.head, fun none => (met none).elim, h.unswept⟩

theorem StoreAt.pass (h : p.StoreAt store lives m) (met : lives ≠ []) {live : Nat}
    (early : live < p.threshold.toNat) (place : m.done = live) :
    p.StoreAt store lives { m with done := live + 1 } :=
  ⟨h.sound, h.carries, h.covers.pass early place, Nat.le_succ_of_le (place ▸ h.order), h.bottom, h.head,
    fun none => (met none).elim, h.unswept⟩

theorem StoreAt.sweep (h : p.StoreAt l.store lives m) (launched : m.sweep ≠ none) {confirms : Bool}
    (advances : l.Advances p.chain number confirms written after) (low : p.lowest.toNat ≤ number.toNat)
    (final : confirms ↔ number.toNat + p.threshold.toNat < m.first)
    (place : m.pos = number.toNat + before.toNat) :
    p.StoreAt after.store lives { m with pos := number.toNat + (before || written).toNat } :=
  ⟨advances.sound, advances.carries, h.covers.sweep advances.wrote low final place, h.order,
    Nat.le_trans low (Nat.le_add_right _ _), h.head, fun none => (launched (h.unmet none).1).elim,
    fun unswept => (launched unswept).elim⟩

end Plan

end Chainwatch
