import Chainwatch.Store.Nested

/-!
# The view of a store

Both stores are described by one view: the head of each number and the events of each number. A write is
either rejected, and then nothing changes and no hook runs, or it runs its hooks on what it would store
and takes effect as a whole if all of them succeed. `LawfulStore` states this of every operation in terms
of the view alone.
-/

namespace Chainwatch

/-- The head of each number of each chain, and its events, oldest first and merged with it. -/
structure View where
  headAt? : UInt64 → UInt64 → Option Head
  eventsAt : UInt64 → UInt64 → List Event

namespace View

def holds (v : View) (chain number : UInt64) (hash : String) : Bool :=
  (v.headAt? chain number).any (·.hash == hash)

def isConfirmed (v : View) (chain number : UInt64) : Bool :=
  (v.headAt? chain number).any (·.state == .confirmed)

/-- The number or the hash of a head is stored already. -/
def Taken (v : View) (head : Head) : Prop :=
  (v.headAt? head.chain head.number).isSome ∨ ∃ number, v.holds head.chain number head.hash

/-- The hash of a head is stored under another number. -/
def OwnedElsewhere (v : View) (head : Head) : Prop :=
  ∃ number, number ≠ head.number ∧ v.holds head.chain number head.hash

/-- The head as it is stored over the one of its number: what is confirmed stays confirmed. -/
def settled (v : View) (head : Head) : Head :=
  if v.isConfirmed head.chain head.number then head.withState .confirmed else head

/-- The view with a head in its place. The events of its number stay if the hash stays. -/
def put (v : View) (head : Head) : View where
  headAt? chain number :=
    if chain = head.chain ∧ number = head.number then some head else v.headAt? chain number
  eventsAt chain number :=
    if chain = head.chain ∧ number = head.number then
      if v.holds chain number head.hash then (v.eventsAt chain number).map (·.mergeWith head) else []
    else v.eventsAt chain number

/-- The view with more events of a block; of two events at one place, the earlier stays. -/
def keep (v : View) (block : Head) (events : List Event) : View where
  headAt? := v.headAt?
  eventsAt chain number :=
    if chain = block.chain ∧ number = block.number then
      ChainTable.appendNew (v.eventsAt chain number) (events.map (·.mergeWith block))
    else v.eventsAt chain number

/-- Heads are stored under their own chain and number, and no hash has two numbers. -/
structure Sound (v : View) : Prop where
  chain_eq : ∀ {chain number : UInt64} {head : Head}, v.headAt? chain number = some head → head.chain = chain
  number_eq : ∀ {chain number : UInt64} {head : Head}, v.headAt? chain number = some head → head.number = number
  hash_unique : ∀ {chain m n : UInt64} {hash : String},
    v.holds chain m hash → v.holds chain n hash → m = n

variable {v : View}

/-- The chain and the number of every head are below `2 ^ 63`. -/
def IsSmall (v : View) : Prop :=
  ∀ chain number, (v.headAt? chain number).isSome →
    chain.toNat < 0x8000000000000000 ∧ number.toNat < 0x8000000000000000

theorem holds_iff {chain number : UInt64} {hash : String} :
    v.holds chain number hash ↔ ∃ head, v.headAt? chain number = some head ∧ head.hash = hash := by
  cases h : v.headAt? chain number <;> simp [holds, h]

theorem isConfirmed_iff {chain number : UInt64} :
    v.isConfirmed chain number ↔
      ∃ head, v.headAt? chain number = some head ∧ head.state = .confirmed := by
  cases h : v.headAt? chain number <;> simp [isConfirmed, h]

theorem IsSmall.isConfirmed (h : v.IsSmall) {chain number : UInt64} (confirmed : v.isConfirmed chain number) :
    chain.toNat < 0x8000000000000000 ∧ number.toNat < 0x8000000000000000 := by
  obtain ⟨head, found, -⟩ := isConfirmed_iff.mp confirmed
  exact h _ _ (Option.isSome_of_eq_some found)

theorem ext {v w : View} (heads : ∀ chain number, v.headAt? chain number = w.headAt? chain number)
    (events : ∀ chain number, v.eventsAt chain number = w.eventsAt chain number) : v = w := by
  cases v
  cases w
  simp only [mk.injEq]
  exact ⟨funext fun chain => funext (heads chain), funext fun chain => funext (events chain)⟩

@[simp] theorem settled_chain (head : Head) : (v.settled head).chain = head.chain := by
  unfold settled; split <;> rfl

@[simp] theorem settled_number (head : Head) : (v.settled head).number = head.number := by
  unfold settled; split <;> rfl

@[simp] theorem settled_hash (head : Head) : (v.settled head).hash = head.hash := by
  unfold settled; split <;> rfl

@[simp] theorem settled_bloom (head : Head) : (v.settled head).bloom = head.bloom := by
  unfold settled; split <;> rfl

@[simp] theorem keep_headAt? (block : Head) (events : List Event) :
    (v.keep block events).headAt? = v.headAt? := rfl

theorem keep_nil (block : Head) : v.keep block [] = v := by
  apply ext
  · intro chain number
    rfl
  · intro chain number
    simp [keep, ChainTable.appendNew]

/-- Keeping two batches in sequence is keeping their concatenation. -/
theorem keep_keep (block : Head) (events more : List Event) :
    (v.keep block events).keep block more = v.keep block (events ++ more) := by
  apply ext
  · intro chain number
    rfl
  · intro chain number
    by_cases place : chain = block.chain ∧ number = block.number
    · simp only [keep, place, and_self, if_true, List.map_append, ChainTable.appendNew, List.foldl_append]
    · simp only [keep, place, if_false]

end View

/-! ## The order of answers -/

/-- One head stands before another in an answer: by chain, then by number. -/
def Head.Precedes (a b : Head) : Prop :=
  a.chain < b.chain ∨ a.chain = b.chain ∧ a.number < b.number

/-- One event stands before another in an answer: by chain, then by number, then by place. -/
def Event.Precedes (a b : Event) : Prop :=
  a.chain < b.chain ∨ a.chain = b.chain ∧
    (a.blockNumber < b.blockNumber ∨ a.blockNumber = b.blockNumber ∧ a.logIndex < b.logIndex)

theorem Head.Precedes.asymm {a b : Head} (h : a.Precedes b) : ¬b.Precedes a := by
  unfold Precedes at *
  grind

theorem Event.Precedes.asymm {a b : Event} (h : a.Precedes b) : ¬b.Precedes a := by
  unfold Precedes at *
  grind

theorem eq_of_ordered {α : Type} {R : α → α → Prop} (asymm : ∀ {a b}, R a b → ¬R b a)
    {xs ys : List α} (hx : xs.Pairwise R) (hy : ys.Pairwise R) (same : ∀ a, a ∈ xs ↔ a ∈ ys) :
    xs = ys := by
  have distinct {zs : List α} (hz : zs.Pairwise R) : zs.Nodup := by
    apply hz.imp
    intro a b hab h
    cases h
    exact asymm hab hab
  have perm := (List.perm_ext_iff_of_nodup (distinct hx) (distinct hy)).mpr same
  exact perm.eq_of_pairwise (fun a b _ _ hab hba => (asymm hab hba).elim) hx hy

namespace View

structure ListsHeads (v : View) (q : HeadQuery) (answer : List Head) : Prop where
  ordered : answer.Pairwise Head.Precedes
  mem_iff : ∀ head, head ∈ answer ↔ v.headAt? head.chain head.number = some head ∧ q.admits head

/-- The answer holds exactly the events that a query admits, in order. -/
structure ListsEvents (v : View) (q : EventQuery) (answer : List Event) : Prop where
  ordered : answer.Pairwise Event.Precedes
  mem_iff : ∀ e, e ∈ answer ↔ e ∈ v.eventsAt e.chain e.blockNumber ∧ q.admits e

structure IsHeight (v : View) (chain height : UInt64) : Prop where
  reached : height = 0 ∨ v.isConfirmed chain height
  greatest : ∀ number, v.isConfirmed chain number → number ≤ height

variable {v : View}

theorem ListsHeads.unique {q : HeadQuery} {xs ys : List Head} (hx : v.ListsHeads q xs)
    (hy : v.ListsHeads q ys) : xs = ys :=
  eq_of_ordered Head.Precedes.asymm hx.ordered hy.ordered fun head => by
    rw [hx.mem_iff, hy.mem_iff]

theorem ListsEvents.unique {q : EventQuery} {xs ys : List Event} (hx : v.ListsEvents q xs)
    (hy : v.ListsEvents q ys) : xs = ys :=
  eq_of_ordered Event.Precedes.asymm hx.ordered hy.ordered fun e => by
    rw [hx.mem_iff, hy.mem_iff]

theorem IsHeight.unique {chain m n : UInt64} (hm : v.IsHeight chain m) (hn : v.IsHeight chain n) :
    m = n := by
  have le {a b : UInt64} (ha : v.IsHeight chain a) (hb : v.IsHeight chain b) : a ≤ b := by
    rcases ha.reached with rfl | confirmed
    · exact UInt64.zero_le
    · exact hb.greatest a confirmed
  exact UInt64.le_antisymm (le hm hn) (le hn hm)

theorem listsHeads_number (h : v.Sound) (chain number : UInt64) :
    v.ListsHeads { chain := some chain, number := some number }
      (v.headAt? chain number).toList := by
  constructor
  · cases v.headAt? chain number <;> simp
  · intro head
    simp only [Option.mem_toList, HeadQuery.admits, fieldAdmits, Option.all_some, Option.all_none,
      Bool.and_true, Bool.and_eq_true, beq_iff_eq]
    constructor
    · intro found
      have hc := h.chain_eq found
      have hn := h.number_eq found
      subst hc hn
      exact ⟨found, rfl, rfl⟩
    · intro h
      rcases h with ⟨found, rfl, rfl⟩
      exact found

end View

/-- The bloom has its full length of 256 bytes. -/
def Bloom.IsFull (b : Bloom) : Prop :=
  b.bytes.length = Bloom.size

/-- The effect of a write that only its hooks can fail: `hooked` is what its hooks did with what it
stores, and `after` the view if they all succeed. -/
structure Applied {S σ α : Type} (Sound : S → Prop) (view : S → View) (written : Written S σ α)
    (hooked : Except TrackError Unit × σ) (stored : α) (before after : View) : Prop where
  sound : Sound written.store
  state : written.state = hooked.2
  outcome : written.outcome = hooked.1.map fun _ => stored
  view : view written.store = match hooked.1 with
    | .ok _ => after
    | .error _ => before

/-- A store whose operations have the specified effect on its view. -/
class LawfulStore (S : Type) [BlockStore S] where
  Sound : S → Prop
  view : S → View
  view_sound {s : S} : Sound s → (view s).Sound
  createHead_taken {σ : Type} {s : S} {head : Head} (hooks : List (Hook σ Head)) (state : σ) :
    Sound s → (view s).Taken head →
      ∃ e : TrackError, e.isConflict ∧ BlockStore.createHead s head hooks state = ⟨.error e, s, state⟩
  createHead_free {σ : Type} {s : S} {head : Head} (hooks : List (Hook σ Head)) (state : σ) :
    Sound s → ¬(view s).Taken head → head.bloom.IsFull →
      Applied Sound view (BlockStore.createHead s head hooks state) (runHooks hooks head state) head
        (view s) ((view s).put head)
  upsertHead_taken {σ : Type} {s : S} {head : Head} (hooks : List (Hook σ Head)) (state : σ) :
    Sound s → (view s).OwnedElsewhere head →
      BlockStore.upsertHead s head hooks state =
        ⟨.error (.hashConflict head.chain head.hash), s, state⟩
  upsertHead_free {σ : Type} {s : S} {head : Head} (hooks : List (Hook σ Head)) (state : σ) :
    Sound s → ¬(view s).OwnedElsewhere head → head.bloom.IsFull →
      Applied Sound view (BlockStore.upsertHead s head hooks state)
        (runHooks hooks ((view s).settled head) state) ((view s).settled head)
        (view s) ((view s).put ((view s).settled head))
  saveLogs_nil {σ : Type} (s : S) (chain : UInt64) (hash : String)
    (hooks : List (Hook σ (List Event))) (state : σ) :
      BlockStore.saveLogs s chain hash [] hooks state = ⟨.ok [], s, state⟩
  saveLogs_unknown {σ : Type} {s : S} {chain : UInt64} {hash : String} {events : List Event}
    (hooks : List (Hook σ (List Event))) (state : σ) :
    Sound s → events ≠ [] → (∀ number, ¬(view s).holds chain number hash) →
      BlockStore.saveLogs s chain hash events hooks state =
        ⟨.error (.noBlockHash chain hash), s, state⟩
  saveLogs_known {σ : Type} {s : S} {chain number : UInt64} {hash : String} {block : Head}
    {events : List Event} (hooks : List (Hook σ (List Event))) (state : σ) :
    Sound s → events ≠ [] → (view s).headAt? chain number = some block → block.hash = hash →
      Applied Sound view (BlockStore.saveLogs s chain hash events hooks state)
        (runHooks hooks (events.map (·.mergeWith block)) state) (events.map (·.mergeWith block))
        (view s) ((view s).keep block events)
  heads_number {s : S} (chain number : UInt64) : Sound s →
    BlockStore.heads s { chain := some chain, number := some number } =
      .ok ((view s).headAt? chain number).toList
  height_ok (s : S) (chain : UInt64) : ∃ height, BlockStore.height s chain = .ok height
  height_confirmed {s : S} {chain height : UInt64} : Sound s →
    BlockStore.height s chain = .ok height → height = 0 ∨ (view s).isConfirmed chain height

end Chainwatch
