import Chainwatch.Proofs.Store.Plain

/-!
# Events saved in batches

Of the events that are submitted to a block, in whatever batches, the first of each place is kept and is never
altered. So only the order of all submissions counts and not how they were cut into batches, and what was submitted
before may be submitted again.
-/

namespace Chainwatch

/-- The first event at each place. -/
def Event.firsts : List Event → List Event
  | [] => []
  | e :: events => e :: (firsts events).filter (·.logIndex != e.logIndex)

namespace ChainTable

/-- Appending to kept events adds the first event of each free place. -/
theorem appendNew_eq (kept events : List Event) :
    appendNew kept events = kept ++ (Event.firsts events).filter fun e => !kept.any (·.logIndex == e.logIndex) := by
  induction events generalizing kept with
  | nil => simp [Event.firsts]
  | cons e events ih =>
      rw [appendNew_cons, ih, Event.firsts]
      by_cases taken : kept.any (·.logIndex == e.logIndex)
      · rw [if_pos taken, List.filter_cons_of_neg (by simp [taken]), List.filter_filter]
        congr 1
        refine List.filter_congr fun f _ => ?_
        -- where the place of the first is taken, no other of its place is added either
        by_cases same : f.logIndex = e.logIndex
        · simp [same, taken]
        · simp [same]
      · rw [if_neg taken, List.filter_cons_of_pos (by simp [taken]), List.filter_filter, List.append_assoc,
          List.singleton_append]
        congr 2
        refine List.filter_congr fun f _ => ?_
        rw [List.any_append, Bool.not_or, List.any_cons, List.any_nil, Bool.or_false, BEq.comm (a := e.logIndex)]
        rfl

theorem appendNew_nil_left (events : List Event) : appendNew [] events = Event.firsts events := by
  simp [appendNew_eq]

/-- `firsts` of two batches is `firsts` of the first and what the second adds. -/
theorem firsts_append (events more : List Event) :
    Event.firsts (events ++ more) = appendNew (Event.firsts events) more := by
  rw [← appendNew_nil_left, ← appendNew_nil_left, appendNew, List.foldl_append]
  rfl

end ChainTable

open PlainStore (Becomes)

section Submissions

variable {S σ : Type} [BlockStore S]

def isStored (s : S) (chain : UInt64) (hash : String) : Bool :=
  match BlockStore.countHeads s { chain := some chain, hash := some hash } with
  | .ok count => count != 0
  | .error _ => false

/-- The events that a write submits to the block of a hash, if it is a successful save. -/
def Write.submits (w : Write σ) (outcome : Except TrackError Stored) (chain : UInt64) (hash : String) : List Event :=
  match w, outcome with
  | saveLogs c h events _, .ok _ => if c = chain ∧ h = hash then events else []
  | _, _ => []

/-- The events that writes submitted to the block of a hash, in order. When no block has the hash any
more, the list starts anew. -/
def submitted (chain : UInt64) (hash : String) : List (Write σ) → S → σ → List Event → List Event
  | [], _, _, before => before
  | w :: writes, s, state, before =>
    let written := w.run s state
    submitted chain hash writes written.store written.state
      (if isStored written.store chain hash then before ++ w.submits written.outcome chain hash else [])

end Submissions

section Kept

variable {S σ : Type} [BlockStore S] [PlainStore S] {s t : S} {chain : UInt64} {hash : String}

open PlainStore (Sound view shown view_sound)

theorem isStored_iff (h : Sound s) : isStored s chain hash ↔ ∃ number, (view s).holds chain number hash := by
  have has : isStored s chain hash ↔ BlockStore.Has s { chain := some chain, hash := some hash } := by
    unfold isStored BlockStore.Has
    cases BlockStore.countHeads s { chain := some chain, hash := some hash } with
    | error e => simp
    | ok count => cases count <;> simp
  rw [has, PlainStore.has_iff _ h]
  simp only [View.holds_iff, HeadQuery.admits, fieldAdmits, Option.all_some, Option.all_none, Bool.and_true,
    Bool.and_eq_true, beq_iff_eq]
  constructor
  · rintro ⟨head, placed, rfl, rfl⟩
    exact ⟨head.number, head, placed, rfl⟩
  · rintro ⟨number, head, placed, rfl⟩
    have chain_eq := (view_sound h).chain_eq placed
    have number_eq := (view_sound h).number_eq placed
    subst chain_eq number_eq
    exact ⟨head, placed, rfl, rfl⟩

/-- The block of a hash keeps the first submission at each place. -/
structure KeepsFirsts (s : S) (chain : UInt64) (hash : String) (submitted : List Event) : Prop where
  kept : ∀ {number : UInt64} {head : Head}, (view s).headAt? chain number = some head → head.hash = hash →
    (view s).eventsAt chain number = (Event.firsts submitted).map (·.mergeWith head)
  gone : isStored s chain hash = false → submitted = []

theorem KeepsFirsts.of_no_heads (none : ∀ chain number, (view s).headAt? chain number = none) :
    KeepsFirsts s chain hash [] := by
  refine ⟨?_, fun _ => rfl⟩
  intro number head found
  rw [none] at found
  cases found

/-- A head put in place keeps exactly the events of its own hash. -/
theorem KeepsFirsts.placed {submitted : List Event} {stored : Head} (h : Sound s)
    (free : ¬(view s).OwnedElsewhere stored) (seen : view t = (view s).put (shown S stored))
    (keeps : KeepsFirsts s chain hash submitted) {number : UInt64} {head : Head}
    (found : (view t).headAt? chain number = some head) (own : head.hash = hash) :
    (view t).eventsAt chain number = (Event.firsts submitted).map (·.mergeWith head) := by
  rw [seen] at found ⊢
  simp only [View.put, PlainStore.shown_chain, PlainStore.shown_number, PlainStore.shown_hash] at found ⊢
  by_cases place : chain = stored.chain ∧ number = stored.number
  · rw [if_pos place] at found ⊢
    cases found
    have own : stored.hash = hash := by simpa using own
    by_cases held : (view s).holds chain number stored.hash
    · obtain ⟨old, placed, same⟩ := View.holds_iff.mp held
      rw [if_pos held, keeps.kept placed (same.trans own), List.map_map]
      rfl
    · -- a hash that no number holds has had nothing submitted
      have gone : isStored s chain hash = false := by
        rw [Bool.eq_false_iff, Ne, isStored_iff h]
        rintro ⟨other, there⟩
        rw [← own] at there
        by_cases same : other = number
        · exact held (same ▸ there)
        · exact free ⟨other, place.2 ▸ same, place.1 ▸ there⟩
      rw [if_neg held, keeps.gone gone]
      rfl
  · rw [if_neg place] at found ⊢
    exact keeps.kept found own

/-- At most one block has a given hash. -/
theorem eq_block_of_hash (h : Sound s) {block : Head}
    (resolved : BlockStore.headOfHash? s chain hash = .ok (some block))
    {number : UInt64} {head : Head} (found : (view s).headAt? chain number = some head) (own : head.hash = hash) :
    head = shown S block ∧ number = block.number := by
  obtain ⟨placed, -, same⟩ := PlainStore.headOfHash_view h resolved
  have number_eq : number = block.number :=
    (view_sound h).hash_unique (View.holds_iff.mpr ⟨head, found, own⟩)
      (View.holds_iff.mpr ⟨_, placed, (PlainStore.shown_hash block).trans same⟩)
  subst number_eq
  exact ⟨Option.some.inj (found.symm.trans placed), rfl⟩

/-- Saving adds events to the block of their hash and leaves other blocks alone. -/
theorem KeepsFirsts.saved {submitted events : List Event} {c : UInt64} {other : String} {block : Head} (h : Sound s)
    (resolved : BlockStore.headOfHash? s c other = .ok (some block))
    (seen : view t = (view s).keep (shown S block) events) (keeps : KeepsFirsts s chain hash submitted)
    {number : UInt64} {head : Head} (found : (view t).headAt? chain number = some head) (own : head.hash = hash) :
    (view t).eventsAt chain number =
      (Event.firsts (submitted ++ if c = chain ∧ other = hash then events else [])).map (·.mergeWith head) := by
  rw [seen] at found ⊢
  have found : (view s).headAt? chain number = some head := found
  obtain ⟨placed, chain_eq, hash_eq⟩ := PlainStore.headOfHash_view h resolved
  simp only [View.keep, PlainStore.shown_chain, PlainStore.shown_number, PlainStore.mergeWith_shown]
  by_cases mine : c = chain ∧ other = hash
  · obtain ⟨rfl, rfl⟩ := mine
    obtain ⟨rfl, rfl⟩ := eq_block_of_hash h resolved found own
    rw [if_pos ⟨chain_eq.symm, rfl⟩, if_pos ⟨rfl, rfl⟩, keeps.kept found own, ChainTable.firsts_append,
      ChainTable.map_appendNew (f := (·.mergeWith (shown S block))) fun _ => rfl]
    simp only [PlainStore.mergeWith_shown]
  · rw [if_neg mine, List.append_nil, if_neg, keeps.kept found own]
    rintro ⟨rfl, rfl⟩
    subst chain_eq
    rw [placed] at found
    cases found
    exact mine ⟨rfl, hash_eq.symm.trans ((PlainStore.shown_hash block).symm.trans own)⟩

/-- A write preserves `KeepsFirsts`, with its submissions added. -/
theorem KeepsFirsts.run {submitted : List Event} (h : Sound s) (keeps : KeepsFirsts s chain hash submitted)
    (w : Write σ) (state : σ) :
    KeepsFirsts (w.run s state).store chain hash
      (if isStored (w.run s state).store chain hash then submitted ++ w.submits (w.run s state).outcome chain hash
        else []) := by
  obtain ⟨g, became⟩ := PlainStore.run_becomes h w state
  refine ⟨?_, fun gone => by rw [gone]; rfl⟩
  intro number head found own
  have stored : isStored (w.run s state).store chain hash :=
    (isStored_iff g).mpr ⟨number, View.holds_iff.mpr ⟨head, found, own⟩⟩
  rw [if_pos stored]
  generalize (w.run s state).outcome = outcome, (w.run s state).store = t at *
  cases became with
  | failed same =>
      have nothing : ∀ e : TrackError, w.submits (.error e) chain hash = [] := fun e => by cases w <;> rfl
      rw [nothing, List.append_nil, same]
      exact keeps.kept (same ▸ found) own
  | placed of_head _ _ _ free seen =>
      have nothing : ∀ outcome, w.submits outcome chain hash = [] := by
        intro outcome
        cases w <;> first | rfl | cases of_head
      rw [nothing, List.append_nil]
      exact keeps.placed h free seen found own
  | empty =>
      simp only [Write.submits, ite_self, List.append_nil]
      exact keeps.kept found own
  | kept resolved seen => exact keeps.saved h resolved seen found own

/-- After any writes, the block of a hash keeps the first submission at each place. -/
theorem KeepsFirsts.runWrites {before : List Event} (h : Sound s) (keeps : KeepsFirsts s chain hash before)
    (writes : List (Write σ)) (state : σ) :
    KeepsFirsts (runWrites writes s state).store chain hash (submitted chain hash writes s state before) := by
  induction writes generalizing s state before with
  | nil => exact keeps
  | cons w writes ih => exact ih (PlainStore.run_becomes h w state).1 (keeps.run h w state) _

theorem KeepsFirsts.events_eq {before : List Event} (h : Sound s) (keeps : KeepsFirsts s chain hash before)
    {block : Head} (resolved : BlockStore.headOfHash? s chain hash = .ok (some block)) {q : EventQuery}
    (of : q.IsOf block) (collated : q.IsCollated) :
    BlockStore.events s q = .ok ((((Event.firsts before).map (·.mergeWith block)).filter q.admits).mergeSort
      fun a b => decide (a.logIndex ≤ b.logIndex)) := by
  obtain ⟨answer, ok, lists⟩ := PlainStore.events_block h resolved of collated
  obtain ⟨placed, chain_eq, hash_eq⟩ := PlainStore.headOfHash_view h resolved
  subst chain_eq
  have stored : (view s).eventsAt block.chain block.number = (Event.firsts before).map (·.mergeWith block) := by
    simpa using keeps.kept placed ((PlainStore.shown_hash block).trans hash_eq)
  have distinct := PlainStore.events_distinct block.chain block.number h
  rw [stored] at distinct
  rw [ok]
  refine congrArg Except.ok (lists.unique ⟨ChainTable.sorted_ordered (distinct.filter _) ?_, ?_⟩)
  · intro a ha b hb
    obtain ⟨e, -, rfl⟩ := List.mem_map.mp (List.mem_of_mem_filter ha)
    obtain ⟨f, -, rfl⟩ := List.mem_map.mp (List.mem_of_mem_filter hb)
    exact ⟨rfl, rfl⟩
  · intro e
    rw [List.mem_mergeSort, List.mem_filter, ← stored]
    refine and_congr_left fun admits => ?_
    -- whatever the query finds, it stands under the number of the block
    have placed_here (mem : e ∈ (view s).eventsAt e.chain e.blockNumber) :
        e.chain = block.chain ∧ e.blockNumber = block.number := by
      simp only [EventQuery.admits, of.1, fieldAdmits, Option.all_some, Bool.and_eq_true, beq_iff_eq] at admits
      refine ⟨admits.1.1.1.1.symm, ?_⟩
      rcases of.2 with number | hash
      · have own : block.number = e.blockNumber := by simpa [number] using admits.1.1.1.2
        exact own.symm
      · have own : block.hash = e.blockHash := by simpa [hash] using admits.1.1.2
        obtain ⟨head, found, merged⟩ := PlainStore.events_merged h mem
        rw [← admits.1.1.1.1] at found
        have head_hash : head.hash = e.blockHash := congrArg Event.blockHash merged
        exact (eq_block_of_hash h resolved found (head_hash.trans (own.symm.trans hash_eq))).2
    constructor
    · intro mem
      have merged := mem
      rw [stored] at merged
      obtain ⟨f, -, rfl⟩ := List.mem_map.mp merged
      exact mem
    · intro mem
      obtain ⟨chain, number⟩ := placed_here mem
      rwa [chain, number] at mem

end Kept

/-! ## Further batches -/

def Saves {S : Type} [BlockStore S] (s : S) (chain : UInt64) (hash : String) (events : List Event) (t : S) : Prop :=
  ∃ (τ : Type) (hooks : List (Hook τ (List Event))) (state : τ) (stored : List Event),
    (BlockStore.saveLogs s chain hash events hooks state).outcome = .ok stored ∧
      (BlockStore.saveLogs s chain hash events hooks state).store = t

section Saves

variable {S : Type} [BlockStore S] [PlainStore S] {s t u v : S} {chain : UInt64} {hash : String}
  {events xs ys : List Event}

open PlainStore (Sound view shown)

/-- A save that succeeds returns its events merged with the block. -/
theorem saveLogs_ok {τ : Type} {hooks : List (Hook τ (List Event))} {state : τ} {stored : List Event} (h : Sound s)
    (ok : (BlockStore.saveLogs s chain hash events hooks state).outcome = .ok stored) :
    Sound (BlockStore.saveLogs s chain hash events hooks state).store ∧
      (events = [] ∧ stored = [] ∧ (BlockStore.saveLogs s chain hash events hooks state).store = s ∨
        ∃ block, BlockStore.headOfHash? s chain hash = .ok (some block) ∧ stored = events.map (·.mergeWith block) ∧
          view (BlockStore.saveLogs s chain hash events hooks state).store = (view s).keep (shown S block) events) := by
  obtain ⟨sound, became⟩ := PlainStore.run_becomes h (.saveLogs chain hash events hooks) state
  refine ⟨sound, ?_⟩
  have outcome : ((Write.saveLogs chain hash events hooks).run s state).outcome = .ok (.events stored) :=
    congrArg (Except.map Stored.events) ok
  rw [outcome] at became
  generalize run : ((Write.saveLogs chain hash events hooks).run s state).store = t at became
  change (BlockStore.saveLogs s chain hash events hooks state).store = t at run
  rw [run]
  cases became with
  | empty => exact Or.inl ⟨rfl, rfl, rfl⟩
  | kept resolved seen => exact Or.inr ⟨_, resolved, rfl, seen⟩

/-- The view after a save holds the saved events under the block of the hash. -/
theorem Saves.view_eq (h : Sound s) (saves : Saves s chain hash events t) {block : Head}
    (resolved : BlockStore.headOfHash? s chain hash = .ok (some block)) :
    Sound t ∧ view t = (view s).keep (shown S block) events := by
  obtain ⟨τ, hooks, state, stored, ok, rfl⟩ := saves
  obtain ⟨sound, ⟨rfl, -, same⟩ | ⟨block', resolved', -, seen⟩⟩ := saveLogs_ok h ok
  · exact ⟨sound, by rw [same, View.keep_nil]⟩
  · cases resolved.symm.trans resolved'
    exact ⟨sound, seen⟩

/-- Without a block of the hash nothing can be saved. -/
theorem Saves.nothing (h : Sound s) (saves : Saves s chain hash events t)
    (unread : ¬∃ block, BlockStore.headOfHash? s chain hash = .ok (some block)) : events = [] ∧ t = s := by
  obtain ⟨τ, hooks, state, stored, ok, rfl⟩ := saves
  obtain ⟨-, ⟨none, -, same⟩ | ⟨block, resolved, -⟩⟩ := saveLogs_ok h ok
  · exact ⟨none, same⟩
  · exact (unread ⟨block, resolved⟩).elim

/-- Two batches in sequence leave the same view as their concatenation. -/
theorem Saves.joined (h : Sound s) (whole : Saves s chain hash (xs ++ ys) t) (first : Saves s chain hash xs u)
    (second : Saves u chain hash ys v) : Sound t ∧ Sound v ∧ view t = view v := by
  by_cases resolved : ∃ block, BlockStore.headOfHash? s chain hash = .ok (some block)
  · obtain ⟨block, resolved⟩ := resolved
    obtain ⟨sound_t, seen_t⟩ := whole.view_eq h resolved
    obtain ⟨sound_u, seen_u⟩ := first.view_eq h resolved
    by_cases still : ∃ block, BlockStore.headOfHash? u chain hash = .ok (some block)
    · obtain ⟨block', still⟩ := still
      obtain ⟨sound_v, seen_v⟩ := second.view_eq sound_u still
      obtain ⟨placed, -, own⟩ := PlainStore.headOfHash_view sound_u still
      rw [seen_u] at placed
      have same := (eq_block_of_hash h resolved placed ((PlainStore.shown_hash block').trans own)).1
      exact ⟨sound_t, sound_v, by rw [seen_t, seen_v, seen_u, same, View.keep_keep]⟩
    · obtain ⟨rfl, rfl⟩ := second.nothing sound_u still
      exact ⟨sound_t, sound_u, by rw [seen_t, seen_u, List.append_nil]⟩
  · obtain ⟨none, rfl⟩ := whole.nothing h resolved
    obtain ⟨-, rfl⟩ := first.nothing h resolved
    obtain ⟨-, rfl⟩ := second.nothing h resolved
    exact ⟨h, h, rfl⟩

theorem KeepsFirsts.taken {before : List Event} (h : Sound s) (keeps : KeepsFirsts s chain hash before) {block : Head}
    (resolved : BlockStore.headOfHash? s chain hash = .ok (some block))
    (again : ∀ e ∈ events, ∃ old ∈ before, old.logIndex = e.logIndex) :
    ∀ e ∈ events, ∃ old ∈ (view s).eventsAt chain block.number, old.logIndex = e.logIndex := by
  intro e mem
  obtain ⟨placed, -, own⟩ := PlainStore.headOfHash_view h resolved
  obtain ⟨old, submitted, same⟩ := again e mem
  obtain ⟨first, kept, place⟩ := ChainTable.present_appendNew [] before old submitted
  rw [ChainTable.appendNew_nil_left] at kept
  rw [keeps.kept placed ((PlainStore.shown_hash block).trans own)]
  exact ⟨_, List.mem_map_of_mem kept, place.trans same⟩

end Saves

/-! ## Both stores -/

/-- What is kept of the events submitted to the block of a hash, and what further saves of such events
do: they return all their events merged with the current block, succeed unless a hook fails, do not
depend on how they are cut into batches, and change nothing at places submitted before. -/
structure SavesFirsts {S : Type} [BlockStore S] (s : S) (chain : UInt64) (hash : String) (before : List Event) :
    Prop where
  kept : ∀ {block : Head} {q : EventQuery}, BlockStore.headOfHash? s chain hash = .ok (some block) →
    q.IsOf block → q.IsCollated →
    BlockStore.events s q = .ok ((((Event.firsts before).map (·.mergeWith block)).filter q.admits).mergeSort
      fun a b => decide (a.logIndex ≤ b.logIndex))
  /-- A call returns all its events in order, merged with the block as it is now. -/
  returned : ∀ {τ : Type} {events stored : List Event} {hooks : List (Hook τ (List Event))} {state : τ},
    (BlockStore.saveLogs s chain hash events hooks state).outcome = .ok stored →
    events = [] ∧ stored = [] ∨
      ∃ block, BlockStore.headOfHash? s chain hash = .ok (some block) ∧ stored = events.map (·.mergeWith block)
  succeeds : ∀ {τ : Type} {events : List Event} {hooks : List (Hook τ (List Event))} {state : τ} {block : Head},
    BlockStore.headOfHash? s chain hash = .ok (some block) →
    (runHooks hooks (events.map (·.mergeWith block)) state).1 = .ok () →
    (BlockStore.saveLogs s chain hash events hooks state).outcome = .ok (events.map (·.mergeWith block))
  /-- Two batches one after the other come to the same as both together. -/
  joined : ∀ {xs ys : List Event} {t u v : S}, Saves s chain hash (xs ++ ys) t → Saves s chain hash xs u →
    Saves u chain hash ys v → BlockStore.Indistinct t v
  again : ∀ {events : List Event} {t : S}, (∀ e ∈ events, ∃ old ∈ before, old.logIndex = e.logIndex) →
    Saves s chain hash events t → BlockStore.Indistinct t s

section Answers

variable {S : Type} [BlockStore S] [PlainStore S] {s : S} {chain : UInt64} {hash : String} {before : List Event}

/-- `SavesFirsts` follows from `KeepsFirsts` in a store whose answers are determined by its view. -/
theorem SavesFirsts.of_keeps (h : PlainStore.Sound s) (keeps : KeepsFirsts s chain hash before)
    (joined : ∀ {xs ys : List Event} {t u v : S}, Saves s chain hash (xs ++ ys) t → Saves s chain hash xs u →
      Saves u chain hash ys v → BlockStore.Indistinct t v)
    (again : ∀ {events : List Event} {t : S}, (∀ e ∈ events, ∃ old ∈ before, old.logIndex = e.logIndex) →
      Saves s chain hash events t → BlockStore.Indistinct t s) : SavesFirsts s chain hash before where
  kept resolved of collated := keeps.events_eq h resolved of collated
  returned ok := (saveLogs_ok h ok).2.imp (fun nothing => ⟨nothing.1, nothing.2.1⟩) fun saved =>
    saved.imp fun _ saved => ⟨saved.1, saved.2.1⟩
  succeeds {_ events hooks state block} resolved passed := by
    by_cases none : events = []
    · subst none
      rw [PlainStore.saveLogs_nil]
      rfl
    · rw [(PlainStore.saveLogs_read hooks state h none resolved).outcome, passed]
      rfl
  joined := joined
  again := again

end Answers

/-- Keeping events whose places are taken leaves the view as it is. -/
theorem View.keep_of_taken {v : View} {block : Head} {events : List Event}
    (taken : ∀ e ∈ events, ∃ old ∈ v.eventsAt block.chain block.number, old.logIndex = e.logIndex) :
    v.keep block events = v := by
  apply View.ext
  · intro chain number
    rfl
  · intro chain number
    simp only [View.keep]
    split
    · rename_i place
      rw [place.1, place.2]
      refine ChainTable.appendNew_of_present fun e mem => ?_
      obtain ⟨f, own, rfl⟩ := List.mem_map.mp mem
      exact taken f own
    · rfl

namespace NestedStore

variable {s : NestedStore} {chain : UInt64} {hash : String} {before : List Event}

theorem savesFirsts (h : s.Sound) (keeps : KeepsFirsts s chain hash before) : SavesFirsts s chain hash before := by
  refine .of_keeps h keeps ?_ ?_
  · intro xs ys t u v whole first second
    obtain ⟨sound_t, sound_v, same⟩ := Saves.joined h whole first second
    exact indistinct_of_view sound_t sound_v same
  · intro events t again saves
    by_cases resolved : ∃ block, BlockStore.headOfHash? s chain hash = .ok (some block)
    · obtain ⟨block, resolved⟩ := resolved
      obtain ⟨sound, seen⟩ := saves.view_eq h resolved
      obtain ⟨-, rfl, -⟩ := PlainStore.headOfHash_view h resolved
      exact indistinct_of_view sound h (seen.trans (View.keep_of_taken (keeps.taken h resolved again)))
    · obtain ⟨-, rfl⟩ := saves.nothing h resolved
      exact indistinct_of_view h h rfl

end NestedStore

namespace RelationalStore

variable {s t u v : RelationalStore} {chain : UInt64} {hash : String} {before events xs ys : List Event}

theorem store_of_saveLogs {τ : Type} {hooks : List (Hook τ (List Event))} {state : τ} {stored : List Event}
    {written : Written RelationalStore τ (List Event)} (moved : s.saveLogs chain hash events hooks state = written)
    (ok : written.outcome = .ok stored) : written.store = events.foldl (insertEvent chain hash) s := by
  unfold saveLogs at moved
  dsimp only at moved
  split at moved
  · rename_i none
    subst moved
    rw [List.isEmpty_iff.mp none]
    rfl
  · split at moved
    · subst moved
      cases ok
    · split at moved
      · subst moved
        cases ok
      · split at moved <;> subst moved
        · rfl
        · cases ok

/-- A successful save adds its events one at a time. -/
theorem eq_of_saves (saves : Saves s chain hash events t) : t = events.foldl (insertEvent chain hash) s := by
  obtain ⟨τ, hooks, state, stored, ok, rfl⟩ := saves
  exact store_of_saveLogs rfl ok

/-- An event whose place is taken is not added. -/
theorem insertEvent_of_taken (h : s.Intact) {block : Head}
    (resolved : BlockStore.headOfHash? s chain hash = .ok (some block)) {e : Event}
    (taken : ∃ old ∈ s.bare.view.eventsAt chain block.number, old.logIndex = e.logIndex) :
    insertEvent chain hash s e = s := by
  obtain ⟨row, found, read⟩ := (headOfHash?_eq_some h).mp resolved
  obtain ⟨mem, chain_eq, -⟩ := mem_of_rowOfHash? found read
  obtain ⟨old, kept, same⟩ := taken
  obtain ⟨other, stored, other_chain, other_number, r, hr, own, rfl⟩ := (mem_eventsAt h.sound).mp kept
  have bare_kept : row.bare.kept = block.bare := BlockRow.kept_of_head (BlockRow.head_bare read)
  have one : other.id = row.bare.id := congrArg BlockRow.id <|
    h.sound.numbers stored (mem_bare mem) (by rw [other_chain, bare_kept, Head.bare_chain, chain_eq])
      (by rw [other_number, bare_kept, Head.bare_number])
  have under : r.blockId = row.id := own.trans one
  rw [insertEvent_of_row found, if_pos]
  refine List.any_eq_true.mpr ⟨r, List.mem_filter.mpr ⟨hr, beq_iff_eq.mpr under⟩, beq_iff_eq.mpr same⟩

theorem savesFirsts (h : s.Intact) (keeps : KeepsFirsts s chain hash before) : SavesFirsts s chain hash before := by
  refine .of_keeps h keeps ?_ ?_
  · intro xs ys t u v whole first second
    rw [eq_of_saves whole, eq_of_saves second, eq_of_saves first, List.foldl_append]
    exact BlockStore.Indistinct.refl _
  · intro events t again saves
    by_cases resolved : ∃ block, BlockStore.headOfHash? s chain hash = .ok (some block)
    · obtain ⟨block, resolved⟩ := resolved
      have taken := keeps.taken h resolved again
      have same : events.foldl (insertEvent chain hash) s = s := by
        clear again saves
        induction events with
        | nil => rfl
        | cons e events ih =>
            rw [List.foldl_cons, insertEvent_of_taken h resolved (taken e List.mem_cons_self)]
            exact ih fun e mem => taken e (List.mem_cons_of_mem _ mem)
      rw [eq_of_saves saves, same]
      exact BlockStore.Indistinct.refl _
    · obtain ⟨-, rfl⟩ := saves.nothing h resolved
      exact BlockStore.Indistinct.refl _

end RelationalStore

/-- After any writes to an empty nested or relational store, successful or not: of the events submitted
to a stored block the first at each place is kept as submitted, further batches have the same effect
however they are cut, and repeated submissions change nothing. -/
theorem batches_keep_first_submissions {σ : Type} (writes : List (Write σ)) (state : σ) (chain : UInt64)
    (hash : String) :
    SavesFirsts (runWrites writes NestedStore.empty state).store chain hash
        (submitted chain hash writes NestedStore.empty state []) ∧
      SavesFirsts (runWrites writes RelationalStore.empty state).store chain hash
        (submitted chain hash writes RelationalStore.empty state []) := by
  constructor
  · have sound : PlainStore.Sound NestedStore.empty := NestedStore.sound_empty
    have keeps : KeepsFirsts NestedStore.empty chain hash [] := .of_no_heads NestedStore.headAt?_empty
    exact NestedStore.savesFirsts (PlainStore.runWrites_sound sound writes state) (keeps.runWrites sound writes state)
  · have sound : PlainStore.Sound RelationalStore.empty := RelationalStore.intact_empty
    have keeps : KeepsFirsts RelationalStore.empty chain hash [] := .of_no_heads RelationalStore.headAt?_empty
    exact RelationalStore.savesFirsts (PlainStore.runWrites_sound sound writes state)
      (keeps.runWrites sound writes state)

def overlappingBatches : List (Write Unit) :=
  let head (state : BlockState) : Head := { (default : Head) with chain := 1, number := 5, hash := "0xa", state }
  let event (logIndex : UInt32) (txHash : String) : Event := { (default : Event) with logIndex, txHash }
  [.createHead (head .seen) [],
    .saveLogs 1 "0xa" [event 3 "first", event 1 "second", event 3 "third"] [],
    .upsertHead (head .confirmed) [],
    .saveLogs 1 "0xa" [event 1 "fourth", event 2 "fifth"] []]

example : (Event.firsts (submitted 1 "0xa" overlappingBatches NestedStore.empty () [])).map (·.txHash) =
    ["first", "second", "fifth"] := by
  decide +kernel

end Chainwatch
