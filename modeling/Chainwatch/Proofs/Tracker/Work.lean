import Chainwatch.Proofs.Store.View
import Chainwatch.Tracker.Work

/-!
# Work on a served block

A node serves one chain: one block of each number, with a hash of its own and a full bloom. Over a store
whose heads carry the hashes of that chain, a step of the work on a block either changes no head or puts
the block in place, and it fails only with the node or the store.
-/

namespace Chainwatch

/-- A chain as a node serves it. -/
structure ServedChain where
  id : UInt64
  block : UInt64 → Header
  number_eq : ∀ number, (block number).number = number
  hash_unique : ∀ {m n : UInt64}, (block m).hash = (block n).hash → m = n
  bloom_full : ∀ number, (block number).bloom.IsFull

/-- The answer is a failure of the node or the store. -/
def Answer.IsFault : Answer → Prop
  | .go => False
  | .chain outcome => ∃ e, outcome = .error e
  | .subscribed outcome => ∃ e, outcome = .error e
  | .header outcome => ∃ e, outcome = .error e
  | .logs outcome => ∃ e, outcome = .error e
  | .arrival item => ∀ live, item ≠ some (.ok live)
  | .stored fault => fault ≠ none

/-- The store, when it fails by itself, does not speak of a conflict. -/
def Answer.IsHonest : Answer → Prop
  | .stored fault => ∀ e, fault = some e → e.isConflict = false
  | _ => True

/-! ## Blooms -/

namespace Bloom

variable {b : Bloom}

theorem byte_lt_of_mem_probes {input : List UInt8} {p : Probe} (h : p ∈ probes input) :
    p.byte < size := by
  unfold probes at h
  split at h
  · simp only [List.mem_cons, List.not_mem_nil, or_false] at h
    have below (high low : UInt8) : (probe high low).byte < size := by
      simp only [probe, size]
      omega
    rcases h with rfl | rfl | rfl <;> exact below _ _
  · cases h

theorem hasProbes?_isSome (full : b.IsFull) {ps : List Probe} (h : ∀ p ∈ ps, p.byte < size) :
    (b.hasProbes? ps).isSome := by
  induction ps with
  | nil => rfl
  | cons p rest ih =>
      have bound : p.byte < b.bytes.length := full.symm ▸ h p List.mem_cons_self
      unfold hasProbes?
      rw [List.getElem?_eq_getElem bound]
      dsimp only
      split
      · exact ih fun q mem => h q (List.mem_cons_of_mem p mem)
      · rfl

/-- In a full bloom every look-up succeeds. -/
theorem containsAny?_isSome (full : b.IsFull) (addresses : List String) :
    (b.containsAny? addresses).isSome := by
  induction addresses with
  | nil => rfl
  | cons address rest ih =>
      have found : (b.containsAddress? address).isSome :=
        hasProbes?_isSome full fun _ mem => byte_lt_of_mem_probes mem
      unfold containsAny?
      split
      · exact ih
      · exact found

end Bloom

/-! ## Heads of the chain -/

namespace View

def isStored (v : View) (chain number : UInt64) : Bool :=
  (v.headAt? chain number).isSome

/-- The heads of a chain have the hashes of that chain. -/
def Carries (v : View) (chain : ServedChain) : Prop :=
  ∀ {number : UInt64} {head : Head},
    v.headAt? chain.id number = some head → head.hash = (chain.block number).hash

/-- One view follows another on a chain by putting a block in place, or without a change of heads. -/
structure Wrote (v w : View) (chain number : UInt64) (confirms written : Bool) : Prop where
  stored : ∀ n, w.isStored chain n ↔ v.isStored chain n ∨ written ∧ n = number
  confirmed : ∀ n, w.isConfirmed chain n ↔ v.isConfirmed chain n ∨ written ∧ confirms ∧ n = number

variable {v w : View} {chain : ServedChain} {number : UInt64} {state : BlockState}

theorem isStored_of_isConfirmed {id : UInt64} (h : v.isConfirmed id number) : v.isStored id number := by
  obtain ⟨head, found, -⟩ := isConfirmed_iff.mp h
  exact Option.isSome_of_eq_some found

theorem Carries.holds (h : v.Carries chain) (stored : v.isStored chain.id number) :
    ∃ head, v.headAt? chain.id number = some head ∧ head.hash = (chain.block number).hash := by
  obtain ⟨head, found⟩ := Option.isSome_iff_exists.mp stored
  exact ⟨head, found, h found⟩

/-- A hash of the chain is stored under its own number only. -/
theorem Carries.number_of_holds (h : v.Carries chain) {m : UInt64}
    (held : v.holds chain.id m (chain.block number).hash) : m = number := by
  obtain ⟨head, found, hash⟩ := holds_iff.mp held
  exact chain.hash_unique ((h found).symm.trans hash)

theorem Carries.isStored_of_taken (h : v.Carries chain)
    (taken : v.Taken (.ofHeader chain.id (chain.block number) state)) : v.isStored chain.id number := by
  rcases taken with stored | ⟨m, held⟩
  · simpa [isStored, Head.ofHeader, chain.number_eq] using stored
  · have same := h.number_of_holds held
    obtain ⟨head, found, -⟩ := holds_iff.mp held
    exact same ▸ Option.isSome_of_eq_some found

theorem Carries.not_ownedElsewhere (h : v.Carries chain) (number : UInt64) (state : BlockState) :
    ¬v.OwnedElsewhere (.ofHeader chain.id (chain.block number) state) := by
  intro h
  rcases h with ⟨m, differ, held⟩
  exact differ ((h.number_of_holds held).trans (chain.number_eq number).symm)

theorem Wrote.of_same {confirms : Bool} (same : w.headAt? = v.headAt?) :
    v.Wrote w chain.id number confirms false := by
  constructor <;> intro n <;> simp [isStored, isConfirmed, same]

theorem Wrote.of_stored (stored : v.isStored chain.id number) :
    v.Wrote v chain.id number false true := by
  constructor
  · intro n
    constructor
    · exact Or.inl
    · intro h
      rcases h with old | ⟨-, rfl⟩
      · exact old
      · exact stored
  · intro n
    simp

theorem Carries.put (h : v.Carries chain) {head : Head} (place : head.number = number)
    (hash : head.hash = (chain.block number).hash) : (v.put head).Carries chain := by
  intro n other found
  simp only [View.put] at found
  split at found
  · rename_i here
    cases found
    rw [hash, here.2, place]
  · exact h found

theorem Wrote.put {head : Head} {confirms : Bool} (place : head.number = number)
    (on : head.chain = chain.id)
    (state : head.state = .confirmed ↔ v.isConfirmed chain.id number ∨ confirms) :
    v.Wrote (v.put head) chain.id number confirms true := by
  subst place
  constructor
  · intro n
    by_cases here : n = head.number
    · simp [isStored, View.put, on, here]
    · simp [isStored, View.put, here]
  · intro n
    by_cases here : n = head.number
    · subst here
      simp only [isConfirmed, View.put, on, and_self, if_true, Option.any_some, beq_iff_eq, true_and,
        and_true]
      exact state
    · simp [isConfirmed, View.put, here]

end View

/-! ## Writes of a ledger -/

namespace Signal

/-- The signal is about a run: a live block that it took, or its failure. -/
def isNews : Signal → Bool
  | .live _ _ | .failure _ _ => true
  | _ => false

end Signal

namespace Ledger

variable {S : Type}

/-- The signals about runs so far, oldest first. -/
def news (l : Ledger S) : List Signal :=
  l.outlet.signals.filter Signal.isNews

theorem news_emit (l : Ledger S) (signal : Signal) :
    (l.emit signal).news = l.news ++ [signal].filter Signal.isNews := by
  simp [news, emit, Outlet.emit, List.filter_append]

/-- Notices of heads and events are not signals about runs. -/
theorem news_of_signals {l m : Ledger S} {more : List Signal}
    (signals : m.outlet.signals = l.outlet.signals ++ more) (told : ∀ s ∈ more, s.isNews = false) :
    m.news = l.news := by
  have none : more.filter Signal.isNews = [] := by
    rw [List.filter_eq_nil_iff]
    intro s mem
    simp [told s mem]
  rw [news, signals, List.filter_append, none, List.append_nil]
  rfl

theorem news_tellEvents (l : Ledger S) (events : List Event) :
    news { l with outlet := l.outlet.tellEvents events } = l.news := by
  apply news_of_signals (show _ = _ ++ events.map Signal.event from rfl)
  simp [Signal.isNews]

variable [BlockStore S] [LawfulStore S]

/-- One ledger follows another by work on a block, which puts the block in place or changes no head. -/
structure Advances (chain : ServedChain) (number : UInt64) (confirms written : Bool)
    (l after : Ledger S) : Prop where
  sound : LawfulStore.Sound after.store
  carries : (LawfulStore.view after.store).Carries chain
  news : after.news = l.news
  wrote : (LawfulStore.view l.store).Wrote (LawfulStore.view after.store) chain.id number confirms written

variable {l : Ledger S} {chain : ServedChain} {number : UInt64}

theorem Advances.refl (sound : LawfulStore.Sound l.store) (carries : (LawfulStore.view l.store).Carries chain)
    (number : UInt64) (confirms : Bool) : l.Advances chain number confirms false l :=
  ⟨sound, carries, rfl, .of_same rfl⟩

theorem Advances.told {confirms written : Bool} {m after : Ledger S}
    (h : l.Advances chain number confirms written m) (store : after.store = m.store)
    (news : after.news = m.news) : l.Advances chain number confirms written after where
  sound := store ▸ h.sound
  carries := store ▸ h.carries
  news := news.trans h.news
  wrote := store ▸ h.wrote

/-- Recording an observed block puts it in place, or finds it stored. -/
theorem recordHead_spec (sound : LawfulStore.Sound l.store)
    (carries : (LawfulStore.view l.store).Carries chain) {fault : Option TrackError}
    (honest : ∀ e, fault = some e → e.isConflict = false) {state : BlockState} (observed : state ≠ .confirmed)
    {outcome : Except TrackError Head} {after : Ledger S}
    (moved : l.recordHead fault (.ofHeader chain.id (chain.block number) state) = (outcome, after)) :
    ∃ written, l.Advances chain number false written after ∧
      ((∃ head, outcome = .ok head ∧ written = true) ∨
        (∃ e, outcome = .error e ∧ e.isConflict ∧ written = true) ∨
        ∃ e, outcome = .error e ∧ e.isConflict = false ∧ fault ≠ none) := by
  unfold recordHead write at moved
  cases fault with
  | some e =>
      simp only [Prod.mk.injEq] at moved
      rcases moved with ⟨rfl, rfl⟩
      exact ⟨false, .refl sound carries number false, Or.inr (Or.inr ⟨e, rfl, honest e rfl, by simp⟩)⟩
  | none =>
      simp only [Prod.mk.injEq] at moved
      rcases moved with ⟨rfl, rfl⟩
      by_cases taken : (LawfulStore.view l.store).Taken (.ofHeader chain.id (chain.block number) state)
      · obtain ⟨e, conflict, same⟩ := LawfulStore.createHead_taken
          [fun stored outlet => (.ok (), outlet.tellHead (stored.withState .seen))] l.outlet sound taken
        rw [same]
        exact ⟨true, ⟨sound, carries, rfl, .of_stored (carries.isStored_of_taken taken)⟩,
          Or.inr (Or.inl ⟨e, rfl, conflict, rfl⟩)⟩
      · have applied := LawfulStore.createHead_free
          [fun stored outlet => (.ok (), outlet.tellHead (stored.withState .seen))] l.outlet sound taken
          (chain.bloom_full number)
        have told := applied.state
        have put := applied.view
        simp only [runHooks] at told put
        have unconfirmed : (LawfulStore.view l.store).isConfirmed chain.id number = false := by
          rw [Bool.eq_false_iff]
          intro confirmed
          refine taken (Or.inl ?_)
          simpa [View.isStored, Head.ofHeader, chain.number_eq] using View.isStored_of_isConfirmed confirmed
        refine ⟨true, ⟨applied.sound, ?_, ?_, ?_⟩, ?_⟩
        · exact put ▸ carries.put (chain.number_eq number) rfl
        · rw [told]
          exact news_of_signals rfl (by simp [Signal.isNews])
        · exact put ▸ .put (chain.number_eq number) rfl (by simp [Head.ofHeader, observed, unconfirmed])
        · exact Or.inl ⟨_, applied.outcome, rfl⟩

/-- Confirming a block puts it in place, unless the store fails. -/
theorem promoteHead_spec (sound : LawfulStore.Sound l.store)
    (carries : (LawfulStore.view l.store).Carries chain) {fault : Option TrackError}
    {outcome : Except TrackError Head} {after : Ledger S}
    (moved : l.promoteHead fault (.ofHeader chain.id (chain.block number) .confirmed) = (outcome, after)) :
    ∃ written, l.Advances chain number true written after ∧
      ((∃ head, outcome = .ok head ∧ written = true) ∨ ∃ e, outcome = .error e ∧ fault ≠ none) := by
  unfold promoteHead write at moved
  cases fault with
  | some e =>
      simp only [Prod.mk.injEq] at moved
      rcases moved with ⟨rfl, rfl⟩
      exact ⟨false, .refl sound carries number true, Or.inr ⟨e, rfl, by simp⟩⟩
  | none =>
      simp only [Prod.mk.injEq] at moved
      rcases moved with ⟨rfl, rfl⟩
      have applied := LawfulStore.upsertHead_free
        [fun stored outlet => (.ok (), outlet.tellHead stored)] l.outlet sound
        (carries.not_ownedElsewhere number .confirmed) (chain.bloom_full number)
      have told := applied.state
      have put := applied.view
      simp only [runHooks] at told put
      have state : ((LawfulStore.view l.store).settled
          (.ofHeader chain.id (chain.block number) .confirmed)).state = .confirmed := by
        unfold View.settled
        split <;> rfl
      refine ⟨true, ⟨applied.sound, ?_, ?_, ?_⟩, ?_⟩
      · exact put ▸ carries.put ((View.settled_number _).trans (chain.number_eq number)) (by simp [Head.ofHeader])
      · rw [told]
        exact news_of_signals rfl (by simp [Signal.isNews])
      · exact put ▸ .put ((View.settled_number _).trans (chain.number_eq number)) (by simp [Head.ofHeader])
          (by simp [state])
      · exact Or.inl ⟨_, applied.outcome, rfl⟩

/-- Saving events of a stored block adds them and changes no head, unless the store fails. -/
theorem saveLogs_spec (sound : LawfulStore.Sound l.store)
    (carries : (LawfulStore.view l.store).Carries chain)
    (stored : (LawfulStore.view l.store).isStored chain.id number) (confirms : Bool)
    {hooks : List (Hook Outlet (List Event))}
    (tell : ∀ events, ∃ outlet, runHooks hooks events l.outlet = (.ok (), outlet) ∧
      Ledger.news { l with outlet } = l.news)
    {fault : Option TrackError} {events : List Event} {outcome : Except TrackError (List Event)}
    {after : Ledger S}
    (moved : l.write fault (fun store outlet =>
      BlockStore.saveLogs store chain.id (chain.block number).hash events hooks outlet) = (outcome, after)) :
    l.Advances chain number confirms false after ∧ ∀ e, outcome = .error e → fault ≠ none := by
  unfold write at moved
  cases fault with
  | some e =>
      simp only [Prod.mk.injEq] at moved
      rcases moved with ⟨rfl, rfl⟩
      exact ⟨.refl sound carries number confirms, by simp⟩
  | none =>
      simp only [Prod.mk.injEq] at moved
      rcases moved with ⟨rfl, rfl⟩
      by_cases none : events = []
      · rw [none, LawfulStore.saveLogs_nil]
        exact ⟨.refl sound carries number confirms, by simp⟩
      · obtain ⟨block, found, hash⟩ := carries.holds stored
        have applied := LawfulStore.saveLogs_known hooks l.outlet sound none found hash
        obtain ⟨outlet, told, quiet⟩ := tell (events.map (·.mergeWith block))
        rw [told] at applied
        have kept := applied.view
        simp only at kept
        have same : (LawfulStore.view (BlockStore.saveLogs l.store chain.id (chain.block number).hash events
            hooks l.outlet).store).headAt? = (LawfulStore.view l.store).headAt? := by
          rw [kept, View.keep_headAt?]
        refine ⟨⟨applied.sound, ?_, ?_, .of_same same⟩, ?_⟩
        · intro n head found
          exact carries (same ▸ found)
        · rw [applied.state]
          exact quiet
        · rw [applied.outcome]
          simp [Except.map]

end Ledger

/-! ## Steps of the work -/

namespace Work

def header : Work → Header
  | .record header _ | .fetchSeen header _ | .saveSeen header _ => header
  | .fetchConfirmed header _ | .promote header _ | .saveConfirmed header _ => header

def confirms : Work → Bool
  | .record _ _ | .fetchSeen _ _ | .saveSeen _ _ => false
  | .fetchConfirmed _ _ | .promote _ _ | .saveConfirmed _ _ => true

/-- Whether the block is in place, and only its events are left. -/
def isWritten : Work → Bool
  | .fetchSeen _ _ | .saveSeen _ _ | .saveConfirmed _ _ => true
  | .record _ _ | .fetchConfirmed _ _ | .promote _ _ => false

/-- The work is on a block of a chain, to confirm it or only to observe it. -/
structure IsOn (chain : ServedChain) (number : UInt64) (confirms : Bool) (work : Work) : Prop where
  header_eq : work.header = chain.block number
  confirms_eq : work.confirms = confirms
  observed : ∀ {header : Header} {state : BlockState}, work = .record header state → state ≠ .confirmed

end Work

/-- The possible results of a step of the work; it fails only for a fault. -/
def Progress.IsOn (chain : ServedChain) (number : UInt64) (confirms written : Bool) (fault : Prop) :
    Progress → Prop
  | .waits work => work.IsOn chain number confirms ∧ work.isWritten = written
  | .finished => written = true
  | .failed _ => fault
  | .crashed => False

theorem Progress.IsOn.mono {chain : ServedChain} {number : UInt64} {confirms written : Bool}
    {fault : Prop} {progress : Progress} (h : progress.IsOn chain number confirms written False) :
    progress.IsOn chain number confirms written fault := by
  cases progress with
  | failed e => exact h.elim
  | _ => exact h

namespace Work

variable {S : Type} {l : Ledger S} {chain : ServedChain} {number : UInt64}

theorem observe_spec (l : Ledger S) (chain : ServedChain) (number : UInt64) :
    (observe l (chain.block number)).IsOn chain number false false False := by
  obtain ⟨held, found⟩ := Option.isSome_iff_exists.mp
    (Bloom.containsAny?_isSome (chain.bloom_full number) l.outlet.dispatcher.addresses)
  unfold observe Outlet.mayHold?
  rw [found]
  refine ⟨⟨rfl, rfl, ?_⟩, rfl⟩
  intro header state h
  cases h
  cases held <;> simp

theorem tellConfirmed_spec (l : Ledger S) (chain : ServedChain) (number : UInt64) (events : List Event) :
    (tellConfirmed l (chain.block number) events).1.IsOn chain number true false False ∧
      (tellConfirmed l (chain.block number) events).2.store = l.store ∧
      (tellConfirmed l (chain.block number) events).2.news = l.news :=
  ⟨⟨⟨rfl, rfl, by simp⟩, rfl⟩, rfl, l.news_tellEvents events⟩

theorem confirm_spec (l : Ledger S) (chain : ServedChain) (number : UInt64) :
    (confirm l (chain.block number)).1.IsOn chain number true false False ∧
      (confirm l (chain.block number)).2.store = l.store ∧
      (confirm l (chain.block number)).2.news = l.news := by
  obtain ⟨held, found⟩ := Option.isSome_iff_exists.mp
    (Bloom.containsAny?_isSome (chain.bloom_full number) l.outlet.dispatcher.addresses)
  unfold confirm Outlet.mayHold?
  rw [found]
  cases held with
  | false => exact tellConfirmed_spec l chain number []
  | true =>
      dsimp only
      split
      · exact tellConfirmed_spec l chain number []
      · refine ⟨⟨⟨rfl, rfl, by simp⟩, rfl⟩, rfl, ?_⟩
        rw [Ledger.news_emit]
        simp [Signal.isNews]

theorem afterRecord_spec (l : Ledger S) (chain : ServedChain) (number : UInt64) (state : BlockState) :
    (afterRecord l (chain.block number) state).1.IsOn chain number false true False ∧
      (afterRecord l (chain.block number) state).2.store = l.store ∧
      (afterRecord l (chain.block number) state).2.news = l.news := by
  unfold afterRecord
  split
  · split
    · exact ⟨rfl, rfl, rfl⟩
    · refine ⟨⟨⟨rfl, rfl, by simp⟩, rfl⟩, rfl, ?_⟩
      rw [Ledger.news_emit]
      simp [Signal.isNews]
  · exact ⟨rfl, rfl, rfl⟩

variable [BlockStore S] [LawfulStore S]

section Steps

variable {session : Session} {fault : Option TrackError} {progress : Progress} {after : Ledger S}

theorem resume?_record (same : session.chain = chain.id) {state : BlockState}
    (sound : LawfulStore.Sound l.store) (carries : (LawfulStore.view l.store).Carries chain)
    (observed : state ≠ .confirmed) (honest : (Answer.stored fault).IsHonest)
    (moved : (Work.record (chain.block number) state).resume? session l (.stored fault) =
      some (progress, after)) :
    ∃ written, l.Advances chain number false written after ∧
      progress.IsOn chain number false written (fault ≠ none) := by
  unfold resume? at moved
  rw [same] at moved
  cases h : l.recordHead fault (.ofHeader chain.id (chain.block number) state) with
  | mk outcome recorded =>
      simp only [h] at moved
      obtain ⟨written, advances, ⟨head, rfl, rfl⟩ | ⟨e, rfl, conflict, rfl⟩ | ⟨e, rfl, conflict, failed⟩⟩ :=
        Ledger.recordHead_spec sound carries honest observed h
      · simp only [Option.some.injEq] at moved
        obtain ⟨on, store, news⟩ := afterRecord_spec recorded chain number state
        rw [moved] at on store news
        exact ⟨true, advances.told store news, on.mono⟩
      · simp only [conflict, if_true, Option.some.injEq, Prod.mk.injEq] at moved
        rcases moved with ⟨rfl, rfl⟩
        exact ⟨true, advances, rfl⟩
      · simp only [conflict, Bool.false_eq_true, if_false, Option.some.injEq, Prod.mk.injEq] at moved
        rcases moved with ⟨rfl, rfl⟩
        exact ⟨written, advances, failed⟩

theorem resume?_promote (same : session.chain = chain.id) {events : List Event}
    (sound : LawfulStore.Sound l.store) (carries : (LawfulStore.view l.store).Carries chain)
    (moved : (Work.promote (chain.block number) events).resume? session l (.stored fault) =
      some (progress, after)) :
    ∃ written, l.Advances chain number true written after ∧
      progress.IsOn chain number true written (fault ≠ none) := by
  unfold resume? at moved
  rw [same] at moved
  cases h : l.promoteHead fault (.ofHeader chain.id (chain.block number) .confirmed) with
  | mk outcome promoted =>
      obtain ⟨written, advances, ⟨head, rfl, rfl⟩ | ⟨e, rfl, failed⟩⟩ :=
        Ledger.promoteHead_spec sound carries h
      · simp only [h, Option.some.injEq, Prod.mk.injEq] at moved
        rcases moved with ⟨rfl, rfl⟩
        refine ⟨true, advances, ?_⟩
        split
        · rfl
        · exact ⟨⟨rfl, rfl, by simp⟩, rfl⟩
      · simp only [h, Option.some.injEq, Prod.mk.injEq] at moved
        rcases moved with ⟨rfl, rfl⟩
        exact ⟨written, advances, failed⟩

theorem saved_spec {outcome : Except TrackError (List Event)} {kept : Ledger S} {confirms : Bool}
    (saved : l.Advances chain number confirms false kept ∧ ∀ e, outcome = .error e → fault ≠ none)
    (ok : ∀ events, outcome = .ok events → progress = .finished ∧ after = kept)
    (error : ∀ e, outcome = .error e → progress = .failed e ∧ after = kept) :
    l.Advances chain number confirms false after ∧ progress.IsOn chain number confirms true (fault ≠ none) := by
  obtain ⟨advances, failed⟩ := saved
  cases outcome with
  | ok events =>
      rcases ok events rfl with ⟨rfl, rfl⟩
      exact ⟨advances, rfl⟩
  | error e =>
      rcases error e rfl with ⟨rfl, rfl⟩
      exact ⟨advances, failed e rfl⟩

theorem resume?_saveSeen (same : session.chain = chain.id) {events : List Event}
    (sound : LawfulStore.Sound l.store) (carries : (LawfulStore.view l.store).Carries chain)
    (stored : (LawfulStore.view l.store).isStored chain.id number)
    (moved : (Work.saveSeen (chain.block number) events).resume? session l (.stored fault) =
      some (progress, after)) :
    l.Advances chain number false false after ∧ progress.IsOn chain number false true (fault ≠ none) := by
  unfold resume? at moved
  rw [same] at moved
  cases h : l.recordEvents fault chain.id (chain.block number).hash events with
  | mk outcome kept =>
      simp only [h] at moved
      have saved := Ledger.saveLogs_spec sound carries stored false
        (fun events => ⟨_, rfl, l.news_tellEvents events⟩) h
      refine saved_spec saved ?_ ?_
      · intro events h
        cases h
        simpa [eq_comm] using moved
      · intro e h
        cases h
        simpa [eq_comm] using moved

theorem resume?_saveConfirmed (same : session.chain = chain.id) {events : List Event}
    (sound : LawfulStore.Sound l.store) (carries : (LawfulStore.view l.store).Carries chain)
    (stored : (LawfulStore.view l.store).isStored chain.id number)
    (moved : (Work.saveConfirmed (chain.block number) events).resume? session l (.stored fault) =
      some (progress, after)) :
    l.Advances chain number true false after ∧ progress.IsOn chain number true true (fault ≠ none) := by
  unfold resume? at moved
  rw [same] at moved
  cases h : l.keepEvents fault chain.id (chain.block number).hash events with
  | mk outcome kept =>
      simp only [h] at moved
      have saved := Ledger.saveLogs_spec sound carries stored true (fun events => ⟨_, rfl, rfl⟩) h
      refine saved_spec saved ?_ ?_
      · intro events h
        cases h
        simpa [eq_comm] using moved
      · intro e h
        cases h
        simpa [eq_comm] using moved

end Steps

/-- A step of the work on a served block puts it in place or changes no head, and fails only with the
node or the store. -/
theorem resume?_spec {session : Session} (same : session.chain = chain.id) {work : Work} {confirms : Bool}
    {answer : Answer} {progress : Progress} {after : Ledger S} (sound : LawfulStore.Sound l.store)
    (carries : (LawfulStore.view l.store).Carries chain) (on : work.IsOn chain number confirms)
    (stored : work.isWritten → (LawfulStore.view l.store).isStored chain.id number)
    (honest : answer.IsHonest) (moved : work.resume? session l answer = some (progress, after)) :
    ∃ written, l.Advances chain number confirms written after ∧
      progress.IsOn chain number confirms (work.isWritten || written) answer.IsFault := by
  obtain ⟨header_eq, confirms_eq, observed⟩ := on
  have still := Ledger.Advances.refl sound carries number confirms
  have split_moved := moved
  unfold resume? at split_moved
  split at split_moved
  case h_1 header state fault =>
    cases header_eq
    cases confirms_eq
    exact resume?_record same sound carries (observed rfl) honest moved
  case h_2 =>
    cases split_moved
    exact ⟨false, still, _, rfl⟩
  case h_3 header addresses logs =>
    cases header_eq
    cases confirms_eq
    split at split_moved <;> cases split_moved
    · exact ⟨false, still, rfl⟩
    · exact ⟨false, still, ⟨rfl, rfl, by simp⟩, rfl⟩
  case h_4 header events fault =>
    cases header_eq
    cases confirms_eq
    exact ⟨false, resume?_saveSeen same sound carries (stored rfl) moved⟩
  case h_5 =>
    cases split_moved
    exact ⟨false, still, _, rfl⟩
  case h_6 header addresses logs =>
    cases header_eq
    cases confirms_eq
    simp only [Option.some.injEq] at split_moved
    obtain ⟨on, store, news⟩ := tellConfirmed_spec l chain number (session.events .confirmed logs)
    rw [split_moved] at on store news
    exact ⟨false, still.told store news, on.mono⟩
  case h_7 header events fault =>
    cases header_eq
    cases confirms_eq
    exact resume?_promote same sound carries moved
  case h_8 header events fault =>
    cases header_eq
    cases confirms_eq
    exact ⟨false, resume?_saveConfirmed same sound carries (stored rfl) moved⟩
  case h_9 => cases split_moved

end Work

end Chainwatch
