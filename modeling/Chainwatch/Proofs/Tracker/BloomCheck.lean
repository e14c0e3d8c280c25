import Chainwatch.Proofs.Bloom.Accrual
import Chainwatch.Proofs.Bloom.Spelling
import Chainwatch.Proofs.Store.Nested
import Chainwatch.Proofs.Tracker.Logbook
import Chainwatch.Proofs.Tracker.Subscriptions

/-!
# The bloom check before logs are requested

A block is looked into only if its bloom contains a watched address. Watched addresses and those of logs
are matched in letters of any case, but the bloom is probed with the bytes that one spelling stands for,
so that a block with a log of a watched address may be skipped. It is not if that spelling is the one in
the log, or if both are hexadecimal.
-/

namespace Chainwatch

/-- Whether a block is looked into whose only log has this address. -/
def Dispatcher.Finds (d : Dispatcher) (address : String) : Prop :=
  ∃ spelling ∈ d.addresses, (Bloom.empty.accrueAddress address).containsAddress? spelling = some true

/-- A log is found if its address and a watched spelling stand for the same bytes. -/
theorem Dispatcher.finds_of_addressBytes {d : Dispatcher} {spelling address : String} (kept : spelling ∈ d.addresses)
    (same : Bloom.addressBytes spelling = Bloom.addressBytes address) : d.Finds address :=
  ⟨spelling, kept, (Bloom.accrues_accrueAddress address).containsAddress? List.mem_cons_self same⟩

theorem Dispatcher.isSpelled_of_watches {d : Dispatcher} {m : Mailbox Event} {address : String}
    (mem : m ∈ d.events.registered) (watches : m.watches address) : IsSpelled address d.addresses := by
  obtain ⟨topic, watched, same⟩ := (Option.any_eq_true ..).mp watches
  obtain ⟨spelling, kept, spelled⟩ := isSpelled_distinctTopics (List.mem_filterMap.mpr ⟨m, mem, watched⟩)
  refine ⟨spelling, kept, ?_⟩
  rw [Text.eqIgnoreCase_iff] at same spelled ⊢
  exact spelled.trans same

/-- A bloom in which a log of the address alone is found has it found among further logs. -/
theorem Outlet.mayHold?_of_finds {o : Outlet} {address : String} {bloom : Bloom} {addresses : List String}
    (finds : o.dispatcher.Finds address) (accrues : bloom.Accrues addresses) (mem : address ∈ addresses) :
    o.mayHold? bloom = some true := by
  obtain ⟨spelling, kept, found⟩ := finds
  rw [mayHold?, Bloom.containsAny?_eq accrues.full, Option.some.injEq, List.any_eq_true]
  exact ⟨spelling, kept, by rw [(accrues.covers mem).containsAddress? found, beq_self_eq_true]⟩

theorem Outlet.finds_of_mayHold? {o : Outlet} {address : String}
    (held : o.mayHold? (Bloom.empty.accrueAddress address) = some true) : o.dispatcher.Finds address := by
  rw [mayHold?, Bloom.containsAny?_eq (Bloom.accrues_accrueAddress address).full, Option.some.injEq,
    List.any_eq_true] at held
  obtain ⟨spelling, kept, found⟩ := held
  exact ⟨spelling, kept, eq_of_beq found⟩

namespace Ledger

variable {S : Type} {l : Ledger S} {session : Session} {header : Header}

theorem addresses_ne_nil_of_mayHold? (held : l.outlet.mayHold? header.bloom = some true) : l.addresses ≠ [] := by
  intro none
  have nothing : l.outlet.mayHold? header.bloom = some false := by
    rw [Outlet.mayHold?, show l.outlet.dispatcher.addresses = [] from none]
    rfl
  rw [nothing] at held
  cases held

variable [BlockStore S]

/-- The block is looked into: observing it records it as seen and then requests its logs, and confirming
it requests its logs as well. -/
structure LooksInto (session : Session) (l : Ledger S) (header : Header) : Prop where
  held : l.outlet.mayHold? header.bloom = some true
  observed : Work.observe l header = .waits (.record header .seen)
  seen : ∀ {stored : Head} {after : Ledger S},
    l.recordHead none (.ofHeader session.chain header .seen) = (.ok stored, after) →
      (Work.record header .seen).resume? session l (.stored none) =
        some (.waits (.fetchSeen header l.addresses),
          after.emit (.asked (.logs l.addresses header.number header.number)))
  confirmed : Work.confirm l header =
    (.waits (.fetchConfirmed header l.addresses), l.emit (.asked (.logs l.addresses header.number header.number)))

variable [LawfulStore S]

theorem looksInto_of_mayHold? (sound : LawfulStore.Sound l.store) (full : header.bloom.IsFull)
    (held : l.outlet.mayHold? header.bloom = some true) : l.LooksInto session header := by
  have watching := addresses_ne_nil_of_mayHold? held
  refine ⟨held, ?_, ?_, ?_⟩
  · rw [Work.observe, held]
    rfl
  · intro stored after recorded
    -- the recorded head is dispatched, which leaves the watched addresses unchanged
    have kept := (reports_recordHead sound none (.ofHeader session.chain header .seen) full).informs.addresses
    rw [recorded] at kept
    have kept : after.outlet.dispatcher.addresses = l.addresses := kept
    rw [Work.resume?, recorded]
    dsimp only
    rw [Work.afterRecord, if_pos rfl, ← kept]
    split
    · rename_i none
      exact (watching (kept.symm.trans none)).elim
    · rfl
  · rw [Work.confirm, held]
    dsimp only
    split
    · rename_i none
      exact (watching none).elim
    · rfl

/-- Whatever else a block holds and whoever else subscribes: every block with a log of an address is
looked into exactly if one with that log alone is. That is so where the address is watched and is either
listed in the spelling of the log or hexadecimal in both spellings. -/
theorem looksInto_iff_finds (sound : LawfulStore.Sound l.store) (session : Session) (address : String) :
    ((∀ (header : Header) (logs : List Log), (∃ log ∈ logs, log.address = address) →
        header.bloom.Accrues (logs.map (·.address)) → l.LooksInto session header) ↔
      l.outlet.dispatcher.Finds address) ∧
    ∀ m ∈ l.outlet.dispatcher.events.registered, m.watches address → IsSpelled address l.addresses ∧
      ((∀ spelling ∈ l.addresses, Text.eqIgnoreCase spelling address →
          spelling = address ∨ Text.Hex.IsRead spelling ∧ Text.Hex.IsRead address) →
        l.outlet.dispatcher.Finds address) := by
  refine ⟨⟨fun every => ?_, fun finds header logs ⟨log, mem, bears⟩ accrues => ?_⟩, fun m mem watches => ?_⟩
  · have alone := Bloom.accrues_accrueAddress address
    have looks := every { (default : Header) with bloom := Bloom.empty.accrueAddress address }
      [{ (default : Log) with address := address }] ⟨_, List.mem_cons_self, rfl⟩ alone
    exact Outlet.finds_of_mayHold? looks.held
  · refine looksInto_of_mayHold? sound accrues.full (Outlet.mayHold?_of_finds finds accrues ?_)
    exact List.mem_map.mpr ⟨log, mem, bears⟩
  · have spelled := Dispatcher.isSpelled_of_watches mem watches
    refine ⟨spelled, fun readable => ?_⟩
    obtain ⟨spelling, kept, same⟩ := spelled
    exact Dispatcher.finds_of_addressBytes kept ((Bloom.addressBytes_eq_iff same).mpr (readable spelling kept same))

/-- The watched address is spelled with the capitals of a checksum, and the log has it in small letters. -/
theorem looksInto_iff_finds_checksum :
    let l : Ledger NestedStore :=
      ⟨.empty, ⟨((Dispatcher.make 1 1).subscribe (.events "0xA0b86991c6218b36c1d19D4a2e9Eb0cE3606eB48")).2, []⟩⟩
    let log := { (default : Log) with address := "0xa0b86991c6218b36c1d19d4a2e9eb0ce3606eb48" }
    let header := { (default : Header) with bloom := Bloom.empty.accrueAddress log.address }
    LawfulStore.Sound l.store ∧ (∃ m ∈ l.outlet.dispatcher.events.registered, m.watches log.address) ∧
      l.outlet.dispatcher.Finds log.address ∧ l.LooksInto ⟨0, 1, 1⟩ header := by
  intro l log header
  have sound : LawfulStore.Sound l.store := NestedStore.sound_empty
  obtain ⟨exact, watched⟩ := looksInto_iff_finds sound ⟨0, 1, 1⟩ log.address
  have subscribed : ∃ m ∈ l.outlet.dispatcher.events.registered, m.watches log.address := by decide +kernel
  obtain ⟨m, mem, watches⟩ := subscribed
  have finds := (watched m mem watches).2 (by decide +kernel)
  exact ⟨sound, ⟨m, mem, watches⟩, finds,
    exact.mpr finds header [log] ⟨log, List.mem_cons_self, rfl⟩ (Bloom.accrues_accrueAddress _)⟩

end Ledger

/-- A log of a watched address is skipped: the address is watched in capitals, its mark included. -/
theorem Dispatcher.passes_over_capital_mark :
    let d := ((make 1 1).subscribe (.events "0XA0B86991C6218B36C1D19D4A2E9EB0CE3606EB48")).2
    let log := { (default : Log) with address := "0xa0b86991c6218b36c1d19d4a2e9eb0ce3606eb48" }
    let header := { (default : Header) with bloom := Bloom.empty.accrueAddress log.address }
    let l : Ledger Unit := ⟨(), ⟨d, []⟩⟩
    d.events.registered.any (·.watches log.address) ∧ header.bloom.Accrues [log.address] ∧
      l.outlet.mayHold? header.bloom = some false ∧ Work.observe l header = .waits (.record header .skipped) ∧
      Work.confirm l header = (.waits (.promote header []), l) := by
  intro d log header l
  have missed : l.outlet.mayHold? header.bloom = some false := by decide +kernel
  refine ⟨by decide +kernel, Bloom.accrues_accrueAddress _, missed, ?_, ?_⟩
  · rw [Work.observe, missed]
    rfl
  · rw [Work.confirm, missed]
    rfl

end Chainwatch
