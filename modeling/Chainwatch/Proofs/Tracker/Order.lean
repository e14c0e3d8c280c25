import Chainwatch.Proofs.Tracker.Kept
import Chainwatch.Proofs.Tracker.Telling

/-!
# Seen, then confirmed

The watch processes the live blocks one after another, and for each it reports what is seen in it before
what it makes final. So the notices of a subscription that lasts through a run come in an order that is
known beforehand, whatever the backfill does meanwhile.
-/

namespace Chainwatch

def Notice.number : Notice → UInt64
  | .head h => h.number
  | .event e => e.blockNumber

def numbersBetween (first last : UInt64) : List UInt64 :=
  (List.range' first.toNat (last.toNat + 1 - first.toNat)).map UInt64.ofNat

theorem filter_number {notices : List Notice} {number : UInt64} (numbered : ∀ notice ∈ notices, notice.number = number)
    (p : UInt64 → Bool) : notices.filter (fun notice => p notice.number) = if p number then notices else [] := by
  cases admits : p number with
  | true =>
      rw [if_pos rfl, List.filter_eq_self]
      intro notice mem
      rw [numbered notice mem, admits]
  | false =>
      rw [if_neg Bool.false_ne_true, List.filter_eq_nil_iff]
      intro notice mem
      rw [numbered notice mem, admits]
      exact Bool.false_ne_true

theorem flatMap_of_getLast? {α β : Type} (f : α → List β) {xs : List α} {last : α} (found : xs.getLast? = some last) :
    xs.flatMap f = xs.dropLast.flatMap f ++ f last := by
  obtain ⟨before, rfl⟩ := List.getLast?_eq_some_iff.mp found
  simp

namespace ServedLogs

variable {chain : ServedChain} {book : ServedLogs chain} {address : String} {state : BlockState} {number : UInt64}

theorem number_of_mem_notices {notice : Notice} (mem : notice ∈ book.notices address state number) :
    notice.number = number := by
  obtain ⟨log, emitted, rfl⟩ := List.mem_map.mp mem
  exact book.number_eq (mem_emitted.mp emitted).1

end ServedLogs

variable {S : Type} [BlockStore S] [LawfulStore S]

namespace Outset

variable (o : Outset S) (book : ServedLogs o.chain) (address : String)

/-- The node replies with the logs of its chain. -/
def Replies (t : Tracker S) (id : Nat) (answer : Answer) : Prop :=
  ∀ {addresses : List String} {logs : List Log} {number : UInt64},
    t.wait? id = some (.node (.logs addresses number number)) → answer = .logs (.ok logs) →
      logs = book.reply addresses number

/-- The notices for a live block, given the first one: the logs seen in it, and then those of the block
that it makes final. -/
def brings (first number : UInt64) : List Notice :=
  book.notices address .seen number ++
    if o.IsFinal first number then book.notices address .confirmed (number - o.plan.threshold) else []

end Outset

/-- The notices of a step of the work, of the blocks from some number on. -/
def Work.newly (address : String) (first : UInt64) (session : Session) (block : Head) (work : Work) (answer : Answer) :
    List Notice :=
  (heardOf address (work.told session block answer)).filter fun notice => first ≤ notice.number

/-! ## Points of the watch -/

section Points

variable (o : Outset S) (book : ServedLogs o.chain) (address : String) (first : UInt64)

/-- The notices of the live blocks so far, when the watch is at a point. -/
def WatchPoint.brought (lives : List UInt64) : WatchPoint → List Notice
  | .launched | .subscribing | .listening => lives.flatMap (o.brings book address first)
  | .observing _ _ => lives.dropLast.flatMap (o.brings book address first)
  | .fetchingTarget live =>
      lives.dropLast.flatMap (o.brings book address first) ++ book.notices address .seen live.number
  | .confirming live work =>
      if work.isUntold then
        lives.dropLast.flatMap (o.brings book address first) ++ book.notices address .seen live.number
      else lives.flatMap (o.brings book address first)

/-- The work of the watch will give the remaining notices. -/
def WatchPoint.IsDue (v : View) : WatchPoint → Prop
  | .observing live work => book.IsDue address v live.number work
  | .confirming live work => book.IsDue address v (live.number - o.plan.threshold) work
  | .launched | .subscribing | .listening | .fetchingTarget _ => True

/-- A run whose first live block is the expected one, and the notices that a subscription got of the
blocks from there on. -/
structure Outset.Brought (heard : List Notice) (t : Tracker S) : Prop where
  counts : (t.lives o.run).map (·.toNat) = List.range' first.toNat (t.lives o.run).length
  /-- Nothing is stored beyond the live blocks. -/
  free : ∀ n : UInt64, first.toNat + (t.lives o.run).length ≤ n.toNat →
    (LawfulStore.view t.ledger.store).headAt? o.chain.id n = none
  early : t.lives o.run = [] → heard = []
  watch : ∀ {id : Nat} {session : Session} {point : WatchPoint}, t.tasks[id]? = some (.watching session point) →
    heard = point.brought o book address first (t.lives o.run) ∧
      point.IsDue o book address (LawfulStore.view t.ledger.store)

end Points

namespace Outset.Brought

variable {o : Outset S} {book : ServedLogs o.chain} {address : String} {first last : UInt64} {heard more : List Notice}
  {t u : Tracker S} {m : Mark} {id : Nat} {task next : Task} {answer : Answer} {mid : Ledger S} {new : List Task}
  {session : Session} {work : Work} {live : Header} {lives : List UInt64}

/-! ### Live blocks -/

theorem toNat_last (h : o.Brought book address first heard t) (found : (t.lives o.run).getLast? = some last) :
    last.toNat + 1 = first.toNat + (t.lives o.run).length := by
  obtain ⟨before, lives⟩ := List.getLast?_eq_some_iff.mp found
  have counts := h.counts
  rw [lives, List.length_append, List.length_singleton, List.range'_1_concat, List.map_append, List.map_singleton]
    at counts
  have tops := List.append_inj_right' counts rfl
  rw [lives, List.length_append, List.length_singleton]
  simp only [List.cons.injEq, and_true] at tops
  omega

theorem lives_eq (h : o.Brought book address first heard t) (found : (t.lives o.run).getLast? = some last) :
    t.lives o.run = numbersBetween first last := by
  have top := h.toNat_last found
  have counts := congrArg (List.map UInt64.ofNat) h.counts
  rw [List.map_map, show (UInt64.ofNat ∘ fun n : UInt64 => n.toNat) = id from funext fun n => UInt64.ofNat_toNat,
    List.map_id] at counts
  rw [counts, numbersBetween, show last.toNat + 1 - first.toNat = (t.lives o.run).length by omega]

theorem first_le_last (h : o.Brought book address first heard t) (found : (t.lives o.run).getLast? = some last) :
    first ≤ last := by
  have top := h.toNat_last found
  have some : 0 < (t.lives o.run).length := by
    rw [List.length_pos_iff]
    intro none
    rw [none] at found
    cases found
  rw [UInt64.le_iff_toNat_le]
  omega

theorem eq_first (h : o.Brought book address first heard t) {f : UInt64} (found : (t.lives o.run).head? = some f) :
    f = first := by
  have counts := h.counts
  cases lives : t.lives o.run with
  | nil =>
      rw [lives] at found
      cases found
  | cons live rest =>
      rw [lives] at found counts
      cases found
      simp only [List.map_cons, List.length_cons, List.range'_succ, List.cons.injEq] at counts
      exact UInt64.toNat_inj.mp counts.1

/-- Every block at work is at most the last live block. -/
theorem le_last (h : o.Brought book address first heard t) {number : UInt64} {confirms : Bool}
    (at_work : o.IsAtWork t number confirms work) :
    ∃ last, (t.lives o.run).getLast? = some last ∧ number ≤ last := by
  cases confirms with
  | false =>
      obtain ⟨f, last, spans, observes⟩ := at_work.observes rfl
      cases h.eq_first spans.head
      have rises := UInt64.le_iff_toNat_le.mp (h.first_le_last spans.last)
      refine ⟨last, spans.last, ?_⟩
      rw [UInt64.le_iff_toNat_le]
      rcases observes with ⟨-, below⟩ | ⟨-, high⟩
      · have below := UInt64.lt_iff_toNat_lt.mp below
        omega
      · exact UInt64.le_iff_toNat_le.mp high
  | true =>
      obtain ⟨f, last, spans, confirms⟩ := at_work.finalizes rfl
      cases h.eq_first spans.head
      have rises := UInt64.le_iff_toNat_le.mp (h.first_le_last spans.last)
      refine ⟨last, spans.last, ?_⟩
      rw [UInt64.le_iff_toNat_le]
      rcases confirms with ⟨-, below⟩ | ⟨-, final⟩
      · omega
      · have final : number.toNat + o.plan.threshold.toNat ≤ last.toNat := final
        omega

theorem lt_first (h : o.Brought book address first heard t) (runAt : RunAt o False none t m) {number : UInt64}
    (found : t.tasks[id]? = some (.sweeping session last (.working number work))) : number < first := by
  obtain ⟨sweep, -, bound, some, -, high, -⟩ := runAt.tasks (by simp) found
  have met : t.lives o.run ≠ [] := by
    intro none
    rw [(runAt.storeAt.unmet none).1] at sweep
    cases sweep
  obtain ⟨f, spans⟩ := spans_of_last (List.getLast?_eq_some_getLast met)
  have known := runAt.storeAt.head spans.head
  cases h.eq_first spans.head
  have positive : last.toNat ≠ 0 := fun zero => some (UInt64.toNat_inj.mp zero)
  have high := UInt64.le_iff_toNat_le.mp high
  rw [UInt64.lt_iff_toNat_lt]
  omega

/-! ### Steps without work -/

theorem still (h : o.Brought book address first heard t) (quiet : t.ledger.Quiet mid)
    (stepsTo : t.StepsTo id mid next new u)
    (goes : ∀ {session : Session} {point : WatchPoint}, next = .watching session point ∨ .watching session point ∈ new →
      heard = point.brought o book address first (t.lives o.run) ∧
        point.IsDue o book address (LawfulStore.view t.ledger.store)) :
    o.Brought book address first heard u := by
  have lives : u.lives o.run = t.lives o.run := (stepsTo.quiet.lives o.run).trans (quiet.lives o.run)
  have store : u.ledger.store = t.ledger.store := stepsTo.quiet.store.trans quiet.store
  refine ⟨lives ▸ h.counts, ?_, lives ▸ h.early, ?_⟩
  · rw [lives, store]
    exact h.free
  · intro j session point there
    rw [lives, store]
    rcases stepsTo.cases there with ⟨-, same⟩ | ⟨-, old⟩ | launched | ⟨stop, other⟩
    · exact goes (Or.inl same.symm)
    · exact h.watch old
    · exact goes (Or.inr launched)
    · cases other

/-- The watch takes a live block. -/
theorem meet (h : o.Brought book address first heard t) (runAt : RunAt o False none t m)
    (found : t.tasks[id]? = some (.watching session .listening))
    (serves : o.Serves t id (.arrival (some (.ok live))))
    (stepsTo : t.StepsTo id (t.ledger.emit (.live session.run live.number)) next [] u)
    (met : ∀ {f : UInt64}, (u.lives o.run).head? = some f → f = first)
    (probed : book.IsProbed address t.addresses) (spelled : IsSpelled address t.addresses)
    (goes : ∀ {session : Session} {point : WatchPoint}, next = .watching session point →
      ∃ work, point = .observing live work ∧ Work.observe t.ledger live = .waits work) :
    o.Brought book address first heard u := by
  obtain ⟨-, rfl, -⟩ := runAt.tasks (by simp) found
  obtain ⟨served, follow⟩ := serves rfl
  have lives : u.lives o.run = t.lives o.run ++ [live.number] := stepsTo.lives_of_live
  have place : live.number.toNat = first.toNat + (t.lives o.run).length := by
    cases last : (t.lives o.run).getLast? with
    | none =>
        have none := List.getLast?_eq_none_iff.mp last
        have same : live.number = first := met (by rw [lives, none]; rfl)
        rw [same, none]
        rfl
    | some last' => rw [follow last, h.toNat_last last]
  have store : u.ledger.store = t.ledger.store := stepsTo.quiet.store
  constructor
  case counts =>
    rw [lives, List.length_append, List.length_singleton, List.range'_1_concat, List.map_append, h.counts]
    simp [place]
  case free =>
    intro n late
    rw [lives, List.length_append] at late
    rw [store]
    exact h.free n (by omega)
  case early =>
    intro none
    rw [lives] at none
    simp at none
  case watch =>
    intro j session point there
    rw [lives, store]
    rcases stepsTo.cases there with ⟨-, same⟩ | ⟨differ, old⟩ | launched | ⟨stop, other⟩
    · obtain ⟨work, rfl, begun⟩ := goes same.symm
      refine ⟨?_, ?_⟩
      · rw [WatchPoint.brought, List.dropLast_concat]
        exact (h.watch found).1
      · rw [served] at begun
        exact Work.isDue_of_observing probed spelled (h.free live.number (Nat.le_of_eq place.symm)) begun
    · exact (differ (runAt.watch_unique found old)).elim
    · cases launched
    · cases other

theorem launch (h : o.Brought book address first heard t) (runAt : RunAt o False none t m) {context : Context}
    {chain : UInt64} (found : t.tasks[id]? = some (.starting context (.readingHeight chain))) :
    heard = WatchPoint.launched.brought o book address first (t.lives o.run) := by
  obtain ⟨-, -, -, unwatched, -⟩ := runAt.tasks (by simp) found
  obtain ⟨-, -, runs, -⟩ := runAt.early unwatched
  have none : t.lives o.run = [] := Tracker.IsSilent.lives runAt.silent (Nat.le_of_eq runs)
  rw [h.early none, none]
  rfl

theorem confirm (h : o.Brought book address first heard t) (runAt : RunAt o False none t m)
    (found : t.tasks[id]? = some (.watching session (.fetchingTarget live))) {target : Header}
    (serves : o.Serves t id (.header (.ok target))) (probed : book.IsProbed address t.addresses)
    (spelled : IsSpelled address t.addresses) (begun : Work.confirm t.ledger target = (.waits work, mid)) :
    heard = (WatchPoint.confirming live work).brought o book address first (t.lives o.run) ∧
      (WatchPoint.confirming live work).IsDue o book address (LawfulStore.view t.ledger.store) := by
  obtain ⟨-, rfl, last, -⟩ := runAt.tasks (by simp) found
  cases serves.header_eq found rfl
  obtain ⟨due, untold⟩ := Work.isDue_of_confirming (v := LawfulStore.view t.ledger.store) probed spelled begun
  refine ⟨?_, due⟩
  have told := (h.watch found).1
  rw [told, WatchPoint.brought, WatchPoint.brought]
  by_cases waits : work.isUntold
  · rw [if_pos waits]
  · -- no log of the address is in the block, so no notice is left to give
    have none : book.notices address .confirmed (live.number - o.plan.threshold) = [] :=
      ServedLogs.notices_eq_nil (untold.resolve_left waits) .confirmed
    rw [if_neg waits, flatMap_of_getLast? _ last, Outset.brings, none, ite_self, List.append_nil]

theorem free_taskStep (h : o.Brought book address first heard t) (runAt : RunAt o False none t m)
    (serves : o.Serves t id answer) (probed : book.IsProbed address t.addresses)
    (spelled : IsSpelled address t.addresses) (found : t.tasks[id]? = some task) (free : task.work? = none)
    (turn : t.TaskStep task answer mid next new) (stepsTo : t.StepsTo id mid next new u)
    (met : ∀ {f : UInt64}, (u.lives o.run).head? = some f → f = first) : o.Brought book address first heard u := by
  cases turn with
  | rest _ retired =>
      refine h.still .refl stepsTo ?_
      rintro session point (rfl | mem)
      · cases retired
      · cases mem
  | launch =>
      refine h.still .refl stepsTo ?_
      rintro session point (same | mem)
      · cases same
      · cases List.mem_singleton.mp mem
        exact ⟨h.launch runAt found, trivial⟩
  | subscribe | listen =>
      refine h.still .refl stepsTo ?_
      rintro session point (same | mem)
      · cases same
        exact ⟨(h.watch found).1, trivial⟩
      · cases mem
  | meet begun =>
      refine h.meet runAt found serves stepsTo met probed spelled ?_
      rintro session point ⟨⟩
      exact ⟨_, rfl, begun⟩
  | fall begun =>
      refine h.meet runAt found serves stepsTo met probed spelled ?_
      rintro session point ⟨⟩
  | confirm begun =>
      refine h.still (Work.quiet_confirm begun) stepsTo ?_
      rintro session point (same | mem)
      · cases same
        exact h.confirm runAt found serves probed spelled begun
      · cases mem
  | begin begun => exact h.still (Tracker.quiet_beginWork begun) stepsTo (by simp)
  | launchSweep => exact h.still .refl stepsTo (by simp)
  | ask | name | sweep => exact h.still .refl stepsTo (by simp)
  | retire under =>
      rw [free] at under
      cases under
  | _ => cases free

/-! ### Steps with work -/

theorem replied_of_replies (replies : o.Replies book t id answer) (found : t.tasks[id]? = some task)
    (under : task.work? = some (session, work)) (number : UInt64) : book.Replies number work answer :=
  fun asked told => replies ((Tracker.wait?_of_work? found under).trans (congrArg some asked)) told

/-- A step of the work gives the notices of its block, or none if the block lies below the first live one. -/
theorem newly_eq (address : String) (first : UInt64) (session : Session) (runAt : RunAt o False none t m)
    {number : UInt64} (on : work.header = o.chain.block number) {block : Head}
    (known : work.isWritten → (LawfulStore.view t.ledger.store).headAt? o.chain.id number = some block)
    (replied : book.Replies number work answer) :
    work.newly address first session block answer =
      if first ≤ number then heardOf address (work.told session block answer) else [] := by
  have numbered : ∀ notice ∈ heardOf address (work.told session block answer), notice.number = number := by
    intro notice mem
    obtain ⟨event, told, rfl⟩ := List.mem_map.mp mem
    refine Work.blockNumber_of_told on (fun written => ?_) replied (List.mem_filter.mp told).1
    exact (LawfulStore.view_sound runAt.storeAt.sound).number_eq (known written)
  simpa [Work.newly] using filter_number numbered fun n => decide (first ≤ n)

theorem observed (h : o.Brought book address first heard t) (runAt : RunAt o False none t m)
    (spelled : IsSpelled address t.addresses) (found : t.tasks[id]? = some (.watching session (.observing live work)))
    (faultless : ¬answer.IsFault) (replies : o.Replies book t id answer) {block : Head}
    (known : work.isWritten → (LawfulStore.view t.ledger.store).headAt? o.chain.id work.header.number = some block)
    {progress : Progress} (worked : work.resume? session t.ledger answer = some (progress, mid)) :
    (∀ {next : Work}, progress = .waits next →
      heard ++ work.newly address first session block answer =
          (WatchPoint.observing live next).brought o book address first (t.lives o.run) ∧
        (WatchPoint.observing live next).IsDue o book address (LawfulStore.view mid.store)) ∧
    (progress = .finished → heard ++ work.newly address first session block answer =
      (WatchPoint.fetchingTarget live).brought o book address first (t.lives o.run)) := by
  obtain ⟨heard_eq, due⟩ := h.watch found
  obtain ⟨-, rfl, last, on, -⟩ := runAt.tasks (by simp) found
  have place : work.header.number = live.number := on.header_eq ▸ o.chain.number_eq live.number
  rw [place] at known
  have replied : book.Replies live.number work answer := replied_of_replies replies found rfl _
  have brings := newly_eq address first o.session runAt on.header_eq known replied
  rw [if_pos (h.first_le_last last)] at brings
  obtain ⟨waits, finished⟩ := Work.tellsSeen_resume? rfl runAt.storeAt.sound runAt.storeAt.carries on spelled due
    faultless known replied worked
  constructor
  · intro next goes
    obtain ⟨nothing, due⟩ := waits goes
    refine ⟨?_, due⟩
    rw [brings, nothing, List.append_nil]
    exact heard_eq
  · intro ends
    rw [brings, finished ends, heard_eq]
    rfl

theorem confirmed (h : o.Brought book address first heard t) (runAt : RunAt o False none t m)
    (found : t.tasks[id]? = some (.watching session (.confirming live work)))
    (faultless : ¬answer.IsFault) (replies : o.Replies book t id answer) {block : Head}
    (known : work.isWritten → (LawfulStore.view t.ledger.store).headAt? o.chain.id work.header.number = some block)
    {progress : Progress} (worked : work.resume? session t.ledger answer = some (progress, mid)) :
    (∀ {next : Work}, progress = .waits next →
      heard ++ work.newly address first session block answer =
          (WatchPoint.confirming live next).brought o book address first (t.lives o.run) ∧
        (WatchPoint.confirming live next).IsDue o book address (LawfulStore.view mid.store)) ∧
    (progress = .finished → heard ++ work.newly address first session block answer =
      WatchPoint.listening.brought o book address first (t.lives o.run)) := by
  obtain ⟨heard_eq, due⟩ := h.watch found
  obtain ⟨-, rfl, last, final, -, on, -⟩ := runAt.tasks (by simp) found
  have place : work.header.number = live.number - o.plan.threshold := on.header_eq ▸ o.chain.number_eq _
  rw [place] at known
  have replied : book.Replies (live.number - o.plan.threshold) work answer := replied_of_replies replies found rfl _
  have brings := newly_eq address first o.session runAt on.header_eq known replied
  obtain ⟨told, waits, finished⟩ := Work.tellsConfirmed_resume? rfl on due faultless replied worked block
    (LawfulStore.view mid.store)
  -- the block is one that live blocks brought exactly if it is not below the first of them
  have reached : first ≤ live.number - o.plan.threshold ↔ o.IsFinal first live.number := by
    have target := RunAt.target_toNat final
    rw [UInt64.le_iff_toNat_le]
    unfold Outset.IsFinal
    omega
  rw [told] at brings
  have complete : heard ++ work.newly address first o.session block answer =
      (t.lives o.run).flatMap (o.brings book address first) := by
    rw [brings, heard_eq, WatchPoint.brought]
    by_cases untold : work.isUntold
    · rw [if_pos untold, if_pos untold, flatMap_of_getLast? _ last, Outset.brings, List.append_assoc]
      by_cases known : o.IsFinal first live.number
      · rw [if_pos known, if_pos (reached.mpr known)]
      · rw [if_neg known, if_neg (mt reached.mp known)]
    · rw [if_neg untold, if_neg untold, ite_self, List.append_nil]
  constructor
  · intro next goes
    obtain ⟨told, due⟩ := waits goes
    refine ⟨?_, due⟩
    rw [complete, WatchPoint.brought, told, if_neg Bool.false_ne_true]
  · exact fun _ => complete

theorem beside (h : o.Brought book address first heard t) (runAt : RunAt o False none t m) {point : WatchPoint}
    (found : t.tasks[id]? = some (.watching session point)) {v : View}
    (same : ∀ {n : UInt64},
      first ≤ n → v.headAt? o.chain.id n = (LawfulStore.view t.ledger.store).headAt? o.chain.id n) :
    point.IsDue o book address v := by
  have due := (h.watch found).2
  obtain ⟨-, -, stands⟩ := runAt.tasks (by simp) found
  cases point with
  | observing live work => exact due.congr (same (h.first_le_last stands.1))
  | confirming live work =>
      obtain ⟨-, -, -, on, -⟩ := stands
      exact due.of_confirms on.confirms_eq
  | _ => trivial

/-- A live block too early to make another final gives only its seen notices. -/
theorem brought_of_early (o : Outset S) (book : ServedLogs o.chain) (address : String) (first : UInt64)
    (last : lives.getLast? = some live.number) (early : ¬o.plan.threshold ≤ live.number) :
    (WatchPoint.fetchingTarget live).brought o book address first lives =
      WatchPoint.listening.brought o book address first lives := by
  have none : ¬o.IsFinal first live.number := by
    intro final
    have final : first.toNat + o.plan.threshold.toNat ≤ live.number.toNat := final
    exact early (UInt64.le_iff_toNat_le.mpr (by omega))
  rw [WatchPoint.brought, WatchPoint.brought, flatMap_of_getLast? _ last, Outset.brings, if_neg none, List.append_nil]

theorem worked_here (h : o.Brought book address first heard t) (runAt : RunAt o False none t m)
    (faultless : ¬answer.IsFault) (replies : o.Replies book t id answer) (spelled : IsSpelled address t.addresses)
    (found : t.tasks[id]? = some task) (under : task.work? = some (session, work)) {block : Head}
    (known : work.isWritten → (LawfulStore.view t.ledger.store).headAt? o.chain.id work.header.number = some block)
    {run : Session} {point : WatchPoint} (turn : t.TaskStep task answer mid (.watching run point) new) :
    heard ++ work.newly address first session block answer = point.brought o book address first (t.lives o.run) ∧
      point.IsDue o book address (LawfulStore.view mid.store) := by
  cases turn with
  | rest _ retired => cases retired
  | retire _ _ _ retired => cases retired
  | observe moved =>
      cases under
      exact (h.observed runAt spelled found faultless replies known moved).1 rfl
  | target moved _ =>
      cases under
      exact ⟨(h.observed runAt spelled found faultless replies known moved).2 rfl, trivial⟩
  | pass moved early =>
      cases under
      obtain ⟨-, rfl, last, -⟩ := runAt.tasks (by simp) found
      have seen := (h.observed runAt spelled found faultless replies known moved).2 rfl
      exact ⟨seen.trans (brought_of_early o book address first last early), trivial⟩
  | promote moved =>
      cases under
      exact (h.confirmed runAt found faultless replies known moved).1 rfl
  | confirmed moved =>
      cases under
      exact ⟨(h.confirmed runAt found faultless replies known moved).2 rfl, trivial⟩
  | _ => cases under

theorem newly_of_sweep {number : UInt64} (h : o.Brought book address first heard t) (runAt : RunAt o False none t m)
    (replies : o.Replies book t id answer) (found : t.tasks[id]? = some (.sweeping session last (.working number work)))
    {block : Head}
    (known : work.isWritten → (LawfulStore.view t.ledger.store).headAt? o.chain.id work.header.number = some block) :
    work.header.number < first ∧ work.newly address first session block answer = [] := by
  obtain ⟨-, -, -, -, -, -, on, -⟩ := runAt.tasks (by simp) found
  have place : work.header.number = number := on.header_eq ▸ o.chain.number_eq number
  have below := h.lt_first runAt found
  rw [place] at known ⊢
  refine ⟨below, ?_⟩
  rw [newly_eq address first session runAt on.header_eq known (replied_of_replies replies found rfl number),
    if_neg (UInt64.not_le.mpr below)]

theorem worked_taskStep (h : o.Brought book address first heard t) (runAt : RunAt o False none t m)
    (allowed : o.Allows False t (.resume id answer)) (replies : o.Replies book t id answer)
    (spelled : IsSpelled address t.addresses) (found : t.tasks[id]? = some task)
    (under : task.work? = some (session, work)) {block : Head}
    (known : work.isWritten → (LawfulStore.view t.ledger.store).headAt? o.chain.id work.header.number = some block)
    (turn : t.TaskStep task answer mid next new) (stepsTo : t.StepsTo id mid next new u) :
    o.Brought book address first (heard ++ work.newly address first session block answer) u := by
  obtain ⟨serves, faultless⟩ := allowed
  obtain ⟨rfl, progress, worked, -, -⟩ := turn.worked under
  obtain ⟨-, number, confirms, at_work⟩ := runAt.isAtWork found under
  have place : work.header.number = number := at_work.on.header_eq ▸ o.chain.number_eq number
  subst place
  have reports := runAt.reports_resume? found under faultless worked known
  have lives : u.lives o.run = t.lives o.run := runAt.lives_of_worked found under serves.isHonest worked stepsTo
  obtain ⟨last, top, high⟩ := h.le_last at_work
  have count := h.toNat_last top
  have high := UInt64.le_iff_toNat_le.mp high
  constructor
  case counts => exact lives ▸ h.counts
  case free =>
    intro n late
    rw [lives] at late
    rw [stepsTo.quiet.store, reports.elsewhere]
    · exact h.free n late
    · rintro ⟨-, rfl⟩
      omega
  case early =>
    intro none
    rw [← lives, none] at top
    cases top
  case watch =>
    intro j other point there
    rw [lives, stepsTo.quiet.store]
    rcases stepsTo.cases there with ⟨-, rfl⟩ | ⟨differ, old⟩ | launched | ⟨stop, stopping⟩
    · exact h.worked_here runAt faultless replies spelled found under known turn
    · cases task with
      | watching run place => exact (differ (runAt.watch_unique found old)).elim
      | sweeping run last place =>
          cases place with
          | working number work =>
              cases under
              obtain ⟨below, nothing⟩ := h.newly_of_sweep runAt replies found known
              rw [nothing, List.append_nil]
              refine ⟨(h.watch old).1, h.beside runAt old fun reached => reports.elsewhere ?_⟩
              rintro ⟨-, rfl⟩
              exact UInt64.not_le.mpr below reached
          | _ => cases under
      | _ => cases under
    · cases launched
    · cases stopping

end Outset.Brought

/-! ## Notices about one block -/

theorem filter_brings (o : Outset S) (book : ServedLogs o.chain) (address : String) {first number : UInt64}
    (known : first ≤ number) (live : UInt64) :
    (o.brings book address first live).filter (fun notice => notice.number = number) =
      (if live.toNat = number.toNat then book.notices address .seen number else []) ++
        if live.toNat = number.toNat + o.plan.threshold.toNat then book.notices address .confirmed number else [] := by
  have known := UInt64.le_iff_toNat_le.mp known
  have about (state : BlockState) (n : UInt64) :
      (book.notices address state n).filter (fun notice => notice.number = number) =
        if n = number then book.notices address state n else [] := by
    have numbered : ∀ notice ∈ book.notices address state n, notice.number = n :=
      fun _ => ServedLogs.number_of_mem_notices
    simpa using filter_number numbered fun n => decide (n = number)
  unfold Outset.brings
  rw [List.filter_append, about]
  congr 1
  · by_cases here : live = number
    · rw [if_pos here, if_pos (congrArg UInt64.toNat here), here]
    · rw [if_neg here, if_neg (mt UInt64.toNat_inj.mp here)]
  · by_cases final : o.IsFinal first live
    · have reached : first.toNat + o.plan.threshold.toNat ≤ live.toNat := final
      have target := RunAt.target_toNat (UInt64.le_iff_toNat_le.mpr (show o.plan.threshold.toNat ≤ live.toNat by omega))
      rw [if_pos final, about]
      by_cases here : live - o.plan.threshold = number
      · rw [if_pos here, if_pos (by rw [← here]; omega), here]
      · have differ := mt UInt64.toNat_inj.mp here
        rw [if_neg here, if_neg (by omega)]
    · have early : ¬first.toNat + o.plan.threshold.toNat ≤ live.toNat := final
      rw [if_neg final, if_neg (by omega)]
      rfl

/-- One more live block adds a number as the block itself, as the one made final, as both, or as neither. -/
theorem collect_next {α : Type} (seen confirmed : List α) (number final top : Nat) (later : number ≤ final) :
    ((if number < top then seen else []) ++ if final < top then confirmed else []) ++
        ((if top = number then seen else []) ++ if top = final then confirmed else []) =
      (if number < top + 1 then seen else []) ++ if final < top + 1 then confirmed else [] := by
  grind

/-- The notices about one block are those of seeing it, followed by those of its becoming final. -/
theorem filter_flatMap_brings (o : Outset S) (book : ServedLogs o.chain) (address : String) {first number : UInt64}
    (known : first ≤ number) {count : Nat} (fits : first.toNat + count ≤ UInt64.size) :
    (((List.range' first.toNat count).map UInt64.ofNat).flatMap (o.brings book address first)).filter
        (fun notice => notice.number = number) =
      (if number.toNat < first.toNat + count then book.notices address .seen number else []) ++
        if number.toNat + o.plan.threshold.toNat < first.toNat + count then book.notices address .confirmed number
        else [] := by
  have low := UInt64.le_iff_toNat_le.mp known
  induction count with
  | zero =>
    simp [show ¬number.toNat < first.toNat by omega, show ¬number.toNat + o.plan.threshold.toNat < first.toNat by omega]
  | succ count ih =>
      have next : (UInt64.ofNat (first.toNat + count)).toNat = first.toNat + count :=
        UInt64.toNat_ofNat_of_lt' (by omega)
      rw [List.range'_1_concat, List.map_append, List.flatMap_append, List.filter_append, ih (by omega),
        List.map_singleton, List.flatMap_singleton, filter_brings o book address known, next]
      exact collect_next _ _ _ _ _ (Nat.le_add_right _ _)

end Chainwatch
