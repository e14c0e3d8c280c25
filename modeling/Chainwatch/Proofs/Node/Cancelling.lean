import Chainwatch.Proofs.Node.Polling

/-!
# A poller that is cancelled

A cancelled poller asks for no more blocks, and what it still sends is what it was about to send. There is one
exception. At rest it may take a tick that is due before it takes notice; it then asks once more for the newest block,
and if that fails the failure is sent as well. Two items follow a cancellation exactly if it comes while the poller is
busy with the newest block.
-/

namespace Chainwatch

namespace Poller

variable {p q : Poller} {answer : Answer}

/-- A cancelled poller asks for no further block and stays cancelled. -/
theorem Step.of_cancelled (turn : p.Step answer q) (cancelled : p.cancelled) : q.cancelled ∧ q.asking = [] := by
  cases turn <;> simp_all [asking, put, finish]

/-! ## What may still be sent -/

/-- The poller works on a block at or beyond its tip, and its reader is present. -/
def IsAtNewest (p : Poller) : Prop :=
  p.queue.abandoned = false ∧
    ∃ number tip, tip ≤ number ∧ (p.point = .askingBlock number tip ∨ ∃ header, p.point = .sending header number tip)

theorem IsAtNewest.not_ended (newest : p.IsAtNewest) : p.point ≠ .ended := by
  obtain ⟨-, number, tip, -, stands | ⟨header, stands⟩⟩ := newest <;> rw [stands] <;> nofun

/-- How many items a cancelled poller may still send; `late` says whether it may take a tick. -/
def MayYetSend (late : Prop) (p : Poller) (more : List Poll) : Prop :=
  more = [] ∨ p.queue.abandoned = false ∧
    match p.point with
    | .ended => False
    | .resting => late ∧ ∃ cause, more = [.error cause]
    | .askingTip | .failing _ => ∃ cause, more = [.error cause]
    | .askingBlock number tip | .sending _ number tip =>
      (∃ item, more = [item]) ∨ late ∧ tip ≤ number ∧ ∃ item cause, more = [item, .error cause]

/-- At most two items are still sent, and two only by a poller that works on the newest block. -/
theorem MayYetSend.le_two {late : Prop} {more : List Poll} (h : p.MayYetSend late more) : more.length ≤ 1 ∨
    late ∧ p.IsAtNewest ∧ ∃ item cause, more = [item, .error cause] := by
  rcases h with rfl | ⟨reader, sends⟩
  · exact Or.inl (Nat.zero_le 1)
  · split at sends
    · exact sends.elim
    · obtain ⟨-, cause, rfl⟩ := sends
      exact Or.inl (Nat.le_refl 1)
    · obtain ⟨cause, rfl⟩ := sends
      exact Or.inl (Nat.le_refl 1)
    · obtain ⟨cause, rfl⟩ := sends
      exact Or.inl (Nat.le_refl 1)
    · rename_i number tip stands
      rcases sends with ⟨item, rfl⟩ | ⟨tick, last, two⟩
      · exact Or.inl (Nat.le_refl 1)
      · exact Or.inr ⟨tick, ⟨reader, number, tip, last, Or.inl stands⟩, two⟩
    · rename_i header number tip stands
      rcases sends with ⟨item, rfl⟩ | ⟨tick, last, two⟩
      · exact Or.inl (Nat.le_refl 1)
      · exact Or.inr ⟨tick, ⟨reader, number, tip, last, Or.inr ⟨header, stands⟩⟩, two⟩

theorem MayYetSend.of_finish {late : Prop} {more : List Poll} (h : p.finish.MayYetSend late more) : more = [] :=
  h.resolve_right fun sends => sends.2

theorem not_abandoned_of_isClosed (opened : p.queue.isClosed = false) : p.queue.abandoned = false :=
  (Bool.or_eq_false_iff.mp opened).2

theorem Step.mayYetSend {late : Prop} {more : List Poll} (turn : p.Step answer q) (cancelled : p.cancelled)
    (ticks : (∃ now, answer = .time now) → late) (h : q.MayYetSend late more) :
    p.MayYetSend late (q.queue.items.drop p.queue.items.length ++ more) := by
  cases turn with
  | tick stands due =>
      simp only [MayYetSend, stands, List.drop_length, List.nil_append] at h ⊢
      exact h.imp_right fun sends => ⟨sends.1, ticks ⟨_, rfl⟩, sends.2⟩
  | behind stands behind =>
      simp only [MayYetSend, stands, List.drop_length, List.nil_append] at h ⊢
      exact h.imp_right fun sends => ⟨sends.1, sends.2.2⟩
  | news stands new going | goesOn stands more opened going => simp [going] at cancelled
  | unknown stands | found stands => simpa [MayYetSend, stands] using h
  | missing stands =>
      simp only [MayYetSend, stands, List.drop_length, List.nil_append] at h ⊢
      exact h.imp_right fun sends => ⟨sends.1, Or.inl (sends.2.imp' Except.error fun _ => id)⟩
  | stop | warned | refused =>
      rw [h.of_finish, finish, Queue.close, List.drop_length]
      exact Or.inl rfl
  | @caughtUp header number tip stands last opened =>
      refine Or.inr ⟨not_abandoned_of_isClosed opened, ?_⟩
      rw [stands, put, List.drop_left]
      rcases h with rfl | ⟨-, sends⟩
      · exact Or.inl ⟨_, rfl⟩
      · obtain ⟨tick, cause, rfl⟩ := sends
        exact Or.inr ⟨tick, last, _, cause, rfl⟩
  | halted stands more opened =>
      refine Or.inr ⟨not_abandoned_of_isClosed opened, ?_⟩
      rw [h.of_finish, stands, finish, Queue.close, put, List.drop_left]
      exact Or.inl ⟨_, rfl⟩
  | failed stands opened =>
      refine Or.inr ⟨not_abandoned_of_isClosed opened, ?_⟩
      rw [h.of_finish, stands, finish, Queue.close, put, List.drop_left]
      exact ⟨_, rfl⟩

def left (p : Poller) : Nat :=
  match p.point with
  | .askingBlock _ _ => 3
  | .askingTip | .sending _ _ _ => 2
  | .resting | .failing _ => 1
  | .ended => 0

theorem left_le_three (p : Poller) : p.left ≤ 3 := by
  unfold left
  split <;> decide

theorem ended_of_left (none : p.left = 0) : p.point = .ended := by
  unfold left at none
  split at none <;> first | assumption | cases none

theorem Step.left_lt (turn : p.Step answer q) (cancelled : p.cancelled) (no_tick : ∀ now, answer ≠ .time now) :
    q.left < p.left := by
  cases turn with
  | tick => exact (no_tick _ rfl).elim
  | news stands new going | goesOn stands more opened going => simp [going] at cancelled
  | refused waits closed =>
      have going : p.point ≠ .ended := (Step.refused waits closed).not_ended
      change 0 < p.left
      unfold left
      cases stands : p.point <;> simp_all
  | stop stands | unknown stands | behind stands | warned stands | missing stands | found stands | caughtUp stands
  | halted stands | failed stands => simp [left, stands, finish]

/-! ## Runs of a cancelled poller -/

def Ticks (acts : List Act) : Prop :=
  ∃ now, .answer (.time now) ∈ acts

def answers : List Act → Nat
  | [] => 0
  | .answer _ :: acts => answers acts + 1
  | _ :: acts => answers acts

namespace Journal

variable {j k : Journal} {act : Act} {acts : List Act} {late : Prop} {more : List Poll}

def cancel (j : Journal) : Journal :=
  { j with poller := j.poller.cancel }

theorem SamePoller.mayYetSend (same : j.SamePoller k) (h : k.poller.MayYetSend late more) :
    j.poller.MayYetSend late more := by
  refine h.imp_right fun sends => ⟨?_, same.point ▸ sends.2⟩
  cases left : j.poller.queue.abandoned with
  | false => rfl
  | true => exact (same.abandoned left).symm.trans sends.1

theorem act_of_cancelled (cancelled : j.poller.cancelled) (done : j.act? act = some k) :
    k.poller.cancelled ∧ k.asked = j.asked ∧
      ∃ new, k.sent = j.sent ++ new ∧ ∀ late more, (Ticks [act] → late) → k.poller.MayYetSend late more →
        j.poller.MayYetSend late (new ++ more) := by
  rcases step_or_same done with ⟨answer, p, rfl, turn, rfl⟩ | ⟨other, same⟩
  · obtain ⟨still, quiet⟩ := turn.of_cancelled cancelled
    refine ⟨still, by simp [after, quiet], _, rfl, fun late more ticks h => turn.mayYetSend cancelled ?_ h⟩
    rintro ⟨now, rfl⟩
    exact ticks ⟨now, List.mem_cons_self⟩
  · exact ⟨same.cancelled cancelled, same.asked, [], by rw [same.sent, List.append_nil],
      fun _ _ _ h => same.mayYetSend h⟩

theorem run_of_cancelled (cancelled : j.poller.cancelled) (ran : run? acts j = some k) :
    k.asked = j.asked ∧
      ∃ more, k.sent = j.sent ++ more ∧ ∀ late, (Ticks acts → late) → j.poller.MayYetSend late more := by
  induction acts generalizing j with
  | nil =>
      cases ran
      exact ⟨rfl, [], (List.append_nil _).symm, fun _ _ => Or.inl rfl⟩
  | cons act acts ih =>
      obtain ⟨i, first, rest⟩ := Option.bind_eq_some_iff.mp ran
      obtain ⟨still, asked, new, sent, before⟩ := act_of_cancelled cancelled first
      obtain ⟨asked', more, sent', yet⟩ := ih still rest
      refine ⟨asked'.trans asked, new ++ more, by rw [sent', sent, List.append_assoc], fun late ticks => ?_⟩
      refine before late more ?_ (yet late ?_)
      · rintro ⟨now, mem⟩
        exact ticks ⟨now, List.mem_singleton.mp mem ▸ List.mem_cons_self⟩
      · rintro ⟨now, mem⟩
        exact ticks ⟨now, List.mem_cons_of_mem _ mem⟩

/-- Every answer shortens what is left of a cancelled poller that takes no tick. -/
theorem answers_le_left (cancelled : j.poller.cancelled) (ran : run? acts j = some k) (no_tick : ¬Ticks acts) :
    answers acts + k.poller.left ≤ j.poller.left := by
  induction acts generalizing j with
  | nil =>
      cases ran
      exact Nat.le_of_eq (Nat.zero_add _)
  | cons act acts ih =>
      obtain ⟨i, first, rest⟩ := Option.bind_eq_some_iff.mp ran
      obtain ⟨still, -⟩ := act_of_cancelled cancelled first
      have later := ih still rest fun ⟨now, mem⟩ => no_tick ⟨now, List.mem_cons_of_mem _ mem⟩
      rcases step_or_same first with ⟨answer, p, rfl, turn, rfl⟩ | ⟨other, same⟩
      · have nearer := turn.left_lt cancelled fun now same => no_tick ⟨now, same ▸ List.mem_cons_self⟩
        change _ ≤ p.left at later
        rw [answers]
        omega
      · have left : i.poller.left = j.poller.left := by rw [left, left, same.point]
        cases act with
        | answer answer => exact (other answer rfl).elim
        | cancel | receive | abandon => exact left ▸ later

/-! ## Two items after a cancellation -/

theorem run?_snoc (ran : run? acts j = some k) (act : Act) : run? (acts ++ [act]) j = k.act? act := by
  rw [run?_append, ran]
  cases next : k.act? act <;> simp [run?, next]

theorem exists_room (j : Journal) : ∃ acts k, run? acts j = some k ∧ k.sent = j.sent ∧
    k.poller = { j.poller with queue := { j.poller.queue with items := [] } } := by
  generalize items : j.poller.queue.items = all
  induction all generalizing j with
  | nil => exact ⟨[], j, rfl, rfl, by rw [← items]⟩
  | cons item rest ih =>
      have taken : j.read.poller = { j.poller with queue := { j.poller.queue with items := rest } } := by
        simp [read, Queue.receive, Queue.pop, items]
      obtain ⟨acts, k, ran, sent, poller⟩ := ih j.read (by rw [taken])
      exact ⟨.receive :: acts, k, ran, sent, by rw [poller, taken]⟩

def TakesItems (p : Poller) : Prop :=
  p.queue.isClosed = false ∧ 0 < p.queue.capacity

theorem push_of_empty {p : Poller} (takes : TakesItems p) (empty : p.queue.items = []) (item : Poll) :
    p.queue.push item = (.accepted, (p.put item).queue) := by
  simp [Queue.push, put, takes.1, empty, Nat.ne_of_gt takes.2]

/-- A poller with an item to offer can be driven to send it. -/
theorem exists_sent {p : Poller} {item : Poll} (one : p.queue.items = [item])
    (resumed : { j.poller with queue := { j.poller.queue with items := [] } }.resume? .room = some p) :
    ∃ acts k, run? acts j = some k ∧ k.sent = j.sent ++ [item] ∧ k.poller = p := by
  obtain ⟨acts, i, ran, sent, poller⟩ := exists_room j
  refine ⟨acts ++ [.answer .room], i.after .room p, ?_, ?_, rfl⟩
  · rw [run?_snoc ran, act?, poller, resumed]
    rfl
  · change i.sent ++ p.queue.items.drop i.poller.queue.items.length = _
    rw [sent, one, poller]
    rfl

theorem exists_caughtUp {header : Header} {number tip : UInt64} (stands : j.poller.point = .sending header number tip)
    (last : tip ≤ number) (takes : TakesItems j.poller) : ∃ acts k, run? acts j = some k ∧
      k.sent = j.sent ++ [.ok header] ∧ k.poller.point = .resting ∧ TakesItems k.poller := by
  let bare : Poller := { j.poller with queue := { j.poller.queue with items := [] } }
  have resumed : bare.resume? .room =
      some { bare.put (.ok header) with next := some (number + 1), point := .resting } := by
    unfold resume?
    rw [show bare.point = .sending header number tip from stands]
    simp only [push_of_empty (p := bare) takes rfl, if_neg (UInt64.not_lt.mpr last)]
    rfl
  obtain ⟨acts, k, ran, sent, poller⟩ := exists_sent rfl resumed
  refine ⟨acts, k, ran, sent, by rw [poller], ?_⟩
  rw [poller]
  exact takes

theorem exists_failed {cause : TrackError} (stands : j.poller.point = .failing cause) (takes : TakesItems j.poller) :
    ∃ acts k, run? acts j = some k ∧ k.sent = j.sent ++ [.error cause] := by
  let bare : Poller := { j.poller with queue := { j.poller.queue with items := [] } }
  have resumed : bare.resume? .room = some (bare.put (.error cause)).finish := by
    unfold resume?
    rw [show bare.point = .failing cause from stands]
    simp only [push_of_empty (p := bare) takes rfl]
    rfl
  obtain ⟨acts, k, ran, sent, -⟩ := exists_sent rfl resumed
  exact ⟨acts, k, ran, sent⟩

theorem exists_late_failure (cause : TrackError) (stands : j.poller.point = .resting) (takes : TakesItems j.poller) :
    ∃ acts k, run? acts j = some k ∧ k.sent = j.sent ++ [.error cause] := by
  let asks : Poller := { j.poller with point := .askingTip, due := j.poller.nextDue j.poller.due }
  let fails : Poller := { asks with point := .failing cause }
  let i := (j.after (.time j.poller.due) asks).after (.tip (.error cause)) fails
  let opening : List Act := [.answer (.time j.poller.due), .answer (.tip (.error cause))]
  have reached : run? opening j = some i := by
    have ticked : j.poller.resume? (.time j.poller.due) = some asks := by
      unfold resume?
      rw [stands]
      exact if_pos (Nat.le_refl _)
    rw [show opening = _ from rfl, run?, act?, ticked]
    rfl
  have sent : i.sent = j.sent := by simp [i, after, fails, asks]
  obtain ⟨acts, k, ran, failed⟩ := exists_failed (j := i) rfl takes
  refine ⟨opening ++ acts, k, ?_, failed.trans (by rw [sent])⟩
  rw [run?_append, reached]
  exact ran

/-- A poller that works on the newest block can be driven to send two items after cancellation. -/
theorem exists_two_items (newest : j.poller.IsAtNewest) (takes : TakesItems j.poller) (cause : TrackError) :
    ∃ acts k header, run? acts j = some k ∧ k.sent = j.sent ++ [.ok header, .error cause] := by
  obtain ⟨-, number, tip, last, busy⟩ := newest
  -- A block that is still asked for is answered first.
  obtain ⟨acts, i, header, ran, sent, stands, takes⟩ : ∃ acts i header, run? acts j = some i ∧ i.sent = j.sent ∧
      i.poller.point = .sending header number tip ∧ TakesItems i.poller := by
    rcases busy with stands | ⟨header, stands⟩
    · let p : Poller := { j.poller with point := .sending default number tip }
      have found : j.poller.resume? (.block (.ok default)) = some p := by
        unfold resume?
        rw [stands]
      refine ⟨[.answer (.block (.ok default))], j.after (.block (.ok default)) p, default, ?_, ?_, rfl, takes⟩
      · rw [run?, act?, found]
        rfl
      · simp [after, p]
    · exact ⟨[], j, header, rfl, rfl, stands, takes⟩
  obtain ⟨more, rests, ran', sent', stands', takes'⟩ := exists_caughtUp stands last takes
  obtain ⟨rest, k, ran'', sent''⟩ := exists_late_failure cause stands' takes'
  refine ⟨acts ++ (more ++ rest), k, header, ?_, by rw [sent'', sent', sent, List.append_assoc]; rfl⟩
  rw [run?_append, ran, Option.bind_some, run?_append, ran', Option.bind_some, ran'']

/-- What a cancelled poller still does: it asks for no block, ends after boundedly many answers, and
sends at most one item unless it takes a tick. -/
structure EndsAfterCancel (j : Journal) (acts : List Act) (k : Journal) : Prop where
  asked : k.asked = j.asked
  /-- With a tick, a failure may be sent as a second item. -/
  sent : ∃ more, k.sent = j.sent ++ more ∧
    (more.length ≤ 1 ∨ Ticks acts ∧ ∃ item cause, more = [item, .error cause])
  ended : ¬Ticks acts → 3 ≤ answers acts → k.poller.point = .ended

theorem endsAfterCancel_of_run (cancelled : j.poller.cancelled) (ran : run? acts j = some k) :
    j.EndsAfterCancel acts k := by
  obtain ⟨asked, more, sent, yet⟩ := run_of_cancelled cancelled ran
  refine ⟨asked, ⟨more, sent, ?_⟩, fun no_tick enough => ?_⟩
  · exact (yet (Ticks acts) id).le_two.imp_right fun two => ⟨two.1, two.2.2⟩
  · have bound := answers_le_left cancelled ran no_tick
    have start : j.poller.left ≤ 3 := left_le_three _
    exact ended_of_left (by omega)

/-- At most one item follows the cancellation exactly if the poller does not work on the newest block. -/
theorem one_item_iff (reported : j.Reported) :
    (∀ later k, run? later j.cancel = some k → k.sent.length ≤ j.sent.length + 1) ↔ ¬j.poller.IsAtNewest := by
  constructor
  · intro one newest
    have opened : TakesItems j.cancel.poller := by
      refine ⟨Bool.or_eq_false_iff.mpr ⟨?_, newest.1⟩, reported.room⟩
      rw [← Bool.not_eq_true]
      exact fun closed => newest.not_ended (reported.closed.mp closed)
    obtain ⟨later, k, header, ran, sent⟩ := exists_two_items (j := j.cancel) newest opened .cancelled
    have bound := one later k ran
    rw [sent, List.length_append] at bound
    change _ + 2 ≤ _ at bound
    have same : j.cancel.sent = j.sent := rfl
    rw [same] at bound
    omega
  · intro other later k ran
    obtain ⟨-, more, sent, yet⟩ := run_of_cancelled (j := j.cancel) rfl ran
    rcases (yet True fun _ => trivial).le_two with one | ⟨-, newest, -⟩
    · rw [sent, List.length_append]
      exact Nat.add_le_add_left one _
    · exact (other newest).elim

/-- Blocks are requested and reported in ascending order whatever the node answers. After cancellation
no block is requested and at most one item is sent, except that a poller cancelled while working on the
newest block may take an overdue tick first and then send a failure as well. -/
theorem polls_in_order {settings : PollSettings} {now : Nat} (ran : run? acts (start settings now) = some j)
    (small : AreSmall acts) : j.IsOrderly ∧
      (∀ later k, run? later j.cancel = some k → j.cancel.EndsAfterCancel later k) ∧
        ((∀ later k, run? later j.cancel = some k → k.sent.length ≤ j.sent.length + 1) ↔ ¬j.poller.IsAtNewest) := by
  have reported : j.Reported := reported_of_run ran (reported_start settings now)
  have numbered : j.Numbered := (numbered_of_run small ran ⟨numbered_start settings now, nofun⟩).1
  exact ⟨.of_sound numbered reported, fun _ _ later => endsAfterCancel_of_run rfl later, one_item_iff reported⟩

def severalPolls : List Act :=
  [.answer (.time 0), .answer (.tip (.ok 5)), .answer (.block (.ok { (default : Header) with number := 5 })),
    .answer .room, .answer (.time 2000), .answer (.tip (.ok 7)),
    .answer (.block (.ok { (default : Header) with number := 6 })), .answer .room, .receive,
    .answer (.block (.ok { (default : Header) with number := 7 })), .answer .room,
    .answer (.time 4000), .answer (.tip (.ok 7)), .answer (.time 6000), .answer (.tip (.ok 6)),
    .answer (.time 8000), .answer (.tip (.ok 9)), .answer (.block (.ok { (default : Header) with number := 8 }))]

theorem areSmall_severalPolls : AreSmall severalPolls := by
  intro tip told
  simp only [severalPolls, List.mem_cons, List.not_mem_nil, Act.answer.injEq, Answer.tip.injEq, Except.ok.injEq,
    reduceCtorEq, false_or, or_false] at told
  rcases told with rfl | rfl | rfl | rfl | rfl <;> decide

theorem polls_in_order_several_polls :
    ∃ j, run? severalPolls (start {} 0) = some j ∧ j.asked = [5, 6, 7, 8] ∧ j.sent.length = 3 ∧
      j.IsOrderly ∧ (∀ later k, run? later j.cancel = some k → j.cancel.EndsAfterCancel later k) ∧
        ((∀ later k, run? later j.cancel = some k → k.sent.length ≤ j.sent.length + 1) ↔
          ¬j.poller.IsAtNewest) := by
  have shape : (run? severalPolls (start {} 0)).map (fun j => (j.asked, j.sent.length)) =
      some ([5, 6, 7, 8], 3) := rfl
  obtain ⟨j, ran, at_end⟩ := Option.map_eq_some_iff.mp shape
  simp only [Prod.mk.injEq] at at_end
  exact ⟨j, ran, at_end.1, at_end.2, polls_in_order ran areSmall_severalPolls⟩

/-- The poller is cancelled while a header waits for room. Once the reader makes room, the header is
sent, and then, since a tick is due, a failure. -/
theorem exists_two_items_after_cancel :
    ∃ j k, run? [.answer (.time 0), .answer (.tip (.ok 5)), .answer (.block (.ok default)), .answer .room,
        .answer (.time 100), .answer (.tip (.ok 6)), .answer (.block (.ok default))]
          (start { intervalMs := 100, maxLogRange := 1, buffer := 1 } 0) = some j ∧
      run? [.receive, .answer .room, .answer (.time 600), .answer (.tip (.error (.rpc "down"))), .receive,
        .answer .room] j.cancel = some k ∧ k.sent = j.sent ++ [.ok default, .error (.rpc "down")] :=
  ⟨_, _, rfl, rfl, rfl⟩

end Journal

end Poller

end Chainwatch
