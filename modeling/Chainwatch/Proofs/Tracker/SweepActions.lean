import Chainwatch.Proofs.Tracker.Escalation

/-!
# The actions of a backfill

A backfill requests headers and logs from the node, takes the headers that it gets, and lets the store
write. Its actions in a history are read off its moves, with numbers as natural numbers, so that nothing
wraps around.
-/

namespace Chainwatch

def Signal.call? : Signal → Option Call
  | .asked call => some call
  | _ => none

def Wait.call? : Wait → Option Call
  | .node call => some call
  | _ => none

def Progress.call? : Progress → Option Call
  | .waits work => work.wait.call?
  | _ => none

/-- An action of a backfill. -/
inductive SweepAction where
  | ask (number : Nat)
  | take (number : Nat) (confirms : Bool)
  | look (first last : Nat)
  | write (number : Nat)
  deriving DecidableEq, Repr

def SweepAction.number : SweepAction → Nat
  | .ask number | .take number _ | .look number _ | .write number => number

def SweepAction.asks? : SweepAction → Option Nat
  | .ask number => some number
  | _ => none

def Call.action? : Call → Option SweepAction
  | .header number => some (.ask number.toNat)
  | .logs _ first last => some (.look first.toNat last.toNat)
  | .chainId | .subscribe => none

def SweepPoint.number? : SweepPoint → Option UInt64
  | .launched _ => none
  | .fetching number | .working number _ => some number

/-- The actions of a backfill on an answer, when its work continues as `next`. -/
def SweepPoint.actions (answer : Answer) (next : Option (Session × Work)) : SweepPoint → List SweepAction
  | .launched _ => []
  | .fetching _ => next.toList.map fun (_, work) => .take work.header.number.toNat work.confirms
  | .working _ work =>
      match answer with
      | .stored _ => [.write work.header.number.toNat]
      | _ => []

/-- What a task has requested and waits for. -/
def Task.asks? (task : Task) : Option SweepAction :=
  (task.wait?.bind Wait.call?).bind Call.action?

/-! ## Requests -/

namespace Outlet

def asked (o : Outlet) : List Call :=
  o.signals.filterMap Signal.call?

variable (o : Outlet)

@[simp] theorem asked_emit (signal : Signal) : (o.emit signal).asked = o.asked ++ signal.call?.toList := by
  simp [asked, emit, List.filterMap_append, List.filterMap_cons]
  cases signal.call? <;> rfl

@[simp] theorem asked_tellHead (head : Head) : (o.tellHead head).asked = o.asked :=
  (asked_emit { o with dispatcher := _ } (.head head)).trans (List.append_nil _)

@[simp] theorem asked_tellEvents (events : List Event) : (o.tellEvents events).asked = o.asked := by
  have silent : (events.map Signal.event).filterMap Signal.call? = [] :=
    List.filterMap_eq_nil_iff.mpr fun signal mem => by
      obtain ⟨event, -, rfl⟩ := List.mem_map.mp mem
      rfl
  simp only [asked, tellEvents, List.filterMap_append, silent, List.append_nil]

end Outlet

namespace Ledger

variable {S α : Type} {l : Ledger S}

theorem asked_of_hooked (fault : Option TrackError) {operation : S → Outlet → Written S Outlet α}
    {hooks : List (Hook Outlet α)} (hooked : (operation l.store l.outlet).IsHooked hooks l.outlet)
    (silent : ∀ stored, (runHooks hooks stored l.outlet).2.asked = l.outlet.asked) :
    (l.write fault operation).2.outlet.asked = l.outlet.asked := by
  unfold write
  cases fault with
  | some e => rfl
  | none =>
      show (operation l.store l.outlet).state.asked = l.outlet.asked
      rcases hooked with same | ⟨stored, ran⟩
      · rw [same]
      · rw [ran]
        exact silent stored

variable [BlockStore S] [HookedStore S] (l) (fault : Option TrackError) (head : Head) (chain : UInt64) (hash : String)
  (events : List Event)

theorem asked_recordHead : (l.recordHead fault head).2.outlet.asked = l.outlet.asked :=
  asked_of_hooked fault (HookedStore.createHead _ _ _ _) fun _ => l.outlet.asked_tellHead _

theorem asked_promoteHead : (l.promoteHead fault head).2.outlet.asked = l.outlet.asked :=
  asked_of_hooked fault (HookedStore.upsertHead _ _ _ _) fun _ => l.outlet.asked_tellHead _

theorem asked_recordEvents : (l.recordEvents fault chain hash events).2.outlet.asked = l.outlet.asked :=
  asked_of_hooked fault (HookedStore.saveLogs _ _ _ _ _ _) fun _ => l.outlet.asked_tellEvents _

theorem asked_keepEvents : (l.keepEvents fault chain hash events).2.outlet.asked = l.outlet.asked :=
  asked_of_hooked fault (HookedStore.saveLogs _ _ _ _ [] _) fun _ => rfl

end Ledger

namespace Work

variable {S : Type}

theorem asked_confirm (l : Ledger S) (header : Header) :
    (confirm l header).2.outlet.asked = l.outlet.asked ++ (confirm l header).1.call?.toList := by
  unfold confirm tellConfirmed
  split
  · simp [Progress.call?]
  · simp [Progress.call?, wait, Wait.call?]
  · split
    · simp [Progress.call?, wait, Wait.call?]
    · exact l.outlet.asked_emit _

variable [BlockStore S] {session : Session} {l after : Ledger S} {work : Work} {answer : Answer}
  {progress : Progress}

theorem asked_resume? [HookedStore S] (moved : work.resume? session l answer = some (progress, after)) :
    after.outlet.asked = l.outlet.asked ++ progress.call?.toList := by
  have silent {α : Type} {written : Except TrackError α × Ledger S} {outcome : Except TrackError α} {mid : Ledger S}
      (same : written.2.outlet.asked = l.outlet.asked) (made : written = (outcome, mid)) :
      mid.outlet.asked = l.outlet.asked := by
    rw [made] at same
    exact same
  cases outcome_of_resume? moved with
  | asks written =>
      rw [← silent (l.asked_recordHead _ _) written]
      exact Outlet.asked_emit _ _
  | recorded written | known written | unrecorded written =>
      exact (silent (l.asked_recordHead _ _) written).trans (List.append_nil _).symm
  | saved written | unsaved written =>
      exact (silent (l.asked_recordEvents _ _ _ _) written).trans (List.append_nil _).symm
  | promoted written | keeps written | unpromoted written =>
      exact (silent (l.asked_promoteHead _ _) written).trans (List.append_nil _).symm
  | kept written | unkept written =>
      exact (silent (l.asked_keepEvents _ _ _ _) written).trans (List.append_nil _).symm
  | told => exact (l.outlet.asked_tellEvents _).trans (List.append_nil _).symm
  | unserved | eventless | served | unconfirmed => exact (List.append_nil _).symm

end Work

namespace Tracker

variable {S : Type} {t u v : Tracker S} {id : Nat} {session : Session} {last : UInt64} {task next : Task}

def asked (t : Tracker S) : List Call :=
  t.ledger.outlet.asked

theorem asked_emit (signal : Signal) : (t.emit signal).asked = t.asked ++ signal.call?.toList :=
  t.ledger.outlet.asked_emit signal

theorem asked_beginStop : t.beginStop.2.asked = t.asked := by
  unfold beginStop
  cases t.token with
  | none => rfl
  | some run => exact (t.ledger.outlet.asked_emit (.halted run)).trans (List.append_nil _)

theorem asked_stopInBackground (run : Nat) : (t.stopInBackground run).asked = t.asked := by
  have stopped : (t.beginStop.2.spawn (.stopping (.joining t.beginStop.1))).2.asked = t.asked :=
    ((asked_emit _).trans (List.append_nil _)).trans asked_beginStop
  unfold stopInBackground
  split
  · cases t.status with
    | idle | stopping => rfl
    | starting | running => exact stopped
  · rfl

theorem asked_fail (cause : TrackError) : (t.fail session cause).asked = t.asked := by
  unfold fail
  split
  · rfl
  · apply (asked_stopInBackground session.run).trans
    exact (Outlet.asked_emit { t.ledger.outlet with dispatcher := _ } _).trans (List.append_nil _)

theorem wait?_put (found : t.tasks[id]? = some task) (next : Task) : (t.put id next).wait? id = next.wait? := by
  have here : (t.put id next).tasks[id]? = some next := getElem?_tasks_put found
  rw [wait?, here, Option.bind_some]

theorem asked_finish (found : t.tasks[id]? = some task) (outcome : Except TrackError Unit) :
    (t.finish id outcome).asked = t.asked ++ (((t.finish id outcome).wait? id).bind Wait.call?).toList := by
  have ceased : (t.finish id outcome).wait? id = none := wait?_put found (.ended outcome)
  rw [ceased]
  exact asked_emit (t := t.put id (.ended outcome)) (.ended id)

theorem asked_failSweep (found : t.tasks[id]? = some task) (cause : TrackError) :
    (t.failSweep id session cause).asked =
      t.asked ++ (((t.failSweep id session cause).wait? id).bind Wait.call?).toList := by
  have finished := asked_finish (found_fail found session cause) (.ok ())
  rw [asked_fail] at finished
  exact finished

theorem asked_sweepFrom (found : t.tasks[id]? = some task) (number : UInt64) :
    (t.sweepFrom id session last number).asked =
      t.asked ++ (((t.sweepFrom id session last number).wait? id).bind Wait.call?).toList := by
  unfold sweepFrom
  split
  · exact asked_finish found _
  · rw [wait?_put (t := t.emit _) found]
    exact asked_emit (.asked (.header number))

theorem asked_putSweeping {mid : Ledger S} {progress : Progress} (found : t.tasks[id]? = some task)
    (worked : mid.outlet.asked = t.asked ++ progress.call?.toList) (number : UInt64) :
    (putSweeping { t with ledger := mid } id session last number progress).asked = t.asked ++
      (((putSweeping { t with ledger := mid } id session last number progress).wait? id).bind Wait.call?).toList := by
  have found : ({ t with ledger := mid } : Tracker S).tasks[id]? = some task := found
  cases progress with
  | waits work =>
      rw [putSweeping, wait?_put found]
      exact worked
  | finished =>
      have same : ({ t with ledger := mid } : Tracker S).asked = t.asked := worked.trans (List.append_nil _)
      rw [putSweeping, ← same]
      split
      · exact asked_sweepFrom found _
      · exact asked_finish found _
  | failed cause =>
      have same : ({ t with ledger := mid } : Tracker S).asked = t.asked := worked.trans (List.append_nil _)
      rw [putSweeping, ← same]
      exact asked_failSweep found cause
  | crashed =>
      have ceased : (({ t with ledger := mid } : Tracker S).crash id).wait? id = none := wait?_put found .crashed
      rw [putSweeping, ceased]
      exact ((asked_emit (t := ({ t with ledger := mid } : Tracker S).put id .crashed) _).trans
        (List.append_nil _)).trans worked

theorem asked_beginWork (number : UInt64) (header : Header) :
    (t.beginWork session last number header).2.outlet.asked =
      t.asked ++ (t.beginWork session last number header).1.call?.toList := by
  unfold beginWork
  split
  · exact Work.asked_confirm t.ledger header
  · unfold Work.observe
    split
    · exact (List.append_nil _).symm
    · exact (List.append_nil _).symm

variable [BlockStore S] {point : SweepPoint} {answer : Answer}

theorem asked_resumeSweep? [HookedStore S] (found : t.tasks[id]? = some task)
    (moved : t.resumeSweep? id session last point answer = some u) :
    u.asked = t.asked ++ ((u.wait? id).bind Wait.call?).toList := by
  unfold resumeSweep? at moved
  split at moved
  case h_1 lowest =>
    cases moved
    unfold beginSweep
    split
    · exact asked_finish found _
    · exact asked_sweepFrom found lowest
  case h_2 number cause =>
    cases moved
    exact asked_failSweep found cause
  case h_3 number header =>
    cases moved
    exact asked_putSweeping found (asked_beginWork number header) number
  case h_4 number work =>
    obtain ⟨⟨progress, mid⟩, worked, rfl⟩ := Option.map_eq_some_iff.mp moved
    exact asked_putSweeping found (Work.asked_resume? worked) number
  case h_5 => cases moved

/-! ## Actions of a move -/

omit [BlockStore S] in
/-- The actions of a backfill in a move. -/
def actions (t : Tracker S) (m : Move) (u : Tracker S) : List SweepAction :=
  match m with
  | .resume id answer =>
      match t.tasks[id]? with
      | some (.sweeping _ _ point) => point.actions answer (u.tasks[id]?.bind Task.work?) ++
          (u.asked.drop t.asked.length).filterMap Call.action?
      | _ => []
  | _ => []

theorem resumeSweep?_of_resume? (found : t.tasks[id]? = some (.sweeping session last point))
    (moved : t.resume? id answer = some u) : t.resumeSweep? id session last point answer = some u := by
  simpa only [resume?, found] using moved

/-- The actions of a move are those on the answer, followed by the next request. -/
theorem actions_resume [HookedStore S] (found : t.tasks[id]? = some (.sweeping session last point))
    (moved : t.resume? id answer = some u) (here : u.tasks[id]? = some next) :
    t.actions (.resume id answer) u = point.actions answer next.work? ++ next.asks?.toList := by
  have asked := asked_resumeSweep? found (resumeSweep?_of_resume? found moved)
  have waits : u.wait? id = next.wait? := by rw [wait?, here, Option.bind_some]
  simp only [actions, found, here, Option.bind_some, asked, waits, List.drop_left, Task.asks?]
  cases next.wait?.bind Wait.call? with
  | none => rfl
  | some call => cases action : call.action? <;> simp [action]

omit [BlockStore S] in
theorem actions_of_other {m : Move}
    (other : ∀ {id : Nat} {answer : Answer}, m = .resume id answer →
      ∀ session last point, t.tasks[id]? ≠ some (.sweeping session last point)) : t.actions m u = [] := by
  unfold actions
  split
  · split
    · rename_i found
      exact (other rfl _ _ _ found).elim
    · rfl
  · rfl

/-! ## Actions of a history -/

/-- A history with the actions of its backfills, each of whose moves satisfies a rule. -/
inductive Traces (allowed : Tracker S → Move → Prop) (start : Tracker S) : List SweepAction → Tracker S → Prop where
  | refl : Traces allowed start [] start
  | move {done : List SweepAction} {t u : Tracker S} {m : Move} : Traces allowed start done t → allowed t m →
      t.move? m = some u → Traces allowed start (done ++ t.actions m u) u

variable {allowed : Tracker S → Move → Prop} {done more : List SweepAction}

theorem Traces.trans (h : Traces allowed t done u) (g : Traces allowed u more v) :
    Traces allowed t (done ++ more) v := by
  induction g with
  | refl => rwa [List.append_nil]
  | move _ ok moved ih =>
      rw [← List.append_assoc]
      exact .move ih ok moved

/-- The moves in turn, as long as a check passes, with the actions of backfills. -/
def trace? (check : Tracker S → Move → Bool) (t : Tracker S) : List Move → Option (List SweepAction × Tracker S)
  | [] => some ([], t)
  | m :: moves =>
      if check t m then
        (t.move? m).bind fun u => (u.trace? check moves).map fun (more, v) => (t.actions m u ++ more, v)
      else none

/-- Checked moves make a history. -/
theorem traces_of_trace? {check : Tracker S → Move → Bool} {moves : List Move}
    (sound : ∀ {t : Tracker S} {m : Move}, check t m → allowed t m)
    (h : t.trace? check moves = some (done, u)) : Traces allowed t done u := by
  induction moves generalizing t done with
  | nil =>
      cases h
      exact .refl
  | cons m moves ih =>
      unfold trace? at h
      split at h
      · rename_i passed
        obtain ⟨v, moved, rest⟩ := Option.bind_eq_some_iff.mp h
        obtain ⟨⟨more, w⟩, later, same⟩ := Option.map_eq_some_iff.mp rest
        cases same
        have first : Traces allowed t ([] ++ t.actions m v) v := .move .refl (sound passed) moved
        exact first.trans (ih later)
      · cases h

end Tracker

end Chainwatch
