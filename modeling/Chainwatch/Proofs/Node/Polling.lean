import Chainwatch.Node.Poller

/-!
# What a poller asks for and reports

A journal keeps what passes between a poller, its node and its reader. Whatever the node answers, and whenever the
poller is cancelled or its reader leaves, blocks are asked for one after the other from the newest block of the first
poll, never beyond the newest known, and the items on the queue are the answers in that order; a failure is the last.
-/

namespace Chainwatch

namespace Poller

/-! ## Steps -/

def asking (p : Poller) : List UInt64 :=
  match p.point with
  | .askingBlock number _ => [number]
  | _ => []

def offered (p : Poller) : List Poll :=
  match p.point with
  | .sending header _ _ => [.ok header]
  | .failing cause => [.error cause]
  | _ => []

def put (p : Poller) (item : Poll) : Poller :=
  { p with queue := { p.queue with items := p.queue.items ++ [item] } }

/-- The transitions of a poller on an answer. -/
inductive Step (p : Poller) : Answer → Poller → Prop where
  | tick {now : Nat} : p.point = .resting → p.due ≤ now →
      Step p (.time now) { p with point := .askingTip, due := p.nextDue now }
  | stop : p.point = .resting → p.cancelled → Step p .cancelled p.finish
  | unknown {cause : TrackError} :
    p.point = .askingTip → Step p (.tip (.error cause)) { p with point := .failing cause }
  | behind {tip : UInt64} : p.point = .askingTip → tip < p.next.getD tip →
      Step p (.tip (.ok tip)) { p with point := .resting }
  | warned {tip : UInt64} : p.point = .askingTip → p.next.getD tip ≤ tip → p.cancelled →
      Step p (.tip (.ok tip)) p.finish
  | news {tip : UInt64} : p.point = .askingTip → p.next.getD tip ≤ tip → p.cancelled = false →
      Step p (.tip (.ok tip)) { p with point := .askingBlock (p.next.getD tip) tip }
  | missing {number tip : UInt64} {cause : TrackError} : p.point = .askingBlock number tip →
      Step p (.block (.error cause)) { p with point := .failing cause }
  | found {number tip : UInt64} {header : Header} : p.point = .askingBlock number tip →
      Step p (.block (.ok header)) { p with point := .sending header number tip }
  | caughtUp {header : Header} {number tip : UInt64} : p.point = .sending header number tip → tip ≤ number →
      p.queue.isClosed = false → Step p .room { p.put (.ok header) with next := some (number + 1), point := .resting }
  | halted {header : Header} {number tip : UInt64} : p.point = .sending header number tip → number < tip →
      p.queue.isClosed = false → p.cancelled →
      Step p .room { p.put (.ok header) with next := some (number + 1) }.finish
  | goesOn {header : Header} {number tip : UInt64} : p.point = .sending header number tip → number < tip →
      p.queue.isClosed = false → p.cancelled = false →
      Step p .room { p.put (.ok header) with next := some (number + 1), point := .askingBlock (number + 1) tip }
  | failed {cause : TrackError} : p.point = .failing cause → p.queue.isClosed = false →
      Step p .room (p.put (.error cause)).finish
  | refused : p.offered ≠ [] → p.queue.isClosed → Step p .room p.finish

variable {p q : Poller}

theorem exists_of_offered (waits : p.offered ≠ []) : ∃ item, p.offered = [item] := by
  unfold offered at waits ⊢
  cases stands : p.point <;> simp_all

theorem advance_cases (p : Poller) (number tip : UInt64) :
    tip < number ∧ p.advance number tip = { p with point := .resting } ∨
      number ≤ tip ∧ p.cancelled ∧ p.advance number tip = p.finish ∨
        number ≤ tip ∧ p.cancelled = false ∧ p.advance number tip = { p with point := .askingBlock number tip } := by
  unfold advance
  by_cases behind : tip < number
  · exact Or.inl ⟨behind, if_pos behind⟩
  · rw [if_neg behind]
    have new : number ≤ tip := UInt64.not_lt.mp behind
    by_cases cancelled : p.cancelled
    · exact Or.inr (Or.inl ⟨new, cancelled, if_pos cancelled⟩)
    · exact Or.inr (Or.inr ⟨new, Bool.eq_false_iff.mpr cancelled, if_neg cancelled⟩)

theorem push_put (p : Poller) (item : Poll) :
    p.queue.push item = (.closed item, p.queue) ∧ p.queue.isClosed ∨ p.queue.push item = (.full item, p.queue) ∨
      p.queue.push item = (.accepted, (p.put item).queue) ∧ p.queue.isClosed = false := by
  unfold Queue.push
  by_cases closed : p.queue.isClosed
  · exact Or.inl ⟨if_pos closed, closed⟩
  · rw [if_neg closed]
    by_cases full : p.queue.capacity ≤ p.queue.items.length
    · exact Or.inr (Or.inl (if_pos full))
    · exact Or.inr (Or.inr ⟨if_neg full, Bool.eq_false_iff.mpr closed⟩)

theorem step_tip (stands : p.point = .askingTip) (tip : UInt64) :
    p.Step (.tip (.ok tip)) (p.advance (p.next.getD tip) tip) := by
  rcases p.advance_cases (p.next.getD tip) tip with ⟨behind, same⟩ | ⟨new, cancelled, same⟩ | ⟨new, going, same⟩ <;>
    rw [same]
  · exact .behind stands behind
  · exact .warned stands new cancelled
  · exact .news stands new going

theorem lt_of_succ_le {number tip : UInt64} (below : number < tip) : ¬tip < number + 1 := by
  have bound := tip.toNat_lt
  rw [UInt64.lt_iff_toNat_lt] at below
  rw [UInt64.lt_iff_toNat_lt, UInt64.toNat_add, UInt64.toNat_one]
  omega

/-- After a header is queued the poller continues with the next block or waits for a tick. -/
theorem step_sent {header : Header} {number tip : UInt64} (stands : p.point = .sending header number tip)
    (opened : p.queue.isClosed = false) :
    p.Step .room (if number < tip then { p.put (.ok header) with next := some (number + 1) }.advance (number + 1) tip
      else { p.put (.ok header) with next := some (number + 1), point := .resting }) := by
  by_cases more : number < tip
  · rw [if_pos more]
    rcases advance_cases { p.put (.ok header) with next := some (number + 1) } (number + 1) tip with
      ⟨behind, -⟩ | ⟨-, cancelled, same⟩ | ⟨-, going, same⟩
    · exact (lt_of_succ_le more behind).elim
    · rw [same]
      exact .halted stands more opened cancelled
    · rw [same]
      exact .goesOn stands more opened going
  · rw [if_neg more]
    exact .caughtUp stands (UInt64.not_lt.mp more) opened

/-- Every step of the executable poller is one of the transitions. -/
theorem step_of_resume? {answer : Answer} (resumed : p.resume? answer = some q) : p.Step answer q := by
  unfold resume? at resumed
  split at resumed
  · split at resumed <;> cases resumed
    exact .tick ‹_› ‹_›
  · split at resumed <;> cases resumed
    exact .stop ‹_› ‹_›
  · cases resumed
    exact .unknown ‹_›
  · cases resumed
    exact step_tip ‹_› _
  · cases resumed
    exact .missing ‹_›
  · cases resumed
    exact .found ‹_›
  · rename_i header number tip stands
    rcases p.push_put (.ok header) with ⟨pushed, closed⟩ | pushed | ⟨pushed, opened⟩ <;>
      rw [pushed] at resumed <;> cases resumed
    · exact .refused (by simp [offered, stands]) closed
    · exact step_sent stands opened
  · rename_i cause stands
    rcases p.push_put (.error cause) with ⟨pushed, closed⟩ | pushed | ⟨pushed, opened⟩ <;>
      rw [pushed] at resumed <;> cases resumed
    · exact .refused (by simp [offered, stands]) closed
    · exact .failed stands opened
  · cases resumed

namespace Step

variable {answer : Answer}

theorem not_ended (turn : p.Step answer q) : p.point ≠ .ended := by
  rintro ended
  cases turn <;> simp_all [offered]

/-- A step appends to the queue, and closes it only when the poller ends. -/
theorem queue (turn : p.Step answer q) :
    q.queue.items = p.queue.items ++ q.queue.items.drop p.queue.items.length ∧ q.queue.capacity = p.queue.capacity ∧
      q.queue.abandoned = p.queue.abandoned ∧ (q.queue.closed ↔ p.queue.closed ∨ q.point = .ended) := by
  cases turn <;> simp_all [put, finish, Queue.close]

end Step

/-! ## Journals -/

def Answer.tips : Answer → List (Except TrackError UInt64)
  | .tip outcome => [outcome]
  | _ => []

def Answer.blocks (answer : Answer) (p : Poller) : List (UInt64 × Except TrackError Header) :=
  match answer with
  | .block outcome => p.asking.map (·, outcome)
  | _ => []

/-- An event in the life of a poller. -/
inductive Act where
  | answer (answer : Answer)
  | cancel
  | receive
  | abandon

/-- A poller with the record of its questions, the answers and the items sent and received. -/
structure Journal where
  poller : Poller
  tips : List (Except TrackError UInt64)
  asked : List UInt64
  found : List (UInt64 × Except TrackError Header)
  sent : List Poll
  received : List Poll

namespace Journal

def start (settings : PollSettings) (now : Nat) : Journal :=
  ⟨.make settings now, [], [], [], [], []⟩

def after (j : Journal) (answer : Answer) (p : Poller) : Journal where
  poller := p
  tips := j.tips ++ answer.tips
  asked := j.asked ++ p.asking
  found := j.found ++ answer.blocks j.poller
  sent := j.sent ++ p.queue.items.drop j.poller.queue.items.length
  received := j.received

def read (j : Journal) : Journal :=
  let (receipt, queue) := j.poller.queue.receive
  let taken := match receipt with
    | .item item => [item]
    | .pending | .ended => []
  { j with poller := { j.poller with queue }, received := j.received ++ taken }

def act? (j : Journal) : Act → Option Journal
  | .answer answer => (j.poller.resume? answer).map (j.after answer)
  | .cancel => some { j with poller := j.poller.cancel }
  | .receive => some j.read
  | .abandon => some { j with poller := j.poller.abandon }

def run? : List Act → Journal → Option Journal
  | [], j => some j
  | act :: acts, j => (j.act? act).bind (run? acts)

variable {j k : Journal} {act : Act} {acts : List Act}

theorem run?_append (acts more : List Act) (j : Journal) :
    run? (acts ++ more) j = (run? acts j).bind (run? more) := by
  induction acts generalizing j with
  | nil => rfl
  | cons act acts ih =>
      rw [List.cons_append, run?, run?, Option.bind_assoc]
      exact Option.bind_congr fun k _ => ih k

/-- A property preserved by every act is preserved by a run. -/
theorem run?_invariant {I : Journal → Prop} (step : ∀ act ∈ acts, ∀ j k, j.act? act = some k → I j → I k)
    (h : I j) (ran : run? acts j = some k) : I k := by
  induction acts generalizing j with
  | nil =>
      cases ran
      exact h
  | cons act acts ih =>
      obtain ⟨i, first, rest⟩ := Option.bind_eq_some_iff.mp ran
      exact ih (fun act mem => step act (List.mem_cons_of_mem _ mem)) (step act List.mem_cons_self j i first h) rest

/-- Reading takes the oldest item off the queue and changes nothing else. -/
theorem read_queue (j : Journal) : j.read.poller.queue.closed = j.poller.queue.closed ∧
    j.read.poller.queue.capacity = j.poller.queue.capacity ∧
      j.read.poller.queue.abandoned = j.poller.queue.abandoned ∧
        j.read.received ++ j.read.poller.queue.items = j.received ++ j.poller.queue.items := by
  unfold read Queue.receive Queue.pop
  cases items : j.poller.queue.items with
  | nil => by_cases isOver : j.poller.queue.closed <;> simp [items, isOver]
  | cons item rest => simp

structure SamePoller (j k : Journal) : Prop where
  point : k.poller.point = j.poller.point
  next : k.poller.next = j.poller.next
  cancelled : j.poller.cancelled → k.poller.cancelled
  abandoned : j.poller.queue.abandoned → k.poller.queue.abandoned
  tips : k.tips = j.tips
  asked : k.asked = j.asked
  found : k.found = j.found
  sent : k.sent = j.sent

theorem step_or_same (done : j.act? act = some k) :
    (∃ answer p, act = .answer answer ∧ j.poller.Step answer p ∧ k = j.after answer p) ∨
      (∀ answer, act ≠ .answer answer) ∧ j.SamePoller k := by
  cases act with
  | answer answer =>
      obtain ⟨p, resumed, rfl⟩ := Option.map_eq_some_iff.mp done
      exact Or.inl ⟨answer, p, rfl, step_of_resume? resumed, rfl⟩
  | cancel =>
      cases done
      exact Or.inr ⟨nofun, rfl, rfl, fun _ => rfl, id, rfl, rfl, rfl, rfl⟩
  | receive =>
      cases done
      exact Or.inr ⟨nofun, rfl, rfl, id, fun left => j.read_queue.2.2.1.trans left, rfl, rfl, rfl, rfl⟩
  | abandon =>
      cases done
      exact Or.inr ⟨nofun, rfl, rfl, id, fun _ => rfl, rfl, rfl, rfl, rfl⟩

/-! ## Blocks in order -/

/-- The tip reported by the first poll. -/
def firstOf : List (Except TrackError UInt64) → Nat
  | .ok tip :: _ => tip.toNat
  | _ => 0

/-- The first poll was answered with a tip. -/
def Begun (j : Journal) : Prop :=
  ∃ tip, j.tips.head? = some (.ok tip)

/-- Every tip is below the greatest block number. -/
def IsSmall (j : Journal) : Prop :=
  ∀ tip, .ok tip ∈ j.tips → tip.toNat + 1 < UInt64.size

/-- The position of the poller matches the blocks that it has requested. -/
def InSequence (j : Journal) : Prop :=
  match j.poller.point with
  | .resting | .askingTip =>
    j.poller.next = none ∧ j.tips = [] ∧ j.asked = [] ∨
      ∃ next, j.poller.next = some next ∧ next.toNat = firstOf j.tips + j.asked.length ∧ j.Begun ∧
        ∀ tip, .ok tip ∈ j.tips → tip < next
  | .askingBlock number tip | .sending _ number tip =>
    number.toNat + 1 = firstOf j.tips + j.asked.length ∧ number ≤ tip ∧ .ok tip ∈ j.tips ∧ j.Begun ∧
      ∀ other, .ok other ∈ j.tips → other ≤ tip
  | .failing _ | .ended => True

/-- The requested blocks are consecutive, from the first tip up to at most the newest known. -/
structure Numbered (j : Journal) : Prop where
  begun : j.asked ≠ [] → j.Begun
  asked : j.asked.map UInt64.toNat = List.range' (firstOf j.tips) j.asked.length
  bounded : ∀ number ∈ j.asked, ∃ tip, .ok tip ∈ j.tips ∧ number ≤ tip
  found : j.found.map (·.1) ++ j.poller.asking = j.asked
  follows : j.InSequence

theorem numbered_start (settings : PollSettings) (now : Nat) : (start settings now).Numbered :=
  ⟨fun none => (none rfl).elim, rfl, nofun, rfl, Or.inl ⟨rfl, rfl, rfl⟩⟩

theorem SamePoller.begun (same : j.SamePoller k) : k.Begun ↔ j.Begun := by
  rw [Begun, Begun, same.tips]

theorem SamePoller.follows (same : j.SamePoller k) : k.InSequence ↔ j.InSequence := by
  unfold InSequence
  rw [same.point, same.next, same.tips, same.asked, same.begun]

theorem SamePoller.numbered (same : j.SamePoller k) (h : j.Numbered) : k.Numbered := by
  refine ⟨?_, ?_, ?_, ?_, same.follows.mpr h.follows⟩
  · rw [same.asked, same.begun]
    exact h.begun
  · rw [same.asked, same.tips]
    exact h.asked
  · rw [same.asked, same.tips]
    exact h.bounded
  · rw [same.asked, same.found, asking, same.point]
    exact h.found

theorem Begun.append (h : j.Begun) (more : List (Except TrackError UInt64)) :
    (∃ tip, (j.tips ++ more).head? = some (.ok tip)) ∧ firstOf (j.tips ++ more) = firstOf j.tips := by
  obtain ⟨tip, first⟩ := h
  obtain ⟨rest, tips⟩ := List.head?_eq_some_iff.mp first
  rw [tips]
  exact ⟨⟨tip, rfl⟩, rfl⟩

theorem Numbered.asked_append (h : j.Numbered) (more : List (Except TrackError UInt64)) :
    j.asked.map UInt64.toNat = List.range' (firstOf (j.tips ++ more)) j.asked.length := by
  by_cases none : j.asked = []
  · rw [none]
    rfl
  · rw [((h.begun none).append more).2, h.asked]

theorem Numbered.of_quiet (h : j.Numbered) {answer : Answer} {p : Poller} (quiet : p.asking = [])
    (answered : (answer.blocks j.poller).map (·.1) = j.poller.asking) (follows : (j.after answer p).InSequence) :
    (j.after answer p).Numbered := by
  have same : (j.after answer p).asked = j.asked := by simp [after, quiet]
  refine ⟨?_, ?_, ?_, ?_, follows⟩
  · exact fun some => ((h.begun (same ▸ some)).append answer.tips).1
  · rw [same]
    exact h.asked_append answer.tips
  · intro number mem
    obtain ⟨tip, known, below⟩ := h.bounded number (same ▸ mem)
    exact ⟨tip, List.mem_append_left _ known, below⟩
  · rw [same, ← h.found]
    simp [after, quiet, answered]

theorem Numbered.of_asks (h : j.Numbered) {answer : Answer} {p : Poller} {number tip : UInt64}
    (asks : p.asking = [number]) (idle : j.poller.asking = []) (unanswered : answer.blocks j.poller = [])
    (next : number.toNat = firstOf (j.tips ++ answer.tips) + j.asked.length)
    (known : .ok tip ∈ j.tips ++ answer.tips) (below : number ≤ tip) (begun : (j.after answer p).Begun)
    (follows : (j.after answer p).InSequence) : (j.after answer p).Numbered := by
  have more : (j.after answer p).asked = j.asked ++ [number] := by simp [after, asks]
  refine ⟨fun _ => begun, ?_, ?_, ?_, follows⟩
  · rw [more, List.map_append, h.asked_append answer.tips, List.length_append, List.length_singleton,
      List.range'_1_concat, List.map_singleton, next]
    rfl
  · intro other mem
    rcases List.mem_append.mp (more ▸ mem) with old | new
    · obtain ⟨tip, known, below⟩ := h.bounded other old
      exact ⟨tip, List.mem_append_left _ known, below⟩
    · exact ⟨tip, known, List.mem_singleton.mp new ▸ below⟩
  · have all := h.found
    rw [idle, List.append_nil] at all
    rw [more, ← all]
    simp [after, asks, unanswered]

theorem toNat_succ {number tip : UInt64} (small : tip.toNat + 1 < UInt64.size) (below : number ≤ tip) :
    (number + 1).toNat = number.toNat + 1 := by
  have := UInt64.le_iff_toNat_le.mp below
  rw [UInt64.toNat_add, UInt64.toNat_one]
  exact Nat.mod_eq_of_lt (by rw [UInt64.size] at small; omega)

/-- The next number follows the last requested one and is at most the newest tip. -/
theorem InSequence.next (h : j.InSequence) (stands : j.poller.point = .askingTip) (tip : UInt64) :
    (j.poller.next.getD tip).toNat = firstOf (j.tips ++ [.ok tip]) + j.asked.length ∧
      (∃ first, (j.tips ++ [Except.ok tip]).head? = some (.ok first)) ∧
        ∀ other, .ok other ∈ j.tips → other < j.poller.next.getD tip := by
  unfold InSequence at h
  rw [stands] at h
  rcases h with ⟨none, no_tip, no_block⟩ | ⟨next, some, number, begun, beyond⟩
  · rw [none, no_tip, no_block]
    exact ⟨rfl, ⟨tip, rfl⟩, nofun⟩
  · rw [some, (begun.append _).2]
    exact ⟨number, (begun.append _).1, beyond⟩

/-- A poll that finds no new block leaves the position as it is. -/
theorem InSequence.behind (h : j.InSequence) (stands : j.poller.point = .askingTip) {tip : UInt64}
    (behind : tip < j.poller.next.getD tip) :
    (j.after (.tip (.ok tip)) { j.poller with point := .resting }).InSequence := by
  obtain ⟨number, begun, beyond⟩ := h.next stands tip
  cases known : j.poller.next with
  | none =>
      rw [known] at behind
      exact (UInt64.lt_irrefl _ behind).elim
  | some next =>
      rw [known] at behind number beyond
      refine Or.inr ⟨next, known, by simpa [after, asking, Answer.tips] using number, begun, ?_⟩
      intro other mem
      rcases List.mem_append.mp mem with old | new
      · exact beyond other old
      · cases List.mem_singleton.mp new
        exact behind

theorem InSequence.news (h : j.InSequence) (stands : j.poller.point = .askingTip) {tip : UInt64}
    (new : j.poller.next.getD tip ≤ tip) :
    (j.after (.tip (.ok tip)) { j.poller with point := .askingBlock (j.poller.next.getD tip) tip }).InSequence := by
  obtain ⟨number, begun, beyond⟩ := h.next stands tip
  refine ⟨?_, new, by simp [after, Answer.tips], begun, ?_⟩
  · rw [number]
    simp [after, asking, Answer.tips, Nat.add_assoc]
  · intro other mem
    rcases List.mem_append.mp mem with old | new'
    · exact UInt64.le_trans (UInt64.le_of_lt (beyond other old)) new
    · cases List.mem_singleton.mp new'
      exact UInt64.le_refl _

theorem Numbered.turn (h : j.Numbered) (small : j.IsSmall) {answer : Answer} {p : Poller}
    (turn : j.poller.Step answer p) : (j.after answer p).Numbered := by
  have follows := h.follows
  unfold InSequence at follows
  cases turn with
  | tick stands due =>
      rw [stands] at follows
      refine h.of_quiet rfl (by simp [Answer.blocks, asking, stands]) ?_
      simpa [InSequence, Begun, after, asking, Answer.tips] using follows
  -- The poller has failed or ended, and asks for nothing any more.
  | stop stands | unknown stands | warned stands | missing stands | halted stands | failed stands =>
      exact h.of_quiet rfl (by simp [Answer.blocks, asking, stands]) trivial
  | behind stands behind =>
      exact h.of_quiet rfl (by simp [Answer.blocks, asking, stands]) (h.follows.behind stands behind)
  | news stands new going =>
      obtain ⟨number, begun, -⟩ := h.follows.next stands _
      exact h.of_asks rfl (by simp [asking, stands]) rfl number (List.mem_append_right _ List.mem_cons_self) new begun
        (h.follows.news stands new)
  | found stands =>
      rw [stands] at follows
      refine h.of_quiet rfl (by simp [Answer.blocks, asking, stands]) ?_
      simpa [InSequence, Begun, after, asking, Answer.tips] using follows
  | @caughtUp header number tip stands last opened =>
      rw [stands] at follows
      obtain ⟨place, below, known, begun, newest⟩ := follows
      have succ := toNat_succ (small tip known) below
      refine h.of_quiet rfl (by simp [Answer.blocks, asking, stands]) (Or.inr ⟨number + 1, rfl, ?_, ?_, ?_⟩)
      · rw [succ, place]
        simp [after, asking, Answer.tips]
      · exact (begun.append _).1
      · intro other mem
        have within := newest other (by simpa [after, Answer.tips] using mem)
        rw [UInt64.lt_iff_toNat_lt, succ]
        exact Nat.lt_succ_of_le (UInt64.le_iff_toNat_le.mp (UInt64.le_trans within last))
  | @goesOn header number tip stands more opened going =>
      rw [stands] at follows
      obtain ⟨place, below, known, begun, newest⟩ := follows
      have succ := toNat_succ (small tip known) below
      have still := (begun.append []).1
      refine h.of_asks rfl (by simp [asking, stands]) rfl ?_ (List.mem_append_left _ known)
        (UInt64.not_lt.mp (lt_of_succ_le more)) still ⟨?_, UInt64.not_lt.mp (lt_of_succ_le more), ?_, still, ?_⟩
      · rw [succ, place]
        simp [Answer.tips]
      · rw [succ, place]
        simp [after, asking, Answer.tips, Nat.add_assoc]
      · exact List.mem_append_left _ known
      · simpa [after, Answer.tips] using newest
  | refused waits closed =>
      refine h.of_quiet rfl ?_ trivial
      unfold offered at waits
      cases stands : j.poller.point <;> simp_all [Answer.blocks, asking]

/-! ## Items in order -/

def failure? : Except TrackError UInt64 → Option Poll
  | .error cause => some (.error cause)
  | .ok _ => none

/-- What is to be reported: the answers for blocks, and a failed request for the tip. -/
def reports (j : Journal) : List Poll :=
  j.found.map (·.2) ++ j.tips.filterMap failure?

/-- The poller has met a failure or has ended. -/
def IsOver (j : Journal) : Prop :=
  j.poller.point = .ended ∨ ∃ cause, j.poller.point = .failing cause

/-- The reports are queued in order, and a failure is the last of them. -/
structure Reported (j : Journal) : Prop where
  clean : (∀ item ∈ j.reports, item.isOk) ∨
    j.IsOver ∧ ∃ good cause, j.reports = good ++ [.error cause] ∧ ∀ item ∈ good, item.isOk
  /-- Nothing is lost, unless the reader has left. -/
  sent : j.sent ++ j.poller.offered = j.reports ∨
    j.poller.point = .ended ∧ j.poller.queue.abandoned ∧ ∃ item, j.sent ++ [item] = j.reports
  received : j.poller.queue.abandoned = false → j.received ++ j.poller.queue.items = j.sent
  closed : j.poller.queue.closed ↔ j.poller.point = .ended
  room : 0 < j.poller.queue.capacity

theorem reported_start (settings : PollSettings) (now : Nat) : (start settings now).Reported where
  clean := Or.inl nofun
  sent := Or.inl rfl
  received _ := rfl
  closed := ⟨nofun, nofun⟩
  room := Nat.lt_of_lt_of_le Nat.one_pos (Nat.le_max_right ..)

/-- While the poller is not over, every report is a header. -/
theorem Reported.all_ok (h : j.Reported) (going : ¬j.IsOver) :
    (∀ item ∈ j.reports, item.isOk) ∧ j.tips.filterMap failure? = [] := by
  have all : ∀ item ∈ j.reports, item.isOk := h.clean.resolve_right fun isOver => going isOver.1
  refine ⟨all, List.eq_nil_iff_forall_not_mem.mpr fun item mem => ?_⟩
  have ok := all item (List.mem_append_right _ mem)
  obtain ⟨tip, -, failed⟩ := List.mem_filterMap.mp mem
  cases tip <;> cases failed
  cases ok

theorem Reported.sent_eq (h : j.Reported) (going : j.poller.point ≠ .ended) :
    j.sent ++ j.poller.offered = j.reports :=
  h.sent.resolve_right fun isOver => going isOver.1

theorem reports_same {answer : Answer} (p : Poller) (blocks : answer.blocks j.poller = [])
    (tips : answer.tips.filterMap failure? = []) : (j.after answer p).reports = j.reports := by
  simp [reports, after, blocks, tips]

theorem Reported.reports_block (h : j.Reported) (going : ¬j.IsOver) {number : UInt64}
    (asked : j.poller.asking = [number])
    (outcome : Except TrackError Header) (p : Poller) :
    (j.after (.block outcome) p).reports = j.reports ++ [outcome] := by
  obtain ⟨-, none⟩ := h.all_ok going
  simp [reports, after, Answer.blocks, Answer.tips, asked, none]

theorem Reported.of_step (h : j.Reported) {answer : Answer} {p : Poller} (turn : j.poller.Step answer p)
    (clean : (∀ item ∈ (j.after answer p).reports, item.isOk) ∨
      (j.after answer p).IsOver ∧
        ∃ good cause, (j.after answer p).reports = good ++ [.error cause] ∧ ∀ item ∈ good, item.isOk)
    (sent : (j.after answer p).sent ++ p.offered = (j.after answer p).reports ∨
      p.point = .ended ∧ j.poller.queue.abandoned ∧ ∃ item,
        (j.after answer p).sent ++ [item] = (j.after answer p).reports) :
    (j.after answer p).Reported := by
  obtain ⟨items, capacity, abandoned, closed⟩ := turn.queue
  refine ⟨clean, ?_, ?_, ?_, capacity ▸ h.room⟩
  · change _ ∨ _ ∧ p.queue.abandoned ∧ _
    rwa [abandoned]
  · intro stays
    change j.received ++ p.queue.items = j.sent ++ _
    change p.queue.abandoned = false at stays
    rw [← h.received (abandoned ▸ stays), List.append_assoc, ← items]
  · exact closed.trans (or_iff_right fun before => turn.not_ended (h.closed.mp before))

theorem Reported.of_same (h : j.Reported) {answer : Answer} {p : Poller} (turn : j.poller.Step answer p)
    (blocks : answer.blocks j.poller = []) (tips : answer.tips.filterMap failure? = [])
    (isOver : j.IsOver → (j.after answer p).IsOver)
    (same : (j.after answer p).sent ++ p.offered = j.sent ++ j.poller.offered) : (j.after answer p).Reported := by
  have reports := reports_same (j := j) p blocks tips
  refine h.of_step turn ?_ (Or.inl ?_)
  · rw [reports]
    exact h.clean.imp_right fun failed => ⟨isOver failed.1, failed.2⟩
  · rw [same, reports, h.sent_eq turn.not_ended]

theorem Reported.of_more (h : j.Reported) {answer : Answer} {p : Poller} (turn : j.poller.Step answer p)
    (going : ¬j.IsOver) {item : Poll} (more : (j.after answer p).reports = j.reports ++ [item])
    (clean : item.isOk ∨ ∃ cause, item = .error cause ∧ p.point = .failing cause)
    (same : (j.after answer p).sent ++ p.offered = j.sent ++ j.poller.offered ++ [item]) :
    (j.after answer p).Reported := by
  obtain ⟨all, -⟩ := h.all_ok going
  refine h.of_step turn ?_ (Or.inl ?_)
  · rw [more]
    rcases clean with ok | ⟨cause, rfl, failing⟩
    · refine Or.inl fun other mem => ?_
      rcases List.mem_append.mp mem with old | new
      · exact all other old
      · exact List.mem_singleton.mp new ▸ ok
    · exact Or.inr ⟨Or.inr ⟨cause, failing⟩, _, cause, rfl, all⟩
  · rw [same, more, h.sent_eq turn.not_ended]

theorem not_isOver_of {point : Point} (stands : j.poller.point = point) (not_ended : point ≠ .ended)
    (not_failing : ∀ cause, point ≠ .failing cause) : ¬j.IsOver := by
  rintro (ended | ⟨cause, failing⟩)
  · exact not_ended (stands.symm.trans ended)
  · exact not_failing cause (stands.symm.trans failing)

theorem Reported.turn (h : j.Reported) {answer : Answer} {p : Poller} (turn : j.poller.Step answer p) :
    (j.after answer p).Reported := by
  have same := turn
  cases turn with
  | tick stands | behind stands | news stands | caughtUp stands | goesOn stands =>
      exact h.of_same same rfl rfl (fun isOver => (not_isOver_of stands nofun nofun isOver).elim)
        (by simp [after, offered, put, stands])
  | stop stands | warned stands | halted stands | failed stands =>
      exact h.of_same same rfl rfl (fun _ => Or.inl rfl) (by simp [after, offered, put, finish, Queue.close, stands])
  | @unknown cause stands =>
      have going : ¬j.IsOver := not_isOver_of stands nofun nofun
      have more : (j.after (.tip (.error cause)) { j.poller with point := .failing cause }).reports =
          j.reports ++ [.error cause] := by simp [reports, after, Answer.blocks, Answer.tips, failure?]
      refine h.of_more same going more (Or.inr ⟨cause, rfl, rfl⟩) ?_
      simp [after, offered, stands]
  | @missing number tip cause stands =>
      have going : ¬j.IsOver := not_isOver_of stands nofun nofun
      have asked : j.poller.asking = [number] := by simp [asking, stands]
      refine h.of_more same going (h.reports_block going asked _ _) (Or.inr ⟨cause, rfl, rfl⟩) ?_
      simp [after, offered, stands]
  | @found number tip header stands =>
      have going : ¬j.IsOver := not_isOver_of stands nofun nofun
      have asked : j.poller.asking = [number] := by simp [asking, stands]
      refine h.of_more same going (h.reports_block going asked _ _) (Or.inl rfl) ?_
      simp [after, offered, stands]
  | refused waits closed =>
      have abandoned : j.poller.queue.abandoned := by
        rcases Bool.or_eq_true_iff.mp closed with isOver | abandoned
        · exact (same.not_ended (h.closed.mp isOver)).elim
        · exact abandoned
      have reports : (j.after .room j.poller.finish).reports = j.reports := reports_same _ rfl rfl
      have sent : (j.after .room j.poller.finish).sent = j.sent := by simp [after, finish, Queue.close]
      obtain ⟨item, one⟩ := exists_of_offered waits
      refine h.of_step same ?_ (Or.inr ⟨rfl, abandoned, item, ?_⟩)
      · rw [reports]
        exact h.clean.imp_right fun failed => ⟨Or.inl rfl, failed.2⟩
      · rw [sent, reports, ← one]
        exact h.sent_eq same.not_ended

/-! ## Runs -/

theorem SamePoller.reported (same : j.SamePoller k) (h : j.Reported)
    (received : k.poller.queue.abandoned = false → k.received ++ k.poller.queue.items = k.sent)
    (closed : k.poller.queue.closed = j.poller.queue.closed)
    (capacity : k.poller.queue.capacity = j.poller.queue.capacity) : k.Reported := by
  have reports : k.reports = j.reports := by rw [Journal.reports, Journal.reports, same.found, same.tips]
  refine ⟨?_, ?_, received, by rw [closed, same.point, h.closed], capacity ▸ h.room⟩
  · rw [reports, IsOver, same.point]
    exact h.clean
  · rw [reports, same.sent, offered, same.point]
    exact h.sent.imp_right fun lost => ⟨lost.1, same.abandoned lost.2.1, lost.2.2⟩

/-- Every act preserves `Reported`. -/
theorem Reported.of_act? (h : j.Reported) (done : j.act? act = some k) : k.Reported := by
  rcases step_or_same done with ⟨answer, p, rfl, turn, rfl⟩ | ⟨other, same⟩
  · exact h.turn turn
  · cases act with
    | answer answer => exact (other answer rfl).elim
    | cancel =>
        cases done
        exact same.reported h h.received rfl rfl
    | receive =>
        cases done
        obtain ⟨closed, capacity, abandoned, received⟩ := j.read_queue
        exact same.reported h (fun stays => received.trans (h.received (abandoned ▸ stays))) closed capacity
    | abandon =>
        cases done
        exact same.reported h nofun rfl rfl

/-- Every act preserves `Numbered`, as long as the tips are small. -/
theorem Numbered.of_act? (h : j.Numbered) (small : j.IsSmall) (done : j.act? act = some k) : k.Numbered := by
  rcases step_or_same done with ⟨answer, p, rfl, turn, rfl⟩ | ⟨-, same⟩
  · exact h.turn small turn
  · exact same.numbered h

theorem IsSmall.of_act? (h : j.IsSmall) (done : j.act? act = some k)
    (small : ∀ tip, act = .answer (.tip (.ok tip)) → tip.toNat + 1 < UInt64.size) : k.IsSmall := by
  rcases step_or_same done with ⟨answer, p, rfl, -, rfl⟩ | ⟨-, same⟩
  · intro tip mem
    rcases List.mem_append.mp mem with old | new
    · exact h tip old
    · cases answer with
      | tip outcome => exact small tip (congrArg _ (congrArg _ (List.mem_singleton.mp new).symm))
      | time | cancelled | block | room => cases new
  · rw [IsSmall, same.tips]
    exact h

/-- Every tip that is reported is below the greatest block number. -/
def AreSmall (acts : List Act) : Prop :=
  ∀ tip, .answer (.tip (.ok tip)) ∈ acts → tip.toNat + 1 < UInt64.size

theorem reported_of_run (ran : run? acts j = some k) (h : j.Reported) : k.Reported :=
  run?_invariant (fun _ _ _ _ done h => h.of_act? done) h ran

theorem numbered_of_run (small : AreSmall acts) (ran : run? acts j = some k) (h : j.Numbered ∧ j.IsSmall) :
    k.Numbered ∧ k.IsSmall := by
  refine run?_invariant (I := fun j => j.Numbered ∧ j.IsSmall) ?_ h ran
  rintro act mem j k done ⟨numbered, bounded⟩
  exact ⟨numbered.of_act? bounded done, bounded.of_act? done fun tip same => small tip (same ▸ mem)⟩

/-- The requested blocks and the items sent are in order: the blocks are consecutive from the first tip,
answers are sent in that order, a failure is the last item, and while the poller waits for a tick
everything up to the newest tip has been sent. -/
structure IsOrderly (j : Journal) : Prop where
  begun : j.asked ≠ [] → ∃ first, j.tips.head? = some (.ok first)
  asked : j.asked.map UInt64.toNat = List.range' (firstOf j.tips) j.asked.length
  bounded : ∀ number ∈ j.asked, ∃ tip, .ok tip ∈ j.tips ∧ number ≤ tip
  found : j.found.map (·.1) ++ j.poller.asking = j.asked
  sent : j.sent ++ j.poller.offered = j.reports ∨
    j.poller.point = .ended ∧ j.poller.queue.abandoned ∧ ∃ item, j.sent ++ [item] = j.reports
  received : j.poller.queue.abandoned = false → j.received ++ j.poller.queue.items = j.sent
  closed : j.poller.queue.closed ↔ j.poller.point = .ended
  failure : ∀ good cause rest, j.sent = good ++ .error cause :: rest →
    rest = [] ∧ (∀ item ∈ good, item.isOk) ∧ j.poller.point = .ended
  atRest : j.poller.point = .resting → j.found.map (·.1) = j.asked ∧ j.sent = j.found.map (·.2) ∧
    ∀ tip, .ok tip ∈ j.tips → tip.toNat < firstOf j.tips + j.asked.length

theorem eq_of_last_error {good good' rest : List Poll} {cause cause' : TrackError}
    (same : good ++ .error cause :: rest = good' ++ [.error cause']) (ok : ∀ item ∈ good', item.isOk) :
    good = good' ∧ rest = [] := by
  rcases rest.eq_nil_or_concat with rfl | ⟨rest, item, rfl⟩
  · exact ⟨(List.append_inj' same rfl).1, rfl⟩
  · rw [List.concat_eq_append, ← List.cons_append, ← List.append_assoc] at same
    have among : .error cause ∈ good' := by
      rw [← (List.append_inj' same rfl).1]
      exact List.mem_append_right _ List.mem_cons_self
    cases ok _ among

/-- A failure among the items sent is the last of them. -/
theorem Reported.failure (h : j.Reported) {good rest : List Poll} {cause : TrackError}
    (failed : j.sent = good ++ .error cause :: rest) :
    rest = [] ∧ (∀ item ∈ good, item.isOk) ∧ j.poller.point = .ended := by
  obtain ⟨tail, all, lost⟩ : ∃ tail, j.sent ++ tail = j.reports ∧ (tail = [] → j.poller.offered = []) := by
    rcases h.sent with offers | ⟨-, -, item, one⟩
    · exact ⟨_, offers, id⟩
    · exact ⟨[item], one, nofun⟩
  rw [failed, List.append_assoc, List.cons_append] at all
  have mem : .error cause ∈ j.reports := all ▸ List.mem_append_right _ List.mem_cons_self
  rcases h.clean with ok | ⟨isOver, good', cause', reports, ok⟩
  · cases ok _ mem
  · rw [reports] at all
    obtain ⟨same, nothing⟩ := eq_of_last_error all ok
    obtain ⟨none, no_tail⟩ := List.append_eq_nil_iff.mp nothing
    refine ⟨none, same ▸ ok, isOver.resolve_right ?_⟩
    rintro ⟨cause, failing⟩
    have offers := lost no_tail
    simp [offered, failing] at offers

theorem IsOrderly.of_sound (numbered : j.Numbered) (reported : j.Reported) : j.IsOrderly where
  begun := numbered.begun
  asked := numbered.asked
  bounded := numbered.bounded
  found := numbered.found
  sent := reported.sent
  received := reported.received
  closed := reported.closed
  failure _ _ _ failed := reported.failure failed
  atRest stands := by
    have found := numbered.found
    have sent := reported.sent_eq (by rw [stands]; nofun)
    obtain ⟨-, none⟩ := reported.all_ok (not_isOver_of stands nofun nofun)
    have follows := numbered.follows
    unfold InSequence at follows
    rw [stands] at follows
    simp only [asking, stands, List.append_nil] at found
    simp only [offered, stands, List.append_nil, reports, none] at sent
    refine ⟨found, sent, fun tip mem => ?_⟩
    rcases follows with ⟨-, no_tip, -⟩ | ⟨next, -, number, -, beyond⟩
    · rw [no_tip] at mem
      cases mem
    · rw [← number]
      exact UInt64.lt_iff_toNat_lt.mp (beyond tip mem)

end Journal

end Poller

end Chainwatch
