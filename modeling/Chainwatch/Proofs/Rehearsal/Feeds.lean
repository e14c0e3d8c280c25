import Chainwatch.Proofs.Dispatcher.Accounts
import Chainwatch.Proofs.Rehearsal.Blocks

/-!
# The feeds of a practice chain

Under any acts the blocks of a practice chain are those that were mined, and each feed carries what was
announced since it was opened, in order, until it is closed or its token fires. A failure is not carried
as it was announced, but wrapped once more.
-/

namespace Chainwatch

/-! ## Announcements -/

inductive Announcement where
  | head (header : Header)
  | failure (reason : String)
  deriving DecidableEq

namespace Announcement

def item : Announcement → Except TrackError Header
  | head header => .ok header
  | failure reason => .error (.rpc reason)

/-- An announcement as feeds carry it: a failure is wrapped in another one, which has its message for words. -/
def report : Announcement → Except TrackError Header
  | head header => .ok header
  | failure reason => .error (.rpc (TrackError.message (.rpc reason)))

def isHead : Announcement → Bool
  | head _ => true
  | failure _ => false

/-- A feed carries heads as they are announced and never a failure. -/
theorem report_eq_item_iff (a : Announcement) : a.report = a.item ↔ a.isHead = true := by
  cases a with
  | head header => exact ⟨fun _ => rfl, fun _ => rfl⟩
  | failure reason =>
      refine ⟨fun same => ?_, fun head => Bool.noConfusion head⟩
      have wrapped : "RPC error: " ++ reason = reason := TrackError.rpc.inj (Except.error.inj same)
      have length := congrArg String.length wrapped
      rw [String.length_append] at length
      have prefixed : 0 < "RPC error: ".length := by decide
      omega

end Announcement

/-- The feed of a name with these items waiting, and whether it is closed and its token fired. -/
def PracticeFeed.slot (name : String) (waiting : List (Except TrackError Header)) (closed cancelled : Bool) :
    PracticeFeed where
  name := name
  feed := ⟨waiting, closed⟩
  attached := !closed
  cancelled := cancelled

namespace PracticeChain

/-! ## Histories -/

inductive Act where
  | mine (events : List PracticeEvent)
  | mineSilently (events : List PracticeEvent)
  | mineEmpty (count : Nat)
  | breakFeeds (reason : String)
  | closeFeeds
  | subscribe (name : String)
  | unsubscribe (name : String)
  | cancel (name : String)
  | receive (name : String)
  | failChainId (on : Bool)
  | failHeaders (on : Bool)
  | failLogs (on : Bool)
  | markRemoved (on : Bool)
  deriving DecidableEq

def perform (c : PracticeChain) : Act → PracticeChain
  | .mine events => (c.mine events).2
  | .mineSilently events => (c.mineSilently events).2
  | .mineEmpty count => c.mineEmpty count
  | .breakFeeds reason => c.breakFeeds reason
  | .closeFeeds => c.closeFeeds
  | .subscribe name => c.subscribe name
  | .unsubscribe name => (c.unsubscribe name).2
  | .cancel name => c.cancel name
  | .receive name => ((c.receive name).map (·.2)).getD c
  | .failChainId on => { c with failsChainId := on }
  | .failHeaders on => { c with failsHeaders := on }
  | .failLogs on => { c with failsLogs := on }
  | .markRemoved on => { c with logsRemoved := on }

def performAll (c : PracticeChain) (acts : List Act) : PracticeChain :=
  acts.foldl perform c

/-- The contents of the blocks that an act appends. -/
def Act.contents : Act → List (List PracticeEvent)
  | .mine events | .mineSilently events => [events]
  | .mineEmpty count => List.replicate count []
  | .breakFeeds _ | .closeFeeds | .subscribe _ | .unsubscribe _ | .cancel _ | .receive _ | .failChainId _
  | .failHeaders _ | .failLogs _ | .markRemoved _ => []

/-- The announcements of an act: each block that it appends unless silently, or a failure. -/
def Act.announcements (c : PracticeChain) (act : Act) : List Announcement :=
  match act with
  | .mine _ | .mineEmpty _ => ((c.perform act).blocks.drop c.blocks.length).map (.head ·.header)
  | .breakFeeds reason => [.failure reason]
  | .mineSilently _ | .closeFeeds | .subscribe _ | .unsubscribe _ | .cancel _ | .receive _ | .failChainId _
  | .failHeaders _ | .failLogs _ | .markRemoved _ => []

def Act.handed (name : String) (c : PracticeChain) : Act → List (Except TrackError Header)
  | .receive other => if other = name then ((c.receive name).bind (·.1.item?)).toList else []
  | .mine _ | .mineSilently _ | .mineEmpty _ | .breakFeeds _ | .closeFeeds | .subscribe _ | .unsubscribe _ | .cancel _
  | .failChainId _ | .failHeaders _ | .failLogs _ | .markRemoved _ => []

/-- What a reader receives when this item is next, and the feed is closed or its token has fired. -/
def finding (due? : Option (Except TrackError Header)) (closed cancelled : Bool) :
    Queue.Receipt (Except TrackError Header) :=
  if cancelled then .ended
  else
    match due? with
    | some item => .item item
    | none => if closed then .ended else .pending

/-- The announcements up to the act that closes the feeds. -/
def announced (c : PracticeChain) : List Act → List Announcement
  | [] => []
  | .closeFeeds :: _ => []
  | act :: rest => act.announcements c ++ announced (c.perform act) rest

/-- The receipts of the reader of a feed. -/
def received (name : String) (c : PracticeChain) : List Act → List (Except TrackError Header)
  | [] => []
  | act :: rest => act.handed name c ++ received name (c.perform act) rest

variable {c : PracticeChain}

def feed? (c : PracticeChain) (name : String) : Option PracticeFeed :=
  c.feeds.find? (·.name == name)

theorem receive_eq (c : PracticeChain) (name : String) : c.receive name = (c.feed? name).map fun f =>
    if f.cancelled then (.ended, c)
    else (f.feed.receive.1, { c with
      feeds := c.feeds.map fun old => if old.name = name then { old with feed := f.feed.receive.2 } else old }) := by
  rw [receive, feed?]
  cases c.feeds.find? (·.name == name) with
  | none => rfl
  | some f => cases cancelled : f.cancelled <;> simp [cancelled]

/-! ### Blocks -/

section Blocks

variable {contents : List (List PracticeEvent)}

theorem blocks_mineSilently (made : c.blocks = blocksOf c.chain contents) (events : List PracticeEvent) :
    (c.mineSilently events).2.blocks = blocksOf c.chain (contents ++ [events]) := by
  rw [blocksOf_concat, mineSilently, made, length_blocksOf]

theorem blocks_mineEmpty (made : c.blocks = blocksOf c.chain contents) (count : Nat) :
    (c.mineEmpty count).chain = c.chain ∧
      (c.mineEmpty count).blocks = blocksOf c.chain (contents ++ List.replicate count []) := by
  induction count generalizing c contents with
  | zero => exact ⟨rfl, made.trans (by simp)⟩
  | succ count ih =>
      have first : (c.mine []).2.blocks = blocksOf (c.mine []).2.chain (contents ++ [[]]) := blocks_mineSilently made []
      obtain ⟨chain, blocks⟩ := ih first
      rw [List.append_assoc] at blocks
      exact ⟨chain, blocks⟩

/-- An act keeps the blocks and appends those that are mined. -/
theorem blocks_perform (made : c.blocks = blocksOf c.chain contents) (act : Act) :
    (c.perform act).chain = c.chain ∧ (c.perform act).blocks = blocksOf c.chain (contents ++ act.contents) := by
  cases act with
  | mine events | mineSilently events => exact ⟨rfl, blocks_mineSilently made events⟩
  | mineEmpty count => exact blocks_mineEmpty made count
  | receive name =>
      rw [Act.contents, List.append_nil, ← made, perform, receive_eq]
      cases c.feed? name with
      | none => exact ⟨rfl, rfl⟩
      | some f => cases cancelled : f.cancelled <;> simp [cancelled]
  | _ =>
      rw [Act.contents, List.append_nil, ← made]
      exact ⟨rfl, rfl⟩

theorem blocks_performAll (made : c.blocks = blocksOf c.chain contents) (acts : List Act) :
    (c.performAll acts).chain = c.chain ∧
      (c.performAll acts).blocks = blocksOf c.chain (contents ++ acts.flatMap Act.contents) := by
  induction acts generalizing c contents with
  | nil => exact ⟨rfl, made.trans (by simp)⟩
  | cons act rest ih =>
      obtain ⟨chain, blocks⟩ := blocks_perform made act
      obtain ⟨chain', blocks'⟩ := ih (chain ▸ blocks)
      rw [chain, List.append_assoc] at blocks'
      exact ⟨chain'.trans chain, blocks'⟩

end Blocks

/-! ### Feeds -/

section Feeds

variable {name other : String} {waiting : List (Except TrackError Header)} {closed cancelled : Bool}

theorem find?_map_of_name {f : PracticeFeed → PracticeFeed} (same : ∀ x, (f x).name = x.name)
    (feeds : List PracticeFeed) (name : String) :
    (feeds.map f).find? (·.name == name) = (feeds.find? (·.name == name)).map f := by
  rw [List.find?_map]
  simp only [Function.comp_def, same]

theorem find?_filter_of_ne (apart : other ≠ name) (feeds : List PracticeFeed) :
    (feeds.filter (·.name != other)).find? (·.name == name) = feeds.find? (·.name == name) := by
  rw [List.find?_filter]
  congr 1
  funext f
  by_cases own : f.name = name
  · simp [own, Ne.symm apart]
  · simp [own]

/-- An announced item is queued behind those that wait, as long as the feed is open. -/
theorem feed?_announce (held : c.feed? name = some (.slot name waiting closed cancelled))
    (item : Except TrackError Header) : (c.announce item).feed? name =
      some (.slot name (waiting ++ if closed then [] else [item]) closed cancelled) := by
  have kept (f : PracticeFeed) : (if f.attached then { f with feed := f.feed.push item } else f).name = f.name := by
    split <;> rfl
  rw [feed?] at held
  rw [feed?, announce, find?_map_of_name kept, held]
  cases closed <;> simp [PracticeFeed.slot, Feed.push]

theorem feed?_mine (held : c.feed? name = some (.slot name waiting closed cancelled))
    (events : List PracticeEvent) : ∃ block, (c.mine events).2.blocks = c.blocks ++ [block] ∧
      (c.mine events).2.feed? name =
        some (.slot name (waiting ++ if closed then [] else [.ok block.header]) closed cancelled) :=
  ⟨blockOf c.chain (UInt64.ofNat c.blocks.length) events, rfl,
    feed?_announce (show (c.mineSilently events).2.feed? name = _ from held) _⟩

theorem feed?_mineEmpty (held : c.feed? name = some (.slot name waiting closed cancelled)) (count : Nat) :
    ∃ blocks, (c.mineEmpty count).blocks = c.blocks ++ blocks ∧ (c.mineEmpty count).feed? name =
      some (.slot name (waiting ++ if closed then [] else blocks.map (.ok ·.header)) closed cancelled) := by
  induction count generalizing c waiting with
  | zero => exact ⟨[], by rw [mineEmpty, List.append_nil], by simpa [mineEmpty] using held⟩
  | succ count ih =>
      obtain ⟨block, first, slot⟩ := feed?_mine held []
      obtain ⟨blocks, later, standing'⟩ := ih slot
      refine ⟨block :: blocks, ?_, standing'.trans ?_⟩
      · rw [mineEmpty, later, first, List.append_assoc]
        rfl
      · cases closed <;> simp

theorem feed?_closeFeeds (held : c.feed? name = some (.slot name waiting closed cancelled)) :
    c.closeFeeds.feed? name = some (.slot name waiting true cancelled) := by
  have kept (f : PracticeFeed) :
      (if f.attached then { f with feed := f.feed.close, attached := false } else f).name = f.name := by
    split <;> rfl
  rw [feed?] at held
  rw [feed?, closeFeeds, find?_map_of_name kept, held]
  cases closed <;> rfl

theorem feed?_cancel (held : c.feed? name = some (.slot name waiting closed cancelled)) (other : String) :
    (c.cancel other).feed? name = some (.slot name waiting closed (cancelled || other = name)) := by
  have kept (f : PracticeFeed) : (if f.name = other then { f with cancelled := true } else f).name = f.name := by
    split <;> rfl
  rw [feed?] at held
  rw [feed?, cancel, find?_map_of_name kept, held]
  by_cases own : name = other
  · simp [PracticeFeed.slot, own]
  · simp [PracticeFeed.slot, own, Ne.symm own]

theorem feed?_subscribe (c : PracticeChain) (name : String) :
    (c.subscribe name).feed? name = some (.slot name [] false false) := by
  have gone : (c.feeds.filter (·.name != name)).find? (·.name == name) = none := by
    simp [List.find?_filter]
  rw [feed?, subscribe, List.find?_append, gone]
  simp [PracticeFeed.slot, Feed.empty]

theorem feed?_subscribe_of_ne (apart : other ≠ name) : (c.subscribe other).feed? name = c.feed? name := by
  rw [feed?, subscribe, List.find?_append, find?_filter_of_ne apart, ← feed?]
  cases c.feed? name <;> simp [apart]

theorem receive_slot (held : c.feed? name = some (.slot name waiting closed cancelled)) :
    (c.receive name).map (·.1) = some (finding waiting.head? closed cancelled) := by
  rw [receive_eq, held]
  cases cancelled with
  | true => rfl
  | false => cases waiting <;> rfl

theorem feed?_receive (held : c.feed? name = some (.slot name waiting closed cancelled)) (other : String) :
    ∃ rest, (c.perform (.receive other)).feed? name = some (.slot name rest closed cancelled) ∧
      Act.handed name c (.receive other) ++ rest = waiting := by
  have kept (feed : Feed) (f : PracticeFeed) : (if f.name = other then { f with feed } else f).name = f.name := by
    split <;> rfl
  by_cases own : other = name
  · subst own
    rw [perform, Act.handed, if_pos rfl, receive_eq, held]
    cases cancelled with
    | true => exact ⟨waiting, held, rfl⟩
    | false =>
        rw [feed?] at held
        cases waiting with
        | nil =>
            refine ⟨[], ?_, by cases closed <;> rfl⟩
            simp [feed?, find?_map_of_name (kept _), held, PracticeFeed.slot, Feed.receive]
        | cons item rest =>
            refine ⟨rest, ?_, rfl⟩
            simp [feed?, find?_map_of_name (kept _), held, PracticeFeed.slot, Feed.receive]
  · refine ⟨waiting, ?_, by simp [Act.handed, own]⟩
    rw [perform, receive_eq]
    cases c.feed? other with
    | none => exact held
    | some f =>
        cases fired : f.cancelled with
        | true => simpa [fired] using held
        | false =>
            rw [feed?] at held
            simp [fired, feed?, find?_map_of_name (kept _), held, PracticeFeed.slot, Ne.symm own]

/-- Per act, receipts and waiting items together grow by what is announced. -/
theorem feed?_perform (held : c.feed? name = some (.slot name waiting closed cancelled)) {act : Act}
    (fresh : act ≠ .subscribe name) (stays : act ≠ .unsubscribe name) :
    ∃ rest, (c.perform act).feed? name =
        some (.slot name rest (closed || act = .closeFeeds) (cancelled || act = .cancel name)) ∧
      act.handed name c ++ rest =
        waiting ++ if closed then [] else (act.announcements c).map Announcement.report := by
  cases act with
  | mine events =>
      obtain ⟨block, grown, slot⟩ := feed?_mine held events
      have told : (Act.announcements c (.mine events)).map Announcement.report = [.ok block.header] := by
        rw [Act.announcements, perform, grown, List.drop_left]
        rfl
      rw [told]
      exact ⟨_, by simpa [perform] using slot, rfl⟩
  | mineEmpty count =>
      obtain ⟨blocks, grown, slot⟩ := feed?_mineEmpty held count
      have told : (Act.announcements c (.mineEmpty count)).map Announcement.report = blocks.map (.ok ·.header) := by
        rw [Act.announcements, perform, grown, List.drop_left, List.map_map]
        rfl
      rw [told]
      exact ⟨_, by simpa [perform] using slot, rfl⟩
  | breakFeeds reason =>
      have slot : (c.perform (.breakFeeds reason)).feed? name = _ :=
        feed?_announce held (Announcement.report (.failure reason))
      exact ⟨waiting ++ if closed then [] else [Announcement.report (.failure reason)], by simpa using slot, rfl⟩
  | closeFeeds =>
      exact ⟨waiting, by simpa [perform] using feed?_closeFeeds held, by simp [Act.handed, Act.announcements]⟩
  | cancel other =>
      exact ⟨waiting, by simpa [perform] using feed?_cancel held other, by simp [Act.handed, Act.announcements]⟩
  | receive other =>
      obtain ⟨rest, slot, split⟩ := feed?_receive held other
      exact ⟨rest, by simpa using slot, by simpa [Act.announcements] using split⟩
  | subscribe other =>
      have apart : other ≠ name := fun own => fresh (own ▸ rfl)
      have slot : (c.perform (.subscribe other)).feed? name = _ := (feed?_subscribe_of_ne apart).trans held
      exact ⟨waiting, by simpa using slot, by simp [Act.handed, Act.announcements]⟩
  | unsubscribe other =>
      have apart : other ≠ name := fun own => stays (own ▸ rfl)
      have slot : (c.perform (.unsubscribe other)).feed? name = _ := (find?_filter_of_ne apart c.feeds).trans held
      exact ⟨waiting, by simpa using slot, by simp [Act.handed, Act.announcements]⟩
  | mineSilently | failChainId | failHeaders | failLogs | markRemoved =>
      refine ⟨waiting, ?_, by simp [Act.handed, Act.announcements]⟩
      change c.feed? name = _
      simpa using held

theorem announced_cons {act : Act} (opens : act ≠ .closeFeeds) (rest : List Act) :
    announced c (act :: rest) = act.announcements c ++ announced (c.perform act) rest := by
  cases act with
  | closeFeeds => exact (opens rfl).elim
  | _ => rfl

/-- Over a run that keeps the reader, receipts and waiting items are those of before and what was announced. -/
theorem feed?_performAll (held : c.feed? name = some (.slot name waiting closed cancelled)) {acts : List Act}
    (fresh : .subscribe name ∉ acts) (stays : .unsubscribe name ∉ acts) :
    ∃ rest, (c.performAll acts).feed? name =
        some (.slot name rest (closed || .closeFeeds ∈ acts) (cancelled || .cancel name ∈ acts)) ∧
      received name c acts ++ rest = waiting ++ if closed then [] else (announced c acts).map Announcement.report := by
  induction acts generalizing c waiting closed cancelled with
  | nil => exact ⟨waiting, by simpa [performAll] using held, by simp [received, announced]⟩
  | cons act acts ih =>
      obtain ⟨fresh_now, fresh⟩ := not_or.mp (mt List.mem_cons.mpr fresh)
      obtain ⟨stays_now, stays⟩ := not_or.mp (mt List.mem_cons.mpr stays)
      obtain ⟨mid, slot, split⟩ := feed?_perform held (Ne.symm fresh_now) (Ne.symm stays_now)
      obtain ⟨rest, standing', split'⟩ := ih slot fresh stays
      refine ⟨rest, ?_, ?_⟩
      · change ((c.perform act).performAll acts).feed? name = _
        simpa [Bool.or_assoc, eq_comm] using standing'
      · rw [received, List.append_assoc, split', ← List.append_assoc, split, List.append_assoc]
        by_cases closes : act = .closeFeeds
        · subst closes
          simp [announced, Act.announcements]
        · rw [announced_cons closes, List.map_append]
          cases closed <;> simp [closes]

end Feeds

/-! ## From the beginning -/

/-- Under one rendering of announcements, the reader has received, without a gap, what was announced
since the feed was opened, and next finds the following announcement, or the end once the feed is closed
and empty or its token has fired. -/
structure IsServed (shown : Announcement → Except TrackError Header) (name : String) (opened : PracticeChain)
    (acts : List Act) : Prop where
  received : received name opened acts <+: (announced opened acts).map shown
  next : ((opened.performAll acts).receive name).map (·.1) =
    some (finding ((announced opened acts).map shown)[(PracticeChain.received name opened acts).length]?
      (.closeFeeds ∈ acts) (.cancel name ∈ acts))

variable {name : String} {acts : List Act}

theorem isServed_report (opened : c.feed? name = some (.slot name [] false false))
    (fresh : .subscribe name ∉ acts) (stays : .unsubscribe name ∉ acts) : IsServed Announcement.report name c acts := by
  obtain ⟨rest, slot, split⟩ := feed?_performAll opened fresh stays
  simp only [List.nil_append, Bool.false_eq_true, if_false, Bool.false_or] at slot split
  refine ⟨⟨rest, split⟩, ?_⟩
  rw [receive_slot slot, ← split, List.getElem?_append_right (Nat.le_refl _), Nat.sub_self,
    List.head?_eq_getElem?]

theorem finding_injective {due? due'? : Option (Except TrackError Header)} {closed : Bool}
    (same : finding due? closed false = finding due'? closed false) : due? = due'? := by
  cases due? <;> cases due'? <;> cases closed <;> simp_all [finding]

theorem take_report_eq_iff (due : List Announcement) (n : Nat) :
    (due.map Announcement.report).take n = (due.map Announcement.item).take n ↔ ∀ a ∈ due.take n, a.isHead = true := by
  rw [← List.map_take, ← List.map_take, List.map_inj_left]
  simp only [Announcement.report_eq_item_iff]

/-- A feed serves its announcements unchanged exactly if no failure is among those received and the next. -/
theorem isServed_item_iff (served : IsServed Announcement.report name c acts) : IsServed Announcement.item name c acts ↔
    ∀ a ∈ (announced c acts).take ((received name c acts).length + if .cancel name ∈ acts then 0 else 1),
      a.isHead = true := by
  have next := served.next
  have start := List.prefix_iff_eq_take.mp served.received
  rw [← take_report_eq_iff]
  by_cases fired : .cancel name ∈ acts
  · rw [if_pos fired, Nat.add_zero, ← start]
    constructor
    · exact fun served' => List.prefix_iff_eq_take.mp served'.received
    · refine fun same => ⟨List.prefix_iff_eq_take.mpr same, next.trans ?_⟩
      simp [finding, fired]
  · rw [if_neg fired]
    constructor
    · intro served'
      have start' := List.prefix_iff_eq_take.mp served'.received
      have found := served'.next.symm.trans next
      rw [decide_eq_false fired, Option.some.injEq] at found
      rw [List.take_add_one, List.take_add_one, ← start, ← start', finding_injective found]
    · intro same
      have early := congrArg (List.take (received name c acts).length) same
      rw [List.take_take, List.take_take, Nat.min_eq_left (Nat.le_succ _), ← start] at early
      have here := congrArg (·[(received name c acts).length]?) same
      rw [List.getElem?_take_of_succ, List.getElem?_take_of_succ] at here
      exact ⟨List.prefix_iff_eq_take.mpr early, here ▸ next⟩

/-- After any acts, the blocks are those that were mined, hashes determine chain and number, and a feed
whose reader stays carries what was announced since it was opened, with each failure wrapped once more.
It carries the announcements themselves exactly as far as they are heads. -/
theorem tells_what_was_mined (chain : UInt64) (acts : List Act) :
    ((acts.flatMap Act.contents).length < 2 ^ 64 →
        ((make chain).performAll acts).IsFaithful ([] :: acts.flatMap Act.contents)) ∧
      (∀ other number number', hashOf chain number = hashOf other number' → chain = other ∧ number = number') ∧
      ∀ before name after, acts = before ++ .subscribe name :: after →
        .subscribe name ∉ after → .unsubscribe name ∉ after →
          let opened := ((make chain).performAll before).subscribe name
          (make chain).performAll acts = opened.performAll after ∧
            IsServed Announcement.report name opened after ∧
              (IsServed Announcement.item name opened after ↔
                ∀ a ∈ (announced opened after).take
                  ((received name opened after).length + if .cancel name ∈ after then 0 else 1), a.isHead = true) := by
  refine ⟨fun short => ?_, fun other number number' => hashOf_injective, ?_⟩
  · have begun : (make chain).blocks = blocksOf (make chain).chain [[]] := rfl
    obtain ⟨same, made⟩ := blocks_performAll begun acts
    exact isFaithful_of_blocks (same.symm ▸ made) nofun short
  · intro before name after split fresh stays opened
    have served := isServed_report (feed?_subscribe ((make chain).performAll before) name) fresh stays
    refine ⟨?_, served, isServed_item_iff served⟩
    rw [split, performAll, List.foldl_append]
    rfl

/-- One block before the feed is opened, one that it carries, and a failure. -/
theorem tells_what_was_mined_until_failure :
    let event : PracticeEvent := ⟨"0xAb", ["0x01", "to"], [7]⟩
    let opened := ((make 7).performAll [.mineSilently [event, event]]).subscribe "s"
    let after : List Act := [.mine [], .receive "s", .breakFeeds "down", .receive "t"]
    (opened.performAll after).IsFaithful [[], [event, event], []] ∧ IsServed Announcement.report "s" opened after ∧
      ¬IsServed Announcement.item "s" opened after := by
  intro event opened after
  obtain ⟨blocks, -, feeds⟩ := tells_what_was_mined 7 (.mineSilently [event, event] :: .subscribe "s" :: after)
  obtain ⟨same, served, exact⟩ := feeds [.mineSilently [event, event]] "s" after rfl (by decide) (by decide)
  refine ⟨same ▸ blocks (by decide), served, ?_⟩
  rw [exact]
  decide +kernel

/-- A feed carries a failure other than the one announced. -/
theorem not_isServed_failure :
    let opened := (make 1).subscribe "s"
    announced opened [.breakFeeds "down"] = [.failure "down"] ∧
      ((opened.performAll [.breakFeeds "down"]).receive "s").map (·.1) =
        some (.item (.error (.rpc "RPC error: down"))) ∧
      ¬IsServed Announcement.item "s" opened [.breakFeeds "down"] := by
  intro opened
  refine ⟨rfl, by decide +kernel, fun served => ?_⟩
  exact absurd served.next (by decide +kernel)

end PracticeChain

end Chainwatch
