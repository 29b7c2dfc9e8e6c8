import CeramicTests.Suite.SyncEvents
import Mathlib.Data.List.Infix
import Mathlib.Data.List.Nodup

/-! # A feed that only grows

    This file says what the suite expects of the feed of a node: it is a log
    that grows at its end, a page is a part of the log that begins at the
    place of the resume token, and a node that has something new sends
    something.

    Over such a feed `readEvents` is delivered the log from its token on,
    each event once. It has all that it waits for after as many rounds as
    there are events, once they are in the log.

    - Section 1: the feed
    - Section 2: what is delivered
    - Section 3: when the loop has everything
-/

namespace Suite

/-! ## Section 1: The feed -/

/-- A log at the head of each round, the places of the resume tokens, and
    what the events carry. -/
structure Log where
  upTo : Nat → List String
  position : String → Nat
  stored : String → ReconEvent

/-- The node answers from the log. A token says how much of the log has been
    sent (`sent`). -/
structure Node.Follows (node : Node) (log : Log) : Prop where
  grows : ∀ n, log.upTo n <+: log.upTo (n + 1)
  page : ∀ n token sent, sent <+: log.upTo n → log.position token = sent.length →
    ∃ data, node.feedEvents n token = .ok data ∧ sent ++ data.events <+: log.upTo n ∧
      log.position data.resumeToken = (sent ++ data.events).length ∧
      (data.events = [] → sent = log.upTo n)
  eventData : ∀ n m id, id ∈ log.upTo m → node.eventData n id = .ok (log.stored id)

section follows

variable {node : Node} {log : Log} {eventCids sent : List String}

theorem Node.Follows.stored_id (h : node.Follows log) {m : Nat} {id : String}
    (hid : id ∈ log.upTo m) : (log.stored id).id = id :=
  node.eventData_id 0 id _ (h.eventData 0 m id hid)

theorem Node.Follows.mono (h : node.Follows log) {n m : Nat} (hnm : n ≤ m) :
    log.upTo n <+: log.upTo m := by
  induction hnm with
  | refl => exact List.prefix_rfl
  | step _ ih => exact ih.trans (h.grows _)

/-! ## Section 2: What is delivered -/

/-- The loop has been delivered the log from where it started (after `sent`)
    to where its token is, and has collected the expected events of that. -/
structure ReadState.UpTo (s : ReadState) (log : Log) (eventCids sent : List String) (n : Nat) :
    Prop where
  delivered : sent ++ s.delivered <+: log.upTo n
  token : log.position s.resumeToken = (sent ++ s.delivered).length
  events : s.events = (s.delivered.filter fun id => id ∈ eventCids).map log.stored

theorem ReadState.UpTo.mono {s : ReadState} {n m : Nat} (hs : s.UpTo log eventCids sent n)
    (h : node.Follows log) (hnm : n ≤ m) : s.UpTo log eventCids sent m :=
  ⟨hs.delivered.trans (h.mono hnm), hs.token, hs.events⟩

/-- The loop over one page collects the expected events of it. -/
theorem readPage_follows (h : node.Follows log) {m : Nat} {ids : List String}
    (hids : ∀ id ∈ ids, id ∈ log.upTo m) (s : ReadState) :
    readPage node eventCids ids s = .ok { s with
      events := s.events ++ (ids.filter fun id => id ∈ eventCids).map log.stored
      delivered := s.delivered ++ ids } := by
  induction ids generalizing s with
  | nil => simp [readPage]
  | cons id ids ih =>
    have hid := hids id List.mem_cons_self
    unfold readPage
    simp only [h.eventData _ m id hid, h.stored_id hid]
    rw [ih fun id hid => hids id (List.mem_cons_of_mem _ hid)]
    by_cases hmem : id ∈ eventCids <;> simp [hmem]

/-- One round: a page that continues the log. -/
theorem ReadState.UpTo.round {s : ReadState} {n : Nat} (hs : s.UpTo log eventCids sent n)
    (h : node.Follows log) :
    ∃ data s', node.feedEvents n s.resumeToken = .ok data ∧
      readPage node eventCids data.events { s with resumeToken := data.resumeToken } = .ok s' ∧
      s'.UpTo log eventCids sent (n + 1) ∧ s'.delivered = s.delivered ++ data.events ∧
      (data.events = [] → sent ++ s.delivered = log.upTo n) := by
  obtain ⟨data, hfeed, hpage, hposition, hall⟩ := h.page n _ _ hs.delivered hs.token
  have hids : ∀ id ∈ data.events, id ∈ log.upTo n := fun id hid =>
    hpage.subset (List.mem_append_right _ hid)
  refine ⟨data, _, hfeed, readPage_follows h hids _, ?_, rfl, hall⟩
  constructor
  · show sent ++ (s.delivered ++ data.events) <+: _
    rw [← List.append_assoc]
    exact hpage.trans (h.grows n)
  · show log.position data.resumeToken = (sent ++ (s.delivered ++ data.events)).length
    rw [hposition, List.append_assoc]
  · show s.events ++ _ = ((s.delivered ++ data.events).filter _).map _
    rw [hs.events, List.filter_append, List.map_append]

/-- The loop follows the log for as long as it runs, and meets no error. -/
theorem readLoop_follows (h : node.Follows log) {timeoutMs fuel n : Nat} {s : ReadState}
    {result : Except String ReadState} (hs : s.UpTo log eventCids sent n)
    (hloop : readLoop node eventCids timeoutMs fuel n s = some result) :
    ∃ s' m, result = .ok s' ∧ s'.UpTo log eventCids sent m := by
  induction fuel generalizing n s with
  | zero => cases hloop
  | succ fuel ih =>
    unfold readLoop at hloop
    by_cases hlen : s.events.length < eventCids.length
    · rw [if_pos hlen] at hloop
      by_cases htime : node.elapsed n > timeoutMs
      · rw [if_pos htime] at hloop
        cases hloop
        exact ⟨s, n, rfl, hs⟩
      · obtain ⟨data, s', hfeed, hpage, hs', _⟩ := hs.round h
        rw [if_neg htime, hfeed] at hloop
        simp only [hpage] at hloop
        exact ih hs' hloop
    · rw [if_neg hlen] at hloop
      cases hloop
      exact ⟨s, n, rfl, hs⟩

theorem readEvents_follows (h : node.Follows log) {token : String} {timeoutMs fuel : Nat}
    {result : Except String (List ReconEvent × ReadState)}
    (hsent : sent <+: log.upTo 0) (htoken : log.position token = sent.length)
    (hread : readEvents node token eventCids timeoutMs fuel = some result) :
    ∃ s m, result = .ok (sortModelEvents s.events, s) ∧ s.UpTo log eventCids sent m := by
  have hinit : ReadState.UpTo ⟨token, [], []⟩ log eventCids sent 0 :=
    ⟨by simpa using hsent, by simpa using htoken, rfl⟩
  unfold readEvents at hread
  cases hloop : readLoop node eventCids timeoutMs fuel 0 ⟨token, [], []⟩ with
  | none =>
    rw [hloop] at hread
    cases hread
  | some outcome =>
    obtain ⟨s, m, rfl, hs⟩ := readLoop_follows h hinit hloop
    rw [hloop] at hread
    cases hread
    exact ⟨s, m, rfl, hs⟩

end follows

/-- **Resumption.** Over a growing log `readEvents` meets no error, and a
    second call that goes on with the token of the first is delivered what
    comes next in the log: nothing is lost between the two calls, and nothing
    comes twice. -/
theorem readEvents_resumes {node node' : Node} {log log' : Log}
    {sent eventCids eventCids' : List String} {token : String} {s : ReadState}
    {timeoutMs timeoutMs' fuel fuel' : Nat} {events : List ReconEvent}
    {result' : Except String (List ReconEvent × ReadState)}
    (h : node.Follows log) (h' : node'.Follows log')
    (hlater : ∀ n, log.upTo n <+: log'.upTo 0) (hposition : log'.position = log.position)
    (hsent : sent <+: log.upTo 0) (htoken : log.position token = sent.length)
    (hread : readEvents node token eventCids timeoutMs fuel = some (.ok (events, s)))
    (hread' : readEvents node' s.resumeToken eventCids' timeoutMs' fuel' = some result') :
    ∃ events' s' m, result' = .ok (events', s') ∧
      sent ++ s.delivered ++ s'.delivered <+: log'.upTo m := by
  obtain ⟨s₁, n, heq, hs⟩ := readEvents_follows h hsent htoken hread
  cases heq
  obtain ⟨s', m, rfl, hs'⟩ := readEvents_follows h' (hs.delivered.trans (hlater n))
    (by rw [hposition]; exact hs.token) hread'
  exact ⟨_, s', m, rfl, hs'.delivered⟩

/-! ## Section 3: When the loop has everything -/

section complete

variable {node : Node} {log : Log} {eventCids sent : List String}

/-- Over a log without repetitions, a loop that has as many events as it waits
    for has these events. -/
theorem ReadState.UpTo.all {s : ReadState} {n : Nat} (hs : s.UpTo log eventCids sent n)
    (hnodup : (log.upTo n).Nodup) (hcids : eventCids.Nodup)
    (hlen : eventCids.length ≤ s.events.length) :
    s.events.Perm (eventCids.map log.stored) := by
  have hdelivered : s.delivered.Nodup :=
    (hs.delivered.nodup hnodup).sublist (List.sublist_append_right _ _)
  have hexpected : (expectedDeliveries eventCids s).Nodup := hdelivered.filter _
  have hcount : eventCids.length ≤ (expectedDeliveries eventCids s).length := by
    rw [hs.events, List.length_map] at hlen
    exact hlen
  have hall := all_of_nodup hcount hexpected
  have hperm : (expectedDeliveries eventCids s).Perm eventCids := by
    rw [List.perm_ext_iff_of_nodup hexpected hcids]
    intro id
    unfold expectedDeliveries
    simp only [List.mem_filter, decide_eq_true_eq]
    exact ⟨fun hid => hid.2, fun hid => ⟨hall id hid, hid⟩⟩
  rw [hs.events]
  exact hperm.map _

/-- Everything that was in the log at the round `r` has been delivered, or
    there has been an event in each round since. -/
def Catches (log : Log) (sent : List String) (r n : Nat) (s : ReadState) : Prop :=
  log.upTo r <+: sent ++ s.delivered ∨ n ≤ r + s.delivered.length

/-- A page is empty only when the log has been delivered. -/
theorem catches_round (h : node.Follows log) {r n : Nat} {s s' : ReadState}
    {data : FeedPage} (hs : Catches log sent r n s)
    (hdelivered : s'.delivered = s.delivered ++ data.events)
    (hall : data.events = [] → sent ++ s.delivered = log.upTo n) :
    Catches log sent r (n + 1) s' := by
  unfold Catches
  rw [hdelivered]
  rcases hs with hs | hs
  · left
    rw [← List.append_assoc]
    exact hs.trans (List.prefix_append _ _)
  · by_cases hnil : data.events = []
    · by_cases hrn : r ≤ n
      · left
        rw [hnil, List.append_nil, hall hnil]
        exact h.mono hrn
      · right
        omega
    · right
      have hpos := List.length_pos_of_ne_nil hnil
      rw [List.length_append]
      omega

/-- The round by which a loop that started after `sent` has been delivered
    everything that was in the log at the round `r`. -/
def lastRound (log : Log) (sent : List String) (r : Nat) : Nat :=
  r + ((log.upTo r).length - sent.length)

theorem caught {r : Nat} {s : ReadState} (h : node.Follows log)
    (hs : s.UpTo log eventCids sent (lastRound log sent r))
    (hcatch : Catches log sent r (lastRound log sent r) s) :
    log.upTo r <+: sent ++ s.delivered := by
  unfold lastRound at hs
  rcases hcatch with hcatch | hcatch
  · exact hcatch
  · -- both are parts of one log
    unfold lastRound at hcatch
    refine List.prefix_of_prefix_length_le (h.mono (by omega)) hs.delivered ?_
    rw [List.length_append]
    omega

/-- The loop has all expected events at the latest then. -/
theorem readLoop_complete (h : node.Follows log) {r timeoutMs : Nat}
    (hall : ∀ cid ∈ eventCids, cid ∈ log.upTo r ∧ cid ∉ sent) (hcids : eventCids.Nodup)
    (htime : ∀ n < lastRound log sent r, node.elapsed n ≤ timeoutMs) (fuel : Nat) :
    ∀ n s, n ≤ lastRound log sent r → lastRound log sent r < n + fuel →
      s.UpTo log eventCids sent n → Catches log sent r n s →
      ∃ s' m, readLoop node eventCids timeoutMs fuel n s = some (.ok s') ∧
        s'.UpTo log eventCids sent m ∧ eventCids.length ≤ s'.events.length := by
  induction fuel with
  | zero =>
    intro n s hn hfuel
    omega
  | succ fuel ih =>
    intro n s hn hfuel hs hcatch
    unfold readLoop
    by_cases hlen : s.events.length < eventCids.length
    · by_cases hlast : n = lastRound log sent r
      · exfalso
        subst hlast
        have hcaught := caught h hs hcatch
        have hsub : eventCids ⊆ s.delivered.filter fun id => id ∈ eventCids := by
          intro cid hcid
          obtain ⟨hlog, hnew⟩ := hall cid hcid
          rcases List.mem_append.mp (hcaught.subset hlog) with hmem | hmem
          · exact absurd hmem hnew
          · exact List.mem_filter.mpr ⟨hmem, by simpa using hcid⟩
        have hle := (List.subperm_of_subset hcids hsub).length_le
        rw [hs.events, List.length_map] at hlen
        omega
      · obtain ⟨data, s', hfeed, hpage, hs', hdelivered, hempty⟩ := hs.round h
        have helapsed := htime n (by omega)
        have hnot : ¬ node.elapsed n > timeoutMs := by omega
        rw [if_pos hlen, if_neg hnot, hfeed]
        simp only [hpage]
        exact ih (n + 1) s' (by omega) (by omega) hs' (catches_round h hcatch hdelivered hempty)
    · rw [if_neg hlen]
      exact ⟨s, n, rfl, hs, by omega⟩

/-- The same from the start of `readEvents` on, where the token is given. -/
theorem readLoop_from_token (h : node.Follows log) {token : String} {r timeoutMs fuel : Nat}
    (hsent : sent <+: log.upTo 0) (htoken : log.position token = sent.length)
    (hall : ∀ cid ∈ eventCids, cid ∈ log.upTo r ∧ cid ∉ sent) (hcids : eventCids.Nodup)
    (htime : ∀ n < lastRound log sent r, node.elapsed n ≤ timeoutMs)
    (hfuel : lastRound log sent r < fuel) :
    ∃ s m, readLoop node eventCids timeoutMs fuel 0 ⟨token, [], []⟩ = some (.ok s) ∧
      s.UpTo log eventCids sent m ∧ eventCids.length ≤ s.events.length := by
  have hinit : ReadState.UpTo ⟨token, [], []⟩ log eventCids sent 0 :=
    ⟨by simpa using hsent, by simpa using htoken, rfl⟩
  exact readLoop_complete h hall hcids htime fuel 0 _ (by omega) (by omega) hinit
    (Or.inr (by omega))

/-! ### The events in their order -/

/-- Events with different ids have one order. -/
theorem sortModelEvents_perm {events events' : List ReconEvent} (h : events.Perm events')
    (hids : (events.map ReconEvent.id).Nodup) : sortModelEvents events = sortModelEvents events' := by
  have hsorted : ∀ l, (sortModelEvents l).Pairwise fun a b => decide (a.id ≤ b.id) = true := by
    intro l
    refine List.pairwise_mergeSort ?_ ?_ l
    · intro a b c hab hbc
      exact decide_eq_true (String.le_trans (of_decide_eq_true hab) (of_decide_eq_true hbc))
    · intro a b
      rcases String.le_total a.id b.id with hle | hle <;> simp [hle]
  have hsame : (sortModelEvents events).Perm (sortModelEvents events') :=
    (List.mergeSort_perm _ _).trans (h.trans (List.mergeSort_perm _ _).symm)
  refine hsame.eq_of_pairwise ?_ (hsorted _) (hsorted _)
  intro a b ha hb hab hba
  -- one id, so one event
  have hmem : a ∈ events := (List.mergeSort_perm _ _).mem_iff.mp ha
  have hmem' : b ∈ events := h.mem_iff.mpr ((List.mergeSort_perm _ _).mem_iff.mp hb)
  refine List.inj_on_of_nodup_map hids hmem hmem' ?_
  exact String.le_antisymm (of_decide_eq_true hab) (of_decide_eq_true hba)

/-- A loop that has all expected events returns them in their order. -/
theorem readEvents_of_all (h : node.Follows log) {token : String} {r m timeoutMs fuel : Nat}
    {s : ReadState} (hall : ∀ cid ∈ eventCids, cid ∈ log.upTo r) (hcids : eventCids.Nodup)
    (hnodup : (log.upTo m).Nodup)
    (hloop : readLoop node eventCids timeoutMs fuel 0 ⟨token, [], []⟩ = some (.ok s))
    (hs : s.UpTo log eventCids sent m) (hlen : eventCids.length ≤ s.events.length) :
    readEvents node token eventCids timeoutMs fuel =
      some (.ok (sortModelEvents (eventCids.map log.stored), s)) := by
  -- it has the expected events in some order, and ids of their own
  have hperm := hs.all hnodup hcids hlen
  have hids : ((eventCids.map log.stored).map ReconEvent.id).Nodup := by
    have hid : (eventCids.map log.stored).map ReconEvent.id = eventCids := by
      rw [List.map_map]
      refine (List.map_congr_left fun cid hcid => ?_).trans (List.map_id eventCids)
      exact h.stored_id (hall cid hcid)
    rw [hid]
    exact hcids
  unfold readEvents
  rw [hloop]
  simp only
  rw [sortModelEvents_perm hperm.symm hids]

/-- **Completeness.** If all expected events are in the log by the round `r`,
    after the place of the token, and there is time for a round for each event
    from then on, `readEvents` returns exactly these events in their order,
    with what the log holds of them. -/
theorem readEvents_complete (h : node.Follows log) {token : String} {r timeoutMs fuel : Nat}
    (hsent : sent <+: log.upTo 0) (htoken : log.position token = sent.length)
    (hall : ∀ cid ∈ eventCids, cid ∈ log.upTo r ∧ cid ∉ sent) (hcids : eventCids.Nodup)
    (hnodup : ∀ n, (log.upTo n).Nodup)
    (htime : ∀ n < lastRound log sent r, node.elapsed n ≤ timeoutMs)
    (hfuel : lastRound log sent r < fuel) :
    ∃ s, readEvents node token eventCids timeoutMs fuel =
      some (.ok (sortModelEvents (eventCids.map log.stored), s)) := by
  obtain ⟨s, m, hloop, hs, hlen⟩ := readLoop_from_token h hsent htoken hall hcids htime hfuel
  exact ⟨s, readEvents_of_all h (fun cid hcid => (hall cid hcid).1) hcids (hnodup m) hloop hs hlen⟩

end complete

/-! ### A node that sends one event at a time -/

section oneByOne

def tally (n : Nat) : String := String.ofList (List.replicate n 'i')

theorem tally_length (n : Nat) : (tally n).length = n := by
  simp [tally]

def growingLog (upTo : Nat → List String) : Log where
  upTo := upTo
  position := String.length
  stored := fun id => ⟨id, ""⟩

theorem oneByOne_id (_n : Nat) (id : String) (event : ReconEvent)
    (h : (.ok ⟨id, ""⟩ : Except String ReconEvent) = .ok event) : event.id = id := by
  cases h
  rfl

def oneByOne (upTo : Nat → List String) : Node where
  elapsed := fun n => 100 * n
  feedEvents := fun n token =>
    let events := ((upTo n).drop token.length).take 1
    .ok ⟨tally (token.length + events.length), events⟩
  eventData := fun _ id => .ok ⟨id, ""⟩
  eventData_id := oneByOne_id

theorem oneByOne_follows {upTo : Nat → List String}
    (hgrows : ∀ n, upTo n <+: upTo (n + 1)) : (oneByOne upTo).Follows (growingLog upTo) where
  grows := hgrows
  page := by
    intro n token sent hsent htoken
    obtain ⟨rest, hrest⟩ := hsent
    have htoken : token.length = sent.length := htoken
    have hevents : ((upTo n).drop token.length).take 1 = rest.take 1 := by
      have hrest : sent ++ rest = upTo n := hrest
      rw [← hrest, htoken, List.drop_left]
    refine ⟨_, rfl, ?_, ?_, ?_⟩
    · show sent ++ ((upTo n).drop token.length).take 1 <+: upTo n
      have hrest : sent ++ rest = upTo n := hrest
      rw [hevents, ← hrest]
      exact (List.prefix_append_right_inj sent).mpr (List.take_prefix 1 rest)
    · simp only [growingLog, tally_length, htoken, List.length_append]
    · show ((upTo n).drop token.length).take 1 = [] → sent = upTo n
      rw [hevents]
      intro hnil
      have hnil : rest = [] := by simpa using hnil
      rw [hnil, List.append_nil] at hrest
      exact hrest
  eventData := by
    intro n m id _
    rfl

/-- The event `b` arrives while `readEvents` waits for it. -/
private def arriving (n : Nat) : List String :=
  if n = 0 then ["old", "a"] else ["old", "a", "b"]

private theorem arriving_grows (n : Nat) : arriving n <+: arriving (n + 1) := by
  unfold arriving
  by_cases hn : n = 0 <;> simp [hn]

private theorem arriving_nodup (n : Nat) : (arriving n).Nodup := by
  unfold arriving
  by_cases hn : n = 0 <;> simp [hn]

/-- `readEvents` starts after the old event and waits for the other two. -/
theorem arriving_events_read : ∃ s, readEvents (oneByOne arriving) "i" ["b", "a"]
    READ_EVENTS_TIMEOUT_MS 4 = some (.ok (sortModelEvents [⟨"b", ""⟩, ⟨"a", ""⟩], s)) :=
  readEvents_complete (r := 1) (oneByOne_follows arriving_grows)
    (show ["old"] <+: arriving 0 from ⟨["a"], rfl⟩) rfl (by decide) (by decide) arriving_nodup (by
      intro n hn
      have hn : n < 3 := hn
      show 100 * n ≤ 60 * 1000
      omega) (by decide)

/-- The log when `readEvents` is called again: another event has come. -/
private def later : Nat → List String := fun _ => ["old", "a", "b", "c"]

private theorem arriving_later (n : Nat) : arriving n <+: later 0 := by
  unfold arriving later
  by_cases hn : n = 0 <;> simp [hn]

private theorem read_first : readEvents (oneByOne arriving) "i" ["a"] READ_EVENTS_TIMEOUT_MS 2 =
    some (.ok ([⟨"a", ""⟩], ⟨"ii", [⟨"a", ""⟩], ["a"]⟩)) := by
  have hloop : readLoop (oneByOne arriving) ["a"] READ_EVENTS_TIMEOUT_MS 2 0 ⟨"i", [], []⟩ =
      some (.ok ⟨"ii", [⟨"a", ""⟩], ["a"]⟩) := by rfl
  simp [readEvents, hloop, sortModelEvents]

private theorem read_second : readEvents (oneByOne later) "ii" ["c"] READ_EVENTS_TIMEOUT_MS 3 =
    some (.ok ([⟨"c", ""⟩], ⟨"iiii", [⟨"c", ""⟩], ["b", "c"]⟩)) := by
  have hloop : readLoop (oneByOne later) ["c"] READ_EVENTS_TIMEOUT_MS 3 0 ⟨"ii", [], []⟩ =
      some (.ok ⟨"iiii", [⟨"c", ""⟩], ["b", "c"]⟩) := by rfl
  simp [readEvents, hloop, sortModelEvents]

/-- The event `b` came between the two calls, and is sent to the second. -/
theorem second_read_goes_on : ∃ events' s' m,
    (.ok ([⟨"c", ""⟩], ⟨"iiii", [⟨"c", ""⟩], ["b", "c"]⟩) :
      Except String (List ReconEvent × ReadState)) = .ok (events', s') ∧
    ["old"] ++ ["a"] ++ s'.delivered <+: later m :=
  readEvents_resumes (oneByOne_follows arriving_grows)
    (oneByOne_follows (show ∀ n, later n <+: later (n + 1) from fun _ => List.prefix_rfl)) arriving_later rfl
    ⟨["a"], rfl⟩ rfl read_first read_second

end oneByOne

end Suite
