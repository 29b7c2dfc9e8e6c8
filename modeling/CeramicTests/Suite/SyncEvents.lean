import Mathlib.Data.List.Perm.Subperm

/-! # Waiting for events on every node

    `readEvents` and `waitForEventCount` of
    `suite/src/__tests__/correctness/fast/sync-events.test.ts`.

    `readEvents` follows the feed of a node until it has met as many
    expected events as there are expected CIDs, or until its time is up.
    It counts deliveries. So a feed that delivers one event twice can end
    the wait before another event has arrived.

    What a feed delivers is recorded beside the variables of the loop
    (`delivered`), so that the results can be compared with it.
-/

namespace Suite

/-! ## Section 1: The loop -/

structure ReconEvent where
  id : String
  data : String
  deriving DecidableEq, Repr

/-- One answer of `/ceramic/feed/events`: the ids of its events, and the
    token to go on with. -/
structure FeedPage where
  resumeToken : String
  events : List String
  deriving DecidableEq, Repr

/-- A node during one call of `readEvents`, with arbitrary answers: at the
    head of the `n`-th round `elapsed n` milliseconds have passed, and the
    `n`-th event asked for is `eventData n`. An error stands for a reply
    whose status is not 200. -/
structure Node where
  elapsed : Nat → Nat
  feedEvents : Nat → String → Except String FeedPage
  eventData : Nat → String → Except String ReconEvent
  eventData_id : ∀ n id event, eventData n id = .ok event → event.id = id

structure ReadState where
  resumeToken : String
  events : List ReconEvent
  delivered : List String
  deriving DecidableEq, Repr

def READ_EVENTS_TIMEOUT_MS : Nat := 60 * 1000

/-- The loop over the events of one page. -/
def readPage (node : Node) (eventCids : List String) :
    List String → ReadState → Except String ReadState
  | [], s => .ok s
  | id :: ids, s =>
    match node.eventData s.delivered.length id with
    | .error err => .error err
    | .ok eventWithData =>
      -- an event that was not asked for is passed over
      let events :=
        if eventWithData.id ∈ eventCids then s.events ++ [eventWithData] else s.events
      readPage node eventCids ids { s with events := events, delivered := s.delivered ++ [id] }

/-- The loop over the pages, from its `n`-th round on. -/
def readLoop (node : Node) (eventCids : List String) (timeoutMs : Nat) :
    Nat → Nat → ReadState → Option (Except String ReadState)
  | 0, _, _ => none
  | fuel + 1, n, s =>
    if s.events.length < eventCids.length then
      if node.elapsed n > timeoutMs then some (.ok s)
      else
        match node.feedEvents n s.resumeToken with
        -- a reply that is not ok throws
        | .error err => some (.error err)
        | .ok data =>
          match readPage node eventCids data.events { s with resumeToken := data.resumeToken } with
          | .error err => some (.error err)
          | .ok s' => readLoop node eventCids timeoutMs fuel (n + 1) s'
    else some (.ok s)

/-- A copy of the events, sorted by their ids. JavaScript compares the UTF-16
    units of two strings; for ids, which are ASCII, the order is the same. -/
def sortModelEvents (events : List ReconEvent) : List ReconEvent :=
  events.mergeSort fun a b => decide (a.id ≤ b.id)

/-- What `readEvents` returns, and the state in which its loop ended. -/
def readEvents (node : Node) (resumeToken : String) (eventCids : List String) (timeoutMs : Nat)
    (fuel : Nat) : Option (Except String (List ReconEvent × ReadState)) :=
  match readLoop node eventCids timeoutMs fuel 0 ⟨resumeToken, [], []⟩ with
  | none => none
  | some (.error err) => some (.error err)
  | some (.ok s) => some (.ok (sortModelEvents s.events, s))

/-- The loop of `waitForEventCount` over the urls from the `i`-th on. The
    call for the `i`-th url meets `nodes i`. -/
def waitForUrls (nodes : Nat → Node) (eventCids : List String) (fuel : Nat) :
    Nat → List String → Option (Except String Unit)
  | _, [] => some (.ok ())
  | i, token :: tokens =>
    match readEvents (nodes i) token eventCids READ_EVENTS_TIMEOUT_MS fuel with
    | none => none
    | some (.error err) => some (.error err)
    | some (.ok (events, _)) =>
      if events.length < eventCids.length then some (.error "waitForEventCount: timeout")
      else waitForUrls nodes eventCids fuel (i + 1) tokens

def waitForEventCount (nodes : Nat → Node) (urls eventCids resumeTokens : List String)
    (fuel : Nat) : Option (Except String Unit) :=
  if urls.length ≠ resumeTokens.length then
    some (.error "The lengths of urls and resumeTokens arrays must be equal")
  else waitForUrls nodes eventCids fuel 0 resumeTokens

/-! ## Section 2: What the loop has counted -/

/-- The deliveries of expected events, with repetitions. -/
def expectedDeliveries (eventCids : List String) (s : ReadState) : List String :=
  s.delivered.filter fun id => id ∈ eventCids

/-- The collected events are the deliveries of expected events. -/
def Counted (eventCids : List String) (s : ReadState) : Prop :=
  s.events.map ReconEvent.id = expectedDeliveries eventCids s

theorem readPage_counted {node : Node} {eventCids ids : List String} {s s' : ReadState}
    (h : readPage node eventCids ids s = .ok s') (hs : Counted eventCids s) :
    Counted eventCids s' := by
  induction ids generalizing s with
  | nil =>
    unfold readPage at h
    cases h
    exact hs
  | cons id ids ih =>
    unfold readPage at h
    cases hev : node.eventData s.delivered.length id with
    | error err =>
      rw [hev] at h
      cases h
    | ok event =>
      rw [hev] at h
      -- the event carries the id it was asked for by
      have hid := node.eventData_id _ _ _ hev
      refine ih h ?_
      unfold Counted expectedDeliveries at hs ⊢
      by_cases hmem : event.id ∈ eventCids
      · rw [hid] at hmem
        simp [hid, hmem, hs]
      · rw [hid] at hmem
        simp [hid, hmem, hs]

theorem readLoop_counted {node : Node} {eventCids : List String} {timeoutMs fuel n : Nat}
    {s s' : ReadState} (h : readLoop node eventCids timeoutMs fuel n s = some (.ok s'))
    (hs : Counted eventCids s) : Counted eventCids s' := by
  induction fuel generalizing n s with
  | zero => cases h
  | succ fuel ih =>
    unfold readLoop at h
    by_cases hlen : s.events.length < eventCids.length
    · rw [if_pos hlen] at h
      by_cases htime : node.elapsed n > timeoutMs
      · rw [if_pos htime] at h
        cases h
        exact hs
      · rw [if_neg htime] at h
        cases hfeed : node.feedEvents n s.resumeToken with
        | error err =>
          rw [hfeed] at h
          cases h
        | ok data =>
          simp only [hfeed] at h
          cases hpage : readPage node eventCids data.events
              { s with resumeToken := data.resumeToken } with
          | error err =>
            rw [hpage] at h
            cases h
          | ok s₁ =>
            rw [hpage] at h
            exact ih h (readPage_counted hpage hs)
    · rw [if_neg hlen] at h
      cases h
      exact hs

/-- A call of `readEvents` returns as many events as expected ones were
    delivered. -/
theorem readEvents_length {node : Node} {token : String} {eventCids : List String}
    {timeoutMs fuel : Nat} {events : List ReconEvent} {s : ReadState}
    (h : readEvents node token eventCids timeoutMs fuel = some (.ok (events, s))) :
    events.length = (expectedDeliveries eventCids s).length := by
  unfold readEvents at h
  cases hloop : readLoop node eventCids timeoutMs fuel 0 ⟨token, [], []⟩ with
  | none =>
    rw [hloop] at h
    cases h
  | some result =>
    rw [hloop] at h
    cases result with
    | error err => cases h
    | ok s' =>
      cases h
      have hcounted : Counted eventCids s := readLoop_counted hloop rfl
      unfold sortModelEvents
      rw [List.length_mergeSort, ← hcounted, List.length_map]

/-- The loop ends, at the latest in the first round after its time is up. -/
theorem readLoop_ends (node : Node) (eventCids : List String) {timeoutMs m : Nat}
    (hm : node.elapsed m > timeoutMs) (k : Nat) :
    ∀ n s, n + k = m → ∃ result, readLoop node eventCids timeoutMs (k + 1) n s = some result := by
  induction k with
  | zero =>
    intro n s hn
    -- the time is up in this round
    have hnm : n = m := by omega
    subst hnm
    unfold readLoop
    by_cases hlen : s.events.length < eventCids.length
    · exact ⟨_, by rw [if_pos hlen, if_pos hm]⟩
    · exact ⟨_, by rw [if_neg hlen]⟩
  | succ k ih =>
    intro n s hn
    unfold readLoop
    by_cases hlen : s.events.length < eventCids.length
    · rw [if_pos hlen]
      by_cases htime : node.elapsed n > timeoutMs
      · exact ⟨_, by rw [if_pos htime]⟩
      · rw [if_neg htime]
        cases node.feedEvents n s.resumeToken with
        | error err => exact ⟨_, rfl⟩
        | ok data =>
          simp only
          cases readPage node eventCids data.events { s with resumeToken := data.resumeToken } with
          | error err => exact ⟨_, rfl⟩
          | ok s' => exact ih (n + 1) s' (by omega)
    · exact ⟨_, by rw [if_neg hlen]⟩

/-! ## Section 3: All urls -/

/-- When as many distinct expected events arrived as are expected, all did. -/
theorem all_of_nodup {eventCids : List String} {s : ReadState}
    (hlen : eventCids.length ≤ (expectedDeliveries eventCids s).length)
    (hnodup : (expectedDeliveries eventCids s).Nodup) : ∀ cid ∈ eventCids, cid ∈ s.delivered := by
  have hsub : expectedDeliveries eventCids s ⊆ eventCids := by
    intro id hid
    exact of_decide_eq_true (List.mem_filter.mp hid).2
  -- a list without repetitions that is no shorter is a permutation
  have hperm := (List.subperm_of_subset hnodup hsub).perm_of_length_le hlen
  intro cid hcid
  exact (List.mem_filter.mp (hperm.mem_iff.mpr hcid)).1

theorem waitForUrls_ok {nodes : Nat → Node} {eventCids tokens : List String} {fuel i : Nat}
    (h : waitForUrls nodes eventCids fuel i tokens = some (.ok ())) :
    ∀ j token, tokens[j]? = some token → ∃ events s,
      readEvents (nodes (i + j)) token eventCids READ_EVENTS_TIMEOUT_MS fuel =
        some (.ok (events, s)) ∧ eventCids.length ≤ events.length := by
  induction tokens generalizing i with
  | nil =>
    intro j token hj
    simp at hj
  | cons token₀ tokens ih =>
    unfold waitForUrls at h
    cases hread : readEvents (nodes i) token₀ eventCids READ_EVENTS_TIMEOUT_MS fuel with
    | none =>
      rw [hread] at h
      cases h
    | some result =>
      rw [hread] at h
      cases result with
      | error err => cases h
      | ok out =>
        obtain ⟨events, s⟩ := out
        simp only at h
        by_cases hlen : events.length < eventCids.length
        · -- the wait for this url would have thrown
          rw [if_pos hlen] at h
          cases h
        · rw [if_neg hlen] at h
          intro j token hj
          cases j with
          | zero =>
            simp only [List.getElem?_cons_zero, Option.some.injEq] at hj
            subst hj
            exact ⟨events, s, hread, by omega⟩
          | succ j =>
            obtain ⟨events', s', hread', hlen'⟩ := ih h j token (by simpa using hj)
            exact ⟨events', s', by rw [← hread']; congr 2; omega, hlen'⟩

/-- **The wait counts deliveries.** When `waitForEventCount` returns
    normally, the call of `readEvents` for each url was delivered at least
    as many expected events as there are expected CIDs, repetitions
    included. If none was delivered twice, then all of them were. -/
theorem waitForEventCount_counts {nodes : Nat → Node} {urls eventCids resumeTokens : List String}
    {fuel : Nat}
    (h : waitForEventCount nodes urls eventCids resumeTokens fuel = some (.ok ())) :
    ∀ i, i < urls.length → ∃ token events s, resumeTokens[i]? = some token ∧
      readEvents (nodes i) token eventCids READ_EVENTS_TIMEOUT_MS fuel =
        some (.ok (events, s)) ∧
      eventCids.length ≤ (expectedDeliveries eventCids s).length ∧
      ((expectedDeliveries eventCids s).Nodup → ∀ cid ∈ eventCids, cid ∈ s.delivered) := by
  intro i hi
  unfold waitForEventCount at h
  by_cases hlen : urls.length ≠ resumeTokens.length
  · rw [if_pos hlen] at h
    cases h
  · rw [if_neg hlen] at h
    have hi' : i < resumeTokens.length := by omega
    obtain ⟨events, s, hread, hcount⟩ := waitForUrls_ok h i _ (List.getElem?_eq_getElem hi')
    rw [Nat.zero_add] at hread
    rw [readEvents_length hread] at hcount
    exact ⟨_, events, s, List.getElem?_eq_getElem hi', hread, hcount, all_of_nodup hcount⟩

/-- The wait always ends when the clocks of all calls run on. -/
theorem waitForEventCount_ends (nodes : Nat → Node) (urls eventCids resumeTokens : List String)
    {m : Nat} (hclock : ∀ i, (nodes i).elapsed m > READ_EVENTS_TIMEOUT_MS) :
    ∃ result, waitForEventCount nodes urls eventCids resumeTokens (m + 1) = some result := by
  have hurls : ∀ tokens i, ∃ result,
      waitForUrls nodes eventCids (m + 1) i tokens = some result := by
    intro tokens
    induction tokens with
    | nil => exact fun i => ⟨_, rfl⟩
    | cons token tokens ih =>
      intro i
      obtain ⟨result, hloop⟩ :=
        readLoop_ends (nodes i) eventCids (hclock i) m 0 ⟨token, [], []⟩ (Nat.zero_add m)
      unfold waitForUrls readEvents
      rw [hloop]
      cases result with
      | error err => exact ⟨_, rfl⟩
      | ok s =>
        by_cases hlen : (sortModelEvents s.events).length < eventCids.length
        · exact ⟨_, by simp only [hlen, if_true]; rfl⟩
        · simp only [hlen, if_false]
          exact ih (i + 1)
  unfold waitForEventCount
  by_cases hlen : urls.length ≠ resumeTokens.length
  · exact ⟨_, by rw [if_pos hlen]⟩
  · rw [if_neg hlen]
    exact hurls resumeTokens 0

/-! ### One node, two expected events -/

section twoEvents

/-- A node that answers each request with the next of the given pages. -/
private def feed (pages : Nat → List String) : Node where
  elapsed := fun n => 100 * n
  feedEvents := fun n _ => .ok ⟨"", pages n⟩
  eventData := fun _ id => .ok ⟨id, ""⟩
  eventData_id := by
    intro n id event h
    cases h
    rfl

private def repeating : Nat → Node := fun _ => feed fun _ => ["a"]

private def complete : Nat → Node := fun _ => feed fun _ => ["c", "b", "a"]

private theorem wait_complete :
    waitForEventCount complete ["http://ceramic-0-0"] ["a", "b"] ["0"] 3 = some (.ok ()) := by
  simp [waitForEventCount, waitForUrls, readEvents, readLoop, readPage, sortModelEvents, complete,
    feed, READ_EVENTS_TIMEOUT_MS]

/-- A feed without repetitions ends the wait with both events delivered. -/
theorem wait_without_repetitions : ∃ token events s, ["0"][0]? = some token ∧
    readEvents (complete 0) token ["a", "b"] READ_EVENTS_TIMEOUT_MS 3 = some (.ok (events, s)) ∧
    ["a", "b"].length ≤ (expectedDeliveries ["a", "b"] s).length ∧
    ((expectedDeliveries ["a", "b"] s).Nodup → ∀ cid ∈ ["a", "b"], cid ∈ s.delivered) :=
  waitForEventCount_counts wait_complete 0 (by decide)

/-- Two deliveries of event `a` end the wait for `a` and `b`. -/
theorem wait_with_repetition :
    waitForEventCount repeating ["http://ceramic-0-0"] ["a", "b"] ["0"] 3 = some (.ok ()) ∧
    ∃ events s, readEvents (repeating 0) "0" ["a", "b"] READ_EVENTS_TIMEOUT_MS 3 =
      some (.ok (events, s)) ∧ s.delivered = ["a", "a"] ∧ "b" ∉ s.delivered := by
  constructor
  · simp [waitForEventCount, waitForUrls, readEvents, readLoop, readPage, sortModelEvents,
      repeating, feed, READ_EVENTS_TIMEOUT_MS]
  · refine ⟨sortModelEvents [⟨"a", ""⟩, ⟨"a", ""⟩], ⟨"", [⟨"a", ""⟩, ⟨"a", ""⟩], ["a", "a"]⟩, ?_, rfl,
      by decide⟩
    simp [readEvents, readLoop, readPage, repeating, feed, READ_EVENTS_TIMEOUT_MS]

end twoEvents

end Suite
