import CeramicTests.Framework.Transition
import CeramicTests.Suite.EventAccumulator
import Mathlib.Data.Finset.Dedup

/-! # The data feed tests

    `data-feed-api.test.ts` opens a feed of a node, or of two, makes commits,
    and waits until each feed has delivered them. Messages arrive at any
    time, while the test goes on.

    - Section 1: the tests and their state
    - Section 2: a test among the messages
    - Section 3: what a test keeps
    - Section 4: what a test that passes has confirmed

    The tip of a document is read when a call has resolved, and is whatever
    it is then. `waitForConditionOrTimeout` belongs to a package: it polls
    its condition, and throws at some time.
-/

namespace Suite

open Framework Transition

/-! ## Section 1: The tests -/

/-- A call of the Ceramic client, about a document of the test. -/
inductive FeedCall where
  | create (document : Nat)
  | replace (document : Nat)
  | waitForAnchor (document : Nat)
  deriving DecidableEq, Repr

/-- The steps of a test. After a call the tip of its document is expected.
    The feed `i` is that of the `i`-th node. -/
inductive FeedStep where
  | call (call : FeedCall)
  | stop (i : Nat)
  | start (i : Nat)
  | waitForEvents (i : Nat) (timeoutMs : Nat)
  /-- The last event has the four properties. -/
  | expectProperties
  /-- `allEvents` is the same object as `expectedEvents`. -/
  | expectToBe (i : Nat)
  deriving DecidableEq, Repr

inductive DataFeedTest where
  | eventFormat
  | genesisAndDataCommits
  | timeCommits
  | resumeMissedEvents
  deriving DecidableEq, Repr

def DataFeedTest.steps : DataFeedTest → List FeedStep
  | .eventFormat =>
    [.call (.create 0), .waitForEvents 0 (1000 * 60 * 2), .expectProperties]
  | .genesisAndDataCommits =>
    [.call (.create 1), .call (.create 2), .call (.create 3), .call (.replace 1),
      .call (.replace 2), .call (.replace 1), .waitForEvents 0 (1000 * 60),
      .waitForEvents 1 (1000 * 60)]
  | .timeCommits =>
    [.call (.create 0), .call (.waitForAnchor 0), .waitForEvents 0 (1000 * 60 * 2)]
  | .resumeMissedEvents =>
    [.call (.create 0), .stop 0, .call (.replace 0), .start 0, .waitForEvents 0 (1000 * 60),
      .expectToBe 0]

inductive TestStatus where
  | running
  | passed
  | failed
  deriving DecidableEq, Repr

/-- A test, with the steps to go and what has happened to each of its
    accumulators. -/
structure FeedTest (D T : Type) where
  steps : List FeedStep
  happened : Nat → List (FeedEvent D)
  expectedEvents : Finset T
  status : TestStatus

inductive FeedLabel (D T : Type) where
  | message (i : Nat) (data : D)
  | resolve (tip : T)
  | reject
  | act
  | poll
  | timeout
  | expect (holds : Bool)

/-- The tip that is expected from now on. -/
def FeedLabel.tip? {D T : Type} : FeedLabel D T → Option T
  | .resolve tip => some tip
  | _ => none

namespace FeedTest

variable {D T : Type}

def start (test : DataFeedTest) : FeedTest D T := ⟨test.steps, fun _ => [], ∅, .running⟩

/-- One more event for an accumulator. -/
def happens (s : FeedTest D T) (i : Nat) (event : FeedEvent D) : FeedTest D T :=
  { s with happened := fun j => if j = i then s.happened j ++ [event] else s.happened j }

/-- The sources are closed, whatever has ended the test. -/
def finally_ (s : FeedTest D T) (status : TestStatus) : FeedTest D T :=
  { s with steps := [], happened := fun j => s.happened j ++ [.stop], status := status }

def fail (s : FeedTest D T) : FeedTest D T := s.finally_ .failed

def goOn (s : FeedTest D T) : List FeedStep → FeedTest D T
  | [] => s.finally_ .passed
  | step :: rest => { s with steps := step :: rest }

section transitions

variable [DecidableEq T]

/-- The accumulator of a feed. -/
def accumulator (parseEventData : D → T) (s : FeedTest D T) (i : Nat) : EventAccumulator D T :=
  accumulated (some parseEventData) parseEventData (s.happened i)

/-- One step of a test, or a message of a feed. -/
def next (parseEventData : D → T) (s : FeedTest D T) : FeedLabel D T → Option (FeedTest D T)
  | .message i data => some (s.happens i (.message data))
  | .resolve tip =>
    match s.steps with
    | .call _ :: rest =>
      some ({ s with expectedEvents := insert tip s.expectedEvents }.goOn rest)
    | _ => none
  | .reject =>
    match s.steps with
    | .call _ :: _ => some s.fail
    | _ => none
  | .act =>
    match s.steps with
    | .stop i :: rest => some ((s.happens i .stop).goOn rest)
    | .start i :: rest => some ((s.happens i .start).goOn rest)
    | _ => none
  | .poll =>
    match s.steps with
    | .waitForEvents i _ :: rest =>
      if (s.accumulator parseEventData i).allReceived s.expectedEvents then some (s.goOn rest)
      else some s
    | _ => none
  | .timeout =>
    match s.steps with
    | .waitForEvents _ _ :: _ => some s.fail
    | _ => none
  | .expect holds =>
    match s.steps with
    | .expectProperties :: rest => if holds then some (s.goOn rest) else some s.fail
    -- these are two sets, with whatever in them
    | .expectToBe _ :: _ => if holds then none else some s.fail
    | _ => none

/-! ## Section 2: A test among the messages -/

/-- The test from its beginning, with messages at any time. -/
def system (parseEventData : D → T) (test : DataFeedTest) :
    System (FeedTest D T) (FeedLabel D T) :=
  System.ofNext (fun s => s = start test) (next parseEventData)

/-- What a step can do. -/
inductive Stepped (parseEventData : D → T) (s : FeedTest D T) :
    FeedLabel D T → FeedTest D T → Prop where
  | message (i : Nat) (data : D) :
    Stepped parseEventData s (.message i data) (s.happens i (.message data))
  | resolve (call : FeedCall) (rest : List FeedStep) (tip : T) (h : s.steps = .call call :: rest) :
    Stepped parseEventData s (.resolve tip)
      ({ s with expectedEvents := insert tip s.expectedEvents }.goOn rest)
  | stop (i : Nat) (rest : List FeedStep) (h : s.steps = .stop i :: rest) :
    Stepped parseEventData s .act ((s.happens i .stop).goOn rest)
  | start (i : Nat) (rest : List FeedStep) (h : s.steps = .start i :: rest) :
    Stepped parseEventData s .act ((s.happens i .start).goOn rest)
  | received (i timeoutMs : Nat) (rest : List FeedStep)
    (h : s.steps = .waitForEvents i timeoutMs :: rest)
    (hall : (s.accumulator parseEventData i).allReceived s.expectedEvents = true) :
    Stepped parseEventData s .poll (s.goOn rest)
  | missing (i timeoutMs : Nat) (rest : List FeedStep)
    (h : s.steps = .waitForEvents i timeoutMs :: rest)
    (hmissing : (s.accumulator parseEventData i).allReceived s.expectedEvents = false) :
    Stepped parseEventData s .poll s
  | holds (rest : List FeedStep) (h : s.steps = .expectProperties :: rest) :
    Stepped parseEventData s (.expect true) (s.goOn rest)
  | fail (l : FeedLabel D T) (hl : ∀ tip, l ≠ .resolve tip) (hpoll : l ≠ .poll) :
    Stepped parseEventData s l s.fail

theorem stepped_of_next {parseEventData : D → T} {s s' : FeedTest D T} {l : FeedLabel D T}
    (h : s.next parseEventData l = some s') : Stepped parseEventData s l s' := by
  unfold next at h
  cases l with
  | message i data =>
    cases h
    exact .message i data
  | resolve tip =>
    cases hsteps : s.steps with
    | nil => simp [hsteps] at h
    | cons step rest =>
      cases step <;> simp only [hsteps, Option.some.injEq, reduceCtorEq] at h
      subst h
      exact .resolve _ rest tip hsteps
  | reject =>
    cases hsteps : s.steps with
    | nil => simp [hsteps] at h
    | cons step rest =>
      cases step <;> simp only [hsteps, Option.some.injEq, reduceCtorEq] at h
      subst h
      exact .fail _ (by simp) (by simp)
  | act =>
    cases hsteps : s.steps with
    | nil => simp [hsteps] at h
    | cons step rest =>
      cases step <;> simp only [hsteps, Option.some.injEq, reduceCtorEq] at h
      · subst h
        exact .stop _ rest hsteps
      · subst h
        exact .start _ rest hsteps
  | poll =>
    cases hsteps : s.steps with
    | nil => simp [hsteps] at h
    | cons step rest =>
      cases step <;> simp only [hsteps, reduceCtorEq] at h
      split at h
      · next hall =>
        cases h
        exact .received _ _ rest hsteps hall
      · next hmissing =>
        cases h
        exact .missing _ _ rest hsteps (eq_false_of_ne_true hmissing)
  | timeout =>
    cases hsteps : s.steps with
    | nil => simp [hsteps] at h
    | cons step rest =>
      cases step <;> simp only [hsteps, Option.some.injEq, reduceCtorEq] at h
      subst h
      exact .fail _ (by simp) (by simp)
  | expect holds =>
    cases hsteps : s.steps with
    | nil => simp [hsteps] at h
    | cons step rest =>
      cases step <;> simp only [hsteps, reduceCtorEq] at h
      · cases holds with
        | true =>
          cases h
          exact .holds rest hsteps
        | false =>
          cases h
          exact .fail _ (by simp) (by simp)
      · cases holds with
        | true => cases h
        | false =>
          cases h
          exact .fail _ (by simp) (by simp)

end transitions

/-! ## Section 3: What a test keeps -/

section history

variable {parseEventData : D → T} {test : DataFeedTest} {s s' : FeedTest D T} {tips : List T}
  {rest : List FeedStep}

/-- The feed has sent a message for this tip, and its source was open. -/
def Emitted (parseEventData : D → T) (s : FeedTest D T) (i : Nat) (tip : T) : Prop :=
  ∃ data, HappensWhen (fun before => .stop ∉ before) (s.happened i) (.message data) ∧
    parseEventData data = tip

/-- What has happened to the accumulators in `s` is the beginning of what has
    happened to them in `s'`. -/
def Grows (s s' : FeedTest D T) : Prop := ∀ i, s.happened i <+: s'.happened i

theorem Grows.emitted (h : Grows s s') {i : Nat} {tip : T} (hs : s.Emitted parseEventData i tip) :
    s'.Emitted parseEventData i tip := by
  obtain ⟨data, ⟨before, after, hsplit, hopen⟩, hparse⟩ := hs
  obtain ⟨more, hmore⟩ := h i
  refine ⟨data, ⟨before, after ++ more, ?_, hopen⟩, hparse⟩
  rw [← hmore, hsplit, List.append_assoc, List.cons_append]

theorem grows_happens (s : FeedTest D T) (i : Nat) (event : FeedEvent D) :
    Grows s (s.happens i event) := by
  intro j
  show s.happened j <+: if j = i then s.happened j ++ [event] else s.happened j
  split
  · exact List.prefix_append ..
  · exact List.prefix_rfl

theorem grows_finally (s : FeedTest D T) (status : TestStatus) : Grows s (s.finally_ status) :=
  fun j => List.prefix_append (s.happened j) _

theorem grows_goOn (s : FeedTest D T) (rest : List FeedStep) : Grows s (s.goOn rest) := by
  cases rest with
  | nil => exact grows_finally s .passed
  | cons step rest => exact fun j => List.prefix_rfl

/-- A closed feed delivers nothing new. -/
theorem Grows.emitted_of_stopped (h : Grows s s') {i : Nat} {tip : T}
    (hstop : .stop ∈ s.happened i) (hs' : s'.Emitted parseEventData i tip) :
    s.Emitted parseEventData i tip := by
  obtain ⟨data, ⟨before, after, hsplit, hopen⟩, hparse⟩ := hs'
  obtain ⟨more, hmore⟩ := h i
  rw [← hmore] at hsplit
  refine ⟨data, ?_, hparse⟩
  rcases entry_of_append hsplit with ⟨between, rfl, _⟩ | ⟨between, heq, _⟩
  · exact absurd (List.mem_append_left _ hstop) hopen
  · exact ⟨before, between, heq, hopen⟩

def isCall : FeedStep → Bool
  | .call _ => true
  | _ => false

def isWait : FeedStep → Bool
  | .waitForEvents _ _ => true
  | _ => false

/-- No test waits before one of its calls. -/
theorem calls_first (test : DataFeedTest) :
    test.steps.Pairwise fun a b => ¬ (isWait a = true ∧ isCall b = true) := by
  cases test <;> decide

/-- The test has come so far that these steps are to go. -/
structure Reached (parseEventData : D → T) (test : DataFeedTest) (tips : List T)
    (done rest : List FeedStep) (s : FeedTest D T) : Prop where
  steps : test.steps = done ++ rest
  calls : tips.length = (done.filter isCall).length
  waits : ∀ i timeoutMs, .waitForEvents i timeoutMs ∈ done → ∀ tip ∈ tips,
    s.Emitted parseEventData i tip
  /-- Two sets are never one object. -/
  toBe : ∀ i, .expectToBe i ∉ done

theorem Reached.grows {done : List FeedStep} (h : Reached parseEventData test tips done rest s)
    (hgrows : Grows s s') : Reached parseEventData test tips done rest s' where
  steps := h.steps
  calls := h.calls
  waits := fun i timeoutMs hi tip htip => hgrows.emitted (h.waits i timeoutMs hi tip htip)
  toBe := h.toBe

/-- A step that is no call, and waits for nothing that is missing. -/
theorem Reached.step {done : List FeedStep} {step : FeedStep}
    (h : Reached parseEventData test tips done (step :: rest) s) (hcall : isCall step = false)
    (htoBe : ∀ i, step ≠ .expectToBe i)
    (hwait : ∀ i timeoutMs, step = .waitForEvents i timeoutMs → ∀ tip ∈ tips,
      s.Emitted parseEventData i tip) :
    Reached parseEventData test tips (done ++ [step]) rest s where
  steps := by rw [h.steps, List.append_assoc, List.singleton_append]
  calls := by
    rw [h.calls, List.filter_append]
    simp [hcall]
  waits := by
    intro i timeoutMs hi tip htip
    rcases List.mem_append.mp hi with hi | hi
    · exact h.waits i timeoutMs hi tip htip
    · exact hwait i timeoutMs (List.mem_singleton.mp hi).symm tip htip
  toBe := by
    intro i hi
    rcases List.mem_append.mp hi with hi | hi
    · exact h.toBe i hi
    · exact htoBe i (List.mem_singleton.mp hi).symm

/-- No wait is over when a call resolves. -/
theorem Reached.call {done : List FeedStep} {call : FeedCall}
    (h : Reached parseEventData test tips done (.call call :: rest) s) (tip : T) :
    Reached parseEventData test (tips ++ [tip]) (done ++ [.call call]) rest s where
  steps := by rw [h.steps, List.append_assoc, List.singleton_append]
  calls := by
    rw [List.length_append, h.calls, List.filter_append, List.length_append]
    rfl
  waits := by
    intro i timeoutMs hi
    have hfirst := calls_first test
    rw [h.steps] at hfirst
    rcases List.mem_append.mp hi with hi | hi
    · exact absurd ⟨rfl, rfl⟩ ((List.pairwise_append.mp hfirst).2.2 _ hi _ List.mem_cons_self)
    · cases List.mem_singleton.mp hi
  toBe := by
    intro i hi
    rcases List.mem_append.mp hi with hi | hi
    · exact h.toBe i hi
    · cases List.mem_singleton.mp hi

/-- The tips that the calls of a run have resolved to. -/
def tipsOf (tr : List (Fired (FeedTest D T) (FeedLabel D T))) : List T :=
  tr.filterMap fun f => f.label.tip?

theorem tipsOf_snoc (tr : List (Fired (FeedTest D T) (FeedLabel D T)))
    (f : Fired (FeedTest D T) (FeedLabel D T)) :
    tipsOf (tr ++ [f]) = tipsOf tr ++ f.label.tip?.toList := by
  unfold tipsOf
  rw [List.filterMap_append]
  cases h : f.label.tip? <;> simp [h]

end history

section keeps

variable [DecidableEq T] {parseEventData : D → T} {test : DataFeedTest} {s s' : FeedTest D T}
  {l : FeedLabel D T} {tips : List T} {rest : List FeedStep}

theorem mem_allEvents {i : Nat} {tip : T} :
    tip ∈ (s.accumulator parseEventData i).allEvents ↔ s.Emitted parseEventData i tip :=
  (accumulated_receives (some parseEventData) parseEventData (s.happened i)).received tip

theorem allReceived_iff {i : Nat} {expected : Finset T} :
    (s.accumulator parseEventData i).allReceived expected = true ↔
      ∀ tip ∈ expected, s.Emitted parseEventData i tip := by
  rw [EventAccumulator.allReceived_iff]
  exact forall₂_congr fun tip _ => mem_allEvents

/-- These tips are expected, and the test is where it is. -/
structure Keeps (parseEventData : D → T) (test : DataFeedTest) (tips : List T)
    (s : FeedTest D T) : Prop where
  expected : s.expectedEvents = tips.toFinset
  reached : s.status ≠ .failed → ∃ done, Reached parseEventData test tips done s.steps s
  ended : s.status ≠ .running → s.steps = [] ∧ ∀ i, .stop ∈ s.happened i

theorem Keeps.start : Keeps parseEventData test [] (start test) where
  expected := rfl
  reached := fun _ => ⟨[], rfl, rfl, by simp, by simp⟩
  ended := fun h => absurd rfl h

/-- The test is running when it has steps to go. -/
theorem Keeps.running (h : Keeps parseEventData test tips s) {step : FeedStep}
    (hsteps : s.steps = step :: rest) : s.status = .running := by
  by_contra hended
  cases hsteps.symm.trans (h.ended hended).1

/-- A test that has passed has gone through all its steps. -/
theorem Keeps.passed (h : Keeps parseEventData test tips s) (hpassed : s.status = .passed) :
    Reached parseEventData test tips test.steps [] s := by
  have hended := h.ended (by rw [hpassed]; decide)
  obtain ⟨done, hdone⟩ := h.reached (by rw [hpassed]; decide)
  rw [hended.1] at hdone
  have hall : test.steps = done := by rw [hdone.steps, List.append_nil]
  rw [hall]
  exact hdone

theorem Keeps.fail (h : Keeps parseEventData test tips s) :
    Keeps parseEventData test tips s.fail where
  expected := h.expected
  reached := fun hfailed => absurd rfl hfailed
  ended := fun _ => ⟨rfl, fun _ => List.mem_append_right _ (List.mem_singleton_self _)⟩

/-- On to the next step. The sources are closed if there is none. -/
theorem keeps_goOn (hexpected : s.expectedEvents = tips.toFinset) (hstatus : s.status = .running)
    {done : List FeedStep} (hreached : Reached parseEventData test tips done rest s) :
    Keeps parseEventData test tips (s.goOn rest) := by
  have hafter := hreached.grows (grows_goOn s rest)
  cases rest with
  | nil =>
    exact ⟨hexpected, fun _ => ⟨done, hafter⟩, fun _ =>
      ⟨rfl, fun _ => List.mem_append_right _ (List.mem_singleton_self _)⟩⟩
  | cons step rest => exact ⟨hexpected, fun _ => ⟨done, hafter⟩, fun h => absurd hstatus h⟩

theorem Keeps.message (h : Keeps parseEventData test tips s) (i : Nat) (data : D) :
    Keeps parseEventData test tips (s.happens i (.message data)) where
  expected := h.expected
  reached := by
    intro hstatus
    obtain ⟨done, hdone⟩ := h.reached hstatus
    exact ⟨done, hdone.grows (grows_happens s i _)⟩
  ended := by
    intro hstatus
    obtain ⟨hsteps, hstop⟩ := h.ended hstatus
    exact ⟨hsteps, fun j => (grows_happens s i _ j).subset (hstop j)⟩

/-- The step that is next, when there is one. -/
theorem Keeps.at (h : Keeps parseEventData test tips s) {step : FeedStep}
    (hsteps : s.steps = step :: rest) :
    ∃ done, Reached parseEventData test tips done (step :: rest) s := by
  have hrunning := h.running hsteps
  obtain ⟨done, hdone⟩ := h.reached (by rw [hrunning]; decide)
  rw [hsteps] at hdone
  exact ⟨done, hdone⟩

/-- A step that is no call is over. What it does to an accumulator comes on
    top of what has happened. -/
theorem Keeps.pass (h : Keeps parseEventData test tips s) {step : FeedStep}
    (hsteps : s.steps = step :: rest) (hcall : isCall step = false)
    (htoBe : ∀ i, step ≠ .expectToBe i)
    (hwait : ∀ i timeoutMs, step = .waitForEvents i timeoutMs → ∀ tip ∈ tips,
      s.Emitted parseEventData i tip)
    (hgrows : Grows s s') (hexpected : s'.expectedEvents = s.expectedEvents)
    (hstatus : s'.status = s.status) : Keeps parseEventData test tips (s'.goOn rest) := by
  obtain ⟨done, hdone⟩ := h.at hsteps
  exact keeps_goOn (hexpected.trans h.expected) (hstatus.trans (h.running hsteps))
    ((hdone.step hcall htoBe hwait).grows hgrows)

theorem Keeps.step (h : Keeps parseEventData test tips s) (hstep : Stepped parseEventData s l s') :
    Keeps parseEventData test (tips ++ l.tip?.toList) s' := by
  have hsame : ∀ s', Keeps parseEventData test tips s' → l.tip? = none →
      Keeps parseEventData test (tips ++ l.tip?.toList) s' := by
    intro s' hs' hnone
    rw [hnone]
    simpa using hs'
  cases hstep with
  | message i data => exact hsame _ (h.message i data) rfl
  | resolve call rest tip hsteps =>
    obtain ⟨done, hdone⟩ := h.at hsteps
    refine keeps_goOn ?_ (h.running hsteps) ((hdone.call tip).grows fun _ => List.prefix_rfl)
    show insert tip s.expectedEvents = (tips ++ [tip]).toFinset
    rw [h.expected, List.toFinset_append, Finset.insert_eq, Finset.union_comm]
    rfl
  | stop i rest hsteps =>
    exact hsame _ (h.pass hsteps rfl (by simp) (by simp) (grows_happens s i _) rfl rfl) rfl
  | start i rest hsteps =>
    exact hsame _ (h.pass hsteps rfl (by simp) (by simp) (grows_happens s i _) rfl rfl) rfl
  | received i timeoutMs rest hsteps hall =>
    refine hsame _ (h.pass hsteps rfl (by simp) ?_ (fun _ => List.prefix_rfl) rfl rfl) rfl
    intro j timeoutMs' hwait tip htip
    cases hwait
    apply allReceived_iff.mp hall
    rw [h.expected]
    exact List.mem_toFinset.mpr htip
  | missing i timeoutMs rest hsteps hmissing => exact hsame _ h rfl
  | holds rest hsteps =>
    exact hsame _ (h.pass hsteps rfl (by simp) (by simp) (fun _ => List.prefix_rfl) rfl rfl) rfl
  | fail l hl hpoll =>
    refine hsame _ h.fail ?_
    cases l with
    | resolve tip => exact absurd rfl (hl tip)
    | message i data => rfl
    | reject => rfl
    | act => rfl
    | poll => rfl
    | timeout => rfl
    | expect holds => rfl

theorem keeps_of_run {tr : List (Fired (FeedTest D T) (FeedLabel D T))}
    (hrun : (system parseEventData test).Run (.start test) tr s) :
    Keeps parseEventData test (tipsOf tr) s := by
  induction hrun with
  | nil => exact Keeps.start
  | snoc _ hstep ih =>
    rw [tipsOf_snoc]
    exact ih.step (stepped_of_next hstep)

theorem grows_of_stepped (h : Stepped parseEventData s l s') : Grows s s' := by
  cases h with
  | message i data => exact grows_happens s i _
  | resolve call rest tip hsteps =>
    exact grows_goOn { s with expectedEvents := insert tip s.expectedEvents } rest
  | stop i rest hsteps => exact fun j => (grows_happens s i _ j).trans (grows_goOn _ rest j)
  | start i rest hsteps => exact fun j => (grows_happens s i _ j).trans (grows_goOn _ rest j)
  | received i timeoutMs rest hsteps hall => exact grows_goOn s rest
  | missing i timeoutMs rest hsteps hmissing => exact fun _ => List.prefix_rfl
  | holds rest hsteps => exact grows_goOn s rest
  | fail l hl hpoll => exact grows_finally s .failed

theorem grows_of_run {tr : List (Fired (FeedTest D T) (FeedLabel D T))}
    (hrun : (system parseEventData test).Run s tr s') : Grows s s' := by
  induction hrun with
  | nil => exact fun _ => List.prefix_rfl
  | snoc _ hstep ih => exact fun i => (ih i).trans (grows_of_stepped (stepped_of_next hstep) i)

end keeps

/-! ## Section 4: What a passed test has confirmed -/

section confirmed

variable [DecidableEq T] {parseEventData : D → T} {test : DataFeedTest} {s : FeedTest D T}
  {tr : List (Fired (FeedTest D T) (FeedLabel D T))}

/-- **The data feed tests.** The test begins with its sources open, and
    every message decodes. Whatever the feeds send, and whenever:

    - A test that passes has had all its calls resolved, and each feed that
      it waits for has sent a message for the tip after each of them, while
      its source was open. The last of the four tests does not pass.
    - A wait goes on only as long as some expected tip has not been sent.
    - When the test has ended its sources are closed, and nothing that is
      sent later is received. -/
theorem data_feed_test
    (hrun : (system parseEventData test).Run (.start test) tr s) :
    (s.status = .passed → (tipsOf tr).length = (test.steps.filter isCall).length ∧
      ∀ i timeoutMs, .waitForEvents i timeoutMs ∈ test.steps → ∀ tip ∈ tipsOf tr,
        s.Emitted parseEventData i tip) ∧
    (s.status = .passed → test ≠ .resumeMissedEvents) ∧
    (∀ i timeoutMs rest, s.steps = .waitForEvents i timeoutMs :: rest →
      (∀ tip ∈ tipsOf tr, s.Emitted parseEventData i tip) →
      s.next parseEventData .poll = some (s.goOn rest)) ∧
    (s.status ≠ .running → ∀ i, (s.accumulator parseEventData i).source.isOpen = false ∧
      ∀ later s', (system parseEventData test).Run s later s' →
        (s'.accumulator parseEventData i).allEvents =
          (s.accumulator parseEventData i).allEvents) := by
  have hkeeps : Keeps parseEventData test (tipsOf tr) s := keeps_of_run hrun
  refine ⟨?_, ?_, ?_, ?_⟩
  · intro hpassed
    have hdone := hkeeps.passed hpassed
    exact ⟨hdone.calls, hdone.waits⟩
  · intro hpassed heq
    have hdone := hkeeps.passed hpassed
    rw [heq] at hdone
    exact hdone.toBe 0 (by decide)
  · intro i timeoutMs rest hsteps hemitted
    have hall : (s.accumulator parseEventData i).allReceived s.expectedEvents = true := by
      rw [allReceived_iff, hkeeps.expected]
      exact fun tip htip => hemitted tip (List.mem_toFinset.mp htip)
    unfold next
    simp only [hsteps, hall, if_true]
  · intro hended i
    have hstop := (hkeeps.ended hended).2 i
    have hreceives := accumulated_receives (some parseEventData) parseEventData (s.happened i)
    refine ⟨?_, ?_⟩
    · rw [Bool.eq_false_iff]
      exact fun hopen => hreceives.isOpen.mp hopen hstop
    · intro later s' hlater
      have hgrows : Grows s s' := grows_of_run hlater
      ext tip
      rw [mem_allEvents, mem_allEvents]
      exact ⟨hgrows.emitted_of_stopped hstop, hgrows.emitted⟩

/-- The commit is sent before its call has resolved. -/
private def formatChecked : Option (FeedTest Nat Nat) :=
  [.message 0 7, .resolve 7, .poll, .expect true].foldlM (next id) (start .eventFormat)

/-- The first test passes, when the message comes before the call resolves. -/
theorem early_message_confirmed : ∃ tr s,
    (system id .eventFormat).Run (.start .eventFormat) tr s ∧ s.status = .passed ∧
    ∀ tip ∈ tipsOf tr, Emitted (id : Nat → Nat) s 0 tip := by
  have hpassed : formatChecked.map FeedTest.status = some .passed := by decide
  obtain ⟨s, hs, hstatus⟩ := Option.map_eq_some_iff.mp hpassed
  obtain ⟨tr, hrun⟩ := System.Run.execute System.Run.nil hs
  exact ⟨tr, s, hrun, hstatus,
    ((data_feed_test hrun).1 hstatus).2 0 (1000 * 60 * 2) (by decide)⟩

end confirmed

end FeedTest

end Suite
