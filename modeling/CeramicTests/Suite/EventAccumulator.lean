import CeramicTests.Framework.Listeners
import Mathlib.Data.Finset.Card
import Mathlib.Data.Finset.Filter
import Mathlib.Data.Finset.Insert

/-! # `EventAccumulator`

    `suite/src/utils/common.ts`. The data feed tests collect what a server
    sends, in a set.

    - `start` registers one more listener with the `EventSource`.
    - `stop` closes the `EventSource`. There is nothing in the class that
      would open another one.

    A run is the construction, followed by calls of `stop` and `start` and by
    messages that the server emits, in any order. Every beginning of a run
    is a run, so what is said of the end holds at every moment.
-/

namespace Suite

open Framework

variable {D T : Type}

/-! ## Section 1: The class -/

/-- `allEvents` is a `Set`, to which a value is added once. -/
structure EventAccumulator (D T : Type) where
  source : Source D (Finset T)
  parseEventData : D → T
  allEvents : Finset T

namespace EventAccumulator

variable [DecidableEq T]

/-- The listener that `start` registers. -/
def onMessage (parseEventData : D → T) (data : D) (allEvents : Finset T) : Finset T :=
  insert (parseEventData data) allEvents

def stop (acc : EventAccumulator D T) : EventAccumulator D T :=
  { acc with source := acc.source.close }

def start (acc : EventAccumulator D T) : EventAccumulator D T :=
  { acc with source := acc.source.addEventListener (onMessage acc.parseEventData) }

/-- The constructor. Without a parser, `eventData.toString()` is taken. -/
def new (source : Source D (Finset T)) (parseEventData : Option (D → T)) (toString : D → T) :
    EventAccumulator D T :=
  start { source := source, parseEventData := parseEventData.getD toString, allEvents := ∅ }

/-- The condition that `waitForEvents` polls. -/
def allReceived (acc : EventAccumulator D T) (expected : Finset T) : Bool :=
  let received := acc.allEvents.filter fun event => event ∈ expected
  received.card == expected.card

end EventAccumulator

/-- What happens to an accumulator. -/
inductive FeedEvent (D : Type) where
  | stop
  | start
  | message (data : D)
  deriving DecidableEq, Repr

/-- A message reaches the accumulator through its source. -/
def EventAccumulator.perform [DecidableEq T] (acc : EventAccumulator D T) :
    FeedEvent D → EventAccumulator D T
  | .stop => acc.stop
  | .start => acc.start
  | .message data => { acc with allEvents := acc.source.emit data acc.allEvents }

/-- The accumulator after its construction and these events. -/
def accumulated [DecidableEq T] (parseEventData : Option (D → T)) (toString : D → T)
    (events : List (FeedEvent D)) : EventAccumulator D T :=
  events.foldl EventAccumulator.perform (.new .opened parseEventData toString)

/-! ## Section 2: What it is for -/

/-- After the construction or `start`, and before the next `stop`. -/
def isStarted (events : List (FeedEvent D)) : Bool :=
  events.foldl (fun started event =>
    match event with
    | .stop => false
    | .start => true
    | .message _ => started) true

/-- Nothing that is emitted while the accumulator is started gets lost, and
    nothing else gets in; and a wait is for exactly what is expected. -/
structure KeepsStarted (parse : D → T) (events : List (FeedEvent D)) [DecidableEq T]
    (acc : EventAccumulator D T) : Prop where
  events : ∀ t, t ∈ acc.allEvents ↔
    ∃ data, HappensWhen (fun before => isStarted before = true) events (.message data) ∧
      parse data = t
  waits : ∀ expected, acc.allReceived expected = true ↔ expected ⊆ acc.allEvents

/-- What is emitted after a restart repeats an event from before the first
    `stop`. -/
def RepeatedAfterRestart (parse : D → T) (events : List (FeedEvent D)) : Prop :=
  ∀ data, HappensWhen (fun before => isStarted before = true ∧ .stop ∈ before) events
      (.message data) →
    ∃ data', HappensWhen (fun before => .stop ∉ before) events (.message data') ∧
      parse data' = parse data

/-! ## Section 3: What an accumulator has received -/

variable [DecidableEq T]

/-- Started or not, an accumulator receives what is emitted before its first
    `stop`: its source is open until then, and has a listener from the
    construction on. -/
structure ReceivesUntilStop (parse : D → T) (events : List (FeedEvent D))
    (acc : EventAccumulator D T) : Prop where
  parser : acc.parseEventData = parse
  isOpen : acc.source.isOpen = true ↔ .stop ∉ events
  listens : acc.source.listeners ≠ []
  listeners : ∀ l ∈ acc.source.listeners, l = EventAccumulator.onMessage parse
  received : ∀ t, t ∈ acc.allEvents ↔
    ∃ data, HappensWhen (fun before => .stop ∉ before) events (.message data) ∧ parse data = t

namespace ReceivesUntilStop

variable {parse : D → T} {events : List (FeedEvent D)} {acc : EventAccumulator D T}

theorem new (parseEventData : Option (D → T)) (toString : D → T) :
    ReceivesUntilStop (parseEventData.getD toString) []
      (.new .opened parseEventData toString) where
  parser := rfl
  isOpen := ⟨fun _ => List.not_mem_nil, fun _ => rfl⟩
  listens := List.cons_ne_nil _ _
  listeners := by
    intro l hl
    exact List.mem_singleton.mp hl
  received := by
    intro t
    constructor
    · intro ht
      exact absurd ht (Finset.notMem_empty t)
    · intro ⟨data, hdata, _⟩
      exact absurd hdata HappensWhen.not_nil

/-- An event that is no message leaves what was received. -/
theorem received_concat (h : ReceivesUntilStop parse events acc) {event : FeedEvent D}
    (hevent : ∀ data, event ≠ .message data) (t : T) :
    t ∈ acc.allEvents ↔ ∃ data, HappensWhen (fun before => .stop ∉ before) (events ++ [event])
      (.message data) ∧ parse data = t := by
  rw [h.received]
  apply exists_congr
  intro data
  rw [HappensWhen.concat_iff, or_iff_left]
  exact fun hlast => hevent data hlast.1

theorem stop (h : ReceivesUntilStop parse events acc) :
    ReceivesUntilStop parse (events ++ [.stop]) acc.stop where
  parser := h.parser
  isOpen := by simp [EventAccumulator.stop]
  listens := h.listens
  listeners := h.listeners
  received := h.received_concat (by simp)

/-- A closed source stays closed, with one more listener. -/
theorem start (h : ReceivesUntilStop parse events acc) :
    ReceivesUntilStop parse (events ++ [.start]) acc.start where
  parser := h.parser
  isOpen := by simpa [EventAccumulator.start] using h.isOpen
  listens := by simp [EventAccumulator.start]
  listeners := by
    intro l hl
    rcases List.mem_append.mp hl with hl | hl
    · exact h.listeners l hl
    · rw [List.mem_singleton.mp hl, h.parser]
  received := h.received_concat (by simp)

theorem onMessage_idem (data : D) (s : Finset T) :
    EventAccumulator.onMessage parse data (EventAccumulator.onMessage parse data s) =
      EventAccumulator.onMessage parse data s :=
  Finset.insert_idem ..

theorem message (h : ReceivesUntilStop parse events acc) (data : D) :
    ReceivesUntilStop parse (events ++ [.message data]) (acc.perform (.message data)) where
  parser := h.parser
  isOpen := by
    rw [List.mem_append, not_or]
    exact h.isOpen.trans ⟨fun hstop => ⟨hstop, by simp⟩, And.left⟩
  listens := h.listens
  listeners := h.listeners
  received := by
    intro t
    show t ∈ acc.source.emit data acc.allEvents ↔ _
    simp only [HappensWhen.concat_iff]
    cases hopen : acc.source.isOpen with
    | false =>
      -- the message is not delivered, and was emitted after a `stop`
      have hstop : ¬ FeedEvent.stop ∉ events := by
        rw [← h.isOpen, hopen]
        decide
      rw [Source.emit_of_closed hopen, h.received]
      simp [hstop]
    | true =>
      have hstop := h.isOpen.mp hopen
      rw [Source.emit_of_same onMessage_idem hopen h.listens h.listeners]
      unfold EventAccumulator.onMessage
      rw [Finset.mem_insert, h.received]
      constructor
      · rintro (rfl | ⟨data', hdata, rfl⟩)
        · exact ⟨data, Or.inr ⟨rfl, hstop⟩, rfl⟩
        · exact ⟨data', Or.inl hdata, rfl⟩
      · rintro ⟨data', hdata | ⟨hlast, _⟩, rfl⟩
        · exact Or.inr ⟨data', hdata, rfl⟩
        · left
          rw [FeedEvent.message.inj hlast]

end ReceivesUntilStop

/-- At every moment of every run. -/
theorem accumulated_receives (parseEventData : Option (D → T)) (toString : D → T)
    (events : List (FeedEvent D)) :
    ReceivesUntilStop (parseEventData.getD toString) events
      (accumulated parseEventData toString events) := by
  induction events using List.reverseRecOn with
  | nil => exact ReceivesUntilStop.new parseEventData toString
  | append_singleton events event ih =>
    have hlast : accumulated parseEventData toString (events ++ [event]) =
        (accumulated parseEventData toString events).perform event := by
      unfold accumulated
      rw [List.foldl_append]
      rfl
    rw [hlast]
    cases event with
    | stop => exact ih.stop
    | start => exact ih.start
    | message data => exact ih.message data

/-! ## Section 4: Restarts -/

/-- The sizes are compared, of which one is that of a subset of `expected`. -/
theorem EventAccumulator.allReceived_iff (acc : EventAccumulator D T) (expected : Finset T) :
    acc.allReceived expected = true ↔ expected ⊆ acc.allEvents := by
  have hsub : (acc.allEvents.filter fun event => event ∈ expected) ⊆ expected :=
    fun event hevent => (Finset.mem_filter.mp hevent).2
  unfold EventAccumulator.allReceived
  rw [beq_iff_eq]
  constructor
  · intro hcard
    rw [← Finset.eq_of_subset_of_card_le hsub (le_of_eq hcard.symm)]
    exact Finset.filter_subset ..
  · intro hexpected
    have hall : (acc.allEvents.filter fun event => event ∈ expected) = expected := by
      apply Finset.Subset.antisymm hsub
      intro event hevent
      exact Finset.mem_filter.mpr ⟨hexpected hevent, hevent⟩
    rw [hall]

/-- An accumulator that was never stopped is started. -/
theorem isStarted_of_not_stopped {events : List (FeedEvent D)} (h : .stop ∉ events) :
    isStarted events = true := by
  induction events using List.reverseRecOn with
  | nil => rfl
  | append_singleton events event ih =>
    rw [List.mem_append, not_or] at h
    have hbefore := ih h.1
    unfold isStarted at hbefore ⊢
    rw [List.foldl_append, hbefore]
    cases event with
    | stop => exact absurd (List.mem_singleton_self _) h.2
    | start => rfl
    | message data => rfl

/-- **When nothing is lost.** A run keeps what is emitted while it is started
    if and only if all that is emitted after a restart repeats what was
    emitted before the first `stop`. -/
theorem keeps_started_iff (parseEventData : Option (D → T)) (toString : D → T)
    (events : List (FeedEvent D)) :
    KeepsStarted (parseEventData.getD toString) events
        (accumulated parseEventData toString events) ↔
      RepeatedAfterRestart (parseEventData.getD toString) events := by
  have hreceives := accumulated_receives parseEventData toString events
  constructor
  · intro hkeeps data hdata
    -- the message counts as emitted while started, so it is in the set
    have hstarted : HappensWhen (fun before => isStarted before = true) events (.message data) :=
      hdata.imp fun _ h => h.1
    have hmem := (hkeeps.events (parseEventData.getD toString data)).mpr ⟨data, hstarted, rfl⟩
    exact (hreceives.received _).mp hmem
  · intro hrepeated
    refine ⟨?_, (accumulated parseEventData toString events).allReceived_iff⟩
    intro t
    rw [hreceives.received]
    constructor
    · intro ⟨data, hdata, hparse⟩
      exact ⟨data, hdata.imp fun _ => isStarted_of_not_stopped, hparse⟩
    · intro ⟨data, ⟨before, after, hsplit, hstarted⟩, hparse⟩
      by_cases hstop : FeedEvent.stop ∈ before
      · obtain ⟨data', hdata', hsame⟩ := hrepeated data ⟨before, after, hsplit, hstarted, hstop⟩
        exact ⟨data', hdata', hsame.trans hparse⟩
      · exact ⟨data, ⟨before, after, hsplit, hstop⟩, hparse⟩

/-- A message after a restart does not arrive. -/
theorem restarted_receives_nothing :
    (accumulated none id [.stop, .start, .message "b"]).allEvents = ∅ ∧
    (accumulated none id [.stop, .start, .message "b"]).allReceived {"b"} = false ∧
    ¬ KeepsStarted id [.stop, .start, .message "b"]
      (accumulated none id [.stop, .start, .message "b"]) := by
  have hempty : (accumulated none id [.stop, .start, .message "b"]).allEvents = ∅ := by decide
  refine ⟨hempty, by decide, ?_⟩
  intro hkeeps
  have hmem := (hkeeps.events "b").mpr ⟨"b", ⟨[.stop, .start], [], rfl, by decide⟩, rfl⟩
  rw [hempty] at hmem
  exact absurd hmem (Finset.notMem_empty "b")

end Suite
