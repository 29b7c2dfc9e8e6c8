import CeramicTests.Framework.Rx

/-! # `waitForCondition`

    `suite/src/utils/ceramicHelpers.ts`. The tests wait for a stream to
    reach a state: they subscribe to it, look at the current state, and then
    wait for the first matching state in a race against a timer.

    JavaScript runs one task after another, and between two tasks all the
    jobs of settled promises. A task is here a notification of the stream or
    the firing of the timer.

    - The promise `waiter` is made before the current state is looked at,
      so that no state falls between the two.
    - `withTimeout` passes on the value of `waiter`, but not its error; and
      a stream that ends without a match fulfils `waiter` with nothing.
-/

namespace Suite

open Rx

universe u v

variable {S : Type u} {E : Type v}

/-! ## Section 1: The race -/

/-- What is thrown: an error of the stream, or a text. -/
inductive Reason (E : Type v) where
  | error (e : E)
  | text (msg : String)
  deriving DecidableEq, Repr

/-- What the timer of `withTimeout` rejects with. -/
def timeoutText (timeoutMs : Nat) (curTime startTime : String) : String :=
  "Timed out after " ++ toString timeoutMs ++ " millis. Current time: " ++ curTime ++
    ", start time: " ++ startTime

inductive Task (S : Type u) (E : Type v) where
  | notify (n : Notification S E)
  | timer (curTime : String)
  deriving DecidableEq, Repr

/-- How far a call has come: it awaits the promise that `withTimeout` made,
    or it has ended. -/
inductive Phase (E : Type v) where
  | awaiting (outer : Promise Unit (Reason E))
  | returned
  | thrown (reason : Reason E)
  deriving DecidableEq, Repr

/-- A call of `waitForCondition`, with what the stream has delivered to its
    subscription. -/
structure Wait (S : Type u) (E : Type v) where
  delivered : List (Notification S E)
  phase : Phase E
  deriving DecidableEq, Repr

/-- What follows the `await` on this promise. -/
def Phase.afterAwait : Promise Unit (Reason E) → Phase E
  | .pending => .awaiting .pending
  | .fulfilled _ => .returned
  | .rejected reason => .thrown reason

/-- The arguments of a call, and the clock at its start. -/
structure WaitArgs (S : Type u) where
  condition : S → Bool
  timeoutMs : Nat
  startTime : String

variable (args : WaitArgs S)

/-- The jobs between two tasks: `prom.then(resolve)`, which has no part for a
    rejection, and then the rest of the call after its `await`. -/
def runJobs (w : Wait S E) : Wait S E :=
  match w.phase with
  | .awaiting outer =>
    match firstMatch args.condition w.delivered with
    | .fulfilled _ => { w with phase := .afterAwait (outer.resolve ()) }
    | _ => { w with phase := .afterAwait outer }
  | _ => w

/-- A call up to its `await`. At the subscription the stream delivers `sync`;
    `state` is its current state. -/
def waitForCondition (state : S) (sync : List (Notification S E)) : Wait S E :=
  if !args.condition state then runJobs args { delivered := sync, phase := .awaiting .pending }
  -- only wait if the condition isn't already true
  else { delivered := sync, phase := .returned }

/-- One task. The timer is never cleared. -/
def perform (w : Wait S E) : Task S E → Wait S E
  | .notify n => runJobs args { w with delivered := w.delivered ++ [n] }
  | .timer curTime =>
    match w.phase with
    | .awaiting outer =>
      let reason := Reason.text (timeoutText args.timeoutMs curTime args.startTime)
      runJobs args { w with phase := .awaiting (outer.reject reason) }
    | _ => w

/-- The call after the tasks. -/
def waitAfter (state : S) (sync : List (Notification S E)) (tasks : List (Task S E)) :
    Wait S E :=
  tasks.foldl (perform args) (waitForCondition args state sync)

/-- What the stream delivers before the timer fires. -/
def beforeTimer : List (Task S E) → List (Notification S E)
  | [] => []
  | .notify n :: tasks => n :: beforeTimer tasks
  | .timer _ :: _ => []

/-! ## Section 2: The phase of a call -/

/-- A call that has ended takes no notice of later tasks. -/
theorem foldl_ended {w : Wait S E} (hended : ∀ outer, w.phase ≠ .awaiting outer)
    (tasks : List (Task S E)) : (tasks.foldl (perform args) w).phase = w.phase := by
  induction tasks generalizing w with
  | nil => rfl
  | cons task tasks ih =>
    have hphase : (perform args w task).phase = w.phase := by
      cases hw : w.phase with
      | awaiting outer => exact absurd hw (hended outer)
      | returned => cases task <;> simp only [perform, runJobs, hw]
      | thrown reason => cases task <;> simp only [perform, runJobs, hw]
    rw [List.foldl_cons, ih (by rwa [hphase]), hphase]

theorem foldl_returned {w : Wait S E} (h : w.phase = .returned) (tasks : List (Task S E)) :
    (tasks.foldl (perform args) w).phase = .returned := by
  rw [foldl_ended args (by simp [h]), h]

theorem foldl_thrown {w : Wait S E} {reason : Reason E} (h : w.phase = .thrown reason)
    (tasks : List (Task S E)) :
    (tasks.foldl (perform args) w).phase = .thrown reason := by
  rw [foldl_ended args (by simp [h]), h]

/-- Before the timer fires, a call that waits has returned as soon as
    `waiter` is fulfilled, and does not notice that `waiter` is rejected. -/
def Phase.ofWaiter : Promise (Option S) E → Phase E
  | .fulfilled _ => .returned
  | .pending => .awaiting .pending
  | .rejected _ => .awaiting .pending

theorem runJobs_awaiting (delivered : List (Notification S E)) :
    runJobs args ⟨delivered, .awaiting .pending⟩ =
      ⟨delivered, .ofWaiter (firstMatch args.condition delivered)⟩ := by
  unfold runJobs
  cases firstMatch args.condition delivered <;> rfl

variable {args} {state : S} {sync : List (Notification S E)}

/-- Without a timer the call follows `waiter`. -/
theorem waitAfter_notify (sync : List (Notification S E)) (hstate : args.condition state = false)
    (ns : List (Notification S E)) :
    waitAfter args state sync (ns.map .notify) =
      ⟨sync ++ ns, .ofWaiter (firstMatch args.condition (sync ++ ns))⟩ := by
  induction ns using List.reverseRecOn with
  | nil =>
    unfold waitAfter waitForCondition
    rw [hstate, List.append_nil]
    exact runJobs_awaiting args sync
  | append_singleton ns n ih =>
    unfold waitAfter at ih ⊢
    rw [List.map_append, List.foldl_append, ih, ← List.append_assoc]
    show runJobs args ⟨sync ++ ns ++ [n], _⟩ = _
    cases h : firstMatch args.condition (sync ++ ns) with
    | fulfilled o =>
      -- the call has returned, and `waiter` stays fulfilled
      have hmore : firstMatch args.condition (sync ++ ns ++ [n]) = .fulfilled o := by
        rw [firstMatch_append (by rw [h]; simp), h]
      rw [hmore]
      rfl
    | pending => exact runJobs_awaiting args _
    | rejected e => exact runJobs_awaiting args _

/-- The tasks up to the timer are notifications. -/
theorem tasks_split (tasks : List (Task S E)) :
    tasks = (beforeTimer tasks).map .notify ∨
      ∃ curTime rest, tasks = (beforeTimer tasks).map .notify ++ .timer curTime :: rest := by
  induction tasks with
  | nil => exact Or.inl rfl
  | cons task tasks ih =>
    cases task with
    | timer curTime => exact Or.inr ⟨curTime, tasks, rfl⟩
    | notify n =>
      rcases ih with h | ⟨curTime, rest, h⟩
      · left
        rw [beforeTimer, List.map_cons, ← h]
      · right
        exact ⟨curTime, rest, by rw [beforeTimer, List.map_cons, List.cons_append, ← h]⟩

theorem Phase.ofWaiter_of_ne {waiter : Promise (Option S) E} (h : ∀ o, waiter ≠ .fulfilled o) :
    Phase.ofWaiter waiter = .awaiting .pending := by
  cases waiter with
  | fulfilled o => exact absurd rfl (h o)
  | pending => rfl
  | rejected e => rfl

/-- Without a value of `waiter` there is no job for `prom.then(resolve)`. -/
theorem runJobs_of_ne {delivered : List (Notification S E)}
    (h : ∀ o, firstMatch args.condition delivered ≠ .fulfilled o)
    (outer : Promise Unit (Reason E)) :
    runJobs args ⟨delivered, .awaiting outer⟩ = ⟨delivered, .afterAwait outer⟩ := by
  unfold runJobs
  cases hw : firstMatch args.condition delivered with
  | fulfilled o => exact absurd hw (h o)
  | pending => rfl
  | rejected e => rfl

/-- The timer rejects the promise that a waiting call awaits. -/
theorem perform_timer {delivered : List (Notification S E)}
    (h : ∀ o, firstMatch args.condition delivered ≠ .fulfilled o) (curTime : String) :
    (perform args ⟨delivered, .awaiting .pending⟩ (.timer curTime)).phase =
      .thrown (.text (timeoutText args.timeoutMs curTime args.startTime)) := by
  have hjobs := runJobs_of_ne h
    (.rejected (.text (timeoutText args.timeoutMs curTime args.startTime)))
  exact congrArg Wait.phase hjobs

/-- **The phase of a call.** It has returned if `waiter` was fulfilled before
    the timer fired, and otherwise it waits for the timer, whose text it
    throws. -/
theorem phase_cases (hstate : args.condition state = false) (tasks : List (Task S E)) :
    ((∃ o, firstMatch args.condition (sync ++ beforeTimer tasks) = .fulfilled o) ∧
      (waitAfter args state sync tasks).phase = .returned) ∨
    ((∀ o, firstMatch args.condition (sync ++ beforeTimer tasks) ≠ .fulfilled o) ∧
      ((waitAfter args state sync tasks).phase = .awaiting .pending ∨
        ∃ msg, (waitAfter args state sync tasks).phase = .thrown (.text msg))) := by
  have hbefore := waitAfter_notify sync hstate (beforeTimer tasks)
  unfold waitAfter at hbefore ⊢
  by_cases hw : ∃ o, firstMatch args.condition (sync ++ beforeTimer tasks) = .fulfilled o
  · left
    refine ⟨hw, ?_⟩
    obtain ⟨o, ho⟩ := hw
    rw [ho] at hbefore
    rcases tasks_split tasks with h | ⟨curTime, rest, h⟩
    · rw [h, hbefore]
      rfl
    · rw [h, List.foldl_append, hbefore]
      exact foldl_returned args rfl _
  · right
    have hnot : ∀ o, firstMatch args.condition (sync ++ beforeTimer tasks) ≠ .fulfilled o :=
      fun o ho => hw ⟨o, ho⟩
    refine ⟨hnot, ?_⟩
    rw [Phase.ofWaiter_of_ne hnot] at hbefore
    rcases tasks_split tasks with h | ⟨curTime, rest, h⟩
    · left
      rw [h, hbefore]
    · right
      rw [h, List.foldl_append, hbefore]
      exact ⟨_, foldl_thrown args (perform_timer hnot curTime) rest⟩

/-- A call whose condition holds at once does not wait. -/
theorem phase_of_holds (hstate : args.condition state = true) (tasks : List (Task S E)) :
    (waitAfter args state sync tasks).phase = .returned := by
  unfold waitAfter
  apply foldl_returned
  unfold waitForCondition
  rw [hstate]
  rfl

/-! ## Section 3: No wakeup is lost -/

/-- **No lost wakeup.** If the condition holds for the current state, or for
    a state that is emitted before the timer fires, the call returns
    normally, whatever comes after that state. -/
theorem waitForCondition_no_lost_wakeup (args : WaitArgs S) (state : S)
    (tasks : List (Task S E))
    (h : args.condition state = true ∨
      ∃ s ∈ emitted (beforeTimer tasks), args.condition s = true) :
    (waitAfter args state [.next state] tasks).phase = .returned := by
  cases hstate : args.condition state with
  | true => exact phase_of_holds hstate tasks
  | false =>
    rw [hstate] at h
    obtain ⟨s, hs, hp⟩ := h.resolve_left (by decide)
    -- the state delivered at the subscription does not match
    have hmem : s ∈ emitted ([.next state] ++ beforeTimer tasks) := List.mem_cons_of_mem _ hs
    obtain ⟨s', hfulfilled⟩ := firstMatch_of_emitted hmem hp
    rcases phase_cases hstate tasks with ⟨_, hphase⟩ | ⟨hnot, _⟩
    · exact hphase
    · exact absurd hfulfilled (hnot _)

/-- A match between two other states, before the stream completes and the
    timer fires. -/
theorem returns_after_passing_match :
    (waitAfter ⟨fun s => s == 2, 100, "t0"⟩ 0 [.next 0]
      ([.notify (.next 1), .notify (.next 2), .notify (.next 3), .notify .complete,
        .timer "t1"] : List (Task Nat String))).phase = .returned :=
  waitForCondition_no_lost_wakeup _ _ _ (Or.inr ⟨2, by decide, by decide⟩)

/-! ## Section 4: The outcome -/

/-- A call returns normally only after the condition held, and throws the
    error of a stream that fails before a match and before the timer. -/
structure RightOutcome (args : WaitArgs S) (state : S) (sync : List (Notification S E))
    (tasks : List (Task S E)) : Prop where
  returns : ∀ done, done <+: tasks → (waitAfter args state sync done).phase = .returned →
    args.condition state = true ∨
      ∃ s ∈ emitted (sync ++ beforeTimer done), args.condition s = true
  rejects : args.condition state = false → ∀ before e after,
    sync ++ beforeTimer tasks = before ++ .error e :: after → Quiet args.condition before →
    (waitAfter args state sync tasks).phase = .thrown (.error e)

/-- The stream ends before a state that matches. -/
def EndsEarly (condition : S → Bool) (ns : List (Notification S E)) : Prop :=
  ∃ before n after, ns = before ++ n :: after ∧ Quiet condition before ∧
    (n = .complete ∨ ∃ e, n = .error e)

theorem beforeTimer_map (ns : List (Notification S E)) :
    beforeTimer (ns.map Task.notify) = ns := by
  induction ns with
  | nil => rfl
  | cons n ns ih => rw [List.map_cons, beforeTimer, ih]

theorem beforeTimer_append (done rest : List (Task S E)) :
    ∃ more, beforeTimer (done ++ rest) = beforeTimer done ++ more := by
  induction done with
  | nil => exact ⟨beforeTimer rest, rfl⟩
  | cons task done ih =>
    cases task with
    | timer curTime => exact ⟨[], rfl⟩
    | notify n =>
      obtain ⟨more, hmore⟩ := ih
      exact ⟨more, congrArg (List.cons n) hmore⟩

/-- **When the outcome is right.** It is right exactly when the condition
    holds at the call, or the stream does not end, in either way, before a
    matching state and before the timer. -/
theorem right_outcome_iff (args : WaitArgs S) (state : S) (sync : List (Notification S E))
    (tasks : List (Task S E)) :
    RightOutcome args state sync tasks ↔
      args.condition state = true ∨ ¬ EndsEarly args.condition (sync ++ beforeTimer tasks) := by
  cases hstate : args.condition state with
  | true =>
    constructor
    · intro _
      exact Or.inl rfl
    · intro _
      refine ⟨fun _ _ _ => Or.inl hstate, ?_⟩
      intro hfalse
      rw [hstate] at hfalse
      cases hfalse
  | false =>
    constructor
    · intro h
      right
      rintro ⟨before, n, after, hns, hquiet, rfl | ⟨e, rfl⟩⟩
      · -- completed without a match: the call returns all the same
        have hdone : (beforeTimer tasks).map Task.notify <+: tasks := by
          rcases tasks_split tasks with h | ⟨curTime, rest, h⟩
          · rw [← h]
          · exact ⟨.timer curTime :: rest, h.symm⟩
        have hphase := congrArg Wait.phase
          (waitAfter_notify sync hstate (beforeTimer tasks))
        rw [hns, firstMatch_append_quiet hquiet, firstMatch_complete] at hphase
        rcases h.returns _ hdone hphase with hholds | ⟨s, hs, hp⟩
        · rw [hstate] at hholds
          cases hholds
        · rw [beforeTimer_map, hns] at hs
          obtain ⟨states, hemitted, hfail⟩ := emitted_append_quiet hquiet (.complete :: after)
          rw [hemitted] at hs
          have hfalse := hfail s (by simpa [emitted] using hs)
          rw [hp] at hfalse
          cases hfalse
      · -- failed: the error does not get through
        have hphase := h.rejects hstate before e after hns hquiet
        rcases phase_cases hstate tasks with ⟨_, hret⟩ | ⟨_, hwait | ⟨msg, htext⟩⟩
        · rw [hret] at hphase
          cases hphase
        · rw [hwait] at hphase
          cases hphase
        · rw [htext] at hphase
          cases hphase
    · intro h
      have hnot := h.resolve_left (by decide)
      constructor
      · rintro done ⟨rest, rfl⟩ hphase
        right
        rcases phase_cases hstate done with ⟨⟨o, ho⟩, _⟩ | ⟨_, hwait | ⟨msg, htext⟩⟩
        · rcases firstMatch_fulfilled ho with hmatch | ⟨before, after, hns, hquiet⟩
          · exact hmatch
          · -- the stream has completed before a match
            obtain ⟨more, hmore⟩ := beforeTimer_append done rest
            refine absurd ⟨before, .complete, after ++ more, ?_, hquiet, Or.inl rfl⟩ hnot
            rw [hmore, ← List.append_assoc, hns, List.append_assoc]
            rfl
        · rw [hwait] at hphase
          cases hphase
        · rw [htext] at hphase
          cases hphase
      · intro _ before e after hns hquiet
        exact absurd ⟨before, .error e, after, hns, hquiet, Or.inr ⟨e, rfl⟩⟩ hnot

private def untilTwo : WaitArgs Nat := ⟨fun s => s == 2, 100, "t0"⟩

/-- A stream that completes in its first state lets the call return normally.
    One that fails in it leads to the text of the timer. -/
theorem outcome_of_ended_stream :
    (waitAfter untilTwo 0 [.next 0] ([.notify .complete] : List (Task Nat String))).phase =
      .returned ∧
    ¬ RightOutcome untilTwo 0 [.next 0] ([.notify .complete] : List (Task Nat String)) ∧
    (waitAfter untilTwo 0 [.next 0]
      ([.notify (.error "stream closed"), .timer "t1"] : List (Task Nat String))).phase =
        .thrown (.text (timeoutText 100 "t1" "t0")) ∧
    ¬ RightOutcome untilTwo 0 [.next 0]
      ([.notify (.error "stream closed"), .timer "t1"] : List (Task Nat String)) := by
  have hreturned : (waitAfter untilTwo 0 [.next 0]
      ([.notify .complete] : List (Task Nat String))).phase = .returned := by decide
  have hthrown : (waitAfter untilTwo 0 [.next 0]
      ([.notify (.error "stream closed"), .timer "t1"] : List (Task Nat String))).phase =
        .thrown (.text (timeoutText 100 "t1" "t0")) := by decide
  refine ⟨hreturned, ?_, hthrown, ?_⟩
  · intro h
    have hmatch := h.returns _ List.prefix_rfl hreturned
    revert hmatch
    decide
  · intro h
    have hquiet : Quiet untilTwo.condition [Notification.next (E := String) 0] := by
      intro n hn
      rw [List.mem_singleton.mp hn]
      exact ⟨0, rfl, rfl⟩
    rw [h.rejects rfl [.next 0] "stream closed" [] rfl hquiet] at hthrown
    cases hthrown

end Suite
