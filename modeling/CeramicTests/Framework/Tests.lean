/-! # Tests that run one after another

    The tests of a suite share variables. A test ends normally or with an
    error, and keeps in both cases what it has assigned so far; the runner
    goes on to the next test whatever happened to the one before.

    Such a test is a program over `EStateM`. What later tests see of it is
    the state it leaves behind, `finalState`, so the rules here compute
    that: one for each kind of step, and `finalState_attempt_bind` for a
    step that may fail, where an invariant has to hold on both ways out.
-/

namespace Framework

universe u

variable {ε σ α β : Type u}

/-- The state a program leaves behind, however it ends. -/
def finalState (m : EStateM ε σ α) (s : σ) : σ :=
  match m s with
  | .ok _ s' => s'
  | .error _ s' => s'

/-- A step that may fail: both outcomes are recorded in the state. -/
def attempt (outcome : σ → Option ε) (record : σ → Bool → σ) : EStateM ε σ PUnit := fun s =>
  match outcome s with
  | none => .ok ⟨⟩ (record s true)
  | some e => .error e (record s false)

/-- Run the tests in order, also after one that failed. -/
def runTests (tests : List (EStateM ε σ PUnit)) (s : σ) : σ :=
  tests.foldl (fun s test => finalState test s) s

/-! ## What a program leaves behind -/

@[simp] theorem finalState_pure (x : α) (s : σ) :
    finalState (pure x : EStateM ε σ α) s = s := rfl

@[simp] theorem finalState_throw (e : ε) (s : σ) :
    finalState (throw e : EStateM ε σ α) s = s := rfl

@[simp] theorem finalState_get_bind (k : σ → EStateM ε σ α) (s : σ) :
    finalState (get >>= k) s = finalState (k s) s := rfl

@[simp] theorem finalState_modify_bind (f : σ → σ) (k : PUnit → EStateM ε σ α) (s : σ) :
    finalState (modify f >>= k) s = finalState (k ⟨⟩) (f s) := rfl

@[simp] theorem finalState_modify (f : σ → σ) (s : σ) :
    finalState (modify f : EStateM ε σ PUnit) s = f s := rfl

theorem finalState_of_ok {m : EStateM ε σ α} {s s' : σ} {x : α} (h : m s = .ok x s') :
    finalState m s = s' := by
  simp only [finalState, h]

/-- What follows a step that ended normally starts from the state it left. -/
theorem finalState_bind_of_ok {m : EStateM ε σ α} {k : α → EStateM ε σ β} {s s' : σ} {x : α}
    (h : m s = .ok x s') : finalState (m >>= k) s = finalState (k x) s' := by
  show finalState (fun s => match m s with
    | .ok x s => k x s
    | .error e s => .error e s) s = _
  simp only [finalState, h]

/-- What follows a step that failed is not run. -/
theorem finalState_bind_of_error {m : EStateM ε σ α} {k : α → EStateM ε σ β} {s s' : σ} {e : ε}
    (h : m s = .error e s') : finalState (m >>= k) s = s' := by
  show finalState (fun s => match m s with
    | .ok x s => k x s
    | .error e s => .error e s) s = _
  simp only [finalState, h]

section attempt
variable {outcome : σ → Option ε} {record : σ → Bool → σ} {s : σ}

theorem attempt_of_none (h : outcome s = none) :
    attempt outcome record s = .ok ⟨⟩ (record s true) := by
  simp only [attempt, h]

theorem attempt_of_some {e : ε} (h : outcome s = some e) :
    attempt outcome record s = .error e (record s false) := by
  simp only [attempt, h]

/-- A step that may fail keeps what holds after it failed, and what the
    rest of the program makes of its success. -/
theorem finalState_attempt_bind {I : σ → Prop} {k : PUnit → EStateM ε σ α}
    (hfail : I (record s false)) (hok : I (finalState (k ⟨⟩) (record s true))) :
    I (finalState (attempt outcome record >>= k) s) := by
  cases h : outcome s with
  | none =>
    rw [finalState_bind_of_ok (attempt_of_none h)]
    exact hok
  | some e =>
    rw [finalState_bind_of_error (attempt_of_some h)]
    exact hfail

/-- The same for a step at the end of a program. -/
theorem finalState_attempt {I : σ → Prop} (hfail : I (record s false)) (hok : I (record s true)) :
    I (finalState (attempt outcome record) s) := by
  cases h : outcome s with
  | none =>
    simp only [finalState, attempt_of_none h]
    exact hok
  | some e =>
    simp only [finalState, attempt_of_some h]
    exact hfail

end attempt

/-! ## What a run of tests leaves behind -/

@[simp] theorem runTests_nil (s : σ) : runTests ([] : List (EStateM ε σ PUnit)) s = s := rfl

@[simp] theorem runTests_cons (test : EStateM ε σ PUnit) (tests : List (EStateM ε σ PUnit)) (s : σ) :
    runTests (test :: tests) s = runTests tests (finalState test s) := rfl

/-- What every test keeps, whether it passes or fails, the whole run keeps. -/
theorem runTests_invariant {I : σ → Prop} {tests : List (EStateM ε σ PUnit)}
    (hstep : ∀ test ∈ tests, ∀ s, I s → I (finalState test s)) {s : σ} (hs : I s) :
    I (runTests tests s) := by
  induction tests generalizing s with
  | nil => exact hs
  | cons test tests ih =>
    have htest := hstep test (List.mem_cons_self ..) s hs
    exact ih (fun t ht => hstep t (List.mem_cons_of_mem _ ht)) htest

end Framework
