/-! # Programs that record what they do

    A driver calls services one after another and stops at the first call
    that fails. `Logged A ε α` is such a program: it appends an action of
    type `A` to a log for every call, and ends with a result or an error.
    The outcome of a call may depend on how many came before it.

    `Spec P m Q E` says what `m` does whatever the outcomes are: its actions
    satisfy `P`, a result satisfies `Q` and an error satisfies `E`.
-/

namespace Framework

universe u v w

/-- A program over a log of actions. -/
def Logged (A : Type u) (ε : Type v) (α : Type w) : Type (max u v w) :=
  List A → Except ε α × List A

namespace Logged

variable {A : Type u} {ε : Type v} {α β : Type w}

instance : Monad (Logged A ε) where
  pure x := fun log => (.ok x, log)
  bind m k := fun log =>
    match m log with
    | (.ok x, log') => k x log'
    | (.error e, log') => (.error e, log')

/-- Make a call, and record it with its answer. -/
def call (ask : Nat → Except ε α) (record : Except ε α → A) : Logged A ε α :=
  fun log => (ask log.length, log ++ [record (ask log.length)])

/-- A step that leaves no trace. -/
def ofExcept (outcome : Except ε α) : Logged A ε α := fun log => (outcome, log)

def throw (e : ε) : Logged A ε α := ofExcept (.error e)

theorem bind_of_ok {m : Logged A ε α} {k : α → Logged A ε β} {log log' : List A} {x : α}
    (h : m log = (.ok x, log')) : (m >>= k) log = k x log' := by
  show (match m log with
    | (.ok x, log') => k x log'
    | (.error e, log') => (.error e, log')) = _
  rw [h]

theorem bind_of_error {m : Logged A ε α} {k : α → Logged A ε β} {log log' : List A} {e : ε}
    (h : m log = (.error e, log')) : (m >>= k) log = (.error e, log') := by
  show (match m log with
    | (.ok x, log') => k x log'
    | (.error e, log') => (.error e, log')) = _
  rw [h]

theorem ofExcept_ok_bind {x : α} {k : α → Logged A ε β} : ofExcept (.ok x) >>= k = k x := rfl

theorem bind_assoc {γ : Type w} {m : Logged A ε α} {k : α → Logged A ε β} {j : β → Logged A ε γ} :
    (m >>= k) >>= j = m >>= fun x => k x >>= j := by
  funext log
  cases h : m log with
  | mk res log' =>
    cases res with
    | error e => rw [bind_of_error h, bind_of_error (bind_of_error h)]
    | ok x =>
      rw [bind_of_ok h]
      cases hk : k x log' with
      | mk res log'' =>
        cases res with
        | error e => rw [bind_of_error hk, bind_of_error ((bind_of_ok h).trans hk)]
        | ok y => rw [bind_of_ok hk, bind_of_ok ((bind_of_ok h).trans hk)]

/-- A call returns and records its answer. -/
theorem call_eq {ask : Nat → Except ε α} {record : Except ε α → A} {log : List A}
    {answer : Except ε α} (h : ask log.length = answer) :
    call ask record log = (answer, log ++ [record answer]) := by
  unfold call
  rw [h]

/-- A call that succeeds has an answer, which is recorded. -/
theorem call_eq_ok {ask : Nat → Except ε α} {record : Except ε α → A} {log log' : List A} {x : α}
    (h : call ask record log = (.ok x, log')) :
    ask log.length = .ok x ∧ log' = log ++ [record (.ok x)] := by
  unfold call at h
  obtain ⟨hask, hlog⟩ := Prod.mk.inj h
  rw [hask] at hlog
  exact ⟨hask, hlog.symm⟩

theorem ofExcept_eq_ok {outcome : Except ε α} {log log' : List A} {x : α}
    (h : ofExcept outcome log = (.ok x, log')) : outcome = .ok x ∧ log' = log := by
  obtain ⟨hok, hlog⟩ := Prod.mk.inj h
  exact ⟨hok, hlog.symm⟩

/-- A sequence that succeeds is one in which both parts do. -/
theorem bind_eq_ok {m : Logged A ε α} {k : α → Logged A ε β} {log log' : List A} {y : β}
    (h : (m >>= k) log = (.ok y, log')) :
    ∃ x between, m log = (.ok x, between) ∧ k x between = (.ok y, log') := by
  cases hm : m log with
  | mk res between =>
    cases res with
    | error e =>
      rw [bind_of_error hm] at h
      cases h
    | ok x =>
      rw [bind_of_ok hm] at h
      exact ⟨x, between, rfl, h⟩

/-! ## Specifications -/

/-- Every action of `m` satisfies `P`, its result `Q`, its error `E`. -/
structure Spec (P : A → Prop) (m : Logged A ε α) (Q : α → Prop) (E : ε → Prop) : Prop where
  actions : ∀ log, ∃ new, (m log).2 = log ++ new ∧ ∀ a ∈ new, P a
  result : ∀ log x, (m log).1 = .ok x → Q x
  error : ∀ log e, (m log).1 = .error e → E e

variable {P : A → Prop} {Q : α → Prop} {R : β → Prop} {E : ε → Prop}

theorem Spec.pure {x : α} (h : Q x) : Spec P (pure x : Logged A ε α) Q E where
  actions := fun log => ⟨[], (List.append_nil log).symm, by simp⟩
  result := by
    intro log y hy
    cases hy
    exact h
  error := by
    intro log e he
    cases he

theorem Spec.ofExcept {outcome : Except ε α} (hQ : ∀ x, outcome = .ok x → Q x)
    (hE : ∀ e, outcome = .error e → E e) : Spec P (ofExcept outcome : Logged A ε α) Q E where
  actions := fun log => ⟨[], (List.append_nil log).symm, by simp⟩
  result := fun _ x hx => hQ x hx
  error := fun _ e he => hE e he

theorem Spec.throw {e : ε} (h : E e) : Spec P (throw e : Logged A ε α) Q E :=
  Spec.ofExcept (by intro x hx; cases hx) (by intro e' he'; cases he'; exact h)

theorem Spec.call {ask : Nat → Except ε α} {record : Except ε α → A}
    (hP : ∀ n, P (record (ask n))) (hQ : ∀ n x, ask n = .ok x → Q x)
    (hE : ∀ n e, ask n = .error e → E e) : Spec P (call ask record) Q E where
  actions := fun log => ⟨[record (ask log.length)], rfl, by simpa using hP log.length⟩
  result := fun log x hx => hQ log.length x hx
  error := fun log e he => hE log.length e he

/-- Sequencing: what the first program returns is what the second may use. -/
theorem Spec.bind {m : Logged A ε α} {k : α → Logged A ε β} (hm : Spec P m Q E)
    (hk : ∀ x, Q x → Spec P (k x) R E) : Spec P (m >>= k) R E where
  actions := by
    intro log
    obtain ⟨new, hlog, hnew⟩ := hm.actions log
    cases h : m log with
    | mk res log' =>
      rw [h] at hlog
      cases res with
      -- `k` is never run
      | error e =>
        rw [bind_of_error h]
        exact ⟨new, hlog, hnew⟩
      | ok x =>
        have hx := hm.result log x (by rw [h])
        obtain ⟨new', hlog', hnew'⟩ := (hk x hx).actions log'
        rw [bind_of_ok h]
        refine ⟨new ++ new', ?_, ?_⟩
        · have hlog : log' = log ++ new := hlog
          rw [hlog', hlog, List.append_assoc]
        · intro a ha
          rcases List.mem_append.mp ha with ha | ha
          · exact hnew a ha
          · exact hnew' a ha
  result := by
    intro log y hy
    cases h : m log with
    | mk res log' =>
      cases res with
      | error e =>
        rw [bind_of_error h] at hy
        cases hy
      | ok x =>
        rw [bind_of_ok h] at hy
        exact (hk x (hm.result log x (by rw [h]))).result log' y hy
  error := by
    intro log e he
    cases h : m log with
    | mk res log' =>
      cases res with
      | error e' =>
        rw [bind_of_error h] at he
        cases he
        exact hm.error log e (by rw [h])
      | ok x =>
        rw [bind_of_ok h] at he
        exact (hk x (hm.result log x (by rw [h]))).error log' e he

/-- Sequencing, where nothing is used of the first result. -/
theorem Spec.andThen {m : Logged A ε α} {k : α → Logged A ε β} (hm : Spec P m (fun _ => True) E)
    (hk : ∀ x, Spec P (k x) R E) : Spec P (m >>= k) R E :=
  hm.bind fun x _ => hk x

/-- A specification may be weakened. -/
theorem Spec.weaken {P' : A → Prop} {Q' : α → Prop} {E' : ε → Prop} {m : Logged A ε α}
    (h : Spec P m Q E) (hP : ∀ a, P a → P' a) (hQ : ∀ x, Q x → Q' x) (hE : ∀ e, E e → E' e) :
    Spec P' m Q' E' where
  actions := by
    intro log
    obtain ⟨new, hlog, hnew⟩ := h.actions log
    exact ⟨new, hlog, fun a ha => hP a (hnew a ha)⟩
  result := fun log x hx => hQ x (h.result log x hx)
  error := fun log e he => hE e (h.error log e he)

/-! ## The order of the actions -/

universe x

/-- Seen through `f`, the actions of `m` are `steps`, as far as `m` gets. -/
def Follows {B : Type x} (f : A → Option B) (m : Logged A ε α) (steps : List B) : Prop :=
  ∀ log, ∃ new, (m log).2 = log ++ new ∧ new.filterMap f <+: steps ∧
    ∀ y, (m log).1 = .ok y → new.filterMap f = steps

variable {B : Type x} {f : A → Option B} {steps steps' : List B}

theorem Follows.ofExcept {outcome : Except ε α} :
    Follows f (ofExcept outcome : Logged A ε α) [] := by
  intro log
  exact ⟨[], (List.append_nil log).symm, List.nil_prefix, fun _ _ => rfl⟩

theorem Follows.pure {x : α} : Follows f (pure x : Logged A ε α) [] := by
  show Follows f (Logged.ofExcept (.ok x) : Logged A ε α) []
  exact Follows.ofExcept

/-- A program that fails does not get far. -/
theorem Follows.throw {e : ε} : Follows f (throw e : Logged A ε α) steps := by
  intro log
  refine ⟨[], (List.append_nil log).symm, List.nil_prefix, ?_⟩
  intro y hy
  cases hy

theorem Follows.call {ask : Nat → Except ε α} {record : Except ε α → A}
    (h : ∀ answer, ([record answer].filterMap f) = steps) : Follows f (call ask record) steps := by
  intro log
  refine ⟨[record (ask log.length)], rfl, ?_, fun _ _ => h _⟩
  have hsteps := h (ask log.length)
  exact hsteps ▸ List.prefix_rfl

/-- Sequencing, where the steps of the second program are known only for the
    results that the first can have. -/
theorem Follows.bindOf {m : Logged A ε α} {k : α → Logged A ε β} {Q : α → Prop}
    (hm : Follows f m steps) (hQ : ∀ log x, (m log).1 = .ok x → Q x)
    (hk : ∀ x, Q x → Follows f (k x) steps') : Follows f (m >>= k) (steps ++ steps') := by
  intro log
  cases h : (m log).1 with
  | error e =>
    -- the rest is never run, so that it does not matter what it is
    have herr : m log = (.error e, (m log).2) := by rw [← h]
    obtain ⟨new, hlog, hsteps, _⟩ := hm log
    rw [bind_of_error herr]
    refine ⟨new, hlog, hsteps.trans (List.prefix_append _ _), ?_⟩
    intro y hy
    cases hy
  | ok x =>
    have hok : m log = (.ok x, (m log).2) := by rw [← h]
    obtain ⟨new, hlog, _, hall⟩ := hm log
    obtain ⟨new', hlog', hsteps', hall'⟩ := hk x (hQ log x h) (m log).2
    rw [bind_of_ok hok]
    refine ⟨new ++ new', ?_, ?_, ?_⟩
    · rw [hlog', hlog, List.append_assoc]
    · rw [List.filterMap_append, hall x h]
      exact (List.prefix_append_right_inj _).mpr hsteps'
    · intro y hy
      rw [List.filterMap_append, hall x h, hall' y hy]

/-- Sequencing: the steps of the one, and then those of the other. -/
theorem Follows.bind {m : Logged A ε α} {k : α → Logged A ε β} (hm : Follows f m steps)
    (hk : ∀ x, Follows f (k x) steps') : Follows f (m >>= k) (steps ++ steps') :=
  hm.bindOf (fun _ _ _ => trivial) fun x (_ : True) => hk x

/-- The first of the steps is that of `m`. -/
theorem Follows.step {b : B} {m : Logged A ε α} {k : α → Logged A ε β} (hm : Follows f m [b])
    (hk : ∀ x, Follows f (k x) steps) : Follows f (m >>= k) (b :: steps) :=
  hm.bind hk

/-- A program without a step of its own comes first. -/
theorem Follows.skip {m : Logged A ε α} {k : α → Logged A ε β} (hm : Follows f m [])
    (hk : ∀ x, Follows f (k x) steps) : Follows f (m >>= k) steps :=
  hm.bind hk

/-! ## Properties of the log as a whole -/

/-- A property of what a program logs, which may depend on whether the program
    has a result. It holds of no actions, and of two programs in sequence. -/
structure Composes (R : Bool → List A → Prop) : Prop where
  nil : ∀ done, R done []
  append : ∀ done l l', R true l → R done l' → R done (l ++ l')

/-- What `m` appends to the log satisfies `R`. -/
def Logs (R : Bool → List A → Prop) (m : Logged A ε α) : Prop :=
  ∀ log, ∃ new, (m log).2 = log ++ new ∧ R (m log).1.isOk new

variable {R : Bool → List A → Prop}

theorem Logs.ofExcept {outcome : Except ε α} (hR : Composes R) :
    Logs R (ofExcept outcome : Logged A ε α) :=
  fun log => ⟨[], (List.append_nil log).symm, hR.nil _⟩

theorem Logs.pure {x : α} (hR : Composes R) : Logs R (pure x : Logged A ε α) := by
  show Logs R (Logged.ofExcept (.ok x) : Logged A ε α)
  exact Logs.ofExcept hR

theorem Logs.call {ask : Nat → Except ε α} {record : Except ε α → A}
    (h : ∀ answer : Except ε α, R answer.isOk [record answer]) : Logs R (call ask record) :=
  fun log => ⟨[record (ask log.length)], rfl, h _⟩

theorem Logs.bind {m : Logged A ε α} {k : α → Logged A ε β} (hR : Composes R) (hm : Logs R m)
    (hk : ∀ x, Logs R (k x)) : Logs R (m >>= k) := by
  intro log
  obtain ⟨new, hlog, hnew⟩ := hm log
  cases h : m log with
  | mk res log' =>
    rw [h] at hlog hnew
    cases res with
    | error e =>
      rw [bind_of_error h]
      exact ⟨new, hlog, hnew⟩
    | ok x =>
      obtain ⟨new', hlog', hnew'⟩ := hk x log'
      have hlog : log' = log ++ new := hlog
      rw [bind_of_ok h]
      refine ⟨new ++ new', ?_, hR.append _ _ _ hnew hnew'⟩
      rw [hlog', hlog, List.append_assoc]

/-- All actions but the last are good, and all of them if there is a result. -/
def FailStop (good : A → Prop) (done : Bool) (log : List A) : Prop :=
  (∀ a ∈ log.dropLast, good a) ∧ (done = true → ∀ a ∈ log, good a)

/-- A program whose calls go on only after good actions stops at the first
    that is not. -/
theorem FailStop.composes (good : A → Prop) : Composes (FailStop good) where
  nil := by
    intro done
    exact ⟨by simp, by simp⟩
  append := by
    rintro done l l' ⟨_, hall⟩ ⟨hlast', hall'⟩
    have hgood := hall rfl
    constructor
    · intro a ha
      by_cases hnil : l' = []
      · rw [hnil, List.append_nil] at ha
        exact hgood a (List.dropLast_subset _ ha)
      · rw [List.dropLast_append_of_ne_nil hnil] at ha
        rcases List.mem_append.mp ha with ha | ha
        · exact hgood a ha
        · exact hlast' a ha
    · intro hdone a ha
      rcases List.mem_append.mp ha with ha | ha
      · exact hgood a ha
      · exact hall' hdone a ha

/-! ## Programs with fuel -/

/-- Given enough fuel, the program returns this result. -/
def Returns (m : Nat → Logged A ε α) (x : α) : Prop :=
  ∃ n, ∀ fuel, n ≤ fuel → ∀ log, ∃ log', m fuel log = (.ok x, log')

theorem Returns.pure {x : α} : Returns (fun _ => (pure x : Logged A ε α)) x :=
  ⟨0, fun _ _ log => ⟨log, rfl⟩⟩

theorem Returns.call {outcome : Nat → Except ε α} {record : Except ε α → A} {x : α}
    (h : ∃ n, ∀ fuel, n ≤ fuel → outcome fuel = .ok x) :
    Returns (fun fuel => Logged.call (fun _ => outcome fuel) record) x := by
  obtain ⟨n, hn⟩ := h
  exact ⟨n, fun fuel hfuel log => ⟨_, call_eq (hn fuel hfuel)⟩⟩

theorem Returns.bind {m : Nat → Logged A ε α} {k : Nat → α → Logged A ε β} {x : α} {y : β}
    (hm : Returns m x) (hk : Returns (fun fuel => k fuel x) y) :
    Returns (fun fuel => m fuel >>= k fuel) y := by
  obtain ⟨n, hn⟩ := hm
  obtain ⟨n', hn'⟩ := hk
  refine ⟨max n n', ?_⟩
  intro fuel hfuel log
  obtain ⟨between, hfirst⟩ := hn fuel (by omega) log
  obtain ⟨log', hrest⟩ := hn' fuel (by omega) between
  exact ⟨log', (bind_of_ok hfirst).trans hrest⟩

end Logged

end Framework
