import Mathlib.Data.List.Induction

/-! # Labelled transition systems and their finite runs

    Every concurrent component of this development is a labelled
    transition system. A run is recorded together with the steps it
    fired, so that a property of a whole run can speak about the state
    before each step, about the label, and about the state after it.

    This file defines:
    - `System`: initial states and a labelled step relation
    - `System.Run`: finite runs with the list of fired steps
    - `System.ofNext`: the system of a step function that can be executed
    - the invariant rule, and its conditional form for an invariant that
      only the steps meeting a guard preserve
-/

namespace Transition

universe u v

/-! ## Systems and runs -/

/-- A labelled transition system. -/
structure System (State : Type u) (Label : Type v) where
  init : State → Prop
  step : State → Label → State → Prop

/-- One fired step of a run. -/
structure Fired (State : Type u) (Label : Type v) where
  before : State
  label : Label
  after : State

/-- Where an entry of two histories stands, when the second follows the
    first. -/
theorem entry_of_append {α : Type u} {earlier later before after : List α} {a : α}
    (h : earlier ++ later = before ++ a :: after) :
    (∃ between, before = earlier ++ between ∧ later = between ++ a :: after) ∨
      ∃ between, earlier = before ++ a :: between ∧ after = between ++ later := by
  rcases List.append_eq_append_iff.mp h with hlater | ⟨between, hearlier, hafter⟩
  · exact Or.inl hlater
  · cases between with
    -- the entry is the first one of the second history
    | nil => exact Or.inl ⟨[], by simpa using hearlier.symm, hafter.symm⟩
    | cons b between =>
      obtain ⟨rfl, hlater⟩ := List.cons.inj hafter
      exact Or.inr ⟨between, hearlier, hlater⟩

namespace System

variable {State : Type u} {Label : Type v}

/-- `sys.Run s tr s'`: the steps `tr` lead from `s` to `s'`. The last
    step is the outermost constructor, so that induction on a run sees
    the history that a step extends. -/
inductive Run (sys : System State Label) (s : State) :
    List (Fired State Label) → State → Prop where
  | nil : Run sys s [] s
  | snoc : ∀ {s' s'' : State} {tr : List (Fired State Label)} {l : Label},
      Run sys s tr s' → sys.step s' l s'' → Run sys s (tr ++ [⟨s', l, s''⟩]) s''

variable {sys : System State Label}

/-- Every recorded step of a run is a step of the system. -/
theorem Run.step_of_mem {s s' : State} {tr : List (Fired State Label)}
    (h : sys.Run s tr s') {f : Fired State Label} (hf : f ∈ tr) :
    sys.step f.before f.label f.after := by
  induction h with
  | nil => simp at hf
  | snoc _ hstep ih =>
    rcases List.mem_append.mp hf with hf | hf
    · exact ih hf
    · rw [List.mem_singleton.mp hf]
      exact hstep

/-- The last step of a run. -/
theorem Run.last {s s' : State} {tr : List (Fired State Label)} {f : Fired State Label}
    (h : sys.Run s (tr ++ [f]) s') :
    sys.Run s tr f.before ∧ sys.step f.before f.label f.after ∧ f.after = s' := by
  generalize htr : tr ++ [f] = tr' at h
  cases h with
  | nil => simp at htr
  | snoc hrun hstep =>
    obtain ⟨rfl, hf⟩ := List.append_inj' htr rfl
    cases hf
    exact ⟨hrun, hstep, rfl⟩

/-- A run splits at each of its steps. -/
theorem Run.split {s s' : State} {earlier later : List (Fired State Label)}
    {f : Fired State Label} (h : sys.Run s (earlier ++ f :: later) s') :
    sys.Run s earlier f.before ∧ sys.step f.before f.label f.after ∧
      sys.Run f.after later s' := by
  induction later using List.reverseRecOn generalizing s' with
  | nil =>
    obtain ⟨hrun, hstep, rfl⟩ := h.last
    exact ⟨hrun, hstep, .nil⟩
  | append_singleton later g ih =>
    rw [← List.cons_append, ← List.append_assoc] at h
    obtain ⟨hrun, hstep, rfl⟩ := h.last
    obtain ⟨hbefore, hf, hlater⟩ := ih hrun
    exact ⟨hbefore, hf, hlater.snoc hstep⟩

/-- A run starts in the state before its first step. -/
theorem Run.before_head {s s' : State} {later : List (Fired State Label)}
    {f : Fired State Label} (h : sys.Run s (f :: later) s') : f.before = s := by
  rw [← List.nil_append (f :: later)] at h
  have hrun := h.split.1
  generalize hnil : ([] : List (Fired State Label)) = earlier at hrun
  cases hrun with
  | nil => rfl
  | snoc => simp at hnil

/-! ## Executable systems -/

/-- The system of a step function. -/
def ofNext (init : State → Prop) (next : State → Label → Option State) :
    System State Label where
  init := init
  step := fun s l s' => next s l = some s'

/-- Labels that can be executed one after another extend a run. -/
theorem Run.execute {init : State → Prop} {next : State → Label → Option State} {s : State}
    {labels : List Label} {s' s'' : State} {tr : List (Fired State Label)}
    (hrun : (ofNext init next).Run s tr s') (h : labels.foldlM next s' = some s'') :
    ∃ tr', (ofNext init next).Run s tr' s'' := by
  induction labels generalizing s' tr with
  | nil =>
    cases h
    exact ⟨tr, hrun⟩
  | cons l labels ih =>
    rw [List.foldlM_cons] at h
    cases hnext : next s' l with
    | none =>
      rw [hnext] at h
      cases h
    | some between =>
      rw [hnext] at h
      exact ih (hrun.snoc hnext) h

/-! ## Invariants -/

/-- **Guarded invariant rule.** If every step that meets `guard` keeps
    `inv`, then a run all of whose steps meet it keeps `inv`. -/
theorem Run.guarded_invariant {inv : State → Prop} {guard : Fired State Label → Prop}
    (hkeep : ∀ s l s', inv s → sys.step s l s' → guard ⟨s, l, s'⟩ → inv s')
    {s s' : State} {tr : List (Fired State Label)}
    (h : sys.Run s tr s') (hs : inv s) (hguard : ∀ f ∈ tr, guard f) : inv s' := by
  induction h with
  | nil => exact hs
  | snoc _ hstep ih =>
    have hprev := ih (fun f hf => hguard f (List.mem_append_left _ hf))
    exact hkeep _ _ _ hprev hstep (hguard _ (by simp))

/-- **Invariant rule.** A property kept by every step holds at the end of
    every run that starts with it. -/
theorem Run.invariant {inv : State → Prop}
    (hkeep : ∀ s l s', inv s → sys.step s l s' → inv s')
    {s s' : State} {tr : List (Fired State Label)}
    (h : sys.Run s tr s') (hs : inv s) : inv s' :=
  @Run.guarded_invariant _ _ sys inv (fun _ => True)
    (fun s l s' hi hst _ => hkeep s l s' hi hst) s s' tr h hs (fun _ _ => trivial)

/-- Under the guard the invariant holds after every step of the run, not
    only at its end. -/
theorem Run.guarded_invariant_after {inv : State → Prop}
    {guard : Fired State Label → Prop}
    (hkeep : ∀ s l s', inv s → sys.step s l s' → guard ⟨s, l, s'⟩ → inv s')
    {s s' : State} {tr : List (Fired State Label)}
    (h : sys.Run s tr s') (hs : inv s) (hguard : ∀ f ∈ tr, guard f) :
    ∀ f ∈ tr, inv f.after := by
  induction h with
  | nil => simp
  | snoc hrun hstep ih =>
    have hbefore : ∀ f ∈ _, guard f := fun f hf => hguard f (List.mem_append_left _ hf)
    -- the state that the last step starts from
    have hprev := hrun.guarded_invariant hkeep hs hbefore
    intro f hf
    rcases List.mem_append.mp hf with hf | hf
    · exact ih hbefore f hf
    · rw [List.mem_singleton.mp hf]
      exact hkeep _ _ _ hprev hstep (hguard _ (by simp))

/-- **Exactness of a guard.** When a step outside the guard always breaks
    the invariant, a run keeps the invariant in every state it reaches
    exactly when all its steps meet the guard. -/
theorem Run.invariant_iff_guarded {inv : State → Prop}
    {guard : Fired State Label → Prop}
    (hkeep : ∀ s l s', inv s → sys.step s l s' → guard ⟨s, l, s'⟩ → inv s')
    (hbreak : ∀ s l s', sys.step s l s' → ¬ guard ⟨s, l, s'⟩ → ¬ inv s')
    {s s' : State} {tr : List (Fired State Label)}
    (h : sys.Run s tr s') (hs : inv s) :
    (∀ f ∈ tr, inv f.after) ↔ ∀ f ∈ tr, guard f := by
  constructor
  · intro hinv f hf
    by_cases hg : guard f
    · exact hg
    · exact absurd (hinv f hf) (hbreak _ _ _ (h.step_of_mem hf) hg)
  · exact h.guarded_invariant_after hkeep hs

end System

end Transition
