import CeramicTests.Framework.Transition

/-! # Forward simulation

    A detailed system does in each step what an abstract one does in one
    step, or nothing that the abstract one can see. `view` says which step
    of the abstract system a detailed step is, if any. The relation between
    the states may use what is known of the detailed state, so an invariant
    needs no place of its own.

    Then every run of the detailed system is one of the abstract system,
    whose labels are those that are seen.
-/

namespace Transition

universe u v w x

namespace System

variable {State : Type u} {Label : Type v} {State' : Type w} {Label' : Type x}

/-- Detailed steps from related states, as steps of the abstract system. -/
structure Simulates (sys : System State Label) (abs : System State' Label')
    (view : Fired State Label → Option Label') (related : State → State' → Prop) : Prop where
  stutter : ∀ s l s' a, related s a → sys.step s l s' → view ⟨s, l, s'⟩ = none → related s' a
  step : ∀ s l s' a l', related s a → sys.step s l s' → view ⟨s, l, s'⟩ = some l' →
    ∃ a', abs.step a l' a' ∧ related s' a'

variable {sys : System State Label} {abs : System State' Label'}
  {view : Fired State Label → Option Label'} {related : State → State' → Prop}

/-- **Simulation rule.** A detailed run is an abstract run, and its labels
    are what is seen of the detailed steps. -/
theorem Simulates.run (h : sys.Simulates abs view related) {s s' : State} {a : State'}
    {tr : List (Fired State Label)} (hrun : sys.Run s tr s') (hs : related s a) :
    ∃ tr' a', abs.Run a tr' a' ∧ related s' a' ∧
      tr'.map Fired.label = tr.filterMap view := by
  induction hrun with
  | nil => exact ⟨[], a, .nil, hs, rfl⟩
  | @snoc s₁ s₂ tr l _ hstep ih =>
    obtain ⟨tr', a', hrun', hrel, hlabels⟩ := ih
    rw [List.filterMap_append, ← hlabels]
    cases hview : view ⟨s₁, l, s₂⟩ with
    | none =>
      refine ⟨tr', a', hrun', h.stutter _ _ _ _ hrel hstep hview, ?_⟩
      simp [hview]
    | some l' =>
      obtain ⟨a'', hstep', hrel'⟩ := h.step _ _ _ _ _ hrel hstep hview
      refine ⟨_, a'', hrun'.snoc hstep', hrel', ?_⟩
      simp [hview]

end System

end Transition
