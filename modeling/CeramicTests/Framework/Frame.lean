import CeramicTests.Framework.Transition
import Mathlib.Data.Set.Function

/-! # Frames

    Several agents act on one store, and their actions interleave. A frame is
    a set of keys. An action is `Local` to a frame if it can be done on any
    store that agrees with the first one there, with the same effect there;
    it `Spares` a frame that it leaves as it is.

    When the actions of an agent are local to its frame and the others spare
    it, the agent could as well have been alone (`Run.alone`), and the agents
    could as well have acted one after another (`Run.serial`).
-/

namespace Transition

universe u v w x

namespace System

variable {Key : Type u} {Value : Type v} {Action : Type w} {Agent : Type x}

/-- The actions of several agents on the store of `sys`. -/
def together (sys : System (Key → Value) Action) : System (Key → Value) (Agent × Action) where
  init := sys.init
  step := fun s l s' => sys.step s l.2 s'

def Local (sys : System (Key → Value) Action) (frame : Set Key) (a : Action) : Prop :=
  ∀ s s' t, sys.step s a s' → Set.EqOn s t frame → ∃ t', sys.step t a t' ∧ Set.EqOn s' t' frame

def Spares (sys : System (Key → Value) Action) (frame : Set Key) (a : Action) : Prop :=
  ∀ s s', sys.step s a s' → Set.EqOn s s' frame

/-- The actions of one agent, in their order. -/
def actionsOf [DecidableEq Agent] (i : Agent)
    (tr : List (Fired (Key → Value) (Agent × Action))) : List Action :=
  tr.filterMap fun f => if f.label.1 = i then some f.label.2 else none

variable {sys : System (Key → Value) Action} {frame : Set Key}

/-- What all actions of a run spare, the run spares. -/
theorem Run.spared {s s' : Key → Value} {tr : List (Fired (Key → Value) Action)}
    (h : sys.Run s tr s') (hspares : ∀ f ∈ tr, sys.Spares frame f.label) :
    Set.EqOn s s' frame := by
  induction h with
  | nil => exact Set.eqOn_refl _ _
  | snoc _ hstep ih =>
    have hbefore := ih fun f hf => hspares f (List.mem_append_left _ hf)
    exact hbefore.trans (hspares _ (List.mem_append_right _ (List.mem_singleton_self _)) _ _ hstep)

theorem Run.append {s s' s'' : Key → Value} {tr tr' : List (Fired (Key → Value) Action)}
    (h : sys.Run s tr s') (h' : sys.Run s' tr' s'') : sys.Run s (tr ++ tr') s'' := by
  induction h' with
  | nil => simpa using h
  | snoc _ hstep ih =>
    rw [← List.append_assoc]
    exact ih.snoc hstep

section agents

variable [DecidableEq Agent] {tr : List (Fired (Key → Value) (Agent × Action))}

theorem mem_actionsOf {i : Agent} {a : Action} (h : a ∈ actionsOf i tr) :
    ∃ f ∈ tr, f.label = (i, a) := by
  obtain ⟨f, hf, hfa⟩ := List.mem_filterMap.mp h
  by_cases hi : f.label.1 = i
  · rw [if_pos hi] at hfa
    cases hfa
    exact ⟨f, hf, Prod.ext hi rfl⟩
  · rw [if_neg hi] at hfa
    cases hfa

/-- An agent may be the only one. -/
theorem Run.by_one {s s' : Key → Value} {tr : List (Fired (Key → Value) Action)} (i : Agent)
    (h : sys.Run s tr s') : ∃ tr', (together sys).Run s tr' s' ∧
      actionsOf i tr' = tr.map Fired.label := by
  induction h with
  | nil => exact ⟨[], .nil, rfl⟩
  | @snoc s₁ s₂ tr a _ hstep ih =>
    obtain ⟨tr', hrun, hactions⟩ := ih
    refine ⟨_, hrun.snoc (l := (i, a)) hstep, ?_⟩
    unfold actionsOf at hactions ⊢
    rw [List.filterMap_append, hactions]
    simp

/-- **Frame rule.** An agent whose actions are local to a frame that the
    others spare can do the same actions alone, with the same effect there. -/
theorem Run.alone {i : Agent} {s s' t : Key → Value} (h : (together sys).Run s tr s')
    (hown : ∀ f ∈ tr, f.label.1 = i → sys.Local frame f.label.2)
    (hothers : ∀ f ∈ tr, f.label.1 ≠ i → sys.Spares frame f.label.2)
    (hs : Set.EqOn s t frame) :
    ∃ tr' t', sys.Run t tr' t' ∧ tr'.map Fired.label = actionsOf i tr ∧
      Set.EqOn s' t' frame := by
  induction h with
  | nil => exact ⟨[], t, .nil, rfl, hs⟩
  | @snoc s₁ s₂ tr l _ hstep ih =>
    obtain ⟨tr', t₁, hrun, hlabels, hagree⟩ :=
      ih (fun f hf => hown f (List.mem_append_left _ hf))
        (fun f hf => hothers f (List.mem_append_left _ hf))
    unfold actionsOf at hlabels ⊢
    rw [List.filterMap_append, ← hlabels]
    by_cases hi : l.1 = i
    · obtain ⟨t₂, hstep', hagree'⟩ := hown ⟨s₁, l, s₂⟩ (by simp) hi _ _ _ hstep hagree
      refine ⟨_, t₂, hrun.snoc hstep', ?_, hagree'⟩
      simp [hi]
    · -- the step of another agent: nothing happens in the run alone
      have hspared := hothers ⟨s₁, l, s₂⟩ (by simp) hi _ _ hstep
      refine ⟨tr', t₁, hrun, by simp [hi], hspared.symm.trans hagree⟩

/-- What the other agents do, taken out of a run, spares the frame of an agent. -/
theorem Run.spared_by_others {frames : Agent → Set Key} {i : Agent} {t t' : Key → Value}
    {tr' : List (Fired (Key → Value) Action)} (h : sys.Run t tr' t')
    (hothers : ∀ f ∈ tr, ∀ i, f.label.1 ≠ i → sys.Spares (frames i) f.label.2)
    (hlabels : ∀ f ∈ tr', ∃ j, j ≠ i ∧ f.label ∈ actionsOf j tr) :
    Set.EqOn t t' (frames i) := by
  refine h.spared ?_
  intro f hf
  obtain ⟨j, hji, hfj⟩ := hlabels f hf
  obtain ⟨g, hg, hlabel⟩ := mem_actionsOf hfj
  have hspares := hothers g hg i (by rw [hlabel]; exact hji)
  rwa [hlabel] at hspares

/-- **Serial rule.** If the actions of every agent are local to its frame and
    spare the frames of the others, the agents can do the same actions one
    after another, in any order, with the same effect on each frame. -/
theorem Run.serial {frames : Agent → Set Key} {s s' : Key → Value}
    (h : (together sys).Run s tr s')
    (hown : ∀ f ∈ tr, sys.Local (frames f.label.1) f.label.2)
    (hothers : ∀ f ∈ tr, ∀ i, f.label.1 ≠ i → sys.Spares (frames i) f.label.2)
    (order : List Agent) (hnodup : order.Nodup) :
    ∃ tr' t', sys.Run s tr' t' ∧
      tr'.map Fired.label = order.flatMap (fun i => actionsOf i tr) ∧
      ∀ i ∈ order, Set.EqOn s' t' (frames i) := by
  -- on the agents in their order: the last one begins where the others end
  induction order using List.reverseRecOn with
  | nil => exact ⟨[], s, .nil, rfl, by simp⟩
  | append_singleton order i ih =>
    obtain ⟨hnodup', _, hnotin⟩ := List.nodup_append.mp hnodup
    obtain ⟨tr₁, t₁, hrun₁, hlabels₁, hagree₁⟩ := ih hnodup'
    have hspared : Set.EqOn s t₁ (frames i) := by
      refine hrun₁.spared_by_others hothers ?_
      intro f hf
      have hmem : f.label ∈ order.flatMap fun j => actionsOf j tr :=
        hlabels₁ ▸ List.mem_map_of_mem hf
      obtain ⟨j, hj, hfj⟩ := List.mem_flatMap.mp hmem
      exact ⟨j, hnotin j hj i (List.mem_singleton_self i), hfj⟩
    obtain ⟨tr₂, t₂, hrun₂, hlabels₂, hagree₂⟩ := h.alone (i := i)
      (fun f hf hi => hi ▸ hown f hf) (fun f hf hi => hothers f hf i hi) hspared
    refine ⟨tr₁ ++ tr₂, t₂, hrun₁.append hrun₂, ?_, ?_⟩
    · rw [List.map_append, hlabels₁, hlabels₂, List.flatMap_append]
      simp
    · intro j hj
      rcases List.mem_append.mp hj with hj | hj
      · -- what the last agent does spares the frame of the agent `j`
        have hji := hnotin j hj i (List.mem_singleton_self i)
        have hkeep : Set.EqOn t₁ t₂ (frames j) :=
          hrun₂.spared_by_others hothers fun f hf =>
            ⟨i, hji.symm, hlabels₂ ▸ List.mem_map_of_mem hf⟩
        exact (hagree₁ j hj).trans hkeep
      · rw [List.mem_singleton.mp hj]
        exact hagree₂

end agents

end System

end Transition
