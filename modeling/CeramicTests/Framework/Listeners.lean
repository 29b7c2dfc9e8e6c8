import Mathlib.Data.List.Infix

/-! # A source of messages and its listeners

    Listeners are registered with a source. While the source is open, it
    calls every registered listener for each message, in the order of their
    registration; once closed, it never delivers again. A listener may be
    registered many times. `σ` is the state that the listeners act on.

    What a history of such a system says is often about moments: a message
    counts if something holds of what came before it. `HappensWhen` is that
    relation, with the rule for a history that grows by one event.
-/

namespace Framework

universe u v

/-! ## Section 1: The source -/

structure Source (D : Type u) (σ : Type v) where
  isOpen : Bool
  listeners : List (D → σ → σ)

namespace Source

variable {D : Type u} {σ : Type v}

/-- A new connection, to which nobody listens. -/
def opened : Source D σ := ⟨true, []⟩

/-- There is no way back. -/
def close (source : Source D σ) : Source D σ := { source with isOpen := false }

def addEventListener (source : Source D σ) (listener : D → σ → σ) : Source D σ :=
  { source with listeners := source.listeners ++ [listener] }

/-- What a message does to the state. -/
def emit (source : Source D σ) (data : D) (s : σ) : σ :=
  if source.isOpen then source.listeners.foldl (fun s listener => listener data s) s else s

@[simp] theorem close_isOpen (source : Source D σ) : source.close.isOpen = false := rfl

@[simp] theorem close_listeners (source : Source D σ) :
    source.close.listeners = source.listeners := rfl

@[simp] theorem addEventListener_isOpen (source : Source D σ) (listener : D → σ → σ) :
    (source.addEventListener listener).isOpen = source.isOpen := rfl

@[simp] theorem addEventListener_listeners (source : Source D σ) (listener : D → σ → σ) :
    (source.addEventListener listener).listeners = source.listeners ++ [listener] := rfl

theorem emit_of_closed {source : Source D σ} (h : source.isOpen = false) (data : D) (s : σ) :
    source.emit data s = s := by
  unfold emit
  simp [h]

section same
variable {listener : D → σ → σ}
  (hidem : ∀ data s, listener data (listener data s) = listener data s)
include hidem

/-- Further calls of an idempotent listener change nothing. -/
theorem foldl_same {listeners : List (D → σ → σ)} (hsame : ∀ l ∈ listeners, l = listener)
    (data : D) (s : σ) :
    listeners.foldl (fun s l => l data s) (listener data s) = listener data s := by
  induction listeners with
  | nil => rfl
  | cons l listeners ih =>
    rw [List.foldl_cons, hsame l (List.mem_cons_self ..), hidem]
    exact ih fun l h => hsame l (List.mem_cons_of_mem _ h)

/-- It makes no difference how often an idempotent listener is registered,
    if it is registered at all. -/
theorem emit_of_same {source : Source D σ} (hopen : source.isOpen = true)
    (hne : source.listeners ≠ []) (hsame : ∀ l ∈ source.listeners, l = listener) (data : D)
    (s : σ) : source.emit data s = listener data s := by
  obtain ⟨first, rest, hl⟩ := List.exists_cons_of_ne_nil hne
  rw [hl] at hsame
  unfold emit
  rw [if_pos hopen, hl, List.foldl_cons, hsame first (List.mem_cons_self ..)]
  exact foldl_same hidem (fun l h => hsame l (List.mem_cons_of_mem _ h)) data s

end same

end Source

/-! ## Section 2: Moments of a history -/

/-- `x` happens at a moment when `P` holds of what came before. -/
def HappensWhen {α : Type u} (P : List α → Prop) (history : List α) (x : α) : Prop :=
  ∃ before after, history = before ++ x :: after ∧ P before

namespace HappensWhen

variable {α : Type u} {P Q : List α → Prop} {history : List α} {x y : α}

theorem not_nil : ¬ HappensWhen P [] x := by
  intro ⟨before, after, h, _⟩
  simp at h

theorem imp (hPQ : ∀ before, P before → Q before) (h : HappensWhen P history x) :
    HappensWhen Q history x := by
  obtain ⟨before, after, hsplit, hP⟩ := h
  exact ⟨before, after, hsplit, hPQ before hP⟩

/-- The last event of a history, or one before it. -/
theorem concat_iff :
    HappensWhen P (history ++ [y]) x ↔ HappensWhen P history x ∨ (y = x ∧ P history) := by
  constructor
  · intro ⟨before, after, hsplit, hP⟩
    rcases List.eq_nil_or_concat after with rfl | ⟨after, z, rfl⟩
    · obtain ⟨rfl, hlast⟩ := List.append_inj' hsplit rfl
      exact Or.inr ⟨List.singleton_inj.mp hlast, hP⟩
    · left
      rw [List.concat_eq_append, ← List.cons_append, ← List.append_assoc] at hsplit
      obtain ⟨rfl, _⟩ := List.append_inj' hsplit rfl
      exact ⟨before, after, rfl, hP⟩
  · rintro (⟨before, after, rfl, hP⟩ | ⟨rfl, hP⟩)
    · exact ⟨before, after ++ [y], by simp, hP⟩
    · exact ⟨history, [], rfl, hP⟩

end HappensWhen

end Framework
