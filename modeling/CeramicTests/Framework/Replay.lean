import Mathlib.Data.List.Induction

/-! # The last event that counts

    A state that events change one after another, and a view of it that only
    some of the events set. The view of the state in the end is what the last
    of those events has set it to, whatever the others did meanwhile.
-/

namespace Framework

universe u v w

variable {S : Type u} {E : Type v} {V : Type w}

/-- What the last event that sets the view has set it to. -/
def lastSet (sets : E → Option V) (history : List E) : Option V :=
  (history.filterMap sets).getLast?

/-- The last event of the history that sets the view. -/
def IsLast (sets : E → Option V) (history : List E) (e : E) : Prop :=
  (sets e).isSome = true ∧
    ∃ before after, history = before ++ e :: after ∧ ∀ e' ∈ after, sets e' = none

section last

variable {sets : E → Option V} {history : List E} {e : E} {v : V}

theorem lastSet_snoc : lastSet sets (history ++ [e]) = (sets e).or (lastSet sets history) := by
  unfold lastSet
  rw [List.filterMap_append, List.getLast?_append]
  cases h : sets e <;> simp [h]

theorem IsLast.snoc (h : IsLast sets history e) {e' : E} (hnone : sets e' = none) :
    IsLast sets (history ++ [e']) e := by
  obtain ⟨hsome, before, after, rfl, hafter⟩ := h
  refine ⟨hsome, before, after ++ [e'], by simp, ?_⟩
  intro e'' hmem
  rcases List.mem_append.mp hmem with hmem | hmem
  · exact hafter e'' hmem
  · rw [List.mem_singleton.mp hmem]
    exact hnone

theorem isLast_of_last (h : sets e = some v) : IsLast sets (history ++ [e]) e :=
  ⟨by rw [h]; rfl, history, [], rfl, by simp⟩

theorem lastSet_of_isLast (h : IsLast sets history e) : lastSet sets history = sets e := by
  obtain ⟨hsome, before, after, rfl, hafter⟩ := h
  obtain ⟨v, hv⟩ := Option.isSome_iff_exists.mp hsome
  have hnothing : after.filterMap sets = [] := List.filterMap_eq_nil_iff.mpr hafter
  unfold lastSet
  rw [List.filterMap_append, List.filterMap_cons_some hv, hnothing, List.getLast?_concat, hv]

theorem lastSet_eq_some_iff :
    lastSet sets history = some v ↔ ∃ e, IsLast sets history e ∧ sets e = some v := by
  constructor
  · intro h
    induction history using List.reverseRecOn with
    | nil => cases h
    | append_singleton history e ih =>
      rw [lastSet_snoc] at h
      cases hset : sets e with
      | none =>
        rw [hset] at h
        obtain ⟨e', hlast, hv⟩ := ih h
        exact ⟨e', hlast.snoc hset, hv⟩
      | some v' =>
        rw [hset] at h
        exact ⟨e, isLast_of_last hset, hset.trans h⟩
  · intro ⟨e, hlast, hv⟩
    rw [lastSet_of_isLast hlast, hv]

theorem lastSet_eq_none_iff : lastSet sets history = none ↔ ∀ e ∈ history, sets e = none := by
  unfold lastSet
  rw [List.getLast?_eq_none_iff, List.filterMap_eq_nil_iff]

/-- **Last event.** If each event either sets the view or leaves it, then the
    last one that sets it decides. -/
theorem view_foldl {step : S → E → S} {view : S → V}
    (hstep : ∀ s e, view (step s e) = (sets e).getD (view s)) (s : S) :
    view (history.foldl step s) = (lastSet sets history).getD (view s) := by
  induction history using List.reverseRecOn with
  | nil => rfl
  | append_singleton history e ih =>
    rw [List.foldl_append, List.foldl_cons, List.foldl_nil, hstep, ih, lastSet_snoc]
    cases sets e <;> rfl

/-- The view in the end, by the event that decides it. -/
theorem view_foldl_eq_iff {step : S → E → S} {view : S → V}
    (hstep : ∀ s e, view (step s e) = (sets e).getD (view s)) (s : S) :
    view (history.foldl step s) = v ↔ (∃ e, IsLast sets history e ∧ sets e = some v) ∨
      (∀ e ∈ history, sets e = none) ∧ view s = v := by
  rw [view_foldl hstep, ← lastSet_eq_some_iff, ← lastSet_eq_none_iff]
  cases lastSet sets history <;> simp

end last

end Framework
