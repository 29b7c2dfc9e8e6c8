import Mathlib.Data.List.Perm.Basic

/-! # Calls that run at the same time

    Several calls are started together, and each makes its requests one after
    another. `Interleaves calls order` says that the requests of all `calls`
    can be made in this `order`. Each request is made once, and each call
    makes its own in their order, whatever the others do.
-/

namespace Framework

universe u

variable {α : Type u}

inductive Interleaves : List (List α) → List α → Prop
  | done {calls : List (List α)} : (∀ call ∈ calls, call = []) → Interleaves calls []
  | next (before : List (List α)) {after : List (List α)} {call order : List α} {a : α} :
      Interleaves (before ++ call :: after) order →
      Interleaves (before ++ (a :: call) :: after) (a :: order)

namespace Interleaves

variable {calls : List (List α)} {order : List α}

/-- A call without requests has nothing to do. -/
theorem idle (h : Interleaves calls order) : Interleaves ([] :: calls) order := by
  induction h with
  | done hdone =>
    refine .done ?_
    intro call hcall
    rcases List.mem_cons.mp hcall with hnil | hcall
    · exact hnil
    · exact hdone call hcall
  | @next before after call order a _ ih => exact .next ([] :: before) ih

/-- One call after another. -/
theorem one_by_one (calls : List (List α)) : Interleaves calls calls.flatten := by
  induction calls with
  | nil => exact .done fun call hcall => by cases hcall
  | cons call calls ih =>
    induction call with
    | nil => exact ih.idle
    | cons a call ihcall => exact .next [] ihcall

theorem perm (h : Interleaves calls order) : order.Perm calls.flatten := by
  induction h with
  | done hdone => rw [List.flatten_eq_nil_iff.mpr hdone]
  | @next before after call order a _ ih =>
    have hmiddle : (a :: (before.flatten ++ (call ++ after.flatten))).Perm
        (before.flatten ++ a :: (call ++ after.flatten)) := List.perm_middle.symm
    simp only [List.flatten_append, List.flatten_cons, List.cons_append] at ih ⊢
    exact (ih.cons a).trans hmiddle

/-- Each call makes its requests in their order. -/
theorem sublist (h : Interleaves calls order) : ∀ call ∈ calls, call.Sublist order := by
  induction h with
  | done hdone =>
    intro call hcall
    rw [hdone call hcall]
  | @next before after call order a _ ih =>
    intro call' hcall'
    have hothers : call' ∈ before ++ call :: after → call'.Sublist (a :: order) := by
      intro hmem
      exact (ih call' hmem).cons a
    rcases List.mem_append.mp hcall' with hmem | hmem
    · exact hothers (List.mem_append_left _ hmem)
    · rcases List.mem_cons.mp hmem with hthis | hmem
      · -- the call that makes the request
        rw [hthis]
        exact (ih call (by simp)).cons_cons a
      · exact hothers (List.mem_append_right _ (List.mem_cons_of_mem _ hmem))

end Interleaves

end Framework
