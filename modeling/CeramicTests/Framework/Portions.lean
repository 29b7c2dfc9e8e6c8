import Mathlib.Algebra.Order.Floor.Div
import Mathlib.Algebra.BigOperators.Group.List.Basic

/-! # A budget in portions

    A budget is spent in portions of at most `max`: full portions as long as
    there is enough, and then the rest. The portions add up to the budget,
    and there are as few of them as there can be.

    A loop that takes `min budget max` from the budget until nothing is left
    spends these portions (`portions_cons`).
-/

namespace Framework

/-- The portions of a budget, in their order. -/
def portions (max budget : Nat) : List Nat :=
  List.replicate (budget / max) max ++ if budget % max = 0 then [] else [budget % max]

variable {max budget : Nat}

@[simp] theorem portions_zero : portions max 0 = [] := by
  unfold portions
  simp

/-- A budget that one portion can spend. -/
theorem portions_of_lt (hpos : 0 < budget) (hlt : budget < max) : portions max budget = [budget] := by
  unfold portions
  rw [Nat.div_eq_of_lt hlt, Nat.mod_eq_of_lt hlt, if_neg (Nat.ne_of_gt hpos)]
  rfl

/-- A full portion, and the portions of what is left. -/
theorem portions_of_le (hmax : 0 < max) (hle : max ≤ budget) :
    portions max budget = max :: portions max (budget - max) := by
  unfold portions
  rw [Nat.div_eq_sub_div hmax hle, List.replicate_succ, List.cons_append,
    Nat.mod_eq_sub_mod hle]

/-- **One portion.** -/
theorem portions_cons (hmax : 0 < max) (hpos : 0 < budget) :
    portions max budget = min budget max :: portions max (budget - min budget max) := by
  by_cases hle : max ≤ budget
  · rw [Nat.min_eq_right hle]
    exact portions_of_le hmax hle
  · have hlt : budget < max := Nat.lt_of_not_le hle
    rw [Nat.min_eq_left (Nat.le_of_lt hlt), Nat.sub_self, portions_zero]
    exact portions_of_lt hpos hlt

theorem portions_sum : (portions max budget).sum = budget := by
  have hdiv := Nat.div_add_mod' budget max
  unfold portions
  rw [List.sum_append, List.sum_replicate, smul_eq_mul]
  by_cases hmod : budget % max = 0
  · rw [if_pos hmod, List.sum_nil]
    omega
  · rw [if_neg hmod, List.sum_singleton]
    exact hdiv

theorem portions_bounds (hmax : 0 < max) {portion : Nat} (h : portion ∈ portions max budget) :
    0 < portion ∧ portion ≤ max := by
  rcases List.mem_append.mp h with h | h
  · rw [List.eq_of_mem_replicate h]
    exact ⟨hmax, le_rfl⟩
  · by_cases hmod : budget % max = 0
    · rw [if_pos hmod] at h
      cases h
    · rw [if_neg hmod] at h
      rw [List.mem_singleton.mp h]
      exact ⟨Nat.pos_of_ne_zero hmod, Nat.le_of_lt (Nat.mod_lt budget hmax)⟩

/-- The number of portions is the quotient, rounded up. -/
theorem portions_length (hmax : 0 < max) : (portions max budget).length = budget ⌈/⌉ max := by
  have hdiv := Nat.div_add_mod' budget max
  have hlt := Nat.mod_lt budget hmax
  rw [Nat.ceilDiv_eq_add_pred_div]
  unfold portions
  rw [List.length_append, List.length_replicate]
  by_cases hmod : budget % max = 0
  · rw [if_pos hmod, List.length_nil, Nat.add_zero]
    apply Eq.symm
    apply Nat.div_eq_of_lt_le
    · omega
    · rw [Nat.succ_mul]
      omega
  · rw [if_neg hmod, List.length_singleton]
    apply Eq.symm
    apply Nat.div_eq_of_lt_le
    · rw [Nat.succ_mul]
      omega
    · rw [Nat.succ_mul, Nat.succ_mul]
      omega

end Framework
