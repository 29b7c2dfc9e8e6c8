import CeramicTests.Framework.Portions
import CeramicTests.Hermetic.Watch
import Mathlib.Algebra.BigOperators.Fin
import Mathlib.Algebra.Order.BigOperators.Group.Finset
import Mathlib.Data.Real.Basic
import Mathlib.Tactic.NormNum

/-! # The budget of the watch loop

    `loop_with_max_timeout` pays each round from its budget, with the timeout
    that it gives to the round. A round may be shorter than that: the server
    can end a watch at any time. So the time that passes is the budget only
    if every watch lasts as long as it may.

    - Section 1: what the rounds are given
    - Section 2: loops that give up
    - Section 3: the time that passes
-/

namespace Hermetic

open Finset Framework

variable {R : Type} {timeout_seconds max_timeout : UInt32}
  {f : Nat → UInt32 → Except String (Option R)}

/-! ## Section 1: What the rounds are given -/

/-- What is left of the budget is paid out in portions. -/
theorem scheduleFrom_toNat (hmax : 0 < max_timeout) (fuel : Nat) :
    ∀ total_time : UInt32, timeout_seconds.toNat - total_time.toNat < fuel →
      (scheduleFrom timeout_seconds max_timeout fuel total_time).map UInt32.toNat =
        portions max_timeout.toNat (timeout_seconds.toNat - total_time.toNat) := by
  have hpos : 0 < max_timeout.toNat := UInt32.lt_iff_toNat_lt.mp hmax
  induction fuel with
  | zero =>
    intro total_time h
    omega
  | succ fuel ih =>
    intro total_time h
    unfold scheduleFrom
    by_cases hlt : total_time < timeout_seconds
    · have hround : (roundTimeout timeout_seconds max_timeout total_time).toNat = _ :=
        roundTimeout_toNat hlt
      have hadd : (total_time + roundTimeout timeout_seconds max_timeout total_time).toNat = _ :=
        add_roundTimeout_toNat hlt
      have hlt' := UInt32.lt_iff_toNat_lt.mp hlt
      have hrest := ih (total_time + roundTimeout timeout_seconds max_timeout total_time) (by omega)
      rw [hadd, Nat.sub_add_eq] at hrest
      rw [portions_cons hpos (by omega)]
      simp only [if_pos hlt, List.map_cons, hrest, hround]
    · have hge : ¬ total_time.toNat < timeout_seconds.toNat :=
        fun hlt' => hlt (UInt32.lt_iff_toNat_lt.mpr hlt')
      rw [if_neg hlt, Nat.sub_eq_zero_of_le (Nat.le_of_not_lt hge), portions_zero]
      rfl

/-- **The portions.** The rounds of the schedule are the portions of the
    budget. -/
theorem schedule_toNat (hmax : 0 < max_timeout) :
    (schedule timeout_seconds max_timeout).map UInt32.toNat =
      portions max_timeout.toNat timeout_seconds.toNat := by
  unfold schedule
  rw [scheduleFrom_toNat hmax _ 0 (by simp)]
  simp

/-- **The budget.** The timeouts of all rounds add up to `timeout_seconds`. -/
theorem schedule_sum (hmax : 0 < max_timeout) :
    ((schedule timeout_seconds max_timeout).map UInt32.toNat).sum = timeout_seconds.toNat := by
  rw [schedule_toNat hmax]
  exact portions_sum

/-! ## Section 2: Loops that give up -/

/-- No call has had a result or an error, and the loop has returned its own
    error. -/
structure GaveUp (f : Nat → UInt32 → Except String (Option R)) (run : LoopRun R) : Prop where
  result : run.result = .error "watch timeout exceeded"
  calls : ∀ i timeout, run.granted[i]? = some timeout → f i timeout = .ok none

/-- The rounds of a loop are the first ones of its schedule. If all of them
    have ended without a result, they are the whole schedule. -/
theorem loopFrom_granted {fuel i : Nat} {total_time : UInt32} {run : LoopRun R}
    (h : loopFrom timeout_seconds max_timeout f fuel i total_time = some run) :
    run.granted <+: scheduleFrom timeout_seconds max_timeout fuel total_time ∧
    ((∀ j timeout, run.granted[j]? = some timeout → f (i + j) timeout = .ok none) →
      run.granted = scheduleFrom timeout_seconds max_timeout fuel total_time ∧
      run.result = .error "watch timeout exceeded") := by
  induction fuel generalizing i total_time run with
  | zero => cases h
  | succ fuel ih =>
    unfold scheduleFrom
    rcases loopFrom_cases h with ⟨hge, rfl⟩ | ⟨t, rfl, hlt, hcall⟩
    · rw [if_neg hge]
      exact ⟨List.nil_prefix, fun _ => ⟨rfl, rfl⟩⟩
    · rw [if_pos hlt]
      -- a round that has a result or an error is the last one
      have hlast : ∀ outcome, f i (roundTimeout timeout_seconds max_timeout total_time) = outcome →
          outcome ≠ .ok none → ¬ ∀ j timeout,
            [roundTimeout timeout_seconds max_timeout total_time][j]? = some timeout →
              f (i + j) timeout = .ok none := by
        intro outcome hf hne hnone
        exact hne (hf.symm.trans (hnone 0 _ rfl))
      rcases hcall with ⟨err, hf, rfl⟩ | ⟨r, hf, rfl⟩ | ⟨hf, rest, hrest, rfl⟩
      · exact ⟨by simp, fun hnone => absurd hnone (hlast _ hf (by simp))⟩
      · exact ⟨by simp, fun hnone => absurd hnone (hlast _ hf (by simp))⟩
      · obtain ⟨hpre, hall⟩ := ih hrest
        refine ⟨List.cons_prefix_cons.mpr ⟨rfl, hpre⟩, ?_⟩
        intro hnone
        have hothers : ∀ j timeout, rest.granted[j]? = some timeout →
            f (i + 1 + j) timeout = .ok none := by
          intro j timeout hj
          rw [show i + 1 + j = i + (j + 1) by omega]
          exact hnone (j + 1) timeout hj
        obtain ⟨hgranted, hresult⟩ := hall hothers
        exact ⟨congrArg _ hgranted, hresult⟩

/-- A loop gives up if and only if every call of its schedule would end
    without a result. -/
theorem gaveUp_iff {run : LoopRun R}
    (h : loop_with_max_timeout timeout_seconds max_timeout f = some run) :
    GaveUp f run ↔ ∀ i timeout, (schedule timeout_seconds max_timeout)[i]? = some timeout →
      f i timeout = .ok none := by
  obtain ⟨hpre, hall⟩ := loopFrom_granted h
  simp only [Nat.zero_add] at hall
  constructor
  · intro hgave
    obtain ⟨hgranted, _⟩ := hall hgave.calls
    intro i timeout hi
    apply hgave.calls
    rw [hgranted]
    exact hi
  · intro hnone
    have hcalls : ∀ i timeout, run.granted[i]? = some timeout → f i timeout = .ok none := by
      intro i timeout hi
      apply hnone
      obtain ⟨hlt, rfl⟩ := List.getElem?_eq_some_iff.mp hi
      exact List.prefix_iff_getElem?.mp hpre i hlt
    exact ⟨(hall hcalls).2, hcalls⟩

/-- A loop that gives up has given every round its timeout. -/
theorem GaveUp.granted {run : LoopRun R}
    (h : loop_with_max_timeout timeout_seconds max_timeout f = some run) (hgave : GaveUp f run) :
    run.granted = schedule timeout_seconds max_timeout := by
  have hall := (loopFrom_granted h).2
  simp only [Nat.zero_add] at hall
  exact (hall hgave.calls).1

/-! ## Section 3: The time that passes -/

/-- The time since the start of the loop, when its `i`-th round has lasted
    `duration i` seconds. -/
noncomputable def elapsed (duration : Nat → ℝ) (run : LoopRun R) : ℝ :=
  ∑ i ∈ range run.granted.length, duration i

/-- If no call has a result, every watch of the loop lasts until its timeout. -/
def LastsIfAllEmpty (f : Nat → UInt32 → Except String (Option R)) (duration : Nat → ℝ)
    (timeouts : List UInt32) : Prop :=
  (∀ i timeout, timeouts[i]? = some timeout → f i timeout = .ok none) →
    ∀ i timeout, timeouts[i]? = some timeout → duration i = timeout.toNat

theorem sum_toNat (timeouts : List UInt32) :
    ∑ i ∈ range timeouts.length, ((timeouts.getD i 0).toNat : ℝ) =
      ((timeouts.map UInt32.toNat).sum : Nat) := by
  induction timeouts with
  | nil => simp
  | cons timeout timeouts ih =>
    rw [List.length_cons, sum_range_succ', List.map_cons, List.sum_cons]
    simp only [List.getD_cons_succ, List.getD_cons_zero, ih]
    push_cast
    exact add_comm _ _

/-- Watches that last no longer than they may last for the whole budget only
    if each of them lasts as long as it may. -/
theorem budget_le_iff (hmax : 0 < max_timeout) {duration : Nat → ℝ}
    (hduration : ∀ i timeout, (schedule timeout_seconds max_timeout)[i]? = some timeout →
      duration i ≤ timeout.toNat) :
    (timeout_seconds.toNat : ℝ) ≤
        ∑ i ∈ range (schedule timeout_seconds max_timeout).length, duration i ↔
      ∀ i timeout, (schedule timeout_seconds max_timeout)[i]? = some timeout →
        duration i = timeout.toNat := by
  have hbudget := sum_toNat (schedule timeout_seconds max_timeout)
  rw [schedule_sum hmax] at hbudget
  have hle : ∀ i ∈ range (schedule timeout_seconds max_timeout).length,
      duration i ≤ ((schedule timeout_seconds max_timeout).getD i 0).toNat := by
    intro i hi
    have hget := List.getElem?_eq_getElem (mem_range.mp hi)
    rw [List.getD_eq_getElem?_getD, hget]
    exact hduration i _ hget
  have hsum := sum_le_sum hle
  rw [hbudget] at hsum
  have hall := sum_eq_sum_iff_of_le hle
  rw [hbudget] at hall
  constructor
  · intro hpassed i timeout hi
    obtain ⟨hlt, _⟩ := List.getElem?_eq_some_iff.mp hi
    have heq := hall.mp (le_antisymm hsum hpassed) i (mem_range.mpr hlt)
    rw [heq, List.getD_eq_getElem?_getD, hi]
    rfl
  · intro hlasts
    apply le_of_eq
    apply Eq.symm
    apply hall.mpr
    intro i hi
    have hget := List.getElem?_eq_getElem (mem_range.mp hi)
    rw [List.getD_eq_getElem?_getD, hget]
    exact hlasts i _ hget

variable (timeout_seconds max_timeout f) in
/-- **Giving up in time.** The loop returns. It gives up only after
    `timeout_seconds` have passed, if and only if each watch lasts until its
    timeout, or some call within the budget has a result or an error. -/
theorem gives_up_in_time_iff (hmax : 1 ≤ max_timeout) (duration : Nat → ℝ)
    (hduration : ∀ i timeout, (schedule timeout_seconds max_timeout)[i]? = some timeout →
      duration i ≤ timeout.toNat) :
    ∃ run, loop_with_max_timeout timeout_seconds max_timeout f = some run ∧
      ((GaveUp f run → (timeout_seconds.toNat : ℝ) ≤ elapsed duration run) ↔
        LastsIfAllEmpty f duration (schedule timeout_seconds max_timeout)) := by
  have hpos : 0 < max_timeout := by
    rw [UInt32.lt_iff_toNat_lt]
    exact UInt32.le_iff_toNat_le.mp hmax
  obtain ⟨run, hrun⟩ : ∃ run, loop_with_max_timeout timeout_seconds max_timeout f = some run :=
    loop_with_max_timeout_ends hpos
  refine ⟨run, hrun, ?_⟩
  unfold LastsIfAllEmpty
  rw [← gaveUp_iff hrun]
  apply imp_congr_right
  intro hgave
  unfold elapsed
  rw [hgave.granted hrun]
  exact budget_le_iff hpos hduration

/-! ### Watches that show nothing -/

section noEvents

private def noResult : Nat → UInt32 → Except String (Option Unit) := fun _ _ => .ok none

/-- A budget of 580 s pays for two watches, which both last until the end. -/
theorem gives_up_after_two_watches :
    ∃ run, loop_with_max_timeout 580 MAX_KUBE_WATCH_TIMEOUT noResult = some run ∧
      (GaveUp noResult run → (580 : ℝ) ≤ elapsed (fun _ => 290) run) := by
  have hschedule : schedule 580 MAX_KUBE_WATCH_TIMEOUT = [290, 290] := by decide
  have hlasts : ∀ (i : Nat) (timeout : UInt32),
      (schedule 580 MAX_KUBE_WATCH_TIMEOUT)[i]? = some timeout → (290 : ℝ) = timeout.toNat := by
    intro i timeout hi
    rw [hschedule] at hi
    have hmem : timeout ∈ ([290, 290] : List UInt32) := List.mem_of_getElem? hi
    simp only [List.mem_cons, List.not_mem_nil, or_false, or_self] at hmem
    subst hmem
    have htoNat : UInt32.toNat 290 = 290 := by decide
    rw [htoNat]
    norm_num
  obtain ⟨run, hrun, hiff⟩ := gives_up_in_time_iff 580 MAX_KUBE_WATCH_TIMEOUT noResult (by decide)
    (fun _ => 290) (fun i timeout hi => le_of_eq (hlasts i timeout hi))
  refine ⟨run, hrun, ?_⟩
  intro hgave
  have hpassed := hiff.mpr (fun _ => hlasts) hgave
  have htoNat : UInt32.toNat 580 = 580 := by decide
  rw [htoNat] at hpassed
  exact_mod_cast hpassed

/-- The server closes the only watch after 5 s. -/
theorem gives_up_after_five_seconds :
    ∃ run, loop_with_max_timeout 290 MAX_KUBE_WATCH_TIMEOUT noResult = some run ∧
      GaveUp noResult run ∧ elapsed (fun _ => 5) run = 5 ∧
      ¬ (290 : ℝ) ≤ elapsed (fun _ => 5) run := by
  have helapsed : elapsed (fun _ => 5)
      (⟨[290], .error "watch timeout exceeded"⟩ : LoopRun Unit) = 5 := by
    unfold elapsed
    simp
  refine ⟨_, loop_single_watch (by decide) (by decide), ⟨rfl, fun _ _ _ => rfl⟩, helapsed, ?_⟩
  show ¬ (290 : ℝ) ≤ elapsed (fun _ => 5)
    (⟨[290], .error "watch timeout exceeded"⟩ : LoopRun Unit)
  rw [helapsed]
  norm_num

end noEvents

end Hermetic
