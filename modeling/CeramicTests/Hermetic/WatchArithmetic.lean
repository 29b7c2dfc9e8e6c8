import CeramicTests.Hermetic.WatchBudget

/-! # The arithmetic of the watch loop

    `loop_with_max_timeout` subtracts and adds `u32`. In a release build an
    operation that leaves their range wraps; in a debug build it panics. The
    loop of a debug build is therefore the one to look at: if it never
    panics, no operation wraps, and both builds do the same.

    - Section 1: the loop of a debug build
    - Section 2: the calls that are made
    - Section 3: how the budget is spent
-/

namespace Hermetic

open Framework

variable {R : Type} {timeout_seconds max_timeout : UInt32}
  {f : Nat → UInt32 → Except String (Option R)}

/-! ## Section 1: The loop of a debug build -/

/-- `a - b`, or nothing where it would wrap. -/
def checked_sub (a b : UInt32) : Option UInt32 :=
  if b.toNat ≤ a.toNat then some (a - b) else none

/-- `a + b`, or nothing where it would wrap. -/
def checked_add (a b : UInt32) : Option UInt32 :=
  if a.toNat + b.toNat < UInt32.size then some (a + b) else none

/-- How a debug build leaves the loop. -/
inductive DebugRun (R : Type) where
  | panicked
  | returned (run : LoopRun R)

/-- A call of `f` with `timeout` before the rest of a loop. -/
def DebugRun.after (timeout : UInt32) : DebugRun R → DebugRun R
  | .panicked => .panicked
  | .returned run => .returned (run.after timeout)

/-- `loopFrom`, in a debug build. -/
def debugLoopFrom (timeout_seconds max_timeout : UInt32)
    (f : Nat → UInt32 → Except String (Option R)) : Nat → Nat → UInt32 → Option (DebugRun R)
  | 0, _, _ => none
  | fuel + 1, i, total_time =>
    if total_time < timeout_seconds then
      match checked_sub timeout_seconds total_time with
      | none => some .panicked
      | some left =>
        let timeout := min left max_timeout
        match f i timeout with
        | .error err => some (.returned ⟨[timeout], .error err⟩)
        | .ok (some result) => some (.returned ⟨[timeout], .ok result⟩)
        | .ok none =>
          match checked_add total_time timeout with
          | none => some .panicked
          | some total_time =>
            (debugLoopFrom timeout_seconds max_timeout f fuel (i + 1) total_time).map
              (DebugRun.after timeout)
    else some (.returned ⟨[], .error "watch timeout exceeded"⟩)

/-- `loop_with_max_timeout`, in a debug build. -/
def debug_loop_with_max_timeout (timeout_seconds max_timeout : UInt32)
    (f : Nat → UInt32 → Except String (Option R)) : Option (DebugRun R) :=
  debugLoopFrom timeout_seconds max_timeout f (timeout_seconds.toNat + 1) 0 0

section round
variable {total_time : UInt32}

theorem checked_sub_of_lt (h : total_time < timeout_seconds) :
    checked_sub timeout_seconds total_time = some (timeout_seconds - total_time) :=
  if_pos (Nat.le_of_lt (UInt32.lt_iff_toNat_lt.mp h))

/-- What has been spent after a round is no more than the budget. -/
theorem checked_add_of_lt (h : total_time < timeout_seconds) :
    checked_add total_time (roundTimeout timeout_seconds max_timeout total_time) =
      some (total_time + roundTimeout timeout_seconds max_timeout total_time) := by
  have hlt := UInt32.lt_iff_toNat_lt.mp h
  have hbound : timeout_seconds.toNat < UInt32.size := timeout_seconds.toNat_lt
  apply if_pos
  rw [roundTimeout_toNat h]
  omega

end round

/-- A debug build never panics. -/
theorem debugLoopFrom_eq (fuel i : Nat) (total_time : UInt32) :
    debugLoopFrom timeout_seconds max_timeout f fuel i total_time =
      (loopFrom timeout_seconds max_timeout f fuel i total_time).map .returned := by
  induction fuel generalizing i total_time with
  | zero => rfl
  | succ fuel ih =>
    unfold debugLoopFrom loopFrom
    by_cases hlt : total_time < timeout_seconds
    · have hround : min (timeout_seconds - total_time) max_timeout =
        roundTimeout timeout_seconds max_timeout total_time := rfl
      simp only [if_pos hlt, checked_sub_of_lt hlt, hround]
      cases f i (roundTimeout timeout_seconds max_timeout total_time) with
      | error err => rfl
      | ok o =>
        cases o with
        | some result => rfl
        | none =>
          simp only [checked_add_of_lt hlt, ih, Option.map_map]
          rfl
    · rw [if_neg hlt, if_neg hlt]
      rfl

/-! ## Section 2: The calls that are made -/

/-- A call that has a result or an error is the last one. -/
theorem loopFrom_last {fuel i : Nat} {total_time : UInt32} {run : LoopRun R}
    (h : loopFrom timeout_seconds max_timeout f fuel i total_time = some run) :
    ∀ j timeout, run.granted[j]? = some timeout → f (i + j) timeout ≠ .ok none →
      run.granted.length = j + 1 := by
  induction fuel generalizing i total_time run with
  | zero => cases h
  | succ fuel ih =>
    intro j timeout hj hcall
    rcases loopFrom_cases h with ⟨_, rfl⟩ | ⟨t, _, _, ⟨err, hf, rfl⟩ | ⟨r, hf, rfl⟩ |
      ⟨hf, rest, hrest, rfl⟩⟩
    · cases hj
    · obtain ⟨rfl, _⟩ := only_call hj
      rfl
    · obtain ⟨rfl, _⟩ := only_call hj
      rfl
    · cases j with
      | zero =>
        obtain rfl := Option.some.inj hj
        exact absurd hf hcall
      | succ j =>
        have hlast := ih hrest j timeout hj (by rwa [show i + 1 + j = i + (j + 1) by omega])
        show rest.granted.length + 1 = j + 1 + 1
        rw [hlast]

/-- Every call is given a portion of the budget. -/
theorem granted_bounds (hmax : 0 < max_timeout) {run : LoopRun R}
    (h : loop_with_max_timeout timeout_seconds max_timeout f = some run) {timeout : UInt32}
    (hmem : timeout ∈ run.granted) : 1 ≤ timeout ∧ timeout ≤ max_timeout := by
  have hschedule : timeout ∈ schedule timeout_seconds max_timeout :=
    (loopFrom_granted h).1.subset hmem
  have hportion : timeout.toNat ∈ portions max_timeout.toNat timeout_seconds.toNat := by
    rw [← schedule_toNat hmax]
    exact List.mem_map_of_mem hschedule
  obtain ⟨hpos, hle⟩ := portions_bounds (UInt32.lt_iff_toNat_lt.mp hmax) hportion
  exact ⟨UInt32.le_iff_toNat_le.mpr hpos, UInt32.le_iff_toNat_le.mpr hle⟩

/-! ## Section 3: How the budget is spent -/

/-- No operation wraps, every call is given a second at least and
    `max_timeout` at most, the first call that has a result or an error is
    the last one and decides, and if there is none the budget is spent
    exactly, by as few calls as possible. -/
structure SpendsBudget (timeout_seconds max_timeout : UInt32)
    (f : Nat → UInt32 → Except String (Option R)) (run : LoopRun R) : Prop where
  no_wrap : debug_loop_with_max_timeout timeout_seconds max_timeout f = some (.returned run)
  granted : ∀ timeout ∈ run.granted, 1 ≤ timeout ∧ timeout ≤ max_timeout
  value : ∀ i timeout r, run.granted[i]? = some timeout → f i timeout = .ok (some r) →
    run.granted.length = i + 1 ∧ run.result = .ok r
  error : ∀ i timeout err, run.granted[i]? = some timeout → f i timeout = .error err →
    run.granted.length = i + 1 ∧ run.result = .error err
  exhausted : (∀ i timeout, run.granted[i]? = some timeout → f i timeout = .ok none) →
    (run.granted.map UInt32.toNat).sum = timeout_seconds.toNat ∧
    run.granted.length = timeout_seconds.toNat ⌈/⌉ max_timeout.toNat ∧
    run.result = .error "watch timeout exceeded"

/-- **The budget is spent exactly.** The loop ends, for every budget and
    whatever the calls return. -/
theorem loop_spends_budget (timeout_seconds max_timeout : UInt32)
    (f : Nat → UInt32 → Except String (Option R)) (hmax : 1 ≤ max_timeout) :
    ∃ run, loop_with_max_timeout timeout_seconds max_timeout f = some run ∧
      SpendsBudget timeout_seconds max_timeout f run := by
  have hpos : 0 < max_timeout := by
    rw [UInt32.lt_iff_toNat_lt]
    exact UInt32.le_iff_toNat_le.mp hmax
  obtain ⟨run, hrun⟩ : ∃ run, loop_with_max_timeout timeout_seconds max_timeout f = some run :=
    loop_with_max_timeout_ends hpos
  have hlast : ∀ i timeout, run.granted[i]? = some timeout → f i timeout ≠ .ok none →
      run.granted.length = i + 1 := by
    intro i timeout hi hcall
    rw [← Nat.zero_add i] at hcall
    exact loopFrom_last hrun i timeout hi hcall
  refine ⟨run, hrun, ?_⟩
  constructor
  case no_wrap =>
    unfold debug_loop_with_max_timeout
    rw [debugLoopFrom_eq]
    exact congrArg (Option.map DebugRun.returned) hrun
  case granted => exact fun timeout hmem => granted_bounds hpos hrun hmem
  case value =>
    intro i timeout r hi hcall
    exact ⟨hlast i timeout hi (by simp [hcall]), loop_result_of_call hrun hi (.ok r) hcall⟩
  case error =>
    intro i timeout err hi hcall
    exact ⟨hlast i timeout hi (by simp [hcall]), loop_result_of_call hrun hi (.error err) hcall⟩
  case exhausted =>
    intro hnone
    have hall := (loopFrom_granted hrun).2
    simp only [Nat.zero_add] at hall
    obtain ⟨hgranted, hresult⟩ := hall hnone
    have hgranted : run.granted = schedule timeout_seconds max_timeout := hgranted
    have hlength : run.granted.length = (run.granted.map UInt32.toNat).length :=
      (List.length_map ..).symm
    rw [hlength, hgranted, schedule_toNat hpos]
    exact ⟨portions_sum, portions_length (UInt32.lt_iff_toNat_lt.mp hpos), hresult⟩

/-- The largest budget, and watches that show nothing. -/
theorem largest_budget_spent :
    ∃ run, loop_with_max_timeout 4294967295 MAX_KUBE_WATCH_TIMEOUT
        (fun _ _ => (.ok none : Except String (Option Unit))) = some run ∧
      SpendsBudget 4294967295 MAX_KUBE_WATCH_TIMEOUT (fun _ _ => .ok none) run :=
  loop_spends_budget 4294967295 MAX_KUBE_WATCH_TIMEOUT (fun _ _ => .ok none) (by decide)

end Hermetic
