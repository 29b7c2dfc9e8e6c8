import Mathlib.Data.Nat.Find

/-! # Polling with a deadline

    A loop asks again and again, until an answer decides or its time is up.
    Its rounds are numbered, and the clock is read once in each of them:
    before the attempt of the round (`pollBefore`), or after it
    (`pollAfter`).

    - Section 1: a loop ends in the first round that decides
    - Section 2: the two kinds of rounds
    - Section 3: how many rounds there are
    - Section 4: what a loop cannot miss

    A loop that gives up may still have missed something that was there in
    time. How much depends on the kind: reading the clock before the attempt
    loses the length of a whole round, and reading it afterwards only that of
    the attempt.
-/

namespace Framework

universe u

variable {R : Type u}

/-! ## Section 1: Rounds -/

/-- The rounds from the `n`-th on. -/
def pollFrom (round : Nat → Option R) : Nat → Nat → Option R
  | 0, _ => none
  | fuel + 1, n =>
    match round n with
    | some r => some r
    | none => pollFrom round fuel (n + 1)

/-- The loop ends with `r`: every large enough fuel gives that result. -/
def Polls (round : Nat → Option R) (r : R) : Prop :=
  ∃ n, ∀ fuel, n ≤ fuel → pollFrom round fuel 0 = some r

/-- The `n`-th round is the first that decides. -/
structure DecidesAt (round : Nat → Option R) (n : Nat) (r : R) : Prop where
  decides : round n = some r
  undecided : ∀ m, m < n → round m = none

section rounds

variable {round : Nat → Option R} {r : R}

/-- Rounds that do not decide are passed over. -/
theorem pollFrom_undecided {k : Nat} (fuel : Nat) :
    ∀ n, (∀ m, m < k → round (n + m) = none) →
      pollFrom round (k + fuel) n = pollFrom round fuel (n + k) := by
  induction k with
  | zero =>
    intro n _
    rw [Nat.zero_add]
    rfl
  | succ k ih =>
    intro n h
    have hfirst : round n = none := h 0 (Nat.succ_pos k)
    have hrest : ∀ m, m < k → round (n + 1 + m) = none := by
      intro m hm
      rw [show n + 1 + m = n + (m + 1) by omega]
      exact h (m + 1) (by omega)
    rw [show k + 1 + fuel = (k + fuel) + 1 by omega]
    show (match round n with
      | some r => some r
      | none => pollFrom round (k + fuel) (n + 1)) = _
    rw [hfirst, show n + (k + 1) = n + 1 + k by omega]
    exact ih (n + 1) hrest

theorem pollFrom_decides {fuel : Nat} :
    ∀ n, pollFrom round fuel n = some r →
      ∃ k, round (n + k) = some r ∧ ∀ m, m < k → round (n + m) = none := by
  induction fuel with
  | zero =>
    intro n h
    cases h
  | succ fuel ih =>
    intro n h
    unfold pollFrom at h
    cases hn : round n with
    | some r' =>
      rw [hn] at h
      exact ⟨0, hn.trans h, fun m hm => absurd hm (Nat.not_lt_zero m)⟩
    | none =>
      rw [hn] at h
      obtain ⟨k, hk, hbefore⟩ := ih (n + 1) h
      refine ⟨k + 1, by rwa [show n + (k + 1) = n + 1 + k by omega], ?_⟩
      intro m hm
      cases m with
      | zero => exact hn
      | succ m =>
        rw [show n + (m + 1) = n + 1 + m by omega]
        exact hbefore m (by omega)

/-- **First decision.** A loop ends with the result of its first round that
    decides, and in no other way. -/
theorem polls_iff : Polls round r ↔ ∃ n, DecidesAt round n r := by
  constructor
  · intro ⟨n, h⟩
    obtain ⟨k, hk, hbefore⟩ := pollFrom_decides 0 (h n (Nat.le_refl n))
    rw [Nat.zero_add] at hk
    exact ⟨k, hk, fun m hm => by simpa using hbefore m hm⟩
  · intro ⟨n, hn, hbefore⟩
    refine ⟨n + 1, ?_⟩
    intro fuel hfuel
    obtain ⟨extra, rfl⟩ : ∃ extra, fuel = n + (extra + 1) := ⟨fuel - n - 1, by omega⟩
    rw [pollFrom_undecided (extra + 1) 0 (by simpa using hbefore), Nat.zero_add]
    unfold pollFrom
    rw [hn]

/-- More fuel does not change a result. -/
theorem polls_of_fuel {fuel : Nat} (h : pollFrom round fuel 0 = some r) : Polls round r := by
  obtain ⟨k, hk, hbefore⟩ := pollFrom_decides 0 h
  simp only [Nat.zero_add] at hk hbefore
  exact polls_iff.mpr ⟨k, hk, hbefore⟩

/-- A loop with a round that would decide ends. -/
theorem exists_polls {n : Nat} (h : (round n).isSome = true) : ∃ r, Polls round r := by
  classical
  have hex : ∃ n, (round n).isSome = true := ⟨n, h⟩
  obtain ⟨r, hr⟩ := Option.isSome_iff_exists.mp (Nat.find_spec hex)
  refine ⟨r, polls_iff.mpr ⟨Nat.find hex, hr, ?_⟩⟩
  intro m hm
  exact Option.not_isSome_iff_eq_none.mp (Nat.find_min hex hm)

end rounds

/-! ## Section 2: Before and after the attempt -/

/-- Give up from the deadline on, and otherwise make an attempt. -/
def pollBefore (now : Nat → Nat) (deadline : Nat) (attempt : Nat → Option R) (giveUp : Nat → R)
    (n : Nat) : Option R :=
  if now n < deadline then attempt n else some (giveUp n)

/-- Make an attempt, and give up if the deadline has passed by then. -/
def pollAfter (now : Nat → Nat) (deadline : Nat) (attempt : Nat → Option R) (giveUp : Nat → R)
    (n : Nat) : Option R :=
  match attempt n with
  | some r => some r
  | none => if deadline < now n then some (giveUp n) else none

section kinds

variable {now : Nat → Nat} {deadline : Nat} {attempt : Nat → Option R} {giveUp : Nat → R}
  {n : Nat} {r : R}

theorem pollBefore_eq_none : pollBefore now deadline attempt giveUp n = none ↔
    now n < deadline ∧ attempt n = none := by
  unfold pollBefore
  by_cases h : now n < deadline
  · simp [h]
  · simp [h]

theorem pollAfter_eq_none : pollAfter now deadline attempt giveUp n = none ↔
    attempt n = none ∧ now n ≤ deadline := by
  unfold pollAfter
  cases attempt n with
  | some r => simp
  | none => simp

/-- How a loop ends that reads the clock before each attempt. -/
theorem decidesAt_before : DecidesAt (pollBefore now deadline attempt giveUp) n r ↔
    (∀ m, m < n → now m < deadline ∧ attempt m = none) ∧
      (now n < deadline ∧ attempt n = some r ∨ deadline ≤ now n ∧ r = giveUp n) := by
  have hround : pollBefore now deadline attempt giveUp n = some r ↔
      (now n < deadline ∧ attempt n = some r ∨ deadline ≤ now n ∧ r = giveUp n) := by
    unfold pollBefore
    by_cases h : now n < deadline
    · simp [h, not_le.mpr h]
    · simp [h, not_lt.mp h, eq_comm]
  constructor
  · intro ⟨hn, hbefore⟩
    exact ⟨fun m hm => pollBefore_eq_none.mp (hbefore m hm), hround.mp hn⟩
  · intro ⟨hbefore, hn⟩
    exact ⟨hround.mpr hn, fun m hm => pollBefore_eq_none.mpr (hbefore m hm)⟩

/-- How a loop ends that reads the clock after each attempt. -/
theorem decidesAt_after : DecidesAt (pollAfter now deadline attempt giveUp) n r ↔
    (∀ m, m < n → attempt m = none ∧ now m ≤ deadline) ∧
      (attempt n = some r ∨ attempt n = none ∧ deadline < now n ∧ r = giveUp n) := by
  have hround : pollAfter now deadline attempt giveUp n = some r ↔
      (attempt n = some r ∨ attempt n = none ∧ deadline < now n ∧ r = giveUp n) := by
    unfold pollAfter
    cases attempt n with
    | some r' => simp
    | none =>
      by_cases h : deadline < now n
      · simp [h, eq_comm]
      · simp [h]
  constructor
  · intro ⟨hn, hbefore⟩
    exact ⟨fun m hm => pollAfter_eq_none.mp (hbefore m hm), hround.mp hn⟩
  · intro ⟨hbefore, hn⟩
    exact ⟨hround.mpr hn, fun m hm => pollAfter_eq_none.mpr (hbefore m hm)⟩

/-! ## Section 3: How many rounds -/

/-- Between two readings of the clock at least `delay` passes. -/
def Paced (now : Nat → Nat) (delay : Nat) : Prop := ∀ n, now n + delay ≤ now (n + 1)

theorem Paced.le {delay : Nat} (h : Paced now delay) (n : Nat) : now 0 + n * delay ≤ now n := by
  induction n with
  | zero => simp
  | succ n ih =>
    have hstep := h n
    rw [Nat.succ_mul]
    omega

/-- The clock does not run back. -/
theorem Paced.mono {delay m : Nat} (h : Paced now delay) (hmn : m ≤ n) : now m ≤ now n := by
  induction n with
  | zero => rw [Nat.le_zero.mp hmn]
  | succ n ih =>
    have hstep := h n
    rcases Nat.le_succ_iff.mp hmn with hle | rfl
    · have hle' := ih hle
      omega
    · exact Nat.le_refl _

/-- Some reading is as late as one likes. -/
theorem Paced.exceeds {delay : Nat} (h : Paced now delay) (hdelay : 0 < delay) (t : Nat) :
    t < now (t + 1) := by
  have hle := h.le (t + 1)
  have hmul : t + 1 ≤ (t + 1) * delay := Nat.le_mul_of_pos_right _ hdelay
  omega

theorem before_ends {delay : Nat} (h : Paced now delay) (hdelay : 0 < delay) :
    ∃ r, Polls (pollBefore now deadline attempt giveUp) r := by
  have hlate := h.exceeds hdelay deadline
  apply exists_polls (n := deadline + 1)
  simp [pollBefore, not_lt.mpr (Nat.le_of_lt hlate)]

theorem after_ends {delay : Nat} (h : Paced now delay) (hdelay : 0 < delay) :
    ∃ r, Polls (pollAfter now deadline attempt giveUp) r := by
  have hlate := h.exceeds hdelay deadline
  apply exists_polls (n := deadline + 1)
  unfold pollAfter
  cases attempt (deadline + 1) with
  | some r => rfl
  | none => simp [hlate]

/-- No more rounds than fit before the deadline, and one. -/
theorem rounds_before {delay : Nat} (h : Paced now delay)
    (hd : DecidesAt (pollBefore now deadline attempt giveUp) (n + 1) r) :
    now 0 + n * delay < deadline :=
  Nat.lt_of_le_of_lt (h.le n) ((decidesAt_before.mp hd).1 n (Nat.lt_succ_self n)).1

/-! ## Section 4: What is not missed -/

/-- What can be found from `t` on is found, if a whole round fits between
    `t` and the deadline. -/
theorem before_finds {t gap : Nat} (hgap : ∀ m, now (m + 1) ≤ now m + gap)
    (hfound : ∀ m, t ≤ now m → (attempt m).isSome = true) (hfirst : now 0 < deadline)
    (ht : t + gap ≤ deadline) (h : DecidesAt (pollBefore now deadline attempt giveUp) n r) :
    now n < deadline ∧ attempt n = some r := by
  obtain ⟨hbefore, hn | ⟨hlate, _⟩⟩ := decidesAt_before.mp h
  · exact hn
  · exfalso
    cases n with
    | zero => omega
    | succ m =>
      -- the attempt of the round before came after `t`
      have hm := hgap m
      have hsome := hfound m (by omega)
      rw [(hbefore m (Nat.lt_succ_self m)).2] at hsome
      cases hsome

/-- What can be found from `t` on is found, if an attempt fits between `t`
    and the deadline. -/
theorem after_finds {starts : Nat → Nat} {t span : Nat}
    (hspan : ∀ m, now m ≤ starts m + span)
    (hfound : ∀ m, t ≤ starts m → (attempt m).isSome = true)
    (ht : t + span ≤ deadline) (h : DecidesAt (pollAfter now deadline attempt giveUp) n r) :
    attempt n = some r := by
  obtain ⟨_, hn | ⟨hnone, hlate, _⟩⟩ := decidesAt_after.mp h
  · exact hn
  · exfalso
    have hn := hspan n
    have hsome := hfound n (by omega)
    rw [hnone] at hsome
    cases hsome

end kinds

end Framework
