import Mathlib.Data.Rat.Defs
import Mathlib.Algebra.Order.Ring.Unbundled.Rat

/-! # Watching an object until it is done

    The three wait functions of `hermetic/src/cli/tester.rs` share one
    shape. A watch lasts for at most 290 s, so `loop_with_max_timeout`
    opens one after another until its budget is spent. Each watch starts
    from resource version "0", which first replays the object as it is, and
    then delivers its changes.

    - Section 1: one watch, read event by event
    - Section 2: the loop over the watches, in `u32` arithmetic
    - Section 3: which events the history of an object gives rise to
-/

namespace Hermetic

/-! ## Section 1: One watch -/

/-- `kube::core::WatchEvent` -/
inductive WatchEvent (α : Type) where
  | added (object : α)
  | modified (object : α)
  | deleted (object : α)
  | bookmark
  | error (err : String)
  deriving DecidableEq, Repr

/-- What a stream delivers until it ends. A failed item is an `Err` of
    `try_next`. -/
abbrev Stream (α : Type) := List (Except String (WatchEvent α))

/-- The answers to the watch requests, the `i`-th of which was given a
    timeout. -/
abbrev Watch (α : Type) := Nat → UInt32 → Except String (Stream α)

variable {α R : Type}

/-- The object that an event carries. -/
def WatchEvent.object : WatchEvent α → Option α
  | .added object => some object
  | .modified object => some object
  | .deleted object => some object
  | .bookmark => none
  | .error _ => none

/-- The loop over the items of one stream. `handle` is its body, which may
    return from the loop. -/
def nextEvents {β : Type} (handle : β → Except String (Option R)) :
    List (Except String β) → Except String (Option R)
  | [] => .ok none
  | .error err :: _ => .error err
  | .ok status :: stream =>
    match handle status with
    | .error err => .error err
    | .ok (some result) => .ok (some result)
    | .ok none => nextEvents handle stream

/-- One watch: it may fail to open. -/
def window (handle : WatchEvent α → Except String (Option R)) :
    Except String (Stream α) → Except String (Option R)
  | .error err => .error err
  | .ok stream => nextEvents handle stream

section nextEvents

variable {β : Type} {handle : β → Except String (Option R)} {stream : List (Except String β)}

/-- The body passes over this item. -/
def Skips (handle : β → Except String (Option R)) (x : Except String β) : Prop :=
  ∃ status, x = .ok status ∧ handle status = .ok none

/-- The body acts on `status`, the first item that it does not pass over. -/
def ActsOn (handle : β → Except String (Option R)) (stream : List (Except String β))
    (status : β) : Prop :=
  ∃ before after, stream = before ++ .ok status :: after ∧
    (∀ x ∈ before, Skips handle x) ∧ handle status ≠ .ok none

/-- There is only one such item. -/
theorem ActsOn.unique {status status' : β} (h : ActsOn handle stream status)
    (h' : ActsOn handle stream status') : status = status' := by
  obtain ⟨before, after, rfl, hbefore, hact⟩ := h
  obtain ⟨before', after', hsplit, hbefore', hact'⟩ := h'
  induction before generalizing before' with
  | nil =>
    cases before' with
    | nil =>
      cases hsplit
      rfl
    | cons x before' =>
      -- the second split passes over what the first acts on
      obtain ⟨_, hx, hnone⟩ := hbefore' x List.mem_cons_self
      cases hsplit
      cases hx
      exact absurd hnone hact
  | cons x before ih =>
    cases before' with
    | nil =>
      obtain ⟨_, hx, hnone⟩ := hbefore x List.mem_cons_self
      cases hsplit
      cases hx
      exact absurd hnone hact'
    | cons y before' =>
      simp only [List.cons_append, List.cons.injEq] at hsplit
      exact ih (fun z hz => hbefore z (List.mem_cons_of_mem _ hz)) before' hsplit.2
        (fun z hz => hbefore' z (List.mem_cons_of_mem _ hz))

theorem nextEvents_skip {status : β} (h : handle status = .ok none) :
    nextEvents handle (.ok status :: stream) = nextEvents handle stream := by
  simp only [nextEvents, h]

theorem nextEvents_act {status : β} (h : handle status ≠ .ok none) :
    nextEvents handle (.ok status :: stream) = handle status := by
  unfold nextEvents
  cases hh : handle status with
  | error err => rfl
  | ok o =>
    cases o with
    | some r => rfl
    | none => exact absurd hh h

theorem nextEvents_append (stream' : List (Except String β)) :
    nextEvents handle (stream ++ stream') =
      match nextEvents handle stream with
      | .ok none => nextEvents handle stream'
      | result => result := by
  induction stream with
  | nil => rfl
  | cons x stream ih =>
    cases x with
    | error err => rfl
    | ok status =>
      rw [List.cons_append]
      by_cases hh : handle status = .ok none
      · rw [nextEvents_skip hh, nextEvents_skip hh]
        exact ih
      · rw [nextEvents_act hh, nextEvents_act hh]
        -- only an item that is passed over leads to the rest
        split
        case h_1 hnone => exact absurd hnone hh
        case h_2 => rfl

/-- A result comes from the item that the body acts on. -/
theorem actsOn_of_some {r : R} (h : nextEvents handle stream = .ok (some r)) :
    ∃ status, ActsOn handle stream status ∧ handle status = .ok (some r) := by
  induction stream with
  | nil => cases h
  | cons x stream ih =>
    cases x with
    | error err => cases h
    | ok status =>
      by_cases hh : handle status = .ok none
      · rw [nextEvents_skip hh] at h
        obtain ⟨status', ⟨before, after, rfl, hbefore, hact⟩, hr⟩ := ih h
        refine ⟨status', ⟨.ok status :: before, after, rfl, ?_, hact⟩, hr⟩
        intro y hy
        rcases List.mem_cons.mp hy with rfl | hy
        · exact ⟨status, rfl, hh⟩
        · exact hbefore y hy
      · rw [nextEvents_act hh] at h
        exact ⟨status, ⟨[], stream, rfl, by simp, hh⟩, h⟩

/-- A stream without a result had nothing to act on. -/
theorem skips_of_none (h : nextEvents handle stream = .ok none) : ∀ x ∈ stream, Skips handle x := by
  induction stream with
  | nil => simp
  | cons x stream ih =>
    cases x with
    | error err => cases h
    | ok status =>
      by_cases hh : handle status = .ok none
      · rw [nextEvents_skip hh] at h
        intro y hy
        rcases List.mem_cons.mp hy with rfl | hy
        · exact ⟨status, rfl, hh⟩
        · exact ih h y hy
      · rw [nextEvents_act hh] at h
        exact absurd h hh

theorem nextEvents_of_skips (h : ∀ x ∈ stream, Skips handle x) :
    nextEvents handle stream = .ok none := by
  induction stream with
  | nil => rfl
  | cons x stream ih =>
    obtain ⟨status, rfl, hnone⟩ := h x List.mem_cons_self
    rw [nextEvents_skip hnone]
    exact ih fun y hy => h y (List.mem_cons_of_mem _ hy)

/-- What the body does at the item it acts on decides. -/
theorem nextEvents_of_actsOn {status : β} (h : ActsOn handle stream status) :
    nextEvents handle stream = handle status := by
  obtain ⟨before, after, rfl, hbefore, hact⟩ := h
  -- up to the item nothing happens
  rw [nextEvents_append, nextEvents_of_skips hbefore]
  exact nextEvents_act hact

/-- An error comes from the stream or from the body. -/
theorem error_of_nextEvents {err : String} (h : nextEvents handle stream = .error err) :
    .error err ∈ stream ∨ ∃ status, .ok status ∈ stream ∧ handle status = .error err := by
  induction stream with
  | nil => cases h
  | cons x stream ih =>
    cases x with
    | error err' =>
      cases h
      exact Or.inl List.mem_cons_self
    | ok status =>
      by_cases hh : handle status = .ok none
      · rw [nextEvents_skip hh] at h
        rcases ih h with hmem | ⟨status', hmem, herr⟩
        · exact Or.inl (List.mem_cons_of_mem _ hmem)
        · exact Or.inr ⟨status', List.mem_cons_of_mem _ hmem, herr⟩
      · rw [nextEvents_act hh] at h
        exact Or.inr ⟨status, List.mem_cons_self, h⟩

end nextEvents

/-! ## Section 2: The loop over the watches -/

def MAX_KUBE_WATCH_TIMEOUT : UInt32 := 290

/-- How a loop went: the timeouts that `f` was called with, and what the loop
    returned. -/
structure LoopRun (R : Type) where
  granted : List UInt32
  result : Except String R
  deriving DecidableEq

/-- `min(timeout_seconds - total_time, max_timeout)` -/
def roundTimeout (timeout_seconds max_timeout total_time : UInt32) : UInt32 :=
  min (timeout_seconds - total_time) max_timeout

/-- A call of `f` with `timeout` before the rest of a loop. -/
def LoopRun.after (run : LoopRun R) (timeout : UInt32) : LoopRun R :=
  { run with granted := timeout :: run.granted }

/-- The while loop, from its `i`-th round on. -/
def loopFrom (timeout_seconds max_timeout : UInt32)
    (f : Nat → UInt32 → Except String (Option R)) : Nat → Nat → UInt32 → Option (LoopRun R)
  | 0, _, _ => none
  | fuel + 1, i, total_time =>
    if total_time < timeout_seconds then
      -- a round costs the timeout it was given, however long it took
      let timeout := roundTimeout timeout_seconds max_timeout total_time
      match f i timeout with
      | .error err => some ⟨[timeout], .error err⟩
      | .ok (some result) => some ⟨[timeout], .ok result⟩
      | .ok none =>
        (loopFrom timeout_seconds max_timeout f fuel (i + 1) (total_time + timeout)).map
          fun run => run.after timeout
    else some ⟨[], .error "watch timeout exceeded"⟩

/-- Each round spends a second or more of the budget, unless `max_timeout`
    is 0, in which case the loop does not end (`none`). -/
def loop_with_max_timeout (timeout_seconds max_timeout : UInt32)
    (f : Nat → UInt32 → Except String (Option R)) : Option (LoopRun R) :=
  loopFrom timeout_seconds max_timeout f (timeout_seconds.toNat + 1) 0 0

/-! ### One round -/

theorem toNat_min (a b : UInt32) : (min a b).toNat = min a.toNat b.toNat := by
  show (if a ≤ b then a else b).toNat = _
  by_cases h : a ≤ b
  · rw [if_pos h, Nat.min_eq_left (UInt32.le_iff_toNat_le.mp h)]
  · rw [if_neg h]
    -- the order of `UInt32` is that of the numbers
    have hlt : ¬ a.toNat ≤ b.toNat := fun hle => h (UInt32.le_iff_toNat_le.mpr hle)
    omega

section round

variable {timeout_seconds max_timeout total_time : UInt32}
  {f : Nat → UInt32 → Except String (Option R)}

theorem roundTimeout_toNat (h : total_time < timeout_seconds) :
    (roundTimeout timeout_seconds max_timeout total_time).toNat =
      min (timeout_seconds.toNat - total_time.toNat) max_timeout.toNat := by
  have hlt := UInt32.lt_iff_toNat_lt.mp h
  have hsub : (timeout_seconds - total_time).toNat = timeout_seconds.toNat - total_time.toNat :=
    UInt32.toNat_sub_of_le _ _ (UInt32.le_iff_toNat_le.mpr (Nat.le_of_lt hlt))
  unfold roundTimeout
  rw [toNat_min, hsub]

/-- The addition of a round does not overflow. -/
theorem add_roundTimeout_toNat (h : total_time < timeout_seconds) :
    (total_time + roundTimeout timeout_seconds max_timeout total_time).toNat =
      total_time.toNat + min (timeout_seconds.toNat - total_time.toNat) max_timeout.toNat := by
  rw [UInt32.toNat_add, roundTimeout_toNat h]
  have hlt := UInt32.lt_iff_toNat_lt.mp h
  have hbound := timeout_seconds.toNat_lt
  exact Nat.mod_eq_of_lt (by omega)

/-- What one round can do. -/
theorem loopFrom_cases {fuel i : Nat} {run : LoopRun R}
    (h : loopFrom timeout_seconds max_timeout f (fuel + 1) i total_time = some run) :
    (¬ total_time < timeout_seconds ∧ run = ⟨[], .error "watch timeout exceeded"⟩) ∨
    (∃ timeout, timeout = roundTimeout timeout_seconds max_timeout total_time ∧
      total_time < timeout_seconds ∧
      ((∃ err, f i timeout = .error err ∧ run = ⟨[timeout], .error err⟩) ∨
       (∃ r, f i timeout = .ok (some r) ∧ run = ⟨[timeout], .ok r⟩) ∨
       (f i timeout = .ok none ∧ ∃ rest,
         loopFrom timeout_seconds max_timeout f fuel (i + 1) (total_time + timeout) = some rest ∧
         run = rest.after timeout))) := by
  unfold loopFrom at h
  by_cases hlt : total_time < timeout_seconds
  · right
    refine ⟨_, rfl, hlt, ?_⟩
    simp only [if_pos hlt] at h
    cases hf : f i (roundTimeout timeout_seconds max_timeout total_time) with
    | error err =>
      simp only [hf, Option.some.injEq] at h
      exact Or.inl ⟨err, rfl, h.symm⟩
    | ok o =>
      cases o with
      | some r =>
        simp only [hf, Option.some.injEq] at h
        exact Or.inr (Or.inl ⟨r, rfl, h.symm⟩)
      | none =>
        simp only [hf] at h
        obtain ⟨rest, hrest, hrun⟩ := Option.map_eq_some_iff.mp h
        exact Or.inr (Or.inr ⟨rfl, rest, hrest, hrun.symm⟩)
  · rw [if_neg hlt, Option.some.injEq] at h
    exact Or.inl ⟨hlt, h.symm⟩

end round

/-! ### The whole loop -/

variable {timeout_seconds max_timeout : UInt32} {f : Nat → UInt32 → Except String (Option R)}

/-- With a positive maximum the loop ends within its budget. -/
theorem loopFrom_ends (hmax : 0 < max_timeout) (fuel : Nat) :
    ∀ i total_time, timeout_seconds.toNat - total_time.toNat < fuel →
      ∃ run, loopFrom timeout_seconds max_timeout f fuel i total_time = some run := by
  have hpos : 0 < max_timeout.toNat := UInt32.lt_iff_toNat_lt.mp hmax
  induction fuel with
  | zero =>
    intro i total_time h
    omega
  | succ fuel ih =>
    intro i total_time h
    unfold loopFrom
    by_cases hlt : total_time < timeout_seconds
    · -- what is left of the budget shrinks, as a round spends a second at least
      have hadd : (total_time + roundTimeout timeout_seconds max_timeout total_time).toNat = _ :=
        add_roundTimeout_toNat hlt
      have hlt' := UInt32.lt_iff_toNat_lt.mp hlt
      simp only [if_pos hlt]
      cases f i (roundTimeout timeout_seconds max_timeout total_time) with
      | error err => exact ⟨_, rfl⟩
      | ok o =>
        cases o with
        | some r => exact ⟨_, rfl⟩
        | none =>
          obtain ⟨run, hrun⟩ := ih (i + 1)
            (total_time + roundTimeout timeout_seconds max_timeout total_time) (by omega)
          exact ⟨run.after _, by rw [hrun]; rfl⟩
    · exact ⟨_, by rw [if_neg hlt]⟩

theorem loop_with_max_timeout_ends (hmax : 0 < max_timeout) :
    ∃ run, loop_with_max_timeout timeout_seconds max_timeout f = some run := by
  refine loopFrom_ends hmax _ 0 0 ?_
  show timeout_seconds.toNat - 0 < timeout_seconds.toNat + 1
  omega

/-- What a call that was made has to do with the result of the loop. -/
def Explains (f : Nat → UInt32 → Except String (Option R)) (result : Except String R) (i : Nat)
    (timeout : UInt32) : Prop :=
  f i timeout = .ok none ∨
  (∃ r, f i timeout = .ok (some r) ∧ result = .ok r) ∨
  (∃ err, f i timeout = .error err ∧ result = .error err)

theorem only_call {t timeout : UInt32} {j : Nat} (h : [t][j]? = some timeout) :
    j = 0 ∧ timeout = t := by
  cases j with
  | zero => exact ⟨rfl, (Option.some.inj h).symm⟩
  | succ j => cases h

/-- A call that was made had no result, or its result is the one that the
    loop returned. -/
theorem loopFrom_explains {fuel i : Nat} {total_time : UInt32} {run : LoopRun R}
    (h : loopFrom timeout_seconds max_timeout f fuel i total_time = some run) :
    ∀ j timeout, run.granted[j]? = some timeout → Explains f run.result (i + j) timeout := by
  induction fuel generalizing i total_time run with
  | zero => cases h
  | succ fuel ih =>
    intro j timeout hj
    rcases loopFrom_cases h with ⟨_, rfl⟩ | ⟨t, _, _, ⟨err, hf, rfl⟩ | ⟨r, hf, rfl⟩ |
      ⟨hf, rest, hrest, rfl⟩⟩
    · simp at hj
    · obtain ⟨rfl, rfl⟩ := only_call hj
      exact Or.inr (Or.inr ⟨err, hf, rfl⟩)
    · obtain ⟨rfl, rfl⟩ := only_call hj
      exact Or.inr (Or.inl ⟨r, hf, rfl⟩)
    · -- the first call had no result, and the others belong to the rest
      cases j with
      | zero =>
        simp only [LoopRun.after, List.getElem?_cons_zero, Option.some.injEq] at hj
        subst hj
        exact Or.inl hf
      | succ j =>
        have hcall := ih hrest j timeout (by simpa [LoopRun.after] using hj)
        rw [show i + 1 + j = i + (j + 1) by omega] at hcall
        exact hcall

/-- A result of the loop is the result of one of its calls. -/
theorem loopFrom_result {fuel i : Nat} {total_time : UInt32} {run : LoopRun R} {r : R}
    (h : loopFrom timeout_seconds max_timeout f fuel i total_time = some run)
    (hr : run.result = .ok r) :
    ∃ j timeout, run.granted[j]? = some timeout ∧ f (i + j) timeout = .ok (some r) := by
  induction fuel generalizing i total_time run with
  | zero => cases h
  | succ fuel ih =>
    rcases loopFrom_cases h with ⟨_, rfl⟩ | ⟨t, _, _, ⟨err, hf, rfl⟩ | ⟨r', hf, rfl⟩ |
      ⟨hf, rest, hrest, rfl⟩⟩
    · cases hr
    · cases hr
    · cases hr
      exact ⟨0, t, rfl, hf⟩
    · obtain ⟨j, timeout, hj, hcall⟩ := ih hrest hr
      refine ⟨j + 1, timeout, by simpa [LoopRun.after] using hj, ?_⟩
      rw [show i + (j + 1) = i + 1 + j by omega]
      exact hcall

theorem loop_explains {run : LoopRun R}
    (h : loop_with_max_timeout timeout_seconds max_timeout f = some run) {j : Nat}
    {timeout : UInt32} (hj : run.granted[j]? = some timeout) :
    Explains f run.result j timeout := by
  have hcall := loopFrom_explains h j timeout hj
  rw [Nat.zero_add] at hcall
  exact hcall

/-- The first call that has a result or an error decides. -/
theorem loop_result_of_call {run : LoopRun R}
    (h : loop_with_max_timeout timeout_seconds max_timeout f = some run) {j : Nat}
    {timeout : UInt32} (hj : run.granted[j]? = some timeout) (result : Except String R)
    (hcall : f j timeout = result.map some) : run.result = result := by
  have hexplains := loop_explains h hj
  unfold Explains at hexplains
  rw [hcall] at hexplains
  cases result with
  | error err => simpa [Except.map] using hexplains
  | ok r => simpa [Except.map] using hexplains

theorem loop_result {run : LoopRun R} {r : R}
    (h : loop_with_max_timeout timeout_seconds max_timeout f = some run)
    (hr : run.result = .ok r) :
    ∃ j timeout, run.granted[j]? = some timeout ∧ f j timeout = .ok (some r) := by
  obtain ⟨j, timeout, hj, hcall⟩ := loopFrom_result h hr
  rw [Nat.zero_add] at hcall
  exact ⟨j, timeout, hj, hcall⟩

/-- A budget that one watch can spend is given to that watch as a whole. -/
theorem loop_single_watch (hpos : 0 < timeout_seconds) (hle : timeout_seconds ≤ max_timeout) :
    loop_with_max_timeout timeout_seconds max_timeout f =
      some ⟨[timeout_seconds],
        match f 0 timeout_seconds with
        | .error err => .error err
        | .ok (some result) => .ok result
        | .ok none => .error "watch timeout exceeded"⟩ := by
  have hround : roundTimeout timeout_seconds max_timeout 0 = timeout_seconds := by
    unfold roundTimeout
    rw [UInt32.sub_zero]
    exact if_pos hle
  have hlt := UInt32.lt_iff_toNat_lt.mp hpos
  obtain ⟨n, hn⟩ : ∃ n, timeout_seconds.toNat = n + 1 :=
    ⟨timeout_seconds.toNat - 1, by
      rw [UInt32.toNat_zero] at hlt
      omega⟩
  unfold loop_with_max_timeout
  rw [hn]
  unfold loopFrom
  simp only [if_pos hpos, hround, UInt32.zero_add]
  cases f 0 timeout_seconds with
  | error err => rfl
  | ok o =>
    cases o with
    | some r => rfl
    | none =>
      unfold loopFrom
      -- the budget is spent after one round
      rw [if_neg (UInt32.lt_irrefl timeout_seconds)]
      rfl

/-! ### One pass over all streams

    Seen from outside, the loop over the watches is one pass over what they
    deliver within the budget. -/

/-- The timeouts of all the watches that the budget pays for. -/
def scheduleFrom (timeout_seconds max_timeout : UInt32) : Nat → UInt32 → List UInt32
  | 0, _ => []
  | fuel + 1, total_time =>
    if total_time < timeout_seconds then
      let timeout := roundTimeout timeout_seconds max_timeout total_time
      timeout :: scheduleFrom timeout_seconds max_timeout fuel (total_time + timeout)
    else []

def schedule (timeout_seconds max_timeout : UInt32) : List UInt32 :=
  scheduleFrom timeout_seconds max_timeout (timeout_seconds.toNat + 1) 0

/-- The items of one watch, with its number. A watch that does not open is
    a single error. -/
def watchItems (i : Nat) : Except String (Stream α) → List (Except String (Nat × WatchEvent α))
  | .error err => [.error err]
  | .ok stream => stream.map fun x => x.map fun ev => (i, ev)

def deliveredFrom (watch : Watch α) : Nat → List UInt32 → List (Except String (Nat × WatchEvent α))
  | _, [] => []
  | i, timeout :: timeouts => watchItems i (watch i timeout) ++ deliveredFrom watch (i + 1) timeouts

/-- Everything that watches with these timeouts deliver. -/
def delivered (watch : Watch α) (timeouts : List UInt32) :
    List (Except String (Nat × WatchEvent α)) :=
  deliveredFrom watch 0 timeouts

/-- What is delivered comes from the stream of a watch. -/
theorem mem_deliveredFrom {watch : Watch α} {timeouts : List UInt32} {j i : Nat}
    {ev : WatchEvent α} (h : .ok (i, ev) ∈ deliveredFrom watch j timeouts) :
    ∃ timeout stream, watch i timeout = .ok stream ∧ .ok ev ∈ stream := by
  induction timeouts generalizing j with
  | nil => cases h
  | cons timeout timeouts ih =>
    unfold deliveredFrom at h
    rcases List.mem_append.mp h with h | h
    · cases hw : watch j timeout with
      | error err =>
        rw [hw] at h
        simp [watchItems] at h
      | ok stream =>
        rw [hw] at h
        obtain ⟨x, hx, heq⟩ := List.mem_map.mp h
        cases x with
        | error err => cases heq
        | ok ev' =>
          cases heq
          exact ⟨timeout, stream, hw, hx⟩
    · exact ih h

/-- The result of the loop, from that of the pass. -/
def passResult : Except String (Option R) → Except String R
  | .error err => .error err
  | .ok (some result) => .ok result
  | .ok none => .error "watch timeout exceeded"

theorem nextEvents_watchItems (handle : Nat → WatchEvent α → Except String (Option R)) (i : Nat)
    (w : Except String (Stream α)) :
    nextEvents (fun p => handle p.1 p.2) (watchItems i w) = window (handle i) w := by
  cases w with
  | error err => rfl
  | ok stream =>
    induction stream with
    | nil => rfl
    | cons x stream ih =>
      cases x with
      | error err => rfl
      | ok ev =>
        simp only [watchItems, window, List.map_cons, Except.map, nextEvents] at ih ⊢
        rw [ih]

theorem loopFrom_eq_pass {watch : Watch α} {handle : Nat → WatchEvent α → Except String (Option R)}
    {fuel i : Nat} {total_time : UInt32} {run : LoopRun R}
    (h : loopFrom timeout_seconds max_timeout (fun i timeout => window (handle i) (watch i timeout))
      fuel i total_time = some run) :
    run.result = passResult (nextEvents (fun p => handle p.1 p.2)
      (deliveredFrom watch i (scheduleFrom timeout_seconds max_timeout fuel total_time))) := by
  induction fuel generalizing i total_time run with
  | zero => cases h
  | succ fuel ih =>
    unfold scheduleFrom
    rcases loopFrom_cases h with ⟨hge, rfl⟩ | ⟨t, rfl, hlt, hcall⟩
    · rw [if_neg hge]
      rfl
    · simp only [if_pos hlt]
      unfold deliveredFrom
      -- the pass over the first stream is the call of this round
      rw [nextEvents_append, nextEvents_watchItems]
      rcases hcall with ⟨err, hf, rfl⟩ | ⟨r, hf, rfl⟩ | ⟨hf, rest, hrest, rfl⟩
      · rw [hf]
        rfl
      · rw [hf]
        rfl
      · rw [hf]
        show rest.result = _
        exact ih hrest

/-- **One pass.** The loop over the watches returns what one pass over all
    that they deliver returns. -/
theorem loop_eq_pass {watch : Watch α} {handle : Nat → WatchEvent α → Except String (Option R)}
    {run : LoopRun R}
    (h : loop_with_max_timeout timeout_seconds max_timeout
      (fun i timeout => window (handle i) (watch i timeout)) = some run) :
    run.result = passResult (nextEvents (fun p => handle p.1 p.2)
      (delivered watch (schedule timeout_seconds max_timeout))) :=
  loopFrom_eq_pass h

theorem passResult_eq_ok {o : Except String (Option R)} {r : R} :
    passResult o = .ok r ↔ o = .ok (some r) := by
  cases o with
  | error err => simp [passResult]
  | ok o => cases o <;> simp [passResult]

/-! ## Section 3: The events of an object's history -/

/-- From `time` on the object is as given, or does not exist. Times are in
    seconds. -/
structure Change (α : Type) where
  time : Rat
  object : Option α
  deriving DecidableEq, Repr

/-- The object at time `t`. -/
def current (history : List (Change α)) (t : Rat) : Option α :=
  ((history.filter fun c => decide (c.time ≤ t)).getLast?).bind Change.object

/-- The event of one change. -/
def changeEvent : Option α → Option α → List (WatchEvent α)
  | none, none => []
  | none, some object => [.added object]
  | some _, some object => [.modified object]
  | some last, none => [.deleted last]

def eventsFrom : Option α → List (Change α) → List (WatchEvent α)
  | _, [] => []
  | before, c :: changes => changeEvent before c.object ++ eventsFrom c.object changes

/-- The time from which a watch was open, and the end of its stream. -/
structure Window where
  opens : Rat
  closes : Rat
  deriving DecidableEq, Repr

/-- The watch first replays the object as it is, and then delivers every
    later change. -/
def windowEvents (history : List (Change α)) (w : Window) : List (WatchEvent α) :=
  (current history w.opens).toList.map .added ++
    eventsFrom (current history w.opens)
      (history.filter fun c => decide (w.opens < c.time) && decide (c.time ≤ w.closes))

/-- The object of an event of a change is that of the change, or the one
    before it. -/
theorem object_of_mem_changeEvent {before after : Option α} {ev : WatchEvent α}
    (h : ev ∈ changeEvent before after) :
    ∃ a, ev.object = some a ∧ (before = some a ∨ after = some a) := by
  cases before <;> cases after <;> simp only [changeEvent, List.mem_singleton] at h
  · cases h
  · subst h
    exact ⟨_, rfl, Or.inr rfl⟩
  · subst h
    exact ⟨_, rfl, Or.inl rfl⟩
  · subst h
    exact ⟨_, rfl, Or.inr rfl⟩

theorem object_of_mem_eventsFrom {changes : List (Change α)} {before : Option α}
    {ev : WatchEvent α} (h : ev ∈ eventsFrom before changes) :
    ∃ a, ev.object = some a ∧ (before = some a ∨ ∃ c ∈ changes, c.object = some a) := by
  induction changes generalizing before with
  | nil => simp [eventsFrom] at h
  | cons c changes ih =>
    unfold eventsFrom at h
    rcases List.mem_append.mp h with h | h
    · obtain ⟨a, ha, hb | hc⟩ := object_of_mem_changeEvent h
      · exact ⟨a, ha, Or.inl hb⟩
      · exact ⟨a, ha, Or.inr ⟨c, List.mem_cons_self, hc⟩⟩
    · obtain ⟨a, ha, hb | ⟨c', hc', hobj⟩⟩ := ih h
      · -- the object before the rest is that of the first change
        exact ⟨a, ha, Or.inr ⟨c, List.mem_cons_self, hb⟩⟩
      · exact ⟨a, ha, Or.inr ⟨c', List.mem_cons_of_mem _ hc', hobj⟩⟩

theorem mem_of_current {history : List (Change α)} {t : Rat} {a : α}
    (h : current history t = some a) : ∃ c ∈ history, c.time ≤ t ∧ c.object = some a := by
  unfold current at h
  obtain ⟨c, hc, hobj⟩ := Option.bind_eq_some_iff.mp h
  obtain ⟨hmem, hle⟩ := List.mem_filter.mp (List.mem_of_getLast? hc)
  exact ⟨c, hmem, of_decide_eq_true hle, hobj⟩

/-- Every event of a window carries an object of the history. -/
theorem object_of_mem_windowEvents {history : List (Change α)} {w : Window} {ev : WatchEvent α}
    (h : ev ∈ windowEvents history w) :
    ∃ a, ev.object = some a ∧ ∃ c ∈ history, c.object = some a := by
  rcases List.mem_append.mp h with h | h
  · obtain ⟨a, ha, rfl⟩ := List.mem_map.mp h
    obtain ⟨c, hc, _, hobj⟩ := mem_of_current (Option.mem_toList.mp ha)
    exact ⟨a, rfl, c, hc, hobj⟩
  · obtain ⟨a, ha, hb | ⟨c, hc, hobj⟩⟩ := object_of_mem_eventsFrom h
    · obtain ⟨c, hc, _, hobj⟩ := mem_of_current hb
      exact ⟨a, ha, c, hc, hobj⟩
    · exact ⟨a, ha, c, (List.mem_filter.mp hc).1, hobj⟩

theorem mem_eventsFrom_of_mem {changes : List (Change α)} {before : Option α} {c : Change α}
    {a : α} (hc : c ∈ changes) (ha : c.object = some a) :
    ∃ ev ∈ eventsFrom before changes, ev.object = some a := by
  induction changes generalizing before with
  | nil => simp at hc
  | cons c' changes ih =>
    unfold eventsFrom
    rcases List.mem_cons.mp hc with rfl | hc
    · rw [ha]
      cases before with
      | none => exact ⟨.added a, by simp [changeEvent], rfl⟩
      | some b => exact ⟨.modified a, by simp [changeEvent], rfl⟩
    · obtain ⟨ev, hev, hobj⟩ : ∃ ev ∈ eventsFrom c'.object changes, ev.object = some a := ih hc
      exact ⟨ev, List.mem_append_right _ hev, hobj⟩

/-- A change that falls into the window is delivered. -/
theorem mem_windowEvents_of_change {history : List (Change α)} {w : Window} {c : Change α} {a : α}
    (hc : c ∈ history) (ha : c.object = some a) (ho : w.opens < c.time)
    (hcl : c.time ≤ w.closes) : ∃ ev ∈ windowEvents history w, ev.object = some a := by
  have hmem : c ∈ history.filter fun c => decide (w.opens < c.time) && decide (c.time ≤ w.closes) :=
    List.mem_filter.mpr ⟨hc, by simp [ho, hcl]⟩
  obtain ⟨ev, hev, hobj⟩ : ∃ ev ∈ eventsFrom (current history w.opens) _, ev.object = some a :=
    mem_eventsFrom_of_mem hmem ha
  exact ⟨ev, List.mem_append_right _ hev, hobj⟩

/-- The object that exists when the window opens is replayed. -/
theorem mem_windowEvents_of_current {history : List (Change α)} {w : Window} {a : α}
    (h : current history w.opens = some a) : .added a ∈ windowEvents history w := by
  unfold windowEvents
  rw [h]
  exact List.mem_append_left _ (by simp)

end Hermetic
