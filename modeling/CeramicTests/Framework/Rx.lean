import Mathlib.Data.List.Infix

/-! # Observables and the promises made from them

    An observable is what it has delivered to one subscription so far: a
    list of notifications, of which nothing after the first `complete` or
    `error` counts. An operator maps such lists. It may look only at what
    has been delivered, so that a longer list can only add to its result.

    A promise settles at most once. `toPromise` settles with the last state
    when the observable completes, with nothing if it completes empty, and
    with the error if it fails.

    The rules of this file are about the first state that passes a test
    (`firstMatch`): what the promise is depends only on the first
    notification that is not a state failing the test.
-/

namespace Rx

universe u v

/-! ## Section 1: Notifications -/

inductive Notification (S : Type u) (E : Type v) where
  | next (s : S)
  | complete
  | error (e : E)
  deriving DecidableEq, Repr

variable {S : Type u} {E : Type v}

/-- The states delivered before the observable ended. -/
def emitted : List (Notification S E) → List S
  | [] => []
  | .next s :: ns => s :: emitted ns
  | .complete :: _ => []
  | .error _ :: _ => []

/-! ## Section 2: Operators -/

def filter (p : S → Bool) : List (Notification S E) → List (Notification S E)
  | [] => []
  | .next s :: ns => if p s then .next s :: filter p ns else filter p ns
  | .complete :: _ => [.complete]
  | .error e :: _ => [.error e]

/-- `take` completes with the last state that it lets through. -/
def take : Nat → List (Notification S E) → List (Notification S E)
  | 0, _ => [.complete]
  | _ + 1, [] => []
  | n + 1, .next s :: ns => .next s :: take n ns
  | _ + 1, .complete :: _ => [.complete]
  | _ + 1, .error e :: _ => [.error e]

/-! ## Section 3: Promises -/

inductive Promise (α : Type u) (ε : Type v) where
  | pending
  | fulfilled (a : α)
  | rejected (e : ε)
  deriving DecidableEq, Repr

namespace Promise

variable {α : Type u} {ε : Type v}

/-- A promise that has settled stays as it is. -/
def resolve (p : Promise α ε) (a : α) : Promise α ε :=
  match p with
  | .pending => .fulfilled a
  | p => p

def reject (p : Promise α ε) (e : ε) : Promise α ε :=
  match p with
  | .pending => .rejected e
  | p => p

end Promise

/-- The promise of an observable that has delivered `last` before. -/
def toPromise (last : Option S) : List (Notification S E) → Promise (Option S) E
  | [] => .pending
  | .next s :: ns => toPromise (some s) ns
  | .complete :: _ => .fulfilled last
  | .error e :: _ => .rejected e

/-! ## Section 4: The first state that passes a test -/

/-- `pipe(filter(p), take(1)).toPromise()` -/
def firstMatch (p : S → Bool) (ns : List (Notification S E)) : Promise (Option S) E :=
  toPromise none (take 1 (filter p ns))

/-- Only states that fail the test. -/
def Quiet (p : S → Bool) (ns : List (Notification S E)) : Prop :=
  ∀ n ∈ ns, ∃ s, n = .next s ∧ p s = false

/-- The notification settles the promise. -/
def Decides (p : S → Bool) : Notification S E → Prop
  | .next s => p s = true
  | .complete => True
  | .error _ => True

variable {p : S → Bool}

theorem filter_append_quiet {ns : List (Notification S E)} (h : Quiet p ns)
    (rest : List (Notification S E)) : filter p (ns ++ rest) = filter p rest := by
  induction ns with
  | nil => rfl
  | cons n ns ih =>
    obtain ⟨s, rfl, hs⟩ := h n (by simp)
    rw [List.cons_append, filter, hs]
    exact ih fun n hn => h n (List.mem_cons_of_mem _ hn)

theorem firstMatch_append_quiet {ns : List (Notification S E)} (h : Quiet p ns)
    (rest : List (Notification S E)) : firstMatch p (ns ++ rest) = firstMatch p rest := by
  unfold firstMatch
  rw [filter_append_quiet h]

theorem emitted_append_quiet {ns : List (Notification S E)} (h : Quiet p ns)
    (rest : List (Notification S E)) :
    ∃ states, emitted (ns ++ rest) = states ++ emitted rest ∧ ∀ s ∈ states, p s = false := by
  induction ns with
  | nil => exact ⟨[], rfl, by simp⟩
  | cons n ns ih =>
    obtain ⟨s, rfl, hs⟩ := h n (by simp)
    obtain ⟨states, hemitted, hfail⟩ := ih fun n hn => h n (List.mem_cons_of_mem _ hn)
    refine ⟨s :: states, ?_, ?_⟩
    · rw [List.cons_append, emitted, hemitted]
      rfl
    · intro s' hs'
      rcases List.mem_cons.mp hs' with rfl | hs'
      · exact hs
      · exact hfail s' hs'

@[simp] theorem firstMatch_nil : firstMatch p ([] : List (Notification S E)) = .pending := rfl

theorem firstMatch_next {s : S} (hs : p s = true) (rest : List (Notification S E)) :
    firstMatch p (.next s :: rest) = .fulfilled (some s) := by
  unfold firstMatch
  rw [filter, hs]
  rfl

@[simp] theorem firstMatch_complete (rest : List (Notification S E)) :
    firstMatch p (.complete :: rest) = .fulfilled none := rfl

@[simp] theorem firstMatch_error (e : E) (rest : List (Notification S E)) :
    firstMatch p (.error e :: rest) = .rejected e := rfl

/-- **The first notification that counts.** Either there are only states
    that fail the test, or some first notification settles the promise. -/
theorem quiet_or_decides (p : S → Bool) (ns : List (Notification S E)) :
    Quiet p ns ∨ ∃ before n after, ns = before ++ n :: after ∧ Quiet p before ∧ Decides p n := by
  induction ns with
  | nil =>
    left
    intro n hn
    cases hn
  | cons n ns ih =>
    by_cases hn : ∃ s, n = .next s ∧ p s = false
    · rcases ih with hquiet | ⟨before, n', after, rfl, hquiet, hdec⟩
      · left
        intro n' hn'
        rcases List.mem_cons.mp hn' with rfl | hn'
        · exact hn
        · exact hquiet n' hn'
      · right
        refine ⟨n :: before, n', after, rfl, ?_, hdec⟩
        intro n'' hn''
        rcases List.mem_cons.mp hn'' with rfl | hn''
        · exact hn
        · exact hquiet n'' hn''
    · right
      refine ⟨[], n, ns, rfl, by simp [Quiet], ?_⟩
      cases n with
      | next s =>
        cases hs : p s with
        | true => exact hs
        | false => exact absurd ⟨s, rfl, hs⟩ hn
      | complete => trivial
      | error e => trivial

/-- A promise that has settled is not changed by what is delivered later. -/
theorem firstMatch_append {ns : List (Notification S E)} (h : firstMatch p ns ≠ .pending)
    (rest : List (Notification S E)) : firstMatch p (ns ++ rest) = firstMatch p ns := by
  rcases quiet_or_decides p ns with hquiet | ⟨before, n, after, rfl, hquiet, hdec⟩
  · have hpending := firstMatch_append_quiet hquiet []
    rw [List.append_nil] at hpending
    exact absurd hpending h
  · rw [List.append_assoc, firstMatch_append_quiet hquiet, firstMatch_append_quiet hquiet,
      List.cons_append]
    cases n with
    | next s => rw [firstMatch_next hdec, firstMatch_next hdec]
    | complete => rfl
    | error e => rfl

/-- A promise is fulfilled with a state that was delivered and passes the
    test, or with nothing by an observable that has completed before. -/
theorem firstMatch_fulfilled {ns : List (Notification S E)} {o : Option S}
    (h : firstMatch p ns = .fulfilled o) :
    (∃ s ∈ emitted ns, p s = true) ∨
      ∃ before after, ns = before ++ .complete :: after ∧ Quiet p before := by
  rcases quiet_or_decides p ns with hquiet | ⟨before, n, after, rfl, hquiet, hdec⟩
  · have hpending := firstMatch_append_quiet hquiet []
    rw [List.append_nil, h] at hpending
    cases hpending
  · rw [firstMatch_append_quiet hquiet] at h
    cases n with
    | next s =>
      left
      obtain ⟨states, hemitted, _⟩ := emitted_append_quiet hquiet (.next s :: after)
      refine ⟨s, ?_, hdec⟩
      rw [hemitted]
      exact List.mem_append_right _ List.mem_cons_self
    | complete => exact Or.inr ⟨before, after, rfl, hquiet⟩
    | error e => cases h

/-- **No match is lost.** A state that passes the test fulfils the promise,
    whatever is delivered around it. -/
theorem firstMatch_of_emitted {ns : List (Notification S E)} {s : S} (hs : s ∈ emitted ns)
    (hp : p s = true) : ∃ s', firstMatch p ns = .fulfilled (some s') := by
  rcases quiet_or_decides p ns with hquiet | ⟨before, n, after, rfl, hquiet, hdec⟩
  · -- a quiet list has emitted no such state
    obtain ⟨states, hemitted, hfail⟩ := emitted_append_quiet hquiet []
    rw [List.append_nil] at hemitted
    rw [hemitted] at hs
    have hfalse := hfail s (by simpa [emitted] using hs)
    rw [hp] at hfalse
    cases hfalse
  · obtain ⟨states, hemitted, hfail⟩ := emitted_append_quiet hquiet (n :: after)
    rw [hemitted] at hs
    rw [firstMatch_append_quiet hquiet]
    cases n with
    | next s' => exact ⟨s', firstMatch_next hdec after⟩
    | complete =>
      have hfalse := hfail s (by simpa [emitted] using hs)
      rw [hp] at hfalse
      cases hfalse
    | error e =>
      have hfalse := hfail s (by simpa [emitted] using hs)
      rw [hp] at hfalse
      cases hfalse

end Rx
