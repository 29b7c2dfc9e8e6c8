import CeramicTests.Hermetic.Watch
import Mathlib.Tactic.NormNum

/-! # The readiness gate of a network

    `wait_for_network` holds a run back until its Network is ready. It
    compares two numbers that the operator writes to the status of the
    Network, `ready_replicas` and `replicas`, and takes any event for them.

    The numbers agree as well in a status that is older than the spec which
    the run has applied, and in the last state of a Network that is being
    deleted. So the gate is sound exactly when the first event whose numbers
    agree is about the applied spec (`FirstReadyIsApplied`).
-/

namespace Hermetic

/-! ## Section 1: Networks -/

structure NetworkSpec where
  replicas : Int
  ttl_seconds : Option Nat
  deriving DecidableEq, Repr

structure NetworkStatus where
  replicas : Int
  ready_replicas : Int
  deriving DecidableEq, Repr

structure Network where
  name : Option String
  spec : NetworkSpec
  status : Option NetworkStatus
  deriving DecidableEq, Repr

/-- `status.ready_replicas == status.replicas`, if there is a status. -/
def Network.ready (network : Network) : Bool :=
  match network.status with
  | some status => status.ready_replicas == status.replicas
  -- no status yet
  | none => false

def readyResult (network : Network) : Except String (Option Unit) :=
  if network.ready then .ok (some ()) else .ok none

/-- The body of the loop over the events of a watch. -/
def networkEvent : WatchEvent Network → Except String (Option Unit)
  | .added network => readyResult network
  | .modified network => readyResult network
  | .deleted network => readyResult network
  | .bookmark => .ok none
  | .error err => .error err

/-- `watch` answers the requests for the Network of the run. -/
def wait_for_network (watch : Watch Network) (timeout_seconds : UInt32) : Option (LoopRun Unit) :=
  loop_with_max_timeout timeout_seconds MAX_KUBE_WATCH_TIMEOUT
    fun i timeout => window networkEvent (watch i timeout)

/-! ## Section 2: What the gate should wait for -/

/-- What the watches of the gate deliver within its budget. -/
def networkEvents (watch : Watch Network) (timeout_seconds : UInt32) :
    List (Except String (Nat × WatchEvent Network)) :=
  delivered watch (schedule timeout_seconds MAX_KUBE_WATCH_TIMEOUT)

/-- The gate returned at this event. -/
def ActedOn (watch : Watch Network) (timeout_seconds : UInt32) (ev : WatchEvent Network) : Prop :=
  ∃ i, ActsOn (fun p : Nat × WatchEvent Network => networkEvent p.2)
    (networkEvents watch timeout_seconds) (i, ev)

/-- The Network exists, and all the replicas of the spec that the run applied
    are ready. -/
def ReportsReady (applied : NetworkSpec) (ev : WatchEvent Network) : Prop :=
  ∃ network status, (ev = .added network ∨ ev = .modified network) ∧
    network.status = some status ∧ status.ready_replicas = applied.replicas

/-- An event without an error whose Network is not ready. -/
def NotReady : WatchEvent Network → Prop
  | .added network => network.ready = false
  | .modified network => network.ready = false
  | .deleted network => network.ready = false
  | .bookmark => True
  | .error _ => False

/-- The first event whose Network is ready, if no error comes before it,
    reports the applied replicas. -/
def FirstReadyIsApplied (applied : NetworkSpec)
    (events : List (Except String (Nat × WatchEvent Network))) : Prop :=
  ∀ before i ev network after, events = before ++ .ok (i, ev) :: after →
    (∀ x ∈ before, ∃ p, x = .ok p ∧ NotReady p.2) →
    ev.object = some network → network.ready = true → ReportsReady applied ev

/-! ## Section 3: Soundness of the gate -/

theorem networkEvent_none {ev : WatchEvent Network} : networkEvent ev = .ok none ↔ NotReady ev := by
  cases ev with
  | added network => cases h : network.ready <;> simp [networkEvent, readyResult, NotReady, h]
  | modified network => cases h : network.ready <;> simp [networkEvent, readyResult, NotReady, h]
  | deleted network => cases h : network.ready <;> simp [networkEvent, readyResult, NotReady, h]
  | bookmark => simp [networkEvent, NotReady]
  | error err => simp [networkEvent, NotReady]

theorem networkEvent_some {ev : WatchEvent Network} :
    networkEvent ev = .ok (some ()) ↔ ∃ network, ev.object = some network ∧ network.ready = true := by
  cases ev with
  | added network => cases h : network.ready <;> simp [networkEvent, readyResult, WatchEvent.object, h]
  | modified network =>
    cases h : network.ready <;> simp [networkEvent, readyResult, WatchEvent.object, h]
  | deleted network =>
    cases h : network.ready <;> simp [networkEvent, readyResult, WatchEvent.object, h]
  | bookmark => simp [networkEvent, WatchEvent.object]
  | error err => simp [networkEvent, WatchEvent.object]

theorem skips_networkEvent {x : Except String (Nat × WatchEvent Network)} :
    Skips (fun p : Nat × WatchEvent Network => networkEvent p.2) x ↔
      ∃ p, x = .ok p ∧ NotReady p.2 := by
  unfold Skips
  simp only [networkEvent_none]

/-- The gate returns `Ok(())` when it acts on an event with a ready Network. -/
theorem wait_for_network_ok {watch : Watch Network} {timeout_seconds : UInt32} {run : LoopRun Unit}
    (h : wait_for_network watch timeout_seconds = some run) :
    run.result = .ok () ↔ ∃ ev, ActedOn watch timeout_seconds ev ∧ networkEvent ev = .ok (some ()) := by
  have hpass : run.result = passResult (nextEvents (fun p : Nat × WatchEvent Network =>
      networkEvent p.2) (networkEvents watch timeout_seconds)) := loop_eq_pass h
  rw [hpass, passResult_eq_ok]
  constructor
  · intro hok
    obtain ⟨⟨i, ev⟩, hact, hev⟩ := actsOn_of_some hok
    exact ⟨ev, ⟨i, hact⟩, hev⟩
  · rintro ⟨ev, ⟨i, hact⟩, hev⟩
    have hnext := nextEvents_of_actsOn hact
    exact hnext.trans hev

/-- **Soundness of the readiness gate.** The gate returns. It returns
    `Ok(())` only at an event at which the Network exists and reports all
    replicas of the applied spec as ready, if and only if the first event
    with a ready Network is such an event. -/
theorem wait_for_network_sound_iff (applied : NetworkSpec) (watch : Watch Network)
    (timeout_seconds : UInt32) :
    ∃ run, wait_for_network watch timeout_seconds = some run ∧
      ((run.result = .ok () →
          ∃ ev, ActedOn watch timeout_seconds ev ∧ ReportsReady applied ev) ↔
        FirstReadyIsApplied applied (networkEvents watch timeout_seconds)) := by
  obtain ⟨run, hrun⟩ : ∃ run, wait_for_network watch timeout_seconds = some run :=
    loop_with_max_timeout_ends (by decide)
  refine ⟨run, hrun, ?_⟩
  rw [wait_for_network_ok hrun]
  constructor
  · intro hsound before i ev network after hsplit hbefore hobj hready
    have hsome := networkEvent_some.mpr ⟨network, hobj, hready⟩
    -- the gate acts on the event and returns `Ok(())`
    have hact : ActsOn (fun p : Nat × WatchEvent Network => networkEvent p.2)
        (networkEvents watch timeout_seconds) (i, ev) := by
      refine ⟨before, after, hsplit, ?_, ?_⟩
      · intro x hx
        exact skips_networkEvent.mpr (hbefore x hx)
      · show networkEvent ev ≠ .ok none
        rw [hsome]
        decide
    obtain ⟨ev', ⟨i', hact'⟩, hreports⟩ := hsound ⟨ev, ⟨i, hact⟩, hsome⟩
    -- there is no other event that it acts on
    cases hact.unique hact'
    exact hreports
  · rintro hfirst ⟨ev, ⟨i, hact⟩, hsome⟩
    refine ⟨ev, ⟨i, hact⟩, ?_⟩
    obtain ⟨before, after, hsplit, hbefore, _⟩ := hact
    -- the event it acted on is the first with a ready Network
    obtain ⟨network, hobj, hready⟩ := networkEvent_some.mp hsome
    exact hfirst before i ev network after hsplit
      (fun x hx => skips_networkEvent.mp (hbefore x hx)) hobj hready

/-! ### A Network left over from an earlier run

    It has one replica, which is ready. The run applies the same Network
    with three replicas, and opens its watch before the operator has looked
    at the new spec. -/

section leftover

private def applied : NetworkSpec := ⟨3, some 28800⟩

private def old : Network := ⟨some "correctness-basic", ⟨1, some 28800⟩, some ⟨1, 1⟩⟩

private def stale : Network := { old with spec := applied }

private def leftover : List (Change Network) := [⟨0, some old⟩, ⟨100, some stale⟩]

private def leftoverWatch : Watch Network :=
  fun _ _ => .ok ((windowEvents leftover ⟨110, 400⟩).map .ok)

private theorem leftover_events : windowEvents leftover ⟨110, 400⟩ = [.added stale] := by
  unfold windowEvents current leftover
  norm_num [List.filter_cons, eventsFrom]

private theorem networkEvents_leftover :
    networkEvents leftoverWatch 290 = [.ok (0, .added stale)] := by
  have hschedule : schedule 290 MAX_KUBE_WATCH_TIMEOUT = [290] := by decide
  unfold networkEvents delivered leftoverWatch
  rw [hschedule, leftover_events]
  rfl

/-- The gate lets the run pass at a status that is about the old spec. -/
theorem gate_passes_stale_status :
    windowEvents leftover ⟨110, 400⟩ = [.added stale] ∧
    wait_for_network leftoverWatch 290 = some ⟨[290], .ok ()⟩ ∧
    ActedOn leftoverWatch 290 (.added stale) ∧ ¬ ReportsReady applied (.added stale) ∧
    ¬ ∃ ev, ActedOn leftoverWatch 290 ev ∧ ReportsReady applied ev := by
  have hact : ActsOn (fun p : Nat × WatchEvent Network => networkEvent p.2)
      (networkEvents leftoverWatch 290) (0, .added stale) := by
    rw [networkEvents_leftover]
    exact ⟨[], [], rfl, by simp, by decide⟩
  have hnot : ¬ ReportsReady applied (.added stale) := by
    rintro ⟨network, status, hev, hstatus, hreplicas⟩
    -- one replica is ready, and three were applied
    rcases hev with hev | hev
    · cases hev
      cases hstatus
      exact absurd hreplicas (by decide)
    · cases hev
  refine ⟨leftover_events, ?_, ⟨0, hact⟩, hnot, ?_⟩
  · unfold wait_for_network
    rw [loop_single_watch (by decide) (by decide)]
    unfold leftoverWatch
    rw [leftover_events]
    rfl
  · rintro ⟨ev, ⟨i, hact'⟩, hreports⟩
    cases hact.unique hact'
    exact hnot hreports

end leftover

end Hermetic
