import CeramicTests.Hermetic.WaitForJob

/-! # The verdict of a simulation

    `wait_for_simulation` watches the pods with the label
    `job-name=simulate-manager` in the namespace of a network, and takes the
    verdict from the first of them that has finished. The label is the same
    for every Simulation, and the namespace is used again whenever the name
    of the network is.
-/

namespace Hermetic

/-! ## Section 1: Pods -/

structure PodStatus where
  phase : Option String
  deriving DecidableEq, Repr

/-- `simulation` is the uid of the Simulation that the pod was made for. -/
structure Pod where
  name : String
  simulation : Option String
  status : Option PodStatus
  deriving DecidableEq, Repr

def Pod.phase (pod : Pod) : Option String := pod.status.bind PodStatus.phase

/-- The logs of one pod, read by its name. -/
def simulationVerdict (logs : String → Except String String) (pod : Pod) :
    Except String (Option (JobResult × String)) :=
  match pod.phase with
  | some phase =>
    if phase = "Succeeded" then (logs pod.name).map fun text => some (.Pass, text)
    else if phase = "Failed" then (logs pod.name).map fun text => some (.Fail, text)
    else .ok none
  | none => .ok none

/-- The body of the loop over the events of a watch. -/
def simulationEvent (logs : String → Except String String) :
    WatchEvent Pod → Except String (Option (JobResult × String))
  | .added pod => simulationVerdict logs pod
  | .modified pod => simulationVerdict logs pod
  -- unlike the other two waits, this one passes over deletions
  | .deleted _ => .ok none
  | .bookmark => .ok none
  | .error err => .error err

/-- `watch` answers the requests for the pods with the label, and `logs i`
    are their logs during the `i`-th watch. -/
def wait_for_simulation (watch : Watch Pod) (logs : Nat → String → Except String String)
    (timeout_seconds : UInt32) : Option (LoopRun (JobResult × String)) :=
  loop_with_max_timeout timeout_seconds MAX_KUBE_WATCH_TIMEOUT
    fun i timeout => window (simulationEvent (logs i)) (watch i timeout)

/-! ## Section 2: The first pod that has finished -/

/-- What the watches of the wait deliver within its budget. -/
def podEvents (watch : Watch Pod) (timeout_seconds : UInt32) :
    List (Except String (Nat × WatchEvent Pod)) :=
  delivered watch (schedule timeout_seconds MAX_KUBE_WATCH_TIMEOUT)

/-- The phase in which a pod of this result ends. -/
def JobResult.phase : JobResult → String
  | .Pass => "Succeeded"
  | .Fail => "Failed"

/-- An event without an error that shows no finished pod. -/
def NotFinished : WatchEvent Pod → Prop
  | .added pod => ∀ r : JobResult, pod.phase ≠ some r.phase
  | .modified pod => ∀ r : JobResult, pod.phase ≠ some r.phase
  | .deleted _ => True
  | .bookmark => True
  | .error _ => False

/-- The first event that shows a finished pod, if no error comes before it,
    shows `pod`, which ended with `r` and whose logs can be read. -/
def FirstFinished (events : List (Except String (Nat × WatchEvent Pod)))
    (logs : Nat → String → Except String String) (pod : Pod) (r : JobResult) : Prop :=
  ∃ before i ev after text, events = before ++ .ok (i, ev) :: after ∧
    (∀ x ∈ before, ∃ p, x = .ok p ∧ NotFinished p.2) ∧
    (ev = .added pod ∨ ev = .modified pod) ∧ pod.phase = some r.phase ∧
    logs i pod.name = .ok text

theorem simulationVerdict_finished {logs : String → Except String String} {pod : Pod}
    {r : JobResult} (h : pod.phase = some r.phase) :
    simulationVerdict logs pod = (logs pod.name).map fun text => some (r, text) := by
  unfold simulationVerdict
  rw [h]
  cases r with
  | Pass => rfl
  | Fail => rfl

theorem simulationVerdict_unfinished {logs : String → Except String String} {pod : Pod}
    (h : ∀ r : JobResult, pod.phase ≠ some r.phase) : simulationVerdict logs pod = .ok none := by
  unfold simulationVerdict
  cases hphase : pod.phase with
  | none => rfl
  | some phase =>
    have hs : phase ≠ "Succeeded" := fun hs => h .Pass (hphase.trans (congrArg some hs))
    have hf : phase ≠ "Failed" := fun hf => h .Fail (hphase.trans (congrArg some hf))
    simp only [if_neg hs, if_neg hf]

theorem simulationVerdict_none {logs : String → Except String String} {pod : Pod} :
    simulationVerdict logs pod = .ok none ↔ ∀ r : JobResult, pod.phase ≠ some r.phase := by
  constructor
  · intro h r hphase
    rw [simulationVerdict_finished hphase] at h
    cases hlogs : logs pod.name <;> rw [hlogs] at h <;> cases h
  · exact simulationVerdict_unfinished

theorem simulationVerdict_some {logs : String → Except String String} {pod : Pod} {r : JobResult}
    {text : String} : simulationVerdict logs pod = .ok (some (r, text)) ↔
      pod.phase = some r.phase ∧ logs pod.name = .ok text := by
  constructor
  · intro h
    by_cases hfinished : ∃ r' : JobResult, pod.phase = some r'.phase
    · obtain ⟨r', hphase⟩ := hfinished
      rw [simulationVerdict_finished hphase] at h
      cases hlogs : logs pod.name with
      | error err =>
        rw [hlogs] at h
        cases h
      | ok text' =>
        rw [hlogs] at h
        cases h
        exact ⟨hphase, rfl⟩
    · rw [simulationVerdict_unfinished fun r' hr' => hfinished ⟨r', hr'⟩] at h
      cases h
  · rintro ⟨hphase, hlogs⟩
    rw [simulationVerdict_finished hphase, hlogs]
    rfl

theorem simulationEvent_none {logs : String → Except String String} {ev : WatchEvent Pod} :
    simulationEvent logs ev = .ok none ↔ NotFinished ev := by
  cases ev with
  | added pod => exact simulationVerdict_none
  | modified pod => exact simulationVerdict_none
  | deleted pod => simp [simulationEvent, NotFinished]
  | bookmark => simp [simulationEvent, NotFinished]
  | error err => simp [simulationEvent, NotFinished]

theorem simulationEvent_some {logs : String → Except String String} {ev : WatchEvent Pod}
    {r : JobResult} {text : String} : simulationEvent logs ev = .ok (some (r, text)) ↔
      ∃ pod, (ev = .added pod ∨ ev = .modified pod) ∧ pod.phase = some r.phase ∧
        logs pod.name = .ok text := by
  cases ev with
  | added pod => simp [simulationEvent, simulationVerdict_some]
  | modified pod => simp [simulationEvent, simulationVerdict_some]
  | deleted pod => simp [simulationEvent]
  | bookmark => simp [simulationEvent]
  | error err => simp [simulationEvent]

/-- The wait always ends, and its result is that of the first finished pod. -/
theorem wait_for_simulation_result (watch : Watch Pod) (logs : Nat → String → Except String String)
    (timeout_seconds : UInt32) :
    ∃ run, wait_for_simulation watch logs timeout_seconds = some run ∧
      ∀ r, (∃ text, run.result = .ok (r, text)) ↔
        ∃ pod, FirstFinished (podEvents watch timeout_seconds) logs pod r := by
  obtain ⟨run, hrun⟩ : ∃ run, wait_for_simulation watch logs timeout_seconds = some run :=
    loop_with_max_timeout_ends (by decide)
  refine ⟨run, hrun, ?_⟩
  intro r
  have hpass : run.result = passResult (nextEvents
      (fun p : Nat × WatchEvent Pod => simulationEvent (logs p.1) p.2)
      (podEvents watch timeout_seconds)) := loop_eq_pass hrun
  rw [hpass]
  constructor
  · rintro ⟨text, hres⟩
    obtain ⟨⟨i, ev⟩, ⟨before, after, hsplit, hbefore, _⟩, hev⟩ :=
      actsOn_of_some (passResult_eq_ok.mp hres)
    obtain ⟨pod, hpod, hphase, hlogs⟩ := simulationEvent_some.mp hev
    refine ⟨pod, before, i, ev, after, text, hsplit, ?_, hpod, hphase, hlogs⟩
    intro x hx
    obtain ⟨p, rfl, hnone⟩ := hbefore x hx
    exact ⟨p, rfl, simulationEvent_none.mp hnone⟩
  · rintro ⟨pod, before, i, ev, after, text, hsplit, hbefore, hpod, hphase, hlogs⟩
    have hev : simulationEvent (logs i) ev = .ok (some (r, text)) :=
      simulationEvent_some.mpr ⟨pod, hpod, hphase, hlogs⟩
    refine ⟨text, passResult_eq_ok.mpr ?_⟩
    have hact : ActsOn (fun p : Nat × WatchEvent Pod => simulationEvent (logs p.1) p.2)
        (podEvents watch timeout_seconds) (i, ev) := by
      refine ⟨before, after, hsplit, ?_, ?_⟩
      · intro x hx
        obtain ⟨p, rfl, hnot⟩ := hbefore x hx
        exact ⟨p, rfl, simulationEvent_none.mpr hnot⟩
      · show simulationEvent (logs i) ev ≠ .ok none
        rw [hev]
        simp
    exact (nextEvents_of_actsOn hact).trans hev

end Hermetic
