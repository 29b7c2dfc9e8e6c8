import CeramicTests.Hermetic.Isolation

/-! # Whose verdict a performance run returns

    A performance run creates a Simulation in the namespace of its network,
    and returns the verdict of the first simulate-manager pod that has
    finished there. Other Simulations may have left pods of that kind in the
    namespace, and a watch from resource version "0" begins with them.

    The verdict belongs to the Simulation of the run exactly when the first
    finished pod is one of its own, or one of its own has ended in the same
    way (`FirstFinishedIsOwn`).
-/

namespace Hermetic

open Framework

/-! ## Section 1: The claim and its condition -/

/-- A pod that was made for `created` has been in this phase. -/
def Reached (env : Environment) (ns : String) (created : Created) (phase : String) : Prop :=
  ∃ pod ∈ env.pod_history ns, pod.simulation = some created.uid ∧ pod.phase = some phase

/-- A pod of a Simulation that the run created has been in this phase. -/
def OwnPodReached (env : Environment) (log : List Action) (phase : String) : Prop :=
  ∃ ns resource created, .create ns resource (.ok created) ∈ log ∧ resource.kind = .Simulation ∧
    Reached env ns created phase

/-- What a run returns for the verdict of its tests. -/
def JobResult.outcome : JobResult → Except RunError Unit
  | .Pass => .ok ()
  | .Fail => .error testsFailed

/-- A verdict comes with a pod of the run's own Simulation that ended so. -/
def VerdictIsOwn (env : Environment) (opts : TestConfig) : Prop :=
  ∀ r : JobResult, (run env opts []).1 = r.outcome → OwnPodReached env (run env opts []).2 r.phase

/-- When the Simulation has been created, the first finished pod that the
    watches deliver was made for it, or one that was has ended in the same
    phase. -/
def FirstFinishedIsOwn (env : Environment) (opts : TestConfig) : Prop :=
  ∀ ns before job_name log resource created, prepare env opts [] = (.ok ns, before) →
    createTests env opts ns before = (.ok job_name, log) →
    .create ns resource (.ok created) ∈ log → ∀ pod r,
      FirstFinished (podEvents (env.pods ns) opts.job_timeout) (env.pod_logs ns) pod r →
      pod.simulation = some created.uid ∨ Reached env ns created r.phase

/-! ## Section 2: The run up to the wait -/

section launch

variable {env : Environment} {opts : TestConfig} {simulation : String}

/-- Nothing is created before the job. -/
theorem prepare_creates_nothing {ns : String} {before : List Action}
    (h : prepare env opts [] = (.ok ns, before)) (ns' : String) (resource : Resource)
    (answer : Except RunError Created) : .create ns' resource answer ∉ before := by
  have hspec : Logged.Spec (SetsUp env opts) (prepare env opts) _ _ := prepare_spec
  obtain ⟨new, hlog, hnew⟩ := hspec.actions []
  rw [h, List.nil_append] at hlog
  intro hmem
  have hlog : before = new := hlog
  rw [hlog] at hmem
  cases hnew _ hmem

/-- A performance run creates one Simulation. -/
theorem createTests_performance (hflavor : opts.flavor = .Performance simulation) {ns : String}
    {job_name : String} {before log : List Action}
    (h : createTests env opts ns before = (.ok job_name, log)) :
    ∃ resource created, resource.kind = .Simulation ∧
      log = before ++ [.create ns resource (.ok created)] := by
  unfold createTests at h
  rw [hflavor] at h
  obtain ⟨file, between, hfile, hcreate⟩ := Logged.bind_eq_ok h
  obtain ⟨_, rfl⟩ := Logged.ofExcept_eq_ok hfile
  unfold create_resource_namespaced at hcreate
  obtain ⟨created, log', hcall, hname⟩ := Logged.bind_eq_ok hcreate
  obtain ⟨_, rfl⟩ := Logged.call_eq_ok hcall
  cases hname
  exact ⟨file.resource, created, rfl, rfl⟩

/-- The rest of a performance run is the wait. -/
theorem run_of_launched (hflavor : opts.flavor = .Performance simulation) {ns job_name : String}
    {before log : List Action} (hprepare : prepare env opts [] = (.ok ns, before))
    (hcreate : createTests env opts ns before = (.ok job_name, log)) :
    run env opts [] = (waitForSimulation env opts ns >>= report) log := by
  unfold run
  rw [Logged.bind_of_ok hprepare, Logged.bind_of_ok hcreate]
  unfold awaitResults
  rw [hflavor]

theorem error_ne_outcome {e : RunError} (he : e ≠ testsFailed) (r : JobResult) :
    .error e ≠ r.outcome := by
  intro h
  cases r with
  | Pass => cases h
  | Fail => exact he (Except.error.inj h)

/-- A run with a verdict got to the wait. -/
theorem launched_of_verdict {r : JobResult} (h : (run env opts []).1 = r.outcome) :
    ∃ ns before job_name log, prepare env opts [] = (.ok ns, before) ∧
      createTests env opts ns before = (.ok job_name, log) := by
  unfold run at h
  cases hprepare : prepare env opts [] with
  | mk res before =>
    cases res with
    | error e =>
      rw [Logged.bind_of_error hprepare] at h
      exact absurd h (error_ne_outcome (prepare_spec.error [] e (by rw [hprepare])) r)
    | ok ns =>
      rw [Logged.bind_of_ok hprepare] at h
      cases hcreate : createTests env opts ns before with
      | mk res log =>
        cases res with
        | error e =>
          rw [Logged.bind_of_error hcreate] at h
          exact absurd h (error_ne_outcome (createTests_spec.error before e (by rw [hcreate])) r)
        | ok job_name => exact ⟨ns, before, job_name, log, rfl, hcreate⟩

/-! ## Section 3: The verdict -/

variable {ns job_name : String} {before log : List Action}

/-- The run returns the verdict of the first finished pod. -/
theorem verdict_iff (hflavor : opts.flavor = .Performance simulation)
    (hprepare : prepare env opts [] = (.ok ns, before))
    (hcreate : createTests env opts ns before = (.ok job_name, log)) :
    (run env opts []).2 = log ++ [.wait_for_simulation ns (simulationWait env opts ns)] ∧
    ∀ r : JobResult, (run env opts []).1 = r.outcome ↔
      ∃ pod, FirstFinished (podEvents (env.pods ns) opts.job_timeout) (env.pod_logs ns) pod r := by
  obtain ⟨w, hw, hresult⟩ :=
    wait_for_simulation_result (env.pods ns) (env.pod_logs ns) opts.job_timeout
  have hcall : waitForSimulation env opts ns log = (w.result.mapError .wait,
      log ++ [.wait_for_simulation ns (simulationWait env opts ns)]) := by
    refine Prod.ext ?_ rfl
    show waited _ = _
    rw [hw]
    rfl
  rw [run_of_launched hflavor hprepare hcreate]
  cases hres : w.result with
  -- the wait failed, with an error that is no verdict
  | error err =>
    rw [hres] at hcall
    rw [Logged.bind_of_error hcall]
    refine ⟨rfl, fun r => ?_⟩
    rw [← hresult r, hres]
    constructor
    · intro h
      exact absurd h (error_ne_outcome (by intro herr; cases herr) r)
    · rintro ⟨text, htext⟩
      cases htext
  -- the wait had a verdict, which the run reports
  | ok results =>
    obtain ⟨r', text'⟩ := results
    rw [hres] at hcall
    rw [Logged.bind_of_ok hcall]
    have hreport : ∀ log, report (r', text') log = (r'.outcome, log) := by
      intro log
      cases r' <;> rfl
    rw [hreport]
    refine ⟨rfl, fun r => ?_⟩
    rw [← hresult r, hres]
    constructor
    · intro h
      have hr : r' = r := by
        cases r' <;> cases r
        · rfl
        · cases h
        · cases h
        · rfl
      exact ⟨text', by rw [hr]⟩
    · rintro ⟨text, htext⟩
      cases htext
      rfl

/-- The Simulation of the run is the only one it creates. -/
theorem ownPodReached_iff (hflavor : opts.flavor = .Performance simulation)
    (hprepare : prepare env opts [] = (.ok ns, before))
    (hcreate : createTests env opts ns before = (.ok job_name, log)) {resource : Resource}
    {created : Created} (hcreated : .create ns resource (.ok created) ∈ log) {phase : String} :
    OwnPodReached env (run env opts []).2 phase ↔ Reached env ns created phase := by
  obtain ⟨resource', created', hkind, hlog⟩ := createTests_performance hflavor hcreate
  rw [(verdict_iff hflavor hprepare hcreate).1]
  have honly : ∀ ns' r c, .create ns' r (.ok c) ∈ log → ns' = ns ∧ c = created' ∧ r = resource' := by
    intro ns' r c hmem
    rw [hlog] at hmem
    rcases List.mem_append.mp hmem with hmem | hmem
    · exact absurd hmem (prepare_creates_nothing hprepare ns' r _)
    · cases List.mem_singleton.mp hmem
      exact ⟨rfl, rfl, rfl⟩
  -- so `created` is that Simulation
  obtain ⟨-, rfl, rfl⟩ := honly ns resource created hcreated
  constructor
  · rintro ⟨ns', r, c, hmem, _, hreached⟩
    rcases List.mem_append.mp hmem with hmem | hmem
    · obtain ⟨rfl, rfl, -⟩ := honly ns' r c hmem
      exact hreached
    · cases List.mem_singleton.mp hmem
  · intro hreached
    exact ⟨ns, resource, created, List.mem_append_left _ hcreated, hkind, hreached⟩

/-- A finished pod that a watch shows has been in its phase. -/
theorem shown_of_firstFinished {pod : Pod} {r : JobResult}
    (h : FirstFinished (podEvents (env.pods ns) opts.job_timeout) (env.pod_logs ns) pod r) :
    pod ∈ env.pod_history ns ∧ pod.phase = some r.phase := by
  obtain ⟨earlier, i, ev, after, text, hsplit, _, hpod, hphase, _⟩ := h
  have hmem : .ok (i, ev) ∈ podEvents (env.pods ns) opts.job_timeout := by
    rw [hsplit]
    simp
  obtain ⟨timeout, stream, hstream, hev⟩ := mem_deliveredFrom hmem
  have hobject : ev.object = some pod := by
    rcases hpod with rfl | rfl <;> rfl
  exact ⟨env.pods_shown ns i timeout stream ev pod hstream hev hobject, hphase⟩

end launch

/-- **Attribution.** The verdict of a performance run belongs to the
    Simulation that the run created, if and only if the first finished pod
    that its watches deliver does, or a pod that does has ended in the same
    phase. -/
theorem verdictIsOwn_iff (env : Environment) (config : TestConfig) (simulation : String) :
    VerdictIsOwn env { config with flavor := .Performance simulation } ↔
      FirstFinishedIsOwn env { config with flavor := .Performance simulation } := by
  have hflavor : ({ config with flavor := .Performance simulation } : TestConfig).flavor =
    .Performance simulation := rfl
  generalize ({ config with flavor := .Performance simulation } : TestConfig) = opts at hflavor ⊢
  constructor
  · intro hown ns before job_name log resource created hprepare hcreate hcreated pod r hfirst
    right
    -- the first finished pod decides what the run returns
    have hverdict := ((verdict_iff hflavor hprepare hcreate).2 r).mpr ⟨pod, hfirst⟩
    exact (ownPodReached_iff hflavor hprepare hcreate hcreated).mp (hown r hverdict)
  · intro hfirst r hverdict
    -- a run with a verdict has created its Simulation
    obtain ⟨ns, before, job_name, log, hprepare, hcreate⟩ := launched_of_verdict hverdict
    obtain ⟨resource, created, _, hlog⟩ := createTests_performance hflavor hcreate
    have hcreated : .create ns resource (.ok created) ∈ log := by
      rw [hlog]
      simp
    obtain ⟨pod, hpod⟩ := ((verdict_iff hflavor hprepare hcreate).2 r).mp hverdict
    rw [ownPodReached_iff hflavor hprepare hcreate hcreated]
    rcases hfirst ns before job_name log resource created hprepare hcreate hcreated pod r hpod with
      hsim | hreached
    · obtain ⟨hmem, hphase⟩ := shown_of_firstFinished hpod
      exact ⟨pod, hmem, hsim, hphase⟩
    · exact hreached

/-! ### A pod left over from an earlier Simulation

    The Simulation "recon" of an earlier run is gone, but its pod is still in
    the namespace, and has succeeded. The pod of this run fails. -/

section leftover

private def oldPod : Pod := ⟨"simulate-manager-k4x7d", some "0", some ⟨some "Succeeded"⟩⟩

private def own : Pod := ⟨"simulate-manager-9wq2c", some "1", some ⟨some "Failed"⟩⟩

private def ownPending : Pod := { own with status := some ⟨some "Pending"⟩ }

private def leftoverPod : Environment :=
  { Environment.quiet fun _ => "basic-rust" with
    simulation_file := fun _ => .ok ⟨⟨some "recon", none, none⟩, "scenario: recon-event-sync"⟩
    create := fun _ _ _ => .ok ⟨"recon", "1"⟩
    pods := fun _ _ _ => .ok [.ok (.added oldPod), .ok (.added ownPending), .ok (.modified own)]
    pod_logs := fun _ _ _ => .ok ""
    pod_history := fun _ => [oldPod, ownPending, own]
    pods_shown := by
      intro ns i timeout stream ev pod hstream hev hpod
      cases hstream
      simp only [List.mem_cons, Except.ok.injEq, List.not_mem_nil, or_false] at hev ⊢
      rcases hev with rfl | rfl | rfl
      · exact Or.inl (Option.some.inj hpod).symm
      · exact Or.inr (Or.inl (Option.some.inj hpod).symm)
      · exact Or.inr (Or.inr (Option.some.inj hpod).symm) }

private def performance : TestConfig :=
  ⟨"basic-rust.yaml", none, .Performance "basic-simulation.yaml", none, 28800, 290, 290, "."⟩

/-- What the server says of the objects that an action creates. -/
private def createdBy : Action → Option Created
  | .create _ _ (.ok created) => some created
  | _ => none

private theorem created_leftover :
    ∀ a ∈ (run leftoverPod performance []).2, createdBy a = none ∨ createdBy a = some ⟨"recon", "1"⟩ := by
  decide +kernel

/-- The run passes with the verdict of the old pod. -/
theorem passes_on_leftover_pod :
    (run leftoverPod performance []).1 = .ok () ∧
    ¬ OwnPodReached leftoverPod (run leftoverPod performance []).2 "Succeeded" ∧
    ¬ VerdictIsOwn leftoverPod performance := by
  have hpass : (run leftoverPod performance []).1 = .ok () := by decide +kernel
  have hnot : ¬ OwnPodReached leftoverPod (run leftoverPod performance []).2 "Succeeded" := by
    rintro ⟨ns, resource, created, hmem, _, pod, hpod, hsim, hphase⟩
    rcases created_leftover _ hmem with h | h
    · cases h
    cases h
    -- only the old pod has succeeded, and it is of another Simulation
    have hpods : ∀ p ∈ leftoverPod.pod_history ns, p.simulation = some "1" →
        p.phase ≠ some "Succeeded" := by
      show ∀ p ∈ [oldPod, ownPending, own], p.simulation = some "1" → p.phase ≠ some "Succeeded"
      decide
    exact hpods pod hpod hsim hphase
  exact ⟨hpass, hnot, fun hown => hnot (hown .Pass hpass)⟩

end leftover

end Hermetic
