import CeramicTests.Hermetic.Plan
import CeramicTests.Hermetic.WatchArithmetic

/-! # What a run with a test job can be relied on for

    - Section 1: the verdict is that of the Job that the run created
    - Section 2: the waits of a run have a bound
-/

namespace Hermetic

open Framework

/-! ## Section 1: Whose verdict it is -/

/-- Some watch delivers a Job that has ended with this result. -/
def Watch.Delivered (watch : Watch Job) (r : JobResult) : Prop :=
  ∃ i timeout stream ev job, watch i timeout = .ok stream ∧ .ok ev ∈ stream ∧
    ev.object = some job ∧ Shows job r

theorem jobEvent_shows {pods : Pods} {ev : WatchEvent Job} {r : JobResult} {logs : String}
    (h : jobEvent pods ev = .ok (some (r, logs))) : ∃ job, ev.object = some job ∧ Shows job r := by
  cases ev with
  | bookmark => cases h
  | error err => cases h
  | added job => exact ⟨job, rfl, shows_of_check (verdict_eq_some h).1⟩
  | modified job => exact ⟨job, rfl, shows_of_check (verdict_eq_some h).1⟩
  | deleted job => exact ⟨job, rfl, shows_of_check (verdict_eq_some h).1⟩

/-- A verdict has been delivered by a watch. -/
theorem wait_for_job_delivered {watch : Watch Job} {pods : Nat → Pods} {timeout_seconds : UInt32}
    {w : LoopRun (JobResult × String)} (h : wait_for_job watch pods timeout_seconds = some w)
    {r : JobResult} {logs : String} (hr : w.result = .ok (r, logs)) : watch.Delivered r := by
  obtain ⟨i, timeout, _, hcall⟩ := loop_result h hr
  cases hopen : watch i timeout with
  | error err =>
    rw [hopen] at hcall
    cases hcall
  | ok stream =>
    rw [hopen] at hcall
    obtain ⟨ev, ⟨before, after, rfl, _, _⟩, hev⟩ := actsOn_of_some hcall
    obtain ⟨job, hobject, hshows⟩ := jobEvent_shows hev
    exact ⟨i, timeout, _, ev, job, hopen, by simp, hobject, hshows⟩

section verdict

variable {env : Environment} {opts : TestConfig} {ns job_name : String} {before log : List Action}

/-- The Job is the only thing that is created, and its name is the result. -/
theorem createTests_job (hflavor : ∀ simulation, opts.flavor ≠ .Performance simulation)
    (h : createTests env opts ns before = (.ok job_name, log)) :
    ∃ created : Created, job_name = created.name ∧ log = before ++
      [.create ns (correctness_test ns opts.test_image opts.test_selector) (.ok created)] := by
  have hcreate : create_resource_namespaced env ns
      (correctness_test ns opts.test_image opts.test_selector) before = (.ok job_name, log) := by
    unfold createTests at h
    cases hf : opts.flavor with
    | Correctness => simpa only [hf] using h
    | Migration wait_secs migration => simpa only [hf] using h
    | Performance simulation => exact absurd hf (hflavor simulation)
  unfold create_resource_namespaced at hcreate
  obtain ⟨created, log', hcall, hname⟩ := Logged.bind_eq_ok hcreate
  obtain ⟨_, rfl⟩ := Logged.call_eq_ok hcall
  cases hname
  exact ⟨created, rfl, rfl⟩

theorem waitForJob_delivered {r : JobResult} {logs : String}
    (h : waitForJob env opts ns job_name before = (.ok (r, logs), log)) :
    log = before ++ [.wait_for_job ns job_name (jobWait env opts ns job_name)] ∧
      (jobWait env opts ns job_name).outcome = .ok (r, logs) ∧
      (env.jobs ns job_name).Delivered r := by
  have hcall : Logged.call (fun _ => (jobWait env opts ns job_name).outcome)
    (fun _ => Action.wait_for_job ns job_name (jobWait env opts ns job_name)) before =
      (.ok (r, logs), log) := h
  obtain ⟨hwaited, hlog⟩ := Logged.call_eq_ok hcall
  refine ⟨hlog, hwaited, ?_⟩
  have hwaited : waited (wait_for_job (env.jobs ns job_name) (env.job_pods ns job_name)
    opts.job_timeout) = .ok (r, logs) := hwaited
  cases hw : wait_for_job (env.jobs ns job_name) (env.job_pods ns job_name) opts.job_timeout with
  | none =>
    rw [hw] at hwaited
    cases hwaited
  | some w =>
    rw [hw] at hwaited
    cases hres : w.result with
    | error err =>
      simp only [waited, hres] at hwaited
      cases hwaited
    | ok verdict =>
      simp only [waited, hres] at hwaited
      cases hwaited
      exact wait_for_job_delivered hw hres

/-- Between the Job and the wait for it there is at most the migration. -/
theorem awaitResults_job (hflavor : ∀ simulation, opts.flavor ≠ .Performance simulation)
    {r : JobResult} {logs : String}
    (h : awaitResults env opts ns job_name before = (.ok (r, logs), log)) :
    ∃ between, log = before ++ between ++
        [.wait_for_job ns job_name (jobWait env opts ns job_name)] ∧
      (∀ a ∈ between, Awaiting env opts a) ∧
      (jobWait env opts ns job_name).outcome = .ok (r, logs) ∧
      (env.jobs ns job_name).Delivered r := by
  unfold awaitResults at h
  cases hf : opts.flavor with
  | Performance simulation => exact absurd hf (hflavor simulation)
  | Correctness =>
    simp only [hf] at h
    obtain ⟨hlog, hverdict⟩ := waitForJob_delivered h
    exact ⟨[], by rw [List.append_nil]; exact hlog, by simp, hverdict⟩
  | Migration wait_secs migration =>
    simp only [hf] at h
    obtain ⟨_, log', hmigrate, hwait⟩ := Logged.bind_eq_ok h
    obtain ⟨between, hbetween, hactions⟩ := (migrate_spec hf).actions before
    obtain ⟨hlog, hverdict⟩ := waitForJob_delivered hwait
    rw [hmigrate] at hbetween
    have hbetween : log' = before ++ between := hbetween
    exact ⟨between, by rw [hlog, hbetween], hactions, hverdict⟩

/-- **A job verdict is the run's own.** A correctness or migration run with a
    verdict has created one Job, has waited for the name that the server gave
    it, with `job_timeout`, and was shown that the Job ended so. -/
theorem job_verdict_is_own (env : Environment) (opts : TestConfig)
    (hflavor : ∀ simulation, opts.flavor ≠ .Performance simulation)
    {r : JobResult} (h : (run env opts []).1 = r.outcome) :
    ∃ ns created earlier between logs,
      (run env opts []).2 = earlier ++
        .create ns (correctness_test ns opts.test_image opts.test_selector) (.ok created) ::
        (between ++ [.wait_for_job ns created.name (jobWait env opts ns created.name)]) ∧
      (∀ ns' resource answer, .create ns' resource answer ∉ earlier ++ between) ∧
      (jobWait env opts ns created.name).outcome = .ok (r, logs) ∧
      (env.jobs ns created.name).Delivered r := by
  obtain ⟨hlog, hverdict⟩ := run_of_verdicts env opts
  obtain ⟨logs, hok⟩ := hverdict r h
  have hverdicts : verdicts env opts [] = (.ok (r, logs), (run env opts []).2) := by
    rw [hlog, ← hok]
  unfold verdicts at hverdicts
  obtain ⟨ns, earlier, hprepare, hrest⟩ := Logged.bind_eq_ok hverdicts
  obtain ⟨job_name, log, hcreate, hawait⟩ := Logged.bind_eq_ok hrest
  obtain ⟨created, rfl, rfl⟩ := createTests_job hflavor hcreate
  obtain ⟨between, hall, hactions, hverdict⟩ := awaitResults_job hflavor hawait
  refine ⟨ns, created, earlier, between, logs, by rw [hall]; simp, ?_, hverdict⟩
  intro ns' resource answer hmem
  rcases List.mem_append.mp hmem with hmem | hmem
  · exact prepare_creates_nothing hprepare ns' resource answer hmem
  · cases hactions _ hmem

private def afterMinute : TestConfig :=
  ⟨"pre.yaml", none, .Migration 60 "post.yaml", none, 28800, 290, 290, "."⟩

/-- A migration run in a cluster without trouble. -/
theorem quiet_migration_verdict : ∃ ns created earlier between logs,
    (run (.quiet fun _ => "basic-go-rust") afterMinute []).2 = earlier ++
      .create ns (correctness_test ns none ".") (.ok created) ::
      (between ++ [.wait_for_job ns created.name
        (jobWait (.quiet fun _ => "basic-go-rust") afterMinute ns created.name)]) ∧
    (∀ ns' resource answer, .create ns' resource answer ∉ earlier ++ between) ∧
    (jobWait (.quiet fun _ => "basic-go-rust") afterMinute ns created.name).outcome =
      .ok (.Pass, logs) ∧
    Watch.Delivered completeJob .Pass :=
  job_verdict_is_own (.quiet fun _ => "basic-go-rust") afterMinute
    (by
      intro simulation h
      cases h)
    (r := .Pass) (by decide +kernel)

end verdict

/-! ## Section 2: How long a run may wait -/

/-- The seconds that the watches of a wait were granted. -/
def Wait.seconds {R : Type} (wait : Wait R) : Nat := (wait.granted.map UInt32.toNat).sum

/-- What an action may have taken by the clock, as the log has it, calls that
    are answered at once apart. -/
def Action.seconds : Action → Nat
  | .wait_for_network _ wait => wait.seconds
  | .sleep wait_secs => wait_secs
  | .wait_for_job _ _ wait => wait.seconds
  | .wait_for_simulation _ wait => wait.seconds
  | _ => 0

/-- What a step of the plan may take. -/
def Planned.seconds : Planned → Nat
  | .wait_for_network _ timeout_seconds => timeout_seconds.toNat
  | .sleep wait_secs => wait_secs
  | .wait_for_job _ timeout_seconds => timeout_seconds.toNat
  | .wait_for_simulation _ timeout_seconds => timeout_seconds.toNat
  | _ => 0

/-- The action took no longer than its step of the plan may take. -/
def Action.InTime (a : Action) : Prop := a.seconds ≤ (a.planned.map Planned.seconds).getD 0

/-- The time before a migration. -/
def Flavor.pause : Flavor → Nat
  | .Migration wait_secs _ => wait_secs
  | _ => 0

/-- The loop grants no more than it was given. -/
theorem Wait.seconds_le {R : Type} {wait : UInt32 → Option (LoopRun R)} {timeout_seconds : UInt32}
    {f : Nat → UInt32 → Except String (Option R)}
    (h : wait timeout_seconds =
      loop_with_max_timeout timeout_seconds MAX_KUBE_WATCH_TIMEOUT f) :
    (Wait.of wait timeout_seconds).seconds ≤ timeout_seconds.toNat := by
  have hpos : 0 < MAX_KUBE_WATCH_TIMEOUT := by decide
  obtain ⟨run, hrun⟩ : ∃ run, loop_with_max_timeout timeout_seconds MAX_KUBE_WATCH_TIMEOUT f =
      some run := loop_with_max_timeout_ends hpos
  -- the watches that were opened are the first ones of the schedule
  have hgranted : run.granted <+: schedule timeout_seconds MAX_KUBE_WATCH_TIMEOUT :=
    (loopFrom_granted hrun).1
  obtain ⟨rest, hrest⟩ := hgranted
  have hsum : ((schedule timeout_seconds MAX_KUBE_WATCH_TIMEOUT).map UInt32.toNat).sum =
      timeout_seconds.toNat := by
    rw [schedule_toNat hpos]
    exact portions_sum
  rw [← hrest, List.map_append, List.sum_append] at hsum
  unfold Wait.of Wait.seconds
  rw [h, hrun]
  show (run.granted.map UInt32.toNat).sum ≤ _
  omega

section seconds

variable {env : Environment} {opts : TestConfig}

theorem SetsUp.inTime {a : Action} (h : SetsUp env opts a) : a.InTime := by
  cases h with
  | get object answer => exact Nat.zero_le _
  | patch resource answer hawaits h => exact Nat.zero_le _
  | wait hawaits => exact Wait.seconds_le rfl

theorem Awaiting.inTime {a : Action} (h : Awaiting env opts a) : a.InTime := by
  cases h with
  | sleep wait_secs => exact Nat.le_refl _
  | patch resource answer happlies => exact Nat.zero_le _
  | job ns job_name => exact Wait.seconds_le rfl
  | simulation ns => exact Wait.seconds_le rfl

/-- Every wait of a run keeps to the timeout that it was called with. -/
theorem run_inTime (env : Environment) (opts : TestConfig) :
    ∀ a ∈ (run env opts []).2, a.InTime :=
  run_actions (fun _ h => h.inTime) (fun _ _ _ _ _ => Nat.zero_le _) fun _ h => h.inTime

theorem log_seconds_le {log : List Action} (h : ∀ a ∈ log, a.InTime) :
    (log.map Action.seconds).sum ≤ ((log.filterMap Action.planned).map Planned.seconds).sum := by
  induction log with
  | nil => exact Nat.le_refl _
  | cons a log ih =>
    have ha : a.seconds ≤ (a.planned.map Planned.seconds).getD 0 := h a List.mem_cons_self
    have hlog := ih fun b hb => h b (List.mem_cons_of_mem _ hb)
    rw [List.map_cons, List.sum_cons]
    cases hplanned : a.planned with
    | none =>
      -- the apply of a Secret is in no plan, and takes no time
      rw [hplanned] at ha
      have ha : a.seconds ≤ 0 := ha
      rw [List.filterMap_cons_none hplanned]
      omega
    | some p =>
      rw [hplanned] at ha
      have ha : a.seconds ≤ p.seconds := ha
      rw [List.filterMap_cons_some hplanned, List.map_cons, List.sum_cons]
      omega

theorem setUpPlan_seconds {network : Network} {network_name : String} :
    ((setUpPlan network network_name opts).map Planned.seconds).sum =
      opts.network_timeout.toNat := by
  unfold setUpPlan
  cases opts.flavor <;> simp [dependencyPlan, Planned.seconds]

theorem testsPlan_seconds {ns : String} :
    ((testsPlan env opts ns).map Planned.seconds).sum = 0 := by
  unfold testsPlan
  cases testsResource env opts ns <;> rfl

theorem networkPlan_seconds {parsed : Except RunError Network} :
    ((networkPlan parsed).map Planned.seconds).sum = 0 := by
  unfold networkPlan
  cases parsed with
  | error e => rfl
  | ok network => cases hname : network.name <;> simp [hname, Planned.seconds]

theorem resultsPlan_seconds {ns : String} :
    ((resultsPlan env opts ns).map Planned.seconds).sum =
      opts.flavor.pause + opts.job_timeout.toNat := by
  unfold resultsPlan
  cases opts.flavor with
  | Correctness => simp [Planned.seconds, Flavor.pause]
  | Performance simulation => simp [Planned.seconds, Flavor.pause]
  | Migration wait_secs migration =>
    simp [networkPlan_seconds, Planned.seconds, Flavor.pause]

theorem plan_seconds_le :
    ((plan env opts).map Planned.seconds).sum ≤
      opts.network_timeout.toNat + opts.flavor.pause + opts.job_timeout.toNat := by
  unfold plan
  cases parse_network_file env opts.network opts.network_ttl opts.flavor opts.suffix with
  | error e => simp
  | ok network =>
    cases hname : network.name with
    | none => simp [hname]
    | some network_name =>
      simp only [hname, List.map_append, List.sum_append]
      rw [setUpPlan_seconds, testsPlan_seconds, resultsPlan_seconds]
      omega

end seconds

/-- **Time.** Whatever its watches deliver, the log of a run shows no more
    seconds of waiting than its configuration allows: the run waits once for
    the network, once before a migration, and once for the results, each time
    with the timeout that is meant for it. -/
theorem run_waits_within_budget (env : Environment) (opts : TestConfig) :
    ((run env opts []).2.map Action.seconds).sum ≤
      opts.network_timeout.toNat + opts.flavor.pause + opts.job_timeout.toNat := by
  obtain ⟨rest, hrest⟩ := run_inOrder env opts
  have hplan : ((plan env opts).map Planned.seconds).sum ≤ _ := plan_seconds_le
  rw [← hrest, List.map_append, List.sum_append] at hplan
  have hlog := log_seconds_le (run_inTime env opts)
  omega

end Hermetic
