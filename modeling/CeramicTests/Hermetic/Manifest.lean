import CeramicTests.Hermetic.Cluster
import CeramicTests.Hermetic.ProcessPeers

/-! # What the test pod needs

    The Job's pod mounts ConfigMaps, reads a key of a Secret and runs under a
    ServiceAccount. It does not start before all of them are there. An init
    container writes the environment of the tests, which the tests read from
    a volume that both containers mount.

    - Section 1: what a pod refers to
    - Section 2: what has been applied when the Job is created
    - Section 3: the Job among other runs
-/

namespace Hermetic

open Framework Transition

/-! ## Section 1: What a pod refers to -/

/-- The Service sends what comes to its port on to a port of the pods of the
    StatefulSet. -/
def ServiceSpec.Reaches (service : ServiceSpec) (spec : StatefulSetSpec) : Prop :=
  (∀ label ∈ service.selector, label ∈ spec.template_labels) ∧
    ∃ container ∈ spec.template.containers, service.target_port ∈ container.ports

/-- The ConfigMap that a volume shows. -/
def VolumeSource.reference (ns : String) : VolumeSource → Option Object
  | .config_map name _ => some ⟨.ConfigMap, some ns, name⟩
  | _ => none

def EnvVar.reference (ns : String) (var : EnvVar) : Option Object :=
  match var.source with
  | .secret_key_ref name _ => some ⟨.Secret, some ns, name⟩
  | _ => none

def Container.references (ns : String) (container : Container) : List Object :=
  container.env.filterMap (EnvVar.reference ns) ++
    container.env_from.map fun name => ⟨.ConfigMap, some ns, name⟩

/-- The objects of its namespace without which a pod does not start. -/
def PodSpec.references (ns : String) (pod : PodSpec) : List Object :=
  (pod.service_account_name.toList.map fun name => ⟨.ServiceAccount, some ns, name⟩) ++
    pod.volumes.filterMap (fun volume => volume.source.reference ns) ++
    pod.allContainers.flatMap (Container.references ns)

/-- The init container runs `process-peers.sh`, which `data`, the ConfigMap
    `process-peers`, holds, as a file that can be executed. The script polls
    the file of the operator's ConfigMap, takes its secret from the admin
    Secret, and writes only to the file in which the tests look for their
    environment, in a volume that can be written (`script`). -/
structure PodSpec.HandsOver (pod : PodSpec) (init tests : Container)
    (data : List (String × String)) : Prop where
  runs : ∃ command name file, init.command.getLast? = some command ∧
    pod.fileAt init command =
      some (⟨name, .config_map PROCESS_PEERS_NAME (some 0o755)⟩, file) ∧
    data.lookup file = some "./process-peers.sh"
  polls : ∃ name, pod.fileAt init PEERS_FILE =
    some (⟨name, .config_map KERAMIK_PEERS_NAME none⟩, "peers.json")
  secret : ⟨SECRET_VARIABLE,
    .secret_key_ref CERAMIC_ADMIN_DID_SECRET_NAME DID_PRIVATE_KEY_NAME⟩ ∈ init.env
  writes : ∀ read vars path text, (path, text) ∈ (script read vars).2 →
    ∃ name file path', pod.fileAt init path = some (⟨name, .empty_dir⟩, file) ∧
      pod.fileAt tests path' = some (⟨name, .empty_dir⟩, file) ∧
      ⟨"DOTENV_CONFIG_PATH", .value path'⟩ ∈ tests.env

def keramikPeers (ns : String) : Object := ⟨.ConfigMap, some ns, KERAMIK_PEERS_NAME⟩

section bodies

variable {image image_pull_policy test_selector ns : String}

theorem job_references : (job_spec image image_pull_policy test_selector).template.references ns =
    [⟨.ServiceAccount, some ns, SERVICE_ACCOUNT_NAME⟩,
      ⟨.ConfigMap, some ns, PROCESS_PEERS_NAME⟩, keramikPeers ns, adminSecretObject ns,
      keramikPeers ns] := rfl

theorem job_mounts : (job_spec image image_pull_policy test_selector).template.Mounts := by
  intro container hcontainer
  simp only [PodSpec.allContainers, job_spec, List.cons_append, List.nil_append, List.mem_cons,
    List.not_mem_nil, or_false] at hcontainer
  rcases hcontainer with rfl | rfl
  · intro mount hmount
    simp only [job_init, List.mem_cons, List.not_mem_nil, or_false] at hmount
    rcases hmount with rfl | rfl | rfl <;> simp [job_spec, job_volumes]
  · intro mount hmount
    rw [List.mem_singleton.mp hmount]
    simp [job_spec, job_volumes]

/-- The file that the script writes is the one that the tests read. -/
theorem script_writes {read : Nat → String → PeersFile} {vars : String → String}
    {path text : String} (h : (path, text) ∈ (script read vars).2) : path = ENV_FILE := by
  obtain ⟨_, _, heq⟩ := List.mem_map.mp h
  exact (Prod.mk.inj heq).1.symm

theorem job_hands_over : (job_spec image image_pull_policy test_selector).template.HandsOver
    job_init (tests_container image image_pull_policy test_selector)
    [("process-peers.sh", "./process-peers.sh")] where
  runs := ⟨_, PROCESS_PEERS_NAME, "process-peers.sh", rfl, rfl, rfl⟩
  polls := ⟨"peers-volume", rfl⟩
  secret := by simp [job_init, SECRET_VARIABLE]
  writes := by
    intro read vars path text hwritten
    rw [script_writes hwritten]
    exact ⟨"config-volume", ".env", ENV_FILE, rfl, rfl, List.mem_cons_self⟩

theorem localstack_reached : localstack_service_spec.Reaches localstack_stateful_set_spec := by
  constructor
  · decide
  · exact ⟨_, List.mem_singleton_self _, by decide⟩

end bodies

/-! ## Section 2: What has been applied when the Job is created -/

section created

variable {env : Environment} {opts : TestConfig} {before after : List Action} {ns : String}
  {resource : Resource} {answer : Except RunError Created}

theorem verdicts_eq_of_prepared {earlier : List Action}
    (h : prepare env opts [] = (.ok ns, earlier)) : ∃ new,
    (verdicts env opts []).2 = earlier ++ new ∧
      new.filterMap Action.planned <+: testsPlan env opts ns ++ resultsPlan env opts ns := by
  have hrest : Logged.Follows Action.planned
      (createTests env opts ns >>= awaitResults env opts ns)
      (testsPlan env opts ns ++ resultsPlan env opts ns) :=
    createTests_planned.bind fun _ => awaitResults_planned
  obtain ⟨new, hnew, hsteps, _⟩ := hrest earlier
  unfold verdicts
  rw [Logged.bind_of_ok h]
  exact ⟨new, hnew, hsteps⟩

/-- What a run creates, it creates after a set-up that is complete. -/
theorem created_after_setUp
    (hlog : (run env opts []).2 = before ++ .create ns resource answer :: after) :
    ∃ earlier, prepare env opts [] = (.ok ns, earlier) ∧ (∀ a ∈ earlier, a ∈ before) ∧
      testsResource env opts ns = .ok resource := by
  rw [(run_of_verdicts env opts).1] at hlog
  have hspec : Logged.Spec (SetsUp env opts) (prepare env opts) _ _ := prepare_spec
  obtain ⟨new, hnew, hsetsUp⟩ := hspec.actions []
  rw [List.nil_append] at hnew
  have hnothing : ∀ resource answer, .create ns resource answer ∉ (prepare env opts []).2 := by
    intro resource answer hmem
    rw [hnew] at hmem
    cases hsetsUp _ hmem
  cases hprepare : prepare env opts [] with
  | mk outcome earlier =>
    rw [hprepare] at hnothing
    cases outcome with
    | error e =>
      unfold verdicts at hlog
      rw [Logged.bind_of_error hprepare] at hlog
      have hlog : earlier = before ++ .create ns resource answer :: after := hlog
      refine absurd ?_ (hnothing resource answer)
      rw [hlog]
      exact List.mem_append_right _ List.mem_cons_self
    | ok ns' =>
      obtain ⟨rest, hrest, hsteps⟩ := verdicts_eq_of_prepared hprepare
      rw [hrest] at hlog
      -- the create is not in the set-up
      obtain ⟨between, hbefore, htail⟩ := (entry_of_append hlog).resolve_right
        fun ⟨_, hearlier, _⟩ => hnothing resource answer (by simp [hearlier])
      have hplanned : .create ns resource ∈ testsPlan env opts ns' ++ resultsPlan env opts ns' := by
        refine hsteps.subset (List.mem_filterMap.mpr ⟨.create ns resource answer, ?_, rfl⟩)
        simp [htail]
      rcases List.mem_append.mp hplanned with hplanned | hplanned
      · obtain ⟨resource', htests, hcreate⟩ := mem_testsPlan hplanned
        cases hcreate
        refine ⟨earlier, rfl, ?_, htests⟩
        intro a ha
        rw [hbefore]
        exact List.mem_append_left _ ha
      · exact absurd rfl ((mem_resultsPlan hplanned).2 ns resource)

/-- The Job has the body that `correctness_test` gives it. -/
theorem testsResource_job {job : JobSpec} (h : testsResource env opts ns = .ok resource)
    (hjob : resource.content = .job job) :
    ∃ image image_pull_policy, job = job_spec image image_pull_policy opts.test_selector := by
  have hbody : ∀ image : Option String, resource = correctness_test ns image opts.test_selector →
      ∃ image image_pull_policy, job = job_spec image image_pull_policy opts.test_selector := by
    rintro image rfl
    cases image with
    | none => exact ⟨_, _, (Content.job.inj hjob).symm⟩
    | some image => exact ⟨_, _, (Content.job.inj hjob).symm⟩
  unfold testsResource at h
  cases hflavor : opts.flavor with
  | Correctness =>
    simp only [hflavor] at h
    exact hbody opts.test_image (Except.ok.inj h).symm
  | Migration wait_secs migration =>
    simp only [hflavor] at h
    exact hbody opts.test_image (Except.ok.inj h).symm
  | Performance path =>
    simp only [hflavor] at h
    cases hfile : performance_simulation env ns path with
    | error e =>
      rw [hfile] at h
      cases h
    | ok simulation =>
      rw [hfile] at h
      cases h
      cases hjob

end created

/-! ## Section 3: The Job among other runs -/

section among

variable {Agent : Type} [DecidableEq Agent] {Stored : Type}
  {merge : Option Stored → Resource → Stored} {s s' : Cluster Stored}
  {tr : List (Fired (Cluster Stored) (Agent × Action))}

omit [DecidableEq Agent] in
/-- No object goes away, whoever acts on the cluster. -/
theorem together_keeps (h : (System.together (cluster merge)).Run s tr s') {object : Object}
    (hobject : s object ≠ none) : s' object ≠ none := by
  induction h with
  | nil => exact hobject
  | snoc _ hstep ih =>
    have hstep : Serves merge _ _ _ := hstep
    exact hstep.keeps ih

/-- What an action has found or left is there from then on. -/
theorem there_at_end {i : Agent} {a : Action} {object : Object}
    (h : (System.together (cluster merge)).Run s tr s') (ha : a ∈ System.actionsOf i tr)
    (hthere : ∀ s s' : Cluster Stored, Serves merge s a s' → s' object ≠ none) :
    s' object ≠ none := by
  obtain ⟨f, hf, hlabel⟩ := System.mem_actionsOf ha
  obtain ⟨earlier, later, rfl⟩ := List.append_of_mem hf
  obtain ⟨_, hstep, hlater⟩ := h.split
  have hstep : Serves merge f.before f.label.2 f.after := hstep
  rw [hlabel] at hstep
  exact together_keeps hlater (hthere _ _ hstep)

/-- A run has applied this to the object, and the object is there. -/
structure AppliedAs (s : Cluster Stored) (log : List Action) (object : Object)
    (content : Content) : Prop where
  applied : ∃ resource, .patch object resource (.ok ()) ∈ log ∧ resource.content = content
  there : s object ≠ none

/-- A set-up that is complete leaves what it applies, and the Secret, to
    everything that comes later, whatever others do meanwhile. -/
theorem there_after_setUp {i : Agent} {log : List Action} {network : Network}
    {network_name : String} {opts : TestConfig}
    (hcarries : CarriesOut (setUpPlan network network_name opts) log)
    (h : (System.together (cluster merge)).Run s tr s')
    (hlog : ∀ a ∈ log, a ∈ System.actionsOf i tr) :
    (∀ object resource, .apply object resource ∈ setUpPlan network network_name opts →
      AppliedAs s' (System.actionsOf i tr) object resource.content) ∧
    s' (adminSecretObject ("keramik-" ++ network_name)) ≠ none := by
  constructor
  · intro object resource hplan
    obtain ⟨a, ha, hplanned, hsucceeded⟩ := hcarries.mem hplan
    obtain ⟨rfl, _⟩ := planned_apply hplanned hsucceeded
    exact ⟨⟨resource, hlog _ ha, rfl⟩,
      there_at_end h (hlog _ ha) fun _ _ hstep => hstep.applied_there⟩
  · have hget : .get (adminSecretObject ("keramik-" ++ network_name)) ∈
        setUpPlan network network_name opts := by simp [setUpPlan]
    obtain ⟨a, ha, hplanned, hsucceeded⟩ := hcarries.mem hget
    obtain ⟨found, rfl⟩ := planned_get hplanned hsucceeded
    cases found with
    | true => exact there_at_end h (hlog _ ha) fun _ _ hstep => hstep.found_there
    -- it was missing, and the run has applied its own
    | false =>
      obtain ⟨resource, hpatch⟩ := hcarries.secret _ ha
      exact there_at_end h (hlog _ hpatch) fun _ _ hstep => hstep.applied_there

/-- All objects that the pod refers to are there, but for the ConfigMap that
    the operator writes, and its mounts show its volumes. What is in the
    objects is left open, the key of the Secret too. -/
structure Startable (s : Cluster Stored) (ns : String) (pod : PodSpec) : Prop where
  there : ∀ object ∈ pod.references ns, object ≠ keramikPeers ns → s object ≠ none
  mounts : pod.Mounts

/-- The tests are given the name and the port of a Service that the run has
    applied. It is the Service of a StatefulSet that the run has applied, and
    reaches the pods of that. Whether these pods are ready is left open. -/
structure DatabaseThere (s : Cluster Stored) (log : List Action) (ns : String) (tests : Container)
    (name : String) (service : ServiceSpec) (stateful_set : StatefulSetSpec) : Prop where
  endpoint : ⟨"DB_ENDPOINT", .value (endpoint name service.port)⟩ ∈ tests.env
  service_applied : AppliedAs s log ⟨.Service, some ns, name⟩ (.service service)
  stateful_set_applied : ∃ set_name, AppliedAs s log ⟨.StatefulSet, some ns, set_name⟩
    (.stateful_set stateful_set)
  governs : stateful_set.service_name = name
  reached : service.Reaches stateful_set

section applied

variable {image image_pull_policy test_selector network_name : String} {network : Network}
  {opts : TestConfig} {t : Cluster Stored} {log : List Action}
  (happlied : ∀ object resource, .apply object resource ∈ setUpPlan network network_name opts →
    AppliedAs t log object resource.content)

include happlied

/-- The references of the Job's pod, one after the other. -/
theorem startable_of_applied (hsecret : t (adminSecretObject ("keramik-" ++ network_name)) ≠ none) :
    Startable t ("keramik-" ++ network_name)
      (job_spec image image_pull_policy test_selector).template where
  mounts := job_mounts
  there := by
    intro object hobject hpeers
    simp only [job_references, List.mem_cons, List.not_mem_nil, or_false] at hobject
    rcases hobject with rfl | rfl | rfl | rfl | rfl
    · exact (happlied _ (service_account ("keramik-" ++ network_name))
        (by simp [setUpPlan])).there
    · exact (happlied _ process_peers (by simp [setUpPlan])).there
    · exact absurd rfl hpeers
    · exact hsecret
    · exact absurd rfl hpeers

theorem database_of_applied (hflavor : opts.flavor = .Correctness) :
    DatabaseThere t log ("keramik-" ++ network_name)
      (tests_container image image_pull_policy test_selector) LOCALSTACK_SERVICE_NAME
      localstack_service_spec localstack_stateful_set_spec where
  endpoint := by simp [tests_container, localstack_service_spec]
  service_applied := happlied _ (localstack_service ("keramik-" ++ network_name))
    (by simp [setUpPlan, dependencyPlan, hflavor])
  stateful_set_applied := ⟨LOCALSTACK_SERVICE_NAME,
    happlied _ (localstack_stateful_set ("keramik-" ++ network_name))
      (by simp [setUpPlan, dependencyPlan, hflavor])⟩
  governs := rfl
  reached := localstack_reached

end applied

/-- **No dangling reference.** When a run creates its Job,

    - all objects that the pod of the Job refers to are in its namespace, but
      for the peers that the operator lists, whatever other runs and users
      apply and create meanwhile;
    - the init container runs the script that the run has applied, and what
      the script writes, it writes to the file that the tests read;
    - the tests of a correctness run are given the endpoint of a Service that
      the run has applied, in front of the database that it has applied. -/
theorem job_references_exist (env : Environment) (opts : TestConfig) {i : Agent}
    {earlier later : List (Fired (Cluster Stored) (Agent × Action))}
    {f : Fired (Cluster Stored) (Agent × Action)} {ns : String} {resource : Resource}
    {answer : Except RunError Created} {job : JobSpec}
    (h : (System.together (cluster merge)).Run s (earlier ++ f :: later) s')
    (hrun : System.actionsOf i (earlier ++ f :: later) <+: (run env opts []).2)
    (hlabel : f.label = (i, .create ns resource answer))
    (hjob : resource.content = .job job) :
    Startable f.before ns job.template ∧
    ∃ init tests data, job.template.init_containers = [init] ∧
      job.template.containers = [tests] ∧
      AppliedAs f.before (System.actionsOf i earlier) ⟨.ConfigMap, some ns, PROCESS_PEERS_NAME⟩
        (.config_map data) ∧
      job.template.HandsOver init tests data ∧
      (opts.flavor = .Correctness → ∃ name service stateful_set,
        DatabaseThere f.before (System.actionsOf i earlier) ns tests name service stateful_set) := by
  obtain ⟨rest, hrest⟩ := hrun
  have hactions : System.actionsOf i (earlier ++ f :: later) =
      System.actionsOf i earlier ++ .create ns resource answer :: System.actionsOf i later := by
    simp [System.actionsOf, List.filterMap_append, hlabel]
  rw [hactions, List.append_assoc, List.cons_append] at hrest
  -- the set-up is complete before the create, and stays in place
  obtain ⟨log, hprepare, hmem, htests⟩ := created_after_setUp hrest.symm
  obtain ⟨network, network_name, hparse, hname, rfl⟩ := prepare_namespace (by rw [hprepare])
  have hcarries : CarriesOut (setUpPlan network network_name opts) log := by
    have hsetUp := (prepare_keeps_to_plan hparse hname).2 ("keramik-" ++ network_name)
      (by rw [hprepare])
    rwa [hprepare] at hsetUp
  obtain ⟨happlied, hsecret⟩ := there_after_setUp hcarries h.split.1 hmem
  obtain ⟨image, image_pull_policy, rfl⟩ := testsResource_job htests hjob
  refine ⟨startable_of_applied happlied hsecret, job_init, _, _, rfl, rfl,
    happlied _ process_peers (by simp [setUpPlan]), job_hands_over, ?_⟩
  intro hflavor
  exact ⟨_, _, _, database_of_applied happlied hflavor⟩

private def testsJob : Resource :=
  correctness_test "keramik-correctness-basic-rust" none "."

private def jobCreated : Action :=
  .create "keramik-correctness-basic-rust" testsJob (.ok ⟨"ceramic-tests-x2v9q", "1"⟩)

/-- A tester alone on a cluster creates its Job. -/
theorem quiet_job_starts : ∃ tr s' job tests name service stateful_set,
    (System.together (cluster latest)).Run stock tr s' ∧
    System.actionsOf () tr = (prepare around (tester false) []).2 ∧
    testsJob.content = .job job ∧ job.template.containers = [tests] ∧
    Startable s' "keramik-correctness-basic-rust" job.template ∧
    DatabaseThere s' (System.actionsOf () tr) "keramik-correctness-basic-rust" tests name service
      stateful_set := by
  obtain ⟨tr, s', hrun, hlog, hs'⟩ := quiet_set_up
  obtain ⟨tr', hrun', hactions⟩ := hrun.by_one ()
  rw [hlog] at hactions
  have hfree : s' ⟨.Job, some "keramik-correctness-basic-rust", "ceramic-tests-x2v9q"⟩ = none :=
    (hs' _).mpr rfl
  have hns : s'.Has (some "keramik-correctness-basic-rust") := by
    intro h
    cases (hs' _).mp h
  have hcreate : Serves latest s' jobCreated _ :=
    .created hns (Or.inr ⟨rfl, "ceramic-tests-", "x2v9q", rfl, by decide⟩) hfree
  have hstep : (System.together (cluster latest)).step s' ((), jobCreated) _ := hcreate
  have hown : ∀ after, System.actionsOf () (tr' ++ [⟨s', ((), jobCreated), after⟩]) <+:
      (run around (tester false) []).2 := by
    intro after
    unfold System.actionsOf at hactions ⊢
    rw [List.filterMap_append, hactions]
    show (prepare around (tester false) []).2 ++ [jobCreated] <+: (run around (tester false) []).2
    exact List.isPrefixOf_iff_prefix.mp (by decide +kernel)
  obtain ⟨hstartable, _, tests, _, _, htests, _, _, hdatabase⟩ :=
    job_references_exist around (tester false) (hrun'.snoc hstep) (hown _) rfl rfl
  obtain ⟨name, service, stateful_set, hthere⟩ := hdatabase rfl
  exact ⟨tr', s', _, tests, name, service, stateful_set, hrun', hactions, rfl, htests, hstartable,
    hthere⟩

end among

end Hermetic
