import CeramicTests.Hermetic.AdminSecret
import CeramicTests.Hermetic.Attribution

/-! # What a run sets out to do

    The files and the configuration settle what a run asks of the cluster,
    before its first call (`plan`). The answers decide only how far the run
    gets, and whether a Secret is created on the way.

    - Section 1: the plan
    - Section 2: each part of a run keeps to its part of the plan
    - Section 3: the whole run
-/

namespace Hermetic

open Framework

/-! ## Section 1: The plan -/

/-- An action without its answer. A wait is planned with its timeout. -/
inductive Planned where
  | get (object : Object)
  | apply (object : Object) (resource : Resource)
  | create (ns : String) (resource : Resource)
  | wait_for_network (network_name : String) (timeout_seconds : UInt32)
  | sleep (wait_secs : Nat)
  | wait_for_job (ns : String) (timeout_seconds : UInt32)
  | wait_for_simulation (ns : String) (timeout_seconds : UInt32)
  deriving DecidableEq

/-- The apply of a Secret is in no plan: it depends on the answer to a `get`. -/
def Action.planned : Action → Option Planned
  | .get object _ => some (.get object)
  | .patch object resource _ =>
    if object.kind = .Secret then none else some (.apply object resource)
  | .create ns resource _ => some (.create ns resource)
  | .wait_for_network network_name wait =>
    some (.wait_for_network network_name wait.timeout_seconds)
  | .sleep wait_secs => some (.sleep wait_secs)
  | .wait_for_job ns _ wait => some (.wait_for_job ns wait.timeout_seconds)
  | .wait_for_simulation ns wait => some (.wait_for_simulation ns wait.timeout_seconds)

/-- The call or the wait had the outcome that lets the run go on. -/
def Action.succeeded : Action → Bool
  | .get _ answer => answer.isOk
  | .patch _ _ answer => answer.isOk
  | .create _ _ answer => answer.isOk
  | .wait_for_network _ wait => wait.outcome.isOk
  | .sleep _ => true
  | .wait_for_job _ _ wait => wait.outcome.isOk
  | .wait_for_simulation _ wait => wait.outcome.isOk

def dependencyPlan (ns : String) : Flavor → List Planned
  | .Performance _ => []
  | .Migration _ _ => []
  | .Correctness =>
    [.apply ⟨.StatefulSet, some ns, LOCALSTACK_SERVICE_NAME⟩ (localstack_stateful_set ns),
      .apply ⟨.Service, some ns, LOCALSTACK_SERVICE_NAME⟩ (localstack_service ns)]

def namespaceResource (ns : String) : Resource := ⟨.Namespace, named ns, .fixed⟩

def setUpPlan (network : Network) (network_name : String) (opts : TestConfig) : List Planned :=
  let ns := "keramik-" ++ network_name
  [.apply ⟨.Namespace, none, ns⟩ (namespaceResource ns),
    .get (adminSecretObject ns),
    .apply ⟨.ServiceAccount, some ns, SERVICE_ACCOUNT_NAME⟩ (service_account ns),
    .apply clusterRole cluster_role,
    .apply ⟨.ClusterRoleBinding, none, "ceramic-tests-cluster-binding-role-" ++ ns⟩
      (cluster_role_binding ns),
    .apply ⟨.Network, none, network_name⟩ network.resource,
    .apply ⟨.ConfigMap, some ns, PROCESS_PEERS_NAME⟩ process_peers] ++
  dependencyPlan ns opts.flavor ++ [.wait_for_network network_name opts.network_timeout]

/-- The Job or the Simulation, if the file of the Simulation can be read. -/
def testsResource (env : Environment) (opts : TestConfig) (ns : String) : Except RunError Resource :=
  match opts.flavor with
  | .Correctness => .ok (correctness_test ns opts.test_image opts.test_selector)
  | .Migration _ _ => .ok (correctness_test ns opts.test_image opts.test_selector)
  | .Performance simulation => (performance_simulation env ns simulation).map Simulation.resource

def testsPlan (env : Environment) (opts : TestConfig) (ns : String) : List Planned :=
  match testsResource env opts ns with
  | .ok resource => [.create ns resource]
  | .error _ => []

/-- The Network of a file that has been read. -/
def networkPlan (parsed : Except RunError Network) : List Planned :=
  match parsed with
  | .error _ => []
  | .ok network =>
    match network.name with
    | none => []
    | some network_name => [.apply ⟨.Network, none, network_name⟩ network.resource]

def resultsPlan (env : Environment) (opts : TestConfig) (ns : String) : List Planned :=
  match opts.flavor with
  | .Correctness => [.wait_for_job ns opts.job_timeout]
  | .Migration wait_secs migration => [.sleep wait_secs] ++
    networkPlan (parse_network_file env migration opts.network_ttl opts.flavor opts.suffix) ++
    [.wait_for_job ns opts.job_timeout]
  | .Performance _ => [.wait_for_simulation ns opts.job_timeout]

def plan (env : Environment) (opts : TestConfig) : List Planned :=
  match parse_network_file env opts.network opts.network_ttl opts.flavor opts.suffix with
  | .error _ => []
  | .ok network =>
    match network.name with
    | none => []
    | some network_name =>
      let ns := "keramik-" ++ network_name
      setUpPlan network network_name opts ++ (testsPlan env opts ns ++
        resultsPlan env opts ns)

/-! ## Section 2: The parts of a run -/

section parts

variable {env : Environment} {opts : TestConfig}

theorem applyResource_planned {ns : Option String} {resource : Resource} {name : String}
    (hname : resource.metadata.name = some name) (hkind : resource.kind ≠ .Secret) :
    Logged.Follows Action.planned (applyResource env ns resource)
      [.apply ⟨resource.kind, ns, name⟩ resource] := by
  unfold applyResource
  rw [hname]
  refine Logged.Follows.call fun answer => ?_
  simp [Action.planned, hkind]

/-- Whether the Secret is created or not, the plan has only the question. -/
theorem ensureSecret_planned {ns : String} :
    Logged.Follows Action.planned (ensureSecret env ns) [.get (adminSecretObject ns)] := by
  unfold ensureSecret
  have hask : Logged.Follows Action.planned
      (is_secret_missing env ns CERAMIC_ADMIN_DID_SECRET_NAME)
      ([.get (adminSecretObject ns)] ++ []) :=
    Logged.Follows.bind (Logged.Follows.call fun _ => rfl) fun _ => Logged.Follows.pure
  have hcreate : ∀ missing : Bool, Logged.Follows Action.planned
      (if missing then create_secret env ns CERAMIC_ADMIN_DID_SECRET_NAME
        (env.did_private_key.getD DID_PRIVATE_KEY) else pure ()) [] := by
    intro missing
    cases missing with
    | false => exact Logged.Follows.pure
    | true =>
      rw [if_pos rfl]
      exact Logged.Follows.call fun _ => rfl
  exact hask.bind hcreate

theorem applyDependencies_planned {ns : String} {flavor : Flavor} :
    Logged.Follows Action.planned (applyDependencies env ns flavor) (dependencyPlan ns flavor) := by
  cases flavor with
  | Performance simulation => exact Logged.Follows.pure
  | Migration wait_secs migration => exact Logged.Follows.pure
  | Correctness =>
    exact Logged.Follows.bind (applyResource_planned rfl (fun h => by cases h))
      fun _ => applyResource_planned rfl (fun h => by cases h)

/-- The set-up, of a network file that can be read. -/
theorem prepare_planned {network : Network} {network_name : String}
    (hparse : parse_network_file env opts.network opts.network_ttl opts.flavor opts.suffix =
      .ok network) (hname : network.name = some network_name) :
    Logged.Follows Action.planned (prepare env opts) (setUpPlan network network_name opts) := by
  have hunchecked : nameUnchecked network.resource.metadata = .ok network_name := by
    simp only [nameUnchecked, Network.resource, hname]
  unfold prepare
  rw [hparse, Logged.ofExcept_ok_bind, hunchecked, Logged.ofExcept_ok_bind]
  unfold setUpPlan
  simp only [List.cons_append, List.nil_append]
  refine Logged.Follows.skip Logged.Follows.ofExcept fun _ => ?_
  refine Logged.Follows.step (applyResource_planned rfl (fun h => by cases h)) fun _ => ?_
  -- the plan has one step for the Secret, however it is set up
  refine Logged.Follows.step ensureSecret_planned fun _ => ?_
  refine Logged.Follows.step (applyResource_planned rfl (fun h => by cases h)) fun _ => ?_
  refine Logged.Follows.step (applyResource_planned rfl (fun h => by cases h)) fun _ => ?_
  refine Logged.Follows.step (applyResource_planned rfl (fun h => by cases h)) fun _ => ?_
  refine Logged.Follows.step (applyResource_planned hname (fun h => by cases h)) fun _ => ?_
  refine Logged.Follows.step (applyResource_planned rfl (fun h => by cases h)) fun _ => ?_
  refine Logged.Follows.bind applyDependencies_planned fun _ => ?_
  exact Logged.Follows.step (Logged.Follows.call fun _ => rfl) fun _ => Logged.Follows.pure

theorem parse_network_file_named {file_path : String} {network : Network}
    (h : parse_network_file env file_path opts.network_ttl opts.flavor opts.suffix = .ok network) :
    ∃ network_name, network.name = some network_name := by
  obtain ⟨joined, _, hname⟩ := parse_network_file_name h
  exact ⟨_, hname⟩

theorem createTests_planned {ns : String} :
    Logged.Follows Action.planned (createTests env opts ns) (testsPlan env opts ns) := by
  have hcreate : ∀ resource : Resource, Logged.Follows Action.planned
      (create_resource_namespaced env ns resource) [.create ns resource] := fun resource =>
    Logged.Follows.step (Logged.Follows.call fun _ => rfl) fun _ => Logged.Follows.pure
  unfold createTests testsPlan testsResource
  cases opts.flavor with
  | Correctness => exact hcreate _
  | Migration wait_secs migration => exact hcreate _
  | Performance simulation =>
    cases hfile : performance_simulation env ns simulation with
    | error e =>
      simp only [hfile]
      exact Logged.Follows.throw
    | ok file =>
      simp only [hfile]
      exact hcreate _

/-- The Network of a file is applied, unless the file cannot be read. -/
theorem applyNetwork_planned {file_path : String} :
    Logged.Follows Action.planned
      (do
        let network ← Logged.ofExcept
          (parse_network_file env file_path opts.network_ttl opts.flavor opts.suffix)
        apply_resource env network.resource)
      (networkPlan
        (parse_network_file env file_path opts.network_ttl opts.flavor opts.suffix)) := by
  cases hparse : parse_network_file env file_path opts.network_ttl opts.flavor opts.suffix with
  | error e => exact Logged.Follows.throw
  | ok network =>
    obtain ⟨network_name, hname⟩ := parse_network_file_named hparse
    simp only [networkPlan, hname, Logged.ofExcept_ok_bind]
    exact applyResource_planned hname (fun h => by cases h)

theorem awaitResults_planned {ns job_name : String} :
    Logged.Follows Action.planned (awaitResults env opts ns job_name)
      (resultsPlan env opts ns) := by
  have hjob : Logged.Follows Action.planned (waitForJob env opts ns job_name)
      [.wait_for_job ns opts.job_timeout] := Logged.Follows.call fun _ => rfl
  unfold awaitResults resultsPlan
  cases hflavor : opts.flavor with
  | Correctness => exact hjob
  | Performance simulation => exact Logged.Follows.call fun _ => rfl
  | Migration wait_secs migration =>
    have hsleep : Logged.Follows Action.planned
        (Logged.call (fun _ => .ok ()) (fun _ => .sleep wait_secs) : Driver Unit)
        [.sleep wait_secs] := Logged.Follows.call fun _ => rfl
    have hmigrate : Logged.Follows Action.planned (migrate env opts wait_secs migration)
        ([.sleep wait_secs] ++ networkPlan
          (parse_network_file env migration opts.network_ttl opts.flavor opts.suffix)) :=
      hsleep.bind fun _ => applyNetwork_planned
    rw [hflavor] at hmigrate
    exact hmigrate.bind fun _ => hjob

/-! ### The verdict apart -/

/-- A run without the report of its verdict. -/
def verdicts (env : Environment) (opts : TestConfig) : Driver (JobResult × String) := do
  let ns ← prepare env opts
  let job_name ← createTests env opts ns
  awaitResults env opts ns job_name

theorem run_eq_verdicts : run env opts = verdicts env opts >>= report := by
  unfold run verdicts
  rw [Logged.bind_assoc]
  congr 1
  funext ns
  exact Logged.bind_assoc.symm

/-- The report adds nothing to the log, and no other error looks like it. -/
theorem run_of_verdicts (env : Environment) (opts : TestConfig) :
    (run env opts []).2 = (verdicts env opts []).2 ∧
    ∀ r : JobResult, (run env opts []).1 = r.outcome →
      ∃ logs, (verdicts env opts []).1 = .ok (r, logs) := by
  have herror : Logged.Spec (fun _ => True) (verdicts env opts) (fun _ => True)
      (fun e => e ≠ testsFailed) := by
    unfold verdicts
    refine (prepare_spec.weaken (fun _ _ => trivial) (fun _ _ => trivial)
      (fun _ he => he)).andThen fun ns => ?_
    refine (createTests_spec.weaken (fun _ _ => trivial) (fun _ _ => trivial)
      (fun _ he => he)).andThen fun job_name => ?_
    exact awaitResults_spec.weaken (fun _ _ => trivial) (fun _ _ => trivial) (fun _ he => he)
  rw [run_eq_verdicts]
  cases h : verdicts env opts [] with
  | mk res log =>
    cases res with
    | error e =>
      rw [Logged.bind_of_error h]
      refine ⟨rfl, ?_⟩
      intro r hr
      exact absurd hr (error_ne_outcome (herror.error [] e (by rw [h])) r)
    | ok verdict =>
      obtain ⟨result, logs⟩ := verdict
      rw [Logged.bind_of_ok h]
      refine ⟨by cases result <;> rfl, ?_⟩
      intro r hr
      refine ⟨logs, ?_⟩
      cases result <;> cases r <;> first | rfl | cases hr

/-! ### What a whole log is like -/

/-- The Secret is the only object that a run asks for. -/
def Action.aboutSecret : Action → Bool
  | .get _ _ => true
  | .patch object _ _ => object.kind == .Secret
  | _ => false

/-- A property of logs that composes, that all actions but those about the
    Secret have, and that the set-up of the Secret keeps. -/
structure LogRule (env : Environment) (R : Bool → List Action → Prop) : Prop where
  composes : Logged.Composes R
  plain : ∀ a done, a.aboutSecret = false → (done = true → a.succeeded = true) → R done [a]
  secret : ∀ ns, Logged.Logs R (ensureSecret env ns)

variable {R : Bool → List Action → Prop}

theorem applyResource_logs (hR : LogRule env R) {ns : Option String} {resource : Resource}
    (hkind : resource.kind ≠ .Secret) : Logged.Logs R (applyResource env ns resource) := by
  unfold applyResource
  cases resource.metadata.name with
  | none => exact Logged.Logs.ofExcept hR.composes
  | some name =>
    refine Logged.Logs.call fun answer => hR.plain _ _ ?_ fun h => h
    simp [Action.aboutSecret, hkind]

/-- A wait that fails is the last thing that a program does. -/
theorem recordWait_logs (hR : LogRule env R) {α : Type} {wait : Wait α} {record : Wait α → Action}
    (hrecord : (record wait).aboutSecret = false)
    (hsucceeded : (record wait).succeeded = wait.outcome.isOk) :
    Logged.Logs R (recordWait wait record) :=
  fun _ => ⟨_, rfl, hR.plain _ _ hrecord fun h => hsucceeded.trans h⟩

theorem applyDependencies_logs (hR : LogRule env R) {ns : String} {flavor : Flavor} :
    Logged.Logs R (applyDependencies env ns flavor) := by
  cases flavor with
  | Performance simulation => exact Logged.Logs.pure hR.composes
  | Migration wait_secs migration => exact Logged.Logs.pure hR.composes
  | Correctness =>
    exact Logged.Logs.bind hR.composes (applyResource_logs hR (fun h => by cases h)) fun _ =>
      applyResource_logs hR (fun h => by cases h)

theorem prepare_logs (hR : LogRule env R) : Logged.Logs R (prepare env opts) := by
  unfold prepare
  refine Logged.Logs.bind hR.composes (Logged.Logs.ofExcept hR.composes) fun _ => ?_
  refine Logged.Logs.bind hR.composes (Logged.Logs.ofExcept hR.composes) fun network => ?_
  refine Logged.Logs.bind hR.composes (Logged.Logs.ofExcept hR.composes) fun network_name => ?_
  refine Logged.Logs.bind hR.composes (applyResource_logs hR (fun h => by cases h)) fun _ => ?_
  refine Logged.Logs.bind hR.composes (hR.secret _) fun _ => ?_
  refine Logged.Logs.bind hR.composes (applyResource_logs hR (fun h => by cases h)) fun _ => ?_
  refine Logged.Logs.bind hR.composes (applyResource_logs hR (fun h => by cases h)) fun _ => ?_
  refine Logged.Logs.bind hR.composes (applyResource_logs hR (fun h => by cases h)) fun _ => ?_
  refine Logged.Logs.bind hR.composes (applyResource_logs hR (fun h => by cases h)) fun _ => ?_
  refine Logged.Logs.bind hR.composes (applyResource_logs hR (fun h => by cases h)) fun _ => ?_
  refine Logged.Logs.bind hR.composes (applyDependencies_logs hR) fun _ => ?_
  exact Logged.Logs.bind hR.composes (recordWait_logs hR rfl rfl) fun _ =>
    Logged.Logs.pure hR.composes

theorem createTests_logs (hR : LogRule env R) {ns : String} :
    Logged.Logs R (createTests env opts ns) := by
  have hcreate : ∀ resource : Resource,
      Logged.Logs R (create_resource_namespaced env ns resource) := fun resource =>
    Logged.Logs.bind hR.composes (Logged.Logs.call fun _ => hR.plain _ _ rfl fun h => h)
      fun _ => Logged.Logs.pure hR.composes
  unfold createTests
  cases opts.flavor with
  | Correctness => exact hcreate _
  | Migration wait_secs migration => exact hcreate _
  | Performance simulation =>
    exact Logged.Logs.bind hR.composes (Logged.Logs.ofExcept hR.composes) fun _ => hcreate _

theorem awaitResults_logs (hR : LogRule env R) {ns job_name : String} :
    Logged.Logs R (awaitResults env opts ns job_name) := by
  unfold awaitResults
  cases opts.flavor with
  | Correctness => exact recordWait_logs hR rfl rfl
  | Performance simulation => exact recordWait_logs hR rfl rfl
  | Migration wait_secs migration =>
    refine Logged.Logs.bind hR.composes ?_ fun _ => recordWait_logs hR rfl rfl
    refine Logged.Logs.bind hR.composes
      (Logged.Logs.call fun _ => hR.plain _ _ rfl fun _ => rfl) fun _ => ?_
    refine Logged.Logs.bind hR.composes (Logged.Logs.ofExcept hR.composes) fun network => ?_
    exact applyResource_logs hR (fun h => by cases h)

theorem verdicts_logs (hR : LogRule env R) : Logged.Logs R (verdicts env opts) :=
  Logged.Logs.bind hR.composes (prepare_logs hR) fun _ =>
    Logged.Logs.bind hR.composes (createTests_logs hR) fun _ => awaitResults_logs hR

/-- Every way in which the set-up of the Secret can go. -/
inductive SecretLog (ns : String) : Bool → List Action → Prop where
  | unanswered (e : RunError) : SecretLog ns false [.get (adminSecretObject ns) (.error e)]
  | there : SecretLog ns true [.get (adminSecretObject ns) (.ok true)]
  | applied (private_key : String) (answer : Except RunError Unit) : SecretLog ns answer.isOk
      [.get (adminSecretObject ns) (.ok false),
        .patch (adminSecretObject ns) (adminSecretResource private_key) answer]

theorem ensureSecret_logs {ns : String} : Logged.Logs (SecretLog ns) (ensureSecret env ns) := by
  intro log
  unfold ensureSecret
  cases hget : env.get_secret log.length (adminSecretObject ns) with
  | error err =>
    rw [Logged.bind_of_error (is_secret_missing_error hget)]
    exact ⟨_, rfl, .unanswered _⟩
  | ok secret =>
    rw [Logged.bind_of_ok (is_secret_missing_ok hget)]
    cases secret with
    | true => exact ⟨_, rfl, .there⟩
    | false =>
      let private_key := env.did_private_key.getD DID_PRIVATE_KEY
      let log' := log ++ [.get (adminSecretObject ns) (.ok false)]
      obtain ⟨answer, hpatch⟩ : ∃ answer, env.patch log'.length (adminSecretObject ns)
        (adminSecretResource private_key) = answer := ⟨_, rfl⟩
      have hcreate := create_secret_eq hpatch
      refine ⟨[.get (adminSecretObject ns) (.ok false), .patch (adminSecretObject ns)
        (adminSecretResource private_key) (answer.mapError .call)], ?_, ?_⟩
      · show (create_secret env ns _ private_key log').2 = _
        rw [hcreate, List.append_assoc]
        rfl
      · show SecretLog ns (create_secret env ns _ private_key log').1.isOk _
        rw [hcreate]
        exact .applied private_key _

theorem failStop_rule : LogRule env (Logged.FailStop fun a => a.succeeded = true) where
  composes := Logged.FailStop.composes _
  plain := by
    intro a done _ hsucceeded
    exact ⟨by simp, by simpa using hsucceeded⟩
  secret := by
    intro ns log
    have hsecret : Logged.Logs (SecretLog ns) (ensureSecret env ns) := ensureSecret_logs
    obtain ⟨new, hlog, hnew⟩ := hsecret log
    refine ⟨new, hlog, ?_⟩
    generalize (ensureSecret env ns log).1.isOk = done at hnew
    -- only the last action can have failed
    cases hnew with
    | unanswered e => exact ⟨by simp, by simp⟩
    | there => exact ⟨by simp, by simp [Action.succeeded, Except.isOk, Except.toBool]⟩
    | applied private_key answer =>
      have hget : (Action.get (adminSecretObject ns) (.ok false)).succeeded = true := rfl
      exact ⟨by simpa using hget, by simp [Action.succeeded, Except.isOk, Except.toBool]⟩

/-- A Secret is applied only after the answer that there is none, and it has
    been applied if the run gets past that answer. -/
structure SecretIfMissing (done : Bool) (log : List Action) : Prop where
  onlyIf : ∀ before object resource answer after,
    log = before ++ .patch object resource answer :: after → object.kind = .Secret →
    .get object (.ok false) ∈ before
  applied : done = true → ∀ object, .get object (.ok false) ∈ log →
    ∃ resource, .patch object resource (.ok ()) ∈ log

theorem SecretIfMissing.composes : Logged.Composes SecretIfMissing where
  nil := by
    intro done
    exact ⟨by simp, by simp⟩
  append := by
    intro done l l' hl hl'
    constructor
    · intro before object resource answer after heq hkind
      -- the apply is in the second log, or in the first one
      rcases Transition.entry_of_append heq with ⟨between, rfl, hlater⟩ | ⟨between, hearlier, _⟩
      · exact List.mem_append_right _ (hl'.onlyIf _ _ _ _ _ hlater hkind)
      · exact hl.onlyIf _ _ _ _ _ hearlier hkind
    · intro hdone object hmissing
      rcases List.mem_append.mp hmissing with h | h
      · obtain ⟨resource, hresource⟩ := hl.applied rfl object h
        exact ⟨resource, List.mem_append_left _ hresource⟩
      · obtain ⟨resource, hresource⟩ := hl'.applied hdone object h
        exact ⟨resource, List.mem_append_right _ hresource⟩

/-- Nothing is asked in vain, and no Secret is applied. -/
theorem SecretIfMissing.of_none {done : Bool} {log : List Action}
    (hpatch : ∀ object resource answer, .patch object resource answer ∈ log →
      object.kind ≠ .Secret)
    (hget : ∀ object, .get object (.ok false) ∉ log) : SecretIfMissing done log where
  onlyIf := by
    intro before object resource answer after heq hkind
    exact absurd hkind (hpatch object resource answer (by simp [heq]))
  applied := by
    intro _ object h
    exact absurd h (hget object)

theorem SecretLog.secretIfMissing {ns : String} {done : Bool} {log : List Action}
    (h : SecretLog ns done log) : SecretIfMissing done log := by
  cases h with
  | unanswered e => exact .of_none (by simp) (by simp)
  | there => exact .of_none (by simp) (by simp)
  | applied private_key answer =>
    constructor
    · intro before object resource answer' after heq _
      cases before with
      | nil => cases (List.cons.inj heq).1
      | cons a before =>
        -- both actions are about the one Secret
        obtain ⟨rfl, htail⟩ := List.cons.inj heq
        have hmem : Action.patch object resource answer' ∈ [Action.patch (adminSecretObject ns)
            (adminSecretResource private_key) answer] := by simp [htail]
        cases List.mem_singleton.mp hmem
        exact List.mem_cons_self
    · intro hdone object hobject
      cases answer with
      | error e => cases hdone
      | ok _ =>
        have hobject : object = adminSecretObject ns := by simpa using hobject
        subst hobject
        exact ⟨adminSecretResource private_key, by simp⟩

theorem secretIfMissing_rule : LogRule env SecretIfMissing where
  composes := SecretIfMissing.composes
  plain := by
    intro a done hplain _
    refine .of_none ?_ ?_
    · intro object resource answer hmem hkind
      rw [← List.mem_singleton.mp hmem] at hplain
      simp [Action.aboutSecret, hkind] at hplain
    · intro object hmem
      rw [← List.mem_singleton.mp hmem] at hplain
      cases hplain
  secret := by
    intro ns log
    have hsecret : Logged.Logs (SecretLog ns) (ensureSecret env ns) := ensureSecret_logs
    obtain ⟨new, hlog, hnew⟩ := hsecret log
    exact ⟨new, hlog, hnew.secretIfMissing⟩

end parts

/-! ## Section 3: The whole run -/

section whole

variable {env : Environment} {opts : TestConfig}

/-- The Network that is waited for comes from a file that can be read. -/
theorem Awaits.parsed {network_name : String} (h : Awaits env opts network_name) :
    ∃ network, parse_network_file env opts.network opts.network_ttl opts.flavor opts.suffix =
      .ok network ∧ network.name = some network_name := by
  obtain ⟨joined, ⟨file, name, hfile, hname, rfl⟩, rfl⟩ := h
  unfold parse_network_file
  simp only [hfile, hname]
  refine ⟨_, rfl, ?_⟩
  show some (withSuffix (opts.flavor.name ++ "-" ++ name) opts.suffix) = _
  rw [withSuffix_append]
  rfl

/-- The set-up returns the namespace of the network. -/
theorem prepare_namespace {log : List Action} {ns : String}
    (h : (prepare env opts log).1 = .ok ns) : ∃ network network_name,
      parse_network_file env opts.network opts.network_ttl opts.flavor opts.suffix = .ok network ∧
      network.name = some network_name ∧ ns = "keramik-" ++ network_name := by
  obtain ⟨network_name, hawaits, hns⟩ := prepare_spec.result log ns h
  obtain ⟨network, hparse, hname⟩ := hawaits.parsed
  exact ⟨network, network_name, hparse, hname, hns⟩

theorem verdicts_planned : Logged.Follows Action.planned (verdicts env opts) (plan env opts) := by
  unfold plan verdicts
  cases hparse : parse_network_file env opts.network opts.network_ttl opts.flavor opts.suffix with
  | error e =>
    -- without a network the set-up throws before its first call
    have hprepare : Logged.Follows Action.planned (prepare env opts) [] := by
      unfold prepare
      rw [hparse]
      exact Logged.Follows.skip Logged.Follows.ofExcept fun _ => Logged.Follows.throw
    have hfails : ∀ log ns, (prepare env opts log).1 = .ok ns → False := by
      intro log ns hns
      obtain ⟨network, _, hok, _⟩ := prepare_namespace hns
      cases hparse.symm.trans hok
    have hnothing : Logged.Follows Action.planned (verdicts env opts) ([] ++ []) :=
      hprepare.bindOf hfails fun _ h => h.elim
    exact hnothing
  | ok network =>
    obtain ⟨network_name, hname⟩ := parse_network_file_named hparse
    simp only [hname]
    refine (prepare_planned hparse hname).bindOf (Q := fun ns => ns = "keramik-" ++ network_name)
      ?_ ?_
    · intro log ns hns
      obtain ⟨network', network_name', hparse', hname', rfl⟩ := prepare_namespace hns
      cases hparse.symm.trans hparse'
      cases hname.symm.trans hname'
      rfl
    · rintro _ rfl
      exact createTests_planned.bind fun _ => awaitResults_planned

/-- The log goes through the steps in their order, as far as it goes. -/
structure KeepsTo (steps : List Planned) (log : List Action) : Prop where
  inOrder : log.filterMap Action.planned <+: steps
  failStop : ∀ a ∈ log.dropLast, a.succeeded = true
  secret : ∀ before object resource answer after,
    log = before ++ .patch object resource answer :: after → object.kind = .Secret →
    .get object (.ok false) ∈ before

/-- The log goes through all steps, with success. -/
structure CarriesOut (steps : List Planned) (log : List Action) : Prop where
  inOrder : log.filterMap Action.planned = steps
  succeeded : ∀ a ∈ log, a.succeeded = true
  secret : ∀ object, .get object (.ok false) ∈ log →
    ∃ resource, .patch object resource (.ok ()) ∈ log

theorem keepsTo_of_rules {α : Type} {m : Driver α} {steps : List Planned}
    (hsteps : Logged.Follows Action.planned m steps)
    (hlogs : ∀ R, LogRule env R → Logged.Logs R m) :
    KeepsTo steps (m []).2 ∧ ∀ y, (m []).1 = .ok y → CarriesOut steps (m []).2 := by
  obtain ⟨new, hnew, hinOrder, hall⟩ := hsteps []
  obtain ⟨new₁, hnew₁, hstop⟩ := hlogs _ failStop_rule []
  obtain ⟨new₂, hnew₂, hsecret⟩ := hlogs _ secretIfMissing_rule []
  -- one log, seen three times
  rw [List.nil_append] at hnew hnew₁ hnew₂
  subst hnew
  subst hnew₁
  subst hnew₂
  refine ⟨⟨hinOrder, hstop.1, hsecret.onlyIf⟩, ?_⟩
  intro y hy
  have hdone : (m []).1.isOk = true := by rw [hy]; rfl
  exact ⟨hall y hy, hstop.2 hdone, hsecret.applied hdone⟩

/-- The report of the verdict adds nothing to what a run does. -/
theorem run_inOrder (env : Environment) (opts : TestConfig) :
    (run env opts []).2.filterMap Action.planned <+: plan env opts := by
  have hplanned : Logged.Follows Action.planned (verdicts env opts) (plan env opts) :=
    verdicts_planned
  obtain ⟨new, hnew, hsteps, _⟩ := hplanned []
  rw [(run_of_verdicts env opts).1, hnew, List.nil_append]
  exact hsteps

/-- **Plan.** Whatever the cluster answers, a run takes the steps of its plan
    in their order, and goes on only after a call or a wait that succeeded. A
    run that returns a verdict has carried out the whole plan. -/
theorem run_keeps_to_plan (env : Environment) (opts : TestConfig) :
    KeepsTo (plan env opts) (run env opts []).2 ∧
    ∀ r : JobResult, (run env opts []).1 = r.outcome →
      CarriesOut (plan env opts) (run env opts []).2 := by
  obtain ⟨hlog, hverdict⟩ := run_of_verdicts env opts
  have hplanned : Logged.Follows Action.planned (verdicts env opts) (plan env opts) :=
    verdicts_planned
  obtain ⟨hkeeps, hcarries⟩ := keepsTo_of_rules hplanned
    fun R (hR : LogRule env R) => verdicts_logs hR
  rw [hlog]
  refine ⟨hkeeps, ?_⟩
  intro r hr
  obtain ⟨logs, hok⟩ := hverdict r hr
  exact hcarries _ hok

/-- The set-up, of a network file that can be read. -/
theorem prepare_keeps_to_plan {network : Network} {network_name : String}
    (hparse : parse_network_file env opts.network opts.network_ttl opts.flavor opts.suffix =
      .ok network) (hname : network.name = some network_name) :
    KeepsTo (setUpPlan network network_name opts) (prepare env opts []).2 ∧
    ∀ ns, (prepare env opts []).1 = .ok ns →
      CarriesOut (setUpPlan network network_name opts) (prepare env opts []).2 :=
  keepsTo_of_rules (prepare_planned hparse hname) fun _ hR => prepare_logs hR

end whole

end Hermetic
