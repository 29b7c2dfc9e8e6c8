import CeramicTests.Framework.Logged
import CeramicTests.Hermetic.Pods
import CeramicTests.Hermetic.WaitForNetwork
import CeramicTests.Hermetic.WaitForSimulation

/-! # One run of the driver

    `run` of `hermetic/src/cli/tester.rs`: it sets up a namespace for the
    network, applies the network, waits until it is ready, creates a test Job
    or a Simulation, and waits for the verdict. The first call that fails
    ends the run.

    - Section 1: configurations and resources
    - Section 2: what the driver finds around it
    - Section 3: the calls to the cluster
    - Section 4: the run
    - Section 5: a cluster without trouble
-/

namespace Hermetic

open Framework

/-! ## Section 1: Configurations and resources -/

inductive Flavor where
  | Correctness
  | Migration (wait_secs : Nat) (migration : String)
  | Performance (simulation : String)
  deriving DecidableEq, Repr

def Flavor.name : Flavor → String
  | .Correctness => "correctness"
  | .Migration _ _ => "migration"
  | .Performance _ => "perf"

/-- Files are named by their paths. -/
structure TestConfig where
  network : String
  test_image : Option String
  flavor : Flavor
  suffix : Option String
  network_ttl : Nat
  network_timeout : UInt32
  job_timeout : UInt32
  test_selector : String
  deriving DecidableEq

def DID_PRIVATE_KEY : String := "c864a33033626b448912a19509992552283fd463c143bdc4adc75f807b7a4dce"

inductive Kind where
  | Namespace
  | Secret
  | ServiceAccount
  | ClusterRole
  | ClusterRoleBinding
  | Network
  | ConfigMap
  | StatefulSet
  | Service
  | Job
  | Simulation
  deriving DecidableEq, Repr

structure ObjectMeta where
  name : Option String
  generate_name : Option String
  namespace_ : Option String
  deriving DecidableEq, Repr

/-- What a resource says beyond its metadata. `fixed` stands for what is the
    same in all runs, and to which no part of a pod refers. The data of a
    ConfigMap are the keys with the files that are included under them. -/
inductive Content where
  | fixed
  | secret (private_key : String)
  | network (spec : NetworkSpec)
  | subject (name : String) (ns : String)
  | config_map (data : List (String × String))
  | stateful_set (spec : StatefulSetSpec)
  | service (spec : ServiceSpec)
  | job (spec : JobSpec)
  | simulation (spec : String)
  deriving DecidableEq, Repr

structure Resource where
  kind : Kind
  metadata : ObjectMeta
  content : Content
  deriving DecidableEq, Repr

/-- What identifies an object of the cluster. -/
structure Object where
  kind : Kind
  namespace_ : Option String
  name : String
  deriving DecidableEq, Repr

/-! ### The resources that the driver builds -/

def named (name : String) : ObjectMeta := ⟨some name, none, none⟩

def Network.resource (network : Network) : Resource :=
  ⟨.Network, ⟨network.name, none, none⟩, .network network.spec⟩

def service_account (ns : String) : Resource :=
  ⟨.ServiceAccount, ⟨some SERVICE_ACCOUNT_NAME, none, some ns⟩, .fixed⟩

def cluster_role : Resource := ⟨.ClusterRole, named CLUSTER_ROLE_NAME, .fixed⟩

def cluster_role_binding (ns : String) : Resource :=
  ⟨.ClusterRoleBinding, named ("ceramic-tests-cluster-binding-role-" ++ ns),
    .subject SERVICE_ACCOUNT_NAME ns⟩

def process_peers : Resource :=
  ⟨.ConfigMap, named PROCESS_PEERS_NAME, .config_map [("process-peers.sh", "./process-peers.sh")]⟩

def localstack_stateful_set (ns : String) : Resource :=
  ⟨.StatefulSet, ⟨some LOCALSTACK_SERVICE_NAME, none, some ns⟩,
    .stateful_set localstack_stateful_set_spec⟩

def localstack_service (ns : String) : Resource :=
  ⟨.Service, ⟨some LOCALSTACK_SERVICE_NAME, none, some ns⟩, .service localstack_service_spec⟩

/-- The server completes the name of the Job. -/
def correctness_test (ns : String) (image : Option String) (test_selector : String) :
    Resource :=
  ⟨.Job, ⟨none, some "ceramic-tests-", some ns⟩, .job
    (match image with
    | some image => job_spec image "IfNotPresent" test_selector
    | none => job_spec "public.ecr.aws/r5b3e0r5/3box/ceramic-tests-suite" "Always" test_selector)⟩

structure Simulation where
  metadata : ObjectMeta
  spec : String
  deriving DecidableEq, Repr

def Simulation.resource (simulation : Simulation) : Resource :=
  ⟨.Simulation, simulation.metadata, .simulation simulation.spec⟩

/-! ## Section 2: What the driver finds around it -/

/-- What the server says of an object that it has created. -/
structure Created where
  name : String
  uid : String
  deriving DecidableEq, Repr

/-- The files, the cluster and its answers during one run. The `n`-th call of
    the run may have another answer than the calls before it. `pod_history`
    is what the pods of a namespace that simulate-manager jobs made have been,
    and no watch shows anything else. -/
structure Environment where
  did_private_key : Option String
  network_file : String → Except String Network
  simulation_file : String → Except String Simulation
  try_default : Except String Unit
  get_secret : Nat → Object → Except String Bool
  patch : Nat → Object → Resource → Except String Unit
  create : Nat → String → Resource → Except String Created
  networks : String → Watch Network
  jobs : String → String → Watch Job
  job_pods : String → String → Nat → Pods
  pods : String → Watch Pod
  pod_logs : String → Nat → String → Except String String
  pod_history : String → List Pod
  pods_shown : ∀ ns i timeout stream ev pod, pods ns i timeout = .ok stream →
    .ok ev ∈ stream → ev.object = some pod → pod ∈ pod_history ns

/-- How a run fails: with an error of its own, with the error of a call, with
    the error of a wait, or in a panic. `hangs` stands for a wait that does
    not end. -/
inductive RunError where
  | anyhow (message : String)
  | call (err : String)
  | wait (err : String)
  | panic (message : String)
  | hangs
  deriving DecidableEq, Repr

/-- The outcome of a wait, if it ends. -/
def waited {R : Type} : Option (LoopRun R) → Except RunError R
  | some run => run.result.mapError .wait
  | none => .error .hangs

/-- A wait as it went: the timeout that it was called with, the timeouts of
    the watches that it opened, and what it returned. -/
structure Wait (R : Type) where
  timeout_seconds : UInt32
  granted : List UInt32
  outcome : Except RunError R
  deriving DecidableEq

/-- Call a wait function with a timeout. -/
def Wait.of {R : Type} (wait : UInt32 → Option (LoopRun R)) (timeout_seconds : UInt32) :
    Wait R where
  timeout_seconds := timeout_seconds
  granted := ((wait timeout_seconds).map LoopRun.granted).getD []
  outcome := waited (wait timeout_seconds)

/-- What a run does, with the answers. -/
inductive Action where
  | get (object : Object) (answer : Except RunError Bool)
  | patch (object : Object) (resource : Resource) (answer : Except RunError Unit)
  | create (ns : String) (resource : Resource) (answer : Except RunError Created)
  | wait_for_network (network_name : String) (wait : Wait Unit)
  | sleep (wait_secs : Nat)
  | wait_for_job (ns : String) (job_name : String) (wait : Wait (JobResult × String))
  | wait_for_simulation (ns : String) (wait : Wait (JobResult × String))
  deriving DecidableEq

abbrev Driver (α : Type) := Logged Action RunError α

/-! ## Section 3: The calls to the cluster -/

/-- A suffix that is empty counts as none. -/
def withSuffix (network_name : String) : Option String → String
  | some suffix => if suffix = "" then network_name else network_name ++ "-" ++ suffix
  | none => network_name

def parse_network_file (env : Environment) (file_path : String) (ttl : Nat) (flavor : Flavor)
    (suffix : Option String) : Except RunError Network :=
  match env.network_file file_path with
  | .error err => .error (.call err)
  | .ok network =>
    match network.name with
    | none => .error (.panic "network should have a defined name in metadata")
    | some name =>
      .ok { network with
        name := some (withSuffix (flavor.name ++ "-" ++ name) suffix)
        spec := { network.spec with ttl_seconds := some ttl } }

/-- `name_unchecked` -/
def nameUnchecked (metadata : ObjectMeta) : Except RunError String :=
  match metadata.name with
  | some name => .ok name
  | none => .error (.panic ".metadata.name missing")

/-- `apply_resource` without a namespace, `apply_resource_namespaced` with
    one. -/
def applyResource (env : Environment) (ns : Option String) (resource : Resource) :
    Driver Unit :=
  match resource.metadata.name with
  | none => Logged.throw (.anyhow "resource must have a name")
  | some name =>
    -- a patch creates the object if there is none
    let object : Object := ⟨resource.kind, ns, name⟩
    Logged.call (fun n => (env.patch n object resource).mapError .call) (.patch object resource)

def apply_resource (env : Environment) (resource : Resource) : Driver Unit :=
  applyResource env none resource

def apply_resource_namespaced (env : Environment) (ns : String) (resource : Resource) :
    Driver Unit :=
  applyResource env (some ns) resource

def create_resource_namespaced (env : Environment) (ns : String) (resource : Resource) :
    Driver String := do
  let result ← Logged.call (fun n => (env.create n ns resource).mapError .call)
    (.create ns resource)
  -- for a Job this is the generated name
  pure result.name

def apply_namespace (env : Environment) (name : String) : Driver Unit :=
  apply_resource env ⟨.Namespace, named name, .fixed⟩

def is_secret_missing (env : Environment) (ns : String) (name : String) : Driver Bool := do
  let object : Object := ⟨.Secret, some ns, name⟩
  let found ← Logged.call (fun n => (env.get_secret n object).mapError .call) (.get object)
  pure (!found)

def create_secret (env : Environment) (ns : String) (name : String) (private_key : String) :
    Driver Unit :=
  apply_resource_namespaced env ns ⟨.Secret, named name, .secret private_key⟩

/-- Wait, and record how it went. -/
def recordWait {R : Type} (wait : Wait R) (record : Wait R → Action) : Driver R :=
  Logged.call (fun _ => wait.outcome) fun _ => record wait

/-! ## Section 4: The run -/

def ensureSecret (env : Environment) (ns : String) : Driver Unit := do
  let missing ← is_secret_missing env ns CERAMIC_ADMIN_DID_SECRET_NAME
  -- a secret that is there is left as it is
  if missing then
    create_secret env ns CERAMIC_ADMIN_DID_SECRET_NAME
      (env.did_private_key.getD DID_PRIVATE_KEY)
  else pure ()

/-- The dependencies of the job. -/
def applyDependencies (env : Environment) (ns : String) : Flavor → Driver Unit
  | .Performance _ => pure ()
  | .Migration _ _ => pure ()
  | .Correctness => do
    apply_resource_namespaced env ns (localstack_stateful_set ns)
    apply_resource_namespaced env ns (localstack_service ns)

def networkWait (env : Environment) (opts : TestConfig) (network_name : String) : Wait Unit :=
  .of (wait_for_network (env.networks network_name)) opts.network_timeout

/-- Everything before the job: the result is the namespace. -/
def prepare (env : Environment) (opts : TestConfig) : Driver String := do
  -- `Client::try_default`
  Logged.ofExcept (env.try_default.mapError .call)
  let network ← Logged.ofExcept
    (parse_network_file env opts.network opts.network_ttl opts.flavor opts.suffix)
  let network_name ← Logged.ofExcept (nameUnchecked network.resource.metadata)
  let ns := "keramik-" ++ network_name
  apply_namespace env ns
  ensureSecret env ns
  apply_resource_namespaced env ns (service_account ns)
  -- not namespaced: all runs share the role
  apply_resource env cluster_role
  apply_resource env (cluster_role_binding ns)
  apply_resource env network.resource
  apply_resource_namespaced env ns process_peers
  applyDependencies env ns opts.flavor
  recordWait (networkWait env opts network_name) (.wait_for_network network_name)
  pure ns

def performance_simulation (env : Environment) (ns : String) (simulation_path : String) :
    Except RunError Simulation :=
  match env.simulation_file simulation_path with
  | .error err => .error (.call err)
  | .ok simulation =>
    .ok { simulation with metadata := { simulation.metadata with namespace_ := some ns } }

/-- Create the Job or the Simulation: the result is its name. -/
def createTests (env : Environment) (opts : TestConfig) (ns : String) : Driver String :=
  match opts.flavor with
  | .Correctness => create_resource_namespaced env ns
      (correctness_test ns opts.test_image opts.test_selector)
  | .Migration _ _ => create_resource_namespaced env ns
      (correctness_test ns opts.test_image opts.test_selector)
  | .Performance simulation => do
    let simulation ← Logged.ofExcept (performance_simulation env ns simulation)
    create_resource_namespaced env ns simulation.resource

def jobWait (env : Environment) (opts : TestConfig) (ns job_name : String) :
    Wait (JobResult × String) :=
  .of (wait_for_job (env.jobs ns job_name) (env.job_pods ns job_name)) opts.job_timeout

def simulationWait (env : Environment) (opts : TestConfig) (ns : String) :
    Wait (JobResult × String) :=
  .of (wait_for_simulation (env.pods ns) (env.pod_logs ns)) opts.job_timeout

def waitForJob (env : Environment) (opts : TestConfig) (ns job_name : String) :
    Driver (JobResult × String) :=
  recordWait (jobWait env opts ns job_name) (.wait_for_job ns job_name)

def waitForSimulation (env : Environment) (opts : TestConfig) (ns : String) :
    Driver (JobResult × String) :=
  recordWait (simulationWait env opts ns) (.wait_for_simulation ns)

/-- Apply the migration network, after the designated time. -/
def migrate (env : Environment) (opts : TestConfig) (wait_secs : Nat) (migration : String) :
    Driver Unit := do
  Logged.call (fun _ => .ok ()) fun _ => .sleep wait_secs
  let migration_network ← Logged.ofExcept
    (parse_network_file env migration opts.network_ttl opts.flavor opts.suffix)
  apply_resource env migration_network.resource

def awaitResults (env : Environment) (opts : TestConfig) (ns job_name : String) :
    Driver (JobResult × String) :=
  match opts.flavor with
  | .Correctness => waitForJob env opts ns job_name
  | .Migration wait_secs migration => do
    -- the Job has been created by now, and its watch has yet to open
    migrate env opts wait_secs migration
    waitForJob env opts ns job_name
  | .Performance _ => waitForSimulation env opts ns

def testsFailed : RunError := .anyhow "Tests Failed"

def report : JobResult × String → Driver Unit
  | (.Pass, _) => pure ()
  | (.Fail, _) => Logged.throw testsFailed

def run (env : Environment) (opts : TestConfig) : Driver Unit := do
  let ns ← prepare env opts
  let job_name ← createTests env opts ns
  let results ← awaitResults env opts ns job_name
  report results

/-! ## Section 5: A cluster without trouble -/

def readyNetwork : Watch Network :=
  fun _ _ => .ok [.ok (.added ⟨some "", ⟨1, none⟩, some ⟨1, 1⟩⟩)]

def completeJob : Watch Job := fun _ _ => .ok [.ok (.added ⟨some ⟨some [⟨"Complete", "True"⟩]⟩⟩)]

/-- Every call succeeds. `names` says which name stands in a network file. -/
def Environment.quiet (names : String → String) : Environment where
  did_private_key := none
  network_file := fun file_path => .ok ⟨some (names file_path), ⟨1, none⟩, none⟩
  simulation_file := fun _ => .error "not found"
  try_default := .ok ()
  get_secret := fun _ _ => .ok true
  patch := fun _ _ _ => .ok ()
  create := fun _ _ _ => .ok ⟨"ceramic-tests-x2v9q", "1"⟩
  networks := fun _ => readyNetwork
  jobs := fun _ _ => completeJob
  job_pods := fun _ _ _ => ⟨.ok [], fun _ => .error "not found"⟩
  pods := fun _ _ _ => .ok []
  pod_logs := fun _ _ _ => .error "not found"
  pod_history := fun _ => []
  pods_shown := by
    intro ns i timeout stream ev pod hstream hev
    cases hstream
    cases hev

end Hermetic
