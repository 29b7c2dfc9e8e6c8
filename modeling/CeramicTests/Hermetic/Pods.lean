import Mathlib.Data.List.Basic

/-! # The pods that the driver asks for

    The bodies of the Job, of the StatefulSet and of the Service that
    `hermetic/src/cli/tester.rs` applies or creates, as far as one of their
    parts refers to another, or to an object of the namespace.

    - Section 1: pods
    - Section 2: the pod of the Job
    - Section 3: the localstack pod
-/

namespace Hermetic

/-! ## Section 1: Pods -/

structure VolumeMount where
  mount_path : String
  name : String
  deriving DecidableEq, Repr

inductive VolumeSource where
  | config_map (name : String) (default_mode : Option Nat)
  | empty_dir
  | persistent_volume_claim (claim_name : String)
  deriving DecidableEq, Repr

structure Volume where
  name : String
  source : VolumeSource
  deriving DecidableEq, Repr

inductive EnvSource where
  | value (value : String)
  | field_ref (field_path : String)
  | secret_key_ref (name : String) (key : String)
  deriving DecidableEq, Repr

structure EnvVar where
  name : String
  source : EnvSource
  deriving DecidableEq, Repr

/-- A container, but for its resource limits and its readiness probe.
    `env_from` names ConfigMaps. -/
structure Container where
  name : String
  image : String
  image_pull_policy : Option String
  command : List String
  ports : List Nat
  env : List EnvVar
  env_from : List String
  volume_mounts : List VolumeMount
  deriving DecidableEq, Repr

structure PodSpec where
  restart_policy : Option String
  service_account_name : Option String
  init_containers : List Container
  containers : List Container
  volumes : List Volume
  deriving DecidableEq, Repr

structure JobSpec where
  ttl_seconds_after_finished : Nat
  backoff_limit : Nat
  template : PodSpec
  deriving DecidableEq, Repr

def PodSpec.allContainers (pod : PodSpec) : List Container := pod.init_containers ++ pod.containers

/-- Each mount shows a volume of the pod. -/
def PodSpec.Mounts (pod : PodSpec) : Prop :=
  ∀ container ∈ pod.allContainers, ∀ mount ∈ container.volume_mounts,
    ∃ volume ∈ pod.volumes, volume.name = mount.name

/-- The file of a volume that a container finds under a path. No mount lies
    in another here. -/
def PodSpec.fileAt (pod : PodSpec) (container : Container) (path : String) :
    Option (Volume × String) :=
  container.volume_mounts.findSome? fun mount => do
    let file ← path.toList.dropPrefix? (mount.mount_path ++ "/").toList
    let volume ← pod.volumes.find? fun volume => volume.name = mount.name
    pure (volume, String.ofList file)

/-! ## Section 2: The pod of the Job -/

def CERAMIC_ADMIN_DID_SECRET_NAME : String := "ceramic-admin"
def SERVICE_ACCOUNT_NAME : String := "ceramic-tests-service-account"
def CLUSTER_ROLE_NAME : String := "ceramic-tests-cluster-role"
def LOCALSTACK_SERVICE_NAME : String := "ceramic-tests-localstack"
def PROCESS_PEERS_NAME : String := "process-peers"
def DID_PRIVATE_KEY_NAME : String := "private-key"
def LOCALSTACK_DATA_NAME : String := "localstack-data"
def NODE_INSPECTION_PORT : Nat := 9229

/-- The ConfigMap in which the operator lists the peers. -/
def KERAMIK_PEERS_NAME : String := "keramik-peers"

/-- Volumes for the init container. -/
def job_volumes : List Volume :=
  [⟨PROCESS_PEERS_NAME, .config_map PROCESS_PEERS_NAME (some 0o755)⟩,
    ⟨"peers-volume", .config_map KERAMIK_PEERS_NAME none⟩,
    ⟨"config-volume", .empty_dir⟩]

def job_init : Container where
  name := "init-tests"
  image := "stedolan/jq"
  image_pull_policy := some "IfNotPresent"
  command := ["/bin/bash", "-c", "/network/process-peers.sh"]
  ports := []
  env := [⟨"NAMESPACE", .field_ref "metadata.namespace"⟩,
    ⟨"CERAMIC_ADMIN_DID_SECRET",
      .secret_key_ref CERAMIC_ADMIN_DID_SECRET_NAME DID_PRIVATE_KEY_NAME⟩]
  env_from := [KERAMIK_PEERS_NAME]
  volume_mounts := [⟨"/network", PROCESS_PEERS_NAME⟩, ⟨"/peers", "peers-volume"⟩,
    ⟨"/config", "config-volume"⟩]

/-- How a port of a Service is reached from its namespace. -/
def endpoint (service : String) (port : Nat) : String :=
  "http://" ++ service ++ ":" ++ toString port

/-- The container `tests` of `correctness_test`. -/
def tests_container (image image_pull_policy test_selector : String) : Container where
  name := "tests"
  image := image
  image_pull_policy := some image_pull_policy
  command := []
  ports := [NODE_INSPECTION_PORT]
  env := [⟨"DOTENV_CONFIG_PATH", .value "/config/.env"⟩,
    ⟨"AWS_ACCESS_KEY_ID", .value "."⟩,
    ⟨"AWS_SECRET_ACCESS_KEY", .value "."⟩,
    ⟨"DB_ENDPOINT", .value (endpoint LOCALSTACK_SERVICE_NAME 4566)⟩,
    ⟨"TEST_SELECTOR", .value test_selector⟩,
    ⟨"NETWORK", .value "local"⟩,
    ⟨"NODE_OPTIONS", .value "--inspect"⟩]
  env_from := []
  volume_mounts := [⟨"/config", "config-volume"⟩]

/-- The body of `correctness_test`. -/
def job_spec (image image_pull_policy test_selector : String) : JobSpec where
  ttl_seconds_after_finished := 600
  backoff_limit := 0
  template := {
    restart_policy := some "Never"
    service_account_name := some SERVICE_ACCOUNT_NAME
    init_containers := [job_init]
    containers := [tests_container image image_pull_policy test_selector]
    volumes := job_volumes }

/-! ## Section 3: The localstack pod -/

/-- The claims of a StatefulSet are named only. -/
structure StatefulSetSpec where
  replicas : Nat
  match_labels : List (String × String)
  service_name : String
  template_labels : List (String × String)
  template : PodSpec
  volume_claim_templates : List String
  deriving DecidableEq, Repr

def localstack_stateful_set_spec : StatefulSetSpec where
  replicas := 1
  match_labels := [("app", LOCALSTACK_SERVICE_NAME)]
  service_name := LOCALSTACK_SERVICE_NAME
  template_labels := [("app", LOCALSTACK_SERVICE_NAME)]
  template := {
    restart_policy := none
    service_account_name := none
    init_containers := []
    containers := [{
      name := LOCALSTACK_SERVICE_NAME
      image := "gresau/localstack-persist:3"
      image_pull_policy := none
      command := []
      ports := [4566]
      env := []
      env_from := []
      volume_mounts := [⟨"/persisted-data", LOCALSTACK_DATA_NAME⟩] }]
    volumes := [⟨LOCALSTACK_DATA_NAME, .persistent_volume_claim LOCALSTACK_DATA_NAME⟩] }
  volume_claim_templates := [LOCALSTACK_DATA_NAME]

structure ServiceSpec where
  port : Nat
  target_port : Nat
  selector : List (String × String)
  type_ : String
  deriving DecidableEq, Repr

def localstack_service_spec : ServiceSpec where
  port := 4566
  target_port := 4566
  selector := [("app", LOCALSTACK_SERVICE_NAME)]
  type_ := "NodePort"

end Hermetic
