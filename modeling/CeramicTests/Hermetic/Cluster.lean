import CeramicTests.Framework.Frame
import CeramicTests.Hermetic.Plan

/-! # Runs on one cluster

    The API server keeps the objects. What it makes of a resource, applied to
    an object that it has or has not, is its own affair (`merge`); `Serves`
    says how it may answer an action, and what the action does to the
    objects.

    - Section 1: the cluster
    - Section 2: what a run has to do with the cluster
    - Section 3: any number of runs at a time
    - Section 4: two runs of one configuration, one after the other
-/

namespace Hermetic

open Framework Transition

/-! ## Section 1: The cluster -/

/-- The objects, each with what the server keeps of it. -/
abbrev Cluster (Stored : Type) := Object → Option Stored

section server

variable {Stored : Type} (merge : Option Stored → Resource → Stored)

/-- An object is in a namespace that exists, if it is in any. -/
def Cluster.Has (s : Cluster Stored) : Option String → Prop
  | none => True
  | some ns => s ⟨.Namespace, none, ns⟩ ≠ none

/-- The resource is put on what is kept of the object. -/
def Cluster.put (s : Cluster Stored) (object : Object) (resource : Resource) : Cluster Stored :=
  Function.update s object (some (merge (s object) resource))

/-- The name that a created object may get. -/
def ObjectMeta.Names (metadata : ObjectMeta) (name : String) : Prop :=
  metadata.name = some name ∨
    metadata.name = none ∧ ∃ before rest, metadata.generate_name = some before ∧
      name = before ++ rest

/-- The server tells the truth. A call that ends with an error may have been
    performed all the same. -/
inductive Serves : Cluster Stored → Action → Cluster Stored → Prop where
  | found (s : Cluster Stored) (object : Object) :
      Serves s (.get object (.ok (s object).isSome)) s
  | unanswered (s : Cluster Stored) (object : Object) (e : RunError) :
      Serves s (.get object (.error e)) s
  | applied {s : Cluster Stored} {object : Object} (resource : Resource)
      (hns : s.Has object.namespace_) :
      Serves s (.patch object resource (.ok ())) (s.put merge object resource)
  | refused (s : Cluster Stored) (object : Object) (resource : Resource) (e : RunError) :
      Serves s (.patch object resource (.error e)) s
  | lost {s : Cluster Stored} {object : Object} (resource : Resource) (e : RunError)
      (hns : s.Has object.namespace_) :
      Serves s (.patch object resource (.error e)) (s.put merge object resource)
  | created {s : Cluster Stored} {ns : String} {resource : Resource} {created : Created}
      (hns : s.Has (some ns)) (hname : resource.metadata.Names created.name)
      (hfree : s ⟨resource.kind, some ns, created.name⟩ = none) :
      Serves s (.create ns resource (.ok created))
        (s.put merge ⟨resource.kind, some ns, created.name⟩ resource)
  | notCreated (s : Cluster Stored) (ns : String) (resource : Resource) (e : RunError) :
      Serves s (.create ns resource (.error e)) s
  | createdLost {s : Cluster Stored} {ns : String} {resource : Resource} {name : String}
      (e : RunError) (hns : s.Has (some ns)) (hname : resource.metadata.Names name)
      (hfree : s ⟨resource.kind, some ns, name⟩ = none) :
      Serves s (.create ns resource (.error e)) (s.put merge ⟨resource.kind, some ns, name⟩ resource)
  | waitedForNetwork (s : Cluster Stored) (network_name : String) (wait : Wait Unit) :
      Serves s (.wait_for_network network_name wait) s
  | slept (s : Cluster Stored) (wait_secs : Nat) : Serves s (.sleep wait_secs) s
  | waitedForJob (s : Cluster Stored) (ns job_name : String) (wait : Wait (JobResult × String)) :
      Serves s (.wait_for_job ns job_name wait) s
  | waitedForSimulation (s : Cluster Stored) (ns : String) (wait : Wait (JobResult × String)) :
      Serves s (.wait_for_simulation ns wait) s

def cluster : System (Cluster Stored) Action where
  init := fun _ => True
  step := Serves merge

variable {merge}

/-- An action writes one object at most, one that it patches or creates, and
    nothing is ever deleted. -/
theorem Serves.writes {s s' : Cluster Stored} {a : Action} (h : Serves merge s a s') :
    s' = s ∨
    (∃ object resource answer, a = .patch object resource answer ∧
      s' = s.put merge object resource) ∨
    ∃ ns resource answer name, a = .create ns resource answer ∧
      s ⟨resource.kind, some ns, name⟩ = none ∧
      s' = s.put merge ⟨resource.kind, some ns, name⟩ resource := by
  cases h with
  | found object => exact Or.inl rfl
  | unanswered object e => exact Or.inl rfl
  | applied resource hns => exact Or.inr (Or.inl ⟨_, resource, _, rfl, rfl⟩)
  | refused object resource e => exact Or.inl rfl
  | lost resource e hns => exact Or.inr (Or.inl ⟨_, resource, _, rfl, rfl⟩)
  | created hns hname hfree => exact Or.inr (Or.inr ⟨_, _, _, _, rfl, hfree, rfl⟩)
  | notCreated ns resource e => exact Or.inl rfl
  | createdLost e hns hname hfree => exact Or.inr (Or.inr ⟨_, _, _, _, rfl, hfree, rfl⟩)
  | waitedForNetwork network_name wait => exact Or.inl rfl
  | slept wait_secs => exact Or.inl rfl
  | waitedForJob ns job_name wait => exact Or.inl rfl
  | waitedForSimulation ns wait => exact Or.inl rfl

theorem Cluster.put_self (s : Cluster Stored) (object : Object) (resource : Resource) :
    s.put merge object resource object = some (merge (s object) resource) :=
  Function.update_self _ _ _

theorem Cluster.put_of_ne (s : Cluster Stored) {object other : Object} (resource : Resource)
    (h : other ≠ object) : s.put merge object resource other = s other :=
  Function.update_of_ne h _ _

/-- What agrees on a frame still does after the same put on both sides. -/
theorem Cluster.put_eqOn {s t : Cluster Stored} {frame : Set Object} (h : Set.EqOn s t frame)
    (object : Object) (resource : Resource) :
    Set.EqOn (s.put merge object resource) (t.put merge object resource) frame := by
  intro other hother
  by_cases hne : other = object
  · subst hne
    rw [put_self, put_self, h hother]
  · rw [put_of_ne s resource hne, put_of_ne t resource hne]
    exact h hother

/-- A put outside a frame is not seen there. -/
theorem Cluster.put_spares {frame : Set Object} (s : Cluster Stored) {object : Object}
    (resource : Resource) (h : object ∉ frame) :
    Set.EqOn s (s.put merge object resource) frame := by
  intro other hother
  refine (put_of_ne s resource ?_).symm
  rintro rfl
  exact h hother

theorem Cluster.put_keeps (s : Cluster Stored) (target : Object) (resource : Resource)
    {object : Object} (h : s object ≠ none) : s.put merge target resource object ≠ none := by
  by_cases hne : object = target
  · rw [hne, put_self]
    exact Option.some_ne_none _
  · rwa [put_of_ne s resource hne]

/-- No object goes away. -/
theorem Serves.keeps {s s' : Cluster Stored} {a : Action} (h : Serves merge s a s')
    {object : Object} (hobject : s object ≠ none) : s' object ≠ none := by
  rcases h.writes with rfl | ⟨target, resource, _, _, rfl⟩ | ⟨ns, resource, _, name, _, _, rfl⟩
  · exact hobject
  · exact s.put_keeps target resource hobject
  · exact s.put_keeps _ resource hobject

end server

/-! ## Section 2: What a run has to do with the cluster -/

/-- The objects that are named after a Network of the run. -/
def Owned (env : Environment) (opts : TestConfig) : Set Object :=
  {object | ∃ network_name, Applies env opts network_name ∧ Belongs network_name object}

/-- The action has to do with objects of the run only, the ClusterRole apart. -/
inductive Confined (env : Environment) (opts : TestConfig) : Action → Prop where
  | get {object : Object} (answer : Except RunError Bool) (h : object ∈ Owned env opts) :
      Confined env opts (.get object answer)
  | patch {object : Object} (resource : Resource) (answer : Except RunError Unit)
      (h : object = clusterRole ∨ object ∈ Owned env opts) :
      Confined env opts (.patch object resource answer)
  | create {network_name : String} {resource : Resource} (answer : Except RunError Created)
      (h : Applies env opts network_name) (hkind : resource.kind ≠ .Network) :
      Confined env opts (.create ("keramik-" ++ network_name) resource answer)
  | wait_for_network (network_name : String) (wait : Wait Unit) :
      Confined env opts (.wait_for_network network_name wait)
  | sleep (wait_secs : Nat) : Confined env opts (.sleep wait_secs)
  | wait_for_job (ns job_name : String) (wait : Wait (JobResult × String)) :
      Confined env opts (.wait_for_job ns job_name wait)
  | wait_for_simulation (ns : String) (wait : Wait (JobResult × String)) :
      Confined env opts (.wait_for_simulation ns wait)

section confined

variable {env : Environment} {opts : TestConfig}

theorem clusterRole_not_owned : clusterRole ∉ Owned env opts := by
  intro ⟨network_name, _, hbelongs⟩
  generalize hobject : clusterRole = object at hbelongs
  cases hbelongs <;> cases hobject

/-- With an object, a run owns the namespace that it is in. -/
theorem Owned.namespace {object : Object} (h : object ∈ Owned env opts) {ns : String}
    (hns : object.namespace_ = some ns) : ⟨.Namespace, none, ns⟩ ∈ Owned env opts := by
  obtain ⟨network_name, happlies, hbelongs⟩ := h
  cases hbelongs with
  | namespaced kind name hkind =>
    cases hns
    exact ⟨network_name, happlies, .namespaceItself⟩
  | namespaceItself => cases hns
  | binding => cases hns
  | network => cases hns

theorem Owned.created {network_name : String} (h : Applies env opts network_name) {kind : Kind}
    (hkind : kind ≠ .Network) (name : String) :
    ⟨kind, some ("keramik-" ++ network_name), name⟩ ∈ Owned env opts :=
  ⟨network_name, h, .namespaced _ _ hkind⟩

/-- Runs of different names own no object in common. -/
theorem Owned.disjoint {env' : Environment} {opts' : TestConfig}
    (hnames : ¬ SameName env opts env' opts') {object : Object}
    (h : object ∈ Owned env opts) : object ∉ Owned env' opts' := by
  intro ⟨n, hn, hbelongs'⟩
  obtain ⟨m, hm, hbelongs⟩ := h
  cases hbelongs.unique hbelongs'
  obtain ⟨p, joined, hp, hfile, rfl⟩ := hm
  obtain ⟨q, joined', hq, hfile', heq⟩ := hn
  obtain ⟨hflavor, rfl⟩ := networkName_inj heq
  exact hnames ⟨hflavor, p, q, joined, hp, hq, hfile, hfile'⟩

variable {Stored : Type} {merge : Option Stored → Resource → Stored}

theorem Cluster.has_congr {s t : Cluster Stored} (h : Set.EqOn s t (Owned env opts))
    {object : Object} (hobject : object ∈ Owned env opts) (hhas : s.Has object.namespace_) :
    t.Has object.namespace_ := by
  cases hns : object.namespace_ with
  | none => trivial
  | some ns =>
    rw [hns] at hhas
    show t _ ≠ none
    rw [← h (Owned.namespace hobject hns)]
    exact hhas

/-- What a run does to its objects depends on its objects only. -/
theorem Confined.isLocal {a : Action} (h : Confined env opts a) :
    (cluster merge).Local (Owned env opts) a := by
  intro s s' t hstep hagree
  have hstep : Serves merge s a s' := hstep
  show ∃ t', Serves merge t a t' ∧ _
  cases h with
  | get answer hobject =>
    cases hstep with
    | found =>
      rw [hagree hobject]
      exact ⟨t, .found t _, hagree⟩
    | unanswered => exact ⟨t, .unanswered t _ _, hagree⟩
  | @patch object resource answer hobject =>
    have hhas : Cluster.Has s object.namespace_ → Cluster.Has t object.namespace_ := by
      intro hhas
      rcases hobject with rfl | hobject
      · trivial
      · exact Cluster.has_congr hagree hobject hhas
    cases hstep with
    | applied _ hns => exact ⟨_, .applied resource (hhas hns), Cluster.put_eqOn hagree _ _⟩
    | refused => exact ⟨t, .refused t _ _ _, hagree⟩
    | lost _ e hns => exact ⟨_, .lost resource e (hhas hns), Cluster.put_eqOn hagree _ _⟩
  | create answer happlies hkind =>
    have hhas := Cluster.has_congr hagree (Owned.created happlies hkind "")
    cases hstep with
    | created hns hname hfree =>
      rw [hagree (Owned.created happlies hkind _)] at hfree
      exact ⟨_, .created (hhas hns) hname hfree, Cluster.put_eqOn hagree _ _⟩
    | notCreated => exact ⟨t, .notCreated t _ _ _, hagree⟩
    | createdLost e hns hname hfree =>
      rw [hagree (Owned.created happlies hkind _)] at hfree
      exact ⟨_, .createdLost e (hhas hns) hname hfree, Cluster.put_eqOn hagree _ _⟩
  | wait_for_network network_name wait =>
    cases hstep
    exact ⟨t, .waitedForNetwork t _ wait, hagree⟩
  | sleep wait_secs =>
    cases hstep
    exact ⟨t, .slept t _, hagree⟩
  | wait_for_job ns job_name wait =>
    cases hstep
    exact ⟨t, .waitedForJob t _ _ wait, hagree⟩
  | wait_for_simulation ns wait =>
    cases hstep
    exact ⟨t, .waitedForSimulation t _ wait, hagree⟩

/-- A run writes its objects and the ClusterRole. -/
theorem Confined.spares {a : Action} (h : Confined env opts a) {frame : Set Object}
    (hrole : clusterRole ∉ frame) (hdisjoint : ∀ object ∈ Owned env opts, object ∉ frame) :
    (cluster merge).Spares frame a := by
  intro s s' hstep
  rcases Serves.writes hstep with rfl | ⟨object, resource, answer, rfl, rfl⟩ |
    ⟨ns, resource, answer, name, rfl, _, rfl⟩
  · exact Set.eqOn_refl _ _
  · refine Cluster.put_spares s resource ?_
    cases h with
    | patch _ _ hobject =>
      rcases hobject with rfl | hobject
      · exact hrole
      · exact hdisjoint _ hobject
  · refine Cluster.put_spares s resource ?_
    cases h with
    | create _ happlies hkind =>
      exact hdisjoint _ (Owned.created happlies hkind name)

/-! ### The whole run -/

/-- The resource of each kind that the set-up applies. -/
def setUpResource (network : Network) (ns : String) : Kind → Option Resource
  | .Namespace => some (namespaceResource ns)
  | .ServiceAccount => some (service_account ns)
  | .ClusterRole => some cluster_role
  | .ClusterRoleBinding => some (cluster_role_binding ns)
  | .Network => some network.resource
  | .ConfigMap => some process_peers
  | .StatefulSet => some (localstack_stateful_set ns)
  | .Service => some (localstack_service ns)
  | _ => none

/-- Each object of the set-up is applied with the resource of its kind. -/
theorem mem_setUpPlan {network : Network} {network_name : String} {p : Planned}
    (h : p ∈ setUpPlan network network_name opts) :
    p = .get (adminSecretObject ("keramik-" ++ network_name)) ∨
    p = .wait_for_network network_name opts.network_timeout ∨
    ∃ object resource, p = .apply object resource ∧
      setUpResource network ("keramik-" ++ network_name) object.kind = some resource := by
  unfold setUpPlan at h
  rcases List.mem_append.mp h with h | h
  · rcases List.mem_append.mp h with h | h
    · simp only [List.mem_cons, List.not_mem_nil, or_false] at h
      rcases h with rfl | rfl | rfl | rfl | rfl | rfl | rfl
      case inr.inl => exact Or.inl rfl
      all_goals exact Or.inr (Or.inr ⟨_, _, rfl, rfl⟩)
    · refine Or.inr (Or.inr ?_)
      cases hflavor : opts.flavor with
      | Performance simulation =>
        rw [hflavor] at h
        cases h
      | Migration wait_secs migration =>
        rw [hflavor] at h
        cases h
      | Correctness =>
        simp only [hflavor, dependencyPlan, List.mem_cons, List.not_mem_nil, or_false] at h
        rcases h with rfl | rfl <;> exact ⟨_, _, rfl, rfl⟩
  · exact Or.inr (Or.inl (List.mem_singleton.mp h))

theorem mem_networkPlan {parsed : Except RunError Network} {p : Planned}
    (h : p ∈ networkPlan parsed) : ∃ object resource, p = .apply object resource := by
  unfold networkPlan at h
  cases parsed with
  | error e => cases h
  | ok network =>
    cases hname : network.name with
    | none =>
      simp only [hname] at h
      cases h
    | some network_name =>
      simp only [hname] at h
      exact ⟨_, _, List.mem_singleton.mp h⟩

theorem mem_testsPlan {ns : String} {p : Planned} (h : p ∈ testsPlan env opts ns) :
    ∃ resource, testsResource env opts ns = .ok resource ∧ p = .create ns resource := by
  unfold testsPlan at h
  cases htests : testsResource env opts ns with
  | error e =>
    rw [htests] at h
    cases h
  | ok resource =>
    rw [htests] at h
    exact ⟨resource, rfl, List.mem_singleton.mp h⟩

/-- After the tests have been created, there are only waits and applies. -/
theorem mem_resultsPlan {ns : String} {p : Planned} (h : p ∈ resultsPlan env opts ns) :
    (∀ object, p ≠ .get object) ∧ ∀ ns resource, p ≠ .create ns resource := by
  unfold resultsPlan at h
  cases hflavor : opts.flavor with
  | Correctness =>
    simp only [hflavor, List.mem_singleton] at h
    simp [h]
  | Performance simulation =>
    simp only [hflavor, List.mem_singleton] at h
    simp [h]
  | Migration wait_secs migration =>
    simp only [hflavor, List.mem_append, List.mem_singleton] at h
    rcases h with (rfl | h) | rfl
    · simp
    · obtain ⟨object, resource, rfl⟩ := mem_networkPlan h
      simp
    · simp

theorem testsResource_kind {ns : String} {resource : Resource}
    (h : testsResource env opts ns = .ok resource) : resource.kind ≠ .Network := by
  unfold testsResource at h
  cases hflavor : opts.flavor with
  | Correctness =>
    simp only [hflavor] at h
    cases h
    intro hkind
    cases hkind
  | Migration wait_secs migration =>
    simp only [hflavor] at h
    cases h
    intro hkind
    cases hkind
  | Performance path =>
    simp only [hflavor] at h
    cases hfile : performance_simulation env ns path with
    | error e =>
      rw [hfile] at h
      cases h
    | ok simulation =>
      rw [hfile] at h
      cases h
      intro hkind
      cases hkind

/-- What a plan asks for and creates is in the namespace of the run. -/
theorem mem_plan {p : Planned} (h : p ∈ plan env opts) :
    ∃ network_name, Awaits env opts network_name ∧
      (∀ object, p = .get object → object = adminSecretObject ("keramik-" ++ network_name)) ∧
      ∀ ns resource, p = .create ns resource → ns = "keramik-" ++ network_name ∧
        resource.kind ≠ .Network := by
  unfold plan at h
  cases hparse : parse_network_file env opts.network opts.network_ttl opts.flavor opts.suffix with
  | error e =>
    rw [hparse] at h
    cases h
  | ok network =>
    obtain ⟨joined, hfile, hname⟩ := parse_network_file_name hparse
    simp only [hparse, hname] at h
    refine ⟨_, ⟨joined, hfile, rfl⟩, ?_⟩
    rcases List.mem_append.mp h with h | h
    · rcases mem_setUpPlan h with rfl | rfl | ⟨_, _, rfl, _⟩ <;> simp
    rcases List.mem_append.mp h with h | h
    · obtain ⟨resource, htests, rfl⟩ := mem_testsPlan h
      simp [testsResource_kind htests]
    · obtain ⟨hget, hcreate⟩ := mem_resultsPlan h
      exact ⟨fun object hp => absurd hp (hget object),
        fun ns resource hp => absurd hp (hcreate ns resource)⟩

/-- Every action of a run has to do with its own objects. -/
theorem run_confined (env : Environment) (opts : TestConfig) {a : Action}
    (ha : a ∈ (run env opts []).2) : Confined env opts a := by
  have hplanned : ∀ p, a.planned = some p → p ∈ plan env opts := by
    intro p hp
    refine (run_inOrder env opts).subset ?_
    exact List.mem_filterMap.mpr ⟨a, ha, hp⟩
  cases a with
  | get object answer =>
    obtain ⟨network_name, hawaits, hget, _⟩ := mem_plan (hplanned _ rfl)
    rw [hget object rfl]
    exact .get answer (Owned.created hawaits.applies (fun h => by cases h) _)
  | patch object resource answer =>
    refine .patch resource answer ?_
    exact (run_within env opts _ ha).touched object rfl
  | create ns resource answer =>
    obtain ⟨network_name, hawaits, _, hcreate⟩ := mem_plan (hplanned _ rfl)
    obtain ⟨rfl, hkind⟩ := hcreate ns resource rfl
    exact .create answer hawaits.applies hkind
  | wait_for_network network_name wait => exact .wait_for_network network_name wait
  | sleep wait_secs => exact .sleep wait_secs
  | wait_for_job ns job_name wait => exact .wait_for_job ns job_name wait
  | wait_for_simulation ns wait => exact .wait_for_simulation ns wait

end confined

/-! ## Section 3: Any number of runs at a time -/

section runs

variable {Tester : Type} [DecidableEq Tester] {env : Tester → Environment}
  {opts : Tester → TestConfig} {Stored : Type} {merge : Option Stored → Resource → Stored}
  {s s' : Cluster Stored} {tr : List (Fired (Cluster Stored) (Tester × Action))}

/-- **Non-interference.** Any number of runs, of different names, act on one
    cluster at a time, each with the answers that it gets there. They could
    have acted one after another, in any order, with the same answers and the
    same objects of each run in the end. What no run owns is as it was, the
    ClusterRole apart. -/
theorem runs_do_not_interfere
    (hnames : ∀ i j, i ≠ j → ¬ SameName (env i) (opts i) (env j) (opts j))
    (h : (System.together (cluster merge)).Run s tr s')
    (hruns : ∀ i, System.actionsOf i tr <+: (run (env i) (opts i) []).2) :
    (∀ order : List Tester, order.Nodup → ∃ tr' t', (cluster merge).Run s tr' t' ∧
      tr'.map Fired.label = order.flatMap (fun i => System.actionsOf i tr) ∧
      ∀ i ∈ order, Set.EqOn s' t' (Owned (env i) (opts i))) ∧
    ∀ object, object ≠ clusterRole → (∀ i, object ∉ Owned (env i) (opts i)) →
      s' object = s object := by
  have hconfined : ∀ f ∈ tr, Confined (env f.label.1) (opts f.label.1) f.label.2 := by
    intro f hf
    refine run_confined _ _ ((hruns f.label.1).subset ?_)
    exact List.mem_filterMap.mpr ⟨f, hf, by simp⟩
  constructor
  · intro order hnodup
    refine h.serial ?_ ?_ order hnodup
    · intro f hf
      exact (hconfined f hf).isLocal
    · intro f hf i hi
      exact (hconfined f hf).spares clusterRole_not_owned
        fun _ hobject => Owned.disjoint (hnames _ _ hi) hobject
  · intro object hrole howned
    have hspared : Set.EqOn s s' {object} := by
      refine h.spared fun f hf => ?_
      refine (hconfined f hf).spares (fun hmem => hrole (Set.mem_singleton_iff.mp hmem).symm) ?_
      intro other hother hmem
      rw [Set.mem_singleton_iff.mp hmem] at hother
      exact howned _ hother
    exact (hspared (Set.mem_singleton object)).symm

/-- Two testers, told apart by a suffix. -/
def tester (second : Bool) : TestConfig :=
  ⟨"basic-rust.yaml", none, .Correctness, if second then some "2" else none, 28800, 290, 290, "."⟩

def around : Environment := .quiet fun _ => "basic-rust"

def latest : Option Resource → Resource → Resource := fun _ resource => resource

private theorem testers_differ (i j : Bool) (h : i ≠ j) :
    ¬ SameName around (tester i) around (tester j) := by
  intro ⟨_, p, q, joined, _, _, ⟨network, name, hfile, hname, hjoined⟩,
    network', name', hfile', hname', hjoined'⟩
  cases hfile
  cases hname
  cases hfile'
  cases hname'
  have hsuffix := withSuffix_inj (hjoined.symm.trans hjoined')
  cases i <;> cases j <;> first | exact h rfl | exact absurd hsuffix (by decide)

private def testerNamespace (second : Bool) : String :=
  "keramik-correctness-basic-rust" ++ if second then "-2" else ""

private def namespaceObject (second : Bool) : Object :=
  ⟨.Namespace, none, testerNamespace second⟩

private def createsNamespace (second : Bool) : Bool × Action :=
  (second, .patch (namespaceObject second) (namespaceResource (testerNamespace second)) (.ok ()))

private def withNamespace (s : Cluster Resource) (second : Bool) : Cluster Resource :=
  s.put latest (namespaceObject second) (namespaceResource (testerNamespace second))

private theorem creates_namespace (s : Cluster Resource) (second : Bool) :
    (System.together (cluster latest)).step s (createsNamespace second) (withNamespace s second) :=
  Serves.applied _ trivial

/-- The testers create their namespaces, and could have done so the other way
    round. -/
theorem testers_do_not_interfere : ∃ tr s',
    (System.together (cluster latest)).Run (fun _ => none) tr s' ∧
    ∃ tr' t', (cluster latest).Run (fun _ => none) tr' t' ∧
      tr'.map Fired.label = System.actionsOf true tr ++ System.actionsOf false tr ∧
      Set.EqOn s' t' (Owned around (tester false)) := by
  have hrun := (System.Run.nil.snoc (creates_namespace (fun _ => none) false)).snoc
    (creates_namespace _ true)
  refine ⟨_, _, hrun, ?_⟩
  obtain ⟨hserial, _⟩ := runs_do_not_interfere testers_differ hrun (by decide +kernel)
  obtain ⟨tr', t', hrun', hlabels, hagree⟩ := hserial [true, false] (by decide)
  exact ⟨tr', t', hrun', by simpa using hlabels, hagree false (by decide)⟩

end runs

/-! ## Section 4: Two runs of one configuration -/

section again

variable {Stored : Type} {merge : Option Stored → Resource → Stored} {env : Environment}
  {opts : TestConfig} {network : Network} {network_name : String}
  {s s' : Cluster Stored} {tr : List (Fired (Cluster Stored) Action)}

/-- The object is as the apply of the resource has left it. -/
def Settled (merge : Option Stored → Resource → Stored) (s : Cluster Stored) (object : Object)
    (resource : Resource) : Prop :=
  ∃ stored, s object = some (merge stored resource)

/-- All that a set-up applies is there, as it has left it, and there is a Secret. -/
structure IsSetUp (merge : Option Stored → Resource → Stored) (network : Network)
    (network_name : String) (opts : TestConfig) (s : Cluster Stored) : Prop where
  settled : ∀ object resource, .apply object resource ∈ setUpPlan network network_name opts →
    Settled merge s object resource
  secret : s (adminSecretObject ("keramik-" ++ network_name)) ≠ none

/-- An object stays settled while nothing else is applied to it. -/
theorem Serves.settled {a : Action} (h : Serves merge s a s') {object : Object}
    {resource : Resource} (hsettled : Settled merge s object resource)
    (hsame : ∀ resource' answer, a = .patch object resource' answer → resource' = resource) :
    Settled merge s' object resource := by
  rcases h.writes with rfl | ⟨target, resource', answer, rfl, rfl⟩ |
    ⟨ns, resource', _, name, _, hfree, rfl⟩
  · exact hsettled
  · by_cases htarget : object = target
    · subst htarget
      rw [← hsame resource' answer rfl]
      exact ⟨s object, Cluster.put_self s object resource'⟩
    · obtain ⟨stored, hstored⟩ := hsettled
      exact ⟨stored, (Cluster.put_of_ne s resource' htarget).trans hstored⟩
  · -- a created object is a new one
    obtain ⟨stored, hstored⟩ := hsettled
    refine ⟨stored, (Cluster.put_of_ne s resource' ?_).trans hstored⟩
    rintro rfl
    rw [hfree] at hstored
    cases hstored

/-- To apply a resource once more does nothing. -/
theorem Settled.put_eq
    (hmerge : ∀ stored resource, merge (some (merge stored resource)) resource =
      merge stored resource)
    {object : Object} {resource : Resource} (h : Settled merge s object resource) :
    s.put merge object resource = s := by
  obtain ⟨stored, hstored⟩ := h
  unfold Cluster.put
  rw [hstored, hmerge, ← hstored]
  exact Function.update_eq_self object s

/-- No object goes away in a run. -/
theorem run_keeps (h : (cluster merge).Run s tr s') {object : Object} (hobject : s object ≠ none) :
    s' object ≠ none := by
  have hkeep : ∀ s a s', s object ≠ none → (cluster merge).step s a s' → s' object ≠ none :=
    fun _ _ _ hs hstep => Serves.keeps hstep hs
  exact System.Run.invariant hkeep h hobject

theorem exists_at_end (h : (cluster merge).Run s tr s') {f : Fired (Cluster Stored) Action}
    (hf : f ∈ tr) {object : Object} (hobject : f.after object ≠ none) : s' object ≠ none := by
  obtain ⟨earlier, later, rfl⟩ := List.append_of_mem hf
  exact run_keeps h.split.2.2 hobject

/-- The action of a log that a step of its plan stands for. -/
theorem CarriesOut.mem {steps : List Planned} {log : List Action} (h : CarriesOut steps log)
    {p : Planned} (hp : p ∈ steps) : ∃ a ∈ log, a.planned = some p ∧ a.succeeded = true := by
  rw [← h.inOrder] at hp
  obtain ⟨a, ha, hplanned⟩ := List.mem_filterMap.mp hp
  exact ⟨a, ha, hplanned, h.succeeded a ha⟩

theorem planned_apply {a : Action} {object : Object} {resource : Resource}
    (h : a.planned = some (.apply object resource)) (hsucceeded : a.succeeded = true) :
    a = .patch object resource (.ok ()) ∧ object.kind ≠ .Secret := by
  cases a with
  | patch object' resource' answer =>
    by_cases hkind : object'.kind = .Secret
    · simp [Action.planned, hkind] at h
    · simp only [Action.planned, if_neg hkind, Option.some.injEq, Planned.apply.injEq] at h
      obtain ⟨rfl, rfl⟩ := h
      cases answer with
      | error e => cases hsucceeded
      | ok _ => exact ⟨rfl, hkind⟩
  | get object' answer => cases h
  | create ns resource' answer => cases h
  | wait_for_network network_name wait => cases h
  | sleep wait_secs => cases h
  | wait_for_job ns job_name wait => cases h
  | wait_for_simulation ns wait => cases h

theorem planned_get {a : Action} {object : Object} (h : a.planned = some (.get object))
    (hsucceeded : a.succeeded = true) : ∃ found, a = .get object (.ok found) := by
  cases a with
  | get object' answer =>
    cases h
    cases answer with
    | error e => cases hsucceeded
    | ok found => exact ⟨found, rfl⟩
  | patch object' resource' answer =>
    by_cases hkind : object'.kind = .Secret <;> simp [Action.planned, hkind] at h
  | create ns resource' answer => cases h
  | wait_for_network network_name wait => cases h
  | sleep wait_secs => cases h
  | wait_for_job ns job_name wait => cases h
  | wait_for_simulation ns wait => cases h

theorem Serves.found_eq {object : Object} {found : Bool}
    (h : Serves merge s (.get object (.ok found)) s') : found = (s object).isSome ∧ s' = s := by
  cases h
  exact ⟨rfl, rfl⟩

theorem Serves.applied_eq {object : Object} {resource : Resource}
    (h : Serves merge s (.patch object resource (.ok ())) s') :
    s' = s.put merge object resource := by
  cases h
  rfl

theorem Serves.applied_there {object : Object} {resource : Resource}
    (h : Serves merge s (.patch object resource (.ok ())) s') : s' object ≠ none := by
  rw [h.applied_eq, Cluster.put_self]
  exact Option.some_ne_none _

theorem Serves.found_there {object : Object} (h : Serves merge s (.get object (.ok true)) s') :
    s' object ≠ none := by
  obtain ⟨hfound, rfl⟩ := h.found_eq
  exact Option.isSome_iff_ne_none.mp hfound.symm

/-- The rest of a run keeps an object settled if it applies nothing else to it. -/
theorem settled_at_end (h : (cluster merge).Run s tr s') {object : Object} {resource : Resource}
    (hsettled : Settled merge s object resource)
    (hsame : ∀ f ∈ tr, ∀ resource' answer, f.label = .patch object resource' answer →
      resource' = resource) : Settled merge s' object resource := by
  induction h with
  | nil => exact hsettled
  | snoc _ hstep ih =>
    have hbefore := ih fun f hf => hsame f (List.mem_append_left _ hf)
    have hstep : Serves merge _ _ _ := hstep
    refine hstep.settled hbefore ?_
    exact hsame _ (List.mem_append_right _ (List.mem_singleton_self _))

/-- What a set-up applies to an object depends on the kind of the object. -/
theorem KeepsTo.resource_of_kind {log : List Action}
    (h : KeepsTo (setUpPlan network network_name opts) log) {object : Object}
    {resource : Resource} {answer : Except RunError Unit}
    (hmem : .patch object resource answer ∈ log) (hkind : object.kind ≠ .Secret) :
    .apply object resource ∈ setUpPlan network network_name opts ∧
    setUpResource network ("keramik-" ++ network_name) object.kind = some resource := by
  have hplan : .apply object resource ∈ setUpPlan network network_name opts := by
    refine h.inOrder.subset (List.mem_filterMap.mpr ⟨_, hmem, ?_⟩)
    simp [Action.planned, hkind]
  rcases mem_setUpPlan hplan with hp | hp | ⟨_, _, hp, hresource⟩
  · cases hp
  · cases hp
  · cases hp
    exact ⟨hplan, hresource⟩

/-- After a set-up that succeeded, everything it applies is in place. -/
theorem CarriesOut.isSetUp {log : List Action}
    (hkeeps : KeepsTo (setUpPlan network network_name opts) log)
    (hcarries : CarriesOut (setUpPlan network network_name opts) log)
    (hrun : (cluster merge).Run s tr s') (hlog : tr.map Fired.label = log) :
    IsSetUp merge network network_name opts s' := by
  have hfired : ∀ a ∈ log, ∃ f ∈ tr, f.label = a := by
    intro a ha
    rw [← hlog] at ha
    exact List.mem_map.mp ha
  constructor
  · intro object resource hplan
    obtain ⟨a, ha, hplanned, hsucceeded⟩ := hcarries.mem hplan
    obtain ⟨rfl, hkind⟩ := planned_apply hplanned hsucceeded
    obtain ⟨_, hresource⟩ := hkeeps.resource_of_kind ha hkind
    obtain ⟨f, hf, hlabel⟩ := hfired _ ha
    obtain ⟨earlier, later, rfl⟩ := List.append_of_mem hf
    obtain ⟨_, hstep, hlater⟩ := hrun.split
    have hstep : Serves merge f.before f.label f.after := hstep
    rw [hlabel] at hstep
    have hafter : Settled merge f.after object resource := by
      rw [hstep.applied_eq]
      exact ⟨_, Cluster.put_self _ _ _⟩
    -- the rest of the set-up applies nothing else to the object
    refine settled_at_end hlater hafter ?_
    intro g hg resource' answer hg'
    have hmem : Action.patch object resource' answer ∈ log := by
      rw [← hlog, ← hg']
      exact List.mem_map_of_mem (by simp [hg])
    obtain ⟨_, hresource'⟩ := hkeeps.resource_of_kind hmem hkind
    exact Option.some.inj (hresource'.symm.trans hresource)
  · have hget : .get (adminSecretObject ("keramik-" ++ network_name)) ∈
        setUpPlan network network_name opts := by simp [setUpPlan]
    obtain ⟨a, ha, hplanned, hsucceeded⟩ := hcarries.mem hget
    obtain ⟨found, rfl⟩ := planned_get hplanned hsucceeded
    cases found with
    | true =>
      obtain ⟨f, hf, hlabel⟩ := hfired _ ha
      have hstep : Serves merge f.before f.label f.after := hrun.step_of_mem hf
      rw [hlabel] at hstep
      exact exists_at_end hrun hf hstep.found_there
    | false =>
      obtain ⟨resource, hpatch⟩ := hcarries.secret _ ha
      obtain ⟨f, hf, hlabel⟩ := hfired _ hpatch
      have hstep : Serves merge f.before f.label f.after := hrun.step_of_mem hf
      rw [hlabel] at hstep
      exact exists_at_end hrun hf hstep.applied_there

/-- One action of a set-up, from a state in which everything is in place. -/
theorem IsSetUp.step {log : List Action} {a : Action}
    (hmerge : ∀ stored resource, merge (some (merge stored resource)) resource =
      merge stored resource)
    (h : IsSetUp merge network network_name opts s)
    (hkeeps : KeepsTo (setUpPlan network network_name opts) log) (ha : a ∈ log)
    (hstep : Serves merge s a s')
    (hsecret : ∀ object resource answer, a = .patch object resource answer →
      object.kind ≠ .Secret) : s' = s := by
  rcases hstep.writes with rfl | ⟨object, resource, answer, rfl, rfl⟩ |
    ⟨ns, resource, answer, name, rfl, _, _⟩
  · rfl
  · obtain ⟨hplan, _⟩ := hkeeps.resource_of_kind ha (hsecret _ _ _ rfl)
    exact (h.settled _ _ hplan).put_eq hmerge
  · -- a set-up creates nothing
    have hplan : .create ns resource ∈ setUpPlan network network_name opts :=
      hkeeps.inOrder.subset (List.mem_filterMap.mpr ⟨_, ha, rfl⟩)
    rcases mem_setUpPlan hplan with hp | hp | ⟨_, _, hp, _⟩ <;> cases hp

/-- A set-up, as far as it gets, changes nothing where everything is in place. -/
theorem IsSetUp.unchanged {log : List Action}
    (hmerge : ∀ stored resource, merge (some (merge stored resource)) resource =
      merge stored resource)
    (h : IsSetUp merge network network_name opts s)
    (hkeeps : KeepsTo (setUpPlan network network_name opts) log)
    (hrun : (cluster merge).Run s tr s') (hlog : tr.map Fired.label <+: log) : s' = s := by
  induction hrun with
  | nil => rfl
  | @snoc s₁ s₂ tr a hrun hstep ih =>
    rw [List.map_append] at hlog
    have hearlier := ih ((List.prefix_append _ _).trans hlog)
    subst hearlier
    refine h.step hmerge hkeeps (hlog.subset (by simp)) hstep ?_
    -- a Secret would have been found
    rintro object resource answer rfl hkind
    obtain ⟨rest, hrest⟩ := hlog
    have hmissing := hkeeps.secret (tr.map Fired.label) object resource answer rest
      (by rw [← hrest]; simp) hkind
    obtain ⟨f, hf, hlabel⟩ := List.mem_map.mp hmissing
    obtain ⟨earlier, later, rfl⟩ := List.append_of_mem hf
    obtain ⟨hbefore, hget, _⟩ := hrun.split
    have hget : Serves merge f.before f.label f.after := hget
    rw [hlabel] at hget
    have hplan : .get object ∈ setUpPlan network network_name opts := by
      refine hkeeps.inOrder.subset (List.mem_filterMap.mpr ⟨.get object (.ok false), ?_, rfl⟩)
      rw [← hrest]
      exact List.mem_append_left _ (List.mem_append_left _ hmissing)
    rcases mem_setUpPlan hplan with hp | hp | ⟨_, _, hp, _⟩
    · cases hp
      have hthere := run_keeps hbefore h.secret
      rw [← Option.isSome_iff_ne_none, ← hget.found_eq.1] at hthere
      cases hthere
    · cases hp
    · cases hp

/-- **Set-up.** After a set-up that succeeded, all it applies is in place.
    Another set-up with the same configuration and the same network file
    leaves the cluster as it is, however far it gets and whatever private key
    it comes with. -/
theorem set_up_again {env' : Environment} {s'' : Cluster Stored}
    {tr' : List (Fired (Cluster Stored) Action)} {ns : String}
    (hmerge : ∀ stored resource, merge (some (merge stored resource)) resource =
      merge stored resource)
    (hfile : env'.network_file opts.network = env.network_file opts.network)
    (hdone : (prepare env opts []).1 = .ok ns)
    (hrun : (cluster merge).Run s tr s') (hlog : tr.map Fired.label = (prepare env opts []).2)
    (hrun' : (cluster merge).Run s' tr' s'')
    (hlog' : tr'.map Fired.label <+: (prepare env' opts []).2) :
    (∃ network network_name,
      parse_network_file env opts.network opts.network_ttl opts.flavor opts.suffix = .ok network ∧
      network.name = some network_name ∧ ns = "keramik-" ++ network_name ∧
      IsSetUp merge network network_name opts s') ∧ s'' = s' := by
  obtain ⟨network, network_name, hparse, hname, hns⟩ := prepare_namespace hdone
  have hparse' : parse_network_file env' opts.network opts.network_ttl opts.flavor opts.suffix =
      .ok network := by
    rw [← hparse]
    unfold parse_network_file
    rw [hfile]
  obtain ⟨hkeeps, hcarries⟩ := prepare_keeps_to_plan hparse hname
  have hsetUp : IsSetUp merge network network_name opts s' :=
    (hcarries ns hdone).isSetUp hkeeps hrun hlog
  have hkeeps' := (prepare_keeps_to_plan hparse' hname).1
  exact ⟨⟨network, network_name, hparse, hname, hns, hsetUp⟩,
    hsetUp.unchanged hmerge hkeeps' hrun' hlog'⟩

/-- An action that does not tell of anything missing, nor of a Job. -/
def Action.granted : Action → Bool
  | .get object (.ok true) => object.kind != .Job
  | .patch object _ (.ok _) => object.kind != .Job
  | .wait_for_network _ _ => true
  | _ => false

/-- No Job is there, and everything else is. -/
def Stocked (s : Cluster Stored) : Prop :=
  ∀ object, s object = none ↔ object.kind = .Job

theorem granted_step (hs : Stocked s) {a : Action} (ha : a.granted = true) :
    ∃ s', Serves merge s a s' ∧ Stocked s' := by
  cases a with
  | get object answer =>
    rcases answer with e | found
    · cases ha
    · cases found with
      | false => cases ha
      | true =>
        have hkind : object.kind ≠ .Job := by simpa [Action.granted] using ha
        have hfound : (s object).isSome = true :=
          Option.isSome_iff_ne_none.mpr fun h => hkind ((hs object).mp h)
        exact ⟨s, hfound ▸ Serves.found s object, hs⟩
  | patch object resource answer =>
    cases answer with
    | error e => cases ha
    | ok _ =>
      have hkind : object.kind ≠ .Job := by simpa [Action.granted] using ha
      refine ⟨_, .applied resource ?_, ?_⟩
      · cases object.namespace_ with
        | none => trivial
        | some ns =>
          intro h
          cases (hs _).mp h
      · intro other
        by_cases hother : other = object
        · subst hother
          rw [Cluster.put_self]
          simp [hkind]
        · rw [Cluster.put_of_ne s resource hother]
          exact hs other
  | wait_for_network network_name wait => exact ⟨s, .waitedForNetwork s network_name wait, hs⟩
  | create ns resource answer => cases ha
  | sleep wait_secs => cases ha
  | wait_for_job ns job_name wait => cases ha
  | wait_for_simulation ns wait => cases ha

/-- In a cluster in which nothing but the Jobs is missing. -/
theorem granted_run (hs : Stocked s) (log : List Action) (hlog : ∀ a ∈ log, a.granted = true) :
    ∃ tr s', (cluster merge).Run s tr s' ∧ tr.map Fired.label = log ∧ Stocked s' := by
  induction log using List.reverseRecOn with
  | nil => exact ⟨[], s, .nil, rfl, hs⟩
  | append_singleton log a ih =>
    obtain ⟨tr, s', hrun, hlabels, hs'⟩ := ih fun a ha => hlog a (List.mem_append_left _ ha)
    obtain ⟨s'', hstep, hs''⟩ :=
      granted_step hs' (hlog a (List.mem_append_right _ (List.mem_singleton_self a)))
    refine ⟨_, s'', hrun.snoc hstep, ?_, hs''⟩
    rw [List.map_append, hlabels]
    rfl

/-- A cluster to begin with. -/
def stock : Cluster Resource := fun object =>
  if object.kind = .Job then none else some cluster_role

theorem stocked_stock : Stocked stock := by
  intro object
  by_cases hkind : object.kind = .Job <;> simp [stock, hkind]

theorem quiet_set_up : ∃ tr s', (cluster latest).Run stock tr s' ∧
    tr.map Fired.label = (prepare around (tester false) []).2 ∧ Stocked s' :=
  granted_run stocked_stock _ (by decide +kernel)

/-- The second set-up has another private key. -/
theorem second_set_up_changes_nothing : ∃ tr s' tr' s'',
    (cluster latest).Run stock tr s' ∧ (cluster latest).Run s' tr' s'' ∧
    tr'.map Fired.label = (prepare { around with did_private_key := some "key1" }
      (tester false) []).2 ∧ s'' = s' := by
  obtain ⟨tr, s', hrun, hlog, hs'⟩ := quiet_set_up
  obtain ⟨tr', s'', hrun', hlog', _⟩ := granted_run hs'
    (prepare { around with did_private_key := some "key1" } (tester false) []).2
    (by decide +kernel)
  have hdone : (prepare around (tester false) []).1 = .ok "keramik-correctness-basic-rust" := by
    decide +kernel
  exact ⟨tr, s', tr', s'', hrun, hrun', hlog', (set_up_again (fun _ _ => rfl) rfl hdone hrun hlog
    hrun' (hlog' ▸ List.prefix_rfl)).2⟩

end again

end Hermetic
