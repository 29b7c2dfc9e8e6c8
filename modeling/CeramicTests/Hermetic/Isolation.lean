import CeramicTests.Hermetic.Run

/-! # What a run touches

    All that a run patches or creates is named after the networks it applies
    (`Belongs`), the ClusterRole apart. So two runs that apply networks of
    different names keep out of each other's way, whatever the cluster
    answers.

    The name of a network joins three strings with '-', which the strings may
    contain as well. Different configurations can have the same name.
-/

namespace Hermetic

open Framework

/-! ## Section 1: Names -/

/-- The name in a network file, with the suffix. -/
def FileName (env : Environment) (opts : TestConfig) (file_path joined : String) : Prop :=
  ∃ network name, env.network_file file_path = .ok network ∧ network.name = some name ∧
    joined = withSuffix name opts.suffix

/-- A network file that a run reads. -/
def Reads (opts : TestConfig) (file_path : String) : Prop :=
  file_path = opts.network ∨ ∃ wait_secs, opts.flavor = .Migration wait_secs file_path

/-- The name of the Network that a file with this name in it gives rise to. -/
def networkName (opts : TestConfig) (joined : String) : String :=
  opts.flavor.name ++ "-" ++ joined

/-- The Networks that a run applies. -/
def Applies (env : Environment) (opts : TestConfig) (network_name : String) : Prop :=
  ∃ file_path joined, Reads opts file_path ∧ FileName env opts file_path joined ∧
    network_name = networkName opts joined

/-- The Network that a run waits for. -/
def Awaits (env : Environment) (opts : TestConfig) (network_name : String) : Prop :=
  ∃ joined, FileName env opts opts.network joined ∧ network_name = networkName opts joined

theorem Awaits.applies {env : Environment} {opts : TestConfig} {network_name : String}
    (h : Awaits env opts network_name) : Applies env opts network_name := by
  obtain ⟨joined, hfile, hname⟩ := h
  exact ⟨opts.network, joined, Or.inl rfl, hfile, hname⟩

/-- The suffix goes to the end of the name, whatever stands before it. -/
theorem withSuffix_append (before name : String) (suffix : Option String) :
    withSuffix (before ++ name) suffix = before ++ withSuffix name suffix := by
  cases suffix with
  | none => rfl
  | some suffix =>
    by_cases h : suffix = ""
    · simp only [withSuffix, if_pos h]
    · simp only [withSuffix, if_neg h, String.append_assoc]

/-- Suffixes tell the networks of one file apart, an empty one being none. -/
theorem withSuffix_inj {name : String} {suffix suffix' : Option String}
    (h : withSuffix name suffix = withSuffix name suffix') : suffix.getD "" = suffix'.getD "" := by
  -- what the suffix adds to the name
  have hadds : ∀ s : Option String, (withSuffix name s).toList =
      name.toList ++ (if s.getD "" = "" then [] else '-' :: (s.getD "").toList) := by
    intro s
    cases s with
    | none => simp [withSuffix]
    | some s => by_cases hs : s = "" <;> simp [withSuffix, hs, String.toList_append]
  have hlist := congrArg String.toList h
  rw [hadds, hadds] at hlist
  have htail := List.append_cancel_left hlist
  by_cases hs : suffix.getD "" = "" <;> by_cases hs' : suffix'.getD "" = ""
  · rw [hs, hs']
  · -- only one of the two adds anything
    simp [hs, hs'] at htail
  · simp [hs, hs'] at htail
  · rw [if_neg hs, if_neg hs'] at htail
    exact String.toList_inj.mp (List.cons.inj htail).2

theorem parse_network_file_name {env : Environment} {opts : TestConfig} {file_path : String}
    {network : Network}
    (h : parse_network_file env file_path opts.network_ttl opts.flavor opts.suffix = .ok network) :
    ∃ joined, FileName env opts file_path joined ∧ network.name = some (networkName opts joined) := by
  unfold parse_network_file at h
  cases hfile : env.network_file file_path with
  | error err =>
    rw [hfile] at h
    cases h
  | ok file =>
    simp only [hfile] at h
    cases hname : file.name with
    | none =>
      rw [hname] at h
      cases h
    | some name =>
      simp only [hname, Except.ok.injEq] at h
      subst h
      refine ⟨_, ⟨file, name, hfile, hname, rfl⟩, ?_⟩
      show some (withSuffix (opts.flavor.name ++ "-" ++ name) opts.suffix) = _
      rw [withSuffix_append]
      rfl

/-- The flavor and the joined name can be read off the name of a network. -/
theorem networkName_inj {a b : TestConfig} {joined joined' : String}
    (h : networkName a joined = networkName b joined') :
    a.flavor.name = b.flavor.name ∧ joined = joined' := by
  have hlist := congrArg String.toList h
  unfold networkName at hlist
  rcases a with ⟨_, _, flavor, _, _, _, _, _⟩
  rcases b with ⟨_, _, flavor', _, _, _, _, _⟩
  cases flavor <;> cases flavor' <;>
    simp [Flavor.name, String.toList_append, String.toList_inj] at hlist ⊢ <;> exact hlist

/-! ## Section 2: Objects -/

/-- The object that an action patches or creates. -/
def Action.touches : Action → Option Object
  | .patch object _ _ => some object
  | .create ns resource (.ok created) => some ⟨resource.kind, some ns, created.name⟩
  | _ => none

def clusterRole : Object := ⟨.ClusterRole, none, CLUSTER_ROLE_NAME⟩

/-- The objects that are named after a network. -/
inductive Belongs (network_name : String) : Object → Prop where
  | namespaceItself : Belongs network_name ⟨.Namespace, none, "keramik-" ++ network_name⟩
  | namespaced (kind : Kind) (name : String) (h : kind ≠ .Network) :
      Belongs network_name ⟨kind, some ("keramik-" ++ network_name), name⟩
  | binding : Belongs network_name
      ⟨.ClusterRoleBinding, none,
        "ceramic-tests-cluster-binding-role-" ++ ("keramik-" ++ network_name)⟩
  | network : Belongs network_name ⟨.Network, none, network_name⟩

theorem append_left_inj {before a b : String} (h : before ++ a = before ++ b) : a = b := by
  have hlist := congrArg String.toList h
  rw [String.toList_append, String.toList_append] at hlist
  exact String.toList_inj.mp (List.append_cancel_left hlist)

/-- An object is named after one network only. -/
theorem Belongs.unique {m n : String} {object : Object} (hm : Belongs m object)
    (hn : Belongs n object) : m = n := by
  cases hm with
  | namespaceItself =>
    generalize hname : "keramik-" ++ m = name at hn
    cases hn
    exact append_left_inj hname
  | namespaced kind name hkind =>
    generalize hns : "keramik-" ++ m = ns at hn
    cases hn
    exact append_left_inj hns
  | binding =>
    generalize hname : "ceramic-tests-cluster-binding-role-" ++ ("keramik-" ++ m) = name at hn
    cases hn
    exact append_left_inj (append_left_inj hname)
  | network =>
    cases hn
    rfl

theorem Belongs.network_name {network_name : String} {object : Object}
    (h : Belongs network_name object) (hkind : object.kind = .Network) :
    object.name = network_name := by
  cases h with
  | namespaceItself => cases hkind
  | namespaced kind name hne => exact absurd hkind hne
  | binding => cases hkind
  | network => rfl

/-! ## Section 3: What each part of a run records -/

/-- What a run does before the job. -/
inductive SetsUp (env : Environment) (opts : TestConfig) : Action → Prop where
  | get (object : Object) (answer : Except RunError Bool) : SetsUp env opts (.get object answer)
  | patch {network_name : String} {object : Object} (resource : Resource)
      (answer : Except RunError Unit) (hawaits : Awaits env opts network_name)
      (h : object = clusterRole ∨ Belongs network_name object) :
      SetsUp env opts (.patch object resource answer)
  | wait {network_name : String} (hawaits : Awaits env opts network_name) :
      SetsUp env opts (.wait_for_network network_name (networkWait env opts network_name))

/-- What a run does after it has created the job. -/
inductive Awaiting (env : Environment) (opts : TestConfig) : Action → Prop where
  | sleep (wait_secs : Nat) : Awaiting env opts (.sleep wait_secs)
  | patch {network_name : String} (resource : Resource) (answer : Except RunError Unit)
      (happlies : Applies env opts network_name) :
      Awaiting env opts (.patch ⟨.Network, none, network_name⟩ resource answer)
  | job (ns job_name : String) :
      Awaiting env opts (.wait_for_job ns job_name (jobWait env opts ns job_name))
  | simulation (ns : String) :
      Awaiting env opts (.wait_for_simulation ns (simulationWait env opts ns))

section specs

variable {env : Environment} {opts : TestConfig} {P : Action → Prop}

/-- No call fails with the verdict of the tests. -/
theorem mapError_ne_testsFailed {α ε : Type} {outcome : Except ε α} {wrap : ε → RunError}
    (hwrap : ∀ err, wrap err ≠ testsFailed) {e : RunError} (h : outcome.mapError wrap = .error e) :
    e ≠ testsFailed := by
  cases outcome with
  | ok x => cases h
  | error err =>
    cases h
    exact hwrap err

theorem call_ne_testsFailed (err : String) : RunError.call err ≠ testsFailed := by
  intro h
  cases h

theorem waited_ne_testsFailed {R : Type} {o : Option (LoopRun R)} {e : RunError}
    (h : waited o = .error e) : e ≠ testsFailed := by
  cases o with
  | none =>
    cases h
    decide
  | some run => exact mapError_ne_testsFailed (by intro err herr; cases herr) h

theorem recordWait_spec {R : Type} {wait : UInt32 → Option (LoopRun R)} {timeout_seconds : UInt32}
    {record : Wait R → Action} (h : P (record (.of wait timeout_seconds))) :
    Logged.Spec P (recordWait (.of wait timeout_seconds) record) (fun _ => True)
      (fun e => e ≠ testsFailed) := by
  refine Logged.Spec.call (fun _ => h) (fun _ _ _ => trivial) ?_
  intro n e he
  exact waited_ne_testsFailed he

theorem applyResource_spec {ns : Option String} {resource : Resource}
    (h : ∀ name answer, resource.metadata.name = some name →
      P (.patch ⟨resource.kind, ns, name⟩ resource answer)) :
    Logged.Spec P (applyResource env ns resource) (fun _ => True) (fun e => e ≠ testsFailed) := by
  unfold applyResource
  cases hname : resource.metadata.name with
  | none => exact Logged.Spec.throw (by decide)
  | some name =>
    apply Logged.Spec.call
    · intro n
      exact h name _ hname
    · intro n x hx
      trivial
    · intro n e he
      exact mapError_ne_testsFailed call_ne_testsFailed he

theorem ensureSecret_spec {ns : String} (hget : ∀ object answer, P (.get object answer))
    (hpatch : ∀ resource answer,
      P (.patch ⟨.Secret, some ns, CERAMIC_ADMIN_DID_SECRET_NAME⟩ resource answer)) :
    Logged.Spec P (ensureSecret env ns) (fun _ => True) (fun e => e ≠ testsFailed) := by
  unfold ensureSecret
  refine Logged.Spec.andThen ?_ ?_
  · unfold is_secret_missing
    refine Logged.Spec.andThen ?_ (fun found => Logged.Spec.pure trivial)
    apply Logged.Spec.call
    · intro n
      exact hget _ _
    · intro n x hx
      trivial
    · intro n e he
      exact mapError_ne_testsFailed call_ne_testsFailed he
  · intro missing
    cases missing with
    | false => exact Logged.Spec.pure trivial
    | true =>
      rw [if_pos rfl]
      unfold create_secret apply_resource_namespaced
      refine applyResource_spec ?_
      rintro name answer ⟨⟩
      exact hpatch _ _

theorem parse_network_file_ne {file_path : String} {e : RunError}
    (h : parse_network_file env file_path opts.network_ttl opts.flavor opts.suffix = .error e) :
    e ≠ testsFailed := by
  unfold parse_network_file at h
  cases hfile : env.network_file file_path with
  | error err =>
    rw [hfile] at h
    cases h
    exact call_ne_testsFailed err
  | ok file =>
    simp only [hfile] at h
    cases hname : file.name with
    | none =>
      rw [hname] at h
      cases h
      decide
    | some name =>
      rw [hname] at h
      cases h

/-- A resource in the namespace of the network. -/
theorem namespaced_spec {network_name : String} (hawaits : Awaits env opts network_name)
    {resource : Resource} (hkind : resource.kind ≠ .Network) :
    Logged.Spec (SetsUp env opts)
      (apply_resource_namespaced env ("keramik-" ++ network_name) resource)
      (fun _ => True) (fun e => e ≠ testsFailed) := by
  unfold apply_resource_namespaced
  refine applyResource_spec ?_
  intro name answer _
  exact .patch _ _ hawaits (Or.inr (.namespaced _ _ hkind))

/-- A resource of the cluster with a name. -/
theorem cluster_spec {network_name name : String} (hawaits : Awaits env opts network_name)
    {resource : Resource} (hname : resource.metadata.name = some name)
    (h : (⟨resource.kind, none, name⟩ : Object) = clusterRole ∨
      Belongs network_name ⟨resource.kind, none, name⟩) :
    Logged.Spec (SetsUp env opts) (apply_resource env resource) (fun _ => True)
      (fun e => e ≠ testsFailed) := by
  unfold apply_resource
  refine applyResource_spec ?_
  intro name' answer hname'
  cases hname.symm.trans hname'
  exact .patch _ _ hawaits h

theorem applyDependencies_spec {network_name : String} (hawaits : Awaits env opts network_name)
    {flavor : Flavor} :
    Logged.Spec (SetsUp env opts) (applyDependencies env ("keramik-" ++ network_name) flavor)
      (fun _ => True) (fun e => e ≠ testsFailed) := by
  cases flavor with
  | Performance simulation => exact Logged.Spec.pure trivial
  | Migration wait_secs migration => exact Logged.Spec.pure trivial
  | Correctness =>
    exact (namespaced_spec hawaits (by nofun)).andThen fun _ => namespaced_spec hawaits (by nofun)

/-- Before the job, everything is named after the Network of the run. -/
theorem prepare_spec : Logged.Spec (SetsUp env opts) (prepare env opts)
    (fun ns => ∃ network_name, Awaits env opts network_name ∧ ns = "keramik-" ++ network_name)
    (fun e => e ≠ testsFailed) := by
  unfold prepare
  refine Logged.Spec.andThen ?_ fun _ => ?_
  · refine Logged.Spec.ofExcept (fun _ _ => trivial) ?_
    intro e he
    exact mapError_ne_testsFailed call_ne_testsFailed he
  refine Logged.Spec.bind (Q := fun network => ∃ network_name, Awaits env opts network_name ∧
    network.name = some network_name) ?_ ?_
  · refine Logged.Spec.ofExcept ?_ fun e he => parse_network_file_ne he
    intro network hparse
    obtain ⟨joined, hfile, hname⟩ := parse_network_file_name hparse
    exact ⟨_, ⟨joined, hfile, rfl⟩, hname⟩
  -- from here on the run has one network name
  rintro network ⟨network_name, hawaits, hname⟩
  refine Logged.Spec.bind (Q := fun name => name = network_name) ?_ ?_
  · have hunchecked : nameUnchecked network.resource.metadata = .ok network_name := by
      simp only [nameUnchecked, Network.resource, hname]
    rw [hunchecked]
    refine Logged.Spec.ofExcept ?_ ?_
    · rintro name ⟨⟩
      rfl
    · rintro e ⟨⟩
  rintro _ rfl
  -- one step for each resource
  refine (cluster_spec hawaits rfl (Or.inr .namespaceItself)).andThen fun _ => ?_
  refine Logged.Spec.andThen ?_ fun _ => ?_
  · refine ensureSecret_spec .get fun resource answer => ?_
    exact .patch _ _ hawaits (Or.inr (.namespaced _ _ (by decide)))
  refine (namespaced_spec hawaits (by nofun)).andThen fun _ => ?_
  refine (cluster_spec hawaits rfl (Or.inl rfl)).andThen fun _ => ?_
  refine (cluster_spec hawaits rfl (Or.inr .binding)).andThen fun _ => ?_
  refine (cluster_spec hawaits hname (Or.inr .network)).andThen fun _ => ?_
  refine (namespaced_spec hawaits (by nofun)).andThen fun _ => ?_
  refine (applyDependencies_spec hawaits).andThen fun _ => ?_
  exact (recordWait_spec (.wait hawaits)).andThen fun _ => Logged.Spec.pure ⟨_, hawaits, rfl⟩

theorem create_spec {ns : String} {resource : Resource}
    (h : ∀ answer, P (.create ns resource answer)) :
    Logged.Spec P (create_resource_namespaced env ns resource) (fun _ => True)
      (fun e => e ≠ testsFailed) := by
  unfold create_resource_namespaced
  refine Logged.Spec.andThen ?_ fun _ => Logged.Spec.pure trivial
  refine Logged.Spec.call (fun _ => h _) (fun _ _ _ => trivial) ?_
  intro n e he
  exact mapError_ne_testsFailed call_ne_testsFailed he

/-- The job is created in the namespace. -/
theorem createTests_spec {ns : String} :
    Logged.Spec (fun a => ∃ resource answer, a = .create ns resource answer ∧
      resource.kind ≠ .Network) (createTests env opts ns) (fun _ => True)
      (fun e => e ≠ testsFailed) := by
  unfold createTests
  cases opts.flavor with
  | Correctness => exact create_spec fun answer => ⟨_, answer, rfl, by nofun⟩
  | Migration wait_secs migration => exact create_spec fun answer => ⟨_, answer, rfl, by nofun⟩
  | Performance simulation =>
    refine Logged.Spec.andThen ?_ fun simulation => ?_
    · refine Logged.Spec.ofExcept (fun _ _ => trivial) ?_
      intro e he
      unfold performance_simulation at he
      cases hfile : env.simulation_file simulation with
      | error err =>
        rw [hfile] at he
        cases he
        exact call_ne_testsFailed err
      | ok file =>
        rw [hfile] at he
        cases he
    · exact create_spec fun answer => ⟨_, answer, rfl, by nofun⟩

theorem waitForJob_spec {ns job_name : String} :
    Logged.Spec (Awaiting env opts) (waitForJob env opts ns job_name) (fun _ => True)
      (fun e => e ≠ testsFailed) :=
  recordWait_spec (.job ns job_name)

theorem migrate_spec {wait_secs : Nat} {migration : String}
    (hflavor : opts.flavor = .Migration wait_secs migration) :
    Logged.Spec (Awaiting env opts) (migrate env opts wait_secs migration) (fun _ => True)
      (fun e => e ≠ testsFailed) := by
  unfold migrate
  refine Logged.Spec.andThen ?_ fun _ => ?_
  · refine Logged.Spec.call (fun _ => .sleep wait_secs) (fun _ _ _ => trivial) ?_
    intro n e he
    cases he
  refine Logged.Spec.bind (Q := fun network => ∃ network_name, Applies env opts network_name ∧
    network.name = some network_name) ?_ ?_
  · refine Logged.Spec.ofExcept ?_ fun e he => parse_network_file_ne he
    intro network hparse
    obtain ⟨joined, hfile, hname⟩ := parse_network_file_name hparse
    exact ⟨_, ⟨migration, joined, Or.inr ⟨wait_secs, hflavor⟩, hfile, rfl⟩, hname⟩
  rintro network ⟨network_name, happlies, hname⟩
  unfold apply_resource
  refine applyResource_spec ?_
  intro name answer hmeta
  cases hname.symm.trans hmeta
  exact .patch _ _ happlies

theorem awaitResults_spec {ns job_name : String} :
    Logged.Spec (Awaiting env opts) (awaitResults env opts ns job_name) (fun _ => True)
      (fun e => e ≠ testsFailed) := by
  unfold awaitResults
  cases hflavor : opts.flavor with
  | Correctness => exact waitForJob_spec
  | Migration wait_secs migration =>
    exact (migrate_spec hflavor).andThen fun _ => waitForJob_spec
  | Performance simulation => exact recordWait_spec (.simulation ns)

end specs

/-! ## Section 4: The whole run -/

/-- The action touches only what is named after a Network that the run
    applies, and waits only for the one that it awaits. -/
structure Within (env : Environment) (opts : TestConfig) (a : Action) : Prop where
  touched : ∀ object, a.touches = some object →
    object = clusterRole ∨ ∃ network_name, Applies env opts network_name ∧
      Belongs network_name object
  waited : ∀ network_name wait, a = .wait_for_network network_name wait →
    Awaits env opts network_name

theorem SetsUp.within {env : Environment} {opts : TestConfig} {a : Action}
    (h : SetsUp env opts a) : Within env opts a := by
  cases h with
  | get object answer => exact ⟨by nofun, by nofun⟩
  | patch resource answer hawaits h =>
    refine ⟨?_, by nofun⟩
    rintro object ⟨⟩
    rcases h with rfl | hbelongs
    · exact Or.inl rfl
    · exact Or.inr ⟨_, hawaits.applies, hbelongs⟩
  | wait hawaits =>
    refine ⟨by nofun, ?_⟩
    rintro network_name wait ⟨⟩
    exact hawaits

theorem Awaiting.within {env : Environment} {opts : TestConfig} {a : Action}
    (h : Awaiting env opts a) : Within env opts a := by
  cases h with
  | sleep wait_secs => exact ⟨by nofun, by nofun⟩
  | patch resource answer happlies =>
    refine ⟨?_, by nofun⟩
    rintro object ⟨⟩
    exact Or.inr ⟨_, happlies, .network⟩
  | job ns job_name => exact ⟨by nofun, by nofun⟩
  | simulation ns => exact ⟨by nofun, by nofun⟩

theorem within_of_create {env : Environment} {opts : TestConfig} {network_name : String}
    (hawaits : Awaits env opts network_name) {resource : Resource} (hkind : resource.kind ≠ .Network)
    {answer : Except RunError Created} :
    Within env opts (.create ("keramik-" ++ network_name) resource answer) := by
  refine ⟨?_, by nofun⟩
  intro object hobject
  cases answer with
  -- nothing was created
  | error e => cases hobject
  | ok created =>
    cases hobject
    exact Or.inr ⟨_, hawaits.applies, .namespaced _ _ hkind⟩

/-- A run sets up, creates its job, and awaits the results, whatever the
    cluster answers. -/
theorem run_actions {env : Environment} {opts : TestConfig} {P : Action → Prop}
    (hsetUp : ∀ a, SetsUp env opts a → P a)
    (hcreate : ∀ network_name resource answer, Awaits env opts network_name →
      resource.kind ≠ .Network → P (.create ("keramik-" ++ network_name) resource answer))
    (hawaiting : ∀ a, Awaiting env opts a → P a) : ∀ a ∈ (run env opts []).2, P a := by
  have hspec : Logged.Spec P (run env opts) (fun _ => True) (fun _ => True) := by
    unfold run
    -- the namespace that the first part returns is that of the network
    refine (prepare_spec.weaken hsetUp (fun _ h => h) (fun _ _ => trivial)).bind ?_
    rintro ns ⟨network_name, hawaits, rfl⟩
    refine Logged.Spec.andThen ?_ fun job_name => ?_
    · refine createTests_spec.weaken ?_ (fun _ h => h) (fun _ _ => trivial)
      rintro a ⟨resource, answer, rfl, hkind⟩
      exact hcreate network_name resource answer hawaits hkind
    refine (awaitResults_spec.weaken hawaiting (fun _ h => h) (fun _ _ => trivial)).andThen
      fun results => ?_
    obtain ⟨result, logs⟩ := results
    cases result with
    | Pass => exact Logged.Spec.pure trivial
    | Fail => exact Logged.Spec.throw trivial
  obtain ⟨new, hlog, hnew⟩ := hspec.actions []
  intro a ha
  rw [hlog, List.nil_append] at ha
  exact hnew a ha

theorem run_within (env : Environment) (opts : TestConfig) :
    ∀ a ∈ (run env opts []).2, Within env opts a :=
  run_actions (fun _ h => h.within) (fun _ _ _ hawaits hkind => within_of_create hawaits hkind)
    fun _ h => h.within

/-- The run patches or creates this object. -/
def Touches (env : Environment) (opts : TestConfig) (object : Object) : Prop :=
  ∃ a ∈ (run env opts []).2, a.touches = some object

/-- The run waited for this Network. -/
def WaitedFor (env : Environment) (opts : TestConfig) (network_name : String) : Prop :=
  ∃ wait, .wait_for_network network_name wait ∈ (run env opts []).2

/-- What a configuration is told apart by: its flavor, the name in its network
    file, and its suffix. -/
def triple (env : Environment) (opts : TestConfig) : String × Option String × String :=
  (opts.flavor.name, (env.network_file opts.network).toOption.bind Network.name,
    opts.suffix.getD "")

/-- Two runs read files that agree in flavor, name and suffix once the name
    and the suffix are joined. -/
def SameName (envA : Environment) (a : TestConfig) (envB : Environment) (b : TestConfig) : Prop :=
  a.flavor.name = b.flavor.name ∧ ∃ p q joined, Reads a p ∧ Reads b q ∧
    FileName envA a p joined ∧ FileName envB b q joined

/-- The migration file of a run names the same network as its network file. -/
def MigratesItself (env : Environment) (opts : TestConfig) : Prop :=
  ∀ p joined joined', Reads opts p → FileName env opts opts.network joined →
    FileName env opts p joined' → joined' = joined

/-- **Isolation.** Two runs whose files do not have the same flavor and
    joined name touch nothing in common but the ClusterRole. A run whose
    migration file names its own network patches no Network but the one it
    waits for. -/
theorem runs_isolated (envA envB : Environment) (a b : TestConfig) :
    (¬ SameName envA a envB b →
      ∀ object, Touches envA a object → Touches envB b object → object = clusterRole) ∧
    (MigratesItself envA a →
      ∀ object network_name, Touches envA a object → object.kind = .Network →
        WaitedFor envA a network_name → object.name = network_name) := by
  constructor
  · rintro hnames object ⟨x, hx, hobject⟩ ⟨y, hy, hobject'⟩
    rcases (run_within envA a x hx).touched object hobject with h | ⟨m, hm, hbelongs⟩
    · exact h
    rcases (run_within envB b y hy).touched object hobject' with h | ⟨n, hn, hbelongs'⟩
    · exact h
    -- the object is named after one network, which both apply
    cases hbelongs.unique hbelongs'
    obtain ⟨p, joined, hp, hfile, rfl⟩ := hm
    obtain ⟨q, joined', hq, hfile', heq⟩ := hn
    obtain ⟨hflavor, rfl⟩ := networkName_inj heq
    exact absurd ⟨hflavor, p, q, joined, hp, hq, hfile, hfile'⟩ hnames
  · rintro hmigration object network_name ⟨x, hx, hobject⟩ hkind ⟨wait, hwaited⟩
    obtain ⟨joined, hfile, rfl⟩ := (run_within envA a _ hwaited).waited _ wait rfl
    rcases (run_within envA a x hx).touched object hobject with rfl | ⟨m, hm, hbelongs⟩
    · cases hkind
    obtain ⟨p, joined', hp, hfile', rfl⟩ := hm
    rw [hbelongs.network_name hkind, hmigration p joined joined' hp hfile hfile']

/-! ### Runs with similar names -/

section names

private def opts (network : String) (flavor : Flavor) (suffix : Option String) : TestConfig :=
  ⟨network, none, flavor, suffix, 28800, 290, 290, "."⟩

private def migration : Flavor := .Migration 60 "post.yaml"

private theorem fileName_quiet {name : String} {c : TestConfig} {p joined : String}
    (h : FileName (.quiet fun _ => name) c p joined) : joined = withSuffix name c.suffix := by
  obtain ⟨network, name', hfile, hname, rfl⟩ := h
  cases hfile
  cases hname
  rfl

/-- Two migrations of one network, told apart by a suffix. -/
theorem migrations_isolated :
    (∀ object, Touches (.quiet fun _ => "basic-go-rust") (opts "pre.yaml" migration none) object →
      Touches (.quiet fun _ => "basic-go-rust") (opts "pre.yaml" migration (some "2")) object →
      object = clusterRole) ∧
    (∀ object network_name,
      Touches (.quiet fun _ => "basic-go-rust") (opts "pre.yaml" migration none) object →
      object.kind = .Network →
      WaitedFor (.quiet fun _ => "basic-go-rust") (opts "pre.yaml" migration none) network_name →
      object.name = network_name) := by
  obtain ⟨hisolated, hown⟩ := runs_isolated (.quiet fun _ => "basic-go-rust")
    (.quiet fun _ => "basic-go-rust") (opts "pre.yaml" migration none)
    (opts "pre.yaml" migration (some "2"))
  constructor
  · apply hisolated
    rintro ⟨_, p, q, joined, _, _, hp, hq⟩
    have hjoined := (fileName_quiet hp).symm.trans (fileName_quiet hq)
    revert hjoined
    decide
  · apply hown
    intro p joined joined' _ hfile hfile'
    rw [fileName_quiet hfile, fileName_quiet hfile']

/-- A network "a-b" without a suffix, and a network "a" with the suffix "b",
    are one network to the driver. A migration file that names the network
    "a-b" is applied while the run waits for the network "a". -/
theorem names_collide :
    triple (.quiet fun _ => "a-b") (opts "a-b.yaml" .Correctness none) ≠
      triple (.quiet fun _ => "a") (opts "a.yaml" .Correctness (some "b")) ∧
    Touches (.quiet fun _ => "a-b") (opts "a-b.yaml" .Correctness none)
      ⟨.Namespace, none, "keramik-correctness-a-b"⟩ ∧
    Touches (.quiet fun _ => "a") (opts "a.yaml" .Correctness (some "b"))
      ⟨.Namespace, none, "keramik-correctness-a-b"⟩ ∧
    WaitedFor (.quiet fun p => if p = "post.yaml" then "a-b" else "a")
      (opts "a.yaml" migration none) "migration-a" ∧
    Touches (.quiet fun p => if p = "post.yaml" then "a-b" else "a")
      (opts "a.yaml" migration none) ⟨.Network, none, "migration-a-b"⟩ := by
  refine ⟨by decide, ⟨.patch ⟨.Namespace, none, "keramik-correctness-a-b"⟩
      ⟨.Namespace, named "keramik-correctness-a-b", .fixed⟩ (.ok ()), ?_, rfl⟩,
    ⟨.patch ⟨.Namespace, none, "keramik-correctness-a-b"⟩
      ⟨.Namespace, named "keramik-correctness-a-b", .fixed⟩ (.ok ()), ?_, rfl⟩,
    ⟨⟨290, [290], .ok ()⟩, ?_⟩,
    ⟨.patch ⟨.Network, none, "migration-a-b"⟩
      ⟨.Network, named "migration-a-b", .network ⟨1, some 28800⟩⟩ (.ok ()), ?_, rfl⟩⟩
  · decide +kernel
  · decide +kernel
  · decide +kernel
  · decide +kernel

end names

end Hermetic
