import CeramicTests.Framework.Transition
import CeramicTests.Hermetic.Isolation
import Mathlib.Logic.Function.Basic

/-! # The migration check

    The driver of a migration run and the test 'migrate' of
    `suite/src/__tests__/migration/all-event-types.tests.ts` are two
    processes that do not talk to each other. The driver creates the job,
    sleeps, and applies the migration network. The test reads the version of
    the node, writes events of all kinds, waits until the version is another
    one, and reads the events back.

    - Section 1: the steps of the driver, as `run` takes them
    - Section 2: the test, the node and the driver as one system
    - Section 3: invariants
    - Section 4: what a passed test says
-/

namespace Hermetic.Migration

open Framework Transition

/-! ## Section 1: The driver -/

inductive DriverStep where
  | create_job
  | sleep (wait_secs : Nat)
  | apply_network
  deriving DecidableEq, Repr

/-- What the driver does once the network is ready. -/
def driverSteps (wait_secs : Nat) : List DriverStep :=
  [.create_job, .sleep wait_secs, .apply_network]

/-- The step that an action of the driver is, after the set-up. -/
def driverStep : Action → Option DriverStep
  | .create _ _ _ => some .create_job
  | .sleep wait_secs => some (.sleep wait_secs)
  | .patch _ _ _ => some .apply_network
  | _ => none

section driver

variable {env : Environment} {opts : TestConfig} {wait_secs : Nat} {migration : String}

theorem applyResource_follows {ns : Option String} {resource : Resource} :
    Logged.Follows driverStep (applyResource env ns resource) [.apply_network] := by
  unfold applyResource
  cases resource.metadata.name with
  | none => exact Logged.Follows.throw
  | some name => exact Logged.Follows.call fun _ => rfl

theorem createTests_follows (hflavor : opts.flavor = .Migration wait_secs migration) {ns : String} :
    Logged.Follows driverStep (createTests env opts ns) [.create_job] := by
  unfold createTests
  rw [hflavor]
  have hcreate : Logged.Follows driverStep (create_resource_namespaced env ns
      (correctness_test ns opts.test_image opts.test_selector)) ([.create_job] ++ []) :=
    Logged.Follows.bind (Logged.Follows.call fun _ => rfl) fun _ => Logged.Follows.pure
  exact hcreate

theorem awaitResults_follows (hflavor : opts.flavor = .Migration wait_secs migration)
    {ns job_name : String} :
    Logged.Follows driverStep (awaitResults env opts ns job_name)
      [.sleep wait_secs, .apply_network] := by
  unfold awaitResults
  rw [hflavor]
  have hsleep : Logged.Follows driverStep
      (Logged.call (fun _ => .ok ()) (fun _ => .sleep wait_secs) : Driver Unit)
      [.sleep wait_secs] := Logged.Follows.call fun _ => rfl
  have hmigrate : Logged.Follows driverStep (migrate env opts wait_secs migration)
      ([.sleep wait_secs] ++ ([] ++ [.apply_network])) :=
    hsleep.bind fun _ => Logged.Follows.ofExcept.bind fun _ => applyResource_follows
  have hwait : Logged.Follows driverStep (waitForJob env opts ns job_name) [] :=
    Logged.Follows.call fun _ => rfl
  exact hmigrate.bind fun _ => hwait

/-- After the set-up, a migration run takes the steps of the driver in their
    order, as far as it gets. -/
theorem run_follows (hflavor : opts.flavor = .Migration wait_secs migration) :
    ∃ setup rest, (run env opts []).2 = setup ++ rest ∧ (∀ a ∈ setup, SetsUp env opts a) ∧
      rest.filterMap driverStep <+: driverSteps wait_secs := by
  have hspec : Logged.Spec (SetsUp env opts) (prepare env opts) _ _ := prepare_spec
  obtain ⟨setup, hlog, hsetup⟩ := hspec.actions []
  unfold run
  cases hprepare : prepare env opts [] with
  | mk res before =>
    rw [hprepare, List.nil_append] at hlog
    have hlog : before = setup := hlog
    subst hlog
    cases res with
    -- the set-up failed: no step of the driver
    | error e =>
      rw [Logged.bind_of_error hprepare]
      exact ⟨before, [], (List.append_nil _).symm, hsetup, List.nil_prefix⟩
    | ok ns =>
      rw [Logged.bind_of_ok hprepare]
      have hreport : ∀ results : JobResult × String,
          Logged.Follows driverStep (report results) [] := by
        rintro ⟨result, logs⟩
        cases result with
        | Pass => exact Logged.Follows.pure
        | Fail => exact Logged.Follows.throw
      have htests : Logged.Follows driverStep (createTests env opts ns) [.create_job] :=
        createTests_follows hflavor
      have hresults : ∀ job_name, Logged.Follows driverStep (awaitResults env opts ns job_name)
          [.sleep wait_secs, .apply_network] := fun _ => awaitResults_follows hflavor
      have hrest := htests.bind fun job_name => (hresults job_name).bind hreport
      obtain ⟨rest, hlog, hsteps, _⟩ := hrest before
      exact ⟨before, rest, hlog, hsetup, hsteps⟩

end driver

/-! ## Section 2: The system -/

/-- The three kinds of data that the test writes. -/
inductive EventKind where
  | key
  | cacao
  | unsigned
  deriving DecidableEq, Repr

/-- A call on a document. The number is the `step` of its content. -/
inductive Op where
  | create (step : Option Nat)
  | waitForAnchor
  | load
  | replace (step : Nat)
  | sync
  deriving DecidableEq, Repr

def Op.writes : Op → Bool
  | .create _ => true
  | .replace _ => true
  | _ => false

/-- `writeKeySignedDataEvents`, `writeCACAOSignedDataEvents` and
    `writeUnsignedInitEvents` -/
def writeEvents : EventKind → List Op
  | .key => [.create (some 400), .waitForAnchor, .load, .replace 401, .waitForAnchor]
  | .cacao => [.create (some 600), .waitForAnchor, .load, .replace 601, .waitForAnchor]
  | .unsigned => [.create none, .waitForAnchor, .replace 700, .waitForAnchor]

/-- How the events are read back, in this order. -/
def readEvents : List (EventKind × Op) := [(.key, .sync), (.cacao, .sync), (.unsigned, .load)]

/-- What the test does with the models before it writes. -/
inductive ModelStep where
  | create (name : String)
  | index (name : String)
  deriving DecidableEq, Repr

def modelSteps : List ModelStep :=
  [.create "ceramic-tests-single-model", .index "ceramic-tests-single-model",
    .create "CDITModel", .index "CDITModel"]

/-- Where the test stands. -/
inductive Phase where
  | ready
  | models (todo : List ModelStep)
  | writing (todo : EventKind → List Op)
  | waitForVersionChange
  | waitForNodeAlive
  | reading (todo : List (EventKind × Op))
  | passed
  | failed

/-- A call on a document, and when it was made: in the `epoch`-th version of
    the node, and after the driver had applied the migration network or not. -/
structure Access where
  kind : EventKind
  op : Op
  epoch : Nat
  applied : Bool
  deriving DecidableEq, Repr

/-- `driver` is what the driver has yet to do. The node has changed its
    version `epoch` times. `readAt` is the epoch in which the test read
    `ceramicVersion`. -/
structure State where
  driver : List DriverStep
  epoch : Nat
  reachable : Bool
  phase : Phase
  ceramicVersion : Option String
  readAt : Nat
  writes : List Access
  reads : List Access

def initial (wait_secs : Nat) (reachable : Bool) : State :=
  ⟨driverSteps wait_secs, 0, reachable, .ready, none, 0, [], []⟩

/-- The migration network has been applied. -/
def State.applied (s : State) : Bool := decide (.apply_network ∉ s.driver)

def State.jobCreated (s : State) : Bool := decide (.create_job ∉ s.driver)

def State.access (s : State) (kind : EventKind) (op : Op) : Access := ⟨kind, op, s.epoch, s.applied⟩

/-- `version i` is the version of the node in its `i`-th epoch. -/
def getVersion (version : Nat → String) (s : State) : Option String :=
  if s.reachable then some (version s.epoch) else none

inductive Label where
  | driver (d : DriverStep)
  | changeVersion
  | goDown
  | comeUp
  | getVersion
  | model
  | event (kind : EventKind)
  | pollVersion
  | pollHealth (alive : Bool)
  | readBack
  | throws
  deriving DecidableEq, Repr

def afterModels : List ModelStep → Phase
  | [] => .writing writeEvents
  | todo => .models todo

/-- `Promise.all` of the three writers. -/
def afterEvent (todo : EventKind → List Op) : Phase :=
  if todo .key = [] ∧ todo .cacao = [] ∧ todo .unsigned = [] then .waitForVersionChange
  else .writing todo

def afterRead : List (EventKind × Op) → Phase
  | [] => .passed
  | todo => .reading todo

/-- Record a call on a document, if it is a write. -/
def State.perform (s : State) (kind : EventKind) (op : Op) : State :=
  if op.writes then { s with writes := s.writes ++ [s.access kind op] } else s

/-- One step. A call needs a node that can be reached, and may throw even
    then. -/
def next (version : Nat → String) (s : State) : Label → Option State
  | .driver d => if s.driver.head? = some d then some { s with driver := s.driver.tail } else none
  -- the version changes as a consequence of the migration only
  | .changeVersion => if s.applied then some { s with epoch := s.epoch + 1 } else none
  | .goDown => some { s with reachable := false }
  | .comeUp => some { s with reachable := true }
  | .getVersion =>
    match s.phase with
    | .ready =>
      -- the test runs in the job
      if s.jobCreated then
        some { s with
          phase := .models modelSteps
          ceramicVersion := getVersion version s
          readAt := s.epoch }
      else none
    | _ => none
  | .model =>
    match s.phase with
    | .models (_ :: todo) => if s.reachable then some { s with phase := afterModels todo } else none
    | _ => none
  | .event kind =>
    match s.phase with
    | .writing todo =>
      match todo kind with
      | op :: ops =>
        if s.reachable then
          some { s.perform kind op with phase := afterEvent (Function.update todo kind ops) }
        else none
      | [] => none
    | _ => none
  | .pollVersion =>
    match s.phase with
    | .waitForVersionChange =>
      -- `undefined`, or the version that was read first: sleep and try again
      if getVersion version s = none ∨ getVersion version s = s.ceramicVersion then some s
      else some { s with phase := .waitForNodeAlive }
    | _ => none
  | .pollHealth alive =>
    match s.phase with
    | .waitForNodeAlive =>
      -- the health check may fail on a node that can be reached
      if alive then
        if s.reachable then some { s with phase := .reading readEvents } else none
      else some s
    | _ => none
  | .readBack =>
    match s.phase with
    | .reading ((kind, op) :: todo) =>
      if s.reachable then
        some { s with phase := afterRead todo, reads := s.reads ++ [s.access kind op] }
      else none
    | _ => none
  | .throws =>
    match s.phase with
    | .passed => none
    | .failed => none
    | _ => some { s with phase := .failed }

def system (version : Nat → String) (wait_secs : Nat) : System State Label :=
  .ofNext (fun s => ∃ reachable, s = initial wait_secs reachable) (next version)

/-! ### What a step can do -/

/-- The effect of a step, with its guards. -/
inductive Effect (version : Nat → String) (s : State) : State → Prop where
  | environment (driver : List DriverStep) (epoch : Nat) (reachable : Bool)
      (hdriver : s.applied = true → .apply_network ∉ driver)
      (hepoch : epoch = s.epoch ∨ s.epoch < epoch ∧ .apply_network ∉ driver) :
      Effect version s { s with driver := driver, epoch := epoch, reachable := reachable }
  | getVersion (hphase : s.phase = .ready) :
      Effect version s { s with
        phase := .models modelSteps, ceramicVersion := getVersion version s, readAt := s.epoch }
  | model {m : ModelStep} {todo : List ModelStep} (hphase : s.phase = .models (m :: todo)) :
      Effect version s { s with phase := afterModels todo }
  | event {todo : EventKind → List Op} {kind : EventKind} {op : Op} {ops : List Op}
      (hphase : s.phase = .writing todo) (htodo : todo kind = op :: ops) :
      Effect version s { s.perform kind op with
        phase := afterEvent (Function.update todo kind ops) }
  | versionChanged (hphase : s.phase = .waitForVersionChange)
      (hpoll : ¬ (getVersion version s = none ∨ getVersion version s = s.ceramicVersion)) :
      Effect version s { s with phase := .waitForNodeAlive }
  | alive (hphase : s.phase = .waitForNodeAlive) :
      Effect version s { s with phase := .reading readEvents }
  | readBack {kind : EventKind} {op : Op} {todo : List (EventKind × Op)}
      (hphase : s.phase = .reading ((kind, op) :: todo)) :
      Effect version s { s with
        phase := afterRead todo, reads := s.reads ++ [s.access kind op] }
  | fails : Effect version s { s with phase := .failed }
  | idle : Effect version s s

section effect

variable {version : Nat → String} {s s' : State}

theorem effect_of_environment {l : Label}
    (hl : (∃ d, l = .driver d) ∨ l = .changeVersion ∨ l = .goDown ∨ l = .comeUp)
    (hstep : next version s l = some s') : Effect version s s' := by
  rcases hl with ⟨d, rfl⟩ | rfl | rfl | rfl
  · simp only [next] at hstep
    by_cases hd : s.driver.head? = some d
    · rw [if_pos hd] at hstep
      cases hstep
      -- what is done stays done
      refine .environment _ _ s.reachable ?_ (Or.inl rfl)
      intro happlied hmem
      exact of_decide_eq_true happlied (List.mem_of_mem_tail hmem)
    · rw [if_neg hd] at hstep
      cases hstep
  · simp only [next] at hstep
    by_cases happlied : s.applied = true
    · rw [if_pos happlied] at hstep
      cases hstep
      have hnot : .apply_network ∉ s.driver := of_decide_eq_true happlied
      exact .environment s.driver _ s.reachable (fun _ => hnot) (Or.inr ⟨Nat.lt_succ_self _, hnot⟩)
    · rw [if_neg happlied] at hstep
      cases hstep
  · cases hstep
    exact .environment s.driver s.epoch false of_decide_eq_true (Or.inl rfl)
  · cases hstep
    exact .environment s.driver s.epoch true of_decide_eq_true (Or.inl rfl)

/-- The calls of the test, up to the end of the writes. -/
theorem effect_of_writing {l : Label} (hl : l = .getVersion ∨ l = .model ∨ ∃ kind, l = .event kind)
    (hstep : next version s l = some s') : Effect version s s' := by
  rcases hl with rfl | rfl | ⟨kind, rfl⟩
  · simp only [next] at hstep
    split at hstep
    · rename_i hphase
      split at hstep
      · cases hstep
        exact .getVersion hphase
      · cases hstep
    · cases hstep
  · simp only [next] at hstep
    split at hstep
    · rename_i hphase
      split at hstep
      · cases hstep
        exact .model hphase
      · cases hstep
    · cases hstep
  · simp only [next] at hstep
    split at hstep
    · rename_i todo hphase
      split at hstep
      · rename_i op ops htodo
        split at hstep
        · cases hstep
          exact .event hphase htodo
        · cases hstep
      · cases hstep
    · cases hstep

/-- Every step has one of the effects. -/
theorem effect_of_next {l : Label} (hstep : next version s l = some s') : Effect version s s' := by
  cases l with
  | driver d => exact effect_of_environment (Or.inl ⟨d, rfl⟩) hstep
  | changeVersion => exact effect_of_environment (Or.inr (Or.inl rfl)) hstep
  | goDown => exact effect_of_environment (Or.inr (Or.inr (Or.inl rfl))) hstep
  | comeUp => exact effect_of_environment (Or.inr (Or.inr (Or.inr rfl))) hstep
  | getVersion => exact effect_of_writing (Or.inl rfl) hstep
  | model => exact effect_of_writing (Or.inr (Or.inl rfl)) hstep
  | event kind => exact effect_of_writing (Or.inr (Or.inr ⟨kind, rfl⟩)) hstep
  | pollVersion =>
    simp only [next] at hstep
    split at hstep
    · rename_i hphase
      split at hstep
      · cases hstep
        exact .idle
      · rename_i hpoll
        cases hstep
        exact .versionChanged hphase hpoll
    · cases hstep
  | pollHealth alive =>
    simp only [next] at hstep
    split at hstep
    · rename_i hphase
      split at hstep
      · split at hstep
        · cases hstep
          exact .alive hphase
        · cases hstep
      · cases hstep
        exact .idle
    · cases hstep
  | readBack =>
    simp only [next] at hstep
    split at hstep
    · rename_i hphase
      split at hstep
      · cases hstep
        exact .readBack hphase
      · cases hstep
    · cases hstep
  | throws =>
    simp only [next] at hstep
    split at hstep
    · cases hstep
    · cases hstep
    · cases hstep
      exact .fails

end effect

/-! ## Section 3: Invariants -/

/-- The test has seen another version than the one it read first. -/
def Phase.changed : Phase → Bool
  | .waitForNodeAlive => true
  | .reading _ => true
  | .passed => true
  | _ => false

/-- What the accesses so far say about the epochs. -/
structure Sound (version : Nat → String) (s : State) : Prop where
  applied : 0 < s.epoch → s.applied = true
  readAt_le : s.readAt ≤ s.epoch
  version : ∀ v, s.ceramicVersion = some v → v = version s.readAt
  untouched : s.phase = .ready → s.writes = [] ∧ s.reads = []
  writes : ∀ w ∈ s.writes, s.readAt ≤ w.epoch ∧ (0 < w.epoch → w.applied = true)
  changed : s.phase.changed = true → s.ceramicVersion ≠ none → s.readAt < s.epoch
  reads : s.ceramicVersion ≠ none → ∀ r ∈ s.reads, s.readAt < r.epoch ∧ r.applied = true

theorem sound_initial (version : Nat → String) (wait_secs : Nat) (reachable : Bool) :
    Sound version (initial wait_secs reachable) where
  applied := by
    intro h
    cases h
  readAt_le := Nat.le_refl 0
  version := by
    intro v h
    cases h
  untouched := fun _ => ⟨rfl, rfl⟩
  writes := by
    intro w h
    cases h
  changed := by
    intro h
    cases h
  reads := by
    intro _ r h
    cases h

/-! ### One lemma for each kind of effect -/

section effects

variable {version : Nat → String} {s : State}

/-- The driver and the node move on. -/
theorem Sound.environment (h : Sound version s) {driver : List DriverStep} {epoch : Nat}
    (reachable : Bool) (hepoch : s.epoch ≤ epoch)
    (happlied : 0 < epoch → .apply_network ∉ driver) :
    Sound version { s with driver := driver, epoch := epoch, reachable := reachable } where
  applied := fun hpos => decide_eq_true (happlied hpos)
  readAt_le := Nat.le_trans h.readAt_le hepoch
  version := h.version
  untouched := h.untouched
  writes := h.writes
  changed := fun hchanged hread => Nat.lt_of_lt_of_le (h.changed hchanged hread) hepoch
  reads := h.reads

/-- The test moves on. -/
theorem Sound.moveTo (h : Sound version s) {phase : Phase} (hphase : phase ≠ .ready)
    (hchanged : phase.changed = true → s.ceramicVersion ≠ none → s.readAt < s.epoch) :
    Sound version { s with phase := phase } where
  applied := h.applied
  readAt_le := h.readAt_le
  version := h.version
  untouched := fun hready => absurd hready hphase
  writes := h.writes
  changed := hchanged
  reads := h.reads

/-- The test reads the version. -/
theorem Sound.getVersion (h : Sound version s) (hready : s.phase = .ready) :
    Sound version { s with
      phase := .models modelSteps, ceramicVersion := getVersion version s, readAt := s.epoch } where
  applied := h.applied
  readAt_le := Nat.le_refl _
  version := by
    intro v hv
    have hv : (if s.reachable then some (version s.epoch) else none) = some v := hv
    by_cases hr : s.reachable = true
    · rw [if_pos hr] at hv
      exact (Option.some.inj hv).symm
    · rw [if_neg hr] at hv
      cases hv
  untouched := by
    intro hphase
    cases hphase
  writes := by
    intro w hw
    have hnone : s.writes = [] := (h.untouched hready).1
    rw [hnone] at hw
    cases hw
  changed := by
    intro hchanged
    cases hchanged
  reads := by
    intro _ r hr
    have hnone : s.reads = [] := (h.untouched hready).2
    rw [hnone] at hr
    cases hr

/-- The test makes a call on a document while it writes. -/
theorem Sound.perform (h : Sound version s) (hphase : s.phase ≠ .ready) (kind : EventKind)
    (op : Op) : Sound version (s.perform kind op) := by
  unfold State.perform
  by_cases hop : op.writes = true
  · rw [if_pos hop]
    -- the new access is of the present epoch
    refine ⟨h.applied, h.readAt_le, h.version, fun hready => absurd hready hphase, ?_, h.changed,
      h.reads⟩
    intro w hw
    rcases List.mem_append.mp hw with hw | hw
    · exact h.writes w hw
    · rw [List.mem_singleton.mp hw]
      exact ⟨h.readAt_le, h.applied⟩
  · rw [if_neg hop]
    exact h

/-- The test reads something back. -/
theorem Sound.readBack (h : Sound version s) (hchanged : s.phase.changed = true)
    (kind : EventKind) (op : Op) :
    Sound version { s with reads := s.reads ++ [s.access kind op] } where
  applied := h.applied
  readAt_le := h.readAt_le
  version := h.version
  untouched := by
    intro hready
    rw [show s.phase = .ready from hready] at hchanged
    cases hchanged
  writes := h.writes
  changed := h.changed
  reads := by
    intro hread r hr
    rcases List.mem_append.mp hr with hr | hr
    · exact h.reads hread r hr
    · rw [List.mem_singleton.mp hr]
      -- the poll has seen a later epoch, and epochs only grow
      have hlt := h.changed hchanged hread
      exact ⟨hlt, h.applied (Nat.lt_of_le_of_lt (Nat.zero_le _) hlt)⟩

/-- What the poll has seen is a later epoch. -/
theorem Sound.later (h : Sound version s)
    (hpoll : ¬ (Migration.getVersion version s = none ∨
      Migration.getVersion version s = s.ceramicVersion))
    (hread : s.ceramicVersion ≠ none) : s.readAt < s.epoch := by
  obtain ⟨v, hv⟩ := Option.ne_none_iff_exists'.mp hread
  have hversion := h.version v hv
  -- in the same epoch the poll would have found the same version
  have hne : s.readAt ≠ s.epoch := by
    intro heq
    apply hpoll
    unfold Migration.getVersion
    by_cases hr : s.reachable = true
    · right
      rw [if_pos hr, hv, hversion, heq]
    · left
      rw [if_neg hr]
  have hle := h.readAt_le
  omega

theorem afterModels_ne (todo : List ModelStep) :
    afterModels todo ≠ .ready ∧ (afterModels todo).changed = false := by
  cases todo with
  | nil => exact ⟨nofun, rfl⟩
  | cons m todo => exact ⟨nofun, rfl⟩

theorem afterEvent_ne (todo : EventKind → List Op) :
    afterEvent todo ≠ .ready ∧ (afterEvent todo).changed = false := by
  unfold afterEvent
  by_cases h : todo .key = [] ∧ todo .cacao = [] ∧ todo .unsigned = []
  · rw [if_pos h]
    exact ⟨nofun, rfl⟩
  · rw [if_neg h]
    exact ⟨nofun, rfl⟩

theorem afterRead_ne (todo : List (EventKind × Op)) : afterRead todo ≠ .ready := by
  cases todo with
  | nil => nofun
  | cons m todo => nofun

end effects

/-- A phase in which nothing has changed yet says nothing. -/
theorem not_changed {phase : Phase} {P : Prop} (h : phase.changed = false) :
    phase.changed = true → P := by
  intro h'
  rw [h] at h'
  cases h'

/-- Every step keeps the accesses sound. -/
theorem Sound.effect {version : Nat → String} {s s' : State} (h : Sound version s)
    (heffect : Effect version s s') : Sound version s' := by
  cases heffect with
  | environment driver epoch reachable hdriver hepoch =>
    refine h.environment reachable ?_ ?_
    · rcases hepoch with rfl | ⟨hlt, _⟩
      · exact Nat.le_refl _
      · exact Nat.le_of_lt hlt
    · intro hpos
      rcases hepoch with rfl | ⟨_, hnot⟩
      · exact hdriver (h.applied hpos)
      · exact hnot
  | getVersion hphase => exact h.getVersion hphase
  | model hphase =>
    rename_i m todo
    exact h.moveTo (afterModels_ne todo).1 (not_changed (afterModels_ne todo).2)
  | event hphase htodo =>
    rename_i todo kind op ops
    have hready : s.phase ≠ .ready := by
      rw [hphase]
      nofun
    exact (h.perform hready kind op).moveTo (afterEvent_ne _).1 (not_changed (afterEvent_ne _).2)
  | versionChanged hphase hpoll => exact h.moveTo nofun fun _ hread => h.later hpoll hread
  | alive hphase =>
    refine h.moveTo nofun fun _ hread => h.changed ?_ hread
    rw [hphase]
    rfl
  | readBack hphase =>
    rename_i kind op todo
    have hchanged : s.phase.changed = true := by
      rw [hphase]
      rfl
    exact (h.readBack hchanged kind op).moveTo (afterRead_ne todo)
      fun _ hread => h.changed hchanged hread
  | fails => exact h.moveTo nofun (not_changed rfl)
  | idle => exact h

/-! ### Nothing is left out -/

/-- The calls that a writer has yet to make. -/
def Phase.todo : Phase → EventKind → List Op
  | .ready => writeEvents
  | .models _ => writeEvents
  | .writing todo => todo
  | _ => fun _ => []

/-- What has yet to be read back. -/
def Phase.unread : Phase → List (EventKind × Op)
  | .reading todo => todo
  | .passed => []
  | _ => readEvents

/-- The writes of one kind so far. -/
def State.written (s : State) (kind : EventKind) : List Op :=
  (s.writes.filter fun w => decide (w.kind = kind)).map Access.op

def State.readBack (s : State) : List (EventKind × Op) := s.reads.map fun r => (r.kind, r.op)

/-- Done and still to be done are all there is to do, in a test that has not
    failed. -/
def Progress (s : State) : Prop :=
  s.phase = .failed ∨
    (∀ kind, s.written kind ++ (s.phase.todo kind).filter Op.writes =
      (writeEvents kind).filter Op.writes) ∧
    s.readBack ++ s.phase.unread = readEvents

theorem written_perform (s : State) (kind kind' : EventKind) (op : Op) :
    (s.perform kind op).written kind' =
      s.written kind' ++ (if kind' = kind then [op].filter Op.writes else []) := by
  unfold State.perform State.written
  by_cases hop : op.writes = true
  · rw [if_pos hop]
    by_cases hkind : kind' = kind
    · subst hkind
      simp [State.access, hop]
    · simp [State.access, hkind, Ne.symm hkind]
  · rw [if_neg hop]
    by_cases hkind : kind' = kind <;> simp [hkind, hop]

theorem readBack_perform (s : State) (kind : EventKind) (op : Op) :
    (s.perform kind op).readBack = s.readBack := by
  unfold State.perform
  by_cases hop : op.writes = true
  · rw [if_pos hop]
    rfl
  · rw [if_neg hop]

theorem afterEvent_todo (todo : EventKind → List Op) (kind : EventKind) :
    (afterEvent todo).todo kind = todo kind ∧ (afterEvent todo).unread = readEvents := by
  unfold afterEvent
  by_cases h : todo .key = [] ∧ todo .cacao = [] ∧ todo .unsigned = []
  · rw [if_pos h]
    refine ⟨?_, rfl⟩
    cases kind with
    | key => exact h.1.symm
    | cacao => exact h.2.1.symm
    | unsigned => exact h.2.2.symm
  · rw [if_neg h]
    exact ⟨rfl, rfl⟩

/-- Every step keeps the progress. -/
theorem Progress.effect {version : Nat → String} {s s' : State} (h : Progress s)
    (heffect : Effect version s s') : Progress s' := by
  have hrest : s.phase ≠ .failed →
      (∀ kind, s.written kind ++ (s.phase.todo kind).filter Op.writes =
        (writeEvents kind).filter Op.writes) ∧
      s.readBack ++ s.phase.unread = readEvents :=
    fun hphase => h.resolve_left hphase
  cases heffect with
  | environment driver epoch reachable hdriver hepoch => exact h
  | getVersion hphase =>
    rw [hphase] at hrest
    exact Or.inr (hrest nofun)
  | model hphase =>
    rename_i m todo
    rw [hphase] at hrest
    right
    cases todo with
    | nil => exact hrest nofun
    | cons m todo => exact hrest nofun
  | event hphase htodo =>
    rename_i todo kind op ops
    rw [hphase] at hrest
    obtain ⟨hwrites, hreads⟩ := hrest nofun
    right
    constructor
    · intro kind'
      show (s.perform kind op).written kind' ++ _ = _
      -- the first call of one writer moves from what is to be done to what is done
      rw [written_perform, (afterEvent_todo _ kind').1, ← hwrites kind', List.append_assoc]
      congr 1
      by_cases hkind : kind' = kind
      · subst hkind
        rw [if_pos rfl, Function.update_self, ← List.filter_append]
        show _ = (todo kind').filter Op.writes
        rw [htodo]
        rfl
      · rw [if_neg hkind, Function.update_of_ne hkind]
        rfl
    · show (s.perform kind op).readBack ++ _ = _
      rw [(afterEvent_todo _ kind).2, readBack_perform]
      exact hreads
  | versionChanged hphase hpoll =>
    rw [hphase] at hrest
    exact Or.inr (hrest nofun)
  | alive hphase =>
    rw [hphase] at hrest
    exact Or.inr (hrest nofun)
  | readBack hphase =>
    rename_i kind op todo
    rw [hphase] at hrest
    obtain ⟨hwrites, hreads⟩ := hrest nofun
    right
    constructor
    · intro kind'
      cases todo with
      | nil => exact hwrites kind'
      | cons r todo => exact hwrites kind'
    · rw [← hreads]
      unfold State.readBack
      rw [List.map_append, List.append_assoc]
      congr 1
      cases todo with
      | nil => rfl
      | cons r todo => rfl
  | fails => exact Or.inl rfl
  | idle => exact h

theorem progress_initial (wait_secs : Nat) (reachable : Bool) :
    Progress (initial wait_secs reachable) :=
  Or.inr ⟨fun _ => rfl, rfl⟩

/-! ## Section 4: What a passed test says -/

/-- A run of the driver, the node and the test. -/
def RunsTo (version : Nat → String) (wait_secs : Nat) (s : State) : Prop :=
  ∃ reachable tr, (system version wait_secs).Run (initial wait_secs reachable) tr s

theorem RunsTo.sound {version : Nat → String} {wait_secs : Nat} {s : State}
    (h : RunsTo version wait_secs s) : Sound version s ∧ Progress s := by
  obtain ⟨reachable, tr, hrun⟩ := h
  have hkeep : ∀ s l s', Sound version s ∧ Progress s → (system version wait_secs).step s l s' →
      Sound version s' ∧ Progress s' := by
    rintro s l s' ⟨hsound, hprogress⟩ hstep
    have heffect : Effect version s s' := effect_of_next hstep
    exact ⟨hsound.effect heffect, hprogress.effect heffect⟩
  exact hrun.invariant hkeep
    ⟨sound_initial version wait_secs reachable, progress_initial wait_secs reachable⟩

/-- **The migration check.** Let no version of the node return once it has
    been left. If the test passes, and its first look at the version found
    one, then all writes were made, each with the version from before the
    migration or after the driver had applied the migration network, and
    all were read back after that, with a version that is neither the one
    from before the migration nor the one that the test read first. -/
theorem passed_test_migrated {version : Nat → String} (hversion : Function.Injective version)
    {wait_secs : Nat} {s : State} (hrun : RunsTo version wait_secs s) (hpassed : s.phase = .passed)
    (hread : s.ceramicVersion ≠ none) :
    (∀ kind, s.written kind = (writeEvents kind).filter Op.writes) ∧ s.readBack = readEvents ∧
    (∀ w ∈ s.writes, version w.epoch = version 0 ∨ w.applied = true) ∧
    (∀ r ∈ s.reads, r.applied = true ∧ version r.epoch ≠ version 0 ∧
      s.ceramicVersion ≠ some (version r.epoch)) := by
  obtain ⟨hsound, hprogress⟩ := hrun.sound
  -- a test that has passed has nothing left to do
  have hdone := hprogress.resolve_left (by rw [hpassed]; nofun)
  rw [hpassed] at hdone
  refine ⟨?_, ?_, ?_, ?_⟩
  · intro kind
    have hwrites := hdone.1 kind
    rwa [show (Phase.passed.todo kind).filter Op.writes = [] from rfl, List.append_nil] at hwrites
  · have hreads := hdone.2
    rwa [show Phase.passed.unread = [] from rfl, List.append_nil] at hreads
  · intro w hw
    by_cases hepoch : w.epoch = 0
    · left
      rw [hepoch]
    · exact Or.inr ((hsound.writes w hw).2 (Nat.pos_of_ne_zero hepoch))
  · intro r hr
    obtain ⟨hlater, happlied⟩ := hsound.reads hread r hr
    refine ⟨happlied, ?_, ?_⟩
    · intro heq
      -- a later epoch has another version, as none returns
      have hzero := hversion heq
      omega
    · intro heq
      have hsame := hversion (hsound.version _ heq)
      omega

/-! ### Runs of the system -/

section runs

private theorem runsTo_of_execute (version : Nat → String) (reachable : Bool)
    (labels : List Label) {wait_secs : Nat} {s : State}
    (h : labels.foldlM (next version) (initial wait_secs reachable) = some s) :
    RunsTo version wait_secs s := by
  have hstart : (system version wait_secs).Run (initial wait_secs reachable) []
    (initial wait_secs reachable) := .nil
  obtain ⟨tr, hrun⟩ := hstart.execute h
  exact ⟨reachable, tr, hrun⟩

/-- The models and all events, one writer after another. -/
private def write : List Label :=
  List.replicate 4 .model ++ List.replicate 5 (.event .key) ++ List.replicate 5 (.event .cacao) ++
    List.replicate 4 (.event .unsigned)

private def applyNetwork : List Label := [.driver (.sleep 60), .driver .apply_network]

private def readAll : List Label := [.pollVersion, .pollHealth true] ++ List.replicate 3 .readBack

private def versions (i : Nat) : String := String.ofList (List.replicate (i + 1) 'v')

private theorem versions_injective : Function.Injective versions := by
  intro i j h
  have hlength := congrArg (fun v => v.toList.length) h
  simpa [versions] using hlength

/-- The migration takes place between the writes and the reads. -/
private def inTime : List Label :=
  [.driver .create_job, .getVersion] ++ write ++ applyNetwork ++
    [.goDown, .changeVersion, .pollVersion, .comeUp] ++ readAll

/-- Such a test passes, and has met two versions. -/
theorem migration_in_time : ∃ s, RunsTo versions 60 s ∧ s.phase = .passed ∧
    (∀ w ∈ s.writes, versions w.epoch = versions 0 ∨ w.applied = true) ∧
    (∀ r ∈ s.reads, r.applied = true ∧ versions r.epoch ≠ versions 0 ∧
      s.ceramicVersion ≠ some (versions r.epoch)) := by
  obtain ⟨s, hexec, hphase, hread⟩ : ∃ s, inTime.foldlM (next versions) (initial 60 true) = some s ∧
      s.phase = .passed ∧ s.ceramicVersion = some (versions 0) := ⟨_, rfl, rfl, rfl⟩
  have hrun := runsTo_of_execute versions true inTime hexec
  have hsound := passed_test_migrated versions_injective hrun hphase (by rw [hread]; nofun)
  exact ⟨s, hrun, hphase, hsound.2.2.1, hsound.2.2.2⟩

/-- All writes were made with the version from before the migration, and all
    were read back with another one. -/
def Migrated (version : Nat → String) (s : State) : Prop :=
  (∀ w ∈ s.writes, version w.epoch = version 0) ∧ ∀ r ∈ s.reads, version r.epoch ≠ version 0

instance (version : Nat → String) (s : State) : Decidable (Migrated version s) :=
  inferInstanceAs (Decidable (_ ∧ _))

/-- The sleep is over before the test has written anything. -/
private def tooEarly : List Label :=
  [.driver .create_job, .getVersion] ++ applyNetwork ++ [.changeVersion] ++ write ++ readAll

/-- The node cannot be reached when the test reads its version. The driver
    is still asleep when the test ends. -/
private def unread : List Label :=
  [.driver .create_job, .getVersion, .comeUp] ++ write ++ readAll

/-- The node goes back to its old version before the test reads. -/
private def rolledBack : List Label :=
  [.driver .create_job, .getVersion] ++ write ++ applyNetwork ++
    [.changeVersion, .pollVersion, .changeVersion, .pollHealth true] ++ List.replicate 3 .readBack

private def twoVersions (i : Nat) : String := if i = 1 then "0.33.0" else "0.32.0"

/-- Three tests that pass and have not seen a migration from the version of
    their writes to another version of their reads. -/
theorem passes_without_migration :
    (∃ s, RunsTo versions 60 s ∧ s.phase = .passed ∧ s.ceramicVersion = some (versions 0) ∧
      ¬ Migrated versions s) ∧
    (∃ s, RunsTo versions 60 s ∧ s.phase = .passed ∧ s.applied = false ∧ ¬ Migrated versions s) ∧
    (∃ s, RunsTo twoVersions 60 s ∧ s.phase = .passed ∧
      s.ceramicVersion = some (twoVersions 0) ∧ ¬ Migrated twoVersions s) := by
  refine ⟨⟨_, runsTo_of_execute versions true tooEarly rfl, rfl, rfl, ?_⟩,
    ⟨_, runsTo_of_execute versions false unread rfl, rfl, rfl, ?_⟩,
    ⟨_, runsTo_of_execute twoVersions true rolledBack rfl, rfl, rfl, ?_⟩⟩
  · decide +kernel
  · decide +kernel
  · decide +kernel

end runs

end Hermetic.Migration
