import CeramicTests.Hermetic.Plan

/-! # The command line of the driver

    `hermetic/src/cli.rs` and `main.rs`: the options of `test` become the
    configuration of a run. Some options are of one flavor only. That flavor
    demands them, and the others ignore them.
-/

namespace Hermetic

open Framework

/-! ## Section 1: Options -/

inductive FlavorOpts where
  | Correctness
  | Migration
  | Performance
  deriving DecidableEq, Repr

/-- What is typed for the flavor. -/
def FlavorOpts.name : FlavorOpts → String
  | .Correctness => "correctness"
  | .Migration => "migration"
  | .Performance => "perf"

/-- The options, with their defaults. -/
structure TestOpts where
  network : String
  simulation : Option String := none
  test_image : Option String := none
  flavor : FlavorOpts
  suffix : Option String := none
  network_ttl : Nat := 8 * 60 * 60
  network_timeout : UInt32 := 600
  job_timeout : UInt32 := 60 * 60 * 3
  test_selector : String := "."
  migration_network : Option String := none
  migration_wait_secs : Option Nat := none
  deriving DecidableEq

/-- `ok_or` -/
def okOr {α : Type} (option : Option α) (err : String) : Except String α :=
  match option with
  | some x => .ok x
  | none => .error err

def FlavorOpts.config (opts : TestOpts) : FlavorOpts → Except String Flavor
  | .Correctness => .ok .Correctness
  | .Migration => do
    let wait_secs ← okOr opts.migration_wait_secs
      "Migration flavor requires \x60migration_wait_secs\x60"
    let migration ← okOr opts.migration_network
      "Migration flavor requires \x60migration_network\x60"
    pure (.Migration wait_secs migration)
  | .Performance => do
    let simulation ← okOr opts.simulation "Simulation file required for performance tests"
    pure (.Performance simulation)

def try_from (opts : TestOpts) : Except String TestConfig := do
  let flavor ← opts.flavor.config opts
  pure
    { network := opts.network
      test_image := opts.test_image
      flavor := flavor
      suffix := opts.suffix
      network_ttl := opts.network_ttl
      network_timeout := opts.network_timeout
      job_timeout := opts.job_timeout
      test_selector := opts.test_selector }

/-- The options are looked at before anything else. -/
def main (env : Environment) (opts : TestOpts) : Driver Unit := do
  let config ← Logged.ofExcept ((try_from opts).mapError .anyhow)
  run env config

/-! ## Section 2: Configurations as command lines -/

/-- The options of a configuration. -/
def TestConfig.opts (config : TestConfig) : TestOpts :=
  let opts : TestOpts :=
    { network := config.network
      test_image := config.test_image
      flavor := .Correctness
      suffix := config.suffix
      network_ttl := config.network_ttl
      network_timeout := config.network_timeout
      job_timeout := config.job_timeout
      test_selector := config.test_selector }
  match config.flavor with
  | .Correctness => opts
  | .Migration wait_secs migration =>
    { opts with
      flavor := .Migration
      migration_network := some migration
      migration_wait_secs := some wait_secs }
  | .Performance simulation => { opts with flavor := .Performance, simulation := some simulation }

/-- Without the options of other flavors. -/
def TestOpts.relevant (opts : TestOpts) : TestOpts :=
  match opts.flavor with
  | .Correctness =>
    { opts with simulation := none, migration_network := none, migration_wait_secs := none }
  | .Migration => { opts with simulation := none }
  | .Performance => { opts with migration_network := none, migration_wait_secs := none }

variable {opts : TestOpts} {config : TestConfig}

/-- What the flavor demands of the options. -/
theorem config_eq_ok_iff {flavor : Flavor} :
    opts.flavor.config opts = .ok flavor ↔
      match flavor with
      | .Correctness => opts.flavor = .Correctness
      | .Migration wait_secs migration => opts.flavor = .Migration ∧
        opts.migration_wait_secs = some wait_secs ∧ opts.migration_network = some migration
      | .Performance simulation => opts.flavor = .Performance ∧ opts.simulation = some simulation := by
  constructor
  · intro h
    cases hflavor : opts.flavor with
    | Correctness =>
      rw [hflavor] at h
      cases h
      rfl
    | Migration =>
      rw [hflavor] at h
      unfold FlavorOpts.config at h
      cases hwait : opts.migration_wait_secs <;> cases hnetwork : opts.migration_network <;>
        rw [hwait, hnetwork] at h <;> cases h
      exact ⟨rfl, rfl, rfl⟩
    | Performance =>
      rw [hflavor] at h
      unfold FlavorOpts.config at h
      cases hsimulation : opts.simulation <;> rw [hsimulation] at h <;> cases h
      exact ⟨rfl, rfl⟩
  · intro h
    cases flavor with
    | Correctness =>
      rw [h]
      rfl
    | Migration wait_secs migration =>
      obtain ⟨hflavor, hwait, hnetwork⟩ := h
      simp only [hflavor, FlavorOpts.config, hwait, hnetwork, okOr]
      rfl
    | Performance simulation =>
      obtain ⟨hflavor, hsimulation⟩ := h
      simp only [hflavor, FlavorOpts.config, hsimulation, okOr]
      rfl

theorem try_from_cases (opts : TestOpts) :
    (∃ err, opts.flavor.config opts = .error err ∧ try_from opts = .error err) ∨
    ∃ flavor, opts.flavor.config opts = .ok flavor ∧ try_from opts = .ok
      ⟨opts.network, opts.test_image, flavor, opts.suffix, opts.network_ttl,
        opts.network_timeout, opts.job_timeout, opts.test_selector⟩ := by
  unfold try_from
  cases h : opts.flavor.config opts with
  | error err => exact Or.inl ⟨err, rfl, rfl⟩
  | ok flavor => exact Or.inr ⟨flavor, rfl, rfl⟩

theorem try_from_opts (config : TestConfig) : try_from config.opts = .ok config := by
  obtain ⟨network, test_image, flavor, suffix, ttl, network_timeout, job_timeout, selector⟩ := config
  cases flavor <;> rfl

theorem try_from_relevant (opts : TestOpts) : try_from opts.relevant = try_from opts := by
  unfold TestOpts.relevant
  cases h : opts.flavor <;> simp only [try_from, h, FlavorOpts.config]

theorem opts_of_try_from (h : try_from opts = .ok config) : config.opts = opts.relevant := by
  rcases try_from_cases opts with ⟨err, _, herr⟩ | ⟨flavor, hflavor, hconfig⟩
  · cases h.symm.trans herr
  · cases h.symm.trans hconfig
    rw [config_eq_ok_iff] at hflavor
    cases flavor with
    | Correctness =>
      simp only [TestConfig.opts, TestOpts.relevant, hflavor]
    | Migration wait_secs migration =>
      obtain ⟨hflavor, hwait, hnetwork⟩ := hflavor
      simp only [TestConfig.opts, TestOpts.relevant, hflavor, hwait, hnetwork]
    | Performance simulation =>
      obtain ⟨hflavor, hsimulation⟩ := hflavor
      simp only [TestConfig.opts, TestOpts.relevant, hflavor, hsimulation]

/-- **Command lines.** Options are accepted for a configuration if and only
    if they are its options, apart from those of other flavors. So every
    configuration can be asked for. -/
theorem try_from_eq_ok_iff : try_from opts = .ok config ↔ config.opts = opts.relevant := by
  constructor
  · exact opts_of_try_from
  · intro h
    rw [← try_from_relevant, ← h, try_from_opts]

/-- The flavor that is typed is the one that names the networks. -/
theorem flavor_name_of_try_from (h : try_from opts = .ok config) :
    config.flavor.name = opts.flavor.name := by
  rcases try_from_cases opts with ⟨err, _, herr⟩ | ⟨flavor, hflavor, hconfig⟩
  · cases h.symm.trans herr
  · cases h.symm.trans hconfig
    rw [config_eq_ok_iff] at hflavor
    cases flavor with
    | Correctness =>
      rw [hflavor]
      rfl
    | Migration wait_secs migration =>
      rw [hflavor.1]
      rfl
    | Performance simulation =>
      rw [hflavor.1]
      rfl

/-- A command line is a run, or nothing is asked of the cluster. -/
theorem main_cases (opts : TestOpts) :
    (∃ config, config.opts = opts.relevant ∧ ∀ env, main env opts = run env config) ∨
    ∃ err, ∀ env, main env opts [] = (.error (.anyhow err), []) := by
  unfold main
  cases h : try_from opts with
  | error err => exact Or.inr ⟨err, fun env => rfl⟩
  | ok config => exact Or.inl ⟨config, opts_of_try_from h, fun env => rfl⟩

end Hermetic
