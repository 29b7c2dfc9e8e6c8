import CeramicTests.Framework.Simulation
import CeramicTests.Suite.SharedTable

/-! # The table before the tests

    `createTestTable` of `suite/src/utils/dynamoDbHelpers.ts` comes first in
    the `beforeAll` of every test file that uses the table. It describes the
    table until that is ACTIVE, and tries to create it whenever that fails.
    Any number of test files do so at the same time, against a table that
    may be missing, and no error ends the wait.

    - Section 1: `createTestTable`, cut at its requests
    - Section 2: a test file, with its set-up
    - Section 3: all test files, over one table that comes into being
    - Section 4: the table is created once, and no test meets it too early
    - Section 5: the set-up never gets stuck
    - Section 6: without the set-up it is the shared table of before
-/

namespace Suite

open Transition Framework

/-! ## Section 1: The wait for the table -/

/-- Nobody deletes the table. -/
inductive TableStatus where
  | CREATING
  | UPDATING
  | ACTIVE
  deriving DecidableEq, Repr

inductive TableRequest where
  | describeTable
  | createTable
  deriving DecidableEq, Repr

/-- `described` is `Table?.TableStatus`. -/
inductive TableReply where
  | described (status : Option TableStatus)
  | created
  | error (err : String)
  deriving DecidableEq, Repr

/-- `createTestTable`, at each of its requests. -/
inductive CreateTestTable where
  | describing
  | creating
  | returned
  deriving DecidableEq, Repr

namespace CreateTestTable

def request : CreateTestTable → Option TableRequest
  | .describing => some .describeTable
  | .creating => some .createTable
  | .returned => none

/-- The loop: each delay of it ends in the next request. -/
def resume : CreateTestTable → TableReply → CreateTestTable
  | .describing, .described status => if status = some .ACTIVE then .returned else .describing
  -- whatever the error, the table is taken to be missing
  | .describing, _ => .creating
  | .creating, _ => .describing
  | .returned, _ => .returned

/-- Only an ACTIVE table ends the wait. -/
theorem resume_eq_returned {p : CreateTestTable} {reply : TableReply} (hp : p ≠ .returned)
    (h : p.resume reply = .returned) : p = .describing ∧ reply = .described (some .ACTIVE) := by
  cases p with
  | describing =>
    cases reply with
    | described status =>
      by_cases hst : status = some .ACTIVE
      · exact ⟨rfl, by rw [hst]⟩
      · simp [resume, hst] at h
    | created => cases h
    | error err => cases h
  | creating => cases h
  | returned => exact absurd rfl hp

end CreateTestTable

/-! ## Section 2: A test file -/

variable {K : Type}

/-- A test file: its `beforeAll`, with the test that follows, or the test. -/
inductive Worker (K : Type) where
  | settingUp (p : CreateTestTable) (test : Process K)
  | testing (p : Process K)

namespace Worker

def request : Worker K → Option (TableRequest ⊕ Request K)
  | .settingUp p _ => p.request.map .inl
  | .testing p => p.request.map .inr

theorem request_eq_inl {w : Worker K} {r : TableRequest} (h : w.request = some (.inl r)) :
    ∃ p test, w = .settingUp p test ∧ p.request = some r := by
  cases w with
  | settingUp p test =>
    obtain ⟨r', hr', heq⟩ := Option.map_eq_some_iff.mp h
    cases heq
    exact ⟨p, test, rfl, hr'⟩
  | testing p =>
    obtain ⟨_, _, heq⟩ := Option.map_eq_some_iff.mp h
    cases heq

theorem request_eq_inr {w : Worker K} {r : Request K} (h : w.request = some (.inr r)) :
    ∃ p, w = .testing p ∧ p.request = some r := by
  cases w with
  | settingUp p test =>
    obtain ⟨_, _, heq⟩ := Option.map_eq_some_iff.mp h
    cases heq
  | testing p =>
    obtain ⟨r', hr', heq⟩ := Option.map_eq_some_iff.mp h
    cases heq
    exact ⟨p, rfl, hr'⟩

/-- The test begins as soon as the set-up has returned. -/
def afterSetUp (p : CreateTestTable) (test : Process K) : Worker K :=
  if p = .returned then .testing test else .settingUp p test

def resume (cfg : Config) (ceramicConnections : List String) :
    Worker K → TableReply ⊕ Reply K → Worker K
  | .settingUp p test, .inl reply => afterSetUp (p.resume reply) test
  | .testing p, .inr reply => .testing (p.resume cfg ceramicConnections reply)
  | w, _ => w

def client (cfg : Config) (ceramicConnections : List String) :
    Client (Worker K) (TableRequest ⊕ Request K) (TableReply ⊕ Reply K) where
  request := request
  resume := resume cfg ceramicConnections

def Starts (cfg : Config) (ceramicConnections : List String) (w : Worker K) : Prop :=
  ∃ test, Process.Starts cfg ceramicConnections test ∧ w = .settingUp .describing test

end Worker

/-! ## Section 3: All test files -/

/-- The table and its status, if it exists. -/
structure Store (K : Type) where
  status : Option TableStatus
  records : Table K

/-- What the service does to the table by itself. -/
def StatusProgress : Option TableStatus → Option TableStatus → Prop
  | none, status' => status' = none
  | some status, status' => ∃ st, status' = some st ∧ (st = .CREATING → status = .CREATING)

/-- Records can be read and written. -/
def Usable (status : Option TableStatus) : Prop := ∃ st, status = some st ∧ st ≠ .CREATING

/-- The answers to the requests about the table as a whole. Only one
    `createTable` can succeed, as the table then exists. Its answer may be
    lost. -/
def ServesTable (status : Option TableStatus) (reply : TableReply) (status' : Option TableStatus) :
    TableRequest → Prop
  | .describeTable =>
      status' = status ∧ ((∃ st, status = some st ∧ reply = .described (some st)) ∨
        ∃ err, reply = .error err)
  | .createTable =>
      (status = none ∧ status' = some .CREATING ∧ (reply = .created ∨ ∃ err, reply = .error err)) ∨
      (status' = status ∧ ∃ err, reply = .error err)

theorem StatusProgress.refl (status : Option TableStatus) : StatusProgress status status := by
  cases status with
  | none => rfl
  | some st => exact ⟨st, rfl, id⟩

theorem StatusProgress.isSome {status status' : Option TableStatus}
    (h : StatusProgress status status') : status'.isSome = status.isSome := by
  cases status with
  | none => rw [show status' = none from h]
  | some st =>
    obtain ⟨st', rfl, _⟩ := h
    rfl

/-- A table that can be used stays one. -/
theorem StatusProgress.usable {status status' : Option TableStatus}
    (h : StatusProgress status status') (hs : Usable status) : Usable status' := by
  obtain ⟨st, rfl, hst⟩ := hs
  obtain ⟨st', rfl, hback⟩ := h
  exact ⟨st', rfl, fun heq => hst (hback heq)⟩

theorem ServesTable.usable {status status' : Option TableStatus} {reply : TableReply}
    {r : TableRequest} (h : ServesTable status reply status' r) (hs : Usable status) :
    Usable status' := by
  cases r with
  | describeTable => rwa [h.1]
  | createTable =>
    rcases h with ⟨hnone, _⟩ | ⟨heq, _⟩
    · -- there is nothing left to create
      obtain ⟨st, hst, _⟩ := hs
      rw [hnone] at hst
      cases hst
    · rwa [heq]

/-- The request is one to the table. -/
def Request.onTable : Request K → Prop
  | .scan _ => True
  | .write _ => True
  | _ => False

variable {cfg : Config} {ord : LinearOrder K} {ceramicConnections : List String}

section system

variable [DecidableEq K]

/-- A request to a table that cannot be used fails. -/
def ServesStore (cfg : Config) (ord : LinearOrder K) (d : Store K)
    (request : TableRequest ⊕ Request K) (reply : TableReply ⊕ Reply K) (d' : Store K) : Prop :=
  match request, reply with
  | .inl request, .inl reply =>
      d'.records = d.records ∧
        ∃ status, StatusProgress d.status status ∧ ServesTable status reply d'.status request
  | .inr request, .inr reply =>
      StatusProgress d.status d'.status ∧ Serves cfg ord d.records request reply d'.records ∧
        (request.onTable → ¬ Usable d'.status → ∃ err, reply = .error err)
  | _, _ => False

/-- The test files, in any number and order. -/
def testFiles (cfg : Config) (ord : LinearOrder K) (ceramicConnections : List String) :
    System (Client.Shared (Worker K) (Store K))
      (Client.Event (Worker K) (TableRequest ⊕ Request K) (TableReply ⊕ Reply K)) :=
  (Worker.client cfg ceramicConnections).system (ServesStore cfg ord)
    (Worker.Starts cfg ceramicConnections)
    (fun s => ∀ i, ∃ p, s.procs i = .testing p ∧ p.request = none)

abbrev FilesStep (K : Type) :=
  Fired (Client.Shared (Worker K) (Store K))
    (Client.Event (Worker K) (TableRequest ⊕ Request K) (TableReply ⊕ Reply K))

/-! ### One step -/

/-- What a step of the test files can do. -/
inductive FilesEffect (cfg : Config) (ord : LinearOrder K) (ceramicConnections : List String)
    (s : Client.Shared (Worker K) (Store K)) :
    Client.Event (Worker K) (TableRequest ⊕ Request K) (TableReply ⊕ Reply K) →
    Client.Shared (Worker K) (Store K) → Prop where
  | start (i : Nat) (test : Process K) (hfree : (s.procs i).request = none)
      (hstarts : Process.Starts cfg ceramicConnections test) :
      FilesEffect cfg ord ceramicConnections s (.start i (.settingUp .describing test))
        { s with procs := Function.update s.procs i (.settingUp .describing test) }
  | setUp (i : Nat) (p : CreateTestTable) (test : Process K) (r : TableRequest)
      (reply : TableReply) (status status' : Option TableStatus)
      (hproc : s.procs i = .settingUp p test) (hreq : p.request = some r)
      (hprogress : StatusProgress s.db.status status) (hserve : ServesTable status reply status' r) :
      FilesEffect cfg ord ceramicConnections s (.serve i (.inl r) (.inl reply))
        ⟨⟨status', s.db.records⟩, Function.update s.procs i (.afterSetUp (p.resume reply) test)⟩
  | test (i : Nat) (p : Process K) (r : Request K) (reply : Reply K) (d' : Store K)
      (hproc : s.procs i = .testing p) (hreq : p.request = some r)
      (hprogress : StatusProgress s.db.status d'.status)
      (hserve : Serves cfg ord s.db.records r reply d'.records) :
      FilesEffect cfg ord ceramicConnections s (.serve i (.inr r) (.inr reply))
        ⟨d', Function.update s.procs i (.testing (p.resume cfg ceramicConnections reply))⟩

theorem testFiles_effect {s s' : Client.Shared (Worker K) (Store K)}
    {l : Client.Event (Worker K) (TableRequest ⊕ Request K) (TableReply ⊕ Reply K)}
    (h : (testFiles cfg ord ceramicConnections).step s l s') :
    FilesEffect cfg ord ceramicConnections s l s' := by
  cases l with
  | start i w =>
    obtain ⟨hfree, ⟨test, hstarts, rfl⟩, rfl⟩ := h
    exact .start i test hfree hstarts
  | serve i request reply =>
    obtain ⟨⟨status', records'⟩, procs'⟩ := s'
    obtain ⟨hreq, hserve, hprocs⟩ := h
    have hreq : (s.procs i).request = some request := hreq
    have hprocs : procs' =
        Function.update s.procs i ((s.procs i).resume cfg ceramicConnections reply) := hprocs
    subst hprocs
    match request, reply with
    | .inl r, .inl reply =>
      obtain ⟨p, test, hproc, hr⟩ := Worker.request_eq_inl hreq
      obtain ⟨hrecords, status, hprogress, hserve⟩ := hserve
      have hrecords : records' = s.db.records := hrecords
      subst hrecords
      rw [hproc]
      exact .setUp i p test r reply status status' hproc hr hprogress hserve
    | .inr r, .inr reply =>
      obtain ⟨p, hproc, hr⟩ := Worker.request_eq_inr hreq
      obtain ⟨hprogress, hserve, _⟩ := hserve
      rw [hproc]
      exact .test i p r reply ⟨status', records'⟩ hproc hr hprogress hserve

end system

/-! ## Section 4: Once, and not too early -/

/-- What is needed of the states of a run: a set-up that has returned is
    over, and a test that has begun has a table. -/
structure Ready (s : Client.Shared (Worker K) (Store K)) : Prop where
  pending : ∀ i p test, s.procs i = .settingUp p test → p ≠ .returned
  usable : ∀ i p, s.procs i = .testing p → p.request ≠ none → Usable s.db.status

/-- The worker in the slot `i` gets on, from a state that was ready. -/
theorem Ready.update {s : Client.Shared (Worker K) (Store K)} (h : Ready s) {d' : Store K}
    (hdb : Usable s.db.status → Usable d'.status) (i : Nat) {w : Worker K}
    (hover : ∀ p test, w = .settingUp p test → p ≠ .returned)
    (husable : ∀ p, w = .testing p → p.request ≠ none → Usable d'.status) :
    Ready ⟨d', Function.update s.procs i w⟩ where
  pending := by
    intro j p test hj
    by_cases hji : j = i
    · subst hji
      exact hover p test (by simpa using hj)
    · exact h.pending j p test (by simpa [hji] using hj)
  usable := by
    intro j p hj hreq
    by_cases hji : j = i
    · subst hji
      exact husable p (by simpa using hj) hreq
    · exact hdb (h.usable j p (by simpa [hji] using hj) hreq)

/-- Before anything has begun. -/
theorem ready_init {s : Client.Shared (Worker K) (Store K)}
    (h : ∀ i, ∃ p, s.procs i = .testing p ∧ p.request = none) : Ready s where
  pending := by
    intro i p test hi
    obtain ⟨q, hq, _⟩ := h i
    rw [hq] at hi
    cases hi
  usable := by
    intro i p hi hreq
    obtain ⟨q, hq, hnone⟩ := h i
    rw [hq] at hi
    cases hi
    exact absurd hnone hreq

/-- The step brings the table into being. -/
def creates (f : FilesStep K) : Bool :=
  f.before.db.status.isNone && f.after.db.status.isSome

/-- One if there is a table. -/
def tables (s : Client.Shared (Worker K) (Store K)) : Nat :=
  if s.db.status.isSome then 1 else 0

section runs

variable [DecidableEq K]

theorem ready_step {s s' : Client.Shared (Worker K) (Store K)}
    {l : Client.Event (Worker K) (TableRequest ⊕ Request K) (TableReply ⊕ Reply K)}
    (h : Ready s) (hstep : (testFiles cfg ord ceramicConnections).step s l s') : Ready s' := by
  cases testFiles_effect hstep with
  | start i test hfree hstarts =>
    refine h.update id i ?_ ?_
    · rintro p test' ⟨⟩
      decide
    · intro p hp
      cases hp
  | setUp i p test r reply status status' hproc hreq hprogress hserve =>
    have hdb : Usable s.db.status → Usable status' := fun hs =>
      hserve.usable (hprogress.usable hs)
    have hp := h.pending i p test hproc
    by_cases hret : p.resume reply = .returned
    · -- the table was ACTIVE when the set-up looked at it
      obtain ⟨rfl, rfl⟩ := CreateTestTable.resume_eq_returned hp hret
      cases hreq
      obtain ⟨rfl, ⟨st, rfl, hst⟩ | ⟨err, herr⟩⟩ := hserve
      · cases hst
        refine h.update hdb i ?_ ?_
        · intro p' test' hw
          cases hw
        · intro p' _ _
          exact ⟨.ACTIVE, rfl, by decide⟩
      · cases herr
    · have hw : Worker.afterSetUp (p.resume reply) test = .settingUp (p.resume reply) test :=
        if_neg hret
      rw [hw]
      refine h.update hdb i ?_ ?_
      · rintro p' test' ⟨⟩
        exact hret
      · intro p' hp'
        cases hp'
  | test i p r reply d' hproc hreq hprogress hserve =>
    refine h.update hprogress.usable i ?_ ?_
    · intro p' test' hw
      cases hw
    · intro p' _ _
      exact hprogress.usable (h.usable i p hproc (by simp [hreq]))

theorem status_of_step {s s' : Client.Shared (Worker K) (Store K)}
    {l : Client.Event (Worker K) (TableRequest ⊕ Request K) (TableReply ⊕ Reply K)}
    (hstep : (testFiles cfg ord ceramicConnections).step s l s')
    (hs : s.db.status.isSome = true) : s'.db.status.isSome = true := by
  cases testFiles_effect hstep with
  | start i test hfree hstarts => exact hs
  | setUp i p test r reply status status' hproc hreq hprogress hserve =>
    have hstatus : status.isSome = true := by rwa [hprogress.isSome]
    show status'.isSome = true
    cases r with
    | describeTable => rwa [hserve.1]
    | createTable =>
      rcases hserve with ⟨hnone, _⟩ | ⟨heq, _⟩
      · rw [hnone] at hstatus
        cases hstatus
      · rwa [heq]
  | test i p r reply d' hproc hreq hprogress hserve =>
    show d'.status.isSome = true
    rwa [hprogress.isSome]

/-- The steps that create the table account for its being there. -/
theorem run_creates {s₀ s : Client.Shared (Worker K) (Store K)} {tr : List (FilesStep K)}
    (hrun : (testFiles cfg ord ceramicConnections).Run s₀ tr s) :
    tables s₀ + tr.countP creates = tables s := by
  induction hrun with
  | nil => rfl
  | @snoc s₁ s₂ tr l _ hstep ih =>
    rw [List.countP_append, ← Nat.add_assoc, ih]
    cases h₁ : s₁.db.status with
    | none => cases h₂ : s₂.db.status <;> simp [tables, creates, h₁, h₂]
    | some st =>
      -- there was a table, and there still is
      have h₂ := status_of_step hstep (by rw [h₁]; rfl)
      simp [tables, creates, h₁, h₂]

/-- **The table comes first.** However many test files set up the table at
    the same time, and whatever fails, every request of a test meets a table
    that can be used. The table is created at most once, and not at all if
    it was there: this follows from the service, which refuses to create a
    table that exists. -/
theorem table_comes_first {s₀ s : Client.Shared (Worker K) (Store K)} {tr : List (FilesStep K)}
    (hinit : (testFiles cfg ord ceramicConnections).init s₀)
    (hrun : (testFiles cfg ord ceramicConnections).Run s₀ tr s) :
    tr.countP creates ≤ 1 ∧ (s₀.db.status.isSome = true → tr.countP creates = 0) ∧
    ∀ f ∈ tr, ∀ i r reply, f.label = .serve i (.inr r) reply → Usable f.before.db.status := by
  have hcount := run_creates hrun
  have hle : tables s ≤ 1 := by
    unfold tables
    split <;> decide
  refine ⟨by omega, ?_, ?_⟩
  · intro hsome
    have hone : tables s₀ = 1 := if_pos hsome
    omega
  · intro f hf i r reply hlabel
    obtain ⟨earlier, later, rfl⟩ := List.append_of_mem hf
    obtain ⟨hbefore, hstep, _⟩ := hrun.split
    have hready := hbefore.invariant (fun _ _ _ hi hst => ready_step hi hst) (ready_init hinit)
    rw [hlabel] at hstep
    obtain ⟨p, hproc, hreq⟩ := Worker.request_eq_inr hstep.1
    exact hready.usable i p hproc (by simp [hreq])

end runs

/-! ## Section 5: The set-up never gets stuck -/

/-- The state `s`, but for the status of the table and the worker in the
    slot `i`. -/
def withWorker (s : Client.Shared (Worker K) (Store K)) (i : Nat) (status : Option TableStatus)
    (w : Worker K) : Client.Shared (Worker K) (Store K) :=
  ⟨⟨status, s.db.records⟩, Function.update s.procs i w⟩

theorem withWorker_self {s : Client.Shared (Worker K) (Store K)} {i : Nat} {w : Worker K}
    (h : s.procs i = w) : withWorker s i s.db.status w = s := by
  unfold withWorker
  rw [← h, Function.update_eq_self]

section progress

variable [DecidableEq K]

/-- An answer to a worker that sets up the table. -/
theorem setUp_step {s : Client.Shared (Worker K) (Store K)} {i : Nat} {p : CreateTestTable}
    {test : Process K} {r : TableRequest} {reply : TableReply}
    {status status₁ status' : Option TableStatus} (hreq : p.request = some r)
    (hprogress : StatusProgress status status₁) (hserve : ServesTable status₁ reply status' r) :
    (testFiles cfg ord ceramicConnections).step (withWorker s i status (.settingUp p test))
      (.serve i (.inl r) (.inl reply))
      (withWorker s i status' (.afterSetUp (p.resume reply) test)) := by
  have hproc : (withWorker s i status (.settingUp p test)).procs i = .settingUp p test := by
    simp [withWorker]
  refine ⟨?_, ⟨rfl, status₁, hprogress, hserve⟩, ?_⟩
  · show Worker.request ((withWorker s i status (.settingUp p test)).procs i) = _
    rw [hproc]
    exact congrArg (Option.map Sum.inl) hreq
  · show Function.update s.procs i _ = Function.update (Function.update s.procs i _) i
      (((withWorker s i status (.settingUp p test)).procs i).resume cfg ceramicConnections _)
    rw [hproc, Function.update_idem]
    rfl

section steps

variable (s : Client.Shared (Worker K) (Store K)) (i : Nat) (test : Process K)

theorem describe_missing : (testFiles cfg ord ceramicConnections).step
    (withWorker s i none (.settingUp .describing test))
    (.serve i (.inl .describeTable) (.inl (.error "ResourceNotFoundException")))
    (withWorker s i none (.settingUp .creating test)) :=
  setUp_step rfl rfl ⟨rfl, Or.inr ⟨_, rfl⟩⟩

theorem create_missing : (testFiles cfg ord ceramicConnections).step
    (withWorker s i none (.settingUp .creating test))
    (.serve i (.inl .createTable) (.inl .created))
    (withWorker s i (some .CREATING) (.settingUp .describing test)) :=
  setUp_step rfl rfl (Or.inl ⟨rfl, rfl, Or.inl rfl⟩)

theorem create_present (st : TableStatus) : (testFiles cfg ord ceramicConnections).step
    (withWorker s i (some st) (.settingUp .creating test))
    (.serve i (.inl .createTable) (.inl (.error "ResourceInUseException")))
    (withWorker s i (some st) (.settingUp .describing test)) :=
  setUp_step rfl (StatusProgress.refl _) (Or.inr ⟨rfl, _, rfl⟩)

/-- The service makes every table ACTIVE in the end. -/
theorem describe_present (st : TableStatus) : (testFiles cfg ord ceramicConnections).step
    (withWorker s i (some st) (.settingUp .describing test))
    (.serve i (.inl .describeTable) (.inl (.described (some .ACTIVE))))
    (withWorker s i (some .ACTIVE) (.testing test)) :=
  setUp_step rfl ⟨.ACTIVE, rfl, by nofun⟩ ⟨rfl, Or.inl ⟨.ACTIVE, rfl, rfl⟩⟩

end steps

/-- **The set-up never gets stuck.** From every state that a run reaches,
    each worker that sets up the table can get to its test by its own
    requests, whatever the others have done and left undone. -/
theorem set_up_never_stuck {s₀ s : Client.Shared (Worker K) (Store K)} {tr : List (FilesStep K)}
    (hinit : (testFiles cfg ord ceramicConnections).init s₀)
    (hrun : (testFiles cfg ord ceramicConnections).Run s₀ tr s) {i : Nat} {p : CreateTestTable}
    {test : Process K} (hproc : s.procs i = .settingUp p test) :
    ∃ tr', (testFiles cfg ord ceramicConnections).Run s tr'
      (withWorker s i (some .ACTIVE) (.testing test)) ∧ ∀ f ∈ tr', f.label.slot = i := by
  have hready := hrun.invariant (fun _ _ _ hi hst => ready_step hi hst) (ready_init hinit)
  have hself := withWorker_self hproc
  cases p with
  | returned => exact absurd rfl (hready.pending i _ test hproc)
  | describing =>
    cases hstatus : s.db.status with
    | some st =>
      rw [hstatus] at hself
      refine ⟨_, System.Run.nil.snoc (hself ▸ describe_present s i test st), ?_⟩
      simp [Client.Event.slot]
    | none =>
      rw [hstatus] at hself
      -- this worker may create the table itself
      refine ⟨_, ((System.Run.nil.snoc (hself ▸ describe_missing s i test)).snoc
        (create_missing s i test)).snoc (describe_present s i test .CREATING), ?_⟩
      simp [Client.Event.slot]
  | creating =>
    cases hstatus : s.db.status with
    | some st =>
      rw [hstatus] at hself
      refine ⟨_, (System.Run.nil.snoc (hself ▸ create_present s i test st)).snoc
        (describe_present s i test st), ?_⟩
      simp [Client.Event.slot]
    | none =>
      rw [hstatus] at hself
      refine ⟨_, (System.Run.nil.snoc (hself ▸ create_missing s i test)).snoc
        (describe_present s i test .CREATING), ?_⟩
      simp [Client.Event.slot]

end progress

/-! ## Section 6: Without the set-up -/

/-- What the step is in the table that all processes share. -/
def withoutSetUp (f : FilesStep K) : Option (Client.Event (Process K) (Request K) (Reply K)) :=
  match f.label with
  | .serve i (.inl _) (.inl reply) =>
    match f.before.procs i with
    -- the test begins where its set-up returns
    | .settingUp p test => if p.resume reply = .returned then some (.start i test) else none
    | .testing _ => none
  | .serve i (.inr r) (.inr reply) => some (.serve i r reply)
  | _ => none

/-- The processes that a worker stands for. Before its test it is none yet. -/
def StandsFor (cfg : Config) (ceramicConnections : List String) :
    Worker K → Process K → Prop
  | .settingUp _ test, p => Process.Starts cfg ceramicConnections test ∧ p.request = none
  | .testing q, p => p = q

structure SameTable (cfg : Config) (ceramicConnections : List String)
    (s : Client.Shared (Worker K) (Store K)) (a : Client.Shared (Process K) (Table K)) : Prop where
  records : a.db = s.db.records
  procs : ∀ i, StandsFor cfg ceramicConnections (s.procs i) (a.procs i)

/-- Both systems go on in the slot `i`. -/
theorem SameTable.update {s : Client.Shared (Worker K) (Store K)}
    {a : Client.Shared (Process K) (Table K)} (h : SameTable cfg ceramicConnections s a) (d' : Store K)
    {T' : Table K} (hrecords : T' = d'.records) (i : Nat) {w : Worker K} {p : Process K}
    (hw : StandsFor cfg ceramicConnections w p) :
    SameTable cfg ceramicConnections ⟨d', Function.update s.procs i w⟩
      ⟨T', Function.update a.procs i p⟩ where
  records := hrecords
  procs := by
    intro j
    by_cases hji : j = i
    · subst hji
      simpa using hw
    · simpa [hji] using h.procs j

/-- The worker in the slot `i` goes on before its test. -/
theorem SameTable.stutter {s : Client.Shared (Worker K) (Store K)}
    {a : Client.Shared (Process K) (Table K)} (h : SameTable cfg ceramicConnections s a) (d' : Store K)
    (hrecords : d'.records = s.db.records) (i : Nat) {w : Worker K}
    (hw : StandsFor cfg ceramicConnections w (a.procs i)) :
    SameTable cfg ceramicConnections ⟨d', Function.update s.procs i w⟩ a := by
  have hupdate := h.update d' (h.records.trans hrecords.symm) i hw
  rwa [Function.update_eq_self] at hupdate

/-- The process of a worker. -/
def Worker.process : Worker K → Process K
  | .settingUp _ test => test
  | .testing p => p

variable [DecidableEq K]

theorem withoutSetUp_simulates : (testFiles cfg ord ceramicConnections).Simulates
    (sharedTable cfg ord ceramicConnections) withoutSetUp
    (SameTable cfg ceramicConnections) where
  stutter := by
    intro s l s' a hrel hstep hview
    cases testFiles_effect hstep with
    | start i test hfree hstarts =>
      refine hrel.stutter s.db rfl i ⟨hstarts, ?_⟩
      -- the slot was free in both systems
      have hstands := hrel.procs i
      cases hproc : s.procs i with
      | settingUp p test' =>
        rw [hproc] at hstands
        exact hstands.2
      | testing p =>
        rw [hproc] at hstands hfree
        rw [show a.procs i = p from hstands]
        exact Option.map_eq_none_iff.mp hfree
    | setUp i p test r reply status status' hproc hreq hprogress hserve =>
      by_cases hret : p.resume reply = .returned
      · simp [withoutSetUp, hproc, hret] at hview
      · have hw : Worker.afterSetUp (p.resume reply) test = .settingUp (p.resume reply) test :=
          if_neg hret
        have hstands := hrel.procs i
        rw [hproc] at hstands
        have hstands' : StandsFor cfg ceramicConnections (.settingUp (p.resume reply) test)
          (a.procs i) := hstands
        rw [hw]
        exact hrel.stutter ⟨status', s.db.records⟩ rfl i hstands'
    | test i p r reply d' hproc hreq hprogress hserve => cases hview
  step := by
    intro s l s' a l' hrel hstep hview
    cases testFiles_effect hstep with
    | start i test hfree hstarts => cases hview
    | setUp i p test r reply status status' hproc hreq hprogress hserve =>
      have hstands := hrel.procs i
      rw [hproc] at hstands
      by_cases hret : p.resume reply = .returned
      · have hl : l' = .start i test := by simpa [withoutSetUp, hproc, hret] using hview.symm
        have hw : Worker.afterSetUp (p.resume reply) test = .testing test := if_pos hret
        subst hl
        rw [hw]
        have hbegins : StandsFor cfg ceramicConnections (.testing test) test := rfl
        exact ⟨{ a with procs := Function.update a.procs i test }, ⟨hstands.2, hstands.1, rfl⟩,
          hrel.update ⟨status', s.db.records⟩ hrel.records i hbegins⟩
      · simp [withoutSetUp, hproc, hret] at hview
    | test i p r reply d' hproc hreq hprogress hserve =>
      have hstands := hrel.procs i
      rw [hproc] at hstands
      have hp : a.procs i = p := hstands
      cases hview
      refine ⟨⟨d'.records, Function.update a.procs i (p.resume cfg ceramicConnections reply)⟩,
        ⟨?_, ?_, ?_⟩, hrel.update d' rfl i rfl⟩
      · rw [hp]
        exact hreq
      · rw [hrel.records]
        exact hserve
      · rw [hp]
        rfl

/-- **The set-up changes nothing.** Leave the set-up out of a run of the test
    files, and what remains is a run over the shared table, with the same
    requests and answers in the same order. So the table keeps what every
    such run keeps. -/
theorem set_up_changes_nothing {s₀ s : Client.Shared (Worker K) (Store K)}
    {tr : List (FilesStep K)} (hinit : (testFiles cfg ord ceramicConnections).init s₀)
    (hrun : (testFiles cfg ord ceramicConnections).Run s₀ tr s) :
    (∃ tr' a, (sharedTable cfg ord ceramicConnections).Run
        ⟨s₀.db.records, fun i => (s₀.procs i).process⟩ tr' a ∧
      SameTable cfg ceramicConnections s a ∧
      tr'.map Fired.label = tr.filterMap withoutSetUp) ∧
    (WellKept s₀.db.records → WellKept s.db.records) := by
  have hrel : SameTable cfg ceramicConnections s₀
      ⟨s₀.db.records, fun i => (s₀.procs i).process⟩ := by
    refine ⟨rfl, ?_⟩
    intro i
    obtain ⟨p, hp, _⟩ := hinit i
    show StandsFor cfg ceramicConnections (s₀.procs i) (s₀.procs i).process
    rw [hp]
    rfl
  obtain ⟨tr', a, hrun', hsame, hlabels⟩ := withoutSetUp_simulates.run hrun hrel
  refine ⟨⟨tr', a, hrun', hsame, hlabels⟩, ?_⟩
  intro hkept
  rw [← hsame.records]
  exact run_wellKept hrun' hkept

/-! ### One test file, and no table -/

section firstFile

private def week : Config := Config.ofEnv none none

private def newStream : Process String := .store (.storing "kjzl6cwe1jw149mj7gw9" 0)

private def noTable : Client.Shared (Worker String) (Store String) :=
  ⟨⟨none, ∅⟩, fun _ => .testing (.store .passed)⟩

private theorem noTable_init (ord : LinearOrder String) : (testFiles week ord []).init noTable :=
  fun _ => ⟨.store .passed, rfl, rfl⟩

private theorem file_starts (ord : LinearOrder String) : (testFiles week ord []).step noTable
    (.start 0 (.settingUp .describing newStream))
    (withWorker noTable 0 none (.settingUp .describing newStream)) :=
  ⟨rfl, ⟨newStream, Or.inr (Or.inr ⟨_, _, rfl⟩), rfl⟩, rfl⟩

private theorem file_waits (ord : LinearOrder String) :
    ∃ tr, (testFiles week ord []).Run noTable tr
      (withWorker noTable 0 none (.settingUp .describing newStream)) ∧ tr.length = 1 :=
  ⟨_, System.Run.nil.snoc (file_starts ord), rfl⟩

/-- The run in which the test file creates the table and begins its test. -/
private theorem file_creates (ord : LinearOrder String) :
    ∃ tr, (testFiles week ord []).Run noTable tr
      (withWorker noTable 0 (some .ACTIVE) (.testing newStream)) ∧ tr.length = 4 :=
  ⟨_, (((System.Run.nil.snoc (file_starts ord)).snoc (describe_missing noTable 0 newStream)).snoc
    (create_missing noTable 0 newStream)).snoc (describe_present noTable 0 newStream .CREATING), rfl⟩

theorem first_file_creates : ∃ tr : List (FilesStep String), tr.length = 4 ∧
    tr.countP creates ≤ 1 ∧ ((none : Option TableStatus).isSome = true → tr.countP creates = 0) ∧
    ∀ f ∈ tr, ∀ i r reply, f.label = .serve i (.inr r) reply → Usable f.before.db.status := by
  obtain ⟨tr, hrun, hlength⟩ := file_creates inferInstance
  exact ⟨tr, hlength, table_comes_first (noTable_init _) hrun⟩

theorem first_file_gets_on : ∃ tr, (testFiles week inferInstance []).Run
      (withWorker noTable 0 none (.settingUp .describing newStream)) tr
      (withWorker (withWorker noTable 0 none (.settingUp .describing newStream)) 0 (some .ACTIVE)
        (.testing newStream)) ∧ ∀ f ∈ tr, f.label.slot = 0 := by
  obtain ⟨tr, hrun, _⟩ := file_waits inferInstance
  exact set_up_never_stuck (noTable_init _) hrun (i := 0) (p := .describing) rfl

theorem first_file_shares : ∃ tr : List (FilesStep String), tr.length = 4 ∧
    (∃ tr' a, (sharedTable week inferInstance []).Run ⟨∅, fun _ => .store .passed⟩ tr' a ∧
      SameTable week [] (withWorker noTable 0 (some .ACTIVE) (.testing newStream)) a ∧
      tr'.map Fired.label = tr.filterMap withoutSetUp) ∧
    (WellKept (∅ : Table String) → WellKept (∅ : Table String)) := by
  obtain ⟨tr, hrun, hlength⟩ := file_creates inferInstance
  exact ⟨tr, hlength, set_up_changes_nothing (noTable_init _) hrun⟩

end firstFile

end Suite
