import CeramicTests.Framework.Client
import CeramicTests.Hermetic.Run

/-! # The admin secret of a network

    Each run of the driver asks whether the admin secret of its namespace is
    missing, and applies one with its own private key if it is. The question
    and the apply are two requests, and an apply replaces a secret that is
    there. Any number of runs may share a namespace.

    The key observation is what a run has seen before it writes: the secret
    was missing at its question. So a run that replaces another key has been
    overtaken, between its question and its apply, by the run that put it.

    - Section 1: `ensureSecret`, cut at its requests
    - Section 2: any number of runs over one namespace
    - Section 3: what has happened before a write
    - Section 4: when the secret keeps its key
-/

namespace Hermetic

open Framework Transition

/-! ## Section 1: One run -/

/-- `ensureSecret` with the private key of its run, at each of its requests. -/
inductive SecretSetup where
  | checking (private_key : String)
  | creating (private_key : String)
  | ready
  | failed (err : String)
  deriving DecidableEq, Repr

inductive SecretRequest where
  | get
  | patch (private_key : String)
  deriving DecidableEq, Repr

/-- After `lost` the request has been performed, although the run sees an
    error. -/
inductive SecretReply where
  | found (secret : Bool)
  | patched
  | error (err : String)
  | lost (err : String)
  deriving DecidableEq, Repr

def SecretReply.performed : SecretReply → Bool
  | .error _ => false
  | _ => true

namespace SecretSetup

def request : SecretSetup → Option SecretRequest
  | .checking _ => some .get
  | .creating private_key => some (.patch private_key)
  | .ready => none
  | .failed _ => none

def resume : SecretSetup → SecretReply → SecretSetup
  | .checking private_key, .found secret => if secret then .ready else .creating private_key
  | .creating _, .patched => .ready
  | .checking _, .error err => .failed err
  | .checking _, .lost err => .failed err
  | .creating _, .error err => .failed err
  | .creating _, .lost err => .failed err
  | .checking _, .patched => .failed "not the answer to a get"
  | .creating _, .found _ => .failed "not the answer to a patch"
  | .ready, _ => .ready
  | .failed err, _ => .failed err

def client : Client SecretSetup SecretRequest SecretReply where
  request := request
  resume := resume

/-- What the rest of the run sees of the set-up. -/
def result : SecretSetup → Except RunError Unit
  | .ready => .ok ()
  | .failed err => .error (.call err)
  | _ => .error .hangs

end SecretSetup

def adminSecretObject (ns : String) : Object := ⟨.Secret, some ns, CERAMIC_ADMIN_DID_SECRET_NAME⟩

def adminSecretResource (private_key : String) : Resource :=
  ⟨.Secret, named CERAMIC_ADMIN_DID_SECRET_NAME, .secret private_key⟩

def SecretReply.ofFound : Except String Bool → SecretReply
  | .ok secret => .found secret
  | .error err => .error err

def SecretReply.ofPatch : Except String Unit → SecretReply
  | .ok _ => .patched
  | .error err => .error err

/-- The requests of the set-up as calls of a run that has made `log`. -/
def answerSecret (env : Environment) (ns : String) (log : List Action) :
    SecretRequest → SecretReply × List Action
  | .get =>
    let answer := env.get_secret log.length (adminSecretObject ns)
    (.ofFound answer, log ++ [.get (adminSecretObject ns) (answer.mapError .call)])
  | .patch private_key =>
    let resource := adminSecretResource private_key
    let answer := env.patch log.length (adminSecretObject ns) resource
    (.ofPatch answer, log ++ [.patch (adminSecretObject ns) resource (answer.mapError .call)])

section connection

variable {env : Environment} {ns : String} {log : List Action}

theorem is_secret_missing_error {err : String}
    (h : env.get_secret log.length (adminSecretObject ns) = .error err) :
    is_secret_missing env ns CERAMIC_ADMIN_DID_SECRET_NAME log =
      (.error (.call err), log ++ [.get (adminSecretObject ns) (.error (.call err))]) := by
  have hanswer : (env.get_secret log.length (adminSecretObject ns)).mapError RunError.call =
      .error (.call err) := by
    rw [h]
    rfl
  exact Logged.bind_of_error (Logged.call_eq hanswer)

theorem is_secret_missing_ok {secret : Bool}
    (h : env.get_secret log.length (adminSecretObject ns) = .ok secret) :
    is_secret_missing env ns CERAMIC_ADMIN_DID_SECRET_NAME log =
      (.ok (!secret), log ++ [.get (adminSecretObject ns) (.ok secret)]) := by
  have hanswer : (env.get_secret log.length (adminSecretObject ns)).mapError RunError.call =
      .ok secret := by
    rw [h]
    rfl
  exact Logged.bind_of_ok (Logged.call_eq hanswer)

theorem create_secret_eq {private_key : String} {answer : Except String Unit}
    (h : env.patch log.length (adminSecretObject ns) (adminSecretResource private_key) = answer) :
    create_secret env ns CERAMIC_ADMIN_DID_SECRET_NAME private_key log =
      (answer.mapError .call, log ++
        [.patch (adminSecretObject ns) (adminSecretResource private_key)
          (answer.mapError .call)]) := by
  subst h
  rfl

theorem answerSecret_get {answer : Except String Bool}
    (h : env.get_secret log.length (adminSecretObject ns) = answer) :
    answerSecret env ns log .get =
      (.ofFound answer, log ++ [.get (adminSecretObject ns) (answer.mapError .call)]) := by
  subst h
  rfl

theorem answerSecret_patch {private_key : String} {answer : Except String Unit}
    (h : env.patch log.length (adminSecretObject ns) (adminSecretResource private_key) = answer) :
    answerSecret env ns log (.patch private_key) = (.ofPatch answer, log ++
      [.patch (adminSecretObject ns) (adminSecretResource private_key)
        (answer.mapError .call)]) := by
  subst h
  rfl

/-- After the apply the set-up has ended, as the apply did. -/
theorem resume_creating (private_key : String) (answer : Except String Unit) :
    (SecretSetup.resume (.creating private_key) (.ofPatch answer)).request = none ∧
    (SecretSetup.resume (.creating private_key) (.ofPatch answer)).result =
      answer.mapError .call := by
  cases answer <;> exact ⟨rfl, rfl⟩

/-- The set-up is `ensureSecret`: against the answers that its run gets it
    makes the same calls, with the same result. -/
theorem ensureSecret_drives (env : Environment) (ns : String) (log : List Action) :
    ∃ out, SecretSetup.client.Drives (answerSecret env ns)
        (.checking (env.did_private_key.getD DID_PRIVATE_KEY)) log out ∧
      ensureSecret env ns log = (out.state.result, out.db) := by
  unfold ensureSecret
  cases hget : env.get_secret log.length (adminSecretObject ns) with
  | error err =>
    rw [Logged.bind_of_error (is_secret_missing_error hget)]
    exact ⟨_, .step rfl (answerSecret_get hget) (.ended rfl), rfl⟩
  | ok secret =>
    rw [Logged.bind_of_ok (is_secret_missing_ok hget)]
    cases secret with
    | true => exact ⟨_, .step rfl (answerSecret_get hget) (.ended rfl), rfl⟩
    | false =>
      let private_key := env.did_private_key.getD DID_PRIVATE_KEY
      let log' := log ++ [.get (adminSecretObject ns) (.ok false)]
      obtain ⟨answer, hpatch⟩ : ∃ answer, env.patch log'.length (adminSecretObject ns)
        (adminSecretResource private_key) = answer := ⟨_, rfl⟩
      obtain ⟨hended, hresult⟩ := resume_creating private_key answer
      have hcreate : SecretSetup.client.Drives (answerSecret env ns) (.creating private_key) log' _ :=
        .step rfl (answerSecret_patch hpatch) (.ended hended)
      refine ⟨_, .step rfl (answerSecret_get hget) hcreate, ?_⟩
      show create_secret env ns _ private_key log' = _
      rw [create_secret_eq hpatch, ← hresult]
      rfl

end connection

/-! ## Section 2: Any number of runs -/

/-- How the API server may answer over the private key of the secret, if
    there is one, and the key that it leaves. An apply puts its own key. -/
def ServesSecret (secret : Option String) (request : SecretRequest) (reply : SecretReply)
    (secret' : Option String) : Prop :=
  match request with
  | .get => secret' = secret ∧ (reply = .found secret.isSome ∨ ∃ err, reply = .error err)
  | .patch private_key =>
      (secret' = some private_key ∧ (reply = .patched ∨ ∃ err, reply = .lost err)) ∨
      (secret' = secret ∧ ∃ err, reply = .error err)

abbrev Setups := Client.Shared SecretSetup (Option String)

abbrev SetupEvent := Client.Event SecretSetup SecretRequest SecretReply

abbrev SetupStep := Fired Setups SetupEvent

/-- Runs begin at any time, each with a private key of its own. -/
def adminSecret : System Setups SetupEvent :=
  SecretSetup.client.system ServesSecret (fun p => ∃ private_key, p = .checking private_key)
    fun s => ∀ i, (s.procs i).request = none

/-- The key that an event puts. -/
def keyPut : SetupEvent → Option String
  | .serve _ (.patch private_key) reply => if reply.performed then some private_key else none
  | _ => none

/-- Only a performed apply changes the secret. -/
theorem secret_step {s s' : Setups} {l : SetupEvent} (h : adminSecret.step s l s') :
    s'.db = (keyPut l).or s.db := by
  cases l with
  | start i p =>
    obtain ⟨_, _, rfl⟩ := h
    rfl
  | serve i request reply =>
    obtain ⟨_, hserve, _⟩ := h
    cases request with
    | get => exact hserve.1
    | patch private_key =>
      rcases hserve with ⟨hput, rfl | ⟨err, rfl⟩⟩ | ⟨hkept, err, rfl⟩
      · exact hput
      · exact hput
      · exact hkept

/-! ## Section 3: What has happened before a write -/

/-- Run `i` has found the secret missing and has done nothing since, and what
    the secret is now was put in between. -/
def FoundMissing (tr : List SetupStep) (i : Nat) (secret : Option String) : Prop :=
  ∃ before check between, tr = before ++ check :: between ∧
    check.label = .serve i .get (.found false) ∧ (∀ f ∈ between, f.label.slot ≠ i) ∧
    ∀ key, secret = some key → ∃ f ∈ between, keyPut f.label = some key

/-- An event of another run keeps what run `i` has found. -/
theorem FoundMissing.snoc {tr : List SetupStep} {i : Nat} {s s' : Setups} {l : SetupEvent}
    (h : FoundMissing tr i s.db) (hstep : adminSecret.step s l s') (hl : l.slot ≠ i) :
    FoundMissing (tr ++ [⟨s, l, s'⟩]) i s'.db := by
  obtain ⟨before, check, between, rfl, hcheck, hquiet, hput⟩ := h
  refine ⟨before, check, between ++ [⟨s, l, s'⟩], by simp, hcheck, ?_, ?_⟩
  · intro f hf
    rcases List.mem_append.mp hf with hf | hf
    · exact hquiet f hf
    · rw [List.mem_singleton.mp hf]
      exact hl
  · intro key hkey
    rw [secret_step hstep] at hkey
    cases hnew : keyPut l with
    | none =>
      -- the event has left the secret alone
      rw [hnew, Option.none_or] at hkey
      obtain ⟨f, hf, hfkey⟩ := hput key hkey
      exact ⟨f, List.mem_append_left _ hf, hfkey⟩
    | some new =>
      rw [hnew] at hkey
      exact ⟨⟨s, l, s'⟩, by simp, hnew.trans hkey⟩

theorem resume_eq_creating {p : SecretSetup} {reply : SecretReply} {private_key : String}
    (h : p.resume reply = .creating private_key) :
    p = .checking private_key ∧ reply = .found false := by
  cases p with
  | checking key =>
    cases reply with
    | found secret =>
      cases secret with
      | true => cases h
      | false =>
        cases h
        exact ⟨rfl, rfl⟩
    | _ => cases h
  | creating key => cases reply <;> cases h
  | ready => cases h
  | failed err => cases h

theorem creating_of_request {p : SecretSetup} {private_key : String}
    (h : SecretSetup.client.request p = some (.patch private_key)) : p = .creating private_key := by
  cases p <;> cases h
  rfl

/-- **Before a write.** A run that is about to apply its secret has found it
    missing. -/
theorem foundMissing_of_creating {s₀ s : Setups} {tr : List SetupStep}
    (hinit : adminSecret.init s₀) (hrun : adminSecret.Run s₀ tr s) :
    ∀ i private_key, s.procs i = .creating private_key → FoundMissing tr i s.db := by
  induction hrun with
  | nil =>
    intro i private_key hi
    have hended := hinit i
    rw [hi] at hended
    cases hended
  | @snoc s s' tr l hrun hstep ih =>
    intro i private_key hi
    by_cases hslot : l.slot = i
    · cases l with
      | start j p =>
        -- a run begins with its question
        obtain ⟨_, ⟨key, rfl⟩, rfl⟩ := hstep
        have hij : j = i := hslot
        subst hij
        have hi : Function.update s.procs j (.checking key) j = .creating private_key := hi
        rw [Function.update_self] at hi
        cases hi
      | serve j request reply =>
        obtain ⟨hreq, hserve, hprocs⟩ := hstep
        have hij : j = i := hslot
        subst hij
        rw [hprocs, Function.update_self] at hi
        obtain ⟨hchecking, rfl⟩ := resume_eq_creating hi
        rw [hchecking] at hreq
        cases hreq
        -- the answer was that there is no secret
        obtain ⟨hdb, hmissing | ⟨err, herr⟩⟩ := hserve
        · refine ⟨tr, _, [], rfl, rfl, by simp, ?_⟩
          intro key hkey
          rw [hdb] at hkey
          rw [hkey] at hmissing
          cases hmissing
        · cases herr
    · have hother := Client.procs_of_ne_slot hstep (Ne.symm hslot)
      rw [hother] at hi
      exact (ih i private_key hi).snoc hstep hslot

/-! ## Section 4: When the secret keeps its key -/

/-- Once there is a secret, its key is the same in all states that follow. -/
def KeyNeverChanges (tr : List SetupStep) : Prop :=
  ∀ earlier f later, tr = earlier ++ f :: later → ∀ key, f.before.db = some key →
    ∀ g ∈ f :: later, g.after.db = some key

/-- Between the question of a run, answered that the secret is missing, and
    the apply that the run makes for it, no run puts another key. -/
def NotOvertaken (tr : List SetupStep) : Prop :=
  ∀ before check between create after i key reply,
    tr = before ++ check :: (between ++ create :: after) →
    check.label = .serve i .get (.found false) → (∀ f ∈ between, f.label.slot ≠ i) →
    create.label = .serve i (.patch key) reply → reply.performed = true →
    ∀ f ∈ between, ∀ key', keyPut f.label = some key' → key' = key

variable {s₀ s : Setups} {tr : List SetupStep}

/-- A step that puts no other key keeps the one that is there. -/
theorem keyNeverChanges_of_steps (hrun : adminSecret.Run s₀ tr s)
    (h : ∀ f ∈ tr, ∀ key, f.before.db = some key → f.after.db = some key) :
    KeyNeverChanges tr := by
  rintro earlier f later rfl key hkey g hg
  obtain ⟨_, hstep, hlater⟩ := hrun.split
  have hfirst := h f (by simp) key hkey
  have hrest : ∀ g ∈ later, g.before.db = some key → g.after.db = some key :=
    fun g hg => h g (by simp [hg]) key
  rcases List.mem_cons.mp hg with rfl | hg
  · exact hfirst
  · have hkeep : ∀ s l s', s.db = some key → adminSecret.step s l s' →
        ((⟨s, l, s'⟩ : SetupStep).before.db = some key →
          (⟨s, l, s'⟩ : SetupStep).after.db = some key) → s'.db = some key :=
      fun _ _ _ hs _ hstep => hstep hs
    exact hlater.guarded_invariant_after hkeep hfirst hrest g hg

theorem keyPut_eq_some {l : SetupEvent} {key : String} (h : keyPut l = some key) :
    ∃ i reply, l = .serve i (.patch key) reply ∧ reply.performed = true := by
  cases l with
  | start i p => cases h
  | serve i request reply =>
    cases request with
    | get => cases h
    | patch private_key =>
      cases hperf : reply.performed with
      | false => simp [keyPut, hperf] at h
      | true =>
        simp only [keyPut, hperf, if_true, Option.some.injEq] at h
        subst h
        exact ⟨i, reply, rfl, hperf⟩

/-- **An existing admin secret.** In every run of any number of set-ups the
    key of the secret never changes, exactly when no set-up is overtaken by
    one with another key. -/
theorem key_never_changes_iff (hinit : adminSecret.init s₀) (hrun : adminSecret.Run s₀ tr s) :
    KeyNeverChanges tr ↔ NotOvertaken tr := by
  constructor
  · intro hkeeps before check between create after i key reply htr hcheck _ hcreate hperf f hf
      key' hput
    obtain ⟨between₁, between₂, rfl⟩ := List.append_of_mem hf
    have hsplit : tr = (before ++ check :: between₁) ++ f :: (between₂ ++ create :: after) := by
      simp [htr]
    rw [hsplit] at hrun
    obtain ⟨_, hstep, hlater⟩ := hrun.split
    -- the key that `f` has put is still there at the apply
    have hput' : f.after.db = some key' := by
      rw [secret_step hstep, hput]
      rfl
    obtain ⟨g, rest, hrest⟩ : ∃ g rest, between₂ ++ create :: after = g :: rest := by
      cases between₂ <;> exact ⟨_, _, rfl⟩
    rw [hrest] at hlater
    have hg : g.before.db = some key' := by
      rw [hlater.before_head]
      exact hput'
    have hmem : create ∈ g :: rest := by
      rw [← hrest]
      simp
    have hkept := hkeeps (before ++ check :: between₁ ++ [f]) g rest
      (by rw [hsplit, hrest]; simp) key' hg create hmem
    -- and the apply has put its own
    have hown := secret_step (hlater.step_of_mem hmem)
    rw [hcreate, hkept] at hown
    simpa [keyPut, hperf] using hown
  · intro hover
    apply keyNeverChanges_of_steps hrun
    intro f hf key hkey
    obtain ⟨earlier, later, rfl⟩ := List.append_of_mem hf
    obtain ⟨hearlier, hstep, _⟩ := hrun.split
    rw [secret_step hstep]
    cases hput : keyPut f.label with
    | none => exact hkey
    | some new =>
      obtain ⟨i, reply, hlabel, hperf⟩ := keyPut_eq_some hput
      rw [hlabel] at hstep
      have hcreating := creating_of_request hstep.1
      obtain ⟨before, check, between, hearlier', hcheck, hquiet, hputs⟩ :=
        foundMissing_of_creating hinit hearlier i new hcreating
      -- the key that is there was put since the question of this run
      obtain ⟨g, hg, hgkey⟩ := hputs key hkey
      have hsame := hover before check between f later i new reply (by simp [hearlier']) hcheck
        hquiet hlabel hperf g hg key hgkey
      rw [hsame]
      rfl

/-- Runs that put one and the same key do not overtake each other. -/
theorem notOvertaken_of_one_key (key : String)
    (h : ∀ f ∈ tr, ∀ key', keyPut f.label = some key' → key' = key) : NotOvertaken tr := by
  intro before check between create after i own reply htr _ _ hcreate hperf f hf key' hput
  have hown : keyPut create.label = some own := by
    rw [hcreate]
    exact if_pos hperf
  rw [h f (by simp [htr, hf]) key' hput, h create (by simp [htr]) own hown]

/-! ### Two runs over one namespace

    The namespace has no secret. Both runs ask, and are told so. -/

section twoRuns

private def idle : SecretSetup := .ready

private def setups (secret : Option String) (p q : SecretSetup) : Setups := .pair secret idle p q

private theorem setups_init : adminSecret.init (setups none idle idle) := by
  intro i
  unfold setups
  rw [Client.Shared.pair_free]
  rfl

private theorem asks_missing : ServesSecret none .get (.found false) none := ⟨rfl, Or.inl rfl⟩

private theorem puts_key (secret : Option String) (private_key : String) :
    ServesSecret secret (.patch private_key) .patched (some private_key) := Or.inl ⟨rfl, Or.inl rfl⟩

/-- The second run asks after the first has put its secret. -/
private theorem one_after_another : ∃ tr,
    adminSecret.Run (setups none idle idle) tr (setups (some "key0") .ready .ready) ∧
      NotOvertaken tr := by
  have hfound : ServesSecret (some "key0") .get (.found true) (some "key0") := ⟨rfl, Or.inl rfl⟩
  have hstart : adminSecret.Run (setups none idle idle) _ (setups none (.checking "key0") idle) :=
    System.Run.nil.snoc (Client.start_first rfl ⟨"key0", rfl⟩)
  have hrun := ((((hstart.snoc (Client.serve_first rfl asks_missing)).snoc
    (Client.serve_first rfl (puts_key none "key0"))).snoc
    (Client.start_second rfl ⟨"key1", rfl⟩)).snoc (Client.serve_second rfl hfound))
  refine ⟨_, hrun, notOvertaken_of_one_key "key0" ?_⟩
  intro f hf key' hput
  simp only [List.nil_append, List.cons_append, List.mem_cons, List.not_mem_nil, or_false] at hf
  rcases hf with rfl | rfl | rfl | rfl | rfl <;> cases hput
  rfl

/-- The second run leaves the key of the first as it is. -/
theorem second_run_keeps_key : ∃ tr,
    adminSecret.Run (setups none idle idle) tr (setups (some "key0") .ready .ready) ∧
      KeyNeverChanges tr := by
  obtain ⟨tr, hrun, hover⟩ := one_after_another
  exact ⟨tr, hrun, (key_never_changes_iff setups_init hrun).mpr hover⟩

/-- Both runs have asked before either of them puts its secret, and the
    second replaces the key of the first. -/
theorem second_run_replaces_key : ∃ tr,
    adminSecret.Run (setups none idle idle) tr (setups (some "key1") .ready .ready) ∧
      ¬ KeyNeverChanges tr := by
  have hstart : adminSecret.Run (setups none idle idle) _ (setups none (.checking "key0") idle) :=
    System.Run.nil.snoc (Client.start_first rfl ⟨"key0", rfl⟩)
  have hrun := (((((hstart.snoc (Client.start_second rfl ⟨"key1", rfl⟩)).snoc
    (Client.serve_first rfl asks_missing)).snoc (Client.serve_second rfl asks_missing)).snoc
    (Client.serve_first rfl (puts_key none "key0"))).snoc
    (Client.serve_second rfl (puts_key (some "key0") "key1")))
  refine ⟨_, hrun, ?_⟩
  intro hkeeps
  have hkept : some "key1" = some "key0" :=
    hkeeps _ _ [] rfl "key0" rfl _ List.mem_cons_self
  exact absurd hkept (by decide)

end twoRuns

end Hermetic
