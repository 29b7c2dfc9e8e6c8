import CeramicTests.Suite.AnchorDeletions
import CeramicTests.Suite.PlainScan

/-! # Which streams the clean-up loses sight of

    The tests that store streams, the anchor check and the garbage
    collection, one after another in any order, each possibly ended early
    by an error. A stream that was stored is pinned on every node. It should
    stay recorded until the garbage collection has unpinned it everywhere.

    - The garbage collection deletes a record only after `pin.rm` has
      succeeded on every node, and leaves all others as they are.
    - The anchor check deletes the record of a stream whose anchoring
      failed, and unpins nothing. That it does on purpose.

    The proof follows one stream from the step that stored it (`CleanInv`).
-/

namespace Suite

open Transition Framework

variable {K : Type}

/-! ## Section 1: Executions in sequence -/

/-- `loadStream` answers with the stream that it was asked for. -/
def LoadsRequested (request : Request K) (reply : Reply K) : Prop :=
  ∀ s doc now, request = .loadStream s → reply = .loaded doc now → doc.id = s

/-- The processes of the suite, one after another. -/
def cleanUp [DecidableEq K] (cfg : Config) (ord : LinearOrder K) (ceramicConnections : List String) :
    System (Client.Single (Process K) (Table K))
      (Client.Turn (Process K) (Request K) (Reply K)) :=
  (Process.client cfg ceramicConnections).sequence
    (fun T request reply T' => Serves cfg ord T request reply T' ∧ LoadsRequested request reply)
    (Process.Starts cfg ceramicConnections) (fun s => s.proc.request = none)

abbrev CleanUpStep (K : Type) := TableStep (Process K) K

/-- The step stores the stream. -/
def Stores (f : CleanUpStep K) (k : K) : Prop :=
  ∃ now reply, f.label = .serve (.write (.putItem k now)) reply ∧ reply.performed = true

/-- The step unpins the stream on the node `url`. -/
def Unpins (f : CleanUpStep K) (url : String) (k : K) : Prop :=
  ∃ reply, f.label = .serve (.pinRm url k) reply ∧ reply.result = .ok ()

def UnpinnedEverywhere (ceramicConnections : List String) (tr : List (CleanUpStep K)) (k : K) :
    Prop :=
  ∀ url ∈ ceramicConnections, ∃ f ∈ tr, Unpins f url k

/-- The anchor check loads the stream of a request, and finds that it was not
    anchored in time. -/
def FindsFailed (cfg : Config) (f : CleanUpStep K) (k : K) : Prop :=
  ∃ r rest doc now creation, f.before.proc = .anchors (.loading (k, r) rest) ∧
    f.label = .serve (.loadStream k) (.loaded doc now) ∧ doc.anchorStatus ≠ .ANCHORED ∧
    r.creation = some creation ∧ cfg.anchorInterval ≤ AnchorCheck.delta now creation

/-- The request is deleted directly after a step that is `P`. -/
def ForgottenAfter (P : CleanUpStep K → K → Prop) (tr : List (CleanUpStep K)) (k : K) : Prop :=
  ∃ earlier f g later, tr = earlier ++ f :: g :: later ∧ P f k ∧ Forgets g k

/-- A stream that was stored before the steps `tr` is still recorded, or was
    unpinned everywhere, or the anchor check deleted its record because it
    found the anchoring failed. Nothing is said about a record that it
    deleted directly after its call of `markStreamReqAsAnchored` threw. -/
def Accounted [DecidableEq K] (cfg : Config) (ceramicConnections : List String) (tr : List (CleanUpStep K))
    (T : Table K) (k : K) : Prop :=
  (T.lookup k).isSome = true ∨ UnpinnedEverywhere ceramicConnections tr k ∨
    ForgottenAfter (FindsFailed cfg) tr k ∨ ForgottenAfter FailedMark tr k

theorem ForgottenAfter.snoc {P : CleanUpStep K → K → Prop} {tr : List (CleanUpStep K)} {k : K}
    (h : ForgottenAfter P tr k) (f : CleanUpStep K) : ForgottenAfter P (tr ++ [f]) k := by
  obtain ⟨earlier, f', g, later, rfl, hP, hforgets⟩ := h
  refine ⟨earlier, f', g, later ++ [f], ?_, hP, hforgets⟩
  rw [List.append_assoc]
  rfl

/-- The step `g` deletes the request, and `f` was the last one before it. -/
theorem forgottenAfter_snoc {P : CleanUpStep K → K → Prop} {earlier : List (CleanUpStep K)}
    {f g : CleanUpStep K} {k : K} (hP : P f k) (hforgets : Forgets g k) :
    ForgottenAfter P (earlier ++ [f] ++ [g]) k := by
  refine ⟨earlier, f, g, [], ?_, hP, hforgets⟩
  rw [List.append_assoc]
  rfl

theorem UnpinnedEverywhere.snoc {ceramicConnections : List String} {tr : List (CleanUpStep K)}
    {k : K} (h : UnpinnedEverywhere ceramicConnections tr k) (f : CleanUpStep K) :
    UnpinnedEverywhere ceramicConnections (tr ++ [f]) k := by
  intro url hurl
  obtain ⟨g, hg, hunpins⟩ := h url hurl
  exact ⟨g, List.mem_append_left _ hg, hunpins⟩

/-! ## Section 2: Where the process that runs stands -/

/-- What is known of the process that runs about the stream `k`, after the
    steps `tr`. -/
def CleanInv (cfg : Config) (ceramicConnections : List String) (tr : List (CleanUpStep K))
    (k : K) : Process K → Prop
  | .garbage (.unpinning s url urls _) =>
      ∃ unpinned, ceramicConnections = unpinned ++ url :: urls ∧
        (s = k → UnpinnedEverywhere unpinned tr k)
  | .garbage (.deleting s _) => s = k → UnpinnedEverywhere ceramicConnections tr k
  | .anchors (.deleting s _) => s = k →
      ∃ earlier f, tr = earlier ++ [f] ∧ (FindsFailed cfg f k ∨ FailedMark f k)
  | _ => True

variable {cfg : Config} {ceramicConnections : List String} {k : K}

/-- The inner loop of the garbage collection, with `urls` left to unpin. -/
theorem cleanInv_unpin {tr : List (CleanUpStep K)} {s : K} {rest : List (Item K)}
    (unpinned : List String) {urls : List String}
    (hsplit : ceramicConnections = unpinned ++ urls)
    (h : s = k → UnpinnedEverywhere unpinned tr k) :
    CleanInv cfg ceramicConnections tr k (.garbage (.unpin s rest urls)) := by
  cases urls with
  | nil =>
    intro hs
    rw [hsplit, List.append_nil]
    exact h hs
  | cons url urls => exact ⟨unpinned, hsplit, h⟩

/-- The outer loop begins with nothing unpinned. -/
theorem cleanInv_next {tr : List (CleanUpStep K)} (rest : List (Item K)) :
    CleanInv cfg ceramicConnections tr k (.garbage (.next ceramicConnections rest)) := by
  cases rest with
  | nil => trivial
  | cons req rest =>
    apply cleanInv_unpin [] rfl
    intro _ url hurl
    cases hurl

theorem cleanInv_ofScan {tr : List (CleanUpStep K)} (status : ScanStatus K) :
    CleanInv cfg ceramicConnections tr k (.garbage (.ofScan ceramicConnections status)) := by
  cases status with
  | scanning loop => trivial
  | returned expiredReqs => exact cleanInv_next expiredReqs
  | thrown err => trivial

theorem cleanInv_anchors_next {tr : List (CleanUpStep K)} (rest : List (Item K)) :
    CleanInv cfg ceramicConnections tr k (.anchors (.next rest)) := by
  cases rest <;> trivial

theorem cleanInv_anchors_ofScan {tr : List (CleanUpStep K)} (status : ScanStatus K) :
    CleanInv cfg ceramicConnections tr k (.anchors (.ofScan status)) := by
  cases status with
  | scanning loop => trivial
  | returned anchorReqs => exact cleanInv_anchors_next anchorReqs
  | thrown err => trivial

/-- A process begins without knowing anything. -/
theorem cleanInv_start {tr : List (CleanUpStep K)} {p : Process K}
    (h : Process.Starts cfg ceramicConnections p) : CleanInv cfg ceramicConnections tr k p := by
  rcases h with rfl | ⟨now, rfl⟩ | ⟨s, now, rfl⟩
  · exact cleanInv_anchors_ofScan _
  · exact cleanInv_ofScan _
  · trivial

/-! ## Section 3: One step -/

/-- The loop body of the anchor check, after the load of `doc`. -/
theorem cleanInv_checkReq {tr : List (CleanUpStep K)} {T : Table K}
    {s' : Client.Single (Process K) (Table K)} {req : Item K} (rest : List (Item K)) {doc : Doc K}
    {now : Int} (hid : doc.id = req.1) :
    CleanInv cfg ceramicConnections
      (tr ++ [⟨⟨T, .anchors (.loading req rest)⟩, .serve (.loadStream req.1) (.loaded doc now), s'⟩])
      k (.anchors (.checkReq cfg req rest doc now)) := by
  rcases AnchorCheck.checkReq_cases cfg req rest doc now with
    ⟨_, err, hnext⟩ | ⟨creation, hcreation, ⟨_, hnext⟩ | ⟨hst, hlate, err, hnext⟩ | ⟨_, _, hnext⟩⟩
  · -- a request without its creation time
    rw [hnext]
    trivial
  · -- an anchored stream is marked next
    rw [hnext]
    trivial
  · -- the check found that the anchoring failed
    rw [hnext]
    intro hk
    rw [hid] at hk
    subst hk
    exact ⟨tr, _, rfl,
      Or.inl ⟨req.2, rest, doc, now, creation, rfl, rfl, hst, hcreation, hlate⟩⟩
  · rw [hnext]
    exact cleanInv_anchors_next rest

/-- A call of the garbage collection keeps what is known of it. -/
theorem cleanInv_garbage {tr : List (CleanUpStep K)} {T : Table K} {p : GarbageCollect K}
    {request : Request K} {reply : Reply K} {s' : Client.Single (Process K) (Table K)}
    (hreq : p.request = some request)
    (h : CleanInv cfg ceramicConnections tr k (.garbage p)) :
    CleanInv cfg ceramicConnections (tr ++ [⟨⟨T, .garbage p⟩, .serve request reply, s'⟩]) k
      (.garbage (p.resume ceramicConnections reply)) := by
  cases p with
  | fetching loop => exact cleanInv_ofScan _
  | unpinning streamId url urls rest =>
    cases hreq
    obtain ⟨unpinned, hsplit, hunpinned⟩ := h
    cases hres : reply.result with
    | ok _ =>
      rw [GarbageCollect.resume_unpinning_ok hres]
      -- one more node has unpinned the stream
      apply cleanInv_unpin (unpinned ++ [url]) (by rw [hsplit]; simp)
      intro hs u hu
      rcases List.mem_append.mp hu with hu | hu
      · exact (hunpinned hs).snoc _ u hu
      · rw [List.mem_singleton.mp hu, ← hs]
        exact ⟨_, List.mem_append_right _ (List.mem_singleton_self _), reply, rfl, hres⟩
    | error err =>
      rw [GarbageCollect.resume_unpinning_error hres]
      trivial
  | deleting streamId rest =>
    cases hres : reply.result with
    | ok _ =>
      rw [GarbageCollect.resume_deleting_ok hres]
      exact cleanInv_next rest
    | error err =>
      rw [GarbageCollect.resume_deleting_error hres]
      trivial
  | passed => trivial
  | failed err => trivial

variable [DecidableEq K] {ord : LinearOrder K}

/-- A call of the anchor check keeps what is known of it. -/
theorem cleanInv_anchors {tr : List (CleanUpStep K)} {T T' : Table K} {p : AnchorCheck K}
    {request : Request K} {reply : Reply K} {s' : Client.Single (Process K) (Table K)}
    (hreq : p.request = some request) (hserve : Serves cfg ord T request reply T')
    (hloads : LoadsRequested request reply) :
    CleanInv cfg ceramicConnections (tr ++ [⟨⟨T, .anchors p⟩, .serve request reply, s'⟩]) k
      (.anchors (p.resume cfg reply)) := by
  cases p with
  | fetching loop => exact cleanInv_anchors_ofScan _
  | loading req rest =>
    cases hreq
    obtain ⟨_, ⟨doc, now, rfl⟩ | ⟨err, rfl⟩⟩ := hserve
    · exact cleanInv_checkReq rest (hloads req.1 doc now rfl rfl)
    · trivial
  | marking id rest =>
    cases hreq
    cases hres : reply.result with
    | ok _ =>
      rw [AnchorCheck.resume_marking_ok hres]
      exact cleanInv_anchors_next rest
    | error err =>
      rw [AnchorCheck.resume_marking_error hres]
      -- the request whose mark failed is deleted next
      intro hk
      subst hk
      exact ⟨tr, _, rfl, Or.inr ⟨reply, err, rfl, hres⟩⟩
  | deleting id err =>
    obtain ⟨err', hfailed⟩ := AnchorCheck.resume_deleting cfg id err reply
    rw [hfailed]
    trivial
  | passed => trivial
  | failed err => trivial

/-- Every step keeps what is known of the process that runs. -/
theorem cleanInv_step {tr : List (CleanUpStep K)} {s s' : Client.Single (Process K) (Table K)}
    {l : Client.Turn (Process K) (Request K) (Reply K)}
    (hstep : (cleanUp cfg ord ceramicConnections).step s l s')
    (h : CleanInv cfg ceramicConnections tr k s.proc) :
    CleanInv cfg ceramicConnections (tr ++ [⟨s, l, s'⟩]) k s'.proc := by
  cases l with
  | start p =>
    obtain ⟨_, hstarts, rfl⟩ := hstep
    exact cleanInv_start hstarts
  | serve request reply =>
    obtain ⟨T, p⟩ := s
    obtain ⟨hreq, ⟨hserve, hloads⟩, hproc⟩ := hstep
    rw [hproc]
    cases p with
    | anchors p => exact cleanInv_anchors hreq hserve hloads
    | garbage p => exact cleanInv_garbage hreq h
    | store p => trivial

/-- A deletion is the request of one of the two checks. -/
theorem cleanUp_forgets {s s' : Client.Single (Process K) (Table K)}
    {l : Client.Turn (Process K) (Request K) (Reply K)}
    (hstep : (cleanUp cfg ord ceramicConnections).step s l s') (h : Forgets ⟨s, l, s'⟩ k) :
    (∃ err, s.proc = .anchors (.deleting k err)) ∨ ∃ rest, s.proc = .garbage (.deleting k rest) := by
  obtain ⟨reply, hl, _⟩ := h
  have hl : l = .serve (.write (.deleteItem k)) reply := hl
  subst hl
  obtain ⟨hreq, _, _⟩ := hstep
  have hreq : s.proc.request = some (.write (.deleteItem k)) := hreq
  cases hp : s.proc with
  | anchors p =>
    rw [hp] at hreq
    cases p <;> cases hreq
    exact Or.inl ⟨_, rfl⟩
  | garbage p =>
    rw [hp] at hreq
    cases p <;> cases hreq
    exact Or.inr ⟨_, rfl⟩
  | store p =>
    rw [hp] at hreq
    cases p <;> cases hreq

/-- Every step keeps account of the stream. -/
theorem accounted_step {tr : List (CleanUpStep K)} {s s' : Client.Single (Process K) (Table K)}
    {l : Client.Turn (Process K) (Request K) (Reply K)}
    (hstep : (cleanUp cfg ord ceramicConnections).step s l s')
    (hinv : CleanInv cfg ceramicConnections tr k s.proc)
    (h : Accounted cfg ceramicConnections tr s.db k) :
    Accounted cfg ceramicConnections (tr ++ [⟨s, l, s'⟩]) s'.db k := by
  rcases h with hrec | hunp | hfailed | hmark
  · -- as long as it is recorded, only a deletion matters
    have hcases : (s'.db.lookup k).isSome = true ∨ Forgets ⟨s, l, s'⟩ k := by
      cases l with
      | start p =>
        obtain ⟨_, _, rfl⟩ := hstep
        exact Or.inl hrec
      | serve request reply =>
        obtain ⟨_, ⟨hserve, _⟩, _⟩ := hstep
        rcases hserve.recorded hrec with h | ⟨rfl, hperf⟩
        · exact Or.inl h
        · exact Or.inr ⟨reply, rfl, hperf⟩
    rcases hcases with h | hforgets
    · exact Or.inl h
    · rcases cleanUp_forgets hstep hforgets with ⟨err, hproc⟩ | ⟨rest, hproc⟩
      · -- the step before says why the anchor check deletes it
        rw [hproc] at hinv
        obtain ⟨earlier, f, rfl, hfinds | hmark⟩ := hinv rfl
        · exact Or.inr (Or.inr (Or.inl (forgottenAfter_snoc hfinds hforgets)))
        · exact Or.inr (Or.inr (Or.inr (forgottenAfter_snoc hmark hforgets)))
      · -- the garbage collection has unpinned it everywhere
        rw [hproc] at hinv
        exact Or.inr (Or.inl ((hinv rfl).snoc _))
  · exact Or.inr (Or.inl (hunp.snoc _))
  · exact Or.inr (Or.inr (Or.inl (hfailed.snoc _)))
  · exact Or.inr (Or.inr (Or.inr (hmark.snoc _)))

/-! ## Section 4: Runs -/

theorem run_accounted {tr : List (CleanUpStep K)} {s₁ s : Client.Single (Process K) (Table K)}
    (hrun : (cleanUp cfg ord ceramicConnections).Run s₁ tr s)
    (hinv : CleanInv cfg ceramicConnections [] k s₁.proc)
    (hrec : (s₁.db.lookup k).isSome = true) :
    CleanInv cfg ceramicConnections tr k s.proc ∧
      Accounted cfg ceramicConnections tr s.db k := by
  induction hrun with
  | nil => exact ⟨hinv, Or.inl hrec⟩
  | snoc _ hstep ih => exact ⟨cleanInv_step hstep ih.1, accounted_step hstep ih.1 ih.2⟩

/-- The step that stores a stream leaves it recorded, and its process ends. -/
theorem recorded_of_stores {f : CleanUpStep K}
    (hstep : (cleanUp cfg ord ceramicConnections).step f.before f.label f.after)
    (h : Stores f k) :
    (f.after.db.lookup k).isSome = true ∧ CleanInv cfg ceramicConnections [] k f.after.proc := by
  obtain ⟨s, l, s'⟩ := f
  obtain ⟨now, reply, hl, hperf⟩ := h
  have hl : l = .serve (.write (.putItem k now)) reply := hl
  subst hl
  obtain ⟨hreq, ⟨hserve, _⟩, hproc⟩ := hstep
  have hreq : s.proc.request = some (.write (.putItem k now)) := hreq
  have hproc : s'.proc = s.proc.resume cfg ceramicConnections reply := hproc
  constructor
  · rcases hserve.table with ⟨_, hno⟩ | ⟨w, hw, _, hdb⟩
    · rw [hno _ rfl] at hperf
      cases hperf
    · cases hw
      show (s'.db.lookup k).isSome = true
      rw [hdb]
      show ((storeStreamReq cfg now k s.db).lookup k).isSome = true
      rw [lookup_storeStreamReq, if_pos rfl]
      rfl
  · show CleanInv cfg ceramicConnections [] k s'.proc
    rw [hproc]
    cases hp : s.proc with
    | store p => trivial
    | anchors p =>
      rw [hp] at hreq
      cases p <;> cases hreq
    | garbage p =>
      rw [hp] at hreq
      cases p <;> cases hreq

/-- The steps are all of one execution: nothing begins in them. -/
def OneExecution (tr : List (CleanUpStep K)) : Prop :=
  ∀ f ∈ tr, ∃ request reply, f.label = .serve request reply

/-- What one call of the garbage collection does to the record of `k`. -/
theorem collect_step {tr : List (CleanUpStep K)} {s s' : Client.Single (Process K) (Table K)}
    {request : Request K} {reply : Reply K} {p : GarbageCollect K} {r : StreamReq}
    (hstep : (cleanUp cfg ord ceramicConnections).step s (.serve request reply) s')
    (hproc : s.proc = .garbage p) (hinv : CleanInv cfg ceramicConnections tr k s.proc)
    (hr : s.db.lookup k = some r) :
    s'.db.lookup k = some r ∨ UnpinnedEverywhere ceramicConnections tr k := by
  obtain ⟨hreq, ⟨hserve, _⟩, _⟩ := hstep
  have hreq : s.proc.request = some request := hreq
  rw [hproc] at hreq hinv
  rcases hserve.table with ⟨hdb, _⟩ | ⟨w, rfl, _, hdb⟩
  · rw [hdb]
    exact Or.inl hr
  · -- its only writes are the deletions
    cases p with
    | deleting streamId rest =>
      cases hreq
      by_cases hk : streamId = k
      · exact Or.inr (hinv hk)
      · left
        rw [hdb]
        show (deleteStreamReq streamId s.db).lookup k = some r
        rw [lookup_deleteStreamReq, if_neg (Ne.symm hk)]
        exact hr
    | _ => cases hreq

/-- An execution of the garbage collection, ended or not, leaves the records
    of all streams as they are that it has not unpinned everywhere. -/
theorem run_collect {tr : List (CleanUpStep K)} {s₁ s : Client.Single (Process K) (Table K)}
    {p : GarbageCollect K} {r : StreamReq}
    (hrun : (cleanUp cfg ord ceramicConnections).Run s₁ tr s) (hone : OneExecution tr)
    (hproc : s₁.proc = .garbage p) (hinv : CleanInv cfg ceramicConnections [] k s₁.proc)
    (hr : s₁.db.lookup k = some r) :
    (∃ p, s.proc = .garbage p) ∧ CleanInv cfg ceramicConnections tr k s.proc ∧
      (s.db.lookup k = some r ∨ UnpinnedEverywhere ceramicConnections tr k) := by
  induction hrun with
  | nil => exact ⟨⟨p, hproc⟩, hinv, Or.inl hr⟩
  | @snoc s₂ s₃ tr l _ hstep ih =>
    obtain ⟨⟨p, hp⟩, hinv', hcases⟩ := ih fun f hf => hone f (List.mem_append_left _ hf)
    obtain ⟨request, reply, hl⟩ := hone ⟨s₂, l, s₃⟩ (by simp)
    have hl : l = .serve request reply := hl
    subst hl
    refine ⟨?_, cleanInv_step hstep hinv', ?_⟩
    · obtain ⟨_, _, hresume⟩ := hstep
      rw [hresume, hp]
      exact ⟨_, rfl⟩
    · rcases hcases with hr | hunp
      · rcases collect_step hstep hp hinv' hr with h | h
        · exact Or.inl h
        · exact Or.inr (h.snoc _)
      · exact Or.inr (hunp.snoc _)

/-- A record that has expired stays expired. -/
theorem createdBefore_mono {expired expired' : Int} {r : StreamReq} (hle : expired ≤ expired')
    (h : createdBefore expired r = true) : createdBefore expired' r = true := by
  unfold createdBefore at h ⊢
  cases hc : r.creation with
  | none =>
    rw [hc] at h
    cases h
  | some creation =>
    rw [hc] at h
    have hlt : creation < expired := of_decide_eq_true h
    exact decide_eq_true (by omega)

/-- **No stored stream is lost sight of.** In every sequence of executions,

    - a stream that was stored is still recorded, or has been unpinned on
      every node since, or the anchor check has deleted its record directly
      after it found it not anchored in time or its mark threw;
    - an execution of the garbage collection, wherever it was ended, leaves
      the record of each stream that it has not unpinned on every node, and
      an expired one is found again by every later execution. -/
theorem stored_streams_accounted (cfg : Config) (ord : LinearOrder K)
    (ceramicConnections : List String) {s₀ s : Client.Single (Process K) (Table K)}
    {tr : List (CleanUpStep K)} (hrun : (cleanUp cfg ord ceramicConnections).Run s₀ tr s) :
    (∀ earlier f later k, tr = earlier ++ f :: later → Stores f k →
      Accounted cfg ceramicConnections later s.db k) ∧
    (∀ earlier f later now k r, tr = earlier ++ f :: later →
      f.label = .start (.garbage (.start cfg ceramicConnections now)) → OneExecution later →
      f.after.db.lookup k = some r → ¬ UnpinnedEverywhere ceramicConnections later k →
      s.db.lookup k = some r ∧
        (createdBefore (now - cfg.streamTTL) r = true → ∀ now', now ≤ now' →
          (k, r) ∈ matchingRecords ord (createdBefore (now' - cfg.streamTTL)) s.db)) := by
  constructor
  · rintro earlier f later k rfl hstores
    obtain ⟨_, hstep, hlater⟩ := hrun.split
    obtain ⟨hrec, hinv⟩ := recorded_of_stores hstep hstores
    exact (run_accounted hlater hinv hrec).2
  · rintro earlier f later now k r rfl hlabel hone hr hnot
    obtain ⟨_, hstep, hlater⟩ := hrun.split
    rw [hlabel] at hstep
    obtain ⟨_, hstarts, hafter⟩ := hstep
    have hproc : f.after.proc = .garbage (.start cfg ceramicConnections now) := by rw [hafter]
    have hinv : CleanInv cfg ceramicConnections [] k f.after.proc := by
      rw [hproc]
      exact cleanInv_start hstarts
    obtain ⟨_, _, hkept | hunp⟩ := run_collect hlater hone hproc hinv hr
    · refine ⟨hkept, ?_⟩
      intro hexpired now' hnow
      have hstill := createdBefore_mono (by omega : _ ≤ now' - cfg.streamTTL) hexpired
      exact List.mem_filter.mpr ⟨(mem_records ord s.db (k, r)).mpr hkept, hstill⟩
    · exact absurd hunp hnot

/-! ### One stored stream

    Stream 1 is stored at time 0, and there is one node. -/

section oneStream

private def weekTTL : Config := Config.ofEnv none none

private def weekReq : StreamReq := ⟨some 0, some weekTTL.databaseTTL, some false⟩

private def weekTable : Table Nat := storeStreamReq weekTTL 0 1 ∅

private def suite : System (Client.Single (Process Nat) (Table Nat))
    (Client.Turn (Process Nat) (Request Nat) (Reply Nat)) :=
  cleanUp weekTTL Nat.instLinearOrder ["node"]

private theorem lookup_weekTable (k : Nat) :
    weekTable.lookup k = if k = 1 then some weekReq else none := by
  unfold weekTable
  rw [lookup_storeStreamReq, Finmap.lookup_empty]
  rfl

private theorem weekTable_scan (filter : StreamReq → Bool) :
    Serves weekTTL Nat.instLinearOrder weekTable (.scan (scanArgs filter))
      (.scanned ⟨some ([(1, weekReq)].filter fun it => filter it.2), none⟩) weekTable :=
  ⟨rfl, Or.inl ⟨_, rfl, scanReply_single _ lookup_weekTable rfl rfl⟩⟩

private theorem suite_serve {T T' : Table Nat} {p : Process Nat} {request : Request Nat}
    {reply : Reply Nat} (hp : p.request = some request)
    (hserve : Serves weekTTL Nat.instLinearOrder T request reply T')
    (hloads : LoadsRequested request reply) :
    suite.step ⟨T, p⟩ (.serve request reply) ⟨T', p.resume weekTTL ["node"] reply⟩ :=
  ⟨hp, ⟨hserve, hloads⟩, rfl⟩

private def nothingRuns : Process Nat := .store .passed

private def storing1 : Process Nat := .store (.storing 1 0)

private theorem begin_storing :
    suite.step ⟨∅, nothingRuns⟩ (.start storing1) ⟨∅, storing1⟩ :=
  ⟨rfl, Or.inr (Or.inr ⟨1, 0, rfl⟩), rfl⟩

private theorem store_week :
    suite.step ⟨∅, storing1⟩ (.serve (.write (.putItem 1 0)) .done) ⟨weekTable, nothingRuns⟩ :=
  suite_serve (p := storing1) rfl (Or.inl ⟨rfl, Or.inl rfl⟩) (fun s doc now h => by cases h)

private def collecting : Process Nat := .garbage (.start weekTTL ["node"] (minutes 20000))

private def unpinning1 : Process Nat := .garbage (.unpinning 1 "node" [] [])

private def refused : Process Nat := .garbage (.failed "ECONNREFUSED")

private def scanned1 : CleanUpStep Nat where
  before := ⟨weekTable, collecting⟩
  label := .serve (.scan (scanArgs (createdBefore (minutes 20000 - weekTTL.streamTTL))))
    (.scanned ⟨some [(1, weekReq)], none⟩)
  after := ⟨weekTable, unpinning1⟩

private def refused1 : CleanUpStep Nat where
  before := ⟨weekTable, unpinning1⟩
  label := .serve (.pinRm "node" 1) (.error "ECONNREFUSED")
  after := ⟨weekTable, refused⟩

/-- A garbage collection that cannot reach the node leaves the record, and
    every later one finds it again. -/
theorem aborted_collection_keeps_record : ∃ tr s, suite.Run ⟨∅, nothingRuns⟩ tr s ∧
    s.proc = refused ∧ s.db.lookup 1 = some weekReq ∧
    ∀ now', minutes 20000 ≤ now' →
      (1, weekReq) ∈ matchingRecords Nat.instLinearOrder
        (createdBefore (now' - weekTTL.streamTTL)) s.db := by
  have hbegin : suite.step ⟨weekTable, nothingRuns⟩ (.start collecting) ⟨weekTable, collecting⟩ :=
    ⟨rfl, Or.inr (Or.inl ⟨minutes 20000, rfl⟩), rfl⟩
  have hscan : suite.step scanned1.before scanned1.label scanned1.after :=
    suite_serve (p := collecting) rfl (weekTable_scan _) (fun s doc now h => by cases h)
  have hrefused : suite.step refused1.before refused1.label refused1.after :=
    suite_serve (p := unpinning1) rfl ⟨rfl, Or.inr (Or.inl ⟨_, rfl⟩)⟩
      (fun s doc now h => by cases h)
  have hrun := ((((System.Run.nil.snoc begin_storing).snoc store_week).snoc hbegin).snoc
    hscan).snoc hrefused
  have hsteps : ∀ f ∈ [scanned1, refused1], f = scanned1 ∨ f = refused1 := by simp
  have hone : OneExecution [scanned1, refused1] := by
    intro f hf
    rcases hsteps f hf with rfl | rfl
    · exact ⟨_, _, rfl⟩
    · exact ⟨_, _, rfl⟩
  have hpinned : ¬ UnpinnedEverywhere ["node"] [scanned1, refused1] 1 := by
    intro hunpinned
    obtain ⟨f, hf, reply, hl, hok⟩ := hunpinned "node" (by simp)
    rcases hsteps f hf with rfl | rfl
    · cases hl
    · cases hl
      cases hok
  have hthere : weekTable.lookup 1 = some weekReq := by rw [lookup_weekTable, if_pos rfl]
  obtain ⟨hkept, hagain⟩ := (stored_streams_accounted _ _ _ hrun).2 [_, _] _ _
    (minutes 20000) 1 weekReq rfl rfl hone hthere hpinned
  exact ⟨_, _, hrun, rfl, hkept, hagain (by decide)⟩

private def checking (p : AnchorCheck Nat) : Process Nat := .anchors p

private def late : String := "expect(received).toBeLessThan(expected)"

/-- A stream that is still `PENDING` after the anchor interval is given up:
    its record is gone, and no node has unpinned it. -/
theorem failed_anchor_leaves_pin : ∃ earlier f later s,
    suite.init ⟨∅, nothingRuns⟩ ∧ suite.Run ⟨∅, nothingRuns⟩ (earlier ++ f :: later) s ∧
    Stores f 1 ∧ s.db.lookup 1 = none ∧
    ∀ g ∈ earlier ++ f :: later, ¬ Unpins g "node" 1 := by
  have hbegin : suite.step ⟨weekTable, nothingRuns⟩ (.start (checking .start))
      ⟨weekTable, checking .start⟩ := ⟨rfl, Or.inl rfl, rfl⟩
  have hscan := suite_serve (p := checking .start) rfl (weekTable_scan _)
    (fun s doc now h => by cases h)
  have hload : Serves weekTTL Nat.instLinearOrder weekTable (.loadStream 1)
      (.loaded ⟨1, .PENDING⟩ (minutes 720)) weekTable := ⟨rfl, Or.inl ⟨_, _, rfl⟩⟩
  have hloaded := suite_serve (p := checking (.loading (1, weekReq) [])) rfl hload
    (fun s doc now h h' => by cases h; cases h'; rfl)
  have hdelete : Serves weekTTL Nat.instLinearOrder weekTable (.write (.deleteItem 1)) .done
      (deleteStreamReq 1 weekTable) := Or.inl ⟨rfl, Or.inl rfl⟩
  have hdeleted := suite_serve (p := checking (.deleting 1 late)) rfl hdelete
    (fun s doc now h => by cases h)
  have hrun := (((((System.Run.nil.snoc begin_storing).snoc store_week).snoc hbegin).snoc
    hscan).snoc hloaded).snoc hdeleted
  have hgone : (deleteStreamReq 1 weekTable).lookup 1 = none := by
    rw [lookup_deleteStreamReq, if_pos rfl]
  refine ⟨[_], _, [_, _, _, _], _, rfl, hrun, ⟨0, .done, rfl, rfl⟩, hgone, ?_⟩
  intro g hg hunpins
  obtain ⟨reply, hl, _⟩ := hunpins
  simp only [List.cons_append, List.nil_append, List.mem_cons, List.not_mem_nil, or_false] at hg
  rcases hg with rfl | rfl | rfl | rfl | rfl | rfl <;> cases hl

end oneStream

end Suite
