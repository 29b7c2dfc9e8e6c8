import CeramicTests.Suite.AnchorFailures

/-! # What one execution of the anchor check deletes

    `test anchors` alone over its table, with calls that may fail anywhere.
    A request should be deleted only if its stream was not anchored in time
    (`ForgetsOnlyFailed`): "If the anchoring failed, we don't want to leave
    this stream in the database".

    The handler that deletes also catches the errors of
    `markStreamReqAsAnchored`, which is called for streams that *are*
    anchored. So the deletions are the right ones only as long as no
    deletion is performed right after a mark that failed
    (`FailedMarksKeep`).
-/

namespace Suite

open Transition Framework

variable {K : Type} [DecidableEq K]

/-! ## Section 1: One execution -/

/-- The streams as one execution loads them, with the clock at that moment. -/
structure Streams (K : Type) where
  status : K → AnchorStatus
  now : K → Int

/-- `loadStream`, when it is answered, answers with these streams. -/
def Streams.Answers (streams : Streams K) (request : Request K) (reply : Reply K) : Prop :=
  ∀ s doc now, request = .loadStream s → reply = .loaded doc now →
    doc = ⟨s, streams.status s⟩ ∧ now = streams.now s

/-- One execution over the table `T₀`. Every call may fail, and a write that
    fails may have been performed. -/
def anchorCheck (cfg : Config) (ord : LinearOrder K) (streams : Streams K) (T₀ : Table K) :
    System (Client.Single (AnchorCheck K) (Table K))
      (Client.Turn (AnchorCheck K) (Request K) (Reply K)) :=
  (AnchorCheck.client cfg).sequence
    (fun T request reply T' => Serves cfg ord T request reply T' ∧ streams.Answers request reply)
    (fun _ => False) (fun s => s = ⟨T₀, .start⟩)

/-- A step of the one process `σ` that uses the table. -/
abbrev TableStep (σ K : Type) :=
  Fired (Client.Single σ (Table K)) (Client.Turn σ (Request K) (Reply K))

/-- A step of an execution of the anchor check. -/
abbrev CheckStep (K : Type) := TableStep (AnchorCheck K) K

/-- The step deletes the request of `k`. -/
def Forgets {σ : Type} (f : TableStep σ K) (k : K) : Prop :=
  ∃ reply, f.label = .serve (.write (.deleteItem k)) reply ∧ reply.performed = true

/-- The step is a call of `markStreamReqAsAnchored` that throws. -/
def FailedMark {σ : Type} (f : TableStep σ K) (k : K) : Prop :=
  ∃ reply err, f.label = .serve (.write (.updateItem k)) reply ∧ reply.result = .error err

/-- The stream was not anchored in time. -/
def AnchoringFailed (cfg : Config) (streams : Streams K) (T₀ : Table K) (k : K) : Prop :=
  streams.status k ≠ .ANCHORED ∧
    ∃ r, T₀.lookup k = some r ∧ timedOut cfg (streams.now k) r = true

/-- An execution deletes only requests whose anchoring failed, and the
    request of an `ANCHORED` stream stays in the table. -/
structure ForgetsOnlyFailed (cfg : Config) (streams : Streams K) (T₀ : Table K)
    (tr : List (CheckStep K)) (T : Table K) : Prop where
  failed : ∀ f ∈ tr, ∀ k, Forgets f k → AnchoringFailed cfg streams T₀ k
  kept : ∀ k, streams.status k = .ANCHORED → (T₀.lookup k).isSome = true →
    (T.lookup k).isSome = true

/-- No call of `markStreamReqAsAnchored` throws with the deletion that
    follows being performed. -/
def FailedMarksKeep (tr : List (CheckStep K)) : Prop :=
  ∀ earlier f g later, tr = earlier ++ f :: g :: later →
    (∃ k, FailedMark f k) → ¬ ∃ k, Forgets g k

/-! ## Section 2: Where an execution stands -/

/-- The requests are those of the table that the execution began with. -/
def FetchedFrom (T₀ : Table K) (reqs : List (Item K)) : Prop :=
  ∀ it ∈ reqs, T₀.lookup it.1 = some it.2

/-- What is known of an execution that waits, after the steps `tr`. Only a
    stream that is `ANCHORED` is marked, and a request is deleted because
    its anchoring failed or because the call just before was a failed mark. -/
def CheckInv (cfg : Config) (streams : Streams K) (T₀ : Table K) (tr : List (CheckStep K))
    (T : Table K) : AnchorCheck K → Prop
  | .fetching loop => T = T₀ ∧ FetchedFrom T₀ loop.results
  | .loading req rest => FetchedFrom T₀ (req :: rest)
  | .marking id rest => streams.status id = .ANCHORED ∧ FetchedFrom T₀ rest
  | .deleting id _ =>
      AnchoringFailed cfg streams T₀ id ∨ ∃ earlier f, tr = earlier ++ [f] ∧ FailedMark f id
  | .passed => True
  | .failed _ => True

variable {cfg : Config} {ord : LinearOrder K} {streams : Streams K} {T₀ : Table K}

theorem checkInv_next {tr : List (CheckStep K)} {T : Table K} {rest : List (Item K)}
    (h : FetchedFrom T₀ rest) : CheckInv cfg streams T₀ tr T (AnchorCheck.next rest) := by
  cases rest with
  | nil => trivial
  | cons req rest => exact h

/-- A page of the table brings further requests of the table. -/
theorem checkInv_page {tr : List (CheckStep K)} {loop : ScanLoop K} {out : ScanCommandOutput K}
    (h : FetchedFrom T₀ loop.results) (hreply : ScanReply ord T₀ loop.args out) :
    CheckInv cfg streams T₀ tr T₀ (AnchorCheck.ofScan (loop.receive (.ok out))) := by
  obtain ⟨evaluated, hread, _, hitems⟩ := hreply
  have hall : FetchedFrom T₀ (loop.results ++
      evaluated.filter fun it => loop.args.filterExpression it.2) := by
    intro it hit
    rcases List.mem_append.mp hit with hit | hit
    · exact h it hit
    · exact hread.present it (List.mem_filter.mp hit).1
  rcases receive_page loop hitems with ⟨key, _, _, hnext⟩ | ⟨_, hnext⟩
  · rw [hnext]
    exact ⟨rfl, hall⟩
  · rw [hnext]
    exact checkInv_next hall

/-- The loop body decides by the status and the age of the stream. -/
theorem checkInv_loaded {tr : List (CheckStep K)} {T : Table K} {req : Item K}
    {rest : List (Item K)} (h : FetchedFrom T₀ (req :: rest)) :
    CheckInv cfg streams T₀ tr T
      (AnchorCheck.checkReq cfg req rest ⟨req.1, streams.status req.1⟩ (streams.now req.1)) := by
  have hrest : FetchedFrom T₀ rest := fun it hit => h it (List.mem_cons_of_mem _ hit)
  rcases AnchorCheck.checkReq_cases cfg req rest ⟨req.1, streams.status req.1⟩
    (streams.now req.1) with ⟨_, err, hnext⟩ | ⟨creation, hcreation, hcases⟩
  · rw [hnext]
    trivial
  · rcases hcases with ⟨hst, hnext⟩ | ⟨hst, hlate, err, hnext⟩ | ⟨_, _, hnext⟩
    · rw [hnext]
      exact ⟨hst, hrest⟩
    · rw [hnext]
      have htimed : timedOut cfg (streams.now req.1) req.2 = true := by
        unfold timedOut
        rw [hcreation]
        exact decide_eq_true hlate
      exact Or.inl ⟨hst, req.2, h req (by simp), htimed⟩
    · rw [hnext]
      exact checkInv_next hrest

/-- Every call keeps the invariant. -/
theorem checkInv_step {tr : List (CheckStep K)} {s s' : Client.Single (AnchorCheck K) (Table K)}
    {l : Client.Turn (AnchorCheck K) (Request K) (Reply K)}
    (hstep : (anchorCheck cfg ord streams T₀).step s l s')
    (h : CheckInv cfg streams T₀ tr s.db s.proc) :
    CheckInv cfg streams T₀ (tr ++ [⟨s, l, s'⟩]) s'.db s'.proc := by
  obtain ⟨T, p⟩ := s
  obtain ⟨T', p'⟩ := s'
  cases l with
  | start p => exact absurd hstep.2.1 id
  | serve request reply =>
    obtain ⟨hreq, ⟨hserve, hans⟩, hproc⟩ := hstep
    have hproc : p' = p.resume cfg reply := hproc
    subst hproc
    cases p with
    | fetching loop =>
      cases hreq
      obtain ⟨rfl, hreply⟩ := hserve
      obtain ⟨rfl, hres⟩ := h
      rcases hreply with ⟨out, rfl, hreply⟩ | ⟨err, rfl⟩
      · exact checkInv_page hres hreply
      · trivial
    | loading req rest =>
      cases hreq
      obtain ⟨rfl, hreply⟩ := hserve
      rcases hreply with ⟨doc, now, rfl⟩ | ⟨err, rfl⟩
      · obtain ⟨rfl, rfl⟩ := hans req.1 doc now rfl rfl
        exact checkInv_loaded h
      · trivial
    | marking id rest =>
      cases hreq
      cases hres : reply.result with
      | ok _ =>
        rw [AnchorCheck.resume_marking_ok hres]
        exact checkInv_next h.2
      | error err =>
        -- the handler takes a failed mark for a failed anchoring
        rw [AnchorCheck.resume_marking_error hres]
        exact Or.inr ⟨tr, _, rfl, reply, err, rfl, hres⟩
    | deleting id err =>
      obtain ⟨err', hfailed⟩ := AnchorCheck.resume_deleting cfg id err reply
      rw [hfailed]
      trivial
    | passed => cases hreq
    | failed err => cases hreq

theorem run_checkInv {tr : List (CheckStep K)} {s : Client.Single (AnchorCheck K) (Table K)}
    (hrun : (anchorCheck cfg ord streams T₀).Run ⟨T₀, .start⟩ tr s) :
    CheckInv cfg streams T₀ tr s.db s.proc := by
  induction hrun with
  | nil => exact ⟨rfl, fun it hit => by cases hit⟩
  | snoc _ hstep ih => exact checkInv_step hstep ih

/-! ## Section 3: The deletions of an execution -/

/-- A deletion is the request of an execution that is about to delete. -/
theorem deleting_of_forgets {s s' : Client.Single (AnchorCheck K) (Table K)}
    {l : Client.Turn (AnchorCheck K) (Request K) (Reply K)} {k : K}
    (hstep : (anchorCheck cfg ord streams T₀).step s l s') (h : Forgets ⟨s, l, s'⟩ k) :
    ∃ err, s.proc = .deleting k err := by
  obtain ⟨reply, hl, _⟩ := h
  have hl : l = .serve (.write (.deleteItem k)) reply := hl
  subst hl
  obtain ⟨hreq, _, _⟩ := hstep
  have hreq : s.proc.request = some (.write (.deleteItem k)) := hreq
  cases hp : s.proc <;> rw [hp] at hreq <;> cases hreq
  exact ⟨_, rfl⟩

/-- A mark that throws is followed by the deletion of the same request. -/
theorem marking_of_failedMark {s s' : Client.Single (AnchorCheck K) (Table K)}
    {l : Client.Turn (AnchorCheck K) (Request K) (Reply K)} {k : K}
    (hstep : (anchorCheck cfg ord streams T₀).step s l s') (h : FailedMark ⟨s, l, s'⟩ k) :
    (∃ rest, s.proc = .marking k rest) ∧ ∃ err, s'.proc = .deleting k err := by
  obtain ⟨reply, err, hl, herr⟩ := h
  have hl : l = .serve (.write (.updateItem k)) reply := hl
  subst hl
  obtain ⟨hreq, _, hproc⟩ := hstep
  have hreq : s.proc.request = some (.write (.updateItem k)) := hreq
  have hproc : s'.proc = s.proc.resume cfg reply := hproc
  cases hp : s.proc <;> rw [hp] at hreq <;> cases hreq
  refine ⟨⟨_, rfl⟩, unexpected err, ?_⟩
  rw [hproc, hp]
  exact AnchorCheck.resume_marking_error herr

/-- A request leaves the table only by a deletion. -/
theorem run_recorded {tr : List (CheckStep K)} {s : Client.Single (AnchorCheck K) (Table K)}
    (hrun : (anchorCheck cfg ord streams T₀).Run ⟨T₀, .start⟩ tr s) {k : K}
    (hk : (T₀.lookup k).isSome = true) :
    (s.db.lookup k).isSome = true ∨ ∃ f ∈ tr, Forgets f k := by
  induction hrun with
  | nil => exact Or.inl hk
  | @snoc s₁ s₂ tr l _ hstep ih =>
    rcases ih with ih | ⟨f, hf, hforgets⟩
    · cases l with
      | start p => exact absurd hstep.2.1 id
      | serve request reply =>
        obtain ⟨_, ⟨hserve, _⟩, _⟩ := hstep
        rcases hserve.recorded ih with h | ⟨rfl, hperf⟩
        · exact Or.inl h
        · exact Or.inr ⟨⟨s₁, _, s₂⟩, by simp, reply, rfl, hperf⟩
    · exact Or.inr ⟨f, List.mem_append_left _ hf, hforgets⟩

/-- A deletion finds an anchoring that failed, or comes right after a mark
    that failed. -/
theorem forgets_cases {earlier later : List (CheckStep K)} {f : CheckStep K} {k : K}
    {s : Client.Single (AnchorCheck K) (Table K)}
    (hrun : (anchorCheck cfg ord streams T₀).Run ⟨T₀, .start⟩ (earlier ++ f :: later) s)
    (hforgets : Forgets f k) :
    AnchoringFailed cfg streams T₀ k ∨
      ∃ before g, earlier = before ++ [g] ∧ FailedMark g k := by
  obtain ⟨hbefore, hstep, _⟩ := hrun.split
  obtain ⟨err, hproc⟩ := deleting_of_forgets hstep hforgets
  have hinv := run_checkInv hbefore
  rw [hproc] at hinv
  exact hinv

/-- A mark that throws is about an `ANCHORED` stream, and a deletion right
    after it is about the same stream. -/
theorem anchored_of_forgets_after_mark {earlier later : List (CheckStep K)}
    {f g : CheckStep K} {k k' : K} {s : Client.Single (AnchorCheck K) (Table K)}
    (hrun : (anchorCheck cfg ord streams T₀).Run ⟨T₀, .start⟩ (earlier ++ f :: g :: later) s)
    (hmark : FailedMark f k) (hforgets : Forgets g k') :
    streams.status k' = .ANCHORED := by
  obtain ⟨hbefore, hstep, hafter⟩ := hrun.split
  obtain ⟨⟨rest, hmarking⟩, err, hdeleting⟩ := marking_of_failedMark hstep hmark
  have hinv := run_checkInv hbefore
  rw [hmarking] at hinv
  -- the next step is a call of the same process
  have hnext := hafter.before_head
  obtain ⟨err', hproc⟩ := deleting_of_forgets (hafter.step_of_mem (by simp)) hforgets
  rw [hnext, hdeleting] at hproc
  cases hproc
  exact hinv.1

/-- **What the anchor check forgets.** An execution deletes only requests
    whose anchoring failed, and keeps those of `ANCHORED` streams, exactly
    when none of its deletions follows a mark that failed. -/
theorem forgets_only_failed_iff (cfg : Config) (ord : LinearOrder K) (streams : Streams K)
    (T₀ : Table K) {tr : List (CheckStep K)} {s : Client.Single (AnchorCheck K) (Table K)}
    (hrun : (anchorCheck cfg ord streams T₀).Run ⟨T₀, .start⟩ tr s) :
    ForgetsOnlyFailed cfg streams T₀ tr s.db ↔ FailedMarksKeep tr := by
  constructor
  · rintro h earlier f g later rfl ⟨k, hmark⟩ ⟨k', hforgets⟩
    have hanchored := anchored_of_forgets_after_mark hrun hmark hforgets
    exact (h.failed g (by simp) k' hforgets).1 hanchored
  · intro hkeep
    have hfailed : ∀ f ∈ tr, ∀ k, Forgets f k → AnchoringFailed cfg streams T₀ k := by
      intro f hf k hforgets
      obtain ⟨earlier, later, rfl⟩ := List.append_of_mem hf
      rcases forgets_cases hrun hforgets with h | ⟨before, g, rfl, hmark⟩
      · exact h
      · have hno := hkeep before g f later (by simp) ⟨k, hmark⟩
        exact absurd ⟨k, hforgets⟩ hno
    refine ⟨hfailed, ?_⟩
    intro k hst hk
    rcases run_recorded hrun hk with h | ⟨f, hf, hforgets⟩
    · exact h
    · exact absurd hst (hfailed f hf k hforgets).1

/-! ### An anchored stream whose mark is throttled

    Stream 1 was stored at time 0 and is `ANCHORED` when it is checked. -/

section throttledMark

private def checkCfg : Config := Config.ofEnv none none

private def dueReq : StreamReq := ⟨some 0, some checkCfg.databaseTTL, some false⟩

private def due : Table Nat := storeStreamReq checkCfg 0 1 ∅

private def inTime : Streams Nat := ⟨fun _ => .ANCHORED, fun _ => minutes 10⟩

private def checkDue : System (Client.Single (AnchorCheck Nat) (Table Nat))
    (Client.Turn (AnchorCheck Nat) (Request Nat) (Reply Nat)) :=
  anchorCheck checkCfg Nat.instLinearOrder inTime due

private theorem lookup_due (k : Nat) : due.lookup k = if k = 1 then some dueReq else none := by
  unfold due
  rw [lookup_storeStreamReq, Finmap.lookup_empty]
  rfl

private theorem serve_due {T T' : Table Nat} {p : AnchorCheck Nat} {request : Request Nat}
    {reply : Reply Nat} (hp : p.request = some request)
    (hserve : Serves checkCfg Nat.instLinearOrder T request reply T')
    (hans : inTime.Answers request reply) :
    checkDue.step ⟨T, p⟩ (.serve request reply) ⟨T', p.resume checkCfg reply⟩ :=
  ⟨hp, ⟨hserve, hans⟩, rfl⟩

/-- The check has loaded the stream, and is about to mark it. -/
private theorem up_to_mark : ∃ tr, checkDue.Run ⟨due, .start⟩ tr ⟨due, .marking 1 []⟩ ∧
    ∀ f ∈ tr, ∀ k, ¬ FailedMark f k := by
  let args : ScanCommandInput Nat := scanArgs (anchoredIs false)
  have hscan : Serves checkCfg Nat.instLinearOrder due (.scan args)
      (.scanned ⟨some [(1, dueReq)], none⟩) due :=
    ⟨rfl, Or.inl ⟨_, rfl, scanReply_single _ lookup_due rfl rfl⟩⟩
  have hload : Serves checkCfg Nat.instLinearOrder due (.loadStream 1)
      (.loaded ⟨1, .ANCHORED⟩ (minutes 10)) due := ⟨rfl, Or.inl ⟨_, _, rfl⟩⟩
  have hfetched := serve_due (p := .start) rfl hscan (fun s doc now h => by cases h)
  have hloaded := serve_due (p := .loading (1, dueReq) []) rfl hload
    (fun s doc now h h' => by cases h; cases h'; exact ⟨rfl, rfl⟩)
  refine ⟨_, (System.Run.nil.snoc hfetched).snoc hloaded, ?_⟩
  intro f hf k hmark
  obtain ⟨reply, err, hl, _⟩ := hmark
  simp only [List.nil_append, List.cons_append, List.mem_cons, List.not_mem_nil, or_false] at hf
  rcases hf with rfl | rfl <;> cases hl

/-- If the mark succeeds, the execution passes and the request stays. -/
theorem mark_keeps_request : ∃ tr s, checkDue.Run ⟨due, .start⟩ tr s ∧ s.proc = .passed ∧
    ForgetsOnlyFailed checkCfg inTime due tr s.db := by
  obtain ⟨tr, hrun, hno⟩ := up_to_mark
  have hmark : Serves checkCfg Nat.instLinearOrder due (.write (.updateItem 1)) .done
      (markStreamReqAsAnchored 1 due) := Or.inl ⟨rfl, Or.inl rfl⟩
  have hmarked := serve_due (p := .marking 1 []) rfl hmark (fun s doc now h => by cases h)
  refine ⟨_, _, hrun.snoc hmarked, rfl, ?_⟩
  refine (forgets_only_failed_iff _ _ _ _ (hrun.snoc hmarked)).mpr ?_
  rintro earlier f g later hsplit ⟨k, hfailed⟩
  have hf := List.mem_append_right earlier (List.mem_cons_self (a := f) (l := g :: later))
  rw [← hsplit] at hf
  rcases List.mem_append.mp hf with hf | hf
  · exact absurd hfailed (hno f hf k)
  · rw [List.mem_singleton.mp hf] at hfailed
    obtain ⟨reply, err, hl, herr⟩ := hfailed
    cases hl
    cases herr

/-- If the mark is throttled, the request of the anchored stream is gone. -/
theorem throttled_mark_forgets : ∃ tr s, checkDue.Run ⟨due, .start⟩ tr s ∧
    s.proc = .failed (unexpected "ThrottlingException") ∧ inTime.status 1 = .ANCHORED ∧
    (due.lookup 1).isSome = true ∧ s.db.lookup 1 = none ∧
    ¬ ForgetsOnlyFailed checkCfg inTime due tr s.db := by
  obtain ⟨tr, hrun, _⟩ := up_to_mark
  have hmark : Serves checkCfg Nat.instLinearOrder due (.write (.updateItem 1))
      (.error "ThrottlingException") due := Or.inr ⟨rfl, _, rfl⟩
  have hdelete : Serves checkCfg Nat.instLinearOrder due (.write (.deleteItem 1)) .done
      (deleteStreamReq 1 due) := Or.inl ⟨rfl, Or.inl rfl⟩
  have hmarked := serve_due (p := .marking 1 []) rfl hmark (fun s doc now h => by cases h)
  have hdeleted := serve_due (p := .deleting 1 (unexpected "ThrottlingException")) rfl hdelete
    (fun s doc now h => by cases h)
  have hthere : (due.lookup 1).isSome = true := by rw [lookup_due]; rfl
  have hgone : (deleteStreamReq 1 due).lookup 1 = none := by
    rw [lookup_deleteStreamReq, if_pos rfl]
  refine ⟨_, _, (hrun.snoc hmarked).snoc hdeleted, rfl, rfl, hthere, hgone, ?_⟩
  intro h
  have hkept := h.kept 1 rfl hthere
  rw [hgone] at hkept
  cases hkept

end throttledMark

end Suite
