import CeramicTests.Suite.CleanUp

/-! # Garbage collections that are repeated

    The garbage collection is a process that is run again and again. Each
    execution meets services that may refuse any of its calls, and then
    ends. Here nobody else writes to the table. The question is what gets
    done: which records are gone after how many executions.

    - Section 2: the fetch of the expired records, which may stop at
      `MAX_SCAN_RESULTS` of them;
    - Section 3: the two loops, which end at the first call that fails;
    - Section 4: one execution takes a prefix of the expired records, in
      the order of the keys (`Collects`);
    - Section 5: successive executions (`Collections`).
-/

namespace Suite

open Framework Transition

variable {K : Type} [DecidableEq K] {cfg : Config}

/-! ## Section 1: The setting -/

/-- What may differ from one execution to the next: the clock at its fetch,
    the order and the pages of the scan, and the answers to its calls. -/
structure Collection (K : Type) [DecidableEq K] (cfg : Config) where
  now : Int
  ord : LinearOrder K
  serve : Table K → Request K → Reply K × Table K
  serves : ∀ T request, (∀ args, request = .scan args → args.limit = none) →
    Serves cfg ord T request (serve T request).1 (serve T request).2

/-- Records created before this have expired. -/
def Collection.limit (e : Collection K cfg) : Int := e.now - cfg.streamTTL

/-- No call fails. -/
def Collection.Healthy (e : Collection K cfg) : Prop :=
  ∀ T request, (e.serve T request).1.result = .ok ()

/-- The node never unpins the stream. -/
def Collection.Refuses (e : Collection K cfg) (url : String) (streamId : K) : Prop :=
  ∀ T, (e.serve T (.pinRm url streamId)).1.result ≠ .ok ()

/-- From the state `p`, the execution ends in the state `p'`. -/
def Collection.Ends (e : Collection K cfg) (ceramicConnections : List String)
    (p : GarbageCollect K) (T : Table K) (p' : GarbageCollect K) (T' : Table K) : Prop :=
  (GarbageCollect.client ceramicConnections).Ends e.serve p T p' T'

/-- An execution that has ended in one of the two ways. A failed one has met
    a call that failed. -/
inductive Collection.Ended (e : Collection K cfg) : GarbageCollect K → Prop where
  | passed : e.Ended .passed
  | failed (err : String) (h : ¬ e.Healthy) : e.Ended (.failed err)

variable {ceramicConnections : List String} {e : Collection K cfg}

theorem Collection.Ended.of_healthy {p : GarbageCollect K} (h : e.Ended p) (he : e.Healthy) :
    p = .passed := by
  cases h with
  | passed => rfl
  | failed err hne => exact absurd he hne

theorem Collection.ends_failed (err : String) (T : Table K) :
    e.Ends ceramicConnections (.failed err) T (.failed err) T :=
  Client.Ends.ended rfl

/-- A call of the execution, and what is left after its reply. -/
theorem Collection.Ends.call {p p' : GarbageCollect K} {T T₁ T' : Table K} {r : Request K}
    {reply : Reply K} (h : p.request = some r) (hserve : e.serve T r = (reply, T₁))
    (hrest : e.Ends ceramicConnections (p.resume ceramicConnections reply) T₁ p' T') :
    e.Ends ceramicConnections p T p' T' :=
  Client.Ends.step h hserve hrest

/-- A call whose reply is an error is not that of a healthy execution. -/
theorem not_healthy_of_error {T T' : Table K} {request : Request K} {reply : Reply K}
    {err : String} (hserve : e.serve T request = (reply, T')) (herr : reply.result = .error err) :
    ¬ e.Healthy := by
  intro hhealthy
  have hok := hhealthy T request
  rw [hserve, herr] at hok
  cases hok

/-! ### What each call may do -/

theorem serve_scan (e : Collection K cfg) (T : Table K) {args : ScanCommandInput K}
    (hlimit : args.limit = none) :
    (∃ out, e.serve T (.scan args) = (.scanned out, T) ∧ ScanReply e.ord T args out) ∨
    ∃ err, e.serve T (.scan args) = (.error err, T) := by
  obtain ⟨hT, ⟨out, hout, hreply⟩ | ⟨err, herr⟩⟩ := e.serves T (.scan args) (by
    intro args' hargs
    cases hargs
    exact hlimit)
  · exact Or.inl ⟨out, Prod.ext hout hT, hreply⟩
  · exact Or.inr ⟨err, Prod.ext herr hT⟩

theorem serve_pinRm (e : Collection K cfg) (T : Table K) (url : String) (streamId : K) :
    (e.serve T (.pinRm url streamId)).2 = T :=
  (e.serves T (.pinRm url streamId) (by intro args hargs; cases hargs)).1

/-- A delete that has failed may have been performed. -/
theorem serve_delete (e : Collection K cfg) (T : Table K) (streamId : K) :
    e.serve T (.write (.deleteItem streamId)) = (.done, deleteStreamReq streamId T) ∨
    ∃ reply err T', e.serve T (.write (.deleteItem streamId)) = (reply, T') ∧
      reply.result = .error err ∧ (T' = T ∨ T' = deleteStreamReq streamId T) := by
  rcases e.serves T (.write (.deleteItem streamId)) (by intro args hargs; cases hargs) with
    ⟨hT, hdone | ⟨err, hlost⟩⟩ | ⟨hT, err, herr⟩
  · exact Or.inl (Prod.ext hdone hT)
  · exact Or.inr ⟨_, err, _, Prod.ext hlost hT, rfl, Or.inr rfl⟩
  · exact Or.inr ⟨_, err, _, Prod.ext herr hT, rfl, Or.inl rfl⟩

/-! ## Section 2: The fetch -/

/-- The expired records, in the order of the keys. -/
def Collection.expiredRecords (e : Collection K cfg) (T : Table K) : List (Item K) :=
  matchingRecords e.ord (createdBefore e.limit) T

/-- What the fetch returns. Short of the size limit, that is everything. -/
structure Collection.Fetches (e : Collection K cfg) (T : Table K) (reqs : List (Item K)) :
    Prop where
  isPrefix : reqs <+: e.expiredRecords T
  whole : reqs.length < MAX_SCAN_RESULTS → reqs = e.expiredRecords T

theorem fetches_of_plainResult {T : Table K} {outs : List (ScanCommandOutput K)}
    {reqs : List (Item K)}
    (h : PlainResult e.ord (createdBefore e.limit) none T outs reqs) : e.Fetches T reqs := by
  refine ⟨h.isPrefix, ?_⟩
  intro hfew
  rcases Nat.lt_or_ge (e.expiredRecords T).length MAX_SCAN_RESULTS with hlt | hge
  · exact h.whole hlt
  · exact absurd hfew (not_lt.mpr (h.first_full hge).1)

/-- The run of the scan goes on with the answer to its request. -/
theorem scan_page_step {T : Table K} {tr : List (Fired (ScanState K) (ScanEvent K))}
    {s₀ s : ScanState K} {loop : ScanLoop K} {out : ScanCommandOutput K}
    (hrun : (scanSystem cfg e.ord (createdBefore e.limit) none).Run s₀ tr s)
    (htable : s.table = T) (hstatus : s.status = .scanning loop)
    (hreply : ScanReply e.ord T loop.args out) :
    (scanSystem cfg e.ord (createdBefore e.limit) none).Run s₀
      (tr ++ [⟨s, .page out, { s with status := loop.receive (.ok out) }⟩])
      { s with status := loop.receive (.ok out) } :=
  .snoc hrun ⟨loop, hstatus, htable ▸ hreply, rfl⟩

/-- The fetch ends with an error, or the execution goes on with what it
    returns. The measure is the number of pages that may still come. -/
theorem fetch_from {T : Table K} (n : Nat) :
    ∀ (tr : List (Fired (ScanState K) (ScanEvent K))) (s : ScanState K),
      (scanSystem cfg e.ord (createdBefore e.limit) none).Run
        ⟨T, fetchExpiredStreamReqs cfg e.now none⟩ tr s → OnlyPages tr →
      T.keys.card + 1 - tr.length ≤ n →
      (∃ err, ¬ e.Healthy ∧ e.Ends ceramicConnections
        (.ofScan ceramicConnections s.status) T (.failed err) T) ∨
      ∃ reqs, e.Fetches T reqs ∧ ∀ p' T', e.Ends ceramicConnections
        (.next ceramicConnections reqs) T p' T' →
        e.Ends ceramicConnections (.ofScan ceramicConnections s.status) T p' T' := by
  induction n using Nat.strong_induction_on with
  | _ n ih =>
    intro tr s hrun halone hn
    have hinit : (scanSystem cfg e.ord (createdBefore e.limit) none).init
        ⟨T, fetchExpiredStreamReqs cfg e.now none⟩ := rfl
    obtain ⟨htable, _, hlen, hinv⟩ := run_plainInv hinit hrun halone
    cases hstatus : s.status with
    | returned reqs =>
      right
      exact ⟨reqs, fetches_of_plainResult (plainResult_of_returned hinit hrun halone hstatus),
        fun _ _ h => h⟩
    | thrown err =>
      rw [hstatus] at hinv
      exact absurd hinv id
    | scanning loop =>
      rw [hstatus] at hinv
      obtain ⟨_, _, hlimit, hleft⟩ := hinv
      have hmore : tr.length ≤ T.keys.card := by
        rw [hlen] at hleft
        exact le_trans (Nat.le_add_right _ _) hleft
      have hrequest : (GarbageCollect.fetching loop).request = some (.scan loop.args) := rfl
      rcases serve_scan e T hlimit with ⟨out, hserve, hreply⟩ | ⟨err, hserve⟩
      · -- a page: the run of the scan goes on
        have hrun' := scan_page_step hrun htable hstatus hreply
        have hlen' : (tr ++ [⟨s, .page out, { s with status := loop.receive (.ok out) }⟩] :
            List (Fired (ScanState K) (ScanEvent K))).length = tr.length + 1 := by simp
        rcases ih _ (by omega) _ _ hrun' (halone.snoc out) (le_refl _) with
          ⟨err, hne, hends⟩ | ⟨reqs, hfetch, hgo⟩
        · exact Or.inl ⟨err, hne, .call hrequest hserve hends⟩
        · exact Or.inr ⟨reqs, hfetch, fun p' T' h => .call hrequest hserve (hgo p' T' h)⟩
      · left
        exact ⟨unexpected err, not_healthy_of_error hserve rfl,
          .call hrequest hserve (Collection.ends_failed _ T)⟩

/-- The fetch of an execution that begins. -/
theorem fetch_start (e : Collection K cfg) (T : Table K) :
    (∃ err, ¬ e.Healthy ∧ e.Ends ceramicConnections
      (.start cfg ceramicConnections e.now) T (.failed err) T) ∨
    ∃ reqs, e.Fetches T reqs ∧ ∀ p' T', e.Ends ceramicConnections
      (.next ceramicConnections reqs) T p' T' →
      e.Ends ceramicConnections (.start cfg ceramicConnections e.now) T p' T' :=
  fetch_from _ [] _ .nil .nil (le_refl _)

/-! ## Section 3: The loops -/

/-- The inner loop ends with an error, or the stream is unpinned and its
    record is to be deleted. -/
theorem unpin_from (e : Collection K cfg) (T : Table K) (streamId : K) (rest : List (Item K))
    (urls : List String) :
    (∃ err, ¬ e.Healthy ∧
      e.Ends ceramicConnections (.unpin streamId rest urls) T (.failed err) T) ∨
    (∀ url ∈ urls, ¬ e.Refuses url streamId) ∧
      ∀ p' T', e.Ends ceramicConnections (.deleting streamId rest) T p' T' →
        e.Ends ceramicConnections (.unpin streamId rest urls) T p' T' := by
  induction urls with
  | nil => exact Or.inr ⟨by simp, fun _ _ h => h⟩
  | cons url urls ih =>
    show (∃ err, ¬ e.Healthy ∧ e.Ends ceramicConnections
        (.unpinning streamId url urls rest) T (.failed err) T) ∨
      (∀ url' ∈ url :: urls, ¬ e.Refuses url' streamId) ∧
        ∀ p' T', e.Ends ceramicConnections (.deleting streamId rest) T p' T' →
          e.Ends ceramicConnections (.unpinning streamId url urls rest) T p' T'
    have hrequest : (GarbageCollect.unpinning streamId url urls rest).request =
        some (.pinRm url streamId) := rfl
    have hserve : e.serve T (.pinRm url streamId) =
        ((e.serve T (.pinRm url streamId)).1, T) :=
      Prod.ext rfl (serve_pinRm e T url streamId)
    cases hresult : (e.serve T (.pinRm url streamId)).1.result with
    | error err =>
      left
      refine ⟨err, not_healthy_of_error hserve hresult, .call hrequest hserve ?_⟩
      rw [GarbageCollect.resume_unpinning_error hresult]
      exact Collection.ends_failed err T
    | ok =>
      -- this node has unpinned it, and the loop goes on
      have hcall : ∀ p' T', e.Ends ceramicConnections (.unpin streamId rest urls) T p' T' →
          e.Ends ceramicConnections (.unpinning streamId url urls rest) T p' T' := by
        intro p' T' h
        refine .call hrequest hserve ?_
        rw [GarbageCollect.resume_unpinning_ok hresult]
        exact h
      rcases ih with ⟨err, hne, hends⟩ | ⟨hurls, hgo⟩
      · exact Or.inl ⟨err, hne, hcall _ _ hends⟩
      · right
        refine ⟨?_, fun p' T' h => hcall p' T' (hgo p' T' h)⟩
        intro url' hurl'
        rcases List.mem_cons.mp hurl' with rfl | hmem
        · exact fun hrefuses => hrefuses T hresult
        · exact hurls url' hmem

/-- What the loops do with the requests `reqs`: they take the requests `done`
    from the table. -/
structure Collection.Takes (e : Collection K cfg) (ceramicConnections : List String) (T : Table K)
    (reqs done : List (Item K)) (p' : GarbageCollect K) (T' : Table K) : Prop where
  ended : e.Ended p'
  isPrefix : done <+: reqs
  unpinned : ∀ it ∈ done, ∀ url ∈ ceramicConnections, ¬ e.Refuses url it.1
  lookup : ∀ k, T'.lookup k = if k ∈ done.map Prod.fst then none else T.lookup k
  passed : p' = .passed → done = reqs

theorem Collection.Takes.nothing {T : Table K} {reqs : List (Item K)} {err : String}
    (h : ¬ e.Healthy) : e.Takes ceramicConnections T reqs [] (.failed err) T where
  ended := .failed err h
  isPrefix := List.nil_prefix
  unpinned := by simp
  lookup := by simp
  passed := by simp

/-- The first request is taken, and then those of the others. -/
theorem Collection.Takes.cons {T T' : Table K} {it : Item K} {reqs done : List (Item K)}
    {p' : GarbageCollect K} (hurls : ∀ url ∈ ceramicConnections, ¬ e.Refuses url it.1)
    (h : e.Takes ceramicConnections (deleteStreamReq it.1 T) reqs done p' T') :
    e.Takes ceramicConnections T (it :: reqs) (it :: done) p' T' where
  ended := h.ended
  isPrefix := List.cons_prefix_cons.mpr ⟨rfl, h.isPrefix⟩
  unpinned := by
    intro it' hit'
    rcases List.mem_cons.mp hit' with rfl | hmem
    · exact hurls
    · exact h.unpinned it' hmem
  lookup := by
    intro k
    have hmem : k ∈ (it :: done).map Prod.fst ↔ k = it.1 ∨ k ∈ done.map Prod.fst := List.mem_cons
    rw [h.lookup, lookup_deleteStreamReq]
    by_cases hk : k = it.1
    · rw [if_pos hk, ite_self, if_pos (hmem.mpr (Or.inl hk))]
    · rw [if_neg hk]
      exact if_congr (hmem.trans (or_iff_right hk)).symm rfl rfl
  passed := fun hp => by rw [h.passed hp]

/-- The loops end, whatever fails. -/
theorem collect_loop (e : Collection K cfg) (reqs : List (Item K)) :
    ∀ T : Table K, ∃ done p' T',
      e.Ends ceramicConnections (.next ceramicConnections reqs) T p' T' ∧
      e.Takes ceramicConnections T reqs done p' T' := by
  induction reqs with
  | nil =>
    intro T
    exact ⟨[], .passed, T, Client.Ends.ended rfl, .passed, List.nil_prefix, by simp, by simp,
      by simp⟩
  | cons it rest ih =>
    intro T
    rcases unpin_from e T it.1 rest ceramicConnections with ⟨err, hne, hends⟩ | ⟨hurls, hgo⟩
    · exact ⟨[], .failed err, T, hends, .nothing hne⟩
    · have hrequest : (GarbageCollect.deleting it.1 rest).request =
          some (.write (.deleteItem it.1)) := rfl
      rcases serve_delete e T it.1 with hserve | ⟨reply, err, T₁, hserve, herr, hT₁⟩
      · obtain ⟨done, p', T', hends, htakes⟩ := ih (deleteStreamReq it.1 T)
        refine ⟨it :: done, p', T', hgo p' T' (.call hrequest hserve ?_), .cons hurls htakes⟩
        exact hends
      · have hne := not_healthy_of_error hserve herr
        have hends : e.Ends ceramicConnections (.next ceramicConnections (it :: rest)) T
            (.failed (unexpected err)) T₁ := by
          refine hgo _ _ (.call hrequest hserve ?_)
          rw [GarbageCollect.resume_deleting_error herr]
          exact Collection.ends_failed _ T₁
        rcases hT₁ with rfl | rfl
        · exact ⟨[], _, _, hends, .nothing hne⟩
        · exact ⟨[it], _, _, hends, .cons hurls (.nothing hne)⟩

/-! ## Section 4: One execution -/

/-- What an execution does: it takes the records `done` from the table, each
    of them unpinned on every node. -/
structure Collection.Collects (e : Collection K cfg) (ceramicConnections : List String)
    (T : Table K) (done : List (Item K)) (p' : GarbageCollect K) (T' : Table K) : Prop where
  ended : e.Ended p'
  isPrefix : done <+: e.expiredRecords T
  unpinned : ∀ it ∈ done, ∀ url ∈ ceramicConnections, ¬ e.Refuses url it.1
  lookup : ∀ k, T'.lookup k = if k ∈ done.map Prod.fst then none else T.lookup k
  passed : p' = .passed → done.length < MAX_SCAN_RESULTS → done = e.expiredRecords T

/-- Every execution ends. -/
theorem execution_collects (e : Collection K cfg) (ceramicConnections : List String)
    (T : Table K) : ∃ done p' T',
      e.Ends ceramicConnections (.start cfg ceramicConnections e.now) T p' T' ∧
      e.Collects ceramicConnections T done p' T' := by
  rcases fetch_start e T with ⟨err, hne, hends⟩ | ⟨reqs, hfetch, hgo⟩
  · exact ⟨[], .failed err, T, hends, .failed err hne, List.nil_prefix, by simp, by simp, by simp⟩
  · obtain ⟨done, p', T', hends, htakes⟩ := collect_loop e reqs T
    refine ⟨done, p', T', hgo p' T' hends, htakes.ended,
      htakes.isPrefix.trans hfetch.isPrefix, htakes.unpinned, htakes.lookup, ?_⟩
    intro hp hfew
    rw [htakes.passed hp] at hfew ⊢
    exact hfetch.whole hfew

theorem mem_expiredRecords {T : Table K} {it : Item K} :
    it ∈ e.expiredRecords T ↔ T.lookup it.1 = some it.2 ∧ createdBefore e.limit it.2 = true := by
  unfold Collection.expiredRecords matchingRecords
  rw [List.mem_filter, mem_records]

theorem expiredRecords_sorted (e : Collection K cfg) (T : Table K) :
    (e.expiredRecords T).Pairwise fun a b => e.ord.lt a.1 b.1 :=
  (records_lists e.ord T).sorted.filter _

/-- The streams whose records have expired. -/
def expired (limit : Int) (T : Table K) : Finset K :=
  T.keys.filter fun k => (T.lookup k).any (createdBefore limit) = true

theorem mem_expired {limit : Int} {T : Table K} {k : K} :
    k ∈ expired limit T ↔ ∃ r, T.lookup k = some r ∧ createdBefore limit r = true := by
  unfold expired
  rw [Finset.mem_filter, Finmap.mem_keys, Option.any_eq_true]
  constructor
  · intro ⟨_, r, hr, hf⟩
    exact ⟨r, hr, hf⟩
  · intro ⟨r, hr, hf⟩
    exact ⟨Finmap.mem_of_lookup_eq_some hr, r, hr, hf⟩

theorem expired_mono {limit limit' : Int} (hle : limit ≤ limit') (T : Table K) :
    expired limit T ⊆ expired limit' T := by
  intro k hk
  obtain ⟨r, hr, hf⟩ := mem_expired.mp hk
  exact mem_expired.mpr ⟨r, hr, createdBefore_mono hle hf⟩

section collects

variable {T T' : Table K} {done : List (Item K)} {p' : GarbageCollect K}

/-- Only expired records are taken. -/
theorem Collection.Collects.only_expired (h : e.Collects ceramicConnections T done p' T') (k : K) :
    T'.lookup k = T.lookup k ∨ T'.lookup k = none ∧ k ∈ expired e.limit T := by
  rw [h.lookup]
  split
  · rename_i hk
    obtain ⟨it, hit, rfl⟩ := List.mem_map.mp hk
    exact Or.inr ⟨rfl, mem_expired.mpr ⟨it.2, mem_expiredRecords.mp (h.isPrefix.subset hit)⟩⟩
  · exact Or.inl rfl

/-- A stream that stays on one node keeps its record, and so does every
    stream that comes after it. -/
theorem Collection.Collects.blocked (h : e.Collects ceramicConnections T done p' T')
    {url : String} {streamId k : K} (hurl : url ∈ ceramicConnections)
    (hrefuses : e.Refuses url streamId) (hexpired : streamId ∈ expired e.limit T)
    (hk : ¬ e.ord.lt k streamId) : T'.lookup k = T.lookup k := by
  rw [h.lookup]
  apply if_neg
  intro hmem
  obtain ⟨it, hit, rfl⟩ := List.mem_map.mp hmem
  obtain ⟨r, hr⟩ := mem_expired.mp hexpired
  have hfetched : (streamId, r) ∈ e.expiredRecords T := mem_expiredRecords.mpr hr
  obtain ⟨rest, hrest⟩ := h.isPrefix
  have hsorted := expiredRecords_sorted e T
  rw [← hrest] at hfetched hsorted
  -- its request was fetched, and not among those that were taken
  rcases List.mem_append.mp hfetched with hdone | hleft
  · exact h.unpinned _ hdone url hurl hrefuses
  · exact hk ((List.pairwise_append.mp hsorted).2.2 it hit _ hleft)

theorem Collection.Collects.expired_eq (h : e.Collects ceramicConnections T done p' T')
    (limit : Int) : expired limit T' = expired limit T \ (done.map Prod.fst).toFinset := by
  ext k
  rw [Finset.mem_sdiff, List.mem_toFinset, mem_expired, mem_expired, h.lookup]
  by_cases hk : k ∈ done.map Prod.fst
  · simp [hk]
  · simp [hk]

/-- An execution that passes leaves nothing expired, or takes as many records
    as a fetch may return. -/
theorem Collection.Collects.drains (h : e.Collects ceramicConnections T done .passed T')
    {limit : Int} (hle : e.limit ≤ limit) :
    expired e.limit T' = ∅ ∨
      (expired limit T').card + MAX_SCAN_RESULTS ≤ (expired limit T).card := by
  rcases Nat.lt_or_ge done.length MAX_SCAN_RESULTS with hfew | hmany
  · left
    rw [h.expired_eq, Finset.sdiff_eq_empty_iff_subset]
    intro k hk
    obtain ⟨r, hr⟩ := mem_expired.mp hk
    have hfetched : (k, r) ∈ e.expiredRecords T := mem_expiredRecords.mpr hr
    rw [List.mem_toFinset, h.passed rfl hfew]
    exact List.mem_map_of_mem hfetched
  · right
    have hnodup : (done.map Prod.fst).Nodup := by
      let _ := e.ord
      rw [List.Nodup, List.pairwise_map]
      exact ((expiredRecords_sorted e T).sublist h.isPrefix.sublist).imp ne_of_lt
    have hsub : (done.map Prod.fst).toFinset ⊆ expired limit T := by
      intro k hk
      obtain ⟨it, hit, rfl⟩ := List.mem_map.mp (List.mem_toFinset.mp hk)
      exact expired_mono hle T
        (mem_expired.mpr ⟨it.2, mem_expiredRecords.mp (h.isPrefix.subset hit)⟩)
    have hcard : (done.map Prod.fst).toFinset.card = done.length := by
      rw [List.toFinset_card_of_nodup hnodup, List.length_map]
    rw [h.expired_eq, Finset.card_sdiff_of_subset hsub, hcard]
    have hle := Finset.card_le_card hsub
    omega

end collects

/-! ## Section 5: Successive executions -/

section passes

omit [DecidableEq K]

def GarbageCollect.hasPassed : GarbageCollect K → Bool
  | .passed => true
  | _ => false

/-- How many of the first `m` executions have passed. -/
def passes (states : Nat → GarbageCollect K) (m : Nat) : Nat :=
  (List.range m).countP fun i => (states i).hasPassed

theorem passes_succ (states : Nat → GarbageCollect K) (m : Nat) :
    passes states (m + 1) = passes states m + if (states m).hasPassed then 1 else 0 := by
  simp [passes, List.range_succ, List.countP_append, List.countP_singleton]

end passes

/-- Successive executions: each starts with the table the last one left. -/
structure Collections (executions : Nat → Collection K cfg) (ceramicConnections : List String)
    (T₀ : Table K) (tables : Nat → Table K) (states : Nat → GarbageCollect K) : Prop where
  first : tables 0 = T₀
  ends : ∀ i, (executions i).Ends ceramicConnections
    (.start cfg ceramicConnections (executions i).now) (tables i) (states i) (tables (i + 1))

/-- What repeated executions get done. -/
structure Drained (executions : Nat → Collection K cfg) (ceramicConnections : List String)
    (T₀ : Table K) (tables : Nat → Table K) (states : Nat → GarbageCollect K) : Prop where
  only_expired : ∀ i k, (tables (i + 1)).lookup k = (tables i).lookup k ∨
    (tables (i + 1)).lookup k = none ∧ k ∈ expired (executions i).limit (tables i)
  healthy : ∀ i, (executions i).Healthy → states i = .passed
  blocked : ∀ i url streamId k, url ∈ ceramicConnections →
    (executions i).Refuses url streamId → streamId ∈ expired (executions i).limit (tables i) →
    ¬ (executions i).ord.lt k streamId → (tables (i + 1)).lookup k = (tables i).lookup k
  drained : ∀ m, (expired (executions m).limit T₀).card ≤ MAX_SCAN_RESULTS * passes states m →
    expired (executions 0).limit (tables m) = ∅

section collections

variable {executions : Nat → Collection K cfg} {T₀ : Table K} {tables : Nat → Table K}
  {states : Nat → GarbageCollect K}

theorem Collections.collects (h : Collections executions ceramicConnections T₀ tables states)
    (i : Nat) : ∃ done, (executions i).Collects ceramicConnections (tables i) done (states i)
      (tables (i + 1)) := by
  obtain ⟨done, p', T', hends, hcollects⟩ :=
    execution_collects (executions i) ceramicConnections (tables i)
  obtain ⟨hp, hT⟩ := (h.ends i).unique hends
  rw [hp, hT]
  exact ⟨done, hcollects⟩

/-- What has expired when the first execution begins is gone, or each one that
    has passed has taken as much as it can. -/
theorem Collections.progress (h : Collections executions ceramicConnections T₀ tables states)
    {limit : Int} (hfirst : ∀ i, (executions 0).limit ≤ (executions i).limit) {m : Nat}
    (hlast : ∀ i, i < m → (executions i).limit ≤ limit) :
    expired (executions 0).limit (tables m) = ∅ ∨
      (expired limit (tables m)).card + MAX_SCAN_RESULTS * passes states m ≤
        (expired limit T₀).card := by
  induction m with
  | zero =>
    right
    rw [h.first]
    simp [passes]
  | succ m ih =>
    obtain ⟨done, hcollects⟩ := h.collects m
    have hsub : ∀ l, expired l (tables (m + 1)) ⊆ expired l (tables m) := by
      intro l
      rw [hcollects.expired_eq]
      exact Finset.sdiff_subset
    rcases ih fun i hi => hlast i (by omega) with hgone | hcount
    · left
      exact Finset.subset_empty.mp (hgone ▸ hsub _)
    · rw [passes_succ]
      cases hstate : states m with
      | passed =>
        rw [hstate] at hcollects
        rcases hcollects.drains (hlast m (by omega)) with hgone | htaken
        · left
          exact Finset.subset_empty.mp (hgone ▸ expired_mono (hfirst m) _)
        · right
          simp only [GarbageCollect.hasPassed, if_true, Nat.mul_add, Nat.mul_one]
          omega
      | _ =>
        right
        have hle := Finset.card_le_card (hsub limit)
        simp only [GarbageCollect.hasPassed, Bool.false_eq_true, if_false, Nat.add_zero]
        omega

theorem Collections.drained (h : Collections executions ceramicConnections T₀ tables states)
    (hclock : ∀ i j, i ≤ j → (executions i).now ≤ (executions j).now) :
    Drained executions ceramicConnections T₀ tables states := by
  have hlimit : ∀ i j, i ≤ j → (executions i).limit ≤ (executions j).limit :=
    fun i j hij => Int.sub_le_sub_right (hclock i j hij) _
  refine ⟨?_, ?_, ?_, ?_⟩
  · intro i k
    obtain ⟨done, hcollects⟩ := h.collects i
    exact hcollects.only_expired k
  · intro i hhealthy
    obtain ⟨done, hcollects⟩ := h.collects i
    exact hcollects.ended.of_healthy hhealthy
  · intro i url streamId k hurl hrefuses hexpired hk
    obtain ⟨done, hcollects⟩ := h.collects i
    exact hcollects.blocked hurl hrefuses hexpired hk
  · intro m hcount
    have hlast : ∀ i, i < m → (executions i).limit ≤ (executions m).limit :=
      fun i hi => hlimit i m (Nat.le_of_lt hi)
    rcases h.progress (fun i => hlimit 0 i (Nat.zero_le i)) hlast with hgone | htaken
    · exact hgone
    · -- nothing is left, even of what has expired since
      have hcard : (expired (executions m).limit (tables m)).card = 0 := by omega
      have hnone := Finset.card_eq_zero.mp hcard
      exact Finset.subset_empty.mp (hnone ▸ expired_mono (hlimit 0 m (Nat.zero_le m)) _)

theorem exists_collections (executions : Nat → Collection K cfg)
    (ceramicConnections : List String) (T₀ : Table K) :
    ∃ tables states, Collections executions ceramicConnections T₀ tables states := by
  have hstep : ∀ i T, ∃ p' T', (executions i).Ends ceramicConnections
      (.start cfg ceramicConnections (executions i).now) T p' T' := by
    intro i T
    obtain ⟨_, p', T', hends, _⟩ := execution_collects (executions i) ceramicConnections T
    exact ⟨p', T', hends⟩
  choose state table hends using hstep
  let tables : Nat → Table K := fun n => n.rec T₀ table
  exact ⟨tables, fun i => state i (tables i), rfl, fun i => hends i (tables i)⟩

end collections

/-- **Expired streams are collected in the end.** Executions follow each
    other over any table, any call of which may fail.

    - Each of them ends, and it passes if no call fails.
    - Each of them takes only records that have expired.
    - A stream that a node refuses to unpin keeps its record, and so do all
      that come after it in the order of the keys.
    - Once enough executions have passed, `MAX_SCAN_RESULTS` records for
      each, nothing is left of what had expired when the first one began. -/
theorem expired_streams_collected (executions : Nat → Collection K cfg)
    (ceramicConnections : List String) (T₀ : Table K)
    (hclock : ∀ i j, i ≤ j → (executions i).now ≤ (executions j).now) :
    (∃ tables states, Collections executions ceramicConnections T₀ tables states) ∧
    ∀ tables states, Collections executions ceramicConnections T₀ tables states →
      Drained executions ceramicConnections T₀ tables states :=
  ⟨exists_collections executions ceramicConnections T₀, fun _ _ h => h.drained hclock⟩

/-! ### A node that refuses a stream once -/

section refusedOnce

/-- The page with all records after the start key. -/
private def restOf (T : Table Nat) (args : ScanCommandInput Nat) : List (Item Nat) :=
  (records Nat.instLinearOrder T).filter fun it =>
    match args.exclusiveStartKey with
    | some key => decide (key < it.1)
    | none => true

private theorem mem_restOf {T : Table Nat} {args : ScanCommandInput Nat} {it : Item Nat} :
    it ∈ restOf T args ↔ T.lookup it.1 = some it.2 ∧
      Keyset.After Nat.instLinearOrder args.exclusiveStartKey it.1 := by
  rw [restOf, List.mem_filter, mem_records]
  refine and_congr_right fun _ => ?_
  cases args.exclusiveStartKey <;> simp [Keyset.After]

private def answers (refuses : String → Nat → Bool) (T : Table Nat) :
    Request Nat → Reply Nat × Table Nat
  | .scan args =>
    (.scanned ⟨some ((restOf T args).filter fun it => args.filterExpression it.2), none⟩, T)
  | .loadStream s => (.loaded ⟨s, .ANCHORED⟩ 0, T)
  | .pinRm url s => (if refuses url s then .error "ECONNREFUSED" else .done, T)
  | .write w => (.done, w.apply (Config.ofEnv none none) T)

private theorem answers_serves (refuses : String → Nat → Bool) (T : Table Nat)
    (request : Request Nat) (hlimit : ∀ args, request = .scan args → args.limit = none) :
    Serves (Config.ofEnv none none) Nat.instLinearOrder T request (answers refuses T request).1
      (answers refuses T request).2 := by
  cases request with
  | scan args =>
    refine ⟨rfl, Or.inl ⟨_, rfl, restOf T args, ⟨?_, ?_, ?_, ?_, ?_⟩, ?_, rfl⟩⟩
    · exact (records_lists Nat.instLinearOrder T).sorted.filter _
    · exact fun it hit => (mem_restOf.mp hit).2
    · exact fun it hit => (mem_restOf.mp hit).1
    · exact fun k r hr hk _ => mem_restOf.mpr ⟨hr, hk⟩
    · intro z hz
      cases hz
    · intro n hn
      rw [hlimit args rfl] at hn
      cases hn
  | loadStream s => exact ⟨rfl, Or.inl ⟨_, _, rfl⟩⟩
  | pinRm url s =>
    refine ⟨rfl, ?_⟩
    by_cases h : refuses url s
    · exact Or.inr (Or.inl ⟨"ECONNREFUSED", if_pos h⟩)
    · exact Or.inl (if_neg h)
  | write w => exact Or.inl ⟨rfl, Or.inl rfl⟩

/-- Three weeks after the streams 1 and 2 were stored. The node refuses to
    unpin stream 2 in the first execution. -/
private def threeWeeks (i : Nat) : Collection Nat (Config.ofEnv none none) where
  now := minutes (3 * 7 * 24 * 60)
  ord := Nat.instLinearOrder
  serve := answers fun _ s => i == 0 && s == 2
  serves := answers_serves _

private def twoExpired : Table Nat :=
  storeStreamReq (Config.ofEnv none none) 0 2 (storeStreamReq (Config.ofEnv none none) 0 1 ∅)

/-- The first execution leaves stream 2 alone, and after the second one
    nothing that has expired is left. -/
theorem refused_once_collected : ∃ tables states,
    Collections threeWeeks ["http://composedb-0"] twoExpired tables states ∧
    (tables 1).lookup 2 = twoExpired.lookup 2 ∧ states 1 = .passed ∧
    expired (threeWeeks 0).limit (tables 2) = ∅ := by
  obtain ⟨⟨tables, states, h⟩, hall⟩ := expired_streams_collected threeWeeks
    ["http://composedb-0"] twoExpired fun _ _ _ => le_refl _
  have hdrained := hall tables states h
  have hpassed : states 1 = .passed := by
    apply hdrained.healthy
    intro T request
    cases request <;> rfl
  have hexpired : 2 ∈ expired (threeWeeks 0).limit (tables 0) := by
    rw [h.first]
    decide
  have hblocked := hdrained.blocked 0 "http://composedb-0" 2 2 (by simp) (by intro T hT; cases hT)
    hexpired (Nat.lt_irrefl 2)
  rw [h.first] at hblocked
  have hpasses : 1 ≤ passes states 2 := by
    rw [passes_succ, hpassed]
    exact Nat.le_add_left 1 _
  have htwo : (expired (threeWeeks 2).limit twoExpired).card = 2 := by decide
  refine ⟨tables, states, h, hblocked, hpassed, hdrained.drained 2 ?_⟩
  rw [htwo]
  exact le_trans (by decide : 2 ≤ MAX_SCAN_RESULTS * 1) (Nat.mul_le_mul_left _ hpasses)

end refusedOnce

end Suite
