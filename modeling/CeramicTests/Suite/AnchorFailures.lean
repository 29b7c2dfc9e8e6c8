import CeramicTests.Suite.ConcurrentScan
import CeramicTests.Suite.SharedTable
import Mathlib.Data.Finset.Sort

/-! # Successive executions of the anchor check

    `test anchors` runs again and again over one table, with nothing else
    writing to it and every call succeeding. A request that has waited too
    long for its anchor makes an execution throw, and the execution deletes
    that request so that it does not fail the following ones.

    The proof follows one execution through its two phases:

    - the scan returns every unanchored request exactly once
      (`Enumerates`);
    - the loop over the requests marks those of `ANCHORED` streams up to
      the first failing one, which it deletes (`Passes`, `Throws`).

    Across executions the table is the first one less the set `D` of the
    requests deleted so far, and with some requests marked (`Progress`).
-/

namespace Suite

open Framework

variable {K : Type} [DecidableEq K]

/-! ## Section 1: The setting -/

/-- What may differ from one execution to the next: the order and the pages
    of the scan, and the clock at each load. -/
structure Execution (K : Type) [DecidableEq K] where
  ord : LinearOrder K
  scan : Table K → ScanCommandInput K → ScanCommandOutput K
  now : K → Int
  scan_reply : ∀ T args, args.limit = none → ScanReply ord T args (scan T args)

/-- Successive executions between which no status changes. -/
structure Setting (K : Type) [DecidableEq K] where
  cfg : Config
  loadStream : K → Doc K
  loadStream_id : ∀ s, (loadStream s).id = s
  execution : Nat → Execution K

variable (q : Setting K)

/-- The services in execution `i`: every call succeeds. -/
def serve (i : Nat) (T : Table K) : Request K → Reply K × Table K
  | .scan args => (.scanned ((q.execution i).scan T args), T)
  | .loadStream s => (.loaded (q.loadStream s) ((q.execution i).now s), T)
  | .pinRm _ _ => (.done, T)
  | .write w => (.done, w.apply q.cfg T)

/-- The request has waited for at least the anchor interval. -/
def timedOut (cfg : Config) (now : Int) (r : StreamReq) : Bool :=
  match r.creation with
  | some creation => decide (cfg.anchorInterval ≤ AnchorCheck.delta now creation)
  | none => false

def isAnchored (s : K) : Prop := (q.loadStream s).anchorStatus = .ANCHORED

instance (s : K) : Decidable (isAnchored q s) :=
  inferInstanceAs (Decidable (_ = _))

/-- Execution `i` would throw at the unanchored request `r` of stream `s`. -/
def fails (i : Nat) (s : K) (r : StreamReq) : Bool :=
  decide (¬ isAnchored q s) && timedOut q.cfg ((q.execution i).now s) r

def unanchored (T : Table K) : Finset K :=
  T.keys.filter fun s => (T.lookup s).any (anchoredIs false) = true

/-- The unanchored requests that have failed to be anchored in time. -/
def failing (T : Table K) : Finset K :=
  (unanchored T).filter fun s => (T.lookup s).any (fails q 0 s) = true

/-- No deadline of an unanchored request passes between the executions. -/
def NoDeadline (T : Table K) : Prop :=
  ∀ i s r, T.lookup s = some r → anchoredIs false r = true →
    timedOut q.cfg ((q.execution i).now s) r = timedOut q.cfg ((q.execution 0).now s) r

/-- Every unanchored request has the creation time that the check reads. -/
def CreationKnown (T : Table K) : Prop :=
  ∀ s r, T.lookup s = some r → anchoredIs false r = true → r.creation.isSome = true

variable {q}

theorem WellKept.creationKnown {T : Table K} (h : WellKept T) : CreationKnown T := by
  intro s r hr hu
  rcases h s r hr with ht | hc
  · unfold anchoredIs at hu
    rw [ht] at hu
    exact absurd hu (by decide)
  · exact hc.1

theorem WellKept.anchored_ne_none {T : Table K} (h : WellKept T) {s : K} {r : StreamReq}
    (hr : T.lookup s = some r) : r.anchored ≠ none := by
  intro hnone
  rcases h s r hr with ht | hc
  · rw [hnone] at ht
    cases ht
  · have hsome := hc.2.2
    rw [hnone] at hsome
    cases hsome

/-- The services of an execution are among those of the shared table. -/
theorem serve_serves (i : Nat) (T : Table K) {request : Request K}
    (hlimit : ∀ args, request = .scan args → args.limit = none) :
    Serves q.cfg (q.execution i).ord T request (serve q i T request).1
      (serve q i T request).2 := by
  cases request with
  | scan args =>
    exact ⟨rfl, Or.inl ⟨_, rfl, (q.execution i).scan_reply T args (hlimit args rfl)⟩⟩
  | loadStream s => exact ⟨rfl, Or.inl ⟨_, _, rfl⟩⟩
  | pinRm url s => exact ⟨rfl, Or.inl rfl⟩
  | write w => exact Or.inl ⟨rfl, Or.inl rfl⟩

theorem mem_unanchored {T : Table K} {s : K} :
    s ∈ unanchored T ↔ ∃ r, T.lookup s = some r ∧ anchoredIs false r = true := by
  unfold unanchored
  rw [Finset.mem_filter, Finmap.mem_keys, Option.any_eq_true]
  constructor
  · rintro ⟨_, r, hr, hf⟩
    exact ⟨r, hr, hf⟩
  · rintro ⟨r, hr, hf⟩
    exact ⟨Finmap.mem_of_lookup_eq_some hr, r, hr, hf⟩

theorem mem_failing {T : Table K} {s : K} :
    s ∈ failing q T ↔
      ∃ r, T.lookup s = some r ∧ anchoredIs false r = true ∧ fails q 0 s r = true := by
  unfold failing
  rw [Finset.mem_filter, mem_unanchored, Option.any_eq_true]
  constructor
  · rintro ⟨⟨r, hr, hu⟩, r', hr', hf⟩
    rw [hr, Option.some.injEq] at hr'
    subst hr'
    exact ⟨r, hr, hu, hf⟩
  · rintro ⟨r, hr, hu, hf⟩
    exact ⟨⟨r, hr, hu⟩, r, hr, hf⟩

/-- A deadline that has passed makes a request time out, and only one that
    passes within the second makes it time out too early. -/
theorem timedOut_of_old {cfg : Config} {now creation : Int} {r : StreamReq}
    (hr : r.creation = some creation) (h0 : 0 ≤ creation)
    (hold : cfg.anchorInterval ≤ now - creation) : timedOut cfg now r = true := by
  unfold timedOut AnchorCheck.delta
  rw [hr]
  apply decide_eq_true
  rw [Int.tdiv_eq_ediv_of_nonneg h0]
  omega

theorem old_of_timedOut {cfg : Config} {now creation : Int} {r : StreamReq}
    (hr : r.creation = some creation) (h0 : 0 ≤ creation)
    (h : timedOut cfg now r = true) : cfg.anchorInterval < now - creation + 1000 := by
  unfold timedOut AnchorCheck.delta at h
  rw [hr] at h
  have h := of_decide_eq_true h
  rw [Int.tdiv_eq_ediv_of_nonneg h0] at h
  omega

/-! ## Section 2: Marking requests -/

variable (q) in
/-- `T'` is `T` with some of the unanchored requests of `ANCHORED` streams
    marked. -/
def Marked (T T' : Table K) : Prop :=
  ∀ s, T'.lookup s = T.lookup s ∨
    (isAnchored q s ∧ ∃ r, T.lookup s = some r ∧ r.anchored = some false ∧
      T'.lookup s = some { r with anchored := some true })

theorem Marked.refl (T : Table K) : Marked q T T := fun _ => Or.inl rfl

theorem Marked.trans {T T₁ T₂ : Table K} (h₁ : Marked q T T₁) (h₂ : Marked q T₁ T₂) :
    Marked q T T₂ := by
  intro s
  rcases h₁ s with he₁ | ⟨ha, r, hr, hf, he₁⟩
  · rw [← he₁]
    exact h₂ s
  · right
    refine ⟨ha, r, hr, hf, ?_⟩
    rcases h₂ s with he₂ | ⟨_, r', hr', hf', _⟩
    · rw [he₂, he₁]
    · -- a request is marked once only
      rw [he₁, Option.some.injEq] at hr'
      rw [← hr'] at hf'
      simp at hf'

theorem Marked.mark {T : Table K} {s : K} {r : StreamReq} (hs : isAnchored q s)
    (hr : T.lookup s = some r) (hf : r.anchored = some false) :
    Marked q T (markStreamReqAsAnchored s T) := by
  intro k
  rw [lookup_markStreamReqAsAnchored]
  by_cases hk : k = s
  · right
    rw [hk, if_pos rfl, itemOrNew_of_lookup hr]
    exact ⟨hs, r, hr, hf, rfl⟩
  · rw [if_neg hk]
    exact Or.inl rfl

/-- A request of a stream that is not `ANCHORED` is left as it is. -/
theorem Marked.lookup_of_not_anchored {T T' : Table K} (h : Marked q T T') {s : K}
    (hs : ¬ isAnchored q s) : T'.lookup s = T.lookup s := by
  rcases h s with he | ⟨ha, _⟩
  · exact he
  · exact absurd ha hs

/-- So is a request that was marked before. -/
theorem Marked.lookup_of_marked {T T' : Table K} (h : Marked q T T') {s : K} {r : StreamReq}
    (hr : T.lookup s = some r) (ht : r.anchored = some true) : T'.lookup s = some r := by
  rcases h s with he | ⟨_, r', hr', hf, _⟩
  · rw [he]
    exact hr
  · rw [hr, Option.some.injEq] at hr'
    rw [hr', hf] at ht
    exact absurd ht (by decide)

/-! ## Section 3: The loop over the requests -/

/-- The outcome of a loop over `rest` without a failing request. -/
structure Passes (q : Setting K) (i : Nat) (rest : List (Item K)) (T : Table K)
    (out : Client.Outcome (AnchorCheck K) (Table K)) : Prop where
  state : out.state = .passed
  none_fails : ∀ it ∈ rest, fails q i it.1 it.2 = false
  stores : ∀ X ∈ out.stores, Marked q T X
  db : Marked q T out.db
  marks : ∀ it ∈ rest, isAnchored q it.1 →
    ∃ r, out.db.lookup it.1 = some r ∧ r.anchored = some true

/-- The outcome of a loop that meets a failing request. -/
structure Throws (q : Setting K) (i : Nat) (rest : List (Item K)) (T : Table K)
    (out : Client.Outcome (AnchorCheck K) (Table K)) : Prop where
  state : ∃ err, out.state = .failed err
  db : ∃ it ∈ rest, fails q i it.1 it.2 = true ∧
    ∃ T₁, Marked q T T₁ ∧ out.db = deleteStreamReq it.1 T₁
  stores : ∀ X ∈ out.stores, Marked q T X ∨ X = out.db

/-- The requests that the loop still has to look at, as the table has them. -/
structure Pending (rest : List (Item K)) (T : Table K) : Prop where
  nodup : (rest.map Prod.fst).Nodup
  lookup : ∀ it ∈ rest, T.lookup it.1 = some it.2
  unanchored : ∀ it ∈ rest, it.2.anchored = some false
  created : ∀ it ∈ rest, it.2.creation.isSome = true

theorem Pending.tail {it : Item K} {rest : List (Item K)} {T : Table K}
    (h : Pending (it :: rest) T) : Pending rest T where
  nodup := (List.nodup_cons.mp h.nodup).2
  lookup := fun it' h' => h.lookup it' (List.mem_cons_of_mem _ h')
  unanchored := fun it' h' => h.unanchored it' (List.mem_cons_of_mem _ h')
  created := fun it' h' => h.created it' (List.mem_cons_of_mem _ h')

/-- Marking the request at the head leaves the others as they were. -/
theorem Pending.mark_head {it : Item K} {rest : List (Item K)} {T : Table K}
    (h : Pending (it :: rest) T) : Pending rest (markStreamReqAsAnchored it.1 T) := by
  refine { h.tail with lookup := ?_ }
  intro it' hit'
  have hne : it'.1 ≠ it.1 := by
    intro heq
    have hmem : it.1 ∈ rest.map Prod.fst := heq ▸ List.mem_map_of_mem hit'
    exact (List.nodup_cons.mp h.nodup).1 hmem
  rw [lookup_markStreamReqAsAnchored, if_neg hne]
  exact h.tail.lookup it' hit'

/-- What the loop body does with the loaded request, in its three cases. -/
theorem checkReq_cases (i : Nat) (it : Item K) (rest : List (Item K))
    (hcreated : it.2.creation.isSome = true) :
    (isAnchored q it.1 ∧
      AnchorCheck.checkReq q.cfg it rest (q.loadStream it.1) ((q.execution i).now it.1) =
        .marking it.1 rest) ∨
    (fails q i it.1 it.2 = true ∧ ∃ err,
      AnchorCheck.checkReq q.cfg it rest (q.loadStream it.1) ((q.execution i).now it.1) =
        .deleting it.1 err) ∨
    (¬ isAnchored q it.1 ∧ fails q i it.1 it.2 = false ∧
      AnchorCheck.checkReq q.cfg it rest (q.loadStream it.1) ((q.execution i).now it.1) =
        AnchorCheck.next rest) := by
  rcases AnchorCheck.checkReq_cases q.cfg it rest (q.loadStream it.1) ((q.execution i).now it.1) with
    ⟨hnone, _⟩ | ⟨creation, hc, hcases⟩
  · rw [hnone] at hcreated
    cases hcreated
  · have hlate : timedOut q.cfg ((q.execution i).now it.1) it.2 =
        decide (q.cfg.anchorInterval ≤ AnchorCheck.delta ((q.execution i).now it.1) creation) := by
      unfold timedOut
      rw [hc]
    unfold fails
    rw [hlate]
    rw [q.loadStream_id] at hcases
    rcases hcases with ⟨ha, hcheck⟩ | ⟨ha, hd, err, hcheck⟩ | ⟨ha, hd, hcheck⟩
    · left
      exact ⟨ha, hcheck⟩
    · right
      left
      exact ⟨by simp [isAnchored, ha, hd], err, hcheck⟩
    · right
      right
      exact ⟨ha, by simp [not_le.mpr hd], hcheck⟩

/-- A failing stream is not `ANCHORED`. -/
theorem not_anchored_of_fails {i : Nat} {s : K} {r : StreamReq} (h : fails q i s r = true) :
    ¬ isAnchored q s := by
  unfold fails at h
  simp only [Bool.and_eq_true, decide_eq_true_eq] at h
  exact h.1

/-- The loop at its first request: it is loaded, and the loop body decides. -/
theorem drives_load {i : Nat} {it : Item K} {rest : List (Item K)} {T : Table K}
    {out : Client.Outcome (AnchorCheck K) (Table K)}
    (hout : (AnchorCheck.client q.cfg).Drives (serve q i)
      (AnchorCheck.checkReq q.cfg it rest (q.loadStream it.1) ((q.execution i).now it.1)) T out) :
    (AnchorCheck.client q.cfg).Drives (serve q i) (AnchorCheck.next (it :: rest)) T
      (out.after T) :=
  Client.Drives.step (r := Request.loadStream it.1) rfl rfl hout

/-- A request of a stream that was anchored in time: it is marked, and the
    loop goes on. -/
theorem drives_marking {i : Nat} {s : K} {rest : List (Item K)} {T : Table K}
    {out : Client.Outcome (AnchorCheck K) (Table K)}
    (hout : (AnchorCheck.client q.cfg).Drives (serve q i) (AnchorCheck.next rest)
      (markStreamReqAsAnchored s T) out) :
    (AnchorCheck.client q.cfg).Drives (serve q i) (.marking s rest) T
      (out.after (markStreamReqAsAnchored s T)) :=
  Client.Drives.step (r := Request.write (.updateItem s)) rfl rfl hout

/-- A failing request: it is deleted, and the execution throws. -/
theorem drives_deleting (i : Nat) (s : K) (T : Table K) (err : String) :
    (AnchorCheck.client q.cfg).Drives (serve q i) (.deleting s err) T
      ⟨.failed err, deleteStreamReq s T, [deleteStreamReq s T]⟩ := by
  have hfailed : (AnchorCheck.client q.cfg).Drives (serve q i) (.failed err)
      (deleteStreamReq s T) ⟨.failed err, deleteStreamReq s T, []⟩ :=
    Client.Drives.ended rfl
  have hserve : serve q i T (.write (.deleteItem s)) = (.done, deleteStreamReq s T) := rfl
  have hstep := Client.Drives.step (s := AnchorCheck.deleting s err) rfl hserve hfailed
  exact hstep

/-- A loop that passes still passes with a request at its head that is
    loaded and then not touched, or loaded and marked. -/
theorem Passes.cons {i : Nat} {it : Item K} {rest : List (Item K)} {T T' : Table K}
    {out out' : Client.Outcome (AnchorCheck K) (Table K)} (h : Passes q i rest T' out)
    (hmark : Marked q T T') (hok : fails q i it.1 it.2 = false)
    (hdone : isAnchored q it.1 → ∃ r, T'.lookup it.1 = some r ∧ r.anchored = some true)
    (hstate : out'.state = out.state) (hdb : out'.db = out.db)
    (hstores : ∀ X ∈ out'.stores, X = T ∨ X = T' ∨ X ∈ out.stores) :
    Passes q i (it :: rest) T out' := by
  refine ⟨hstate ▸ h.state, ?_, ?_, ?_, ?_⟩
  · intro it' hit'
    rcases List.mem_cons.mp hit' with rfl | hit'
    · exact hok
    · exact h.none_fails it' hit'
  · intro X hX
    rcases hstores X hX with rfl | rfl | hX
    · exact Marked.refl X
    · exact hmark
    · exact hmark.trans (h.stores X hX)
  · rw [hdb]
    exact hmark.trans h.db
  · intro it' hit' ha'
    rw [hdb]
    rcases List.mem_cons.mp hit' with rfl | hit'
    · obtain ⟨r, hr, ht⟩ := hdone ha'
      exact ⟨r, h.db.lookup_of_marked hr ht, ht⟩
    · exact h.marks it' hit' ha'

/-- And a loop that throws still throws. -/
theorem Throws.cons {i : Nat} {it : Item K} {rest : List (Item K)} {T T' : Table K}
    {out out' : Client.Outcome (AnchorCheck K) (Table K)} (h : Throws q i rest T' out)
    (hmark : Marked q T T') (hstate : out'.state = out.state) (hdb : out'.db = out.db)
    (hstores : ∀ X ∈ out'.stores, X = T ∨ X = T' ∨ X ∈ out.stores) :
    Throws q i (it :: rest) T out' := by
  obtain ⟨itf, hitf, hff, T₁, hT₁, hdel⟩ := h.db
  refine ⟨hstate ▸ h.state, ⟨itf, List.mem_cons_of_mem _ hitf, hff, T₁, hmark.trans hT₁, ?_⟩, ?_⟩
  · rw [hdb, hdel]
  · intro X hX
    rw [hdb]
    rcases hstores X hX with rfl | rfl | hX
    · exact Or.inl (Marked.refl X)
    · exact Or.inl hmark
    · exact (h.stores X hX).imp_left hmark.trans

/-- The loop ends. Either no request fails and every anchored one is marked,
    or the first failing one is deleted. -/
theorem check_loop (i : Nat) (rest : List (Item K)) (T : Table K) (h : Pending rest T) :
    ∃ out, (AnchorCheck.client q.cfg).Drives (serve q i) (AnchorCheck.next rest) T out ∧
      (Passes q i rest T out ∨ Throws q i rest T out) := by
  induction rest generalizing T with
  | nil =>
    refine ⟨⟨.passed, T, []⟩, Client.Drives.ended rfl, Or.inl ?_⟩
    exact ⟨rfl, by simp, by simp, Marked.refl T, by simp⟩
  | cons it rest ih =>
    have hlook := h.lookup it List.mem_cons_self
    rcases checkReq_cases i it rest (h.created it (List.mem_cons_self)) with
      ⟨ha, hcheck⟩ | ⟨hf, err, hcheck⟩ | ⟨ha, hf, hcheck⟩
    · -- the request is marked before the loop goes on
      let T' := markStreamReqAsAnchored it.1 T
      have hmark : Marked q T T' := Marked.mark ha hlook (h.unanchored it List.mem_cons_self)
      have hnew : T'.lookup it.1 = some { it.2 with anchored := some true } := by
        rw [lookup_markStreamReqAsAnchored, if_pos rfl, itemOrNew_of_lookup hlook]
      obtain ⟨out, hdrives, hout⟩ := ih T' h.mark_head
      refine ⟨(out.after T').after T, drives_load (hcheck ▸ drives_marking hdrives), ?_⟩
      have hstores : ∀ X ∈ ((out.after T').after T).stores, X = T ∨ X = T' ∨ X ∈ out.stores := by
        intro X hX
        simpa using hX
      rcases hout with hout | hout
      · exact Or.inl (hout.cons hmark (by simp [fails, ha]) (fun _ => ⟨_, hnew, rfl⟩) rfl rfl hstores)
      · exact Or.inr (hout.cons hmark rfl rfl hstores)
    · -- the request fails: it is deleted, and the loop is left
      refine ⟨_, drives_load (hcheck ▸ drives_deleting i it.1 T err), Or.inr ?_⟩
      refine ⟨⟨err, rfl⟩, ⟨it, List.mem_cons_self, hf, T, Marked.refl T, rfl⟩, ?_⟩
      intro X hX
      simp only [Client.Outcome.after_stores, List.mem_cons, List.not_mem_nil, or_false] at hX
      rcases hX with rfl | rfl
      · exact Or.inl (Marked.refl X)
      · exact Or.inr rfl
    · -- too early to say: the table stays as it is
      obtain ⟨out, hdrives, hout⟩ := ih T h.tail
      refine ⟨out.after T, drives_load (hcheck ▸ hdrives), ?_⟩
      have hstores : ∀ X ∈ (out.after T).stores, X = T ∨ X = T ∨ X ∈ out.stores := by
        intro X hX
        exact Or.inr (by simpa using hX)
      rcases hout with hout | hout
      · exact Or.inl (hout.cons (Marked.refl T) hf (fun ha' => absurd ha' ha) rfl rfl hstores)
      · exact Or.inr (hout.cons (Marked.refl T) rfl rfl hstores)

/-! ## Section 4: The scan -/

/-- `reqs` lists the unanchored requests of `T`, each once. -/
structure Enumerates (T : Table K) (reqs : List (Item K)) : Prop where
  nodup : (reqs.map Prod.fst).Nodup
  mem_iff : ∀ it, it ∈ reqs ↔ T.lookup it.1 = some it.2 ∧ anchoredIs false it.2 = true

/-- Everything the walk has read, it has read from `T`. -/
def ReadsFrom (T : Table K) (reads : List (Keyset.Read K StreamReq)) : Prop :=
  ∀ r ∈ reads, r.map = fun k => T.lookup k

theorem ReadsFrom.snoc {T : Table K} {reads : List (Keyset.Read K StreamReq)}
    (h : ReadsFrom T reads) (page : List (Item K)) :
    ReadsFrom T (reads ++ [⟨fun k => T.lookup k, page⟩]) := by
  intro r hr
  rcases List.mem_append.mp hr with hr | hr
  · exact h r hr
  · rw [List.mem_singleton.mp hr]

section walk

variable {ord : LinearOrder K} {T : Table K} {reads : List (Keyset.Read K StreamReq)}
  {p : Keyset.Position K}

theorem lookup_of_mem_matching (hw : Keyset.Walk ord reads p) (hT : ReadsFrom T reads)
    {it : Item K} (hit : it ∈ matching (anchoredIs false) reads) :
    T.lookup it.1 = some it.2 ∧ anchoredIs false it.2 = true := by
  obtain ⟨hcol, hf⟩ := List.mem_filter.mp hit
  obtain ⟨r, hr, hpage⟩ := List.mem_flatMap.mp hcol
  have hpresent := hw.present r hr it hpage
  rw [hT r hr] at hpresent
  exact ⟨hpresent, hf⟩

/-- A walk never collects more requests than the table has. -/
theorem length_matching_le (hw : Keyset.Walk ord reads p) (hT : ReadsFrom T reads) :
    (matching (anchoredIs false) reads).length ≤ (unanchored T).card := by
  have hsub : ((matching (anchoredIs false) reads).map Prod.fst).toFinset ⊆ unanchored T := by
    intro k hk
    obtain ⟨it, hit, rfl⟩ := List.mem_map.mp (List.mem_toFinset.mp hk)
    obtain ⟨hlook, hf⟩ := lookup_of_mem_matching hw hT hit
    exact mem_unanchored.mpr ⟨it.2, hlook, hf⟩
  calc (matching (anchoredIs false) reads).length
      = ((matching (anchoredIs false) reads).map Prod.fst).toFinset.card := by
        rw [List.toFinset_card_of_nodup (nodup_matching hw), List.length_map]
    _ ≤ (unanchored T).card := Finset.card_le_card hsub

/-- A finished walk over one table has collected all of it. -/
theorem enumerates_of_finished (hw : Keyset.Walk ord reads .finished) (hT : ReadsFrom T reads) :
    Enumerates T (matching (anchoredIs false) reads) := by
  refine ⟨nodup_matching hw, ?_⟩
  intro it
  constructor
  · exact lookup_of_mem_matching hw hT
  · rintro ⟨hlook, hf⟩
    have hstable : ∀ r ∈ reads, ∃ v, r.map it.1 = some v ∧ v = it.2 := by
      intro r hr
      exact ⟨it.2, by rw [hT r hr]; exact hlook, rfl⟩
    obtain ⟨v, hv, rfl⟩ := hw.complete hstable trivial
    exact List.mem_filter.mpr ⟨hv, hf⟩

end walk

/-- After the scan the check goes on with `reqs`, the table as it was. -/
def ContinuesWith (q : Setting K) (i : Nat) (T : Table K) (s : AnchorCheck K)
    (reqs : List (Item K)) : Prop :=
  ∀ out, (AnchorCheck.client q.cfg).Drives (serve q i) (AnchorCheck.next reqs) T out →
    ∃ out', (AnchorCheck.client q.cfg).Drives (serve q i) s T out' ∧
      out'.state = out.state ∧ out'.db = out.db ∧ ∀ X ∈ out'.stores, X = T ∨ X ∈ out.stores

theorem ContinuesWith.step {i : Nat} {T : Table K} {loop : ScanLoop K} {reqs : List (Item K)}
    {next : AnchorCheck K}
    (hnext : AnchorCheck.ofScan (loop.receive (.ok ((q.execution i).scan T loop.args))) = next)
    (h : ContinuesWith q i T next reqs) : ContinuesWith q i T (.fetching loop) reqs := by
  intro out hout
  obtain ⟨out', hdrives, hstate, hdb, hstores⟩ := h out hout
  have hserve : serve q i T (.scan loop.args) =
      (.scanned ((q.execution i).scan T loop.args), T) := rfl
  rw [← hnext] at hdrives
  refine ⟨out'.after T, Client.Drives.step rfl hserve hdrives, hstate, hdb, ?_⟩
  intro X hX
  rcases List.mem_cons.mp hX with rfl | hX
  · exact Or.inl rfl
  · exact hstores X hX

open Classical in
/-- The scan ends with the unanchored requests of the table. The measure is
    the number of keys that lie after the position of its walk. -/
theorem scan_phase_from {i : Nat} {T : Table K} (hfew : (unanchored T).card < MAX_SCAN_RESULTS)
    (n : Nat) : ∀ (reads : List (Keyset.Read K StreamReq)) (p : Keyset.Position K)
      (loop : ScanLoop K), Keyset.Walk (q.execution i).ord reads p → ReadsFrom T reads →
      AtPosition (anchoredIs false) reads p loop → loop.args.limit = none →
      (T.keys.filter (Keyset.After (q.execution i).ord p.cursor)).card ≤ n →
      ∃ reqs, Enumerates T reqs ∧ ContinuesWith q i T (.fetching loop) reqs := by
  induction n using Nat.strong_induction_on with
  | _ n ih =>
    intro reads p loop hw hT hat hlimit hcard
    obtain ⟨evaluated, hread, _, hitems⟩ := (q.execution i).scan_reply T loop.args hlimit
    rw [hat.filterExpression] at hitems
    rw [hat.exclusiveStartKey] at hread
    -- the page extends the walk
    let r : Keyset.Read K StreamReq := ⟨fun k => T.lookup k, evaluated⟩
    have hw' : Keyset.Walk (q.execution i).ord (reads ++ [r])
        (Keyset.Position.ofLast ((q.execution i).scan T loop.args).lastEvaluatedKey) :=
      .page hw hat.more hread
    have hT' : ReadsFrom T (reads ++ [r]) := hT.snoc evaluated
    have hagrees := agrees_receive (r := r) hat hitems
    -- there are too few requests for the loop to stop at its limit
    have hlen : (loop.results ++ (evaluated.filter fun it => anchoredIs false it.2)).length <
        MAX_SCAN_RESULTS := by
      have hle := length_matching_le hw' hT'
      rw [matching_snoc, ← hat.results] at hle
      exact lt_of_le_of_lt hle hfew
    rcases receive_page loop hitems with ⟨z, hlast, _, hnext⟩ | ⟨hstop, hret⟩
    · rw [hlast] at hw' hagrees hread
      rw [hnext] at hagrees
      have hkeys : ∀ k v, T.lookup k = some v → k ∈ T.keys :=
        fun k v hk => Finmap.mem_keys.mpr (Finmap.mem_of_lookup_eq_some hk)
      -- fewer keys are left after this page
      have hless := hread.card_after_lt hkeys
      obtain ⟨reqs, henum, hcont⟩ := ih _ (lt_of_lt_of_le hless hcard) (reads ++ [r]) (.upTo z)
        _ hw' hT' hagrees hlimit le_rfl
      exact ⟨reqs, henum, ContinuesWith.step (congrArg _ hnext) hcont⟩
    · -- the last page: the loop returns what the walk has matched
      have hlast := hstop.resolve_left (not_le.mpr hlen)
      rw [hret] at hagrees
      have hres : _ = matching (anchoredIs false) (reads ++ [r]) := hagrees
      rw [hlast] at hw'
      rw [hres] at hret
      refine ⟨_, enumerates_of_finished hw' hT', ContinuesWith.step (congrArg _ hret) ?_⟩
      intro out hout
      exact ⟨out, hout, rfl, rfl, fun X hX => Or.inr hX⟩

/-! ## Section 5: One execution -/

theorem Enumerates.pending {T : Table K} {reqs : List (Item K)} (h : Enumerates T reqs)
    (hcreated : CreationKnown T) : Pending reqs T where
  nodup := h.nodup
  lookup := fun it hit => ((h.mem_iff it).mp hit).1
  unanchored := by
    intro it hit
    have hf := ((h.mem_iff it).mp hit).2
    unfold anchoredIs at hf
    exact eq_of_beq hf
  created := by
    intro it hit
    obtain ⟨hlook, hf⟩ := (h.mem_iff it).mp hit
    exact hcreated it.1 it.2 hlook hf

/-- Every execution ends, in one of the two ways. -/
theorem execution (i : Nat) {T : Table K} (hcreated : CreationKnown T)
    (hfew : (unanchored T).card < MAX_SCAN_RESULTS) :
    ∃ reqs out, Enumerates T reqs ∧
      (AnchorCheck.client q.cfg).Drives (serve q i) AnchorCheck.start T out ∧
      (Passes q i reqs T out ∨ Throws q i reqs T out) := by
  have hstart : AtPosition (anchoredIs false) [] .start
      ⟨scanArgs (anchoredIs false), ([] : List (Item K)), none⟩ := ⟨rfl, rfl, rfl, by simp⟩
  obtain ⟨reqs, henum, hcont⟩ := scan_phase_from (q := q) (i := i) hfew _ [] .start _ .start
    (fun r hr => by simp at hr) hstart rfl le_rfl
  -- the scan hands its requests to the loop
  obtain ⟨out, hdrives, hout⟩ := check_loop i reqs T (henum.pending hcreated)
  obtain ⟨out', hdrives', hstate, hdb, hstores⟩ := hcont out hdrives
  refine ⟨reqs, out', henum, hdrives', ?_⟩
  rcases hout with hout | hout
  · left
    refine ⟨hstate ▸ hout.state, hout.none_fails, ?_, hdb ▸ hout.db, hdb ▸ hout.marks⟩
    intro X hX
    rcases hstores X hX with rfl | hX
    · exact Marked.refl X
    · exact hout.stores X hX
  · right
    refine ⟨hstate ▸ hout.state, hdb ▸ hout.db, ?_⟩
    intro X hX
    rw [hdb]
    rcases hstores X hX with rfl | hX
    · exact Or.inl (Marked.refl X)
    · exact hout.stores X hX

/-! ## Section 6: Successive executions -/

/-- The table after the requests of `D` were deleted and some requests of
    `ANCHORED` streams were marked. -/
structure Progress (q : Setting K) (T₀ : Table K) (D : Finset K) (T : Table K) : Prop where
  deleted : ∀ s ∈ D, T.lookup s = none
  kept : ∀ s, s ∉ D → T.lookup s = T₀.lookup s ∨
    (isAnchored q s ∧ ∃ r, T₀.lookup s = some r ∧ r.anchored = some false ∧
      T.lookup s = some { r with anchored := some true })

theorem Progress.refl (T₀ : Table K) : Progress q T₀ ∅ T₀ where
  deleted := by simp
  kept := fun _ _ => Or.inl rfl

theorem Progress.marked {T₀ T T' : Table K} {D : Finset K} (h : Progress q T₀ D T)
    (hm : Marked q T T') : Progress q T₀ D T' where
  deleted := by
    intro s hs
    have hnone := h.deleted s hs
    rcases hm s with he | ⟨_, r, hr, _⟩
    · rw [he, hnone]
    · -- a deleted request cannot be marked
      rw [hnone] at hr
      cases hr
  kept := by
    intro s hs
    rcases h.kept s hs with he | ⟨ha, r, hr, hf, he⟩
    · rw [← he]
      exact hm s
    · exact Or.inr ⟨ha, r, hr, hf, hm.lookup_of_marked he rfl⟩

theorem Progress.delete {T₀ T : Table K} {D : Finset K} (h : Progress q T₀ D T) (d : K) :
    Progress q T₀ (insert d D) (deleteStreamReq d T) where
  deleted := by
    intro s hs
    rw [lookup_deleteStreamReq]
    by_cases hsd : s = d
    · rw [if_pos hsd]
    · rw [if_neg hsd]
      exact h.deleted s (Finset.mem_of_mem_insert_of_ne hs hsd)
  kept := by
    intro s hs
    have hne : s ≠ d := fun heq => hs (heq ▸ Finset.mem_insert_self d D)
    rw [lookup_deleteStreamReq, if_neg hne]
    exact h.kept s (fun hD => hs (Finset.mem_insert_of_mem hD))

/-- An unanchored request is as it was at the beginning. -/
theorem Progress.lookup_of_unanchored {T₀ T : Table K} {D : Finset K}
    (h : Progress q T₀ D T) {s : K} {r : StreamReq} (hr : T.lookup s = some r)
    (hu : anchoredIs false r = true) : s ∉ D ∧ T₀.lookup s = some r := by
  have hs : s ∉ D := by
    intro hD
    rw [h.deleted s hD] at hr
    cases hr
  refine ⟨hs, ?_⟩
  rcases h.kept s hs with he | ⟨_, _, _, _, he⟩
  · rw [← he]
    exact hr
  · rw [hr, Option.some.injEq] at he
    rw [he] at hu
    simp [anchoredIs] at hu

/-- And so is a request of a stream that is not `ANCHORED`. -/
theorem Progress.lookup_of_not_anchored {T₀ T : Table K} {D : Finset K}
    (h : Progress q T₀ D T) {s : K} (hs : s ∉ D) (ha : ¬ isAnchored q s) :
    T.lookup s = T₀.lookup s := by
  rcases h.kept s hs with he | ⟨ha', _⟩
  · exact he
  · exact absurd ha' ha

theorem Progress.creationKnown {T₀ T : Table K} {D : Finset K} (h : Progress q T₀ D T)
    (hcreated : CreationKnown T₀) : CreationKnown T := by
  intro s r hr hu
  exact hcreated s r (h.lookup_of_unanchored hr hu).2 hu

/-- A record without the attribute `Anchored` is never marked. -/
theorem Progress.lookup_of_none {T₀ T : Table K} {D : Finset K} (h : Progress q T₀ D T)
    {s : K} {r : StreamReq} (hr : T.lookup s = some r) (hnone : r.anchored = none) :
    T₀.lookup s = some r := by
  have hs : s ∉ D := by
    intro hD
    rw [h.deleted s hD] at hr
    cases hr
  rcases h.kept s hs with he | ⟨_, _, _, _, he⟩
  · rw [← he]
    exact hr
  · rw [hr, Option.some.injEq] at he
    rw [he] at hnone
    cases hnone

theorem Progress.few {T₀ T : Table K} {D : Finset K} (h : Progress q T₀ D T) {n : Nat}
    (hfew : (unanchored T₀).card < n) : (unanchored T).card < n := by
  refine lt_of_le_of_lt (Finset.card_le_card ?_) hfew
  intro s hs
  obtain ⟨r, hr, hu⟩ := mem_unanchored.mp hs
  exact mem_unanchored.mpr ⟨r, (h.lookup_of_unanchored hr hu).2, hu⟩

theorem Progress.keys {T₀ T : Table K} {D : Finset K} (h : Progress q T₀ D T) :
    T.keys = T₀.keys \ D := by
  ext s
  rw [Finset.mem_sdiff, Finmap.mem_keys, Finmap.mem_keys, ← Finmap.lookup_isSome,
    ← Finmap.lookup_isSome]
  by_cases hs : s ∈ D
  · rw [h.deleted s hs]
    simp [hs]
  · rcases h.kept s hs with he | ⟨_, r, hr, _, he⟩
    · rw [he]
      simp [hs]
    · rw [he, hr]
      simp [hs]

/-- The requests at which an execution throws are the failing ones that
    are left. -/
theorem Progress.fails_iff {T₀ T : Table K} {D : Finset K} (h : Progress q T₀ D T)
    (hdeadline : NoDeadline q T₀) {reqs : List (Item K)} (henum : Enumerates T reqs)
    (i : Nat) (s : K) :
    (∃ it ∈ reqs, it.1 = s ∧ fails q i it.1 it.2 = true) ↔ s ∈ failing q T₀ ∧ s ∉ D := by
  have hsame : ∀ r, T₀.lookup s = some r → anchoredIs false r = true →
      fails q i s r = fails q 0 s r := by
    intro r hr hu
    unfold fails
    rw [hdeadline i s r hr hu]
  constructor
  · rintro ⟨it, hit, rfl, hf⟩
    obtain ⟨hlook, hu⟩ := (henum.mem_iff it).mp hit
    obtain ⟨hD, hlook₀⟩ := h.lookup_of_unanchored hlook hu
    rw [hsame it.2 hlook₀ hu] at hf
    exact ⟨mem_failing.mpr ⟨it.2, hlook₀, hu, hf⟩, hD⟩
  · rintro ⟨hs, hD⟩
    obtain ⟨r, hr, hu, hf⟩ := mem_failing.mp hs
    have hlook := h.lookup_of_not_anchored hD (not_anchored_of_fails hf)
    rw [hr] at hlook
    exact ⟨(s, r), (henum.mem_iff (s, r)).mpr ⟨hlook, hu⟩, rfl, by rw [hsame r hr hu]; exact hf⟩

/-- An execution that has nothing left to report passes; any other one
    throws and deletes one of the failing requests that are left. -/
structure Reports (q : Setting K) (T₀ : Table K) (D : Finset K) (T : Table K)
    (out : Client.Outcome (AnchorCheck K) (Table K)) : Prop where
  passes : failing q T₀ ⊆ D → out.state = .passed ∧ Progress q T₀ D out.db ∧
    ∀ s r, out.db.lookup s = some r → isAnchored q s →
      r.anchored = some true ∨ r.anchored = none ∧ T₀.lookup s = some r
  throws : ¬ failing q T₀ ⊆ D → (∃ err, out.state = .failed err) ∧
    ∃ d, d ∈ failing q T₀ ∧ d ∉ D ∧ Progress q T₀ (insert d D) out.db
  stores : ∀ X ∈ out.stores, Progress q T₀ D X ∨ X = out.db

/-- A pass leaves no request of an `ANCHORED` stream unanchored: it was in
    the list, and so it was marked. -/
theorem Passes.not_unanchored {i : Nat} {T : Table K} {reqs : List (Item K)}
    {out : Client.Outcome (AnchorCheck K) (Table K)} (h : Passes q i reqs T out)
    (henum : Enumerates T reqs) {s : K} {r : StreamReq} (hr : out.db.lookup s = some r)
    (ha : isAnchored q s) : r.anchored ≠ some false := by
  intro hf
  rcases h.db s with he | ⟨_, _, _, _, he⟩
  · -- as it was in the list
    rw [he] at hr
    obtain ⟨r', hr', ht⟩ := h.marks (s, r)
      ((henum.mem_iff (s, r)).mpr ⟨hr, by simp [anchoredIs, hf]⟩) ha
    rw [← he, hr', Option.some.injEq] at hr
    rw [← hr, ht] at hf
    exact absurd hf (by decide)
  · rw [hr, Option.some.injEq] at he
    rw [he] at hf
    simp at hf

theorem execution_reports {T₀ T : Table K} {D : Finset K} (hcreated : CreationKnown T₀)
    (hfew : (unanchored T₀).card < MAX_SCAN_RESULTS) (hdeadline : NoDeadline q T₀)
    (h : Progress q T₀ D T) (i : Nat) :
    ∃ out, (AnchorCheck.client q.cfg).Drives (serve q i) AnchorCheck.start T out ∧
      Reports q T₀ D T out := by
  obtain ⟨reqs, out, henum, hdrives, hout⟩ := execution i (h.creationKnown hcreated) (h.few hfew)
  refine ⟨out, hdrives, ?_⟩
  rcases hout with hout | hout
  · -- nothing failed, so nothing was left to report
    have hnone : failing q T₀ ⊆ D := by
      intro s hs
      by_contra hD
      obtain ⟨it, hit, _, hf⟩ := (h.fails_iff hdeadline henum i s).mpr ⟨hs, hD⟩
      rw [hout.none_fails it hit] at hf
      exact absurd hf (by decide)
    have hprog := h.marked hout.db
    refine ⟨?_, fun hmore => absurd hnone hmore, fun X hX => Or.inl (h.marked (hout.stores X hX))⟩
    intro _
    refine ⟨hout.state, hprog, ?_⟩
    intro s r hr ha
    rcases hb : r.anchored with _ | _ | _
    · exact Or.inr ⟨rfl, hprog.lookup_of_none hr hb⟩
    · exact absurd hb (hout.not_unanchored henum hr ha)
    · exact Or.inl rfl
  · obtain ⟨it, hit, hf, T₁, hT₁, hdb⟩ := hout.db
    -- the request that made it throw is one of those left
    obtain ⟨hfail, hD⟩ := (h.fails_iff hdeadline henum i it.1).mp ⟨it, hit, rfl, hf⟩
    refine ⟨fun hall => absurd (hall hfail) hD, ?_, ?_⟩
    · intro _
      refine ⟨hout.state, it.1, hfail, hD, ?_⟩
      rw [hdb]
      exact (h.marked hT₁).delete it.1
    · intro X hX
      exact (hout.stores X hX).imp_left h.marked

/-- Successive executions: each starts with the table the last one left. -/
structure Executions (q : Setting K) (T₀ : Table K) (tables : Nat → Table K)
    (outs : Nat → Client.Outcome (AnchorCheck K) (Table K)) : Prop where
  first : tables 0 = T₀
  drives : ∀ i, (AnchorCheck.client q.cfg).Drives (serve q i) AnchorCheck.start (tables i) (outs i)
  next : ∀ i, tables (i + 1) = (outs i).db

/-- Each of the failing requests is reported exactly once. -/
structure ReportedOnce (q : Setting K) (T₀ : Table K) (tables : Nat → Table K)
    (outs : Nat → Client.Outcome (AnchorCheck K) (Table K)) : Prop where
  throws : ∀ i, i < (failing q T₀).card → ∃ err, (outs i).state = .failed err
  deletes : ∃ d : Fin (failing q T₀).card → K, Function.Injective d ∧
    ∀ i, d i ∈ failing q T₀ ∧ d i ∈ (tables i).keys ∧
      (tables (i + 1)).keys = (tables i).keys.erase (d i)
  passes : ∀ i, (failing q T₀).card ≤ i →
    (outs i).state = .passed ∧ (tables (i + 1)).keys = (tables i).keys
  /-- A record that never had the attribute `Anchored` is not a request that
      any execution fetches. -/
  marks : ∀ i, (failing q T₀).card < i → ∀ s r, (tables i).lookup s = some r →
    isAnchored q s → r.anchored = some true ∨ r.anchored = none ∧ T₀.lookup s = some r
  unchanged : ∀ i s r, T₀.lookup s = some r → ¬ isAnchored q s →
    timedOut q.cfg ((q.execution 0).now s) r = false →
    ∀ X ∈ tables i :: (outs i).stores, X.lookup s = some r

variable {T₀ : Table K} {tables : Nat → Table K}
  {outs : Nat → Client.Outcome (AnchorCheck K) (Table K)}

/-- Before execution `i` the first `i` failing requests are gone, or all. -/
theorem Executions.progress (h : Executions q T₀ tables outs) (hcreated : CreationKnown T₀)
    (hfew : (unanchored T₀).card < MAX_SCAN_RESULTS) (hdeadline : NoDeadline q T₀) (i : Nat) :
    ∃ D ⊆ failing q T₀, D.card = min i (failing q T₀).card ∧ Progress q T₀ D (tables i) ∧
      Reports q T₀ D (tables i) (outs i) := by
  have hreports : ∀ i D, Progress q T₀ D (tables i) → Reports q T₀ D (tables i) (outs i) := by
    intro i D hprog
    obtain ⟨out, hdrives, hrep⟩ := execution_reports hcreated hfew hdeadline hprog i
    rw [(h.drives i).unique hdrives]
    exact hrep
  induction i with
  | zero =>
    have hprog : Progress q T₀ ∅ (tables 0) := by
      rw [h.first]
      exact Progress.refl T₀
    exact ⟨∅, Finset.empty_subset _, by simp, hprog, hreports 0 ∅ hprog⟩
  | succ i ih =>
    obtain ⟨D, hD, hcard, hprog, hrep⟩ := ih
    by_cases hall : failing q T₀ ⊆ D
    · -- all are reported, and the table stays within `Progress`
      obtain ⟨_, hprog', _⟩ := hrep.passes hall
      rw [← h.next i] at hprog'
      have hle := Finset.card_le_card hall
      exact ⟨D, hD, by omega, hprog', hreports (i + 1) D hprog'⟩
    · -- one more is reported and deleted
      obtain ⟨_, d, hd, hdD, hprog'⟩ := hrep.throws hall
      rw [← h.next i] at hprog'
      have hlt : D.card < (failing q T₀).card :=
        Finset.card_lt_card ⟨hD, hall⟩
      refine ⟨insert d D, Finset.insert_subset hd hD, ?_, hprog', hreports (i + 1) _ hprog'⟩
      rw [Finset.card_insert_of_notMem hdD]
      omega

theorem Executions.keys_succ_subset (h : Executions q T₀ tables outs) (hcreated : CreationKnown T₀)
    (hfew : (unanchored T₀).card < MAX_SCAN_RESULTS) (hdeadline : NoDeadline q T₀) (i : Nat) :
    (tables (i + 1)).keys ⊆ (tables i).keys := by
  obtain ⟨D, _, _, hprog, hrep⟩ := h.progress hcreated hfew hdeadline i
  rw [h.next i, hprog.keys]
  by_cases hall : failing q T₀ ⊆ D
  · rw [(hrep.passes hall).2.1.keys]
  · obtain ⟨_, d, _, _, hprog'⟩ := hrep.throws hall
    rw [hprog'.keys]
    exact Finset.sdiff_subset_sdiff (Finset.Subset.refl _) (Finset.subset_insert d D)

theorem Executions.keys_subset (h : Executions q T₀ tables outs) (hcreated : CreationKnown T₀)
    (hfew : (unanchored T₀).card < MAX_SCAN_RESULTS) (hdeadline : NoDeadline q T₀) {i j : Nat}
    (hij : i ≤ j) : (tables j).keys ⊆ (tables i).keys := by
  induction j, hij using Nat.le_induction with
  | base => exact Finset.Subset.refl _
  | succ j _ ih => exact (h.keys_succ_subset hcreated hfew hdeadline j).trans ih

/-- As long as requests are left to report, an execution throws and deletes
    one of them. -/
theorem Executions.throws_and_deletes (h : Executions q T₀ tables outs)
    (hcreated : CreationKnown T₀) (hfew : (unanchored T₀).card < MAX_SCAN_RESULTS)
    (hdeadline : NoDeadline q T₀) {i : Nat} (hi : i < (failing q T₀).card) :
    (∃ err, (outs i).state = .failed err) ∧ ∃ d, d ∈ failing q T₀ ∧ d ∈ (tables i).keys ∧
      (tables (i + 1)).keys = (tables i).keys.erase d := by
  obtain ⟨D, _, hcard, hprog, hrep⟩ := h.progress hcreated hfew hdeadline i
  -- fewer have been deleted than have failed
  have hmore : ¬ failing q T₀ ⊆ D := by
    intro hall
    have hle := Finset.card_le_card hall
    omega
  obtain ⟨hstate, d, hd, hdD, hprog'⟩ := hrep.throws hmore
  obtain ⟨r, hr, _⟩ := mem_failing.mp hd
  refine ⟨hstate, d, hd, ?_, ?_⟩
  · rw [hprog.keys, Finset.mem_sdiff, Finmap.mem_keys]
    exact ⟨Finmap.mem_of_lookup_eq_some hr, hdD⟩
  · rw [h.next i, hprog'.keys, hprog.keys, Finset.sdiff_insert]

/-- When all are reported, the executions pass, and mark what there is to
    mark. -/
theorem Executions.passes_and_marks (h : Executions q T₀ tables outs)
    (hcreated : CreationKnown T₀) (hfew : (unanchored T₀).card < MAX_SCAN_RESULTS)
    (hdeadline : NoDeadline q T₀) {i : Nat} (hi : (failing q T₀).card ≤ i) :
    (outs i).state = .passed ∧ (tables (i + 1)).keys = (tables i).keys ∧
      ∀ s r, (tables (i + 1)).lookup s = some r → isAnchored q s →
        r.anchored = some true ∨ r.anchored = none ∧ T₀.lookup s = some r := by
  obtain ⟨D, hD, hcard, hprog, hrep⟩ := h.progress hcreated hfew hdeadline i
  have hall : failing q T₀ ⊆ D := (Finset.eq_of_subset_of_card_le hD (by omega)).symm.subset
  obtain ⟨hstate, hprog', hmarks⟩ := hrep.passes hall
  rw [h.next i]
  exact ⟨hstate, by rw [hprog'.keys, hprog.keys], hmarks⟩

/-- A request that is neither `ANCHORED` nor late is never touched. -/
theorem Executions.unchanged (h : Executions q T₀ tables outs) (hcreated : CreationKnown T₀)
    (hfew : (unanchored T₀).card < MAX_SCAN_RESULTS) (hdeadline : NoDeadline q T₀) (i : Nat)
    {s : K} {r : StreamReq} (hr : T₀.lookup s = some r) (ha : ¬ isAnchored q s)
    (hlate : timedOut q.cfg ((q.execution 0).now s) r = false) :
    ∀ X ∈ tables i :: (outs i).stores, X.lookup s = some r := by
  -- it is none of those that are deleted
  have hok : s ∉ failing q T₀ := by
    intro hs
    obtain ⟨r', hr', _, hf⟩ := mem_failing.mp hs
    rw [hr, Option.some.injEq] at hr'
    unfold fails at hf
    rw [← hr', hlate, Bool.and_false] at hf
    exact absurd hf (by decide)
  have hsame : ∀ D X, D ⊆ failing q T₀ → Progress q T₀ D X → X.lookup s = some r := by
    intro D X hD hprog
    rw [hprog.lookup_of_not_anchored (fun hs => hok (hD hs)) ha]
    exact hr
  obtain ⟨D, hD, _, hprog, hrep⟩ := h.progress hcreated hfew hdeadline i
  intro X hX
  rcases List.mem_cons.mp hX with rfl | hX
  · exact hsame D _ hD hprog
  · rcases hrep.stores X hX with hX | rfl
    · exact hsame D X hD hX
    · -- the last of them is the table of the next execution
      rw [← h.next i]
      obtain ⟨D', hD', _, hprog', _⟩ := h.progress hcreated hfew hdeadline (i + 1)
      exact hsame D' _ hD' hprog'

omit [DecidableEq K] in
/-- Sets that only shrink never lose the same element twice. -/
theorem injective_of_lost {n : Nat} {F : Nat → Finset K} {d : Fin n → K}
    (hshrinks : ∀ i j, i ≤ j → F j ⊆ F i) (hmem : ∀ i : Fin n, d i ∈ F i)
    (hlost : ∀ i : Fin n, d i ∉ F (i + 1)) : Function.Injective d := by
  have hne : ∀ i j : Fin n, i < j → d i ≠ d j := by
    intro i j hij heq
    exact hlost i (heq ▸ hshrinks (i + 1) j hij (hmem j))
  intro i j heq
  rcases Nat.lt_trichotomy i.1 j.1 with hlt | heqv | hlt
  · exact absurd heq (hne i j hlt)
  · exact Fin.ext heqv
  · exact absurd heq.symm (hne j i hlt)

theorem Executions.reportedOnce (h : Executions q T₀ tables outs) (hcreated : CreationKnown T₀)
    (hfew : (unanchored T₀).card < MAX_SCAN_RESULTS) (hdeadline : NoDeadline q T₀) :
    ReportedOnce q T₀ tables outs where
  throws := fun _ hi => (h.throws_and_deletes hcreated hfew hdeadline hi).1
  deletes := by
    have hdel := fun i : Fin (failing q T₀).card =>
      (h.throws_and_deletes hcreated hfew hdeadline i.2).2
    -- the request that each execution deletes
    choose d hd using hdel
    have hshrinks : ∀ i j, i ≤ j → (tables j).keys ⊆ (tables i).keys :=
      fun _ _ hij => h.keys_subset hcreated hfew hdeadline hij
    have hlost : ∀ i : Fin (failing q T₀).card, d i ∉ (tables (i + 1)).keys := by
      intro i
      rw [(hd i).2.2]
      exact Finset.notMem_erase _ _
    exact ⟨d, injective_of_lost hshrinks (fun i => (hd i).2.1) hlost, hd⟩
  passes := by
    intro i hi
    obtain ⟨hstate, hkeys, _⟩ := h.passes_and_marks hcreated hfew hdeadline hi
    exact ⟨hstate, hkeys⟩
  marks := by
    intro i hi s r hr ha
    obtain ⟨j, rfl⟩ : ∃ j, i = j + 1 := ⟨i - 1, by omega⟩
    obtain ⟨_, _, hmarks⟩ := h.passes_and_marks hcreated hfew hdeadline (by omega : _ ≤ j)
    exact hmarks s r hr ha
  unchanged := fun i _ _ hr ha hlate => h.unchanged hcreated hfew hdeadline i hr ha hlate

theorem exists_executions (hcreated : CreationKnown T₀)
    (hfew : (unanchored T₀).card < MAX_SCAN_RESULTS) (hdeadline : NoDeadline q T₀) :
    ∃ tables outs, Executions q T₀ tables outs := by
  -- every table reached allows one more execution
  let Reached := {T : Table K // ∃ D, Progress q T₀ D T}
  have hstep : ∀ (i : Nat) (T : Reached), ∃ out,
      (AnchorCheck.client q.cfg).Drives (serve q i) AnchorCheck.start T.1 out ∧
        ∃ D, Progress q T₀ D out.db := by
    rintro i ⟨T, D, hprog⟩
    obtain ⟨out, hdrives, hrep⟩ := execution_reports hcreated hfew hdeadline hprog i
    refine ⟨out, hdrives, ?_⟩
    by_cases hall : failing q T₀ ⊆ D
    · exact ⟨D, (hrep.passes hall).2.1⟩
    · obtain ⟨_, d, _, _, hprog'⟩ := hrep.throws hall
      exact ⟨insert d D, hprog'⟩
  choose out hdrives hprog using hstep
  let reached : Nat → Reached := fun n =>
    n.rec ⟨T₀, ∅, Progress.refl T₀⟩ fun i T => ⟨(out i T).db, hprog i T⟩
  exact ⟨fun i => (reached i).1, fun i => out i (reached i), rfl, fun i => hdrives i _, fun i => rfl⟩

/-- **Each anchor failure is reported exactly once.** For a table with fewer
    than `MAX_SCAN_RESULTS` unanchored requests, of which `k` have failed,
    the executions all end. Exactly the first `k` throw, and each deletes a
    different one of the failing requests; the later ones pass and delete
    nothing. After the execution that follows, each remaining request of an
    `ANCHORED` stream is marked, if it was stored with `Anchored` at all. A
    request that is neither `ANCHORED` nor timed out is the same at every
    moment. -/
theorem anchor_failures_reported_once (q : Setting K) (T₀ : Table K) (hcreated : CreationKnown T₀)
    (hfew : (unanchored T₀).card < MAX_SCAN_RESULTS) (hdeadline : NoDeadline q T₀) :
    (∃ tables outs, Executions q T₀ tables outs) ∧
    ∀ tables outs, Executions q T₀ tables outs → ReportedOnce q T₀ tables outs :=
  ⟨exists_executions hcreated hfew hdeadline,
    fun _ _ h => h.reportedOnce hcreated hfew hdeadline⟩

/-! ### One failing request and one of an anchored stream -/

section oneFailing

/-- The page that holds all the records after the start key. -/
private def wholePage (T : Table Nat) (args : ScanCommandInput Nat) : List (Item Nat) :=
  ((T.keys.filter fun k => ∀ c ∈ args.exclusiveStartKey, c < k).sort (· ≤ ·)).filterMap
    fun k => (T.lookup k).map fun r => (k, r)

private theorem mem_wholePage {T : Table Nat} {args : ScanCommandInput Nat} {it : Item Nat} :
    it ∈ wholePage T args ↔
      Keyset.After Nat.instLinearOrder args.exclusiveStartKey it.1 ∧ T.lookup it.1 = some it.2 := by
  unfold wholePage
  simp only [List.mem_filterMap, Finset.mem_sort, Finset.mem_filter, Option.map_eq_some_iff]
  constructor
  · rintro ⟨k, ⟨_, hk⟩, r, hr, rfl⟩
    exact ⟨hk, hr⟩
  · rintro ⟨hk, hr⟩
    exact ⟨it.1, ⟨Finmap.mem_keys.mpr (Finmap.mem_of_lookup_eq_some hr), hk⟩, it.2, hr, rfl⟩

private def wholeScan (T : Table Nat) (args : ScanCommandInput Nat) : ScanCommandOutput Nat where
  items := some ((wholePage T args).filter fun it => args.filterExpression it.2)
  lastEvaluatedKey := none

private theorem wholeScan_reply (T : Table Nat) (args : ScanCommandInput Nat)
    (hlimit : args.limit = none) :
    ScanReply Nat.instLinearOrder T args (wholeScan T args) := by
  refine ⟨wholePage T args, ⟨?_, ?_, ?_, ?_, ?_⟩, ?_, rfl⟩
  · have hsorted := (Finset.sortedLT_sort
      (T.keys.filter fun k => ∀ c ∈ args.exclusiveStartKey, c < k)).pairwise
    refine hsorted.filterMap _ ?_
    intro a b hab x hx y hy
    obtain ⟨_, _, rfl⟩ := Option.map_eq_some_iff.mp hx
    obtain ⟨_, _, rfl⟩ := Option.map_eq_some_iff.mp hy
    exact hab
  · intro kv hkv
    exact (mem_wholePage.mp hkv).1
  · intro kv hkv
    exact (mem_wholePage.mp hkv).2
  · intro k v hv hk _
    exact mem_wholePage.mpr ⟨hk, hv⟩
  · intro z hz
    cases hz
  · intro n hn
    rw [hlimit] at hn
    cases hn

/-- Stream 2 is anchored and stream 1 is not. Both were stored at time 0 and
    are checked after the anchor interval. -/
private def oneLate : Setting Nat where
  cfg := Config.ofEnv none none
  loadStream := fun s => ⟨s, if s = 2 then .ANCHORED else .PENDING⟩
  loadStream_id := fun _ => rfl
  execution := fun _ => ⟨Nat.instLinearOrder, wholeScan, fun _ => minutes 720, wholeScan_reply⟩

private def twoRequests : Table Nat :=
  storeStreamReq oneLate.cfg 0 2 (storeStreamReq oneLate.cfg 0 1 ∅)

/-- The first execution throws and deletes request 1, the second passes, and
    request 2 is marked after it. -/
theorem one_failure_reported_once : ∃ tables outs,
    Executions oneLate twoRequests tables outs ∧ (∃ err, (outs 0).state = .failed err) ∧
    (outs 1).state = .passed ∧
    ∀ r, (tables 2).lookup 2 = some r → r.anchored = some true := by
  have hkept : WellKept twoRequests := by
    have hempty : WellKept (∅ : Table Nat) := fun k r hr => by simp at hr
    exact apply_wellKept oneLate.cfg (.putItem 2 0)
      (apply_wellKept oneLate.cfg (.putItem 1 0) hempty)
  have hfew : (unanchored twoRequests).card < MAX_SCAN_RESULTS := by
    have hcard : (unanchored twoRequests).card = 2 := by decide
    rw [hcard]
    decide
  have hone : (failing oneLate twoRequests).card = 1 := by decide
  obtain ⟨⟨tables, outs, h⟩, hall⟩ :=
    anchor_failures_reported_once oneLate twoRequests hkept.creationKnown hfew (fun _ _ _ _ _ => rfl)
  have honce := hall tables outs h
  exact ⟨tables, outs, h, honce.throws 0 (by rw [hone]; decide),
    (honce.passes 1 (by rw [hone])).1,
    fun r hr => (honce.marks 2 (by rw [hone]; decide) 2 r hr rfl).resolve_right
      fun hnone => hkept.anchored_ne_none hnone.2 hnone.1⟩

end oneFailing

end Suite
