import CeramicTests.Framework.Transition
import CeramicTests.Suite.DynamoDb

/-! # `dynamoScan` while other processes write

    One call of `dynamoScan` runs over a table that other processes write
    with `storeStreamReq`, `markStreamReqAsAnchored` and `deleteStreamReq`
    between its pages. Only the key of the last record is carried from one
    page to the next.

    The proof maps a run of the loop to a walk of `Keyset`: the reads of the
    walk are the pages with the tables they were read from, and the position
    of the walk is `ExclusiveStartKey`.
-/

namespace Suite

open Transition

variable {K : Type}

/-! ## Section 1: The system -/

structure ScanState (K : Type) where
  table : Table K
  status : ScanStatus K

inductive ScanEvent (K : Type) where
  | write (w : Write K)
  | page (out : ScanCommandOutput K)
  | fail (err : String)

/-- One call of `dynamoScan` with the filter of a fetch function, over a
    table that is written at any time. -/
def scanSystem [DecidableEq K] (cfg : Config) (ord : LinearOrder K) (filter : StreamReq → Bool)
    (pageSize : Option Nat) : System (ScanState K) (ScanEvent K) where
  init := fun s => s.status = dynamoScan (scanArgs filter) pageSize
  step := fun s e s' =>
    match e with
    | .write w => s' = { s with table := w.apply cfg s.table }
    | .page out =>
        ∃ loop, s.status = .scanning loop ∧ ScanReply ord s.table loop.args out ∧
          s' = { s with status := loop.receive (.ok out) }
    | .fail err =>
        ∃ loop, s.status = .scanning loop ∧ s' = { s with status := loop.receive (.error err) }

/-- A page as the run met it: the table at that moment and the answer. -/
def pageOf (f : Fired (ScanState K) (ScanEvent K)) : Option (Table K × ScanCommandOutput K) :=
  match f.label with
  | .page out => some (f.before.table, out)
  | _ => none

/-- The pages of a run, in order. -/
def pagesOf (tr : List (Fired (ScanState K) (ScanEvent K))) :
    List (Table K × ScanCommandOutput K) :=
  tr.filterMap pageOf

theorem pagesOf_snoc (tr : List (Fired (ScanState K) (ScanEvent K)))
    (f : Fired (ScanState K) (ScanEvent K)) :
    pagesOf (tr ++ [f]) = pagesOf tr ++ (pageOf f).toList := by
  unfold pagesOf
  rw [List.filterMap_append]
  cases h : pageOf f <;> simp [h]

/-- The scan has read its last page: the answer names no `LastEvaluatedKey`. -/
def EndedAtLastPage (tr : List (Fired (ScanState K) (ScanEvent K))) : Prop :=
  ∃ f out, tr.getLast? = some f ∧ f.label = .page out ∧ out.lastEvaluatedKey = none

/-! ## Section 2: The loop is a walk -/

/-- The entries of a walk that pass the filter. -/
def matching (filter : StreamReq → Bool) (reads : List (Keyset.Read K StreamReq)) :
    List (Item K) :=
  (Keyset.collected reads).filter fun it => filter it.2

theorem matching_snoc (filter : StreamReq → Bool) (reads : List (Keyset.Read K StreamReq))
    (r : Keyset.Read K StreamReq) :
    matching filter (reads ++ [r]) =
      matching filter reads ++ r.page.filter fun it => filter it.2 := by
  simp [matching]

theorem nodup_matching {ord : LinearOrder K} {filter : StreamReq → Bool}
    {reads : List (Keyset.Read K StreamReq)} {p : Keyset.Position K}
    (hw : Keyset.Walk ord reads p) : ((matching filter reads).map Prod.fst).Nodup :=
  hw.nodup_keys.sublist (List.filter_sublist.map Prod.fst)

/-- The loop waits at the position `p` of a walk that has read `reads`. -/
structure AtPosition (filter : StreamReq → Bool) (reads : List (Keyset.Read K StreamReq))
    (p : Keyset.Position K) (loop : ScanLoop K) : Prop where
  results : loop.results = matching filter reads
  filterExpression : loop.args.filterExpression = filter
  exclusiveStartKey : loop.args.exclusiveStartKey = p.cursor
  more : p ≠ .finished

/-- The call agrees with a walk that has read `reads` and has come to `p`. -/
def Agrees (filter : StreamReq → Bool) (reads : List (Keyset.Read K StreamReq))
    (p : Keyset.Position K) : ScanStatus K → Prop
  | .scanning loop => AtPosition filter reads p loop
  | .returned results => results = matching filter reads
  | .thrown _ => True

/-- The head of the loop keeps the agreement with a walk. -/
theorem agrees_enter {filter : StreamReq → Bool} {reads : List (Keyset.Read K StreamReq)}
    {p : Keyset.Position K} {loop : ScanLoop K}
    (hres : loop.results = matching filter reads)
    (hfilter : loop.args.filterExpression = filter)
    (hkey : loop.lastEvaluatedKey.or loop.args.exclusiveStartKey = p.cursor)
    (hp : p ≠ .finished) : Agrees filter reads p loop.enter := by
  by_cases hlt : loop.results.length < MAX_SCAN_RESULTS
  · rw [enter_of_lt hlt]
    exact ⟨hres, hfilter, hkey, hp⟩
  · rw [enter_of_ge hlt]
    exact hres

theorem agrees_dynamoScan (filter : StreamReq → Bool) (pageSize : Option Nat) :
    Agrees filter ([] : List (Keyset.Read K StreamReq)) .start
      (dynamoScan (scanArgs filter) pageSize) := by
  apply agrees_enter
  · rfl
  · simp [scanArgs]
  · simp [scanArgs, Keyset.Position.cursor]
  · simp

/-- A page whose records passed the filter of the scan extends the walk. -/
theorem agrees_receive {filter : StreamReq → Bool} {reads : List (Keyset.Read K StreamReq)}
    {p : Keyset.Position K} {loop : ScanLoop K} {out : ScanCommandOutput K}
    {r : Keyset.Read K StreamReq} (h : AtPosition filter reads p loop)
    (hitems : out.items = some (r.page.filter fun it => filter it.2)) :
    Agrees filter (reads ++ [r]) (Keyset.Position.ofLast out.lastEvaluatedKey)
      (loop.receive (.ok out)) := by
  have hres : loop.results ++ (r.page.filter fun it => filter it.2) =
      matching filter (reads ++ [r]) := by
    rw [matching_snoc, h.results]
  unfold ScanLoop.receive
  simp only [hitems]
  cases out.lastEvaluatedKey with
  | some key =>
    -- the loop goes on from the key of the last evaluated record
    apply agrees_enter
    · exact hres
    · exact h.filterExpression
    · rfl
    · simp [Keyset.Position.ofLast]
  | none => exact hres

theorem receive_last {loop : ScanLoop K} {out : ScanCommandOutput K} {items : List (Item K)}
    (hitems : out.items = some items) (hlast : out.lastEvaluatedKey = none) :
    loop.receive (.ok out) = .returned (loop.results ++ items) := by
  unfold ScanLoop.receive
  simp only [hitems, hlast]

/-! ## Section 3: Runs -/

variable [DecidableEq K]

/-- The page `pr` of a run shows what the walk read in `r`. -/
def Shows (filter : StreamReq → Bool) (r : Keyset.Read K StreamReq)
    (pr : Table K × ScanCommandOutput K) : Prop :=
  r.map = (fun k => pr.1.lookup k) ∧ pr.2.items = some (r.page.filter fun it => filter it.2)

/-- A run of the scan, seen as a walk over the keys. -/
structure ScanInv (ord : LinearOrder K) (filter : StreamReq → Bool)
    (pages : List (Table K × ScanCommandOutput K)) (status : ScanStatus K)
    (reads : List (Keyset.Read K StreamReq)) (p : Keyset.Position K) : Prop where
  walk : Keyset.Walk ord reads p
  shows : List.Forall₂ (Shows filter) reads pages
  agrees : Agrees filter reads p status

/-- A page of the scan is a page of the walk. -/
theorem scanInv_page {ord : LinearOrder K} {filter : StreamReq → Bool}
    {pages : List (Table K × ScanCommandOutput K)} {reads : List (Keyset.Read K StreamReq)}
    {p : Keyset.Position K} {loop : ScanLoop K} {T : Table K} {out : ScanCommandOutput K}
    (h : ScanInv ord filter pages (.scanning loop) reads p)
    (hreply : ScanReply ord T loop.args out) :
    ∃ r, ScanInv ord filter (pages ++ [(T, out)]) (loop.receive (.ok out)) (reads ++ [r])
      (Keyset.Position.ofLast out.lastEvaluatedKey) := by
  have hat : AtPosition filter reads p loop := h.agrees
  obtain ⟨evaluated, hread, _, hitems⟩ := hreply
  rw [hat.filterExpression] at hitems
  rw [hat.exclusiveStartKey] at hread
  refine ⟨⟨fun k => T.lookup k, evaluated⟩, ?_, ?_, ?_⟩
  · exact .page h.walk hat.more hread
  · exact List.rel_append h.shows (.cons ⟨rfl, hitems⟩ .nil)
  · exact agrees_receive hat hitems

/-- Every run of the scan is a walk. -/
theorem run_is_walk {cfg : Config} {ord : LinearOrder K} {filter : StreamReq → Bool}
    {pageSize : Option Nat} {s₀ s : ScanState K}
    {tr : List (Fired (ScanState K) (ScanEvent K))}
    (hinit : (scanSystem cfg ord filter pageSize).init s₀)
    (hrun : (scanSystem cfg ord filter pageSize).Run s₀ tr s) :
    ∃ reads p, ScanInv ord filter (pagesOf tr) s.status reads p := by
  induction hrun with
  | nil =>
    have hstatus : s₀.status = dynamoScan (scanArgs filter) pageSize := hinit
    refine ⟨[], .start, .start, .nil, ?_⟩
    rw [hstatus]
    exact agrees_dynamoScan filter pageSize
  | @snoc s₁ s₂ tr e _ hstep ih =>
    obtain ⟨reads, p, hinv⟩ := ih
    rw [pagesOf_snoc]
    cases e with
    -- a write moves neither the walk nor the loop
    | write w =>
      have hs₂ : s₂ = { s₁ with table := w.apply cfg s₁.table } := hstep
      subst hs₂
      exact ⟨reads, p, by simpa [pageOf] using hinv⟩
    | page out =>
      obtain ⟨loop, hstatus, hreply, rfl⟩ := hstep
      rw [hstatus] at hinv
      obtain ⟨r, hinv'⟩ := scanInv_page hinv hreply
      exact ⟨reads ++ [r], _, hinv'⟩
    -- a scan that threw agrees with any walk
    | fail err =>
      obtain ⟨loop, _, rfl⟩ := hstep
      exact ⟨reads, p, by simpa [pageOf] using hinv.walk, by simpa [pageOf] using hinv.shows,
        trivial⟩

/-- After its last page the scan has returned what a finished walk matched. -/
theorem ended_is_finished_walk {cfg : Config} {ord : LinearOrder K} {filter : StreamReq → Bool}
    {pageSize : Option Nat} {s₀ s : ScanState K}
    {tr : List (Fired (ScanState K) (ScanEvent K))}
    (hinit : (scanSystem cfg ord filter pageSize).init s₀)
    (hrun : (scanSystem cfg ord filter pageSize).Run s₀ tr s) (hend : EndedAtLastPage tr) :
    ∃ reads results, s.status = .returned results ∧
      ScanInv ord filter (pagesOf tr) (.returned results) reads .finished := by
  obtain ⟨f, out, hf, hlabel, hlast⟩ := hend
  cases hrun with
  | nil => simp at hf
  | @snoc s₁ _ tr e hrun hstep =>
    simp only [List.getLast?_concat, Option.some.injEq] at hf
    subst hf
    have he : e = .page out := hlabel
    subst he
    obtain ⟨loop, hstatus, hreply, rfl⟩ := hstep
    obtain ⟨reads, p, hinv⟩ := run_is_walk hinit hrun
    rw [hstatus] at hinv
    obtain ⟨r, hinv'⟩ := scanInv_page hinv hreply
    obtain ⟨_, _, _, hitems⟩ := hreply
    have hret : loop.receive (.ok out) = .returned (loop.results ++ _) :=
      receive_last hitems hlast
    rw [hret, hlast] at hinv'
    rw [pagesOf_snoc]
    exact ⟨reads ++ [r], _, hret, hinv'⟩

/-- Each read of the walk is shown by a page of the run. -/
theorem exists_page_of_read {filter : StreamReq → Bool}
    {reads : List (Keyset.Read K StreamReq)} {pages : List (Table K × ScanCommandOutput K)}
    (h : List.Forall₂ (Shows filter) reads pages) {r : Keyset.Read K StreamReq}
    (hr : r ∈ reads) : ∃ pr ∈ pages, Shows filter r pr := by
  induction h with
  | nil => simp at hr
  | @cons r' pr' _ _ hshow _ ih =>
    rcases List.mem_cons.mp hr with rfl | hr
    · exact ⟨pr', by simp, hshow⟩
    · obtain ⟨pr, hpr, hs⟩ := ih hr
      exact ⟨pr, by simp [hpr], hs⟩

/-- **`dynamoScan` under concurrent writers.** When the scan has ended at
    its last page, then, whatever was stored, marked and deleted between
    the pages,

    - a record that is present and matches at every moment a page is read
      is returned exactly once;
    - no stream id is returned twice;
    - every returned record stood on a page, and was in the table and
      matched the filter at the moment that page was read. -/
theorem dynamoScan_concurrent (cfg : Config) (ord : LinearOrder K) (filter : StreamReq → Bool)
    (pageSize : Option Nat) {s₀ s : ScanState K}
    {tr : List (Fired (ScanState K) (ScanEvent K))}
    (hinit : (scanSystem cfg ord filter pageSize).init s₀)
    (hrun : (scanSystem cfg ord filter pageSize).Run s₀ tr s) (hend : EndedAtLastPage tr) :
    ∃ results, s.status = .returned results ∧
      (∀ k, (∀ pr ∈ pagesOf tr, ∃ r, pr.1.lookup k = some r ∧ filter r = true) →
        (results.map Prod.fst).count k = 1) ∧
      (results.map Prod.fst).Nodup ∧
      (∀ it ∈ results, ∃ pr ∈ pagesOf tr, (∃ items, pr.2.items = some items ∧ it ∈ items) ∧
        pr.1.lookup it.1 = some it.2 ∧ filter it.2 = true) := by
  obtain ⟨reads, results, hstatus, hinv⟩ := ended_is_finished_walk hinit hrun hend
  have hres : results = matching filter reads := hinv.agrees
  have hnodup : (results.map Prod.fst).Nodup := by
    rw [hres]
    exact nodup_matching hinv.walk
  refine ⟨results, hstatus, ?_, hnodup, ?_⟩
  · intro k hk
    have hstable : ∀ r ∈ reads, ∃ v, r.map k = some v ∧ filter v = true := by
      intro r hr
      obtain ⟨pr, hpr, hmap, _⟩ := exists_page_of_read hinv.shows hr
      obtain ⟨v, hv, hfv⟩ := hk pr hpr
      exact ⟨v, by rw [hmap]; exact hv, hfv⟩
    -- a finished walk has passed every key
    obtain ⟨v, hv, hfv⟩ := hinv.walk.complete hstable trivial
    have hmem : (k, v) ∈ results := by
      rw [hres]
      exact List.mem_filter.mpr ⟨hv, hfv⟩
    exact List.count_eq_one_of_mem hnodup (List.mem_map_of_mem hmem)
  · intro it hit
    rw [hres] at hit
    obtain ⟨hcol, hfv⟩ := List.mem_filter.mp hit
    obtain ⟨r, hr, hpage⟩ := List.mem_flatMap.mp hcol
    obtain ⟨pr, hpr, hmap, hitems⟩ := exists_page_of_read hinv.shows hr
    -- the table at the moment of the page had the record
    have hpresent := hinv.walk.present r hr it hpage
    rw [hmap] at hpresent
    exact ⟨pr, hpr, ⟨_, hitems, List.mem_filter.mpr ⟨hpage, hfv⟩⟩, hpresent, hfv⟩

/-! ### A scan whose start key is deleted

    Streams 1 and 2 are stored before the scan. The first page stops at
    stream 1, which is deleted before the second page. -/

section deletedStartKey

private def scanCfg : Config := Config.ofEnv none none

private def storedReq : StreamReq := ⟨some 0, some scanCfg.databaseTTL, some false⟩

private def twoStored : Table Nat := storeStreamReq scanCfg 0 2 (storeStreamReq scanCfg 0 1 ∅)

private def firstPage : ScanCommandOutput Nat := ⟨some [(1, storedReq)], some 1⟩

private def lastPage : ScanCommandOutput Nat := ⟨some [(2, storedReq)], none⟩

private def loopFrom (results : List (Item Nat)) (key : Option Nat) : ScanLoop Nat where
  args := { filterExpression := anchoredIs false, limit := none, exclusiveStartKey := key }
  results := results
  lastEvaluatedKey := key

private theorem lookup_twoStored (k : Nat) :
    twoStored.lookup k = if k = 2 then some storedReq else if k = 1 then some storedReq else none := by
  unfold twoStored
  rw [lookup_storeStreamReq, lookup_storeStreamReq]
  simp [storedReq]

private theorem firstPage_reply :
    ScanReply Nat.instLinearOrder twoStored (loopFrom [] none).args firstPage := by
  refine ⟨[(1, storedReq)], ⟨by simp, ?_, ?_, ?_, ?_⟩, by simp [loopFrom], by decide⟩
  · intro kv _ c hc
    simp [loopFrom] at hc
  · intro kv hkv
    simp only [List.mem_singleton] at hkv
    rw [hkv]
    simp [lookup_twoStored]
  · intro k v hv _ hk
    have hk1 : k ≤ 1 := hk 1 rfl
    rw [lookup_twoStored, if_neg (by omega)] at hv
    by_cases h : k = 1
    · simp only [h, if_true, Option.some.injEq] at hv
      simp [h, hv]
    · simp [h] at hv
  · intro z hz
    simp only [firstPage, Option.some.injEq] at hz
    exact ⟨storedReq, by simp [hz]⟩

private theorem lastPage_reply :
    ScanReply Nat.instLinearOrder (deleteStreamReq 1 twoStored)
      (loopFrom [(1, storedReq)] (some 1)).args lastPage := by
  refine ⟨[(2, storedReq)], ⟨by simp, ?_, ?_, ?_, by simp [lastPage]⟩, by simp [loopFrom],
    by decide⟩
  · intro kv hkv c hc
    simp only [List.mem_singleton] at hkv
    simp only [loopFrom, Option.some.injEq] at hc
    rw [hkv, ← hc]
    exact Nat.one_lt_two
  · intro kv hkv
    simp only [List.mem_singleton] at hkv
    rw [hkv]
    simp [lookup_deleteStreamReq, lookup_twoStored]
  · intro k v hv _ _
    rw [lookup_deleteStreamReq, lookup_twoStored] at hv
    by_cases h1 : k = 1
    · simp [h1] at hv
    · by_cases h2 : k = 2
      · simp only [h2, if_true] at hv
        simpa [h2] using hv.symm
      · simp [h1, h2] at hv

/-- The record that named the start of the second page is gone. The scan
    returns it all the same, and returns stream 2 exactly once. -/
theorem dynamoScan_deleted_start_key : ∃ s₀ tr s results,
    (scanSystem scanCfg Nat.instLinearOrder (anchoredIs false) none).init s₀ ∧
    (scanSystem scanCfg Nat.instLinearOrder (anchoredIs false) none).Run s₀ tr s ∧
    EndedAtLastPage tr ∧ (∃ f ∈ tr, f.label = .write (.deleteItem 1)) ∧
    s.status = .returned results ∧ s.table.lookup 1 = none ∧ 1 ∈ results.map Prod.fst ∧
    (results.map Prod.fst).count 2 = 1 ∧ (results.map Prod.fst).Nodup := by
  let sys := scanSystem scanCfg Nat.instLinearOrder (anchoredIs false) none
  have hinit : sys.init ⟨twoStored, .scanning (loopFrom [] none)⟩ := rfl
  have hpage : sys.step ⟨twoStored, .scanning (loopFrom [] none)⟩ (.page firstPage)
      ⟨twoStored, .scanning (loopFrom [(1, storedReq)] (some 1))⟩ :=
    ⟨loopFrom [] none, rfl, firstPage_reply, rfl⟩
  have hwrite : sys.step ⟨twoStored, .scanning (loopFrom [(1, storedReq)] (some 1))⟩
      (.write (.deleteItem 1))
      ⟨deleteStreamReq 1 twoStored, .scanning (loopFrom [(1, storedReq)] (some 1))⟩ := rfl
  have hlast : sys.step
      ⟨deleteStreamReq 1 twoStored, .scanning (loopFrom [(1, storedReq)] (some 1))⟩
      (.page lastPage)
      ⟨deleteStreamReq 1 twoStored, .returned [(1, storedReq), (2, storedReq)]⟩ :=
    ⟨loopFrom [(1, storedReq)] (some 1), rfl, lastPage_reply, rfl⟩
  have hrun := ((System.Run.nil.snoc hpage).snoc hwrite).snoc hlast
  obtain ⟨results, hstatus, honce, hnodup, _⟩ :=
    dynamoScan_concurrent scanCfg Nat.instLinearOrder (anchoredIs false) none hinit hrun
      ⟨_, lastPage, List.getLast?_concat, rfl, rfl⟩
  have hresults : results = [(1, storedReq), (2, storedReq)] := (ScanStatus.returned.inj hstatus).symm
  refine ⟨_, _, _, results, hinit, hrun, ⟨_, lastPage, List.getLast?_concat, rfl, rfl⟩,
    ⟨_, List.mem_append_left _ (List.mem_append_right _ (List.mem_singleton_self _)), rfl⟩,
    hstatus, ?_, by simp [hresults], honce 2 ?_, hnodup⟩
  · simp [lookup_deleteStreamReq]
  · intro pr hpr
    simp only [pagesOf, pageOf, List.filterMap_append, List.filterMap_cons, List.filterMap_nil,
      List.nil_append, List.append_nil, List.mem_append, List.mem_singleton] at hpr
    rcases hpr with rfl | rfl
    · exact ⟨storedReq, by simp [lookup_twoStored], by decide⟩
    · exact ⟨storedReq, by simp [lookup_deleteStreamReq, lookup_twoStored], by decide⟩

end deletedStartKey

end Suite
