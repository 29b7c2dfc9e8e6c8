import CeramicTests.Suite.ConcurrentScan
import Mathlib.Data.Finset.Sort
import Mathlib.Data.List.Infix

/-! # `dynamoScan` while nobody writes

    The same loop as in `ConcurrentScan`, in the runs in which nothing but
    pages happens. There the table stays as it is, and the loop has a plain
    meaning: it filters the records in the order of the keys, and stops
    early only at a page end at which `MAX_SCAN_RESULTS` are collected.

    A page may hold no match at all, and its key may name the last record
    of the table. So the measure of the loop is not what it has collected,
    but the number of keys that lie after its cursor.
-/

namespace Suite

open Transition

variable {K : Type}

/-! ## Section 1: The pages -/

/-- The records that a list of pages returned. -/
def itemsOf (pages : List (ScanCommandOutput K)) : List (Item K) :=
  pages.flatMap fun out => out.items.getD []

theorem itemsOf_snoc (pages : List (ScanCommandOutput K)) (out : ScanCommandOutput K) :
    itemsOf (pages ++ [out]) = itemsOf pages ++ out.items.getD [] := by
  simp [itemsOf]

/-- Fewer pages have returned no more records. -/
theorem length_itemsOf_le {earlier pages : List (ScanCommandOutput K)} (h : earlier <+: pages) :
    (itemsOf earlier).length ≤ (itemsOf pages).length := by
  obtain ⟨later, rfl⟩ := h
  simp [itemsOf, List.flatMap_append]

/-- Nothing but pages happens: no other process writes and no request
    fails. -/
def OnlyPages (tr : List (Fired (ScanState K) (ScanEvent K))) : Prop :=
  ∀ f ∈ tr, ∃ out, f.label = .page out

theorem OnlyPages.nil : OnlyPages ([] : List (Fired (ScanState K) (ScanEvent K))) := by
  simp [OnlyPages]

theorem OnlyPages.snoc {tr : List (Fired (ScanState K) (ScanEvent K))} (h : OnlyPages tr)
    {s₁ s₂ : ScanState K} (out : ScanCommandOutput K) :
    OnlyPages (tr ++ [⟨s₁, .page out, s₂⟩]) := by
  intro f hf
  rcases List.mem_append.mp hf with hf | hf
  · exact h f hf
  · rw [List.mem_singleton.mp hf]
    exact ⟨out, rfl⟩

/-- The answers of a run, in order. -/
def answersOf (tr : List (Fired (ScanState K) (ScanEvent K))) : List (ScanCommandOutput K) :=
  (pagesOf tr).map Prod.snd

theorem answersOf_snoc (tr : List (Fired (ScanState K) (ScanEvent K)))
    (s₁ s₂ : ScanState K) (out : ScanCommandOutput K) :
    answersOf (tr ++ [⟨s₁, .page out, s₂⟩]) = answersOf tr ++ [out] := by
  simp [answersOf, pagesOf_snoc, pageOf]

/-- The last answer of a run of pages is that of its last step. -/
theorem endedAtLastPage_of_answers {tr : List (Fired (ScanState K) (ScanEvent K))}
    (halone : OnlyPages tr) {earlier : List (ScanCommandOutput K)} {last : ScanCommandOutput K}
    (hanswers : answersOf tr = earlier ++ [last]) (hlast : last.lastEvaluatedKey = none) :
    EndedAtLastPage tr := by
  rcases List.eq_nil_or_concat tr with rfl | ⟨tr', f, rfl⟩
  · simp [answersOf, pagesOf] at hanswers
  · obtain ⟨s₁, e, s₂⟩ := f
    obtain ⟨out, he⟩ := halone ⟨s₁, e, s₂⟩ (by simp)
    have he : e = .page out := he
    subst he
    rw [List.concat_eq_append, answersOf_snoc] at hanswers
    have hout : out = last := by simpa using (List.append_inj' hanswers rfl).2
    exact ⟨⟨s₁, .page out, s₂⟩, out, by simp, rfl, hout ▸ hlast⟩

open Classical in
/-- The number of keys that lie after the cursor. -/
noncomputable def remaining (ord : LinearOrder K) (T : Table K) (cursor : Option K) : Nat :=
  (T.keys.filter (Keyset.After ord cursor)).card

theorem remaining_le (ord : LinearOrder K) (T : Table K) (cursor : Option K) :
    remaining ord T cursor ≤ T.keys.card := by
  classical
  exact Finset.card_filter_le _ _

/-- The call after the pages `outs`, over the table `T`. -/
def PlainInv (ord : LinearOrder K) (limit : Option Nat) (T : Table K)
    (outs : List (ScanCommandOutput K)) : ScanStatus K → Prop
  | .scanning loop =>
      loop.results = itemsOf outs ∧ (itemsOf outs).length < MAX_SCAN_RESULTS ∧
        loop.args.limit = limit ∧
        outs.length + remaining ord T loop.args.exclusiveStartKey ≤ T.keys.card
  | .returned results =>
      results = itemsOf outs ∧ outs.length ≤ T.keys.card + 1 ∧
        ∃ earlier last, outs = earlier ++ [last] ∧
          (itemsOf earlier).length < MAX_SCAN_RESULTS ∧
          (MAX_SCAN_RESULTS ≤ (itemsOf outs).length ∨ last.lastEvaluatedKey = none) ∧
          ∀ n, limit = some n → (last.items.getD []).length ≤ n
  | .thrown _ => False

theorem plainInv_dynamoScan (ord : LinearOrder K) (filter : StreamReq → Bool)
    (pageSize : Option Nat) (T : Table K) :
    PlainInv ord (withPageSize (scanArgs filter : ScanCommandInput K) pageSize).limit T []
      (dynamoScan (scanArgs filter) pageSize) := by
  have hmax : ([] : List (Item K)).length < MAX_SCAN_RESULTS := Nat.zero_lt_succ _
  unfold dynamoScan
  rw [enter_of_lt hmax]
  refine ⟨rfl, hmax, rfl, ?_⟩
  rw [List.length_nil, Nat.zero_add]
  exact remaining_le ord T _

theorem withPageSize_limit (args : ScanCommandInput K) {n : Nat} (hn : n ≠ 0) :
    (withPageSize args (some n)).limit = some n := by
  simp [withPageSize, hn]

/-- A limit that `withPageSize` sets is not zero. -/
theorem withPageSize_limit_pos (filter : StreamReq → Bool) {pageSize : Option Nat} {n : Nat}
    (h : (withPageSize (scanArgs filter : ScanCommandInput K) pageSize).limit = some n) :
    0 < n := by
  cases pageSize with
  | none => cases h
  | some m =>
    by_cases hm : m = 0
    · simp [withPageSize, hm, scanArgs] at h
    · rw [withPageSize_limit _ hm] at h
      have hmn := Option.some.inj h
      omega

variable [DecidableEq K]

/-! ## Section 2: The plain filter -/

/-- The records of the table, in the order of the keys. -/
def records (ord : LinearOrder K) (T : Table K) : List (Item K) :=
  (T.keys.sort ord.le).filterMap fun k => (T.lookup k).map fun r => (k, r)

/-- The records that match, in the order of the keys. -/
def matchingRecords (ord : LinearOrder K) (filter : StreamReq → Bool) (T : Table K) :
    List (Item K) :=
  (records ord T).filter fun it => filter it.2

theorem mem_records (ord : LinearOrder K) (T : Table K) (it : Item K) :
    it ∈ records ord T ↔ T.lookup it.1 = some it.2 := by
  let _ := ord
  obtain ⟨k, r⟩ := it
  simp only [records, List.mem_filterMap, Finset.mem_sort, Option.map_eq_some_iff,
    Prod.mk.injEq]
  constructor
  · rintro ⟨_, _, _, hr, rfl, rfl⟩
    exact hr
  · intro hr
    exact ⟨k, Finmap.mem_of_lookup_eq_some hr, r, hr, rfl, rfl⟩

theorem records_lists (ord : LinearOrder K) (T : Table K) :
    Keyset.Lists ord (fun k => T.lookup k) (records ord T) := by
  let _ := ord
  refine ⟨?_, mem_records ord T⟩
  have hsort : (T.keys.sort ord.le).Pairwise fun a b => a < b := T.keys.sortedLT_sort.pairwise
  refine List.Pairwise.filterMap _ ?_ hsort
  intro a b hab x hx y hy
  obtain ⟨_, _, rfl⟩ := Option.map_eq_some_iff.mp hx
  obtain ⟨_, _, rfl⟩ := Option.map_eq_some_iff.mp hy
  exact hab

/-! ## Section 3: Runs without writes -/

/-- A page keeps the invariant. -/
theorem plainInv_page {ord : LinearOrder K} {limit : Option Nat} {T : Table K}
    {outs : List (ScanCommandOutput K)} {loop : ScanLoop K} {out : ScanCommandOutput K}
    (h : PlainInv ord limit T outs (.scanning loop)) (hreply : ScanReply ord T loop.args out) :
    PlainInv ord limit T (outs ++ [out]) (loop.receive (.ok out)) := by
  obtain ⟨hres, hfew, hlimit, hleft⟩ := h
  obtain ⟨evaluated, hread, hlen, hitems⟩ := hreply
  have hall : loop.results ++ (evaluated.filter fun it => loop.args.filterExpression it.2) =
      itemsOf (outs ++ [out]) := by
    rw [itemsOf_snoc, hres, hitems]
    rfl
  rcases receive_page loop hitems with ⟨key, hkey, hlt, hnext⟩ | ⟨hstop, hnext⟩
  · rw [hall] at hlt
    rw [hnext]
    refine ⟨hall, hlt, hlimit, ?_⟩
    -- the page has moved past its last key
    rw [hkey] at hread
    have hkeys : ∀ k v, T.lookup k = some v → k ∈ T.keys :=
      fun k v hk => Finmap.mem_keys.mpr (Finmap.mem_of_lookup_eq_some hk)
    have hless : remaining ord T (some key) < remaining ord T loop.args.exclusiveStartKey := by
      classical
      exact hread.card_after_lt hkeys
    rw [List.length_append, List.length_singleton]
    show outs.length + 1 + remaining ord T (some key) ≤ T.keys.card
    omega
  · rw [hall] at hstop
    rw [hnext]
    refine ⟨hall, ?_, outs, out, rfl, hfew, hstop, ?_⟩
    · rw [List.length_append, List.length_singleton]
      omega
    · intro n hn
      have hshort := hlen n (hlimit.trans hn)
      rw [hitems]
      exact le_trans (List.length_filter_le _ _) hshort

/-- In a run without writes the table stays, and the invariant holds. -/
theorem run_plainInv {cfg : Config} {ord : LinearOrder K} {filter : StreamReq → Bool}
    {pageSize : Option Nat} {s₀ s : ScanState K}
    {tr : List (Fired (ScanState K) (ScanEvent K))}
    (hinit : (scanSystem cfg ord filter pageSize).init s₀)
    (hrun : (scanSystem cfg ord filter pageSize).Run s₀ tr s) (halone : OnlyPages tr) :
    s.table = s₀.table ∧ (∀ pr ∈ pagesOf tr, pr.1 = s₀.table) ∧
      (answersOf tr).length = tr.length ∧
      PlainInv ord (withPageSize (scanArgs filter : ScanCommandInput K) pageSize).limit s₀.table
        (answersOf tr) s.status := by
  induction hrun with
  | nil =>
    have hstatus : s₀.status = dynamoScan (scanArgs filter) pageSize := hinit
    refine ⟨rfl, by simp [pagesOf], rfl, ?_⟩
    rw [hstatus]
    exact plainInv_dynamoScan ord filter pageSize s₀.table
  | @snoc s₁ s₂ tr e hrun hstep ih =>
    obtain ⟨htable, hpages, hlen, hinv⟩ := ih fun f hf => halone f (List.mem_append_left _ hf)
    obtain ⟨out, he⟩ := halone ⟨s₁, e, s₂⟩ (by simp)
    have he : e = .page out := he
    subst he
    obtain ⟨loop, hstatus, hreply, rfl⟩ := hstep
    rw [hstatus] at hinv
    rw [htable] at hreply
    rw [answersOf_snoc]
    refine ⟨htable, ?_, ?_, plainInv_page hinv hreply⟩
    · intro pr hpr
      rw [pagesOf_snoc] at hpr
      rcases List.mem_append.mp hpr with hpr | hpr
      · exact hpages pr hpr
      · rw [List.mem_singleton.mp hpr]
        exact htable
    · simp [hlen]

/-! ## Section 4: The scan is the filter -/

/-- The call still waits for a page, and DynamoDB has one to answer. -/
def GoesOn (ord : LinearOrder K) (s : ScanState K) : Prop :=
  ∃ loop, s.status = .scanning loop ∧ ∃ out, ScanReply ord s.table loop.args out

/-- What the call returns for the table `T` from the pages `outs`. -/
structure PlainResult (ord : LinearOrder K) (filter : StreamReq → Bool) (pageSize : Option Nat)
    (T : Table K) (outs : List (ScanCommandOutput K)) (results : List (Item K)) : Prop where
  from_pages : results = itemsOf outs
  isPrefix : results <+: matchingRecords ord filter T
  nodup : (results.map Prod.fst).Nodup
  whole : (matchingRecords ord filter T).length < MAX_SCAN_RESULTS →
    results = matchingRecords ord filter T
  /-- The first page end at which the size limit is reached. -/
  first_full : MAX_SCAN_RESULTS ≤ (matchingRecords ord filter T).length →
    MAX_SCAN_RESULTS ≤ results.length ∧
      ∀ part, part <+: outs → part ≠ outs → (itemsOf part).length < MAX_SCAN_RESULTS
  /-- The size limit is exceeded by less than the last page. -/
  less_than_page : ∃ last, outs.getLast? = some last ∧
    results.length < MAX_SCAN_RESULTS + (last.items.getD []).length ∧
    ∀ n, pageSize = some n → n ≠ 0 → results.length < MAX_SCAN_RESULTS + n

/-- DynamoDB has an answer to every request of the loop. -/
theorem exists_reply (ord : LinearOrder K) (T : Table K) (args : ScanCommandInput K)
    (hpos : ∀ n, args.limit = some n → 0 < n) : ∃ out, ScanReply ord T args out := by
  have hn : 0 < args.limit.getD 1 := by
    cases hlim : args.limit with
    | none => exact Nat.one_pos
    | some n => exact hpos n hlim
  obtain ⟨page, last, hread, hlen⟩ :=
    Keyset.exists_page (records_lists ord T) args.exclusiveStartKey hn
  refine ⟨⟨some (page.filter fun it => args.filterExpression it.2), last⟩, page, hread, ?_, rfl⟩
  intro n hlim
  rw [hlim] at hlen
  exact hlen

/-- What the loop has returned is a prefix of what matches, and all of it
    if the last page was read. -/
theorem plain_collected {cfg : Config} {ord : LinearOrder K} {filter : StreamReq → Bool}
    {pageSize : Option Nat} {s₀ s : ScanState K}
    {tr : List (Fired (ScanState K) (ScanEvent K))} {results : List (Item K)}
    (hinit : (scanSystem cfg ord filter pageSize).init s₀)
    (hrun : (scanSystem cfg ord filter pageSize).Run s₀ tr s) (halone : OnlyPages tr)
    (hret : s.status = .returned results) :
    results <+: matchingRecords ord filter s₀.table ∧ (results.map Prod.fst).Nodup ∧
      (EndedAtLastPage tr → results = matchingRecords ord filter s₀.table) := by
  have hlists := records_lists ord s₀.table
  obtain ⟨_, hpages, _, _⟩ := run_plainInv hinit hrun halone
  -- the pages of every walk that shows them were read from one table
  have hmap : ∀ reads p, ScanInv ord filter (pagesOf tr) s.status reads p →
      ∀ r ∈ reads, r.map = fun k => s₀.table.lookup k := by
    intro reads p hinv r hr
    obtain ⟨pr, hpr, hshow, _⟩ := exists_page_of_read hinv.shows hr
    rw [hshow, hpages pr hpr]
  obtain ⟨reads, p, hinv⟩ := run_is_walk hinit hrun
  have hagrees := hinv.agrees
  rw [hret] at hagrees
  have hres : results = matching filter reads := hagrees
  refine ⟨?_, ?_, ?_⟩
  · rw [hres]
    exact (hinv.walk.collected_prefix (hmap reads p hinv) hlists).filter _
  · rw [hres]
    exact nodup_matching hinv.walk
  · intro hend
    obtain ⟨reads', results', hret', hinv'⟩ := ended_is_finished_walk hinit hrun hend
    have hsame : results = results' := by
      rw [hret] at hret'
      injection hret'
    have hres' : results' = matching filter reads' := hinv'.agrees
    rw [← hret'] at hinv'
    rw [hsame, hres']
    unfold matching matchingRecords
    rw [hinv'.walk.collected_eq (hmap reads' _ hinv') hlists]

/-- A finished call returned the plain filter, cut at a page end. -/
theorem plainResult_of_returned {cfg : Config} {ord : LinearOrder K}
    {filter : StreamReq → Bool} {pageSize : Option Nat} {s₀ s : ScanState K}
    {tr : List (Fired (ScanState K) (ScanEvent K))} {results : List (Item K)}
    (hinit : (scanSystem cfg ord filter pageSize).init s₀)
    (hrun : (scanSystem cfg ord filter pageSize).Run s₀ tr s) (halone : OnlyPages tr)
    (hret : s.status = .returned results) :
    PlainResult ord filter pageSize s₀.table (answersOf tr) results := by
  obtain ⟨_, _, _, hinv⟩ := run_plainInv hinit hrun halone
  rw [hret] at hinv
  obtain ⟨hres, _, earlier, last, houts, hfew, hstop, hshort⟩ := hinv
  obtain ⟨hpre, hnodup, hwhole⟩ := plain_collected hinit hrun halone hret
  -- short of the limit, the loop stops only at the end of the table
  have hend : results.length < MAX_SCAN_RESULTS →
      results = matchingRecords ord filter s₀.table := by
    intro hlt
    rw [hres] at hlt
    rcases hstop with hfull | hlast
    · exact absurd hlt (not_lt.mpr hfull)
    · exact hwhole (endedAtLastPage_of_answers halone houts hlast)
  have hlen : results.length = (itemsOf earlier).length + (last.items.getD []).length := by
    rw [hres, houts, itemsOf_snoc, List.length_append]
  refine ⟨hres, hpre, hnodup, ?_, ?_, ?_⟩
  · intro hlt
    exact hend (lt_of_le_of_lt hpre.length_le hlt)
  · intro hmany
    constructor
    · by_contra hlt
      have heq := hend (not_le.mp hlt)
      rw [heq] at hlt
      exact hlt hmany
    · intro part hpart hne
      -- a proper part of the pages ends before the last one
      rw [houts] at hpart hne
      have hpart' : part <+: earlier := by
        rcases List.prefix_concat_iff.mp hpart with h | h
        · exact absurd h hne
        · exact h
      exact lt_of_le_of_lt (length_itemsOf_le hpart') hfew
  · refine ⟨last, by rw [houts]; simp, by omega, ?_⟩
    intro n hn hn0
    have hle := hshort n (by rw [hn]; exact withPageSize_limit _ hn0)
    omega

/-- **`dynamoScan` without writers is the filter.** In a run of nothing but
    pages,

    - the loop reads at most one page more than the table has keys, and
      until then it always gets a further answer;
    - it returns a prefix of the matching records, and no key twice;
    - it returns all of them if they are fewer than `MAX_SCAN_RESULTS`, and
      otherwise what it has at the first page end at which they are that
      many, which exceeds the limit by less than that page. -/
theorem dynamoScan_refines_filter (cfg : Config) (ord : LinearOrder K)
    (filter : StreamReq → Bool) (pageSize : Option Nat) {s₀ s : ScanState K}
    {tr : List (Fired (ScanState K) (ScanEvent K))}
    (hinit : (scanSystem cfg ord filter pageSize).init s₀)
    (hrun : (scanSystem cfg ord filter pageSize).Run s₀ tr s) (halone : OnlyPages tr) :
    tr.length ≤ s₀.table.keys.card + 1 ∧
      (GoesOn ord s ∨ ∃ results, s.status = .returned results ∧
        PlainResult ord filter pageSize s₀.table (answersOf tr) results) := by
  obtain ⟨_, _, hlen, hinv⟩ := run_plainInv hinit hrun halone
  cases hstatus : s.status with
  | scanning loop =>
    rw [hstatus] at hinv
    obtain ⟨_, _, hlimit, hleft⟩ := hinv
    refine ⟨by omega, Or.inl ⟨loop, hstatus, exists_reply ord s.table loop.args ?_⟩⟩
    intro n hn
    rw [hlimit] at hn
    exact withPageSize_limit_pos filter hn
  | returned results =>
    rw [hstatus] at hinv
    have hpages := hinv.2.1
    rw [hlen] at hpages
    exact ⟨hpages, Or.inr ⟨results, rfl, plainResult_of_returned hinit hrun halone hstatus⟩⟩
  | thrown err =>
    rw [hstatus] at hinv
    exact absurd hinv id

/-! ### A key on the last record

    One stream is stored, and the scan asks for pages of one record. The
    first page names the only key, so that an empty page follows. -/

section keyOnLastRecord

private def plainCfg : Config := Config.ofEnv none none

private def onlyReq : StreamReq := ⟨some 0, some plainCfg.databaseTTL, some false⟩

private def oneStored : Table Nat := storeStreamReq plainCfg 0 1 ∅

private def fullPage : ScanCommandOutput Nat := ⟨some [(1, onlyReq)], some 1⟩

private def emptyPage : ScanCommandOutput Nat := ⟨some [], none⟩

private def plainLoop (results : List (Item Nat)) (key : Option Nat) : ScanLoop Nat where
  args := { filterExpression := anchoredIs false, limit := some 1, exclusiveStartKey := key }
  results := results
  lastEvaluatedKey := key

private theorem lookup_oneStored (k : Nat) :
    oneStored.lookup k = if k = 1 then some onlyReq else none := by
  unfold oneStored
  rw [lookup_storeStreamReq]
  simp [onlyReq]

private theorem fullPage_reply :
    ScanReply Nat.instLinearOrder oneStored (plainLoop [] none).args fullPage := by
  refine ⟨[(1, onlyReq)], ⟨by simp, ?_, ?_, ?_, ?_⟩, by simp [plainLoop], by decide⟩
  · intro kv _ c hc
    simp [plainLoop] at hc
  · intro kv hkv
    rw [List.mem_singleton.mp hkv]
    simp [lookup_oneStored]
  · intro k v hv _ _
    rw [lookup_oneStored] at hv
    by_cases h : k = 1
    · simp only [h, if_true, Option.some.injEq] at hv
      simp [h, hv]
    · simp [h] at hv
  · intro z hz
    simp only [fullPage, Option.some.injEq] at hz
    exact ⟨onlyReq, by simp [hz]⟩

private theorem emptyPage_reply :
    ScanReply Nat.instLinearOrder oneStored (plainLoop [(1, onlyReq)] (some 1)).args
      emptyPage := by
  refine ⟨[], ⟨by simp, by simp, by simp, ?_, by simp [emptyPage]⟩, by simp, by decide⟩
  intro k v hv hafter _
  have hk : 1 < k := hafter 1 rfl
  rw [lookup_oneStored, if_neg (by omega)] at hv
  cases hv

/-- The empty page ends the scan, with the one record returned once. -/
theorem dynamoScan_key_on_last_record :
    PlainResult Nat.instLinearOrder (anchoredIs false) (some 1) oneStored
      [fullPage, emptyPage] [(1, onlyReq)] := by
  let sys := scanSystem plainCfg Nat.instLinearOrder (anchoredIs false) (some 1)
  have hinit : sys.init ⟨oneStored, .scanning (plainLoop [] none)⟩ := rfl
  have hfull : sys.step ⟨oneStored, .scanning (plainLoop [] none)⟩ (.page fullPage)
      ⟨oneStored, .scanning (plainLoop [(1, onlyReq)] (some 1))⟩ :=
    ⟨plainLoop [] none, rfl, fullPage_reply, rfl⟩
  have hempty : sys.step ⟨oneStored, .scanning (plainLoop [(1, onlyReq)] (some 1))⟩
      (.page emptyPage) ⟨oneStored, .returned [(1, onlyReq)]⟩ :=
    ⟨plainLoop [(1, onlyReq)] (some 1), rfl, emptyPage_reply, rfl⟩
  have hrun := (System.Run.nil.snoc hfull).snoc hempty
  obtain ⟨_, hgoes | ⟨results, hreturned, hresult⟩⟩ :=
    dynamoScan_refines_filter plainCfg Nat.instLinearOrder (anchoredIs false) (some 1) hinit hrun
      ((OnlyPages.nil.snoc fullPage).snoc emptyPage)
  · obtain ⟨loop, hscanning, _⟩ := hgoes
    cases hscanning
  · cases hreturned
    exact hresult

end keyOnLastRecord

end Suite
