import CeramicTests.Framework.Replay
import CeramicTests.Suite.PlainScan

/-! # What a history of requests leaves in the table

    `helpers.test.ts` calls the helpers of `dynamoDbHelpers.ts` one after
    another and compares what the fetch functions return. What they return
    after any such history depends, for each stream, on one call of it only.

    - Section 1: the calls
    - Section 2: the attributes after a history
    - Section 3: the fetch functions after a history

    An update of a stream that is not recorded makes a record with one
    attribute, which one of the fetch functions finds and the others do not.
-/

namespace Suite

open Framework Transition

/-! ## Section 1: The calls -/

section calls

variable {K : Type} [DecidableEq K]

/-- `makeStreamReqAppearExpired_FOR_TESTING_ONLY`: one second too old. -/
def makeStreamReqAppearExpired (cfg : Config) (now : Int) (streamId : K) (T : Table K) : Table K :=
  T.insert streamId { itemOrNew streamId T with creation := some (now - cfg.streamTTL - 1000) }

theorem lookup_makeStreamReqAppearExpired (cfg : Config) (now : Int) (s k : K) (T : Table K) :
    (makeStreamReqAppearExpired cfg now s T).lookup k =
      if k = s then some { itemOrNew s T with creation := some (now - cfg.streamTTL - 1000) }
      else T.lookup k := by
  unfold makeStreamReqAppearExpired
  by_cases h : k = s
  · subst h
    simp
  · rw [if_neg h, Finmap.lookup_insert_of_ne _ h]

/-- A call of a helper that writes, with the time that it reads. -/
inductive HelperCall (K : Type) where
  | storeStreamReq (streamId : K) (now : Int)
  | markStreamReqAsAnchored (streamId : K)
  | makeStreamReqAppearExpired (streamId : K) (now : Int)
  | deleteStreamReq (streamId : K)
  deriving DecidableEq, Repr

def HelperCall.apply (cfg : Config) : HelperCall K → Table K → Table K
  | .storeStreamReq streamId now, T => Suite.storeStreamReq cfg now streamId T
  | .markStreamReqAsAnchored streamId, T => Suite.markStreamReqAsAnchored streamId T
  | .makeStreamReqAppearExpired streamId now, T =>
    Suite.makeStreamReqAppearExpired cfg now streamId T
  | .deleteStreamReq streamId, T => Suite.deleteStreamReq streamId T

/-- The table after these calls. -/
def afterCalls (cfg : Config) (history : List (HelperCall K)) (T : Table K) : Table K :=
  history.foldl (fun T call => call.apply cfg T) T

/-! ## Section 2: The attributes after a history -/

/-- An attribute of the record of a stream, if it has one. -/
def attr {V : Type} (field : StreamReq → Option V) (k : K) (T : Table K) : Option V :=
  (T.lookup k).bind field

/-- What a call sets `Anchored` of a stream to. A deletion leaves nothing. -/
def setsAnchored (k : K) : HelperCall K → Option (Option Bool)
  | .storeStreamReq streamId _ => if streamId = k then some (some false) else none
  | .markStreamReqAsAnchored streamId => if streamId = k then some (some true) else none
  | .makeStreamReqAppearExpired _ _ => none
  | .deleteStreamReq streamId => if streamId = k then some none else none

def setsCreation (cfg : Config) (k : K) : HelperCall K → Option (Option Int)
  | .storeStreamReq streamId now => if streamId = k then some (some now) else none
  | .markStreamReqAsAnchored _ => none
  | .makeStreamReqAppearExpired streamId now =>
    if streamId = k then some (some (now - cfg.streamTTL - 1000)) else none
  | .deleteStreamReq streamId => if streamId = k then some none else none

variable {cfg : Config} {k : K}

theorem itemOrNew_attr {V : Type} {field : StreamReq → Option V} {T : Table K}
    (hnew : field ⟨none, none, none⟩ = none) : field (itemOrNew k T) = attr field k T := by
  unfold itemOrNew attr
  cases T.lookup k with
  | none => exact hnew
  | some r => rfl

theorem anchored_apply (T : Table K) (call : HelperCall K) :
    attr StreamReq.anchored k (call.apply cfg T) =
      (setsAnchored k call).getD (attr StreamReq.anchored k T) := by
  cases call with
  | storeStreamReq s now =>
    by_cases h : k = s
    · simp [HelperCall.apply, attr, lookup_storeStreamReq, setsAnchored, h]
    · simp [HelperCall.apply, attr, lookup_storeStreamReq, setsAnchored, h, Ne.symm h]
  | markStreamReqAsAnchored s =>
    by_cases h : k = s
    · simp [HelperCall.apply, attr, lookup_markStreamReqAsAnchored, setsAnchored, h]
    · simp [HelperCall.apply, attr, lookup_markStreamReqAsAnchored, setsAnchored, h, Ne.symm h]
  | makeStreamReqAppearExpired s now =>
    by_cases h : k = s
    · subst h
      have hkept : (itemOrNew k T).anchored = (T.lookup k).bind StreamReq.anchored :=
        itemOrNew_attr rfl
      simpa [HelperCall.apply, attr, lookup_makeStreamReqAppearExpired, setsAnchored] using hkept
    · simp [HelperCall.apply, attr, lookup_makeStreamReqAppearExpired, setsAnchored, h]
  | deleteStreamReq s =>
    by_cases h : k = s
    · simp [HelperCall.apply, attr, lookup_deleteStreamReq, setsAnchored, h]
    · simp [HelperCall.apply, attr, lookup_deleteStreamReq, setsAnchored, h, Ne.symm h]

theorem creation_apply (T : Table K) (call : HelperCall K) :
    attr StreamReq.creation k (call.apply cfg T) =
      (setsCreation cfg k call).getD (attr StreamReq.creation k T) := by
  cases call with
  | storeStreamReq s now =>
    by_cases h : k = s
    · simp [HelperCall.apply, attr, lookup_storeStreamReq, setsCreation, h]
    · simp [HelperCall.apply, attr, lookup_storeStreamReq, setsCreation, h, Ne.symm h]
  | markStreamReqAsAnchored s =>
    by_cases h : k = s
    · subst h
      have hkept : (itemOrNew k T).creation = (T.lookup k).bind StreamReq.creation :=
        itemOrNew_attr rfl
      simpa [HelperCall.apply, attr, lookup_markStreamReqAsAnchored, setsCreation] using hkept
    · simp [HelperCall.apply, attr, lookup_markStreamReqAsAnchored, setsCreation, h]
  | makeStreamReqAppearExpired s now =>
    by_cases h : k = s
    · simp [HelperCall.apply, attr, lookup_makeStreamReqAppearExpired, setsCreation, h]
    · simp [HelperCall.apply, attr, lookup_makeStreamReqAppearExpired, setsCreation, h, Ne.symm h]
  | deleteStreamReq s =>
    by_cases h : k = s
    · simp [HelperCall.apply, attr, lookup_deleteStreamReq, setsCreation, h]
    · simp [HelperCall.apply, attr, lookup_deleteStreamReq, setsCreation, h, Ne.symm h]

theorem setsAnchored_false {call : HelperCall K} :
    setsAnchored k call = some (some false) ↔ ∃ t, call = .storeStreamReq k t := by
  cases call <;> simp [setsAnchored]

theorem setsAnchored_true {call : HelperCall K} :
    setsAnchored k call = some (some true) ↔ call = .markStreamReqAsAnchored k := by
  cases call <;> simp [setsAnchored]

theorem setsCreation_some {call : HelperCall K} {creation : Int} :
    setsCreation cfg k call = some (some creation) ↔ call = .storeStreamReq k creation ∨
      ∃ t, call = .makeStreamReqAppearExpired k t ∧ creation = t - cfg.streamTTL - 1000 := by
  cases call <;> simp [setsCreation, eq_comm]

theorem attr_eq_some {V : Type} {field : StreamReq → Option V} {T : Table K} {v : V} :
    attr field k T = some v ↔ ∃ r, T.lookup k = some r ∧ field r = some v :=
  Option.bind_eq_some_iff

/-- `Anchored` after a history. -/
theorem anchored_afterCalls {history : List (HelperCall K)} {T : Table K} {v : Option Bool} :
    attr StreamReq.anchored k (afterCalls cfg history T) = v ↔
      (∃ call, IsLast (setsAnchored k) history call ∧ setsAnchored k call = some v) ∨
        (∀ call ∈ history, setsAnchored k call = none) ∧ attr StreamReq.anchored k T = v :=
  view_foldl_eq_iff anchored_apply T

/-- `Creation` after a history. -/
theorem creation_afterCalls {history : List (HelperCall K)} {T : Table K} {v : Option Int} :
    attr StreamReq.creation k (afterCalls cfg history T) = v ↔
      (∃ call, IsLast (setsCreation cfg k) history call ∧ setsCreation cfg k call = some v) ∨
        (∀ call ∈ history, setsCreation cfg k call = none) ∧ attr StreamReq.creation k T = v :=
  view_foldl_eq_iff creation_apply T

end calls

/-! ## Section 3: The fetch functions after a history -/

section fetches

variable {K : Type}

/-- A fetch function is a scan with a filter. -/
structure Fetch (K : Type) where
  filter : StreamReq → Bool
  call : Option Nat → ScanStatus K
  isScan : ∀ pageSize, call pageSize = dynamoScan (scanArgs filter) pageSize

theorem unanchored_isScan (pageSize : Option Nat) : (fetchUnanchoredStreamReqs pageSize :
    ScanStatus K) = dynamoScan (scanArgs (anchoredIs false)) pageSize := rfl

theorem anchored_isScan (pageSize : Option Nat) : (fetchAnchoredStreamReqs pageSize :
    ScanStatus K) = dynamoScan (scanArgs (anchoredIs true)) pageSize := rfl

theorem expired_isScan (cfg : Config) (now : Int) (pageSize : Option Nat) :
    (fetchExpiredStreamReqs cfg now pageSize : ScanStatus K) =
      dynamoScan (scanArgs (createdBefore (now - cfg.streamTTL))) pageSize := rfl

def unanchoredReqs : Fetch K := ⟨anchoredIs false, fetchUnanchoredStreamReqs, unanchored_isScan⟩

def anchoredReqs : Fetch K := ⟨anchoredIs true, fetchAnchoredStreamReqs, anchored_isScan⟩

def expiredReqs (cfg : Config) (now : Int) : Fetch K :=
  ⟨createdBefore (now - cfg.streamTTL), fetchExpiredStreamReqs cfg now, expired_isScan cfg now⟩

/-- Each stream once, and only streams that are wanted. All of them, unless
    the size limit has ended the scan. -/
structure Fetched (results : List (Item K)) (wanted : K → Prop) : Prop where
  nodup : (results.map Prod.fst).Nodup
  sound : ∀ k ∈ results.map Prod.fst, wanted k
  complete : results.length < MAX_SCAN_RESULTS → ∀ k, wanted k → k ∈ results.map Prod.fst

variable [DecidableEq K]

/-- Called with a page size, the function returns these results. Nobody
    writes to the table meanwhile. -/
def Fetch.Returns (fetch : Fetch K) (cfg : Config) (ord : LinearOrder K) (pageSize : Option Nat)
    (T : Table K) (results : List (Item K)) : Prop :=
  ∃ tr s, (scanSystem cfg ord fetch.filter pageSize).Run ⟨T, fetch.call pageSize⟩ tr s ∧
    OnlyPages tr ∧ s.status = .returned results

variable {cfg : Config} {ord : LinearOrder K} {pageSize : Option Nat} {T : Table K}
  {results : List (Item K)}

/-- A stream is fetched if its record passes the filter. -/
theorem Fetch.Returns.fetched {fetch : Fetch K} (h : fetch.Returns cfg ord pageSize T results)
    {wanted : K → Prop}
    (hwanted : ∀ k, wanted k ↔ ∃ r, T.lookup k = some r ∧ fetch.filter r = true) :
    Fetched results wanted := by
  obtain ⟨tr, s, hrun, halone, hret⟩ := h
  have hinit : (scanSystem cfg ord fetch.filter pageSize).init ⟨T, fetch.call pageSize⟩ :=
    fetch.isScan pageSize
  have hplain : PlainResult ord fetch.filter pageSize T (answersOf tr) results :=
    plainResult_of_returned hinit hrun halone hret
  have hmatch : ∀ it, it ∈ matchingRecords ord fetch.filter T ↔
      T.lookup it.1 = some it.2 ∧ fetch.filter it.2 = true := by
    intro it
    rw [matchingRecords, List.mem_filter, mem_records]
  refine ⟨hplain.nodup, ?_, ?_⟩
  · intro k hk
    obtain ⟨it, hit, rfl⟩ := List.mem_map.mp hk
    obtain ⟨hlookup, hfilter⟩ := (hmatch it).mp (hplain.isPrefix.subset hit)
    exact (hwanted it.1).mpr ⟨it.2, hlookup, hfilter⟩
  · intro hfew k hk
    obtain ⟨r, hlookup, hfilter⟩ := (hwanted k).mp hk
    -- with as many matches as the limit, there would be as many results
    have hall : (matchingRecords ord fetch.filter T).length < MAX_SCAN_RESULTS := by
      by_contra hmany
      have hfull := (hplain.first_full (not_lt.mp hmany)).1
      omega
    rw [hplain.whole hall]
    exact List.mem_map.mpr ⟨(k, r), (hmatch (k, r)).mpr ⟨hlookup, hfilter⟩, rfl⟩

theorem anchoredIs_iff {k : K} {b : Bool} : attr StreamReq.anchored k T = some b ↔
    ∃ r, T.lookup k = some r ∧ anchoredIs b r = true := by
  simp only [attr_eq_some, anchoredIs, beq_iff_eq]

theorem createdBefore_iff {k : K} {limit : Int} :
    (∃ creation, attr StreamReq.creation k T = some creation ∧ creation < limit) ↔
      ∃ r, T.lookup k = some r ∧ createdBefore limit r = true := by
  constructor
  · intro ⟨creation, hcreation, hlt⟩
    obtain ⟨r, hr, hfield⟩ := attr_eq_some.mp hcreation
    exact ⟨r, hr, by simp [createdBefore, hfield, hlt]⟩
  · intro ⟨r, hr, hbefore⟩
    cases hfield : r.creation with
    | none => simp [createdBefore, hfield] at hbefore
    | some creation =>
      refine ⟨creation, attr_eq_some.mpr ⟨r, hr, hfield⟩, ?_⟩
      simpa [createdBefore, hfield] using hbefore

/-- The last call that sets `Anchored` of the stream is one that stores it,
    or there is none and the record was unanchored before. -/
def IsUnanchored (history : List (HelperCall K)) (T : Table K) (k : K) : Prop :=
  (∃ t, IsLast (setsAnchored k) history (.storeStreamReq k t)) ∨
    (∀ call ∈ history, setsAnchored k call = none) ∧ attr StreamReq.anchored k T = some false

/-- The last call that sets `Anchored` of the stream is one that marks it,
    or there is none and the record was anchored before. -/
def IsAnchored (history : List (HelperCall K)) (T : Table K) (k : K) : Prop :=
  IsLast (setsAnchored k) history (.markStreamReqAsAnchored k) ∨
    (∀ call ∈ history, setsAnchored k call = none) ∧ attr StreamReq.anchored k T = some true

/-- The last call that sets `Creation` of the stream has stored it too long
    ago, or has made it appear expired, or there is none and the record was
    too old before. -/
def IsExpired (cfg : Config) (now : Int) (history : List (HelperCall K)) (T : Table K) (k : K) :
    Prop :=
  (∃ t, IsLast (setsCreation cfg k) history (.storeStreamReq k t) ∧ t + cfg.streamTTL < now) ∨
  (∃ t, IsLast (setsCreation cfg k) history (.makeStreamReqAppearExpired k t) ∧ t < now + 1000) ∨
    (∀ call ∈ history, setsCreation cfg k call = none) ∧
      ∃ creation, attr StreamReq.creation k T = some creation ∧ creation + cfg.streamTTL < now

theorem isUnanchored_iff (cfg : Config) {history : List (HelperCall K)} {k : K} :
    IsUnanchored history T k ↔
      attr StreamReq.anchored k (afterCalls cfg history T) = some false := by
  rw [anchored_afterCalls]
  simp only [setsAnchored_false]
  constructor
  · rintro (⟨t, hlast⟩ | hbefore)
    · exact Or.inl ⟨_, hlast, t, rfl⟩
    · exact Or.inr hbefore
  · rintro (⟨_, hlast, t, rfl⟩ | hbefore)
    · exact Or.inl ⟨t, hlast⟩
    · exact Or.inr hbefore

theorem isAnchored_iff (cfg : Config) {history : List (HelperCall K)} {k : K} :
    IsAnchored history T k ↔
      attr StreamReq.anchored k (afterCalls cfg history T) = some true := by
  rw [anchored_afterCalls]
  simp only [setsAnchored_true, exists_eq_right]
  rfl

theorem isExpired_iff {history : List (HelperCall K)} {now : Int} {k : K} :
    IsExpired cfg now history T k ↔ ∃ creation,
      attr StreamReq.creation k (afterCalls cfg history T) = some creation ∧
        creation < now - cfg.streamTTL := by
  simp only [creation_afterCalls, setsCreation_some]
  constructor
  · rintro (⟨t, hlast, hold⟩ | ⟨t, hlast, hold⟩ | ⟨hnone, creation, hcreation, hold⟩)
    · exact ⟨t, Or.inl ⟨_, hlast, Or.inl rfl⟩, by omega⟩
    · exact ⟨t - cfg.streamTTL - 1000, Or.inl ⟨_, hlast, Or.inr ⟨t, rfl, rfl⟩⟩, by omega⟩
    · exact ⟨creation, Or.inr ⟨hnone, hcreation⟩, by omega⟩
  · rintro ⟨creation, ⟨_, hlast, rfl | ⟨t, rfl, rfl⟩⟩ | ⟨hnone, hcreation⟩, hold⟩
    · exact Or.inl ⟨creation, hlast, by omega⟩
    · exact Or.inr (Or.inl ⟨t, hlast, by omega⟩)
    · exact Or.inr (Or.inr ⟨hnone, creation, hcreation, by omega⟩)

/-- **One call decides.** After any calls of the helpers on any table, each
    fetch function returns the streams whose last call of its kind says so,
    whatever the page size and however the pages are cut. -/
theorem fetched_after_calls (cfg : Config) (ord : LinearOrder K) (history : List (HelperCall K))
    (T : Table K) (pageSize : Option Nat) (now : Int) (results : List (Item K)) :
    (unanchoredReqs.Returns cfg ord pageSize (afterCalls cfg history T) results →
      Fetched results (IsUnanchored history T)) ∧
    (anchoredReqs.Returns cfg ord pageSize (afterCalls cfg history T) results →
      Fetched results (IsAnchored history T)) ∧
    ((expiredReqs cfg now).Returns cfg ord pageSize (afterCalls cfg history T) results →
      Fetched results (IsExpired cfg now history T)) := by
  refine ⟨fun h => h.fetched ?_, fun h => h.fetched ?_, fun h => h.fetched ?_⟩
  · intro k
    rw [isUnanchored_iff cfg]
    exact anchoredIs_iff
  · intro k
    rw [isAnchored_iff cfg]
    exact anchoredIs_iff
  · intro k
    rw [isExpired_iff]
    exact createdBefore_iff

private def oneWeek : Config := Config.ofEnv none none

/-- A stream that is stored, and at once made to appear expired. -/
private def expirationFlow : List (HelperCall Nat) :=
  [.storeStreamReq 1 0, .makeStreamReqAppearExpired 1 0]

private def expiredReq : StreamReq :=
  ⟨some (0 - oneWeek.streamTTL - 1000), some (0 + oneWeek.databaseTTL), some false⟩

private theorem lookup_expirationFlow (k : Nat) :
    (afterCalls oneWeek expirationFlow ∅).lookup k = if k = 1 then some expiredReq else none := by
  unfold afterCalls expirationFlow
  simp only [List.foldl_cons, List.foldl_nil, HelperCall.apply, lookup_makeStreamReqAppearExpired,
    lookup_storeStreamReq, itemOrNew]
  by_cases h : k = 1 <;> simp [h, expiredReq]

/-- The scan for expired streams finds it. -/
theorem expiration_flow_fetched : ∃ results,
    (expiredReqs oneWeek 0).Returns oneWeek Nat.instLinearOrder none
      (afterCalls oneWeek expirationFlow ∅) results ∧
    Fetched results (IsExpired oneWeek 0 expirationFlow ∅) := by
  have hreply : ScanReply Nat.instLinearOrder (afterCalls oneWeek expirationFlow ∅)
      (scanArgs (expiredReqs oneWeek 0 : Fetch Nat).filter) ⟨some [(1, expiredReq)], none⟩ :=
    scanReply_single Nat.instLinearOrder lookup_expirationFlow rfl rfl
  have hstep : (scanSystem oneWeek Nat.instLinearOrder (expiredReqs oneWeek 0 : Fetch Nat).filter
      none).step ⟨afterCalls oneWeek expirationFlow ∅, (expiredReqs oneWeek 0).call none⟩
      (.page ⟨some [(1, expiredReq)], none⟩)
      ⟨afterCalls oneWeek expirationFlow ∅, .returned [(1, expiredReq)]⟩ :=
    ⟨⟨scanArgs (expiredReqs oneWeek 0 : Fetch Nat).filter, [], none⟩, rfl, hreply, rfl⟩
  have hreturns : (expiredReqs oneWeek 0).Returns oneWeek Nat.instLinearOrder none
      (afterCalls oneWeek expirationFlow ∅) [(1, expiredReq)] := by
    refine ⟨_, _, System.Run.nil.snoc hstep, ?_, rfl⟩
    intro f hf
    rw [List.mem_singleton.mp hf]
    exact ⟨_, rfl⟩
  exact ⟨_, hreturns, (fetched_after_calls oneWeek Nat.instLinearOrder expirationFlow ∅ none 0
    _).2.2 hreturns⟩

end fetches

end Suite
