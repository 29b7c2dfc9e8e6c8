import CeramicTests.Framework.Keyset
import Mathlib.Data.Finmap

/-! # The table of stream requests

    `suite/src/utils/dynamoDbHelpers.ts`. The suite records each stream it
    creates in one DynamoDB table, which all its runs share.

    - A record is a map entry: a stream id and the attributes `Creation`,
      `Expiration` and `Anchored`, each of which may be missing.
    - `putItem` replaces the record, `deleteItem` removes it, and
      `updateItem` sets one attribute, creating the record if the key is
      absent.
    - `dynamoScan` is a loop over pages; it is cut at its requests, so that
      other processes may write between two of them.

    Times are milliseconds since the epoch.
-/

namespace Suite

/-! ## Section 1: Records -/

/-- The attributes of one record. -/
structure StreamReq where
  creation : Option Int
  expiration : Option Int
  anchored : Option Bool
  deriving DecidableEq, Repr

/-- The table: a finite map from stream ids to records. -/
abbrev Table (K : Type) := Finmap fun _ : K => StreamReq

/-- A record as a scan returns it. -/
abbrev Item (K : Type) := K × StreamReq

/-- The durations that the environment of a run fixes. -/
structure Config where
  anchorInterval : Int
  streamTTL : Int
  deriving DecidableEq, Repr

def minutes (n : Int) : Int := n * 60 * 1000

/-- One week. -/
def DEFAULT_STREAM_TTL_MINS : Int := 60 * 24 * 7

/-- `AnchorInterval` and `StreamTTL` from `ANCHOR_INTERVAL_MIN` and
    `STREAM_TTL_MIN`. A zero anchor interval falls back to 12 hours, while
    any text in `STREAM_TTL_MIN` is taken as it is. -/
def Config.ofEnv (anchorIntervalMin streamTtlMin : Option Int) : Config where
  anchorInterval :=
    match anchorIntervalMin with
    | some n => minutes (if n = 0 then 720 else n)
    | none => minutes 720
  streamTTL := minutes (streamTtlMin.getD DEFAULT_STREAM_TTL_MINS)

/-- A second line of defence behind the garbage collection: twice the
    expected lifetime. -/
def Config.databaseTTL (cfg : Config) : Int := cfg.streamTTL + cfg.streamTTL

/-! ## Section 2: Writes -/

section writes

variable {K : Type} [DecidableEq K]

def storeStreamReq (cfg : Config) (now : Int) (streamId : K) (T : Table K) : Table K :=
  T.insert streamId
    { creation := some now
      expiration := some (now + cfg.databaseTTL)
      anchored := some false }

def deleteStreamReq (streamId : K) (T : Table K) : Table K :=
  T.erase streamId

/-- The record that `updateItem` sets its attribute in: the one in the
    table, or a new one without attributes. -/
def itemOrNew (streamId : K) (T : Table K) : StreamReq :=
  (T.lookup streamId).getD { creation := none, expiration := none, anchored := none }

def markStreamReqAsAnchored (streamId : K) (T : Table K) : Table K :=
  T.insert streamId { itemOrNew streamId T with anchored := some true }

/-- The writes as requests to the table. -/
inductive Write (K : Type) where
  | putItem (streamId : K) (now : Int)
  | updateItem (streamId : K)
  | deleteItem (streamId : K)
  deriving DecidableEq, Repr

def Write.apply (cfg : Config) : Write K → Table K → Table K
  | .putItem streamId now, T => storeStreamReq cfg now streamId T
  | .updateItem streamId, T => markStreamReqAsAnchored streamId T
  | .deleteItem streamId, T => deleteStreamReq streamId T

theorem lookup_storeStreamReq (cfg : Config) (now : Int) (s k : K) (T : Table K) :
    (storeStreamReq cfg now s T).lookup k =
      if k = s then
        some ⟨some now, some (now + cfg.databaseTTL), some false⟩
      else T.lookup k := by
  unfold storeStreamReq
  by_cases h : k = s
  · subst h; simp
  · rw [if_neg h, Finmap.lookup_insert_of_ne _ h]

theorem lookup_deleteStreamReq (s k : K) (T : Table K) :
    (deleteStreamReq s T).lookup k = if k = s then none else T.lookup k := by
  unfold deleteStreamReq
  by_cases h : k = s
  · subst h; simp
  · rw [if_neg h, Finmap.lookup_erase_ne h]

theorem lookup_markStreamReqAsAnchored (s k : K) (T : Table K) :
    (markStreamReqAsAnchored s T).lookup k =
      if k = s then some { itemOrNew s T with anchored := some true } else T.lookup k := by
  unfold markStreamReqAsAnchored
  by_cases h : k = s
  · subst h; simp
  · rw [if_neg h, Finmap.lookup_insert_of_ne _ h]

@[simp] theorem itemOrNew_of_lookup {s : K} {T : Table K} {r : StreamReq}
    (h : T.lookup s = some r) : itemOrNew s T = r := by
  simp [itemOrNew, h]

/-- A record that is not deleted stays recorded. -/
theorem recorded_apply {cfg : Config} {w : Write K} {k : K} {T : Table K}
    (hw : w ≠ .deleteItem k) (h : (T.lookup k).isSome = true) :
    ((w.apply cfg T).lookup k).isSome = true := by
  cases w with
  | putItem s now =>
    show ((storeStreamReq cfg now s T).lookup k).isSome = true
    rw [lookup_storeStreamReq]
    split
    · rfl
    · exact h
  | updateItem s =>
    show ((markStreamReqAsAnchored s T).lookup k).isSome = true
    rw [lookup_markStreamReqAsAnchored]
    split
    · rfl
    · exact h
  | deleteItem s =>
    show ((deleteStreamReq s T).lookup k).isSome = true
    have hne : k ≠ s := fun heq => hw (by rw [heq])
    rw [lookup_deleteStreamReq, if_neg hne]
    exact h

end writes

/-! ## Section 3: Filters -/

/-- The filter `Anchored = :anchored`. A missing attribute does not match. -/
def anchoredIs (b : Bool) (r : StreamReq) : Bool := r.anchored == some b

/-- The filter `Creation < :expired`. -/
def createdBefore (expired : Int) (r : StreamReq) : Bool :=
  match r.creation with
  | some creation => decide (creation < expired)
  | none => false

/-! ## Section 4: The scan loop -/

/-- The text of an error that the functions of this file caught and threw
    again. -/
def unexpected (err : String) : String := "unexpected error: " ++ err

structure ScanCommandInput (K : Type) where
  filterExpression : StreamReq → Bool
  limit : Option Nat
  exclusiveStartKey : Option K

structure ScanCommandOutput (K : Type) where
  items : Option (List (Item K))
  lastEvaluatedKey : Option K
  deriving DecidableEq

/-- The arguments that the fetch functions build. -/
def scanArgs {K : Type} (filterExpression : StreamReq → Bool) : ScanCommandInput K where
  filterExpression := filterExpression
  limit := none
  exclusiveStartKey := none

def MAX_SCAN_RESULTS : Nat := 10 * 1000

/-- The local variables of the loop in `dynamoScan`. -/
structure ScanLoop (K : Type) where
  args : ScanCommandInput K
  results : List (Item K)
  lastEvaluatedKey : Option K

/-- A call of `dynamoScan`: waiting for the answer to the request `loop.args`,
    or ended. -/
inductive ScanStatus (K : Type) where
  | scanning (loop : ScanLoop K)
  | returned (results : List (Item K))
  | thrown (err : String)

section scan

variable {K : Type}

/-- The head of the while loop, up to the request. -/
def ScanLoop.enter (loop : ScanLoop K) : ScanStatus K :=
  if loop.results.length < MAX_SCAN_RESULTS then
    match loop.lastEvaluatedKey with
    | some key => .scanning { loop with args := { loop.args with exclusiveStartKey := some key } }
    | none => .scanning loop
  else .returned loop.results

/-- The rest of the loop body, from the answer to the next request. -/
def ScanLoop.receive (loop : ScanLoop K) (reply : Except String (ScanCommandOutput K)) :
    ScanStatus K :=
  match reply with
  -- the catch block wraps every error
  | .error err => .thrown (unexpected err)
  | .ok scanResult =>
    match scanResult.items with
    -- `if (!scanResult.Items) return results`
    | none => .returned loop.results
    | some items =>
      let results := loop.results ++ items
      match scanResult.lastEvaluatedKey with
      | some key => ScanLoop.enter { loop with results := results, lastEvaluatedKey := some key }
      | none => .returned results

/-- `if (pageSize) args.Limit = pageSize`: neither null nor zero sets a limit. -/
def withPageSize (args : ScanCommandInput K) (pageSize : Option Nat) : ScanCommandInput K :=
  match pageSize with
  | some n => if n = 0 then args else { args with limit := some n }
  | none => args

/-- A call of `dynamoScan` up to its first request. -/
def dynamoScan (args : ScanCommandInput K) (pageSize : Option Nat) : ScanStatus K :=
  ScanLoop.enter { args := withPageSize args pageSize, results := [], lastEvaluatedKey := none }

def fetchUnanchoredStreamReqs (pageSize : Option Nat) : ScanStatus K :=
  dynamoScan (scanArgs (anchoredIs false)) pageSize

def fetchAnchoredStreamReqs (pageSize : Option Nat) : ScanStatus K :=
  dynamoScan (scanArgs (anchoredIs true)) pageSize

def fetchExpiredStreamReqs (cfg : Config) (now : Int) (pageSize : Option Nat) : ScanStatus K :=
  dynamoScan (scanArgs (createdBefore (now - cfg.streamTTL))) pageSize

/-! ### What DynamoDB answers -/

/-- The answers that `Scan` may give over the table `T`: a page of the
    records strictly after `ExclusiveStartKey` in the order of the keys,
    at most `Limit` of them, of which those that pass the filter are
    returned. The page may end anywhere, and then names its last key. -/
def ScanReply (ord : LinearOrder K) [DecidableEq K] (T : Table K) (args : ScanCommandInput K)
    (out : ScanCommandOutput K) : Prop :=
  ∃ evaluated : List (Item K),
    Keyset.PageRead ord (fun k => T.lookup k) args.exclusiveStartKey evaluated
      out.lastEvaluatedKey ∧
    (∀ n, args.limit = some n → evaluated.length ≤ n) ∧
    out.items = some (evaluated.filter fun it => args.filterExpression it.2)

/-- A table with one record may be answered with one page. -/
theorem scanReply_single [DecidableEq K] (ord : LinearOrder K) {T : Table K} {s : K}
    {r : StreamReq} {args : ScanCommandInput K}
    (hT : ∀ k, T.lookup k = if k = s then some r else none)
    (hkey : args.exclusiveStartKey = none) (hlimit : args.limit = none) :
    ScanReply ord T args ⟨some ([(s, r)].filter fun it => args.filterExpression it.2), none⟩ := by
  refine ⟨[(s, r)], ⟨by simp, ?_, ?_, ?_, ?_⟩, ?_, rfl⟩
  · intro kv _ c hc
    rw [hkey] at hc
    cases hc
  · intro kv hkv
    rw [List.mem_singleton.mp hkv]
    show T.lookup s = some r
    rw [hT, if_pos rfl]
  · intro k v hv _ _
    have hv : T.lookup k = some v := hv
    rw [hT] at hv
    by_cases hk : k = s
    · rw [if_pos hk, Option.some.injEq] at hv
      rw [hk, ← hv]
      exact List.mem_singleton_self _
    · rw [if_neg hk] at hv
      cases hv
  · intro z hz
    cases hz
  · intro n hn
    rw [hlimit] at hn
    cases hn

/-! ### Lemmas on the loop -/

theorem enter_of_lt {loop : ScanLoop K} (h : loop.results.length < MAX_SCAN_RESULTS) :
    loop.enter = .scanning { loop with args :=
      { loop.args with exclusiveStartKey :=
          loop.lastEvaluatedKey.or loop.args.exclusiveStartKey } } := by
  obtain ⟨args, results, last⟩ := loop
  unfold ScanLoop.enter
  rw [if_pos h]
  cases last <;> rfl

theorem enter_of_ge {loop : ScanLoop K} (h : ¬ loop.results.length < MAX_SCAN_RESULTS) :
    loop.enter = .returned loop.results := by
  unfold ScanLoop.enter
  rw [if_neg h]

/-- **After a page.** The loop asks for the page after `LastEvaluatedKey`
    if there is one and the size limit is not reached. Otherwise it has
    returned everything. -/
theorem receive_page (loop : ScanLoop K) {out : ScanCommandOutput K} {items : List (Item K)}
    (hitems : out.items = some items) :
    (∃ key, out.lastEvaluatedKey = some key ∧
      (loop.results ++ items).length < MAX_SCAN_RESULTS ∧
      loop.receive (.ok out) = .scanning
        { args := { loop.args with exclusiveStartKey := some key }
          results := loop.results ++ items
          lastEvaluatedKey := some key }) ∨
    ((MAX_SCAN_RESULTS ≤ (loop.results ++ items).length ∨ out.lastEvaluatedKey = none) ∧
      loop.receive (.ok out) = .returned (loop.results ++ items)) := by
  unfold ScanLoop.receive
  simp only [hitems]
  cases hlast : out.lastEvaluatedKey with
  | none => exact Or.inr ⟨Or.inr rfl, rfl⟩
  | some key =>
    by_cases hlt : (loop.results ++ items).length < MAX_SCAN_RESULTS
    · left
      exact ⟨key, rfl, hlt, enter_of_lt hlt⟩
    · right
      exact ⟨Or.inl (not_lt.mp hlt), enter_of_ge hlt⟩

@[simp] theorem withPageSize_filterExpression (args : ScanCommandInput K) (pageSize : Option Nat) :
    (withPageSize args pageSize).filterExpression = args.filterExpression := by
  unfold withPageSize
  cases pageSize with
  | none => rfl
  | some n => by_cases h : n = 0 <;> simp [h]

@[simp] theorem withPageSize_exclusiveStartKey (args : ScanCommandInput K)
    (pageSize : Option Nat) :
    (withPageSize args pageSize).exclusiveStartKey = args.exclusiveStartKey := by
  unfold withPageSize
  cases pageSize with
  | none => rfl
  | some n => by_cases h : n = 0 <;> simp [h]

end scan

end Suite
