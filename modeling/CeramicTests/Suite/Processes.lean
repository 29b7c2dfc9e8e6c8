import CeramicTests.Framework.Client
import CeramicTests.Suite.DynamoDb

/-! # The processes that share the table

    The tests of the suite that read or write the table, each cut at its
    requests:

    - `test anchors`, from `correctness/fast/anchor.test.ts`
    - `garbage collection`, from `correctness/fast/garbage-collect.test.ts`
    - a test that stores the stream it created, from
      `correctness/fast/update.test.ts`

    A test that throws is `failed` with the text of its error.
-/

namespace Suite

open Framework

/-! ## Section 1: Requests and replies -/

inductive AnchorStatus where
  | NOT_REQUESTED
  | PENDING
  | PROCESSING
  | ANCHORED
  | FAILED
  | REPLACED
  deriving DecidableEq, Repr

/-- What the anchor check uses of a loaded stream. -/
structure Doc (K : Type) where
  id : K
  anchorStatus : AnchorStatus
  deriving DecidableEq, Repr

inductive Request (K : Type) where
  | scan (args : ScanCommandInput K)
  | loadStream (streamId : K)
  | pinRm (url : String) (streamId : K)
  | write (w : Write K)

/-- `loaded` comes with the clock that the test reads next. After `lost` the
    request has been performed, although the caller sees an error. -/
inductive Reply (K : Type) where
  | scanned (out : ScanCommandOutput K)
  | loaded (doc : Doc K) (now : Int)
  | done
  | error (err : String)
  | lost (err : String)

variable {K : Type}

/-- The request of this reply has been performed. -/
def Reply.performed : Reply K → Bool
  | .error _ => false
  | _ => true

/-- A reply as the promise of a call that returns nothing. -/
def Reply.result : Reply K → Except String Unit
  | .error err => .error err
  | .lost err => .error err
  | _ => .ok ()

/-- A reply as the promise of `DynamoClient.scan`. -/
def Reply.scanResult : Reply K → Except String (ScanCommandOutput K)
  | .scanned out => .ok out
  | .error err => .error err
  | .lost err => .error err
  | _ => .error "not the answer to a scan"

/-! ## Section 2: The anchor check -/

/-- `test anchors`, at each of its requests. -/
inductive AnchorCheck (K : Type) where
  | fetching (loop : ScanLoop K)
  | loading (req : Item K) (rest : List (Item K))
  | marking (id : K) (rest : List (Item K))
  | deleting (id : K) (err : String)
  | passed
  | failed (err : String)

namespace AnchorCheck

/-- The head of the for loop. -/
def next : List (Item K) → AnchorCheck K
  | [] => .passed
  | req :: rest => .loading req rest

def ofScan : ScanStatus K → AnchorCheck K
  | .scanning loop => .fetching loop
  | .returned anchorReqs => next anchorReqs
  | .thrown err => .failed err

/-- `test anchors` up to its first request. -/
def start : AnchorCheck K := ofScan (fetchUnanchoredStreamReqs none)

/-- The time since the creation, which `parseInt` cuts to whole seconds. -/
def delta (now creation : Int) : Int := now - creation.tdiv 1000 * 1000

/-- The loop body from the loaded stream to the first write. -/
def checkReq (cfg : Config) (req : Item K) (rest : List (Item K)) (doc : Doc K) (now : Int) :
    AnchorCheck K :=
  match req.2.creation with
  | none => .failed "TypeError: Cannot read properties of undefined (reading 'N')"
  | some creation =>
    if doc.anchorStatus = .ANCHORED ∨ cfg.anchorInterval ≤ delta now creation then
      -- inside the try block
      if doc.anchorStatus ≠ .ANCHORED ∧ ¬ delta now creation < cfg.anchorInterval then
        .deleting doc.id "expect(received).toBeLessThan(expected)"
      else .marking doc.id rest
    else next rest

def request : AnchorCheck K → Option (Request K)
  | .fetching loop => some (.scan loop.args)
  | .loading req _ => some (.loadStream req.1)
  | .marking id _ => some (.write (.updateItem id))
  | .deleting id _ => some (.write (.deleteItem id))
  | .passed => none
  | .failed _ => none

def resume (cfg : Config) : AnchorCheck K → Reply K → AnchorCheck K
  | .fetching loop, reply => ofScan (loop.receive reply.scanResult)
  | .loading req rest, .loaded doc now => checkReq cfg req rest doc now
  | .loading _ _, .error err => .failed err
  | .loading _ _, .lost err => .failed err
  | .loading _ _, _ => .failed "not the answer to loadStream"
  | .marking id rest, reply =>
    match reply.result with
    | .ok _ => next rest
    -- a write that fails is caught like a failed expectation
    | .error err => .deleting id (unexpected err)
  | .deleting _ err, reply =>
    match reply.result with
    | .ok _ => .failed err
    | .error err' => .failed (unexpected err')
  | .passed, _ => .passed
  | .failed err, _ => .failed err

/-- `test anchors` as a client of the table. -/
def client (cfg : Config) : Client (AnchorCheck K) (Request K) (Reply K) where
  request := request
  resume := resume cfg

theorem resume_marking_ok {cfg : Config} {id : K} {rest : List (Item K)} {reply : Reply K}
    (h : reply.result = .ok ()) : (marking id rest).resume cfg reply = next rest := by
  unfold resume
  simp only [h]

theorem resume_marking_error {cfg : Config} {id : K} {rest : List (Item K)} {reply : Reply K}
    {err : String} (h : reply.result = .error err) :
    (marking id rest).resume cfg reply = .deleting id (unexpected err) := by
  unfold resume
  simp only [h]

/-- After its deletion an execution throws, whatever the answer. -/
theorem resume_deleting (cfg : Config) (id : K) (err : String) (reply : Reply K) :
    ∃ err', (deleting id err).resume cfg reply = .failed err' := by
  unfold resume
  cases hres : reply.result with
  | ok _ => exact ⟨err, by simp only [hres]⟩
  | error err' => exact ⟨unexpected err', by simp only [hres]⟩

/-- What the loop body does with a loaded stream, in its four cases. -/
theorem checkReq_cases (cfg : Config) (req : Item K) (rest : List (Item K)) (doc : Doc K)
    (now : Int) :
    (req.2.creation = none ∧ ∃ err, checkReq cfg req rest doc now = .failed err) ∨
    (∃ creation, req.2.creation = some creation ∧
      ((doc.anchorStatus = .ANCHORED ∧ checkReq cfg req rest doc now = .marking doc.id rest) ∨
      (doc.anchorStatus ≠ .ANCHORED ∧ cfg.anchorInterval ≤ delta now creation ∧
        ∃ err, checkReq cfg req rest doc now = .deleting doc.id err) ∨
      (doc.anchorStatus ≠ .ANCHORED ∧ delta now creation < cfg.anchorInterval ∧
        checkReq cfg req rest doc now = next rest))) := by
  unfold checkReq
  cases req.2.creation with
  | none => exact Or.inl ⟨rfl, _, rfl⟩
  | some creation =>
    right
    refine ⟨creation, rfl, ?_⟩
    dsimp only
    by_cases ha : doc.anchorStatus = .ANCHORED
    · -- an anchored stream is marked, in time or not
      left
      exact ⟨ha, by simp [ha]⟩
    · right
      -- otherwise the deadline decides
      by_cases hd : cfg.anchorInterval ≤ delta now creation
      · left
        exact ⟨ha, hd, _, by rw [if_pos (Or.inr hd), if_pos ⟨ha, not_lt.mpr hd⟩]⟩
      · right
        exact ⟨ha, not_le.mp hd, by simp [ha, hd]⟩

end AnchorCheck

/-! ## Section 3: The garbage collection -/

/-- `garbage collection`, at each of its requests. -/
inductive GarbageCollect (K : Type) where
  | fetching (loop : ScanLoop K)
  | unpinning (streamId : K) (url : String) (urls : List String) (rest : List (Item K))
  | deleting (streamId : K) (rest : List (Item K))
  | passed
  | failed (err : String)

namespace GarbageCollect

/-- The head of the inner loop, over the connections that are left. -/
def unpin (streamId : K) (rest : List (Item K)) : List String → GarbageCollect K
  | [] => .deleting streamId rest
  | url :: urls => .unpinning streamId url urls rest

/-- The head of the outer loop. -/
def next (ceramicConnections : List String) : List (Item K) → GarbageCollect K
  | [] => .passed
  | req :: rest => unpin req.1 rest ceramicConnections

def ofScan (ceramicConnections : List String) : ScanStatus K → GarbageCollect K
  | .scanning loop => .fetching loop
  | .returned expiredReqs => next ceramicConnections expiredReqs
  | .thrown err => .failed err

/-- `garbage collection` up to its first request. -/
def start (cfg : Config) (ceramicConnections : List String) (now : Int) : GarbageCollect K :=
  ofScan ceramicConnections (fetchExpiredStreamReqs cfg now none)

def request : GarbageCollect K → Option (Request K)
  | .fetching loop => some (.scan loop.args)
  | .unpinning streamId url _ _ => some (.pinRm url streamId)
  | .deleting streamId _ => some (.write (.deleteItem streamId))
  | .passed => none
  | .failed _ => none

def resume (ceramicConnections : List String) :
    GarbageCollect K → Reply K → GarbageCollect K
  | .fetching loop, reply => ofScan ceramicConnections (loop.receive reply.scanResult)
  | .unpinning streamId _ urls rest, reply =>
    match reply.result with
    | .ok _ => unpin streamId rest urls
    | .error err => .failed err
  | .deleting _ rest, reply =>
    match reply.result with
    | .ok _ => next ceramicConnections rest
    | .error err => .failed (unexpected err)
  | .passed, _ => .passed
  | .failed err, _ => .failed err

/-- `garbage collection` as a client of the table and the nodes. -/
def client (ceramicConnections : List String) :
    Client (GarbageCollect K) (Request K) (Reply K) where
  request := request
  resume := resume ceramicConnections

section resume

variable {ceramicConnections : List String} {streamId : K} {url : String} {urls : List String}
  {rest : List (Item K)} {reply : Reply K}

theorem resume_unpinning_ok (h : reply.result = .ok ()) :
    (unpinning streamId url urls rest).resume ceramicConnections reply =
      unpin streamId rest urls := by
  unfold resume
  simp only [h]

theorem resume_unpinning_error {err : String} (h : reply.result = .error err) :
    (unpinning streamId url urls rest).resume ceramicConnections reply = .failed err := by
  unfold resume
  simp only [h]

theorem resume_deleting_ok (h : reply.result = .ok ()) :
    (deleting streamId rest).resume ceramicConnections reply = next ceramicConnections rest := by
  unfold resume
  simp only [h]

theorem resume_deleting_error {err : String} (h : reply.result = .error err) :
    (deleting streamId rest).resume ceramicConnections reply = .failed (unexpected err) := by
  unfold resume
  simp only [h]

end resume

end GarbageCollect

/-! ## Section 4: All processes -/

/-- A test that records the stream it has created. -/
inductive StoreTest (K : Type) where
  | storing (streamId : K) (now : Int)
  | passed
  | failed (err : String)

namespace StoreTest

def request : StoreTest K → Option (Request K)
  | .storing streamId now => some (.write (.putItem streamId now))
  | .passed => none
  | .failed _ => none

def resume : StoreTest K → Reply K → StoreTest K
  | .storing _ _, reply =>
    match reply.result with
    | .ok _ => .passed
    | .error err => .failed (unexpected err)
  | .passed, _ => .passed
  | .failed err, _ => .failed err

end StoreTest

/-- One of the processes over the table. -/
inductive Process (K : Type) where
  | anchors (p : AnchorCheck K)
  | garbage (p : GarbageCollect K)
  | store (p : StoreTest K)

namespace Process

def request : Process K → Option (Request K)
  | .anchors p => p.request
  | .garbage p => p.request
  | .store p => p.request

def resume (cfg : Config) (ceramicConnections : List String) :
    Process K → Reply K → Process K
  | .anchors p, reply => .anchors (p.resume cfg reply)
  | .garbage p, reply => .garbage (p.resume ceramicConnections reply)
  | .store p, reply => .store (p.resume reply)

def client (cfg : Config) (ceramicConnections : List String) :
    Client (Process K) (Request K) (Reply K) where
  request := request
  resume := resume cfg ceramicConnections

/-- The processes that may begin, at any time. -/
def Starts (cfg : Config) (ceramicConnections : List String) (p : Process K) : Prop :=
  p = .anchors .start ∨
  (∃ now, p = .garbage (.start cfg ceramicConnections now)) ∨
  (∃ streamId now, p = .store (.storing streamId now))

end Process

/-! ## Section 5: The service -/

/-- The answers that the services may give over the table `T`, and the table
    they leave. A write may fail, and may also be performed and its answer
    be lost. -/
def Serves [DecidableEq K] (cfg : Config) (ord : LinearOrder K) (T : Table K)
    (request : Request K) (reply : Reply K) (T' : Table K) : Prop :=
  match request with
  | .scan args =>
      T' = T ∧ ((∃ out, reply = .scanned out ∧ ScanReply ord T args out) ∨
        (∃ err, reply = .error err))
  | .loadStream _ =>
      T' = T ∧ ((∃ doc now, reply = .loaded doc now) ∨ (∃ err, reply = .error err))
  | .pinRm _ _ =>
      T' = T ∧ (reply = .done ∨ (∃ err, reply = .error err) ∨ (∃ err, reply = .lost err))
  | .write w =>
      (T' = w.apply cfg T ∧ (reply = .done ∨ ∃ err, reply = .lost err)) ∨
      (T' = T ∧ ∃ err, reply = .error err)

/-- Only a write that is performed changes the table. -/
theorem Serves.table {K : Type} [DecidableEq K] {cfg : Config} {ord : LinearOrder K}
    {T T' : Table K} {request : Request K} {reply : Reply K}
    (h : Serves cfg ord T request reply T') :
    (T' = T ∧ (∀ w, request = .write w → reply.performed = false)) ∨
    (∃ w, request = .write w ∧ reply.performed = true ∧ T' = w.apply cfg T) := by
  cases request with
  | scan args => exact Or.inl ⟨h.1, by intro w hw; cases hw⟩
  | loadStream streamId => exact Or.inl ⟨h.1, by intro w hw; cases hw⟩
  | pinRm url streamId => exact Or.inl ⟨h.1, by intro w hw; cases hw⟩
  | write w =>
    rcases h with ⟨hT, hreply⟩ | ⟨hT, err, rfl⟩
    · right
      refine ⟨w, rfl, ?_, hT⟩
      rcases hreply with rfl | ⟨err, rfl⟩ <;> rfl
    · exact Or.inl ⟨hT, by intro w' _; rfl⟩

/-- A record goes only by a deletion that is performed. -/
theorem Serves.recorded {K : Type} [DecidableEq K] {cfg : Config} {ord : LinearOrder K}
    {T T' : Table K} {request : Request K} {reply : Reply K} {k : K}
    (h : Serves cfg ord T request reply T') (hk : (T.lookup k).isSome = true) :
    (T'.lookup k).isSome = true ∨
      (request = .write (.deleteItem k) ∧ reply.performed = true) := by
  rcases h.table with ⟨hT, _⟩ | ⟨w, rfl, hperf, hT⟩
  · rw [hT]
    exact Or.inl hk
  · rw [hT]
    by_cases hw : w = .deleteItem k
    · exact Or.inr ⟨by rw [hw], hperf⟩
    · exact Or.inl (recorded_apply hw hk)

end Suite
