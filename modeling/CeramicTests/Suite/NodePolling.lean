import CeramicTests.Framework.Polling

/-! # Polling a node

    Three helpers of the suite ask a node again and again until it has what
    they wait for: `loadDocumentOrTimeout` of `utils/ceramicHelpers.ts`, and
    `waitForDocument` and `waitForIndexingOrTimeout` of
    `utils/composeDbHelpers.ts`. They differ in when they look at the clock,
    and in which errors end the wait.

    Times are milliseconds.
-/

namespace Suite

open Framework

variable {α : Type}

/-- What a helper meets during one call: the first reading of `Date.now()`,
    its reading in each round, and the outcome of each request. -/
structure Session (α : Type) where
  startTime : Nat
  now : Nat → Nat
  answer : Nat → Except String α

/-! ## Section 1: A document on a Ceramic node -/

/-- The clock at the head of each round, read at the end of the one before. -/
def Session.heads (node : Session α) : Nat → Nat
  | 0 => node.startTime
  | n + 1 => node.now n

/-- `lastError` at the head of the `n`-th round. -/
def Session.lastError (node : Session α) : Nat → String
  | 0 => "null"
  | n + 1 =>
    match node.answer n with
    | .error err => err
    | .ok _ => "null"

def loadTimeout (documentId lastError : String) : String :=
  "Timeout waiting for document " ++ documentId ++
    ". Last seen error when trying to load it: " ++ lastError

/-- One round of `loadDocumentOrTimeout`. An error of `loadStream` is kept,
    and the loop goes on. -/
def loadRound (node : Session α) (documentId : String) (timeoutMs : Nat) :
    Nat → Option (Except String α) :=
  pollBefore node.heads (node.startTime + timeoutMs)
    (fun n =>
      match node.answer n with
      | .ok doc => some (.ok doc)
      | .error _ => none)
    fun n => .error (loadTimeout documentId (node.lastError n))

def loadDocumentOrTimeout (node : Session α) (documentId : String) (timeoutMs fuel : Nat) :
    Option (Except String α) :=
  pollFrom (loadRound node documentId timeoutMs) fuel 0

/-- The call ends with this result. -/
def Loads (node : Session α) (documentId : String) (timeoutMs : Nat) (result : Except String α) :
    Prop :=
  ∃ n, ∀ fuel, n ≤ fuel → loadDocumentOrTimeout node documentId timeoutMs fuel = some result

/-- All attempts before the `n`-th failed. -/
def FailedBefore (node : Session α) (n : Nat) : Prop := ∀ m, m < n → ∃ err, node.answer m = .error err

section load

variable {node : Session α} {documentId : String} {timeoutMs n : Nat}

theorem loads_iff {result : Except String α} : Loads node documentId timeoutMs result ↔
    ∃ n, DecidesAt (loadRound node documentId timeoutMs) n result :=
  polls_iff

theorem loadAttempt_none : (match node.answer n with
    | .ok doc => some (Except.ok doc : Except String α)
    | .error _ => none) = none ↔ ∃ err, node.answer n = .error err := by
  cases node.answer n <;> simp

/-- How the wait ends. -/
theorem loadRound_decidesAt {result : Except String α} :
    DecidesAt (loadRound node documentId timeoutMs) n result ↔
      (∀ m, m < n → node.heads m < node.startTime + timeoutMs) ∧ FailedBefore node n ∧
        (node.heads n < node.startTime + timeoutMs ∧ (∃ doc, node.answer n = .ok doc ∧ result = .ok doc) ∨
          node.startTime + timeoutMs ≤ node.heads n ∧
            result = .error (loadTimeout documentId (node.lastError n))) := by
  have hattempt : ∀ r, (match node.answer n with
      | .ok doc => some (Except.ok doc : Except String α)
      | .error _ => none) = some r ↔ ∃ doc, node.answer n = .ok doc ∧ r = .ok doc := by
    intro r
    cases node.answer n <;> simp [eq_comm]
  unfold loadRound
  rw [decidesAt_before, hattempt]
  simp only [loadAttempt_none, forall_and, and_assoc, FailedBefore]

theorem loads_ok_iff (hclock : Paced node.heads 100) {doc : α} :
    Loads node documentId timeoutMs (.ok doc) ↔ ∃ n, FailedBefore node n ∧
      node.answer n = .ok doc ∧ node.heads n < node.startTime + timeoutMs := by
  rw [loads_iff]
  constructor
  · intro ⟨n, hd⟩
    obtain ⟨_, hfailed, ⟨hin, doc', hdoc, heq⟩ | ⟨_, herr⟩⟩ := loadRound_decidesAt.mp hd
    · cases heq
      exact ⟨n, hfailed, hdoc, hin⟩
    · cases herr
  · intro ⟨n, hfailed, hdoc, hin⟩
    refine ⟨n, loadRound_decidesAt.mpr ⟨?_, hfailed, Or.inl ⟨hin, doc, hdoc, rfl⟩⟩⟩
    exact fun m hm => Nat.lt_of_le_of_lt (hclock.mono (Nat.le_of_lt hm)) hin

theorem loads_error_iff {err : String} : Loads node documentId timeoutMs (.error err) ↔
    ∃ n, FailedBefore node n ∧ (∀ m, m < n → node.heads m < node.startTime + timeoutMs) ∧
      node.startTime + timeoutMs ≤ node.heads n ∧
      err = loadTimeout documentId (node.lastError n) := by
  rw [loads_iff]
  constructor
  · intro ⟨n, hd⟩
    obtain ⟨hin, hfailed, ⟨_, doc, _, heq⟩ | ⟨hlate, herr⟩⟩ := loadRound_decidesAt.mp hd
    · cases heq
    · cases herr
      exact ⟨n, hfailed, hin, hlate, rfl⟩
  · rintro ⟨n, hfailed, hin, hlate, rfl⟩
    exact ⟨n, loadRound_decidesAt.mpr ⟨hin, hfailed, Or.inr ⟨hlate, rfl⟩⟩⟩

/-- A document that can be loaded from the time `t` on. -/
theorem loads_in_time {t gap : Nat} (hclock : Paced node.heads 100)
    (hgap : ∀ m, node.heads (m + 1) ≤ node.heads m + gap)
    (hthere : ∀ m, t ≤ node.heads m → ∃ doc, node.answer m = .ok doc)
    (hpos : 0 < timeoutMs) (ht : t + gap ≤ node.startTime + timeoutMs) :
    ∃ doc, Loads node documentId timeoutMs (.ok doc) := by
  obtain ⟨result, hloads⟩ : ∃ result, Loads node documentId timeoutMs result :=
    before_ends hclock (by decide)
  obtain ⟨n, hd⟩ := loads_iff.mp hloads
  have hfirst : node.heads 0 < node.startTime + timeoutMs := Nat.lt_add_of_pos_right hpos
  have hattempt : ∀ m, t ≤ node.heads m → (match node.answer m with
      | .ok doc => some (Except.ok doc : Except String α)
      | .error _ => none).isSome = true := by
    intro m hm
    obtain ⟨doc, hdoc⟩ := hthere m hm
    rw [hdoc]
    rfl
  obtain ⟨_, hfound⟩ := before_finds hgap hattempt hfirst ht hd
  cases hanswer : node.answer n with
  | error err =>
    rw [hanswer] at hfound
    cases hfound
  | ok doc =>
    rw [hanswer] at hfound
    cases hfound
    exact ⟨doc, hloads⟩

/-- **Loading a document.** The helper always ends.

    - It returns the document of the first attempt that succeeds, if that
      began before the deadline.
    - Otherwise it throws, with the last error that it saw.
    - It makes no more attempts than delays of 100 ms fit into its time, and
      one.
    - It does not miss a document that can be loaded from some time on, if
      the time that is left then is at least that of a round. -/
theorem loadDocumentOrTimeout_outcome (node : Session α) (documentId : String) (timeoutMs : Nat)
    (hclock : Paced node.heads 100) :
    (∃ result, Loads node documentId timeoutMs result) ∧
    (∀ doc, Loads node documentId timeoutMs (.ok doc) ↔ ∃ n, FailedBefore node n ∧
      node.answer n = .ok doc ∧ node.heads n < node.startTime + timeoutMs) ∧
    (∀ err, Loads node documentId timeoutMs (.error err) ↔ ∃ n, FailedBefore node n ∧
      (∀ m, m < n → node.heads m < node.startTime + timeoutMs) ∧
      node.startTime + timeoutMs ≤ node.heads n ∧
      err = loadTimeout documentId (node.lastError n)) ∧
    (∀ n result, DecidesAt (loadRound node documentId timeoutMs) (n + 1) result →
      n * 100 < timeoutMs) ∧
    (∀ t gap, (∀ m, node.heads (m + 1) ≤ node.heads m + gap) →
      (∀ m, t ≤ node.heads m → ∃ doc, node.answer m = .ok doc) →
      0 < timeoutMs → t + gap ≤ node.startTime + timeoutMs →
      ∃ doc, Loads node documentId timeoutMs (.ok doc)) := by
  refine ⟨before_ends hclock (by decide), fun doc => loads_ok_iff hclock,
    fun err => loads_error_iff, ?_, ?_⟩
  · intro n result hd
    have hrounds := rounds_before hclock hd
    have hfirst : node.heads 0 = node.startTime := rfl
    omega
  · intro t gap hgap hthere hpos ht
    exact loads_in_time hclock hgap hthere hpos ht

/-- A node that has the document when it is asked for the third time. -/
private def lateDocument : Session String where
  startTime := 0
  now := fun n => 100 * (n + 1)
  answer := fun n => if n < 2 then .error "not found" else .ok "doc"

theorem third_attempt_loads : Loads lateDocument "kjzl6cwe1jw149mj7gw9" 1000 (.ok "doc") := by
  have hclock : Paced lateDocument.heads 100 := by
    intro n
    cases n with
    | zero => decide
    | succ n => exact Nat.le_of_eq (Nat.mul_succ 100 (n + 1)).symm
  refine ((loadDocumentOrTimeout_outcome lateDocument _ 1000 hclock).2.1 "doc").mpr
    ⟨2, ?_, rfl, by decide⟩
  intro m hm
  exact ⟨"not found", if_pos hm⟩

end load

/-! ## Section 2: A document on a ComposeDB node -/

structure ResponseNode where
  id : Option String
  deriving DecidableEq, Repr

structure ResponseData where
  node : Option ResponseNode
  deriving DecidableEq, Repr

/-- What `executeQuery` answers. -/
structure Response where
  data : Option ResponseData
  deriving DecidableEq, Repr

/-- `responseObj?.data?.node?.id` -/
def Response.id (response : Response) : Option String :=
  (response.data.bind ResponseData.node).bind ResponseNode.id

/-- An id that is there and not empty. -/
def Response.found (response : Response) : Bool :=
  match response.id with
  | some id => decide (id ≠ "")
  | none => false

/-- The attempt of one round of `waitForDocument`. A query that rejects ends
    the wait. -/
def queryAttempt (client : Session Response) (n : Nat) : Option (Except String Response) :=
  match client.answer n with
  | .error err => some (.error err)
  | .ok response => if response.found then some (.ok response) else none

def documentTimeout : String := "Timeout waiting for document"

/-- The clock is read after the query. -/
def documentRound (client : Session Response) (timeoutMs : Nat) :
    Nat → Option (Except String Response) :=
  pollAfter client.now (client.startTime + timeoutMs) (queryAttempt client)
    fun _ => .error documentTimeout

def waitForDocument (client : Session Response) (timeoutMs fuel : Nat) :
    Option (Except String Response) :=
  pollFrom (documentRound client timeoutMs) fuel 0

/-- The call ends with this result. -/
def Finds (client : Session Response) (timeoutMs : Nat) (result : Except String Response) : Prop :=
  ∃ n, ∀ fuel, n ≤ fuel → waitForDocument client timeoutMs fuel = some result

/-- The `m`-th query answered, and without the document. -/
def Missing (client : Session Response) (m : Nat) : Prop :=
  ∃ response, client.answer m = .ok response ∧ response.found = false

section document

variable {client : Session Response} {timeoutMs n : Nat}

theorem queryAttempt_eq_none : queryAttempt client n = none ↔ Missing client n := by
  unfold queryAttempt Missing
  cases client.answer n with
  | error err => simp
  | ok response => cases h : response.found <;> simp [h]

theorem queryAttempt_eq_some {result : Except String Response} :
    queryAttempt client n = some result ↔
      client.answer n = result ∧ ∀ response, result = .ok response → response.found = true := by
  unfold queryAttempt
  cases client.answer n with
  | error err =>
    constructor
    · rintro ⟨⟩
      exact ⟨rfl, by nofun⟩
    · rintro ⟨rfl, _⟩
      rfl
  | ok response =>
    cases h : response.found with
    | false =>
      simp only [h, Bool.false_eq_true, if_false]
      constructor
      · rintro ⟨⟩
      · rintro ⟨rfl, hfound⟩
        rw [hfound response rfl] at h
        cases h
    | true =>
      simp only [h, if_true, Option.some.injEq]
      constructor
      · rintro rfl
        exact ⟨rfl, by rintro _ ⟨⟩; exact h⟩
      · exact fun hresult => hresult.1

/-- **Waiting for a document.** The helper always ends, and queries at least
    once, even without time.

    - It ends with the first answer that holds the document, or with the
      first rejection, whichever comes first.
    - It gives up after an answer without the document that came too late.
    - So it does not miss a document that can be queried from some time on,
      if the time that is left then is at least that of one query. -/
theorem waitForDocument_outcome (client : Session Response) (timeoutMs : Nat)
    (hclock : Paced client.now 1000) :
    (∃ result, Finds client timeoutMs result) ∧
    (∀ result, Finds client timeoutMs result ↔ ∃ n,
      (∀ m, m < n → Missing client m ∧ client.now m ≤ client.startTime + timeoutMs) ∧
      (client.answer n = result ∧ (∀ response, result = .ok response → response.found = true) ∨
        Missing client n ∧ client.startTime + timeoutMs < client.now n ∧
          result = .error documentTimeout)) ∧
    (∀ t span (starts : Nat → Nat), (∀ m, client.now m ≤ starts m + span) →
      (∀ m, t ≤ starts m → ∃ response, client.answer m = .ok response ∧ response.found = true) →
      (∀ m err, client.answer m ≠ .error err) → t + span ≤ client.startTime + timeoutMs →
      ∃ response, response.found = true ∧ Finds client timeoutMs (.ok response)) := by
  have hends : ∃ result, Finds client timeoutMs result := after_ends hclock (by decide)
  have hiff : ∀ result, Finds client timeoutMs result ↔
      ∃ n, DecidesAt (documentRound client timeoutMs) n result := fun _ => polls_iff
  refine ⟨hends, ?_, ?_⟩
  · intro result
    rw [hiff]
    simp only [documentRound, decidesAt_after, queryAttempt_eq_none, queryAttempt_eq_some]
  · intro t span starts hspan hthere hanswers ht
    obtain ⟨result, hfinds⟩ := hends
    obtain ⟨n, hd⟩ := (hiff result).mp hfinds
    have hattempt : ∀ m, t ≤ starts m → (queryAttempt client m).isSome = true := by
      intro m hm
      obtain ⟨response, hresponse, hfound⟩ := hthere m hm
      have hsome : queryAttempt client m = some (.ok response) :=
        queryAttempt_eq_some.mpr ⟨hresponse, by rintro _ ⟨⟩; exact hfound⟩
      rw [hsome]
      rfl
    obtain ⟨hanswer, hfound⟩ := queryAttempt_eq_some.mp (after_finds hspan hattempt ht hd)
    cases result with
    | error err => exact absurd hanswer (hanswers n err)
    | ok response => exact ⟨response, hfound response rfl, hfinds⟩

/-- A query takes 300 ms, and the first one without time finds the document. -/
private def oneQuery : Session Response where
  startTime := 0
  now := fun n => 300 + 1300 * n
  answer := fun _ => .ok ⟨some ⟨some ⟨some "kjzl6cwe1jw149mj7gw9"⟩⟩⟩

theorem one_query_finds :
    Finds oneQuery 0 (.ok ⟨some ⟨some ⟨some "kjzl6cwe1jw149mj7gw9"⟩⟩⟩) := by
  have hclock : Paced oneQuery.now 1000 := by
    intro n
    show 300 + 1300 * n + 1000 ≤ 300 + 1300 * (n + 1)
    omega
  refine ((waitForDocument_outcome oneQuery 0 hclock).2.1 _).mpr ⟨0, by simp, Or.inl ⟨rfl, ?_⟩⟩
  rintro response ⟨⟩
  decide

end document

/-! ## Section 3: An index on a ComposeDB node -/

/-- The loop of `isModelIndexed` over the indexed models. -/
def isModelIndexed : List String → String → Bool
  | [], _ => false
  | streamId :: indexedModels, modelId =>
    if streamId = modelId then true else isModelIndexed indexedModels modelId

theorem isModelIndexed_iff {indexedModels : List String} {modelId : String} :
    isModelIndexed indexedModels modelId = true ↔ modelId ∈ indexedModels := by
  induction indexedModels with
  | nil => simp [isModelIndexed]
  | cons streamId indexedModels ih =>
    unfold isModelIndexed
    by_cases h : streamId = modelId
    · simp [h]
    · simp [h, ih, Ne.symm h]

/-- The attempt of one round of `waitForIndexingOrTimeout`. A request that
    rejects ends the wait. -/
def indexAttempt (ceramicNode : Session (List String)) (modelId : String) (n : Nat) :
    Option (Except String Bool) :=
  match ceramicNode.answer n with
  | .error err => some (.error err)
  | .ok indexedModels => if isModelIndexed indexedModels modelId then some (.ok true) else none

def indexTimeout (modelId : String) : String := "Timeout waiting for indexing model: " ++ modelId

/-- The clock is read before the request. -/
def indexRound (ceramicNode : Session (List String)) (modelId : String) (timeoutMs : Nat) :
    Nat → Option (Except String Bool) :=
  pollBefore ceramicNode.now (ceramicNode.startTime + timeoutMs) (indexAttempt ceramicNode modelId)
    fun _ => .error (indexTimeout modelId)

def waitForIndexingOrTimeout (ceramicNode : Session (List String)) (modelId : String)
    (timeoutMs fuel : Nat) : Option (Except String Bool) :=
  pollFrom (indexRound ceramicNode modelId timeoutMs) fuel 0

/-- The call ends with this result. -/
def Indexes (ceramicNode : Session (List String)) (modelId : String) (timeoutMs : Nat)
    (result : Except String Bool) : Prop :=
  ∃ n, ∀ fuel, n ≤ fuel → waitForIndexingOrTimeout ceramicNode modelId timeoutMs fuel = some result

section index

variable {ceramicNode : Session (List String)} {modelId : String} {timeoutMs n : Nat}

/-- The `m`-th answer lists other models only. -/
def Unlisted (ceramicNode : Session (List String)) (modelId : String) (m : Nat) : Prop :=
  ∃ indexedModels, ceramicNode.answer m = .ok indexedModels ∧ modelId ∉ indexedModels

def Listed (ceramicNode : Session (List String)) (modelId : String) (m : Nat) : Prop :=
  ∃ indexedModels, ceramicNode.answer m = .ok indexedModels ∧ modelId ∈ indexedModels

theorem indexAttempt_eq_none :
    indexAttempt ceramicNode modelId n = none ↔ Unlisted ceramicNode modelId n := by
  unfold indexAttempt Unlisted
  cases ceramicNode.answer n with
  | error err => simp
  | ok indexedModels => simp [← isModelIndexed_iff]

theorem indexAttempt_eq_some {result : Except String Bool} :
    indexAttempt ceramicNode modelId n = some result ↔
      (Listed ceramicNode modelId n ∧ result = .ok true) ∨
        ∃ err, ceramicNode.answer n = .error err ∧ result = .error err := by
  unfold indexAttempt Listed
  cases ceramicNode.answer n with
  | error err => simp [eq_comm]
  | ok indexedModels =>
    by_cases h : modelId ∈ indexedModels
    · simp [isModelIndexed_iff.mpr h, h, eq_comm]
    · have hno : isModelIndexed indexedModels modelId = false :=
        Bool.eq_false_iff.mpr fun hyes => h (isModelIndexed_iff.mp hyes)
      simp [hno, h]

/-- The helper returns only what a node has listed. -/
theorem listed_of_indexes {isIndexed : Bool}
    (h : Indexes ceramicNode modelId timeoutMs (.ok isIndexed)) :
    isIndexed = true ∧ ∃ m, Listed ceramicNode modelId m := by
  obtain ⟨n, hd⟩ := polls_iff.mp h
  obtain ⟨_, ⟨_, hfound⟩ | ⟨_, herr⟩⟩ := decidesAt_before.mp hd
  · rcases indexAttempt_eq_some.mp hfound with ⟨hlisted, hok⟩ | ⟨err, _, herr⟩
    · cases hok
      exact ⟨rfl, n, hlisted⟩
    · cases herr
  · cases herr

/-- **Waiting for an index.** The helper always ends, and never returns
    `false`.

    - It returns when a request that it made in time lists the model, and
      throws the error of the first request that rejects.
    - It gives up at the head of a round, at the deadline.
    - So it does not miss an index that is listed from some time on, if the
      time that is left then is at least that of a whole round. -/
theorem waitForIndexingOrTimeout_outcome (ceramicNode : Session (List String)) (modelId : String)
    (timeoutMs : Nat) (hclock : Paced ceramicNode.now 100) :
    (∃ result, Indexes ceramicNode modelId timeoutMs result) ∧
    (∀ result, Indexes ceramicNode modelId timeoutMs result ↔ ∃ n,
      (∀ m, m < n → ceramicNode.now m < ceramicNode.startTime + timeoutMs ∧
        Unlisted ceramicNode modelId m) ∧
      (ceramicNode.now n < ceramicNode.startTime + timeoutMs ∧
          ((Listed ceramicNode modelId n ∧ result = .ok true) ∨
            ∃ err, ceramicNode.answer n = .error err ∧ result = .error err) ∨
        ceramicNode.startTime + timeoutMs ≤ ceramicNode.now n ∧
          result = .error (indexTimeout modelId))) ∧
    (∀ t gap, (∀ m, ceramicNode.now (m + 1) ≤ ceramicNode.now m + gap) →
      (∀ m, t ≤ ceramicNode.now m → Listed ceramicNode modelId m) →
      (∀ m err, ceramicNode.answer m ≠ .error err) →
      ceramicNode.now 0 < ceramicNode.startTime + timeoutMs →
      t + gap ≤ ceramicNode.startTime + timeoutMs →
      Indexes ceramicNode modelId timeoutMs (.ok true)) := by
  have hends : ∃ result, Indexes ceramicNode modelId timeoutMs result :=
    before_ends hclock (by decide)
  have hiff : ∀ result, Indexes ceramicNode modelId timeoutMs result ↔
      ∃ n, DecidesAt (indexRound ceramicNode modelId timeoutMs) n result := fun _ => polls_iff
  refine ⟨hends, ?_, ?_⟩
  · intro result
    rw [hiff]
    simp only [indexRound, decidesAt_before, indexAttempt_eq_none, indexAttempt_eq_some]
  · intro t gap hgap hlisted hanswers hfirst ht
    obtain ⟨result, hindexes⟩ := hends
    obtain ⟨n, hd⟩ := (hiff result).mp hindexes
    have hattempt : ∀ m, t ≤ ceramicNode.now m →
        (indexAttempt ceramicNode modelId m).isSome = true := by
      intro m hm
      rw [indexAttempt_eq_some.mpr (Or.inl ⟨hlisted m hm, rfl⟩)]
      rfl
    obtain ⟨_, hfound⟩ := before_finds hgap hattempt hfirst ht hd
    rcases indexAttempt_eq_some.mp hfound with ⟨_, rfl⟩ | ⟨err, herr, _⟩
    · exact hindexes
    · exact absurd herr (hanswers n err)

/-- A node that lists the model in its second answer. -/
private def secondAnswer : Session (List String) where
  startTime := 0
  now := fun n => 150 * n
  answer := fun n => if n < 1 then .ok ["model0"] else .ok ["model0", "model1"]

theorem second_answer_indexes : Indexes secondAnswer "model1" 10000 (.ok true) := by
  have hclock : Paced secondAnswer.now 100 := by
    intro n
    show 150 * n + 100 ≤ 150 * (n + 1)
    omega
  refine ((waitForIndexingOrTimeout_outcome secondAnswer "model1" 10000 hclock).2.1 _).mpr
    ⟨1, ?_, Or.inl ⟨by decide, Or.inl ⟨⟨["model0", "model1"], rfl, by decide⟩, rfl⟩⟩⟩
  intro m hm
  obtain rfl : m = 0 := by omega
  exact ⟨by decide, ["model0"], rfl, by decide⟩

end index

end Suite
