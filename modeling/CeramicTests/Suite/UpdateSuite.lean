import CeramicTests.Framework.Tests

/-! # The update suite

    `suite/src/__tests__/correctness/fast/update.test.ts`. Every node in
    turn is the one where a stream is created. The tests of one rotation
    create and update a stream on its first node, then, for every other
    node, load it there, update it on the first node and wait for the update.

    - The tests of a rotation share `content`, `firstDocument` and one `doc`
      for each node. `content.step` is what is written and what is awaited,
      and it is advanced before the write.
    - Jest runs the tests in order, and goes on after one that failed.
    - Any call may reject. Calls are answered by their number, so that
      nothing is assumed about which of them do.
-/

namespace Suite.Update

open Framework

/-! ## Section 1: The tests -/

/-- The tests of a rotation, by title. -/
inductive Title where
  | createStream (url : String)
  | updateStream (url : String)
  | loadStream (url : String)
  | syncStream (url : String)
  deriving DecidableEq, Repr

/-- What the tests call. A stream goes by the number of the call that
    creates it. -/
inductive Call where
  | newCeramic (url : String)
  | create (url : String) (stream step : Nat) (anchor : Bool)
  | replace (stream step : Nat) (anchor : Bool)
  | loadDocumentOrTimeout (url : String) (stream : Nat)
  | waitForCondition (url : String) (stream step : Nat)
  | sync (url : String) (stream : Nat)
  | expect
  | storeStreamReq (stream : Nat)
  deriving DecidableEq, Repr

/-- A call that was made, the test that made it, and whether it fulfilled. -/
structure Entry where
  test : Title
  call : Call
  ok : Bool
  deriving DecidableEq, Repr

/-- The variables of a rotation, and the calls made so far. -/
structure Vars where
  step : Nat
  firstDocument : Option Nat
  docs : Nat → Option Nat
  log : List Entry

/-- The variables before the first test of a rotation. -/
def Vars.fresh (log : List Entry) : Vars where
  step := 0
  firstDocument := none
  docs := fun _ => none
  log := log

/-- `content.step++` -/
def Vars.advance (vars : Vars) : Vars := { vars with step := vars.step + 1 }

def Vars.setFirst (vars : Vars) (stream : Nat) : Vars := { vars with firstDocument := some stream }

def Vars.setDoc (vars : Vars) (idx stream : Nat) : Vars :=
  { vars with docs := fun i => if i = idx then some stream else vars.docs i }

def Vars.record (vars : Vars) (e : Entry) : Vars := { vars with log := vars.log ++ [e] }

@[simp] theorem Vars.advance_firstDocument (vars : Vars) :
    vars.advance.firstDocument = vars.firstDocument := rfl

@[simp] theorem Vars.advance_docs (vars : Vars) : vars.advance.docs = vars.docs := rfl

@[simp] theorem Vars.record_firstDocument (vars : Vars) (e : Entry) :
    (vars.record e).firstDocument = vars.firstDocument := rfl

@[simp] theorem Vars.record_length (vars : Vars) (e : Entry) :
    (vars.record e).log.length = vars.log.length + 1 := List.length_append

abbrev Test := EStateM String Vars

section tests
variable (rejects : Nat → Option String)

/-- `await` a call. -/
def await (test : Title) (call : Call) : Test Unit :=
  attempt (fun vars => rejects vars.log.length) (fun vars ok => vars.record ⟨test, call, ok⟩)

/-- What reading a field of `undefined` throws. -/
def typeError (field : String) : String :=
  "Cannot read properties of undefined (reading '" ++ field ++ "')"

def createStream (firstNodeUrl : String) : Test Unit := do
  await rejects (.createStream firstNodeUrl) (.newCeramic firstNodeUrl)
  let vars ← get
  let stream := vars.log.length
  await rejects (.createStream firstNodeUrl) (.create firstNodeUrl stream vars.step false)
  modify fun vars => vars.setFirst stream

def updateStream (firstNodeUrl : String) : Test Unit := do
  modify Vars.advance
  let vars ← get
  match vars.firstDocument with
  | none => throw (typeError "replace")
  | some stream =>
    await rejects (.updateStream firstNodeUrl) (.replace stream vars.step false)

def loadStream (apiUrl : String) (idx : Nat) : Test Unit := do
  await rejects (.loadStream apiUrl) (.newCeramic apiUrl)
  let vars ← get
  match vars.firstDocument with
  | none => throw (typeError "id")
  | some stream =>
    await rejects (.loadStream apiUrl) (.loadDocumentOrTimeout apiUrl stream)
    modify fun vars => vars.setDoc idx stream
    await rejects (.loadStream apiUrl) (.waitForCondition apiUrl stream vars.step)
    await rejects (.loadStream apiUrl) (.sync apiUrl stream)
    await rejects (.loadStream apiUrl) .expect

def syncStream (apiUrl : String) (idx : Nat) (isFinalWriter : Bool) : Test Unit := do
  modify Vars.advance
  let vars ← get
  match vars.firstDocument with
  | none => throw (typeError "id")
  | some stream =>
    await rejects (.syncStream apiUrl) (.replace stream vars.step isFinalWriter)
    match vars.docs idx with
    | none => throw (typeError "pipe")
    | some doc =>
      await rejects (.syncStream apiUrl) (.waitForCondition apiUrl doc vars.step)
      await rejects (.syncStream apiUrl) (.sync apiUrl doc)
      await rejects (.syncStream apiUrl) .expect
      if isFinalWriter then
        await rejects (.syncStream apiUrl) (.storeStreamReq stream)

/-- The tests for the node at `idx`. -/
def testReader (last : Nat) (reader : String × Nat) : List (Test Unit) :=
  [loadStream rejects reader.1 reader.2,
    syncStream rejects reader.1 reader.2 (reader.2 == last)]

/-- `composeDbUrls[0]` of an empty list prints as "undefined". -/
def testUpdate (composeDbUrls : List String) : List (Test Unit) :=
  let firstNodeUrl := composeDbUrls.headD "undefined"
  [createStream rejects firstNodeUrl, updateStream rejects firstNodeUrl] ++
    (composeDbUrls.tail.zipIdx 1).flatMap (testReader rejects (composeDbUrls.length - 1))

/-- Every node once in front, the others behind it in their order. -/
def generateUrlCombinations (urls : List String) : List (List String) :=
  (List.range urls.length).map fun index => urls.drop index ++ urls.take index

/-- The tests of one rotation, after the calls of the ones before. -/
def runRotation (log : List Entry) (composeDbUrls : List String) : List Entry :=
  (runTests (testUpdate rejects composeDbUrls) (Vars.fresh log)).log

/-- `generateUrlCombinations(composeDbUrls).forEach(testUpdate)`, run by Jest:
    the calls that were made. -/
def updateSuite (composeDbUrls : List String) : List Entry :=
  (generateUrlCombinations composeDbUrls).foldl (runRotation rejects) []

end tests

/-! ## Section 2: What a log says about a stream -/

/-- The stream that a call is about. -/
def Call.stream? : Call → Option Nat
  | .create _ stream _ _ => some stream
  | .replace stream _ _ => some stream
  | .loadDocumentOrTimeout _ stream => some stream
  | .waitForCondition _ stream _ => some stream
  | .sync _ stream => some stream
  | .storeStreamReq stream => some stream
  | .newCeramic _ => none
  | .expect => none

/-- A write to a stream: the step in its content, whether it is to be
    anchored, and whether it succeeded. -/
structure Write where
  step : Nat
  anchor : Bool
  ok : Bool
  deriving DecidableEq, Repr

def Entry.write? (e : Entry) : Option Write :=
  match e.call with
  | .create _ _ step anchor => some ⟨step, anchor, e.ok⟩
  | .replace _ step anchor => some ⟨step, anchor, e.ok⟩
  | _ => none

def history (stream : Nat) (log : List Entry) : List Entry :=
  log.filter fun e => e.call.stream? == some stream

/-- The writes to a stream that were attempted. -/
def writes (stream : Nat) (log : List Entry) : List Write :=
  (history stream log).filterMap Entry.write?

def lastAttempted (stream : Nat) (log : List Entry) : Option Write :=
  (writes stream log).getLast?

def lastSucceeded (stream : Nat) (log : List Entry) : Option Write :=
  ((writes stream log).filter (·.ok)).getLast?

theorem history_append (stream : Nat) (log log' : List Entry) :
    history stream (log ++ log') = history stream log ++ history stream log' :=
  List.filter_append ..

theorem writes_append (stream : Nat) (log log' : List Entry) :
    writes stream (log ++ log') = writes stream log ++ writes stream log' := by
  unfold writes
  rw [history_append, List.filterMap_append]

/-- An entry of the log that is no write to the stream. -/
theorem writes_of_not_write {stream : Nat} {e : Entry} (h : e.write? = none) :
    writes stream [e] = [] := by
  unfold writes history
  by_cases hstream : e.call.stream? = some stream <;> simp [hstream, h]

theorem writes_of_write {stream : Nat} {e : Entry} {w : Write}
    (hstream : e.call.stream? = some stream) (h : e.write? = some w) : writes stream [e] = [w] := by
  unfold writes history
  simp [hstream, h]

/-- A stream that no call is about has no history. -/
theorem history_of_unknown {stream : Nat} {log : List Entry}
    (h : ∀ e ∈ log, e.call.stream? ≠ some stream) : history stream log = [] := by
  unfold history
  rw [List.filter_eq_nil_iff]
  intro e he
  simpa using h e he

/-- The last write to a stream is `w`, and all before it are of smaller
    steps. -/
def LastWrite (stream : Nat) (log : List Entry) (w : Write) : Prop :=
  ∃ earlier, writes stream log = earlier ++ [w] ∧ ∀ v ∈ earlier, v.step < w.step

namespace LastWrite

variable {stream : Nat} {log : List Entry} {v w : Write} {e : Entry}

theorem attempted (h : LastWrite stream log w) : lastAttempted stream log = some w := by
  obtain ⟨earlier, hwrites, -⟩ := h
  unfold lastAttempted
  rw [hwrites, List.getLast?_concat]

/-- The last write that succeeded is of the step of the last one attempted
    exactly if that one succeeded. -/
theorem succeeded_iff (h : LastWrite stream log w) :
    (lastSucceeded stream log).map Write.step = some w.step ↔ w.ok = true := by
  obtain ⟨earlier, hwrites, hsmaller⟩ := h
  unfold lastSucceeded
  rw [hwrites, List.filter_append]
  cases hok : w.ok with
  | false =>
    have hdrop : [w].filter (·.ok) = [] := by simp [hok]
    rw [hdrop, List.append_nil]
    constructor
    · intro hstep
      obtain ⟨v, hv, hvw⟩ := Option.map_eq_some_iff.mp hstep
      have hmem : v ∈ earlier := (List.mem_filter.mp (List.mem_of_getLast? hv)).1
      have hlt := hsmaller v hmem
      omega
    · intro h
      cases h
  | true =>
    have hkeep : [w].filter (·.ok) = [w] := by simp [hok]
    rw [hkeep, List.getLast?_concat]
    exact ⟨fun _ => rfl, fun _ => rfl⟩

theorem first (hnone : writes stream log = []) (hstream : e.call.stream? = some stream)
    (hw : e.write? = some w) : LastWrite stream (log ++ [e]) w := by
  refine ⟨[], ?_, by simp⟩
  rw [writes_append, hnone, writes_of_write hstream hw]

theorem append_write (h : LastWrite stream log v) (hstream : e.call.stream? = some stream)
    (hw : e.write? = some w) (hlt : v.step < w.step) : LastWrite stream (log ++ [e]) w := by
  obtain ⟨earlier, hwrites, hsmaller⟩ := h
  refine ⟨earlier ++ [v], ?_, ?_⟩
  · rw [writes_append, hwrites, writes_of_write hstream hw]
  · intro u hu
    rcases List.mem_append.mp hu with hu | hu
    · have := hsmaller u hu
      omega
    · rw [List.mem_singleton.mp hu]
      exact hlt

theorem append_other (h : LastWrite stream log w) (he : e.write? = none) :
    LastWrite stream (log ++ [e]) w := by
  obtain ⟨earlier, hwrites, hsmaller⟩ := h
  refine ⟨earlier, ?_, hsmaller⟩
  rw [writes_append, hwrites, writes_of_not_write he, List.append_nil]

end LastWrite

/-! ## Section 3: What the tests of a rotation keep -/

/-- What is awaited is the step of the last write to the stream; and in a
    sync test that write succeeded. -/
def Awaits (before : List Entry) (e : Entry) : Prop :=
  ∀ url stream step, e.call = .waitForCondition url stream step →
    ∃ w, LastWrite stream before w ∧ w.step = step ∧
      ∀ apiUrl, e.test = .syncStream apiUrl → w.ok = true

/-- Neither writes to nor awaits anything of a stream, and is not about
    another one. -/
def Call.Quiet (stream : Nat) : Call → Prop
  | .newCeramic _ => True
  | .create _ _ _ _ => False
  | .replace _ _ _ => False
  | .loadDocumentOrTimeout _ s => s = stream
  | .waitForCondition _ _ _ => False
  | .sync _ s => s = stream
  | .expect => True
  | .storeStreamReq s => s = stream

/-- Holds of the variables at any moment of a rotation. -/
structure Sound (vars : Vars) : Prop where
  awaits : ∀ before e, before ++ [e] <+: vars.log → Awaits before e
  known : ∀ e ∈ vars.log, ∀ stream, e.call.stream? = some stream → stream < vars.log.length
  docs : ∀ idx stream, vars.docs idx = some stream → vars.firstDocument = some stream

/-- The rotation has a stream, `w` is the last write to it, and of the
    current step. -/
structure UpToDate (vars : Vars) (stream : Nat) (w : Write) : Prop extends Sound vars where
  first : vars.firstDocument = some stream
  created : stream < vars.log.length
  last : LastWrite stream vars.log w
  step : w.step = vars.step

/-- Holds between two tests: where there is no stream, the step may have run
    ahead, but nothing is awaited any more. -/
def Steady (vars : Vars) : Prop :=
  Sound vars ∧ vars.firstDocument = none ∨ ∃ stream w, UpToDate vars stream w

/-- Another call, about a stream that is known when it is made. -/
theorem Sound.record {vars : Vars} {e : Entry} (h : Sound vars)
    (hknown : ∀ stream, e.call.stream? = some stream → stream ≤ vars.log.length)
    (hawaits : Awaits vars.log e) : Sound (vars.record e) where
  awaits := by
    intro before x hpre
    rcases List.prefix_concat_iff.mp hpre with heq | hpre
    · obtain ⟨rfl, hx⟩ := List.append_inj' heq rfl
      obtain rfl := List.singleton_inj.mp hx
      exact hawaits
    · exact h.awaits before x hpre
  known := by
    intro x hx stream hstream
    rw [Vars.record_length]
    rcases List.mem_append.mp hx with hx | hx
    · have := h.known x hx stream hstream
      omega
    · rw [List.mem_singleton.mp hx] at hstream
      have := hknown stream hstream
      omega
  docs := h.docs

theorem Sound.advance {vars : Vars} (h : Sound vars) : Sound vars.advance :=
  ⟨h.awaits, h.known, h.docs⟩

/-- A call that awaits nothing. -/
theorem Awaits.of_no_wait {before : List Entry} {e : Entry}
    (h : ∀ url stream step, e.call ≠ .waitForCondition url stream step) : Awaits before e :=
  fun url stream step he => absurd he (h url stream step)

theorem Sound.record_newCeramic {vars : Vars} (h : Sound vars) (test : Title) (url : String)
    (ok : Bool) : Sound (vars.record ⟨test, .newCeramic url, ok⟩) := by
  apply h.record
  · intro stream hstream
    cases hstream
  · exact .of_no_wait (by simp)

/-- A stream is created: its number is that of the call. -/
theorem Sound.record_create {vars : Vars} (h : Sound vars) (test : Title) (url : String)
    (anchor ok : Bool) :
    Sound (vars.record ⟨test, .create url vars.log.length vars.step anchor, ok⟩) := by
  apply h.record
  · intro stream hstream
    exact Nat.le_of_eq (Option.some.inj hstream).symm
  · exact .of_no_wait (by simp)

namespace UpToDate

variable {vars : Vars} {stream : Nat} {w : Write} {test : Title} {call : Call} {ok : Bool}

theorem steady (h : UpToDate vars stream w) : Steady vars := .inr ⟨stream, w, h⟩

/-- The document that a node has loaded is of the stream of the rotation. -/
theorem doc_eq (h : UpToDate vars stream w) {idx doc : Nat} (hdoc : vars.docs idx = some doc) :
    doc = stream := by
  have hfirst := h.docs idx doc hdoc
  rw [h.first] at hfirst
  exact (Option.some.inj hfirst).symm

/-- A call that writes nothing. -/
theorem record (h : UpToDate vars stream w) (hwrite : (Entry.mk test call ok).write? = none)
    (hstream : ∀ s, call.stream? = some s → s = stream)
    (hawaits : Awaits vars.log ⟨test, call, ok⟩) :
    UpToDate (vars.record ⟨test, call, ok⟩) stream w where
  toSound := by
    apply h.toSound.record _ hawaits
    intro s hs
    rw [hstream s hs]
    exact Nat.le_of_lt h.created
  first := h.first
  created := by
    rw [Vars.record_length]
    exact Nat.lt_succ_of_lt h.created
  last := h.last.append_other hwrite
  step := h.step

theorem record_quiet (h : UpToDate vars stream w) (hquiet : call.Quiet stream) :
    UpToDate (vars.record ⟨test, call, ok⟩) stream w := by
  apply h.record
  · cases call <;> first | rfl | exact hquiet.elim
  · intro s hs
    cases call <;> first | exact hquiet.elim | exact (Option.some.inj hs).symm.trans hquiet | cases hs
  · apply Awaits.of_no_wait
    rintro url s step rfl
    exact hquiet

/-- Wait for the current step: after a write that succeeded, in a sync test. -/
theorem record_wait (h : UpToDate vars stream w) (url : String)
    (hok : ∀ apiUrl, test = .syncStream apiUrl → w.ok = true) :
    UpToDate (vars.record ⟨test, .waitForCondition url stream vars.step, ok⟩) stream w := by
  apply h.record rfl
  · intro s hs
    exact (Option.some.inj hs).symm
  · intro _ _ _ he
    obtain ⟨-, rfl, rfl⟩ := Call.waitForCondition.inj he
    exact ⟨w, h.last, h.step, hok⟩

/-- The document that was loaded is of the stream of the rotation. -/
theorem set_doc (h : UpToDate vars stream w) (idx : Nat) :
    UpToDate (vars.setDoc idx stream) stream w where
  awaits := h.awaits
  known := h.known
  docs := by
    intro i s hdoc
    have hdoc : (if i = idx then some stream else vars.docs i) = some s := hdoc
    split at hdoc
    · rw [← hdoc]
      exact h.first
    · exact h.docs i s hdoc
  first := h.first
  created := h.created
  last := h.last
  step := h.step

/-- Advance the step and write it: up to date again, also if the write failed. -/
theorem advance_replace (h : UpToDate vars stream w) (test : Title) (anchor ok : Bool) :
    UpToDate (vars.advance.record ⟨test, .replace stream vars.advance.step anchor, ok⟩) stream
      ⟨vars.advance.step, anchor, ok⟩ where
  toSound := by
    apply h.toSound.advance.record
    · intro s hs
      rw [← Option.some.inj hs]
      exact Nat.le_of_lt h.created
    · exact .of_no_wait (by simp)
  first := h.first
  created := by
    rw [Vars.record_length]
    exact Nat.lt_succ_of_lt h.created
  last := by
    apply h.last.append_write rfl rfl
    show w.step < vars.step + 1
    rw [h.step]
    exact Nat.lt_succ_self _
  step := rfl

/-- A stream is created, and no call was about it before. -/
theorem create (h : Sound vars) (hnone : vars.firstDocument = none) (test : Title) (url : String)
    (anchor : Bool) :
    UpToDate ((vars.record ⟨test, .create url vars.log.length vars.step anchor, true⟩).setFirst
      vars.log.length) vars.log.length ⟨vars.step, anchor, true⟩ where
  awaits := (h.record_create test url anchor true).awaits
  known := (h.record_create test url anchor true).known
  docs := by
    intro idx stream hdoc
    have hfirst := h.docs idx stream hdoc
    rw [hnone] at hfirst
    cases hfirst
  first := rfl
  created := by
    show vars.log.length < (vars.record _).log.length
    rw [Vars.record_length]
    exact Nat.lt_succ_self _
  last := by
    have hnone : history vars.log.length vars.log = [] := by
      apply history_of_unknown
      intro e he hstream
      have := h.known e he _ hstream
      omega
    apply LastWrite.first _ rfl rfl
    unfold writes
    rw [hnone]
    rfl
  step := rfl

end UpToDate

section tests
variable {rejects : Nat → Option String} {vars : Vars}

/-- Await a call that neither writes nor awaits a step. -/
theorem UpToDate.await_quiet {stream : Nat} {w : Write} (h : UpToDate vars stream w) {test : Title}
    {call : Call} {k : PUnit → Test Unit} (hquiet : call.Quiet stream)
    (hk : UpToDate (vars.record ⟨test, call, true⟩) stream w →
      Steady (finalState (k ⟨⟩) (vars.record ⟨test, call, true⟩))) :
    Steady (finalState (await rejects test call >>= k) vars) := by
  apply finalState_attempt_bind (I := Steady)
  · exact (h.record_quiet hquiet).steady
  · exact hk (h.record_quiet hquiet)

theorem UpToDate.await_quiet_last {stream : Nat} {w : Write} (h : UpToDate vars stream w)
    {test : Title} {call : Call} (hquiet : call.Quiet stream) :
    Steady (finalState (await rejects test call) vars) := by
  apply finalState_attempt (I := Steady)
  · exact (h.record_quiet hquiet).steady
  · exact (h.record_quiet hquiet).steady

/-- Await the step of the last write. -/
theorem UpToDate.await_wait {stream : Nat} {w : Write} (h : UpToDate vars stream w) {test : Title}
    (url : String) {k : PUnit → Test Unit} (hok : ∀ apiUrl, test = .syncStream apiUrl → w.ok = true)
    (hk : UpToDate (vars.record ⟨test, .waitForCondition url stream vars.step, true⟩) stream w →
      Steady (finalState (k ⟨⟩)
        (vars.record ⟨test, .waitForCondition url stream vars.step, true⟩))) :
    Steady (finalState (await rejects test (.waitForCondition url stream vars.step) >>= k) vars) := by
  apply finalState_attempt_bind (I := Steady)
  · exact (h.record_wait url hok).steady
  · exact hk (h.record_wait url hok)

/-- The stream is created in the first test of a rotation. -/
theorem createStream_steady (h : Sound vars) (hnone : vars.firstDocument = none)
    (firstNodeUrl : String) : Steady (finalState (createStream rejects firstNodeUrl) vars) := by
  have hnew : ∀ ok, Sound (vars.record ⟨.createStream firstNodeUrl, .newCeramic firstNodeUrl, ok⟩) :=
    h.record_newCeramic _ firstNodeUrl
  unfold createStream await
  apply finalState_attempt_bind (I := Steady)
  · exact .inl ⟨hnew false, hnone⟩
  · rw [finalState_get_bind]
    apply finalState_attempt_bind (I := Steady)
    · exact .inl ⟨(hnew true).record_create _ firstNodeUrl false false, hnone⟩
    · exact (UpToDate.create (hnew true) hnone _ firstNodeUrl false).steady

/-- Without a stream, the write throws, after the step was advanced. -/
theorem updateStream_steady (h : Steady vars) (firstNodeUrl : String) :
    Steady (finalState (updateStream rejects firstNodeUrl) vars) := by
  unfold updateStream await
  rw [finalState_modify_bind, finalState_get_bind]
  rcases h with ⟨hsound, hnone⟩ | ⟨stream, w, h⟩
  · rw [Vars.advance_firstDocument, hnone]
    exact .inl ⟨hsound.advance, hnone⟩
  · rw [Vars.advance_firstDocument, h.first]
    apply finalState_attempt (I := Steady)
    · exact (h.advance_replace _ false false).steady
    · exact (h.advance_replace _ false true).steady

theorem loadStream_steady (h : Steady vars) (apiUrl : String) (idx : Nat) :
    Steady (finalState (loadStream rejects apiUrl idx) vars) := by
  unfold loadStream
  rcases h with ⟨hsound, hnone⟩ | ⟨stream, w, h⟩
  · apply finalState_attempt_bind (I := Steady)
    · exact .inl ⟨hsound.record_newCeramic _ apiUrl false, hnone⟩
    · rw [finalState_get_bind, Vars.record_firstDocument, hnone]
      exact .inl ⟨hsound.record_newCeramic _ apiUrl true, hnone⟩
  · refine h.await_quiet trivial ?_
    intro h
    rw [finalState_get_bind, h.first]
    refine h.await_quiet rfl ?_
    intro h
    rw [finalState_modify_bind]
    -- the step has not changed since the last write
    apply (h.set_doc idx).await_wait apiUrl (by simp)
    intro h
    refine h.await_quiet rfl ?_
    intro h
    exact h.await_quiet_last trivial

theorem syncStream_steady (h : Steady vars) (apiUrl : String) (idx : Nat) (isFinalWriter : Bool) :
    Steady (finalState (syncStream rejects apiUrl idx isFinalWriter) vars) := by
  unfold syncStream
  rw [finalState_modify_bind, finalState_get_bind]
  rcases h with ⟨hsound, hnone⟩ | ⟨stream, w, h⟩
  · rw [Vars.advance_firstDocument, hnone]
    exact .inl ⟨hsound.advance, hnone⟩
  · rw [Vars.advance_firstDocument, h.first]
    apply finalState_attempt_bind (I := Steady)
    · exact (h.advance_replace _ isFinalWriter false).steady
    -- from here on the last write has succeeded
    have h := h.advance_replace (.syncStream apiUrl) isFinalWriter true
    rw [Vars.advance_docs]
    cases hdoc : vars.docs idx with
    | none => exact h.steady
    | some doc =>
      obtain rfl := h.doc_eq hdoc
      apply h.await_wait apiUrl (fun _ _ => rfl)
      intro h
      refine h.await_quiet rfl ?_
      intro h
      refine h.await_quiet trivial ?_
      intro h
      cases isFinalWriter with
      | false => exact h.steady
      | true => exact h.await_quiet_last rfl

end tests

/-! ## Section 4: The run -/

theorem Steady.sound {vars : Vars} (h : Steady vars) : Sound vars := by
  rcases h with ⟨h, -⟩ | ⟨_, _, h⟩
  · exact h
  · exact h.toSound

/-- The next rotation has variables of its own. -/
theorem Sound.fresh {vars : Vars} (h : Sound vars) : Sound (Vars.fresh vars.log) where
  awaits := h.awaits
  known := h.known
  docs := by
    intro idx stream hdoc
    cases hdoc

section run
variable (rejects : Nat → Option String)

/-- Whatever rejects, the tests of a rotation keep the invariant. -/
theorem testUpdate_sound {log : List Entry} (h : Sound (Vars.fresh log))
    (composeDbUrls : List String) :
    Sound (runTests (testUpdate rejects composeDbUrls) (Vars.fresh log)) := by
  apply Steady.sound
  unfold testUpdate
  rw [List.cons_append, runTests_cons]
  refine runTests_invariant ?_ (createStream_steady h rfl _)
  intro test htest vars hvars
  rcases List.mem_cons.mp htest with rfl | htest
  · exact updateStream_steady hvars _
  · obtain ⟨reader, -, htest⟩ := List.mem_flatMap.mp htest
    simp only [testReader, List.mem_cons, List.not_mem_nil, or_false] at htest
    rcases htest with rfl | rfl
    · exact loadStream_steady hvars _ _
    · exact syncStream_steady hvars _ _ _

theorem foldl_runRotation_sound (rotations : List (List String)) {log : List Entry}
    (h : Sound (Vars.fresh log)) :
    Sound (Vars.fresh (rotations.foldl (runRotation rejects) log)) := by
  induction rotations generalizing log with
  | nil => exact h
  | cons composeDbUrls rotations ih => exact ih (testUpdate_sound rejects h composeDbUrls).fresh

theorem updateSuite_sound (composeDbUrls : List String) :
    Sound (Vars.fresh (updateSuite rejects composeDbUrls)) := by
  apply foldl_runRotation_sound
  exact
    { awaits := by
        intro before e hpre
        exact absurd (List.prefix_nil.mp hpre) (by simp)
      known := by
        intro e he
        cases he
      docs := by
        intro idx stream hdoc
        cases hdoc }

end run

/-- Whichever calls reject: a test awaits the step of the last write to the
    stream that was attempted. It is that of the last write that succeeded
    exactly if the last one attempted did, as it has in every sync test. -/
theorem awaits_last_attempted (rejects : Nat → Option String) (composeDbUrls : List String)
    (before : List Entry) (e : Entry) {url : String} {stream step : Nat}
    (hlog : before ++ [e] <+: updateSuite rejects composeDbUrls)
    (he : e.call = .waitForCondition url stream step) :
    ∃ w, lastAttempted stream before = some w ∧ w.step = step ∧
      ((lastSucceeded stream before).map Write.step = some step ↔ w.ok = true) ∧
      ∀ apiUrl, e.test = .syncStream apiUrl → w.ok = true := by
  have hsound := updateSuite_sound rejects composeDbUrls
  obtain ⟨w, hlast, rfl, hok⟩ := hsound.awaits before e hlog url stream step he
  exact ⟨w, hlast.attempted, rfl, hlast.succeeded_iff, hok⟩

/-- The calls for the nodes "a" and "b" before the first wait, with this
    outcome of the update. -/
def beforeFirstWait (updated : Bool) : List Entry :=
  [⟨.createStream "a", .newCeramic "a", true⟩,
    ⟨.createStream "a", .create "a" 1 0 false, true⟩,
    ⟨.updateStream "a", .replace 1 1 false, updated⟩,
    ⟨.loadStream "b", .newCeramic "b", true⟩,
    ⟨.loadStream "b", .loadDocumentOrTimeout "b" 1, true⟩]

theorem awaits_update : ∃ w, lastAttempted 1 (beforeFirstWait true) = some w ∧ w.step = 1 ∧
    ((lastSucceeded 1 (beforeFirstWait true)).map Write.step = some 1 ↔ w.ok = true) ∧
    ∀ apiUrl, Title.loadStream "b" = .syncStream apiUrl → w.ok = true :=
  awaits_last_attempted (fun _ => none) ["a", "b"] (beforeFirstWait true)
    ⟨.loadStream "b", .waitForCondition "b" 1 1, true⟩ (by decide) rfl

/-- The update rejects. The load test waits for it all the same, in vain,
    though "b" has everything that was written. -/
theorem awaits_failed_update :
    beforeFirstWait false ++ [⟨.loadStream "b", .waitForCondition "b" 1 1, false⟩] <+:
      updateSuite (fun n => if n = 2 ∨ n = 5 then some "timeout" else none) ["a", "b"] ∧
    lastSucceeded 1 (beforeFirstWait false) = some ⟨0, false, true⟩ := by
  decide

end Suite.Update
