import CeramicTests.Suite.UpdateSuite
import Mathlib.Data.List.Rotate

/-! # What a run of the update suite covers

    If no call rejects, the calls of a rotation are known: a stream is
    created and updated on its first node, and every other node loads it,
    sees one more write and waits for it. The rotations bring every node to
    the front, so that all ordered pairs of nodes are tested.
-/

namespace Suite.Update

open Framework

/-! ## Section 1: Coverage -/

/-- The nodes that streams were created on, each with its stream. -/
def creations (log : List Entry) : List (String × Nat) :=
  log.filterMap fun e =>
    match e.call with
    | .create url stream _ _ => some (url, stream)
    | _ => none

/-- The tests that load a stream on a node. -/
def loadedIn (url : String) (stream : Nat) (log : List Entry) : List Title :=
  (history stream log).filterMap fun e =>
    match e.call with
    | .loadDocumentOrTimeout url' _ => if url' = url then some e.test else none
    | _ => none

/-- The steps that tests of this title wait for, on a stream and a node. -/
def awaited (test : Title) (url : String) (stream : Nat) (log : List Entry) : List Nat :=
  (history stream log).filterMap fun e =>
    match e.call with
    | .waitForCondition url' _ step => if e.test = test ∧ url' = url then some step else none
    | _ => none

/-- The place of a reader behind the writer. -/
def readerIndex (urls : List String) (writer reader : String) : Nat :=
  (urls.rotate (urls.idxOf writer)).idxOf reader

/-- A stream is tested on every other node, each time against the last write
    to it; its last write is anchored, and stored when all is done. -/
structure StreamCovered (urls : List String) (writer : String) (stream : Nat)
    (log : List Entry) : Prop where
  loaded : ∀ reader ∈ urls, reader ≠ writer →
    loadedIn reader stream log = [.loadStream reader]
  load : ∀ reader ∈ urls, reader ≠ writer →
    awaited (.loadStream reader) reader stream log = [readerIndex urls writer reader]
  sync : ∀ reader ∈ urls, reader ≠ writer →
    awaited (.syncStream reader) reader stream log = [readerIndex urls writer reader + 1]
  last : ∀ before e url step, before ++ [e] <+: log →
    e.call = .waitForCondition url stream step →
    (lastAttempted stream before).map Write.step = some step
  steps : (writes stream log).map Write.step = List.range (urls.length + 1)
  anchors : (writes stream log).map Write.anchor = List.replicate urls.length false ++ [true]
  stored : ∃ front e, history stream log = front ++ [e] ∧ e.call = .storeStreamReq stream ∧
    ∀ x ∈ front, x.call ≠ .storeStreamReq stream

structure Covers (urls : List String) (log : List Entry) : Prop where
  writers : (creations log).map Prod.fst = urls
  streams : ∀ writer stream, (writer, stream) ∈ creations log →
    StreamCovered urls writer stream log

/-! ## Section 2: The calls of a rotation -/

def loadCalls (apiUrl : String) (stream step : Nat) : List Entry :=
  [⟨.loadStream apiUrl, .newCeramic apiUrl, true⟩,
    ⟨.loadStream apiUrl, .loadDocumentOrTimeout apiUrl stream, true⟩,
    ⟨.loadStream apiUrl, .waitForCondition apiUrl stream step, true⟩,
    ⟨.loadStream apiUrl, .sync apiUrl stream, true⟩,
    ⟨.loadStream apiUrl, .expect, true⟩]

def syncCalls (apiUrl : String) (stream step : Nat) (isFinalWriter : Bool) : List Entry :=
  [⟨.syncStream apiUrl, .replace stream step isFinalWriter, true⟩,
    ⟨.syncStream apiUrl, .waitForCondition apiUrl stream step, true⟩,
    ⟨.syncStream apiUrl, .sync apiUrl stream, true⟩,
    ⟨.syncStream apiUrl, .expect, true⟩] ++
  if isFinalWriter then [⟨.syncStream apiUrl, .storeStreamReq stream, true⟩] else []

/-- The calls for the nodes from `idx` on. -/
def readerCalls (stream last : Nat) : Nat → List String → List Entry
  | _, [] => []
  | idx, apiUrl :: readers =>
    loadCalls apiUrl stream idx ++ syncCalls apiUrl stream (idx + 1) (idx == last) ++
      readerCalls stream last (idx + 1) readers

def writerCalls (writer : String) (stream : Nat) : List Entry :=
  [⟨.createStream writer, .newCeramic writer, true⟩,
    ⟨.createStream writer, .create writer stream 0 false, true⟩,
    ⟨.updateStream writer, .replace stream 1 false, true⟩]

def rotationCalls (stream : Nat) (writer : String) (readers : List String) : List Entry :=
  writerCalls writer stream ++ readerCalls stream readers.length 1 readers

/-- The variables after more calls. -/
def Vars.extend (vars : Vars) (calls : List Entry) : Vars := { vars with log := vars.log ++ calls }

section run
variable {rejects : Nat → Option String} (hok : ∀ n, rejects n = none) {vars : Vars}
include hok

theorem finalState_await_bind (test : Title) (call : Call) (k : PUnit → Test Unit) :
    finalState (await rejects test call >>= k) vars =
      finalState (k ⟨⟩) (vars.record ⟨test, call, true⟩) :=
  finalState_bind_of_ok (attempt_of_none (hok _))

theorem finalState_await (test : Title) (call : Call) :
    finalState (await rejects test call) vars = vars.record ⟨test, call, true⟩ :=
  finalState_of_ok (attempt_of_none (hok _))

theorem createStream_eq (writer : String) :
    finalState (createStream rejects writer) vars =
      ((vars.record ⟨.createStream writer, .newCeramic writer, true⟩).record ⟨.createStream writer,
        .create writer (vars.log.length + 1) vars.step false, true⟩).setFirst
          (vars.log.length + 1) := by
  unfold createStream
  rw [finalState_await_bind hok, finalState_get_bind, finalState_await_bind hok, finalState_modify]
  rw [Vars.record_length]
  rfl

theorem updateStream_eq {stream : Nat} (hfirst : vars.firstDocument = some stream)
    (writer : String) :
    finalState (updateStream rejects writer) vars =
      vars.advance.record ⟨.updateStream writer, .replace stream (vars.step + 1) false, true⟩ := by
  unfold updateStream
  rw [finalState_modify_bind, finalState_get_bind, Vars.advance_firstDocument, hfirst]
  exact finalState_await hok _ _

theorem loadStream_eq {stream : Nat} (hfirst : vars.firstDocument = some stream)
    (apiUrl : String) (idx : Nat) :
    finalState (loadStream rejects apiUrl idx) vars =
      (vars.setDoc idx stream).extend (loadCalls apiUrl stream vars.step) := by
  unfold loadStream
  rw [finalState_await_bind hok, finalState_get_bind, Vars.record_firstDocument, hfirst]
  simp only [finalState_await_bind hok, finalState_await hok, finalState_modify_bind]
  simp only [Vars.record, Vars.extend, Vars.setDoc, loadCalls, List.append_assoc, List.cons_append,
    List.nil_append]

theorem syncStream_eq {stream : Nat} (hfirst : vars.firstDocument = some stream) {idx : Nat}
    (hdoc : vars.docs idx = some stream) (apiUrl : String) (isFinalWriter : Bool) :
    finalState (syncStream rejects apiUrl idx isFinalWriter) vars =
      vars.advance.extend (syncCalls apiUrl stream (vars.step + 1) isFinalWriter) := by
  unfold syncStream
  rw [finalState_modify_bind, finalState_get_bind, Vars.advance_firstDocument, hfirst]
  simp only [finalState_await_bind hok, Vars.advance_docs, hdoc]
  cases isFinalWriter with
  | false =>
    simp only [Bool.false_eq_true, if_false, finalState_pure, Vars.record, Vars.extend, Vars.advance,
      syncCalls, List.append_assoc, List.cons_append, List.nil_append]
  | true =>
    simp only [if_true, finalState_await hok, Vars.record, Vars.extend, Vars.advance,
      syncCalls, List.append_assoc, List.cons_append, List.nil_append]

/-- The calls for the readers still to come. -/
theorem runTests_readers {stream : Nat} (last : Nat) (readers : List String)
    (hfirst : vars.firstDocument = some stream) :
    (runTests ((readers.zipIdx vars.step).flatMap (testReader rejects last)) vars).log =
      vars.log ++ readerCalls stream last vars.step readers := by
  induction readers generalizing vars with
  | nil => exact (List.append_nil _).symm
  | cons apiUrl readers ih =>
    rw [List.zipIdx_cons, List.flatMap_cons, testReader, List.cons_append, List.cons_append,
      List.nil_append, runTests_cons, runTests_cons, loadStream_eq hok hfirst]
    have hdoc : ((vars.setDoc vars.step stream).extend
        (loadCalls apiUrl stream vars.step)).docs vars.step = some stream := if_pos rfl
    have hloaded : ((vars.setDoc vars.step stream).extend
        (loadCalls apiUrl stream vars.step)).firstDocument = some stream := hfirst
    rw [syncStream_eq hok hloaded hdoc]
    refine (ih ?_).trans ?_
    · exact hfirst
    · simp only [Vars.extend, Vars.advance, Vars.setDoc, readerCalls, List.append_assoc]

/-- A rotation in which nothing rejects. -/
theorem runRotation_eq (log : List Entry) (writer : String) (readers : List String) :
    runRotation rejects log (writer :: readers) =
      log ++ rotationCalls (log.length + 1) writer readers := by
  unfold runRotation testUpdate
  rw [List.cons_append, List.cons_append, List.nil_append, runTests_cons, runTests_cons]
  simp only [List.headD_cons, List.tail_cons]
  rw [createStream_eq hok, updateStream_eq hok rfl]
  refine (runTests_readers hok _ readers rfl).trans ?_
  simp only [Vars.record, Vars.advance, Vars.setFirst, Vars.fresh, rotationCalls, writerCalls, List.append_assoc,
    List.cons_append, List.nil_append, List.length_cons, Nat.add_sub_cancel]

end run

theorem creations_append (log log' : List Entry) :
    creations (log ++ log') = creations log ++ creations log' := List.filterMap_append

theorem exists_creation {log : List Entry} {writer : String} {stream : Nat}
    (h : (writer, stream) ∈ creations log) : ∃ e ∈ log, e.call.stream? = some stream := by
  obtain ⟨e, he, hcreate⟩ := List.mem_filterMap.mp h
  refine ⟨e, he, ?_⟩
  split at hcreate
  · next hcall =>
    rw [hcall]
    exact congrArg (Option.map Prod.snd) hcreate
  · cases hcreate

/-! ## Section 3: What they say about the stream -/

section readers
variable {stream last idx : Nat} {apiUrl reader : String} {readers : List String}

theorem loadCalls_stream {step : Nat} : ∀ e ∈ loadCalls apiUrl stream step,
    ∀ s, e.call.stream? = some s → s = stream := by
  simp [loadCalls, Call.stream?]

theorem syncCalls_stream {step : Nat} {isFinalWriter : Bool} :
    ∀ e ∈ syncCalls apiUrl stream step isFinalWriter,
    ∀ s, e.call.stream? = some s → s = stream := by
  cases isFinalWriter <;> simp [syncCalls, Call.stream?]

theorem history_loadCalls (step : Nat) : history stream (loadCalls apiUrl stream step) =
    [⟨.loadStream apiUrl, .loadDocumentOrTimeout apiUrl stream, true⟩,
      ⟨.loadStream apiUrl, .waitForCondition apiUrl stream step, true⟩,
      ⟨.loadStream apiUrl, .sync apiUrl stream, true⟩] := by
  simp [history, loadCalls, Call.stream?]

theorem history_syncCalls (step : Nat) (isFinalWriter : Bool) :
    history stream (syncCalls apiUrl stream step isFinalWriter) =
      [⟨.syncStream apiUrl, .replace stream step isFinalWriter, true⟩,
        ⟨.syncStream apiUrl, .waitForCondition apiUrl stream step, true⟩,
        ⟨.syncStream apiUrl, .sync apiUrl stream, true⟩] ++
      if isFinalWriter then [⟨.syncStream apiUrl, .storeStreamReq stream, true⟩] else [] := by
  cases isFinalWriter <;> simp [history, syncCalls, Call.stream?]

/-- The calls for the readers are about no other stream. -/
theorem readerCalls_stream : ∀ e ∈ readerCalls stream last idx readers,
    ∀ s, e.call.stream? = some s → s = stream := by
  induction readers generalizing idx with
  | nil => simp [readerCalls]
  | cons apiUrl readers ih =>
    intro e he
    rcases List.mem_append.mp he with he | he
    · rcases List.mem_append.mp he with he | he
      · exact loadCalls_stream e he
      · exact syncCalls_stream e he
    · exact ih e he

/-- One write for each reader, anchored for the last one. -/
theorem writes_readerCalls : writes stream (readerCalls stream last idx readers) =
    (List.range' idx readers.length).map fun i => ⟨i + 1, i == last, true⟩ := by
  induction readers generalizing idx with
  | nil => rfl
  | cons apiUrl readers ih =>
    have hload : writes stream (loadCalls apiUrl stream idx) = [] := by
      unfold writes
      rw [history_loadCalls]
      rfl
    have hsync : writes stream (syncCalls apiUrl stream (idx + 1) (idx == last)) =
        [⟨idx + 1, idx == last, true⟩] := by
      unfold writes
      rw [history_syncCalls]
      cases idx == last <;> rfl
    rw [readerCalls, writes_append, writes_append, hload, hsync, ih, List.length_cons,
      List.range'_succ, List.map_cons]
    rfl

section observed
variable {β : Type} {g : Entry → Option β} {v : Nat → β}
  (hcalls : ∀ url i, (history stream (loadCalls url stream i)).filterMap g ++
    (history stream (syncCalls url stream (i + 1) (i == last))).filterMap g =
      if url = reader then [v i] else [])
include hcalls

/-- What the calls for a node alone show is not seen without that node. -/
theorem readerCalls_filterMap_of_not_mem (hreader : reader ∉ readers) :
    (history stream (readerCalls stream last idx readers)).filterMap g = [] := by
  induction readers generalizing idx with
  | nil => rfl
  | cons url readers ih =>
    have hurl : url ≠ reader := fun h => hreader (h ▸ List.mem_cons_self ..)
    rw [readerCalls, history_append, history_append, List.filterMap_append,
      List.filterMap_append, hcalls, if_neg hurl, List.nil_append]
    exact ih fun h => hreader (List.mem_cons_of_mem _ h)

/-- What the calls for a node alone show is seen once, at its place. -/
theorem readerCalls_filterMap (hreader : reader ∈ readers) (hnodup : readers.Nodup) :
    (history stream (readerCalls stream last idx readers)).filterMap g =
      [v (idx + readers.idxOf reader)] := by
  induction readers generalizing idx with
  | nil => cases hreader
  | cons url readers ih =>
    rw [readerCalls, history_append, history_append, List.filterMap_append,
      List.filterMap_append, hcalls]
    by_cases hurl : url = reader
    · subst hurl
      rw [if_pos rfl, readerCalls_filterMap_of_not_mem hcalls (List.nodup_cons.mp hnodup).1,
        List.idxOf_cons_self]
      rfl
    · have hmem : reader ∈ readers := by
        rcases List.mem_cons.mp hreader with h | h
        · exact absurd h.symm hurl
        · exact h
      rw [if_neg hurl, List.nil_append, ih hmem (List.nodup_cons.mp hnodup).2,
        List.idxOf_cons_ne _ hurl]
      congr 2
      omega

end observed

theorem loadedIn_readerCalls (hreader : reader ∈ readers) (hnodup : readers.Nodup) :
    loadedIn reader stream (readerCalls stream last idx readers) = [.loadStream reader] := by
  apply readerCalls_filterMap (v := fun _ => Title.loadStream reader) _ hreader hnodup
  intro url i
  rw [history_loadCalls, history_syncCalls]
  by_cases hurl : url = reader
  · subst hurl
    cases i == last <;> simp
  · cases i == last <;> simp [hurl]

theorem awaited_load_readerCalls (hreader : reader ∈ readers) (hnodup : readers.Nodup) :
    awaited (.loadStream reader) reader stream (readerCalls stream last idx readers) =
      [idx + readers.idxOf reader] := by
  apply readerCalls_filterMap (v := id) _ hreader hnodup
  intro url i
  rw [history_loadCalls, history_syncCalls]
  by_cases hurl : url = reader
  · cases i == last <;> simp [hurl]
  · cases i == last <;> simp [hurl]

theorem awaited_sync_readerCalls (hreader : reader ∈ readers) (hnodup : readers.Nodup) :
    awaited (.syncStream reader) reader stream (readerCalls stream last idx readers) =
      [idx + readers.idxOf reader + 1] := by
  apply readerCalls_filterMap (v := Nat.succ) _ hreader hnodup
  intro url i
  rw [history_loadCalls, history_syncCalls]
  by_cases hurl : url = reader
  · cases i == last <;> simp [hurl]
  · cases i == last <;> simp [hurl]

/-- The last call for the last reader stores the stream. -/
theorem stored_readerCalls (stream : Nat) (hne : readers ≠ [])
    (hlast : idx + readers.length = last + 1) :
    ∃ front e, history stream (readerCalls stream last idx readers) = front ++ [e] ∧
      e.call = .storeStreamReq stream ∧ ∀ x ∈ front, x.call ≠ .storeStreamReq stream := by
  induction readers generalizing idx with
  | nil => exact absurd rfl hne
  | cons url readers ih =>
    have hload : ∀ x ∈ history stream (loadCalls url stream idx),
        x.call ≠ .storeStreamReq stream := by
      rw [history_loadCalls]
      simp
    rw [readerCalls, history_append, history_append]
    cases readers with
    | nil =>
      have hidx : (idx == last) = true := by
        simp only [List.length_cons, List.length_nil] at hlast
        simp only [beq_iff_eq]
        omega
      rw [hidx, history_syncCalls]
      refine ⟨history stream (loadCalls url stream idx) ++
        [⟨.syncStream url, .replace stream (idx + 1) true, true⟩,
          ⟨.syncStream url, .waitForCondition url stream (idx + 1), true⟩,
          ⟨.syncStream url, .sync url stream, true⟩],
        ⟨.syncStream url, .storeStreamReq stream, true⟩, ?_, rfl, ?_⟩
      · simp [history, readerCalls]
      · rw [List.forall_mem_append]
        exact ⟨hload, by simp⟩
    | cons url' readers =>
      have hidx : (idx == last) = false := by
        simp only [List.length_cons] at hlast
        simp only [beq_eq_false_iff_ne]
        omega
      rw [hidx]
      have hsync : ∀ x ∈ history stream (syncCalls url stream (idx + 1) false),
          x.call ≠ .storeStreamReq stream := by
        rw [history_syncCalls]
        simp
      have hrest : idx + 1 + (url' :: readers).length = last + 1 := by
        rw [← hlast, List.length_cons (a := url)]
        omega
      obtain ⟨front, e, hfront, he, hstore⟩ := ih (List.cons_ne_nil _ _) hrest
      refine ⟨history stream (loadCalls url stream idx) ++
        history stream (syncCalls url stream (idx + 1) false) ++ front, e, ?_, he, ?_⟩
      · rw [hfront, List.append_assoc _ front]
      · rw [List.forall_mem_append, List.forall_mem_append]
        exact ⟨⟨hload, hsync⟩, hstore⟩

end readers

/-! ### A whole rotation -/

section rotation
variable {stream : Nat} {writer reader : String} {readers : List String}

theorem rotationCalls_stream : ∀ e ∈ rotationCalls stream writer readers,
    ∀ s, e.call.stream? = some s → s = stream := by
  rw [rotationCalls, List.forall_mem_append]
  exact ⟨by simp [writerCalls, Call.stream?], readerCalls_stream⟩

theorem creations_rotationCalls :
    creations (rotationCalls stream writer readers) = [(writer, stream)] := by
  have hreaders : ∀ last idx (readers : List String),
      creations (readerCalls stream last idx readers) = [] := by
    intro last idx readers
    induction readers generalizing idx with
    | nil => rfl
    | cons url readers ih =>
      have hcalls : creations (loadCalls url stream idx ++
          syncCalls url stream (idx + 1) (idx == last)) = [] := by
        cases idx == last <;> rfl
      rw [readerCalls, creations_append, hcalls, ih]
      rfl
  rw [rotationCalls, creations_append, hreaders]
  rfl

theorem history_rotationCalls : history stream (rotationCalls stream writer readers) =
    [⟨.createStream writer, .create writer stream 0 false, true⟩,
      ⟨.updateStream writer, .replace stream 1 false, true⟩] ++
    history stream (readerCalls stream readers.length 1 readers) := by
  have hwriter : history stream (writerCalls writer stream) =
      [⟨.createStream writer, .create writer stream 0 false, true⟩,
        ⟨.updateStream writer, .replace stream 1 false, true⟩] := by
    simp [history, writerCalls, Call.stream?]
  rw [rotationCalls, history_append, hwriter]

theorem writes_rotationCalls : writes stream (rotationCalls stream writer readers) =
    ⟨0, false, true⟩ :: ⟨1, false, true⟩ ::
      (List.range' 1 readers.length).map fun i => ⟨i + 1, i == readers.length, true⟩ := by
  unfold writes
  rw [history_rotationCalls, List.filterMap_append]
  exact congrArg _ writes_readerCalls

theorem steps_rotationCalls : (writes stream (rotationCalls stream writer readers)).map Write.step =
    List.range (readers.length + 2) := by
  have hreaders : (List.range' 1 readers.length).map (fun i => i + 1) =
      List.range' 2 readers.length := by
    simpa only [Nat.add_comm] using List.map_add_range' (a := 1) 1 readers.length 1
  rw [writes_rotationCalls, List.range_eq_range', List.range'_succ, List.range'_succ, ← hreaders]
  simp only [List.map_cons, List.map_map]
  rfl

theorem anchors_rotationCalls (hne : readers ≠ []) :
    (writes stream (rotationCalls stream writer readers)).map Write.anchor =
      List.replicate (readers.length + 1) false ++ [true] := by
  obtain ⟨k, hk⟩ := Nat.exists_eq_succ_of_ne_zero (mt List.length_eq_zero_iff.mp hne)
  have hothers : (List.range' 1 k).map (fun i => i == k + 1) = List.replicate k false := by
    rw [List.eq_replicate_iff]
    refine ⟨by simp, ?_⟩
    intro b hb
    obtain ⟨i, hi, rfl⟩ := List.mem_map.mp hb
    obtain ⟨-, hi⟩ := List.mem_range'_1.mp hi
    simp only [beq_eq_false_iff_ne]
    omega
  rw [writes_rotationCalls, hk, Nat.succ_eq_add_one, List.range'_1_concat, List.map_append]
  have hlast : (1 + k == k + 1) = true := beq_iff_eq.mpr (Nat.add_comm 1 k)
  simp only [List.map_cons, List.map_append, List.map_map, List.map_nil, Function.comp_def, hothers,
    hlast, List.replicate_succ, List.cons_append]

end rotation

/-! ## Section 4: All rotations -/

/-- What a run of these rotations adds to a log of this length. -/
structure Added (rotations : List (List String)) (length : Nat) (new : List Entry) : Prop where
  beyond : ∀ e ∈ new, ∀ stream, e.call.stream? = some stream → length < stream
  writers : (creations new).map (fun c => some c.1) = rotations.map List.head?
  histories : ∀ writer stream, (writer, stream) ∈ creations new →
    ∃ readers, writer :: readers ∈ rotations ∧
      history stream new = history stream (rotationCalls stream writer readers)

/-- A run of one more rotation, before the others. -/
theorem Added.cons {rotations : List (List String)} {length : Nat} {writer : String}
    {readers : List String} {new : List Entry}
    (h : Added rotations (length + (rotationCalls (length + 1) writer readers).length) new) :
    Added ((writer :: readers) :: rotations) length
      (rotationCalls (length + 1) writer readers ++ new) where
  beyond := by
    intro e he stream hstream
    rcases List.mem_append.mp he with he | he
    · rw [rotationCalls_stream e he stream hstream]
      exact Nat.lt_succ_self length
    · have := h.beyond e he stream hstream
      omega
  writers := by
    rw [creations_append, creations_rotationCalls, List.map_append, h.writers]
    rfl
  histories := by
    have hpos : 0 < (rotationCalls (length + 1) writer readers).length := by
      simp [rotationCalls, writerCalls]
    intro w stream hmem
    rw [creations_append, creations_rotationCalls] at hmem
    rcases List.mem_append.mp hmem with hmem | hmem
    · obtain ⟨rfl, rfl⟩ := Prod.mk.inj (List.mem_singleton.mp hmem)
      have hnew : history (length + 1) new = [] := by
        apply history_of_unknown
        intro e he hstream
        have := h.beyond e he _ hstream
        omega
      refine ⟨readers, List.mem_cons_self .., ?_⟩
      rw [history_append, hnew, List.append_nil]
    · obtain ⟨readers', hrotation, hhistory⟩ := h.histories w stream hmem
      obtain ⟨x, hx, hcreate⟩ := exists_creation hmem
      have hlt := h.beyond x hx stream hcreate
      have hfirst : history stream (rotationCalls (length + 1) writer readers) = [] := by
        apply history_of_unknown
        intro e he hstream
        have := rotationCalls_stream e he stream hstream
        omega
      refine ⟨readers', List.mem_cons_of_mem _ hrotation, ?_⟩
      rw [history_append, hfirst, List.nil_append, hhistory]

theorem foldl_runRotation_eq {rejects : Nat → Option String} (hok : ∀ n, rejects n = none)
    {rotations : List (List String)} (hne : ∀ rotation ∈ rotations, rotation ≠ [])
    (log : List Entry) :
    ∃ new, rotations.foldl (runRotation rejects) log = log ++ new ∧
      Added rotations log.length new := by
  induction rotations generalizing log with
  | nil =>
    refine ⟨[], (List.append_nil log).symm, ?_⟩
    exact ⟨by simp, rfl, by intro writer stream h; cases h⟩
  | cons rotation rotations ih =>
    obtain ⟨writer, readers, rfl⟩ := List.exists_cons_of_ne_nil (hne _ (List.mem_cons_self ..))
    have hrest : ∀ rotation ∈ rotations, rotation ≠ [] :=
      fun rotation h => hne rotation (List.mem_cons_of_mem _ h)
    obtain ⟨new, hnew, hadded⟩ := ih hrest (log ++ rotationCalls (log.length + 1) writer readers)
    refine ⟨rotationCalls (log.length + 1) writer readers ++ new, ?_, ?_⟩
    · rw [List.foldl_cons, runRotation_eq hok, hnew, List.append_assoc]
    · rw [List.length_append] at hadded
      exact hadded.cons

/-! ### The rotations -/

section rotations
variable {urls : List String} {writer : String} {readers : List String}

theorem mem_generateUrlCombinations {rotation : List String}
    (h : rotation ∈ generateUrlCombinations urls) :
    ∃ i, i < urls.length ∧ rotation = urls.rotate i := by
  obtain ⟨i, hi, rfl⟩ := List.mem_map.mp h
  have hi := List.mem_range.mp hi
  exact ⟨i, hi, (List.rotate_eq_drop_append_take (Nat.le_of_lt hi)).symm⟩

/-- Every node is once in front. -/
theorem heads_generateUrlCombinations (urls : List String) :
    (generateUrlCombinations urls).map List.head? = urls.map some := by
  apply List.ext_getElem
  · simp [generateUrlCombinations]
  · intro i hi hi'
    have hlt : i < urls.length := by simpa using hi'
    simp only [generateUrlCombinations, List.getElem_map, List.getElem_range]
    rw [← List.rotate_eq_drop_append_take (Nat.le_of_lt hlt), List.head?_rotate hlt,
      List.getElem?_eq_getElem hlt]

/-- The rotation with a node in front. -/
theorem rotate_idxOf (hnodup : urls.Nodup) (h : writer :: readers ∈ generateUrlCombinations urls) :
    urls.rotate (urls.idxOf writer) = writer :: readers := by
  obtain ⟨i, hi, hrotation⟩ := mem_generateUrlCombinations h
  have hhead := List.head?_rotate hi
  rw [← hrotation, List.head?_cons, List.getElem?_eq_getElem hi] at hhead
  rw [hrotation, Option.some.inj hhead, hnodup.idxOf_getElem i hi]

/-- The readers are the other nodes, in this order. -/
theorem readerIndex_eq (hrotate : urls.rotate (urls.idxOf writer) = writer :: readers)
    {reader : String} (hne : reader ≠ writer) :
    readerIndex urls writer reader = 1 + readers.idxOf reader := by
  unfold readerIndex
  rw [hrotate, List.idxOf_cons_ne _ hne.symm, Nat.succ_eq_add_one, Nat.add_comm]

theorem mem_readers (hrotate : urls.rotate (urls.idxOf writer) = writer :: readers)
    {reader : String} (hreader : reader ∈ urls) (hne : reader ≠ writer) : reader ∈ readers := by
  have hmem : reader ∈ urls.rotate (urls.idxOf writer) := List.mem_rotate.mpr hreader
  rw [hrotate] at hmem
  exact (List.mem_cons.mp hmem).resolve_left hne

end rotations

/-- A log that shows of a stream what its rotation does. -/
theorem streamCovered_of_rotation {urls : List String} {writer : String} {readers : List String}
    {stream : Nat} {log : List Entry} (hnodup : urls.Nodup) (hn : 2 ≤ urls.length)
    (hrotate : urls.rotate (urls.idxOf writer) = writer :: readers)
    (hhistory : history stream log = history stream (rotationCalls stream writer readers))
    (hsound : Sound (Vars.fresh log)) : StreamCovered urls writer stream log := by
  have hlength : urls.length = readers.length + 1 := by
    rw [← List.length_rotate urls (urls.idxOf writer), hrotate, List.length_cons]
  have hreaders : readers.Nodup := by
    have h : (urls.rotate (urls.idxOf writer)).Nodup := List.nodup_rotate.mpr hnodup
    rw [hrotate] at h
    exact (List.nodup_cons.mp h).2
  have hne : readers ≠ [] := by
    rintro rfl
    rw [hlength] at hn
    exact absurd hn (by decide)
  have hwrites : writes stream log = writes stream (rotationCalls stream writer readers) := by
    unfold writes
    rw [hhistory]
  rw [history_rotationCalls] at hhistory
  constructor
  case loaded =>
    intro reader hreader hneq
    unfold loadedIn
    rw [hhistory, List.filterMap_append]
    exact loadedIn_readerCalls (mem_readers hrotate hreader hneq) hreaders
  case load =>
    intro reader hreader hneq
    unfold awaited
    rw [hhistory, List.filterMap_append, readerIndex_eq hrotate hneq]
    exact awaited_load_readerCalls (mem_readers hrotate hreader hneq) hreaders
  case sync =>
    intro reader hreader hneq
    unfold awaited
    rw [hhistory, List.filterMap_append, readerIndex_eq hrotate hneq]
    exact awaited_sync_readerCalls (mem_readers hrotate hreader hneq) hreaders
  case last =>
    intro before e url step hpre he
    obtain ⟨w, hlast, rfl, -⟩ := hsound.awaits before e hpre url stream step he
    rw [hlast.attempted]
    rfl
  case steps => rw [hwrites, steps_rotationCalls, hlength]
  case anchors => rw [hwrites, anchors_rotationCalls hne, hlength]
  case stored =>
    obtain ⟨front, e, hfront, he, hstore⟩ :=
      stored_readerCalls stream hne (Nat.add_comm 1 readers.length)
    rw [hhistory, hfront, ← List.append_assoc]
    refine ⟨_, e, rfl, he, ?_⟩
    rw [List.forall_mem_append]
    exact ⟨by simp, hstore⟩

/-- Every ordered pair of nodes is tested, in a run in which nothing rejects. -/
theorem updateSuite_covers (urls : List String) (hn : 2 ≤ urls.length) (hnodup : urls.Nodup)
    (rejects : Nat → Option String) (hok : ∀ n, rejects n = none) :
    Covers urls (updateSuite rejects urls) := by
  have hne : ∀ rotation ∈ generateUrlCombinations urls, rotation ≠ [] := by
    rintro rotation hrotation rfl
    obtain ⟨i, hi, hnil⟩ := mem_generateUrlCombinations hrotation
    rw [← List.nil_eq_rotate_iff.mp hnil] at hi
    exact absurd hi (Nat.not_lt_zero _)
  obtain ⟨new, hnew, hadded⟩ := foldl_runRotation_eq hok hne []
  have hsuite : updateSuite rejects urls = new := hnew
  have hsound := updateSuite_sound rejects urls
  rw [hsuite] at hsound ⊢
  constructor
  case writers =>
    have hwriters := hadded.writers
    rw [heads_generateUrlCombinations] at hwriters
    apply List.map_injective_iff.mpr (fun _ _ => Option.some.inj)
    rw [List.map_map]
    exact hwriters
  case streams =>
    intro writer stream hmem
    obtain ⟨readers, hrotation, hhistory⟩ := hadded.histories writer stream hmem
    exact streamCovered_of_rotation hnodup hn (rotate_idxOf hnodup hrotation) hhistory hsound

theorem updateSuite_covers_three :
    Covers ["a", "b", "c"] (updateSuite (fun _ => none) ["a", "b", "c"]) :=
  updateSuite_covers ["a", "b", "c"] (by decide) (by decide) (fun _ => none) (fun _ => rfl)

end Suite.Update
