import CeramicTests.Framework.Transition
import CeramicTests.Suite.Processes
import Mathlib.Data.String.Basic

/-! # The table under all its processes

    Any number of anchor checks, garbage collections and storing tests run
    over one table. Each acts on records that it fetched earlier, and the
    requests of different processes interleave arbitrarily.

    - A record without `Creation` is never found by the garbage collection
      again, and one without `Expiration` is not expired by the database.
      So every record should carry all its attributes (`TableInvariant`).
    - `storeStreamReq` and `deleteStreamReq` keep the invariant. The update
      of `markStreamReqAsAnchored` keeps it only if the record is still
      there (`FindsItsRecord`).
    - What holds without any condition is weaker: a record that is not
      marked as anchored carries all its attributes (`WellKept`).
-/

namespace Suite

open Transition Framework

variable {K : Type}

/-! ## Section 1: The invariants -/

def StreamReq.Complete (r : StreamReq) : Prop :=
  r.creation.isSome = true ∧ r.expiration.isSome = true ∧ r.anchored.isSome = true

instance (r : StreamReq) : Decidable r.Complete :=
  inferInstanceAs (Decidable (_ ∧ _))

section invariants

variable [DecidableEq K]

def AllComplete (T : Table K) : Prop := ∀ k r, T.lookup k = some r → r.Complete

/-- Every record carries all its attributes. Hence it matches exactly one of
    the filters of `fetchUnanchoredStreamReqs` and `fetchAnchoredStreamReqs`,
    and from `StreamTTL` after its creation on it matches the filter of
    `fetchExpiredStreamReqs`. -/
structure TableInvariant (cfg : Config) (T : Table K) : Prop where
  complete : AllComplete T
  one_filter : ∀ k r, T.lookup k = some r →
    (anchoredIs false r = true ↔ ¬ anchoredIs true r = true)
  expires : ∀ k r, T.lookup k = some r → ∃ creation, r.creation = some creation ∧
    ∀ now, creation + cfg.streamTTL < now → createdBefore (now - cfg.streamTTL) r = true

/-- Every record is marked as anchored or carries all its attributes. -/
def WellKept (T : Table K) : Prop :=
  ∀ k r, T.lookup k = some r → r.anchored = some true ∨ r.Complete

theorem StreamReq.Complete.one_filter {r : StreamReq} (h : r.Complete) :
    anchoredIs false r = true ↔ ¬ anchoredIs true r = true := by
  obtain ⟨b, hb⟩ := Option.isSome_iff_exists.mp h.2.2
  unfold anchoredIs
  rw [hb]
  cases b <;> decide

theorem StreamReq.Complete.expires {r : StreamReq} (h : r.Complete) (cfg : Config) :
    ∃ creation, r.creation = some creation ∧
      ∀ now, creation + cfg.streamTTL < now → createdBefore (now - cfg.streamTTL) r = true := by
  obtain ⟨creation, hc⟩ := Option.isSome_iff_exists.mp h.1
  refine ⟨creation, hc, ?_⟩
  intro now hnow
  unfold createdBefore
  rw [hc]
  show decide (creation < now - cfg.streamTTL) = true
  exact decide_eq_true (by omega)

theorem tableInvariant_iff {cfg : Config} {T : Table K} :
    TableInvariant cfg T ↔ AllComplete T := by
  constructor
  · intro h
    exact h.complete
  · intro h
    exact ⟨h, fun k r hr => (h k r hr).one_filter, fun k r hr => (h k r hr).expires cfg⟩

/-! ## Section 2: One write -/

/-- The record that `storeStreamReq` puts is complete, and so are the others. -/
theorem storeStreamReq_complete (cfg : Config) (now : Int) (s : K) {T : Table K}
    (h : AllComplete T) : AllComplete (storeStreamReq cfg now s T) := by
  intro k r hr
  rw [lookup_storeStreamReq] at hr
  by_cases hk : k = s
  · rw [if_pos hk, Option.some.injEq] at hr
    subst hr
    exact ⟨rfl, rfl, rfl⟩
  · rw [if_neg hk] at hr
    exact h k r hr

theorem deleteStreamReq_complete (s : K) {T : Table K} (h : AllComplete T) :
    AllComplete (deleteStreamReq s T) := by
  intro k r hr
  rw [lookup_deleteStreamReq] at hr
  by_cases hk : k = s
  · simp [hk] at hr
  · rw [if_neg hk] at hr
    exact h k r hr

theorem markStreamReqAsAnchored_complete {s : K} {T : Table K} (h : AllComplete T)
    (hs : (T.lookup s).isSome = true) : AllComplete (markStreamReqAsAnchored s T) := by
  obtain ⟨old, hold⟩ := Option.isSome_iff_exists.mp hs
  intro k r hr
  rw [lookup_markStreamReqAsAnchored] at hr
  by_cases hk : k = s
  · rw [if_pos hk, itemOrNew_of_lookup hold, Option.some.injEq] at hr
    subst hr
    -- `updateItem` keeps the two other attributes
    have hc := h s old hold
    exact ⟨hc.1, hc.2.1, rfl⟩
  · rw [if_neg hk] at hr
    exact h k r hr

/-- Without a record to update, `updateItem` makes one that carries nothing
    but `Anchored`. -/
theorem lookup_mark_of_none {s : K} {T : Table K} (h : T.lookup s = none) :
    (markStreamReqAsAnchored s T).lookup s = some ⟨none, none, some true⟩ := by
  rw [lookup_markStreamReqAsAnchored, if_pos rfl]
  simp [itemOrNew, h]

/-- A write keeps complete records complete if an update finds the record
    it is about. -/
theorem apply_complete_of {cfg : Config} {w : Write K} {T : Table K} (h : AllComplete T)
    (hw : ∀ s, w = .updateItem s → (T.lookup s).isSome = true) :
    AllComplete (w.apply cfg T) := by
  cases w with
  | putItem s now => exact storeStreamReq_complete cfg now s h
  | updateItem s => exact markStreamReqAsAnchored_complete h (hw s rfl)
  | deleteItem s => exact deleteStreamReq_complete s h

theorem not_complete_of_missing {s : K} {T : Table K} (h : T.lookup s = none) :
    ¬ AllComplete (markStreamReqAsAnchored s T) := by
  intro hall
  have hc := hall s _ (lookup_mark_of_none h)
  exact absurd hc.1 (by decide)

theorem apply_wellKept (cfg : Config) (w : Write K) {T : Table K} (h : WellKept T) :
    WellKept (w.apply cfg T) := by
  intro k r hr
  cases w with
  | putItem s now =>
    have hr : (storeStreamReq cfg now s T).lookup k = some r := hr
    rw [lookup_storeStreamReq] at hr
    by_cases hk : k = s
    · rw [if_pos hk, Option.some.injEq] at hr
      subst hr
      exact Or.inr ⟨rfl, rfl, rfl⟩
    · rw [if_neg hk] at hr
      exact h k r hr
  | updateItem s =>
    have hr : (markStreamReqAsAnchored s T).lookup k = some r := hr
    rw [lookup_markStreamReqAsAnchored] at hr
    by_cases hk : k = s
    · rw [if_pos hk, Option.some.injEq] at hr
      subst hr
      -- an update without a record is no exception: it marks
      exact Or.inl rfl
    · rw [if_neg hk] at hr
      exact h k r hr
  | deleteItem s =>
    have hr : (deleteStreamReq s T).lookup k = some r := hr
    rw [lookup_deleteStreamReq] at hr
    by_cases hk : k = s
    · simp [hk] at hr
    · rw [if_neg hk] at hr
      exact h k r hr

/-! ## Section 3: All runs -/

/-- The processes of the suite over one table that starts out complete. -/
def sharedTable (cfg : Config) (ord : LinearOrder K) (ceramicConnections : List String) :
    System (Client.Shared (Process K) (Table K))
      (Client.Event (Process K) (Request K) (Reply K)) :=
  (Process.client cfg ceramicConnections).system (Serves cfg ord)
    (Process.Starts cfg ceramicConnections)
    (fun s => (∀ i, (s.procs i).request = none) ∧ TableInvariant cfg s.db)

/-- If the step performs an `updateItem`, its record is in the table. -/
def FindsItsRecord
    (f : Fired (Client.Shared (Process K) (Table K))
      (Client.Event (Process K) (Request K) (Reply K))) : Prop :=
  ∀ i s reply, f.label = .serve i (.write (.updateItem s)) reply →
    reply.performed = true → (f.before.db.lookup s).isSome = true

variable {cfg : Config} {ord : LinearOrder K} {ceramicConnections : List String}

/-- A step leaves the table alone or performs one write of a process. -/
theorem sharedTable_step {s s' : Client.Shared (Process K) (Table K)}
    {l : Client.Event (Process K) (Request K) (Reply K)}
    (h : (sharedTable cfg ord ceramicConnections).step s l s') :
    (s'.db = s.db ∧ ∀ i w reply, l = .serve i (.write w) reply → reply.performed = false) ∨
    (∃ i w reply, l = .serve i (.write w) reply ∧ reply.performed = true ∧
      s'.db = w.apply cfg s.db) := by
  cases l with
  | start i p =>
    obtain ⟨_, _, rfl⟩ := h
    exact Or.inl ⟨rfl, by intro i w reply hl; cases hl⟩
  | serve i request reply =>
    obtain ⟨_, hserve, _⟩ := h
    rcases hserve.table with ⟨hdb, hno⟩ | ⟨w, rfl, hperf, hdb⟩
    · left
      refine ⟨hdb, ?_⟩
      intro j w reply' hl
      cases hl
      exact hno w rfl
    · exact Or.inr ⟨i, w, reply, rfl, hperf, hdb⟩

theorem step_keeps_complete {s s' : Client.Shared (Process K) (Table K)}
    {l : Client.Event (Process K) (Request K) (Reply K)} (hs : TableInvariant cfg s.db)
    (h : (sharedTable cfg ord ceramicConnections).step s l s')
    (hfinds : FindsItsRecord ⟨s, l, s'⟩) : TableInvariant cfg s'.db := by
  rw [tableInvariant_iff] at hs ⊢
  rcases sharedTable_step h with ⟨hdb, _⟩ | ⟨i, w, reply, rfl, hperf, hdb⟩
  · rw [hdb]
    exact hs
  · rw [hdb]
    -- only an update could lose attributes, and this one finds its record
    apply apply_complete_of hs
    intro k hw
    subst hw
    exact hfinds i k reply rfl hperf

theorem step_breaks_complete {s s' : Client.Shared (Process K) (Table K)}
    {l : Client.Event (Process K) (Request K) (Reply K)}
    (h : (sharedTable cfg ord ceramicConnections).step s l s')
    (hmiss : ¬ FindsItsRecord ⟨s, l, s'⟩) : ¬ TableInvariant cfg s'.db := by
  unfold FindsItsRecord at hmiss
  push Not at hmiss
  obtain ⟨i, k, reply, hl, hperf, hnone⟩ := hmiss
  have hl : l = .serve i (.write (.updateItem k)) reply := hl
  rcases sharedTable_step h with ⟨_, hno⟩ | ⟨j, w, reply', hl', _, hdb⟩
  · rw [hno i _ reply hl] at hperf
    exact absurd hperf (by decide)
  · -- the label fixes the write, and its record is missing
    rw [hl] at hl'
    cases hl'
    rw [tableInvariant_iff, hdb]
    exact not_complete_of_missing (Option.not_isSome_iff_eq_none.mp hnone)

/-- **The table invariant over all runs.** The invariant holds in every
    table that a run reaches exactly when each update that the run performs
    finds its record in the table. -/
theorem table_invariant_iff_updates_find {s₀ s : Client.Shared (Process K) (Table K)}
    {tr : List (Fired (Client.Shared (Process K) (Table K))
      (Client.Event (Process K) (Request K) (Reply K)))}
    (hinit : (sharedTable cfg ord ceramicConnections).init s₀)
    (hrun : (sharedTable cfg ord ceramicConnections).Run s₀ tr s) :
    (∀ f ∈ tr, TableInvariant cfg f.after.db) ↔ ∀ f ∈ tr, FindsItsRecord f := by
  let inv : Client.Shared (Process K) (Table K) → Prop := fun s => TableInvariant cfg s.db
  have hkeep : ∀ s l s', inv s → (sharedTable cfg ord ceramicConnections).step s l s' →
      FindsItsRecord ⟨s, l, s'⟩ → inv s' :=
    fun s l s' hs hstep hg => step_keeps_complete hs hstep hg
  have hbreak : ∀ s l s', (sharedTable cfg ord ceramicConnections).step s l s' →
      ¬ FindsItsRecord ⟨s, l, s'⟩ → ¬ inv s' :=
    fun s l s' hstep hg => step_breaks_complete hstep hg
  exact hrun.invariant_iff_guarded hkeep hbreak hinit.2

/-- **What every run keeps.** Whatever the order of the requests, a record
    that is not marked as anchored carries all its attributes. -/
theorem run_wellKept {s₀ s : Client.Shared (Process K) (Table K)}
    {tr : List (Fired (Client.Shared (Process K) (Table K))
      (Client.Event (Process K) (Request K) (Reply K)))}
    (hrun : (sharedTable cfg ord ceramicConnections).Run s₀ tr s)
    (hs : WellKept s₀.db) : WellKept s.db := by
  let inv : Client.Shared (Process K) (Table K) → Prop := fun s => WellKept s.db
  have hkeep : ∀ s l s', inv s → (sharedTable cfg ord ceramicConnections).step s l s' →
      inv s' := by
    intro s l s' hinv hstep
    show WellKept s'.db
    rcases sharedTable_step hstep with ⟨hdb, _⟩ | ⟨_, w, _, _, _, hdb⟩
    · rw [hdb]
      exact hinv
    · rw [hdb]
      exact apply_wellKept cfg w hinv
  exact hrun.invariant hkeep hs

end invariants

/-! ### Two anchor checks that fetch the same record

    Stream `streamID0` was stored at time 0 and is due for its check. Both
    checks fetch its record. If both load it as `ANCHORED`, both find the
    record that they mark. But the first may load it as `PENDING`, too late,
    and delete the record, and the second load it just after it was anchored:
    then it updates a record that is gone. -/

section twoChecks

private def streamID0 : String :=
  "kjzl6cwe1jw149mj7gw90a40vf9qoipv1gthagyzxzjrg8pp9htbdbvu2er1wan"

private def env : Config := Config.ofEnv none none

private def req0 : StreamReq := ⟨some 0, some env.databaseTTL, some false⟩

private def stored0 : Table String := storeStreamReq env 0 streamID0 ∅

private abbrev byName : LinearOrder String := inferInstance

private def anchors (p : AnchorCheck String) : Process String := .anchors p

private def scan0 : ScanLoop String where
  args := { filterExpression := anchoredIs false, limit := none, exclusiveStartKey := none }
  results := []
  lastEvaluatedKey := none

private def page0 : ScanCommandOutput String := ⟨some [(streamID0, req0)], none⟩

private def ended : Process String := .store .passed

/-- The shared table with the first check in slot 0 and the second in slot 1. -/
private def both (T : Table String) (p q : Process String) :
    Client.Shared (Process String) (Table String) where
  db := T
  procs := Function.update (Function.update (fun _ => ended) 0 p) 1 q

private theorem both_eq (T : Table String) (p q : Process String) :
    both T p q = Client.Shared.pair T ended p q := rfl

private theorem lookup_stored0 (k : String) :
    stored0.lookup k = if k = streamID0 then some req0 else none := by
  unfold stored0
  rw [lookup_storeStreamReq, Finmap.lookup_empty]
  rfl

private theorem page0_reply : ScanReply byName stored0 scan0.args page0 :=
  scanReply_single byName lookup_stored0 rfl rfl

private theorem step_first {T T' : Table String} {p q : Process String}
    {request : Request String} {reply : Reply String}
    (hreq : p.request = some request) (hserve : Serves env byName T request reply T') :
    (sharedTable env byName []).step (both T p q) (.serve 0 request reply)
      (both T' (p.resume env [] reply) q) := by
  rw [both_eq, both_eq]
  exact Client.serve_first hreq hserve

private theorem step_second {T T' : Table String} {p q : Process String}
    {request : Request String} {reply : Reply String}
    (hreq : q.request = some request) (hserve : Serves env byName T request reply T') :
    (sharedTable env byName []).step (both T p q) (.serve 1 request reply)
      (both T' p (q.resume env [] reply)) := by
  rw [both_eq, both_eq]
  exact Client.serve_second hreq hserve

private def pending : Doc String := ⟨streamID0, .PENDING⟩

private def anchored : Doc String := ⟨streamID0, .ANCHORED⟩

/-- Both checks have fetched the record. -/
private theorem both_fetched : ∃ tr,
    (sharedTable env byName []).Run (both stored0 ended ended) tr
      (both stored0 (anchors (.loading (streamID0, req0) []))
        (anchors (.loading (streamID0, req0) []))) ∧ ∀ f ∈ tr, FindsItsRecord f := by
  have hstart0 : (sharedTable env byName []).step (both stored0 ended ended)
      (.start 0 (anchors .start)) (both stored0 (anchors .start) ended) :=
    Client.start_first rfl (Or.inl rfl)
  have hstart1 : (sharedTable env byName []).step (both stored0 (anchors .start) ended)
      (.start 1 (anchors .start)) (both stored0 (anchors .start) (anchors .start)) :=
    Client.start_second rfl (Or.inl rfl)
  have hscan : Serves env byName stored0 (.scan scan0.args) (.scanned page0) stored0 :=
    ⟨rfl, Or.inl ⟨page0, rfl, page0_reply⟩⟩
  have hrun := (((System.Run.nil.snoc hstart0).snoc hstart1).snoc (step_first rfl hscan)).snoc
    (step_second rfl hscan)
  refine ⟨_, hrun, ?_⟩
  intro f hf
  simp only [List.nil_append, List.cons_append, List.mem_cons, List.not_mem_nil, or_false] at hf
  -- no step so far is an update
  rcases hf with rfl | rfl | rfl | rfl <;> intro i s reply hl _ <;> cases hl

private theorem both_init : (sharedTable env byName []).init (both stored0 ended ended) := by
  refine ⟨?_, ?_⟩
  · intro i
    rw [both_eq, Client.Shared.pair_free]
    rfl
  · rw [tableInvariant_iff]
    exact storeStreamReq_complete env 0 streamID0 (fun k r hr => by simp at hr)

private theorem load_anchored {T : Table String} : Serves env byName T (.loadStream streamID0)
    (.loaded anchored env.anchorInterval) T :=
  ⟨rfl, Or.inl ⟨_, _, rfl⟩⟩

/-- Both checks mark the record, and every table on the way is in order. -/
theorem two_checks_mark : ∃ tr s,
    (sharedTable env byName []).Run (both stored0 ended ended) tr s ∧
    (∀ i ∈ [0, 1], ∃ f ∈ tr, f.label = .serve i (.write (.updateItem streamID0)) .done) ∧
    ∀ f ∈ tr, TableInvariant env f.after.db := by
  obtain ⟨tr, hrun, hfinds⟩ := both_fetched
  let once : Table String := markStreamReqAsAnchored streamID0 stored0
  have hmark0 : Serves env byName stored0 (.write (.updateItem streamID0)) .done once :=
    Or.inl ⟨rfl, Or.inl rfl⟩
  have hmark1 : Serves env byName once (.write (.updateItem streamID0)) .done
      (markStreamReqAsAnchored streamID0 once) := Or.inl ⟨rfl, Or.inl rfl⟩
  have hrun := (((hrun.snoc (step_first rfl load_anchored)).snoc
    (step_second rfl load_anchored)).snoc (step_first rfl hmark0)).snoc (step_second rfl hmark1)
  have hthere : (stored0.lookup streamID0).isSome = true := by
    rw [lookup_stored0, if_pos rfl]
    rfl
  -- a record that is marked is still there
  have honce : (once.lookup streamID0).isSome = true := by
    rw [lookup_markStreamReqAsAnchored, if_pos rfl]
    rfl
  refine ⟨_, _, hrun, ?_, (table_invariant_iff_updates_find both_init hrun).mpr ?_⟩
  · intro i hi
    rcases List.mem_cons.mp hi with rfl | hi
    · exact ⟨_, List.mem_append_left _ (List.mem_append_right _ (List.mem_singleton_self _)), rfl⟩
    · rw [List.mem_singleton.mp hi]
      exact ⟨_, List.mem_append_right _ (List.mem_singleton_self _), rfl⟩
  · intro f hf
    simp only [List.append_assoc, List.cons_append, List.nil_append, List.mem_append, List.mem_cons,
      List.not_mem_nil, or_false] at hf
    rcases hf with hf | rfl | rfl | rfl | rfl
    · exact hfinds f hf
    · intro i s reply hl _
      cases hl
    · intro i s reply hl _
      cases hl
    -- the two updates
    · intro i s reply hl _
      cases hl
      exact hthere
    · intro i s reply hl _
      cases hl
      exact honce

/-- The update of the second check makes a record out of nothing: it carries
    neither `Creation` nor `Expiration`. -/
theorem update_after_delete : ∃ s₀ tr s,
    (sharedTable env byName []).init s₀ ∧ (sharedTable env byName []).Run s₀ tr s ∧
    s.db.lookup streamID0 = some ⟨none, none, some true⟩ ∧ ¬ TableInvariant env s.db := by
  obtain ⟨tr, hrun, _⟩ := both_fetched
  let gone : Table String := deleteStreamReq streamID0 stored0
  have hload : Serves env byName stored0 (.loadStream streamID0)
      (.loaded pending env.anchorInterval) stored0 := ⟨rfl, Or.inl ⟨_, _, rfl⟩⟩
  have hdelete : Serves env byName stored0 (.write (.deleteItem streamID0)) .done gone :=
    Or.inl ⟨rfl, Or.inl rfl⟩
  have hupdate : Serves env byName gone (.write (.updateItem streamID0)) .done
      (markStreamReqAsAnchored streamID0 gone) := Or.inl ⟨rfl, Or.inl rfl⟩
  have hnone : gone.lookup streamID0 = none := by
    rw [lookup_deleteStreamReq, if_pos rfl]
  have hrun := (((hrun.snoc (step_first rfl hload)).snoc (step_second rfl load_anchored)).snoc
    (step_first rfl hdelete)).snoc (step_second rfl hupdate)
  refine ⟨_, _, _, both_init, hrun, lookup_mark_of_none hnone, ?_⟩
  rw [tableInvariant_iff]
  exact not_complete_of_missing hnone

end twoChecks

end Suite
