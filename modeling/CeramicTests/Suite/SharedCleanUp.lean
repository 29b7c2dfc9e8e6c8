import CeramicTests.Suite.CleanUp
import CeramicTests.Suite.SharedTable

/-! # The clean-up while many processes run

    `CleanUp` runs the processes one after another. The table is shared by
    all runs of the suite, so that they also run at the same time: two
    garbage collections may unpin one stream, and an anchor check may mark
    a request that another has just deleted.

    A stream that is stored while no process is about to unpin it or to
    delete its record stays accounted for all the same. Its record stays
    complete, that is, within reach of the garbage collection, until one of
    the processes had a reason to delete it.
-/

namespace Suite

open Transition Framework

variable {K : Type}

/-! ## Section 1: What happens in a run -/

abbrev SharedStep (K : Type) :=
  Fired (Client.Shared (Process K) (Table K)) (Client.Event (Process K) (Request K) (Reply K))

/-- The processes of the suite over one table, all at the same time. -/
def sharedCleanUp [DecidableEq K] (cfg : Config) (ord : LinearOrder K)
    (ceramicConnections : List String) :
    System (Client.Shared (Process K) (Table K))
      (Client.Event (Process K) (Request K) (Reply K)) :=
  (Process.client cfg ceramicConnections).system
    (fun T request reply T' => Serves cfg ord T request reply T' ∧ LoadsRequested request reply)
    (Process.Starts cfg ceramicConnections) (fun s => ∀ i, (s.procs i).request = none)

/-- The step stores the stream. -/
def StoresNow (f : SharedStep K) (k : K) : Prop :=
  ∃ i now reply, f.label = .serve i (.write (.putItem k now)) reply ∧ reply.performed = true

/-- On each of the nodes the stream has been unpinned. -/
def UnpinnedOn (urls : List String) (tr : List (SharedStep K)) (k : K) : Prop :=
  ∀ url ∈ urls, ∃ f ∈ tr, ∃ i reply, f.label = .serve i (.pinRm url k) reply ∧
    reply.result = .ok ()

/-- The process `i` loads the stream of a request, and finds that it was not
    anchored in time. -/
def LoadsFailed (cfg : Config) (i : Nat) (f : SharedStep K) (k : K) : Prop :=
  ∃ r rest doc now creation, f.before.procs i = .anchors (.loading (k, r) rest) ∧
    f.label = .serve i (.loadStream k) (.loaded doc now) ∧ doc.anchorStatus ≠ .ANCHORED ∧
    r.creation = some creation ∧ cfg.anchorInterval ≤ AnchorCheck.delta now creation

def DeletesNow (i : Nat) (f : SharedStep K) (k : K) : Prop :=
  ∃ reply, f.label = .serve i (.write (.deleteItem k)) reply ∧ reply.performed = true

/-- A call of `markStreamReqAsAnchored` throws. -/
def MarkThrows (f : SharedStep K) (k : K) : Prop :=
  ∃ i reply err, f.label = .serve i (.write (.updateItem k)) reply ∧ reply.result = .error err

/-- The process `i` does nothing. -/
def Idle (i : Nat) (tr : List (SharedStep K)) : Prop := ∀ f ∈ tr, f.label.slot ≠ i

/-- The last thing that the process `i` did was to find that the stream was
    not anchored in time. -/
def JustFailed (cfg : Config) (i : Nat) (tr : List (SharedStep K)) (k : K) : Prop :=
  ∃ earlier f later, tr = earlier ++ f :: later ∧ LoadsFailed cfg i f k ∧ Idle i later

/-- A process deleted the request because it had found its anchoring failed. -/
def GivenUp (cfg : Config) (tr : List (SharedStep K)) (k : K) : Prop :=
  ∃ i earlier g later, tr = earlier ++ g :: later ∧ JustFailed cfg i earlier k ∧ DeletesNow i g k

/-- The stream has a complete record, or was unpinned everywhere, or an
    anchor check has given it up. Nothing is said about a stream for which a
    call of `markStreamReqAsAnchored` threw. -/
def KeptAccount [DecidableEq K] (cfg : Config) (ceramicConnections : List String)
    (tr : List (SharedStep K)) (T : Table K) (k : K) : Prop :=
  (∃ r, T.lookup k = some r ∧ r.Complete) ∨ UnpinnedOn ceramicConnections tr k ∨
    GivenUp cfg tr k ∨ ∃ f ∈ tr, MarkThrows f k

section history

variable {cfg : Config} {urls : List String} {tr : List (SharedStep K)} {k : K} {i : Nat}

theorem UnpinnedOn.snoc (h : UnpinnedOn urls tr k) (f : SharedStep K) :
    UnpinnedOn urls (tr ++ [f]) k := by
  intro url hurl
  obtain ⟨g, hg, hunpins⟩ := h url hurl
  exact ⟨g, List.mem_append_left _ hg, hunpins⟩

theorem JustFailed.snoc (h : JustFailed cfg i tr k) {f : SharedStep K} (hf : f.label.slot ≠ i) :
    JustFailed cfg i (tr ++ [f]) k := by
  obtain ⟨earlier, g, later, rfl, hfailed, hidle⟩ := h
  refine ⟨earlier, g, later ++ [f], by simp, hfailed, ?_⟩
  intro f' hf'
  rcases List.mem_append.mp hf' with hf' | hf'
  · exact hidle f' hf'
  · rw [List.mem_singleton.mp hf']
    exact hf

theorem GivenUp.snoc (h : GivenUp cfg tr k) (f : SharedStep K) : GivenUp cfg (tr ++ [f]) k := by
  obtain ⟨i, earlier, g, later, rfl, hfailed, hdeletes⟩ := h
  exact ⟨i, earlier, g, later ++ [f], by simp, hfailed, hdeletes⟩

end history

/-! ## Section 2: What each process knows -/

/-- Nobody is about to unpin the stream or to delete its record. -/
def Untouched (k : K) : Process K → Prop
  | .garbage (.unpinning s _ _ _) => s ≠ k
  | .garbage (.deleting s _) => s ≠ k
  | .anchors (.deleting s _) => s ≠ k
  | _ => True

/-- What has happened when the process `i` is about to unpin the stream, or to
    delete its record. -/
def Warranted (cfg : Config) (ceramicConnections : List String) (i : Nat)
    (tr : List (SharedStep K)) (k : K) : Process K → Prop
  | .garbage (.unpinning s url urls _) => s = k →
      ∃ unpinned, ceramicConnections = unpinned ++ url :: urls ∧ UnpinnedOn unpinned tr k
  | .garbage (.deleting s _) => s = k → UnpinnedOn ceramicConnections tr k
  | .anchors (.deleting s _) => s = k → JustFailed cfg i tr k ∨ ∃ f ∈ tr, MarkThrows f k
  | _ => True

variable {cfg : Config} {ceramicConnections : List String} {tr : List (SharedStep K)} {k : K}
  {i : Nat}

theorem Untouched.warranted {p : Process K} (h : Untouched k p) :
    Warranted cfg ceramicConnections i tr k p := by
  cases p with
  | store p => trivial
  | garbage p =>
    cases p with
    | unpinning s url urls rest => exact fun hs => absurd hs h
    | deleting s rest => exact fun hs => absurd hs h
    | _ => trivial
  | anchors p =>
    cases p with
    | deleting s err => exact fun hs => absurd hs h
    | _ => trivial

/-- What the other processes do takes nothing away. -/
theorem Warranted.snoc {p : Process K} (h : Warranted cfg ceramicConnections i tr k p)
    {f : SharedStep K} (hf : f.label.slot ≠ i) :
    Warranted cfg ceramicConnections i (tr ++ [f]) k p := by
  cases p with
  | store p => trivial
  | garbage p =>
    cases p with
    | unpinning s url urls rest =>
      intro hs
      obtain ⟨unpinned, hsplit, hunpinned⟩ := h hs
      exact ⟨unpinned, hsplit, hunpinned.snoc f⟩
    | deleting s rest => exact fun hs => (h hs).snoc f
    | _ => trivial
  | anchors p =>
    cases p with
    | deleting s err =>
      intro hs
      rcases h hs with hfailed | ⟨g, hg, hthrows⟩
      · exact Or.inl (hfailed.snoc hf)
      · exact Or.inr ⟨g, List.mem_append_left _ hg, hthrows⟩
    | _ => trivial

theorem warranted_unpin {s : K} {rest : List (Item K)} {urls : List String}
    (h : s = k → ∃ unpinned, ceramicConnections = unpinned ++ urls ∧ UnpinnedOn unpinned tr k) :
    Warranted cfg ceramicConnections i tr k (.garbage (.unpin s rest urls)) := by
  cases urls with
  | nil =>
    intro hs
    obtain ⟨unpinned, hsplit, hunpinned⟩ := h hs
    rw [hsplit, List.append_nil]
    exact hunpinned
  | cons url urls => exact h

theorem warranted_next (rest : List (Item K)) :
    Warranted cfg ceramicConnections i tr k (.garbage (.next ceramicConnections rest)) := by
  cases rest with
  | nil => trivial
  | cons req rest =>
    refine warranted_unpin fun _ => ⟨[], rfl, ?_⟩
    intro url hurl
    cases hurl

theorem warranted_ofScan (status : ScanStatus K) :
    Warranted cfg ceramicConnections i tr k (.garbage (.ofScan ceramicConnections status)) := by
  cases status with
  | scanning loop => trivial
  | returned expiredReqs => exact warranted_next expiredReqs
  | thrown err => trivial

theorem warranted_anchors_next (rest : List (Item K)) :
    Warranted cfg ceramicConnections i tr k (.anchors (.next rest)) := by
  cases rest <;> trivial

theorem warranted_anchors_ofScan (status : ScanStatus K) :
    Warranted cfg ceramicConnections i tr k (.anchors (.ofScan status)) := by
  cases status with
  | scanning loop => trivial
  | returned anchorReqs => exact warranted_anchors_next anchorReqs
  | thrown err => trivial

theorem warranted_start {p : Process K} (h : Process.Starts cfg ceramicConnections p) :
    Warranted cfg ceramicConnections i tr k p := by
  rcases h with rfl | ⟨now, rfl⟩ | ⟨s, now, rfl⟩
  · exact warranted_anchors_ofScan _
  · exact warranted_ofScan _
  · trivial

/-! ### One step of the process itself -/

section own

variable {s s' : Client.Shared (Process K) (Table K)} {request : Request K} {reply : Reply K}

theorem warranted_garbage {p : GarbageCollect K} (hreq : p.request = some request)
    (h : Warranted cfg ceramicConnections i tr k (.garbage p)) :
    Warranted cfg ceramicConnections i (tr ++ [⟨s, .serve i request reply, s'⟩]) k
      (.garbage (p.resume ceramicConnections reply)) := by
  cases p with
  | fetching loop => exact warranted_ofScan _
  | unpinning streamId url urls rest =>
    cases hreq
    cases hres : reply.result with
    | ok _ =>
      rw [GarbageCollect.resume_unpinning_ok hres]
      refine warranted_unpin fun hs => ?_
      obtain ⟨unpinned, hsplit, hunpinned⟩ := h hs
      -- one more node has unpinned the stream
      refine ⟨unpinned ++ [url], by rw [hsplit]; simp, ?_⟩
      intro u hu
      rcases List.mem_append.mp hu with hu | hu
      · exact hunpinned.snoc _ u hu
      · rw [List.mem_singleton.mp hu, ← hs]
        exact ⟨_, List.mem_append_right _ (List.mem_singleton_self _), i, reply, rfl, hres⟩
    | error err =>
      rw [GarbageCollect.resume_unpinning_error hres]
      trivial
  | deleting streamId rest =>
    cases hres : reply.result with
    | ok _ =>
      rw [GarbageCollect.resume_deleting_ok hres]
      exact warranted_next rest
    | error err =>
      rw [GarbageCollect.resume_deleting_error hres]
      trivial
  | passed => trivial
  | failed err => trivial

/-- The loop body of the anchor check, after the load of `doc`. -/
theorem warranted_checkReq {req : Item K} {rest : List (Item K)} {doc : Doc K} {now : Int}
    (hproc : s.procs i = .anchors (.loading req rest)) (hid : doc.id = req.1) :
    Warranted cfg ceramicConnections i
      (tr ++ [⟨s, .serve i (.loadStream req.1) (.loaded doc now), s'⟩]) k
      (.anchors (.checkReq cfg req rest doc now)) := by
  rcases AnchorCheck.checkReq_cases cfg req rest doc now with
    ⟨_, err, hnext⟩ | ⟨creation, hcreation, ⟨_, hnext⟩ | ⟨hst, hlate, err, hnext⟩ | ⟨_, _, hnext⟩⟩
  · rw [hnext]
    trivial
  · rw [hnext]
    trivial
  · -- the check found that the anchoring failed
    rw [hnext]
    intro hk
    rw [hid] at hk
    subst hk
    have hloads : LoadsFailed cfg i ⟨s, .serve i (.loadStream req.1) (.loaded doc now), s'⟩ req.1 :=
      ⟨req.2, rest, doc, now, creation, hproc, rfl, hst, hcreation, hlate⟩
    exact Or.inl ⟨tr, _, [], rfl, hloads, by simp [Idle]⟩
  · rw [hnext]
    exact warranted_anchors_next rest

variable [DecidableEq K] {ord : LinearOrder K}

theorem warranted_anchors {T T' : Table K} {p : AnchorCheck K}
    (hproc : s.procs i = .anchors p) (hreq : p.request = some request)
    (hserve : Serves cfg ord T request reply T') (hloads : LoadsRequested request reply) :
    Warranted cfg ceramicConnections i (tr ++ [⟨s, .serve i request reply, s'⟩]) k
      (.anchors (p.resume cfg reply)) := by
  cases p with
  | fetching loop => exact warranted_anchors_ofScan _
  | loading req rest =>
    cases hreq
    obtain ⟨_, ⟨doc, now, rfl⟩ | ⟨err, rfl⟩⟩ := hserve
    · exact warranted_checkReq hproc (hloads req.1 doc now rfl rfl)
    · trivial
  | marking id rest =>
    cases hreq
    cases hres : reply.result with
    | ok _ =>
      rw [AnchorCheck.resume_marking_ok hres]
      exact warranted_anchors_next rest
    | error err =>
      rw [AnchorCheck.resume_marking_error hres]
      intro hk
      subst hk
      exact Or.inr ⟨_, List.mem_append_right _ (List.mem_singleton_self _), i, reply, err, rfl,
        hres⟩
  | deleting id err =>
    obtain ⟨err', hfailed⟩ := AnchorCheck.resume_deleting cfg id err reply
    rw [hfailed]
    trivial
  | passed => trivial
  | failed err => trivial

/-- Every step keeps what is known of every process. -/
theorem warranted_step {l : Client.Event (Process K) (Request K) (Reply K)}
    (hstep : (sharedCleanUp cfg ord ceramicConnections).step s l s')
    (h : ∀ i, Warranted cfg ceramicConnections i tr k (s.procs i)) (i : Nat) :
    Warranted cfg ceramicConnections i (tr ++ [⟨s, l, s'⟩]) k (s'.procs i) := by
  by_cases hi : i = l.slot
  · subst hi
    cases l with
    | start i p =>
      obtain ⟨_, hstarts, rfl⟩ := hstep
      show Warranted _ _ i _ k (Function.update s.procs i p i)
      rw [Function.update_self]
      exact warranted_start hstarts
    | serve i request reply =>
      obtain ⟨hreq, ⟨hserve, hloads⟩, hprocs⟩ := hstep
      show Warranted _ _ i _ k (s'.procs i)
      rw [hprocs, Function.update_self]
      have hreq : (s.procs i).request = some request := hreq
      have hwarrant := h i
      show Warranted _ _ i _ k ((s.procs i).resume cfg ceramicConnections reply)
      cases hp : s.procs i with
      | anchors p =>
        rw [hp] at hreq
        exact warranted_anchors hp hreq hserve hloads
      | garbage p =>
        rw [hp] at hreq hwarrant
        exact warranted_garbage hreq hwarrant
      | store p => trivial
  · rw [Client.procs_of_ne_slot hstep hi]
    exact (h i).snoc fun heq => hi heq.symm

end own

/-! ## Section 3: One step -/

section account

variable [DecidableEq K] {ord : LinearOrder K} {s s' : Client.Shared (Process K) (Table K)}
  {l : Client.Event (Process K) (Request K) (Reply K)}

/-- A complete record stays complete until it is deleted. -/
theorem complete_apply {w : Write K} {T : Table K} {r : StreamReq} (hw : w ≠ .deleteItem k)
    (hr : T.lookup k = some r) (hcomplete : r.Complete) :
    ∃ r', (w.apply cfg T).lookup k = some r' ∧ r'.Complete := by
  cases w with
  | putItem streamId now =>
    show ∃ r', (storeStreamReq cfg now streamId T).lookup k = some r' ∧ r'.Complete
    rw [lookup_storeStreamReq]
    by_cases hk : k = streamId
    · rw [if_pos hk]
      exact ⟨_, rfl, rfl, rfl, rfl⟩
    · rw [if_neg hk]
      exact ⟨r, hr, hcomplete⟩
  | updateItem streamId =>
    show ∃ r', (markStreamReqAsAnchored streamId T).lookup k = some r' ∧ r'.Complete
    rw [lookup_markStreamReqAsAnchored]
    by_cases hk : k = streamId
    · subst hk
      rw [if_pos rfl, itemOrNew_of_lookup hr]
      exact ⟨_, rfl, hcomplete.1, hcomplete.2.1, rfl⟩
    · rw [if_neg hk]
      exact ⟨r, hr, hcomplete⟩
  | deleteItem streamId =>
    show ∃ r', (deleteStreamReq streamId T).lookup k = some r' ∧ r'.Complete
    have hk : k ≠ streamId := fun heq => hw (by rw [heq])
    rw [lookup_deleteStreamReq, if_neg hk]
    exact ⟨r, hr, hcomplete⟩

/-- A complete record stays complete, or a process deletes it. -/
theorem complete_or_deleted (hstep : (sharedCleanUp cfg ord ceramicConnections).step s l s')
    {r : StreamReq} (hr : s.db.lookup k = some r) (hcomplete : r.Complete) :
    (∃ r', s'.db.lookup k = some r' ∧ r'.Complete) ∨ ∃ i, DeletesNow i ⟨s, l, s'⟩ k := by
  cases l with
  | start i p =>
    obtain ⟨_, _, rfl⟩ := hstep
    exact Or.inl ⟨r, hr, hcomplete⟩
  | serve i request reply =>
    obtain ⟨_, ⟨hserve, _⟩, _⟩ := hstep
    rcases hserve.table with ⟨hdb, _⟩ | ⟨w, rfl, hperf, hdb⟩
    · rw [hdb]
      exact Or.inl ⟨r, hr, hcomplete⟩
    · by_cases hw : w = .deleteItem k
      · rw [hw]
        exact Or.inr ⟨i, reply, rfl, hperf⟩
      · rw [hdb]
        exact Or.inl (complete_apply hw hr hcomplete)

/-- A process that deletes the record has a reason. -/
theorem reason_of_deletion (hstep : (sharedCleanUp cfg ord ceramicConnections).step s l s')
    (hwarrant : Warranted cfg ceramicConnections i tr k (s.procs i))
    (h : DeletesNow i ⟨s, l, s'⟩ k) :
    UnpinnedOn ceramicConnections tr k ∨ JustFailed cfg i tr k ∨ ∃ f ∈ tr, MarkThrows f k := by
  obtain ⟨reply, hl, _⟩ := h
  have hl : l = .serve i (.write (.deleteItem k)) reply := hl
  subst hl
  obtain ⟨hreq, _, _⟩ := hstep
  have hreq : (s.procs i).request = some (.write (.deleteItem k)) := hreq
  cases hp : s.procs i with
  | anchors p =>
    rw [hp] at hreq hwarrant
    cases p <;> cases hreq
    exact Or.inr (hwarrant rfl)
  | garbage p =>
    rw [hp] at hreq hwarrant
    cases p <;> cases hreq
    exact Or.inl (hwarrant rfl)
  | store p =>
    rw [hp] at hreq
    cases p <;> cases hreq

theorem keptAccount_step (hstep : (sharedCleanUp cfg ord ceramicConnections).step s l s')
    (hwarrant : ∀ i, Warranted cfg ceramicConnections i tr k (s.procs i))
    (h : KeptAccount cfg ceramicConnections tr s.db k) :
    KeptAccount cfg ceramicConnections (tr ++ [⟨s, l, s'⟩]) s'.db k := by
  rcases h with ⟨r, hr, hcomplete⟩ | hunpinned | hgiven | ⟨f, hf, hthrows⟩
  · rcases complete_or_deleted hstep hr hcomplete with hstill | ⟨i, hdeletes⟩
    · exact Or.inl hstill
    · right
      rcases reason_of_deletion hstep (hwarrant i) hdeletes with
        hunpinned | hfailed | ⟨f, hf, hthrows⟩
      · exact Or.inl (hunpinned.snoc _)
      · exact Or.inr (Or.inl ⟨i, tr, _, [], rfl, hfailed, hdeletes⟩)
      · exact Or.inr (Or.inr ⟨f, List.mem_append_left _ hf, hthrows⟩)
  · exact Or.inr (Or.inl (hunpinned.snoc _))
  · exact Or.inr (Or.inr (Or.inl (hgiven.snoc _)))
  · exact Or.inr (Or.inr (Or.inr ⟨f, List.mem_append_left _ hf, hthrows⟩))

/-! ## Section 4: Runs -/

theorem run_keptAccount {s₁ : Client.Shared (Process K) (Table K)}
    (hrun : (sharedCleanUp cfg ord ceramicConnections).Run s₁ tr s)
    (huntouched : ∀ i, Untouched k (s₁.procs i))
    (hrecord : ∃ r, s₁.db.lookup k = some r ∧ r.Complete) :
    (∀ i, Warranted cfg ceramicConnections i tr k (s.procs i)) ∧
      KeptAccount cfg ceramicConnections tr s.db k := by
  induction hrun with
  | nil => exact ⟨fun i => (huntouched i).warranted, Or.inl hrecord⟩
  | snoc _ hstep ih =>
    obtain ⟨hwarrant, hkept⟩ := ih
    exact ⟨warranted_step hstep hwarrant, keptAccount_step hstep hwarrant hkept⟩

/-- The step that stores a stream leaves it with a complete record, and the
    other processes where they were. -/
theorem record_of_store (hstep : (sharedCleanUp cfg ord ceramicConnections).step s l s')
    (hstores : StoresNow ⟨s, l, s'⟩ k) (huntouched : ∀ i, Untouched k (s.procs i)) :
    (∃ r, s'.db.lookup k = some r ∧ r.Complete) ∧ ∀ i, Untouched k (s'.procs i) := by
  obtain ⟨i, now, reply, hl, hperf⟩ := hstores
  have hl : l = .serve i (.write (.putItem k now)) reply := hl
  subst hl
  have hother : ∀ j, j ≠ i → s'.procs j = s.procs j := fun j hj =>
    Client.procs_of_ne_slot hstep hj
  obtain ⟨hreq, ⟨hserve, _⟩, hprocs⟩ := hstep
  have hreq : (s.procs i).request = some (.write (.putItem k now)) := hreq
  constructor
  · rcases hserve.table with ⟨_, hno⟩ | ⟨w, hw, _, hdb⟩
    · rw [hno _ rfl] at hperf
      cases hperf
    · cases hw
      rw [hdb]
      show ∃ r, (storeStreamReq cfg now k s.db).lookup k = some r ∧ r.Complete
      rw [lookup_storeStreamReq, if_pos rfl]
      exact ⟨_, rfl, rfl, rfl, rfl⟩
  · intro j
    by_cases hj : j = i
    · subst hj
      rw [hprocs, Function.update_self]
      show Untouched k ((s.procs j).resume cfg ceramicConnections reply)
      cases hp : s.procs j with
      | store p => trivial
      | anchors p =>
        rw [hp] at hreq
        cases p <;> cases hreq
      | garbage p =>
        rw [hp] at hreq
        cases p <;> cases hreq
    · rw [hother j hj]
      exact huntouched j

/-- **The clean-up loses no stream, whatever runs at the same time.** A
    stream that is stored while nobody is about to unpin it or to delete its
    record is accounted for in every later state. It has a complete record;
    or it was unpinned on every node since; or one anchor check loaded it
    too late and not anchored, and deleted its record next; or a call that
    marks it as anchored threw. -/
theorem shared_streams_accounted (cfg : Config) (ord : LinearOrder K)
    (ceramicConnections : List String) {s₀ s : Client.Shared (Process K) (Table K)}
    {earlier later : List (SharedStep K)} {f : SharedStep K} {k : K}
    (hrun : (sharedCleanUp cfg ord ceramicConnections).Run s₀ (earlier ++ f :: later) s)
    (hstores : StoresNow f k) (huntouched : ∀ i, Untouched k (f.before.procs i)) :
    KeptAccount cfg ceramicConnections later s.db k := by
  obtain ⟨_, hstep, hlater⟩ := hrun.split
  obtain ⟨hrecord, hfresh⟩ := record_of_store hstep hstores huntouched
  exact (run_keptAccount hlater hfresh hrecord).2

end account

/-! ### Two garbage collections at once

    Stream 1 is stored at time 0. Much later two garbage collections fetch
    its record. Both unpin it on the one node, and the first deletes the
    record. -/

section twoCollections

private def ttl : Config := Config.ofEnv none none

private def waitingReq : StreamReq := ⟨some 0, some ttl.databaseTTL, some false⟩

private def storedTable : Table Nat := storeStreamReq ttl 0 1 ∅

private abbrev together : System (Client.Shared (Process Nat) (Table Nat))
    (Client.Event (Process Nat) (Request Nat) (Reply Nat)) :=
  sharedCleanUp ttl Nat.instLinearOrder ["node"]

private def rests : Process Nat := .store .passed

private abbrev slots (T : Table Nat) (p q : Process Nat) :
    Client.Shared (Process Nat) (Table Nat) := .pair T rests p q

private def fetching : Process Nat := .garbage (.start ttl ["node"] (minutes 20000))

private def unpins : Process Nat := .garbage (.unpinning 1 "node" [] [])

private def deletes : Process Nat := .garbage (.deleting 1 [])

private theorem lookup_storedTable (k : Nat) :
    storedTable.lookup k = if k = 1 then some waitingReq else none := by
  unfold storedTable
  rw [lookup_storeStreamReq, Finmap.lookup_empty]
  rfl

private theorem serve_in_first {T T' : Table Nat} {p q : Process Nat} {request : Request Nat}
    {reply : Reply Nat} (hp : p.request = some request)
    (hserve : Serves ttl Nat.instLinearOrder T request reply T')
    (hloads : LoadsRequested request reply) :
    together.step (slots T p q) (.serve 0 request reply)
      (slots T' (p.resume ttl ["node"] reply) q) :=
  Client.serve_first (c := Process.client ttl ["node"]) hp ⟨hserve, hloads⟩

private theorem serve_in_second {T T' : Table Nat} {p q : Process Nat} {request : Request Nat}
    {reply : Reply Nat} (hq : q.request = some request)
    (hserve : Serves ttl Nat.instLinearOrder T request reply T')
    (hloads : LoadsRequested request reply) :
    together.step (slots T p q) (.serve 1 request reply)
      (slots T' p (q.resume ttl ["node"] reply)) :=
  Client.serve_second (c := Process.client ttl ["node"]) hq ⟨hserve, hloads⟩

private def stored1 : SharedStep Nat where
  before := slots ∅ (.store (.storing 1 0)) rests
  label := .serve 0 (.write (.putItem 1 0)) .done
  after := slots storedTable rests rests

private theorem stored1_untouched (i : Nat) : Untouched 1 (stored1.before.procs i) := by
  show Untouched 1 (Function.update (Function.update (fun _ => rests) 0 _) 1 rests i)
  by_cases hi : i = 1
  · rw [hi, Function.update_self]
    trivial
  · rw [Function.update_of_ne hi]
    by_cases hi' : i = 0
    · rw [hi', Function.update_self]
      trivial
    · rw [Function.update_of_ne hi']
      trivial

/-- The record is gone, and the stream is accounted for. -/
theorem two_collections_accounted : ∃ earlier f later s,
    together.Run (slots ∅ rests rests) (earlier ++ f :: later) s ∧ StoresNow f 1 ∧
    s.db.lookup 1 = none ∧ KeptAccount ttl ["node"] later s.db 1 := by
  have hbegin : together.step (slots ∅ rests rests) (.start 0 (.store (.storing 1 0)))
      (slots ∅ (.store (.storing 1 0)) rests) :=
    Client.start_first rfl (Or.inr (Or.inr ⟨1, 0, rfl⟩))
  have hstore : together.step stored1.before stored1.label stored1.after :=
    serve_in_first (p := .store (.storing 1 0)) rfl (Or.inl ⟨rfl, Or.inl rfl⟩)
      (fun s doc now h => by cases h)
  have hstart0 : together.step (slots storedTable rests rests) (.start 0 fetching)
      (slots storedTable fetching rests) :=
    Client.start_first rfl (Or.inr (Or.inl ⟨minutes 20000, rfl⟩))
  have hstart1 : together.step (slots storedTable fetching rests) (.start 1 fetching)
      (slots storedTable fetching fetching) :=
    Client.start_second rfl (Or.inr (Or.inl ⟨minutes 20000, rfl⟩))
  have hscan : Serves ttl Nat.instLinearOrder storedTable
      (.scan (scanArgs (createdBefore (minutes 20000 - ttl.streamTTL))))
      (.scanned ⟨some [(1, waitingReq)], none⟩) storedTable :=
    ⟨rfl, Or.inl ⟨_, rfl, scanReply_single _ lookup_storedTable rfl rfl⟩⟩
  have hremove : Serves ttl Nat.instLinearOrder storedTable (.pinRm "node" 1) .done storedTable :=
    ⟨rfl, Or.inl rfl⟩
  have hdelete : Serves ttl Nat.instLinearOrder storedTable (.write (.deleteItem 1)) .done
      (deleteStreamReq 1 storedTable) := Or.inl ⟨rfl, Or.inl rfl⟩
  have hscan0 : together.step (slots storedTable fetching fetching) _
      (slots storedTable unpins fetching) :=
    serve_in_first (p := fetching) rfl hscan (fun s doc now h => by cases h)
  have hscan1 : together.step (slots storedTable unpins fetching) _
      (slots storedTable unpins unpins) :=
    serve_in_second (q := fetching) rfl hscan (fun s doc now h => by cases h)
  have hremove0 : together.step (slots storedTable unpins unpins) _
      (slots storedTable deletes unpins) :=
    serve_in_first (p := unpins) rfl hremove (fun s doc now h => by cases h)
  have hremove1 : together.step (slots storedTable deletes unpins) _
      (slots storedTable deletes deletes) :=
    serve_in_second (q := unpins) rfl hremove (fun s doc now h => by cases h)
  have hdelete0 : together.step (slots storedTable deletes deletes) _
      (slots (deleteStreamReq 1 storedTable) (.garbage .passed) deletes) :=
    serve_in_first (p := deletes) rfl hdelete (fun s doc now h => by cases h)
  have hrun : together.Run _ ([_] ++ stored1 :: [_, _, _, _, _, _, _]) _ :=
    ((((((((System.Run.nil.snoc hbegin).snoc hstore).snoc hstart0).snoc hstart1).snoc
      hscan0).snoc hscan1).snoc hremove0).snoc hremove1).snoc hdelete0
  have hgone : (deleteStreamReq 1 storedTable).lookup 1 = none := by
    rw [lookup_deleteStreamReq, if_pos rfl]
  exact ⟨_, stored1, _, _, hrun, ⟨0, 0, .done, rfl, rfl⟩, hgone,
    shared_streams_accounted ttl Nat.instLinearOrder ["node"] hrun ⟨0, 0, .done, rfl, rfl⟩
      stored1_untouched⟩

end twoCollections

end Suite
