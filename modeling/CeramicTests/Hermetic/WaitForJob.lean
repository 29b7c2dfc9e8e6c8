import CeramicTests.Hermetic.Watch
import Mathlib.Algebra.Order.Ring.Rat
import Mathlib.Tactic.Linarith

/-! # The verdict of a test job

    `wait_for_job` watches one Job until a condition says how it ended.
    Kubernetes deletes the Job 600 s after it ended, and between two watches
    nobody looks at it. The verdict is not lost, because

    - a watch replays the Job as it is when it opens, and
    - the next watch opens before the Job can have been deleted.

    The first watch has no watch before it. A driver that opens it long
    after the Job has ended finds nothing.
-/

namespace Hermetic

/-! ## Section 1: Jobs -/

inductive JobResult where
  | Pass
  | Fail
  deriving DecidableEq, Repr

structure JobCondition where
  type_ : String
  status : String
  deriving DecidableEq, Repr

structure JobStatus where
  conditions : Option (List JobCondition)
  deriving DecidableEq, Repr

structure Job where
  status : Option JobStatus
  deriving DecidableEq, Repr

/-- The body of the loop over the conditions. -/
def conditionResult (condition : JobCondition) : Option JobResult :=
  if condition.type_ = "Failed" ∧ condition.status = "True" then some .Fail
  else if condition.type_ = "Complete" ∧ condition.status = "True" then some .Pass
  else none

def check_job_result (job : Job) : Option JobResult :=
  match job.status with
  | some status =>
    match status.conditions with
    | some conditions => conditions.findSome? conditionResult
    | none => none
  | none => none

/-- The pods of the Job and their logs, at one moment. -/
structure Pods where
  list : Except String (List String)
  logs : String → Except String String

/-- The logs of all pods, one after another. -/
def podLogs (pods : Pods) : Except String String :=
  match pods.list with
  | .error err => .error err
  | .ok names =>
    names.foldlM (fun logs name => (pods.logs name).map fun text => logs ++ text ++ "\n") ""

/-- The logs are read as soon as a Job has a result. -/
def jobVerdict (pods : Pods) (job : Job) : Except String (Option (JobResult × String)) :=
  match check_job_result job with
  | some result => (podLogs pods).map fun logs => some (result, logs)
  | none => .ok none

/-- The body of the loop over the events of a watch. -/
def jobEvent (pods : Pods) : WatchEvent Job → Except String (Option (JobResult × String))
  | .added job => jobVerdict pods job
  | .modified job => jobVerdict pods job
  | .deleted job => jobVerdict pods job
  | .bookmark => .ok none
  | .error err => .error err

/-- `watch` answers the requests for the Job, and `pods i` is what a look at
    its pods finds during the `i`-th watch. -/
def wait_for_job (watch : Watch Job) (pods : Nat → Pods) (timeout_seconds : UInt32) :
    Option (LoopRun (JobResult × String)) :=
  loop_with_max_timeout timeout_seconds MAX_KUBE_WATCH_TIMEOUT
    fun i timeout => window (jobEvent (pods i)) (watch i timeout)

/-! ## Section 2: The life of a Job -/

def HasCondition (job : Job) (type_ : String) : Prop :=
  ∃ status conditions, job.status = some status ∧ status.conditions = some conditions ∧
    ∃ condition ∈ conditions, condition.type_ = type_ ∧ condition.status = "True"

/-- The Job has ended with this result. -/
def Shows (job : Job) : JobResult → Prop
  | .Pass => HasCondition job "Complete"
  | .Fail => HasCondition job "Failed"

/-- `ttl_seconds_after_finished` of the Job that `correctness_test` builds. -/
def ttl_seconds_after_finished : Rat := 600

/-- The Job becomes terminal at `t`, with the result `r`. The changes in
    `later` follow. -/
def Finishes (history : List (Change Job)) (t : Rat) (r : JobResult)
    (later : List (Change Job)) : Prop :=
  ∃ earlier c job, history = earlier ++ c :: later ∧ c.time = t ∧ c.object = some job ∧
    Shows job r ∧ ∀ c' ∈ earlier, ∀ job' r', c'.object = some job' → ¬ Shows job' r'

/-- What Kubernetes promises about one Job. -/
structure JobLife (history : List (Change Job)) : Prop where
  sorted : history.Pairwise fun c c' => c.time ≤ c'.time
  exclusive : ∀ c ∈ history, ∀ job, c.object = some job → ¬ (Shows job .Pass ∧ Shows job .Fail)
  kept : history.Pairwise fun c c' => ∀ job job' r, c.object = some job → c'.object = some job' →
    Shows job r → Shows job' r
  ttl : ∀ t r later, Finishes history t r later →
    ∀ c ∈ later, c.object = none → t + ttl_seconds_after_finished ≤ c.time

/-- The watches follow one another, each soon after the one before. -/
structure Windows (windows : Nat → Window) : Prop where
  gap : ∀ i, (windows (i + 1)).opens < (windows i).closes + ttl_seconds_after_finished

/-- No watch fails, and each delivers the events of its window, among any
    bookmarks. -/
def Delivers (history : List (Change Job)) (windows : Nat → Window) (watch : Watch Job) : Prop :=
  ∀ i timeout, ∃ events : List (WatchEvent Job), watch i timeout = .ok (events.map .ok) ∧
    (events.filter fun ev => decide (ev ≠ .bookmark)) = windowEvents history (windows i)

/-! ## Section 3: What one event says -/

theorem conditionResult_eq_some {condition : JobCondition} {r : JobResult}
    (h : conditionResult condition = some r) :
    condition.type_ = (match r with | .Pass => "Complete" | .Fail => "Failed") ∧
      condition.status = "True" := by
  unfold conditionResult at h
  by_cases hf : condition.type_ = "Failed" ∧ condition.status = "True"
  · rw [if_pos hf] at h
    cases h
    exact hf
  · rw [if_neg hf] at h
    by_cases hc : condition.type_ = "Complete" ∧ condition.status = "True"
    · rw [if_pos hc] at h
      cases h
      exact hc
    · rw [if_neg hc] at h
      cases h

/-- The result that the driver reads off a Job is one that the Job shows. -/
theorem shows_of_check {job : Job} {r : JobResult} (h : check_job_result job = some r) :
    Shows job r := by
  unfold check_job_result at h
  cases hstatus : job.status with
  | none =>
    rw [hstatus] at h
    cases h
  | some status =>
    cases hconds : status.conditions with
    | none =>
      simp only [hstatus, hconds] at h
      cases h
    | some conditions =>
      simp only [hstatus, hconds] at h
      obtain ⟨condition, hmem, hres⟩ := List.exists_of_findSome?_eq_some h
      obtain ⟨htype, htrue⟩ := conditionResult_eq_some hres
      cases r with
      | Pass => exact ⟨status, conditions, hstatus, hconds, condition, hmem, htype, htrue⟩
      | Fail => exact ⟨status, conditions, hstatus, hconds, condition, hmem, htype, htrue⟩

/-- From a Job that has ended the driver reads off some result. -/
theorem check_of_shows {job : Job} {r : JobResult} (h : Shows job r) :
    check_job_result job ≠ none := by
  have hcond : ∃ status conditions, job.status = some status ∧
      status.conditions = some conditions ∧
      ∃ condition ∈ conditions, conditionResult condition ≠ none := by
    cases r with
    | Pass =>
      obtain ⟨status, conditions, hs, hc, condition, hmem, htype, htrue⟩ := h
      refine ⟨status, conditions, hs, hc, condition, hmem, ?_⟩
      unfold conditionResult
      rw [htype, htrue]
      decide
    | Fail =>
      obtain ⟨status, conditions, hs, hc, condition, hmem, htype, htrue⟩ := h
      refine ⟨status, conditions, hs, hc, condition, hmem, ?_⟩
      unfold conditionResult
      rw [htype, htrue]
      decide
  obtain ⟨status, conditions, hs, hc, condition, hmem, hne⟩ := hcond
  unfold check_job_result
  simp only [hs, hc]
  intro hnone
  exact hne (List.findSome?_eq_none_iff.mp hnone condition hmem)

/-- The body acts on the Job that an event carries, whatever the event. -/
theorem jobEvent_of_object {pods : Pods} {ev : WatchEvent Job} {job : Job}
    (h : ev.object = some job) : jobEvent pods ev = jobVerdict pods job := by
  cases ev <;> simp only [WatchEvent.object, Option.some.injEq, reduceCtorEq] at h <;>
    subst h <;> rfl

theorem verdict_eq_some {pods : Pods} {job : Job} {r : JobResult} {logs : String}
    (h : jobVerdict pods job = .ok (some (r, logs))) :
    check_job_result job = some r ∧ podLogs pods = .ok logs := by
  unfold jobVerdict at h
  cases hcheck : check_job_result job with
  | none =>
    rw [hcheck] at h
    cases h
  | some r' =>
    rw [hcheck] at h
    cases hlogs : podLogs pods with
    | error err =>
      rw [hlogs] at h
      cases h
    | ok logs' =>
      rw [hlogs] at h
      cases h
      exact ⟨rfl, rfl⟩

/-! ## Section 4: What one watch says -/

section life

variable {history later : List (Change Job)} {t : Rat} {r : JobResult}

/-- Whatever result a Job of the history shows, it is the one it finished with. -/
theorem JobLife.unique (hlife : JobLife history) (hfin : Finishes history t r later)
    {c : Change Job} {job : Job} {r' : JobResult} (hc : c ∈ history) (hjob : c.object = some job)
    (hr' : Shows job r') : r' = r := by
  obtain ⟨earlier, c₀, job₀, rfl, _, hjob₀, hr, hearlier⟩ := hfin
  have hboth : Shows job r := by
    rcases List.mem_append.mp hc with hc | hc
    · -- nothing shows a result before the Job has finished
      exact absurd hr' (hearlier c hc job r' hjob)
    · rcases List.mem_cons.mp hc with rfl | hc
      · rw [hjob₀, Option.some.injEq] at hjob
        rw [← hjob]
        exact hr
      · have hkept := (List.pairwise_append.mp hlife.kept).2.1
        exact (List.pairwise_cons.mp hkept).1 c hc job₀ job r hjob₀ hjob hr
  have hexcl := hlife.exclusive c hc job hjob
  cases r <;> cases r'
  · rfl
  · exact absurd ⟨hboth, hr'⟩ hexcl
  · exact absurd ⟨hr', hboth⟩ hexcl
  · rfl

/-- Until it may be deleted, a Job that has finished is there to be seen. -/
theorem JobLife.current_of_finished (hlife : JobLife history)
    (hfin : Finishes history t r later) {o : Rat} (ho : t ≤ o)
    (httl : o < t + ttl_seconds_after_finished) :
    ∃ job, current history o = some job ∧ Shows job r := by
  have hdeleted := hlife.ttl t r later hfin
  obtain ⟨earlier, c, job, rfl, hct, hjob, hr, _⟩ := hfin
  have hsplit : (earlier ++ c :: later).filter (fun c => decide (c.time ≤ o)) =
      earlier.filter (fun c => decide (c.time ≤ o)) ++
        c :: later.filter (fun c => decide (c.time ≤ o)) := by
    rw [List.filter_append, List.filter_cons_of_pos (by simpa [hct] using ho)]
  unfold current
  rw [hsplit, List.getLast?_append, List.getLast?_cons]
  cases hlast : (later.filter fun c => decide (c.time ≤ o)).getLast? with
  | none => exact ⟨job, by simpa using hjob, hr⟩
  | some c' =>
    obtain ⟨hmem, hle⟩ := List.mem_filter.mp (List.mem_of_getLast? hlast)
    have hle : c'.time ≤ o := of_decide_eq_true hle
    cases hobj : c'.object with
    | none =>
      -- a deletion before `o` would come too early
      have := hdeleted c' hmem hobj
      linarith
    | some job' =>
      have hkept := (List.pairwise_append.mp hlife.kept).2.1
      exact ⟨job', by simp [hobj],
        (List.pairwise_cons.mp hkept).1 c' hmem job job' r hjob hobj hr⟩

/-- A watch that is still open when the Job finishes, or opens before the Job
    may be deleted, is shown the finished Job. -/
theorem JobLife.shown (hlife : JobLife history) (hfin : Finishes history t r later) {w : Window}
    (hcloses : t ≤ w.closes) (hopens : w.opens < t + ttl_seconds_after_finished) :
    ∃ ev ∈ windowEvents history w, ∃ job, ev.object = some job ∧ Shows job r := by
  by_cases h : w.opens < t
  · -- the Job finishes during the watch
    obtain ⟨earlier, c, job, hhist, hct, hjob, hr, _⟩ := hfin
    have hmem : c ∈ history := by simp [hhist]
    obtain ⟨ev, hev, hobj⟩ :=
      mem_windowEvents_of_change hmem hjob (hct ▸ h) (hct ▸ hcloses)
    exact ⟨ev, hev, job, hobj, hr⟩
  · -- it has finished before, and is replayed
    obtain ⟨job, hcur, hr⟩ := hlife.current_of_finished hfin (not_lt.mp h) hopens
    exact ⟨_, mem_windowEvents_of_current hcur, job, rfl, hr⟩

variable {windows : Nat → Window} {watch : Watch Job}

/-- An event of a watch is a bookmark, or carries a Job of the history. -/
theorem event_of_delivers {events : List (WatchEvent Job)} {w : Window}
    (h : (events.filter fun ev => decide (ev ≠ .bookmark)) = windowEvents history w)
    {ev : WatchEvent Job} (hev : ev ∈ events) :
    ev = .bookmark ∨ ∃ job, ev.object = some job ∧ ∃ c ∈ history, c.object = some job := by
  by_cases hbook : ev = .bookmark
  · exact Or.inl hbook
  · right
    apply object_of_mem_windowEvents (w := w)
    rw [← h]
    exact List.mem_filter.mpr ⟨hev, decide_eq_true hbook⟩

/-- The result of a watch is one that a Job of the history shows. -/
theorem window_result (hwatch : Delivers history windows watch) {pods : Pods} {i : Nat}
    {timeout : UInt32} {logs : String}
    (h : window (jobEvent pods) (watch i timeout) = .ok (some (r, logs))) :
    ∃ c ∈ history, ∃ job, c.object = some job ∧ Shows job r := by
  obtain ⟨events, hopen, hevents⟩ := hwatch i timeout
  rw [hopen] at h
  obtain ⟨ev, ⟨before, after, hsplit, _, _⟩, hev⟩ := actsOn_of_some h
  have hmem : (.ok ev : Except String (WatchEvent Job)) ∈ events.map .ok := by
    rw [hsplit]
    simp
  obtain ⟨ev', hmem', heq⟩ := List.mem_map.mp hmem
  cases heq
  rcases event_of_delivers hevents hmem' with rfl | ⟨job, hobj, c, hc, hjob⟩
  · cases hev
  · rw [jobEvent_of_object hobj] at hev
    exact ⟨c, hc, job, hjob, shows_of_check (verdict_eq_some hev).1⟩

/-- A watch that is shown a finished Job returns, with some result. -/
theorem window_returns (hwatch : Delivers history windows watch) {pods : Pods}
    (hlogs : ∃ logs, podLogs pods = .ok logs) {i : Nat} (timeout : UInt32)
    (hshown : ∃ ev ∈ windowEvents history (windows i), ∃ job, ev.object = some job ∧ Shows job r) :
    ∃ r' logs, window (jobEvent pods) (watch i timeout) = .ok (some (r', logs)) := by
  obtain ⟨logs, hlogs⟩ := hlogs
  obtain ⟨events, hopen, hevents⟩ := hwatch i timeout
  obtain ⟨ev, hev, job, hobj, hshows⟩ := hshown
  rw [hopen]
  show ∃ r' logs, nextEvents (jobEvent pods) (events.map .ok) = .ok (some (r', logs))
  cases hres : nextEvents (jobEvent pods) (events.map .ok) with
  | ok o =>
    cases o with
    | some out => exact ⟨out.1, out.2, rfl⟩
    | none =>
      -- the finished Job cannot have been passed over
      rw [← hevents] at hev
      have hmem := (List.mem_filter.mp hev).1
      obtain ⟨ev', heq, hnone⟩ := skips_of_none hres (.ok ev) (List.mem_map_of_mem hmem)
      cases heq
      rw [jobEvent_of_object hobj] at hnone
      unfold jobVerdict at hnone
      obtain ⟨r', hr'⟩ := Option.ne_none_iff_exists'.mp (check_of_shows hshows)
      rw [hr', hlogs] at hnone
      cases hnone
  | error err =>
    exfalso
    rcases error_of_nextEvents hres with hmem | ⟨ev', hmem, herr⟩
    · -- the stream has no failed item
      simp at hmem
    · -- the body fails only if the logs do
      obtain ⟨ev'', hmem', heq⟩ := List.mem_map.mp hmem
      cases heq
      rcases event_of_delivers hevents hmem' with rfl | ⟨job', hobj', _⟩
      · cases herr
      · rw [jobEvent_of_object hobj'] at herr
        unfold jobVerdict at herr
        rw [hlogs] at herr
        cases hcheck : check_job_result job' <;> rw [hcheck] at herr <;> cases herr

end life

/-! ## Section 5: The verdict -/

/-- A watch that is open when the Job has finished has opened in time, if
    the first one has. -/
theorem opens_in_time {windows : Nat → Window} (hwin : Windows windows) {t : Rat}
    (hfirst : (windows 0).opens < t + ttl_seconds_after_finished) {i : Nat}
    (hbefore : ∀ j < i, (windows j).closes < t) :
    (windows i).opens < t + ttl_seconds_after_finished := by
  cases i with
  | zero => exact hfirst
  | succ j =>
    -- the watch before it was closed when the Job finished
    have hgap := hwin.gap j
    have hclosed := hbefore j (Nat.lt_succ_self j)
    linarith

/-- **The verdict of `wait_for_job`.** The call returns, and

    - a result it returns is one that the Job has shown;
    - if the Job becomes terminal no later than the end of a watch that the
      loop opened, and the first watch opened less than 600 s after that,
      then the call returns that verdict. -/
theorem wait_for_job_verdict {history : List (Change Job)} {windows : Nat → Window}
    {watch : Watch Job} {pods : Nat → Pods} (timeout_seconds : UInt32) (hlife : JobLife history)
    (hwin : Windows windows) (hwatch : Delivers history windows watch)
    (hlogs : ∀ i, ∃ logs, podLogs (pods i) = .ok logs) :
    ∃ run, wait_for_job watch pods timeout_seconds = some run ∧
      (∀ r logs, run.result = .ok (r, logs) →
        ∃ c ∈ history, ∃ job, c.object = some job ∧ Shows job r) ∧
      (∀ t r later, Finishes history t r later →
        (windows 0).opens < t + ttl_seconds_after_finished →
        ∀ i, i < run.granted.length → t ≤ (windows i).closes →
          ∃ logs, run.result = .ok (r, logs)) := by
  obtain ⟨run, hrun⟩ : ∃ run, wait_for_job watch pods timeout_seconds = some run :=
    loop_with_max_timeout_ends (by decide)
  refine ⟨run, hrun, ?_, ?_⟩
  · intro r logs hr
    obtain ⟨j, timeout, _, hcall⟩ := loop_result hrun hr
    exact window_result hwatch hcall
  · intro t r later hfin hfirst i hi hcloses
    -- the first watch that is still open when the Job finishes
    have hex : ∃ j, t ≤ (windows j).closes := ⟨i, hcloses⟩
    classical
    obtain ⟨k, hk, hopen, hbefore⟩ : ∃ k ≤ i, t ≤ (windows k).closes ∧
        ∀ j < k, (windows j).closes < t :=
      ⟨Nat.find hex, Nat.find_min' hex hcloses, Nat.find_spec hex,
        fun j hj => not_le.mp (Nat.find_min hex hj)⟩
    have hshown := hlife.shown hfin hopen (opens_in_time hwin hfirst hbefore)
    obtain ⟨timeout, hgranted⟩ : ∃ timeout, run.granted[k]? = some timeout :=
      ⟨_, List.getElem?_eq_getElem (by omega)⟩
    -- that watch returns some result, and there is only one to return
    obtain ⟨r', logs, hret⟩ := window_returns hwatch (hlogs k) timeout hshown
    obtain ⟨c, hc, job, hjob, hr'⟩ := window_result hwatch hret
    rw [hlife.unique hfin hc hjob hr'] at hret
    exact ⟨logs, loop_result_of_call hrun hgranted (.ok (r, logs)) hret⟩

/-! ### A Job that is gone 690 s after it finished -/

section shortJob

private def running : Job := ⟨none⟩

private def completed : Job := ⟨some ⟨some [⟨"Suspended", "False"⟩, ⟨"Complete", "True"⟩]⟩⟩

private def shortJob : List (Change Job) :=
  [⟨0, some running⟩, ⟨10, some completed⟩, ⟨700, none⟩]

/-- A watch of 5 s every 300 s, the first one at `start`. -/
private def every300 (start : Rat) (i : Nat) : Window := ⟨start + 300 * i, start + 300 * i + 5⟩

private def watchFrom (start : Rat) : Watch Job :=
  fun i _ => .ok ((windowEvents shortJob (every300 start i)).map .ok)

private def onePod : Nat → Pods := fun _ => ⟨.ok ["ceramic-tests-x-0"], fun _ => .ok "done"⟩

private theorem every300_windows (start : Rat) : Windows (every300 start) := by
  refine ⟨?_⟩
  intro i
  unfold every300 ttl_seconds_after_finished
  push_cast
  linarith

private theorem watchFrom_delivers (start : Rat) :
    Delivers shortJob (every300 start) (watchFrom start) := by
  intro i timeout
  refine ⟨windowEvents shortJob (every300 start i), rfl, ?_⟩
  rw [List.filter_eq_self]
  intro ev hev
  obtain ⟨job, hobj, _⟩ := object_of_mem_windowEvents hev
  apply decide_eq_true
  rintro rfl
  cases hobj

private theorem not_shows_running (r : JobResult) : ¬ Shows running r := by
  cases r <;> rintro ⟨status, _, hstatus, _⟩ <;> cases hstatus

private theorem shows_completed : Shows completed .Pass :=
  ⟨_, _, rfl, rfl, ⟨"Complete", "True"⟩, by simp, rfl, rfl⟩

private theorem not_failed_completed : ¬ Shows completed .Fail := by
  rintro ⟨status, conditions, hstatus, hconds, condition, hmem, htype, _⟩
  cases hstatus
  cases hconds
  simp only [List.mem_cons, List.not_mem_nil, or_false] at hmem
  rcases hmem with rfl | rfl <;> simp at htype

private theorem shortJob_life : JobLife shortJob where
  sorted := by
    unfold shortJob
    norm_num
  exclusive := by
    intro c hc job hjob ⟨_, hfail⟩
    simp only [shortJob, List.mem_cons, List.not_mem_nil, or_false] at hc
    rcases hc with rfl | rfl | rfl <;> cases hjob
    · exact not_shows_running _ hfail
    · exact not_failed_completed hfail
  kept := by
    unfold shortJob
    simp only [List.pairwise_cons, List.mem_cons, List.not_mem_nil, or_false, List.Pairwise.nil,
      and_true, forall_eq_or_imp, forall_eq]
    refine ⟨⟨?_, ?_⟩, ?_, by simp⟩
    · intro job job' r hjob _ hr
      cases hjob
      exact absurd hr (not_shows_running r)
    · intro job job' r _ hjob'
      cases hjob'
    · intro job job' r _ hjob'
      cases hjob'
  ttl := by
    rintro t r later ⟨earlier, c, job, hsplit, rfl, hjob, _⟩ c' hc' hnone
    have hc : c ∈ shortJob := by simp [hsplit]
    have hc' : c' ∈ shortJob := by simp [hsplit, hc']
    simp only [shortJob, List.mem_cons, List.not_mem_nil, or_false] at hc hc'
    unfold ttl_seconds_after_finished
    rcases hc with rfl | rfl | rfl <;> rcases hc' with rfl | rfl | rfl <;>
      first | (cases hjob; done) | (cases hnone; done) | norm_num

private theorem shortJob_finishes : Finishes shortJob 10 .Pass [⟨700, none⟩] := by
  refine ⟨[⟨0, some running⟩], ⟨10, some completed⟩, completed, rfl, rfl, rfl, shows_completed, ?_⟩
  intro c hc job r hjob
  rw [List.mem_singleton.mp hc] at hjob
  cases hjob
  exact not_shows_running r

private theorem onePod_logs : ∀ i, ∃ logs, podLogs (onePod i) = .ok logs :=
  fun _ => ⟨_, rfl⟩

/-- The Job completes at the very end of the only watch. -/
theorem verdict_at_end_of_watch : ∃ run, wait_for_job (watchFrom 5) onePod 290 = some run ∧
    ∃ logs, run.result = .ok (.Pass, logs) := by
  obtain ⟨run, hrun, _, hverdict⟩ := wait_for_job_verdict 290 shortJob_life (every300_windows 5)
    (watchFrom_delivers 5) onePod_logs
  have hopened : 0 < run.granted.length := by
    unfold wait_for_job at hrun
    rw [loop_single_watch (by decide) (by decide), Option.some.injEq] at hrun
    rw [← hrun]
    exact Nat.one_pos
  refine ⟨run, hrun, hverdict 10 .Pass _ shortJob_finishes ?_ 0 hopened ?_⟩
  · unfold every300 ttl_seconds_after_finished
    norm_num
  · unfold every300
    norm_num

/-- The driver opens its first watch 1000 s after the Job was created. The
    Job became terminal before the end of that watch, and the call gives up. -/
theorem verdict_lost_before_first_watch :
    JobLife shortJob ∧ Windows (every300 1000) ∧
    Delivers shortJob (every300 1000) (watchFrom 1000) ∧
    (∀ i, ∃ logs, podLogs (onePod i) = .ok logs) ∧
    Finishes shortJob 10 .Pass [⟨700, none⟩] ∧ 10 ≤ (every300 1000 0).closes ∧
    wait_for_job (watchFrom 1000) onePod 290 =
      some ⟨[290], .error "watch timeout exceeded"⟩ := by
  have hempty : windowEvents shortJob (every300 1000 0) = [] := by
    unfold windowEvents current every300 shortJob
    norm_num [List.filter_cons, eventsFrom]
  have hcall : window (jobEvent (onePod 0)) (watchFrom 1000 0 290) = .ok none := by
    unfold watchFrom
    rw [hempty]
    rfl
  refine ⟨shortJob_life, every300_windows 1000, watchFrom_delivers 1000, onePod_logs,
    shortJob_finishes, ?_, ?_⟩
  · unfold every300
    norm_num
  · unfold wait_for_job
    rw [loop_single_watch (by decide) (by decide), hcall]

end shortJob

end Hermetic
