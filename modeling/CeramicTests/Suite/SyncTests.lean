import CeramicTests.Framework.Interleave
import CeramicTests.Framework.Logged
import CeramicTests.Suite.Feed

/-! # The sync tests

    The tests of `suite/src/__tests__/correctness/fast/sync-events.test.ts`.

    Each test asks every node where its feed ends, subscribes the nodes to
    its models and writes its events, in an order of its own, and waits until
    the feeds have delivered as many events as it wrote. Then it reads the
    feeds once more and compares.

    The wait alone proves little, as it only counts. A test that passes does
    prove that the events have arrived at every node, each of them once.

    - Section 1: the requests
    - Section 2: the five tests
    - Section 3: what a test sends
    - Section 4: what it means that a test passes
    - Section 5: when a test passes
-/

open Framework (Logged Interleaves)

namespace Suite

/-! ## Section 1: The requests -/

inductive NodeRequest
  | resumeToken (url : String)
  | registerInterest (url model : String)
  | writeEvent (url : String) (event : ReconEvent)
  deriving DecidableEq, Repr

/-- A request that has been answered, and whether the reply had the status
    that is expected. -/
structure Sent where
  request : NodeRequest
  accepted : Bool
  deriving DecidableEq, Repr

structure NodeReply where
  status : Nat
  /-- What the body of a reply with a token says. -/
  resumeToken : String
  deriving DecidableEq, Repr

/-- The nodes, with arbitrary replies: to the `n`-th request, `network n`. An
    error stands for a request without a reply. -/
abbrev Network := Nat → NodeRequest → Except String NodeReply

def NodeRequest.status : NodeRequest → Nat
  | .resumeToken _ => 200
  | .registerInterest _ _ => 204
  | .writeEvent _ _ => 204

/-- `expect(response.status).toEqual(status)` -/
def expectStatus (request : NodeRequest) (reply : NodeReply) : Except String NodeReply :=
  if reply.status = request.status then .ok reply else .error "expect(received).toEqual(expected)"

def fetch (network : Network) (request : NodeRequest) : Logged Sent String NodeReply :=
  Logged.call (fun n => network n request >>= expectStatus request) fun answer =>
    ⟨request, answer.isOk⟩

def registerInterest (network : Network) (url model : String) : Logged Sent String Unit := do
  let _ ← fetch network (.registerInterest url model)
  pure ()

def getStartingToken (network : Network) (url : String) : Logged Sent String String := do
  let token ← fetch network (.resumeToken url)
  pure token.resumeToken

def getResumeTokens (network : Network) : List String → Logged Sent String (List String)
  | [] => pure []
  | url :: urls => do
    let token ← getStartingToken network url
    let resumeTokens ← getResumeTokens network urls
    pure (token :: resumeTokens)

/-- Events, each written to its url. -/
def writeAll (network : Network) : List (String × ReconEvent) → Logged Sent String Unit
  | [] => pure ()
  | (url, event) :: writes => do
    let _ ← fetch network (.writeEvent url event)
    writeAll network writes

def writeEvents (network : Network) (url : String) (events : List ReconEvent) :
    Logged Sent String Unit :=
  writeAll network (events.map (url, ·))

/-- The loops that register a model on several nodes. -/
def registerInterests (network : Network) (model : String) :
    List String → Logged Sent String Unit
  | [] => pure ()
  | url :: urls => do
    registerInterest network url model
    registerInterests network model urls

/-- `Promise.all` over calls of `writeEvents`, to which the replies come in the
    given order. It fails with the first call that does. What the other calls
    still do then is left out. -/
def promiseAll (network : Network) {calls : List (List (String × ReconEvent))}
    (order : { order // Interleaves calls order }) : Logged Sent String Unit :=
  writeAll network order.val

/-! ## Section 2: The five tests -/

/-- The nodes that the environment names. -/
structure CeramicUrls where
  firstNodeUrl : String
  secondNodeUrl : String
  otherUrls : List String

def CeramicUrls.all (urls : CeramicUrls) : List String :=
  urls.firstNodeUrl :: urls.secondNodeUrl :: urls.otherUrls

/-- A test: its models, its events, the events that each of its calls of
    `writeEvents` writes, and what it does before it waits for them. -/
structure SyncTest where
  models : List String
  modelEvents : List ReconEvent
  writes : List (List (String × ReconEvent))
  exchange : Network → Logged Sent String Unit

/-- `modelEvents.slice(0, half)` -/
def firstHalf (modelEvents : List ReconEvent) : List ReconEvent :=
  modelEvents.take ((modelEvents.length + 1) / 2)

/-- `modelEvents.slice(half, modelEvents.length)` -/
def secondHalf (modelEvents : List ReconEvent) : List ReconEvent :=
  modelEvents.drop ((modelEvents.length + 1) / 2)

/-- The other nodes subscribe when all events have been written. -/
def linearSync (urls : CeramicUrls) (modelID : String) (modelEvents : List ReconEvent) :
    SyncTest where
  models := [modelID]
  modelEvents := modelEvents
  writes := [modelEvents.map (urls.firstNodeUrl, ·)]
  exchange := fun network => do
    registerInterest network urls.firstNodeUrl modelID
    writeEvents network urls.firstNodeUrl modelEvents
    registerInterests network modelID (urls.secondNodeUrl :: urls.otherUrls)

/-- All nodes subscribe before the events are written. -/
def activeWriteSync (urls : CeramicUrls) (modelID : String) (modelEvents : List ReconEvent) :
    SyncTest where
  models := [modelID]
  modelEvents := modelEvents
  writes := [modelEvents.map (urls.firstNodeUrl, ·)]
  exchange := fun network => do
    registerInterests network modelID urls.all
    writeEvents network urls.firstNodeUrl modelEvents

def halfAndHalfSync (urls : CeramicUrls) (modelID : String) (modelEvents : List ReconEvent) :
    SyncTest where
  models := [modelID]
  modelEvents := modelEvents
  writes := [(firstHalf modelEvents).map (urls.firstNodeUrl, ·),
    (secondHalf modelEvents).map (urls.firstNodeUrl, ·)]
  exchange := fun network => do
    registerInterest network urls.firstNodeUrl modelID
    writeEvents network urls.firstNodeUrl (firstHalf modelEvents)
    registerInterests network modelID (urls.secondNodeUrl :: urls.otherUrls)
    writeEvents network urls.firstNodeUrl (secondHalf modelEvents)

/-- What the two calls of the test on two nodes write. -/
def twoNodesWrites (urls : CeramicUrls) (modelEvents : List ReconEvent) :
    List (List (String × ReconEvent)) :=
  [(firstHalf modelEvents).map (urls.firstNodeUrl, ·),
    (secondHalf modelEvents).map (urls.secondNodeUrl, ·)]

def twoNodesSync (urls : CeramicUrls) (modelID : String) (modelEvents : List ReconEvent)
    (order : { order // Interleaves (twoNodesWrites urls modelEvents) order }) : SyncTest where
  models := [modelID]
  modelEvents := modelEvents
  writes := twoNodesWrites urls modelEvents
  exchange := fun network => do
    registerInterests network modelID urls.all
    promiseAll network order

/-- A model with new events for each of the nodes. -/
structure Model (urls : List String) where
  id : String
  events : List (List ReconEvent)
  forEachUrl : events.length = urls.length

/-- The calls of `writeEvents` for one model. -/
def Model.writes {urls : List String} (model : Model urls) : List (List (String × ReconEvent)) :=
  (urls.zip model.events).map fun (url, events) => events.map (url, ·)

def registerModels (network : Network) (urls : List String) :
    List String → Logged Sent String Unit
  | [] => pure ()
  | model :: models => do
    registerInterests network model urls
    registerModels network urls models

def manyModelsSync (urls : CeramicUrls) (models : List (Model urls.all))
    (order : { order // Interleaves (models.flatMap Model.writes) order }) : SyncTest where
  models := models.map Model.id
  modelEvents := models.flatMap fun model => model.events.flatten
  writes := models.flatMap Model.writes
  exchange := fun network => do
    registerModels network urls.all (models.map Model.id)
    promiseAll network order

/-- The tests of the file, each with the requests it makes before its wait,
    less those for the tokens. -/
inductive SyncTests (urls : CeramicUrls) : SyncTest → List NodeRequest → Prop
  | linear (modelID modelEvents) : SyncTests urls (linearSync urls modelID modelEvents)
      (.registerInterest urls.firstNodeUrl modelID ::
        (modelEvents.map (.writeEvent urls.firstNodeUrl) ++
          (urls.secondNodeUrl :: urls.otherUrls).map (.registerInterest · modelID)))
  | activeWrite (modelID modelEvents) : SyncTests urls (activeWriteSync urls modelID modelEvents)
      (urls.all.map (.registerInterest · modelID) ++
        modelEvents.map (.writeEvent urls.firstNodeUrl))
  | halfAndHalf (modelID modelEvents) : SyncTests urls (halfAndHalfSync urls modelID modelEvents)
      (.registerInterest urls.firstNodeUrl modelID ::
        ((firstHalf modelEvents).map (.writeEvent urls.firstNodeUrl) ++
          ((urls.secondNodeUrl :: urls.otherUrls).map (.registerInterest · modelID) ++
            (secondHalf modelEvents).map (.writeEvent urls.firstNodeUrl))))
  | twoNodes (modelID modelEvents order) :
      SyncTests urls (twoNodesSync urls modelID modelEvents order)
        (urls.all.map (.registerInterest · modelID) ++
          order.val.map fun write => .writeEvent write.1 write.2)
  | manyModels (models order) : SyncTests urls (manyModelsSync urls models order)
      ((models.map Model.id).flatMap (fun model => urls.all.map (.registerInterest · model)) ++
        order.val.map fun write => .writeEvent write.1 write.2)

def SyncTest.eventCids (t : SyncTest) : List String := t.modelEvents.map ReconEvent.id

/-- A test up to its wait. -/
def SyncTest.prepare (t : SyncTest) (network : Network) (urls : List String) :
    Logged Sent String (List String) := do
  let resumeTokens ← getResumeTokens network urls
  t.exchange network
  pure resumeTokens

/-- The loop over the urls from the `i`-th on that reads the feeds again. -/
def validate (nodes : Nat → Node) (eventCids : List String) (sortedModelEvents : List ReconEvent)
    (fuel : Nat) : Nat → List String → Option (Except String Unit)
  | _, [] => some (.ok ())
  | i, token :: tokens =>
    match readEvents (nodes i) token eventCids READ_EVENTS_TIMEOUT_MS fuel with
    | none => none
    | some (.error err) => some (.error err)
    | some (.ok (events, _)) =>
      if events = sortedModelEvents then
        validate nodes eventCids sortedModelEvents fuel (i + 1) tokens
      else some (.error "expect(received).toEqual(expected)")

/-- A test, with what it has sent. The feeds are those of the nodes `waiting`
    during the wait, and of `validating` afterwards. -/
def SyncTest.run (t : SyncTest) (network : Network) (waiting validating : Nat → Node)
    (fuel : Nat) (urls : CeramicUrls) : Option (Except String Unit) × List Sent :=
  match t.prepare network urls.all [] with
  | (.error err, sent) => (some (.error err), sent)
  | (.ok resumeTokens, sent) =>
    match waitForEventCount waiting urls.all t.eventCids resumeTokens fuel with
    | none => (none, sent)
    | some (.error err) => (some (.error err), sent)
    | some (.ok ()) =>
      (validate validating t.eventCids (sortModelEvents t.modelEvents) fuel 0 resumeTokens, sent)

/-! ## Section 3: What a test sends -/

def Sent.asked (s : Sent) : Option NodeRequest := some s.request

/-- Every request has a reply, with the status that is expected. -/
def Healthy (network : Network) : Prop :=
  ∀ n request, ∃ reply, network n request = .ok reply ∧ reply.status = request.status

/-- What `m` sends is in the script, as far as `m` gets, and `m` goes on only
    after an expected status. -/
structure Asks (network : Network) {α : Type} (m : Logged Sent String α)
    (script : List NodeRequest) : Prop where
  follows : Logged.Follows Sent.asked m script
  failStop : Logged.Logs (Logged.FailStop fun s => s.accepted = true) m
  answered : Healthy network → ∀ log, ∃ x log', m log = (.ok x, log')

section asks

variable {network : Network} {α β : Type} {m : Logged Sent String α} {k : α → Logged Sent String β}
  {script script' : List NodeRequest}

theorem Asks.pure {x : α} : Asks network (pure x) [] where
  follows := Logged.Follows.pure
  failStop := Logged.Logs.pure (Logged.FailStop.composes _)
  answered := fun _ log => ⟨x, log, rfl⟩

theorem Asks.bind (hm : Asks network m script) (hk : ∀ x, Asks network (k x) script') :
    Asks network (m >>= k) (script ++ script') where
  follows := hm.follows.bind fun x => (hk x).follows
  failStop := hm.failStop.bind (Logged.FailStop.composes _) fun x => (hk x).failStop
  answered := by
    intro hhealthy log
    obtain ⟨x, between, hfirst⟩ := hm.answered hhealthy log
    rw [Logged.bind_of_ok hfirst]
    exact (hk x).answered hhealthy between

/-- The last step of a program that asks nothing more. -/
theorem Asks.andReturn (hm : Asks network m script) (hk : ∀ x, Asks network (k x) []) :
    Asks network (m >>= k) script := by
  have h := hm.bind hk
  rwa [List.append_nil] at h

theorem fetch_asks (request : NodeRequest) : Asks network (fetch network request) [request] where
  follows := Logged.Follows.call fun _ => rfl
  failStop := by
    refine Logged.Logs.call ?_
    intro answer
    constructor
    · intro s hs
      simp at hs
    · intro hdone s hs
      rw [List.mem_singleton.mp hs]
      exact hdone
  answered := by
    intro hhealthy log
    obtain ⟨reply, hreply, hstatus⟩ := hhealthy log.length request
    refine ⟨reply, _, Logged.call_eq ?_⟩
    show (network log.length request >>= expectStatus request) = .ok reply
    rw [hreply]
    show expectStatus request reply = .ok reply
    unfold expectStatus
    rw [if_pos hstatus]

theorem expected_reply {request : NodeRequest} {n : Nat} {reply : NodeReply}
    (h : (network n request >>= expectStatus request) = .ok reply) :
    network n request = .ok reply := by
  cases hreply : network n request with
  | error err =>
    rw [hreply] at h
    cases h
  | ok reply' =>
    rw [hreply] at h
    have h : expectStatus request reply' = .ok reply := h
    unfold expectStatus at h
    by_cases hstatus : reply'.status = request.status
    · rw [if_pos hstatus] at h
      exact h
    · rw [if_neg hstatus] at h
      cases h

theorem registerInterest_asks (url model : String) :
    Asks network (registerInterest network url model) [.registerInterest url model] :=
  (fetch_asks _).andReturn fun _ => Asks.pure

theorem getStartingToken_asks (url : String) :
    Asks network (getStartingToken network url) [.resumeToken url] :=
  (fetch_asks _).andReturn fun _ => Asks.pure

theorem getResumeTokens_asks (urls : List String) :
    Asks network (getResumeTokens network urls) (urls.map .resumeToken) := by
  induction urls with
  | nil => exact Asks.pure
  | cons url urls ih =>
    exact (getStartingToken_asks url).bind fun _ => ih.andReturn fun _ => Asks.pure

theorem writeAll_asks (writes : List (String × ReconEvent)) :
    Asks network (writeAll network writes) (writes.map fun write => .writeEvent write.1 write.2) := by
  induction writes with
  | nil => exact Asks.pure
  | cons write writes ih => exact (fetch_asks _).bind fun _ => ih

theorem writeEvents_asks (url : String) (events : List ReconEvent) :
    Asks network (writeEvents network url events) (events.map (.writeEvent url)) := by
  have h : Asks network (writeEvents network url events) _ := writeAll_asks (events.map (url, ·))
  rwa [List.map_map] at h

theorem registerInterests_asks (model : String) (urls : List String) :
    Asks network (registerInterests network model urls) (urls.map (.registerInterest · model)) := by
  induction urls with
  | nil => exact Asks.pure
  | cons url urls ih => exact (registerInterest_asks url model).bind fun _ => ih

theorem registerModels_asks (urls models : List String) :
    Asks network (registerModels network urls models)
      (models.flatMap fun model => urls.map (.registerInterest · model)) := by
  induction models with
  | nil => exact Asks.pure
  | cons model models ih => exact (registerInterests_asks model urls).bind fun _ => ih

/-- Each test makes the requests of its script. -/
theorem exchange_asks {urls : CeramicUrls} {t : SyncTest} (ht : SyncTests urls t script) :
    Asks network (t.exchange network) script := by
  cases ht with
  | linear modelID modelEvents =>
    exact (registerInterest_asks _ _).bind fun _ =>
      (writeEvents_asks _ _).bind fun _ => registerInterests_asks _ _
  | activeWrite modelID modelEvents =>
    exact (registerInterests_asks _ _).bind fun _ => writeEvents_asks _ _
  | halfAndHalf modelID modelEvents =>
    exact (registerInterest_asks _ _).bind fun _ => (writeEvents_asks _ _).bind fun _ =>
      (registerInterests_asks _ _).bind fun _ => writeEvents_asks _ _
  | twoNodes modelID modelEvents order =>
    exact (registerInterests_asks _ _).bind fun _ => writeAll_asks _
  | manyModels models order =>
    exact (registerModels_asks _ _).bind fun _ => writeAll_asks _

theorem prepare_asks {urls : CeramicUrls} {t : SyncTest} (ht : SyncTests urls t script) :
    Asks network (t.prepare network urls.all) (urls.all.map .resumeToken ++ script) :=
  (getResumeTokens_asks _).bind fun _ => (exchange_asks ht).andReturn fun _ => Asks.pure

end asks

/-! ### What is in the script -/

/-- The event that a request writes, and where. -/
def NodeRequest.write : NodeRequest → Option (String × ReconEvent)
  | .writeEvent url event => some (url, event)
  | _ => none

section script

variable {urls : CeramicUrls} {t : SyncTest} {script : List NodeRequest}

theorem write_registerInterest (model : String) (urls : List String) :
    (urls.map (NodeRequest.registerInterest · model)).filterMap NodeRequest.write = [] := by
  rw [List.filterMap_map]
  exact List.filterMap_eq_nil_iff.mpr fun _ _ => rfl

theorem write_writeEvent (url : String) (events : List ReconEvent) :
    (events.map (NodeRequest.writeEvent url)).filterMap NodeRequest.write =
      events.map (url, ·) := by
  rw [List.filterMap_map]
  exact congrFun (List.filterMap_eq_map (f := fun event => (url, event))) events

theorem write_order (order : List (String × ReconEvent)) :
    (order.map fun write => NodeRequest.writeEvent write.1 write.2).filterMap NodeRequest.write =
      order := by
  rw [List.filterMap_map]
  exact List.filterMap_some

theorem asked_eq (sent : List Sent) : sent.filterMap Sent.asked = sent.map Sent.request :=
  congrFun (List.filterMap_eq_map (f := Sent.request)) sent

/-- The requests for the tokens write nothing. -/
theorem written_eq {sent : List Sent} {urls : List String}
    (h : sent.map Sent.request = urls.map .resumeToken ++ script) :
    sent.filterMap (fun s => s.request.write) = script.filterMap NodeRequest.write := by
  have htokens : (urls.map NodeRequest.resumeToken).filterMap NodeRequest.write = [] := by
    rw [List.filterMap_map]
    exact List.filterMap_eq_nil_iff.mpr fun _ _ => rfl
  have hmap : sent.filterMap (fun s => s.request.write) =
      (sent.map Sent.request).filterMap NodeRequest.write := by
    rw [List.filterMap_map]
    rfl
  rw [hmap, h, List.filterMap_append, htokens, List.nil_append]

theorem mem_of_accepted {sent : List Sent} {request : NodeRequest}
    (hmem : request ∈ sent.map Sent.request) (h : ∀ s ∈ sent, s.accepted = true) :
    ⟨request, true⟩ ∈ sent := by
  obtain ⟨s, hs, hrequest⟩ := List.mem_map.mp hmem
  have hsent : s = ⟨request, true⟩ := by
    rw [← hrequest, ← h s hs]
  exact hsent ▸ hs

/-- Each node is registered for each model. -/
theorem SyncTests.registered (ht : SyncTests urls t script) :
    ∀ url ∈ urls.all, ∀ model ∈ t.models, .registerInterest url model ∈ script := by
  intro url hurl model hmodel
  cases ht with
  | linear modelID modelEvents =>
    rw [List.mem_singleton.mp hmodel]
    unfold CeramicUrls.all at hurl
    simpa using hurl
  | activeWrite modelID modelEvents =>
    rw [List.mem_singleton.mp hmodel]
    exact List.mem_append_left _ (List.mem_map_of_mem hurl)
  | halfAndHalf modelID modelEvents =>
    rw [List.mem_singleton.mp hmodel]
    unfold CeramicUrls.all at hurl
    simpa using hurl
  | twoNodes modelID modelEvents order =>
    rw [List.mem_singleton.mp hmodel]
    exact List.mem_append_left _ (List.mem_map_of_mem hurl)
  | manyModels models order =>
    refine List.mem_append_left _ (List.mem_flatMap.mpr ⟨model, hmodel, ?_⟩)
    exact List.mem_map_of_mem hurl

/-- The calls of `writeEvents` make their requests, each in its order. -/
theorem SyncTests.interleaves (ht : SyncTests urls t script) :
    Interleaves t.writes (script.filterMap NodeRequest.write) := by
  cases ht with
  | linear modelID modelEvents =>
    have hone : Interleaves [modelEvents.map (urls.firstNodeUrl, ·)] _ := .one_by_one _
    rw [List.filterMap_cons_none rfl, List.filterMap_append, write_writeEvent,
      write_registerInterest]
    exact hone
  | activeWrite modelID modelEvents =>
    have hone : Interleaves [modelEvents.map (urls.firstNodeUrl, ·)] _ := .one_by_one _
    rw [List.filterMap_append, write_writeEvent, write_registerInterest, List.nil_append,
      ← List.flatten_singleton (l := modelEvents.map _)]
    exact hone
  | halfAndHalf modelID modelEvents =>
    have htwo : Interleaves [(firstHalf modelEvents).map (urls.firstNodeUrl, ·),
        (secondHalf modelEvents).map (urls.firstNodeUrl, ·)] _ := .one_by_one _
    rw [List.filterMap_cons_none rfl, List.filterMap_append, List.filterMap_append,
      write_writeEvent, write_writeEvent, write_registerInterest, List.nil_append]
    rw [List.flatten_cons, List.flatten_singleton] at htwo
    exact htwo
  | twoNodes modelID modelEvents order =>
    rw [List.filterMap_append, write_order, write_registerInterest]
    exact order.property
  | manyModels models order =>
    have hnone : ((models.map Model.id).flatMap fun model =>
        urls.all.map (NodeRequest.registerInterest · model)).filterMap NodeRequest.write = [] := by
      refine List.filterMap_eq_nil_iff.mpr ?_
      intro request hrequest
      obtain ⟨model, _, hmem⟩ := List.mem_flatMap.mp hrequest
      obtain ⟨url, _, rfl⟩ := List.mem_map.mp hmem
      rfl
    rw [List.filterMap_append, write_order, hnone]
    exact order.property

theorem map_written (url : String) (events : List ReconEvent) :
    (events.map (url, ·)).map Prod.snd = events := by
  rw [List.map_map]
  exact List.map_id events

theorem half_append (modelEvents : List ReconEvent) :
    firstHalf modelEvents ++ secondHalf modelEvents = modelEvents :=
  List.take_append_drop _ _

theorem Model.writes_events {urls : List String} (model : Model urls) :
    model.writes.flatten.map Prod.snd = model.events.flatten := by
  have hevents : model.writes.map (List.map Prod.snd) = model.events := by
    unfold Model.writes
    rw [List.map_map]
    have hsnd : (urls.zip model.events).map Prod.snd = model.events :=
      List.map_snd_zip (Nat.le_of_eq model.forEachUrl)
    refine (List.map_congr_left ?_).trans hsnd
    intro ⟨url, events⟩ _
    exact map_written url events
  rw [List.map_flatten, hevents]

theorem models_events {urls : List String} (models : List (Model urls)) :
    (models.flatMap Model.writes).flatten.map Prod.snd =
      models.flatMap fun model => model.events.flatten := by
  induction models with
  | nil => rfl
  | cons model models ih =>
    rw [List.flatMap_cons, List.flatMap_cons, List.flatten_append, List.map_append,
      model.writes_events, ih]

/-- The events of the test are those that it writes. -/
theorem SyncTests.writes_events (ht : SyncTests urls t script) :
    t.writes.flatten.map Prod.snd = t.modelEvents := by
  cases ht with
  | linear modelID modelEvents =>
    show ([modelEvents.map (urls.firstNodeUrl, ·)].flatten).map _ = modelEvents
    rw [List.flatten_singleton, map_written]
  | activeWrite modelID modelEvents =>
    show ([modelEvents.map (urls.firstNodeUrl, ·)].flatten).map _ = modelEvents
    rw [List.flatten_singleton, map_written]
  | halfAndHalf modelID modelEvents =>
    show ([_, _].flatten).map _ = modelEvents
    rw [List.map_flatten, List.map_cons, List.map_cons, List.map_nil, map_written, map_written]
    simpa using half_append modelEvents
  | twoNodes modelID modelEvents order =>
    show (twoNodesWrites urls modelEvents).flatten.map _ = modelEvents
    unfold twoNodesWrites
    rw [List.map_flatten, List.map_cons, List.map_cons, List.map_nil, map_written, map_written]
    simpa using half_append modelEvents
  | manyModels models order =>
    exact models_events models

end script

/-! ## Section 4: What it means that a test passes -/

section passes

variable {network : Network} {waiting validating : Nat → Node} {fuel : Nat} {urls : CeramicUrls}
  {t : SyncTest} {script : List NodeRequest} {sent : List Sent}

/-- Each token is the reply of its node, asked before anything was written. -/
theorem getResumeTokens_eq_ok {urls tokens : List String} {log log' : List Sent}
    (h : getResumeTokens network urls log = (.ok tokens, log')) :
    tokens.length = urls.length ∧ ∀ i url, urls[i]? = some url →
      ∃ reply, network (log.length + i) (.resumeToken url) = .ok reply ∧
        tokens[i]? = some reply.resumeToken := by
  induction urls generalizing tokens log with
  | nil =>
    cases h
    exact ⟨rfl, fun i url hi => by simp at hi⟩
  | cons url urls ih =>
    obtain ⟨token, log₁, htoken, hrest⟩ := Logged.bind_eq_ok h
    obtain ⟨tokens', log₂, htokens, hreturn⟩ := Logged.bind_eq_ok hrest
    cases hreturn
    obtain ⟨reply, log₃, hfetch, hlast⟩ := Logged.bind_eq_ok htoken
    cases hlast
    obtain ⟨hreply, hlog⟩ := Logged.call_eq_ok hfetch
    obtain ⟨hlen, hall⟩ := ih htokens
    refine ⟨by simp [hlen], ?_⟩
    intro i url' hi
    cases i with
    | zero =>
      cases hi
      exact ⟨reply, expected_reply hreply, rfl⟩
    | succ i =>
      obtain ⟨reply', hreply', hget⟩ := hall i url' (by simpa using hi)
      refine ⟨reply', ?_, by simpa using hget⟩
      rw [hlog, List.length_append, List.length_singleton] at hreply'
      rw [← hreply']
      congr 1
      omega

theorem validate_ok {nodes : Nat → Node} {eventCids tokens : List String}
    {sorted : List ReconEvent} {i : Nat}
    (h : validate nodes eventCids sorted fuel i tokens = some (.ok ())) :
    ∀ j token, tokens[j]? = some token → ∃ s,
      readEvents (nodes (i + j)) token eventCids READ_EVENTS_TIMEOUT_MS fuel =
        some (.ok (sorted, s)) := by
  induction tokens generalizing i with
  | nil =>
    intro j token hj
    simp at hj
  | cons token tokens ih =>
    unfold validate at h
    intro j token' hj
    cases hread : readEvents (nodes i) token eventCids READ_EVENTS_TIMEOUT_MS fuel with
    | none =>
      rw [hread] at h
      cases h
    | some result =>
      rw [hread] at h
      cases result with
      | error err => cases h
      | ok out =>
        obtain ⟨events, s⟩ := out
        simp only at h
        by_cases hsame : events = sorted
        · rw [if_pos hsame] at h
          subst hsame
          cases j with
          | zero =>
            cases hj
            exact ⟨s, hread⟩
          | succ j =>
            obtain ⟨s', hread'⟩ := ih h j token' (by simpa using hj)
            refine ⟨s', ?_⟩
            rw [← hread']
            congr 2
            omega
        · rw [if_neg hsame] at h
          cases h

/-- What `readEvents` returns is what it has collected, in order. -/
theorem readEvents_collected {node : Node} {token : String} {eventCids : List String}
    {timeoutMs : Nat} {events : List ReconEvent} {s : ReadState}
    (h : readEvents node token eventCids timeoutMs fuel = some (.ok (events, s))) :
    events = sortModelEvents s.events ∧ Counted eventCids s := by
  unfold readEvents at h
  cases hloop : readLoop node eventCids timeoutMs fuel 0 ⟨token, [], []⟩ with
  | none =>
    rw [hloop] at h
    cases h
  | some result =>
    rw [hloop] at h
    cases result with
    | error err => cases h
    | ok s' =>
      cases h
      exact ⟨rfl, readLoop_counted hloop rfl⟩

/-- The node delivers the events of the test, each once and as it was written,
    when it is read from the place of its token. -/
def Arrived (node : Node) (token : String) (t : SyncTest) (fuel : Nat) : Prop :=
  ∃ s, readEvents node token t.eventCids READ_EVENTS_TIMEOUT_MS fuel =
      some (.ok (sortModelEvents t.modelEvents, s)) ∧
    s.events.Perm t.modelEvents ∧ (expectedDeliveries t.eventCids s).Perm t.eventCids

theorem arrived_of_read {node : Node} {token : String} {s : ReadState}
    (h : readEvents node token t.eventCids READ_EVENTS_TIMEOUT_MS fuel =
      some (.ok (sortModelEvents t.modelEvents, s))) : Arrived node token t fuel := by
  obtain ⟨hsame, hcounted⟩ := readEvents_collected h
  have hperm : s.events.Perm t.modelEvents := by
    have hsorted : (sortModelEvents s.events).Perm t.modelEvents :=
      hsame ▸ List.mergeSort_perm _ _
    exact (List.mergeSort_perm _ _).symm.trans hsorted
  have hcids : (s.events.map ReconEvent.id).Perm t.eventCids := hperm.map _
  unfold Counted at hcounted
  rw [hcounted] at hcids
  exact ⟨s, h, hperm, hcids⟩

/-- What a test that passes has made sure of. -/
structure Passed (network : Network) (validating : Nat → Node) (fuel : Nat) (urls : CeramicUrls)
    (t : SyncTest) (sent : List Sent) : Prop where
  accepted : ∀ s ∈ sent, s.accepted = true
  registered : ∀ url ∈ urls.all, ∀ model ∈ t.models,
    ⟨.registerInterest url model, true⟩ ∈ sent
  inOrder : ∀ call ∈ t.writes, call.Sublist (sent.filterMap fun s => s.request.write)
  written : ((sent.filterMap fun s => s.request.write).map Prod.snd).Perm t.modelEvents
  arrived : ∀ i url, urls.all[i]? = some url → ∃ reply,
    network i (.resumeToken url) = .ok reply ∧
      Arrived (validating i) reply.resumeToken t fuel

/-- The wait and the last reads send nothing of the script. -/
theorem run_sent : (t.run network waiting validating fuel urls).2 =
    (t.prepare network urls.all []).2 := by
  unfold SyncTest.run
  cases hprepare : t.prepare network urls.all [] with
  | mk result sent =>
    cases result with
    | error err => rfl
    | ok tokens =>
      simp only
      cases waitForEventCount waiting urls.all t.eventCids tokens fuel with
      | none => rfl
      | some outcome =>
        cases outcome with
        | error err => rfl
        | ok _ => rfl

/-- A test that passes has come to its last reads. -/
theorem run_eq_ok (h : (t.run network waiting validating fuel urls).1 = some (.ok ())) :
    ∃ tokens sent, t.prepare network urls.all [] = (.ok tokens, sent) ∧
      validate validating t.eventCids (sortModelEvents t.modelEvents) fuel 0 tokens =
        some (.ok ()) := by
  unfold SyncTest.run at h
  cases hprepare : t.prepare network urls.all [] with
  | mk result sent =>
    rw [hprepare] at h
    cases result with
    | error err => cases h
    | ok tokens =>
      simp only at h
      refine ⟨tokens, sent, rfl, ?_⟩
      cases hwait : waitForEventCount waiting urls.all t.eventCids tokens fuel with
      | none =>
        rw [hwait] at h
        cases h
      | some outcome =>
        rw [hwait] at h
        cases outcome with
        | error err => cases h
        | ok _ => exact h

/-- The reads begin where the feeds ended before anything was written. -/
theorem arrived_of_validate {tokens : List String}
    (hprepare : t.prepare network urls.all [] = (.ok tokens, sent))
    (h : validate validating t.eventCids (sortModelEvents t.modelEvents) fuel 0 tokens =
      some (.ok ())) (i : Nat) (url : String) (hurl : urls.all[i]? = some url) :
    ∃ reply, network i (.resumeToken url) = .ok reply ∧
      Arrived (validating i) reply.resumeToken t fuel := by
  obtain ⟨tokens', log, htokens, hrest⟩ := Logged.bind_eq_ok hprepare
  obtain ⟨_, log', _, hreturn⟩ := Logged.bind_eq_ok hrest
  cases hreturn
  obtain ⟨_, hall⟩ := getResumeTokens_eq_ok htokens
  obtain ⟨reply, hreply, hget⟩ := hall i url hurl
  rw [List.length_nil, Nat.zero_add] at hreply
  obtain ⟨s, hread⟩ := validate_ok h i _ hget
  rw [Nat.zero_add] at hread
  exact ⟨reply, hreply, arrived_of_read hread⟩

/-- **A test that passes.** Whatever the nodes do, a test makes the requests
    of its script in their order, as far as it gets, and goes on only after the
    reply that is expected. If it passes, every node has been subscribed to
    every model, every event has been written once, and every node has
    delivered every event once, as it was written. -/
theorem sync_test_passed (network : Network) (waiting validating : Nat → Node) (fuel : Nat)
    (ht : SyncTests urls t script) :
    let outcome := t.run network waiting validating fuel urls
    outcome.2.map Sent.request <+: urls.all.map .resumeToken ++ script ∧
    (∀ s ∈ outcome.2.dropLast, s.accepted = true) ∧
    (outcome.1 = some (.ok ()) → Passed network validating fuel urls t outcome.2) := by
  have hasks : Asks network (t.prepare network urls.all) _ := prepare_asks ht
  obtain ⟨new, hnew, hfollows, hall⟩ := hasks.follows []
  obtain ⟨new', hnew', hstop⟩ := hasks.failStop []
  rw [List.nil_append] at hnew hnew'
  rw [asked_eq] at hfollows hall
  intro outcome
  have hsent : outcome.2 = new := run_sent.trans hnew
  have hsame : new' = new := hnew'.symm.trans hnew
  subst hsame
  rw [hsent]
  refine ⟨hfollows, hstop.1, ?_⟩
  intro hok
  obtain ⟨tokens, sent, hprepare, hvalidate⟩ := run_eq_ok hok
  have hall := hall tokens (by rw [hprepare])
  have hgood := hstop.2 (by rw [hprepare]; rfl)
  have hwrites := written_eq hall
  exact {
    accepted := hgood
    registered := by
      intro url hurl model hmodel
      refine mem_of_accepted ?_ hgood
      rw [hall]
      exact List.mem_append_right _ (ht.registered url hurl model hmodel)
    inOrder := by
      rw [hwrites]
      exact ht.interleaves.sublist
    written := by
      rw [hwrites, ← ht.writes_events]
      exact ht.interleaves.perm.map _
    arrived := arrived_of_validate hprepare hvalidate }

end passes

/-! ## Section 5: When a test passes -/

/-- A feed that follows a log, to which the events are new, and which has all
    of them in time, each once and as it was written. -/
structure Delivers (node : Node) (token : String) (events : List ReconEvent) (fuel : Nat)
    (log : Log) (sent : List String) (r : Nat) : Prop where
  follows : node.Follows log
  start : sent <+: log.upTo 0
  position : log.position token = sent.length
  nodup : ∀ n, (log.upTo n).Nodup
  stored : ∀ event ∈ events, event.id ∈ log.upTo r ∧ event.id ∉ sent ∧
    log.stored event.id = event
  inTime : ∀ n < lastRound log sent r, node.elapsed n ≤ READ_EVENTS_TIMEOUT_MS
  enough : lastRound log sent r < fuel

section succeeds

variable {network : Network} {waiting validating : Nat → Node} {fuel : Nat} {urls : CeramicUrls}
  {t : SyncTest} {script : List NodeRequest}

theorem Delivers.read {node : Node} {token : String} {log : Log} {sent : List String} {r : Nat}
    (h : Delivers node token t.modelEvents fuel log sent r) (hids : t.eventCids.Nodup) :
    ∃ s, readEvents node token t.eventCids READ_EVENTS_TIMEOUT_MS fuel =
      some (.ok (sortModelEvents t.modelEvents, s)) := by
  have hnew : ∀ cid ∈ t.eventCids, cid ∈ log.upTo r ∧ cid ∉ sent := by
    intro cid hcid
    obtain ⟨event, hevent, rfl⟩ := List.mem_map.mp hcid
    obtain ⟨hlog, hsent, _⟩ := h.stored event hevent
    exact ⟨hlog, hsent⟩
  obtain ⟨s, m, hloop, hs, hlen⟩ := readLoop_from_token h.follows h.start h.position hnew hids
    h.inTime h.enough
  have hread := readEvents_of_all h.follows (fun cid hcid => (hnew cid hcid).1) hids (h.nodup m)
    hloop hs hlen
  have hstored : t.eventCids.map log.stored = t.modelEvents := by
    unfold SyncTest.eventCids
    rw [List.map_map]
    refine (List.map_congr_left fun event hevent => ?_).trans (List.map_id _)
    exact (h.stored event hevent).2.2
  rw [hstored] at hread
  exact ⟨s, hread⟩

theorem waitForUrls_succeeds {nodes : Nat → Node} {eventCids : List String} {tokens : List String}
    {i : Nat} (h : ∀ j token, tokens[j]? = some token → ∃ events s,
      readEvents (nodes (i + j)) token eventCids READ_EVENTS_TIMEOUT_MS fuel =
        some (.ok (events, s)) ∧ eventCids.length ≤ events.length) :
    waitForUrls nodes eventCids fuel i tokens = some (.ok ()) := by
  induction tokens generalizing i with
  | nil => rfl
  | cons token tokens ih =>
    obtain ⟨events, s, hread, hlen⟩ := h 0 token rfl
    have hnot : ¬ events.length < eventCids.length := by omega
    rw [Nat.add_zero] at hread
    unfold waitForUrls
    rw [hread]
    simp only [if_neg hnot]
    refine ih ?_
    intro j token' hj
    obtain ⟨events', s', hread', hlen'⟩ := h (j + 1) token' (by simpa using hj)
    refine ⟨events', s', ?_, hlen'⟩
    rw [← hread']
    congr 2
    omega

theorem validate_succeeds {nodes : Nat → Node} {eventCids tokens : List String}
    {sorted : List ReconEvent} {i : Nat} (h : ∀ j token, tokens[j]? = some token → ∃ s,
      readEvents (nodes (i + j)) token eventCids READ_EVENTS_TIMEOUT_MS fuel =
        some (.ok (sorted, s))) :
    validate nodes eventCids sorted fuel i tokens = some (.ok ()) := by
  induction tokens generalizing i with
  | nil => rfl
  | cons token tokens ih =>
    obtain ⟨s, hread⟩ := h 0 token rfl
    rw [Nat.add_zero] at hread
    unfold validate
    rw [hread]
    simp only [if_true]
    refine ih ?_
    intro j token' hj
    obtain ⟨s', hread'⟩ := h (j + 1) token' (by simpa using hj)
    refine ⟨s', ?_⟩
    rw [← hread']
    congr 2
    omega

/-- **A test that does not fail.** Each test passes, in whatever order its
    concurrent writes are sent, if all requests have the expected replies, its
    events are distinct, and every feed delivers them in time. -/
theorem sync_test_succeeds (ht : SyncTests urls t script) (hhealthy : Healthy network)
    (hids : t.eventCids.Nodup)
    (hfeeds : ∀ i url reply, urls.all[i]? = some url → network i (.resumeToken url) = .ok reply →
      (∃ log sent r, Delivers (waiting i) reply.resumeToken t.modelEvents fuel log sent r) ∧
      (∃ log sent r, Delivers (validating i) reply.resumeToken t.modelEvents fuel log sent r)) :
    (t.run network waiting validating fuel urls).1 = some (.ok ()) := by
  obtain ⟨tokens, sent, hprepare⟩ := (prepare_asks ht).answered hhealthy []
  obtain ⟨tokens', log, htokens, hrest⟩ := Logged.bind_eq_ok hprepare
  obtain ⟨_, log', _, hreturn⟩ := Logged.bind_eq_ok hrest
  cases hreturn
  obtain ⟨hlen, hall⟩ := getResumeTokens_eq_ok htokens
  have hdelivers : ∀ j token, tokens[j]? = some token →
      (∃ log sent r, Delivers (waiting j) token t.modelEvents fuel log sent r) ∧
      (∃ log sent r, Delivers (validating j) token t.modelEvents fuel log sent r) := by
    intro j token hj
    obtain ⟨hj', _⟩ := List.getElem?_eq_some_iff.mp hj
    have hurl := List.getElem?_eq_getElem (hlen ▸ hj')
    obtain ⟨reply, hreply, hget⟩ := hall j _ hurl
    rw [List.length_nil, Nat.zero_add] at hreply
    cases hj.symm.trans hget
    exact hfeeds j _ reply hurl hreply
  have hwait : waitForEventCount waiting urls.all t.eventCids tokens fuel = some (.ok ()) := by
    have hnot : ¬ urls.all.length ≠ tokens.length := by omega
    unfold waitForEventCount
    rw [if_neg hnot]
    refine waitForUrls_succeeds ?_
    intro j token hj
    obtain ⟨⟨_, _, _, hfeed⟩, _⟩ := hdelivers j token hj
    obtain ⟨s, hread⟩ := hfeed.read hids
    rw [Nat.zero_add]
    refine ⟨_, s, hread, ?_⟩
    unfold sortModelEvents SyncTest.eventCids
    rw [List.length_mergeSort, List.length_map]
  have hvalidate : validate validating t.eventCids (sortModelEvents t.modelEvents) fuel 0 tokens =
      some (.ok ()) := by
    refine validate_succeeds ?_
    intro j token hj
    obtain ⟨_, _, _, _, hfeed⟩ := hdelivers j token hj
    rw [Nat.zero_add]
    exact hfeed.read hids
  unfold SyncTest.run
  rw [hprepare]
  simp only [hwait, hvalidate]

end succeeds

/-! ### Two nodes, one event written to each -/

section twoEach

private def twoUrls : CeramicUrls := ⟨"http://ceramic-0", "http://ceramic-1", []⟩

private def written : List ReconEvent := [⟨"e1", ""⟩, ⟨"e2", ""⟩]

private def toFirst : String × ReconEvent := ("http://ceramic-0", ⟨"e1", ""⟩)

private def toSecond : String × ReconEvent := ("http://ceramic-1", ⟨"e2", ""⟩)

private theorem second_first :
    Interleaves (twoNodesWrites twoUrls written) [toSecond, toFirst] := by
  have hdone : Interleaves [[], []] ([] : List (String × ReconEvent)) := .done (by decide)
  have hlast : Interleaves [[toFirst], []] [toFirst] := .next [] hdone
  exact .next [[toFirst]] hlast

private def answering : Network := fun _ request => .ok ⟨request.status, ""⟩

private def bothEvents : Nat → List String := fun _ => ["e2", "e1"]

private theorem bothEvents_delivered :
    Delivers (oneByOne bothEvents) "" written 3 (growingLog bothEvents) [] 0 where
  follows := oneByOne_follows fun _ => List.prefix_rfl
  start := List.nil_prefix
  position := rfl
  nodup := fun _ => by
    show ["e2", "e1"].Nodup
    decide
  stored := by decide
  inTime := by
    intro n hn
    have hn : n < 2 := hn
    show 100 * n ≤ 60 * 1000
    omega
  enough := by decide

theorem two_nodes_pass : ((twoNodesSync twoUrls "model" written ⟨_, second_first⟩).run answering
    (fun _ => oneByOne bothEvents) (fun _ => oneByOne bothEvents) 3 twoUrls).1 = some (.ok ()) :=
  sync_test_succeeds (.twoNodes "model" written ⟨_, second_first⟩) (fun _ request => ⟨_, rfl, rfl⟩)
    (by decide) (by
      intro i url reply _ hreply
      cases hreply
      exact ⟨⟨_, _, _, bothEvents_delivered⟩, _, _, _, bothEvents_delivered⟩)

theorem two_nodes_checked :
    let outcome := (twoNodesSync twoUrls "model" written ⟨_, second_first⟩).run answering
      (fun _ => oneByOne bothEvents) (fun _ => oneByOne bothEvents) 3 twoUrls
    outcome.2.map Sent.request <+: twoUrls.all.map .resumeToken ++
      (twoUrls.all.map (.registerInterest · "model") ++
        [toSecond, toFirst].map fun write => .writeEvent write.1 write.2) ∧
    (∀ s ∈ outcome.2.dropLast, s.accepted = true) ∧
    (outcome.1 = some (.ok ()) → Passed answering (fun _ => oneByOne bothEvents) 3 twoUrls
      (twoNodesSync twoUrls "model" written ⟨_, second_first⟩) outcome.2) :=
  sync_test_passed answering _ _ 3 (.twoNodes "model" written ⟨_, second_first⟩)

end twoEach

end Suite
