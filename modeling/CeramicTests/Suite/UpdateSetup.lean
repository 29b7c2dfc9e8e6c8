import CeramicTests.Framework.Logged
import CeramicTests.Suite.NodePolling
import CeramicTests.Suite.TestTable
import CeramicTests.Suite.UpdateSuite

/-! # Before the update suite

    The `beforeAll` of `update.test.ts` waits for the table of stream
    requests. Then it creates a model on the first node and has each node
    index it, one after another, every node with an admin DID of its own.
    Jest runs no test of the file if it throws.

    - Section 1: `createTestTable`, `createDid` and `indexModelOnNode`
    - Section 2: the set-up, and the file with its tests
    - Section 3: the nodes are set up in turn
    - Section 4: a set-up that gets through
-/

namespace Suite.Update

open Framework

/-! ## Section 1: The table, and one node -/

/-- `newCeramic`, with the DID that is given. -/
structure CeramicNode where
  url : String
  did : String
  deriving DecidableEq, Repr

inductive NodeCall where
  | createModel
  | loadStream (modelId : String)
  | startIndexingModels (modelId : String)
  | waitForIndexing (modelId : String)
  deriving DecidableEq, Repr

/-- A call of the set-up to the node with this index. -/
structure Asked where
  index : Nat
  node : CeramicNode
  call : NodeCall
  ok : Bool
  deriving DecidableEq, Repr

inductive SetUpError where
  | thrown (err : String)
  | waits
  deriving DecidableEq, Repr

/-- What the set-up meets: the table, at each round of the wait for it, DIDs,
    and the node of each index. `waitForConditionOrTimeout` belongs to a
    package. It is given the outcomes of the condition, and fulfills or
    throws. -/
structure Nodes where
  describeTable : Nat → Except String (Option TableStatus)
  createTable : Nat → Except String Unit
  didOfSeed : String → Except String String
  randomDid : Nat → Except String String
  createModel : CeramicNode → Except String String
  loadStream : Nat → CeramicNode → String → Nat → Except String Unit
  waitForConditionOrTimeout : (Nat → Bool) → Except String Unit
  startIndexingModels : Nat → CeramicNode → String → Except String Unit
  indexedModels : Nat → CeramicNode → Session (List String)

abbrev SetUp (α : Type) := Logged Asked SetUpError α

section model

variable (nodes : Nodes)

/-- One round of `createTestTable`, which may return. -/
def tableRound (round : Nat) : Option Unit :=
  let described : TableReply := match nodes.describeTable round with
    | .ok status => .described status
    | .error err => .error err
  let creation : TableReply := match nodes.createTable round with
    | .ok _ => .created
    | .error err => .error err
  match CreateTestTable.describing.resume described with
  | .returned => some ()
  | .describing => none
  -- the next round looks at what has been created
  | .creating => if CreateTestTable.creating.resume creation = .returned then some () else none

/-- The end of the wait for the table, within so many rounds. -/
def createTestTable (fuel : Nat) : Except SetUpError Unit :=
  match pollFrom (tableRound nodes) fuel 0 with
  | none => .error .waits
  | some _ => .ok ()

/-- A seed that is missing or empty makes a random DID. -/
def createDid (index : Nat) (seed : Option String) : Except SetUpError String :=
  match seed with
  | some seed =>
    if seed = "" then (nodes.randomDid index).mapError .thrown
    else (nodes.didOfSeed seed).mapError .thrown
  | none => (nodes.randomDid index).mapError .thrown

def ask (index : Nat) (node : CeramicNode) (call : NodeCall) {α : Type}
    (outcome : Except SetUpError α) : SetUp α :=
  Logged.call (fun _ => outcome) fun answer => ⟨index, node, call, answer.isOk⟩

/-- The condition of `indexModelOnNode`: an error counts as `false`. -/
def isLoaded (index : Nat) (node : CeramicNode) (modelId : String) (attempt : Nat) : Bool :=
  (nodes.loadStream index node modelId attempt).isOk

def INDEX_TIMEOUT_MS : Nat := 1000 * 10

/-- The end of the wait for the index, within so many rounds. -/
def indexed (fuel : Nat) (index : Nat) (node : CeramicNode) (modelId : String) :
    Except SetUpError Unit :=
  match waitForIndexingOrTimeout (nodes.indexedModels index node) modelId INDEX_TIMEOUT_MS fuel with
  | none => .error .waits
  | some (.error err) => .error (.thrown err)
  | some (.ok _) => .ok ()

def indexModelOnNode (fuel : Nat) (index : Nat) (node : CeramicNode) (modelId : String) :
    SetUp Unit := do
  ask index node (.loadStream modelId)
    ((nodes.waitForConditionOrTimeout (isLoaded nodes index node modelId)).mapError .thrown)
  ask index node (.startIndexingModels modelId)
    ((nodes.startIndexingModels index node modelId).mapError .thrown)
  ask index node (.waitForIndexing modelId) (indexed nodes fuel index node modelId)

/-! ## Section 2: All nodes -/

def missingSeeds (urls seeds : Nat) : String :=
  "Must provide an admin DID seed for each node. Number of nodes: " ++ toString urls ++
    ", number of seeds: " ++ toString seeds

/-- The loop over the nodes after the first one. -/
def indexOnOthers (adminSeeds : List String) (fuel : Nat) (modelId : String) :
    Nat → List String → SetUp Unit
  | _, [] => pure ()
  | i, url :: urls => do
    let did ← Logged.ofExcept (createDid nodes i adminSeeds[i]?)
    indexModelOnNode nodes fuel i ⟨url, did⟩ modelId
    indexOnOthers adminSeeds fuel modelId (i + 1) urls

/-- `beforeAll`. The result is the model that the tests use. -/
def beforeAll (composeDbUrls adminSeeds : List String) (fuel : Nat) : SetUp String := do
  Logged.ofExcept (createTestTable nodes fuel)
  if adminSeeds.length < composeDbUrls.length then
    Logged.throw (.thrown (missingSeeds composeDbUrls.length adminSeeds.length))
  else do
    let did0 ← Logged.ofExcept (createDid nodes 0 adminSeeds[0]?)
    -- an empty list prints as "undefined"
    let ceramicNode0 : CeramicNode := ⟨composeDbUrls.headD "undefined", did0⟩
    let modelId ← ask 0 ceramicNode0 .createModel ((nodes.createModel ceramicNode0).mapError .thrown)
    indexModelOnNode nodes fuel 0 ceramicNode0 modelId
    indexOnOthers nodes adminSeeds fuel modelId 1 composeDbUrls.tail
    pure modelId

/-- The file: what the set-up asks the nodes, and what the tests call. -/
def updateFile (composeDbUrls adminSeeds : List String) (fuel : Nat)
    (rejects : Nat → Option String) : List Asked × List Entry :=
  match beforeAll nodes composeDbUrls adminSeeds fuel [] with
  | (.ok _, asked) => (asked, updateSuite rejects composeDbUrls)
  | (.error _, asked) => (asked, [])

end model

/-! ## Section 3: The nodes are set up in turn -/

/-- The table is ACTIVE at some round of the wait for it. -/
def TableReady (nodes : Nodes) : Prop := ∃ round, nodes.describeTable round = .ok (some .ACTIVE)

/-- The node of this index, under the DID of its seed. -/
structure IsNode (nodes : Nodes) (composeDbUrls adminSeeds : List String) (i : Nat)
    (node : CeramicNode) : Prop where
  url : node.url = composeDbUrls.getD i "undefined"
  did : createDid nodes i adminSeeds[i]? = .ok node.did

/-- The node gets through `indexModelOnNode`. -/
structure Ready (nodes : Nodes) (i : Nat) (node : CeramicNode) (modelId : String) : Prop where
  loaded : nodes.waitForConditionOrTimeout (isLoaded nodes i node modelId) = .ok ()
  started : nodes.startIndexingModels i node modelId = .ok ()
  indexes : Indexes (nodes.indexedModels i node) modelId INDEX_TIMEOUT_MS (.ok true)

/-- The nodes before this index have got through. -/
def ReadyBefore (nodes : Nodes) (composeDbUrls adminSeeds : List String) (n : Nat)
    (modelId : String) : Prop :=
  ∀ j, j < n → ∃ node, IsNode nodes composeDbUrls adminSeeds j node ∧ Ready nodes j node modelId

/-- The model that the first node has created. -/
def Created (nodes : Nodes) (composeDbUrls adminSeeds : List String) (modelId : String) : Prop :=
  ∃ node, IsNode nodes composeDbUrls adminSeeds 0 node ∧ nodes.createModel node = .ok modelId

def NodeCall.modelId? : NodeCall → Option String
  | .createModel => none
  | .loadStream modelId => some modelId
  | .startIndexingModels modelId => some modelId
  | .waitForIndexing modelId => some modelId

/-- Each node is asked with its own DID, about the one model, and when the
    table is ready and the nodes before it have got through. -/
structure InTurn (nodes : Nodes) (composeDbUrls adminSeeds : List String) (a : Asked) : Prop where
  table : TableReady nodes
  node : IsNode nodes composeDbUrls adminSeeds a.index a.node
  first : a.call = .createModel → a.index = 0
  model : ∀ modelId, a.call.modelId? = some modelId →
    Created nodes composeDbUrls adminSeeds modelId ∧
      ReadyBefore nodes composeDbUrls adminSeeds a.index modelId
  started : ∀ modelId, a.call = .startIndexingModels modelId →
    nodes.waitForConditionOrTimeout (isLoaded nodes a.index a.node modelId) = .ok ()
  awaited : ∀ modelId, a.call = .waitForIndexing modelId →
    nodes.startIndexingModels a.index a.node modelId = .ok ()

section turns

variable {nodes : Nodes} {composeDbUrls adminSeeds : List String} {fuel i : Nat}
  {node : CeramicNode} {modelId : String}

theorem tableRound_eq_some {round : Nat} :
    tableRound nodes round = some () ↔ nodes.describeTable round = .ok (some .ACTIVE) := by
  have hcreating : ∀ reply : TableReply, CreateTestTable.creating.resume reply ≠ .returned :=
    fun reply h => by cases h
  unfold tableRound
  cases nodes.describeTable round with
  | error err => simp [CreateTestTable.resume]
  | ok status =>
    by_cases hactive : status = some .ACTIVE <;> simp [CreateTestTable.resume, hactive]

theorem ready_of_createTestTable (h : createTestTable nodes fuel = .ok ()) : TableReady nodes := by
  unfold createTestTable at h
  cases hpoll : pollFrom (tableRound nodes) fuel 0 with
  | none =>
    rw [hpoll] at h
    cases h
  | some _ =>
    obtain ⟨round, hround⟩ := polls_iff.mp (polls_of_fuel hpoll)
    exact ⟨round, tableRound_eq_some.mp hround.decides⟩

theorem ask_spec {P : Asked → Prop} {call : NodeCall} {α : Type} {outcome : Except SetUpError α}
    (hP : ∀ ok, P ⟨i, node, call, ok⟩) :
    Logged.Spec P (ask i node call outcome) (fun x => outcome = .ok x) (fun _ => True) :=
  Logged.Spec.call (fun _ => hP _) (fun _ _ h => h) fun _ _ _ => trivial

theorem mapError_eq_ok {α : Type} {outcome : Except String α} {x : α}
    (h : outcome.mapError SetUpError.thrown = .ok x) : outcome = .ok x := by
  cases outcome with
  | error err => cases h
  | ok y => exact congrArg Except.ok (Except.ok.inj h)

theorem indexes_of_indexed (h : indexed nodes fuel i node modelId = .ok ()) :
    Indexes (nodes.indexedModels i node) modelId INDEX_TIMEOUT_MS (.ok true) := by
  unfold indexed at h
  cases hwait : waitForIndexingOrTimeout (nodes.indexedModels i node) modelId INDEX_TIMEOUT_MS fuel with
  | none =>
    rw [hwait] at h
    cases h
  | some result =>
    cases result with
    | error err =>
      rw [hwait] at h
      cases h
    | ok isIndexed =>
      have hindexes : Indexes (nodes.indexedModels i node) modelId INDEX_TIMEOUT_MS (.ok isIndexed) :=
        polls_of_fuel hwait
      rw [(listed_of_indexes hindexes).1] at hindexes
      exact hindexes

theorem indexModelOnNode_spec (htable : TableReady nodes)
    (hnode : IsNode nodes composeDbUrls adminSeeds i node)
    (hcreated : Created nodes composeDbUrls adminSeeds modelId)
    (hbefore : ReadyBefore nodes composeDbUrls adminSeeds i modelId) :
    Logged.Spec (InTurn nodes composeDbUrls adminSeeds)
      (indexModelOnNode nodes fuel i node modelId) (fun _ => Ready nodes i node modelId)
      (fun _ => True) := by
  have hturn : ∀ call ok, call.modelId? = some modelId →
      (∀ m, call = .startIndexingModels m →
        nodes.waitForConditionOrTimeout (isLoaded nodes i node m) = .ok ()) →
      (∀ m, call = .waitForIndexing m → nodes.startIndexingModels i node m = .ok ()) →
      InTurn nodes composeDbUrls adminSeeds ⟨i, node, call, ok⟩ := by
    intro call ok hmodel hstarted hawaited
    refine ⟨htable, hnode, ?_, ?_, hstarted, hawaited⟩
    · intro hcall
      have hcall : call = .createModel := hcall
      rw [hcall] at hmodel
      cases hmodel
    · intro m hm
      cases hmodel.symm.trans hm
      exact ⟨hcreated, hbefore⟩
  unfold indexModelOnNode
  -- three calls, each with what the one before it has settled
  refine (ask_spec fun ok => hturn _ ok rfl (by simp) (by simp)).bind fun _ hloaded => ?_
  have hloaded := mapError_eq_ok hloaded
  refine (ask_spec fun ok => hturn _ ok rfl ?_ (by simp)).bind fun _ hstarted => ?_
  · intro m hm
    cases hm
    exact hloaded
  have hstarted := mapError_eq_ok hstarted
  refine (ask_spec fun ok => hturn _ ok rfl (by simp) ?_).weaken (fun _ h => h) ?_ fun _ h => h
  · intro m hm
    cases hm
    exact hstarted
  · intro _ hindexed
    exact ⟨hloaded, hstarted, indexes_of_indexed hindexed⟩

theorem ReadyBefore.succ (h : ReadyBefore nodes composeDbUrls adminSeeds i modelId)
    (hnode : IsNode nodes composeDbUrls adminSeeds i node) (hready : Ready nodes i node modelId) :
    ReadyBefore nodes composeDbUrls adminSeeds (i + 1) modelId := by
  intro j hj
  rcases Nat.lt_succ_iff_lt_or_eq.mp hj with hlt | rfl
  · exact h j hlt
  · exact ⟨node, hnode, hready⟩

/-- The loop goes on where the nodes before it have got through. -/
theorem indexOnOthers_spec (htable : TableReady nodes)
    (hcreated : Created nodes composeDbUrls adminSeeds modelId) (urls : List String) :
    ∀ i, composeDbUrls.drop i = urls → ReadyBefore nodes composeDbUrls adminSeeds i modelId →
    Logged.Spec (InTurn nodes composeDbUrls adminSeeds)
      (indexOnOthers nodes adminSeeds fuel modelId i urls)
      (fun _ => ReadyBefore nodes composeDbUrls adminSeeds composeDbUrls.length modelId)
      (fun _ => True) := by
  induction urls with
  | nil =>
    intro i hdrop hbefore
    have hall : composeDbUrls.length ≤ i := List.drop_eq_nil_iff.mp hdrop
    exact Logged.Spec.pure fun j hj => hbefore j (by omega)
  | cons url urls ih =>
    intro i hdrop hbefore
    have hurl : composeDbUrls[i]? = some url := by
      rw [← List.head?_drop, hdrop]
      rfl
    unfold indexOnOthers
    refine (Logged.Spec.ofExcept (fun _ h => h) fun _ _ => trivial).bind fun did hdid => ?_
    have hnode : IsNode nodes composeDbUrls adminSeeds i ⟨url, did⟩ :=
      ⟨by simp [List.getD, hurl], hdid⟩
    refine (indexModelOnNode_spec htable hnode hcreated hbefore).bind fun _ hready => ?_
    refine ih (i + 1) ?_ (hbefore.succ hnode hready)
    rw [← List.drop_drop, hdrop]
    rfl

/-- The set-up waits for the table, checks the seeds, and goes through the
    nodes. -/
theorem beforeAll_spec :
    Logged.Spec (InTurn nodes composeDbUrls adminSeeds)
      (beforeAll nodes composeDbUrls adminSeeds fuel)
      (fun modelId => TableReady nodes ∧ composeDbUrls.length ≤ adminSeeds.length ∧
        Created nodes composeDbUrls adminSeeds modelId ∧
        ReadyBefore nodes composeDbUrls adminSeeds (max 1 composeDbUrls.length) modelId)
      (fun _ => True) := by
  unfold beforeAll
  refine (Logged.Spec.ofExcept (fun _ h => ready_of_createTestTable h)
    fun _ _ => trivial).bind fun _ htable => ?_
  by_cases hseeds : adminSeeds.length < composeDbUrls.length
  · rw [if_pos hseeds]
    exact Logged.Spec.throw trivial
  rw [if_neg hseeds]
  refine (Logged.Spec.ofExcept (fun _ h => h) fun _ _ => trivial).bind fun did0 hdid => ?_
  have hnode : IsNode nodes composeDbUrls adminSeeds 0 ⟨composeDbUrls.headD "undefined", did0⟩ :=
    ⟨by cases composeDbUrls <;> rfl, hdid⟩
  refine (ask_spec fun ok => ⟨htable, hnode, fun _ => rfl, by simp [NodeCall.modelId?], by simp,
    by simp⟩).bind fun modelId hmodel => ?_
  have hcreated : Created nodes composeDbUrls adminSeeds modelId :=
    ⟨_, hnode, mapError_eq_ok hmodel⟩
  have hnone : ReadyBefore nodes composeDbUrls adminSeeds 0 modelId :=
    fun j hj => absurd hj (Nat.not_lt_zero j)
  refine (indexModelOnNode_spec htable hnode hcreated hnone).bind fun _ hready => ?_
  have hfirst := hnone.succ hnode hready
  refine (indexOnOthers_spec htable hcreated composeDbUrls.tail 1 List.drop_one hfirst).bind
    fun _ hall => Logged.Spec.pure ⟨htable, not_lt.mp hseeds, hcreated, ?_⟩
  intro j hj
  by_cases hzero : j < 1
  · exact hfirst j hzero
  · exact hall j (by omega)

/-- With too few seeds no node is asked, and no model comes of it. -/
theorem beforeAll_missing (h : adminSeeds.length < composeDbUrls.length) (log : List Asked) :
    ∃ err, beforeAll nodes composeDbUrls adminSeeds fuel log = (.error err, log) := by
  unfold beforeAll
  rw [if_pos h]
  -- the seeds are counted only when the table is ready
  cases createTestTable nodes fuel with
  | error err => exact ⟨err, rfl⟩
  | ok _ => exact ⟨_, rfl⟩

/-- `waitForConditionOrTimeout` fulfills only after its condition held. -/
def FulfillsOnlyIfHeld (nodes : Nodes) : Prop :=
  ∀ condition, nodes.waitForConditionOrTimeout condition = .ok () →
    ∃ attempt, condition attempt = true

/-- A node that has got through has loaded the model. -/
theorem Ready.has_loaded (h : Ready nodes i node modelId) (hwait : FulfillsOnlyIfHeld nodes) :
    ∃ attempt, nodes.loadStream i node modelId attempt = .ok () := by
  obtain ⟨attempt, hheld⟩ := hwait _ h.loaded
  unfold isLoaded at hheld
  cases hload : nodes.loadStream i node modelId attempt with
  | error err =>
    rw [hload] at hheld
    cases hheld
  | ok _ => exact ⟨attempt, hload⟩

/-- **In turn.** Whatever the nodes answer,

    - no node is asked anything if there are too few seeds, and no test runs;
    - otherwise every node is asked with the DID of its own seed, about the
      model of the first one, and only when the table is ready and all nodes
      before it have got through: their wait for the model has ended well,
      and they have started to index it and have listed it;
    - a test of the file makes a call only when all nodes have;
    - a node that has got through has loaded the model, if
      `waitForConditionOrTimeout` does what its name says. -/
theorem set_up_in_turn (nodes : Nodes) (composeDbUrls adminSeeds : List String) (fuel : Nat)
    (rejects : Nat → Option String) :
    (adminSeeds.length < composeDbUrls.length →
      updateFile nodes composeDbUrls adminSeeds fuel rejects = ([], [])) ∧
    (∀ a ∈ (updateFile nodes composeDbUrls adminSeeds fuel rejects).1,
      InTurn nodes composeDbUrls adminSeeds a) ∧
    (∀ e ∈ (updateFile nodes composeDbUrls adminSeeds fuel rejects).2, ∃ modelId,
      Created nodes composeDbUrls adminSeeds modelId ∧
      ∀ i, i < composeDbUrls.length → ∃ node, IsNode nodes composeDbUrls adminSeeds i node ∧
        Ready nodes i node modelId ∧ ∃ m, Listed (nodes.indexedModels i node) modelId m) ∧
    (FulfillsOnlyIfHeld nodes → ∀ i node modelId, Ready nodes i node modelId →
      ∃ attempt, nodes.loadStream i node modelId attempt = .ok ()) := by
  have hspec : Logged.Spec (InTurn nodes composeDbUrls adminSeeds)
      (beforeAll nodes composeDbUrls adminSeeds fuel) _ _ := beforeAll_spec
  obtain ⟨asked, hlog, hturns⟩ := hspec.actions []
  rw [List.nil_append] at hlog
  refine ⟨?_, ?_, ?_, fun hwait i node modelId hready => hready.has_loaded hwait⟩
  · intro hseeds
    obtain ⟨err, hfails⟩ : ∃ err, beforeAll nodes composeDbUrls adminSeeds fuel [] =
        (.error err, []) := beforeAll_missing hseeds []
    unfold updateFile
    rw [hfails]
  · have hasked : (updateFile nodes composeDbUrls adminSeeds fuel rejects).1 = asked := by
      rw [← hlog]
      unfold updateFile
      rcases beforeAll nodes composeDbUrls adminSeeds fuel [] with ⟨_ | _, _⟩ <;> rfl
    rw [hasked]
    exact hturns
  · unfold updateFile
    cases hsetUp : beforeAll nodes composeDbUrls adminSeeds fuel [] with
    | mk outcome asked =>
      cases outcome with
      | error err => simp
      | ok modelId =>
        obtain ⟨_, _, hcreated, hall⟩ := hspec.result [] modelId (by rw [hsetUp])
        intro e _
        refine ⟨modelId, hcreated, ?_⟩
        intro i hi
        obtain ⟨node, hnode, hready⟩ := hall i (by omega)
        exact ⟨node, hnode, hready, (listed_of_indexes hready.indexes).2⟩

end turns

/-! ## Section 4: A set-up that gets through -/

section returns

variable {nodes : Nodes} {composeDbUrls adminSeeds : List String} {i : Nat} {node : CeramicNode}
  {modelId : String}

theorem IsNode.unique {node' : CeramicNode} (h : IsNode nodes composeDbUrls adminSeeds i node)
    (h' : IsNode nodes composeDbUrls adminSeeds i node') : node = node' := by
  obtain ⟨url, did⟩ := node
  obtain ⟨url', did'⟩ := node'
  have hurl : url = url' := h.url.trans h'.url.symm
  have hdid : did = did' := Except.ok.inj (h.did.symm.trans h'.did)
  rw [hurl, hdid]

/-- The wait for a table that gets ready. -/
theorem createTestTable_returns (h : TableReady nodes) :
    Logged.Returns (A := Asked) (fun fuel => Logged.ofExcept (createTestTable nodes fuel)) () := by
  obtain ⟨round, hround⟩ := h
  have hdecides : (tableRound nodes round).isSome = true := by
    rw [tableRound_eq_some.mpr hround]
    rfl
  obtain ⟨_, n, hn⟩ := exists_polls hdecides
  refine ⟨n, fun fuel hfuel log => ⟨log, ?_⟩⟩
  have hready : createTestTable nodes fuel = .ok () := by
    unfold createTestTable
    rw [hn fuel hfuel]
  show Logged.ofExcept (createTestTable nodes fuel) log = _
  rw [hready]
  rfl

/-- A call that does not depend on the fuel. -/
theorem ask_returns {call : NodeCall} {α : Type} {outcome : Except String α} {x : α}
    (h : outcome = .ok x) :
    Logged.Returns (fun _ => ask i node call (outcome.mapError SetUpError.thrown)) x :=
  Logged.Returns.call ⟨0, fun _ _ => by rw [h]; rfl⟩

theorem indexModelOnNode_returns (h : Ready nodes i node modelId) :
    Logged.Returns (fun fuel => indexModelOnNode nodes fuel i node modelId) () := by
  have hindexed : ∃ n, ∀ fuel, n ≤ fuel → indexed nodes fuel i node modelId = .ok () := by
    obtain ⟨n, hn⟩ := h.indexes
    refine ⟨n, fun fuel hfuel => ?_⟩
    unfold indexed
    rw [hn fuel hfuel]
  exact (ask_returns h.loaded).bind ((ask_returns h.started).bind (Logged.Returns.call hindexed))

theorem indexOnOthers_returns (urls : List String) :
    ∀ i, composeDbUrls.drop i = urls →
      ReadyBefore nodes composeDbUrls adminSeeds composeDbUrls.length modelId →
      Logged.Returns (fun fuel => indexOnOthers nodes adminSeeds fuel modelId i urls) () := by
  induction urls with
  | nil =>
    intro i _ _
    exact Logged.Returns.pure
  | cons url urls ih =>
    intro i hdrop hall
    have hurl : composeDbUrls[i]? = some url := by
      rw [← List.head?_drop, hdrop]
      rfl
    obtain ⟨hi, _⟩ := List.getElem?_eq_some_iff.mp hurl
    obtain ⟨node, hnode, hready⟩ := hall i hi
    have hself : (⟨url, node.did⟩ : CeramicNode) = node := by
      obtain ⟨url', did⟩ := node
      have hurl' := hnode.url
      simp only [List.getD, hurl, Option.getD_some] at hurl'
      rw [hurl']
    simp only [indexOnOthers, hnode.did, Logged.ofExcept_ok_bind, hself]
    refine (indexModelOnNode_returns hready).bind (ih (i + 1) ?_ hall)
    rw [← List.drop_drop, hdrop]
    rfl

/-- **A set-up gets through** exactly if the table gets ready, there are
    enough seeds, the first node creates the model, and every node gets
    through its own part. -/
theorem set_up_returns_iff (nodes : Nodes) (composeDbUrls adminSeeds : List String)
    (modelId : String) :
    Logged.Returns (fun fuel => beforeAll nodes composeDbUrls adminSeeds fuel) modelId ↔
      TableReady nodes ∧ composeDbUrls.length ≤ adminSeeds.length ∧
        Created nodes composeDbUrls adminSeeds modelId ∧
        ReadyBefore nodes composeDbUrls adminSeeds (max 1 composeDbUrls.length) modelId := by
  constructor
  · intro ⟨n, hn⟩
    obtain ⟨log, hreturns⟩ := hn n (Nat.le_refl n) []
    have hreturns : beforeAll nodes composeDbUrls adminSeeds n [] = (.ok modelId, log) := hreturns
    exact beforeAll_spec.result [] modelId (congrArg Prod.fst hreturns)
  · intro ⟨htable, hseeds, ⟨node, hnode, hmodel⟩, hall⟩
    obtain ⟨node', hnode', hready⟩ := hall 0 (by omega)
    cases hnode.unique hnode'
    have hself : (⟨composeDbUrls.headD "undefined", node.did⟩ : CeramicNode) = node := by
      obtain ⟨url, did⟩ := node
      have hurl : url = composeDbUrls.getD 0 "undefined" := hnode.url
      rw [hurl]
      cases composeDbUrls <;> rfl
    simp only [beforeAll, if_neg (not_lt.mpr hseeds), hnode.did, Logged.ofExcept_ok_bind, hself]
    have hothers := indexOnOthers_returns composeDbUrls.tail 1 List.drop_one
      (fun j hj => hall j (by omega))
    exact (createTestTable_returns htable).bind ((ask_returns hmodel).bind
      ((indexModelOnNode_returns hready).bind (hothers.bind Logged.Returns.pure)))

end returns

end Suite.Update
