import Mathlib.Data.List.Induction
import Mathlib.Data.List.Nodup

/-! # The picture of the network

    `topology.mjs` asks each node for its id and for its peers, and draws who
    is connected to whom. It adds an edge first, and a node only if that
    fails, for all failures alike.

    - Section 1: the graph package and the script
    - Section 2: one peer, and the peers of one node
    - Section 3: the two loops
    - Section 4: what is drawn
-/

namespace Suite.Topology

/-! ## Section 1: The script -/

/-- What the script uses of the package `graphology`. -/
structure GraphPackage (G : Type) where
  empty : G
  label : G → String → Option String
  edges : G → List (String × String)
  addNode : G → String → String → Except String G
  addEdge : G → String → String → Except String G

/-- A simple directed graph: a node is added once, and an edge once, between
    nodes that are there. What throws changes nothing. -/
structure GraphPackage.Simple {G : Type} (pkg : GraphPackage G) : Prop where
  empty_label : ∀ id, pkg.label pkg.empty id = none
  empty_edges : pkg.edges pkg.empty = []
  edge_ends : ∀ g a b, (a, b) ∈ pkg.edges g → pkg.label g a ≠ none ∧ pkg.label g b ≠ none
  addNode_new : ∀ g id label, pkg.label g id = none → ∃ g', pkg.addNode g id label = .ok g' ∧
    (∀ id', pkg.label g' id' = if id' = id then some label else pkg.label g id') ∧
    pkg.edges g' = pkg.edges g
  addNode_again : ∀ g id label, pkg.label g id ≠ none → ∃ err, pkg.addNode g id label = .error err
  addEdge_new : ∀ g a b, pkg.label g a ≠ none → pkg.label g b ≠ none → (a, b) ∉ pkg.edges g →
    ∃ g', pkg.addEdge g a b = .ok g' ∧ (∀ id, pkg.label g' id = pkg.label g id) ∧
      pkg.edges g' = pkg.edges g ++ [(a, b)]
  addEdge_throws : ∀ g a b,
    pkg.label g a = none ∨ pkg.label g b = none ∨ (a, b) ∈ pkg.edges g →
    ∃ err, pkg.addEdge g a b = .error err

/-- What the node at the `i`-th address answers. -/
structure Answers where
  peerId : Nat → Except String String
  peers : Nat → Except String (List String)

/-- `id.substr(id.length - 5, id.length)` -/
def short_id (id : String) : String :=
  let start : Int := id.length - 5
  -- a negative start counts from the end
  String.ofList (id.toList.drop (if start < 0 then (id.length + start).toNat else start.toNat))

def ownLabel (id addr : String) : String := short_id id ++ " - " ++ addr

def casLabel (id : String) : String := short_id id ++ " - CAS"

section script

variable {G : Type} (pkg : GraphPackage G) (answers : Answers)

/-- The first loop. An address stands for the id that it had last. -/
def addOwn (st : G × (String → Option String)) (addr : String × Nat) :
    Except String (G × (String → Option String)) := do
  let id ← answers.peerId addr.2
  let graph ← pkg.addNode st.1 id (ownLabel id addr.1)
  pure (graph, fun a => if a = addr.1 then some id else st.2 a)

/-- The body of the loop over the peers of a node. -/
def addPeer (id : String) (graph : G) (peer : String) : G :=
  match pkg.addEdge graph id peer with
  | .ok graph => graph
  | .error _ =>
    match pkg.addNode graph peer (casLabel peer) with
    | .error _ => graph
    | .ok graph =>
      match pkg.addEdge graph id peer with
      | .error _ => graph
      | .ok graph => graph

/-- The second loop. -/
def addPeers (addrsToID : String → Option String) (graph : G) (addr : String × Nat) :
    Except String G := do
  let peers ← answers.peers addr.2
  pure (peers.foldl (addPeer pkg ((addrsToID addr.1).getD "undefined")) graph)

/-- The graph that is drawn, unless a request or an `addNode` throws. -/
def topology (addrs : List String) : Except String G := do
  let (graph, addrsToID) ← addrs.zipIdx.foldlM (addOwn pkg answers) (pkg.empty, fun _ => none)
  addrs.zipIdx.foldlM (addPeers pkg answers addrsToID) graph

end script

/-! ## Section 2: Peers -/

section peers

variable {G : Type} {pkg : GraphPackage G} {id peer : String} {peers : List String} {g g' : G}

/-- The graph has come by these peers of a node. -/
structure Adds (pkg : GraphPackage G) (id : String) (peers : List String) (g g' : G) : Prop where
  label : ∀ x, pkg.label g' x =
    if pkg.label g x = none ∧ x ∈ peers then some (casLabel x) else pkg.label g x
  edges : ∀ a b, (a, b) ∈ pkg.edges g' ↔ (a, b) ∈ pkg.edges g ∨ a = id ∧ b ∈ peers
  nodup : (pkg.edges g).Nodup → (pkg.edges g').Nodup

theorem Adds.mono (h : Adds pkg id peers g g') {x : String} (hx : pkg.label g x ≠ none) :
    pkg.label g' x = pkg.label g x := by
  rw [h.label, if_neg fun hnew => hx hnew.1]

theorem adds_nil : Adds pkg id [] g g := ⟨by simp, by simp, fun h => h⟩

/-- First these peers, and then one more. -/
theorem Adds.snoc {g'' : G} (h : Adds pkg id peers g g') (hlast : Adds pkg id [peer] g' g'') :
    Adds pkg id (peers ++ [peer]) g g'' where
  label := by
    intro x
    rw [hlast.label, h.label]
    by_cases hx : pkg.label g x = none <;> by_cases hmem : x ∈ peers <;> simp [hx, hmem]
  edges := by
    intro a b
    rw [hlast.edges, h.edges, List.mem_append, or_assoc, and_or_left]
  nodup := fun hnodup => hlast.nodup (h.nodup hnodup)

/-- An edge that is new, at the end of the list. -/
theorem adds_of_append (hlabel : ∀ x, pkg.label g' x =
      if pkg.label g x = none ∧ x = peer then some (casLabel x) else pkg.label g x)
    (hnew : (id, peer) ∉ pkg.edges g) (hedges : pkg.edges g' = pkg.edges g ++ [(id, peer)]) :
    Adds pkg id [peer] g g' where
  label := by simpa using hlabel
  edges := by
    intro a b
    rw [hedges]
    simp
  nodup := by
    intro hnodup
    rw [hedges, ← List.concat_eq_append]
    exact hnodup.concat hnew

/-- Whatever throws, the peer is a node in the end, with one edge. -/
theorem addPeer_adds (hpkg : pkg.Simple) (hid : pkg.label g id ≠ none) (peer : String) :
    Adds pkg id [peer] g (addPeer pkg id g peer) := by
  unfold addPeer
  by_cases hpeer : pkg.label g peer = none
  · -- a peer that is no node yet has no edge either
    have hnew : (id, peer) ∉ pkg.edges g := fun h => (hpkg.edge_ends g id peer h).2 hpeer
    obtain ⟨err, herr⟩ := hpkg.addEdge_throws g id peer (Or.inr (Or.inl hpeer))
    obtain ⟨g₁, hnode, hlabel, hedges⟩ := hpkg.addNode_new g peer (casLabel peer) hpeer
    have hid₁ : pkg.label g₁ id ≠ none := by
      rw [hlabel]
      split <;> simp [hid]
    have hpeer₁ : pkg.label g₁ peer ≠ none := by simp [hlabel]
    obtain ⟨g₂, hedge, hlabel₂, hedges₂⟩ := hpkg.addEdge_new g₁ id peer hid₁ hpeer₁
      (by rw [hedges]; exact hnew)
    simp only [herr, hnode, hedge]
    refine adds_of_append ?_ hnew (by rw [hedges₂, hedges])
    intro x
    rw [hlabel₂, hlabel]
    by_cases hx : x = peer
    · subst hx
      simp [hpeer]
    · simp [hx]
  · by_cases hold : (id, peer) ∈ pkg.edges g
    · obtain ⟨err, herr⟩ := hpkg.addEdge_throws g id peer (Or.inr (Or.inr hold))
      obtain ⟨err', herr'⟩ := hpkg.addNode_again g peer (casLabel peer) hpeer
      simp only [herr, herr']
      refine ⟨?_, ?_, fun h => h⟩
      · intro x
        rw [if_neg]
        intro ⟨hx, hmem⟩
        rw [List.mem_singleton.mp hmem] at hx
        exact hpeer hx
      · intro a b
        rw [List.mem_singleton, or_iff_left_of_imp]
        rintro ⟨rfl, rfl⟩
        exact hold
    · obtain ⟨g₁, hedge, hlabel, hedges⟩ := hpkg.addEdge_new g id peer hid hpeer hold
      simp only [hedge]
      refine adds_of_append ?_ hold hedges
      intro x
      rw [hlabel, if_neg]
      rintro ⟨hx, rfl⟩
      exact hpeer hx

theorem addPeer_foldl_adds (hpkg : pkg.Simple) (hid : pkg.label g id ≠ none)
    (peers : List String) : Adds pkg id peers g (peers.foldl (addPeer pkg id) g) := by
  induction peers using List.reverseRecOn with
  | nil => exact adds_nil
  | append_singleton peers peer ih =>
    rw [List.foldl_append]
    refine ih.snoc (addPeer_adds hpkg ?_ peer)
    rw [ih.mono hid]
    exact hid

end peers

/-! ## Section 3: The loops -/

/-- The id with which the last node at this address answers. -/
def LastId (answers : Answers) (addrs : List String) (addr id : String) : Prop :=
  ∃ i, addrs[i]? = some addr ∧ answers.peerId i = .ok id ∧ ∀ j, i < j → addrs[j]? ≠ some addr

def AllAnswered (answers : Answers) (n : Nat) : Prop := ∀ i < n, ∃ id, answers.peerId i = .ok id

/-- No two answers are the same id. -/
def Distinct (answers : Answers) (n : Nat) : Prop :=
  ∀ i < n, ∀ j < n, ∀ id, answers.peerId i = .ok id → answers.peerId j = .ok id → i = j

def AllListed (answers : Answers) (n : Nat) : Prop := ∀ i < n, ∃ peers, answers.peers i = .ok peers

/-- One of the nodes lists this peer. -/
def Listed (answers : Answers) (addrs : List String) (x : String) : Prop :=
  ∃ i peers, i < addrs.length ∧ answers.peers i = .ok peers ∧ x ∈ peers

section loops

variable {G : Type} {pkg : GraphPackage G} {answers : Answers} {addrs : List String} {addr : String}
  {g : G} {addrsToID : String → Option String}

/-- What the first loop has made. -/
structure Own (pkg : GraphPackage G) (answers : Answers) (addrs : List String) (g : G)
    (addrsToID : String → Option String) : Prop where
  label : ∀ id label, pkg.label g id = some label ↔ ∃ i addr, addrs[i]? = some addr ∧
    answers.peerId i = .ok id ∧ label = ownLabel id addr
  edges : pkg.edges g = []
  addrsToID : ∀ addr id, addrsToID addr = some id ↔ LastId answers addrs addr id

theorem getElem?_snoc {α : Type} {l : List α} {x y : α} {i : Nat} :
    (l ++ [x])[i]? = some y ↔ l[i]? = some y ∨ i = l.length ∧ x = y := by
  rcases Nat.lt_trichotomy i l.length with h | h | h
  · rw [List.getElem?_append_left h, or_iff_left]
    omega
  · subst h
    simp
  · rw [List.getElem?_append_right (by omega), List.getElem?_eq_none (by simp; omega),
      List.getElem?_eq_none (by omega)]
    simp only [reduceCtorEq, false_or, false_iff]
    omega

theorem lastId_snoc {addr' id : String} : LastId answers (addrs ++ [addr]) addr' id ↔
    if addr' = addr then answers.peerId addrs.length = .ok id
    else LastId answers addrs addr' id := by
  unfold LastId
  by_cases h : addr' = addr
  · subst h
    rw [if_pos rfl]
    constructor
    · intro ⟨i, hi, hid, hlast⟩
      rcases getElem?_snoc.mp hi with hi | ⟨rfl, _⟩
      · -- the address comes again at the end
        have hlt := (List.getElem?_eq_some_iff.mp hi).1
        exact absurd (getElem?_snoc.mpr (Or.inr ⟨rfl, rfl⟩)) (hlast _ hlt)
      · exact hid
    · intro hid
      refine ⟨addrs.length, getElem?_snoc.mpr (Or.inr ⟨rfl, rfl⟩), hid, ?_⟩
      intro j hj
      rw [List.getElem?_eq_none (by simp; omega)]
      simp
  · rw [if_neg h]
    have hsame : ∀ j : Nat, (addrs ++ [addr])[j]? = some addr' ↔ addrs[j]? = some addr' := by
      intro j
      rw [getElem?_snoc, or_iff_left]
      exact fun hj => h hj.2.symm
    simp only [hsame, ne_eq]

theorem Own.snoc (hown : Own pkg answers addrs g addrsToID) {id : String} {g' : G}
    (hid : answers.peerId addrs.length = .ok id) (hnew : pkg.label g id = none)
    (hlabel : ∀ id', pkg.label g' id' =
      if id' = id then some (ownLabel id addr) else pkg.label g id')
    (hedges : pkg.edges g' = pkg.edges g) :
    Own pkg answers (addrs ++ [addr]) g'
      (fun a => if a = addr then some id else addrsToID a) where
  label := by
    intro id' label
    rw [hlabel]
    by_cases h : id' = id
    · subst h
      rw [if_pos rfl, Option.some.injEq]
      constructor
      · rintro rfl
        exact ⟨addrs.length, addr, getElem?_snoc.mpr (Or.inr ⟨rfl, rfl⟩), hid, rfl⟩
      · rintro ⟨i, addr', hi, hid', rfl⟩
        rcases getElem?_snoc.mp hi with hi | ⟨_, rfl⟩
        · -- the id would have been there
          have hold := (hown.label id' _).mpr ⟨i, addr', hi, hid', rfl⟩
          cases hnew.symm.trans hold
        · rfl
    · rw [if_neg h, hown.label]
      constructor
      · intro ⟨i, addr', hi, hid', hlab⟩
        exact ⟨i, addr', getElem?_snoc.mpr (Or.inl hi), hid', hlab⟩
      · intro ⟨i, addr', hi, hid', hlab⟩
        rcases getElem?_snoc.mp hi with hi | ⟨rfl, _⟩
        · exact ⟨i, addr', hi, hid', hlab⟩
        · exact absurd (Except.ok.inj (hid'.symm.trans hid)) h
  edges := by rw [hedges, hown.edges]
  addrsToID := by
    intro addr' id'
    rw [lastId_snoc]
    by_cases h : addr' = addr
    · simp [h, hid]
    · simp [h, hown.addrsToID]

theorem Own.label_none (hown : Own pkg answers addrs g addrsToID) {id : String} :
    pkg.label g id = none ↔ ∀ i < addrs.length, answers.peerId i ≠ .ok id := by
  rw [Option.eq_none_iff_forall_ne_some]
  constructor
  · intro hnone i hi hid
    exact hnone _ ((hown.label id _).mpr ⟨i, _, List.getElem?_eq_getElem hi, hid, rfl⟩)
  · intro hall label hlabel
    obtain ⟨i, addr, hi, hid, _⟩ := (hown.label id label).mp hlabel
    exact hall i (List.getElem?_eq_some_iff.mp hi).1 hid

theorem allAnswered_succ {n : Nat} :
    AllAnswered answers (n + 1) ↔ AllAnswered answers n ∧ ∃ id, answers.peerId n = .ok id := by
  unfold AllAnswered
  exact Nat.forall_lt_succ_right

theorem distinct_succ {n : Nat} {id : String} (hid : answers.peerId n = .ok id) :
    Distinct answers (n + 1) ↔
      Distinct answers n ∧ ∀ i < n, answers.peerId i ≠ .ok id := by
  constructor
  · intro h
    refine ⟨fun i hi j hj => h i (by omega) j (by omega), ?_⟩
    intro i hi hsame
    have heq := h i (by omega) n (by omega) id hsame hid
    omega
  · intro ⟨hbefore, hnew⟩ i hi j hj id' hi' hj'
    by_cases hin : i = n <;> by_cases hjn : j = n
    · rw [hin, hjn]
    · subst hin
      cases hi'.symm.trans hid
      exact absurd hj' (hnew j (by omega))
    · subst hjn
      cases hj'.symm.trans hid
      exact absurd hi' (hnew i (by omega))
    · exact hbefore i (by omega) j (by omega) id' hi' hj'

/-- The first loop ends with the nodes that have answered, or throws. -/
theorem addOwn_foldlM (hpkg : pkg.Simple) (answers : Answers) (addrs : List String) :
    (∃ g addrsToID, addrs.zipIdx.foldlM (addOwn pkg answers) (pkg.empty, fun _ => none) =
        .ok (g, addrsToID) ∧
      Own pkg answers addrs g addrsToID ∧ AllAnswered answers addrs.length ∧
      Distinct answers addrs.length) ∨
    (∃ err, addrs.zipIdx.foldlM (addOwn pkg answers) (pkg.empty, fun _ => none) = .error err) ∧
      ¬ (AllAnswered answers addrs.length ∧ Distinct answers addrs.length) := by
  induction addrs using List.reverseRecOn with
  | nil =>
    left
    refine ⟨pkg.empty, fun _ => none, rfl, ?_, by simp [AllAnswered], by simp [Distinct]⟩
    exact ⟨by simp [hpkg.empty_label], hpkg.empty_edges, by simp [LastId]⟩
  | append_singleton addrs addr ih =>
    rw [List.zipIdx_append, List.foldlM_append, List.length_append]
    simp only [Nat.zero_add, List.zipIdx_singleton, List.length_singleton, allAnswered_succ]
    rcases ih with ⟨g, addrsToID, hok, hown, hall, hdistinct⟩ | ⟨⟨err, herr⟩, hnot⟩
    · rw [hok]
      show (∃ g' addrsToID', [(addr, addrs.length)].foldlM (addOwn pkg answers) (g, addrsToID) =
        .ok (g', addrsToID') ∧ _) ∨ (∃ err, [(addr, addrs.length)].foldlM (addOwn pkg answers)
          (g, addrsToID) = .error err) ∧ _
      rw [List.foldlM_cons]
      unfold addOwn
      cases hid : answers.peerId addrs.length with
      | error err =>
        right
        refine ⟨⟨err, rfl⟩, ?_⟩
        intro ⟨⟨_, id, hid'⟩, _⟩
        cases hid'
      | ok id =>
        by_cases hnew : pkg.label g id = none
        · obtain ⟨g', hnode, hlabel, hedges⟩ := hpkg.addNode_new g id (ownLabel id addr) hnew
          left
          refine ⟨g', _, ?_, hown.snoc hid hnew hlabel hedges, ⟨hall, id, rfl⟩, ?_⟩
          · show (pkg.addNode g id (ownLabel id addr) >>= _) >>= _ = _
            rw [hnode]
            rfl
          · rw [distinct_succ hid]
            exact ⟨hdistinct, hown.label_none.mp hnew⟩
        · obtain ⟨err, herr⟩ := hpkg.addNode_again g id (ownLabel id addr) hnew
          right
          refine ⟨⟨err, ?_⟩, ?_⟩
          · show (pkg.addNode g id (ownLabel id addr) >>= _) >>= _ = _
            rw [herr]
            rfl
          · intro ⟨_, hdistinct'⟩
            exact hnew (hown.label_none.mpr ((distinct_succ hid).mp hdistinct').2)
    · rw [herr]
      right
      refine ⟨⟨err, rfl⟩, ?_⟩
      intro ⟨⟨hall, id, hid⟩, hdistinct⟩
      exact hnot ⟨hall, ((distinct_succ hid).mp hdistinct).1⟩

/-- What the second loop has made of the nodes in `own`. -/
structure Connected (pkg : GraphPackage G) (answers : Answers) (addrsToID : String → Option String)
    (addrs : List String) (own g : G) : Prop where
  kept : ∀ x, pkg.label own x ≠ none → pkg.label g x = pkg.label own x
  cas : ∀ x, pkg.label own x = none → Listed answers addrs x → pkg.label g x = some (casLabel x)
  only : ∀ x, pkg.label own x = none → ¬ Listed answers addrs x → pkg.label g x = none
  edges : ∀ a b, (a, b) ∈ pkg.edges g ↔ ∃ i addr peers, addrs[i]? = some addr ∧
    addrsToID addr = some a ∧ answers.peers i = .ok peers ∧ b ∈ peers
  nodup : (pkg.edges g).Nodup

theorem listed_snoc {peers : List String} (hpeers : answers.peers addrs.length = .ok peers)
    {x : String} : Listed answers (addrs ++ [addr]) x ↔ Listed answers addrs x ∨ x ∈ peers := by
  unfold Listed
  rw [List.length_append, List.length_singleton]
  constructor
  · intro ⟨i, peers', hi, hpeers', hx⟩
    by_cases hlast : i = addrs.length
    · subst hlast
      cases hpeers.symm.trans hpeers'
      exact Or.inr hx
    · exact Or.inl ⟨i, peers', by omega, hpeers', hx⟩
  · rintro (⟨i, peers', hi, hpeers', hx⟩ | hx)
    · exact ⟨i, peers', by omega, hpeers', hx⟩
    · exact ⟨addrs.length, peers, by omega, hpeers, hx⟩

theorem Connected.snoc {own g' : G} (h : Connected pkg answers addrsToID addrs own g)
    {id : String} {peers : List String} (hid : addrsToID addr = some id)
    (hpeers : answers.peers addrs.length = .ok peers) (hadds : Adds pkg id peers g g') :
    Connected pkg answers addrsToID (addrs ++ [addr]) own g' where
  kept := by
    intro x hx
    rw [← h.kept x hx]
    apply hadds.mono
    rw [h.kept x hx]
    exact hx
  cas := by
    intro x hx hlisted
    by_cases hbefore : Listed answers addrs x
    · have hcas := h.cas x hx hbefore
      rw [hadds.mono (by rw [hcas]; simp), hcas]
    · have hmem := ((listed_snoc hpeers).mp hlisted).resolve_left hbefore
      rw [hadds.label, if_pos ⟨h.only x hx hbefore, hmem⟩]
  only := by
    intro x hx hlisted
    rw [listed_snoc hpeers, not_or] at hlisted
    rw [hadds.label, if_neg fun hnew => hlisted.2 hnew.2]
    exact h.only x hx hlisted.1
  edges := by
    intro a b
    rw [hadds.edges, h.edges]
    constructor
    · rintro (⟨i, addr', peers', hi, ha, hpeers', hb⟩ | ⟨rfl, hb⟩)
      · exact ⟨i, addr', peers', getElem?_snoc.mpr (Or.inl hi), ha, hpeers', hb⟩
      · exact ⟨addrs.length, addr, peers, getElem?_snoc.mpr (Or.inr ⟨rfl, rfl⟩), hid, hpeers, hb⟩
    · intro ⟨i, addr', peers', hi, ha, hpeers', hb⟩
      rcases getElem?_snoc.mp hi with hi | ⟨rfl, rfl⟩
      · exact Or.inl ⟨i, addr', peers', hi, ha, hpeers', hb⟩
      · cases hpeers.symm.trans hpeers'
        cases hid.symm.trans ha
        exact Or.inr ⟨rfl, hb⟩
  nodup := hadds.nodup h.nodup

theorem allListed_succ {n : Nat} :
    AllListed answers (n + 1) ↔ AllListed answers n ∧ ∃ peers, answers.peers n = .ok peers := by
  unfold AllListed
  exact Nat.forall_lt_succ_right

/-- The second loop ends with all peers, or throws. -/
theorem addPeers_foldlM (hpkg : pkg.Simple) {own : G} (hedges : pkg.edges own = [])
    (addrs : List String)
    (hids : ∀ addr ∈ addrs, ∃ id, addrsToID addr = some id ∧ pkg.label own id ≠ none) :
    (∃ g, addrs.zipIdx.foldlM (addPeers pkg answers addrsToID) own = .ok g ∧
      Connected pkg answers addrsToID addrs own g ∧ AllListed answers addrs.length) ∨
    (∃ err, addrs.zipIdx.foldlM (addPeers pkg answers addrsToID) own = .error err) ∧
      ¬ AllListed answers addrs.length := by
  induction addrs using List.reverseRecOn with
  | nil =>
    left
    refine ⟨own, rfl, ?_, by simp [AllListed]⟩
    exact ⟨fun _ _ => rfl, by simp [Listed], fun _ h _ => h, by simp [hedges], by simp [hedges]⟩
  | append_singleton addrs addr ih =>
    rw [List.zipIdx_append, List.foldlM_append, List.length_append]
    simp only [Nat.zero_add, List.zipIdx_singleton, List.length_singleton, allListed_succ]
    rcases ih fun a ha => hids a (List.mem_append_left _ ha) with
      ⟨g, hok, hconnected, hall⟩ | ⟨⟨err, herr⟩, hnot⟩
    · obtain ⟨id, hid, hown⟩ := hids addr (by simp)
      rw [hok]
      cases hpeers : answers.peers addrs.length with
      | error err =>
        right
        refine ⟨⟨err, ?_⟩, ?_⟩
        · show (answers.peers addrs.length >>= _) >>= _ = _
          rw [hpeers]
          rfl
        · intro ⟨_, peers, hpeers'⟩
          cases hpeers'
      | ok peers =>
        left
        have hthere : pkg.label g id ≠ none := by
          rw [hconnected.kept id hown]
          exact hown
        refine ⟨peers.foldl (addPeer pkg id) g, ?_,
          hconnected.snoc hid hpeers (addPeer_foldl_adds hpkg hthere peers), hall, peers, rfl⟩
        show (answers.peers addrs.length >>= _) >>= _ = _
        rw [hpeers]
        show Except.ok (peers.foldl (addPeer pkg ((addrsToID addr).getD "undefined")) g) = _
        rw [hid]
        rfl
    · rw [herr]
      right
      exact ⟨⟨err, rfl⟩, fun h => hnot h.1⟩

end loops

/-! ## Section 4: What is drawn -/

section drawn

variable {G : Type} {pkg : GraphPackage G} {answers : Answers} {addrs : List String} {g : G}

/-- The picture shows the nodes under their addresses, all others that they
    list as peers, and an arrow from each node to each of its peers, once. -/
structure Drawn (pkg : GraphPackage G) (answers : Answers) (addrs : List String) (g : G) :
    Prop where
  own : ∀ i addr id, addrs[i]? = some addr → answers.peerId i = .ok id →
    pkg.label g id = some (ownLabel id addr)
  cas : ∀ x, Listed answers addrs x → (∀ i < addrs.length, answers.peerId i ≠ .ok x) →
    pkg.label g x = some (casLabel x)
  only : ∀ x, pkg.label g x ≠ none →
    (∃ i < addrs.length, answers.peerId i = .ok x) ∨ Listed answers addrs x
  edges : ∀ a b, (a, b) ∈ pkg.edges g ↔ ∃ i addr peers, addrs[i]? = some addr ∧
    LastId answers addrs addr a ∧ answers.peers i = .ok peers ∧ b ∈ peers
  nodup : (pkg.edges g).Nodup

theorem drawn_of_loops {own : G} {addrsToID : String → Option String}
    (hown : Own pkg answers addrs own addrsToID)
    (hconnected : Connected pkg answers addrsToID addrs own g) : Drawn pkg answers addrs g where
  own := by
    intro i addr id hi hid
    have hlabel := (hown.label id _).mpr ⟨i, addr, hi, hid, rfl⟩
    rw [hconnected.kept id (by rw [hlabel]; simp), hlabel]
  cas := by
    intro x hlisted hnot
    exact hconnected.cas x (hown.label_none.mpr hnot) hlisted
  only := by
    intro x hx
    by_contra hnone
    rw [not_or] at hnone
    have hnew : pkg.label own x = none :=
      hown.label_none.mpr fun i hi hid => hnone.1 ⟨i, hi, hid⟩
    exact hx (hconnected.only x hnew hnone.2)
  edges := by
    intro a b
    rw [hconnected.edges]
    simp only [hown.addrsToID]
  nodup := hconnected.nodup

theorem exists_lastId (hall : AllAnswered answers addrs.length) {addr : String}
    (haddr : addr ∈ addrs) : ∃ id, LastId answers addrs addr id := by
  induction addrs using List.reverseRecOn with
  | nil => cases haddr
  | append_singleton addrs last ih =>
    rw [List.length_append, List.length_singleton, allAnswered_succ] at hall
    obtain ⟨id, hid⟩ := hall.2
    simp only [lastId_snoc]
    by_cases h : addr = last
    · exact ⟨id, by rw [if_pos h]; exact hid⟩
    · have hbefore : addr ∈ addrs := by simpa [h] using haddr
      obtain ⟨id', hid'⟩ := ih hall.1 hbefore
      exact ⟨id', by rw [if_neg h]; exact hid'⟩

/-- Each address stands for a node, when all have answered. -/
theorem addrsToID_own {own : G} {addrsToID : String → Option String}
    (hown : Own pkg answers addrs own addrsToID) (hall : AllAnswered answers addrs.length)
    {addr : String} (haddr : addr ∈ addrs) :
    ∃ id, addrsToID addr = some id ∧ pkg.label own id ≠ none := by
  obtain ⟨id, hlast⟩ := exists_lastId hall haddr
  have ⟨i, hi, hid, _⟩ := hlast
  have hlabel := (hown.label id _).mpr ⟨i, addr, hi, hid, rfl⟩
  exact ⟨id, (hown.addrsToID addr id).mpr hlast, by rw [hlabel]; simp⟩

/-- **The picture.** The script draws it if and only if every request is
    answered and no id comes twice. What it draws is who lists whom. -/
theorem topology_draws (hpkg : pkg.Simple) (answers : Answers) (addrs : List String) :
    ((∃ g, topology pkg answers addrs = .ok g) ↔ AllAnswered answers addrs.length ∧
      Distinct answers addrs.length ∧ AllListed answers addrs.length) ∧
    ∀ g, topology pkg answers addrs = .ok g → Drawn pkg answers addrs g := by
  unfold topology
  rcases addOwn_foldlM hpkg answers addrs with
    ⟨own, addrsToID, hok, hown, hall, hdistinct⟩ | ⟨⟨err, herr⟩, hnot⟩
  · rw [hok]
    rcases addPeers_foldlM hpkg hown.edges addrs fun a ha => addrsToID_own hown hall ha with
      ⟨g, hpeers, hconnected, hlisted⟩ | ⟨⟨err, herr⟩, hnot⟩
    · refine ⟨⟨fun _ => ⟨hall, hdistinct, hlisted⟩, fun _ => ⟨g, hpeers⟩⟩, ?_⟩
      intro g' hg'
      cases hpeers.symm.trans hg'
      exact drawn_of_loops hown hconnected
    · refine ⟨⟨?_, fun h => absurd h.2.2 hnot⟩, ?_⟩
      · intro ⟨g, hg⟩
        cases herr.symm.trans hg
      · intro g hg
        cases herr.symm.trans hg
  · rw [herr]
    refine ⟨⟨?_, fun h => absurd ⟨h.1, h.2.1⟩ hnot⟩, ?_⟩
    · intro ⟨g, hg⟩
      cases hg
    · intro g hg
      cases hg

/-! ### Two nodes that list each other -/

private structure ListGraph where
  nodes : List (String × String)
  edges : List (String × String)
  ends : ∀ e ∈ edges, nodes.lookup e.1 ≠ none ∧ nodes.lookup e.2 ≠ none

private theorem lookup_node (nodes : List (String × String)) (id label id' : String) :
    ((id, label) :: nodes).lookup id' = if id' = id then some label else nodes.lookup id' := by
  rw [List.lookup_cons]
  by_cases h : id' = id
  · simp [h]
  · rw [if_neg h, beq_false_of_ne h]

private def ListGraph.withNode (g : ListGraph) (id label : String) : ListGraph where
  nodes := (id, label) :: g.nodes
  edges := g.edges
  ends := by
    intro e he
    have hends := g.ends e he
    simp only [lookup_node]
    constructor <;> split <;> simp [hends]

private def ListGraph.withEdge (g : ListGraph) (a b : String) (ha : g.nodes.lookup a ≠ none)
    (hb : g.nodes.lookup b ≠ none) : ListGraph where
  nodes := g.nodes
  edges := g.edges ++ [(a, b)]
  ends := by
    intro e he
    rcases List.mem_append.mp he with he | he
    · exact g.ends e he
    · rw [List.mem_singleton.mp he]
      exact ⟨ha, hb⟩

private def ListGraph.addEdge (g : ListGraph) (a b : String) : Except String ListGraph :=
  if h : g.nodes.lookup a ≠ none ∧ g.nodes.lookup b ≠ none then
    if (a, b) ∈ g.edges then .error "the edge is there" else .ok (g.withEdge a b h.1 h.2)
  else .error "a node is missing"

private theorem ListGraph.addEdge_eq (g : ListGraph) {a b : String}
    (h : g.nodes.lookup a ≠ none ∧ g.nodes.lookup b ≠ none) (hnew : (a, b) ∉ g.edges) :
    g.addEdge a b = .ok (g.withEdge a b h.1 h.2) := by
  unfold addEdge
  rw [dif_pos h, if_neg hnew]

private def listGraph : GraphPackage ListGraph where
  empty := ⟨[], [], by simp⟩
  label := fun g id => g.nodes.lookup id
  edges := ListGraph.edges
  addNode := fun g id label =>
    if g.nodes.lookup id = none then .ok (g.withNode id label) else .error "the node is there"
  addEdge := ListGraph.addEdge

private theorem listGraph_simple : listGraph.Simple where
  empty_label := fun _ => rfl
  empty_edges := rfl
  edge_ends := fun g a b h => g.ends (a, b) h
  addNode_new := by
    intro g id label h
    exact ⟨g.withNode id label, if_pos h, lookup_node g.nodes id label, rfl⟩
  addNode_again := by
    intro g id label h
    exact ⟨_, if_neg h⟩
  addEdge_new := by
    intro g a b ha hb hnew
    exact ⟨g.withEdge a b ha hb, g.addEdge_eq ⟨ha, hb⟩ hnew, fun _ => rfl, rfl⟩
  addEdge_throws := by
    intro g a b h
    by_cases hends : g.nodes.lookup a ≠ none ∧ g.nodes.lookup b ≠ none
    · have hold : (a, b) ∈ g.edges := by
        rcases h with h | h | h
        · exact absurd h hends.1
        · exact absurd h hends.2
        · exact h
      exact ⟨_, (dif_pos hends).trans (if_pos hold)⟩
    · exact ⟨_, dif_neg hends⟩

/-- The second node also lists a peer that is none of the two. -/
private def twoNodes : Answers where
  peerId := fun i => .ok (if i = 0 then "first" else "second")
  peers := fun i => .ok (if i = 0 then ["second"] else ["first", "other", "other"])

theorem two_nodes_drawn : ∃ g, topology listGraph twoNodes ["http://a", "http://b"] = .ok g ∧
    Drawn listGraph twoNodes ["http://a", "http://b"] g := by
  have hdraws := topology_draws listGraph_simple twoNodes ["http://a", "http://b"]
  have hdistinct : Distinct twoNodes 2 := by
    intro i hi j hj id hid hid'
    have hsame := hid.trans hid'.symm
    rcases (by omega : i = 0 ∨ i = 1) with rfl | rfl <;>
      rcases (by omega : j = 0 ∨ j = 1) with rfl | rfl <;> first | rfl | simp [twoNodes] at hsame
  obtain ⟨g, hg⟩ := hdraws.1.mpr ⟨fun i _ => ⟨_, rfl⟩, hdistinct, fun i _ => ⟨_, rfl⟩⟩
  exact ⟨g, hg, hdraws.2 g hg⟩

end drawn

end Suite.Topology
