import CeramicTests.Hermetic.PeerGate
import Mathlib.Data.List.Nodup

/-! # The environment that `port-forward.sh` exports

    To run the suite from outside a cluster, `port-forward.sh` forwards two
    local ports to each ceramic pod, and exports the local addresses in the
    form in which `process-peers.sh` writes those inside the cluster.

    - Section 1: the script
    - Section 2: what its loop has made after some pods
    - Section 3: what the suite reads

    The numbers of the local ports grow by one from pod to pod, and the two
    ranges are 1906 apart.
-/

namespace Hermetic

/-! ## Section 1: The script -/

/-- The ports of a pod. -/
def composedb : Nat := 7007
def ceramic : Nat := 5101

/-- A `kubectl port-forward` that the script leaves in the background. -/
structure Forward where
  pod : String
  composedb_local : Nat
  ceramic_local : Nat
  deriving DecidableEq, Repr

/-- The variables of the script, and the forwards that it has started. -/
structure Forwarding where
  COMPOSEDB_URLS : String
  CERAMIC_URLS : String
  COMPOSEDB_ADMIN_DID_SEEDS : String
  offset : Nat
  forwards : List Forward
  deriving DecidableEq, Repr

def localUrl (port : Nat) : String := "http://localhost:" ++ Nat.repr port

/-- One entry more for a list. There is no comma before the first one. -/
def appendEntry (offset : Nat) (urls entry : String) : String :=
  if offset ≠ 1 then urls ++ "," ++ entry else urls ++ entry

/-- The body of the loop over the pods. -/
def forwardRound (admin_private_key : String) (st : Forwarding) (pod : String) : Forwarding :=
  let composedb_local := composedb + st.offset
  let ceramic_local := ceramic + st.offset
  { COMPOSEDB_URLS := appendEntry st.offset st.COMPOSEDB_URLS (localUrl composedb_local)
    CERAMIC_URLS := appendEntry st.offset st.CERAMIC_URLS (localUrl ceramic_local)
    COMPOSEDB_ADMIN_DID_SEEDS :=
      appendEntry st.offset st.COMPOSEDB_ADMIN_DID_SEEDS admin_private_key
    offset := st.offset + 1
    forwards := st.forwards ++ [⟨pod, composedb_local, ceramic_local⟩] }

/-- The script, for the pods that `kubectl` lists and what `base64` prints
    for the key of the admin Secret. -/
def portForward (private_key : String) (pods : List String) : Forwarding :=
  let admin_private_key := commandSubst private_key
  pods.foldl (forwardRound admin_private_key) ⟨"", "", "", 1, []⟩

def Forwarding.exports (st : Forwarding) : List (String × String) :=
  [("COMPOSEDB_URLS", st.COMPOSEDB_URLS), ("CERAMIC_URLS", st.CERAMIC_URLS),
    ("COMPOSEDB_ADMIN_DID_SEEDS", st.COMPOSEDB_ADMIN_DID_SEEDS)]

/-- The environment of a shell that has sourced the script. -/
def Forwarding.env (st : Forwarding) (name : String) : Option String := st.exports.lookup name

/-! The lists as the suite reads them. -/

def Forwarding.composeDbUrls (st : Forwarding) : List String := envList st.env "COMPOSEDB_URLS"

def Forwarding.ceramicUrls (st : Forwarding) : List String := envList st.env "CERAMIC_URLS"

def Forwarding.adminSeeds (st : Forwarding) : List String :=
  envList st.env "COMPOSEDB_ADMIN_DID_SEEDS"

/-! ## Section 2: The loop -/

/-- The forward of the pod with this index. -/
def forwardOf (i : Nat) (pod : String) : Forward :=
  ⟨pod, composedb + (i + 1), ceramic + (i + 1)⟩

section loop

variable {key : String} {pods : List String}

/-- With an entry at hand, the list gets a comma. -/
theorem appendEntry_intercalate (entries : List String) (entry : String) :
    appendEntry (entries.length + 1) (",".intercalate entries) entry =
      ",".intercalate (entries ++ [entry]) := by
  cases entries with
  | nil => simp [appendEntry]
  | cons first rest =>
    have hne : (first :: rest).length + 1 ≠ 1 := by simp
    unfold appendEntry
    rw [if_pos hne, String.intercalate_append_of_ne_nil (by simp) (by simp),
      String.intercalate_singleton]

/-- What the loop has made after these pods. -/
structure Forwards (key : String) (pods : List String) (st : Forwarding) : Prop where
  offset : st.offset = pods.length + 1
  forwards : st.forwards = pods.mapIdx forwardOf
  composedb : st.COMPOSEDB_URLS =
    ",".intercalate (st.forwards.map fun f => localUrl f.composedb_local)
  ceramic : st.CERAMIC_URLS = ",".intercalate (st.forwards.map fun f => localUrl f.ceramic_local)
  seeds : st.COMPOSEDB_ADMIN_DID_SEEDS = ",".intercalate (List.replicate pods.length key)

theorem Forwards.step {st : Forwarding} (h : Forwards key pods st) (pod : String) :
    Forwards key (pods ++ [pod]) (forwardRound key st pod) := by
  -- the comma is put by the offset, which is the number of entries and one
  have hlen : st.forwards.length = pods.length := by
    rw [h.forwards, List.length_mapIdx]
  have hentry : ∀ (url : Forward → String) (urls : String),
      urls = ",".intercalate (st.forwards.map url) → ∀ f,
      appendEntry st.offset urls (url f) = ",".intercalate ((st.forwards ++ [f]).map url) := by
    intro url urls hurls f
    have happend := appendEntry_intercalate (st.forwards.map url) (url f)
    rw [List.length_map, hlen, ← h.offset, ← hurls] at happend
    rw [happend, List.map_append]
    rfl
  constructor
  · show st.offset + 1 = _
    rw [h.offset, List.length_append]
    rfl
  · show st.forwards ++ [_] = _
    rw [List.mapIdx_concat, ← h.forwards, h.offset]
    rfl
  · exact hentry (fun f => localUrl f.composedb_local) _ h.composedb ⟨pod, _, _⟩
  · exact hentry (fun f => localUrl f.ceramic_local) _ h.ceramic ⟨pod, _, _⟩
  · show appendEntry st.offset st.COMPOSEDB_ADMIN_DID_SEEDS key = _
    have happend := appendEntry_intercalate (List.replicate pods.length key) key
    rw [List.length_replicate, ← h.offset, ← h.seeds] at happend
    rw [happend, List.length_append, ← List.replicate_succ']
    rfl

theorem portForward_forwards (private_key : String) (pods : List String) :
    Forwards (commandSubst private_key) pods (portForward private_key pods) := by
  induction pods using List.reverseRecOn with
  | nil => exact ⟨rfl, rfl, rfl, rfl, rfl⟩
  | append_singleton pods pod ih =>
    have hlast : portForward private_key (pods ++ [pod]) =
        forwardRound (commandSubst private_key) (portForward private_key pods) pod := by
      unfold portForward
      simp only [List.foldl_append, List.foldl_cons, List.foldl_nil]
    rw [hlast]
    exact ih.step pod

end loop

/-! ## Section 3: What the suite reads -/

/-- A local port leads to a port of a pod. -/
def LeadsTo (forwards : List Forward) (port : Nat) (target : String × Nat) : Prop :=
  ∃ f ∈ forwards, (f.composedb_local = port ∧ target = (f.pod, composedb)) ∨
    (f.ceramic_local = port ∧ target = (f.pod, ceramic))

/-- Each entry of the list is a local address that leads to this port of the
    pod at its place, and nowhere else. -/
def LeadsOnly (forwards : List Forward) (pods : List String) (podPort : Nat)
    (urls : List String) : Prop :=
  ∀ (i : Nat) (pod : String), pods[i]? = some pod → ∃ port, urls[i]? = some (localUrl port) ∧
    ∀ target, LeadsTo forwards port target ↔ target = (pod, podPort)

section suite

variable {key : String} {pods : List String} {i : Nat} {pod : String}

theorem localUrl_no_comma (port : Nat) : ',' ∉ (localUrl port).toList := by
  unfold localUrl
  rw [String.toList_append, List.mem_append, not_or, Nat.toList_repr]
  refine ⟨by decide, ?_⟩
  intro hcomma
  have hdigit := Nat.isDigit_of_mem_toDigits (by decide) (by decide) hcomma
  exact absurd hdigit (by decide)

theorem localUrl_inj {port port' : Nat} (h : localUrl port = localUrl port') : port = port' := by
  have hrepr : Nat.repr port = Nat.repr port' := by
    apply String.toList_inj.mp
    have htoList := congrArg String.toList h
    unfold localUrl at htoList
    simpa only [String.toList_append, List.append_cancel_left_eq] using htoList
  exact Nat.repr_injective hrepr

theorem splitComma_ne_nil (s : String) : splitComma s ≠ [] := by
  unfold splitComma
  rw [String.toList_split_char]
  simp

theorem split_nothing : splitComma "" = [""] := by
  unfold splitComma
  rw [String.toList_split_char]
  rfl

/-- A value that is repeated is split at its own commas each time. -/
theorem splitComma_replicate (n : Nat) :
    splitComma (",".intercalate (List.replicate (n + 1) key)) =
      (List.replicate (n + 1) (splitComma key)).flatten := by
  induction n with
  | zero => simp
  | succ n ih =>
    rw [List.replicate_succ, List.replicate_succ, String.intercalate_cons_cons,
      splitComma_append_comma, ← List.replicate_succ, ih, List.replicate_succ (n := n + 1),
      List.flatten_cons]

/-- The forwards of the script, by the places of the pods. -/
theorem leadsTo_iff {port : Nat} {target : String × Nat} :
    LeadsTo (pods.mapIdx forwardOf) port target ↔ ∃ (i : Nat) (pod : String), pods[i]? = some pod ∧
      ((composedb + (i + 1) = port ∧ target = (pod, composedb)) ∨
        (ceramic + (i + 1) = port ∧ target = (pod, ceramic))) := by
  constructor
  · intro ⟨f, hf, hleads⟩
    obtain ⟨i, hi, rfl⟩ := List.mem_mapIdx.mp hf
    exact ⟨i, _, List.getElem?_eq_getElem hi, hleads⟩
  · intro ⟨i, pod, hpod, hleads⟩
    obtain ⟨hi, rfl⟩ := List.getElem?_eq_some_iff.mp hpod
    exact ⟨_, List.mem_mapIdx.mpr ⟨i, hi, rfl⟩, hleads⟩

/-- With fewer pods the two ranges of local ports do not meet. -/
theorem leadsTo_of_few (hfew : pods.length < 1907) (hpod : pods[i]? = some pod)
    {target : String × Nat} :
    (LeadsTo (pods.mapIdx forwardOf) (composedb + (i + 1)) target ↔ target = (pod, composedb)) ∧
    (LeadsTo (pods.mapIdx forwardOf) (ceramic + (i + 1)) target ↔ target = (pod, ceramic)) := by
  have hlt : i < pods.length := (List.getElem?_eq_some_iff.mp hpod).1
  simp only [leadsTo_iff]
  constructor
  · constructor
    · rintro ⟨j, pod', hpod', ⟨hport, rfl⟩ | ⟨hport, rfl⟩⟩
      · obtain rfl : j = i := by omega
        cases hpod.symm.trans hpod'
        rfl
      · have hj : j < pods.length := (List.getElem?_eq_some_iff.mp hpod').1
        unfold ceramic composedb at hport
        omega
    · rintro rfl
      exact ⟨i, pod, hpod, Or.inl ⟨rfl, rfl⟩⟩
  · constructor
    · rintro ⟨j, pod', hpod', ⟨hport, rfl⟩ | ⟨hport, rfl⟩⟩
      · unfold ceramic composedb at hport
        omega
      · obtain rfl : j = i := by omega
        cases hpod.symm.trans hpod'
        rfl
    · rintro rfl
      exact ⟨i, pod, hpod, Or.inr ⟨rfl, rfl⟩⟩

/-- With more pods the address of the first pod is taken twice. -/
theorem not_leadsOnly_of_many {urls : List String} (hmany : 1907 ≤ pods.length)
    (hurls : urls = (pods.mapIdx forwardOf).map fun f => localUrl f.composedb_local) :
    ¬ LeadsOnly (pods.mapIdx forwardOf) pods composedb urls := by
  intro honly
  have hfirst : pods[0]? = some pods[0] := List.getElem?_eq_getElem (by omega)
  have hlater : pods[1906]? = some pods[1906] := List.getElem?_eq_getElem (by omega)
  obtain ⟨port, hurl, htarget⟩ := honly 0 _ hfirst
  rw [hurls, List.getElem?_map, List.getElem?_mapIdx, hfirst] at hurl
  have hport : port = composedb + (0 + 1) := localUrl_inj (Option.some.inj hurl).symm
  have hboth : LeadsTo (pods.mapIdx forwardOf) port (pods[1906], ceramic) :=
    leadsTo_iff.mpr ⟨1906, _, hlater, Or.inr ⟨by rw [hport]; rfl, rfl⟩⟩
  have hsame : ceramic = composedb := congrArg Prod.snd ((htarget _).mp hboth)
  exact absurd hsame (by decide)

theorem leadsOnly_of_forwards {urls : List String} {podPort : Nat} {port : Forward → Nat}
    (hurls : urls = (pods.mapIdx forwardOf).map fun f => localUrl (port f))
    (hleads : ∀ (i : Nat) (pod : String), pods[i]? = some pod → ∀ target,
      LeadsTo (pods.mapIdx forwardOf) (port (forwardOf i pod)) target ↔ target = (pod, podPort)) :
    LeadsOnly (pods.mapIdx forwardOf) pods podPort urls := by
  intro i pod hpod
  refine ⟨port (forwardOf i pod), ?_, hleads i pod hpod⟩
  rw [hurls, List.getElem?_map, List.getElem?_mapIdx, hpod]
  rfl

/-- What the suite reads, if there is a pod. -/
structure ReadBack (private_key : String) (pods : List String) : Prop where
  composedb : (portForward private_key pods).composeDbUrls =
    (pods.mapIdx forwardOf).map fun f => localUrl f.composedb_local
  ceramic : (portForward private_key pods).ceramicUrls =
    (pods.mapIdx forwardOf).map fun f => localUrl f.ceramic_local
  seeds : (portForward private_key pods).adminSeeds =
    (List.replicate pods.length (splitComma (commandSubst private_key))).flatten

theorem portForward_readBack (private_key : String) (hne : pods ≠ []) :
    ReadBack private_key pods := by
  have hall := portForward_forwards private_key pods
  obtain ⟨n, hn⟩ : ∃ n, pods.length = n + 1 :=
    ⟨pods.length - 1, by have := List.length_pos_iff.mpr hne; omega⟩
  have hurls : ∀ port : Forward → Nat,
      splitComma (",".intercalate ((pods.mapIdx forwardOf).map fun f => localUrl (port f))) =
        (pods.mapIdx forwardOf).map fun f => localUrl (port f) := by
    intro port
    apply splitComma_intercalate
    · intro s hs
      obtain ⟨f, _, rfl⟩ := List.mem_map.mp hs
      exact localUrl_no_comma _
    · intro hnil
      have hlen := congrArg List.length hnil
      rw [List.length_map, List.length_mapIdx, hn] at hlen
      cases hlen
  constructor
  · show splitComma (portForward private_key pods).COMPOSEDB_URLS = _
    rw [hall.composedb, hall.forwards, hurls]
  · show splitComma (portForward private_key pods).CERAMIC_URLS = _
    rw [hall.ceramic, hall.forwards, hurls]
  · show splitComma (portForward private_key pods).COMPOSEDB_ADMIN_DID_SEEDS = _
    rw [hall.seeds, hn, splitComma_replicate]

theorem ReadBack.enough_seeds {private_key : String} (h : ReadBack private_key pods) :
    ¬ (portForward private_key pods).adminSeeds.length <
      (portForward private_key pods).composeDbUrls.length := by
  have hpos : 1 ≤ (splitComma (commandSubst private_key)).length :=
    List.length_pos_iff.mpr (splitComma_ne_nil _)
  rw [h.composedb, h.seeds, List.length_map, List.length_mapIdx, List.length_flatten,
    List.map_replicate, List.sum_replicate_nat]
  exact not_lt.mpr (Nat.le_mul_of_pos_right _ hpos)

theorem ReadBack.leadsOnly_iff {private_key : String} (h : ReadBack private_key pods) :
    LeadsOnly (pods.mapIdx forwardOf) pods Hermetic.composedb
        (portForward private_key pods).composeDbUrls ∧
      LeadsOnly (pods.mapIdx forwardOf) pods Hermetic.ceramic
        (portForward private_key pods).ceramicUrls ↔ pods.length < 1907 := by
  constructor
  · intro ⟨honly, _⟩
    by_contra hmany
    exact not_leadsOnly_of_many (not_lt.mp hmany) h.composedb honly
  · intro hfew
    exact ⟨leadsOnly_of_forwards h.composedb fun i pod hpod _ => (leadsTo_of_few hfew hpod).1,
      leadsOnly_of_forwards h.ceramic fun i pod hpod _ => (leadsTo_of_few hfew hpod).2⟩

/-- What is right about the lists of the script.

    - Without pods the suite gets one empty address.
    - Otherwise there is one address of each kind for each pod, and the key
      as often, split at its own commas each time.
    - The `update` suite finds enough seeds.
    - Entry `i` of the two lists of addresses leads to the two ports of the
      `i`-th pod and nowhere else, unless there are too many pods. -/
structure Exported (private_key : String) (pods : List String) (st : Forwarding) : Prop where
  nothing : pods = [] → st.composeDbUrls = [""] ∧ st.ceramicUrls = [""] ∧ st.adminSeeds = [""]
  lists : pods ≠ [] → st.composeDbUrls.length = pods.length ∧
    st.ceramicUrls.length = pods.length ∧
    st.adminSeeds = (List.replicate pods.length (splitComma (commandSubst private_key))).flatten
  enough : ¬ st.adminSeeds.length < st.composeDbUrls.length
  leads : LeadsOnly st.forwards pods Hermetic.composedb st.composeDbUrls ∧
    LeadsOnly st.forwards pods Hermetic.ceramic st.ceramicUrls ↔ pods.length < 1907

/-- **The exported lists.** For any pods and any key. -/
theorem port_forward_exports (private_key : String) (pods : List String) :
    Exported private_key pods (portForward private_key pods) := by
  by_cases hne : pods = []
  · subst hne
    have hempty : (portForward private_key []).composeDbUrls = [""] ∧
        (portForward private_key []).ceramicUrls = [""] ∧
        (portForward private_key []).adminSeeds = [""] :=
      ⟨split_nothing, split_nothing, split_nothing⟩
    refine ⟨fun _ => hempty, fun h => absurd rfl h, ?_, by simp, fun _ => ?_⟩
    · rw [hempty.1, hempty.2.2]
      exact lt_irrefl _
    · exact ⟨fun i pod hpod => by simp at hpod, fun i pod hpod => by simp at hpod⟩
  · have hread := portForward_readBack private_key hne
    refine ⟨fun h => absurd h hne, fun _ => ⟨?_, ?_, hread.seeds⟩, hread.enough_seeds, ?_⟩
    · rw [hread.composedb, List.length_map, List.length_mapIdx]
    · rw [hread.ceramic, List.length_map, List.length_mapIdx]
    · rw [(portForward_forwards private_key pods).forwards]
      exact hread.leadsOnly_iff

end suite

end Hermetic
