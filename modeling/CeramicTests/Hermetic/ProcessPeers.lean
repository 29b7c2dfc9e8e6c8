import Std.Data.String.ToNat
import Mathlib.Data.List.Basic
import Mathlib.Data.List.DropRight

/-! # The environment that `process-peers.sh` writes

    `hermetic/src/cli/process-peers.sh` runs before the tests. It polls
    `/peers/peers.json` until it lists peers, and then writes three comma
    separated lists to `/config/.env`. The suite reads that file through
    `dotenv` and splits the lists again.

    - Two of the lists are made by `jq`, over the peers that have a
      `ceramic` object. The third is made by a loop of the shell, over all
      peers.
    - `jq` prints nothing when its input is missing, is not JSON, or does
      not have the expected form. The script goes on all the same.
-/

namespace Hermetic

/-! ## Section 1: `jq` -/

/-- A JSON value. A number is kept as the text that `jq` prints for it, and
    the keys of an object are distinct. -/
inductive Json where
  | null
  | bool (b : Bool)
  | num (text : String)
  | str (s : String)
  | arr (elements : List Json)
  | obj (fields : List (String × Json))

/-- What the script finds at `/peers/peers.json`. -/
inductive PeersFile where
  | missing
  | invalid
  | json (value : Json)

namespace Json

/-- `. | length`, as `jq -r` prints it. -/
def length : Json → Option String
  | null => some "0"
  | bool _ => none
  | num text => some (if text.startsWith "-" then (text.drop 1).copy else text)
  | str s => some (Nat.repr s.length)
  | arr elements => some (Nat.repr elements.length)
  | obj fields => some (Nat.repr fields.length)

/-- `.name` -/
def field (name : String) : Json → Option Json
  -- a field of null is null
  | null => some null
  | obj fields => some ((fields.lookup name).getD null)
  | _ => none

/-- `.[]` -/
def each : Json → Option (List Json)
  | arr elements => some elements
  | obj fields => some (fields.map Prod.snd)
  | _ => none

/-- `select(.)` keeps all but `null` and `false`. -/
def selected : Json → Bool
  | null => false
  | bool b => b
  | _ => true

/-- What `join` makes of one element. -/
def text : Json → Option String
  | null => some ""
  | bool b => some (if b then "true" else "false")
  | num text => some text
  | str s => some s
  | _ => none

/-- `join(",")` -/
def join (elements : List Json) : Option String :=
  (elements.mapM text).map fun texts => ",".intercalate texts

/-- `[.[].ceramic.name | select(.)] | join(",")` -/
def ceramicAddrs (name : String) (value : Json) : Option String :=
  value.each.bind fun peers =>
    (peers.mapM fun peer : Json => (peer.field "ceramic").bind (field name)).bind fun addrs =>
      join (addrs.filter selected)

end Json

/-- The output of a `jq` command: nothing if it fails. -/
def jq (filter : Json → Option String) : PeersFile → String
  | .missing => ""
  | .invalid => ""
  | .json value => (filter value).getD ""

/-! ## Section 2: The script -/

def getAvailablePeers (file : PeersFile) : String := jq Json.length file

/-- The value of a variable in an arithmetic expression of the shell. -/
def arith (value : String) : Nat := value.toNat?.getD 0

/-- The body of the loop that repeats the secret. -/
def seedsRound (availablePeers : Nat) (secret : String) (seeds : String) (i : Nat) : String :=
  -- no comma after the last copy; with no peers there is no last one
  if (i : Int) = (availablePeers : Int) - 1 then seeds ++ secret else seeds ++ (secret ++ ",")

def composedbAdminDidSeeds (availablePeers : Nat) (secret : String) : String :=
  (List.range availablePeers).foldl (seedsRound availablePeers secret) ""

/-- `$(…)` drops the line breaks at the end of the output. -/
def commandSubst (output : String) : String :=
  String.ofList (output.toList.rdropWhile fun c => c == '\n')

/-- One variable as a line of `/config/.env`. -/
def envLine (entry : String × String) : String := entry.1 ++ "=" ++ entry.2 ++ "\n"

def envFile (entries : List (String × String)) : String := String.join (entries.map envLine)

/-- The variables that the script writes, in order. -/
def envEntries (file : PeersFile) (secret : String) : List (String × String) :=
  [("CERAMIC_URLS", commandSubst (jq (Json.ceramicAddrs "ipfsRpcAddr") file)),
   ("COMPOSEDB_URLS", commandSubst (jq (Json.ceramicAddrs "ceramicAddr") file)),
   ("COMPOSEDB_ADMIN_DID_SEEDS",
     composedbAdminDidSeeds (arith (getAvailablePeers file)) secret)]

/-- How the script ended: its exit code, the polls that found no peers, and
    `/config/.env` if it was written. -/
structure Exit where
  code : Nat
  n : Nat
  env : Option String
  deriving DecidableEq, Repr

/-- The polling loop with `left` polls to go. The `n`-th poll finds `polls n`. -/
def poll (polls : Nat → PeersFile) (secret : String) : Nat → Nat → Exit
  | 0, n => { code := 1, n := n, env := none }
  | left + 1, n =>
    -- only the text "0" keeps the script waiting
    if getAvailablePeers (polls n) = "0" then poll polls secret left (n + 1)
    else { code := 0, n := n, env := some (envFile (envEntries (polls n) secret)) }

def processPeers (polls : Nat → PeersFile) (secret : String) : Exit := poll polls secret 30 0

/-- The file that the script polls. -/
def PEERS_FILE : String := "/peers/peers.json"

/-- The file that it writes. -/
def ENV_FILE : String := "/config/.env"

/-- The variable from which it takes the secret. -/
def SECRET_VARIABLE : String := "CERAMIC_ADMIN_DID_SECRET"

/-- The script among the files and the variables of its container: its exit
    code, and the files that it has written. -/
def script (read : Nat → String → PeersFile) (vars : String → String) :
    Nat × List (String × String) :=
  let e := processPeers (fun n => read n PEERS_FILE) (vars SECRET_VARIABLE)
  (e.code, e.env.toList.map fun text => (ENV_FILE, text))

/-- The script exits with 0 after the first poll that does not find zero
    peers, and what it writes is made from what that poll found. -/
theorem poll_exit {polls : Nat → PeersFile} {secret : String} {left n : Nat} {e : Exit}
    (h : poll polls secret left n = e) (hcode : e.code = 0) :
    getAvailablePeers (polls e.n) ≠ "0" ∧
      e.env = some (envFile (envEntries (polls e.n) secret)) := by
  induction left generalizing n with
  | zero =>
    subst h
    cases hcode
  | succ left ih =>
    unfold poll at h
    by_cases hnone : getAvailablePeers (polls n) = "0"
    · rw [if_pos hnone] at h
      exact ih h
    · rw [if_neg hnone] at h
      subst h
      exact ⟨hnone, rfl⟩

/-! ## Section 3: The suite's side -/

/-- `s.split(',')` -/
def splitComma (s : String) : List String := (s.split ',').toList.map fun slice => slice.copy

/-- `String(process.env.NAME).split(',')` -/
def envList (env : String → Option String) (name : String) : List String :=
  splitComma ((env name).getD "undefined")

/-- White space that JavaScript trims from both ends of a string. -/
def isBlank (c : Char) : Bool :=
  c.isWhitespace || [0xb, 0xc, 0xa0, 0x1680, 0x2028, 0x2029, 0x202f, 0x205f, 0x3000, 0xfeff].contains
    c.toNat || (0x2000 ≤ c.toNat && c.toNat ≤ 0x200a)

/-- A value that stands for itself in an environment file: it has no line
    break, quote or number sign, and no blank at either end. -/
structure Verbatim (value : String) : Prop where
  plain : ∀ c ∈ value.toList, c ∉ ['\n', '\r', '\x22', '\x27', '\x60', '#']
  head : ∀ c, value.toList.head? = some c → isBlank c = false
  last : ∀ c, value.toList.getLast? = some c → isBlank c = false

/-- A name of a variable. -/
def IsName (name : String) : Prop :=
  name ≠ "" ∧ ∀ c ∈ name.toList, c.isAlphanum = true ∨ c = '_'

/-- The part of `dotenv` that the suite relies on: a file of lines
    `NAME=value` with verbatim values gives each of them back. -/
def ReturnsVerbatim (dotenv : String → String → Option String) : Prop :=
  ∀ entries : List (String × String), (entries.map Prod.fst).Nodup →
    (∀ entry ∈ entries, IsName entry.1 ∧ Verbatim entry.2) →
    ∀ entry ∈ entries, dotenv (envFile entries) entry.1 = some entry.2

/-! ## Section 4: Peers -/

/-- An address or a secret that survives the comma list it is put in. -/
structure Clean (s : String) : Prop where
  verbatim : Verbatim s
  no_comma : ',' ∉ s.toList

/-- The addresses of a peer with a `ceramic` object. -/
def ceramicPeer : Json → Option (String × String)
  | .obj fields =>
    match fields.lookup "ceramic" with
    | some (.obj ceramic) =>
      match ceramic.lookup "ipfsRpcAddr", ceramic.lookup "ceramicAddr" with
      | some (.str ipfsRpcAddr), some (.str ceramicAddr) => some (ipfsRpcAddr, ceramicAddr)
      | _, _ => none
    | _ => none
  | _ => none

/-- A peer either has a `ceramic` object with two addresses, which are not
    empty, or no `ceramic` field. -/
inductive IsPeer : Json → Prop where
  | ipfs (fields : List (String × Json)) (h : fields.lookup "ceramic" = none) :
      IsPeer (.obj fields)
  | ceramic (fields ceramic : List (String × Json)) (ipfsRpcAddr ceramicAddr : String)
      (h : fields.lookup "ceramic" = some (.obj ceramic))
      (hrpc : ceramic.lookup "ipfsRpcAddr" = some (.str ipfsRpcAddr))
      (haddr : ceramic.lookup "ceramicAddr" = some (.str ceramicAddr))
      (hrpc_clean : Clean ipfsRpcAddr) (haddr_clean : Clean ceramicAddr)
      (hrpc_ne : ipfsRpcAddr ≠ "") (haddr_ne : ceramicAddr ≠ "") :
      IsPeer (.obj fields)

/-- What the filters of `jq` rely on: a peer has a `ceramic` object with two
    strings, or no `ceramic` field. -/
inductive ListedPeer : Json → Prop where
  | ipfs (fields : List (String × Json)) (h : fields.lookup "ceramic" = none) :
      ListedPeer (.obj fields)
  | ceramic (fields ceramic : List (String × Json)) (ipfsRpcAddr ceramicAddr : String)
      (h : fields.lookup "ceramic" = some (.obj ceramic))
      (hrpc : ceramic.lookup "ipfsRpcAddr" = some (.str ipfsRpcAddr))
      (haddr : ceramic.lookup "ceramicAddr" = some (.str ceramicAddr)) :
      ListedPeer (.obj fields)

theorem IsPeer.listed {peer : Json} (h : IsPeer peer) : ListedPeer peer := by
  cases h with
  | ipfs fields h => exact .ipfs fields h
  | ceramic fields ceramic rpc addr h hrpc haddr => exact .ceramic fields ceramic rpc addr h hrpc haddr

/-! ### The lists made by `jq` -/

/-- The field `name` of a `ceramic` object is the address that `pick` takes. -/
structure Picks (name : String) (pick : String × String → String) : Prop where
  addr : ∀ (ceramic : List (String × Json)) (rpc addr : String),
    ceramic.lookup "ipfsRpcAddr" = some (.str rpc) →
    ceramic.lookup "ceramicAddr" = some (.str addr) →
    ceramic.lookup name = some (.str (pick (rpc, addr)))

theorem picks_ipfsRpcAddr : Picks "ipfsRpcAddr" Prod.fst := ⟨fun _ _ _ hrpc _ => hrpc⟩

theorem picks_ceramicAddr : Picks "ceramicAddr" Prod.snd := ⟨fun _ _ _ _ haddr => haddr⟩

/-- What the filter finds at one peer. -/
theorem field_of_listed {name : String} {pick : String × String → String} (hpick : Picks name pick)
    {peer : Json} (h : ListedPeer peer) :
    (peer.field "ceramic").bind (Json.field name) =
      some (((ceramicPeer peer).map fun p => Json.str (pick p)).getD .null) := by
  cases h with
  | ipfs fields h =>
    simp [Json.field, ceramicPeer, h]
  | ceramic fields ceramic rpc addr h hrpc haddr =>
    simp [Json.field, ceramicPeer, h, hrpc, haddr, hpick.addr ceramic rpc addr hrpc haddr]

theorem mapM_field_of_listed {name : String} {pick : String × String → String}
    (hpick : Picks name pick) {peers : List Json} (h : ∀ peer ∈ peers, ListedPeer peer) :
    (peers.mapM fun peer : Json => (peer.field "ceramic").bind (Json.field name)) =
      some (peers.map fun peer =>
        ((ceramicPeer peer).map fun p => Json.str (pick p)).getD .null) := by
  induction peers with
  | nil => rfl
  | cons peer peers ih =>
    rw [List.mapM_cons, field_of_listed hpick (h peer List.mem_cons_self),
      ih fun p hp => h p (List.mem_cons_of_mem _ hp)]
    rfl

/-- Peers without addresses leave no trace in the list. -/
theorem filter_selected (pick : String × String → String) (peers : List Json) :
    (peers.map fun peer => ((ceramicPeer peer).map fun p => Json.str (pick p)).getD .null).filter
        Json.selected =
      (peers.filterMap ceramicPeer).map fun p => Json.str (pick p) := by
  induction peers with
  | nil => rfl
  | cons peer peers ih =>
    cases h : ceramicPeer peer with
    -- a peer without addresses gives null, which is filtered out
    | none => simp [h, Json.selected, ih]
    | some p =>
      rw [List.map_cons, h, List.filterMap_cons_some h, List.map_cons, ← ih]
      rfl

theorem join_strings (l : List String) :
    Json.join (l.map Json.str) = some (",".intercalate l) := by
  have hmap : (l.map Json.str).mapM Json.text = some l := by
    induction l with
    | nil => rfl
    | cons s l ih =>
      rw [List.map_cons, List.mapM_cons, ih]
      rfl
  unfold Json.join
  rw [hmap]
  rfl

/-- Both lists of `jq` name the ceramic peers, in the order of the file. -/
theorem jq_ceramicAddrs {name : String} {pick : String × String → String}
    (hpick : Picks name pick) {peers : List Json} (h : ∀ peer ∈ peers, ListedPeer peer) :
    jq (Json.ceramicAddrs name) (.json (.arr peers)) =
      ",".intercalate ((peers.filterMap ceramicPeer).map pick) := by
  have hfilter : Json.ceramicAddrs name (.arr peers) =
      Json.join ((peers.filterMap ceramicPeer).map fun p => Json.str (pick p)) := by
    unfold Json.ceramicAddrs Json.each
    simp only [Option.bind_some, mapM_field_of_listed hpick h, filter_selected]
  have hjoin := join_strings ((peers.filterMap ceramicPeer).map pick)
  rw [List.map_map] at hjoin
  show (Json.ceramicAddrs name (.arr peers)).getD "" = _
  rw [hfilter]
  exact congrArg (fun o => Option.getD o "") hjoin

/-! ### The list made by the shell -/

theorem intercalate_replicate_succ (secret : String) (k : Nat) :
    ",".intercalate (List.replicate (k + 1) secret) =
      String.join (List.replicate k (secret ++ ",")) ++ secret := by
  induction k with
  | zero => simp
  | succ k ih =>
    rw [List.replicate_succ, List.replicate_succ, String.intercalate_cons_cons,
      ← List.replicate_succ, ih, List.replicate_succ, String.join_cons]
    simp only [String.append_assoc]

/-- Before its last round the loop has appended `i` copies, each with a comma. -/
theorem seeds_before_last (secret : String) (n i : Nat) (hi : i ≤ n) :
    (List.range i).foldl (seedsRound (n + 1) secret) "" =
      String.join (List.replicate i (secret ++ ",")) := by
  induction i with
  | zero => simp
  | succ i ih =>
    rw [List.range_succ, List.foldl_append, ih (by omega), List.replicate_succ',
      String.join_append]
    unfold seedsRound
    -- this is not the last round
    have hne : ¬ (i : Int) = ((n + 1 : Nat) : Int) - 1 := by omega
    simp only [List.foldl_cons, List.foldl_nil, if_neg hne]
    simp

/-- The shell's loop makes one copy of the secret for each peer. -/
theorem composedbAdminDidSeeds_eq (n : Nat) (secret : String) (hn : 0 < n) :
    composedbAdminDidSeeds n secret = ",".intercalate (List.replicate n secret) := by
  obtain ⟨n, rfl⟩ : ∃ m, n = m + 1 := ⟨n - 1, by omega⟩
  unfold composedbAdminDidSeeds
  rw [List.range_succ, List.foldl_append, seeds_before_last secret n n (Nat.le_refl n),
    intercalate_replicate_succ]
  unfold seedsRound
  have heq : (n : Int) = ((n + 1 : Nat) : Int) - 1 := by omega
  simp only [List.foldl_cons, List.foldl_nil, if_pos heq]

/-! ## Section 5: Reading the lists back -/

/-- `Verbatim` as a check that can be run. -/
theorem verbatim_of_decide {s : String}
    (h : (s.toList.all fun c =>
        !(['\n', '\r', '\x22', '\x27', '\x60', '#'].contains c)) = true ∧
      s.toList.head?.any isBlank = false ∧ s.toList.getLast?.any isBlank = false) :
    Verbatim s := by
  have hplain : ∀ c ∈ s.toList, c ∉ ['\n', '\r', '\x22', '\x27', '\x60', '#'] := by
    intro c hc
    have hc := List.all_eq_true.mp h.1 c hc
    simpa using hc
  refine ⟨hplain, ?_, ?_⟩
  · intro c hc
    have hany := h.2.1
    rw [hc] at hany
    exact hany
  · intro c hc
    have hany := h.2.2
    rw [hc] at hany
    exact hany

/-- Joining on the comma keeps a value verbatim: the comma is no blank. -/
theorem Verbatim.append_comma {a b : String} (ha : Verbatim a) (hb : Verbatim b) :
    Verbatim (a ++ "," ++ b) where
  plain := by
    intro c hc
    rw [String.toList_append, String.toList_append] at hc
    rcases List.mem_append.mp hc with hc | hc
    · rcases List.mem_append.mp hc with hc | hc
      · exact ha.plain c hc
      · have hcomma : c = ',' := List.mem_singleton.mp hc
        subst hcomma
        decide
    · exact hb.plain c hc
  head := by
    intro c hc
    rw [String.toList_append, String.toList_append, List.append_assoc, List.head?_append] at hc
    -- an empty first value leaves the comma in front
    cases hhead : a.toList.head? with
    | none =>
      rw [hhead] at hc
      have hcomma : ',' = c := Option.some.inj hc
      subst hcomma
      decide
    | some c' =>
      rw [hhead] at hc
      exact ha.head c (hhead.trans hc)
  last := by
    intro c hc
    rw [String.toList_append, String.toList_append, List.append_assoc, List.getLast?_append,
      List.getLast?_append] at hc
    -- and an empty second value leaves it at the end
    cases hlast : b.toList.getLast? with
    | none =>
      rw [hlast] at hc
      have hcomma : ',' = c := Option.some.inj hc
      subst hcomma
      decide
    | some c' =>
      rw [hlast] at hc
      exact hb.last c (hlast.trans hc)

theorem verbatim_intercalate {l : List String} (h : ∀ s ∈ l, Verbatim s) :
    Verbatim (",".intercalate l) := by
  induction l with
  | nil => exact ⟨by simp, by simp, by simp⟩
  | cons a l ih =>
    cases l with
    | nil =>
      rw [String.intercalate_singleton]
      exact h a List.mem_cons_self
    | cons b l =>
      rw [String.intercalate_cons_cons]
      exact (h a List.mem_cons_self).append_comma
        (ih fun s hs => h s (List.mem_cons_of_mem _ hs))

/-- A verbatim value has no line break to drop. -/
theorem commandSubst_of_verbatim {s : String} (h : Verbatim s) : commandSubst s = s := by
  have hself : (s.toList.rdropWhile fun c => c == '\n') = s.toList := by
    rw [List.rdropWhile_eq_self_iff]
    intro hne hlast
    have hc := h.plain _ (List.getLast_mem hne)
    rw [eq_of_beq hlast] at hc
    exact hc (by decide)
  unfold commandSubst
  rw [hself, String.ofList_toList]

/-- Splitting undoes joining. -/
theorem splitComma_intercalate {l : List String} (h : ∀ s ∈ l, ',' ∉ s.toList) (hne : l ≠ []) :
    splitComma (",".intercalate l) = l := by
  have hsplit := String.toList_split_intercalate h
  rw [if_neg hne] at hsplit
  exact hsplit

/-- A list of clean strings comes back from the environment as it was. -/
theorem envList_of_clean {env : String → Option String} {name : String} {l : List String}
    (henv : env name = some (",".intercalate l)) (h : ∀ s ∈ l, Clean s) (hne : l ≠ []) :
    envList env name = l := by
  unfold envList
  rw [henv]
  exact splitComma_intercalate (fun s hs => (h s hs).no_comma) hne

theorem clean_of_ceramicPeer {peers : List Json} (h : ∀ peer ∈ peers, IsPeer peer) :
    ∀ p ∈ peers.filterMap ceramicPeer, Clean p.1 ∧ Clean p.2 := by
  intro p hp
  obtain ⟨peer, hpeer, hcer⟩ := List.mem_filterMap.mp hp
  cases h peer hpeer with
  | ipfs fields h => simp [ceramicPeer, h] at hcer
  | ceramic fields ceramic rpc addr h hrpc haddr hrpc_clean haddr_clean =>
    simp only [ceramicPeer, h, hrpc, haddr, Option.some.injEq] at hcer
    subst hcer
    exact ⟨hrpc_clean, haddr_clean⟩

theorem getAvailablePeers_arr (peers : List Json) :
    getAvailablePeers (.json (.arr peers)) = Nat.repr peers.length := rfl

theorem isName_of_all {name : String} (hne : name ≠ "")
    (h : (name.toList.all fun c => c.isAlphanum || c == '_') = true) : IsName name := by
  refine ⟨hne, ?_⟩
  intro c hc
  have hc := List.all_eq_true.mp h c hc
  simpa using hc

/-- Three variables of the script are read back by the suite. -/
theorem dotenv_entries {dotenv : String → String → Option String} (hdotenv : ReturnsVerbatim dotenv)
    {urls composeDbUrls seeds : String} (hurls : Verbatim urls)
    (hcompose : Verbatim composeDbUrls) (hseeds : Verbatim seeds) :
    let file := envFile [("CERAMIC_URLS", urls), ("COMPOSEDB_URLS", composeDbUrls),
      ("COMPOSEDB_ADMIN_DID_SEEDS", seeds)]
    dotenv file "CERAMIC_URLS" = some urls ∧
      dotenv file "COMPOSEDB_URLS" = some composeDbUrls ∧
      dotenv file "COMPOSEDB_ADMIN_DID_SEEDS" = some seeds := by
  have hname₁ : IsName "CERAMIC_URLS" := isName_of_all (by decide) (by decide)
  have hname₂ : IsName "COMPOSEDB_URLS" := isName_of_all (by decide) (by decide)
  have hname₃ : IsName "COMPOSEDB_ADMIN_DID_SEEDS" := isName_of_all (by decide) (by decide)
  have hread := hdotenv [("CERAMIC_URLS", urls), ("COMPOSEDB_URLS", composeDbUrls),
    ("COMPOSEDB_ADMIN_DID_SEEDS", seeds)] (by simp) (by
      intro entry hentry
      simp only [List.mem_cons, List.not_mem_nil, or_false] at hentry
      rcases hentry with rfl | rfl | rfl
      · exact ⟨hname₁, hurls⟩
      · exact ⟨hname₂, hcompose⟩
      · exact ⟨hname₃, hseeds⟩)
  exact ⟨hread ("CERAMIC_URLS", urls) (by simp),
    hread ("COMPOSEDB_URLS", composeDbUrls) (by simp),
    hread ("COMPOSEDB_ADMIN_DID_SEEDS", seeds) (by simp)⟩

/-- **The environment is decoded as it was encoded.** For a list of peers
    with at least one ceramic peer, the script exits with 0 at its first
    poll. Whenever it exits with 0 after it has found that list, then

    - `CERAMIC_URLS` and `COMPOSEDB_URLS` split into the two addresses of
      the ceramic peers, in the order of the file;
    - `COMPOSEDB_ADMIN_DID_SEEDS` splits into one copy of the secret per
      peer, which is enough for the `update` suite. -/
theorem env_decodes_as_encoded {dotenv : String → String → Option String}
    (hdotenv : ReturnsVerbatim dotenv) {secret : String} (hsecret : Clean secret)
    {peers : List Json} (hpeers : ∀ peer ∈ peers, IsPeer peer)
    (hceramic : peers.filterMap ceramicPeer ≠ []) :
    (processPeers (fun _ => .json (.arr peers)) secret).code = 0 ∧
    ∀ polls e, processPeers polls secret = e → e.code = 0 → polls e.n = .json (.arr peers) →
      ∃ file, e.env = some file ∧
        envList (dotenv file) "CERAMIC_URLS" = (peers.filterMap ceramicPeer).map Prod.fst ∧
        envList (dotenv file) "COMPOSEDB_URLS" = (peers.filterMap ceramicPeer).map Prod.snd ∧
        envList (dotenv file) "COMPOSEDB_ADMIN_DID_SEEDS" =
          List.replicate peers.length secret ∧
        ¬ (envList (dotenv file) "COMPOSEDB_ADMIN_DID_SEEDS").length <
          (envList (dotenv file) "COMPOSEDB_URLS").length := by
  have hpos : 0 < peers.length := by
    apply List.length_pos_iff.mpr
    rintro rfl
    exact hceramic rfl
  -- the number of peers is not printed as zero
  have hsome : ¬ getAvailablePeers (.json (.arr peers)) = "0" := by
    intro h
    have hzero : Nat.repr peers.length = Nat.repr 0 := h
    have := Nat.repr_injective hzero
    omega
  constructor
  · unfold processPeers poll
    rw [if_neg hsome]
  · intro polls e he hcode hfound
    obtain ⟨_, henv⟩ := poll_exit he hcode
    rw [hfound] at henv
    -- all three lists are made of clean strings
    have hclean := clean_of_ceramicPeer hpeers
    have hfst : ∀ s ∈ (peers.filterMap ceramicPeer).map Prod.fst, Clean s := by
      intro s hs
      obtain ⟨p, hp, rfl⟩ := List.mem_map.mp hs
      exact (hclean p hp).1
    have hsnd : ∀ s ∈ (peers.filterMap ceramicPeer).map Prod.snd, Clean s := by
      intro s hs
      obtain ⟨p, hp, rfl⟩ := List.mem_map.mp hs
      exact (hclean p hp).2
    have hcopies : ∀ s ∈ List.replicate peers.length secret, Clean s := by
      intro s hs
      rw [List.eq_of_mem_replicate hs]
      exact hsecret
    -- the loop of the shell runs over all peers
    have hseeds : composedbAdminDidSeeds (arith (getAvailablePeers (.json (.arr peers)))) secret =
        ",".intercalate (List.replicate peers.length secret) := by
      rw [getAvailablePeers_arr]
      unfold arith
      rw [Nat.toNat?_repr]
      exact composedbAdminDidSeeds_eq peers.length secret hpos
    have hlisted : ∀ peer ∈ peers, ListedPeer peer := fun peer hpeer => (hpeers peer hpeer).listed
    have hurls : Verbatim (",".intercalate ((peers.filterMap ceramicPeer).map Prod.fst)) :=
      verbatim_intercalate fun s hs => (hfst s hs).verbatim
    have hcompose : Verbatim (",".intercalate ((peers.filterMap ceramicPeer).map Prod.snd)) :=
      verbatim_intercalate fun s hs => (hsnd s hs).verbatim
    unfold envEntries at henv
    rw [jq_ceramicAddrs picks_ipfsRpcAddr hlisted, jq_ceramicAddrs picks_ceramicAddr hlisted,
      commandSubst_of_verbatim hurls, commandSubst_of_verbatim hcompose, hseeds] at henv
    obtain ⟨h1, h2, h3⟩ := dotenv_entries hdotenv hurls hcompose
      (verbatim_intercalate fun s hs => (hcopies s hs).verbatim)
    have hurls := envList_of_clean h1 hfst (by simpa using hceramic)
    have hcompose := envList_of_clean h2 hsnd (by simpa using hceramic)
    have hadmin := envList_of_clean h3 hcopies (by
      rw [Ne, List.replicate_eq_nil_iff]
      omega)
    refine ⟨_, henv, hurls, hcompose, hadmin, ?_⟩
    rw [hcompose, hadmin, List.length_map, List.length_replicate]
    have hle := List.length_filterMap_le ceramicPeer peers
    omega

/-! ### An IPFS-only peer before a ceramic one

    The file is read back by a small reader of environment files: it takes
    the first line with the name, up to the equals sign. -/

section twoPeers

private def readEnv (file name : String) : Option String :=
  (file.toList.splitOn '\n').findSome? fun line =>
    if line.takeWhile (fun c => c != '=') = name.toList then
      some (String.ofList (line.drop (name.toList.length + 1)))
    else none

private def line (entry : String × String) : List Char :=
  entry.1.toList ++ '=' :: entry.2.toList

private theorem toList_envFile (entries : List (String × String)) :
    (envFile entries).toList = ['\n'].intercalate (entries.map line ++ [[]]) := by
  induction entries with
  | nil => rfl
  | cons entry entries ih =>
    have hfile : envFile (entry :: entries) = envLine entry ++ envFile entries := by
      unfold envFile
      rw [List.map_cons, String.join_cons]
    rw [hfile, String.toList_append, ih, List.map_cons, List.cons_append,
      List.intercalate_cons_of_ne_nil (by simp)]
    simp [envLine, line]

private theorem not_mem_name {name : String} (h : IsName name) {c : Char}
    (hc : c.isAlphanum = false) (hu : c ≠ '_') : c ∉ name.toList := by
  intro hmem
  rcases h.2 c hmem with halnum | heq
  · rw [halnum] at hc
    cases hc
  · exact hu heq

private theorem readEnv_verbatim : ReturnsVerbatim readEnv := by
  intro entries hnodup hentries entry hentry
  -- no name and no value breaks a line
  have hsplit : (envFile entries).toList.splitOn '\n' = entries.map line ++ [[]] := by
    rw [toList_envFile]
    apply List.splitOn_intercalate _ _ (by simp)
    intro l hl
    rcases List.mem_append.mp hl with hl | hl
    · obtain ⟨e, he, rfl⟩ := List.mem_map.mp hl
      obtain ⟨hname, hvalue⟩ := hentries e he
      intro hmem
      rcases List.mem_append.mp hmem with hmem | hmem
      · exact not_mem_name hname (by decide) (by decide) hmem
      · rcases List.mem_cons.mp hmem with hmem | hmem
        · exact absurd hmem (by decide)
        · exact hvalue.plain _ hmem (by decide)
    · rw [List.mem_singleton.mp hl]
      simp
  unfold readEnv
  rw [hsplit]
  clear hsplit
  induction entries with
  | nil => simp at hentry
  | cons e entries ih =>
    have hname := (hentries e List.mem_cons_self).1
    have hhead : (line e).takeWhile (fun c => c != '=') = e.1.toList := by
      unfold line
      rw [List.takeWhile_append_of_pos, List.takeWhile_cons_of_neg (by simp), List.append_nil]
      intro c hc
      rw [bne_iff_ne]
      rintro rfl
      exact not_mem_name hname (by decide) (by decide) hc
    rw [List.map_cons, List.cons_append, List.findSome?_cons, hhead]
    rcases List.mem_cons.mp hentry with rfl | hentry
    · rw [if_pos rfl]
      simp [line]
    · -- the name of this line is another one
      obtain ⟨hnotin, hnodup⟩ := List.nodup_cons.mp hnodup
      have hne : ¬ e.1.toList = entry.1.toList := by
        intro heq
        exact hnotin (String.toList_inj.mp heq ▸ List.mem_map_of_mem hentry)
      rw [if_neg hne]
      exact ih hnodup (fun e' he' => hentries e' (List.mem_cons_of_mem _ he')) hentry

private def twoPeers : List Json :=
  [.obj [("ipfs", .obj [])],
   .obj [("ceramic", .obj [("ipfsRpcAddr", .str "http://ceramic-0-0:5101"),
     ("ceramicAddr", .str "http://ceramic-0-0:7007")])]]

/-- The first peer has no addresses, and the lists still agree. -/
theorem env_of_two_peers : ∃ file,
    (processPeers (fun _ => .json (.arr twoPeers)) "seed").env = some file ∧
    envList (readEnv file) "CERAMIC_URLS" = ["http://ceramic-0-0:5101"] ∧
    envList (readEnv file) "COMPOSEDB_URLS" = ["http://ceramic-0-0:7007"] ∧
    envList (readEnv file) "COMPOSEDB_ADMIN_DID_SEEDS" = ["seed", "seed"] := by
  have hpeers : ∀ peer ∈ twoPeers, IsPeer peer := by
    intro peer hpeer
    simp only [twoPeers, List.mem_cons, List.not_mem_nil, or_false] at hpeer
    rcases hpeer with rfl | rfl
    · exact .ipfs _ rfl
    · have hrpc : Clean "http://ceramic-0-0:5101" :=
        ⟨verbatim_of_decide (by decide), by decide⟩
      have haddr : Clean "http://ceramic-0-0:7007" :=
        ⟨verbatim_of_decide (by decide), by decide⟩
      exact .ceramic _ _ _ _ rfl rfl rfl hrpc haddr (by decide) (by decide)
  have hsecret : Clean "seed" := ⟨verbatim_of_decide (by decide), by decide⟩
  have hceramic : twoPeers.filterMap ceramicPeer =
    [("http://ceramic-0-0:5101", "http://ceramic-0-0:7007")] := rfl
  obtain ⟨hcode, hall⟩ := env_decodes_as_encoded readEnv_verbatim hsecret hpeers
    (by rw [hceramic]; exact List.cons_ne_nil _ _)
  obtain ⟨file, henv, hurls, hcompose, hseeds, _⟩ := hall _ _ rfl hcode rfl
  exact ⟨file, henv, hurls, hcompose, hseeds⟩

end twoPeers

end Hermetic
