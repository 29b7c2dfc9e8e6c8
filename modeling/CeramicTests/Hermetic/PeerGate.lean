import CeramicTests.Hermetic.ProcessPeers

/-! # The gate of `process-peers.sh`

    The tests start when the script exits with 0. It should do so only when
    it has found peers with Ceramic addresses, and "wait for 5 minutes, or
    till the peers are available" otherwise (`PeerGate`).

    The script waits only as long as `jq` prints the text "0". A missing or
    invalid file, for which `jq` prints nothing, and a list of peers without
    addresses both end the wait. So the gate is right only if nothing but
    values of length 0 comes before the first list with addresses. And then
    each of the two lists is right only if `jq` can read all its peers, and
    what it lists are addresses of ceramic peers (`Waits`).
-/

namespace Hermetic

/-! ## Section 1: The gate -/

/-- The addresses of the ceramic peers in a valid list. -/
def ceramicPeers : PeersFile → List (String × String)
  | .json (.arr peers) => peers.filterMap ceramicPeer
  | _ => []

/-- Split at its commas, the value gives addresses of `addrs` only. -/
def NamesOnly (value : String) (addrs : List String) : Prop :=
  ∀ entry ∈ splitComma value, entry ≠ "" ∧ entry ∈ addrs

/-- The script exits with 0 only after a poll that found ceramic peers, and
    both lists that it then writes name addresses of these peers only. In
    every other case it exits with 1 after 30 polls, none of which found a
    ceramic peer, and writes nothing. -/
structure PeerGate (polls : Nat → PeersFile) (secret : String) (e : Exit) : Prop where
  opens : e.code = 0 → ceramicPeers (polls e.n) ≠ [] ∧
    e.env = some (envFile (envEntries (polls e.n) secret)) ∧
    ∃ ceramicUrls composedbUrls,
      (envEntries (polls e.n) secret).lookup "CERAMIC_URLS" = some ceramicUrls ∧
      NamesOnly ceramicUrls ((ceramicPeers (polls e.n)).map Prod.fst) ∧
      (envEntries (polls e.n) secret).lookup "COMPOSEDB_URLS" = some composedbUrls ∧
      NamesOnly composedbUrls ((ceramicPeers (polls e.n)).map Prod.snd)
  closes : e.code ≠ 0 → e.code = 1 ∧ e.n = 30 ∧ e.env = none ∧
    ∀ n < 30, ceramicPeers (polls n) = []

/-! ## Section 2: When the gate is right -/

/-- The values whose length is 0. -/
inductive LengthZero : PeersFile → Prop where
  | null : LengthZero (.json .null)
  | zero : LengthZero (.json (.num "0"))
  | negZero : LengthZero (.json (.num "-0"))
  | str : LengthZero (.json (.str ""))
  | arr : LengthZero (.json (.arr []))
  | obj : LengthZero (.json (.obj []))

/-- What one element adds to the list of the field `name`: an address or
    nothing. At some elements `jq` fails, and with it the whole list. -/
def address (name : String) : Json → Option (Option String)
  | .null => some none
  | .obj fields =>
    match fields.lookup "ceramic" with
    | none | some .null => some none
    | some (.obj ceramic) =>
      match ceramic.lookup name with
      | none | some .null | some (.bool false) => some none
      | some (.bool true) => some (some "true")
      | some (.num text) => some (some text)
      | some (.str s) => some (some s)
      | some (.arr _) | some (.obj _) => none
    | some _ => none
  | _ => none

/-- The addresses that stand under `name` in the file. -/
def addresses (name : String) (peers : List Json) : List String :=
  peers.filterMap fun peer => (address name peer).join

/-- The addresses as `$(…)` passes them on: the last one loses the line
    breaks at its end. -/
def substituted : List String → List String
  | [] => []
  | [addr] => [commandSubst addr]
  | addr :: addr' :: addrs => addr :: substituted (addr' :: addrs)

/-- Split at the commas inside them, the addresses `addrs` give addresses of
    `known` only. -/
def SplitsInto (addrs known : List String) : Prop :=
  ∀ addr ∈ substituted addrs, ∀ part ∈ splitComma addr, part ≠ "" ∧ part ∈ known

/-- Every element of the file can be read, and what stands under `name` are
    addresses of `known` only. -/
def ListsOnly (name : String) (known : List String) : PeersFile → Prop
  | .json (.arr peers) =>
    (∀ peer ∈ peers, address name peer ≠ none) ∧ SplitsInto (addresses name peers) known
  | _ => False

/-- All polls find a value of length 0, or the first one that does not finds
    a list with ceramic peers, and lists addresses of these peers only. -/
def Waits (polls : Nat → PeersFile) : Prop :=
  (∀ n < 30, LengthZero (polls n)) ∨
  ∃ n < 30, (∀ m < n, LengthZero (polls m)) ∧ ceramicPeers (polls n) ≠ [] ∧
    ListsOnly "ipfsRpcAddr" ((ceramicPeers (polls n)).map Prod.fst) (polls n) ∧
    ListsOnly "ceramicAddr" ((ceramicPeers (polls n)).map Prod.snd) (polls n)

theorem repr_eq_zero_iff (n : Nat) : Nat.repr n = "0" ↔ n = 0 := by
  constructor
  · intro h
    have hrepr : Nat.repr n = Nat.repr 0 := h
    exact Nat.repr_injective hrepr
  · rintro rfl
    rfl

/-- The length of a number is its absolute value. -/
theorem length_num_eq_zero_iff (text : String) :
    (Json.num text).length = some "0" ↔ text = "0" ∨ text = "-0" := by
  unfold Json.length
  rw [Option.some.injEq]
  by_cases hminus : text.startsWith "-" = true
  · obtain ⟨digits, hdigits⟩ := String.startsWith_string_iff.mp hminus
    have htext : text.toList = '-' :: digits := hdigits.symm
    rw [if_pos hminus, ← String.toList_inj, ← String.toList_inj, ← String.toList_inj,
      String.toList_copy_drop, htext]
    simp
  · rw [if_neg hminus]
    constructor
    · exact Or.inl
    · rintro (rfl | rfl)
      · rfl
      · exact absurd (String.startsWith_string_iff.mpr (by decide)) hminus

/-- `jq` prints the text "0" for the values of length 0 only. -/
theorem getAvailablePeers_eq_zero_iff (file : PeersFile) :
    getAvailablePeers file = "0" ↔ LengthZero file := by
  have hprinted : ∀ value : Json, getAvailablePeers (.json value) = "0" ↔
      value.length = some "0" := by
    intro value
    show value.length.getD "" = "0" ↔ _
    cases value.length <;> simp
  constructor
  · intro h
    cases file with
    -- `jq` prints nothing
    | missing => exact absurd h (by decide)
    | invalid => exact absurd h (by decide)
    | json value =>
      have hlen := (hprinted value).mp h
      cases value with
      | null => exact .null
      | bool b => cases hlen
      | num text =>
        rcases (length_num_eq_zero_iff text).mp hlen with rfl | rfl
        · exact .zero
        · exact .negZero
      | str s =>
        have hs := (repr_eq_zero_iff s.length).mp (Option.some.inj hlen)
        rw [String.length_eq_zero_iff.mp hs]
        exact .str
      | arr elements =>
        rw [List.eq_nil_of_length_eq_zero ((repr_eq_zero_iff _).mp (Option.some.inj hlen))]
        exact .arr
      | obj fields =>
        rw [List.eq_nil_of_length_eq_zero ((repr_eq_zero_iff _).mp (Option.some.inj hlen))]
        exact .obj
  · intro h
    cases h with
    | zero => exact (hprinted _).mpr ((length_num_eq_zero_iff _).mpr (Or.inl rfl))
    | negZero => exact (hprinted _).mpr ((length_num_eq_zero_iff _).mpr (Or.inr rfl))
    | null => rfl
    | str => rfl
    | arr => rfl
    | obj => rfl

/-- No ceramic peers are listed in a value of length 0. -/
theorem LengthZero.no_peers {file : PeersFile} (h : LengthZero file) : ceramicPeers file = [] := by
  cases h <;> rfl

/-- The wait, in its two outcomes. -/
theorem poll_cases (polls : Nat → PeersFile) (secret : String) (left n : Nat) :
    ((∀ m, n ≤ m → m < n + left → getAvailablePeers (polls m) = "0") ∧
      poll polls secret left n = ⟨1, n + left, none⟩) ∨
    ∃ k, n ≤ k ∧ k < n + left ∧ (∀ m, n ≤ m → m < k → getAvailablePeers (polls m) = "0") ∧
      getAvailablePeers (polls k) ≠ "0" ∧
      poll polls secret left n = ⟨0, k, some (envFile (envEntries (polls k) secret))⟩ := by
  induction left generalizing n with
  | zero =>
    left
    exact ⟨by omega, rfl⟩
  | succ left ih =>
    unfold poll
    by_cases hnone : getAvailablePeers (polls n) = "0"
    · rw [if_pos hnone]
      -- this poll finds no peers either
      have hfrom : ∀ {m k : Nat}, n ≤ m → m < k →
          (∀ m, n + 1 ≤ m → m < k → getAvailablePeers (polls m) = "0") →
          getAvailablePeers (polls m) = "0" := by
        intro m k hm hk hrest
        by_cases heq : m = n
        · rw [heq]
          exact hnone
        · exact hrest m (by omega) hk
      rcases ih (n + 1) with ⟨hall, hpoll⟩ | ⟨k, hk, hlt, hbefore, hfound, hpoll⟩
      · left
        rw [hpoll]
        refine ⟨?_, by congr 1; omega⟩
        intro m hm hlt
        exact hfrom hm (by omega : m < n + 1 + left) hall
      · right
        rw [hpoll]
        exact ⟨k, by omega, by omega, fun m hm hlt => hfrom hm hlt hbefore, hfound, rfl⟩
    · rw [if_neg hnone]
      right
      exact ⟨n, Nat.le_refl n, by omega, by omega, hnone, rfl⟩

/-! ## Section 3: The lists that are written -/

/-- The line breaks at the end do not reach beyond a comma. -/
theorem commandSubst_append_comma (a b : String) :
    commandSubst (a ++ "," ++ b) = a ++ "," ++ commandSubst b := by
  have hdrop : (a.toList ++ ',' :: b.toList).rdropWhile (fun c => c == '\n') =
      a.toList ++ ',' :: b.toList.rdropWhile (fun c => c == '\n') := by
    unfold List.rdropWhile
    rw [List.reverse_append, List.reverse_cons, List.append_assoc, List.dropWhile_append]
    cases h : b.toList.reverse.dropWhile (fun c => c == '\n') with
    | nil =>
      -- the comma stops the dropping
      rw [List.singleton_append, List.dropWhile_cons_of_neg (by decide)]
      simp
    | cons c l => simp
  apply String.toList_inj.mp
  simp [commandSubst, hdrop]

theorem commandSubst_intercalate (addrs : List String) :
    commandSubst (",".intercalate addrs) = ",".intercalate (substituted addrs) := by
  induction addrs with
  | nil => decide
  | cons addr addrs ih =>
    cases addrs with
    | nil => simp [substituted]
    | cons addr' addrs =>
      have hne : ∃ b l, substituted (addr' :: addrs) = b :: l := by
        cases addrs with
        | nil => exact ⟨_, _, rfl⟩
        | cons => exact ⟨_, _, rfl⟩
      obtain ⟨b, l, hsub⟩ := hne
      rw [String.intercalate_cons_cons, commandSubst_append_comma, ih]
      show addr ++ "," ++ _ = ",".intercalate (addr :: substituted (addr' :: addrs))
      rw [hsub, String.intercalate_cons_cons]

theorem splitComma_append_comma (a b : String) :
    splitComma (a ++ "," ++ b) = splitComma a ++ splitComma b := by
  unfold splitComma
  simp only [String.toList_split_char, String.toList_append]
  show List.map String.ofList ((a.toList ++ [','] ++ b.toList).splitOn ',') = _
  rw [List.append_assoc, List.singleton_append, List.splitOn_append_cons_self, List.map_append]

/-- A list of addresses is split at its own commas and at those inside the
    addresses. -/
theorem mem_splitComma_intercalate {addrs : List String} (hne : addrs ≠ []) (entry : String) :
    entry ∈ splitComma (",".intercalate addrs) ↔ ∃ addr ∈ addrs, entry ∈ splitComma addr := by
  induction addrs with
  | nil => exact absurd rfl hne
  | cons addr addrs ih =>
    cases addrs with
    | nil => simp
    | cons addr' addrs =>
      rw [String.intercalate_cons_cons, splitComma_append_comma, List.mem_append,
        ih (List.cons_ne_nil _ _)]
      simp

theorem substituted_ne_nil {addrs : List String} (hne : addrs ≠ []) : substituted addrs ≠ [] := by
  match addrs, hne with
  | [addr], _ => exact List.cons_ne_nil _ _
  | addr :: addr' :: addrs, _ => exact List.cons_ne_nil _ _

/-- What the script writes for a list of addresses names addresses of `known`
    only exactly when these do. -/
theorem namesOnly_iff {addrs : List String} (known : List String) (hne : addrs ≠ []) :
    NamesOnly (commandSubst (",".intercalate addrs)) known ↔ SplitsInto addrs known := by
  have hmem := mem_splitComma_intercalate (substituted_ne_nil hne)
  unfold NamesOnly SplitsInto
  rw [commandSubst_intercalate]
  constructor
  · intro h addr haddr part hpart
    exact h part ((hmem part).mpr ⟨addr, haddr, hpart⟩)
  · intro h entry hentry
    obtain ⟨addr, haddr, hpart⟩ := (hmem entry).mp hentry
    exact h addr haddr entry hpart

/-- Clean addresses stand for themselves. -/
theorem splitsInto_of_clean {addrs : List String} (h : ∀ addr ∈ addrs, Clean addr ∧ addr ≠ "") :
    SplitsInto addrs addrs := by
  by_cases hne : addrs = []
  · subst hne
    intro addr haddr
    cases haddr
  · rw [← namesOnly_iff addrs hne,
      commandSubst_of_verbatim (verbatim_intercalate fun s hs => (h s hs).1.verbatim)]
    unfold NamesOnly
    rw [splitComma_intercalate (fun s hs => (h s hs).1.no_comma) hne]
    intro entry hentry
    exact ⟨(h entry hentry).2, hentry⟩

/-- The filter at one element of the file. -/
theorem address_eq (name : String) (peer : Json) :
    address name peer = ((peer.field "ceramic").bind (Json.field name)).bind fun addr =>
      if addr.selected = true then addr.text.map some else some none := by
  cases peer with
  | obj fields =>
    simp only [address, Json.field, Option.bind_some]
    generalize fields.lookup "ceramic" = value
    rcases value with _ | _ | _ | _ | _ | _ | ceramic
    -- only an object has the field itself
    case some.obj =>
      simp only [Option.getD_some, Option.bind_some]
      generalize ceramic.lookup name = addr
      rcases addr with _ | _ | b | _ | _ | _ | _
      case some.bool => cases b <;> rfl
      all_goals rfl
    all_goals rfl
  | _ => rfl

/-- The addresses in the file, if `jq` can read it. -/
def readAddrs (name : String) (peers : List Json) : Option (List String) :=
  (peers.mapM fun peer : Json => (peer.field "ceramic").bind (Json.field name)).bind fun addrs =>
    (addrs.filter Json.selected).mapM Json.text

theorem jq_eq_readAddrs (name : String) (peers : List Json) :
    jq (Json.ceramicAddrs name) (.json (.arr peers)) =
      ((readAddrs name peers).map fun addrs => ",".intercalate addrs).getD "" := by
  unfold readAddrs
  rw [Option.map_bind]
  rfl

/-- The filter adds one element after the other. -/
theorem readAddrs_cons (name : String) (peer : Json) (peers : List Json) :
    readAddrs name (peer :: peers) = (address name peer).bind fun entry =>
      (readAddrs name peers).map fun addrs => entry.toList ++ addrs := by
  unfold readAddrs
  rw [List.mapM_cons, address_eq]
  cases (peer.field "ceramic").bind (Json.field name) with
  | none => rfl
  | some addr =>
    cases peers.mapM fun peer : Json => (peer.field "ceramic").bind (Json.field name) with
    | none =>
      -- one of the others cannot be read
      simp
    | some addrs =>
      cases hsel : addr.selected with
      | false => simp [hsel]
      | true =>
        cases htext : addr.text with
        | none => simp [hsel, htext]
        | some text => simp [hsel, htext, Option.map_eq_bind, Function.comp_def]

/-- What is written under `name` if every element can be read. -/
theorem jq_of_readable {name : String} {peers : List Json}
    (h : ∀ peer ∈ peers, address name peer ≠ none) :
    jq (Json.ceramicAddrs name) (.json (.arr peers)) = ",".intercalate (addresses name peers) := by
  have hread : readAddrs name peers = some (addresses name peers) := by
    induction peers with
    | nil => rfl
    | cons peer peers ih =>
      obtain ⟨entry, hentry⟩ := Option.ne_none_iff_exists'.mp (h peer List.mem_cons_self)
      rw [readAddrs_cons, hentry, ih fun p hp => h p (List.mem_cons_of_mem _ hp)]
      unfold addresses
      cases entry <;> simp [hentry]
  rw [jq_eq_readAddrs, hread]
  rfl

/-- Nothing is written if one of the elements cannot be read. -/
theorem jq_of_unreadable {name : String} {peers : List Json}
    (h : ¬ ∀ peer ∈ peers, address name peer ≠ none) :
    jq (Json.ceramicAddrs name) (.json (.arr peers)) = "" := by
  have hread : readAddrs name peers = none := by
    induction peers with
    | nil => exact absurd (fun peer hpeer => by cases hpeer) h
    | cons peer peers ih =>
      rw [readAddrs_cons]
      by_cases hpeer : address name peer = none
      · rw [hpeer]
        rfl
      · rw [ih]
        · exact Option.bind_fun_none _
        · intro hall
          apply h
          intro p hp
          rcases List.mem_cons.mp hp with rfl | hp
          · exact hpeer
          · exact hall p hp
  rw [jq_eq_readAddrs, hread]
  rfl

/-- A ceramic peer adds its address to both lists. -/
theorem address_of_ceramicPeer {peer : Json} {p : String × String} (h : ceramicPeer peer = some p) :
    address "ipfsRpcAddr" peer = some (some p.1) ∧ address "ceramicAddr" peer = some (some p.2) := by
  cases peer with
  | obj fields =>
    cases hvalue : fields.lookup "ceramic" with
    | none => simp [ceramicPeer, hvalue] at h
    | some value =>
      cases value with
      | obj ceramic =>
        simp only [ceramicPeer, hvalue] at h
        split at h
        · rename_i rpc addr hrpc haddr
          cases h
          simp [address, hvalue, hrpc, haddr]
        · cases h
      | _ => simp [ceramicPeer, hvalue] at h
  | _ => simp [ceramicPeer] at h

theorem mem_addresses {name addr : String} {peers : List Json} {peer : Json} (hpeer : peer ∈ peers)
    (h : address name peer = some (some addr)) : addr ∈ addresses name peers := by
  refine List.mem_filterMap.mpr ⟨peer, hpeer, ?_⟩
  rw [h]
  rfl

/-- One list, of a file with addresses under `name`, is right exactly if
    all is read and comes from ceramic peers. -/
theorem named_iff {name : String} {peers : List Json} (known : List String)
    (hne : addresses name peers ≠ []) :
    NamesOnly (commandSubst (jq (Json.ceramicAddrs name) (.json (.arr peers)))) known ↔
      ListsOnly name known (.json (.arr peers)) := by
  by_cases hread : ∀ peer ∈ peers, address name peer ≠ none
  · -- the value is made of the addresses that stand in the file
    rw [jq_of_readable hread, namesOnly_iff known hne]
    exact ⟨fun h => ⟨hread, h⟩, fun h => h.2⟩
  · rw [jq_of_unreadable hread]
    constructor
    · -- the value is empty, and so is its only entry
      intro h
      have hsplit : splitComma (",".intercalate [""]) = [""] :=
        splitComma_intercalate (by decide) (List.cons_ne_nil _ _)
      have hmem : "" ∈ splitComma (commandSubst "") := by
        show "" ∈ splitComma (",".intercalate [""])
        rw [hsplit]
        exact List.mem_cons_self
      exact absurd rfl (h "" hmem).1
    · intro h
      exact absurd h.1 hread

/-- A file with ceramic peers is a list, and has addresses of both kinds. -/
theorem peers_of_ceramicPeers {file : PeersFile} (hne : ceramicPeers file ≠ []) :
    ∃ peers, file = .json (.arr peers) ∧ addresses "ipfsRpcAddr" peers ≠ [] ∧
      addresses "ceramicAddr" peers ≠ [] := by
  unfold ceramicPeers at hne
  split at hne
  · rename_i peers
    obtain ⟨p, hp⟩ := List.exists_mem_of_ne_nil _ hne
    obtain ⟨peer, hpeer, hcer⟩ := List.mem_filterMap.mp hp
    obtain ⟨hrpc, haddr⟩ := address_of_ceramicPeer hcer
    exact ⟨peers, rfl, List.ne_nil_of_mem (mem_addresses hpeer hrpc),
      List.ne_nil_of_mem (mem_addresses hpeer haddr)⟩
  · exact absurd rfl hne

/-- What the script writes for a file with ceramic peers. -/
theorem written_iff {file : PeersFile} (hne : ceramicPeers file ≠ []) (secret : String)
    (rpcs addrs : List String) :
    (∃ ceramicUrls composedbUrls,
      (envEntries file secret).lookup "CERAMIC_URLS" = some ceramicUrls ∧
      NamesOnly ceramicUrls rpcs ∧
      (envEntries file secret).lookup "COMPOSEDB_URLS" = some composedbUrls ∧
      NamesOnly composedbUrls addrs) ↔
    ListsOnly "ipfsRpcAddr" rpcs file ∧ ListsOnly "ceramicAddr" addrs file := by
  obtain ⟨peers, rfl, hrpcs, haddrs⟩ := peers_of_ceramicPeers hne
  rw [← named_iff rpcs hrpcs, ← named_iff addrs haddrs]
  constructor
  · rintro ⟨ceramicUrls, composedbUrls, hurls, hnames, hurls', hnames'⟩
    cases hurls
    cases hurls'
    exact ⟨hnames, hnames'⟩
  · rintro ⟨hnames, hnames'⟩
    exact ⟨_, _, rfl, hnames, rfl, hnames'⟩

/-! ## Section 4: The exact condition -/

/-- A wait to the end was right. -/
theorem peerGate_of_no_peers {polls : Nat → PeersFile} {secret : String}
    (hall : ∀ n < 30, LengthZero (polls n)) :
    PeerGate polls secret ⟨1, 30, none⟩ where
  opens := by
    intro hcode
    cases hcode
  closes := by
    intro _
    exact ⟨rfl, rfl, rfl, fun n hn => (hall n hn).no_peers⟩

/-- **The gate of the init container.** Whatever the polls find, the script
    opens only for peers with addresses, and else waits for all its polls,
    exactly when `Waits` holds of the files: nothing but values of length 0
    comes before the first list with ceramic peers, and this list can be
    read and lists addresses of these peers only. -/
theorem peer_gate_iff (polls : Nat → PeersFile) (secret : String) :
    PeerGate polls secret (processPeers polls secret) ↔ Waits polls := by
  have hzero : ∀ n, getAvailablePeers (polls n) = "0" ↔ LengthZero (polls n) :=
    fun n => getAvailablePeers_eq_zero_iff (polls n)
  unfold processPeers
  rcases poll_cases polls secret 30 0 with ⟨hall, hpoll⟩ | ⟨k, _, hk, hbefore, hfound, hpoll⟩
  · rw [hpoll]
    have hempty : ∀ n < 30, LengthZero (polls n) :=
      fun n hn => (hzero n).mp (hall n (by omega) (by omega))
    constructor
    · intro _
      exact Or.inl hempty
    · intro _
      exact peerGate_of_no_peers hempty
  · rw [hpoll]
    have hempty : ∀ m < k, LengthZero (polls m) :=
      fun m hm => (hzero m).mp (hbefore m (by omega) hm)
    have hk30 : k < 30 := by omega
    constructor
    · intro h
      obtain ⟨hne, _, hwritten⟩ := h.opens rfl
      exact Or.inr ⟨k, hk30, hempty, hne, (written_iff hne secret _ _).mp hwritten⟩
    · intro h
      -- the poll that ends the wait is the one of the condition
      have hfirst : ceramicPeers (polls k) ≠ [] ∧
          ListsOnly "ipfsRpcAddr" ((ceramicPeers (polls k)).map Prod.fst) (polls k) ∧
          ListsOnly "ceramicAddr" ((ceramicPeers (polls k)).map Prod.snd) (polls k) := by
        rcases h with hall | ⟨n, _, hbefore', hne, hlists⟩
        · exact absurd ((hzero k).mpr (hall k hk30)) hfound
        · rcases Nat.lt_trichotomy n k with hlt | rfl | hgt
          · exact absurd (hempty n hlt).no_peers hne
          · exact ⟨hne, hlists⟩
          · exact absurd ((hzero k).mpr (hbefore' k hgt)) hfound
      obtain ⟨hne, hlists⟩ := hfirst
      refine ⟨fun _ => ⟨hne, rfl, (written_iff hne secret _ _).mpr hlists⟩, ?_⟩
      intro hcode
      exact absurd rfl hcode

/-- A missing file opens the gate at once, and the tests start with an empty
    list of nodes. -/
theorem opens_without_peers_file :
    (processPeers (fun _ => .missing) "seed").code = 0 ∧
    (envEntries .missing "seed").lookup "COMPOSEDB_URLS" = some "" ∧
    ¬ PeerGate (fun _ => .missing) "seed" (processPeers (fun _ => .missing) "seed") := by
  have hcode : (processPeers (fun _ => .missing) "seed").code = 0 := by decide
  refine ⟨hcode, by decide, ?_⟩
  intro h
  exact (h.opens hcode).1 rfl

/-- An empty list, and then an IPFS-only peer and one with addresses. -/
theorem opens_for_one_peer : ∃ polls, polls 0 = .json (.arr []) ∧
    (ceramicPeers (polls 1)).map Prod.snd = ["http://ceramic-0-0:7007"] ∧
    PeerGate polls "seed" (processPeers polls "seed") := by
  let ipfs : Json := .obj [("ipfs", .obj [("ipfsRpcAddr", .str "http://cas-ipfs-0:5101")])]
  let peer : Json := .obj [("ceramic", .obj [("ipfsRpcAddr", .str "http://ceramic-0-0:5101"),
    ("ceramicAddr", .str "http://ceramic-0-0:7007")])]
  let polls : Nat → PeersFile := fun n =>
    if n = 0 then .json (.arr []) else .json (.arr [ipfs, peer])
  have hread : ∀ name ∈ ["ipfsRpcAddr", "ceramicAddr"], ∀ p ∈ [ipfs, peer],
      address name p ≠ none := by
    intro name hname p hp
    simp only [List.mem_cons, List.not_mem_nil, or_false] at hname hp
    rcases hname with rfl | rfl <;> rcases hp with rfl | rfl <;> exact Option.some_ne_none _
  have hclean : ∀ addr ∈ ["http://ceramic-0-0:5101", "http://ceramic-0-0:7007"],
      SplitsInto [addr] [addr] := by
    intro addr haddr
    apply splitsInto_of_clean
    intro a ha
    rw [List.mem_singleton.mp ha]
    simp only [List.mem_cons, List.not_mem_nil, or_false] at haddr
    rcases haddr with rfl | rfl
    · exact ⟨⟨verbatim_of_decide (by decide), by decide⟩, by decide⟩
    · exact ⟨⟨verbatim_of_decide (by decide), by decide⟩, by decide⟩
  refine ⟨polls, rfl, rfl, (peer_gate_iff polls "seed").mpr (Or.inr ⟨1, by decide, ?_⟩)⟩
  refine ⟨?_, List.cons_ne_nil _ _, ⟨hread _ (by simp), hclean _ (by simp)⟩,
    ⟨hread _ (by simp), hclean _ (by simp)⟩⟩
  intro m hm
  rw [show m = 0 by omega]
  exact .arr

end Hermetic
