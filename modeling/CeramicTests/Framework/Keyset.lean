import Mathlib.Order.Defs.LinearOrder
import Mathlib.Data.Finset.Card
import Mathlib.Data.Finset.Filter
import Mathlib.Data.List.Perm.Subperm

/-! # Keyset pagination over a map that changes between the pages

    A reader walks a map in the order of its keys. Each request names the
    last key it has seen and is answered by one page, read atomically,
    of the entries strictly after that key. Between two pages the map may
    change in any way.

    The key observation is that only the position of the reader matters:
    what it has collected lies at or before the position, and the next
    page lies strictly after it. So no key is collected twice, and a key
    that every page would have shown is collected as soon as the position
    passes it.
-/

namespace Keyset

universe u v

variable {K : Type u} {V : Type v}

/-! ## Section 1: One page -/

/-- `k` lies strictly after the cursor. Without a cursor every key does. -/
def After (ord : LinearOrder K) (cursor : Option K) (k : K) : Prop :=
  ∀ c, cursor = some c → ord.lt c k

/-- `k` lies no later than the last key of a page. A page without a last
    key reaches to the end of the map. -/
def UpTo (ord : LinearOrder K) (last : Option K) (k : K) : Prop :=
  ∀ z, last = some z → ord.le k z

/-- One page read atomically from the map `m`, strictly after `cursor`. It
    skips no entry up to `last`, the key it stopped at. -/
structure PageRead (ord : LinearOrder K) (m : K → Option V) (cursor : Option K)
    (page : List (K × V)) (last : Option K) : Prop where
  sorted : page.Pairwise fun a b => ord.lt a.1 b.1
  after : ∀ kv ∈ page, After ord cursor kv.1
  present : ∀ kv ∈ page, m kv.1 = some kv.2
  complete : ∀ k v, m k = some v → After ord cursor k → UpTo ord last k → (k, v) ∈ page
  last_evaluated : ∀ z, last = some z → ∃ v, page.getLast? = some (z, v)

/-- In a sorted page no key lies after the last one. -/
theorem le_of_getLast? {ord : LinearOrder K} {page : List (K × V)} {z : K} {v : V}
    (hs : page.Pairwise fun a b => ord.lt a.1 b.1) (hl : page.getLast? = some (z, v)) :
    ∀ kv ∈ page, ord.le kv.1 z := by
  let _ := ord
  obtain ⟨ys, rfl⟩ := List.getLast?_eq_some_iff.mp hl
  intro kv hkv
  rcases List.mem_append.mp hkv with h | h
  · have hlt := (List.pairwise_append.mp hs).2.2 kv h (z, v) (by simp)
    exact le_of_lt hlt
  · rw [List.mem_singleton.mp h]

/-- Every entry of a page lies no later than its last key. -/
theorem PageRead.upTo {ord : LinearOrder K} {m : K → Option V} {cursor last : Option K}
    {page : List (K × V)} (h : PageRead ord m cursor page last) :
    ∀ kv ∈ page, UpTo ord last kv.1 := by
  intro kv hkv z hz
  obtain ⟨v, hv⟩ := h.last_evaluated z hz
  exact le_of_getLast? h.sorted hv kv hkv

/-- A page that names a last key has moved past it: of any finite set that
    holds the keys of the map, fewer lie after that key than lay after the
    cursor. -/
theorem PageRead.card_after_lt {ord : LinearOrder K} {m : K → Option V}
    {cursor : Option K} {page : List (K × V)} {z : K}
    (h : PageRead ord m cursor page (some z)) {keys : Finset K}
    (hkeys : ∀ k v, m k = some v → k ∈ keys)
    [DecidablePred (After ord cursor)] [DecidablePred (After ord (some z))] :
    (keys.filter (After ord (some z))).card < (keys.filter (After ord cursor)).card := by
  let _ := ord
  obtain ⟨v, hv⟩ := h.last_evaluated z rfl
  have hz : (z, v) ∈ page := List.mem_of_getLast? hv
  have hafter : After ord cursor z := h.after _ hz
  apply Finset.card_lt_card
  rw [Finset.ssubset_iff_of_subset]
  · -- the last key itself lies after the cursor, but not after itself
    refine ⟨z, ?_, ?_⟩
    · exact Finset.mem_filter.mpr ⟨hkeys z v (h.present _ hz), hafter⟩
    · intro hmem
      exact lt_irrefl z ((Finset.mem_filter.mp hmem).2 z rfl)
  · -- what lies after the last key lies after the cursor
    intro k hk
    obtain ⟨hin, hk⟩ := Finset.mem_filter.mp hk
    refine Finset.mem_filter.mpr ⟨hin, ?_⟩
    intro c hc
    exact lt_trans (hafter c hc) (hk z rfl)

/-! ## Section 2: The walk -/

/-- How far a walk has come: it has read nothing, it has read up to and
    including a key, or it has reached the end of the map. -/
inductive Position (K : Type u) where
  | start
  | upTo (z : K)
  | finished
  deriving DecidableEq, Repr

/-- The cursor with which a walk asks for its next page. -/
def Position.cursor : Position K → Option K
  | .start => none
  | .upTo z => some z
  | .finished => none

/-- The position after a page. -/
def Position.ofLast : Option K → Position K
  | some z => .upTo z
  | none => .finished

/-- The keys a walk at this position will not meet again. -/
def Position.Covers (ord : LinearOrder K) : Position K → K → Prop
  | .start, _ => False
  | .upTo z, k => ord.le k z
  | .finished, _ => True

@[simp] theorem Position.covers_ofLast (ord : LinearOrder K) (last : Option K) (k : K) :
    (Position.ofLast last).Covers ord k ↔ UpTo ord last k := by
  cases last <;> simp [Position.ofLast, Position.Covers, UpTo]

/-- Before the end, a key is covered or lies after the cursor. -/
theorem Position.covers_or_after (ord : LinearOrder K) {p : Position K}
    (hp : p ≠ .finished) (k : K) : p.Covers ord k ∨ After ord p.cursor k := by
  let _ := ord
  cases p with
  | start => right; intro c hc; cases hc
  | upTo z =>
    rcases le_or_gt k z with h | h
    · exact Or.inl h
    · right; intro c hc; cases hc; exact h
  | finished => exact absurd rfl hp

/-- Before the end, no key is both covered and after the cursor. -/
theorem Position.lt_of_covers_of_after (ord : LinearOrder K) {p : Position K}
    (hp : p ≠ .finished) {a b : K} (ha : p.Covers ord a) (hb : After ord p.cursor b) :
    ord.lt a b := by
  let _ := ord
  cases p with
  | start => exact absurd ha id
  | upTo z => exact lt_of_le_of_lt ha (hb z rfl)
  | finished => exact absurd rfl hp

/-- A page together with the map it was read from. -/
structure Read (K : Type u) (V : Type v) where
  map : K → Option V
  page : List (K × V)

/-- Everything a walk has read, in the order of the pages. -/
def collected (reads : List (Read K V)) : List (K × V) :=
  reads.flatMap (·.page)

@[simp] theorem collected_nil : collected ([] : List (Read K V)) = [] := rfl

@[simp] theorem collected_snoc (reads : List (Read K V)) (r : Read K V) :
    collected (reads ++ [r]) = collected reads ++ r.page := by
  simp [collected]

/-- A walk: each page is read from the map as it is at that moment. -/
inductive Walk (ord : LinearOrder K) : List (Read K V) → Position K → Prop where
  | start : Walk ord [] .start
  | page : ∀ {reads : List (Read K V)} {p : Position K} {r : Read K V} {last : Option K},
      Walk ord reads p → p ≠ .finished →
      PageRead ord r.map p.cursor r.page last →
      Walk ord (reads ++ [r]) (Position.ofLast last)

variable {ord : LinearOrder K} {reads : List (Read K V)} {p : Position K}

/-! ## Section 3: What a walk collects -/

/-- The position after a page covers all that the position before it did. -/
theorem PageRead.covers_mono {m : K → Option V} {page : List (K × V)} {last : Option K}
    (h : PageRead ord m p.cursor page last) (hp : p ≠ .finished) {k : K}
    (hk : p.Covers ord k) : UpTo ord last k := by
  let _ := ord
  intro z hz
  obtain ⟨v, hv⟩ := h.last_evaluated z hz
  have hafter := h.after _ (List.mem_of_getLast? hv)
  exact le_of_lt (Position.lt_of_covers_of_after ord hp hk hafter)

/-- A walk has collected only keys that its position covers. -/
theorem Walk.covers (h : Walk ord reads p) :
    ∀ kv ∈ collected reads, p.Covers ord kv.1 := by
  induction h with
  | start => simp
  | page _ hp hread ih =>
    intro kv hkv
    rw [Position.covers_ofLast]
    rw [collected_snoc] at hkv
    rcases List.mem_append.mp hkv with hkv | hkv
    · -- collected before this page
      exact hread.covers_mono hp (ih kv hkv)
    · -- on this page
      exact hread.upTo kv hkv

/-- A walk collects its keys in strictly increasing order. -/
theorem Walk.sorted (h : Walk ord reads p) :
    (collected reads).Pairwise fun a b => ord.lt a.1 b.1 := by
  induction h with
  | start => simp
  | page hwalk hp hread ih =>
    rw [collected_snoc]
    refine List.pairwise_append.mpr ⟨ih, hread.sorted, ?_⟩
    intro a ha b hb
    exact Position.lt_of_covers_of_after ord hp (hwalk.covers a ha) (hread.after b hb)

/-- **No key is collected twice.** -/
theorem Walk.nodup_keys (h : Walk ord reads p) :
    ((collected reads).map Prod.fst).Nodup := by
  let _ := ord
  refine List.pairwise_map.mpr (h.sorted.imp ?_)
  intro a b hab
  exact ne_of_lt hab

/-- **Every collected entry was in the map its page was read from.** -/
theorem Walk.present (h : Walk ord reads p) :
    ∀ r ∈ reads, ∀ kv ∈ r.page, r.map kv.1 = some kv.2 := by
  induction h with
  | start => simp
  | page _ _ hread ih =>
    intro r hr kv hkv
    rcases List.mem_append.mp hr with hr | hr
    · exact ih r hr kv hkv
    · rw [List.mem_singleton.mp hr] at hkv ⊢
      exact hread.present kv hkv

/-- **No stable key is lost.** A key that carries a value with the property
    `P` in every map that a page was read from is collected, with such a
    value, once the walk has covered it. -/
theorem Walk.complete (h : Walk ord reads p) {P : V → Prop} {k : K}
    (hk : ∀ r ∈ reads, ∃ v, r.map k = some v ∧ P v) (hc : p.Covers ord k) :
    ∃ v, (k, v) ∈ collected reads ∧ P v := by
  induction h with
  | start => exact absurd hc id
  | @page reads p r last _ hp hread ih =>
    rw [Position.covers_ofLast] at hc
    rcases Position.covers_or_after ord hp k with hcov | hafter
    · -- an earlier page has passed the key
      obtain ⟨v, hv, hP⟩ := ih (fun r hr => hk r (List.mem_append_left _ hr)) hcov
      exact ⟨v, by rw [collected_snoc]; exact List.mem_append_left _ hv, hP⟩
    · -- this page passes it, and a page skips nothing
      obtain ⟨v, hv, hP⟩ := hk r (by simp)
      have hmem := hread.complete k v hv hafter hc
      exact ⟨v, by rw [collected_snoc]; exact List.mem_append_right _ hmem, hP⟩

/-! ## Section 4: A walk over one map -/

/-- `entries` are the entries of the map `m`, in the order of the keys. -/
structure Lists (ord : LinearOrder K) (m : K → Option V) (entries : List (K × V)) : Prop where
  sorted : entries.Pairwise fun a b => ord.lt a.1 b.1
  mem_iff : ∀ kv, kv ∈ entries ↔ m kv.1 = some kv.2

/-- A sorted part of a sorted list is a prefix of it if it holds everything
    that does not lie after one of its members. -/
theorem prefix_of_downward {α : Type u} {r : α → α → Prop} (hasymm : ∀ a b, r a b → ¬ r b a)
    {part whole : List α} (hpart : part.Pairwise r) (hwhole : whole.Pairwise r)
    (hsub : ∀ x ∈ part, x ∈ whole)
    (hdown : ∀ x ∈ whole, ∀ y ∈ part, ¬ r y x → x ∈ part) : part <+: whole := by
  induction part generalizing whole with
  | nil => exact List.nil_prefix
  | cons x part ih =>
    cases whole with
    | nil => exact absurd (hsub x (by simp)) (by simp)
    | cons y whole =>
      obtain ⟨hx, hpart'⟩ := List.pairwise_cons.mp hpart
      obtain ⟨hy, hwhole'⟩ := List.pairwise_cons.mp hwhole
      -- the heads are the least elements of both lists
      have hxy : y = x := by
        rcases List.mem_cons.mp (hsub x (by simp)) with h | hmem
        · exact h.symm
        · have hlt := hy x hmem
          rcases List.mem_cons.mp (hdown y (by simp) x (by simp) (hasymm y x hlt)) with h | h
          · exact h
          · exact absurd (hx y h) (hasymm y x hlt)
      subst hxy
      have hirrefl : ∀ z, ¬ r z z := fun z hz => hasymm z z hz hz
      refine List.cons_prefix_cons.mpr ⟨rfl, ih hpart' hwhole' ?_ ?_⟩
      · intro z hz
        rcases List.mem_cons.mp (hsub z (by simp [hz])) with rfl | h
        · exact absurd (hx z hz) (hirrefl z)
        · exact h
      · intro z hz w hw hwz
        rcases List.mem_cons.mp (hdown z (by simp [hz]) w (by simp [hw]) hwz) with rfl | h
        · exact absurd (hy z hz) (hirrefl z)
        · exact h

/-- Going back from a covered key, a walk does not leave what it covers. -/
theorem Position.covers_of_le {a b : K} (hb : p.Covers ord b) (hab : ord.le a b) :
    p.Covers ord a := by
  let _ := ord
  cases p with
  | start => exact hb
  | upTo z => exact le_trans hab hb
  | finished => trivial

/-- A walk all of whose pages were read from one map has collected a prefix
    of the entries of that map. -/
theorem Walk.collected_prefix (h : Walk ord reads p) {m : K → Option V}
    (hm : ∀ r ∈ reads, r.map = m) {entries : List (K × V)} (hl : Lists ord m entries) :
    collected reads <+: entries := by
  let _ := ord
  have hpresent : ∀ kv ∈ collected reads, m kv.1 = some kv.2 := by
    intro kv hkv
    obtain ⟨r, hr, hpage⟩ := List.mem_flatMap.mp hkv
    rw [← hm r hr]
    exact h.present r hr kv hpage
  apply prefix_of_downward (fun a b => lt_asymm (a := a.1) (b := b.1)) h.sorted hl.sorted
  · intro kv hkv
    exact (hl.mem_iff kv).mpr (hpresent kv hkv)
  · intro a ha b hb hab
    have hcov := Position.covers_of_le (h.covers b hb) (not_lt.mp hab)
    have ha := (hl.mem_iff a).mp ha
    have hstable : ∀ r ∈ reads, ∃ v, r.map a.1 = some v ∧ v = a.2 := by
      intro r hr
      exact ⟨a.2, by rw [hm r hr, ha], rfl⟩
    obtain ⟨v, hv, rfl⟩ := h.complete hstable hcov
    exact hv

/-- At its end, such a walk has collected the whole map. -/
theorem Walk.collected_eq (h : Walk ord reads .finished) {m : K → Option V}
    (hm : ∀ r ∈ reads, r.map = m) {entries : List (K × V)} (hl : Lists ord m entries) :
    collected reads = entries := by
  have hpre := h.collected_prefix hm hl
  have hall : ∀ kv ∈ entries, kv ∈ collected reads := by
    intro kv hkv
    have hstable : ∀ r ∈ reads, ∃ v, r.map kv.1 = some v ∧ v = kv.2 := by
      intro r hr
      exact ⟨kv.2, by rw [hm r hr]; exact (hl.mem_iff kv).mp hkv, rfl⟩
    obtain ⟨v, hv, rfl⟩ := h.complete hstable trivial
    exact hv
  have hnodup : entries.Nodup := by
    let _ := ord
    exact hl.sorted.imp fun hab heq => (ne_of_lt hab) (congrArg Prod.fst heq)
  apply hpre.eq_of_length_le
  exact (List.subperm_of_subset hnodup hall).length_le

/-- From every cursor there is a page of at most `n` entries, for every
    `n > 0`, to which the reader may stop or go on. -/
theorem exists_page {m : K → Option V} {entries : List (K × V)} (hl : Lists ord m entries)
    (cursor : Option K) {n : Nat} (hn : 0 < n) :
    ∃ page last, PageRead ord m cursor page last ∧ page.length ≤ n := by
  classical
  let _ := ord
  let rest := entries.filter fun kv => decide (After ord cursor kv.1)
  have hrest : ∀ kv, kv ∈ rest ↔ m kv.1 = some kv.2 ∧ After ord cursor kv.1 := by
    intro kv
    simp [rest, hl.mem_iff]
  have hsorted : rest.Pairwise fun a b => a.1 < b.1 := hl.sorted.filter _
  have hmem : ∀ kv ∈ rest.take n, kv ∈ rest := fun kv hkv => List.mem_of_mem_take hkv
  by_cases hle : rest.length ≤ n
  · -- the rest of the map fits on one page
    refine ⟨rest, none, ⟨hsorted, ?_, ?_, ?_, ?_⟩, hle⟩
    · exact fun kv hkv => ((hrest kv).mp hkv).2
    · exact fun kv hkv => ((hrest kv).mp hkv).1
    · exact fun k v hv hafter _ => (hrest (k, v)).mpr ⟨hv, hafter⟩
    · intro z hz
      cases hz
  · -- a full page, which names its last key
    have hlen : (rest.take n).length = n := by rw [List.length_take]; omega
    have hne : rest.take n ≠ [] := by
      intro h
      rw [h] at hlen
      simp at hlen
      omega
    refine ⟨rest.take n, some ((rest.take n).getLast hne).1, ⟨?_, ?_, ?_, ?_, ?_⟩, hlen.le⟩
    · exact hsorted.sublist (List.take_sublist n rest)
    · exact fun kv hkv => ((hrest kv).mp (hmem kv hkv)).2
    · exact fun kv hkv => ((hrest kv).mp (hmem kv hkv)).1
    · intro k v hv hafter hup
      have hin : (k, v) ∈ rest := (hrest (k, v)).mpr ⟨hv, hafter⟩
      have hsplit := hsorted
      rw [← List.take_append_drop n rest] at hin hsplit
      rcases List.mem_append.mp hin with h | h
      · exact h
      · have hlt := (List.pairwise_append.mp hsplit).2.2 _ (List.getLast_mem hne) _ h
        exact absurd (hup _ rfl) (not_le.mpr hlt)
    · intro z hz
      rw [← Option.some.inj hz]
      exact ⟨_, List.getLast?_eq_some_getLast hne⟩

end Keyset
