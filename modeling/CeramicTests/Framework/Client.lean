import CeramicTests.Framework.Transition
import Mathlib.Logic.Function.Basic

/-! # Client programs over a shared store

    A client program is cut at its requests: in each state it either has
    ended or waits for the reply to one request. The same program is run
    in three ways.

    - alone, against a service that answers deterministically (`drive`);
    - together with any number of other clients, whose requests the
      service performs in any order (`system`);
    - one client after another, against a service that may answer in
      several ways (`sequence`).
-/

namespace Framework

open Transition

universe u v w x

/-- A client program: the request a state waits for, if it has not ended,
    and the state in which a reply leaves it. -/
structure Client (σ : Type u) (Req : Type v) (Reply : Type w) where
  request : σ → Option Req
  resume : σ → Reply → σ

namespace Client

variable {σ : Type u} {Req : Type v} {Reply : Type w} {Db : Type x}
variable (c : Client σ Req Reply)

/-! ## One client alone -/

/-- How a client run alone ended: its last state, the store it leaves, and
    the stores after each of its requests. -/
structure Outcome (σ : Type u) (Db : Type x) where
  state : σ
  db : Db
  stores : List Db

/-- The outcome with one more request at the front, which left the store `d`. -/
def Outcome.after (out : Outcome σ Db) (d : Db) : Outcome σ Db :=
  { out with stores := d :: out.stores }

@[simp] theorem Outcome.after_state (out : Outcome σ Db) (d : Db) :
    (out.after d).state = out.state := rfl

@[simp] theorem Outcome.after_db (out : Outcome σ Db) (d : Db) :
    (out.after d).db = out.db := rfl

@[simp] theorem Outcome.after_stores (out : Outcome σ Db) (d : Db) :
    (out.after d).stores = d :: out.stores := rfl

/-- Run the client until it ends, at most `fuel` requests long. -/
def drive (serve : Db → Req → Reply × Db) : Nat → σ → Db → Option (Outcome σ Db)
  | 0, _, _ => none
  | fuel + 1, s, d =>
    match c.request s with
    | none => some ⟨s, d, []⟩
    | some r =>
      (drive serve fuel (c.resume s (serve d r).1) (serve d r).2).map
        fun out => out.after (serve d r).2

/-- The client ends with `out`: every large enough fuel gives that result. -/
def Drives (serve : Db → Req → Reply × Db) (s : σ) (d : Db) (out : Outcome σ Db) : Prop :=
  ∃ n, ∀ fuel, n ≤ fuel → c.drive serve fuel s d = some out

variable {c} {serve : Db → Req → Reply × Db}

theorem Drives.ended {s : σ} {d : Db} (h : c.request s = none) :
    c.Drives serve s d ⟨s, d, []⟩ := by
  refine ⟨1, ?_⟩
  intro fuel hfuel
  obtain ⟨n, rfl⟩ : ∃ n, fuel = n + 1 := ⟨fuel - 1, by omega⟩
  unfold drive
  rw [h]

/-- One request, and the rest of the run after its reply. -/
theorem Drives.step {s : σ} {d d' : Db} {r : Req} {reply : Reply} {out : Outcome σ Db}
    (h : c.request s = some r) (hserve : serve d r = (reply, d'))
    (hrest : c.Drives serve (c.resume s reply) d' out) :
    c.Drives serve s d (out.after d') := by
  obtain ⟨n, hn⟩ := hrest
  refine ⟨n + 1, ?_⟩
  intro fuel hfuel
  -- one unit of fuel pays for the request
  obtain ⟨m, rfl⟩ : ∃ m, fuel = m + 1 := ⟨fuel - 1, by omega⟩
  unfold drive
  simp only [h, hserve, hn m (by omega), Option.map_some]

/-- A client run alone ends in at most one way. -/
theorem Drives.unique {s : σ} {d : Db} {out out' : Outcome σ Db}
    (h : c.Drives serve s d out) (h' : c.Drives serve s d out') : out = out' := by
  -- both hold for the larger of the two amounts of fuel
  obtain ⟨n, hn⟩ := h
  obtain ⟨m, hm⟩ := h'
  have h1 := hn (max n m) (Nat.le_max_left n m)
  have h2 := hm (max n m) (Nat.le_max_right n m)
  exact Option.some.inj (h1.symm.trans h2)

variable (c serve) in
/-- The client ends in the state `s'` and leaves the store `d'`. -/
def Ends (s : σ) (d : Db) (s' : σ) (d' : Db) : Prop :=
  ∃ out, c.Drives serve s d out ∧ out.state = s' ∧ out.db = d'

theorem Ends.ended {s : σ} {d : Db} (h : c.request s = none) : c.Ends serve s d s d :=
  ⟨_, Drives.ended h, rfl, rfl⟩

theorem Ends.step {s s' : σ} {d d' d'' : Db} {r : Req} {reply : Reply} (h : c.request s = some r)
    (hserve : serve d r = (reply, d')) (hrest : c.Ends serve (c.resume s reply) d' s' d'') :
    c.Ends serve s d s' d'' := by
  obtain ⟨out, hdrives, hstate, hdb⟩ := hrest
  exact ⟨out.after d', Drives.step h hserve hdrives, hstate, hdb⟩

theorem Ends.unique {s s₁ s₂ : σ} {d d₁ d₂ : Db} (h₁ : c.Ends serve s d s₁ d₁)
    (h₂ : c.Ends serve s d s₂ d₂) : s₁ = s₂ ∧ d₁ = d₂ := by
  obtain ⟨out₁, hdrives₁, rfl, rfl⟩ := h₁
  obtain ⟨out₂, hdrives₂, rfl, rfl⟩ := h₂
  rw [hdrives₁.unique hdrives₂]
  exact ⟨rfl, rfl⟩

/-! ## Many clients over one store -/

/-- The store and the clients that share it, one in each slot. -/
structure Shared (σ : Type u) (Db : Type x) where
  db : Db
  procs : Nat → σ

/-- A client begins in a free slot, or the store answers a waiting client. -/
inductive Event (σ : Type u) (Req : Type v) (Reply : Type w) where
  | start (i : Nat) (s : σ)
  | serve (i : Nat) (r : Req) (reply : Reply)

/-- Clients over one store. A slot whose program has ended is free, and only
    programs in `Starts` begin. `Serves d r reply d'` says how the store may
    answer the request `r`. -/
def system (c : Client σ Req Reply) (Serves : Db → Req → Reply → Db → Prop)
    (Starts : σ → Prop) (init : Shared σ Db → Prop) :
    System (Shared σ Db) (Event σ Req Reply) where
  init := init
  step := fun s l s' =>
    match l with
    | .start i p =>
        c.request (s.procs i) = none ∧ Starts p ∧
        s' = { s with procs := Function.update s.procs i p }
    | .serve i r reply =>
        c.request (s.procs i) = some r ∧ Serves s.db r reply s'.db ∧
        s'.procs = Function.update s.procs i (c.resume (s.procs i) reply)

/-- The slot that an event is about. -/
def Event.slot : Event σ Req Reply → Nat
  | .start i _ => i
  | .serve i _ _ => i

/-- An event leaves the clients in the other slots as they are. -/
theorem procs_of_ne_slot {Serves : Db → Req → Reply → Db → Prop} {Starts : σ → Prop}
    {init : Shared σ Db → Prop} {s s' : Shared σ Db} {l : Event σ Req Reply}
    (h : (c.system Serves Starts init).step s l s') {i : Nat} (hi : i ≠ l.slot) :
    s'.procs i = s.procs i := by
  cases l with
  | start j p =>
    obtain ⟨_, _, rfl⟩ := h
    exact Function.update_of_ne hi p s.procs
  | serve j request reply =>
    obtain ⟨_, _, hprocs⟩ := h
    rw [hprocs]
    exact Function.update_of_ne hi _ s.procs

/-! ### Two clients -/

section pair

variable {Serves : Db → Req → Reply → Db → Prop} {Starts : σ → Prop} {init : Shared σ Db → Prop}

/-- Two clients in the first two slots, and `free` in all others. -/
def Shared.pair (d : Db) (free p q : σ) : Shared σ Db where
  db := d
  procs := Function.update (Function.update (fun _ => free) 0 p) 1 q

@[simp] theorem Shared.pair_db (d : Db) (free p q : σ) : (Shared.pair d free p q).db = d := rfl

theorem Shared.pair_free (d : Db) (free : σ) (i : Nat) :
    (Shared.pair d free free free).procs i = free := by
  simp [Shared.pair]

theorem Shared.update_first (d : Db) (free p q p' : σ) :
    Function.update (Shared.pair d free p q).procs 0 p' = (Shared.pair d free p' q).procs := by
  unfold Shared.pair
  rw [Function.update_comm (by decide), Function.update_idem]

theorem Shared.update_second (d : Db) (free p q q' : σ) :
    Function.update (Shared.pair d free p q).procs 1 q' = (Shared.pair d free p q').procs := by
  unfold Shared.pair
  rw [Function.update_idem]

theorem start_first {d : Db} {free p q p' : σ} (hp : c.request p = none) (hp' : Starts p') :
    (c.system Serves Starts init).step (.pair d free p q) (.start 0 p') (.pair d free p' q) :=
  ⟨hp, hp', by rw [Shared.update_first]; rfl⟩

theorem start_second {d : Db} {free p q q' : σ} (hq : c.request q = none) (hq' : Starts q') :
    (c.system Serves Starts init).step (.pair d free p q) (.start 1 q') (.pair d free p q') :=
  ⟨hq, hq', by rw [Shared.update_second]; rfl⟩

theorem serve_first {d d' : Db} {free p q : σ} {request : Req} {reply : Reply}
    (hp : c.request p = some request) (hserve : Serves d request reply d') :
    (c.system Serves Starts init).step (.pair d free p q) (.serve 0 request reply)
      (.pair d' free (c.resume p reply) q) :=
  ⟨hp, hserve, (Shared.update_first d free p q _).symm⟩

theorem serve_second {d d' : Db} {free p q : σ} {request : Req} {reply : Reply}
    (hq : c.request q = some request) (hserve : Serves d request reply d') :
    (c.system Serves Starts init).step (.pair d free p q) (.serve 1 request reply)
      (.pair d' free p (c.resume q reply)) :=
  ⟨hq, hserve, (Shared.update_second d free p q _).symm⟩

end pair

/-! ## One client after another -/

/-- The store and the one client that uses it. -/
structure Single (σ : Type u) (Db : Type x) where
  db : Db
  proc : σ

/-- The next client begins, or the store answers the one that waits. -/
inductive Turn (σ : Type u) (Req : Type v) (Reply : Type w) where
  | start (s : σ)
  | serve (r : Req) (reply : Reply)

/-- Clients over one store, each begun when the one before it has ended. -/
def sequence (c : Client σ Req Reply) (Serves : Db → Req → Reply → Db → Prop)
    (Starts : σ → Prop) (init : Single σ Db → Prop) :
    System (Single σ Db) (Turn σ Req Reply) where
  init := init
  step := fun s l s' =>
    match l with
    | .start p => c.request s.proc = none ∧ Starts p ∧ s' = { s with proc := p }
    | .serve r reply =>
        c.request s.proc = some r ∧ Serves s.db r reply s'.db ∧
        s'.proc = c.resume s.proc reply

end Client

end Framework
