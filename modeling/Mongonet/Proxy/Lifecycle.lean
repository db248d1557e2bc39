import Mathlib.Data.List.Nodup
import Mathlib.Data.List.Perm.Subperm
import Mongonet.Proxy.Session

/-!
# Mongonet.Proxy.Lifecycle — every pooled connection has one owner

The pool's invariant, over every interleaving of sessions: a connection that has been created
is held by exactly one session and open, or sits in `pool` exactly once, closed and not bad, or
has been dropped.  From it, neither `Put`'s "closing a connection twice" nor `doLoop`'s "oh no!"
can happen, and the pool never holds a connection twice nor more connections than were created
(`currentInPool_le_loadTotalCreated`).

The invariant is first stated for the pool alone, against a function `hold` that says which
connection each session has in hand (`Owned`): `Put` of a held connection, `Get` into an empty
hand and a change of a held connection's other fields keep it, with `hold` changed the way the
goroutine's variables change.  A step of a session is then a sequence of such operations, and
its lemmas carry `Owned w.cp (Function.update w.holds k h)`, the invariant with session `k`'s
goroutine holding `h` before its `ps.pooledConn` and program counter catch up (`Framed`).
-/

namespace Mongonet.Proxy

open Go Result

/-! ## The pool against what the sessions hold -/

section Ownership

variable (cp : ConnectionPool) (hold : Nat → Option Nat)

/-- The three states of a created connection `c`. -/
inductive Place (c : Nat) : Prop
  /-- Held by session `k` and no other, open, and not pooled. -/
  | held (k : Nat) (hk : hold k = some c) (huniq : ∀ j, hold j = some c → j = k)
      (hpool : c ∉ cp.pool) (hopen : (cp.conns c).closed = false)
  /-- Pooled once, closed and not bad, and held by nobody. -/
  | pooled (hfree : ∀ j, hold j ≠ some c) (hpool : cp.pool.count c = 1)
      (hclosed : (cp.conns c).closed = true) (hgood : (cp.conns c).bad = false)
  /-- Dropped: neither held nor pooled, and closed. -/
  | discarded (hfree : ∀ j, hold j ≠ some c) (hpool : c ∉ cp.pool)
      (hclosed : (cp.conns c).closed = true)

/-- Every created connection is in one of its three states, and no other is held or pooled. -/
structure Owned : Prop where
  place : ∀ c < cp.totalCreated, Place cp hold c
  unborn : ∀ c, cp.totalCreated ≤ c → (∀ j, hold j ≠ some c) ∧ c ∉ cp.pool

end Ownership

section Frame

variable {cp cp' : ConnectionPool} {hold hold' : Nat → Option Nat} {c : Nat}

theorem Place.congr (h : Place cp hold c) (hhold : ∀ j, hold' j = some c ↔ hold j = some c)
    (hpool : cp'.pool.count c = cp.pool.count c) (hconn : cp'.conns c = cp.conns c) :
    Place cp' hold' c := by
  have hnot : c ∉ cp.pool → c ∉ cp'.pool := by
    intro hc
    rw [← List.count_eq_zero, hpool, List.count_eq_zero]
    exact hc
  cases h with
  | held k hk huniq hp ho =>
    exact .held k ((hhold k).mpr hk) (fun j hj => huniq j ((hhold j).mp hj)) (hnot hp)
      (hconn ▸ ho)
  | pooled hfree hp hc hg =>
    exact .pooled (fun j hj => hfree j ((hhold j).mp hj)) (hpool ▸ hp) (hconn ▸ hc) (hconn ▸ hg)
  | discarded hfree hp hc =>
    exact .discarded (fun j hj => hfree j ((hhold j).mp hj)) (hnot hp) (hconn ▸ hc)

theorem Place.eq_held (h : Place cp hold c) {k : Nat} (hk : hold k = some c) :
    (∀ j, hold j = some c → j = k) ∧ c ∉ cp.pool ∧ (cp.conns c).closed = false := by
  cases h with
  | held k' _ huniq hp ho =>
    have hkk : k = k' := huniq k hk
    subst hkk
    exact ⟨huniq, hp, ho⟩
  | pooled hfree => exact absurd hk (hfree k)
  | discarded hfree => exact absurd hk (hfree k)

theorem Place.eq_pooled (h : Place cp hold c) (hc : c ∈ cp.pool) :
    (∀ j, hold j ≠ some c) ∧ cp.pool.count c = 1 ∧ (cp.conns c).closed = true := by
  cases h with
  | held _ _ _ hp => exact absurd hc hp
  | pooled hfree hp hcl => exact ⟨hfree, hp, hcl⟩
  | discarded _ hp => exact absurd hc hp

theorem update_hold_iff {k : Nat} {a b : Option Nat} (hk : hold k = a) (ha : a ≠ some c)
    (hb : b ≠ some c) (j : Nat) : Function.update hold k b j = some c ↔ hold j = some c := by
  by_cases hj : j = k
  · subst hj
    rw [Function.update_self, hk]
    exact ⟨fun h => absurd h hb, fun h => absurd h ha⟩
  · rw [Function.update_of_ne hj]

end Frame

/-! ## `Put` and `Get` keep the invariant -/

section PoolOps

variable {cp : ConnectionPool} {hold : Nat → Option Nat} {k c : Nat}

theorem Owned.lt_of_hold (h : Owned cp hold) (hk : hold k = some c) : c < cp.totalCreated := by
  by_contra hge
  exact (h.unborn c (by omega)).1 k hk

theorem Owned.lt_of_mem (h : Owned cp hold) (hc : c ∈ cp.pool) : c < cp.totalCreated := by
  by_contra hge
  exact (h.unborn c (by omega)).2 hc

/-- The pool holds each connection at most once, and only created ones, so no more than were
created. -/
theorem Owned.pool_nodup (h : Owned cp hold) :
    cp.pool.Nodup ∧ cp.pool.length ≤ cp.totalCreated := by
  have hnodup : cp.pool.Nodup := by
    refine List.nodup_iff_count_le_one.mpr fun c => ?_
    by_cases hc : c ∈ cp.pool
    · -- a pooled connection is `Place.pooled`, which counts it once
      exact ((h.place c (h.lt_of_mem hc)).eq_pooled hc).2.1.le
    · rw [List.count_eq_zero.mpr hc]
      exact Nat.zero_le 1
  have hsub : cp.pool ⊆ List.range cp.totalCreated :=
    fun c hc => List.mem_range.mpr (h.lt_of_mem hc)
  refine ⟨hnodup, ?_⟩
  calc cp.pool.length ≤ (List.range cp.totalCreated).length := (hnodup.subperm hsub).length_le
    _ = cp.totalCreated := List.length_range

/-- **`Put` of a held connection** does not panic, and leaves the invariant with the hand empty. -/
theorem Owned.put (h : Owned cp hold) (hk : hold k = some c) :
    ∃ cp', cp.put c = ok cp' ∧ Owned cp' (Function.update hold k none) := by
  have hlt := h.lt_of_hold hk
  obtain ⟨huniq, hnp, hopen⟩ := (h.place c hlt).eq_held hk
  -- the holders of `c` after the update: nobody
  have hfree : ∀ j, Function.update hold k none j ≠ some c := by
    intro j hj
    by_cases hjk : j = k
    · subst hjk
      simp at hj
    · rw [Function.update_of_ne hjk] at hj
      exact hjk (huniq j hj)
  let cp₁ := cp.setConn c { cp.conns c with closed := true }
  -- the other connections keep their state in `cp₁`, with the pool `pool` or `pool ++ [c]`
  have hother : ∀ (pool : List Nat), (∀ d, d ≠ c → pool.count d = cp.pool.count d) →
      ∀ d < cp.totalCreated, d ≠ c → Place { cp₁ with pool } (Function.update hold k none) d := by
    intro pool hpool d hd hdc
    refine (h.place d hd).congr (update_hold_iff hk (by simpa using Ne.symm hdc) (by simp))
      (hpool d hdc) ?_
    exact ConnectionPool.setConn_conns_ne _ _ hdc
  have hunborn : ∀ (pool : List Nat), (∀ d, d ≠ c → pool.count d = cp.pool.count d) →
      ∀ d, cp.totalCreated ≤ d → (∀ j, Function.update hold k none j ≠ some d) ∧ d ∉ pool := by
    intro pool hpool d hd
    have hdc : d ≠ c := by omega
    refine ⟨fun j hj => (h.unborn d hd).1 j ?_, ?_⟩
    · exact (update_hold_iff hk (by simpa using Ne.symm hdc) (by simp) j).mp hj
    · rw [← List.count_eq_zero, hpool d hdc, List.count_eq_zero]
      exact (h.unborn d hd).2
  unfold ConnectionPool.put
  rw [if_neg (by simp [hopen])]
  cases hbad : (cp.conns c).bad with
  | true =>
    -- a bad connection is dropped
    refine ⟨cp₁, by simp [cp₁, hbad], ⟨fun d hd => ?_, hunborn cp.pool (fun _ _ => rfl)⟩⟩
    by_cases hdc : d = c
    · subst hdc
      exact .discarded hfree hnp (by simp [cp₁])
    · exact hother cp.pool (fun _ _ => rfl) d hd hdc
  | false =>
    have hcount : ∀ d, d ≠ c → (cp.pool ++ [c]).count d = cp.pool.count d := by
      intro d hdc
      simp [List.count_append, Ne.symm hdc]
    refine ⟨{ cp₁ with pool := cp.pool ++ [c] }, by simp [cp₁, hbad],
      ⟨fun d hd => ?_, hunborn _ hcount⟩⟩
    by_cases hdc : d = c
    · subst hdc
      refine .pooled hfree ?_ (by simp [cp₁]) (by simp [cp₁, hbad])
      simp [List.count_append, List.count_eq_zero.mpr hnp]
    · exact hother _ hcount d hd hdc

theorem Owned.acquire (h : Owned cp hold) (hk : hold k = none) (hlt : c < cp.totalCreated)
    (hfree : ∀ j, hold j ≠ some c) (hnp : c ∉ cp.pool) {pc : PooledConnection}
    (hpc : pc.closed = false) : Owned (cp.setConn c pc) (Function.update hold k (some c)) := by
  refine ⟨fun d hd => ?_, fun d hd => ?_⟩
  · by_cases hdc : d = c
    · subst hdc
      refine .held k (by simp) (fun j hj => ?_) hnp (by simpa using hpc)
      by_contra hjk
      rw [Function.update_of_ne hjk] at hj
      exact hfree j hj
    · refine (h.place d hd).congr (update_hold_iff hk (by simp) (by simpa using Ne.symm hdc))
        rfl ?_
      exact ConnectionPool.setConn_conns_ne _ _ hdc
  · have hdc : d ≠ c := by simp at hd; omega
    refine ⟨fun j hj => (h.unborn d hd).1 j ?_, (h.unborn d hd).2⟩
    exact (update_hold_iff hk (by simp) (by simpa using Ne.symm hdc) j).mp hj

theorem Owned.setConn (h : Owned cp hold) (hk : hold k = some c) (pc : PooledConnection)
    (hpc : pc.closed = false) : Owned (cp.setConn c pc) hold := by
  refine ⟨fun d hd => ?_, fun d hd => h.unborn d hd⟩
  by_cases hdc : d = c
  · subst hdc
    obtain ⟨huniq, hnp, -⟩ := (h.place d hd).eq_held hk
    exact .held k hk huniq hnp (by simpa using hpc)
  · exact (h.place d hd).congr (fun _ => Iff.rfl) rfl (ConnectionPool.setConn_conns_ne _ _ hdc)

theorem rawGet_cases (cp : ConnectionPool) :
    (cp.pool = [] ∧ cp.rawGet = (none, cp)) ∨
      ∃ c pre, cp.pool = pre ++ [c] ∧ cp.rawGet = (some c, { cp with pool := pre }) := by
  unfold ConnectionPool.rawGet
  cases hlast : cp.pool.getLast? with
  | none => exact .inl ⟨List.getLast?_eq_none_iff.mp hlast, rfl⟩
  | some c =>
    obtain ⟨pre, hpre⟩ := List.getLast?_eq_some_iff.mp hlast
    refine .inr ⟨c, pre, hpre, ?_⟩
    rw [hpre, List.dropLast_concat]

theorem Owned.pop (h : Owned cp hold) {pre : List Nat} (hpool : cp.pool = pre ++ [c]) :
    Owned { cp with pool := pre } hold ∧ c < cp.totalCreated ∧ (∀ j, hold j ≠ some c) ∧
      c ∉ pre ∧ (cp.conns c).closed = true := by
  have hmem : c ∈ cp.pool := by simp [hpool]
  have hlt := h.lt_of_mem hmem
  obtain ⟨hfree, hcount, hclosed⟩ := (h.place c hlt).eq_pooled hmem
  have hnp : c ∉ pre := by
    rw [hpool, List.count_append] at hcount
    simp at hcount
    exact List.count_eq_zero.mp hcount
  have hcount' : ∀ d, d ≠ c → pre.count d = cp.pool.count d := by
    intro d hdc
    simp [hpool, List.count_append, Ne.symm hdc]
  refine ⟨⟨fun d hd => ?_, fun d hd => ?_⟩, hlt, hfree, hnp, hclosed⟩
  · by_cases hdc : d = c
    · subst hdc
      exact .discarded hfree hnp hclosed
    · exact (h.place d hd).congr (fun _ => Iff.rfl) (hcount' d hdc) rfl
  · have hdc : d ≠ c := by simp at hd; omega
    refine ⟨(h.unborn d hd).1, ?_⟩
    rw [← List.count_eq_zero, hcount' d hdc, List.count_eq_zero]
    exact (h.unborn d hd).2

/-- **The loop of `Get`** keeps the invariant, with the connection it returns in the hand of the
session that called it. -/
theorem Owned.getLoop (hk : hold k = none) (n : Nat) :
    ∀ {p p' : ConnectionPool} {r : Option Nat}, Owned p hold →
      p.getLoop n = (r, p') → Owned p' (Function.update hold k r) := by
  -- one `rawGet` per iteration; the fuel is the number of expired connections
  induction n with
  | zero =>
    intro p p' r h hloop
    unfold ConnectionPool.getLoop at hloop
    rcases rawGet_cases p with ⟨-, hraw⟩ | ⟨c, pre, hpool, hraw⟩
    · rw [hraw] at hloop
      cases hloop
      rw [← hk, Function.update_eq_self]
      exact h
    · -- idle for less than an hour: reused
      rw [hraw] at hloop
      cases hloop
      obtain ⟨hpop, hlt, hfree, hnp, -⟩ := h.pop hpool
      exact hpop.acquire hk hlt hfree hnp rfl
  | succ n ih =>
    intro p p' r h hloop
    unfold ConnectionPool.getLoop at hloop
    rcases rawGet_cases p with ⟨-, hraw⟩ | ⟨c, pre, hpool, hraw⟩
    · rw [hraw] at hloop
      cases hloop
      rw [← hk, Function.update_eq_self]
      exact h
    · -- idle too long: its socket is closed, and the loop goes on
      rw [hraw] at hloop
      exact ih (h.pop hpool).1 hloop

theorem Owned.dial (h : Owned cp hold) (hk : hold k = none) :
    Owned { cp.setConn cp.totalCreated ⟨false, false, []⟩ with totalCreated := cp.totalCreated + 1 }
      (Function.update hold k (some cp.totalCreated)) := by
  obtain ⟨hfree, hnp⟩ := h.unborn cp.totalCreated le_rfl
  refine ⟨fun d hd => ?_, fun d hd => ?_⟩
  · by_cases hdc : d = cp.totalCreated
    · subst hdc
      refine .held k (by simp) (fun j hj => ?_) hnp (by simp)
      by_contra hjk
      rw [Function.update_of_ne hjk] at hj
      exact hfree j hj
    · have hlt : d < cp.totalCreated := by simp at hd; omega
      refine (h.place d hlt).congr (update_hold_iff hk (by simp) (by simpa using Ne.symm hdc))
        rfl ?_
      exact ConnectionPool.setConn_conns_ne _ _ hdc
  · have hle : cp.totalCreated ≤ d := by simp at hd; omega
    have hdc : d ≠ cp.totalCreated := by simp at hd; omega
    refine ⟨fun j hj => (h.unborn d hle).1 j ?_, (h.unborn d hle).2⟩
    exact (update_hold_iff hk (by simp) (by simpa using Ne.symm hdc) j).mp hj

/-- **`Get`** keeps the invariant, with what it returns in the hand of the session that called it. -/
theorem Owned.get (h : Owned cp hold) (hk : hold k = none) (g : GetChoice) {cp' : ConnectionPool}
    {r : Option Nat} (hget : cp.get g = (r, cp')) : Owned cp' (Function.update hold k r) := by
  unfold ConnectionPool.get at hget
  rcases hloop : cp.getLoop g.expired with ⟨r₁, cp₁⟩
  have h₁ := Owned.getLoop hk g.expired h hloop
  cases r₁ with
  | some c =>
    rw [hloop] at hget
    cases hget
    exact h₁
  | none =>
    rw [hloop] at hget
    rw [← hk, Function.update_eq_self] at h₁
    cases hdial : g.dialOk with
    | false =>
      rw [hdial] at hget
      cases hget
      rw [← hk, Function.update_eq_self]
      exact h₁
    | true =>
      -- a new connection, index `totalCreated`
      rw [hdial] at hget
      cases hget
      exact h₁.dial hk

end PoolOps

/-! ## The sessions' steps -/

namespace World

/-- What every session has in hand. -/
def holds (w : World) (j : Nat) : Option Nat := (w.sessions j).holding

@[simp] theorem holds_setSession (w : World) (k : Nat) (ps : ProxySession) :
    (w.setSession k ps).holds = Function.update w.holds k ps.holding := by
  funext j
  by_cases hj : j = k
  · subst hj
    simp [holds]
  · simp [holds, hj]

@[simp] theorem holds_mk (cp : ConnectionPool) (w : World) : (World.mk cp w.sessions).holds = w.holds :=
  rfl

@[simp] theorem holds_setConn (w : World) (c : Nat) (pc : PooledConnection) :
    (w.setConn c pc).holds = w.holds := rfl

@[simp] theorem holds_deliver (w : World) (k : Nat) (d : Delivery) :
    (w.deliver k d).holds = w.holds := by
  simp [deliver, ProxySession.holding, holds]

/-- The pool's invariant, for what the sessions hold. -/
def Inv (w : World) : Prop := Owned w.cp w.holds

/-- An outcome that keeps the invariant and is neither of the two panics. -/
def Safe (r : Result Empty World) : Prop :=
  (∀ w', r = ok w' → w'.Inv) ∧ r ≠ .panic "closing a connection twice" ∧ r ≠ .panic "oh no!"

theorem safe_ok {w : World} (h : w.Inv) : Safe (ok w) := by
  refine ⟨fun w' hw => ?_, by simp, by simp⟩
  cases hw
  exact h

theorem safe_diverge : Safe .diverge := by
  refine ⟨fun _ h => ?_, by simp, by simp⟩
  cases h

theorem safe_panic {msg : String} (h₁ : msg ≠ "closing a connection twice") (h₂ : msg ≠ "oh no!") :
    Safe (.panic msg) := by
  refine ⟨fun _ h => ?_, by simpa using h₁, by simpa using h₂⟩
  cases h

theorem safe_bind {α : Type} {x : Result Empty α} {a : α} {f : α → Result Empty World}
    (hx : x = ok a) (hf : Safe (f a)) : Safe (x >>= f) := by
  rw [hx]
  exact hf

variable {w : World} {k c : Nat}

theorem doLoopTemp_safe {p : Option Nat} (h : Owned w.cp (Function.update w.holds k p))
    (err : Bool) : Safe (w.doLoopTemp k p err) := by
  unfold doLoopTemp
  cases err with
  | false =>
    -- back to the top of the loop, holding `p`
    apply safe_ok
    simpa [Inv, ProxySession.holding] using h
  | true =>
    cases p with
    | none =>
      apply safe_ok
      simpa [Inv, ProxySession.holding] using h
    | some c =>
      -- `ps.pooledConn.Close()`
      obtain ⟨cp', hput, h'⟩ := h.put (k := k) (c := c) (by simp)
      simp only [if_true, close, setSession_cp]
      refine safe_bind hput (safe_ok ?_)
      simpa [Inv, ProxySession.holding] using h'

theorem safe_interface_conversion_query :
    Safe (.panic "interface conversion: mongonet.Message is not *mongonet.QueryMessage") :=
  safe_panic (by decide) (by decide)

theorem inExhaustMode_cases (m : Message) :
    (∃ b, inExhaustMode m = ok b) ∨
      inExhaustMode m = .panic "interface conversion: mongonet.Message is not *mongonet.QueryMessage" := by
  unfold inExhaustMode
  split
  · cases m with
    | query q => exact .inl ⟨_, rfl⟩
    | _ => exact .inr rfl
  · exact .inl ⟨false, rfl⟩

theorem send_safe {m : Message} {respInter expecting sendOk : Bool} {replies : List Message}
    (h : Owned w.cp (Function.update w.holds k (some c))) :
    Safe (w.send k c m respInter expecting sendOk replies) := by
  have hheld : Function.update w.holds k (some c) k = some c := by simp
  have hopen : (w.cp.conns c).closed = false :=
    ((h.place c (h.lt_of_hold hheld)).eq_held hheld).2.2
  unfold send
  rw [if_neg (by simp [hopen])]
  cases sendOk with
  | false =>
    -- `pooledConn.bad = true`, and `DoLoopTemp` closes it
    rw [if_pos (by decide)]
    apply doLoopTemp_safe
    simpa using h.setConn hheld ({ w.cp.conns c with bad := true }) hopen
  | true =>
    rw [if_neg (by simp)]
    dsimp only
    -- mongod owes the replies; the session has sent one more request and still holds `c`
    have h₂ := h.setConn hheld
      ({ w.cp.conns c with pending := (w.cp.conns c).pending ++
        (replies.map fun r => (⟨k, (w.sessions k).requests, r⟩ : Answer)) }) hopen
    by_cases hresp : (!expecting || !m.hasResponse) = true
    · rw [if_pos hresp]
      apply doLoopTemp_safe
      simpa using h₂
    · rw [if_neg hresp]
      rcases inExhaustMode_cases m with ⟨b, hb⟩ | hb
      · refine safe_bind hb (safe_ok ?_)
        simpa [Inv, ProxySession.holding] using h₂
      · rw [hb]
        exact safe_interface_conversion_query

theorem Inv.frame (h : w.Inv) (hloop : (w.sessions k).pc = .loop) :
    Owned w.cp (Function.update w.holds k (w.sessions k).pooledConn) := by
  have hk : w.holds k = (w.sessions k).pooledConn := by
    simp [holds, ProxySession.holding, hloop]
  rw [← hk, Function.update_eq_self]
  exact h

theorem forward_safe {m : Message} {respInter expecting sendOk : Bool} {g : GetChoice}
    {replies : List Message} (h : w.Inv) (hloop : (w.sessions k).pc = .loop) :
    Safe (w.forward k m respInter expecting g sendOk replies) := by
  have hframe := h.frame hloop
  unfold forward
  cases hp : (w.sessions k).pooledConn with
  | some c =>
    rw [hp] at hframe
    exact send_safe hframe
  | none =>
    -- `Get()`, into the session's empty hand
    have hk : w.holds k = none := by simp [holds, ProxySession.holding, hloop, hp]
    rcases hget : w.cp.get g with ⟨r, cp'⟩
    have hown := Owned.get h hk g hget
    cases r with
    | none =>
      apply doLoopTemp_safe
      simpa using hown
    | some c =>
      apply send_safe
      simpa using hown

theorem request_safe {m : Message} {i : Intercept} {g : GetChoice} {sendOk : Bool}
    {replies : List Message} (h : w.Inv) (hloop : (w.sessions k).pc = .loop) :
    Safe (w.request k m i g sendOk replies) := by
  have hframe := h.frame hloop
  unfold request
  dsimp only
  cases hint : (w.sessions k).interceptor with
  | false =>
    rw [if_pos (by decide)]
    exact forward_safe h hloop
  | true =>
    rw [if_neg (by decide)]
    cases herr : i.err with
    | true =>
      rw [if_pos rfl]
      cases hmsg : i.msg with
      | none =>
        cases hp : (w.sessions k).pooledConn with
        | some c =>
          -- the interceptor failed with no message: the connection is closed at once
          have hk : w.holds k = some c := by simp [holds, ProxySession.holding, hloop, hp]
          obtain ⟨cp', hput, h'⟩ := h.put hk
          refine safe_bind (a := { w with cp := cp' }) (by simp [close, hput]) ?_
          apply doLoopTemp_safe
          simpa using h'
        | none =>
          apply doLoopTemp_safe
          simpa [hp] using hframe
      | some m' =>
        dsimp only
        by_cases hresp : (!m'.hasResponse) = true
        · rw [if_pos hresp]
          exact doLoopTemp_safe hframe true
        · -- `RespondWithError` writes to the client socket only
          rw [if_neg hresp]
          rcases hr : respondWithError m' i.respondOk with ⟨d, err⟩
          dsimp only
          cases d with
          | none => exact doLoopTemp_safe hframe err
          | some d =>
            apply doLoopTemp_safe
            simpa using hframe
    | false =>
      rw [if_neg (by decide)]
      cases hmsg : i.msg with
      | none => exact doLoopTemp_safe hframe false
      | some m' =>
        dsimp only
        exact forward_safe h hloop

theorem close_doLoopTemp_safe (h : Owned w.cp w.holds) (hk : w.holds k = some c) (err : Bool) :
    Safe (w.close c >>= fun w => w.doLoopTemp k none err) := by
  obtain ⟨cp', hput, h'⟩ := h.put hk
  refine safe_bind (a := { w with cp := cp' }) (by simp [close, hput]) ?_
  apply doLoopTemp_safe
  simpa using h'

theorem response_safe {exhaust respInter readOk writeOk : Bool} {inter : Option Message}
    (h : w.Inv) (hread : (w.sessions k).pc = .reading c exhaust respInter) :
    Safe (w.response k c exhaust respInter readOk inter writeOk) := by
  have hk : w.holds k = some c := by simp [holds, ProxySession.holding, hread]
  have hopen : (w.cp.conns c).closed = false :=
    ((h.place c (h.lt_of_hold hk)).eq_held hk).2.2
  unfold response
  dsimp only
  cases readOk with
  | false =>
    -- `pooledConn.bad = true`
    rw [if_pos (by decide)]
    have hbad := h.setConn hk ({ w.cp.conns c with bad := true }) hopen
    exact close_doLoopTemp_safe (by simpa using hbad) (by simpa using hk) true
  | true =>
    rw [if_neg (by decide)]
    cases hpend : (w.cp.conns c).pending with
    | nil => exact safe_diverge
    | cons a rest =>
      dsimp only
      -- the reply is taken off the socket
      have h₁ := h.setConn hk ({ w.cp.conns c with pending := rest }) hopen
      have hk₁ : (w.setConn c { w.cp.conns c with pending := rest }).holds k = some c := by
        simpa using hk
      cases (if respInter = true then inter else some a.msg) with
      | none => exact close_doLoopTemp_safe h₁ hk₁ true
      | some resp =>
        dsimp only
        cases writeOk with
        | false => exact close_doLoopTemp_safe h₁ hk₁ true
        | true =>
          rw [if_neg (by decide)]
          cases exhaust with
          | false =>
            rw [if_pos (by decide)]
            exact close_doLoopTemp_safe (by simpa using h₁) (by simpa using hk) false
          | true =>
            rw [if_neg (by decide)]
            cases resp with
            | reply r =>
              dsimp only
              by_cases hcur : r.cursorId = 0
              · rw [if_pos hcur]
                exact close_doLoopTemp_safe (by simpa using h₁) (by simpa using hk) false
              · -- the exhaust stream goes on, on the same connection
                rw [if_neg hcur]
                exact safe_ok (by simpa [Inv] using h₁)
            | _ => exact safe_panic (by decide) (by decide)

/-- **Every step** of a session keeps the invariant, and neither panics. -/
theorem step_safe (h : w.Inv) (l : Nat × Event) : Safe (w.step l) := by
  obtain ⟨k, ev⟩ := l
  cases ev with
  | clientGone =>
    dsimp only [step]
    cases hpc : (w.sessions k).pc with
    | loop => exact doLoopTemp_safe (h.frame hpc) true
    | reading => exact safe_diverge
    | done => exact safe_diverge
  | request m i g sendOk replies =>
    dsimp only [step]
    cases hpc : (w.sessions k).pc with
    | loop => exact request_safe h hpc
    | reading => exact safe_diverge
    | done => exact safe_diverge
  | response readOk inter writeOk =>
    dsimp only [step]
    cases hpc : (w.sessions k).pc with
    | loop => exact safe_diverge
    | reading c exhaust respInter => exact response_safe h hpc
    | done => exact safe_diverge

theorem init_inv (interceptor : Nat → Bool) : (World.init interceptor).Inv := by
  refine ⟨fun c hc => absurd hc (Nat.not_lt_zero c), fun c _ => ⟨fun j => ?_, by simp [init,
    ConnectionPool.empty]⟩⟩
  simp [holds, init, ProxySession.holding]

theorem reach_inv {interceptor : Nat → Bool} {w : World}
    (h : Reach step (fun _ _ => True) (init interceptor) w) : w.Inv :=
  h.inv _ (init_inv interceptor) fun _ l _ hs _ hstep => (step_safe hs l).1 _ hstep

end World

/-- **Pooled-connection lifecycle.**  In every state that any interleaving of sessions reaches,
with any interceptor outcomes and any failures of either socket, every connection created so far
is held by exactly one session and open, or pooled exactly once, closed and not bad, or dropped;
and no step of any session panics with "closing a connection twice" or "oh no!". -/
theorem pooled_connection_lifecycle {interceptor : Nat → Bool} {w : World}
    (h : Reach World.step (fun _ _ => True) (World.init interceptor) w) :
    (∀ c < w.cp.totalCreated, Place w.cp w.holds c) ∧
      ∀ l, w.step l ≠ .panic "closing a connection twice" ∧ w.step l ≠ .panic "oh no!" := by
  have hinv : w.Inv := World.reach_inv h
  exact ⟨hinv.place, fun l => (World.step_safe hinv l).2⟩

/-- Three sessions that take a connection from the pool, dial one that fails, and dial another:
session 1 holds connection 0, the failed connection 1 is dropped, and connection 2 is pooled. -/
theorem pooled_connection_lifecycle_three_sessions :
    ∃ w, Reach World.step (fun _ _ => True) (World.init fun _ => false) w ∧
      w.cp.totalCreated = 3 ∧ w.holds 1 = some 0 ∧ w.cp.pool = [2] ∧ (w.cp.conns 1).bad = true ∧
      (∀ c < w.cp.totalCreated, Place w.cp w.holds c) ∧
      ∀ l, w.step l ≠ .panic "closing a connection twice" ∧ w.step l ≠ .panic "oh no!" := by
  obtain ⟨w, hw, hcreated, hheld, hpool, hbad⟩ : ∃ w, Reach World.step (fun _ _ => True)
      (World.init fun _ => false) w ∧
      w.cp.totalCreated = 3 ∧ w.holds 1 = some 0 ∧ w.cp.pool = [2] ∧ (w.cp.conns 1).bad = true :=
    ⟨_, reach_of_runAdm
      [(0, .request (.query ⟨⟨48, 1, 0, opQuery⟩, 0, [], 0, 0, ⟨0, []⟩, ⟨0, []⟩⟩)
          ⟨none, false, true, false, true⟩ ⟨0, true⟩ true [.reply ⟨⟨36, 2, 1, opReply⟩, 0, 0, 0, 0, []⟩]),
       (0, .response true none true),
       (1, .request (.query ⟨⟨48, 3, 0, opQuery⟩, 0, [], 0, 0, ⟨0, []⟩, ⟨0, []⟩⟩)
          ⟨none, false, true, false, true⟩ ⟨0, true⟩ true [.reply ⟨⟨36, 4, 3, opReply⟩, 0, 0, 0, 0, []⟩]),
       (2, .request (.query ⟨⟨48, 5, 0, opQuery⟩, 0, [], 0, 0, ⟨0, []⟩, ⟨0, []⟩⟩)
          ⟨none, false, true, false, true⟩ ⟨0, true⟩ false []),
       (0, .request (.query ⟨⟨48, 6, 0, opQuery⟩, 0, [], 0, 0, ⟨0, []⟩, ⟨0, []⟩⟩)
          ⟨none, false, true, false, true⟩ ⟨0, true⟩ true [.reply ⟨⟨36, 7, 6, opReply⟩, 0, 0, 0, 0, []⟩]),
       (0, .response true none true)] .init rfl, rfl, rfl, rfl, rfl⟩
  exact ⟨w, hw, hcreated, hheld, hpool, hbad, pooled_connection_lifecycle hw⟩

/-- **The pool never holds a connection twice, nor more than were created.**  In every state
that any interleaving of sessions reaches, with any interceptor outcomes and any failures of
either socket, no connection is in `pool` twice, and `CurrentInPool()` is at most
`LoadTotalCreated()`. -/
theorem currentInPool_le_loadTotalCreated {interceptor : Nat → Bool} {w : World}
    (h : Reach World.step (fun _ _ => True) (World.init interceptor) w) :
    w.cp.pool.Nodup ∧ w.cp.currentInPool ≤ w.cp.loadTotalCreated :=
  (World.reach_inv h).pool_nodup

/-- The run of `pooled_connection_lifecycle_three_sessions`, after which session 1's reply comes
back and its connection is pooled too: two of the three connections created are pooled. -/
theorem currentInPool_le_loadTotalCreated_two_pooled :
    ∃ w, Reach World.step (fun _ _ => True) (World.init fun _ => false) w ∧
      w.cp.pool = [2, 0] ∧ w.cp.loadTotalCreated = 3 ∧
      w.cp.pool.Nodup ∧ w.cp.currentInPool ≤ w.cp.loadTotalCreated := by
  obtain ⟨w, hw, hpool, hcreated⟩ : ∃ w, Reach World.step (fun _ _ => True)
      (World.init fun _ => false) w ∧ w.cp.pool = [2, 0] ∧ w.cp.loadTotalCreated = 3 :=
    ⟨_, reach_of_runAdm
      [(0, .request (.query ⟨⟨48, 1, 0, opQuery⟩, 0, [], 0, 0, ⟨0, []⟩, ⟨0, []⟩⟩)
          ⟨none, false, true, false, true⟩ ⟨0, true⟩ true [.reply ⟨⟨36, 2, 1, opReply⟩, 0, 0, 0, 0, []⟩]),
       (0, .response true none true),
       (1, .request (.query ⟨⟨48, 3, 0, opQuery⟩, 0, [], 0, 0, ⟨0, []⟩, ⟨0, []⟩⟩)
          ⟨none, false, true, false, true⟩ ⟨0, true⟩ true [.reply ⟨⟨36, 4, 3, opReply⟩, 0, 0, 0, 0, []⟩]),
       (2, .request (.query ⟨⟨48, 5, 0, opQuery⟩, 0, [], 0, 0, ⟨0, []⟩, ⟨0, []⟩⟩)
          ⟨none, false, true, false, true⟩ ⟨0, true⟩ false []),
       (0, .request (.query ⟨⟨48, 6, 0, opQuery⟩, 0, [], 0, 0, ⟨0, []⟩, ⟨0, []⟩⟩)
          ⟨none, false, true, false, true⟩ ⟨0, true⟩ true [.reply ⟨⟨36, 7, 6, opReply⟩, 0, 0, 0, 0, []⟩]),
       (0, .response true none true),
       (1, .response true none true)] .init rfl, rfl, rfl⟩
  exact ⟨w, hw, hpool, hcreated, currentInPool_le_loadTotalCreated hw⟩

end Mongonet.Proxy
