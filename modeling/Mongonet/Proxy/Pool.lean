import Mongonet.Wire.Message

/-!
# Mongonet.Proxy.Pool — `ConnectionPool` (connpool.go)

The pool is a stack of idle connections behind a mutex: `Get` pops (`rawGet`) until it finds a
connection idle for less than an hour, or dials a new one; `Put` marks a connection `closed`
and pushes it back, unless it is `bad`, in which case its socket is closed and it is dropped.
`Get` and `Put` each run under `poolMutex` (or touch only the connection in hand), so each is
one step here.

A connection is known by its index among those created (`totalCreated` of them).  Besides its
two flags, it carries what matters of the socket to mongod for the proxy's correctness: the
replies mongod has sent on it that nobody has read yet (`pending`).  The clock is the
environment's: `GetChoice` says how many of the connections `rawGet` hands out have been idle
too long, and whether dialing (and the post-create hook) succeeds.
-/

namespace Mongonet.Proxy

open Go Result

/-- A reply mongod sent, with the session and the request of that session it answers. -/
structure Answer where
  session : Nat
  request : Nat
  msg : Message
  deriving Repr, DecidableEq

/-- `PooledConnection`: `closed`, `bad`, and the unread replies on its socket. -/
structure PooledConnection where
  closed : Bool
  bad : Bool
  pending : List Answer
  deriving Repr, DecidableEq

/-- `ConnectionPool`: the connections created so far, by index, and `pool`, the idle ones. -/
structure ConnectionPool where
  conns : Nat → PooledConnection
  totalCreated : Nat
  pool : List Nat

/-- What the clock and the network decide in one `Get`. -/
structure GetChoice where
  /-- How many connections `rawGet` hands out before one idle for less than an hour. -/
  expired : Nat
  /-- Whether `net.Dial` (or `tls.Dial`) and the post-create hook succeed. -/
  dialOk : Bool
  deriving Repr, DecidableEq

namespace ConnectionPool

/-- `NewConnectionPool`: nothing created, nothing pooled. -/
def empty : ConnectionPool := ⟨fun _ => ⟨true, false, []⟩, 0, []⟩

/-- `CurrentInPool()`: how many connections are idle in the pool. -/
def currentInPool (cp : ConnectionPool) : Nat := cp.pool.length

/-- `LoadTotalCreated()`: how many connections `Get` has dialed. -/
def loadTotalCreated (cp : ConnectionPool) : Nat := cp.totalCreated

/-- Replace connection `c`. -/
def setConn (cp : ConnectionPool) (c : Nat) (pc : PooledConnection) : ConnectionPool :=
  { cp with conns := Function.update cp.conns c pc }

@[simp] theorem setConn_conns_self (cp : ConnectionPool) (c : Nat) (pc : PooledConnection) :
    (cp.setConn c pc).conns c = pc := by
  simp [setConn]

@[simp] theorem setConn_conns_ne (cp : ConnectionPool) {c d : Nat} (pc : PooledConnection)
    (h : d ≠ c) : (cp.setConn c pc).conns d = cp.conns d := by
  simp [setConn, h]

@[simp] theorem setConn_pool (cp : ConnectionPool) (c : Nat) (pc : PooledConnection) :
    (cp.setConn c pc).pool = cp.pool := rfl

@[simp] theorem setConn_totalCreated (cp : ConnectionPool) (c : Nat) (pc : PooledConnection) :
    (cp.setConn c pc).totalCreated = cp.totalCreated := rfl

/-- `Put(conn)`. -/
def put (cp : ConnectionPool) (c : Nat) : Result Empty ConnectionPool :=
  if (cp.conns c).closed then .panic "closing a connection twice" else
  -- `conn.closed = true`; a bad connection has its socket closed and is not pooled
  let cp := cp.setConn c { cp.conns c with closed := true }
  if (cp.conns c).bad then ok cp else ok { cp with pool := cp.pool ++ [c] }

/-- `rawGet()`: the last pooled connection, taken out of the pool. -/
def rawGet (cp : ConnectionPool) : Option Nat × ConnectionPool :=
  match cp.pool.getLast? with
  | none => (none, cp)
  | some c => (some c, { cp with pool := cp.pool.dropLast })

/-- The `for` loop of `Get`: `rawGet` until the pool is empty (`none`) or a connection comes out
that has been idle for less than an hour (the `expired` before it have, and are closed). -/
def getLoop : Nat → ConnectionPool → Option Nat × ConnectionPool
  | expired, cp =>
    match cp.rawGet with
    | (none, cp) => (none, cp)
    | (some c, cp) =>
      match expired with
      | 0 => (some c, cp.setConn c { cp.conns c with closed := false })
      | n + 1 => getLoop n cp

/-- `Get()`: a pooled connection, or a new one; `none` for the error of a failed dial. -/
def get (cp : ConnectionPool) (g : GetChoice) : Option Nat × ConnectionPool :=
  match cp.getLoop g.expired with
  | (some c, cp) => (some c, cp)
  | (none, cp) =>
    if g.dialOk then
      (some cp.totalCreated,
        { cp.setConn cp.totalCreated ⟨false, false, []⟩ with totalCreated := cp.totalCreated + 1 })
    else (none, cp)

/-! ### What `Put` and `Get` do to the connections -/

variable {cp cp' : ConnectionPool} {c : Nat}

theorem put_eq_ok (h : (cp.conns c).closed = false) :
    cp.put c = ok { cp.setConn c { cp.conns c with closed := true } with
      pool := if (cp.conns c).bad then cp.pool else cp.pool ++ [c] } := by
  unfold put
  rw [if_neg (by simp [h])]
  cases hbad : (cp.conns c).bad
  · simp [hbad]
  · simp [hbad]
    rfl

theorem getLoop_conns {r : Option Nat} (n : Nat) (h : cp.getLoop n = (r, cp')) :
    (∀ d, r ≠ some d → cp'.conns d = cp.conns d) ∧
      (∀ c, r = some c → c ∈ cp.pool ∧ cp'.conns c = { cp.conns c with closed := false }) ∧
      cp'.totalCreated = cp.totalCreated := by
  induction n generalizing cp with
  | zero =>
    unfold getLoop rawGet at h
    cases hlast : cp.pool.getLast? with
    | none =>
      rw [hlast] at h
      cases h
      exact ⟨fun _ _ => rfl, fun _ h => (by cases h), rfl⟩
    | some c₀ =>
      rw [hlast] at h
      cases h
      refine ⟨fun d hd => ?_, fun c hc => ?_, rfl⟩
      · exact setConn_conns_ne _ _ (fun h => hd (h ▸ rfl))
      · cases hc
        exact ⟨List.mem_of_getLast? hlast, by simp⟩
  | succ n ih =>
    unfold getLoop rawGet at h
    cases hlast : cp.pool.getLast? with
    | none =>
      rw [hlast] at h
      cases h
      exact ⟨fun _ _ => rfl, fun _ h => (by cases h), rfl⟩
    | some c₀ =>
      -- `c₀` has been idle too long and is dropped; the loop goes on with the rest of the pool
      rw [hlast] at h
      obtain ⟨hother, hret, htot⟩ := ih h
      refine ⟨hother, fun c hc => ?_, htot⟩
      obtain ⟨hmem, hconn⟩ := hret c hc
      exact ⟨List.dropLast_subset _ hmem, hconn⟩

theorem get_conns {g : GetChoice} {r : Option Nat} (h : cp.get g = (r, cp')) :
    (∀ d, r ≠ some d → cp'.conns d = cp.conns d) ∧
      ∀ c, r = some c → (c ∈ cp.pool ∧ cp'.conns c = { cp.conns c with closed := false }) ∨
        (c = cp.totalCreated ∧ cp'.conns c = ⟨false, false, []⟩) := by
  unfold get at h
  rcases hloop : cp.getLoop g.expired with ⟨r₁, cp₁⟩
  obtain ⟨hother, hret, htot⟩ := getLoop_conns g.expired hloop
  rw [hloop] at h
  cases r₁ with
  | some c₁ =>
    cases h
    exact ⟨hother, fun c hc => .inl (hret c hc)⟩
  | none =>
    have hsame : ∀ d, cp₁.conns d = cp.conns d := fun d => hother d (by simp)
    cases hdial : g.dialOk with
    | false =>
      rw [hdial] at h
      cases h
      exact ⟨fun d _ => hsame d, fun _ h => (by cases h)⟩
    | true =>
      rw [hdial] at h
      cases h
      refine ⟨fun d hd => ?_, fun c hc => .inr ?_⟩
      · rw [← hsame d]
        exact setConn_conns_ne _ _ (fun h => hd (h ▸ rfl))
      · cases hc
        exact ⟨htot, by simp⟩

end ConnectionPool

end Mongonet.Proxy
