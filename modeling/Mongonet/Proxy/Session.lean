import Mongonet.Proxy.Pool
import Mongonet.Go.System

/-!
# Mongonet.Proxy.Session — `ProxySession.doLoop` and `DoLoopTemp` (proxy.go)

Each client connection is a goroutine running `DoLoopTemp`, which calls `doLoop` until it
returns an error, keeping between calls the connection to mongod that `doLoop` returns
(`ps.pooledConn`).  All sessions share one `ConnectionPool`.

`World` is the state the goroutines share: the pool, and every session (sessions are indexed by
`Nat`; one that has not started is at `loop` with nothing sent).  A step moves one session:

* `clientGone`: `ReadMessage(ps.conn)` fails, `doLoop` returns its connection with the error,
  and `DoLoopTemp` closes it and returns;
* `request`: the client's next message, through the interceptor (if the session has one), to
  mongod on the session's connection, taken from the pool if it has none;
* `response`: one round of `doLoop`'s response loop, from `ReadMessage(mongoConn)` to the write
  to the client; the loop ends with the deferred `pooledConn.Close()`.

A step is atomic here.  Between `Get` and the send, or between two writes, other sessions may
run, but they touch neither the connection this session holds nor its client socket; `Get` and
`Put` themselves hold `poolMutex`.

Mongod is the environment: when a request is sent, the step's event says which replies mongod
will send on that connection, and they queue behind those it has not read (`pending`).  Each is
tagged with the session and request it answers, which is what the client socket receives
(`Delivery`).
-/

namespace Mongonet.Proxy

open Go Result

/-- What the proxy wrote to a client socket. -/
inductive Delivery where
  /-- A reply read from mongod (`a`), as the response interceptor left it (`m`). -/
  | reply (a : Answer) (m : Message)
  /-- `RespondWithError`'s reply to the client message `m`. -/
  | errorResponse (m : Message)
  deriving Repr, DecidableEq

/-- Where a session's goroutine is. -/
inductive Pc where
  /-- In `DoLoopTemp`, about to call `doLoop`. -/
  | loop
  /-- In `doLoop`'s response loop, with `conn` in hand and its `Close` deferred. -/
  | reading (conn : Nat) (exhaust respInter : Bool)
  /-- `DoLoopTemp` has returned. -/
  | done
  deriving Repr, DecidableEq

/-- `ProxySession`: whether it has an interceptor, `pooledConn`, where it is, how many
requests it has sent to mongod, and what its client socket was sent. -/
structure ProxySession where
  interceptor : Bool
  pooledConn : Option Nat
  pc : Pc
  requests : Nat
  clientOut : List Delivery
  deriving Repr, DecidableEq

/-- The connection a session has in hand: `ps.pooledConn` between calls of `doLoop`, the
response loop's `pooledConn` inside one. -/
def ProxySession.holding (ps : ProxySession) : Option Nat :=
  match ps.pc with
  | .loop => ps.pooledConn
  | .reading c _ _ => some c
  | .done => none

/-- The shared state: the pool and the sessions. -/
structure World where
  cp : ConnectionPool
  sessions : Nat → ProxySession

/-- What `InterceptClientToMongo(m)` returns, and whether `RespondWithError` can write. -/
structure Intercept where
  /-- The message, `none` for nil. -/
  msg : Option Message
  /-- A `ResponseInterceptor` came with it. -/
  respInter : Bool
  /-- `expectingResponse`. -/
  expecting : Bool
  /-- A non-nil error. -/
  err : Bool
  /-- `SendMessage` of the error reply to the client succeeds. -/
  respondOk : Bool
  deriving Repr, DecidableEq

/-- What the environment decides in one step of a session. -/
inductive Event where
  /-- `ReadMessage(ps.conn)` fails: EOF, or another error. -/
  | clientGone
  /-- The client sends `m`; the interceptor's answer (if there is an interceptor); what `Get`
  meets; whether the send to mongod succeeds; and the replies mongod will send to it. -/
  | request (m : Message) (i : Intercept) (g : GetChoice) (sendOk : Bool) (replies : List Message)
  /-- Whether `ReadMessage(mongoConn)` succeeds; what `InterceptMongoToClient` returns (`none`
  for an error), if there is a response interceptor; whether the write to the client succeeds. -/
  | response (readOk : Bool) (inter : Option Message) (writeOk : Bool)
  deriving Repr, DecidableEq

namespace World

/-- Every session at the start of `DoLoopTemp`; `interceptor k` for an installed interceptor. -/
def init (interceptor : Nat → Bool) : World :=
  ⟨.empty, fun k => ⟨interceptor k, none, .loop, 0, []⟩⟩

/-- Replace session `k`. -/
def setSession (w : World) (k : Nat) (ps : ProxySession) : World :=
  { w with sessions := Function.update w.sessions k ps }

@[simp] theorem setSession_sessions_self (w : World) (k : Nat) (ps : ProxySession) :
    (w.setSession k ps).sessions k = ps := by
  simp [setSession]

@[simp] theorem setSession_sessions_ne (w : World) {k j : Nat} (ps : ProxySession) (h : j ≠ k) :
    (w.setSession k ps).sessions j = w.sessions j := by
  simp [setSession, h]

@[simp] theorem setSession_cp (w : World) (k : Nat) (ps : ProxySession) :
    (w.setSession k ps).cp = w.cp := rfl

/-- Replace connection `c`. -/
def setConn (w : World) (c : Nat) (pc : PooledConnection) : World := { w with cp := w.cp.setConn c pc }

@[simp] theorem setConn_cp (w : World) (c : Nat) (pc : PooledConnection) :
    (w.setConn c pc).cp = w.cp.setConn c pc := rfl

@[simp] theorem setConn_sessions (w : World) (c : Nat) (pc : PooledConnection) :
    (w.setConn c pc).sessions = w.sessions := rfl

/-- `pooledConn.Close()`, that is `Put`. -/
def close (w : World) (c : Nat) : Result Empty World := do
  let cp ← w.cp.put c
  pure { w with cp }

/-- `DoLoopTemp` once `doLoop` has returned `pooledConn` and an error or not: on an error it
closes the connection and returns, otherwise it calls `doLoop` again. -/
def doLoopTemp (w : World) (k : Nat) (pooledConn : Option Nat) (err : Bool) : Result Empty World :=
  let w := w.setSession k { w.sessions k with pooledConn, pc := if err then .done else .loop }
  if err then
    match pooledConn with
    | some c => w.close c
    | none => ok w
  else ok w

/-- Session `k`'s client socket is sent `d`. -/
def deliver (w : World) (k : Nat) (d : Delivery) : World :=
  w.setSession k { w.sessions k with clientOut := (w.sessions k).clientOut ++ [d] }

@[simp] theorem deliver_cp (w : World) (k : Nat) (d : Delivery) : (w.deliver k d).cp = w.cp := rfl

/-- `m.Header().OpCode == OP_QUERY && m.(*QueryMessage).Flags&(1<<6) != 0`: the type assertion
panics on a message whose header says OP_QUERY and that is not a `QueryMessage`. -/
def inExhaustMode (m : Message) : Result Empty Bool :=
  if m.header.opCode = opQuery then
    match m with
    | .query q => ok (q.flags &&& ((1 : Int32) <<< 6) ≠ 0)
    | _ => .panic "interface conversion: mongonet.Message is not *mongonet.QueryMessage"
  else ok false

/-- From `if pooledConn.closed` on: send `m` to mongod on connection `c`, which then owes the
replies `replies`; return the connection if no response is awaited, or enter the response loop. -/
def send (w : World) (k c : Nat) (m : Message) (respInter expecting sendOk : Bool)
    (replies : List Message) : Result Empty World :=
  if (w.cp.conns c).closed then .panic "oh no!" else
  if !sendOk then
    -- `pooledConn.bad = true; return pooledConn, err`
    (w.setConn c { w.cp.conns c with bad := true }).doLoopTemp k (some c) true
  else
    let ps := w.sessions k
    let answers := replies.map fun r => (⟨k, ps.requests, r⟩ : Answer)
    let w := w.setConn c { w.cp.conns c with pending := (w.cp.conns c).pending ++ answers }
    let w := w.setSession k { ps with requests := ps.requests + 1 }
    if !expecting || !m.hasResponse then w.doLoopTemp k (some c) false
    else do
      let exhaust ← inExhaustMode m
      -- `defer pooledConn.Close()`
      pure (w.setSession k { w.sessions k with pc := .reading c exhaust respInter })

/-- From `if pooledConn == nil` on: take a connection from the pool if the session has none. -/
def forward (w : World) (k : Nat) (m : Message) (respInter expecting : Bool) (g : GetChoice)
    (sendOk : Bool) (replies : List Message) : Result Empty World :=
  match (w.sessions k).pooledConn with
  | some c => w.send k c m respInter expecting sendOk replies
  | none =>
    match w.cp.get g with
    | (none, cp) => ({ w with cp }).doLoopTemp k none true
    | (some c, cp) => ({ w with cp }).send k c m respInter expecting sendOk replies

/-- `Session.RespondWithError(m, err)`: the reply it writes to the client, by opcode, and whether
it returns an error (a failed write, or `ErrUnknownOpcode`). -/
def respondWithError (m : Message) (sendOk : Bool) : Option Delivery × Bool :=
  let op := m.header.opCode
  if op = opQuery ∨ op = opGetMore ∨ op = opCommand ∨ op = opMsg then
    if sendOk then (some (.errorResponse m), false) else (none, true)
  -- unacknowledged writes get no reply
  else if op = opInsert ∨ op = opUpdate ∨ op = opDelete then (none, false)
  else (none, true)

/-- `doLoop` after `ReadMessage(ps.conn)` returned `m`: the interceptor, then `forward`. -/
def request (w : World) (k : Nat) (m : Message) (i : Intercept) (g : GetChoice) (sendOk : Bool)
    (replies : List Message) : Result Empty World :=
  let ps := w.sessions k
  if !ps.interceptor then w.forward k m false true g sendOk replies
  else if i.err then
    match i.msg with
    | none =>
      -- `if pooledConn != nil { pooledConn.Close() }; return nil, err`
      match ps.pooledConn with
      | some c => w.close c >>= fun w => w.doLoopTemp k none true
      | none => w.doLoopTemp k none true
    | some m =>
      -- we can't respond, so we just fail
      if !m.hasResponse then w.doLoopTemp k ps.pooledConn true
      else
        match respondWithError m i.respondOk with
        | (d, err) =>
          let w := match d with
            | some d => w.deliver k d
            | none => w
          w.doLoopTemp k ps.pooledConn err
  else
    match i.msg with
    -- already responded
    | none => w.doLoopTemp k ps.pooledConn false
    | some m => w.forward k m i.respInter i.expecting g sendOk replies

/-- One round of `doLoop`'s response loop on connection `c`; every return from it runs the
deferred `pooledConn.Close()` and hands `DoLoopTemp` a nil connection. -/
def response (w : World) (k c : Nat) (exhaust respInter readOk : Bool) (inter : Option Message)
    (writeOk : Bool) : Result Empty World :=
  let ret (w : World) (err : Bool) : Result Empty World :=
    w.close c >>= fun w => w.doLoopTemp k none err
  if !readOk then
    -- `pooledConn.bad = true`
    ret (w.setConn c { w.cp.conns c with bad := true }) true
  else
    match (w.cp.conns c).pending with
    -- mongod has sent nothing: `ReadMessage` waits
    | [] => .diverge
    | a :: rest =>
      let w := w.setConn c { w.cp.conns c with pending := rest }
      match (if respInter then inter else some a.msg) with
      | none => ret w true
      | some resp =>
        if !writeOk then ret w true
        else
          let w := w.deliver k (.reply a resp)
          if !exhaust then ret w false
          else
            match resp with
            | .reply r => if r.cursorId = 0 then ret w false else ok w
            | _ => .panic "interface conversion: mongonet.Message is not *mongonet.ReplyMessage"

/-- One step of session `k`; `diverge` when the event is not one the session can take. -/
def step (w : World) : Nat × Event → Result Empty World
  | (k, .clientGone) =>
    match (w.sessions k).pc with
    | .loop => w.doLoopTemp k (w.sessions k).pooledConn true
    | _ => .diverge
  | (k, .request m i g sendOk replies) =>
    match (w.sessions k).pc with
    | .loop => w.request k m i g sendOk replies
    | _ => .diverge
  | (k, .response readOk inter writeOk) =>
    match (w.sessions k).pc with
    | .reading c exhaust respInter => w.response k c exhaust respInter readOk inter writeOk
    | _ => .diverge

end World

end Mongonet.Proxy
