import Mongonet.Wire.Util
import Mongonet.Go.System

/-!
# Mongonet.Server.Lifecycle — `Server.Run`, `Session.Run` and `Server.Close` (server.go, session.go)

A server is several goroutines around two channels and a wait group:

* `Run` listens, then loops on a `select` between `killChan` and the connections an accept
  goroutine hands it; for each it starts `go c.Run(conn)`, after `sessionWG.Add(1)` when the
  worker factory is a `ServerWorkerWithContextFactory`.  It leaves the loop when `killChan` is
  closed (calling `stopSessions()`) or when an accept fails, and its deferred function closes
  the listener, waits on `sessionWG`, and closes `doneChan`;
* each `Session.Run` does the TLS handshake and creates its worker, runs `worker.DoLoopTemp()`,
  and in its deferred function closes the connection, closes the worker if there is one, and
  calls `sessionWG.Done()` for a contextual factory;
* `Close` closes `killChan` and waits for `doneChan`.

A step is one goroutine passing one of these points; what the network and the worker do is the
step's event.  Go's `select` picks at random among ready cases, so once `killChan` is closed an
accepted connection may still be served first: both steps are enabled.

Two ways of building a server are modelled: `NewServer`, which sets a `sessionManager`, and
`Proxy.InitializeServer`, which leaves it nil; every use of a nil `sessionManager` is a nil
pointer dereference.  The worker factory is seen through what `Run` and `Session.Run` ask of it:
whether it is contextual, and whether the `Close` of its workers panics (a `ProxySession` with no
interceptor calls `Close` on a nil interface).

* `newServer_shutdown`: the wait group counts the live sessions of a contextual factory, so
  `Done` never takes it below zero, and when `Close` returns every such session has ended; the
  only panic is a second `Close`;
* `run_result`: `Run` returns nil only after `Close`, and reports a failed accept with the error
  of `Listen`, nil there, never with the accept's own error;
* `close_blocks_after_listen_failure`: once `Listen` has failed, `Close` never returns;
* `proxy_server_lifecycle`: the proxy's server never closes `doneChan`, its `Run` returns only
  when `Listen` fails, and without an interceptor factory every session panics when its loop
  returns.
-/

namespace Mongonet

open Go Result

/-- An error made by `NewStackErrorf(messageFmt, err)` of one `error` argument, `none` for nil;
the stack trace is left out. -/
structure WrappedError where
  messageFmt : String
  err : Option GoError
  deriving Repr, DecidableEq

/-- Where the goroutine of `Server.Run` is. -/
inductive RunPc where
  /-- Not yet listening. -/
  | idle
  /-- In the `for`/`select` loop, with `err`, the error `net.Listen` returned, in scope. -/
  | accepting (err : Option GoError)
  /-- Returned `ret`; in its deferred function, which waits on `sessionWG`. -/
  | waiting (ret : Option WrappedError)
  /-- Returned `ret` to its caller. -/
  | returned (ret : Option WrappedError)
  deriving Repr, DecidableEq

/-- Where the goroutine of one `Session.Run` is. -/
inductive SessionPc where
  /-- Started by `go c.Run(conn)`: the TLS handshake and the creation of the worker are ahead. -/
  | starting
  /-- In `worker.DoLoopTemp()`. -/
  | working
  /-- Returned, its deferred function run. -/
  | ended
  deriving Repr, DecidableEq

/-- A session that has not returned. -/
def SessionPc.live : SessionPc → Bool
  | .ended => false
  | _ => true

/-- The `ServerWorkerFactory`, as `Run` and `Session.Run` see it. -/
structure WorkerFactory where
  /-- It implements `ServerWorkerWithContextFactory`. -/
  contextual : Bool
  /-- `Close()` of the workers it creates panics. -/
  closePanics : Bool
  deriving Repr, DecidableEq

/-- A `Server`: its worker factory, whether `sessionManager` is set, and where its goroutines
and channels are. -/
structure Server where
  factory : WorkerFactory
  /-- `sessionManager != nil`. -/
  managed : Bool
  run : RunPc
  /-- `killChan` is closed. -/
  killed : Bool
  /-- `stopSessions()` has cancelled the sessions' context. -/
  stopped : Bool
  /-- The counter of `sessionManager.sessionWG`. -/
  sessionWG : Nat
  /-- The sessions `Run` has started, in order. -/
  sessions : List SessionPc
  /-- `doneChan` is closed. -/
  doneClosed : Bool
  /-- `Close()` has returned. -/
  closeReturned : Bool
  deriving Repr, DecidableEq

/-- One goroutine's step, with what its environment decides. -/
inductive Event where
  /-- `Run`: `net.Listen`, and the error it returns. -/
  | listen (err : Option GoError)
  /-- `Run`'s `select` receives an accepted connection. -/
  | accept
  /-- `Run`'s `select` receives the accept goroutine's error. -/
  | acceptError (err : GoError)
  /-- `Run`'s `select` receives from the closed `killChan`. -/
  | stop
  /-- `Run`'s deferred `sessionWG.Wait()` returns, and it closes `doneChan`. -/
  | wait
  /-- `Close()`: `close(s.killChan)`. -/
  | close
  /-- `Close()`: `<-s.doneChan` returns. -/
  | closeDone
  /-- Session `k`: the TLS handshake and `CreateWorker` both succeed (`true`), or one fails. -/
  | start (k : Nat) (ok : Bool)
  /-- Session `k`: `worker.DoLoopTemp()` returns. -/
  | finish (k : Nat)
  deriving Repr, DecidableEq

/-- The run-time panic of a nil pointer dereference. -/
def nilDereference : String := "runtime error: invalid memory address or nil pointer dereference"

namespace Server

variable {s s' : Server} {f : WorkerFactory} {m : Bool}

/-- A server before `Run`, `managed` when it has a `sessionManager`. -/
def init (factory : WorkerFactory) (managed : Bool) : Server :=
  ⟨factory, managed, .idle, false, false, 0, [], false, false⟩

/-- `NewServer(config, factory)`: a `sessionManager` with a fresh wait group and context. -/
def new (factory : WorkerFactory) : Server := init factory true

/-- The number of sessions that have not returned. -/
def live (s : Server) : Nat := s.sessions.countP SessionPc.live

/-- Move session `k`. -/
def setSession (s : Server) (k : Nat) (p : SessionPc) : Server :=
  { s with sessions := s.sessions.set k p }

/-- The deferred function of `Session.Run` for session `k`: `s.conn.Close()`, `worker.Close()`
if a worker was created, and `sessionWG.Done()` for a contextual factory. -/
def sessionDone (s : Server) (k : Nat) (hadWorker : Bool) : Result Empty Server :=
  if hadWorker && s.factory.closePanics then .panic nilDereference else
  let s := s.setSession k .ended
  if !s.factory.contextual then ok s
  else if !s.managed then .panic nilDereference
  else if s.sessionWG = 0 then .panic "sync: negative WaitGroup counter"
  else ok { s with sessionWG := s.sessionWG - 1 }

/-- One step of the server's goroutines; `diverge` where the goroutine is not at that point or
is blocked. -/
def step (s : Server) : Event → Result Empty Server
  | .listen err =>
    match s.run with
    | .idle =>
      -- a failed `Listen` returns before the deferred wait is registered
      if err.isSome then
        ok { s with run := .returned (some ⟨"cannot start listening in proxy: %s", err⟩) }
      else ok { s with run := .accepting err }
    | _ => .diverge
  | .accept =>
    match s.run with
    | .accepting _ =>
      let s' := { s with sessions := s.sessions ++ [.starting] }
      if !s.factory.contextual then ok s'
      else if !s.managed then .panic nilDereference
      else ok { s' with sessionWG := s.sessionWG + 1 }
    | _ => .diverge
  | .acceptError _ =>
    match s.run with
    -- the message formats `err`, the error of `net.Listen`, not `connectionEvent.err`
    | .accepting err =>
      ok { s with run := .waiting (some ⟨"could not accept in proxy: %s", err⟩) }
    | _ => .diverge
  | .stop =>
    match s.run with
    | .accepting _ =>
      if !s.killed then .diverge
      else if !s.managed then .panic nilDereference
      else ok { s with stopped := true, run := .waiting none }
    | _ => .diverge
  | .wait =>
    match s.run with
    | .waiting ret =>
      if !s.managed then .panic nilDereference
      else if s.sessionWG = 0 then ok { s with run := .returned ret, doneClosed := true }
      else .diverge
    | _ => .diverge
  | .close => if s.killed then .panic "close of closed channel" else ok { s with killed := true }
  | .closeDone => if s.killed && s.doneClosed then ok { s with closeReturned := true } else .diverge
  | .start k succeeded =>
    match s.sessions[k]? with
    | some .starting => if succeeded then ok (s.setSession k .working) else s.sessionDone k false
    | _ => .diverge
  | .finish k =>
    match s.sessions[k]? with
    | some .working => s.sessionDone k true
    | _ => .diverge

/-- Every interleaving of the goroutines' steps from `s₀`. -/
def Reachable (s₀ s : Server) : Prop := Reach step (fun _ _ => True) s₀ s

/-- The error `Run` returns when `net.Listen` fails with `e`. -/
def listenError (e : GoError) : WrappedError := ⟨"cannot start listening in proxy: %s", some e⟩

/-! ## What one step does -/

@[simp] theorem setSession_sessions (s : Server) (k : Nat) (p : SessionPc) :
    (s.setSession k p).sessions = s.sessions.set k p := rfl

theorem live_pos {k : Nat} {p : SessionPc} (hk : s.sessions[k]? = some p) (hp : p.live = true) :
    0 < s.live :=
  List.countP_pos_iff.mpr ⟨p, List.mem_of_getElem? hk, hp⟩

theorem live_setSession {k : Nat} {p q : SessionPc} (hk : s.sessions[k]? = some p)
    (hp : p.live = true) : (s.setSession k q).live = s.live - 1 + if q.live then 1 else 0 := by
  obtain ⟨hlt, hget⟩ := List.getElem?_eq_some_iff.mp hk
  rw [live, setSession_sessions, List.countP_set hlt, hget, if_pos hp]
  rfl

theorem sessionDone_eq_ok {k : Nat} {hadWorker : Bool} (h : s.sessionDone k hadWorker = ok s') :
    (hadWorker = true → s.factory.closePanics = false) ∧
      (s.factory.contextual = true → s.managed = true ∧ s.sessionWG ≠ 0) ∧
      s' = { s.setSession k .ended with
        sessionWG := if s.factory.contextual then s.sessionWG - 1 else s.sessionWG } := by
  unfold sessionDone at h
  by_cases hp : (hadWorker && s.factory.closePanics) = true
  · rw [if_pos hp] at h
    cases h
  rw [if_neg hp] at h
  have hclose : hadWorker = true → s.factory.closePanics = false := by
    intro hw
    simpa [hw] using hp
  cases hc : s.factory.contextual with
  | false =>
    simp only [setSession, hc] at h
    cases h
    exact ⟨hclose, fun h => (by cases h), rfl⟩
  | true =>
    cases hm : s.managed <;> by_cases hz : s.sessionWG = 0 <;>
      simp [setSession, hc, hm, hz] at h
    cases h
    exact ⟨hclose, fun _ => ⟨rfl, hz⟩, by simp [setSession, hm]⟩

theorem sessionDone_eq_panic {k : Nat} {hadWorker : Bool} {msg : String}
    (h : s.sessionDone k hadWorker = .panic msg) :
    s.factory.closePanics = true ∨ s.managed = false ∨
      (s.factory.contextual = true ∧ s.sessionWG = 0) := by
  unfold sessionDone at h
  by_cases hp : (hadWorker && s.factory.closePanics) = true
  · simp only [Bool.and_eq_true] at hp
    exact .inl hp.2
  rw [if_neg hp] at h
  cases hc : s.factory.contextual with
  | false =>
    simp [setSession, hc] at h
  | true =>
    cases hm : s.managed
    · exact .inr (.inl rfl)
    · by_cases hz : s.sessionWG = 0
      · exact .inr (.inr ⟨rfl, hz⟩)
      · simp [setSession, hc, hm, hz] at h

/-! The steps, one event at a time: what each requires and what it leaves. -/

theorem step_listen {err : Option GoError} (h : s.step (.listen err) = ok s') :
    s.run = .idle ∧ ((∃ e, err = some e ∧ s' = { s with run := .returned (some (listenError e)) }) ∨
      (err = none ∧ s' = { s with run := .accepting none })) := by
  rw [step] at h
  split at h
  · next hrun =>
    refine ⟨hrun, ?_⟩
    cases err with
    | none =>
      cases h
      exact .inr ⟨rfl, rfl⟩
    | some e =>
      cases h
      exact .inl ⟨e, rfl, rfl⟩
  · cases h

theorem step_accept (h : s.step .accept = ok s') :
    (∃ err, s.run = .accepting err) ∧ (s.factory.contextual = true → s.managed = true) ∧
      s' = { s with
        sessions := s.sessions ++ [.starting]
        sessionWG := if s.factory.contextual then s.sessionWG + 1 else s.sessionWG } := by
  rw [step] at h
  split at h
  · next err hrun =>
    refine ⟨⟨err, hrun⟩, ?_⟩
    cases hc : s.factory.contextual <;> cases hm : s.managed <;> simp [hc, hm] at h
    all_goals
      cases h
      simp
  · cases h

theorem step_acceptError {e : GoError} (h : s.step (.acceptError e) = ok s') :
    ∃ err, s.run = .accepting err ∧
      s' = { s with run := .waiting (some ⟨"could not accept in proxy: %s", err⟩) } := by
  rw [step] at h
  split at h
  · next err hrun =>
    cases h
    exact ⟨err, hrun, rfl⟩
  · cases h

theorem step_stop (h : s.step .stop = ok s') :
    (∃ err, s.run = .accepting err) ∧ s.killed = true ∧ s.managed = true ∧
      s' = { s with stopped := true, run := .waiting none } := by
  rw [step] at h
  split at h
  · next err hrun =>
    cases hk : s.killed <;> cases hm : s.managed <;> simp [hk, hm] at h
    cases h
    exact ⟨⟨err, hrun⟩, rfl, rfl, rfl⟩
  · cases h

theorem step_wait (h : s.step .wait = ok s') :
    ∃ ret, s.run = .waiting ret ∧ s.managed = true ∧ s.sessionWG = 0 ∧
      s' = { s with run := .returned ret, doneClosed := true } := by
  rw [step] at h
  split at h
  · next ret hrun =>
    cases hm : s.managed <;> by_cases hz : s.sessionWG = 0 <;> simp [hm, hz] at h
    cases h
    exact ⟨ret, hrun, rfl, hz, by rw [hz]⟩
  · cases h

theorem step_close (h : s.step .close = ok s') : s.killed = false ∧ s' = { s with killed := true } := by
  rw [step] at h
  cases hk : s.killed <;> simp [hk] at h
  exact ⟨rfl, h.symm⟩

theorem step_closeDone (h : s.step .closeDone = ok s') :
    s.killed = true ∧ s.doneClosed = true ∧ s' = { s with closeReturned := true } := by
  rw [step] at h
  cases hk : s.killed <;> cases hd : s.doneClosed <;> simp [hk, hd] at h
  exact ⟨rfl, rfl, h.symm⟩

theorem step_start {k : Nat} {b : Bool} (h : s.step (.start k b) = ok s') :
    s.sessions[k]? = some .starting ∧
      ((b = true ∧ s' = s.setSession k .working) ∨ (b = false ∧ s.sessionDone k false = ok s')) := by
  rw [step] at h
  split at h
  · next hk =>
    refine ⟨hk, ?_⟩
    cases b with
    | true =>
      cases h
      exact .inl ⟨rfl, rfl⟩
    | false => exact .inr ⟨rfl, h⟩
  · cases h

theorem step_finish {k : Nat} (h : s.step (.finish k) = ok s') :
    s.sessions[k]? = some .working ∧ s.sessionDone k true = ok s' := by
  rw [step] at h
  split at h
  · next hk => exact ⟨hk, h⟩
  · cases h

/-! ## The invariant -/

/-- What `Run` may return after it started listening: nil once `killChan` is closed, or the
error of a failed accept, which formats the nil error of `Listen`. -/
def RunOk (s : Server) (r : Option WrappedError) : Prop :=
  (r = none ∧ s.killed = true) ∨ r = some ⟨"could not accept in proxy: %s", none⟩

theorem RunOk.of_killed {r : Option WrappedError} (h : RunOk s r)
    (hk : s.killed = true → s'.killed = true) : RunOk s' r := by
  rcases h with ⟨hr, hkill⟩ | hr
  · exact .inl ⟨hr, hk hkill⟩
  · exact .inr hr

/-- What holds in every state a server built with factory `f`, with a `sessionManager` iff
`m`, reaches. -/
structure Inv (f : WorkerFactory) (m : Bool) (s : Server) : Prop where
  factory_eq : s.factory = f
  managed_eq : s.managed = m
  /-- The wait group counts the live sessions of a contextual factory. -/
  wg_eq : s.sessionWG = if f.contextual then s.live else 0
  accepting_nil : ∀ err, s.run = .accepting err → err = none
  waiting_ret : ∀ r, s.run = .waiting r → RunOk s r
  /-- `Run` returned through its deferred wait, which closed `doneChan`, or because `Listen`
  failed, which leaves `doneChan` open. -/
  returned_ret : ∀ r, s.run = .returned r →
    (RunOk s r ∧ s.doneClosed = true) ∨ ∃ e, r = some (listenError e) ∧ s.doneClosed = false
  done_managed : s.doneClosed = true → m = true
  done_wg : s.doneClosed = true → s.sessionWG = 0
  done_returned : s.doneClosed = true → ∃ r, s.run = .returned r
  closeReturned_done : s.closeReturned = true → s.doneClosed = true

theorem Inv.init : Inv f m (init f m) where
  factory_eq := rfl
  managed_eq := rfl
  wg_eq := by cases f.contextual <;> rfl
  accepting_nil _ h := by cases h
  waiting_ret _ h := by cases h
  returned_ret _ h := by cases h
  done_managed h := by cases h
  done_wg h := by cases h
  done_returned h := by cases h
  closeReturned_done h := by cases h

theorem Inv.doneClosed_eq_false (hi : Inv f m s) (hrun : ∀ r, s.run ≠ .returned r) :
    s.doneClosed = false := by
  cases hd : s.doneClosed
  · rfl
  · obtain ⟨r, hr⟩ := hi.done_returned hd
    exact absurd hr (hrun r)

theorem Inv.closeReturned_eq_false (hi : Inv f m s) (hd : s.doneClosed = false) :
    s.closeReturned = false := by
  cases hc : s.closeReturned
  · rfl
  · rw [hi.closeReturned_done hc] at hd
    cases hd

theorem Inv.setRun (hi : Inv f m s) (hfresh : ∀ r, s.run ≠ .returned r) {p : RunPc}
    (hacc : ∀ err, p = .accepting err → err = none) (hwait : ∀ r, p = .waiting r → RunOk s r)
    (hret : ∀ r, p = .returned r → ∃ e, r = some (listenError e)) : Inv f m { s with run := p } := by
  have hd := hi.doneClosed_eq_false hfresh
  have hc := hi.closeReturned_eq_false hd
  refine ⟨hi.factory_eq, hi.managed_eq, hi.wg_eq, hacc, hwait, fun r hr => ?_, ?_, ?_, ?_, ?_⟩
  · obtain ⟨e, he⟩ := hret r hr
    exact .inr ⟨e, he, hd⟩
  all_goals
    intro h
    simp [hd, hc] at h

theorem Inv.setSession_live (hi : Inv f m s) {k : Nat} {p q : SessionPc}
    (hk : s.sessions[k]? = some p) (hp : p.live = true) (hq : q.live = true) :
    Inv f m (s.setSession k q) := by
  have hlive : (s.setSession k q).live = s.live := by
    rw [live_setSession hk hp, if_pos hq]
    have := live_pos hk hp
    omega
  exact ⟨hi.factory_eq, hi.managed_eq, hlive ▸ hi.wg_eq, hi.accepting_nil, hi.waiting_ret,
    hi.returned_ret, hi.done_managed, hi.done_wg, hi.done_returned, hi.closeReturned_done⟩

theorem Inv.sessionDone (hi : Inv f m s) {k : Nat} {p : SessionPc} {hadWorker : Bool}
    (hk : s.sessions[k]? = some p) (hp : p.live = true) (h : s.sessionDone k hadWorker = ok s') :
    Inv f m s' := by
  obtain ⟨-, -, rfl⟩ := sessionDone_eq_ok h
  have hlive (w : Nat) : ({ s.setSession k .ended with sessionWG := w } : Server).live =
      s.live - 1 := by
    show (s.setSession k .ended).live = _
    rw [live_setSession hk hp]
    rfl
  refine ⟨hi.factory_eq, hi.managed_eq, ?_, hi.accepting_nil, hi.waiting_ret, hi.returned_ret,
    hi.done_managed, fun hd => ?_, hi.done_returned, hi.closeReturned_done⟩
  · -- the counter and the count of live sessions both go down by one
    have hwg := hi.wg_eq
    rw [hlive, hi.factory_eq]
    cases hc : f.contextual <;> simp only [hc] at hwg <;> simp [hwg]
  · have hz := hi.done_wg hd
    dsimp only
    rw [hz]
    split <;> rfl

/-- **Every step keeps the invariant.** -/
theorem Inv.step (hi : Inv f m s) {l : Event} (h : s.step l = ok s') : Inv f m s' := by
  cases l with
  | listen err =>
    obtain ⟨hrun, ⟨e, -, rfl⟩ | ⟨-, rfl⟩⟩ := step_listen h
    · exact hi.setRun (by simp [hrun]) (by simp) (by simp) (fun r hr => by cases hr; exact ⟨e, rfl⟩)
    · exact hi.setRun (by simp [hrun]) (fun err h => by cases h; rfl) (by simp) (by simp)
  | accept =>
    obtain ⟨⟨err, hrun⟩, -, rfl⟩ := step_accept h
    have hd := hi.doneClosed_eq_false (by simp [hrun])
    have hc := hi.closeReturned_eq_false hd
    refine ⟨hi.factory_eq, hi.managed_eq, ?_, hi.accepting_nil, hi.waiting_ret,
      fun r hr => by simp [hrun] at hr, ?_, ?_, ?_, ?_⟩
    · -- one more live session, counted when the factory is contextual
      have hwg := hi.wg_eq
      rw [hi.factory_eq]
      cases hc : f.contextual
      · simpa [hc] using hwg
      · simp only [hc] at hwg
        simp [live, hwg, SessionPc.live]
    all_goals
      intro h
      simp [hd, hc] at h
  | acceptError e =>
    obtain ⟨err, hrun, rfl⟩ := step_acceptError h
    have hnil := hi.accepting_nil err hrun
    refine hi.setRun (by simp [hrun]) (by simp) (fun r hr => ?_) (by simp)
    cases hr
    exact .inr (by rw [hnil])
  | stop =>
    obtain ⟨⟨err, hrun⟩, hk, -, rfl⟩ := step_stop h
    have hstop : Inv f m { s with stopped := true } := by
      exact ⟨hi.factory_eq, hi.managed_eq, hi.wg_eq, hi.accepting_nil, hi.waiting_ret,
        hi.returned_ret, hi.done_managed, hi.done_wg, hi.done_returned, hi.closeReturned_done⟩
    exact hstop.setRun (by simp [hrun]) (by simp) (fun r hr => by cases hr; exact .inl ⟨rfl, hk⟩)
      (by simp)
  | wait =>
    obtain ⟨ret, hrun, hm, hz, rfl⟩ := step_wait h
    have hret := hi.waiting_ret ret hrun
    refine ⟨hi.factory_eq, hi.managed_eq, hi.wg_eq, by simp, by simp, fun r hr => ?_,
      fun _ => hi.managed_eq ▸ hm, fun _ => hz, fun _ => ⟨ret, rfl⟩, fun _ => rfl⟩
    cases hr
    exact .inl ⟨hret, rfl⟩
  | close =>
    obtain ⟨-, rfl⟩ := step_close h
    refine ⟨hi.factory_eq, hi.managed_eq, hi.wg_eq, hi.accepting_nil,
      fun r hr => (hi.waiting_ret r hr).of_killed fun _ => rfl, fun r hr => ?_, hi.done_managed,
      hi.done_wg, hi.done_returned, hi.closeReturned_done⟩
    rcases hi.returned_ret r hr with ⟨hok, hd⟩ | hlisten
    · exact .inl ⟨hok.of_killed fun _ => rfl, hd⟩
    · exact .inr hlisten
  | closeDone =>
    obtain ⟨-, hd, rfl⟩ := step_closeDone h
    exact ⟨hi.factory_eq, hi.managed_eq, hi.wg_eq, hi.accepting_nil, hi.waiting_ret,
      hi.returned_ret, hi.done_managed, hi.done_wg, hi.done_returned, fun _ => hd⟩
  | start k b =>
    obtain ⟨hk, ⟨-, rfl⟩ | ⟨-, hdone⟩⟩ := step_start h
    · exact hi.setSession_live hk rfl rfl
    · exact hi.sessionDone hk rfl hdone
  | finish k =>
    obtain ⟨hk, hdone⟩ := step_finish h
    exact hi.sessionDone hk rfl hdone

theorem Reachable.inv {s₀ s : Server} (hi : Inv f m s₀) (h : Reachable s₀ s) : Inv f m s :=
  Reach.inv (Inv f m) hi (fun _ _ _ hs _ hstep => hs.step hstep) h

/-! ## Panics -/

theorem sessionDone_panic_cases {k : Nat} {p : SessionPc} {hadWorker : Bool} {msg : String}
    (hk : s.sessions[k]? = some p) (hp : p.live = true)
    (h : s.sessionDone k hadWorker = .panic msg) :
    s.managed = false ∨ s.factory.closePanics = true ∨
      (s.factory.contextual = true ∧ s.sessionWG = 0 ∧ 0 < s.live) := by
  rcases sessionDone_eq_panic h with hc | hm | ⟨hc, hz⟩
  · exact .inr (.inl hc)
  · exact .inl hm
  · exact .inr (.inr ⟨hc, hz, live_pos hk hp⟩)

theorem step_eq_panic {l : Event} {msg : String} (h : s.step l = .panic msg) :
    (l = .close ∧ s.killed = true) ∨ s.managed = false ∨ s.factory.closePanics = true ∨
      (s.factory.contextual = true ∧ s.sessionWG = 0 ∧ 0 < s.live) := by
  cases l with
  | listen err =>
    rw [step] at h
    split at h
    · split at h <;> cases h
    · cases h
  | accept =>
    rw [step] at h
    split at h
    · cases hc : s.factory.contextual <;> cases hm : s.managed <;> simp [hc, hm] at h
      exact .inr (.inl rfl)
    · cases h
  | acceptError e =>
    rw [step] at h
    split at h <;> cases h
  | stop =>
    rw [step] at h
    split at h
    · cases hk : s.killed <;> cases hm : s.managed <;> simp [hk, hm] at h
      exact .inr (.inl rfl)
    · cases h
  | wait =>
    rw [step] at h
    split at h
    · cases hm : s.managed <;> by_cases hz : s.sessionWG = 0 <;> simp [hm, hz] at h <;>
        exact .inr (.inl rfl)
    · cases h
  | close =>
    rw [step] at h
    cases hk : s.killed <;> simp [hk] at h
    exact .inl ⟨rfl, rfl⟩
  | closeDone =>
    rw [step] at h
    split at h <;> cases h
  | start k b =>
    rw [step] at h
    split at h
    · next hk =>
      cases b
      · rw [if_neg Bool.false_ne_true] at h
        exact .inr (sessionDone_panic_cases hk rfl h)
      · cases h
    · cases h
  | finish k =>
    rw [step] at h
    split at h
    · next hk => exact .inr (sessionDone_panic_cases hk rfl h)
    · cases h

/-! ## Shutting down -/

/-- **Shutting down a server of `NewServer`.**  Whatever the interleaving, and whatever the
network and the workers do, the wait group counts exactly the sessions of a contextual factory
that have not returned, so that no `Done` takes it below zero; when `Close` returns, every
session of a contextual factory has returned, including those `Run` started after `killChan` was
closed; and, when the workers' `Close` does not panic, the only panic is a second `Close`. -/
theorem newServer_shutdown {f : WorkerFactory} (hf : f.closePanics = false) {s : Server}
    (h : Reachable (new f) s) :
    s.sessionWG = (if f.contextual then s.live else 0) ∧
      (s.closeReturned = true → f.contextual = true → ∀ p ∈ s.sessions, p = .ended) ∧
      ∀ l msg, s.step l = .panic msg → l = .close ∧ s.killed = true := by
  have hi : Inv f true s := h.inv Inv.init
  refine ⟨hi.wg_eq, fun hc hctx p hp => ?_, fun l msg hl => ?_⟩
  · -- `Close` returned after `doneChan` was closed, on an empty wait group
    have hz := hi.done_wg (hi.closeReturned_done hc)
    have hwg := hi.wg_eq
    rw [hctx, if_pos rfl, hz] at hwg
    have hdead := List.countP_eq_zero.mp hwg.symm p hp
    cases p <;> simp [SessionPc.live] at hdead ⊢
  · rcases step_eq_panic hl with hclose | hm | hp | ⟨hc, hz, hpos⟩
    · exact hclose
    · rw [hi.managed_eq] at hm
      cases hm
    · rw [hi.factory_eq, hf] at hp
      cases hp
    · have hwg := hi.wg_eq
      rw [hi.factory_eq] at hc
      rw [hc, if_pos rfl] at hwg
      omega

/-- A contextual server whose `Run` serves a connection after `Close` has closed `killChan`, and
waits for it. -/
theorem newServer_shutdown_late_session :
    let s : Server := ⟨⟨true, false⟩, true, .returned none, true, true, 0, [.ended, .ended], true,
      true⟩
    s.sessionWG = (if true then s.live else 0) ∧
      (s.closeReturned = true → true = true → ∀ p ∈ s.sessions, p = .ended) ∧
      ∀ l msg, s.step l = .panic msg → l = .close ∧ s.killed = true := by
  intro s
  exact newServer_shutdown (f := ⟨true, false⟩) rfl (reach_of_runAdm [.listen none, .accept, .start 0 true, .close,
    .accept, .stop, .finish 0, .start 1 false, .wait, .closeDone] .init rfl)

/-- **What `Run` returns.**  For any server, once `Run` has returned (or is in its deferred
function), it returned nil only after `killChan` was closed, the error of a failed `Listen`, or,
for a failed accept, `NewStackErrorf("could not accept in proxy: %s", err)` with `err` the nil
error of `Listen`: the accept's own error is never reported. -/
theorem run_result {f : WorkerFactory} {m : Bool} {s : Server} (h : Reachable (init f m) s)
    {r : Option WrappedError} (hr : s.run = .waiting r ∨ s.run = .returned r) :
    (r = none ∧ s.killed = true) ∨ r = some ⟨"could not accept in proxy: %s", none⟩ ∨
      ∃ e, r = some (listenError e) := by
  have hi : Inv f m s := h.inv Inv.init
  rcases hr with hr | hr
  · rcases hi.waiting_ret r hr with hnil | hacc
    · exact .inl hnil
    · exact .inr (.inl hacc)
  · rcases hi.returned_ret r hr with ⟨hnil | hacc, -⟩ | ⟨e, he, -⟩
    · exact .inl hnil
    · exact .inr (.inl hacc)
    · exact .inr (.inr ⟨e, he⟩)

/-- An accept that fails with `EMFILE` (`io 24`): `Run` returns with a nil argument. -/
theorem run_result_accept_failure :
    let s : Server := ⟨⟨false, false⟩, true,
      .returned (some ⟨"could not accept in proxy: %s", none⟩), false, false, 0, [], true, false⟩
    (some ⟨"could not accept in proxy: %s", none⟩ = (none : Option WrappedError) ∧
        s.killed = true) ∨
      some ⟨"could not accept in proxy: %s", none⟩ =
        (some ⟨"could not accept in proxy: %s", none⟩ : Option WrappedError) ∨
      ∃ e, some ⟨"could not accept in proxy: %s", none⟩ = some (listenError e) := by
  intro s
  exact run_result (f := ⟨false, false⟩) (m := true)
    (reach_of_runAdm [.listen none, .acceptError (.io 24), .wait] .init rfl) (.inr rfl)

/-- Once `Run` has returned, no step moves it; with `doneChan` open, no step closes it or lets
`Close` return.  Every step that needs `Run` elsewhere is blocked, and the sessions' steps and
`close(killChan)` touch neither. -/
theorem step_of_returned {r : Option WrappedError} (hrun : s.run = .returned r)
    (hd : s.doneClosed = false) {l : Event} (hstep : s.step l = ok s') :
    s'.run = s.run ∧ s'.doneClosed = false ∧ s'.closeReturned = s.closeReturned := by
  cases l with
  | listen err =>
    obtain ⟨hidle, -⟩ := step_listen hstep
    rw [hrun] at hidle
    cases hidle
  | accept =>
    obtain ⟨⟨err, hacc⟩, -⟩ := step_accept hstep
    rw [hrun] at hacc
    cases hacc
  | acceptError e =>
    obtain ⟨err, hacc, -⟩ := step_acceptError hstep
    rw [hrun] at hacc
    cases hacc
  | stop =>
    obtain ⟨⟨err, hacc⟩, -⟩ := step_stop hstep
    rw [hrun] at hacc
    cases hacc
  | wait =>
    obtain ⟨ret, hw, -⟩ := step_wait hstep
    rw [hrun] at hw
    cases hw
  | close =>
    obtain ⟨-, rfl⟩ := step_close hstep
    exact ⟨rfl, hd, rfl⟩
  | closeDone =>
    obtain ⟨-, hd', -⟩ := step_closeDone hstep
    rw [hd] at hd'
    cases hd'
  | start k b =>
    obtain ⟨-, ⟨-, rfl⟩ | ⟨-, hdone⟩⟩ := step_start hstep
    · exact ⟨rfl, hd, rfl⟩
    · obtain ⟨-, -, rfl⟩ := sessionDone_eq_ok hdone
      exact ⟨rfl, hd, rfl⟩
  | finish k =>
    obtain ⟨-, hdone⟩ := step_finish hstep
    obtain ⟨-, -, rfl⟩ := sessionDone_eq_ok hdone
    exact ⟨rfl, hd, rfl⟩

/-- **`Close` after a failed `Listen` never returns.**  `Run` returned before it deferred the
function that closes `doneChan`; from then on, whatever the other goroutines do, `Run` stays
returned, `doneChan` stays open, and `<-s.doneChan` in `Close` never receives. -/
theorem close_blocks_after_listen_failure {f : WorkerFactory} {m : Bool} {s s' : Server}
    {e : GoError} (h : Reachable (init f m) s) (hl : s.run = .returned (some (listenError e)))
    (h' : Reachable s s') :
    s'.run = s.run ∧ s'.doneClosed = false ∧ s'.closeReturned = false := by
  have hi : Inv f m s := h.inv Inv.init
  have hd : s.doneClosed = false := by
    rcases hi.returned_ret _ hl with ⟨hnil | hacc, -⟩ | ⟨e', -, hd⟩
    · cases hnil.1
    · simp [listenError] at hacc
    · exact hd
  have hc := hi.closeReturned_eq_false hd
  -- from `s` on, no step moves `Run`, and only `Run`'s deferred wait closes `doneChan`
  refine Reach.inv (fun t => t.run = s.run ∧ t.doneClosed = false ∧ t.closeReturned = false)
    ⟨rfl, hd, hc⟩ (fun t l t' ht _ hstep => ?_) h'
  obtain ⟨hrun, htd, htc⟩ := ht
  obtain ⟨hrun', htd', htc'⟩ := step_of_returned (hrun.trans hl) htd hstep
  exact ⟨hrun'.trans hrun, htd', htc'.trans htc⟩

/-- `Listen` fails with `EADDRINUSE` (`io 98`), and `Close` is called. -/
theorem close_blocks_after_listen_failure_addrInUse :
    let s : Server := ⟨⟨false, false⟩, true, .returned (some (listenError (.io 98))), false, false,
      0, [], false, false⟩
    let s' : Server := { s with killed := true }
    s'.run = s.run ∧ s'.doneClosed = false ∧ s'.closeReturned = false := by
  intro s s'
  exact close_blocks_after_listen_failure (f := ⟨false, false⟩) (m := true)
    (reach_of_runAdm [.listen (some (.io 98))] .init rfl) rfl (reach_of_runAdm [.close] .init rfl)

end Server

namespace Proxy

/-- `Proxy` as the worker factory of its server: it has no `CreateWorkerWithContext`, and the
`ProxySession` of `CreateWorker` gets an interceptor from the config's `InterceptorFactory`;
without one, its `Close` (`ps.interceptor.Close()`) calls a method of a nil interface. -/
def workerFactory (hasInterceptorFactory : Bool) : WorkerFactory := ⟨false, !hasInterceptorFactory⟩

/-- `Proxy.InitializeServer()`: a `Server` whose `sessionManager` is nil. -/
def initializeServer (hasInterceptorFactory : Bool) : Server :=
  Server.init (workerFactory hasInterceptorFactory) false

end Proxy

/-- **The proxy's server cannot shut down.**  Its `sessionManager` is nil, so that both ways out
of `Run`'s loop dereference it (`stopSessions()` after `Close`, the deferred
`sessionWG.Wait()` after a failed accept): `doneChan` is never closed, `Close` never returns,
and `Run` returns only when `Listen` fails.  Without an interceptor factory, moreover, every
session whose loop returns panics in `ProxySession.Close`. -/
theorem proxy_server_lifecycle {hasInterceptorFactory : Bool} {s : Server}
    (h : Server.Reachable (Proxy.initializeServer hasInterceptorFactory) s) :
    s.doneClosed = false ∧ s.closeReturned = false ∧
      (∀ r, s.run = .returned r → ∃ e, r = some (Server.listenError e)) ∧
      (hasInterceptorFactory = false → ∀ k, s.sessions[k]? = some .working →
        s.step (.finish k) = .panic nilDereference) := by
  have hi : Server.Inv (Proxy.workerFactory hasInterceptorFactory) false s := h.inv .init
  have hd : s.doneClosed = false := by
    cases hd : s.doneClosed
    · rfl
    · exact absurd (hi.done_managed hd) Bool.false_ne_true
  refine ⟨hd, hi.closeReturned_eq_false hd, fun r hr => ?_, fun hIF k hk => ?_⟩
  · rcases hi.returned_ret r hr with ⟨-, hd'⟩ | ⟨e, he, -⟩
    · rw [hd] at hd'
      cases hd'
    · exact ⟨e, he⟩
  · -- the session's deferred function reaches `worker.Close()`
    rw [Server.step, hk]
    dsimp only
    rw [Server.sessionDone, hi.factory_eq, hIF]
    rfl

/-- The straight proxy (no interceptor factory): a client connects and its session starts. -/
theorem proxy_server_lifecycle_straight :
    let s : Server := ⟨Proxy.workerFactory false, false, .accepting none, false, false, 0,
      [.working], false, false⟩
    s.doneClosed = false ∧ s.closeReturned = false ∧
      (∀ r, s.run = .returned r → ∃ e, r = some (Server.listenError e)) ∧
      (false = false → ∀ k, s.sessions[k]? = some .working →
        s.step (.finish k) = .panic nilDereference) := by
  intro s
  exact proxy_server_lifecycle (reach_of_runAdm [.listen none, .accept, .start 0 true] .init rfl)

end Mongonet
