import Mongonet.Proxy.Lifecycle

/-!
# Mongonet.Proxy.CrossTalk — whose replies a client receives

With no interceptor, `doLoop` forwards a client's request on a pooled connection and reads
mongod's replies from it: one, or an exhaust cursor's stream up to the reply whose `CursorId`
is 0, or none when `HasResponse()` is false.  It then gives the connection back.  If replies
are still unread on it then, the next session that `Get`s it reads another session's replies.

Two environments are compared.  `ProtocolAdmissible` is mongod as the wire protocol has it,
which may answer an OP_MSG carrying `exhaustAllowed` with a stream of `moreToCome` replies; the
proxy reads one of them and pools the connection, and a later session receives the rest
(`cross_talk_opMsg_exhaust`).  In it, too, a write to the client that fails inside an exhaust
stream makes `doLoop` return without marking the connection bad, so that the deferred `Close`
pools it with the rest of the stream unread (`cross_talk_client_write_failure`).  `Admissible` is
the environment the code is written for: mongod answers as `proxyAnswers` says, and no client
write fails in exhaust mode.  In it every client receives exactly the replies to its own
requests, in order (`no_cross_talk`).

The invariant (`Clean`), beside `World.Inv` of `Mongonet.Proxy.Lifecycle`: what mongod has sent
on a connection and nobody read is the rest of the answer to the request of the session reading
it, or lies on a bad connection, which is never used again.
-/

namespace Mongonet.Proxy

open Go Result

/-! ## What mongod answers -/

/-- A stream of OP_REPLYs that ends with the first whose `CursorId` is 0. -/
def cursorStream : List Message → Bool
  | [] => false
  | .reply r :: rest => if r.cursorId = 0 then rest.isEmpty else cursorStream rest
  | _ :: _ => false

theorem cursorStream_cons {m : Message} {ms : List Message} (h : cursorStream (m :: ms) = true) :
    ∃ r, m = .reply r ∧ (r.cursorId = 0 → ms = []) ∧ (r.cursorId ≠ 0 → cursorStream ms = true) := by
  cases m with
  | reply r =>
    refine ⟨r, rfl, fun h0 => ?_, fun h0 => ?_⟩
    · simpa [cursorStream, h0] using h
    · simpa [cursorStream, h0] using h
  | _ => simp [cursorStream] at h

/-- A stream of OP_MSGs flagged `moreToCome` (bit 1), but for the last. -/
def moreToComeStream : List Message → Bool
  | [] => false
  | .msg m :: rest =>
    if m.flagBits &&& ((1 : Int32) <<< 1) = 0 then rest.isEmpty else moreToComeStream rest
  | _ :: _ => false

/-- The replies the wire protocol lets mongod send to `m`: none to the unacknowledged writes and
OP_KILL_CURSORS, an exhaust stream to an OP_QUERY with the exhaust flag (bit 6), possibly a
`moreToCome` stream to an OP_MSG with `exhaustAllowed` (bit 16), exactly one otherwise. -/
def protocolAnswers (m : Message) (replies : List Message) : Bool :=
  match m with
  | .insert _ | .update _ | .delete _ | .killCursors _ => replies.isEmpty
  | .query q =>
    if q.flags &&& ((1 : Int32) <<< 6) ≠ 0 then cursorStream replies else replies.length == 1
  | .msg mm =>
    if mm.flagBits &&& ((1 : Int32) <<< 16) ≠ 0 then moreToComeStream replies
    else replies.length == 1
  | _ => replies.length == 1

/-- The replies `doLoop` is written for: none when `HasResponse()` is false, an exhaust stream
in `inExhaustMode`, exactly one otherwise. -/
def proxyAnswers (m : Message) (replies : List Message) : Bool :=
  if !m.hasResponse then replies.isEmpty
  else
    match World.inExhaustMode m with
    | .ok true => cursorStream replies
    | _ => replies.length == 1

/-- Mongod as the wire protocol has it: it answers as `protocolAnswers`; sockets fail at will. -/
def ProtocolAdmissible (_ : World) : Nat × Event → Bool
  | (_, .request m _ _ _ replies) => protocolAnswers m replies
  | _ => true

/-- The environment `doLoop` is written for: mongod answers as `proxyAnswers`, and no write to a
client fails in exhaust mode. -/
def Admissible (w : World) : Nat × Event → Bool
  | (_, .clientGone) => true
  | (_, .request m _ _ _ replies) => proxyAnswers m replies
  | (k, .response _ _ writeOk) =>
    match (w.sessions k).pc with
    | .reading _ true _ => writeOk
    | _ => true

/-! ## The invariant -/

/-- The replies unread on the connection a session is reading: the answer to its last request,
an exhaust stream or a single reply. -/
def Awaited (k : Nat) (ps : ProxySession) (exhaust : Bool) (pending : List Answer) : Prop :=
  (∀ a ∈ pending, a.session = k ∧ a.request + 1 = ps.requests) ∧
    if exhaust then cursorStream (pending.map (·.msg)) = true else pending.length = 1

/-- Session `k`'s client was sent the replies to its own requests, as mongod sent them, in the
order of the requests. -/
def Delivered (k : Nat) (ps : ProxySession) : Prop :=
  ∃ answers : List Answer, ps.clientOut = answers.map (fun a => .reply a a.msg) ∧
    (∀ a ∈ answers, a.session = k ∧ a.request < ps.requests) ∧
    answers.Pairwise (fun a b => a.request ≤ b.request)

/-- No session has an interceptor; held connections are good; unread replies lie on a bad
connection or on one a session is reading, and answer its last request; clients got their own. -/
structure World.Clean (w : World) : Prop where
  noInterceptor : ∀ j, (w.sessions j).interceptor = false
  good : ∀ j d, w.holds j = some d → (w.cp.conns d).bad = false
  quiet : ∀ d, (w.cp.conns d).pending ≠ [] →
    (w.cp.conns d).bad = true ∨ ∃ j ex, (w.sessions j).pc = .reading d ex false
  reading : ∀ j d ex r, (w.sessions j).pc = .reading d ex r →
    r = false ∧ Awaited j (w.sessions j) ex (w.cp.conns d).pending
  delivered : ∀ j, Delivered j (w.sessions j)

/-! ## Facts of the two invariants -/

section Facts

variable {w : World} {j k d : Nat}

theorem holds_of_reading {ex r : Bool} (h : (w.sessions j).pc = .reading d ex r) :
    w.holds j = some d := by
  simp [World.holds, ProxySession.holding, h]

theorem World.Inv.holds_unique (h : w.Inv) (hj : w.holds j = some d) (hk : w.holds k = some d) :
    j = k :=
  ((h.place d (h.lt_of_hold hj)).eq_held hk).1 j hj

theorem World.Inv.pooled (h : w.Inv) (hd : d ∈ w.cp.pool) :
    (∀ j, w.holds j ≠ some d) ∧ (w.cp.conns d).bad = false := by
  cases h.place d (h.lt_of_mem hd) with
  | held _ _ _ hp => exact absurd hd hp
  | pooled hfree _ _ hgood => exact ⟨hfree, hgood⟩
  | discarded _ hp => exact absurd hd hp

theorem World.Clean.pending_eq_nil (hc : w.Clean) (hbad : (w.cp.conns d).bad = false)
    (hfree : ∀ j ex, (w.sessions j).pc ≠ .reading d ex false) : (w.cp.conns d).pending = [] := by
  by_contra hne
  rcases hc.quiet d hne with hb | ⟨j, ex, hj⟩
  · rw [hbad] at hb
    cases hb
  · exact hfree j ex hj

theorem World.Clean.pending_pinned (hc : w.Clean) (hi : w.Inv) (hloop : (w.sessions k).pc = .loop)
    (hp : (w.sessions k).pooledConn = some d) : (w.cp.conns d).pending = [] := by
  have hk : w.holds k = some d := by simp [World.holds, ProxySession.holding, hloop, hp]
  refine hc.pending_eq_nil (hc.good k d hk) fun j ex hj => ?_
  have hjk : j = k := hi.holds_unique (holds_of_reading hj) hk
  subst hjk
  simp [hloop] at hj

theorem World.Clean.pending_pooled (hc : w.Clean) (hi : w.Inv) (hd : d ∈ w.cp.pool) :
    (w.cp.conns d).pending = [] := by
  obtain ⟨hfree, hgood⟩ := hi.pooled hd
  exact hc.pending_eq_nil hgood fun j ex hj => hfree j (holds_of_reading hj)

theorem Delivered.mono {ps ps' : ProxySession} (h : Delivered k ps) (hout : ps'.clientOut = ps.clientOut)
    (hreq : ps.requests ≤ ps'.requests) : Delivered k ps' := by
  obtain ⟨answers, hps, hmem, hpair⟩ := h
  refine ⟨answers, hout.trans hps, fun a ha => ?_, hpair⟩
  obtain ⟨hs, hr⟩ := hmem a ha
  exact ⟨hs, by omega⟩

theorem Delivered.snoc {ps ps' : ProxySession} (h : Delivered k ps) {a : Answer}
    (hout : ps'.clientOut = ps.clientOut ++ [.reply a a.msg]) (hreq : ps'.requests = ps.requests)
    (ha : a.session = k ∧ a.request + 1 = ps.requests) : Delivered k ps' := by
  obtain ⟨answers, hps, hmem, hpair⟩ := h
  refine ⟨answers ++ [a], by simp [hout, hps], fun b hb => ?_, ?_⟩
  · rw [List.mem_append, List.mem_singleton] at hb
    rcases hb with hb | rfl
    · obtain ⟨hs, hr⟩ := hmem b hb
      exact ⟨hs, by omega⟩
    · exact ⟨ha.1, by omega⟩
  · -- every earlier reply answers an earlier request
    refine List.pairwise_append.mpr ⟨hpair, List.pairwise_singleton _ _, fun b hb c hc => ?_⟩
    rw [List.mem_singleton] at hc
    subst hc
    have := (hmem b hb).2
    omega

/-- **A step of one session.**  If session `k` touches at most the connection `c` (which no
other session holds) and leaves the other sessions alone, `Clean` holds after it as soon as it
holds of `k` and `c`. -/
theorem World.Clean.step_local (hc : w.Clean) {w' : World} {c : Option Nat}
    (hsess : ∀ j, j ≠ k → w'.sessions j = w.sessions j)
    (hother : ∀ j d, j ≠ k → c = some d → w.holds j ≠ some d)
    (hk : w.holds k = none ∨ w.holds k = c)
    (hconns : ∀ d, c ≠ some d → (w'.cp.conns d).pending = (w.cp.conns d).pending ∧
      (w'.cp.conns d).bad = (w.cp.conns d).bad)
    (hnew : w'.holds k = none ∨ w'.holds k = c)
    (hint : (w'.sessions k).interceptor = false)
    (hgood : ∀ d, c = some d → w'.holds k = some d → (w'.cp.conns d).bad = false)
    (hquiet : ∀ d, c = some d → (w'.cp.conns d).pending ≠ [] →
      (w'.cp.conns d).bad = true ∨ ∃ ex, (w'.sessions k).pc = .reading d ex false)
    (hread : ∀ d ex r, (w'.sessions k).pc = .reading d ex r →
      r = false ∧ Awaited k (w'.sessions k) ex (w'.cp.conns d).pending)
    (hdel : Delivered k (w'.sessions k)) : w'.Clean := by
  have hholds : ∀ j, j ≠ k → w'.holds j = w.holds j := by
    intro j hj
    simp [World.holds, hsess j hj]
  -- a connection another session holds is not `c`
  have hne : ∀ j d, j ≠ k → w.holds j = some d → c ≠ some d := by
    intro j d hj hd hcd
    exact hother j d hj hcd hd
  refine ⟨fun j => ?_, fun j d hd => ?_, fun d hd => ?_, fun j d ex r hr => ?_, fun j => ?_⟩
  · by_cases hj : j = k
    · subst hj
      exact hint
    · rw [hsess j hj]
      exact hc.noInterceptor j
  · by_cases hj : j = k
    · subst hj
      rcases hnew with h | h
      · rw [h] at hd
        cases hd
      · exact hgood d (h ▸ hd) hd
    · rw [hholds j hj] at hd
      rw [(hconns d (hne j d hj hd)).2]
      exact hc.good j d hd
  · by_cases hcd : c = some d
    · rcases hquiet d hcd hd with hb | ⟨ex, hex⟩
      · exact .inl hb
      · exact .inr ⟨k, ex, hex⟩
    · obtain ⟨hpend, hbad⟩ := hconns d hcd
      rw [hpend] at hd
      rw [hbad]
      rcases hc.quiet d hd with hb | ⟨j, ex, hj⟩
      · exact .inl hb
      · -- the reader is not `k`, which holds nothing or `c`
        have hjk : j ≠ k := by
          rintro rfl
          rcases hk with h | h <;> rw [holds_of_reading hj] at h
          · cases h
          · exact hcd h.symm
        exact .inr ⟨j, ex, (hsess j hjk).symm ▸ hj⟩
  · by_cases hj : j = k
    · subst hj
      exact hread d ex r hr
    · rw [hsess j hj] at hr ⊢
      rw [(hconns d (hne j d hj (holds_of_reading hr))).1]
      exact hc.reading j d ex r hr
  · by_cases hj : j = k
    · subst hj
      exact hdel
    · rw [hsess j hj]
      exact hc.delivered j

end Facts

/-! ## What `Put` and `DoLoopTemp` leave alone -/

/-- Every connection has the same unread replies and the same `bad` flag in `cp'` as in `cp`. -/
def ConnectionPool.SameSockets (cp cp' : ConnectionPool) : Prop :=
  ∀ d, (cp'.conns d).pending = (cp.conns d).pending ∧ (cp'.conns d).bad = (cp.conns d).bad

section Frame

variable {w w' : World} {k c : Nat}

theorem ConnectionPool.put_sameSockets {cp cp' : ConnectionPool} (h : cp.put c = ok cp') :
    cp.SameSockets cp' := by
  cases hcl : (cp.conns c).closed
  · rw [ConnectionPool.put_eq_ok hcl] at h
    cases h
    intro d
    by_cases hd : d = c
    · subst hd
      simp
    · simp [hd]
  · unfold ConnectionPool.put at h
    rw [if_pos hcl] at h
    cases h

theorem World.close_frame (h : w.close c = ok w') :
    w'.sessions = w.sessions ∧ w.cp.SameSockets w'.cp := by
  unfold World.close at h
  rw [bind_eq_ok] at h
  obtain ⟨cp, hput, hw⟩ := h
  cases hw
  exact ⟨rfl, ConnectionPool.put_sameSockets hput⟩

theorem World.doLoopTemp_frame {p : Option Nat} {err : Bool} (h : w.doLoopTemp k p err = ok w') :
    w'.sessions = Function.update w.sessions k
        { w.sessions k with pooledConn := p, pc := if err then .done else .loop } ∧
      w.cp.SameSockets w'.cp := by
  unfold World.doLoopTemp at h
  cases err with
  | false =>
    cases h
    exact ⟨rfl, fun _ => ⟨rfl, rfl⟩⟩
  | true =>
    cases p with
    | none =>
      cases h
      exact ⟨rfl, fun _ => ⟨rfl, rfl⟩⟩
    | some c =>
      exact (World.close_frame h).imp (fun h => h) (fun h => h)

theorem World.ret_frame {err : Bool}
    (h : (w.close c >>= fun w => w.doLoopTemp k none err) = ok w') :
    w'.sessions = Function.update w.sessions k
        { w.sessions k with pooledConn := none, pc := if err then .done else .loop } ∧
      w.cp.SameSockets w'.cp := by
  rw [bind_eq_ok] at h
  obtain ⟨w₁, hclose, hloop⟩ := h
  obtain ⟨hs₁, hc₁⟩ := World.close_frame hclose
  obtain ⟨hs₂, hc₂⟩ := World.doLoopTemp_frame hloop
  rw [hs₂, hs₁]
  exact ⟨rfl, fun d => ⟨(hc₂ d).1.trans (hc₁ d).1, (hc₂ d).2.trans (hc₁ d).2⟩⟩

end Frame

/-! ## Each step keeps `Clean` -/

section Steps

variable {w w' : World} {k c : Nat}

theorem World.Clean.step_release (hc : w.Clean) {c : Option Nat}
    (hsess : ∀ j, j ≠ k → w'.sessions j = w.sessions j)
    (hother : ∀ j d, j ≠ k → c = some d → w.holds j ≠ some d)
    (hk : w.holds k = none ∨ w.holds k = c)
    (hconns : ∀ d, c ≠ some d → (w'.cp.conns d).pending = (w.cp.conns d).pending ∧
      (w'.cp.conns d).bad = (w.cp.conns d).bad)
    (hfree : w'.holds k = none)
    (hint : (w'.sessions k).interceptor = false)
    (hquiet : ∀ d, c = some d → (w'.cp.conns d).pending ≠ [] → (w'.cp.conns d).bad = true)
    (hdel : Delivered k (w'.sessions k)) : w'.Clean := by
  refine hc.step_local hsess hother hk hconns (.inl hfree) hint (fun d _ hd => ?_)
    (fun d hcd hne => .inl (hquiet d hcd hne)) (fun d ex r hr => ?_) hdel
  · rw [hfree] at hd
    cases hd
  · rw [holds_of_reading hr] at hfree
    cases hfree

theorem World.Clean.clientGone (hc : w.Clean) (hi : w.Inv) (hloop : (w.sessions k).pc = .loop)
    (h : w.doLoopTemp k (w.sessions k).pooledConn true = ok w') : w'.Clean := by
  obtain ⟨hsess, hsock⟩ := World.doLoopTemp_frame h
  have hk : w.holds k = (w.sessions k).pooledConn := by
    simp [World.holds, ProxySession.holding, hloop]
  have hk' : w'.sessions k = { w.sessions k with pc := .done } := by
    simp [hsess]
  refine hc.step_release (c := (w.sessions k).pooledConn) ?_ ?_ (.inr hk) (fun d _ => hsock d) ?_ ?_
    ?_ ?_
  · intro j hj
    rw [hsess, Function.update_of_ne hj]
  · intro j d hj hcd hjd
    exact hj (hi.holds_unique hjd (hk.trans hcd))
  · simp [World.holds, ProxySession.holding, hk']
  · rw [hk']
    exact hc.noInterceptor k
  · intro d hcd hne
    exact absurd ((hsock d).1.trans (hc.pending_pinned hi hloop hcd)) hne
  · exact (hc.delivered k).mono (by rw [hk']) (by rw [hk'])

theorem World.Clean.get_fresh (hc : w.Clean) (hi : w.Inv) {g : GetChoice} {cp' : ConnectionPool}
    (h : w.cp.get g = (some c, cp')) :
    (∀ j, w.holds j ≠ some c) ∧ (cp'.conns c).bad = false ∧ (cp'.conns c).pending = [] := by
  rcases (ConnectionPool.get_conns h).2 c rfl with ⟨hmem, hconn⟩ | ⟨rfl, hconn⟩
  · obtain ⟨hfree, hgood⟩ := hi.pooled hmem
    rw [hconn]
    exact ⟨hfree, hgood, hc.pending_pooled hi hmem⟩
  · rw [hconn]
    exact ⟨(hi.unborn _ le_rfl).1, rfl, rfl⟩

theorem awaited_send {ps : ProxySession} {m : Message} {replies : List Message} {n : Nat}
    {ex : Bool} (hadm : proxyAnswers m replies = true) (hhas : m.hasResponse = true)
    (hex : World.inExhaustMode m = ok ex) (hreq : ps.requests = n + 1) :
    Awaited k ps ex (replies.map fun r => ⟨k, n, r⟩) := by
  refine ⟨fun a ha => ?_, ?_⟩
  · obtain ⟨r, _, rfl⟩ := List.mem_map.mp ha
    exact ⟨rfl, hreq.symm⟩
  · unfold proxyAnswers at hadm
    rw [hhas, hex] at hadm
    cases ex
    · simpa using hadm
    · simpa [Function.comp_def] using hadm

/-- Forwarding a request on `c`, which no other session holds, good and with nothing unread:
mongod's answer is queued on `c` for `k`, which reads it, or keeps `c` pinned when there is
none. -/
theorem World.Clean.send (hc : w.Clean)
    (hother : ∀ j, j ≠ k → w.holds j ≠ some c) (hk : w.holds k = none ∨ w.holds k = some c)
    (hgood : (w.cp.conns c).bad = false) (hempty : (w.cp.conns c).pending = [])
    {m : Message} {sendOk : Bool} {replies : List Message} (hadm : proxyAnswers m replies = true)
    (h : w.send k c m false true sendOk replies = ok w') : w'.Clean := by
  have hother' : ∀ j d, j ≠ k → some c = some d → w.holds j ≠ some d := by
    rintro j d hj ⟨⟩
    exact hother j hj
  unfold World.send at h
  cases hcl : (w.cp.conns c).closed
  case true =>
    rw [if_pos hcl] at h
    cases h
  rw [if_neg (by simp [hcl])] at h
  cases sendOk with
  | false =>
    -- a failed send marks `c` bad, and `DoLoopTemp` closes it
    rw [if_pos (by decide)] at h
    obtain ⟨hsess, hsock⟩ := World.doLoopTemp_frame h
    refine hc.step_release (c := some c) (fun j hj => ?_) hother' hk (fun d hd => ?_) ?_ ?_
      (fun d hd _ => ?_) ?_
    · simp [hsess, hj]
    · have hdc : d ≠ c := fun h => hd (h ▸ rfl)
      simpa [hdc] using hsock d
    · simp [World.holds, ProxySession.holding, hsess]
    · simpa [hsess] using hc.noInterceptor k
    · cases hd
      simpa using (hsock c).2
    · exact (hc.delivered k).mono (by simp [hsess]) (by simp [hsess])
  | true =>
    rw [if_neg (by decide)] at h
    dsimp only at h
    cases hhas : m.hasResponse with
    | false =>
      -- no response: mongod owes nothing, and `c` stays pinned
      have hnil : replies = [] := by
        unfold proxyAnswers at hadm
        simpa [hhas] using hadm
      subst hnil
      rw [if_pos (by simp [hhas])] at h
      obtain ⟨hsess, hsock⟩ := World.doLoopTemp_frame h
      refine hc.step_local (c := some c) (fun j hj => ?_) hother' hk (fun d hd => ?_) (.inr ?_) ?_
        (fun d hd _ => ?_) (fun d hd hne => ?_) (fun d ex r hr => ?_) ?_
      · simp [hsess, hj]
      · have hdc : d ≠ c := fun h => hd (h ▸ rfl)
        simpa [hdc] using hsock d
      · simp [World.holds, ProxySession.holding, hsess]
      · simpa [hsess] using hc.noInterceptor k
      · cases hd
        simpa [hgood] using (hsock c).2
      · cases hd
        exact absurd (by simpa [hempty] using (hsock c).1) hne
      · simp [hsess] at hr
      · exact (hc.delivered k).mono (by simp [hsess]) (by simp [hsess])
    | true =>
      -- `k` reads `c`, on which mongod queued exactly the answer to this request
      rw [if_neg (by simp [hhas]), bind_eq_ok] at h
      obtain ⟨ex, hex, hw⟩ := h
      cases hw
      refine hc.step_local (c := some c) (fun j hj => ?_) hother' hk (fun d hd => ?_) (.inr ?_) ?_
        (fun d hd _ => ?_) (fun d hd _ => .inr ⟨ex, ?_⟩) (fun d ex' r hr => ?_) ?_
      · simp [hj]
      · have hdc : d ≠ c := fun h => hd (h ▸ rfl)
        simp [hdc]
      · simp [World.holds, ProxySession.holding]
      · simpa using hc.noInterceptor k
      · cases hd
        simpa using hgood
      · cases hd
        simp
      · simp only [World.setSession_sessions_self, Pc.reading.injEq] at hr
        obtain ⟨rfl, rfl, rfl⟩ := hr
        refine ⟨rfl, ?_⟩
        simpa [hempty] using awaited_send hadm hhas hex (by simp)
      · exact (hc.delivered k).mono (by simp) (by simp)

theorem World.Clean.forward (hc : w.Clean) (hi : w.Inv) (hloop : (w.sessions k).pc = .loop)
    {m : Message} {g : GetChoice} {sendOk : Bool} {replies : List Message}
    (hadm : proxyAnswers m replies = true)
    (h : w.forward k m false true g sendOk replies = ok w') : w'.Clean := by
  have hk : w.holds k = (w.sessions k).pooledConn := by
    simp [World.holds, ProxySession.holding, hloop]
  unfold World.forward at h
  cases hp : (w.sessions k).pooledConn with
  | some c =>
    -- the pinned connection
    rw [hp] at h hk
    exact hc.send (fun j hj hjc => hj (hi.holds_unique hjc hk)) (.inr hk) (hc.good k c hk)
      (hc.pending_pinned hi hloop hp) hadm h
  | none =>
    rw [hp] at h hk
    rcases hget : w.cp.get g with ⟨r, cp'⟩
    obtain ⟨hsame, -⟩ := ConnectionPool.get_conns hget
    rw [hget] at h
    cases r with
    | none =>
      -- `Get` failed: `DoLoopTemp` returns
      obtain ⟨hsess, hsock⟩ := World.doLoopTemp_frame h
      refine hc.step_release (c := none) (fun j hj => ?_) (fun _ _ _ h => (by cases h)) (.inl hk)
        (fun d _ => ?_) ?_ ?_ (fun _ h => (by cases h)) ?_
      · simp [hsess, hj]
      · rw [(hsock d).1, (hsock d).2]
        simp [hsame d (by simp)]
      · simp [World.holds, ProxySession.holding, hsess]
      · simpa [hsess] using hc.noInterceptor k
      · exact (hc.delivered k).mono (by simp [hsess]) (by simp [hsess])
    | some c =>
      -- `Get` handed out `c`: taking it out of the pool keeps the world clean
      obtain ⟨hfree, hgood, hempty⟩ := hc.get_fresh hi hget
      have hc' : World.Clean { w with cp := cp' } := by
        refine hc.step_local (c := some c) (fun _ _ => rfl) (fun j d _ hd => hd ▸ hfree j) (.inl hk)
          (fun d hd => ?_) (.inl hk) (hc.noInterceptor k) (fun d _ hd => ?_) (fun d hd hne => ?_)
          (fun d ex r hr => ?_) (hc.delivered k)
        · rw [hsame d hd]
          exact ⟨rfl, rfl⟩
        · have hd' : w.holds k = some d := hd
          rw [hk] at hd'
          cases hd'
        · cases hd
          exact absurd hempty hne
        · simp [hloop] at hr
      exact hc'.send (fun j _ => hfree j) (.inl hk) hgood hempty hadm h

/-- The response loop ends: the deferred `Close` gives `c` back with nothing unread, or marked
bad, and `k` holds nothing. -/
theorem World.Clean.ret (hc : w.Clean) (hi : w.Inv) {ex : Bool}
    (hread : (w.sessions k).pc = .reading c ex false) {w₁ : World} {err : Bool}
    (h : (w₁.close c >>= fun w => w.doLoopTemp k none err) = ok w') {pc : PooledConnection}
    (hcp : w₁.cp = w.cp.setConn c pc) (hsess : ∀ j, j ≠ k → w₁.sessions j = w.sessions j)
    (hint : (w₁.sessions k).interceptor = false) (hdel : Delivered k (w₁.sessions k))
    (hquiet : pc.pending ≠ [] → pc.bad = true) : w'.Clean := by
  obtain ⟨hs, hsock⟩ := World.ret_frame h
  have hk : w.holds k = some c := holds_of_reading hread
  refine hc.step_release (c := some c) (fun j hj => ?_) (fun j d hj hd hjd => ?_) (.inr hk)
    (fun d hd => ?_) ?_ ?_ (fun d hd hne => ?_) ?_
  · rw [hs, Function.update_of_ne hj, hsess j hj]
  · cases hd
    exact hj (hi.holds_unique hjd hk)
  · have hdc : d ≠ c := fun h => hd (h ▸ rfl)
    rw [(hsock d).1, (hsock d).2, hcp]
    simp [hdc]
  · cases err <;> simp [World.holds, ProxySession.holding, hs]
  · simpa [hs] using hint
  · cases hd
    rw [(hsock c).1, hcp] at hne
    rw [(hsock c).2, hcp]
    simpa using hquiet (by simpa using hne)
  · exact hdel.mono (by simp [hs]) (by simp [hs])

theorem World.Clean.response (hc : w.Clean) (hi : w.Inv) {ex respInter : Bool}
    (hread : (w.sessions k).pc = .reading c ex respInter) {readOk writeOk : Bool}
    {inter : Option Message} (hadm : ex = true → writeOk = true)
    (h : w.response k c ex respInter readOk inter writeOk = ok w') : w'.Clean := by
  obtain ⟨rfl, hawait⟩ := hc.reading k c ex respInter hread
  unfold World.response at h
  dsimp only at h
  cases readOk with
  | false =>
    -- a failed read marks `c` bad before the deferred `Close`
    rw [if_pos (by decide)] at h
    exact hc.ret hi hread h rfl (fun j hj => rfl) (hc.noInterceptor k) (hc.delivered k)
      (fun _ => rfl)
  | true =>
    rw [if_neg (by decide)] at h
    cases hpend : (w.cp.conns c).pending with
    | nil =>
      -- `ReadMessage` waits: nothing to take
      rw [hpend] at h
      cases h
    | cons a rest =>
      rw [hpend] at h hawait
      have ha : a.session = k ∧ a.request + 1 = (w.sessions k).requests := hawait.1 a (by simp)
      dsimp only at h
      -- no response interceptor: the reply goes to the client as read
      rw [if_neg (by decide)] at h
      dsimp only at h
      have hrest : ex = false → rest = [] := by
        rintro rfl
        simpa using hawait.2
      cases writeOk with
      | false =>
        -- only outside exhaust mode, where `a` was the whole answer
        rw [if_pos (by decide)] at h
        have hex : ex = false := by
          cases ex
          · rfl
          · exact absurd (hadm rfl) (by decide)
        exact hc.ret hi hread h rfl (fun j hj => rfl) (hc.noInterceptor k) (hc.delivered k)
          (fun hne => absurd (hrest hex) hne)
      | true =>
        rw [if_neg (by decide)] at h
        let w₁ := (w.setConn c { w.cp.conns c with pending := rest }).deliver k (.reply a a.msg)
        have hsess : ∀ j, j ≠ k → w₁.sessions j = w.sessions j := by
          intro j hj
          simp [w₁, World.deliver, hj]
        have hint : (w₁.sessions k).interceptor = false := by
          simpa [w₁, World.deliver] using hc.noInterceptor k
        have hdel : Delivered k (w₁.sessions k) :=
          (hc.delivered k).snoc (by simp [w₁, World.deliver]) (by simp [w₁, World.deliver]) ha
        cases ex with
        | false =>
          rw [if_pos (by decide)] at h
          exact hc.ret hi hread h rfl hsess hint hdel (fun hne => absurd (hrest rfl) hne)
        | true =>
          -- an exhaust stream: the connection is given back after the reply with `CursorId` 0
          rw [if_neg (by decide)] at h
          obtain ⟨r, hr, hlast, hmore⟩ := cursorStream_cons (by simpa using hawait.2)
          simp only [w₁, hr] at hsess hint hdel
          rw [hr] at h
          dsimp only at h
          by_cases hcur : r.cursorId = 0
          · rw [if_pos hcur] at h
            exact hc.ret hi hread h rfl hsess hint hdel
              (fun hne => absurd (List.map_eq_nil_iff.mp (hlast hcur)) hne)
          · rw [if_neg hcur] at h
            cases h
            have hk : w.holds k = some c := holds_of_reading hread
            refine hc.step_local (c := some c) hsess (fun j d hj hd hjd => ?_) (.inr hk)
              (fun d hd => ?_) (.inr ?_) hint (fun d hd _ => ?_) (fun d hd _ => .inr ⟨true, ?_⟩)
              (fun d ex r hr' => ?_) hdel
            · cases hd
              exact hj (hi.holds_unique hjd hk)
            · have hdc : d ≠ c := fun h => hd (h ▸ rfl)
              simp [hdc]
            · simp [World.holds, ProxySession.holding, World.deliver, hread]
            · cases hd
              simpa using hc.good k c hk
            · cases hd
              simp [World.deliver, hread]
            · simp only [World.deliver, World.setSession_sessions_self, World.setConn_sessions,
                hread, Pc.reading.injEq] at hr'
              obtain ⟨rfl, rfl, rfl⟩ := hr'
              refine ⟨rfl, fun b hb => ?_, ?_⟩
              · simpa [World.deliver] using hawait.1 b (List.mem_cons_of_mem _ (by simpa using hb))
              · simpa [Function.comp_def] using hmore hcur

/-- **Every admissible step keeps `Clean`.** -/
theorem World.Clean.step (hc : w.Clean) (hi : w.Inv) {l : Nat × Event}
    (hadm : Admissible w l = true) (h : w.step l = ok w') : w'.Clean := by
  obtain ⟨k, ev⟩ := l
  cases ev with
  | clientGone =>
    dsimp only [World.step] at h
    cases hpc : (w.sessions k).pc <;> rw [hpc] at h
    case loop => exact hc.clientGone hi hpc h
    all_goals cases h
  | request m i g sendOk replies =>
    dsimp only [World.step] at h
    cases hpc : (w.sessions k).pc <;> rw [hpc] at h
    case loop =>
      -- with no interceptor `doLoop` goes straight to `forward`
      unfold World.request at h
      rw [if_pos (by simp [hc.noInterceptor k])] at h
      exact hc.forward hi hpc hadm h
    all_goals cases h
  | response readOk inter writeOk =>
    dsimp only [World.step] at h
    cases hpc : (w.sessions k).pc <;> rw [hpc] at h
    case reading c ex r =>
      have hwrite : ex = true → writeOk = true := by
        rintro rfl
        simpa [Admissible, hpc] using hadm
      exact hc.response hi hpc hwrite h
    all_goals cases h

theorem World.init_clean : (World.init fun _ => false).Clean where
  noInterceptor _ := rfl
  good j d h := by simp [World.holds, World.init, ProxySession.holding] at h
  quiet d h := by simp [World.init, ConnectionPool.empty] at h
  reading j d ex r h := by simp [World.init] at h
  delivered j := ⟨[], rfl, by simp, by simp⟩

end Steps

/-! ## No cross-talk where mongod answers as `doLoop` expects -/

theorem no_cross_talk {w : World}
    (h : Reach World.step (fun w l => Admissible w l = true) (World.init fun _ => false) w) :
    (∀ k, Delivered k (w.sessions k)) ∧ ∀ d ∈ w.cp.pool, (w.cp.conns d).pending = [] := by
  -- the invariant is `Clean` together with the ownership invariant of the pool
  have hinv : w.Inv ∧ w.Clean := by
    refine Reach.inv (fun w => w.Inv ∧ w.Clean) ⟨World.init_inv _, World.init_clean⟩ ?_ h
    rintro s l s' ⟨hi, hc⟩ hadm hs
    exact ⟨(World.step_safe hi l).1 s' hs, hc.step hi hadm hs⟩
  exact ⟨hinv.2.delivered, fun d hd => hinv.2.pending_pooled hinv.1 hd⟩

/-- An exhaust OP_QUERY read to the end by session 0, then a getMore of session 1. -/
theorem no_cross_talk_exhaust_getMore :
    ∃ w, Reach World.step (fun w l => Admissible w l = true) (World.init fun _ => false) w ∧
      (w.sessions 0).clientOut.length = 2 ∧ (w.sessions 1).clientOut.length = 1 ∧
      (∀ k, Delivered k (w.sessions k)) ∧ ∀ d ∈ w.cp.pool, (w.cp.conns d).pending = [] := by
  obtain ⟨w, hw, h0, h1⟩ : ∃ w, Reach World.step (fun w l => Admissible w l = true)
      (World.init fun _ => false) w ∧
      (w.sessions 0).clientOut.length = 2 ∧ (w.sessions 1).clientOut.length = 1 :=
    ⟨_, reach_of_runAdm
      [(0, .request (.query ⟨⟨48, 1, 0, opQuery⟩, 64, [], 0, 0, ⟨0, []⟩, ⟨0, []⟩⟩)
          ⟨none, false, true, false, true⟩ ⟨0, true⟩ true
          [.reply ⟨⟨36, 2, 1, opReply⟩, 0, 5, 0, 0, []⟩, .reply ⟨⟨36, 3, 1, opReply⟩, 0, 0, 0, 0, []⟩]),
       (0, .response true none true),
       (0, .response true none true),
       (1, .request (.getMore ⟨⟨32, 4, 0, opGetMore⟩, 0, [], 0, 7⟩)
          ⟨none, false, true, false, true⟩ ⟨0, true⟩ true
          [.reply ⟨⟨36, 5, 4, opReply⟩, 0, 0, 0, 0, []⟩]),
       (1, .response true none true)] .init rfl, rfl, rfl⟩
  exact ⟨w, hw, h0, h1, no_cross_talk hw⟩

/-! ## Where mongod as the wire protocol has it breaks it -/

/-- An OP_MSG with `exhaustAllowed` (bit 16) answered by two `moreToCome` replies: `doLoop` reads
one and pools the connection, and session 1's client is sent the other, a reply to session 0.
Nothing in the code follows `moreToCome`. -/
theorem cross_talk_opMsg_exhaust :
    ∃ w, Reach World.step (fun w l => ProtocolAdmissible w l = true) (World.init fun _ => false) w ∧
      (w.sessions 1).clientOut =
        [.reply ⟨0, 0, .msg ⟨⟨21, 2, 1, opMsg⟩, 0, []⟩⟩ (.msg ⟨⟨21, 2, 1, opMsg⟩, 0, []⟩)] :=
  ⟨_, reach_of_runAdm
    [(0, .request (.msg ⟨⟨21, 1, 0, opMsg⟩, 65536, []⟩) ⟨none, false, true, false, true⟩ ⟨0, true⟩
        true [.msg ⟨⟨21, 2, 1, opMsg⟩, 2, []⟩, .msg ⟨⟨21, 2, 1, opMsg⟩, 0, []⟩]),
     (0, .response true none true),
     (1, .request (.getMore ⟨⟨32, 3, 0, opGetMore⟩, 0, [], 0, 7⟩) ⟨none, false, true, false, true⟩
        ⟨0, true⟩ true [.msg ⟨⟨21, 4, 3, opMsg⟩, 0, []⟩]),
     (1, .response true none true)] .init rfl, rfl⟩

/-- **A failed write to the client inside an exhaust stream pools the connection unread.**
Session 0's exhaust OP_QUERY (flag bit 6) is answered by two OP_REPLYs, the first with a
non-zero `CursorId`.  Writing the first to the client fails: `doLoop` returns `nil, err` without
`pooledConn.bad = true`, which the failed read from mongod sets, so the deferred `Close` puts the
connection back in the pool, good, with the second reply unread.  Session 1's OP_GET_MORE is then
sent on that connection, and its client is sent session 0's second reply. -/
theorem cross_talk_client_write_failure :
    ∃ w₁ w₂, Reach World.step (fun w l => ProtocolAdmissible w l = true)
        (World.init fun _ => false) w₁ ∧
      w₁.cp.pool = [0] ∧ (w₁.cp.conns 0).bad = false ∧
      (w₁.cp.conns 0).pending = [⟨0, 0, .reply ⟨⟨36, 3, 1, opReply⟩, 0, 0, 0, 0, []⟩⟩] ∧
      Reach World.step (fun w l => ProtocolAdmissible w l = true) w₁ w₂ ∧
      (w₂.sessions 1).clientOut =
        [.reply ⟨0, 0, .reply ⟨⟨36, 3, 1, opReply⟩, 0, 0, 0, 0, []⟩⟩
          (.reply ⟨⟨36, 3, 1, opReply⟩, 0, 0, 0, 0, []⟩)] :=
  ⟨_, _, reach_of_runAdm
    [(0, .request (.query ⟨⟨48, 1, 0, opQuery⟩, 64, [], 0, 0, ⟨0, []⟩, ⟨0, []⟩⟩)
        ⟨none, false, true, false, true⟩ ⟨0, true⟩ true
        [.reply ⟨⟨36, 2, 1, opReply⟩, 0, 5, 0, 0, []⟩, .reply ⟨⟨36, 3, 1, opReply⟩, 0, 0, 0, 0, []⟩]),
     (0, .response true none false)] .init rfl, rfl, rfl, rfl,
   reach_of_runAdm
    [(1, .request (.getMore ⟨⟨32, 4, 0, opGetMore⟩, 0, [], 0, 7⟩) ⟨none, false, true, false, true⟩
        ⟨0, true⟩ true [.reply ⟨⟨36, 5, 4, opReply⟩, 0, 0, 0, 0, []⟩]),
     (1, .response true none true)] .init rfl, rfl⟩

end Mongonet.Proxy
