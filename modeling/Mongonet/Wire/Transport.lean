import Mongonet.Wire.RoundTrip

/-!
# Mongonet.Wire.Transport — `SendMessage` (sock.go) and `CheckedConn` (connchecker.go)

`sendBytes(writer, buf)` calls `Write` until one reports all of what is left of `buf`, going on
from `buf[written:]` after a short write, and `SendMessage(m, writer)` is `sendBytes` of
`m.Serialize()`.  Over a sink it appends exactly `buf` (`sendBytes_sink`), and it comes back,
given more writes than bytes, when every write makes progress (`sendBytes_returns`); so the
message a server sends is read back whole by `ReadMessage` at the other end
(`sendMessage_readMessage`).

A `CheckedConn` wraps a client's `net.Conn` when the proxy has an interceptor: before each
`Read` or `Write` it runs the `ConnChecker` and sets a deadline, and it retries a `Read` or a
`Write` that timed out, from `b[n:]`.  What the checker, the deadlines and the time-outs come to
is the environment's, as fields of `CheckedConn`.  A retried write neither repeats nor skips a
byte (`CheckedConn.writer_isSink`), and the bytes a retried read returns are the next ones of the
stream (`CheckedConn.read_delivers`).
-/

namespace Mongonet

open Go Result

variable {σ : Type}

/-! ## `sendBytes` and `SendMessage` -/

/-- The state of the loop of `sendBytes`: what is left of `buf`, the writer, and whether the
loop has returned. -/
structure SendLoop (σ : Type) where
  buf : List UInt8
  writer : σ
  done : Bool

/-- One iteration of `sendBytes`: `Write(buf)`; a short write goes on with `buf[written:]`.  The
writer's error, the argument of `%s`, is not kept: `stack` carries numbers only. -/
def sendStep (w : ByteWriter GoError σ) (st : SendLoop σ) : Res (SendLoop σ) := do
  let (written, err, s) ← w.write st.writer st.buf
  match err with
  | some _ => .error (newStackErrorf "error writing to client: %s" [])
  | none =>
    if written = st.buf.length then pure ⟨st.buf, s, true⟩
    else pure ⟨st.buf.drop written, s, false⟩

/-- `sendBytes(writer, buf)`, cut off after `fuel` writes. -/
def sendBytes (w : ByteWriter GoError σ) (fuel : Nat) (s : σ) (buf : List UInt8) : Res σ := do
  let st ← loop (fun st : SendLoop σ => !st.done) (sendStep w) fuel ⟨buf, s, false⟩
  pure st.writer

/-- `SendMessage(m, writer)`. -/
def sendMessage (w : ByteWriter GoError σ) (fuel : Nat) (m : Message) (s : σ) : Res σ := do
  sendBytes w fuel s (← m.serialize)

section Send

variable {w : ByteWriter GoError σ} {out : σ → List UInt8}

/-- What `sendBytes` has written: the stream holds what it held, then the part of `buf₀` in
front of what is left, and all of `buf₀` once the loop has returned. -/
def SendLoop.Sent (out : σ → List UInt8) (s₀ : σ) (buf₀ : List UInt8) (st : SendLoop σ) : Prop :=
  ∃ k, st.buf = buf₀.drop k ∧ out st.writer = out s₀ ++ if st.done then buf₀ else buf₀.take k

theorem sendStep_sent (hw : w.IsSink out) {s₀ : σ} {buf₀ : List UInt8} {st st' : SendLoop σ}
    (hI : st.Sent out s₀ buf₀) (hdone : st.done = false) (h : sendStep w st = ok st') :
    st'.Sent out s₀ buf₀ := by
  obtain ⟨k, hbuf, hout⟩ := hI
  rw [hdone, if_neg (by decide)] at hout
  unfold sendStep at h
  obtain ⟨⟨written, err, s⟩, hwrite, h⟩ := bind_eq_ok.mp h
  have hs : out s = out s₀ ++ buf₀.take k ++ st.buf.take written := by
    rw [hw _ _ _ hwrite, hout]
  cases err with
  | some _ => cases h
  | none =>
    dsimp only at h
    by_cases hall : written = st.buf.length
    · -- the write took all that was left
      rw [if_pos hall] at h
      cases h
      refine ⟨k, hbuf, ?_⟩
      rw [if_pos rfl, hs, hall, List.take_length, hbuf, List.append_assoc, List.take_append_drop]
    · rw [if_neg hall] at h
      cases h
      refine ⟨k + written, by rw [hbuf, List.drop_drop], ?_⟩
      rw [if_neg Bool.false_ne_true, hs, hbuf, List.append_assoc, ← List.take_add]

/-- **`sendBytes` writes `buf`.**  Over a sink, `sendBytes` that comes back without an error has
appended exactly `buf` to the stream, however the writes split it. -/
theorem sendBytes_sink (hw : w.IsSink out) {fuel : Nat} {s s' : σ} {buf : List UInt8}
    (h : sendBytes w fuel s buf = ok s') : out s' = out s ++ buf := by
  unfold sendBytes at h
  obtain ⟨st, hloop, h⟩ := bind_eq_ok.mp h
  cases h
  obtain ⟨⟨k, -, hout⟩, hdone⟩ := loop_inv (SendLoop.Sent out s buf)
    (fun st st' hI hc hb => sendStep_sent hw hI (by simpa using hc) hb) fuel _ st
    ⟨0, rfl, by simp⟩ hloop
  rw [show st.done = true by simpa using hdone, if_pos rfl] at hout
  exact hout

/-- **`sendBytes` comes back.**  If every write comes back, and writes something when it
reports no error, `sendBytes` given more writes than `buf` has bytes returns: it never runs out
of them. -/
theorem sendBytes_returns (hp : w.Progress) {fuel : Nat} (s : σ) {buf : List UInt8}
    (hfuel : buf.length + 1 < fuel) : (sendBytes w fuel s buf).Returns := by
  unfold sendBytes
  refine Returns.bind ?_ fun _ _ => returns_ok _
  -- the measure: the bytes left, and one more while the loop has not returned
  refine (loop_returnsWith (fun _ => True)
    (fun st : SendLoop σ => st.buf.length + if st.done then 0 else 1) (fun st _ hc => ?_) fuel
    _ trivial (by simpa using hfuel)).returns
  have hdone : st.done = false := by simpa using hc
  refine (hp.returnsWith st.writer st.buf).bind fun r hr => ?_
  obtain ⟨written, err, s'⟩ := r
  obtain ⟨hle, hprog⟩ := hr
  cases err with
  | some _ => exact returnsWith_error _ _
  | none =>
    refine returnsWith_ite (fun _ => returnsWith_pure ⟨trivial, ?_⟩)
      (fun hshort => returnsWith_pure ⟨trivial, ?_⟩)
    · simp [hdone]
    · -- a short write of a non-empty buffer takes at least one byte
      have hne : st.buf ≠ [] := by
        rintro hnil
        exact hshort (by simpa [hnil] using hle)
      have hpos : 0 < written := hprog hne rfl
      simp only [hdone, List.length_drop]
      omega

theorem Message.WellFormed.serialize_withSize {m : Message} (h : m.WellFormed) :
    m.serialize = ok (m.withSize m.encode.length).encode := by
  rw [Message.serialize_eq m (h.decodable.sized (by have := h.length_le; omega)),
    Message.canonical_eq_withSize h.reservedClear]

theorem Message.WellFormed.readMessage_withSize {m : Message} (h : m.WellFormed) :
    readMessage fullReader (m.withSize m.encode.length).encode =
      ok (m.withSize m.encode.length, []) := by
  have hmax := h.length_le
  have hlen := m.length_encode_withSize m.encode.length
  apply readMessage_encode (h.decodable.withSize _)
  · rw [Message.header_withSize, hlen, MessageHeader.withSize]
    exact toInt_ofInt_of_le (by omega) (by unfold maxInt32; omega)
  · rw [hlen]
    exact hmax

/-- **What a server sends is what its client reads.**  `SendMessage` of a well-formed message to a
sink whose writes make progress, given more writes than the layout has bytes, neither panics nor
runs out of writes; when it succeeds, the stream has grown by bytes that `ReadMessage` reads back,
to the last one, as the message with its `Size` set. -/
theorem sendMessage_readMessage (hw : w.IsSink out) (hp : w.Progress) {m : Message}
    (h : m.WellFormed) {fuel : Nat} (hfuel : m.encode.length + 1 < fuel) (s : σ) :
    (sendMessage w fuel m s).ReturnsWith fun s' => ∃ bytes, out s' = out s ++ bytes ∧
      readMessage fullReader bytes = ok (m.withSize bytes.length, []) := by
  have hlen := m.length_encode_withSize m.encode.length
  unfold sendMessage
  rw [h.serialize_withSize, ok_bind]
  refine ⟨sendBytes_returns hp s (by omega), fun s' hs' => ?_⟩
  refine ⟨_, sendBytes_sink hw hs', ?_⟩
  rw [hlen]
  exact h.readMessage_withSize

theorem sendMessage_readMessage_chunks :
    (sendMessage chunkWriter 60 (.reply ⟨⟨0, 17, 4, opReply⟩, 0, 0, 0, 1, [⟨5, [5, 0, 0, 0, 0]⟩]⟩)
      ([], [3, 3, 3])).ReturnsWith fun s' => ∃ bytes, s'.1 = [] ++ bytes ∧
        readMessage fullReader bytes = ok ((Message.reply ⟨⟨0, 17, 4, opReply⟩, 0, 0, 0, 1, [⟨5, [5, 0, 0, 0, 0]⟩]⟩).withSize
          bytes.length, []) :=
  sendMessage_readMessage chunkWriter_isSink chunkWriter_progress (by decide) (by decide) _

/-! ### Messages a client builds -/

/-- `NewQueryMessage(ns, flags, skip, toReturn, query, project)`: `RequestID` 17, `OP_QUERY`. -/
def newQueryMessage (ns : List UInt8) (flags skip toReturn : Int32) (query project : SimpleBSON) :
    QueryMessage :=
  ⟨⟨0, 17, 0, opQuery⟩, flags, ns, skip, toReturn, query, project⟩

section Build

variable {ns : List UInt8} {flags skip toReturn : Int32} {query project : SimpleBSON}
  {docs : List SimpleBSON}

theorem length_encode_newQueryMessage :
    (Message.query (newQueryMessage ns flags skip toReturn query project)).encode.length =
      ns.length + query.bytes.length + project.bytes.length + 29 := by
  simp only [Message.encode, QueryMessage.encode, newQueryMessage, List.length_append,
    length_header_bytes, length_int32Bytes, length_cstringBytes]
  omega

theorem newQueryMessage_wellFormed (hns : 0 ∉ ns) (hq : query.WellFormed)
    (hpr : project.WellFormed ∨ project = SimpleBSON.zero)
    (hlen : ns.length + query.bytes.length + project.bytes.length + 29 ≤ 200 * 1024 * 1024) :
    (Message.query (newQueryMessage ns flags skip toReturn query project)).WellFormed :=
  ⟨⟨rfl, hns, hq, hpr⟩, trivial, length_encode_newQueryMessage ▸ hlen⟩

end Build

end Send

/-! ## `CheckedConn` -/

/-- A `CheckedConn`: the client's `net.Conn`, read through `reader` and written through
`writer`, with what the environment decides around each call.  `check s` is what the
`ConnChecker` and the deadline come to before a `Read` or a `Write` (when
`CheckConnectionInterval() > 0`: `CheckConnection()`, then `SetReadDeadline` or
`SetWriteDeadline`), the error one of them returns if any; `isTls` is whether the conn is a
`*tls.Conn`, and `timeout e` whether `e` is a `net.Error` whose `Timeout()` is true. -/
structure CheckedConn (σ : Type) where
  reader : Reader GoError σ
  writer : ByteWriter GoError σ
  check : σ → Option GoError × σ
  isTls : Bool
  timeout : GoError → Bool

/-- The state of the loop of `CheckedConn.Read` or `Write`: what has been read (the bytes) or
written (the count) so far, the conn, the error to return, and whether the loop has returned. -/
structure CheckedLoop (α σ : Type) where
  got : α
  conn : σ
  err : Option GoError
  done : Bool

namespace CheckedConn

variable (c : CheckedConn σ)

/-- Whether the loop goes round again after a call that returned `err`: on a time-out of a conn
that is not TLS, and only then. -/
def retries (err : Option GoError) : Bool :=
  !c.isTls && match err with
    | some e => c.timeout e
    | none => false

/-- One iteration of `Read(b)` with `len(b) = len`: the checker, then `c.conn.Read(b[n:])`. -/
def readStep (len : Nat) (st : CheckedLoop (List UInt8) σ) : Res (CheckedLoop (List UInt8) σ) :=
  match c.check st.conn with
  | (some e, s) => pure ⟨st.got, s, some e, true⟩
  | (none, s) =>
    let (data, err, s) := c.reader.read s (len - st.got.length)
    pure ⟨st.got ++ data, s, err, !c.retries err⟩

/-- `CheckedConn.Read(b)` with `len(b) = len`, cut off after `fuel` rounds: the bytes `b[:n]`,
the error, and the conn. -/
def read (fuel : Nat) (s : σ) (len : Nat) : Res (List UInt8 × Option GoError × σ) := do
  let st ← loop (fun st : CheckedLoop (List UInt8) σ => !st.done) (c.readStep len) fuel
    ⟨[], s, none, false⟩
  pure (st.got, st.err, st.conn)

/-- One iteration of `Write(b)`: the checker, then `c.conn.Write(b[n:])`. -/
def writeStep (b : List UInt8) (st : CheckedLoop Nat σ) : Res (CheckedLoop Nat σ) :=
  match c.check st.conn with
  | (some e, s) => pure ⟨st.got, s, some e, true⟩
  | (none, s) => do
    let (nDelta, err, s) ← c.writer.write s (b.drop st.got)
    pure ⟨st.got + nDelta, s, err, !c.retries err⟩

/-- `CheckedConn.Write(b)`, cut off after `fuel` rounds: the count, the error, and the conn. -/
def write (fuel : Nat) (s : σ) (b : List UInt8) : Res (Nat × Option GoError × σ) := do
  let st ← loop (fun st : CheckedLoop Nat σ => !st.done) (c.writeStep b) fuel ⟨0, s, none, false⟩
  pure (st.got, st.err, st.conn)

variable {c}

theorem writeStep_le {b : List UInt8} {st st' : CheckedLoop Nat σ} (hle : st.got ≤ b.length)
    (h : c.writeStep b st = ok st') : st'.got ≤ b.length := by
  unfold writeStep at h
  rcases hc : c.check st.conn with ⟨err₀, s₁⟩
  rw [hc] at h
  cases err₀ with
  | some e =>
    cases h
    exact hle
  | none =>
    obtain ⟨⟨nDelta, err, s₂⟩, hwrite, h⟩ := bind_eq_ok.mp h
    cases h
    have hlen := c.writer.write_le _ _ _ hwrite
    rw [List.length_drop] at hlen
    dsimp only at hlen ⊢
    omega

theorem write_le {fuel : Nat} {s : σ} {b : List UInt8} {r : Nat × Option GoError × σ}
    (h : c.write fuel s b = ok r) : r.1 ≤ b.length := by
  unfold write at h
  obtain ⟨st, hloop, h⟩ := bind_eq_ok.mp h
  cases h
  exact (loop_inv (fun st : CheckedLoop Nat σ => st.got ≤ b.length)
    (fun _ _ hle _ hb => writeStep_le hle hb) fuel _ st (Nat.zero_le _) hloop).1

/-- `Write` as an `io.Writer`, cut off after `fuel` rounds. -/
def toWriter (c : CheckedConn σ) (fuel : Nat) : ByteWriter GoError σ where
  write := c.write fuel
  write_le _ _ _ h := write_le h

/-- What `Write(b)` has written so far, over a sink: the first `got` bytes of `b`. -/
def Wrote (out : σ → List UInt8) (s₀ : σ) (b : List UInt8) (st : CheckedLoop Nat σ) : Prop :=
  out st.conn = out s₀ ++ b.take st.got

theorem writeStep_wrote {out : σ → List UInt8} (hw : c.writer.IsSink out)
    (hcheck : ∀ s, out (c.check s).2 = out s) {s₀ : σ} {b : List UInt8}
    {st st' : CheckedLoop Nat σ} (hI : Wrote out s₀ b st) (h : c.writeStep b st = ok st') :
    Wrote out s₀ b st' := by
  unfold writeStep at h
  rcases hc : c.check st.conn with ⟨err₀, s₁⟩
  have hs₁ : out s₁ = out st.conn := by simpa [hc] using hcheck st.conn
  rw [hc] at h
  cases err₀ with
  | some e =>
    cases h
    exact hs₁.trans hI
  | none =>
    obtain ⟨⟨nDelta, err, s₂⟩, hwrite, h⟩ := bind_eq_ok.mp h
    cases h
    unfold Wrote
    rw [hw _ _ _ hwrite, hs₁, hI, List.append_assoc, ← List.take_add]

/-- **A retried write repeats and skips nothing.**  Over a conn that is a sink, with a checker
that writes nothing, `CheckedConn.Write` is a sink too: however many time-outs it goes through,
the stream has grown by exactly the first `n` bytes of `b`, `n` the count it reports. -/
theorem toWriter_isSink {out : σ → List UInt8} (hw : c.writer.IsSink out)
    (hcheck : ∀ s, out (c.check s).2 = out s) (fuel : Nat) : (c.toWriter fuel).IsSink out := by
  intro s b r h
  change c.write fuel s b = ok r at h
  unfold write at h
  obtain ⟨st, hloop, h⟩ := bind_eq_ok.mp h
  cases h
  exact (loop_inv (Wrote out s b) (fun _ _ hI _ hb => writeStep_wrote hw hcheck hI hb) fuel _ st
    (by simp [Wrote]) hloop).1

/-- A conn whose transport takes two bytes of a write at a time, behind a checker that never
fails. -/
theorem toWriter_isSink_chunks :
    ((⟨chunkReader, chunkWriter, fun s => (none, s), false, fun _ => true⟩ :
      CheckedConn (List UInt8 × List Nat)).toWriter 4).IsSink Prod.fst :=
  toWriter_isSink chunkWriter_isSink (fun _ => rfl) 4

/-- What `Read(b)` has read so far: the next bytes of the stream, no more than `len(b)`, and the
stream has moved past them. -/
def ReadSoFar (bytes : σ → List UInt8) (s₀ : σ) (len : Nat) (st : CheckedLoop (List UInt8) σ) :
    Prop :=
  st.got.length ≤ len ∧ st.got = (bytes s₀).take st.got.length ∧
    bytes st.conn = (bytes s₀).drop st.got.length

theorem readStep_readSoFar {bytes : σ → List UInt8} (hr : c.reader.Delivers bytes)
    (hcheck : ∀ s, bytes (c.check s).2 = bytes s) {s₀ : σ} {len : Nat}
    {st st' : CheckedLoop (List UInt8) σ} (hI : ReadSoFar bytes s₀ len st)
    (h : c.readStep len st = ok st') : ReadSoFar bytes s₀ len st' := by
  obtain ⟨hle, hgot, hrest⟩ := hI
  unfold readStep at h
  rcases hc : c.check st.conn with ⟨err₀, s₁⟩
  have hs₁ : bytes s₁ = bytes st.conn := by simpa [hc] using hcheck st.conn
  rw [hc] at h
  cases err₀ with
  | some e =>
    cases h
    exact ⟨hle, hgot, hs₁.trans hrest⟩
  | none =>
    rcases hread : c.reader.read s₁ (len - st.got.length) with ⟨data, err, s₂⟩
    simp only [hread, pure_eq, ok.injEq] at h
    subst h
    have hlen : data.length ≤ len - st.got.length := by
      simpa [hread] using c.reader.read_le s₁ (len - st.got.length)
    have hdata : data = (bytes s₁).take data.length := by
      simpa [hread] using hr.read_take s₁ (len - st.got.length)
    have hs₂ : bytes s₂ = (bytes s₁).drop data.length := by
      simpa [hread] using hr.read_drop s₁ (len - st.got.length)
    refine ⟨by simp only [List.length_append]; omega, ?_, ?_⟩
    · rw [List.length_append, List.take_add, ← hgot, ← hrest, ← hs₁, ← hdata]
    · rw [hs₂, hs₁, hrest, List.drop_drop, List.length_append]

/-- **A retried read loses nothing.**  Over a conn that delivers a stream, with a checker that
reads nothing, the bytes `CheckedConn.Read` returns, across any number of time-outs, are the next
ones of the stream, no more than the buffer holds, and the stream has moved past them. -/
theorem read_delivers {bytes : σ → List UInt8} (hr : c.reader.Delivers bytes)
    (hcheck : ∀ s, bytes (c.check s).2 = bytes s) {fuel : Nat} {s : σ} {len : Nat}
    {data : List UInt8} {err : Option GoError} {s' : σ}
    (h : c.read fuel s len = ok (data, err, s')) :
    data.length ≤ len ∧ data = (bytes s).take data.length ∧
      bytes s' = (bytes s).drop data.length := by
  unfold read at h
  obtain ⟨st, hloop, h⟩ := bind_eq_ok.mp h
  cases h
  exact (loop_inv (ReadSoFar bytes s len) (fun _ _ hI _ hb => readStep_readSoFar hr hcheck hI hb)
    fuel _ st ⟨Nat.zero_le _, by simp, by simp⟩ hloop).1

/-- A read of three bytes from a transport that hands out two. -/
theorem read_delivers_chunks :
    ([1, 2] : List UInt8).length ≤ 3 ∧ ([1, 2] : List UInt8) = [1, 2, 3, 4].take 2 ∧
      ([3, 4] : List UInt8) = [1, 2, 3, 4].drop 2 := by
  have h : (⟨chunkReader, chunkWriter, fun s => (none, s), false, fun _ => true⟩ :
      CheckedConn (List UInt8 × List Nat)).read 2 ([1, 2, 3, 4], [2]) 3 =
        ok ([1, 2], none, ([3, 4], [])) := rfl
  exact read_delivers chunkReader_isStream.delivers (fun _ => rfl) h

end CheckedConn

end Mongonet

