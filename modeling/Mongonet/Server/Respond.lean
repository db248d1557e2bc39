import Mongonet.Wire.Transport
import Mongonet.Wire.Inversion
import Mongonet.Bson.Value
import Mongonet.Proxy.Session
import Mongonet.Server.Lifecycle

/-!
# Mongonet.Server.Respond — a session's own answers (session.go, proxy.go)

A server answers a client message itself, without mongod, through `Session.RespondToCommand` and
`Session.RespondWithError`: the proxy calls the second when an interceptor fails a request.
Both switch on the client message's opcode, build a reply to it (`replyFor`), and send it on the
session's connection (`respond`); they differ in OP_GET_MORE, which only `RespondWithError`
answers.  `RespondWithError` first builds a document from the error (`errBSON`, with
`MongoError.ToBSON`), and `RespondToCommandMakeBSON` one from name and value pairs, both converted
by the driver's `bson.Marshal`, which is a parameter here.

* `respond_readMessage`: over a sink, what a session sends in answer is read back by the client's
  `ReadMessage` as a reply to its request;
* `respondToCommand_readMessage`: what `RespondToCommand` does by opcode, OP_GET_MORE refused;
* `respondWithError_refines`: each outcome of `RespondWithError` is one of the abstraction
  `Proxy.World.respondWithError` that the proxy's model (`doLoop`) runs;
* `readMessage_hasResponse`: for every message `ReadMessage` returns, `RespondWithError` replies
  exactly when `HasResponse()` holds, the test `doLoop` makes before calling it;
* `makeBSON_spec`: the document of `RespondToCommandMakeBSON` is the pairs in order, and always
  has an `ok` field.
-/

namespace Mongonet

open Go Result Bson

variable {σ : Type}

/-! ## Documents -/

/-- The scalars of the documents built here: Go `int`s and strings. -/
inductive Scalar where
  | int (i : Int)
  | string (s : String)
  deriving Repr, DecidableEq

/-- `MongoError`: the error it wraps (`none` for nil, else its `Error()` text), its code and its
code name. -/
structure MongoError where
  err : Option String
  code : Int
  codeName : String
  deriving Repr, DecidableEq

/-- `MongoError.ToBSON`. -/
def MongoError.toBSON (me : MongoError) : D Scalar :=
  let doc : D Scalar := [("ok", .scalar (.int 0))]
  let doc := match me.err with
    | some msg => doc ++ [("errmsg", .scalar (.string msg))]
    | none => doc
  doc ++ [("code", .scalar (.int me.code)), ("codeName", .scalar (.string me.codeName))]

/-- `NewMongoError(err, code, codeName)`. -/
def newMongoError (err : Option String) (code : Int) (codeName : String) : MongoError :=
  ⟨err, code, codeName⟩

/-- `MongoError.Error()`: `me.err.Error()` calls a method of the wrapped error, nil or not. -/
def MongoError.error (me : MongoError) : Result Empty String :=
  match me.err with
  | some msg =>
    ok ("code=" ++ toString me.code ++ " codeName=" ++ me.codeName ++ " errmsg = " ++ msg)
  | none => .panic nilDereference

/-- A non-nil `error` given to `RespondWithError`: a `MongoError`, or another error with its
`Error()` text. -/
inductive RespError where
  | mongo (me : MongoError)
  | other (msg : String)
  deriving Repr, DecidableEq

/-- The document `RespondWithError` answers `err` with. -/
def errBSON : Option RespError → D Scalar
  | none => [("ok", .scalar (.int 1))]
  | some (.mongo me) => me.toBSON
  | some (.other msg) => [("ok", .scalar (.int 0)), ("errmsg", .scalar (.string msg))]

/-- `SimpleBSONConvert(d)`: the bytes `bson.Marshal` makes of `d`, with their length. -/
def simpleBSONConvert (marshal : D Scalar → Res (List UInt8)) (d : D Scalar) : Res SimpleBSON := do
  let raw ← marshal d
  pure ⟨Int32.ofNat raw.length, raw⟩

/-! ## The replies -/

/-- `ErrUnknownOpcode`, an `errors.New` error, by its text. -/
def errUnknownOpcode : GoError := .stack "unknown opcode" []

/-- The switch of `RespondToCommand` and `RespondWithError` on the client message's opcode: the
reply to send, `ResponseTo` the client's `RequestID` (and `RequestID` 17, `Size` left to
`Serialize`); `none` to send nothing; or `ErrUnknownOpcode`.  `answersGetMore` is where the two
differ: `RespondWithError` answers OP_GET_MORE as it answers OP_QUERY. -/
def replyFor (answersGetMore : Bool) (clientMessage : Message) (doc : SimpleBSON) :
    Res (Option Message) :=
  let op := clientMessage.header.opCode
  let requestID := clientMessage.header.requestID
  if op = opQuery ∨ (answersGetMore = true ∧ op = opGetMore) then
    ok (some (.reply ⟨⟨0, 17, requestID, opReply⟩, 0, 0, 0, 1, [doc]⟩))
  -- for MongoDB 2.6+, and wpv 3+, these are only used for unacknowledged writes, so do nothing
  else if op = opInsert ∨ op = opUpdate ∨ op = opDelete then ok none
  else if op = opCommand then
    ok (some (.commandReply ⟨⟨0, 17, requestID, opCommandReply⟩, doc, simpleBSONEmpty, []⟩))
  else if op = opMsg then ok (some (.msg ⟨⟨0, 17, requestID, opMsg⟩, 0, [.body ⟨doc⟩]⟩))
  else .error errUnknownOpcode

/-- The reply of `replyFor`, sent with `SendMessage(rm, s.conn)`. -/
def respond (answersGetMore : Bool) (w : ByteWriter GoError σ) (fuel : Nat)
    (clientMessage : Message) (doc : SimpleBSON) (s : σ) : Res σ := do
  match ← replyFor answersGetMore clientMessage doc with
  | some rm => sendMessage w fuel rm s
  | none => pure s

/-- `Session.RespondToCommand(clientMessage, doc)`. -/
def respondToCommand (w : ByteWriter GoError σ) (fuel : Nat) (clientMessage : Message)
    (doc : SimpleBSON) (s : σ) : Res σ :=
  respond false w fuel clientMessage doc s

/-- `Session.RespondWithError(clientMessage, err)`. -/
def respondWithError (marshal : D Scalar → Res (List UInt8)) (w : ByteWriter GoError σ)
    (fuel : Nat) (clientMessage : Message) (err : Option RespError) (s : σ) : Res σ := do
  let doc ← simpleBSONConvert marshal (errBSON err)
  respond true w fuel clientMessage doc s

/-- `ProxySession.respondWithError(clientMessage, err)` (proxy.go), a copy of `RespondWithError`
that nothing calls: its switch has no case for the unacknowledged writes, and panics where the
other returns `ErrUnknownOpcode`. -/
def ProxySession.respondWithError (marshal : D Scalar → Res (List UInt8))
    (w : ByteWriter GoError σ) (fuel : Nat) (clientMessage : Message) (err : Option RespError)
    (s : σ) : Res σ := do
  let doc ← simpleBSONConvert marshal (errBSON err)
  let op := clientMessage.header.opCode
  let requestID := clientMessage.header.requestID
  if op = opQuery ∨ op = opGetMore then
    sendMessage w fuel (.reply ⟨⟨0, 17, requestID, opReply⟩, 0, 0, 0, 1, [doc]⟩) s
  else if op = opCommand then
    sendMessage w fuel
      (.commandReply ⟨⟨0, 17, requestID, opCommandReply⟩, doc, simpleBSONEmpty, []⟩) s
  else if op = opMsg then
    sendMessage w fuel (.msg ⟨⟨0, 17, requestID, opMsg⟩, 0, [.body ⟨doc⟩]⟩) s
  else .panic "impossible"

/-- The loop of `RespondToCommandMakeBSON` over the pairs of `args`: the document of the pairs,
and whether a name was `"ok"`; the first name that is not a string is an error. -/
def makeBSONPairs : List (Value Scalar) → Res (D Scalar × Bool)
  | [] => ok ([], false)
  | .scalar (.string name) :: v :: rest => do
    let (doc, gotOk) ← makeBSONPairs rest
    pure ((name, v) :: doc, name == "ok" || gotOk)
  | _ :: _ => .error (newStackErrorf "got a non string for bson name: %t" [])

/-- The document `RespondToCommandMakeBSON` builds of `args`: the pairs, then `ok: 1` if no name
was `"ok"`.  Its errors are `fmt.Errorf`s, by their format and arguments. -/
def makeBSON (args : List (Value Scalar)) : Res (D Scalar) :=
  if args.length % 2 = 1 then
    .error (newStackErrorf "magic bson has to be even # of args, got %d" [args.length])
  else do
    let (doc, gotOk) ← makeBSONPairs args
    pure (if gotOk then doc else doc ++ [("ok", .scalar (.int 1))])

/-- `Session.RespondToCommandMakeBSON(clientMessage, args...)`. -/
def respondToCommandMakeBSON (marshal : D Scalar → Res (List UInt8)) (w : ByteWriter GoError σ)
    (fuel : Nat) (clientMessage : Message) (args : List (Value Scalar)) (s : σ) : Res σ := do
  let doc2 ← simpleBSONConvert marshal (← makeBSON args)
  respondToCommand w fuel clientMessage doc2 s

/-! ## The replies reach the client -/

section Replies

variable {answersGetMore : Bool} {clientMessage : Message} {doc : SimpleBSON}

theorem SimpleBSON.WellFormed.length_bytes_le {d : SimpleBSON} (hd : d.WellFormed) :
    d.bytes.length ≤ 128 * 1024 * 1024 := by
  have := hd.le_max
  have := hd.size_eq
  rw [hd.bytes_eq]
  omega

/-- Every reply answers the client message (`ResponseTo` is its `RequestID`), is well-formed when
the document is, and is at most 36 bytes longer than the document. -/
theorem replyFor_wellFormed {rm : Message}
    (h : replyFor answersGetMore clientMessage doc = ok (some rm)) (hdoc : doc.WellFormed) :
    rm.WellFormed ∧ rm.header.responseTo = clientMessage.header.requestID ∧
      rm.encode.length ≤ doc.bytes.length + 36 := by
  have hlen := hdoc.length_bytes_le
  unfold replyFor at h
  dsimp only at h
  split_ifs at h
  all_goals cases h
  · -- OP_REPLY
    have hrm : (Message.reply ⟨⟨0, 17, clientMessage.header.requestID, opReply⟩, 0, 0, 0, 1,
        [doc]⟩).encode.length = doc.bytes.length + 36 := by
      simp only [Message.encode, ReplyMessage.encode, List.length_append, length_header_bytes,
        length_int32Bytes, length_int64Bytes, docsBytes_cons, docsBytes_nil, List.append_nil]
      omega
    exact ⟨⟨⟨rfl, by simpa using hdoc⟩, trivial, by omega⟩, rfl, by omega⟩
  · -- OP_COMMAND_REPLY, with the empty document as metadata
    have hempty : simpleBSONEmpty.bytes.length = 5 := rfl
    have hrm : (Message.commandReply ⟨⟨0, 17, clientMessage.header.requestID, opCommandReply⟩,
        doc, simpleBSONEmpty, []⟩).encode.length = doc.bytes.length + 21 := by
      simp only [Message.encode, CommandReplyMessage.encode, List.length_append,
        length_header_bytes, docsBytes_nil, List.append_nil, hempty]
      omega
    exact ⟨⟨⟨rfl, hdoc, (by decide : simpleBSONEmpty.WellFormed), by simp⟩, trivial, by omega⟩,
      rfl, by omega⟩
  · -- OP_MSG, with one body section
    have hrm : (Message.msg ⟨⟨0, 17, clientMessage.header.requestID, opMsg⟩, 0,
        [.body ⟨doc⟩]⟩).encode.length = doc.bytes.length + 21 := by
      simp only [Message.encode, MessageMessage.encode, List.length_append, length_header_bytes,
        length_int32Bytes, List.map_cons, List.map_nil, List.flatten_cons, List.flatten_nil,
        MessageMessageSection.encode, List.append_nil, List.length_cons]
      omega
    exact ⟨⟨⟨rfl, by simpa [MessageMessageSection.Decodable] using hdoc⟩,
      (by decide : (0 : Int32) &&& 1 = 0), by omega⟩, rfl, by omega⟩

theorem replyFor_returns : (replyFor answersGetMore clientMessage doc).Returns := by
  unfold replyFor
  dsimp only
  split_ifs <;> trivial

/-- The switch by the opcode of the client message: a reply to OP_QUERY, OP_COMMAND and OP_MSG,
and to OP_GET_MORE when `answersGetMore`; nothing to the unacknowledged writes; and
`ErrUnknownOpcode` to the rest. -/
theorem replyFor_cases (answersGetMore : Bool) (clientMessage : Message) (doc : SimpleBSON) :
    let op := clientMessage.header.opCode
    ((op = opQuery ∨ (answersGetMore = true ∧ op = opGetMore) ∨ op = opCommand ∨ op = opMsg) ∧
        ∃ rm, replyFor answersGetMore clientMessage doc = ok (some rm)) ∨
      (¬(op = opQuery ∨ (answersGetMore = true ∧ op = opGetMore) ∨ op = opCommand ∨ op = opMsg) ∧
        (op = opInsert ∨ op = opUpdate ∨ op = opDelete) ∧
        replyFor answersGetMore clientMessage doc = ok none) ∨
      (¬(op = opQuery ∨ (answersGetMore = true ∧ op = opGetMore) ∨ op = opCommand ∨ op = opMsg) ∧
        ¬(op = opInsert ∨ op = opUpdate ∨ op = opDelete) ∧
        replyFor answersGetMore clientMessage doc = .error errUnknownOpcode) := by
  intro op
  unfold replyFor
  dsimp only
  -- the opcodes are distinct constants, so each branch rules the others out
  by_cases hq : op = opQuery ∨ (answersGetMore = true ∧ op = opGetMore)
  · rw [if_pos hq]
    exact .inl ⟨by tauto, _, rfl⟩
  rw [if_neg hq]
  by_cases hw : op = opInsert ∨ op = opUpdate ∨ op = opDelete
  · rw [if_pos hw]
    refine .inr (.inl ⟨?_, hw, rfl⟩)
    rcases hw with h | h | h <;> rw [h] <;> cases answersGetMore <;> decide
  rw [if_neg hw]
  by_cases hc : op = opCommand
  · rw [if_pos hc]
    exact .inl ⟨by tauto, _, rfl⟩
  rw [if_neg hc]
  by_cases hm : op = opMsg
  · rw [if_pos hm]
    exact .inl ⟨by tauto, _, rfl⟩
  rw [if_neg hm]
  exact .inr (.inr ⟨by tauto, hw, rfl⟩)

theorem respond_of_replyFor_none {w : ByteWriter GoError σ} {fuel : Nat} {s : σ}
    (h : replyFor answersGetMore clientMessage doc = ok none) :
    respond answersGetMore w fuel clientMessage doc s = ok s := by
  unfold respond
  rw [h]
  rfl

theorem respond_of_replyFor_error {w : ByteWriter GoError σ} {fuel : Nat} {s : σ} {e : GoError}
    (h : replyFor answersGetMore clientMessage doc = .error e) :
    respond answersGetMore w fuel clientMessage doc s = .error e := by
  unfold respond
  rw [h]
  rfl

/-- **A session's answer reaches its client.**  Over a sink whose writes make progress, given
more writes than a reply to `doc` has bytes, `respond` neither panics nor runs out of writes.
When it succeeds, the stream has grown by nothing if `replyFor` sends nothing, and otherwise by
bytes that the client's `ReadMessage` reads back, to the last one, as the reply with its `Size`
set: a reply whose `ResponseTo` is the client message's `RequestID`. -/
theorem respond_readMessage {w : ByteWriter GoError σ} {out : σ → List UInt8} (hw : w.IsSink out)
    (hp : w.Progress) (hdoc : doc.WellFormed) {fuel : Nat} (hfuel : doc.bytes.length + 37 < fuel)
    (s : σ) :
    (respond answersGetMore w fuel clientMessage doc s).ReturnsWith fun s' =>
      (replyFor answersGetMore clientMessage doc = ok none ∧ out s' = out s) ∨
      ∃ rm bytes, replyFor answersGetMore clientMessage doc = ok (some rm) ∧
        out s' = out s ++ bytes ∧ readMessage fullReader bytes = ok (rm.withSize bytes.length, []) ∧
        rm.header.responseTo = clientMessage.header.requestID := by
  unfold respond
  refine ReturnsWith.bind ⟨replyFor_returns, fun _ h => h⟩ fun r hr => ?_
  cases r with
  | none => exact returnsWith_pure (.inl ⟨hr, rfl⟩)
  | some rm =>
    obtain ⟨hwf, hresp, hlen⟩ := replyFor_wellFormed hr hdoc
    refine (sendMessage_readMessage hw hp hwf (by omega) s).mono fun s' hsent => ?_
    obtain ⟨bytes, hout, hread⟩ := hsent
    exact .inr ⟨rm, bytes, hr, hout, hread, hresp⟩

theorem respond_readMessage_of_some {w : ByteWriter GoError σ} {out : σ → List UInt8}
    (hw : w.IsSink out) (hp : w.Progress) (hdoc : doc.WellFormed) {fuel : Nat}
    (hfuel : doc.bytes.length + 37 < fuel) (s : σ) {rm : Message}
    (hrm : replyFor answersGetMore clientMessage doc = ok (some rm)) :
    (respond answersGetMore w fuel clientMessage doc s).ReturnsWith fun s' =>
      ∃ bytes, out s' = out s ++ bytes ∧ readMessage fullReader bytes = ok (rm.withSize bytes.length, []) ∧
        rm.header.responseTo = clientMessage.header.requestID := by
  refine (respond_readMessage hw hp hdoc hfuel s).mono fun s' hs' => ?_
  rcases hs' with ⟨hnone, -⟩ | ⟨rm', bytes, hsome, hout, hread, hto⟩
  · rw [hrm] at hnone
    cases hnone
  · rw [hrm] at hsome
    cases hsome
    exact ⟨bytes, hout, hread, hto⟩

end Replies

/-! ## The proxy's view of `RespondWithError` -/

section Refines

variable {w : ByteWriter GoError σ} {out : σ → List UInt8} {clientMessage : Message}
  {doc : SimpleBSON}

theorem replyFor_true_cases (clientMessage : Message) (doc : SimpleBSON) :
    let op := clientMessage.header.opCode
    ((op = opQuery ∨ op = opGetMore ∨ op = opCommand ∨ op = opMsg) ∧
        ∃ rm, replyFor true clientMessage doc = ok (some rm)) ∨
      (¬(op = opQuery ∨ op = opGetMore ∨ op = opCommand ∨ op = opMsg) ∧
        (op = opInsert ∨ op = opUpdate ∨ op = opDelete) ∧ replyFor true clientMessage doc = ok none) ∨
      (¬(op = opQuery ∨ op = opGetMore ∨ op = opCommand ∨ op = opMsg) ∧
        ¬(op = opInsert ∨ op = opUpdate ∨ op = opDelete) ∧
        replyFor true clientMessage doc = .error errUnknownOpcode) := by
  have h := replyFor_cases true clientMessage doc
  simp only [true_and] at h
  exact h

theorem replyFor_true_iff_hasResponse {m : Message} (hop : m.header.opCode = m.opCodeOf)
    (doc : SimpleBSON) : (∃ rm, replyFor true m doc = ok (some rm)) ↔ m.hasResponse = true := by
  have hans : (m.header.opCode = opQuery ∨ m.header.opCode = opGetMore ∨
      m.header.opCode = opCommand ∨ m.header.opCode = opMsg) ↔ m.hasResponse = true := by
    rw [hop]
    cases m <;> simp [Message.opCodeOf, Message.hasResponse, opReply, opUpdate, opInsert, opQuery,
      opGetMore, opDelete, opKillCursors, opCommand, opCommandReply, opMsg]
  rcases replyFor_true_cases m doc with ⟨hq, hr⟩ | ⟨hq, -, hr⟩ | ⟨hq, -, hr⟩
  · exact ⟨fun _ => hans.mp hq, fun _ => hr⟩
  · rw [hr]
    refine ⟨?_, fun h => absurd (hans.mpr h) hq⟩
    rintro ⟨_, h⟩
    cases h
  · rw [hr]
    refine ⟨?_, fun h => absurd (hans.mpr h) hq⟩
    rintro ⟨_, h⟩
    cases h

/-- **What `ReadMessage` returns, the proxy's two tests of it agree on.**  Every message that
`ReadMessage` returns carries the opcode of its kind in its header, so that `doLoop`'s test of a
client message, `HasResponse()` on its kind, and the switch of `RespondWithError`, on its
header's opcode, agree: `RespondWithError` replies to it, whatever the document, exactly when
`HasResponse()` holds. -/
theorem readMessage_hasResponse {r : Reader GoError σ} {s s' : σ} {m : Message}
    (h : readMessage r s = ok (m, s')) :
    m.header.opCode = m.opCodeOf ∧
      ∀ doc, (∃ rm, replyFor true m doc = ok (some rm)) ↔ m.hasResponse = true := by
  obtain ⟨⟨size, body, s₁⟩, -, h⟩ := bind_eq_ok.mp h
  obtain ⟨m', hparse, h⟩ := bind_eq_ok.mp h
  cases h
  have hop : m.header.opCode = m.opCodeOf := (parseMessage_eq_ok hparse).2.1
  exact ⟨hop, replyFor_true_iff_hasResponse hop⟩

/-- The query of `newQueryMessage_readMessage_chunks`, read back: it expects an answer, and gets
one. -/
theorem readMessage_hasResponse_query :
    let m : Message := .query (newQueryMessage [116] 0 0 1 ⟨5, [5, 0, 0, 0, 0]⟩ SimpleBSON.zero)
    (m.withSize m.encode.length).header.opCode = (m.withSize m.encode.length).opCodeOf ∧
      ∀ doc, (∃ rm, replyFor true (m.withSize m.encode.length) doc = ok (some rm)) ↔
        (m.withSize m.encode.length).hasResponse = true := by
  intro m
  exact readMessage_hasResponse (newQueryMessage_wellFormed (by decide) (by decide) (.inr rfl)
    (by decide)).readMessage_withSize

/-- **`RespondWithError` refines the proxy's view of it.**  When `bson.Marshal` turns the error
document into well-formed bytes, over a sink whose writes make progress and with enough writes,
`RespondWithError` never panics nor runs out of writes, and each of its outcomes is one of
`Proxy.World.respondWithError`, the abstraction `doLoop`'s model runs: a return without error
is the outcome with a good write, in which the client was sent nothing or exactly the reply to
its message; an error is the outcome with a failed write. -/
theorem respondWithError_refines {marshal : D Scalar → Res (List UInt8)} {err : Option RespError}
    {raw : List UInt8} (hw : w.IsSink out) (hp : w.Progress) (hm : marshal (errBSON err) = ok raw)
    (hdoc : (⟨Int32.ofNat raw.length, raw⟩ : SimpleBSON).WellFormed) {fuel : Nat}
    (hfuel : raw.length + 37 < fuel) (s : σ) :
    (respondWithError marshal w fuel clientMessage err s).Returns ∧
      (∀ s', respondWithError marshal w fuel clientMessage err s = ok s' →
        ∃ d, Proxy.World.respondWithError clientMessage true = (d, false) ∧
          (d = none → out s' = out s) ∧
          (d = some (.errorResponse clientMessage : Proxy.Delivery) →
            ∃ (rm : Message) (bytes : List UInt8),
              replyFor true clientMessage ⟨Int32.ofNat raw.length, raw⟩ = ok (some rm) ∧
              out s' = out s ++ bytes ∧ readMessage fullReader bytes = ok (rm.withSize bytes.length, []) ∧
              rm.header.responseTo = clientMessage.header.requestID)) ∧
      (∀ e, respondWithError marshal w fuel clientMessage err s = .error e →
        Proxy.World.respondWithError clientMessage false = (none, true)) := by
  let doc : SimpleBSON := ⟨Int32.ofNat raw.length, raw⟩
  have hresp : respondWithError marshal w fuel clientMessage err s =
      respond true w fuel clientMessage doc s := by
    unfold respondWithError simpleBSONConvert
    rw [hm]
    rfl
  have hfuel' : doc.bytes.length + 37 < fuel := by
    rw [hdoc.bytes_eq]
    exact hfuel
  rw [hresp]
  unfold Proxy.World.respondWithError
  dsimp only
  -- the abstraction decides by the same opcode as the switch
  rcases replyFor_true_cases clientMessage doc with ⟨hop, rm, hrm⟩ | ⟨hop, hwr, hrm⟩ |
    ⟨hop, hwr, hrm⟩
  · -- a reply: it was sent and read back, or the write failed
    have hR := respond_readMessage_of_some hw hp hdoc hfuel' s hrm
    simp only [if_pos hop]
    refine ⟨hR.returns, fun s' hs' => ?_, fun _ _ => rfl⟩
    obtain ⟨bytes, hout, hread, hto⟩ := hR.of_ok hs'
    exact ⟨_, rfl, fun h => (by cases h), fun _ => ⟨rm, bytes, hrm, hout, hread, hto⟩⟩
  · -- an unacknowledged write: nothing is sent, and nothing can fail
    rw [respond_of_replyFor_none hrm]
    simp only [if_neg hop, if_pos hwr]
    refine ⟨trivial, fun s' hs' => ?_, fun e he => by cases he⟩
    cases hs'
    exact ⟨_, rfl, fun _ => rfl, fun h => (by cases h)⟩
  · rw [respond_of_replyFor_error hrm]
    simp only [if_neg hop, if_neg hwr]
    exact ⟨trivial, fun s' hs' => (by cases hs'), fun _ _ => trivial⟩

/-- An OP_MSG answered with the error "boom", whose document `{ok: 0, errmsg: "boom"}`
`bson.Marshal` writes as these 30 bytes: `ok` an `int32`, as the driver writes an `int` that fits. -/
theorem respondWithError_refines_msg :
    let marshal : D Scalar → Res (List UInt8) := fun _ => ok
      [30, 0, 0, 0, 16, 111, 107, 0, 0, 0, 0, 0, 2, 101, 114, 114, 109, 115, 103, 0, 5, 0, 0, 0, 98,
        111, 111, 109, 0, 0]
    let m : Message := .msg ⟨⟨0, 9, 0, opMsg⟩, 0, []⟩
    (respondWithError marshal chunkWriter 80 m (some (.other "boom")) ([], [3, 3, 3])).Returns ∧
      (∀ s', respondWithError marshal chunkWriter 80 m (some (.other "boom")) ([], [3, 3, 3]) =
          ok s' →
        ∃ d, Proxy.World.respondWithError m true = (d, false) ∧ (d = none → s'.1 = []) ∧
          (d = some (.errorResponse m) →
            ∃ (rm : Message) (bytes : List UInt8),
              replyFor true m ⟨Int32.ofNat 30, [30, 0, 0, 0, 16, 111, 107, 0, 0, 0, 0, 0, 2, 101, 114,
                114, 109, 115, 103, 0, 5, 0, 0, 0, 98, 111, 111, 109, 0, 0]⟩ = ok (some rm) ∧
              s'.1 = [] ++ bytes ∧ readMessage fullReader bytes = ok (rm.withSize bytes.length, []) ∧
              rm.header.responseTo = 9)) ∧
      (∀ e, respondWithError marshal chunkWriter 80 m (some (.other "boom")) ([], [3, 3, 3]) =
          .error e →
        Proxy.World.respondWithError m false = (none, true)) := by
  intro marshal m
  have hm : marshal (errBSON (some (.other "boom"))) = ok [30, 0, 0, 0, 16, 111, 107, 0, 0, 0, 0, 0,
      2, 101, 114, 114, 109, 115, 103, 0, 5, 0, 0, 0, 98, 111, 111, 109, 0, 0] := rfl
  exact respondWithError_refines chunkWriter_isSink chunkWriter_progress hm (by decide) (by decide) _

end Refines

/-! ## The documents -/

/-- The arguments of `RespondToCommandMakeBSON` that make the pairs `doc`. -/
def pairArgs (doc : D Scalar) : List (Value Scalar) :=
  doc.flatMap fun e => [.scalar (.string e.1), e.2]

theorem makeBSONPairs_eq_ok {args : List (Value Scalar)} {doc : D Scalar} {gotOk : Bool}
    (h : makeBSONPairs args = ok (doc, gotOk)) :
    args = pairArgs doc ∧ gotOk = (doc.lookup "ok").isSome := by
  induction args using makeBSONPairs.induct generalizing doc gotOk with
  | case1 =>
    cases h
    exact ⟨rfl, rfl⟩
  | case2 name v rest ih =>
    rw [makeBSONPairs, bind_eq_ok] at h
    obtain ⟨⟨doc', gotOk'⟩, hrest, h⟩ := h
    cases h
    obtain ⟨hargs, hok⟩ := ih hrest
    refine ⟨by simp [pairArgs, hargs], ?_⟩
    by_cases hname : name = "ok"
    · subst hname
      simp only [List.lookup_cons_self, beq_self_eq_true, Bool.true_or, Option.isSome_some]
    · -- another name: the answer is the rest's
      have hbeq : (name == "ok") = false := beq_eq_false_iff_ne.mpr hname
      have hbeq' : ("ok" == name) = false := beq_eq_false_iff_ne.mpr (Ne.symm hname)
      rw [hok, hbeq, Bool.false_or]
      simp only [List.lookup_cons, hbeq']
  | case3 x rest hx =>
    rw [makeBSONPairs.eq_3 x rest hx] at h
    cases h

/-- **The document of `RespondToCommandMakeBSON`.**  It is the pairs of the arguments, in order,
then `ok: 1` exactly when no name was `ok`: it always has an `ok` field. -/
theorem makeBSON_spec {args : List (Value Scalar)} {doc : D Scalar} (h : makeBSON args = ok doc) :
    ∃ pairs, args = pairArgs pairs ∧
      doc = pairs ++ (if (pairs.lookup "ok").isSome then [] else [("ok", .scalar (.int 1))]) ∧
      (doc.lookup "ok").isSome := by
  unfold makeBSON at h
  split_ifs at h with hodd
  obtain ⟨⟨pairs, gotOk⟩, hpairs, h⟩ := bind_eq_ok.mp h
  cases h
  obtain ⟨hargs, rfl⟩ := makeBSONPairs_eq_ok hpairs
  refine ⟨pairs, hargs, ?_, ?_⟩
  · cases (pairs.lookup "ok").isSome <;> simp
  · cases hok : (pairs.lookup "ok").isSome
    · simp [List.lookup_append]
    · simp [hok]

/-- Two arguments, no name `ok` among them: `ok: 1` is added. -/
theorem makeBSON_spec_pair :
    ∃ pairs, [.scalar (.string "n"), .scalar (.int 1)] = pairArgs pairs ∧
      [("n", .scalar (.int 1)), ("ok", .scalar (.int 1))] =
        pairs ++ (if (pairs.lookup "ok").isSome then [] else [("ok", .scalar (.int 1))]) ∧
      (([("n", .scalar (.int 1)), ("ok", .scalar (.int 1))] : D Scalar).lookup "ok").isSome :=
  makeBSON_spec (by rfl)

end Mongonet

