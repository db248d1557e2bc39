import Mongonet.Wire.Parse
import Mongonet.Go.IO

/-!
# Mongonet.Wire.Sock — `ReadMessage`

`ReadMessage(reader)` (sock.go) over any `io.Reader`, in three parts:
* `checkSize`: the two size checks, in `int32` arithmetic, giving the length of the body buffer;
* `readFrame`: one `Read` for the 4-byte size prefix, then the loop of `Read`s that fills the body
  buffer (a `Read` of zero bytes ends it early, leaving the rest of the buffer zero);
* `parseMessage`: the three header fields and the dispatch on the opcode.
`readMessage` is their composition and also returns the reader's state, that is, what is left of
the stream.
-/

namespace Mongonet

open Go

/-- The size checks of `ReadMessage`: the error for a refused size prefix, else the length
`header.Size - 4` (an `int32` subtraction) of the body buffer. -/
def checkSize (size : Int32) : Res Int32 :=
  if size.toInt > 200 * 1024 * 1024 then
    if size.toInt = 542393671 then
      .error (newStackErrorf "message too big, probably http request %d" [size.toInt])
    else .error (newStackErrorf "message too big %d" [size.toInt])
  else if (size - 4).toInt < 0 ∨ (size - 4).toInt > maxInt32 then
    .error (newStackErrorf "message header has invalid size (%v)." [size.toInt])
  else .ok (size - 4)

/-- The state of the body loop of `ReadMessage`: `read`, the buffer `restBuf`, the reader, and
whether the loop has hit its `break`. -/
structure ReadLoop (σ : Type) where
  read : Int
  restBuf : List UInt8
  reader : σ
  broke : Bool

variable {σ : Type}

/-- `for read := 0; int32(read) < header.Size-4; { n, err := reader.Read(restBuf[read:]); …;
if n == 0 { break }; read += n }`.  `Read` fills the front of `restBuf[read:]`, which shares
`restBuf`'s array. -/
def readLoop (r : Reader GoError σ) (bodyLen : Int32) : Nat → ReadLoop σ → Res (ReadLoop σ) :=
  loop (fun st => !st.broke && decide ((Int32.ofInt st.read).toInt < bodyLen.toInt)) fun st => do
    let p ← sliceFrom st.restBuf st.read
    let (data, err, s) := r.read st.reader p.length
    match err with
    | some e => .error e
    | none =>
      let restBuf := writeAt st.restBuf st.read.toNat data
      if data.length = 0 then pure ⟨st.read, restBuf, s, true⟩
      else pure ⟨st.read + data.length, restBuf, s, false⟩

/-- The reading half of `ReadMessage`: the size prefix and the filled body buffer, with the
reader's next state. -/
def readFrame (r : Reader GoError σ) (s : σ) : Res (Int32 × List UInt8 × σ) :=
  let (sizeBuf, err, s) := r.read s 4
  match err with
  | some e => .error e
  | none =>
    if sizeBuf.length ≠ 4 then
      .error (newStackErrorf "didn't read message size from socket, got %d" [sizeBuf.length])
    else do
      let size ← readInt32 sizeBuf
      let bodyLen ← checkSize size
      let restBuf ← make bodyLen.toInt 0
      let st ← readLoop r bodyLen (bodyLen.toInt.toNat + 1) ⟨0, restBuf, s, false⟩
      pure (size, st.restBuf, st.reader)

/-- The parsing half of `ReadMessage`: `RequestID`, `ResponseTo` and `OpCode` from the body
buffer, then the parser of the opcode on the rest. -/
def parseMessage (size : Int32) (restBuf : List UInt8) : Res Message :=
  if restBuf.length < 12 then
    .error (newStackErrorf ("invalid message header. either header.Size = %v is shorter than " ++
      "message length, or message is missing RequestId, ResponseTo, or OpCode fields.")
      [size.toInt])
  else do
    let requestID ← readInt32 restBuf
    let responseTo ← readInt32 (← sliceFrom restBuf 4)
    let opCode ← readInt32 (← sliceFrom restBuf 8)
    let header : MessageHeader := ⟨size, requestID, responseTo, opCode⟩
    let body ← sliceFrom restBuf 12
    if opCode = opReply then parseReplyMessage header body
    else if opCode = opUpdate then parseUpdateMessage header body
    else if opCode = opInsert then parseInsertMessage header body
    else if opCode = opQuery then parseQueryMessage header body
    else if opCode = opGetMore then parseGetMoreMessage header body
    else if opCode = opDelete then parseDeleteMessage header body
    else if opCode = opKillCursors then parseKillCursorsMessage header body
    else if opCode = opCommand then parseCommandMessage header body
    else if opCode = opCommandReply then parseCommandReplyMessage header body
    else if opCode = opMsg then parseMessageMessage header body
    else .error (newStackErrorf "unknown op code: %v" [opCode.toInt])

/-- `ReadMessage(reader)`, with what is left of the reader. -/
def readMessage (r : Reader GoError σ) (s : σ) : Res (Message × σ) := do
  let (size, restBuf, s) ← readFrame r s
  let m ← parseMessage size restBuf
  pure (m, s)

end Mongonet
