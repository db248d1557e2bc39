import Mongonet.Wire.Message
import Mongonet.Go.Result

/-!
# Mongonet.Wire.Parse — the ten body parsers

`parseReplyMessage` … `parseMessageMessage` (wire_*.go), each a function of the header that
`ReadMessage` has read and of the body bytes after it.  Every bound check, every error text and
every re-slice of the Go code is here; out-of-range slicing is a `panic` (`Go.sliceFrom`).  The
loops are `Go.loop`s with the buffer length plus one as their bound, which no loop reaches
(`Mongonet.Wire.Total`).

Where two parsers share a loop word for word (the document loops of OP_REPLY and OP_INSERT, and
of OP_COMMAND and OP_COMMAND_REPLY), the loop is one definition; so is the "parse a document,
check the length, re-slice" step that OP_COMMAND and OP_COMMAND_REPLY repeat four times.
-/

namespace Mongonet

open Go

/-! ## Shared loops and steps -/

/-- The document loop of `parseReplyMessage` and `parseInsertMessage`:
`for loc < len(buf) { doc, err := parseSimpleBSON(buf[loc:]); …; Docs = append(Docs, doc);
loc += int(doc.Size) }`. -/
def docsLoop (buf : List UInt8) : Nat → Int × List SimpleBSON → Res (Int × List SimpleBSON) :=
  loop (fun st => decide (st.1 < buf.length)) fun st => do
    let doc ← parseSimpleBSON (← sliceFrom buf st.1)
    pure (st.1 + doc.size.toInt, st.2 ++ [doc])

/-- The document loop of `parseCommandMessage` and `parseCommandReplyMessage`:
`for len(buf) > 0 { doc, err := parseSimpleBSON(buf); …; buf = buf[doc.Size:]; … }`. -/
def trailingDocsLoop : Nat → List UInt8 × List SimpleBSON → Res (List UInt8 × List SimpleBSON) :=
  loop (fun st => decide (0 < st.1.length)) fun st => do
    let doc ← parseSimpleBSON st.1
    let rest ← sliceFrom st.1 doc.size.toInt
    pure (rest, st.2 ++ [doc])

/-- `x, err = readCString(buf)`, the length check and `buf = buf[len(x)+1:]`, for the two
C strings of `parseCommandMessage`. -/
def nextCString (buf : List UInt8) : Res (List UInt8 × List UInt8) := do
  let s ← readCString buf
  if buf.length < s.length + 1 then
    .error (newStackErrorf "invalid command message -- message length is too short." [])
  else do
    let rest ← sliceFrom buf (s.length + 1)
    pure (s, rest)

/-- `x, err = parseSimpleBSON(buf)`, the length check and `buf = buf[x.Size:]`, for the two
fixed documents of `parseCommandMessage` and of `parseCommandReplyMessage`. -/
def nextBSON (buf : List UInt8) : Res (SimpleBSON × List UInt8) := do
  let doc ← parseSimpleBSON buf
  if (buf.length : Int) < doc.size.toInt then
    .error (newStackErrorf "invalid command message -- message length is too short." [])
  else do
    let rest ← sliceFrom buf doc.size.toInt
    pure (doc, rest)

/-! ## The legacy opcodes -/

/-- `parseReplyMessage`. -/
def parseReplyMessage (header : MessageHeader) (buf : List UInt8) : Res Message :=
  if buf.length < 20 then
    .error (newStackErrorf
      "invalid reply message -- message must have length of at least 20 bytes." [])
  else do
    let flags ← readInt32 (← sliceFrom buf 0)
    let cursorId ← readInt64 (← sliceFrom buf 4)
    let startingFrom ← readInt32 (← sliceFrom buf 12)
    let numberReturned ← readInt32 (← sliceFrom buf 16)
    let (_, docs) ← docsLoop buf (buf.length + 1) (20, [])
    pure (.reply ⟨header, flags, cursorId, startingFrom, numberReturned, docs⟩)

/-- `parseUpdateMessage`.  After `Update` the Go code advances `loc` by `Filter.Size`; `loc` is
not read again, so that step is left out. -/
def parseUpdateMessage (header : MessageHeader) (buf : List UInt8) : Res Message :=
  if buf.length < 4 then
    .error (newStackErrorf
      "invalid update message -- message must have length of at least 4 bytes." [])
  else do
    let reserved ← readInt32 (← sliceFrom buf 0)
    let ns ← readCString (← sliceFrom buf 4)
    let loc : Int := 4 + ns.length + 1
    if (buf.length : Int) < loc + 4 then
      .error (newStackErrorf "invalid update message -- message length is too short." [])
    else do
      let flags ← readInt32 (← sliceFrom buf loc)
      let filter ← parseSimpleBSON (← sliceFrom buf (loc + 4))
      let loc := loc + 4 + filter.size.toInt
      if (buf.length : Int) < loc then
        .error (newStackErrorf "invalid update message -- message length is too short." [])
      else do
        let update ← parseSimpleBSON (← sliceFrom buf loc)
        pure (.update ⟨header, reserved, ns, flags, filter, update⟩)

/-- `parseInsertMessage`. -/
def parseInsertMessage (header : MessageHeader) (buf : List UInt8) : Res Message :=
  if buf.length < 4 then
    .error (newStackErrorf
      "invalid insert message -- message must have length of at least 4 bytes." [])
  else do
    let flags ← readInt32 (← sliceFrom buf 0)
    let ns ← readCString (← sliceFrom buf 4)
    let (_, docs) ← docsLoop buf (buf.length + 1) (4 + ns.length + 1, [])
    pure (.insert ⟨header, flags, ns, docs⟩)

/-- `parseQueryMessage`.  The projection is read only if bytes are left after the query; else it
keeps its zero value. -/
def parseQueryMessage (header : MessageHeader) (buf : List UInt8) : Res Message :=
  if buf.length < 4 then
    .error (newStackErrorf
      "invalid query message -- message must have length of at least 4 bytes." [])
  else do
    let flags ← readInt32 buf
    let ns ← readCString (← sliceFrom buf 4)
    let loc : Int := 4 + ns.length + 1
    if (buf.length : Int) < loc + 8 then
      .error (newStackErrorf "invalid query message -- message length is too short." [])
    else do
      let skip ← readInt32 (← sliceFrom buf loc)
      let nReturn ← readInt32 (← sliceFrom buf (loc + 4))
      let query ← parseSimpleBSON (← sliceFrom buf (loc + 8))
      let loc := loc + 8 + query.size.toInt
      let project ← if loc < buf.length then (do parseSimpleBSON (← sliceFrom buf loc))
        else pure SimpleBSON.zero
      pure (.query ⟨header, flags, ns, skip, nReturn, query, project⟩)

/-- `parseGetMoreMessage`. -/
def parseGetMoreMessage (header : MessageHeader) (buf : List UInt8) : Res Message :=
  if buf.length < 4 then
    .error (newStackErrorf
      "invalid get more message -- message must have length of at least 4 bytes." [])
  else do
    let reserved ← readInt32 buf
    let ns ← readCString (← sliceFrom buf 4)
    let loc : Int := 4 + ns.length + 1
    if (buf.length : Int) < loc + 12 then
      .error (newStackErrorf "invalid get more message -- message length is too short." [])
    else do
      let nReturn ← readInt32 (← sliceFrom buf loc)
      let cursorId ← readInt64 (← sliceFrom buf (loc + 4))
      pure (.getMore ⟨header, reserved, ns, nReturn, cursorId⟩)

/-- `parseDeleteMessage`. -/
def parseDeleteMessage (header : MessageHeader) (buf : List UInt8) : Res Message :=
  if buf.length < 4 then
    .error (newStackErrorf
      "invalid delete message -- message must have length of at least 4 bytes." [])
  else do
    let reserved ← readInt32 (← sliceFrom buf 0)
    let ns ← readCString (← sliceFrom buf 4)
    let loc : Int := 4 + ns.length + 1
    if (buf.length : Int) < loc + 4 then
      .error (newStackErrorf "invalid delete message -- message length is too short." [])
    else do
      let flags ← readInt32 (← sliceFrom buf loc)
      let filter ← parseSimpleBSON (← sliceFrom buf (loc + 4))
      pure (.delete ⟨header, reserved, ns, flags, filter⟩)

/-- The loop of `parseKillCursorsMessage`, state `(i, loc, CursorIds)`:
`for i := 0; i < int(NumCursors); i++ { CursorIds[i] = readInt64(buf[loc:]); loc += 8 }`. -/
def cursorIdsLoop (buf : List UInt8) (numCursors : Int) :
    Nat → Int × Int × List Int64 → Res (Int × Int × List Int64) :=
  loop (fun st => decide (st.1 < numCursors)) fun st => do
    let c ← readInt64 (← sliceFrom buf st.2.1)
    let ids ← setIndex st.2.2 st.1 c
    pure (st.1 + 1, st.2.1 + 8, ids)

/-- `parseKillCursorsMessage`.  The length is compared with `NumCursors * 8` before the sign of
`NumCursors` is checked, as in the Go code. -/
def parseKillCursorsMessage (header : MessageHeader) (buf : List UInt8) : Res Message :=
  if buf.length < 8 then
    .error (newStackErrorf
      "invalid kill cursors message -- message must have length of at least 8 bytes." [])
  else do
    let reserved ← readInt32 buf
    let numCursors ← readInt32 (← sliceFrom buf 4)
    let rest ← sliceFrom buf 8
    if (rest.length : Int) < numCursors.toInt * 8 then
      .error (newStackErrorf ("invalid kill cursors message -- NumCursors = %v is larger than " ++
        "number of cursors in message") [numCursors.toInt])
    else if numCursors.toInt < 0 ∨ numCursors.toInt > maxInt32 then
      .error (newStackErrorf "number of cursors has invalid size (%v)." [numCursors.toInt])
    else do
      let ids ← make numCursors.toInt 0
      let (_, _, ids) ← cursorIdsLoop buf numCursors.toInt (numCursors.toInt.toNat + 1) (0, 8, ids)
      pure (.killCursors ⟨header, reserved, numCursors, ids⟩)

/-- `parseCommandMessage`. -/
def parseCommandMessage (header : MessageHeader) (buf : List UInt8) : Res Message := do
  let (db, buf) ← nextCString buf
  let (cmdName, buf) ← nextCString buf
  let (commandArgs, buf) ← nextBSON buf
  let (metadata, buf) ← nextBSON buf
  let (_, inputDocs) ← trailingDocsLoop (buf.length + 1) (buf, [])
  pure (.command ⟨header, db, cmdName, commandArgs, metadata, inputDocs⟩)

/-- `parseCommandReplyMessage`. -/
def parseCommandReplyMessage (header : MessageHeader) (buf : List UInt8) : Res Message := do
  let (commandReply, buf) ← nextBSON buf
  let (metadata, buf) ← nextBSON buf
  let (_, outputDocs) ← trailingDocsLoop (buf.length + 1) (buf, [])
  pure (.commandReply ⟨header, commandReply, metadata, outputDocs⟩)

/-! ## OP_MSG -/

/-- `parseBodySection(buf, &loc)`. -/
def parseBodySection (buf : List UInt8) (loc : Int) : Res (MessageMessageSection × Int) := do
  let body ← parseSimpleBSON (← sliceFrom buf loc)
  pure (.body ⟨body⟩, loc + body.size.toInt)

/-- The document loop of `parseDocumentSequenceSection`, state
`(expectedSizeRemaining, loc, docs, docNum)`; `expectedSizeRemaining` is an `int32`. -/
def docSeqLoop (buf : List UInt8) :
    Nat → Int32 × Int × List SimpleBSON × Int → Res (Int32 × Int × List SimpleBSON × Int) :=
  loop (fun st => decide (0 < st.1.toInt)) fun st => do
    let doc ← parseSimpleBSON (← sliceFrom buf st.2.1)
    if st.1.toInt < doc.size.toInt then
      .error (newStackErrorf ("invalid Document Sequence section -- size of document %v " ++
        "(starting from 0) (%v bytes) overruns end of section (%v bytes left)")
        [st.2.2.2, doc.size.toInt, st.1.toInt])
    else pure (st.1 - doc.size, st.2.1 + doc.size.toInt, st.2.2.1 ++ [doc], st.2.2.2 + 1)

/-- `parseDocumentSequenceSection(buf, &loc)`.  The declared size is checked against the bytes
left only from above; the header and the identifier are subtracted in `int32` arithmetic. -/
def parseDocumentSequenceSection (buf : List UInt8) (loc : Int) :
    Res (MessageMessageSection × Int) := do
  let rest ← sliceFrom buf loc
  if rest.length < 4 then
    .error (newStackErrorf
      "invalid Document Sequence section -- section must have a length of at least 4 bytes." [])
  else do
    let expected ← readInt32 rest
    if expected.toInt > rest.length then
      .error (newStackErrorf
        "invalid Document Sequence section -- section size is larger than message." [])
    else do
      let sequenceId ← readCString (← sliceFrom buf (loc + 4))
      let expected := expected - 4 - Int32.ofNat (sequenceId.length + 1)
      let loc := loc + 4 + sequenceId.length + 1
      let (_, loc, docs, _) ← docSeqLoop buf (buf.length + 1) (expected, loc, [], 0)
      pure (.docSeq ⟨sequenceId, docs⟩, loc)

/-- `parseMessageMessageSection(buf, &loc)`: the kind byte, then the section.  The error for an
unknown kind prints `buf[0]`, not the kind byte. -/
def parseMessageMessageSection (buf : List UInt8) (loc : Int) :
    Res (MessageMessageSection × Int) := do
  let kind ← index buf loc
  if kind = 0 then parseBodySection buf (loc + 1)
  else if kind = 1 then parseDocumentSequenceSection buf (loc + 1)
  else do
    let b0 ← index buf 0
    .error (newStackErrorf "invalid message message -- unknown section kind: %v" [b0.toNat])

/-- The section loop of `parseMessageMessage`: `for (len(buf) - loc) >= 5 { … }`. -/
def sectionsLoop (buf : List UInt8) :
    Nat → Int × List MessageMessageSection → Res (Int × List MessageMessageSection) :=
  loop (fun st => decide (5 ≤ (buf.length : Int) - st.1)) fun st => do
    let (sec, loc) ← parseMessageMessageSection buf st.1
    pure (loc, st.2 ++ [sec])

/-- `parseMessageMessage`. -/
def parseMessageMessage (header : MessageHeader) (buf : List UInt8) : Res Message :=
  if buf.length < 4 then
    .error (newStackErrorf
      "invalid message message -- message must have a length of at least 4 bytes." [])
  else do
    let flagBits ← readInt32 buf
    let (_, sections) ← sectionsLoop buf (buf.length + 1) (4, [])
    pure (.msg ⟨header, flagBits, sections⟩)

end Mongonet
