import Mongonet.Wire.Message
import Mongonet.Wire.Sock

/-!
# Mongonet.Wire.Serialize — the ten serializers

`Serialize()` of each message kind (wire_*.go): compute the total size, `make` a buffer of that
size, write the header with the new size, then the fields at fixed offsets or at a running `loc`.
Documents are copied with `SimpleBSON.Copy`, which copies `len(BSON)` bytes (as many as fit) and
advances by `Size`; OP_REPLY copies its documents inline and advances by `len(BSON)`.  OP_MSG
sizes are `int32` sums; the other kinds sum in `int` and store `int32(size)` in the header.

Every write is bound-checked, so a size that disagrees with the fields shows up as a `panic`.
`Serialize` also stores the new size in `m.header.Size`; no modelled code reads it afterwards, so
the serializers return only the bytes.
-/

namespace Mongonet

open Go

/-- `for _, d := range docs { d.Copy(&loc, buf) }`. -/
def copyDocs (docs : List SimpleBSON) (buf : List UInt8) (loc : Int) : Res (List UInt8 × Int) :=
  docs.foldlM (fun st d => d.copy st.2 st.1) (buf, loc)

/-- The `int` sum of the documents' `Size`s. -/
def docsSize (docs : List SimpleBSON) : Int := (docs.map fun d => d.size.toInt).sum

/-- `ReplyMessage.Serialize`. -/
def ReplyMessage.serialize (m : ReplyMessage) : Res (List UInt8) := do
  let size : Int := 16 + 20 + docsSize m.docs
  let buf ← make size (0 : UInt8)
  let buf ← { m.header with size := Int32.ofInt size }.writeInto buf
  let buf ← writeInt32 m.flags buf 16
  let buf ← writeInt64 m.cursorId buf 20
  let buf ← writeInt32 m.startingFrom buf 28
  let buf ← writeInt32 m.numberReturned buf 32
  -- `copy(buf[loc:], d.BSON); loc += len(d.BSON)`
  let (buf, _) ← m.docs.foldlM (fun st d => do
    let buf ← copyAt st.1 st.2 d.bson
    pure (buf, st.2 + d.bson.length)) (buf, (36 : Int))
  pure buf

/-- **`ReplyMessage.Serialize` panics on a reply that `ReadMessage` reads.**  A size-0 document is
the parsers' shortcut: its `Size` is 4 and its `BSON` the rest of the body, here 14 bytes.  The
parser advances by `Size` and reads two more documents after it; `Serialize` sizes its buffer by
`Size`, 50 bytes, but advances by `len(BSON)`, so the first copy ends at 50 and the second asks for
`buf[55:]`.  The proxy calls it through `SendMessage`, on a client's message and on mongod's. -/
theorem replyMessage_serialize_shortcut_panic :
    readMessage fullReader ([50, 0, 0, 0, 0, 0, 0, 0, 0, 0, 0, 0, 1, 0, 0, 0, 0, 0, 0, 0, 0, 0, 0,
      0, 0, 0, 0, 0, 0, 0, 0, 0, 3, 0, 0, 0, 0, 0, 0, 0, 5, 0, 0, 0, 0, 5, 0, 0, 0, 0] : List UInt8) =
      .ok (.reply ⟨⟨50, 0, 0, 1⟩, 0, 0, 0, 3, [⟨4, [0, 0, 0, 0, 5, 0, 0, 0, 0, 5, 0, 0, 0, 0]⟩,
        ⟨5, [5, 0, 0, 0, 0]⟩, ⟨5, [5, 0, 0, 0, 0]⟩]⟩, []) ∧
    ReplyMessage.serialize ⟨⟨50, 0, 0, 1⟩, 0, 0, 0, 3, [⟨4, [0, 0, 0, 0, 5, 0, 0, 0, 0, 5, 0, 0, 0,
      0]⟩, ⟨5, [5, 0, 0, 0, 0]⟩, ⟨5, [5, 0, 0, 0, 0]⟩]⟩ = .panic "slice bounds out of range" := by
  constructor
  · decide
  · decide

/-- `UpdateMessage.Serialize`; the reserved field is written as `0`. -/
def UpdateMessage.serialize (m : UpdateMessage) : Res (List UInt8) := do
  let size : Int := 16 + 8 + (m.ns.length + 1) + m.filter.size.toInt + m.update.size.toInt
  let buf ← make size (0 : UInt8)
  let buf ← { m.header with size := Int32.ofInt size }.writeInto buf
  let buf ← writeInt32 0 buf 16
  let (buf, loc) ← writeCString m.ns buf 20
  let buf ← writeInt32 m.flags buf loc
  let (buf, loc) ← m.filter.copy (loc + 4) buf
  let (buf, _) ← m.update.copy loc buf
  pure buf

/-- `QueryMessage.Serialize`. -/
def QueryMessage.serialize (m : QueryMessage) : Res (List UInt8) := do
  let size : Int := 16 + 12 + (m.ns.length + 1) + m.query.size.toInt + m.project.size.toInt
  let buf ← make size (0 : UInt8)
  let buf ← { m.header with size := Int32.ofInt size }.writeInto buf
  let buf ← writeInt32 m.flags buf 16
  let (buf, loc) ← writeCString m.ns buf 20
  let buf ← writeInt32 m.skip buf loc
  let buf ← writeInt32 m.nReturn buf (loc + 4)
  let (buf, loc) ← m.query.copy (loc + 8) buf
  let (buf, _) ← m.project.copy loc buf
  pure buf

/-- `GetMoreMessage.Serialize`; the reserved field is written as `0`. -/
def GetMoreMessage.serialize (m : GetMoreMessage) : Res (List UInt8) := do
  let size : Int := 16 + 16 + (m.ns.length + 1)
  let buf ← make size (0 : UInt8)
  let buf ← { m.header with size := Int32.ofInt size }.writeInto buf
  let buf ← writeInt32 0 buf 16
  let (buf, loc) ← writeCString m.ns buf 20
  let buf ← writeInt32 m.nReturn buf loc
  writeInt64 m.cursorId buf (loc + 4)

/-- `InsertMessage.Serialize`. -/
def InsertMessage.serialize (m : InsertMessage) : Res (List UInt8) := do
  let size : Int := 16 + 4 + (m.ns.length + 1) + docsSize m.docs
  let buf ← make size (0 : UInt8)
  let buf ← { m.header with size := Int32.ofInt size }.writeInto buf
  let buf ← writeInt32 m.flags buf 16
  let (buf, loc) ← writeCString m.ns buf 20
  let (buf, _) ← copyDocs m.docs buf loc
  pure buf

/-- `DeleteMessage.Serialize`; the reserved field is written as `0`. -/
def DeleteMessage.serialize (m : DeleteMessage) : Res (List UInt8) := do
  let size : Int := 16 + 8 + (m.ns.length + 1) + m.filter.size.toInt
  let buf ← make size (0 : UInt8)
  let buf ← { m.header with size := Int32.ofInt size }.writeInto buf
  let buf ← writeInt32 0 buf 16
  let (buf, loc) ← writeCString m.ns buf 20
  let buf ← writeInt32 m.flags buf loc
  let (buf, _) ← m.filter.copy (loc + 4) buf
  pure buf

/-- `KillCursorsMessage.Serialize`: the size comes from `NumCursors`, the written ids from
`CursorIds`; the reserved field is written as `0`. -/
def KillCursorsMessage.serialize (m : KillCursorsMessage) : Res (List UInt8) := do
  let size : Int := 16 + 8 + 8 * m.numCursors.toInt
  let buf ← make size (0 : UInt8)
  let buf ← { m.header with size := Int32.ofInt size }.writeInto buf
  let buf ← writeInt32 0 buf 16
  let buf ← writeInt32 m.numCursors buf 20
  let (buf, _) ← m.cursorIds.foldlM (fun st c => do
    let buf ← writeInt64 c st.1 st.2
    pure (buf, st.2 + 8)) (buf, (24 : Int))
  pure buf

/-- `CommandMessage.Serialize`. -/
def CommandMessage.serialize (m : CommandMessage) : Res (List UInt8) := do
  let size : Int := 16 + (m.db.length + 1) + (m.cmdName.length + 1) + m.commandArgs.size.toInt +
    m.metadata.size.toInt + docsSize m.inputDocs
  let buf ← make size (0 : UInt8)
  let buf ← { m.header with size := Int32.ofInt size }.writeInto buf
  let (buf, loc) ← writeCString m.db buf 16
  let (buf, loc) ← writeCString m.cmdName buf loc
  let (buf, loc) ← m.commandArgs.copy loc buf
  let (buf, loc) ← m.metadata.copy loc buf
  let (buf, _) ← copyDocs m.inputDocs buf loc
  pure buf

/-- `CommandReplyMessage.Serialize`. -/
def CommandReplyMessage.serialize (m : CommandReplyMessage) : Res (List UInt8) := do
  let size : Int := 16 + m.commandReply.size.toInt + m.metadata.size.toInt + docsSize m.outputDocs
  let buf ← make size (0 : UInt8)
  let buf ← { m.header with size := Int32.ofInt size }.writeInto buf
  let (buf, loc) ← m.commandReply.copy 16 buf
  let (buf, loc) ← m.metadata.copy loc buf
  let (buf, _) ← copyDocs m.outputDocs buf loc
  pure buf

/-! ## OP_MSG -/

/-- `BodySection.Size()`: the kind byte and the body. -/
def BodySection.size (bs : BodySection) : Int32 := 1 + bs.body.size

/-- `DocumentSequenceSection.Size()`: kind byte, size field, identifier with its NUL, documents,
summed in `int32`. -/
def DocumentSequenceSection.size (dss : DocumentSequenceSection) : Int32 :=
  (dss.documents.map (·.size)).foldl (· + ·) (5 + (Int32.ofNat dss.sequenceId.length + 1))

/-- `BodySection.WriteInto(buf, &loc)`. -/
def BodySection.writeInto (bs : BodySection) (buf : List UInt8) (loc : Int) :
    Res (List UInt8 × Int) := do
  let buf ← setIndex buf loc 0
  bs.body.copy (loc + 1) buf

/-- `DocumentSequenceSection.WriteInto(buf, &loc)`: the size written is `Size() - 1`, the kind
byte not being counted. -/
def DocumentSequenceSection.writeInto (dss : DocumentSequenceSection) (buf : List UInt8)
    (loc : Int) : Res (List UInt8 × Int) := do
  let buf ← setIndex buf loc 1
  let buf ← writeInt32 (dss.size - 1) buf (loc + 1)
  let (buf, loc) ← writeCString dss.sequenceId buf (loc + 5)
  copyDocs dss.documents buf loc

namespace MessageMessageSection

/-- `Size()` of a section. -/
def size : MessageMessageSection → Int32
  | body s => s.size
  | docSeq s => s.size

/-- `WriteInto(buf, &loc)` of a section. -/
def writeInto : MessageMessageSection → List UInt8 → Int → Res (List UInt8 × Int)
  | body s => s.writeInto
  | docSeq s => s.writeInto

end MessageMessageSection

/-- `MessageMessage.Serialize`: the flag bits are written with bit 0 (`checksumPresent`)
cleared, `flags &^= 1`. -/
def MessageMessage.serialize (m : MessageMessage) : Res (List UInt8) := do
  let size : Int32 := (m.sections.map MessageMessageSection.size).foldl (· + ·) (16 + 4)
  let buf ← make size.toInt (0 : UInt8)
  let buf ← { m.header with size := size }.writeInto buf
  let buf ← writeInt32 (m.flagBits &&& ~~~1) buf 16
  let (buf, _) ← m.sections.foldlM (fun st s => s.writeInto st.1 st.2) (buf, (20 : Int))
  pure buf

/-- `Serialize()`. -/
def Message.serialize : Message → Res (List UInt8)
  | .reply m => m.serialize
  | .update m => m.serialize
  | .insert m => m.serialize
  | .query m => m.serialize
  | .getMore m => m.serialize
  | .delete m => m.serialize
  | .killCursors m => m.serialize
  | .command m => m.serialize
  | .commandReply m => m.serialize
  | .msg m => m.serialize

end Mongonet
