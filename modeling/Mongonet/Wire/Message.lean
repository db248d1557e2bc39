import Mongonet.Wire.Util

/-!
# Mongonet.Wire.Message — the ten message kinds

The structs of wire.go and the `Message` interface, whose ten implementations become the ten
constructors of `Message`.  `HasResponse` and `Header` are the interface's other two methods;
`Serialize` is in `Mongonet.Wire.Serialize`.  The OP_MSG sections are the two implementations of
`MessageMessageSection` (wire_message.go).  The Go field `Namespace` is `ns`, the Lean keyword
being taken.
-/

namespace Mongonet

/-- `ReplyMessage` (OP_REPLY). -/
structure ReplyMessage where
  header : MessageHeader
  flags : Int32
  cursorId : Int64
  startingFrom : Int32
  numberReturned : Int32
  docs : List SimpleBSON
  deriving Repr, DecidableEq

/-- `UpdateMessage` (OP_UPDATE). -/
structure UpdateMessage where
  header : MessageHeader
  reserved : Int32
  ns : List UInt8
  flags : Int32
  filter : SimpleBSON
  update : SimpleBSON
  deriving Repr, DecidableEq

/-- `QueryMessage` (OP_QUERY). -/
structure QueryMessage where
  header : MessageHeader
  flags : Int32
  ns : List UInt8
  skip : Int32
  nReturn : Int32
  query : SimpleBSON
  project : SimpleBSON
  deriving Repr, DecidableEq

/-- `GetMoreMessage` (OP_GET_MORE). -/
structure GetMoreMessage where
  header : MessageHeader
  reserved : Int32
  ns : List UInt8
  nReturn : Int32
  cursorId : Int64
  deriving Repr, DecidableEq

/-- `InsertMessage` (OP_INSERT). -/
structure InsertMessage where
  header : MessageHeader
  flags : Int32
  ns : List UInt8
  docs : List SimpleBSON
  deriving Repr, DecidableEq

/-- `DeleteMessage` (OP_DELETE). -/
structure DeleteMessage where
  header : MessageHeader
  reserved : Int32
  ns : List UInt8
  flags : Int32
  filter : SimpleBSON
  deriving Repr, DecidableEq

/-- `KillCursorsMessage` (OP_KILL_CURSORS). -/
structure KillCursorsMessage where
  header : MessageHeader
  reserved : Int32
  numCursors : Int32
  cursorIds : List Int64
  deriving Repr, DecidableEq

/-- `CommandMessage` (OP_COMMAND). -/
structure CommandMessage where
  header : MessageHeader
  db : List UInt8
  cmdName : List UInt8
  commandArgs : SimpleBSON
  metadata : SimpleBSON
  inputDocs : List SimpleBSON
  deriving Repr, DecidableEq

/-- `CommandReplyMessage` (OP_COMMAND_REPLY). -/
structure CommandReplyMessage where
  header : MessageHeader
  commandReply : SimpleBSON
  metadata : SimpleBSON
  outputDocs : List SimpleBSON
  deriving Repr, DecidableEq

/-- `BodySection`. -/
structure BodySection where
  body : SimpleBSON
  deriving Repr, DecidableEq

/-- `DocumentSequenceSection`. -/
structure DocumentSequenceSection where
  sequenceId : List UInt8
  documents : List SimpleBSON
  deriving Repr, DecidableEq

/-- `MessageMessageSection`: a body or a document sequence. -/
inductive MessageMessageSection where
  | body (s : BodySection)
  | docSeq (s : DocumentSequenceSection)
  deriving Repr, DecidableEq

/-- `MessageMessage` (OP_MSG); the checksum is not implemented. -/
structure MessageMessage where
  header : MessageHeader
  flagBits : Int32
  sections : List MessageMessageSection
  deriving Repr, DecidableEq

/-- `Message`: one constructor per implementation of the interface. -/
inductive Message where
  | reply (m : ReplyMessage)
  | update (m : UpdateMessage)
  | insert (m : InsertMessage)
  | query (m : QueryMessage)
  | getMore (m : GetMoreMessage)
  | delete (m : DeleteMessage)
  | killCursors (m : KillCursorsMessage)
  | command (m : CommandMessage)
  | commandReply (m : CommandReplyMessage)
  | msg (m : MessageMessage)
  deriving Repr, DecidableEq

namespace Message

/-- `Header()`. -/
def header : Message → MessageHeader
  | reply m => m.header
  | update m => m.header
  | insert m => m.header
  | query m => m.header
  | getMore m => m.header
  | delete m => m.header
  | killCursors m => m.header
  | command m => m.header
  | commandReply m => m.header
  | msg m => m.header

/-- `HasResponse()`: false for the two replies ("because its a response") and for the three
unacknowledged writes and OP_KILL_CURSORS. -/
def hasResponse : Message → Bool
  | reply _ => false
  | update _ => false
  | insert _ => false
  | query _ => true
  | getMore _ => true
  | delete _ => false
  | killCursors _ => false
  | command _ => true
  | commandReply _ => false
  | msg _ => true

end Message

end Mongonet
