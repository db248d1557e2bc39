import Mongonet.Go.Bytes

/-!
# Mongonet.Wire.Util — errors, fixed-width fields, C strings and `SimpleBSON`

The helpers every message codec is built from: `NewStackErrorf` (util.go), the opcodes and the
header of wire.go, `readInt32` … `writeCString` (wireutil.go), and `SimpleBSON` with
`parseSimpleBSON` and `Copy` (bsonutil.go).

Go strings are byte strings and are `List UInt8` here.  Go `int` is `Int`: every `int` the
codecs compute is a buffer position or length, far from the 64-bit bounds.  `int32` and `int64`
are `Int32` and `Int64`, with Go's wrapping arithmetic.
-/

namespace Mongonet

open Go

/-- The errors of the modelled functions. -/
inductive GoError where
  /-- `io.EOF`. -/
  | eof
  /-- Any other error of a `Read` or `Write` on a socket (closed, reset, timed out). -/
  | io (code : Nat)
  /-- An error made by `NewStackErrorf(messageFmt, args...)`; the stack trace is left out. -/
  | stack (messageFmt : String) (args : List Int)
  deriving Repr, DecidableEq

/-- `NewStackErrorf` (util.go). -/
def newStackErrorf (messageFmt : String) (args : List Int) : GoError := .stack messageFmt args

/-- The monad of the modelled Go code. -/
abbrev Res := Result GoError

/-- `MaxInt32` (sock.go). -/
def maxInt32 : Int := 2147483647

/-! ## Opcodes and the header (wire.go) -/

/-! The opcode constants `OP_REPLY` … `OP_MSG`. -/

def opReply : Int32 := 1
def opUpdate : Int32 := 2001
def opInsert : Int32 := 2002
def opQuery : Int32 := 2004
def opGetMore : Int32 := 2005
def opDelete : Int32 := 2006
def opKillCursors : Int32 := 2007
def opCommand : Int32 := 2010
def opCommandReply : Int32 := 2011
def opMsg : Int32 := 2013

/-- `MessageHeader`. -/
structure MessageHeader where
  size : Int32
  requestID : Int32
  responseTo : Int32
  opCode : Int32
  deriving Repr, DecidableEq

/-! ## Fixed-width fields (wireutil.go) -/

/-- `readInt32`: the little-endian `int32` in `b[0:4]`.  The Go code ORs the shifted bytes; they
do not overlap, so the OR is the little-endian value. -/
def readInt32 : List UInt8 → Res Int32
  | b0 :: b1 :: b2 :: b3 :: _ => .ok (Int32.ofNat (leNat [b0, b1, b2, b3]))
  | _ => .panic "index out of range"

/-- `readInt64`: the little-endian `int64` in `b[0:8]`. -/
def readInt64 : List UInt8 → Res Int64
  | b0 :: b1 :: b2 :: b3 :: b4 :: b5 :: b6 :: b7 :: _ =>
    .ok (Int64.ofNat (leNat [b0, b1, b2, b3, b4, b5, b6, b7]))
  | _ => .panic "index out of range"

/-- `writeInt32(i, buf, loc)`: `buf[loc+k] = byte(i >> 8k)` for `k < 4`, the four bytes of the
two's complement of `i`.  A write out of range panics. -/
def writeInt32 (i : Int32) (buf : List UInt8) (loc : Int) : Res (List UInt8) :=
  if 0 ≤ loc ∧ loc + 4 ≤ buf.length then .ok (writeAt buf loc.toNat (leBytes 4 i.toBitVec.toNat))
  else .panic "index out of range"

/-- `writeInt64(i, buf, loc)`. -/
def writeInt64 (i : Int64) (buf : List UInt8) (loc : Int) : Res (List UInt8) :=
  if 0 ≤ loc ∧ loc + 8 ≤ buf.length then .ok (writeAt buf loc.toNat (leBytes 8 i.toBitVec.toNat))
  else .panic "index out of range"

/-- `readCString`: the bytes before the first NUL of `b`, an error if there is none. -/
def readCString : List UInt8 → Res (List UInt8)
  | [] => .error (newStackErrorf "c string with no terminator" [])
  | c :: b => if c = 0 then .ok [] else (readCString b >>= fun s => .ok (c :: s))

/-- `writeCString(s, buf, &loc)`: `copy(buf[loc:], s)`, then the NUL at `loc + len(s)`; the new
`loc` is returned. -/
def writeCString (s buf : List UInt8) (loc : Int) : Res (List UInt8 × Int) := do
  let buf ← copyAt buf loc s
  let loc := loc + s.length
  let buf ← setIndex buf loc 0
  pure (buf, loc + 1)

/-! ## `SimpleBSON` (bsonutil.go) -/

/-- `SimpleBSON`: a document's declared size and its bytes. -/
structure SimpleBSON where
  size : Int32
  bson : List UInt8
  deriving Repr, DecidableEq

/-- The zero value `SimpleBSON{}`. -/
def SimpleBSON.zero : SimpleBSON := ⟨0, []⟩

/-- `SimpleBSONEmpty()`: the empty document. -/
def simpleBSONEmpty : SimpleBSON := ⟨5, [5, 0, 0, 0, 0]⟩

/-- `SimpleBSON.Copy(&loc, buf)`: `copy(buf[loc:], sb.BSON)`, then `loc` advances by `Size`
(not by `len(BSON)`). -/
def SimpleBSON.copy (sb : SimpleBSON) (loc : Int) (buf : List UInt8) : Res (List UInt8 × Int) := do
  let buf ← copyAt buf loc sb.bson
  pure (buf, loc + sb.size.toInt)

/-- `parseSimpleBSON`.  A size prefix of `0` is the wire protocol's shortcut: the result is the
whole of `b` with `Size` 4. -/
def parseSimpleBSON (b : List UInt8) : Res SimpleBSON :=
  if b.length < 4 then
    .error (newStackErrorf "invalid bson -- length of bytes must be at least 4, not %v" [b.length])
  else do
    let size ← readInt32 b
    if size.toInt = 0 then
      -- shortcut in wire protocol
      pure ⟨4, b⟩
    else if size.toInt > 128 * 1024 * 1024 ∨ size.toInt < 0 then
      .error (newStackErrorf "bson size invalid %d" [size.toInt])
    else if size.toInt > b.length then
      .error (newStackErrorf "invalid bson -- size = %v is greater than length of bytes = %v"
        [size.toInt, b.length])
    else do
      let bson ← slice b 0 size.toInt
      pure ⟨size, bson⟩

/-- `MessageHeader.WriteInto(buf)`: the four header fields at offsets 0, 4, 8 and 12. -/
def MessageHeader.writeInto (h : MessageHeader) (buf : List UInt8) : Res (List UInt8) := do
  let buf ← writeInt32 h.size buf 0
  let buf ← writeInt32 h.requestID buf 4
  let buf ← writeInt32 h.responseTo buf 8
  writeInt32 h.opCode buf 12

end Mongonet
