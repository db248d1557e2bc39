import Mongonet.Wire.Inversion

/-!
# Mongonet.Wire.Reserialize — `Serialize` after `ReadMessage`

What the proxy forwards is `m.Serialize()` of the message `m` that `ReadMessage` read from the
client.  By `readMessage_eq_ok` the stream read in full is a layout of `m` with the size fields
its OP_MSG document sequences declared, followed by bytes no parser read; by
`Message.serialize_eq`, `Serialize` writes the layout of `m.canonical`.  The two layouts differ in
the header's `Size`, the reserved words, the `checksumPresent` bit and the size fields of the
document sequences, which `Serialize` computes from the contents: the parser checks a declared
size only from above, so a sequence declared smaller than its own header is read, with no
documents, and written back with its real size.

OP_REPLY is the one kind whose `Serialize` advances by `len(BSON)` where the parsers advance by
`Size`, so a size-0 shortcut document (`Size` 4, `BSON` the rest of the body) in a reply makes the
buffer it allocated too short (`replyMessage_serialize_shortcut_panic`); `serialize_readMessage`
leaves such replies out.
-/

namespace Mongonet

open Go Result

namespace Message

@[simp] theorem length_encode_canonical (m : Message) :
    m.canonical.encode.length = m.encode.length := by
  cases m <;> simp [canonical, encode, ReplyMessage.encode, UpdateMessage.encode,
    InsertMessage.encode, QueryMessage.encode, GetMoreMessage.encode, DeleteMessage.encode,
    KillCursorsMessage.encode, CommandMessage.encode, CommandReplyMessage.encode,
    MessageMessage.encode]

/-- A parsed message is one `Serialize` can write, once its OP_REPLY documents have `Size` equal
to their length and an OP_MSG fits in an `int32`: the other kinds ask of their documents only
what every parser checks. -/
theorem Parsed.sized {m : Message} (h : m.Parsed)
    (hreply : ∀ r, m = .reply r → ∀ d ∈ r.docs, d.size.toInt = d.bson.length)
    (hlt : m.encode.length < 2 ^ 31) : m.Sized := by
  cases m with
  | reply r => exact hreply r rfl
  | msg m => exact ⟨h, hlt⟩
  | update m | insert m | query m | getMore m | delete m | killCursors m | command m
  | commandReply m => exact h

end Message

/-- **Re-serialization.**  A stream that `ReadMessage` reads in full as a message with no size-0
shortcut document in an OP_REPLY is the message's layout, with the size fields its OP_MSG
document sequences declared, followed by bytes no parser read; `Serialize` writes, without a
panic, the layout of the message with the new `Size`, zero reserved words, `checksumPresent`
clear and every document sequence's size computed from its contents, as long as what was read. -/
theorem serialize_readMessage {bs rest : List UInt8} {m : Message}
    (h : readMessage fullReader bs = ok (m, rest)) (hlen : (bs.length : Int) = m.header.size.toInt)
    (hreply : ∀ r, m = .reply r → ∀ d ∈ r.docs, d.size.toInt = d.bson.length) :
    ∃ fields tail, bs = m.encodeWith fields ++ tail ∧ m.serialize = ok m.canonical.encode ∧
      m.canonical.encode.length = (m.encodeWith fields).length := by
  obtain ⟨-, hmax, hparsed, fields, tail, hbs⟩ := readMessage_eq_ok h hlen
  -- the layout read is a prefix of a stream of at most 200 MiB, so it fits in an `int32`
  have hlt : m.encode.length < 2 ^ 31 := by
    have hpre := congrArg List.length hbs
    rw [List.length_append, Message.length_encodeWith] at hpre
    omega
  refine ⟨fields, tail, hbs, Message.serialize_eq m (hparsed.sized hreply hlt), ?_⟩
  rw [Message.length_encode_canonical, Message.length_encodeWith]

/-- The 26-byte OP_MSG whose document sequence declares size 0 is read in full, and re-serialized
as the re-serialization theorem says, with the declared size field as it was read. -/
theorem serialize_readMessage_docSeq :
    readMessage fullReader ([26, 0, 0, 0, 0, 0, 0, 0, 0, 0, 0, 0, 221, 7, 0, 0, 0, 0, 0, 0, 1,
      0, 0, 0, 0, 0] : List UInt8) = ok (.msg ⟨⟨26, 0, 0, 2013⟩, 0, [.docSeq ⟨[], []⟩]⟩, []) ∧
    ((([26, 0, 0, 0, 0, 0, 0, 0, 0, 0, 0, 0, 221, 7, 0, 0, 0, 0, 0, 0, 1, 0, 0, 0, 0, 0] :
      List UInt8).length : Int) =
      (Message.msg ⟨⟨26, 0, 0, 2013⟩, 0, [.docSeq ⟨[], []⟩]⟩).header.size.toInt) ∧
    (∀ r, Message.msg ⟨⟨26, 0, 0, 2013⟩, 0, [.docSeq ⟨[], []⟩]⟩ = .reply r →
      ∀ d ∈ r.docs, d.size.toInt = d.bson.length) ∧
    ∃ fields tail, ([26, 0, 0, 0, 0, 0, 0, 0, 0, 0, 0, 0, 221, 7, 0, 0, 0, 0, 0, 0, 1, 0, 0, 0, 0,
        0] : List UInt8) =
        (Message.msg ⟨⟨26, 0, 0, 2013⟩, 0, [.docSeq ⟨[], []⟩]⟩).encodeWith fields ++ tail ∧
      (Message.msg ⟨⟨26, 0, 0, 2013⟩, 0, [.docSeq ⟨[], []⟩]⟩).serialize =
        ok (Message.msg ⟨⟨26, 0, 0, 2013⟩, 0, [.docSeq ⟨[], []⟩]⟩).canonical.encode ∧
      (Message.msg ⟨⟨26, 0, 0, 2013⟩, 0, [.docSeq ⟨[], []⟩]⟩).canonical.encode.length =
        ((Message.msg ⟨⟨26, 0, 0, 2013⟩, 0, [.docSeq ⟨[], []⟩]⟩).encodeWith fields).length := by
  have hread : readMessage fullReader ([26, 0, 0, 0, 0, 0, 0, 0, 0, 0, 0, 0, 221, 7, 0, 0, 0, 0,
      0, 0, 1, 0, 0, 0, 0, 0] : List UInt8) =
      ok (.msg ⟨⟨26, 0, 0, 2013⟩, 0, [.docSeq ⟨[], []⟩]⟩, []) := by
    decide
  have hlen : (([26, 0, 0, 0, 0, 0, 0, 0, 0, 0, 0, 0, 221, 7, 0, 0, 0, 0, 0, 0, 1, 0, 0, 0, 0,
      0] : List UInt8).length : Int) =
      (Message.msg ⟨⟨26, 0, 0, 2013⟩, 0, [.docSeq ⟨[], []⟩]⟩).header.size.toInt := by
    decide
  -- the message is an OP_MSG, so the condition on OP_REPLY documents holds vacuously
  have hreply : ∀ r, Message.msg ⟨⟨26, 0, 0, 2013⟩, 0, [.docSeq ⟨[], []⟩]⟩ = .reply r →
      ∀ d ∈ r.docs, d.size.toInt = d.bson.length := by
    intro r hr
    cases hr
  exact ⟨hread, hlen, hreply, serialize_readMessage hread hlen hreply⟩

-- A document sequence declared with size 0, less than its own header: `ReadMessage` reads the
-- 26-byte OP_MSG whole, as one section without documents, and `Serialize` writes it back with the
-- section's real size 5 at byte 21; nothing else differs.
example :
    readMessage fullReader ([26, 0, 0, 0, 0, 0, 0, 0, 0, 0, 0, 0, 221, 7, 0, 0, 0, 0, 0, 0, 1,
      0, 0, 0, 0, 0] : List UInt8) = ok (.msg ⟨⟨26, 0, 0, 2013⟩, 0, [.docSeq ⟨[], []⟩]⟩, []) ∧
    (Message.msg ⟨⟨26, 0, 0, 2013⟩, 0, [.docSeq ⟨[], []⟩]⟩).serialize =
      ok (([26, 0, 0, 0, 0, 0, 0, 0, 0, 0, 0, 0, 221, 7, 0, 0, 0, 0, 0, 0, 1, 0, 0, 0, 0, 0] :
        List UInt8).set 21 5) := by
  decide

end Mongonet
