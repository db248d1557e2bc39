import Mongonet.Wire.Decode
import Mongonet.Wire.Frame

/-!
# Mongonet.Wire.RoundTrip — `ReadMessage` undoes `Serialize`

A message that the parsers can read back (`Message.Decodable`: its kind's opcode in the header,
strings without NUL, well-formed documents) is read back whole from its layout by `ReadMessage`
when the header's `Size` is the layout's length and within the 200 MiB that `ReadMessage`
accepts (`readMessage_encode`).  `Serialize` writes the layout of the message with the size it
computes, zero reserved words and `checksumPresent` clear; for a message whose reserved words and
checksum bit already are so (`Message.ReservedClear`), that is the message with `Size` set
(`canonical_eq_withSize`), and `ReadMessage` returns exactly it (`readMessage_serialize`).
-/

namespace Mongonet

open Go Result

namespace Message

/-- What the parsers need to read a message back from its layout: the opcode of its kind in
the header, strings without NUL, well-formed documents (an absent OP_QUERY projection being the
zero document), as many cursor ids as `NumCursors` says, and OP_MSG sections they can read. -/
def Decodable : Message → Prop
  | reply m => m.header.opCode = opReply ∧ ∀ d ∈ m.docs, d.WellFormed
  | update m => m.header.opCode = opUpdate ∧ 0 ∉ m.ns ∧ m.filter.WellFormed ∧ m.update.WellFormed
  | insert m => m.header.opCode = opInsert ∧ 0 ∉ m.ns ∧ ∀ d ∈ m.docs, d.WellFormed
  | query m => m.header.opCode = opQuery ∧ 0 ∉ m.ns ∧ m.query.WellFormed ∧
      (m.project.WellFormed ∨ m.project = SimpleBSON.zero)
  | getMore m => m.header.opCode = opGetMore ∧ 0 ∉ m.ns
  | delete m => m.header.opCode = opDelete ∧ 0 ∉ m.ns ∧ m.filter.WellFormed
  | killCursors m => m.header.opCode = opKillCursors ∧ m.numCursors.toInt = m.cursorIds.length
  | command m => m.header.opCode = opCommand ∧ 0 ∉ m.db ∧ 0 ∉ m.cmdName ∧
      m.commandArgs.WellFormed ∧ m.metadata.WellFormed ∧ ∀ d ∈ m.inputDocs, d.WellFormed
  | commandReply m => m.header.opCode = opCommandReply ∧ m.commandReply.WellFormed ∧
      m.metadata.WellFormed ∧ ∀ d ∈ m.outputDocs, d.WellFormed
  | msg m => m.header.opCode = opMsg ∧ ∀ s ∈ m.sections, s.Decodable

instance : DecidablePred Decodable := fun m =>
  match m with
  | reply _ => inferInstanceAs (Decidable (_ ∧ _))
  | update _ => inferInstanceAs (Decidable (_ ∧ _))
  | insert _ => inferInstanceAs (Decidable (_ ∧ _))
  | query _ => inferInstanceAs (Decidable (_ ∧ _))
  | getMore _ => inferInstanceAs (Decidable (_ ∧ _))
  | delete _ => inferInstanceAs (Decidable (_ ∧ _))
  | killCursors _ => inferInstanceAs (Decidable (_ ∧ _))
  | command _ => inferInstanceAs (Decidable (_ ∧ _))
  | commandReply _ => inferInstanceAs (Decidable (_ ∧ _))
  | msg _ => inferInstanceAs (Decidable (_ ∧ _))

/-- The fields that `Serialize` overwrites already hold what it writes: the reserved words are
zero and the OP_MSG flag bit `checksumPresent` is clear. -/
def ReservedClear : Message → Prop
  | update m => m.reserved = 0
  | getMore m => m.reserved = 0
  | delete m => m.reserved = 0
  | killCursors m => m.reserved = 0
  | msg m => m.flagBits &&& 1 = 0
  | _ => True

instance : DecidablePred ReservedClear := fun m =>
  match m with
  | reply _ => instDecidableTrue
  | update _ => inferInstanceAs (Decidable (_ = _))
  | insert _ => instDecidableTrue
  | query _ => instDecidableTrue
  | getMore _ => inferInstanceAs (Decidable (_ = _))
  | delete _ => inferInstanceAs (Decidable (_ = _))
  | killCursors _ => inferInstanceAs (Decidable (_ = _))
  | command _ => instDecidableTrue
  | commandReply _ => instDecidableTrue
  | msg _ => inferInstanceAs (Decidable (_ = _))

/-- A message that survives a round trip through the wire: readable back, with the overwritten
fields as `Serialize` writes them, and no longer than `ReadMessage` accepts. -/
@[mk_iff] structure WellFormed (m : Message) : Prop where
  decodable : m.Decodable
  reservedClear : m.ReservedClear
  length_le : m.encode.length ≤ 200 * 1024 * 1024

instance : DecidablePred WellFormed := fun m => decidable_of_iff _ (wellFormed_iff m).symm

/-- The message with `Size` set to `n` in its header. -/
def withSize (m : Message) (n : Nat) : Message :=
  match m with
  | reply m => reply { m with header := m.header.withSize n }
  | update m => update { m with header := m.header.withSize n }
  | insert m => insert { m with header := m.header.withSize n }
  | query m => query { m with header := m.header.withSize n }
  | getMore m => getMore { m with header := m.header.withSize n }
  | delete m => delete { m with header := m.header.withSize n }
  | killCursors m => killCursors { m with header := m.header.withSize n }
  | command m => command { m with header := m.header.withSize n }
  | commandReply m => commandReply { m with header := m.header.withSize n }
  | msg m => msg { m with header := m.header.withSize n }

@[simp] theorem header_withSize (m : Message) (n : Nat) :
    (m.withSize n).header = m.header.withSize n := by
  cases m <;> rfl

theorem Decodable.withSize {m : Message} (h : m.Decodable) (n : Nat) :
    (m.withSize n).Decodable := by
  cases m <;> exact h

@[simp] theorem length_encode_withSize (m : Message) (n : Nat) :
    (m.withSize n).encode.length = m.encode.length := by
  cases m <;> simp [withSize, encode, ReplyMessage.encode, UpdateMessage.encode,
    InsertMessage.encode, QueryMessage.encode, GetMoreMessage.encode, DeleteMessage.encode,
    KillCursorsMessage.encode, CommandMessage.encode, CommandReplyMessage.encode,
    MessageMessage.encode]

theorem canonical_eq_withSize {m : Message} (h : m.ReservedClear) :
    m.canonical = m.withSize m.encode.length := by
  cases m with
  | update m | getMore m | delete m | killCursors m =>
    simp only [canonical, withSize, encode, show m.reserved = 0 from h]
  | msg m => simp only [canonical, withSize, encode, and_not_one_of_and_one h]
  | reply m | insert m | query m | command m | commandReply m => rfl

theorem take_encode (m : Message) : m.encode.take 16 = m.header.bytes := by
  cases m <;> simp only [encode, header, ReplyMessage.encode, UpdateMessage.encode,
    InsertMessage.encode, QueryMessage.encode, GetMoreMessage.encode, DeleteMessage.encode,
    KillCursorsMessage.encode, CommandMessage.encode, CommandReplyMessage.encode,
    MessageMessage.encode, List.append_assoc, List.take_left' (length_header_bytes _)]

theorem Decodable.sized {m : Message} (h : m.Decodable) (hlt : m.encode.length < 2 ^ 31) :
    m.Sized := by
  cases m with
  | reply m => exact fun d hd => (h.2 d hd).size_eq
  | update m => exact ⟨h.2.2.1.sized, h.2.2.2.sized⟩
  | insert m => exact fun d hd => (h.2.2 d hd).sized
  | query m =>
    refine ⟨h.2.2.1.sized, ?_⟩
    rcases h.2.2.2 with hp | hp
    · exact hp.sized
    · rw [hp]
      exact ⟨le_refl _, by decide⟩
  | getMore m => trivial
  | delete m => exact h.2.2.sized
  | killCursors m => exact h.2
  | command m => exact ⟨h.2.2.2.1.sized, h.2.2.2.2.1.sized, fun d hd => (h.2.2.2.2.2 d hd).sized⟩
  | commandReply m => exact ⟨h.2.1.sized, h.2.2.1.sized, fun d hd => (h.2.2.2 d hd).sized⟩
  | msg m => exact ⟨fun s hs => (h.2 s hs).sized, hlt⟩

end Message

/-! ## Reading a layout back -/

theorem readFrame_encode {m : Message} (hsize : m.header.size.toInt = m.encode.length)
    (hmax : m.encode.length ≤ 200 * 1024 * 1024) :
    readFrame fullReader m.encode = ok (m.header.size, m.encode.drop 4, []) := by
  have h16 : 16 ≤ m.encode.length := by
    have := congrArg List.length m.take_encode
    simp only [List.length_take, length_header_bytes] at this
    omega
  have hpre : Int32.ofNat (leNat (m.encode.take 4)) = m.header.size := by
    rw [show m.encode.take 4 = (m.encode.take 16).take 4 by
      rw [List.take_take]; rfl, m.take_encode,
      MessageHeader.bytes, List.append_assoc, List.append_assoc, List.take_left' (by simp),
      int32Bytes, ofNat_leNat_leBytes_int32]
  have h4 : (4 : Int32).toInt = 4 := by decide
  have hsub : (m.header.size - 4).toInt = m.encode.length - 4 := by
    rw [toInt_sub_of_range (by omega) (by omega), h4, hsize]
  have hc : checkSize m.header.size = ok (m.header.size - 4) :=
    (checkSize_eq_ok _ _).mpr ⟨rfl, .inl ⟨by omega, by omega⟩⟩
  have hL : (m.header.size - 4).toInt.toNat = m.encode.length - 4 := by omega
  -- the body buffer is filled to its end, with nothing left of the stream
  rw [readFrame_fullReader (by omega) (hpre ▸ hc), hpre, hL, ← List.length_drop, List.take_length,
    List.drop_length, Nat.sub_self, List.replicate_zero, List.append_nil]

theorem parseMessage_encode {m : Message} (h : m.Decodable) (hlt : m.encode.length < 2 ^ 31) :
    parseMessage m.header.size (m.encode.drop 4) = ok m := by
  obtain ⟨body, hsplit, hbody⟩ : ∃ body, m.encode = m.header.bytes ++ body ∧
      m.encode.drop 16 = body :=
    ⟨_, by rw [← m.take_encode, List.take_append_drop], rfl⟩
  have hheader : (⟨m.header.size, m.header.requestID, m.header.responseTo, m.header.opCode⟩ :
      MessageHeader) = m.header := rfl
  rw [hsplit]
  unfold parseMessage
  simp only [MessageHeader.bytes, List.append_assoc]
  rw [List.drop_left' (length_int32Bytes _)]
  -- the three fields at 0, 4 and 8, and the body from 12 on; rewriting one slice at a time
  -- keeps `simp` out of the ten-way dispatch below
  rw [if_neg (by simp; omega), readInt32_int32Bytes, ok_bind,
    sliceFrom_int32Bytes_append _ _ (show (4 : Int) ≤ 4 by decide),
    sliceFrom_of_eq_zero (show (4 : Int) - 4 = 0 by decide), ok_bind, readInt32_int32Bytes,
    ok_bind, sliceFrom_int32Bytes_append _ _ (show (4 : Int) ≤ 8 by decide),
    sliceFrom_int32Bytes_append _ _ (show (4 : Int) ≤ 8 - 4 by decide),
    sliceFrom_of_eq_zero (show (8 : Int) - 4 - 4 = 0 by decide), ok_bind, readInt32_int32Bytes,
    ok_bind, sliceFrom_int32Bytes_append _ _ (show (4 : Int) ≤ 12 by decide),
    sliceFrom_int32Bytes_append _ _ (show (4 : Int) ≤ 12 - 4 by decide),
    sliceFrom_int32Bytes_append _ _ (show (4 : Int) ≤ 12 - 4 - 4 by decide),
    sliceFrom_of_eq_zero (show (12 : Int) - 4 - 4 - 4 = 0 by decide), ok_bind,
    hheader, ← hbody]
  -- the opcode is the one of the message's kind, so the dispatch takes its branch
  cases m <;> simp (disch := decide) only [Message.header, h.1, if_pos, if_neg]
  case reply m => exact ReplyMessage.parse_encode m h.2
  case update m => exact UpdateMessage.parse_encode m h.2.1 h.2.2.1 h.2.2.2
  case insert m => exact InsertMessage.parse_encode m h.2.1 h.2.2
  case query m => exact QueryMessage.parse_encode m h.2.1 h.2.2.1 h.2.2.2
  case getMore m => exact GetMoreMessage.parse_encode m h.2
  case delete m => exact DeleteMessage.parse_encode m h.2.1 h.2.2
  case killCursors m => exact KillCursorsMessage.parse_encode m h.2
  case command m =>
    exact CommandMessage.parse_encode m h.2.1 h.2.2.1 h.2.2.2.1 h.2.2.2.2.1 h.2.2.2.2.2
  case commandReply m => exact CommandReplyMessage.parse_encode m h.2.1 h.2.2.1 h.2.2.2
  case msg m =>
    -- every section is a piece of the layout, so its length fits in an `int32`
    have hlt' : m.encode.length < 2 ^ 31 := hlt
    have hsec : ∀ s ∈ m.sections, s.encode.length < 2 ^ 31 := by
      intro s hs
      have hsub := (List.sublist_flatten_of_mem
        (List.mem_map_of_mem (f := MessageMessageSection.encode) hs)).length_le
      have hlen : (m.sections.map MessageMessageSection.encode).flatten.length ≤
          m.encode.length := by
        simp only [MessageMessage.encode, List.length_append]
        omega
      omega
    exact MessageMessage.parse_encode m fun s hs => ⟨h.2 s hs, hsec s hs⟩

/-- **`ReadMessage` reads a layout back**: a message the parsers can read, whose `Size` is its
layout's length and within what `ReadMessage` accepts, comes back whole from a reader holding
its layout, and nothing of the stream is left. -/
theorem readMessage_encode {m : Message} (h : m.Decodable)
    (hsize : m.header.size.toInt = m.encode.length) (hmax : m.encode.length ≤ 200 * 1024 * 1024) :
    readMessage fullReader m.encode = ok (m, []) := by
  rw [readMessage, readFrame_encode hsize hmax, ok_bind]
  dsimp only
  rw [parseMessage_encode h (by omega), ok_bind, pure_eq]

/-- **Round trip.**  A reader holding exactly what `Serialize` wrote gives back, through
`ReadMessage`, the message of the same kind with every field as it was and `Size` the serialized
length; nothing of the stream is left. -/
theorem readMessage_serialize (m : Message) (h : m.WellFormed) :
    ∃ out, m.serialize = ok out ∧ out.length = m.encode.length ∧
      readMessage fullReader out = ok (m.withSize out.length, []) := by
  have hmax := h.length_le
  have hlen := m.length_encode_withSize m.encode.length
  refine ⟨(m.withSize m.encode.length).encode, ?_, hlen, ?_⟩
  · rw [Message.serialize_eq m (h.decodable.sized (by omega)),
      Message.canonical_eq_withSize h.reservedClear]
  · rw [hlen]
    apply readMessage_encode (h.decodable.withSize _)
    · rw [Message.header_withSize, hlen, MessageHeader.withSize]
      exact toInt_ofInt_of_le (by omega) (by unfold maxInt32; omega)
    · rw [hlen]
      exact hmax

/-- An OP_MSG with a body and a one-document sequence goes through the round trip. -/
theorem readMessage_serialize_opMsg :
    (Message.msg ⟨⟨0, 7, 0, 2013⟩, 0,
      [.body ⟨⟨5, [5, 0, 0, 0, 0]⟩⟩, .docSeq ⟨[100], [⟨5, [5, 0, 0, 0, 0]⟩]⟩]⟩).WellFormed ∧
    ∃ out, (Message.msg ⟨⟨0, 7, 0, 2013⟩, 0,
      [.body ⟨⟨5, [5, 0, 0, 0, 0]⟩⟩, .docSeq ⟨[100], [⟨5, [5, 0, 0, 0, 0]⟩]⟩]⟩).serialize = ok out ∧
      out.length = (Message.msg ⟨⟨0, 7, 0, 2013⟩, 0,
      [.body ⟨⟨5, [5, 0, 0, 0, 0]⟩⟩, .docSeq ⟨[100], [⟨5, [5, 0, 0, 0, 0]⟩]⟩]⟩).encode.length ∧
      readMessage fullReader out = ok ((Message.msg ⟨⟨0, 7, 0, 2013⟩, 0,
      [.body ⟨⟨5, [5, 0, 0, 0, 0]⟩⟩, .docSeq ⟨[100], [⟨5, [5, 0, 0, 0, 0]⟩]⟩]⟩).withSize out.length, []) :=
  ⟨by decide, readMessage_serialize _ (by decide)⟩

end Mongonet
