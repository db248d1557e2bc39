import Mongonet.Wire.Serialize
import Mongonet.Go.Int

/-!
# Mongonet.Wire.Encode — what `Serialize` writes

The byte layout of each message kind, and one lemma per serializer saying that it returns that
layout.  `Message.encode` writes every field of the message as it is, the header's `Size`, the
reserved words and the OP_MSG flag bits included; `Serialize` writes the same layout with the
new size in the header, zero for the reserved words and `checksumPresent` cleared
(`Message.canonical`).  Documents are written as their first `Size` bytes (`SimpleBSON.bytes`):
`Copy` copies all of `BSON` and advances by `Size`, and what it spills past `Size` is overwritten
by the next field.

The proofs follow the buffer as it fills from the front (`Go.Filled`): each write lemma says
that a write at the end of what is written keeps the buffer's length and appends its bytes.
-/

namespace Mongonet

open Go Result

/-! ## Layouts -/

/-- The four bytes `writeInt32` writes. -/
def int32Bytes (i : Int32) : List UInt8 := leBytes 4 i.toBitVec.toNat

/-- The eight bytes `writeInt64` writes. -/
def int64Bytes (i : Int64) : List UInt8 := leBytes 8 i.toBitVec.toNat

/-- A C string and its NUL, as `writeCString` writes them. -/
def cstringBytes (s : List UInt8) : List UInt8 := s ++ [0]

/-- The bytes of a document that a serialized message keeps: the first `Size` of its `BSON`. -/
def SimpleBSON.bytes (d : SimpleBSON) : List UInt8 := d.bson.take d.size.toInt.toNat

/-- The documents one after another. -/
def docsBytes (docs : List SimpleBSON) : List UInt8 := (docs.map SimpleBSON.bytes).flatten

/-- The 16 bytes of a header. -/
def MessageHeader.bytes (h : MessageHeader) : List UInt8 :=
  int32Bytes h.size ++ int32Bytes h.requestID ++ int32Bytes h.responseTo ++ int32Bytes h.opCode

@[simp] theorem length_int32Bytes (i : Int32) : (int32Bytes i).length = 4 := length_leBytes ..

@[simp] theorem length_int64Bytes (i : Int64) : (int64Bytes i).length = 8 := length_leBytes ..

@[simp] theorem length_cstringBytes (s : List UInt8) : (cstringBytes s).length = s.length + 1 := by
  simp [cstringBytes]

@[simp] theorem length_header_bytes (h : MessageHeader) : h.bytes.length = 16 := by
  simp [MessageHeader.bytes]

@[simp] theorem docsBytes_nil : docsBytes [] = [] := rfl

@[simp] theorem docsBytes_append (ds es : List SimpleBSON) :
    docsBytes (ds ++ es) = docsBytes ds ++ docsBytes es := by
  simp [docsBytes]

@[simp] theorem docsBytes_cons (d : SimpleBSON) (ds : List SimpleBSON) :
    docsBytes (d :: ds) = d.bytes ++ docsBytes ds := rfl

theorem length_flatten_int64Bytes (ids : List Int64) :
    ((ids.map int64Bytes).flatten).length = 8 * ids.length := by
  induction ids with
  | nil => rfl
  | cons c cs ih =>
    simp only [List.map_cons, List.flatten_cons, List.length_append, length_int64Bytes, ih,
      List.length_cons]
    ring

/-- `Copy` can place the document: its `Size` is not negative and not beyond its bytes. -/
def SimpleBSON.Sized (d : SimpleBSON) : Prop := 0 ≤ d.size.toInt ∧ d.size.toInt ≤ d.bson.length

theorem SimpleBSON.length_bytes {d : SimpleBSON} (h : d.Sized) :
    d.bytes.length = d.size.toInt.toNat := by
  have := h.2
  simp only [SimpleBSON.bytes, List.length_take]
  omega

theorem length_docsBytes {docs : List SimpleBSON} (h : ∀ d ∈ docs, d.Sized) :
    ((docsBytes docs).length : Int) = docsSize docs := by
  induction docs with
  | nil => rfl
  | cons d ds ih =>
    have hd := h d List.mem_cons_self
    have hds := ih fun e he => h e (List.mem_cons_of_mem d he)
    have h0 := hd.1
    simp only [docsBytes_cons, List.length_append, SimpleBSON.length_bytes hd, docsSize,
      List.map_cons, List.sum_cons] at hds ⊢
    omega

/-! ## The writes -/

section Writes

variable {n : Nat} {pre buf : List UInt8} {loc : Int}

theorem writeInt32_filled (h : Filled n pre buf) (hloc : loc = pre.length)
    (hn : pre.length + 4 ≤ n) (i : Int32) :
    (writeInt32 i buf loc).OkWith (Filled n (pre ++ int32Bytes i)) := by
  have hlen := h.1
  unfold writeInt32
  rw [if_pos ⟨by omega, by omega⟩, hloc, Int.toNat_natCast]
  have hw : Filled n (pre ++ (int32Bytes i).take 4) (writeAt buf pre.length (int32Bytes i)) :=
    h.writeAt (by simp) hn
  rw [List.take_of_length_le (by simp)] at hw
  exact okWith_ok hw

theorem writeInt64_filled (h : Filled n pre buf) (hloc : loc = pre.length)
    (hn : pre.length + 8 ≤ n) (i : Int64) :
    (writeInt64 i buf loc).OkWith (Filled n (pre ++ int64Bytes i)) := by
  have hlen := h.1
  unfold writeInt64
  rw [if_pos ⟨by omega, by omega⟩, hloc, Int.toNat_natCast]
  have hw : Filled n (pre ++ (int64Bytes i).take 8) (writeAt buf pre.length (int64Bytes i)) :=
    h.writeAt (by simp) hn
  rw [List.take_of_length_le (by simp)] at hw
  exact okWith_ok hw

theorem setIndex_filled (h : Filled n pre buf) (hloc : loc = pre.length) (hn : pre.length < n)
    (v : UInt8) : (setIndex buf loc v : Res (List UInt8)).OkWith (Filled n (pre ++ [v])) := by
  have hlen := h.1
  unfold setIndex
  rw [if_pos ⟨by omega, by omega⟩, hloc, Int.toNat_natCast, set_eq_writeAt (by omega)]
  have hw : Filled n (pre ++ [v].take 1) (writeAt buf pre.length [v]) := h.writeAt (le_refl 1) hn
  simpa using okWith_ok hw

theorem writeCString_filled (h : Filled n pre buf) (hloc : loc = pre.length) (s : List UInt8)
    (hn : pre.length + s.length < n) :
    (writeCString s buf loc).OkWith fun r =>
      Filled n (pre ++ cstringBytes s) r.1 ∧ r.2 = (pre ++ cstringBytes s).length := by
  have hlen := h.1
  unfold writeCString
  rw [copyAt, if_pos ⟨by omega, by omega⟩, hloc, Int.toNat_natCast]
  have hs : Filled n (pre ++ s.take s.length) (writeAt buf pre.length s) :=
    h.writeAt (le_refl _) (by omega)
  rw [List.take_length] at hs
  refine (setIndex_filled hs (by simp) (by simp; omega) 0).bind fun buf' hbuf' => okWith_pure ?_
  refine ⟨by simpa [cstringBytes] using hbuf', ?_⟩
  simp
  omega

theorem copy_filled (h : Filled n pre buf) (hloc : loc = pre.length) {d : SimpleBSON}
    (hd : d.Sized) (hn : pre.length + d.size.toInt ≤ n) :
    (d.copy loc buf).OkWith fun r =>
      Filled n (pre ++ d.bytes) r.1 ∧ r.2 = (pre ++ d.bytes).length := by
  have hlen := h.1
  obtain ⟨h0, hle⟩ := hd
  unfold SimpleBSON.copy
  rw [copyAt, if_pos ⟨by omega, by omega⟩, ok_bind, hloc, Int.toNat_natCast]
  have hw : Filled n (pre ++ d.bytes) (writeAt buf pre.length d.bson) :=
    h.writeAt (by omega) (by omega)
  refine okWith_pure ⟨hw, ?_⟩
  simp only [List.length_append, SimpleBSON.length_bytes ⟨h0, hle⟩]
  omega

theorem copyDocs_filled (h : Filled n pre buf) (hloc : loc = pre.length) {docs : List SimpleBSON}
    (hd : ∀ d ∈ docs, d.Sized) (hn : pre.length + docsSize docs ≤ n) :
    (copyDocs docs buf loc).OkWith fun r =>
      Filled n (pre ++ docsBytes docs) r.1 ∧ r.2 = (pre ++ docsBytes docs).length := by
  unfold copyDocs
  refine foldlM_okWith docs (fun done (r : List UInt8 × Int) =>
    Filled n (pre ++ docsBytes done) r.1 ∧ r.2 = (pre ++ docsBytes done).length) ?_
    ⟨by simpa using h, by simpa using hloc⟩
  rintro done d rest ⟨buf', loc'⟩ hsplit ⟨hf, hl⟩
  -- the documents before and after `d` still fit behind it
  have hsizes := length_docsBytes hd
  have hd' : d.Sized := hd d (by rw [← hsplit]; simp)
  have hdone := length_docsBytes fun e (he : e ∈ done) => hd e (by rw [← hsplit]; simp [he])
  have hrest := length_docsBytes fun e (he : e ∈ rest) => hd e (by rw [← hsplit]; simp [he])
  subst hsplit
  simp only [docsBytes_append, docsBytes_cons, List.length_append,
    SimpleBSON.length_bytes hd', Nat.cast_add] at hsizes
  refine (copy_filled hf hl hd' ?_).mono fun r hr => ?_
  · simp only [List.length_append] at hn ⊢
    omega
  · simpa [List.append_assoc] using hr

theorem writeInto_filled (hb : Filled n [] buf) (hn : 16 ≤ n) (hd : MessageHeader) :
    (hd.writeInto buf).OkWith (Filled n hd.bytes) := by
  unfold MessageHeader.writeInto
  refine (writeInt32_filled hb (by simp) (by simp; omega) _).bind fun b₁ h₁ => ?_
  refine (writeInt32_filled h₁ (by simp) (by simp; omega) _).bind fun b₂ h₂ => ?_
  refine (writeInt32_filled h₂ (by simp) (by simp; omega) _).bind fun b₃ h₃ => ?_
  refine (writeInt32_filled h₃ (by simp) (by simp; omega) _).mono fun b₄ h₄ => ?_
  simpa [MessageHeader.bytes] using h₄

end Writes

/-! ## The layout of each kind -/

/-- The header with the size `Serialize` gives it. -/
def MessageHeader.withSize (h : MessageHeader) (n : Nat) : MessageHeader :=
  { h with size := Int32.ofInt n }

/-- OP_REPLY. -/
def ReplyMessage.encode (m : ReplyMessage) : List UInt8 :=
  m.header.bytes ++ int32Bytes m.flags ++ int64Bytes m.cursorId ++ int32Bytes m.startingFrom ++
    int32Bytes m.numberReturned ++ docsBytes m.docs

theorem replyDocs_filled {n : Nat} {pre buf : List UInt8} {loc : Int} (h : Filled n pre buf)
    (hloc : loc = pre.length) {docs : List SimpleBSON}
    (hd : ∀ d ∈ docs, d.size.toInt = d.bson.length) (hn : pre.length + docsSize docs ≤ n) :
    (docs.foldlM (m := Res) (fun (st : List UInt8 × Int) (d : SimpleBSON) => do
        let buf ← copyAt st.1 st.2 d.bson
        pure (buf, st.2 + d.bson.length)) (buf, loc)).OkWith fun r =>
      Filled n (pre ++ docsBytes docs) r.1 ∧ r.2 = (pre ++ docsBytes docs).length := by
  have hsized : ∀ d ∈ docs, d.Sized := fun d hd' => by
    have := hd d hd'
    exact ⟨by omega, by omega⟩
  refine foldlM_okWith docs (fun done (r : List UInt8 × Int) =>
    Filled n (pre ++ docsBytes done) r.1 ∧ r.2 = (pre ++ docsBytes done).length) ?_
    ⟨by simpa using h, by simpa using hloc⟩
  rintro done d rest ⟨buf', loc'⟩ hsplit ⟨hf, hl⟩
  have hsizes := length_docsBytes hsized
  have hdone := length_docsBytes fun e (he : e ∈ done) => hsized e (by rw [← hsplit]; simp [he])
  have hde := hd d (by rw [← hsplit]; simp)
  -- an exact document is written whole
  have hbytes : d.bytes = d.bson := List.take_of_length_le (by omega)
  subst hsplit
  simp only [docsBytes_append, docsBytes_cons, List.length_append, hbytes, Nat.cast_add] at hsizes
  dsimp only at hf hl ⊢
  have hlen := hf.1
  rw [copyAt, if_pos ⟨by omega, by simp at hl hn ⊢; omega⟩, ok_bind, hl, Int.toNat_natCast]
  have hw : Filled n (pre ++ docsBytes done ++ d.bson.take d.bson.length)
      (writeAt buf' (pre ++ docsBytes done).length d.bson) :=
    hf.writeAt (le_refl _) (by simp at hn ⊢; omega)
  rw [List.take_length] at hw
  refine okWith_pure ⟨by simpa [hbytes, List.append_assoc] using hw, ?_⟩
  simp [hbytes]
  omega

theorem ReplyMessage.serialize_eq (m : ReplyMessage)
    (hd : ∀ d ∈ m.docs, d.size.toInt = d.bson.length) :
    m.serialize = ok { m with header := m.header.withSize m.encode.length }.encode := by
  have hdl := length_docsBytes fun d (hm : d ∈ m.docs) =>
    (⟨by have := hd d hm; omega, by have := hd d hm; omega⟩ : d.Sized)
  have hlen : (m.encode.length : Int) = 16 + 20 + docsSize m.docs := by
    simp only [ReplyMessage.encode, List.length_append, length_header_bytes, length_int32Bytes,
      length_int64Bytes]
    omega
  unfold ReplyMessage.serialize
  dsimp only
  rw [← hlen, make_of_nonneg (by omega), ok_bind]
  refine OkWith.eq_ok ?_
  refine (writeInto_filled (filled_replicate _ _) (by omega) _).bind fun b₁ h₁ => ?_
  refine (writeInt32_filled h₁ (by simp) (by simp; omega) m.flags).bind fun b₂ h₂ => ?_
  refine (writeInt64_filled h₂ (by simp) (by simp; omega) m.cursorId).bind fun b₃ h₃ => ?_
  refine (writeInt32_filled h₃ (by simp) (by simp; omega) m.startingFrom).bind fun b₄ h₄ => ?_
  refine (writeInt32_filled h₄ (by simp) (by simp; omega) m.numberReturned).bind
    fun b₅ h₅ => ?_
  refine (replyDocs_filled h₅ (by simp) hd (by simp; omega)).bind
    fun ⟨b₆, _⟩ ⟨h₆, _⟩ => okWith_pure ?_
  refine (h₆.eq ?_).trans ?_
  · simp
    omega
  · simp only [ReplyMessage.encode, List.append_assoc]
    rfl

/-- OP_UPDATE. -/
def UpdateMessage.encode (m : UpdateMessage) : List UInt8 :=
  m.header.bytes ++ int32Bytes m.reserved ++ cstringBytes m.ns ++ int32Bytes m.flags ++
    m.filter.bytes ++ m.update.bytes

theorem UpdateMessage.serialize_eq (m : UpdateMessage) (hf : m.filter.Sized)
    (hu : m.update.Sized) :
    m.serialize = ok { m with header := m.header.withSize m.encode.length, reserved := 0 }.encode := by
  have hf0 := hf.1
  have hu0 := hu.1
  have hfl := SimpleBSON.length_bytes hf
  have hul := SimpleBSON.length_bytes hu
  have hlen : (m.encode.length : Int) =
      16 + 8 + (m.ns.length + 1) + m.filter.size.toInt + m.update.size.toInt := by
    simp only [UpdateMessage.encode, List.length_append, length_header_bytes, length_int32Bytes,
      length_cstringBytes]
    omega
  unfold UpdateMessage.serialize
  dsimp only
  rw [← hlen, make_of_nonneg (by omega), ok_bind]
  refine OkWith.eq_ok ?_
  refine (writeInto_filled (filled_replicate _ _) (by omega) _).bind fun b₁ h₁ => ?_
  refine (writeInt32_filled h₁ (by simp) (by simp; omega) 0).bind fun b₂ h₂ => ?_
  refine (writeCString_filled h₂ (by simp) m.ns (by simp; omega)).bind
    fun ⟨b₃, l₃⟩ ⟨h₃, hl₃⟩ => ?_
  dsimp only at hl₃ ⊢
  refine (writeInt32_filled h₃ hl₃ (by simp; omega) m.flags).bind fun b₄ h₄ => ?_
  refine (copy_filled h₄ (by simp [hl₃]; omega) hf (by simp; omega)).bind
    fun ⟨b₅, l₅⟩ ⟨h₅, hl₅⟩ => ?_
  dsimp only at hl₅ ⊢
  refine (copy_filled h₅ hl₅ hu (by simp; omega)).bind fun ⟨b₆, _⟩ ⟨h₆, _⟩ => okWith_pure ?_
  refine (h₆.eq ?_).trans ?_
  · simp
    omega
  · simp only [UpdateMessage.encode, List.append_assoc]
    rfl

/-- OP_QUERY. -/
def QueryMessage.encode (m : QueryMessage) : List UInt8 :=
  m.header.bytes ++ int32Bytes m.flags ++ cstringBytes m.ns ++ int32Bytes m.skip ++
    int32Bytes m.nReturn ++ m.query.bytes ++ m.project.bytes

theorem QueryMessage.serialize_eq (m : QueryMessage) (hq : m.query.Sized)
    (hp : m.project.Sized) :
    m.serialize = ok { m with header := m.header.withSize m.encode.length }.encode := by
  have hq0 := hq.1
  have hp0 := hp.1
  have hql := SimpleBSON.length_bytes hq
  have hpl := SimpleBSON.length_bytes hp
  have hlen : (m.encode.length : Int) =
      16 + 12 + (m.ns.length + 1) + m.query.size.toInt + m.project.size.toInt := by
    simp only [QueryMessage.encode, List.length_append, length_header_bytes, length_int32Bytes,
      length_cstringBytes]
    omega
  unfold QueryMessage.serialize
  dsimp only
  rw [← hlen, make_of_nonneg (by omega), ok_bind]
  refine OkWith.eq_ok ?_
  refine (writeInto_filled (filled_replicate _ _) (by omega) _).bind fun b₁ h₁ => ?_
  refine (writeInt32_filled h₁ (by simp) (by simp; omega) m.flags).bind fun b₂ h₂ => ?_
  refine (writeCString_filled h₂ (by simp) m.ns (by simp; omega)).bind
    fun ⟨b₃, l₃⟩ ⟨h₃, hl₃⟩ => ?_
  dsimp only at hl₃ ⊢
  refine (writeInt32_filled h₃ hl₃ (by simp; omega) m.skip).bind fun b₄ h₄ => ?_
  refine (writeInt32_filled h₄ (by simp [hl₃]; omega) (by simp; omega) m.nReturn).bind fun b₅ h₅ => ?_
  refine (copy_filled h₅ (by simp [hl₃]; omega) hq (by simp; omega)).bind
    fun ⟨b₆, l₆⟩ ⟨h₆, hl₆⟩ => ?_
  dsimp only at hl₆ ⊢
  refine (copy_filled h₆ hl₆ hp (by simp; omega)).bind fun ⟨b₇, _⟩ ⟨h₇, _⟩ => okWith_pure ?_
  refine (h₇.eq ?_).trans ?_
  · simp
    omega
  · simp only [QueryMessage.encode, List.append_assoc]
    rfl

/-- OP_GET_MORE. -/
def GetMoreMessage.encode (m : GetMoreMessage) : List UInt8 :=
  m.header.bytes ++ int32Bytes m.reserved ++ cstringBytes m.ns ++ int32Bytes m.nReturn ++
    int64Bytes m.cursorId

theorem GetMoreMessage.serialize_eq (m : GetMoreMessage) :
    m.serialize = ok { m with header := m.header.withSize m.encode.length, reserved := 0 }.encode := by
  have hlen : (m.encode.length : Int) = 16 + 16 + (m.ns.length + 1) := by
    simp only [GetMoreMessage.encode, List.length_append, length_header_bytes, length_int32Bytes,
      length_cstringBytes, length_int64Bytes]
    omega
  unfold GetMoreMessage.serialize
  dsimp only
  rw [← hlen, make_of_nonneg (by omega), ok_bind]
  refine OkWith.eq_ok ?_
  refine (writeInto_filled (filled_replicate _ _) (by omega) _).bind fun b₁ h₁ => ?_
  refine (writeInt32_filled h₁ (by simp) (by simp; omega) 0).bind fun b₂ h₂ => ?_
  refine (writeCString_filled h₂ (by simp) m.ns (by simp; omega)).bind
    fun ⟨b₃, l₃⟩ ⟨h₃, hl₃⟩ => ?_
  dsimp only at hl₃ ⊢
  refine (writeInt32_filled h₃ hl₃ (by simp; omega) m.nReturn).bind fun b₄ h₄ => ?_
  refine (writeInt64_filled h₄ (by simp [hl₃]; omega) (by simp; omega) m.cursorId).mono
    fun b₅ h₅ => (h₅.eq ?_).trans ?_
  · simp
    omega
  · simp only [GetMoreMessage.encode, List.append_assoc]
    rfl

/-- OP_INSERT. -/
def InsertMessage.encode (m : InsertMessage) : List UInt8 :=
  m.header.bytes ++ int32Bytes m.flags ++ cstringBytes m.ns ++ docsBytes m.docs

theorem InsertMessage.serialize_eq (m : InsertMessage) (hd : ∀ d ∈ m.docs, d.Sized) :
    m.serialize = ok { m with header := m.header.withSize m.encode.length }.encode := by
  have hdl := length_docsBytes hd
  have hlen : (m.encode.length : Int) = 16 + 4 + (m.ns.length + 1) + docsSize m.docs := by
    simp only [InsertMessage.encode, List.length_append, length_header_bytes, length_int32Bytes,
      length_cstringBytes]
    omega
  unfold InsertMessage.serialize
  dsimp only
  rw [← hlen, make_of_nonneg (by omega), ok_bind]
  refine OkWith.eq_ok ?_
  refine (writeInto_filled (filled_replicate _ _) (by omega) _).bind fun b₁ h₁ => ?_
  refine (writeInt32_filled h₁ (by simp) (by simp; omega) m.flags).bind fun b₂ h₂ => ?_
  refine (writeCString_filled h₂ (by simp) m.ns (by simp; omega)).bind
    fun ⟨b₃, l₃⟩ ⟨h₃, hl₃⟩ => ?_
  dsimp only at hl₃ ⊢
  refine (copyDocs_filled h₃ hl₃ hd (by simp; omega)).bind fun ⟨b₄, _⟩ ⟨h₄, _⟩ => okWith_pure ?_
  refine (h₄.eq ?_).trans ?_
  · simp
    omega
  · simp only [InsertMessage.encode, List.append_assoc]
    rfl

/-- OP_DELETE. -/
def DeleteMessage.encode (m : DeleteMessage) : List UInt8 :=
  m.header.bytes ++ int32Bytes m.reserved ++ cstringBytes m.ns ++ int32Bytes m.flags ++
    m.filter.bytes

theorem DeleteMessage.serialize_eq (m : DeleteMessage) (hf : m.filter.Sized) :
    m.serialize = ok { m with header := m.header.withSize m.encode.length, reserved := 0 }.encode := by
  have hf0 := hf.1
  have hfl := SimpleBSON.length_bytes hf
  have hlen : (m.encode.length : Int) = 16 + 8 + (m.ns.length + 1) + m.filter.size.toInt := by
    simp only [DeleteMessage.encode, List.length_append, length_header_bytes, length_int32Bytes,
      length_cstringBytes]
    omega
  unfold DeleteMessage.serialize
  dsimp only
  rw [← hlen, make_of_nonneg (by omega), ok_bind]
  refine OkWith.eq_ok ?_
  refine (writeInto_filled (filled_replicate _ _) (by omega) _).bind fun b₁ h₁ => ?_
  refine (writeInt32_filled h₁ (by simp) (by simp; omega) 0).bind fun b₂ h₂ => ?_
  refine (writeCString_filled h₂ (by simp) m.ns (by simp; omega)).bind
    fun ⟨b₃, l₃⟩ ⟨h₃, hl₃⟩ => ?_
  dsimp only at hl₃ ⊢
  refine (writeInt32_filled h₃ hl₃ (by simp; omega) m.flags).bind fun b₄ h₄ => ?_
  refine (copy_filled h₄ (by simp [hl₃]; omega) hf (by simp; omega)).bind
    fun ⟨b₅, _⟩ ⟨h₅, _⟩ => okWith_pure ?_
  refine (h₅.eq ?_).trans ?_
  · simp
    omega
  · simp only [DeleteMessage.encode, List.append_assoc]
    rfl

/-- OP_COMMAND. -/
def CommandMessage.encode (m : CommandMessage) : List UInt8 :=
  m.header.bytes ++ cstringBytes m.db ++ cstringBytes m.cmdName ++ m.commandArgs.bytes ++
    m.metadata.bytes ++ docsBytes m.inputDocs

theorem CommandMessage.serialize_eq (m : CommandMessage) (ha : m.commandArgs.Sized)
    (hm : m.metadata.Sized) (hd : ∀ d ∈ m.inputDocs, d.Sized) :
    m.serialize = ok { m with header := m.header.withSize m.encode.length }.encode := by
  have ha0 := ha.1
  have hm0 := hm.1
  have hal := SimpleBSON.length_bytes ha
  have hml := SimpleBSON.length_bytes hm
  have hdl := length_docsBytes hd
  have hlen : (m.encode.length : Int) = 16 + (m.db.length + 1) + (m.cmdName.length + 1) +
      m.commandArgs.size.toInt + m.metadata.size.toInt + docsSize m.inputDocs := by
    simp only [CommandMessage.encode, List.length_append, length_header_bytes,
      length_cstringBytes]
    omega
  unfold CommandMessage.serialize
  dsimp only
  rw [← hlen, make_of_nonneg (by omega), ok_bind]
  refine OkWith.eq_ok ?_
  refine (writeInto_filled (filled_replicate _ _) (by omega) _).bind fun b₁ h₁ => ?_
  refine (writeCString_filled h₁ (by simp) m.db (by simp; omega)).bind
    fun ⟨b₂, l₂⟩ ⟨h₂, hl₂⟩ => ?_
  dsimp only at hl₂ ⊢
  refine (writeCString_filled h₂ hl₂ m.cmdName (by simp; omega)).bind
    fun ⟨b₃, l₃⟩ ⟨h₃, hl₃⟩ => ?_
  dsimp only at hl₃ ⊢
  refine (copy_filled h₃ hl₃ ha (by simp; omega)).bind fun ⟨b₄, l₄⟩ ⟨h₄, hl₄⟩ => ?_
  dsimp only at hl₄ ⊢
  refine (copy_filled h₄ hl₄ hm (by simp; omega)).bind fun ⟨b₅, l₅⟩ ⟨h₅, hl₅⟩ => ?_
  dsimp only at hl₅ ⊢
  refine (copyDocs_filled h₅ hl₅ hd (by simp; omega)).bind fun ⟨b₆, _⟩ ⟨h₆, _⟩ => okWith_pure ?_
  refine (h₆.eq ?_).trans ?_
  · simp
    omega
  · simp only [CommandMessage.encode, List.append_assoc]
    rfl

/-- OP_COMMAND_REPLY. -/
def CommandReplyMessage.encode (m : CommandReplyMessage) : List UInt8 :=
  m.header.bytes ++ m.commandReply.bytes ++ m.metadata.bytes ++ docsBytes m.outputDocs

theorem CommandReplyMessage.serialize_eq (m : CommandReplyMessage) (hr : m.commandReply.Sized)
    (hm : m.metadata.Sized) (hd : ∀ d ∈ m.outputDocs, d.Sized) :
    m.serialize = ok { m with header := m.header.withSize m.encode.length }.encode := by
  have hr0 := hr.1
  have hm0 := hm.1
  have hrl := SimpleBSON.length_bytes hr
  have hml := SimpleBSON.length_bytes hm
  have hdl := length_docsBytes hd
  have hlen : (m.encode.length : Int) =
      16 + m.commandReply.size.toInt + m.metadata.size.toInt + docsSize m.outputDocs := by
    simp only [CommandReplyMessage.encode, List.length_append, length_header_bytes]
    omega
  unfold CommandReplyMessage.serialize
  dsimp only
  rw [← hlen, make_of_nonneg (by omega), ok_bind]
  refine OkWith.eq_ok ?_
  refine (writeInto_filled (filled_replicate _ _) (by omega) _).bind fun b₁ h₁ => ?_
  refine (copy_filled h₁ (by simp) hr (by simp; omega)).bind fun ⟨b₂, l₂⟩ ⟨h₂, hl₂⟩ => ?_
  dsimp only at hl₂ ⊢
  refine (copy_filled h₂ hl₂ hm (by simp; omega)).bind fun ⟨b₃, l₃⟩ ⟨h₃, hl₃⟩ => ?_
  dsimp only at hl₃ ⊢
  refine (copyDocs_filled h₃ hl₃ hd (by simp; omega)).bind fun ⟨b₄, _⟩ ⟨h₄, _⟩ => okWith_pure ?_
  refine (h₄.eq ?_).trans ?_
  · simp
    omega
  · simp only [CommandReplyMessage.encode, List.append_assoc]
    rfl

/-- OP_KILL_CURSORS. -/
def KillCursorsMessage.encode (m : KillCursorsMessage) : List UInt8 :=
  m.header.bytes ++ int32Bytes m.reserved ++ int32Bytes m.numCursors ++
    (m.cursorIds.map int64Bytes).flatten

theorem KillCursorsMessage.serialize_eq (m : KillCursorsMessage)
    (hn : m.numCursors.toInt = m.cursorIds.length) :
    m.serialize = ok { m with header := m.header.withSize m.encode.length, reserved := 0 }.encode := by
  have hids := length_flatten_int64Bytes
  have hlen : (m.encode.length : Int) = 16 + 8 + 8 * m.numCursors.toInt := by
    simp only [KillCursorsMessage.encode, List.length_append, length_header_bytes,
      length_int32Bytes, hids]
    omega
  unfold KillCursorsMessage.serialize
  dsimp only
  rw [← hlen, make_of_nonneg (by omega), ok_bind]
  refine OkWith.eq_ok ?_
  refine (writeInto_filled (filled_replicate _ _) (by omega) _).bind fun b₁ h₁ => ?_
  refine (writeInt32_filled h₁ (by simp) (by simp; omega) 0).bind fun b₂ h₂ => ?_
  refine (writeInt32_filled h₂ (by simp) (by simp; omega) m.numCursors).bind fun b₃ h₃ => ?_
  -- the ids, eight bytes each, up to the end of the buffer
  have hfold := foldlM_okWith m.cursorIds (f := fun (st : List UInt8 × Int) (c : Int64) => do
      let buf ← writeInt64 c st.1 st.2
      pure (buf, st.2 + 8))
    (fun done (r : List UInt8 × Int) =>
      Filled (m.encode.length : Int).toNat ((m.header.withSize m.encode.length).bytes ++
        int32Bytes 0 ++ int32Bytes m.numCursors ++ (done.map int64Bytes).flatten) r.1 ∧
      r.2 = 24 + 8 * done.length) ?_ (b := (b₃, 24))
    ⟨by rw [List.map_nil, List.flatten_nil, List.append_nil]; exact h₃, by simp⟩
  · refine hfold.bind fun ⟨b₄, _⟩ ⟨h₄, _⟩ => okWith_pure ?_
    refine (h₄.eq ?_).trans ?_
    · simp [hids]
      omega
    · simp only [KillCursorsMessage.encode, List.append_assoc]
  · rintro done c rest ⟨buf', loc'⟩ hsplit ⟨hf, hl⟩
    dsimp only at hf hl
    have hcount := congrArg List.length hsplit
    simp only [List.length_append, List.length_cons] at hcount
    refine (writeInt64_filled hf (by simp [hl, hids]; omega) (by simp [hids]; omega) c).bind
      fun b hb => okWith_pure ⟨by simpa using hb, ?_⟩
    simp only [hl, List.length_append, List.length_singleton]
    omega

/-! ### OP_MSG -/

/-- An OP_MSG section: the kind byte, then the body, or the size (not counting the kind byte),
the identifier and the documents. -/
def MessageMessageSection.encode : MessageMessageSection → List UInt8
  | .body s => 0 :: s.body.bytes
  | .docSeq s => 1 :: (int32Bytes (s.size - 1) ++ cstringBytes s.sequenceId ++ docsBytes s.documents)

/-- OP_MSG. -/
def MessageMessage.encode (m : MessageMessage) : List UInt8 :=
  m.header.bytes ++ int32Bytes m.flagBits ++ (m.sections.map MessageMessageSection.encode).flatten

/-- The documents of a section can be placed by `Copy`. -/
def MessageMessageSection.Sized : MessageMessageSection → Prop
  | .body s => s.body.Sized
  | .docSeq s => ∀ d ∈ s.documents, d.Sized

theorem MessageMessageSection.toInt_size {s : MessageMessageSection} (hs : s.Sized)
    (hlt : s.encode.length < 2 ^ 31) : s.size.toInt = s.encode.length := by
  cases s with
  | body b =>
    have hb := SimpleBSON.length_bytes hs
    have h0 := hs.1
    have h1 : (1 : Int32).toInt = 1 := by decide
    simp only [MessageMessageSection.encode, List.length_cons] at hlt ⊢
    simp only [MessageMessageSection.size, BodySection.size]
    rw [toInt_add_of_range (by omega) (by omega), h1]
    omega
  | docSeq d =>
    have hdl := length_docsBytes hs
    simp only [MessageMessageSection.encode, List.length_cons, List.length_append,
      length_int32Bytes, length_cstringBytes] at hlt ⊢
    have h1 : (1 : Int32).toInt = 1 := by decide
    have h5 : (5 : Int32).toInt = 5 := by decide
    have hk := toInt_ofNat_of_lt (k := d.sequenceId.length) (by omega)
    -- the fixed part `5 + (len(id) + 1)`, then the documents
    have hk1 : (Int32.ofNat d.sequenceId.length + 1).toInt = d.sequenceId.length + 1 := by
      rw [toInt_add_of_range (by omega) (by omega), hk, h1]
    have hid : (5 + (Int32.ofNat d.sequenceId.length + 1)).toInt = d.sequenceId.length + 6 := by
      rw [toInt_add_of_range (by omega) (by omega), h5, hk1]
      omega
    have hdocs : ((d.documents.map (·.size)).map Int32.toInt).sum = docsSize d.documents := by
      simp [docsSize, Function.comp_def]
    have hnonneg : ∀ x ∈ d.documents.map (·.size), 0 ≤ x.toInt := by
      intro x hx
      obtain ⟨e, he, rfl⟩ := List.mem_map.mp hx
      exact (hs e he).1
    simp only [MessageMessageSection.size, DocumentSequenceSection.size]
    rw [toInt_foldl_add _ (by omega) hnonneg (by omega), hid, hdocs]
    omega

theorem MessageMessageSection.writeInto_filled {n : Nat} {pre buf : List UInt8} {loc : Int}
    (h : Filled n pre buf) (hloc : loc = pre.length) {s : MessageMessageSection} (hs : s.Sized)
    (hn : pre.length + s.encode.length ≤ n) :
    (s.writeInto buf loc).OkWith fun r =>
      Filled n (pre ++ s.encode) r.1 ∧ r.2 = (pre ++ s.encode).length := by
  cases s with
  | body b =>
    have hb := SimpleBSON.length_bytes hs
    have h0 := hs.1
    simp only [MessageMessageSection.encode, List.length_cons] at hn
    simp only [MessageMessageSection.writeInto, BodySection.writeInto]
    refine (setIndex_filled h hloc (by omega) 0).bind fun b₁ h₁ => ?_
    refine (copy_filled h₁ (by simp [hloc]) hs (by simp; omega)).mono fun r hr => ?_
    simpa [MessageMessageSection.encode] using hr
  | docSeq d =>
    have hdl := length_docsBytes hs
    simp only [MessageMessageSection.encode, List.length_cons, List.length_append,
      length_int32Bytes, length_cstringBytes] at hn
    simp only [MessageMessageSection.writeInto, DocumentSequenceSection.writeInto]
    refine (setIndex_filled h hloc (by omega) 1).bind fun b₁ h₁ => ?_
    refine (writeInt32_filled h₁ (by simp [hloc]) (by simp; omega) _).bind fun b₂ h₂ => ?_
    refine (writeCString_filled h₂ (by simp [hloc]) d.sequenceId (by simp; omega)).bind
      fun r₃ hr₃ => ?_
    obtain ⟨b₃, l₃⟩ := r₃
    obtain ⟨h₃, hl₃⟩ := hr₃
    dsimp only at hl₃ ⊢
    refine (copyDocs_filled h₃ hl₃ hs (by simp; omega)).mono fun r hr => ?_
    simpa [MessageMessageSection.encode, List.append_assoc] using hr

theorem MessageMessage.serialize_eq (m : MessageMessage) (hs : ∀ s ∈ m.sections, s.Sized)
    (hlt : m.encode.length < 2 ^ 31) :
    m.serialize = ok
      { m with header := m.header.withSize m.encode.length, flagBits := m.flagBits &&& ~~~1 }.encode := by
  have hsecs : ∀ secs : List MessageMessageSection,
      ((secs.map MessageMessageSection.encode).flatten).length =
        (secs.map fun s => s.encode.length).sum := by
    intro secs
    simp [List.length_flatten, Function.comp_def]
  have hlen : m.encode.length = 20 + (m.sections.map fun s => s.encode.length).sum := by
    simp only [MessageMessage.encode, List.length_append, length_header_bytes, length_int32Bytes,
      hsecs]
  have hbound : ∀ s ∈ m.sections, s.encode.length < 2 ^ 31 := fun s hs' => by
    have hle : s.encode.length ≤ (m.sections.map fun s => s.encode.length).sum :=
      List.le_sum_of_mem (List.mem_map_of_mem hs')
    omega
  -- the `int32` sum of the section sizes is the length
  have hsum : ∀ secs : List MessageMessageSection, (∀ s ∈ secs, s ∈ m.sections) →
      ((secs.map MessageMessageSection.size).map Int32.toInt).sum =
        (((secs.map fun s => s.encode.length).sum : Nat) : Int) := by
    intro secs hsub
    induction secs with
    | nil => rfl
    | cons s secs ih =>
      have hmem := hsub s List.mem_cons_self
      simp only [List.map_cons, List.sum_cons, Nat.cast_add]
      rw [ih fun t ht => hsub t (List.mem_cons_of_mem s ht),
        MessageMessageSection.toInt_size (hs s hmem) (hbound s hmem)]
  have hsize : ((m.sections.map MessageMessageSection.size).foldl (· + ·) (16 + 4)).toInt =
      (m.encode.length : Int) := by
    have h20 : (16 + 4 : Int32).toInt = 20 := by decide
    have hnonneg : ∀ x ∈ m.sections.map MessageMessageSection.size, 0 ≤ x.toInt := by
      intro x hx
      obtain ⟨s, hs', rfl⟩ := List.mem_map.mp hx
      rw [MessageMessageSection.toInt_size (hs s hs') (hbound s hs')]
      omega
    rw [toInt_foldl_add _ (by omega) hnonneg (by rw [hsum _ fun _ h => h]; omega), h20,
      hsum _ fun _ h => h]
    omega
  have hsize' : (m.sections.map MessageMessageSection.size).foldl (· + ·) (16 + 4) =
      Int32.ofInt m.encode.length := by
    rw [← hsize, Int32.ofInt_toInt]
  unfold MessageMessage.serialize
  dsimp only
  rw [hsize, make_of_nonneg (by omega), ok_bind, hsize']
  refine OkWith.eq_ok ?_
  refine (writeInto_filled (filled_replicate _ _) (by omega) _).bind fun b₁ h₁ => ?_
  refine (writeInt32_filled h₁ (by simp) (by simp; omega) _).bind fun b₂ h₂ => ?_
  -- the sections one after another
  have hfold := foldlM_okWith m.sections
    (f := fun (st : List UInt8 × Int) (s : MessageMessageSection) => s.writeInto st.1 st.2)
    (fun done (r : List UInt8 × Int) =>
      Filled (m.encode.length : Int).toNat ((m.header.withSize m.encode.length).bytes ++
        int32Bytes (m.flagBits &&& ~~~1) ++ (done.map MessageMessageSection.encode).flatten) r.1 ∧
      r.2 = 20 + (done.map fun s => s.encode.length).sum) ?_ (b := (b₂, 20))
    ⟨by rw [List.map_nil, List.flatten_nil, List.append_nil]; exact h₂, by simp⟩
  · refine hfold.bind fun ⟨b₃, _⟩ ⟨h₃, _⟩ => okWith_pure ?_
    refine (h₃.eq ?_).trans ?_
    · simp only [List.length_append, length_header_bytes, length_int32Bytes, hsecs]
      omega
    · simp only [MessageMessage.encode, List.append_assoc]
  · rintro done s rest ⟨buf', loc'⟩ hsplit ⟨hf, hl⟩
    dsimp only at hf hl ⊢
    have hsum := congrArg (fun secs : List MessageMessageSection =>
      (secs.map fun s => s.encode.length).sum) hsplit
    simp only [List.map_append, List.map_cons, List.sum_append, List.sum_cons] at hsum
    refine (MessageMessageSection.writeInto_filled hf (by simp [hl, hsecs]; omega)
      (hs s (by rw [← hsplit]; simp)) (by simp [hsecs]; omega)).mono fun r hr => ?_
    refine ⟨by simpa [List.append_assoc] using hr.1, ?_⟩
    rw [hr.2]
    simp [hsecs]
    omega

/-! ## Every kind -/

namespace Message

/-- The layout of a message, every field as it is. -/
def encode : Message → List UInt8
  | reply m => m.encode
  | update m => m.encode
  | insert m => m.encode
  | query m => m.encode
  | getMore m => m.encode
  | delete m => m.encode
  | killCursors m => m.encode
  | command m => m.encode
  | commandReply m => m.encode
  | msg m => m.encode

/-- The message as `Serialize` writes it: the new size in the header, zero for the reserved
words, and the OP_MSG flag bits without `checksumPresent`. -/
def canonical : Message → Message
  | reply m => reply { m with header := m.header.withSize m.encode.length }
  | update m => update { m with header := m.header.withSize m.encode.length, reserved := 0 }
  | insert m => insert { m with header := m.header.withSize m.encode.length }
  | query m => query { m with header := m.header.withSize m.encode.length }
  | getMore m => getMore { m with header := m.header.withSize m.encode.length, reserved := 0 }
  | delete m => delete { m with header := m.header.withSize m.encode.length, reserved := 0 }
  | killCursors m =>
    killCursors { m with header := m.header.withSize m.encode.length, reserved := 0 }
  | command m => command { m with header := m.header.withSize m.encode.length }
  | commandReply m => commandReply { m with header := m.header.withSize m.encode.length }
  | msg m =>
    msg { m with header := m.header.withSize m.encode.length, flagBits := m.flagBits &&& ~~~1 }

/-- What `Serialize` needs to write a message without a panic and without leaving zeros: every
document can be placed by `Copy` (OP_REPLY's are copied whole, so their `Size` is their length),
OP_KILL_CURSORS has as many ids as `NumCursors` says, and an OP_MSG fits in an `int32`. -/
def Sized : Message → Prop
  | reply m => ∀ d ∈ m.docs, d.size.toInt = d.bson.length
  | update m => m.filter.Sized ∧ m.update.Sized
  | insert m => ∀ d ∈ m.docs, d.Sized
  | query m => m.query.Sized ∧ m.project.Sized
  | getMore _ => True
  | delete m => m.filter.Sized
  | killCursors m => m.numCursors.toInt = m.cursorIds.length
  | command m => m.commandArgs.Sized ∧ m.metadata.Sized ∧ ∀ d ∈ m.inputDocs, d.Sized
  | commandReply m => m.commandReply.Sized ∧ m.metadata.Sized ∧ ∀ d ∈ m.outputDocs, d.Sized
  | msg m => (∀ s ∈ m.sections, s.Sized) ∧ m.encode.length < 2 ^ 31

/-- **`Serialize` writes the layout** of the message with the fields it computes. -/
theorem serialize_eq (m : Message) (h : m.Sized) : m.serialize = ok m.canonical.encode := by
  cases m with
  | reply m => exact ReplyMessage.serialize_eq m h
  | update m => exact UpdateMessage.serialize_eq m h.1 h.2
  | insert m => exact InsertMessage.serialize_eq m h
  | query m => exact QueryMessage.serialize_eq m h.1 h.2
  | getMore m => exact GetMoreMessage.serialize_eq m
  | delete m => exact DeleteMessage.serialize_eq m h
  | killCursors m => exact KillCursorsMessage.serialize_eq m h
  | command m => exact CommandMessage.serialize_eq m h.1 h.2.1 h.2.2
  | commandReply m => exact CommandReplyMessage.serialize_eq m h.1 h.2.1 h.2.2
  | msg m => exact MessageMessage.serialize_eq m h.1 h.2

end Message

end Mongonet
