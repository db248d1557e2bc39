import Mongonet.Wire.Sock

/-!
# Mongonet.Wire.Total — `ReadMessage` never panics and always returns

For every reader and every byte stream, `readMessage` returns a message or an error: no slice
or index leaves its buffer, and every loop stops before its bound.  The proof goes bottom up,
one `ReturnsWith` lemma per function, whose postcondition is what the callers need: mostly
that a parsed document or section lies inside the buffer and is at least one byte long, the
measure that makes each parse loop advance.
-/

namespace Mongonet

open Go Result

/-! ## Primitives -/

theorem sliceFrom_spec {α : Type} {b : List α} {lo : Int} (h0 : 0 ≤ lo) (h : lo ≤ b.length) :
    (sliceFrom b lo : Res (List α)).ReturnsWith fun r => r = b.drop lo.toNat := by
  unfold sliceFrom
  rw [if_pos ⟨h0, h⟩]
  exact returnsWith_ok rfl

theorem sliceFrom_bind {α β : Type} {b : List α} {lo : Int} {f : List α → Res β} {Q : β → Prop}
    (h0 : 0 ≤ lo) (h : lo ≤ b.length) (hf : (f (b.drop lo.toNat)).ReturnsWith Q) :
    (sliceFrom b lo >>= f).ReturnsWith Q :=
  (sliceFrom_spec h0 h).bind fun _ hr => hr ▸ hf

theorem setIndex_spec {α : Type} {b : List α} {i : Int} (h0 : 0 ≤ i) (h : i < b.length) (v : α) :
    (setIndex b i v : Res (List α)).ReturnsWith fun r => r.length = b.length := by
  unfold setIndex
  rw [if_pos ⟨h0, h⟩]
  exact returnsWith_ok (List.length_set ..)

theorem readInt32_eq {b : List UInt8} (h : 4 ≤ b.length) :
    readInt32 b = ok (Int32.ofNat (leNat (b.take 4))) := by
  rcases b with _ | ⟨b0, _ | ⟨b1, _ | ⟨b2, _ | ⟨b3, t⟩⟩⟩⟩ <;> simp_all [readInt32]

theorem readInt64_eq {b : List UInt8} (h : 8 ≤ b.length) :
    readInt64 b = ok (Int64.ofNat (leNat (b.take 8))) := by
  rcases b with _ | ⟨b0, _ | ⟨b1, _ | ⟨b2, _ | ⟨b3, _ | ⟨b4, _ | ⟨b5, _ | ⟨b6, _ | ⟨b7, t⟩⟩⟩⟩⟩⟩⟩⟩ <;>
    simp_all [readInt64]

theorem readInt32_spec {b : List UInt8} (h : 4 ≤ b.length) :
    (readInt32 b).ReturnsWith fun _ => True :=
  returnsWith_of_eq_ok (readInt32_eq h) trivial

theorem readInt64_spec {b : List UInt8} (h : 8 ≤ b.length) :
    (readInt64 b).ReturnsWith fun _ => True :=
  returnsWith_of_eq_ok (readInt64_eq h) trivial

theorem readInt32_bind {β : Type} {b : List UInt8} {f : Int32 → Res β} {Q : β → Prop}
    (h : 4 ≤ b.length) (hf : ∀ v, (f v).ReturnsWith Q) : (readInt32 b >>= f).ReturnsWith Q :=
  (readInt32_spec h).bind fun v _ => hf v

theorem readInt64_bind {β : Type} {b : List UInt8} {f : Int64 → Res β} {Q : β → Prop}
    (h : 8 ≤ b.length) (hf : ∀ v, (f v).ReturnsWith Q) : (readInt64 b >>= f).ReturnsWith Q :=
  (readInt64_spec h).bind fun v _ => hf v

theorem readCString_spec (b : List UInt8) :
    (readCString b).ReturnsWith fun s => s.length + 1 ≤ b.length := by
  induction b with
  | nil => exact returnsWith_error _ _
  | cons c b ih =>
    unfold readCString
    refine returnsWith_ite (fun _ => returnsWith_ok (by simp)) fun _ => ?_
    refine ih.bind fun s hs => returnsWith_ok ?_
    simp only [List.length_cons]
    omega

theorem parseSimpleBSON_spec (b : List UInt8) :
    (parseSimpleBSON b).ReturnsWith fun sb => 1 ≤ sb.size.toInt ∧ sb.size.toInt ≤ b.length := by
  unfold parseSimpleBSON
  refine returnsWith_ite (fun _ => returnsWith_error _ _) fun h4 => ?_
  rw [readInt32_eq (by omega), ok_bind]
  generalize Int32.ofNat (leNat (b.take 4)) = size
  have h4' : (4 : Int32).toInt = 4 := by decide
  refine returnsWith_ite (fun _ => returnsWith_pure (by dsimp only; omega)) fun h0 => ?_
  refine returnsWith_ite (fun _ => returnsWith_error _ _) fun hrange => ?_
  refine returnsWith_ite (fun _ => returnsWith_error _ _) fun hlen => ?_
  unfold slice
  rw [if_pos ⟨le_refl _, by omega, by omega⟩, ok_bind]
  exact returnsWith_pure (by dsimp only; omega)

/-! ## The parse loops -/

theorem docsLoop_spec (buf : List UInt8) {loc : Int} (h0 : 0 ≤ loc) (h : loc ≤ buf.length)
    (docs : List SimpleBSON) :
    (docsLoop buf (buf.length + 1) (loc, docs)).ReturnsWith fun _ => True := by
  unfold docsLoop
  refine (loop_returnsWith (fun st : Int × List SimpleBSON => 0 ≤ st.1 ∧ st.1 ≤ buf.length)
    (fun st => (buf.length - st.1).toNat) ?_ _ _ ⟨h0, h⟩ (by omega)).mono fun _ _ => trivial
  rintro ⟨loc, docs⟩ ⟨h0, h⟩ -
  refine (sliceFrom_spec h0 h).bind fun rest hrest => ?_
  refine (parseSimpleBSON_spec rest).bind fun doc ⟨hpos, hle⟩ => returnsWith_pure ?_
  subst hrest
  simp only [List.length_drop] at hle
  omega

theorem trailingDocsLoop_spec (buf : List UInt8) (docs : List SimpleBSON) :
    (trailingDocsLoop (buf.length + 1) (buf, docs)).ReturnsWith fun _ => True := by
  unfold trailingDocsLoop
  refine (loop_returnsWith (fun _ => True) (fun st : List UInt8 × List SimpleBSON => st.1.length)
    ?_ _ _ trivial (by simp)).mono fun _ _ => trivial
  rintro ⟨rest, docs⟩ - -
  refine (parseSimpleBSON_spec rest).bind fun doc ⟨hpos, hle⟩ => ?_
  refine (sliceFrom_spec (by omega) hle).bind fun r hr => returnsWith_pure ⟨trivial, ?_⟩
  subst hr
  simp only [List.length_drop]
  omega

theorem cursorIdsLoop_spec (buf : List UInt8) {n : Int} (hn : 0 ≤ n) (hlen : 8 + 8 * n ≤ buf.length)
    (ids : List Int64) (hids : ids.length = n) :
    (cursorIdsLoop buf n (n.toNat + 1) (0, 8, ids)).ReturnsWith fun _ => True := by
  unfold cursorIdsLoop
  refine (loop_returnsWith (fun st : Int × Int × List Int64 => 0 ≤ st.1 ∧ st.1 ≤ n ∧
      st.2.1 = 8 + 8 * st.1 ∧ st.2.2.length = n) (fun st => (n - st.1).toNat) ?_ _ _
      ⟨le_refl _, hn, by simp, hids⟩ (by omega)).mono fun _ _ => trivial
  rintro ⟨i, loc, ids⟩ ⟨hi0, hin, hloc, hids⟩ hc
  dsimp only at hi0 hin hloc hids hc ⊢
  simp only [decide_eq_true_eq] at hc
  refine (sliceFrom_spec (by omega) (by omega)).bind fun rest hrest => ?_
  refine (readInt64_spec (by subst hrest; simp; omega)).bind fun c _ => ?_
  refine (setIndex_spec hi0 (by omega) c).bind fun ids' hids' => returnsWith_pure ?_
  simp only
  omega

theorem docSeqLoop_spec (buf : List UInt8) {loc : Int} (h0 : 0 ≤ loc) (h : loc ≤ buf.length)
    (esr : Int32) (docs : List SimpleBSON) (docNum : Int) :
    (docSeqLoop buf (buf.length + 1) (esr, loc, docs, docNum)).ReturnsWith
      fun st => loc ≤ st.2.1 ∧ st.2.1 ≤ buf.length := by
  unfold docSeqLoop
  refine (loop_returnsWith (fun st : Int32 × Int × List SimpleBSON × Int =>
      loc ≤ st.2.1 ∧ st.2.1 ≤ buf.length) (fun st => (buf.length - st.2.1).toNat) ?_ _ _
      ⟨le_refl _, h⟩ (by dsimp only; omega)).mono fun _ hs => hs.1
  rintro ⟨esr, l, docs, docNum⟩ ⟨hl0, hl⟩ -
  dsimp only at hl0 hl ⊢
  refine (sliceFrom_spec (by omega) hl).bind fun rest hrest => ?_
  refine (parseSimpleBSON_spec rest).bind fun doc ⟨hpos, hle⟩ => ?_
  subst hrest
  simp only [List.length_drop] at hle
  refine returnsWith_ite (fun _ => returnsWith_error _ _) fun _ => returnsWith_pure ?_
  simp only
  omega

/-! ## OP_MSG sections -/

theorem parseBodySection_spec (buf : List UInt8) {loc : Int} (h0 : 0 ≤ loc)
    (h : loc ≤ buf.length) :
    (parseBodySection buf loc).ReturnsWith fun r => loc < r.2 ∧ r.2 ≤ buf.length := by
  unfold parseBodySection
  refine (sliceFrom_spec h0 h).bind fun rest hrest => ?_
  refine (parseSimpleBSON_spec rest).bind fun doc ⟨hpos, hle⟩ => returnsWith_pure ?_
  subst hrest
  simp only [List.length_drop] at hle
  simp only
  omega

theorem parseDocumentSequenceSection_spec (buf : List UInt8) {loc : Int} (h0 : 0 ≤ loc)
    (h : loc ≤ buf.length) :
    (parseDocumentSequenceSection buf loc).ReturnsWith fun r => loc < r.2 ∧ r.2 ≤ buf.length := by
  unfold parseDocumentSequenceSection
  refine (sliceFrom_spec h0 h).bind fun rest hrest => ?_
  subst hrest
  simp only [List.length_drop]
  refine returnsWith_ite (fun _ => returnsWith_error _ _) fun h4 => ?_
  refine (readInt32_spec (by simp; omega)).bind fun expected _ => ?_
  refine returnsWith_ite (fun _ => returnsWith_error _ _) fun _ => ?_
  refine (sliceFrom_spec (by omega) (by omega)).bind fun rest hrest => ?_
  refine (readCString_spec rest).bind fun sid hsid => ?_
  subst hrest
  simp only [List.length_drop] at hsid
  refine (docSeqLoop_spec buf (by omega) (by omega) _ _ _).bind fun st hst => ?_
  obtain ⟨e, l, docs, n⟩ := st
  exact returnsWith_pure (by simp only at hst ⊢; omega)

theorem parseMessageMessageSection_spec (buf : List UInt8) {loc : Int} (h0 : 0 ≤ loc)
    (h : loc < buf.length) :
    (parseMessageMessageSection buf loc).ReturnsWith fun r => loc < r.2 ∧ r.2 ≤ buf.length := by
  unfold parseMessageMessageSection index
  rw [dif_pos ⟨h0, h⟩, ok_bind]
  refine returnsWith_ite (fun _ => (parseBodySection_spec buf (by omega) (by omega)).mono
    fun r hr => ⟨by omega, hr.2⟩) fun _ => ?_
  refine returnsWith_ite (fun _ => (parseDocumentSequenceSection_spec buf (by omega)
    (by omega)).mono fun r hr => ⟨by omega, hr.2⟩) fun _ => ?_
  rw [dif_pos ⟨le_refl _, by omega⟩, ok_bind]
  exact returnsWith_error _ _

theorem sectionsLoop_spec {buf : List UInt8} (h4 : 4 ≤ buf.length)
    (sections : List MessageMessageSection) :
    (sectionsLoop buf (buf.length + 1) (4, sections)).ReturnsWith fun _ => True := by
  unfold sectionsLoop
  refine (loop_returnsWith (fun st : Int × List MessageMessageSection =>
      0 ≤ st.1 ∧ st.1 ≤ buf.length) (fun st => (buf.length - st.1).toNat) ?_ _ _
      ⟨by omega, by omega⟩ (by omega)).mono fun _ _ => trivial
  rintro ⟨loc, secs⟩ ⟨hl0, hl⟩ hc
  dsimp only at hl0 hl hc
  simp only [decide_eq_true_eq] at hc
  refine (parseMessageMessageSection_spec buf (by omega) (by omega)).bind
    fun r hr => ?_
  obtain ⟨sec, l⟩ := r
  exact returnsWith_pure (by simp only at hr ⊢; omega)

/-! ## The ten parsers -/

section Parsers

variable (header : MessageHeader) (buf : List UInt8)

theorem parseReplyMessage_returns : (parseReplyMessage header buf).Returns := by
  unfold parseReplyMessage
  refine (returnsWith_ite (P := fun _ => True) (fun _ => returnsWith_error _ _) fun h => ?_).returns
  refine sliceFrom_bind (le_refl _) (by omega) (readInt32_bind (by simp; omega) fun _ => ?_)
  refine sliceFrom_bind (by omega) (by omega) (readInt64_bind (by simp; omega) fun _ => ?_)
  refine sliceFrom_bind (by omega) (by omega) (readInt32_bind (by simp; omega) fun _ => ?_)
  refine sliceFrom_bind (by omega) (by omega) (readInt32_bind (by simp; omega) fun _ => ?_)
  exact (docsLoop_spec buf (by omega) (by omega) []).bind fun _ _ => returnsWith_pure trivial

theorem parseUpdateMessage_returns : (parseUpdateMessage header buf).Returns := by
  unfold parseUpdateMessage
  refine (returnsWith_ite (P := fun _ => True) (fun _ => returnsWith_error _ _) fun h => ?_).returns
  refine sliceFrom_bind (le_refl _) (by omega) (readInt32_bind (by simp; omega) fun _ => ?_)
  refine sliceFrom_bind (by omega) (by omega) ((readCString_spec _).bind fun ns hns => ?_)
  simp only [List.length_drop] at hns
  refine returnsWith_ite (fun _ => returnsWith_error _ _) fun h' => ?_
  refine sliceFrom_bind (by omega) (by omega) (readInt32_bind (by simp; omega) fun _ => ?_)
  refine sliceFrom_bind (by omega) (by omega) ((parseSimpleBSON_spec _).bind fun f hf => ?_)
  simp only [List.length_drop] at hf
  refine returnsWith_ite (fun _ => returnsWith_error _ _) fun h'' => ?_
  exact sliceFrom_bind (by omega) (by omega)
    ((parseSimpleBSON_spec _).bind fun _ _ => returnsWith_pure trivial)

theorem parseInsertMessage_returns : (parseInsertMessage header buf).Returns := by
  unfold parseInsertMessage
  refine (returnsWith_ite (P := fun _ => True) (fun _ => returnsWith_error _ _) fun h => ?_).returns
  refine sliceFrom_bind (le_refl _) (by omega) (readInt32_bind (by simp; omega) fun _ => ?_)
  refine sliceFrom_bind (by omega) (by omega) ((readCString_spec _).bind fun ns hns => ?_)
  simp only [List.length_drop] at hns
  exact (docsLoop_spec buf (by omega) (by omega) []).bind fun _ _ => returnsWith_pure trivial

theorem parseQueryMessage_returns : (parseQueryMessage header buf).Returns := by
  unfold parseQueryMessage
  refine (returnsWith_ite (P := fun _ => True) (fun _ => returnsWith_error _ _) fun h => ?_).returns
  refine readInt32_bind (by omega) fun _ => ?_
  refine sliceFrom_bind (by omega) (by omega) ((readCString_spec _).bind fun ns hns => ?_)
  simp only [List.length_drop] at hns
  refine returnsWith_ite (fun _ => returnsWith_error _ _) fun h' => ?_
  refine sliceFrom_bind (by omega) (by omega) (readInt32_bind (by simp; omega) fun _ => ?_)
  refine sliceFrom_bind (by omega) (by omega) (readInt32_bind (by simp; omega) fun _ => ?_)
  refine sliceFrom_bind (by omega) (by omega) ((parseSimpleBSON_spec _).bind fun q hq => ?_)
  simp only [List.length_drop] at hq
  -- the projection is read only when bytes are left
  dsimp only
  refine returnsWith_ite (fun h'' => ?_) fun _ => returnsWith_of_eq_ok rfl trivial
  exact (sliceFrom_bind (by omega) (by omega) (parseSimpleBSON_spec _)).bind
    fun _ _ => returnsWith_pure trivial

theorem parseGetMoreMessage_returns : (parseGetMoreMessage header buf).Returns := by
  unfold parseGetMoreMessage
  refine (returnsWith_ite (P := fun _ => True) (fun _ => returnsWith_error _ _) fun h => ?_).returns
  refine readInt32_bind (by omega) fun _ => ?_
  refine sliceFrom_bind (by omega) (by omega) ((readCString_spec _).bind fun ns hns => ?_)
  simp only [List.length_drop] at hns
  refine returnsWith_ite (fun _ => returnsWith_error _ _) fun h' => ?_
  refine sliceFrom_bind (by omega) (by omega) (readInt32_bind (by simp; omega) fun _ => ?_)
  exact sliceFrom_bind (by omega) (by omega)
    (readInt64_bind (by simp; omega) fun _ => returnsWith_pure trivial)

theorem parseDeleteMessage_returns : (parseDeleteMessage header buf).Returns := by
  unfold parseDeleteMessage
  refine (returnsWith_ite (P := fun _ => True) (fun _ => returnsWith_error _ _) fun h => ?_).returns
  refine sliceFrom_bind (le_refl _) (by omega) (readInt32_bind (by simp; omega) fun _ => ?_)
  refine sliceFrom_bind (by omega) (by omega) ((readCString_spec _).bind fun ns hns => ?_)
  simp only [List.length_drop] at hns
  refine returnsWith_ite (fun _ => returnsWith_error _ _) fun h' => ?_
  refine sliceFrom_bind (by omega) (by omega) (readInt32_bind (by simp; omega) fun _ => ?_)
  exact sliceFrom_bind (by omega) (by omega)
    ((parseSimpleBSON_spec _).bind fun _ _ => returnsWith_pure trivial)

/-- OP_KILL_CURSORS: a negative `NumCursors` passes the length check (its product with 8 is
negative) and is refused by the sign check right after it, before `make`. -/
theorem parseKillCursorsMessage_returns : (parseKillCursorsMessage header buf).Returns := by
  unfold parseKillCursorsMessage
  refine (returnsWith_ite (P := fun _ => True) (fun _ => returnsWith_error _ _) fun h => ?_).returns
  refine readInt32_bind (by omega) fun _ => ?_
  refine sliceFrom_bind (by omega) (by omega) (readInt32_bind (by simp; omega) fun n => ?_)
  refine sliceFrom_bind (by omega) (by omega) ?_
  simp only [List.length_drop]
  refine returnsWith_ite (fun _ => returnsWith_error _ _) fun hlen => ?_
  refine returnsWith_ite (fun _ => returnsWith_error _ _) fun hsign => ?_
  unfold make
  rw [if_pos (by omega), ok_bind]
  exact (cursorIdsLoop_spec buf (by omega) (by omega) _ (by rw [List.length_replicate]; omega)).bind
    fun _ _ => returnsWith_pure trivial

theorem nextCString_spec (b : List UInt8) :
    (nextCString b).ReturnsWith fun r => r.2.length < b.length := by
  unfold nextCString
  refine (readCString_spec b).bind fun s hs => ?_
  refine returnsWith_ite (fun _ => returnsWith_error _ _) fun _ => ?_
  exact sliceFrom_bind (by omega) (by omega) (returnsWith_pure (by simp; omega))

theorem nextBSON_spec (b : List UInt8) : (nextBSON b).ReturnsWith fun _ => True := by
  unfold nextBSON
  refine (parseSimpleBSON_spec b).bind fun doc hdoc => ?_
  refine returnsWith_ite (fun _ => returnsWith_error _ _) fun _ => ?_
  exact sliceFrom_bind (by omega) (by omega) (returnsWith_pure trivial)

theorem parseCommandMessage_returns : (parseCommandMessage header buf).Returns := by
  unfold parseCommandMessage
  refine ((nextCString_spec buf).bind (Q := fun _ => True) fun ⟨_, b₁⟩ _ => ?_).returns
  refine (nextCString_spec b₁).bind fun ⟨_, b₂⟩ _ => ?_
  refine (nextBSON_spec b₂).bind fun ⟨_, b₃⟩ _ => ?_
  refine (nextBSON_spec b₃).bind fun ⟨_, b₄⟩ _ => ?_
  exact (trailingDocsLoop_spec b₄ []).bind fun _ _ => returnsWith_pure trivial

theorem parseCommandReplyMessage_returns : (parseCommandReplyMessage header buf).Returns := by
  unfold parseCommandReplyMessage
  refine ((nextBSON_spec buf).bind (Q := fun _ => True) fun ⟨_, b₁⟩ _ => ?_).returns
  refine (nextBSON_spec b₁).bind fun ⟨_, b₂⟩ _ => ?_
  exact (trailingDocsLoop_spec b₂ []).bind fun _ _ => returnsWith_pure trivial

theorem parseMessageMessage_returns : (parseMessageMessage header buf).Returns := by
  unfold parseMessageMessage
  refine (returnsWith_ite (P := fun _ => True) (fun _ => returnsWith_error _ _) fun h => ?_).returns
  refine readInt32_bind (by omega) fun _ => ?_
  exact (sectionsLoop_spec (by omega) []).bind fun _ _ => returnsWith_pure trivial

end Parsers

/-! ## Reading the frame -/

theorem toInt_ofInt_of_le {n : Int} (h0 : -2147483648 ≤ n) (h1 : n ≤ maxInt32) :
    (Int32.ofInt n).toInt = n := by
  rw [Int32.toInt_ofInt]
  exact Int.bmod_eq_of_le (by simp; omega) (by simp [maxInt32] at h1 ⊢; omega)

theorem checkSize_spec (size : Int32) :
    (checkSize size).ReturnsWith fun n => 0 ≤ n.toInt ∧ n.toInt ≤ maxInt32 := by
  unfold checkSize
  refine returnsWith_ite (fun _ => ?_) fun _ => ?_
  · exact returnsWith_ite (fun _ => returnsWith_error _ _) fun _ => returnsWith_error _ _
  · refine returnsWith_ite (fun _ => returnsWith_error _ _) fun h => returnsWith_ok ?_
    omega

section ReadLoop

variable {σ : Type} (r : Reader GoError σ) {bodyLen : Int32}

/-- The body loop fills a buffer of `header.Size - 4` bytes: `read` stays in `[0, len(restBuf)]`
because `Read` reports at most `len(restBuf[read:])` bytes, and every iteration either reads at
least one byte or breaks.  Since `read` never leaves the `int32` range, `int32(read)` is `read`. -/
theorem readLoop_spec (h0 : 0 ≤ bodyLen.toInt) (hmax : bodyLen.toInt ≤ maxInt32) (s : σ) :
    (readLoop r bodyLen (bodyLen.toInt.toNat + 1)
      ⟨0, List.replicate bodyLen.toInt.toNat 0, s, false⟩).ReturnsWith
      fun st => st.restBuf.length = bodyLen.toInt.toNat := by
  unfold readLoop
  refine (loop_returnsWith (fun st : ReadLoop σ => 0 ≤ st.read ∧ st.read ≤ bodyLen.toInt ∧
      st.restBuf.length = bodyLen.toInt.toNat)
    (fun st => if st.broke then 0 else (bodyLen.toInt - st.read).toNat) ?_ _ _
    ⟨le_refl _, h0, by simp⟩ (by simp only [Bool.false_eq_true, if_false]; omega)).mono
    fun _ hs => hs.1.2.2
  rintro ⟨read, buf, s, broke⟩ ⟨hr0, hrb, hbuf⟩ hc
  dsimp only at hr0 hrb hbuf hc
  simp only [Bool.and_eq_true, Bool.not_eq_eq_eq_not, Bool.not_true, decide_eq_true_eq] at hc
  obtain ⟨rfl, hlt⟩ := hc
  rw [toInt_ofInt_of_le (by omega) (by omega)] at hlt
  refine (sliceFrom_spec hr0 (by dsimp only; omega)).bind fun p hp => ?_
  have hle := r.read_le s p.length
  have hp' : p.length = bodyLen.toInt.toNat - read.toNat := by simp [hp, hbuf]
  -- name what the one `Read` returns
  split
  next data err s' hread =>
  rw [hread] at hle
  have hlen : (writeAt buf read.toNat data).length = bodyLen.toInt.toNat :=
    (length_writeAt (by omega) data).trans hbuf
  dsimp only at hle ⊢
  -- the error of `Read`, then its count: zero bytes breaks, more advances `read`
  cases err with
  | some e => exact returnsWith_error _ _
  | none =>
    refine returnsWith_ite (fun _ => returnsWith_pure ?_) fun hd => returnsWith_pure ?_
    · refine ⟨⟨hr0, hrb, hlen⟩, ?_⟩
      simp only [if_true, Bool.false_eq_true, if_false]
      omega
    · refine ⟨⟨by dsimp only; omega, by dsimp only; omega, hlen⟩, ?_⟩
      simp only [Bool.false_eq_true, if_false]
      omega

theorem readFrame_returns (s : σ) : (readFrame r s).Returns := by
  unfold readFrame
  split
  next sizeBuf err s' _ =>
  cases err with
  | some e => trivial
  | none =>
    refine (returnsWith_ite (P := fun _ => True) (fun _ => returnsWith_error _ _)
      fun h4 => ?_).returns
    refine readInt32_bind (by omega) fun size => ?_
    refine (checkSize_spec size).bind fun bodyLen ⟨h0, hmax⟩ => ?_
    rw [make_of_nonneg h0, ok_bind]
    exact (readLoop_spec r h0 hmax s').bind fun _ _ => returnsWith_pure trivial

end ReadLoop

theorem parseMessage_returns (size : Int32) (restBuf : List UInt8) :
    (parseMessage size restBuf).Returns := by
  unfold parseMessage
  refine (returnsWith_ite (P := fun _ => True) (fun _ => returnsWith_error _ _) fun h => ?_).returns
  refine readInt32_bind (by omega) fun requestID => ?_
  refine sliceFrom_bind (by omega) (by omega) (readInt32_bind (by simp; omega) fun responseTo => ?_)
  refine sliceFrom_bind (by omega) (by omega) (readInt32_bind (by simp; omega) fun opCode => ?_)
  refine sliceFrom_bind (by omega) (by omega) ⟨?_, fun _ _ => trivial⟩
  -- one branch per opcode, and the unknown-opcode error
  split_ifs
  · exact parseReplyMessage_returns _ _
  · exact parseUpdateMessage_returns _ _
  · exact parseInsertMessage_returns _ _
  · exact parseQueryMessage_returns _ _
  · exact parseGetMoreMessage_returns _ _
  · exact parseDeleteMessage_returns _ _
  · exact parseKillCursorsMessage_returns _ _
  · exact parseCommandMessage_returns _ _
  · exact parseCommandReplyMessage_returns _ _
  · exact parseMessageMessage_returns _ _
  · trivial

/-- `ReadMessage` is total: over every reader that keeps the `io.Reader` contract and from every
state of it, it returns a message or an error, with no out-of-range slice or index and no
loop that fails to stop. -/
theorem readMessage_returns {σ : Type} (r : Reader GoError σ) (s : σ) :
    (readMessage r s).Returns := by
  unfold readMessage
  refine (readFrame_returns r s).bind fun ⟨size, restBuf, s'⟩ _ => ?_
  exact (parseMessage_returns size restBuf).bind fun _ _ => trivial

end Mongonet
