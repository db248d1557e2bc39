import Mongonet.Wire.RoundTrip

/-!
# Mongonet.Wire.Inversion — what a parse that came back has read

The converse of `Mongonet.Wire.Decode`: each reader, loop and parser of `ReadMessage` that comes
back `ok` is inverted into the bytes it has read.  Every statement has the shape of a cursor over
the buffer: the bytes from offset `k` on are the field just read, followed by the bytes from the
offset after it (`b.drop k = x ++ b.drop (k + len(x))`), so that the facts of one parser chain by
rewriting, each field starting where the one before it ends.

* the readers at an offset (`readInt32_at`, `parseSimpleBSON_at`, ...), from the inversions of
  `readInt32`, `readCString` and `parseSimpleBSON` on their own;
* the five loops, by the invariant rule `Go.loop_inv`: the documents, ids or sections read so
  far are the bytes from where the loop started up to the offset it has reached;
* the OP_MSG sections, read back with the size field that each document sequence declared,
  which the parser checks only from above (`MessageMessageSection.encodeWith`);
* the ten body parsers, the dispatch on the opcode, the frame, and `ReadMessage` itself: a
  stream it reads in full is a layout of the message, with those size fields, followed by the
  bytes no parser read (`readMessage_eq_ok`).
-/

namespace Mongonet

open Go Result

/-! ## The readers -/

theorem int32Bytes_ofNat_leNat {t : List UInt8} (ht : t.length = 4) :
    int32Bytes (Int32.ofNat (leNat t)) = t := by
  have hlt : leNat t < 2 ^ 32 := by
    have := leNat_lt t
    rw [ht] at this
    simpa using this
  have hv : (Int32.ofNat (leNat t)).toBitVec.toNat = leNat t := by
    rw [Int32.toBitVec_ofNat', BitVec.toNat_ofNat, Nat.mod_eq_of_lt hlt]
  rw [int32Bytes, hv, ← ht, leBytes_leNat]

theorem int64Bytes_ofNat_leNat {t : List UInt8} (ht : t.length = 8) :
    int64Bytes (Int64.ofNat (leNat t)) = t := by
  have hlt : leNat t < 2 ^ 64 := by
    have := leNat_lt t
    rw [ht] at this
    simpa using this
  have hv : (Int64.ofNat (leNat t)).toBitVec.toNat = leNat t := by
    rw [Int64.toBitVec_ofNat', BitVec.toNat_ofNat, Nat.mod_eq_of_lt hlt]
  rw [int64Bytes, hv, ← ht, leBytes_leNat]

theorem readInt32_eq_ok {b : List UInt8} {v : Int32} (h : readInt32 b = ok v) :
    b = int32Bytes v ++ b.drop 4 := by
  unfold readInt32 at h
  split at h
  · rw [← Result.ok.inj h]
    rw [int32Bytes_ofNat_leNat rfl]
    rfl
  · cases h

theorem readInt64_eq_ok {b : List UInt8} {v : Int64} (h : readInt64 b = ok v) :
    b = int64Bytes v ++ b.drop 8 := by
  unfold readInt64 at h
  split at h
  · rw [← Result.ok.inj h]
    rw [int64Bytes_ofNat_leNat rfl]
    rfl
  · cases h

theorem readCString_eq_ok {b s : List UInt8} (h : readCString b = ok s) :
    0 ∉ s ∧ b = cstringBytes s ++ b.drop (s.length + 1) := by
  induction b generalizing s with
  | nil => simp [readCString] at h
  | cons c b ih =>
    unfold readCString at h
    split_ifs at h with hc
    · cases h
      simp [cstringBytes, hc]
    · obtain ⟨s', hs', h⟩ := bind_eq_ok.mp h
      cases h
      obtain ⟨hn, hb⟩ := ih hs'
      refine ⟨by simp [hn, Ne.symm hc], ?_⟩
      conv_lhs => rw [hb]
      simp [cstringBytes]

theorem parseSimpleBSON_eq_ok {b : List UInt8} {d : SimpleBSON} (h : parseSimpleBSON b = ok d) :
    d.Sized ∧ (d.bytes.length : Int) = d.size.toInt ∧ b = d.bytes ++ b.drop d.bytes.length := by
  unfold parseSimpleBSON at h
  split_ifs at h with h4
  rw [readInt32_eq (by omega), ok_bind] at h
  generalize hv : Int32.ofNat (leNat (b.take 4)) = size at h
  split_ifs at h with h0 hrange hlen
  · -- the shortcut: the whole of `b`, with `Size` 4
    cases h
    have h4' : (4 : Int32).toInt = 4 := by decide
    have hsized : SimpleBSON.Sized ⟨4, b⟩ := ⟨by dsimp only; omega, by dsimp only; omega⟩
    have hbytes : SimpleBSON.bytes ⟨4, b⟩ = b.take 4 := by simp [SimpleBSON.bytes, h4']
    refine ⟨hsized, ?_, ?_⟩
    · rw [hbytes, h4', List.length_take]
      omega
    · rw [hbytes, List.length_take, Nat.min_eq_left (by omega), List.take_append_drop]
  · -- a document of `Size` bytes, the slice `b[0:Size]`
    have hslice : (slice b 0 size.toInt : Res (List UInt8)) = ok (b.take size.toInt.toNat) := by
      unfold slice
      rw [if_pos ⟨le_refl _, by omega, by omega⟩, Int.toNat_zero, List.drop_zero]
    rw [hslice, ok_bind] at h
    cases h
    have hlen' : (b.take size.toInt.toNat).length = size.toInt.toNat := by
      rw [List.length_take]
      omega
    have hsized : SimpleBSON.Sized ⟨size, b.take size.toInt.toNat⟩ :=
      ⟨by dsimp only; omega, by dsimp only; rw [hlen']; omega⟩
    have hbytes : SimpleBSON.bytes ⟨size, b.take size.toInt.toNat⟩ = b.take size.toInt.toNat := by
      simp [SimpleBSON.bytes]
    refine ⟨hsized, ?_, ?_⟩
    · rw [hbytes, hlen']
      dsimp only
      omega
    · rw [hbytes, hlen', List.take_append_drop]

/-! ## Fields read at an offset -/

section At

variable {b r : List UInt8} {lo : Int}

theorem readInt32_at {v : Int32} (hs : (sliceFrom b lo : Res (List UInt8)) = ok r) (h : readInt32 r = ok v) :
    ∃ k : Nat, lo = k ∧ b.drop k = int32Bytes v ++ b.drop (k + 4) := by
  obtain ⟨k, rfl, -, rfl⟩ := sliceFrom_eq_ok hs
  have hv := readInt32_eq_ok h
  rw [List.drop_drop] at hv
  exact ⟨k, rfl, hv⟩

theorem readInt64_at {v : Int64} (hs : (sliceFrom b lo : Res (List UInt8)) = ok r) (h : readInt64 r = ok v) :
    ∃ k : Nat, lo = k ∧ b.drop k = int64Bytes v ++ b.drop (k + 8) := by
  obtain ⟨k, rfl, -, rfl⟩ := sliceFrom_eq_ok hs
  have hv := readInt64_eq_ok h
  rw [List.drop_drop] at hv
  exact ⟨k, rfl, hv⟩

theorem readCString_at {s : List UInt8} (hs : (sliceFrom b lo : Res (List UInt8)) = ok r) (h : readCString r = ok s) :
    ∃ k : Nat, lo = k ∧ 0 ∉ s ∧ b.drop k = cstringBytes s ++ b.drop (k + (s.length + 1)) := by
  obtain ⟨k, rfl, -, rfl⟩ := sliceFrom_eq_ok hs
  obtain ⟨hs0, hv⟩ := readCString_eq_ok h
  rw [List.drop_drop] at hv
  exact ⟨k, rfl, hs0, hv⟩

theorem parseSimpleBSON_at {d : SimpleBSON} (hs : (sliceFrom b lo : Res (List UInt8)) = ok r)
    (h : parseSimpleBSON r = ok d) :
    ∃ k : Nat, lo = k ∧ d.Sized ∧ (d.bytes.length : Int) = d.size.toInt ∧
      b.drop k = d.bytes ++ b.drop (k + d.bytes.length) := by
  obtain ⟨k, rfl, -, rfl⟩ := sliceFrom_eq_ok hs
  obtain ⟨hd, hlen, hv⟩ := parseSimpleBSON_eq_ok h
  rw [List.drop_drop] at hv
  exact ⟨k, rfl, hd, hlen, hv⟩

end At

/-! ## Loops -/

theorem docsLoop_eq_ok {buf : List UInt8} {n k : Nat} {loc loc' : Int} {docs : List SimpleBSON}
    (hloc : loc = k) (h : docsLoop buf n (loc, []) = ok (loc', docs)) :
    (∀ d ∈ docs, d.Sized) ∧ buf.drop k = docsBytes docs := by
  -- the documents read so far are the bytes from `k` up to the offset reached
  let I : Int × List SimpleBSON → Prop := fun st => ∃ j : Nat, st.1 = j ∧
    (∀ d ∈ st.2, d.Sized) ∧ buf.drop k = docsBytes st.2 ++ buf.drop j
  have h0 : I (loc, []) := ⟨k, hloc, by simp, by simp⟩
  have hrun := loop_inv I ?step n _ _ h0 h
  case step =>
    rintro ⟨l, done⟩ st' ⟨j, hj, hsized, htile⟩ - hb
    obtain ⟨r, hr, hb⟩ := bind_eq_ok.mp hb
    obtain ⟨d, hd, hb⟩ := bind_eq_ok.mp hb
    cases hb
    obtain ⟨i, hi, hds, hlen, hsplit⟩ := parseSimpleBSON_at hr hd
    have hji : j = i := by simp only at hj; omega
    subst hji
    refine ⟨j + d.bytes.length, by simp only at hj ⊢; omega,
      List.forall_mem_append.mpr ⟨hsized, List.forall_mem_singleton.mpr hds⟩, ?_⟩
    rw [htile, hsplit, docsBytes_append, docsBytes_cons, docsBytes_nil, List.append_nil,
        List.append_assoc]
  obtain ⟨⟨j, hj, hsized, htile⟩, hc⟩ := hrun
  -- the loop stops at the end of the buffer, where nothing is left after the documents
  have hend : buf.drop j = [] := by
    simp only [decide_eq_false_iff_not, not_lt] at hc
    exact List.drop_eq_nil_of_le (by simp only at hj; omega)
  rw [hend, List.append_nil] at htile
  exact ⟨hsized, htile⟩

theorem trailingDocsLoop_eq_ok {b rest : List UInt8} {n : Nat} {docs : List SimpleBSON}
    (h : trailingDocsLoop n (b, []) = ok (rest, docs)) :
    (∀ d ∈ docs, d.Sized) ∧ b = docsBytes docs := by
  -- the documents read so far, then the bytes still to read, are the bytes it started with
  let I : List UInt8 × List SimpleBSON → Prop := fun st =>
    (∀ d ∈ st.2, d.Sized) ∧ b = docsBytes st.2 ++ st.1
  have h0 : I (b, []) := ⟨by simp, by simp⟩
  have hrun := loop_inv I ?step n _ _ h0 h
  case step =>
    rintro ⟨b', done⟩ st' ⟨hsized, htile⟩ - hs
    obtain ⟨d, hd, hs⟩ := bind_eq_ok.mp hs
    obtain ⟨r, hr, hs⟩ := bind_eq_ok.mp hs
    cases hs
    obtain ⟨hds, hlen, hsplit⟩ := parseSimpleBSON_eq_ok hd
    obtain ⟨k, hk, -, rfl⟩ := sliceFrom_eq_ok hr
    have hk' : k = d.bytes.length := by omega
    subst hk'
    refine ⟨List.forall_mem_append.mpr ⟨hsized, List.forall_mem_singleton.mpr hds⟩, ?_⟩
    dsimp only at htile hsplit ⊢
    rw [docsBytes_append, docsBytes_cons, docsBytes_nil, List.append_nil, List.append_assoc,
      ← hsplit, htile]
  obtain ⟨⟨hsized, htile⟩, hc⟩ := hrun
  -- the loop stops with nothing left to read
  have hend : rest = [] := by
    simpa using hc
  rw [hend, List.append_nil] at htile
  exact ⟨hsized, htile⟩

theorem cursorIdsLoop_eq_ok {buf : List UInt8} {num : Int} {n : Nat}
    {st : Int × Int × List Int64} (h0 : 0 ≤ num)
    (h : cursorIdsLoop buf num n (0, 8, List.replicate num.toNat 0) = ok st) :
    (st.2.2.length : Int) = num ∧
      buf.drop 8 = (st.2.2.map int64Bytes).flatten ++ buf.drop (8 + 8 * num.toNat) := by
  -- `j` ids read so far: the first `j` slots, the bytes from 8 to `8 + 8 j`
  let I : Int × Int × List Int64 → Prop := fun st => ∃ j : Nat, st.1 = j ∧ st.2.1 = 8 + 8 * j ∧
    j ≤ num.toNat ∧ ∃ read : List Int64, read.length = j ∧
      st.2.2 = read ++ List.replicate (num.toNat - j) 0 ∧
      buf.drop 8 = (read.map int64Bytes).flatten ++ buf.drop (8 + 8 * j)
  have hI0 : I (0, 8, List.replicate num.toNat 0) := ⟨0, rfl, by simp, by omega, [], rfl, by simp,
    by simp⟩
  have hrun := loop_inv I ?step n _ _ hI0 h
  case step =>
    rintro ⟨i, loc, ids⟩ st' ⟨j, hi, hloc, hj, read, hread, hids, htile⟩ hc hs
    dsimp only at hi hloc hids hs
    simp only [decide_eq_true_eq] at hc
    obtain ⟨r, hr, hs⟩ := bind_eq_ok.mp hs
    obtain ⟨c, hcv, hs⟩ := bind_eq_ok.mp hs
    obtain ⟨ids', hset, hs⟩ := bind_eq_ok.mp hs
    cases hs
    obtain ⟨k, hk, hsplit⟩ := readInt64_at hr hcv
    obtain ⟨k', hk', -, rfl⟩ := setIndex_eq_ok hset
    have hkj : k = 8 + 8 * j := by omega
    have hkj' : k' = j := by omega
    subst hkj hkj'
    -- the slot `j` is the first zero after what is read
    have hfree : num.toNat - k' = (num.toNat - (k' + 1)) + 1 := by omega
    refine ⟨k' + 1, by dsimp only; omega, by dsimp only; omega, by omega, read ++ [c],
      by simp [hread], ?_, ?_⟩
    · rw [hids, hfree, List.set_append_right _ _ (by omega), hread, Nat.sub_self,
        List.replicate_succ, List.set_cons_zero, List.append_assoc, List.singleton_append]
    · rw [htile, hsplit, List.map_append, List.flatten_append, List.map_singleton,
        List.flatten_singleton, List.append_assoc, show 8 + 8 * (k' + 1) = 8 + 8 * k' + 8 by ring]
  obtain ⟨⟨j, hi, -, hj, read, hread, hids, htile⟩, hc⟩ := hrun
  -- the loop stops after `NumCursors` ids, with no zero slot left
  have hjn : j = num.toNat := by
    simp only [decide_eq_false_iff_not, not_lt] at hc
    omega
  subst hjn
  rw [Nat.sub_self, List.replicate_zero, List.append_nil] at hids
  rw [hids]
  exact ⟨by omega, htile⟩

theorem docSeqLoop_eq_ok {buf : List UInt8} {n k : Nat} {esr : Int32} {loc : Int}
    {st : Int32 × Int × List SimpleBSON × Int} (hloc : loc = k)
    (h : docSeqLoop buf n (esr, loc, [], 0) = ok st) :
    ∃ j : Nat, st.2.1 = j ∧ (∀ d ∈ st.2.2.1, d.Sized) ∧
      buf.drop k = docsBytes st.2.2.1 ++ buf.drop j := by
  let I : Int32 × Int × List SimpleBSON × Int → Prop := fun st => ∃ j : Nat, st.2.1 = j ∧
    (∀ d ∈ st.2.2.1, d.Sized) ∧ buf.drop k = docsBytes st.2.2.1 ++ buf.drop j
  have h0 : I (esr, loc, [], 0) := ⟨k, hloc, by simp, by simp⟩
  have hrun := loop_inv I ?step n _ _ h0 h
  case step =>
    rintro ⟨e, l, done, num⟩ st' ⟨j, hj, hsized, htile⟩ - hs
    dsimp only at hj hsized htile hs
    obtain ⟨r, hr, hs⟩ := bind_eq_ok.mp hs
    obtain ⟨d, hd, hs⟩ := bind_eq_ok.mp hs
    -- a document that overruns the section is an error
    split_ifs at hs
    cases hs
    obtain ⟨i, hi, hds, hlen, hsplit⟩ := parseSimpleBSON_at hr hd
    have hji : j = i := by omega
    subst hji
    refine ⟨j + d.bytes.length, by dsimp only; omega,
      List.forall_mem_append.mpr ⟨hsized, List.forall_mem_singleton.mpr hds⟩, ?_⟩
    rw [htile, hsplit, docsBytes_append, docsBytes_cons, docsBytes_nil, List.append_nil,
      List.append_assoc]
  exact hrun.1

/-! ## OP_MSG sections -/

/-- An OP_MSG section laid out with `sizeField` in the size field of a document sequence; a body
section has no size field. -/
def MessageMessageSection.encodeWith : MessageMessageSection → Int32 → List UInt8
  | .body s, _ => 0 :: s.body.bytes
  | .docSeq s, sizeField =>
    1 :: (int32Bytes sizeField ++ cstringBytes s.sequenceId ++ docsBytes s.documents)

/-- Sections laid out one after another with the size fields `sizeFields`, one per section in
order; a section past the end of `sizeFields` has the size field that `Serialize` writes. -/
def encodeSections : List MessageMessageSection → List Int32 → List UInt8
  | [], _ => []
  | s :: ss, [] => s.encode ++ encodeSections ss []
  | s :: ss, f :: fs => s.encodeWith f ++ encodeSections ss fs

/-- An OP_MSG laid out with the size fields `sizeFields` for its sections. -/
def MessageMessage.encodeWith (m : MessageMessage) (sizeFields : List Int32) : List UInt8 :=
  m.header.bytes ++ int32Bytes m.flagBits ++ encodeSections m.sections sizeFields

/-- A message laid out with the size fields `sizeFields` for its OP_MSG sections; the other
kinds have no such field. -/
def Message.encodeWith : Message → List Int32 → List UInt8
  | .msg m, sizeFields => m.encodeWith sizeFields
  | m, _ => m.encode

@[simp] theorem MessageMessageSection.length_encodeWith (s : MessageMessageSection) (f : Int32) :
    (s.encodeWith f).length = s.encode.length := by
  cases s <;> simp [MessageMessageSection.encodeWith, MessageMessageSection.encode]

theorem length_encodeSections (ss : List MessageMessageSection) (fs : List Int32) :
    (encodeSections ss fs).length = ((ss.map MessageMessageSection.encode).flatten).length := by
  induction ss generalizing fs with
  | nil => rfl
  | cons s ss ih =>
    cases fs <;> simp [encodeSections, ih]

theorem encodeSections_concat {ss : List MessageMessageSection} {fs : List Int32}
    (h : fs.length = ss.length) (s : MessageMessageSection) (f : Int32) :
    encodeSections (ss ++ [s]) (fs ++ [f]) = encodeSections ss fs ++ s.encodeWith f := by
  induction ss generalizing fs with
  | nil =>
    rw [List.length_eq_zero_iff.mp h]
    simp [encodeSections]
  | cons t ss ih =>
    obtain ⟨g, gs, rfl⟩ := List.exists_cons_of_length_eq_add_one h
    simp only [List.length_cons, Nat.add_right_cancel_iff] at h
    simp [encodeSections, ih h]

@[simp] theorem Message.length_encodeWith (m : Message) (fs : List Int32) :
    (m.encodeWith fs).length = m.encode.length := by
  cases m <;> simp [Message.encodeWith, Message.encode, MessageMessage.encodeWith,
    MessageMessage.encode, length_encodeSections]

theorem parseBodySection_eq_ok {buf : List UInt8} {loc loc' : Int} {k : Nat}
    {s : MessageMessageSection} (hloc : loc = k) (h : parseBodySection buf loc = ok (s, loc')) :
    ∃ b : SimpleBSON, s = .body ⟨b⟩ ∧ b.Sized ∧ loc' = k + b.bytes.length ∧
      buf.drop k = b.bytes ++ buf.drop (k + b.bytes.length) := by
  obtain ⟨r, hr, h⟩ := bind_eq_ok.mp h
  obtain ⟨b, hb, h⟩ := bind_eq_ok.mp h
  cases h
  obtain ⟨i, hi, hsized, hlen, hsplit⟩ := parseSimpleBSON_at hr hb
  have hik : i = k := by omega
  subst hik
  exact ⟨b, rfl, hsized, by omega, hsplit⟩

theorem parseDocumentSequenceSection_eq_ok {buf : List UInt8} {loc loc' : Int} {k : Nat}
    {s : MessageMessageSection} (hloc : loc = k)
    (h : parseDocumentSequenceSection buf loc = ok (s, loc')) :
    ∃ (f : Int32) (id : List UInt8) (docs : List SimpleBSON) (j : Nat),
      s = .docSeq ⟨id, docs⟩ ∧ loc' = j ∧ (∀ d ∈ docs, d.Sized) ∧
      buf.drop k = int32Bytes f ++ cstringBytes id ++ docsBytes docs ++ buf.drop j := by
  obtain ⟨rest, hrest, h⟩ := bind_eq_ok.mp h
  -- the two checks on the declared size are errors when they fail
  split_ifs at h with h4
  obtain ⟨f, hf, h⟩ := bind_eq_ok.mp h
  split_ifs at h with hbig
  obtain ⟨r, hr, h⟩ := bind_eq_ok.mp h
  obtain ⟨id, hid, h⟩ := bind_eq_ok.mp h
  obtain ⟨⟨e, l, docs, num⟩, hloop, h⟩ := bind_eq_ok.mp h
  cases h
  obtain ⟨i, hi, -, rfl⟩ := sliceFrom_eq_ok hrest
  have hik : i = k := by omega
  subst hik
  have hfsplit := readInt32_eq_ok hf
  rw [List.drop_drop] at hfsplit
  obtain ⟨i', hi', -, hidsplit⟩ := readCString_at hr hid
  have hik' : i' = i + 4 := by omega
  subst hik'
  obtain ⟨j, hj, hsized, hdocs⟩ := docSeqLoop_eq_ok
    (show loc + 4 + id.length + 1 = ((i + 4 + (id.length + 1) : Nat) : Int) by push_cast; omega)
    hloop
  dsimp only at hj hsized hdocs
  refine ⟨f, id, docs, j, rfl, hj, hsized, ?_⟩
  rw [hfsplit, hidsplit, hdocs]
  simp only [List.append_assoc]

theorem parseMessageMessageSection_eq_ok {buf : List UInt8} {loc loc' : Int} {k : Nat}
    {s : MessageMessageSection} (hloc : loc = k)
    (h : parseMessageMessageSection buf loc = ok (s, loc')) :
    ∃ j : Nat, loc' = j ∧ s.Sized ∧ ∃ f : Int32, buf.drop k = s.encodeWith f ++ buf.drop j := by
  obtain ⟨kind, hkind, h⟩ := bind_eq_ok.mp h
  obtain ⟨i, hi, hbyte⟩ := index_eq_ok hkind
  have hik : i = k := by omega
  subst hik
  have hnext : loc + 1 = ((i + 1 : Nat) : Int) := by push_cast; omega
  split_ifs at h with h0 h1
  · -- kind 0: a body section
    obtain ⟨b, rfl, hsized, hl, hsplit⟩ := parseBodySection_eq_ok hnext h
    refine ⟨i + 1 + b.bytes.length, by omega, hsized, 0, ?_⟩
    rw [hbyte, hsplit, h0]
    rfl
  · -- kind 1: a document sequence
    obtain ⟨f, id, docs, j, rfl, hj, hsized, hsplit⟩ := parseDocumentSequenceSection_eq_ok hnext h
    refine ⟨j, hj, hsized, f, ?_⟩
    rw [hbyte, hsplit, h1]
    simp [MessageMessageSection.encodeWith]
  · -- any other kind is an error
    obtain ⟨_, -, h⟩ := bind_eq_ok.mp h
    cases h

/-- The section loop of OP_MSG, when it comes back, has read sections laid one after another from
offset 4, each with the size field it declared, and stopped with fewer than five bytes left. -/
theorem sectionsLoop_eq_ok {buf : List UInt8} {n : Nat} {loc' : Int}
    {secs : List MessageMessageSection} (h : sectionsLoop buf n (4, []) = ok (loc', secs)) :
    ∃ j : Nat, loc' = j ∧ (buf.length : Int) < j + 5 ∧ (∀ s ∈ secs, s.Sized) ∧
      ∃ fields : List Int32, fields.length = secs.length ∧
        buf.drop 4 = encodeSections secs fields ++ buf.drop j := by
  let I : Int × List MessageMessageSection → Prop := fun st => ∃ j : Nat, st.1 = j ∧
    (∀ s ∈ st.2, s.Sized) ∧ ∃ fields : List Int32, fields.length = st.2.length ∧
      buf.drop 4 = encodeSections st.2 fields ++ buf.drop j
  have h0 : I (4, []) := ⟨4, rfl, by simp, [], rfl, by simp [encodeSections]⟩
  have hrun := loop_inv I ?step n _ _ h0 h
  case step =>
    rintro ⟨l, done⟩ st' ⟨j, hj, hsized, fields, hlen, htile⟩ - hs
    dsimp only at hj hsized hlen htile hs
    obtain ⟨⟨sec, l'⟩, hsec, hs⟩ := bind_eq_ok.mp hs
    cases hs
    obtain ⟨j', hj', hsec_sized, f, hsplit⟩ := parseMessageMessageSection_eq_ok hj hsec
    refine ⟨j', hj', List.forall_mem_append.mpr ⟨hsized, List.forall_mem_singleton.mpr hsec_sized⟩,
      fields ++ [f], by simp [hlen], ?_⟩
    rw [htile, hsplit, encodeSections_concat hlen, List.append_assoc]
  obtain ⟨⟨j, hj, hsized, fields, hlen, htile⟩, hc⟩ := hrun
  refine ⟨j, hj, ?_, hsized, fields, hlen, htile⟩
  simp only [decide_eq_false_iff_not, not_le] at hc
  omega

/-! ## The body parsers -/

section Parsers

variable {hdr : MessageHeader} {buf : List UInt8} {msg : Message}

theorem parseReplyMessage_eq_ok (h : parseReplyMessage hdr buf = ok msg) :
    ∃ m : ReplyMessage, msg = .reply m ∧ m.header = hdr ∧ (∀ d ∈ m.docs, d.Sized) ∧
      hdr.bytes ++ buf = m.encode := by
  unfold parseReplyMessage at h
  split_ifs at h with h20
  obtain ⟨r0, hr0, h⟩ := bind_eq_ok.mp h
  obtain ⟨flags, hflags, h⟩ := bind_eq_ok.mp h
  obtain ⟨r4, hr4, h⟩ := bind_eq_ok.mp h
  obtain ⟨cursorId, hcursor, h⟩ := bind_eq_ok.mp h
  obtain ⟨r12, hr12, h⟩ := bind_eq_ok.mp h
  obtain ⟨startingFrom, hstart, h⟩ := bind_eq_ok.mp h
  obtain ⟨r16, hr16, h⟩ := bind_eq_ok.mp h
  obtain ⟨numberReturned, hnum, h⟩ := bind_eq_ok.mp h
  obtain ⟨⟨l, docs⟩, hdocs, h⟩ := bind_eq_ok.mp h
  cases h
  -- each field is read where the one before it ends
  obtain ⟨k, hk, h0⟩ := readInt32_at hr0 hflags
  obtain rfl : k = 0 := by omega
  obtain ⟨k, hk, h4⟩ := readInt64_at hr4 hcursor
  obtain rfl : k = 0 + 4 := by omega
  obtain ⟨k, hk, h12⟩ := readInt32_at hr12 hstart
  obtain rfl : k = 0 + 4 + 8 := by omega
  obtain ⟨k, hk, h16⟩ := readInt32_at hr16 hnum
  obtain rfl : k = 0 + 4 + 8 + 4 := by omega
  obtain ⟨hsized, h20⟩ := docsLoop_eq_ok (k := 0 + 4 + 8 + 4 + 4) (by omega) hdocs
  refine ⟨_, rfl, rfl, hsized, ?_⟩
  rw [← List.drop_zero (l := buf), h0, h4, h12, h16, h20]
  simp only [ReplyMessage.encode, List.append_assoc]

theorem parseUpdateMessage_eq_ok (h : parseUpdateMessage hdr buf = ok msg) :
    ∃ m : UpdateMessage, msg = .update m ∧ m.header = hdr ∧ m.filter.Sized ∧ m.update.Sized ∧
      ∃ rest, hdr.bytes ++ buf = m.encode ++ rest := by
  unfold parseUpdateMessage at h
  split_ifs at h with h4
  obtain ⟨r0, hr0, h⟩ := bind_eq_ok.mp h
  obtain ⟨reserved, hreserved, h⟩ := bind_eq_ok.mp h
  obtain ⟨r4, hr4, h⟩ := bind_eq_ok.mp h
  obtain ⟨ns, hns, h⟩ := bind_eq_ok.mp h
  dsimp only at h
  split_ifs at h with hshort
  obtain ⟨r, hr, h⟩ := bind_eq_ok.mp h
  obtain ⟨flags, hflags, h⟩ := bind_eq_ok.mp h
  obtain ⟨r', hr', h⟩ := bind_eq_ok.mp h
  obtain ⟨filter, hfilter, h⟩ := bind_eq_ok.mp h
  split_ifs at h with hshort'
  obtain ⟨r'', hr'', h⟩ := bind_eq_ok.mp h
  obtain ⟨update, hupdate, h⟩ := bind_eq_ok.mp h
  cases h
  obtain ⟨k, hk, h0⟩ := readInt32_at hr0 hreserved
  obtain rfl : k = 0 := by omega
  obtain ⟨k, hk, -, hn⟩ := readCString_at hr4 hns
  obtain rfl : k = 0 + 4 := by omega
  obtain ⟨k, hk, hf⟩ := readInt32_at hr hflags
  obtain rfl : k = 0 + 4 + (ns.length + 1) := by omega
  obtain ⟨k, hk, hfs, hfl, hq⟩ := parseSimpleBSON_at hr' hfilter
  obtain rfl : k = 0 + 4 + (ns.length + 1) + 4 := by omega
  obtain ⟨k, hk, hus, -, hu⟩ := parseSimpleBSON_at hr'' hupdate
  obtain rfl : k = 0 + 4 + (ns.length + 1) + 4 + filter.bytes.length := by omega
  refine ⟨_, rfl, rfl, hfs, hus, ?_⟩
  rw [← List.drop_zero (l := buf), h0, hn, hf, hq, hu]
  simp only [UpdateMessage.encode, List.append_assoc]
  exact ⟨_, rfl⟩

theorem parseInsertMessage_eq_ok (h : parseInsertMessage hdr buf = ok msg) :
    ∃ m : InsertMessage, msg = .insert m ∧ m.header = hdr ∧ (∀ d ∈ m.docs, d.Sized) ∧
      hdr.bytes ++ buf = m.encode := by
  unfold parseInsertMessage at h
  split_ifs at h with h4
  obtain ⟨r0, hr0, h⟩ := bind_eq_ok.mp h
  obtain ⟨flags, hflags, h⟩ := bind_eq_ok.mp h
  obtain ⟨r4, hr4, h⟩ := bind_eq_ok.mp h
  obtain ⟨ns, hns, h⟩ := bind_eq_ok.mp h
  obtain ⟨⟨l, docs⟩, hdocs, h⟩ := bind_eq_ok.mp h
  cases h
  obtain ⟨k, hk, h0⟩ := readInt32_at hr0 hflags
  obtain rfl : k = 0 := by omega
  obtain ⟨k, hk, -, hn⟩ := readCString_at hr4 hns
  obtain rfl : k = 0 + 4 := by omega
  obtain ⟨hsized, hd⟩ := docsLoop_eq_ok (k := 0 + 4 + (ns.length + 1)) (by push_cast; ring) hdocs
  refine ⟨_, rfl, rfl, hsized, ?_⟩
  rw [← List.drop_zero (l := buf), h0, hn, hd]
  simp only [InsertMessage.encode, List.append_assoc]

theorem parseQueryMessage_eq_ok (h : parseQueryMessage hdr buf = ok msg) :
    ∃ m : QueryMessage, msg = .query m ∧ m.header = hdr ∧ m.query.Sized ∧ m.project.Sized ∧
      ∃ rest, hdr.bytes ++ buf = m.encode ++ rest := by
  unfold parseQueryMessage at h
  split_ifs at h with h4
  obtain ⟨flags, hflags, h⟩ := bind_eq_ok.mp h
  obtain ⟨r4, hr4, h⟩ := bind_eq_ok.mp h
  obtain ⟨ns, hns, h⟩ := bind_eq_ok.mp h
  dsimp only at h
  split_ifs at h with hshort
  obtain ⟨r, hr, h⟩ := bind_eq_ok.mp h
  obtain ⟨skip, hskip, h⟩ := bind_eq_ok.mp h
  obtain ⟨r', hr', h⟩ := bind_eq_ok.mp h
  obtain ⟨nReturn, hnReturn, h⟩ := bind_eq_ok.mp h
  obtain ⟨rq, hrq, h⟩ := bind_eq_ok.mp h
  obtain ⟨query, hquery, h⟩ := bind_eq_ok.mp h
  have h0 : buf.drop 0 = int32Bytes flags ++ buf.drop (0 + 4) := readInt32_eq_ok hflags
  obtain ⟨k, hk, -, hn⟩ := readCString_at hr4 hns
  obtain rfl : k = 0 + 4 := by omega
  obtain ⟨k, hk, hs⟩ := readInt32_at hr hskip
  obtain rfl : k = 0 + 4 + (ns.length + 1) := by omega
  obtain ⟨k, hk, hr⟩ := readInt32_at hr' hnReturn
  obtain rfl : k = 0 + 4 + (ns.length + 1) + 4 := by omega
  obtain ⟨k, hk, hqs, hql, hq⟩ := parseSimpleBSON_at hrq hquery
  obtain rfl : k = 0 + 4 + (ns.length + 1) + 4 + 4 := by omega
  -- the projection is read only if bytes are left after the query; else it is the zero
  -- document, which takes no bytes
  obtain ⟨project, hps, hp, rfl⟩ : ∃ project : SimpleBSON, project.Sized ∧
      buf.drop (0 + 4 + (ns.length + 1) + 4 + 4 + query.bytes.length) = project.bytes ++
        buf.drop (0 + 4 + (ns.length + 1) + 4 + 4 + query.bytes.length + project.bytes.length) ∧
      msg = .query ⟨hdr, flags, ns, skip, nReturn, query, project⟩ := by
    split_ifs at h with hleft
    · obtain ⟨project, hproject, h⟩ := bind_eq_ok.mp h
      obtain ⟨rp, hrp, hproject⟩ := bind_eq_ok.mp hproject
      cases h
      obtain ⟨k, hk, hps, -, hp⟩ := parseSimpleBSON_at hrp hproject
      obtain rfl : k = 0 + 4 + (ns.length + 1) + 4 + 4 + query.bytes.length := by omega
      exact ⟨project, hps, hp, rfl⟩
    · cases h
      exact ⟨SimpleBSON.zero, ⟨le_refl _, by decide⟩, by simp, rfl⟩
  refine ⟨_, rfl, rfl, hqs, hps, ?_⟩
  rw [← List.drop_zero (l := buf), h0, hn, hs, hr, hq, hp]
  simp only [QueryMessage.encode, List.append_assoc]
  exact ⟨_, rfl⟩

theorem parseGetMoreMessage_eq_ok (h : parseGetMoreMessage hdr buf = ok msg) :
    ∃ m : GetMoreMessage, msg = .getMore m ∧ m.header = hdr ∧
      ∃ rest, hdr.bytes ++ buf = m.encode ++ rest := by
  unfold parseGetMoreMessage at h
  split_ifs at h with h4
  obtain ⟨reserved, hreserved, h⟩ := bind_eq_ok.mp h
  obtain ⟨r4, hr4, h⟩ := bind_eq_ok.mp h
  obtain ⟨ns, hns, h⟩ := bind_eq_ok.mp h
  dsimp only at h
  split_ifs at h with hshort
  obtain ⟨r, hr, h⟩ := bind_eq_ok.mp h
  obtain ⟨nReturn, hnReturn, h⟩ := bind_eq_ok.mp h
  obtain ⟨r', hr', h⟩ := bind_eq_ok.mp h
  obtain ⟨cursorId, hcursor, h⟩ := bind_eq_ok.mp h
  cases h
  have h0 : buf.drop 0 = int32Bytes reserved ++ buf.drop (0 + 4) := readInt32_eq_ok hreserved
  obtain ⟨k, hk, -, hn⟩ := readCString_at hr4 hns
  obtain rfl : k = 0 + 4 := by omega
  obtain ⟨k, hk, hr⟩ := readInt32_at hr hnReturn
  obtain rfl : k = 0 + 4 + (ns.length + 1) := by omega
  obtain ⟨k, hk, hc⟩ := readInt64_at hr' hcursor
  obtain rfl : k = 0 + 4 + (ns.length + 1) + 4 := by omega
  refine ⟨_, rfl, rfl, ?_⟩
  rw [← List.drop_zero (l := buf), h0, hn, hr, hc]
  simp only [GetMoreMessage.encode, List.append_assoc]
  exact ⟨_, rfl⟩

theorem parseDeleteMessage_eq_ok (h : parseDeleteMessage hdr buf = ok msg) :
    ∃ m : DeleteMessage, msg = .delete m ∧ m.header = hdr ∧ m.filter.Sized ∧
      ∃ rest, hdr.bytes ++ buf = m.encode ++ rest := by
  unfold parseDeleteMessage at h
  split_ifs at h with h4
  obtain ⟨r0, hr0, h⟩ := bind_eq_ok.mp h
  obtain ⟨reserved, hreserved, h⟩ := bind_eq_ok.mp h
  obtain ⟨r4, hr4, h⟩ := bind_eq_ok.mp h
  obtain ⟨ns, hns, h⟩ := bind_eq_ok.mp h
  dsimp only at h
  split_ifs at h with hshort
  obtain ⟨r, hr, h⟩ := bind_eq_ok.mp h
  obtain ⟨flags, hflags, h⟩ := bind_eq_ok.mp h
  obtain ⟨r', hr', h⟩ := bind_eq_ok.mp h
  obtain ⟨filter, hfilter, h⟩ := bind_eq_ok.mp h
  cases h
  obtain ⟨k, hk, h0⟩ := readInt32_at hr0 hreserved
  obtain rfl : k = 0 := by omega
  obtain ⟨k, hk, -, hn⟩ := readCString_at hr4 hns
  obtain rfl : k = 0 + 4 := by omega
  obtain ⟨k, hk, hf⟩ := readInt32_at hr hflags
  obtain rfl : k = 0 + 4 + (ns.length + 1) := by omega
  obtain ⟨k, hk, hfs, -, hq⟩ := parseSimpleBSON_at hr' hfilter
  obtain rfl : k = 0 + 4 + (ns.length + 1) + 4 := by omega
  refine ⟨_, rfl, rfl, hfs, ?_⟩
  rw [← List.drop_zero (l := buf), h0, hn, hf, hq]
  simp only [DeleteMessage.encode, List.append_assoc]
  exact ⟨_, rfl⟩

theorem parseKillCursorsMessage_eq_ok (h : parseKillCursorsMessage hdr buf = ok msg) :
    ∃ m : KillCursorsMessage, msg = .killCursors m ∧ m.header = hdr ∧
      m.numCursors.toInt = m.cursorIds.length ∧ ∃ rest, hdr.bytes ++ buf = m.encode ++ rest := by
  unfold parseKillCursorsMessage at h
  split_ifs at h with h8
  obtain ⟨reserved, hreserved, h⟩ := bind_eq_ok.mp h
  obtain ⟨r4, hr4, h⟩ := bind_eq_ok.mp h
  obtain ⟨numCursors, hnum, h⟩ := bind_eq_ok.mp h
  obtain ⟨rest, hrest, h⟩ := bind_eq_ok.mp h
  -- the count is checked against the bytes left, then for its sign
  split_ifs at h with hlong hsign
  obtain ⟨ids, hmake, h⟩ := bind_eq_ok.mp h
  rw [make_of_nonneg (by omega)] at hmake
  cases hmake
  obtain ⟨⟨i, l, ids⟩, hloop, h⟩ := bind_eq_ok.mp h
  cases h
  have h0 : buf.drop 0 = int32Bytes reserved ++ buf.drop (0 + 4) := readInt32_eq_ok hreserved
  obtain ⟨k, hk, hn⟩ := readInt32_at hr4 hnum
  obtain rfl : k = 0 + 4 := by omega
  obtain ⟨hlen, hids⟩ := cursorIdsLoop_eq_ok (by omega) hloop
  dsimp only at hlen hids
  refine ⟨_, rfl, rfl, hlen.symm, ?_⟩
  rw [← List.drop_zero (l := buf), h0, hn]
  rw [show 0 + 4 + 4 = 8 by rfl, hids]
  simp only [KillCursorsMessage.encode, List.append_assoc]
  exact ⟨_, rfl⟩

theorem nextCString_eq_ok {buf s rest : List UInt8} (h : nextCString buf = ok (s, rest)) :
    buf = cstringBytes s ++ rest := by
  obtain ⟨s', hs, h⟩ := bind_eq_ok.mp h
  split_ifs at h with hshort
  obtain ⟨r, hr, h⟩ := bind_eq_ok.mp h
  cases h
  obtain ⟨-, hsplit⟩ := readCString_eq_ok hs
  obtain ⟨k, hk, -, rfl⟩ := sliceFrom_eq_ok hr
  obtain rfl : k = s.length + 1 := by omega
  exact hsplit

theorem nextBSON_eq_ok {buf rest : List UInt8} {d : SimpleBSON} (h : nextBSON buf = ok (d, rest)) :
    d.Sized ∧ buf = d.bytes ++ rest := by
  obtain ⟨d', hd, h⟩ := bind_eq_ok.mp h
  split_ifs at h with hshort
  obtain ⟨r, hr, h⟩ := bind_eq_ok.mp h
  cases h
  obtain ⟨hsized, hlen, hsplit⟩ := parseSimpleBSON_eq_ok hd
  obtain ⟨k, hk, -, rfl⟩ := sliceFrom_eq_ok hr
  obtain rfl : k = d.bytes.length := by omega
  exact ⟨hsized, hsplit⟩

theorem parseCommandMessage_eq_ok (h : parseCommandMessage hdr buf = ok msg) :
    ∃ m : CommandMessage, msg = .command m ∧ m.header = hdr ∧ m.commandArgs.Sized ∧
      m.metadata.Sized ∧ (∀ d ∈ m.inputDocs, d.Sized) ∧ hdr.bytes ++ buf = m.encode := by
  obtain ⟨⟨db, b1⟩, hdb, h⟩ := bind_eq_ok.mp h
  obtain ⟨⟨cmdName, b2⟩, hcmd, h⟩ := bind_eq_ok.mp h
  obtain ⟨⟨args, b3⟩, hargs, h⟩ := bind_eq_ok.mp h
  obtain ⟨⟨metadata, b4⟩, hmeta, h⟩ := bind_eq_ok.mp h
  obtain ⟨⟨b5, docs⟩, hdocs, h⟩ := bind_eq_ok.mp h
  cases h
  obtain ⟨hargs_sized, h3⟩ := nextBSON_eq_ok hargs
  obtain ⟨hmeta_sized, h4⟩ := nextBSON_eq_ok hmeta
  obtain ⟨hsized, h5⟩ := trailingDocsLoop_eq_ok hdocs
  refine ⟨_, rfl, rfl, hargs_sized, hmeta_sized, hsized, ?_⟩
  rw [nextCString_eq_ok hdb, nextCString_eq_ok hcmd, h3, h4, h5]
  simp only [CommandMessage.encode, List.append_assoc]

theorem parseCommandReplyMessage_eq_ok (h : parseCommandReplyMessage hdr buf = ok msg) :
    ∃ m : CommandReplyMessage, msg = .commandReply m ∧ m.header = hdr ∧ m.commandReply.Sized ∧
      m.metadata.Sized ∧ (∀ d ∈ m.outputDocs, d.Sized) ∧ hdr.bytes ++ buf = m.encode := by
  obtain ⟨⟨reply, b1⟩, hreply, h⟩ := bind_eq_ok.mp h
  obtain ⟨⟨metadata, b2⟩, hmeta, h⟩ := bind_eq_ok.mp h
  obtain ⟨⟨b3, docs⟩, hdocs, h⟩ := bind_eq_ok.mp h
  cases h
  obtain ⟨hreply_sized, h1⟩ := nextBSON_eq_ok hreply
  obtain ⟨hmeta_sized, h2⟩ := nextBSON_eq_ok hmeta
  obtain ⟨hsized, h3⟩ := trailingDocsLoop_eq_ok hdocs
  refine ⟨_, rfl, rfl, hreply_sized, hmeta_sized, hsized, ?_⟩
  rw [h1, h2, h3]
  simp only [CommandReplyMessage.encode, List.append_assoc]

theorem parseMessageMessage_eq_ok (h : parseMessageMessage hdr buf = ok msg) :
    ∃ m : MessageMessage, msg = .msg m ∧ m.header = hdr ∧ (∀ s ∈ m.sections, s.Sized) ∧
      ∃ fields rest, rest.length < 5 ∧ hdr.bytes ++ buf = m.encodeWith fields ++ rest := by
  unfold parseMessageMessage at h
  split_ifs at h with h4
  obtain ⟨flagBits, hflags, h⟩ := bind_eq_ok.mp h
  obtain ⟨⟨l, sections⟩, hloop, h⟩ := bind_eq_ok.mp h
  cases h
  have h0 : buf = int32Bytes flagBits ++ buf.drop 4 := readInt32_eq_ok hflags
  obtain ⟨j, hj, hleft, hsized, fields, -, hsecs⟩ := sectionsLoop_eq_ok hloop
  refine ⟨_, rfl, rfl, hsized, fields, buf.drop j, by simp; omega, ?_⟩
  conv_lhs => rw [h0, hsecs]
  simp only [MessageMessage.encodeWith, List.append_assoc]

end Parsers

/-! ## The dispatch and the frame -/

namespace Message

/-- The opcode of each kind of message. -/
def opCodeOf : Message → Int32
  | reply _ => opReply
  | update _ => opUpdate
  | insert _ => opInsert
  | query _ => opQuery
  | getMore _ => opGetMore
  | delete _ => opDelete
  | killCursors _ => opKillCursors
  | command _ => opCommand
  | commandReply _ => opCommandReply
  | msg _ => opMsg

/-- What the parsers guarantee of a message they return: every document can be placed by `Copy`,
OP_KILL_CURSORS has as many ids as `NumCursors` says, and the documents of every OP_MSG section
can be placed. -/
def Parsed : Message → Prop
  | reply m => ∀ d ∈ m.docs, d.Sized
  | update m => m.filter.Sized ∧ m.update.Sized
  | insert m => ∀ d ∈ m.docs, d.Sized
  | query m => m.query.Sized ∧ m.project.Sized
  | getMore _ => True
  | delete m => m.filter.Sized
  | killCursors m => m.numCursors.toInt = m.cursorIds.length
  | command m => m.commandArgs.Sized ∧ m.metadata.Sized ∧ ∀ d ∈ m.inputDocs, d.Sized
  | commandReply m => m.commandReply.Sized ∧ m.metadata.Sized ∧ ∀ d ∈ m.outputDocs, d.Sized
  | msg m => ∀ s ∈ m.sections, s.Sized

end Message

/-- The parsing half of `ReadMessage`, when it comes back, has read the header's three other
fields and, through the parser of the opcode, a message of the opcode's kind and a layout of it
from the front of the body buffer; what follows it was not read. -/
theorem parseMessage_eq_ok {size : Int32} {restBuf : List UInt8} {m : Message}
    (h : parseMessage size restBuf = ok m) :
    m.header.size = size ∧ m.header.opCode = m.opCodeOf ∧ m.Parsed ∧
      ∃ fields rest, int32Bytes size ++ restBuf = m.encodeWith fields ++ rest := by
  unfold parseMessage at h
  -- `split_ifs` would simplify the whole ten-way dispatch below; the guard is split by hand
  by_cases h12 : restBuf.length < 12
  · rw [if_pos h12] at h
    cases h
  rw [if_neg h12] at h
  obtain ⟨requestID, hreq, h⟩ := bind_eq_ok.mp h
  obtain ⟨r4, hr4, h⟩ := bind_eq_ok.mp h
  obtain ⟨responseTo, hresp, h⟩ := bind_eq_ok.mp h
  obtain ⟨r8, hr8, h⟩ := bind_eq_ok.mp h
  obtain ⟨opCode, hop, h⟩ := bind_eq_ok.mp h
  obtain ⟨body, hbody, h⟩ := bind_eq_ok.mp h
  have h0 : restBuf.drop 0 = int32Bytes requestID ++ restBuf.drop (0 + 4) := readInt32_eq_ok hreq
  obtain ⟨k, hk, h4⟩ := readInt32_at hr4 hresp
  obtain rfl : k = 0 + 4 := by omega
  obtain ⟨k, hk, h8⟩ := readInt32_at hr8 hop
  obtain rfl : k = 0 + 4 + 4 := by omega
  obtain ⟨k, hk, -, rfl⟩ := sliceFrom_eq_ok hbody
  obtain rfl : k = 0 + 4 + 4 + 4 := by omega
  -- the size prefix and the body buffer are the header, then the body
  have hsplit : int32Bytes size ++ restBuf =
      (⟨size, requestID, responseTo, opCode⟩ : MessageHeader).bytes ++ restBuf.drop (0 + 4 + 4 + 4) := by
    conv_lhs => rw [← List.drop_zero (l := restBuf), h0, h4, h8]
    simp only [MessageHeader.bytes, List.append_assoc]
  -- what each case has to show, from what the parser of its kind returns
  have hcase : ∀ (m : Message) (fields : List Int32) (rest : List UInt8),
      m.header = ⟨size, requestID, responseTo, opCode⟩ → opCode = m.opCodeOf → m.Parsed →
      (⟨size, requestID, responseTo, opCode⟩ : MessageHeader).bytes ++ restBuf.drop (0 + 4 + 4 + 4) =
        m.encodeWith fields ++ rest →
      m.header.size = size ∧ m.header.opCode = m.opCodeOf ∧ m.Parsed ∧
        ∃ fields rest, int32Bytes size ++ restBuf = m.encodeWith fields ++ rest := by
    intro m fields rest hhdr hop hp hlay
    exact ⟨by rw [hhdr], by rw [hhdr]; exact hop, hp, fields, rest, by rw [hsplit, hlay]⟩
  -- one case per opcode, in the order of the dispatch (`split` would decide the opcode
  -- comparisons of the other branches); an unknown opcode is an error
  by_cases hreply : opCode = opReply
  · rw [if_pos hreply] at h
    obtain ⟨m, rfl, hhdr, hp, hlay⟩ := parseReplyMessage_eq_ok h
    exact hcase (.reply m) [] [] hhdr hreply hp (by rw [hlay, List.append_nil]; rfl)
  rw [if_neg hreply] at h
  by_cases hupdate : opCode = opUpdate
  · rw [if_pos hupdate] at h
    obtain ⟨m, rfl, hhdr, hf, hu, rest, hlay⟩ := parseUpdateMessage_eq_ok h
    exact hcase (.update m) [] rest hhdr hupdate ⟨hf, hu⟩ hlay
  rw [if_neg hupdate] at h
  by_cases hinsert : opCode = opInsert
  · rw [if_pos hinsert] at h
    obtain ⟨m, rfl, hhdr, hp, hlay⟩ := parseInsertMessage_eq_ok h
    exact hcase (.insert m) [] [] hhdr hinsert hp (by rw [hlay, List.append_nil]; rfl)
  rw [if_neg hinsert] at h
  by_cases hquery : opCode = opQuery
  · rw [if_pos hquery] at h
    obtain ⟨m, rfl, hhdr, hq, hp, rest, hlay⟩ := parseQueryMessage_eq_ok h
    exact hcase (.query m) [] rest hhdr hquery ⟨hq, hp⟩ hlay
  rw [if_neg hquery] at h
  by_cases hgetMore : opCode = opGetMore
  · rw [if_pos hgetMore] at h
    obtain ⟨m, rfl, hhdr, rest, hlay⟩ := parseGetMoreMessage_eq_ok h
    exact hcase (.getMore m) [] rest hhdr hgetMore trivial hlay
  rw [if_neg hgetMore] at h
  by_cases hdelete : opCode = opDelete
  · rw [if_pos hdelete] at h
    obtain ⟨m, rfl, hhdr, hf, rest, hlay⟩ := parseDeleteMessage_eq_ok h
    exact hcase (.delete m) [] rest hhdr hdelete hf hlay
  rw [if_neg hdelete] at h
  by_cases hkill : opCode = opKillCursors
  · rw [if_pos hkill] at h
    obtain ⟨m, rfl, hhdr, hn, rest, hlay⟩ := parseKillCursorsMessage_eq_ok h
    exact hcase (.killCursors m) [] rest hhdr hkill hn hlay
  rw [if_neg hkill] at h
  by_cases hcommand : opCode = opCommand
  · rw [if_pos hcommand] at h
    obtain ⟨m, rfl, hhdr, ha, hm, hd, hlay⟩ := parseCommandMessage_eq_ok h
    exact hcase (.command m) [] [] hhdr hcommand ⟨ha, hm, hd⟩
      (by rw [hlay, List.append_nil]; rfl)
  rw [if_neg hcommand] at h
  by_cases hcommandReply : opCode = opCommandReply
  · rw [if_pos hcommandReply] at h
    obtain ⟨m, rfl, hhdr, hr, hm, hd, hlay⟩ := parseCommandReplyMessage_eq_ok h
    exact hcase (.commandReply m) [] [] hhdr hcommandReply ⟨hr, hm, hd⟩
      (by rw [hlay, List.append_nil]; rfl)
  rw [if_neg hcommandReply] at h
  by_cases hmsg : opCode = opMsg
  · rw [if_pos hmsg] at h
    obtain ⟨m, rfl, hhdr, hs, fields, rest, -, hlay⟩ := parseMessageMessage_eq_ok h
    exact hcase (.msg m) fields rest hhdr hmsg hs hlay
  rw [if_neg hmsg] at h
  cases h

theorem readFrame_fullReader_eq_ok {bs body rest : List UInt8} {size : Int32}
    (h : readFrame fullReader bs = ok (size, body, rest)) :
    ∃ bodyLen : Int32, 4 ≤ bs.length ∧ size = Int32.ofNat (leNat (bs.take 4)) ∧
      checkSize size = ok bodyLen ∧
      body = (bs.drop 4).take bodyLen.toInt.toNat ++
        List.replicate (bodyLen.toInt.toNat - (bs.length - 4)) 0 ∧
      rest = (bs.drop 4).drop bodyLen.toInt.toNat := by
  -- the size prefix must be whole and must pass the checks, else `readFrame` is an error
  have hread := h
  unfold readFrame at hread
  rw [fullReader_read] at hread
  dsimp only at hread
  split_ifs at hread with hlen4
  have h4 : 4 ≤ bs.length := by
    simp only [List.length_take, ne_eq, not_not] at hlen4
    omega
  rw [readInt32_eq (by simp; omega), ok_bind, List.take_take, Nat.min_self] at hread
  obtain ⟨bodyLen, hc, -⟩ := bind_eq_ok.mp hread
  rw [readFrame_fullReader h4 hc] at h
  cases h
  exact ⟨bodyLen, h4, rfl, hc, rfl, rfl⟩

/-- `ReadMessage` with the full reader, when it comes back having read the stream in full: the
stream is within what it accepts, and it is a layout of the message, with the size fields its
OP_MSG sections declared, followed by bytes the parser did not read. -/
theorem readMessage_eq_ok {bs rest : List UInt8} {m : Message}
    (h : readMessage fullReader bs = ok (m, rest)) (hlen : (bs.length : Int) = m.header.size.toInt) :
    rest = [] ∧ bs.length ≤ 200 * 1024 * 1024 ∧ m.Parsed ∧
      ∃ fields tail, bs = m.encodeWith fields ++ tail := by
  obtain ⟨⟨size, body, s⟩, hframe, h⟩ := bind_eq_ok.mp h
  obtain ⟨m', hparse, h⟩ := bind_eq_ok.mp h
  cases h
  obtain ⟨hsize, -, hparsed, fields, tail, hlay⟩ := parseMessage_eq_ok hparse
  obtain ⟨bodyLen, h4, hpre, hc, hbody, hrest⟩ := readFrame_fullReader_eq_ok hframe
  obtain ⟨rfl, hrange⟩ := (checkSize_eq_ok _ _).mp hc
  rw [hsize] at hlen
  -- the size prefix is the stream's length, so the body buffer is the rest of the stream
  have hmax : bs.length ≤ 200 * 1024 * 1024 := by omega
  have hL : (size - 4).toInt.toNat = bs.length - 4 := by
    rw [toInt_sub_four]
    split_ifs <;> omega
  rw [hL, ← List.length_drop, List.take_length, List.length_drop, Nat.sub_self,
    List.replicate_zero, List.append_nil] at hbody
  rw [hL, ← List.length_drop, List.drop_length] at hrest
  refine ⟨hrest, hmax, hparsed, fields, tail, ?_⟩
  rw [← hlay, hbody, hpre, int32Bytes_ofNat_leNat (by simp; omega), List.take_append_drop]

end Mongonet
