import Mongonet.Wire.Encode
import Mongonet.Wire.Total

/-!
# Mongonet.Wire.Decode — the parsers read back what `Serialize` writes

For each message kind, the body parser applied to the layout of `Mongonet.Wire.Encode` returns
the message it was laid out from (`ReplyMessage.parse_encode` … `MessageMessage.parse_encode`).
What the parsers need of the message is that its strings have no NUL (`readCString` stops at the
first one) and that its documents are well formed: `Size` is their length and is the `int32` in
their first four bytes, and lies between 5 and 128 MiB (`SimpleBSON.WellFormed`).  A size of 0
would be the wire protocol's shortcut, which `parseSimpleBSON` reads differently.

The parsers address the body by absolute offsets.  A field is read where it is laid by peeling
the fields before it off the buffer (`sliceFrom_int32Bytes_append` and its siblings, discharged by
`omega`); each loop is read back by induction on the list it reads, with the position of the next
element as `buf.drop k`.
-/

namespace Mongonet

open Go Result

/-! ## Fields -/

@[simp] theorem readInt32_int32Bytes (i : Int32) (rest : List UInt8) :
    readInt32 (int32Bytes i ++ rest) = ok i := by
  rw [readInt32_eq (by simp), List.take_left' (by simp), int32Bytes, ofNat_leNat_leBytes_int32]

@[simp] theorem readInt64_int64Bytes (i : Int64) (rest : List UInt8) :
    readInt64 (int64Bytes i ++ rest) = ok i := by
  rw [readInt64_eq (by simp), List.take_left' (by simp), int64Bytes, ofNat_leNat_leBytes_int64]

theorem readInt64_int64Bytes_self (i : Int64) : readInt64 (int64Bytes i) = ok i := by
  simpa using readInt64_int64Bytes i []

theorem readCString_cstringBytes {s : List UInt8} (hs : 0 ∉ s) (rest : List UInt8) :
    readCString (cstringBytes s ++ rest) = ok s := by
  induction s with
  | nil => rfl
  | cons c s ih =>
    have hc : c ≠ 0 := fun h => hs (h ▸ List.mem_cons_self)
    have hs' : 0 ∉ s := fun h => hs (List.mem_cons_of_mem c h)
    simp only [cstringBytes, List.cons_append] at ih ⊢
    rw [readCString, if_neg hc, ih hs', ok_bind]

/-! A field at the front of the bytes left: slicing past it slices the rest. -/

theorem sliceFrom_int32Bytes_append (i : Int32) (b : List UInt8) {lo : Int} (h : 4 ≤ lo) :
    (sliceFrom (int32Bytes i ++ b) lo : Res (List UInt8)) = sliceFrom b (lo - 4) := by
  rw [sliceFrom_append_of_le (by simpa using h), length_int32Bytes, Nat.cast_ofNat]

theorem sliceFrom_int64Bytes_append (i : Int64) (b : List UInt8) {lo : Int} (h : 8 ≤ lo) :
    (sliceFrom (int64Bytes i ++ b) lo : Res (List UInt8)) = sliceFrom b (lo - 8) := by
  rw [sliceFrom_append_of_le (by simpa using h), length_int64Bytes, Nat.cast_ofNat]

theorem sliceFrom_cstringBytes_append (s b : List UInt8) {lo : Int} (h : s.length + 1 ≤ lo) :
    (sliceFrom (cstringBytes s ++ b) lo : Res (List UInt8)) =
      sliceFrom b (lo - (s.length + 1)) := by
  rw [sliceFrom_append_of_le (by simpa using h), length_cstringBytes, Nat.cast_add, Nat.cast_one]

theorem nextCString_cstringBytes {s : List UInt8} (hs : 0 ∉ s) (rest : List UInt8) :
    nextCString (cstringBytes s ++ rest) = ok (s, rest) := by
  have hlen : ¬ (cstringBytes s ++ rest).length < s.length + 1 := by
    rw [List.length_append, length_cstringBytes]
    omega
  rw [nextCString, readCString_cstringBytes hs, ok_bind, if_neg hlen,
    sliceFrom_append_of_le (by simp), sliceFrom_of_eq_zero (by simp)]
  rfl

/-! ## Documents -/

/-- A document as the wire protocol has it: `Size` is its length and the `int32` in its first
four bytes, at least the 5 bytes of the empty document and at most `parseSimpleBSON`'s 128 MiB. -/
@[mk_iff] structure SimpleBSON.WellFormed (d : SimpleBSON) : Prop where
  size_eq : d.size.toInt = d.bson.length
  prefix_eq : Int32.ofNat (leNat (d.bson.take 4)) = d.size
  five_le : 5 ≤ d.size.toInt
  le_max : d.size.toInt ≤ 128 * 1024 * 1024

instance : DecidablePred SimpleBSON.WellFormed := fun d =>
  decidable_of_iff _ (SimpleBSON.wellFormed_iff d).symm

namespace SimpleBSON.WellFormed

variable {d : SimpleBSON} (hd : d.WellFormed)
include hd

theorem sized : d.Sized := ⟨by have := hd.five_le; omega, hd.size_eq.le⟩

theorem bytes_eq : d.bytes = d.bson := by
  rw [SimpleBSON.bytes, hd.size_eq, Int.toNat_natCast, List.take_length]

theorem five_le_length : 5 ≤ d.bytes.length := by
  have := hd.five_le
  have := hd.size_eq
  rw [hd.bytes_eq]
  omega

theorem length_bytes : (d.bytes.length : Int) = d.size.toInt := by
  rw [hd.bytes_eq, hd.size_eq]

end SimpleBSON.WellFormed

@[simp] theorem SimpleBSON.bytes_zero : SimpleBSON.zero.bytes = [] := rfl

theorem parseSimpleBSON_bytes {d : SimpleBSON} (hd : d.WellFormed) (rest : List UInt8) :
    parseSimpleBSON (d.bytes ++ rest) = ok d := by
  have hlen := hd.size_eq
  have h5 := hd.five_le
  have hmax := hd.le_max
  have hread : readInt32 (d.bson ++ rest) = ok d.size := by
    rw [readInt32_eq (by simp; omega), List.take_append_of_le_length (by omega), hd.prefix_eq]
  have hslice : (slice (d.bson ++ rest) 0 d.size.toInt : Res (List UInt8)) = ok d.bson := by
    simp [slice, hlen]
  rw [hd.bytes_eq]
  unfold parseSimpleBSON
  rw [if_neg (by simp; omega), hread, ok_bind, if_neg (by omega), if_neg (by omega),
    if_neg (by simp; omega), hslice, ok_bind]
  rfl

theorem parseSimpleBSON_bytes_self {d : SimpleBSON} (hd : d.WellFormed) :
    parseSimpleBSON d.bytes = ok d := by
  simpa using parseSimpleBSON_bytes hd []

theorem sliceFrom_bytes_append {d : SimpleBSON} (hd : d.WellFormed) (b : List UInt8) {lo : Int}
    (h : d.size.toInt ≤ lo) :
    (sliceFrom (d.bytes ++ b) lo : Res (List UInt8)) = sliceFrom b (lo - d.size.toInt) := by
  rw [sliceFrom_append_of_le (by rw [hd.length_bytes]; exact h), hd.length_bytes]

theorem nextBSON_bytes {d : SimpleBSON} (hd : d.WellFormed) (rest : List UInt8) :
    nextBSON (d.bytes ++ rest) = ok (d, rest) := by
  have hlen := hd.length_bytes
  rw [nextBSON, parseSimpleBSON_bytes hd, ok_bind, if_neg (by simp; omega),
    sliceFrom_append_of_le (by omega), sliceFrom_of_eq_zero (by omega)]
  rfl

theorem length_le_length_docsBytes {docs : List SimpleBSON} (hd : ∀ d ∈ docs, d.WellFormed) :
    docs.length ≤ (docsBytes docs).length := by
  induction docs with
  | nil => simp
  | cons d ds ih =>
    have h5 := (hd d List.mem_cons_self).five_le_length
    have := ih fun e he => hd e (List.mem_cons_of_mem d he)
    simp only [docsBytes_cons, List.length_append, List.length_cons]
    omega

/-! ## The loops -/

theorem docsLoop_docsBytes {buf : List UInt8} {docs : List SimpleBSON}
    (hd : ∀ d ∈ docs, d.WellFormed) {k : Nat} (hbuf : buf.drop k = docsBytes docs)
    (hk : k ≤ buf.length) (done : List SimpleBSON) {loc : Int} (hloc : loc = k) {n : Nat}
    (hn : docs.length < n) :
    docsLoop buf n (loc, done) = ok ((buf.length : Int), done ++ docs) := by
  induction docs generalizing k done loc n with
  | nil =>
    have hlen : buf.length = k := by
      have := congrArg List.length hbuf
      simp only [List.length_drop, docsBytes_nil, List.length_nil] at this
      omega
    rw [docsLoop, loop_of_not_cond (by simp; omega), hloc, hlen, List.append_nil]
  | cons d ds ih =>
    obtain ⟨n, rfl⟩ : ∃ m, n = m + 1 := ⟨n - 1, by simp at hn; omega⟩
    have hd0 := hd d List.mem_cons_self
    have h5 := hd0.five_le_length
    have hlen := congrArg List.length hbuf
    simp only [List.length_drop, docsBytes_cons, List.length_append] at hlen
    -- the next document starts where this one ends
    have hnext : buf.drop (k + d.bytes.length) = docsBytes ds := by
      rw [← List.drop_drop, hbuf, docsBytes_cons, List.drop_left]
    have hrest := ih (fun e he => hd e (List.mem_cons_of_mem d he)) hnext (by omega)
      (done ++ [d]) (show loc + d.size.toInt = ((k + d.bytes.length : Nat) : Int) by
        rw [Nat.cast_add, hd0.length_bytes, hloc]) (n := n) (by simp at hn; omega)
    rw [docsLoop, loop_succ_of_cond (by simp; omega), sliceFrom_of_eq hloc hk, hbuf, docsBytes_cons,
      ok_bind, parseSimpleBSON_bytes hd0, ok_bind, pure_eq, ok_bind]
    rw [List.append_assoc, List.singleton_append] at hrest
    exact hrest

theorem trailingDocsLoop_docsBytes {docs : List SimpleBSON} (hd : ∀ d ∈ docs, d.WellFormed)
    (done : List SimpleBSON) {n : Nat} (hn : docs.length < n) :
    trailingDocsLoop n (docsBytes docs, done) = ok ([], done ++ docs) := by
  induction docs generalizing done n with
  | nil => rw [trailingDocsLoop, loop_of_not_cond (by simp), docsBytes_nil, List.append_nil]
  | cons d ds ih =>
    obtain ⟨n, rfl⟩ : ∃ m, n = m + 1 := ⟨n - 1, by simp at hn; omega⟩
    have hd0 := hd d List.mem_cons_self
    have h5 := hd0.five_le_length
    have hrest := ih (fun e he => hd e (List.mem_cons_of_mem d he)) (done ++ [d]) (n := n)
      (by simp at hn; omega)
    have hslice : (sliceFrom (d.bytes ++ docsBytes ds) d.size.toInt : Res (List UInt8)) =
        ok (docsBytes ds) := by
      rw [sliceFrom_append_of_le (by rw [hd0.length_bytes]), sliceFrom_of_eq_zero (by
        rw [hd0.length_bytes]; omega)]
    rw [trailingDocsLoop, loop_succ_of_cond (by simp; omega), docsBytes_cons,
      parseSimpleBSON_bytes hd0, ok_bind, hslice, ok_bind, pure_eq, ok_bind]
    rw [List.append_assoc, List.singleton_append] at hrest
    exact hrest

theorem cursorIdsLoop_int64Bytes {buf : List UInt8} {numCursors : Int} (rest : List Int64)
    {k : Nat} (hbuf : buf.drop k = (rest.map int64Bytes).flatten) (done : List Int64) {i loc : Int}
    {ids : List Int64} (hi : i = done.length) (hloc : loc = k)
    (hids : ids = done ++ List.replicate rest.length 0) (hnum : numCursors = i + rest.length)
    {n : Nat} (hn : rest.length < n) :
    cursorIdsLoop buf numCursors n (i, loc, ids) =
      ok (numCursors, loc + 8 * rest.length, done ++ rest) := by
  subst hids
  induction rest generalizing k done i loc n with
  | nil =>
    rw [cursorIdsLoop, loop_of_not_cond (by simp [hnum])]
    simp [hnum]
  | cons c cs ih =>
    obtain ⟨n, rfl⟩ : ∃ m, n = m + 1 := ⟨n - 1, by simp at hn; omega⟩
    have hlen := congrArg List.length hbuf
    simp only [List.length_drop, List.map_cons, List.flatten_cons, List.length_append,
      length_int64Bytes] at hlen
    have hnext : buf.drop (k + 8) = (cs.map int64Bytes).flatten := by
      rw [← List.drop_drop, hbuf, List.map_cons, List.flatten_cons,
        List.drop_left' (length_int64Bytes c)]
    have hset : (setIndex (done ++ List.replicate (cs.length + 1) 0) i c : Res (List Int64)) =
        ok ((done ++ [c]) ++ List.replicate cs.length 0) := by
      rw [hi, setIndex_of_lt (by simp)]
      simp [List.replicate_succ]
    have hrest := ih (k := k + 8) hnext (done ++ [c])
      (show i + 1 = ((done ++ [c]).length : Int) by simp [hi])
      (show loc + 8 = ((k + 8 : Nat) : Int) by push_cast; omega)
      (by simp only [List.length_cons, Nat.cast_add] at hnum; omega) (n := n)
      (by simp at hn; omega)
    rw [cursorIdsLoop, loop_succ_of_cond (by simp at hnum ⊢; omega), hloc,
      sliceFrom_of_le (by omega), hbuf, List.map_cons, List.flatten_cons, List.length_cons, ok_bind,
      readInt64_int64Bytes, ok_bind, hset, ok_bind, pure_eq, ok_bind]
    rw [show (k : Int) + 8 * ((cs.length + 1 : Nat) : Int) = k + 8 + 8 * cs.length by
        push_cast; ring,
      show done ++ c :: cs = (done ++ [c]) ++ cs by simp]
    rw [hloc] at hrest
    exact hrest

theorem docSeqLoop_docsBytes {buf : List UInt8} {docs : List SimpleBSON}
    (hd : ∀ d ∈ docs, d.WellFormed) {k : Nat} {rest : List UInt8}
    (hbuf : buf.drop k = docsBytes docs ++ rest) (done : List SimpleBSON) (num : Int)
    {esr : Int32} {loc : Int} (hesr : esr.toInt = (docsBytes docs).length) (hloc : loc = k)
    {n : Nat} (hn : docs.length < n) :
    docSeqLoop buf n (esr, loc, done, num) =
      ok (0, loc + (docsBytes docs).length, done ++ docs, num + docs.length) := by
  induction docs generalizing k done esr loc num n with
  | nil =>
    have h0 : esr = 0 := Int32.toInt_inj.mp (by rw [hesr]; rfl)
    rw [docSeqLoop, loop_of_not_cond (by simp [hesr]), h0]
    simp
  | cons d ds ih =>
    obtain ⟨n, rfl⟩ : ∃ m, n = m + 1 := ⟨n - 1, by simp at hn; omega⟩
    have hd0 := hd d List.mem_cons_self
    have h5 := hd0.five_le_length
    have hsz := hd0.length_bytes
    have hlen := congrArg List.length hbuf
    simp only [List.length_drop, docsBytes_cons, List.length_append, Nat.cast_add] at hlen hesr
    have hnext : buf.drop (k + d.bytes.length) = docsBytes ds ++ rest := by
      apply drop_add_of_drop_eq
      rw [hbuf, docsBytes_cons, List.append_assoc]
    have hsub : (esr - d.size).toInt = (docsBytes ds).length := by
      have := esr.toInt_lt
      rw [toInt_sub_of_range (by omega) (by omega)]
      omega
    have hrest := ih (fun e he => hd e (List.mem_cons_of_mem d he)) hnext (done ++ [d])
      (num + 1) hsub (show loc + d.size.toInt = ((k + d.bytes.length : Nat) : Int) by
        push_cast; omega) (n := n) (by simp at hn; omega)
    rw [docSeqLoop, loop_succ_of_cond (by simp only [decide_eq_true_eq]; omega)]
    dsimp only
    rw [sliceFrom_of_eq hloc (by omega), hbuf, docsBytes_cons, List.append_assoc, ok_bind,
      parseSimpleBSON_bytes hd0, ok_bind, if_neg (by omega), pure_eq, ok_bind]
    rw [show loc + ((d.bytes ++ docsBytes ds).length : Nat) =
        loc + d.size.toInt + (docsBytes ds).length by
          simp only [List.length_append, Nat.cast_add]; omega,
      show done ++ d :: ds = (done ++ [d]) ++ ds by simp,
      show num + ((d :: ds).length : Nat) = num + 1 + ds.length by
        simp only [List.length_cons, Nat.cast_add, Nat.cast_one]; ring]
    exact hrest

/-! ## OP_MSG sections -/

/-- What the OP_MSG parser needs of a section to read it back: well-formed documents, and an
identifier without NUL. -/
def MessageMessageSection.Decodable : MessageMessageSection → Prop
  | .body s => s.body.WellFormed
  | .docSeq s => 0 ∉ s.sequenceId ∧ ∀ d ∈ s.documents, d.WellFormed

instance : DecidablePred MessageMessageSection.Decodable := fun s =>
  match s with
  | .body s => inferInstanceAs (Decidable s.body.WellFormed)
  | .docSeq s => inferInstanceAs (Decidable (0 ∉ s.sequenceId ∧ ∀ d ∈ s.documents, d.WellFormed))

theorem MessageMessageSection.Decodable.sized {s : MessageMessageSection} (hs : s.Decodable) :
    s.Sized := by
  cases s with
  | body b => exact SimpleBSON.WellFormed.sized hs
  | docSeq d => exact fun e he => (hs.2 e he).sized

theorem MessageMessageSection.six_le_length {s : MessageMessageSection} (hs : s.Decodable) :
    6 ≤ s.encode.length := by
  cases s with
  | body b =>
    have := SimpleBSON.WellFormed.five_le_length hs
    simp only [MessageMessageSection.encode, List.length_cons]
    omega
  | docSeq d =>
    simp only [MessageMessageSection.encode, List.length_cons, List.length_append,
      length_int32Bytes, length_cstringBytes]
    omega

theorem parseMessageMessageSection_encode {buf : List UInt8} {s : MessageMessageSection}
    (hs : s.Decodable) (hlt : s.encode.length < 2 ^ 31) {k : Nat} {rest : List UInt8}
    (hbuf : buf.drop k = s.encode ++ rest) :
    parseMessageMessageSection buf k = ok (s, (k : Int) + s.encode.length) := by
  cases s with
  | body b =>
    have hb := SimpleBSON.WellFormed.length_bytes hs
    have h0 : buf.drop k = [0] ++ (b.body.bytes ++ rest) := by
      simpa [MessageMessageSection.encode] using hbuf
    have hbody : buf.drop (k + 1) = b.body.bytes ++ rest := drop_add_of_drop_eq h0
    have hlen := congrArg List.length hbody
    simp only [List.length_drop, List.length_append] at hlen
    have h5 := SimpleBSON.WellFormed.five_le_length hs
    rw [parseMessageMessageSection, index_of_drop_eq hbuf rfl, ok_bind, if_pos rfl,
      parseBodySection, sliceFrom_of_eq (k := k + 1) (by push_cast; rfl) (by omega), hbody,
      ok_bind, parseSimpleBSON_bytes hs, ok_bind, pure_eq, ← hb]
    simp only [MessageMessageSection.encode, List.length_cons]
    push_cast
    ring_nf
  | docSeq d =>
    obtain ⟨hid, hd⟩ := hs
    have hsize := MessageMessageSection.toInt_size (s := .docSeq d)
      (fun e he => (hd e he).sized) hlt
    simp only [MessageMessageSection.size, MessageMessageSection.encode, List.length_cons,
      List.length_append, length_int32Bytes, length_cstringBytes] at hsize hlt
    -- the section's bytes after the kind byte, after the size, after the identifier
    have hk1 : buf.drop k = [1] ++ (int32Bytes (d.size - 1) ++ (cstringBytes d.sequenceId ++
        (docsBytes d.documents ++ rest))) := by
      simpa [MessageMessageSection.encode] using hbuf
    have hb1 : buf.drop (k + 1) = int32Bytes (d.size - 1) ++ (cstringBytes d.sequenceId ++
        (docsBytes d.documents ++ rest)) := drop_add_of_drop_eq hk1
    have hb5 : buf.drop (k + 1 + 4) =
        cstringBytes d.sequenceId ++ (docsBytes d.documents ++ rest) :=
      drop_add_of_drop_eq hb1
    have hb6 : buf.drop (k + 1 + 4 + (d.sequenceId.length + 1)) =
        docsBytes d.documents ++ rest := by
      rw [← length_cstringBytes]
      exact drop_add_of_drop_eq hb5
    have hlen := congrArg List.length hb1
    simp only [List.length_drop, List.length_append, length_int32Bytes, length_cstringBytes]
      at hlen
    -- the declared size, less the size field and the identifier, is what the documents take
    have h1 : (1 : Int32).toInt = 1 := by decide
    have h4 : (4 : Int32).toInt = 4 := by decide
    have hs1 : (d.size - 1).toInt = d.size.toInt - 1 := by
      rw [toInt_sub_of_range (by omega) (by omega), h1]
    have hs5 : (d.size - 1 - 4).toInt = d.size.toInt - 5 := by
      rw [toInt_sub_of_range (by omega) (by omega), hs1, h4]
      ring
    have hidl : (Int32.ofNat (d.sequenceId.length + 1)).toInt = d.sequenceId.length + 1 :=
      toInt_ofNat_of_lt (by omega)
    have hesr : (d.size - 1 - 4 - Int32.ofNat (d.sequenceId.length + 1)).toInt =
        (docsBytes d.documents).length := by
      rw [toInt_sub_of_range (by omega) (by omega), hs5, hidl]
      omega
    have hdocs := length_le_length_docsBytes hd
    rw [parseMessageMessageSection, index_of_drop_eq hbuf rfl, ok_bind, if_neg (by decide),
      if_pos rfl, parseDocumentSequenceSection, sliceFrom_of_eq (k := k + 1) (by push_cast; rfl)
      (by omega), hb1, ok_bind, if_neg (by simp), readInt32_int32Bytes, ok_bind]
    rw [if_neg (by simp only [List.length_append, length_int32Bytes, length_cstringBytes,
      Nat.cast_add]; omega), sliceFrom_of_eq (k := k + 1 + 4) (by push_cast; rfl) (by omega), hb5,
      ok_bind, readCString_cstringBytes hid, ok_bind]
    dsimp only
    rw [docSeqLoop_docsBytes hd hb6 [] 0 hesr (by push_cast; ring) (by omega), ok_bind]
    simp only [List.nil_append, pure_eq, MessageMessageSection.encode, List.length_cons,
      List.length_append, length_int32Bytes, length_cstringBytes, Nat.cast_add, Nat.cast_one]
    congr 2
    ring

theorem sectionsLoop_encode {buf : List UInt8} {secs : List MessageMessageSection}
    (hs : ∀ s ∈ secs, s.Decodable ∧ s.encode.length < 2 ^ 31) {k : Nat}
    (hbuf : buf.drop k = (secs.map MessageMessageSection.encode).flatten) (hk : k ≤ buf.length)
    (done : List MessageMessageSection) {loc : Int} (hloc : loc = k) {n : Nat}
    (hn : secs.length < n) :
    sectionsLoop buf n (loc, done) = ok ((buf.length : Int), done ++ secs) := by
  induction secs generalizing k done loc n with
  | nil =>
    have hlen : buf.length = k := by
      have := congrArg List.length hbuf
      simp only [List.length_drop, List.map_nil, List.flatten_nil, List.length_nil] at this
      omega
    rw [sectionsLoop, loop_of_not_cond (by simp; omega), hloc, hlen, List.append_nil]
  | cons s ss ih =>
    obtain ⟨n, rfl⟩ : ∃ m, n = m + 1 := ⟨n - 1, by simp at hn; omega⟩
    obtain ⟨hs0, hlt⟩ := hs s List.mem_cons_self
    have h6 := MessageMessageSection.six_le_length hs0
    have hlen := congrArg List.length hbuf
    simp only [List.length_drop, List.map_cons, List.flatten_cons, List.length_append] at hlen
    have hnext :
        buf.drop (k + s.encode.length) = (ss.map MessageMessageSection.encode).flatten := by
      apply drop_add_of_drop_eq
      rw [hbuf, List.map_cons, List.flatten_cons]
    have hbuf' : buf.drop k = s.encode ++ (ss.map MessageMessageSection.encode).flatten := by
      rw [hbuf, List.map_cons, List.flatten_cons]
    have hrest := ih (fun e he => hs e (List.mem_cons_of_mem s he)) hnext (by omega)
      (done ++ [s]) (show (k : Int) + s.encode.length = ((k + s.encode.length : Nat) : Int) by
        push_cast; rfl) (n := n) (by simp at hn; omega)
    rw [sectionsLoop, loop_succ_of_cond (by simp; omega), hloc,
      parseMessageMessageSection_encode hs0 hlt hbuf', ok_bind]
    dsimp only
    rw [pure_eq, ok_bind]
    rw [List.append_assoc, List.singleton_append] at hrest
    exact hrest

/-! ## The ten body parsers -/

theorem ReplyMessage.parse_encode (m : ReplyMessage) (hd : ∀ d ∈ m.docs, d.WellFormed) :
    parseReplyMessage m.header (m.encode.drop 16) = ok (.reply m) := by
  have hdocs := length_le_length_docsBytes hd
  simp only [ReplyMessage.encode, List.append_assoc, List.drop_left' (length_header_bytes _)]
  unfold parseReplyMessage
  rw [if_neg (by simp; omega)]
  simp (disch := omega) only [sliceFrom_of_eq_zero, sliceFrom_int32Bytes_append,
    sliceFrom_int64Bytes_append, readInt32_int32Bytes, readInt64_int64Bytes, ok_bind]
  rw [docsLoop_docsBytes hd (k := 20) (by simp [List.drop_append, List.drop_of_length_le])
    (by simp only [List.length_append, length_int32Bytes, length_int64Bytes]; omega) []
    (show (20 : Int) = ((20 : Nat) : Int) from rfl) (by simp; omega), ok_bind, pure_eq,
    List.nil_append]

theorem UpdateMessage.parse_encode (m : UpdateMessage) (hns : 0 ∉ m.ns)
    (hf : m.filter.WellFormed) (hu : m.update.WellFormed) :
    parseUpdateMessage m.header (m.encode.drop 16) = ok (.update m) := by
  have hfl := hf.length_bytes
  have hul := hu.length_bytes
  simp only [UpdateMessage.encode, List.append_assoc, List.drop_left' (length_header_bytes _)]
  unfold parseUpdateMessage
  simp (disch := omega) only [sliceFrom_of_eq_zero, sliceFrom_int32Bytes_append,
    sliceFrom_cstringBytes_append, sliceFrom_bytes_append hf, readInt32_int32Bytes,
    readCString_cstringBytes hns, parseSimpleBSON_bytes hf, parseSimpleBSON_bytes_self hu, ok_bind,
    if_neg, List.length_append, length_int32Bytes, length_cstringBytes, pure_eq]

theorem InsertMessage.parse_encode (m : InsertMessage) (hns : 0 ∉ m.ns)
    (hd : ∀ d ∈ m.docs, d.WellFormed) :
    parseInsertMessage m.header (m.encode.drop 16) = ok (.insert m) := by
  have hdocs := length_le_length_docsBytes hd
  simp only [InsertMessage.encode, List.append_assoc, List.drop_left' (length_header_bytes _)]
  unfold parseInsertMessage
  simp (disch := omega) only [sliceFrom_of_eq_zero, sliceFrom_int32Bytes_append,
    readInt32_int32Bytes, readCString_cstringBytes hns, ok_bind, if_neg, List.length_append,
    length_int32Bytes, length_cstringBytes]
  rw [docsLoop_docsBytes hd (k := 4 + (m.ns.length + 1))
    (by simp [List.drop_append, List.drop_of_length_le])
    (by simp only [List.length_append, length_int32Bytes, length_cstringBytes]; omega) []
    (by push_cast; ring) (by omega), ok_bind, pure_eq, List.nil_append]

theorem QueryMessage.parse_encode (m : QueryMessage) (hns : 0 ∉ m.ns) (hq : m.query.WellFormed)
    (hp : m.project.WellFormed ∨ m.project = SimpleBSON.zero) :
    parseQueryMessage m.header (m.encode.drop 16) = ok (.query m) := by
  have hql := hq.length_bytes
  simp only [QueryMessage.encode, List.append_assoc, List.drop_left' (length_header_bytes _)]
  unfold parseQueryMessage
  -- the projection is read exactly when bytes are left after the query
  rcases hp with hp | hp
  · have hpl := hp.length_bytes
    have h5 := hp.five_le_length
    simp (disch := omega) only [sliceFrom_of_eq_zero, sliceFrom_int32Bytes_append,
      sliceFrom_cstringBytes_append, sliceFrom_bytes_append hq, readInt32_int32Bytes,
      readCString_cstringBytes hns, parseSimpleBSON_bytes hq, parseSimpleBSON_bytes_self hp,
      ok_bind, if_pos, if_neg, List.length_append, length_int32Bytes, length_cstringBytes, pure_eq]
  · rw [hp]
    simp (disch := omega) only [sliceFrom_of_eq_zero, sliceFrom_int32Bytes_append,
      sliceFrom_cstringBytes_append, SimpleBSON.bytes_zero, List.append_nil, readInt32_int32Bytes,
      readCString_cstringBytes hns, parseSimpleBSON_bytes_self hq, ok_bind, if_neg,
      List.length_append, length_int32Bytes, length_cstringBytes, pure_eq]
    rw [← hp]

theorem GetMoreMessage.parse_encode (m : GetMoreMessage) (hns : 0 ∉ m.ns) :
    parseGetMoreMessage m.header (m.encode.drop 16) = ok (.getMore m) := by
  simp only [GetMoreMessage.encode, List.append_assoc, List.drop_left' (length_header_bytes _)]
  unfold parseGetMoreMessage
  simp (disch := omega) only [sliceFrom_of_eq_zero, sliceFrom_int32Bytes_append,
    sliceFrom_cstringBytes_append, readInt32_int32Bytes, readInt64_int64Bytes_self,
    readCString_cstringBytes hns, ok_bind, if_neg, List.length_append, length_int32Bytes,
    length_int64Bytes, length_cstringBytes, pure_eq]

theorem DeleteMessage.parse_encode (m : DeleteMessage) (hns : 0 ∉ m.ns)
    (hf : m.filter.WellFormed) :
    parseDeleteMessage m.header (m.encode.drop 16) = ok (.delete m) := by
  have hfl := hf.length_bytes
  simp only [DeleteMessage.encode, List.append_assoc, List.drop_left' (length_header_bytes _)]
  unfold parseDeleteMessage
  simp (disch := omega) only [sliceFrom_of_eq_zero, sliceFrom_int32Bytes_append,
    sliceFrom_cstringBytes_append, readInt32_int32Bytes, readCString_cstringBytes hns,
    parseSimpleBSON_bytes_self hf, ok_bind, if_neg, List.length_append, length_int32Bytes,
    length_cstringBytes, pure_eq]

theorem KillCursorsMessage.parse_encode (m : KillCursorsMessage)
    (hn : m.numCursors.toInt = m.cursorIds.length) :
    parseKillCursorsMessage m.header (m.encode.drop 16) = ok (.killCursors m) := by
  have hids := length_flatten_int64Bytes m.cursorIds
  have hmax : (m.cursorIds.length : Int) < 2 ^ 31 := hn ▸ m.numCursors.toInt_lt
  simp only [KillCursorsMessage.encode, List.append_assoc, List.drop_left' (length_header_bytes _)]
  unfold parseKillCursorsMessage
  simp (disch := omega) only [sliceFrom_of_eq_zero, sliceFrom_int32Bytes_append,
    readInt32_int32Bytes, ok_bind, if_neg, List.length_append, length_int32Bytes, hids, hn,
    make_of_nonneg, Int.toNat_natCast, maxInt32]
  rw [cursorIdsLoop_int64Bytes m.cursorIds (k := 8)
    (by simp [List.drop_append, List.drop_of_length_le]) []
    (by simp) (show (8 : Int) = ((8 : Nat) : Int) from rfl) (by simp) (by simp) (by omega), ok_bind,
    pure_eq, List.nil_append]

theorem CommandMessage.parse_encode (m : CommandMessage) (hdb : 0 ∉ m.db)
    (hcmd : 0 ∉ m.cmdName) (ha : m.commandArgs.WellFormed) (hm : m.metadata.WellFormed)
    (hd : ∀ d ∈ m.inputDocs, d.WellFormed) :
    parseCommandMessage m.header (m.encode.drop 16) = ok (.command m) := by
  have hdocs := length_le_length_docsBytes hd
  simp only [CommandMessage.encode, List.append_assoc, List.drop_left' (length_header_bytes _)]
  rw [parseCommandMessage, nextCString_cstringBytes hdb, ok_bind]
  dsimp only
  rw [nextCString_cstringBytes hcmd, ok_bind]
  dsimp only
  rw [nextBSON_bytes ha, ok_bind]
  dsimp only
  rw [nextBSON_bytes hm, ok_bind]
  dsimp only
  rw [trailingDocsLoop_docsBytes hd [] (by omega), ok_bind, pure_eq, List.nil_append]

theorem CommandReplyMessage.parse_encode (m : CommandReplyMessage)
    (hr : m.commandReply.WellFormed) (hm : m.metadata.WellFormed)
    (hd : ∀ d ∈ m.outputDocs, d.WellFormed) :
    parseCommandReplyMessage m.header (m.encode.drop 16) = ok (.commandReply m) := by
  have hdocs := length_le_length_docsBytes hd
  simp only [CommandReplyMessage.encode, List.append_assoc, List.drop_left' (length_header_bytes _)]
  rw [parseCommandReplyMessage, nextBSON_bytes hr, ok_bind]
  dsimp only
  rw [nextBSON_bytes hm, ok_bind]
  dsimp only
  rw [trailingDocsLoop_docsBytes hd [] (by omega), ok_bind, pure_eq, List.nil_append]

theorem MessageMessage.parse_encode (m : MessageMessage)
    (hs : ∀ s ∈ m.sections, s.Decodable ∧ s.encode.length < 2 ^ 31) :
    parseMessageMessage m.header (m.encode.drop 16) = ok (.msg m) := by
  have hlen : m.sections.length ≤ ((m.sections.map MessageMessageSection.encode).flatten).length :=
    length_le_length_flatten fun s hs' => by
      have := MessageMessageSection.six_le_length (hs s hs').1
      omega
  simp only [MessageMessage.encode, List.append_assoc, List.drop_left' (length_header_bytes _)]
  unfold parseMessageMessage
  rw [if_neg (by simp), readInt32_int32Bytes, ok_bind,
    sectionsLoop_encode hs (k := 4) (List.drop_left' (length_int32Bytes _)) (by simp) []
      (show (4 : Int) = ((4 : Nat) : Int) from rfl)
      (by simp only [List.length_append, length_int32Bytes]; omega), ok_bind]
  dsimp only
  rw [pure_eq, List.nil_append]

end Mongonet
