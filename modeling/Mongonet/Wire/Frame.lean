import Mongonet.Wire.Total

/-!
# Mongonet.Wire.Frame — the size prefix and the body loop of `ReadMessage`

How `ReadMessage` cuts a message out of a byte stream.

* `checkSize` accepts the sizes from 4 to 200 MiB, and also the four lowest `int32`s: the check
  `header.Size-4 < 0` is made in `int32`, where `Size - 4` wraps around for them.
* Over a byte stream (`Reader.IsStream`) the body loop does not depend on how the transport
  splits the stream: it ends with the next `header.Size - 4` bytes in the buffer, zeros behind
  them when the stream ends first, and it consumes exactly those bytes.  The size prefix, though,
  is read with one `Read`, and a first `Read` of fewer than four bytes is an error.
-/

namespace Mongonet

open Go Result

/-! ## The size checks -/

/-- `Size - 4` in `int32`: below `-2^31 + 4` it wraps around to a large positive number. -/
theorem toInt_sub_four (size : Int32) :
    (size - 4).toInt = if size.toInt < -2147483644 then size.toInt - 4 + 4294967296
      else size.toInt - 4 := by
  have h4 : (4 : Int32).toInt = 4 := by decide
  have hlo := size.le_toInt
  have hhi := size.toInt_lt
  rw [Int32.toInt_sub, h4, Int.bmod_def]
  split_ifs <;> omega

/-- The sizes `checkSize` lets through, and the body length it gives them. -/
theorem checkSize_eq_ok (size n : Int32) :
    checkSize size = ok n ↔ n = size - 4 ∧
      (4 ≤ size.toInt ∧ size.toInt ≤ 200 * 1024 * 1024 ∨ size.toInt < -2147483644) := by
  have hsub := toInt_sub_four size
  have hlo := size.le_toInt
  unfold checkSize
  split_ifs with hbig hhttp hbad
  · exact iff_of_false (by simp) fun ⟨_, h⟩ => by omega
  · exact iff_of_false (by simp) fun ⟨_, h⟩ => by omega
  · refine iff_of_false (by simp) fun ⟨_, h⟩ => ?_
    simp only [maxInt32] at hbad
    split_ifs at hsub <;> omega
  · rw [ok.injEq]
    constructor
    · rintro rfl
      simp only [maxInt32, not_or, not_lt] at hbad
      exact ⟨rfl, by split_ifs at hsub <;> omega⟩
    · rintro ⟨rfl, -⟩
      rfl

/-! ## The body loop over a stream -/

section Stream

variable {σ : Type} {r : Reader GoError σ} {bytes : σ → List UInt8} {bodyLen : Int32}

/-- What the body loop ends with from state `st`: the next `len(restBuf) - read` bytes of the
stream written at `read`. -/
def ReadLoop.filled (bytes : σ → List UInt8) (st : ReadLoop σ) : List UInt8 :=
  writeAt st.restBuf st.read.toNat ((bytes st.reader).take (st.restBuf.length - st.read.toNat))

/-- What the body loop leaves of the stream from state `st`. -/
def ReadLoop.unread (bytes : σ → List UInt8) (st : ReadLoop σ) : List UInt8 :=
  (bytes st.reader).drop (st.restBuf.length - st.read.toNat)

/-- The invariant of the body loop over a stream: `read` stays in the buffer, the loop breaks
only at the end of the stream, and what it ends with stays `body` and `rest`. -/
structure ReadLoop.Fills (bytes : σ → List UInt8) (bodyLen : Int32) (body rest : List UInt8)
    (st : ReadLoop σ) : Prop where
  read_nonneg : 0 ≤ st.read
  read_le : st.read ≤ bodyLen.toInt
  length_restBuf : st.restBuf.length = bodyLen.toInt.toNat
  broke_end : st.broke = true → bytes st.reader = []
  filled_eq : st.filled bytes = body
  unread_eq : st.unread bytes = rest

namespace ReadLoop.Fills

variable {body rest : List UInt8} {read : Int} {buf : List UInt8} {s s' : σ}

theorem of_break (hI : ReadLoop.Fills bytes bodyLen body rest ⟨read, buf, s, false⟩)
    (hs : bytes s = []) (hs' : bytes s' = []) :
    ReadLoop.Fills bytes bodyLen body rest ⟨read, writeAt buf read.toNat [], s', true⟩ := by
  have hfill := hI.filled_eq
  have hunread := hI.unread_eq
  simp only [ReadLoop.filled, ReadLoop.unread, hs, List.take_nil, List.drop_nil,
    writeAt_nil] at hfill hunread
  refine ⟨hI.read_nonneg, hI.read_le, ?_, fun _ => hs', ?_, ?_⟩
  · simpa using hI.length_restBuf
  · simpa [ReadLoop.filled, hs'] using hfill
  · simpa [ReadLoop.unread, hs'] using hunread

theorem advance (hI : ReadLoop.Fills bytes bodyLen body rest ⟨read, buf, s, false⟩) {k : Nat}
    (hk : k ≤ bodyLen.toInt - read) (hkB : k ≤ (bytes s).length)
    (hs' : bytes s' = (bytes s).drop k) :
    ReadLoop.Fills bytes bodyLen body rest
      ⟨read + k, writeAt buf read.toNat ((bytes s).take k), s', false⟩ := by
  obtain ⟨hr0, hrL, hbuf, -, hfill, hunread⟩ := hI
  dsimp only at hr0 hrL hbuf
  have hlen : (writeAt buf read.toNat ((bytes s).take k)).length = bodyLen.toInt.toNat :=
    (length_writeAt (by omega) _).trans hbuf
  have hread : (read + k).toNat = read.toNat + k := by omega
  -- the rest of the buffer is `buf.length - read - k` long
  have hroom : bodyLen.toInt.toNat - (read.toNat + k) = bodyLen.toInt.toNat - read.toNat - k := by
    omega
  refine ⟨by dsimp only; omega, by dsimp only; omega, hlen, fun h => absurd h Bool.false_ne_true,
    ?_, ?_⟩
  · rw [← hfill]
    simp only [ReadLoop.filled, hlen, hread, hroom, hs', hbuf]
    exact writeAt_take_drop (by omega) hkB (by omega)
  · rw [← hunread]
    simp only [ReadLoop.unread, hlen, hread, hroom, hs', hbuf, List.drop_drop]
    congr 1
    omega

theorem exit {st : ReadLoop σ} (hI : st.Fills bytes bodyLen body rest)
    (hmax : bodyLen.toInt ≤ maxInt32)
    (hc : (!st.broke && decide ((Int32.ofInt st.read).toInt < bodyLen.toInt)) = false) :
    st.restBuf = body ∧ bytes st.reader = rest := by
  obtain ⟨hr0, hrL, hbuf, hbroke, hfill, hunread⟩ := hI
  rw [← hfill, ← hunread]
  cases hb : st.broke with
  | true =>
    have hend := hbroke hb
    simp [ReadLoop.filled, ReadLoop.unread, hend]
  | false =>
    simp only [hb, Bool.not_false, Bool.true_and, decide_eq_false_iff_not, not_lt] at hc
    rw [toInt_ofInt_of_le (by omega) (by omega)] at hc
    have hfull : st.restBuf.length - st.read.toNat = 0 := by omega
    simp [ReadLoop.filled, ReadLoop.unread, hfull]

end ReadLoop.Fills

/-- **The body loop over a stream.**  However the transport splits the stream into `Read`s, the
loop ends with the next `header.Size - 4` bytes of the stream in the buffer, zeros behind them
if the stream ends first, and the stream less those bytes. -/
theorem readLoop_stream (hr : r.IsStream bytes) (h0 : 0 ≤ bodyLen.toInt)
    (hmax : bodyLen.toInt ≤ maxInt32) (s : σ) :
    ∃ st, readLoop r bodyLen (bodyLen.toInt.toNat + 1)
        ⟨0, List.replicate bodyLen.toInt.toNat 0, s, false⟩ = ok st ∧
      st.restBuf = (bytes s).take bodyLen.toInt.toNat ++
        List.replicate (bodyLen.toInt.toNat - (bytes s).length) 0 ∧
      bytes st.reader = (bytes s).drop bodyLen.toInt.toNat := by
  have hinit : ReadLoop.Fills bytes bodyLen ((bytes s).take bodyLen.toInt.toNat ++
      List.replicate (bodyLen.toInt.toNat - (bytes s).length) 0)
      ((bytes s).drop bodyLen.toInt.toNat) ⟨0, List.replicate bodyLen.toInt.toNat 0, s, false⟩ := by
    refine ⟨le_refl _, h0, by simp, fun h => absurd h Bool.false_ne_true, ?_, ?_⟩
    · simp [ReadLoop.filled, writeAt_eq]
      omega
    · simp [ReadLoop.unread]
  unfold readLoop
  refine (loop_eq_ok _
    (fun st : ReadLoop σ => if st.broke then 0 else (bodyLen.toInt - st.read).toNat) ?_
    (bodyLen.toInt.toNat + 1) _ hinit ?_).imp fun st ⟨hrun, hI, hc⟩ => ⟨hrun, hI.exit hmax hc⟩
  rotate_left
  · simp only [Bool.false_eq_true, if_false]
    omega
  -- one iteration: invert the `Read`, then break or advance
  rintro ⟨read, buf, s₁, broke⟩ hI hc
  have hr0 := hI.read_nonneg
  have hrL := hI.read_le
  have hbuf := hI.length_restBuf
  dsimp only at hr0 hrL hbuf hc
  simp only [Bool.and_eq_true, Bool.not_eq_eq_eq_not, Bool.not_true, decide_eq_true_eq] at hc
  obtain ⟨rfl, hlt⟩ := hc
  rw [toInt_ofInt_of_le (by omega) (by omega)] at hlt
  have hslice : (sliceFrom buf read : Res (List UInt8)) = ok (buf.drop read.toNat) := by
    unfold sliceFrom
    rw [if_pos ⟨hr0, by omega⟩]
  obtain ⟨k, s', hread, hs', hkn, hkB, hpos⟩ := hr.read_eq s₁ (buf.drop read.toNat).length
  have hroom : (buf.drop read.toNat).length = bodyLen.toInt.toNat - read.toNat := by
    simp [hbuf]
  have hk : ((bytes s₁).take k).length = k := by simp; omega
  by_cases hk0 : k = 0
  · -- no byte although the buffer has room: the stream has ended
    have hend : bytes s₁ = [] := by
      by_contra hne
      have := hpos (by omega) hne
      omega
    subst hk0
    refine ⟨⟨read, writeAt buf read.toNat [], s', true⟩, ?_,
      hI.of_break hend (by simp [hs', hend]), ?_⟩
    · rw [hslice, ok_bind, hread]
      simp
    · simp only [if_true, Bool.false_eq_true, if_false]
      omega
  · refine ⟨⟨read + k, writeAt buf read.toNat ((bytes s₁).take k), s', false⟩, ?_,
      hI.advance (by omega) hkB hs', ?_⟩
    · rw [hslice, ok_bind, hread]
      simp [hk, hk0]
    · simp only [Bool.false_eq_true, if_false]
      omega

/-- **`readFrame` over a stream.**  When the first `Read` delivers the whole size prefix (or the
whole stream, if that is shorter), the reader frames the same message as the full reader, with
the same error if any, and leaves the same rest of the stream. -/
theorem readFrame_stream (hr : r.IsStream bytes) (s : σ)
    (hfirst : (r.read s 4).1 = (bytes s).take 4) :
    (fun f => (f.1, f.2.1, bytes f.2.2)) <$> readFrame r s = readFrame fullReader (bytes s) := by
  obtain ⟨k, s₁, hread, hs₁, -, -, -⟩ := hr.read_eq s 4
  have hk : (bytes s).take k = (bytes s).take 4 := by rw [← hfirst, hread]
  -- the first `Read` took as much as the full reader's
  have hdrop : bytes s₁ = (bytes s).drop 4 := by
    have hlen := congrArg List.length hk
    simp only [List.length_take] at hlen
    rw [hs₁, List.drop_eq_drop_min, hlen, ← List.drop_eq_drop_min]
  unfold readFrame
  rw [hread, fullReader_read]
  dsimp only
  rw [hk]
  by_cases h4 : ((bytes s).take 4).length = 4
  · rw [if_neg (not_not.mpr h4), if_neg (not_not.mpr h4), readInt32_eq (by omega), ok_bind,
      ok_bind, map_bind]
    generalize Int32.ofNat (leNat (((bytes s).take 4).take 4)) = size
    cases hc : checkSize size with
    | ok bodyLen =>
      obtain ⟨h0, hmax⟩ := (checkSize_spec size).of_ok hc
      obtain ⟨st, hrun, hbody, hrest⟩ := readLoop_stream hr h0 hmax s₁
      obtain ⟨st', hrun', hbody', hrest'⟩ := readLoop_stream fullReader_isStream h0 hmax
        ((bytes s).drop 4)
      simp only [id] at hbody' hrest'
      rw [ok_bind, ok_bind, make_of_nonneg h0, ok_bind, ok_bind, hrun, hrun', ok_bind, ok_bind]
      simp only [pure_eq, map_ok, hbody, hbody', hrest, hrest', hdrop]
    | error e => rfl
    | panic m => rfl
    | diverge => rfl
  · rw [if_pos h4, if_pos h4]
    rfl

/-- **`ReadMessage` over a stream.**  When the first `Read` delivers the whole size prefix, the
reader gives the message, or the error, of the full reader and leaves the same bytes. -/
theorem readMessage_stream (hr : r.IsStream bytes) (s : σ)
    (hfirst : (r.read s 4).1 = (bytes s).take 4) :
    (fun p => (p.1, bytes p.2)) <$> readMessage r s = readMessage fullReader (bytes s) := by
  unfold readMessage
  rw [← readFrame_stream hr s hfirst, map_bind]
  cases readFrame r s with
  | ok f =>
    obtain ⟨size, body, s'⟩ := f
    simp only [ok_bind, map_ok, map_bind]
    cases parseMessage size body <;> rfl
  | error e => rfl
  | panic m => rfl
  | diverge => rfl

/-- Over a chunked stream whose first chunk holds at least the four bytes of the size prefix,
`ReadMessage` returns what it returns over the whole stream and leaves the same bytes. -/
theorem readMessage_chunkReader (bs : List UInt8) {c : Nat} (cs : List Nat) (hc : 4 ≤ c) :
    (fun p => (p.1, p.2.1)) <$> readMessage chunkReader (bs, c :: cs) = readMessage fullReader bs := by
  have hfirst : ((chunkReader : Reader GoError _).read (bs, c :: cs) 4).1 = bs.take 4 := by
    simp only [chunkReader]
    rw [show min 4 (max c 1) = 4 by omega]
  exact readMessage_stream chunkReader_isStream (bs, c :: cs) hfirst

/-- The 26-byte OP_MSG of `readMessage_split_size_prefix`, delivered four bytes, then one byte at
a time. -/
theorem readMessage_chunkReader_prefix_first :
    (fun p => (p.1, p.2.1)) <$> readMessage chunkReader ([26, 0, 0, 0, 1, 0, 0, 0, 0, 0, 0, 0, 221,
      7, 0, 0, 0, 0, 0, 0, 0, 5, 0, 0, 0, 0], [4, 1, 1, 1]) =
      readMessage fullReader [26, 0, 0, 0, 1, 0, 0, 0, 0, 0, 0, 0, 221, 7, 0, 0, 0, 0, 0, 0, 0, 5,
        0, 0, 0, 0] :=
  readMessage_chunkReader _ _ (by decide)

/-- A 26-byte OP_MSG with one empty body document: read whole, it is the message; split after its
first byte, the single `Read` of the size prefix comes back short and `ReadMessage` fails. -/
theorem readMessage_split_size_prefix :
    readMessage fullReader [26, 0, 0, 0, 1, 0, 0, 0, 0, 0, 0, 0, 221, 7, 0, 0, 0, 0, 0, 0,
      0, 5, 0, 0, 0, 0] =
      ok (.msg ⟨⟨26, 1, 0, 2013⟩, 0, [.body ⟨⟨5, [5, 0, 0, 0, 0]⟩⟩]⟩, []) ∧
    readMessage chunkReader ([26, 0, 0, 0, 1, 0, 0, 0, 0, 0, 0, 0, 221, 7, 0, 0, 0, 0, 0, 0,
      0, 5, 0, 0, 0, 0], [1]) =
      error (newStackErrorf "didn't read message size from socket, got %d" [1]) := by
  decide

end Stream

theorem readFrame_fullReader {bs : List UInt8} (h4 : 4 ≤ bs.length) {bodyLen : Int32}
    (hc : checkSize (Int32.ofNat (leNat (bs.take 4))) = ok bodyLen) :
    readFrame fullReader bs = ok (Int32.ofNat (leNat (bs.take 4)),
      (bs.drop 4).take bodyLen.toInt.toNat ++
        List.replicate (bodyLen.toInt.toNat - (bs.length - 4)) 0,
      (bs.drop 4).drop bodyLen.toInt.toNat) := by
  obtain ⟨h0, hmax⟩ := (checkSize_spec _).of_ok hc
  obtain ⟨st, hrun, hbody, hrest⟩ := readLoop_stream fullReader_isStream h0 hmax (bs.drop 4)
  have hlen : (bs.take 4).length = 4 := by simp; omega
  unfold readFrame
  rw [fullReader_read]
  dsimp only
  rw [if_neg (not_not.mpr hlen), readInt32_eq (by omega), ok_bind, List.take_take, Nat.min_self,
    hc, ok_bind, make_of_nonneg h0, ok_bind, hrun, ok_bind]
  simp only [id] at hbody hrest
  simp only [pure_eq, hbody, hrest, List.length_drop]

/-- The size prefix `00 00 00 80` is `-2^31`: `Size - 4` wraps around to `2^31 - 4`, both checks
pass, and `ReadMessage` allocates a body buffer of 2147483644 bytes. -/
theorem readFrame_wrapped_size :
    readFrame fullReader [0, 0, 0, 128] = ok (-2147483648, List.replicate 2147483644 0, []) := by
  have hc : checkSize (Int32.ofNat (leNat (([0, 0, 0, 128] : List UInt8).take 4))) =
      ok 2147483644 := by decide
  rw [readFrame_fullReader (by decide) hc]
  have hL : (2147483644 : Int32).toInt.toNat = 2147483644 := by decide
  have hsize : Int32.ofNat (leNat (([0, 0, 0, 128] : List UInt8).take 4)) = -2147483648 := by
    decide
  rw [hL, hsize]
  rfl

end Mongonet
