import Mongonet.Go.Bytes

/-!
# Go.IO — `io.Reader`s and `io.Writer`s

`Reader ε σ` is an `io.Reader` as a state machine: `read s n` is one call `Read(p)` with
`len(p) = n`.  The reader's contract, that it never reports more than `len(p)` bytes, is a field,
so that a loop that advances by what `Read` reports stays inside its buffer.

Two readers over a byte stream:
* `fullReader`: every `Read` returns `min(len(p), bytes left)` bytes and no error;
* `chunkReader`: the transport decides the size of each read (the list `cs`), clipped to
  `[1, len(p)]` and to what is left, and returns no error either.

`Reader.IsStream r bytes` says what both have in common: `r` reads the byte stream `bytes s`,
each `Read` taking the next bytes of it and at least one when there are some.  `Reader.Delivers`
is the part of it that still holds when reads may fail: whatever error a `Read` returns, the bytes
it reports are the next ones of the stream.

`ByteWriter ε σ` is an `io.Writer`: `write s p` is one `Write(p)`.  Unlike a read, a write is
a `Result`, because a writer may itself be a loop that does not come back (one that retries
after time-outs).  `ByteWriter.IsSink w out` says that `w` appends to the byte stream `out s`
exactly the bytes it reports, and `ByteWriter.Progress` that every `Write` comes back, and
writes something when it reports no error.
-/

namespace Go

/-- An `io.Reader`: `read s n` is one `Read(p)` with `len(p) = n` in state `s`, giving the bytes
written to the front of `p`, the error returned if any, and the next state. -/
structure Reader (ε σ : Type) where
  read : σ → Nat → List UInt8 × Option ε × σ
  read_le : ∀ s n, (read s n).1.length ≤ n

variable {ε : Type}

/-- A reader that hands out as much of the stream as the buffer holds. -/
def fullReader : Reader ε (List UInt8) where
  read s n := (s.take n, none, s.drop n)
  read_le s n := by simp

/-- A reader whose transport splits the stream as `cs` says: each `Read` of a non-empty buffer
returns at least one and at most `len(p)` bytes, and never an error. -/
def chunkReader : Reader ε (List UInt8 × List Nat) where
  read
    | (s, c :: cs), n => (s.take (min n (max c 1)), none, (s.drop (min n (max c 1)), cs))
    | (s, []), n => (s.take n, none, (s.drop n, []))
  read_le
    | (s, c :: cs), n => by simp
    | (s, []), n => by simp

@[simp] theorem fullReader_read (s : List UInt8) (n : Nat) :
    (fullReader : Reader ε (List UInt8)).read s n = (s.take n, none, s.drop n) := rfl

variable {σ : Type}

/-- `r` reads the byte stream `bytes s`: a `Read` never fails, returns the next bytes of the
stream, at least one when the buffer and the stream are both non-empty, and leaves the rest. -/
structure Reader.IsStream (r : Reader ε σ) (bytes : σ → List UInt8) : Prop where
  read_error : ∀ s n, (r.read s n).2.1 = none
  read_take : ∀ s n, (r.read s n).1 = (bytes s).take (r.read s n).1.length
  read_drop : ∀ s n, bytes (r.read s n).2.2 = (bytes s).drop (r.read s n).1.length
  read_pos : ∀ s n, 0 < n → bytes s ≠ [] → 0 < (r.read s n).1.length

theorem Reader.IsStream.read_eq {r : Reader ε σ} {bytes : σ → List UInt8} (hr : r.IsStream bytes)
    (s : σ) (n : Nat) :
    ∃ k s', r.read s n = ((bytes s).take k, none, s') ∧ bytes s' = (bytes s).drop k ∧
      k ≤ n ∧ k ≤ (bytes s).length ∧ (0 < n → bytes s ≠ [] → 0 < k) := by
  rcases hout : r.read s n with ⟨data, err, s'⟩
  have htake := hr.read_take s n
  rw [hout] at htake
  have hlen : data.length ≤ (bytes s).length := by
    have := congrArg List.length htake
    simp only [List.length_take] at this
    omega
  refine ⟨data.length, s', ?_, ?_, ?_, hlen, ?_⟩
  · have herr : err = none := by simpa [hout] using hr.read_error s n
    rw [← htake, herr]
  · simpa [hout] using hr.read_drop s n
  · simpa [hout] using r.read_le s n
  · simpa [hout] using hr.read_pos s n

theorem fullReader_isStream : (fullReader : Reader ε (List UInt8)).IsStream id where
  read_error _ _ := rfl
  read_take s n := by simp
  read_drop s n := by simp
  read_pos s n hn hs := by
    have := List.length_pos_iff.mpr hs
    simp only [fullReader_read, List.length_take, id] at this ⊢
    omega

theorem chunkReader_isStream :
    (chunkReader : Reader ε (List UInt8 × List Nat)).IsStream Prod.fst where
  read_error
    | (_, _ :: _), _ => rfl
    | (_, []), _ => rfl
  read_take
    | (s, c :: cs), n => by simp [chunkReader]
    | (s, []), n => by simp [chunkReader]
  read_drop
    | (s, c :: cs), n => by simp [chunkReader]
    | (s, []), n => by simp [chunkReader]
  read_pos
    | (s, c :: cs), n, hn, hs => by
      have := List.length_pos_iff.mpr hs
      simp only [chunkReader, List.length_take] at this ⊢
      omega
    | (s, []), n, hn, hs => by
      have := List.length_pos_iff.mpr hs
      simp only [chunkReader, List.length_take] at this ⊢
      omega

/-- `r` reads the byte stream `bytes s`, with errors: whatever error a `Read` returns, the bytes it
reports are the next ones of the stream, and the rest is left. -/
structure Reader.Delivers (r : Reader ε σ) (bytes : σ → List UInt8) : Prop where
  read_take : ∀ s n, (r.read s n).1 = (bytes s).take (r.read s n).1.length
  read_drop : ∀ s n, bytes (r.read s n).2.2 = (bytes s).drop (r.read s n).1.length

theorem Reader.IsStream.delivers {r : Reader ε σ} {bytes : σ → List UInt8} (hr : r.IsStream bytes) :
    r.Delivers bytes :=
  ⟨hr.read_take, hr.read_drop⟩

/-! ## `io.Writer`s -/

/-- An `io.Writer`: `write s p` is one `Write(p)` in state `s`.  When it comes back, it gives
the count it reports, the error it returns if any, and the next state; its contract, that the
count is at most `len(p)`, is a field, so that a loop resuming at `p[n:]` stays inside `p`. -/
structure ByteWriter (ε σ : Type) where
  write : σ → List UInt8 → Result ε (Nat × Option ε × σ)
  write_le : ∀ s p r, write s p = .ok r → r.1 ≤ p.length

/-- `w` writes the byte stream `out s`: a `Write(p)` that reports `n` bytes has appended the
first `n` bytes of `p`, whatever error it also returns. -/
def ByteWriter.IsSink (w : ByteWriter ε σ) (out : σ → List UInt8) : Prop :=
  ∀ s p r, w.write s p = .ok r → out r.2.2 = out s ++ p.take r.1

/-- Every `Write` comes back, and one of a non-empty buffer that reports no error has written
at least one byte. -/
def ByteWriter.Progress (w : ByteWriter ε σ) : Prop :=
  ∀ s p, (w.write s p).ReturnsWith fun r => p ≠ [] → r.2.1 = none → 0 < r.1

theorem ByteWriter.Progress.returnsWith {w : ByteWriter ε σ} (hp : w.Progress) (s : σ)
    (p : List UInt8) : (w.write s p).ReturnsWith fun r => r.1 ≤ p.length ∧ (p ≠ [] → r.2.1 = none → 0 < r.1) :=
  ⟨(hp s p).1, fun r hr => ⟨w.write_le s p r hr, (hp s p).2 r hr⟩⟩

/-- A writer whose transport takes as much of each buffer as the list `cs` says, at least one
byte, and reports no error for a short write: a raw socket write, below `io.Writer`'s rule that a
short write comes with an error. -/
def chunkWriter : ByteWriter ε (List UInt8 × List Nat) where
  write
    | (s, c :: cs), p => .ok (min (max c 1) p.length, none, (s ++ p.take (max c 1), cs))
    | (s, []), p => .ok (p.length, none, (s ++ p, []))
  write_le
    | (s, c :: cs), p, r, h => by
      cases h
      exact Nat.min_le_right _ _
    | (s, []), p, r, h => by
      cases h
      exact le_rfl

theorem chunkWriter_isSink : (chunkWriter : ByteWriter ε (List UInt8 × List Nat)).IsSink Prod.fst
  | (s, c :: cs), p, r, h => by
    cases h
    simp [Nat.min_comm]
  | (s, []), p, r, h => by
    cases h
    simp

theorem chunkWriter_progress : (chunkWriter : ByteWriter ε (List UInt8 × List Nat)).Progress
  | (s, c :: cs), p => Result.returnsWith_ok fun hp _ => by
    have := List.length_pos_iff.mpr hp
    simp only
    omega
  | (s, []), p => Result.returnsWith_ok fun hp _ => List.length_pos_iff.mpr hp

end Go

