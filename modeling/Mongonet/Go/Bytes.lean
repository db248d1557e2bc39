import Mongonet.Go.Result
import Mathlib.Tactic.Ring

/-!
# Go.Bytes — byte slices, little-endian integers and `copy`

Slices are lists.  Every slice that the modelled code re-slices has its capacity equal to its
length, so `b[lo:hi]` is in range exactly when `0 ≤ lo ≤ hi ≤ len(b)`.  Indices are Go `int`s,
modelled by `Int`, so that a negative index panics as it does in Go.

* `leNat bs` / `leBytes w n`: little-endian decoding, and encoding into exactly `w` bytes, with
  the two round-trip laws `leNat_leBytes` and `leBytes_leNat`.
* `sliceFrom`, `slice`, `index`, `setIndex`: `b[lo:]`, `b[lo:hi]`, `b[i]` and `b[i] = v`, each a
  panic out of range.
* `make n z`: `make([]T, n)`, a panic for a negative length.
* `sliceFrom_append_of_le`, `sliceFrom_of_eq`, `index_of_drop_eq`: reading at a known position of
  a buffer whose bytes from some offset on are known, as a decoder does; `sliceFrom_eq_ok`,
  `index_eq_ok`, `setIndex_eq_ok`: the converse, what an expression that came back has read.
* `copyInto dst src`: `dst` after `copy(dst, src)`; `writeAt buf loc src`: `buf` after
  `copy(buf[loc:], src)`, and `copyAt`, the statement itself with its bound check.
* `writeSeq_tile`: writes that tile a buffer from left to right determine it, whatever each
  write spills beyond its own tile, since the later writes cover the spill.
-/

namespace Go

/-! ## Little-endian integers -/

/-- The natural number whose little-endian bytes are `bs`. -/
def leNat : List UInt8 → Nat
  | [] => 0
  | b :: bs => b.toNat + 256 * leNat bs

/-- The `w` little-endian bytes of `n`; bits from `8 * w` on are dropped. -/
def leBytes : Nat → Nat → List UInt8
  | 0, _ => []
  | w + 1, n => UInt8.ofNat n :: leBytes w (n / 256)

@[simp] theorem leNat_nil : leNat [] = 0 := rfl

@[simp] theorem leNat_cons (b : UInt8) (bs : List UInt8) :
    leNat (b :: bs) = b.toNat + 256 * leNat bs := rfl

@[simp] theorem leBytes_zero (n : Nat) : leBytes 0 n = [] := rfl

@[simp] theorem leBytes_succ (w n : Nat) :
    leBytes (w + 1) n = UInt8.ofNat n :: leBytes w (n / 256) := rfl

@[simp] theorem length_leBytes (w n : Nat) : (leBytes w n).length = w := by
  induction w generalizing n with
  | zero => rfl
  | succ w ih => simp [ih]

theorem leNat_lt (bs : List UInt8) : leNat bs < 256 ^ bs.length := by
  induction bs with
  | nil => simp
  | cons b bs ih =>
    have hb := b.toNat_lt
    rw [leNat_cons, List.length_cons, Nat.pow_succ]
    omega

theorem leNat_leBytes (w n : Nat) : leNat (leBytes w n) = n % 256 ^ w := by
  induction w generalizing n with
  | zero => simp [Nat.mod_one]
  | succ w ih =>
    rw [leBytes_succ, leNat_cons, ih, UInt8.toNat_ofNat',
      show 256 ^ (w + 1) = 256 * 256 ^ w from Nat.pow_succ', Nat.mod_mul]

theorem leNat_leBytes_of_lt {w n : Nat} (h : n < 256 ^ w) : leNat (leBytes w n) = n := by
  rw [leNat_leBytes, Nat.mod_eq_of_lt h]

theorem leBytes_leNat (bs : List UInt8) : leBytes bs.length (leNat bs) = bs := by
  induction bs with
  | nil => rfl
  | cons b bs ih =>
    have hb := b.toNat_lt
    have hdiv : (b.toNat + 256 * leNat bs) / 256 = leNat bs := by omega
    have hmod : UInt8.ofNat (b.toNat + 256 * leNat bs) = b := by
      apply UInt8.toNat_inj.mp
      rw [UInt8.toNat_ofNat']
      omega
    rw [List.length_cons, leBytes_succ, leNat_cons, hdiv, hmod, ih]

/-! ## Slice expressions -/

section Slices

variable {ε α : Type}

open Result

/-- `b[lo:]`. -/
def sliceFrom (b : List α) (lo : Int) : Result ε (List α) :=
  if 0 ≤ lo ∧ lo ≤ b.length then ok (b.drop lo.toNat) else .panic "slice bounds out of range"

/-- `b[lo:hi]` (capacity equal to length). -/
def slice (b : List α) (lo hi : Int) : Result ε (List α) :=
  if 0 ≤ lo ∧ lo ≤ hi ∧ hi ≤ b.length then ok ((b.take hi.toNat).drop lo.toNat)
  else .panic "slice bounds out of range"

/-- `b[i]`. -/
def index (b : List α) (i : Int) : Result ε α :=
  if h : 0 ≤ i ∧ i < b.length then ok (b.get ⟨i.toNat, by omega⟩) else .panic "index out of range"

/-- `b[i] = v`. -/
def setIndex (b : List α) (i : Int) (v : α) : Result ε (List α) :=
  if 0 ≤ i ∧ i < b.length then ok (b.set i.toNat v) else .panic "index out of range"

/-- `make([]T, n)`, every element the zero value `z`. -/
def make (n : Int) (z : α) : Result ε (List α) :=
  if 0 ≤ n then ok (List.replicate n.toNat z) else .panic "makeslice: len out of range"

theorem make_of_nonneg {n : Int} (h : 0 ≤ n) (z : α) :
    (make n z : Result ε (List α)) = ok (List.replicate n.toNat z) := by
  simp [make, h]

theorem sliceFrom_of_le {b : List α} {lo : Nat} (h : lo ≤ b.length) :
    (sliceFrom b lo : Result ε (List α)) = ok (b.drop lo) := by
  simp [sliceFrom, h]

theorem slice_zero_of_le {b : List α} {hi : Nat} (h : hi ≤ b.length) :
    (slice b 0 hi : Result ε (List α)) = ok (b.take hi) := by
  simp [slice, h]

theorem index_of_lt {b : List α} {i : Nat} (h : i < b.length) :
    (index b i : Result ε α) = ok (b.get ⟨i, h⟩) := by
  simp [index, h]

theorem setIndex_of_lt {b : List α} {i : Nat} (h : i < b.length) (v : α) :
    (setIndex b i v : Result ε (List α)) = ok (b.set i v) := by
  simp [setIndex, h]

/-! A parser that reads a field at a known position: `b[lo:]` of a buffer whose bytes are
known from some offset on. -/

theorem sliceFrom_of_eq {b : List α} {lo : Int} {k : Nat} (h : lo = k) (hk : k ≤ b.length) :
    (sliceFrom b lo : Result ε (List α)) = ok (b.drop k) := by
  rw [h, sliceFrom_of_le hk]

theorem sliceFrom_of_eq_zero {b : List α} {lo : Int} (h : lo = 0) :
    (sliceFrom b lo : Result ε (List α)) = ok b := by
  simp [sliceFrom, h]

theorem sliceFrom_append_of_le {a b : List α} {lo : Int} (h : a.length ≤ lo) :
    (sliceFrom (a ++ b) lo : Result ε (List α)) = sliceFrom b (lo - a.length) := by
  unfold sliceFrom
  by_cases hb : lo - a.length ≤ b.length
  · have hlo : lo.toNat = a.length + (lo - a.length).toNat := by omega
    rw [if_pos ⟨by omega, by simp; omega⟩, if_pos ⟨by omega, hb⟩, hlo, List.drop_length_add_append]
  · rw [if_neg (by simp; omega), if_neg (by omega)]

theorem drop_add_of_drop_eq {b pre rest : List α} {k : Nat} (h : b.drop k = pre ++ rest) :
    b.drop (k + pre.length) = rest := by
  rw [← List.drop_drop, h, List.drop_left]

theorem index_of_drop_eq {b rest : List α} {x : α} {i : Int} {k : Nat} (h : b.drop k = x :: rest)
    (hi : i = k) : (index b i : Result ε α) = ok x := by
  have hk : k < b.length := by
    have := congrArg List.length h
    simp only [List.length_drop, List.length_cons] at this
    omega
  have hx : (b.drop k)[0]? = some x := by rw [h]; rfl
  rw [List.getElem?_drop, Nat.add_zero, List.getElem?_eq_getElem hk, Option.some.injEq] at hx
  rw [hi, index_of_lt hk, List.get_eq_getElem, ← hx]

/-! What a slice expression that came back has done: the inversions a parser's proofs start from. -/

theorem sliceFrom_eq_ok {b r : List α} {lo : Int} (h : (sliceFrom b lo : Result ε (List α)) = ok r) :
    ∃ k : Nat, lo = k ∧ k ≤ b.length ∧ r = b.drop k := by
  unfold sliceFrom at h
  split_ifs at h with hlo
  cases h
  exact ⟨lo.toNat, by omega, by omega, rfl⟩

theorem index_eq_ok {b : List α} {i : Int} {x : α} (h : (index b i : Result ε α) = ok x) :
    ∃ k : Nat, i = k ∧ b.drop k = x :: b.drop (k + 1) := by
  unfold index at h
  split_ifs at h with hi
  cases h
  refine ⟨i.toNat, by omega, ?_⟩
  rw [List.drop_eq_getElem_cons (by omega)]
  rfl

theorem setIndex_eq_ok {b r : List α} {i : Int} {v : α}
    (h : (setIndex b i v : Result ε (List α)) = ok r) :
    ∃ k : Nat, i = k ∧ k < b.length ∧ r = b.set k v := by
  unfold setIndex at h
  split_ifs at h with hi
  cases h
  exact ⟨i.toNat, by omega, by omega, rfl⟩

theorem length_le_length_flatten {β : Type} {f : β → List α} {xs : List β}
    (h : ∀ x ∈ xs, 1 ≤ (f x).length) : xs.length ≤ ((xs.map f).flatten).length := by
  induction xs with
  | nil => simp
  | cons x xs ih =>
    have hx := h x List.mem_cons_self
    have := ih fun y hy => h y (List.mem_cons_of_mem x hy)
    simp only [List.map_cons, List.flatten_cons, List.length_append, List.length_cons]
    omega

end Slices

/-! ## `copy` into a buffer -/

section Copy

variable {α : Type}

/-- `dst` after `copy(dst, src)`: its first `min(len(dst), len(src))` elements come from `src`. -/
def copyInto (dst src : List α) : List α := src.take dst.length ++ dst.drop src.length

/-- `buf` after `copy(buf[loc:], src)`, for `loc ≤ len(buf)`. -/
def writeAt (buf : List α) (loc : Nat) (src : List α) : List α :=
  buf.take loc ++ copyInto (buf.drop loc) src

/-- The statement `copy(buf[loc:], src)`. -/
def copyAt {ε : Type} (buf : List α) (loc : Int) (src : List α) : Result ε (List α) :=
  if 0 ≤ loc ∧ loc ≤ buf.length then .ok (writeAt buf loc.toNat src)
  else .panic "slice bounds out of range"

@[simp] theorem length_copyInto (dst src : List α) : (copyInto dst src).length = dst.length := by
  simp only [copyInto, List.length_append, List.length_take, List.length_drop]
  omega

theorem length_writeAt {buf : List α} {loc : Nat} (h : loc ≤ buf.length) (src : List α) :
    (writeAt buf loc src).length = buf.length := by
  simp only [writeAt, List.length_append, List.length_take, length_copyInto, List.length_drop]
  omega

theorem take_writeAt {buf src : List α} {loc k : Nat} (hk : k ≤ src.length)
    (hb : loc + k ≤ buf.length) :
    (writeAt buf loc src).take (loc + k) = buf.take loc ++ src.take k := by
  have hl : (buf.take loc).length = loc := by simp; omega
  rw [writeAt, List.take_append, hl, Nat.add_sub_cancel_left, List.take_of_length_le (by omega),
    copyInto, List.take_append]
  rw [List.take_take, show min k (buf.drop loc).length = k by simp; omega]
  have : k - (src.take (buf.drop loc).length).length = 0 := by simp; omega
  rw [this, List.take_zero, List.append_nil]

theorem writeAt_eq {buf src : List α} {loc : Nat} (h : loc + src.length ≤ buf.length) :
    writeAt buf loc src = buf.take loc ++ src ++ buf.drop (loc + src.length) := by
  have hs : src.length ≤ (buf.drop loc).length := by simp; omega
  simp only [writeAt, copyInto, List.take_of_length_le hs, List.drop_drop, List.append_assoc]

@[simp] theorem writeAt_nil (buf : List α) (loc : Nat) : writeAt buf loc [] = buf := by
  simp [writeAt, copyInto]

theorem writeAt_append {buf xs ys : List α} {loc : Nat}
    (h : loc + xs.length + ys.length ≤ buf.length) :
    writeAt (writeAt buf loc xs) (loc + xs.length) ys = writeAt buf loc (xs ++ ys) := by
  have hlen : (writeAt buf loc xs).length = buf.length := length_writeAt (by omega) xs
  have hpre : (buf.take loc ++ xs).length = loc + xs.length := by simp; omega
  -- the second write keeps the first one's front and the part of `buf` behind both
  have hfront : (writeAt buf loc xs).take (loc + xs.length) = buf.take loc ++ xs := by
    rw [take_writeAt (le_refl _) (by omega), List.take_length]
  have hback : (writeAt buf loc xs).drop (loc + xs.length + ys.length) =
      buf.drop (loc + xs.length + ys.length) := by
    rw [writeAt_eq (by omega), List.drop_append, List.drop_eq_nil_of_le (by rw [hpre]; omega),
      List.nil_append, List.drop_drop, hpre]
    congr 1
    omega
  rw [writeAt_eq (by omega), hfront, hback, writeAt_eq (by simp; omega)]
  simp [Nat.add_assoc]

theorem writeAt_take_drop {buf xs : List α} {loc k m : Nat} (hk : k ≤ m) (hkx : k ≤ xs.length)
    (h : loc + m ≤ buf.length) :
    writeAt (writeAt buf loc (xs.take k)) (loc + k) ((xs.drop k).take (m - k)) =
      writeAt buf loc (xs.take m) := by
  have hlen : (xs.take k).length = k := by simp; omega
  have happ : writeAt (writeAt buf loc (xs.take k)) (loc + (xs.take k).length)
      ((xs.drop k).take (m - k)) = writeAt buf loc (xs.take k ++ (xs.drop k).take (m - k)) :=
    writeAt_append (by simp; omega)
  rw [hlen] at happ
  rw [happ, ← List.take_add, Nat.add_sub_of_le hk]

/-- A sequence of writes `(src, adv)`: write `src` at the position, then advance by `adv`. -/
def writeSeq : List α → Nat → List (List α × Nat) → List α
  | buf, _, [] => buf
  | buf, loc, (src, adv) :: ws => writeSeq (writeAt buf loc src) (loc + adv) ws

/-- **Tiling.**  Writes whose advances tile `buf` from `loc` to its end leave the first `adv`
elements of each write, in order; what a write spills past its tile is overwritten later. -/
theorem writeSeq_tile :
    ∀ (ws : List (List α × Nat)) (buf : List α) (loc : Nat),
      (∀ w ∈ ws, w.2 ≤ w.1.length) → loc + (ws.map Prod.snd).sum = buf.length →
      writeSeq buf loc ws = buf.take loc ++ (ws.map fun w => w.1.take w.2).flatten
  | [], buf, loc, _, hsum => by
    simp only [List.map_nil, List.sum_nil, Nat.add_zero] at hsum
    simp [writeSeq, hsum]
  | (src, adv) :: ws, buf, loc, hadv, hsum => by
    simp only [List.map_cons, List.sum_cons] at hsum
    have h₁ : adv ≤ src.length := hadv _ List.mem_cons_self
    have hlen : (writeAt buf loc src).length = buf.length := length_writeAt (by omega) src
    have ih := writeSeq_tile ws (writeAt buf loc src) (loc + adv)
      (fun w hw => hadv w (List.mem_cons_of_mem _ hw)) (by omega)
    rw [writeSeq, ih, take_writeAt h₁ (by omega)]
    simp

theorem set_eq_writeAt {buf : List α} {i : Nat} (h : i < buf.length) (v : α) :
    buf.set i v = writeAt buf i [v] := by
  rw [writeAt_eq (by simp; omega), List.set_eq_take_append_cons_drop, if_pos h]
  simp

/-! ### Filling a buffer from the front -/

/-- `buf` has `n` elements and begins with `pre`: a buffer of `n` elements whose first
`len(pre)` have been written. -/
def Filled (n : Nat) (pre buf : List α) : Prop := buf.length = n ∧ buf.take pre.length = pre

theorem filled_replicate (n : Nat) (z : α) : Filled n [] (List.replicate n z) := by
  simp [Filled]

theorem Filled.writeAt {n : Nat} {pre buf src : List α} (h : Filled n pre buf) {k : Nat}
    (hk : k ≤ src.length) (hn : pre.length + k ≤ n) :
    Filled n (pre ++ src.take k) (Go.writeAt buf pre.length src) := by
  obtain ⟨hlen, htake⟩ := h
  have hk' : (src.take k).length = k := by simp; omega
  refine ⟨(length_writeAt (by omega) src).trans hlen, ?_⟩
  rw [List.length_append, hk', take_writeAt hk (by omega), htake]

theorem Filled.eq {n : Nat} {pre buf : List α} (h : Filled n pre buf) (hn : pre.length = n) :
    buf = pre := by
  obtain ⟨hlen, htake⟩ := h
  rw [← htake, hn, ← hlen, List.take_length]

end Copy

end Go
