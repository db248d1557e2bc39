import Mongonet.Go.Bytes
import Mathlib.Algebra.Order.BigOperators.Group.List

/-!
# Go.Int — sums of `int32`s, a flag bit, and the bytes of fixed-width integers

Go adds `int32`s with wrapping; a sum that stays inside the range is the sum of the integers,
which is what size computations rely on.  The little-endian bytes of an `int32` or an `int64`,
as a writer puts them, read back as the same number.
-/

namespace Go

theorem toInt_add_of_range {a b : Int32} (h0 : -2 ^ 31 ≤ a.toInt + b.toInt)
    (h1 : a.toInt + b.toInt < 2 ^ 31) : (a + b).toInt = a.toInt + b.toInt := by
  rw [Int32.toInt_add]
  exact Int.bmod_eq_of_le (by omega) (by omega)

theorem toInt_sub_of_range {a b : Int32} (h0 : -2 ^ 31 ≤ a.toInt - b.toInt)
    (h1 : a.toInt - b.toInt < 2 ^ 31) : (a - b).toInt = a.toInt - b.toInt := by
  rw [Int32.toInt_sub]
  exact Int.bmod_eq_of_le (by omega) (by omega)

theorem toInt_foldl_add (xs : List Int32) {a : Int32} (ha : 0 ≤ a.toInt)
    (hxs : ∀ x ∈ xs, 0 ≤ x.toInt) (hsum : a.toInt + (xs.map Int32.toInt).sum < 2 ^ 31) :
    (xs.foldl (· + ·) a).toInt = a.toInt + (xs.map Int32.toInt).sum := by
  induction xs generalizing a with
  | nil => simp
  | cons x xs ih =>
    have hx := hxs x List.mem_cons_self
    have hrest : ∀ y ∈ xs, 0 ≤ y.toInt := fun y hy => hxs y (List.mem_cons_of_mem x hy)
    have hsum' : 0 ≤ (xs.map Int32.toInt).sum := List.sum_nonneg fun y hy => by
      obtain ⟨z, hz, rfl⟩ := List.mem_map.mp hy
      exact hrest z hz
    simp only [List.map_cons, List.sum_cons] at hsum
    have hax : (a + x).toInt = a.toInt + x.toInt := toInt_add_of_range (by omega) (by omega)
    rw [List.foldl_cons, ih (by omega) hrest (by omega), hax, List.map_cons, List.sum_cons]
    ring

theorem toInt_ofNat_of_lt {k : Nat} (h : k < 2 ^ 31) : (Int32.ofNat k).toInt = k := by
  rw [Int32.toInt_ofNat', Int32.size]
  exact Int.bmod_eq_of_le (by omega) (by omega)

theorem and_not_one_of_and_one {x : Int32} (h : x &&& 1 = 0) : x &&& ~~~1 = x := by
  have h' := congrArg Int32.toBitVec h
  have h1 : (1 : Int32).toBitVec = 1#32 := rfl
  have h0 : (0 : Int32).toBitVec = 0#32 := rfl
  apply Int32.toBitVec_inj.mp
  simp only [Int32.toBitVec_and, Int32.toBitVec_not, h1, h0] at h' ⊢
  ext i hi
  rw [BitVec.getElem_and, BitVec.getElem_not, BitVec.getElem_one]
  by_cases i0 : i = 0
  · -- bit 0 of `x` is the bit `x &&& 1` keeps, which is clear
    subst i0
    have hx := congrArg (·[0]) h'
    simp only [BitVec.getElem_and, BitVec.getElem_one, BitVec.getElem_zero, decide_true,
      Bool.and_true] at hx
    simp [hx]
  · simp [i0]

theorem ofNat_leNat_leBytes_int32 (i : Int32) :
    Int32.ofNat (leNat (leBytes 4 i.toBitVec.toNat)) = i := by
  rw [leNat_leBytes_of_lt (by simpa using i.toBitVec.isLt), Int32.ofNat_bitVecToNat,
    Int32.ofBitVec_toBitVec]

theorem ofNat_leNat_leBytes_int64 (i : Int64) :
    Int64.ofNat (leNat (leBytes 8 i.toBitVec.toNat)) = i := by
  rw [leNat_leBytes_of_lt (by simpa using i.toBitVec.isLt), Int64.ofNat_bitVecToNat,
    Int64.ofBitVec_toBitVec]

end Go
