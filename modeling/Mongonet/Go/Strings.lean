import Mathlib.Data.List.Basic

/-!
# Go.Strings — searching a byte string for one byte

`strings.IndexByte(s, c)` and `strings.LastIndex(s, string(c))` over a Go string, a list of
bytes here (of any type with decidable equality): the index of the first, or the last,
occurrence of `c`, and `-1` when there is none.  Each is characterised by the way it splits the
string around the occurrence it finds (`indexByte_spec`, `lastIndexByte_spec`), which is the form
in which the callers' slicing uses it.  Nothing here is specific to one program.
-/

namespace Go

variable {α : Type} [DecidableEq α]

/-- `strings.IndexByte(s, c)`. -/
def indexByte : List α → α → Int
  | [], _ => -1
  | x :: s, c =>
    if x = c then 0
    else
      let j := indexByte s c
      if j = -1 then -1 else j + 1

/-- `strings.LastIndex(s, string(c))`. -/
def lastIndexByte : List α → α → Int
  | [], _ => -1
  | x :: s, c =>
    let j := lastIndexByte s c
    if j = -1 then (if x = c then 0 else -1) else j + 1

theorem indexByte_spec (s : List α) (c : α) :
    (indexByte s c = -1 ∧ c ∉ s) ∨
      ∃ pre post, s = pre ++ c :: post ∧ c ∉ pre ∧ indexByte s c = pre.length := by
  induction s with
  | nil => exact .inl ⟨rfl, List.not_mem_nil⟩
  | cons x s ih =>
    by_cases hx : x = c
    · subst hx
      exact .inr ⟨[], s, rfl, List.not_mem_nil, by simp [indexByte]⟩
    rcases ih with ⟨hj, hc⟩ | ⟨pre, post, hs, hpre, hj⟩
    · refine .inl ⟨by simp [indexByte, hx, hj], ?_⟩
      rintro (_ | ⟨_, h⟩)
      · exact hx rfl
      · exact hc h
    · refine .inr ⟨x :: pre, post, by rw [hs]; rfl, ?_, ?_⟩
      · rintro (_ | ⟨_, h⟩)
        · exact hx rfl
        · exact hpre h
      · simp [indexByte, hx, hj]

theorem lastIndexByte_spec (s : List α) (c : α) :
    (lastIndexByte s c = -1 ∧ c ∉ s) ∨
      ∃ pre post, s = pre ++ c :: post ∧ c ∉ post ∧ lastIndexByte s c = pre.length := by
  induction s with
  | nil => exact .inl ⟨rfl, List.not_mem_nil⟩
  | cons x s ih =>
    rcases ih with ⟨hj, hc⟩ | ⟨pre, post, hs, hpost, hj⟩
    · by_cases hx : x = c
      · subst hx
        exact .inr ⟨[], s, rfl, hc, by simp [lastIndexByte, hj]⟩
      · refine .inl ⟨by simp [lastIndexByte, hx, hj], ?_⟩
        rintro (_ | ⟨_, h⟩)
        · exact hx rfl
        · exact hc h
    · refine .inr ⟨x :: pre, post, by rw [hs]; rfl, hpost, ?_⟩
      simp [lastIndexByte, hj]

theorem indexByte_append_cons {pre post : List α} {c : α} (h : c ∉ pre) :
    indexByte (pre ++ c :: post) c = pre.length := by
  induction pre with
  | nil => simp [indexByte]
  | cons x pre ih =>
    have hx : x ≠ c := fun hx => h (hx ▸ List.mem_cons_self)
    have hj := ih fun hc => h (List.mem_cons_of_mem x hc)
    simp [indexByte, hx, hj]

end Go
