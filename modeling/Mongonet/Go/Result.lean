import Mathlib.Tactic.Common

/-!
# Go.Result — what a Go call comes back with, and bounded loops

A Go function whose results are `(T, error)` either returns a value, returns a non-nil error,
panics at run time (a bound check, a failed type assertion, an explicit `panic`), or never
returns because a loop runs forever.  `Result ε α` keeps the four apart.  It is a monad, so a
function body reads as a `do` block in which `←` is Go's `if err != nil { return nil, err }`;
panics and divergence propagate the same way.

`x.ReturnsWith P` says that `x` returns and that every value it returns satisfies `P`; an error
is allowed.  Its rules (`ReturnsWith.bind`, `returnsWith_ite`, …) make a small program logic
for Go code that must not panic.

`loop cond body fuel s` is `for cond(s) { s = body(s) }` cut off after `fuel` iterations: if the
condition still holds when the fuel is spent, the result is `diverge`.  A model that uses it
therefore says nothing false about a loop that would not terminate, and `loop_returnsWith` (an
invariant, and a measure that every iteration lowers) is how one shows that the bound is never
reached.  Nothing here is specific to one program.
-/

namespace Go

/-- The outcome of a Go call. -/
inductive Result (ε α : Type) where
  | ok (a : α)
  | error (e : ε)
  | panic (msg : String)
  | diverge
  deriving Repr, DecidableEq

namespace Result

variable {ε α β γ : Type}

/-- Sequencing: an error, a panic or divergence ends the computation. -/
def bind : Result ε α → (α → Result ε β) → Result ε β
  | ok a, f => f a
  | error e, _ => error e
  | panic m, _ => panic m
  | diverge, _ => diverge

instance : Monad (Result ε) where
  pure := ok
  bind := bind

/-- The call came back to its caller, with a value or with an error. -/
def Returns : Result ε α → Prop
  | ok _ | error _ => True
  | panic _ | diverge => False

instance : DecidablePred (Returns (ε := ε) (α := α)) := fun r =>
  match r with
  | ok _ | error _ => isTrue trivial
  | panic _ | diverge => isFalse id

@[simp] theorem pure_eq (a : α) : (pure a : Result ε α) = ok a := rfl

@[simp] theorem ok_bind (a : α) (f : α → Result ε β) : (ok a >>= f) = f a := rfl

@[simp] theorem error_bind (e : ε) (f : α → Result ε β) : (error e >>= f) = error e := rfl

@[simp] theorem panic_bind (m : String) (f : α → Result ε β) : (panic m >>= f) = panic m := rfl

@[simp] theorem diverge_bind (f : α → Result ε β) : (diverge >>= f) = diverge := rfl

@[simp] theorem returns_ok (a : α) : (ok a : Result ε α).Returns := trivial

@[simp] theorem returns_error (e : ε) : (error e : Result ε α).Returns := trivial

@[simp] theorem not_returns_panic (m : String) : ¬ (panic m : Result ε α).Returns := id

@[simp] theorem not_returns_diverge : ¬ (diverge : Result ε α).Returns := id

@[simp] theorem map_ok (f : α → β) (a : α) : (f <$> ok a : Result ε β) = ok (f a) := rfl

@[simp] theorem map_error (f : α → β) (e : ε) : (f <$> error e : Result ε β) = error e := rfl

theorem map_bind (f : β → γ) (x : Result ε α) (g : α → Result ε β) :
    (f <$> (x >>= g)) = (x >>= fun a => f <$> g a) := by
  cases x <;> rfl

/-- `x` with its error, if any, passed through `f`: a caller's `fmt.Errorf(format, err)`. -/
def mapError {ε' : Type} (f : ε → ε') : Result ε α → Result ε' α
  | ok a => ok a
  | error e => error (f e)
  | panic m => panic m
  | diverge => diverge

@[simp] theorem mapError_ok {ε' : Type} (f : ε → ε') (a : α) :
    (ok a : Result ε α).mapError f = ok a :=
  rfl

@[simp] theorem mapError_error {ε' : Type} (f : ε → ε') (e : ε) :
    (error e : Result ε α).mapError f = error (f e) :=
  rfl

theorem bind_eq_ok {x : Result ε α} {f : α → Result ε β} {b : β} :
    (x >>= f) = ok b ↔ ∃ a, x = ok a ∧ f a = ok b := by
  cases x <;> simp

theorem Returns.bind {x : Result ε α} {f : α → Result ε β} (hx : x.Returns)
    (hf : ∀ a, x = ok a → (f a).Returns) : (x >>= f).Returns := by
  cases x with
  | ok a => exact hf a rfl
  | error e => trivial
  | panic m => exact absurd hx id
  | diverge => exact absurd hx id

/-! ### Returning with a postcondition -/

/-- `x` returns, and every value it returns satisfies `P`. -/
def ReturnsWith (x : Result ε α) (P : α → Prop) : Prop := x.Returns ∧ ∀ a, x = ok a → P a

theorem returnsWith_ok {P : α → Prop} {a : α} (h : P a) : (ok a : Result ε α).ReturnsWith P :=
  ⟨trivial, fun _ h' => by cases h'; exact h⟩

theorem returnsWith_pure {P : α → Prop} {a : α} (h : P a) :
    (pure a : Result ε α).ReturnsWith P :=
  returnsWith_ok h

@[simp] theorem returnsWith_error (e : ε) (P : α → Prop) : (error e : Result ε α).ReturnsWith P :=
  ⟨trivial, fun _ h => by cases h⟩

theorem ReturnsWith.returns {x : Result ε α} {P : α → Prop} (h : x.ReturnsWith P) : x.Returns :=
  h.1

theorem ReturnsWith.of_ok {x : Result ε α} {P : α → Prop} (h : x.ReturnsWith P) {a : α}
    (ha : x = ok a) : P a :=
  h.2 a ha

theorem ReturnsWith.mono {x : Result ε α} {P Q : α → Prop} (h : x.ReturnsWith P)
    (hPQ : ∀ a, P a → Q a) : x.ReturnsWith Q :=
  ⟨h.1, fun a ha => hPQ a (h.2 a ha)⟩

theorem ReturnsWith.bind {x : Result ε α} {f : α → Result ε β} {P : α → Prop} {Q : β → Prop}
    (hx : x.ReturnsWith P) (hf : ∀ a, P a → (f a).ReturnsWith Q) : (x >>= f).ReturnsWith Q := by
  cases x with
  | ok a => exact hf a (hx.of_ok rfl)
  | error e => exact returnsWith_error e Q
  | panic m => exact absurd hx.1 id
  | diverge => exact absurd hx.1 id

theorem returnsWith_ite {c : Prop} [Decidable c] {x y : Result ε α} {P : α → Prop}
    (hx : c → x.ReturnsWith P) (hy : ¬ c → y.ReturnsWith P) :
    (if c then x else y).ReturnsWith P := by
  by_cases h : c
  · rw [if_pos h]; exact hx h
  · rw [if_neg h]; exact hy h

theorem returnsWith_of_eq_ok {x : Result ε α} {a : α} (h : x = ok a) {P : α → Prop} (hP : P a) :
    x.ReturnsWith P := by
  rw [h]; exact returnsWith_ok hP

/-! ### Returning a value -/

/-- `x` returns a value, not an error, and the value satisfies `P`. -/
def OkWith (x : Result ε α) (P : α → Prop) : Prop := ∃ a, x = ok a ∧ P a

theorem okWith_ok {P : α → Prop} {a : α} (h : P a) : (ok a : Result ε α).OkWith P := ⟨a, rfl, h⟩

theorem okWith_pure {P : α → Prop} {a : α} (h : P a) : (pure a : Result ε α).OkWith P :=
  okWith_ok h

theorem OkWith.bind {x : Result ε α} {f : α → Result ε β} {P : α → Prop} {Q : β → Prop}
    (hx : x.OkWith P) (hf : ∀ a, P a → (f a).OkWith Q) : (x >>= f).OkWith Q := by
  obtain ⟨a, rfl, ha⟩ := hx
  exact hf a ha

theorem OkWith.mono {x : Result ε α} {P Q : α → Prop} (h : x.OkWith P) (hPQ : ∀ a, P a → Q a) :
    x.OkWith Q := by
  obtain ⟨a, hx, ha⟩ := h
  exact ⟨a, hx, hPQ a ha⟩

theorem OkWith.eq_ok {x : Result ε α} {a : α} (h : x.OkWith (· = a)) : x = ok a := by
  obtain ⟨b, hx, rfl⟩ := h
  exact hx

theorem OkWith.returnsWith {x : Result ε α} {P : α → Prop} (h : x.OkWith P) : x.ReturnsWith P := by
  obtain ⟨a, rfl, ha⟩ := h
  exact returnsWith_ok ha

/-- **Fold rule.**  A `foldlM` over `xs` returns a value in `I xs` if every step on an element of
`xs` takes a value in `I done`, `done` the elements before it, into `I (done ++ [a])`. -/
theorem foldlM_okWith {f : β → α → Result ε β} (xs : List α) (I : List α → β → Prop)
    (hstep : ∀ done a rest b, done ++ a :: rest = xs → I done b → (f b a).OkWith (I (done ++ [a])))
    {b : β} (h0 : I [] b) : (xs.foldlM f b).OkWith (I xs) := by
  -- the induction runs over the elements still to fold, `done` over those already folded
  suffices h : ∀ ys done b, done ++ ys = xs → I done b → (ys.foldlM f b).OkWith (I xs) from
    h xs [] b rfl h0
  intro ys
  induction ys with
  | nil =>
    intro done b hxs hb
    rw [List.append_nil] at hxs
    subst hxs
    exact okWith_pure hb
  | cons a ys ih =>
    intro done b hxs hb
    rw [List.foldlM_cons]
    refine (hstep done a ys b hxs hb).bind fun b' hb' => ih (done ++ [a]) b' ?_ hb'
    rw [List.append_assoc, List.singleton_append, hxs]

end Result

/-! ## Bounded loops -/

section Loop

variable {ε σ : Type} (cond : σ → Bool) (body : σ → Result ε σ)

open Result

/-- `for cond(s) { s = body(s) }`, run for at most `fuel` iterations. -/
def loop : Nat → σ → Result ε σ
  | 0, s => if cond s then diverge else ok s
  | n + 1, s => if cond s then body s >>= loop n else ok s

variable {cond body}

theorem loop_of_not_cond {s : σ} (h : cond s = false) (n : Nat) : loop cond body n s = ok s := by
  cases n <;> simp [loop, h]

theorem loop_succ_of_cond {s : σ} (h : cond s = true) (n : Nat) :
    loop cond body (n + 1) s = (body s >>= loop cond body n) := by
  simp [loop, h]

/-- **Variant rule.**  If every iteration from an `I`-state returns into an `I`-state with a
smaller `μ`, then a loop given more fuel than `μ` returns, and exits in an `I`-state whose
condition is false. -/
theorem loop_returnsWith (I : σ → Prop) (μ : σ → Nat)
    (hstep : ∀ s, I s → cond s = true → (body s).ReturnsWith fun s' => I s' ∧ μ s' < μ s) :
    ∀ n s, I s → μ s < n → (loop cond body n s).ReturnsWith fun s' => I s' ∧ cond s' = false := by
  intro n
  induction n with
  | zero => intro s _ h; omega
  | succ n ih =>
    intro s hs hμ
    cases hc : cond s with
    | false =>
      rw [loop_of_not_cond hc]
      exact returnsWith_ok ⟨hs, hc⟩
    | true =>
      rw [loop_succ_of_cond hc]
      refine (hstep s hs hc).bind fun s' ⟨hI, hlt⟩ => ?_
      exact ih s' hI (by omega)

/-- **Variant rule, without errors.**  If every iteration from an `I`-state comes back with a
value, an `I`-state with a smaller `μ`, then so does the loop given more fuel than `μ`. -/
theorem loop_eq_ok (I : σ → Prop) (μ : σ → Nat)
    (hstep : ∀ s, I s → cond s = true → ∃ s', body s = ok s' ∧ I s' ∧ μ s' < μ s) :
    ∀ n s, I s → μ s < n → ∃ s', loop cond body n s = ok s' ∧ I s' ∧ cond s' = false := by
  intro n
  induction n with
  | zero => intro s _ h; omega
  | succ n ih =>
    intro s hs hμ
    cases hc : cond s with
    | false => exact ⟨s, loop_of_not_cond hc _, hs, hc⟩
    | true =>
      obtain ⟨s₁, hb, hI, hlt⟩ := hstep s hs hc
      rw [loop_succ_of_cond hc, hb, ok_bind]
      exact ih s₁ hI (by omega)

/-- **Invariant rule.**  A loop that exits normally exits in an `I`-state with a false
condition, if `I` holds at the start and every iteration keeps it. -/
theorem loop_inv (I : σ → Prop)
    (hstep : ∀ s s', I s → cond s = true → body s = ok s' → I s') :
    ∀ n s s', I s → loop cond body n s = ok s' → I s' ∧ cond s' = false := by
  intro n
  induction n with
  | zero =>
    intro s s' hs h
    cases hc : cond s <;> simp_all [loop]
  | succ n ih =>
    intro s s' hs h
    cases hc : cond s with
    | false =>
      rw [loop_of_not_cond hc] at h
      cases h
      exact ⟨hs, hc⟩
    | true =>
      rw [loop_succ_of_cond hc, bind_eq_ok] at h
      obtain ⟨s₁, h₁, h₂⟩ := h
      exact ih s₁ s' (hstep s s₁ hs hc h₁) h₂

end Loop

end Go
