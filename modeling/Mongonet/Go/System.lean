import Mongonet.Go.Result

/-!
# Go.System — goroutines sharing a state, as labelled steps

A program whose goroutines share memory (a pool behind a mutex, sockets, flags that one
goroutine at a time owns) is a state `S` and a step `step s l : Result ε S` for each label `l`:
the label names the goroutine that moves and what its environment decides (what a socket read
returns, whether a write fails).  A step that comes back `ok` is taken; a `panic` is a run-time
panic of the program; `diverge` is a step that cannot be taken (the goroutine is blocked, or is
not at that point of its code).

`Reach step adm init` is the set of states reached from `init` by any interleaving of steps
whose labels `adm` allows in the state where they are taken: `adm` is how assumptions about
the environment (what a server answers) enter.  `Reach.inv` is the invariant rule, and
`runAdm` replays a list of labels, checking each against `adm`, so that a concrete run can be
evaluated and shown reachable (`reach_of_runAdm`).  Nothing here is specific to one program.
-/

namespace Go

open Result

variable {S L ε : Type}

section Reach

variable (step : S → L → Result ε S) (adm : S → L → Prop) (init : S)

/-- The states that interleavings of admissible steps reach from `init`. -/
inductive Reach : S → Prop
  | init : Reach init
  | step {s s' : S} {l : L} : Reach s → adm s l → step s l = ok s' → Reach s'

variable {step adm init}

/-- **Invariant rule.**  A property of `init` that every admissible step keeps holds in every
reachable state. -/
theorem Reach.inv (I : S → Prop) (h0 : I init)
    (hstep : ∀ s l s', I s → adm s l → step s l = ok s' → I s') {s : S}
    (h : Reach step adm init s) : I s := by
  induction h with
  | init => exact h0
  | step _ hadm hs ih => exact hstep _ _ _ ih hadm hs

theorem Reach.mono {adm' : S → L → Prop} (hadm : ∀ s l, adm s l → adm' s l) {s : S}
    (h : Reach step adm init s) : Reach step adm' init s := by
  induction h with
  | init => exact .init
  | step _ ha hs ih => exact .step ih (hadm _ _ ha) hs

end Reach

section Run

variable (step : S → L → Result ε S) (adm : S → L → Prop) [∀ s l, Decidable (adm s l)]

/-- The steps of `ls` one after another, each checked against `adm` first; a label that `adm`
refuses, or a step that does not come back `ok`, ends the run. -/
def runAdm : S → List L → Result ε S
  | s, [] => ok s
  | s, l :: ls => if adm s l then step s l >>= fun s' => runAdm s' ls else diverge

variable {step adm} {init : S}

/-- A run that `runAdm` completes from a reachable state ends in a reachable state. -/
theorem reach_of_runAdm : ∀ {s s' : S} (ls : List L), Reach step adm init s →
    runAdm step adm s ls = ok s' → Reach step adm init s'
  | s, s', [], hs, h => by
    rw [runAdm] at h
    cases h
    exact hs
  | s, s', l :: ls, hs, h => by
    rw [runAdm] at h
    by_cases hl : adm s l
    · rw [if_pos hl, bind_eq_ok] at h
      obtain ⟨s₁, h₁, h₂⟩ := h
      exact reach_of_runAdm ls (.step hs hl h₁) h₂
    · rw [if_neg hl] at h
      cases h

end Run

end Go
