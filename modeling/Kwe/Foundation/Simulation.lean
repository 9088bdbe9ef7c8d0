import Kwe.Foundation.Checks
import Kwe.Foundation.Runs

/-!
Two machines that take the same inputs in lockstep: if related states answer
every input by related outputs and related states, related states answer every
run of inputs by related outputs (`outputs_related`).

`foldlM_cons_ok` and `invariant_foldlM` are about machines that may refuse.
-/

namespace Foundation.Simulation

open Foundation.Runs

variable {σ τ ι ο : Type*}

/-- The outputs of the machine `f` along the inputs. -/
def outputs (f : σ → ι → ο × σ) : σ → List ι → List ο
  | _, [] => []
  | s, i :: is => (f s i).1 :: outputs f (f s i).2 is

/-- An output is the answer of the state after the inputs before. -/
theorem getElem?_outputs (f : σ → ι → ο × σ) (s : σ) (is : List ι) (n : Nat) :
    (outputs f s is)[n]? =
      is[n]?.map fun i => (f (run (fun s i => (f s i).2) s (is.take n)) i).1 := by
  induction is generalizing s n with
  | nil => simp [outputs]
  | cons i is ih =>
    cases n with
    | zero => simp [outputs]
    | succ n => simp [outputs, ih]

/-- **Simulation rule.**  The condition `C` is on the states of the first
machine. -/
theorem outputs_related {f : σ → ι → ο × σ} {g : τ → ι → ο × τ} {R : σ → τ → Prop}
    {Q : ο → ο → Prop} {C : σ → ι → Prop}
    (hstep : ∀ s t i, R s t → C s i → Q (f s i).1 (g t i).1 ∧ R (f s i).2 (g t i).2)
    {s : σ} {t : τ} {is : List ι} (hR : R s t) (hC : Along (fun s i => (f s i).2) C s is) :
    List.Forall₂ Q (outputs f s is) (outputs g t is) := by
  induction is generalizing s t with
  | nil => exact .nil
  | cons i is ih =>
    obtain ⟨hQ, hR'⟩ := hstep s t i hR hC.1
    exact .cons hQ (ih hR' hC.2)

/-! ## Machines that may refuse -/

section Refusing

variable {ε σ ι : Type} {f : σ → ι → Except ε σ} {s t : σ} {i : ι} {is : List ι}

theorem foldlM_cons_ok (h : (i :: is).foldlM f s = .ok t) :
    ∃ m, f s i = .ok m ∧ is.foldlM f m = .ok t := by
  rw [List.foldlM_cons] at h
  exact Checks.bind_ok h

/-- What every accepted input keeps, an accepted run keeps. -/
theorem invariant_foldlM {I : σ → Prop} (hstep : ∀ s i t, I s → f s i = .ok t → I t) (hs : I s)
    (h : is.foldlM f s = .ok t) : I t := by
  induction is generalizing s with
  | nil =>
    cases h
    exact hs
  | cons i is ih =>
    obtain ⟨m, hm, h⟩ := foldlM_cons_ok h
    exact ih (hstep s i m hs hm) h

end Refusing

end Foundation.Simulation
