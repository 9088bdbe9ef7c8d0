import Kwe.Foundation.Runs

/-!
What a run has seen on its way, and what its steps add up to:

* `history_run`: an invariant that speaks of the inputs taken so far;
* `total_le`: the steps of a run cost no more than a potential that each of
  them pays from;
* `ended_or_along`: either some step of a run ends, or every step avoids it.
-/

namespace Foundation.Runs

variable {σ ι : Type*} {step : σ → ι → σ}

/-! ## States seen -/

/-- Some state of the run from `s` meets `P`. -/
def Seen (step : σ → ι → σ) (P : σ → Prop) (s : σ) (is : List ι) : Prop :=
  ∃ pre, pre <+: is ∧ P (run step s pre)

section Seen

variable {P Q : σ → Prop} {s : σ} {is : List ι}

theorem Seen.last (h : P (run step s is)) : Seen step P s is := ⟨is, List.prefix_refl is, h⟩

theorem Seen.append (h : Seen step P s is) (js : List ι) : Seen step P s (is ++ js) := by
  obtain ⟨pre, hpre, hp⟩ := h
  exact ⟨pre, hpre.trans (List.prefix_append is js), hp⟩

theorem Seen.mono (hPQ : ∀ s, P s → Q s) (h : Seen step P s is) : Seen step Q s is := by
  obtain ⟨pre, hpre, hp⟩ := h
  exact ⟨pre, hpre, hPQ _ hp⟩

theorem run_concat (s : σ) (is : List ι) (i : ι) :
    run step s (is ++ [i]) = step (run step s is) i := run_append s is [i]

theorem seen_nil : Seen step P s [] ↔ P s := by
  constructor
  · rintro ⟨pre, hpre, hp⟩
    obtain rfl := List.prefix_nil.mp hpre
    exact hp
  · exact fun hp => .last hp

/-- What the run sees after one more input it saw before, or is seen last. -/
theorem seen_concat {i : ι} :
    Seen step P s (is ++ [i]) ↔ Seen step P s is ∨ P (step (run step s is) i) := by
  constructor
  · rintro ⟨pre, hpre, hp⟩
    rcases List.prefix_concat_iff.mp hpre with rfl | hpre
    · exact Or.inr (by rwa [run_concat] at hp)
    · exact Or.inl ⟨pre, hpre, hp⟩
  · rintro (hseen | hp)
    · exact hseen.append [i]
    · exact .last (by rwa [run_concat])

end Seen

/-- **History rule.** -/
theorem history_run {I : List ι → σ → Prop} {s : σ} (hs : I [] s)
    (hstep : ∀ past i, I past (run step s past) → I (past ++ [i]) (step (run step s past) i))
    (is : List ι) : I is (run step s is) := by
  induction is using List.reverseRecOn with
  | nil => exact hs
  | append_singleton past i ih =>
    rw [run_concat]
    exact hstep past i ih

/-! ## Totals -/

/-- What the steps of the run cost together. -/
def total (step : σ → ι → σ) (cost : σ → ι → Nat) : σ → List ι → Nat
  | _, [] => 0
  | s, i :: is => cost s i + total step cost (step s i) is

/-- **Budget rule.**  The steps that meet `C` keep `I` and pay their cost from
the potential. -/
theorem total_le (cost : σ → ι → Nat) (potential : σ → Nat) {C : σ → ι → Prop} {I : σ → Prop}
    (hstep : ∀ s i, I s → C s i → I (step s i) ∧ cost s i + potential (step s i) ≤ potential s)
    {s : σ} {is : List ι} (hs : I s) (h : Along step C s is) :
    total step cost s is ≤ potential s := by
  induction is generalizing s with
  | nil => exact Nat.zero_le _
  | cons i is ih =>
    obtain ⟨hi, hpaid⟩ := hstep s i hs h.1
    have hrest := ih hi h.2
    rw [total]
    omega

theorem ended_or_along (step : σ → ι → σ) (E : σ → ι → Prop) (s : σ) (is : List ι) :
    Ended step E s is ∨ Along step (fun s i => ¬ E s i) s is := by
  induction is generalizing s with
  | nil => exact Or.inr trivial
  | cons i is ih =>
    by_cases he : E s i
    · exact Or.inl (.head is he)
    · exact (ih (step s i)).imp Ended.tail fun h => ⟨he, h⟩

end Foundation.Runs
