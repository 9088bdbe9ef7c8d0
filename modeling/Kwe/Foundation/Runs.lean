import Mathlib

/-!
Runs of a machine that takes one input at a time, and the rules by which a
property of single steps becomes a property of every run:

* `invariant_run`: what every step that meets a condition keeps, a run of such
  steps keeps;
* `along_of_invariant`: what an invariant forces of each step, it forces of
  every step of the run;
* `kept_iff_along`: a property that no run regains holds just when every step of the
  run meets a condition;
* `kept_or_ended`: what every step keeps or ends is kept by the run, or some
  step of the run ended it.

Nothing here depends on what the states and inputs are.
-/

namespace Foundation.Runs

variable {σ ι : Type*}

/-- The state after the inputs `is`, taken in order from `s`. -/
def run (step : σ → ι → σ) (s : σ) (is : List ι) : σ := is.foldl step s

/-- Every step of the run from `s` meets `C`, a condition on the state before
the step and its input. -/
def Along (step : σ → ι → σ) (C : σ → ι → Prop) : σ → List ι → Prop
  | _, [] => True
  | s, i :: is => C s i ∧ Along step C (step s i) is

instance Along.decidable (step : σ → ι → σ) (C : σ → ι → Prop) [∀ s i, Decidable (C s i)] :
    ∀ (s : σ) (is : List ι), Decidable (Along step C s is)
  | _, [] => inferInstanceAs (Decidable True)
  | s, i :: is =>
    have := Along.decidable step C (step s i) is
    inferInstanceAs (Decidable (C s i ∧ _))

/-- Some step of the run from `s` meets `E`. -/
def Ended (step : σ → ι → σ) (E : σ → ι → Prop) (s : σ) (is : List ι) : Prop :=
  ∃ pre i post, is = pre ++ i :: post ∧ E (run step s pre) i

section Rules

variable {step : σ → ι → σ} {C D E : σ → ι → Prop} {I P : σ → Prop}

@[simp] theorem run_nil (s : σ) : run step s [] = s := rfl

@[simp] theorem run_cons (s : σ) (i : ι) (is : List ι) :
    run step s (i :: is) = run step (step s i) is := rfl

theorem run_append (s : σ) (is js : List ι) :
    run step s (is ++ js) = run step (run step s is) js := List.foldl_append

@[simp] theorem along_nil (s : σ) : Along step C s [] := trivial

@[simp] theorem along_cons (s : σ) (i : ι) (is : List ι) :
    Along step C s (i :: is) ↔ C s i ∧ Along step C (step s i) is := Iff.rfl

theorem along_append (s : σ) (is js : List ι) :
    Along step C s (is ++ js) ↔ Along step C s is ∧ Along step C (run step s is) js := by
  induction is generalizing s with
  | nil => simp
  | cons i is ih => simp [ih, and_assoc]

theorem along_iff_forall_initial (s : σ) (is : List ι) :
    Along step C s is ↔ ∀ pre i, pre ++ [i] <+: is → C (run step s pre) i := by
  induction is generalizing s with
  | nil => simp
  | cons i is ih =>
    rw [along_cons, ih]
    constructor
    · rintro ⟨hi, htail⟩ pre j hj
      cases pre with
      | nil =>
        obtain rfl := (List.cons_prefix_cons.mp hj).1
        exact hi
      | cons k pre =>
        obtain ⟨rfl, hpre⟩ := List.cons_prefix_cons.mp hj
        exact htail pre j hpre
    · intro h
      exact ⟨h [] i (List.prefix_append [i] is),
        fun pre j hj => h (i :: pre) j (List.cons_prefix_cons.mpr ⟨rfl, hj⟩)⟩

theorem Along.of_initial {s : σ} {is pre : List ι} (h : Along step C s is) (hpre : pre <+: is) :
    Along step C s pre := by
  obtain ⟨post, rfl⟩ := hpre
  exact ((along_append s pre post).mp h).1

theorem Along.mono {s : σ} {is : List ι} (hCD : ∀ s i, C s i → D s i)
    (h : Along step C s is) : Along step D s is := by
  induction is generalizing s with
  | nil => trivial
  | cons i is ih => exact ⟨hCD _ _ h.1, ih h.2⟩

theorem along_of_forall (h : ∀ s i, C s i) (s : σ) (is : List ι) : Along step C s is := by
  induction is generalizing s with
  | nil => trivial
  | cons i is ih => exact ⟨h _ _, ih _⟩

theorem Along.and {s : σ} {is : List ι} (hC : Along step C s is) (hD : Along step D s is) :
    Along step (fun s i => C s i ∧ D s i) s is := by
  induction is generalizing s with
  | nil => trivial
  | cons i is ih => exact ⟨⟨hC.1, hD.1⟩, ih hC.2 hD.2⟩

theorem Along.and_forall {Q : ι → Prop} {s : σ} {is : List ι} (h : Along step C s is)
    (hQ : ∀ i ∈ is, Q i) : Along step (fun s i => C s i ∧ Q i) s is := by
  induction is generalizing s with
  | nil => trivial
  | cons i is ih =>
    exact ⟨⟨h.1, hQ i List.mem_cons_self⟩, ih h.2 fun j hj => hQ j (List.mem_cons_of_mem _ hj)⟩

theorem Ended.head {s : σ} {i : ι} (is : List ι) (h : E s i) : Ended step E s (i :: is) :=
  ⟨[], i, is, rfl, h⟩

theorem Ended.tail {s : σ} {i : ι} {is : List ι} (h : Ended step E (step s i) is) :
    Ended step E s (i :: is) := by
  obtain ⟨pre, j, post, rfl, he⟩ := h
  exact ⟨i :: pre, j, post, rfl, he⟩

theorem not_ended_of_along {s : σ} {is : List ι} (h : Along step (fun s i => ¬ E s i) s is) :
    ¬ Ended step E s is := by
  rintro ⟨pre, i, post, rfl, he⟩
  exact ((along_append s pre (i :: post)).mp h).2.1 he

/-- **Invariant rule.** -/
theorem invariant_run (hstep : ∀ s i, I s → C s i → I (step s i)) {s : σ} {is : List ι}
    (hs : I s) (h : Along step C s is) : I (run step s is) := by
  induction is generalizing s with
  | nil => exact hs
  | cons i is ih => exact ih (hstep s i hs h.1) h.2

/-- The invariant rule for a machine whose steps all keep the invariant. -/
theorem invariant_run_all (hstep : ∀ s i, I s → I (step s i)) {s : σ} (hs : I s)
    (is : List ι) : I (run step s is) :=
  invariant_run (C := fun _ _ => True) (fun s i h _ => hstep s i h) hs
    (along_of_forall (fun _ _ => trivial) s is)

/-- **Step rule.**  An invariant that forces `D` of each step forces it along
the run. -/
theorem along_of_invariant (hstep : ∀ s i, I s → C s i → I (step s i))
    (hD : ∀ s i, I s → C s i → D s i) {s : σ} {is : List ι}
    (hs : I s) (h : Along step C s is) : Along step D s is := by
  induction is generalizing s with
  | nil => trivial
  | cons i is ih => exact ⟨hD s i hs h.1, ih (hstep s i hs h.1) h.2⟩

/-- **Equivalence rule.**  Where an invariant, which the steps that meet `D`
keep, makes `D` and `E` the same, runs meet the one as they meet the other. -/
theorem along_congr (hstep : ∀ s i, I s → C s i → D s i → I (step s i))
    (hiff : ∀ s i, I s → C s i → (D s i ↔ E s i)) {s : σ} {is : List ι} (hs : I s)
    (h : Along step C s is) : Along step D s is ↔ Along step E s is := by
  induction is generalizing s with
  | nil => exact Iff.rfl
  | cons i is ih =>
    rw [along_cons, along_cons, ← hiff s i hs h.1]
    exact and_congr_right fun hD => ih (hstep s i hs h.1 hD) h.2

/-- **Prefix rule.**  What a step keeps just when it meets `C`, a run keeps just when
its steps do. -/
theorem kept_iff_along (hstep : ∀ s i, I s → I (step s i))
    (hiff : ∀ s i, I s → (P (step s i) ↔ P s ∧ C s i)) {s : σ} (hs : I s) (is : List ι) :
    P (run step s is) ↔ P s ∧ Along step C s is := by
  induction is generalizing s with
  | nil => simp
  | cons i is ih => rw [run_cons, ih (hstep s i hs), hiff s i hs, along_cons, and_assoc]

/-- **Until rule.**  What every step keeps or ends is kept by the run, unless
a step of the run ended it. -/
theorem kept_or_ended (hstep : ∀ s i, P s → C s i → P (step s i) ∨ E s i) {s : σ}
    {is : List ι} (hs : P s) (h : Along step C s is) :
    P (run step s is) ∨ Ended step E s is := by
  induction is generalizing s with
  | nil => exact Or.inl hs
  | cons i is ih =>
    rcases hstep s i hs h.1 with hp | he
    · exact (ih hp h.2).imp_right Ended.tail
    · exact Or.inr (.head is he)

end Rules

end Foundation.Runs
