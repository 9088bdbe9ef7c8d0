import Mathlib

/-!
Loops that consume accumulated time in steps of one length.

* `loop_eq`: the loop runs its body as often as the step fits;
* `count_add`, `times_add`: time and steps one after the other;
* `times_invariant`: what every step keeps holds between all of them.
-/

namespace Foundation.FixedStep

variable {σ ε : Type*}

/-- How often the step `h` fits into `time`. -/
def count (h time : ℚ) : ℕ := ⌊time / h⌋₊

theorem count_of_lt {h time : ℚ} (hpos : 0 < h) (hlt : time < h) : count h time = 0 :=
  Nat.floor_eq_zero.mpr ((div_lt_one hpos).mpr hlt)

theorem count_of_le {h time : ℚ} (hpos : 0 < h) (hle : h ≤ time) :
    count h time = count h (time - h) + 1 := by
  have hdiv : time / h = (time - h) / h + 1 := by
    field_simp
    ring
  have hnonneg : 0 ≤ (time - h) / h := div_nonneg (sub_nonneg.mpr hle) hpos.le
  rw [count, hdiv, Nat.floor_add_one hnonneg, count]

theorem count_le {h time : ℚ} (hpos : 0 < h) {n : ℕ} (hle : time ≤ n * h) : count h time ≤ n := by
  have hdiv : time / h ≤ n := (div_le_iff₀ hpos).mpr hle
  exact Nat.floor_le_of_le hdiv

theorem left_lt {h : ℚ} (hpos : 0 < h) (time : ℚ) : time - count h time * h < h := by
  have hlt := (div_lt_iff₀ hpos).mp (Nat.lt_floor_add_one (time / h))
  rw [count]
  linarith

/-- Time that is added counts together with what was left over. -/
theorem count_add {h : ℚ} (hpos : 0 < h) (time : ℚ) {more : ℚ} (hmore : 0 ≤ more) :
    count h (time + more) = count h time + count h (time - count h time * h + more) := by
  rcases lt_or_ge time h with hlt | hge
  · rw [count_of_lt hpos hlt]
    simp
  · have hfloor := Nat.floor_le (div_nonneg (hpos.le.trans hge) hpos.le)
    have hleft : 0 ≤ (time - count h time * h + more) / h := by
      rw [le_div_iff₀ hpos] at hfloor
      exact div_nonneg (by rw [count]; linarith) hpos.le
    have hsplit : (time + more) / h =
        (time - count h time * h + more) / h + (count h time : ℚ) := by
      field_simp
      ring
    rw [count, hsplit, Nat.floor_add_natCast hleft, Nat.add_comm]
    rfl

/-- Runs `body` and consumes a step of time while the step fits. -/
def loop (h : ℚ) (body : σ → Except ε σ) (time : ℚ) (s : σ) : Except ε (ℚ × σ) :=
  if _h : 0 < h ∧ h ≤ time then
    match body s with
    | .error e => .error e
    | .ok s => loop h body (time - h) s
  else .ok (time, s)
termination_by count h time
decreasing_by
  rw [count_of_le _h.1 _h.2]
  exact Nat.lt_succ_self _

/-- The body, this many times. -/
def times (body : σ → Except ε σ) : ℕ → σ → Except ε σ
  | 0, s => .ok s
  | n + 1, s =>
    match body s with
    | .error e => .error e
    | .ok s => times body n s

example : times (fun s : Nat => if s = 0 then .error () else .ok (s - 1)) 2 1 = .error () := by
  simp [times]

theorem loop_eq {h : ℚ} (hpos : 0 < h) (body : σ → Except ε σ) (time : ℚ) (s : σ) :
    loop h body time s = (times body (count h time) s).map (time - count h time * h, ·) := by
  induction hn : count h time generalizing time s with
  | zero =>
    have hlt : time < h := by
      by_contra hge
      rw [count_of_le hpos (not_lt.mp hge)] at hn
      exact absurd hn (Nat.succ_ne_zero _)
    rw [loop, dif_neg fun hand => absurd hand.2 (not_le.mpr hlt), times]
    simp [Except.map]
  | succ n ih =>
    have hle : h ≤ time := by
      by_contra hlt
      rw [count_of_lt hpos (not_le.mp hlt)] at hn
      exact absurd hn (Nat.succ_ne_zero n).symm
    rw [count_of_le hpos hle] at hn
    rw [loop, dif_pos ⟨hpos, hle⟩, times]
    cases body s with
    | error e => rfl
    | ok s' =>
      dsimp only
      rw [ih (time - h) s' (Nat.succ_injective hn)]
      congr 1
      funext s''
      push_cast
      ring_nf

theorem times_succ (body : σ → Except ε σ) (n : ℕ) (s : σ) :
    times body (n + 1) s = (times body n s).bind body := by
  induction n generalizing s with
  | zero =>
    rw [times, times]
    cases h : body s with
    | error e => simp [Except.bind, h]
    | ok s' => simp [Except.bind, times, h]
  | succ n ih =>
    rw [times, times]
    cases body s with
    | error e => rfl
    | ok s' => exact ih s'

theorem times_add (body : σ → Except ε σ) (m n : ℕ) (s : σ) :
    times body (m + n) s = (times body m s).bind (times body n) := by
  induction m generalizing s with
  | zero =>
    rw [Nat.zero_add]
    rfl
  | succ m ih =>
    rw [Nat.add_right_comm, times, times]
    cases body s with
    | error e => rfl
    | ok s' => exact ih s'

/-- **Invariant rule.**  Where every step from an invariant succeeds and keeps
it, all of them do. -/
theorem times_invariant {body : σ → Except ε σ} {I : σ → Prop}
    (hbody : ∀ s, I s → ∃ s', body s = .ok s' ∧ I s') (n : ℕ) {s : σ} (hs : I s) :
    ∃ s', times body n s = .ok s' ∧ I s' := by
  induction n generalizing s with
  | zero => exact ⟨s, rfl, hs⟩
  | succ n ih =>
    obtain ⟨s', hok, hs'⟩ := hbody s hs
    obtain ⟨s'', hrest, hs''⟩ := ih hs'
    exact ⟨s'', by rw [times, hok]; exact hrest, hs''⟩

end Foundation.FixedStep
