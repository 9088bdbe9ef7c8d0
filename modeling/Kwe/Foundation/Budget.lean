import Kwe.Foundation.Runs

/-!
Loops that spend a budget held in a machine word of `2 ^ 64` values.

`bounded_iff`: a loop keeps to its budget just when no turn takes more than is left.
-/

namespace Foundation.Budget

open Runs

/-- What a turn of the loop does: it goes on, for nothing or for a cost, or it ends
the loop after what it consumed. -/
inductive Turn (σ : Type)
  | again (s : σ)
  | spend (cost : Nat) (s : σ)
  | halt (cost : Nat) (s : σ)

namespace Turn

variable {σ : Type}

def cost : Turn σ → Nat
  | again _ => 0
  | spend cost _ | halt cost _ => cost

def state : Turn σ → σ
  | again s | spend _ s | halt _ s => s

def halts : Turn σ → Bool
  | halt .. => true
  | _ => false

end Turn

structure Meter (σ : Type) where
  state : σ
  /-- What is left, as the word says. -/
  budget : Nat
  halted : Bool
  /-- What was consumed, and in how many turns. -/
  consumed : Nat
  turns : Nat
  /-- The word went below zero. -/
  underflow : Bool

variable {σ ρ : Type}

def Meter.start (limit : Nat) (s : σ) : Meter σ := ⟨s, limit, false, 0, 0, false⟩

def Meter.ended (m : Meter σ) : Bool := m.halted || m.budget = 0

variable (turn : σ → ρ → Turn σ)

/-- A turn of the loop, which is entered while there is a budget. -/
def step (m : Meter σ) (r : ρ) : Meter σ :=
  if m.ended then m
  else
    match turn m.state r with
    | .again s => { m with state := s }
    | .spend cost s =>
      { m with
        state := s
        budget := (m.budget + 2 ^ 64 - cost) % 2 ^ 64
        consumed := m.consumed + cost
        turns := m.turns + 1
        underflow := m.underflow || m.budget < cost }
    | .halt cost s =>
      { m with
        state := s
        halted := true
        consumed := m.consumed + cost
        turns := if cost = 0 then m.turns else m.turns + 1 }

/-- The costs of the turns up to the one that ends the loop, whatever the budget. -/
def costs : σ → List ρ → List Nat
  | _, [] => []
  | s, r :: rs =>
    (turn s r).cost :: if (turn s r).halts then [] else costs (turn s r).state rs

/-- No cost is more than what is left, until nothing is. -/
def Fits : Nat → List Nat → Prop
  | _, [] => True
  | left, cost :: costs => left = 0 ∨ (cost ≤ left ∧ Fits (left - cost) costs)

/-- The loop has kept to its budget. -/
structure Bounded (limit : Nat) (m : Meter σ) : Prop where
  underflow : m.underflow = false
  consumed : m.consumed ≤ limit
  turns : m.turns ≤ limit
  ended : m.turns = limit → m.ended = true

/-- The word is what is left of the limit. -/
structure Exact (limit : Nat) (m : Meter σ) : Prop where
  underflow : m.underflow = false
  left : m.consumed + m.budget = limit
  turns : m.turns ≤ m.consumed

variable {turn}

theorem Exact.start (limit : Nat) (s : σ) : Exact limit (Meter.start limit s) :=
  ⟨rfl, Nat.zero_add limit, Nat.le_refl 0⟩

theorem Exact.bounded {limit : Nat} {m : Meter σ} (h : Exact limit m) : Bounded limit m := by
  have hleft := h.left
  have hturns := h.turns
  refine ⟨h.underflow, by omega, by omega, fun hlimit => ?_⟩
  have hzero : m.budget = 0 := by omega
  simp [Meter.ended, hzero]

theorem run_ended {m : Meter σ} (h : m.ended = true) (rs : List ρ) : run (step turn) m rs = m := by
  induction rs with
  | nil => rfl
  | cons r rs ih => rw [run_cons, step, if_pos h, ih]

/-- What was lost stays lost. -/
theorem run_underflow {m : Meter σ} (h : m.underflow = true) (rs : List ρ) :
    (run (step turn) m rs).underflow = true := by
  refine invariant_run_all (I := fun m : Meter σ => m.underflow = true) (fun m r h => ?_) h rs
  rw [step]
  split
  · exact h
  · split
    · exact h
    · simp [h]
    · exact h

/-- A turn that takes no more than is left. -/
theorem Exact.spend {limit : Nat} (hword : limit < 2 ^ 64) {m : Meter σ} (h : Exact limit m)
    {cost : Nat} (hpos : 0 < cost) (hle : cost ≤ m.budget) (s : σ) :
    Exact limit { m with
      state := s
      budget := (m.budget + 2 ^ 64 - cost) % 2 ^ 64
      consumed := m.consumed + cost
      turns := m.turns + 1
      underflow := m.underflow || m.budget < cost } ∧
      (m.budget + 2 ^ 64 - cost) % 2 ^ 64 = m.budget - cost := by
  have hleft := h.left
  have hturns := h.turns
  have hbudget : (m.budget + 2 ^ 64 - cost) % 2 ^ 64 = m.budget - cost := by omega
  refine ⟨⟨?_, ?_, ?_⟩, hbudget⟩
  · simp [h.underflow, hle]
  · simp only [hbudget]
    omega
  · simp only
    omega

/-- **Budgets.**  The loop keeps to its budget just when no turn takes more than is left. -/
theorem bounded_iff {limit : Nat} (hword : limit < 2 ^ 64)
    (hpos : ∀ s r cost s', turn s r = .spend cost s' → 0 < cost) {m : Meter σ}
    (h : Exact limit m) (hgoing : m.halted = false) (rs : List ρ) :
    Bounded limit (run (step turn) m rs) ↔ Fits m.budget (costs turn m.state rs) := by
  induction rs generalizing m with
  | nil => exact ⟨fun _ => trivial, fun _ => h.bounded⟩
  | cons r rs ih =>
    rw [costs, Fits]
    by_cases hended : m.ended = true
    · rw [run_ended hended]
      have hzero : m.budget = 0 := by simpa [Meter.ended, hgoing] using hended
      exact ⟨fun _ => .inl hzero, fun _ => h.bounded⟩
    have hleft : m.budget ≠ 0 := by simpa [Meter.ended, hgoing] using hended
    rw [run_cons, step, if_neg hended]
    cases hturn : turn m.state r with
    | again s =>
      have hagain : Exact limit { m with state := s } := ⟨h.underflow, h.left, h.turns⟩
      simp only [Turn.cost, Turn.halts, Turn.state, hleft, false_or]
      rw [ih hagain hgoing]
      simp
    | spend cost s =>
      simp only [Turn.cost, Turn.halts, Turn.state, hleft, false_or]
      by_cases hle : cost ≤ m.budget
      · obtain ⟨hspend, hbudget⟩ := h.spend hword (hpos _ _ _ _ hturn) hle s
        rw [ih hspend hgoing, hbudget]
        simp [hle]
      · refine ⟨fun hbounded => ?_, fun hfits => absurd hfits.1 hle⟩
        have hunder : (m.underflow || decide (m.budget < cost)) = true := by
          simp [Nat.not_le.mp hle]
        exact absurd hbounded.underflow (by rw [run_underflow hunder]; exact nofun)
    | halt cost s =>
      have hstop : ∀ m : Meter σ, m.halted = true → m.ended = true := fun m hm => by
        simp [Meter.ended, hm]
      simp only [Turn.cost, Turn.halts, Turn.state, hleft, false_or]
      rw [run_ended (hstop _ rfl)]
      have hconsumed := h.left
      have hturns := h.turns
      constructor
      · intro hbounded
        have hle := hbounded.consumed
        simp only at hle
        exact ⟨by omega, trivial⟩
      · rintro ⟨hle, -⟩
        refine ⟨h.underflow, ?_, ?_, fun _ => hstop _ rfl⟩
        · simp only
          omega
        · simp only
          split <;> omega

end Foundation.Budget
