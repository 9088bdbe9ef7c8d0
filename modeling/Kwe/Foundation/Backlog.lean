import Mathlib

/-!
A queue that keeps what was taken from it until all is taken.

* `front_append_pending`: what is taken and what is left;
* `length_cells`: what is kept.

Nothing here depends on what the elements are.
-/

namespace Foundation

/-- The first `offset` elements were taken. -/
structure Backlog (α : Type*) where
  cells : List α
  offset : Nat
  inside : offset ≤ cells.length

namespace Backlog

variable {α : Type*}

def empty : Backlog α := ⟨[], 0, Nat.le_refl _⟩

/-- What is left to take. -/
def pending (b : Backlog α) : List α := b.cells.drop b.offset

def append (b : Backlog α) (xs : List α) : Backlog α :=
  ⟨b.cells ++ xs, b.offset, by
    have hinside := b.inside
    rw [List.length_append]
    omega⟩

/-- The next `n` elements, or all that are left. -/
def front (b : Backlog α) (n : Nat) : List α := b.pending.take n

def advance (b : Backlog α) (n : Nat) : Backlog α :=
  ⟨b.cells, b.offset + (b.front n).length, by
    have hinside := b.inside
    simp only [front, pending, List.length_take, List.length_drop]
    omega⟩

@[simp] theorem pending_empty : (empty : Backlog α).pending = [] := rfl

@[simp] theorem cells_append (b : Backlog α) (xs : List α) :
    (b.append xs).cells = b.cells ++ xs := rfl

@[simp] theorem cells_advance (b : Backlog α) (n : Nat) : (b.advance n).cells = b.cells := rfl

@[simp] theorem pending_append (b : Backlog α) (xs : List α) :
    (b.append xs).pending = b.pending ++ xs := List.drop_append_of_le_length b.inside

theorem front_append_pending (b : Backlog α) (n : Nat) :
    b.front n ++ (b.advance n).pending = b.pending := by
  have hpending : (b.advance n).pending = b.pending.drop (b.front n).length := by
    rw [pending, pending, List.drop_drop]
    rfl
  rw [hpending]
  have hle : (b.front n).length ≤ b.pending.length := by
    rw [front, List.length_take]
    exact Nat.min_le_right _ _
  conv_rhs => rw [← List.take_append_drop (b.front n).length b.pending]
  rw [front, List.length_take, List.take_eq_take_min (i := n)]

theorem length_cells (b : Backlog α) : b.cells.length = b.offset + b.pending.length := by
  have hinside := b.inside
  rw [pending, List.length_drop]
  omega

end Backlog

end Foundation
