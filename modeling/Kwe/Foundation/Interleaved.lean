import Mathlib

/-!
Two channels in one list: pairs laid out one after the other.

* `pairs_interleave`: reading them back finds every whole pair;
* `takeLast_interleave`: the last entries of the list are the last pairs.
-/

namespace Foundation.Interleaved

variable {α : Type*}

/-- The whole pairs of a list, in order. -/
def pairs : List α → List (α × α)
  | l :: r :: rest => (l, r) :: pairs rest
  | _ => []

def interleave (ps : List (α × α)) : List α := ps.flatMap fun p => [p.1, p.2]

@[simp] theorem interleave_nil : interleave ([] : List (α × α)) = [] := rfl

@[simp] theorem interleave_cons (p : α × α) (ps : List (α × α)) :
    interleave (p :: ps) = p.1 :: p.2 :: interleave ps := rfl

@[simp] theorem interleave_append (ps qs : List (α × α)) :
    interleave (ps ++ qs) = interleave ps ++ interleave qs := List.flatMap_append

@[simp] theorem length_interleave (ps : List (α × α)) :
    (interleave ps).length = 2 * ps.length := by
  induction ps with
  | nil => rfl
  | cons p ps ih =>
    rw [interleave_cons, List.length_cons, List.length_cons, ih, List.length_cons]
    omega

theorem pairs_interleave_append (ps : List (α × α)) (xs : List α) :
    pairs (interleave ps ++ xs) = ps ++ pairs xs := by
  induction ps with
  | nil => rfl
  | cons p ps ih =>
    rw [interleave_cons, List.cons_append, List.cons_append, pairs, ih]
    rfl

theorem pairs_short {xs : List α} (h : xs.length < 2) : pairs xs = [] := by
  match xs, h with
  | [], _ => rfl
  | [x], _ => rfl

/-- **Round trip.**  What follows the last whole pair is not read. -/
theorem pairs_interleave (ps : List (α × α)) {rest : List α} (h : rest.length < 2) :
    pairs (interleave ps ++ rest) = ps := by
  rw [pairs_interleave_append, pairs_short h, List.append_nil]

/-- The pairs of a list stay where more of it is read. -/
theorem pairs_initial (xs ys : List α) : pairs xs <+: pairs (xs ++ ys) := by
  fun_induction pairs xs with
  | case1 l r rest ih =>
    rw [List.cons_append, List.cons_append, pairs]
    exact List.cons_prefix_cons.mpr ⟨rfl, ih⟩
  | case2 xs h => exact List.nil_prefix

theorem drop_interleave (n : Nat) (ps : List (α × α)) :
    (interleave ps).drop (2 * n) = interleave (ps.drop n) := by
  induction n generalizing ps with
  | zero => rfl
  | succ n ih =>
    cases ps with
    | nil => simp
    | cons p ps =>
      rw [Nat.mul_succ, interleave_cons, List.drop_succ_cons, List.drop_succ_cons, ih]
      rfl

/-- The last `n` entries. -/
def takeLast (n : Nat) (xs : List α) : List α := xs.drop (xs.length - n)

theorem takeLast_interleave (n : Nat) (ps : List (α × α)) :
    takeLast (2 * n) (interleave ps) = interleave (takeLast n ps) := by
  unfold takeLast
  rw [length_interleave, ← Nat.mul_sub, drop_interleave]

/-- A suffix that is long enough has the same last entries. -/
theorem takeLast_suffix {n : Nat} {xs ys : List α} (h : xs <:+ ys) (hn : n ≤ xs.length) :
    takeLast n xs = takeLast n ys := by
  obtain ⟨pre, rfl⟩ := h
  unfold takeLast
  rw [List.length_append, Nat.add_sub_assoc hn, List.drop_length_add_append]

theorem takeLast_isSuffix (n : Nat) (xs : List α) : takeLast n xs <:+ xs := List.drop_suffix _ _

theorem length_takeLast {n : Nat} {xs : List α} : (takeLast n xs).length = min n xs.length := by
  unfold takeLast
  rw [List.length_drop]
  omega

end Foundation.Interleaved
