import Mathlib

/-!
The smallest elements of a stream, kept in order while it passes.

* `smallest_cons`: what one more element does to them;
* `smallest_of_room`, `smallest_of_lt`, `smallest_of_le`: the three ways in which
  a bounded list takes it.
-/

namespace Foundation.Smallest

variable {α : Type*} [LinearOrder α]

/-- The first `max` elements in order. -/
def smallest (max : Nat) (xs : List α) : List α := (xs.insertionSort (· ≤ ·)).take max

theorem smallest_perm {xs ys : List α} (h : xs.Perm ys) (max : Nat) :
    smallest max xs = smallest max ys := by
  have hsorted := List.pairwise_insertionSort (r := fun a b : α => a ≤ b)
  have hperm : (xs.insertionSort (· ≤ ·)).Perm (ys.insertionSort (· ≤ ·)) :=
    (List.perm_insertionSort _ xs).trans (h.trans (List.perm_insertionSort _ ys).symm)
  rw [smallest, hperm.eq_of_pairwise' (hsorted xs) (hsorted ys), smallest]

theorem length_smallest (max : Nat) (xs : List α) :
    (smallest max xs).length = min max xs.length := by
  simp [smallest]

theorem smallest_sorted (max : Nat) (xs : List α) : (smallest max xs).Pairwise (· ≤ ·) :=
  (List.pairwise_insertionSort _ xs).sublist (List.take_sublist _ _)

/-- The insertion at the first element that is not smaller. -/
theorem takeWhile_append_cons (x : α) (xs : List α) :
    xs.takeWhile (· < x) ++ x :: xs.dropWhile (· < x) = xs.orderedInsert (· ≤ ·) x := by
  rw [List.orderedInsert_eq_take_drop]
  simp

theorem take_orderedInsert (max : Nat) (x : α) (xs : List α) :
    (xs.orderedInsert (· ≤ ·) x).take max =
      ((xs.take max).orderedInsert (· ≤ ·) x).take max := by
  induction xs generalizing max with
  | nil => simp
  | cons y xs ih =>
    cases max with
    | zero => simp
    | succ max =>
      rw [List.take_succ_cons, List.orderedInsert_cons, List.orderedInsert_cons]
      split
      · cases max <;> simp [List.take_take]
      · rw [List.take_succ_cons, ih, List.take_succ_cons]

theorem smallest_cons (max : Nat) (x : α) (xs : List α) :
    smallest max (x :: xs) = ((smallest max xs).orderedInsert (· ≤ ·) x).take max :=
  take_orderedInsert max x _

section Insertion

variable {max : Nat} {x : α} {xs : List α}

theorem smallest_of_room (h : (smallest max xs).length < max) :
    smallest max (x :: xs) = (smallest max xs).orderedInsert (· ≤ ·) x := by
  rw [smallest_cons, List.take_of_length_le]
  rw [List.orderedInsert_length]
  exact h

/-- A full list gives up its last element. -/
theorem smallest_of_full (h : ¬ (smallest max xs).length < max) :
    smallest max (x :: xs) = ((smallest max xs).orderedInsert (· ≤ ·) x).dropLast := by
  have hfull : (smallest max xs).length = max := by
    have hle := length_smallest max xs
    omega
  rw [smallest_cons, List.dropLast_eq_take, List.orderedInsert_length, Nat.add_sub_cancel, hfull]

/-- A full list of elements that are not greater stays. -/
theorem smallest_of_le (h : ¬ (smallest max xs).length < max)
    (hle : ∀ y ∈ (smallest max xs).getLast?, y ≤ x) :
    smallest max (x :: xs) = smallest max xs := by
  rw [smallest_of_full h]
  have hsorted := smallest_sorted max xs
  generalize smallest max xs = kept at hsorted hle
  have hall : ∀ y ∈ kept, y ≤ x := by
    intro y hy
    cases hlast : kept.getLast? with
    | none =>
      rw [List.getLast?_eq_none_iff.mp hlast] at hy
      cases hy
    | some last =>
      refine le_trans ?_ (hle last hlast)
      obtain ⟨before, rfl⟩ := List.getLast?_eq_some_iff.mp hlast
      rcases List.mem_append.mp hy with hy | hy
      · exact (List.pairwise_append.mp hsorted).2.2 y hy last (List.mem_singleton_self _)
      · exact (List.mem_singleton.mp hy).le
  have hend : kept.orderedInsert (· ≤ ·) x = kept ++ [x] := by
    have hperm : (kept.orderedInsert (· ≤ ·) x).Perm (kept ++ [x]) :=
      (List.perm_orderedInsert _ x kept).trans (List.perm_append_singleton x kept).symm
    refine hperm.eq_of_pairwise' (hsorted.orderedInsert x kept) ?_
    rw [List.pairwise_append]
    exact ⟨hsorted, List.pairwise_singleton _ x, fun y hy z hz => by
      rw [List.mem_singleton.mp hz]
      exact hall y hy⟩
  rw [hend, List.dropLast_concat]

end Insertion

end Foundation.Smallest
