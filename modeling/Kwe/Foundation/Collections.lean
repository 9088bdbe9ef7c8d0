import Mathlib

/-!
Vectors that give up their order on removal, and queues that drop their oldest
item when they are full.

* `swapRemove_perm`: an item is gone and the others stay;
* `lostAll_append_foldl`: the queue and what it lost are the items in their
  order.
-/

namespace Foundation.Collections

variable {α : Type*}

/-! ## Vectors -/

/-- The last item takes the place of the one removed. -/
def swapRemove (l : List α) (i : Nat) : List α :=
  match l.getLast? with
  | none => []
  | some last => (l.set i last).dropLast

theorem swapRemove_perm {l : List α} {i : Nat} (h : i < l.length) :
    (swapRemove l i).Perm (l.eraseIdx i) := by
  induction l using List.reverseRecOn with
  | nil => cases h
  | append_singleton init last =>
    rw [swapRemove, List.getLast?_concat]
    dsimp only
    rcases Nat.lt_or_ge i init.length with hi | hi
    · rw [List.set_append_left _ _ hi, List.dropLast_concat, List.eraseIdx_append_of_lt_length hi]
      exact (List.set_perm_cons_eraseIdx hi last).trans (List.perm_append_singleton last _).symm
    · have heq : i = init.length := by
        rw [List.length_append, List.length_singleton] at h
        omega
      subst heq
      simp [List.set_append_right, List.eraseIdx_append_of_length_le]

/-- Removing the item at an index: what is left, with the item, is the
vector. -/
theorem cons_swapRemove_perm {l : List α} {i : Nat} {a : α} (h : l[i]? = some a) :
    (a :: swapRemove l i).Perm l := by
  obtain ⟨hi, rfl⟩ := List.getElem?_eq_some_iff.mp h
  exact ((swapRemove_perm hi).cons _).trans (List.getElem_cons_eraseIdx_perm hi)

/-! ## Queues -/

/-- The new item is put at the end, the oldest one falls out of a full queue. -/
def push (limit : Nat) (queue : List α) (a : α) : List α :=
  if limit ≤ queue.length then queue.tail ++ [a] else queue ++ [a]

/-- What falls out. -/
def lost (limit : Nat) (queue : List α) : List α :=
  if limit ≤ queue.length then queue.take 1 else []

/-- What falls out while these are pushed one after another. -/
def lostAll (limit : Nat) : List α → List α → List α
  | _, [] => []
  | queue, a :: as => lost limit queue ++ lostAll limit (push limit queue a) as

theorem lost_append_push (limit : Nat) (queue : List α) (a : α) :
    lost limit queue ++ push limit queue a = queue ++ [a] := by
  unfold lost push
  split
  next => cases queue <;> rfl
  next => rfl

theorem lostAll_append_foldl (limit : Nat) (queue as : List α) :
    lostAll limit queue as ++ as.foldl (push limit) queue = queue ++ as := by
  induction as generalizing queue with
  | nil => simp [lostAll]
  | cons a as ih =>
    rw [lostAll, List.foldl_cons, List.append_assoc, ih, ← List.append_assoc, lost_append_push,
      List.append_assoc, List.singleton_append]

theorem lostAll_append (limit : Nat) (queue as bs : List α) :
    lostAll limit queue (as ++ bs) =
      lostAll limit queue as ++ lostAll limit (as.foldl (push limit) queue) bs := by
  induction as generalizing queue with
  | nil => rfl
  | cons a as ih => rw [List.cons_append, lostAll, lostAll, ih, List.foldl_cons, List.append_assoc]

theorem length_lost {limit : Nat} (hlimit : 0 < limit) (queue : List α) :
    (lost limit queue).length = if limit ≤ queue.length then 1 else 0 := by
  unfold lost
  split
  next h =>
    rw [List.length_take]
    omega
  next => rfl

end Foundation.Collections
