import Mathlib

/-!
Two lists whose entries share one ascending numbering, and the merge of them.

* `Split`: two ascending lists of numbers without a number in common;
* `merge_lt`: merged by the numbers, the lists are strictly ascending.
-/

namespace Foundation.Numbering

variable {α β κ : Type}

/-- Two ascending lists of numbers below a bound that have no number in common. -/
structure Split (bound : Nat) (xs ys : List Nat) : Prop where
  left : xs.Pairwise (· < ·)
  right : ys.Pairwise (· < ·)
  apart : ∀ x ∈ xs, x ∉ ys
  left_lt : ∀ x ∈ xs, x < bound
  right_lt : ∀ y ∈ ys, y < bound

theorem Split.nil : Split 0 [] [] :=
  ⟨.nil, .nil, List.forall_mem_nil _, List.forall_mem_nil _, List.forall_mem_nil _⟩

/-- A number that neither list takes. -/
theorem Split.skip {bound : Nat} {xs ys : List Nat} (h : Split bound xs ys) :
    Split (bound + 1) xs ys :=
  ⟨h.left, h.right, h.apart, fun x hx => Nat.lt_succ_of_lt (h.left_lt x hx),
    fun y hy => Nat.lt_succ_of_lt (h.right_lt y hy)⟩

theorem Split.symm {bound : Nat} {xs ys : List Nat} (h : Split bound xs ys) : Split bound ys xs :=
  ⟨h.right, h.left, fun y hy hx => h.apart y hx hy, h.right_lt, h.left_lt⟩

/-- The next number goes to the left list. -/
theorem Split.push_left {bound : Nat} {xs ys : List Nat} (h : Split bound xs ys) :
    Split (bound + 1) (xs ++ [bound]) ys := by
  refine ⟨List.pairwise_append.mpr ⟨h.left, List.pairwise_singleton _ _, ?_⟩, h.right, ?_, ?_,
    h.skip.right_lt⟩
  · intro x hx y hy
    rw [List.mem_singleton.mp hy]
    exact h.left_lt x hx
  · intro x hx hy
    rcases List.mem_append.mp hx with hx | hx
    · exact h.apart x hx hy
    · rw [List.mem_singleton.mp hx] at hy
      exact Nat.lt_irrefl _ (h.right_lt _ hy)
  · intro x hx
    rcases List.mem_append.mp hx with hx | hx
    · exact h.skip.left_lt x hx
    · rw [List.mem_singleton.mp hx]
      exact Nat.lt_succ_self bound

theorem Split.push_right {bound : Nat} {xs ys : List Nat} (h : Split bound xs ys) :
    Split (bound + 1) xs (ys ++ [bound]) :=
  h.symm.push_left.symm

/-- What is left out of the lists does no harm. -/
theorem Split.sublist {bound : Nat} {xs ys xs' ys' : List Nat} (h : Split bound xs ys)
    (hx : xs'.Sublist xs) (hy : ys'.Sublist ys) : Split bound xs' ys' :=
  ⟨h.left.sublist hx, h.right.sublist hy, fun x hx' hy' => h.apart x (hx.subset hx') (hy.subset hy'),
    fun x hx' => h.left_lt x (hx.subset hx'), fun y hy' => h.right_lt y (hy.subset hy')⟩

/-- **Merging.**  The merge by the numbers is strictly ascending. -/
theorem merge_lt {number : α → Nat} {xs ys : List α} {bound : Nat}
    (h : Split bound (xs.map number) (ys.map number)) :
    (xs.merge ys fun a b => decide (number a ≤ number b)).Pairwise
      fun a b => number a < number b := by
  have hle : (xs.merge ys fun a b => decide (number a ≤ number b)).Pairwise
      fun a b => decide (number a ≤ number b) = true := by
    refine List.pairwise_merge ?_ ?_ xs ys ?_ ?_
    · intro a b c hab hbc
      simp only [decide_eq_true_eq] at hab hbc ⊢
      exact Nat.le_trans hab hbc
    · intro a b
      simpa using Nat.le_total (number a) (number b)
    · exact (List.pairwise_map.mp h.left).imp fun hab => decide_eq_true (Nat.le_of_lt hab)
    · exact (List.pairwise_map.mp h.right).imp fun hab => decide_eq_true (Nat.le_of_lt hab)
  have hne : (xs.merge ys fun a b => decide (number a ≤ number b)).Pairwise
      fun a b => number a ≠ number b := by
    refine (List.Perm.pairwise_iff (fun hab => Ne.symm hab) (List.merge_perm_append _)).mpr ?_
    refine List.pairwise_append.mpr ⟨?_, ?_, fun x hx y hy hxy => ?_⟩
    · exact (List.pairwise_map.mp h.left).imp Nat.ne_of_lt
    · exact (List.pairwise_map.mp h.right).imp Nat.ne_of_lt
    · exact h.apart _ (List.mem_map_of_mem hx) (hxy ▸ List.mem_map_of_mem hy)
  exact (hle.and hne).imp fun ⟨hab, hab'⟩ => Nat.lt_of_le_of_ne (of_decide_eq_true hab) hab'

/-- What a filter keeps of each entry is a sublist of what the entries have. -/
theorem map_filterMap_sublist {f : α → Option β} {g : β → κ} {k : α → κ}
    (h : ∀ a b, f a = some b → g b = k a) (l : List α) :
    ((l.filterMap f).map g).Sublist (l.map k) := by
  induction l with
  | nil => exact List.Sublist.slnil
  | cons a l ih =>
    rw [List.filterMap_cons]
    cases hf : f a with
    | none => exact ih.cons _
    | some b =>
      rw [List.map_cons, List.map_cons, h a b hf]
      exact ih.cons_cons _

/-- What a filter keeps of numbered entries, by what the entries have. -/
theorem map_filterMap_zipIdx_fst {f : α × Nat → Option β} {g : β → κ} {k : α → κ}
    (h : ∀ p b, f p = some b → g b = k p.1) (l : List α) :
    ((l.zipIdx.filterMap f).map g).Sublist (l.map k) := by
  have hsublist := map_filterMap_sublist h l.zipIdx
  have hmap : l.zipIdx.map (fun p => k p.1) = (l.zipIdx.map Prod.fst).map k := by
    rw [List.map_map]
    rfl
  rwa [hmap, List.zipIdx_map_fst] at hsublist

/-- What a filter keeps of numbered entries, by their numbers. -/
theorem map_filterMap_zipIdx_snd {f : α × Nat → Option β} {g : β → κ} {k : Nat → κ}
    (h : ∀ p b, f p = some b → g b = k p.2) (l : List α) :
    ((l.zipIdx.filterMap f).map g).Sublist ((List.range l.length).map k) := by
  have hsublist := map_filterMap_sublist h l.zipIdx
  have hmap : l.zipIdx.map (fun p => k p.2) = (l.zipIdx.map Prod.snd).map k := by
    rw [List.map_map]
    rfl
  rwa [hmap, List.zipIdx_map_snd, ← List.range_eq_range'] at hsublist

end Foundation.Numbering
