import Mathlib

/-!
Tickets that are handed out in order: some are live, some have been called.

* `Orderly`: the live ones wait in their order, nothing is begun or answered
  before an older one, and every ticket is live or has been called once.

The operations that keep a ledger orderly are the rules at the end.
-/

namespace Foundation.Tickets

/-- The tickets that wait, the number of tickets handed out, those begun and
answered, in order, and those called. -/
structure Ledger where
  live : List Nat
  issued : Nat
  begun : List Nat
  answered : List Nat
  called : List Nat
  deriving DecidableEq, Repr

structure Ledger.Orderly (l : Ledger) : Prop where
  live_sorted : l.live.Pairwise (· < ·)
  begun_sorted : l.begun.Pairwise (· ≤ ·)
  answered_sorted : l.answered.Pairwise (· < ·)
  begun_le : ∀ s ∈ l.begun, ∀ t ∈ l.live, s ≤ t
  answered_lt : ∀ s ∈ l.answered, ∀ t ∈ l.live, s < t
  begun_issued : ∀ s ∈ l.begun, s < l.issued
  answered_issued : ∀ s ∈ l.answered, s < l.issued
  accounted : (l.live ++ l.called).Perm (List.range l.issued)

namespace Ledger

def empty : Ledger := ⟨[], 0, [], [], []⟩

/-- A ticket is handed out and waits. -/
def push (l : Ledger) : Ledger := { l with live := l.live ++ [l.issued], issued := l.issued + 1 }

/-- A ticket is handed out and called at once. -/
def refuse (l : Ledger) : Ledger := { l with called := l.called ++ [l.issued], issued := l.issued + 1 }

theorem orderly_empty : empty.Orderly := by
  constructor
  all_goals simp [empty]

variable {l : Ledger}

theorem Orderly.live_issued (h : l.Orderly) {t : Nat} (ht : t ∈ l.live) : t < l.issued :=
  List.mem_range.mp (h.accounted.subset (List.mem_append_left _ ht))

theorem Orderly.push (h : l.Orderly) : l.push.Orderly where
  live_sorted := by
    refine List.pairwise_append.mpr ⟨h.live_sorted, List.pairwise_singleton _ _, ?_⟩
    intro s hs t ht
    rw [List.mem_singleton.mp ht]
    exact h.live_issued hs
  begun_sorted := h.begun_sorted
  answered_sorted := h.answered_sorted
  begun_le := by
    intro s hs t ht
    rcases List.mem_append.mp ht with ht | ht
    · exact h.begun_le s hs t ht
    · rw [List.mem_singleton.mp ht]
      exact Nat.le_of_lt (h.begun_issued s hs)
  answered_lt := by
    intro s hs t ht
    rcases List.mem_append.mp ht with ht | ht
    · exact h.answered_lt s hs t ht
    · rw [List.mem_singleton.mp ht]
      exact h.answered_issued s hs
  begun_issued := fun s hs => Nat.lt_succ_of_lt (h.begun_issued s hs)
  answered_issued := fun s hs => Nat.lt_succ_of_lt (h.answered_issued s hs)
  accounted := by
    rw [Ledger.push, List.range_succ, List.append_assoc]
    refine (List.perm_append_comm_assoc _ _ _).trans ?_
    exact List.perm_append_comm.trans (h.accounted.append_right _)

theorem Orderly.refuse (h : l.Orderly) : l.refuse.Orderly where
  live_sorted := h.live_sorted
  begun_sorted := h.begun_sorted
  answered_sorted := h.answered_sorted
  begun_le := h.begun_le
  answered_lt := h.answered_lt
  begun_issued := fun s hs => Nat.lt_succ_of_lt (h.begun_issued s hs)
  answered_issued := fun s hs => Nat.lt_succ_of_lt (h.answered_issued s hs)
  accounted := by
    rw [Ledger.refuse, List.range_succ, ← List.append_assoc]
    exact h.accounted.append_right _

/-- The last ticket is called without an answer. -/
theorem Orderly.dropLast (h : l.Orderly) {live : List Nat} {last : Nat}
    (hlive : l.live = live ++ [last]) :
    { l with live := live, called := l.called ++ [last] : Ledger }.Orderly where
  live_sorted := (List.pairwise_append.mp (hlive ▸ h.live_sorted)).1
  begun_sorted := h.begun_sorted
  answered_sorted := h.answered_sorted
  begun_le := fun s hs t ht => h.begun_le s hs t (hlive ▸ List.mem_append_left _ ht)
  answered_lt := fun s hs t ht => h.answered_lt s hs t (hlive ▸ List.mem_append_left _ ht)
  begun_issued := h.begun_issued
  answered_issued := h.answered_issued
  accounted := by
    have haccounted := h.accounted
    rw [hlive] at haccounted
    refine List.Perm.trans ?_ haccounted
    rw [List.append_assoc]
    exact List.perm_append_comm.append_left live

/-- The first ticket is begun. -/
theorem Orderly.begin (h : l.Orderly) {first : Nat} {live : List Nat}
    (hlive : l.live = first :: live) :
    { l with begun := l.begun ++ [first] : Ledger }.Orderly where
  live_sorted := h.live_sorted
  begun_sorted := by
    refine List.pairwise_append.mpr ⟨h.begun_sorted, List.pairwise_singleton _ _, ?_⟩
    intro s hs t ht
    rw [List.mem_singleton.mp ht]
    exact h.begun_le s hs first (hlive ▸ List.mem_cons_self)
  answered_sorted := h.answered_sorted
  begun_le := by
    intro s hs t ht
    rcases List.mem_append.mp hs with hs | hs
    · exact h.begun_le s hs t ht
    · rw [List.mem_singleton.mp hs]
      have hsorted := h.live_sorted
      dsimp only at ht
      rw [hlive] at hsorted ht
      rcases List.mem_cons.mp ht with rfl | ht
      · exact Nat.le_refl _
      · exact Nat.le_of_lt (List.rel_of_pairwise_cons hsorted ht)
  answered_lt := h.answered_lt
  begun_issued := by
    intro s hs
    rcases List.mem_append.mp hs with hs | hs
    · exact h.begun_issued s hs
    · rw [List.mem_singleton.mp hs]
      exact h.live_issued (hlive ▸ List.mem_cons_self)
  answered_issued := h.answered_issued
  accounted := h.accounted

/-- The first ticket is answered and called. -/
theorem Orderly.answer (h : l.Orderly) {first : Nat} {live : List Nat}
    (hlive : l.live = first :: live) :
    { l with
      live := live
      answered := l.answered ++ [first]
      called := l.called ++ [first] : Ledger }.Orderly where
  live_sorted := (List.pairwise_cons.mp (hlive ▸ h.live_sorted)).2
  begun_sorted := h.begun_sorted
  answered_sorted := by
    refine List.pairwise_append.mpr ⟨h.answered_sorted, List.pairwise_singleton _ _, ?_⟩
    intro s hs t ht
    rw [List.mem_singleton.mp ht]
    exact h.answered_lt s hs first (hlive ▸ List.mem_cons_self)
  begun_le := fun s hs t ht => h.begun_le s hs t (hlive ▸ List.mem_cons_of_mem _ ht)
  answered_lt := by
    intro s hs t ht
    rcases List.mem_append.mp hs with hs | hs
    · exact h.answered_lt s hs t (hlive ▸ List.mem_cons_of_mem _ ht)
    · rw [List.mem_singleton.mp hs]
      exact List.rel_of_pairwise_cons (hlive ▸ h.live_sorted) ht
  begun_issued := h.begun_issued
  answered_issued := by
    intro s hs
    rcases List.mem_append.mp hs with hs | hs
    · exact h.answered_issued s hs
    · rw [List.mem_singleton.mp hs]
      exact h.live_issued (hlive ▸ List.mem_cons_self)
  accounted := by
    have haccounted := h.accounted
    rw [hlive] at haccounted
    refine List.Perm.trans ?_ haccounted
    dsimp only
    rw [← List.append_assoc]
    exact List.perm_append_singleton first (live ++ l.called)

end Ledger

end Foundation.Tickets
