import Mathlib

/-!
A limit on how often something happens: at most `cap` times in any window of a span.

* `Limited.push`: what is done only while fewer than `cap` times are recent stays limited;
* `Remembers`: times that are no longer recent can be forgotten.
-/

namespace Foundation.Limiter

/-- The times of the last `span`, as of `now`. -/
def recent (span now : Nat) (times : List Nat) : List Nat :=
  times.filter fun t => decide (now - t < span)

def Limited (span cap : Nat) (times : List Nat) : Prop :=
  ∀ start, (times.countP fun t => decide (start ≤ t ∧ t < start + span)) ≤ cap

/-- From `now` on the times that are kept tell what is recent. -/
def Remembers (span now : Nat) (times kept : List Nat) : Prop :=
  ∀ later, now ≤ later → recent span later kept = recent span later times

variable {span cap now time later : Nat} {times kept : List Nat}

theorem Limited.nil : Limited span cap [] := fun _ => Nat.zero_le _

theorem Limited.push (h : Limited span cap times)
    (hrecent : (recent span now times).length < cap) (hle : now ≤ time) :
    Limited span cap (times ++ [time]) := by
  intro start
  rw [List.countP_append, List.countP_singleton]
  by_cases hin : start ≤ time ∧ time < start + span
  · have hwindow : (times.countP fun t => decide (start ≤ t ∧ t < start + span)) ≤
        (recent span now times).length := by
      rw [recent, ← List.countP_eq_length_filter]
      refine List.countP_mono_left fun t _ ht => ?_
      simp only [decide_eq_true_eq] at ht ⊢
      omega
    rw [if_pos (decide_eq_true hin)]
    omega
  · rw [if_neg (by simpa using hin)]
    exact h start

theorem Remembers.self : Remembers span now times times := fun _ _ => rfl

theorem Remembers.mono (h : Remembers span now times kept) (hle : now ≤ later) :
    Remembers span later times kept := fun t ht => h t (Nat.le_trans hle ht)

theorem recent_recent (hle : now ≤ later) :
    recent span later (recent span now times) = recent span later times := by
  unfold recent
  rw [List.filter_filter]
  refine List.filter_congr fun t _ => ?_
  by_cases h : later - t < span
  · simp [h, show now - t < span by omega]
  · simp [h]

theorem Remembers.forget (h : Remembers span now times kept) (hle : now ≤ later) :
    Remembers span later times (recent span later kept) := by
  intro t ht
  rw [recent_recent ht]
  exact h t (Nat.le_trans hle ht)

theorem Remembers.push (h : Remembers span now times kept) (time : Nat) :
    Remembers span now (times ++ [time]) (kept ++ [time]) := by
  intro t ht
  have hkept := h t ht
  unfold recent at hkept ⊢
  rw [List.filter_append, List.filter_append, hkept]

end Foundation.Limiter
