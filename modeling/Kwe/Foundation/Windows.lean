import Mathlib

/-!
Work inside windows of time: a trace of openings, closings and work, where work checks the clock
now and then.

* `Contained`: all work lies inside a window, and only the last check of it may be late;
* `contained_window`, `contained_append`: windows one after the other.
-/

namespace Foundation.Windows

inductive Event
  | arm (time : Nat)
  | disarm
  /-- Work, with the times of its checks, and whether the last of them ended it. -/
  | work (checks : List Nat) (interrupted : Bool)
  deriving DecidableEq, Repr

/-- All work lies in a window, the window is closed at the end, and the work goes on after a
check only when the window was not open for `limit` by then. -/
def Contained (limit : Nat) : Option Nat → List Event → Prop
  | none, [] => True
  | some _, [] => False
  | _, .arm time :: es => Contained limit (some time) es
  | _, .disarm :: es => Contained limit none es
  | none, .work _ _ :: _ => False
  | some start, .work checks _ :: es =>
    (∀ check ∈ checks.dropLast, check - start < limit) ∧ Contained limit (some start) es

/-- Work that a window opened at `start` may hold. -/
def Inside (limit start : Nat) (es : List Event) : Prop :=
  ∀ e ∈ es, ∃ checks interrupted, e = .work checks interrupted ∧
    ∀ check ∈ checks.dropLast, check - start < limit

variable {limit start : Nat} {es es' : List Event}

theorem Inside.nil : Inside limit start [] := List.forall_mem_nil _

theorem Inside.append (h : Inside limit start es) (h' : Inside limit start es') :
    Inside limit start (es ++ es') := by
  intro e he
  rcases List.mem_append.mp he with he | he
  · exact h e he
  · exact h' e he

theorem Inside.contained (h : Inside limit start es) :
    Contained limit (some start) (es ++ .disarm :: es') ↔ Contained limit none es' := by
  induction es with
  | nil => rfl
  | cons e es ih =>
    obtain ⟨⟨checks, interrupted, rfl, hchecks⟩, hrest⟩ := List.forall_mem_cons.mp h
    rw [List.cons_append, Contained, ih hrest]
    exact and_iff_right hchecks

/-- **Windows.**  A window with its work, and what comes after it. -/
theorem contained_window (time : Nat) (h : Inside limit time es) :
    Contained limit none (.arm time :: (es ++ .disarm :: es')) ↔ Contained limit none es' := by
  rw [Contained]
  exact h.contained

/-- After a contained trace the next one starts anew. -/
theorem contained_append {window : Option Nat} (h : Contained limit window es) :
    Contained limit window (es ++ es') ↔ Contained limit none es' := by
  induction es generalizing window with
  | nil =>
    cases window with
    | none => rfl
    | some start => exact absurd h id
  | cons e es ih =>
    cases e with
    | arm time =>
      simp only [List.cons_append, Contained] at h ⊢
      exact ih h
    | disarm =>
      simp only [List.cons_append, Contained] at h ⊢
      exact ih h
    | work checks interrupted =>
      cases window with
      | none => exact absurd h id
      | some start =>
        simp only [List.cons_append, Contained] at h ⊢
        rw [ih h.2]
        exact and_iff_right h.1

/-- Work outside a window. -/
theorem not_contained_work {checks : List Nat} {interrupted : Bool} :
    ¬ Contained limit none (.work checks interrupted :: es) := id

end Foundation.Windows
