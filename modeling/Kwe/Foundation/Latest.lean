import Mathlib

/-!
A stream of messages of which only the latest waits to be written.

* `Account`: what is seen of such a stream adds up;
* `Account.write`, `Account.wait`, `Account.refuse`, `Account.flush`,
  `Account.lose`: the rules of its steps;
* `Marks.of_kept`: while no marked message gives way or is lost, the marked
  messages are those written.

Nothing here depends on what the messages are.
-/

namespace Foundation.Latest

variable {α : Type}

/-- What is seen of a stream. -/
structure Traffic (α : Type) where
  accepted : List α
  written : List α
  /-- How many gave way to a newer message. -/
  coalesced : Nat
  /-- How many were lost when they were to be written later. -/
  lost : Nat
  /-- A write has failed since a message was accepted. -/
  failing : Bool
  deriving DecidableEq, Repr

namespace Traffic

def none : Traffic α := ⟨[], [], 0, 0, false⟩

def accept (t : Traffic α) (m : α) : Traffic α :=
  { t with accepted := t.accepted ++ [m], failing := false }

def write (t : Traffic α) (m : α) : Traffic α := { t with written := t.written ++ [m] }

/-- What waits gives way. -/
def coalesce (t : Traffic α) (waiting : Option α) : Traffic α :=
  { t with coalesced := t.coalesced + waiting.toList.length }

def fail (t : Traffic α) : Traffic α := { t with failing := true }

def lose (t : Traffic α) : Traffic α := { t.fail with lost := t.lost + 1 }

end Traffic

/-- The messages of a stream add up. -/
structure Account (t : Traffic α) (waiting : Option α) : Prop where
  order : (t.written ++ waiting.toList).Sublist t.accepted
  count : t.accepted.length =
    t.written.length + t.coalesced + waiting.toList.length + t.lost
  latest : ∀ m, waiting = some m → t.accepted.getLast? = some m
  drained : waiting = .none → t.failing = false → t.written.getLast? = t.accepted.getLast?

namespace Account

variable {t : Traffic α} {waiting : Option α}

theorem initial : Account (Traffic.none : Traffic α) .none :=
  ⟨List.Sublist.refl _, rfl, fun _ h => (nomatch h), fun _ _ => rfl⟩

/-- The written messages alone. -/
theorem sublist (h : Account t waiting) : t.written.Sublist t.accepted :=
  (List.sublist_append_left _ _).trans h.order

theorem write (h : Account t waiting) (m : α) :
    Account (((t.coalesce waiting).accept m).write m) .none where
  order := by
    rw [Option.toList_none, List.append_nil]
    exact h.sublist.append_right [m]
  count := by
    have hcount := h.count
    simp only [Traffic.write, Traffic.accept, Traffic.coalesce, List.length_append,
      List.length_singleton, Option.toList_none, List.length_nil]
    omega
  latest := fun _ hm => by cases hm
  drained := fun _ _ => by simp [Traffic.write, Traffic.accept, Traffic.coalesce]

theorem wait (h : Account t waiting) (m : α) :
    Account ((t.coalesce waiting).accept m) (some m) where
  order := h.sublist.append_right [m]
  count := by
    have hcount := h.count
    simp only [Traffic.accept, Traffic.coalesce, List.length_append, List.length_singleton,
      Option.toList_some]
    omega
  latest := fun n hn => by
    obtain rfl := Option.some.inj hn
    simp [Traffic.accept, Traffic.coalesce]
  drained := fun hnone => by cases hnone

/-- A new message is not accepted, and what waits gives way all the same. -/
theorem refuse (h : Account t waiting) : Account (t.coalesce waiting).fail .none where
  order := by
    rw [Option.toList_none, List.append_nil]
    exact h.sublist
  count := by
    have hcount := h.count
    simp only [Traffic.fail, Traffic.coalesce, Option.toList_none, List.length_nil]
    omega
  latest := fun _ hm => by cases hm
  drained := fun _ hfailing => by cases hfailing

theorem flush {m : α} (h : Account t (some m)) : Account (t.write m) .none where
  order := by
    rw [Option.toList_none, List.append_nil]
    exact h.order
  count := by
    have hcount := h.count
    simp only [Traffic.write, List.length_append, List.length_singleton, Option.toList_some,
      Option.toList_none, List.length_nil] at hcount ⊢
    omega
  latest := fun _ hm => by cases hm
  drained := fun _ _ => by
    have hlatest := h.latest m rfl
    simp [Traffic.write, hlatest]

theorem lose {m : α} (h : Account t (some m)) : Account t.lose .none where
  order := by
    rw [Option.toList_none, List.append_nil]
    exact h.sublist
  count := by
    have hcount := h.count
    simp only [Traffic.lose, Traffic.fail, List.length_singleton, Option.toList_some,
      Option.toList_none, List.length_nil] at hcount ⊢
    omega
  latest := fun _ hm => by cases hm
  drained := fun _ hfailing => by cases hfailing

end Account

/-! ## Marked messages -/

/-- The marked messages are written, but for one that waits. -/
def Marks (p : α → Bool) (t : Traffic α) (waiting : Option α) : Prop :=
  (t.written ++ waiting.toList).filter p = t.accepted.filter p

namespace Marks

variable {p : α → Bool} {t : Traffic α} {waiting : Option α}

theorem initial : Marks p Traffic.none .none := rfl

/-- No marked message waits. -/
theorem of_kept (h : Marks p t waiting) (hkept : ∀ m, waiting = some m → p m = false) :
    t.written.filter p = t.accepted.filter p := by
  rw [← h, List.filter_append]
  cases waiting with
  | none => simp
  | some m => simp [hkept m rfl]

theorem write (h : t.written.filter p = t.accepted.filter p) (m : α) :
    Marks p (((t.coalesce waiting).accept m).write m) .none := by
  simp [Marks, Traffic.write, Traffic.accept, Traffic.coalesce, List.filter_append, h]

theorem wait (h : t.written.filter p = t.accepted.filter p) (m : α) :
    Marks p ((t.coalesce waiting).accept m) (some m) := by
  simp [Marks, Traffic.accept, Traffic.coalesce, List.filter_append, h]

theorem refuse (h : t.written.filter p = t.accepted.filter p) :
    Marks p (t.coalesce waiting).fail .none := by
  simp [Marks, Traffic.fail, Traffic.coalesce, h]

theorem flush {m : α} (h : Marks p t (some m)) : Marks p (t.write m) .none := by
  simpa [Marks, Traffic.write] using h

theorem lose (h : t.written.filter p = t.accepted.filter p) : Marks p t.lose .none := by
  simp [Marks, Traffic.lose, Traffic.fail, h]

end Marks

end Foundation.Latest
