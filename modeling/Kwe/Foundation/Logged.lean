import Mathlib

/-!
Computations that may fail and that note what they ask for, whether or not they
fail in the end.

* `bind_result_iff`: a sequence gives what its last step gives;
* `length_bind_le`, `length_forEach_le`: how much is asked for.
-/

namespace Foundation

structure Logged (ω α : Type) where
  result : Option α
  log : List ω

namespace Logged

variable {ω α β : Type}

def bind (x : Logged ω α) (f : α → Logged ω β) : Logged ω β :=
  match x.result with
  | none => ⟨none, x.log⟩
  | some a => ⟨(f a).result, x.log ++ (f a).log⟩

/-- A value, or a failure, that asks for nothing. -/
def ofOption (value : Option α) : Logged ω α := ⟨value, []⟩

instance : Monad (Logged ω) where
  pure a := ofOption (some a)
  bind := bind

theorem pure_result (a : α) : (pure a : Logged ω α).result = some a := rfl

theorem pure_log (a : α) : (pure a : Logged ω α).log = [] := rfl

theorem bind_result (x : Logged ω α) (f : α → Logged ω β) :
    (x >>= f).result = x.result.bind fun a => (f a).result := by
  show (x.bind f).result = _
  unfold bind
  cases x.result <;> rfl

theorem bind_result_iff {x : Logged ω α} {f : α → Logged ω β} {b : β} :
    (x >>= f).result = some b ↔ ∃ a, x.result = some a ∧ (f a).result = some b := by
  rw [bind_result, Option.bind_eq_some_iff]

theorem length_bind_le {x : Logged ω α} {f : α → Logged ω β} {m n : Nat}
    (hx : x.log.length ≤ m) (hf : ∀ a, (f a).log.length ≤ n) :
    (x >>= f).log.length ≤ m + n := by
  show (x.bind f).log.length ≤ _
  unfold bind
  cases x.result with
  | none => exact Nat.le_trans hx (Nat.le_add_right m n)
  | some a =>
    rw [List.length_append]
    exact Nat.add_le_add hx (hf a)

/-- What asks for nothing first asks for what comes after. -/
theorem length_ofOption_bind_le {value : Option α} {f : α → Logged ω β} {n : Nat}
    (hf : ∀ a, (f a).log.length ≤ n) : (ofOption value >>= f).log.length ≤ n := by
  have h := length_bind_le (x := (ofOption value : Logged ω α)) (m := 0) (Nat.le_refl 0) hf
  rwa [Nat.zero_add] at h

/-- One after another, until one fails. -/
def forEach (f : α → Logged ω β) : List α → Logged ω (List β)
  | [] => pure []
  | a :: as => do
    let b ← f a
    let bs ← forEach f as
    pure (b :: bs)

theorem forEach_result_iff {f : α → Logged ω β} {as : List α} {bs : List β} :
    (forEach f as).result = some bs ↔ List.Forall₂ (fun a b => (f a).result = some b) as bs := by
  induction as generalizing bs with
  | nil =>
    rw [forEach, pure_result, Option.some.injEq]
    constructor
    · rintro rfl
      exact .nil
    · rintro ⟨⟩
      rfl
  | cons a as ih =>
    rw [forEach, bind_result_iff]
    constructor
    · rintro ⟨b, hb, h⟩
      obtain ⟨rest, hrest, h⟩ := bind_result_iff.mp h
      obtain rfl := Option.some.inj h
      exact .cons hb (ih.mp hrest)
    · rintro (_ | ⟨hb, hrest⟩)
      exact ⟨_, hb, bind_result_iff.mpr ⟨_, ih.mpr hrest, rfl⟩⟩

theorem length_forEach_le {f : α → Logged ω β} {n : Nat} (hf : ∀ a, (f a).log.length ≤ n)
    (as : List α) : (forEach f as).log.length ≤ as.length * n := by
  induction as with
  | nil => exact Nat.zero_le _
  | cons a as ih =>
    rw [forEach, List.length_cons, Nat.add_mul, Nat.one_mul, Nat.add_comm]
    refine length_bind_le (hf a) fun b => ?_
    exact length_bind_le (n := 0) ih fun bs => Nat.le_refl 0

end Logged

end Foundation
