import Mathlib

/-!
Operands joined by left-associative operators, and the loop that reads them.

* `Chain`: the left-recursive rule;
* `sound_chain`: what the loop reads is a chain;
* `complete_chain`: it reads every chain, up to where no operator follows;
* `avoids_chain`: it fails as its operands do.

A parser takes tokens and a state of its own.
-/

namespace Foundation.Chains

variable {τ κ α ε : Type*}

abbrev Parser (τ κ α ε : Type*) := List τ → κ → Except ε (α × List τ × κ)

section Rule

variable (operator : τ → Option (α → α → α))

/-- An operand, or a chain, an operator and an operand. -/
inductive Chain (Operand : List τ → α → Prop) : List τ → α → Prop
  | operand {ts : List τ} {v : α} : Operand ts v → Chain Operand ts v
  | operator {ts us : List τ} {t : τ} {v w : α} {op : α → α → α} : Chain Operand ts v →
      operator t = some op → Operand us w → Chain Operand (ts ++ t :: us) (op v w)

variable (operand : Parser τ κ α ε)

/-- The loop after the first operand; every turn takes an operator. -/
def chainLoop : Nat → α → Parser τ κ α ε
  | 0, lhs, ts, k => .ok (lhs, ts, k)
  | _ + 1, lhs, [], k => .ok (lhs, [], k)
  | fuel + 1, lhs, t :: ts, k =>
    match operator t with
    | none => .ok (lhs, t :: ts, k)
    | some op =>
      match operand ts k with
      | .error e => .error e
      | .ok (rhs, ts, k) => chainLoop fuel (op lhs rhs) ts k

def chain : Parser τ κ α ε := fun ts k =>
  match operand ts k with
  | .error e => .error e
  | .ok (lhs, ts, k) => chainLoop operator operand ts.length lhs ts k

end Rule

variable {operator : τ → Option (α → α → α)} {operand : Parser τ κ α ε}
  {P : List τ → α → Prop}

/-! ## Soundness -/

/-- What the parser takes off the tokens is derived by `P`; its state grows. -/
def Sound [Preorder κ] (P : List τ → α → Prop) (f : Parser τ κ α ε) : Prop :=
  ∀ ⦃ts k v rest k'⦄, f ts k = .ok (v, rest, k') → k ≤ k' ∧ ∃ us, ts = us ++ rest ∧ P us v

theorem chainLoop_sound [Preorder κ] (h : Sound P operand) {fuel : Nat} {lhs v : α}
    {us ts rest : List τ} {k k' : κ} (hus : Chain operator P us lhs)
    (hloop : chainLoop operator operand fuel lhs ts k = .ok (v, rest, k')) :
    k ≤ k' ∧ ∃ ws, ts = ws ++ rest ∧ Chain operator P (us ++ ws) v := by
  induction fuel generalizing lhs us ts k with
  | zero =>
    obtain ⟨rfl, rfl, rfl⟩ : lhs = v ∧ ts = rest ∧ k = k' := by simpa [chainLoop] using hloop
    exact ⟨le_refl _, [], rfl, by rwa [List.append_nil]⟩
  | succ fuel ih =>
    cases ts with
    | nil =>
      obtain ⟨rfl, rfl, rfl⟩ : lhs = v ∧ [] = rest ∧ k = k' := by simpa [chainLoop] using hloop
      exact ⟨le_refl _, [], rfl, by rwa [List.append_nil]⟩
    | cons t ts =>
      rw [chainLoop] at hloop
      split at hloop
      next =>
        obtain ⟨rfl, rfl, rfl⟩ : lhs = v ∧ t :: ts = rest ∧ k = k' := by simpa using hloop
        exact ⟨le_refl _, [], rfl, by rwa [List.append_nil]⟩
      next op hop =>
        split at hloop
        next => cases hloop
        next rhs ts' k₁ hoperand =>
          obtain ⟨hk, ws, rfl, hws⟩ := h hoperand
          obtain ⟨hk', xs, rfl, hxs⟩ := ih (.operator hus hop hws) hloop
          refine ⟨hk.trans hk', t :: (ws ++ xs), by simp, ?_⟩
          rwa [List.append_assoc, List.cons_append] at hxs

/-- **The loop reads chains.** -/
theorem sound_chain [Preorder κ] (h : Sound P operand) :
    Sound (Chain operator P) (chain operator operand) := by
  intro ts k v rest k' hchain
  rw [chain] at hchain
  split at hchain
  next => cases hchain
  next lhs ts' k₁ hoperand =>
    obtain ⟨hk, us, rfl, hus⟩ := h hoperand
    obtain ⟨hk', ws, rfl, hws⟩ := chainLoop_sound h (.operand hus) hchain
    exact ⟨hk.trans hk', us ++ ws, by rw [List.append_assoc], hws⟩

/-! ## Failures -/

theorem avoids_chainLoop [Preorder κ] (hsound : Sound P operand) {e : ε} {k₀ : κ}
    (h : ∀ ts k, k₀ ≤ k → operand ts k ≠ .error e) {fuel : Nat} {lhs : α} {ts : List τ} {k : κ}
    (hk : k₀ ≤ k) : chainLoop operator operand fuel lhs ts k ≠ .error e := by
  induction fuel generalizing lhs ts k with
  | zero => simp [chainLoop]
  | succ fuel ih =>
    cases ts with
    | nil => simp [chainLoop]
    | cons t ts =>
      rw [chainLoop]
      split
      next => simp
      next op hop =>
        split
        next e' hoperand =>
          intro he
          obtain rfl := Except.error.inj he
          exact h ts k hk hoperand
        next rhs ts' k' hoperand => exact ih (hk.trans (hsound hoperand).1)

/-- A failure that no operand has is none of the chain. -/
theorem avoids_chain [Preorder κ] (hsound : Sound P operand) {e : ε} {k₀ : κ}
    (h : ∀ ts k, k₀ ≤ k → operand ts k ≠ .error e) :
    ∀ ts k, k₀ ≤ k → chain operator operand ts k ≠ .error e := by
  intro ts k hk
  rw [chain]
  split
  next e' hoperand =>
    intro he
    obtain rfl := Except.error.inj he
    exact h ts k hk hoperand
  next lhs ts' k' hoperand => exact avoids_chainLoop hsound h (hk.trans (hsound hoperand).1)

/-! ## Completeness -/

/-- The parser reads what `P` derives up to a text that `Stops` it, or fails with
`e`; the tokens that `p` counts bound how its state grows. -/
def Complete (e : ε) (p : τ → Bool) (limit : Nat) (Stops : List τ → Prop)
    (P : List τ → α → Prop) (f : Parser τ Nat α ε) : Prop :=
  ∀ ⦃us v rest k⦄, P us v → Stops rest → k + us.countP p ≤ limit →
    f (us ++ rest) k = .error e ∨
      ∃ k' ≤ k + us.countP p, f (us ++ rest) k = .ok (v, rest, k')

variable {e : ε} {p : τ → Bool} {limit : Nat} {Stops : List τ → Prop}
  {operand : Parser τ Nat α ε}

/-- After a chain the loop goes on. -/
theorem chain_eq_loop (h : Complete e p limit Stops P operand)
    (hstops : ∀ t ts, (operator t).isSome → Stops (t :: ts)) {us : List τ} {v : α}
    (hus : Chain operator P us v) {rest : List τ} {k : Nat} (hrest : Stops rest)
    (hk : k + us.countP p ≤ limit) :
    chain operator operand (us ++ rest) k = .error e ∨
      ∃ k' ≤ k + us.countP p, ∃ fuel ≥ rest.length,
        chain operator operand (us ++ rest) k = chainLoop operator operand fuel v rest k' := by
  induction hus generalizing rest with
  | operand hus =>
    rcases h hus hrest hk with hfail | ⟨k', hk', hok⟩
    · exact .inl (by simp [chain, hfail])
    · exact .inr ⟨k', hk', rest.length, Nat.le_refl _, by simp [chain, hok]⟩
  | @operator ts ws t v w op _ hop hws ih =>
    have hcount : (ts ++ t :: ws).countP p = ts.countP p + [t].countP p + ws.countP p := by
      rw [List.append_cons, List.countP_append, List.countP_append]
    rw [hcount] at hk ⊢
    have hhead := ih (hstops t (ws ++ rest) (by simp [hop])) (by omega)
    rw [List.append_assoc, List.cons_append]
    rcases hhead with hfail | ⟨k₁, hk₁, fuel, hfuel, hloop⟩
    · exact .inl hfail
    · rw [hloop]
      rw [List.length_cons, List.length_append] at hfuel
      cases fuel with
      | zero => omega
      | succ fuel =>
        rcases @h ws w rest k₁ hws hrest (by omega) with hfail | ⟨k₂, hk₂, hok⟩
        · exact .inl (by simp [chainLoop, hop, hfail])
        · refine .inr ⟨k₂, by omega, fuel, by omega, ?_⟩
          simp [chainLoop, hop, hok]

/-- **The loop reads every chain** that no further operator follows. -/
theorem complete_chain (h : Complete e p limit Stops P operand)
    (hstops : ∀ t ts, (operator t).isSome → Stops (t :: ts)) :
    Complete e p limit (fun rest => Stops rest ∧ ∀ t ∈ rest.head?, operator t = none)
      (Chain operator P) (chain operator operand) := by
  intro us v rest k hus ⟨hrest, hend⟩ hk
  rcases chain_eq_loop h hstops hus hrest hk with hfail | ⟨k', hk', fuel, -, hloop⟩
  · exact .inl hfail
  · refine .inr ⟨k', hk', ?_⟩
    rw [hloop]
    cases fuel with
    | zero => rfl
    | succ fuel =>
      cases rest with
      | nil => rfl
      | cons t rest => simp [chainLoop, hend t (by simp)]

end Foundation.Chains
