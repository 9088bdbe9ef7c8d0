import Kwe.Shader.Conditions

/-!
What `evaluate_if_expr` returns is the value of the expression.

* `tokenize_lexes`, `lexes_tokenize`: the tokens of a text;
* `parser_sound`, `parser_complete`: the parser and the grammar;
* `parser_callDepth`: how deep its calls nest;
* `evaluateIfExpr_evaluates`: the values of expressions.
-/

namespace Kwe.Shader

open Foundation Foundation.Chains

/-! ## Words -/

/-- Every string of digits is a number. -/
def anyDigits (_ : List Char) : Bool := true

/-- The integers that fit an `i64`. -/
def Token.Fits : Token → Prop
  | .num n => n < 2 ^ 63
  | _ => True

theorem span_word {p : Char → Bool} {word rest : List Char} (hword : ∀ c ∈ word, p c = true)
    (hrest : ∀ c ∈ rest.head?, p c = false) :
    (word ++ rest).takeWhile p = word ∧ (word ++ rest).dropWhile p = rest := by
  rw [List.takeWhile_append_of_pos hword, List.dropWhile_append_of_pos hword]
  cases rest with
  | nil => simp
  | cons c rest =>
    have hc : p c = false := hrest c (by simp)
    simp [hc]

theorem head_dropWhile {p : Char → Bool} (text : List Char) :
    ∀ c ∈ (text.dropWhile p).head?, p c = false := by
  intro c hc
  have hnot := List.head?_dropWhile_not p text
  rw [Option.mem_def] at hc
  rwa [hc] at hnot

/-- A token that is no word begins with none of its characters. -/
theorem nextToken_word {c : Char} {rest : List Char} (h : isWordChar c = true) :
    nextToken c rest = wordToken c rest := by
  unfold nextToken
  split <;> first | rfl | exact absurd h (by decide)

example : nextToken '!' ['=', 'A'] = some (.ne, ['A']) := by
  unfold nextToken
  split <;> simp_all

theorem isWordChar_of_isDigit {c : Char} (h : c.isDigit = true) : isWordChar c = true := by
  simp [isWordChar, Char.isAlphanum, h]

theorem isWordChar_of_isWordStart {c : Char} (h : isWordStart c = true) : isWordChar c = true := by
  simp only [isWordStart, Bool.or_eq_true, decide_eq_true_eq] at h
  rcases h with h | h <;> simp [isWordChar, Char.isAlphanum, h]

theorem isWhitespace_of_word {c : Char} (h : isWordChar c = true) : isWhitespace c = false := by
  rw [Bool.eq_false_iff]
  intro hspace
  have hcode : c.toNat ≤ 32 := by
    simp only [isWhitespace, Bool.or_eq_true, Bool.and_eq_true, decide_eq_true_eq] at hspace
    rcases hspace with hspace | rfl
    · omega
    · decide
  have hword : ∀ n ≤ 32, isWordChar (Char.ofNat n) = false := by decide
  have hc := hword _ hcode
  rw [Char.ofNat_toNat, h] at hc
  cases hc

theorem isDigit_of_isWordStart {c : Char} (h : isWordStart c = true) : ¬ c.isDigit = true := by
  intro hdigit
  obtain ⟨hlow, hhigh⟩ := Char.isDigit_iff_toNat.mp hdigit
  have hdigits : ∀ n < 58, 48 ≤ n → isWordStart (Char.ofNat n) = false := by decide
  have hc := hdigits c.toNat (Nat.lt_succ_of_le hhigh) hlow
  rw [Char.ofNat_toNat, h] at hc
  cases hc

theorem wordToken_spells {c : Char} {rest text : List Char} {t : Token}
    (h : wordToken c rest = some (t, text)) :
    ∃ word, c :: rest = word ++ text ∧ Spells anyDigits t word ∧
      ∀ d ∈ text.head?, t.continues d = false := by
  unfold wordToken at h
  split at h
  next hdigit =>
    dsimp only at h
    split at h
    next =>
      obtain ⟨rfl, rfl⟩ := Prod.mk.inj (Option.some.inj h)
      refine ⟨(c :: rest).takeWhile Char.isDigit, (List.takeWhile_append_dropWhile ..).symm,
        .num ?_ (fun d hd => List.mem_takeWhile_imp hd) rfl, head_dropWhile _⟩
      simp [hdigit]
    next => cases h
  next =>
    split at h
    next hstart =>
      obtain ⟨rfl, rfl⟩ := Prod.mk.inj (Option.some.inj h)
      refine ⟨(c :: rest).takeWhile isWordChar, (List.takeWhile_append_dropWhile ..).symm, ?_,
        head_dropWhile _⟩
      rw [List.takeWhile_cons_of_pos (isWordChar_of_isWordStart hstart)]
      exact .ident hstart fun d hd => List.mem_takeWhile_imp hd
    next => cases h

/-- An operator that `=` would make longer. -/
theorem head_ne_eq {text : List Char} (h : ∀ rest, text = '=' :: rest → False) :
    ∀ d ∈ text.head?, decide (d = '=') = false := by
  intro d hd
  cases text with
  | nil => simp at hd
  | cons c text =>
    obtain rfl : c = d := by simpa using hd
    exact decide_eq_false fun heq => h text (by rw [heq])

theorem nextToken_spells {c : Char} {rest text : List Char} {t : Token}
    (h : nextToken c rest = some (t, text)) :
    ∃ word, c :: rest = word ++ text ∧ Spells anyDigits t word ∧
      ∀ d ∈ text.head?, t.continues d = false := by
  unfold nextToken at h
  split at h
  case h_12 => exact wordToken_spells h
  all_goals obtain ⟨rfl, rfl⟩ := Prod.mk.inj (Option.some.inj h)
  case h_1 => exact ⟨['('], rfl, .lparen, fun _ _ => rfl⟩
  case h_2 => exact ⟨[')'], rfl, .rparen, fun _ _ => rfl⟩
  case h_3 => exact ⟨['&', '&'], rfl, .and, fun _ _ => rfl⟩
  case h_4 => exact ⟨['|', '|'], rfl, .or, fun _ _ => rfl⟩
  case h_5 => exact ⟨['=', '='], rfl, .eq, fun _ _ => rfl⟩
  case h_6 => exact ⟨['!', '='], rfl, .ne, fun _ _ => rfl⟩
  case h_8 => exact ⟨['<', '='], rfl, .le, fun _ _ => rfl⟩
  case h_10 => exact ⟨['>', '='], rfl, .ge, fun _ _ => rfl⟩
  case h_7 hne => exact ⟨['!'], rfl, .not, head_ne_eq hne⟩
  case h_9 hne => exact ⟨['<'], rfl, .lt, head_ne_eq hne⟩
  case h_11 hne => exact ⟨['>'], rfl, .gt, head_ne_eq hne⟩

theorem nextToken_fits {c : Char} {rest text : List Char} {t : Token}
    (h : nextToken c rest = some (t, text)) : t.Fits := by
  unfold nextToken at h
  split at h
  case h_12 =>
    unfold wordToken at h
    split at h
    next =>
      dsimp only at h
      split at h
      next hlt =>
        obtain ⟨rfl, -⟩ := Prod.mk.inj (Option.some.inj h)
        exact hlt
      next => cases h
    next =>
      split at h
      next =>
        obtain ⟨rfl, -⟩ := Prod.mk.inj (Option.some.inj h)
        trivial
      next => cases h
  all_goals
    obtain ⟨rfl, -⟩ := Prod.mk.inj (Option.some.inj h)
    trivial

/-- The token that a text begins with is the next one. -/
theorem nextToken_of_spells {t : Token} {word text : List Char} (h : Spells anyDigits t word)
    (hfits : t.Fits) (hend : ∀ d ∈ text.head?, t.continues d = false) :
    ∃ c tail, word = c :: tail ∧ isWhitespace c = false ∧
      nextToken c (tail ++ text) = some (t, text) := by
  cases h with
  | @num digits hne hdigits _ =>
    obtain ⟨d, ds, rfl⟩ := List.exists_cons_of_ne_nil hne
    have hd := hdigits d List.mem_cons_self
    obtain ⟨htake, hdrop⟩ := span_word hdigits hend
    rw [List.cons_append] at htake hdrop
    refine ⟨d, ds, rfl, isWhitespace_of_word (isWordChar_of_isDigit hd), ?_⟩
    rw [nextToken_word (isWordChar_of_isDigit hd), wordToken, if_pos hd, htake, hdrop]
    exact if_pos hfits
  | @ident c word hstart hword =>
    have hc := isWordChar_of_isWordStart hstart
    obtain ⟨htake, hdrop⟩ := span_word (List.forall_mem_cons.mpr ⟨hc, hword⟩) hend
    rw [List.cons_append] at htake hdrop
    refine ⟨c, word, rfl, isWhitespace_of_word hc, ?_⟩
    rw [nextToken_word hc, wordToken, if_neg (isDigit_of_isWordStart hstart), if_pos hstart, htake,
      hdrop]
  | not => exact ⟨_, _, rfl, rfl, by cases text <;> simp_all [nextToken, Token.continues]⟩
  | lt => exact ⟨_, _, rfl, rfl, by cases text <;> simp_all [nextToken, Token.continues]⟩
  | gt => exact ⟨_, _, rfl, rfl, by cases text <;> simp_all [nextToken, Token.continues]⟩
  | and | or | eq | ne | le | ge | lparen | rparen => exact ⟨_, _, rfl, rfl, rfl⟩

/-! ## The tokens of a text -/

theorem tokenizeFrom_lexes {fuel count : Nat} {text : List Char} {ts : List Token}
    (h : tokenizeFrom fuel count text = some ts) : Lexes anyDigits text ts := by
  induction fuel generalizing count text ts with
  | zero =>
    cases text with
    | nil =>
      obtain rfl : [] = ts := by simpa [tokenizeFrom] using h
      exact .nil
    | cons c rest => simp [tokenizeFrom] at h
  | succ fuel ih =>
    cases text with
    | nil =>
      obtain rfl : [] = ts := by simpa [tokenizeFrom] using h
      exact .nil
    | cons c rest =>
      rw [tokenizeFrom] at h
      split at h
      next hblank => exact .blank hblank (ih h)
      next =>
        split at h
        next => cases h
        next =>
          split at h
          next => cases h
          next t text' hnext =>
            obtain ⟨ts', hts', rfl⟩ := Option.map_eq_some_iff.mp h
            obtain ⟨word, htext, hspells, hend⟩ := nextToken_spells hnext
            rw [htext]
            exact .token hspells hend (ih hts')

/-- **The tokenizer lexes.** -/
theorem tokenize_lexes {expr : List Char} {ts : List Token} (h : tokenize expr = some ts) :
    Lexes anyDigits expr ts := tokenizeFrom_lexes h

theorem lexes_tokenizeFrom {text : List Char} {ts : List Token} (h : Lexes anyDigits text ts)
    (hfits : ∀ t ∈ ts, t.Fits) {fuel count : Nat} (hfuel : text.length ≤ fuel)
    (hcount : count + ts.length ≤ maxIfExprTokens) : tokenizeFrom fuel count text = some ts := by
  induction h generalizing fuel count with
  | nil => cases fuel <;> rfl
  | blank hblank _ ih =>
    cases fuel with
    | zero => simp at hfuel
    | succ fuel =>
      rw [tokenizeFrom, if_pos hblank]
      exact ih hfits (Nat.le_of_succ_le_succ hfuel) hcount
  | token hspells hend _ ih =>
    obtain ⟨ht, hts⟩ := List.forall_mem_cons.mp hfits
    obtain ⟨c, tail, rfl, hblank, hnext⟩ := nextToken_of_spells hspells ht hend
    rw [List.cons_append, List.length_cons, List.length_append] at hfuel
    rw [List.length_cons] at hcount
    cases fuel with
    | zero => omega
    | succ fuel =>
      have hrest := @ih hts fuel (count + 1) (by omega) (by omega)
      rw [List.cons_append, tokenizeFrom, if_neg (by simp [hblank]), if_neg (by omega), hnext]
      simp [hrest]

/-- **It finds the tokens of a text**, unless they are too many or too large. -/
theorem lexes_tokenize {expr : List Char} {ts : List Token} (h : Lexes anyDigits expr ts)
    (hfits : ∀ t ∈ ts, t.Fits) (hcount : ts.length ≤ maxIfExprTokens) :
    tokenize expr = some ts :=
  lexes_tokenizeFrom h hfits (Nat.le_refl _) (by omega)

/-! ## Levels -/

namespace Level

def operator : Level → Token → Option Operator
  | .or => orOperator
  | .and => andOperator
  | .eq => eqOperator
  | .rel => relOperator
  | _ => fun _ => none

/-- The level of the operands. -/
def operand : Level → Level
  | .or => .and
  | .and => .eq
  | .eq => .rel
  | .rel => .unary
  | _ => .primary

def isChain : Level → Bool
  | .unary | .primary => false
  | _ => true

variable (combosUpper : Combos)

def parser : Level → Nat → IfParser
  | .or => orExpr combosUpper
  | .and => andExpr combosUpper
  | .eq => eqExpr combosUpper
  | .rel => relExpr combosUpper
  | .unary => unaryExpr combosUpper
  | .primary => primaryExpr combosUpper

variable {combosUpper}

theorem parser_zero (l : Level) (ts : List Token) (depth : Nat) :
    l.parser combosUpper 0 ts depth = .error .callDepth := by
  cases l <;> rfl

/-- The levels of operators but the first, which counts as a group. -/
theorem parser_chain {l : Level} (h : l.isChain = true) (hor : l ≠ .or) (calls : Nat)
    (ts : List Token) (depth : Nat) : l.parser combosUpper (calls + 1) ts depth =
      chain l.operator (l.operand.parser combosUpper calls) ts depth := by
  cases l with
  | or => exact absurd rfl hor
  | and | eq | rel => rfl
  | unary | primary => cases h

theorem parser_or (calls : Nat) (ts : List Token) (depth : Nat) :
    Level.or.parser combosUpper (calls + 1) ts depth =
      if maxIfExprDepth < depth + 1 then .error .refused
      else chain orOperator (Level.and.parser combosUpper calls) ts (depth + 1) := rfl

/-- The rules of a level of operators are those of a chain. -/
theorem derives_of_chain {l : Level} (hl : l.isChain = true) {ts : List Token} {v : Int}
    (h : Chain l.operator (Derives combosUpper l.operand) ts v) : Derives combosUpper l ts v := by
  induction h with
  | operand h =>
    cases l with
    | or => exact .orOperand h
    | and => exact .andOperand h
    | eq => exact .eqOperand h
    | rel => exact .relOperand h
    | unary | primary => cases hl
  | @operator ts us t v w op _ hop hus ih =>
    cases l with
    | or =>
      cases t <;> cases hop
      exact .or ih hus
    | and =>
      cases t <;> cases hop
      exact .and ih hus
    | eq =>
      cases t <;> cases hop
      · exact .eq ih hus
      · exact .ne ih hus
    | rel =>
      cases t <;> cases hop
      · exact .lt ih hus
      · exact .le ih hus
      · exact .gt ih hus
      · exact .ge ih hus
    | unary | primary => cases hl

theorem chain_of_derives {l : Level} (hl : l.isChain = true) {ts : List Token} {v : Int}
    (h : Derives combosUpper l ts v) : Chain l.operator (Derives combosUpper l.operand) ts v := by
  induction h with
  | orOperand h | andOperand h | eqOperand h | relOperand h => exact .operand h
  | or _ h ih =>
    have hchain := Chain.operator (ih hl) (show Level.or.operator .or = some _ from rfl) h
    exact hchain
  | and _ h ih =>
    have hchain := Chain.operator (ih hl) (show Level.and.operator .and = some _ from rfl) h
    exact hchain
  | eq _ h ih =>
    have hchain := Chain.operator (ih hl) (show Level.eq.operator .eq = some _ from rfl) h
    exact hchain
  | ne _ h ih =>
    have hchain := Chain.operator (ih hl) (show Level.eq.operator .ne = some _ from rfl) h
    exact hchain
  | lt _ h ih =>
    have hchain := Chain.operator (ih hl) (show Level.rel.operator .lt = some _ from rfl) h
    exact hchain
  | le _ h ih =>
    have hchain := Chain.operator (ih hl) (show Level.rel.operator .le = some _ from rfl) h
    exact hchain
  | gt _ h ih =>
    have hchain := Chain.operator (ih hl) (show Level.rel.operator .gt = some _ from rfl) h
    exact hchain
  | ge _ h ih =>
    have hchain := Chain.operator (ih hl) (show Level.rel.operator .ge = some _ from rfl) h
    exact hchain
  | unaryOperand | not | num | ident | defined | definedIn | paren => cases hl

end Level

/-! ## Soundness -/

section Parser

variable {combosUpper : Combos}

theorem definedExpr_sound {ts rest : List Token} {v : Int} {depth depth' : Nat}
    (h : definedExpr combosUpper ts depth = .ok (v, rest, depth')) :
    depth ≤ depth' ∧ ∃ us, ts = us ++ rest ∧
      Derives combosUpper .primary (.ident "defined".toList :: us) v := by
  unfold definedExpr at h
  split at h
  next target rest' =>
    obtain ⟨rfl, rfl, rfl⟩ : _ = v ∧ rest' = rest ∧ depth = depth' := by simpa using h
    exact ⟨Nat.le_refl _, [.lparen, .ident target, .rparen], rfl, .definedIn target⟩
  next target rest' =>
    obtain ⟨rfl, rfl, rfl⟩ : _ = v ∧ rest' = rest ∧ depth = depth' := by simpa using h
    exact ⟨Nat.le_refl _, [.ident target], rfl, .defined target⟩
  next => cases h

theorem unaryExpr_not (calls : Nat) (ts : List Token) (depth : Nat) :
    unaryExpr combosUpper (calls + 1) (.not :: ts) depth =
      if maxIfExprDepth < depth + 1 then .error .refused
      else
        match unaryExpr combosUpper calls ts (depth + 1) with
        | .error e => .error e
        | .ok (v, ts, depth) => .ok (ofBool (v = 0), ts, depth) := rfl

theorem unaryExpr_primary (calls : Nat) {ts : List Token} (h : ts.head? ≠ some .not) (depth : Nat) :
    unaryExpr combosUpper (calls + 1) ts depth = primaryExpr combosUpper calls ts depth := by
  cases ts with
  | nil => rfl
  | cons t ts => cases t <;> first | rfl | exact absurd rfl h

theorem primaryExpr_succ (calls : Nat) (ts : List Token) (depth : Nat) :
    primaryExpr combosUpper (calls + 1) ts depth =
      match ts with
      | .num n :: ts => .ok (n, ts, depth)
      | .ident name :: ts =>
        if name = "defined".toList then definedExpr combosUpper ts depth
        else .ok (lookup combosUpper name, ts, depth)
      | .lparen :: ts =>
        match orExpr combosUpper calls ts depth with
        | .error e => .error e
        | .ok (v, .rparen :: ts, depth) => .ok (v, ts, depth)
        | .ok _ => .error .refused
      | _ => .error .refused := by
  cases ts with
  | nil => rfl
  | cons t ts => cases t <;> rfl

theorem unaryExpr_sound {calls : Nat}
    (hunary : Sound (Derives combosUpper .unary) (unaryExpr combosUpper calls))
    (hprimary : Sound (Derives combosUpper .primary) (primaryExpr combosUpper calls)) :
    Sound (Derives combosUpper .unary) (unaryExpr combosUpper (calls + 1)) := by
  intro ts k v rest k' h
  by_cases hnot : ts.head? = some .not
  · obtain ⟨ts, rfl⟩ := List.head?_eq_some_iff.mp hnot
    rw [unaryExpr_not] at h
    split at h
    next => cases h
    next =>
      split at h
      next => cases h
      next w ts₁ k₁ hw =>
        obtain ⟨rfl, rfl, rfl⟩ : _ = v ∧ ts₁ = rest ∧ k₁ = k' := by simpa using h
        obtain ⟨hk, us, rfl, hus⟩ := hunary hw
        exact ⟨Nat.le_of_succ_le hk, .not :: us, rfl, .not hus⟩
  · rw [unaryExpr_primary calls hnot] at h
    obtain ⟨hk, us, hts, hus⟩ := hprimary h
    exact ⟨hk, us, hts, .unaryOperand hus⟩

theorem primaryExpr_sound {calls : Nat}
    (hor : Sound (Derives combosUpper .or) (orExpr combosUpper calls)) :
    Sound (Derives combosUpper .primary) (primaryExpr combosUpper (calls + 1)) := by
  intro ts k v rest k' h
  rw [primaryExpr_succ] at h
  split at h
  next n ts' =>
    obtain ⟨rfl, rfl, rfl⟩ : _ = v ∧ ts' = rest ∧ k = k' := by simpa using h
    exact ⟨Nat.le_refl _, [.num n], rfl, .num n⟩
  next name ts' =>
    split at h
    next hdefined =>
      subst hdefined
      obtain ⟨hk, us, rfl, hus⟩ := definedExpr_sound h
      exact ⟨hk, .ident "defined".toList :: us, rfl, hus⟩
    next hname =>
      obtain ⟨rfl, rfl, rfl⟩ : _ = v ∧ ts' = rest ∧ k = k' := by simpa using h
      exact ⟨Nat.le_refl _, [.ident name], rfl, .ident hname⟩
  next ts' =>
    split at h
    next => cases h
    next w ts₁ k₁ hw =>
      obtain ⟨rfl, rfl, rfl⟩ : w = v ∧ ts₁ = rest ∧ k₁ = k' := by simpa using h
      obtain ⟨hk, us, rfl, hus⟩ := hor hw
      exact ⟨hk, .lparen :: us ++ [.rparen], by simp, .paren hus⟩
    next => cases h
  next => cases h

/-- **The parser is sound** at every level, by induction on its calls. -/
theorem parser_sound (calls : Nat) :
    ∀ l : Level, Sound (Derives combosUpper l) (l.parser combosUpper calls) := by
  induction calls with
  | zero =>
    intro l ts k v rest k' h
    rw [Level.parser_zero] at h
    cases h
  | succ calls ih =>
    intro l
    by_cases hl : l.isChain = true
    · intro ts k v rest k' h
      have hchain : Sound (Chain l.operator (Derives combosUpper l.operand)) _ :=
        sound_chain (ih l.operand)
      by_cases hor : l = .or
      · subst hor
        rw [Level.parser_or] at h
        split at h
        next => cases h
        next =>
          obtain ⟨hk, us, hts, hus⟩ := hchain h
          exact ⟨Nat.le_of_succ_le hk, us, hts, Level.derives_of_chain hl hus⟩
      · rw [Level.parser_chain hl hor] at h
        obtain ⟨hk, us, hts, hus⟩ := hchain h
        exact ⟨hk, us, hts, Level.derives_of_chain hl hus⟩
    · cases l with
      | or | and | eq | rel => exact absurd rfl hl
      | unary => exact unaryExpr_sound (ih .unary) (ih .primary)
      | primary => exact primaryExpr_sound (ih .or)

/-! ## How deep the calls nest -/

/-- The calls that a level may need at `depth`; each of the `maxIfExprDepth`
groups and negations takes six at most. -/
def Level.calls : Level → Nat → Nat
  | .or, depth => 6 * (maxIfExprDepth - depth) + 1
  | .primary, depth => 6 * (maxIfExprDepth - depth) + 2
  | .unary, depth => 6 * (maxIfExprDepth - depth) + 3
  | .rel, depth => 6 * (maxIfExprDepth - depth) + 4
  | .eq, depth => 6 * (maxIfExprDepth - depth) + 5
  | .and, depth => 6 * (maxIfExprDepth - depth) + 6

theorem definedExpr_ne (ts : List Token) (depth : Nat) :
    definedExpr combosUpper ts depth ≠ .error .callDepth := by
  unfold definedExpr
  split <;> simp

theorem unaryExpr_callDepth {calls : Nat}
    (hunary : ∀ ts depth, Level.unary.calls depth ≤ calls →
      unaryExpr combosUpper calls ts depth ≠ .error .callDepth)
    (hprimary : ∀ ts depth, Level.primary.calls depth ≤ calls →
      primaryExpr combosUpper calls ts depth ≠ .error .callDepth)
    (ts : List Token) (depth : Nat) (hcalls : Level.unary.calls depth ≤ calls + 1) :
    unaryExpr combosUpper (calls + 1) ts depth ≠ .error .callDepth := by
  rw [Level.calls, maxIfExprDepth] at hcalls
  by_cases hnot : ts.head? = some .not
  · obtain ⟨ts, rfl⟩ := List.head?_eq_some_iff.mp hnot
    rw [unaryExpr_not]
    split
    next => simp
    next hdepth =>
      rw [maxIfExprDepth] at hdepth
      have hrest := hunary ts (depth + 1) (by rw [Level.calls, maxIfExprDepth]; omega)
      split
      next e he =>
        intro heq
        obtain rfl := Except.error.inj heq
        exact hrest he
      next => simp
  · rw [unaryExpr_primary calls hnot]
    exact hprimary ts depth (by rw [Level.calls, maxIfExprDepth]; omega)

theorem primaryExpr_callDepth {calls : Nat}
    (hor : ∀ ts depth, Level.or.calls depth ≤ calls →
      orExpr combosUpper calls ts depth ≠ .error .callDepth)
    (ts : List Token) (depth : Nat) (hcalls : Level.primary.calls depth ≤ calls + 1) :
    primaryExpr combosUpper (calls + 1) ts depth ≠ .error .callDepth := by
  rw [Level.calls, maxIfExprDepth] at hcalls
  rw [primaryExpr_succ]
  split
  next => simp
  next =>
    split
    next => exact definedExpr_ne _ _
    next => simp
  next ts' =>
    have hrest := hor ts' depth (by rw [Level.calls, maxIfExprDepth]; omega)
    split
    next e he =>
      intro heq
      obtain rfl := Except.error.inj heq
      exact hrest he
    next => simp
    next => simp
  next => simp

/-- **The calls nest boundedly deep**, whatever the tokens are. -/
theorem parser_callDepth (calls : Nat) : ∀ (l : Level) (ts : List Token) (depth : Nat),
    l.calls depth ≤ calls → l.parser combosUpper calls ts depth ≠ .error .callDepth := by
  induction calls with
  | zero =>
    intro l ts depth hcalls
    cases l <;> exact absurd hcalls (Nat.not_succ_le_zero _)
  | succ calls ih =>
    intro l ts depth hcalls
    by_cases hl : l.isChain = true
    · by_cases hor : l = .or
      · subst hor
        rw [Level.parser_or]
        split
        next => simp
        next hdepth =>
          rw [maxIfExprDepth] at hdepth
          rw [Level.calls, maxIfExprDepth] at hcalls
          refine avoids_chain (parser_sound calls .and) (fun ts k hk => ?_) ts _ (Nat.le_refl _)
          exact ih .and ts k (by rw [Level.calls, maxIfExprDepth]; omega)
      · rw [Level.parser_chain hl hor]
        refine avoids_chain (parser_sound calls l.operand) (fun ts k hk => ?_) ts _ (Nat.le_refl _)
        refine ih l.operand ts k ?_
        cases l with
        | or => exact absurd rfl hor
        | and | eq | rel =>
          simp only [Level.calls, Level.operand, maxIfExprDepth] at hcalls ⊢
          omega
        | unary | primary => cases hl
    · cases l with
      | or | and | eq | rel => exact absurd rfl hl
      | unary => exact unaryExpr_callDepth (ih .unary) (ih .primary) ts depth hcalls
      | primary => exact primaryExpr_callDepth (ih .or) ts depth hcalls

/-! ## Completeness -/

/-- The tokens do not begin with one of the operators. -/
def Ends (operator : Token → Option Operator) (rest : List Token) : Prop :=
  ∀ t ∈ rest.head?, operator t = none

/-- No operator of the level or a tighter one follows. -/
def Level.Stops : Level → List Token → Prop
  | .unary, _ | .primary, _ => True
  | .rel, rest => True ∧ Ends relOperator rest
  | .eq, rest => (True ∧ Ends relOperator rest) ∧ Ends eqOperator rest
  | .and, rest => ((True ∧ Ends relOperator rest) ∧ Ends eqOperator rest) ∧ Ends andOperator rest
  | .or, rest =>
    (((True ∧ Ends relOperator rest) ∧ Ends eqOperator rest) ∧ Ends andOperator rest) ∧
      Ends orOperator rest

theorem Level.stops_operand {l : Level} (t : Token) (ts : List Token)
    (h : (l.operator t).isSome = true) : l.operand.Stops (t :: ts) := by
  cases l <;> cases t <;>
    simp_all [Level.operator, Level.operand, Level.Stops, Ends, orOperator, andOperator, eqOperator,
      relOperator]

theorem Level.stops_rparen (rest : List Token) : Level.or.Stops (.rparen :: rest) := by
  simp [Level.Stops, Ends, orOperator, andOperator, eqOperator, relOperator]

theorem Level.stops_nil : Level.or.Stops [] := by
  simp [Level.Stops, Ends]

/-- What the parser of a level reads, if its calls may nest deep enough. -/
def Level.Completes (combosUpper : Combos) (l : Level) (calls : Nat) : Prop :=
  Complete .callDepth isBracket maxIfExprDepth l.Stops (Derives combosUpper l)
    (l.parser combosUpper calls)

/-- The same of the first level, where the group itself counts. -/
def OrCompletes (combosUpper : Combos) (calls : Nat) : Prop :=
  ∀ ⦃us v rest k⦄, Derives combosUpper .or us v → Level.or.Stops rest →
    k + 1 + us.countP isBracket ≤ maxIfExprDepth →
    orExpr combosUpper calls (us ++ rest) k = .error .callDepth ∨
      ∃ k' ≤ k + 1 + us.countP isBracket,
        orExpr combosUpper calls (us ++ rest) k = .ok (v, rest, k')

theorem chain_completes {l : Level} {calls : Nat}
    (h : l.operand.Completes combosUpper calls) (hl : l.isChain = true) :
    Complete .callDepth isBracket maxIfExprDepth l.Stops (Derives combosUpper l)
      (chain l.operator (l.operand.parser combosUpper calls)) := by
  intro us v rest k hus hrest hk
  have hchain := Level.chain_of_derives hl hus
  refine complete_chain h (fun t ts => Level.stops_operand t ts) hchain ?_ hk
  cases l with
  | or | and | eq | rel => exact hrest
  | unary | primary => cases hl

theorem orExpr_completes {calls : Nat} (h : Level.and.Completes combosUpper calls) :
    OrCompletes combosUpper (calls + 1) := by
  intro us v rest k hus hrest hk
  have heq := @Level.parser_or combosUpper calls (us ++ rest) k
  change orExpr combosUpper (calls + 1) (us ++ rest) k = _ at heq
  rw [heq, if_neg (by omega)]
  exact chain_completes (l := .or) h rfl hus hrest hk

theorem unaryExpr_completes {calls : Nat} (hunary : Level.unary.Completes combosUpper calls)
    (hprimary : Level.primary.Completes combosUpper calls) :
    Level.unary.Completes combosUpper (calls + 1) := by
  intro us v rest k hus _ hk
  cases hus with
  | unaryOperand hus =>
    have hhead : (us ++ rest).head? ≠ some .not := by
      cases hus <;> simp
    have hstep : Level.unary.parser combosUpper (calls + 1) (us ++ rest) k = _ :=
      unaryExpr_primary calls hhead k
    rw [hstep]
    exact hprimary hus trivial hk
  | @not ts w hts =>
    have hcount : (Token.not :: ts).countP isBracket = ts.countP isBracket + 1 :=
      List.countP_cons_of_pos rfl
    have hstep : Level.unary.parser combosUpper (calls + 1) (.not :: ts ++ rest) k = _ :=
      unaryExpr_not calls (ts ++ rest) k
    rw [hcount] at hk
    rw [hstep, if_neg (by omega)]
    rcases hunary hts trivial (show k + 1 + _ ≤ _ by omega) with hfail | ⟨k', hk', hok⟩
    · exact .inl (by rw [show unaryExpr combosUpper calls (ts ++ rest) (k + 1) = _ from hfail])
    · refine .inr ⟨k', by omega, ?_⟩
      rw [show unaryExpr combosUpper calls (ts ++ rest) (k + 1) = _ from hok]

theorem primaryExpr_completes {calls : Nat} (hor : OrCompletes combosUpper calls) :
    Level.primary.Completes combosUpper (calls + 1) := by
  intro us v rest k hus _ hk
  have hstep : ∀ ts, Level.primary.parser combosUpper (calls + 1) ts k = _ :=
    fun ts => primaryExpr_succ calls ts k
  rw [hstep]
  cases hus with
  | num n => exact .inr ⟨k, Nat.le_add_right _ _, rfl⟩
  | ident hname => exact .inr ⟨k, Nat.le_add_right _ _, if_neg hname⟩
  | defined target => exact .inr ⟨k, Nat.le_add_right _ _, rfl⟩
  | definedIn target => exact .inr ⟨k, Nat.le_add_right _ _, rfl⟩
  | @paren ts v hts =>
    have hcount : (Token.lparen :: ts ++ [Token.rparen]).countP isBracket =
        ts.countP isBracket + 1 := by
      rw [List.cons_append, List.countP_cons_of_pos rfl, List.countP_append]
      rfl
    rw [hcount] at hk
    have htokens : Token.lparen :: ts ++ [Token.rparen] ++ rest =
        .lparen :: (ts ++ Token.rparen :: rest) := by simp
    rw [htokens]
    dsimp only
    rcases hor hts (Level.stops_rparen rest) (show k + 1 + _ ≤ _ by omega) with
      hfail | ⟨k', hk', hok⟩
    · exact .inl (by rw [hfail])
    · exact .inr ⟨k', by omega, by rw [hok]⟩

/-- **The parser is complete** at every level, by induction on its calls. -/
theorem parser_complete (calls : Nat) :
    (∀ l : Level, l ≠ .or → l.Completes combosUpper calls) ∧ OrCompletes combosUpper calls := by
  induction calls with
  | zero =>
    refine ⟨fun l _ us v rest k _ _ _ => .inl (Level.parser_zero ..), ?_⟩
    exact fun us v rest k _ _ _ => .inl rfl
  | succ calls ih =>
    obtain ⟨ih, ihor⟩ := ih
    refine ⟨fun l hl => ?_, orExpr_completes (ih .and (by decide))⟩
    cases l with
    | or => exact absurd rfl hl
    | and => exact chain_completes (l := .and) (ih .eq (by decide)) rfl
    | eq => exact chain_completes (l := .eq) (ih .rel (by decide)) rfl
    | rel => exact chain_completes (l := .rel) (ih .unary (by decide)) rfl
    | unary => exact unaryExpr_completes (ih .unary (by decide)) (ih .primary (by decide))
    | primary => exact primaryExpr_completes ihor

end Parser

/-! ## Expressions -/

/-- The expression is derived and has this value. -/
def Evaluates (decimal : List Char → Bool) (combosUpper : Combos) (expr : List Char)
    (ts : List Token) (value : Int) : Prop :=
  Lexes decimal expr ts ∧ Derives combosUpper .or ts value

/-- **Conditions.**  With 193 nested calls or more, whatever the expression is,
the calls suffice; what is returned is the value of the expression, where every
string of digits is a decimal integer; and something is returned for every
expression with at most 256 tokens, integers that fit an `i64`, and at most 31
parentheses and negations. -/
theorem evaluateIfExpr_evaluates (combosUpper : Combos) (expr : List Char) (calls : Nat)
    (hcalls : 193 ≤ calls) :
    evaluateIfExpr combosUpper calls expr ≠ .error .callDepth ∧
    (∀ b, evaluateIfExpr combosUpper calls expr = .ok b →
      ∃ ts value, Evaluates anyDigits combosUpper expr ts value ∧ b = decide (value ≠ 0)) ∧
    ∀ ts value, Evaluates anyDigits combosUpper expr ts value → ts.length ≤ maxIfExprTokens →
      (∀ t ∈ ts, t.Fits) → ts.countP isBracket ≤ 31 →
      evaluateIfExpr combosUpper calls expr = .ok (decide (value ≠ 0)) := by
  have hdeep : ∀ ts, orExpr combosUpper calls ts 0 ≠ .error .callDepth := fun ts =>
    parser_callDepth calls .or ts 0 hcalls
  refine ⟨?_, ?_, ?_⟩
  · unfold evaluateIfExpr
    split
    next => simp
    next ts _ =>
      split
      next e he =>
        intro heq
        obtain rfl := Except.error.inj heq
        exact hdeep ts he
      next => simp
      next => simp
  · intro b h
    unfold evaluateIfExpr at h
    split at h
    next => cases h
    next ts hts =>
      split at h
      next => cases h
      next value depth hvalue =>
        obtain ⟨-, us, hus, hderives⟩ := parser_sound calls .or hvalue
        rw [List.append_nil] at hus
        subst hus
        exact ⟨ts, value, ⟨tokenize_lexes hts, hderives⟩, (Except.ok.inj h).symm⟩
      next => cases h
  · rintro ts value ⟨hlexes, hderives⟩ hcount hfits hbrackets
    have htokens := lexes_tokenize hlexes hfits hcount
    rcases (parser_complete calls).2 hderives Level.stops_nil (show 0 + 1 + _ ≤ _ by
      rw [maxIfExprDepth]; omega) with hfail | ⟨depth, -, hok⟩
    · exact absurd hfail (hdeep _)
    · rw [List.append_nil] at hok
      simp [evaluateIfExpr, htokens, hok]

/-- A condition on the number of textures. -/
theorem evaluateIfExpr_evaluates_textures :
    ∃ ts value, Evaluates anyDigits [("NUMBLENDTEXTURES".toList, 3)]
      "NUMBLENDTEXTURES >= 2 && !defined(OFF)".toList ts value ∧ true = decide (value ≠ 0) :=
  (evaluateIfExpr_evaluates _ _ 193 (Nat.le_refl _)).2.1 true (by decide +kernel)

theorem not_lexes_octal (ts : List Token) : ¬ Lexes decimalConstant ['0', '1', '0'] ts := by
  intro h
  generalize htext : ['0', '1', '0'] = text at h
  cases h with
  | nil => cases htext
  | blank hblank _ =>
    obtain ⟨rfl, -⟩ := List.cons.inj htext
    exact absurd hblank (by decide)
  | token hspells hend _ =>
    cases hspells with
    | num hne _ hdecimal =>
      obtain ⟨d, ds, rfl⟩ := List.exists_cons_of_ne_nil hne
      obtain ⟨rfl, hrest⟩ := List.cons.inj htext
      obtain rfl : ds = [] := by simpa [decimalConstant] using hdecimal
      obtain rfl : ['1', '0'] = _ := hrest
      exact absurd (hend '1' rfl) (by simp [Token.continues])
    | ident hstart _ =>
      obtain ⟨rfl, -⟩ := List.cons.inj htext
      exact absurd hstart (by decide)
    | and | or | eq | ne | lt | le | gt | ge | not | lparen | rparen =>
      exact absurd (List.cons.inj htext).1 (by decide)

/-- An octal constant is taken for a decimal one. -/
theorem evaluateIfExpr_octal : ¬ ∀ (combosUpper : Combos) (expr : List Char) (calls : Nat)
    (b : Bool), 193 ≤ calls → evaluateIfExpr combosUpper calls expr = .ok b →
    ∃ ts value, Evaluates decimalConstant combosUpper expr ts value ∧ b = decide (value ≠ 0) := by
  intro h
  obtain ⟨ts, value, ⟨hlexes, -⟩, -⟩ := h [] ['0', '1', '0'] 193 true (Nat.le_refl _)
    (by decide +kernel)
  exact not_lexes_octal ts hlexes

end Kwe.Shader
