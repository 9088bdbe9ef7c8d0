import Kwe.Foundation.Checks
import Kwe.Foundation.SortedMap
import Kwe.Foundation.Utf8

/-!
The key/value files of the game library: their tokens, and the parser.

* `tokenize_returns`: the tokenizer comes to an end on the inputs without a
  form feed outside strings and comments, and on no others.
* `parseObject_iff`: the parser accepts the lists of pairs that nest deep
  enough for it, and returns their maps.

A `String` is the list of its UTF-8 bytes.
-/

namespace Kwe.Vdf

open Foundation Foundation.Checks

abbrev Text := List UInt8

/-- `MAX_VDF_BYTES`. -/
def maxVdfBytes : Nat := 8 * 1024 * 1024

/-- `MAX_DEPTH`. -/
def maxDepth : Nat := 32

/-- The fields of an object are in the order of their keys, as in a
`BTreeMap`. -/
inductive KvValue
  | string (value : Text)
  | object (fields : List (Text × KvValue))

inductive KvError
  | tooLarge
  | unterminatedString (offset : Nat)
  | invalidEscape (offset : Nat)
  | missingValue (key : Text) (offset : Nat)
  | unexpectedClose (offset : Nat)
  | unclosedObject
  | tooDeep
  deriving DecidableEq, Repr

inductive Token
  | text (value : Text)
  | openBrace
  | closeBrace
  deriving DecidableEq, Repr

structure SpannedToken where
  token : Token
  offset : Nat
  deriving DecidableEq, Repr

/-- A result, unless the computation runs on: then there is none at any fuel. -/
abbrev Run := ExceptT KvError Option

/-! ## Tokens -/

def quote : UInt8 := 0x22
def backslash : UInt8 := 0x5c
def slash : UInt8 := 0x2f
def newline : UInt8 := 0x0a
def tab : UInt8 := 0x09
def formFeed : UInt8 := 0x0c
def openByte : UInt8 := 0x7b
def closeByte : UInt8 := 0x7d

/-- The bytes skipped between tokens. -/
def isBlank (b : UInt8) : Bool := b = 0x20 || b = tab || b = 0x0d || b = newline

/-- `u8::is_ascii_whitespace`. -/
def isAsciiWhitespace (b : UInt8) : Bool := isBlank b || b = formFeed

def isBrace (b : UInt8) : Bool := b = openByte || b = closeByte

/-- The bytes of an unquoted text. -/
def isWordByte (b : UInt8) : Bool := !isAsciiWhitespace b && !isBrace b

/-- `byte as char`, pushed to a string. -/
def widen (b : UInt8) : Text := String.utf8EncodeChar (Char.ofNat b.toNat)

def unescape (escaped : UInt8) : Text :=
  if escaped = quote then [quote]
  else if escaped = backslash then [backslash]
  else if escaped = 'n'.toUInt8 then [newline]
  else if escaped = 't'.toUInt8 then [tab]
  else backslash :: widen escaped

/-- The quoted text that began at `start`, the offset and the bytes after it. -/
def scanQuoted (start : Nat) : Nat → List UInt8 → Except KvError (Text × Nat × List UInt8)
  | _, [] => .error (.unterminatedString start)
  | offset, b :: rest =>
    if b = quote then .ok ([], offset + 1, rest)
    else if b = backslash then
      match rest with
      | [] => .error (.invalidEscape (offset + 1))
      | escaped :: rest =>
        (scanQuoted start (offset + 2) rest).map fun (value, after) =>
          (unescape escaped ++ value, after)
    else
      (scanQuoted start (offset + 1) rest).map fun (value, after) => (widen b ++ value, after)

/-- One iteration of the loop of `tokenize`. -/
def scanToken (offset : Nat) (b : UInt8) (rest : List UInt8) :
    Except KvError (Option SpannedToken × Nat × List UInt8) :=
  if isBlank b then .ok (none, offset + 1, rest)
  else if b = slash ∧ rest.head? = some slash then
    .ok (none, offset + 1 + (rest.takeWhile (· ≠ newline)).length, rest.dropWhile (· ≠ newline))
  else if b = openByte then .ok (some ⟨.openBrace, offset⟩, offset + 1, rest)
  else if b = closeByte then .ok (some ⟨.closeBrace, offset⟩, offset + 1, rest)
  else if b = quote then
    (scanQuoted offset (offset + 1) rest).map fun (value, after) =>
      (some ⟨.text value, offset⟩, after)
  else
    let word := (b :: rest).takeWhile isWordByte
    .ok (some ⟨.text word, offset⟩, offset + word.length, (b :: rest).dropWhile isWordByte)

def tokenize : Nat → Nat → List UInt8 → Run (List SpannedToken)
  | _, _, [] => some (.ok [])
  | 0, _, _ :: _ => none
  | fuel + 1, offset, b :: rest =>
    match scanToken offset b rest with
    | .error e => some (.error e)
    | .ok (token, offset, rest) =>
      do
      let tokens ← tokenize fuel offset rest
      pure (token.toList ++ tokens)

/-! ## Objects -/

/-- `parse_object` from an iteration of its loop on, with the map so far. -/
def parseObject : Nat → Nat → Bool → List (Text × KvValue) → List SpannedToken →
    Run (List (Text × KvValue) × List SpannedToken)
  | 0, _, _, _, _ => none
  | fuel + 1, depth, expectClose, result, tokens =>
    if maxDepth < depth then some (.error .tooDeep)
    else match tokens with
    | [] => some (if expectClose then .error .unclosedObject else .ok (result, []))
    | current :: tokens =>
      match current.token with
      | .closeBrace =>
        some (if expectClose then .ok (result, tokens)
          else .error (.unexpectedClose current.offset))
      | .openBrace => some (.error (.missingValue (Utf8.encode "<object>".toList) current.offset))
      | .text key =>
        match tokens with
        | [] => some (.error (.missingValue key current.offset))
        | value :: tokens =>
          match value.token with
          | .text text =>
            parseObject fuel depth expectClose (SortedMap.insert result key (.string text)) tokens
          | .openBrace => do
            let (fields, tokens) ← parseObject fuel (depth + 1) true [] tokens
            parseObject fuel depth expectClose (SortedMap.insert result key (.object fields)) tokens
          | .closeBrace => some (.error (.missingValue key value.offset))

def parseKeyValues (fuel : Nat) (input : List UInt8) : Run KvValue :=
  if maxVdfBytes < input.length then some (.error .tooLarge)
  else do
    let tokens ← tokenize fuel 0 input
    let (root, rest) ← parseObject (tokens.length + 1) 0 false [] tokens
    match rest with
    | [] => some (.ok (.object root))
    | token :: _ =>
      match token.token with
      | .closeBrace => some (.error (.unexpectedClose token.offset))
      | _ => some (.error (.missingValue (Utf8.encode "<root>".toList) token.offset))

/-- The call comes back with this result. -/
def Returns (input : List UInt8) (r : Except KvError KvValue) : Prop :=
  ∃ fuel, parseKeyValues fuel input = some r

/-! ## Where the tokenizer comes to an end -/

inductive Mode
  | outside | word | quoted | escaped | comment

/-- A form feed stands outside the strings and the comments. -/
def bareFormFeed : Mode → List UInt8 → Bool
  | _, [] => false
  | .outside, b :: rest =>
    if b = formFeed then true
    else if b = quote then bareFormFeed .quoted rest
    else if b = slash ∧ rest.head? = some slash then bareFormFeed .comment rest
    else if isBlank b || isBrace b then bareFormFeed .outside rest
    else bareFormFeed .word rest
  | .word, b :: rest =>
    if b = formFeed then true
    else if isBlank b || isBrace b then bareFormFeed .outside rest
    else bareFormFeed .word rest
  | .quoted, b :: rest =>
    if b = quote then bareFormFeed .outside rest
    else if b = backslash then bareFormFeed .escaped rest
    else bareFormFeed .quoted rest
  | .escaped, _ :: rest => bareFormFeed .quoted rest
  | .comment, b :: rest =>
    if b = newline then bareFormFeed .outside rest else bareFormFeed .comment rest

example : bareFormFeed .outside [quote, formFeed, quote] = false := by
  simp [bareFormFeed, quote, formFeed, backslash]

theorem bareFormFeed_comment (bytes : List UInt8) :
    bareFormFeed .comment bytes = bareFormFeed .outside (bytes.dropWhile (· ≠ newline)) := by
  induction bytes with
  | nil => rfl
  | cons b rest ih =>
    by_cases hb : b = newline
    · subst hb
      rfl
    · rw [bareFormFeed, if_neg hb, ih, List.dropWhile_cons_of_pos (by simpa using hb)]

theorem isWordByte_iff {b : UInt8} (hfeed : b ≠ formFeed) :
    isWordByte b = !(isBlank b || isBrace b) := by
  simp [isWordByte, isAsciiWhitespace, hfeed]

theorem bareFormFeed_word (bytes : List UInt8) :
    bareFormFeed .word bytes = bareFormFeed .outside (bytes.dropWhile isWordByte) := by
  induction bytes with
  | nil => rfl
  | cons b rest ih =>
    by_cases hfeed : b = formFeed
    · subst hfeed
      rfl
    have hword := isWordByte_iff hfeed
    by_cases hstop : (isBlank b || isBrace b) = true
    · rw [hstop] at hword
      have hquote : b ≠ quote := by rintro rfl; exact absurd hstop (by decide)
      have hslash : ¬ (b = slash ∧ rest.head? = some slash) := by
        rintro ⟨rfl, -⟩
        exact absurd hstop (by decide)
      rw [List.dropWhile_cons_of_neg (by simp [hword]), bareFormFeed, bareFormFeed, if_neg hfeed,
        if_neg hfeed, if_neg hquote, if_neg hslash, if_pos hstop]
    · rw [Bool.eq_false_iff.mpr hstop] at hword
      rw [List.dropWhile_cons_of_pos (by simp [hword]), bareFormFeed, if_neg hfeed, if_neg hstop, ih]

theorem scanQuoted_ok {start offset : Nat} {bytes : List UInt8} {value : Text} {after : Nat}
    {rest : List UInt8} (h : scanQuoted start offset bytes = .ok (value, after, rest)) :
    bareFormFeed .quoted bytes = bareFormFeed .outside rest ∧ rest.length < bytes.length := by
  fun_induction scanQuoted start offset bytes generalizing value with
  | case1 => simp at h
  | case2 offset bytes =>
    simp only [Except.ok.injEq, Prod.mk.injEq] at h
    obtain ⟨-, -, rfl⟩ := h
    exact ⟨rfl, Nat.lt_succ_self _⟩
  | case3 => simp at h
  | case4 offset escaped bytes hquote ih =>
    obtain ⟨⟨inner, after', rest'⟩, hscan, hr⟩ := map_ok h
    simp only [Prod.mk.injEq] at hr
    obtain ⟨-, rfl, rfl⟩ := hr
    obtain ⟨hbare, hlength⟩ := ih hscan
    refine ⟨?_, by simp only [List.length_cons]; omega⟩
    rw [bareFormFeed, if_neg hquote, if_pos rfl, bareFormFeed, hbare]
  | case5 offset b bytes hquote hbackslash ih =>
    obtain ⟨⟨inner, after', rest'⟩, hscan, hr⟩ := map_ok h
    simp only [Prod.mk.injEq] at hr
    obtain ⟨-, rfl, rfl⟩ := hr
    obtain ⟨hbare, hlength⟩ := ih hscan
    refine ⟨?_, by simp only [List.length_cons]; omega⟩
    rw [bareFormFeed, if_neg hquote, if_neg hbackslash, hbare]

theorem scanQuoted_error {start offset : Nat} {bytes : List UInt8} {e : KvError}
    (h : scanQuoted start offset bytes = .error e) : bareFormFeed .quoted bytes = false := by
  fun_induction scanQuoted start offset bytes with
  | case1 => rfl
  | case2 => simp at h
  | case3 => rfl
  | case4 offset escaped bytes hquote ih =>
    rw [bareFormFeed, if_neg hquote, if_pos rfl, bareFormFeed, ih (map_error h)]
  | case5 offset b bytes hquote hbackslash ih =>
    rw [bareFormFeed, if_neg hquote, if_neg hbackslash, ih (map_error h)]

/-- At a form feed the loop stays where it is. -/
theorem scanToken_formFeed (offset : Nat) (rest : List UInt8) :
    scanToken offset formFeed rest = .ok (some ⟨.text [], offset⟩, offset, formFeed :: rest) := rfl

theorem scanToken_ok {offset : Nat} {b : UInt8} {rest : List UInt8} {token : Option SpannedToken}
    {after : Nat} {bytes : List UInt8} (hb : b ≠ formFeed)
    (h : scanToken offset b rest = .ok (token, after, bytes)) :
    bareFormFeed .outside (b :: rest) = bareFormFeed .outside bytes ∧
      bytes.length ≤ rest.length := by
  have hdrop : ∀ (p : UInt8 → Bool) (l : List UInt8), (l.dropWhile p).length ≤ l.length :=
    fun p l => (List.dropWhile_sublist p).length_le
  rw [bareFormFeed, if_neg hb]
  unfold scanToken at h
  split at h
  next hblank =>
    simp only [Except.ok.injEq, Prod.mk.injEq] at h
    obtain ⟨-, -, rfl⟩ := h
    have hquote : b ≠ quote := by rintro rfl; exact absurd hblank (by decide)
    have hslash : ¬ (b = slash ∧ rest.head? = some slash) := by
      rintro ⟨rfl, -⟩
      exact absurd hblank (by decide)
    rw [if_neg hquote, if_neg hslash, if_pos (by simp [hblank])]
    exact ⟨rfl, Nat.le_refl _⟩
  next hblank =>
  split at h
  next hslash =>
    simp only [Except.ok.injEq, Prod.mk.injEq] at h
    obtain ⟨-, -, rfl⟩ := h
    rw [if_neg (by rw [hslash.1]; decide), if_pos hslash, bareFormFeed_comment]
    exact ⟨rfl, hdrop _ _⟩
  next hslash =>
  rw [if_neg hslash]
  split at h
  next hopen =>
    simp only [Except.ok.injEq, Prod.mk.injEq] at h
    obtain ⟨-, -, rfl⟩ := h
    subst hopen
    exact ⟨rfl, Nat.le_refl _⟩
  next hopen =>
  split at h
  next hclose =>
    simp only [Except.ok.injEq, Prod.mk.injEq] at h
    obtain ⟨-, -, rfl⟩ := h
    subst hclose
    exact ⟨rfl, Nat.le_refl _⟩
  next hclose =>
  split at h
  next hquote =>
    obtain ⟨⟨value, after', rest'⟩, hscan, hr⟩ := map_ok h
    simp only [Prod.mk.injEq] at hr
    obtain ⟨-, rfl, rfl⟩ := hr
    obtain ⟨hbare, hlength⟩ := scanQuoted_ok hscan
    rw [if_pos hquote]
    exact ⟨hbare, Nat.le_of_lt hlength⟩
  next hquote =>
    simp only [Except.ok.injEq, Prod.mk.injEq] at h
    obtain ⟨-, -, rfl⟩ := h
    have hstop : (isBlank b || isBrace b) = false := by
      simp [isBrace, hblank, hopen, hclose]
    have hword : isWordByte b = true := by rw [isWordByte_iff hb, hstop, Bool.not_false]
    rw [if_neg hquote, if_neg (by simp [hstop]), List.dropWhile_cons_of_pos hword,
      bareFormFeed_word]
    exact ⟨rfl, hdrop _ _⟩

theorem scanToken_error {offset : Nat} {b : UInt8} {rest : List UInt8} {e : KvError}
    (h : scanToken offset b rest = .error e) : bareFormFeed .outside (b :: rest) = false := by
  unfold scanToken at h
  split_ifs at h
  next hquote =>
    subst hquote
    exact scanQuoted_error (map_error h)

/-! ## Computations that end -/

theorem error_ne_ok {α : Type} {e : KvError} {a : α} :
    ¬ (some (.error e) : Run α) = some (.ok a) := nofun

theorem ok_inj {α : Type} {a b : α} (h : (some (.ok a) : Run α) = some (.ok b)) : a = b :=
  Except.ok.inj (Option.some.inj h)

theorem bind_iff {α β : Type} {x : Run α} {f : α → Run β} {r : Except KvError β} :
    (x >>= f) = (some r : Run β) ↔
      (∃ e, x = some (.error e) ∧ r = .error e) ∨ ∃ a, x = some (.ok a) ∧ f a = some r := by
  constructor
  · intro h
    match x, h with
    | some (.error e), h => exact .inl ⟨e, rfl, (Option.some.inj h).symm⟩
    | some (.ok a), h => exact .inr ⟨a, rfl, h⟩
  · rintro (⟨e, rfl, rfl⟩ | ⟨a, rfl, h⟩)
    · rfl
    · exact h

theorem bind_ok_iff {α β : Type} {x : Run α} {f : α → Run β} {b : β} :
    (x >>= f) = (some (.ok b) : Run β) ↔ ∃ a, x = some (.ok a) ∧ f a = some (.ok b) := by
  simp [bind_iff]

theorem bind_ends {α β : Type} {x : Run α} {f : α → Run β} (hx : ∃ r, x = some r)
    (hf : ∀ a, x = some (.ok a) → ∃ r, f a = some r) : ∃ r, (x >>= f) = (some r : Run β) := by
  obtain ⟨r, hr⟩ := hx
  cases r with
  | error e => exact ⟨_, bind_iff.mpr (.inl ⟨e, hr, rfl⟩)⟩
  | ok a =>
    obtain ⟨r, hf⟩ := hf a hr
    exact ⟨r, bind_iff.mpr (.inr ⟨a, hr, hf⟩)⟩

/-- **The tokenizer ends where no form feed is bare.** -/
theorem tokenize_returns (offset : Nat) (bytes : List UInt8) :
    (∃ fuel r, tokenize fuel offset bytes = some r) ↔ bareFormFeed .outside bytes = false := by
  constructor
  · rintro ⟨fuel, r, h⟩
    induction fuel generalizing offset bytes r with
    | zero =>
      cases bytes with
      | nil => rfl
      | cons b rest => simp [tokenize] at h
    | succ fuel ih =>
      cases bytes with
      | nil => rfl
      | cons b rest =>
        rw [tokenize] at h
        cases hscan : scanToken offset b rest with
        | error e => exact scanToken_error hscan
        | ok next =>
          obtain ⟨token, after, bytes⟩ := next
          rw [hscan] at h
          have hrest : bareFormFeed .outside bytes = false := by
            rcases bind_iff.mp h with ⟨e, he, -⟩ | ⟨tokens, htokens, -⟩
            · exact ih _ _ _ he
            · exact ih _ _ _ htokens
          by_cases hb : b = formFeed
          · -- The rest of the run is the run itself.
            subst hb
            rw [scanToken_formFeed] at hscan
            simp only [Except.ok.injEq, Prod.mk.injEq] at hscan
            obtain ⟨-, -, rfl⟩ := hscan
            exact hrest
          · rw [(scanToken_ok hb hscan).1, hrest]
  · intro h
    suffices hends : ∀ fuel offset (bytes : List UInt8), bytes.length ≤ fuel →
        bareFormFeed .outside bytes = false → ∃ r, tokenize fuel offset bytes = some r from
      ⟨_, hends _ offset bytes (Nat.le_refl _) h⟩
    intro fuel
    induction fuel with
    | zero =>
      intro offset bytes hle _
      obtain rfl := List.eq_nil_of_length_eq_zero (Nat.le_zero.mp hle)
      exact ⟨_, rfl⟩
    | succ fuel ih =>
      intro offset bytes hle hbare
      cases bytes with
      | nil => exact ⟨_, rfl⟩
      | cons b rest =>
        have hb : b ≠ formFeed := by
          rintro rfl
          simp [bareFormFeed] at hbare
        rw [tokenize]
        cases hscan : scanToken offset b rest with
        | error e => exact ⟨_, rfl⟩
        | ok next =>
          obtain ⟨token, after, bytes⟩ := next
          obtain ⟨hsame, hlength⟩ := scanToken_ok hb hscan
          rw [List.length_cons] at hle
          exact bind_ends (ih _ _ (by omega) (hsame ▸ hbare)) fun tokens _ => ⟨_, rfl⟩

theorem tokenize_mono {fuel fuel' offset : Nat} {bytes : List UInt8}
    {r : Except KvError (List SpannedToken)} (h : tokenize fuel offset bytes = some r)
    (hle : fuel ≤ fuel') : tokenize fuel' offset bytes = some r := by
  induction fuel generalizing fuel' offset bytes r with
  | zero =>
    cases bytes with
    | nil => simpa [tokenize] using h
    | cons b rest => simp [tokenize] at h
  | succ fuel ih =>
    cases bytes with
    | nil => simpa [tokenize] using h
    | cons b rest =>
      obtain _ | fuel' := fuel'
      · exact absurd hle (Nat.not_succ_le_zero _)
      rw [tokenize] at h ⊢
      cases hscan : scanToken offset b rest with
      | error e => rwa [hscan] at h
      | ok next =>
        obtain ⟨token, after, bytes⟩ := next
        rw [hscan] at h
        refine bind_iff.mpr ?_
        rcases bind_iff.mp h with ⟨e, he, hr⟩ | ⟨tokens, htokens, hr⟩
        · exact .inl ⟨e, ih he (Nat.le_of_succ_le_succ hle), hr⟩
        · exact .inr ⟨tokens, ih htokens (Nat.le_of_succ_le_succ hle), hr⟩

/-! ## The grammar -/

/-- The tokens of a list of pairs that nests at most `d` levels, and the list. -/
inductive Nested : Nat → List Token → List (Text × KvValue) → Prop
  | nil (d : Nat) : Nested d [] []
  | pair {d : Nat} {tokens : List Token} {items : List (Text × KvValue)} (key value : Text) :
      Nested d tokens items →
      Nested d (.text key :: .text value :: tokens) ((key, .string value) :: items)
  | object {d : Nat} {inner tokens : List Token} {fields items : List (Text × KvValue)}
      (key : Text) : Nested d inner fields → Nested (d + 1) tokens items →
      Nested (d + 1) (.text key :: .openBrace :: (inner ++ .closeBrace :: tokens))
        ((key, .object fields) :: items)

mutual

/-- The value an object as written stands for: of the entries of a key, the
last. -/
def KvValue.normal : KvValue → KvValue
  | .string value => .string value
  | .object items => .object (SortedMap.ofList (normalItems items))

def normalItems : List (Text × KvValue) → List (Text × KvValue)
  | [] => []
  | (key, value) :: items => (key, value.normal) :: normalItems items

end

theorem parseObject_complete {d : Nat} {ts : List Token} {items : List (Text × KvValue)}
    (h : Nested d ts items) (fuel depth : Nat) (expectClose : Bool)
    (result : List (Text × KvValue)) {tokens : List SpannedToken} {tail : List Token}
    (hdepth : depth + d ≤ maxDepth) (htokens : tokens.map (·.token) = ts ++ tail)
    (htail : tail = if expectClose then .closeBrace :: tail.tail else [])
    (hfuel : tokens.length < fuel) :
    ∃ rest, rest.map (·.token) = tail.tail ∧
      parseObject fuel depth expectClose result tokens =
        some (.ok (SortedMap.insertAll result (normalItems items), rest)) := by
  induction h generalizing fuel depth expectClose result tokens tail with
  | nil d =>
    obtain _ | fuel := fuel
    · exact absurd hfuel (Nat.not_lt_zero _)
    cases expectClose with
    | false =>
      obtain rfl : tail = [] := by simpa using htail
      obtain rfl : tokens = [] := by simpa using htokens
      refine ⟨[], rfl, ?_⟩
      rw [parseObject, if_neg (by omega)]
      rfl
    | true =>
      rw [if_pos rfl] at htail
      rw [htail, List.nil_append] at htokens
      obtain ⟨current, rest, rfl, hcurrent, hrest⟩ := List.map_eq_cons_iff.mp htokens
      refine ⟨rest, hrest, ?_⟩
      rw [parseObject, if_neg (by omega)]
      simp only [hcurrent]
      rfl
  | pair key value hitems ih =>
    obtain _ | fuel := fuel
    · exact absurd hfuel (Nat.not_lt_zero _)
    obtain ⟨current, rest, rfl, hcurrent, hrest⟩ := List.map_eq_cons_iff.mp htokens
    obtain ⟨second, rest, rfl, hsecond, hrest⟩ := List.map_eq_cons_iff.mp hrest
    rw [parseObject, if_neg (by omega)]
    simp only [hcurrent, hsecond]
    simp only [List.length_cons] at hfuel
    exact ih fuel depth expectClose _ hdepth hrest htail (by omega)
  | @object d inner ts fields items key hfields hitems ihfields ihitems =>
    obtain _ | fuel := fuel
    · exact absurd hfuel (Nat.not_lt_zero _)
    obtain ⟨current, rest, rfl, hcurrent, hrest⟩ := List.map_eq_cons_iff.mp htokens
    obtain ⟨second, rest, rfl, hsecond, hrest⟩ := List.map_eq_cons_iff.mp hrest
    rw [parseObject, if_neg (by omega)]
    simp only [hcurrent, hsecond]
    simp only [List.length_cons] at hfuel
    replace hrest : rest.map (·.token) = inner ++ .closeBrace :: (ts ++ tail) := by
      simpa using hrest
    obtain ⟨after, hafter, hparse⟩ := ihfields fuel (depth + 1) true [] (by omega) hrest rfl (by omega)
    have hlength := congrArg List.length hrest
    have hlength' := congrArg List.length hafter
    simp only [List.length_map, List.length_append, List.length_cons, List.tail_cons]
      at hlength hlength'
    obtain ⟨last, hlast, hrest⟩ := ihitems fuel depth expectClose
      (SortedMap.insert result key (.object (SortedMap.ofList (normalItems fields)))) hdepth hafter
      htail (by omega)
    exact ⟨last, hlast, bind_ok_iff.mpr ⟨_, hparse, hrest⟩⟩

theorem parseObject_sound {fuel depth : Nat} {expectClose : Bool}
    {result m : List (Text × KvValue)} {tokens rest : List SpannedToken}
    (h : parseObject fuel depth expectClose result tokens = some (.ok (m, rest))) :
    depth ≤ maxDepth ∧ ∃ ts items, Nested (maxDepth - depth) ts items ∧
      m = SortedMap.insertAll result (normalItems items) ∧
      tokens.map (·.token) =
        ts ++ (if expectClose then .closeBrace :: rest.map (·.token) else rest.map (·.token)) ∧
      (expectClose = false → rest = []) := by
  induction fuel generalizing depth expectClose result m tokens rest with
  | zero => simp [parseObject] at h
  | succ fuel ih =>
    by_cases hdeep : maxDepth < depth
    · rw [parseObject.eq_def] at h
      simp only [if_pos hdeep] at h
      exact absurd h error_ne_ok
    refine ⟨Nat.le_of_not_lt hdeep, ?_⟩
    rw [parseObject.eq_def] at h
    simp only [if_neg hdeep] at h
    cases tokens with
    | nil =>
      cases expectClose with
      | true => exact absurd h error_ne_ok
      | false =>
        obtain ⟨rfl, rfl⟩ := Prod.mk.inj (ok_inj h)
        exact ⟨[], [], .nil _, rfl, rfl, fun _ => rfl⟩
    | cons current tokens =>
      cases hcurrent : current.token with
      | closeBrace =>
        simp only [hcurrent] at h
        cases expectClose with
        | false => exact absurd h error_ne_ok
        | true =>
          obtain ⟨rfl, rfl⟩ := Prod.mk.inj (ok_inj h)
          refine ⟨[], [], .nil _, rfl, ?_, fun hec => absurd hec (by decide)⟩
          simp [hcurrent]
      | openBrace =>
        simp only [hcurrent] at h
        exact absurd h error_ne_ok
      | text key =>
        simp only [hcurrent] at h
        cases tokens with
        | nil => exact absurd h error_ne_ok
        | cons second tokens =>
          cases hsecond : second.token with
          | closeBrace =>
            simp only [hsecond] at h
            exact absurd h error_ne_ok
          | text value =>
            simp only [hsecond] at h
            obtain ⟨-, ts, items, hnested, hm, htokens, hrest⟩ := ih h
            refine ⟨_, _, .pair key value hnested, hm, ?_, hrest⟩
            simp only [List.map_cons, hcurrent, hsecond, htokens, List.cons_append]
          | openBrace =>
            simp only [hsecond] at h
            obtain ⟨⟨fields, after⟩, hfields, hafter⟩ := bind_ok_iff.mp h
            obtain ⟨hlt, inner, sub, hsub, hfields, hinner, -⟩ := ih hfields
            obtain ⟨-, ts, items, hnested, hm, htokens, hrest⟩ := ih hafter
            have hd : maxDepth - depth = maxDepth - (depth + 1) + 1 := by omega
            rw [hd] at hnested ⊢
            refine ⟨_, _, .object key hsub hnested, ?_, ?_, hrest⟩
            · rw [hm, hfields]
              rfl
            · simp only [List.map_cons, hcurrent, hsecond, hinner, htokens, if_true,
                List.cons_append, List.append_assoc]

theorem parseObject_returns {fuel depth : Nat} {expectClose : Bool}
    {result : List (Text × KvValue)} {tokens : List SpannedToken} (hfuel : tokens.length < fuel) :
    ∃ r, parseObject fuel depth expectClose result tokens = some r := by
  induction fuel generalizing depth expectClose result tokens with
  | zero => exact absurd hfuel (Nat.not_lt_zero _)
  | succ fuel ih =>
    rw [parseObject.eq_def]
    simp only
    split
    next => exact ⟨_, rfl⟩
    next =>
      cases tokens with
      | nil => exact ⟨_, rfl⟩
      | cons current tokens =>
        cases hcurrent : current.token with
        | closeBrace => exact ⟨_, by simp only [hcurrent]; rfl⟩
        | openBrace => exact ⟨_, by simp only [hcurrent]; rfl⟩
        | text key =>
          simp only [hcurrent]
          cases tokens with
          | nil => exact ⟨_, rfl⟩
          | cons second tokens =>
            simp only [List.length_cons] at hfuel
            cases hsecond : second.token with
            | closeBrace => exact ⟨_, by simp only [hsecond]; rfl⟩
            | text value =>
              simp only [hsecond]
              exact ih (by omega)
            | openBrace =>
              simp only [hsecond]
              refine bind_ends (ih (by omega)) fun a ha => ?_
              obtain ⟨-, ts, items, -, -, htokens, -⟩ := parseObject_sound ha
              have hlength := congrArg List.length htokens
              simp only [if_true, List.length_map, List.length_append, List.length_cons]
                at hlength
              exact ih (by omega)

/-- **The parser reads the nested lists.** -/
theorem parseObject_iff {tokens : List SpannedToken} {m : List (Text × KvValue)}
    {rest : List SpannedToken} :
    parseObject (tokens.length + 1) 0 false [] tokens = some (.ok (m, rest)) ↔
      rest = [] ∧ ∃ items, Nested maxDepth (tokens.map (·.token)) items ∧
        m = SortedMap.ofList (normalItems items) := by
  constructor
  · intro h
    obtain ⟨-, ts, items, hnested, hm, htokens, hrest⟩ := parseObject_sound h
    obtain rfl := hrest rfl
    refine ⟨rfl, items, ?_, hm⟩
    simpa [htokens] using hnested
  · rintro ⟨rfl, items, hnested, rfl⟩
    obtain ⟨rest, hrest, hparse⟩ := @parseObject_complete _ _ _ hnested (tokens.length + 1) 0 false []
      tokens [] (by omega) (by simp) rfl (Nat.lt_succ_self _)
    obtain rfl : rest = [] := by simpa using hrest
    exact hparse

end Kwe.Vdf
