import Kwe.Vdf.KeyValues

/-!
What the parser makes of a printed tree.

* `parse_print`: it reads every byte of a string as a character of its own,
  and returns the tree of the strings so widened.
* `key_values_read_back`: a printed tree comes back just when all its strings
  are ASCII; and a call ends with what the grammar says of the tokens just
  when it meets no bare form feed, or an input that is too long.
-/

namespace Kwe.Vdf

open Foundation Foundation.Checks

/-! ## Printing -/

/-- What may stand between two tokens. -/
inductive Blank
  | space | tab | carriageReturn | newline
  | comment (line : { line : Text // newline ∉ line })

def Blank.print : Blank → List UInt8
  | .space => [0x20]
  | .tab => [Vdf.tab]
  | .carriageReturn => [0x0d]
  | .newline => [Vdf.newline]
  | .comment line => slash :: slash :: (line.1 ++ [Vdf.newline])

def escapeByte (b : UInt8) : List UInt8 :=
  if b = backslash then [backslash, backslash]
  else if b = quote then [backslash, quote]
  else if b = newline then [backslash, 'n'.toUInt8]
  else if b = tab then [backslash, 't'.toUInt8]
  else [b]

def Token.print : Token → List UInt8
  | .text value => quote :: (value.flatMap escapeByte ++ [quote])
  | .openBrace => [openByte]
  | .closeBrace => [closeByte]

/-- The tokens, with a gap before each and one after the last. -/
def printTokens : (Nat → List Blank) → List Token → List UInt8
  | gaps, [] => (gaps 0).flatMap Blank.print
  | gaps, token :: tokens =>
    (gaps 0).flatMap Blank.print ++ (token.print ++ printTokens (fun i => gaps (i + 1)) tokens)

mutual

def valueTokens : KvValue → List Token
  | .string value => [.text value]
  | .object items => .openBrace :: (itemTokens items ++ [.closeBrace])

def itemTokens : List (Text × KvValue) → List Token
  | [] => []
  | (key, value) :: items => .text key :: (valueTokens value ++ itemTokens items)

end

/-- A root object as written. -/
def print (gaps : Nat → List Blank) (items : List (Text × KvValue)) : List UInt8 :=
  printTokens gaps (itemTokens items)

mutual

def KvValue.depth : KvValue → Nat
  | .string _ => 0
  | .object items => itemsDepth items + 1

/-- The depth of the deepest value. -/
def itemsDepth : List (Text × KvValue) → Nat
  | [] => 0
  | (_, value) :: items => max value.depth (itemsDepth items)

end

mutual

theorem nested_valueTokens : ∀ (value : KvValue) {d : Nat} {tokens : List Token}
    {items : List (Text × KvValue)} (key : Text), value.depth ≤ d → Nested d tokens items →
    Nested d (.text key :: (valueTokens value ++ tokens)) ((key, value) :: items)
  | .string value, d, tokens, items, key, _, h => .pair key value h
  | .object fields, d, tokens, items, key, hdepth, h => by
    rw [KvValue.depth] at hdepth
    obtain _ | d := d
    · exact absurd hdepth (Nat.not_succ_le_zero _)
    rw [valueTokens, List.cons_append, List.append_assoc, List.singleton_append]
    exact .object key (nested_itemTokens fields (Nat.le_of_succ_le_succ hdepth)) h

theorem nested_itemTokens : ∀ (items : List (Text × KvValue)) {d : Nat}, itemsDepth items ≤ d →
    Nested d (itemTokens items) items
  | [], d, _ => .nil d
  | (key, value) :: items, d, h => by
    rw [itemsDepth] at h
    rw [itemTokens]
    exact nested_valueTokens value key (Nat.le_trans (Nat.le_max_left ..) h)
      (nested_itemTokens items (Nat.le_trans (Nat.le_max_right ..) h))

end

/-! ## Every byte a character -/

def widenText (text : Text) : Text := text.flatMap widen

def Token.widen : Token → Token
  | .text value => .text (widenText value)
  | token => token

mutual

def KvValue.widen : KvValue → KvValue
  | .string value => .string (widenText value)
  | .object items => .object (widenItems items)

def widenItems : List (Text × KvValue) → List (Text × KvValue)
  | [] => []
  | (key, value) :: items => (widenText key, value.widen) :: widenItems items

end

theorem widen_eq : ∀ b : UInt8,
    widen b = if b < 0x80 then [b] else [0xc0 + b / 0x40, 0x80 + b % 0x40] := by
  have h : ∀ n : Fin 256, widen (UInt8.ofNat n) =
      if UInt8.ofNat n < 0x80 then [UInt8.ofNat n]
      else [0xc0 + UInt8.ofNat n / 0x40, 0x80 + UInt8.ofNat n % 0x40] := by
    decide +kernel
  intro b
  simpa using h ⟨b.toNat, b.toNat_lt⟩

theorem widen_ascii {b : UInt8} (h : b < 0x80) : widen b = [b] := by
  rw [widen_eq, if_pos h]

theorem length_widen {b : UInt8} (h : ¬ b < 0x80) : (widen b).length = 2 := by
  rw [widen_eq, if_neg h]
  rfl

theorem widenText_cons (b : UInt8) (text : Text) : widenText (b :: text) = widen b ++ widenText text :=
  List.flatMap_cons

theorem length_widenText (text : Text) : text.length ≤ (widenText text).length := by
  induction text with
  | nil => exact Nat.le_refl _
  | cons b text ih =>
    rw [widenText_cons, List.length_append, List.length_cons]
    by_cases hb : b < 0x80
    · rw [widen_ascii hb, List.length_singleton]
      omega
    · rw [length_widen hb]
      omega

theorem widenText_eq_iff (text : Text) : widenText text = text ↔ ∀ b ∈ text, b < 0x80 := by
  induction text with
  | nil => simp [widenText]
  | cons b text ih =>
    rw [widenText_cons, List.forall_mem_cons, ← ih]
    by_cases hb : b < 0x80
    · simp [widen_ascii hb, hb]
    · refine ⟨fun h => ?_, fun h => absurd h.1 hb⟩
      have hlength := congrArg List.length h
      have hle := length_widenText text
      rw [List.length_append, length_widen hb, List.length_cons] at hlength
      omega

theorem widen_lt {c d : UInt8} (h : c < d) (a b : Text) : widen c ++ a < widen d ++ b := by
  have hlt : c.toNat < d.toNat := h
  have hd := d.toNat_lt
  have hhead : ∀ e : UInt8, 0x80 ≤ e.toNat → (0xc0 + e / 0x40).toNat = 0xc0 + e.toNat / 0x40 := by
    intro e he
    have he' := e.toNat_lt
    simp only [UInt8.toNat_add, UInt8.toNat_div, UInt8.reduceToNat]
    omega
  have hlast : ∀ e : UInt8, (0x80 + e % 0x40).toNat = 0x80 + e.toNat % 0x40 := by
    intro e
    simp only [UInt8.toNat_add, UInt8.toNat_mod, UInt8.reduceToNat]
    omega
  rw [widen_eq, widen_eq]
  simp only [UInt8.lt_iff_toNat_lt, UInt8.reduceToNat]
  split
  next hc =>
    split
    next => exact List.cons_lt_cons_iff.mpr (.inl h)
    next hd =>
      refine List.cons_lt_cons_iff.mpr (.inl ?_)
      rw [UInt8.lt_iff_toNat_lt, hhead d (by omega)]
      omega
  next hc =>
    rw [if_neg (by omega)]
    by_cases hsame : c.toNat / 0x40 = d.toNat / 0x40
    · refine List.cons_lt_cons_iff.mpr (.inr ⟨?_, List.cons_lt_cons_iff.mpr (.inl ?_)⟩)
      · exact UInt8.toNat_inj.mp (by rw [hhead c (by omega), hhead d (by omega), hsame])
      · rw [UInt8.lt_iff_toNat_lt, hlast, hlast]
        omega
    · refine List.cons_lt_cons_iff.mpr (.inl ?_)
      rw [UInt8.lt_iff_toNat_lt, hhead c (by omega), hhead d (by omega)]
      omega

theorem append_lt_append_iff (a b c : Text) : a ++ b < a ++ c ↔ b < c := by
  induction a with
  | nil => rfl
  | cons d a ih => simp [ih]

/-- Widened texts are in the order of the texts. -/
theorem widenText_lt_iff (a b : Text) : widenText a < widenText b ↔ a < b := by
  induction a generalizing b with
  | nil =>
    cases b with
    | nil => simp [widenText]
    | cons d b =>
      have hlength := length_widenText (d :: b)
      cases hwide : widenText (d :: b) with
      | nil => simp [hwide] at hlength
      | cons e text => simp [widenText]
  | cons c a ih =>
    cases b with
    | nil => simp [widenText]
    | cons d b =>
      rw [widenText_cons, widenText_cons, List.cons_lt_cons_iff]
      rcases Nat.lt_trichotomy c.toNat d.toNat with hlt | heq | hlt
      · exact ⟨fun _ => .inl hlt, fun _ => widen_lt hlt _ _⟩
      · obtain rfl := UInt8.toNat_inj.mp heq
        rw [append_lt_append_iff, ih]
        simp
      · have hgt : ¬ widen c ++ widenText a < widen d ++ widenText b :=
          Std.Asymm.asymm _ _ (widen_lt hlt _ _)
        refine ⟨fun h => absurd h hgt, ?_⟩
        rintro (h | ⟨rfl, -⟩)
        · exact absurd hlt (UInt8.lt_asymm h)
        · exact absurd hlt (UInt8.lt_irrefl _)

theorem widenText_injective : Function.Injective widenText := by
  intro a b h
  have hirrefl : ¬ widenText a < widenText b := by
    rw [h]
    exact List.lt_irrefl _
  have hirrefl' : ¬ widenText b < widenText a := by
    rw [h]
    exact List.lt_irrefl _
  rw [widenText_lt_iff] at hirrefl hirrefl'
  exact List.le_antisymm (List.not_lt.mp hirrefl') (List.not_lt.mp hirrefl)

theorem widenItems_eq (items : List (Text × KvValue)) :
    widenItems items = items.map (Prod.map widenText KvValue.widen) := by
  induction items with
  | nil => rfl
  | cons item items ih => rw [widenItems, ih, List.map_cons]; rfl

mutual

theorem normal_widen : ∀ value : KvValue, value.widen.normal = value.normal.widen
  | .string value => rfl
  | .object items => by
    rw [KvValue.widen, KvValue.normal, KvValue.normal, KvValue.widen, normalItems_widen,
      SortedMap.ofList_map widenText_injective widenText_lt_iff, widenItems_eq]

theorem normalItems_widen : ∀ items : List (Text × KvValue),
    normalItems (widenItems items) = (normalItems items).map (Prod.map widenText KvValue.widen)
  | [] => rfl
  | (key, value) :: items => by
    rw [widenItems, normalItems, normalItems, List.map_cons, normal_widen value,
      normalItems_widen items]
    rfl

end

mutual

/-- All keys and strings are ASCII. -/
def KvValue.Ascii : KvValue → Prop
  | .string value => ∀ b ∈ value, b < 0x80
  | .object items => ItemsAscii items

def ItemsAscii : List (Text × KvValue) → Prop
  | [] => True
  | (key, value) :: items => (∀ b ∈ key, b < 0x80) ∧ value.Ascii ∧ ItemsAscii items

end

mutual

theorem widen_eq_iff : ∀ value : KvValue, value.widen = value ↔ value.Ascii
  | .string value => by
    rw [KvValue.widen, KvValue.Ascii, KvValue.string.injEq, widenText_eq_iff]
  | .object items => by
    rw [KvValue.widen, KvValue.Ascii, KvValue.object.injEq, widenItems_eq_iff]

theorem widenItems_eq_iff : ∀ items : List (Text × KvValue),
    widenItems items = items ↔ ItemsAscii items
  | [] => by simp [widenItems, ItemsAscii]
  | (key, value) :: items => by
    rw [widenItems, ItemsAscii, List.cons.injEq, Prod.mk.injEq, widenText_eq_iff, widen_eq_iff value,
      widenItems_eq_iff items, and_assoc]

end

/-! ## The tokens of a printed tree -/

/-- At any offset, these bytes are scanned to these tokens. -/
def Scans (bytes : List UInt8) (tokens : List Token) : Prop :=
  ∀ offset, ∃ fuel spanned, tokenize fuel offset bytes = some (.ok spanned) ∧
    spanned.map (·.token) = tokens

theorem scans_nil : Scans [] [] := fun _ => ⟨0, [], rfl, rfl⟩

theorem scans_next {b : UInt8} {bytes rest : List UInt8} (token : Option Token)
    {tokens : List Token}
    (hscan : ∀ offset, ∃ spanned after, scanToken offset b bytes = .ok (spanned, after, rest) ∧
      spanned.map (·.token) = token)
    (h : Scans rest tokens) : Scans (b :: bytes) (token.toList ++ tokens) := by
  intro offset
  obtain ⟨spanned, after, hscan, htoken⟩ := hscan offset
  obtain ⟨fuel, more, hmore, htokens⟩ := h after
  refine ⟨fuel + 1, spanned.toList ++ more, ?_, ?_⟩
  · rw [tokenize, hscan]
    exact bind_ok_iff.mpr ⟨more, hmore, rfl⟩
  · subst htoken htokens
    cases spanned with
    | none => rfl
    | some s => rfl

theorem scans_white {b : UInt8} {bytes : List UInt8} {tokens : List Token} (hb : isBlank b = true)
    (h : Scans bytes tokens) : Scans (b :: bytes) tokens :=
  scans_next none (fun offset => ⟨none, offset + 1, by rw [scanToken, if_pos hb], rfl⟩) h

theorem scans_blank (blank : Blank) {bytes : List UInt8} {tokens : List Token}
    (h : Scans bytes tokens) : Scans (blank.print ++ bytes) tokens := by
  cases blank with
  | space => exact scans_white rfl h
  | tab => exact scans_white rfl h
  | carriageReturn => exact scans_white rfl h
  | newline => exact scans_white rfl h
  | comment line =>
    obtain ⟨line, hline⟩ := line
    have hskip : ((slash :: line) ++ newline :: bytes).dropWhile (· ≠ newline) =
        newline :: bytes := by
      rw [List.dropWhile_append_of_pos]
      · rfl
      · intro b hb
        rcases List.mem_cons.mp hb with rfl | hb
        · rfl
        · simpa using ne_of_mem_of_not_mem hb hline
    have hnext : Scans (newline :: bytes) tokens := scans_white rfl h
    rw [← hskip] at hnext
    have hprint : (Blank.comment ⟨line, hline⟩).print ++ bytes =
        slash :: ((slash :: line) ++ newline :: bytes) := by
      simp [Blank.print]
    rw [hprint]
    exact scans_next none (fun offset => ⟨none, _, rfl, rfl⟩) hnext

theorem scans_gap (gap : List Blank) {bytes : List UInt8} {tokens : List Token}
    (h : Scans bytes tokens) : Scans (gap.flatMap Blank.print ++ bytes) tokens := by
  induction gap with
  | nil => exact h
  | cons blank gap ih =>
    rw [List.flatMap_cons, List.append_assoc]
    exact scans_blank blank ih

theorem scanQuoted_escaped (e : UInt8) (rest : List UInt8) (start offset : Nat) :
    scanQuoted start offset (backslash :: e :: rest) =
      (scanQuoted start (offset + 2) rest).map fun (value, after) =>
        (unescape e ++ value, after) := by
  rw [scanQuoted, if_neg (by decide), if_pos rfl]

theorem scanQuoted_escapeByte (b : UInt8) (rest : List UInt8) (start offset : Nat) :
    ∃ next, scanQuoted start offset (escapeByte b ++ rest) =
      (scanQuoted start next rest).map fun (value, after) => (widen b ++ value, after) := by
  unfold escapeByte
  split
  next h =>
    subst h
    exact ⟨offset + 2, scanQuoted_escaped backslash rest start offset⟩
  next hbackslash =>
  split
  next h =>
    subst h
    exact ⟨offset + 2, scanQuoted_escaped quote rest start offset⟩
  next hquote =>
  split
  next h =>
    subst h
    exact ⟨offset + 2, scanQuoted_escaped 'n'.toUInt8 rest start offset⟩
  next =>
  split
  next h =>
    subst h
    exact ⟨offset + 2, scanQuoted_escaped 't'.toUInt8 rest start offset⟩
  next =>
    refine ⟨offset + 1, ?_⟩
    rw [List.singleton_append, scanQuoted.eq_def]
    simp only [if_neg hquote, if_neg hbackslash]

theorem scanQuoted_text (text : Text) (rest : List UInt8) (start offset : Nat) :
    ∃ after, scanQuoted start offset (text.flatMap escapeByte ++ quote :: rest) =
      .ok (widenText text, after, rest) := by
  induction text generalizing offset with
  | nil =>
    refine ⟨offset + 1, ?_⟩
    rw [List.flatMap_nil, List.nil_append, scanQuoted.eq_def]
    rfl
  | cons b text ih =>
    obtain ⟨next, hnext⟩ := scanQuoted_escapeByte b (text.flatMap escapeByte ++ quote :: rest)
      start offset
    obtain ⟨after, hafter⟩ := ih next
    refine ⟨after, ?_⟩
    rw [List.flatMap_cons, List.append_assoc, hnext, hafter, widenText_cons]
    rfl

theorem scans_token (token : Token) {bytes : List UInt8} {tokens : List Token}
    (h : Scans bytes tokens) : Scans (token.print ++ bytes) (token.widen :: tokens) := by
  cases token with
  | openBrace => exact scans_next (some .openBrace) (fun offset => ⟨_, _, rfl, rfl⟩) h
  | closeBrace => exact scans_next (some .closeBrace) (fun offset => ⟨_, _, rfl, rfl⟩) h
  | text value =>
    rw [Token.print, List.cons_append, List.append_assoc, List.singleton_append]
    refine scans_next (some (.text (widenText value))) (fun offset => ?_) h
    obtain ⟨after, hscan⟩ := scanQuoted_text value bytes offset (offset + 1)
    refine ⟨some ⟨.text (widenText value), offset⟩, after, ?_, rfl⟩
    have htoken : ∀ rest, scanToken offset quote rest =
        (scanQuoted offset (offset + 1) rest).map fun (value, after) =>
          (some ⟨.text value, offset⟩, after) := fun rest => rfl
    rw [htoken, hscan]
    rfl

theorem scans_printTokens (tokens : List Token) (gaps : Nat → List Blank) :
    Scans (printTokens gaps tokens) (tokens.map Token.widen) := by
  induction tokens generalizing gaps with
  | nil =>
    rw [printTokens, ← List.append_nil ((gaps 0).flatMap Blank.print)]
    exact scans_gap _ scans_nil
  | cons token tokens ih => exact scans_gap _ (scans_token token (ih _))

/-! ## The parser on a printed tree -/

theorem returns_unique {input : List UInt8} {r r' : Except KvError KvValue}
    (h : Returns input r) (h' : Returns input r') : r = r' := by
  obtain ⟨fuel, h⟩ := h
  obtain ⟨fuel', h'⟩ := h'
  unfold parseKeyValues at h h'
  split at h
  next hlong =>
    rw [if_pos hlong] at h'
    exact Option.some.inj (h.symm.trans h')
  next hlong =>
    rw [if_neg hlong] at h'
    -- Both runs tokenize to what the larger of their fuels gives.
    have hsame : ∀ t t', tokenize fuel 0 input = some t → tokenize fuel' 0 input = some t' →
        t = t' := fun t t' ht ht' =>
      Option.some.inj ((tokenize_mono ht (Nat.le_max_left fuel fuel')).symm.trans
        (tokenize_mono ht' (Nat.le_max_right fuel fuel')))
    rcases bind_iff.mp h with ⟨e, he, rfl⟩ | ⟨tokens, htokens, h⟩
    · rcases bind_iff.mp h' with ⟨e', he', rfl⟩ | ⟨tokens, htokens, -⟩
      · rw [Except.error.inj (hsame _ _ he he')]
      · exact absurd (hsame _ _ he htokens) nofun
    · rcases bind_iff.mp h' with ⟨e', he', -⟩ | ⟨tokens', htokens', h'⟩
      · exact absurd (hsame _ _ htokens he') nofun
      · obtain rfl := Except.ok.inj (hsame _ _ htokens htokens')
        exact Option.some.inj (h.symm.trans h')

/-- The tokens of an input. -/
def TokensOf (input : List UInt8) (tokens : List Token) : Prop :=
  ∃ fuel spanned, tokenize fuel 0 input = some (.ok spanned) ∧ spanned.map (·.token) = tokens

theorem returns_ok_iff (input : List UInt8) (value : KvValue) :
    Returns input (.ok value) ↔ input.length ≤ maxVdfBytes ∧ ∃ tokens items,
      TokensOf input tokens ∧ Nested maxDepth tokens items ∧
        value = (KvValue.object items).normal := by
  constructor
  · rintro ⟨fuel, h⟩
    unfold parseKeyValues at h
    split at h
    next => exact absurd h error_ne_ok
    next hlong =>
      obtain ⟨spanned, hspanned, h⟩ := bind_ok_iff.mp h
      obtain ⟨⟨root, rest⟩, hroot, h⟩ := bind_ok_iff.mp h
      obtain ⟨rfl, items, hnested, rfl⟩ := parseObject_iff.mp hroot
      obtain rfl := ok_inj h
      exact ⟨Nat.le_of_not_lt hlong, _, items, ⟨fuel, spanned, hspanned, rfl⟩, hnested, rfl⟩
  · rintro ⟨hlong, _, items, ⟨fuel, spanned, hspanned, rfl⟩, hnested, rfl⟩
    refine ⟨fuel, ?_⟩
    rw [parseKeyValues, if_neg (Nat.not_lt.mpr hlong)]
    have hroot := parseObject_iff.mpr ⟨rfl, items, hnested, rfl⟩
    exact bind_ok_iff.mpr ⟨spanned, hspanned, bind_ok_iff.mpr ⟨_, hroot, rfl⟩⟩

theorem returns_iff (input : List UInt8) :
    (∃ r, Returns input r) ↔ maxVdfBytes < input.length ∨ bareFormFeed .outside input = false := by
  constructor
  · rintro ⟨r, fuel, h⟩
    unfold parseKeyValues at h
    split at h
    next hlong => exact .inl hlong
    next =>
      refine .inr ((tokenize_returns 0 input).mp ?_)
      rcases bind_iff.mp h with ⟨e, he, -⟩ | ⟨tokens, htokens, -⟩
      · exact ⟨fuel, _, he⟩
      · exact ⟨fuel, _, htokens⟩
  · intro h
    by_cases hlong : maxVdfBytes < input.length
    · exact ⟨.error .tooLarge, 0, by rw [parseKeyValues, if_pos hlong]⟩
    · obtain ⟨fuel, t, ht⟩ := (tokenize_returns 0 input).mpr (h.resolve_left hlong)
      suffices hends : ∃ r, parseKeyValues fuel input = some r from hends.imp fun r hr => ⟨fuel, hr⟩
      rw [parseKeyValues, if_neg hlong]
      refine bind_ends ⟨t, ht⟩ fun tokens _ => ?_
      refine bind_ends (parseObject_returns (Nat.lt_succ_self _)) fun a ha => ?_
      obtain ⟨root, rest⟩ := a
      obtain ⟨rfl, -⟩ := parseObject_iff.mp ha
      exact ⟨_, rfl⟩

theorem Nested.widen {d : Nat} {tokens : List Token} {items : List (Text × KvValue)}
    (h : Nested d tokens items) : Nested d (tokens.map Token.widen) (widenItems items) := by
  induction h with
  | nil d => exact .nil d
  | pair key value hitems ih => exact .pair _ _ ih
  | object key hfields hitems ihfields ihitems =>
    simp only [List.map_cons, List.map_append]
    exact .object _ ihfields ihitems

/-- **The parser returns the widened tree.** -/
theorem parse_print {items : List (Text × KvValue)} {gaps : Nat → List Blank}
    (hdepth : itemsDepth items ≤ maxDepth) (hlong : (print gaps items).length ≤ maxVdfBytes) :
    Returns (print gaps items) (.ok (KvValue.object items).normal.widen) := by
  obtain ⟨fuel, spanned, hspanned, htokens⟩ := scans_printTokens (itemTokens items) gaps 0
  refine (returns_ok_iff _ _).mpr ⟨hlong, _, widenItems items, ⟨fuel, spanned, hspanned, htokens⟩,
    (nested_itemTokens items hdepth).widen, ?_⟩
  rw [← normal_widen, KvValue.widen]

mutual

/-- The keys of every object are in order, none of them twice. -/
def KvValue.IsTree : KvValue → Prop
  | .string _ => True
  | .object fields => SortedMap.Sorted fields ∧ FieldsAreTrees fields

def FieldsAreTrees : List (Text × KvValue) → Prop
  | [] => True
  | (_, value) :: fields => value.IsTree ∧ FieldsAreTrees fields

end

mutual

theorem normal_of_isTree : ∀ {value : KvValue}, value.IsTree → value.normal = value
  | .string value, _ => rfl
  | .object fields, h => by
    rw [KvValue.IsTree] at h
    rw [KvValue.normal, normalItems_of_trees h.2, SortedMap.ofList_sorted h.1]

theorem normalItems_of_trees : ∀ {fields : List (Text × KvValue)}, FieldsAreTrees fields →
    normalItems fields = fields
  | [], _ => rfl
  | (key, value) :: fields, h => by
    rw [FieldsAreTrees] at h
    rw [normalItems, normal_of_isTree h.1, normalItems_of_trees h.2]

end

/-- **What comes back**: a printed object, of whose entries the last of a key
stays, and a tree among them, just when it is ASCII; an answer, which is the
one of the grammar, just when the input is too long or has no bare form feed. -/
theorem key_values_read_back (items : List (Text × KvValue)) (gaps : Nat → List Blank)
    (input : List UInt8) :
    (itemsDepth items ≤ maxDepth → (print gaps items).length ≤ maxVdfBytes →
      (Returns (print gaps items) (.ok (KvValue.object items).normal) ↔
        (KvValue.object items).normal.Ascii) ∧
      ((KvValue.object items).IsTree →
        (Returns (print gaps items) (.ok (.object items)) ↔ (KvValue.object items).Ascii))) ∧
    ((∃ r, Returns input r ∧ ((∃ value, r = .ok value) ↔ input.length ≤ maxVdfBytes ∧
        ∃ tokens items, TokensOf input tokens ∧ Nested maxDepth tokens items)) ↔
      maxVdfBytes < input.length ∨ bareFormFeed .outside input = false) := by
  refine ⟨fun hdepth hlong => ?_, ?_⟩
  · have hparse := parse_print hdepth hlong
    have hback : Returns (print gaps items) (.ok (KvValue.object items).normal) ↔
        (KvValue.object items).normal.Ascii := by
      rw [← widen_eq_iff]
      refine ⟨fun h => Except.ok.inj (returns_unique hparse h), fun h => ?_⟩
      rwa [h] at hparse
    refine ⟨hback, fun htree => ?_⟩
    rwa [normal_of_isTree htree] at hback
  · rw [← returns_iff]
    refine ⟨fun ⟨r, hr, _⟩ => ⟨r, hr⟩, fun ⟨r, hr⟩ => ⟨r, hr, ?_, ?_⟩⟩
    · rintro ⟨value, rfl⟩
      obtain ⟨hlong, tokens, items, htokens, hnested, -⟩ := (returns_ok_iff input value).mp hr
      exact ⟨hlong, tokens, items, htokens, hnested⟩
    · rintro ⟨hlong, tokens, items, htokens, hnested⟩
      exact ⟨_, returns_unique hr ((returns_ok_iff input _).mpr
        ⟨hlong, tokens, items, htokens, hnested, rfl⟩)⟩

def text (s : String) : Text := Utf8.encode s.toList

theorem ascii_of_all {bytes : Text} (h : bytes.all (fun b => decide (b < 0x80)) = true) :
    ∀ b ∈ bytes, b < 0x80 := by
  simpa using h

/-- An object with a comment before each of its tokens. -/
theorem key_values_read_back_library :
    Returns (print (fun _ => [.comment ⟨text " steam", by decide⟩])
        [(text "0", .object [(text "path", .string (text "/games"))])])
      (.ok (.object [(text "0", .object [(text "path", .string (text "/games"))])])) := by
  refine (((key_values_read_back _ _ []).1 (by decide) (by decide)).2 ?_).mpr ?_
  · simp [KvValue.IsTree, FieldsAreTrees, SortedMap.Sorted]
  · simp only [KvValue.Ascii, ItemsAscii, and_true]
    exact ⟨ascii_of_all (by decide), ascii_of_all (by decide), ascii_of_all (by decide)⟩

/-- A path with an accent comes back as another path, and a form feed is the
end of nothing. -/
theorem key_values_accent :
    ¬ Returns (print (fun _ => []) [(text "path", .string (text "é"))])
        (.ok (.object [(text "path", .string (text "é"))])) ∧
      ∀ r, ¬ Returns [formFeed] r := by
  refine ⟨fun h => ?_, fun r h => ?_⟩
  · have hparse : Returns (print (fun _ => []) [(text "path", .string (text "é"))])
        (.ok (.object [(text "path", .string (text "Ã©"))])) := parse_print (by decide) (by decide)
    have hsame := Except.ok.inj (returns_unique h hparse)
    simp only [KvValue.object.injEq, List.cons.injEq, Prod.mk.injEq, KvValue.string.injEq] at hsame
    exact absurd hsame.1.2 (by decide)
  · rcases (returns_iff [formFeed]).mp ⟨r, h⟩ with hlong | hbare
    · exact absurd hlong (by decide)
    · exact absurd hbare (by decide)

end Kwe.Vdf
