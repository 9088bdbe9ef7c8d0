import Kwe.Foundation.Base64

/-!
The decoder of the screencast's JPEG: `decode_base64`.

* `decodeChunks_eq_some_iff`: the texts that are decoded, and to what;
* `decode_encode`: encoded bytes come back;
* `canonical_iff`: the texts that are refused or decoded to what they encode.

A text is its bytes.
-/

namespace Kwe.Web

open Foundation.Base64

def maxJpegBase64Bytes : Nat := 4 * 1024 * 1024

/-- `=`. -/
def padding : UInt8 := 61

def table (c : UInt8) : Option UInt8 :=
  if 65 ≤ c ∧ c ≤ 90 then some (c - 65)
  else if 97 ≤ c ∧ c ≤ 122 then some (c - 97 + 26)
  else if 48 ≤ c ∧ c ≤ 57 then some (c - 48 + 52)
  else if c = 43 then some 62
  else if c = 47 then some 63
  else none

/-- The four values of a chunk, one after another. -/
def word (v₀ v₁ v₂ v₃ : UInt8) : UInt32 :=
  v₀.toUInt32 <<< 18 ||| v₁.toUInt32 <<< 12 ||| v₂.toUInt32 <<< 6 ||| v₃.toUInt32

/-- A turn of the loop of `decode_base64`. -/
def decodeChunk (c₀ c₁ c₂ c₃ : UInt8) : Option (List UInt8) :=
  if c₀ = padding ∨ c₁ = padding ∨ (c₂ = padding ∧ c₃ ≠ padding) then none
  else do
    let padded := if c₂ = padding then 2 else if c₃ = padding then 1 else 0
    let v₀ ← table c₀
    let v₁ ← table c₁
    let v₂ ← (if 2 ≤ padded then some 0 else table c₂)
    let v₃ ← (if 1 ≤ padded then some 0 else table c₃)
    let n := word v₀ v₁ v₂ v₃
    some ((n >>> 16).toUInt8 ::
      ((if padded < 2 then [(n >>> 8).toUInt8] else []) ++
        if padded < 1 then [n.toUInt8] else []))

/-- The loop. -/
def decodeChunks : List UInt8 → Option (List UInt8)
  | c₀ :: c₁ :: c₂ :: c₃ :: chunks => do
    let bytes ← decodeChunk c₀ c₁ c₂ c₃
    let output ← decodeChunks chunks
    some (bytes ++ output)
  | _ => some []

def decodeBase64 (input : List UInt8) : Option (List UInt8) :=
  if input = [] ∨ input.length % 4 ≠ 0 ∨ maxJpegBase64Bytes < input.length then none
  else decodeChunks input

/-! ## The alphabet -/

def symbol (v : Fin 64) : UInt8 :=
  if v < 26 then 65 + .ofNat v
  else if v < 52 then 97 + .ofNat (v - 26)
  else if v < 62 then 48 + .ofNat (v - 52)
  else if v = 62 then 43
  else 47

theorem table_symbol : ∀ v : Fin 64, table (symbol v) = some (.ofNat v) := by decide

theorem toNat_ofNat_value (v : Fin 64) : (UInt8.ofNat (v : Nat)).toNat = v := by
  rw [UInt8.toNat_ofNat']
  omega

theorem symbol_injective : Function.Injective symbol := by
  intro v w h
  have htable := table_symbol v
  rw [h, table_symbol w] at htable
  have hvalue := congrArg UInt8.toNat (Option.some.inj htable)
  rw [toNat_ofNat_value, toNat_ofNat_value] at hvalue
  exact Fin.ext hvalue.symm

/-- The standard alphabet. -/
def standard : Alphabet UInt8 where
  symbol := symbol
  pad := padding
  symbol_injective := symbol_injective
  symbol_ne_pad := by decide

theorem symbol_of_table {c x : UInt8} (h : table c = some x) : ∃ v, c = symbol v := by
  have hall : ∀ n : Fin 256,
      (table (.ofNat n)).all (fun x => symbol (.ofNat 64 x.toNat) = .ofNat n) = true := by
    decide +kernel
  have hc := hall ⟨c.toNat, c.toNat_lt⟩
  rw [UInt8.ofNat_toNat, h, Option.all_some, decide_eq_true_iff] at hc
  exact ⟨_, hc.symm⟩

/-! ## A chunk -/

theorem toNat_shift (v : Fin 64) {k : UInt32} (hk : k.toNat ≤ 18) :
    ((UInt8.ofNat (v : Nat)).toUInt32 <<< k).toNat = v * 2 ^ k.toNat := by
  have hpow : 2 ^ k.toNat ≤ 2 ^ 18 := Nat.pow_le_pow_right (by decide) hk
  have hv : (v : Nat) * 2 ^ k.toNat < 2 ^ 32 := by
    have hle : (v : Nat) * 2 ^ k.toNat ≤ 63 * 2 ^ 18 := Nat.mul_le_mul (by omega) hpow
    omega
  rw [UInt32.toNat_shiftLeft, UInt8.toNat_toUInt32, toNat_ofNat_value,
    Nat.mod_eq_of_lt (Nat.lt_of_le_of_lt hk (by decide)), Nat.shiftLeft_eq,
    Nat.mod_eq_of_lt hv]

theorem or_eq_add {a b i : Nat} (h : b < 2 ^ i) : a * 2 ^ i ||| b = a * 2 ^ i + b := by
  rw [← Nat.shiftLeft_eq, ← Nat.shiftLeft_add_eq_or_of_lt h]

theorem toNat_word (v₀ v₁ v₂ v₃ : Fin 64) :
    (word (.ofNat v₀) (.ofNat v₁) (.ofNat v₂) (.ofNat v₃)).toNat =
      ((v₀ * 64 + v₁) * 64 + v₂) * 64 + v₃ := by
  have h₀ : (18 : UInt32).toNat = 18 := rfl
  have h₁ : (12 : UInt32).toNat = 12 := rfl
  have h₂ : (6 : UInt32).toNat = 6 := rfl
  have hfirst : (v₀ : Nat) * 2 ^ 18 ||| v₁ * 2 ^ 12 = (v₀ * 64 + v₁) * 2 ^ 12 := by
    rw [or_eq_add (by omega)]
    omega
  have hsecond : ((v₀ : Nat) * 64 + v₁) * 2 ^ 12 ||| v₂ * 2 ^ 6 =
      ((v₀ * 64 + v₁) * 64 + v₂) * 2 ^ 6 := by
    rw [or_eq_add (by omega)]
    omega
  have hthird : (((v₀ : Nat) * 64 + v₁) * 64 + v₂) * 2 ^ 6 ||| (v₃ : Nat) =
      ((v₀ * 64 + v₁) * 64 + v₂) * 64 + v₃ := or_eq_add (i := 6) (by omega)
  rw [word, UInt32.toNat_or, UInt32.toNat_or, UInt32.toNat_or, UInt8.toNat_toUInt32,
    toNat_ofNat_value, toNat_shift v₀ (Nat.le_of_eq h₀), toNat_shift v₁ (by rw [h₁]; decide),
    toNat_shift v₂ (by rw [h₂]; decide), h₀, h₁, h₂, hfirst, hsecond, hthird]

/-- The bytes of a word. -/
theorem word_bytes (v₀ v₁ v₂ v₃ : Fin 64) :
    ((word (.ofNat v₀) (.ofNat v₁) (.ofNat v₂) (.ofNat v₃)) >>> 16).toUInt8 = upper v₀ v₁ ∧
    ((word (.ofNat v₀) (.ofNat v₁) (.ofNat v₂) (.ofNat v₃)) >>> 8).toUInt8 = inner v₁ v₂ ∧
    (word (.ofNat v₀) (.ofNat v₁) (.ofNat v₂) (.ofNat v₃)).toUInt8 = lower v₂ v₃ := by
  have h₁₆ : (16 : UInt32).toNat = 16 := rfl
  have h₈ : (8 : UInt32).toNat = 8 := rfl
  simp only [← UInt8.toNat_inj, UInt32.toNat_toUInt8, UInt32.toNat_shiftRight, toNat_word,
    toNat_upper, toNat_inner, toNat_lower, h₁₆, h₈, Nat.shiftRight_eq_div_pow,
    Nat.reduceMod, Nat.reducePow]
  omega

theorem symbol_ne_padding (v : Fin 64) : symbol v ≠ padding := standard.symbol_ne_pad v

theorem decodeChunk_one (v₀ v₁ : Fin 64) :
    decodeChunk (symbol v₀) (symbol v₁) padding padding = some (Group.one v₀ v₁).bytes := by
  have hword := (word_bytes v₀ v₁ 0 0).1
  simp [decodeChunk, symbol_ne_padding, table_symbol, Group.bytes] at hword ⊢
  exact hword

theorem decodeChunk_two (v₀ v₁ v₂ : Fin 64) :
    decodeChunk (symbol v₀) (symbol v₁) (symbol v₂) padding =
      some (Group.two v₀ v₁ v₂).bytes := by
  obtain ⟨hupper, hinner, -⟩ := word_bytes v₀ v₁ v₂ 0
  simp [decodeChunk, symbol_ne_padding, table_symbol, Group.bytes] at hupper hinner ⊢
  exact ⟨hupper, hinner⟩

theorem decodeChunk_three (v₀ v₁ v₂ v₃ : Fin 64) :
    decodeChunk (symbol v₀) (symbol v₁) (symbol v₂) (symbol v₃) =
      some (Group.three v₀ v₁ v₂ v₃).bytes := by
  obtain ⟨hupper, hinner, hlower⟩ := word_bytes v₀ v₁ v₂ v₃
  simp [decodeChunk, symbol_ne_padding, table_symbol, Group.bytes, hupper, hinner, hlower]

/-- Only the text of a group is decoded. -/
theorem group_of_decodeChunk {c₀ c₁ c₂ c₃ : UInt8} {bytes : List UInt8}
    (h : decodeChunk c₀ c₁ c₂ c₃ = some bytes) :
    ∃ g : Group, [c₀, c₁, c₂, c₃] = g.text standard := by
  rw [decodeChunk] at h
  split at h
  next => exact nomatch h
  next hpadding =>
    simp only [not_or, not_and, not_not] at hpadding
    obtain ⟨x₀, hx₀, h₁⟩ := Option.bind_eq_some_iff.mp h
    obtain ⟨x₁, hx₁, h₂⟩ := Option.bind_eq_some_iff.mp h₁
    obtain ⟨x₂, hx₂, h₃⟩ := Option.bind_eq_some_iff.mp h₂
    obtain ⟨x₃, hx₃, -⟩ := Option.bind_eq_some_iff.mp h₃
    obtain ⟨v₀, hv₀⟩ := symbol_of_table hx₀
    obtain ⟨v₁, hv₁⟩ := symbol_of_table hx₁
    by_cases hc₂ : c₂ = padding
    · exact ⟨.one v₀ v₁, by rw [hv₀, hv₁, hc₂, hpadding.2.2 hc₂]; rfl⟩
    · by_cases hc₃ : c₃ = padding
      · have hsecond : table c₂ = some x₂ := by simpa [hc₂, hc₃] using hx₂
        obtain ⟨v₂, hv₂⟩ := symbol_of_table hsecond
        exact ⟨.two v₀ v₁ v₂, by rw [hv₀, hv₁, hv₂, hc₃]; rfl⟩
      · have hsecond : table c₂ = some x₂ := by simpa [hc₂, hc₃] using hx₂
        have hthird : table c₃ = some x₃ := by simpa [hc₂, hc₃] using hx₃
        obtain ⟨v₂, hv₂⟩ := symbol_of_table hsecond
        obtain ⟨v₃, hv₃⟩ := symbol_of_table hthird
        exact ⟨.three v₀ v₁ v₂ v₃, by rw [hv₀, hv₁, hv₂, hv₃]; rfl⟩

/-! ## A text -/

theorem decodeChunks_group (g : Group) (chunks : List UInt8) :
    decodeChunks (g.text standard ++ chunks) =
      (decodeChunks chunks).map (g.bytes ++ ·) := by
  have hmap : ∀ bytes : List UInt8, (do
      let output ← decodeChunks chunks
      some (bytes ++ output)) = (decodeChunks chunks).map (bytes ++ ·) := by
    intro bytes
    cases decodeChunks chunks <;> rfl
  cases g with
  | one v₀ v₁ =>
    simp only [Group.text, standard, List.cons_append, List.nil_append, decodeChunks,
      decodeChunk_one, Option.bind_eq_bind, Option.bind_some]
    exact hmap _
  | two v₀ v₁ v₂ =>
    simp only [Group.text, standard, List.cons_append, List.nil_append, decodeChunks,
      decodeChunk_two, Option.bind_eq_bind, Option.bind_some]
    exact hmap _
  | three v₀ v₁ v₂ v₃ =>
    simp only [Group.text, standard, List.cons_append, List.nil_append, decodeChunks,
      decodeChunk_three, Option.bind_eq_bind, Option.bind_some]
    exact hmap _

theorem decodeChunks_text (groups : List Group) :
    decodeChunks (text standard groups) = some (groups.flatMap Group.bytes) := by
  induction groups with
  | nil => rfl
  | cons g groups ih =>
    rw [text, List.flatMap_cons, decodeChunks_group, ← text, ih]
    rfl

/-- The texts that are decoded are those of groups. -/
theorem groups_of_decodeChunks {input s : List UInt8} (hlength : input.length % 4 = 0)
    (h : decodeChunks input = some s) : ∃ groups, input = text standard groups := by
  fun_induction decodeChunks input generalizing s with
  | case1 c₀ c₁ c₂ c₃ chunks ih =>
    obtain ⟨bytes, hbytes, h⟩ := Option.bind_eq_some_iff.mp h
    obtain ⟨output, houtput, -⟩ := Option.bind_eq_some_iff.mp h
    obtain ⟨g, hg⟩ := group_of_decodeChunk hbytes
    simp only [List.length_cons] at hlength
    obtain ⟨groups, rfl⟩ := ih (by omega) houtput
    exact ⟨g :: groups, congrArg (· ++ text standard groups) hg⟩
  | case2 input hshort =>
    refine ⟨[], ?_⟩
    match input, hshort, hlength with
    | [], _, _ => rfl
    | [_], _, hlength | [_, _], _, hlength | [_, _, _], _, hlength => simp at hlength
    | c₀ :: c₁ :: c₂ :: c₃ :: chunks, hshort, _ => exact absurd rfl (hshort c₀ c₁ c₂ c₃ chunks)

/-- The readings of a text that `decode_base64` takes. -/
def Reads (input : List UInt8) (groups : List Group) : Prop :=
  groups ≠ [] ∧ input.length ≤ maxJpegBase64Bytes ∧ input = text standard groups

theorem decodeBase64_eq_some_iff {input s : List UInt8} :
    decodeBase64 input = some s ↔
      ∃ groups, Reads input groups ∧ s = groups.flatMap Group.bytes := by
  constructor
  · intro h
    rw [decodeBase64] at h
    split at h
    next => exact nomatch h
    next hinput =>
      simp only [not_or, not_not, Nat.not_lt] at hinput
      obtain ⟨hne, hlength, hshort⟩ := hinput
      obtain ⟨groups, rfl⟩ := groups_of_decodeChunks hlength h
      rw [decodeChunks_text] at h
      refine ⟨groups, ⟨?_, hshort, rfl⟩, (Option.some.inj h).symm⟩
      rintro rfl
      exact hne rfl
  · rintro ⟨groups, ⟨hne, hshort, rfl⟩, rfl⟩
    have hlength := length_text standard groups
    rw [decodeBase64, if_neg, decodeChunks_text]
    simp only [not_or, not_not, Nat.not_lt]
    refine ⟨fun hnil => hne ?_, by omega, hshort⟩
    rw [hnil, List.length_nil] at hlength
    exact List.length_eq_zero_iff.mp (by omega)

theorem decode_encode {s : List UInt8} (hne : s ≠ [])
    (hlength : (encode standard s).length ≤ maxJpegBase64Bytes) :
    decodeBase64 (encode standard s) = some s :=
  decodeBase64_eq_some_iff.mpr ⟨grouped s, ⟨fun h => hne (grouped_eq_nil_iff.mp h), hlength, rfl⟩,
    (bytes_grouped s).symm⟩

theorem eq_encode_iff (input : List UInt8) :
    (∀ s, decodeBase64 input = some s → input = encode standard s) ↔
      ∀ groups, Reads input groups → Canonical groups := by
  constructor
  · intro h groups hreads
    have henc := h _ (decodeBase64_eq_some_iff.mpr ⟨groups, hreads, rfl⟩)
    rw [hreads.2.2] at henc
    exact (text_eq_encode_iff standard).mp henc
  · intro h s hs
    obtain ⟨groups, hreads, rfl⟩ := decodeBase64_eq_some_iff.mp hs
    rw [hreads.2.2]
    exact (text_eq_encode_iff standard).mpr (h groups hreads)

/-- **Decoding.**  What was encoded comes back.  A text is the encoding of what it is
decoded to, and of no other such text, just when no reading of it as groups pads a group
before the last or leaves unused bits that are not zero. -/
theorem canonical_iff (input : List UInt8) :
    (∀ s, s ≠ [] → (encode standard s).length ≤ maxJpegBase64Bytes →
      decodeBase64 (encode standard s) = some s) ∧
    ((∀ s, decodeBase64 input = some s → input = encode standard s) ↔
      ∀ groups, Reads input groups → Canonical groups) ∧
    ((∀ groups, Reads input groups → Canonical groups) → ∀ input' s,
      (∀ groups, Reads input' groups → Canonical groups) →
      decodeBase64 input = some s → decodeBase64 input' = some s → input = input') := by
  refine ⟨fun s => decode_encode, eq_encode_iff input, ?_⟩
  intro h input' s h' hs hs'
  rw [(eq_encode_iff input).mpr h s hs, (eq_encode_iff input').mpr h' s hs']

/-- `TQ==TQ==` pads its first group, and `TR==` is decoded like `TQ==`. -/
theorem padded_in_the_middle :
    decodeBase64 [84, 81, 61, 61, 84, 81, 61, 61] = some [77, 77] ∧
    [84, 81, 61, 61, 84, 81, 61, 61] ≠ encode standard [77, 77] ∧
    decodeBase64 [84, 82, 61, 61] = some [77] ∧ decodeBase64 [84, 81, 61, 61] = some [77] := by
  decide

end Kwe.Web
