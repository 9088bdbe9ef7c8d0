import Kwe.Foundation.Utf8

/-!
Percent-encoding of the URL standard: `%` and two hexadecimal digits stand for
one byte.

* `length_decode_le`, `decode_eq_self_iff`: decoding only takes bytes away, and
  takes none away just when there is no escape;
* `decode_append_cons`: an escape ends at every byte that is not part of one;
* `decode_encodeText`: what is encoded is read back.
-/

namespace Foundation.Percent

open Foundation.Utf8 (encode encode_cons encode_append)

/-- The value of a hexadecimal digit of either case. -/
def hexValue (b : UInt8) : Option Nat :=
  if 0x30 ≤ b ∧ b ≤ 0x39 then some (b.toNat - 0x30)
  else if 0x41 ≤ b ∧ b ≤ 0x46 then some (b.toNat - 0x41 + 10)
  else if 0x61 ≤ b ∧ b ≤ 0x66 then some (b.toNat - 0x61 + 10)
  else none

/-- The byte that two hexadecimal digits write. -/
def pairValue (high low : UInt8) : Option UInt8 :=
  match hexValue high, hexValue low with
  | some h, some l => some (.ofNat (h * 16 + l))
  | _, _ => none

/-- A `%` that no two digits follow stands for itself. -/
def decode : List UInt8 → List UInt8
  | b :: high :: low :: bytes =>
    if b = 0x25 then
      match pairValue high low with
      | some value => value :: decode bytes
      | none => b :: decode (high :: low :: bytes)
    else b :: decode (high :: low :: bytes)
  | bytes => bytes

example : decode [0x25, 0x34, 0x31, 0x25] = [0x41, 0x25] := by
  simp [decode, pairValue, hexValue]

/-- Some `%` is followed by two digits. -/
def hasEscape : List UInt8 → Bool
  | b :: high :: low :: bytes =>
    (b = 0x25 && (pairValue high low).isSome) || hasEscape (high :: low :: bytes)
  | _ => false

example : hasEscape [0x25, 0x25, 0x34] = false := by
  simp [hasEscape, pairValue, hexValue]

/-- The digit of a value below 16. -/
def hexDigit (n : Nat) : Char := if n < 10 then .ofNat (0x30 + n) else .ofNat (0x37 + n)

def escape (b : UInt8) : List Char := ['%', hexDigit (b.toNat / 16), hexDigit (b.toNat % 16)]

/-- The characters of a set as escapes of their bytes. -/
def encodeText (inSet : Char → Bool) (text : List Char) : List Char :=
  text.flatMap fun c =>
    if inSet c then (String.utf8EncodeChar c).flatMap escape else [c]

/-- A byte at which every escape before it has ended and none begins. -/
def Separates (b : UInt8) : Prop := b ≠ 0x25 ∧ hexValue b = none

/-- The bytes of a character are those of a separator. -/
def SeparatesChar (c : Char) : Prop := ∀ b ∈ String.utf8EncodeChar c, Separates b

/-! ## Decoding -/

theorem decode_cons_of_ne {b : UInt8} (h : b ≠ 0x25) (bytes : List UInt8) :
    decode (b :: bytes) = b :: decode bytes := by
  match bytes with
  | [] => rfl
  | [_] => rfl
  | high :: low :: bytes => rw [decode, if_neg h]

theorem decode_escape {high low value : UInt8} (h : pairValue high low = some value)
    (bytes : List UInt8) : decode (0x25 :: high :: low :: bytes) = value :: decode bytes := by
  rw [decode, if_pos rfl, h]

theorem decode_percent {high low : UInt8} (h : pairValue high low = none) (bytes : List UInt8) :
    decode (0x25 :: high :: low :: bytes) = 0x25 :: decode (high :: low :: bytes) := by
  rw [decode, if_pos rfl, h]

theorem length_decode_le (bytes : List UInt8) : (decode bytes).length ≤ bytes.length := by
  fun_induction decode with
  | case1 high low bytes value hpair ih =>
    simp only [List.length_cons]
    omega
  | case2 high low bytes hpair ih => exact Nat.succ_le_succ ih
  | case3 b high low bytes hb ih => exact Nat.succ_le_succ ih
  | case4 bytes _ => exact Nat.le_refl _

theorem length_decode_pos (b : UInt8) (bytes : List UInt8) :
    0 < (decode (b :: bytes)).length := by
  match bytes with
  | [] => exact Nat.succ_pos _
  | [_] => exact Nat.succ_pos _
  | high :: low :: bytes =>
    rw [decode]
    split
    next => split <;> exact Nat.succ_pos _
    next => exact Nat.succ_pos _

/-- Decoding takes bytes away just when there is an escape. -/
theorem length_decode_eq_iff (bytes : List UInt8) :
    (decode bytes).length = bytes.length ↔ hasEscape bytes = false := by
  fun_induction decode with
  | case1 high low bytes value hpair ih =>
    have hle := length_decode_le bytes
    simp only [List.length_cons, hasEscape, hpair]
    constructor
    · intro h
      omega
    · intro h
      exact absurd h (by simp)
  | case2 high low bytes hpair ih =>
    simp only [List.length_cons, Nat.add_right_cancel_iff] at ih ⊢
    rw [ih, hasEscape, hpair]
    simp
  | case3 b high low bytes hb ih =>
    simp only [List.length_cons, Nat.add_right_cancel_iff] at ih ⊢
    rw [ih]
    simp [hasEscape, hb]
  | case4 bytes hshort =>
    match bytes, hshort with
    | [], _ => simp [hasEscape]
    | [_], _ => simp [hasEscape]
    | [_, _], _ => simp [hasEscape]
    | _ :: _ :: _ :: _, hshort => exact absurd rfl (hshort _ _ _ _)

theorem decode_eq_self {bytes : List UInt8} (h : hasEscape bytes = false) :
    decode bytes = bytes := by
  fun_induction decode with
  | case1 high low bytes value hpair ih => simp [hasEscape, hpair] at h
  | case2 high low bytes hpair ih =>
    rw [ih (by simpa [hasEscape, hpair] using h)]
  | case3 b high low bytes hb ih =>
    rw [ih (by simpa [hasEscape, hb] using h)]
  | case4 => rfl

theorem hasEscape_of_cons {b : UInt8} {bytes : List UInt8} (h : hasEscape bytes = true) :
    hasEscape (b :: bytes) = true := by
  match bytes with
  | [] => exact h
  | [_] => exact absurd h (by simp [hasEscape])
  | high :: low :: bytes => rw [hasEscape, h, Bool.or_true]

/-- What has an escape keeps it in every text it is part of. -/
theorem hasEscape_append {bytes : List UInt8} (h : hasEscape bytes = true)
    (before after : List UInt8) : hasEscape (before ++ (bytes ++ after)) = true := by
  induction before with
  | nil =>
    rw [List.nil_append]
    fun_induction hasEscape bytes with
    | case1 b high low bytes ih =>
      rw [List.cons_append, List.cons_append, List.cons_append, hasEscape]
      rcases Bool.or_eq_true_iff.mp h with h | h
      · rw [h, Bool.true_or]
      · rw [← List.cons_append, ← List.cons_append, ih h, Bool.or_true]
    | case2 => exact absurd h (by simp)
  | cons b before ih => exact hasEscape_of_cons ih

theorem pairValue_none_left {b : UInt8} (h : hexValue b = none) (low : UInt8) :
    pairValue b low = none := by
  simp [pairValue, h]

theorem pairValue_none_right {b : UInt8} (h : hexValue b = none) (high : UInt8) :
    pairValue high b = none := by
  simp only [pairValue, h]
  split <;> simp_all

theorem decode_percent_of_short {tail : List UInt8}
    (h : ∀ high low more, tail = high :: low :: more → pairValue high low = none) :
    decode (0x25 :: tail) = 0x25 :: decode tail := by
  match tail with
  | [] => rfl
  | [_] => rfl
  | high :: low :: more => exact decode_percent (h _ _ _ rfl) more

theorem decode_cons_of_short {c : UInt8} {tail : List UInt8}
    (h : ∀ high low more, tail = high :: low :: more → pairValue high low = none) :
    decode (c :: tail) = c :: decode tail := by
  by_cases hc : c = 0x25
  · rw [hc, decode_percent_of_short h]
  · exact decode_cons_of_ne hc tail

/-- An escape does not reach past a byte that is no digit. -/
theorem decode_append (bytes : List UInt8) {b : UInt8} (hb : hexValue b = none)
    (rest : List UInt8) : decode (bytes ++ b :: rest) = decode bytes ++ decode (b :: rest) := by
  fun_induction decode bytes with
  | case1 high low bytes value hpair ih =>
    rw [List.cons_append, List.cons_append, List.cons_append, decode_escape hpair, ih,
      List.cons_append]
  | case2 high low bytes hpair ih =>
    rw [List.cons_append, List.cons_append, List.cons_append, decode_percent hpair,
      ← List.cons_append, ← List.cons_append, ih, List.cons_append]
  | case3 c high low bytes hc ih =>
    rw [List.cons_append, decode_cons_of_ne hc, ih, List.cons_append]
  | case4 bytes hshort =>
    match bytes, hshort with
    | [], _ => rfl
    | [c], _ =>
      rw [List.cons_append, List.nil_append, decode_cons_of_short]
      · rfl
      · rintro _ _ _ ⟨⟩
        exact pairValue_none_left hb _
    | [c, d], _ =>
      rw [List.cons_append, List.cons_append, List.nil_append, decode_cons_of_short,
        decode_cons_of_short]
      · rfl
      · rintro _ _ _ ⟨⟩
        exact pairValue_none_left hb _
      · rintro _ _ _ ⟨⟩
        exact pairValue_none_right hb _
    | _ :: _ :: _ :: _, hshort => exact absurd rfl (hshort _ _ _ _)

theorem decode_append_cons (bytes : List UInt8) {b : UInt8} (hb : Separates b)
    (rest : List UInt8) : decode (bytes ++ b :: rest) = decode bytes ++ b :: decode rest := by
  rw [decode_append bytes hb.2, decode_cons_of_ne hb.1]

theorem decode_append_of_ne {bytes : List UInt8} (h : ∀ b ∈ bytes, b ≠ 0x25)
    (rest : List UInt8) : decode (bytes ++ rest) = bytes ++ decode rest := by
  induction bytes with
  | nil => rfl
  | cons b bytes ih =>
    obtain ⟨hb, hbytes⟩ := List.forall_mem_cons.mp h
    rw [List.cons_append, decode_cons_of_ne hb, ih hbytes, List.cons_append]

/-! ## Encoding -/

theorem hexDigit_spec {n : Nat} (h : n < 16) :
    ∃ d, String.utf8EncodeChar (hexDigit n) = [d] ∧ hexValue d = some n := by
  have hall : ∀ m ∈ List.range 16,
      (String.utf8EncodeChar (hexDigit m)).map hexValue = [some m] := by decide
  have hn := hall n (List.mem_range.mpr h)
  match hd : String.utf8EncodeChar (hexDigit n) with
  | [] => simp [hd] at hn
  | [d] => exact ⟨d, rfl, by simpa [hd] using hn⟩
  | _ :: _ :: _ => simp [hd] at hn

/-- An escape is read as its byte. -/
theorem decode_encode_escape (b : UInt8) (rest : List UInt8) :
    decode (encode (escape b) ++ rest) = b :: decode rest := by
  have hlt := b.toNat_lt
  obtain ⟨high, hhigh, hhigh'⟩ := hexDigit_spec (n := b.toNat / 16) (by omega)
  obtain ⟨low, hlow, hlow'⟩ := hexDigit_spec (n := b.toNat % 16) (by omega)
  have hpercent : String.utf8EncodeChar '%' = [0x25] := by decide
  have hvalue : pairValue high low = some b := by
    simp only [pairValue, hhigh', hlow', Option.some.injEq]
    rw [← UInt8.toNat_inj, UInt8.toNat_ofNat']
    omega
  rw [escape, encode_cons, encode_cons, encode_cons, hpercent, hhigh, hlow]
  exact decode_escape hvalue rest

theorem encode_escape_head (b : UInt8) (rest : List UInt8) :
    ∃ more, encode (escape b) ++ rest = 0x25 :: more := by
  have hpercent : String.utf8EncodeChar '%' = [0x25] := by decide
  rw [escape, encode_cons, hpercent]
  exact ⟨_, rfl⟩

theorem decode_escapes (bytes rest : List UInt8) :
    decode (encode (bytes.flatMap escape) ++ rest) = bytes ++ decode rest := by
  induction bytes with
  | nil => rfl
  | cons b bytes ih =>
    rw [List.flatMap_cons, encode_append, List.append_assoc, decode_encode_escape, ih,
      List.cons_append]

theorem separates_of_le {b : UInt8} (h : 0x80 ≤ b) : Separates b := by
  rw [UInt8.le_iff_toNat_le] at h
  change 0x80 ≤ b.toNat at h
  refine ⟨?_, ?_⟩
  · rintro rfl
    exact absurd h (by decide)
  · simp only [hexValue, UInt8.le_iff_toNat_le, UInt8.reduceToNat]
    rw [if_neg (by omega), if_neg (by omega), if_neg (by omega)]

/-- A character beyond ASCII is no part of an escape. -/
theorem separatesChar_of {c : Char} (h : c.toNat < 0x80 → Separates (.ofNat c.toNat)) :
    SeparatesChar c := by
  intro b hb
  by_cases hc : c.toNat < 0x80
  · rw [Foundation.Utf8.encodeChar_ascii hc, List.mem_singleton] at hb
    exact hb ▸ h hc
  · exact separates_of_le (Foundation.Utf8.le_of_mem_encodeChar_of_le (Nat.not_lt.mp hc) hb)

/-- Encoding some separators changes nothing that is read, after any text. -/
theorem decode_append_encodeText {inSet : Char → Bool}
    (hset : ∀ c, inSet c = true → SeparatesChar c) (text : List Char) (bytes : List UInt8) :
    decode (bytes ++ encode (encodeText inSet text)) = decode (bytes ++ encode text) := by
  induction text generalizing bytes with
  | nil => rfl
  | cons c text ih =>
    rw [encodeText, List.flatMap_cons, encode_append, encode_cons]
    by_cases hc : inSet c = true
    · obtain ⟨b, more, hchar⟩ := List.exists_cons_of_ne_nil (String.utf8EncodeChar_ne_nil (c := c))
      have hseparates := hset c hc
      have hb : Separates b := hseparates b (hchar ▸ List.mem_cons_self)
      have htext := ih []
      rw [List.nil_append, List.nil_append] at htext
      have hpercent : hexValue 0x25 = none := by decide
      obtain ⟨tail, htail⟩ := encode_escape_head b
        (encode (more.flatMap escape) ++ encode (encodeText inSet text))
      have hleft : decode (bytes ++ (encode ((String.utf8EncodeChar c).flatMap escape) ++
          encode (encodeText inSet text))) =
          decode bytes ++ (String.utf8EncodeChar c ++ decode (encode (encodeText inSet text))) := by
        rw [← decode_escapes, hchar, List.flatMap_cons, encode_append, List.append_assoc, htail,
          decode_append bytes hpercent]
      have hright : decode (bytes ++ (String.utf8EncodeChar c ++ encode text)) =
          decode bytes ++ (String.utf8EncodeChar c ++ decode (encode text)) := by
        rw [← decode_append_of_ne (fun b hb => (hseparates b hb).1), hchar, List.cons_append,
          decode_append bytes hb.2]
      rw [if_pos hc, hright, ← htext]
      exact hleft
    · rw [if_neg hc, encode_cons, Foundation.Utf8.encode_nil, List.append_nil,
        ← List.append_assoc, ← List.append_assoc]
      exact ih _

/-- What is encoded is read back. -/
theorem decode_encodeText {inSet : Char → Bool}
    (hset : ∀ c, inSet c = true → SeparatesChar c) (text : List Char) :
    decode (encode (encodeText inSet text)) = decode (encode text) :=
  decode_append_encodeText hset text []

end Foundation.Percent
