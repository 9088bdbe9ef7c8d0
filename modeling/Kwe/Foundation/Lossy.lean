import Kwe.Foundation.Utf8

/-!
Reading bytes that may not be UTF-8, as `String::from_utf8_lossy` does: every
longest beginning of a character that is not completed becomes one `U+FFFD`.

* `decodeLossy_cons`: the bytes below 128 are read as they are;
* `decodeLossy_encode`: a text is read back as it is;
* `decodeLossy_append_cons`: a byte below 128 ends what stands before it.
-/

namespace Foundation.Utf8

/-- The bytes that follow a leading byte, and the range of the first of them. -/
def continuation (b : UInt8) : Option (Nat × UInt8 × UInt8) :=
  if 0xC2 ≤ b ∧ b ≤ 0xDF then some (1, 0x80, 0xBF)
  else if b = 0xE0 then some (2, 0xA0, 0xBF)
  else if b = 0xED then some (2, 0x80, 0x9F)
  else if 0xE1 ≤ b ∧ b ≤ 0xEF then some (2, 0x80, 0xBF)
  else if b = 0xF0 then some (3, 0x90, 0xBF)
  else if 0xF1 ≤ b ∧ b ≤ 0xF3 then some (3, 0x80, 0xBF)
  else if b = 0xF4 then some (3, 0x80, 0x8F)
  else none

/-- The rest of a character that begins with `value`: its code, if it is
complete, and what follows the bytes that belong to it. -/
def takeContinuation : Nat → UInt8 → UInt8 → Nat → List UInt8 → Option Nat × List UInt8
  | 0, _, _, value, bytes => (some value, bytes)
  | _ + 1, _, _, _, [] => (none, [])
  | n + 1, low, high, value, b :: bytes =>
    if low ≤ b ∧ b ≤ high then
      takeContinuation n 0x80 0xBF (value * 64 + b.toNat % 64) bytes
    else (none, b :: bytes)

/-- The first character of a text, where `U+FFFD` stands for bytes that are not
one, and what follows. -/
def takeLossy (b : UInt8) (bytes : List UInt8) : Char × List UInt8 :=
  if b < 0x80 then (Char.ofNat b.toNat, bytes)
  else match continuation b with
    | none => ('\uFFFD', bytes)
    | some (n, low, high) =>
      let (code, bytes) := takeContinuation n low high (b.toNat % 2 ^ (6 - n)) bytes
      ((code.map Char.ofNat).getD '\uFFFD', bytes)

/-- The characters of a text that may not be UTF-8; every turn takes a byte. -/
def decodeLossyFrom : Nat → List UInt8 → List Char
  | 0, _ => []
  | _ + 1, [] => []
  | fuel + 1, b :: bytes =>
    (takeLossy b bytes).1 :: decodeLossyFrom fuel (takeLossy b bytes).2

def decodeLossy (bytes : List UInt8) : List Char := decodeLossyFrom bytes.length bytes

theorem length_takeContinuation_le (n : Nat) (low high : UInt8) (value : Nat)
    (bytes : List UInt8) : (takeContinuation n low high value bytes).2.length ≤ bytes.length := by
  induction n generalizing low high value bytes with
  | zero => exact Nat.le_refl _
  | succ n ih =>
    cases bytes with
    | nil => exact Nat.le_refl _
    | cons b bytes =>
      rw [takeContinuation]
      split
      next => exact Nat.le_succ_of_le (ih ..)
      next => exact Nat.le_refl _

theorem length_takeLossy_le (b : UInt8) (bytes : List UInt8) :
    (takeLossy b bytes).2.length ≤ bytes.length := by
  unfold takeLossy
  split
  next => exact Nat.le_refl _
  next =>
    split
    next => exact Nat.le_refl _
    next => exact length_takeContinuation_le ..

/-- As many turns as bytes are enough. -/
theorem decodeLossyFrom_congr {fuel fuel' : Nat} {bytes : List UInt8}
    (h : bytes.length ≤ fuel) (h' : bytes.length ≤ fuel') :
    decodeLossyFrom fuel bytes = decodeLossyFrom fuel' bytes := by
  induction fuel generalizing fuel' bytes with
  | zero =>
    obtain rfl := List.length_eq_zero_iff.mp (Nat.le_zero.mp h)
    cases fuel' <;> rfl
  | succ fuel ih =>
    cases bytes with
    | nil => cases fuel' <;> rfl
    | cons b bytes =>
      cases fuel' with
      | zero => exact absurd h' (Nat.not_succ_le_zero _)
      | succ fuel' =>
        have hle := length_takeLossy_le b bytes
        rw [List.length_cons] at h h'
        rw [decodeLossyFrom, decodeLossyFrom, @ih fuel' _ (by omega) (by omega)]

/-- The first character of the text. -/
theorem decodeLossy_cons (b : UInt8) (bytes : List UInt8) :
    decodeLossy (b :: bytes) = (takeLossy b bytes).1 :: decodeLossy (takeLossy b bytes).2 := by
  rw [decodeLossy, List.length_cons, decodeLossyFrom,
    decodeLossyFrom_congr (length_takeLossy_le b bytes) (Nat.le_refl _)]
  rfl

/-! ## Texts -/


theorem continuation_two {b : UInt8} (h : 0xC2 ≤ b ∧ b ≤ 0xDF) :
    continuation b = some (1, 0x80, 0xBF) := if_pos h

/-- The second byte of a character is at least `0xA0` after `0xE0` and at most `0x9F`
after `0xED`. -/
theorem continuation_three {b : UInt8} (h : 0xE0 ≤ b ∧ b ≤ 0xEF) :
    continuation b =
      some (2, if b = 0xE0 then 0xA0 else 0x80, if b = 0xED then 0x9F else 0xBF) := by
  simp only [UInt8.le_iff_toNat_le, UInt8.reduceToNat] at h
  simp only [continuation, UInt8.le_iff_toNat_le, ← UInt8.toNat_inj, UInt8.reduceToNat]
  split_ifs <;> first | rfl | omega

theorem continuation_four {b : UInt8} (h : 0xF0 ≤ b ∧ b ≤ 0xF4) :
    continuation b =
      some (3, if b = 0xF0 then 0x90 else 0x80, if b = 0xF4 then 0x8F else 0xBF) := by
  simp only [UInt8.le_iff_toNat_le, UInt8.reduceToNat] at h
  simp only [continuation, UInt8.le_iff_toNat_le, ← UInt8.toNat_inj, UInt8.reduceToNat]
  split_ifs <;> first | rfl | omega

theorem takeContinuation_cons {n : Nat} {low high b : UInt8} (h : low ≤ b ∧ b ≤ high)
    (value : Nat) (bytes : List UInt8) :
    takeContinuation (n + 1) low high value (b :: bytes) =
      takeContinuation n 0x80 0xBF (value * 64 + b.toNat % 64) bytes := by
  rw [takeContinuation, if_pos h]

theorem takeLossy_ascii {b : UInt8} (h : b < 0x80) (bytes : List UInt8) :
    takeLossy b bytes = (Char.ofNat b.toNat, bytes) := by
  rw [takeLossy, if_pos h]

theorem takeLossy_two {b c : UInt8} (rest : List UInt8) (hb : 0xC2 ≤ b ∧ b ≤ 0xDF)
    (hc : 0x80 ≤ c ∧ c ≤ 0xBF) :
    takeLossy b (c :: rest) = (Char.ofNat (b.toNat % 32 * 64 + c.toNat % 64), rest) := by
  have hlow : ¬b < 0x80 := UInt8.not_lt.mpr (UInt8.le_trans (by decide) hb.1)
  rw [takeLossy, if_neg hlow, continuation_two hb]
  simp only [takeContinuation_cons hc]
  rfl

theorem takeLossy_three {b c d : UInt8} (rest : List UInt8) (hb : 0xE0 ≤ b ∧ b ≤ 0xEF)
    (hc : (if b = 0xE0 then 0xA0 else 0x80) ≤ c ∧ c ≤ if b = 0xED then 0x9F else 0xBF)
    (hd : 0x80 ≤ d ∧ d ≤ 0xBF) :
    takeLossy b (c :: d :: rest) =
      (Char.ofNat ((b.toNat % 16 * 64 + c.toNat % 64) * 64 + d.toNat % 64), rest) := by
  have hlow : ¬b < 0x80 := UInt8.not_lt.mpr (UInt8.le_trans (by decide) hb.1)
  rw [takeLossy, if_neg hlow, continuation_three hb]
  simp only [takeContinuation_cons hc, takeContinuation_cons hd]
  rfl

theorem takeLossy_four {b c d e : UInt8} (rest : List UInt8) (hb : 0xF0 ≤ b ∧ b ≤ 0xF4)
    (hc : (if b = 0xF0 then 0x90 else 0x80) ≤ c ∧ c ≤ if b = 0xF4 then 0x8F else 0xBF)
    (hd : 0x80 ≤ d ∧ d ≤ 0xBF) (he : 0x80 ≤ e ∧ e ≤ 0xBF) :
    takeLossy b (c :: d :: e :: rest) =
      (Char.ofNat (((b.toNat % 8 * 64 + c.toNat % 64) * 64 + d.toNat % 64) * 64 + e.toNat % 64),
        rest) := by
  have hlow : ¬b < 0x80 := UInt8.not_lt.mpr (UInt8.le_trans (by decide) hb.1)
  rw [takeLossy, if_neg hlow, continuation_four hb]
  simp only [takeContinuation_cons hc, takeContinuation_cons hd, takeContinuation_cons he]
  rfl

/-- The bytes of a character read as that character. -/
theorem takeLossy_encode (c : Char) (rest : List UInt8) :
    ∃ b bytes, String.utf8EncodeChar c = b :: bytes ∧ takeLossy b (bytes ++ rest) = (c, rest) := by
  have hvalid : c.toNat < 0xD800 ∨ 0xDFFF < c.toNat ∧ c.toNat < 0x110000 := c.valid
  have hof : ∀ n, n = c.toNat → (Char.ofNat n, rest) = (c, rest) := by
    rintro _ rfl
    rw [Char.ofNat_toNat]
  have hval : c.val.toNat = c.toNat := rfl
  simp only [String.utf8EncodeChar, hval]
  by_cases h₁ : c.toNat ≤ 0x7f
  · rw [if_pos h₁]
    refine ⟨_, _, rfl, ?_⟩
    rw [List.nil_append, takeLossy_ascii, hof _ ?_]
      <;> simp only [UInt8.lt_iff_toNat_lt, UInt8.toNat_ofNat', UInt8.reduceToNat] <;> omega
  by_cases h₂ : c.toNat ≤ 0x7ff
  · rw [if_neg h₁, if_pos h₂]
    refine ⟨_, _, rfl, ?_⟩
    rw [List.cons_append, List.nil_append, takeLossy_two, hof _ ?_]
      <;> simp only [UInt8.le_iff_toNat_le, UInt8.toNat_ofNat', UInt8.reduceToNat] <;> omega
  by_cases h₃ : c.toNat ≤ 0xffff
  · rw [if_neg h₁, if_neg h₂, if_pos h₃]
    refine ⟨_, _, rfl, ?_⟩
    simp only [List.cons_append, List.nil_append]
    rw [takeLossy_three, hof _ ?_]
      <;> simp only [UInt8.le_iff_toNat_le, ← UInt8.toNat_inj, UInt8.toNat_ofNat',
        UInt8.reduceToNat]
    · omega
    · omega
    · split_ifs <;> simp only [UInt8.reduceToNat] <;> omega
    · omega
  · rw [if_neg h₁, if_neg h₂, if_neg h₃]
    refine ⟨_, _, rfl, ?_⟩
    simp only [List.cons_append, List.nil_append]
    rw [takeLossy_four, hof _ ?_]
      <;> simp only [UInt8.le_iff_toNat_le, ← UInt8.toNat_inj, UInt8.toNat_ofNat',
        UInt8.reduceToNat]
    · omega
    · omega
    · split_ifs <;> simp only [UInt8.reduceToNat] <;> omega
    · omega
    · omega

/-- A text is read back as it is. -/
theorem decodeLossy_encode (text : List Char) : decodeLossy (encode text) = text := by
  induction text with
  | nil => rfl
  | cons c text ih =>
    obtain ⟨b, bytes, hbytes, htake⟩ := takeLossy_encode c (encode text)
    rw [encode_cons, hbytes, List.cons_append, decodeLossy_cons, htake, ih]

theorem takeContinuation_append (n : Nat) {low high : UInt8} (hlow : 0x80 ≤ low)
    (value : Nat) (bytes : List UInt8) {c : UInt8} (hc : c < 0x80) (rest : List UInt8) :
    takeContinuation n low high value (bytes ++ c :: rest) =
      ((takeContinuation n low high value bytes).1,
        (takeContinuation n low high value bytes).2 ++ c :: rest) := by
  induction n generalizing low high value bytes with
  | zero => rfl
  | succ n ih =>
    cases bytes with
    | nil =>
      have hout : ¬(low ≤ c ∧ c ≤ high) := fun h =>
        UInt8.not_le.mpr (UInt8.lt_of_lt_of_le hc hlow) h.1
      simp only [List.nil_append, takeContinuation, if_neg hout]
    | cons b bytes =>
      simp only [List.cons_append, takeContinuation]
      split
      next => exact ih (by decide) ..
      next => rfl

theorem low_of_continuation {b low high : UInt8} {n : Nat}
    (h : continuation b = some (n, low, high)) : 0x80 ≤ low := by
  unfold continuation at h
  split_ifs at h <;> cases h <;> decide

theorem takeLossy_append (b : UInt8) (bytes : List UInt8) {c : UInt8} (hc : c < 0x80)
    (rest : List UInt8) :
    takeLossy b (bytes ++ c :: rest) =
      ((takeLossy b bytes).1, (takeLossy b bytes).2 ++ c :: rest) := by
  unfold takeLossy
  split
  next => rfl
  next =>
    split
    next => rfl
    next n low high hlow =>
      rw [takeContinuation_append n (low_of_continuation hlow) _ _ hc]

/-- A byte below 128 ends what stands before it. -/
theorem decodeLossy_append_cons (bytes : List UInt8) {c : UInt8} (hc : c < 0x80)
    (rest : List UInt8) :
    decodeLossy (bytes ++ c :: rest) =
      decodeLossy bytes ++ Char.ofNat c.toNat :: decodeLossy rest := by
  induction hlen : bytes.length using Nat.strongRecOn generalizing bytes with
  | ind n ih =>
    cases bytes with
    | nil =>
      rw [List.nil_append, decodeLossy_cons, takeLossy_ascii hc]
      rfl
    | cons b bytes =>
      have hle := length_takeLossy_le b bytes
      rw [List.length_cons] at hlen
      rw [List.cons_append, decodeLossy_cons, takeLossy_append b bytes hc, decodeLossy_cons,
        ih _ (by omega) _ rfl, List.cons_append]

end Foundation.Utf8
