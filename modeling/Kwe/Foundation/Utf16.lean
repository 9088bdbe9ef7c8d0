import Kwe.Foundation.EcmaScript
import Kwe.Foundation.Utf8

/-!
UTF-16 texts as lists of code units.

* `decode_utf16`, `utf16_of_decode`: the code units of a text and the text determine
  each other;
* `length_utf16_le_size`: a text has at most as many code units as bytes.
-/

namespace Foundation.Utf16

open Foundation.EcmaScript (utf16Char utf16)

def isHigh (u : Nat) : Bool := 0xD800 ≤ u && u < 0xDC00

def isLow (u : Nat) : Bool := 0xDC00 ≤ u && u < 0xE000

/-- The text of code units, if every surrogate among them is one of a pair. -/
def decode : List Nat → Option (List Char)
  | [] => some []
  | u :: rest =>
    if u < 0x10000 ∧ isHigh u = false ∧ isLow u = false then
      (decode rest).map (Char.ofNat u :: ·)
    else
      match rest with
      | [] => none
      | v :: rest =>
        if isHigh u ∧ isLow v then
          (decode rest).map (Char.ofNat (0x10000 + (u - 0xD800) * 0x400 + (v - 0xDC00)) :: ·)
        else none

theorem utf16Char_cases (c : Char) :
    (c.toNat < 0x10000 ∧ (c.toNat < 0xD800 ∨ 0xDFFF < c.toNat) ∧ utf16Char c = [c.toNat]) ∨
    ∃ a b, utf16Char c = [0xD800 + a, 0xDC00 + b] ∧ a < 0x400 ∧ b < 0x400 ∧
      c.toNat = 0x10000 + a * 0x400 + b := by
  have hvalid : c.toNat < 0xD800 ∨ 0xDFFF < c.toNat ∧ c.toNat < 0x110000 := c.valid
  unfold utf16Char
  split
  next h => exact .inl ⟨h, by omega, rfl⟩
  next h => exact .inr ⟨_, _, rfl, by omega, by omega, by omega⟩

theorem utf16Char_ne_nil (c : Char) : utf16Char c ≠ [] := by
  rcases utf16Char_cases c with ⟨-, -, hunits⟩ | ⟨a, b, hunits, -⟩ <;> simp [hunits]

@[simp] theorem utf16_nil : utf16 [] = [] := rfl

@[simp] theorem utf16_cons (c : Char) (text : List Char) :
    utf16 (c :: text) = utf16Char c ++ utf16 text := rfl

theorem decode_single {u : Nat} (h : u < 0x10000 ∧ isHigh u = false ∧ isLow u = false)
    (rest : List Nat) : decode (u :: rest) = (decode rest).map (Char.ofNat u :: ·) := by
  rw [decode.eq_def]
  exact if_pos h

theorem decode_pair {u v : Nat} (hu : isHigh u = true) (hv : isLow v = true) (rest : List Nat) :
    decode (u :: v :: rest) =
      (decode rest).map (Char.ofNat (0x10000 + (u - 0xD800) * 0x400 + (v - 0xDC00)) :: ·) := by
  rw [decode.eq_def]
  simp [hu, hv]

theorem decode_utf16 (text : List Char) : decode (utf16 text) = some text := by
  induction text with
  | nil => rfl
  | cons c text ih =>
    rw [utf16_cons]
    rcases utf16Char_cases c with ⟨hsmall, hplain, hunits⟩ | ⟨a, b, hunits, ha, hb, hvalue⟩
    · have hsingle : c.toNat < 0x10000 ∧ isHigh c.toNat = false ∧ isLow c.toNat = false := by
        simp only [isHigh, isLow, Bool.and_eq_false_iff, decide_eq_false_iff_not]
        omega
      rw [hunits, List.singleton_append, decode_single hsingle, ih, Char.ofNat_toNat]
      rfl
    · have hhigh : isHigh (0xD800 + a) = true := by
        simp [isHigh]
        omega
      have hlow : isLow (0xDC00 + b) = true := by
        simp [isLow]
        omega
      have hback : 0x10000 + (0xD800 + a - 0xD800) * 0x400 + (0xDC00 + b - 0xDC00) = c.toNat := by
        omega
      rw [hunits, List.cons_append, List.singleton_append, decode_pair hhigh hlow, hback, ih,
        Char.ofNat_toNat]
      rfl

theorem toNat_ofNat {n : Nat} (hvalid : n.isValidChar) : (Char.ofNat n).toNat = n := by
  unfold Char.ofNat
  rw [dif_pos hvalid]
  rfl

theorem utf16Char_ofNat {n : Nat} (hvalid : n.isValidChar) : utf16Char (Char.ofNat n) =
    if n < 0x10000 then [n] else [0xD800 + (n - 0x10000) / 0x400, 0xDC00 + (n - 0x10000) % 0x400] := by
  unfold utf16Char
  rw [toNat_ofNat hvalid]

theorem utf16_of_decode {units : List Nat} {text : List Char} (h : decode units = some text) :
    utf16 text = units := by
  fun_induction decode units generalizing text with
  | case1 =>
    obtain rfl := Option.some.inj h
    rfl
  | case2 u rest hsingle ih =>
    obtain ⟨tail, htail, rfl⟩ := Option.map_eq_some_iff.mp h
    simp only [isHigh, isLow, Bool.and_eq_false_iff, decide_eq_false_iff_not] at hsingle
    rw [utf16_cons, ih htail, utf16Char_ofNat (by unfold Nat.isValidChar; omega), if_pos hsingle.1]
    rfl
  | case3 => cases h
  | case4 u _ v rest hpair ih =>
    obtain ⟨tail, htail, rfl⟩ := Option.map_eq_some_iff.mp h
    simp only [isHigh, isLow, Bool.and_eq_true, decide_eq_true_eq] at hpair
    rw [utf16_cons, ih htail, utf16Char_ofNat (by unfold Nat.isValidChar; omega), if_neg (by omega)]
    have hu : 0xD800 + (0x10000 + (u - 0xD800) * 0x400 + (v - 0xDC00) - 0x10000) / 0x400 = u := by
      omega
    have hv : 0xDC00 + (0x10000 + (u - 0xD800) * 0x400 + (v - 0xDC00) - 0x10000) % 0x400 = v := by
      omega
    rw [hu, hv]
    rfl
  | case5 => cases h

theorem utf16_injective : Function.Injective utf16 := by
  intro a b h
  have hdecode := decode_utf16 a
  rw [h, decode_utf16 b] at hdecode
  exact (Option.some.inj hdecode).symm

theorem length_utf16_le_size (text : List Char) : (utf16 text).length ≤ Utf8.size text := by
  induction text with
  | nil => simp
  | cons c text ih =>
    have hc : (utf16Char c).length ≤ c.utf8Size := by
      rcases utf16Char_cases c with ⟨-, -, hunits⟩ | ⟨a, b, hunits, -, -, hvalue⟩
      · have hpos := Char.utf8Size_pos c
        simp [hunits]
        omega
      · have hwide : ¬ c.val ≤ 0xFFFF := by
          intro hle
          have hle : c.toNat ≤ 0xFFFF := hle
          omega
        have hnarrow : ¬ c.val ≤ 0x7FF := fun hle => hwide (UInt32.le_trans hle (by decide))
        have hascii : ¬ c.val ≤ 0x7F := fun hle => hwide (UInt32.le_trans hle (by decide))
        simp [hunits, Char.utf8Size, hwide, hnarrow, hascii]
    rw [utf16_cons, List.length_append, Utf8.size_cons]
    omega

end Foundation.Utf16
