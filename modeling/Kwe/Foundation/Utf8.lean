import Mathlib

/-!
UTF-8 texts as lists of bytes.

* `decode_encode`, `encode_of_decode`: the bytes of a text and the text
  determine each other;
* `length_encode_le`: the size of a text by its characters.
-/

namespace Foundation.Utf8

def encode (text : List Char) : List UInt8 := text.flatMap String.utf8EncodeChar

def decode (bytes : List UInt8) : Option (List Char) :=
  bytes.toByteArray.utf8Decode?.map Array.toList

/-- The number of bytes of a text. -/
def size (text : List Char) : Nat := (text.map Char.utf8Size).sum

/-- The longest beginning of a text that has at most `maxBytes` bytes. -/
def truncate (maxBytes : Nat) : List Char → List Char
  | [] => []
  | c :: text => if c.utf8Size ≤ maxBytes then c :: truncate (maxBytes - c.utf8Size) text else []

theorem utf8Encode_eq (text : List Char) : text.utf8Encode = (encode text).toByteArray := rfl

@[simp] theorem encode_nil : encode [] = [] := rfl

@[simp] theorem encode_cons (c : Char) (text : List Char) :
    encode (c :: text) = String.utf8EncodeChar c ++ encode text := rfl

theorem encode_append (a b : List Char) : encode (a ++ b) = encode a ++ encode b :=
  List.flatMap_append

@[simp] theorem size_nil : size [] = 0 := rfl

@[simp] theorem size_cons (c : Char) (text : List Char) :
    size (c :: text) = c.utf8Size + size text := rfl

theorem size_append (a b : List Char) : size (a ++ b) = size a + size b := by
  simp [size]

@[simp] theorem length_encode (text : List Char) : (encode text).length = size text := by
  induction text with
  | nil => rfl
  | cons c text ih => simp [ih]

theorem decode_encode (text : List Char) : decode (encode text) = some text := by
  rw [decode, ← utf8Encode_eq, List.utf8Decode?_utf8Encode]
  rfl

theorem encode_of_decode {bytes : List UInt8} {text : List Char} (h : decode bytes = some text) :
    encode text = bytes := by
  obtain ⟨chars, hchars, rfl⟩ := Option.map_eq_some_iff.mp h
  have hget := ByteArray.utf8Encode_get_utf8Decode? (b := bytes.toByteArray) (h := by simp [hchars])
  simp only [hchars, Option.get_some, utf8Encode_eq] at hget
  exact List.toByteArray_inj.mp hget

theorem encode_injective : Function.Injective encode := by
  intro a b h
  have hdecode := decode_encode a
  rw [h, decode_encode b] at hdecode
  exact (Option.some.inj hdecode).symm

theorem size_le_mul_length (text : List Char) : size text ≤ 4 * text.length := by
  induction text with
  | nil => simp
  | cons c text ih =>
    have hc := Char.utf8Size_le_four c
    rw [size_cons, List.length_cons]
    omega

theorem size_truncate_le (maxBytes : Nat) (text : List Char) :
    size (truncate maxBytes text) ≤ maxBytes := by
  induction text generalizing maxBytes with
  | nil => exact Nat.zero_le _
  | cons c text ih =>
    rw [truncate]
    split
    next hfits =>
      have := ih (maxBytes - c.utf8Size)
      rw [size_cons]
      omega
    next => exact Nat.zero_le _

theorem utf8Size_ascii {c : Char} (h : c.toNat < 0x80) : c.utf8Size = 1 := by
  rw [Char.utf8Size_eq_one_iff, UInt32.le_iff_toNat_le]
  exact Nat.le_of_lt_succ h

theorem encodeChar_ascii {c : Char} (h : c.toNat < 0x80) :
    String.utf8EncodeChar c = [.ofNat c.toNat] := by
  have hval : c.val.toNat = c.toNat := rfl
  rw [String.utf8EncodeChar, hval, if_pos (Nat.le_of_lt_succ h)]

/-- The bytes of a character beyond ASCII are beyond ASCII. -/
theorem le_of_mem_encodeChar_of_le {c : Char} (h : 0x80 ≤ c.toNat) {b : UInt8}
    (hb : b ∈ String.utf8EncodeChar c) : 0x80 ≤ b := by
  have hval : c.val.toNat = c.toNat := rfl
  simp only [String.utf8EncodeChar, hval] at hb
  rw [UInt8.le_iff_toNat_le]
  change 0x80 ≤ b.toNat
  split_ifs at hb
  next => omega
  all_goals
    simp only [List.mem_cons, List.not_mem_nil, or_false] at hb
    rcases hb with rfl | rfl | rfl | rfl <;> rw [UInt8.toNat_ofNat'] <;> omega

end Foundation.Utf8
