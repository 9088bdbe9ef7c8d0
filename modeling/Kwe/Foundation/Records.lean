import Kwe.Foundation.Json

/-!
Records as JSON objects: the size and the characters of their texts, and how a
record is read from an object or from an array of its values.

* `le_of_mem_toBytes`: no text of a value has a control byte;
* `size_object`, `size_array`: the sizes of objects and arrays by their parts;
* `record_object`: the fields of an object that is a record.
-/

namespace Foundation

open Format

namespace Utf8

theorem le_of_mem_encodeChar {c : Char} (h : 0x20 ≤ c.toNat) {b : UInt8}
    (hb : b ∈ String.utf8EncodeChar c) : 0x20 ≤ b.toNat := by
  have hval : c.toNat = c.val.toNat := rfl
  rw [hval] at h
  unfold String.utf8EncodeChar at hb
  dsimp only at hb
  split at hb
  next =>
    simp only [List.mem_singleton] at hb
    subst hb
    rw [UInt8.toNat_ofNat']
    omega
  next =>
    split at hb
    next =>
      simp only [List.mem_cons, List.not_mem_nil, or_false] at hb
      rcases hb with rfl | rfl <;> rw [UInt8.toNat_ofNat'] <;> omega
    next =>
      split at hb
      next =>
        simp only [List.mem_cons, List.not_mem_nil, or_false] at hb
        rcases hb with rfl | rfl | rfl <;> rw [UInt8.toNat_ofNat'] <;> omega
      next =>
        simp only [List.mem_cons, List.not_mem_nil, or_false] at hb
        rcases hb with rfl | rfl | rfl | rfl <;> rw [UInt8.toNat_ofNat'] <;> omega

end Utf8

namespace Json

/-! ## Characters -/

/-- A text without control characters. -/
def Visible (text : List Char) : Prop := ∀ c ∈ text, 0x20 ≤ c.toNat

instance (text : List Char) : Decidable (Visible text) :=
  have : Decidable (∀ c ∈ text, 0x20 ≤ c.toNat) := List.decidableBAll _ text
  inferInstanceAs (Decidable (∀ c ∈ text, 0x20 ≤ c.toNat))

theorem Visible.append {a b : List Char} (ha : Visible a) (hb : Visible b) : Visible (a ++ b) :=
  fun c hc => (List.mem_append.mp hc).elim (ha c) (hb c)

theorem Visible.cons {c : Char} {text : List Char} (hc : 0x20 ≤ c.toNat) (h : Visible text) :
    Visible (c :: text) := List.forall_mem_cons.mpr ⟨hc, h⟩

theorem visible_escape (c : Char) : Visible (escape c) := by
  have hshort : ∀ p ∈ shortEscapes, 0x20 ≤ p.2.toNat := by decide
  have hhex : ∀ n < 16, 0x20 ≤ (hexDigit n).toNat := by decide
  unfold escape
  split
  next p h =>
    have hp := hshort p (List.mem_of_find?_eq_some h)
    exact Visible.cons (by decide) (Visible.cons hp (by decide))
  next =>
    split
    next hlt =>
      have hhigh := hhex (c.toNat / 16) (by omega)
      have hlow := hhex (c.toNat % 16) (Nat.mod_lt _ (by decide))
      refine Visible.cons (by decide) (Visible.cons (by decide) (Visible.cons (by decide)
        (Visible.cons (by decide) (Visible.cons hhigh (Visible.cons hlow ?_)))))
      decide
    next hle => exact Visible.cons (Nat.le_of_not_lt hle) (by decide)

theorem visible_quoted (s : String) : Visible (quoted.write s) := by
  have hwrite : quoted.write s = quote :: (s.toList.flatMap escape ++ [quote]) := rfl
  have hchars : Visible (s.toList.flatMap escape) := by
    intro c hc
    obtain ⟨d, -, hd⟩ := List.mem_flatMap.mp hc
    exact visible_escape d c hd
  rw [hwrite]
  exact Visible.cons (by decide) (hchars.append (by decide))

theorem visible_toDigits (n : Nat) : Visible (Nat.toDigits 10 n) := by
  intro c hc
  have hdigit := (Char.isDigit_iff_toNat.mp (isDigit_of_mem_toDigits hc)).1
  exact Nat.le_trans (by decide) hdigit

theorem visible_number {text : List Char} (h : ∀ c ∈ text, isNumberChar c = true) :
    Visible text := by
  intro c hc
  have hnumber := h c hc
  simp only [isNumberChar, Bool.or_eq_true, decide_eq_true_eq] at hnumber
  rcases hnumber with (((hdigit | rfl) | rfl) | rfl) | rfl
  · exact Nat.le_trans (by decide) (Char.isDigit_iff_toNat.mp hdigit).1
  all_goals decide

mutual

theorem visible_write : ∀ v : Json, Visible (write v)
  | .null => by rw [write]; decide
  | .bool true => by rw [write]; decide
  | .bool false => by rw [write]; decide
  | .nat n => by rw [write]; exact visible_toDigits n
  | .neg n => by rw [write]; exact Visible.cons (by decide) (visible_toDigits _)
  | .float text => by rw [write]; exact visible_number text.2.2.1
  | .string s => by rw [write]; exact visible_quoted s
  | .array [] => by rw [write]; decide
  | .array (v :: items) => by
    rw [write]
    exact Visible.cons (by decide) ((visible_write v).append (visible_writeItems items))
  | .object [] => by rw [write]; decide
  | .object ((key, v) :: fields) => by
    rw [write]
    exact Visible.cons (by decide) ((visible_quoted key).append
      (Visible.cons (by decide) ((visible_write v).append (visible_writeFields fields))))

theorem visible_writeItems : ∀ items : List Json, Visible (writeItems items)
  | [] => by rw [writeItems]; decide
  | v :: items => by
    rw [writeItems]
    exact Visible.cons (by decide) ((visible_write v).append (visible_writeItems items))

theorem visible_writeFields : ∀ fields : List (String × Json), Visible (writeFields fields)
  | [] => by rw [writeFields]; decide
  | (key, v) :: fields => by
    rw [writeFields]
    exact Visible.cons (by decide) ((visible_quoted key).append
      (Visible.cons (by decide) ((visible_write v).append (visible_writeFields fields))))

end

/-- **No control bytes** in the text of a value. -/
theorem le_of_mem_toBytes {v : Json} {b : UInt8} (h : b ∈ toBytes v) : 0x20 ≤ b.toNat := by
  obtain ⟨c, hc, hb⟩ := List.mem_flatMap.mp h
  exact Utf8.le_of_mem_encodeChar (visible_write v c hc) hb

theorem toBytes_ne_nil (v : Json) : toBytes v ≠ [] := by
  obtain ⟨c, text, h, -⟩ := write_head v
  have hpos := c.utf8Size_pos
  intro hnil
  have hlength := congrArg List.length hnil
  rw [toBytes, h, Utf8.length_encode, Utf8.size_cons, List.length_nil] at hlength
  omega

/-! ## Sizes -/

theorem size_toDigits (n : Nat) : Utf8.size (Nat.toDigits 10 n) = (Nat.toDigits 10 n).length := by
  have hascii : ∀ c ∈ Nat.toDigits 10 n, c.utf8Size = 1 := by
    intro c hc
    refine Utf8.utf8Size_ascii ?_
    have hle := (Char.isDigit_iff_toNat.mp (isDigit_of_mem_toDigits hc)).2
    exact Nat.lt_of_le_of_lt hle (by decide)
  rw [Utf8.size, List.map_congr_left hascii]
  simp

theorem size_number {text : List Char} (h : ∀ c ∈ text, isNumberChar c = true) :
    Utf8.size text = text.length := by
  have hascii : ∀ c ∈ text, c.utf8Size = 1 := by
    intro c hc
    have hnumber := h c hc
    simp only [isNumberChar, Bool.or_eq_true, decide_eq_true_eq] at hnumber
    rcases hnumber with (((hdigit | rfl) | rfl) | rfl) | rfl
    · refine Utf8.utf8Size_ascii (Nat.lt_of_le_of_lt (Char.isDigit_iff_toNat.mp hdigit).2 ?_)
      decide
    all_goals rfl
  rw [Utf8.size, List.map_congr_left hascii]
  simp

/-- The size of a string in quotes by those of its escaped characters. -/
theorem size_quoted (s : String) :
    Utf8.size (quoted.write s) = (s.toList.map fun c => Utf8.size (escape c)).sum + 2 := by
  have hwrite : quoted.write s = [quote] ++ (s.toList.flatMap escape ++ [quote]) := rfl
  have hquote : Utf8.size [quote] = 1 := by decide
  have hchars : ∀ text : List Char,
      Utf8.size (text.flatMap escape) = (text.map fun c => Utf8.size (escape c)).sum := by
    intro text
    induction text with
    | nil => rfl
    | cons c text ih => rw [List.flatMap_cons, Utf8.size_append, ih, List.map_cons, List.sum_cons]
  rw [hwrite, Utf8.size_append, Utf8.size_append, hchars, hquote]
  omega

theorem size_writeItems (items : List Json) :
    Utf8.size (writeItems items) = (items.map fun v => Utf8.size (write v) + 1).sum + 1 := by
  have hchars : ','.utf8Size = 1 ∧ ']'.utf8Size = 1 := by decide
  induction items with
  | nil => simp [writeItems, hchars]
  | cons v items ih =>
    rw [writeItems, Utf8.size_cons, Utf8.size_append, ih, List.map_cons, List.sum_cons, hchars.1]
    omega

theorem size_writeFields (fields : Fields) :
    Utf8.size (writeFields fields) =
      (fields.map fun f => Utf8.size (quoted.write f.1) + Utf8.size (write f.2) + 2).sum + 1 := by
  have hchars : ','.utf8Size = 1 ∧ '\x7d'.utf8Size = 1 ∧ ':'.utf8Size = 1 := by decide
  induction fields with
  | nil => simp [writeFields, hchars]
  | cons f fields ih =>
    rw [writeFields, Utf8.size_cons, Utf8.size_append, Utf8.size_cons, Utf8.size_append, ih,
      List.map_cons, List.sum_cons, hchars.1, hchars.2.2]
    omega

/-- An array by its items. -/
theorem size_array {items : List Json} (h : items ≠ []) :
    Utf8.size (write (.array items)) = (items.map fun v => Utf8.size (write v) + 1).sum + 1 := by
  cases items with
  | nil => exact absurd rfl h
  | cons v items =>
    rw [← size_writeItems]
    rfl

/-- An object by its fields. -/
theorem size_object {fields : Fields} (h : fields ≠ []) :
    Utf8.size (write (.object fields)) =
      (fields.map fun f => Utf8.size (quoted.write f.1) + Utf8.size (write f.2) + 2).sum + 1 := by
  cases fields with
  | nil => exact absurd rfl h
  | cons f fields =>
    rw [← size_writeFields]
    rfl

/-! ## Reading records -/

/-- The fields of a record with these names, none of which may be missing from
an array: an object has no others, and none of them twice. -/
def record (names : List String) : Json → Option Fields
  | .object fields =>
    if (fields.map Prod.fst).Nodup ∧ ∀ f ∈ fields, f.1 ∈ names then some fields else none
  | .array items => if items.length = names.length then some (names.zip items) else none
  | _ => none

theorem record_object {names : List String} {fields : Fields}
    (h : (fields.map Prod.fst).Sublist names) (hnames : names.Nodup) :
    record names (.object fields) = some fields := by
  rw [record, if_pos]
  exact ⟨hnames.sublist h, fun f hf => h.subset (List.mem_map_of_mem hf)⟩

/-- An integer below `bound`. -/
def asBounded (bound : Nat) : Json → Option (Fin bound)
  | .nat n => if h : n < bound then some ⟨n, h⟩ else none
  | _ => none

/-- The items of an array, each read by `f`. -/
def asArray {α : Type*} (f : Json → Option α) : Json → Option (List α)
  | .array items => items.mapM f
  | _ => none

/-- A field that is read by `f`. -/
def required {α : Type*} (fields : Fields) (key : String) (f : Json → Option α) : Option α :=
  (get fields key).bind f

/-- A field that may be missing or `null`. -/
def optional {α : Type*} (fields : Fields) (key : String) (f : Json → Option α) :
    Option (Option α) :=
  match get fields key with
  | none => some none
  | some .null => some none
  | some v => (f v).map some

/-- The name of a variant without data. -/
def asVariant : Json → Option String
  | .string s => some s
  | .object [(s, .null)] => some s
  | _ => none

theorem asArray_map {α : Type*} {f : Json → Option α} {g : α → Json} {l : List α}
    (h : ∀ x ∈ l, f (g x) = some x) : asArray f (.array (l.map g)) = some l := by
  rw [asArray]
  induction l with
  | nil => rfl
  | cons x l ih =>
    obtain ⟨hx, hl⟩ := List.forall_mem_cons.mp h
    simp [hx, ih hl]

end Json

end Foundation
