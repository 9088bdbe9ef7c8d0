import Kwe.Foundation.Format
import Kwe.Foundation.Utf8

/-!
JSON values and their compact text: no blanks, strings with the shortest
escapes, and objects in the order of their fields.

* `read_write`: the text of a value determines it, whatever follows;
* `toBytes_injective`: so do its UTF-8 bytes;
* `get_set`, `set_get`: fields of an object.

A float is its text, which tells it from an integer.
-/

namespace Foundation

open Format

namespace Json

/-! ## Values -/

/-- The characters of a number. -/
def isNumberChar (c : Char) : Bool :=
  c.isDigit || c = '-' || c = '+' || c = '.' || c = 'e'

/-- A text of a float: it has a point or an exponent. -/
def IsFloat (text : List Char) : Prop :=
  text ≠ [] ∧ (∀ c ∈ text, isNumberChar c = true) ∧ ('.' ∈ text ∨ 'e' ∈ text)

instance (text : List Char) : Decidable (IsFloat text) :=
  have : Decidable (∀ c ∈ text, isNumberChar c = true) := List.decidableBAll _ text
  inferInstanceAs (Decidable (_ ∧ _ ∧ _))

end Json

open Json in
inductive Json
  | null
  | bool (b : Bool)
  | nat (n : Nat)
  /-- The number `-(n + 1)`. -/
  | neg (n : Nat)
  | float (text : { text : List Char // IsFloat text })
  | string (s : String)
  | array (items : List Json)
  | object (fields : List (String × Json))

namespace Json

/-! ## Text -/

mutual

def write : Json → List Char
  | .null => ['n', 'u', 'l', 'l']
  | .bool true => ['t', 'r', 'u', 'e']
  | .bool false => ['f', 'a', 'l', 's', 'e']
  | .nat n => Nat.toDigits 10 n
  | .neg n => '-' :: Nat.toDigits 10 (n + 1)
  | .float text => text.1
  | .string s => quoted.write s
  | .array [] => ['[', ']']
  | .array (v :: items) => '[' :: (write v ++ writeItems items)
  | .object [] => ['{', '}']
  | .object ((key, v) :: fields) => '{' :: (quoted.write key ++ ':' :: (write v ++ writeFields fields))

/-- The items after the first, and the bracket. -/
def writeItems : List Json → List Char
  | [] => [']']
  | v :: items => ',' :: (write v ++ writeItems items)

def writeFields : List (String × Json) → List Char
  | [] => ['}']
  | (key, v) :: fields => ',' :: (quoted.write key ++ ':' :: (write v ++ writeFields fields))

end

/-- A number, at the beginning of a text. -/
def readNumber (input : List Char) : Option (Json × List Char) :=
  let text := input.takeWhile isNumberChar
  let rest := input.dropWhile isNumberChar
  match text with
  | [] => none
  | '-' :: digits =>
    if digits.all Char.isDigit then some (.neg (Nat.ofDigitChars 10 digits 0 - 1), rest)
    else if h : IsFloat ('-' :: digits) then some (.float ⟨_, h⟩, rest) else none
  | digits =>
    if digits.all Char.isDigit then some (.nat (Nat.ofDigitChars 10 digits 0), rest)
    else if h : IsFloat digits then some (.float ⟨_, h⟩, rest) else none

mutual

/-- Reads what `write` wrote; `fuel` bounds the length of the text. -/
def read : Nat → List Char → Option (Json × List Char)
  | 0, _ => none
  | fuel + 1, input =>
    match input with
    | 'n' :: rest => (expect ['u', 'l', 'l'] rest).map (.null, ·)
    | 't' :: rest => (expect ['r', 'u', 'e'] rest).map (.bool true, ·)
    | 'f' :: rest => (expect ['a', 'l', 's', 'e'] rest).map (.bool false, ·)
    | '[' :: ']' :: rest => some (.array [], rest)
    | '[' :: rest => do
      let (v, rest) ← read fuel rest
      let (items, rest) ← readItems fuel rest
      some (.array (v :: items), rest)
    | '{' :: '}' :: rest => some (.object [], rest)
    | '{' :: rest => do
      let (key, rest) ← quoted.read rest
      let rest ← expect [':'] rest
      let (v, rest) ← read fuel rest
      let (fields, rest) ← readFields fuel rest
      some (.object ((key, v) :: fields), rest)
    | c :: rest =>
      if c = quote then (quoted.read (c :: rest)).map fun p => (.string p.1, p.2)
      else readNumber (c :: rest)
    | [] => none

def readItems : Nat → List Char → Option (List Json × List Char)
  | 0, _ => none
  | fuel + 1, input =>
    match input with
    | ']' :: rest => some ([], rest)
    | ',' :: rest => do
      let (v, rest) ← read fuel rest
      let (items, rest) ← readItems fuel rest
      some (v :: items, rest)
    | _ => none

def readFields : Nat → List Char → Option (List (String × Json) × List Char)
  | 0, _ => none
  | fuel + 1, input =>
    match input with
    | '}' :: rest => some ([], rest)
    | ',' :: rest => do
      let (key, rest) ← quoted.read rest
      let rest ← expect [':'] rest
      let (v, rest) ← read fuel rest
      let (fields, rest) ← readFields fuel rest
      some ((key, v) :: fields, rest)
    | _ => none

end

/-! ## Reading back -/

/-- The text does not go on with a number. -/
def Stops : List Char → Prop
  | [] => True
  | c :: _ => isNumberChar c = false

theorem takeWhile_number {text rest : List Char} (h : ∀ c ∈ text, isNumberChar c = true)
    (hrest : Stops rest) :
    (text ++ rest).takeWhile isNumberChar = text ∧
      (text ++ rest).dropWhile isNumberChar = rest := by
  rw [List.takeWhile_append_of_pos h, List.dropWhile_append_of_pos h]
  cases rest with
  | nil => simp
  | cons c rest =>
    rw [Stops] at hrest
    simp [hrest]

theorem isDigit_of_mem_toDigits {n : Nat} {c : Char} (h : c ∈ Nat.toDigits 10 n) :
    c.isDigit = true :=
  Nat.isDigit_of_mem_toDigits (by decide) (by decide) h

theorem isNumberChar_of_isDigit {c : Char} (h : c.isDigit = true) : isNumberChar c = true := by
  simp [isNumberChar, h]

theorem IsFloat.not_digits {text : List Char} (h : IsFloat text) :
    text.all Char.isDigit = false := by
  obtain ⟨-, -, hmark⟩ := h
  by_contra hall
  rw [Bool.not_eq_false, List.all_eq_true] at hall
  rcases hmark with hdot | he
  · exact absurd (hall _ hdot) (by decide)
  · exact absurd (hall _ he) (by decide)

theorem readNumber_nat (n : Nat) {rest : List Char} (hrest : Stops rest) :
    readNumber (Nat.toDigits 10 n ++ rest) = some (.nat n, rest) := by
  have hdigits : (Nat.toDigits 10 n).all Char.isDigit = true :=
    List.all_eq_true.mpr fun c hc => isDigit_of_mem_toDigits hc
  obtain ⟨htake, hdrop⟩ := takeWhile_number
    (fun c hc => isNumberChar_of_isDigit (isDigit_of_mem_toDigits hc)) hrest
  unfold readNumber
  rw [htake, hdrop]
  dsimp only
  split
  next h => exact absurd h Nat.toDigits_ne_nil
  next digits h =>
    have : '-'.isDigit = true := isDigit_of_mem_toDigits (n := n) (by rw [h]; simp)
    exact absurd this (by decide)
  next => rw [if_pos hdigits, Nat.ofDigitChars_toDigits (by decide) (by decide)]

theorem readNumber_neg (n : Nat) {rest : List Char} (hrest : Stops rest) :
    readNumber ('-' :: Nat.toDigits 10 (n + 1) ++ rest) = some (.neg n, rest) := by
  have hdigits : (Nat.toDigits 10 (n + 1)).all Char.isDigit = true :=
    List.all_eq_true.mpr fun c hc => isDigit_of_mem_toDigits hc
  have hnumber : ∀ c ∈ '-' :: Nat.toDigits 10 (n + 1), isNumberChar c = true :=
    List.forall_mem_cons.mpr
      ⟨rfl, fun c hc => isNumberChar_of_isDigit (isDigit_of_mem_toDigits hc)⟩
  obtain ⟨htake, hdrop⟩ := takeWhile_number hnumber hrest
  unfold readNumber
  rw [htake, hdrop]
  dsimp only
  split
  next h => simp at h
  next digits h =>
    obtain rfl : Nat.toDigits 10 (n + 1) = digits := (List.cons.inj h).2
    rw [if_pos hdigits, Nat.ofDigitChars_toDigits (by decide) (by decide), Nat.add_sub_cancel]
  next hnot => exact absurd rfl (hnot _)

theorem readNumber_float {text rest : List Char} (h : IsFloat text) (hrest : Stops rest) :
    readNumber (text ++ rest) = some (.float ⟨text, h⟩, rest) := by
  obtain ⟨htake, hdrop⟩ := takeWhile_number h.2.1 hrest
  have hnot := h.not_digits
  unfold readNumber
  rw [htake, hdrop]
  dsimp only
  split
  next => exact absurd rfl h.1
  next digits =>
    have hdigits : digits.all Char.isDigit = false := by
      by_contra hall
      obtain ⟨-, -, hmark⟩ := h
      rw [Bool.not_eq_false, List.all_eq_true] at hall
      rcases hmark with hdot | he
      · rcases List.mem_cons.mp hdot with hdot | hdot
        · exact absurd hdot (by decide)
        · exact absurd (hall _ hdot) (by decide)
      · rcases List.mem_cons.mp he with he | he
        · exact absurd he (by decide)
        · exact absurd (hall _ he) (by decide)
    rw [if_neg (by simp [hdigits]), dif_pos h]
  next => rw [if_neg (by simp [hnot]), dif_pos h]

/-- How the text of a value begins. -/
theorem read_number {c : Char} {text rest : List Char} (hc : isNumberChar c = true) (fuel : Nat) :
    read (fuel + 1) (c :: text ++ rest) = readNumber (c :: text ++ rest) := by
  have hne : c ≠ 'n' ∧ c ≠ 't' ∧ c ≠ 'f' ∧ c ≠ '[' ∧ c ≠ '{' ∧ c ≠ quote := by
    refine ⟨?_, ?_, ?_, ?_, ?_, ?_⟩ <;>
      · rintro rfl
        exact absurd hc (by decide)
  obtain ⟨h1, h2, h3, h4, h5, h6⟩ := hne
  rw [List.cons_append, read]
  · rw [if_neg h6]
  all_goals
    intros
    simp_all

/-- No value begins like the end of an array or an object. -/
theorem write_head (v : Json) : ∃ c text, write v = c :: text ∧ c ≠ ']' ∧ c ≠ '}' := by
  have hdigit : ∀ n, ∃ c text, Nat.toDigits 10 n = c :: text ∧ c ≠ ']' ∧ c ≠ '}' := by
    intro n
    obtain ⟨c, text, h⟩ := List.exists_cons_of_ne_nil (Nat.toDigits_ne_nil (b := 10) (n := n))
    have hc : c.isDigit = true := isDigit_of_mem_toDigits (n := n) (by simp [h])
    refine ⟨c, text, h, ?_, ?_⟩ <;>
      · rintro rfl
        exact absurd hc (by decide)
  match v with
  | .null => exact ⟨_, _, rfl, by decide, by decide⟩
  | .bool true => exact ⟨_, _, rfl, by decide, by decide⟩
  | .bool false => exact ⟨_, _, rfl, by decide, by decide⟩
  | .nat n => exact hdigit n
  | .neg n => exact ⟨_, _, rfl, by decide, by decide⟩
  | .float ⟨text, h⟩ =>
    obtain ⟨c, text, rfl⟩ := List.exists_cons_of_ne_nil h.1
    have hc := h.2.1 c List.mem_cons_self
    refine ⟨c, text, rfl, ?_, ?_⟩ <;>
      · rintro rfl
        exact absurd hc (by decide)
  | .string s => exact ⟨_, _, rfl, by decide, by decide⟩
  | .array [] => exact ⟨_, _, rfl, by decide, by decide⟩
  | .array (v :: items) => exact ⟨_, _, rfl, by decide, by decide⟩
  | .object [] => exact ⟨_, _, rfl, by decide, by decide⟩
  | .object ((key, v) :: fields) => exact ⟨_, _, rfl, by decide, by decide⟩

theorem stops_writeItems (items : List Json) (rest : List Char) :
    Stops (writeItems items ++ rest) := by
  cases items with
  | nil => exact rfl
  | cons v items => exact rfl

theorem stops_writeFields (fields : List (String × Json)) (rest : List Char) :
    Stops (writeFields fields ++ rest) := by
  cases fields with
  | nil => exact rfl
  | cons f fields => exact rfl

mutual

/-- **The text of a value reads back**, whatever follows that does not go on
with a number. -/
theorem read_write : ∀ (v : Json) (fuel : Nat) (rest : List Char), (write v).length ≤ fuel →
    Stops rest → read fuel (write v ++ rest) = some (v, rest)
  | .null, fuel + 1, rest, _, _ => by simp [write, read, expect]
  | .bool true, fuel + 1, rest, _, _ => by simp [write, read, expect]
  | .bool false, fuel + 1, rest, _, _ => by simp [write, read, expect]
  | .nat n, fuel + 1, rest, _, hrest => by
    obtain ⟨c, text, h⟩ := List.exists_cons_of_ne_nil (Nat.toDigits_ne_nil (b := 10) (n := n))
    have hc : c.isDigit = true := isDigit_of_mem_toDigits (n := n) (by simp [h])
    rw [write, h, read_number (isNumberChar_of_isDigit hc), ← h, readNumber_nat n hrest]
  | .neg n, fuel + 1, rest, _, hrest => by
    rw [write, read_number rfl, readNumber_neg n hrest]
  | .float ⟨text, h⟩, fuel + 1, rest, _, hrest => by
    obtain ⟨c, tail, rfl⟩ := List.exists_cons_of_ne_nil h.1
    rw [write, read_number (h.2.1 c List.mem_cons_self), readNumber_float h hrest]
  | .string s, fuel + 1, rest, _, _ => by
    obtain ⟨text, h⟩ : ∃ text, quoted.write s = quote :: text := ⟨_, rfl⟩
    have hread := quoted.read_write s rest
    rw [write, h, List.cons_append, read]
    · rw [if_pos rfl, ← List.cons_append, ← h, hread]
      rfl
    all_goals
      intros
      simp_all [quote]
  | .array [], fuel + 1, rest, _, _ => by simp [write, read]
  | .array (v :: items), fuel + 1, rest, hfuel, hrest => by
    rw [write, List.length_cons, List.length_append] at hfuel
    obtain ⟨c, text, h, hc, -⟩ := write_head v
    have hv := read_write v fuel (writeItems items ++ rest) (by omega) (stops_writeItems ..)
    have hitems := readItems_write items fuel rest (by omega)
    rw [write, List.cons_append, List.append_assoc, h, List.cons_append, read]
    · rw [← List.cons_append, ← h, hv]
      simp [hitems]
    · intro rest' heq
      exact hc (List.cons.inj heq).1
  | .object [], fuel + 1, rest, _, _ => by simp [write, read]
  | .object ((key, v) :: fields), fuel + 1, rest, hfuel, hrest => by
    simp only [write, List.length_cons, List.length_append] at hfuel
    obtain ⟨text, h⟩ : ∃ text, quoted.write key = quote :: text := ⟨_, rfl⟩
    have hkey := quoted.read_write key (':' :: (write v ++ writeFields fields) ++ rest)
    have hv := read_write v fuel (writeFields fields ++ rest) (by omega) (stops_writeFields ..)
    have hfields := readFields_write fields fuel rest (by omega)
    rw [write, List.cons_append, List.append_assoc, h, List.cons_append, read]
    · rw [← List.cons_append, ← h, hkey]
      simp [expect, hv, hfields]
    · intro rest' heq
      exact absurd (List.cons.inj heq).1 (by decide)
  | v, 0, rest, hfuel, _ => by
    obtain ⟨c, text, h, -⟩ := write_head v
    simp [h] at hfuel

theorem readItems_write : ∀ (items : List Json) (fuel : Nat) (rest : List Char),
    (writeItems items).length ≤ fuel →
    readItems fuel (writeItems items ++ rest) = some (items, rest)
  | [], fuel + 1, rest, _ => by simp [writeItems, readItems]
  | v :: items, fuel + 1, rest, hfuel => by
    simp only [writeItems, List.length_cons, List.length_append] at hfuel
    have hv := read_write v fuel (writeItems items ++ rest) (by omega) (stops_writeItems ..)
    have hitems := readItems_write items fuel rest (by omega)
    simp [writeItems, readItems, hv, hitems]
  | [], 0, rest, hfuel => by simp [writeItems] at hfuel
  | v :: items, 0, rest, hfuel => by simp [writeItems] at hfuel

theorem readFields_write : ∀ (fields : List (String × Json)) (fuel : Nat) (rest : List Char),
    (writeFields fields).length ≤ fuel →
    readFields fuel (writeFields fields ++ rest) = some (fields, rest)
  | [], fuel + 1, rest, _ => by simp [writeFields, readFields]
  | (key, v) :: fields, fuel + 1, rest, hfuel => by
    simp only [writeFields, List.length_cons, List.length_append] at hfuel
    have hkey := quoted.read_write key (':' :: (write v ++ writeFields fields) ++ rest)
    have hv := read_write v fuel (writeFields fields ++ rest) (by omega) (stops_writeFields ..)
    have hfields := readFields_write fields fuel rest (by omega)
    simp only [writeFields, List.cons_append, List.append_assoc, readFields] at hkey ⊢
    rw [hkey]
    simp [expect, hv, hfields]
  | [], 0, rest, hfuel => by simp [writeFields] at hfuel
  | f :: fields, 0, rest, hfuel => by simp [writeFields] at hfuel

end

/-! ## Bytes -/

/-- The bytes of the text of a value. -/
def toBytes (v : Json) : List UInt8 := Utf8.encode (write v)

/-- The value of which these are the bytes. -/
def ofBytes (bytes : List UInt8) : Option Json :=
  match (Utf8.decode bytes).bind fun text => read text.length text with
  | some (v, []) => some v
  | _ => none

theorem ofBytes_toBytes (v : Json) : ofBytes (toBytes v) = some v := by
  have hread := read_write v (write v).length [] (Nat.le_refl _) trivial
  rw [List.append_nil] at hread
  simp [ofBytes, toBytes, Utf8.decode_encode, hread]

theorem toBytes_injective : Function.Injective toBytes := by
  intro v w h
  have hread := ofBytes_toBytes v
  rw [h, ofBytes_toBytes w] at hread
  exact (Option.some.inj hread).symm

theorem size_escape_le (c : Char) : Utf8.size (escape c) ≤ 6 * c.utf8Size := by
  have hc := c.utf8Size_pos
  have hhex : ∀ n < 16, (hexDigit n).utf8Size = 1 := by decide
  have hshort : ∀ p ∈ shortEscapes, p.2.utf8Size = 1 := by decide
  unfold escape
  split
  next p h =>
    simp only [Utf8.size_cons, Utf8.size_nil, hshort p (List.mem_of_find?_eq_some h)]
    rw [show backslash.utf8Size = 1 from rfl]
    omega
  next =>
    split
    next hlt =>
      simp only [Utf8.size_cons, Utf8.size_nil, hhex _ (show c.toNat / 16 < 16 by omega),
        hhex _ (Nat.mod_lt c.toNat (by decide))]
      rw [show backslash.utf8Size = 1 from rfl, show 'u'.utf8Size = 1 from rfl,
        show '0'.utf8Size = 1 from rfl]
      omega
    next =>
      simp only [Utf8.size_cons, Utf8.size_nil]
      omega

/-- The quoted text of a string takes at most six bytes for each of its
own, and the quotes. -/
theorem size_quoted_le (s : String) :
    Utf8.size (quoted.write s) ≤ 6 * Utf8.size s.toList + 2 := by
  have hchars : ∀ text : List Char, Utf8.size (text.flatMap escape) ≤ 6 * Utf8.size text := by
    intro text
    induction text with
    | nil => exact Nat.le_refl _
    | cons c text ih =>
      have hc := size_escape_le c
      rw [List.flatMap_cons, Utf8.size_append, Utf8.size_cons]
      omega
  have hwrite : quoted.write s = [quote] ++ (s.toList.flatMap escape ++ [quote]) := rfl
  have hquote : Utf8.size [quote] = 1 := by decide
  have := hchars s.toList
  rw [hwrite, Utf8.size_append, Utf8.size_append]
  omega

theorem size_write_object_le {fields : List (String × Json)} {w : Nat}
    (h : ∀ f ∈ fields, 6 * Utf8.size f.1.toList + Utf8.size (write f.2) + 4 ≤ w) :
    Utf8.size (write (.object fields)) ≤ fields.length * w + 2 := by
  have hchars : '{'.utf8Size = 1 ∧ '}'.utf8Size = 1 ∧ ','.utf8Size = 1 ∧ ':'.utf8Size = 1 := by
    decide
  have hrest : ∀ fields : List (String × Json),
      (∀ f ∈ fields, 6 * Utf8.size f.1.toList + Utf8.size (write f.2) + 4 ≤ w) →
      Utf8.size (writeFields fields) ≤ fields.length * w + 1 := by
    intro fields
    induction fields with
    | nil => intro _; simp [writeFields, hchars]
    | cons f fields ih =>
      intro h
      obtain ⟨hf, hfields⟩ := List.forall_mem_cons.mp h
      have := ih hfields
      have hkey := size_quoted_le f.1
      simp only [writeFields, Utf8.size_cons, Utf8.size_append, hchars, List.length_cons,
        Nat.add_mul]
      omega
  cases fields with
  | nil => simp [write, hchars]
  | cons f fields =>
    obtain ⟨hf, hfields⟩ := List.forall_mem_cons.mp h
    have := hrest fields hfields
    have hkey := size_quoted_le f.1
    simp only [write, Utf8.size_cons, Utf8.size_append, hchars, List.length_cons, Nat.add_mul]
    omega

/-! ## Objects -/

abbrev Fields := List (String × Json)

def get : Fields → String → Option Json
  | [], _ => none
  | (key, v) :: fields, k => if key = k then some v else get fields k

/-- A field that is there keeps its place; a new one goes before the first
larger key. -/
def set : Fields → String → Json → Fields
  | [], k, v => [(k, v)]
  | (key, w) :: fields, k, v =>
    if key = k then (k, v) :: fields
    else if k < key ∧ get fields k = none then (k, v) :: (key, w) :: fields
    else (key, w) :: set fields k v

/-- The keys are in order, none of them twice. -/
def Sorted (fields : Fields) : Prop := fields.Pairwise fun f g => f.1 < g.1

/-- An object of these fields, whatever their order. -/
def obj (fields : Fields) : Json :=
  .object (fields.foldl (fun fields f => set fields f.1 f.2) [])

example : get (set [("key", .null)] "key" (.nat 1)) "key" = some (.nat 1) := by
  simp [set, get]

theorem get_set (fields : Fields) (k : String) (v : Json) (k' : String) :
    get (set fields k v) k' = if k' = k then some v else get fields k' := by
  induction fields with
  | nil => simp [set, get, eq_comm]
  | cons f fields ih =>
    obtain ⟨key, w⟩ := f
    rw [set]
    split
    next hkey =>
      subst hkey
      simp only [get, eq_comm]
      split <;> rfl
    next hkey =>
      split
      next => simp only [get, @eq_comm _ k k']
      next =>
        simp only [get, ih]
        split
        next hk => rw [if_neg (by rintro rfl; exact hkey hk)]
        next => rfl

/-- Writing a field twice. -/
theorem set_set (fields : Fields) (k : String) (v w : Json) :
    set (set fields k v) k w = set fields k w := by
  induction fields with
  | nil => simp [set]
  | cons f fields ih =>
    obtain ⟨key, x⟩ := f
    by_cases hkey : key = k
    · simp [set, hkey]
    · by_cases hnew : k < key ∧ get fields k = none
      · simp [set, hkey, hnew]
      · have hget : get (set fields k v) k = some v := by rw [get_set, if_pos rfl]
        have hold : ¬ (k < key ∧ get (set fields k v) k = none) := by simp [hget]
        rw [set, if_neg hkey, if_neg hnew, set, if_neg hkey, if_neg hold, ih, set, if_neg hkey,
          if_neg hnew]

/-- Writing back what is there. -/
theorem set_get {fields : Fields} {k : String} {v : Json} (h : get fields k = some v) :
    set fields k v = fields := by
  induction fields with
  | nil => simp [get] at h
  | cons f fields ih =>
    obtain ⟨key, w⟩ := f
    rw [get] at h
    rw [set]
    split at h
    next hkey =>
      obtain rfl : w = v := by simpa using h
      rw [if_pos hkey, hkey]
    next hkey => rw [if_neg hkey, if_neg (by simp [h]), ih h]

theorem get_eq_none {fields : Fields} {k : String} (h : ∀ f ∈ fields, k < f.1) :
    get fields k = none := by
  induction fields with
  | nil => rfl
  | cons f fields ih =>
    obtain ⟨hf, hfields⟩ := List.forall_mem_cons.mp h
    rw [get, if_neg hf.ne', ih hfields]

theorem lt_of_mem_set {fields : Fields} {k key : String} {v : Json} (hk : key < k)
    (h : ∀ f ∈ fields, key < f.1) : ∀ f ∈ set fields k v, key < f.1 := by
  induction fields with
  | nil => simpa [set] using hk
  | cons g fields ih =>
    obtain ⟨hg, hfields⟩ := List.forall_mem_cons.mp h
    rw [set]
    split
    next => exact List.forall_mem_cons.mpr ⟨hk, hfields⟩
    next =>
      split
      next => exact List.forall_mem_cons.mpr ⟨hk, h⟩
      next => exact List.forall_mem_cons.mpr ⟨hg, ih hfields⟩

theorem Sorted.set {fields : Fields} (h : Sorted fields) (k : String) (v : Json) :
    Sorted (Json.set fields k v) := by
  induction fields with
  | nil => exact List.pairwise_singleton _ _
  | cons f fields ih =>
    obtain ⟨key, w⟩ := f
    obtain ⟨hhead, htail⟩ := List.pairwise_cons.mp h
    rw [Json.set]
    split
    next hkey =>
      subst hkey
      exact List.pairwise_cons.mpr ⟨hhead, htail⟩
    next hkey =>
      split
      next hnew =>
        refine List.pairwise_cons.mpr ⟨List.forall_mem_cons.mpr ⟨hnew.1, fun g hg => ?_⟩, h⟩
        exact hnew.1.trans (hhead g hg)
      next hold =>
        have hlt : key < k := by
          rcases lt_trichotomy key k with hlt | heq | hgt
          · exact hlt
          · exact absurd heq hkey
          · exact absurd ⟨hgt, get_eq_none fun g hg => hgt.trans (hhead g hg)⟩ hold
        exact List.pairwise_cons.mpr ⟨lt_of_mem_set hlt hhead, ih htail⟩

/-! ## Plain values -/

/-- Values without floats, of 64-bit integers, with sorted keys, that nest at
most `depth` levels. -/
inductive Plain : Nat → Json → Prop
  | null (depth : Nat) : Plain depth .null
  | bool (depth : Nat) (b : Bool) : Plain depth (.bool b)
  | nat (depth : Nat) {n : Nat} : n < 2 ^ 64 → Plain depth (.nat n)
  | neg (depth : Nat) {n : Nat} : n < 2 ^ 63 → Plain depth (.neg n)
  | string (depth : Nat) (s : String) : Plain depth (.string s)
  | array {depth : Nat} {items : List Json} : (∀ v ∈ items, Plain depth v) →
      Plain (depth + 1) (.array items)
  | object {depth : Nat} {fields : Fields} : Sorted fields → (∀ f ∈ fields, Plain depth f.2) →
      Plain (depth + 1) (.object fields)

theorem forall_mem_set {P : Json → Prop} {fields : Fields} {k : String} {v : Json} (hv : P v)
    (h : ∀ f ∈ fields, P f.2) : ∀ f ∈ set fields k v, P f.2 := by
  induction fields with
  | nil => simpa [set] using hv
  | cons g fields ih =>
    obtain ⟨hg, hfields⟩ := List.forall_mem_cons.mp h
    rw [set]
    split
    next => exact List.forall_mem_cons.mpr ⟨hv, hfields⟩
    next =>
      split
      next => exact List.forall_mem_cons.mpr ⟨hv, h⟩
      next => exact List.forall_mem_cons.mpr ⟨hg, ih hfields⟩

theorem Plain.set {depth : Nat} {fields : Fields} {v : Json}
    (h : Plain (depth + 1) (.object fields)) (hv : Plain depth v) (k : String) :
    Plain (depth + 1) (.object (Json.set fields k v)) := by
  cases h with
  | object hsorted hfields => exact .object (hsorted.set k v) (forall_mem_set hv hfields)

theorem Plain.obj (depth : Nat) {fields : Fields} (h : ∀ f ∈ fields, Plain depth f.2) :
    Plain (depth + 1) (Json.obj fields) := by
  suffices hfold : ∀ (start : Fields), Plain (depth + 1) (.object start) →
      Plain (depth + 1) (.object (fields.foldl (fun fields f => Json.set fields f.1 f.2) start)) from
    hfold [] (.object List.Pairwise.nil (by simp))
  induction fields with
  | nil => exact fun start hstart => hstart
  | cons f fields ih =>
    obtain ⟨hf, hfields⟩ := List.forall_mem_cons.mp h
    exact fun start hstart => ih hfields _ (hstart.set hf f.1)

theorem Plain.mono {depth depth' : Nat} {v : Json} (h : Plain depth v) (hle : depth ≤ depth') :
    Plain depth' v := by
  induction h generalizing depth' with
  | null => exact .null _
  | bool => exact .bool _ _
  | nat depth hn => exact .nat _ hn
  | neg depth hn => exact .neg _ hn
  | string => exact .string _ _
  | array hitems ih =>
    obtain _ | depth' := depth'
    · exact absurd hle (Nat.not_succ_le_zero _)
    · exact .array fun v hv => ih v hv (Nat.le_of_succ_le_succ hle)
  | object hsorted hfields ih =>
    obtain _ | depth' := depth'
    · exact absurd hle (Nat.not_succ_le_zero _)
    · exact .object hsorted fun f hf => ih f hf (Nat.le_of_succ_le_succ hle)

/-- What is relied on of a reader of JSON: it reads back the plain values that
stay below its recursion limit. -/
def ReadsBack {ε : Type} (fromSlice : List UInt8 → Except ε Json) : Prop :=
  ∀ v, Plain 127 v → fromSlice (toBytes v) = .ok v

/-- The reader that knows the texts of `write` only. -/
def readCompact (bytes : List UInt8) : Except String Json :=
  match ofBytes bytes with
  | some v => .ok v
  | none => .error "not a compact text"

theorem readsBack_readCompact : ReadsBack readCompact := by
  intro v _
  rw [readCompact, ofBytes_toBytes]

/-- The value of a field, if this is an object that has it. -/
def field : Json → String → Option Json
  | .object fields, k => get fields k
  | _, _ => none

def asStr : Json → Option String
  | .string s => some s
  | _ => none

def asU64 : Json → Option Nat
  | .nat n => some n
  | _ => none

end Json

end Foundation
