import Mathlib

/-!
Text formats: a writer of values together with a reader that gets every
written value back, whatever text follows it.

* `before`, `after`, `seq`, `iso`: literals, pairs, another type of values.
* `digits`, `escaped`, `quoted`: decimal numbers and quoted strings.
* `optional`, `many`, `list`: values told apart by the text they begin with.

A format carries its own round trip, so formats built from these need no
further proof.
-/

namespace Foundation

variable {α β : Type*}

structure Format (α : Type*) where
  write : α → List Char
  read : List Char → Option (α × List Char)
  read_write : ∀ a rest, read (write a ++ rest) = some (a, rest)

namespace Format

/-! ## Literals and pairs -/

/-- The text after `s`, when the text begins with `s`. -/
def expect : List Char → List Char → Option (List Char)
  | [], input => some input
  | _ :: _, [] => none
  | c :: s, d :: input => if c = d then expect s input else none

@[simp] theorem expect_append (s rest : List Char) : expect s (s ++ rest) = some rest := by
  induction s with
  | nil => rfl
  | cons c s ih => simp [expect, ih]

/-- The formats of which no value is written with `s` at its beginning. -/
def Avoids (s : List Char) (f : Format α) : Prop :=
  ∀ a rest, expect s (f.write a ++ rest) = none

def before (f : Format α) (s : List Char) : Format α where
  write a := s ++ f.write a
  read input := (expect s input).bind f.read
  read_write a rest := by simp [f.read_write]

def after (f : Format α) (s : List Char) : Format α where
  write a := f.write a ++ s
  read input := (f.read input).bind fun p => (expect s p.2).map (p.1, ·)
  read_write a rest := by simp [f.read_write]

def seq (f : Format α) (g : Format β) : Format (α × β) where
  write p := f.write p.1 ++ g.write p.2
  read input := (f.read input).bind fun p => (g.read p.2).map fun q => ((p.1, q.1), q.2)
  read_write p rest := by simp [f.read_write, g.read_write]

/-- The format of the values that `into` takes to those of `f`. -/
def iso (f : Format α) (into : β → α) (back : α → β) (h : ∀ b, back (into b) = b) :
    Format β where
  write b := f.write (into b)
  read input := (f.read input).map fun p => (back p.1, p.2)
  read_write b rest := by simp [f.read_write, h]

@[simp] theorem write_before (f : Format α) (s : List Char) (a : α) :
    (f.before s).write a = s ++ f.write a := rfl

@[simp] theorem write_after (f : Format α) (s : List Char) (a : α) :
    (f.after s).write a = f.write a ++ s := rfl

@[simp] theorem write_seq (f : Format α) (g : Format β) (p : α × β) :
    (f.seq g).write p = f.write p.1 ++ g.write p.2 := rfl

@[simp] theorem write_iso (f : Format α) (into : β → α) (back : α → β)
    (h : ∀ b, back (into b) = b) (b : β) : (f.iso into back h).write b = f.write (into b) := rfl

theorem avoids_before {s t : List Char} (f : Format α) (h : ∀ rest, expect s (t ++ rest) = none) :
    Avoids s (f.before t) := fun a rest => by
  show expect s (t ++ f.write a ++ rest) = none
  rw [List.append_assoc]
  exact h _

theorem avoids_after {s : List Char} {f : Format α} (t : List Char) (hf : Avoids s f) :
    Avoids s (f.after t) := fun a rest => by
  show expect s (f.write a ++ t ++ rest) = none
  rw [List.append_assoc]
  exact hf a _

theorem avoids_iso {s : List Char} {f : Format α} (into : β → α) (back : α → β)
    (h : ∀ b, back (into b) = b) (hf : Avoids s f) : Avoids s (f.iso into back h) :=
  fun b => hf (into b)

theorem Avoids.write_ne_nil {s : List Char} {f : Format α} (hf : Avoids s f) (a : α) :
    f.write a ≠ [] := by
  intro h
  have hnone := hf a s
  rw [h, List.nil_append] at hnone
  have hsome := expect_append s []
  rw [List.append_nil, hnone] at hsome
  cases hsome

/-! ## Numbers -/

theorem takeWhile_isDigit_append {ds : List Char} {c : Char} (hds : ∀ d ∈ ds, d.isDigit)
    (hc : c.isDigit = false) (rest : List Char) :
    (ds ++ c :: rest).takeWhile Char.isDigit = ds ∧
      (ds ++ c :: rest).dropWhile Char.isDigit = c :: rest := by
  rw [List.takeWhile_append_of_pos hds, List.dropWhile_append_of_pos hds]
  simp [hc]

/-- A decimal number up to `stop`. -/
def digits (stop : Char) (hstop : stop.isDigit = false) : Format Nat where
  write n := Nat.toDigits 10 n ++ [stop]
  read input :=
    (expect [stop] (input.dropWhile Char.isDigit)).map
      (Nat.ofDigitChars 10 (input.takeWhile Char.isDigit) 0, ·)
  read_write n rest := by
    have hdigits : ∀ d ∈ Nat.toDigits 10 n, d.isDigit := fun d hd =>
      Nat.isDigit_of_mem_toDigits (by decide) (by decide) hd
    obtain ⟨htake, hdrop⟩ := takeWhile_isDigit_append hdigits hstop rest
    rw [List.append_assoc, List.singleton_append, htake, hdrop]
    simp [expect, Nat.ofDigitChars_toDigits]

theorem avoids_digits {c : Char} (s : List Char) (hc : c.isDigit = false) (stop : Char)
    (hstop : stop.isDigit = false) : Avoids (c :: s) (digits stop hstop) := by
  intro n rest
  show expect (c :: s) (Nat.toDigits 10 n ++ [stop] ++ rest) = none
  obtain ⟨d, ds, hds⟩ : ∃ d ds, Nat.toDigits 10 n = d :: ds :=
    List.exists_cons_of_ne_nil Nat.toDigits_ne_nil
  have hd : d.isDigit := Nat.isDigit_of_mem_toDigits (b := 10) (n := n) (by decide) (by decide)
    (by simp [hds])
  have hne : c ≠ d := by
    rintro rfl
    rw [hc] at hd
    cases hd
  simp [hds, expect, hne]

/-! ## Alternatives and repetition -/

/-- `null`, or a value that is not written like it. -/
def optional (null : List Char) (f : Format α) (hf : Avoids null f) : Format (Option α) where
  write
    | none => null
    | some a => f.write a
  read input :=
    match expect null input with
    | some input => some (none, input)
    | none => (f.read input).map fun p => (some p.1, p.2)
  read_write a rest := by
    cases a with
    | none => simp
    | some a => simp [hf a rest, f.read_write]

@[simp] theorem write_optional_none (null : List Char) (f : Format α) (hf : Avoids null f) :
    (optional null f hf).write none = null := rfl

@[simp] theorem write_optional_some (null : List Char) (f : Format α) (hf : Avoids null f) (a : α) :
    (optional null f hf).write (some a) = f.write a := rfl

/-- One of two words. -/
def flag (yes no : List Char) (h : ∀ rest, expect no (yes ++ rest) = none) : Format Bool where
  write b := if b then yes else no
  read input :=
    match expect no input with
    | some input => some (false, input)
    | none => (expect yes input).map (true, ·)
  read_write b rest := by
    cases b with
    | false => simp
    | true => simp [h]

/-- Reads values up to `stop`, at most `fuel` of them. -/
def readMany (stop : List Char) (f : Format α) : Nat → List Char → Option (List α × List Char)
  | 0, _ => none
  | fuel + 1, input =>
    match expect stop input with
    | some input => some ([], input)
    | none => (f.read input).bind fun p =>
      (readMany stop f fuel p.2).map fun q => (p.1 :: q.1, q.2)

theorem readMany_write {stop : List Char} {f : Format α} (hf : Avoids stop f) (l : List α)
    (rest : List Char) {fuel : Nat} (hfuel : l.length < fuel) :
    readMany stop f fuel (l.flatMap f.write ++ stop ++ rest) = some (l, rest) := by
  induction l generalizing fuel with
  | nil =>
    obtain _ | fuel := fuel
    · exact absurd hfuel (Nat.not_lt_zero _)
    · simp [readMany]
  | cons a l ih =>
    obtain _ | fuel := fuel
    · exact absurd hfuel (Nat.not_lt_zero _)
    · have hl := ih (Nat.lt_of_succ_lt_succ hfuel)
      rw [List.append_assoc] at hl
      simp [readMany, hf a, f.read_write, hl]

theorem length_le_flatMap {f : Format α} (h : ∀ a, f.write a ≠ []) (l : List α) :
    l.length ≤ (l.flatMap f.write).length := by
  induction l with
  | nil => exact Nat.zero_le _
  | cons a l ih =>
    have := List.length_pos_iff.mpr (h a)
    simp only [List.flatMap_cons, List.length_append, List.length_cons]
    omega

/-- Any number of values, then `stop`. -/
def many (stop : List Char) (f : Format α) (hf : Avoids stop f) : Format (List α) where
  write l := l.flatMap f.write ++ stop
  read input := readMany stop f (input.length + 1) input
  read_write l rest := by
    have hlen := length_le_flatMap hf.write_ne_nil l
    refine readMany_write hf l rest ?_
    simp only [List.length_append]
    omega

/-- A bracketed list: `empty`, or the values after `opening`, apart by
`separator`, up to `closing`. -/
def list (empty opening separator closing : List Char) (f : Format α)
    (hopen : ∀ rest, expect empty (opening ++ rest) = none)
    (hsep : ∀ rest, expect closing (separator ++ rest) = none) : Format (List α) :=
  (optional empty
      ((f.seq (many closing (f.before separator) (avoids_before f hsep))).before opening)
      (avoids_before _ hopen)).iso
    (fun l => match l with
      | [] => none
      | a :: l => some (a, l))
    (fun o => match o with
      | none => []
      | some (a, l) => a :: l)
    (fun l => by cases l <;> rfl)

theorem length_many_le {stop : List Char} {f : Format α} (hf : Avoids stop f) {l : List α}
    {n : Nat} (h : ∀ a ∈ l, (f.write a).length ≤ n) :
    ((many stop f hf).write l).length ≤ l.length * n + stop.length := by
  show (l.flatMap f.write ++ stop).length ≤ _
  rw [List.length_append]
  induction l with
  | nil => simp
  | cons a l ih =>
    have ha := h a List.mem_cons_self
    have hl := ih fun b hb => h b (List.mem_cons_of_mem a hb)
    rw [List.flatMap_cons, List.length_append, List.length_cons, Nat.succ_mul]
    omega

theorem length_list_le {empty opening separator closing : List Char} {f : Format α}
    (hopen : ∀ rest, expect empty (opening ++ rest) = none)
    (hsep : ∀ rest, expect closing (separator ++ rest) = none) {l : List α} {n : Nat}
    (h : ∀ a ∈ l, (f.write a).length ≤ n) :
    ((list empty opening separator closing f hopen hsep).write l).length ≤
      empty.length + opening.length + closing.length + l.length * (separator.length + n) := by
  cases l with
  | nil =>
    show empty.length ≤ _
    omega
  | cons a l =>
    have ha := h a List.mem_cons_self
    have hl := length_many_le (avoids_before f hsep) (l := l) (n := separator.length + n)
      fun b hb => by
        show (separator ++ f.write b).length ≤ _
        rw [List.length_append]
        have := h b (List.mem_cons_of_mem a hb)
        omega
    show (opening ++ (f.write a ++ (many closing (f.before separator) _).write l)).length ≤ _
    rw [List.length_append, List.length_append, List.length_cons, Nat.succ_mul]
    omega

/-! ## Strings -/

def quote : Char := Char.ofNat 0x22

def backslash : Char := Char.ofNat 0x5c

/-- The characters with a short escape, with the letter of the escape. -/
def shortEscapes : List (Char × Char) :=
  [(quote, quote), (backslash, backslash), (Char.ofNat 8, 'b'), (Char.ofNat 9, 't'),
    (Char.ofNat 10, 'n'), (Char.ofNat 12, 'f'), (Char.ofNat 13, 'r')]

def hexDigit (n : Nat) : Char := Nat.digitChar n

def hexValue (c : Char) : Nat :=
  if c.isDigit then c.toNat - 0x30 else c.toNat - 0x61 + 10

def escape (c : Char) : List Char :=
  match shortEscapes.find? (·.1 = c) with
  | some p => [backslash, p.2]
  | none =>
    if c.toNat < 0x20 then
      [backslash, 'u', '0', '0', hexDigit (c.toNat / 16), hexDigit (c.toNat % 16)]
    else [c]

def unescape : List Char → Option (Char × List Char)
  | [] => none
  | c :: input =>
    if c ≠ backslash then some (c, input)
    else match input with
      | 'u' :: '0' :: '0' :: a :: b :: input =>
        some (Char.ofNat (16 * hexValue a + hexValue b), input)
      | letter :: input => (shortEscapes.find? (·.2 = letter)).map fun p => (p.1, input)
      | [] => none

theorem hexValue_hexDigit : ∀ n < 0x20,
    16 * hexValue (hexDigit (n / 16)) + hexValue (hexDigit (n % 16)) = n := by
  decide

theorem escape_short {p : Char × Char} (h : p ∈ shortEscapes) (rest : List Char) :
    unescape (backslash :: p.2 :: rest) = some (p.1, rest) := by
  simp only [shortEscapes, List.mem_cons, List.not_mem_nil, or_false] at h
  rcases h with rfl | rfl | rfl | rfl | rfl | rfl | rfl <;> rfl

theorem unescape_escape (c : Char) (rest : List Char) :
    unescape (escape c ++ rest) = some (c, rest) := by
  unfold escape
  split
  next p h =>
    have hc : p.1 = c := by simpa using List.find?_some h
    rw [← hc]
    exact escape_short (List.mem_of_find?_eq_some h) rest
  next h =>
    have hne : c ≠ backslash := by
      rintro rfl
      revert h
      decide
    split
    next hlt =>
      show some (Char.ofNat _, rest) = _
      rw [hexValue_hexDigit _ hlt, Char.ofNat_toNat]
    next => simp [unescape, hne]

/-- One character of a string. -/
def escaped : Format Char where
  write := escape
  read := unescape
  read_write := unescape_escape

theorem avoids_escaped : Avoids [quote] escaped := by
  intro c rest
  show expect [quote] (escape c ++ rest) = none
  unfold escape
  split
  next p h => rfl
  next h =>
    have hne : quote ≠ c := by
      rintro rfl
      revert h
      decide
    split
    · rfl
    · simp [expect, hne]

/-- A string in quotes. -/
def quoted : Format String :=
  ((many [quote] escaped avoids_escaped).before [quote]).iso String.toList String.ofList
    fun _ => String.ofList_toList

theorem length_escape_le (c : Char) : (escape c).length ≤ 6 := by
  unfold escape
  repeat' split
  all_goals simp

theorem length_quoted_le (s : String) : (quoted.write s).length ≤ 2 + s.length * 6 := by
  have h := length_many_le avoids_escaped (l := s.toList) fun c _ => length_escape_le c
  rw [String.length_toList] at h
  show ([quote] ++ (many [quote] escaped avoids_escaped).write s.toList).length ≤ _
  rw [List.length_append, List.length_singleton] at *
  omega

theorem avoids_quoted {c : Char} (s : List Char) (hc : c ≠ quote) : Avoids (c :: s) quoted :=
  avoids_iso _ _ _ (avoids_before _ fun rest => by simp [expect, hc])

end Format

end Foundation
