import Kwe.Foundation.Search

/-!
The lexical grammar of ECMAScript, over texts whose names and numbers are plain: names of
ASCII letters, decimal integers.  Where the grammar asks for more (templates, fractions,
names with other letters, a slash after `)` or a brace) the text is not read.

* `readString_char`, `readString_escape`: a string literal is read one character at a time;
* `scan_spells`: a fixed piece of a script reads the same wherever it stands;
* `Spells.append`, `Spells.tokenize`: scripts are read piece by piece.
-/

namespace Foundation.EcmaScript

abbrev Text := List Char

inductive Token
  | identifier (name : String)
  | number (n : Nat)
  /-- A string literal, as the code units of its value. -/
  | string (units : List Nat)
  | regExp (body flags : String)
  | punctuator (p : String)
  deriving DecidableEq, Repr

/-! ## Characters -/

def isLineTerminator (c : Char) : Bool :=
  c = '\n' || c = '\r' || c = '\u2028' || c = '\u2029'

def isWhiteSpace (c : Char) : Bool :=
  c = '\t' || c = '\x0b' || c = '\x0c' || c = ' ' || c = '\u00a0' || c = '\ufeff' ||
    c = '\u1680' || (0x2000 ≤ c.toNat && c.toNat ≤ 0x200a) || c = '\u202f' || c = '\u205f' ||
    c = '\u3000'

def isIdStart (c : Char) : Bool := c.isAlpha || c = '$' || c = '_'

def isIdPart (c : Char) : Bool := c.isAlphanum || c = '$' || c = '_'

/-- The code units of a character. -/
def utf16Char (c : Char) : List Nat :=
  if c.toNat < 0x10000 then [c.toNat]
  else [0xd800 + (c.toNat - 0x10000) / 0x400, 0xdc00 + (c.toNat - 0x10000) % 0x400]

def utf16 (text : Text) : List Nat := text.flatMap utf16Char

/-! ## String literals -/

def hexDigit (c : Char) : Option Nat :=
  if c.isDigit then some (c.toNat - 0x30)
  else if 0x61 ≤ c.toNat && c.toNat ≤ 0x66 then some (c.toNat - 0x61 + 10)
  else if 0x41 ≤ c.toNat && c.toNat ≤ 0x46 then some (c.toNat - 0x41 + 10)
  else none

/-- The value of so many hexadecimal digits. -/
def hexValue (digits : List Char) : Option Nat :=
  digits.foldlM (fun n c => (hexDigit c).map (16 * n + ·)) 0

/-- The character that an escape of one letter stands for. -/
def singleEscape (c : Char) : Char :=
  if c = 'b' then '\x08'
  else if c = 't' then '\t'
  else if c = 'n' then '\n'
  else if c = 'v' then '\x0b'
  else if c = 'f' then '\x0c'
  else if c = 'r' then '\r'
  else c

/-- What a backslash and the text after it stand for, and the text that is left. -/
def readEscape : Text → Option (List Nat × Text)
  | 'u' :: a :: b :: c :: d :: text => (hexValue [a, b, c, d]).map fun unit => ([unit], text)
  | 'x' :: a :: b :: text => (hexValue [a, b]).map fun unit => ([unit], text)
  | '\r' :: '\n' :: text => some ([], text)
  | c :: text =>
    if isLineTerminator c then some ([], text)
    else if c.isDigit || c = 'u' || c = 'x' then none
    else some (utf16Char (singleEscape c), text)
  | [] => none

/-- A string literal after its opening quote: the code units of its value, and the text
after its closing quote. -/
def readString (quote : Char) : Nat → Text → Option (List Nat × Text)
  | 0, _ => none
  | _ + 1, [] => none
  | fuel + 1, c :: text =>
    if c = quote then some ([], text)
    else if c = '\\' then
      match readEscape text with
      | none => none
      | some (units, text) => (readString quote fuel text).map fun p => (units ++ p.1, p.2)
    else if c = '\n' || c = '\r' then none
    else (readString quote fuel text).map fun p => (utf16Char c ++ p.1, p.2)

example : readString '"' 3 ['a', '"', ';'] = some ([97], [';']) := by
  simp [readString, utf16Char]

/-! ## Regular expressions -/

/-- The text of a regular expression up to its closing slash, and the text after it. -/
def readRegExpBody (inClass : Bool) : Text → Option (Text × Text)
  | [] => none
  | '\\' :: c :: text =>
    if isLineTerminator c then none
    else (readRegExpBody inClass text).map fun p => ('\\' :: c :: p.1, p.2)
  | c :: text =>
    if isLineTerminator c || c = '\\' then none
    else if c = '/' && !inClass then some ([], text)
    else
      (readRegExpBody (c = '[' || (inClass && c ≠ ']')) text).map fun p => (c :: p.1, p.2)

/-- Whether a slash begins a regular expression after this token; after a closing
parenthesis or brace the lexical grammar does not tell. -/
def regExpAllowed : Option Token → Option Bool
  | none => some true
  | some (.punctuator p) =>
    if p = ")" || p = "\x7d" then none else some (p ≠ "]")
  | some (.identifier name) =>
    some (["return", "typeof", "instanceof", "in", "new", "delete", "void", "throw", "case", "do",
      "else"].contains name)
  | some _ => some false

/-! ## Tokens -/

/-- What begins like a punctuator but is none: old comments, fractions. -/
def refused : List Text :=
  [['<', '!', '-', '-'], ['-', '-', '>']] ++
    ['0', '1', '2', '3', '4', '5', '6', '7', '8', '9'].flatMap fun d => [['?', '.', d], ['.', d]]

/-- The punctuators but for the slashes, the longer ones first. -/
def punctuators : List Text :=
  [['>', '>', '>', '='], ['.', '.', '.'], ['=', '=', '='], ['!', '=', '='], ['*', '*', '='],
    ['<', '<', '='], ['>', '>', '='], ['>', '>', '>'], ['&', '&', '='], ['|', '|', '='],
    ['?', '?', '='], ['=', '>'], ['=', '='], ['!', '='], ['<', '='], ['>', '='], ['&', '&'],
    ['|', '|'], ['?', '?'], ['?', '.'], ['+', '+'], ['-', '-'], ['+', '='], ['-', '='],
    ['*', '='], ['%', '='], ['&', '='], ['|', '='], ['^', '='], ['<', '<'], ['>', '>'],
    ['*', '*'], ['\x7b'], ['\x7d'], ['('], [')'], ['['], [']'], [';'], [','], ['<'], ['>'], ['+'],
    ['-'], ['*'], ['%'], ['&'], ['|'], ['^'], ['!'], ['~'], ['?'], [':'], ['='], ['.']]

/-- A punctuator at the beginning of the text: the longest. -/
def readPunctuator (text : Text) : Option (Option Token × Text) :=
  if refused.any (·.isPrefixOf text) then none
  else
    (punctuators.find? (·.isPrefixOf text)).map fun p =>
      (some (.punctuator (String.ofList p)), text.drop p.length)

/-- A decimal integer at the beginning of the text. -/
def readNumber (text : Text) : Option (Option Token × Text) :=
  let digits := text.takeWhile Char.isDigit
  let rest := text.dropWhile Char.isDigit
  if (digits.head? = some '0' && 1 < digits.length) || rest.head?.any (fun c => isIdPart c || c = '.')
  then none
  else some (some (.number (Nat.ofDigitChars 10 digits 0)), rest)

def readSlash (last : Option Token) (text : Text) : Option (Option Token × Text) :=
  match text with
  | '/' :: text => some (none, text.dropWhile fun c => !isLineTerminator c)
  | '*' :: text => (Search.after "*/".toList text).map fun rest => (none, rest)
  | text =>
    match regExpAllowed last with
    | none => none
    | some true =>
      (readRegExpBody false text).map fun p =>
        (some (.regExp (String.ofList p.1) (String.ofList (p.2.takeWhile isIdPart))),
          p.2.dropWhile isIdPart)
    | some false =>
      if text.head? = some '=' then some (some (.punctuator "/="), text.tail)
      else some (some (.punctuator "/"), text)

/-- The next token, or nothing for white space and comments, and the text after it. -/
def next (last : Option Token) : Text → Option (Option Token × Text)
  | [] => none
  | c :: text =>
    if isWhiteSpace c || isLineTerminator c then some (none, text)
    else if c = '"' || c = '\'' then
      (readString c (text.length + 1) text).map fun p => (some (.string p.1), p.2)
    else if isIdStart c then
      some (some (.identifier (String.ofList (c :: text.takeWhile isIdPart))),
        text.dropWhile isIdPart)
    else if c.isDigit then readNumber (c :: text)
    else if c = '/' then readSlash last text
    else readPunctuator (c :: text)

def tokenizeFrom : Nat → Option Token → Text → Option (List Token)
  | _, _, [] => some []
  | 0, _, _ :: _ => none
  | fuel + 1, last, text =>
    match next last text with
    | none => none
    | some (none, rest) => tokenizeFrom fuel last rest
    | some (some token, rest) => (tokenizeFrom fuel (some token) rest).map (token :: ·)

/-- The tokens of a script. -/
def tokenize (text : Text) : Option (List Token) := tokenizeFrom text.length none text

example : tokenize "var d = [\"a\\n\"];".toList =
    some [.identifier "var", .identifier "d", .punctuator "=", .punctuator "[",
      .string [97, 10], .punctuator "]", .punctuator ";"] := by
  decide

/-! ## Reading piece by piece -/

/-- The last token after these. -/
def lastToken : Option Token → List Token → Option Token
  | last, [] => last
  | _, token :: tokens => lastToken (some token) tokens

/-- From a text some tokens are read, and another text is left. -/
inductive Reads : Option Token → Text → List Token → Text → Prop
  | done (last : Option Token) (text : Text) : Reads last text [] text
  | skip {last : Option Token} {text text' : Text} {tokens : List Token} {rest : Text}
      (h : next last text = some (none, text')) (hlt : text'.length < text.length)
      (hrest : Reads last text' tokens rest) : Reads last text tokens rest
  | token {last : Option Token} {text text' : Text} {t : Token} {tokens : List Token}
      {rest : Text} (h : next last text = some (some t, text'))
      (hlt : text'.length < text.length) (hrest : Reads (some t) text' tokens rest) :
      Reads last text (t :: tokens) rest

theorem Reads.trans {last : Option Token} {text text' rest : Text} {tokens tokens' : List Token}
    (h : Reads last text tokens text') (h' : Reads (lastToken last tokens) text' tokens' rest) :
    Reads last text (tokens ++ tokens') rest := by
  induction h with
  | done => exact h'
  | skip hnext hlt _ ih => exact .skip hnext hlt (ih h')
  | token hnext hlt _ ih => exact .token hnext hlt (ih h')

/-- One token. -/
theorem Reads.one {last : Option Token} {text rest : Text} {t : Token}
    (h : next last text = some (some t, rest)) (hlt : rest.length < text.length) :
    Reads last text [t] rest :=
  .token h hlt (.done _ _)

theorem tokenizeFrom_eq {last : Option Token} {text : Text} {tokens : List Token}
    (h : Reads last text tokens []) {fuel : Nat} (hfuel : text.length ≤ fuel) :
    tokenizeFrom fuel last text = some tokens := by
  generalize hrest : ([] : Text) = rest at h
  induction h generalizing fuel with
  | done last text =>
    subst hrest
    cases fuel <;> rfl
  | @skip last text text' tokens rest hnext hlt _ ih =>
    obtain ⟨fuel, rfl⟩ : ∃ n, fuel = n + 1 := ⟨fuel - 1, by omega⟩
    cases text with
    | nil => exact absurd hlt (Nat.not_lt_zero _)
    | cons c text =>
      simp only [tokenizeFrom, hnext]
      exact ih (by omega) hrest
  | @token last text text' t tokens rest hnext hlt _ ih =>
    obtain ⟨fuel, rfl⟩ : ∃ n, fuel = n + 1 := ⟨fuel - 1, by omega⟩
    cases text with
    | nil => exact absurd hlt (Nat.not_lt_zero _)
    | cons c text =>
      simp only [tokenizeFrom, hnext]
      rw [ih (by omega) hrest, Option.map_some]

/-- The text is read as these tokens, after any token and in front of any text. -/
def Spells (text : Text) (tokens : List Token) : Prop :=
  ∀ (last : Option Token) (more : Text), Reads last (text ++ more) tokens more

theorem Spells.nil : Spells [] [] := fun last more => .done last more

theorem Spells.append {a b : Text} {s t : List Token} (ha : Spells a s) (hb : Spells b t) :
    Spells (a ++ b) (s ++ t) := by
  intro last more
  rw [List.append_assoc]
  exact (ha last _).trans (hb _ more)

/-- Lines that are read one by one. -/
theorem Spells.flatMap {lines : List String} {tokens : List (List Token)}
    (h : List.Forall₂ (fun line ts => Spells line.toList ts) lines tokens) :
    Spells (lines.flatMap String.toList) tokens.flatten := by
  induction h with
  | nil => exact .nil
  | cons hline _ ih => exact hline.append ih

theorem Spells.tokenize {text : Text} {tokens : List Token} (h : Spells text tokens) :
    tokenize text = some tokens := by
  have hreads := h none []
  rw [List.append_nil] at hreads
  exact tokenizeFrom_eq hreads (Nat.le_refl _)

/-! ## Fixed pieces -/

/-- Whatever follows the rest, no punctuator is longer than this one. -/
def Firm (p rest : Text) : Prop :=
  ∀ q ∈ refused ++ punctuators, p.length < q.length → ¬ p ++ rest.take 1 <+: q

instance (p rest : Text) : Decidable (Firm p rest) :=
  inferInstanceAs (Decidable (∀ q ∈ refused ++ punctuators, p.length < q.length → _))

/-- The tokens of a piece of names, punctuators and white space whose last token ends with
it, whatever follows. -/
def scan : Nat → Text → Option (List Token)
  | _, [] => some []
  | 0, _ :: _ => none
  | fuel + 1, c :: text =>
    if isWhiteSpace c || isLineTerminator c then scan fuel text
    else if isIdStart c then
      match text.dropWhile isIdPart with
      | [] => none
      | d :: rest =>
        (scan fuel (d :: rest)).map
          (.identifier (String.ofList (c :: text.takeWhile isIdPart)) :: ·)
    else if c = '"' || c = '\'' || c = '/' || c.isDigit then none
    else
      match punctuators.find? (·.isPrefixOf (c :: text)) with
      | none => none
      | some p =>
        if refused.any (·.isPrefixOf (c :: text)) = false ∧
            Firm p ((c :: text).drop p.length) then
          (scan fuel ((c :: text).drop p.length)).map (.punctuator (String.ofList p) :: ·)
        else none

theorem Firm.isPrefixOf {p rest : Text} (h : Firm p rest) (more : Text) {q : Text}
    (hq : q ∈ refused ++ punctuators) :
    q.isPrefixOf (p ++ rest ++ more) = q.isPrefixOf (p ++ rest) := by
  rw [Bool.eq_iff_iff, List.isPrefixOf_iff_prefix, List.isPrefixOf_iff_prefix]
  refine ⟨fun hprefix => ?_, fun hprefix => hprefix.trans (List.prefix_append _ _)⟩
  by_cases hlength : q.length ≤ p.length
  · have hp : p <+: p ++ rest ++ more :=
      (List.prefix_append p rest).trans (List.prefix_append _ more)
    exact (List.prefix_of_prefix_length_le hprefix hp hlength).trans (List.prefix_append p rest)
  · have hp : p ++ rest.take 1 <+: p ++ rest ++ more :=
      ((List.prefix_append_right_inj p).mpr (List.take_prefix 1 rest)).trans
        (List.prefix_append _ more)
    have hle : (p ++ rest.take 1).length ≤ q.length := by
      rw [List.length_append, List.length_take]
      omega
    exact absurd (List.prefix_of_prefix_length_le hp hprefix hle) (h q hq (Nat.not_le.mp hlength))

theorem punctuators_ne_nil : ∀ p ∈ punctuators, p ≠ [] := by decide

/-- What is read at the beginning of a piece is read in front of any text. -/
theorem readPunctuator_append {p text : Text}
    (hfind : punctuators.find? (·.isPrefixOf text) = some p)
    (hrefused : refused.any (·.isPrefixOf text) = false) (hfirm : Firm p (text.drop p.length))
    (more : Text) :
    readPunctuator (text ++ more) =
      some (some (.punctuator (String.ofList p)), text.drop p.length ++ more) := by
  have hprefix : p <+: text := by simpa using List.find?_some hfind
  have htext : p ++ text.drop p.length = text := (List.prefix_iff_eq_append.mp hprefix)
  have hsame : ∀ q ∈ refused ++ punctuators, q.isPrefixOf (text ++ more) = q.isPrefixOf text := by
    intro q hq
    have happend := hfirm.isPrefixOf more hq
    rwa [htext] at happend
  have hnot : refused.any (·.isPrefixOf (text ++ more)) = false := by
    rw [List.any_eq_false] at hrefused ⊢
    intro q hq
    rw [hsame q (List.mem_append_left _ hq)]
    exact hrefused q hq
  have hfound : punctuators.find? (·.isPrefixOf (text ++ more)) = some p := by
    rw [← hfind]
    exact List.find?_congr fun q hq => hsame q (List.mem_append_right _ hq)
  rw [readPunctuator, hnot, hfound]
  simp [List.drop_append_of_le_length hprefix.length_le]

theorem isIdStart_ascii {c : Char} (h : isIdStart c = true) : c.toNat < 0x80 := by
  simp only [isIdStart, Char.isAlpha, Char.isUpper, Char.isLower, Bool.or_eq_true,
    Bool.and_eq_true, decide_eq_true_eq] at h
  rcases h with (h | rfl) | rfl
  · rcases h with ⟨-, h⟩ | ⟨-, h⟩ <;> exact Nat.lt_of_le_of_lt h (by decide)
  · decide
  · decide

/-- What holds of the plain characters that `p` tells. -/
theorem ascii_cases {p q : Char → Bool} (h : ∀ n < 0x80, p (Char.ofNat n) = true →
    q (Char.ofNat n) = true) {c : Char} (hc : c.toNat < 0x80) (hp : p c = true) : q c = true := by
  have hq := h c.toNat hc
  rw [Char.ofNat_toNat] at hq
  exact hq hp

theorem not_special_of_isIdStart {c : Char} (h : isIdStart c = true) :
    (isWhiteSpace c || isLineTerminator c) = false ∧ (c = '"' || c = '\'') = false := by
  have hall := ascii_cases (p := isIdStart)
    (q := fun c => !(isWhiteSpace c || isLineTerminator c) && !(c = '"' || c = '\''))
    (by decide) (isIdStart_ascii h) h
  simpa only [Bool.and_eq_true, Bool.not_eq_true'] using hall

theorem next_identifier {c : Char} {name rest : Text} (hc : isIdStart c = true)
    (hname : ∀ d ∈ name, isIdPart d = true) (hrest : ∀ d ∈ rest.head?, isIdPart d = false)
    (last : Option Token) :
    next last (c :: (name ++ rest)) =
      some (some (.identifier (String.ofList (c :: name))), rest) := by
  obtain ⟨hspace, hquote⟩ := not_special_of_isIdStart hc
  have htake : (name ++ rest).takeWhile isIdPart = name := by
    rw [List.takeWhile_append_of_pos hname]
    cases rest with
    | nil => simp
    | cons d rest => simp [hrest d rfl]
  have hdrop : (name ++ rest).dropWhile isIdPart = rest := by
    rw [List.dropWhile_append_of_pos hname]
    cases rest with
    | nil => simp
    | cons d rest => simp [hrest d rfl]
  simp [next, hspace, hquote, hc, htake, hdrop]

theorem scan_spells {fuel : Nat} {piece : Text} {tokens : List Token}
    (h : scan fuel piece = some tokens) : Spells piece tokens := by
  intro last more
  induction fuel generalizing piece tokens last with
  | zero =>
    cases piece with
    | nil =>
      obtain rfl := Option.some.inj h
      exact .done last more
    | cons c text => exact nomatch h
  | succ fuel ih =>
    cases piece with
    | nil =>
      obtain rfl := Option.some.inj h
      exact .done last more
    | cons c text =>
      rw [scan] at h
      split at h
      next hspace =>
        have hnext : next last (c :: text ++ more) = some (none, text ++ more) := by
          rw [List.cons_append, next, if_pos hspace]
        exact .skip hnext (by simp) (ih h last)
      next hspace =>
        split at h
        next hid =>
          split at h
          · exact nomatch h
          next d rest hdrop =>
            obtain ⟨tokens', hscan, rfl⟩ := Option.map_eq_some_iff.mp h
            have hsplit : text.takeWhile isIdPart ++ d :: rest = text := by
              rw [← hdrop, List.takeWhile_append_dropWhile]
            have hd : isIdPart d = false := by
              have hnot := List.head?_dropWhile_not isIdPart text
              rwa [hdrop] at hnot
            have hhead : ∀ e ∈ (d :: rest ++ more).head?, isIdPart e = false :=
              fun e he => Option.some.inj he ▸ hd
            have hname : ∀ e ∈ text.takeWhile isIdPart, isIdPart e = true :=
              List.all_eq_true.mp List.all_takeWhile
            have hnext := next_identifier hid hname hhead last
            rw [← List.append_assoc, hsplit] at hnext
            refine .token hnext ?_ (ih hscan _)
            have hlength := congrArg List.length hsplit
            simp only [List.length_append, List.length_cons] at hlength ⊢
            omega
        next hid =>
          split at h
          · exact nomatch h
          next hother =>
            split at h
            · exact nomatch h
            next p hfind =>
              split at h
              next hfirm =>
                obtain ⟨tokens', hscan, rfl⟩ := Option.map_eq_some_iff.mp h
                have happend := readPunctuator_append hfind hfirm.1 hfirm.2 more
                have hpos : 0 < p.length :=
                  List.length_pos_iff.mpr (punctuators_ne_nil p (List.mem_of_find?_eq_some hfind))
                simp only [Bool.or_eq_true, decide_eq_true_eq, not_or] at hother
                have hnext : next last (c :: text ++ more) =
                    some (some (.punctuator (String.ofList p)),
                      (c :: text).drop p.length ++ more) := by
                  rw [List.cons_append, next, if_neg hspace, if_neg (by simp [hother]), if_neg hid,
                    if_neg (by simp [hother]), if_neg hother.1.2]
                  exact happend
                refine .token hnext ?_ (ih hscan _)
                simp only [List.length_append, List.length_drop, List.length_cons]
                omega
              · exact nomatch h

theorem spells_chars {text : Text} {tokens : List Token}
    (h : scan text.length text = some tokens) : Spells text tokens :=
  scan_spells h

/-- A fixed piece, given as a string. -/
theorem spells_piece {piece : String} {text : Text} {tokens : List Token}
    (hpiece : String.ofList text = piece) (h : scan text.length text = some tokens) :
    Spells piece.toList tokens := by
  rw [← hpiece, String.toList_ofList]
  exact scan_spells h

theorem lastToken_eq (last : Option Token) (tokens : List Token) :
    lastToken last tokens = tokens.getLast?.or last := by
  induction tokens generalizing last with
  | nil => rfl
  | cons t tokens ih =>
    rw [lastToken, ih, List.getLast?_cons]
    cases tokens.getLast? <;> rfl

/-! ## Values -/

theorem readString_close (quote : Char) (fuel : Nat) (rest : Text) :
    readString quote (fuel + 1) (quote :: rest) = some ([], rest) := by
  simp [readString]

theorem readString_char {quote c : Char} (hquote : c ≠ quote) (hc : c ≠ '\\')
    (hline : c ≠ '\n' ∧ c ≠ '\r') (fuel : Nat) (text : Text) :
    readString quote (fuel + 1) (c :: text) =
      (readString quote fuel text).map fun p => (utf16Char c ++ p.1, p.2) := by
  simp [readString, hquote, hc, hline]

theorem readString_escape {quote : Char} (hquote : quote ≠ '\\') {text rest : Text}
    {units : List Nat} (h : readEscape text = some (units, rest)) (fuel : Nat) :
    readString quote (fuel + 1) ('\\' :: text) =
      (readString quote fuel rest).map fun p => (units ++ p.1, p.2) := by
  simp [readString, Ne.symm hquote, h]

theorem next_string {body rest : Text} {units : List Nat}
    (h : readString '"' ((body ++ '"' :: rest).length + 1) (body ++ '"' :: rest) =
      some (units, rest)) (last : Option Token) :
    next last ('"' :: (body ++ '"' :: rest)) = some (some (.string units), rest) := by
  rw [next, if_neg (by decide), if_pos (by decide), h, Option.map_some]

/-- A regular expression without flags, between pieces that it may stand between. -/
theorem Spells.regExp {a body b : Text} {s t : List Token} {token : Token} {c d : Char}
    (ha : Spells a s) (hb : Spells b t) (hlast : s.getLast? = some token)
    (hallowed : regExpAllowed (some token) = some true)
    (hbody : ∀ more, readRegExpBody false (body ++ '/' :: more) = some (body, more))
    (hc : body.head? = some c) (hhead : c ≠ '/' ∧ c ≠ '*') (hd : b.head? = some d)
    (hflags : isIdPart d = false) :
    Spells (a ++ ('/' :: body ++ ['/']) ++ b) (s ++ [.regExp (String.ofList body) ""] ++ t) := by
  intro last more
  obtain ⟨body, rfl⟩ : ∃ rest, body = c :: rest := ⟨body.tail, List.eq_cons_of_mem_head? hc⟩
  obtain ⟨b, rfl⟩ : ∃ rest, b = d :: rest := ⟨b.tail, List.eq_cons_of_mem_head? hd⟩
  have hnext : next (lastToken last s) ('/' :: (c :: body ++ '/' :: (d :: b ++ more))) =
      some (some (.regExp (String.ofList (c :: body)) ""), d :: b ++ more) := by
    rw [lastToken_eq, hlast, next, if_neg (by decide), if_neg (by decide), if_neg (by decide),
      if_neg (by decide), if_pos rfl]
    have hread := hbody (d :: b ++ more)
    rw [List.cons_append] at hread ⊢
    rw [readSlash, Option.some_or, hallowed]
    · simp only [hread, Option.map_some]
      simp [hflags]
    · intro text h
      exact hhead.1 (List.cons.inj h).1
    · intro text h
      exact hhead.2 (List.cons.inj h).1
  have htext : a ++ ('/' :: (c :: body) ++ ['/']) ++ d :: b ++ more =
      a ++ ('/' :: (c :: body ++ '/' :: (d :: b ++ more))) := by simp
  rw [htext, List.append_assoc]
  refine (ha last _).trans ((Reads.one hnext ?_).trans (hb _ more))
  simp only [List.length_cons, List.length_append]
  omega

theorem not_special_of_isDigit {c : Char} (h : c.isDigit = true) :
    (isWhiteSpace c || isLineTerminator c) = false ∧ (c = '"' || c = '\'') = false ∧
      isIdStart c = false := by
  have hascii : c.toNat < 0x80 := by
    simp only [Char.isDigit, Bool.and_eq_true, decide_eq_true_eq] at h
    exact Nat.lt_of_le_of_lt h.2 (by decide)
  have hall := ascii_cases (p := Char.isDigit)
    (q := fun c => !(isWhiteSpace c || isLineTerminator c) && !(c = '"' || c = '\'') &&
      !isIdStart c) (by decide) hascii h
  simpa only [Bool.and_eq_true, Bool.not_eq_true', and_assoc] using hall

/-- A number does not begin with a zero, unless it is one. -/
theorem head_toDigits (n : Nat) (h : (Nat.toDigits 10 n).head? = some '0') : n = 0 := by
  induction n using Nat.strongRecOn with
  | _ n ih =>
    by_cases hsmall : n < 10
    · rw [Nat.toDigits_of_lt_base hsmall] at h
      have hall : ∀ m < 10, [Nat.digitChar m].head? = some '0' → m = 0 := by decide
      exact hall n hsmall h
    · have hdiv : 0 < n / 10 := Nat.div_pos (Nat.not_lt.mp hsmall) (by decide)
      have happend := Nat.toDigits_append_toDigits (b := 10) (n := n / 10) (d := n % 10) (by decide)
        hdiv (Nat.mod_lt n (by decide))
      rw [Nat.div_add_mod] at happend
      rw [← happend, List.head?_append_of_ne_nil _ Nat.toDigits_ne_nil] at h
      have hzero := ih (n / 10) (Nat.div_lt_self (by omega) (by decide)) h
      omega

theorem next_number (n : Nat) {rest : Text}
    (hrest : ∀ d ∈ rest.head?, isIdPart d = false ∧ d ≠ '.') (last : Option Token) :
    next last (Nat.toDigits 10 n ++ rest) = some (some (.number n), rest) := by
  have hdigits : ∀ d ∈ Nat.toDigits 10 n, d.isDigit = true := fun d hd =>
    Nat.isDigit_of_mem_toDigits (by decide) (by decide) hd
  have hstop : ∀ d ∈ rest.head?, d.isDigit = false := by
    intro d hd
    have hpart := (hrest d hd).1
    simp only [isIdPart, Char.isAlphanum, Bool.or_eq_false_iff] at hpart
    exact hpart.1.1.2
  have htake : (Nat.toDigits 10 n ++ rest).takeWhile Char.isDigit = Nat.toDigits 10 n := by
    rw [List.takeWhile_append_of_pos hdigits]
    cases rest with
    | nil => simp
    | cons d rest => simp [hstop d rfl]
  have hdrop : (Nat.toDigits 10 n ++ rest).dropWhile Char.isDigit = rest := by
    rw [List.dropWhile_append_of_pos hdigits]
    cases rest with
    | nil => simp
    | cons d rest => simp [hstop d rfl]
  have hzero : ((Nat.toDigits 10 n).head? = some '0' && decide (1 < (Nat.toDigits 10 n).length)) =
      false := by
    by_cases h : (Nat.toDigits 10 n).head? = some '0'
    · simp [head_toDigits n h]
    · simp [h]
  have hafter : rest.head?.any (fun c => isIdPart c || c = '.') = false := by
    cases rest with
    | nil => rfl
    | cons d rest => simp [hrest d rfl]
  have hread : readNumber (Nat.toDigits 10 n ++ rest) = some (some (.number n), rest) := by
    rw [readNumber, htake, hdrop, hzero, hafter, Nat.ofDigitChars_toDigits (by decide) (by decide)]
    rfl
  obtain ⟨d, ds, hcons⟩ := List.exists_cons_of_ne_nil (Nat.toDigits_ne_nil (b := 10) (n := n))
  have hd : d.isDigit = true := hdigits d (hcons ▸ List.mem_cons_self)
  rw [hcons, List.cons_append] at hread ⊢
  obtain ⟨hspace, hquote, hid⟩ := not_special_of_isDigit hd
  simp only [next, hspace, hquote, hid, hd, Bool.false_eq_true, if_false, if_true]
  exact hread

/-- A number between two pieces. -/
theorem Spells.number {a b : Text} {s t : List Token} {d : Char} (ha : Spells a s)
    (hb : Spells b t) (hd : b.head? = some d) (hstop : isIdPart d = false ∧ d ≠ '.') (n : Nat) :
    Spells (a ++ Nat.toDigits 10 n ++ b) (s ++ [.number n] ++ t) := by
  intro last more
  obtain ⟨b, rfl⟩ : ∃ rest, b = d :: rest := ⟨b.tail, List.eq_cons_of_mem_head? hd⟩
  have hhead : ∀ c ∈ (d :: b ++ more).head?, isIdPart c = false ∧ c ≠ '.' :=
    fun c hc => Option.some.inj hc ▸ hstop
  have hpos := List.length_pos_iff.mpr (Nat.toDigits_ne_nil (b := 10) (n := n))
  rw [List.append_assoc, List.append_assoc, List.append_assoc]
  refine (ha last _).trans ((Reads.one (next_number n hhead _) ?_).trans (hb _ more))
  simp only [List.length_append]
  omega

end Foundation.EcmaScript
