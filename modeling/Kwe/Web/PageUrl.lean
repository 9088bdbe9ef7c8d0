import Kwe.Foundation.FileUrl
import Kwe.Foundation.Lossy

/-!
The URL of the wallpaper page on macOS and the test by which the web renderer
recognises the page among the targets of the browser.

* `filePath_pageUrl_iff`: the roots whose page the browser is sent to;
* `page_found_iff`: the roots and targets for which the page is recognised, and
  nothing else is;
* `no_root_found`: for every root some target without the page's path is taken
  for the page.
-/

namespace Kwe.Web.PageUrl

open Foundation Foundation.FileUrl
open Foundation.Percent (Separates hasEscape)
open Foundation.Utf8 (encode encode_append decodeLossy)

/-! ## The code -/

/-- The directory of a web wallpaper. -/
structure ContentRoot where
  path : List Char
  absolute : path.head? = some '/'
  noNul : '\x00' ∉ path

/-- The file that is shown. -/
def ContentRoot.page (root : ContentRoot) : List Char := root.path ++ "/index.html".toList

/-- `page_url` of `macos::web_renderer_command`. -/
def pageUrl (root : ContentRoot) : List Char :=
  "file://".toList ++ root.path ++ "/index.html".toList

def pageUrlMarker (pageUrl : List Char) : List Char :=
  if "file://".toList.isPrefixOf pageUrl then pageUrl.drop 7 else pageUrl

/-- `(byte as char).to_digit(16)`. -/
def hexValue (byte : UInt8) : Option UInt8 :=
  if 0x30 ≤ byte ∧ byte ≤ 0x39 then some (byte - 0x30)
  else if 0x61 ≤ byte ∧ byte ≤ 0x66 then some (byte - 0x61 + 10)
  else if 0x41 ≤ byte ∧ byte ≤ 0x46 then some (byte - 0x41 + 10)
  else none

/-- The byte that is escaped at `index`. -/
def escapeAt (bytes : List UInt8) (index : Nat) : Option UInt8 :=
  if bytes[index]? = some 0x25 ∧ index + 2 < bytes.length then do
    let high ← hexValue (← bytes[index + 1]?)
    let low ← hexValue (← bytes[index + 2]?)
    pure (high <<< 4 ||| low)
  else none

/-- The loop of `percent_decode`; every turn takes a byte or three. -/
def percentDecodeFrom (bytes : List UInt8) : Nat → Nat → List UInt8 → List UInt8
  | 0, _, out => out
  | fuel + 1, index, out =>
    match bytes[index]? with
    | none => out
    | some byte =>
      match escapeAt bytes index with
      | some value => percentDecodeFrom bytes fuel (index + 3) (out ++ [value])
      | none => percentDecodeFrom bytes fuel (index + 1) (out ++ [byte])

def percentDecode (text : List Char) : List Char :=
  decodeLossy (percentDecodeFrom (encode text) (encode text).length 0 [])

def urlMatchesMarker (url pageMarker : List Char) : Bool :=
  decide (pageMarker <:+: url) || decide (pageMarker <:+: percentDecode url)

example : percentDecode "a%2Fb%zz%".toList = "a/b%zz%".toList := by decide +kernel

example : percentDecode "%C3%A9".toList = "é".toList := by decide +kernel

/-! ## Targets -/

/-- A URL in three parts: scheme and authority, path, query and fragment. -/
structure Parts where
  lead : List Char
  path : List Char
  rest : List Char

/-- The scheme ends at the first colon, and an authority follows `//`. -/
def splitLocation (location : List Char) : List Char × List Char :=
  let scheme := location.takeWhile (· ≠ ':')
  match location.dropWhile (· ≠ ':') with
  | ':' :: '/' :: '/' :: more =>
    (scheme ++ "://".toList ++ more.takeWhile (· ≠ '/'), more.dropWhile (· ≠ '/'))
  | ':' :: more => (scheme ++ [':'], more)
  | _ => ([], location)

def split (url : List Char) : Parts :=
  let location := splitLocation (url.takeWhile (!endsPath ·))
  ⟨location.1, location.2, url.dropWhile (!endsPath ·)⟩

/-- The bytes of a part, percent-decoded. -/
def decoded (part : List Char) : List UInt8 := Percent.decode (encode part)

/-- The same URL up to the bytes that are percent-encoded in its path, its query and
its fragment. -/
def Spells (url page : List Char) : Prop :=
  (split url).lead = (split page).lead ∧ decoded (split url).path = decoded (split page).path ∧
    decoded (split url).rest = decoded (split page).rest

/-- The path of a URL has the name of the file as a part. -/
def Names (url page : List Char) : Prop := encode page <:+: decoded (split url).path

/-- The text stands in a URL, but not within the path. -/
def Beside (text : List Char) (parts : Parts) : Prop :=
  text <:+: parts.rest ∨ ∃ k < parts.lead.length, text <+: (parts.lead ++ parts.path).drop k

/-- The parts as the renderer reads them the second time. -/
def Parts.read (parts : Parts) : Parts :=
  ⟨percentDecode parts.lead, percentDecode parts.path, percentDecode parts.rest⟩

/-- A target that is taken for the page although its path does not name it: the name
stands in the query or the fragment or begins before the path, or the path is no text
and only reads like the name. -/
def Misleading (root : ContentRoot) (target : List Char) : Prop :=
  ¬Names target root.page ∧
    (Beside root.page (split target) ∨ Beside root.page (split target).read ∨
      root.page <:+: (split target).read.path)

/-- The browser is sent to the page. -/
def Reached (root : ContentRoot) : Prop := filePath (pageUrl root) = some (encode root.page)

/-- The target is recognised if it spells the page, and not recognised if its path
neither is the page nor has it as a part. -/
structure Recognised (root : ContentRoot) (target : List Char) : Prop where
  accepted : Spells target (pageUrl root) →
    urlMatchesMarker target (pageUrlMarker (pageUrl root)) = true
  refused : decoded (split target).path ≠ encode root.page → ¬Names target root.page →
    urlMatchesMarker target (pageUrlMarker (pageUrl root)) = false

def Found (root : ContentRoot) (target : List Char) : Prop :=
  Reached root ∧ Recognised root target

/-! ## What the loop reads -/

theorem digit_eq {byte low high : UInt8} (h : low ≤ byte ∧ byte ≤ high) (offset : UInt8) :
    byte - low + offset = .ofNat (byte.toNat - low.toNat + offset.toNat) := by
  rw [← UInt8.toNat_inj, UInt8.toNat_add, UInt8.toNat_sub_of_le _ _ h.1, UInt8.toNat_ofNat']

theorem hexValue_eq (byte : UInt8) : hexValue byte = (Percent.hexValue byte).map .ofNat := by
  unfold hexValue Percent.hexValue
  by_cases h₁ : 0x30 ≤ byte ∧ byte ≤ 0x39
  · rw [if_pos h₁, if_pos h₁, Option.map_some, ← UInt8.add_zero (byte - 0x30), digit_eq h₁]
    rfl
  rw [if_neg h₁, if_neg h₁]
  by_cases h₂ : 0x61 ≤ byte ∧ byte ≤ 0x66
  · have hupper : ¬(0x41 ≤ byte ∧ byte ≤ 0x46) := fun h =>
      absurd (UInt8.le_trans h₂.1 h.2) (by decide)
    rw [if_pos h₂, if_neg hupper, if_pos h₂, Option.map_some, digit_eq h₂]
    rfl
  rw [if_neg h₂]
  by_cases h₃ : 0x41 ≤ byte ∧ byte ≤ 0x46
  · rw [if_pos h₃, if_pos h₃, Option.map_some, digit_eq h₃]
    rfl
  · rw [if_neg h₃, if_neg h₃, if_neg h₂, Option.map_none]

theorem hexValue_lt {byte : UInt8} {n : Nat} (h : Percent.hexValue byte = some n) : n < 16 := by
  simp only [Percent.hexValue, UInt8.le_iff_toNat_le, UInt8.reduceToNat] at h
  split_ifs at h <;> cases h <;> omega

theorem pairValue_eq (a b : UInt8) :
    (do
      let high ← hexValue a
      let low ← hexValue b
      pure (high <<< 4 ||| low)) = Percent.pairValue a b := by
  have hall : ∀ h ∈ List.range 16, ∀ l ∈ List.range 16,
      UInt8.ofNat h <<< 4 ||| UInt8.ofNat l = UInt8.ofNat (h * 16 + l) := by decide
  rw [hexValue_eq, hexValue_eq, Percent.pairValue]
  cases ha : Percent.hexValue a with
  | none => rfl
  | some h =>
    cases hb : Percent.hexValue b with
    | none => rfl
    | some l =>
      exact congrArg some (hall h (List.mem_range.mpr (hexValue_lt ha)) l
        (List.mem_range.mpr (hexValue_lt hb)))

/-- What `escapeAt` finds is the escape at the beginning of what is left. -/
theorem escapeAt_spec {bytes : List UInt8} {index : Nat} {byte : UInt8} {rest : List UInt8}
    (h : bytes.drop index = byte :: rest) :
    (∃ value, escapeAt bytes index = some value ∧
      Percent.decode (byte :: rest) = value :: Percent.decode (bytes.drop (index + 3))) ∨
    (escapeAt bytes index = none ∧
      Percent.decode (byte :: rest) = byte :: Percent.decode (bytes.drop (index + 1))) := by
  have hlength : bytes.length = index + (rest.length + 1) := by
    have := congrArg List.length h
    rw [List.length_drop, List.length_cons] at this
    omega
  have hget : ∀ i, bytes[index + i]? = (byte :: rest)[i]? := by
    intro i
    rw [← h, List.getElem?_drop]
  have hdrop : ∀ i, bytes.drop (index + i) = (byte :: rest).drop i := by
    intro i
    rw [← h, List.drop_drop]
  have hbyte : bytes[index]? = some byte := hget 0
  rw [hdrop, hdrop]
  unfold escapeAt
  rw [hbyte, hget, hget, hlength]
  by_cases hpercent : byte = 0x25
  · subst hpercent
    match rest with
    | [] => exact .inr ⟨if_neg (by simp), rfl⟩
    | [_] => exact .inr ⟨if_neg (by simp), rfl⟩
    | high :: low :: more =>
      rw [if_pos ⟨rfl, by simp only [List.length_cons]; omega⟩]
      simp only [List.getElem?_cons_succ, List.getElem?_cons_zero, Option.bind_eq_bind,
        Option.bind_some]
      have hpair := pairValue_eq high low
      simp only [Option.bind_eq_bind] at hpair
      rw [hpair]
      cases hvalue : Percent.pairValue high low with
      | none => exact .inr ⟨rfl, Percent.decode_percent hvalue more⟩
      | some value => exact .inl ⟨value, rfl, Percent.decode_escape hvalue more⟩
  · exact .inr ⟨if_neg (by simp [hpercent]), Percent.decode_cons_of_ne hpercent rest⟩

theorem percentDecodeFrom_eq (bytes : List UInt8) (fuel index : Nat)
    (h : bytes.length ≤ index + fuel) (out : List UInt8) :
    percentDecodeFrom bytes fuel index out = out ++ Percent.decode (bytes.drop index) := by
  induction fuel generalizing index out with
  | zero =>
    rw [List.drop_eq_nil_of_le (by omega)]
    exact (List.append_nil out).symm
  | succ fuel ih =>
    rw [percentDecodeFrom]
    match hdrop : bytes.drop index with
    | [] =>
      rw [List.getElem?_eq_none (List.drop_eq_nil_iff.mp hdrop)]
      exact (List.append_nil out).symm
    | byte :: rest =>
      have hbyte : bytes[index]? = some byte := by
        rw [← Nat.add_zero index, ← List.getElem?_drop, hdrop]
        rfl
      rw [hbyte]
      rcases escapeAt_spec hdrop with ⟨value, hescape, hread⟩ | ⟨hescape, hread⟩
      · simp only [hescape]
        rw [ih _ (by omega), hread, List.append_assoc]
        rfl
      · simp only [hescape]
        rw [ih _ (by omega), hread, List.append_assoc]
        rfl

/-- The text is percent-decoded as the URL standard says, and read lossily. -/
theorem percentDecode_eq (text : List Char) :
    percentDecode text = decodeLossy (Percent.decode (encode text)) := by
  rw [percentDecode, percentDecodeFrom_eq _ _ _ (by omega)]
  rfl

theorem percentDecode_encoded {part page : List Char} (h : decoded part = encode page) :
    percentDecode part = page := by
  rw [percentDecode_eq]
  exact (congrArg decodeLossy h).trans (Utf8.decodeLossy_encode page)

/-! ## Parts of a URL -/

/-- The characters between the parts of a URL. -/
def IsMark (c : Char) : Prop := c = ':' ∨ c = '/' ∨ c = '?' ∨ c = '#'

/-- Parts are read one by one. -/
theorem percentDecode_append_cons (text : List Char) {c : Char} (hc : IsMark c)
    (more : List Char) :
    percentDecode (text ++ c :: more) = percentDecode text ++ c :: percentDecode more := by
  have hbyte : ∃ b, String.utf8EncodeChar c = [b] ∧ Separates b ∧ b < 0x80 ∧
      Char.ofNat b.toNat = c := by
    rcases hc with rfl | rfl | rfl | rfl <;>
      exact ⟨_, rfl, ⟨by decide, by decide⟩, by decide, by decide⟩
  obtain ⟨b, hencode, hseparates, hlow, hchar⟩ := hbyte
  simp only [percentDecode_eq]
  rw [encode_append, Utf8.encode_cons, hencode, List.singleton_append,
    Percent.decode_append_cons _ hseparates, Utf8.decodeLossy_append_cons _ hlow, hchar]

theorem percentDecode_nil : percentDecode [] = [] := rfl

theorem percentDecode_append_mark {c : Char} (hc : IsMark c) (text more : List Char) :
    percentDecode (text ++ c :: more) = percentDecode text ++ percentDecode (c :: more) := by
  have hmore := percentDecode_append_cons [] hc more
  rw [percentDecode_nil, List.nil_append, List.nil_append] at hmore
  rw [percentDecode_append_cons text hc, hmore]

/-- What follows the text without a character begins with the character. -/
theorem dropWhile_cases (p : Char → Bool) (text : List Char) :
    text.dropWhile p = [] ∨ ∃ c more, text.dropWhile p = c :: more ∧ p c = false := by
  have hhead := List.head?_dropWhile_not p text
  match hdrop : text.dropWhile p with
  | [] => exact .inl rfl
  | c :: more =>
    rw [hdrop] at hhead
    exact .inr ⟨c, more, rfl, hhead⟩

/-- Nothing is lost between the parts of a location, and a mark stands at the cut. -/
theorem splitLocation_spec (location : List Char) :
    (splitLocation location).1 ++ (splitLocation location).2 = location ∧
      percentDecode location =
        percentDecode (splitLocation location).1 ++ percentDecode (splitLocation location).2 := by
  have hspan := List.takeWhile_append_dropWhile (p := (· ≠ ':')) (l := location)
  unfold splitLocation
  split
  next more hmore =>
    rw [hmore] at hspan
    have hauthority := List.takeWhile_append_dropWhile (p := (· ≠ '/')) (l := more)
    have hlocation : location.takeWhile (· ≠ ':') ++ "://".toList ++ more.takeWhile (· ≠ '/') ++
        more.dropWhile (· ≠ '/') = location := by
      rw [List.append_assoc, hauthority, List.append_assoc]
      exact hspan
    refine ⟨hlocation, ?_⟩
    conv_lhs => rw [← hlocation]
    rcases dropWhile_cases (· ≠ '/') more with hpath | ⟨c, path, hpath, hc⟩
    · rw [hpath, List.append_nil, percentDecode_nil, List.append_nil]
    · obtain rfl : c = '/' := by simpa using hc
      rw [hpath]
      exact percentDecode_append_mark (.inr (.inl rfl)) _ _
  next more hmore =>
    rw [hmore] at hspan
    refine ⟨by rw [List.append_assoc]; exact hspan, ?_⟩
    conv_lhs => rw [← hspan]
    rw [percentDecode_append_cons _ (.inl rfl), percentDecode_append_cons _ (.inl rfl),
      percentDecode_nil, List.append_assoc, List.singleton_append]
  next => exact ⟨rfl, rfl⟩

theorem endsPath_mark {c : Char} (h : endsPath c = true) : IsMark c := by
  rcases Bool.or_eq_true_iff.mp h with h | h
  · exact .inr (.inr (.inl (of_decide_eq_true h)))
  · exact .inr (.inr (.inr (of_decide_eq_true h)))

/-- A part that is empty or begins the query or the fragment. -/
def Ends (rest : List Char) : Prop := ∀ c more, rest = c :: more → endsPath c = true

theorem split_ends (url : List Char) : Ends (split url).rest := by
  intro c more h
  rcases dropWhile_cases (!endsPath ·) url with hrest | ⟨d, more', hrest, hd⟩
  · exact absurd (h.symm.trans hrest) (by simp)
  · obtain ⟨rfl, -⟩ := List.cons.inj (h.symm.trans hrest)
    simpa using hd

theorem percentDecode_ends {rest : List Char} (h : Ends rest) : Ends (percentDecode rest) := by
  cases rest with
  | nil => exact fun _ _ hcons => nomatch hcons
  | cons c rest =>
    intro d more hcons
    have hread := percentDecode_append_cons [] (endsPath_mark (h c rest rfl)) rest
    rw [percentDecode_nil, List.nil_append, List.nil_append, hcons] at hread
    exact (List.cons.inj hread).1 ▸ h c rest rfl

/-- The parts of a URL make it up. -/
theorem split_append (url : List Char) :
    (split url).lead ++ (split url).path ++ (split url).rest = url := by
  rw [split, (splitLocation_spec _).1]
  exact List.takeWhile_append_dropWhile

/-- So do they when they are read. -/
theorem split_read (url : List Char) :
    (split url).read.lead ++ (split url).read.path ++ (split url).read.rest =
      percentDecode url := by
  have hurl := List.takeWhile_append_dropWhile (p := (!endsPath ·)) (l := url)
  have hlocation := (splitLocation_spec (url.takeWhile (!endsPath ·))).2
  simp only [Parts.read, split]
  rw [← hlocation]
  conv_rhs => rw [← hurl]
  have hends := split_ends url
  simp only [split] at hends
  match hrest : url.dropWhile (!endsPath ·) with
  | [] => rw [percentDecode_nil, List.append_nil, List.append_nil]
  | c :: rest =>
    exact (percentDecode_append_mark (endsPath_mark (hends c rest hrest)) _ rest).symm

/-- The whole text of a URL. -/
def Parts.text (parts : Parts) : List Char := parts.lead ++ parts.path ++ parts.rest

theorem infix_of_beside {text : List Char} {parts : Parts} (h : Beside text parts) :
    text <:+: parts.text := by
  rcases h with h | ⟨k, -, h⟩
  · exact h.trans (List.suffix_append _ _).isInfix
  · exact (h.isInfix.trans (List.drop_suffix k _).isInfix).trans (List.prefix_append _ _).isInfix

theorem infix_of_path {text : List Char} {parts : Parts} (h : text <:+: parts.path) :
    text <:+: parts.text :=
  (h.trans (List.suffix_append _ _).isInfix).trans (List.prefix_append _ _).isInfix

/-- A text without `?` and `#` stands in a URL within its path or beside it. -/
theorem infix_text_iff {text : List Char} (htext : ∀ c ∈ text, endsPath c = false)
    {parts : Parts} (hrest : Ends parts.rest) :
    text <:+: parts.text ↔ Beside text parts ∨ text <:+: parts.path := by
  refine ⟨fun h => ?_, fun h => h.elim infix_of_beside infix_of_path⟩
  have hcut : text <:+: parts.lead ++ parts.path ∨ text <:+: parts.rest := by
    rcases List.infix_append_iff.mp h with h | h | ⟨before, after, rfl, hbefore, hafter⟩
    · exact .inl h
    · exact .inr h
    · cases after with
      | nil =>
        rw [List.append_nil]
        exact .inl hbefore.isInfix
      | cons c after =>
        obtain ⟨more, hmore⟩ := hafter
        have hends := hrest c (after ++ more) hmore.symm
        rw [htext c (by simp)] at hends
        exact absurd hends (by simp)
  rcases hcut with ⟨before, after, hlocation⟩ | hquery
  · by_cases hlead : before.length < parts.lead.length
    · refine .inl (.inr ⟨before.length, hlead, after, ?_⟩)
      rw [← hlocation, List.append_assoc, List.drop_left]
    · refine .inr ⟨before.drop parts.lead.length, after, ?_⟩
      have := congrArg (List.drop parts.lead.length) hlocation
      rwa [List.drop_left, List.append_assoc, List.drop_append_of_le_length (Nat.not_lt.mp hlead),
        ← List.append_assoc] at this
  · exact .inl (.inl hquery)

/-! ## The page -/

section Root

variable (root : ContentRoot)

theorem pageUrlMarker_pageUrl : pageUrlMarker (pageUrl root) = root.page := by
  unfold pageUrlMarker pageUrl ContentRoot.page
  rw [List.append_assoc, if_pos]
  · exact List.drop_left' rfl
  · exact List.isPrefixOf_iff_prefix.mpr (List.prefix_append _ _)

/-- The name of the page after its first slash. -/
theorem page_eq : ∃ name, root.page = '/' :: name ∧ pageUrl root = "file:///".toList ++ name ∧
    name.getLast? = some 'l' := by
  have habsolute := root.absolute
  match hpath : root.path with
  | [] => simp [hpath] at habsolute
  | c :: name =>
    obtain rfl : c = '/' := by simpa [hpath] using habsolute
    refine ⟨name ++ "/index.html".toList, ?_, ?_, ?_⟩
    · rw [ContentRoot.page, hpath, List.cons_append]
    · have hscheme : "file:///".toList = "file://".toList ++ ['/'] := rfl
      unfold pageUrl
      rw [hpath, hscheme, List.append_assoc, List.append_assoc]
      exact congrArg ("file://".toList ++ ·) (List.cons_append ..)
    · rw [List.getLast?_append]
      rfl

/-- The roots whose page the browser is sent to. -/
theorem reached_iff : Reached root ↔ Plain root.page := by
  obtain ⟨name, hpage, hurl, hlast⟩ := page_eq root
  rw [Reached, hurl, hpage]
  refine filePath_eq_iff fun c hc => ?_
  obtain rfl := Option.some.inj (hlast.symm.trans hc)
  rfl

theorem matches_iff (target : List Char) :
    urlMatchesMarker target (pageUrlMarker (pageUrl root)) = true ↔
      root.page <:+: (split target).text ∨ root.page <:+: (split target).read.text := by
  rw [pageUrlMarker_pageUrl, urlMatchesMarker, Bool.or_eq_true, decide_eq_true_iff,
    decide_eq_true_iff, Parts.text, Parts.text, split_append, split_read]

/-- The page is decoded by itself wherever it stands. -/
theorem decoded_around (before after : List Char) :
    decoded (before ++ root.page ++ after) =
      decoded before ++ decoded root.page ++ decoded after := by
  have hfile : ∀ b ∈ encode "index.html".toList, b ≠ 0x25 := by
    have hall : (encode "index.html".toList).all (· ≠ 0x25) = true := by decide
    exact fun b hb => of_decide_eq_true (List.all_eq_true.mp hall b hb)
  -- the page ends in `/index.html`, which no escape reaches into
  have hend : ∀ text more, decoded (text ++ root.page ++ more) =
      decoded (text ++ root.path) ++ 0x2F :: (encode "index.html".toList ++ decoded more) := by
    intro text more
    have htext : encode (text ++ root.page ++ more) = encode (text ++ root.path) ++
        0x2F :: (encode "index.html".toList ++ encode more) := by
      simp only [ContentRoot.page, encode_append, List.append_assoc]
      rfl
    rw [decoded, htext, Percent.decode_append_cons _ slash_separates,
      Percent.decode_append_of_ne hfile]
    rfl
  have hbegin : ∀ text, decoded (text ++ root.path) = decoded text ++ decoded root.path := by
    intro text
    obtain ⟨name, hname⟩ : ∃ name, root.path = '/' :: name := by
      have habsolute := root.absolute
      match hpath : root.path with
      | [] => simp [hpath] at habsolute
      | c :: name =>
        obtain rfl : c = '/' := by simpa [hpath] using habsolute
        exact ⟨name, rfl⟩
    simp only [decoded, hname, encode_append, encode_slash,
      Percent.decode_append_cons _ slash_separates, Percent.decode_cons_of_ne slash_separates.1]
  have hpage : decoded root.page =
      decoded root.path ++ 0x2F :: (encode "index.html".toList ++ decoded []) := by
    have := hend [] []
    rwa [List.nil_append, List.append_nil, List.nil_append] at this
  rw [hend, hbegin, hpage]
  simp [decoded]
  rfl

variable {root}

theorem decoded_page (h : Plain root.page) : decoded root.page = encode root.page :=
  Percent.decode_eq_self h.unescaped

theorem names_of_within (h : Plain root.page) {target : List Char}
    (hpath : root.page <:+: (split target).path) : Names target root.page := by
  obtain ⟨before, after, hsplit⟩ := hpath
  refine ⟨decoded before, decoded after, ?_⟩
  rw [← hsplit, decoded_around, decoded_page h]

theorem split_file {name : List Char} (h : ∀ c ∈ name, endsPath c = false) :
    split ("file:///".toList ++ name) = ⟨"file://".toList, '/' :: name, []⟩ := by
  have hkept : ∀ c ∈ "file:///".toList ++ name, (!endsPath c) = true := by
    intro c hc
    rcases List.mem_append.mp hc with hc | hc
    · have hscheme : "file:///".toList.all (!endsPath ·) = true := by decide
      exact List.all_eq_true.mp hscheme c hc
    · rw [h c hc]
      rfl
  rw [split, List.takeWhile_eq_self_iff.mpr hkept, List.dropWhile_eq_nil_iff.mpr hkept]
  rfl

theorem split_pageUrl (h : Plain root.page) :
    split (pageUrl root) = ⟨"file://".toList, root.page, []⟩ := by
  obtain ⟨name, hpage, hurl, -⟩ := page_eq root
  rw [hurl, split_file fun c hc => (h.kept c (hpage ▸ List.mem_cons_of_mem _ hc)).1, hpage]

/-- The page is accepted however it is spelled. -/
theorem accepted_of_plain (h : Plain root.page) {target : List Char}
    (hspells : Spells target (pageUrl root)) :
    urlMatchesMarker target (pageUrlMarker (pageUrl root)) = true := by
  have hread : percentDecode (split target).path = root.page := by
    refine percentDecode_encoded ?_
    rw [hspells.2.1, split_pageUrl h, decoded_page h]
  rw [matches_iff]
  refine .inr (infix_of_path ?_)
  simp only [Parts.read, hread]
  exact List.infix_refl _

theorem endsPath_encodeText {text : List Char} {c : Char}
    (hc : c ∈ Percent.encodeText pathSet text) : endsPath c = false := by
  obtain ⟨d, -, hd⟩ := List.mem_flatMap.mp hc
  split at hd
  next =>
    obtain ⟨b, -, hb⟩ := List.mem_flatMap.mp hd
    have hdigit : ∀ n ∈ List.range 16, endsPath (Percent.hexDigit n) = false := by decide
    have hlt := b.toNat_lt
    simp only [Percent.escape, List.mem_cons, List.not_mem_nil, or_false] at hb
    rcases hb with rfl | rfl | rfl
    · rfl
    · exact hdigit _ (List.mem_range.mpr (by omega))
    · exact hdigit _ (List.mem_range.mpr (by omega))
  next hset =>
    obtain rfl := List.mem_singleton.mp hd
    by_contra hends
    rcases Bool.or_eq_true_iff.mp (eq_true_of_ne_false hends) with h | h
    · exact hset (of_decide_eq_true h ▸ rfl)
    · exact hset (of_decide_eq_true h ▸ rfl)

/-- The spelling that the browser reports. -/
theorem accepted_serialized (h : Plain root.page) :
    urlMatchesMarker ("file://".toList ++ Percent.encodeText pathSet root.page)
      (pageUrlMarker (pageUrl root)) = true := by
  obtain ⟨name, hpage, -, -⟩ := page_eq root
  have hurl : "file://".toList ++ Percent.encodeText pathSet root.page =
      "file:///".toList ++ Percent.encodeText pathSet name := by
    rw [hpage]
    rfl
  have hsplit : split ("file:///".toList ++ Percent.encodeText pathSet name) = _ :=
    split_file fun c hc => endsPath_encodeText hc
  refine accepted_of_plain h ?_
  rw [Spells, hurl, hsplit, split_pageUrl h]
  refine ⟨rfl, ?_, rfl⟩
  have hslash : '/' :: Percent.encodeText pathSet name = Percent.encodeText pathSet root.page := by
    rw [hpage]
    rfl
  rw [hslash]
  exact Percent.decode_encodeText (fun _ => pathSet_separates) _

/-- A target is taken for the page if its path names it, or if it misleads. -/
theorem matches_cases (h : Plain root.page) {target : List Char}
    (hmatches : urlMatchesMarker target (pageUrlMarker (pageUrl root)) = true) :
    Names target root.page ∨ Misleading root target := by
  have hpage : ∀ c ∈ root.page, endsPath c = false := fun c hc => (h.kept c hc).1
  refine (Classical.em (Names target root.page)).imp_right fun hnames => ⟨hnames, ?_⟩
  rcases (matches_iff root target).mp hmatches with hraw | hread
  · rcases (infix_text_iff hpage (split_ends target)).mp hraw with hbeside | hpath
    · exact .inl hbeside
    · exact absurd (names_of_within h hpath) hnames
  · exact .inr ((infix_text_iff hpage (percentDecode_ends (split_ends target))).mp hread)

theorem matches_of_misleading {target : List Char} (h : Misleading root target) :
    urlMatchesMarker target (pageUrlMarker (pageUrl root)) = true := by
  rw [matches_iff]
  rcases h.2 with hraw | hread | hpath
  · exact .inl (infix_of_beside hraw)
  · exact .inr (infix_of_beside hread)
  · exact .inr (infix_of_path hpath)

end Root

theorem not_found_of_misleading {root : ContentRoot} {target : List Char}
    (h : Misleading root target) : ¬Found root target := by
  rintro ⟨-, hrecognised⟩
  have hother : decoded (split target).path ≠ encode root.page := fun heq =>
    h.1 ⟨[], [], by rw [heq, List.nil_append, List.append_nil]⟩
  exact absurd (matches_of_misleading h) (by simp [hrecognised.refused hother h.1])

/-- A root and a target are told apart as they should be just when the page's name is
plain and the target does not mislead. -/
theorem page_found_iff (root : ContentRoot) (target : List Char) :
    Found root target ↔ Plain root.page ∧ ¬Misleading root target := by
  constructor
  · intro h
    exact ⟨(reached_iff root).mp h.1, fun hmisleading => not_found_of_misleading hmisleading h⟩
  · rintro ⟨hplain, hmisleading⟩
    refine ⟨(reached_iff root).mpr hplain, accepted_of_plain hplain, fun _ hnames => ?_⟩
    by_contra hmatches
    exact (matches_cases hplain (eq_true_of_ne_false hmatches)).elim hnames hmisleading

/-- The page of a directory with a number sign: the browser is sent to another file. -/
theorem sent_elsewhere :
    ¬∀ root : ContentRoot, Reached root ∧ ∀ target, Recognised root target := by
  intro h
  have hplain := (reached_iff ⟨"/walls #1".toList, by decide, by decide⟩).mp (h _).1
  exact absurd (hplain.kept '#' (by decide)).1 (by decide)

/-- No root is told apart from every target: the page's name may stand in a fragment. -/
theorem no_root_found (root : ContentRoot) : ∃ target, ¬Found root target := by
  refine ⟨"about:blank#".toList ++ root.page, not_found_of_misleading ⟨fun hnames => ?_, ?_⟩⟩
  · obtain ⟨name, hpage, -, -⟩ := page_eq root
    have hsplit : (split ("about:blank#".toList ++ root.page)).path = "blank".toList := rfl
    rw [Names, hsplit] at hnames
    have hslash : (0x2F : UInt8) ∈ encode root.page := by
      rw [hpage, encode_slash]
      exact List.mem_cons_self
    have hblank : (0x2F : UInt8) ∉ decoded "blank".toList := by decide
    exact hblank (hnames.subset hslash)
  · have hrest : (split ("about:blank#".toList ++ root.page)).rest = '#' :: root.page := rfl
    refine .inl (.inl ?_)
    rw [hrest]
    exact (List.suffix_cons _ _).isInfix

end Kwe.Web.PageUrl
