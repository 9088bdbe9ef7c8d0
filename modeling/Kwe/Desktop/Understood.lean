import Kwe.Desktop.Emulation
import Kwe.Foundation.Checks

/-!
The emulation and the scripts of the apply lane.

* `after_escaped`: where a marker that ends in a quote is found in a string
  literal;
* `scripts_understood_iff`: the scripts that are read as what they were written
  for, and the plugins that a text can name.
-/

namespace Kwe.Desktop

open Foundation Foundation.Search Foundation.Checks Kwe.Supervisor

/-! ## Escaping -/

/-- The characters of an escape sequence. -/
def escapeAlphabet : Text := "\\\"nru2089".toList

def Plain (c : Char) : Prop := escapeChar c = [c]

instance (c : Char) : Decidable (Plain c) := inferInstanceAs (Decidable (_ = _))

theorem plain_or_special (c : Char) :
    Plain c ∧ c ≠ '\\' ∧ c ≠ '"' ∨ escapeChar c ≠ [c] ∧ '\\' ∈ escapeChar c ∧
      (escapeChar c).all escapeAlphabet.contains = true := by
  unfold Plain escapeChar
  by_cases hbackslash : c = '\\'
  · subst hbackslash
    exact .inr (by decide)
  by_cases hquote : c = '"'
  · subst hquote
    exact .inr (by decide)
  by_cases hn : c = '\n'
  · subst hn
    exact .inr (by decide)
  by_cases hr : c = '\r'
  · subst hr
    exact .inr (by decide)
  by_cases hl : c = '\u2028'
  · subst hl
    exact .inr (by decide)
  by_cases hp : c = '\u2029'
  · subst hp
    exact .inr (by decide)
  exact .inl (by simp [hbackslash, hquote, hn, hr, hl, hp])

theorem escapeJsString_cons (c : Char) (v : Text) :
    escapeJsString (c :: v) = escapeChar c ++ escapeJsString v := List.flatMap_cons

theorem escapeJsString_append (v w : Text) :
    escapeJsString (v ++ w) = escapeJsString v ++ escapeJsString w := List.flatMap_append

theorem escapeJsString_plain {v : Text} (h : ∀ c ∈ v, Plain c) : escapeJsString v = v := by
  induction v with
  | nil => rfl
  | cons c v ih =>
    rw [escapeJsString_cons, h c List.mem_cons_self, ih fun d hd => h d (List.mem_cons_of_mem _ hd)]
    rfl

/-- An escaped text without a backslash is the text itself. -/
theorem escapeJsString_eq_self {v : Text} (h : '\\' ∉ escapeJsString v) : escapeJsString v = v := by
  refine escapeJsString_plain fun c hc => ?_
  rcases plain_or_special c with hplain | ⟨-, hspecial, -⟩
  · exact hplain.1
  · exact absurd (List.mem_flatMap.mpr ⟨c, hc, hspecial⟩) h

theorem quote_not_mem_escape {v : Text} (h : '"' ∉ v) : '"' ∉ escapeJsString v := by
  intro hmem
  obtain ⟨c, hc, hd⟩ := List.mem_flatMap.mp hmem
  have hne : c ≠ '"' := fun heq => h (heq ▸ hc)
  unfold escapeChar at hd
  rw [if_neg hne] at hd
  split_ifs at hd
  · revert hd
    decide
  · revert hd
    decide
  · revert hd
    decide
  · revert hd
    decide
  · revert hd
    decide
  · exact hne (List.mem_singleton.mp hd).symm

/-- **Suffixes.**  A marker of plain characters that begins like no escape
sequence ends an escaped text exactly when it ends the text. -/
theorem suffix_escape_iff {m v : Text} (hplain : ∀ c ∈ m, Plain c)
    (hhead : ∀ c ∈ m.head?, c ∉ escapeAlphabet) :
    m <:+ escapeJsString v ↔ m <:+ v := by
  constructor
  · intro h
    induction v with
    | nil => exact h
    | cons c v ih =>
      obtain ⟨x, hx⟩ := h
      rw [escapeJsString_cons] at hx
      rcases List.append_eq_append_iff.mp hx with ⟨t, ht, hm⟩ | ⟨t, -, ht⟩
      · cases t with
        | nil => exact (ih ⟨[], hm⟩).trans (List.suffix_cons c v)
        | cons d t =>
          have hd : d ∈ escapeChar c := ht ▸ List.mem_append_right _ List.mem_cons_self
          rcases plain_or_special c with ⟨hc, -, -⟩ | ⟨-, -, halphabet⟩
          · rw [hc] at ht
            obtain ⟨rfl, rfl, rfl⟩ : x = [] ∧ d = c ∧ t = [] := by
              cases x with
              | nil => simpa [eq_comm] using ht
              | cons a x => simp at ht
            have hbackslash : '\\' ∉ escapeJsString v := fun hmem =>
              absurd (hplain '\\' (hm ▸ List.mem_append_right _ hmem)) (by decide)
            rw [hm, escapeJsString_eq_self hbackslash]
            exact List.suffix_refl _
          · have hmem := List.contains_iff_mem.mp (List.all_eq_true.mp halphabet d hd)
            exact absurd hmem (hhead d (by simp [hm]))
      · exact (ih ⟨t, ht.symm⟩).trans (List.suffix_cons c v)
  · rintro ⟨x, rfl⟩
    rw [escapeJsString_append, escapeJsString_plain hplain]
    exact List.suffix_append _ _

/-! ## Literals -/

theorem untilQuote_escapeChar (c : Char) (text : Text) :
    untilQuote false (escapeChar c ++ text) =
      (untilQuote false text).map (escapeChar c ++ ·) := by
  unfold escapeChar
  split_ifs
  case neg =>
    rw [List.singleton_append, untilQuote, if_neg (by decide), if_neg ‹_›, if_neg ‹_›]
    rfl
  all_goals simp [untilQuote, Function.comp_def]

theorem untilQuote_append {text : Text} (hbackslash : '\\' ∉ text) (hquote : '"' ∉ text)
    (rest : Text) : untilQuote false (text ++ '"' :: rest) = some text := by
  induction text with
  | nil => rfl
  | cons c text ih =>
    simp only [List.mem_cons, not_or] at hbackslash hquote
    rw [List.cons_append, untilQuote, if_neg (by decide), if_neg (Ne.symm hbackslash.1),
      if_neg (Ne.symm hquote.1), ih hbackslash.2 hquote.2]
    rfl

theorem unescapeJs_escapeChar (c : Char) (text : Text) :
    unescapeJs (escapeChar c ++ text) = c :: unescapeJs text := by
  unfold escapeChar
  split_ifs with hbackslash hquote hn hr hl hp
  · simp [unescapeJs, unescapeEscape, hbackslash]
  · simp [unescapeJs, unescapeEscape, hquote]
  · simp [unescapeJs, unescapeEscape, hn]
  · simp [unescapeJs, unescapeEscape, hr]
  · have hcode : decodeCode ['2', '0', '2', '8'] = [c] := by
      rw [hl]
      decide
    simp [unescapeJs, unescapeEscape, unescapeCode, hcode]
  · have hcode : decodeCode ['2', '0', '2', '9'] = [c] := by
      rw [hp]
      decide
    simp [unescapeJs, unescapeEscape, unescapeCode, hcode]
  · simp [unescapeJs, hbackslash]

/-- Scanning stops at the quote after an escaped text. -/
theorem untilQuote_escaped (v rest : Text) :
    untilQuote false (escapeJsString v ++ '"' :: rest) = some (escapeJsString v) := by
  induction v with
  | nil => rfl
  | cons c v ih =>
    rw [escapeJsString_cons, List.append_assoc, untilQuote_escapeChar, ih]
    rfl

theorem unescapeJs_escape (v : Text) : unescapeJs (escapeJsString v) = v := by
  induction v with
  | nil => rfl
  | cons c v ih =>
    rw [escapeJsString_cons, unescapeJs_escapeChar, ih]

/-! ## Markers that end in a quote -/

theorem suffix_after_delimiter {q : Char} {m s v : Text} (hm : q ∉ m) :
    m <:+ s ++ q :: v ↔ m <:+ v := by
  constructor
  · rintro ⟨x, hx⟩
    rcases List.append_eq_append_iff.mp hx with ⟨t, -, ht⟩ | ⟨t, -, ht⟩
    · exact absurd (ht ▸ List.mem_append_right _ List.mem_cons_self) hm
    · cases t with
      | nil =>
        rw [List.nil_append] at ht
        exact absurd (ht ▸ List.mem_cons_self) hm
      | cons a t =>
        rw [List.cons_append, List.cons.injEq] at ht
        exact ⟨t, ht.2.symm⟩
  · exact fun h => h.trans ((List.suffix_cons q v).trans (List.suffix_append s _))

/-- **A marker in a literal.**  It is found there only at the closing quote,
when the text of the literal ends like the marker. -/
theorem after_escaped {m : Text} (hne : m ≠ []) (hplain : ∀ c ∈ m, Plain c)
    (hhead : ∀ c ∈ m.head?, c ∉ escapeAlphabet) (v rest : Text) :
    after (m ++ ['"']) (escapeJsString v ++ '"' :: rest) =
      if m <:+ v then some rest else after (m ++ ['"']) rest := by
  have hquote : '"' ∉ m := fun h => absurd (hplain _ h) (by decide)
  induction hn : v.length using Nat.strong_induction_on generalizing v with | _ n ih
  by_cases hv : '"' ∈ v
  · obtain ⟨s, w, rfl, hs⟩ := List.eq_append_cons_of_mem hv
    have hseg : '"' ∉ escapeJsString s ++ ['\\'] := by
      simpa using quote_not_mem_escape hs
    have hlast : ¬ m <:+ escapeJsString s ++ ['\\'] := fun h => by
      rcases List.suffix_concat_iff.mp h with h | ⟨t, ht, -⟩
      · exact hne h
      · exact absurd (hplain '\\' (by simp [ht])) (by decide)
    have hstep : after (m ++ ['"']) (escapeJsString s ++ ['\\'] ++
        '"' :: (escapeJsString w ++ '"' :: rest)) =
          after (m ++ ['"']) (escapeJsString w ++ '"' :: rest) := by
      rw [after_segment hquote hseg, if_neg fun h => hlast h.1]
    have hsplit : escapeJsString (s ++ '"' :: w) ++ '"' :: rest =
        escapeJsString s ++ ['\\'] ++ '"' :: (escapeJsString w ++ '"' :: rest) := by
      rw [escapeJsString_append, escapeJsString_cons]
      simp [show escapeChar '"' = ['\\', '"'] from rfl]
    have hshorter : w.length < n := by
      rw [← hn, List.length_append, List.length_cons]
      omega
    rw [hsplit, hstep, ih w.length hshorter w rfl]
    exact if_congr (suffix_after_delimiter hquote).symm rfl rfl
  · rw [after_segment hquote (quote_not_mem_escape hv)]
    simp only [List.nil_prefix, and_true, List.length_nil, List.drop_zero]
    refine if_congr (suffix_escape_iff hplain hhead) rfl rfl

/-! ## Identities and numbers -/

theorem identityPart_of_ok {name value : String} (h : validateIdentityPart name value = .ok ()) :
    identityPart value = true := by
  unfold validateIdentityPart at h
  split at h
  next hpart => exact hpart
  next => cases h

theorem identityPart_iff (value : String) :
    identityPart value = true ↔
      value ≠ "" ∧ value.utf8ByteSize ≤ 128 ∧ ∀ c ∈ value.toList, identityChar c = true := by
  simp [identityPart, and_assoc]

theorem identity_toList {name value : String} (h : validateIdentityPart name value = .ok ()) :
    value.toList ≠ [] ∧ ∀ c ∈ value.toList, identityChar c = true := by
  obtain ⟨hne, -, hall⟩ := (identityPart_iff value).mp (identityPart_of_ok h)
  exact ⟨fun hempty => hne (String.toList_eq_nil_iff.mp hempty), hall⟩

theorem not_mem_identity {name value : String} (h : validateIdentityPart name value = .ok ())
    {c : Char} (hc : identityChar c = false) : c ∉ value.toList := fun hmem => by
  have hall := (identity_toList h).2 c hmem
  rw [hc] at hall
  cases hall

theorem not_mem_decimal {c : Char} (hc : c.isDigit = false) (n : Nat) : c ∉ decimal n := fun h => by
  rw [Nat.isDigit_of_mem_toDigits (by decide) (by decide) h] at hc
  cases hc

theorem decimal_ne_nil (n : Nat) : decimal n ≠ [] := Nat.toDigits_ne_nil

theorem parseUsize_decimal (i : DesktopIndex) : parseUsize (decimal i) = some i.val := by
  have hplus : unsigned (decimal i) = decimal i := by
    unfold unsigned
    split
    next digits h => exact absurd (h ▸ List.mem_cons_self) (not_mem_decimal (by decide) i)
    next => rfl
  have hall : (decimal i).all Char.isDigit = true :=
    List.all_eq_true.mpr fun d hd => Nat.isDigit_of_mem_toDigits (by decide) (by decide) hd
  have hvalue : Nat.ofDigitChars 10 (decimal i) 0 = i :=
    Nat.ofDigitChars_toDigits (by decide) (by decide)
  unfold parseUsize
  rw [hplus, if_pos ⟨decimal_ne_nil i, hall⟩, hvalue]
  exact if_pos i.isLt

/-! ## The index -/

theorem indexText_eq (i : DesktopIndex) (rest : Text) :
    indexText ("var d = desktops()[".toList ++ (decimal i ++ ']' :: rest)) = .ok (decimal i) := by
  have hfound : after "desktops()[".toList
      ("var d = desktops()[".toList ++ (decimal i ++ ']' :: rest)) =
        some (decimal i ++ ']' :: rest) := by
    have hmark : "desktops".toList <:+ "var d = desktops".toList := by decide
    rw [show "var d = desktops()[".toList = "var d = desktops".toList ++ '(' :: ")[".toList
      by decide, show "desktops()[".toList = "desktops".toList ++ '(' :: ")[".toList by decide,
      List.append_assoc, List.cons_append, after_segment (by decide) (by decide),
      if_pos ⟨hmark, List.prefix_append _ _⟩, List.drop_left]
  have htake : (decimal i ++ ']' :: rest).takeWhile (· ≠ ']') = decimal i := by
    rw [List.takeWhile_append_of_pos, List.takeWhile_cons_of_neg, List.append_nil]
    · simp
    · intro c hc
      have hne : c ≠ ']' := fun h => not_mem_decimal (by decide) i (h ▸ hc)
      simpa using hne
  unfold indexText
  rw [hfound]
  dsimp only
  rw [if_pos (by simp), htake]

/-! ## The marker of the plugin -/

/-- The marker of the plugin, up to its quote. -/
def pluginMark : Text := "wallpaperPlugin = ".toList

theorem pluginMark_plain : ∀ c ∈ pluginMark, Plain c := by
  have hall : pluginMark.all (fun c => decide (Plain c)) = true := by decide
  exact fun c hc => of_decide_eq_true (List.all_eq_true.mp hall c hc)

theorem pluginMark_head : ∀ c ∈ pluginMark.head?, c ∉ escapeAlphabet := by
  intro c hc
  rw [show pluginMark.head? = some 'w' by decide] at hc
  obtain rfl := Option.some.inj hc
  decide

theorem skip_quote {seg : Text} (hseg : '"' ∉ seg) (hmark : ¬ pluginMark <:+ seg) (rest : Text) :
    after (pluginMark ++ ['"']) (seg ++ '"' :: rest) = after (pluginMark ++ ['"']) rest :=
  (after_segment (by decide) hseg).trans (if_neg fun h => hmark h.1)

theorem find_quote {seg : Text} (hseg : '"' ∉ seg) (hmark : pluginMark <:+ seg) (rest : Text) :
    after (pluginMark ++ ['"']) (seg ++ '"' :: rest) = some rest :=
  (after_segment (by decide) hseg).trans (if_pos ⟨hmark, List.nil_prefix⟩)

/-- A text that ends in none of the characters of the mark does not end in the
mark. -/
theorem not_mark_suffix {x d : Text} (hd : d ≠ []) (hspace : ' ' ∉ d) :
    ¬ pluginMark <:+ x ++ d := by
  intro h
  have hmark : pluginMark = "wallpaperPlugin =".toList ++ [' '] := by decide
  obtain ⟨d, b, rfl⟩ := List.eq_nil_or_concat d |>.resolve_left hd
  rw [hmark, List.concat_eq_append, ← List.append_assoc] at h
  rcases List.suffix_concat_iff.mp h with h | ⟨t, ht, -⟩
  · exact absurd h (by decide)
  · have hb : ' ' = b := by simpa using congrArg List.getLast? ht
    exact hspace (hb ▸ by simp)

theorem not_mark_suffix_append {x b : Text} (hb : ¬ pluginMark <:+ b) (hb' : ¬ b <:+ pluginMark) :
    ¬ pluginMark <:+ x ++ b := fun h =>
  (List.suffix_or_suffix_of_suffix h (List.suffix_append x b)).elim hb hb'

theorem groupText_cons {part : String} {parts : List String} {g : Text}
    (h : groupText (part :: parts) = .ok g) :
    validateIdentityPart "config_group" part = .ok () ∧ ∃ rest, groupText parts = .ok rest ∧
      g = if parts = [] then quoted part.toList else quoted part.toList ++ ", ".toList ++ rest := by
  rw [groupText] at h
  obtain ⟨⟨⟩, hpart, h⟩ := bind_ok h
  obtain ⟨rest, hrest, h⟩ := bind_ok h
  exact ⟨hpart, rest, hrest, (Except.ok.inj h).symm⟩

theorem groupText_chars {parts : List String} {g : Text} (h : groupText parts = .ok g) :
    ∀ c ∈ g, identityChar c = true ∨ c ∈ "\", ".toList := by
  induction parts generalizing g with
  | nil =>
    obtain rfl := Except.ok.inj h
    intro c hc
    cases hc
  | cons part parts ih =>
    obtain ⟨hpart, rest, hrest, rfl⟩ := groupText_cons h
    have hquoted : ∀ c ∈ quoted part.toList, identityChar c = true ∨ c ∈ "\", ".toList := by
      intro c hc
      simp only [quoted, List.mem_cons, List.mem_append, List.not_mem_nil, or_false] at hc
      rcases hc with (rfl | hc) | rfl
      · exact .inr (by decide)
      · exact .inl ((identity_toList hpart).2 c hc)
      · exact .inr (by decide)
    intro c hc
    split at hc
    next => exact hquoted c hc
    next =>
      rcases List.mem_append.mp hc with hc | hc
      · rcases List.mem_append.mp hc with hc | hc
        · exact hquoted c hc
        · exact .inr (List.mem_cons_of_mem _ hc)
      · exact ih hrest c hc

/-- The marker is not found among the members of a config group. -/
theorem skip_group {parts : List String} {g : Text} (h : groupText parts = .ok g)
    (hne : parts ≠ []) {seg : Text} (hseg : '"' ∉ seg) (hmark : ¬ pluginMark <:+ seg)
    (tail : Text) :
    after (pluginMark ++ ['"']) (seg ++ (g ++ tail)) = after (pluginMark ++ ['"']) tail := by
  induction parts generalizing g seg with
  | nil => exact absurd rfl hne
  | cons part parts ih =>
    obtain ⟨hpart, rest, hrest, rfl⟩ := groupText_cons h
    have hquote : '"' ∉ part.toList := not_mem_identity hpart (by decide)
    have hspace : ¬ pluginMark <:+ part.toList := fun h =>
      not_mem_identity hpart (by decide) (h.subset (show ' ' ∈ pluginMark by decide))
    have hskip : ∀ tail, after (pluginMark ++ ['"']) (seg ++ (quoted part.toList ++ tail)) =
        after (pluginMark ++ ['"']) tail := fun tail => by
      have hsplit : seg ++ (quoted part.toList ++ tail) =
          seg ++ '"' :: (part.toList ++ '"' :: tail) := by simp [quoted]
      rw [hsplit, skip_quote hseg hmark, skip_quote hquote hspace]
    by_cases hlast : parts = []
    · rw [if_pos hlast, hskip]
    · rw [if_neg hlast, List.append_assoc, List.append_assoc, hskip,
        ih hrest hlast (by decide) (by decide)]

/-! ## Reading a switch -/

/-- What is read of a script with this index whose plugin comes after `found`. -/
theorem parseSwitchScript_eq {i : DesktopIndex} {rest found script : Text}
    (hscript : script = "var d = desktops()[".toList ++ (decimal i ++ ']' :: rest))
    (hfound : after (pluginMark ++ ['"']) script = some found) :
    parseSwitchScript script =
      match untilQuote false found with
      | none => reject "no plugin"
      | some plugin =>
        if plugin = [] ∨ ¬ plugin.all identityChar then reject "plugin is not an identity"
        else
          .ok {
            desktopIndex := i
            plugin := String.ofList plugin
            touchesImage := (after "currentConfigGroup = [".toList script).isSome
            image := (quotedAfter script "writeConfig(\"Image\", \"".toList).map fun image =>
              String.ofList (unescapeJs image) } := by
  have hindex : indexText script = .ok (decimal i) := hscript ▸ indexText_eq i rest
  have hplugin : quotedAfter script "wallpaperPlugin = \"".toList = untilQuote false found := by
    rw [quotedAfter, show "wallpaperPlugin = \"".toList = pluginMark ++ ['"'] by decide, hfound]
    rfl
  unfold parseSwitchScript
  rw [hindex, ok_bind, parseUsize_decimal]
  cases huntil : untilQuote false found <;> simp only [hplugin, huntil]

theorem parseSwitchScript_identity {i : DesktopIndex} {rest found script plugin : Text}
    (hne : plugin ≠ []) (hall : ∀ c ∈ plugin, identityChar c = true)
    (hscript : script = "var d = desktops()[".toList ++ (decimal i ++ ']' :: rest))
    (hfound : after (pluginMark ++ ['"']) script = some (plugin ++ '"' :: found)) :
    parseSwitchScript script =
      .ok {
        desktopIndex := i
        plugin := String.ofList plugin
        touchesImage := (after "currentConfigGroup = [".toList script).isSome
        image := (quotedAfter script "writeConfig(\"Image\", \"".toList).map fun image =>
          String.ofList (unescapeJs image) } := by
  have hgood : ¬ (plugin = [] ∨ ¬ plugin.all identityChar) := by
    rintro (hempty | hbad)
    · exact hne hempty
    · exact hbad (List.all_eq_true.mpr hall)
  have hout : ∀ {c : Char}, identityChar c = false → c ∉ plugin := fun hc hmem => by
    rw [hall _ hmem] at hc
    cases hc
  rw [parseSwitchScript_eq hscript hfound, untilQuote_append (hout (by decide)) (hout (by decide))]
  dsimp only
  rw [if_neg hgood]

/-! ## The apply script -/

theorem applyScript_ok {i : DesktopIndex} {plugin : String} {script : Text}
    (h : applyScript i plugin = .ok script) :
    validateIdentityPart "wallpaper_plugin" plugin = .ok () ∧ script = applyText i plugin.toList := by
  unfold applyScript at h
  obtain ⟨⟨⟩, hvalid, h⟩ := bind_ok h
  exact ⟨hvalid, (Except.ok.inj h).symm⟩

theorem applyText_eq (i : Nat) (plugin : Text) :
    applyText i plugin = "var d = desktops()[".toList ++ (decimal i ++
      ']' :: ("; if (!d) throw ".toList ++ quoted ("no desktop ".toList ++ decimal i) ++
        "; d.wallpaperPlugin = ".toList ++ quoted plugin ++ [';'])) := by
  unfold applyText
  rw [show "]; if (!d) throw ".toList = [']'] ++ "; if (!d) throw ".toList by decide]
  generalize "var d = desktops()[".toList = a, "; if (!d) throw ".toList = b,
    "no desktop ".toList = c, "; d.wallpaperPlugin = ".toList = d
  simp

theorem after_plugin_applyText (i : Nat) (plugin : Text) :
    after (pluginMark ++ ['"']) (applyText i plugin) = some (plugin ++ '"' :: [';']) := by
  have hsplit : applyText i plugin =
      ("var d = desktops()[".toList ++ decimal i ++ "]; if (!d) throw ".toList) ++
        '"' :: (("no desktop ".toList ++ decimal i) ++
          '"' :: ("; d.wallpaperPlugin = ".toList ++ '"' :: (plugin ++ '"' :: [';']))) := by
    unfold applyText
    generalize "var d = desktops()[".toList = a, "]; if (!d) throw ".toList = b,
      "no desktop ".toList = c, "; d.wallpaperPlugin = ".toList = d
    simp [quoted]
  have hquote := not_mem_decimal (c := '"') (by decide) i
  have hhead : '"' ∉ "var d = desktops()[".toList ++ decimal i ++ "]; if (!d) throw ".toList := by
    simp only [List.mem_append, hquote, or_false]
    decide
  have hnumber : '"' ∉ "no desktop ".toList ++ decimal i := by
    simp only [List.mem_append, hquote, or_false]
    decide
  rw [hsplit, skip_quote hhead (not_mark_suffix_append (by decide) (by decide)),
    skip_quote hnumber (not_mark_suffix (decimal_ne_nil i) (not_mem_decimal (by decide) i)),
    find_quote (by decide) (by decide)]

/-- The markers of a restore script are not in an apply script. -/
theorem after_restore_applyText (i : Nat) {plugin : Text}
    (hplugin : ∀ c ∈ plugin, identityChar c = true) :
    after "currentConfigGroup = [".toList (applyText i plugin) = none ∧
      after "writeConfig(\"Image\", \"".toList (applyText i plugin) = none := by
  have hbracket : '[' ∉ decimal i := not_mem_decimal (by decide) i
  have hparen : '(' ∉ decimal i := not_mem_decimal (by decide) i
  have hbracket' : '[' ∉ plugin := fun h => absurd (hplugin _ h) (by decide)
  have hparen' : '(' ∉ plugin := fun h => absurd (hplugin _ h) (by decide)
  constructor
  · have hsplit : applyText i plugin = "var d = desktops()".toList ++ '[' :: (decimal i ++
        "]; if (!d) throw ".toList ++ quoted ("no desktop ".toList ++ decimal i) ++
        "; d.wallpaperPlugin = ".toList ++ quoted plugin ++ [';']) := by
      unfold applyText
      rw [show "var d = desktops()[".toList = "var d = desktops()".toList ++ ['['] by decide]
      generalize "var d = desktops()".toList = a, "]; if (!d) throw ".toList = b,
        "no desktop ".toList = c, "; d.wallpaperPlugin = ".toList = d
      simp
    have hmark : ¬ "currentConfigGroup = ".toList <:+ "var d = desktops()".toList := by decide
    have hrest : '[' ∉ decimal i ++ "]; if (!d) throw ".toList ++
        quoted ("no desktop ".toList ++ decimal i) ++ "; d.wallpaperPlugin = ".toList ++
        quoted plugin ++ [';'] := by
      simp only [quoted, List.mem_append, List.mem_cons, hbracket, hbracket', List.not_mem_nil]
      decide
    rw [hsplit, show "currentConfigGroup = [".toList = "currentConfigGroup = ".toList ++ '[' :: []
      by decide, after_segment (by decide) (by decide), if_neg (fun h => hmark h.1)]
    exact after_eq_none (by decide) hrest
  · have hsplit : applyText i plugin = "var d = desktops".toList ++ '(' :: ((")[".toList ++
        decimal i ++ "]; if ".toList) ++ '(' :: ("!d) throw ".toList ++
        quoted ("no desktop ".toList ++ decimal i) ++ "; d.wallpaperPlugin = ".toList ++
        quoted plugin ++ [';'])) := by
      unfold applyText
      rw [show "var d = desktops()[".toList = "var d = desktops".toList ++ ['('] ++ ")[".toList
          by decide,
        show "]; if (!d) throw ".toList = "]; if ".toList ++ ['('] ++ "!d) throw ".toList by decide]
      generalize "var d = desktops".toList = a, ")[".toList = b, "]; if ".toList = c,
        "!d) throw ".toList = d, "no desktop ".toList = e, "; d.wallpaperPlugin = ".toList = f
      simp
    have hfirst : ¬ "writeConfig".toList <:+ "var d = desktops".toList := by decide
    have hsecond : ¬ "writeConfig".toList <:+ ")[".toList ++ decimal i ++ "]; if ".toList :=
      fun h => (List.suffix_or_suffix_of_suffix h (List.suffix_append _ "]; if ".toList)).elim
        (by decide) (by decide)
    have hseg : '(' ∉ ")[".toList ++ decimal i ++ "]; if ".toList := by
      simp only [List.mem_append, hparen, or_false]
      decide
    have hrest : '(' ∉ "!d) throw ".toList ++ quoted ("no desktop ".toList ++ decimal i) ++
        "; d.wallpaperPlugin = ".toList ++ quoted plugin ++ [';'] := by
      simp only [quoted, List.mem_append, List.mem_cons, hparen, hparen', List.not_mem_nil]
      decide
    rw [hsplit, show "writeConfig(\"Image\", \"".toList = "writeConfig".toList ++
      '(' :: "\"Image\", \"".toList by decide, after_segment (by decide) (by decide),
      if_neg (fun h => hfirst h.1), after_segment (by decide) hseg, if_neg (fun h => hsecond h.1)]
    exact after_eq_none (by decide) hrest

theorem parse_applyText (i : DesktopIndex) {plugin : Text} (hne : plugin ≠ [])
    (hall : ∀ c ∈ plugin, identityChar c = true) :
    parseSwitchScript (applyText i plugin) = .ok ⟨i, String.ofList plugin, false, none⟩ := by
  obtain ⟨hgroup, himage⟩ := after_restore_applyText i hall
  rw [parseSwitchScript_identity hne hall (applyText_eq i plugin)
    (after_plugin_applyText i plugin), hgroup, quotedAfter, himage]
  rfl

/-! ## The restore script -/

theorem restoreScript_ok {i : DesktopIndex} {plugin : String} {configGroup : List String}
    {image : Option String} {script : Text}
    (h : restoreScript i plugin configGroup image = .ok script) :
    validateIdentityPart "wallpaper_plugin" plugin = .ok () ∧ configGroup ≠ [] ∧
      ∃ group line, groupText configGroup = .ok group ∧ imageText image = .ok line ∧
        script = restoreText i plugin.toList group line := by
  unfold restoreScript at h
  obtain ⟨⟨⟩, hvalid, h⟩ := bind_ok h
  obtain ⟨hgroup, h⟩ := check_ok h
  obtain ⟨group, hg, h⟩ := bind_ok h
  obtain ⟨line, hline, h⟩ := bind_ok h
  exact ⟨hvalid, fun hne => hgroup (.inl hne), group, line, hg, hline, (Except.ok.inj h).symm⟩

theorem restoreText_eq (i : Nat) (plugin group line : Text) :
    restoreText i plugin group line = "var d = desktops()[".toList ++ (decimal i ++
      ']' :: (";\nif (!d) throw ".toList ++ quoted ("no desktop ".toList ++ decimal i) ++
        ";\nd.currentConfigGroup = [".toList ++ group ++ "];\n".toList ++ line ++
        "d.wallpaperPlugin = ".toList ++ quoted plugin ++ [';'])) := by
  unfold restoreText
  rw [show "];\nif (!d) throw ".toList = [']'] ++ ";\nif (!d) throw ".toList by decide]
  generalize "var d = desktops()[".toList = a, ";\nif (!d) throw ".toList = b,
    "no desktop ".toList = c, ";\nd.currentConfigGroup = [".toList = d, "];\n".toList = e,
    "d.wallpaperPlugin = ".toList = f
  simp

/-- The line that writes an image. -/
def imageLine (image : Text) : Text :=
  "d.writeConfig(".toList ++ quoted "Image".toList ++ ", ".toList ++
    quoted (escapeJsString image) ++ ");\n".toList

theorem imageText_ok {image : Option String} {line : Text} (h : imageText image = .ok line) :
    image = none ∧ line = [] ∨ ∃ path, image = some path ∧ line = imageLine path.toList := by
  cases image with
  | none => exact .inl ⟨rfl, (Except.ok.inj h).symm⟩
  | some path =>
    obtain ⟨-, h⟩ := check_ok h
    exact .inr ⟨path, rfl, (Except.ok.inj h).symm⟩

/-- Up to its config group, a restore script does not have the marker of the
plugin. -/
theorem after_plugin_restoreText {i : Nat} {parts : List String} {plugin group line : Text}
    (hgroup : groupText parts = .ok group) (hne : parts ≠ []) :
    after (pluginMark ++ ['"']) (restoreText i plugin group line) =
      after (pluginMark ++ ['"'])
        ("];\n".toList ++ line ++ "d.wallpaperPlugin = ".toList ++ quoted plugin ++ [';']) := by
  have hsplit : restoreText i plugin group line =
      ("var d = desktops()[".toList ++ decimal i ++ "];\nif (!d) throw ".toList) ++
        '"' :: (("no desktop ".toList ++ decimal i) ++
          '"' :: (";\nd.currentConfigGroup = [".toList ++ (group ++ ("];\n".toList ++ line ++
            "d.wallpaperPlugin = ".toList ++ quoted plugin ++ [';'])))) := by
    unfold restoreText
    generalize "var d = desktops()[".toList = a, "];\nif (!d) throw ".toList = b,
      "no desktop ".toList = c, ";\nd.currentConfigGroup = [".toList = d, "];\n".toList = e,
      "d.wallpaperPlugin = ".toList = f
    simp [quoted]
  have hquote := not_mem_decimal (c := '"') (by decide) i
  have hhead : '"' ∉ "var d = desktops()[".toList ++ decimal i ++
      "];\nif (!d) throw ".toList := by
    simp only [List.mem_append, hquote, or_false]
    decide
  have hnumber : '"' ∉ "no desktop ".toList ++ decimal i := by
    simp only [List.mem_append, hquote, or_false]
    decide
  rw [hsplit, skip_quote hhead (not_mark_suffix_append (by decide) (by decide)),
    skip_quote hnumber (not_mark_suffix (decimal_ne_nil i) (not_mem_decimal (by decide) i)),
    skip_group hgroup hne (by decide) (by decide)]

theorem find_plugin {line : Text} (hquote : '"' ∉ line) (plugin : Text) :
    after (pluginMark ++ ['"'])
      (line ++ "d.wallpaperPlugin = ".toList ++ quoted plugin ++ [';']) =
        some (plugin ++ '"' :: [';']) := by
  have hsplit : line ++ "d.wallpaperPlugin = ".toList ++ quoted plugin ++ [';'] =
      (line ++ "d.wallpaperPlugin = ".toList) ++ '"' :: (plugin ++ '"' :: [';']) := by
    generalize "d.wallpaperPlugin = ".toList = a
    simp [quoted]
  have hseg : '"' ∉ line ++ "d.wallpaperPlugin = ".toList := by
    simp only [List.mem_append, hquote, false_or]
    decide
  have hmark : pluginMark <:+ "d.wallpaperPlugin = ".toList := by decide
  rw [hsplit, find_quote hseg (hmark.trans (List.suffix_append _ _))]

/-- **The image and the marker.**  An image that ends like the marker of the
plugin hides the plugin. -/
theorem after_plugin_imageLine (image plugin : Text) :
    after (pluginMark ++ ['"']) ("];\n".toList ++ imageLine image ++
      "d.wallpaperPlugin = ".toList ++ quoted plugin ++ [';']) =
        if pluginMark <:+ image then
          some (");\nd.wallpaperPlugin = ".toList ++ '"' :: (plugin ++ '"' :: [';']))
        else some (plugin ++ '"' :: [';']) := by
  have hsplit : "];\n".toList ++ imageLine image ++ "d.wallpaperPlugin = ".toList ++
      quoted plugin ++ [';'] =
      "];\nd.writeConfig(".toList ++ '"' :: ("Image".toList ++ '"' :: (", ".toList ++ '"' ::
        (escapeJsString image ++ '"' :: (");\n".toList ++ "d.wallpaperPlugin = ".toList ++
          quoted plugin ++ [';'])))) := by
    unfold imageLine
    rw [show "];\nd.writeConfig(".toList = "];\n".toList ++ "d.writeConfig(".toList by decide]
    generalize "];\n".toList = a, "d.writeConfig(".toList = b, "Image".toList = c,
      ", ".toList = d, ");\n".toList = e, "d.wallpaperPlugin = ".toList = f
    simp [quoted]
  rw [hsplit, skip_quote (by decide) (by decide), skip_quote (by decide) (by decide),
    skip_quote (by decide) (by decide), after_escaped (by decide) pluginMark_plain pluginMark_head,
    find_plugin (by decide)]
  refine if_congr Iff.rfl (congrArg some ?_) rfl
  rw [show ");\nd.wallpaperPlugin = ".toList = ");\n".toList ++ "d.wallpaperPlugin = ".toList
    by decide]
  generalize ");\n".toList = a, "d.wallpaperPlugin = ".toList = b
  simp [quoted]

theorem after_group_restoreText (i : Nat) (plugin group line : Text) :
    (after "currentConfigGroup = [".toList (restoreText i plugin group line)).isSome = true := by
  have hsplit : restoreText i plugin group line = "var d = desktops()".toList ++ '[' ::
      ((decimal i ++ "];\nif (!d) throw ".toList ++ quoted ("no desktop ".toList ++ decimal i) ++
        ";\nd.currentConfigGroup = ".toList) ++ '[' :: (group ++ "];\n".toList ++ line ++
        "d.wallpaperPlugin = ".toList ++ quoted plugin ++ [';'])) := by
    unfold restoreText
    rw [show "var d = desktops()[".toList = "var d = desktops()".toList ++ ['['] by decide,
      show ";\nd.currentConfigGroup = [".toList = ";\nd.currentConfigGroup = ".toList ++ ['[']
        by decide]
    generalize "var d = desktops()".toList = a, "];\nif (!d) throw ".toList = b,
      "no desktop ".toList = c, ";\nd.currentConfigGroup = ".toList = d, "];\n".toList = e,
      "d.wallpaperPlugin = ".toList = f
    simp
  have hdigits := not_mem_decimal (c := '[') (by decide) i
  have hseg : '[' ∉ decimal i ++ "];\nif (!d) throw ".toList ++
      quoted ("no desktop ".toList ++ decimal i) ++ ";\nd.currentConfigGroup = ".toList := by
    simp only [quoted, List.mem_append, List.mem_cons, hdigits, List.not_mem_nil]
    decide
  have hfirst : ¬ "currentConfigGroup = ".toList <:+ "var d = desktops()".toList := by decide
  have hmark : "currentConfigGroup = ".toList <:+ ";\nd.currentConfigGroup = ".toList := by decide
  rw [hsplit, show "currentConfigGroup = [".toList = "currentConfigGroup = ".toList ++ '[' :: []
    by decide, after_segment (by decide) (by decide), if_neg (fun h => hfirst h.1),
    after_segment (by decide) hseg,
    if_pos ⟨hmark.trans (List.suffix_append _ _), List.nil_prefix⟩]
  rfl

/-- Up to its config group, a restore script does not have the marker of the
image. -/
theorem after_image_restoreText (i : Nat) (plugin group line : Text) :
    after "writeConfig(\"Image\", \"".toList (restoreText i plugin group line) =
      after "writeConfig(\"Image\", \"".toList
        ("!d) throw ".toList ++ quoted ("no desktop ".toList ++ decimal i) ++
          ";\nd.currentConfigGroup = [".toList ++ group ++ "];\n".toList ++ line ++
          "d.wallpaperPlugin = ".toList ++ quoted plugin ++ [';']) := by
  have hsplit : restoreText i plugin group line = "var d = desktops".toList ++ '(' ::
      ((")[".toList ++ decimal i ++ "];\nif ".toList) ++ '(' :: ("!d) throw ".toList ++
        quoted ("no desktop ".toList ++ decimal i) ++
        ";\nd.currentConfigGroup = [".toList ++ group ++ "];\n".toList ++ line ++
        "d.wallpaperPlugin = ".toList ++ quoted plugin ++ [';'])) := by
    unfold restoreText
    rw [show "var d = desktops()[".toList = "var d = desktops".toList ++ ['('] ++ ")[".toList
        by decide,
      show "];\nif (!d) throw ".toList = "];\nif ".toList ++ ['('] ++ "!d) throw ".toList by decide]
    generalize "var d = desktops".toList = a, ")[".toList = b, "];\nif ".toList = c,
      "!d) throw ".toList = d, "no desktop ".toList = e, ";\nd.currentConfigGroup = [".toList = f,
      "];\n".toList = g, "d.wallpaperPlugin = ".toList = k
    simp
  have hdigits := not_mem_decimal (c := '(') (by decide) i
  have hseg : '(' ∉ ")[".toList ++ decimal i ++ "];\nif ".toList := by
    simp only [List.mem_append, hdigits, or_false]
    decide
  have hfirst : ¬ "writeConfig".toList <:+ "var d = desktops".toList := by decide
  have hsecond : ¬ "writeConfig".toList <:+ ")[".toList ++ decimal i ++ "];\nif ".toList :=
    fun h => (List.suffix_or_suffix_of_suffix h (List.suffix_append _ "];\nif ".toList)).elim
      (by decide) (by decide)
  rw [hsplit, show "writeConfig(\"Image\", \"".toList = "writeConfig".toList ++
    '(' :: "\"Image\", \"".toList by decide, after_segment (by decide) (by decide),
    if_neg (fun h => hfirst h.1), after_segment (by decide) hseg, if_neg (fun h => hsecond h.1)]

/-- The image that is read of a restore script. -/
theorem image_restoreText {i : Nat} {parts : List String} {plugin group line : Text}
    {image : Option String} (hgroup : groupText parts = .ok group)
    (himage : imageText image = .ok line) (hplugin : ∀ c ∈ plugin, identityChar c = true) :
    (quotedAfter (restoreText i plugin group line) "writeConfig(\"Image\", \"".toList).map
      (fun image => String.ofList (unescapeJs image)) = image := by
  have hdigits := not_mem_decimal (c := '(') (by decide) i
  have hparen : '(' ∉ group := fun h => by
    rcases groupText_chars hgroup _ h with h | h
    · exact absurd h (by decide)
    · exact absurd h (by decide)
  have hparen' : '(' ∉ plugin := fun h => absurd (hplugin _ h) (by decide)
  rw [quotedAfter, after_image_restoreText]
  rcases imageText_ok himage with ⟨rfl, rfl⟩ | ⟨path, rfl, rfl⟩
  · have hrest : '(' ∉ "!d) throw ".toList ++ quoted ("no desktop ".toList ++ decimal i) ++
        ";\nd.currentConfigGroup = [".toList ++ group ++ "];\n".toList ++ [] ++
        "d.wallpaperPlugin = ".toList ++ quoted plugin ++ [';'] := by
      simp only [quoted, List.mem_append, List.mem_cons, hdigits, hparen, hparen',
        List.not_mem_nil]
      decide
    rw [after_eq_none (by decide) hrest]
    rfl
  · have hsplit : "!d) throw ".toList ++ quoted ("no desktop ".toList ++ decimal i) ++
        ";\nd.currentConfigGroup = [".toList ++ group ++ "];\n".toList ++ imageLine path.toList ++
        "d.wallpaperPlugin = ".toList ++ quoted plugin ++ [';'] =
        ("!d) throw ".toList ++ quoted ("no desktop ".toList ++ decimal i) ++
          ";\nd.currentConfigGroup = [".toList ++ group ++ "];\n".toList ++
          "d.writeConfig".toList) ++ '(' :: ("\"Image\", \"".toList ++
          (escapeJsString path.toList ++ '"' :: (");\n".toList ++ "d.wallpaperPlugin = ".toList ++
            quoted plugin ++ [';']))) := by
      unfold imageLine
      rw [show "d.writeConfig(".toList = "d.writeConfig".toList ++ ['('] by decide,
        show "\"Image\", \"".toList = ['"'] ++ "Image".toList ++ ['"'] ++ ", ".toList ++ ['"']
          by decide]
      generalize "!d) throw ".toList = a, "no desktop ".toList = b,
        ";\nd.currentConfigGroup = [".toList = c, "];\n".toList = d, "d.writeConfig".toList = e,
        "Image".toList = f, ", ".toList = g, ");\n".toList = k, "d.wallpaperPlugin = ".toList = l
      simp [quoted]
    have hseg : '(' ∉ "!d) throw ".toList ++ quoted ("no desktop ".toList ++ decimal i) ++
        ";\nd.currentConfigGroup = [".toList ++ group ++ "];\n".toList ++
        "d.writeConfig".toList := by
      simp only [quoted, List.mem_append, List.mem_cons, hdigits, hparen, List.not_mem_nil]
      decide
    have hmark : "writeConfig".toList <:+ "d.writeConfig".toList := by decide
    rw [hsplit, show "writeConfig(\"Image\", \"".toList = "writeConfig".toList ++
      '(' :: "\"Image\", \"".toList by decide, after_segment (by decide) hseg,
      if_pos ⟨hmark.trans (List.suffix_append _ _), List.prefix_append _ _⟩, List.drop_left,
      Option.bind_some, untilQuote_escaped, Option.map_some, unescapeJs_escape,
      String.ofList_toList]

/-! ## What is understood -/

/-- The scripts that are read as what they were written for. -/
theorem parse_restoreScript_iff {i : DesktopIndex} {plugin : String} {configGroup : List String}
    {image : Option String} {script : Text}
    (h : restoreScript i plugin configGroup image = .ok script) :
    parseSwitchScript script = .ok ⟨i, plugin, true, image⟩ ↔
      ∀ path ∈ image, ¬ pluginMark <:+ path.toList := by
  obtain ⟨hvalid, hne, group, line, hgroup, hline, rfl⟩ := restoreScript_ok h
  have hscript := restoreText_eq i plugin.toList group line
  obtain ⟨hempty, hidentity⟩ := identity_toList hvalid
  rcases imageText_ok hline with ⟨rfl, rfl⟩ | ⟨path, rfl, rfl⟩
  · refine iff_of_true ?_ (by simp)
    rw [parseSwitchScript_identity hempty hidentity hscript
        ((after_plugin_restoreText hgroup hne).trans (find_plugin (by decide) _)),
      after_group_restoreText, image_restoreText hgroup hline hidentity, String.ofList_toList]
  · have hfound := (after_plugin_restoreText (i := i) hgroup hne).trans
      (after_plugin_imageLine path.toList plugin.toList)
    by_cases hmark : pluginMark <:+ path.toList
    · rw [if_pos hmark] at hfound
      refine iff_of_false (fun h => ?_) (by simpa using hmark)
      rw [parseSwitchScript_eq hscript hfound, untilQuote_append (by decide) (by decide)] at h
      have hbad : ¬ ");\nd.wallpaperPlugin = ".toList.all identityChar := by decide
      dsimp only at h
      rw [if_pos (.inr hbad)] at h
      cases h
    · rw [if_neg hmark] at hfound
      refine iff_of_true ?_ (by simpa using hmark)
      rw [parseSwitchScript_identity hempty hidentity hscript hfound, after_group_restoreText,
        image_restoreText hgroup hline hidentity, String.ofList_toList]

theorem identityChar_utf8Size {c : Char} (h : identityChar c = true) : c.utf8Size = 1 := by
  refine Char.utf8Size_eq_one_iff.mpr ?_
  simp only [identityChar, Char.isAlphanum, Char.isAlpha, Char.isUpper, Char.isLower,
    Char.isDigit, Bool.or_eq_true, Bool.and_eq_true, decide_eq_true_eq] at h
  rcases h with ((((⟨-, h⟩ | ⟨-, h⟩) | ⟨-, h⟩) | rfl) | rfl) | rfl
  · exact UInt32.le_trans h (by decide)
  · exact UInt32.le_trans h (by decide)
  · exact UInt32.le_trans h (by decide)
  · decide
  · decide
  · decide

theorem size_utf8Encode_identity {plugin : Text} (hall : ∀ c ∈ plugin, identityChar c = true) :
    plugin.utf8Encode.size = plugin.length := by
  induction plugin with
  | nil => rfl
  | cons c plugin ih =>
    have hcons : (c :: plugin).utf8Encode.size = c.utf8Size + plugin.utf8Encode.size := by
      simp [List.utf8Encode]
    rw [hcons, identityChar_utf8Size (hall c List.mem_cons_self),
      ih fun d hd => hall d (List.mem_cons_of_mem _ hd), List.length_cons, Nat.add_comm]

/-- A plugin that passes the test of the emulation is an identity part when it
is not too long. -/
theorem identityPart_ofList {plugin : Text} (hne : plugin ≠ [])
    (hall : plugin.all identityChar = true) :
    identityPart (String.ofList plugin) = true ↔ plugin.length ≤ 128 := by
  have hsize : (String.ofList plugin).utf8ByteSize = plugin.length := by
    rw [← String.size_toByteArray, String.toByteArray_ofList,
      size_utf8Encode_identity (List.all_eq_true.mp hall)]
  rw [identityPart_iff, hsize, String.toList_ofList]
  have hne' : String.ofList plugin ≠ "" := fun h => hne (by simpa using congrArg String.toList h)
  exact ⟨fun h => h.2.1, fun h => ⟨hne', h, fun c hc => List.all_eq_true.mp hall c hc⟩⟩

theorem parseSwitchScript_plugin {script : Text} {command : SwitchCommand}
    (h : parseSwitchScript script = .ok command) :
    ∃ plugin, quotedAfter script "wallpaperPlugin = \"".toList = some plugin ∧ plugin ≠ [] ∧
      plugin.all identityChar = true ∧ command.plugin = String.ofList plugin := by
  unfold parseSwitchScript at h
  obtain ⟨index, -, h⟩ := bind_ok h
  split at h
  next => cases h
  next =>
    split at h
    next => cases h
    next plugin hplugin =>
      obtain ⟨hgood, h⟩ := check_ok h
      obtain ⟨hne, hall⟩ := not_or.mp hgood
      obtain rfl := Except.ok.inj h
      exact ⟨plugin, hplugin, hne, not_not.mp hall, rfl⟩

/-! ## The desktop emulation -/

theorem not_probe (rest : Text) :
    ¬ probeTemplatePrefix <+: "var d = desktops()[".toList ++ rest := fun h =>
  (List.prefix_or_prefix_of_prefix h (List.prefix_append _ rest)).elim (by decide) (by decide)

theorem readScript_switch {script rest : Text}
    (h : script = "var d = desktops()[".toList ++ rest) :
    readScript script = (parseSwitchScript script).map .switch :=
  if_neg (h ▸ not_probe rest)

theorem readScript_probe {names : List String} {script : Text} (h : probeScript names = .ok script) :
    readScript script = .ok .probe := by
  unfold probeScript at h
  obtain ⟨entries, -, h⟩ := bind_ok h
  obtain rfl := Except.ok.inj h
  obtain ⟨rest, hrest⟩ : probeTemplatePrefix <+: desktopProbeTemplate := by
    unfold desktopProbeTemplate
    rw [show "var out = [];\n".toList = "var out = [];".toList ++ ['\n'] by decide]
    simp only [List.append_assoc]
    rw [← List.append_assoc, show "var d = desktops();\n".toList ++ "var out = [];".toList =
      probeTemplatePrefix by decide]
    exact List.prefix_append _ _
  refine if_pos ?_
  rw [show "\x7b__CONNECTORS__\x7d".toList = '\x7b' :: "__CONNECTORS__\x7d".toList by decide,
    ← hrest, replace_append (by decide)]
  exact List.prefix_append _ _

theorem map_ok_iff {ε α β : Type} {x : Except ε α} {f : α → β} (hf : Function.Injective f)
    (a : α) : x.map f = .ok (f a) ↔ x = .ok a := by
  cases x with
  | error e => simp [Except.map]
  | ok b => simp [Except.map, hf.eq_iff]

/-- **The emulation.**  An apply script is read as what it was written for; a
restore script is, unless its image ends like the marker of the plugin; a probe
is a probe and no switch is; and a plugin that is accepted would be refused by
the daemon exactly when it is longer than 128 characters. -/
theorem scripts_understood_iff (i : DesktopIndex) (script : Text) :
    (∀ plugin, applyScript i plugin = .ok script →
      readScript script = .ok (.switch ⟨i, plugin, false, none⟩)) ∧
    (∀ plugin configGroup image, restoreScript i plugin configGroup image = .ok script →
      readScript script ≠ .ok .probe ∧
        (readScript script = .ok (.switch ⟨i, plugin, true, image⟩) ↔
          ∀ path ∈ image, ¬ "wallpaperPlugin = ".toList <:+ path.toList)) ∧
    (∀ names, probeScript names = .ok script → readScript script = .ok .probe) ∧
    ∀ command, parseSwitchScript script = .ok command →
      (validateIdentityPart "wallpaper_plugin" command.plugin = .ok () ↔
        ∀ plugin ∈ quotedAfter script "wallpaperPlugin = \"".toList, plugin.length ≤ 128) := by
  refine ⟨fun plugin h => ?_, fun plugin configGroup image h => ?_,
    fun names h => readScript_probe h, fun command h => ?_⟩
  · obtain ⟨hvalid, rfl⟩ := applyScript_ok h
    obtain ⟨hne, hall⟩ := identity_toList hvalid
    rw [readScript_switch (applyText_eq i plugin.toList), parse_applyText i hne hall,
      String.ofList_toList]
    rfl
  · have hread := parse_restoreScript_iff h
    obtain ⟨-, -, group, line, -, -, rfl⟩ := restoreScript_ok h
    rw [readScript_switch (restoreText_eq i plugin.toList group line)]
    refine ⟨fun hprobe => ?_, (map_ok_iff (fun a b hab => ?_) _).trans hread⟩
    · obtain ⟨command, -, hcommand⟩ := map_ok hprobe
      cases hcommand
    · cases hab
      rfl
  · obtain ⟨plugin, hplugin, hne, hall, hcommand⟩ := parseSwitchScript_plugin h
    rw [hplugin, hcommand]
    simp only [Option.mem_some_iff, forall_eq', ← identityPart_ofList hne hall]
    unfold validateIdentityPart
    split
    next hpart => exact iff_of_true rfl hpart
    next hpart => exact iff_of_false nofun hpart

/-! ### Example scripts -/

theorem groupText_isOk {parts : List String} (h : ∀ part ∈ parts, identityPart part = true) :
    ∃ group, groupText parts = .ok group := by
  induction parts with
  | nil => exact ⟨_, rfl⟩
  | cons part parts ih =>
    obtain ⟨rest, hrest⟩ := ih fun part hpart => h part (List.mem_cons_of_mem _ hpart)
    have hpart : validateIdentityPart "config_group" part = .ok () := if_pos (h part List.mem_cons_self)
    exact ⟨_, by rw [groupText, hpart, ok_bind, hrest, ok_bind]⟩

/-- The requests for which there is a restore script. -/
theorem restoreScript_isOk (i : DesktopIndex) {plugin : String} {configGroup : List String}
    {path : String} (hplugin : identityPart plugin = true)
    (hgroup : configGroup ≠ [] ∧ configGroup.length ≤ 4)
    (hparts : ∀ part ∈ configGroup, identityPart part = true)
    (hpath : path.isEmpty = false ∧ path.utf8ByteSize ≤ maxImageChars) :
    ∃ script, restoreScript i plugin configGroup (some path) = .ok script := by
  obtain ⟨group, hg⟩ := groupText_isOk hparts
  have hvalid : validateIdentityPart "wallpaper_plugin" plugin = .ok () := if_pos hplugin
  have hcount : ¬ (configGroup = [] ∨ 4 < configGroup.length) := by
    rintro (hempty | hlong)
    · exact hgroup.1 hempty
    · omega
  have himage : ¬ (path.isEmpty = true ∨ maxImageChars < path.utf8ByteSize) := by
    rintro (hempty | hlong)
    · rw [hpath.1] at hempty
      cases hempty
    · omega
  have hline : imageText (some path) = .ok (imageLine path.toList) := if_neg himage
  refine ⟨restoreText i plugin.toList group (imageLine path.toList), ?_⟩
  unfold restoreScript
  rw [hvalid, ok_bind, if_neg hcount, hg, ok_bind, hline, ok_bind]

/-- A saved image with quotes comes back. -/
theorem scripts_understood_quotes :
    ∃ script, restoreScript 1 "org.kde.image" ["Wallpaper", "General"]
        (some "/a \"quoted\" name.jpg") = .ok script ∧
      readScript script =
        .ok (.switch ⟨1, "org.kde.image", true, some "/a \"quoted\" name.jpg"⟩) := by
  obtain ⟨script, hscript⟩ : ∃ script, restoreScript 1 "org.kde.image" ["Wallpaper", "General"]
      (some "/a \"quoted\" name.jpg") = .ok script :=
    restoreScript_isOk 1 (by decide +kernel) (by decide) (by decide +kernel) (by decide +kernel)
  refine ⟨script, hscript, ((scripts_understood_iff _ _).2.1 _ _ _ hscript).2.mpr fun path hpath => ?_⟩
  obtain rfl := Option.some.inj hpath
  decide +kernel

/-- A plugin of 129 characters. -/
def longPlugin : Text := List.replicate 129 'p'

/-- A saved image that ends like the marker of the plugin is not read back, and
a plugin that the daemon refuses is accepted. -/
theorem scripts_misunderstood :
    (∃ script, restoreScript 1 "org.kde.image" ["General"] (some "/a wallpaperPlugin = ") =
        .ok script ∧
      readScript script ≠
        .ok (.switch ⟨1, "org.kde.image", true, some "/a wallpaperPlugin = "⟩)) ∧
    ∃ command, parseSwitchScript (applyText 0 longPlugin) = .ok command ∧
      command.plugin = String.ofList longPlugin ∧
      validateIdentityPart "wallpaper_plugin" command.plugin ≠ .ok () := by
  constructor
  · obtain ⟨script, hscript⟩ : ∃ script, restoreScript 1 "org.kde.image" ["General"]
        (some "/a wallpaperPlugin = ") = .ok script :=
      restoreScript_isOk 1 (by decide +kernel) (by decide) (by decide +kernel) (by decide +kernel)
    refine ⟨script, hscript, fun h => ?_⟩
    have hread := parse_restoreScript_iff hscript
    obtain ⟨-, -, group, line, -, -, rfl⟩ := restoreScript_ok hscript
    rw [readScript_switch (restoreText_eq _ _ _ _)] at h
    obtain ⟨command, hcommand, heq⟩ := map_ok h
    obtain rfl := Request.switch.inj heq
    exact hread.mp hcommand _ rfl (by decide +kernel)
  · have hall : longPlugin.all identityChar = true := by simp [longPlugin]; decide
    refine ⟨_, parse_applyText 0 (by decide) (List.all_eq_true.mp hall), rfl, fun h => ?_⟩
    have hlong := (identityPart_ofList (by decide) hall).mp (identityPart_of_ok h)
    simp [longPlugin] at hlong

end Kwe.Desktop
