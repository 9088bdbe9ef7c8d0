import Kwe.Desktop.Understood
import Kwe.Foundation.EcmaScript

/-!
The scripts as the lexical grammar of ECMAScript reads them: the statements of their
templates, in which every value is one string literal.

* `reads_quoted`: what a quoted value is read as;
* `scripts_tokenized`: the tokens of the three scripts, and the requests that have one.
-/

namespace Kwe.Desktop

open Foundation Foundation.Checks Foundation.EcmaScript Kwe.Supervisor

/-! ## Templates -/

def word (name : String) : Token := .identifier name

def mark (p : String) : Token := .punctuator p

/-- The literal of a value. -/
def literal (value : Text) : Token := .string (utf16 value)

/-- `var d = desktops()[i];` and the guard. -/
def desktopStatements (desktopIndex : Nat) : List (List Token) :=
  [[word "var", word "d", mark "=", word "desktops", mark "(", mark ")", mark "[",
      .number desktopIndex, mark "]", mark ";"],
    [word "if", mark "(", mark "!", word "d", mark ")", word "throw",
      literal ("no desktop ".toList ++ decimal desktopIndex), mark ";"]]

def pluginStatement (plugin : Text) : List Token :=
  [word "d", mark ".", word "wallpaperPlugin", mark "=", literal plugin, mark ";"]

def applyStatements (desktopIndex : Nat) (plugin : String) : List (List Token) :=
  desktopStatements desktopIndex ++ [pluginStatement plugin.toList]

def groupTokens : List String → List Token
  | [] => []
  | part :: parts =>
    literal part.toList :: if parts = [] then [] else mark "," :: groupTokens parts

def groupStatement (configGroup : List String) : List Token :=
  [word "d", mark ".", word "currentConfigGroup", mark "=", mark "["] ++ groupTokens configGroup ++
    [mark "]", mark ";"]

def imageStatements : Option String → List (List Token)
  | none => []
  | some image =>
    [[word "d", mark ".", word "writeConfig", mark "(", literal "Image".toList, mark ",",
      literal image.toList, mark ")", mark ";"]]

def restoreStatements (desktopIndex : Nat) (plugin : String) (configGroup : List String)
    (image : Option String) : List (List Token) :=
  desktopStatements desktopIndex ++ [groupStatement configGroup] ++ imageStatements image ++
    [pluginStatement plugin.toList]

/-! ## Literals -/

theorem readEscape_escapeChar {c : Char} (h : ¬ Plain c) :
    ∃ text, escapeChar c = '\\' :: text ∧
      ∀ rest, readEscape (text ++ rest) = some (utf16Char c, rest) := by
  rw [Plain, escapeChar] at h
  split at h
  next hc =>
    subst hc
    exact ⟨['\\'], rfl, fun rest => rfl⟩
  split at h
  next hc =>
    subst hc
    exact ⟨['"'], rfl, fun rest => rfl⟩
  split at h
  next hc =>
    subst hc
    exact ⟨['n'], rfl, fun rest => rfl⟩
  split at h
  next hc =>
    subst hc
    exact ⟨['r'], rfl, fun rest => rfl⟩
  split at h
  next hc =>
    subst hc
    exact ⟨['u', '2', '0', '2', '8'], rfl, fun rest => rfl⟩
  split at h
  next hc =>
    subst hc
    exact ⟨['u', '2', '0', '2', '9'], rfl, fun rest => rfl⟩
  exact absurd rfl h

/-- A plain character stands for itself in a literal. -/
theorem Plain.ne {c : Char} (h : Plain c) : c ≠ '"' ∧ c ≠ '\\' ∧ c ≠ '\n' ∧ c ≠ '\r' := by
  refine ⟨?_, ?_, ?_, ?_⟩
  all_goals
    rintro rfl
    exact absurd h (by decide)

/-- The body of a literal is read as the value, one character in each step. -/
theorem readString_escaped (value rest : Text) {fuel : Nat} (hfuel : value.length < fuel) :
    readString '"' fuel (escapeJsString value ++ '"' :: rest) = some (utf16 value, rest) := by
  induction value generalizing fuel with
  | nil =>
    obtain ⟨fuel, rfl⟩ := Nat.exists_eq_add_one.mpr (Nat.zero_lt_of_lt hfuel)
    exact readString_close '"' fuel rest
  | cons c value ih =>
    obtain ⟨fuel, rfl⟩ := Nat.exists_eq_add_one.mpr (Nat.zero_lt_of_lt hfuel)
    have hrest := ih (Nat.lt_of_succ_lt_succ hfuel)
    have hutf16 : utf16 (c :: value) = utf16Char c ++ utf16 value := List.flatMap_cons
    rw [escapeJsString_cons, List.append_assoc, hutf16]
    by_cases hplain : Plain c
    · obtain ⟨hquote, hbackslash, hline⟩ := hplain.ne
      rw [hplain, List.singleton_append, readString_char hquote hbackslash hline, hrest]
      rfl
    · obtain ⟨text, hescape, hread⟩ := readEscape_escapeChar hplain
      rw [hescape, List.cons_append, readString_escape (by decide) (hread _), hrest]
      rfl

theorem escapeChar_ne_nil (c : Char) : escapeChar c ≠ [] := by
  by_cases hplain : Plain c
  · rw [hplain]
    exact List.cons_ne_nil c []
  · obtain ⟨text, hescape, -⟩ := readEscape_escapeChar hplain
    rw [hescape]
    exact List.cons_ne_nil _ text

theorem length_le_escape (value : Text) : value.length ≤ (escapeJsString value).length := by
  induction value with
  | nil => exact Nat.le_refl _
  | cons c value ih =>
    have hpos := List.length_pos_iff.mpr (escapeChar_ne_nil c)
    rw [escapeJsString_cons, List.length_append, List.length_cons]
    omega

/-- **Literals.**  A quoted value is one string literal of this value. -/
theorem spells_quoted (value : Text) : Spells (quoted (escapeJsString value)) [literal value] := by
  intro last more
  have hle := length_le_escape value
  have htext : quoted (escapeJsString value) ++ more =
      '"' :: (escapeJsString value ++ '"' :: more) := by simp [quoted]
  rw [htext]
  refine .one (next_string (readString_escaped value more ?_) last) ?_
  · rw [List.length_append]
    omega
  · simp only [List.length_cons, List.length_append]
    omega

theorem spells_plain {value : Text} (h : ∀ c ∈ value, Plain c) :
    Spells (quoted value) [literal value] := by
  have hread := spells_quoted value
  rwa [escapeJsString_plain h] at hread

theorem plain_of_all {text : Text} (h : text.all (fun c => escapeChar c = [c]) = true) :
    ∀ c ∈ text, Plain c := by
  intro c hc
  exact of_decide_eq_true (List.all_eq_true.mp h c hc)

theorem plain_of_identity {c : Char} (h : identityChar c = true) : Plain c := by
  have hne : ∀ d : Char, identityChar d = false → c ≠ d := by
    rintro d hd rfl
    exact nomatch hd.symm.trans h
  simp [Plain, escapeChar, hne '\\' (by decide), hne '"' (by decide), hne '\n' (by decide),
    hne '\r' (by decide), hne '\u2028' (by decide), hne '\u2029' (by decide)]

theorem spells_identity {name value : String} (h : validateIdentityPart name value = .ok ()) :
    Spells (quoted value.toList) [literal value.toList] :=
  spells_plain fun c hc => plain_of_identity ((identity_toList h).2 c hc)

theorem spells_noDesktop (n : Nat) :
    Spells (quoted ("no desktop ".toList ++ decimal n))
      [literal ("no desktop ".toList ++ decimal n)] := by
  have hwords : ∀ c ∈ "no desktop ".toList, Plain c := plain_of_all rfl
  refine spells_plain fun c hc => ?_
  rcases List.mem_append.mp hc with hc | hc
  · exact hwords c hc
  · refine plain_of_identity ?_
    have hdigit : c.isDigit = true := Nat.isDigit_of_mem_toDigits (by decide) (by decide) hc
    simp [identityChar, Char.isAlphanum, hdigit]

/-! ## The switches -/

/-- The index and the guard, with the text that a script puts between them. -/
theorem spells_desktop (n : Nat) {guard : Text}
    (hguard : Spells guard [mark "]", mark ";", word "if", mark "(", mark "!", word "d", mark ")",
      word "throw"])
    (hhead : guard.head? = some ']') {rest : Text} {tokens : List Token}
    (hrest : Spells rest (mark ";" :: tokens)) :
    Spells ("var d = desktops()[".toList ++ decimal n ++ guard ++
      quoted ("no desktop ".toList ++ decimal n) ++ rest)
      ((desktopStatements n).flatten ++ tokens) := by
  have hstart : Spells "var d = desktops()[".toList
      [word "var", word "d", mark "=", word "desktops", mark "(", mark ")", mark "["] :=
    spells_piece rfl rfl
  exact ((hstart.number hguard hhead (by decide) n).append (spells_noDesktop n)).append hrest

theorem applyText_spells (n : Nat) {name plugin : String}
    (h : validateIdentityPart name plugin = .ok ()) :
    Spells (applyText n plugin.toList) (applyStatements n plugin).flatten := by
  have hplugin : Spells "; d.wallpaperPlugin = ".toList
      [mark ";", word "d", mark ".", word "wallpaperPlugin", mark "="] := spells_piece rfl rfl
  have hsemicolon : Spells [';'] [mark ";"] := spells_chars rfl
  have hguard : Spells "]; if (!d) throw ".toList [mark "]", mark ";", word "if", mark "(",
      mark "!", word "d", mark ")", word "throw"] := spells_piece rfl rfl
  exact ((spells_desktop n hguard rfl hplugin).append (spells_identity h)).append hsemicolon

theorem groupText_spells {parts : List String} {group : Text} (h : groupText parts = .ok group) :
    Spells group (groupTokens parts) := by
  induction parts generalizing group with
  | nil =>
    obtain rfl := Except.ok.inj h
    exact .nil
  | cons part parts ih =>
    obtain ⟨hpart, rest, hrest, rfl⟩ := groupText_cons h
    rw [groupTokens]
    by_cases hlast : parts = []
    · rw [if_pos hlast, if_pos hlast]
      exact spells_identity hpart
    · have hcomma : Spells ", ".toList [mark ","] := spells_piece rfl rfl
      rw [if_neg hlast, if_neg hlast]
      exact ((spells_identity hpart).append hcomma).append (ih hrest)

theorem imageLine_spells (image : Text) :
    Spells (imageLine image) [word "d", mark ".", word "writeConfig", mark "(",
      literal "Image".toList, mark ",", literal image, mark ")", mark ";"] := by
  have hcall : Spells "d.writeConfig(".toList
      [word "d", mark ".", word "writeConfig", mark "("] := spells_piece rfl rfl
  have hcomma : Spells ", ".toList [mark ","] := spells_piece rfl rfl
  have hclose : Spells ");\n".toList [mark ")", mark ";"] := spells_piece rfl rfl
  exact (((hcall.append (spells_plain (plain_of_all rfl))).append hcomma).append
    (spells_quoted image)).append hclose

theorem imageText_spells {image : Option String} {line : Text} (h : imageText image = .ok line) :
    Spells line (imageStatements image).flatten := by
  rcases imageText_ok h with ⟨rfl, rfl⟩ | ⟨path, rfl, rfl⟩
  · exact .nil
  · exact imageLine_spells path.toList

theorem restoreText_spells (n : Nat) {name plugin : String} {configGroup : List String}
    {image : Option String} {group line : Text}
    (h : validateIdentityPart name plugin = .ok ()) (hgroup : groupText configGroup = .ok group)
    (hline : imageText image = .ok line) :
    Spells (restoreText n plugin.toList group line)
      (restoreStatements n plugin configGroup image).flatten := by
  have hopen : Spells ";\nd.currentConfigGroup = [".toList
      [mark ";", word "d", mark ".", word "currentConfigGroup", mark "=", mark "["] :=
    spells_piece rfl rfl
  have hclose : Spells "];\n".toList [mark "]", mark ";"] := spells_piece rfl rfl
  have hplugin : Spells "d.wallpaperPlugin = ".toList
      [word "d", mark ".", word "wallpaperPlugin", mark "="] := spells_piece rfl rfl
  have hsemicolon : Spells [';'] [mark ";"] := spells_chars rfl
  have hguard : Spells "];\nif (!d) throw ".toList [mark "]", mark ";", word "if", mark "(",
      mark "!", word "d", mark ")", word "throw"] := spells_piece rfl rfl
  have hspells := ((((((spells_desktop n hguard rfl hopen).append
    (groupText_spells hgroup)).append hclose).append (imageText_spells hline)).append
      hplugin).append (spells_identity h)).append hsemicolon
  have htokens : (restoreStatements n plugin configGroup image).flatten =
      (desktopStatements n).flatten ++
        [word "d", mark ".", word "currentConfigGroup", mark "=", mark "["] ++
        groupTokens configGroup ++ [mark "]", mark ";"] ++ (imageStatements image).flatten ++
        [word "d", mark ".", word "wallpaperPlugin", mark "="] ++ [literal plugin.toList] ++
        [mark ";"] := by
    simp [restoreStatements, groupStatement, pluginStatement]
  rw [htokens]
  exact hspells

/-! ## The probe -/

/-- An entry of the connector map. -/
def entryTokens (name : String) : List Token :=
  [literal name.toList, mark ":", word "screenForConnector", mark "(", literal name.toList,
    mark ")"]

def mapTokens (connectorNames : List String) : List Token :=
  mark "\x7b" :: List.intercalate [mark ","] (connectorNames.map entryTokens) ++ [mark "\x7d"]

/-- The statements of the probe up to the connector map, a line of them each. -/
def loopStatements : List (List Token) :=
  [[word "var", word "d", mark "=", word "desktops", mark "(", mark ")", mark ";"],
    [word "var", word "out", mark "=", mark "[", mark "]", mark ";"],
    [word "for", mark "(", word "var", word "i", mark "=", .number 0, mark ";", word "i", mark "<",
      word "d", mark ".", word "length", mark ";", word "i", mark "++", mark ")", mark "\x7b"],
    [word "var", word "image", mark "=", word "null", mark ";"],
    [word "var", word "wp", mark "=", word "d", mark "[", word "i", mark "]", mark ".",
      word "wallpaperPlugin", mark ";"],
    [word "if", mark "(", .regExp "^[A-Za-z0-9._-]+$" "", mark ".", word "test", mark "(",
      word "wp", mark ")", mark ")", mark "\x7b"],
    [word "var", word "g", mark "=", word "d", mark "[", word "i", mark "]", mark ".",
      word "currentConfigGroup", mark ";"],
    [word "try", mark "\x7b"],
    [word "d", mark "[", word "i", mark "]", mark ".", word "currentConfigGroup", mark "=",
      mark "[", literal "Wallpaper".toList, mark ",", word "wp", mark ",",
      literal "General".toList, mark "]", mark ";"],
    [word "image", mark "=", word "d", mark "[", word "i", mark "]", mark ".", word "readConfig",
      mark "(", literal "Image".toList, mark ")", mark ";"],
    [mark "\x7d", word "catch", mark "(", word "e", mark ")", mark "\x7b", mark "\x7d"],
    [word "d", mark "[", word "i", mark "]", mark ".", word "currentConfigGroup", mark "=",
      word "g", mark ";"],
    [mark "\x7d"],
    [word "out", mark ".", word "push", mark "(", mark "\x7b", word "index", mark ":", word "i",
      mark ",", word "id", mark ":", word "d", mark "[", word "i", mark "]", mark ".", word "id",
      mark ",", word "screen", mark ":", word "d", mark "[", word "i", mark "]", mark ".",
      word "screen", mark ",", word "wp", mark ":", word "wp", mark ",", word "image", mark ":",
      word "image", mark "\x7d", mark ")", mark ";"],
    [mark "\x7d"]]

def probeStatements (connectorNames : List String) : List (List Token) :=
  loopStatements ++
  [[word "var", word "c", mark "="] ++ mapTokens connectorNames ++ [mark ";"],
    [word "print", mark "(", word "JSON", mark ".", word "stringify", mark "(", mark "\x7b",
      word "desktops", mark ":", word "out", mark ",", word "connectors", mark ":", word "c",
      mark "\x7d", mark ")", mark ")", mark ";"]]

/-- The text of an entry of the connector map. -/
def entryText (name : String) : Text :=
  quoted name.toList ++ ": screenForConnector(".toList ++ quoted name.toList ++ [')']

theorem connectorEntries_ok {names : List String} {entries : List Text}
    (h : connectorEntries names = .ok entries) :
    (∀ name ∈ names, validateIdentityPart "connector" name = .ok ()) ∧
      entries = names.map entryText := by
  induction names generalizing entries with
  | nil => exact ⟨List.forall_mem_nil _, (Except.ok.inj h).symm⟩
  | cons name names ih =>
    rw [connectorEntries] at h
    obtain ⟨⟨⟩, hname, h⟩ := bind_ok h
    obtain ⟨rest, hrest, h⟩ := bind_ok h
    obtain ⟨hall, rfl⟩ := ih hrest
    exact ⟨List.forall_mem_cons.mpr ⟨hname, hall⟩, (Except.ok.inj h).symm⟩

theorem entryText_spells {name : String} (h : validateIdentityPart "connector" name = .ok ()) :
    Spells (entryText name) (entryTokens name) := by
  have hcall : Spells ": screenForConnector(".toList
      [mark ":", word "screenForConnector", mark "("] := spells_piece rfl rfl
  have hclose : Spells [')'] [mark ")"] := spells_chars rfl
  exact (((spells_identity h).append hcall).append (spells_identity h)).append hclose

theorem entries_spells {names : List String}
    (h : ∀ name ∈ names, validateIdentityPart "connector" name = .ok ()) :
    Spells (List.intercalate ", ".toList (names.map entryText))
      (List.intercalate [mark ","] (names.map entryTokens)) := by
  have hcomma : Spells ", ".toList [mark ","] := spells_piece rfl rfl
  generalize ", ".toList = sep at hcomma ⊢
  induction names with
  | nil => exact .nil
  | cons name names ih =>
    obtain ⟨hname, hnames⟩ := List.forall_mem_cons.mp h
    cases names with
    | nil => simpa [List.intercalate] using entryText_spells hname
    | cons name' names =>
      simp only [List.map_cons, List.intercalate_cons_cons]
      exact ((entryText_spells hname).append hcomma).append (ih hnames)

/-- The lines of the template before the connector map. -/
def probeLines : List String :=
  ["var d = desktops();\n",
    "var out = [];\n",
    "for (var i = 0; i < d.length; i++) \x7b\n",
    "  var image = null;\n",
    "  var wp = d[i].wallpaperPlugin;\n",
    "  if (/^[A-Za-z0-9._-]+$/.test(wp)) \x7b\n",
    "    var g = d[i].currentConfigGroup;\n",
    "    try \x7b\n",
    "      d[i].currentConfigGroup = [\"Wallpaper\", wp, \"General\"];\n",
    "      image = d[i].readConfig(\"Image\");\n",
    "    \x7d catch (e) \x7b \x7d\n",
    "    d[i].currentConfigGroup = g;\n",
    "  \x7d\n",
    "  out.push(\x7bindex: i, id: d[i].id, screen: d[i].screen, wp: wp, image: image\x7d);\n",
    "\x7d\n"]

def probeStart : Text := probeLines.flatMap String.toList ++ "var c = ".toList

def probeEnd : Text :=
  ";\n".toList ++ "print(JSON.stringify(\x7bdesktops: out, connectors: c\x7d));".toList

/-- A literal in three parts. -/
theorem toList_parts {l m v : Text} {a b value piece : String} (ha : String.ofList l = a)
    (hvalue : String.ofList v = value) (hb : String.ofList m = b)
    (hpiece : String.ofList (l ++ v ++ m) = piece) :
    piece.toList = a.toList ++ value.toList ++ b.toList := by
  rw [← ha, ← hvalue, ← hb, ← hpiece]
  simp only [String.toList_ofList]

theorem template_eq :
    desktopProbeTemplate = probeStart ++ ("\x7b__CONNECTORS__\x7d".toList ++ probeEnd) := by
  have hline : "var c = \x7b__CONNECTORS__\x7d;\n".toList =
      "var c = ".toList ++ "\x7b__CONNECTORS__\x7d".toList ++ ";\n".toList :=
    toList_parts rfl rfl rfl rfl
  have hlines : desktopProbeTemplate = probeLines.flatMap String.toList ++
      "var c = \x7b__CONNECTORS__\x7d;\n".toList ++
        "print(JSON.stringify(\x7bdesktops: out, connectors: c\x7d));".toList := by
    rw [List.flatMap_eq_foldl]
    rfl
  rw [hlines, hline, probeStart, probeEnd]
  generalize "var c = ".toList = a, "\x7b__CONNECTORS__\x7d".toList = b, ";\n".toList = c,
    "print(JSON.stringify(\x7bdesktops: out, connectors: c\x7d));".toList = d
  simp

theorem skips_piece {q q' : Char} {piece : String} {text : Text}
    (hpiece : String.ofList text = piece) (h : Search.skips q q' text = true) :
    Search.skips q q' piece.toList = true := by
  rw [← hpiece, String.toList_ofList]
  exact h

theorem probeLines_skip : ∀ line ∈ probeLines, Search.skips '\x7b' '_' line.toList = true := by
  repeat
    first
    | exact List.forall_mem_nil _
    | refine List.forall_mem_cons.mpr ⟨skips_piece rfl rfl, ?_⟩

theorem probeStart_skips : Search.skips '\x7b' '_' probeStart = true := by
  have hlines : ∀ lines : List String,
      (∀ line ∈ lines, Search.skips '\x7b' '_' line.toList = true) →
      Search.skips '\x7b' '_' (lines.flatMap String.toList) = true := by
    intro lines
    induction lines with
    | nil => exact fun _ => rfl
    | cons line lines ih =>
      intro h
      obtain ⟨hline, hrest⟩ := List.forall_mem_cons.mp h
      exact Search.skips_append hline (ih hrest)
  exact Search.skips_append (hlines _ probeLines_skip) (skips_piece rfl rfl)

theorem probe_replaced (connectorMap : Text) :
    Search.replace "\x7b__CONNECTORS__\x7d".toList connectorMap desktopProbeTemplate =
      probeStart ++ (connectorMap ++ probeEnd) := by
  have hpattern : "\x7b__CONNECTORS__\x7d".toList = '\x7b' :: '_' :: "_CONNECTORS__\x7d".toList :=
    rfl
  have hend : Search.skips '\x7b' '_' probeEnd = true :=
    Search.skips_append (skips_piece rfl rfl) (skips_piece rfl rfl)
  rw [template_eq, hpattern]
  generalize "_CONNECTORS__\x7d".toList = pattern
  have hdone : Search.replace ('\x7b' :: '_' :: pattern) connectorMap (probeEnd ++ []) =
      probeEnd ++ [] := Search.replace_skips hend []
  rw [List.append_nil] at hdone
  rw [Search.replace_skips probeStart_skips, Search.replace_pattern, hdone]

/-! The lines with values in them. -/

theorem for_spells : Spells "for (var i = 0; i < d.length; i++) \x7b\n".toList
    [word "for", mark "(", word "var", word "i", mark "=", .number 0, mark ";", word "i", mark "<",
      word "d", mark ".", word "length", mark ";", word "i", mark "++", mark ")",
      mark "\x7b"] := by
  have hstart : Spells "for (var i = ".toList
      [word "for", mark "(", word "var", word "i", mark "="] := spells_piece rfl rfl
  have hend : Spells "; i < d.length; i++) \x7b\n".toList
      [mark ";", word "i", mark "<", word "d", mark ".", word "length", mark ";", word "i",
        mark "++", mark ")", mark "\x7b"] := spells_piece rfl rfl
  have hline : "for (var i = 0; i < d.length; i++) \x7b\n".toList =
      "for (var i = ".toList ++ "0".toList ++ "; i < d.length; i++) \x7b\n".toList :=
    toList_parts rfl rfl rfl rfl
  rw [hline]
  exact hstart.number hend rfl (by decide) 0

theorem if_spells : Spells "  if (/^[A-Za-z0-9._-]+$/.test(wp)) \x7b\n".toList
    [word "if", mark "(", .regExp "^[A-Za-z0-9._-]+$" "", mark ".", word "test", mark "(",
      word "wp", mark ")", mark ")", mark "\x7b"] := by
  have hstart : Spells "  if (".toList [word "if", mark "("] := spells_piece rfl rfl
  have hend : Spells ".test(wp)) \x7b\n".toList [mark ".", word "test", mark "(", word "wp",
      mark ")", mark ")", mark "\x7b"] := spells_piece rfl rfl
  have hline : "  if (/^[A-Za-z0-9._-]+$/.test(wp)) \x7b\n".toList =
      "  if (".toList ++ "/^[A-Za-z0-9._-]+$/".toList ++ ".test(wp)) \x7b\n".toList :=
    toList_parts rfl rfl rfl rfl
  have hbody : ∀ more, readRegExpBody false (['^', '[', 'A', '-', 'Z', 'a', '-', 'z', '0', '-',
      '9', '.', '_', '-', ']', '+', '$'] ++ '/' :: more) = some (['^', '[', 'A', '-', 'Z', 'a',
        '-', 'z', '0', '-', '9', '.', '_', '-', ']', '+', '$'], more) := fun more => rfl
  rw [hline]
  exact hstart.regExp hend rfl rfl hbody rfl (by decide) rfl (by decide)

/-- A plain value between its quotes. -/
theorem spells_string {text : Text} {value piece : String} (hvalue : String.ofList text = value)
    (hpiece : String.ofList (quoted text) = piece)
    (h : text.all (fun c => escapeChar c = [c]) = true) :
    Spells piece.toList [literal value.toList] := by
  rw [← hvalue, ← hpiece, String.toList_ofList, String.toList_ofList]
  exact spells_plain (plain_of_all h)

theorem group_spells :
    Spells "      d[i].currentConfigGroup = [\"Wallpaper\", wp, \"General\"];\n".toList
      [word "d", mark "[", word "i", mark "]", mark ".", word "currentConfigGroup", mark "=",
        mark "[", literal "Wallpaper".toList, mark ",", word "wp", mark ",",
        literal "General".toList, mark "]", mark ";"] := by
  have hstart : Spells "      d[i].currentConfigGroup = [".toList
      [word "d", mark "[", word "i", mark "]", mark ".", word "currentConfigGroup", mark "=",
        mark "["] := spells_piece rfl rfl
  have hwallpaper : Spells "\"Wallpaper\"".toList [literal "Wallpaper".toList] :=
    spells_string rfl rfl rfl
  have hname : Spells ", wp, ".toList [mark ",", word "wp", mark ","] := spells_piece rfl rfl
  have hgeneral : Spells "\"General\"".toList [literal "General".toList] :=
    spells_string rfl rfl rfl
  have hend : Spells "];\n".toList [mark "]", mark ";"] := spells_piece rfl rfl
  have hrest : ", wp, \"General\"];\n".toList =
      ", wp, ".toList ++ "\"General\"".toList ++ "];\n".toList := toList_parts rfl rfl rfl rfl
  have hline : "      d[i].currentConfigGroup = [\"Wallpaper\", wp, \"General\"];\n".toList =
      "      d[i].currentConfigGroup = [".toList ++ "\"Wallpaper\"".toList ++
        ", wp, \"General\"];\n".toList := toList_parts rfl rfl rfl rfl
  rw [hline, hrest]
  exact (hstart.append hwallpaper).append ((hname.append hgeneral).append hend)

theorem image_spells : Spells "      image = d[i].readConfig(\"Image\");\n".toList
    [word "image", mark "=", word "d", mark "[", word "i", mark "]", mark ".", word "readConfig",
      mark "(", literal "Image".toList, mark ")", mark ";"] := by
  have hstart : Spells "      image = d[i].readConfig(".toList
      [word "image", mark "=", word "d", mark "[", word "i", mark "]", mark ".",
        word "readConfig", mark "("] := spells_piece rfl rfl
  have himage : Spells "\"Image\"".toList [literal "Image".toList] :=
    spells_string rfl rfl rfl
  have hend : Spells ");\n".toList [mark ")", mark ";"] := spells_piece rfl rfl
  have hline : "      image = d[i].readConfig(\"Image\");\n".toList =
      "      image = d[i].readConfig(".toList ++ "\"Image\"".toList ++ ");\n".toList :=
    toList_parts rfl rfl rfl rfl
  rw [hline]
  exact (hstart.append himage).append hend

theorem push_spells : Spells
    "  out.push(\x7bindex: i, id: d[i].id, screen: d[i].screen, wp: wp, image: image\x7d);\n".toList
    [word "out", mark ".", word "push", mark "(", mark "\x7b", word "index", mark ":", word "i",
      mark ",", word "id", mark ":", word "d", mark "[", word "i", mark "]", mark ".", word "id",
      mark ",", word "screen", mark ":", word "d", mark "[", word "i", mark "]", mark ".",
      word "screen", mark ",", word "wp", mark ":", word "wp", mark ",", word "image", mark ":",
      word "image", mark "\x7d", mark ")", mark ";"] := by
  have hstart : Spells "  out.push(\x7bindex: i, id: d[i].id,".toList
      [word "out", mark ".", word "push", mark "(", mark "\x7b", word "index", mark ":",
        word "i", mark ",", word "id", mark ":", word "d", mark "[", word "i", mark "]", mark ".",
        word "id", mark ","] := spells_piece rfl rfl
  have hscreen : Spells " screen: d[i].screen,".toList
      [word "screen", mark ":", word "d", mark "[", word "i", mark "]", mark ".", word "screen",
        mark ","] := spells_piece rfl rfl
  have hend : Spells " wp: wp, image: image\x7d);\n".toList
      [word "wp", mark ":", word "wp", mark ",", word "image", mark ":", word "image",
        mark "\x7d", mark ")", mark ";"] := spells_piece rfl rfl
  have hline :
      "  out.push(\x7bindex: i, id: d[i].id, screen: d[i].screen, wp: wp, image: image\x7d);\n".toList =
        "  out.push(\x7bindex: i, id: d[i].id,".toList ++ " screen: d[i].screen,".toList ++
          " wp: wp, image: image\x7d);\n".toList := toList_parts rfl rfl rfl rfl
  rw [hline]
  exact (hstart.append hscreen).append hend

theorem probeLines_spell :
    List.Forall₂ (fun line ts => Spells line.toList ts) probeLines loopStatements :=
  .cons (spells_piece rfl rfl) <| .cons (spells_piece rfl rfl) <| .cons for_spells <|
    .cons (spells_piece rfl rfl) <| .cons (spells_piece rfl rfl) <| .cons if_spells <|
    .cons (spells_piece rfl rfl) <| .cons (spells_piece rfl rfl) <| .cons group_spells <|
    .cons image_spells <| .cons (spells_piece rfl rfl) <| .cons (spells_piece rfl rfl) <|
    .cons (spells_piece rfl rfl) <| .cons push_spells <| .cons (spells_piece rfl rfl) .nil

theorem probeStart_spells :
    Spells probeStart (loopStatements.flatten ++ [word "var", word "c", mark "="]) :=
  (Spells.flatMap probeLines_spell).append (spells_piece rfl rfl)

theorem probeEnd_spells : Spells probeEnd
    [mark ";", word "print", mark "(", word "JSON", mark ".", word "stringify", mark "(",
      mark "\x7b", word "desktops", mark ":", word "out", mark ",", word "connectors", mark ":",
      word "c", mark "\x7d", mark ")", mark ")", mark ";"] := by
  have hsemicolon : Spells ";\n".toList [mark ";"] := spells_piece rfl rfl
  exact hsemicolon.append (spells_piece rfl rfl)

theorem map_spells {names : List String}
    (h : ∀ name ∈ names, validateIdentityPart "connector" name = .ok ()) :
    Spells (if names.map entryText = [] then "\x7b\x7d".toList
      else '\x7b' :: List.intercalate ", ".toList (names.map entryText) ++ ['\x7d'])
      (mapTokens names) := by
  have hopen : Spells ['\x7b'] [mark "\x7b"] := spells_chars rfl
  have hclose : Spells ['\x7d'] [mark "\x7d"] := spells_chars rfl
  cases names with
  | nil => exact spells_piece rfl rfl
  | cons name names => exact (hopen.append (entries_spells h)).append hclose

theorem probeScript_spells {names : List String} {script : Text}
    (h : probeScript names = .ok script) : Spells script (probeStatements names).flatten := by
  obtain ⟨entries, hentries, h⟩ := bind_ok h
  obtain ⟨hnames, rfl⟩ := connectorEntries_ok hentries
  obtain rfl := Except.ok.inj h
  rw [probe_replaced]
  have htokens : (probeStatements names).flatten =
      loopStatements.flatten ++ [word "var", word "c", mark "="] ++ (mapTokens names ++
        [mark ";", word "print", mark "(", word "JSON", mark ".", word "stringify", mark "(",
          mark "\x7b", word "desktops", mark ":", word "out", mark ",", word "connectors",
          mark ":", word "c", mark "\x7d", mark ")", mark ")", mark ";"]) := by
    simp [probeStatements]
  rw [htokens]
  exact probeStart_spells.append ((map_spells hnames).append probeEnd_spells)

/-! ## The requests that have a script -/

theorem identityPart_isOk (name : String) {value : String} :
    validateIdentityPart name value = .ok () ↔ identityPart value = true :=
  ⟨identityPart_of_ok, fun h => if_pos h⟩

theorem applyScript_isOk (i : DesktopIndex) (plugin : String) :
    (∃ script, applyScript i plugin = .ok script) ↔ identityPart plugin = true := by
  constructor
  · rintro ⟨script, h⟩
    exact identityPart_of_ok (applyScript_ok h).1
  · intro h
    rw [← identityPart_isOk "wallpaper_plugin"] at h
    exact ⟨applyText i plugin.toList, by rw [applyScript, h, ok_bind]⟩

theorem groupText_parts {parts : List String} {group : Text} (h : groupText parts = .ok group) :
    ∀ part ∈ parts, identityPart part = true := by
  induction parts generalizing group with
  | nil => exact List.forall_mem_nil _
  | cons part parts ih =>
    obtain ⟨hpart, rest, hrest, -⟩ := groupText_cons h
    exact List.forall_mem_cons.mpr ⟨identityPart_of_ok hpart, ih hrest⟩

/-- What an image path of a restore has to be. -/
def ImagePath (path : String) : Prop := path ≠ "" ∧ path.utf8ByteSize ≤ maxImageChars

theorem imageText_isOk (image : Option String) :
    (∃ line, imageText image = .ok line) ↔ ∀ path ∈ image, ImagePath path := by
  cases image with
  | none => exact ⟨fun _ => nofun, fun _ => ⟨[], rfl⟩⟩
  | some path =>
    rw [imageText]
    by_cases hbad : path.isEmpty = true ∨ maxImageChars < path.utf8ByteSize
    · rw [if_pos hbad]
      refine iff_of_false (fun ⟨line, h⟩ => nomatch h) fun h => ?_
      obtain ⟨hne, hsize⟩ := h path rfl
      rcases hbad with hempty | hlong
      · exact absurd (String.isEmpty_iff.mp hempty) hne
      · omega
    · rw [if_neg hbad]
      simp only [not_or, String.isEmpty_iff] at hbad
      refine ⟨fun _ path' hpath => ?_, fun _ => ⟨_, rfl⟩⟩
      obtain rfl := Option.some.inj hpath
      exact ⟨hbad.1, Nat.not_lt.mp hbad.2⟩

theorem restoreScript_isOk_iff (i : DesktopIndex) (plugin : String) (configGroup : List String)
    (image : Option String) :
    (∃ script, restoreScript i plugin configGroup image = .ok script) ↔
      identityPart plugin = true ∧ configGroup ≠ [] ∧ configGroup.length ≤ 4 ∧
        (∀ part ∈ configGroup, identityPart part = true) ∧ ∀ path ∈ image, ImagePath path := by
  constructor
  · rintro ⟨script, h⟩
    have hcount : configGroup.length ≤ 4 := by
      unfold restoreScript at h
      obtain ⟨⟨⟩, -, h⟩ := bind_ok h
      obtain ⟨hgroup, -⟩ := check_ok h
      exact Nat.not_lt.mp fun hlong => hgroup (.inr hlong)
    obtain ⟨hplugin, hne, group, line, hg, hline, -⟩ := restoreScript_ok h
    exact ⟨identityPart_of_ok hplugin, hne, hcount, groupText_parts hg,
      (imageText_isOk image).mp ⟨line, hline⟩⟩
  · rintro ⟨hplugin, hne, hcount, hparts, himage⟩
    obtain ⟨group, hg⟩ := groupText_isOk hparts
    obtain ⟨line, hline⟩ := (imageText_isOk image).mpr himage
    have hbound : ¬ (configGroup = [] ∨ 4 < configGroup.length) :=
      not_or.mpr ⟨hne, Nat.not_lt.mpr hcount⟩
    rw [← identityPart_isOk "wallpaper_plugin"] at hplugin
    refine ⟨restoreText i plugin.toList group line, ?_⟩
    rw [restoreScript, hplugin, ok_bind, if_neg hbound, hg, ok_bind, hline, ok_bind]

theorem connectorEntries_isOk (names : List String) :
    (∃ entries, connectorEntries names = .ok entries) ↔
      ∀ name ∈ names, identityPart name = true := by
  constructor
  · rintro ⟨entries, h⟩ name hname
    exact identityPart_of_ok ((connectorEntries_ok h).1 name hname)
  · intro h
    induction names with
    | nil => exact ⟨[], rfl⟩
    | cons name names ih =>
      obtain ⟨hname, hnames⟩ := List.forall_mem_cons.mp h
      obtain ⟨entries, hentries⟩ := ih hnames
      rw [← identityPart_isOk "connector"] at hname
      exact ⟨_, by rw [connectorEntries, hname, ok_bind, hentries, ok_bind]⟩

theorem probeScript_isOk (names : List String) :
    (∃ script, probeScript names = .ok script) ↔ ∀ name ∈ names, identityPart name = true := by
  rw [← connectorEntries_isOk]
  constructor
  · rintro ⟨script, h⟩
    obtain ⟨entries, hentries, -⟩ := bind_ok h
    exact ⟨entries, hentries⟩
  · rintro ⟨entries, hentries⟩
    exact ⟨_, by rw [probeScript, hentries, ok_bind]⟩

/-- **No injection.**  The scripts are read as the statements of their templates, in which
every name and every path is one string literal of this value and the desktop index a number;
and which requests have a script. -/
theorem scripts_tokenized (i : DesktopIndex) :
    (∀ plugin script, applyScript i plugin = .ok script →
      tokenize script = some (applyStatements i plugin).flatten) ∧
    (∀ plugin configGroup image script, restoreScript i plugin configGroup image = .ok script →
      tokenize script = some (restoreStatements i plugin configGroup image).flatten) ∧
    (∀ names script, probeScript names = .ok script →
      tokenize script = some (probeStatements names).flatten) ∧
    (∀ plugin, (∃ script, applyScript i plugin = .ok script) ↔ identityPart plugin = true) ∧
    (∀ plugin configGroup image,
      (∃ script, restoreScript i plugin configGroup image = .ok script) ↔
        identityPart plugin = true ∧ configGroup ≠ [] ∧ configGroup.length ≤ 4 ∧
          (∀ part ∈ configGroup, identityPart part = true) ∧ ∀ path ∈ image, ImagePath path) ∧
    ∀ names, (∃ script, probeScript names = .ok script) ↔
      ∀ name ∈ names, identityPart name = true := by
  refine ⟨fun plugin script h => ?_, fun plugin configGroup image script h => ?_,
    fun names script h => (probeScript_spells h).tokenize, applyScript_isOk i,
    restoreScript_isOk_iff i, probeScript_isOk⟩
  · obtain ⟨hplugin, rfl⟩ := applyScript_ok h
    exact (applyText_spells i hplugin).tokenize
  · obtain ⟨hplugin, -, group, line, hgroup, hline, rfl⟩ := restoreScript_ok h
    exact (restoreText_spells i hplugin hgroup hline).tokenize

/-- The index is not a string literal: no literal of the script to the first desktop has the
value `0`. -/
theorem index_not_literal :
    ∃ script tokens, applyScript 0 "a" = .ok script ∧ tokenize script = some tokens ∧
      .number 0 ∈ tokens ∧ literal "0".toList ∉ tokens := by
  have hplugin : validateIdentityPart "wallpaper_plugin" "a" = .ok () :=
    (identityPart_isOk "wallpaper_plugin").mpr (by decide)
  refine ⟨applyText 0 "a".toList, (applyStatements 0 "a").flatten, ?_,
    (applyText_spells 0 hplugin).tokenize, by decide, by decide⟩
  rw [applyScript, hplugin, ok_bind]
  rfl

end Kwe.Desktop
