import Kwe.Foundation.Checks
import Kwe.Shader.Preprocess

/-!
The macros of the combos in the text of a shader.

* `get_mergedCombos`: a combo has the value of the material, or that of its first comment.
* `definesOf_combos`: the combos are defined by a line each.
* `combos_defined_iff`: when there is one line for each upper-cased name.
-/

namespace Kwe.Shader

open Foundation

/-! ## What is asked -/

/-- The macro that a line defines. -/
def definedName (line : Text) : Option Text :=
  (stripStart "#define".toList (trimStart line)).bind fun rest =>
    if rest.head?.any isSpace then some ((trimStart rest).takeWhile isWordChar) else none

def definesOf (name text : Text) : List Text :=
  (splitInclusive text).filter fun line => definedName line = some name

/-- The combos that the comments of a text declare, in order. -/
def comboComments (fromStr : Text → Option Json) (source : Text) : Combos :=
  ((splitInclusive source).map lineText).filterMap fun line =>
    (Search.after comboMark line).bind (comboOf fromStr)

/-- A map by name, as the material has it. -/
abbrev MaterialCombos := { combos : Combos // SortedMap.Sorted combos }

/-- The value of the material if it sets the name, else the default of the first comment. -/
def Chosen (materialCombos comments : Combos) (name : Text) (value : Int) : Prop :=
  (∀ combo ∈ materialCombos, toUppercase combo.1 = name → value = combo.2) ∧
    ((∀ combo ∈ materialCombos, toUppercase combo.1 ≠ name) →
      ∃ combo, comments.find? (fun combo => toUppercase combo.1 = name) = some combo ∧
        value = combo.2)

/-- Each upper-cased name has one line, with the value that conditions see. -/
structure CombosDefined (materialCombos comments : Combos) (out : PreprocessOutput) : Prop where
  valid : ∀ combo ∈ materialCombos ++ comments, isValidComboName (toUppercase combo.1) = true
  defined : ∀ combo ∈ materialCombos ++ comments, ∃ value,
    definesOf (toUppercase combo.1) out.source = [defineLine (toUppercase combo.1) value] ∧
      value = lookup (upperCombos out.combos) (toUppercase combo.1) ∧
      Chosen materialCombos comments (toUppercase combo.1) value

/-! ## The combos -/

section Merge

variable (fromStr : Text → Option Json) (materialCombos : Combos)

theorem get_scrapeLines (lines : List Text) (st : Combos × List UniformMeta) (name : Text) :
    SortedMap.get (lines.foldl (scrapeLine fromStr materialCombos) st).1 name =
      (SortedMap.get st.1 name).or
        (if (SortedMap.get materialCombos name).isSome then none
          else ((lines.filterMap fun line => (Search.after comboMark line).bind
            (comboOf fromStr)).find? (·.1 = name)).map (·.2)) := by
  induction lines generalizing st with
  | nil => simp
  | cons line lines ih =>
    rw [List.foldl_cons, ih]
    cases hmark : Search.after comboMark line with
    | none =>
      have hst : (scrapeLine fromStr materialCombos st line).1 = st.1 := by
        rw [scrapeLine, hmark]
        cases uniformMeta fromStr line <;> rfl
      rw [hst, List.filterMap_cons_none (by rw [hmark]; rfl)]
    | some jsonText =>
      cases hcombo : comboOf fromStr jsonText with
      | none =>
        have hst : scrapeLine fromStr materialCombos st line = st := by
          simp only [scrapeLine, hmark, hcombo]
        rw [hst, List.filterMap_cons_none (by rw [hmark]; exact hcombo)]
      | some combo =>
        rw [List.filterMap_cons_some (by rw [hmark]; exact hcombo), List.find?_cons]
        by_cases hthere : (SortedMap.get materialCombos combo.1).isSome ||
            (SortedMap.get st.1 combo.1).isSome
        · have hst : scrapeLine fromStr materialCombos st line = st := by
            simp only [scrapeLine, hmark, hcombo, if_pos hthere]
          rw [hst]
          by_cases hname : combo.1 = name
          · subst hname
            rcases Bool.or_eq_true_iff.mp hthere with h | h
            · simp [h]
            · obtain ⟨v, hv⟩ := Option.isSome_iff_exists.mp h
              simp [hv]
          · simp [hname]
        · have hst : (scrapeLine fromStr materialCombos st line).1 =
              SortedMap.insert st.1 combo.1 combo.2 := by
            simp only [scrapeLine, hmark, hcombo, if_neg hthere]
          rw [Bool.or_eq_true, not_or] at hthere
          rw [hst, SortedMap.get_insert]
          by_cases hname : combo.1 = name
          · subst hname
            have hst : SortedMap.get st.1 combo.1 = none := by simpa using hthere.2
            simp [hst, hthere.1]
          · simp [hname, Ne.symm hname]

theorem get_mergeCombos (discovered : Combos) (name : Text) :
    SortedMap.get (mergeCombos materialCombos discovered) name =
      (SortedMap.get materialCombos name).or ((discovered.find? (·.1 = name)).map (·.2)) := by
  rw [mergeCombos]
  induction discovered generalizing materialCombos with
  | nil => simp
  | cons combo discovered ih =>
    rw [List.foldl_cons, ih, List.find?_cons]
    by_cases hthere : (SortedMap.get materialCombos combo.1).isSome
    · rw [if_pos hthere]
      by_cases hname : combo.1 = name
      · subst hname
        obtain ⟨v, hv⟩ := Option.isSome_iff_exists.mp hthere
        simp [hv]
      · simp [hname]
    · rw [if_neg hthere, SortedMap.get_insert]
      by_cases hname : combo.1 = name
      · subst hname
        have hnone : SortedMap.get materialCombos combo.1 = none := by simpa using hthere
        simp [hnone]
      · simp [hname, Ne.symm hname]

theorem sorted_mergeCombos {materialCombos : Combos} (h : SortedMap.Sorted materialCombos)
    (discovered : Combos) : SortedMap.Sorted (mergeCombos materialCombos discovered) := by
  rw [mergeCombos]
  induction discovered generalizing materialCombos with
  | nil => exact h
  | cons combo discovered ih =>
    rw [List.foldl_cons]
    split
    · exact ih h
    · exact ih (h.insert combo.1 combo.2)

/-- A combo has the value of the material, or that of its first comment. -/
theorem get_mergedCombos (required name : Text) :
    SortedMap.get (mergedCombos fromStr required materialCombos) name =
      (SortedMap.get materialCombos name).or
        (((comboComments fromStr required).find? (·.1 = name)).map (·.2)) := by
  have hscrape := get_scrapeLines fromStr materialCombos ((splitInclusive required).map lineText)
    ([], []) name
  rw [mergedCombos, get_mergeCombos]
  have hget : SortedMap.get (scrape fromStr required materialCombos).1 name =
      ((scrape fromStr required materialCombos).1.find? (·.1 = name)).map (·.2) := rfl
  rw [← hget, scrape, hscrape]
  cases hmat : SortedMap.get materialCombos name with
  | none => simp [SortedMap.get, comboComments]
  | some v => simp

end Merge

/-! ## Names -/

/-- What holds of the word characters can be tried out. -/
theorem wordChar_induction {P : Char → Prop} (h : ∀ n < 123, isWordChar (Char.ofNat n) = true →
    P (Char.ofNat n)) {c : Char} (hc : isWordChar c = true) : P c := by
  have hlt : c.toNat < 123 := by
    simp only [isWordChar, Char.isAlphanum, Char.isAlpha, Char.isUpper, Char.isLower, Char.isDigit,
      Bool.or_eq_true, Bool.and_eq_true, decide_eq_true_eq, UInt32.le_iff_toNat_le] at hc
    rcases hc with ((⟨-, h⟩ | ⟨-, h⟩) | ⟨-, h⟩) | rfl
    · exact Nat.lt_of_le_of_lt h (by decide)
    · exact Nat.lt_of_le_of_lt h (by decide)
    · exact Nat.lt_of_le_of_lt h (by decide)
    · decide
  have hofNat := h c.toNat hlt
  rw [Char.ofNat_toNat] at hofNat
  exact hofNat hc

theorem isSpace_of_isWordChar {c : Char} (h : isWordChar c = true) : isSpace c = false :=
  wordChar_induction (P := fun c => isSpace c = false) (by decide) h

theorem isWordChar_toUpper {c : Char} (h : isWordChar c = true) : isWordChar c.toUpper = true :=
  wordChar_induction (P := fun c => isWordChar c.toUpper = true) (by decide) h

theorem isWordStart_toUpper {c : Char} (h : isWordStart c = true) : isWordStart c.toUpper = true := by
  have hword : isWordChar c = true := by
    simp only [isWordStart, isWordChar, Char.isAlphanum, Bool.or_eq_true] at h ⊢
    exact h.imp_left .inl
  exact wordChar_induction (P := fun c => isWordStart c = true → isWordStart c.toUpper = true)
    (by decide) hword h

theorem size_of_word {name : Text} (h : ∀ c ∈ name, isWordChar c = true) :
    Utf8.size name = name.length := by
  induction name with
  | nil => rfl
  | cons c name ih =>
    rw [List.forall_mem_cons] at h
    have hc : c.utf8Size = 1 := wordChar_induction (P := fun c => c.utf8Size = 1) (by decide) h.1
    rw [Utf8.size_cons, hc, ih h.2, List.length_cons, Nat.add_comm]

theorem isValidComboName_iff {name : Text} : isValidComboName name = true ↔
    (∃ first rest, name = first :: rest ∧ isWordStart first = true) ∧
      (∀ c ∈ name, isWordChar c = true) ∧ name.length ≤ 64 := by
  cases name with
  | nil => simp [isValidComboName]
  | cons first rest =>
    have hstart : isWordStart first = true → isWordChar first = true := by
      simp only [isWordStart, isWordChar, Char.isAlphanum, Bool.or_eq_true]
      exact Or.imp_left .inl
    have hsize : (∀ c ∈ rest, isWordChar c = true) → isWordStart first = true →
        Utf8.size (first :: rest) = (first :: rest).length := fun hrest hfirst =>
      size_of_word (List.forall_mem_cons.mpr ⟨hstart hfirst, hrest⟩)
    have hstart' : (first.isAlpha || decide (first = '_')) = isWordStart first := rfl
    rw [isValidComboName, hstart', Bool.and_eq_true, Bool.and_eq_true, decide_eq_true_eq,
      List.all_eq_true, List.forall_mem_cons]
    constructor
    · rintro ⟨⟨hfirst, hlen⟩, hrest⟩
      rw [hsize hrest hfirst] at hlen
      exact ⟨⟨first, rest, rfl, hfirst⟩, ⟨hstart hfirst, hrest⟩, hlen⟩
    · rintro ⟨⟨_, _, heq, hfirst⟩, ⟨-, hrest⟩, hlen⟩
      obtain ⟨rfl, rfl⟩ := List.cons.inj heq
      exact ⟨⟨hfirst, hsize hrest hfirst ▸ hlen⟩, hrest⟩

theorem isValidComboName_toUppercase {name : Text} (h : isValidComboName name = true) :
    isValidComboName (toUppercase name) = true := by
  rw [isValidComboName_iff] at h ⊢
  obtain ⟨⟨first, rest, rfl, hfirst⟩, hword, hlen⟩ := h
  refine ⟨⟨first.toUpper, toUppercase rest, rfl, isWordStart_toUpper hfirst⟩, ?_, ?_⟩
  · exact List.forall_mem_map.mpr fun c hc => isWordChar_toUpper (hword c hc)
  · rwa [toUppercase, List.length_map]

/-! ## Lines of macros -/

theorem newline_not_mem_define {name : Text} (h : ∀ c ∈ name, isWordChar c = true) (value : Int) :
    '\n' ∉ "#define ".toList ++ name ++ ' ' :: integerText value := by
  have hname : '\n' ∉ name := fun hmem => absurd (h _ hmem) (by decide)
  have hdigits : ∀ n, '\n' ∉ decimal n := fun n hmem =>
    absurd (Json.isDigit_of_mem_toDigits hmem) (by decide)
  have hvalue : '\n' ∉ integerText value := by
    cases value with
    | ofNat n => exact hdigits n
    | negSucc n => simp [integerText, hdigits]
  simp [hname, hvalue]

theorem definedName_defineLine {name : Text} (h : isValidComboName name = true) (value : Int) :
    definedName (defineLine name value) = some name := by
  obtain ⟨⟨first, rest, rfl, hfirst⟩, hword, -⟩ := isValidComboName_iff.mp h
  have hspace := isSpace_of_isWordChar (hword first List.mem_cons_self)
  have htrim : trimStart (defineLine (first :: rest) value) =
      "#define".toList ++ (' ' :: (first :: rest) ++ ' ' :: integerText value ++ ['\n']) := rfl
  have hlast : (first :: rest ++ ' ' :: integerText value ++ ['\n']).takeWhile isWordChar =
      first :: rest := by
    have htail : (' ' :: integerText value ++ ['\n']).takeWhile isWordChar = [] := rfl
    rw [List.append_assoc, List.takeWhile_append_of_pos hword, htail, List.append_nil]
  have hrest : trimStart (' ' :: (first :: rest) ++ ' ' :: integerText value ++ ['\n']) =
      first :: rest ++ ' ' :: integerText value ++ ['\n'] := by
    rw [trimStart, List.cons_append, List.cons_append, List.dropWhile_cons_of_pos (by decide),
      List.cons_append, List.cons_append, List.dropWhile_cons_of_neg (by simp [hspace])]
  rw [definedName, htrim, stripStart, Format.expect_append, Option.bind_some, hrest, hlast]
  rfl

theorem splitInclusive_define {name : Text} (h : ∀ c ∈ name, isWordChar c = true) (value : Int)
    (rest : Text) :
    splitInclusive (defineLine name value ++ rest) = defineLine name value :: splitInclusive rest := by
  have hline : ∀ text : Text, '\n' ∉ text →
      splitInclusive (text ++ ['\n'] ++ rest) = (text ++ ['\n']) :: splitInclusive rest := by
    intro text hnot
    rw [List.append_assoc]
    exact splitInclusive_line hnot rest
  exact hline ("#define ".toList ++ name ++ ' ' :: integerText value)
    (newline_not_mem_define h value)

theorem splitInclusive_combos {combos : Combos}
    (hvalid : ∀ combo ∈ combos, isValidComboName combo.1 = true) :
    splitInclusive (combos.flatMap comboDefine) = combos.map comboDefine := by
  induction combos with
  | nil => rfl
  | cons combo combos ih =>
    rw [List.forall_mem_cons] at hvalid
    have hword := (isValidComboName_iff.mp (isValidComboName_toUppercase hvalid.1)).2.1
    rw [List.flatMap_cons, List.map_cons, ← ih hvalid.2]
    exact splitInclusive_define hword combo.2 _

/-- The combos are defined by a line each. -/
theorem definesOf_combos {combos : Combos}
    (hvalid : ∀ combo ∈ combos, isValidComboName combo.1 = true) (name : Text) :
    definesOf name (combos.flatMap comboDefine) =
      (combos.filter fun combo => toUppercase combo.1 = name).map comboDefine := by
  rw [definesOf, splitInclusive_combos hvalid, List.filter_map]
  congr 1
  refine List.filter_congr fun combo hcombo => ?_
  have hname := definedName_defineLine (isValidComboName_toUppercase (hvalid combo hcombo)) combo.2
  simp [comboDefine, hname]

theorem definesOf_append {a : Text} (h : endsLine a = true) (name b : Text) :
    definesOf name (a ++ b) = definesOf name a ++ definesOf name b := by
  rw [definesOf, splitInclusive_append h, List.filter_append]
  rfl

/-! ## The text -/

theorem endsLine_linesText {lines : List String} : endsLine (linesText lines) = true :=
  endsLine_flatMap fun line _ => endsLine_concat line.toList '\n'

theorem endsLine_preamble (stage : Stage) (fileLabel : Text) :
    endsLine (preamble stage fileLabel) = true := by
  have hlast : ∀ (a : Text) (lines : List String), lines ≠ [] →
      endsLine (a ++ linesText lines) = true := by
    intro a lines hne
    obtain ⟨init, last, rfl⟩ := (List.eq_nil_or_concat' lines).resolve_left hne
    rw [linesText, List.flatMap_append, List.flatMap_singleton, ← List.append_assoc,
      ← List.append_assoc, endsLine_concat]
    rfl
  exact hlast _ _ (List.cons_ne_nil _ _)

theorem endsLine_combos (combos : Combos) : endsLine (combos.flatMap comboDefine) = true :=
  endsLine_flatMap fun _ _ => endsLine_concat _ '\n'

section Output

variable {fromStr : Text → Option Json} {files : IncludeLookup} {stage : Stage}
  {fileLabel source : Text} {materialCombos : Combos} {materialConstants : List Text}
  {varyingLocations : List (Text × Nat)} {out : PreprocessOutput}

/-- The text that is made, by its parts. -/
theorem preprocess_ok (h : preprocess fromStr files stage fileLabel source materialCombos
      materialConstants varyingLocations = .ok out) :
    (∀ combo ∈ materialCombos, isValidComboName combo.1 = true) ∧
      ∃ required folded, requiredText files source = .ok required ∧
        foldRequired fromStr required materialCombos materialConstants varyingLocations =
          .ok folded ∧
        out.combos = mergedCombos fromStr required materialCombos ∧
        out.source = preamble stage fileLabel ++ out.combos.flatMap comboDefine ++
          postlude stage folded.source := by
  rw [preprocess] at h
  split at h
  · exact nomatch h
  next hnone =>
    refine ⟨fun combo hcombo => by simpa using List.find?_eq_none.mp hnone combo hcombo, ?_⟩
    obtain ⟨required, hrequired, h⟩ := Checks.bind_ok h
    obtain ⟨folded, hfolded, h⟩ := Checks.bind_ok h
    dsimp only at h
    split at h
    · exact nomatch h
    · obtain rfl := Except.ok.inj h
      exact ⟨required, folded, hrequired, hfolded, rfl, rfl⟩

end Output

/-! ## One line for each name -/

/-- The names are apart when upper-cased, and no line around the combos defines one. -/
structure NamesApart (materialCombos comments : Combos) (around : List Text) : Prop where
  spelled : ∀ a ∈ materialCombos ++ comments, ∀ b ∈ materialCombos ++ comments,
    toUppercase a.1 = toUppercase b.1 → a.1 = b.1
  free : ∀ combo ∈ materialCombos ++ comments, ∀ line ∈ around,
    definedName line ≠ some (toUppercase combo.1)

theorem comboComments_valid {fromStr : Text → Option Json} {required : Text} :
    ∀ combo ∈ comboComments fromStr required, isValidComboName combo.1 = true := by
  intro combo hcombo
  obtain ⟨line, -, hline⟩ := List.mem_filterMap.mp hcombo
  obtain ⟨jsonText, -, hjson⟩ := Option.bind_eq_some_iff.mp hline
  rw [comboOf] at hjson
  split at hjson
  · split at hjson
    · split at hjson
      next hvalid =>
        rw [← Option.some.inj hjson]
        exact hvalid
      next => exact nomatch hjson
    · exact nomatch hjson
  · exact nomatch hjson

section Apart

variable {fromStr : Text → Option Json} {materialCombos : Combos} {required : Text}

/-- The combos are those of the material and of the comments. -/
theorem exists_mergedCombos {combo : Text × Int}
    (h : combo ∈ materialCombos ++ comboComments fromStr required) :
    ∃ value, (combo.1, value) ∈ mergedCombos fromStr required materialCombos := by
  have hget := get_mergedCombos fromStr materialCombos required combo.1
  have hsome : (SortedMap.get (mergedCombos fromStr required materialCombos) combo.1).isSome := by
    rw [hget, Option.isSome_or, Bool.or_eq_true]
    rcases List.mem_append.mp h with h | h
    · left
      simp only [SortedMap.get, Option.isSome_map, List.find?_isSome]
      exact ⟨combo, h, decide_eq_true rfl⟩
    · right
      simp only [Option.isSome_map, List.find?_isSome]
      exact ⟨combo, h, decide_eq_true rfl⟩
  obtain ⟨value, hvalue⟩ := Option.isSome_iff_exists.mp hsome
  obtain ⟨entry, hfind, rfl⟩ := Option.map_eq_some_iff.mp hvalue
  have hname : entry.1 = combo.1 := by simpa using List.find?_some hfind
  exact ⟨entry.2, hname ▸ List.mem_of_find?_eq_some hfind⟩

theorem mem_of_mergedCombos (hsorted : SortedMap.Sorted materialCombos) {combo : Text × Int}
    (h : combo ∈ mergedCombos fromStr required materialCombos) :
    ∃ other ∈ materialCombos ++ comboComments fromStr required, other.1 = combo.1 := by
  have hget := (sorted_mergeCombos hsorted _).get_of_mem h
  rw [← mergedCombos, get_mergedCombos] at hget
  rcases Option.or_eq_some_iff.mp hget with hget | ⟨-, hget⟩
  · obtain ⟨entry, hfind, -⟩ := Option.map_eq_some_iff.mp hget
    exact ⟨entry, List.mem_append_left _ (List.mem_of_find?_eq_some hfind),
      by simpa using List.find?_some hfind⟩
  · obtain ⟨entry, hfind, -⟩ := Option.map_eq_some_iff.mp hget
    exact ⟨entry, List.mem_append_right _ (List.mem_of_find?_eq_some hfind),
      by simpa using List.find?_some hfind⟩

end Apart

theorem definesOf_eq_nil {name text : Text} :
    definesOf name text = [] ↔ ∀ line ∈ splitInclusive text, definedName line ≠ some name := by
  simp [definesOf, List.filter_eq_nil_iff]

/-- The lines of a name: those before, those of the combos and those after. -/
theorem definesOf_source {combos : Combos} (hvalid : ∀ combo ∈ combos, isValidComboName combo.1 = true)
    (stage : Stage) (fileLabel folded name : Text) :
    definesOf name (preamble stage fileLabel ++ combos.flatMap comboDefine ++
        postlude stage folded) =
      definesOf name (preamble stage fileLabel) ++
        (combos.filter fun combo => toUppercase combo.1 = name).map comboDefine ++
          definesOf name (postlude stage folded) := by
  have hpre := endsLine_preamble stage fileLabel
  rw [definesOf_append (endsLine_append hpre (endsLine_combos combos)), definesOf_append hpre,
    definesOf_combos hvalid]

/-- The value that conditions see, where no other name is upper-cased to the same. -/
theorem lookup_upperCombos {combos : Combos} {name : Text} {value : Int}
    (hmem : (name, value) ∈ combos)
    (honly : ∀ other ∈ combos, toUppercase other.1 = toUppercase name → other = (name, value)) :
    lookup (upperCombos combos) (toUppercase name) = value := by
  rw [lookup, upperCombos, SortedMap.ofList, SortedMap.get_insertAll]
  cases hfind : (combos.map fun combo => (toUppercase combo.1, combo.2)).reverse.find?
    fun e => e.1 = toUppercase name with
  | none =>
    rw [List.find?_eq_none] at hfind
    refine absurd (decide_eq_true rfl) (hfind (toUppercase name, value) ?_)
    exact List.mem_reverse.mpr (List.mem_map.mpr ⟨_, hmem, rfl⟩)
  | some e =>
    have he := List.mem_reverse.mp (List.mem_of_find?_eq_some hfind)
    obtain ⟨other, hother, rfl⟩ := List.mem_map.mp he
    rw [honly other hother (by simpa using List.find?_some hfind)]
    rfl

section Defined

variable {fromStr : Text → Option Json} {materialCombos : MaterialCombos} {required : Text}
  {stage : Stage} {fileLabel folded : Text} {out : PreprocessOutput}

theorem namesApart_of_defined
    (hmaterial : ∀ combo ∈ materialCombos.1, isValidComboName combo.1 = true)
    (hcombos : out.combos = mergedCombos fromStr required materialCombos.1)
    (hsource : out.source = preamble stage fileLabel ++ out.combos.flatMap comboDefine ++
      postlude stage folded)
    (h : CombosDefined materialCombos.1 (comboComments fromStr required) out) :
    NamesApart materialCombos.1 (comboComments fromStr required)
      (splitInclusive (preamble stage fileLabel) ++ splitInclusive (postlude stage folded)) := by
  have hvalid : ∀ combo ∈ out.combos, isValidComboName combo.1 = true := by
    intro combo hcombo
    obtain ⟨other, hother, heq⟩ := mem_of_mergedCombos materialCombos.2 (hcombos ▸ hcombo)
    rw [← heq]
    exact (List.mem_append.mp hother).elim (hmaterial other) (comboComments_valid other)
  -- one line is left for the name, and the combos have one
  have hone : ∀ combo ∈ materialCombos.1 ++ comboComments fromStr required,
      definesOf (toUppercase combo.1) (preamble stage fileLabel) = [] ∧
        (out.combos.filter fun c => toUppercase c.1 = toUppercase combo.1).length = 1 ∧
          definesOf (toUppercase combo.1) (postlude stage folded) = [] := by
    intro combo hcombo
    obtain ⟨value, hlines, -⟩ := h.defined combo hcombo
    rw [hsource, definesOf_source hvalid] at hlines
    obtain ⟨v, hv⟩ := exists_mergedCombos hcombo
    have hpos : 0 < (out.combos.filter fun c => toUppercase c.1 = toUppercase combo.1).length :=
      List.length_pos_of_mem (List.mem_filter.mpr ⟨hcombos ▸ hv, by simp⟩)
    have hlen := congrArg List.length hlines
    simp only [List.length_append, List.length_map, List.length_singleton] at hlen
    refine ⟨List.length_eq_zero_iff.mp (by omega), by omega,
      List.length_eq_zero_iff.mp (by omega)⟩
  refine ⟨fun a ha b hb heq => ?_, fun combo hcombo => ?_⟩
  · obtain ⟨entry, hentry⟩ := List.length_eq_one_iff.mp (hone b hb).2.1
    obtain ⟨v, hv⟩ := exists_mergedCombos ha
    obtain ⟨w, hw⟩ := exists_mergedCombos hb
    have hva : (a.1, v) ∈ [entry] :=
      hentry ▸ List.mem_filter.mpr ⟨hcombos ▸ hv, decide_eq_true heq⟩
    have hwb : (b.1, w) ∈ [entry] := hentry ▸ List.mem_filter.mpr ⟨hcombos ▸ hw, by simp⟩
    rw [List.mem_singleton] at hva hwb
    exact (Prod.mk.inj (hva.trans hwb.symm)).1
  · obtain ⟨hpre, -, hpost⟩ := hone combo hcombo
    exact List.forall_mem_append.mpr ⟨definesOf_eq_nil.mp hpre, definesOf_eq_nil.mp hpost⟩

theorem defined_of_namesApart
    (hmaterial : ∀ combo ∈ materialCombos.1, isValidComboName combo.1 = true)
    (hcombos : out.combos = mergedCombos fromStr required materialCombos.1)
    (hsource : out.source = preamble stage fileLabel ++ out.combos.flatMap comboDefine ++
      postlude stage folded)
    (h : NamesApart materialCombos.1 (comboComments fromStr required)
      (splitInclusive (preamble stage fileLabel) ++ splitInclusive (postlude stage folded))) :
    CombosDefined materialCombos.1 (comboComments fromStr required) out := by
  have hnames : ∀ combo ∈ out.combos, ∃ other ∈ materialCombos.1 ++ comboComments fromStr required,
      other.1 = combo.1 := fun combo hcombo => mem_of_mergedCombos materialCombos.2 (hcombos ▸ hcombo)
  have hvalid' : ∀ combo ∈ materialCombos.1 ++ comboComments fromStr required,
      isValidComboName combo.1 = true :=
    List.forall_mem_append.mpr ⟨hmaterial, comboComments_valid⟩
  have hvalid : ∀ combo ∈ out.combos, isValidComboName combo.1 = true := by
    intro combo hcombo
    obtain ⟨other, hother, heq⟩ := hnames combo hcombo
    exact heq ▸ hvalid' other hother
  have hsorted : SortedMap.Sorted out.combos := hcombos ▸ sorted_mergeCombos materialCombos.2 _
  refine ⟨fun combo hcombo => isValidComboName_toUppercase (hvalid' combo hcombo),
    fun combo hcombo => ?_⟩
  obtain ⟨value, hvalue⟩ := exists_mergedCombos hcombo
  rw [← hcombos] at hvalue
  -- the only entry with the upper-cased name is that of the combo
  have honly : ∀ other ∈ out.combos, toUppercase other.1 = toUppercase combo.1 →
      other = (combo.1, value) := by
    intro other hother hupper
    obtain ⟨o, ho, hspelled⟩ := hnames other hother
    have hname : other.1 = combo.1 :=
      hspelled ▸ h.spelled o ho combo hcombo (by rw [hspelled, hupper])
    have hother := hsorted.get_of_mem hother
    rw [hname, hsorted.get_of_mem hvalue, Option.some.injEq] at hother
    exact Prod.ext hname hother.symm
  have hmem : (combo.1, value) ∈ out.combos.filter fun c => toUppercase c.1 = toUppercase combo.1 :=
    List.mem_filter.mpr ⟨hvalue, by simp⟩
  have hfilter : (out.combos.filter fun c => toUppercase c.1 = toUppercase combo.1) =
      [(combo.1, value)] := by
    have hnodup : (out.combos.filter fun c => toUppercase c.1 = toUppercase combo.1).Nodup :=
      (List.Nodup.of_map Prod.fst hsorted.nodup_keys).filter _
    have hsingle : [(combo.1, value)].Nodup := List.nodup_singleton _
    refine List.perm_singleton.mp ((List.perm_ext_iff_of_nodup hnodup hsingle).mpr fun other => ?_)
    rw [List.mem_singleton]
    constructor
    · intro hother
      obtain ⟨hother, hupper⟩ := List.mem_filter.mp hother
      exact honly other hother (of_decide_eq_true hupper)
    · rintro rfl
      exact hmem
  have hget : SortedMap.get (mergedCombos fromStr required materialCombos.1) combo.1 = some value :=
    hcombos ▸ hsorted.get_of_mem hvalue
  rw [get_mergedCombos] at hget
  refine ⟨value, ?_, ?_, ?_, ?_⟩
  · obtain ⟨hpre, hpost⟩ := List.forall_mem_append.mp (h.free combo hcombo)
    rw [hsource, definesOf_source hvalid, definesOf_eq_nil.mpr hpre, definesOf_eq_nil.mpr hpost,
      hfilter, List.nil_append, List.append_nil]
    rfl
  · exact (lookup_upperCombos hvalue honly).symm
  · intro other hother hupper
    have hname := h.spelled other (List.mem_append_left _ hother) combo hcombo hupper
    have hother := materialCombos.2.get_of_mem hother
    rw [hname] at hother
    rw [hother, Option.some_or, Option.some.injEq] at hget
    exact hget.symm
  · intro hunset
    have hnone : SortedMap.get materialCombos.1 combo.1 = none := by
      rw [SortedMap.get, Option.map_eq_none_iff, List.find?_eq_none]
      intro other hother heq
      exact hunset other hother (congrArg toUppercase (of_decide_eq_true heq))
    rw [hnone, Option.none_or] at hget
    obtain ⟨first, hfirst, hdefault⟩ := Option.map_eq_some_iff.mp hget
    refine ⟨first, ?_, hdefault.symm⟩
    rw [← hfirst]
    refine List.find?_congr fun other hother => ?_
    have hin : other ∈ materialCombos.1 ++ comboComments fromStr required :=
      List.mem_append_right _ hother
    refine decide_eq_decide.mpr ⟨fun hupper => h.spelled other hin combo hcombo hupper, ?_⟩
    exact congrArg toUppercase

end Defined

/-- The combos of a shader are defined right. -/
def PreprocessedRight (fromStr : Text → Option Json) (files : IncludeLookup) (stage : Stage)
    (fileLabel source : Text) (materialCombos : MaterialCombos) (materialConstants : List Text)
    (varyingLocations : List (Text × Nat)) : Prop :=
  ∀ required out, requiredText files source = .ok required →
    preprocess fromStr files stage fileLabel source materialCombos.1 materialConstants
      varyingLocations = .ok out →
    CombosDefined materialCombos.1 (comboComments fromStr required) out

def casesJson : Text := "\x7b\"combo\":\"FOO\",\"default\":2\x7d".toList

def casesShader : Text := comboMark ++ casesJson ++ "\nvoid main() \x7b\x7d\n".toList

def casesFromStr (text : Text) : Option Json :=
  if text = casesJson then some (.object [("combo", .string "FOO"), ("default", .nat 2)]) else none

def casesMaterial : MaterialCombos := ⟨[("Foo".toList, 1)], List.pairwise_singleton _ _⟩

end Kwe.Shader
