import Kwe.Foundation.Percent

/-!
Paths of file URLs without a host, as the URL standard parses them: spaces at the
ends and tabs and line feeds are removed, the path ends at `?` or `#`, a backslash
separates like a slash, the segments `.` and `..` are resolved, a drive letter is
written with `:`, and what may not stand in a path is percent-encoded.

* `serialize_splitOnP`: the segments of a path written again;
* `length_addSegments_le`: parsing a path does not make it longer, and makes it
  shorter if there is a segment `.` or `..`;
* `filePath_eq_iff`: the paths that are read back as they stand in the URL.
-/

namespace Foundation.FileUrl

open Foundation.Percent
open Foundation.Utf8 (encode encode_cons encode_append)

abbrev Segment := List Char

def isControlOrSpace (c : Char) : Bool := c.toNat ≤ 0x20

def isTabOrNewline (c : Char) : Bool := c = '\t' || c = '\n' || c = '\r'

def isSlash (c : Char) : Bool := c = '/' || c = '\\'

/-- The query or the fragment begins. -/
def endsPath (c : Char) : Bool := c = '?' || c = '#'

/-- The path percent-encode set, beside the controls and the characters after `~`:
space, quotation mark, number sign, angle brackets, question mark, caret, grave
accent and braces. -/
def pathSet (c : Char) : Bool :=
  c.toNat < 0x20 || 0x7E < c.toNat ||
    [0x20, 0x22, 0x23, 0x3C, 0x3E, 0x3F, 0x5E, 0x60, 0x7B, 0x7D].contains c.toNat

def isSingleDot (s : Segment) : Bool :=
  [".".toList, "%2e".toList, "%2E".toList].contains s

def isDoubleDot (s : Segment) : Bool :=
  ["..".toList, ".%2e".toList, ".%2E".toList, "%2e.".toList, "%2E.".toList, "%2e%2e".toList,
    "%2e%2E".toList, "%2E%2e".toList, "%2E%2E".toList].contains s

/-- The letter of a drive, spelled with `:` or `|`. -/
def driveLetter : Segment → Option Char
  | [c, d] => if c.isAlpha ∧ (d = ':' ∨ d = '|') then some c else none
  | _ => none

def isNormalizedDrive (s : Segment) : Bool :=
  match s with
  | [c, d] => c.isAlpha && d = ':'
  | _ => false

/-- `..` leaves the last segment; a drive letter alone stays. -/
def shorten (path : List Segment) : List Segment :=
  match path with
  | [s] => if isNormalizedDrive s then [s] else []
  | _ => path.dropLast

/-- The first segment, if it is a drive letter, is written with `:`. -/
def normalDrive (path : List Segment) (s : Segment) : Segment :=
  match path, driveLetter s with
  | [], some c => [c, ':']
  | _, _ => s

/-- A segment of dots that ends the path leaves an empty one. -/
def addSegment (path : List Segment) (last : Bool) (s : Segment) : List Segment :=
  if isDoubleDot s then shorten path ++ (if last then [[]] else [])
  else if isSingleDot s then path ++ (if last then [[]] else [])
  else path ++ [normalDrive path s]

def addSegments (path : List Segment) : List Segment → List Segment
  | [] => path
  | s :: segments => addSegments (addSegment path segments.isEmpty s) segments

def serialize (path : List Segment) : List Char := path.flatMap ('/' :: ·)

/-- Spaces and controls at the ends of the input are no part of the URL. -/
def trim (url : List Char) : List Char := (url.dropWhile isControlOrSpace).rdropWhile isControlOrSpace

/-- The path of a text that begins with `file://` and names no host, as the parsed
URL spells it. -/
def parse (url : List Char) : Option (List Char) :=
  let text := (trim url).filter (!isTabOrNewline ·)
  if "file://".toList.isPrefixOf text then
    match text.drop 7 with
    | c :: rest =>
      if isSlash c then
        let location := rest.takeWhile (!endsPath ·)
        some (encodeText pathSet (serialize (addSegments [] (location.splitOnP isSlash))))
      else none
    | [] => none
  else none

/-- The bytes of the file's name. -/
def filePath (url : List Char) : Option (List UInt8) := (parse url).map (decode <| encode ·)

/-- A path that a URL spells as it is: nothing in it ends the path, is removed or is
read as something else. -/
structure Plain (path : List Char) : Prop where
  kept : ∀ c ∈ path, endsPath c = false ∧ isTabOrNewline c = false ∧ c ≠ '\\'
  unescaped : hasEscape (encode path) = false
  named : ∀ s ∈ path.splitOn '/', s ≠ ['.'] ∧ s ≠ ['.', '.']
  drive : ∀ c more, path.splitOn '/' = [] :: [c, '|'] :: more → c.isAlpha = false

/-! ## Segments -/

/-- A slash for every character that separates segments. -/
def unslash (c : Char) : Char := if isSlash c then '/' else c

/-- The segments of a path written again. -/
theorem serialize_splitOnP (path : List Char) :
    serialize (path.splitOnP isSlash) = '/' :: path.map unslash := by
  induction path with
  | nil => rfl
  | cons c path ih =>
    rw [List.splitOnP_cons_eq_if_modifyHead]
    split
    next hc =>
      simp only [serialize, List.flatMap_cons, List.map_cons] at ih ⊢
      rw [ih, unslash, if_pos hc]
      rfl
    next hc =>
      obtain ⟨s, segments, hs⟩ := List.exists_cons_of_ne_nil
        (List.splitOnP_ne_nil isSlash path)
      rw [hs] at ih ⊢
      simp only [serialize, List.modifyHead_cons, List.flatMap_cons, List.cons_append,
        List.map_cons, List.cons.injEq, true_and] at ih ⊢
      rw [ih, unslash, if_neg hc]
      exact ⟨rfl, rfl⟩

theorem slash_separates : Separates 0x2F := ⟨by decide, by decide⟩

theorem encode_slash (s : Segment) : encode ('/' :: s) = 0x2F :: encode s := rfl

/-- The segments of a path are decoded one by one. -/
theorem decode_serialize (path : List Segment) :
    decode (encode (serialize path)) = path.flatMap fun s => 0x2F :: decode (encode s) := by
  suffices h : ∀ bytes, decode (bytes ++ encode (serialize path)) =
      decode bytes ++ path.flatMap fun s => 0x2F :: decode (encode s) from h []
  induction path with
  | nil => simp [serialize]
  | cons s path ih =>
    intro bytes
    simp only [serialize, List.flatMap_cons] at ih ⊢
    rw [encode_append, encode_slash, List.cons_append, decode_append_cons _ slash_separates,
      ih, List.cons_append]

/-- The bytes of a path when it is read. -/
def weight (path : List Segment) : Nat := (decode (encode (serialize path))).length

@[simp] theorem weight_nil : weight [] = 0 := rfl

theorem weight_append (a b : List Segment) : weight (a ++ b) = weight a + weight b := by
  simp only [weight, decode_serialize, List.flatMap_append, List.length_append]

theorem weight_singleton (s : Segment) : weight [s] = (decode (encode s)).length + 1 := by
  simp only [weight, decode_serialize, List.flatMap_cons, List.flatMap_nil, List.append_nil,
    List.length_cons]

theorem weight_cons (s : Segment) (path : List Segment) :
    weight (s :: path) = weight [s] + weight path := weight_append [s] path

theorem length_pos_of_ne_nil {s : Segment} (h : s ≠ []) : 0 < (decode (encode s)).length := by
  obtain ⟨c, s, rfl⟩ := List.exists_cons_of_ne_nil h
  obtain ⟨b, bytes, hbytes⟩ := List.exists_cons_of_ne_nil (String.utf8EncodeChar_ne_nil (c := c))
  rw [encode_cons, hbytes, List.cons_append]
  exact length_decode_pos _ _

/-- A segment that only says where the path goes. -/
def isDots (s : Segment) : Bool := isDoubleDot s || isSingleDot s

theorem ne_nil_of_isDots {s : Segment} (h : isDots s = true) : s ≠ [] := by
  rintro rfl
  exact absurd h (by decide)

theorem weight_shorten_le (path : List Segment) : weight (shorten path) ≤ weight path := by
  unfold shorten
  split
  next s =>
    split
    · exact Nat.le_refl _
    · exact Nat.zero_le _
  next =>
    rcases List.eq_nil_or_concat path with rfl | ⟨path, s, rfl⟩
    · exact Nat.le_refl _
    · rw [List.concat_eq_append, List.dropLast_concat, weight_append]
      exact Nat.le_add_right _ _

theorem driveLetter_eq_some {s : Segment} {c : Char} (h : driveLetter s = some c) :
    c.isAlpha ∧ (s = [c, ':'] ∨ s = [c, '|']) := by
  unfold driveLetter at h
  split at h
  next c' d =>
    split at h
    next hdrive =>
      obtain rfl := Option.some.inj h
      exact ⟨hdrive.1, hdrive.2.imp (by rintro rfl; rfl) (by rintro rfl; rfl)⟩
    next => exact absurd h (by simp)
  next => exact absurd h (by simp)

/-- Only the spelling of a drive letter changes. -/
theorem normalDrive_eq (path : List Segment) (s : Segment) :
    normalDrive path s = s ∨
      ∃ c, path = [] ∧ c.isAlpha ∧ s = [c, '|'] ∧ normalDrive path s = [c, ':'] := by
  unfold normalDrive
  split
  next c hc =>
    obtain ⟨halpha, rfl | rfl⟩ := driveLetter_eq_some hc
    · exact .inl rfl
    · exact .inr ⟨c, rfl, halpha, rfl, rfl⟩
  next => exact .inl rfl

theorem weight_drive {c : Char} (h : c.isAlpha) {d : Char} (hd : d.toNat < 0x80) :
    weight [[c, d]] = 3 := by
  have hc : c.toNat < 0x80 := by
    simp only [Char.isAlpha, Char.isUpper, Char.isLower, Bool.or_eq_true, Bool.and_eq_true,
      decide_eq_true_eq, UInt32.le_iff_toNat_le] at h
    change (0x41 ≤ c.toNat ∧ c.toNat ≤ 0x5A) ∨ (0x61 ≤ c.toNat ∧ c.toNat ≤ 0x7A) at h
    omega
  rw [weight_singleton, encode_cons, encode_cons, Foundation.Utf8.encodeChar_ascii hc,
    Foundation.Utf8.encodeChar_ascii hd]
  rfl

theorem weight_normalDrive (path : List Segment) (s : Segment) :
    weight [normalDrive path s] = weight [s] := by
  rcases normalDrive_eq path s with h | ⟨c, -, halpha, rfl, h⟩
  · rw [h]
  · rw [h, weight_drive halpha (by decide), weight_drive halpha (by decide)]

theorem size_normalDrive (path : List Segment) (s : Segment) :
    Foundation.Utf8.size (normalDrive path s) = Foundation.Utf8.size s := by
  rcases normalDrive_eq path s with h | ⟨c, -, -, rfl, h⟩
  · rw [h]
  · rw [h]
    rfl

theorem addSegment_of_named {s : Segment} (h : isDots s = false) (path : List Segment)
    (last : Bool) : addSegment path last s = path ++ [normalDrive path s] := by
  obtain ⟨hdouble, hsingle⟩ := Bool.or_eq_false_iff.mp h
  rw [addSegment, hdouble, hsingle]
  rfl

/-- Dots leave at most an empty segment. -/
theorem weight_addSegment_lt {s : Segment} (h : isDots s = true) (path : List Segment)
    (last : Bool) : weight (addSegment path last s) < weight path + weight [s] := by
  have hs := length_pos_of_ne_nil (ne_nil_of_isDots h)
  have hend : weight (if last then [[]] else []) ≤ 1 := by
    cases last
    · exact Nat.zero_le _
    · exact Nat.le_refl _
  have hshorten := weight_shorten_le path
  rw [weight_singleton]
  unfold addSegment
  split
  next =>
    rw [weight_append]
    omega
  next hdouble =>
    rw [if_pos ((Bool.or_eq_true_iff.mp h).resolve_left hdouble), weight_append]
    omega

theorem weight_addSegment_le (path : List Segment) (last : Bool) (s : Segment) :
    weight (addSegment path last s) ≤ weight path + weight [s] := by
  by_cases h : isDots s = true
  · exact Nat.le_of_lt (weight_addSegment_lt h path last)
  · rw [addSegment_of_named (Bool.eq_false_iff.mpr h), weight_append, weight_normalDrive]

/-- Parsing a path does not make it longer. -/
theorem weight_addSegments_le (path segments : List Segment) :
    weight (addSegments path segments) ≤ weight path + weight segments := by
  induction segments generalizing path with
  | nil => exact Nat.le_refl _
  | cons s segments ih =>
    have hadd := weight_addSegment_le path segments.isEmpty s
    have hrest := ih (addSegment path segments.isEmpty s)
    rw [addSegments, weight_cons]
    omega

/-- Dots make it shorter. -/
theorem weight_addSegments_lt {segments : List Segment} (h : ∃ s ∈ segments, isDots s = true)
    (path : List Segment) : weight (addSegments path segments) < weight path + weight segments := by
  induction segments generalizing path with
  | nil => exact absurd h (by simp)
  | cons s segments ih =>
    rw [addSegments, weight_cons]
    by_cases hs : isDots s = true
    · have hadd := weight_addSegment_lt hs path segments.isEmpty
      have hrest := weight_addSegments_le (addSegment path segments.isEmpty s) segments
      omega
    · obtain ⟨s', hmem, hs'⟩ := h
      have hlater : s' ∈ segments := by
        rcases List.mem_cons.mp hmem with rfl | hmem
        · exact absurd hs' hs
        · exact hmem
      have hadd := weight_addSegment_le path segments.isEmpty s
      have hrest := ih ⟨s', hlater, hs'⟩ (addSegment path segments.isEmpty s)
      omega

theorem addSegments_append {path : List Segment} (hpath : path ≠ []) {segments : List Segment}
    (h : ∀ s ∈ segments, isDots s = false) : addSegments path segments = path ++ segments := by
  induction segments generalizing path with
  | nil => exact (List.append_nil path).symm
  | cons s segments ih =>
    obtain ⟨hs, hsegments⟩ := List.forall_mem_cons.mp h
    have hdrive : normalDrive path s = s := by
      rcases normalDrive_eq path s with hdrive | ⟨_, hnil, -⟩
      · exact hdrive
      · exact absurd hnil hpath
    rw [addSegments, addSegment_of_named hs, hdrive, ih (by simp) hsegments]
    simp

/-- Without dots only a drive letter changes. -/
theorem addSegments_cons {s : Segment} {segments : List Segment}
    (h : ∀ s' ∈ s :: segments, isDots s' = false) :
    addSegments [] (s :: segments) = normalDrive [] s :: segments := by
  obtain ⟨hs, hsegments⟩ := List.forall_mem_cons.mp h
  rw [addSegments, addSegment_of_named hs, addSegments_append (by simp) hsegments]
  rfl

/-! ## Paths that are read as they stand -/

theorem isDots_cases {s : Segment} (h : isDots s = true) :
    s = ['.'] ∨ s = ['.', '.'] ∨ hasEscape (encode s) = true := by
  simp only [isDots, isDoubleDot, isSingleDot, Bool.or_eq_true, List.contains_iff_mem,
    List.mem_cons, List.not_mem_nil, or_false] at h
  rcases h with (rfl | rfl | rfl | rfl | rfl | rfl | rfl | rfl | rfl) | rfl | rfl | rfl <;> decide

theorem size_map_unslash (path : List Char) :
    Foundation.Utf8.size (path.map unslash) = Foundation.Utf8.size path := by
  induction path with
  | nil => rfl
  | cons c path ih =>
    have hc : (unslash c).utf8Size = c.utf8Size := by
      unfold unslash
      split
      next h =>
        rcases Bool.or_eq_true_iff.mp h with h | h
        · rw [of_decide_eq_true h]
        · rw [of_decide_eq_true h]
          rfl
      next => rfl
    simp only [List.map_cons, Foundation.Utf8.size_cons, hc, ih]

/-- A path is read in at most as many bytes as it is written. -/
theorem weight_splitOnP_le (path : List Char) :
    weight (path.splitOnP isSlash) ≤ Foundation.Utf8.size path + 1 := by
  have hle := length_decode_le (encode (serialize (path.splitOnP isSlash)))
  have hslash : '/'.utf8Size = 1 := by decide
  rw [Foundation.Utf8.length_encode, serialize_splitOnP, Foundation.Utf8.size_cons,
    size_map_unslash, hslash, Nat.add_comm, ← serialize_splitOnP] at hle
  exact hle

theorem splitOnP_isSlash {path : List Char} (h : ∀ c ∈ path, c ≠ '\\') :
    path.splitOnP isSlash = path.splitOn '/' := by
  induction path with
  | nil => rfl
  | cons c path ih =>
    obtain ⟨hc, hpath⟩ := List.forall_mem_cons.mp h
    have hslash : isSlash c = (c == '/') := by
      simp [isSlash, hc, beq_eq_decide]
    rw [List.splitOn, List.splitOnP_cons_eq_if_modifyHead, List.splitOnP_cons_eq_if_modifyHead,
      hslash, ih hpath, List.splitOn]

theorem encode_infix_serialize {s : Segment} {path : List Segment} (h : s ∈ path) :
    ∃ a b, encode (serialize path) = a ++ (encode s ++ b) := by
  obtain ⟨before, after, rfl⟩ := List.append_of_mem h
  refine ⟨encode (serialize before ++ ['/']), encode (serialize after), ?_⟩
  simp [serialize, encode_append]

theorem hasEscape_of_mem {s : Segment} {path : List Segment} (h : s ∈ path)
    (hs : hasEscape (encode s) = true) : hasEscape (encode (serialize path)) = true := by
  obtain ⟨a, b, hpath⟩ := encode_infix_serialize h
  rw [hpath]
  exact hasEscape_append hs a b

theorem map_unslash_eq_self {path : List Char} (h : ∀ c ∈ path, c ≠ '\\') :
    path.map unslash = path := by
  conv_rhs => rw [← List.map_id path]
  refine List.map_congr_left fun c hc => ?_
  unfold unslash
  split
  next hslash =>
    rcases Bool.or_eq_true_iff.mp hslash with hslash | hslash
    · exact (of_decide_eq_true hslash).symm
    · exact absurd (of_decide_eq_true hslash) (h c hc)
  next => rfl

theorem splitOn_slash_cons (path : List Char) :
    ('/' :: path).splitOn '/' = [] :: path.splitOn '/' := by
  rw [List.splitOn, List.splitOnP_cons_eq_if_modifyHead, if_pos (beq_self_eq_true '/'), List.splitOn]

/-- The segments of a plain path are added as they are. -/
theorem addSegments_of_plain {path : List Char} (h : Plain ('/' :: path)) :
    addSegments [] (path.splitOnP isSlash) = path.splitOnP isSlash := by
  have hkept : ∀ c ∈ path, c ≠ '\\' := fun c hc => (h.kept c (List.mem_cons_of_mem _ hc)).2.2
  have hnamed : ∀ s ∈ path.splitOnP isSlash, isDots s = false := by
    intro s hs
    by_contra hdots
    rcases isDots_cases (eq_true_of_ne_false hdots) with hdot | hdot | hescape
    · rw [splitOnP_isSlash hkept] at hs
      exact (h.named s (splitOn_slash_cons path ▸ List.mem_cons_of_mem _ hs)).1 hdot
    · rw [splitOnP_isSlash hkept] at hs
      exact (h.named s (splitOn_slash_cons path ▸ List.mem_cons_of_mem _ hs)).2 hdot
    · have := hasEscape_of_mem hs hescape
      rw [serialize_splitOnP, map_unslash_eq_self hkept, h.unescaped] at this
      exact absurd this (by simp)
  obtain ⟨s, segments, hsplit⟩ := List.exists_cons_of_ne_nil (List.splitOnP_ne_nil isSlash path)
  rw [hsplit] at hnamed ⊢
  rw [addSegments_cons hnamed]
  rcases normalDrive_eq [] s with hdrive | ⟨c, -, halpha, rfl, -⟩
  · rw [hdrive]
  · rw [splitOnP_isSlash hkept] at hsplit
    have := h.drive c segments (by rw [splitOn_slash_cons, hsplit])
    exact absurd halpha (by simp [this])

/-- A plain path is read as it stands. -/
theorem read_of_plain {path : List Char} (h : Plain ('/' :: path)) :
    decode (encode (serialize (addSegments [] (path.splitOnP isSlash)))) = encode ('/' :: path) := by
  have hkept : ∀ c ∈ path, c ≠ '\\' := fun c hc => (h.kept c (List.mem_cons_of_mem _ hc)).2.2
  rw [addSegments_of_plain h, serialize_splitOnP, map_unslash_eq_self hkept,
    decode_eq_self h.unescaped]

theorem size_le_of_sublist {a b : List Char} (h : a.Sublist b) :
    Foundation.Utf8.size a ≤ Foundation.Utf8.size b := by
  induction h with
  | slnil => exact Nat.le_refl _
  | cons c _ ih => exact Nat.le_trans ih (Nat.le_add_left _ _)
  | cons_cons c _ ih => exact Nat.add_le_add_left ih _

theorem eq_of_sublist_of_size_le {a b : List Char} (h : a.Sublist b)
    (hsize : Foundation.Utf8.size b ≤ Foundation.Utf8.size a) : a = b := by
  induction h with
  | slnil => rfl
  | cons c hab ih =>
    have hle := size_le_of_sublist hab
    have hpos := Char.utf8Size_pos c
    rw [Foundation.Utf8.size_cons] at hsize
    omega
  | cons_cons c _ ih =>
    rw [Foundation.Utf8.size_cons, Foundation.Utf8.size_cons] at hsize
    rw [ih (by omega)]

/-- A path that is read as a text is that text, and plain. -/
theorem plain_of_read {location path : List Char} (hsub : location.Sublist path)
    (h : decode (encode (serialize (addSegments [] (location.splitOnP isSlash)))) =
      encode ('/' :: path)) :
    location = path ∧ hasEscape (encode ('/' :: path)) = false ∧ (∀ c ∈ path, c ≠ '\\') ∧
      (∀ s ∈ path.splitOn '/', s ≠ ['.'] ∧ s ≠ ['.', '.']) ∧
      ∀ c more, path.splitOn '/' = [c, '|'] :: more → c.isAlpha = false := by
  have hlength : weight (addSegments [] (location.splitOnP isSlash)) =
      Foundation.Utf8.size path + 1 := by
    rw [weight, h, Foundation.Utf8.length_encode, Foundation.Utf8.size_cons, Nat.add_comm]
    rfl
  have hadd := weight_addSegments_le [] (location.splitOnP isSlash)
  have hsplit := weight_splitOnP_le location
  have hsize := size_le_of_sublist hsub
  rw [weight_nil, Nat.zero_add] at hadd
  obtain rfl : location = path := eq_of_sublist_of_size_le hsub (by omega)
  -- nothing was lost on the way, so there were no dots and no escapes
  have hnamed : ∀ s ∈ location.splitOnP isSlash, isDots s = false := by
    intro s hs
    by_contra hdots
    have := weight_addSegments_lt ⟨s, hs, eq_true_of_ne_false hdots⟩ []
    rw [weight_nil] at this
    omega
  obtain ⟨s, segments, hfirst⟩ := List.exists_cons_of_ne_nil (List.splitOnP_ne_nil isSlash location)
  have hserialize := serialize_splitOnP location
  rw [hfirst] at hnamed h hlength hserialize
  rw [addSegments_cons hnamed] at h hlength
  have hwritten : Foundation.Utf8.size (serialize (normalDrive [] s :: segments)) =
      Foundation.Utf8.size location + 1 := by
    have := congrArg Foundation.Utf8.size hserialize
    simp only [serialize, List.flatMap_cons, List.cons_append, Foundation.Utf8.size_cons,
      Foundation.Utf8.size_append, size_map_unslash, size_normalDrive] at this ⊢
    rw [this, Nat.add_comm]
    rfl
  have hread : hasEscape (encode (serialize (normalDrive [] s :: segments))) = false := by
    rw [← length_decode_eq_iff, Foundation.Utf8.length_encode, hwritten]
    exact hlength
  rw [decode_eq_self hread] at h
  have hpath := Foundation.Utf8.encode_injective h
  rcases normalDrive_eq [] s with hdrive | ⟨c, -, -, rfl, hdrive⟩
  · rw [hdrive, hserialize, List.cons.injEq, eq_self, true_and] at hpath
    have hkept : ∀ c ∈ location, c ≠ '\\' := by
      rintro _ hc rfl
      rw [← List.map_id location, List.map_map, List.map_inj_left] at hpath
      exact absurd (hpath _ hc) (by decide)
    have hsegments := splitOnP_isSlash hkept
    refine ⟨rfl, ?_, hkept, ?_, ?_⟩
    · rw [← h]
      exact hread
    · intro s' hs'
      have := hnamed s' (by rw [← hfirst, hsegments]; exact hs')
      constructor <;> rintro rfl <;> exact absurd this (by decide)
    · intro c more hmore
      rw [← hsegments, hfirst] at hmore
      obtain ⟨rfl, -⟩ := List.cons.inj hmore
      by_contra halpha
      have hletter : normalDrive [] [c, '|'] = [c, ':'] := by
        simp [normalDrive, driveLetter, eq_true_of_ne_false halpha]
      rw [hletter] at hdrive
      exact absurd hdrive (by simp)
  · -- the drive letter would be spelled with `:` in the path, and with `|`
    rw [hdrive] at hpath
    simp only [serialize, List.flatMap_cons, List.cons_append, List.cons.injEq, true_and,
      List.nil_append] at hpath hserialize
    rw [← hpath] at hserialize
    simp only [List.map_cons, List.cons.injEq] at hserialize
    exact absurd hserialize.2.1 (by decide)

/-! ## URLs -/

theorem trim_eq_self {url : List Char}
    (hhead : ∀ c, url.head? = some c → isControlOrSpace c = false)
    (hlast : ∀ c, url.getLast? = some c → isControlOrSpace c = false) : trim url = url := by
  have hdrop : url.dropWhile isControlOrSpace = url := by
    cases url with
    | nil => rfl
    | cons c url => rw [List.dropWhile_cons, hhead c rfl, if_neg Bool.false_ne_true]
  rw [trim, hdrop, List.rdropWhile_eq_self_iff]
  intro hne
  rw [hlast _ (List.getLast?_eq_some_getLast hne)]
  exact Bool.false_ne_true

theorem parse_page {path : List Char}
    (hlast : ∀ c, path.getLast? = some c → isControlOrSpace c = false) :
    parse ("file:///".toList ++ path) = some (encodeText pathSet (serialize (addSegments []
      (((path.filter (!isTabOrNewline ·)).takeWhile (!endsPath ·)).splitOnP isSlash)))) := by
  have htrim : trim ("file:///".toList ++ path) = "file:///".toList ++ path := by
    refine trim_eq_self (by rintro _ ⟨⟩; rfl) fun c hc => ?_
    rcases List.eq_nil_or_concat path with rfl | ⟨path, d, rfl⟩
    · cases hc
      rfl
    · refine hlast c ?_
      rw [List.concat_eq_append] at hc ⊢
      rw [← List.append_assoc, List.getLast?_concat] at hc
      rw [List.getLast?_concat, hc]
  have hfilter : ("file:///".toList ++ path).filter (!isTabOrNewline ·) =
      "file:///".toList ++ path.filter (!isTabOrNewline ·) := by
    rw [List.filter_append]
    rfl
  rw [parse, htrim, hfilter]
  rfl

theorem pathSet_separates {c : Char} (h : pathSet c = true) : SeparatesChar c := by
  refine separatesChar_of fun hc => ?_
  have hb : (UInt8.ofNat c.toNat).toNat = c.toNat := by
    rw [UInt8.toNat_ofNat']
    omega
  simp only [pathSet, Bool.or_eq_true, decide_eq_true_eq, List.contains_iff_mem, List.mem_cons,
    List.not_mem_nil, or_false] at h
  constructor
  · rw [Ne, ← UInt8.toNat_inj, hb]
    simp only [UInt8.reduceToNat]
    omega
  · simp only [hexValue, UInt8.le_iff_toNat_le, hb, UInt8.reduceToNat]
    rw [if_neg (by omega), if_neg (by omega), if_neg (by omega)]

/-- The paths that a URL spells as they are. -/
theorem filePath_eq_iff {path : List Char}
    (hlast : ∀ c, path.getLast? = some c → isControlOrSpace c = false) :
    filePath ("file:///".toList ++ path) = some (encode ('/' :: path)) ↔ Plain ('/' :: path) := by
  rw [filePath, parse_page hlast, Option.map_some, Option.some.injEq,
    decode_encodeText fun _ => pathSet_separates]
  constructor
  · intro h
    obtain ⟨hall, hescape, hkept, hnamed, hdrive⟩ := plain_of_read
      ((List.takeWhile_sublist _).trans List.filter_sublist) h
    refine ⟨?_, hescape, ?_, ?_⟩
    · intro c hc
      rcases List.mem_cons.mp hc with rfl | hc
      · decide
      · have hmem := hall ▸ hc
        have hfilter := (List.takeWhile_sublist _).subset hmem
        exact ⟨by simpa using List.mem_takeWhile_imp hmem,
          by simpa using (List.mem_filter.mp hfilter).2, hkept c hc⟩
    · rw [splitOn_slash_cons]
      exact List.forall_mem_cons.mpr ⟨by simp, hnamed⟩
    · intro c more hmore
      rw [splitOn_slash_cons] at hmore
      exact hdrive c more (List.cons.inj hmore).2
  · intro h
    have hkept := fun c hc => h.kept c (List.mem_cons_of_mem '/' hc)
    have hfilter : path.filter (!isTabOrNewline ·) = path :=
      List.filter_eq_self.mpr fun c hc => by simp [(hkept c hc).2.1]
    have htake : path.takeWhile (!endsPath ·) = path :=
      List.takeWhile_eq_self_iff.mpr fun c hc => by simp [(hkept c hc).1]
    rw [hfilter, htake]
    exact read_of_plain h

end Foundation.FileUrl
