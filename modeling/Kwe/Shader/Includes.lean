import Kwe.Foundation.Lossy
import Kwe.Foundation.Utf8
import Kwe.Shader.Insertion

/-!
`resolve_includes`: the `#include` lines of a shader are taken out and the files
go in at one place.

`inclusions` says which files a text includes, whatever their size, as the blocks
that come out of them; `resolveIncludes_cases` compares the walk with it.
-/

namespace Kwe.Shader

open Foundation

def maxIncludeDepth : Nat := 8

def maxIncludeCount : Nat := 64

def maxPreprocessedBytes : Nat := 1024 * 1024

/-- What the first two `"` enclose. -/
def extractQuoted (rest : Text) : Option Text := do
  let (_, quoted) ← splitFirst '"' rest
  let (name, _) ← splitFirst '"' quoted
  return name

/-- The file of an `#include` line. -/
def includeName (line : Text) : Option Text := do
  let rest ← stripStart "#include".toList (trimStart line)
  extractQuoted rest

/-- The bytes of a file, if it is found. -/
abbrev IncludeLookup := Text → Option (List UInt8)

structure Collect where
  totalLen : Nat := 0
  includeCount : Nat := 0
  accumulated : Text := []
  /-- The lookups so far, with the depth of the text that asks. -/
  lookups : List (Nat × Text) := []

abbrev Collected (α : Type) := Except PreprocessError α × Collect

def Collect.push (st : Collect) (text : Text) : Collect :=
  { st with accumulated := st.accumulated ++ text }

def beginLine (name : Text) : Text := "// begin of include from file ".toList ++ name ++ ['\n']

def missingLine (name : Text) : Text :=
  "// tried including file ".toList ++ name ++ " but was not found".toList ++ ['\n']

def endLine (name : Text) : Text := "// end of included from file ".toList ++ name ++ ['\n']

/-- The text of a file, with a line break at its end. -/
def closeLine (text : Text) : Text := if text.getLast? = some '\n' then text else text ++ ['\n']

/-- The begin of an `#include` line. -/
def Collect.ask (st : Collect) (depth : Nat) (name : Text) : Collect :=
  { st.push (beginLine name) with
    includeCount := st.includeCount + 1
    lookups := st.lookups ++ [(depth, name)] }

/-- The end of an `#include` line that began at `before` bytes. -/
def Collect.close (st : Collect) (name : Text) (before : Nat) : Collect :=
  let accumulated := st.accumulated ++ endLine name
  { st with
    accumulated := accumulated
    totalLen := st.totalLen + (Utf8.size accumulated - before) }

section Walk

variable (limit : Option Nat) (files : IncludeLookup)

/-- The check of the size, where there is a limit. -/
def checkSize (st : Collect) : Except PreprocessError Unit :=
  match limit with
  | none => .ok ()
  | some limit =>
    if limit < st.totalLen then .error (.sizeExceeded st.totalLen limit) else .ok ()

def closeInclude (name : Text) (before : Nat) (st : Collect) : Collected Unit :=
  let st := st.close name before
  (checkSize limit st, st)

/-- One `#include` line of a text at `depth`; `nested` walks the file. -/
def includeFile (nested : Text → Collect → Collected Text) (depth : Nat) (name : Text)
    (st : Collect) : Collected Unit :=
  if maxIncludeCount < st.includeCount + 1 then
    (.error .tooManyIncludes, { st with includeCount := st.includeCount + 1 })
  else
    let before := Utf8.size st.accumulated
    let st := st.ask depth name
    match files name with
    | none => closeInclude limit name before (st.push (missingLine name))
    | some bytes =>
      match nested (Utf8.decodeLossy bytes) st with
      | (.error e, st) => (.error e, st)
      | (.ok resolved, st) => closeInclude limit name before (st.push (closeLine resolved))

def collectLines (nested : Text → Collect → Collected Text) (depth : Nat) :
    List Text → Collect → Collected Text
  | [], st => (.ok [], st)
  | line :: lines, st =>
    match includeName line with
    | some name =>
      match includeFile limit files nested depth name st with
      | (.error e, st) => (.error e, st)
      | (.ok (), st) => collectLines nested depth lines st
    | none =>
      match collectLines nested depth lines st with
      | (.error e, st) => (.error e, st)
      | (.ok out, st) => (.ok (line ++ out), st)

/-- The walk of a text at a depth from which `remaining` further depths are
allowed, its own included. -/
def collectIncludes : Nat → Text → Collect → Collected Text
  | 0, _, st => (.error .includeDepthExceeded, st)
  | remaining + 1, source, st =>
    match collectLines limit files (collectIncludes remaining) (maxIncludeDepth - remaining)
        (splitInclusive source) st with
    | (.error e, st) => (.error e, st)
    | (.ok out, st) =>
      let st := { st with totalLen := st.totalLen + Utf8.size out }
      match checkSize limit st with
      | .error e => (.error e, st)
      | .ok () => (.ok out, st)

/-- The text with the files put in. -/
def splice (body accumulated : Text) : Text :=
  if accumulated = [] then body
  else
    match findIncludeInsertionPoint body with
    | some index => body.take index ++ accumulated ++ body.drop index
    | none => body ++ accumulated

/-- `resolve_includes`, where the limit of the size may be left out. -/
def resolveIncludes (source : Text) : Collected Text :=
  match collectIncludes limit files (maxIncludeDepth + 1) source {} with
  | (.error e, st) => (.error e, st)
  | (.ok body, st) => (.ok (splice body st.accumulated), st)

end Walk

/-! ## Inclusions -/

/-- The lines of a text that stay. -/
def ownText (text : Text) : Text :=
  ((splitInclusive text).filter fun line => (includeName line).isNone).flatten

/-- What comes out of an inclusion: its first line, the lines that stay of the file
or the note that there is none, and its last line. -/
inductive Block
  | opened (name : Text)
  | missing (name : Text)
  | kept (file : Text)
  | closed (name : Text)

namespace Block

def text : Block → Text
  | opened name => beginLine name
  | missing name => missingLine name
  | kept file => closeLine (ownText file)
  | closed name => endLine name

/-- The bytes that are counted by the file itself. -/
def ownSize : Block → Nat
  | kept file => Utf8.size (ownText file)
  | _ => 0

def isOpened : Block → Bool
  | opened _ => true
  | _ => false

end Block

/-- A block and the number of files it is in. -/
abbrev Placed := Nat × Block

def deepen (b : Placed) : Placed := (b.1 + 1, b.2)

/-- The blocks of a file. -/
def fileBlocks (files : IncludeLookup) (nested : Text → Option (List Placed)) (name : Text) :
    Option (List Placed) :=
  match files name with
  | none => some [(1, .opened name), (1, .missing name), (1, .closed name)]
  | some bytes => do
    let inner ← nested (Utf8.decodeLossy bytes)
    return (1, .opened name) :: inner.map deepen ++
      [(1, .kept (Utf8.decodeLossy bytes)), (1, .closed name)]

def lineBlocks (files : IncludeLookup) (nested : Text → Option (List Placed)) :
    List Text → Option (List Placed)
  | [] => some []
  | line :: lines =>
    match includeName line with
    | none => lineBlocks files nested lines
    | some name => do
      let blocks ← fileBlocks files nested name
      let more ← lineBlocks files nested lines
      return blocks ++ more

/-- The blocks of all files that a text includes, in order, where at most
`remaining` texts are within one another. -/
def inclusions (files : IncludeLookup) : Nat → Text → Option (List Placed)
  | 0, _ => none
  | remaining + 1, source => lineBlocks files (inclusions files remaining) (splitInclusive source)

def blocksText (blocks : List Placed) : Text := blocks.flatMap fun b => b.2.text

def fileCount (blocks : List Placed) : Nat := blocks.countP fun b => b.2.isOpened

/-- The bytes as they are counted: every block once for each file it is in, and
what stays of a file once more. -/
def countedSize (blocks : List Placed) : Nat :=
  (blocks.map fun b => b.1 * Utf8.size b.2.text + b.2.ownSize).sum

/-! ## The walk -/

@[simp] theorem blocksText_append (a b : List Placed) :
    blocksText (a ++ b) = blocksText a ++ blocksText b := by simp [blocksText]

@[simp] theorem fileCount_append (a b : List Placed) :
    fileCount (a ++ b) = fileCount a + fileCount b := by simp [fileCount]

@[simp] theorem countedSize_append (a b : List Placed) :
    countedSize (a ++ b) = countedSize a + countedSize b := by simp [countedSize]

@[simp] theorem blocksText_deepen (blocks : List Placed) :
    blocksText (blocks.map deepen) = blocksText blocks := by simp [blocksText, deepen, List.flatMap_map]

@[simp] theorem fileCount_deepen (blocks : List Placed) :
    fileCount (blocks.map deepen) = fileCount blocks := by
  simp [fileCount, deepen, List.countP_map, Function.comp_def]

theorem size_flatMap (blocks : List Placed) :
    Utf8.size (blocksText blocks) = (blocks.map fun b => Utf8.size b.2.text).sum := by
  induction blocks with
  | nil => rfl
  | cons b blocks ih =>
    rw [blocksText, List.flatMap_cons, Utf8.size_append, List.map_cons, List.sum_cons, ← ih]
    rfl

theorem countedSize_deepen (blocks : List Placed) :
    countedSize (blocks.map deepen) = countedSize blocks + Utf8.size (blocksText blocks) := by
  rw [size_flatMap]
  induction blocks with
  | nil => rfl
  | cons b blocks ih =>
    simp only [countedSize, List.map_cons, List.sum_cons, deepen, Nat.add_mul] at ih ⊢
    omega

/-- The size is not over the limit. -/
def Within (limit : Option Nat) (bytes : Nat) : Prop := ∀ l, limit = some l → bytes ≤ l

theorem Within.mono {limit : Option Nat} {m n : Nat} (h : Within limit n) (hle : m ≤ n) :
    Within limit m := fun l hl => hle.trans (h l hl)

theorem checkSize_cases (limit : Option Nat) (st : Collect) :
    (Within limit st.totalLen ∧ checkSize limit st = .ok ()) ∨
      (¬ Within limit st.totalLen ∧ ∃ l, limit = some l ∧
        checkSize limit st = .error (.sizeExceeded st.totalLen l)) := by
  cases limit with
  | none => exact .inl ⟨nofun, rfl⟩
  | some l =>
    by_cases hlt : l < st.totalLen
    · exact .inr ⟨fun h => absurd (h l rfl) (Nat.not_le.mpr hlt), l, rfl, if_pos hlt⟩
    · refine .inl ⟨fun _ hl => Option.some.inj hl ▸ Nat.not_lt.mp hlt, if_neg hlt⟩

/-- The walk may go on. -/
def Collect.Going (limit : Option Nat) (st : Collect) : Prop :=
  Within limit st.totalLen ∧ st.includeCount ≤ maxIncludeCount

/-- `st'` is `st` after the blocks and `own` bytes of a text. -/
structure Collect.Adds (st : Collect) (blocks : List Placed) (own : Nat) (st' : Collect) :
    Prop where
  totalLen : st'.totalLen = st.totalLen + countedSize blocks + own
  includeCount : st'.includeCount = st.includeCount + fileCount blocks
  accumulated : st'.accumulated = st.accumulated ++ blocksText blocks

/-- The walk of something with the blocks `blocks`: it ends with `out`, or it fails,
and where there are such blocks and few enough files, it is for their size. -/
def Settles {α : Type} (limit : Option Nat) (blocks : Option (List Placed)) (own : Nat) (out : α)
    (st : Collect) (res : Collected α) : Prop :=
  (∃ bs st', blocks = some bs ∧ st.includeCount + fileCount bs ≤ maxIncludeCount ∧
    Within limit st'.totalLen ∧ st.Adds bs own st' ∧ res = (.ok out, st')) ∨
  (∃ e st', res = (.error e, st') ∧ ∀ bs, blocks = some bs →
    st.includeCount + fileCount bs ≤ maxIncludeCount →
      ¬ Within limit (st.totalLen + countedSize bs + own) ∧ ∃ n l, e = .sizeExceeded n l)

theorem closeInclude_settles {limit : Option Nat} {name : Text} {st st' : Collect}
    {blocks : Option (List Placed)} {bs : List Placed} {before : Nat} (hbs : blocks = some bs)
    (hcount : st.includeCount + fileCount bs ≤ maxIncludeCount)
    (hadd : st.Adds bs 0 (st'.close name before)) :
    Settles limit blocks 0 () st (closeInclude limit name before st') := by
  rw [closeInclude]
  rcases checkSize_cases limit (st'.close name before) with ⟨hwithin, hcheck⟩ | ⟨hover, l, -, hcheck⟩
  · exact .inl ⟨bs, _, hbs, hcount, hwithin, hadd, by rw [hcheck]⟩
  · refine .inr ⟨_, _, by rw [hcheck], fun bs' hbs' _ => ⟨?_, _, _, rfl⟩⟩
    rw [hbs, Option.some.injEq] at hbs'
    rw [← hbs', ← hadd.totalLen]
    exact hover

section Walk

variable {limit : Option Nat} (files : IncludeLookup) {walk : Text → Collect → Collected Text}
  {nested : Text → Option (List Placed)}

/-- Every file begins with a block of its own. -/
theorem fileCount_pos {name : Text} {bs : List Placed} (h : fileBlocks files nested name = some bs) :
    0 < fileCount bs := by
  cases hfile : files name with
  | none =>
    simp only [fileBlocks, hfile, Option.some.injEq] at h
    simp [← h, fileCount, Block.isOpened]
  | some bytes =>
    simp only [fileBlocks, hfile] at h
    obtain ⟨inner, -, h⟩ := Option.bind_eq_some_iff.mp h
    simp [← Option.some.inj h, fileCount, Block.isOpened]

/-- The blocks of a file that is found. -/
def foundBlocks (name text : Text) (inner : List Placed) : List Placed :=
  (1, .opened name) :: inner.map deepen ++ [(1, .kept text), (1, .closed name)]

theorem fileCount_found (name text : Text) (inner : List Placed) :
    fileCount (foundBlocks name text inner) = fileCount inner + 1 := by
  simp [foundBlocks, fileCount, Block.isOpened, deepen, List.countP_map, Function.comp_def]

theorem countedSize_found (name text : Text) (inner : List Placed) :
    countedSize (foundBlocks name text inner) = Utf8.size (beginLine name) + (countedSize inner +
      Utf8.size (blocksText inner)) + (Utf8.size (closeLine (ownText text)) +
      Utf8.size (ownText text)) + Utf8.size (endLine name) := by
  rw [← countedSize_deepen]
  simp [foundBlocks, countedSize, Block.text, Block.ownSize]
  omega

theorem blocksText_found (name text : Text) (inner : List Placed) :
    blocksText (foundBlocks name text inner) = beginLine name ++ blocksText inner ++
      closeLine (ownText text) ++ endLine name := by
  simp [foundBlocks, blocksText, Block.text, List.flatMap_map, deepen]

theorem size_found (name text : Text) (inner : List Placed) :
    Utf8.size (blocksText (foundBlocks name text inner)) = Utf8.size (beginLine name) +
      Utf8.size (blocksText inner) + Utf8.size (closeLine (ownText text)) +
      Utf8.size (endLine name) := by
  rw [blocksText_found, Utf8.size_append, Utf8.size_append, Utf8.size_append]

theorem adds_missing (st : Collect) (depth : Nat) (name : Text) :
    st.Adds [(1, .opened name), (1, .missing name), (1, .closed name)] 0
      (((st.ask depth name).push (missingLine name)).close name (Utf8.size st.accumulated)) := by
  constructor
  · simp only [Collect.ask, Collect.close, Collect.push, Utf8.size_append, countedSize, Block.text,
      Block.ownSize, List.map_cons, List.map_nil, List.sum_cons, List.sum_nil]
    omega
  · simp [Collect.ask, Collect.close, Collect.push, fileCount, Block.isOpened]
  · simp [Collect.ask, Collect.close, Collect.push, blocksText, Block.text]

theorem adds_found {st st' : Collect} {depth : Nat} {name text : Text} {inner : List Placed}
    (h : (st.ask depth name).Adds inner (Utf8.size (ownText text)) st') :
    st.Adds (foundBlocks name text inner) 0
      ((st'.push (closeLine (ownText text))).close name (Utf8.size st.accumulated)) := by
  obtain ⟨htotal, hcount, hacc⟩ := h
  constructor
  · rw [countedSize_found]
    simp only [Collect.close, Collect.push, htotal, hacc, Collect.ask, Utf8.size_append]
    omega
  · rw [fileCount_found]
    simp only [Collect.close, Collect.push, hcount, Collect.ask]
    omega
  · rw [blocksText_found]
    simp [Collect.close, Collect.push, hacc, Collect.ask]

theorem includeFile_settles
    (hwalk : ∀ text st, st.Going limit →
      Settles limit (nested text) (Utf8.size (ownText text)) (ownText text) st (walk text st))
    (depth : Nat) (name : Text) {st : Collect} (hst : st.Going limit) :
    Settles limit (fileBlocks files nested name) 0 () st
      (includeFile limit files walk depth name st) := by
  by_cases hmany : maxIncludeCount < st.includeCount + 1
  · rw [includeFile, if_pos hmany]
    refine .inr ⟨_, _, rfl, fun bs hbs hcount => ?_⟩
    have hpos := fileCount_pos files hbs
    omega
  rw [includeFile, if_neg hmany]
  cases hfile : files name with
  | none =>
    refine closeInclude_settles (by rw [fileBlocks, hfile]) ?_ (adds_missing st depth name)
    simp [fileCount, Block.isOpened]
    omega
  | some bytes =>
    have hask : (st.ask depth name).Going limit := ⟨hst.1, Nat.not_lt.mp hmany⟩
    have hblocks : fileBlocks files nested name = (nested (Utf8.decodeLossy bytes)).map
        (foundBlocks name (Utf8.decodeLossy bytes)) := by
      simp only [fileBlocks, hfile, Option.bind_eq_bind, Option.pure_def, foundBlocks,
        Option.map_eq_bind, Function.comp_def]
    rcases hwalk (Utf8.decodeLossy bytes) (st.ask depth name) hask with
      ⟨inner, st', hinner, hcount, -, hadd, hres⟩ | ⟨e, st', hres, he⟩
    · rw [hinner] at hblocks
      simp only [hres]
      refine closeInclude_settles hblocks ?_ (adds_found hadd)
      rw [fileCount_found]
      simp only [Collect.ask] at hcount
      omega
    · simp only [hres]
      refine .inr ⟨e, st', rfl, fun bs hbs hcount => ?_⟩
      rw [hblocks, Option.map_eq_some_iff] at hbs
      obtain ⟨inner, hinner, rfl⟩ := hbs
      rw [fileCount_found] at hcount
      obtain ⟨hover, hsize⟩ := he inner hinner (by simp only [Collect.ask]; omega)
      refine ⟨fun hwithin => hover (hwithin.mono ?_), hsize⟩
      rw [countedSize_found]
      simp only [Collect.ask, Collect.push]
      omega

theorem collectLines_settles
    (hwalk : ∀ text st, st.Going limit →
      Settles limit (nested text) (Utf8.size (ownText text)) (ownText text) st (walk text st))
    (depth : Nat) (lines : List Text) {st : Collect} (hst : st.Going limit) :
    Settles limit (lineBlocks files nested lines) 0
      (lines.filter fun line => (includeName line).isNone).flatten st
      (collectLines limit files walk depth lines st) := by
  induction lines generalizing st with
  | nil =>
    exact .inl ⟨[], st, rfl, hst.2, hst.1, ⟨by simp [countedSize], by simp [fileCount],
      by simp [blocksText]⟩, rfl⟩
  | cons line lines ih =>
    cases hname : includeName line with
    | none =>
      simp only [collectLines, lineBlocks, hname, Option.isNone_none, List.filter_cons_of_pos,
        List.flatten_cons]
      rcases ih hst with ⟨bs, st', hbs, hcount, hwithin, hadd, hres⟩ | ⟨e, st', hres, he⟩
      · simp only [hres]
        exact .inl ⟨bs, st', hbs, hcount, hwithin, hadd, rfl⟩
      · simp only [hres]
        exact .inr ⟨e, st', rfl, he⟩
    | some name =>
      have hown : ((line :: lines).filter fun line => (includeName line).isNone) =
          lines.filter fun line => (includeName line).isNone :=
        List.filter_cons_of_neg (by simp [hname])
      have hblocks : ∀ bs, lineBlocks files nested (line :: lines) = some bs → ∃ b more,
          fileBlocks files nested name = some b ∧ lineBlocks files nested lines = some more ∧
            bs = b ++ more := by
        intro bs hbs
        simp only [lineBlocks, hname] at hbs
        obtain ⟨b, hb, hbs⟩ := Option.bind_eq_some_iff.mp hbs
        obtain ⟨more, hmore, hbs⟩ := Option.bind_eq_some_iff.mp hbs
        exact ⟨b, more, hb, hmore, (Option.some.inj hbs).symm⟩
      rw [hown]
      simp only [collectLines, hname]
      rcases includeFile_settles files hwalk depth name hst with
        ⟨b, st₁, hb, hcount, hwithin, hadd, hres⟩ | ⟨e, st₁, hres, he⟩
      · simp only [hres]
        have hst₁ : st₁.Going limit := ⟨hwithin, by rw [hadd.includeCount]; exact hcount⟩
        have htotal := hadd.totalLen
        have hfiles := hadd.includeCount
        rcases ih hst₁ with ⟨more, st', hmore, hcount, hwithin, hadd', hres⟩ | ⟨e, st', hres, he⟩
        · refine .inl ⟨b ++ more, st', ?_, ?_, hwithin, ⟨?_, ?_, ?_⟩, hres⟩
          · simp only [lineBlocks, hname, hb, hmore]
            rfl
          · rw [fileCount_append]
            omega
          · rw [hadd'.totalLen, htotal, countedSize_append]
            omega
          · rw [hadd'.includeCount, hfiles, fileCount_append, Nat.add_assoc]
          · rw [hadd'.accumulated, hadd.accumulated, blocksText_append, List.append_assoc]
        · refine .inr ⟨e, st', hres, fun bs hbs hcount => ?_⟩
          obtain ⟨b', more, hb', hmore, rfl⟩ := hblocks bs hbs
          rw [hb, Option.some.injEq] at hb'
          subst hb'
          rw [fileCount_append] at hcount
          obtain ⟨hover, hsize⟩ := he more hmore (by omega)
          refine ⟨fun hwithin => hover (hwithin.mono ?_), hsize⟩
          rw [countedSize_append, htotal]
          omega
      · simp only [hres]
        refine .inr ⟨e, st₁, rfl, fun bs hbs hcount => ?_⟩
        obtain ⟨b, more, hb, -, rfl⟩ := hblocks bs hbs
        rw [fileCount_append] at hcount
        obtain ⟨hover, hsize⟩ := he b hb (by omega)
        refine ⟨fun hwithin => hover (hwithin.mono ?_), hsize⟩
        rw [countedSize_append]
        omega

end Walk

/-- What a walk comes to. -/
theorem collectIncludes_settles (limit : Option Nat) (files : IncludeLookup) (remaining : Nat)
    (source : Text) {st : Collect} (hst : st.Going limit) :
    Settles limit (inclusions files remaining source) (Utf8.size (ownText source))
      (ownText source) st (collectIncludes limit files remaining source st) := by
  induction remaining generalizing source st with
  | zero => exact .inr ⟨_, _, rfl, nofun⟩
  | succ remaining ih =>
    rw [collectIncludes]
    rcases collectLines_settles files (fun text st hst => ih text hst) (maxIncludeDepth - remaining)
      (splitInclusive source) hst with
      ⟨bs, st', hbs, hcount, -, ⟨htotal, hfiles, hacc⟩, hres⟩ | ⟨e, st', hres, he⟩
    · simp only [hres]
      have htotal' : st'.totalLen + Utf8.size (ownText source) =
          st.totalLen + countedSize bs + Utf8.size (ownText source) := by omega
      change Settles limit _ _ _ st
        (match checkSize limit { st' with
            totalLen := st'.totalLen + Utf8.size (ownText source) } with
          | .error e => (_, _)
          | .ok () => (.ok (ownText source), _))
      rcases checkSize_cases limit { st' with
        totalLen := st'.totalLen + Utf8.size (ownText source) } with
        ⟨hwithin, hcheck⟩ | ⟨hover, l, -, hcheck⟩
      · rw [hcheck]
        exact .inl ⟨bs, _, hbs, hcount, hwithin, ⟨htotal', hfiles, hacc⟩, rfl⟩
      · rw [hcheck]
        refine .inr ⟨_, _, rfl, fun bs' hbs' _ => ⟨?_, _, _, rfl⟩⟩
        rw [inclusions, hbs, Option.some.injEq] at hbs'
        rw [← hbs', ← htotal']
        exact hover
    · simp only [hres]
      refine .inr ⟨e, st', rfl, fun bs hbs hcount => ?_⟩
      obtain ⟨hover, hsize⟩ := he bs hbs hcount
      exact ⟨fun hwithin => hover (hwithin.mono (Nat.le_add_right _ _)), hsize⟩

/-- **The walk.**  It returns a text where there are such files, few enough, and
their size as it is counted is allowed; and it fails for the size where only that is not. -/
theorem resolveIncludes_cases (limit : Option Nat) (files : IncludeLookup) (source : Text) :
    (∃ bs st, inclusions files (maxIncludeDepth + 1) source = some bs ∧
      fileCount bs ≤ maxIncludeCount ∧
      Within limit (countedSize bs + Utf8.size (ownText source)) ∧
      resolveIncludes limit files source =
        (.ok (splice (ownText source) (blocksText bs)), st)) ∨
    (∃ e st, resolveIncludes limit files source = (.error e, st) ∧
      ∀ bs, inclusions files (maxIncludeDepth + 1) source = some bs →
        fileCount bs ≤ maxIncludeCount →
        ¬ Within limit (countedSize bs + Utf8.size (ownText source)) ∧
          ∃ n l, e = .sizeExceeded n l) := by
  have hstart : ({} : Collect).Going limit := ⟨fun _ _ => Nat.zero_le _, Nat.zero_le _⟩
  rw [resolveIncludes]
  rcases collectIncludes_settles limit files (maxIncludeDepth + 1) source hstart with
    ⟨bs, st, hbs, hcount, hwithin, hadd, hres⟩ | ⟨e, st, hres, he⟩
  · have htotal := hadd.totalLen
    rw [Nat.zero_add] at hcount htotal
    rw [htotal] at hwithin
    refine .inl ⟨bs, st, hbs, hcount, hwithin, ?_⟩
    simp only [hres, hadd.accumulated, List.nil_append]
  · refine .inr ⟨e, st, by simp only [hres], fun bs hbs hcount => ?_⟩
    simpa using he bs hbs (by simpa using hcount)

/-! ## Lookups -/

/-- The lookups are few and not deep. -/
structure Collect.Asked (st : Collect) : Prop where
  counted : st.lookups.length ≤ st.includeCount
  few : st.lookups.length ≤ maxIncludeCount
  depth : ∀ l ∈ st.lookups, l.1 ≤ maxIncludeDepth

theorem asked_ask {st : Collect} (h : st.Asked) {depth : Nat} (hdepth : depth ≤ maxIncludeDepth)
    (hcount : ¬ maxIncludeCount < st.includeCount + 1) (name : Text) :
    (st.ask depth name).Asked := by
  have hlen : (st.ask depth name).lookups.length = st.lookups.length + 1 := by
    simp [Collect.ask]
  have hle := h.counted
  refine ⟨?_, ?_, ?_⟩
  · rw [hlen]
    exact Nat.succ_le_succ hle
  · rw [hlen]
    omega
  · simp only [Collect.ask, List.forall_mem_append, List.forall_mem_singleton]
    exact ⟨h.depth, hdepth⟩

section Asked

variable (limit : Option Nat) (files : IncludeLookup) {walk : Text → Collect → Collected Text}

theorem includeFile_asked (hwalk : ∀ text st, st.Asked → (walk text st).2.Asked) {depth : Nat}
    (hdepth : depth ≤ maxIncludeDepth) (name : Text) {st : Collect} (h : st.Asked) :
    (includeFile limit files walk depth name st).2.Asked := by
  by_cases hmany : maxIncludeCount < st.includeCount + 1
  · rw [includeFile, if_pos hmany]
    exact ⟨h.counted.trans (Nat.le_succ _), h.few, h.depth⟩
  have hask := asked_ask h hdepth hmany name
  rw [includeFile, if_neg hmany]
  cases hfile : files name with
  | none => exact ⟨hask.counted, hask.few, hask.depth⟩
  | some bytes =>
    have hnested := hwalk (Utf8.decodeLossy bytes) (st.ask depth name) hask
    rcases hres : walk (Utf8.decodeLossy bytes) (st.ask depth name) with ⟨_ | resolved, st'⟩
    · simpa only [hres] using hnested
    · rw [hres] at hnested
      simp only [hres]
      exact ⟨hnested.counted, hnested.few, hnested.depth⟩

theorem collectLines_asked (hwalk : ∀ text st, st.Asked → (walk text st).2.Asked) {depth : Nat}
    (hdepth : depth ≤ maxIncludeDepth) (lines : List Text) {st : Collect} (h : st.Asked) :
    (collectLines limit files walk depth lines st).2.Asked := by
  induction lines generalizing st with
  | nil => exact h
  | cons line lines ih =>
    cases hname : includeName line with
    | none =>
      have hlines := ih h
      simp only [collectLines, hname]
      rcases hres : collectLines limit files walk depth lines st with ⟨_ | out, st'⟩
      · simpa only [hres] using hlines
      · simpa only [hres] using hlines
    | some name =>
      have hfile := includeFile_asked limit files hwalk hdepth name h
      simp only [collectLines, hname]
      rcases hres : includeFile limit files walk depth name st with ⟨_ | _, st'⟩
      · simpa only [hres] using hfile
      · rw [hres] at hfile
        exact ih hfile

end Asked

/-- **Lookups.**  At most 64 files are looked up, by texts at most 8 files deep. -/
theorem resolveIncludes_asked (limit : Option Nat) (files : IncludeLookup) (source : Text) :
    (resolveIncludes limit files source).2.Asked := by
  have hwalk : ∀ remaining text st, st.Asked →
      (collectIncludes limit files remaining text st).2.Asked := by
    intro remaining
    induction remaining with
    | zero => exact fun _ _ h => h
    | succ remaining ih =>
      intro text st h
      have hlines := collectLines_asked limit files ih (Nat.sub_le maxIncludeDepth remaining)
        (splitInclusive text) h
      rw [collectIncludes]
      rcases hres : collectLines limit files (collectIncludes limit files remaining)
        (maxIncludeDepth - remaining) (splitInclusive text) st with ⟨_ | out, st'⟩
      · simpa only [hres] using hlines
      · rw [hres] at hlines
        simp only
        split
        · exact ⟨hlines.counted, hlines.few, hlines.depth⟩
        · exact ⟨hlines.counted, hlines.few, hlines.depth⟩
  have hstart : ({} : Collect).Asked := ⟨Nat.le_refl _, Nat.zero_le _, nofun⟩
  have h := hwalk (maxIncludeDepth + 1) source {} hstart
  rw [resolveIncludes]
  rcases hres : collectIncludes limit files (maxIncludeDepth + 1) source {} with ⟨_ | body, st⟩
  · simpa only [hres] using h
  · simpa only [hres] using h

end Kwe.Shader
