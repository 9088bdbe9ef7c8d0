import Kwe.Shader.Includes

/-!
The lines of a shader with its includes.

* `linesOf_splice`: the lines of the files stand together among those of the shader.
* `includes_right_iff`: when all lines are kept and the size is judged right.
-/

namespace Kwe.Shader

open Foundation

/-! ## What is asked -/

/-- A line that begins as an `#include` line. -/
def isIncludeLine (line : Text) : Bool :=
  (stripStart "#include".toList (trimStart line)).isSome

namespace Block

/-- The lines of a file. -/
def fileLines : Block → List Text
  | kept file => linesOf (ownText file)
  | _ => []

/-- The lines that no file has. -/
def addedLines : Block → List Text
  | opened name => ["// begin of include from file ".toList ++ name]
  | missing name => ["// tried including file ".toList ++ name ++ " but was not found".toList]
  | kept file => if ownText file = [] then [[]] else []
  | closed name => ["// end of included from file ".toList ++ name]

end Block

/-- The text has the lines of the source and of its inclusions, in their orders, and
none that is still an `#include`. -/
structure Faithful (source : Text) (blocks : List Placed) (text : Text) : Prop where
  lines : (linesOf text).Perm
    (linesOf (ownText source) ++ blocks.flatMap fun b => b.2.fileLines ++ b.2.addedLines)
  order : (linesOf (ownText source)).Sublist (linesOf text)
  fileOrder : ∀ b ∈ blocks, b.2.fileLines.Sublist (linesOf text)
  resolved : ∀ line ∈ linesOf text, isIncludeLine line = false

/-- The includes of a source are resolved right. -/
structure Resolved (files : IncludeLookup) (source : Text) : Prop where
  asked : (resolveIncludes (some maxPreprocessedBytes) files source).2.Asked
  faithful : ∀ text, (resolveIncludes (some maxPreprocessedBytes) files source).1 = .ok text →
    ∃ blocks, inclusions files (maxIncludeDepth + 1) source = some blocks ∧
      Faithful source blocks text
  oversize : ∀ bytes limit,
    (resolveIncludes (some maxPreprocessedBytes) files source).1 =
      .error (.sizeExceeded bytes limit) →
    ∀ text, (resolveIncludes none files source).1 = .ok text → maxPreprocessedBytes < Utf8.size text

/-! ## Lines of blocks -/

theorem linesOf_unended {text : Text} (h : endsLine text = false) :
    linesOf (text ++ ['\n']) = linesOf text := by
  induction text using lines_induction with
  | nil => exact nomatch h
  | last s hs hnot =>
    have htake : s.takeWhile (· ≠ '\n') = s :=
      List.takeWhile_eq_self_iff.mpr fun c hc => decide_eq_true (ne_of_mem_of_not_mem hc hnot)
    rw [linesOf_line hnot, linesOf, splitInclusive_last hnot hs, List.map_singleton, htake]
  | line s rest hs ih =>
    rw [endsLine_line] at h
    rw [List.append_assoc, List.cons_append, linesOf, splitInclusive_line hs, List.map_cons]
    rw [linesOf, splitInclusive_line hs, List.map_cons]
    exact congrArg _ (ih h)

theorem linesOf_closeLine (text : Text) :
    linesOf (closeLine text) = linesOf text ++ if text = [] then [[]] else [] := by
  by_cases hnil : text = []
  · subst hnil
    rfl
  rw [if_neg hnil, List.append_nil, closeLine]
  split
  · rfl
  · next hlast =>
    refine linesOf_unended ?_
    rw [endsLine, List.getLast?_eq_some_getLast hnil] at *
    simpa using hlast

theorem endsLine_closeLine (text : Text) : endsLine (closeLine text) = true := by
  rw [closeLine]
  split
  · next hlast => simp [endsLine, hlast]
  · exact endsLine_concat text '\n'

/-- The name of a file is within a line. -/
def Block.Named : Block → Prop
  | .opened name | .missing name | .closed name => '\n' ∉ name
  | .kept _ => True

theorem Block.endsLine_text (b : Block) : endsLine b.text = true := by
  cases b with
  | kept file => exact endsLine_closeLine _
  | opened name | missing name | closed name => exact endsLine_concat _ '\n'

theorem Block.linesOf_text {b : Block} (h : b.Named) :
    linesOf b.text = b.fileLines ++ b.addedLines := by
  cases b with
  | kept file => exact linesOf_closeLine _
  | opened name =>
    refine linesOf_line ?_
    simpa [Named] using h
  | missing name =>
    refine linesOf_line ?_
    simpa [Named] using h
  | closed name =>
    refine linesOf_line ?_
    simpa [Named] using h

theorem linesOf_blocksText {blocks : List Placed} (h : ∀ b ∈ blocks, b.2.Named) :
    linesOf (blocksText blocks) = blocks.flatMap fun b => b.2.fileLines ++ b.2.addedLines := by
  induction blocks with
  | nil => rfl
  | cons b blocks ih =>
    rw [List.forall_mem_cons] at h
    rw [blocksText, List.flatMap_cons, List.flatMap_cons, linesOf_append b.2.endsLine_text,
      b.2.linesOf_text h.1, ← ih h.2]
    rfl

/-! ## Names -/

theorem splitFirst_eq {c : Char} {text a b : Text} (h : splitFirst c text = some (a, b)) :
    text = a ++ c :: b := by
  rw [splitFirst] at h
  split at h
  next hmem =>
    obtain ⟨s, t, rfl, hs⟩ := List.eq_append_cons_of_mem hmem
    have htake : (s ++ c :: t).takeWhile (· ≠ c) = s := by
      rw [List.takeWhile_append_of_pos fun x hx => decide_eq_true (ne_of_mem_of_not_mem hx hs)]
      simp
    have hdrop : (s ++ c :: t).dropWhile (· ≠ c) = c :: t := by
      rw [List.dropWhile_append_of_pos fun x hx => decide_eq_true (ne_of_mem_of_not_mem hx hs)]
      simp
    rw [htake, hdrop, Option.some.injEq, Prod.mk.injEq] at h
    rw [← h.1, ← h.2, List.tail_cons]
  next => exact nomatch h

theorem expect_eq {s text rest : Text} (h : Format.expect s text = some rest) :
    text = s ++ rest := by
  induction s generalizing text with
  | nil => exact Option.some.inj h
  | cons c s ih =>
    cases text with
    | nil => exact nomatch h
    | cons d text =>
      rw [Format.expect] at h
      split at h
      next heq => rw [heq, ih h, List.cons_append]
      next => exact nomatch h

theorem newline_not_mem_dropLast {text line : Text} (h : line ∈ splitInclusive text) :
    '\n' ∉ line.dropLast := by
  obtain ⟨s, hs, rfl | rfl⟩ := line_of_mem h
  · rwa [List.dropLast_concat]
  · exact fun hmem => hs (List.dropLast_subset _ hmem)

/-- The name of a file stands before a `"` of its line. -/
theorem includeName_named {text line name : Text} (h : line ∈ splitInclusive text)
    (hname : includeName line = some name) : '\n' ∉ name := by
  rw [includeName] at hname
  obtain ⟨rest, hrest, hname⟩ := Option.bind_eq_some_iff.mp hname
  rw [extractQuoted] at hname
  obtain ⟨⟨a, quoted⟩, hquoted, hname⟩ := Option.bind_eq_some_iff.mp hname
  obtain ⟨⟨name', b⟩, hb, hname⟩ := Option.bind_eq_some_iff.mp hname
  obtain rfl := Option.some.inj hname
  have hline : line = line.takeWhile isSpace ++ ("#include".toList ++ (a ++ '"' :: name')) ++
      '"' :: b := by
    conv_lhs => rw [← List.takeWhile_append_dropWhile (p := isSpace) (l := line)]
    have htrim : line.dropWhile isSpace = "#include".toList ++ rest := expect_eq hrest
    rw [htrim, splitFirst_eq hquoted, splitFirst_eq hb]
    simp
  have hnot := newline_not_mem_dropLast h
  rw [hline, List.dropLast_append_of_ne_nil (List.cons_ne_nil _ _)] at hnot
  intro hmem
  refine hnot ?_
  simp [hmem]

theorem inclusions_named {files : IncludeLookup} {remaining : Nat} {source : Text}
    {blocks : List Placed} (h : inclusions files remaining source = some blocks) :
    ∀ b ∈ blocks, b.2.Named := by
  induction remaining generalizing source blocks with
  | zero => cases h
  | succ remaining ih =>
    rw [inclusions] at h
    have hlines : ∀ line ∈ splitInclusive source, ∀ name, includeName line = some name →
        '\n' ∉ name := fun line hline name => includeName_named hline
    generalize splitInclusive source = lines at h hlines
    induction lines generalizing blocks with
    | nil =>
      rw [← Option.some.inj h]
      exact fun b hb => absurd hb List.not_mem_nil
    | cons line lines ihl =>
      rw [List.forall_mem_cons] at hlines
      cases hname : includeName line with
      | none =>
        simp only [lineBlocks, hname] at h
        exact ihl h hlines.2
      | some name =>
        simp only [lineBlocks, hname] at h
        obtain ⟨b, hb, h⟩ := Option.bind_eq_some_iff.mp h
        obtain ⟨more, hmore, h⟩ := Option.bind_eq_some_iff.mp h
        rw [← Option.some.inj h]
        have hnot := hlines.1 name hname
        refine List.forall_mem_append.mpr ⟨?_, ihl hmore hlines.2⟩
        cases hfile : files name with
        | none =>
          simp only [fileBlocks, hfile, Option.some.injEq] at hb
          simp [← hb, Block.Named, hnot]
        | some bytes =>
          simp only [fileBlocks, hfile] at hb
          obtain ⟨inner, hinner, hb⟩ := Option.bind_eq_some_iff.mp hb
          have hin := ih hinner
          simp only [← Option.some.inj hb, List.cons_append, List.forall_mem_cons,
            List.forall_mem_append, List.forall_mem_map, deepen]
          exact ⟨hnot, hin, trivial, hnot, fun b hb => absurd hb List.not_mem_nil⟩

/-! ## The text -/

theorem blocksText_eq_nil {blocks : List Placed} (h : blocksText blocks = []) : blocks = [] := by
  cases blocks with
  | nil => rfl
  | cons b blocks =>
    rw [blocksText, List.flatMap_cons, List.append_eq_nil_iff] at h
    have htext := h.1
    cases hb : b.2 with
    | kept file =>
      rw [hb, Block.text, closeLine] at htext
      split at htext
      next hlast =>
        rw [htext] at hlast
        cases hlast
      next => exact absurd htext (List.append_ne_nil_of_right_ne_nil _ (List.cons_ne_nil _ _))
    | opened name | missing name | closed name =>
      rw [hb] at htext
      exact absurd htext (List.append_ne_nil_of_right_ne_nil _ (List.cons_ne_nil _ _))

theorem size_splice (body accumulated : Text) :
    Utf8.size (splice body accumulated) = Utf8.size body + Utf8.size accumulated := by
  rw [splice]
  split
  next hnil => rw [hnil]; rfl
  next =>
    split
    next index _ =>
      have hbody := congrArg Utf8.size (List.take_append_drop index body)
      rw [Utf8.size_append] at hbody ⊢
      rw [Utf8.size_append]
      omega
    next => exact Utf8.size_append _ _

/-- The files have a place: there is a `main` or the last line is ended. -/
def HasPlace (body : Text) : Prop := (findMainToken body).isSome = true ∨ endsLine body = true

/-- The files stand between two parts of the lines. -/
theorem linesOf_splice {body accumulated : Text} (hplace : accumulated = [] ∨ HasPlace body)
    (hacc : endsLine accumulated = true) :
    ∃ a b, linesOf body = a ++ b ∧
      linesOf (splice body accumulated) = a ++ linesOf accumulated ++ b := by
  rw [splice]
  split
  next hnil =>
    exact ⟨linesOf body, [], (List.append_nil _).symm, by simp [hnil, linesOf, splitInclusive]⟩
  next hne =>
    split
    next index hindex =>
      have htake := insertionPoint_line hindex
      refine ⟨linesOf (body.take index), linesOf (body.drop index), ?_, ?_⟩
      · rw [← linesOf_append htake, List.take_append_drop]
      · rw [List.append_assoc, linesOf_append htake, linesOf_append hacc, List.append_assoc]
    next hnone =>
      have hends : endsLine body = true := by
        rcases hplace with hnil | hmain | hends
        · exact absurd hnil hne
        · obtain ⟨pos, hpos⟩ := Option.isSome_iff_exists.mp hmain
          rw [findIncludeInsertionPoint, hpos] at hnone
          cases hnone
        · exact hends
      refine ⟨linesOf body, [], (List.append_nil _).symm, ?_⟩
      rw [linesOf_append hends, List.append_nil]

/-- Without a place a line is lost. -/
theorem length_linesOf_splice {body accumulated : Text} (hne : accumulated ≠ [])
    (hplace : ¬ HasPlace body) : (linesOf (splice body accumulated)).length + 1 =
      (linesOf body).length + (linesOf accumulated).length := by
  rw [HasPlace, not_or] at hplace
  have hnone : findIncludeInsertionPoint body = none := by
    rw [findIncludeInsertionPoint, Option.not_isSome_iff_eq_none.mp hplace.1]
    rfl
  have hglued := length_splitInclusive_glued (Bool.eq_false_iff.mpr hplace.2) hne
  rw [splice, if_neg hne, hnone]
  simpa [linesOf] using hglued

theorem includeLine_added (b : Block) : ∀ line ∈ b.addedLines, isIncludeLine line = false := by
  cases b with
  | kept file =>
    rw [Block.addedLines]
    split
    · simp [isIncludeLine, trimStart, stripStart, Format.expect]
    · exact nofun
  | opened name | missing name | closed name =>
    simp [Block.addedLines, isIncludeLine, trimStart, stripStart, Format.expect, isSpace]

/-- What stays of a text has no line that begins as an `#include` line. -/
def AllQuoted (text : Text) : Prop := ∀ line ∈ linesOf (ownText text), isIncludeLine line = false

/-- All lines of the text and of its files can be kept: every `#include` line names its
file in quotes, and the files have a place. -/
structure Keepable (source : Text) (blocks : List Placed) : Prop where
  quoted : AllQuoted source
  filesQuoted : ∀ level file, (level, .kept file) ∈ blocks → AllQuoted file
  place : blocks = [] ∨ HasPlace (ownText source)

theorem faithful_iff {files : IncludeLookup} {source : Text} {blocks : List Placed}
    (h : inclusions files (maxIncludeDepth + 1) source = some blocks) :
    Faithful source blocks (splice (ownText source) (blocksText blocks)) ↔
      Keepable source blocks := by
  have hnamed := inclusions_named h
  have hlines := linesOf_blocksText hnamed
  have hends : endsLine (blocksText blocks) = true :=
    endsLine_flatMap fun b _ => b.2.endsLine_text
  have hmem : ∀ line, line ∈ linesOf (blocksText blocks) ↔
      ∃ b ∈ blocks, line ∈ b.2.fileLines ∨ line ∈ b.2.addedLines := by
    intro line
    simp [hlines]
  constructor
  · intro hfaith
    have hplace : blocks = [] ∨ HasPlace (ownText source) := by
      by_contra hnot
      rw [not_or] at hnot
      have hlen := length_linesOf_splice (fun hnil => hnot.1 (blocksText_eq_nil hnil)) hnot.2
      have hperm := hfaith.lines.length_eq
      rw [List.length_append, ← hlines] at hperm
      omega
    have hin : ∀ line, line ∈ linesOf (ownText source) ∨ line ∈ linesOf (blocksText blocks) →
        isIncludeLine line = false := by
      intro line hline
      refine hfaith.resolved line (hfaith.lines.mem_iff.mpr ?_)
      rw [← hlines]
      exact List.mem_append.mpr hline
    refine ⟨fun line hline => hin line (.inl hline), fun level file hfile line hline => ?_, hplace⟩
    exact hin line (.inr ((hmem line).mpr ⟨_, hfile, .inl hline⟩))
  · rintro ⟨hquoted, hfiles, hplace⟩
    have hacc : blocksText blocks = [] ∨ HasPlace (ownText source) :=
      hplace.imp_left fun hnil => by rw [hnil]; rfl
    obtain ⟨a, b, hown, htext⟩ := linesOf_splice hacc hends
    have hperm : (linesOf (splice (ownText source) (blocksText blocks))).Perm
        (linesOf (ownText source) ++ linesOf (blocksText blocks)) := by
      rw [htext, hown, List.append_assoc, List.append_assoc]
      exact List.Perm.append_left a List.perm_append_comm
    refine ⟨hlines ▸ hperm, ?_, ?_, ?_⟩
    · rw [htext, hown]
      exact List.Sublist.append (List.sublist_append_left _ _) (List.Sublist.refl b)
    · intro placed hplaced
      rw [htext]
      refine List.Sublist.trans ?_ ((List.sublist_append_right a _).trans
        (List.sublist_append_left _ b))
      rw [hlines]
      obtain ⟨s, t, rfl⟩ := List.append_of_mem hplaced
      rw [List.flatMap_append, List.flatMap_cons]
      exact ((List.sublist_append_left _ _).trans (List.sublist_append_left _ _)).trans
        (List.sublist_append_right _ _)
    · intro line hline
      rcases List.mem_append.mp (hperm.mem_iff.mp hline) with hline | hline
      · exact hquoted line hline
      · obtain ⟨⟨level, block⟩, hb, hfile | hadded⟩ := (hmem line).mp hline
        · cases block with
          | kept file => exact hfiles level file hb line hfile
          | opened name | missing name | closed name => exact nomatch hfile
        · exact includeLine_added block line hadded

/-! ## The size -/

/-- The bytes of the text with its files. -/
def realSize (source : Text) (blocks : List Placed) : Nat :=
  Utf8.size (ownText source) + Utf8.size (blocksText blocks)

/-- A source whose lines can be kept if its size as it is counted is allowed, and
whose size as it is counted is allowed unless its size is not. -/
def Plain (files : IncludeLookup) (source : Text) : Prop :=
  ∀ blocks, inclusions files (maxIncludeDepth + 1) source = some blocks →
    fileCount blocks ≤ maxIncludeCount →
    (countedSize blocks + Utf8.size (ownText source) ≤ maxPreprocessedBytes →
      Keepable source blocks) ∧
    (countedSize blocks + Utf8.size (ownText source) ≤ maxPreprocessedBytes ∨
      maxPreprocessedBytes < realSize source blocks)

theorem within_some {limit bytes : Nat} : Within (some limit) bytes ↔ bytes ≤ limit :=
  ⟨fun h => h limit rfl, fun h _ hl => Option.some.inj hl ▸ h⟩

/-- Where there are few enough files, the size alone decides. -/
theorem resolveIncludes_ok {limit : Option Nat} {files : IncludeLookup} {source : Text}
    {blocks : List Placed} (h : inclusions files (maxIncludeDepth + 1) source = some blocks)
    (hcount : fileCount blocks ≤ maxIncludeCount)
    (hwithin : Within limit (countedSize blocks + Utf8.size (ownText source))) :
    (resolveIncludes limit files source).1 =
      .ok (splice (ownText source) (blocksText blocks)) := by
  rcases resolveIncludes_cases limit files source with ⟨bs, st, hbs, -, -, hres⟩ | ⟨e, st, -, he⟩
  · rw [h, Option.some.injEq] at hbs
    rw [hres, hbs]
  · exact absurd hwithin (he blocks h hcount).1

theorem resolveIncludes_long {limit : Option Nat} {files : IncludeLookup} {source : Text}
    {blocks : List Placed} (h : inclusions files (maxIncludeDepth + 1) source = some blocks)
    (hcount : fileCount blocks ≤ maxIncludeCount)
    (hover : ¬ Within limit (countedSize blocks + Utf8.size (ownText source))) :
    ∃ n l, (resolveIncludes limit files source).1 = .error (.sizeExceeded n l) := by
  rcases resolveIncludes_cases limit files source with
    ⟨bs, st, hbs, -, hwithin, -⟩ | ⟨e, st, hres, he⟩
  · rw [h, Option.some.injEq] at hbs
    exact absurd (hbs ▸ hwithin) hover
  · obtain ⟨-, n, l, rfl⟩ := he blocks h hcount
    exact ⟨n, l, by rw [hres]⟩

/-- **Includes.**  The includes of a source are resolved right just when it is plain. -/
theorem includes_right_iff (files : IncludeLookup) (source : Text) :
    Resolved files source ↔ Plain files source := by
  constructor
  · intro hres blocks hblocks hcount
    by_cases hsize : countedSize blocks + Utf8.size (ownText source) ≤ maxPreprocessedBytes
    · refine ⟨fun _ => ?_, .inl hsize⟩
      obtain ⟨bs, hbs, hfaith⟩ := hres.faithful _
        (resolveIncludes_ok hblocks hcount (within_some.mpr hsize))
      rw [hblocks, Option.some.injEq] at hbs
      subst hbs
      exact (faithful_iff hblocks).mp hfaith
    · refine ⟨fun h => absurd h hsize, .inr ?_⟩
      obtain ⟨n, l, herr⟩ := resolveIncludes_long hblocks hcount (mt within_some.mp hsize)
      have hlong := hres.oversize n l herr _ (resolveIncludes_ok hblocks hcount nofun)
      rwa [size_splice] at hlong
  · intro hplain
    refine ⟨resolveIncludes_asked _ files source, fun text htext => ?_, fun n l herr text htext => ?_⟩
    · rcases resolveIncludes_cases (some maxPreprocessedBytes) files source with
        ⟨bs, st, hbs, hcount, hwithin, hres⟩ | ⟨e, st, hres, -⟩
      · rw [hres, Except.ok.injEq] at htext
        rw [← htext]
        exact ⟨bs, hbs, (faithful_iff hbs).mpr ((hplain bs hbs hcount).1 (within_some.mp hwithin))⟩
      · rw [hres] at htext
        exact nomatch htext
    · rcases resolveIncludes_cases none files source with
        ⟨bs, st, hbs, hcount, -, hres⟩ | ⟨e, st, hres, -⟩
      · rw [hres, Except.ok.injEq] at htext
        rw [← htext, size_splice]
        refine (hplain bs hbs hcount).2.resolve_left fun hsize => ?_
        rw [resolveIncludes_ok hbs hcount (within_some.mpr hsize)] at herr
        exact nomatch herr
      · rw [hres] at htext
        exact nomatch htext

/-! ## A file that is counted twice -/

/-- A file of `n` letters. -/
def letters (n : Nat) : IncludeLookup := fun name =>
  if name = "big.h".toList then some (List.replicate n 0x61) else none

def lettersShader : Text := "#include \"big.h\"\nvoid main() \x7b\x7d\n".toList

theorem decodeLossy_letters (n : Nat) :
    Utf8.decodeLossy (List.replicate n 0x61) = List.replicate n 'a' := by
  induction n with
  | zero => rfl
  | succ n ih =>
    rw [List.replicate_succ, Utf8.decodeLossy_cons, List.replicate_succ]
    exact congrArg (List.cons 'a') ih

theorem size_letters (n : Nat) : Utf8.size (List.replicate n 'a') = n := by
  induction n with
  | zero => rfl
  | succ n ih =>
    rw [List.replicate_succ, Utf8.size_cons, ih]
    exact Nat.add_comm 1 n

theorem splitInclusive_letters (n : Nat) :
    splitInclusive (List.replicate (n + 1) 'a') = [List.replicate (n + 1) 'a'] := by
  refine splitInclusive_last (fun h => ?_) (List.cons_ne_nil _ _)
  exact absurd (List.eq_of_mem_replicate h) (by decide)

theorem includeName_letters (n : Nat) : includeName (List.replicate (n + 1) 'a') = none := by
  simp [includeName, trimStart, stripStart, Format.expect, isSpace, List.replicate_succ]

theorem ownText_letters (n : Nat) :
    ownText (List.replicate (n + 1) 'a') = List.replicate (n + 1) 'a' := by
  simp [ownText, splitInclusive_letters, includeName_letters]

theorem closeLine_letters (n : Nat) :
    closeLine (List.replicate (n + 1) 'a') = List.replicate (n + 1) 'a' ++ ['\n'] := by
  rw [closeLine, List.getLast?_replicate, if_neg (Nat.succ_ne_zero n)]
  rfl

theorem inclusions_letters (n remaining : Nat) :
    inclusions (letters (n + 1)) (remaining + 2) lettersShader =
      some (foundBlocks "big.h".toList (List.replicate (n + 1) 'a') []) := by
  have hlines : splitInclusive lettersShader =
      ["#include \"big.h\"\n".toList, "void main() \x7b\x7d\n".toList] := by decide
  have hfirst : includeName "#include \"big.h\"\n".toList = some "big.h".toList := by decide
  have hsecond : includeName "void main() \x7b\x7d\n".toList = none := by decide
  have hinner : inclusions (letters (n + 1)) (remaining + 1) (List.replicate (n + 1) 'a') =
      some [] := by
    rw [inclusions, splitInclusive_letters]
    simp only [lineBlocks, includeName_letters]
  have hfile : fileBlocks (letters (n + 1)) (inclusions (letters (n + 1)) (remaining + 1))
      "big.h".toList = some (foundBlocks "big.h".toList (List.replicate (n + 1) 'a') []) := by
    have hbig : letters (n + 1) "big.h".toList = some (List.replicate (n + 1) 0x61) := if_pos rfl
    simp only [fileBlocks, hbig, decodeLossy_letters, hinner]
    rfl
  rw [inclusions, hlines]
  simp only [lineBlocks, hfirst, hsecond, hfile, Option.bind_eq_bind, Option.bind_some,
    List.append_nil, Option.pure_def]

/-- A file of 600000 letters is too large, though the text with it has 600087 bytes. -/
theorem includes_counted_twice : ¬ Resolved (letters 600000) lettersShader := by
  intro hres
  have hblocks := inclusions_letters 599999 7
  have hcount : fileCount (foundBlocks "big.h".toList (List.replicate (599999 + 1) 'a') []) ≤
      maxIncludeCount := by
    rw [fileCount_found]
    decide
  have hown : Utf8.size (ownText lettersShader) = 15 := by decide
  have hbegin : Utf8.size (beginLine "big.h".toList) = 36 := by decide
  have hend : Utf8.size (endLine "big.h".toList) = 35 := by decide
  have hletters := size_letters (599999 + 1)
  have hclose : Utf8.size (closeLine (List.replicate (599999 + 1) 'a')) = 600001 := by
    rw [closeLine_letters, Utf8.size_append, hletters]
    rfl
  have hnone : Utf8.size (blocksText []) = 0 := rfl
  obtain ⟨m, l, herr⟩ := @resolveIncludes_long (some maxPreprocessedBytes) _ _ _ hblocks hcount
    (by
      rw [within_some, countedSize_found, ownText_letters, hletters, hclose, hown, hbegin, hend]
      simp [maxPreprocessedBytes])
  have hlong := hres.oversize m l herr _ (resolveIncludes_ok hblocks hcount nofun)
  rw [size_splice, size_found, ownText_letters, hclose, hown, hbegin, hend, hnone] at hlong
  simp [maxPreprocessedBytes] at hlong

end Kwe.Shader
