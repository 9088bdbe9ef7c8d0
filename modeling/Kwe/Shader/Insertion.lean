import Kwe.Shader.Lines

/-!
`find_include_insertion_point`: where the included files go in a shader.

All that is looked for is ASCII, so a place is the number of characters before it.

* `insertionPoint_line`: the place is the start of a line.
-/

namespace Kwe.Shader

/-! ## The entry point -/

/-- What `find_main_token` reads. -/
inductive Region
  | code
  | line
  | block
  deriving DecidableEq, Repr

/-- No character of a word. -/
def boundary (c : Option Char) : Bool := c.all fun c => !isWordChar c

/-- Spaces or tabs and a `(`. -/
def opensCall (rest : Text) : Bool :=
  (rest.dropWhile fun c => c = ' ' || c = '\t').head? = some '('

/-- The scan for `main`, `i` characters into the text: `skip` characters are
already read, `before` is the character just passed. -/
def mainFrom : Region → Nat → Option Char → Nat → Text → Option Nat
  | _, _, _, _, [] => none
  | region, skip + 1, _, i, c :: rest => mainFrom region skip (some c) (i + 1) rest
  | .line, 0, _, i, c :: rest =>
    mainFrom (if c = '\n' then .code else .line) 0 (some c) (i + 1) rest
  | .block, 0, _, i, c :: rest =>
    if ['*', '/'].isPrefixOf (c :: rest) then mainFrom .code 1 (some c) (i + 1) rest
    else mainFrom .block 0 (some c) (i + 1) rest
  | .code, 0, before, i, c :: rest =>
    if ['/', '/'].isPrefixOf (c :: rest) then mainFrom .line 1 (some c) (i + 1) rest
    else if ['/', '*'].isPrefixOf (c :: rest) then mainFrom .block 1 (some c) (i + 1) rest
    else if ['m', 'a', 'i', 'n'].isPrefixOf (c :: rest) then
      let after := rest.drop 3
      if boundary before && boundary after.head? && opensCall after then some i
      else mainFrom .code 3 (some c) (i + 1) rest
    else mainFrom .code 0 (some c) (i + 1) rest

def findMainToken (body : Text) : Option Nat := mainFrom .code 0 none 0 body

/-! ## The place -/

def lineStart (body : Text) (pos : Nat) : Nat := ((body.take pos).rdropWhile (· ≠ '\n')).length

/-- After the line of `pos`. -/
def lineEnd (body : Text) (pos : Nat) : Nat :=
  min body.length (pos + ((body.drop pos).takeWhile (· ≠ '\n')).length + 1)

/-- `rfind`. -/
def rfind (pattern text : Text) : Option Nat :=
  ((List.range (text.length + 1)).filter fun i => pattern.isPrefixOf (text.drop i)).getLast?

/-- The walk over the `#if`s and `#endif`s, `i` characters into the body.  No such
mark begins inside of another, so the walk goes on at the next character. -/
def moveFrom (body : Text) : Nat → List Nat → Nat → Text → Nat
  | _, _, point, [] => point
  | i, stack, point, c :: rest =>
    if ['#', 'i', 'f'].isPrefixOf (c :: rest) then moveFrom body (i + 1) (i :: stack) point rest
    else if ['#', 'e', 'n', 'd', 'i', 'f'].isPrefixOf (c :: rest) then
      match stack with
      | [] => moveFrom body (i + 1) [] point rest
      | start :: stack =>
        moveFrom body (i + 1) stack
          (if start < point ∧ point ≤ i then lineStart body start else point) rest
    else moveFrom body (i + 1) stack point rest

def movePointOutsideConditionals (body : Text) (point : Nat) : Nat :=
  moveFrom body 0 [] point body

def keywords : List Text := ["attribute".toList, "varying".toList, "uniform".toList]

/-- After the line of the last keyword before `main`. -/
def declaredLineEnd (body : Text) (mainPos : Nat) : Option Nat :=
  (keywords.filterMap fun keyword => rfind keyword (body.take mainPos)).max?.map (lineEnd body)

def findIncludeInsertionPoint (body : Text) : Option Nat := do
  let mainPos ← findMainToken body
  let mainLineStart := lineStart body mainPos
  let point := (declaredLineEnd body mainPos).getD mainLineStart
  return min (movePointOutsideConditionals body point) mainLineStart

example : findIncludeInsertionPoint "uniform float a;\n// main()\nvoid main() \x7b\x7d".toList =
    some 17 := by decide +kernel

/-! ## Starts of lines -/

theorem lineStart_le (body : Text) (pos : Nat) : lineStart body pos ≤ min pos body.length := by
  have h := (List.rdropWhile_prefix (· ≠ '\n') (l := body.take pos)).length_le
  simpa [lineStart] using h

theorem take_lineStart (body : Text) (pos : Nat) :
    body.take (lineStart body pos) = (body.take pos).rdropWhile (· ≠ '\n') := by
  have hpre : (body.take pos).rdropWhile (· ≠ '\n') <+: body :=
    (List.rdropWhile_prefix _ _).trans (List.take_prefix pos body)
  exact (List.prefix_iff_eq_take.mp hpre).symm

theorem endsLine_lineStart (body : Text) (pos : Nat) :
    endsLine (body.take (lineStart body pos)) = true := by
  rw [take_lineStart]
  by_cases hnil : (body.take pos).rdropWhile (· ≠ '\n') = []
  · rw [hnil]
    rfl
  · have hlast := List.rdropWhile_last_not (· ≠ '\n') (body.take pos) hnil
    rw [endsLine, List.getLast?_eq_some_getLast hnil]
    simpa using hlast

theorem rdropWhile_append_of_endsLine {s : Text} (hs : endsLine s = true) (t : Text) :
    s <+: (s ++ t).rdropWhile (· ≠ '\n') := by
  induction t using List.reverseRecOn with
  | nil =>
    have hself : s.rdropWhile (· ≠ '\n') = s := by
      refine List.rdropWhile_eq_self_iff.mpr fun hne => ?_
      rw [endsLine, List.getLast?_eq_some_getLast hne] at hs
      simpa using hs
    exact ⟨[], by rw [List.append_nil, hself]⟩
  | append_singleton t c ih =>
    rw [← List.append_assoc, List.rdropWhile_concat]
    split
    · exact ih
    · exact (List.prefix_append s t).trans (List.prefix_append _ [c])

/-- The start of the line is the last one up to the position. -/
theorem le_lineStart {body : Text} {q pos : Nat} (hq : endsLine (body.take q) = true)
    (hlen : q ≤ body.length) (hle : q ≤ pos) : q ≤ lineStart body pos := by
  have hsplit : body.take pos = body.take q ++ (body.take pos).drop q := by
    have h := List.take_append_drop q (body.take pos)
    rw [List.take_take, Nat.min_eq_left hle] at h
    exact h.symm
  have hpre := (rdropWhile_append_of_endsLine hq ((body.take pos).drop q)).length_le
  rw [← hsplit, List.length_take, Nat.min_eq_left hlen] at hpre
  exact hpre

/-- Two positions of a line have the same start. -/
theorem lineStart_eq {body : Text} {s t : Nat} (hstart : lineStart body t ≤ s) (hle : s ≤ t) :
    lineStart body s = lineStart body t := by
  have hs := lineStart_le body s
  have ht := lineStart_le body t
  refine Nat.le_antisymm ?_ ?_
  · exact le_lineStart (endsLine_lineStart body s) (by omega) (by omega)
  · exact le_lineStart (endsLine_lineStart body t) (by omega) hstart

theorem endsLine_lineEnd (body : Text) (pos : Nat) :
    lineEnd body pos = body.length ∨ endsLine (body.take (lineEnd body pos)) = true := by
  have hsplit := List.takeWhile_append_dropWhile (p := (· ≠ '\n')) (l := body.drop pos)
  cases hrest : (body.drop pos).dropWhile (· ≠ '\n') with
  | nil =>
    rw [hrest, List.append_nil] at hsplit
    have hlen := congrArg List.length hsplit
    rw [List.length_drop] at hlen
    exact .inl (Nat.min_eq_left (by omega))
  | cons c more =>
    right
    have hc : c = '\n' := by
      have hne : (body.drop pos).dropWhile (· ≠ '\n') ≠ [] := by simp only [hrest]; exact nofun
      have h := List.head_dropWhile_not (· ≠ '\n') hne
      simp only [hrest, List.head_cons, decide_eq_false_iff_not, not_not] at h
      exact h
    rw [hrest, hc] at hsplit
    have hlen := congrArg List.length hsplit
    simp only [List.length_append, List.length_cons, List.length_drop] at hlen
    have htake : body.take (pos + ((body.drop pos).takeWhile (· ≠ '\n')).length + 1) =
        body.take pos ++ ((body.drop pos).takeWhile (· ≠ '\n') ++ ['\n']) := by
      generalize (body.drop pos).takeWhile (· ≠ '\n') = seg at hsplit ⊢
      rw [Nat.add_assoc, List.take_add, ← hsplit, List.take_length_add_append, List.take_one]
      rfl
    rw [lineEnd, Nat.min_eq_right (by omega), htake, endsLine, ← List.append_assoc,
      List.getLast?_concat]
    rfl

/-- The walk leaves the point where it is or moves it to the start of a line. -/
theorem moveFrom_cases (body : Text) (i : Nat) (stack : List Nat) (point : Nat) (rest : Text) :
    moveFrom body i stack point rest = point ∨
      ∃ start, moveFrom body i stack point rest = lineStart body start := by
  induction rest generalizing i stack point with
  | nil => exact .inl rfl
  | cons c rest ih =>
    unfold moveFrom
    split
    · exact ih _ _ _
    · split
      · cases stack with
        | nil => exact ih _ _ _
        | cons start stack =>
          dsimp only
          by_cases hin : start < point ∧ point ≤ i
          · rw [if_pos hin]
            rcases ih (i + 1) stack (lineStart body start) with h | h
            · exact .inr ⟨start, h⟩
            · exact .inr h
          · rw [if_neg hin]
            exact ih _ _ _
      · exact ih _ _ _

/-- **The place of the included files.**  It is the start of a line. -/
theorem insertionPoint_line {body : Text} {place : Nat}
    (h : findIncludeInsertionPoint body = some place) : endsLine (body.take place) = true := by
  simp only [findIncludeInsertionPoint, Option.bind_eq_bind, Option.pure_def] at h
  obtain ⟨mainPos, -, h⟩ := Option.bind_eq_some_iff.mp h
  rw [← Option.some.inj h]
  have hmain := endsLine_lineStart body mainPos
  have hpoint : (declaredLineEnd body mainPos).getD (lineStart body mainPos) = body.length ∨
      endsLine (body.take ((declaredLineEnd body mainPos).getD (lineStart body mainPos))) =
        true := by
    cases hend : declaredLineEnd body mainPos with
    | none => exact .inr hmain
    | some e =>
      obtain ⟨pos, -, rfl⟩ := Option.map_eq_some_iff.mp hend
      exact endsLine_lineEnd body pos
  have hle := lineStart_le body mainPos
  rcases Nat.le_total (movePointOutsideConditionals body
    ((declaredLineEnd body mainPos).getD (lineStart body mainPos))) (lineStart body mainPos)
    with hmin | hmin
  · rw [Nat.min_eq_left hmin]
    rcases moveFrom_cases body 0 [] ((declaredLineEnd body mainPos).getD (lineStart body mainPos))
      body with h | ⟨start, h⟩
    · rw [movePointOutsideConditionals, h] at hmin ⊢
      rcases hpoint with hfull | hline
      · have heq : lineStart body mainPos = body.length := by omega
        rw [hfull, ← heq]
        exact hmain
      · exact hline
    · rw [movePointOutsideConditionals, h]
      exact endsLine_lineStart body start
  · rw [Nat.min_eq_right hmin]
    exact hmain

end Kwe.Shader
