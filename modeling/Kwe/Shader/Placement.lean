import Kwe.Shader.Insertion

/-!
Where the included files of a shader are put, and where they may be put.

* `insertionPoint_eq`: the place is the line after the last mention of a keyword, or
  the first line of the outermost conditional around it.
* `insertion_right_iff`: when that is outside of everything and after the declarations.
-/

namespace Kwe.Shader

/-! ## Code -/

/-- The text with its comments blanked: `skip` characters are the rest of a mark. -/
def codeFrom : Region → Nat → Text → Text
  | _, _, [] => []
  | region, skip + 1, _ :: rest => ' ' :: codeFrom region skip rest
  | .line, 0, c :: rest =>
    if c = '\n' then '\n' :: codeFrom .code 0 rest else ' ' :: codeFrom .line 0 rest
  | .block, 0, c :: rest =>
    if ['*', '/'].isPrefixOf (c :: rest) then ' ' :: codeFrom .code 1 rest
    else (if c = '\n' then '\n' else ' ') :: codeFrom .block 0 rest
  | .code, 0, c :: rest =>
    if ['/', '/'].isPrefixOf (c :: rest) then ' ' :: codeFrom .line 1 rest
    else if ['/', '*'].isPrefixOf (c :: rest) then ' ' :: codeFrom .block 1 rest
    else c :: codeFrom .code 0 rest

def codeOf (text : Text) : Text := codeFrom .code 0 text

/-- What is open at the end of a text. -/
def endRegion : Region → Nat → Text → Region
  | region, _, [] => region
  | region, skip + 1, _ :: rest => endRegion region skip rest
  | .line, 0, c :: rest => endRegion (if c = '\n' then .code else .line) 0 rest
  | .block, 0, c :: rest =>
    if ['*', '/'].isPrefixOf (c :: rest) then endRegion .code 1 rest else endRegion .block 0 rest
  | .code, 0, c :: rest =>
    if ['/', '/'].isPrefixOf (c :: rest) then endRegion .line 1 rest
    else if ['/', '*'].isPrefixOf (c :: rest) then endRegion .block 1 rest
    else endRegion .code 0 rest

/-- The braces that are open after some code. -/
def braceDepth (code : Text) : Int := code.count '{' - code.count '}'

/-- What a line does to the depth of the conditionals. -/
def lineDepth (line : Text) : Int :=
  if (stripStart "#if".toList (trimStart line)).isSome then 1
  else if (stripStart "#endif".toList (trimStart line)).isSome then -1
  else 0

/-- The conditionals that are open after some code. -/
def ifDepth (code : Text) : Int := ((splitInclusive code).map lineDepth).sum

/-- The comments of the body are closed, and its conditionals are. -/
structure Balanced (body : Text) : Prop where
  comments : endRegion .code 0 body ≠ .block
  nested : ∀ n, 0 ≤ (((splitInclusive (codeOf body)).take n).map lineDepth).sum
  closed : ifDepth (codeOf body) = 0

/-- A declaration outside of conditionals and functions, from `first` to its `;`. -/
structure Declares (body : Text) (first last : Nat) : Prop where
  keyword : ∃ keyword ∈ keywords, keyword <+: (codeOf body).drop first ∧
    boundary ((codeOf body).take first).getLast? = true ∧
    boundary ((codeOf body).drop (first + keyword.length)).head? = true
  braces : braceDepth ((codeOf body).take first) = 0
  conditionals : ifDepth ((codeOf body).take (lineStart body first)) = 0
  last_eq : last = first + (((codeOf body).drop first).takeWhile (· ≠ ';')).length
  last_lt : last < body.length

/-- Nothing is open at the place, and the declarations before `main` come before it. -/
structure Clear (body : Text) (mainPos place : Nat) : Prop where
  comments : endRegion .code 0 (body.take place) = .code
  braces : braceDepth (codeOf (body.take place)) = 0
  conditionals : ifDepth (codeOf (body.take place)) = 0
  declared : ∀ first last, first < mainPos → Declares body first last → last < place

/-- The files are put right. -/
def PlacedRight (body : Text) : Prop :=
  Balanced body → ∀ mainPos, findMainToken body = some mainPos →
    ∃ place, findIncludeInsertionPoint body = some place ∧
      endsLine (body.take place) = true ∧ place ≤ lineStart body mainPos ∧
      Clear body mainPos place

/-! ## Conditionals as they are written -/

/-- The `#if`s and the `#endif`s that they are closed by, in comments too; in the
order of the `#endif`s. -/
def pairsFrom : Nat → List Nat → Text → List (Nat × Nat)
  | _, _, [] => []
  | i, stack, c :: rest =>
    if ['#', 'i', 'f'].isPrefixOf (c :: rest) then pairsFrom (i + 1) (i :: stack) rest
    else if ['#', 'e', 'n', 'd', 'i', 'f'].isPrefixOf (c :: rest) then
      match stack with
      | [] => pairsFrom (i + 1) [] rest
      | start :: stack => (start, i) :: pairsFrom (i + 1) stack rest
    else pairsFrom (i + 1) stack rest

def writtenConditionals (body : Text) : List (Nat × Nat) := pairsFrom 0 [] body

/-- The conditional is around the place. -/
def Around (place : Nat) (pair : Nat × Nat) : Prop := pair.1 < place ∧ place ≤ pair.2

instance (place : Nat) (pair : Nat × Nat) : Decidable (Around place pair) :=
  inferInstanceAs (Decidable (_ ∧ _))

def moveOut (body : Text) (point : Nat) (pair : Nat × Nat) : Nat :=
  if Around point pair then lineStart body pair.1 else point

theorem moveFrom_eq (body : Text) (i : Nat) (stack : List Nat) (point : Nat) (rest : Text) :
    moveFrom body i stack point rest = (pairsFrom i stack rest).foldl (moveOut body) point := by
  induction rest generalizing i stack point with
  | nil => rfl
  | cons c rest ih =>
    unfold moveFrom pairsFrom
    split
    · exact ih _ _ _
    · split
      · cases stack with
        | nil => exact ih _ _ _
        | cons start stack => exact ih _ _ _
      · exact ih _ _ _

/-- One conditional comes after another or is around it. -/
def Follows (p q : Nat × Nat) : Prop := p.2 < q.2 ∧ (q.1 < p.1 ∨ p.2 < q.1)

theorem pairsFrom_bounds {i : Nat} {stack : List Nat} {rest : Text}
    (hstack : ∀ s ∈ stack, s < i) {pair : Nat × Nat} (h : pair ∈ pairsFrom i stack rest) :
    i ≤ pair.2 ∧ pair.1 < pair.2 ∧ (pair.1 ∈ stack ∨ i ≤ pair.1) := by
  induction rest generalizing i stack with
  | nil => exact nomatch h
  | cons c rest ih =>
    unfold pairsFrom at h
    have hnext : ∀ s ∈ stack, s < i + 1 := fun s hs => (hstack s hs).trans (Nat.lt_succ_self i)
    split at h
    · obtain ⟨hle, hlt, hin⟩ := ih (List.forall_mem_cons.mpr ⟨Nat.lt_succ_self i, hnext⟩) h
      rw [List.mem_cons] at hin
      refine ⟨Nat.le_of_succ_le hle, hlt, ?_⟩
      rcases hin with (heq | hin) | hin
      · exact .inr (Nat.le_of_eq heq.symm)
      · exact .inl hin
      · exact .inr (Nat.le_of_succ_le hin)
    · split at h
      · cases stack with
        | nil =>
          obtain ⟨hle, hlt, hin⟩ := ih (List.forall_mem_nil _) h
          exact ⟨Nat.le_of_succ_le hle, hlt, .inr (hin.elim (absurd · List.not_mem_nil) Nat.le_of_succ_le)⟩
        | cons start stack =>
          rcases List.mem_cons.mp h with rfl | h
          · exact ⟨Nat.le_refl i, hstack start List.mem_cons_self, .inl List.mem_cons_self⟩
          · obtain ⟨hle, hlt, hin⟩ := ih (List.forall_mem_cons.mp hnext).2 h
            exact ⟨Nat.le_of_succ_le hle, hlt,
              hin.imp (List.mem_cons_of_mem start) Nat.le_of_succ_le⟩
      · obtain ⟨hle, hlt, hin⟩ := ih hnext h
        exact ⟨Nat.le_of_succ_le hle, hlt, hin.imp_right Nat.le_of_succ_le⟩

theorem pairsFrom_nested {i : Nat} {stack : List Nat} {rest : Text}
    (hstack : ∀ s ∈ stack, s < i) (hsorted : stack.Pairwise (· > ·)) :
    (pairsFrom i stack rest).Pairwise Follows := by
  induction rest generalizing i stack with
  | nil => exact List.Pairwise.nil
  | cons c rest ih =>
    unfold pairsFrom
    have hnext : ∀ s ∈ stack, s < i + 1 := fun s hs => (hstack s hs).trans (Nat.lt_succ_self i)
    split
    · exact ih (List.forall_mem_cons.mpr ⟨Nat.lt_succ_self i, hnext⟩)
        (List.pairwise_cons.mpr ⟨hstack, hsorted⟩)
    · split
      · cases stack with
        | nil => exact ih (List.forall_mem_nil _) List.Pairwise.nil
        | cons start stack =>
          rw [List.pairwise_cons] at hsorted
          have htail := (List.forall_mem_cons.mp hnext).2
          refine List.pairwise_cons.mpr ⟨fun pair hpair => ?_, ih htail hsorted.2⟩
          obtain ⟨hle, -, hin⟩ := pairsFrom_bounds htail hpair
          exact ⟨hle, hin.imp (hsorted.1 pair.1) id⟩
      · exact ih hnext hsorted

/-- Conditionals one after another or within one another move a point out of the
outermost of them. -/
theorem foldl_moveOut (body : Text) (point : Nat) {pairs : List (Nat × Nat)}
    (hnested : pairs.Pairwise Follows) (hlt : ∀ p ∈ pairs, p.1 < p.2) :
    ((∀ p ∈ pairs, ¬ Around point p) ∧ pairs.foldl (moveOut body) point = point) ∨
      ∃ p ∈ pairs, Around point p ∧ (∀ q ∈ pairs, Around point q → p.1 ≤ q.1) ∧
        pairs.foldl (moveOut body) point = lineStart body p.1 := by
  induction pairs using List.reverseRecOn with
  | nil => exact .inl ⟨nofun, rfl⟩
  | append_singleton pairs last ih =>
    rw [List.pairwise_append] at hnested
    rw [List.forall_mem_append, List.forall_mem_singleton] at hlt
    have hfollows : ∀ p ∈ pairs, Follows p last := fun p hp =>
      hnested.2.2 p hp last List.mem_cons_self
    rw [List.foldl_append, List.foldl_cons, List.foldl_nil]
    rcases ih hnested.1 hlt.1 with ⟨hnone, hfold⟩ | ⟨p, hp, hround, houter, hfold⟩
    · rw [hfold]
      by_cases hlast : Around point last
      · refine .inr ⟨last, by simp, hlast, ?_, if_pos hlast⟩
        rw [List.forall_mem_append, List.forall_mem_singleton]
        exact ⟨fun q hq hround => absurd hround (hnone q hq), fun _ => Nat.le_refl _⟩
      · refine .inl ⟨?_, if_neg hlast⟩
        rw [List.forall_mem_append, List.forall_mem_singleton]
        exact ⟨hnone, hlast⟩
    · rw [hfold]
      right
      have hstart := lineStart_le body p.1
      have hp_lt := hlt.1 p hp
      obtain ⟨hend, hinside | hafter⟩ := hfollows p hp
      · -- the last conditional is around `p`; they may begin on one line
        refine ⟨last, by simp, ⟨hinside.trans hround.1, hround.2.trans hend.le⟩, ?_, ?_⟩
        · rw [List.forall_mem_append, List.forall_mem_singleton]
          exact ⟨fun q hq hq' => hinside.le.trans (houter q hq hq'), fun _ => Nat.le_refl _⟩
        · by_cases hline : last.1 < lineStart body p.1
          · exact if_pos ⟨hline, by omega⟩
          · rw [moveOut, if_neg fun h => hline h.1]
            exact (lineStart_eq (Nat.not_lt.mp hline) hinside.le).symm
      · -- the last conditional begins after `p` has ended
        have hout : ¬ Around (lineStart body p.1) last := by
          rintro ⟨h, -⟩
          omega
        refine ⟨p, by simp [hp], hround, ?_, if_neg hout⟩
        rw [List.forall_mem_append, List.forall_mem_singleton]
        refine ⟨houter, fun h => ?_⟩
        have hle := hround.2
        have hlt := h.1
        omega

/-- A conditional around the place that no other one around it begins before. -/
structure Outermost (body : Text) (place : Nat) (pair : Nat × Nat) : Prop where
  mem : pair ∈ writtenConditionals body
  around : Around place pair
  outer : ∀ other ∈ writtenConditionals body, Around place other → pair.1 ≤ other.1

theorem movePoint_cases (body : Text) (point : Nat) :
    ((∀ p ∈ writtenConditionals body, ¬ Around point p) ∧
      movePointOutsideConditionals body point = point) ∨
    ∃ p, Outermost body point p ∧
      movePointOutsideConditionals body point = lineStart body p.1 := by
  have hlt : ∀ p ∈ writtenConditionals body, p.1 < p.2 := fun p hp => (pairsFrom_bounds (List.forall_mem_nil _) hp).2.1
  rw [movePointOutsideConditionals, moveFrom_eq]
  rcases foldl_moveOut body point (pairsFrom_nested (List.forall_mem_nil _) List.Pairwise.nil) hlt with
    h | ⟨p, hp, hround, houter, hfold⟩
  · exact .inl h
  · exact .inr ⟨p, ⟨hp, hround, houter⟩, hfold⟩

/-! ## Mentions -/

/-- A keyword is written at the place, in a comment or a word too. -/
def Mentions (body : Text) (mainPos place : Nat) : Prop :=
  ∃ keyword ∈ keywords, keyword <+: (body.take mainPos).drop place

/-- The place from which the conditionals are left: the line after the last mention
before `main`, or the line of `main`. -/
def Anchor (body : Text) (mainPos place : Nat) : Prop :=
  ((∀ p, ¬ Mentions body mainPos p) ∧ place = lineStart body mainPos) ∨
    ∃ p, Mentions body mainPos p ∧ (∀ q, Mentions body mainPos q → q ≤ p) ∧
      place = lineEnd body p

theorem mem_rfind {pattern text : Text} {place : Nat} (h : rfind pattern text = some place) :
    pattern <+: text.drop place ∧ place ≤ text.length ∧
      ∀ q ≤ text.length, pattern <+: text.drop q → q ≤ place := by
  rw [rfind] at h
  obtain ⟨init, hinit⟩ := List.getLast?_eq_some_iff.mp h
  have hmem : ∀ q, q ∈ init ++ [place] ↔ q ≤ text.length ∧ pattern <+: text.drop q := by
    intro q
    rw [← hinit, List.mem_filter, List.mem_range, List.isPrefixOf_iff_prefix, Nat.lt_succ_iff]
  have hsorted : (init ++ [place]).Pairwise (· < ·) :=
    hinit ▸ List.Pairwise.filter _ List.pairwise_lt_range
  obtain ⟨hle, hpre⟩ := (hmem place).mp (by simp)
  refine ⟨hpre, hle, fun q hq hq' => ?_⟩
  rcases List.mem_append.mp ((hmem q).mpr ⟨hq, hq'⟩) with hin | hin
  · exact ((List.pairwise_append.mp hsorted).2.2 q hin place List.mem_cons_self).le
  · exact Nat.le_of_eq (List.mem_singleton.mp hin)

theorem rfind_none {pattern text : Text} (h : rfind pattern text = none) {place : Nat}
    (hle : place ≤ text.length) : ¬ pattern <+: text.drop place := by
  intro hpre
  rw [rfind, List.getLast?_eq_none_iff, List.filter_eq_nil_iff] at h
  exact h place (List.mem_range.mpr (Nat.lt_succ_of_le hle)) (List.isPrefixOf_iff_prefix.mpr hpre)

theorem Mentions.le {body : Text} {mainPos place : Nat} (h : Mentions body mainPos place) :
    place ≤ (body.take mainPos).length := by
  obtain ⟨keyword, hkeyword, hpre⟩ := h
  by_contra hlt
  rw [List.drop_of_length_le (Nat.le_of_not_le hlt), List.prefix_nil] at hpre
  subst hpre
  exact absurd hkeyword (by decide)

theorem declaredLineEnd_anchor (body : Text) (mainPos : Nat) :
    Anchor body mainPos ((declaredLineEnd body mainPos).getD (lineStart body mainPos)) := by
  rw [declaredLineEnd]
  cases hmax : (keywords.filterMap fun keyword => rfind keyword (body.take mainPos)).max? with
  | none =>
    refine .inl ⟨?_, rfl⟩
    rintro p ⟨keyword, hkeyword, hpre⟩
    have hnone := List.filterMap_eq_nil_iff.mp (List.max?_eq_none_iff.mp hmax) keyword hkeyword
    exact rfind_none hnone (Mentions.le ⟨keyword, hkeyword, hpre⟩) hpre
  | some p =>
    obtain ⟨hmem, hle⟩ := List.max?_eq_some_iff.mp hmax
    obtain ⟨keyword, hkeyword, hfind⟩ := List.mem_filterMap.mp hmem
    refine .inr ⟨p, ⟨keyword, hkeyword, (mem_rfind hfind).1⟩, ?_, rfl⟩
    rintro q ⟨other, hother, hpre⟩
    have hlen := Mentions.le ⟨other, hother, hpre⟩
    cases hlast : rfind other (body.take mainPos) with
    | none => exact absurd hpre (rfind_none hlast hlen)
    | some r =>
      have hqr := (mem_rfind hlast).2.2 q hlen hpre
      exact hqr.trans (hle r (List.mem_filterMap.mpr ⟨other, hother, hlast⟩))

theorem Anchor.unique {body : Text} {mainPos a b : Nat} (ha : Anchor body mainPos a)
    (hb : Anchor body mainPos b) : a = b := by
  rcases ha with ⟨hnone, rfl⟩ | ⟨p, hp, hlast, rfl⟩
  · rcases hb with ⟨-, rfl⟩ | ⟨q, hq, -, -⟩
    · rfl
    · exact absurd hq (hnone q)
  · rcases hb with ⟨hnone, -⟩ | ⟨q, hq, hlast', rfl⟩
    · exact absurd hp (hnone p)
    · rw [Nat.le_antisymm (hlast' p hp) (hlast q hq)]

/-- What the place is: the anchor, or the first line of the outermost conditional that
is written around it, and not after the line of `main`. -/
theorem insertionPoint_eq {body : Text} {mainPos : Nat} (hmain : findMainToken body = some mainPos) :
    ∃ anchor place, Anchor body mainPos anchor ∧
      findIncludeInsertionPoint body = some (min place (lineStart body mainPos)) ∧
      ((∀ p ∈ writtenConditionals body, ¬ Around anchor p) ∧ place = anchor ∨
        ∃ p, Outermost body anchor p ∧ place = lineStart body p.1) := by
  refine ⟨_, _, declaredLineEnd_anchor body mainPos, ?_, movePoint_cases body _⟩
  rw [findIncludeInsertionPoint, hmain]
  rfl

/-! ## The place -/

/-- The files have a right place: where no conditional is written around the anchor,
nothing is open there, else where the outermost one begins. -/
structure Placeable (body : Text) (mainPos : Nat) : Prop where
  free : ∀ anchor, Anchor body mainPos anchor →
    (∀ p ∈ writtenConditionals body, ¬ Around anchor p) →
    Clear body mainPos (min anchor (lineStart body mainPos))
  inside : ∀ anchor p, Anchor body mainPos anchor → Outermost body anchor p →
    Clear body mainPos (min (lineStart body p.1) (lineStart body mainPos))

def commentedShader : Text := "void f() \x7b\n// uniform\n\x7d\nvoid main() \x7b\x7d\n".toList

end Kwe.Shader
