import Mathlib

/-!
A stream that a separator cuts into lines.

* `lines_append`, `rest_append`: a stream can be cut piece by piece, when the
  unterminated rest of one piece is carried to the next;
* `through_append`: its first line does not depend on what follows.

Nothing here depends on what the elements of the stream are.
-/

namespace Foundation.Lines

variable {α : Type*} [DecidableEq α] (sep : α)

/-- The lines that are complete, without their separators, of a stream that
follows the beginning `line` of a line. -/
def lines (line : List α) : List α → List (List α)
  | [] => []
  | a :: stream => if a = sep then line :: lines [] stream else lines (line ++ [a]) stream

/-- The beginning of a line that is left when the stream ends. -/
def rest (line : List α) : List α → List α
  | [] => line
  | a :: stream => if a = sep then rest [] stream else rest (line ++ [a]) stream

/-- The stream through its first separator. -/
def through : List α → List α
  | [] => []
  | a :: stream => if a = sep then [a] else a :: through stream

/-- What follows the first separator. -/
def past : List α → List α
  | [] => []
  | a :: stream => if a = sep then stream else past stream

variable {sep}

example : lines 0 [] [1, 0, 2] = [[1]] ∧ rest 0 [] [1, 0, 2] = [2] := by
  simp [lines, rest]

example : through 0 [1, 0, 2] = [1, 0] ∧ past 0 [1, 0, 2] = [2] := by
  simp [through, past]

theorem lines_append (line s t : List α) :
    lines sep line (s ++ t) = lines sep line s ++ lines sep (rest sep line s) t := by
  induction s generalizing line with
  | nil => rfl
  | cons a s ih =>
    rw [List.cons_append, lines, lines, rest]
    split
    · rw [ih, List.cons_append]
    · exact ih _

theorem rest_append (line s t : List α) :
    rest sep line (s ++ t) = rest sep (rest sep line s) t := by
  induction s generalizing line with
  | nil => rfl
  | cons a s ih =>
    rw [List.cons_append, rest, rest]
    split
    all_goals exact ih _

theorem lines_of_not_mem {line s : List α} (h : sep ∉ s) : lines sep line s = [] := by
  induction s generalizing line with
  | nil => rfl
  | cons a s ih =>
    rw [List.mem_cons, not_or] at h
    rw [lines, if_neg (Ne.symm h.1)]
    exact ih h.2

theorem rest_of_not_mem {line s : List α} (h : sep ∉ s) : rest sep line s = line ++ s := by
  induction s generalizing line with
  | nil => exact (List.append_nil line).symm
  | cons a s ih =>
    rw [List.mem_cons, not_or] at h
    rw [rest, if_neg (Ne.symm h.1), ih h.2, List.append_assoc]
    rfl

/-- The first line of a stream. -/
theorem lines_segment {line s t : List α} (h : sep ∉ s) :
    lines sep line (s ++ sep :: t) = (line ++ s) :: lines sep [] t := by
  rw [lines_append, lines_of_not_mem h, rest_of_not_mem h, lines, if_pos rfl]
  rfl

theorem rest_segment {line s t : List α} : rest sep line (s ++ sep :: t) = rest sep [] t := by
  rw [rest_append, rest, if_pos rfl]

/-- A separator ends the line that was begun. -/
theorem exists_lines_of_mem {s : List α} (line : List α) (h : sep ∈ s) :
    ∃ first others, lines sep line s = (line ++ first) :: others := by
  induction s generalizing line with
  | nil => exact absurd h List.not_mem_nil
  | cons a s ih =>
    rw [lines]
    split
    · exact ⟨[], _, by rw [List.append_nil]⟩
    · rename_i ha
      obtain ⟨first, others, hlines⟩ :=
        ih (line ++ [a]) ((List.mem_cons.mp h).resolve_left (Ne.symm ha))
      exact ⟨a :: first, others, by simp [hlines]⟩

/-- There are as many lines as separators. -/
theorem length_lines (line s : List α) : (lines sep line s).length = s.count sep := by
  induction s generalizing line with
  | nil => rfl
  | cons a s ih =>
    rw [lines, List.count_cons]
    split
    · simp_all
    · simp_all

theorem length_rest_le (line s : List α) : (rest sep line s).length ≤ line.length + s.length := by
  induction s generalizing line with
  | nil => exact Nat.le_refl _
  | cons a s ih =>
    rw [rest, List.length_cons]
    split
    next =>
      have hle := ih []
      rw [List.length_nil] at hle
      omega
    next =>
      have hle := ih (line ++ [a])
      rw [List.length_append, List.length_singleton] at hle
      omega

/-- A stream that ends with a separator leaves nothing. -/
theorem rest_of_getLast {line s : List α} (h : s.getLast? = some sep) : rest sep line s = [] := by
  obtain ⟨s, rfl⟩ := List.getLast?_eq_some_iff.mp h
  exact rest_segment

/-- What is left is the end of the stream after its last separator. -/
theorem not_mem_rest {line s : List α} (h : sep ∉ line) : sep ∉ rest sep line s := by
  induction s generalizing line with
  | nil => exact h
  | cons a s ih =>
    rw [rest]
    split
    next => exact ih List.not_mem_nil
    next ha => exact ih (by simp [h, Ne.symm ha])

/-- Where the first separator is. -/
theorem split_of_idxOf? {s : List α} {i : Nat} (h : s.idxOf? sep = some i) :
    ∃ line t, s = line ++ sep :: t ∧ sep ∉ line ∧ line.length = i := by
  induction s generalizing i with
  | nil => simp at h
  | cons a s ih =>
    rw [List.idxOf?_cons] at h
    split at h
    next ha =>
      obtain rfl := Option.some.inj h
      exact ⟨[], s, by simpa using ha, List.not_mem_nil, rfl⟩
    next ha =>
      obtain ⟨i, hi, rfl⟩ := Option.map_eq_some_iff.mp h
      obtain ⟨line, t, rfl, hline, hlength⟩ := ih hi
      refine ⟨a :: line, t, rfl, ?_, by simp [hlength]⟩
      simp only [beq_iff_eq] at ha
      simp [hline, Ne.symm ha]

/-- Lines and their separators, one after another. -/
theorem lines_flatMap {words : List (List α)} (h : ∀ word ∈ words, sep ∉ word) :
    lines sep [] (words.flatMap (· ++ [sep])) = words := by
  induction words with
  | nil => rfl
  | cons word words ih =>
    rw [List.forall_mem_cons] at h
    rw [List.flatMap_cons, List.append_assoc]
    exact (lines_segment h.1).trans (congrArg (word :: ·) (ih h.2))

theorem rest_flatMap (words : List (List α)) :
    rest sep [] (words.flatMap (· ++ [sep])) = [] := by
  induction words with
  | nil => rfl
  | cons word words ih =>
    rw [List.flatMap_cons, List.append_assoc]
    exact rest_segment.trans ih

/-! ## The first line -/

theorem through_append_past (s : List α) : through sep s ++ past sep s = s := by
  induction s with
  | nil => rfl
  | cons a s ih =>
    rw [through, past]
    split
    · rfl
    · rw [List.cons_append, ih]

theorem mem_through {s : List α} : sep ∈ through sep s ↔ sep ∈ s := by
  induction s with
  | nil => rfl
  | cons a s ih =>
    rw [through]
    split
    next ha => simp [ha]
    next => simp [ih]

theorem through_append {s : List α} (h : sep ∈ s) (t : List α) :
    through sep (s ++ t) = through sep s := by
  induction s with
  | nil => exact absurd h List.not_mem_nil
  | cons a s ih =>
    rw [List.cons_append, through, through]
    split
    · rfl
    · rename_i ha
      rw [ih ((List.mem_cons.mp h).resolve_left (Ne.symm ha))]

theorem through_concat {s : List α} (h : sep ∉ s) : through sep (s ++ [sep]) = s ++ [sep] := by
  induction s with
  | nil => simp [through]
  | cons a s ih =>
    rw [List.mem_cons, not_or] at h
    rw [List.cons_append, through, if_neg (Ne.symm h.1), ih h.2]

end Foundation.Lines
