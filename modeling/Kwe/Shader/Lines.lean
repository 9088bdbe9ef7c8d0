import Kwe.Shader.Declarations

/-!
The lines of a text.

* `lines_induction`: a text is read line by line.
* `splitInclusive_append`: texts are put together at the end of a line.
-/

namespace Kwe.Shader

/-- The text is empty or ends with its last line. -/
def endsLine (text : Text) : Bool := text.getLast?.all (· = '\n')

/-- The lines without their ends. -/
def linesOf (text : Text) : List Text := (splitInclusive text).map (·.takeWhile (· ≠ '\n'))

theorem endsLine_concat (s : Text) (c : Char) : endsLine (s ++ [c]) = decide (c = '\n') := by
  simp [endsLine]

theorem endsLine_append {a b : Text} (ha : endsLine a = true) (hb : endsLine b = true) :
    endsLine (a ++ b) = true := by
  rcases List.eq_nil_or_concat' b with rfl | ⟨b, c, rfl⟩
  · simpa using ha
  · rw [← List.append_assoc, endsLine_concat]
    rwa [endsLine_concat] at hb

theorem endsLine_line (s rest : Text) : endsLine (s ++ '\n' :: rest) = endsLine rest := by
  rcases List.eq_nil_or_concat' rest with rfl | ⟨rest, c, rfl⟩
  · rw [endsLine_concat]
    rfl
  · rw [← List.cons_append, ← List.append_assoc, endsLine_concat, endsLine_concat]

theorem endsLine_flatMap {α : Type} {f : α → Text} {items : List α}
    (h : ∀ x ∈ items, endsLine (f x) = true) : endsLine (items.flatMap f) = true := by
  induction items with
  | nil => rfl
  | cons x items ih =>
    rw [List.forall_mem_cons] at h
    exact endsLine_append h.1 (ih h.2)

/-- A text is empty, a last line without an end, or a line and the rest. -/
theorem lines_induction {P : Text → Prop} (nil : P [])
    (last : ∀ s : Text, s ≠ [] → '\n' ∉ s → P s)
    (line : ∀ s rest : Text, '\n' ∉ s → P rest → P (s ++ '\n' :: rest)) (text : Text) : P text := by
  induction hn : text.length using Nat.strong_induction_on generalizing text with
  | _ n ih =>
    by_cases hmem : '\n' ∈ text
    · obtain ⟨s, rest, rfl, hs⟩ := List.eq_append_cons_of_mem hmem
      refine line s rest hs (ih rest.length ?_ rest rfl)
      rw [← hn, List.length_append, List.length_cons]
      omega
    · by_cases hnil : text = []
      · exact hnil ▸ nil
      · exact last text hnil hmem

theorem splitInclusive_line {s : Text} (h : '\n' ∉ s) (rest : Text) :
    splitInclusive (s ++ '\n' :: rest) = (s ++ ['\n']) :: splitInclusive rest := by
  induction s with
  | nil => simp [splitInclusive]
  | cons c s ih =>
    rw [List.mem_cons, not_or] at h
    rw [List.cons_append, splitInclusive, if_neg (Ne.symm h.1), ih h.2]
    rfl

theorem splitInclusive_last {s : Text} (h : '\n' ∉ s) (hs : s ≠ []) : splitInclusive s = [s] := by
  induction s with
  | nil => exact absurd rfl hs
  | cons c s ih =>
    rw [List.mem_cons, not_or] at h
    rw [splitInclusive, if_neg (Ne.symm h.1)]
    by_cases hnil : s = []
    · simp [hnil, splitInclusive]
    · simp only [ih h.2 hnil]

theorem splitInclusive_append {a : Text} (h : endsLine a = true) (b : Text) :
    splitInclusive (a ++ b) = splitInclusive a ++ splitInclusive b := by
  induction a using lines_induction with
  | nil => rfl
  | last s hs hnot =>
    obtain ⟨c, hc⟩ := Option.ne_none_iff_exists'.mp (List.getLast?_eq_none_iff.not.mpr hs)
    have hmem := List.mem_of_getLast? hc
    rw [endsLine, hc] at h
    exact absurd (of_decide_eq_true h ▸ hmem) hnot
  | line s rest hs ih =>
    rw [endsLine_line] at h
    rw [List.append_assoc, List.cons_append, splitInclusive_line hs, splitInclusive_line hs,
      ih h, List.cons_append]

theorem flatten_splitInclusive (text : Text) : (splitInclusive text).flatten = text := by
  induction text using lines_induction with
  | nil => rfl
  | last s hs hnot => simp [splitInclusive_last hnot hs]
  | line s rest hs ih => simp [splitInclusive_line hs, ih]

/-- Lines that are picked out of a text are the lines of what is picked out. -/
theorem splitInclusive_filter (p : Text → Bool) (text : Text) :
    splitInclusive ((splitInclusive text).filter p).flatten = (splitInclusive text).filter p := by
  induction text using lines_induction with
  | nil => rfl
  | last s hs hnot =>
    rw [splitInclusive_last hnot hs]
    by_cases hp : p s = true
    · simp [hp, splitInclusive_last hnot hs]
    · simp [hp, splitInclusive]
  | line s rest hs ih =>
    rw [splitInclusive_line hs]
    by_cases hp : p (s ++ ['\n']) = true
    · rw [List.filter_cons_of_pos hp, List.flatten_cons, List.append_assoc, List.cons_append,
        List.nil_append, splitInclusive_line hs, ih]
    · rw [List.filter_cons_of_neg hp, ih]

/-- A line ends at its only line break or has none. -/
theorem line_of_mem {text line : Text} (h : line ∈ splitInclusive text) :
    ∃ s : Text, '\n' ∉ s ∧ (line = s ++ ['\n'] ∨ line = s) := by
  induction text using lines_induction with
  | nil => exact absurd h (List.not_mem_nil)
  | last s hs hnot =>
    rw [splitInclusive_last hnot hs, List.mem_singleton] at h
    exact ⟨s, hnot, .inr h⟩
  | line s rest hs ih =>
    rw [splitInclusive_line hs, List.mem_cons] at h
    rcases h with rfl | h
    · exact ⟨s, hs, .inl rfl⟩
    · exact ih h

/-- Two texts lose a line when they are put together within one. -/
theorem length_splitInclusive_glued {a b : Text} (ha : endsLine a = false) (hb : b ≠ []) :
    (splitInclusive (a ++ b)).length + 1 = (splitInclusive a).length + (splitInclusive b).length := by
  have hcons : ∀ b : Text, b ≠ [] → ∃ line lines, splitInclusive b = line :: lines := by
    intro b hb
    rcases hsplit : splitInclusive b with _ | ⟨line, lines⟩
    · have h := flatten_splitInclusive b
      rw [hsplit] at h
      exact absurd h.symm hb
    · exact ⟨line, lines, rfl⟩
  induction a using lines_induction with
  | nil => exact nomatch ha
  | last s hs hnot =>
    rw [splitInclusive_last hnot hs]
    clear ha
    induction s with
    | nil => exact absurd rfl hs
    | cons c s ih =>
      rw [List.mem_cons, not_or] at hnot
      by_cases hnil : s = []
      · obtain ⟨line, lines, hsplit⟩ := hcons b hb
        subst hnil
        simp [splitInclusive, if_neg (Ne.symm hnot.1), hsplit, Nat.add_comm]
      · have hlen := ih hnil hnot.2
        obtain ⟨line, lines, hsplit⟩ := hcons (s ++ b) (List.append_ne_nil_of_left_ne_nil hnil b)
        rw [List.cons_append, splitInclusive, if_neg (Ne.symm hnot.1)]
        rw [hsplit] at hlen ⊢
        simpa using hlen
  | line s rest hs ih =>
    rw [endsLine_line] at ha
    have hlen := ih ha
    rw [List.append_assoc, List.cons_append, splitInclusive_line hs, splitInclusive_line hs,
      List.length_cons, List.length_cons]
    omega

theorem linesOf_append {a : Text} (h : endsLine a = true) (b : Text) :
    linesOf (a ++ b) = linesOf a ++ linesOf b := by
  rw [linesOf, splitInclusive_append h, List.map_append]
  rfl

theorem linesOf_line {s : Text} (h : '\n' ∉ s) : linesOf (s ++ ['\n']) = [s] := by
  have hs : (s ++ ['\n']).takeWhile (· ≠ '\n') = s := by
    rw [List.takeWhile_append_of_pos fun c hc => decide_eq_true (ne_of_mem_of_not_mem hc h)]
    simp
  rw [linesOf, splitInclusive_line h]
  simp only [List.map_cons, hs]
  rfl

end Kwe.Shader
