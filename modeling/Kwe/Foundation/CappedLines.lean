import Kwe.Foundation.Lines

/-!
A reader that hands on the complete lines of a stream, and drops what it holds of a line
that has grown longer than a cap.

* `Framed.read`: what a read keeps;
* `handed_iff`: the lines that are handed on are those within the cap, however the stream is
  cut, if and only if no complete line is longer: what follows of a line that was dropped is
  taken for a line of its own.

Nothing here depends on what the elements of the stream are.
-/

namespace Foundation.CappedLines

open Foundation.Lines

variable {α : Type*} [DecidableEq α] (sep : α) (cap : Nat)

/-- What is held of a line, all that was read, and the lines handed on. -/
structure Reader (α : Type*) where
  buffer : List α
  received : List α
  handed : List (List α)

def Reader.new : Reader α := ⟨[], [], []⟩

/-- A read; what it leaves of a line is dropped when it is too long. -/
def Reader.read (r : Reader α) (chunk : List α) : Reader α where
  buffer :=
    let left := rest sep [] (r.buffer ++ chunk)
    if cap < left.length then [] else left
  received := r.received ++ chunk
  handed := r.handed ++ lines sep [] (r.buffer ++ chunk)

/-- One line is handed on for every separator; while no line is too long it is the line of
the stream, and the line that is held is the one that is left or is too long already. -/
structure Framed (r : Reader α) : Prop where
  counted : r.handed.length = (lines sep [] r.received).length
  held : sep ∉ r.buffer
  kept : (∀ line ∈ lines sep [] r.received, line.length ≤ cap) →
    r.handed = lines sep [] r.received ∧
      (r.buffer = rest sep [] r.received ∨ cap < (rest sep [] r.received).length)

variable {sep cap} {r : Reader α}

theorem Framed.new : Framed sep cap (Reader.new : Reader α) :=
  ⟨rfl, List.not_mem_nil, fun _ => ⟨rfl, Or.inl rfl⟩⟩

/-- A line that is held is continued by a read. -/
theorem lines_held {buffer : List α} (h : sep ∉ buffer) (chunk : List α) :
    lines sep [] (buffer ++ chunk) = lines sep buffer chunk := by
  rw [lines_append, lines_of_not_mem h, rest_of_not_mem h, List.nil_append, List.nil_append]

theorem rest_held {buffer : List α} (h : sep ∉ buffer) (chunk : List α) :
    rest sep [] (buffer ++ chunk) = rest sep buffer chunk := by
  rw [rest_append, rest_of_not_mem h, List.nil_append]

theorem Framed.read (h : Framed sep cap r) (chunk : List α) :
    Framed sep cap (r.read sep cap chunk) := by
  refine ⟨?_, ?_, ?_⟩
  · have hcounted := h.counted
    simp only [Reader.read, lines_append, List.length_append, length_lines] at hcounted ⊢
    rw [hcounted, List.count_eq_zero.mpr h.held]
    omega
  · simp only [Reader.read]
    split
    · exact List.not_mem_nil
    · exact not_mem_rest List.not_mem_nil
  · intro hshort
    simp only [Reader.read, lines_append] at hshort
    simp only [Reader.read, lines_held h.held, rest_held h.held]
    obtain ⟨hhanded, hbuffer⟩ := h.kept fun line hline => hshort line (List.mem_append_left _ hline)
    rw [lines_append, rest_append, hhanded]
    rcases hbuffer with hbuffer | hlong
    · rw [hbuffer]
      refine ⟨rfl, ?_⟩
      split
      · exact Or.inr ‹_›
      · exact Or.inl rfl
    · -- the line is too long already, so the read does not end it
      have hmem : sep ∉ chunk := by
        intro hmem
        obtain ⟨first, others, hlines⟩ := exists_lines_of_mem (rest sep [] r.received) hmem
        have hfirst := hshort (rest sep [] r.received ++ first)
          (List.mem_append_right _ (by rw [hlines]; exact List.mem_cons_self))
        rw [List.length_append] at hfirst
        omega
      refine ⟨by rw [lines_of_not_mem hmem, lines_of_not_mem hmem], Or.inr ?_⟩
      rw [rest_of_not_mem hmem, List.length_append]
      omega

/-- The lines within the cap are handed on if and only if no line is longer. -/
theorem Framed.handed_iff (h : Framed sep cap r) :
    r.handed = (lines sep [] r.received).filter (fun line => decide (line.length ≤ cap)) ↔
      ∀ line ∈ lines sep [] r.received, line.length ≤ cap := by
  constructor
  · intro heq
    have hlength := congrArg List.length heq
    rw [h.counted] at hlength
    intro line hline
    simpa using List.length_filter_eq_length_iff.mp hlength.symm line hline
  · intro hshort
    rw [(h.kept hshort).1, List.filter_eq_self.mpr]
    simpa using hshort

end Foundation.CappedLines
