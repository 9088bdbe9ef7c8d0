import Kwe.Foundation.Lines
import Kwe.Foundation.Runs
import Kwe.Foundation.Lossy

/-!
The ring of the stderr lines of a worker.

* `pushBytes_bounded`: the ring stays within its bounds, whatever is pushed;
* `ring_keeps_lines`: while every text that is dropped as too long ends with a
  newline, the tail holds the most recent complete lines of the stream.

The pipe that `drain_stderr` reads its chunks from is left out.
-/

namespace Kwe.Supervisor

open Foundation Foundation.Lines Foundation.Runs

def stderrRingLines : Nat := 64

def stderrRingBytes : Nat := 16 * 1024

/-- `b'\\n'`. -/
def newline : UInt8 := 10

/-- `String::from_utf8_lossy`. -/
def fromUtf8Lossy (bytes : List UInt8) : String := String.ofList (Utf8.decodeLossy bytes)

structure StderrRing where
  tail : List String
  tailBytes : Nat
  droppedBytes : Nat
  pending : List UInt8
  deriving DecidableEq, Repr

namespace StderrRing

def new : StderrRing := ⟨[], 0, 0, []⟩

/-- A saturating `u64`. -/
def dropped (ring : StderrRing) (count : Nat) : Nat := min (ring.droppedBytes + count) (2 ^ 64 - 1)

/-- One of the two budgets binds. -/
def overBudget (ring : StderrRing) : Bool :=
  decide (stderrRingLines < ring.tail.length) ||
    decide (stderrRingBytes < ring.tailBytes + ring.pending.length)

/-- The loop of `enforce_budget`, over the lines of the tail. -/
def evict (ring : StderrRing) : List String → StderrRing
  | [] =>
    let ring := { ring with tail := [] }
    if ring.overBudget then
      { ring with droppedBytes := ring.dropped ring.pending.length, pending := [] }
    else ring
  | evicted :: tail =>
    let ring := { ring with tail := evicted :: tail }
    if ring.overBudget then
      evict { ring with
        tailBytes := ring.tailBytes - evicted.utf8ByteSize
        droppedBytes := ring.dropped evicted.utf8ByteSize } tail
    else ring

def enforceBudget (ring : StderrRing) : StderrRing := ring.evict ring.tail

def pushLine (ring : StderrRing) (line : List UInt8) : StderrRing :=
  let text := fromUtf8Lossy line.dropLast
  enforceBudget { ring with
    tailBytes := ring.tailBytes + text.utf8ByteSize
    tail := ring.tail ++ [text] }

/-- The loop of `push_bytes`; every turn takes a byte off `pending`. -/
def drainLines : Nat → StderrRing → StderrRing
  | 0, ring => ring
  | fuel + 1, ring =>
    match ring.pending.findIdx? (· = newline) with
    | none => ring
    | some n =>
      let line := ring.pending.take (n + 1)
      drainLines fuel (pushLine { ring with pending := ring.pending.drop (n + 1) } line)

def pushBytes (ring : StderrRing) (bytes : List UInt8) : StderrRing :=
  let ring := { ring with pending := ring.pending ++ bytes }
  (drainLines ring.pending.length ring).enforceBudget

/-! ## Bounds -/

/-- The number of bytes of some lines. -/
def sizeOf (tail : List String) : Nat := (tail.map String.utf8ByteSize).sum

/-- Within both budgets. -/
structure Bounded (ring : StderrRing) : Prop where
  lines : ring.tail.length ≤ stderrRingLines
  bytes : ring.tailBytes + ring.pending.length ≤ stderrRingBytes

theorem not_overBudget {ring : StderrRing} : ring.overBudget = false ↔ ring.Bounded := by
  rw [overBudget, Bool.or_eq_false_iff, decide_eq_false_iff_not, decide_eq_false_iff_not,
    Nat.not_lt, Nat.not_lt]
  exact ⟨fun h => ⟨h.1, h.2⟩, fun h => ⟨h.1, h.2⟩⟩

/-- What is left when the oldest lines are evicted, and the pending text only if
it exceeds the budget by itself. -/
structure Evicted (ring : StderrRing) (tail : List String) (after : StderrRing) : Prop where
  suffix : after.tail <:+ tail
  counted : after.tailBytes = sizeOf after.tail
  bounded : after.Bounded
  cleared : stderrRingBytes < ring.pending.length → after.tail = [] ∧ after.pending = []
  kept : ring.pending.length ≤ stderrRingBytes → after.pending = ring.pending

theorem evict_spec {ring : StderrRing} {tail : List String} (h : ring.tailBytes = sizeOf tail) :
    Evicted ring tail (ring.evict tail) := by
  induction tail generalizing ring with
  | nil =>
    have hzero : ring.tailBytes = 0 := h
    rw [evict]
    dsimp only
    split
    next hover =>
      have hlong : stderrRingBytes < ring.pending.length := by
        simpa [overBudget, hzero] using hover
      refine ⟨List.suffix_refl _, hzero, ⟨Nat.zero_le _, ?_⟩, fun _ => ⟨rfl, rfl⟩, fun hle => ?_⟩
      · rw [hzero]
        exact Nat.zero_le _
      · omega
    next hover =>
      have hbounded := not_overBudget.mp (Bool.eq_false_iff.mpr hover)
      have hbytes : 0 + ring.pending.length ≤ stderrRingBytes := hzero ▸ hbounded.bytes
      exact ⟨List.suffix_refl _, hzero, hbounded, fun hlt => by omega, fun _ => rfl⟩
  | cons evicted tail ih =>
    rw [evict]
    dsimp only
    split
    next =>
      have hrest : ring.tailBytes - evicted.utf8ByteSize = sizeOf tail := by
        rw [h, sizeOf, List.map_cons, List.sum_cons, Nat.add_sub_cancel_left]
        rfl
      have hevicted := @ih { ring with
        tail := evicted :: tail
        tailBytes := ring.tailBytes - evicted.utf8ByteSize
        droppedBytes := ring.dropped evicted.utf8ByteSize } hrest
      exact ⟨hevicted.suffix.trans (List.suffix_cons _ _), hevicted.counted, hevicted.bounded,
        hevicted.cleared, hevicted.kept⟩
    next hover =>
      have hbounded := not_overBudget.mp (Bool.eq_false_iff.mpr hover)
      have hbytes : ring.tailBytes + ring.pending.length ≤ stderrRingBytes := hbounded.bytes
      exact ⟨List.suffix_refl _, h, hbounded, fun hlt => by omega, fun _ => rfl⟩

theorem pushLine_spec {ring : StderrRing} (h : ring.tailBytes = sizeOf ring.tail)
    (line : List UInt8) :
    Evicted ring (ring.tail ++ [fromUtf8Lossy line.dropLast]) (ring.pushLine line) := by
  have hcounted : ring.tailBytes + (fromUtf8Lossy line.dropLast).utf8ByteSize =
      sizeOf (ring.tail ++ [fromUtf8Lossy line.dropLast]) := by
    rw [h, sizeOf, sizeOf, List.map_append, List.sum_append]
    rfl
  have hevicted := @evict_spec { ring with
    tailBytes := ring.tailBytes + (fromUtf8Lossy line.dropLast).utf8ByteSize
    tail := ring.tail ++ [fromUtf8Lossy line.dropLast] } _ hcounted
  exact ⟨hevicted.suffix, hevicted.counted, hevicted.bounded, hevicted.cleared, hevicted.kept⟩

theorem drainLines_counted {fuel : Nat} {ring : StderrRing}
    (h : ring.tailBytes = sizeOf ring.tail) :
    (drainLines fuel ring).tailBytes = sizeOf (drainLines fuel ring).tail := by
  induction fuel generalizing ring with
  | zero => exact h
  | succ fuel ih =>
    rw [drainLines]
    split
    next => exact h
    next n _ =>
      have hpushed := @pushLine_spec { ring with pending := ring.pending.drop (n + 1) } h
        (ring.pending.take (n + 1))
      exact ih hpushed.counted

/-- **The bounds** hold after every push. -/
theorem pushBytes_bounded {ring : StderrRing} (h : ring.tailBytes = sizeOf ring.tail)
    (bytes : List UInt8) :
    (ring.pushBytes bytes).tailBytes = sizeOf (ring.pushBytes bytes).tail ∧
      (ring.pushBytes bytes).Bounded := by
  have hdrained := @drainLines_counted (ring.pending ++ bytes).length
    { ring with pending := ring.pending ++ bytes } h
  exact ⟨(evict_spec hdrained).counted, (evict_spec hdrained).bounded⟩

/-! ## Lines -/

/-- No part of a line is dropped without its end: what follows the first newline
of `text`, or all of it when there is none, is short or ends with a newline. -/
def DropsWhole (text : List UInt8) : Prop :=
  match text.findIdx? (· = newline) with
  | none => text.length ≤ stderrRingBytes
  | some n => stderrRingBytes < (text.drop (n + 1)).length → text.getLast? = some newline

instance (text : List UInt8) : Decidable (DropsWhole text) := by
  unfold DropsWhole
  split <;> infer_instance

theorem findIdx_none {text : List UInt8} (h : newline ∉ text) :
    text.findIdx? (· = newline) = none := by
  rw [List.findIdx?_eq_none_iff]
  intro b hb
  exact decide_eq_false fun heq => h (heq ▸ hb)

/-- Where the first newline is. -/
theorem findIdx_newline {line after : List UInt8} (h : newline ∉ line) :
    (line ++ newline :: after).findIdx? (· = newline) = some line.length := by
  rw [List.findIdx?_append, findIdx_none h, List.findIdx?_cons]
  simp

/-- What follows the first newline is then short, or leaves nothing. -/
theorem DropsWhole.rest_eq {line after : List UInt8} (hline : newline ∉ line)
    (h : DropsWhole (line ++ newline :: after)) (hlong : stderrRingBytes < after.length) :
    rest newline [] after = [] := by
  have hdrop : (line ++ newline :: after).drop (line.length + 1) = after := by
    rw [List.drop_length_add_append]
    rfl
  unfold DropsWhole at h
  rw [findIdx_newline hline] at h
  simp only [hdrop] at h
  have hrest := @rest_of_getLast _ _ newline [] _ (h hlong)
  rwa [rest_segment] at hrest

/-- **The loop** reads the lines of the pending text into the tail. -/
theorem drainLines_lines {fuel : Nat} {ring : StderrRing} (hfuel : ring.pending.length ≤ fuel)
    (h : ring.tailBytes = sizeOf ring.tail)
    (hwhole : ∀ line after, ring.pending = line ++ newline :: after → newline ∉ line →
      stderrRingBytes < after.length → rest newline [] after = []) :
    (drainLines fuel ring).tail <:+
        ring.tail ++ (lines newline [] ring.pending).map fromUtf8Lossy ∧
      (drainLines fuel ring).pending = rest newline [] ring.pending := by
  induction fuel generalizing ring with
  | zero =>
    have hempty := List.length_eq_zero_iff.mp (Nat.le_zero.mp hfuel)
    rw [drainLines, hempty]
    exact ⟨by simp [lines], rfl⟩
  | succ fuel ih =>
    rw [drainLines]
    by_cases hmem : newline ∈ ring.pending
    · obtain ⟨line, after, htext, hline⟩ := List.eq_append_cons_of_mem hmem
      have htake : ring.pending.take (line.length + 1) = line ++ [newline] := by
        rw [htext, List.take_length_add_append]
        rfl
      have hdrop : ring.pending.drop (line.length + 1) = after := by
        rw [htext, List.drop_length_add_append]
        rfl
      have hlines : lines newline [] ring.pending = line :: lines newline [] after := by
        rw [htext, lines_segment hline]
        rfl
      have hrest : rest newline [] ring.pending = rest newline [] after := by
        rw [htext, rest_segment]
      have hsome : ring.pending.findIdx? (· = newline) = some line.length :=
        htext ▸ findIdx_newline hline
      have hshorter : after.length ≤ fuel := by
        have hlength := congrArg List.length htext
        rw [List.length_append, List.length_cons] at hlength
        omega
      have hpushed := @pushLine_spec { ring with pending := after } h (line ++ [newline])
      rw [List.dropLast_concat] at hpushed
      rw [hsome, hlines, hrest]
      simp only [htake, hdrop]
      generalize pushLine { ring with pending := after } (line ++ [newline]) = pushed at hpushed ⊢
      by_cases hlong : stderrRingBytes < after.length
      · -- All that follows the line is dropped, and ends with a newline.
        obtain ⟨htail, hpending⟩ := hpushed.cleared hlong
        have hstep := @ih pushed (by rw [hpending]; exact Nat.zero_le _) hpushed.counted
          fun l a hbad => by simp [hpending] at hbad
        rw [htail, hpending] at hstep
        have hnil := List.suffix_nil.mp hstep.1
        rw [hnil]
        exact ⟨List.nil_suffix, hstep.2.trans (hwhole line after htext hline hlong).symm⟩
      · have hpending : pushed.pending = after := hpushed.kept (Nat.not_lt.mp hlong)
        have hstep := @ih pushed (hpending ▸ hshorter) hpushed.counted
          fun l a hsplit _ hbad => by
            have hlength := congrArg List.length (hpending.symm.trans hsplit)
            rw [List.length_append, List.length_cons] at hlength
            omega
        rw [hpending] at hstep
        refine ⟨hstep.1.trans ?_, hstep.2⟩
        obtain ⟨evicted, hevicted⟩ := hpushed.suffix
        refine ⟨evicted, ?_⟩
        rw [← List.append_assoc, hevicted, List.append_assoc]
        rfl
    · rw [findIdx_none hmem, lines_of_not_mem hmem, rest_of_not_mem hmem, List.map_nil,
        List.append_nil]
      exact ⟨List.suffix_refl _, rfl⟩

/-! ## Runs -/

/-- What the ring holds of the stream so far. -/
structure Holds (ring : StderrRing) (stream : List UInt8) : Prop where
  counted : ring.tailBytes = sizeOf ring.tail
  tail : ring.tail <:+ (lines newline [] stream).map fromUtf8Lossy
  pending : ring.pending = rest newline [] stream

/-- **One push** of a chunk that drops no part of a line. -/
theorem Holds.push {ring : StderrRing} {stream : List UInt8} (h : ring.Holds stream)
    {bytes : List UInt8} (hwhole : DropsWhole (ring.pending ++ bytes)) :
    (ring.pushBytes bytes).Holds (stream ++ bytes) := by
  have hclean : newline ∉ ring.pending := h.pending ▸ not_mem_rest List.not_mem_nil
  have hdrained := @drainLines_lines (ring.pending ++ bytes).length
    { ring with pending := ring.pending ++ bytes } (Nat.le_refl _) h.counted
    fun line after hsplit hline => DropsWhole.rest_eq hline (hsplit ▸ hwhole)
  have hcounted := @drainLines_counted (ring.pending ++ bytes).length
    { ring with pending := ring.pending ++ bytes } h.counted
  -- What is left to wait for its newline is short.
  have hshort : (rest newline [] (ring.pending ++ bytes)).length ≤ stderrRingBytes := by
    by_cases hmem : newline ∈ ring.pending ++ bytes
    · obtain ⟨line, after, htext, hline⟩ := List.eq_append_cons_of_mem hmem
      rw [htext, rest_segment]
      by_cases hlong : stderrRingBytes < after.length
      · rw [DropsWhole.rest_eq hline (htext ▸ hwhole) hlong]
        exact Nat.zero_le _
      · have hle : (rest newline [] after).length ≤ [].length + after.length := length_rest_le _ _
        rw [List.length_nil] at hle
        omega
    · unfold DropsWhole at hwhole
      rw [findIdx_none hmem] at hwhole
      rw [rest_of_not_mem hmem]
      exact hwhole
  have hlines : lines newline [] (stream ++ bytes) =
      lines newline [] stream ++ lines newline [] (ring.pending ++ bytes) := by
    rw [lines_append, lines_append [] ring.pending, ← h.pending, lines_of_not_mem hclean,
      rest_of_not_mem hclean]
    rfl
  have hrest : rest newline [] (stream ++ bytes) = rest newline [] (ring.pending ++ bytes) := by
    rw [rest_append, rest_append [] ring.pending, ← h.pending, rest_of_not_mem hclean]
    rfl
  have hevicted := evict_spec hcounted
  refine ⟨hevicted.counted, hevicted.suffix.trans (hdrained.1.trans ?_), ?_⟩
  · rw [hlines, List.map_append]
    obtain ⟨older, holder⟩ := h.tail
    exact ⟨older, by rw [← List.append_assoc, holder]⟩
  · rw [hrest, ← hdrained.2]
    exact hevicted.kept (hdrained.2 ▸ hshort)

theorem counted_run (chunks : List (List UInt8)) {ring : StderrRing}
    (h : ring.tailBytes = sizeOf ring.tail) :
    (run pushBytes ring chunks).tailBytes = sizeOf (run pushBytes ring chunks).tail ∧
      (ring.Bounded → (run pushBytes ring chunks).Bounded) := by
  induction chunks generalizing ring with
  | nil => exact ⟨h, id⟩
  | cons bytes chunks ih =>
    obtain ⟨hcounted, hbounded⟩ := pushBytes_bounded h bytes
    exact ⟨(ih hcounted).1, fun _ => (ih hcounted).2 hbounded⟩

theorem holds_run {chunks : List (List UInt8)} {ring : StderrRing} {stream : List UInt8}
    (h : ring.Holds stream)
    (hwhole : Along pushBytes (fun ring bytes => DropsWhole (ring.pending ++ bytes)) ring chunks) :
    (run pushBytes ring chunks).Holds (stream ++ chunks.flatten) := by
  induction chunks generalizing ring stream with
  | nil => rwa [List.flatten_nil, List.append_nil]
  | cons bytes chunks ih =>
    rw [List.flatten_cons, ← List.append_assoc]
    exact ih (h.push hwhole.1) hwhole.2

/-- `count` bytes of a line without an end. -/
def unended (count : Nat) : List UInt8 := List.replicate count 120

theorem length_unended (count : Nat) : (unended count).length = count := List.length_replicate

theorem newline_not_mem_unended (count : Nat) : newline ∉ unended count := fun h =>
  absurd (List.eq_of_mem_replicate h) (by decide)

theorem pushBytes_of_not_mem {ring : StderrRing} {bytes : List UInt8}
    (h : newline ∉ ring.pending ++ bytes) :
    ring.pushBytes bytes = evict { ring with pending := ring.pending ++ bytes } ring.tail := by
  have hdrained : ∀ fuel, drainLines fuel { ring with pending := ring.pending ++ bytes } =
      { ring with pending := ring.pending ++ bytes } := by
    intro fuel
    cases fuel with
    | zero => rfl
    | succ fuel => simp [drainLines, findIdx_none h]
  rw [pushBytes, hdrained, enforceBudget]

theorem pushBytes_unended (count : Nat) :
    pushBytes ⟨[], 0, 0, unended count⟩ (unended 512) =
      evict ⟨[], 0, 0, unended (count + 512)⟩ [] := by
  have happend : unended count ++ unended 512 = unended (count + 512) := by
    rw [unended, unended, unended, List.replicate_append_replicate]
  have hmem : newline ∉ unended count ++ unended 512 := by
    rw [happend]
    exact newline_not_mem_unended _
  rw [pushBytes_of_not_mem hmem]
  dsimp only
  rw [happend]

theorem run_unended {count : Nat} (h : count ≤ 32) :
    run pushBytes new (List.replicate count (unended 512)) =
      ⟨[], 0, 0, unended (512 * count)⟩ := by
  induction count with
  | zero => rfl
  | succ count ih =>
    have hshort : overBudget ⟨[], 0, 0, unended (512 * count + 512)⟩ = false := by
      rw [not_overBudget]
      refine ⟨Nat.zero_le _, ?_⟩
      simp only [length_unended, stderrRingBytes]
      omega
    rw [List.replicate_succ', run_append, ih (by omega), run_cons, run_nil, pushBytes_unended]
    simp [evict, hshort, Nat.mul_succ]

/-- With the last of these chunks the line exceeds the budget. -/
theorem run_overlong :
    run pushBytes new (List.replicate 33 (unended 512)) = ⟨[], 0, 16896, []⟩ := by
  have hlong : overBudget ⟨[], 0, 0, unended (512 * 32 + 512)⟩ = true := by
    simp only [overBudget, length_unended]
    decide
  rw [List.replicate_succ', run_append, run_unended (Nat.le_refl _), run_cons, run_nil,
    pushBytes_unended]
  simp only [evict, hlong, if_true, dropped, length_unended]
  decide

theorem fromUtf8Lossy_ne_tail (bytes : List UInt8) : fromUtf8Lossy (120 :: bytes) ≠ "tail" := by
  intro h
  have hfirst : (Utf8.takeLossy 120 bytes).1 = 'x' := rfl
  rw [fromUtf8Lossy, Utf8.decodeLossy_cons, hfirst] at h
  have hhead := congrArg (fun text => text.toList.head?) h
  simp only [String.toList_ofList, List.head?_cons] at hhead
  exact absurd hhead (by decide)

end StderrRing

end Kwe.Supervisor
