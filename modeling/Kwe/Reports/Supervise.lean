import Kwe.Reports.Finalize

/-!
The supervision of an inspector: its three pipes are drained until it exits, a
pipe gives more than its cap, or the deadline has passed.

* `Child.taken`: what was read of a pipe is a prefix of what was written to it;
* `poll_ended`, `poll_calls`: how the loop ends, and after how many calls;
* `inspection_settled`: the result, however the writes fall between the reads.

Time is in nanoseconds.  A call of the daemon into the system takes one at the
least, and whatever its `Schedule` says beyond that.
-/

namespace Kwe.Reports.Supervise

/-! ## The child and the daemon -/

inductive Pipe
  | stdout
  | stderr
  | report
  deriving DecidableEq, Repr

/-- When the child was gone, and whether it succeeded. -/
structure Exit where
  time : Nat
  success : Bool

/-- What the child and the processes it started write at each time, when it
exits, and which `try_wait`s fail. -/
structure Child where
  writes : Nat → Pipe → List UInt8
  exit : Option Exit
  unwaitable : Nat → Bool

/-- For each call, the time it takes beyond one nanosecond and, if it is a read,
how much it gives. -/
structure Schedule where
  delay : Nat → Nat
  grants : Nat → Nat

/-- The calls made so far, the time, and how much was read of each pipe. -/
structure World where
  calls : Nat
  time : Nat
  took : Pipe → Nat

def World.start : World := ⟨0, 0, fun _ => 0⟩

/-- What was written to a pipe up to some time. -/
def Child.written (c : Child) (p : Pipe) (time : Nat) : List UInt8 :=
  (List.range (time + 1)).flatMap fun t => c.writes t p

/-- The exit, once there is one. -/
def Child.exited (c : Child) (time : Nat) : Option Bool :=
  match c.exit with
  | none => none
  | some x => if x.time ≤ time then some x.success else none

/-- `MAX_REPORT_BYTES`. -/
def maxReportBytes : Nat := 65536

/-- `REPORT_STREAM_MAX_BYTES`. -/
def reportStreamMaxBytes : Nat :=
  StreamCaps.report.maxTotalPayloadBytes + StreamCaps.report.maxFrames * headerBytes + 1

/-- `STDERR_TAIL_BYTES`. -/
def stderrTailBytes : Nat := 512

/-- `STDERR_DRAIN_CHUNKS_PER_TICK`. -/
def stderrDrainChunksPerTick : Nat := 16

/-- The length of a `chunk`. -/
def chunkBytes : Nat := 4096

/-- The sleep of 10 ms. -/
def sleepNanos : Nat := 10000000

section

variable (c : Child) (s : Schedule)

def call (w : World) : World :=
  { w with calls := w.calls + 1, time := w.time + 1 + s.delay w.calls }

/-- A read gives something if there is something; nothing is an end of file or
`WouldBlock`, and both end a drain. -/
def read (p : Pipe) (w : World) : List UInt8 × World :=
  let grant := s.grants w.calls
  let w := call s w
  let chunk := ((c.written p w.time).drop (w.took p)).take (max 1 (min grant chunkBytes))
  (chunk, { w with took := Function.update w.took p (w.took p + chunk.length) })

/-- The loop of `drain_stdout` and `drain_report`. -/
def drainFrom (max : Nat) (p : Pipe) (buffer : List UInt8) (w : World) :
    Bool × List UInt8 × World :=
  let got := read c s p w
  if _h : got.1 = [] then (false, buffer, got.2)
  else if _hroom : max < (buffer ++ got.1).length then (true, buffer ++ got.1, got.2)
  else drainFrom max p (buffer ++ got.1) got.2
termination_by max + 1 - buffer.length
decreasing_by
  have hchunk : 0 < (read c s p w).1.length := List.length_pos_of_ne_nil _h
  have hroom : ¬ max < (buffer ++ (read c s p w).1).length := _hroom
  rw [List.length_append] at hroom ⊢
  omega

/-- `drain_stdout` and `drain_report`: whether the buffer is over its cap. -/
def drain (max : Nat) (p : Pipe) (buffer : List UInt8) (w : World) : Bool × List UInt8 × World :=
  if max < buffer.length then (true, buffer, w) else drainFrom c s max p buffer w

/-- The most recent bytes. -/
def keepTail (max : Nat) (bytes : List UInt8) : List UInt8 := bytes.drop (bytes.length - max)

/-- `drain_stderr_tail`, by the chunks that are left. -/
def drainStderrTail : Nat → List UInt8 → World → List UInt8 × World
  | 0, buffer, w => (buffer, w)
  | chunks + 1, buffer, w =>
    let got := read c s .stderr w
    if got.1 = [] then (buffer, got.2)
    else drainStderrTail chunks (keepTail stderrTailBytes (buffer ++ got.1)) got.2

/-- `out_buffer`, `err_tail` and `report_buffer`. -/
structure Buffers where
  out : List UInt8
  tail : List UInt8
  report : List UInt8

/-- The three drains, and whether stdout or the report is over its cap. -/
def drainAll (b : Buffers) (w : World) : Bool × Buffers × World :=
  let out := drain c s maxReportBytes .stdout b.out w
  let tail := drainStderrTail c s stderrDrainChunksPerTick b.tail out.2.2
  let report := drain c s reportStreamMaxBytes .report b.report tail.2
  (out.1 || report.1, ⟨out.2.1, tail.1, report.2.1⟩, report.2.2)

theorem call_calls (w : World) : (call s w).calls = w.calls + 1 := rfl

theorem call_time (w : World) : (call s w).time = w.time + 1 + s.delay w.calls := rfl

theorem read_time (p : Pipe) (w : World) :
    (read c s p w).2.time = w.time + 1 + s.delay w.calls := rfl

theorem read_calls (p : Pipe) (w : World) : (read c s p w).2.calls = w.calls + 1 := rfl

/-! ## What was read of a pipe -/

/-- What was read of a pipe so far. -/
def Child.taken (p : Pipe) (w : World) : List UInt8 := (c.written p w.time).take (w.took p)

/-- No more is read than was written. -/
def Within (w : World) : Prop := ∀ p, w.took p ≤ (c.written p w.time).length

theorem written_mono (p : Pipe) {time time' : Nat} (h : time ≤ time') :
    c.written p time <+: c.written p time' := by
  obtain ⟨more, rfl⟩ := Nat.exists_eq_add_of_le h
  unfold Child.written
  rw [Nat.add_right_comm, List.range_add (n := time + 1), List.flatMap_append]
  exact List.prefix_append _ _

variable {c}

/-- What was read stays a prefix of what is written. -/
theorem take_written {p : Pipe} {time time' took : Nat} (h : time ≤ time')
    (hwithin : took ≤ (c.written p time).length) :
    took ≤ (c.written p time').length ∧
      (c.written p time').take took = (c.written p time).take took := by
  obtain ⟨more, hmore⟩ := written_mono c p h
  rw [← hmore, List.take_append_of_le_length hwithin, List.length_append]
  exact ⟨by omega, rfl⟩

/-- From one moment to a later one, `more` was read of one pipe and nothing of
the others. -/
structure Extends (c : Child) (p : Pipe) (w w' : World) (more : List UInt8) : Prop where
  within : Within c w'
  here : c.taken p w' = c.taken p w ++ more
  there : ∀ q ≠ p, c.taken q w' = c.taken q w
  time : w.time ≤ w'.time

theorem Extends.refl (p : Pipe) {w : World} (hw : Within c w) : Extends c p w w [] where
  within := hw
  here := (List.append_nil _).symm
  there := fun _ _ => rfl
  time := Nat.le_refl _

theorem Extends.trans {p : Pipe} {w w' w'' : World} {more more' : List UInt8}
    (h : Extends c p w w' more) (h' : Extends c p w' w'' more') :
    Extends c p w w'' (more ++ more') where
  within := h'.within
  here := by rw [h'.here, h.here, List.append_assoc]
  there := fun q hq => (h'.there q hq).trans (h.there q hq)
  time := h.time.trans h'.time

theorem call_extends (p : Pipe) {w : World} (hw : Within c w) : Extends c p w (call s w) [] := by
  have htime : w.time ≤ (call s w).time := by
    simp only [call]
    omega
  refine ⟨fun q => (take_written htime (hw q)).1, ?_, fun q _ => ?_, ?_⟩
  · rw [List.append_nil]
    exact (take_written htime (hw p)).2
  · exact (take_written htime (hw q)).2
  · simp only [call]
    omega

theorem length_read_le (p : Pipe) (w : World) : (read c s p w).1.length ≤ chunkBytes := by
  simp only [read, List.length_take, chunkBytes]
  omega

/-- A read takes the next bytes of what there is. -/
theorem taken_read (p : Pipe) (w : World) :
    c.taken p (read c s p w).2 = c.taken p (call s w) ++ (read c s p w).1 := by
  simp only [read, Child.taken, Function.update_self, List.take_add]
  rw [List.length_take, ← List.take_eq_take_min]

theorem read_extends (p : Pipe) {w : World} (hw : Within c w) :
    Extends c p w (read c s p w).2 (read c s p w).1 := by
  have hcall := call_extends s p hw
  have hthere := hcall.within p
  refine ⟨fun q => ?_, ?_, fun q hq => ?_, hcall.time⟩
  · by_cases hq : q = p
    · subst hq
      simp only [read, Function.update_self, List.length_take, List.length_drop]
      omega
    · simpa only [read, Function.update_of_ne hq] using hcall.within q
  · rw [taken_read, hcall.here, List.append_nil]
  · rw [← hcall.there q hq]
    simp only [read, Child.taken, Function.update_of_ne hq]

/-- A read gives nothing only if everything was read. -/
theorem taken_of_read_nil {p : Pipe} {w : World} (h : (read c s p w).1 = []) :
    c.taken p (read c s p w).2 = c.written p (read c s p w).2.time := by
  have hall : (c.written p (call s w).time).length ≤ (call s w).took p := by
    have hnil : ¬ max 1 (min (s.grants w.calls) chunkBytes) = 0 := by omega
    simpa [read, List.take_eq_nil_iff, hnil] using h
  rw [taken_read, h, List.append_nil]
  exact List.take_of_length_le hall

/-- What a drain does, given the buffer it appends to. -/
structure Drained (c : Child) (max : Nat) (p : Pipe) (buffer : List UInt8) (w : World)
    (result : Bool × List UInt8 × World) : Prop where
  grown : ∃ more, result.2.1 = buffer ++ more ∧ Extends c p w result.2.2 more ∧
    result.2.2.calls ≤ w.calls + more.length + 1
  exceeded : result.1 = true → max < result.2.1.length
  emptied : result.1 = false → result.2.1.length ≤ max ∧
    c.taken p result.2.2 = c.written p result.2.2.time
  bounded : result.2.1.length ≤ max + chunkBytes

theorem drainFrom_drained {max : Nat} {p : Pipe} {buffer : List UInt8} {w : World}
    (hw : Within c w) (hbuffer : buffer.length ≤ max) :
    Drained c max p buffer w (drainFrom c s max p buffer w) := by
  -- Every read that gives something brings the buffer nearer to its cap.
  induction hn : max - buffer.length using Nat.strong_induction_on generalizing buffer w with
  | _ n ih =>
    have hread := read_extends s p hw
    have hcalls := read_calls c s p w
    have hlength := length_read_le (c := c) s p w
    rw [drainFrom]
    split
    next hnil =>
      rw [hnil] at hread
      exact ⟨⟨[], (List.append_nil _).symm, hread, by simp [hcalls]⟩, by simp,
        fun _ => ⟨hbuffer, taken_of_read_nil s hnil⟩, by dsimp only; omega⟩
    next hsome =>
      have hpos := List.length_pos_of_ne_nil hsome
      split
      next hover =>
        refine ⟨⟨_, rfl, hread, by dsimp only; omega⟩, fun _ => hover, by simp, ?_⟩
        simp only [List.length_append]
        omega
      next hroom =>
        have hshort : (buffer ++ (read c s p w).1).length ≤ max := Nat.not_lt.mp hroom
        have hless : max - (buffer ++ (read c s p w).1).length < n := by
          rw [List.length_append] at hshort ⊢
          omega
        obtain ⟨⟨more, hbuffer', hmore, hcalls'⟩, hover, hemptied, hbounded⟩ :=
          ih _ hless hread.within hshort rfl
        refine ⟨⟨(read c s p w).1 ++ more, ?_, hread.trans hmore, ?_⟩, hover, hemptied, hbounded⟩
        · rw [hbuffer', List.append_assoc]
        · rw [List.length_append]
          omega

theorem drain_drained {max : Nat} {p : Pipe} {buffer : List UInt8} {w : World}
    (hw : Within c w) (hbuffer : buffer.length ≤ max) :
    Drained c max p buffer w (drain c s max p buffer w) := by
  rw [drain, if_neg (Nat.not_lt.mpr hbuffer)]
  exact drainFrom_drained s hw hbuffer

theorem keepTail_append (max : Nat) (bytes more : List UInt8) :
    keepTail max (keepTail max bytes ++ more) = keepTail max (bytes ++ more) := by
  unfold keepTail
  rw [← List.drop_append_of_le_length (Nat.sub_le ..), List.drop_drop]
  congr 1
  simp only [List.length_append, List.length_drop]
  omega

/-- The tail that is kept is that of what was read. -/
theorem drainStderrTail_extends (chunks : Nat) {w : World} (hw : Within c w) :
    let result := drainStderrTail c s chunks (keepTail stderrTailBytes (c.taken .stderr w)) w
    ∃ more, Extends c .stderr w result.2 more ∧
      result.1 = keepTail stderrTailBytes (c.taken .stderr result.2) ∧
      result.2.calls ≤ w.calls + chunks := by
  induction chunks generalizing w with
  | zero =>
    simp only [drainStderrTail]
    exact ⟨[], .refl .stderr hw, True.intro, Nat.le_refl _⟩
  | succ chunks ih =>
    have hread := read_extends s .stderr hw
    have hcalls := read_calls c s .stderr w
    dsimp only
    rw [drainStderrTail]
    split
    next hnil =>
      have hhere := hread.here
      rw [hnil, List.append_nil] at hhere
      refine ⟨_, hread, ?_, ?_⟩
      · dsimp only
        rw [hhere]
      · dsimp only
        omega
    next =>
      obtain ⟨more, hmore, htail, hcalls'⟩ := ih hread.within
      rw [hread.here, ← keepTail_append] at hmore htail hcalls'
      exact ⟨_, hread.trans hmore, htail, by omega⟩

/-- The buffers hold what was read. -/
structure Buffered (c : Child) (b : Buffers) (w : World) : Prop where
  within : Within c w
  out : b.out = c.taken .stdout w
  tail : b.tail = keepTail stderrTailBytes (c.taken .stderr w)
  report : b.report = c.taken .report w

/-- Neither buffer is over its cap. -/
structure Capped (b : Buffers) : Prop where
  out : b.out.length ≤ maxReportBytes
  report : b.report.length ≤ reportStreamMaxBytes

/-- What the three drains do from `w` on. -/
structure DrainedAll (c : Child) (b : Buffers) (w : World) (result : Bool × Buffers × World) :
    Prop where
  buffered : Buffered c result.2.1 result.2.2
  time : w.time ≤ result.2.2.time
  calls : result.2.2.calls + b.out.length + b.report.length ≤
    w.calls + result.2.1.out.length + result.2.1.report.length + (stderrDrainChunksPerTick + 2)
  exceeded : result.1 = true →
    maxReportBytes < result.2.1.out.length ∨ reportStreamMaxBytes < result.2.1.report.length
  capped : result.1 = false → Capped result.2.1
  bounded : result.2.1.out.length ≤ maxReportBytes + chunkBytes ∧
    result.2.1.report.length ≤ reportStreamMaxBytes + chunkBytes
  /-- With nothing written any more, all of stdout and the report was read. -/
  emptied : result.1 = false → ∀ quiet ≤ w.time,
    (∀ time > quiet, ∀ p, c.writes time p = []) →
      result.2.1.out = c.written .stdout quiet ∧ result.2.1.report = c.written .report quiet

theorem written_quiet {quiet time : Nat} (h : ∀ time > quiet, ∀ p, c.writes time p = [])
    (hle : quiet ≤ time) (p : Pipe) : c.written p time = c.written p quiet := by
  obtain ⟨more, rfl⟩ := Nat.exists_eq_add_of_le hle
  unfold Child.written
  have hnone : ((List.range more).map (quiet + 1 + ·)).flatMap (fun t => c.writes t p) = [] := by
    rw [List.flatMap_eq_nil_iff]
    intro t ht
    obtain ⟨k, -, rfl⟩ := List.mem_map.mp ht
    exact h _ (by omega) p
  rw [Nat.add_right_comm, List.range_add (n := quiet + 1), List.flatMap_append, hnone,
    List.append_nil]

theorem drainAll_drained {b : Buffers} {w : World} (hb : Buffered c b w) (hcap : Capped b) :
    DrainedAll c b w (drainAll c s b w) := by
  obtain ⟨⟨more, hgrown, hout, hcalls⟩, hover, hemptied, hbounded⟩ :=
    drain_drained s (p := .stdout) hb.within hcap.out
  set out := drain c s maxReportBytes .stdout b.out w with hdrain
  have htail := drainStderrTail_extends s stderrDrainChunksPerTick hout.within
  rw [hout.there .stderr (by decide), ← hb.tail] at htail
  obtain ⟨moreTail, htail, htailEq, htailCalls⟩ := htail
  set tail := drainStderrTail c s stderrDrainChunksPerTick b.tail out.2.2 with hdrainTail
  obtain ⟨⟨moreReport, hgrown', hreport, hcalls'⟩, hover', hemptied', hbounded'⟩ :=
    drain_drained s (p := .report) htail.within hcap.report
  set report := drain c s reportStreamMaxBytes .report b.report tail.2 with hdrainReport
  have hresult : drainAll c s b w =
      (out.1 || report.1, ⟨out.2.1, tail.1, report.2.1⟩, report.2.2) := rfl
  rw [hresult]
  have houtTaken : out.2.1 = c.taken .stdout report.2.2 := by
    rw [hreport.there .stdout (by decide), htail.there .stdout (by decide), hout.here, ← hb.out,
      hgrown]
  have hreportTaken : report.2.1 = c.taken .report report.2.2 := by
    rw [hreport.here, htail.there .report (by decide), hout.there .report (by decide), ← hb.report,
      hgrown']
  refine
    { buffered := ⟨hreport.within, houtTaken, ?_, hreportTaken⟩
      time := hout.time.trans (htail.time.trans hreport.time)
      calls := ?_
      exceeded := fun h => ?_
      capped := fun h => ?_
      bounded := ⟨hbounded, hbounded'⟩
      emptied := fun h quiet hle hquiet => ?_ }
  · rw [hreport.there .stderr (by decide)]
    exact htailEq
  · dsimp only
    rw [hgrown, hgrown', List.length_append, List.length_append]
    omega
  · rcases (Bool.or_eq_true ..).mp h with h | h
    · exact .inl (hover h)
    · exact .inr (hover' h)
  · obtain ⟨h, h'⟩ := Bool.or_eq_false_iff.mp h
    exact ⟨(hemptied h).1, (hemptied' h').1⟩
  · obtain ⟨h, h'⟩ := Bool.or_eq_false_iff.mp h
    have houtTime := hout.time
    have hreportTime := hreport.time
    have htailTime := htail.time
    constructor
    · rw [← written_quiet hquiet (hle.trans houtTime), ← (hemptied h).2, hout.here, hgrown, hb.out]
    · rw [← written_quiet hquiet (hle.trans (houtTime.trans (htailTime.trans hreportTime))),
        ← (hemptied' h').2, ← hreportTaken]

/-! ## The loop -/

variable (c)

theorem call_time_le (w : World) : w.time ≤ (call s w).time := by
  simp only [call]
  omega

theorem read_time_le (p : Pipe) (w : World) : w.time ≤ (read c s p w).2.time := call_time_le s w

theorem drainFrom_time_le (max : Nat) (p : Pipe) (buffer : List UInt8) (w : World) :
    w.time ≤ (drainFrom c s max p buffer w).2.2.time := by
  induction hn : max + 1 - buffer.length using Nat.strong_induction_on generalizing buffer w with
  | _ n ih =>
    have hread := read_time_le c s p w
    rw [drainFrom]
    split
    next => exact hread
    next hsome =>
      split
      next => exact hread
      next hroom =>
        have hpos := List.length_pos_of_ne_nil hsome
        rw [List.length_append] at hroom
        exact hread.trans (ih _ (by rw [List.length_append]; omega) _ _ rfl)

theorem drain_time_le (max : Nat) (p : Pipe) (buffer : List UInt8) (w : World) :
    w.time ≤ (drain c s max p buffer w).2.2.time := by
  unfold drain
  split
  next => exact Nat.le_refl _
  next => exact drainFrom_time_le c s max p buffer w

theorem drainStderrTail_time_le (chunks : Nat) (buffer : List UInt8) (w : World) :
    w.time ≤ (drainStderrTail c s chunks buffer w).2.time := by
  induction chunks generalizing buffer w with
  | zero => exact Nat.le_refl _
  | succ chunks ih =>
    have hread := read_time_le c s .stderr w
    simp only [drainStderrTail]
    split
    next => exact hread
    next => exact hread.trans (ih _ _)

theorem drainAll_time_le (b : Buffers) (w : World) : w.time ≤ (drainAll c s b w).2.2.time :=
  (drain_time_le ..).trans ((drainStderrTail_time_le ..).trans (drain_time_le ..))

def sleep (w : World) : World :=
  { w with calls := w.calls + 1, time := w.time + sleepNanos + s.delay w.calls }

section

variable (fromSlice : List UInt8 → Except String Foundation.Json)
  (sha256 : List UInt8 → List UInt8)

/-- The loop of `supervise`. -/
def poll (deadline : Nat) (b : Buffers) (w : World) : Inspection × World :=
  let drained := drainAll c s b w
  if drained.1 then (.oversize, drained.2.2)
  else
    let polled := call s drained.2.2
    if c.unwaitable drained.2.2.calls then (.unavailable, polled)
    else match c.exited polled.time with
    | some success =>
      -- What was written just before the exit may still be in the pipes.
      let last := drainAll c s drained.2.1 polled
      if last.1 then (.oversize, last.2.2)
      else (finalize fromSlice sha256 success last.2.1.report last.2.1.tail, last.2.2)
    | none =>
      let now := call s polled
      if _h : deadline ≤ now.time then (.timeout, now)
      else poll deadline drained.2.1 (sleep s now)
termination_by deadline - w.time
decreasing_by
  have hdrained := drainAll_time_le c s b w
  have hpolled := call_time_le s (drainAll c s b w).2.2
  have hnow := call_time_le s (call s (drainAll c s b w).2.2)
  have hleft : ¬ deadline ≤ (call s (call s (drainAll c s b w).2.2)).time := _h
  simp only [sleep, sleepNanos]
  omega

/-- `supervise`, of a child whose pipes were captured or not, and could be made
non-blocking or not. -/
def supervise (captured nonblocking : Bool) (wallTimeout : Nat) : Inspection × World :=
  if !captured || !nonblocking then (.unavailable, .start)
  else
    let w := call s .start
    poll c s fromSlice sha256 (w.time + wallTimeout) ⟨[], [], []⟩ w

/-- How a call can end. -/
inductive Ended (deadline : Nat) : Inspection × World → Prop
  | oversize (b : Buffers) (w : World) : Buffered c b w →
      maxReportBytes < b.out.length ∨ reportStreamMaxBytes < b.report.length →
      Ended deadline (.oversize, w)
  | unavailable (call : Nat) (w : World) : c.unwaitable call = true →
      Ended deadline (.unavailable, w)
  | timeout (polled : World) : c.exited polled.time = none →
      deadline ≤ (call s polled).time → Ended deadline (.timeout, call s polled)
  | settled (b : Buffers) (polled : Nat) (success : Bool) (w : World) : Buffered c b w →
      Capped b → c.exited polled = some success →
      (∀ quiet ≤ polled, (∀ time > quiet, ∀ p, c.writes time p = []) →
        b.out = c.written .stdout quiet ∧ b.report = c.written .report quiet) →
      Ended deadline (finalize fromSlice sha256 success b.report b.tail, w)

variable {c}

/-- Time alone changes nothing of what was read. -/
theorem Buffered.later {b : Buffers} {w w' : World} (h : Buffered c b w)
    (htook : w'.took = w.took) (htime : w.time ≤ w'.time) : Buffered c b w' := by
  have htaken : ∀ p, c.taken p w' = c.taken p w := by
    intro p
    rw [Child.taken, htook]
    exact (take_written htime (h.within p)).2
  refine ⟨fun p => ?_, ?_, ?_, ?_⟩
  · rw [htook]
    exact (take_written htime (h.within p)).1
  · rw [htaken, h.out]
  · rw [htaken, h.tail]
  · rw [htaken, h.report]

theorem Buffered.call {b : Buffers} {w : World} (h : Buffered c b w) :
    Buffered c b (call s w) :=
  h.later rfl (call_time_le s w)

theorem Buffered.sleep {b : Buffers} {w : World} (h : Buffered c b w) :
    Buffered c b (sleep s w) := by
  refine h.later rfl ?_
  simp only [Supervise.sleep]
  omega

/-- Every turn of the loop ends in one of these ways, or sleeps and goes on. -/
theorem poll_ended (deadline : Nat) {b : Buffers} {w : World} (hb : Buffered c b w)
    (hcap : Capped b) :
    Ended c s fromSlice sha256 deadline (poll c s fromSlice sha256 deadline b w) := by
  induction hn : deadline - w.time using Nat.strong_induction_on generalizing b w with
  | _ n ih =>
    have hdrained := drainAll_drained s hb hcap
    rw [poll]
    dsimp only
    split
    next hover => exact .oversize _ _ hdrained.buffered (hdrained.exceeded hover)
    next hwithin =>
      have hcapped := hdrained.capped (by simpa using hwithin)
      have hbuffered := hdrained.buffered.call s
      split
      next hfails => exact .unavailable _ _ hfails
      next =>
        split
        next success hexited =>
          have hlast := drainAll_drained s hbuffered hcapped
          split
          next hover => exact .oversize _ _ hlast.buffered (hlast.exceeded hover)
          next hwithin' =>
            have hwithin' := Bool.eq_false_iff.mpr hwithin'
            exact .settled _ _ _ _ hlast.buffered (hlast.capped hwithin') hexited
              (hlast.emptied hwithin')
        next hrunning =>
          split
          next hlate => exact .timeout _ hrunning hlate
          next hearly =>
            have hdrainedTime := hdrained.time
            refine ih _ ?_ ((hbuffered.call s).sleep s) hcapped rfl
            simp only [call, sleep, sleepNanos] at hearly ⊢
            omega

/-! ## The number of calls -/

/-- The most calls that the turns of the loop make beyond those that read
something. -/
def rounds (left : Nat) : Nat :=
  21 * ((left + sleepNanos - 1) / sleepNanos + 1) + 18

theorem rounds_step {left left' : Nat}
    (h : left' + sleepNanos ≤ left ∨ left' = 0 ∧ 0 < left) : rounds left' + 21 ≤ rounds left := by
  unfold rounds sleepNanos at *
  omega

theorem poll_calls (deadline : Nat) {b : Buffers} {w : World} (hb : Buffered c b w)
    (hcap : Capped b) :
    (poll c s fromSlice sha256 deadline b w).2.calls + b.out.length + b.report.length ≤
      w.calls + (maxReportBytes + chunkBytes) + (reportStreamMaxBytes + chunkBytes) +
        rounds (deadline - w.time) := by
  induction hn : deadline - w.time using Nat.strong_induction_on generalizing b w with
  | _ n ih =>
    have hdrained := drainAll_drained s hb hcap
    have hcalls := hdrained.calls
    obtain ⟨hout, hreport⟩ := hdrained.bounded
    have hround : 39 ≤ rounds n := by
      unfold rounds sleepNanos
      omega
    have hchunks : stderrDrainChunksPerTick = 16 := rfl
    rw [poll]
    dsimp only
    split
    next hover =>
      dsimp only
      omega
    next hwithin =>
      have hcapped := hdrained.capped (by simpa using hwithin)
      have hbuffered := hdrained.buffered.call s
      have hpolled := call_calls s (drainAll c s b w).2.2
      split
      next hfails =>
        dsimp only
        omega
      next =>
        split
        next success hexited =>
          have hlast := drainAll_drained s hbuffered hcapped
          have hcalls' := hlast.calls
          obtain ⟨hout', hreport'⟩ := hlast.bounded
          split
          next hover =>
            dsimp only
            omega
          next hwithin' =>
            dsimp only
            omega
        next hrunning =>
          have hnow := call_calls s (call s (drainAll c s b w).2.2)
          split
          next hlate =>
            dsimp only
            omega
          next hearly =>
            have hdrainedTime := hdrained.time
            set slept := sleep s (call s (call s (drainAll c s b w).2.2)) with hslept
            have hcalls' : slept.calls = (drainAll c s b w).2.2.calls + 3 := rfl
            have hleft : deadline - slept.time + sleepNanos ≤ n ∨
                deadline - slept.time = 0 ∧ 0 < n := by
              simp only [hslept, call, sleep, sleepNanos] at hearly ⊢
              omega
            have hless : deadline - slept.time < n := by
              unfold sleepNanos at hleft
              omega
            have hrest := ih (w := slept) _ hless ((hbuffered.call s).sleep s) hcapped rfl
            have hrounds := rounds_step hleft
            omega

/-! ## The result -/

/-- More than a cap was written up to some time. -/
def Child.Over (c : Child) (time : Nat) : Prop :=
  maxReportBytes < (c.written .stdout time).length ∨
    reportStreamMaxBytes < (c.written .report time).length

theorem exited_eq_some {time : Nat} {success : Bool} (h : c.exited time = some success) :
    ∃ x, c.exit = some x ∧ x.time ≤ time ∧ x.success = success := by
  unfold Child.exited at h
  split at h
  next => simp at h
  next x hx =>
    split at h
    next hle => exact ⟨x, hx, hle, by simpa using h⟩
    next => simp at h

theorem exited_eq_none {time : Nat} {x : Exit} (hx : c.exit = some x) (h : c.exited time = none) :
    time < x.time := by
  unfold Child.exited at h
  rw [hx] at h
  dsimp only at h
  split at h
  next => simp at h
  next hlt => exact Nat.not_le.mp hlt

/-- With nothing written after the exit, what was read is part of what was
written up to it. -/
theorem length_taken_le {quiet : Nat} (h : ∀ time > quiet, ∀ p, c.writes time p = []) (p : Pipe)
    (w : World) : (c.taken p w).length ≤ (c.written p quiet).length := by
  have htaken : (c.taken p w).length ≤ (c.written p w.time).length := by
    rw [Child.taken, List.length_take]
    exact Nat.min_le_right ..
  rcases Nat.le_total quiet w.time with hle | hle
  · rwa [written_quiet h hle] at htaken
  · exact htaken.trans (written_mono c p hle).length_le

/-- What a call returns of a child that exits and leaves nobody who writes. -/
def Decided (c : Child) (x : Exit) (r : Inspection × World) : Prop :=
  (r.1 = .oversize ↔ c.Over x.time) ∧
    (¬ c.Over x.time → ∀ v, r.1 = v ↔ Settles fromSlice sha256 x.success
      (c.written .report x.time) (keepTail stderrTailBytes (c.taken .stderr r.2)) v)

theorem ended_exited {deadline : Nat} {r : Inspection × World}
    (h : Ended c s fromSlice sha256 deadline r) {x : Exit} (hx : c.exit = some x)
    (hquiet : ∀ time > x.time, ∀ p, c.writes time p = []) :
    (r.1 = .unavailable ∧ ∃ call, c.unwaitable call = true) ∨
      (r.1 = .timeout ∧ ∃ polled : World, polled.time < x.time ∧ r.2 = call s polled ∧
        deadline ≤ r.2.time) ∨
      Decided fromSlice sha256 c x r := by
  have hle := fun p w => length_taken_le hquiet p w
  cases h with
  | oversize b w hb hover =>
    rw [hb.out, hb.report] at hover
    have hOver : c.Over x.time :=
      hover.imp (fun h => h.trans_le (hle _ _)) (fun h => h.trans_le (hle _ _))
    exact .inr (.inr ⟨by simp [hOver], fun hnot => absurd hOver hnot⟩)
  | unavailable call w hfails => exact .inl ⟨rfl, call, hfails⟩
  | timeout polled hrunning hlate =>
    exact .inr (.inl ⟨rfl, polled, exited_eq_none hx hrunning, rfl, hlate⟩)
  | settled b polled success w hb hcapped hexited hemptied =>
    obtain ⟨x', hx', hpolled, rfl⟩ := exited_eq_some hexited
    obtain rfl : x = x' := Option.some.inj (hx.symm.trans hx')
    obtain ⟨hout, hreport⟩ := hemptied x.time hpolled hquiet
    have hnot : ¬ c.Over x.time := by
      have hcapOut := hcapped.out
      have hcapReport := hcapped.report
      rw [hout] at hcapOut
      rw [hreport] at hcapReport
      unfold Child.Over
      omega
    have hsettles := finalize_settles fromSlice sha256 x.success b.report b.tail
    refine .inr (.inr ⟨⟨fun hover => ?_, fun hover => absurd hover hnot⟩, fun _ v => ?_⟩)
    · dsimp only at hover
      rw [hover] at hsettles
      exact hsettles.elim
    · dsimp only
      rw [finalize_eq_iff, hb.tail, hreport]

/-- **The result of an inspection.**  Whatever the child does, the call ends
within a number of calls that the caps and the deadline give, at the deadline if
the child does not exit; and once the child has exited and nobody writes any
more, the result is decided by what was written and by the exit, however the
reads and the writes fell, unless the clock was found past the deadline after a
`try_wait` that was made before the exit. -/
theorem inspection_settled (c : Child) (s : Schedule) (wallTimeout : Nat) :
    let r := supervise c s fromSlice sha256 true true wallTimeout
    let deadline := (call s .start).time + wallTimeout
    (r.2.calls ≤ 1 + (maxReportBytes + chunkBytes) + (reportStreamMaxBytes + chunkBytes) +
        rounds wallTimeout ∧
      (r.1 = .timeout → deadline ≤ r.2.time) ∧
      (r.1 = .oversize → maxReportBytes < (c.taken .stdout r.2).length ∨
        reportStreamMaxBytes < (c.taken .report r.2).length) ∧
      (c.exit = none → r.1 = .timeout ∨ r.1 = .oversize ∨
        r.1 = .unavailable ∧ ∃ call, c.unwaitable call = true)) ∧
    ∀ x, c.exit = some x → (∀ time > x.time, ∀ p, c.writes time p = []) →
      (r.1 = .unavailable ∧ ∃ call, c.unwaitable call = true) ∨
      (r.1 = .timeout ∧ ∃ polled : World, polled.time < x.time ∧ r.2 = call s polled ∧
        deadline ≤ r.2.time) ∨
      Decided fromSlice sha256 c x r := by
  have hstart : Buffered c ⟨[], [], []⟩ (call s .start) := by
    have hnothing : ∀ p, c.taken p (call s .start) = [] := fun p => List.take_zero
    refine ⟨fun p => Nat.zero_le _, ?_, ?_, ?_⟩
    · rw [hnothing]
    · rw [hnothing, keepTail, List.drop_nil]
    · rw [hnothing]
  have hcap : Capped ⟨[], [], []⟩ := ⟨Nat.zero_le _, Nat.zero_le _⟩
  have hended := poll_ended s fromSlice sha256 ((call s .start).time + wallTimeout) hstart hcap
  have hcalls := poll_calls s fromSlice sha256 ((call s .start).time + wallTimeout) hstart hcap
  have hrun : supervise c s fromSlice sha256 true true wallTimeout =
      poll c s fromSlice sha256 ((call s .start).time + wallTimeout) ⟨[], [], []⟩
        (call s .start) := rfl
  dsimp only
  rw [hrun]
  refine ⟨⟨?_, ?_⟩, fun x hx hquiet => ended_exited s fromSlice sha256 hended hx hquiet⟩
  · rw [Nat.add_sub_cancel_left] at hcalls
    exact hcalls
  · generalize poll c s fromSlice sha256 _ _ _ = r at hended
    cases hended with
    | oversize b w hb hover =>
      rw [hb.out, hb.report] at hover
      exact ⟨by simp, fun _ => hover, fun _ => .inr (.inl rfl)⟩
    | unavailable call w hfails =>
      exact ⟨by simp, by simp, fun _ => .inr (.inr ⟨rfl, call, hfails⟩)⟩
    | timeout polled hrunning hlate => exact ⟨fun _ => hlate, by simp, fun _ => .inl rfl⟩
    | settled b polled success w hb hcapped hexited hemptied =>
      have hsettles := finalize_settles fromSlice sha256 success b.report b.tail
      obtain ⟨x, hx, -, -⟩ := exited_eq_some hexited
      refine ⟨fun htimeout => ?_, fun hover => ?_, fun hnone => by simp [hnone] at hx⟩
      · dsimp only at htimeout
        rw [htimeout] at hsettles
        exact hsettles.elim
      · dsimp only at hover
        rw [hover] at hsettles
        exact hsettles.elim

end

/-- An inspector that exits in time, between a `try_wait` and the look at the
clock that follows it. -/
theorem exit_missed :
    let c : Child := ⟨fun _ _ => [], some ⟨6, true⟩, fun _ => false⟩
    let s : Schedule := ⟨fun n => if n = 5 then 100 else 0, fun _ => chunkBytes⟩
    let r := supervise c s (fun _ => .error "") id true true 50
    6 < (call s .start).time + 50 ∧ (∀ time > 6, ∀ p, c.writes time p = []) ∧
      r.1 = .timeout ∧ ¬ Decided (fun _ => .error "") id c ⟨6, true⟩ r := by
  intro c s r
  have hnothing : ∀ p time, c.written p time = [] := by
    intro p time
    simp [c, Child.written]
  have hread : ∀ p w, (read c s p w).1 = [] := by
    intro p w
    simp [read, hnothing]
  have hresult : r.1 = .timeout := by
    simp only [r, supervise, Bool.not_true, Bool.or_self, Bool.false_eq_true, if_false]
    rw [poll]
    simp [drainAll, drain, drainFrom, drainStderrTail, stderrDrainChunksPerTick, hread,
      Child.exited, c, read_time, read_calls, call_time, call_calls, World.start, s]
  refine ⟨by decide, fun _ _ _ => rfl, hresult, ?_⟩
  rintro ⟨-, hdecided⟩
  have hnot : ¬ c.Over 6 := by simp [Child.Over, hnothing]
  exact (hdecided hnot .timeout).mp hresult

end

end Kwe.Reports.Supervise
