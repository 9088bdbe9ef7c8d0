import Kwe.Audio.Capture
import Kwe.Foundation.Runs

/-!
The channels of the windows that the audio worker takes from its ring.

* `Session.window`: the window that a reader of the whole stream would take;
* `run_aligned`: in runs without a frame whose right sample alone is not
  finite, and without a window taken in the middle of a frame, the ring gives
  these windows.
-/

namespace Kwe.Audio

open Foundation.Interleaved Foundation.Runs

/-! ## The stream -/

/-- The whole samples of a stream. -/
def samplesOf : List UInt8 → List Sample
  | b0 :: b1 :: b2 :: b3 :: rest => .fromLeBytes b0 b1 b2 b3 :: samplesOf rest
  | _ => []

/-- The bytes after the last whole sample. -/
def tailOf : List UInt8 → List UInt8
  | _ :: _ :: _ :: _ :: rest => tailOf rest
  | tail => tail

abbrev Frame := Sample × Sample

def Frame.isFinite (f : Frame) : Bool := f.1.isFinite && f.2.isFinite

/-- The whole stereo frames of a stream. -/
def frames (stream : List UInt8) : List Frame := pairs (samplesOf stream)

theorem tailOf_short {bytes : List UInt8} (h : bytes.length < 4) : tailOf bytes = bytes := by
  match bytes, h with
  | [], _ => rfl
  | [_], _ => rfl
  | [_, _], _ => rfl
  | [_, _, _], _ => rfl

theorem length_tailOf (bytes : List UInt8) : (tailOf bytes).length < 4 := by
  fun_induction tailOf bytes with
  | case1 b0 b1 b2 b3 rest ih => exact ih
  | case2 bytes h =>
    match bytes, h with
    | [], _ => exact Nat.zero_lt_succ _
    | [_], _ => exact Nat.one_lt_succ_succ _
    | [_, _], _ => exact Nat.lt_of_sub_eq_succ rfl
    | [_, _, _], _ => exact Nat.lt_succ_self _
    | b0 :: b1 :: b2 :: b3 :: rest, h => exact absurd rfl (h b0 b1 b2 b3 rest)

theorem samplesOf_append (stream bytes : List UInt8) :
    samplesOf (stream ++ bytes) = samplesOf stream ++ samplesOf (tailOf stream ++ bytes) := by
  fun_induction tailOf stream with
  | case1 b0 b1 b2 b3 rest ih =>
    rw [List.cons_append, List.cons_append, List.cons_append, List.cons_append, samplesOf,
      samplesOf, ih, List.cons_append]
  | case2 stream h =>
    have hnone : samplesOf stream = [] := samplesOf.eq_2 stream h
    rw [hnone, List.nil_append]

theorem tailOf_append (stream bytes : List UInt8) :
    tailOf (stream ++ bytes) = tailOf (tailOf stream ++ bytes) := by
  fun_induction tailOf stream with
  | case1 b0 b1 b2 b3 rest ih =>
    rw [List.cons_append, List.cons_append, List.cons_append, List.cons_append, tailOf, ih]
  | case2 stream h => rfl

/-! ## The ring and the frames -/

/-- The frames that may still be in a window. -/
def kept (taken : Nat) (fs : List Frame) : List Frame := (fs.drop taken).filter Frame.isFinite

/-- A right sample that is not finite comes with a left one that is not. -/
def rightSound (f : Frame) : Bool := !f.1.isFinite || f.2.isFinite

/-- The ring holds the end of what it was given of the frames `fs` and of the
first sample of the next one. -/
structure Tracks (c : Capture) (taken : Nat) (fs : List Frame) (rest : List Sample) : Prop where
  short : rest.length < 2
  flag : c.dropNextSample = rest.any fun l => !l.isFinite
  suffix : c.samples <:+ interleave (kept taken fs) ++ rest.filter Sample.isFinite
  enough : min (2 * c.windowSamples) (interleave (kept taken fs) ++ rest.filter Sample.isFinite).length ≤
    c.samples.length

theorem kept_append {taken : Nat} {fs : List Frame} (h : taken ≤ fs.length) (f : Frame) :
    kept taken (fs ++ [f]) = kept taken fs ++ [f].filter Frame.isFinite := by
  unfold kept
  rw [List.drop_append_of_le_length h, List.filter_append]

theorem Tracks.concat {c : Capture} {taken : Nat} {fs fs' : List Frame} {rest rest' : List Sample}
    (h : Tracks c taken fs rest) (x : Sample) (hshort : rest'.length < 2)
    (hflag : c.dropNextSample = rest'.any fun l => !l.isFinite)
    (hlist : interleave (kept taken fs') ++ rest'.filter Sample.isFinite =
      interleave (kept taken fs) ++ rest.filter Sample.isFinite ++ [x]) :
    Tracks { c with samples := c.samples ++ [x] } taken fs' rest' := by
  obtain ⟨pre, hpre⟩ := h.suffix
  refine ⟨hshort, hflag, ⟨pre, by rw [hlist, ← hpre, List.append_assoc]⟩, ?_⟩
  have henough := h.enough
  rw [hlist]
  simp only [List.length_append, List.length_singleton] at henough ⊢
  omega

/-- **A sample.**  It begins a frame or ends one. -/
theorem Tracks.pushSample {c : Capture} {taken : Nat} {fs : List Frame} {rest : List Sample}
    (h : Tracks c taken fs rest) (htaken : taken ≤ fs.length) (x : Sample)
    (hsound : ∀ f ∈ pairs (interleave fs ++ (rest ++ [x])), rightSound f) :
    ∃ fs' rest', interleave fs' ++ rest' = interleave fs ++ (rest ++ [x]) ∧
      fs.length ≤ fs'.length ∧ Tracks (c.pushSample x) taken fs' rest' := by
  unfold Capture.pushSample
  match rest, h.short with
  | [], _ =>
    refine ⟨fs, [x], rfl, Nat.le_refl _, ?_⟩
    have hflag : c.dropNextSample = false := h.flag
    rw [if_neg (by rw [hflag]; exact Bool.false_ne_true)]
    by_cases hx : x.isFinite = true
    · rw [if_pos hx]
      exact h.concat x Nat.one_lt_two (by simp [hflag, hx]) (by simp [hx])
    · rw [if_neg hx]
      exact ⟨Nat.one_lt_two, by simp [hx], by simpa [hx] using h.suffix, by simpa [hx] using h.enough⟩
  | [l], _ =>
    refine ⟨fs ++ [(l, x)], [], by simp, by simp, ?_⟩
    have hkept := kept_append htaken (l, x)
    by_cases hl : l.isFinite = true
    · -- The right sample is finite too.
      have hmem : (l, x) ∈ pairs (interleave fs ++ ([l] ++ [x])) := by
        rw [pairs_interleave_append]
        exact List.mem_append_right _ List.mem_cons_self
      have hx : x.isFinite = true := by simpa [rightSound, hl] using hsound (l, x) hmem
      have hflag : c.dropNextSample = false := by simp [h.flag, hl]
      rw [if_neg (by rw [hflag]; exact Bool.false_ne_true), if_pos hx]
      refine h.concat x Nat.zero_lt_two hflag ?_
      simp [hkept, Frame.isFinite, hl, hx]
    · have hflag : c.dropNextSample = true := by simp [h.flag, hl]
      have hsame : kept taken (fs ++ [(l, x)]) = kept taken fs := by
        simp [hkept, Frame.isFinite, hl]
      rw [if_pos hflag]
      refine ⟨Nat.zero_lt_two, rfl, ?_, ?_⟩
      · simpa [hsame, hl] using h.suffix
      · simpa [hsame, hl] using h.enough

/-- **A read.**  Its samples are taken one after the other. -/
theorem Tracks.convert {bytes : List UInt8} {c : Capture} {taken : Nat} {fs : List Frame}
    {rest : List Sample} (h : Tracks c taken fs rest) (htaken : taken ≤ fs.length)
    (hsound : ∀ f ∈ pairs (interleave fs ++ (rest ++ samplesOf bytes)), rightSound f) :
    ∃ fs' rest', interleave fs' ++ rest' = interleave fs ++ (rest ++ samplesOf bytes) ∧
      fs.length ≤ fs'.length ∧ Tracks (Capture.convert bytes c) taken fs' rest' := by
  fun_induction Capture.convert bytes c generalizing fs rest with
  | case1 b0 b1 b2 b3 bytes c ih =>
    rw [samplesOf] at hsound ⊢
    generalize Sample.fromLeBytes b0 b1 b2 b3 = x at *
    have hsplit : interleave fs ++ (rest ++ x :: samplesOf bytes) =
        interleave fs ++ (rest ++ [x]) ++ samplesOf bytes := by simp
    rw [hsplit] at hsound ⊢
    obtain ⟨fs₁, rest₁, hlist, hle, htracks⟩ := h.pushSample htaken x fun f hf =>
      hsound f ((pairs_initial _ _).subset hf)
    rw [← hlist, List.append_assoc] at hsound
    obtain ⟨fs₂, rest₂, hlist', hle', htracks'⟩ := ih htracks (htaken.trans hle) hsound
    exact ⟨fs₂, rest₂, by rw [hlist', ← List.append_assoc, hlist], hle.trans hle', htracks'⟩
  | case2 bytes c hshort =>
    rw [samplesOf.eq_2 bytes hshort, List.append_nil]
    exact ⟨fs, rest, rfl, Nat.le_refl _, h.short, h.flag, h.suffix, h.enough⟩

theorem convert_byteTail (bytes : List UInt8) (c : Capture) :
    (Capture.convert bytes c).byteTail = tailOf bytes := by
  fun_induction Capture.convert bytes c with
  | case1 b0 b1 b2 b3 bytes c ih => rw [ih, tailOf]
  | case2 bytes c hshort => rw [tailOf.eq_2 bytes hshort]

/-- Trimming keeps more than a window. -/
theorem Tracks.trim {c : Capture} {taken : Nat} {fs : List Frame} {rest : List Sample}
    (h : Tracks c taken fs rest) : Tracks c.trim taken fs rest where
  short := h.short
  flag := by rw [Capture.trim_dropNextSample, h.flag]
  suffix := by
    rw [Capture.trim_samples]
    exact (takeLast_isSuffix _ _).trans h.suffix
  enough := by
    rw [Capture.trim_samples, Capture.trim_windowSamples, length_takeLast]
    refine Nat.le_min.mpr ⟨(Nat.min_le_left _ _).trans ?_, h.enough⟩
    unfold Capture.cap
    omega

/-! ## Runs -/

/-- A capture, the bytes that it was given, and the number of whole frames of
them when the last window was taken. -/
structure Session where
  capture : Capture
  stream : List UInt8
  taken : Nat

inductive Input
  | pushBytes (bytes : List UInt8)
  | takeWindow

namespace Session

def new (windowSamples : Nat) : Session := ⟨.new windowSamples, [], 0⟩

def step (s : Session) : Input → Session
  | .pushBytes bytes =>
    { s with capture := s.capture.pushBytes bytes, stream := s.stream ++ bytes }
  | .takeWindow =>
    { s with
      capture := s.capture.takeWindow.2
      taken := if s.capture.takeWindow.1.isSome then (frames s.stream).length else s.taken }

/-- The window that the whole stream asks for: the newest frames without a
sample that is not finite, of those since the last window. -/
def window (s : Session) : Option (List Sample × List Sample) :=
  let fs := kept s.taken (frames s.stream)
  if fs.length < s.capture.windowSamples then none
  else
    let newest := takeLast s.capture.windowSamples fs
    some (newest.map (·.1), newest.map (·.2))

/-- The ring is bounded, also during a read, and a window has whole frames. -/
def Aligned (s : Session) : Input → Prop
  | .pushBytes bytes =>
    (s.capture.pushBytes bytes).samples.length ≤
        2 * (s.capture.windowSamples + maxSampleChunkFrames) ∧
      (Capture.convert (s.capture.byteTail ++ bytes) s.capture).samples.length ≤
        2 * (s.capture.windowSamples + maxSampleChunkFrames) + (3 + bytes.length) / 4
  | .takeWindow =>
    s.capture.takeWindow.1 = s.window ∧
      ∀ left right, s.capture.takeWindow.1 = some (left, right) →
        left.length = s.capture.windowSamples ∧ right.length = s.capture.windowSamples

/-- No right sample alone is not finite, and no window is taken in the middle
of a frame. -/
def Whole (s : Session) : Input → Prop
  | .pushBytes bytes => (frames (s.stream ++ bytes)).all rightSound = true
  | .takeWindow =>
    s.capture.windowSamples * 2 ≤ s.capture.samples.length → (samplesOf s.stream).length % 2 = 0

instance (s : Session) : ∀ i, Decidable (s.Whole i)
  | .pushBytes _ => inferInstanceAs (Decidable (_ = true))
  | .takeWindow => inferInstanceAs (Decidable (_ → _))

/-- What holds between two steps. -/
structure Inv (s : Session) : Prop where
  tail : s.capture.byteTail = tailOf s.stream
  bounded : s.capture.samples.length ≤ s.capture.cap
  tracks : ∃ fs rest, samplesOf s.stream = interleave fs ++ rest ∧ s.taken ≤ fs.length ∧
    Tracks s.capture s.taken fs rest

theorem new_inv (w : Nat) : (new w).Inv :=
  ⟨rfl, Nat.zero_le _, [], [], rfl, Nat.le_refl _, Nat.zero_lt_two, rfl, List.nil_suffix,
    Nat.min_le_right _ _⟩

theorem pushBytes_inv {s : Session} (hs : s.Inv) {bytes : List UInt8}
    (hwhole : s.Whole (.pushBytes bytes)) : (s.step (.pushBytes bytes)).Inv := by
  obtain ⟨fs, rest, hsamples, htaken, htracks⟩ := hs.tracks
  have hstream : samplesOf (s.stream ++ bytes) =
      interleave fs ++ (rest ++ samplesOf (s.capture.byteTail ++ bytes)) := by
    rw [samplesOf_append, hsamples, hs.tail, List.append_assoc]
  dsimp only [Whole, frames] at hwhole
  rw [hstream, List.all_eq_true] at hwhole
  obtain ⟨fs', rest', hlist, hle, htracks'⟩ := htracks.convert htaken hwhole
  refine ⟨?_, ?_, fs', rest', ?_, htaken.trans hle, htracks'.trim⟩
  · dsimp only [step, Capture.pushBytes]
    rw [Capture.trim_byteTail, convert_byteTail, hs.tail]
    exact (tailOf_append _ _).symm
  · have hbound := Capture.length_samples_trim
      (Capture.convert (s.capture.byteTail ++ bytes) s.capture)
    unfold Capture.cap at hbound ⊢
    simpa [step, Capture.pushBytes] using hbound
  · exact hstream.trans hlist.symm

theorem Inv.frames {s : Session} (hs : s.Inv) : ∃ rest,
    samplesOf s.stream = interleave (frames s.stream) ++ rest ∧
      s.taken ≤ (Audio.frames s.stream).length ∧
        Tracks s.capture s.taken (Audio.frames s.stream) rest := by
  obtain ⟨fs, rest, hsamples, htaken, htracks⟩ := hs.tracks
  have hframes : Audio.frames s.stream = fs := by
    rw [Audio.frames, hsamples, pairs_interleave fs htracks.short]
  rw [hframes]
  exact ⟨rest, hsamples, htaken, htracks⟩

/-- Between frames there is no sample of an unfinished one. -/
theorem rest_eq_nil {s : Session} {rest : List Sample} (hshort : rest.length < 2)
    (hsamples : samplesOf s.stream = interleave (Audio.frames s.stream) ++ rest)
    (heven : (samplesOf s.stream).length % 2 = 0) : rest = [] := by
  rw [hsamples, List.length_append, length_interleave] at heven
  exact List.eq_nil_of_length_eq_zero (by omega)

/-- **A window.**  It is taken where the stream has one, and between frames it
has the newest of them. -/
theorem takeWindow_eq {s : Session} (hs : s.Inv) (hwhole : s.Whole .takeWindow) :
    s.capture.takeWindow.1 = s.window := by
  obtain ⟨rest, hsamples, -, htracks⟩ := hs.frames
  have henough := htracks.enough
  unfold Capture.takeWindow window
  by_cases hfew : s.capture.samples.length < s.capture.windowSamples * 2
  · have hkept : (kept s.taken (Audio.frames s.stream)).length < s.capture.windowSamples := by
      rw [List.length_append, length_interleave] at henough
      omega
    dsimp only
    rw [if_pos hfew, if_pos hkept]
  · have hrest := rest_eq_nil htracks.short hsamples (hwhole (Nat.not_lt.mp hfew))
    have hsuffix := htracks.suffix
    rw [hrest, List.filter_nil, List.append_nil] at hsuffix
    have hlength := hsuffix.length_le
    rw [length_interleave] at hlength
    have hkept : ¬ (kept s.taken (Audio.frames s.stream)).length < s.capture.windowSamples := by
      omega
    have hnewest : pairs (takeLast (s.capture.windowSamples * 2) s.capture.samples) =
        takeLast s.capture.windowSamples (kept s.taken (Audio.frames s.stream)) := by
      rw [takeLast_suffix hsuffix (Nat.not_lt.mp hfew), Nat.mul_comm, takeLast_interleave,
        ← List.append_nil (interleave _), @pairs_interleave Sample _ [] Nat.zero_lt_two]
    dsimp only
    rw [if_neg hfew, if_neg hkept, hnewest]

theorem takeWindow_inv {s : Session} (hs : s.Inv) (hwhole : s.Whole .takeWindow) :
    (s.step .takeWindow).Inv := by
  obtain ⟨rest, hsamples, htaken, htracks⟩ := hs.frames
  unfold step Capture.takeWindow
  by_cases hfew : s.capture.samples.length < s.capture.windowSamples * 2
  · dsimp only
    rw [if_pos hfew]
    exact hs
  · have hrest := rest_eq_nil htracks.short hsamples (hwhole (Nat.not_lt.mp hfew))
    subst hrest
    dsimp only
    rw [if_neg hfew]
    refine ⟨hs.tail, Nat.zero_le _, _, [], hsamples, Nat.le_refl _, ?_⟩
    refine ⟨Nat.zero_lt_two, htracks.flag, List.nil_suffix, ?_⟩
    simp [kept]

theorem step_inv {s : Session} {i : Input} (hs : s.Inv) (hwhole : s.Whole i) : (s.step i).Inv := by
  cases i with
  | pushBytes bytes => exact pushBytes_inv hs hwhole
  | takeWindow => exact takeWindow_inv hs hwhole

theorem length_window {s : Session} {left right : List Sample} (h : s.window = some (left, right)) :
    left.length = s.capture.windowSamples ∧ right.length = s.capture.windowSamples := by
  unfold window at h
  dsimp only at h
  split at h
  next => cases h
  next hlength =>
    obtain ⟨rfl, rfl⟩ := Prod.mk.inj (Option.some.inj h)
    rw [List.length_map, List.length_map, length_takeLast]
    omega

theorem aligned {s : Session} {i : Input} (hs : s.Inv) (hwhole : s.Whole i) : s.Aligned i := by
  cases i with
  | pushBytes bytes =>
    have hread := Capture.length_samples_convert (s.capture.byteTail ++ bytes) s.capture
    have hbound := Capture.length_samples_trim
      (Capture.convert (s.capture.byteTail ++ bytes) s.capture)
    have hring := hs.bounded
    have htail := length_tailOf s.stream
    rw [← hs.tail] at htail
    rw [List.length_append] at hread
    unfold Capture.cap at hring hbound
    rw [Capture.convert_windowSamples] at hbound
    refine ⟨?_, ?_⟩
    · rw [Nat.mul_comm]
      exact hbound
    · omega
  | takeWindow =>
    have hwindow := takeWindow_eq hs hwhole
    exact ⟨hwindow, fun left right h => length_window (hwindow ▸ h)⟩

end Session

/-- **Alignment.**  In every run in which no right sample alone is not finite
and no window is taken in the middle of a frame, every window has whole frames
of the stream, the newest ones, and the ring is bounded. -/
theorem run_aligned {windowSamples : Nat} {inputs : List Input}
    (h : Along Session.step Session.Whole (Session.new windowSamples) inputs) :
    Along Session.step Session.Aligned (Session.new windowSamples) inputs :=
  along_of_invariant (fun _ _ => Session.step_inv) (fun _ _ => Session.aligned)
    (Session.new_inv windowSamples) h

/-- 33 frames, the first with a left sample that is not finite. -/
def leftNaN : List UInt8 :=
  [0, 0, 0xC0, 0x7F, 2, 0, 0, 0] ++ (List.replicate 32 [1, 0, 0, 0, 2, 0, 0, 0]).flatten

/-- A stream that is read in two parts, the first of which ends in a sample. -/
theorem run_aligned_twoReads :
    Along Session.step Session.Aligned (Session.new 32)
      [.pushBytes (leftNaN.take 203), .takeWindow, .pushBytes (leftNaN.drop 203), .takeWindow] :=
  run_aligned (by decide +kernel)

/-- 32 frames and the left sample of another one. -/
def oddRead : List UInt8 := (List.replicate 32 [1, 0, 0, 0, 2, 0, 0, 0]).flatten ++ [1, 0, 0, 0]

/-- 34 frames, the last but one with a right sample that is not finite. -/
def rightNaN : List UInt8 :=
  (List.replicate 32 [1, 0, 0, 0, 2, 0, 0, 0]).flatten ++
    [1, 0, 0, 0, 0, 0, 0xC0, 0x7F, 3, 0, 0, 0, 4, 0, 0, 0]

/-- A read that ends in the middle of a frame swaps the channels, and a right
sample that is not finite makes a frame of two. -/
theorem channels_swapped :
    ¬ Along Session.step Session.Aligned (Session.new 32) [.pushBytes oddRead, .takeWindow] ∧
      ¬ Along Session.step Session.Aligned (Session.new 32) [.pushBytes rightNaN, .takeWindow] :=
  ⟨fun h => absurd h.2.1.1 (by decide +kernel), fun h => absurd h.2.1.1 (by decide +kernel)⟩

end Kwe.Audio
