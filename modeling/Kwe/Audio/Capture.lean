import Kwe.Foundation.Bytes
import Kwe.Foundation.Interleaved

/-!
The ring of the audio worker: bytes of the capture come in, windows of stereo
samples go out.

A sample is the bits of an `f32`.  The processes and pipes of the capture are
left out.
-/

namespace Kwe.Audio

open Foundation.Bytes Foundation.Interleaved

def maxSampleChunkFrames : Nat := 4096

/-- The bits of an `f32`. -/
abbrev Sample := BitVec 32

/-- `f32::from_le_bytes`. -/
def Sample.fromLeBytes (b0 b1 b2 b3 : UInt8) : Sample := BitVec.ofNat 32 (fromLe [b0, b1, b2, b3])

/-- The exponent is not all ones. -/
def Sample.isFinite (s : Sample) : Bool := (s >>> 23) &&& 0xFF#32 != 0xFF#32

structure Capture where
  samples : List Sample
  byteTail : List UInt8
  windowSamples : Nat
  dropNextSample : Bool
  nonFiniteDropped : Nat
  deriving DecidableEq, Repr

namespace Capture

def new (windowSamples : Nat) : Capture := ⟨[], [], windowSamples, false, 0⟩

/-- A saturating `u64`. -/
def countDropped (c : Capture) : Nat := min (c.nonFiniteDropped + 1) (2 ^ 64 - 1)

/-- The body of the loop of `push_bytes`. -/
def pushSample (c : Capture) (sample : Sample) : Capture :=
  if c.dropNextSample then
    { c with dropNextSample := false, nonFiniteDropped := c.countDropped }
  else if sample.isFinite then { c with samples := c.samples ++ [sample] }
  else { c with dropNextSample := true, nonFiniteDropped := c.countDropped }

/-- The loop of `push_bytes`, with what is left of the tail. -/
def convert : List UInt8 → Capture → Capture
  | b0 :: b1 :: b2 :: b3 :: rest, c => convert rest (c.pushSample (.fromLeBytes b0 b1 b2 b3))
  | tail, c => { c with byteTail := tail }

def cap (c : Capture) : Nat := (c.windowSamples + maxSampleChunkFrames) * 2

def trim (c : Capture) : Capture :=
  if c.cap < c.samples.length then { c with samples := takeLast c.cap c.samples } else c

def pushBytes (c : Capture) (bytes : List UInt8) : Capture := (convert (c.byteTail ++ bytes) c).trim

def takeWindow (c : Capture) : Option (List Sample × List Sample) × Capture :=
  if c.samples.length < c.windowSamples * 2 then (none, c)
  else
    let kept := takeLast (c.windowSamples * 2) c.samples
    (some ((pairs kept).map (·.1), (pairs kept).map (·.2)), { c with samples := [] })

/-! ## What the steps leave as it is -/

@[simp] theorem pushSample_windowSamples (c : Capture) (sample : Sample) :
    (c.pushSample sample).windowSamples = c.windowSamples := by
  unfold pushSample
  split
  · rfl
  · split <;> rfl

@[simp] theorem convert_windowSamples (bytes : List UInt8) (c : Capture) :
    (convert bytes c).windowSamples = c.windowSamples := by
  fun_induction convert bytes c with
  | case1 b0 b1 b2 b3 rest c ih => rw [ih, pushSample_windowSamples]
  | case2 => rfl

@[simp] theorem trim_windowSamples (c : Capture) : c.trim.windowSamples = c.windowSamples := by
  unfold trim
  split <;> rfl

@[simp] theorem trim_dropNextSample (c : Capture) : c.trim.dropNextSample = c.dropNextSample := by
  unfold trim
  split <;> rfl

@[simp] theorem trim_byteTail (c : Capture) : c.trim.byteTail = c.byteTail := by
  unfold trim
  split <;> rfl

/-! ## The bound -/

theorem trim_samples (c : Capture) : c.trim.samples = takeLast c.cap c.samples := by
  unfold trim
  by_cases h : c.cap < c.samples.length
  · rw [if_pos h]
  · rw [if_neg h, takeLast, Nat.sub_eq_zero_of_le (Nat.not_lt.mp h), List.drop_zero]

theorem length_samples_trim (c : Capture) : c.trim.samples.length ≤ c.cap := by
  rw [trim_samples, length_takeLast]
  exact Nat.min_le_left _ _

theorem length_samples_pushSample (c : Capture) (sample : Sample) :
    (c.pushSample sample).samples.length ≤ c.samples.length + 1 := by
  unfold pushSample
  split
  · exact Nat.le_succ _
  · split
    · simp
    · exact Nat.le_succ _

/-- A read adds a sample for each four of its bytes. -/
theorem length_samples_convert (bytes : List UInt8) (c : Capture) :
    (convert bytes c).samples.length ≤ c.samples.length + bytes.length / 4 := by
  fun_induction convert bytes c with
  | case1 b0 b1 b2 b3 rest c ih =>
    have hpush := length_samples_pushSample c (.fromLeBytes b0 b1 b2 b3)
    simp only [List.length_cons]
    omega
  | case2 => exact Nat.le_add_right _ _

end Capture

end Kwe.Audio
