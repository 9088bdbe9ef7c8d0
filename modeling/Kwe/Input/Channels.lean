import Kwe.Input.Acks
import Kwe.Web.Pointer

/-!
The lines that cross the control pipes: those that the web and the video worker read from the
supervisor, and the acknowledgements that the supervisor reads from a worker.

* `toInputChannel_read`: the channel of the web worker reads as that of its pointer input;
* `lines_framed_iff`: the lines that are decoded are those within the cap if and only if none
  is longer, and no acknowledgement is ahead of the messages;
* `suffix_acknowledges`: the end of a line that was dropped is taken for an acknowledgement.
-/

namespace Kwe.Input.Channels

open Foundation Foundation.CappedLines Foundation.Runs
open Acks
open Web.Pointer (InputChannel maxInputMessageBytes)

/-! ## Channels -/

/-- `MAX_INPUT_READS_PER_POLL`. -/
def maxInputReadsPerPoll : Nat := 16

/-- `state` is what the lines change; `received` is all that was read so far, `handed` the
lines that were dispatched. -/
structure Channel (σ : Type) where
  pending : List UInt8
  state : σ
  received : List UInt8
  handed : List (List UInt8)

namespace Channel

variable {σ : Type} (dispatch : σ → List UInt8 → σ)

def new (s : σ) : Channel σ := ⟨[], s, [], []⟩

def hand (c : Channel σ) (line : List UInt8) : Channel σ :=
  { c with
    state := dispatch c.state line
    handed := c.handed ++ [line] }

def read (c : Channel σ) (chunk : List UInt8) : Channel σ :=
  let pending := c.pending ++ chunk
  let c := (Lines.lines newline [] pending).foldl (hand dispatch)
    { c with
      pending := Lines.rest newline [] pending
      received := c.received ++ chunk }
  if maxInputMessageBytes < c.pending.length then { c with pending := [] } else c

/-- These reads are ready. -/
def poll (c : Channel σ) (reads : List (Chunk 256)) : Channel σ :=
  (reads.take maxInputReadsPerPoll).foldl (fun c chunk => c.read dispatch chunk.bytes) c

inductive Event (σ : Type)
  | poll (reads : List (Chunk 256))
  /-- What is done between polls with what the lines left. -/
  | take (change : σ → σ)

def step (c : Channel σ) : Event σ → Channel σ
  | .poll reads => c.poll dispatch reads
  | .take change => { c with state := change c.state }

/-- The lines of a channel. -/
def reader (c : Channel σ) : Reader UInt8 := ⟨c.pending, c.received, c.handed⟩

/-- Lines are handed on, whatever they do. -/
theorem foldl_hand (c : Channel σ) (lines : List (List UInt8)) :
    lines.foldl (hand dispatch) c =
      { c with
        state := lines.foldl dispatch c.state
        handed := c.handed ++ lines } := by
  induction lines generalizing c with
  | nil => simp
  | cons line lines ih => simp [ih, hand]

variable {dispatch}

theorem reader_read (c : Channel σ) (chunk : List UInt8) :
    (c.read dispatch chunk).reader = c.reader.read newline maxInputMessageBytes chunk := by
  simp only [read, foldl_hand, reader, Reader.read]
  split
  next hlong => simp [hlong]
  next hshort => simp [hshort]

theorem framed_step {c : Channel σ} (h : CappedLines.Framed newline maxInputMessageBytes c.reader)
    (event : Event σ) : CappedLines.Framed newline maxInputMessageBytes (c.step dispatch event).reader := by
  cases event with
  | take change => exact h
  | poll reads =>
    simp only [step, poll]
    induction reads.take maxInputReadsPerPoll generalizing c with
    | nil => exact h
    | cons chunk reads ih =>
      refine ih (c := c.read dispatch chunk.bytes) ?_
      rw [reader_read]
      exact h.read chunk.bytes

theorem framed_run (dispatch : σ → List UInt8 → σ) (s : σ) (events : List (Event σ)) :
    CappedLines.Framed newline maxInputMessageBytes (run (step dispatch) (new s) events).reader :=
  invariant_run_all (I := fun c : Channel σ => CappedLines.Framed newline maxInputMessageBytes c.reader)
    (fun _ event h => framed_step h event) CappedLines.Framed.new events

end Channel

/-! ## The web worker -/

section Web

variable {F32 F64 : Type} {serde : Serde F32 F64}

theorem dispatch_pending (c : InputChannel F32) (pending line : List UInt8) :
    ({ c with pending := pending } : InputChannel F32).dispatch serde line =
      { c.dispatch serde line with pending := pending } := by
  unfold InputChannel.dispatch
  repeat' split
  all_goals rfl

theorem foldl_dispatch_pending (c : InputChannel F32) (pending : List UInt8)
    (lines : List (List UInt8)) :
    lines.foldl (InputChannel.dispatch serde) { c with pending := pending } =
      { lines.foldl (InputChannel.dispatch serde) c with pending := pending } := by
  induction lines generalizing c with
  | nil => rfl
  | cons line lines ih => rw [List.foldl_cons, dispatch_pending, ih, List.foldl_cons]

/-- The channel with the slots that its lines change. -/
def toInputChannel (c : Channel (InputChannel F32)) : InputChannel F32 :=
  { c.state with pending := c.pending }

/-- A read of the web worker is one of the channel that its pointer input has. -/
theorem toInputChannel_read (c : Channel (InputChannel F32)) (chunk : List UInt8) :
    toInputChannel (c.read (InputChannel.dispatch serde) chunk) =
      (toInputChannel c).read serde chunk := by
  simp only [toInputChannel, Channel.read, Channel.foldl_hand, InputChannel.read,
    foldl_dispatch_pending]
  split <;> rfl

end Web

/-! ## The video worker -/

inductive MediaCommand
  | play | pause | stop
  deriving DecidableEq, Repr

def mediaCommandFor (playback : String) : Option MediaCommand :=
  match playback with
  | "playing" => some .play
  | "paused" => some .pause
  | "stopped" => some .stop
  | _ => none

structure VideoInput where
  written : List (List UInt8)
  media : Option MediaCommand
  deriving DecidableEq, Repr

namespace VideoInput

def new : VideoInput := ⟨[], none⟩

def ack (v : VideoInput) (line : Option (List UInt8)) : VideoInput :=
  { v with written := v.written ++ line.toList }

/-- `dispatch` of the video worker: pointer and audio messages are acknowledged only. -/
def dispatch {F32 F64 : Type} (serde : Serde F32 F64) (v : VideoInput) (line : List UInt8) :
    VideoInput :=
  if (Utf8.decode line).isNone then v
  else
    match serde.fromSlice line with
    | none => v
    | some value =>
      match (Json.field value "type").bind Json.asStr with
      | some "pointer_position" =>
        match decodePointerLine serde line with
        | .ok _ => v.ack (InputChannel.ackOf value)
        | .error _ => v
      | some "media_state" =>
        match decodeMediaState serde line with
        | .ok state =>
          match mediaCommandFor state.playback with
          | some command => { v with media := some command }.ack (InputChannel.ackOf value)
          | none => v.ack (InputChannel.ackOf value)
        | .error _ => v
      | some "audio_bands" =>
        match decodeAudioFrame serde line with
        | .ok _ => v.ack (InputChannel.ackOf value)
        | .error _ => v
      | _ => v

end VideoInput

/-! ## Results -/

/-- The complete lines of a stream that are within a cap. -/
def within (cap : Nat) (stream : List UInt8) : List (List UInt8) :=
  (Lines.lines newline [] stream).filter fun line => decide (line.length ≤ cap)

/-- No complete line of a stream is longer than a cap. -/
def Short (cap : Nat) (stream : List UInt8) : Prop :=
  ∀ line ∈ Lines.lines newline [] stream, line.length ≤ cap

/-- **Lines.**  However the stream is cut into reads and polls, the lines that the supervisor,
the web worker and the video worker decode are those within the cap if and only if no line is
longer; and no acknowledgement is ahead of the messages sent. -/
theorem lines_framed_iff {F32 F64 : Type} (f32 : Floats F32) (f64 : Floats F64)
    (serde : Serde F32 F64) :
    (∀ events : List (Acks.Event F32 F64),
      let w := run (AckReader.step serde) (AckReader.new : AckReader f32 f64) events
      (w.handed = within maxAckBufferBytes w.received ↔ Short maxAckBufferBytes w.received) ∧
        w.inputAckSequence ≤ w.worker.inputSequence) ∧
      (∀ events : List (Channel.Event (InputChannel F32)),
        let c := run (Channel.step (InputChannel.dispatch serde)) (Channel.new .new) events
        c.handed = within maxInputMessageBytes c.received ↔
          Short maxInputMessageBytes c.received) ∧
      ∀ events : List (Channel.Event VideoInput),
        let c := run (Channel.step (VideoInput.dispatch serde)) (Channel.new .new) events
        c.handed = within maxInputMessageBytes c.received ↔
          Short maxInputMessageBytes c.received := by
  refine ⟨fun events => ?_, fun events => ?_, fun events => ?_⟩
  · have hinv : Acks.Inv (run (AckReader.step serde) (AckReader.new : AckReader f32 f64) events) :=
      inv_run serde events
    exact ⟨hinv.framed.handed_iff, hinv.acked⟩
  · exact (Channel.framed_run (InputChannel.dispatch serde) .new events).handed_iff
  · exact (Channel.framed_run (VideoInput.dispatch serde) .new events).handed_iff

/-- Part of a line, of one byte and more. -/
def filler (n : Nat) (h : n < 512) : Chunk 512 where
  bytes := List.replicate (n + 1) 120
  nonempty := List.cons_ne_nil _ _
  bounded := by
    rw [List.length_replicate]
    omega

/-- The line that acknowledges message 1. -/
def ackLine : Chunk 512 where
  bytes := "\x7b\"version\":1,\"type\":\"input_ack\",\"sequence\":1\x7d\n".toUTF8.toList
  nonempty := by decide +kernel
  bounded := by decide +kernel

/-- Message 1 is sent, then one line of more than the cap is read, which ends like an
acknowledgement. -/
def longLine : List (Acks.Event Quarter Quarter) :=
  [.forward ⟨.pointer 1 1 .move .two .two none .written, rfl⟩,
    .service [filler 511 (by decide), filler 511 (by decide), filler 0 (by decide), ackLine] false
      ⟨.written, .written, .written⟩]

theorem suffix_acknowledges :
    let w := run (AckReader.step quartersSerde) (AckReader.new : AckReader quarters quarters) longLine
    w.inputAckSequence = 1 ∧ w.handed.length = 1 ∧ within maxAckBufferBytes w.received = [] := by
  decide +kernel

end Kwe.Input.Channels
