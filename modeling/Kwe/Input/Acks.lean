import Kwe.Foundation.CappedLines
import Kwe.Input.Control

/-!
The acknowledgements of the active worker, which the supervisor reads before it drains what
waits for the control pipe.

* `step_control`: the worker makes the steps of the control pipe;
* `Inv.step`: no acknowledgement is ahead of the messages sent, and the lines are those of a
  reader with a cap.

A read of no bytes, or one that fails, ends the reads of a drain.
-/

namespace Kwe.Input.Acks

open Foundation Foundation.CappedLines Foundation.Runs
open Control
open Supervisor (saturatingSucc64)

/-! ## The reader -/

/-- `MAX_ACK_BUFFER_BYTES`. -/
def maxAckBufferBytes : Nat := 1024

/-- `MAX_ACK_READ_BYTES_PER_TICK`. -/
def maxAckReadBytesPerTick : Nat := 4096

/-- What a read into a buffer of this size took. -/
structure Chunk (size : Nat) where
  bytes : List UInt8
  nonempty : bytes ≠ []
  bounded : bytes.length ≤ size

section Reader

variable {F32 F64 : Type} {f32 : Floats F32} {f64 : Floats F64}

/-- `received` is all that was read so far, `handed` the lines that were decoded. -/
structure AckReader (f32 : Floats F32) (f64 : Floats F64) where
  worker : ActiveWorker f32 f64
  inputAckSequence : UInt64
  inputAckBuffer : List UInt8
  received : List UInt8
  handed : List (List UInt8)

namespace AckReader

def new : AckReader f32 f64 := ⟨ActiveWorker.new f32 f64, 0, [], [], []⟩

def protocolError (w : AckReader f32 f64) : AckReader f32 f64 :=
  { w with worker.inputProtocolErrors := saturatingSucc64 w.worker.inputProtocolErrors }

/-- A line is decoded with its newline. -/
def handle (serde : Serde F32 F64) (w : AckReader f32 f64) (line : List UInt8) :
    AckReader f32 f64 :=
  let w := { w with handed := w.handed ++ [line] }
  match decodeAckLine serde (line ++ [newline]) with
  | .ok ack =>
    if ack.sequence ≤ w.worker.inputSequence then { w with inputAckSequence := ack.sequence }
    else w.protocolError
  | .error _ => w.protocolError

def readAcks (serde : Serde F32 F64) (w : AckReader f32 f64) (chunk : List UInt8) :
    AckReader f32 f64 :=
  let buffer := w.inputAckBuffer ++ chunk
  let w := (Lines.lines newline [] buffer).foldl (handle serde)
    { w with
      inputAckBuffer := Lines.rest newline [] buffer
      received := w.received ++ chunk }
  if maxAckBufferBytes < w.inputAckBuffer.length then
    protocolError { w with inputAckBuffer := [] }
  else w

/-- After these reads one takes nothing, or fails with another error than `WouldBlock`. -/
def drainInputAcks (serde : Serde F32 F64) (failed : Bool) (total : Nat) :
    List (Chunk 512) → AckReader f32 f64 → AckReader f32 f64
  | [], w => if failed ∧ total < maxAckReadBytesPerTick then w.protocolError else w
  | chunk :: reads, w =>
    if total < maxAckReadBytesPerTick then
      drainInputAcks serde failed (total + chunk.bytes.length) reads
        (w.readAcks serde chunk.bytes)
    else w

/-- The acknowledgements are read, then what waits is written. -/
def serviceActiveInput (serde : Serde F32 F64) (reads : List (Chunk 512)) (failed : Bool)
    (writes : Writes) (w : AckReader f32 f64) : AckReader f32 f64 :=
  let w := drainInputAcks serde failed 0 reads w
  { w with worker := Control.serviceActiveInput 0 writes w.worker }

end AckReader

/-- A message that is forwarded. -/
def isForward : Command F32 F64 → Bool
  | .service .. => false
  | _ => true

inductive Event (F32 F64 : Type)
  | forward (command : { command : Command F32 F64 // isForward command = true })
  | service (reads : List (Chunk 512)) (failed : Bool) (writes : Writes)

def AckReader.step (serde : Serde F32 F64) (w : AckReader f32 f64) :
    Event F32 F64 → AckReader f32 f64
  | .forward command => { w with worker := Control.step w.worker command.1 }
  | .service reads failed writes => w.serviceActiveInput serde reads failed writes

/-! ## What the acknowledgements change -/

/-- Only errors are counted. -/
structure Counts (before after : ActiveWorker f32 f64) : Prop where
  same : after = { before with inputProtocolErrors := after.inputProtocolErrors }
  counted : before.inputProtocolErrors < 2 ^ 64 →
    before.inputProtocolErrors ≤ after.inputProtocolErrors ∧ after.inputProtocolErrors < 2 ^ 64

namespace Counts

variable {first second third : ActiveWorker f32 f64}

theorem refl (worker : ActiveWorker f32 f64) : Counts worker worker :=
  ⟨rfl, fun h => ⟨Nat.le_refl _, h⟩⟩

theorem trans (h : Counts first second) (h' : Counts second third) : Counts first third := by
  refine ⟨?_, fun hfirst => ?_⟩
  · rw [h'.same, h.same]
  · have hsecond := h.counted hfirst
    have hthird := h'.counted hsecond.2
    omega

theorem inputSequence_eq (h : Counts first second) : second.inputSequence = first.inputSequence := by
  rw [h.same]

end Counts

theorem counts_protocolError (w : AckReader f32 f64) :
    Counts w.worker w.protocolError.worker := by
  refine ⟨rfl, fun h => ?_⟩
  simp only [AckReader.protocolError, saturatingSucc64]
  omega

/-- What lines do: they are handed on, and count errors or acknowledge what was sent. -/
structure Handles (lines : List (List UInt8)) (before after : AckReader f32 f64) : Prop where
  buffer : after.inputAckBuffer = before.inputAckBuffer
  received : after.received = before.received
  handed : after.handed = before.handed ++ lines
  worker : Counts before.worker after.worker
  acked : before.inputAckSequence ≤ before.worker.inputSequence →
    after.inputAckSequence ≤ before.worker.inputSequence

variable (serde : Serde F32 F64) {w : AckReader f32 f64}

theorem handle_spec (line : List UInt8) : Handles [line] w (w.handle serde line) := by
  unfold AckReader.handle
  dsimp only
  split
  · split
    next hle => exact ⟨rfl, rfl, rfl, Counts.refl _, fun _ => hle⟩
    next => exact ⟨rfl, rfl, rfl, counts_protocolError w, id⟩
  · exact ⟨rfl, rfl, rfl, counts_protocolError w, id⟩

theorem foldl_handle_spec (lines : List (List UInt8)) :
    Handles lines w (lines.foldl (AckReader.handle serde) w) := by
  induction lines generalizing w with
  | nil => exact ⟨rfl, rfl, (List.append_nil _).symm, Counts.refl _, id⟩
  | cons line lines ih =>
    have hline := handle_spec serde (w := w) line
    have hlines := ih (w := w.handle serde line)
    refine ⟨hlines.buffer.trans hline.buffer, hlines.received.trans hline.received, ?_,
      hline.worker.trans hlines.worker, fun hacked => ?_⟩
    · rw [List.foldl_cons, hlines.handed, hline.handed, List.append_assoc, List.singleton_append]
    · have hsequence := hline.worker.inputSequence_eq
      rw [← hsequence] at hacked ⊢
      exact hlines.acked (hsequence ▸ hline.acked (hsequence ▸ hacked))

/-- The lines of a reader. -/
def AckReader.reader (w : AckReader f32 f64) : Reader UInt8 :=
  ⟨w.inputAckBuffer, w.received, w.handed⟩

/-- What a reader keeps: its errors are within their type, no acknowledgement is ahead of the
messages sent, and its lines are those of a reader with a cap. -/
structure Inv (w : AckReader f32 f64) : Prop where
  errors : w.worker.inputProtocolErrors < 2 ^ 64
  acked : w.inputAckSequence ≤ w.worker.inputSequence
  framed : CappedLines.Framed newline maxAckBufferBytes w.reader

/-- What reads do: errors are counted, and the invariant is kept. -/
structure Reads (before after : AckReader f32 f64) : Prop where
  worker : Counts before.worker after.worker
  inv : Inv before → Inv after

/-- Errors that are counted keep the invariant. -/
theorem Inv.counts {after : AckReader f32 f64} (h : Inv w) (hworker : Counts w.worker after.worker)
    (hacked : w.inputAckSequence ≤ w.worker.inputSequence →
      after.inputAckSequence ≤ w.worker.inputSequence)
    (hframed : CappedLines.Framed newline maxAckBufferBytes after.reader) : Inv after where
  errors := (hworker.counted h.errors).2
  acked := by
    rw [hworker.inputSequence_eq]
    exact hacked h.acked
  framed := hframed

theorem readAcks_reads (chunk : List UInt8) : Reads w (w.readAcks serde chunk) := by
  have hlines := foldl_handle_spec serde
    (w := { w with
      inputAckBuffer := Lines.rest newline [] (w.inputAckBuffer ++ chunk)
      received := w.received ++ chunk })
    (Lines.lines newline [] (w.inputAckBuffer ++ chunk))
  have hreader : (w.readAcks serde chunk).reader =
      w.reader.read newline maxAckBufferBytes chunk := by
    simp only [AckReader.readAcks, AckReader.reader, Reader.read, hlines.buffer]
    split
    next hlong => simp [AckReader.protocolError, hlines.received, hlines.handed, hlong]
    next hshort => simp [hlines.buffer, hlines.received, hlines.handed, hshort]
  have hworker : Counts w.worker (w.readAcks serde chunk).worker := by
    simp only [AckReader.readAcks]
    split
    · exact hlines.worker.trans (counts_protocolError _)
    · exact hlines.worker
  have hacked : w.inputAckSequence ≤ w.worker.inputSequence →
      (w.readAcks serde chunk).inputAckSequence ≤ w.worker.inputSequence := by
    intro hacked
    simp only [AckReader.readAcks]
    split
    · exact hlines.acked hacked
    · exact hlines.acked hacked
  refine ⟨hworker, fun h => h.counts hworker hacked ?_⟩
  rw [hreader]
  exact h.framed.read chunk

theorem drainInputAcks_reads (failed : Bool) (total : Nat) (reads : List (Chunk 512)) :
    Reads w (w.drainInputAcks serde failed total reads) := by
  induction reads generalizing total w with
  | nil =>
    rw [AckReader.drainInputAcks]
    split
    · exact ⟨counts_protocolError w, fun h => h.counts (counts_protocolError w) id h.framed⟩
    · exact ⟨Counts.refl _, id⟩
  | cons chunk reads ih =>
    rw [AckReader.drainInputAcks]
    split
    · have hread := readAcks_reads serde (w := w) chunk.bytes
      have hrest := ih (w := w.readAcks serde chunk.bytes) (total + chunk.bytes.length)
      exact ⟨hread.worker.trans hrest.worker, fun h => hrest.inv (hread.inv h)⟩
    · exact ⟨Counts.refl _, id⟩

/-! ## Steps -/

theorem le_raiseAckCeiling (worker : ActiveWorker f32 f64) (sequence : UInt64) :
    worker.inputSequence ≤ (raiseAckCeiling worker sequence).inputSequence := by
  simp only [raiseAckCeiling, UInt64.le_iff_toNat_le]
  rw [show max worker.inputSequence sequence =
    if worker.inputSequence ≤ sequence then sequence else worker.inputSequence from rfl]
  split
  next hle => exact UInt64.le_iff_toNat_le.mp hle
  next => exact Nat.le_refl _

/-- The sequence of the messages never falls. -/
theorem inputSequence_le_step (worker : ActiveWorker f32 f64) (command : Command F32 F64) :
    worker.inputSequence ≤ (Control.step worker command).inputSequence := by
  cases command with
  | pointer displayGeneration generation phase x y button input =>
    simp only [Control.step, forwardPointerInput]
    split
    · exact UInt64.le_refl _
    split
    · exact UInt64.le_refl _
    next hexhausted =>
      have hnext : worker.inputSequence ≤ worker.inputSequence + 1 := by
        rw [UInt64.le_iff_toNat_le, UInt64.toNat_add]
        have hlt := worker.inputSequence.toNat_lt
        simp only [UInt64.toNat_one]
        omega
      split
      · exact UInt64.le_refl _
      · split
        · exact UInt64.le_refl _
        · exact hnext
  | audio displayGeneration generation granted frame input =>
    simp only [Control.step, forwardAudioFrame]
    split
    · exact UInt64.le_refl _
    split
    · exact UInt64.le_refl _
    split
    · exact UInt64.le_refl _
    · split
      · exact UInt64.le_refl _
      · exact le_raiseAckCeiling { worker with audio := _ } generation
  | media displayGeneration generation state input =>
    simp only [Control.step, forwardMediaState]
    split
    · exact UInt64.le_refl _
    split
    · exact UInt64.le_refl _
    · split
      · exact UInt64.le_refl _
      · exact le_raiseAckCeiling { worker with media := _ } generation
  | service ackErrors writes => exact UInt64.le_refl _

/-- The worker makes a step of the control pipe. -/
theorem step_control (h : w.worker.inputProtocolErrors < 2 ^ 64) (event : Event F32 F64) :
    ∃ command, (w.step serde event).worker = Control.step w.worker command := by
  cases event with
  | forward command => exact ⟨command.1, rfl⟩
  | service reads failed writes =>
    have hworker := (drainInputAcks_reads serde (w := w) failed 0 reads).worker
    have hcounted := hworker.counted h
    refine ⟨.service ((w.drainInputAcks serde failed 0 reads).worker.inputProtocolErrors -
      w.worker.inputProtocolErrors) writes, ?_⟩
    have herrors : min ((w.drainInputAcks serde failed 0 reads).worker.inputProtocolErrors + 0)
        (2 ^ 64 - 1) = min (w.worker.inputProtocolErrors +
          ((w.drainInputAcks serde failed 0 reads).worker.inputProtocolErrors -
            w.worker.inputProtocolErrors)) (2 ^ 64 - 1) := by
      omega
    simp only [AckReader.step, AckReader.serviceActiveInput, Control.step,
      Control.serviceActiveInput, herrors]
    rw [hworker.same]

theorem flushPending_errors {M : Type} {encode : M → Except InputProtocolError (List UInt8)}
    (input : Supervisor.PipeWrite) (stream : Stream (Line encode)) {protocolErrors : Nat}
    (h : protocolErrors < 2 ^ 64) : (flushPending input stream protocolErrors).2 < 2 ^ 64 := by
  unfold flushPending
  split
  · exact h
  · split
    · exact h
    · exact h
    · simp only [saturatingSucc64]
      omega

theorem errors_step {worker : ActiveWorker f32 f64} (command : Command F32 F64)
    (h : worker.inputProtocolErrors < 2 ^ 64) :
    (Control.step worker command).inputProtocolErrors < 2 ^ 64 := by
  cases command with
  | pointer displayGeneration generation phase x y button input =>
    have hsame := (forwardPointerInput_spec displayGeneration generation phase x y button input
      worker).2.2.2
    rwa [Control.step, hsame]
  | audio displayGeneration generation granted frame input =>
    have hsame := (forwardAudioFrame_spec displayGeneration generation granted frame input
      worker).2.2.2
    rwa [Control.step, hsame]
  | media displayGeneration generation state input =>
    have hsame := (forwardMediaState_spec displayGeneration generation state input worker).2.2.2
    rwa [Control.step, hsame]
  | service ackErrors writes =>
    simp only [Control.step, Control.serviceActiveInput]
    exact flushPending_errors _ _ (flushPending_errors _ _ (flushPending_errors _ _ (by omega)))

theorem Inv.new : Inv (AckReader.new : AckReader f32 f64) where
  errors := Nat.two_pow_pos 64
  acked := UInt64.le_refl _
  framed := CappedLines.Framed.new

theorem Inv.step (h : Inv w) (event : Event F32 F64) : Inv (w.step serde event) := by
  cases event with
  | forward command => exact {
      errors := errors_step command.1 h.errors
      acked := UInt64.le_trans h.acked (inputSequence_le_step w.worker command.1)
      framed := h.framed }
  | service reads failed writes =>
    have hread := (drainInputAcks_reads serde (w := w) failed 0 reads).inv h
    exact {
      errors := errors_step (.service 0 writes) hread.errors
      acked := hread.acked
      framed := hread.framed }

theorem inv_run (serde : Serde F32 F64) (events : List (Event F32 F64)) :
    Inv (run (AckReader.step serde) (AckReader.new : AckReader f32 f64) events) :=
  invariant_run_all (fun _ event h => h.step serde event) Inv.new events

/-- **Refinement.**  With its acknowledgements the worker does what it does without. -/
theorem run_control (serde : Serde F32 F64) (events : List (Event F32 F64)) :
    ∃ commands, (run (AckReader.step serde) (AckReader.new : AckReader f32 f64) events).worker =
      run Control.step (ActiveWorker.new f32 f64) commands := by
  induction events using List.reverseRecOn with
  | nil => exact ⟨[], rfl⟩
  | append_singleton events event ih =>
    obtain ⟨commands, hcommands⟩ := ih
    have hinv : Inv (run (AckReader.step serde) (AckReader.new : AckReader f32 f64) events) :=
      inv_run serde events
    obtain ⟨command, hcommand⟩ := step_control serde hinv.errors event
    refine ⟨commands ++ [command], ?_⟩
    rw [run_append, run_append, ← hcommands]
    exact hcommand

end Reader

end Kwe.Input.Acks
