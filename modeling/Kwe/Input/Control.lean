import Kwe.Foundation.Latest
import Kwe.Foundation.Runs
import Kwe.Input.RoundTrip
import Kwe.Supervisor.Handlers

/-!
The control pipe of the active worker: pointer, audio and media messages, of
each of which one waits while the pipe is full.

* `queueControlMessage_handler`, `flushPending_handler`: the streams here and
  those of the supervisor's handlers;
* `step_accounted`, `step_marked`: what a message or a drain keeps;
* `control_accounted`: the streams of every run add up, and while no press,
  release or leave gives way or is lost, the renderer holds the buttons that the
  sender holds.

A write of the pipe takes a line whole or nothing of it; the diagnostics of
errors and the acknowledgements of the renderer, but for the errors that they
count, are left out.
-/

namespace Kwe.Input.Control

open Foundation Foundation.Latest Foundation.Runs
open Supervisor (PipeWrite saturatingSucc64)

/-! ## Pipes -/

def maxInputMessageBytes : Nat := maxMessageBytes

/-- `input` is what the pipe does with the line. -/
def tryWriteInput (input : PipeWrite) (bytes : List UInt8) : PipeWrite :=
  if bytes.isEmpty || decide (maxInputMessageBytes < bytes.length) then
    .error "renderer input message is outside its safety bound"
  else input

/-! ## Streams -/

/-- A line, and the message that it is the line of. -/
structure Line {M : Type} (encode : M → Except InputProtocolError (List UInt8)) where
  message : M
  bytes : List UInt8
  encoded : encode message = .ok bytes

/-- The line that waits and the counter of a stream; `traffic` is what was seen
of it. -/
structure Stream (α : Type) where
  pending : Option α
  coalesced : Nat
  traffic : Traffic α

section Streams

variable {M : Type} {encode : M → Except InputProtocolError (List UInt8)}

def Stream.new : Stream (Line encode) := ⟨none, 0, Traffic.none⟩

def queueControlMessage (input : PipeWrite) (line : Line encode) (stream : Stream (Line encode)) :
    Except String Unit × Stream (Line encode) :=
  let coalesced :=
    if stream.pending.isSome then saturatingSucc64 stream.coalesced else stream.coalesced
  let traffic := stream.traffic.coalesce stream.pending
  match tryWriteInput input line.bytes with
  | .written => (.ok (), ⟨none, coalesced, (traffic.accept line).write line⟩)
  | .wouldBlock => (.ok (), ⟨some line, coalesced, traffic.accept line⟩)
  | .error detail => (.error detail, ⟨none, coalesced, traffic.fail⟩)

/-- The stream and the protocol errors. -/
def flushPending (input : PipeWrite) (stream : Stream (Line encode)) (protocolErrors : Nat) :
    Stream (Line encode) × Nat :=
  match stream.pending with
  | none => (stream, protocolErrors)
  | some line =>
    match tryWriteInput input line.bytes with
    | .written =>
      ({ stream with pending := none, traffic := stream.traffic.write line }, protocolErrors)
    | .wouldBlock => ({ stream with pending := some line }, protocolErrors)
    | .error _ =>
      ({ stream with pending := none, traffic := stream.traffic.lose },
        saturatingSucc64 protocolErrors)

end Streams

/-! ## The worker -/

section Worker

variable {F32 F64 : Type} (f32 : Floats F32) (f64 : Floats F64)

abbrev PointerLine := Line encodePointerLine

abbrev AudioLine := Line (encodeAudioFrame f32)

abbrev MediaLine := Line (encodeMediaState f64)

structure ActiveWorker where
  inputSequence : UInt64
  input : Stream PointerLine
  inputProtocolErrors : Nat
  pointerInside : Bool
  pointerX : UInt16
  pointerY : UInt16
  audio : Stream (AudioLine f32)
  media : Stream (MediaLine f64)
  /-- Of the runtime: audio frames without a grant. -/
  audioGrantDropped : Nat

/-- A worker that was started. -/
def ActiveWorker.new : ActiveWorker f32 f64 :=
  ⟨0, Stream.new, 0, false, 0, 0, Stream.new, Stream.new, 0⟩

inductive ForwardError
  | detail (text : String)
  | protocol (error : InputProtocolError)
  deriving DecidableEq, Repr

variable {f32 f64}

/-- The line of a message. -/
def lineOf {M : Type} (encode : M → Except InputProtocolError (List UInt8)) (message : M) :
    Except InputProtocolError (Line encode) :=
  match h : encode message with
  | .ok bytes => .ok ⟨message, bytes, h⟩
  | .error error => .error error

def pointerLine (f64 : Floats F64) (sequence : UInt64) (phase : PointerPhase) (x y : F64)
    (button : Option PointerButton) : Except InputProtocolError PointerLine := do
  let message ←
    match button with
    | some button => PointerMessage.buttonEvent f64 sequence phase button x y
    | none => PointerMessage.fromNormalized f64 sequence phase x y
  lineOf encodePointerLine message

def forwardPointerInput (displayGeneration generation : UInt64) (phase : PointerPhase) (x y : F64)
    (button : Option PointerButton) (input : PipeWrite) (worker : ActiveWorker f32 f64) :
    Except ForwardError Unit × ActiveWorker f32 f64 :=
  if generation = 0 ∨ generation ≠ displayGeneration then
    (.error (.detail "pointer input display generation is stale or invalid"), worker)
  else if worker.inputSequence.toNat + 1 = 2 ^ 64 then
    (.error (.detail "pointer input sequence exhausted"), worker)
  else
    let sequence := worker.inputSequence + 1
    match pointerLine f64 sequence phase x y button with
    | .error error => (.error (.protocol error), worker)
    | .ok line =>
      match queueControlMessage input line worker.input with
      | (.error detail, stream) => (.error (.detail detail), { worker with input := stream })
      | (.ok (), stream) =>
        (.ok (), { worker with
          input := stream
          inputSequence := sequence
          pointerInside := decide (phase ≠ .leave)
          pointerX := line.message.x
          pointerY := line.message.y })

def raiseAckCeiling (worker : ActiveWorker f32 f64) (sequence : UInt64) : ActiveWorker f32 f64 :=
  { worker with inputSequence := max worker.inputSequence sequence }

def forwardAudioFrame (displayGeneration generation : UInt64) (granted : Bool)
    (frame : AudioFrame F32) (input : PipeWrite) (worker : ActiveWorker f32 f64) :
    Except ForwardError Unit × ActiveWorker f32 f64 :=
  if generation = 0 ∨ generation ≠ displayGeneration then
    (.error (.detail "audio frame display generation is stale or invalid"), worker)
  else if !granted then
    (.ok (), { worker with audioGrantDropped := saturatingSucc64 worker.audioGrantDropped })
  else
    match lineOf (encodeAudioFrame f32) frame with
    | .error error => (.error (.protocol error), worker)
    | .ok line =>
      match queueControlMessage input line worker.audio with
      | (.error detail, stream) => (.error (.detail detail), { worker with audio := stream })
      | (.ok (), stream) => (.ok (), raiseAckCeiling { worker with audio := stream } generation)

def forwardMediaState (displayGeneration generation : UInt64) (state : MediaState F64)
    (input : PipeWrite) (worker : ActiveWorker f32 f64) :
    Except ForwardError Unit × ActiveWorker f32 f64 :=
  if generation = 0 ∨ generation ≠ displayGeneration then
    (.error (.detail "media state display generation is stale or invalid"), worker)
  else
    match lineOf (encodeMediaState f64) state with
    | .error error => (.error (.protocol error), worker)
    | .ok line =>
      match queueControlMessage input line worker.media with
      | (.error detail, stream) => (.error (.detail detail), { worker with media := stream })
      | (.ok (), stream) => (.ok (), raiseAckCeiling { worker with media := stream } generation)

/-- What the pipe does with the three writes of a drain. -/
structure Writes where
  pointer : PipeWrite
  audio : PipeWrite
  media : PipeWrite

/-- `ackErrors` are the errors of the acknowledgements that are read first. -/
def serviceActiveInput (ackErrors : Nat) (writes : Writes) (worker : ActiveWorker f32 f64) :
    ActiveWorker f32 f64 :=
  let errors := min (worker.inputProtocolErrors + ackErrors) (2 ^ 64 - 1)
  let (input, errors) := flushPending writes.pointer worker.input errors
  let (audio, errors) := flushPending writes.audio worker.audio errors
  let (media, errors) := flushPending writes.media worker.media errors
  { worker with input, audio, media, inputProtocolErrors := errors }

/-! ## Runs -/

/-- A message to forward, with the display generation and the grant at the time,
or a drain. -/
inductive Command (F32 F64 : Type)
  | pointer (displayGeneration generation : UInt64) (phase : PointerPhase) (x y : F64)
      (button : Option PointerButton) (input : PipeWrite)
  | audio (displayGeneration generation : UInt64) (granted : Bool) (frame : AudioFrame F32)
      (input : PipeWrite)
  | media (displayGeneration generation : UInt64) (state : MediaState F64) (input : PipeWrite)
  | service (ackErrors : Nat) (writes : Writes)

def step (worker : ActiveWorker f32 f64) : Command F32 F64 → ActiveWorker f32 f64
  | .pointer displayGeneration generation phase x y button input =>
    (forwardPointerInput displayGeneration generation phase x y button input worker).2
  | .audio displayGeneration generation granted frame input =>
    (forwardAudioFrame displayGeneration generation granted frame input worker).2
  | .media displayGeneration generation state input =>
    (forwardMediaState displayGeneration generation state input worker).2
  | .service ackErrors writes => serviceActiveInput ackErrors writes worker

end Worker

/-! ## Streams add up -/

theorem tryWriteInput_written {bytes : List UInt8} (h : bytes ≠ [])
    (hlength : bytes.length ≤ maxInputMessageBytes) : tryWriteInput .written bytes = .written := by
  have hempty : bytes.isEmpty = false := by simpa using h
  rw [tryWriteInput, hempty, Bool.false_or, if_neg (by simpa using hlength)]

/-- The messages of a stream add up, and its counter says how many gave way. -/
structure Stream.Right {α : Type} (stream : Stream α) : Prop where
  account : Account stream.traffic stream.pending
  counter : stream.coalesced = min stream.traffic.coalesced (2 ^ 64 - 1)

section Streams

variable {M : Type} {encode : M → Except InputProtocolError (List UInt8)} {input : PipeWrite}
  {line : Line encode} {stream : Stream (Line encode)}

theorem Stream.right_new : (Stream.new : Stream (Line encode)).Right := ⟨Account.initial, rfl⟩

theorem counter_coalesce (h : stream.coalesced = min stream.traffic.coalesced (2 ^ 64 - 1)) :
    (if stream.pending.isSome then saturatingSucc64 stream.coalesced else stream.coalesced) =
      min (stream.traffic.coalesce stream.pending).coalesced (2 ^ 64 - 1) := by
  cases hpending : stream.pending with
  | none => simpa [Traffic.coalesce] using h
  | some line =>
    simp only [Option.isSome_some, if_true, saturatingSucc64, Traffic.coalesce, Option.toList_some,
      List.length_singleton, h]
    omega

theorem queueControlMessage_right (h : stream.Right) :
    (queueControlMessage input line stream).2.Right := by
  have hcounter := counter_coalesce h.counter
  unfold queueControlMessage
  cases tryWriteInput input line.bytes with
  | written => exact ⟨h.account.write line, hcounter⟩
  | wouldBlock => exact ⟨h.account.wait line, hcounter⟩
  | error detail => exact ⟨h.account.refuse, hcounter⟩

/-- The stream after a drain, and the errors, which count the messages lost. -/
theorem flushPending_right (input : PipeWrite) (protocolErrors : Nat) (h : stream.Right) :
    (flushPending input stream protocolErrors).1.Right ∧
      ∀ counted, protocolErrors = min (stream.traffic.lost + counted) (2 ^ 64 - 1) →
        (flushPending input stream protocolErrors).2 =
          min ((flushPending input stream protocolErrors).1.traffic.lost + counted)
            (2 ^ 64 - 1) := by
  unfold flushPending
  cases hpending : stream.pending with
  | none => exact ⟨h, fun counted hcounted => hcounted⟩
  | some line =>
    have haccount := h.account
    rw [hpending] at haccount
    dsimp only
    cases tryWriteInput input line.bytes with
    | written => exact ⟨⟨haccount.flush, h.counter⟩, fun counted hcounted => hcounted⟩
    | wouldBlock => exact ⟨⟨haccount, h.counter⟩, fun counted hcounted => hcounted⟩
    | error detail =>
      refine ⟨⟨haccount.lose, h.counter⟩, fun counted hcounted => ?_⟩
      simp only [saturatingSucc64, Traffic.lose, Traffic.fail, hcounted]
      omega

/-- The handlers of the supervisor do the same with the lines that they hold. -/
theorem queueControlMessage_handler (f : Line encode → Supervisor.ControlLine) :
    Supervisor.queueControlMessage (tryWriteInput input line.bytes) (f line) (stream.pending.map f)
        stream.coalesced =
      ((queueControlMessage input line stream).1,
        (queueControlMessage input line stream).2.pending.map f,
        (queueControlMessage input line stream).2.coalesced) := by
  unfold queueControlMessage Supervisor.queueControlMessage
  cases tryWriteInput input line.bytes <;> simp

theorem flushPending_handler (f : Line encode → Supervisor.ControlLine) (protocolErrors : Nat) :
    Supervisor.flushPending (stream.pending.elim .written fun line => tryWriteInput input line.bytes)
        (stream.pending.map f) protocolErrors =
      ((flushPending input stream protocolErrors).1.pending.map f,
        (flushPending input stream protocolErrors).2) := by
  unfold flushPending Supervisor.flushPending
  cases hpending : stream.pending with
  | none => simp [hpending]
  | some line =>
    dsimp only [Option.map_some, Option.elim_some]
    cases tryWriteInput input line.bytes <;> simp

end Streams

/-! ## Marked lines -/

section Marked

variable {M : Type} {encode : M → Except InputProtocolError (List UInt8)} {input : PipeWrite}
  {line : Line encode} {stream : Stream (Line encode)} {p : Line encode → Bool}

theorem queueControlMessage_marks (h : Marks p stream.traffic stream.pending)
    (hkept : ∀ line, stream.pending = some line → p line = false) :
    Marks p (queueControlMessage input line stream).2.traffic
      (queueControlMessage input line stream).2.pending := by
  have hwritten := h.of_kept hkept
  unfold queueControlMessage
  cases tryWriteInput input line.bytes with
  | written => exact Marks.write hwritten line
  | wouldBlock => exact Marks.wait hwritten line
  | error detail => exact Marks.refuse hwritten

theorem flushPending_marks {protocolErrors : Nat} (h : Marks p stream.traffic stream.pending)
    (hkept : ∀ line, stream.pending = some line → p line = true →
      ∀ detail, tryWriteInput input line.bytes ≠ .error detail) :
    Marks p (flushPending input stream protocolErrors).1.traffic
      (flushPending input stream protocolErrors).1.pending := by
  unfold flushPending
  cases hpending : stream.pending with
  | none =>
    rw [hpending] at h
    simpa [hpending] using h
  | some line =>
    rw [hpending] at h
    dsimp only
    cases hwrite : tryWriteInput input line.bytes with
    | written => exact h.flush
    | wouldBlock => exact h
    | error detail =>
      refine Marks.lose (h.of_kept fun m hm => ?_)
      obtain rfl := Option.some.inj hm
      by_contra hmarked
      exact hkept line hpending (by simpa using hmarked) detail hwrite

/-- A pipe that takes lines leaves none waiting. -/
theorem flushPending_drained {protocolErrors : Nat}
    (hsize : ∀ line : Line encode, line.bytes ≠ [] ∧ line.bytes.length ≤ maxInputMessageBytes) :
    (flushPending .written stream protocolErrors).1.pending = none := by
  unfold flushPending
  cases hpending : stream.pending with
  | none => exact hpending
  | some line => simp [tryWriteInput_written (hsize line).1 (hsize line).2]

end Marked

/-! ## Lines -/

theorem encodeLine_size {fields : Json.Fields} {bytes : List UInt8}
    (h : encodeLine fields = .ok bytes) :
    bytes ≠ [] ∧ bytes.length ≤ maxInputMessageBytes := by
  obtain ⟨rfl, hlength⟩ := encodeLine_ok h
  exact ⟨List.append_ne_nil_of_right_ne_nil _ (List.cons_ne_nil _ _), hlength⟩

section Worker

variable {F32 F64 : Type} {f32 : Floats F32} {f64 : Floats F64}

theorem pointer_size (line : PointerLine) :
    line.bytes ≠ [] ∧ line.bytes.length ≤ maxInputMessageBytes :=
  encodeLine_size (encodePointerLine_ok.mp line.encoded).2

theorem audio_size (line : AudioLine f32) :
    line.bytes ≠ [] ∧ line.bytes.length ≤ maxInputMessageBytes :=
  encodeLine_size (encodeAudioFrame_ok.mp line.encoded).2.2.2.2

theorem media_size (line : MediaLine f64) :
    line.bytes ≠ [] ∧ line.bytes.length ≤ maxInputMessageBytes :=
  encodeLine_size (encodeMediaState_ok.mp line.encoded).2.2

/-! ## Steps -/

/-- A stream is as before or has a line queued. -/
def Queued {α : Type} {encode : α → Except InputProtocolError (List UInt8)} (input : PipeWrite)
    (before after : Stream (Line encode)) : Prop :=
  after = before ∨ ∃ line, after = (queueControlMessage input line before).2

theorem forwardPointerInput_spec (displayGeneration generation : UInt64) (phase : PointerPhase)
    (x y : F64) (button : Option PointerButton) (input : PipeWrite)
    (worker : ActiveWorker f32 f64) :
    let after := (forwardPointerInput displayGeneration generation phase x y button input worker).2
    Queued input worker.input after.input ∧ after.audio = worker.audio ∧
      after.media = worker.media ∧ after.inputProtocolErrors = worker.inputProtocolErrors := by
  dsimp only
  unfold forwardPointerInput
  split
  · exact ⟨.inl rfl, rfl, rfl, rfl⟩
  split
  · exact ⟨.inl rfl, rfl, rfl, rfl⟩
  dsimp only
  split
  · exact ⟨.inl rfl, rfl, rfl, rfl⟩
  next line _ =>
    split
    next stream hqueue => exact ⟨.inr ⟨line, by rw [hqueue]⟩, rfl, rfl, rfl⟩
    next stream hqueue => exact ⟨.inr ⟨line, by rw [hqueue]⟩, rfl, rfl, rfl⟩

theorem forwardAudioFrame_spec (displayGeneration generation : UInt64) (granted : Bool)
    (frame : AudioFrame F32) (input : PipeWrite) (worker : ActiveWorker f32 f64) :
    let after := (forwardAudioFrame displayGeneration generation granted frame input worker).2
    after.input = worker.input ∧ Queued input worker.audio after.audio ∧
      after.media = worker.media ∧ after.inputProtocolErrors = worker.inputProtocolErrors := by
  dsimp only
  unfold forwardAudioFrame
  split
  · exact ⟨rfl, .inl rfl, rfl, rfl⟩
  split
  · exact ⟨rfl, .inl rfl, rfl, rfl⟩
  split
  · exact ⟨rfl, .inl rfl, rfl, rfl⟩
  next line _ =>
    split
    next stream hqueue => exact ⟨rfl, .inr ⟨line, by rw [hqueue]⟩, rfl, rfl⟩
    next stream hqueue => exact ⟨rfl, .inr ⟨line, by rw [hqueue, raiseAckCeiling]⟩, rfl, rfl⟩

theorem forwardMediaState_spec (displayGeneration generation : UInt64) (state : MediaState F64)
    (input : PipeWrite) (worker : ActiveWorker f32 f64) :
    let after := (forwardMediaState displayGeneration generation state input worker).2
    after.input = worker.input ∧ after.audio = worker.audio ∧
      Queued input worker.media after.media ∧
      after.inputProtocolErrors = worker.inputProtocolErrors := by
  dsimp only
  unfold forwardMediaState
  split
  · exact ⟨rfl, rfl, .inl rfl, rfl⟩
  split
  · exact ⟨rfl, rfl, .inl rfl, rfl⟩
  next line _ =>
    split
    next stream hqueue => exact ⟨rfl, rfl, .inr ⟨line, by rw [hqueue]⟩, rfl⟩
    next stream hqueue => exact ⟨rfl, rfl, .inr ⟨line, by rw [hqueue, raiseAckCeiling]⟩, rfl⟩

theorem Queued.right {M : Type} {encode : M → Except InputProtocolError (List UInt8)}
    {input : PipeWrite} {before after : Stream (Line encode)} (h : Queued input before after)
    (hright : before.Right) : after.Right ∧ after.traffic.lost = before.traffic.lost := by
  rcases h with rfl | ⟨line, rfl⟩
  · exact ⟨hright, rfl⟩
  · refine ⟨queueControlMessage_right hright, ?_⟩
    unfold queueControlMessage
    cases tryWriteInput input line.bytes <;> rfl

/-- The errors of the acknowledgements of a command. -/
def Command.ackErrors : Command F32 F64 → Nat
  | .service ackErrors _ => ackErrors
  | _ => 0

/-- The messages lost from the three streams. -/
def ActiveWorker.lost (worker : ActiveWorker f32 f64) : Nat :=
  worker.input.traffic.lost + worker.audio.traffic.lost + worker.media.traffic.lost

/-- The streams add up, and the errors are the messages lost and those of the
acknowledgements. -/
structure ActiveWorker.Right (worker : ActiveWorker f32 f64) (ackErrors : Nat) : Prop where
  input : worker.input.Right
  audio : worker.audio.Right
  media : worker.media.Right
  errors : worker.inputProtocolErrors = min (worker.lost + ackErrors) (2 ^ 64 - 1)

theorem serviceActiveInput_right {worker : ActiveWorker f32 f64} {counted ackErrors : Nat}
    {writes : Writes} (h : worker.Right counted) :
    (serviceActiveInput ackErrors writes worker).Right (counted + ackErrors) := by
  have hlost := h.errors
  rw [ActiveWorker.lost] at hlost
  obtain ⟨hinput, hinputErrors⟩ := flushPending_right writes.pointer
    (min (worker.inputProtocolErrors + ackErrors) (2 ^ 64 - 1)) h.input
  have hfirst := hinputErrors
    (worker.audio.traffic.lost + worker.media.traffic.lost + (counted + ackErrors)) (by omega)
  obtain ⟨haudio, haudioErrors⟩ := flushPending_right writes.audio
    (flushPending writes.pointer worker.input
      (min (worker.inputProtocolErrors + ackErrors) (2 ^ 64 - 1))).2 h.audio
  have hsecond := haudioErrors
    ((flushPending writes.pointer worker.input
      (min (worker.inputProtocolErrors + ackErrors) (2 ^ 64 - 1))).1.traffic.lost +
      worker.media.traffic.lost + (counted + ackErrors)) (by omega)
  obtain ⟨hmedia, hmediaErrors⟩ := flushPending_right writes.media
    (flushPending writes.audio worker.audio (flushPending writes.pointer
      worker.input (min (worker.inputProtocolErrors + ackErrors) (2 ^ 64 - 1))).2).2 h.media
  have hthird := hmediaErrors
    ((serviceActiveInput ackErrors writes worker).input.traffic.lost +
      (serviceActiveInput ackErrors writes worker).audio.traffic.lost + (counted + ackErrors)) (by
        simp only [serviceActiveInput]
        omega)
  refine ⟨hinput, haudio, hmedia, ?_⟩
  rw [ActiveWorker.lost]
  simp only [serviceActiveInput] at hthird ⊢
  omega

theorem step_accounted {worker : ActiveWorker f32 f64} {counted : Nat} (command : Command F32 F64)
    (h : worker.Right counted) : (step worker command).Right (counted + command.ackErrors) := by
  have hlost := h.errors
  rw [ActiveWorker.lost] at hlost
  cases command with
  | pointer displayGeneration generation phase x y button input =>
    obtain ⟨hinput, haudio, hmedia, herrors⟩ := forwardPointerInput_spec displayGeneration
      generation phase x y button input worker
    obtain ⟨hright, hsame⟩ := hinput.right h.input
    refine ⟨hright, haudio ▸ h.audio, hmedia ▸ h.media, ?_⟩
    simp only [step, ActiveWorker.lost, Command.ackErrors, herrors, hsame, haudio, hmedia]
    exact hlost
  | audio displayGeneration generation granted frame input =>
    obtain ⟨hinput, haudio, hmedia, herrors⟩ := forwardAudioFrame_spec displayGeneration
      generation granted frame input worker
    obtain ⟨hright, hsame⟩ := haudio.right h.audio
    refine ⟨hinput ▸ h.input, hright, hmedia ▸ h.media, ?_⟩
    simp only [step, ActiveWorker.lost, Command.ackErrors, herrors, hsame, hinput, hmedia]
    exact hlost
  | media displayGeneration generation state input =>
    obtain ⟨hinput, haudio, hmedia, herrors⟩ := forwardMediaState_spec displayGeneration
      generation state input worker
    obtain ⟨hright, hsame⟩ := hmedia.right h.media
    refine ⟨hinput ▸ h.input, haudio ▸ h.audio, hright, ?_⟩
    simp only [step, ActiveWorker.lost, Command.ackErrors, herrors, hsame, hinput, haudio]
    exact hlost
  | service ackErrors writes => exact serviceActiveInput_right h

theorem run_accounted {worker : ActiveWorker f32 f64} {counted : Nat}
    (commands : List (Command F32 F64)) (h : worker.Right counted) :
    (run step worker commands).Right (counted + (commands.map (·.ackErrors)).sum) := by
  induction commands generalizing worker counted with
  | nil => exact h
  | cons command commands ih =>
    have hrest := ih (step_accounted command h)
    rw [List.map_cons, List.sum_cons, ← Nat.add_assoc]
    exact hrest

/-! ## Buttons -/

/-- The renderer must see it for the buttons to be right. -/
def isEdge (phase : PointerPhase) : Bool := phase = .leave || phase.isButton

def edgeLine (line : PointerLine) : Bool := isEdge line.message.phase

/-- The buttons that are held after a message; a leave releases them. -/
def press (held : PointerButton → Bool) (message : PointerMessage) : PointerButton → Bool :=
  match message.phase, message.button with
  | .down, some button => fun b => decide (b = button) || held b
  | .up, some button => fun b => !decide (b = button) && held b
  | .leave, _ => fun _ => false
  | _, _ => held

def held (lines : List PointerLine) : PointerButton → Bool :=
  (lines.map (·.message)).foldl press fun _ => false

theorem press_of_not_edge {buttons : PointerButton → Bool} {message : PointerMessage}
    (h : isEdge message.phase = false) : press buttons message = buttons := by
  unfold press
  cases hphase : message.phase <;> simp [hphase, isEdge, PointerPhase.isButton] at h ⊢

theorem held_filter (lines : List PointerLine) : held (lines.filter edgeLine) = held lines := by
  have hfold : ∀ (lines : List PointerLine) (buttons : PointerButton → Bool),
      ((lines.filter edgeLine).map (·.message)).foldl press buttons =
        (lines.map (·.message)).foldl press buttons := by
    intro lines
    induction lines with
    | nil => exact fun _ => rfl
    | cons line lines ih =>
      intro buttons
      by_cases hedge : edgeLine line = true
      · rw [List.filter_cons_of_pos hedge]
        exact ih _
      · rw [List.filter_cons_of_neg hedge, ih, List.map_cons, List.foldl_cons,
          press_of_not_edge (by simpa [edgeLine] using hedge)]
  exact hfold lines _

/-- No press, release or leave gives way or is lost: none waits when a pointer
message is forwarded, and the write of one that waits does not fail. -/
def KeepsEdges (worker : ActiveWorker f32 f64) : Command F32 F64 → Prop
  | .pointer .. => ∀ line, worker.input.pending = some line → edgeLine line = false
  | .service _ writes => ∀ line, worker.input.pending = some line → edgeLine line = true →
    ∀ detail, tryWriteInput writes.pointer line.bytes ≠ .error detail
  | _ => True

theorem step_marked {worker : ActiveWorker f32 f64} {command : Command F32 F64}
    (h : Marks edgeLine worker.input.traffic worker.input.pending)
    (hkept : KeepsEdges worker command) :
    Marks edgeLine (step worker command).input.traffic (step worker command).input.pending := by
  cases command with
  | pointer displayGeneration generation phase x y button input =>
    obtain ⟨hinput, -⟩ := forwardPointerInput_spec displayGeneration generation phase x y button
      input worker
    rcases hinput with hsame | ⟨line, hqueue⟩
    · simp only [step, hsame]
      exact h
    · simp only [step, hqueue]
      exact queueControlMessage_marks h hkept
  | audio displayGeneration generation granted frame input =>
    have hsame := (forwardAudioFrame_spec displayGeneration generation granted frame input worker).1
    simp only [step, hsame]
    exact h
  | media displayGeneration generation state input =>
    have hsame := (forwardMediaState_spec displayGeneration generation state input worker).1
    simp only [step, hsame]
    exact h
  | service ackErrors writes => exact flushPending_marks h hkept

/-! ## Results -/

/-- A drain whose writes the pipe takes. -/
def drain : Command F32 F64 := .service 0 ⟨.written, .written, .written⟩

/-- **Control.**  In every run from a new worker the streams add up, a drain
leaves nothing waiting, and the renderer holds the buttons of the sender if no
press, release or leave gave way or was lost. -/
theorem control_accounted (f32 : Floats F32) (f64 : Floats F64) (commands : List (Command F32 F64)) :
    let worker := run step (ActiveWorker.new f32 f64) commands
    worker.Right (commands.map (·.ackErrors)).sum ∧
      ((step worker drain).input.pending = none ∧ (step worker drain).audio.pending = none ∧
        (step worker drain).media.pending = none) ∧
      (Along step KeepsEdges (ActiveWorker.new f32 f64) commands → worker.input.pending = none →
        held worker.input.traffic.written = held worker.input.traffic.accepted) := by
  intro worker
  have hnew : (ActiveWorker.new f32 f64).Right 0 :=
    ⟨Stream.right_new, Stream.right_new, Stream.right_new, rfl⟩
  refine ⟨?_, ⟨?_, ?_, ?_⟩, fun halong hpending => ?_⟩
  · have hrun := run_accounted commands hnew
    rwa [Nat.zero_add] at hrun
  · exact flushPending_drained pointer_size
  · exact flushPending_drained audio_size
  · exact flushPending_drained media_size
  · have hmarks : Marks edgeLine worker.input.traffic worker.input.pending :=
      invariant_run (I := fun w => Marks edgeLine w.input.traffic w.input.pending)
        (fun w c h hkept => step_marked h hkept) Marks.initial halong
    rw [hpending] at hmarks
    rw [← held_filter worker.input.traffic.written, ← held_filter worker.input.traffic.accepted,
      hmarks.of_kept fun _ h => by cases h]

end Worker

/-- A press and a move, while the pipe is full. -/
def pressAndMove : List (Command Quarter Quarter) :=
  [.pointer 1 1 .down .one .one (some .primary) .wouldBlock,
    .pointer 1 1 .move .two .two none .wouldBlock]

/-- The press gives way to the move, and the renderer never hears of it. -/
theorem press_gives_way :
    ¬ ∀ commands : List (Command Quarter Quarter),
      let worker := step (run step (ActiveWorker.new quarters quarters) commands) drain
      held worker.input.traffic.written = held worker.input.traffic.accepted := by
  intro h
  have hprimary := congrFun (h pressAndMove) .primary
  exact absurd hprimary (by decide +kernel)

end Kwe.Input.Control
