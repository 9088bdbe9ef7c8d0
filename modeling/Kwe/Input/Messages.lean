import Kwe.Foundation.Records

/-!
The messages between the daemon and a renderer, and their lines: one JSON object
and a newline, at most `maxMessageBytes` in all.

Floating point numbers and the JSON reader are parameters (`Floats`, `Serde`);
the texts of the messages are built here.
-/

namespace Kwe.Input

open Foundation

def version : UInt32 := 1

def maxMessageBytes : Nat := 4096

inductive InputProtocolError
  | messageTooLarge
  | invalidFraming
  | unsupportedVersion (version : UInt32)
  | unexpectedMessageType
  | invalidSequence
  | invalidCoordinate
  | invalidAudioBands
  | invalidAudioValue
  | invalidButtonPhase
  | invalidMediaState
  | invalidJson
  deriving DecidableEq, Repr

/-! ## Floating point numbers and JSON -/

/-- What the messages use of a type of floating point numbers. -/
structure Floats (F : Type) where
  /-- Of a finite number. -/
  value : F → Option Rat
  /-- What is printed of a finite number. -/
  text : F → Option { text : List Char // Json.IsFloat text }
  /-- The number that a JSON number is read as. -/
  ofNumber : Json → Option F
  /-- `(value * 65535).round() as u16`. -/
  scaled : F → UInt16

namespace Floats

variable {F : Type} (floats : Floats F)

/-- `value.is_finite() && (low..=high).contains(&value)`. -/
def within (low high : Rat) (x : F) : Bool :=
  match floats.value x with
  | none => false
  | some value => decide (low ≤ value ∧ value ≤ high)

def toJson (x : F) : Json :=
  match floats.text x with
  | none => .null
  | some text => .float text

/-- Finite numbers are printed in at most 24 characters, the size of the
printer's buffer, and read back. -/
def Faithful : Prop :=
  ∀ x, (floats.value x).isSome → ∃ text, floats.text x = some text ∧ text.1.length ≤ 24 ∧
    floats.ofNumber (.float text) = some x

end Floats

/-- `serde_json` with its two types of floating point numbers. -/
structure Serde (F32 F64 : Type) where
  fromSlice : List UInt8 → Option Json
  f32 : Floats F32
  f64 : Floats F64

variable {F32 F64 : Type}

/-- A value without parts that was printed: a number, a string or `null`. -/
inductive Serde.Flat (serde : Serde F32 F64) : Json → Prop
  | null : Flat serde .null
  | nat {n : Nat} : n < 2 ^ 64 → Flat serde (.nat n)
  | string (s : String) : Flat serde (.string s)
  | f32 {x : F32} {text} : serde.f32.text x = some text → Flat serde (.float text)
  | f64 {x : F64} {text} : serde.f64.text x = some text → Flat serde (.float text)

/-- A field of a message: a value without parts, or an array of these. -/
inductive Serde.Field (serde : Serde F32 F64) : Json → Prop
  | flat {v : Json} : serde.Flat v → Field serde v
  | array {items : List Json} : (∀ v ∈ items, serde.Flat v) → Field serde (.array items)

/-- The reader gets back what was printed. -/
structure Serde.Faithful (serde : Serde F32 F64) : Prop where
  f32 : serde.f32.Faithful
  f64 : serde.f64.Faithful
  reads : ∀ fields : Json.Fields, (fields.map Prod.fst).Nodup → (∀ f ∈ fields, serde.Field f.2) →
    serde.fromSlice (Json.toBytes (.object fields)) = some (.object fields)

def asU16 (v : Json) : Option UInt16 := (Json.asBounded UInt16.size v).map UInt16.ofFin

def asU32 (v : Json) : Option UInt32 := (Json.asBounded UInt32.size v).map UInt32.ofFin

def asU64 (v : Json) : Option UInt64 := (Json.asBounded UInt64.size v).map UInt64.ofFin

/-! ## Lines -/

def newline : UInt8 := 10

def carriageReturn : UInt8 := 13

/-- The line of a message with these fields. -/
def encodeLine (fields : Json.Fields) : Except InputProtocolError (List UInt8) :=
  let bytes := Json.toBytes (.object fields) ++ [newline]
  if maxMessageBytes < bytes.length then .error .messageTooLarge else .ok bytes

/-- `strip_suffix(b"\n")`, or the bytes as they are. -/
def stripNewline (bytes : List UInt8) : List UInt8 :=
  if bytes.getLast? = some newline then bytes.dropLast else bytes

def validateFraming (bytes : List UInt8) : Except InputProtocolError (List UInt8) :=
  if bytes.isEmpty || decide (maxMessageBytes < bytes.length) then
    .error (if maxMessageBytes < bytes.length then .messageTooLarge else .invalidFraming)
  else
    let payload := stripNewline bytes
    if payload.isEmpty || payload.contains newline || payload.contains carriageReturn then
      .error .invalidFraming
    else .ok payload

/-- The value of the payload of a line. -/
def Serde.decodeLine {α : Type} (serde : Serde F32 F64) (ofJson : Json → Option α)
    (bytes : List UInt8) : Except InputProtocolError α := do
  let payload ← validateFraming bytes
  match (serde.fromSlice payload).bind ofJson with
  | none => .error .invalidJson
  | some message => .ok message

/-! ## Pointer messages -/

inductive PointerPhase
  | enter | move | leave | down | up
  deriving DecidableEq, Repr

def PointerPhase.name : PointerPhase → String
  | .enter => "enter"
  | .move => "move"
  | .leave => "leave"
  | .down => "down"
  | .up => "up"

def PointerPhase.ofName : String → Option PointerPhase
  | "enter" => some .enter
  | "move" => some .move
  | "leave" => some .leave
  | "down" => some .down
  | "up" => some .up
  | _ => none

inductive PointerButton
  | primary | secondary | middle
  deriving DecidableEq, Repr

def PointerButton.name : PointerButton → String
  | .primary => "primary"
  | .secondary => "secondary"
  | .middle => "middle"

def PointerButton.ofName : String → Option PointerButton
  | "primary" => some .primary
  | "secondary" => some .secondary
  | "middle" => some .middle
  | _ => none

structure PointerMessage where
  version : UInt32
  messageType : String
  sequence : UInt64
  phase : PointerPhase
  x : UInt16
  y : UInt16
  button : Option PointerButton
  deriving DecidableEq, Repr

def quantizeCoordinate (floats : Floats F64) (value : F64) : Except InputProtocolError UInt16 :=
  if floats.within 0 1 value then .ok (floats.scaled value) else .error .invalidCoordinate

/-- `matches!(phase, PointerPhase::Down | PointerPhase::Up)`. -/
def PointerPhase.isButton (phase : PointerPhase) : Bool := phase = .down || phase = .up

namespace PointerMessage

def fromNormalized (floats : Floats F64) (sequence : UInt64) (phase : PointerPhase) (x y : F64) :
    Except InputProtocolError PointerMessage :=
  if sequence = 0 then .error .invalidSequence
  else do
    let x ← quantizeCoordinate floats x
    let y ← quantizeCoordinate floats y
    .ok ⟨Input.version, "pointer_position", sequence, phase, x, y, none⟩

def buttonEvent (floats : Floats F64) (sequence : UInt64) (phase : PointerPhase)
    (button : PointerButton) (x y : F64) : Except InputProtocolError PointerMessage :=
  if !phase.isButton then .error .invalidButtonPhase
  else do
    let message ← fromNormalized floats sequence phase x y
    .ok { message with button := some button }

def validate (message : PointerMessage) : Except InputProtocolError Unit :=
  if message.version ≠ Input.version then .error (.unsupportedVersion message.version)
  else if message.messageType ≠ "pointer_position" then .error .unexpectedMessageType
  else if message.sequence = 0 then .error .invalidSequence
  else if message.phase.isButton ≠ message.button.isSome then .error .invalidButtonPhase
  else .ok ()

def names : List String := ["version", "type", "sequence", "phase", "x", "y", "button"]

/-- A button that is not there is skipped. -/
def fields (message : PointerMessage) : Json.Fields :=
  [("version", .nat message.version.toNat), ("type", .string message.messageType),
    ("sequence", .nat message.sequence.toNat), ("phase", .string message.phase.name),
    ("x", .nat message.x.toNat), ("y", .nat message.y.toNat)] ++
    (message.button.map fun button => ("button", Json.string button.name)).toList

def ofJson (value : Json) : Option PointerMessage := do
  let fields ← Json.record names value
  let version ← Json.required fields "version" asU32
  let messageType ← Json.required fields "type" Json.asStr
  let sequence ← Json.required fields "sequence" asU64
  let phase ← Json.required fields "phase" fun v => (Json.asVariant v).bind PointerPhase.ofName
  let x ← Json.required fields "x" asU16
  let y ← Json.required fields "y" asU16
  let button ← Json.optional fields "button" fun v => (Json.asVariant v).bind PointerButton.ofName
  some ⟨version, messageType, sequence, phase, x, y, button⟩

end PointerMessage

def encodePointerLine (message : PointerMessage) : Except InputProtocolError (List UInt8) := do
  message.validate
  encodeLine message.fields

def decodePointerLine (serde : Serde F32 F64) (bytes : List UInt8) :
    Except InputProtocolError PointerMessage := do
  let message ← serde.decodeLine PointerMessage.ofJson bytes
  message.validate
  .ok message

/-! ## Acknowledgements -/

structure InputAck where
  version : UInt32
  messageType : String
  sequence : UInt64
  deriving DecidableEq, Repr

namespace InputAck

def new (sequence : UInt64) : Except InputProtocolError InputAck :=
  if sequence = 0 then .error .invalidSequence
  else .ok ⟨Input.version, "input_ack", sequence⟩

def validate (ack : InputAck) : Except InputProtocolError Unit :=
  if ack.version ≠ Input.version then .error (.unsupportedVersion ack.version)
  else if ack.messageType ≠ "input_ack" then .error .unexpectedMessageType
  else if ack.sequence = 0 then .error .invalidSequence
  else .ok ()

def names : List String := ["version", "type", "sequence"]

def fields (ack : InputAck) : Json.Fields :=
  [("version", .nat ack.version.toNat), ("type", .string ack.messageType),
    ("sequence", .nat ack.sequence.toNat)]

def ofJson (value : Json) : Option InputAck := do
  let fields ← Json.record names value
  let version ← Json.required fields "version" asU32
  let messageType ← Json.required fields "type" Json.asStr
  let sequence ← Json.required fields "sequence" asU64
  some ⟨version, messageType, sequence⟩

end InputAck

def encodeAckLine (ack : InputAck) : Except InputProtocolError (List UInt8) := do
  ack.validate
  encodeLine ack.fields

def decodeAckLine (serde : Serde F32 F64) (bytes : List UInt8) :
    Except InputProtocolError InputAck := do
  let ack ← serde.decodeLine InputAck.ofJson bytes
  ack.validate
  .ok ack

/-! ## Audio frames -/

structure AudioFrame (F32 : Type) where
  version : UInt32
  messageType : String
  sequence : UInt64
  left : List F32
  right : List F32
  deriving DecidableEq, Repr

namespace AudioFrame

def new (floats : Floats F32) (sequence : UInt64) (left right : List F32) :
    Except InputProtocolError (AudioFrame F32) :=
  if sequence = 0 ∨ left.length ≠ right.length ∨ left.length ∉ [16, 32, 64] then
    .error .invalidAudioBands
  else if (left ++ right).any fun value => !floats.within 0 1 value then .error .invalidAudioValue
  else .ok ⟨Input.version, "audio_bands", sequence, left, right⟩

def names : List String := ["version", "type", "sequence", "left", "right"]

def fields (floats : Floats F32) (frame : AudioFrame F32) : Json.Fields :=
  [("version", .nat frame.version.toNat), ("type", .string frame.messageType),
    ("sequence", .nat frame.sequence.toNat), ("left", .array (frame.left.map floats.toJson)),
    ("right", .array (frame.right.map floats.toJson))]

def ofJson (floats : Floats F32) (value : Json) : Option (AudioFrame F32) := do
  let fields ← Json.record names value
  let version ← Json.required fields "version" asU32
  let messageType ← Json.required fields "type" Json.asStr
  let sequence ← Json.required fields "sequence" asU64
  let left ← Json.required fields "left" (Json.asArray floats.ofNumber)
  let right ← Json.required fields "right" (Json.asArray floats.ofNumber)
  some ⟨version, messageType, sequence, left, right⟩

end AudioFrame

def encodeAudioFrame (floats : Floats F32) (frame : AudioFrame F32) :
    Except InputProtocolError (List UInt8) :=
  if frame.version ≠ version ∨ frame.messageType ≠ "audio_bands" then
    .error .unexpectedMessageType
  else do
    let _ ← AudioFrame.new floats frame.sequence frame.left frame.right
    encodeLine (frame.fields floats)

def decodeAudioFrame (serde : Serde F32 F64) (bytes : List UInt8) :
    Except InputProtocolError (AudioFrame F32) := do
  let frame ← serde.decodeLine (AudioFrame.ofJson serde.f32) bytes
  if frame.version ≠ version ∨ frame.messageType ≠ "audio_bands" then
    .error .unexpectedMessageType
  else AudioFrame.new serde.f32 frame.sequence frame.left frame.right

/-! ## Media states -/

structure MediaState (F64 : Type) where
  version : UInt32
  messageType : String
  sequence : UInt64
  playback : String
  title : Option String
  artist : Option String
  album : Option String
  positionSeconds : Option F64
  durationSeconds : Option F64
  deriving DecidableEq, Repr

def truncate (value : Option String) : Option String :=
  value.map fun text => String.ofList (text.toList.take 512)

namespace MediaState

def new (floats : Floats F64) (sequence : UInt64) (playback : String)
    (title artist album : Option String) (positionSeconds durationSeconds : Option F64) :
    Except InputProtocolError (MediaState F64) :=
  if sequence = 0 ∨ playback ∉ ["playing", "paused", "stopped"] then .error .invalidMediaState
  else if [positionSeconds, durationSeconds].reduceOption.any fun value =>
      !floats.within 0 86400 value then .error .invalidMediaState
  else .ok ⟨Input.version, "media_state", sequence, playback, truncate title, truncate artist,
    truncate album, positionSeconds, durationSeconds⟩

def names : List String :=
  ["version", "type", "sequence", "playback", "title", "artist", "album", "position_seconds",
    "duration_seconds"]

def textJson (value : Option String) : Json := (value.map Json.string).getD .null

def secondsJson (floats : Floats F64) (value : Option F64) : Json :=
  (value.map floats.toJson).getD .null

def fields (floats : Floats F64) (state : MediaState F64) : Json.Fields :=
  [("version", .nat state.version.toNat), ("type", .string state.messageType),
    ("sequence", .nat state.sequence.toNat), ("playback", .string state.playback),
    ("title", textJson state.title), ("artist", textJson state.artist),
    ("album", textJson state.album),
    ("position_seconds", secondsJson floats state.positionSeconds),
    ("duration_seconds", secondsJson floats state.durationSeconds)]

def ofJson (floats : Floats F64) (value : Json) : Option (MediaState F64) := do
  let fields ← Json.record names value
  let version ← Json.required fields "version" asU32
  let messageType ← Json.required fields "type" Json.asStr
  let sequence ← Json.required fields "sequence" asU64
  let playback ← Json.required fields "playback" Json.asStr
  let title ← Json.optional fields "title" Json.asStr
  let artist ← Json.optional fields "artist" Json.asStr
  let album ← Json.optional fields "album" Json.asStr
  let position ← Json.optional fields "position_seconds" floats.ofNumber
  let duration ← Json.optional fields "duration_seconds" floats.ofNumber
  some ⟨version, messageType, sequence, playback, title, artist, album, position, duration⟩

end MediaState

def encodeMediaState (floats : Floats F64) (state : MediaState F64) :
    Except InputProtocolError (List UInt8) := do
  let _ ← MediaState.new floats state.sequence state.playback state.title state.artist state.album
    state.positionSeconds state.durationSeconds
  encodeLine (state.fields floats)

def decodeMediaState (serde : Serde F32 F64) (bytes : List UInt8) :
    Except InputProtocolError (MediaState F64) := do
  let state ← serde.decodeLine (MediaState.ofJson serde.f64) bytes
  if state.version ≠ version ∨ state.messageType ≠ "media_state" then
    .error .unexpectedMessageType
  else
    MediaState.new serde.f64 state.sequence state.playback state.title state.artist state.album
      state.positionSeconds state.durationSeconds

end Kwe.Input
