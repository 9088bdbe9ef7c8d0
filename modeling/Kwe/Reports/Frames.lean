import Kwe.Foundation.Bytes
import Kwe.Foundation.Checks

/-!
The `KWR1` frame codec: a 12-byte header, then the payload.

* `frames_round_trip`: what `write_frame` wrote, `next_frame` reads back, under
  every split into reads and every cut; and of any stream at all it returns
  frames within the caps, whose encoding is what it consumed.

A stream is the list of what its reads return, none of them empty: an empty
read is the end of the stream.
-/

namespace Kwe.Reports

open Foundation.Bytes Foundation.Checks

/-! ## Frames -/

/-- `MAGIC`, `b"KWR1"`. -/
def magic : List UInt8 := [0x4b, 0x57, 0x52, 0x31]

/-- `HEADER_BYTES`. -/
def headerBytes : Nat := 12

/-- `MAX_PAYLOAD_BYTES`. -/
def maxPayloadBytes : Nat := 64 * 1024

structure StreamCaps where
  maxFrames : Nat
  maxTotalPayloadBytes : Nat
  deriving DecidableEq, Repr

/-- `StreamCaps::REPORT`. -/
def StreamCaps.report : StreamCaps := ⟨16, 1024 * 1024⟩

/-- `StreamCaps::SHADER_RESPONSE`. -/
def StreamCaps.shaderResponse : StreamCaps := ⟨132, 8 * 1024 * 1024⟩

inductive FrameKind
  | sceneInspectionV1
  | sceneRenderReportV1
  | shaderCompileRequestV1
  | shaderCompileResponseV1
  | spirvChunkV1
  | unknown (value : UInt8)
  deriving DecidableEq, Repr

def FrameKind.fromU8 (value : UInt8) : FrameKind :=
  if value = 1 then .sceneInspectionV1
  else if value = 2 then .sceneRenderReportV1
  else if value = 16 then .shaderCompileRequestV1
  else if value = 17 then .shaderCompileResponseV1
  else if value = 18 then .spirvChunkV1
  else .unknown value

def FrameKind.asU8 : FrameKind → UInt8
  | .sceneInspectionV1 => 1
  | .sceneRenderReportV1 => 2
  | .shaderCompileRequestV1 => 16
  | .shaderCompileResponseV1 => 17
  | .spirvChunkV1 => 18
  | .unknown value => value

structure Frame where
  kind : FrameKind
  payload : List UInt8
  deriving DecidableEq, Repr

inductive FrameError
  | badMagic
  | badFlags (flags : UInt8)
  | badReserved (reserved : Nat)
  | payloadOversize (len : Nat)
  | truncatedHeader
  | truncatedPayload
  | frameCountExceeded (max : Nat)
  | totalBytesExceeded (max : Nat)
  deriving DecidableEq, Repr

/-- The messages of the `io::Error`s of `write_frame`. -/
inductive WriteError
  | unknownKind
  | payloadOversize (len : Nat)
  deriving DecidableEq, Repr

def frameHeader (kind : FrameKind) (len : Nat) : List UInt8 :=
  magic ++ [kind.asU8, 0] ++ toLe 2 0 ++ toLe 4 len

/-- A header and its payload, whatever the kind. -/
def encodeFrame (f : Frame) : List UInt8 := frameHeader f.kind f.payload.length ++ f.payload

/-- What `write_frame` appends to a writer that takes everything. -/
def writeFrame (kind : FrameKind) (payload : List UInt8) : Except WriteError (List UInt8) :=
  match kind with
  | .unknown _ => .error .unknownKind
  | _ =>
    if maxPayloadBytes < payload.length then .error (.payloadOversize payload.length)
    else .ok (encodeFrame ⟨kind, payload⟩)

/-- `write_frame` for one frame after the other. -/
def writeFrames : List Frame → Except WriteError (List UInt8)
  | [] => .ok []
  | f :: fs => do
    let bytes ← writeFrame f.kind f.payload
    let more ← writeFrames fs
    .ok (bytes ++ more)

/-! ## Reading -/

/-- What one `read` returns: some bytes. -/
abbrev Chunk := { bytes : List UInt8 // bytes ≠ [] }

/-- The bytes of a stream. -/
def streamBytes (chunks : List Chunk) : List UInt8 := (chunks.map (·.1)).flatten

/-- A reader that has all its bytes at once. -/
def cursor (bytes : List UInt8) : List Chunk :=
  if h : bytes = [] then [] else [⟨bytes, h⟩]

/-- Reads until `want` bytes are there or a read returns none. -/
def fill (want : Nat) : List Chunk → List UInt8 × List Chunk
  | [] => ([], [])
  | chunk :: rest =>
    if want = 0 then ([], chunk :: rest)
    else if h : want < chunk.1.length then
      (chunk.1.take want, ⟨chunk.1.drop want, by simpa using h⟩ :: rest)
    else
      let (more, left) := fill (want - chunk.1.length) rest
      (chunk.1 ++ more, left)

structure FrameReader where
  reader : List Chunk
  framesRead : Nat
  totalPayloadBytes : Nat
  caps : StreamCaps

/-- `FrameReader::with_caps`. -/
def FrameReader.withCaps (reader : List Chunk) (caps : StreamCaps) : FrameReader :=
  ⟨reader, 0, 0, caps⟩

/-- The payload length of a header, if the header is well-formed. -/
def checkHeader (header : List UInt8) : Except FrameError Nat :=
  let flags := header.getD 5 0
  let reserved := fromLe (slice header 6 2)
  let payloadLen := fromLe (slice header 8 4)
  if slice header 0 4 ≠ magic then .error .badMagic
  else if flags ≠ 0 then .error (.badFlags flags)
  else if reserved ≠ 0 then .error (.badReserved reserved)
  else if maxPayloadBytes < payloadLen then .error (.payloadOversize payloadLen)
  else .ok payloadLen

def FrameReader.nextFrame (r : FrameReader) : Except FrameError (Option Frame) × FrameReader :=
  let (header, reader) := fill headerBytes r.reader
  let r := { r with reader }
  if header = [] then (.ok none, r)
  else if header.length < headerBytes then (.error .truncatedHeader, r)
  else match checkHeader header with
  | .error e => (.error e, r)
  | .ok payloadLen =>
    let r := { r with totalPayloadBytes := r.totalPayloadBytes + payloadLen }
    if r.caps.maxTotalPayloadBytes < r.totalPayloadBytes then
      (.error (.totalBytesExceeded r.caps.maxTotalPayloadBytes), r)
    else
      let r := { r with framesRead := r.framesRead + 1 }
      if r.caps.maxFrames < r.framesRead then
        (.error (.frameCountExceeded r.caps.maxFrames), r)
      else
        let (payload, reader) := fill payloadLen r.reader
        let r := { r with reader }
        if payload.length < payloadLen then (.error .truncatedPayload, r)
        else (.ok (some ⟨.fromU8 (header.getD 4 0), payload⟩), r)

/-- What `calls` calls of `next_frame` return, and the reader after them. -/
def FrameReader.frames : Nat → FrameReader →
    List (Except FrameError (Option Frame)) × FrameReader
  | 0, r => ([], r)
  | calls + 1, r =>
    let (result, r) := r.nextFrame
    let (results, r) := frames calls r
    (result :: results, r)

/-! ## Reads depend on the bytes only -/

@[simp] theorem streamBytes_nil : streamBytes [] = [] := rfl

@[simp] theorem streamBytes_cons (c : Chunk) (cs : List Chunk) :
    streamBytes (c :: cs) = c.1 ++ streamBytes cs := rfl

theorem streamBytes_cursor (bytes : List UInt8) : streamBytes (cursor bytes) = bytes := by
  unfold cursor
  split
  next h => rw [h, streamBytes_nil]
  next => simp

theorem fill_eq (want : Nat) (chunks : List Chunk) :
    (fill want chunks).1 = (streamBytes chunks).take want ∧
      streamBytes (fill want chunks).2 = (streamBytes chunks).drop want := by
  induction chunks generalizing want with
  | nil => simp [fill]
  | cons chunk rest ih =>
    unfold fill
    split
    next hwant => simp [hwant]
    next =>
      split
      next hlt =>
        rw [streamBytes_cons, List.take_append_of_le_length (by omega),
          List.drop_append_of_le_length (by omega)]
        exact ⟨rfl, rfl⟩
      next hge =>
        obtain ⟨htake, hdrop⟩ := ih (want - chunk.1.length)
        rw [streamBytes_cons, List.take_append, List.drop_append, List.take_of_length_le (by omega),
          List.drop_of_length_le (by omega)]
        exact ⟨by rw [← htake], hdrop⟩

/-- What one call returns of a stream of the given bytes: the frame and what
it leaves, nothing, or an error. -/
def decodeFrame (caps : StreamCaps) (framesRead total : Nat) (bytes : List UInt8) :
    Except FrameError (Option (Frame × List UInt8)) := do
  if bytes = [] then .ok none
  else if bytes.length < headerBytes then .error .truncatedHeader
  else
    let payloadLen ← checkHeader (bytes.take headerBytes)
    if caps.maxTotalPayloadBytes < total + payloadLen then
      .error (.totalBytesExceeded caps.maxTotalPayloadBytes)
    else if caps.maxFrames < framesRead + 1 then .error (.frameCountExceeded caps.maxFrames)
    else if bytes.length < headerBytes + payloadLen then .error .truncatedPayload
    else .ok (some (⟨.fromU8 (bytes.getD 4 0), slice bytes headerBytes payloadLen⟩,
      bytes.drop (headerBytes + payloadLen)))

/-- What one call of `next_frame` does to the reader, by what it returns. -/
def Answers (r r' : FrameReader) : Except FrameError (Option (Frame × List UInt8)) → Prop
  | .ok none => streamBytes r'.reader = [] ∧ r'.framesRead = r.framesRead ∧
      r'.totalPayloadBytes = r.totalPayloadBytes
  | .ok (some (f, rest)) => streamBytes r'.reader = rest ∧ r'.framesRead = r.framesRead + 1 ∧
      r'.totalPayloadBytes = r.totalPayloadBytes + f.payload.length
  | .error _ => r.framesRead ≤ r'.framesRead ∧ r.totalPayloadBytes ≤ r'.totalPayloadBytes

/-- `next_frame` decodes the bytes of its stream. -/
theorem nextFrame_eq (r : FrameReader) :
    let result := decodeFrame r.caps r.framesRead r.totalPayloadBytes (streamBytes r.reader)
    r.nextFrame.1 = result.map (Option.map (·.1)) ∧ r.nextFrame.2.caps = r.caps ∧
      Answers r r.nextFrame.2 result := by
  obtain ⟨hheader, hrest⟩ := fill_eq headerBytes r.reader
  generalize hbytes : streamBytes r.reader = bytes at *
  unfold FrameReader.nextFrame decodeFrame
  dsimp only
  rw [hheader]
  have hempty : bytes.take headerBytes = [] ↔ bytes = [] := by
    rw [List.take_eq_nil_iff]
    simp [headerBytes]
  have hshort : (bytes.take headerBytes).length < headerBytes ↔ bytes.length < headerBytes := by
    rw [List.length_take]
    omega
  simp only [hempty, hshort]
  by_cases hnil : bytes = []
  · rw [if_pos hnil, if_pos hnil]
    refine ⟨rfl, rfl, ?_, rfl, rfl⟩
    rw [hrest, hnil, List.drop_nil]
  rw [if_neg hnil, if_neg hnil]
  by_cases hlt : bytes.length < headerBytes
  · rw [if_pos hlt, if_pos hlt]
    exact ⟨rfl, rfl, Nat.le_refl _, Nat.le_refl _⟩
  rw [if_neg hlt, if_neg hlt]
  cases hcheck : checkHeader (bytes.take headerBytes) with
  | error e => exact ⟨rfl, rfl, Nat.le_refl _, Nat.le_refl _⟩
  | ok payloadLen =>
    dsimp only
    rw [ok_bind]
    by_cases htotal : r.caps.maxTotalPayloadBytes < r.totalPayloadBytes + payloadLen
    · rw [if_pos htotal, if_pos htotal]
      exact ⟨rfl, rfl, Nat.le_refl _, Nat.le_add_right ..⟩
    rw [if_neg htotal, if_neg htotal]
    by_cases hcount : r.caps.maxFrames < r.framesRead + 1
    · rw [if_pos hcount, if_pos hcount]
      exact ⟨rfl, rfl, Nat.le_succ _, Nat.le_add_right ..⟩
    rw [if_neg hcount, if_neg hcount]
    obtain ⟨hpayload, hleft⟩ := fill_eq payloadLen (fill headerBytes r.reader).2
    rw [hrest] at hpayload hleft
    rw [hpayload]
    have htrunc : ((bytes.drop headerBytes).take payloadLen).length < payloadLen ↔
        bytes.length < headerBytes + payloadLen := by
      rw [List.length_take, List.length_drop]
      omega
    simp only [htrunc]
    by_cases hend : bytes.length < headerBytes + payloadLen
    · rw [if_pos hend, if_pos hend]
      exact ⟨rfl, rfl, Nat.le_succ _, Nat.le_add_right ..⟩
    rw [if_neg hend, if_neg hend]
    refine ⟨?_, rfl, ?_, rfl, ?_⟩
    · simp [Except.map, slice, headerBytes]
    · rw [hleft, List.drop_drop]
    · rw [slice, List.length_take, List.length_drop]
      dsimp only
      omega

/-! ## Decoding and encoding -/

@[simp] theorem FrameKind.fromU8_asU8 {kind : FrameKind} (h : ∀ value, kind ≠ .unknown value) :
    FrameKind.fromU8 kind.asU8 = kind := by
  cases kind with
  | unknown value => exact absurd rfl (h value)
  | _ => rfl

@[simp] theorem FrameKind.asU8_fromU8 (value : UInt8) : (FrameKind.fromU8 value).asU8 = value := by
  unfold FrameKind.fromU8
  repeat' split
  all_goals simp_all [FrameKind.asU8]

theorem length_frameHeader (kind : FrameKind) (len : Nat) :
    (frameHeader kind len).length = headerBytes := rfl

theorem checkHeader_frameHeader (kind : FrameKind) {len : Nat} (h : len ≤ maxPayloadBytes) :
    checkHeader (frameHeader kind len) = .ok len := by
  have hlen : fromLe (slice (frameHeader kind len) 8 4) = len := by
    rw [show slice (frameHeader kind len) 8 4 = toLe 4 len from rfl]
    rw [maxPayloadBytes] at h
    exact fromLe_toLe (by omega)
  have hreserved : fromLe (slice (frameHeader kind len) 6 2) = 0 := rfl
  have hmagic : slice (frameHeader kind len) 0 4 = magic := rfl
  have hflags : (frameHeader kind len).getD 5 0 = 0 := rfl
  unfold checkHeader
  simp only [hlen, hreserved, hmagic, hflags]
  simp only [ne_eq, not_true_eq_false, if_false, Nat.not_lt.mpr h]

/-- A header that is accepted is one `write_frame` could have written. -/
theorem checkHeader_ok {header : List UInt8} (hlength : header.length = headerBytes) {len : Nat}
    (h : checkHeader header = .ok len) :
    header = frameHeader (.fromU8 (header.getD 4 0)) len ∧ len ≤ maxPayloadBytes := by
  unfold checkHeader at h
  obtain ⟨hmagic, h⟩ := check_ok h
  obtain ⟨hflags, h⟩ := check_ok h
  obtain ⟨hreserved, h⟩ := check_ok h
  obtain ⟨hlen, h⟩ := check_ok h
  obtain rfl : fromLe (slice header 8 4) = len := by simpa using h
  refine ⟨?_, Nat.not_lt.mp hlen⟩
  match header, hlength with
  | [a, b, c, d, kind, flags, r0, r1, l0, l1, l2, l3], _ =>
    have hm : [a, b, c, d] = magic := not_not.mp hmagic
    have hf : flags = 0 := not_not.mp hflags
    have hr : [r0, r1] = toLe 2 0 := by
      rw [← toLe_fromLe [r0, r1]]
      exact congrArg (toLe 2) (not_not.mp hreserved)
    have hl : [l0, l1, l2, l3] = toLe 4 (fromLe [l0, l1, l2, l3]) :=
      (toLe_fromLe [l0, l1, l2, l3]).symm
    have key : [a, b, c, d] ++ [kind, flags] ++ [r0, r1] ++ [l0, l1, l2, l3] =
        frameHeader (.fromU8 kind) (fromLe [l0, l1, l2, l3]) := by
      rw [frameHeader, FrameKind.asU8_fromU8, ← hm, ← hr, ← hl, hf]
    exact key

/-- Room for one more frame under the caps. -/
def StreamCaps.Admits (caps : StreamCaps) (framesRead total : Nat) (f : Frame) : Prop :=
  framesRead + 1 ≤ caps.maxFrames ∧ total + f.payload.length ≤ caps.maxTotalPayloadBytes

theorem decodeFrame_front {caps : StreamCaps} {framesRead total : Nat} {f : Frame}
    (hkind : FrameKind.fromU8 f.kind.asU8 = f.kind) (hlen : f.payload.length ≤ maxPayloadBytes)
    (hcaps : caps.Admits framesRead total f) (rest : List UInt8) :
    decodeFrame caps framesRead total (encodeFrame f ++ rest) = .ok (some (f, rest)) := by
  have hheader := length_frameHeader f.kind f.payload.length
  have htake : (encodeFrame f ++ rest).take headerBytes = frameHeader f.kind f.payload.length := by
    rw [encodeFrame, List.append_assoc, List.take_left' hheader]
  have hlength : (encodeFrame f ++ rest).length = headerBytes + (f.payload.length + rest.length) := by
    simp only [encodeFrame, List.length_append, hheader]
    omega
  have hslice : slice (encodeFrame f ++ rest) headerBytes f.payload.length = f.payload := by
    rw [slice, encodeFrame, List.append_assoc, List.drop_left' hheader, List.take_left' rfl]
  have hdrop : (encodeFrame f ++ rest).drop (headerBytes + f.payload.length) = rest := by
    rw [← List.drop_drop, encodeFrame, List.append_assoc, List.drop_left' hheader,
      List.drop_left' rfl]
  have hbyte : (encodeFrame f ++ rest).getD 4 0 = f.kind.asU8 := rfl
  unfold decodeFrame
  rw [if_neg (by rw [← List.length_eq_zero_iff, hlength, headerBytes]; omega),
    if_neg (by omega), htake, checkHeader_frameHeader _ hlen, ok_bind,
    if_neg (by have := hcaps.2; omega), if_neg (by have := hcaps.1; omega), if_neg (by omega),
    hslice, hdrop, hbyte, hkind]

theorem decodeFrame_encodeFrame {caps : StreamCaps} {framesRead total : Nat} {f : Frame}
    (hkind : ∀ value, f.kind ≠ .unknown value) (hlen : f.payload.length ≤ maxPayloadBytes)
    (hcaps : caps.Admits framesRead total f) (rest : List UInt8) :
    decodeFrame caps framesRead total (encodeFrame f ++ rest) = .ok (some (f, rest)) :=
  decodeFrame_front (FrameKind.fromU8_asU8 hkind) hlen hcaps rest

/-- **What is returned was there**, under the caps. -/
theorem decodeFrame_ok {caps : StreamCaps} {framesRead total : Nat} {bytes : List UInt8}
    {f : Frame} {rest : List UInt8}
    (h : decodeFrame caps framesRead total bytes = .ok (some (f, rest))) :
    bytes = encodeFrame f ++ rest ∧ caps.Admits framesRead total f := by
  unfold decodeFrame at h
  split at h
  next => simp at h
  next =>
    obtain ⟨hshort, h⟩ := check_ok h
    obtain ⟨len, hcheck, h⟩ := bind_ok h
    obtain ⟨htotal, h⟩ := check_ok h
    obtain ⟨hcount, h⟩ := check_ok h
    obtain ⟨hend, h⟩ := check_ok h
    obtain ⟨hframe, hrest⟩ : _ = f ∧ _ = rest := by simpa using h
    obtain ⟨hheader, -⟩ :=
      checkHeader_ok (by rw [List.length_take]; omega) hcheck
    have hpayload : f.payload = slice bytes headerBytes len := by rw [← hframe]
    have hlen : f.payload.length = len := by rw [hpayload, length_slice (by omega)]
    have hbyte : (bytes.take headerBytes).getD 4 0 = bytes.getD 4 0 := by
      simp [headerBytes]
    refine ⟨?_, by omega, by omega⟩
    have hkind : f.kind = .fromU8 (bytes.getD 4 0) := by simp [← hframe]
    calc bytes = bytes.take headerBytes ++ bytes.drop headerBytes :=
          (List.take_append_drop ..).symm
      _ = frameHeader f.kind f.payload.length ++ bytes.drop headerBytes := by
          rw [hlen, hkind, ← hbyte, ← hheader]
      _ = frameHeader f.kind f.payload.length ++
            (f.payload ++ bytes.drop (headerBytes + len)) := by
          rw [hpayload, slice, ← List.drop_drop, List.take_append_drop]
      _ = encodeFrame f ++ rest := by
          rw [hrest, encodeFrame, List.append_assoc]

theorem decodeFrame_none {caps : StreamCaps} {framesRead total : Nat} {bytes : List UInt8}
    (h : decodeFrame caps framesRead total bytes = .ok none) : bytes = [] := by
  unfold decodeFrame at h
  split at h
  next hnil => exact hnil
  next =>
    obtain ⟨-, h⟩ := check_ok h
    obtain ⟨len, -, h⟩ := bind_ok h
    obtain ⟨-, h⟩ := check_ok h
    obtain ⟨-, h⟩ := check_ok h
    obtain ⟨-, h⟩ := check_ok h
    simp at h

/-- A frame that is cut short. -/
def cutResult (there : Nat) : Except FrameError (Option Frame) :=
  if there = 0 then .ok none
  else if there < headerBytes then .error .truncatedHeader
  else .error .truncatedPayload

theorem length_encodeFrame (f : Frame) :
    (encodeFrame f).length = headerBytes + f.payload.length := by
  rw [encodeFrame, List.length_append, length_frameHeader]

theorem decodeFrame_cut {caps : StreamCaps} {framesRead total : Nat} {f : Frame}
    (hlen : f.payload.length ≤ maxPayloadBytes) (hcaps : caps.Admits framesRead total f)
    {there : Nat} (hthere : there < (encodeFrame f).length) :
    (decodeFrame caps framesRead total ((encodeFrame f).take there)).map (Option.map (·.1)) =
      cutResult there := by
  have hlength : ((encodeFrame f).take there).length = there := by
    rw [List.length_take]
    omega
  rw [length_encodeFrame] at hthere
  unfold decodeFrame cutResult
  simp only [← List.length_eq_zero_iff, hlength]
  by_cases hnone : there = 0
  · rw [if_pos hnone, if_pos hnone]
    rfl
  rw [if_neg hnone, if_neg hnone]
  by_cases hshort : there < headerBytes
  · rw [if_pos hshort, if_pos hshort]
    rfl
  have htake : ((encodeFrame f).take there).take headerBytes =
      frameHeader f.kind f.payload.length := by
    rw [List.take_take, Nat.min_eq_left (by omega), encodeFrame,
      List.take_left' (length_frameHeader ..)]
  rw [if_neg hshort, if_neg hshort, htake, checkHeader_frameHeader _ hlen, ok_bind,
    if_neg (by have := hcaps.2; omega), if_neg (by have := hcaps.1; omega), if_pos hthere]
  rfl

/-! ## One call -/

/-- A whole frame at the front of the stream. -/
theorem nextFrame_encodeFrame {r : FrameReader} {f : Frame}
    (hkind : ∀ value, f.kind ≠ .unknown value) (hlen : f.payload.length ≤ maxPayloadBytes)
    (hcaps : r.caps.Admits r.framesRead r.totalPayloadBytes f) {rest : List UInt8}
    (h : streamBytes r.reader = encodeFrame f ++ rest) :
    r.nextFrame.1 = .ok (some f) ∧ streamBytes r.nextFrame.2.reader = rest ∧
      r.nextFrame.2.framesRead = r.framesRead + 1 ∧
      r.nextFrame.2.totalPayloadBytes = r.totalPayloadBytes + f.payload.length ∧
      r.nextFrame.2.caps = r.caps := by
  obtain ⟨hresult, hcaps', hanswers⟩ := nextFrame_eq r
  rw [h, decodeFrame_encodeFrame hkind hlen hcaps] at hresult hanswers
  obtain ⟨hrest, hread, hbytes⟩ := hanswers
  exact ⟨hresult, hrest, hread, hbytes, hcaps'⟩

/-- The end of the stream. -/
theorem nextFrame_end {r : FrameReader} (h : streamBytes r.reader = []) :
    r.nextFrame.1 = .ok none ∧ streamBytes r.nextFrame.2.reader = [] := by
  obtain ⟨hresult, -, hanswers⟩ := nextFrame_eq r
  rw [h] at hresult hanswers
  exact ⟨hresult, hanswers.1⟩

/-- A returned frame was at the front of the stream. -/
theorem nextFrame_some {r : FrameReader} {f : Frame} (h : r.nextFrame.1 = .ok (some f)) :
    streamBytes r.reader = encodeFrame f ++ streamBytes r.nextFrame.2.reader := by
  obtain ⟨hresult, -, hanswers⟩ := nextFrame_eq r
  rw [h] at hresult
  cases hdecode : decodeFrame r.caps r.framesRead r.totalPayloadBytes (streamBytes r.reader) with
  | error e =>
    rw [hdecode] at hresult
    simp [Except.map] at hresult
  | ok next =>
    rw [hdecode] at hresult hanswers
    cases next with
    | none => simp [Except.map] at hresult
    | some found =>
      obtain ⟨f', rest⟩ := found
      obtain rfl : f = f' := by simpa [Except.map] using hresult
      rw [(decodeFrame_ok hdecode).1, ← hanswers.1]

theorem nextFrame_none {r : FrameReader} (h : r.nextFrame.1 = .ok none) :
    streamBytes r.reader = [] := by
  obtain ⟨hresult, -, -⟩ := nextFrame_eq r
  rw [h] at hresult
  cases hdecode : decodeFrame r.caps r.framesRead r.totalPayloadBytes (streamBytes r.reader) with
  | error e =>
    rw [hdecode] at hresult
    simp [Except.map] at hresult
  | ok next =>
    rw [hdecode] at hresult
    cases next with
    | none => exact decodeFrame_none hdecode
    | some found => simp [Except.map] at hresult

/-! ## Every call -/

/-- Frames one after the other, whatever their kinds. -/
def encodeFrames (fs : List Frame) : List UInt8 := (fs.map encodeFrame).flatten

/-- The payload bytes of all the frames. -/
def payloadTotal (fs : List Frame) : Nat := (fs.map (·.payload.length)).sum

@[simp] theorem encodeFrames_nil : encodeFrames [] = [] := rfl

@[simp] theorem encodeFrames_cons (f : Frame) (fs : List Frame) :
    encodeFrames (f :: fs) = encodeFrame f ++ encodeFrames fs := rfl

@[simp] theorem payloadTotal_nil : payloadTotal [] = 0 := rfl

@[simp] theorem payloadTotal_cons (f : Frame) (fs : List Frame) :
    payloadTotal (f :: fs) = f.payload.length + payloadTotal fs := rfl

/-- What `write_frame` accepts. -/
def Frame.Writable (f : Frame) : Prop :=
  (∀ value, f.kind ≠ .unknown value) ∧ f.payload.length ≤ maxPayloadBytes

theorem writeFrame_ok {f : Frame} {bytes : List UInt8}
    (h : writeFrame f.kind f.payload = .ok bytes) : f.Writable ∧ bytes = encodeFrame f := by
  unfold writeFrame at h
  split at h
  next => simp at h
  next hkind =>
    obtain ⟨hlen, h⟩ := check_ok h
    exact ⟨⟨hkind, Nat.not_lt.mp hlen⟩, by simpa using h.symm⟩

theorem writeFrames_ok {fs : List Frame} {bytes : List UInt8} (h : writeFrames fs = .ok bytes) :
    (∀ f ∈ fs, f.Writable) ∧ bytes = encodeFrames fs := by
  induction fs generalizing bytes with
  | nil => exact ⟨by simp, by simpa [writeFrames] using h.symm⟩
  | cons f fs ih =>
    obtain ⟨first, hfirst, h⟩ := bind_ok h
    obtain ⟨more, hmore, h⟩ := bind_ok h
    obtain rfl : first ++ more = bytes := by simpa using h
    obtain ⟨hf, rfl⟩ := writeFrame_ok hfirst
    obtain ⟨hfs, rfl⟩ := ih hmore
    exact ⟨List.forall_mem_cons.mpr ⟨hf, hfs⟩, rfl⟩

theorem frames_add (m n : Nat) (r : FrameReader) :
    r.frames (m + n) =
      ((r.frames m).1 ++ ((r.frames m).2.frames n).1, ((r.frames m).2.frames n).2) := by
  induction m generalizing r with
  | zero => simp [FrameReader.frames]
  | succ m ih =>
    rw [Nat.succ_add]
    simp only [FrameReader.frames, ih, List.cons_append]

/-- Calls over frames that fit the caps return them, whatever follows. -/
theorem frames_encodeFrames {fs : List Frame} (hfs : ∀ f ∈ fs, f.Writable) {r : FrameReader}
    (hcount : r.framesRead + fs.length ≤ r.caps.maxFrames)
    (htotal : r.totalPayloadBytes + payloadTotal fs ≤ r.caps.maxTotalPayloadBytes)
    {rest : List UInt8} (h : streamBytes r.reader = encodeFrames fs ++ rest) :
    (r.frames fs.length).1 = fs.map (fun f => .ok (some f)) ∧
      streamBytes (r.frames fs.length).2.reader = rest ∧
      (r.frames fs.length).2.framesRead = r.framesRead + fs.length ∧
      (r.frames fs.length).2.totalPayloadBytes = r.totalPayloadBytes + payloadTotal fs ∧
      (r.frames fs.length).2.caps = r.caps := by
  induction fs generalizing r with
  | nil => exact ⟨rfl, h, rfl, rfl, rfl⟩
  | cons f fs ih =>
    obtain ⟨⟨hkind, hlen⟩, hfs⟩ := List.forall_mem_cons.mp hfs
    rw [payloadTotal_cons] at htotal
    rw [List.length_cons] at hcount
    rw [encodeFrames_cons, List.append_assoc] at h
    obtain ⟨hresult, hrest, hread, hbytes, hcaps⟩ :=
      nextFrame_encodeFrame hkind hlen ⟨by omega, by omega⟩ h
    obtain ⟨hresults, hreader, hread', hbytes', hcaps'⟩ :=
      ih hfs (r := r.nextFrame.2) (by rw [hread, hcaps]; omega) (by rw [hbytes, hcaps]; omega) hrest
    simp only [List.length_cons, FrameReader.frames, List.map_cons, payloadTotal_cons]
    refine ⟨?_, hreader, by omega, by omega, hcaps'.trans hcaps⟩
    rw [hresults, hresult]

/-- Past the end of the stream. -/
theorem frames_end {r : FrameReader} (h : streamBytes r.reader = []) (calls : Nat) :
    (r.frames calls).1 = List.replicate calls (.ok none) := by
  induction calls generalizing r with
  | zero => rfl
  | succ calls ih =>
    obtain ⟨hresult, hend⟩ := nextFrame_end h
    simp only [FrameReader.frames, List.replicate_succ, ih hend, hresult]

/-- The frames among some results. -/
def returned (results : List (Except FrameError (Option Frame))) : List Frame :=
  results.filterMap fun result => result.toOption.join

/-- The caps bound what any calls return, also after an error. -/
theorem returned_le (r : FrameReader) (calls : Nat) :
    (returned (r.frames calls).1).length ≤ r.caps.maxFrames - r.framesRead ∧
      payloadTotal (returned (r.frames calls).1) ≤
        r.caps.maxTotalPayloadBytes - r.totalPayloadBytes := by
  induction calls generalizing r with
  | zero => simp [FrameReader.frames, returned]
  | succ calls ih =>
    obtain ⟨hresult, hcaps, hanswers⟩ := nextFrame_eq r
    obtain ⟨hcount, htotal⟩ := ih r.nextFrame.2
    simp only [FrameReader.frames]
    rw [hcaps] at hcount htotal
    cases hdecode : decodeFrame r.caps r.framesRead r.totalPayloadBytes (streamBytes r.reader) with
    | error e =>
      rw [hdecode] at hresult hanswers
      obtain ⟨hread, hbytes⟩ := hanswers
      rw [hresult]
      refine ⟨Nat.le_trans hcount ?_, Nat.le_trans htotal ?_⟩
      · omega
      · omega
    | ok next =>
      rw [hdecode] at hresult hanswers
      cases next with
      | none =>
        obtain ⟨-, hread, hbytes⟩ := hanswers
        rw [hresult]
        rw [hread] at hcount
        rw [hbytes] at htotal
        exact ⟨hcount, htotal⟩
      | some found =>
        obtain ⟨f, rest⟩ := found
        obtain ⟨-, hread, hbytes⟩ := hanswers
        obtain ⟨-, hadmits⟩ := decodeFrame_ok hdecode
        obtain ⟨hframes, hpayloads⟩ := hadmits
        have hcons : returned (r.nextFrame.1 :: (r.nextFrame.2.frames calls).1) =
            f :: returned (r.nextFrame.2.frames calls).1 := by
          rw [hresult]
          rfl
        rw [hcons, List.length_cons, payloadTotal_cons]
        omega

/-- While every call returns a frame, the frames are what was consumed. -/
theorem frames_consumed (r : FrameReader) (calls : Nat) {fs : List Frame}
    (h : (r.frames calls).1 = fs.map fun f => .ok (some f)) :
    streamBytes r.reader = encodeFrames fs ++ streamBytes (r.frames calls).2.reader := by
  induction calls generalizing r fs with
  | zero =>
    obtain rfl : fs = [] := by simpa [FrameReader.frames] using h.symm
    rfl
  | succ calls ih =>
    simp only [FrameReader.frames] at h ⊢
    cases fs with
    | nil => simp at h
    | cons f fs =>
      obtain ⟨hfirst, hmore⟩ := List.cons.inj h
      rw [nextFrame_some hfirst, ih r.nextFrame.2 hmore, encodeFrames_cons, List.append_assoc]

/-! ## Cuts -/

/-- Where a cut before the end falls: after some whole frames, inside the
next. -/
theorem encodeFrames_cut {fs : List Frame} {cut : Nat} (h : cut < (encodeFrames fs).length) :
    ∃ whole f later, fs = whole ++ f :: later ∧ (encodeFrames whole).length ≤ cut ∧
      cut - (encodeFrames whole).length < (encodeFrame f).length ∧
      (encodeFrames fs).take cut =
        encodeFrames whole ++ (encodeFrame f).take (cut - (encodeFrames whole).length) := by
  induction fs generalizing cut with
  | nil => simp at h
  | cons f fs ih =>
    rw [encodeFrames_cons, List.length_append] at h
    by_cases hcut : cut < (encodeFrame f).length
    · refine ⟨[], f, fs, rfl, Nat.zero_le _, by simpa using hcut, ?_⟩
      rw [encodeFrames_cons, List.take_append_of_le_length (by omega)]
      simp
    · obtain ⟨whole, g, later, rfl, hle, hlt, htake⟩ :=
        @ih (cut - (encodeFrame f).length) (by omega)
      refine ⟨f :: whole, g, later, rfl, ?_, ?_, ?_⟩
      · rw [encodeFrames_cons, List.length_append]
        omega
      · rw [encodeFrames_cons, List.length_append]
        omega
      · rw [encodeFrames_cons, List.take_append, List.take_of_length_le (by omega), htake,
          encodeFrames_cons, List.append_assoc, List.length_append, Nat.sub_add_eq]

/-- **The frame codec.**  Frames that `write_frame` accepts and that fit the
caps are read back in order under every split into reads, then nothing, at
every further call.  Cut anywhere before the end, the stream gives the whole
frames before the cut, then nothing if the cut is at a frame boundary and a
truncation error otherwise.  Of any stream at all, any number of calls returns
frames within the caps, and those returned before anything else encode to what
was consumed. -/
theorem frames_round_trip :
    (∀ fs bytes, writeFrames fs = .ok bytes → ∀ caps : StreamCaps,
      fs.length ≤ caps.maxFrames → payloadTotal fs ≤ caps.maxTotalPayloadBytes →
      (∀ chunks, streamBytes chunks = bytes → ∀ more,
        ((FrameReader.withCaps chunks caps).frames (fs.length + (more + 1))).1 =
          fs.map (fun f => .ok (some f)) ++ List.replicate (more + 1) (.ok none)) ∧
      (∀ cut < bytes.length, ∃ whole f later, fs = whole ++ f :: later ∧
        (encodeFrames whole).length ≤ cut ∧
        cut - (encodeFrames whole).length < (encodeFrame f).length ∧
        ∀ chunks, streamBytes chunks = bytes.take cut →
          ((FrameReader.withCaps chunks caps).frames (whole.length + 1)).1 =
            whole.map (fun f => .ok (some f)) ++
              [cutResult (cut - (encodeFrames whole).length)])) ∧
    (∀ caps chunks calls,
      let after := (FrameReader.withCaps chunks caps).frames calls
      (returned after.1).length ≤ caps.maxFrames ∧
      payloadTotal (returned after.1) ≤ caps.maxTotalPayloadBytes ∧
      ∀ fs, after.1 = fs.map (fun f => .ok (some f)) →
        streamBytes chunks = encodeFrames fs ++ streamBytes after.2.reader) := by
  refine ⟨fun fs bytes hwrite caps hcount htotal => ?_, fun caps chunks calls => ?_⟩
  · obtain ⟨hfs, rfl⟩ := writeFrames_ok hwrite
    refine ⟨fun chunks hchunks more => ?_, fun cut hcut => ?_⟩
    · have hbytes : streamBytes chunks = encodeFrames fs ++ [] := by rw [hchunks, List.append_nil]
      obtain ⟨hresults, hend, -⟩ := frames_encodeFrames hfs
        (r := FrameReader.withCaps chunks caps) (by simpa [FrameReader.withCaps] using hcount)
        (by simpa [FrameReader.withCaps] using htotal) hbytes
      rw [frames_add, hresults, frames_end hend]
    · obtain ⟨whole, f, later, rfl, hle, hlt, htake⟩ := encodeFrames_cut hcut
      refine ⟨whole, f, later, rfl, hle, hlt, fun chunks hchunks => ?_⟩
      rw [htake] at hchunks
      obtain ⟨-, hlen⟩ := hfs f (by simp)
      rw [List.length_append, List.length_cons] at hcount
      have htotals : payloadTotal (whole ++ f :: later) =
          payloadTotal whole + (f.payload.length + payloadTotal later) := by
        simp [payloadTotal]
      obtain ⟨hresults, hrest, hread, hbytes, hcaps⟩ := frames_encodeFrames
        (fun g hg => hfs g (List.mem_append_left _ hg)) (r := FrameReader.withCaps chunks caps)
        (by simp only [FrameReader.withCaps]; omega) (by simp only [FrameReader.withCaps]; omega)
        hchunks
      obtain ⟨hresult, -⟩ := nextFrame_eq ((FrameReader.withCaps chunks caps).frames whole.length).2
      rw [hrest, hread, hbytes, hcaps, decodeFrame_cut hlen ⟨?_, ?_⟩ hlt] at hresult
      · rw [frames_add, hresults]
        simp only [FrameReader.frames, hresult]
      · simp only [FrameReader.withCaps]
        omega
      · simp only [FrameReader.withCaps]
        omega
  · obtain ⟨hframes, hpayloads⟩ := returned_le (FrameReader.withCaps chunks caps) calls
    refine ⟨hframes, hpayloads, fun fs hfs => ?_⟩
    exact frames_consumed (FrameReader.withCaps chunks caps) calls hfs

/-- An inspection frame that arrives in two reads, split in its header. -/
theorem frames_round_trip_oneFrame :
    let f : Frame := ⟨.sceneInspectionV1, [0x7b, 0x7d]⟩
    let chunks : List Chunk :=
      [⟨[0x4b, 0x57, 0x52, 0x31, 1], by decide⟩, ⟨[0, 0, 0, 2, 0, 0, 0, 0x7b, 0x7d], by decide⟩]
    writeFrames [f] = .ok (streamBytes chunks) ∧
      ((FrameReader.withCaps chunks .report).frames 2).1 = [.ok (some f), .ok none] := by
  have hwrite : writeFrames [⟨.sceneInspectionV1, [0x7b, 0x7d]⟩] =
      .ok [0x4b, 0x57, 0x52, 0x31, 1, 0, 0, 0, 2, 0, 0, 0, 0x7b, 0x7d] := by decide
  refine ⟨hwrite, ?_⟩
  exact (frames_round_trip.1 _ _ hwrite .report (by decide) (by decide)).1 _ rfl 0

end Kwe.Reports
