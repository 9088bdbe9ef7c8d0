import Kwe.Foundation.Json
import Kwe.Reports.Frames

/-!
The response of the shader-compile helper, from the bytes it writes to the
outcome the renderer makes of them.

* `response_compiled`: a compiled shader comes through exactly when its SPIR-V
  has at most `spirvLimit` bytes; a compile error always does; and what the
  renderer takes for a compiled shader is one `ok` header and the declared
  frames, nothing else.

Four bounds meet in one message: chunks, SPIR-V bytes, payload bytes and raw
bytes.  The last is the tightest, because `drain_stdout` holds the raw bytes
against the cap of the payload bytes.
-/

namespace Kwe.Reports

open Foundation Foundation.Bytes Foundation.Checks

/-! ## The helper -/

/-- `SHADER_COMPILE_RESPONSE_SCHEMA`. -/
def shaderCompileResponseSchema : String := "shader-compile-response-v1"

/-- `MAX_SPIRV_CHUNKS`: one less than the frames of the response channel. -/
def maxSpirvChunks : Nat := StreamCaps.shaderResponse.maxFrames - 1

/-- `MAX_SPIRV_TOTAL_BYTES`. -/
def maxSpirvTotalBytes : Nat := StreamCaps.shaderResponse.maxTotalPayloadBytes

/-- `MAX_SHADER_COMPILE_ERROR_LOG_BYTES`. -/
def maxShaderCompileErrorLogBytes : Nat := 4 * 1024

/-- `bounded` of the helper. -/
def bounded (text : List Char) (maxBytes : Nat) : List Char := Utf8.truncate maxBytes text

/-- `slice::chunks`; `fuel` bounds the number of chunks. -/
def chunksOf (count : Nat) : Nat → List UInt8 → List (List UInt8)
  | 0, _ => []
  | fuel + 1, bytes =>
    if bytes = [] then [] else bytes.take count :: chunksOf count fuel (bytes.drop count)

/-- The chunks `respond_ok` sends. -/
def spirvChunks (spirv : List UInt8) : List (List UInt8) :=
  chunksOf maxPayloadBytes spirv.length spirv

/-- `write_frame` to a pipe that takes everything; errors are swallowed. -/
def writeBestEffort (kind : FrameKind) (payload : List UInt8) : List UInt8 :=
  match writeFrame kind payload with
  | .ok bytes => bytes
  | .error _ => []

/-- The loop of `respond_ok`, which stops at the first error. -/
def writeChunks : List (List UInt8) → List UInt8
  | [] => []
  | chunk :: chunks =>
    match writeFrame .spirvChunkV1 chunk with
    | .ok bytes => bytes ++ writeChunks chunks
    | .error _ => []

def okResponse (chunks total : Nat) : Json :=
  Json.obj [("schema", .string shaderCompileResponseSchema), ("status", .string "ok"),
    ("spirv_chunks", .nat chunks), ("spirv_total_bytes", .nat total)]

def compileErrorResponse (log : List Char) : Json :=
  Json.obj [("schema", .string shaderCompileResponseSchema), ("status", .string "compile-error"),
    ("log", .string (String.ofList (bounded log maxShaderCompileErrorLogBytes)))]

/-- The bytes `respond_ok` writes. -/
def respondOk (spirv : List UInt8) : List UInt8 :=
  writeBestEffort .shaderCompileResponseV1
      (okResponse (spirvChunks spirv).length spirv.length).toBytes ++
    writeChunks (spirvChunks spirv)

/-- The bytes `respond_compile_error` writes. -/
def respondCompileError (log : List Char) : List UInt8 :=
  writeBestEffort .shaderCompileResponseV1 (compileErrorResponse log).toBytes

/-! ## The renderer -/

inductive ShaderResponseError
  | parse (detail : String)
  | notAnObject
  | wrongSchema
  | missingField (path : String)
  | wrongType (path : String)
  | tooManySpirvChunks (chunks : Nat)
  | spirvTotalBytesTooLarge (bytes : Nat)
  | logOversize (len : Nat)
  deriving DecidableEq, Repr

/-- The details of a protocol error, before they are put into words. -/
inductive ProtocolDetail
  | responseOversize
  | noResponseFrame
  | frame (e : FrameError)
  | wrongKind
  | response (e : ShaderResponseError)
  | reason (text : String)
  | unrecognizedStatus (status : Option String)
  | missingSpirvFields
  | unexpectedKind (kind : FrameKind) (index : Nat)
  | stoppedAfter (declared index : Nat)
  | trailingFrames
  | wrongTotal (declared actual : Nat)
  | notWords
  deriving DecidableEq, Repr

inductive HelperOutcome
  | unimplemented
  | protocolError (detail : ProtocolDetail)
  | compiled (spirv : List UInt32) (response : Json)
  | compileError (log : String)

def requireStr (object : Json.Fields) (path : String) : Except ShaderResponseError String :=
  match Json.get object path with
  | none => .error (.missingField path)
  | some (.string value) => .ok value
  | some _ => .error (.wrongType path)

def responseRequireU64 (object : Json.Fields) (path : String) : Except ShaderResponseError Nat :=
  match Json.get object path with
  | none => .error (.missingField path)
  | some (.nat number) => .ok number
  | some _ => .error (.wrongType path)

/-- `bounded` of the renderer: at most 300 characters of a message. -/
def boundedDetail (text : String) : String := String.ofList (text.toList.take 300)

section Renderer

-- `serde_json::from_slice`
variable (fromSlice : List UInt8 → Except String Json)

def validateShaderCompileResponse (payload : List UInt8) : Except ShaderResponseError Json := do
  let value ← (fromSlice payload).mapError .parse
  match value with
  | .object object =>
    let schema ← requireStr object "schema"
    if schema ≠ shaderCompileResponseSchema then .error .wrongSchema
    else
      let status ← requireStr object "status"
      if status = "ok" then
        let spirvChunks ← responseRequireU64 object "spirv_chunks"
        if maxSpirvChunks < spirvChunks then .error (.tooManySpirvChunks spirvChunks)
        else
          let spirvTotalBytes ← responseRequireU64 object "spirv_total_bytes"
          if maxSpirvTotalBytes < spirvTotalBytes then
            .error (.spirvTotalBytesTooLarge spirvTotalBytes)
          else .ok value
      else if status = "compile-error" then
        let log ← requireStr object "log"
        if maxShaderCompileErrorLogBytes < Utf8.size log.toList then
          .error (.logOversize (Utf8.size log.toList))
        else .ok value
      else
        let _ ← requireStr object "reason"
        .ok value
  | _ => .error .notAnObject

/-- The words of whole groups of four bytes. -/
def words : List UInt8 → List UInt32
  | a :: b :: c :: d :: rest => UInt32.ofNat (fromLe [a, b, c, d]) :: words rest
  | _ => []

/-- The loop of `reassemble_ok` over the chunks that are left. -/
def readSpirvChunks (declared : Nat) : Nat → FrameReader → List UInt8 →
    Except ProtocolDetail (List UInt8 × FrameReader)
  | 0, reader, bytes => .ok (bytes, reader)
  | left + 1, reader, bytes =>
    let (result, reader) := reader.nextFrame
    match result with
    | .ok (some frame) =>
      if frame.kind = .spirvChunkV1 then
        readSpirvChunks declared left reader (bytes ++ frame.payload)
      else .error (.unexpectedKind frame.kind (declared - (left + 1)))
    | .ok none => .error (.stoppedAfter declared (declared - (left + 1)))
    | .error e => .error (.frame e)

def reassembleOk (reader : FrameReader) (response : Json) : HelperOutcome :=
  match (response.field "spirv_chunks").bind Json.asU64,
      (response.field "spirv_total_bytes").bind Json.asU64 with
  | some declaredChunks, some declaredTotal =>
    match readSpirvChunks declaredChunks declaredChunks reader [] with
    | .error detail => .protocolError detail
    | .ok (spirvBytes, reader) =>
      match reader.nextFrame.1 with
      | .error e => .protocolError (.frame e)
      | .ok (some _) => .protocolError .trailingFrames
      | .ok none =>
        if spirvBytes.length ≠ declaredTotal then
          .protocolError (.wrongTotal declaredTotal spirvBytes.length)
        else if spirvBytes.length % 4 ≠ 0 then .protocolError .notWords
        else .compiled (words spirvBytes) response
  | _, _ => .protocolError .missingSpirvFields

/-- `finalize` from the status on. -/
def classify (reader : FrameReader) (response : Json) : HelperOutcome :=
  match (response.field "status").bind Json.asStr with
  | none => .protocolError (.unrecognizedStatus none)
  | some status =>
    if status = "unimplemented" then .unimplemented
    else if status = "protocol-error" then
      .protocolError (.reason
        (boundedDetail (((response.field "reason").bind Json.asStr).getD "protocol-error")))
    else if status = "compile-error" then
      .compileError
        (boundedDetail (((response.field "log").bind Json.asStr).getD "compile-error"))
    else if status = "ok" then reassembleOk reader response
    else .protocolError (.unrecognizedStatus (some status))

def finalize (outBuffer : List UInt8) : HelperOutcome :=
  let (result, reader) :=
    (FrameReader.withCaps (cursor outBuffer) .shaderResponse).nextFrame
  match result with
  | .ok none => .protocolError .noResponseFrame
  | .error e => .protocolError (.frame e)
  | .ok (some frame) =>
    if frame.kind ≠ .shaderCompileResponseV1 then .protocolError .wrongKind
    else match validateShaderCompileResponse fromSlice frame.payload with
    | .error e => .protocolError (.response e)
    | .ok response => classify reader response

/-- The loop of `drain_stdout` over what the pipe holds. -/
def drainLoop : List Chunk → List UInt8 → Bool × List UInt8
  | [], buffer => (false, buffer)
  | chunk :: pipe, buffer =>
    let buffer := buffer ++ chunk.1
    if StreamCaps.shaderResponse.maxTotalPayloadBytes < buffer.length then (true, buffer)
    else drainLoop pipe buffer

def drainStdout (pipe : List Chunk) (buffer : List UInt8) : Bool × List UInt8 :=
  if StreamCaps.shaderResponse.maxTotalPayloadBytes < buffer.length then (true, buffer)
  else drainLoop pipe buffer

/-- `wait_and_read` of a helper that exits in time: what each drain finds in
the pipe, the last one after the exit. -/
def waitAndRead : List (List Chunk) → List UInt8 → HelperOutcome
  | [], buffer => finalize fromSlice buffer
  | pipe :: later, buffer =>
    let (oversize, buffer) := drainStdout pipe buffer
    if oversize then .protocolError .responseOversize else waitAndRead later buffer

end Renderer

/-- The longest SPIR-V whose response stays under the cap of `drain_stdout`:
the cap less the 129 frame headers and the JSON header. -/
def spirvLimit : Nat := 8386960

/-! ## What the helper writes -/

theorem chunksOf_spec {count fuel : Nat} {bytes : List UInt8} (hcount : 0 < count)
    (hfuel : bytes.length ≤ fuel) :
    (chunksOf count fuel bytes).flatten = bytes ∧
      (∀ chunk ∈ chunksOf count fuel bytes, chunk.length ≤ count) ∧
      (chunksOf count fuel bytes).length = (bytes.length + (count - 1)) / count := by
  induction fuel generalizing bytes with
  | zero =>
    obtain rfl : bytes = [] := List.length_eq_zero_iff.mp (Nat.le_zero.mp hfuel)
    refine ⟨rfl, by simp [chunksOf], ?_⟩
    rw [List.length_nil, Nat.zero_add, Nat.div_eq_of_lt (by omega)]
    rfl
  | succ fuel ih =>
    rw [chunksOf]
    split
    next hnil =>
      subst hnil
      refine ⟨rfl, by simp, ?_⟩
      rw [List.length_nil, List.length_nil, Nat.zero_add, Nat.div_eq_of_lt (by omega)]
    next hne =>
      have hpos := List.length_pos_iff.mpr hne
      obtain ⟨hflatten, hlens, hlength⟩ :=
        @ih (bytes.drop count) (by rw [List.length_drop]; omega)
      refine ⟨?_, List.forall_mem_cons.mpr ⟨List.length_take_le _ _, hlens⟩, ?_⟩
      · rw [List.flatten_cons, hflatten, List.take_append_drop]
      · rw [List.length_cons, hlength, List.length_drop]
        by_cases hshort : bytes.length ≤ count
        · rw [Nat.sub_eq_zero_of_le hshort, Nat.zero_add, Nat.div_eq_of_lt (by omega)]
          refine (Nat.div_eq_of_lt_le ?_ ?_).symm <;> omega
        · rw [show bytes.length + (count - 1) = bytes.length - count + (count - 1) + count by omega,
            Nat.add_div_right _ hcount]

/-- A frame of one chunk. -/
def chunkFrame (chunk : List UInt8) : Frame := ⟨.spirvChunkV1, chunk⟩

theorem writeFrame_known {kind : FrameKind} {payload : List UInt8}
    (hkind : ∀ value, kind ≠ .unknown value) (hlen : payload.length ≤ maxPayloadBytes) :
    writeFrame kind payload = .ok (encodeFrame ⟨kind, payload⟩) := by
  unfold writeFrame
  split
  next value => exact absurd rfl (hkind value)
  next => rw [if_neg (Nat.not_lt.mpr hlen)]

theorem writeChunks_eq {chunks : List (List UInt8)}
    (h : ∀ chunk ∈ chunks, chunk.length ≤ maxPayloadBytes) :
    writeChunks chunks = encodeFrames (chunks.map chunkFrame) := by
  induction chunks with
  | nil => rfl
  | cons chunk chunks ih =>
    obtain ⟨hchunk, hchunks⟩ := List.forall_mem_cons.mp h
    rw [writeChunks, writeFrame_known (by simp) hchunk, ih hchunks]
    rfl

theorem okResponse_eq (chunks total : Nat) :
    okResponse chunks total =
      .object [("schema", .string shaderCompileResponseSchema), ("spirv_chunks", .nat chunks),
        ("spirv_total_bytes", .nat total), ("status", .string "ok")] := by
  simp [okResponse, Json.obj, Json.set, Json.get, -String.lt_iff_ltb]

theorem compileErrorResponse_eq (log : List Char) :
    compileErrorResponse log =
      .object [("log", .string (String.ofList (bounded log maxShaderCompileErrorLogBytes))),
        ("schema", .string shaderCompileResponseSchema), ("status", .string "compile-error")] := by
  simp [compileErrorResponse, Json.obj, Json.set, Json.get, -String.lt_iff_ltb]

theorem size_digits (n : Nat) : Utf8.size (Nat.toDigits 10 n) = (Nat.toDigits 10 n).length := by
  have hascii : ∀ c ∈ Nat.toDigits 10 n, c.utf8Size = 1 := by
    intro c hc
    have hdigit : c.isDigit = true := Json.isDigit_of_mem_toDigits hc
    refine Utf8.utf8Size_ascii ?_
    have hle := (Char.isDigit_iff_toNat.mp hdigit).2
    exact Nat.lt_of_le_of_lt hle (by decide)
  unfold Utf8.size
  rw [List.map_congr_left hascii]
  simp

theorem write_okResponse (chunks total : Nat) :
    (okResponse chunks total).write =
      "\x7b\"schema\":\"shader-compile-response-v1\",\"spirv_chunks\":".toList ++
        (Nat.toDigits 10 chunks ++ (",\"spirv_total_bytes\":".toList ++
          (Nat.toDigits 10 total ++ ",\"status\":\"ok\"\x7d".toList))) := by
  rw [okResponse_eq]
  rfl

theorem length_okResponse (chunks total : Nat) :
    (okResponse chunks total).toBytes.length =
      90 + (Nat.toDigits 10 chunks).length + (Nat.toDigits 10 total).length := by
  have hstart : Utf8.size
      "\x7b\"schema\":\"shader-compile-response-v1\",\"spirv_chunks\":".toList = 54 := by decide
  have hmiddle : Utf8.size ",\"spirv_total_bytes\":".toList = 21 := by decide
  have hend : Utf8.size ",\"status\":\"ok\"\x7d".toList = 15 := by decide
  rw [Json.toBytes, Utf8.length_encode, write_okResponse]
  simp only [Utf8.size_append, size_digits, hstart, hmiddle, hend]
  omega

theorem length_digits_le {n k : Nat} (hk : 0 < k) :
    (Nat.toDigits 10 n).length ≤ k ↔ n < 10 ^ k :=
  Nat.length_toDigits_le_iff (by decide) hk

/-- The header frame of an `ok` response. -/
def okFrame (spirv : List UInt8) : Frame :=
  ⟨.shaderCompileResponseV1, (okResponse (spirvChunks spirv).length spirv.length).toBytes⟩

section RespondOk

variable {spirv : List UInt8}

theorem spirvChunks_spec (spirv : List UInt8) :
    (spirvChunks spirv).flatten = spirv ∧
      (∀ chunk ∈ spirvChunks spirv, chunk.length ≤ maxPayloadBytes) ∧
      (spirvChunks spirv).length = (spirv.length + 65535) / 65536 :=
  chunksOf_spec (by decide) (Nat.le_refl _)

/-- The JSON header is short. -/
theorem length_okFrame_le (h : spirv.length ≤ maxSpirvTotalBytes) :
    (okFrame spirv).payload.length ≤ 100 := by
  have hchunks := (spirvChunks_spec spirv).2.2
  simp only [maxSpirvTotalBytes, StreamCaps.shaderResponse] at h
  have hfirst : (Nat.toDigits 10 (spirvChunks spirv).length).length ≤ 3 :=
    (length_digits_le (by decide)).mpr (by omega)
  have hsecond : (Nat.toDigits 10 spirv.length).length ≤ 7 :=
    (length_digits_le (by decide)).mpr (by omega)
  rw [okFrame, length_okResponse]
  omega

theorem respondOk_eq (h : spirv.length ≤ maxSpirvTotalBytes) :
    respondOk spirv = encodeFrames (okFrame spirv :: (spirvChunks spirv).map chunkFrame) := by
  have hlen := length_okFrame_le h
  have hheader : (okFrame spirv).payload.length ≤ maxPayloadBytes :=
    Nat.le_trans hlen (by decide)
  rw [okFrame] at hheader
  rw [respondOk, writeBestEffort, writeFrame_known (by simp) hheader,
    writeChunks_eq (spirvChunks_spec spirv).2.1]
  rfl

theorem length_encodeFrames (fs : List Frame) :
    (encodeFrames fs).length = headerBytes * fs.length + payloadTotal fs := by
  induction fs with
  | nil => rfl
  | cons f fs ih =>
    rw [encodeFrames_cons, List.length_append, ih, length_encodeFrame, payloadTotal_cons,
      List.length_cons, Nat.mul_succ]
    omega

theorem payloadTotal_chunks (chunks : List (List UInt8)) :
    payloadTotal (chunks.map chunkFrame) = chunks.flatten.length := by
  induction chunks with
  | nil => rfl
  | cons chunk chunks ih =>
    rw [List.map_cons, payloadTotal_cons, ih, List.flatten_cons, List.length_append]
    rfl

/-- Where the raw bytes of the response pass the cap. -/
theorem length_respondOk_le (h : spirv.length ≤ maxSpirvTotalBytes) :
    (respondOk spirv).length ≤ StreamCaps.shaderResponse.maxTotalPayloadBytes ↔
      spirv.length ≤ spirvLimit := by
  obtain ⟨hflatten, -, hchunks⟩ := spirvChunks_spec spirv
  have hlength : (respondOk spirv).length =
      12 * ((spirvChunks spirv).length + 1) + (90 +
        (Nat.toDigits 10 (spirvChunks spirv).length).length +
        (Nat.toDigits 10 spirv.length).length + spirv.length) := by
    rw [respondOk_eq h, length_encodeFrames, payloadTotal_cons, payloadTotal_chunks, hflatten,
      okFrame, length_okResponse, List.length_cons, List.length_map, headerBytes]
  have hfirst : (Nat.toDigits 10 (spirvChunks spirv).length).length ≤ 3 ↔ _ :=
    length_digits_le (by decide)
  have hfirst' : (Nat.toDigits 10 (spirvChunks spirv).length).length ≤ 2 ↔ _ :=
    length_digits_le (by decide)
  have hsecond : (Nat.toDigits 10 spirv.length).length ≤ 7 ↔ _ := length_digits_le (by decide)
  have hsecond' : (Nat.toDigits 10 spirv.length).length ≤ 6 ↔ _ := length_digits_le (by decide)
  simp only [maxSpirvTotalBytes, StreamCaps.shaderResponse] at h
  simp only [StreamCaps.shaderResponse, spirvLimit]
  omega

end RespondOk

/-! ## The drains -/

@[simp] theorem streamBytes_append (a b : List Chunk) :
    streamBytes (a ++ b) = streamBytes a ++ streamBytes b := by
  simp [streamBytes]

theorem drainLoop_eq (pipe : List Chunk) {buffer : List UInt8}
    (h : buffer.length ≤ StreamCaps.shaderResponse.maxTotalPayloadBytes) :
    ((drainLoop pipe buffer).1 = true ↔ StreamCaps.shaderResponse.maxTotalPayloadBytes <
      (buffer ++ streamBytes pipe).length) ∧
    ((drainLoop pipe buffer).1 = false →
      (drainLoop pipe buffer).2 = buffer ++ streamBytes pipe) := by
  induction pipe generalizing buffer with
  | nil => simpa [drainLoop] using h
  | cons chunk pipe ih =>
    simp only [drainLoop]
    split
    next hover =>
      refine ⟨iff_of_true rfl ?_, by simp⟩
      simp only [streamBytes_cons, List.length_append] at hover ⊢
      omega
    next hfits =>
      rw [streamBytes_cons, ← List.append_assoc]
      exact ih (Nat.not_lt.mp hfits)

/-- **Every way of draining the pipe ends the same.** -/
theorem waitAndRead_eq (fromSlice : List UInt8 → Except String Json) (drains : List (List Chunk))
    {buffer : List UInt8} (h : buffer.length ≤ StreamCaps.shaderResponse.maxTotalPayloadBytes) :
    waitAndRead fromSlice drains buffer =
      if StreamCaps.shaderResponse.maxTotalPayloadBytes <
          (buffer ++ streamBytes drains.flatten).length then .protocolError .responseOversize
      else finalize fromSlice (buffer ++ streamBytes drains.flatten) := by
  induction drains generalizing buffer with
  | nil =>
    rw [List.flatten_nil, streamBytes_nil, List.append_nil, if_neg (Nat.not_lt.mpr h), waitAndRead]
  | cons pipe later ih =>
    obtain ⟨hover, hbuffer⟩ := drainLoop_eq pipe h
    have hdrain : drainStdout pipe buffer = drainLoop pipe buffer := if_neg (Nat.not_lt.mpr h)
    have hbytes : buffer ++ streamBytes (pipe :: later).flatten =
        buffer ++ streamBytes pipe ++ streamBytes later.flatten := by
      rw [List.flatten_cons, streamBytes_append, List.append_assoc]
    rw [waitAndRead, hdrain, hbytes]
    dsimp only
    cases hresult : (drainLoop pipe buffer).1 with
    | true =>
      have := hover.mp hresult
      rw [if_pos rfl, if_pos]
      rw [List.length_append]
      omega
    | false =>
      rw [hbuffer hresult]
      refine ih ?_
      by_contra hlt
      rw [hover.mpr (Nat.not_le.mp hlt)] at hresult
      simp at hresult

/-! ## Reassembly -/

theorem readSpirvChunks_chunks (declared : Nat) {chunks : List (List UInt8)}
    (hlens : ∀ chunk ∈ chunks, chunk.length ≤ maxPayloadBytes) (reader : FrameReader)
    (hcount : reader.framesRead + chunks.length ≤ reader.caps.maxFrames)
    (htotal : reader.totalPayloadBytes + chunks.flatten.length ≤
      reader.caps.maxTotalPayloadBytes)
    (h : streamBytes reader.reader = encodeFrames (chunks.map chunkFrame)) (bytes : List UInt8) :
    ∃ after, readSpirvChunks declared chunks.length reader bytes =
        .ok (bytes ++ chunks.flatten, after) ∧ streamBytes after.reader = [] := by
  induction chunks generalizing reader bytes with
  | nil => exact ⟨reader, by simp [readSpirvChunks], h⟩
  | cons chunk chunks ih =>
    obtain ⟨hlen, hlens⟩ := List.forall_mem_cons.mp hlens
    rw [List.length_cons] at hcount
    rw [List.flatten_cons, List.length_append] at htotal
    obtain ⟨hresult, hrest, hread, hbytes, hcaps⟩ := nextFrame_encodeFrame (f := chunkFrame chunk)
      (by simp [chunkFrame]) hlen ⟨by omega, by simp only [chunkFrame]; omega⟩ h
    simp only [chunkFrame] at hbytes
    obtain ⟨after, hafter, hend⟩ := ih hlens reader.nextFrame.2
      (by rw [hread, hcaps]; omega) (by rw [hbytes, hcaps]; omega) hrest (bytes ++ chunk)
    refine ⟨after, ?_, hend⟩
    rw [List.length_cons, readSpirvChunks]
    simp only [hresult, chunkFrame, if_true]
    rw [hafter, List.flatten_cons, List.append_assoc]

/-- The frames that were read. -/
theorem readSpirvChunks_ok {declared left : Nat} {reader after : FrameReader}
    {bytes spirv : List UInt8}
    (h : readSpirvChunks declared left reader bytes = .ok (spirv, after)) :
    ∃ chunks : List (List UInt8), chunks.length = left ∧ spirv = bytes ++ chunks.flatten ∧
      streamBytes reader.reader =
        encodeFrames (chunks.map chunkFrame) ++ streamBytes after.reader := by
  induction left generalizing reader bytes with
  | zero =>
    obtain ⟨rfl, rfl⟩ : bytes = spirv ∧ reader = after := by simpa [readSpirvChunks] using h
    exact ⟨[], rfl, by simp, rfl⟩
  | succ left ih =>
    rw [readSpirvChunks] at h
    dsimp only at h
    split at h
    next frame hresult =>
      split at h
      next hkind =>
        obtain ⟨chunks, hlength, hspirv, hrest⟩ := ih h
        have hframe : frame = chunkFrame frame.payload := by
          rw [chunkFrame, ← hkind]
        refine ⟨frame.payload :: chunks, by rw [List.length_cons, hlength], ?_, ?_⟩
        · rw [hspirv, List.flatten_cons, List.append_assoc]
        · rw [nextFrame_some hresult, hrest, List.map_cons, encodeFrames_cons, ← hframe,
            List.append_assoc]
      next => simp at h
    next => simp at h
    next => simp at h

theorem payloadTotal_le (fs : List Frame) : payloadTotal fs ≤ (encodeFrames fs).length := by
  rw [length_encodeFrames]
  omega

section Finalize

variable {fromSlice : List UInt8 → Except String Json}

theorem validate_okResponse (hback : Json.ReadsBack fromSlice) {chunks total : Nat}
    (hchunks : chunks ≤ maxSpirvChunks) (htotal : total ≤ maxSpirvTotalBytes) :
    validateShaderCompileResponse fromSlice (okResponse chunks total).toBytes =
      .ok (okResponse chunks total) := by
  have hchunks' := hchunks
  have htotal' := htotal
  simp only [maxSpirvChunks, maxSpirvTotalBytes, StreamCaps.shaderResponse] at hchunks' htotal'
  have hplain : Json.Plain 127 (okResponse chunks total) := by
    refine .obj 126 ?_
    simp only [List.forall_mem_cons, List.not_mem_nil, IsEmpty.forall_iff, implies_true, and_true]
    exact ⟨.string _ _, .string _ _, .nat _ (by omega), .nat _ (by omega)⟩
  unfold validateShaderCompileResponse
  rw [hback _ hplain, okResponse_eq]
  simp [Except.mapError, requireStr, responseRequireU64, Json.get, Nat.not_lt.mpr hchunks,
    Nat.not_lt.mpr htotal]

theorem okResponse_fields (chunks total : Nat) :
    ((okResponse chunks total).field "status").bind Json.asStr = some "ok" ∧
      ((okResponse chunks total).field "spirv_chunks").bind Json.asU64 = some chunks ∧
      ((okResponse chunks total).field "spirv_total_bytes").bind Json.asU64 = some total := by
  simp [okResponse_eq, Json.field, Json.get, Json.asStr, Json.asU64]

/-- A stream that begins with a response frame. -/
theorem finalize_response {payload : List UInt8} (rest : List UInt8) {response : Json}
    (hlen : payload.length ≤ maxPayloadBytes)
    (hvalid : validateShaderCompileResponse fromSlice payload = .ok response) :
    ∃ reader, finalize fromSlice (encodeFrame ⟨.shaderCompileResponseV1, payload⟩ ++ rest) =
        classify reader response ∧
      streamBytes reader.reader = rest ∧ reader.framesRead = 1 ∧
      reader.totalPayloadBytes = payload.length ∧ reader.caps = .shaderResponse := by
  have hpayload : payload.length ≤ StreamCaps.shaderResponse.maxTotalPayloadBytes :=
    Nat.le_trans hlen (by decide)
  generalize hbytes : encodeFrame ⟨.shaderCompileResponseV1, payload⟩ ++ rest = bytes
  obtain ⟨hresult, hrest, hread, htotal, hcaps⟩ := nextFrame_encodeFrame
    (r := FrameReader.withCaps (cursor bytes) .shaderResponse)
    (f := ⟨.shaderCompileResponseV1, payload⟩) (by simp) hlen
    ⟨by simp [FrameReader.withCaps, StreamCaps.shaderResponse],
      by simpa [FrameReader.withCaps] using hpayload⟩
    (by rw [FrameReader.withCaps, streamBytes_cursor, hbytes])
  refine ⟨_, ?_, hrest, hread, ?_, hcaps⟩
  · rw [finalize]
    dsimp only
    rw [hresult]
    dsimp only
    rw [if_neg (not_not.mpr rfl), hvalid]
  · rw [htotal]
    exact Nat.zero_add _

theorem finalize_respondOk (hback : Json.ReadsBack fromSlice) {spirv : List UInt8}
    (hwords : spirv.length % 4 = 0) (hlen : spirv.length ≤ maxSpirvTotalBytes)
    (hchunks : (spirvChunks spirv).length ≤ maxSpirvChunks)
    (hraw : (respondOk spirv).length ≤ StreamCaps.shaderResponse.maxTotalPayloadBytes) :
    finalize fromSlice (respondOk spirv) = .compiled (words spirv)
      (okResponse (spirvChunks spirv).length spirv.length) := by
  obtain ⟨hflatten, hlens, -⟩ := spirvChunks_spec spirv
  have hbytes := respondOk_eq hlen
  have hpayload := payloadTotal_le (okFrame spirv :: (spirvChunks spirv).map chunkFrame)
  rw [← hbytes, payloadTotal_cons, payloadTotal_chunks] at hpayload
  obtain ⟨reader, hfinal, hrest, hread, htotal, hcaps⟩ := finalize_response
    (encodeFrames ((spirvChunks spirv).map chunkFrame))
    (Nat.le_trans (length_okFrame_le hlen) (by decide)) (validate_okResponse hback hchunks hlen)
  obtain ⟨after, hafter, hend⟩ := readSpirvChunks_chunks (spirvChunks spirv).length hlens reader
    (by simp only [hread, hcaps, maxSpirvChunks, StreamCaps.shaderResponse] at hchunks ⊢; omega)
    (by rw [htotal, hcaps]; omega) hrest []
  rw [List.nil_append, hflatten] at hafter
  obtain ⟨hstatus, hdeclared, hlength⟩ :=
    okResponse_fields (spirvChunks spirv).length spirv.length
  have hclass : classify reader (okResponse (spirvChunks spirv).length spirv.length) =
      reassembleOk reader (okResponse (spirvChunks spirv).length spirv.length) := by
    rw [classify, hstatus]
    simp
  rw [hbytes, encodeFrames_cons]
  refine (hfinal.trans hclass).trans ?_
  rw [reassembleOk, hdeclared, hlength]
  dsimp only
  rw [hafter]
  dsimp only
  rw [(nextFrame_end hend).1]
  dsimp only
  rw [if_neg (not_not.mpr rfl), if_neg (not_not.mpr hwords)]

theorem length_compileErrorResponse_le (log : List Char) :
    (compileErrorResponse log).toBytes.length ≤ 6 * maxShaderCompileErrorLogBytes + 73 := by
  have hlog := Json.size_quoted_le
    (String.ofList (bounded log maxShaderCompileErrorLogBytes))
  rw [String.toList_ofList] at hlog
  have hbounded : Utf8.size (bounded log maxShaderCompileErrorLogBytes) ≤ _ :=
    Utf8.size_truncate_le maxShaderCompileErrorLogBytes log
  have hwrite : (compileErrorResponse log).write =
      "\x7b\"log\":".toList ++
        (Format.quoted.write (String.ofList (bounded log maxShaderCompileErrorLogBytes)) ++
          ",\"schema\":\"shader-compile-response-v1\",\"status\":\"compile-error\"\x7d".toList) := by
    rw [compileErrorResponse_eq]
    rfl
  have hstart : Utf8.size "\x7b\"log\":".toList = 7 := by decide
  have hend : Utf8.size
      ",\"schema\":\"shader-compile-response-v1\",\"status\":\"compile-error\"\x7d".toList = 64 := by
    decide
  rw [Json.toBytes, Utf8.length_encode, hwrite, Utf8.size_append, Utf8.size_append, hstart, hend]
  omega

theorem validate_compileErrorResponse (hback : Json.ReadsBack fromSlice) (log : List Char) :
    validateShaderCompileResponse fromSlice (compileErrorResponse log).toBytes =
      .ok (compileErrorResponse log) := by
  have hplain : Json.Plain 127 (compileErrorResponse log) := by
    refine .obj 126 ?_
    simp only [List.forall_mem_cons, List.not_mem_nil, IsEmpty.forall_iff, implies_true, and_true]
    exact ⟨.string _ _, .string _ _, .string _ _⟩
  have hbounded : Utf8.size (bounded log maxShaderCompileErrorLogBytes) ≤ _ :=
    Utf8.size_truncate_le maxShaderCompileErrorLogBytes log
  unfold validateShaderCompileResponse
  rw [hback _ hplain, compileErrorResponse_eq]
  simp [Except.mapError, requireStr, Json.get, Nat.not_lt.mpr hbounded]

theorem finalize_respondCompileError (hback : Json.ReadsBack fromSlice) (log : List Char) :
    finalize fromSlice (respondCompileError log) = .compileError
      (boundedDetail (String.ofList (bounded log maxShaderCompileErrorLogBytes))) := by
  have hlen : (compileErrorResponse log).toBytes.length ≤ maxPayloadBytes :=
    Nat.le_trans (length_compileErrorResponse_le log) (by decide)
  obtain ⟨reader, hfinal, -⟩ := finalize_response [] hlen
    (validate_compileErrorResponse hback log)
  have hclass : classify reader (compileErrorResponse log) = .compileError
      (boundedDetail (String.ofList (bounded log maxShaderCompileErrorLogBytes))) := by
    rw [classify, compileErrorResponse_eq]
    simp [Json.field, Json.get, Json.asStr]
  rw [List.append_nil] at hfinal
  rw [respondCompileError, writeBestEffort, writeFrame_known (by simp) hlen]
  exact hfinal.trans hclass

/-- What `reassemble_ok` takes for a compiled shader. -/
theorem reassembleOk_compiled {reader : FrameReader} {response response' : Json}
    {spirv : List UInt32} (h : reassembleOk reader response = .compiled spirv response') :
    response' = response ∧ ∃ chunks : List (List UInt8),
      (response.field "spirv_chunks").bind Json.asU64 = some chunks.length ∧
      (response.field "spirv_total_bytes").bind Json.asU64 = some chunks.flatten.length ∧
      chunks.flatten.length % 4 = 0 ∧ spirv = words chunks.flatten ∧
      streamBytes reader.reader = encodeFrames (chunks.map chunkFrame) := by
  unfold reassembleOk at h
  split at h
  next declared total hdeclared htotal =>
    split at h
    next => simp at h
    next bytes after hread =>
      obtain ⟨chunks, hlength, hbytes, hstream⟩ := readSpirvChunks_ok hread
      rw [List.nil_append] at hbytes
      split at h
      next => simp at h
      next => simp at h
      next hdone =>
        split at h
        next => simp at h
        next hlen =>
          split at h
          next => simp at h
          next hwords =>
            obtain ⟨rfl, rfl⟩ : words bytes = spirv ∧ response = response' := by simpa using h
            rw [nextFrame_none hdone, List.append_nil] at hstream
            rw [hbytes] at hlen hwords ⊢
            refine ⟨rfl, chunks, by rw [hdeclared, hlength], ?_, not_not.mp hwords, rfl, hstream⟩
            rw [htotal, ← not_not.mp hlen]
  next => simp at h

theorem finalize_compiled {bytes : List UInt8} {spirv : List UInt32} {response : Json}
    (h : finalize fromSlice bytes = .compiled spirv response) :
    ∃ (header : List UInt8) (chunks : List (List UInt8)),
      validateShaderCompileResponse fromSlice header = .ok response ∧
      (response.field "status").bind Json.asStr = some "ok" ∧
      (response.field "spirv_chunks").bind Json.asU64 = some chunks.length ∧
      (response.field "spirv_total_bytes").bind Json.asU64 = some chunks.flatten.length ∧
      chunks.flatten.length % 4 = 0 ∧ spirv = words chunks.flatten ∧
      bytes = encodeFrames (⟨.shaderCompileResponseV1, header⟩ :: chunks.map chunkFrame) := by
  unfold finalize at h
  dsimp only at h
  split at h
  next => simp at h
  next => simp at h
  next frame hframe =>
    split at h
    next => simp at h
    next hkind =>
      split at h
      next => simp at h
      next value hvalid =>
        have hstatus : (value.field "status").bind Json.asStr = some "ok" ∧
            reassembleOk (FrameReader.withCaps (cursor bytes) .shaderResponse).nextFrame.2 value =
              .compiled spirv response := by
          unfold classify at h
          split at h
          next => simp at h
          next status hstatus =>
            repeat' split at h
            all_goals first
              | exact ⟨by simp_all, h⟩
              | simp at h
        obtain ⟨hok, hreassemble⟩ := hstatus
        obtain ⟨rfl, chunks, hdeclared, htotal, hwords, hspirv, hstream⟩ :=
          reassembleOk_compiled hreassemble
        refine ⟨frame.payload, chunks, hvalid, hok, hdeclared, htotal, hwords, hspirv, ?_⟩
        have hfirst := nextFrame_some hframe
        rw [FrameReader.withCaps, streamBytes_cursor] at hfirst
        have heq : frame = ⟨.shaderCompileResponseV1, frame.payload⟩ := by
          rw [← not_not.mp hkind]
        rw [encodeFrames_cons, ← heq, ← hstream]
        exact hfirst

end Finalize

/-! ## Both ends -/

theorem length_respondCompileError_le (log : List Char) :
    (respondCompileError log).length ≤ StreamCaps.shaderResponse.maxTotalPayloadBytes := by
  have hpayload := length_compileErrorResponse_le log
  have hlen : (compileErrorResponse log).toBytes.length ≤ maxPayloadBytes :=
    Nat.le_trans hpayload (by decide)
  rw [respondCompileError, writeBestEffort, writeFrame_known (by simp) hlen]
  dsimp only
  rw [length_encodeFrame]
  exact Nat.le_trans (Nat.add_le_add_left hpayload _) (by decide)

/-- **The shader response, both ends.**  SPIR-V within the declared limits
comes through, in every draining, exactly when it has at most `spirvLimit`
bytes.  A compile error always comes through as one.  What the renderer takes
for a compiled shader is one accepted `ok` header and as many chunk frames as
it declares, of the declared total, with nothing after them. -/
theorem response_compiled {fromSlice : List UInt8 → Except String Json}
    (hback : Json.ReadsBack fromSlice) :
    (∀ spirv : List UInt8, spirv.length % 4 = 0 → spirv.length ≤ maxSpirvTotalBytes →
      (spirvChunks spirv).length ≤ maxSpirvChunks →
      ∀ drains : List (List Chunk), streamBytes drains.flatten = respondOk spirv →
        ((∃ response, waitAndRead fromSlice drains [] = .compiled (words spirv) response) ↔
          spirv.length ≤ spirvLimit)) ∧
    (∀ (log : List Char) (drains : List (List Chunk)),
      streamBytes drains.flatten = respondCompileError log →
        ∃ text, waitAndRead fromSlice drains [] = .compileError text) ∧
    (∀ (bytes : List UInt8) (spirv : List UInt32) (response : Json),
      finalize fromSlice bytes = .compiled spirv response →
        ∃ (header : List UInt8) (chunks : List (List UInt8)),
          validateShaderCompileResponse fromSlice header = .ok response ∧
          (response.field "status").bind Json.asStr = some "ok" ∧
          (response.field "spirv_chunks").bind Json.asU64 = some chunks.length ∧
          (response.field "spirv_total_bytes").bind Json.asU64 = some chunks.flatten.length ∧
          chunks.flatten.length % 4 = 0 ∧ spirv = words chunks.flatten ∧
          bytes = encodeFrames (⟨.shaderCompileResponseV1, header⟩ :: chunks.map chunkFrame)) := by
  refine ⟨fun spirv hwords hlen hchunks drains hdrains => ?_, fun log drains hdrains => ?_,
    fun bytes spirv response h => finalize_compiled h⟩
  · rw [waitAndRead_eq fromSlice drains (Nat.zero_le _), List.nil_append, hdrains,
      ← length_respondOk_le hlen]
    by_cases hraw : (respondOk spirv).length ≤ StreamCaps.shaderResponse.maxTotalPayloadBytes
    · rw [if_neg (Nat.not_lt.mpr hraw), finalize_respondOk hback hwords hlen hchunks hraw]
      exact iff_of_true ⟨_, rfl⟩ hraw
    · rw [if_pos (Nat.not_le.mp hraw)]
      exact iff_of_false (by simp) hraw
  · rw [waitAndRead_eq fromSlice drains (Nat.zero_le _), List.nil_append, hdrains,
      if_neg (Nat.not_lt.mpr (length_respondCompileError_le log)),
      finalize_respondCompileError hback]
    exact ⟨_, rfl⟩

/-- One word of SPIR-V, drained in one piece. -/
theorem response_compiled_oneWord :
    ∃ response, waitAndRead Json.readCompact [cursor (respondOk [3, 2, 35, 7])] [] =
      .compiled [119734787] response := by
  refine ((response_compiled Json.readsBack_readCompact).1 [3, 2, 35, 7] rfl ?_ ?_ _ ?_).mpr ?_
  · decide
  · decide
  · simp [streamBytes_cursor]
  · decide

/-- SPIR-V of the largest declared size is refused, however the pipe is
drained. -/
theorem response_oversize :
    let spirv : List UInt8 := List.replicate maxSpirvTotalBytes 0
    spirv.length % 4 = 0 ∧ spirv.length ≤ maxSpirvTotalBytes ∧
      (spirvChunks spirv).length ≤ maxSpirvChunks ∧
      ∀ drains : List (List Chunk), streamBytes drains.flatten = respondOk spirv →
        waitAndRead Json.readCompact drains [] = .protocolError .responseOversize := by
  intro spirv
  have hlength : spirv.length = 8388608 := List.length_replicate
  have hlen : spirv.length ≤ maxSpirvTotalBytes := hlength.le
  refine ⟨by rw [hlength], hlen, ?_, fun drains hdrains => ?_⟩
  · rw [(spirvChunks_spec spirv).2.2, hlength]
    decide
  · rw [waitAndRead_eq _ drains (Nat.zero_le _), List.nil_append, hdrains, if_pos]
    rw [← Nat.not_le, length_respondOk_le hlen, hlength]
    decide

end Kwe.Reports
