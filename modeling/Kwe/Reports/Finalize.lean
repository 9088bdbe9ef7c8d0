import Kwe.Foundation.Lossy
import Kwe.Reports.Inspection

/-!
What the daemon makes of the report of an inspector that has exited.

* `gather_ok_iff`: the frames of a report are read without an error exactly when
  the report is frames within the caps, one after the other;
* `finalize_eq_iff`: every result, with the reports that give it.
-/

namespace Kwe.Reports.Supervise

open Foundation Foundation.Checks

/-! ## The texts of the errors -/

/-- The `Display` of a `FrameError`. -/
def frameErrorText : FrameError → String
  | .badMagic => "frame magic is invalid"
  | .badFlags flags => "frame flags must be 0 in v1, got " ++ toString flags.toNat
  | .badReserved reserved => "frame reserved bytes must be 0, got " ++ toString reserved
  | .payloadOversize len =>
    "frame payload is " ++ toString len ++ " bytes; maximum is " ++ toString maxPayloadBytes
  | .truncatedHeader => "frame header truncated"
  | .truncatedPayload => "frame payload truncated"
  | .frameCountExceeded max => "stream exceeded " ++ toString max ++ " frames"
  | .totalBytesExceeded max => "stream exceeded " ++ toString max ++ " total payload bytes"

/-- The `Display` of a `ValidationError`; its paths have no character that is
escaped. -/
def validationErrorText : ValidationError → String
  | .parse detail => "payload is not valid JSON: " ++ detail
  | .notAnObject => "payload is not a JSON object"
  | .wrongSchema => "\"schema\" does not match \"" ++ sceneInspectionSchema ++ "\""
  | .wrongCapabilitiesSchema =>
    "\"capabilities_schema\" does not match \"" ++ sceneCapabilitiesSchema ++ "\""
  | .missingField path => "missing required field \"" ++ path ++ "\""
  | .wrongType path => "field \"" ++ path ++ "\" has the wrong JSON type"
  | .digestMismatch => "digest does not match the record's own recomputed content hash"

/-- `MAX_DETAIL_BYTES`. -/
def maxDetailBytes : Nat := 256

def boundedDetail (text : String) : String := truncateBytes text maxDetailBytes

/-! ## The results -/

/-- What one inspection returns. -/
inductive Inspection
  | unavailable
  | oversize
  | timeout
  | failed (tail : List UInt8)
  | malformed (detail : String) (tail : List UInt8)
  | missing (tail : List UInt8)
  | duplicate
  | record (value : Json)

def lossy (bytes : List UInt8) : Json := .string (String.ofList (Utf8.decodeLossy bytes))

/-- A result without a record. -/
def outcomeUnknown (reason : String) (more : Json.Fields) : Json :=
  Json.obj ([("outcome", .string "unknown"), ("reason", .string reason)] ++ more)

/-- The JSON of the reply. -/
def Inspection.toJson : Inspection → Json
  | .unavailable => outcomeUnknown "inspector-unavailable" []
  | .oversize => outcomeUnknown "report-oversize" []
  | .timeout => outcomeUnknown "timeout" []
  | .failed tail => outcomeUnknown "inspector-failed" [("stderr_tail", lossy tail)]
  | .malformed detail tail =>
    outcomeUnknown "report-malformed" [("detail", .string detail), ("stderr_tail", lossy tail)]
  | .missing tail => outcomeUnknown "report-missing" [("stderr_tail", lossy tail)]
  | .duplicate => outcomeUnknown "report-duplicate" []
  | .record value => value

/-- The loop of `finalize`: the payloads of the inspection frames up to the end
of the stream. -/
def gather (r : FrameReader) (payloads : List (List UInt8)) :
    Except FrameError (List (List UInt8)) :=
  match _h : r.nextFrame.1 with
  | .ok (some frame) =>
    gather r.nextFrame.2
      (if frame.kind = .sceneInspectionV1 then payloads ++ [frame.payload] else payloads)
  | .ok none => .ok payloads
  | .error e => .error e
termination_by (streamBytes r.reader).length
decreasing_by
  -- A frame takes its header at the least.
  rw [nextFrame_some _h, List.length_append, length_encodeFrame, headerBytes]
  omega

/-- The inspection payloads of a report, as `finalize` reads it. -/
def readInspections (report : List UInt8) : Except FrameError (List (List UInt8)) :=
  gather (FrameReader.withCaps (cursor report) .report) []

section

variable (fromSlice : List UInt8 → Except String Json) (sha256 : List UInt8 → List UInt8)

def finalize (success : Bool) (report tail : List UInt8) : Inspection :=
  if success = false then .failed tail
  else match readInspections report with
  | .error e => .malformed (boundedDetail (frameErrorText e)) tail
  | .ok [] => .missing tail
  | .ok [payload] =>
    match validateInspection fromSlice sha256 payload with
    | .ok value => .record value
    | .error e => .malformed (boundedDetail (validationErrorText e)) tail
  | .ok (_ :: _ :: _) => .duplicate

end

/-! ## What is read without an error -/

/-- A frame that can stand in a stream, of a known kind or not. -/
def Canonical (f : Frame) : Prop :=
  FrameKind.fromU8 f.kind.asU8 = f.kind ∧ f.payload.length ≤ maxPayloadBytes

/-- The payloads of the inspection frames. -/
def inspections (fs : List Frame) : List (List UInt8) :=
  (fs.filter (·.kind = .sceneInspectionV1)).map (·.payload)

/-- Frames within the caps, one after the other and nothing else. -/
structure FramesOf (report : List UInt8) (fs : List Frame) : Prop where
  bytes : report = encodeFrames fs
  canonical : ∀ f ∈ fs, Canonical f
  count : fs.length ≤ StreamCaps.report.maxFrames
  total : payloadTotal fs ≤ StreamCaps.report.maxTotalPayloadBytes

theorem decodeFrame_canonical {caps : StreamCaps} {framesRead total : Nat} {bytes : List UInt8}
    {f : Frame} {rest : List UInt8}
    (h : decodeFrame caps framesRead total bytes = .ok (some (f, rest))) : Canonical f := by
  unfold decodeFrame at h
  split at h
  next => simp at h
  next =>
    obtain ⟨hshort, h⟩ := check_ok h
    obtain ⟨len, hcheck, h⟩ := bind_ok h
    obtain ⟨-, h⟩ := check_ok h
    obtain ⟨-, h⟩ := check_ok h
    obtain ⟨hend, h⟩ := check_ok h
    obtain ⟨rfl, -⟩ : _ = f ∧ _ = rest := by simpa using h
    obtain ⟨-, hlen⟩ := checkHeader_ok (by rw [List.length_take]; omega) hcheck
    refine ⟨by simp, ?_⟩
    dsimp only
    rwa [Bytes.length_slice (by omega)]

@[simp] theorem inspections_nil : inspections [] = [] := rfl

theorem inspections_cons (f : Frame) (fs : List Frame) :
    inspections (f :: fs) =
      (if f.kind = .sceneInspectionV1 then [f.payload] else []) ++ inspections fs := by
  unfold inspections
  by_cases hkind : f.kind = .sceneInspectionV1
  · simp [hkind]
  · simp [hkind]

theorem gather_some {r : FrameReader} {f : Frame} (h : r.nextFrame.1 = .ok (some f))
    (payloads : List (List UInt8)) :
    gather r payloads = gather r.nextFrame.2 (payloads ++ inspections [f]) := by
  rw [gather]
  split
  next frame hframe =>
    obtain rfl : frame = f := by simpa [h] using hframe.symm
    rw [inspections_cons]
    congr 1
    split
    next => simp
    next => simp
  next hnone => simp [h] at hnone
  next e he => simp [h] at he

theorem gather_none {r : FrameReader} (h : r.nextFrame.1 = .ok none)
    (payloads : List (List UInt8)) : gather r payloads = .ok payloads := by
  rw [gather]
  split
  next frame hframe => simp [h] at hframe
  next => rfl
  next e he => simp [h] at he

theorem gather_error {r : FrameReader} {e : FrameError} (h : r.nextFrame.1 = .error e)
    (payloads : List (List UInt8)) : gather r payloads = .error e := by
  rw [gather]
  split
  next frame hframe => simp [h] at hframe
  next hnone => simp [h] at hnone
  next e' he => simpa [h] using he.symm

/-- A frame that is returned is there, canonical, and counted against the caps. -/
theorem nextFrame_counted {r : FrameReader} {f : Frame} (h : r.nextFrame.1 = .ok (some f)) :
    Canonical f ∧ r.caps.Admits r.framesRead r.totalPayloadBytes f ∧
      streamBytes r.reader = encodeFrame f ++ streamBytes r.nextFrame.2.reader ∧
      r.nextFrame.2.framesRead = r.framesRead + 1 ∧
      r.nextFrame.2.totalPayloadBytes = r.totalPayloadBytes + f.payload.length ∧
      r.nextFrame.2.caps = r.caps := by
  obtain ⟨hresult, hcaps, hanswers⟩ := nextFrame_eq r
  rw [h] at hresult
  cases hdecode : decodeFrame r.caps r.framesRead r.totalPayloadBytes (streamBytes r.reader) with
  | error e =>
    rw [hdecode] at hresult
    simp [Except.map] at hresult
  | ok next =>
    rw [hdecode] at hresult hanswers
    cases next with
    | none => simp [Except.map] at hresult
    | some found =>
      obtain ⟨f', rest⟩ := found
      obtain rfl : f = f' := by simpa [Except.map] using hresult
      obtain ⟨-, hread, htotal⟩ := hanswers
      exact ⟨decodeFrame_canonical hdecode, (decodeFrame_ok hdecode).2, nextFrame_some h, hread,
        htotal, hcaps⟩

/-- A canonical frame that the caps admit is returned. -/
theorem nextFrame_front {r : FrameReader} {f : Frame} (hf : Canonical f)
    (hcaps : r.caps.Admits r.framesRead r.totalPayloadBytes f) {rest : List UInt8}
    (h : streamBytes r.reader = encodeFrame f ++ rest) : r.nextFrame.1 = .ok (some f) := by
  obtain ⟨hresult, -, -⟩ := nextFrame_eq r
  rw [h, decodeFrame_front hf.1 hf.2 hcaps] at hresult
  exact hresult

/-- What a reader has room for: canonical frames that its caps still admit. -/
structure Takes (r : FrameReader) (fs : List Frame) : Prop where
  bytes : streamBytes r.reader = encodeFrames fs
  canonical : ∀ f ∈ fs, Canonical f
  count : r.framesRead + fs.length ≤ r.caps.maxFrames
  total : r.totalPayloadBytes + payloadTotal fs ≤ r.caps.maxTotalPayloadBytes

/-- Within the caps nothing is refused. -/
theorem gather_takes {r : FrameReader} {fs : List Frame} (h : Takes r fs)
    (payloads : List (List UInt8)) : gather r payloads = .ok (payloads ++ inspections fs) := by
  induction fs generalizing r payloads with
  | nil => simpa using gather_none (nextFrame_end h.bytes).1 payloads
  | cons f fs ih =>
    obtain ⟨hf, hfs⟩ := List.forall_mem_cons.mp h.canonical
    have hcount := h.count
    have htotal := h.total
    have hbytes := h.bytes
    rw [List.length_cons] at hcount
    rw [payloadTotal_cons] at htotal
    rw [encodeFrames_cons] at hbytes
    have hfront := nextFrame_front hf ⟨by omega, by omega⟩ hbytes
    obtain ⟨-, -, hrest, hread, hpayloads, hcaps⟩ := nextFrame_counted hfront
    have hnext : Takes r.nextFrame.2 fs :=
      { bytes := List.append_cancel_left (hrest.symm.trans hbytes)
        canonical := hfs
        count := by rw [hread, hcaps]; omega
        total := by rw [hpayloads, hcaps]; omega }
    rw [gather_some hfront, ih hnext, List.append_assoc, inspections_cons f fs,
      inspections_cons f []]
    simp

/-- **What is gathered** of a stream to its end was frames within the caps. -/
theorem takes_of_gather {r : FrameReader} {payloads gathered : List (List UInt8)}
    (hcount : r.framesRead ≤ r.caps.maxFrames)
    (htotal : r.totalPayloadBytes ≤ r.caps.maxTotalPayloadBytes)
    (h : gather r payloads = .ok gathered) :
    ∃ fs, Takes r fs ∧ gathered = payloads ++ inspections fs := by
  induction hn : (streamBytes r.reader).length using Nat.strong_induction_on
    generalizing r payloads with
  | _ n ih =>
    cases hnext : r.nextFrame.1 with
    | error e => simp [gather_error hnext] at h
    | ok next =>
      cases next with
      | none =>
        rw [gather_none hnext] at h
        refine ⟨[], ⟨nextFrame_none hnext, by simp, hcount, htotal⟩, ?_⟩
        simpa using h.symm
      | some f =>
        obtain ⟨hf, ⟨hroom, hbudget⟩, hbytes, hread, hpayloads, hcaps⟩ := nextFrame_counted hnext
        rw [gather_some hnext] at h
        have hshorter : (streamBytes r.nextFrame.2.reader).length < n := by
          rw [← hn, hbytes, List.length_append, length_encodeFrame, headerBytes]
          omega
        obtain ⟨fs, hfs, rfl⟩ := ih _ hshorter (by rw [hread, hcaps]; omega)
          (by rw [hpayloads, hcaps]; omega) h rfl
        have hcount' := hfs.count
        have htotal' := hfs.total
        rw [hread, hcaps] at hcount'
        rw [hpayloads, hcaps] at htotal'
        refine ⟨f :: fs, ⟨?_, List.forall_mem_cons.mpr ⟨hf, hfs.canonical⟩, ?_, ?_⟩, ?_⟩
        · rw [hbytes, hfs.bytes, encodeFrames_cons]
        · rw [List.length_cons]
          omega
        · rw [payloadTotal_cons]
          omega
        · rw [inspections_cons f fs, inspections_cons f []]
          simp

/-- The inspections of a report are read when it is frames within the caps, and
then they are the payloads of these frames. -/
theorem readInspections_ok_iff {report : List UInt8} {payloads : List (List UInt8)} :
    readInspections report = .ok payloads ↔
      ∃ fs, FramesOf report fs ∧ payloads = inspections fs := by
  constructor
  · intro h
    obtain ⟨fs, hfs, hgathered⟩ := takes_of_gather (Nat.zero_le _) (Nat.zero_le _) h
    have hbytes := hfs.bytes
    have hcount := hfs.count
    have htotal := hfs.total
    simp only [FrameReader.withCaps, streamBytes_cursor, Nat.zero_add] at hbytes hcount htotal
    exact ⟨fs, ⟨hbytes, hfs.canonical, hcount, htotal⟩, by simpa using hgathered⟩
  · rintro ⟨fs, hfs, rfl⟩
    have htakes : Takes (FrameReader.withCaps (cursor report) .report) fs :=
      { bytes := by simpa [FrameReader.withCaps, streamBytes_cursor] using hfs.bytes
        canonical := hfs.canonical
        count := by simpa [FrameReader.withCaps] using hfs.count
        total := by simpa [FrameReader.withCaps] using hfs.total }
    rw [readInspections]
    simpa using gather_takes htakes []

/-- The frames of a report decide what is read of it. -/
theorem readInspections_framesOf {report : List UInt8} {fs : List Frame}
    (h : FramesOf report fs) : readInspections report = .ok (inspections fs) :=
  readInspections_ok_iff.mpr ⟨fs, h, rfl⟩

/-- A report that is not frames within the caps. -/
theorem not_framesOf {report : List UInt8} {e : FrameError} (h : readInspections report = .error e)
    (fs : List Frame) : ¬ FramesOf report fs := by
  intro hfs
  simp [readInspections_framesOf hfs] at h

/-! ## The results -/

section

variable (fromSlice : List UInt8 → Except String Json) (sha256 : List UInt8 → List UInt8)

/-- The reports and the exits that give a result. -/
def Settles (success : Bool) (report tail : List UInt8) : Inspection → Prop
  | .failed shown => success = false ∧ shown = tail
  | .record value => success = true ∧ ∃ fs payload, FramesOf report fs ∧
      inspections fs = [payload] ∧ validateInspection fromSlice sha256 payload = .ok value
  | .missing shown => success = true ∧ shown = tail ∧ ∃ fs, FramesOf report fs ∧
      inspections fs = []
  | .duplicate => success = true ∧ ∃ fs, FramesOf report fs ∧ 1 < (inspections fs).length
  | .malformed detail shown => success = true ∧ shown = tail ∧
      ((∃ e, readInspections report = .error e ∧ (∀ fs, ¬ FramesOf report fs) ∧
          detail = boundedDetail (frameErrorText e)) ∨
        ∃ fs payload e, FramesOf report fs ∧ inspections fs = [payload] ∧
          validateInspection fromSlice sha256 payload = .error e ∧
          detail = boundedDetail (validationErrorText e))
  | .unavailable | .oversize | .timeout => False

theorem finalize_settles (success : Bool) (report tail : List UInt8) :
    Settles fromSlice sha256 success report tail
      (finalize fromSlice sha256 success report tail) := by
  unfold finalize
  split
  next hfailed => exact ⟨hfailed, rfl⟩
  next hsuccess =>
    have hsuccess : success = true := by simpa using hsuccess
    split
    next e he => exact ⟨hsuccess, rfl, .inl ⟨e, he, not_framesOf he, rfl⟩⟩
    next hnone =>
      obtain ⟨fs, hfs, hnil⟩ := readInspections_ok_iff.mp hnone
      exact ⟨hsuccess, rfl, fs, hfs, hnil.symm⟩
    next payload hone =>
      obtain ⟨fs, hfs, hsingle⟩ := readInspections_ok_iff.mp hone
      split
      next value hvalue => exact ⟨hsuccess, fs, payload, hfs, hsingle.symm, hvalue⟩
      next e he => exact ⟨hsuccess, rfl, .inr ⟨fs, payload, e, hfs, hsingle.symm, he, rfl⟩⟩
    next first second more hmore =>
      obtain ⟨fs, hfs, hlist⟩ := readInspections_ok_iff.mp hmore
      refine ⟨hsuccess, fs, hfs, ?_⟩
      rw [← hlist]
      simp

theorem finalize_of_settles {success : Bool} {report tail : List UInt8} {v : Inspection}
    (h : Settles fromSlice sha256 success report tail v) :
    finalize fromSlice sha256 success report tail = v := by
  cases v with
  | unavailable => exact h.elim
  | oversize => exact h.elim
  | timeout => exact h.elim
  | failed shown =>
    obtain ⟨rfl, rfl⟩ := h
    rfl
  | record value =>
    obtain ⟨rfl, fs, payload, hfs, hsingle, hvalue⟩ := h
    simp [finalize, readInspections_framesOf hfs, hsingle, hvalue]
  | missing shown =>
    obtain ⟨rfl, rfl, fs, hfs, hnil⟩ := h
    simp [finalize, readInspections_framesOf hfs, hnil]
  | duplicate =>
    obtain ⟨rfl, fs, hfs, hmany⟩ := h
    match hlist : inspections fs, hmany with
    | first :: second :: more, _ => simp [finalize, readInspections_framesOf hfs, hlist]
  | malformed detail shown =>
    obtain ⟨rfl, rfl, ⟨e, he, -, rfl⟩ | ⟨fs, payload, e, hfs, hsingle, he, rfl⟩⟩ := h
    · simp [finalize, he]
    · simp [finalize, readInspections_framesOf hfs, hsingle, he]

theorem finalize_eq_iff {success : Bool} {report tail : List UInt8} {v : Inspection} :
    finalize fromSlice sha256 success report tail = v ↔
      Settles fromSlice sha256 success report tail v := by
  constructor
  · rintro rfl
    exact finalize_settles fromSlice sha256 success report tail
  · exact finalize_of_settles fromSlice sha256

end

end Kwe.Reports.Supervise
