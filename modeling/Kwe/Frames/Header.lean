import Kwe.Foundation.Bytes
import Kwe.Foundation.Checks

/-!
The shared frame file: a 64-byte header, then two slots of pixels.

* `header_bounds`: what `initialize_header` writes `validate_header` reads
  back; a header it accepts keeps both slots inside the mapping; and neither
  `snapshot` nor `publish` ever leaves the mapping, whatever another process
  writes to it in between.

A function that looks at the mapping more than once takes `views`: the `k`-th
look sees `views k`.  A mapping nobody else writes to is a constant view.
-/

namespace Kwe.Frames

open Foundation.Bytes Foundation.Checks

/-! ## The format -/

/-- `MAGIC`, `b"KWEFRM1\0"`. -/
def magic : List UInt8 := [0x4b, 0x57, 0x45, 0x46, 0x52, 0x4d, 0x31, 0x00]

/-- `VERSION`. -/
def version : Nat := 1

/-- `HEADER_BYTES`. -/
def headerBytes : Nat := 64

/-- `SLOT_COUNT`. -/
def slotCount : Nat := 2

/-- `BYTES_PER_PIXEL`. -/
def bytesPerPixel : Nat := 4

/-- `PIXEL_FORMAT_BGRA8888_PREMULTIPLIED`. -/
def pixelFormat : Nat := 1

/-- `MAX_DIMENSION`. -/
def maxDimension : Nat := 8192

/-- `MAX_MAPPING_BYTES`. -/
def maxMappingBytes : Nat := 512 * 1024 * 1024

/-- `MAX_SNAPSHOT_ATTEMPTS`. -/
def maxSnapshotAttempts : Nat := 8

def offsetVersion : Nat := 8
def offsetHeaderBytes : Nat := 12
def offsetFileBytes : Nat := 16
def offsetWidth : Nat := 24
def offsetHeight : Nat := 28
def offsetStride : Nat := 32
def offsetPixelFormat : Nat := 36
def offsetSlotCount : Nat := 40
def offsetGeneration : Nat := 48
def offsetActiveSlot : Nat := 56
def offsetProducerState : Nat := 60

inductive ProducerState
  | starting | running | stopping | failed
  deriving DecidableEq, Repr

def ProducerState.raw : ProducerState → Nat
  | .starting => 1
  | .running => 2
  | .stopping => 3
  | .failed => 4

def ProducerState.fromRaw : Nat → Option ProducerState
  | 1 => some .starting
  | 2 => some .running
  | 3 => some .stopping
  | 4 => some .failed
  | _ => none

inductive ProtocolError
  | invalidDimensions (width height : Nat)
  | sizeOverflow
  | mappingTooLarge (bytes : Nat)
  | truncatedHeader
  | invalidMagic
  | unsupportedVersion (version : Nat)
  | invalidHeader (detail : String)
  | busy
  | pixelLength (actual expected : Nat)
  deriving DecidableEq, Repr

structure FrameSpec where
  width : Nat
  height : Nat
  stride : Nat
  slotBytes : Nat
  fileBytes : Nat
  deriving DecidableEq, Repr

/-- `checked_mul` at `bits` bits. -/
def checkedMul (bits a b : Nat) : Except ProtocolError Nat :=
  if a * b < 2 ^ bits then .ok (a * b) else .error .sizeOverflow

/-- `checked_add` at `bits` bits. -/
def checkedAdd (bits a b : Nat) : Except ProtocolError Nat :=
  if a + b < 2 ^ bits then .ok (a + b) else .error .sizeOverflow

def FrameSpec.new (width height : Nat) : Except ProtocolError FrameSpec := do
  if width = 0 ∨ height = 0 ∨ maxDimension < width ∨ maxDimension < height then
    .error (.invalidDimensions width height)
  else
    let stride ← checkedMul 32 width bytesPerPixel
    let slotBytes ← checkedMul 64 stride height
    let slots ← checkedMul 64 slotBytes slotCount
    let fileBytes ← checkedAdd 64 headerBytes slots
    if maxMappingBytes < fileBytes then .error (.mappingTooLarge fileBytes)
    else .ok ⟨width, height, stride, slotBytes, fileBytes⟩

/-- `pixel_bytes`: `slot_bytes as usize`. -/
def FrameSpec.pixelBytes (spec : FrameSpec) : Nat := spec.slotBytes % 2 ^ 64

def readU32 (m : List UInt8) (offset : Nat) : Nat := fromLe (slice m offset 4)

def readU64 (m : List UInt8) (offset : Nat) : Nat := fromLe (slice m offset 8)

/-- The fields `initialize_header` writes, in its order. -/
def headerFields (spec : FrameSpec) : List (Nat × List UInt8) :=
  [(0, magic),
   (offsetVersion, toLe 4 version),
   (offsetHeaderBytes, toLe 4 headerBytes),
   (offsetFileBytes, toLe 8 spec.fileBytes),
   (offsetWidth, toLe 4 spec.width),
   (offsetHeight, toLe 4 spec.height),
   (offsetStride, toLe 4 spec.stride),
   (offsetPixelFormat, toLe 4 pixelFormat),
   (offsetSlotCount, toLe 4 slotCount),
   (offsetGeneration, toLe 8 0),
   (offsetActiveSlot, toLe 4 0),
   (offsetProducerState, toLe 4 ProducerState.starting.raw)]

def initializeHeader (m : List UInt8) (spec : FrameSpec) : List UInt8 :=
  patchAll (List.replicate m.length 0) (headerFields spec)

/-- `validate_header` on a mapping of `len` bytes. -/
def validateHeader (len : Nat) (views : Nat → List UInt8) : Except ProtocolError FrameSpec := do
  if len < headerBytes then .error .truncatedHeader
  else if slice (views 0) 0 8 ≠ magic then .error .invalidMagic
  else if readU32 (views 1) offsetVersion ≠ version then
    .error (.unsupportedVersion (readU32 (views 1) offsetVersion))
  else if readU32 (views 2) offsetHeaderBytes ≠ headerBytes then
    .error (.invalidHeader "header size")
  else if readU32 (views 3) offsetPixelFormat ≠ pixelFormat then
    .error (.invalidHeader "pixel format")
  else if readU32 (views 4) offsetSlotCount ≠ slotCount then
    .error (.invalidHeader "slot count")
  else
    let spec ← FrameSpec.new (readU32 (views 5) offsetWidth) (readU32 (views 6) offsetHeight)
    if readU32 (views 7) offsetStride ≠ spec.stride then .error (.invalidHeader "stride")
    else if readU64 (views 8) offsetFileBytes ≠ spec.fileBytes ∨ len ≠ spec.fileBytes then
      .error (.invalidHeader "file size")
    else .ok spec

def slotOffset (spec : FrameSpec) (slot : Nat) : Except ProtocolError Nat := do
  if slotCount ≤ slot then .error (.invalidHeader "active slot")
  else
    let start ← checkedMul 64 spec.slotBytes slot
    checkedAdd 64 headerBytes start

/-! ## The operations -/

structure FrameSnapshot where
  spec : FrameSpec
  sequence : Nat
  producerState : ProducerState
  pixels : List UInt8
  deriving DecidableEq, Repr

/-- What one attempt of `snapshot` comes to. -/
inductive Attempt
  | retry
  | answer (result : Except ProtocolError FrameSnapshot)
  /-- The slot to copy is not inside the mapping. -/
  | outside

/-- The bytes of a copy that sees another view at each byte. -/
def copyBytes (views : Nat → List UInt8) (offset count : Nat) : List UInt8 :=
  (List.range count).map fun i => (views i).getD (offset + i) 0

/-- One turn of the loop in `snapshot`. -/
def attempt (len : Nat) (views : Nat → List UInt8) : Attempt :=
  let before := readU64 (views 0) offsetGeneration
  if before % 2 ≠ 0 then .retry
  else match validateHeader len fun k => views (1 + k) with
  | .error e => .answer (.error e)
  | .ok spec =>
    let slot := readU32 (views 10) offsetActiveSlot
    match ProducerState.fromRaw (readU32 (views 11) offsetProducerState) with
    | none => .answer (.error (.invalidHeader "unknown producer state"))
    | some state =>
      match slotOffset spec slot with
      | .error e => .answer (.error e)
      | .ok offset =>
        if len < offset + spec.pixelBytes then .outside
        else
          let pixels := copyBytes (fun k => views (12 + k)) offset spec.pixelBytes
          let after := readU64 (views (12 + spec.pixelBytes)) offsetGeneration
          if before = after ∧ after % 2 = 0 then .answer (.ok ⟨spec, after / 2, state, pixels⟩)
          else .retry

/-- The turns of the loop that are left; `views n` is what turn `n` sees. -/
def snapshotLoop (len : Nat) (views : Nat → Nat → List UInt8) : Nat → Attempt
  | 0 => .answer (.error .busy)
  | turns + 1 =>
    match attempt len (views turns) with
    | .retry => snapshotLoop len views turns
    | done => done

def snapshot (len : Nat) (views : Nat → Nat → List UInt8) : Attempt :=
  snapshotLoop len views maxSnapshotAttempts

/-- The odd generation `publish` stores first. -/
def oddGeneration (starting : Nat) : Nat :=
  if starting % 2 = 0 then (starting + 1) % 2 ^ 64 else (starting + 2) % 2 ^ 64

/-- The slot `publish` writes to, with `current + 1` at 32 bits. -/
def nextSlot (current : Nat) : Nat := (current + 1) % 2 ^ 32 % slotCount

/-- The reply of `publish`: the sequence of the frame, or `none` when the slot
is not inside the mapping. -/
def publish (spec : FrameSpec) (len : Nat) (pixels : List UInt8) (views : Nat → List UInt8) :
    Option (Except ProtocolError Nat) :=
  if pixels.length ≠ spec.pixelBytes then
    some (.error (.pixelLength pixels.length spec.pixelBytes))
  else
    let odd := oddGeneration (readU64 (views 0) offsetGeneration)
    match slotOffset spec (nextSlot (readU32 (views 1) offsetActiveSlot)) with
    | .error e => some (.error e)
    | .ok offset =>
      if len < offset + pixels.length then none else some (.ok ((odd + 1) % 2 ^ 64 / 2))

/-! ## What the constructor accepts -/

/-- What `FrameSpec::new` guarantees. -/
structure FrameSpec.Valid (spec : FrameSpec) : Prop where
  width_pos : 0 < spec.width
  width_le : spec.width ≤ maxDimension
  height_pos : 0 < spec.height
  height_le : spec.height ≤ maxDimension
  stride_eq : spec.stride = spec.width * bytesPerPixel
  slotBytes_eq : spec.slotBytes = spec.stride * spec.height
  fileBytes_eq : spec.fileBytes = headerBytes + spec.slotBytes * slotCount
  fileBytes_le : spec.fileBytes ≤ maxMappingBytes

theorem checkedMul_ok {bits a b c : Nat} (h : checkedMul bits a b = .ok c) :
    c = a * b ∧ a * b < 2 ^ bits := by
  unfold checkedMul at h
  split at h
  next hlt => exact ⟨by simpa using h.symm, hlt⟩
  next => simp at h

theorem checkedAdd_ok {bits a b c : Nat} (h : checkedAdd bits a b = .ok c) :
    c = a + b ∧ a + b < 2 ^ bits := by
  unfold checkedAdd at h
  split at h
  next hlt => exact ⟨by simpa using h.symm, hlt⟩
  next => simp at h

theorem checkedMul_eq {bits a b : Nat} (h : a * b < 2 ^ bits) :
    checkedMul bits a b = .ok (a * b) := if_pos h

theorem checkedAdd_eq {bits a b : Nat} (h : a + b < 2 ^ bits) :
    checkedAdd bits a b = .ok (a + b) := if_pos h

theorem new_ok {width height : Nat} {spec : FrameSpec}
    (h : FrameSpec.new width height = .ok spec) :
    spec.width = width ∧ spec.height = height ∧ spec.Valid := by
  unfold FrameSpec.new at h
  obtain ⟨hdims, h⟩ := check_ok h
  obtain ⟨stride, hstride, h⟩ := bind_ok h
  obtain ⟨slotBytes, hslot, h⟩ := bind_ok h
  obtain ⟨slots, hslots, h⟩ := bind_ok h
  obtain ⟨fileBytes, hfile, h⟩ := bind_ok h
  obtain ⟨hmax, h⟩ := check_ok h
  obtain rfl : _ = spec := by simpa using h
  simp only [not_or, Nat.not_lt] at hdims
  refine ⟨rfl, rfl, ?_⟩
  constructor
  · exact Nat.pos_of_ne_zero hdims.1
  · exact hdims.2.2.1
  · exact Nat.pos_of_ne_zero hdims.2.1
  · exact hdims.2.2.2
  · exact (checkedMul_ok hstride).1
  · exact (checkedMul_ok hslot).1
  · rw [(checkedAdd_ok hfile).1, (checkedMul_ok hslots).1]
  · exact Nat.not_lt.mp hmax

/-- The sizes of a valid spec, as numbers. -/
theorem FrameSpec.Valid.sizes {spec : FrameSpec} (h : spec.Valid) :
    spec.stride ≤ 32768 ∧ spec.slotBytes ≤ 268435424 ∧ spec.fileBytes ≤ 536870912 := by
  have hwidth := h.width_le
  have hstride := h.stride_eq
  have hfile := h.fileBytes_eq
  have hmax := h.fileBytes_le
  simp only [maxDimension, bytesPerPixel, headerBytes, slotCount, maxMappingBytes] at *
  omega

/-- The constructor rebuilds a valid spec from its dimensions. -/
theorem FrameSpec.Valid.new_eq {spec : FrameSpec} (h : spec.Valid) :
    FrameSpec.new spec.width spec.height = .ok spec := by
  obtain ⟨hstride, hslot, hfile⟩ := h.sizes
  have hdims : ¬ (spec.width = 0 ∨ spec.height = 0 ∨ maxDimension < spec.width ∨
      maxDimension < spec.height) := by
    have := h.width_pos
    have := h.height_pos
    have := h.width_le
    have := h.height_le
    omega
  unfold FrameSpec.new
  rw [if_neg hdims, checkedMul_eq (by rw [← h.stride_eq]; omega), ← h.stride_eq]
  rw [ok_bind, checkedMul_eq (by rw [← h.slotBytes_eq]; omega), ← h.slotBytes_eq]
  rw [ok_bind, checkedMul_eq (by simp only [slotCount]; omega)]
  rw [ok_bind, checkedAdd_eq (by rw [← h.fileBytes_eq]; omega), ← h.fileBytes_eq]
  rw [ok_bind, if_neg (by have := h.fileBytes_le; omega)]

/-! ## The slots lie inside the mapping -/

/-- What the code relies on when it indexes a mapping of `len` bytes: every slot
lies inside it, and no size or offset passes its integer type. -/
structure FrameSpec.Fits (spec : FrameSpec) (len : Nat) : Prop where
  stride_lt : spec.width * bytesPerPixel < 2 ^ 32
  slotBytes_lt : spec.stride * spec.height < 2 ^ 64
  fileBytes_lt : headerBytes + spec.slotBytes * slotCount < 2 ^ 64
  pixelBytes_eq : spec.pixelBytes = spec.slotBytes
  slot : ∀ slot < slotCount, slotOffset spec slot = .ok (headerBytes + spec.slotBytes * slot) ∧
    headerBytes + spec.slotBytes * slot + spec.slotBytes < 2 ^ 64 ∧
    headerBytes + spec.slotBytes * slot + spec.slotBytes ≤ len

theorem FrameSpec.Valid.fits {spec : FrameSpec} (h : spec.Valid) : spec.Fits spec.fileBytes := by
  obtain ⟨hstride, hslot, hfile⟩ := h.sizes
  have hfileEq := h.fileBytes_eq
  constructor
  · rw [← h.stride_eq]
    omega
  · rw [← h.slotBytes_eq]
    omega
  · rw [← hfileEq]
    omega
  · exact Nat.mod_eq_of_lt (by omega)
  · intro slot hlt
    simp only [slotCount, headerBytes] at hlt hfileEq ⊢
    have hle : spec.slotBytes * slot ≤ spec.slotBytes := by
      calc spec.slotBytes * slot ≤ spec.slotBytes * 1 := Nat.mul_le_mul_left _ (by omega)
        _ = spec.slotBytes := Nat.mul_one _
    have hend : spec.slotBytes * slot + spec.slotBytes ≤ spec.slotBytes * 2 := by omega
    refine ⟨?_, by omega, by omega⟩
    unfold slotOffset
    rw [if_neg (by simp only [slotCount]; omega), checkedMul_eq (by omega)]
    exact checkedAdd_eq (by simp only [headerBytes]; omega)

theorem slotOffset_ok {spec : FrameSpec} {slot offset : Nat}
    (h : slotOffset spec slot = .ok offset) : slot < slotCount := by
  unfold slotOffset at h
  split at h
  next => simp at h
  next hlt => omega

theorem nextSlot_lt (current : Nat) : nextSlot current < slotCount :=
  Nat.mod_lt _ (by decide)

/-- **What `validate_header` accepts fits the mapping.** -/
theorem validateHeader_ok {len : Nat} {views : Nat → List UInt8} {spec : FrameSpec}
    (h : validateHeader len views = .ok spec) : spec.Valid ∧ len = spec.fileBytes := by
  unfold validateHeader at h
  obtain ⟨-, h⟩ := check_ok h
  obtain ⟨-, h⟩ := check_ok h
  obtain ⟨-, h⟩ := check_ok h
  obtain ⟨-, h⟩ := check_ok h
  obtain ⟨-, h⟩ := check_ok h
  obtain ⟨-, h⟩ := check_ok h
  obtain ⟨spec', hnew, h⟩ := bind_ok h
  obtain ⟨-, h⟩ := check_ok h
  obtain ⟨hsize, h⟩ := check_ok h
  obtain rfl : spec' = spec := by simpa using h
  exact ⟨(new_ok hnew).2.2, by simpa using (not_or.mp hsize).2⟩

/-! ## The header reads back -/

theorem headerFields_fit (spec : FrameSpec) {len : Nat} (h : headerBytes ≤ len) :
    ∀ f ∈ headerFields spec, f.1 + f.2.length ≤ len := by
  simp only [headerBytes] at h
  simp only [headerFields, magic, offsetVersion, offsetHeaderBytes, offsetFileBytes, offsetWidth,
    offsetHeight, offsetStride, offsetPixelFormat, offsetSlotCount, offsetGeneration,
    offsetActiveSlot, offsetProducerState, List.forall_mem_cons, length_toLe, List.length_cons,
    List.length_nil, List.not_mem_nil, IsEmpty.forall_iff, implies_true, and_true]
  omega

theorem headerFields_apart (spec : FrameSpec) : (headerFields spec).Pairwise Apart := by
  simp [headerFields, Apart, magic, offsetVersion, offsetHeaderBytes, offsetFileBytes,
    offsetWidth, offsetHeight, offsetStride, offsetPixelFormat, offsetSlotCount,
    offsetGeneration, offsetActiveSlot, offsetProducerState]

/-- A field of the header holds what `initialize_header` wrote to it. -/
theorem initializeHeader_field {m : List UInt8} {spec : FrameSpec} (h : headerBytes ≤ m.length)
    {offset : Nat} {bytes : List UInt8} (hf : (offset, bytes) ∈ headerFields spec) :
    slice (initializeHeader m spec) offset bytes.length = bytes := by
  refine slice_patchAll ?_ (headerFields_apart spec) hf
  rw [List.length_replicate]
  exact headerFields_fit spec h

theorem length_initializeHeader {m : List UInt8} (spec : FrameSpec) (h : headerBytes ≤ m.length) :
    (initializeHeader m spec).length = m.length := by
  rw [initializeHeader, length_patchAll, List.length_replicate]
  rw [List.length_replicate]
  exact headerFields_fit spec h

/-- Everything past the header is zero. -/
theorem slice_initializeHeader {m : List UInt8} {spec : FrameSpec} (h : headerBytes ≤ m.length)
    {offset count : Nat} (ho : headerBytes ≤ offset) (hfit : offset + count ≤ m.length) :
    slice (initializeHeader m spec) offset count = List.replicate count 0 := by
  rw [initializeHeader, slice_patchAll_apart, slice_replicate hfit]
  · rw [List.length_replicate]
    exact headerFields_fit spec h
  · intro f hf
    exact Or.inr (Nat.le_trans (headerFields_fit spec (Nat.le_refl _) f hf) ho)

theorem readU32_initializeHeader {m : List UInt8} {spec : FrameSpec} (h : headerBytes ≤ m.length)
    {n : Nat} (hn : n < 2 ^ 32) (offset : Nat) (hf : (offset, toLe 4 n) ∈ headerFields spec) :
    readU32 (initializeHeader m spec) offset = n := by
  have hread := initializeHeader_field h hf
  rw [length_toLe] at hread
  rw [readU32, hread, fromLe_toLe (by simpa using hn)]

theorem readU64_initializeHeader {m : List UInt8} {spec : FrameSpec} (h : headerBytes ≤ m.length)
    {n : Nat} (hn : n < 2 ^ 64) (offset : Nat) (hf : (offset, toLe 8 n) ∈ headerFields spec) :
    readU64 (initializeHeader m spec) offset = n := by
  have hread := initializeHeader_field h hf
  rw [length_toLe] at hread
  rw [readU64, hread, fromLe_toLe (by simpa using hn)]

theorem FrameSpec.Valid.headerBytes_le {spec : FrameSpec} (h : spec.Valid) :
    headerBytes ≤ spec.fileBytes := by
  rw [h.fileBytes_eq]
  exact Nat.le_add_right ..

theorem validateHeader_initializeHeader {m : List UInt8} {spec : FrameSpec} (h : spec.Valid)
    (hm : m.length = spec.fileBytes) :
    validateHeader m.length (fun _ => initializeHeader m spec) = .ok spec := by
  have hlen : headerBytes ≤ m.length := hm ▸ h.headerBytes_le
  obtain ⟨hstride, -, hfile⟩ := h.sizes
  have hwidth := h.width_le
  have hheight := h.height_le
  simp only [maxDimension] at hwidth hheight
  have hmagic := initializeHeader_field hlen (List.mem_cons_self : (0, magic) ∈ headerFields spec)
  rw [show magic.length = 8 from rfl] at hmagic
  have hversion : readU32 (initializeHeader m spec) offsetVersion = version :=
    readU32_initializeHeader hlen (by decide) _ (by simp [headerFields])
  have hheader : readU32 (initializeHeader m spec) offsetHeaderBytes = headerBytes :=
    readU32_initializeHeader hlen (by decide) _ (by simp [headerFields])
  have hformat : readU32 (initializeHeader m spec) offsetPixelFormat = pixelFormat :=
    readU32_initializeHeader hlen (by decide) _ (by simp [headerFields])
  have hslots : readU32 (initializeHeader m spec) offsetSlotCount = slotCount :=
    readU32_initializeHeader hlen (by decide) _ (by simp [headerFields])
  have hw : readU32 (initializeHeader m spec) offsetWidth = spec.width :=
    readU32_initializeHeader hlen (by omega) _ (by simp [headerFields])
  have hh : readU32 (initializeHeader m spec) offsetHeight = spec.height :=
    readU32_initializeHeader hlen (by omega) _ (by simp [headerFields])
  have hs : readU32 (initializeHeader m spec) offsetStride = spec.stride :=
    readU32_initializeHeader hlen (by omega) _ (by simp [headerFields])
  have hf : readU64 (initializeHeader m spec) offsetFileBytes = spec.fileBytes :=
    readU64_initializeHeader hlen (by omega) _ (by simp [headerFields])
  generalize initializeHeader m spec = written at *
  unfold validateHeader
  rw [if_neg (Nat.not_lt.mpr hlen), hmagic, hversion, hheader, hformat, hslots, hw, hh, hs, hf,
    h.new_eq]
  simp [hm]

/-! ## No access leaves the mapping -/

theorem attempt_inside (len : Nat) (views : Nat → List UInt8) : attempt len views ≠ .outside := by
  unfold attempt
  dsimp only
  split
  next => simp
  next =>
    cases hspec : validateHeader len fun k => views (1 + k) with
    | error e => simp
    | ok spec =>
      obtain ⟨hvalid, hlen⟩ := validateHeader_ok hspec
      cases hstate : ProducerState.fromRaw (readU32 (views 11) offsetProducerState) with
      | none => simp
      | some state =>
        cases hoffset : slotOffset spec (readU32 (views 10) offsetActiveSlot) with
        | error e => simp [hoffset]
        | ok offset =>
          obtain ⟨heq, -, hend⟩ := hvalid.fits.slot _ (slotOffset_ok hoffset)
          have hstart : offset = headerBytes + spec.slotBytes * readU32 (views 10) offsetActiveSlot := by
            simpa [hoffset] using heq
          have hinside : ¬ len < offset + spec.pixelBytes := by
            rw [hvalid.fits.pixelBytes_eq]
            omega
          dsimp only
          rw [hoffset]
          dsimp only
          rw [if_neg hinside]
          split <;> simp

theorem snapshot_inside (len : Nat) (views : Nat → Nat → List UInt8) :
    snapshot len views ≠ .outside := by
  suffices h : ∀ turns, snapshotLoop len views turns ≠ .outside from h _
  intro turns
  induction turns with
  | zero => simp [snapshotLoop]
  | succ turns ih =>
    rw [snapshotLoop]
    split
    next => exact ih
    next => exact fun h => attempt_inside _ _ h

theorem publish_inside {spec : FrameSpec} (h : spec.Valid) (pixels : List UInt8)
    (views : Nat → List UInt8) : publish spec spec.fileBytes pixels views ≠ none := by
  unfold publish
  split
  next => simp
  next hlength =>
    obtain ⟨heq, -, hend⟩ := h.fits.slot _ (nextSlot_lt (readU32 (views 1) offsetActiveSlot))
    have hpixels : pixels.length = spec.slotBytes := by
      rw [← h.fits.pixelBytes_eq]
      exact not_not.mp hlength
    dsimp only
    rw [heq]
    dsimp only
    rw [if_neg (by omega)]
    simp

/-- **The header keeps every access inside the mapping.**  What
`initialize_header` writes for a spec of `FrameSpec::new`, `validate_header`
reads back; a mapping whose header it accepts holds both slots, with no
overflow on the way; and neither `snapshot` nor `publish` indexes outside,
whatever the mapping is made to hold between any two looks at it. -/
theorem header_bounds :
    (∀ width height spec, FrameSpec.new width height = .ok spec →
      ∀ m : List UInt8, m.length = spec.fileBytes →
        validateHeader m.length (fun _ => initializeHeader m spec) = .ok spec) ∧
    (∀ len views spec, validateHeader len views = .ok spec → spec.Fits len) ∧
    (∀ len views, snapshot len views ≠ .outside) ∧
    (∀ width height spec, FrameSpec.new width height = .ok spec →
      ∀ pixels views, publish spec spec.fileBytes pixels views ≠ none) := by
  refine ⟨?_, ?_, snapshot_inside, ?_⟩
  · intro width height spec hspec m hm
    exact validateHeader_initializeHeader (new_ok hspec).2.2 hm
  · intro len views spec hspec
    obtain ⟨hvalid, rfl⟩ := validateHeader_ok hspec
    exact hvalid.fits
  · intro width height spec hspec
    exact publish_inside (new_ok hspec).2.2

/-- A 1x1 frame: its header reads back. -/
theorem header_bounds_onePixel :
    FrameSpec.new 1 1 = .ok ⟨1, 1, 4, 4, 72⟩ ∧
    validateHeader 72 (fun _ => initializeHeader (List.replicate 72 0) ⟨1, 1, 4, 4, 72⟩) =
      .ok ⟨1, 1, 4, 4, 72⟩ := by
  have hnew : FrameSpec.new 1 1 = .ok ⟨1, 1, 4, 4, 72⟩ := by decide
  have h := header_bounds.1 1 1 _ hnew (List.replicate 72 0) List.length_replicate
  rw [List.length_replicate] at h
  exact ⟨hnew, h⟩

end Kwe.Frames
