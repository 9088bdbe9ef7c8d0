import Kwe.Frames.DoubleBuffer
import Kwe.Frames.Item

/-!
The two readers of a frame file.

* `accepts_iff`: on a file nobody writes to, the item of the desktop shows what
  a snapshot returns, but that it does not look at the producer state;
* `watch_whole`: beside a writer, every image it shows is one frame, whole, and
  its sequences do not go back.
-/

namespace Kwe.Frames

open Foundation.Bytes Foundation.Checks Foundation.Runs

/-! ## The header checks -/

/-- The header of a file is that of a spec. -/
structure Heads (m : List UInt8) (spec : FrameSpec) : Prop where
  valid : spec.Valid
  length : m.length = spec.fileBytes
  magic : slice m 0 8 = magic
  version : readU32 m offsetVersion = version
  headerBytes : readU32 m offsetHeaderBytes = headerBytes
  pixelFormat : readU32 m offsetPixelFormat = pixelFormat
  slotCount : readU32 m offsetSlotCount = slotCount
  width : readU32 m offsetWidth = spec.width
  height : readU32 m offsetHeight = spec.height
  stride : readU32 m offsetStride = spec.stride
  fileBytes : readU64 m offsetFileBytes = spec.fileBytes

theorem validateHeader_iff {m : List UInt8} {spec : FrameSpec} :
    (validateHeader m.length fun _ => m) = .ok spec ↔ Heads m spec := by
  constructor
  · intro h
    obtain ⟨hvalid, hlength⟩ := validateHeader_ok h
    unfold validateHeader at h
    obtain ⟨-, h⟩ := check_ok h
    obtain ⟨hmagic, h⟩ := check_ok h
    obtain ⟨hversion, h⟩ := check_ok h
    obtain ⟨hheader, h⟩ := check_ok h
    obtain ⟨hformat, h⟩ := check_ok h
    obtain ⟨hslots, h⟩ := check_ok h
    obtain ⟨spec', hnew, h⟩ := bind_ok h
    obtain ⟨hstride, h⟩ := check_ok h
    obtain ⟨hsize, h⟩ := check_ok h
    obtain rfl : spec' = spec := by simpa using h
    obtain ⟨hwidth, hheight, -⟩ := new_ok hnew
    exact ⟨hvalid, hlength, not_not.mp hmagic, not_not.mp hversion, not_not.mp hheader,
      not_not.mp hformat, not_not.mp hslots, hwidth.symm, hheight.symm, not_not.mp hstride,
      not_not.mp (not_or.mp hsize).1⟩
  · intro h
    have hlength : ¬ m.length < Frames.headerBytes :=
      Nat.not_lt.mpr (h.length ▸ h.valid.headerBytes_le)
    unfold validateHeader
    rw [if_neg hlength, h.magic, h.version, h.headerBytes, h.pixelFormat, h.slotCount, h.width,
      h.height, h.stride, h.fileBytes, h.valid.new_eq]
    simp [h.length]

theorem readExact_eq {m : List UInt8} {offset bytes : Nat} (h : offset + bytes ≤ m.length) :
    FrameItem.readExact m.length m offset bytes = some (slice m offset bytes) := by
  unfold FrameItem.readExact
  rw [if_neg (by omega), if_neg (by omega)]

theorem readExact_short {m : List UInt8} {offset bytes : Nat} (h : m.length < offset + bytes) :
    FrameItem.readExact m.length m offset bytes = none := by
  unfold FrameItem.readExact
  rw [if_pos (by omega)]

theorem slice_slice {m : List UInt8} {count offset bytes : Nat} (h : offset + bytes ≤ count) :
    slice (slice m 0 count) offset bytes = slice m offset bytes := by
  unfold slice
  rw [List.drop_zero, List.drop_take, List.take_take, Nat.min_eq_left (by omega)]

theorem readU32_header {m : List UInt8} {offset : Nat} (h : offset + 4 ≤ headerBytes) :
    readU32 (slice m 0 headerBytes) offset = readU32 m offset := by
  rw [readU32, readU32, slice_slice h]

theorem readU64_header {m : List UInt8} {offset : Nat} (h : offset + 8 ≤ headerBytes) :
    readU64 (slice m 0 headerBytes) offset = readU64 m offset := by
  rw [readU64, readU64, slice_slice h]

theorem item_validateHeader_ok {m : List UInt8} {spec : FrameSpec}
    (h : FrameItem.validateHeader m.length m = .ok spec) : Heads m spec := by
  unfold FrameItem.validateHeader at h
  by_cases hshort : m.length < headerBytes
  · rw [readExact_short (by omega)] at h
    cases h
  · rw [readExact_eq (by omega)] at h
    dsimp only at h
    rw [slice_slice (by decide)] at h
    simp only [readU32_header (show offsetVersion + 4 ≤ headerBytes by decide),
      readU32_header (show offsetHeaderBytes + 4 ≤ headerBytes by decide),
      readU32_header (show offsetPixelFormat + 4 ≤ headerBytes by decide),
      readU32_header (show offsetSlotCount + 4 ≤ headerBytes by decide),
      readU32_header (show offsetWidth + 4 ≤ headerBytes by decide),
      readU32_header (show offsetHeight + 4 ≤ headerBytes by decide),
      readU32_header (show offsetStride + 4 ≤ headerBytes by decide),
      readU64_header (show offsetFileBytes + 8 ≤ headerBytes by decide)] at h
    obtain ⟨hmagic, h⟩ := check_ok h
    obtain ⟨hformat, h⟩ := check_ok h
    obtain ⟨hdims, h⟩ := check_ok h
    obtain ⟨hsizes, h⟩ := check_ok h
    simp only [not_or, not_not, Nat.not_lt] at hmagic hformat hdims hsizes
    obtain rfl := Except.ok.inj h
    obtain ⟨hversion, hheader, hpixel, hslots⟩ := hformat
    obtain ⟨hwidth, hheight, hwidthLe, hheightLe⟩ := hdims
    obtain ⟨-, hstride, hfile, hlength, hmax⟩ := hsizes
    exact ⟨⟨Nat.pos_of_ne_zero hwidth, hwidthLe, Nat.pos_of_ne_zero hheight, hheightLe, rfl, rfl,
      rfl, hmax⟩, hlength, hmagic, hversion, hheader, hpixel, hslots, rfl, rfl, hstride, hfile⟩

theorem item_validateHeader_eq {m : List UInt8} {spec : FrameSpec} (h : Heads m spec) :
    FrameItem.validateHeader m.length m = .ok spec := by
  have hlength : headerBytes ≤ m.length := h.length ▸ h.valid.headerBytes_le
  obtain ⟨hstride, -, -⟩ := h.valid.sizes
  have hdims : ¬ (spec.width = 0 ∨ spec.height = 0 ∨ maxDimension < spec.width ∨
      maxDimension < spec.height) := by
    have := h.valid.width_pos
    have := h.valid.height_pos
    have := h.valid.width_le
    have := h.valid.height_le
    omega
  unfold FrameItem.validateHeader
  rw [readExact_eq (by omega)]
  dsimp only
  rw [slice_slice (by decide), h.magic, readU32_header (by decide), h.version,
    readU32_header (by decide), h.headerBytes, readU32_header (by decide), h.pixelFormat,
    readU32_header (by decide), h.slotCount, readU32_header (by decide), h.width,
    readU32_header (by decide), h.height, readU32_header (by decide), h.stride,
    readU64_header (by decide), h.fileBytes, ← h.valid.stride_eq, ← h.valid.slotBytes_eq,
    ← h.valid.fileBytes_eq, h.length]
  have hsizes : ¬ (2 ^ 32 - 1 < spec.stride ∨ spec.stride ≠ spec.stride ∨
      spec.fileBytes ≠ spec.fileBytes ∨ spec.fileBytes ≠ spec.fileBytes ∨
        maxMappingBytes < spec.fileBytes) := by
    have := h.valid.fileBytes_le
    omega
  rw [if_neg (by simp), if_neg (by simp), if_neg hdims, if_neg hsizes]

/-- Both checks are the same check. -/
theorem item_validateHeader_iff {m : List UInt8} {spec : FrameSpec} :
    FrameItem.validateHeader m.length m = .ok spec ↔ Heads m spec :=
  ⟨item_validateHeader_ok, item_validateHeader_eq⟩

/-! ## A poll -/

theorem setStatus_self (item : FrameItem) :
    item.setStatus item.status item.errorMessage = item := rfl

/-- The looks of a poll that shows a frame: what it saw at each. -/
structure Sees (item : FrameItem) (views : Nat → List UInt8) (before slot : Nat)
    (pixels : List UInt8) : Prop where
  isOpen : item.isOpen = true
  before_eq : FrameItem.loadGeneration item.fileBytes (views 2) = some before
  even : before % 2 = 0
  fresh : ¬ (item.receivedSequence = true ∧ before / 2 = item.sequence)
  slot_eq : FrameItem.load32 item.fileBytes (views 4) offsetActiveSlot = some slot
  slot_lt : slot < slotCount
  pixels_eq : FrameItem.readPieces item.fileBytes (fun k => views (5 + k))
    (headerBytes + item.layout.slotBytes * slot) item.layout.slotBytes = some pixels
  after_eq : FrameItem.loadGeneration item.fileBytes (views (5 + item.layout.slotBytes)) = some before

/-- The poll of an open file that is whole finds a frame being written, or a new one that
another replaces before it is copied. -/
def Inconclusive (item : FrameItem) (views : Nat → List UInt8) : Prop :=
  (views 0).length = item.fileBytes ∧
  (∃ current, FrameItem.validateHeader item.fileBytes (views 1) = .ok current ∧
    current.fileBytes = item.layout.fileBytes) ∧
  ∃ before, FrameItem.loadGeneration item.fileBytes (views 2) = some before ∧
    (before % 2 ≠ 0 ∨
      (∃ state, FrameItem.load32 item.fileBytes (views 3) offsetProducerState = some state) ∧
      ¬ (item.receivedSequence = true ∧ before / 2 = item.sequence) ∧
      ∃ slot, FrameItem.load32 item.fileBytes (views 4) offsetActiveSlot = some slot ∧
        slot < slotCount ∧
        headerBytes + item.layout.slotBytes * slot + item.layout.slotBytes ≤ item.fileBytes ∧
        (∃ pixels, FrameItem.readPieces item.fileBytes (fun k => views (5 + k))
          (headerBytes + item.layout.slotBytes * slot) item.layout.slotBytes = some pixels) ∧
        ∃ after, FrameItem.loadGeneration item.fileBytes
          (views (5 + item.layout.slotBytes)) = some after ∧
          (before ≠ after ∨ after % 2 ≠ 0))

/-- What a poll of an open file does. -/
inductive Polled (path : String) (aged : Bool) (views : Nat → List UInt8) (item : FrameItem) :
    FrameItem → Prop
  | told (status : Status) (error : String) : status ≠ .live →
      Polled path aged views item (item.setStatus status error)
  /-- The frame is the last one, and it is young. -/
  | again : aged = false → Polled path aged views item item
  | inconclusive : Inconclusive item views → Polled path aged views item item
  | shown (before slot : Nat) (pixels : List UInt8) (state : Nat) :
      Sees item views before slot pixels →
      Polled path aged views item (item.install path pixels before state)

theorem pollFrame_polled (path : String) (aged : Bool) (views : Nat → List UInt8)
    {item : FrameItem} (hopen : item.isOpen = true) :
    Polled path aged views item (item.pollFrame path aged views) := by
  unfold FrameItem.pollFrame
  rw [if_neg (not_not.mpr hopen)]
  split
  next => exact .told _ _ nofun
  next hsize =>
    split
    next => exact .told _ _ nofun
    next current hcurrent =>
      split
      next => exact .told _ _ nofun
      next hlayout =>
        have hwhole := not_not.mp hsize
        have hheader : ∃ current, FrameItem.validateHeader item.fileBytes (views 1) =
            .ok current ∧ current.fileBytes = item.layout.fileBytes :=
          ⟨current, hcurrent, not_not.mp hlayout⟩
        split
        next => exact .told _ _ nofun
        next before hbefore =>
          split
          next hodd => exact .inconclusive ⟨hwhole, hheader, before, hbefore, .inl hodd⟩
          next heven =>
            split
            next => exact .told _ _ nofun
            next state hstate =>
              split
              next =>
                split
                next => exact .told _ _ nofun
                next =>
                  split
                  next => exact .told _ _ nofun
                  next hyoung => exact .again (Bool.not_eq_true _ ▸ hyoung)
              next hfresh =>
                split
                next => exact .told _ _ nofun
                next slot hslot =>
                  split
                  next => exact .told _ _ nofun
                  next hlt =>
                    dsimp only
                    split
                    next => exact .told _ _ nofun
                    next hinside =>
                      split
                      next => exact .told _ _ nofun
                      next pixels hpixels =>
                        split
                        next => exact .told _ _ nofun
                        next after hafter =>
                          split
                          next htorn =>
                            exact .inconclusive ⟨hwhole, hheader, before, hbefore, .inr
                              ⟨⟨state, hstate⟩, hfresh, slot, hslot, Nat.not_le.mp hlt,
                                Nat.not_lt.mp hinside, ⟨pixels, hpixels⟩, after, hafter, htorn⟩⟩
                          next hsame =>
                            simp only [not_or, not_not] at hsame
                            obtain ⟨rfl, -⟩ := hsame
                            exact .shown before slot pixels state ⟨hopen, hbefore,
                              not_not.mp heven, hfresh, hslot, Nat.not_le.mp hlt, hpixels, hafter⟩

theorem pollFrame_closed (path : String) (aged : Bool) (views : Nat → List UInt8)
    {item : FrameItem} (hopen : item.isOpen ≠ true) : item.pollFrame path aged views = item :=
  if_pos hopen

/-- **A poll.**  It shows a frame that it has seen whole, or tells a status. -/
theorem pollFrame_cases (path : String) (aged : Bool) (views : Nat → List UInt8)
    (item : FrameItem) :
    (∃ status error, item.pollFrame path aged views = item.setStatus status error) ∨
      ∃ before slot pixels producerState, Sees item views before slot pixels ∧
        item.pollFrame path aged views = item.install path pixels before producerState := by
  have hself : ∃ status error, item = item.setStatus status error :=
    ⟨_, _, (setStatus_self item).symm⟩
  by_cases hopen : item.isOpen = true
  · have hpolled := pollFrame_polled path aged views hopen
    generalize item.pollFrame path aged views = item' at hpolled ⊢
    cases hpolled with
    | told status error _ => exact .inl ⟨status, error, rfl⟩
    | again _ => exact .inl hself
    | inconclusive _ => exact .inl hself
    | shown before slot pixels state hsees =>
      exact .inr ⟨before, slot, pixels, state, hsees, rfl⟩
  · rw [pollFrame_closed path aged views hopen]
    exact .inl hself

/-! ## What a poll has read -/

theorem mapM_eq_some_iff {α β : Type} {f : α → Option β} {l : List α} {r : List β} :
    l.mapM f = some r ↔ l.map f = r.map some := by
  induction l generalizing r with
  | nil => cases r <;> simp [pure]
  | cons a l ih =>
    rw [List.mapM_cons, List.map_cons]
    cases r with
    | nil => simp [pure, Option.bind_eq_some_iff]
    | cons b r =>
      simp only [Option.bind_eq_bind, Option.bind_eq_some_iff, List.map_cons, List.cons.injEq, ← ih]
      constructor
      · rintro ⟨b', hb, r', hr, h⟩
        cases h
        exact ⟨hb, hr⟩
      · rintro ⟨hb, hr⟩
        exact ⟨b, hb, r, hr, rfl⟩

/-- Each byte of a copy is the one that its look saw. -/
theorem readPieces_eq_some_iff {fileBytes offset bytes : Nat} {views : Nat → List UInt8}
    {pixels : List UInt8} : FrameItem.readPieces fileBytes views offset bytes = some pixels ↔
      offset + bytes ≤ fileBytes ∧ pixels.length = bytes ∧
        ∀ i < bytes, (views i)[offset + i]? = pixels[i]? := by
  unfold FrameItem.readPieces
  split
  next hout =>
    constructor
    · nofun
    · rintro ⟨hle, -⟩
      omega
  next hin =>
    rw [mapM_eq_some_iff]
    constructor
    · intro h
      have hlength := congrArg List.length h
      simp only [List.length_map, List.length_range] at hlength
      refine ⟨by omega, hlength.symm, fun i hi => ?_⟩
      have hbyte := congrArg (·[i]?) h
      simp only [List.getElem?_map, List.getElem?_range hi, Option.map_some] at hbyte
      obtain ⟨b, hb, hsome⟩ := Option.map_eq_some_iff.mp hbyte.symm
      rw [hb, hsome]
    · rintro ⟨-, rfl, hbytes⟩
      apply List.ext_getElem?
      intro i
      rw [List.getElem?_map, List.getElem?_map]
      by_cases hi : i < pixels.length
      · rw [List.getElem?_range hi, Option.map_some, hbytes i hi, List.getElem?_eq_getElem hi]
        rfl
      · rw [List.getElem?_eq_none (by simpa using hi), List.getElem?_eq_none (Nat.not_lt.mp hi)]
        rfl

theorem readExact_eq_some {fileBytes offset bytes : Nat} {view read : List UInt8}
    (h : FrameItem.readExact fileBytes view offset bytes = some read) :
    read = slice view offset bytes := by
  unfold FrameItem.readExact at h
  split at h
  next => cases h
  next =>
    split at h
    next => cases h
    next => exact (Option.some.inj h).symm

theorem loadGeneration_eq {fileBytes before : Nat} {view : List UInt8}
    (h : FrameItem.loadGeneration fileBytes view = some before) : before = generation view := by
  obtain ⟨read, hread, rfl⟩ := Option.map_eq_some_iff.mp h
  rw [readExact_eq_some hread]
  rfl

theorem load32_eq {fileBytes offset n : Nat} {view : List UInt8}
    (h : FrameItem.load32 fileBytes view offset = some n) : n = readU32 view offset := by
  obtain ⟨read, hread, rfl⟩ := Option.map_eq_some_iff.mp h
  rw [readExact_eq_some hread]
  rfl

/-! ## A file that is left alone -/

/-- The item has opened the file of a spec. -/
structure Opened (item : FrameItem) (m : List UInt8) (spec : FrameSpec) : Prop where
  isOpen : item.isOpen = true
  fileBytes : item.fileBytes = m.length
  layout : item.layout = spec

/-- A frame can be shown. -/
structure Showable (m : List UInt8) (spec : FrameSpec) : Prop where
  heads : Heads m spec
  even : generation m % 2 = 0
  slot_lt : activeSlot m < slotCount

theorem Showable.slot_le {m : List UInt8} {spec : FrameSpec} (h : Showable m spec) :
    headerBytes + spec.slotBytes * activeSlot m + spec.slotBytes ≤ m.length := by
  rw [h.heads.length]
  exact (h.heads.valid.fits.slot _ h.slot_lt).2.2

/-- The first poll of a file that can be shown shows it. -/
theorem pollFrame_shows {path : String} {aged : Bool} {item : FrameItem} {m : List UInt8}
    {spec : FrameSpec} (hitem : Opened item m spec) (h : Showable m spec)
    (hfresh : item.receivedSequence = false) :
    item.pollFrame path aged (fun _ => m) =
      item.install path (readSlot spec m (activeSlot m)) (generation m)
        (readU32 m offsetProducerState) := by
  have hlength : headerBytes ≤ m.length := h.heads.length ▸ h.heads.valid.headerBytes_le
  have hgeneration : FrameItem.loadGeneration m.length m = some (generation m) := by
    unfold FrameItem.loadGeneration
    rw [readExact_eq (le_trans (by decide) hlength)]
    rfl
  have hload : ∀ offset, offset + 4 ≤ headerBytes →
      FrameItem.load32 m.length m offset = some (readU32 m offset) := fun offset hle => by
    unfold FrameItem.load32
    rw [readExact_eq (hle.trans hlength)]
    rfl
  have hslot := h.slot_le
  have hpixels : FrameItem.readPieces m.length (fun _ => m)
      (headerBytes + spec.slotBytes * activeSlot m) spec.slotBytes =
        some (readSlot spec m (activeSlot m)) := by
    refine readPieces_eq_some_iff.mpr ⟨hslot, length_slice hslot, fun i hi => ?_⟩
    rw [readSlot, getElem?_slice, if_pos hi]
  have hactive : readU32 m offsetActiveSlot = activeSlot m := rfl
  unfold FrameItem.pollFrame
  rw [hitem.isOpen, hitem.fileBytes, hitem.layout, item_validateHeader_eq h.heads, hgeneration,
    hload _ (by decide), hload _ (by decide), hactive]
  dsimp only
  rw [if_neg (not_not.mpr rfl), if_neg (not_not.mpr rfl), if_neg (not_not.mpr rfl),
    if_neg (not_not.mpr h.even), if_neg (by simp [hfresh]), if_neg (Nat.not_le.mpr h.slot_lt),
    if_neg (Nat.not_lt.mpr hslot), hpixels]
  dsimp only
  rw [if_neg (by simp [h.even])]

/-- What a reader has shown: an image and its sequence. -/
def FrameItem.shown (item : FrameItem) : Option (Image × Nat) :=
  if item.receivedSequence then item.image.map fun image => (image, item.sequence) else none

/-- The frame that a file shows. -/
def picture (m : List UInt8) (spec : FrameSpec) : Image × Nat :=
  (⟨spec.width, spec.height, readSlot spec m (activeSlot m)⟩, generation m / 2)

/-- What the item has shown is the frame of the file. -/
def Told (item : FrameItem) (m : List UInt8) (spec : FrameSpec) : Prop :=
  item.receivedSequence = true → Showable m spec ∧
    item.image = some (picture m spec).1 ∧ item.sequence = (picture m spec).2

/-- What a poll has read of a file that is left alone is the frame of it. -/
theorem Sees.picture {item : FrameItem} {m : List UInt8} {spec : FrameSpec} {before slot : Nat}
    {pixels : List UInt8} (h : Sees item (fun _ => m) before slot pixels)
    (hitem : Opened item m spec) (hheads : Heads m spec) :
    Showable m spec ∧ before = generation m ∧ pixels = readSlot spec m (activeSlot m) := by
  obtain rfl := loadGeneration_eq h.before_eq
  have hactive : slot = activeSlot m := load32_eq h.slot_eq
  subst hactive
  have hshowable : Showable m spec := ⟨hheads, h.even, h.slot_lt⟩
  refine ⟨hshowable, rfl, ?_⟩
  have hpixels := h.pixels_eq
  rw [hitem.layout] at hpixels
  obtain ⟨-, hlength, hbytes⟩ := readPieces_eq_some_iff.mp hpixels
  apply List.ext_getElem?
  intro i
  rw [readSlot, getElem?_slice]
  split
  next hi => exact (hbytes i hi).symm
  next hi => exact List.getElem?_eq_none (by omega)

theorem poll_told {path : String} {aged : Bool} {item : FrameItem} {m : List UInt8}
    {spec : FrameSpec} (hitem : Opened item m spec) (hheads : Heads m spec) (h : Told item m spec) :
    Opened (item.pollFrame path aged fun _ => m) m spec ∧
      Told (item.pollFrame path aged fun _ => m) m spec := by
  rcases pollFrame_cases path aged (fun _ => m) item with
    ⟨status, error, hpoll⟩ | ⟨before, slot, pixels, producerState, hsees, hpoll⟩
  · rw [hpoll]
    exact ⟨⟨hitem.isOpen, hitem.fileBytes, hitem.layout⟩, h⟩
  · obtain ⟨hshowable, rfl, rfl⟩ := hsees.picture hitem hheads
    rw [hpoll]
    refine ⟨⟨hitem.isOpen, hitem.fileBytes, hitem.layout⟩, fun _ => ⟨hshowable, ?_, rfl⟩⟩
    rw [FrameItem.install, hitem.layout]
    rfl

/-- Opening a file that is left alone. -/
theorem open_cases (path : String) (item : FrameItem) (m : List UInt8) :
    (∃ spec item', Heads m spec ∧ Opened item' m spec ∧ item'.receivedSequence = false ∧
      item.openFrameFile path .file (fun _ => m) = item'.pollFrame path false fun _ => m) ∨
    ((∀ spec, ¬ Heads m spec) ∧ (item.openFrameFile path .file fun _ => m).isOpen = false ∧
      (item.openFrameFile path .file fun _ => m).receivedSequence = false) := by
  unfold FrameItem.openFrameFile
  dsimp only
  split
  next hsize =>
    refine .inr ⟨fun spec h => ?_, rfl, rfl⟩
    have hlow := h.valid.headerBytes_le
    have hhigh := h.valid.fileBytes_le
    have hlength := h.length
    omega
  next =>
    split
    next error herror =>
      refine .inr ⟨fun spec h => ?_, rfl, rfl⟩
      rw [item_validateHeader_eq h] at herror
      cases herror
    next spec hspec =>
      exact .inl ⟨spec, _, item_validateHeader_ok hspec, ⟨rfl, rfl, rfl⟩, rfl, rfl⟩

/-- The item of the desktop on a file that is left alone, opened and polled. -/
def itemAccepts (path : String) (aged : Bool) (item : FrameItem) (m : List UInt8) :
    Option (Image × Nat) :=
  ((item.openFrameFile path .file fun _ => m).pollFrame path aged fun _ => m).shown

/-- A snapshot of a file that is left alone. -/
def readerAccepts (m : List UInt8) : Option (Image × Nat) :=
  match openReader m with
  | .error _ => none
  | .ok _ =>
    match snapshot m.length fun _ _ => m with
    | .answer (.ok f) => some (⟨f.spec.width, f.spec.height, f.pixels⟩, f.sequence)
    | _ => none

theorem itemAccepts_iff {path : String} {aged : Bool} {item : FrameItem} {m : List UInt8}
    {r : Image × Nat} :
    itemAccepts path aged item m = some r ↔ ∃ spec, Showable m spec ∧ r = picture m spec := by
  unfold itemAccepts
  rcases open_cases path item m with ⟨spec, item', hheads, hitem, hfresh, hopen⟩ |
    ⟨hnone, hclosed, hfresh⟩
  · have htold : Told item' m spec := fun h => by
      rw [hfresh] at h
      cases h
    obtain ⟨hitem₁, htold₁⟩ := @poll_told path false _ _ _ hitem hheads htold
    obtain ⟨-, htold₂⟩ := @poll_told path aged _ _ _ hitem₁ hheads htold₁
    rw [hopen]
    constructor
    · intro h
      unfold FrameItem.shown at h
      split at h
      next hreceived =>
        obtain ⟨hshowable, himage, hsequence⟩ := htold₂ hreceived
        rw [himage, hsequence] at h
        exact ⟨spec, hshowable, (Option.some.inj h).symm⟩
      next => cases h
    · rintro ⟨spec', hshowable, rfl⟩
      obtain rfl : spec' = spec := by
        have h := item_validateHeader_eq hshowable.heads
        rw [item_validateHeader_eq hheads] at h
        exact (Except.ok.inj h).symm
      have hreceived : ((item'.pollFrame path false fun _ => m).pollFrame path aged
          fun _ => m).receivedSequence = true := by
        have hshown := @pollFrame_shows path false _ _ _ hitem hshowable hfresh
        rcases pollFrame_cases path aged (fun _ => m) (item'.pollFrame path false fun _ => m) with
          ⟨status, error, hpoll⟩ | ⟨before, slot, pixels, producerState, -, hpoll⟩
        · rw [hpoll, hshown]
          rfl
        · rw [hpoll]
          rfl
      obtain ⟨-, himage, hsequence⟩ := htold₂ hreceived
      rw [FrameItem.shown, if_pos hreceived, himage, hsequence]
      rfl
  · constructor
    · intro h
      rcases pollFrame_cases path aged (fun _ => m) (item.openFrameFile path .file fun _ => m) with
        ⟨status, error, hpoll⟩ | ⟨before, slot, pixels, producerState, hsees, -⟩
      · rw [hpoll, FrameItem.shown, FrameItem.setStatus, hfresh] at h
        cases h
      · rw [hsees.isOpen] at hclosed
        cases hclosed
    · rintro ⟨spec, hshowable, -⟩
      exact absurd hshowable.heads (hnone spec)

theorem copyBytes_const {m : List UInt8} {offset count : Nat} (h : offset + count ≤ m.length) :
    copyBytes (fun _ => m) offset count = slice m offset count := by
  apply List.ext_getElem?
  intro i
  rw [copyBytes, getElem?_slice, List.getElem?_map]
  split
  next hi =>
    have hlt : offset + i < m.length := by omega
    rw [List.getElem?_range hi, List.getElem?_eq_getElem hlt, Option.map_some,
      List.getD_eq_getElem?_getD, List.getElem?_eq_getElem hlt, Option.getD_some]
  next hi =>
    rw [List.getElem?_eq_none (by simpa using hi)]
    rfl

/-- The turns of a snapshot of a file that is left alone are all the same. -/
theorem snapshotLoop_const {len : Nat} {m : List UInt8} {f : FrameSnapshot} (turns : Nat) :
    snapshotLoop len (fun _ _ => m) (turns + 1) = .answer (.ok f) ↔
      attempt len (fun _ => m) = .answer (.ok f) := by
  induction turns with
  | zero =>
    rw [snapshotLoop]
    split
    next h => simp [h, snapshotLoop]
    next => rfl
  | succ turns ih =>
    rw [snapshotLoop]
    split
    next h => rw [ih]
    next => rfl

theorem attempt_ok {m : List UInt8} {f : FrameSnapshot}
    (h : attempt m.length (fun _ => m) = .answer (.ok f)) : Showable m f.spec ∧
      (ProducerState.fromRaw (readU32 m offsetProducerState)).isSome = true ∧
        f.pixels = readSlot f.spec m (activeSlot m) ∧ f.sequence = generation m / 2 := by
  unfold attempt at h
  dsimp only at h
  split at h
  next => cases h
  next heven =>
    cases hspec : validateHeader m.length fun _ => m with
    | error e =>
      rw [hspec] at h
      cases h
    | ok spec =>
      have hheads := validateHeader_iff.mp hspec
      rw [hspec] at h
      dsimp only at h
      cases hstate : ProducerState.fromRaw (readU32 m offsetProducerState) with
      | none =>
        rw [hstate] at h
        cases h
      | some state =>
        rw [hstate] at h
        dsimp only at h
        cases hoffset : slotOffset spec (readU32 m offsetActiveSlot) with
        | error e =>
          rw [hoffset] at h
          cases h
        | ok offset =>
          have hlt := slotOffset_ok hoffset
          have hshowable : Showable m spec := ⟨hheads, not_not.mp heven, hlt⟩
          obtain rfl := Except.ok.inj (hoffset.symm.trans (hheads.valid.fits.slot _ hlt).1)
          have hslot := hshowable.slot_le
          rw [hoffset] at h
          dsimp only at h
          rw [hheads.valid.fits.pixelBytes_eq] at h
          split at h
          next => cases h
          next =>
            split at h
            next =>
              obtain rfl := Except.ok.inj (Attempt.answer.inj h)
              exact ⟨hshowable, rfl, copyBytes_const hslot, rfl⟩
            next => cases h

theorem attempt_eq {m : List UInt8} {spec : FrameSpec} {state : ProducerState}
    (h : Showable m spec)
    (hstate : ProducerState.fromRaw (readU32 m offsetProducerState) = some state) :
    attempt m.length (fun _ => m) =
      .answer (.ok ⟨spec, generation m / 2, state, readSlot spec m (activeSlot m)⟩) := by
  have hoffset := (h.heads.valid.fits.slot _ h.slot_lt).1
  have hslot := h.slot_le
  have heven : ¬ readU64 m offsetGeneration % 2 ≠ 0 := not_not.mpr h.even
  have hactive : readU32 m offsetActiveSlot = activeSlot m := rfl
  unfold attempt
  dsimp only
  rw [if_neg heven, validateHeader_iff.mpr h.heads]
  dsimp only
  rw [hstate, hactive]
  dsimp only
  rw [hoffset]
  dsimp only
  rw [h.heads.valid.fits.pixelBytes_eq, if_neg (Nat.not_lt.mpr hslot), if_pos ⟨rfl, h.even⟩,
    copyBytes_const hslot]
  rfl

theorem readerAccepts_iff {m : List UInt8} {r : Image × Nat} :
    readerAccepts m = some r ↔ ∃ spec, Showable m spec ∧
      (ProducerState.fromRaw (readU32 m offsetProducerState)).isSome = true ∧ r = picture m spec := by
  have hsnapshot : ∀ f, snapshot m.length (fun _ _ => m) = .answer (.ok f) ↔
      attempt m.length (fun _ => m) = .answer (.ok f) := fun f => snapshotLoop_const 7
  unfold readerAccepts
  constructor
  · intro h
    split at h
    next => cases h
    next =>
      split at h
      next f hf =>
        obtain ⟨hshowable, hstate, hpixels, hsequence⟩ := attempt_ok ((hsnapshot f).mp hf)
        obtain rfl := Option.some.inj h
        exact ⟨f.spec, hshowable, hstate, by rw [hpixels, hsequence, picture]⟩
      next => cases h
  · rintro ⟨spec, hshowable, hstate, rfl⟩
    obtain ⟨state, hstate⟩ := Option.isSome_iff_exists.mp hstate
    have hlow := hshowable.heads.valid.headerBytes_le
    have hhigh := hshowable.heads.valid.fileBytes_le
    have hlength := hshowable.heads.length
    have hopen : openReader m = .ok spec := by
      rw [openReader, if_neg (by omega), if_neg (by omega), validateHeader_iff.mpr hshowable.heads]
    rw [hopen]
    dsimp only
    rw [(hsnapshot _).mpr (attempt_eq hshowable hstate)]
    rfl

/-- **A file that is left alone.**  Both readers show the same of it, unless it
has a frame whose producer state is none that the protocol knows. -/
theorem accepts_iff {path : String} {aged : Bool} {item : FrameItem} {m : List UInt8} :
    itemAccepts path aged item m = readerAccepts m ↔
      ∀ spec, validateHeader m.length (fun _ => m) = .ok spec → generation m % 2 = 0 →
        activeSlot m < slotCount →
          (ProducerState.fromRaw (readU32 m offsetProducerState)).isSome = true := by
  constructor
  · intro hsame spec hspec heven hlt
    have hshowable : Showable m spec := ⟨validateHeader_iff.mp hspec, heven, hlt⟩
    have hitem : itemAccepts path aged item m = some (picture m spec) :=
      itemAccepts_iff.mpr ⟨spec, hshowable, rfl⟩
    rw [hsame] at hitem
    obtain ⟨-, -, hstate, -⟩ := readerAccepts_iff.mp hitem
    exact hstate
  · intro hstate
    apply Option.ext
    intro r
    rw [itemAccepts_iff, readerAccepts_iff]
    refine exists_congr fun spec => and_congr_right fun hshowable => ?_
    rw [hstate spec (validateHeader_iff.mpr hshowable.heads) hshowable.even hshowable.slot_lt]
    simp

/-! ## Beside a writer -/

/-- The writer and what it has written after `n` of the steps. -/
def stateAt (spec : FrameSpec) (actions : List Action) (n : Nat) : State :=
  run (step spec) (State.new spec) (actions.take n)

/-- The item from when it opens the file on, polled again and again: look
number `k` at the file comes after `clock k` steps of the writer. -/
def watch (path : String) (spec : FrameSpec) (actions : List Action) (clock : Nat → Nat)
    (aged : Nat → Bool) (item : FrameItem) : Nat → FrameItem
  | 0 => item.openFrameFile path .file fun k => (stateAt spec actions (clock k)).mapping
  | n + 1 =>
    (watch path spec actions clock aged item n).pollFrame path (aged n) fun k =>
      (stateAt spec actions (clock ((n + 1) * (8 + spec.slotBytes) + k))).mapping

theorem Advances.trans {spec : FrameSpec} {m m' m'' : List UInt8} (h : Advances spec m m')
    (h' : Advances spec m' m'') : Advances spec m m'' where
  le := h.le.trans h'.le
  kept := fun heven hsame => by
    have hle := h.le
    have hle' := h'.le
    obtain ⟨hactive, hslots⟩ := h.kept (by omega) (by omega)
    obtain ⟨hactive', hslots'⟩ := h'.kept heven (by omega)
    exact ⟨hactive'.trans hactive, fun slot => (hslots' slot).trans (hslots slot)⟩

/-- A step of either process advances the file. -/
theorem advances_step {spec : FrameSpec} {s : State} (h : Inv spec s)
    (hfew : s.published.length < 2 ^ 63) (a : Action) :
    Advances spec s.mapping (step spec s a).mapping := by
  cases a with
  | publish pixels => exact (publish_spec h.mapped h.writer hfew pixels).advances
  | setState state => exact (setState_spec h.mapped h.writer state).advances
  | write pieces => exact (write_spec h.mapped h.writer hfew pieces).advances
  | snapshot =>
    have hsame : s.snapshot.mapping = s.mapping := by
      unfold State.snapshot
      split <;> rfl
    exact hsame ▸ .refl _ _
  | read pieces =>
    have hsame : (s.read spec pieces).mapping = s.mapping := by
      simp only [State.read, State.answer]
      repeat' split
      all_goals rfl
    rw [step, hsame]
    exact .refl _ _

section Watch

variable {spec : FrameSpec} {actions : List Action}

theorem published_stateAt (n : Nat) : (stateAt spec actions n).published <+:
    (run (step spec) (State.new spec) actions).published := by
  unfold stateAt
  conv => rhs; rw [← List.take_append_drop n actions, run_append]
  exact published_run _ _ _

theorem inv_stateAt (hspec : spec.Valid)
    (hfew : (run (step spec) (State.new spec) actions).published.length < 2 ^ 63) (n : Nat) :
    Inv spec (stateAt spec actions n) := by
  have hlen := (@published_stateAt spec actions n).length_le
  exact (Inv.new hspec).run _ (by unfold stateAt at hlen; omega)

theorem advances_stateAt (hspec : spec.Valid)
    (hfew : (run (step spec) (State.new spec) actions).published.length < 2 ^ 63) {n n' : Nat}
    (hle : n ≤ n') :
    Advances spec (stateAt spec actions n).mapping (stateAt spec actions n').mapping := by
  induction hle with
  | refl => exact .refl _ _
  | @step k _ ih =>
    refine ih.trans ?_
    have hlen := (@published_stateAt spec actions k).length_le
    have hinv := inv_stateAt hspec hfew k
    rcases Nat.lt_or_ge k actions.length with hk | hk
    · have hnext : stateAt spec actions (k + 1) =
          Frames.step spec (stateAt spec actions k) actions[k] := by
        unfold stateAt
        rw [List.take_succ_eq_append_getElem hk, run_append]
        rfl
      rw [hnext]
      exact advances_step hinv (by omega) _
    · have hsame : stateAt spec actions (k + 1) = stateAt spec actions k := by
        unfold stateAt
        rw [List.take_of_length_le hk, List.take_of_length_le (by omega)]
      rw [hsame]
      exact .refl _ _

/-- What the item shows is one frame of the writer, of a generation that the
file has reached. -/
def Showing (spec : FrameSpec) (actions : List Action) (item : FrameItem) (n : Nat) : Prop :=
  item.receivedSequence = true → ∃ pixels, item.image = some ⟨spec.width, spec.height, pixels⟩ ∧
    (frames spec (run (step spec) (State.new spec) actions).published)[item.sequence]? =
        some pixels ∧
      2 * item.sequence ≤ generation (stateAt spec actions n).mapping

/-- The item has opened the file of the writer. -/
structure Watches (spec : FrameSpec) (item : FrameItem) : Prop where
  fileBytes : item.fileBytes = spec.fileBytes
  layout : item.layout = spec

/-- **One poll beside the writer.**  A generation found again was there all
along, so every byte of the copy is one of the frame of that number. -/
theorem poll_showing (hspec : spec.Valid)
    (hfew : (run (step spec) (State.new spec) actions).published.length < 2 ^ 63)
    {path : String} {aged : Bool} {item : FrameItem} {times : Nat → Nat} (htimes : Monotone times)
    (hitem : Watches spec item) (h : Showing spec actions item (times 0)) :
    let item' := item.pollFrame path aged fun k => (stateAt spec actions (times k)).mapping
    Watches spec item' ∧ Showing spec actions item' (times (5 + spec.slotBytes)) ∧
      (item.receivedSequence = true →
        item'.receivedSequence = true ∧ item.sequence ≤ item'.sequence) := by
  have hadv : ∀ {i j}, i ≤ j → Advances spec (stateAt spec actions (times i)).mapping
      (stateAt spec actions (times j)).mapping := fun hle =>
    advances_stateAt hspec hfew (htimes hle)
  dsimp only
  rcases pollFrame_cases path aged (fun k => (stateAt spec actions (times k)).mapping) item with
    ⟨status, error, hpoll⟩ | ⟨before, slot, pixels, producerState, hsees, hpoll⟩
  · rw [hpoll]
    refine ⟨⟨hitem.fileBytes, hitem.layout⟩, fun hreceived => ?_, fun hreceived =>
      ⟨hreceived, Nat.le_refl _⟩⟩
    obtain ⟨pixels, himage, hframe, hle⟩ := h hreceived
    exact ⟨pixels, himage, hframe, hle.trans (hadv (Nat.zero_le _)).le⟩
  · have hbefore := loadGeneration_eq hsees.before_eq
    have hactive := load32_eq hsees.slot_eq
    have hafter := loadGeneration_eq hsees.after_eq
    have hpixels := hsees.pixels_eq
    rw [hitem.layout] at hafter hpixels
    obtain ⟨-, hlength, hbytes⟩ := readPieces_eq_some_iff.mp hpixels
    -- Between the two loads of the generation nothing has changed.
    have hsame : ∀ k, 2 ≤ k → k ≤ 5 + spec.slotBytes →
        activeSlot (stateAt spec actions (times k)).mapping =
            activeSlot (stateAt spec actions (times 2)).mapping ∧
          ∀ slot, readSlot spec (stateAt spec actions (times k)).mapping slot =
            readSlot spec (stateAt spec actions (times 2)).mapping slot := fun k hlow hhigh => by
      have hle := (hadv hlow).le
      have hle' := (hadv hhigh).le
      have heven := hsees.even
      exact (hadv hlow).kept (by omega) (by omega)
    have hslot : slot = activeSlot (stateAt spec actions (times 2)).mapping :=
      hactive.trans (hsame 4 (by omega) (by omega)).1
    have hwhole : pixels = readSlot spec (stateAt spec actions (times 2)).mapping slot := by
      apply List.ext_getElem?
      intro i
      by_cases hi : i < spec.slotBytes
      · rw [← (hsame (5 + i) (by omega) (by omega)).2 slot, readSlot, getElem?_slice, if_pos hi]
        exact (hbytes i hi).symm
      · rw [List.getElem?_eq_none (by omega), readSlot, getElem?_slice, if_neg hi]
    have hshows := (inv_stateAt hspec hfew (times 2)).writer.shows_even (hbefore ▸ hsees.even)
    rw [Shows, ← hbefore, ← hslot, ← hwhole] at hshows
    obtain ⟨newer, hnewer⟩ := @published_stateAt spec actions (times 2)
    have hframe := getElem?_frames_append hshows newer
    rw [hnewer] at hframe
    rw [hpoll]
    refine ⟨⟨hitem.fileBytes, hitem.layout⟩, fun _ => ⟨pixels, ?_, hframe, ?_⟩, fun hreceived =>
      ⟨rfl, ?_⟩⟩
    · rw [FrameItem.install, hitem.layout]
    · rw [FrameItem.install]
      dsimp only
      omega
    · obtain ⟨-, -, -, hle⟩ := h hreceived
      have hgeneration := (hadv (Nat.zero_le 2)).le
      rw [FrameItem.install]
      dsimp only
      omega

/-- The file of the writer opens. -/
theorem open_watches (hspec : spec.Valid)
    (hfew : (run (step spec) (State.new spec) actions).published.length < 2 ^ 63)
    (path : String) (item : FrameItem) (times : Nat → Nat) :
    ∃ item', Watches spec item' ∧ item'.receivedSequence = false ∧
      (item.openFrameFile path .file fun k => (stateAt spec actions (times k)).mapping) =
        item'.pollFrame path false fun k => (stateAt spec actions (times (2 + k))).mapping := by
  have hlength := (inv_stateAt hspec hfew (times 0)).mapped.length_eq
  have hmapped := (inv_stateAt hspec hfew (times 1)).mapped
  have hheader := hmapped.header
  rw [← hmapped.length_eq] at hheader
  have hitem := item_validateHeader_eq (validateHeader_iff.mp hheader)
  rw [hmapped.length_eq] at hitem
  have hsize : ¬ (spec.fileBytes < headerBytes ∨ maxMappingBytes < spec.fileBytes) := by
    have hlow := hspec.headerBytes_le
    have hhigh := hspec.fileBytes_le
    omega
  unfold FrameItem.openFrameFile
  dsimp only
  rw [hlength, if_neg hsize, hitem]
  exact ⟨_, ⟨rfl, rfl⟩, rfl, rfl⟩

/-- After each poll. -/
theorem watch_showing (hspec : spec.Valid)
    (hfew : (run (step spec) (State.new spec) actions).published.length < 2 ^ 63)
    {path : String} {clock : Nat → Nat} (hclock : Monotone clock) (aged : Nat → Bool)
    (item : FrameItem) (n : Nat) :
    Watches spec (watch path spec actions clock aged item n) ∧
      Showing spec actions (watch path spec actions clock aged item n)
        (clock ((n + 1) * (8 + spec.slotBytes))) := by
  have hlater : ∀ {item : FrameItem} {n n' : Nat}, n ≤ n' → Showing spec actions item n →
      Showing spec actions item n' := fun hle h hreceived => by
    obtain ⟨pixels, himage, hframe, hbound⟩ := h hreceived
    exact ⟨pixels, himage, hframe, hbound.trans (advances_stateAt hspec hfew hle).le⟩
  induction n with
  | zero =>
    obtain ⟨item', hitem, hfresh, hopen⟩ := open_watches hspec hfew path item clock
    have hnone : Showing spec actions item' (clock (2 + 0)) := fun h => by
      rw [hfresh] at h
      cases h
    have htimes : Monotone fun k => clock (2 + k) := fun i j hij => hclock (by omega)
    obtain ⟨hwatches, hshowing, -⟩ := @poll_showing _ _ hspec hfew path false _ _ htimes hitem hnone
    rw [watch, hopen]
    exact ⟨hwatches, hlater (hclock (by omega)) hshowing⟩
  | succ n ih =>
    obtain ⟨hitem, hshowing⟩ := ih
    have htimes : Monotone fun k => clock ((n + 1) * (8 + spec.slotBytes) + k) :=
      fun i j hij => hclock (by omega)
    obtain ⟨hwatches, hshowing', -⟩ :=
      @poll_showing _ _ hspec hfew path (aged n) _ _ htimes hitem hshowing
    refine ⟨hwatches, hlater (hclock ?_) hshowing'⟩
    rw [Nat.succ_mul (n + 1)]
    omega

/-- The sequences that the item shows do not go back. -/
theorem watch_ordered (hspec : spec.Valid)
    (hfew : (run (step spec) (State.new spec) actions).published.length < 2 ^ 63)
    {path : String} {clock : Nat → Nat} (hclock : Monotone clock) (aged : Nat → Bool)
    (item : FrameItem) {n n' : Nat} (hle : n ≤ n')
    (hreceived : (watch path spec actions clock aged item n).receivedSequence = true) :
    (watch path spec actions clock aged item n').receivedSequence = true ∧
      (watch path spec actions clock aged item n).sequence ≤
        (watch path spec actions clock aged item n').sequence := by
  induction hle with
  | refl => exact ⟨hreceived, Nat.le_refl _⟩
  | @step k _ ih =>
    obtain ⟨hitem, hshowing⟩ := watch_showing hspec hfew hclock aged item k
    have htimes : Monotone fun i => clock ((k + 1) * (8 + spec.slotBytes) + i) :=
      fun i j hij => hclock (by omega)
    obtain ⟨-, -, hnext⟩ := @poll_showing _ _ hspec hfew path (aged k) _ _ htimes hitem hshowing
    obtain ⟨hreceived', hle'⟩ := hnext ih.1
    exact ⟨hreceived', ih.2.trans hle'⟩

end Watch

/-- **The two readers.**  Of a file that is left alone, the item of the desktop
shows what a snapshot returns if and only if no frame can be shown whose
producer state the protocol does not know; and beside a writer, whatever looks
at the file come after which of its steps, each image shown is byte for byte the
frame that its sequence counts, and sequences do not go back. -/
theorem readers_agree_iff (path : String) (item : FrameItem) :
    (∀ aged m, itemAccepts path aged item m = readerAccepts m ↔
      ∀ spec, validateHeader m.length (fun _ => m) = .ok spec → generation m % 2 = 0 →
        activeSlot m < slotCount →
          (ProducerState.fromRaw (readU32 m offsetProducerState)).isSome = true) ∧
    ∀ width height spec, FrameSpec.new width height = .ok spec → ∀ actions,
      (run (step spec) (State.new spec) actions).published.length < 2 ^ 63 →
        ∀ clock, Monotone clock → ∀ aged n,
          let shown := watch path spec actions clock aged item
          ((shown n).receivedSequence = true → ∃ pixels,
            (shown n).image = some ⟨width, height, pixels⟩ ∧
              (frames spec (run (step spec) (State.new spec) actions).published)[
                (shown n).sequence]? = some pixels) ∧
          ∀ n', n ≤ n' → (shown n).receivedSequence = true →
            (shown n').receivedSequence = true ∧ (shown n).sequence ≤ (shown n').sequence := by
  refine ⟨fun aged m => accepts_iff, ?_⟩
  intro width height spec hspec actions hfew clock hclock aged n
  obtain ⟨rfl, rfl, hvalid⟩ := new_ok hspec
  refine ⟨fun hreceived => ?_, fun n' hle => watch_ordered hvalid hfew hclock aged item hle⟩
  obtain ⟨pixels, himage, hframe, -⟩ := (watch_showing hvalid hfew hclock aged item n).2 hreceived
  exact ⟨pixels, himage, hframe⟩

/-- The new file of a 1x1 frame, and its writer. -/
theorem readers_agree_iff_onePixel :
    let m := initializeHeader (List.replicate 72 0) ⟨1, 1, 4, 4, 72⟩
    let shown := watch "frame" ⟨1, 1, 4, 4, 72⟩ onePixelActions id (fun _ => false) .new
    itemAccepts "frame" false .new m = readerAccepts m ∧
      ((shown 1).receivedSequence = true → ∃ pixels, (shown 1).image = some ⟨1, 1, pixels⟩ ∧
        (frames ⟨1, 1, 4, 4, 72⟩ (run (step ⟨1, 1, 4, 4, 72⟩) (State.new ⟨1, 1, 4, 4, 72⟩)
          onePixelActions).published)[(shown 1).sequence]? = some pixels) := by
  refine ⟨((readers_agree_iff _ _).1 _ _).mpr fun spec _ _ _ => by decide +kernel, ?_⟩
  exact ((readers_agree_iff _ _).2 1 1 _ (by decide) _ (by decide +kernel) _ monotone_id _ 1).1

/-- A file whose producer state is 9 is shown on the desktop, and no snapshot
returns it. -/
theorem readers_disagree :
    let m := storeU32 (initializeHeader (List.replicate 72 0) ⟨1, 1, 4, 4, 72⟩)
      offsetProducerState 9
    itemAccepts "frame" false .new m = some (⟨1, 1, [0, 0, 0, 0]⟩, 0) ∧ readerAccepts m = none := by
  decide +kernel

end Kwe.Frames
