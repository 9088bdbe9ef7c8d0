import Kwe.Foundation.Runs
import Kwe.Frames.Header

/-!
One writer and one reader of a shared frame file, step by step: each atomic
access to the header is one step, and a slot is copied piece by piece.

* `reached_whole`: every frame a snapshot returns is one that was published
  (or the zero frame of the new file), whole, its sequence counts the publishes
  up to it, and the sequences of one reader never go back.

The generation is even exactly while no slot is being written, and it only
grows; a reader that finds the same even generation before and after its copy
has copied from a slot nobody wrote to in between.
-/

namespace Kwe.Frames

open Foundation.Bytes

/-! ## The steps -/

/-- A part of a copy: where it starts and how many bytes it has. -/
abbrev Piece := Nat × Nat

def Piece.Has (p : Piece) (i : Nat) : Prop := p.1 ≤ i ∧ i < p.1 + p.2

instance (p : Piece) (i : Nat) : Decidable (p.Has i) := inferInstanceAs (Decidable (_ ∧ _))

/-- The pieces lie in a copy of `count` bytes and make up all of it, in any
order. -/
def Splits (pieces : List Piece) (count : Nat) : Prop :=
  (∀ p ∈ pieces, p.1 + p.2 ≤ count) ∧ ∀ i < count, ∃ p ∈ pieces, p.Has i

instance (pieces : List Piece) (count : Nat) : Decidable (Splits pieces count) :=
  inferInstanceAs (Decidable (_ ∧ _))

/-- Where `publish` is. -/
inductive WriterPc
  | idle
  /-- The generation is loaded. -/
  | loaded (pixels : List UInt8) (odd : Nat)
  /-- The odd generation is stored. -/
  | marked (pixels : List UInt8) (odd : Nat)
  /-- The active slot is loaded; `pieces` of the copy are left. -/
  | copying (pixels : List UInt8) (odd next offset : Nat) (pieces : List Piece)
  /-- The new active slot is stored. -/
  | switched (odd : Nat)
  /-- The producer state is stored. -/
  | running (odd : Nat)

/-- Where `snapshot` is, with `turns` of its loop to come. -/
inductive ReaderPc
  | idle
  | trying (turns : Nat)
  /-- The generation is loaded, and even. -/
  | entered (turns before : Nat)
  | validated (turns before : Nat) (spec : FrameSpec)
  /-- The active slot is loaded. -/
  | slotted (turns before : Nat) (spec : FrameSpec) (slot : Nat)
  /-- The producer state is loaded; `pieces` of the copy are left. -/
  | copying (turns before : Nat) (spec : FrameSpec) (state : ProducerState) (offset : Nat)
      (buffer : List UInt8) (pieces : List Piece)

/-- `published` are the frames passed to `publish`, oldest first, and `answers`
what `snapshot` returned, newest first. -/
structure State where
  mapping : List UInt8
  writer : WriterPc
  reader : ReaderPc
  published : List (List UInt8)
  answers : List (Except ProtocolError FrameSnapshot)

/-- The state right after `SharedFrameWriter::create`. -/
def State.new (spec : FrameSpec) : State where
  mapping := initializeHeader (List.replicate spec.fileBytes 0) spec
  writer := .idle
  reader := .idle
  published := []
  answers := []

/-- A step of either process.  `pieces` says how the copy that starts with this
step, if one does, will be split. -/
inductive Action
  | publish (pixels : List UInt8)
  | setState (state : ProducerState)
  | write (pieces : List Piece)
  | snapshot
  | read (pieces : List Piece)

def storeU32 (m : List UInt8) (offset n : Nat) : List UInt8 := patch m offset (toLe 4 n)

def storeU64 (m : List UInt8) (offset n : Nat) : List UInt8 := patch m offset (toLe 8 n)

/-- The first step of `publish`; frames of the wrong length are refused. -/
def State.publish (spec : FrameSpec) (pixels : List UInt8) (s : State) : State :=
  match s.writer with
  | .idle =>
    if pixels.length ≠ spec.pixelBytes then s
    else { s with
      writer := .loaded pixels (oddGeneration (readU64 s.mapping offsetGeneration))
      published := s.published ++ [pixels] }
  | _ => s

def State.setState (state : ProducerState) (s : State) : State :=
  match s.writer with
  | .idle => { s with mapping := storeU32 s.mapping offsetProducerState state.raw }
  | _ => s

/-- The next step of a `publish` under way. -/
def State.write (spec : FrameSpec) (pieces : List Piece) (s : State) : State :=
  match s.writer with
  | .idle => s
  | .loaded pixels odd =>
    { s with mapping := storeU64 s.mapping offsetGeneration odd, writer := .marked pixels odd }
  | .marked pixels odd =>
    let next := nextSlot (readU32 s.mapping offsetActiveSlot)
    match slotOffset spec next with
    | .error _ => { s with writer := .idle }
    | .ok offset =>
      if Splits pieces pixels.length then
        { s with writer := .copying pixels odd next offset pieces }
      else s
  | .copying pixels odd next offset (piece :: rest) =>
    { s with
      mapping := patch s.mapping (offset + piece.1) (slice pixels piece.1 piece.2)
      writer := .copying pixels odd next offset rest }
  | .copying _ odd next _ [] =>
    { s with mapping := storeU32 s.mapping offsetActiveSlot next, writer := .switched odd }
  | .switched odd =>
    { s with
      mapping := storeU32 s.mapping offsetProducerState ProducerState.running.raw
      writer := .running odd }
  | .running odd =>
    { s with
      mapping := storeU64 s.mapping offsetGeneration ((odd + 1) % 2 ^ 64)
      writer := .idle }

def State.answer (result : Except ProtocolError FrameSnapshot) (s : State) : State :=
  { s with reader := .idle, answers := result :: s.answers }

def State.snapshot (s : State) : State :=
  match s.reader with
  | .idle => { s with reader := .trying maxSnapshotAttempts }
  | _ => s

/-- The next step of a `snapshot` under way. -/
def State.read (spec : FrameSpec) (pieces : List Piece) (s : State) : State :=
  match s.reader with
  | .idle => s
  | .trying 0 => s.answer (.error .busy)
  | .trying (turns + 1) =>
    let before := readU64 s.mapping offsetGeneration
    if before % 2 ≠ 0 then { s with reader := .trying turns }
    else { s with reader := .entered turns before }
  | .entered turns before =>
    match validateHeader spec.fileBytes fun _ => s.mapping with
    | .error e => s.answer (.error e)
    | .ok found => { s with reader := .validated turns before found }
  | .validated turns before found =>
    { s with reader := .slotted turns before found (readU32 s.mapping offsetActiveSlot) }
  | .slotted turns before found slot =>
    match ProducerState.fromRaw (readU32 s.mapping offsetProducerState) with
    | none => s.answer (.error (.invalidHeader "unknown producer state"))
    | some state =>
      match slotOffset found slot with
      | .error e => s.answer (.error e)
      | .ok offset =>
        if Splits pieces found.pixelBytes then
          { s with reader :=
              .copying turns before found state offset (List.replicate found.pixelBytes 0) pieces }
        else s
  | .copying turns before found state offset buffer (piece :: rest) =>
    let bytes := slice s.mapping (offset + piece.1) piece.2
    { s with reader :=
        .copying turns before found state offset (patch buffer piece.1 bytes) rest }
  | .copying turns before found state _ buffer [] =>
    let after := readU64 s.mapping offsetGeneration
    if before = after ∧ after % 2 = 0 then s.answer (.ok ⟨found, after / 2, state, buffer⟩)
    else { s with reader := .trying turns }

/-- One step of the two processes over a mapping of `spec.fileBytes` bytes.  An
action that is not the next one of its process does nothing. -/
def step (spec : FrameSpec) (s : State) : Action → State
  | .publish pixels => s.publish spec pixels
  | .setState state => s.setState state
  | .write pieces => s.write spec pieces
  | .snapshot => s.snapshot
  | .read pieces => s.read spec pieces

/-! ## What a write leaves alone -/

/-- The bytes of one slot. -/
def readSlot (spec : FrameSpec) (m : List UInt8) (slot : Nat) : List UInt8 :=
  slice m (headerBytes + spec.slotBytes * slot) spec.slotBytes

/-- The generation word. -/
def generation (m : List UInt8) : Nat := readU64 m offsetGeneration

/-- The active slot word. -/
def activeSlot (m : List UInt8) : Nat := readU32 m offsetActiveSlot

theorem readU32_patch_apart {m : List UInt8} {o offset : Nat} {bytes : List UInt8}
    (h : o + bytes.length ≤ m.length) (hd : offset + 4 ≤ o ∨ o + bytes.length ≤ offset) :
    readU32 (patch m o bytes) offset = readU32 m offset := by
  rw [readU32, slice_patch_disjoint h hd, ← readU32]

theorem readU64_patch_apart {m : List UInt8} {o offset : Nat} {bytes : List UInt8}
    (h : o + bytes.length ≤ m.length) (hd : offset + 8 ≤ o ∨ o + bytes.length ≤ offset) :
    readU64 (patch m o bytes) offset = readU64 m offset := by
  rw [readU64, slice_patch_disjoint h hd, ← readU64]

/-- The words `validate_header` looks at end before the generation. -/
theorem validateHeader_patch {m : List UInt8} {o : Nat} {bytes : List UInt8} (len : Nat)
    (h : o + bytes.length ≤ m.length) (ho : offsetGeneration ≤ o) :
    validateHeader len (fun _ => patch m o bytes) = validateHeader len (fun _ => m) := by
  simp only [offsetGeneration] at ho
  have hmagic : slice (patch m o bytes) 0 8 = slice m 0 8 :=
    slice_patch_disjoint h (by omega)
  have h32 : ∀ offset, offset + 4 ≤ 48 → readU32 (patch m o bytes) offset = readU32 m offset :=
    fun offset hoff => readU32_patch_apart h (by omega)
  have h64 : readU64 (patch m o bytes) offsetFileBytes = readU64 m offsetFileBytes :=
    readU64_patch_apart h (by simp only [offsetFileBytes]; omega)
  unfold validateHeader
  simp only [hmagic, h64, h32 offsetVersion (by decide), h32 offsetHeaderBytes (by decide),
    h32 offsetPixelFormat (by decide), h32 offsetSlotCount (by decide),
    h32 offsetWidth (by decide), h32 offsetHeight (by decide), h32 offsetStride (by decide)]

/-- The mapping of a writer created for `spec`: of its size, with its header. -/
structure Mapped (spec : FrameSpec) (m : List UInt8) : Prop where
  valid : spec.Valid
  length_eq : m.length = spec.fileBytes
  header : validateHeader spec.fileBytes (fun _ => m) = .ok spec

section Writes

variable {spec : FrameSpec} {m : List UInt8}

theorem Mapped.length_ge (h : Mapped spec m) : 64 ≤ m.length := by
  have := h.valid.headerBytes_le
  rw [h.length_eq]
  exact this

theorem Mapped.slot_le (h : Mapped spec m) {slot : Nat} (hs : slot < slotCount) :
    headerBytes + spec.slotBytes * slot + spec.slotBytes ≤ m.length := by
  rw [h.length_eq]
  exact (h.valid.fits.slot slot hs).2.2

theorem Mapped.patch (h : Mapped spec m) {o : Nat} {bytes : List UInt8}
    (hfit : o + bytes.length ≤ m.length) (ho : offsetGeneration ≤ o) :
    Mapped spec (patch m o bytes) :=
  ⟨h.valid, by rw [length_patch hfit, h.length_eq], by
    rw [validateHeader_patch _ hfit ho, h.header]⟩

theorem generation_storeU64 (h : Mapped spec m) {n : Nat} (hn : n < 2 ^ 64) :
    generation (storeU64 m offsetGeneration n) = n := by
  have hread := @slice_patch_same m offsetGeneration (toLe 8 n)
    (by rw [length_toLe]; exact Nat.le_trans (by decide) h.length_ge)
  rw [length_toLe] at hread
  rw [generation, readU64, storeU64, hread, fromLe_toLe (by simpa using hn)]

theorem activeSlot_storeU32 (h : Mapped spec m) {n : Nat} (hn : n < 2 ^ 32) :
    activeSlot (storeU32 m offsetActiveSlot n) = n := by
  have hread := @slice_patch_same m offsetActiveSlot (toLe 4 n)
    (by rw [length_toLe]; exact Nat.le_trans (by decide) h.length_ge)
  rw [length_toLe] at hread
  rw [activeSlot, readU32, storeU32, hread, fromLe_toLe (by simpa using hn)]

/-- A write inside the header leaves the slots alone. -/
theorem readSlot_patch_header (h : Mapped spec m) {o : Nat} {bytes : List UInt8}
    (ho : o + bytes.length ≤ 64) (slot : Nat) :
    readSlot spec (Foundation.Bytes.patch m o bytes) slot = readSlot spec m slot :=
  slice_patch_disjoint (Nat.le_trans ho h.length_ge)
    (Or.inr (Nat.le_trans ho (Nat.le_add_right ..)))

/-- A write past the active slot word leaves both words alone. -/
theorem words_patch {o : Nat} {bytes : List UInt8}
    (hfit : o + bytes.length ≤ m.length) (ho : offsetProducerState ≤ o) :
    generation (Foundation.Bytes.patch m o bytes) = generation m ∧
      activeSlot (Foundation.Bytes.patch m o bytes) = activeSlot m := by
  simp only [offsetProducerState] at ho
  constructor
  · exact readU64_patch_apart hfit (by simp only [offsetGeneration]; omega)
  · exact readU32_patch_apart hfit (by simp only [offsetActiveSlot]; omega)

end Writes

/-! ## The writer -/

/-- The frames a snapshot may return: the zero frame of the new file, then what
was published. -/
def frames (spec : FrameSpec) (published : List (List UInt8)) : List (List UInt8) :=
  List.replicate spec.slotBytes 0 :: published

/-- The active slot holds frame number `k`. -/
def Shows (spec : FrameSpec) (m : List UInt8) (published : List (List UInt8)) (k : Nat) : Prop :=
  (frames spec published)[k]? = some (readSlot spec m (activeSlot m))

/-- What is not yet to be copied by one of `pieces` has been. -/
def Copied (pieces : List Piece) (count : Nat) (source target : Nat → Option UInt8) : Prop :=
  ∀ i < count, (∃ p ∈ pieces, p.Has i) ∨ target i = source i

theorem Copied.of_splits {pieces : List Piece} {count : Nat} {source target : Nat → Option UInt8}
    (h : Splits pieces count) : Copied pieces count source target :=
  fun i hi => Or.inl (h.2 i hi)

/-- Copying one piece. -/
theorem Copied.next {piece : Piece} {rest : List Piece} {count : Nat}
    {source target target' : Nat → Option UInt8}
    (h : Copied (piece :: rest) count source target)
    (hin : ∀ i, piece.Has i → target' i = source i)
    (hout : ∀ i, ¬ piece.Has i → target' i = target i) : Copied rest count source target' := by
  intro i hi
  by_cases hhas : piece.Has i
  · exact Or.inr (hin i hhas)
  · rcases h i hi with ⟨p, hp, hpi⟩ | hcopied
    · rcases List.mem_cons.mp hp with rfl | hp
      · exact absurd hpi hhas
      · exact Or.inl ⟨p, hp, hpi⟩
    · exact Or.inr (by rw [hout i hhas, hcopied])

theorem Copied.done {count : Nat} {source target : Nat → Option UInt8}
    (h : Copied [] count source target) : ∀ i < count, target i = source i := by
  intro i hi
  rcases h i hi with ⟨p, hp, -⟩ | hcopied
  · simp at hp
  · exact hcopied

/-- What holds of the mapping at each point of `publish`. -/
def WriterInv (spec : FrameSpec) (m : List UInt8) (published : List (List UInt8)) :
    WriterPc → Prop
  | .idle => generation m = 2 * published.length ∧ Shows spec m published published.length
  | .loaded pixels odd => ∃ older, published = older ++ [pixels] ∧
      pixels.length = spec.slotBytes ∧ odd = 2 * older.length + 1 ∧
      generation m = 2 * older.length ∧ Shows spec m older older.length
  | .marked pixels odd => ∃ older, published = older ++ [pixels] ∧
      pixels.length = spec.slotBytes ∧ odd = 2 * older.length + 1 ∧ generation m = odd
  | .copying pixels odd next offset pieces => ∃ older, published = older ++ [pixels] ∧
      pixels.length = spec.slotBytes ∧ odd = 2 * older.length + 1 ∧ generation m = odd ∧
      next < slotCount ∧ offset = headerBytes + spec.slotBytes * next ∧
      (∀ p ∈ pieces, p.1 + p.2 ≤ spec.slotBytes) ∧
      Copied pieces spec.slotBytes (fun i => pixels[i]?) (fun i => m[offset + i]?)
  | .switched odd | .running odd =>
      odd + 1 = 2 * published.length ∧ generation m = odd ∧
      Shows spec m published published.length

theorem getElem?_frames_append {spec : FrameSpec} {older : List (List UInt8)} {k : Nat}
    {pixels : List UInt8} (h : (frames spec older)[k]? = some pixels)
    (newer : List (List UInt8)) : (frames spec (older ++ newer))[k]? = some pixels := by
  have hk : k < (frames spec older).length := by
    by_contra hge
    rw [List.getElem?_eq_none (by omega)] at h
    simp at h
  rw [frames, ← List.cons_append, ← frames, List.getElem?_append_left hk, h]

/-- At an even generation the active slot holds the frame of that number. -/
theorem WriterInv.shows_even {spec : FrameSpec} {m : List UInt8}
    {published : List (List UInt8)} {writer : WriterPc} (h : WriterInv spec m published writer)
    (heven : generation m % 2 = 0) : Shows spec m published (generation m / 2) := by
  cases writer with
  | idle =>
    obtain ⟨hgen, hshows⟩ := h
    rwa [show generation m / 2 = published.length by omega]
  | loaded pixels odd =>
    obtain ⟨older, rfl, -, -, hgen, hshows⟩ := h
    rw [show generation m / 2 = older.length by omega]
    exact getElem?_frames_append hshows [pixels]
  | marked pixels odd =>
    obtain ⟨older, -, -, hodd, hgen⟩ := h
    omega
  | copying pixels odd next offset pieces =>
    obtain ⟨older, -, -, hodd, hgen, -⟩ := h
    omega
  | switched odd =>
    obtain ⟨hodd, hgen, -⟩ := h
    omega
  | running odd =>
    obtain ⟨hodd, hgen, -⟩ := h
    omega

/-- What a reader may rely on across a step of the writer: the generation does
not go back, and while it stays at an even value no slot changes. -/
structure Advances (spec : FrameSpec) (m m' : List UInt8) : Prop where
  le : generation m ≤ generation m'
  kept : generation m' % 2 = 0 → generation m' = generation m →
    activeSlot m' = activeSlot m ∧ ∀ slot, readSlot spec m' slot = readSlot spec m slot

theorem Advances.refl (spec : FrameSpec) (m : List UInt8) : Advances spec m m :=
  ⟨Nat.le_refl _, fun _ _ => ⟨rfl, fun _ => rfl⟩⟩

section Writer

variable {spec : FrameSpec} {m : List UInt8} {published : List (List UInt8)}

/-- The producer state may be stored at any time. -/
theorem storeState_spec (h : Mapped spec m) (raw : Nat) :
    let m' := storeU32 m offsetProducerState raw
    Mapped spec m' ∧ generation m' = generation m ∧ activeSlot m' = activeSlot m ∧
      ∀ slot, readSlot spec m' slot = readSlot spec m slot := by
  have hge := h.length_ge
  have hfit : offsetProducerState + (toLe 4 raw).length ≤ m.length := by
    rw [length_toLe, offsetProducerState]
    omega
  obtain ⟨hgen, hactive⟩ := words_patch hfit (Nat.le_refl _)
  refine ⟨h.patch hfit (by decide), hgen, hactive, fun slot => ?_⟩
  exact readSlot_patch_header h (by rw [length_toLe, offsetProducerState]) slot

theorem Shows.of_eq {m' : List UInt8} {k : Nat} (hs : Shows spec m published k)
    (hactive : activeSlot m' = activeSlot m)
    (hslot : ∀ slot, readSlot spec m' slot = readSlot spec m slot) :
    Shows spec m' published k := by
  rw [Shows, hactive, hslot]
  exact hs

/-- A step of the writer that ends at an odd generation. -/
theorem Advances.of_odd {m' : List UInt8} (hle : generation m ≤ generation m')
    (hodd : generation m' % 2 = 1) : Advances spec m m' :=
  ⟨hle, fun heven => by omega⟩

/-- `publish` loads an even generation. -/
theorem oddGeneration_even {n : Nat} (hn : n < 2 ^ 63) :
    oddGeneration (2 * n) = 2 * n + 1 := by
  unfold oddGeneration
  rw [if_pos (by omega), Nat.mod_eq_of_lt (by omega)]

/-- Storing a new generation. -/
theorem storeGeneration_spec (h : Mapped spec m) {n : Nat} (hn : n < 2 ^ 64) :
    let m' := storeU64 m offsetGeneration n
    Mapped spec m' ∧ generation m' = n ∧ activeSlot m' = activeSlot m ∧
      ∀ slot, readSlot spec m' slot = readSlot spec m slot := by
  have hge := h.length_ge
  have hfit : offsetGeneration + (toLe 8 n).length ≤ m.length := by
    rw [length_toLe, offsetGeneration]
    omega
  refine ⟨h.patch hfit (Nat.le_refl _), generation_storeU64 h hn, ?_, fun slot => ?_⟩
  · exact readU32_patch_apart hfit (by simp [offsetGeneration, offsetActiveSlot])
  · exact readSlot_patch_header h (by simp [offsetGeneration]) slot

/-- Storing a new active slot. -/
theorem storeActive_spec (h : Mapped spec m) {next : Nat} (hn : next < slotCount) :
    let m' := storeU32 m offsetActiveSlot next
    Mapped spec m' ∧ generation m' = generation m ∧ activeSlot m' = next ∧
      ∀ slot, readSlot spec m' slot = readSlot spec m slot := by
  have hge := h.length_ge
  have hfit : offsetActiveSlot + (toLe 4 next).length ≤ m.length := by
    rw [length_toLe, offsetActiveSlot]
    omega
  simp only [slotCount] at hn
  refine ⟨h.patch hfit (by decide), ?_, activeSlot_storeU32 h (by omega), fun slot => ?_⟩
  · exact readU64_patch_apart hfit (by simp [offsetGeneration, offsetActiveSlot])
  · exact readSlot_patch_header h (by simp [offsetActiveSlot]) slot

/-- Storing one piece of the frame. -/
theorem storePiece_spec (h : Mapped spec m) {next offset : Nat} (hn : next < slotCount)
    (hoffset : offset = headerBytes + spec.slotBytes * next) {pixels : List UInt8}
    (hpixels : pixels.length = spec.slotBytes) {piece : Piece} {rest : List Piece}
    (hfits : piece.1 + piece.2 ≤ spec.slotBytes)
    (hcopied : Copied (piece :: rest) spec.slotBytes (fun i => pixels[i]?)
      (fun i => m[offset + i]?)) :
    let m' := patch m (offset + piece.1) (slice pixels piece.1 piece.2)
    Mapped spec m' ∧ generation m' = generation m ∧
      Copied rest spec.slotBytes (fun i => pixels[i]?) (fun i => m'[offset + i]?) := by
  have hslot := h.slot_le hn
  have hlength : (slice pixels piece.1 piece.2).length = piece.2 :=
    length_slice (by omega)
  have hfit : offset + piece.1 + (slice pixels piece.1 piece.2).length ≤ m.length := by
    rw [hlength]
    omega
  have hheader : 64 ≤ offset := by
    rw [hoffset, headerBytes]
    omega
  refine ⟨h.patch hfit (by simp only [offsetGeneration]; omega),
    (words_patch hfit (by simp only [offsetProducerState]; omega)).1, ?_⟩
  refine hcopied.next (fun i hi => ?_) (fun i hi => ?_)
  · obtain ⟨hlow, hhigh⟩ := hi
    rw [getElem?_patch hfit, if_pos (by omega), getElem?_slice, if_pos (by omega)]
    congr 1
    omega
  · have hnot : ¬ (piece.1 ≤ i ∧ i < piece.1 + piece.2) := hi
    rw [getElem?_patch hfit, if_neg (by omega)]

/-- The slot holds the frame once every piece is copied. -/
theorem readSlot_of_copied {next offset : Nat}
    (hoffset : offset = headerBytes + spec.slotBytes * next) {pixels : List UInt8}
    (hpixels : pixels.length = spec.slotBytes)
    (hcopied : Copied [] spec.slotBytes (fun i => pixels[i]?) (fun i => m[offset + i]?)) :
    readSlot spec m next = pixels := by
  apply List.ext_getElem?
  intro i
  rw [readSlot, getElem?_slice, ← hoffset]
  split
  next hi => exact hcopied.done i hi
  next hi => rw [List.getElem?_eq_none (by omega)]

end Writer

/-- What a step of the writer does for the rest. -/
structure WriterStep (spec : FrameSpec) (s s' : State) : Prop where
  mapped : Mapped spec s'.mapping
  writer : WriterInv spec s'.mapping s'.published s'.writer
  advances : Advances spec s.mapping s'.mapping
  published : s.published <+: s'.published
  reader : s'.reader = s.reader
  answers : s'.answers = s.answers

theorem WriterStep.refl {spec : FrameSpec} {s : State} (hm : Mapped spec s.mapping)
    (hw : WriterInv spec s.mapping s.published s.writer) : WriterStep spec s s :=
  ⟨hm, hw, .refl _ _, List.prefix_refl _, rfl, rfl⟩

theorem publish_spec {spec : FrameSpec} {s : State} (hm : Mapped spec s.mapping)
    (hw : WriterInv spec s.mapping s.published s.writer) (hfew : s.published.length < 2 ^ 63)
    (pixels : List UInt8) : WriterStep spec s (s.publish spec pixels) := by
  unfold State.publish
  split
  next hidle =>
    split
    next => exact .refl hm hw
    next hlength =>
      rw [hidle] at hw
      obtain ⟨hgen, hshows⟩ := hw
      have hread : readU64 s.mapping offsetGeneration = 2 * s.published.length := hgen
      refine ⟨hm, ?_, .refl _ _, List.prefix_append _ _, rfl, rfl⟩
      refine ⟨s.published, rfl, ?_, ?_, hgen, hshows⟩
      · rw [← hm.valid.fits.pixelBytes_eq]
        exact not_not.mp hlength
      · rw [hread, oddGeneration_even hfew]
  next => exact .refl hm hw

theorem setState_spec {spec : FrameSpec} {s : State} (hm : Mapped spec s.mapping)
    (hw : WriterInv spec s.mapping s.published s.writer) (state : ProducerState) :
    WriterStep spec s (s.setState state) := by
  unfold State.setState
  split
  next hidle =>
    rw [hidle] at hw
    obtain ⟨hmapped, hgen, hactive, hslot⟩ := storeState_spec hm state.raw
    refine ⟨hmapped, ?_, ⟨hgen.ge, fun _ _ => ⟨hactive, hslot⟩⟩, List.prefix_refl _, rfl, rfl⟩
    dsimp only
    rw [hidle]
    exact ⟨hgen.trans hw.1, hw.2.of_eq hactive hslot⟩
  next => exact .refl hm hw

theorem write_spec {spec : FrameSpec} {s : State} (hm : Mapped spec s.mapping)
    (hw : WriterInv spec s.mapping s.published s.writer) (hfew : s.published.length < 2 ^ 63)
    (pieces : List Piece) : WriterStep spec s (s.write spec pieces) := by
  unfold State.write
  split
  next => exact .refl hm hw
  next pixels odd hpc =>
    rw [hpc] at hw
    obtain ⟨older, hpub, hpixels, hodd, hgen, -⟩ := hw
    have hlen : s.published.length = older.length + 1 := by simp [hpub]
    obtain ⟨hmapped, hgen', -, -⟩ := storeGeneration_spec hm (n := odd) (by omega)
    refine ⟨hmapped, ⟨older, hpub, hpixels, hodd, hgen'⟩, ?_, List.prefix_refl _, rfl, rfl⟩
    exact .of_odd (by dsimp only; omega) (by dsimp only; omega)
  next pixels odd hpc =>
    rw [hpc] at hw
    obtain ⟨older, hpub, hpixels, hodd, hgen⟩ := hw
    have hnext := nextSlot_lt (readU32 s.mapping offsetActiveSlot)
    dsimp only
    rw [(hm.valid.fits.slot _ hnext).1]
    dsimp only
    split
    next hsplits =>
      rw [hpixels] at hsplits
      refine ⟨hm, ?_, .refl _ _, List.prefix_refl _, rfl, rfl⟩
      exact ⟨older, hpub, hpixels, hodd, hgen, hnext, rfl, hsplits.1, .of_splits hsplits⟩
    next => exact .refl hm (hpc ▸ ⟨older, hpub, hpixels, hodd, hgen⟩)
  next pixels odd next offset piece rest hpc =>
    rw [hpc] at hw
    obtain ⟨older, hpub, hpixels, hodd, hgen, hnext, hoffset, hpieces, hcopied⟩ := hw
    obtain ⟨hmapped, hgen', hcopied'⟩ :=
      storePiece_spec hm hnext hoffset hpixels (hpieces piece List.mem_cons_self) hcopied
    refine ⟨hmapped, ?_, .of_odd hgen'.ge ?_, List.prefix_refl _, rfl, rfl⟩
    · exact ⟨older, hpub, hpixels, hodd, hgen'.trans hgen, hnext, hoffset,
        fun p hp => hpieces p (List.mem_cons_of_mem _ hp), hcopied'⟩
    · dsimp only
      omega
  next pixels odd next offset hpc =>
    rw [hpc] at hw
    obtain ⟨older, hpub, hpixels, hodd, hgen, hnext, hoffset, -, hcopied⟩ := hw
    have hlen : s.published.length = older.length + 1 := by simp [hpub]
    obtain ⟨hmapped, hgen', hactive, hslot⟩ := storeActive_spec hm hnext
    refine ⟨hmapped, ⟨by dsimp only; omega, hgen'.trans hgen, ?_⟩, .of_odd hgen'.ge ?_, List.prefix_refl _,
      rfl, rfl⟩
    · rw [Shows, hactive, hslot, readSlot_of_copied hoffset hpixels hcopied]
      simp [frames, hpub]
    · dsimp only
      omega
  next odd hpc =>
    rw [hpc] at hw
    obtain ⟨hodd, hgen, hshows⟩ := hw
    obtain ⟨hmapped, hgen', hactive, hslot⟩ := storeState_spec hm ProducerState.running.raw
    refine ⟨hmapped, ⟨hodd, hgen'.trans hgen, hshows.of_eq hactive hslot⟩, .of_odd hgen'.ge ?_,
      List.prefix_refl _, rfl, rfl⟩
    dsimp only
    omega
  next odd hpc =>
    rw [hpc] at hw
    obtain ⟨hodd, hgen, hshows⟩ := hw
    have heven : (odd + 1) % 2 ^ 64 = odd + 1 := Nat.mod_eq_of_lt (by omega)
    rw [heven]
    obtain ⟨hmapped, hgen', hactive, hslot⟩ := storeGeneration_spec hm (n := odd + 1) (by omega)
    refine ⟨hmapped, ⟨hgen'.trans hodd, hshows.of_eq hactive hslot⟩, ⟨?_, ?_⟩, List.prefix_refl _,
      rfl, rfl⟩
    · dsimp only
      omega
    · dsimp only
      omega

/-! ## The reader -/

/-- The frames `snapshot` returned, newest first. -/
def State.snapshots (s : State) : List FrameSnapshot := s.answers.filterMap (·.toOption)

/-- What holds of the snapshots returned so far. -/
structure Returned (spec : FrameSpec) (m : List UInt8) (published : List (List UInt8))
    (snapshots : List FrameSnapshot) : Prop where
  whole : ∀ f ∈ snapshots, f.spec = spec ∧ (frames spec published)[f.sequence]? = some f.pixels
  past : ∀ f ∈ snapshots, 2 * f.sequence ≤ generation m
  ordered : snapshots.Pairwise fun newer older => older.sequence ≤ newer.sequence

/-- What a turn that found the even generation `before` may rely on. -/
structure Entered (m : List UInt8) (snapshots : List FrameSnapshot) (before : Nat) : Prop where
  even : before % 2 = 0
  le : before ≤ generation m
  past : ∀ f ∈ snapshots, 2 * f.sequence ≤ before

/-- What holds of the mapping at each point of `snapshot`. -/
def ReaderInv (spec : FrameSpec) (m : List UInt8) (snapshots : List FrameSnapshot) :
    ReaderPc → Prop
  | .idle | .trying _ => True
  | .entered _ before => Entered m snapshots before
  | .validated _ before found => Entered m snapshots before ∧ found = spec
  | .slotted _ before found slot => Entered m snapshots before ∧ found = spec ∧
      (generation m = before → slot = activeSlot m)
  | .copying _ before found _ offset buffer pieces => Entered m snapshots before ∧ found = spec ∧
      (∀ p ∈ pieces, p.1 + p.2 ≤ spec.slotBytes) ∧ buffer.length = spec.slotBytes ∧
      ∃ slot < slotCount, offset = headerBytes + spec.slotBytes * slot ∧
        (generation m = before → slot = activeSlot m ∧
          Copied pieces spec.slotBytes (fun i => (readSlot spec m slot)[i]?) (fun i => buffer[i]?))

/-- A step of the writer does not disturb the reader. -/
theorem ReaderInv.advance {spec : FrameSpec} {m m' : List UInt8}
    {snapshots : List FrameSnapshot} {reader : ReaderPc} (h : ReaderInv spec m snapshots reader)
    (hadv : Advances spec m m') : ReaderInv spec m' snapshots reader := by
  have hentered : ∀ {before}, Entered m snapshots before → Entered m' snapshots before :=
    fun he => ⟨he.even, Nat.le_trans he.le hadv.le, he.past⟩
  -- An even generation found again was there all along.
  have hsame : ∀ {before}, Entered m snapshots before → generation m' = before →
      generation m = before ∧ activeSlot m' = activeSlot m ∧
        ∀ slot, readSlot spec m' slot = readSlot spec m slot := by
    intro before he hgen
    have hle := he.le
    have hadvLe := hadv.le
    have heven := he.even
    have heq : generation m = before := by omega
    exact ⟨heq, hadv.kept (by omega) (by omega)⟩
  cases reader with
  | idle => trivial
  | trying turns => trivial
  | entered turns before => exact hentered h
  | validated turns before found => exact ⟨hentered h.1, h.2⟩
  | slotted turns before found slot =>
    obtain ⟨he, hfound, hslot⟩ := h
    refine ⟨hentered he, hfound, fun hgen => ?_⟩
    obtain ⟨hold, hactive, -⟩ := hsame he hgen
    rw [hactive]
    exact hslot hold
  | copying turns before found state offset buffer pieces =>
    obtain ⟨he, hfound, hpieces, hbuffer, slot, hlt, hoffset, hcopied⟩ := h
    refine ⟨hentered he, hfound, hpieces, hbuffer, slot, hlt, hoffset, fun hgen => ?_⟩
    obtain ⟨hold, hactive, hslots⟩ := hsame he hgen
    rw [hactive, hslots]
    exact hcopied hold

theorem Returned.advance {spec : FrameSpec} {m m' : List UInt8}
    {published published' : List (List UInt8)} {snapshots : List FrameSnapshot}
    (h : Returned spec m published snapshots) (hadv : Advances spec m m')
    (hpub : published <+: published') : Returned spec m' published' snapshots := by
  obtain ⟨newer, rfl⟩ := hpub
  refine ⟨fun f hf => ?_, fun f hf => Nat.le_trans (h.past f hf) hadv.le, h.ordered⟩
  exact ⟨(h.whole f hf).1, getElem?_frames_append (h.whole f hf).2 newer⟩

/-! ## Every reached state -/

structure Inv (spec : FrameSpec) (s : State) : Prop where
  mapped : Mapped spec s.mapping
  writer : WriterInv spec s.mapping s.published s.writer
  reader : ReaderInv spec s.mapping s.snapshots s.reader
  returned : Returned spec s.mapping s.published s.snapshots

theorem Inv.of_writerStep {spec : FrameSpec} {s s' : State} (h : Inv spec s)
    (hs : WriterStep spec s s') : Inv spec s' := by
  have hsnap : s'.snapshots = s.snapshots := by
    rw [State.snapshots, hs.answers, ← State.snapshots]
  refine ⟨hs.mapped, hs.writer, ?_, ?_⟩
  · rw [hsnap, hs.reader]
    exact h.reader.advance hs.advances
  · rw [hsnap]
    exact h.returned.advance hs.advances hs.published

/-- A refused or given up snapshot. -/
theorem Inv.answer_error {spec : FrameSpec} {s : State} (h : Inv spec s) (e : ProtocolError) :
    Inv spec (s.answer (.error e)) :=
  ⟨h.mapped, h.writer, trivial, h.returned⟩

theorem Inv.answer_ok {spec : FrameSpec} {s : State} (h : Inv spec s) {state : ProducerState}
    {buffer : List UInt8} (he : Entered s.mapping s.snapshots (generation s.mapping))
    (hbuffer : buffer = readSlot spec s.mapping (activeSlot s.mapping)) :
    Inv spec (s.answer (.ok ⟨spec, generation s.mapping / 2, state, buffer⟩)) := by
  refine ⟨h.mapped, h.writer, trivial, ?_⟩
  have hshows := h.writer.shows_even he.even
  rw [Shows, ← hbuffer] at hshows
  refine ⟨?_, ?_, ?_⟩
  · rintro f hf
    rcases List.mem_cons.mp hf with rfl | hf
    · exact ⟨rfl, hshows⟩
    · exact h.returned.whole f hf
  · rintro f hf
    rcases List.mem_cons.mp hf with rfl | hf
    · dsimp only [State.answer]
      omega
    · exact h.returned.past f hf
  · refine List.pairwise_cons.mpr ⟨fun f hf => ?_, h.returned.ordered⟩
    have hpast := he.past f hf
    dsimp only
    omega

theorem Inv.read_piece {spec : FrameSpec} {s : State} (h : Inv spec s) {turns before : Nat}
    {found : FrameSpec} {state : ProducerState} {offset : Nat} {buffer : List UInt8}
    {piece : Piece} {rest : List Piece}
    (hpc : s.reader = .copying turns before found state offset buffer (piece :: rest)) :
    ReaderInv spec s.mapping s.snapshots (.copying turns before found state offset
      (patch buffer piece.1 (slice s.mapping (offset + piece.1) piece.2)) rest) := by
  have hreader := h.reader
  rw [hpc] at hreader
  obtain ⟨he, hfound, hpieces, hbuffer, slot, hlt, hoffset, hcopied⟩ := hreader
  have hpiece := hpieces piece List.mem_cons_self
  have hslot := h.mapped.slot_le hlt
  have hlength : (slice s.mapping (offset + piece.1) piece.2).length = piece.2 :=
    length_slice (by omega)
  have hfit : piece.1 + (slice s.mapping (offset + piece.1) piece.2).length ≤ buffer.length := by
    omega
  refine ⟨he, hfound, fun p hp => hpieces p (List.mem_cons_of_mem _ hp),
    (length_patch hfit).trans hbuffer, slot, hlt, hoffset, fun hgen => ?_⟩
  obtain ⟨hactive, hcopied⟩ := hcopied hgen
  refine ⟨hactive, hcopied.next (fun i hi => ?_) (fun i hi => ?_)⟩
  · obtain ⟨hlow, hhigh⟩ := hi
    rw [getElem?_patch hfit, if_pos (by omega), getElem?_slice, if_pos (by omega), readSlot,
      getElem?_slice, if_pos (by omega), ← hoffset]
    congr 1
    omega
  · have hnot : ¬ (piece.1 ≤ i ∧ i < piece.1 + piece.2) := hi
    rw [getElem?_patch hfit, if_neg (by omega)]

theorem Inv.read {spec : FrameSpec} {s : State} (h : Inv spec s) (pieces : List Piece) :
    Inv spec (s.read spec pieces) := by
  have hreader := h.reader
  unfold State.read
  split
  next => exact h
  next => exact h.answer_error _
  next turns hpc =>
    dsimp only
    split
    next => exact ⟨h.mapped, h.writer, trivial, h.returned⟩
    next heven =>
      refine ⟨h.mapped, h.writer, ⟨?_, Nat.le_refl _, h.returned.past⟩, h.returned⟩
      exact not_not.mp heven
  next turns before hpc =>
    rw [hpc] at hreader
    rw [h.mapped.header]
    exact ⟨h.mapped, h.writer, ⟨hreader, rfl⟩, h.returned⟩
  next turns before found hpc =>
    rw [hpc] at hreader
    exact ⟨h.mapped, h.writer, ⟨hreader.1, hreader.2, fun _ => rfl⟩, h.returned⟩
  next turns before found slot hpc =>
    rw [hpc] at hreader
    obtain ⟨he, rfl, hslot⟩ := hreader
    have hpixels := h.mapped.valid.fits.pixelBytes_eq
    split
    next => exact h.answer_error _
    next state hstate =>
      split
      next => exact h.answer_error _
      next offset hoffset =>
        have hlt := slotOffset_ok hoffset
        rw [(h.mapped.valid.fits.slot slot hlt).1] at hoffset
        split
        next hsplits =>
          rw [hpixels] at hsplits ⊢
          refine ⟨h.mapped, h.writer, ⟨he, rfl, hsplits.1, List.length_replicate, slot, hlt,
            ?_, fun hgen => ⟨hslot hgen, .of_splits hsplits⟩⟩, h.returned⟩
          simpa using hoffset.symm
        next => exact h
  next turns before found state offset buffer piece rest hpc =>
    exact ⟨h.mapped, h.writer, h.read_piece hpc, h.returned⟩
  next turns before found state offset buffer hpc =>
    rw [hpc] at hreader
    obtain ⟨he, rfl, -, hbuffer, slot, hlt, -, hcopied⟩ := hreader
    dsimp only
    split
    next hafter =>
      have hgen : generation s.mapping = before := hafter.1.symm
      obtain ⟨hactive, hcopied⟩ := hcopied hgen
      refine h.answer_ok (hgen ▸ he) ?_
      rw [← hactive]
      apply List.ext_getElem?
      intro i
      by_cases hi : i < found.slotBytes
      · exact hcopied.done i hi
      · rw [List.getElem?_eq_none (by omega), readSlot, getElem?_slice, if_neg hi]
    next => exact ⟨h.mapped, h.writer, trivial, h.returned⟩

theorem Inv.snapshot {spec : FrameSpec} {s : State} (h : Inv spec s) : Inv spec s.snapshot := by
  unfold State.snapshot
  split
  next => exact ⟨h.mapped, h.writer, trivial, h.returned⟩
  next => exact h

/-- Publishing only adds to what was published. -/
theorem published_step (spec : FrameSpec) (s : State) (a : Action) :
    s.published <+: (step spec s a).published := by
  cases a with
  | publish pixels =>
    simp only [step, State.publish]
    split
    next =>
      split
      next => exact List.prefix_refl _
      next => exact List.prefix_append _ _
    next => exact List.prefix_refl _
  | setState state =>
    simp only [step, State.setState]
    split <;> exact List.prefix_refl _
  | write pieces =>
    simp only [step, State.write]
    repeat' split
    all_goals exact List.prefix_refl _
  | snapshot =>
    simp only [step, State.snapshot]
    split <;> exact List.prefix_refl _
  | read pieces =>
    simp only [step, State.read]
    repeat' split
    all_goals exact List.prefix_refl _

theorem published_run (spec : FrameSpec) (s : State) (actions : List Action) :
    s.published <+: (Foundation.Runs.run (step spec) s actions).published := by
  induction actions generalizing s with
  | nil => exact List.prefix_refl _
  | cons a actions ih => exact (published_step spec s a).trans (ih _)

theorem Inv.step {spec : FrameSpec} {s : State} (h : Inv spec s)
    (hfew : s.published.length < 2 ^ 63) (a : Action) : Inv spec (Frames.step spec s a) := by
  cases a with
  | publish pixels => exact h.of_writerStep (publish_spec h.mapped h.writer hfew pixels)
  | setState state => exact h.of_writerStep (setState_spec h.mapped h.writer state)
  | write pieces => exact h.of_writerStep (write_spec h.mapped h.writer hfew pieces)
  | snapshot => exact h.snapshot
  | read pieces => exact h.read pieces

theorem Inv.run {spec : FrameSpec} {s : State} (h : Inv spec s) (actions : List Action)
    (hfew : (Foundation.Runs.run (Frames.step spec) s actions).published.length < 2 ^ 63) :
    Inv spec (Foundation.Runs.run (Frames.step spec) s actions) := by
  induction actions generalizing s with
  | nil => exact h
  | cons a actions ih =>
    have hlen := (published_run spec s (a :: actions)).length_le
    exact ih (h.step (by omega) a) hfew

/-- The mapping of a new writer. -/
theorem Inv.new {spec : FrameSpec} (h : spec.Valid) : Inv spec (State.new spec) := by
  have hlength : (List.replicate spec.fileBytes (0 : UInt8)).length = spec.fileBytes :=
    List.length_replicate
  have hheader : headerBytes ≤ (List.replicate spec.fileBytes (0 : UInt8)).length := by
    rw [hlength]
    exact h.headerBytes_le
  have hmapped : Mapped spec (State.new spec).mapping := by
    refine ⟨h, (length_initializeHeader spec hheader).trans hlength, ?_⟩
    have := validateHeader_initializeHeader h hlength
    rwa [hlength] at this
  have hgen : generation (State.new spec).mapping = 0 :=
    readU64_initializeHeader hheader (by decide) _ (by simp [headerFields])
  have hactive : activeSlot (State.new spec).mapping = 0 :=
    readU32_initializeHeader hheader (by decide) _ (by simp [headerFields])
  have hzero : readSlot spec (State.new spec).mapping 0 = List.replicate spec.slotBytes 0 := by
    have hslot := hmapped.slot_le (show 0 < slotCount by decide)
    rw [hmapped.length_eq, ← hlength] at hslot
    exact slice_initializeHeader hheader (by simp) hslot
  refine ⟨hmapped, ⟨hgen, ?_⟩, trivial, ⟨?_, ?_, List.Pairwise.nil⟩⟩
  · rw [Shows, hactive, hzero]
    rfl
  · intro f hf
    simp [State.new, State.snapshots] at hf
  · intro f hf
    simp [State.new, State.snapshots] at hf

/-- **No torn frame is ever returned.**  In every interleaving of one writer
and one reader, each frame a snapshot returned is, byte for byte, the one whose
number is its sequence: frame 0 is the zero frame of the new file and frame `k`
the `k`-th that was passed to `publish`.  Later snapshots never have smaller
sequences. -/
theorem reached_whole {width height : Nat} {spec : FrameSpec}
    (hspec : FrameSpec.new width height = .ok spec) (actions : List Action)
    (hfew : (Foundation.Runs.run (step spec) (State.new spec) actions).published.length < 2 ^ 63) :
    let s := Foundation.Runs.run (step spec) (State.new spec) actions
    (∀ f ∈ s.snapshots, (frames spec s.published)[f.sequence]? = some f.pixels) ∧
      s.snapshots.Pairwise fun newer older => older.sequence ≤ newer.sequence := by
  have h := (Inv.new (new_ok hspec).2.2).run actions hfew
  exact ⟨fun f hf => (h.returned.whole f hf).2, h.returned.ordered⟩

/-- A 1x1 frame is published while a snapshot runs. -/
def onePixelActions : List Action :=
  [.publish [1, 2, 3, 4], .snapshot, .read [], .write [], .read [], .write [(0, 2), (2, 2)],
   .write [], .read [], .write [], .read [(0, 4)], .write [], .read [], .write [], .read [],
   .write [], .read [], .read [], .read [], .read [(1, 3), (0, 1)], .read [], .read [], .read []]

theorem reached_whole_onePixel :
    let s := Foundation.Runs.run (step ⟨1, 1, 4, 4, 72⟩) (State.new ⟨1, 1, 4, 4, 72⟩)
      onePixelActions
    s.snapshots.map (·.pixels) = [[1, 2, 3, 4]] ∧
      ∀ f ∈ s.snapshots, (frames ⟨1, 1, 4, 4, 72⟩ s.published)[f.sequence]? = some f.pixels := by
  refine ⟨by decide +kernel, (@reached_whole 1 1 _ ?_ _ ?_).1⟩
  · decide
  · decide +kernel

end Kwe.Frames
