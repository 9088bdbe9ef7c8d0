import Kwe.Frames.Header

/-!
The item of the desktop that shows a frame file: its own header check, and the
poll that copies a frame.

A poll looks at the file with `pread`: the `k`-th look sees `views k`, and the
copy of a slot may take a look for each of its bytes.  Painting and the pointer
are left out; memory for an image is always there.
-/

namespace Kwe.Frames

open Foundation.Bytes

inductive Status
  | waiting | live | frozen | invalid | stopped
  deriving DecidableEq, Repr

/-- A `QImage` of format ARGB32, premultiplied. -/
structure Image where
  width : Nat
  height : Nat
  pixels : List UInt8
  deriving DecidableEq, Repr

/-- `Layout` has the fields of a spec. -/
structure FrameItem where
  isOpen : Bool
  fileBytes : Nat
  layout : FrameSpec
  image : Option Image
  sequence : Nat
  receivedSequence : Bool
  frameFileReadySignaled : Bool
  status : Status
  errorMessage : String
  /-- The paths that `frameFileOpened` was emitted with. -/
  opened : List String
  deriving DecidableEq, Repr

namespace FrameItem

def new : FrameItem where
  isOpen := false
  fileBytes := 0
  layout := ⟨0, 0, 0, 0, 0⟩
  image := none
  sequence := 0
  receivedSequence := false
  frameFileReadySignaled := false
  status := .waiting
  errorMessage := ""
  opened := []

def setStatus (item : FrameItem) (status : Status) (error : String) : FrameItem :=
  { item with status := status, errorMessage := error }

def closeFrameFile (item : FrameItem) : FrameItem :=
  { item with
    isOpen := false
    fileBytes := 0
    receivedSequence := false
    frameFileReadySignaled := false }

/-- The bytes of a file of `fileBytes` bytes when it was opened; what was cut
off since ends the read. -/
def readExact (fileBytes : Nat) (view : List UInt8) (offset bytes : Nat) : Option (List UInt8) :=
  if fileBytes < offset ∨ fileBytes - offset < bytes then none
  else if view.length < offset + bytes then none
  else some (slice view offset bytes)

def load32 (fileBytes : Nat) (view : List UInt8) (offset : Nat) : Option Nat :=
  (readExact fileBytes view offset 4).map fromLe

def loadGeneration (fileBytes : Nat) (view : List UInt8) : Option Nat :=
  (readExact fileBytes view offsetGeneration 8).map fromLe

/-- A read that takes a look for each byte. -/
def readPieces (fileBytes : Nat) (views : Nat → List UInt8) (offset bytes : Nat) :
    Option (List UInt8) :=
  if fileBytes < offset ∨ fileBytes - offset < bytes then none
  else (List.range bytes).mapM fun i => (views i)[offset + i]?

def validateHeader (fileBytes : Nat) (view : List UInt8) : Except String FrameSpec :=
  match readExact fileBytes view 0 headerBytes with
  | none => .error "Frame header is truncated."
  | some header =>
    if slice header 0 8 ≠ magic then .error "Frame protocol magic is invalid."
    else if readU32 header offsetVersion ≠ version ∨
        readU32 header offsetHeaderBytes ≠ headerBytes ∨
        readU32 header offsetPixelFormat ≠ pixelFormat ∨
        readU32 header offsetSlotCount ≠ slotCount then
      .error "Frame protocol version or format is unsupported."
    else
      let width := readU32 header offsetWidth
      let height := readU32 header offsetHeight
      if width = 0 ∨ height = 0 ∨ maxDimension < width ∨ maxDimension < height then
        .error "Frame dimensions are outside the safety limit."
      else
        let stride := width * bytesPerPixel
        let slotBytes := stride * height
        let expected := headerBytes + slotBytes * slotCount
        if 2 ^ 32 - 1 < stride ∨ readU32 header offsetStride ≠ stride ∨
            readU64 header offsetFileBytes ≠ expected ∨ fileBytes ≠ expected ∨
            maxMappingBytes < expected then
          .error "Frame stride or file size is inconsistent."
        else .ok ⟨width, height, stride, slotBytes, expected⟩

/-- The frame is copied and found unchanged. -/
def install (item : FrameItem) (path : String) (pixels : List UInt8) (after producerState : Nat) :
    FrameItem :=
  { item with
    image := some ⟨item.layout.width, item.layout.height, pixels⟩
    sequence := after / 2
    receivedSequence := true
    status := if producerState = 3 then .stopped else .live
    errorMessage := ""
    frameFileReadySignaled := true
    opened := if item.frameFileReadySignaled then item.opened else item.opened ++ [path] }

/-- One poll of the file at `path`.  `aged` says that the last frame came more
than 1.5 s ago. -/
def pollFrame (path : String) (aged : Bool) (views : Nat → List UInt8) (item : FrameItem) :
    FrameItem :=
  if ¬ item.isOpen then item
  else if (views 0).length ≠ item.fileBytes then
    item.setStatus .invalid "Frame file size changed unexpectedly."
  else match validateHeader item.fileBytes (views 1) with
  | .error error => item.setStatus .invalid error
  | .ok current =>
    if current.fileBytes ≠ item.layout.fileBytes then
      item.setStatus .invalid "Frame layout changed unexpectedly."
    else match loadGeneration item.fileBytes (views 2) with
    | none => item.setStatus .invalid "Could not read the frame generation safely."
    | some before =>
      if before % 2 ≠ 0 then item
      else match load32 item.fileBytes (views 3) offsetProducerState with
      | none => item.setStatus .invalid "Could not read the renderer state safely."
      | some producerState =>
        if item.receivedSequence ∧ before / 2 = item.sequence then
          if producerState = 3 then item.setStatus .stopped ""
          else if aged then item.setStatus .frozen ""
          else item
        else match load32 item.fileBytes (views 4) offsetActiveSlot with
        | none => item.setStatus .invalid "Could not read the active frame slot safely."
        | some slot =>
          if slotCount ≤ slot then
            item.setStatus .invalid "Renderer selected an invalid frame slot."
          else
            let sourceOffset := headerBytes + item.layout.slotBytes * slot
            if item.fileBytes < sourceOffset + item.layout.slotBytes then
              item.setStatus .invalid "Renderer frame points outside the frame file."
            else match readPieces item.fileBytes (fun k => views (5 + k)) sourceOffset
                item.layout.slotBytes with
            | none =>
              item.setStatus .invalid "Could not copy the complete renderer frame safely."
            | some pixels =>
              match loadGeneration item.fileBytes (views (5 + item.layout.slotBytes)) with
              | none =>
                item.setStatus .invalid "Could not verify the copied frame generation."
              | some after =>
                if before ≠ after ∨ after % 2 ≠ 0 then item
                else item.install path pixels after producerState

/-- What is found at a path without following links. -/
inductive PathEntry
  | missing (error : String)
  | notRegular
  | file

/-- `openFrameFile`: the size is looked at first, then the header, and then the
file is polled. -/
def openFrameFile (path : String) (entry : PathEntry) (views : Nat → List UInt8)
    (item : FrameItem) : FrameItem :=
  let item := item.closeFrameFile
  match entry with
  | .missing error =>
    item.setStatus .invalid ("Could not safely open the frame file: " ++ error)
  | .notRegular =>
    item.setStatus .invalid "Frame path must be a regular, non-symlink file."
  | .file =>
    let fileBytes := (views 0).length
    if fileBytes < headerBytes ∨ maxMappingBytes < fileBytes then
      item.setStatus .invalid "Frame file size is outside the 64-byte to 512 MiB safety range."
    else match validateHeader fileBytes (views 1) with
    | .error error => (item.setStatus .invalid error).closeFrameFile
    | .ok layout =>
      pollFrame path false (fun k => views (2 + k))
        ({ item with isOpen := true, fileBytes := fileBytes, layout := layout }.setStatus .waiting "")

end FrameItem

/-- `SharedFrameReader::open` on a regular file. -/
def openReader (m : List UInt8) : Except ProtocolError FrameSpec :=
  if m.length < headerBytes then .error .truncatedHeader
  else if maxMappingBytes < m.length then .error (.mappingTooLarge m.length)
  else validateHeader m.length fun _ => m

end Kwe.Frames
