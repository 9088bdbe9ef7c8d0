import Kwe.Scene.Package

/-!
The layout of a package, and the reader against it.

* `openPackage_iff`: what opens is what the layout says, and the reader holds
  its table.
* `package_round_trip`: what opens, what is read of an entry, and what comes
  back of a list of payloads that was written.
-/

namespace Kwe.Scene

open Foundation Foundation.Bytes Foundation.Checks

/-! ## The layout -/

def encodeEntry (e : PkgEntry) : List UInt8 :=
  toLe 4 (Utf8.encode e.path.toList).length ++
    (Utf8.encode e.path.toList ++ (toLe 4 e.offset ++ toLe 4 e.size))

def table (version : List UInt8) (entries : List PkgEntry) : List UInt8 :=
  toLe 4 8 ++ (pkgMagic ++ version ++ (toLe 4 entries.length ++ entries.flatMap encodeEntry))

/-- Not empty, relative, and without NUL, backslash and `..`. -/
structure SafePath (path : String) : Prop where
  nonempty : path.toList ≠ []
  noNul : '\x00' ∉ path.toList
  noBackslash : '\\' ∉ path.toList
  relative : path.toList.head? ≠ some '/'
  noParent : ['.', '.'] ∉ path.toList.splitOn '/'

/-- The file is a table of these entries, with this data after it. -/
structure IsPackage (file version : List UInt8) (entries : List PkgEntry) (data : List UInt8) :
    Prop where
  layout : file = table version entries ++ data
  digits : version.length = 4 ∧ ∀ b ∈ version, isAsciiDigit b = true
  count : entries.length ≤ maxPkgEntries
  paths : ∀ e ∈ entries, SafePath e.path ∧ (Utf8.encode e.path.toList).length ≤ maxPkgPathBytes
  total : (entries.map (·.size)).sum ≤ maxPkgBytes
  ranges : ∀ e ∈ entries, e.offset + e.size ≤ data.length
  flags : ∀ e ∈ entries, e.compressed = decide (lz4FrameMagic <+: slice data e.offset e.size)

/-! ## Steps of the parser -/

theorem readExact_ok {what : String} {n : Nat} {rest buf rest' : List UInt8}
    (h : readExact what n rest = .ok (buf, rest')) : rest = buf ++ rest' ∧ buf.length = n := by
  obtain ⟨hlt, h⟩ := check_ok h
  obtain ⟨rfl, rfl⟩ := Prod.mk.inj (Except.ok.inj h)
  exact ⟨(List.take_append_drop n rest).symm, by rw [List.length_take]; omega⟩

theorem readExact_append (what : String) (buf rest : List UInt8) :
    readExact what buf.length (buf ++ rest) = .ok (buf, rest) := by
  rw [readExact, if_neg (by simp), List.take_left, List.drop_left]

theorem validatePath_iff (path : String) : validatePath path = .ok () ↔ SafePath path := by
  constructor
  · intro h
    obtain ⟨hempty, h⟩ := check_ok h
    obtain ⟨hnul, h⟩ := check_ok h
    obtain ⟨hbackslash, h⟩ := check_ok h
    obtain ⟨habsolute, h⟩ := check_ok h
    obtain ⟨hparent, -⟩ := check_ok h
    exact ⟨hempty, hnul, hbackslash, habsolute, hparent⟩
  · intro h
    rw [validatePath, if_neg h.nonempty, if_neg h.noNul, if_neg h.noBackslash, if_neg h.relative,
      if_neg h.noParent]

/-- An entry as the table holds it, before its flag is set. -/
structure InTable (e : PkgEntry) : Prop where
  path : SafePath e.path ∧ (Utf8.encode e.path.toList).length ≤ maxPkgPathBytes
  offset : e.offset < 2 ^ 32
  size : e.size < 2 ^ 32
  raw : e.compressed = false

theorem parseEntries_ok {count total : Nat} {rest rest' : List UInt8} {entries : List PkgEntry}
    (htotal : total ≤ maxPkgBytes) (h : parseEntries count total rest = .ok (entries, rest')) :
    rest = entries.flatMap encodeEntry ++ rest' ∧ entries.length = count ∧
      (∀ e ∈ entries, InTable e) ∧ total + (entries.map (·.size)).sum ≤ maxPkgBytes := by
  induction count generalizing total rest entries with
  | zero =>
    obtain ⟨rfl, rfl⟩ := Prod.mk.inj (Except.ok.inj h)
    exact ⟨rfl, rfl, by simp, by simpa using htotal⟩
  | succ count ih =>
    rw [parseEntries] at h
    obtain ⟨⟨pathLenBuf, rest₁⟩, hpathLen, h⟩ := bind_ok h
    obtain ⟨hlong, h⟩ := check_ok h
    obtain ⟨⟨pathBytes, rest₂⟩, hpath, h⟩ := bind_ok h
    dsimp only at h hlong hpath
    split at h
    next => simp at h
    next path hdecode =>
      obtain ⟨_, hvalid, h⟩ := bind_ok h
      obtain ⟨⟨offsetBuf, rest₃⟩, hoffset, h⟩ := bind_ok h
      obtain ⟨⟨sizeBuf, rest₄⟩, hsize, h⟩ := bind_ok h
      obtain ⟨-, h⟩ := check_ok h
      obtain ⟨hfits, h⟩ := check_ok h
      obtain ⟨⟨entries', rest₅⟩, hrest, h⟩ := bind_ok h
      obtain ⟨rfl, rfl⟩ := Prod.mk.inj (Except.ok.inj h)
      obtain ⟨rfl, hcount, hall, hsum⟩ := ih (Nat.le_of_not_lt hfits) hrest
      obtain ⟨rfl, hlen₁⟩ := readExact_ok hpathLen
      obtain ⟨rfl, hlen₂⟩ := readExact_ok hpath
      obtain ⟨rfl, hlen₃⟩ := readExact_ok hoffset
      obtain ⟨rfl, hlen₄⟩ := readExact_ok hsize
      have hencode : Utf8.encode (String.ofList path).toList = pathBytes := by
        rw [String.toList_ofList, Utf8.encode_of_decode hdecode]
      have hword : ∀ {buf : List UInt8}, buf.length = 4 → toLe 4 (fromLe buf) = buf ∧
          fromLe buf < 2 ^ 32 := by
        intro buf hbuf
        have hlt := fromLe_lt buf
        rw [hbuf] at hlt
        exact ⟨by rw [← hbuf, toLe_fromLe], hlt⟩
      refine ⟨?_, by rw [List.length_cons, hcount], ?_, ?_⟩
      · simp only [List.flatMap_cons, encodeEntry, hencode, hlen₂, (hword hlen₁).1,
          (hword hlen₃).1, (hword hlen₄).1, List.append_assoc]
      · refine List.forall_mem_cons.mpr ⟨⟨⟨(validatePath_iff _).mp hvalid, ?_⟩, (hword hlen₃).2,
          (hword hlen₄).2, rfl⟩, hall⟩
        rw [hencode, hlen₂]
        exact Nat.le_of_not_lt hlong
      · rw [List.map_cons, List.sum_cons, ← Nat.add_assoc]
        exact hsum

theorem parseEntries_encode {entries : List PkgEntry} (total : Nat) (rest : List UInt8)
    (hall : ∀ e ∈ entries, InTable e)
    (htotal : total + (entries.map (·.size)).sum ≤ maxPkgBytes) :
    parseEntries entries.length total (entries.flatMap encodeEntry ++ rest) =
      .ok (entries, rest) := by
  induction entries generalizing total with
  | nil => rfl
  | cons e entries ih =>
    obtain ⟨he, hentries⟩ := List.forall_mem_cons.mp hall
    obtain ⟨⟨hsafe, hlong⟩, hoffset, hsize, hraw⟩ := he
    rw [List.map_cons, List.sum_cons, ← Nat.add_assoc] at htotal
    have hmax : maxPkgBytes < 2 ^ 32 := by decide
    have hread : ∀ (what : String) (n : Nat) (rest : List UInt8),
        readExact what 4 (toLe 4 n ++ rest) = .ok (toLe 4 n, rest) := by
      intro what n rest
      have := readExact_append what (toLe 4 n) rest
      rwa [length_toLe] at this
    have hpathLen : (Utf8.encode e.path.toList).length < 256 ^ 4 :=
      Nat.lt_of_le_of_lt hlong (by decide)
    replace hoffset : e.offset < 256 ^ 4 := hoffset
    replace hsize : e.size < 256 ^ 4 := hsize
    rw [List.length_cons, parseEntries, List.flatMap_cons, encodeEntry]
    simp only [List.append_assoc, hread, ok_bind, fromLe_toLe hpathLen]
    rw [if_neg (Nat.not_lt.mpr hlong)]
    simp only [readExact_append, ok_bind, Utf8.decode_encode, String.ofList_toList,
      (validatePath_iff _).mpr hsafe, hread, fromLe_toLe hoffset, fromLe_toLe hsize]
    rw [if_neg (by omega), if_neg (by omega), ih _ hentries htotal]
    obtain ⟨path, offset, size, compressed⟩ := e
    simp only at hraw
    subst hraw
    rfl

theorem checkRanges_iff {dataLen : Nat} (hlen : dataLen < 2 ^ 64) (entries : List PkgEntry) :
    checkRanges dataLen entries = .ok () ↔ ∀ e ∈ entries, e.offset + e.size ≤ dataLen := by
  induction entries with
  | nil => simp [checkRanges]
  | cons e entries ih =>
    rw [checkRanges, List.forall_mem_cons, ← ih]
    constructor
    · intro h
      obtain ⟨-, h⟩ := check_ok h
      obtain ⟨hend, h⟩ := check_ok h
      exact ⟨Nat.le_of_not_lt hend, h⟩
    · rintro ⟨hend, h⟩
      rw [if_neg (by omega), if_neg (Nat.not_lt.mpr hend), h]

/-- An entry with its flag. -/
def flagged (data : List UInt8) (e : PkgEntry) : PkgEntry :=
  if 4 ≤ e.size then { e with compressed := slice data e.offset 4 = lz4FrameMagic } else e

theorem flagEntries_eq {start data : List UInt8} {entries : List PkgEntry}
    (hlen : (start ++ data).length < 2 ^ 64)
    (hranges : ∀ e ∈ entries, e.offset + e.size ≤ data.length) :
    flagEntries (start ++ data) start.length entries = .ok (entries.map (flagged data)) := by
  induction entries with
  | nil => rfl
  | cons e entries ih =>
    obtain ⟨he, hentries⟩ := List.forall_mem_cons.mp hranges
    rw [flagEntries, ih hentries, List.map_cons, flagged]
    split
    next hsize =>
      rw [List.length_append] at hlen
      have hdrop : (start ++ data).drop (start.length + e.offset) = data.drop e.offset := by
        rw [← List.drop_drop, List.drop_left]
      have hpeek : readExact "entry payload prefix" 4
          ((start ++ data).drop (start.length + e.offset)) =
            .ok (slice data e.offset 4, (data.drop e.offset).drop 4) := by
        rw [hdrop, readExact, if_neg (by rw [List.length_drop]; omega)]
        rfl
      simp only [addU64, if_pos (show start.length + e.offset < 2 ^ 64 by omega), ok_bind, hpeek]
    next => rfl

theorem flagged_eq {data : List UInt8} {e : PkgEntry} (hraw : e.compressed = false)
    (hrange : e.offset + e.size ≤ data.length) :
    flagged data e =
      { e with compressed := decide (lz4FrameMagic <+: slice data e.offset e.size) } := by
  have hlength := length_slice hrange
  rw [flagged]
  split
  next hsize =>
    have hiff : slice data e.offset 4 = lz4FrameMagic ↔
        lz4FrameMagic <+: slice data e.offset e.size := by
      have hmin : min lz4FrameMagic.length e.size = 4 := Nat.min_eq_left hsize
      rw [List.prefix_iff_eq_take, slice, slice, List.take_take, hmin]
      exact eq_comm
    simp only [hiff]
  next hsize =>
    have hshort : ¬ lz4FrameMagic <+: slice data e.offset e.size := by
      intro hmagic
      have := hmagic.length_le
      rw [hlength] at this
      exact hsize this
    simp only [hshort, decide_false, ← hraw]

/-! ## What opens -/

theorem encodeEntry_flagged (data : List UInt8) (e : PkgEntry) :
    encodeEntry (flagged data e) = encodeEntry e := by
  rw [flagged]
  split
  next => rfl
  next => rfl

theorem flagged_fields (data : List UInt8) (e : PkgEntry) :
    (flagged data e).path = e.path ∧ (flagged data e).offset = e.offset ∧
      (flagged data e).size = e.size := by
  rw [flagged]
  split
  next => exact ⟨rfl, rfl, rfl⟩
  next => exact ⟨rfl, rfl, rfl⟩

theorem table_flagged (version data : List UInt8) (entries : List PkgEntry) :
    table version (entries.map (flagged data)) = table version entries := by
  simp only [table, List.length_map, List.flatMap_map, encodeEntry_flagged]

/-- Parsed entries, once flagged, make a package. -/
theorem isPackage_flagged {version data : List UInt8} {entries : List PkgEntry}
    (hversion : version.length = 4 ∧ ∀ b ∈ version, isAsciiDigit b = true)
    (hcount : entries.length ≤ maxPkgEntries) (hall : ∀ e ∈ entries, InTable e)
    (htotal : (entries.map (·.size)).sum ≤ maxPkgBytes)
    (hranges : ∀ e ∈ entries, e.offset + e.size ≤ data.length) :
    IsPackage (table version entries ++ data) version (entries.map (flagged data)) data where
  layout := by rw [table_flagged]
  digits := hversion
  count := by rwa [List.length_map]
  paths := by
    intro f hf
    obtain ⟨e, he, rfl⟩ := List.mem_map.mp hf
    rw [(flagged_fields data e).1]
    exact (hall e he).path
  total := by
    have hsizes : (entries.map (flagged data)).map (·.size) = entries.map (·.size) := by
      rw [List.map_map]
      exact List.map_congr_left fun e _ => (flagged_fields data e).2.2
    rwa [hsizes]
  ranges := by
    intro f hf
    obtain ⟨e, he, rfl⟩ := List.mem_map.mp hf
    rw [(flagged_fields data e).2.1, (flagged_fields data e).2.2]
    exact hranges e he
  flags := by
    intro f hf
    obtain ⟨e, he, rfl⟩ := List.mem_map.mp hf
    rw [flagged_eq (hall e he).raw (hranges e he)]

theorem parseTable_ok {file : List UInt8} {entries : List PkgEntry} {dataStart : Nat}
    (hlen : file.length ≤ maxPkgBytes) (h : parseTable file = .ok (entries, dataStart)) :
    ∃ version data, IsPackage file version entries data ∧
      dataStart = (table version entries).length := by
  obtain ⟨⟨magicLenBuf, rest₁⟩, hmagicLen, h⟩ := bind_ok h
  obtain ⟨-, h⟩ := check_ok h
  obtain ⟨⟨magic, rest₂⟩, hmagic, h⟩ := bind_ok h
  obtain ⟨hversion, h⟩ := check_ok h
  obtain ⟨hdigits, h⟩ := check_ok h
  obtain ⟨⟨countBuf, rest₃⟩, hcountBuf, h⟩ := bind_ok h
  obtain ⟨hcount, h⟩ := check_ok h
  obtain ⟨⟨parsed, data⟩, hparsed, h⟩ := bind_ok h
  obtain ⟨_, hranges, h⟩ := bind_ok h
  obtain ⟨flags, hflags, h⟩ := bind_ok h
  obtain ⟨rfl, rfl⟩ := Prod.mk.inj (Except.ok.inj h)
  obtain ⟨hfile, hlen₁⟩ := readExact_ok hmagicLen
  obtain ⟨hrest₁, hlen₂⟩ := readExact_ok hmagic
  obtain ⟨hrest₂, hlen₃⟩ := readExact_ok hcountBuf
  obtain ⟨hrest₃, hparsedCount, hall, htotal⟩ := parseEntries_ok (Nat.zero_le _) hparsed
  rw [Nat.zero_add] at htotal
  push Not at hdigits hversion
  obtain ⟨version, rfl⟩ := hversion
  obtain ⟨hmagicLength, hdigits⟩ := hdigits
  have hversion : version.length = 4 ∧ ∀ b ∈ version, isAsciiDigit b = true := by
    refine ⟨by simpa [pkgMagic] using hmagicLength, ?_⟩
    simpa [pkgMagic] using hdigits
  -- The bytes before the data are the table of what was parsed.
  have htable : file = table version parsed ++ data := by
    have hmagicWord : toLe 4 8 = magicLenBuf := by
      rw [← hmagicLength, hlen₂, ← hlen₁, toLe_fromLe]
    have hcountWord : toLe 4 parsed.length = countBuf := by
      rw [hparsedCount, ← hlen₃, toLe_fromLe]
    rw [hfile, hrest₁, hrest₂, hrest₃, table, hmagicWord, hcountWord]
    simp only [List.append_assoc]
  have hstart : file.length - data.length = (table version parsed).length := by
    rw [htable, List.length_append, Nat.add_sub_cancel]
  have hdata : file.length - (file.length - data.length) = data.length := by
    rw [hstart, htable, List.length_append, Nat.add_sub_cancel_left]
  have hmax : maxPkgBytes < 2 ^ 32 := by decide
  have hbound : data.length ≤ file.length := by
    rw [htable, List.length_append]
    exact Nat.le_add_left _ _
  rw [hdata, checkRanges_iff (by omega)] at hranges
  rw [hstart, htable, flagEntries_eq (by rw [← htable]; omega) hranges] at hflags
  obtain rfl := Except.ok.inj hflags
  refine ⟨version, data, ?_, ?_⟩
  · rw [htable]
    refine isPackage_flagged hversion ?_ hall htotal hranges
    rw [hparsedCount]
    exact Nat.le_of_not_lt hcount
  · rw [hstart, table_flagged]

/-- An entry without its flag. -/
def unflagged (e : PkgEntry) : PkgEntry := { e with compressed := false }

theorem parseTable_complete {file version data : List UInt8} {entries : List PkgEntry}
    (hlen : file.length ≤ maxPkgBytes) (h : IsPackage file version entries data) :
    parseTable file = .ok (entries, (table version entries).length) := by
  have hmax : maxPkgBytes < 2 ^ 32 := by decide
  have hbound : data.length ≤ file.length := by
    rw [h.layout, List.length_append]
    exact Nat.le_add_left _ _
  have hencode : (entries.map unflagged).flatMap encodeEntry = entries.flatMap encodeEntry := by
    rw [List.flatMap_map]
    rfl
  have hall : ∀ e ∈ entries.map unflagged, InTable e := by
    intro f hf
    obtain ⟨e, he, rfl⟩ := List.mem_map.mp hf
    have hrange := h.ranges e he
    exact ⟨h.paths e he, show e.offset < 2 ^ 32 by omega, show e.size < 2 ^ 32 by omega, rfl⟩
  have hsizes : (entries.map unflagged).map (·.size) = entries.map (·.size) := by
    rw [List.map_map]
    rfl
  have hranges : ∀ e ∈ entries.map unflagged, e.offset + e.size ≤ data.length := by
    intro f hf
    obtain ⟨e, he, rfl⟩ := List.mem_map.mp hf
    exact h.ranges e he
  have hflags : (entries.map unflagged).map (flagged data) = entries := by
    rw [List.map_map]
    refine (List.map_congr_left fun e he => ?_).trans (List.map_id entries)
    rw [Function.comp_apply, flagged_eq (e := unflagged e) rfl (h.ranges e he)]
    have hflag := h.flags e he
    obtain ⟨path, offset, size, compressed⟩ := e
    exact congrArg (PkgEntry.mk path offset size) hflag.symm
  -- What each read returns.
  have hread : ∀ (what : String) (n : Nat) (rest : List UInt8),
      readExact what 4 (toLe 4 n ++ rest) = .ok (toLe 4 n, rest) := by
    intro what n rest
    have := readExact_append what (toLe 4 n) rest
    rwa [length_toLe] at this
  have hmagic : (pkgMagic ++ version).length = 8 := by
    rw [List.length_append, h.digits.1]
    rfl
  have hreadMagic : ∀ rest, readExact "magic string" 8 (pkgMagic ++ version ++ rest) =
      .ok (pkgMagic ++ version, rest) := by
    intro rest
    have := readExact_append "magic string" (pkgMagic ++ version) rest
    rwa [hmagic] at this
  have hcount : entries.length < 256 ^ 4 := Nat.lt_of_le_of_lt h.count (by decide)
  have height : fromLe (toLe 4 8) = 8 := by decide
  have hdigits : ¬ ((pkgMagic ++ version).length ≠ 8 ∨
      ¬ ((pkgMagic ++ version).drop 4).all isAsciiDigit = true) := by
    push Not
    refine ⟨hmagic, ?_⟩
    rw [List.all_eq_true]
    exact h.digits.2
  have hentries : parseEntries entries.length 0 (entries.flatMap encodeEntry ++ data) =
      .ok (entries.map unflagged, data) := by
    have := parseEntries_encode 0 data hall (by
      rw [hsizes, Nat.zero_add]
      exact h.total)
    rwa [List.length_map, hencode] at this
  have hstart : file.length - data.length = (table version entries).length := by
    rw [h.layout, List.length_append, Nat.add_sub_cancel]
  have hdata : file.length - (table version entries).length = data.length := by
    rw [h.layout, List.length_append, Nat.add_sub_cancel_left]
  have hflagged : flagEntries file (table version entries).length (entries.map unflagged) =
      .ok entries := by
    rw [h.layout, flagEntries_eq (by rw [← h.layout]; omega) hranges, hflags]
  have hfirst : readExact "magic length" 4 file = .ok (toLe 4 8,
      pkgMagic ++ version ++ (toLe 4 entries.length ++ (entries.flatMap encodeEntry ++ data))) := by
    rw [h.layout, table]
    simp only [List.append_assoc, hread]
  rw [parseTable, hfirst]
  simp only [ok_bind, height]
  rw [if_neg (by decide)]
  simp only [hreadMagic, ok_bind]
  rw [if_neg (not_not.mpr (List.prefix_append ..)), if_neg hdigits]
  simp only [hread, ok_bind, fromLe_toLe hcount]
  rw [if_neg (Nat.not_lt.mpr h.count)]
  simp only [hentries, ok_bind, hstart, hdata, (checkRanges_iff (by omega) _).mpr hranges, hflagged]

/-- **What opens is a package**, and the reader holds its table. -/
theorem openPackage_iff {file : List UInt8} (hlen : file.length ≤ maxPkgBytes)
    (reader : PkgReader) :
    openPackage file = .ok reader ↔ reader.file = file ∧ ∃ version data,
      IsPackage file version reader.entries data ∧
        reader.dataStart = (table version reader.entries).length := by
  rw [openPackage, if_neg (Nat.not_lt.mpr hlen)]
  constructor
  · intro h
    obtain ⟨⟨entries, dataStart⟩, htable, h⟩ := bind_ok h
    obtain rfl := Except.ok.inj h
    exact ⟨rfl, parseTable_ok hlen htable⟩
  · rintro ⟨hfile, version, data, hpackage, hstart⟩
    obtain ⟨file', dataStart, entries⟩ := reader
    simp only at hfile hstart hpackage
    subst hfile hstart
    rw [parseTable_complete hlen hpackage, ok_bind]

/-! ## No addition leaves 64 bits -/

/-- A computation whose additions stay in 64 bits. -/
structure InRange {α : Type} (x : Except Failure α) : Prop where
  ne : x ≠ .error .overflow

@[simp] theorem inRange_ok {α : Type} (a : α) : InRange (.ok a) := ⟨by simp⟩

@[simp] theorem inRange_error {α : Type} (e : PkgError) :
    InRange (.error (.error e) : Except Failure α) := ⟨by simp⟩

theorem inRange_bind {α β : Type} {x : Except Failure α} {f : α → Except Failure β}
    (hx : InRange x) (hf : ∀ a, x = .ok a → InRange (f a)) : InRange (x >>= f) := by
  cases x with
  | error e => exact ⟨fun h => hx.ne (by simpa using h)⟩
  | ok a => exact hf a rfl

theorem inRange_readExact (what : String) (n : Nat) (rest : List UInt8) :
    InRange (readExact what n rest) := by
  rw [readExact]
  split_ifs <;> simp

theorem inRange_validatePath (path : String) : InRange (validatePath path) := by
  rw [validatePath]
  split_ifs <;> simp

theorem inRange_parseEntries (count total : Nat) (rest : List UInt8) :
    InRange (parseEntries count total rest) := by
  induction count generalizing total rest with
  | zero => exact inRange_ok _
  | succ count ih =>
    rw [parseEntries]
    refine inRange_bind (inRange_readExact _ _ _) fun _ _ => ?_
    dsimp only
    split
    next => exact inRange_error _
    next =>
      refine inRange_bind (inRange_readExact _ _ _) fun _ _ => ?_
      split
      next => exact inRange_error _
      next =>
        refine inRange_bind (inRange_validatePath _) fun _ _ => ?_
        refine inRange_bind (inRange_readExact _ _ _) fun _ _ => ?_
        refine inRange_bind (inRange_readExact _ _ _) fun _ _ => ?_
        split_ifs
        · exact inRange_error _
        · exact inRange_error _
        · exact inRange_bind (ih _ _) fun _ _ => inRange_ok _

theorem inRange_checkRanges (dataLen : Nat) (entries : List PkgEntry) :
    InRange (checkRanges dataLen entries) := by
  induction entries with
  | nil => exact inRange_ok _
  | cons e entries ih =>
    rw [checkRanges]
    split_ifs
    · exact inRange_error _
    · exact inRange_error _
    · exact ih

theorem inRange_flagEntries {file : List UInt8} {start : Nat} {entries : List PkgEntry}
    (h : ∀ e ∈ entries, start + e.offset < 2 ^ 64) : InRange (flagEntries file start entries) := by
  induction entries with
  | nil => exact inRange_ok _
  | cons e entries ih =>
    obtain ⟨he, hentries⟩ := List.forall_mem_cons.mp h
    rw [flagEntries]
    split
    next =>
      rw [addU64, if_pos he, ok_bind]
      refine inRange_bind (inRange_readExact _ _ _) fun _ _ => ?_
      exact inRange_bind (ih hentries) fun _ _ => inRange_ok _
    next => exact inRange_bind (ih hentries) fun _ _ => inRange_ok _

theorem inRange_openPackage (file : List UInt8) : InRange (openPackage file) := by
  rw [openPackage]
  split
  next => exact inRange_error _
  next hlen =>
  refine inRange_bind ?_ fun _ _ => inRange_ok _
  rw [parseTable]
  refine inRange_bind (inRange_readExact _ _ _) fun _ _ => ?_
  dsimp only
  split
  next => exact inRange_error _
  next =>
  refine inRange_bind (inRange_readExact _ _ _) fun magic _ => ?_
  split
  next => exact inRange_error _
  next =>
  split
  next => exact inRange_error _
  next =>
  refine inRange_bind (inRange_readExact _ _ _) fun count _ => ?_
  split
  next => exact inRange_error _
  next =>
  refine inRange_bind (inRange_parseEntries _ _ _) fun parsed _ => ?_
  refine inRange_bind (inRange_checkRanges _ _) fun _ hranges => ?_
  refine inRange_bind ?_ fun _ _ => inRange_ok _
  have hmax : maxPkgBytes < 2 ^ 32 := by decide
  refine inRange_flagEntries fun e he => ?_
  have hrange := (checkRanges_iff (by omega) _).mp hranges e he
  omega

/-! ## What is read of an entry -/

/-- What comes of a payload that begins like a frame. -/
def unframed (d : Decoded) (raw : List UInt8) (cap : Nat) (path : String) :
    Except Failure (List UInt8) :=
  if cap < d.bytes.length then .error (.error (.decompressedSize path (cap + 1) cap))
  else if d.fails then .ok raw
  else .ok d.bytes

theorem slice_append_left (a b : List UInt8) (offset count : Nat) :
    slice (a ++ b) (a.length + offset) count = slice b offset count := by
  rw [slice, slice, ← List.drop_drop, List.drop_left]

section Read

variable (decode : List UInt8 → Decoded)

theorem decompressLz4Bounded_eq (raw : List UInt8) {cap : Nat} (hcap : cap + 1 < 2 ^ 64)
    (path : String) :
    decompressLz4Bounded decode raw cap path =
      if cap < (decode raw).bytes.length then
        .error (.error (.decompressedSize path (cap + 1) cap))
      else if (decode raw).fails then .error (.error (.notAFrame path))
      else .ok (decode raw).bytes := by
  rw [decompressLz4Bounded, addU64, if_pos hcap, ok_bind, Decoded.take]
  by_cases hlong : cap < (decode raw).bytes.length
  · have hlength : ((decode raw).bytes.take (cap + 1)).length = cap + 1 := by
      rw [List.length_take]
      omega
    simp [if_pos hlong, Nat.succ_le_of_lt hlong, hlength]
  · rw [if_neg hlong, if_neg (by omega)]
    cases (decode raw).fails with
    | true => simp
    | false => simp [hlong]

/-- **What is read of an entry.** -/
theorem readEntryBounded_eq {file : List UInt8} (hlen : file.length ≤ maxPkgBytes)
    {reader : PkgReader} (hopen : openPackage file = .ok reader) {idx : Nat} {e : PkgEntry}
    (he : reader.entries[idx]? = some e) {cap : Nat} (hsize : e.size ≤ cap) :
    let raw := slice file (reader.dataStart + e.offset) e.size
    raw.length = e.size ∧
      (¬ lz4FrameMagic <+: raw → readEntryBounded decode reader idx cap = .ok raw) ∧
      (lz4FrameMagic <+: raw → cap + 1 < 2 ^ 64 →
        readEntryBounded decode reader idx cap = unframed (decode raw) raw cap e.path) ∧
      (2 ^ 64 ≤ cap + 1 → lz4FrameMagic <+: raw →
        readEntryBounded decode reader idx cap = .error .overflow) := by
  obtain ⟨hfile, version, data, hpackage, hstart⟩ := (openPackage_iff hlen reader).mp hopen
  have hmem := List.mem_of_getElem? he
  have hraw : slice file (reader.dataStart + e.offset) e.size = slice data e.offset e.size := by
    rw [hpackage.layout, hstart, slice_append_left]
  have hlength := length_slice (hpackage.ranges e hmem)
  have hmax : maxPkgBytes < 2 ^ 32 := by decide
  have hsum : (table version reader.entries).length + data.length ≤ maxPkgBytes := by
    rw [← List.length_append, ← hpackage.layout]
    exact hlen
  have hrange := hpackage.ranges e hmem
  have hpayload : readPayload reader e = .ok (slice data e.offset e.size) := by
    rw [readPayload, addU64, if_pos (by omega), ok_bind, hfile, hraw]
    simp [hlength]
  have hflag := hpackage.flags e hmem
  intro raw
  rw [show raw = slice data e.offset e.size from hraw]
  have hsmall : ¬ cap < e.size := Nat.not_lt.mpr hsize
  refine ⟨hlength, fun hmagic => ?_, fun hmagic hcap => ?_, fun hcap hmagic => ?_⟩
  · rw [readEntryBounded, he]
    simp only [if_neg hsmall, hpayload, ok_bind, hflag, decide_eq_true_eq, if_neg hmagic]
  · rw [readEntryBounded, he, unframed]
    simp only [if_neg hsmall, hpayload, ok_bind, hflag, decide_eq_true_eq, if_pos hmagic,
      decompressLz4Bounded_eq decode _ hcap]
    by_cases hlong : cap < (decode (slice data e.offset e.size)).bytes.length
    · simp only [if_pos hlong]
      rfl
    · simp only [if_neg hlong]
      cases (decode (slice data e.offset e.size)).fails with
      | true => rfl
      | false => rfl
  · have hoverflow : decompressLz4Bounded decode (slice data e.offset e.size) cap e.path =
        .error .overflow := by
      rw [decompressLz4Bounded, addU64, if_neg (by omega), error_bind]
    rw [readEntryBounded, he]
    simp only [if_neg hsmall, hpayload, ok_bind, hflag, decide_eq_true_eq, if_pos hmagic, hoverflow]

theorem length_unframed_le {d : Decoded} {raw out : List UInt8} {cap : Nat} {path : String}
    (hraw : raw.length ≤ cap) (h : unframed d raw cap path = .ok out) : out.length ≤ cap := by
  obtain ⟨hlong, h⟩ := check_ok h
  split at h
  next => exact Except.ok.inj h ▸ hraw
  next => exact Except.ok.inj h ▸ Nat.le_of_not_lt hlong

end Read

/-! ## What was written -/

/-- The entries of payloads that follow one another from `offset` on. -/
def buildEntries : Nat → List (String × List UInt8) → List PkgEntry
  | _, [] => []
  | offset, (path, payload) :: entries =>
    ⟨path, offset, payload.length, false⟩ :: buildEntries (offset + payload.length) entries

/-- `PkgWriter::build`, of the payloads as they are stored. -/
def build (version : List UInt8) (entries : List (String × List UInt8)) : List UInt8 :=
  table version (buildEntries 0 entries) ++ entries.flatMap (·.2)

/-- What the writer and the reader both take. -/
structure Writable (version : List UInt8) (entries : List (String × List UInt8)) : Prop where
  digits : version.length = 4 ∧ ∀ b ∈ version, isAsciiDigit b = true
  count : entries.length ≤ maxPkgEntries
  paths : ∀ e ∈ entries, SafePath e.1 ∧ (Utf8.encode e.1.toList).length ≤ maxPkgPathBytes
  size : (build version entries).length ≤ maxPkgBytes

theorem map_path_buildEntries (offset : Nat) (entries : List (String × List UInt8)) :
    (buildEntries offset entries).map (·.path) = entries.map (·.1) := by
  induction entries generalizing offset with
  | nil => rfl
  | cons e entries ih => rw [buildEntries, List.map_cons, List.map_cons, ih]

theorem sum_buildEntries (offset : Nat) (entries : List (String × List UInt8)) :
    ((buildEntries offset entries).map (·.size)).sum = (entries.flatMap (·.2)).length := by
  induction entries generalizing offset with
  | nil => rfl
  | cons e entries ih =>
    rw [buildEntries, List.map_cons, List.sum_cons, ih, List.flatMap_cons, List.length_append]

theorem mem_buildEntries {offset : Nat} {entries : List (String × List UInt8)} {f : PkgEntry}
    (h : f ∈ buildEntries offset entries) :
    f.offset + f.size ≤ offset + (entries.flatMap (·.2)).length ∧ f.compressed = false ∧
      f.path ∈ entries.map (·.1) := by
  induction entries generalizing offset with
  | nil => simp [buildEntries] at h
  | cons e entries ih =>
    rw [buildEntries] at h
    rw [List.flatMap_cons, List.length_append, List.map_cons]
    rcases List.mem_cons.mp h with rfl | h
    · exact ⟨by simp only; omega, rfl, List.mem_cons_self ..⟩
    · obtain ⟨hrange, hraw, hpath⟩ := ih h
      exact ⟨by omega, hraw, List.mem_cons_of_mem _ hpath⟩

theorem slice_buildEntries (before : List UInt8) {entries : List (String × List UInt8)}
    {idx : Nat} {path : String} {payload : List UInt8} (h : entries[idx]? = some (path, payload)) :
    ∃ offset, (buildEntries before.length entries)[idx]? = some ⟨path, offset, payload.length, false⟩ ∧
      slice (before ++ entries.flatMap (·.2)) offset payload.length = payload := by
  induction entries generalizing before idx with
  | nil => simp at h
  | cons e entries ih =>
    rw [buildEntries, List.flatMap_cons]
    cases idx with
    | zero =>
      obtain rfl : e = (path, payload) := by simpa using h
      refine ⟨before.length, rfl, ?_⟩
      rw [← Nat.add_zero before.length, slice_append_left, slice, List.drop_zero, List.take_left]
    | succ idx =>
      have := ih (before ++ e.2) (by simpa using h)
      rwa [List.length_append, List.append_assoc] at this

theorem openPackage_build {version : List UInt8} {entries : List (String × List UInt8)}
    (h : Writable version entries) :
    openPackage (build version entries) = .ok ⟨build version entries,
      (table version (buildEntries 0 entries)).length,
      (buildEntries 0 entries).map (flagged (entries.flatMap (·.2)))⟩ := by
  have hsize := h.size
  have hmax : maxPkgBytes < 2 ^ 32 := by decide
  have hlength : (buildEntries 0 entries).length = entries.length := by
    rw [← List.length_map (f := (·.path)), map_path_buildEntries, List.length_map]
  have hbound : (entries.flatMap (·.2)).length ≤ maxPkgBytes := by
    rw [build, List.length_append] at hsize
    omega
  refine (openPackage_iff h.size _).mpr ⟨rfl, version, entries.flatMap (·.2), ?_, ?_⟩
  · refine isPackage_flagged h.digits (hlength ▸ h.count) (fun f hf => ?_) ?_ fun f hf => ?_
    · obtain ⟨hrange, hraw, hpath⟩ := mem_buildEntries hf
      obtain ⟨e, he, hfe⟩ := List.mem_map.mp hpath
      refine ⟨hfe ▸ h.paths e he, ?_, ?_, hraw⟩
      · omega
      · omega
    · rw [sum_buildEntries]
      exact hbound
    · obtain ⟨hrange, -, -⟩ := mem_buildEntries hf
      rwa [Nat.zero_add] at hrange
  · rw [table_flagged]

/-- **The package format.**  What opens is what the layout says; an entry is
read as it is stored, or as the frame it begins like; and what was written
comes back. -/
theorem package_round_trip (decode : List UInt8 → Decoded) :
    (∀ file : List UInt8, file.length ≤ maxPkgBytes →
      ((∃ reader, openPackage file = .ok reader) ↔
        ∃ version entries data, IsPackage file version entries data) ∧
      openPackage file ≠ .error .overflow ∧
      ∀ reader, openPackage file = .ok reader → ∀ idx e, reader.entries[idx]? = some e →
        ∀ cap, e.size ≤ cap →
          let raw := slice file (reader.dataStart + e.offset) e.size
          let read := readEntryBounded decode reader idx cap
          raw.length = e.size ∧
          (¬ lz4FrameMagic <+: raw → read = .ok raw) ∧
          (∀ out, read = .ok out → out.length ≤ cap) ∧
          (cap + 1 < 2 ^ 64 → read ≠ .error .overflow ∧
            (lz4FrameMagic <+: raw → read = unframed (decode raw) raw cap e.path))) ∧
    ∀ version entries, Writable version entries → ∃ reader,
      openPackage (build version entries) = .ok reader ∧
      reader.entries.map (·.path) = entries.map (·.1) ∧
      ∀ idx path payload, entries[idx]? = some (path, payload) → ∀ cap, payload.length ≤ cap →
        (¬ lz4FrameMagic <+: payload → readEntryBounded decode reader idx cap = .ok payload) ∧
        (lz4FrameMagic <+: payload → cap + 1 < 2 ^ 64 →
          readEntryBounded decode reader idx cap = unframed (decode payload) payload cap path) := by
  refine ⟨fun file hlen => ⟨⟨?_, ?_⟩, (inRange_openPackage file).ne, ?_⟩, ?_⟩
  · rintro ⟨reader, hopen⟩
    obtain ⟨-, version, data, hpackage, -⟩ := (openPackage_iff hlen reader).mp hopen
    exact ⟨version, reader.entries, data, hpackage⟩
  · rintro ⟨version, entries, data, hpackage⟩
    exact ⟨⟨file, (table version entries).length, entries⟩,
      (openPackage_iff hlen _).mpr ⟨rfl, version, data, hpackage, rfl⟩⟩
  · intro reader hopen idx e he cap hsize raw read
    obtain ⟨hlength, hplain, hframe, hover⟩ := readEntryBounded_eq decode hlen hopen he hsize
    have hraw : raw.length ≤ cap := hlength ▸ hsize
    refine ⟨hlength, hplain, fun out hout => ?_, fun hcap => ⟨?_, fun hmagic => hframe hmagic hcap⟩⟩
    · by_cases hmagic : lz4FrameMagic <+: raw
      · by_cases hcap : cap + 1 < 2 ^ 64
        · exact length_unframed_le hraw ((hframe hmagic hcap).symm.trans hout)
        · exact absurd ((hover (Nat.le_of_not_lt hcap) hmagic).symm.trans hout) (by simp)
      · exact Except.ok.inj ((hplain hmagic).symm.trans hout) ▸ hraw
    · by_cases hmagic : lz4FrameMagic <+: raw
      · rw [show read = _ from hframe hmagic hcap, unframed]
        split_ifs <;> simp
      · rw [show read = _ from hplain hmagic]
        simp
  · intro version entries h
    have hopen := openPackage_build h
    refine ⟨_, hopen, ?_, fun idx path payload he cap hsize => ?_⟩
    · rw [← map_path_buildEntries 0, List.map_map]
      exact List.map_congr_left fun e _ => (flagged_fields _ e).1
    · obtain ⟨offset, hentry, hslice⟩ := slice_buildEntries [] he
      obtain ⟨hpath, hoffset, hlength⟩ := flagged_fields (entries.flatMap (·.2))
        ⟨path, offset, payload.length, false⟩
      have hread := @readEntryBounded_eq decode _ h.size _ hopen idx
        (flagged (entries.flatMap (·.2)) ⟨path, offset, payload.length, false⟩)
        (by simpa using ⟨_, hentry, rfl⟩) cap (hlength ▸ hsize)
      have hraw : slice (build version entries)
          ((table version (buildEntries 0 entries)).length + offset) payload.length = payload := by
        rw [build, slice_append_left]
        exact hslice
      simp only [hoffset, hlength, hpath, hraw] at hread
      exact ⟨hread.2.1, hread.2.2.1⟩

/-- `b"0001"`. -/
def version0001 : List UInt8 := [0x30, 0x30, 0x30, 0x31]

theorem version0001_digits :
    version0001.length = 4 ∧ ∀ b ∈ version0001, isAsciiDigit b = true :=
  ⟨rfl, List.all_eq_true.mp rfl⟩

/-- A package of a `scene.json`. -/
theorem package_round_trip_sceneJson :
    ∃ reader, openPackage (build version0001 [("scene.json", [0x7b, 0x7d])]) = .ok reader ∧
      readEntryBounded (fun _ => ⟨[], true⟩) reader 0 maxPkgEntryBytes = .ok [0x7b, 0x7d] := by
  have hwritable : Writable version0001 [("scene.json", [0x7b, 0x7d])] := by
    refine ⟨version0001_digits, by decide, ?_, by decide⟩
    simp only [List.mem_singleton, forall_eq]
    exact ⟨(validatePath_iff _).mp (by decide), by decide⟩
  obtain ⟨reader, hopen, -, hread⟩ :=
    (package_round_trip fun _ => ⟨[], true⟩).2 version0001 _ hwritable
  exact ⟨reader, hopen, (hread 0 _ _ rfl maxPkgEntryBytes (by decide)).1 (by decide)⟩

/-- An LZ4 frame of nothing. -/
def emptyFrame : List UInt8 :=
  [0x04, 0x22, 0x4d, 0x18, 0x60, 0x40, 0x82, 0x00, 0x00, 0x00, 0x00]

/-- A payload that is a frame comes back as what is in it. -/
theorem package_unframes :
    ∃ reader, openPackage (build version0001 [("a.bin", emptyFrame)]) = .ok reader ∧
      readEntryBounded (fun raw => ⟨[], raw ≠ emptyFrame⟩) reader 0 maxPkgEntryBytes = .ok [] ∧
      (.ok [] : Except Failure (List UInt8)) ≠ .ok emptyFrame := by
  refine ⟨_, openPackage_build ⟨version0001_digits, by decide, ?_, by decide⟩, by decide, by decide⟩
  simp only [List.mem_singleton, forall_eq]
  exact ⟨(validatePath_iff _).mp (by decide), by decide⟩

end Kwe.Scene
