import Mathlib

/-!
The offline metadata cache for subscribed Workshop items: what a scan of the
Steam libraries does to it, its file, and how a start of the daemon opens it.

The JSON library is the parameter `codec`.
-/

namespace Kwe.Workshop

open Std (ExtTreeMap)

def cacheSchemaVersion : Nat := 1

def maxCacheItems : Nat := 25000

def maxCacheBytes : Nat := 16 * 1024 * 1024

abbrev U128 := Fin (2 ^ 128)

def staleEntryMs : Nat := 30 * 24 * 60 * 60 * 1000

def maxCatalogItems : Nat := 25000

def saturatingAdd128 (a b : Nat) : Nat := min (a + b) (2 ^ 128 - 1)

def saturatingSuccUsize (n : Nat) : Nat := min (n + 1) (2 ^ 64 - 1)

/-! ## Catalogs -/

inductive ProjectKind
  | scene | video | web | unknown | invalid
  deriving DecidableEq, Repr

inductive Compatibility
  | rendererDependent | backendMissing | unsupported | invalid
  deriving DecidableEq, Repr

inductive DiagnosticLevel
  | info | warning | error
  deriving DecidableEq, Repr

structure Diagnostic where
  code : String
  level : DiagnosticLevel
  message : String
  deriving DecidableEq, Repr

structure CatalogItem where
  workshopId : String
  title : String
  kind : ProjectKind
  compatibility : Compatibility
  compatibilityDetail : String
  contentRoot : String
  projectFile : String
  entryFile : Option String
  previewFile : Option String
  metadataHash : Option String
  tags : List String
  requestedPermissions : List String
  workshopState : String
  workshopProgress : Option UInt8
  diagnostics : List Diagnostic
  deriving DecidableEq, Repr

structure CatalogStats where
  total : Nat
  scene : Nat
  video : Nat
  web : Nat
  unknown : Nat
  invalid : Nat
  subscribed : Nat
  missing : Nat
  downloading : Nat
  deriving DecidableEq, Repr

/-- A catalog, without the fields that the cache passes by. -/
structure Catalog where
  items : List CatalogItem
  stats : CatalogStats
  deriving DecidableEq, Repr

def Catalog.ids (catalog : Catalog) : List String := catalog.items.map (·.workshopId)

/-! ## Entries -/

structure CachedItem where
  title : String
  kind : ProjectKind
  tags : List String
  previewPresent : Bool
  metadataHash : Option String
  workshopState : String
  workshopProgress : Option UInt8
  lastSeenUnixMs : U128
  deriving DecidableEq, Repr

abbrev Items := ExtTreeMap String CachedItem

def isSubscribedState (state : String) : Bool :=
  state = "subscribed_installed" || state = "downloading" || state = "subscribed_missing"

def placeholderTitle (item : CatalogItem) : Bool :=
  item.title = "Workshop item " ++ item.workshopId

def offlineDiagnostic (message : String) : Diagnostic :=
  { code := "workshop.offline_metadata", level := .info, message := message }

def overlay (item : CatalogItem) (cached : CachedItem) : CatalogItem :=
  let useTitle := placeholderTitle item && cached.title != ""
  let useKind := item.kind = .invalid && cached.kind ≠ .invalid
  let useTags := item.tags.isEmpty && !cached.tags.isEmpty
  let useHash := item.metadataHash.isNone && cached.metadataHash.isSome
  { item with
    title := if useTitle then cached.title else item.title
    kind := if useKind then cached.kind else item.kind
    tags := if useTags then cached.tags else item.tags
    metadataHash := if useHash then cached.metadataHash else item.metadataHash
    diagnostics :=
      if useTitle || useKind || useTags || useHash then
        item.diagnostics ++ [offlineDiagnostic ("Metadata restored from the offline cache; " ++
          "the Steam library is unavailable.")]
      else item.diagnostics }

def synthesizedItem (id : String) (entry : CachedItem) : CatalogItem where
  workshopId := id
  title := if entry.title = "" then "Workshop item " ++ id else entry.title
  kind := entry.kind
  compatibility := .rendererDependent
  compatibilityDetail := "Subscribed in Steam, but the local Workshop files are unavailable"
  contentRoot := ""
  projectFile := ""
  entryFile := none
  previewFile := none
  metadataHash := entry.metadataHash
  tags := entry.tags
  requestedPermissions := []
  workshopState := "subscribed_missing"
  workshopProgress := entry.workshopProgress
  diagnostics := [offlineDiagnostic ("This subscription's Steam library is currently " ++
    "unavailable; metadata is from the offline cache.")]

/-! ## Merging a scan -/

/-- A scanned item with its placeholders filled. -/
def restored (items : Items) (item : CatalogItem) : CatalogItem :=
  if item.workshopState = "subscribed_missing" then
    match items[item.workshopId]? with
    | some cached => overlay item cached
    | none => item
  else item

def missingEntry (cached : Option CachedItem) (item : CatalogItem) (now : U128) : CachedItem where
  title := cached.elim item.title (·.title)
  kind := if item.kind = .invalid then cached.elim item.kind (·.kind) else item.kind
  tags := cached.elim item.tags (·.tags)
  previewPresent := cached.elim false (·.previewPresent)
  metadataHash := cached.bind (·.metadataHash)
  workshopState := item.workshopState
  workshopProgress := item.workshopProgress
  lastSeenUnixMs := now

def installedEntry (cached : Option CachedItem) (item : CatalogItem) (now : U128) : CachedItem where
  title := if placeholderTitle item then cached.elim item.title (·.title) else item.title
  kind := if item.kind = .invalid then cached.elim item.kind (·.kind) else item.kind
  tags := if item.tags.isEmpty then cached.elim [] (·.tags) else item.tags
  previewPresent := item.previewFile.isSome || cached.elim false (·.previewPresent)
  metadataHash := item.metadataHash.or (cached.bind (·.metadataHash))
  workshopState := item.workshopState
  workshopProgress := item.workshopProgress
  lastSeenUnixMs := now

/-- The entry that a scanned item leaves; it reads the item with its
placeholders filled. -/
def updateOf (items : Items) (now : U128) (item : CatalogItem) : Option (String × CachedItem) :=
  let cached := items[item.workshopId]?
  if item.workshopState = "subscribed_missing" then
    some (item.workshopId, missingEntry cached (restored items item) now)
  else if isSubscribedState item.workshopState then
    some (item.workshopId, installedEntry cached item now)
  else none

/-- Two entries with one content, whenever they were seen. -/
def dominated (existing entry : CachedItem) : Bool :=
  existing.title = entry.title && existing.kind = entry.kind && existing.tags = entry.tags &&
    existing.previewPresent = entry.previewPresent &&
    existing.metadataHash = entry.metadataHash &&
    existing.workshopState = entry.workshopState &&
    existing.workshopProgress = entry.workshopProgress

/-- The updates one after another, and whether one of them changed a content. -/
def applyUpdates : Items → Bool → List (String × CachedItem) → Items × Bool
  | items, changed, [] => (items, changed)
  | items, changed, (id, entry) :: updates =>
    let same := items[id]?.elim false (dominated · entry)
    applyUpdates (items.insert id entry) (changed || !same) updates

def CachedItem.isStale (entry : CachedItem) (now : U128) : Bool :=
  saturatingAdd128 entry.lastSeenUnixMs staleEntryMs < now

/-- The entries whose id the scan did not find. -/
def absentEntries (items : Items) (catalog : Catalog) : List (String × CachedItem) :=
  items.toList.filter fun e => !catalog.ids.contains e.1

def agedOut (items : Items) (catalog : Catalog) (now : U128) : List String :=
  ((absentEntries items catalog).filter (·.2.isStale now)).map (·.1)

def toSynthesize (items : Items) (catalog : Catalog) (now : U128) : List (String × CachedItem) :=
  if catalog.items.length < maxCatalogItems then
    (absentEntries items catalog).filter fun e => !e.2.isStale now
  else []

def CatalogStats.addMissing (stats : CatalogStats) (kind : ProjectKind) : CatalogStats :=
  let stats := { stats with
    total := saturatingSuccUsize stats.total
    missing := saturatingSuccUsize stats.missing }
  match kind with
  | .scene => { stats with scene := saturatingSuccUsize stats.scene }
  | .video => { stats with video := saturatingSuccUsize stats.video }
  | .web => { stats with web := saturatingSuccUsize stats.web }
  | .unknown => { stats with unknown := saturatingSuccUsize stats.unknown }
  | .invalid => { stats with invalid := saturatingSuccUsize stats.invalid }

/-- The entry is put in the catalog and touched. -/
def synthesize (now : U128) (state : Items × Catalog) (e : String × CachedItem) : Items × Catalog :=
  (state.1.alter e.1 (Option.map fun entry => { entry with lastSeenUnixMs := now }),
    { items := state.2.items ++ [synthesizedItem e.1 e.2]
      stats := state.2.stats.addMissing e.2.kind })

structure Merged where
  items : Items
  catalog : Catalog
  changed : Bool

def mergeAndUpdate (items : Items) (scanned : Catalog) (now : U128) : Merged :=
  let catalog := { scanned with items := scanned.items.map (restored items) }
  let updated := applyUpdates items false (scanned.items.filterMap (updateOf items now))
  let aged := agedOut updated.1 catalog now
  let fresh := toSynthesize updated.1 catalog now
  let merged := fresh.foldl (synthesize now) (aged.foldl (fun m id => m.erase id) updated.1, catalog)
  { items := merged.1
    catalog := merged.2
    changed := updated.2 || !aged.isEmpty || !fresh.isEmpty }

/-! ## The file -/

structure PersistedCache where
  schemaVersion : Nat
  items : Items

/-- `serde_json::to_vec_pretty` and `serde_json::from_slice`. -/
structure Codec where
  toVecPretty : PersistedCache → ByteArray
  fromSlice : ByteArray → Option PersistedCache

/-- What is encoded decodes to itself. -/
def Codec.RoundTrip (codec : Codec) : Prop :=
  ∀ cache, codec.fromSlice (codec.toVecPretty cache) = some cache

/-- What reading the file gives; a failure comes before or after its size. -/
inductive FileRead
  | notFound
  | metadataError
  | readError (size : Nat)
  | contents (bytes : ByteArray)

/-- The entries that `open` starts with, and whether it set the file aside. -/
def openCache (codec : Codec) : FileRead → Items × Bool
  | .notFound => (∅, false)
  | .metadataError => (∅, false)
  | .readError _ => (∅, true)
  | .contents bytes =>
    if maxCacheBytes < bytes.size then (∅, true)
    else match codec.fromSlice bytes with
    | some cache =>
      if cache.schemaVersion = cacheSchemaVersion && decide (cache.items.size ≤ maxCacheItems) then
        (cache.items, false)
      else (∅, true)
    | none => (∅, true)

def encodeState (codec : Codec) (items : Items) : ByteArray :=
  codec.toVecPretty { schemaVersion := cacheSchemaVersion, items := items }

/-- The first entry that no other entry is older than. -/
def oldest : List (String × CachedItem) → Option (String × CachedItem)
  | [] => none
  | e :: entries => some (entries.foldl
      (fun best f => if f.2.lastSeenUnixMs < best.2.lastSeenUnixMs then f else best) e)

def evictOldest : Nat → Items → Items
  | 0, items => items
  | n + 1, items =>
    match oldest items.toList with
    | some e => evictOldest n (items.erase e.1)
    | none => items

theorem oldest_mem {entries : List (String × CachedItem)} {e : String × CachedItem}
    (h : oldest entries = some e) : e ∈ entries := by
  cases entries with
  | nil => cases h
  | cons first entries =>
    obtain rfl := Option.some.inj h
    clear h
    induction entries generalizing first with
    | nil => exact List.mem_cons_self
    | cons f entries ih =>
      rw [List.foldl_cons]
      rcases List.mem_cons.mp (ih (if f.2.lastSeenUnixMs < first.2.lastSeenUnixMs then f else first))
        with hhead | htail
      · rw [hhead]
        split
        next => exact List.mem_cons_of_mem _ List.mem_cons_self
        next => exact List.mem_cons_self
      · exact List.mem_cons_of_mem _ (List.mem_cons_of_mem _ htail)

theorem size_evictOldest_le (n : Nat) (items : Items) : (evictOldest n items).size ≤ items.size := by
  induction n generalizing items with
  | zero => exact Nat.le_refl _
  | succ n ih =>
    rw [evictOldest]
    split
    next => exact Nat.le_trans (ih _) ExtTreeMap.size_erase_le
    next => exact Nat.le_refl _

theorem size_evictOldest_lt {n : Nat} (hn : 0 < n) {items : Items} (h : 0 < items.size) :
    (evictOldest n items).size < items.size := by
  obtain ⟨n, rfl⟩ := Nat.exists_eq_add_of_lt hn
  rw [Nat.zero_add, evictOldest]
  split
  next e he =>
    have hmem : items.contains e.1 = true := by
      rw [ExtTreeMap.contains_eq_isSome_getElem?,
        ExtTreeMap.mem_toList_iff_getElem?_eq_some.mp (oldest_mem he)]
      rfl
    have hsize := ExtTreeMap.size_erase (t := items) (k := e.1)
    rw [if_pos hmem] at hsize
    have := size_evictOldest_le n (items.erase e.1)
    omega
  next hnone =>
    rw [← ExtTreeMap.length_toList] at h
    cases hl : items.toList with
    | nil => rw [hl] at h; cases h
    | cons e entries => rw [hl] at hnone; cases hnone

/-- How many entries a pass of `save` evicts. -/
def toEvict (size count : Nat) : Nat :=
  let overshoot := size - maxCacheBytes
  let perEntry := max (size / max count 1) 1
  min (overshoot / perEntry + 1) count

theorem toEvict_pos (size : Nat) {count : Nat} (h : 0 < count) : 0 < toEvict size count :=
  Nat.lt_min.mpr ⟨Nat.succ_pos _, h⟩

/-- The entries that are left when their text fits the file. -/
def fitItems (codec : Codec) (items : Items) : Items :=
  let size := (encodeState codec items).size
  if _h : maxCacheBytes < size ∧ 0 < items.size then
    fitItems codec (evictOldest (toEvict size items.size) items)
  else items
termination_by items.size
decreasing_by exact size_evictOldest_lt (toEvict_pos _ _h.2) _h.2

/-- The entries that `save` keeps, and the bytes it writes. -/
def save (codec : Codec) (items : Items) : Items × Option ByteArray :=
  let items := fitItems codec items
  let bytes := encodeState codec items
  (items, if maxCacheBytes < bytes.size then none else some bytes)

theorem save_of_fits {codec : Codec} {items : Items}
    (h : (encodeState codec items).size ≤ maxCacheBytes) :
    save codec items = (items, some (encodeState codec items)) := by
  have hfit : fitItems codec items = items := by
    rw [fitItems, dif_neg fun hlarge => Nat.not_lt.mpr h hlarge.1]
  rw [save, hfit, if_neg (Nat.not_lt.mpr h)]

end Kwe.Workshop
