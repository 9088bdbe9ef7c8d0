import Kwe.Foundation.Json
import Kwe.Workshop.Cache
import Kwe.Workshop.Manifest

/-!
`scan_installed`: the catalog of the Workshop items in the libraries, from their
manifests and their project directories.

The JSON reader, the hash and the lower-casing of titles are parameters.
-/

namespace Kwe.Workshop

open Foundation

structure ScanLimits where
  maxProjects : Nat
  maxProjectJsonBytes : Nat

def ScanLimits.default : ScanLimits := ⟨25000, 4 * 1024 * 1024⟩

/-! ## Project directories -/

/-- What is at `project.json`. -/
inductive ProjectJson
  | unavailable (error : String)
  | unsafeType
  | file (size : Nat) (contents : Except String (List UInt8))

/-- What is at a path under a project; `inside` and `outside` are canonical. -/
inductive Child
  | absent
  | unresolved
  | outside
  | inside (canonical : String) (isFile : Bool)

structure ProjectDir where
  /-- The bytes of its name. -/
  name : List UInt8
  path : String
  projectJson : ProjectJson
  child : String → Child
  /-- `scene.pkg`, if it is a file. -/
  package : Option String

def ProjectDir.workshopId (dir : ProjectDir) : String :=
  ((Utf8.decode dir.name).map String.ofList).getD "unknown"

/-- `truncate_chars`. -/
def truncateChars (value : String) (limit : Nat) : String := String.ofList (value.toList.take limit)

def stringField (value : Json) (key : String) : Option String := (value.field key).bind Json.asStr

def unsafePath (relative : String) : Bool :=
  relative.toList.head? = some '/' || (relative.toList.splitOn '/').contains "..".toList

/-- The path of a field, whether there is something, and whether it is a file. -/
structure Found where
  path : String
  isThere : Bool
  isFile : Bool

def safeChildField (dir : ProjectDir) (value : Json) (field : String) :
    Option Found × List Diagnostic :=
  match stringField value field with
  | none => (none, [])
  | some relative =>
    if 4096 < relative.utf8ByteSize then
      (none, [⟨"project.path_too_long", .error, "Rejected overlong '" ++ field ++ "' path"⟩])
    else if unsafePath relative then
      (none, [⟨"project.unsafe_path", .error, "Rejected unsafe '" ++ field ++ "' path"⟩])
    else
      match dir.child relative with
      | .absent => (some ⟨dir.path ++ "/" ++ relative, false, false⟩, [])
      | .unresolved => (none, [])
      | .outside =>
        (none, [⟨"project.symlink_escape", .error,
          "Rejected '" ++ field ++ "' symlink outside the project"⟩])
      | .inside canonical isFile => (some ⟨canonical, true, isFile⟩, [])

/-- The item of a directory whose metadata cannot be used. -/
def fallbackItem (dir : ProjectDir) (hash : Option String) (code message : String) : CatalogItem where
  workshopId := dir.workshopId
  title := "Workshop item " ++ dir.workshopId
  kind := .invalid
  compatibility := .invalid
  compatibilityDetail := "Metadata could not be loaded safely"
  contentRoot := dir.path
  projectFile := dir.path ++ "/project.json"
  entryFile := none
  previewFile := none
  metadataHash := hash
  tags := []
  requestedPermissions := []
  workshopState := "local"
  workshopProgress := none
  diagnostics := [⟨code, .error, message⟩]

def projectKind (value : Json) : ProjectKind :=
  let rawKind := String.ofList (((stringField value "type").getD "").toList.map Char.toLower)
  if rawKind = "scene" then .scene
  else if rawKind = "video" then .video
  else if rawKind = "web" then .web
  else .unknown

def compatibilityOf : ProjectKind → Compatibility × String
  | .scene => (.rendererDependent,
      "Scene metadata is indexed; Alpha renderer parity is not yet claimed")
  | .video => (.rendererDependent, "libmpv worker with software fallback; static video preflight")
  | .web => (.rendererDependent,
      "sandboxed Chromium worker; network and audio off until granted")
  | .unknown | .invalid =>
    (.unsupported, "Missing or unrecognized Wallpaper Engine project type")

/-- The texts in an array. -/
def textsOf (value : Json) (key : String) : List String :=
  match value.field key with
  | some (.array values) => values.filterMap Json.asStr
  | _ => []

/-- The item of a directory whose metadata is read. -/
def projectItem (dir : ProjectDir) (hash : String) (value : Json) : CatalogItem :=
  let kind := projectKind value
  let (entry, entryDiagnostics) := safeChildField dir value "file"
  let entry : Option Found :=
    match entry, dir.package with
    | some found, some package =>
      if kind = .scene ∧ found.isThere = false then some ⟨package, true, true⟩ else some found
    | entry, _ => entry
  let (preview, previewDiagnostics) := safeChildField dir value "preview"
  { workshopId := dir.workshopId
    title :=
      match stringField value "title" with
      | some title =>
        if title.toList.all isWhitespace then "Workshop item " ++ dir.workshopId
        else truncateChars title 256
      | none => "Workshop item " ++ dir.workshopId
    kind := kind
    compatibility := (compatibilityOf kind).1
    compatibilityDetail := (compatibilityOf kind).2
    contentRoot := dir.path
    projectFile := dir.path ++ "/project.json"
    entryFile := entry.map (·.path)
    previewFile := (preview.filter (·.isFile)).map (·.path)
    metadataHash := some hash
    tags := ((textsOf value "tags").map (truncateChars · 64)).take 32
    requestedPermissions :=
      (((textsOf value "permissions").map (truncateChars · 64)).filter fun text =>
        text = "network" || text = "pointer" || text = "audio").take 16
    workshopState := "local"
    workshopProgress := none
    diagnostics := entryDiagnostics ++ previewDiagnostics ++
      if entry.any (!·.isThere) then
        [⟨"project.entry_missing", .warning, "The declared entry file does not exist"⟩]
      else [] }

section Scan

variable (fromSlice : List UInt8 → Except String Json) (sha256 : List UInt8 → String)
  (toLowercase : String → String) (limits : ScanLimits)

def scanProject (dir : ProjectDir) : CatalogItem :=
  match dir.projectJson with
  | .unavailable error =>
    fallbackItem dir none "project.metadata_missing" ("project.json is unavailable: " ++ error)
  | .unsafeType =>
    fallbackItem dir none "project.metadata_unsafe_type"
      "project.json must be a regular, non-symlink file"
  | .file size contents =>
    if limits.maxProjectJsonBytes < size then
      fallbackItem dir none "project.metadata_too_large"
        ("project.json is " ++ toString size ++ " bytes; limit is " ++
          toString limits.maxProjectJsonBytes)
    else
      match contents with
      | .error error => fallbackItem dir none "project.metadata_unreadable" error
      | .ok bytes =>
        match fromSlice bytes with
        | .error error =>
          fallbackItem dir (some (sha256 bytes)) "project.metadata_invalid_json" error
        | .ok value => projectItem dir (sha256 bytes) value

/-! ## Libraries -/

/-- A library as the scan finds it: its manifests, and the directories in its
Workshop directory, in the order of the file system. -/
structure ScannedLibrary where
  manifests : Library
  workshopAvailable : Bool
  projects : Except String (List ProjectDir)

/-- What a library's manifest subscribes to. -/
abbrev Subscriptions := Except ManifestError (List (Vdf.Text × Option Nat))

/-- The text of an id; it consists of digits. -/
def idText (key : Vdf.Text) : String := String.ofList (key.map fun b => Char.ofNat b.toNat)

/-- `workshop_progress`, and with its keys `subscribed_ids`. -/
def workshopProgressOf (subscriptions : List Subscriptions) : List (String × Option UInt8) :=
  subscriptions.foldl
    (fun progress => fun
      | .ok items =>
        SortedMap.insertAll progress (items.map fun e => (idText e.1, e.2.map UInt8.ofNat))
      | .error _ => progress) []

/-- The directories of a library, in order. -/
def ScannedLibrary.roots (lib : ScannedLibrary) : List ProjectDir :=
  if lib.workshopAvailable then
    match lib.projects with
    | .ok entries =>
      (entries.take (limits.maxProjects + 1)).mergeSort fun a b => !decide (b.name < a.name)
    | .error _ => []
  else []

def addProjects (items : List CatalogItem) (lib : ScannedLibrary) : List CatalogItem :=
  items ++ ((lib.roots limits).take (limits.maxProjects - items.length)).map
    (scanProject fromSlice sha256 limits)

def markSubscribed (progress : List (String × Option UInt8)) (item : CatalogItem) : CatalogItem :=
  match SortedMap.get progress item.workshopId with
  | some value =>
    { item with
      workshopProgress := value
      workshopState := if value.any (· < 100) then "downloading" else "subscribed_installed" }
  | none => item

def missingItem (id : String) (progress : Option UInt8) : CatalogItem where
  workshopId := id
  title := "Workshop item " ++ id
  kind := .invalid
  compatibility := .invalid
  compatibilityDetail := "Subscribed in Steam, but the local Workshop files are unavailable"
  contentRoot := ""
  projectFile := ""
  entryFile := none
  previewFile := none
  metadataHash := none
  tags := []
  requestedPermissions := []
  workshopState := "subscribed_missing"
  workshopProgress := progress
  diagnostics := [⟨"workshop.item_missing", .warning,
    "Steam reports this item as subscribed, but no local project directory was found"⟩]

def CatalogStats.zero : CatalogStats := ⟨0, 0, 0, 0, 0, 0, 0, 0, 0⟩

def CatalogStats.addKind (stats : CatalogStats) : ProjectKind → CatalogStats
  | .scene => { stats with scene := stats.scene + 1 }
  | .video => { stats with video := stats.video + 1 }
  | .web => { stats with web := stats.web + 1 }
  | .unknown => { stats with unknown := stats.unknown + 1 }
  | .invalid => { stats with invalid := stats.invalid + 1 }

def CatalogStats.addState (stats : CatalogStats) (state : String) : CatalogStats :=
  if state = "subscribed_installed" then { stats with subscribed := stats.subscribed + 1 }
  else if state = "subscribed_missing" then { stats with missing := stats.missing + 1 }
  else if state = "downloading" then { stats with downloading := stats.downloading + 1 }
  else stats

def CatalogStats.fromItems (items : List CatalogItem) : CatalogStats :=
  items.foldl (fun stats item => (stats.addKind item.kind).addState item.workshopState)
    { CatalogStats.zero with total := items.length }

/-- The order of the catalog. -/
def itemLe (a b : CatalogItem) : Bool :=
  decide (toLowercase a.title < toLowercase b.title) ||
    (toLowercase a.title = toLowercase b.title && !decide (b.workshopId < a.workshopId))

/-- The libraries come with what `read_workshop_subscriptions` gives for each. -/
def scanInstalled (libraries : List ScannedLibrary) (subscriptions : List Subscriptions) :
    Catalog :=
  let progress := workshopProgressOf subscriptions
  let installed := libraries.foldl (addProjects fromSlice sha256 limits) []
  let installedIds := installed.map (·.workshopId)
  let missing := (progress.filter fun e => !installedIds.contains e.1).take limits.maxProjects
  let items := installed.map (markSubscribed progress) ++
    missing.map fun e => missingItem e.1 e.2
  let sorted := items.mergeSort (itemLe toLowercase)
  { items := sorted, stats := .fromItems sorted }

end Scan

end Kwe.Workshop
