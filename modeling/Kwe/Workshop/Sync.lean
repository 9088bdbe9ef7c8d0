import Kwe.Foundation.Lines
import Kwe.Foundation.Json
import Kwe.Foundation.Simulation
import Kwe.Foundation.SortedMap
import Kwe.Workshop.Manifest

/-!
The command that downloads Workshop items with SteamCMD, `workshop-sync`.

* `mem_downloaded`: an id that SteamCMD's output is read to have downloaded has a line that
  says so;
* `run_cases`: what a run that reports anything has gone through;
* `accounted_iff`: when the report accounts for every id that is wanted.

Given are what the sources of subscriptions and the details requests answer, what SteamCMD
prints, and whether directories can be created.  Left out are the argument lists.
-/

namespace Kwe.Workshop.Sync

open Foundation Kwe.Vdf

def wallpaperEngineAppId : String := "431960"

/-- `MAX_IDS`. -/
def maxIds : Nat := 5000

/-- `IDS_PER_STEAMCMD_RUN`. -/
def idsPerSteamcmdRun : Nat := 25

/-- `MAX_OUTPUT_BYTES`. -/
def maxOutputBytes : Nat := 8 * 1024 * 1024

structure SyncOptions where
  steamUser : String
  root : String
  manifestRoots : List String
  collections : List String
  items : List String
  apiKey : Option String
  steamid : Option String
  assets : Bool
  dryRun : Bool
  rescanSocket : Option String

inductive ItemOutcome
  | downloaded (path : String)
  | failed (reason : String)
  | skipped (reason : String)
  deriving DecidableEq, Repr

/-- An id is its bytes. -/
abbrev Item := Text × ItemOutcome

structure SyncReport where
  sources : List String
  items : List Item
  assets : Option (Except String String)
  loginFailure : Option String
  rescan : Option String

/-- `Default::default`. -/
def SyncReport.new : SyncReport := ⟨[], [], none, none, none⟩

def SyncReport.downloaded (report : SyncReport) : Nat :=
  report.items.countP fun item =>
    match item.2 with
    | .downloaded _ => true
    | .failed _ | .skipped _ => false

/-- What the command meets outside. -/
structure World where
  /-- The ids that the manifest under a root lists, if there is one. -/
  manifest : Nat → Except String (Option (List (Text × Unit)))
  subscriptions : Except String (List Text)
  collection : Nat → Except String (List Text)
  /-- The reply to a details request. -/
  details : Nat → Except String String
  fromStr : String → Option Json
  createRoot : Except String Unit
  canonicalRoot : Option String
  /-- The output of a SteamCMD run, or why it could not be launched or was killed. -/
  steamcmd : Nat → Except String (List Char)
  createInstallDir : Except String Unit
  appUpdate : Except String (List Char)
  assetsDir : Bool
  callDaemon : Except String (Bool × String)

/-! ## Validation -/

def validateSteamUser (user : String) : Except String Unit :=
  if user ≠ "" ∧ user.utf8ByteSize ≤ 64 ∧
      user.toList.all fun c => c.isAlphanum || c = '_' || c = '.' || c = '-' then .ok ()
  else .error ("--user must be 1..=64 letters, digits, '_', '.', or '-' (the Steam account name, " ++
    "not the profile name)")

/-- `char::is_control`. -/
def isControl (c : Char) : Bool := c.toNat < 0x20 || (0x7F ≤ c.toNat && c.toNat < 0xA0)

def validateRoot (root : String) : Except String Unit :=
  if root = "" ∨ "+".toList <+: root.toList ∨ root.toList.any isControl then
    .error "--root must be a plain absolute path that does not start with '+'"
  else .ok ()

/-! ## The details of items -/

def asI64 : Json → Option Int
  | .nat n => if n < 2 ^ 63 then some n else none
  | .neg n => if n < 2 ^ 63 then some (-(n + 1)) else none
  | _ => none

def asU64 : Json → Option Nat
  | .nat n => if n < 2 ^ 64 then some n else none
  | _ => none

def asArray : Json → Option (List Json)
  | .array items => some items
  | _ => none

/-- The id of a detail. -/
def detailId (detail : Json) : Option Text :=
  ((Json.field detail "publishedfileid").bind Json.asStr).bind fun id => parseItemId id.toList

/-- Items of Wallpaper Engine, with their titles, and other ids. -/
abbrev Details := List (Text × String) × List Text

def readDetail (read : Details) (detail : Json) : Details :=
  match detailId detail with
  | none => read
  | some id =>
    if (Json.field detail "result").bind asI64 ≠ some 1 then (read.1, read.2 ++ [id])
    else
      let appId := Json.field detail "consumer_app_id"
      let app := ((appId.bind asU64).map toString).or (appId.bind Json.asStr)
      if app = some wallpaperEngineAppId then
        let title := ((Json.field detail "title").bind Json.asStr).getD ""
        (read.1 ++ [(id, String.ofList (title.toList.take 120))], read.2)
      else (read.1, read.2 ++ [id])

def parsePublishedDetails (fromStr : String → Option Json) (body : String) :
    Except String Details :=
  match fromStr body with
  | none => .error "details reply is not JSON"
  | some value =>
    let response := Json.field value "response"
    match (response.bind fun r => Json.field r "publishedfiledetails").bind asArray with
    | none => .error "details reply has no publishedfiledetails"
    | some details => .ok (details.foldl readDetail ([], []))

/-! ## SteamCMD's output -/

structure SteamcmdOutcome where
  loginFailure : Option String
  downloaded : List (Text × String)
  failed : List (Text × String)
  appInstalled : Bool
  appError : Option String
  deriving DecidableEq, Repr

/-- `Default::default`. -/
def SteamcmdOutcome.new : SteamcmdOutcome := ⟨none, [], [], false, none⟩

/-- `str::lines`. -/
def linesOf (output : List Char) : List (List Char) :=
  let rest := Lines.rest '\n' [] output
  Lines.lines '\n' [] output ++ if rest = [] then [] else [rest]

/-- The text before the first separator and the text after it, as `splitn(2, …)` gives them. -/
def splitOnce (sep : List Char) : List Char → List Char × List Char
  | [] => ([], [])
  | c :: text =>
    if sep <+: c :: text then ([], (c :: text).drop sep.length)
    else
      let parts := splitOnce sep text
      (c :: parts.1, parts.2)

/-- The id and the path of a line after `Success. Downloaded item `. -/
def readSuccess (rest : List Char) : List Char × String :=
  let parts := splitOnce " to ".toList rest
  let path := ((trim parts.2).dropWhile (· = '"')).takeWhile (· ≠ '"')
  (trim parts.1, String.ofList path)

/-- The id and the reason of a line after `ERROR! Download item `. -/
def readError (rest : List Char) : List Char × String :=
  let parts := splitOnce " failed".toList rest
  let outer := fun c => c = '(' || c = ')' || c = '.' || c = ' '
  let reason := ((trim parts.2).dropWhile outer).rdropWhile outer
  (trim parts.1, if reason = [] then "failure" else String.ofList reason)

/-- An entry for an id, when it is one. -/
def entryOf (read : List Char × String) : List (Text × String) :=
  if (parseItemId read.1).isSome then [(Utf8.encode read.1, read.2)] else []

/-- The rest of the loop's body, for a line that does not begin the login. -/
def readOutcome (outcome : SteamcmdOutcome) (loggingIn : Bool) (line : List Char) :
    SteamcmdOutcome × Bool :=
  match "Success. Downloaded item ".toList.isPrefixOf? line with
  | some rest =>
    ({ outcome with downloaded := outcome.downloaded ++ entryOf (readSuccess rest) }, loggingIn)
  | none =>
  match "ERROR! Download item ".toList.isPrefixOf? line with
  | some rest => ({ outcome with failed := outcome.failed ++ entryOf (readError rest) }, loggingIn)
  | none =>
  if (loggingIn ∧ "FAILED".toList <+: line) ∨ "Login Failure".toList <:+: line ∨
      "FAILED login".toList <+: line then
    ({ outcome with loginFailure := some (String.ofList (line.take 160)) }, false)
  else if "fully installed".toList <:+: line then
    ({ outcome with appInstalled := true }, loggingIn)
  else if "Error! App".toList <+: line ∨ "ERROR! App".toList <+: line then
    ({ outcome with appError := some (String.ofList (line.take 200)) }, loggingIn)
  else (outcome, loggingIn)

/-- A `FAILED (…)` line is a failure of the login only while that is in progress. -/
def readLine (s : SteamcmdOutcome × Bool) (raw : List Char) : SteamcmdOutcome × Bool :=
  let line := trim raw
  if "Logging in user".toList <+: line then (s.1, ¬ "OK".toList <:+ line)
  else if line = "OK".toList ∨ "Logged in OK".toList <+: line ∨
      "Waiting for".toList <+: line then
    readOutcome s.1 false line
  else readOutcome s.1 s.2 line

def parseSteamcmdOutput (output : List Char) : SteamcmdOutcome :=
  ((linesOf output).foldl readLine (.new, false)).1

def outputTruncated (output : List Char) : Bool := maxOutputBytes ≤ (Utf8.encode output).length

/-! ## The run -/

/-- `slice::chunks`; `fuel` bounds their number. -/
def chunksFrom {α : Type} (size : Nat) : Nat → List α → List (List α)
  | 0, _ => []
  | _ + 1, [] => []
  | fuel + 1, id :: ids =>
    (id :: ids).take size :: chunksFrom size fuel ((id :: ids).drop size)

def chunks {α : Type} (size : Nat) (ids : List α) : List (List α) :=
  chunksFrom size ids.length ids

/-- A set of ids, in order. -/
abbrev Wanted := List (Text × Unit)

def insertIds (wanted : Wanted) (ids : List Text) : Wanted :=
  SortedMap.insertAll wanted (ids.map fun id => (id, ()))

/-- The sources reported, and the ids they give. -/
abbrev Gathered := List String × Wanted

def addManifest (w : World) (s : Gathered) (root : String × Nat) : Except String Gathered :=
  match w.manifest root.2 with
  | .error e => .error e
  | .ok none =>
    .ok (s.1 ++ ["manifest " ++ root.1 ++ ": no steamapps/workshop/appworkshop_" ++
      wallpaperEngineAppId ++ ".acf"], s.2)
  | .ok (some ids) =>
    .ok (s.1 ++ ["manifest " ++ root.1 ++ ": " ++ toString ids.length ++ " subscribed items"],
      SortedMap.insertAll s.2 ids)

/-- A source that fails is reported and skipped. -/
def addSubscriptions (options : SyncOptions) (w : World) (s : Gathered) : Gathered :=
  match options.apiKey, options.steamid with
  | some _, some steamid =>
    match w.subscriptions with
    | .ok ids =>
      (s.1 ++ ["web api subscriptions for " ++ steamid ++ ": " ++ toString ids.length ++ " items"],
        insertIds s.2 ids)
    | .error e => (s.1 ++ ["web api subscriptions FAILED: " ++ e], s.2)
  | _, _ => s

def addCollection (w : World) (s : Gathered) (collection : String × Nat) : Gathered :=
  match w.collection collection.2 with
  | .ok ids =>
    (s.1 ++ ["collection " ++ collection.1 ++ ": " ++ toString ids.length ++ " items"],
      insertIds s.2 ids)
  | .error e => (s.1 ++ ["collection " ++ collection.1 ++ " FAILED: " ++ e], s.2)

def addItem (s : Gathered) (item : String) : Except String Gathered :=
  match parseItemId item.toList with
  | none => .error ("--item " ++ item ++ " is not a Workshop id or URL")
  | some id => .ok (s.1, insertIds s.2 [id])

/-- What `run` reads of its sources. -/
def gather (options : SyncOptions) (w : World) : Except String Gathered := do
  let s ← options.manifestRoots.zipIdx.foldlM (addManifest w) ([], [])
  let s := addSubscriptions options w s
  let s := options.collections.zipIdx.foldl (addCollection w) s
  options.items.foldlM addItem s

/-- The items and sources that validation reports, and the ids it keeps. -/
structure Validated where
  items : List Item
  sources : List String
  kept : List Text

def notOurs : ItemOutcome :=
  .skipped "not a Wallpaper Engine Workshop item (or not public)"

/-- `fetch_details`. -/
def fetchDetails (w : World) (request : Nat) : Except String Details :=
  match w.details request with
  | .error e => .error e
  | .ok body => parsePublishedDetails w.fromStr body

/-- What is asked for is kept when the request fails. -/
def validateChunk (w : World) (s : Validated) (chunk : List Text × Nat) : Validated :=
  match fetchDetails w chunk.2 with
  | .ok (ours, foreign) =>
    { s with
      items := s.items ++ foreign.map fun id => (id, notOurs)
      kept := s.kept ++ ours.map (·.1) }
  | .error e =>
    { s with
      sources := s.sources ++ ["item validation skipped: " ++ e]
      kept := s.kept ++ chunk.1 }

def validate (w : World) (sources : List String) (ids : List Text) : Validated :=
  (chunks 100 ids).zipIdx.foldl (validateChunk w) ⟨[], sources, []⟩

/-- The outcome of an item, as the output of its batch tells. -/
def itemOutcome (output : List Char) (id : Text) : ItemOutcome :=
  let outcome := parseSteamcmdOutput output
  match outcome.downloaded.find? fun done => done.1 = id with
  | some done => .downloaded done.2
  | none =>
    match outcome.failed.find? fun failed => failed.1 = id with
    | some failed => .failed failed.2
    | none =>
      .failed (if outputTruncated output then
        "steamcmd output exceeded the capture cap; outcome unknown"
      else "steamcmd reported neither success nor failure")

def loginFailed : ItemOutcome := .failed "steamcmd login failed"

def notAttempted : ItemOutcome := .failed "not attempted: earlier steamcmd login failure"

/-- The batches, one after another, until a login fails. -/
def runBatches (w : World) : List (List Text × Nat) → List Item →
    Except String (List Item × Option String)
  | [], items => .ok (items, none)
  | batch :: later, items =>
    match w.steamcmd batch.2 with
    | .error e => .error e
    | .ok output =>
      match (parseSteamcmdOutput output).loginFailure with
      | some failure =>
        .ok (items ++ (batch.1.map fun id => (id, loginFailed)) ++
          ((later.flatMap (·.1)).map fun id => (id, notAttempted)), some failure)
      | none => runBatches w later (items ++ batch.1.map fun id => (id, itemOutcome output id))

/-- `Path::join`. -/
def join (root tail : String) : String :=
  if "/".toList <:+ root.toList then root ++ tail else root ++ "/" ++ tail

/-- The installation of the assets. -/
def installAssets (w : World) (root : String) (report : SyncReport) :
    Except String SyncReport := do
  let installDir := join root "steamapps/common/wallpaper_engine"
  w.createInstallDir
  let output ← w.appUpdate
  let outcome := parseSteamcmdOutput output
  return match outcome.loginFailure with
    | some failure =>
      { report with loginFailure := some failure, assets := some (.error failure) }
    | none =>
      if outcome.appInstalled ∨ w.assetsDir then
        { report with assets := some (.ok (join installDir "assets")) }
      else
        { report with
          assets := some (.error (outcome.appError.getD
            "steamcmd did not report the app as installed")) }

def rescan (options : SyncOptions) (w : World) (report : SyncReport) : SyncReport :=
  if options.rescanSocket.isSome ∧ 0 < report.downloaded then
    { report with
      rescan := some (match w.callDaemon with
        | .ok (true, _) => "daemon rescanned"
        | .ok (false, response) => "daemon rescan refused: " ++ response
        | .error e => "daemon not reached (" ++ e ++ "); it rescans on its own schedule") }
  else report

def dryRun (options : SyncOptions) (root : String) (sources : List String) (ids : List Text) :
    SyncReport :=
  { SyncReport.new with
    sources := sources
    items := ids.map fun id => (id, .skipped "dry run")
    assets :=
      if options.assets then
        some (.ok ("dry run: would install the app's Windows build under " ++
          join root "steamapps/common/wallpaper_engine"))
      else none }

/-- What follows the dry run. -/
def download (options : SyncOptions) (w : World) (root : String) (v : Validated) :
    Except String SyncReport := do
  let (items, loginFailure) ← runBatches w (chunks idsPerSteamcmdRun v.kept).zipIdx v.items
  let report : SyncReport :=
    { SyncReport.new with sources := v.sources, items := items, loginFailure := loginFailure }
  let report ←
    (if options.assets ∧ loginFailure.isNone then installAssets w root report else .ok report)
  return rescan options w report

def nothingToSync : String :=
  "nothing to sync: give --manifest-root <steam root with appworkshop_431960.acf>, " ++
    "--collection <id|url>, --item <id|url>, or --api-key/--steamid (see docs/macos/CONTENT.md)"

def run (options : SyncOptions) (w : World) : Except String SyncReport := do
  validateSteamUser options.steamUser
  validateRoot options.root
  let (sources, wanted) ← gather options w
  if wanted = [] ∧ options.assets = false then
    throw nothingToSync
  if maxIds < wanted.length then
    throw (toString wanted.length ++ " items requested; the bound is " ++ toString maxIds)
  let ids := wanted.map (·.1)
  let v := if options.dryRun then ⟨[], sources, ids⟩ else validate w sources ids
  w.createRoot
  let root := w.canonicalRoot.getD options.root
  if options.dryRun then return dryRun options root sources ids
  download options w root v

/-! ## What the output says -/

/-- A line of the output says that the item was downloaded. -/
def Succeeded (output : List Char) (id : Text) : Prop :=
  ∃ raw ∈ linesOf output, ∃ name rest,
    trim raw = "Success. Downloaded item ".toList ++ name ++ rest ∧
      Utf8.encode (trim name) = id ∧ (rest = [] ∨ " to ".toList <+: rest)

theorem splitOnce_split (sep text : List Char) :
    ∃ rest, text = (splitOnce sep text).1 ++ rest ∧ (rest = [] ∨ sep <+: rest) := by
  induction text with
  | nil => exact ⟨[], rfl, Or.inl rfl⟩
  | cons c text ih =>
    rw [splitOnce]
    split
    · rename_i hsep
      exact ⟨c :: text, rfl, Or.inr hsep⟩
    · obtain ⟨rest, htext, hrest⟩ := ih
      exact ⟨rest, by rw [List.cons_append, ← htext], hrest⟩

/-- What a line adds to the downloads is what the line says. -/
theorem mem_readOutcome {outcome : SteamcmdOutcome} {loggingIn : Bool} {line : List Char}
    {done : Text × String} (h : done ∈ (readOutcome outcome loggingIn line).1.downloaded) :
    done ∈ outcome.downloaded ∨ ∃ name rest,
      line = "Success. Downloaded item ".toList ++ name ++ rest ∧
        Utf8.encode (trim name) = done.1 ∧ (rest = [] ∨ " to ".toList <+: rest) := by
  unfold readOutcome at h
  split at h
  · rename_i rest hline
    rcases List.mem_append.mp h with h | h
    · exact Or.inl h
    · obtain ⟨tail, hrest, htail⟩ := splitOnce_split " to ".toList rest
      refine Or.inr ⟨(splitOnce " to ".toList rest).1, tail, ?_, ?_, htail⟩
      · rw [List.append_assoc, ← hrest]
        exact (List.isPrefixOf?_eq_some_iff_append_eq.mp hline).symm
      · unfold entryOf at h
        split at h
        · rw [List.mem_singleton.mp h]
          rfl
        · cases h
  · split at h
    · exact Or.inl h
    · split at h
      · exact Or.inl h
      · split at h
        · exact Or.inl h
        · split at h
          · exact Or.inl h
          · exact Or.inl h

theorem mem_readLine {s : SteamcmdOutcome × Bool} {raw : List Char} {done : Text × String}
    (h : done ∈ (readLine s raw).1.downloaded) :
    done ∈ s.1.downloaded ∨ ∃ name rest,
      trim raw = "Success. Downloaded item ".toList ++ name ++ rest ∧
        Utf8.encode (trim name) = done.1 ∧ (rest = [] ∨ " to ".toList <+: rest) := by
  unfold readLine at h
  simp only at h
  split at h
  · exact Or.inl h
  · split at h
    · exact mem_readOutcome h
    · exact mem_readOutcome h

/-- Downloads that are read off an output have a line that says so. -/
theorem mem_downloaded {output : List Char} {done : Text × String}
    (h : done ∈ (parseSteamcmdOutput output).downloaded) : Succeeded output done.1 := by
  have hfold : ∀ (lines : List (List Char)) (s : SteamcmdOutcome × Bool),
      done ∈ (lines.foldl readLine s).1.downloaded →
      done ∈ s.1.downloaded ∨ ∃ raw ∈ lines, ∃ name rest,
        trim raw = "Success. Downloaded item ".toList ++ name ++ rest ∧
          Utf8.encode (trim name) = done.1 ∧ (rest = [] ∨ " to ".toList <+: rest) := by
    intro lines
    induction lines with
    | nil => exact fun s hs => Or.inl hs
    | cons raw lines ih =>
      intro s hs
      rcases ih _ hs with hread | ⟨later, hlater, hsays⟩
      · rcases mem_readLine hread with hold | hsays
        · exact Or.inl hold
        · exact Or.inr ⟨raw, List.mem_cons_self, hsays⟩
      · exact Or.inr ⟨later, List.mem_cons_of_mem _ hlater, hsays⟩
  rcases hfold _ _ h with hnew | hsays
  · cases hnew
  · exact hsays

theorem succeeded_of_itemOutcome {output : List Char} {id : Text} {path : String}
    (h : itemOutcome output id = .downloaded path) : Succeeded output id := by
  unfold itemOutcome at h
  simp only at h
  split at h
  · rename_i done hfind
    have hid : done.1 = id := by simpa using List.find?_some hfind
    exact hid ▸ mem_downloaded (List.mem_of_find?_eq_some hfind)
  · split at h <;> cases h

/-! ## Chunks -/

theorem flatten_chunksFrom {α : Type} {size : Nat} (hsize : 0 < size) (fuel : Nat) (ids : List α)
    (hfuel : ids.length ≤ fuel) : (chunksFrom size fuel ids).flatten = ids := by
  induction fuel generalizing ids with
  | zero => simp [chunksFrom, List.eq_nil_of_length_eq_zero (Nat.le_zero.mp hfuel)]
  | succ fuel ih =>
    cases ids with
    | nil => rfl
    | cons id ids =>
      have hlength : ((id :: ids).drop size).length ≤ fuel := by
        simp only [List.length_drop, List.length_cons] at hfuel ⊢
        omega
      rw [chunksFrom, List.flatten_cons, ih _ hlength, List.take_append_drop]

theorem flatten_chunks {α : Type} {size : Nat} (hsize : 0 < size) (ids : List α) :
    (chunks size ids).flatten = ids := flatten_chunksFrom hsize _ ids (Nat.le_refl _)

/-! ## What the replies name -/

/-- The ids of a chunk that are kept, and those that are reported at once. -/
def keptOf (w : World) (chunk : List Text × Nat) : List Text :=
  match fetchDetails w chunk.2 with
  | .ok details => details.1.map (·.1)
  | .error _ => chunk.1

def foreignOf (w : World) (chunk : List Text × Nat) : List Text :=
  match fetchDetails w chunk.2 with
  | .ok details => details.2
  | .error _ => []

/-- The ids that are kept of those asked for. -/
def kept (w : World) (ids : List Text) : List Text := (chunks 100 ids).zipIdx.flatMap (keptOf w)

def foreign (w : World) (ids : List Text) : List Text :=
  (chunks 100 ids).zipIdx.flatMap (foreignOf w)

theorem validateChunk_eq (w : World) (s : Validated) (chunk : List Text × Nat) :
    (validateChunk w s chunk).kept = s.kept ++ keptOf w chunk ∧
      (validateChunk w s chunk).items
        = s.items ++ (foreignOf w chunk).map fun id => (id, notOurs) := by
  unfold validateChunk keptOf foreignOf
  cases fetchDetails w chunk.2 with
  | error e => simp
  | ok details => simp

theorem validate_eq (w : World) (sources : List String) (ids : List Text) :
    (validate w sources ids).kept = kept w ids ∧
      (validate w sources ids).items = (foreign w ids).map fun id => (id, notOurs) := by
  have hfold : ∀ (l : List (List Text × Nat)) (s : Validated),
      (l.foldl (validateChunk w) s).kept = s.kept ++ l.flatMap (keptOf w) ∧
        (l.foldl (validateChunk w) s).items
          = s.items ++ (l.flatMap (foreignOf w)).map fun id => (id, notOurs) := by
    intro l
    induction l with
    | nil => simp
    | cons chunk l ih =>
      intro s
      obtain ⟨hkept, hitems⟩ := ih (validateChunk w s chunk)
      obtain ⟨hkept', hitems'⟩ := validateChunk_eq w s chunk
      rw [List.foldl_cons, hkept, hitems, hkept', hitems']
      simp
  simpa [validate, kept, foreign] using hfold (chunks 100 ids).zipIdx ⟨[], sources, []⟩

/-! ## What the batches went through -/

/-- The run of SteamCMD logged in. -/
def Passed (w : World) (batch : Nat) : Prop :=
  ∃ output, w.steamcmd batch = .ok output ∧ (parseSteamcmdOutput output).loginFailure = none

/-- Batches that ran one after another, the items they report, and the failure of a login. -/
inductive Ran (w : World) : Nat → List (List Text) → List Item → Option String → Prop
  | done (index : Nat) : Ran w index [] [] none
  | refused {index : Nat} {batch : List Text} {later : List (List Text)} {output : List Char}
      {failure : String} (hrun : w.steamcmd index = .ok output)
      (hlogin : (parseSteamcmdOutput output).loginFailure = some failure) :
      Ran w index (batch :: later) ((batch.map fun id => (id, loginFailed)) ++
        later.flatten.map fun id => (id, notAttempted)) (some failure)
  | passed {index : Nat} {batch : List Text} {later : List (List Text)} {output : List Char}
      {items : List Item} {failure : Option String} (hrun : w.steamcmd index = .ok output)
      (hlogin : (parseSteamcmdOutput output).loginFailure = none)
      (hlater : Ran w (index + 1) later items failure) :
      Ran w index (batch :: later)
        ((batch.map fun id => (id, itemOutcome output id)) ++ items) failure

theorem flatMap_zipIdx (l : List (List Text)) (index : Nat) :
    (l.zipIdx index).flatMap (·.1) = l.flatten := by
  induction l generalizing index with
  | nil => rfl
  | cons batch l ih => simp [List.zipIdx_cons, ih]

theorem runBatches_iff {w : World} {index : Nat} {batches : List (List Text)}
    {items items' : List Item} {failure : Option String} :
    runBatches w (batches.zipIdx index) items = .ok (items', failure) ↔
      ∃ new, items' = items ++ new ∧ Ran w index batches new failure := by
  induction batches generalizing index items with
  | nil =>
    constructor
    · intro h
      cases h
      exact ⟨[], by simp, .done index⟩
    · rintro ⟨new, rfl, hran⟩
      cases hran
      simp [runBatches]
  | cons batch later ih =>
    rw [List.zipIdx_cons, runBatches]
    constructor
    · intro h
      split at h
      · cases h
      · rename_i output hrun
        split at h
        · rename_i failed hlogin
          cases h
          rw [flatMap_zipIdx]
          exact ⟨_, List.append_assoc _ _ _, .refused hrun hlogin⟩
        · rename_i hlogin
          obtain ⟨new, rfl, hran⟩ := ih.mp h
          exact ⟨_, List.append_assoc _ _ _, .passed hrun hlogin hran⟩
    · rintro ⟨new, rfl, hran⟩
      cases hran with
      | refused hrun hlogin => simp [hrun, hlogin, flatMap_zipIdx]
      | passed hrun hlogin hlater =>
        simp only [hrun, hlogin]
        exact ih.mpr ⟨_, (List.append_assoc _ _ _).symm, hlater⟩

namespace Ran

variable {w : World} {index : Nat} {batches : List (List Text)} {items : List Item}
  {failure : Option String}

theorem ids (h : Ran w index batches items failure) : items.map (·.1) = batches.flatten := by
  induction h with
  | done => rfl
  | refused => simp [Function.comp_def]
  | passed _ _ _ ih => simp [Function.comp_def, ih]

theorem failure_none (h : Ran w index batches items failure) (hnone : failure = none) :
    ∀ i < batches.length, Passed w (index + i) := by
  induction h with
  | done => intro i hi; cases hi
  | refused => cases hnone
  | passed hrun hlogin _ ih =>
    intro i hi
    cases i with
    | zero => exact ⟨_, hrun, hlogin⟩
    | succ i =>
      rw [Nat.add_succ, ← Nat.succ_add]
      exact ih hnone i (Nat.lt_of_succ_lt_succ hi)

theorem failure_some (h : Ran w index batches items failure)
    (hall : ∀ i < batches.length, Passed w (index + i)) : failure = none := by
  induction h with
  | done => rfl
  | refused hrun hlogin =>
    obtain ⟨output, hrun', hlogin'⟩ := hall 0 (Nat.succ_pos _)
    simp_all
  | passed _ _ _ ih =>
    refine ih fun i hi => ?_
    rw [Nat.succ_add, ← Nat.add_succ]
    exact hall (i + 1) (Nat.succ_lt_succ hi)

/-- What a batch said of its items stays, whatever the later ones do. -/
theorem told (h : Ran w index batches items failure) {i : Nat} {batch : List Text}
    (hbatch : batches[i]? = some batch) {output : List Char}
    (hrun : w.steamcmd (index + i) = .ok output) (hall : ∀ j ≤ i, Passed w (index + j)) {id : Text}
    (hid : id ∈ batch) : (id, itemOutcome output id) ∈ items := by
  induction h generalizing i with
  | done => simp at hbatch
  | refused hrun' hlogin =>
    obtain ⟨output', hrun'', hlogin'⟩ := hall 0 (Nat.zero_le _)
    simp_all
  | passed hrun' hlogin _ ih =>
    cases i with
    | zero =>
      simp only [List.getElem?_cons_zero, Option.some.injEq] at hbatch
      subst hbatch
      have heq : output = _ := Except.ok.inj (hrun.symm.trans hrun')
      exact List.mem_append_left _ (List.mem_map.mpr ⟨id, hid, by rw [heq]⟩)
    | succ i =>
      refine List.mem_append_right _ (ih (by simpa using hbatch) ?_ fun j hj => ?_)
      · rw [Nat.succ_add, ← Nat.add_succ]
        exact hrun
      · rw [Nat.succ_add, ← Nat.add_succ]
        exact hall (j + 1) (Nat.succ_le_succ hj)

/-- A download is one that the output of the item's batch told. -/
theorem downloaded (h : Ran w index batches items failure) {id : Text} {path : String}
    (hmem : (id, .downloaded path) ∈ items) :
    ∃ i batch output, batches[i]? = some batch ∧ id ∈ batch ∧
      w.steamcmd (index + i) = .ok output ∧ Succeeded output id := by
  induction h with
  | done => cases hmem
  | refused =>
    simp [loginFailed, notAttempted] at hmem
  | @passed index batch later output items failure hrun hlogin _ ih =>
    rcases List.mem_append.mp hmem with hmem | hmem
    · obtain ⟨id', hid, heq⟩ := List.mem_map.mp hmem
      obtain ⟨rfl, hout⟩ := Prod.mk.inj heq
      exact ⟨0, batch, output, rfl, hid, hrun, succeeded_of_itemOutcome hout⟩
    · obtain ⟨i, batch', output', hbatch, hid, hrun', hsays⟩ := ih hmem
      refine ⟨i + 1, batch', output', by simpa using hbatch, hid, ?_, hsays⟩
      rw [Nat.add_succ, ← Nat.succ_add]
      exact hrun'

end Ran

/-- Batches run to an end when SteamCMD runs for every one that follows logins only. -/
theorem exists_ran_iff {w : World} {index : Nat} {batches : List (List Text)} :
    (∃ items failure, Ran w index batches items failure) ↔
      ∀ i < batches.length, (∀ j < i, Passed w (index + j)) →
        ∃ output, w.steamcmd (index + i) = .ok output := by
  constructor
  · rintro ⟨items, failure, h⟩
    induction h with
    | done => intro i hi; cases hi
    | refused hrun hlogin =>
      intro i hi hbefore
      cases i with
      | zero => exact ⟨_, hrun⟩
      | succ i =>
        obtain ⟨output, hrun', hlogin'⟩ := hbefore 0 (Nat.succ_pos _)
        simp_all
    | passed hrun hlogin _ ih =>
      intro i hi hbefore
      cases i with
      | zero => exact ⟨_, hrun⟩
      | succ i =>
        rw [Nat.add_succ, ← Nat.succ_add]
        refine ih i (Nat.lt_of_succ_lt_succ hi) fun j hj => ?_
        rw [Nat.succ_add, ← Nat.add_succ]
        exact hbefore (j + 1) (Nat.succ_lt_succ hj)
  · intro h
    induction batches generalizing index with
    | nil => exact ⟨[], none, .done index⟩
    | cons batch later ih =>
      obtain ⟨output, hrun⟩ := h 0 (Nat.succ_pos _) fun j hj => absurd hj (Nat.not_lt_zero _)
      cases hlogin : (parseSteamcmdOutput output).loginFailure with
      | some failure => exact ⟨_, _, .refused hrun hlogin⟩
      | none =>
        obtain ⟨items, failure, hlater⟩ := ih fun i hi hbefore => by
          rw [Nat.succ_add, ← Nat.add_succ]
          refine h (i + 1) (Nat.succ_lt_succ hi) fun j hj => ?_
          cases j with
          | zero => exact ⟨output, hrun, hlogin⟩
          | succ j =>
            rw [Nat.add_succ, ← Nat.succ_add]
            exact hbefore j (Nat.lt_of_succ_lt_succ hj)
        exact ⟨_, _, .passed hrun hlogin hlater⟩

/-! ## The wanted ids -/

theorem addItem_sorted {s t : Gathered} {item : String} (h : SortedMap.Sorted s.2)
    (hadd : addItem s item = .ok t) : SortedMap.Sorted t.2 := by
  unfold addItem at hadd
  split at hadd
  · cases hadd
  · cases hadd
    exact h.insertAll _

theorem addManifest_sorted {w : World} {s t : Gathered} {root : String × Nat}
    (h : SortedMap.Sorted s.2) (hadd : addManifest w s root = .ok t) : SortedMap.Sorted t.2 := by
  unfold addManifest at hadd
  split at hadd
  · cases hadd
  · cases hadd
    exact h
  · cases hadd
    exact h.insertAll _

theorem addSubscriptions_sorted {options : SyncOptions} {w : World} {s : Gathered}
    (h : SortedMap.Sorted s.2) : SortedMap.Sorted (addSubscriptions options w s).2 := by
  unfold addSubscriptions
  split
  · split
    · exact h.insertAll _
    · exact h
  · exact h

theorem addCollection_sorted {w : World} {s : Gathered} {collection : String × Nat}
    (h : SortedMap.Sorted s.2) : SortedMap.Sorted (addCollection w s collection).2 := by
  unfold addCollection
  split
  · exact h.insertAll _
  · exact h

theorem gather_sorted {options : SyncOptions} {w : World} {s : Gathered}
    (h : gather options w = .ok s) : SortedMap.Sorted s.2 := by
  unfold gather at h
  obtain ⟨manifests, hmanifests, h⟩ := Checks.bind_ok h
  have hstart : SortedMap.Sorted manifests.2 :=
    Simulation.invariant_foldlM (I := fun s => SortedMap.Sorted s.2)
      (fun _ _ _ hs hadd => addManifest_sorted hs hadd)
      (show SortedMap.Sorted ([] : Wanted) from List.Pairwise.nil) hmanifests
  have hcollections : ∀ (l : List (String × Nat)) (s : Gathered), SortedMap.Sorted s.2 →
      SortedMap.Sorted (l.foldl (addCollection w) s).2 := by
    intro l
    induction l with
    | nil => exact fun _ hs => hs
    | cons collection l ih => exact fun s hs => ih _ (addCollection_sorted hs)
  exact Simulation.invariant_foldlM (I := fun s => SortedMap.Sorted s.2)
    (fun _ _ _ hs hadd => addItem_sorted hs hadd)
    (hcollections _ _ (addSubscriptions_sorted hstart)) h

/-! ## The report -/

theorem installAssets_ok {w : World} {root : String} {report report' : SyncReport}
    (h : installAssets w root report = .ok report') :
    w.createInstallDir = .ok () ∧ (∃ output, w.appUpdate = .ok output) ∧
      report'.items = report.items := by
  unfold installAssets at h
  obtain ⟨⟨⟩, hdir, h⟩ := Checks.bind_ok h
  obtain ⟨output, hupdate, h⟩ := Checks.bind_ok h
  refine ⟨hdir, ⟨output, hupdate⟩, ?_⟩
  have heq := Except.ok.inj h
  subst heq
  split
  · rfl
  · split <;> rfl

theorem exists_installAssets {w : World} {root : String} {report : SyncReport}
    (hdir : w.createInstallDir = .ok ()) (hupdate : ∃ output, w.appUpdate = .ok output) :
    ∃ report', installAssets w root report = .ok report' := by
  obtain ⟨output, hupdate⟩ := hupdate
  unfold installAssets
  rw [hdir, hupdate]
  exact ⟨_, rfl⟩

theorem rescan_items (options : SyncOptions) (w : World) (report : SyncReport) :
    (rescan options w report).items = report.items := by
  unfold rescan
  split <;> rfl

/-- What a download that ends with a report went through. -/
theorem download_ok {options : SyncOptions} {w : World} {root : String} {v : Validated}
    {report : SyncReport} (h : download options w root v = .ok report) :
    ∃ items failure, Ran w 0 (chunks idsPerSteamcmdRun v.kept) items failure ∧
      report.items = v.items ++ items ∧
      (options.assets = true → failure = none →
        w.createInstallDir = .ok () ∧ ∃ output, w.appUpdate = .ok output) := by
  unfold download at h
  obtain ⟨⟨items, failure⟩, hbatches, hrest⟩ := Checks.bind_ok h
  obtain ⟨report', hassets, hreport⟩ := Checks.bind_ok hrest
  obtain ⟨new, rfl, hran⟩ := runBatches_iff.mp hbatches
  have heq := Except.ok.inj hreport
  subst heq
  refine ⟨new, failure, hran, ?_, ?_⟩
  · rw [rescan_items]
    split at hassets
    · exact (installAssets_ok hassets).2.2
    · cases hassets
      rfl
  · rintro hwith rfl
    rw [if_pos ⟨hwith, rfl⟩] at hassets
    exact ⟨(installAssets_ok hassets).1, (installAssets_ok hassets).2.1⟩

theorem exists_download {options : SyncOptions} {w : World} {root : String} {v : Validated}
    {items : List Item} {failure : Option String}
    (h : Ran w 0 (chunks idsPerSteamcmdRun v.kept) items failure)
    (hassets : options.assets = true → failure = none →
      w.createInstallDir = .ok () ∧ ∃ output, w.appUpdate = .ok output) :
    ∃ report, download options w root v = .ok report := by
  have hbatches : runBatches w (chunks idsPerSteamcmdRun v.kept).zipIdx v.items
      = .ok (v.items ++ items, failure) := runBatches_iff.mpr ⟨items, rfl, h⟩
  unfold download
  rw [hbatches, Checks.ok_bind]
  simp only
  split
  · rename_i hwith
    obtain ⟨hdir, hupdate⟩ := hassets hwith.1 (by simpa using hwith.2)
    obtain ⟨report', hreport⟩ := exists_installAssets hdir hupdate
    rw [hreport]
    exact ⟨_, rfl⟩
  · exact ⟨_, rfl⟩

/-! ## The account -/

/-- The batches of a run that wants these ids. -/
def batches (w : World) (ids : List Text) : List (List Text) :=
  chunks idsPerSteamcmdRun (kept w ids)

/-- Every id that is wanted is reported once and no other is, what is marked as downloaded was
so by its batch, and what a batch told stays when a later one fails. -/
structure Accounted (w : World) (ids : List Text) (report : SyncReport) : Prop where
  once : ∀ id ∈ ids, (report.items.map (·.1)).count id = 1
  only : ∀ id ∈ report.items.map (·.1), id ∈ ids
  downloaded : ∀ id path, (id, ItemOutcome.downloaded path) ∈ report.items →
    ∃ i batch output, (batches w ids)[i]? = some batch ∧ id ∈ batch ∧
      w.steamcmd i = .ok output ∧ Succeeded output id
  earlier : ∀ i batch output, (batches w ids)[i]? = some batch → w.steamcmd i = .ok output →
    (∀ j ≤ i, Passed w j) → ∀ id ∈ batch, (id, itemOutcome output id) ∈ report.items

/-- The options are accepted; the details replies, with the chunks whose request failed, name
the ids that are wanted, each once; and SteamCMD runs for every batch that follows logins
only, and for the assets after them. -/
structure Sound (options : SyncOptions) (w : World) (ids : List Text) : Prop where
  user : validateSteamUser options.steamUser = .ok ()
  root : validateRoot options.root = .ok ()
  bound : ids.length ≤ maxIds
  created : w.createRoot = .ok ()
  named : (foreign w ids ++ kept w ids).Perm ids
  launched : ∀ i < (batches w ids).length, (∀ j < i, Passed w j) →
    ∃ output, w.steamcmd i = .ok output
  assets : options.assets = true → (∀ i < (batches w ids).length, Passed w i) →
    w.createInstallDir = .ok () ∧ ∃ output, w.appUpdate = .ok output

theorem perm_iff_counts {ids l : List Text} (hids : ids.Nodup) :
    (∀ id ∈ ids, l.count id = 1) ∧ (∀ id ∈ l, id ∈ ids) ↔ l.Perm ids := by
  rw [List.perm_iff_count]
  constructor
  · rintro ⟨honce, honly⟩ id
    by_cases hid : id ∈ ids
    · rw [honce id hid, hids.count, if_pos hid]
    · rw [List.count_eq_zero_of_not_mem hid, List.count_eq_zero_of_not_mem fun h => hid (honly id h)]
  · intro h
    refine ⟨fun id hid => by rw [h, hids.count, if_pos hid], fun id hid => ?_⟩
    rw [← List.count_pos_iff] at hid ⊢
    rwa [← h]

theorem run_ok_iff {options : SyncOptions} {w : World} {sources : List String} {wanted : Wanted}
    (hdry : options.dryRun = false) (hgather : gather options w = .ok (sources, wanted))
    (hwanted : wanted ≠ []) {report : SyncReport} :
    run options w = .ok report ↔ validateSteamUser options.steamUser = .ok () ∧
      validateRoot options.root = .ok () ∧ wanted.length ≤ maxIds ∧ w.createRoot = .ok () ∧
      download options w (w.canonicalRoot.getD options.root)
        (validate w sources (wanted.map (·.1))) = .ok report := by
  unfold run
  cases validateSteamUser options.steamUser with
  | error e => simp
  | ok u =>
    cases validateRoot options.root with
    | error e => simp
    | ok r =>
      by_cases hbound : maxIds < wanted.length
      · simp [hgather, hwanted, hbound, Nat.not_le.mpr hbound]
        intro h
        cases h
      · cases w.createRoot with
        | error e => simp [hgather, hwanted, hbound]
        | ok c =>
          simp [hgather, hwanted, hbound, hdry]
          exact fun _ => Nat.le_of_not_lt hbound

/-- What a run that ends with a report went through. -/
theorem run_items {options : SyncOptions} {w : World} {sources : List String} {wanted : Wanted}
    (hdry : options.dryRun = false) (hgather : gather options w = .ok (sources, wanted))
    (hwanted : wanted ≠ []) {report : SyncReport} (hrun : run options w = .ok report) :
    ∃ items failure, Ran w 0 (batches w (wanted.map (·.1))) items failure ∧
      report.items = ((foreign w (wanted.map (·.1))).map fun id => (id, notOurs)) ++ items ∧
      (options.assets = true → failure = none →
        w.createInstallDir = .ok () ∧ ∃ output, w.appUpdate = .ok output) := by
  obtain ⟨_, _, _, _, hdownload⟩ := (run_ok_iff hdry hgather hwanted).mp hrun
  obtain ⟨items, failure, hran, hitems, hassets⟩ := download_ok hdownload
  obtain ⟨hkept, hskipped⟩ := validate_eq w sources (wanted.map (·.1))
  rw [hkept] at hran
  rw [hskipped] at hitems
  exact ⟨items, failure, hran, hitems, hassets⟩

theorem ids_of_items {w : World} {ids : List Text} {items all : List Item}
    {failure : Option String} (hran : Ran w 0 (batches w ids) items failure)
    (hall : all = ((foreign w ids).map fun id => (id, notOurs)) ++ items) :
    all.map (·.1) = foreign w ids ++ kept w ids := by
  rw [hall, List.map_append, hran.ids, batches, flatten_chunks (by decide)]
  simp [Function.comp_def]

theorem Sound.of_run {options : SyncOptions} {w : World} {sources : List String} {wanted : Wanted}
    (hdry : options.dryRun = false) (hgather : gather options w = .ok (sources, wanted))
    (hwanted : wanted ≠ []) {report : SyncReport} (hrun : run options w = .ok report)
    (h : Accounted w (wanted.map (·.1)) report) : Sound options w (wanted.map (·.1)) := by
  obtain ⟨huser, hroot, hbound, hcreated, _⟩ := (run_ok_iff hdry hgather hwanted).mp hrun
  obtain ⟨items, failure, hran, hitems, hassets⟩ := run_items hdry hgather hwanted hrun
  have hids := ids_of_items hran hitems
  have hnodup : (wanted.map (·.1)).Nodup := (gather_sorted hgather).nodup_keys
  exact {
    user := huser
    root := hroot
    bound := by simpa using hbound
    created := hcreated
    named := hids ▸ (perm_iff_counts hnodup).mp ⟨h.once, h.only⟩
    launched := by simpa using exists_ran_iff.mp ⟨items, failure, hran⟩
    assets := fun hwith hall => hassets hwith (hran.failure_some (by simpa using hall)) }

theorem Sound.exists_run {options : SyncOptions} {w : World} {sources : List String}
    {wanted : Wanted} (hdry : options.dryRun = false)
    (hgather : gather options w = .ok (sources, wanted)) (hwanted : wanted ≠ [])
    (h : Sound options w (wanted.map (·.1))) : ∃ report, run options w = .ok report := by
  have hlaunched : ∀ i < (batches w (wanted.map (·.1))).length,
      (∀ j < i, Passed w (0 + j)) → ∃ output, w.steamcmd (0 + i) = .ok output := by
    simpa using h.launched
  obtain ⟨items, failure, hran⟩ := exists_ran_iff.mpr hlaunched
  have hassets : options.assets = true → failure = none →
      w.createInstallDir = .ok () ∧ ∃ output, w.appUpdate = .ok output :=
    fun hwith hnone => h.assets hwith (by simpa using hran.failure_none hnone)
  rw [batches, ← (validate_eq w sources (wanted.map (·.1))).1] at hran
  obtain ⟨report, hdownload⟩ := exists_download hran hassets
  exact ⟨report, (run_ok_iff hdry hgather hwanted).mpr
    ⟨h.user, h.root, by simpa using h.bound, h.created, hdownload⟩⟩

theorem Sound.accounted {options : SyncOptions} {w : World} {sources : List String}
    {wanted : Wanted} (hdry : options.dryRun = false)
    (hgather : gather options w = .ok (sources, wanted)) (hwanted : wanted ≠ [])
    (h : Sound options w (wanted.map (·.1))) {report : SyncReport}
    (hrun : run options w = .ok report) : Accounted w (wanted.map (·.1)) report := by
  obtain ⟨items, failure, hran, hitems, _⟩ := run_items hdry hgather hwanted hrun
  have hnodup : (wanted.map (·.1)).Nodup := (gather_sorted hgather).nodup_keys
  obtain ⟨honce, honly⟩ := (perm_iff_counts hnodup).mpr
    ((ids_of_items hran hitems).symm ▸ h.named)
  refine ⟨honce, honly, ?_, ?_⟩
  · intro id path hmem
    rw [hitems] at hmem
    rcases List.mem_append.mp hmem with hmem | hmem
    · simp [notOurs] at hmem
    · simpa using hran.downloaded hmem
  · intro i batch output hbatch hout hall id hid
    rw [hitems]
    exact List.mem_append_right _
      (hran.told hbatch (by simpa using hout) (by simpa using hall) hid)

/-- **Every item is accounted for** just when the replies and SteamCMD play along. -/
theorem accounted_iff (options : SyncOptions) (w : World) (sources : List String) (wanted : Wanted)
    (hdry : options.dryRun = false) (hgather : gather options w = .ok (sources, wanted))
    (hwanted : wanted ≠ []) :
    (∃ report, run options w = .ok report ∧ Accounted w (wanted.map (·.1)) report) ↔
      Sound options w (wanted.map (·.1)) := by
  constructor
  · rintro ⟨report, hrun, h⟩
    exact Sound.of_run hdry hgather hwanted hrun h
  · intro h
    obtain ⟨report, hrun⟩ := h.exists_run hdry hgather hwanted
    exact ⟨report, hrun, h.accounted hdry hgather hwanted hrun⟩

/-- A user asks for some items. -/
def asksFor (items : List String) : SyncOptions where
  steamUser := "me"
  root := "/sync"
  manifestRoots := []
  collections := []
  items := items
  apiKey := none
  steamid := none
  assets := false
  dryRun := false
  rescanSocket := none

/-- Details requests are answered with a value or not at all; a run of SteamCMD prints a text or
cannot be launched. -/
def answers (value : Option Json) (outputs : List String) : World where
  manifest := fun _ => .ok none
  subscriptions := .ok []
  collection := fun _ => .ok []
  details := fun _ => .ok ""
  fromStr := fun _ => value
  createRoot := .ok ()
  canonicalRoot := none
  steamcmd := fun batch =>
    match outputs[batch]? with
    | some output => .ok output.toList
    | none => .error "launch steamcmd"
  createInstallDir := .ok ()
  appUpdate := .ok []
  assetsDir := false
  callDaemon := .ok (true, "")

/-- A reply with these details. -/
def reply (details : List Json) : Json :=
  .object [("response", .object [("publishedfiledetails", .array details)])]

def detailOf (id : String) : Json :=
  .object [("publishedfileid", .string id), ("result", .nat 1), ("consumer_app_id", .nat 431960)]

theorem accounted_iff_oneItem :
    (asksFor ["1"]).dryRun = false ∧
      (∃ sources, gather (asksFor ["1"]) (answers (some (reply [detailOf "1"])) [""])
        = .ok (sources, [(text "1", ())])) ∧
      ((∃ report, run (asksFor ["1"]) (answers (some (reply [detailOf "1"])) [""]) = .ok report ∧
        Accounted (answers (some (reply [detailOf "1"])) [""]) [text "1"] report) ↔
        Sound (asksFor ["1"]) (answers (some (reply [detailOf "1"])) [""]) [text "1"]) := by
  have hgather : gather (asksFor ["1"]) (answers (some (reply [detailOf "1"])) [""])
      = .ok ([], [(text "1", ())]) := by decide +kernel
  exact ⟨rfl, ⟨[], hgather⟩, accounted_iff _ _ _ _ rfl hgather (by decide)⟩

/-- An item that a reply leaves out is not reported, one that it repeats is reported twice, and
what the first batch downloaded is lost when the second cannot be launched. -/
theorem unaccounted :
    (run (asksFor ["1"]) (answers (some (reply [])) [""])).toOption.map (·.items) = some [] ∧
      (run (asksFor ["1"]) (answers (some (reply [detailOf "1", detailOf "1"])) [""])).toOption.map
        (·.items.map (·.1)) = some [text "1", text "1"] ∧
      (run (asksFor ((List.range 26).map fun n => toString (n + 1)))
        (answers none ["Success. Downloaded item 1 to \"/p\" (3 bytes)"])).map (·.items)
          = .error "launch steamcmd" := by
  refine ⟨by decide +kernel, by decide +kernel, by decide +kernel⟩

end Kwe.Workshop.Sync
