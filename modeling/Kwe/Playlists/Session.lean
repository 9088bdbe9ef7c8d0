import Kwe.Foundation.Runs
import Kwe.Playlists.Wellformed

/-!
The playlist session of the daemon: the commands on its playlists, its ticks,
the runtime-state file it persists, and the restarts of the daemon.

The JSON library is the parameter `codec`.  An event carries what the
environment decides: the clock, and whether a file could be written.  What a
tick does to the renderer is left out; of an apply that completed, a tick
reads only the wallpaper that the capability gate refused.
-/

namespace Kwe.Playlists

open Std (ExtTreeMap)

def maxPlaylists : Nat := 256

def maxRuntimeStateBytes : Nat := 4 * 1024 * 1024

def maxSnapshotEntries : Nat := 256

def maxClockSkipMs : Nat := 60 * 60 * 1000

/-- `WAITING_PERSIST_INTERVAL`, in milliseconds. -/
def waitingPersistInterval : Nat := 30 * 1000

def runtimeStateSchemaVersion : Nat := 1

/-! ## The definitions file -/

/-- The definitions file: absent, or what decoding it gives. -/
abbrev DefinitionsFile := Option (Except String (List Playlist))

namespace PlaylistStore

/-- The walk over the playlists that `load` and `save` share. -/
def checkIds (ids : List String) : List Playlist → Except String Unit
  | [] => .ok ()
  | playlist :: playlists =>
    match playlist.validate with
    | .error detail => .error detail
    | .ok _ =>
      if ids.contains playlist.id then .error "playlist identities must be unique"
      else checkIds (playlist.id :: ids) playlists

def check (playlists : List Playlist) : Except String Unit :=
  if maxPlaylists < playlists.length then .error "playlist count exceeds safety limit"
  else checkIds [] playlists

def load (file : DefinitionsFile) : Except String (List Playlist) :=
  match file with
  | none => .ok []
  | some (.error detail) => .error detail
  | some (.ok playlists) => (check playlists).map fun _ => playlists

/-- `stored` is the outcome of writing the encoded playlists. -/
def save (stored : Except String Unit) (playlists : List Playlist) : Except String Unit :=
  match check playlists with
  | .error detail => .error detail
  | .ok _ => stored

end PlaylistStore

/-! ## The runtime-state file -/

abbrev Snapshots := ExtTreeMap String PlaylistRuntimeSnapshot

structure PersistedSessionState where
  schemaVersion : Nat
  activePlaylistId : Option String
  snapshots : Snapshots

/-- `serde_json::to_vec_pretty` and `serde_json::from_slice`. -/
structure Codec where
  toVecPretty : PersistedSessionState → ByteArray
  fromSlice : ByteArray → Except String PersistedSessionState

/-- A state of this schema whose snapshots all validate. -/
structure PersistedSessionState.Sound (state : PersistedSessionState) : Prop where
  schema : state.schemaVersion = runtimeStateSchemaVersion
  snapshots : ∀ (id : String) (snapshot : PlaylistRuntimeSnapshot),
    state.snapshots[id]? = some snapshot → snapshot.validate = .ok ()

/-- What is encoded decodes to itself. -/
def Codec.RoundTrip (codec : Codec) : Prop :=
  ∀ state : PersistedSessionState, state.Sound →
    codec.fromSlice (codec.toVecPretty state) = .ok state

/-- A failure of reading a file that is there. -/
inductive ReadFault
  | metadata | contents
  deriving DecidableEq, Repr

/-- What `load_runtime_state` returns, and whether it set the file aside. -/
structure LoadedState where
  active : Option String
  snapshots : Snapshots
  quarantined : Bool

def LoadedState.empty (quarantined : Bool) : LoadedState := ⟨none, ∅, quarantined⟩

def loadRuntimeState (codec : Codec) (file : Option ByteArray) (fault : Option ReadFault) :
    LoadedState :=
  match file with
  | none => .empty false
  | some bytes =>
    if fault = some .metadata then .empty false
    else if maxRuntimeStateBytes < bytes.size then .empty true
    else if fault = some .contents then .empty true
    else match codec.fromSlice bytes with
    | .error _ => .empty true
    | .ok state =>
      if state.schemaVersion = runtimeStateSchemaVersion &&
          decide (state.snapshots.size ≤ maxSnapshotEntries) then
        { active := state.activePlaylistId
          snapshots := state.snapshots.filter fun _ snapshot => snapshot.validate.isOk
          quarantined := false }
      else .empty true

/-! ## The session -/

inductive SessionError
  | notFound (id : String)
  | importBlocked
  | storeUnavailable (detail : String)
  | invalid (detail : String)
  deriving DecidableEq, Repr

structure DefinitionsHealth where
  count : Nat
  storeHealth : String
  deriving DecidableEq, Repr

structure SessionStatus where
  active : Bool
  playlistId : Option String
  decision : Option PlaylistDecision
  unavailableIds : List String
  definitions : DefinitionsHealth
  clockSkippedMs : Nat
  deriving DecidableEq, Repr

structure ImportSummary where
  imported : Nat
  rejected : Nat
  deriving DecidableEq, Repr

structure SessionRuntime where
  playlists : List Playlist
  storeError : Option String
  runtimes : ExtTreeMap String PlaylistRuntime
  snapshots : Snapshots
  active : Option String
  lastDecision : Option PlaylistDecision
  lastWaitingPersist : Nat
  validIds : List String
  quarantinedIds : List String
  gateRefusedIds : List String
  clockOffsetMs : Nat
  clockSkippedMs : Nat

/-- The reply to a command, the session after it, the playlists it saved and
the runtime state it handed to `atomic_write`. -/
structure Done (α : Type) where
  reply : Except SessionError α
  session : SessionRuntime
  saved : Option (List Playlist)
  state : Option ByteArray

namespace SessionRuntime

def find (s : SessionRuntime) (id : String) : Option Playlist := s.playlists.find? (·.id = id)

def nowMs (elapsed : Nat) (s : SessionRuntime) : Nat := elapsed + s.clockOffsetMs

def definitionsHealth (s : SessionRuntime) : DefinitionsHealth where
  count := s.playlists.length
  storeHealth := if s.storeError.isSome then "corrupt" else "ok"

def unavailableFor (playlist : Playlist) (s : SessionRuntime) : List String :=
  ((playlist.entries.filter fun id =>
    !s.validIds.contains id || s.quarantinedIds.contains id ||
      s.gateRefusedIds.contains id).mergeSort).dedup

def status (s : SessionRuntime) : SessionStatus where
  active := s.active.isSome
  playlistId := s.active
  decision := s.lastDecision
  unavailableIds := ((s.active.bind s.find).map s.unavailableFor).getD []
  definitions := s.definitionsHealth
  clockSkippedMs := s.clockSkippedMs

/-- The refusals that `reset_apply` forgets. -/
def resetApply (s : SessionRuntime) : SessionRuntime := { s with gateRefusedIds := [] }

/-- The runtime of `entry(id).or_insert_with(|| PlaylistRuntime::new(0))`. -/
def runtimeOf (id : String) (s : SessionRuntime) : PlaylistRuntime :=
  s.runtimes.getD id (.new 0)

def setRuntime (id : String) (r : PlaylistRuntime) (s : SessionRuntime) : SessionRuntime :=
  { s with runtimes := s.runtimes.insert id r }

/-- The snapshot of the runtime of `id`, when both are there and it is valid. -/
def snapshotOf (id : String) (now : Nat) (s : SessionRuntime) : Option PlaylistRuntimeSnapshot :=
  (s.find id).bind fun playlist =>
    s.runtimes[id]?.bind fun r => (r.snapshot playlist now).toOption

/-- Keeps a snapshot, when there is one. -/
def keepSnapshot (id : String) (snapshot : Option PlaylistRuntimeSnapshot) (s : SessionRuntime) :
    SessionRuntime :=
  match snapshot with
  | some snapshot => { s with snapshots := s.snapshots.insert id snapshot }
  | none => s

/-! ### Persistence -/

section Codec

variable (codec : Codec)

def persisted (s : SessionRuntime) : PersistedSessionState where
  schemaVersion := runtimeStateSchemaVersion
  activePlaylistId := s.active
  snapshots := s.snapshots

def encodeState (s : SessionRuntime) : ByteArray := codec.toVecPretty s.persisted

/-- The first snapshot that is not the active one. -/
def evictable (s : SessionRuntime) : Option String :=
  s.snapshots.keys.find? fun id => decide (some id ≠ s.active)

theorem evictable_mem {s : SessionRuntime} {id : String} (h : s.evictable = some id) :
    id ∈ s.snapshots ∧ some id ≠ s.active :=
  ⟨ExtTreeMap.mem_keys.mp (List.mem_of_find?_eq_some h), of_decide_eq_true (List.find?_some h :)⟩

theorem size_erase_lt {snapshots : Snapshots} {id : String} (h : id ∈ snapshots) :
    (snapshots.erase id).size < snapshots.size := by
  have hpos : snapshots.size ≠ 0 := fun h0 => by
    rw [ExtTreeMap.eq_empty_iff_size_eq_zero.mpr h0] at h
    exact ExtTreeMap.not_mem_empty h
  rw [ExtTreeMap.size_erase, if_pos (ExtTreeMap.contains_iff_mem.mpr h)]
  omega

/-- The eviction loop of `persist_state`. -/
def evict (s : SessionRuntime) : SessionRuntime :=
  if maxRuntimeStateBytes < (s.encodeState codec).size then
    match _h : s.evictable with
    | some id => evict { s with snapshots := s.snapshots.erase id }
    | none => s
  else s
termination_by s.snapshots.size
decreasing_by exact size_erase_lt (evictable_mem _h).1

/-- The session after `persist_state`, and the bytes it writes. -/
def persistState (s : SessionRuntime) : SessionRuntime × Option ByteArray :=
  let s := s.evict codec
  if maxRuntimeStateBytes < (s.encodeState codec).size then (s, none)
  else (s, some (s.encodeState codec))

/-! ### Ticks -/

/-- The stable part of a decision. -/
def decisionSignature : PlaylistDecision → Nat × String × Nat
  | .started id index _ => (0, id, index)
  | .waiting id index _ => (1, id, index)
  | .advanced id index _ => (2, id, index)
  | .paused id index _ => (3, id, index)
  | .exhausted => (4, "", 0)
  | .noEligible => (5, "", 0)

def isWaiting : PlaylistDecision → Bool
  | .waiting .. => true
  | _ => false

def maybePersist (elapsed : Nat) (id : String) (decision : PlaylistDecision) (now : Nat)
    (s : SessionRuntime) : SessionRuntime × Option ByteArray :=
  let changed :=
    decide (s.lastDecision.map decisionSignature ≠ some (decisionSignature decision))
  let refresh := isWaiting decision &&
    decide (waitingPersistInterval ≤ elapsed - s.lastWaitingPersist)
  let s := { s with lastDecision := some decision }
  if !changed && !refresh then (s, none)
  else { s.keepSnapshot id (s.snapshotOf id now) with lastWaitingPersist := elapsed }.persistState
    codec

/-- `refresh_quarantine` and the part of `fold_apply_completions` that a
decision depends on. -/
def refresh (quarantined : Option (List String)) (refused : Option String) (s : SessionRuntime) :
    SessionRuntime :=
  { s with
    quarantinedIds := quarantined.getD s.quarantinedIds
    gateRefusedIds := refused.toList ++ s.gateRefusedIds }

def tickSession (elapsed : Nat) (quarantined : Option (List String)) (refused : Option String)
    (s : SessionRuntime) : SessionRuntime × Option ByteArray :=
  let s := s.refresh quarantined refused
  match s.active with
  | none => (s, none)
  | some id =>
    match s.find id with
    | none => { s with active := none, lastDecision := none }.resetApply.persistState codec
    | some playlist =>
      let now := s.nowMs elapsed
      let ticked := (s.runtimeOf id).tick playlist now (s.unavailableFor playlist)
      let s := s.setRuntime id ticked.2
      match ticked.1 with
      | .error _ => (s, none)
      | .ok decision => s.maybePersist codec elapsed id decision now

/-- What the session does with `Shutdown`. -/
def shutdown (elapsed : Nat) (s : SessionRuntime) : SessionRuntime × Option ByteArray :=
  match s.active with
  | none => s.persistState codec
  | some id => (s.keepSnapshot id (s.snapshotOf id (s.nowMs elapsed))).persistState codec

/-! ### Commands -/

def refuse {α : Type} (error : SessionError) (s : SessionRuntime) : Done α :=
  ⟨.error error, s, none, none⟩

def putPlaylist (stored : Except String Unit) (playlist : Playlist) (s : SessionRuntime) :
    Done Playlist :=
  match s.storeError with
  | some detail => s.refuse (.storeUnavailable detail)
  | none =>
    match playlist.validate with
    | .error detail => s.refuse (.invalid detail)
    | .ok _ =>
      let updated := (s.playlists.filter (·.id ≠ playlist.id)) ++ [playlist]
      match PlaylistStore.save stored updated with
      | .error detail => s.refuse (.invalid detail)
      | .ok _ => ⟨.ok playlist, { s with playlists := updated }, some updated, none⟩

def removePlaylist (stored : Except String Unit) (id : String) (s : SessionRuntime) :
    Done String :=
  match s.storeError with
  | some detail => s.refuse (.storeUnavailable detail)
  | none =>
    if !s.playlists.any (·.id = id) then s.refuse (.notFound id)
    else
      let updated := s.playlists.filter (·.id ≠ id)
      match PlaylistStore.save stored updated with
      | .error detail => s.refuse (.invalid detail)
      | .ok _ =>
        let s := { s with
          playlists := updated
          runtimes := s.runtimes.erase id
          snapshots := s.snapshots.erase id }
        let s := if s.active = some id then { s with active := none, lastDecision := none } else s
        let (s, state) := s.persistState codec
        ⟨.ok id, s, some updated, state⟩

/-- The decision and the runtime of a playlist that becomes active; the
snapshot of `id` is dropped when it cannot be restored. -/
def resumeOrStart (playlist : Playlist) (now : Nat) (unavailable : List String) (id : String)
    (s : SessionRuntime) : PlaylistDecision × SessionRuntime :=
  let r := s.runtimeOf id
  let decided := fun (outcome : Outcome) (s : SessionRuntime) =>
    (match outcome.1 with
      | .ok decision => decision
      | .error _ => .noEligible, s.setRuntime id outcome.2)
  match s.snapshots[id]? with
  | none => decided (r.start playlist now unavailable) s
  | some snapshot =>
    match r.restore snapshot playlist now with
    | (.ok _, r) => decided (r.tick playlist now unavailable) s
    | (.error _, r) =>
      decided (r.start playlist now unavailable) { s with snapshots := s.snapshots.erase id }

def activatePlaylist (elapsed : Nat) (id : Option String) (s : SessionRuntime) :
    Done SessionStatus :=
  match s.storeError with
  | some detail => s.refuse (.storeUnavailable detail)
  | none =>
    match id with
    | none =>
      let (s, state) :=
        { s with active := none, lastDecision := none }.resetApply.persistState codec
      ⟨.ok s.status, s, none, state⟩
    | some id =>
      match s.find id with
      | none => s.refuse (.notFound id)
      | some playlist =>
        if s.active = some id then ⟨.ok s.status, s, none, none⟩
        else
          let s := s.resetApply
          let now := s.nowMs elapsed
          let (decision, s) := s.resumeOrStart playlist now (s.unavailableFor playlist) id
          let snapshot := ((s.runtimeOf id).snapshot playlist now).toOption
          let s := { s with active := some id, lastDecision := some decision }
          let (s, state) := (s.keepSnapshot id snapshot).persistState codec
          ⟨.ok s.status, s, none, state⟩

end Codec

/-- The part of `debug_clock_skip` after the jump: the active runtime is
restored from the snapshot taken before it. -/
def reanchor (now : Nat) (frozen : Option PlaylistRuntimeSnapshot) (s : SessionRuntime) :
    SessionRuntime :=
  match s.active, frozen with
  | some id, some snapshot =>
    match s.find id, s.runtimes[id]? with
    | some playlist, some r =>
      match r.restore snapshot playlist now with
      | (.error _, r) => s.setRuntime id r
      | (.ok _, r) =>
        match r.tick playlist now (s.unavailableFor playlist) with
        | (.ok decision, r) => { s.setRuntime id r with lastDecision := some decision }
        | (.error _, r) => s.setRuntime id r
    | _, _ => s
  | _, _ => s

/-- Only the clock and the active runtime move; nothing is persisted. -/
def debugClockSkip (elapsed ms : Nat) (s : SessionRuntime) : Done SessionStatus :=
  if ms < 1 || maxClockSkipMs < ms then
    s.refuse (.invalid "clock skip is outside the safety bounds")
  else
    let frozen := s.active.bind fun id => s.snapshotOf id (s.nowMs elapsed)
    let s := { s with
      clockOffsetMs := s.clockOffsetMs + ms
      clockSkippedMs := s.clockSkippedMs + ms }
    let s := s.reanchor (s.nowMs elapsed) frozen
    ⟨.ok s.status, s, none, none⟩

end SessionRuntime

/-! ### Import -/

structure ImportPlaylist where
  title : String
  entries : List String
  shuffle : Bool
  repeat_ : Bool
  durationSeconds : Nat
  transition : String
  transitionSeconds : Nat
  deriving DecidableEq, Repr

def trim (text : List Char) : List Char :=
  ((text.dropWhile isWhiteSpace).reverse.dropWhile isWhiteSpace).reverse

def Playlist.new (id title : String) : Except String Playlist :=
  if !boundedName id || (trim title.toList).isEmpty then .error "playlist identity is invalid"
  else .ok
    { id := id
      title := String.ofList (title.toList.take 256)
      entries := []
      shuffle := false
      repeat_ := true
      durationSeconds := 5 * 60
      transition := .none
      transitionSeconds := 0 }

def Playlist.setTiming (durationSeconds : Nat) (transition : PlaylistTransition)
    (transitionSeconds : Nat) (playlist : Playlist) : Except String Playlist :=
  if durationSeconds < minDurationSeconds || maxDurationSeconds < durationSeconds then
    .error "playlist duration is outside the safety bounds"
  else if maxTransitionSeconds < transitionSeconds then
    .error "playlist transition is outside the safety bounds"
  else if transition = .none && decide (transitionSeconds ≠ 0) then
    .error "disabled transitions must have zero duration"
  else .ok { playlist with
    durationSeconds := durationSeconds
    transition := transition
    transitionSeconds := transitionSeconds }

def ImportPlaylist.parseTransition (transition : String) : Except String PlaylistTransition :=
  if transition = "none" then .ok .none
  else if transition = "crossfade" then .ok .crossfade
  else .error s!"unknown transition {transition}"

def ImportPlaylist.intoPlaylist (id : String) (entry : ImportPlaylist) : Except String Playlist := do
  let transition ← ImportPlaylist.parseTransition entry.transition
  let playlist ← Playlist.new id entry.title
  let playlist ← { playlist with
    entries := entry.entries
    shuffle := entry.shuffle
    repeat_ := entry.repeat_ }.setTiming entry.durationSeconds transition entry.transitionSeconds
  playlist.validate
  return playlist

/-- The first id not yet used among the title and the title with a suffix from
2 to 256. -/
def importId (title : String) (usedIds : List String) : Option String :=
  let base := String.ofList ((trim title.toList).take 124)
  (base :: (List.range' 2 255).map fun suffix => s!"{base}-{suffix}").find? fun id =>
    !id.isEmpty && !usedIds.contains id

/-- The playlists imported so far, newest last, and the number rejected. -/
def importEntry (acc : List Playlist × Nat) (entry : ImportPlaylist) : List Playlist × Nat :=
  match importId entry.title (acc.1.map (·.id)) with
  | none => (acc.1, acc.2 + 1)
  | some id =>
    match entry.intoPlaylist id with
    | .ok playlist => (acc.1 ++ [playlist], acc.2)
    | .error _ => (acc.1, acc.2 + 1)

def SessionRuntime.importPlaylists (stored : Except String Unit) (legacy : List ImportPlaylist)
    (s : SessionRuntime) : Done ImportSummary :=
  match s.storeError with
  | some detail => s.refuse (.storeUnavailable detail)
  | none =>
    if !s.playlists.isEmpty then s.refuse .importBlocked
    else
      let (imported, rejected) := legacy.foldl importEntry ([], 0)
      if maxPlaylists < imported.length then
        s.refuse (.invalid "playlist count exceeds safety limit")
      else match PlaylistStore.save stored imported with
      | .error detail => s.refuse (.invalid detail)
      | .ok _ =>
        ⟨.ok ⟨imported.length, rejected⟩, { s with playlists := imported }, some imported, none⟩

/-! ## The daemon and its files -/

/-- `SessionRuntime::new`, with the outcome of loading both files. -/
def SessionRuntime.new (validIds : List String) (elapsed : Nat)
    (definitions : Except String (List Playlist)) (loaded : LoadedState) : SessionRuntime :=
  let playlists := definitions.toOption.getD []
  let s : SessionRuntime :=
    { playlists := playlists
      storeError := match definitions with
        | .ok _ => none
        | .error detail => some detail
      runtimes := ∅
      snapshots := loaded.snapshots
      active := loaded.active.filter fun id => playlists.any (·.id = id)
      lastDecision := none
      lastWaitingPersist := elapsed
      validIds := validIds
      quarantinedIds := []
      gateRefusedIds := []
      clockOffsetMs := 0
      clockSkippedMs := 0 }
  match s.active with
  | none => s
  | some id =>
    match s.find id with
    | none => s
    | some playlist =>
      let r := s.runtimeOf id
      match s.snapshots[id]? with
      | none => s.setRuntime id r
      | some snapshot => s.setRuntime id (r.restore snapshot playlist (s.nowMs elapsed)).2

inductive Input
  | put (playlist : Playlist)
  | remove (id : String)
  | activate (id : Option String)
  | importPlaylists (legacy : List ImportPlaylist)
  | debugClockSkip (ms : Nat)
  | availability (validIds : List String)
  /-- A tick, with the answer to its quarantine query and a refused apply. -/
  | tick (quarantined : Option (List String)) (refused : Option String)
  | shutdown
  /-- The daemon starts, after a shutdown or a crash. -/
  | start (validIds : List String) (fault : Option ReadFault)
  /-- The definitions file is replaced, removed or damaged. -/
  | definitions (file : DefinitionsFile)

/-- An input, the clock it is taken at, and the outcome of writing either
file. -/
structure Event where
  input : Input
  elapsed : Nat
  stored : Except String Unit
  written : Bool

structure World where
  session : SessionRuntime
  running : Bool
  definitions : DefinitionsFile
  stateFile : Option ByteArray

/-- The session after an event that reaches it, the playlists it saved and the
runtime state it handed to `atomic_write`. -/
structure Handled where
  session : SessionRuntime
  saved : Option (List Playlist)
  state : Option ByteArray

def Done.handled {α : Type} (d : Done α) : Handled := ⟨d.session, d.saved, d.state⟩

def SessionRuntime.handle (codec : Codec) (e : Event) (s : SessionRuntime) : Handled :=
  match e.input with
  | .put playlist => (s.putPlaylist e.stored playlist).handled
  | .remove id => (s.removePlaylist codec e.stored id).handled
  | .activate id => (s.activatePlaylist codec e.elapsed id).handled
  | .importPlaylists legacy => (s.importPlaylists e.stored legacy).handled
  | .debugClockSkip ms => (s.debugClockSkip e.elapsed ms).handled
  | .availability validIds => ⟨{ s with validIds := validIds }, none, none⟩
  | .tick quarantined refused =>
    let (s, state) := s.tickSession codec e.elapsed quarantined refused
    ⟨s, none, state⟩
  | .shutdown =>
    let (s, state) := s.shutdown codec e.elapsed
    ⟨s, none, state⟩
  | .start .. | .definitions _ => ⟨s, none, none⟩

/-- What an event does to a running session; a daemon that is down handles
nothing. -/
def World.handle (codec : Codec) (w : World) (e : Event) : Handled :=
  if w.running then w.session.handle codec e else ⟨w.session, none, none⟩

def World.start (codec : Codec) (validIds : List String) (fault : Option ReadFault)
    (elapsed : Nat) (w : World) : World :=
  let loaded := loadRuntimeState codec w.stateFile fault
  { w with
    session := .new validIds elapsed (PlaylistStore.load w.definitions) loaded
    running := true
    stateFile := if loaded.quarantined then none else w.stateFile }

/-- The world once the session has handled `e`. -/
def World.absorb (e : Event) (handled : Handled) (w : World) : World where
  session := handled.session
  running := w.running && (match e.input with
    | .shutdown => false
    | _ => true)
  definitions := match handled.saved with
    | some playlists => some (.ok playlists)
    | none => w.definitions
  stateFile := if e.written then handled.state.or w.stateFile else w.stateFile

def World.step (codec : Codec) (w : World) (e : Event) : World :=
  match e.input with
  | .start validIds fault => w.start codec validIds fault e.elapsed
  | .definitions file => { w with definitions := file }
  | _ => w.absorb e (w.handle codec e)

/-- A daemon that never ran: it left no runtime state. -/
def World.fresh (definitions : DefinitionsFile) : World where
  session := .new [] 0 (.ok []) (.empty false)
  running := false
  definitions := definitions
  stateFile := none

end Kwe.Playlists
