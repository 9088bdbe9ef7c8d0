import Mathlib

/-!
Playlists and the runtime that plays one: `Playlist`, its selection of the
next entry, `PlaylistRuntime`, and the snapshot a runtime is restored from.

Times are milliseconds of a monotonic clock.  An operation that can fail
returns its outcome beside the state it leaves behind.
-/

namespace Kwe.Playlists

/-- `MAX_ENTRIES` and `MAX_RUNTIME_ENTRIES`. -/
def maxEntries : Nat := 1024

def snapshotSchemaVersion : Nat := 1

/-- `MAX_SNAPSHOT_REMAINING_MS`. -/
def maxSnapshotRemainingMs : Nat := 24 * 60 * 60 * 1000

def minDurationSeconds : Nat := 10

def maxDurationSeconds : Nat := 24 * 60 * 60

def maxTransitionSeconds : Nat := 10

/-- `u64::saturating_add`. -/
def saturatingAdd64 (a b : Nat) : Nat := min (a + b) (2 ^ 64 - 1)

/-! ## Playlists -/

inductive PlaylistTransition
  | none | crossfade
  deriving DecidableEq, Repr

structure Playlist where
  id : String
  title : String
  entries : List String
  shuffle : Bool
  repeat_ : Bool
  durationSeconds : Nat
  transition : PlaylistTransition
  transitionSeconds : Nat
  deriving DecidableEq, Repr

/-- The `White_Space` characters that `trim` removes. -/
def isWhiteSpace (c : Char) : Bool :=
  let n := c.toNat
  (9 ≤ n && n ≤ 13) || n = 0x20 || n = 0x85 || n = 0xA0 || n = 0x1680 ||
    (0x2000 ≤ n && n ≤ 0x200A) || n = 0x2028 || n = 0x2029 || n = 0x202F || n = 0x205F ||
    n = 0x3000

/-- A name of 1 to 128 bytes. -/
def boundedName (name : String) : Bool :=
  !name.isEmpty && decide (name.utf8ByteSize ≤ 128)

def Playlist.validate (playlist : Playlist) : Except String Unit :=
  if !boundedName playlist.id || playlist.title.toList.all isWhiteSpace ||
      decide (256 < playlist.title.toList.length) then
    .error "playlist identity is invalid"
  else if maxEntries < playlist.entries.length then
    .error "playlist entry limit reached"
  else if !playlist.entries.all boundedName || !decide playlist.entries.Nodup then
    .error "playlist entries are invalid"
  else if !(decide (minDurationSeconds ≤ playlist.durationSeconds) &&
        decide (playlist.durationSeconds ≤ maxDurationSeconds)) ||
      decide (maxTransitionSeconds < playlist.transitionSeconds) ||
      (decide (playlist.transition = .none) && decide (playlist.transitionSeconds ≠ 0)) then
    .error "playlist timing is invalid"
  else .ok ()

/-- `(seed ^ seed.rotate_left(17)).wrapping_mul(0x9E37_79B9)`. -/
def mixSeed (seed : UInt64) : UInt64 :=
  (seed ^^^ (seed <<< 17 ||| seed >>> 47)) * 0x9E3779B9

def Playlist.nextEligibleIndex (playlist : Playlist) (current : Option Nat) (seed : UInt64)
    (excluded : List String) : Option Nat :=
  let n := playlist.entries.length
  let current := current.filter fun index => decide (index < n)
  let eligible := fun index => !(excluded.take maxEntries).contains (playlist.entries.getD index "")
  if n = 0 then none
  else if playlist.shuffle then
    let alternatives := (List.range n).filter fun index =>
      decide (some index ≠ current) && eligible index
    if alternatives.isEmpty then
      current.filter fun index => playlist.repeat_ && eligible index
    else alternatives[(mixSeed seed).toNat % alternatives.length]?
  else
    let start := (current.map (· + 1)).getD 0
    -- Without repeat the walk ends at the end of the list.
    let unwrapped := ((List.range n).map (start + ·)).takeWhile fun index =>
      playlist.repeat_ || decide (index < n)
    (unwrapped.map (· % n)).find? eligible

/-! ## The runtime -/

inductive PlaylistDecision
  | started (wallpaperId : String) (index deadlineMs : Nat)
  | waiting (wallpaperId : String) (index remainingMs : Nat)
  | advanced (wallpaperId : String) (index deadlineMs : Nat)
  | paused (wallpaperId : String) (index remainingMs : Nat)
  | exhausted
  | noEligible
  deriving DecidableEq, Repr

structure PlaylistRuntime where
  currentIndex : Option Nat
  currentWallpaperId : Option String
  deadlineMs : Option Nat
  pausedRemainingMs : Option Nat
  lastNowMs : Option Nat
  seed : UInt64
  history : List String
  deriving DecidableEq, Repr

def PlaylistRuntime.new (seed : UInt64) : PlaylistRuntime where
  currentIndex := none
  currentWallpaperId := none
  deadlineMs := none
  pausedRemainingMs := none
  lastNowMs := none
  seed := seed
  history := []

/-- The entry at `index`; every caller has reconciled the index first. -/
def Playlist.entry (playlist : Playlist) (index : Nat) : String := playlist.entries.getD index ""

def validateUnavailable (unavailable : List String) : Except String Unit :=
  if maxEntries < unavailable.length || !unavailable.all boundedName then
    .error "unavailable playlist entries exceed safety bounds"
  else .ok ()

/-- The outcome of an operation and the runtime after it. -/
abbrev Outcome := Except String PlaylistDecision × PlaylistRuntime

namespace PlaylistRuntime

/-- The time check of `observe_time` and `snapshot`. -/
def regressed (r : PlaylistRuntime) (now : Nat) : Bool :=
  r.lastNowMs.any fun previous => decide (now < previous)

def reconcileCurrent (playlist : Playlist) (r : PlaylistRuntime) : PlaylistRuntime :=
  match r.currentWallpaperId with
  | none => { r with currentIndex := none }
  | some id =>
    if r.currentIndex.any fun index => decide (playlist.entries[index]? = some id) then r
    else match playlist.entries.findIdx? (· = id) with
    | some index => { r with currentIndex := some index }
    | none =>
      { r with
        currentIndex := none
        currentWallpaperId := none
        deadlineMs := none
        pausedRemainingMs := none }

def emptyDecision (playlist : Playlist) (r : PlaylistRuntime) : PlaylistDecision :=
  if !playlist.repeat_ && !r.history.isEmpty then .exhausted else .noEligible

/-- The entries `select` leaves out. -/
def exclusions (playlist : Playlist) (unavailable : List String) (r : PlaylistRuntime) :
    List String :=
  playlist.entries.filter fun entry =>
    unavailable.contains entry || (!playlist.repeat_ && r.history.contains entry)

/-- The history with `entry` at its end, cut to its newest 1024 entries. -/
def pushHistory (history : List String) (entry : String) : List String :=
  (history ++ [entry]).drop ((history ++ [entry]).length - maxEntries)

def select (playlist : Playlist) (now : Nat) (unavailable : List String) (starting : Bool)
    (r : PlaylistRuntime) : PlaylistDecision × PlaylistRuntime :=
  match playlist.nextEligibleIndex r.currentIndex r.seed (r.exclusions playlist unavailable) with
  | none =>
    let r := { r with
      currentIndex := none
      currentWallpaperId := none
      deadlineMs := none
      pausedRemainingMs := none }
    (r.emptyDecision playlist, r)
  | some index =>
    let entry := playlist.entry index
    let deadline := saturatingAdd64 now (playlist.durationSeconds * 1000)
    (if starting then .started entry index deadline else .advanced entry index deadline,
      { r with
        seed := r.seed + 1
        currentIndex := some index
        currentWallpaperId := some entry
        deadlineMs := some deadline
        pausedRemainingMs := none
        history := pushHistory r.history entry })

def start (playlist : Playlist) (now : Nat) (unavailable : List String) (r : PlaylistRuntime) :
    Outcome :=
  match playlist.validate, validateUnavailable unavailable with
  | .error detail, _ => (.error detail, r)
  | .ok _, .error detail => (.error detail, r)
  | .ok _, .ok _ =>
    let r := { r with
      currentIndex := none
      currentWallpaperId := none
      deadlineMs := none
      pausedRemainingMs := none
      lastNowMs := some now
      history := [] }
    let (decision, r) := select playlist now unavailable true r
    (.ok decision, r)

/-- `observe_time`, then `reconcile_current`. -/
def observe (playlist : Playlist) (now : Nat) (r : PlaylistRuntime) :
    Except String PlaylistRuntime :=
  if r.regressed now then .error "playlist monotonic time regressed"
  else .ok (reconcileCurrent playlist { r with lastNowMs := some now })

/-- What `tick` does with a reconciled runtime. -/
def tickReconciled (playlist : Playlist) (now : Nat) (unavailable : List String)
    (r : PlaylistRuntime) : PlaylistDecision × PlaylistRuntime :=
  match r.currentIndex, r.pausedRemainingMs with
  | some index, some remaining => (.paused (playlist.entry index) index remaining, r)
  | _, _ =>
    match r.currentIndex, r.deadlineMs with
    | some index, some deadline =>
      if now < deadline && !unavailable.contains (playlist.entry index) then
        (.waiting (playlist.entry index) index (deadline - now), r)
      else select playlist now unavailable false r
    | _, _ => select playlist now unavailable false r

def tick (playlist : Playlist) (now : Nat) (unavailable : List String) (r : PlaylistRuntime) :
    Outcome :=
  match playlist.validate, validateUnavailable unavailable with
  | .error detail, _ => (.error detail, r)
  | .ok _, .error detail => (.error detail, r)
  | .ok _, .ok _ =>
    match r.observe playlist now with
    | .error detail => (.error detail, r)
    | .ok r => (tickReconciled playlist now unavailable r).map .ok id

def pauseReconciled (playlist : Playlist) (now : Nat) (r : PlaylistRuntime) :
    PlaylistDecision × PlaylistRuntime :=
  match r.currentIndex with
  | none => (r.emptyDecision playlist, r)
  | some index =>
    let remaining := r.pausedRemainingMs.getD (r.deadlineMs.getD now - now)
    (.paused (playlist.entry index) index remaining, { r with pausedRemainingMs := some remaining })

def pause (playlist : Playlist) (now : Nat) (r : PlaylistRuntime) : Outcome :=
  match playlist.validate with
  | .error detail => (.error detail, r)
  | .ok _ =>
    match r.observe playlist now with
    | .error detail => (.error detail, r)
    | .ok r => (pauseReconciled playlist now r).map .ok id

def resumeReconciled (playlist : Playlist) (now : Nat) (r : PlaylistRuntime) :
    PlaylistDecision × PlaylistRuntime :=
  match r.currentIndex with
  | none => (r.emptyDecision playlist, r)
  | some index =>
    let r := match r.pausedRemainingMs with
      | some remaining =>
        { r with pausedRemainingMs := none, deadlineMs := some (saturatingAdd64 now remaining) }
      | none => r
    (.waiting (playlist.entry index) index (r.deadlineMs.getD now - now), r)

def resume (playlist : Playlist) (now : Nat) (r : PlaylistRuntime) : Outcome :=
  match playlist.validate with
  | .error detail => (.error detail, r)
  | .ok _ =>
    match r.observe playlist now with
    | .error detail => (.error detail, r)
    | .ok r => (resumeReconciled playlist now r).map .ok id

end PlaylistRuntime

/-! ## Snapshots -/

structure PlaylistRuntimeSnapshot where
  schemaVersion : Nat
  playlistId : String
  seed : UInt64
  currentIndex : Option Nat
  currentWallpaperId : Option String
  remainingMs : Option Nat
  pausedRemainingMs : Option Nat
  history : List String
  deriving DecidableEq, Repr

namespace PlaylistRuntimeSnapshot

/-- The position check of `validate`, with its error. -/
def validatePosition (snapshot : PlaylistRuntimeSnapshot) : Except String Unit :=
  match snapshot.currentIndex, snapshot.currentWallpaperId with
  | none, none => .ok ()
  | some index, some id =>
    if maxEntries ≤ index || !boundedName id then
      .error "playlist runtime snapshot position is invalid"
    else .ok ()
  | _, _ => .error "playlist runtime snapshot position is inconsistent"

def validateTiming (snapshot : PlaylistRuntimeSnapshot) : Except String Unit :=
  let remaining := snapshot.remainingMs.isSome
  let paused := snapshot.pausedRemainingMs.isSome
  if (snapshot.currentIndex.isSome && remaining = paused) ||
      (snapshot.currentIndex.isNone && (remaining || paused)) then
    .error "playlist runtime snapshot timing is inconsistent"
  else if (snapshot.remainingMs.any fun ms => decide (maxSnapshotRemainingMs < ms)) ||
      (snapshot.pausedRemainingMs.any fun ms => decide (maxSnapshotRemainingMs < ms)) then
    .error "playlist runtime snapshot timing exceeds safety bounds"
  else .ok ()

def validate (snapshot : PlaylistRuntimeSnapshot) : Except String Unit :=
  if snapshot.schemaVersion ≠ snapshotSchemaVersion then
    .error "playlist runtime snapshot has an unsupported schema"
  else if !boundedName snapshot.playlistId then
    .error "playlist runtime snapshot identity is invalid"
  else if maxEntries < snapshot.history.length || !snapshot.history.all boundedName then
    .error "playlist runtime snapshot history exceeds safety bounds"
  else match snapshot.validatePosition with
  | .error detail => .error detail
  | .ok _ => snapshot.validateTiming

end PlaylistRuntimeSnapshot

namespace PlaylistRuntime

/-- The snapshot of `r`, before it is validated. -/
def capture (playlist : Playlist) (now : Nat) (r : PlaylistRuntime) : PlaylistRuntimeSnapshot where
  schemaVersion := snapshotSchemaVersion
  playlistId := playlist.id
  seed := r.seed
  currentIndex := r.currentIndex
  currentWallpaperId := r.currentWallpaperId
  remainingMs :=
    if r.pausedRemainingMs.isSome then none
    else if r.currentIndex.isSome then r.deadlineMs.map (· - now)
    else none
  pausedRemainingMs := r.pausedRemainingMs
  history := r.history

def snapshot (playlist : Playlist) (now : Nat) (r : PlaylistRuntime) :
    Except String PlaylistRuntimeSnapshot :=
  match playlist.validate with
  | .error detail => .error detail
  | .ok _ =>
    if r.regressed now then .error "playlist monotonic time regressed"
    else match (r.capture playlist now).validate with
    | .error detail => .error detail
    | .ok _ => .ok (r.capture playlist now)

/-- The runtime of a snapshot anchored at `now`, before it is reconciled. -/
def anchor (snapshot : PlaylistRuntimeSnapshot) (now : Nat) : PlaylistRuntime where
  currentIndex := snapshot.currentIndex
  currentWallpaperId := snapshot.currentWallpaperId
  deadlineMs := snapshot.remainingMs.map (saturatingAdd64 now)
  pausedRemainingMs := snapshot.pausedRemainingMs
  lastNowMs := some now
  seed := snapshot.seed
  history := snapshot.history

def restore (snapshot : PlaylistRuntimeSnapshot) (playlist : Playlist) (now : Nat)
    (r : PlaylistRuntime) : Except String Unit × PlaylistRuntime :=
  match snapshot.validate, playlist.validate with
  | .error detail, _ => (.error detail, r)
  | .ok _, .error detail => (.error detail, r)
  | .ok _, .ok _ =>
    if snapshot.playlistId ≠ playlist.id then
      (.error "playlist runtime snapshot belongs to another playlist", r)
    else (.ok (), reconcileCurrent playlist (anchor snapshot now))

end PlaylistRuntime

end Kwe.Playlists
