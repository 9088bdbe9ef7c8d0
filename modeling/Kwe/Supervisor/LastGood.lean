import Kwe.Foundation.Utf8
import Kwe.Frames.Header
import Kwe.Supervisor.Quarantine

/-!
The last good frame on disk: two image files that are written in turn, and the
record in `supervisor-v1.json` that names one of them.

* `step_safe`: a step, whole or cut short by a crash, keeps the record right;
* `last_good_durable`: so the record is right after every file operation of
  every run.

A write replaces its file or fails and leaves it as it was; the state file is
the state that it holds.
-/

namespace Kwe.Supervisor.Durable

open Foundation Foundation.Runs

/-! ## Images -/

/-- The pixels without their last bytes, each the other way round. -/
def rgb : List UInt8 → List UInt8
  | blue :: green :: red :: _ :: rest => red :: green :: blue :: rgb rest
  | _ => []

def encodePpm (snapshot : Frames.FrameSnapshot) : Except String (List UInt8) :=
  let expected := snapshot.spec.pixelBytes
  if snapshot.pixels.length ≠ expected then
    .error "snapshot pixel length changed during fallback encoding"
  else if 2 ^ 64 ≤ expected / 4 * 3 then .error "fallback image size overflow"
  else
    let header := "P6\n" ++ toString snapshot.spec.width ++ " " ++ toString snapshot.spec.height ++
      "\n255\n"
    .ok (Utf8.encode header.toList ++ rgb snapshot.pixels)

/-! ## Files -/

structure Directory where
  /-- `supervisor-v1.json`. -/
  state : Option PersistedState
  image : String → Option (List UInt8)

def Directory.empty : Directory := ⟨none, fun _ => none⟩

/-- The record on disk. -/
def Directory.lastGood (directory : Directory) : Option LastGoodRecord :=
  directory.state.bind (·.lastGood)

/-- Whether a file was replaced, or the error. -/
abbrev Write := Except String Unit

def writeImage (write : Write) (file : String) (bytes : List UInt8) (directory : Directory) :
    Except String Unit × Directory :=
  match write with
  | .ok () => (.ok (), { directory with
      image := fun name => if name = file then some bytes else directory.image name })
  | .error detail => (.error detail, directory)

def save (write : Write) (persisted : PersistedState) (directory : Directory) :
    Except String Unit × Directory :=
  match write with
  | .ok () => (.ok (), { directory with state := some persisted })
  | .error detail => (.error detail, directory)

def load (directory : Directory) : Except String PersistedState :=
  match directory.state with
  | none => .ok .empty
  | some state =>
    if maxRecords < state.records.size then .error "unsupported or oversized supervisor state"
    else .ok state

/-- The file that was written. -/
def saveLastGood (write : Write) (snapshot : Frames.FrameSnapshot)
    (current : Option LastGoodRecord) (directory : Directory) : Except String String × Directory :=
  let nextFile := nextLastGoodFile current
  match encodePpm snapshot with
  | .error detail => (.error detail, directory)
  | .ok ppm =>
    match writeImage write nextFile ppm directory with
    | (.error detail, directory) => (.error detail, directory)
    | (.ok (), directory) => (.ok nextFile, directory)

/-! ## The daemon -/

/-- The state in memory, while the daemon runs, and the directory. -/
structure Session where
  persisted : Option PersistedState
  directory : Directory

/-- Before the first start. -/
def Session.new : Session := ⟨none, .empty⟩

/-- The record of a frame. -/
def recordOf (spec : StartSpec) (snapshot : Frames.FrameSnapshot) (file : String) (now : Nat) :
    LastGoodRecord :=
  { wallpaperId := spec.wallpaperId
    contentHash := spec.contentHash
    width := snapshot.spec.width
    height := snapshot.spec.height
    sequence := snapshot.sequence
    file := file
    updatedUnixSeconds := now }

/-- `image` and `state` are what becomes of the two writes. -/
def persistLastGood (spec : StartSpec) (snapshot : Frames.FrameSnapshot) (now : Nat)
    (image state : Write) (persisted : PersistedState) (directory : Directory) :
    Except String Unit × PersistedState × Directory :=
  let previous := persisted.lastGood
  match saveLastGood image snapshot previous directory with
  | (.error detail, directory) => (.error detail, persisted, directory)
  | (.ok file, directory) =>
    let persisted := { persisted with lastGood := some (recordOf spec snapshot file now) }
    match save state persisted directory with
    | (.error detail, directory) =>
      (.error detail, { persisted with lastGood := previous }, directory)
    | (.ok (), directory) => (.ok (), persisted, directory)

/-- What the daemon does to its state: a new last good frame, or a save of other
failure records and another count of kills. -/
inductive Operation
  | persist (spec : StartSpec) (snapshot : Frames.FrameSnapshot) (now : Nat) (image state : Write)
  | save (records : Records) (forcedKillCount : Nat) (write : Write)

def perform (persisted : PersistedState) (directory : Directory) :
    Operation → PersistedState × Directory
  | .persist spec snapshot now image state =>
    (persistLastGood spec snapshot now image state persisted directory).2
  | .save records forcedKillCount write =>
    let persisted := { persisted with records, forcedKillCount }
    (persisted, (save write persisted directory).2)

/-- The directory after each file operation. -/
def fileOperations (persisted : PersistedState) (directory : Directory) :
    Operation → List Directory
  | .persist spec snapshot now image state =>
    [(saveLastGood image snapshot persisted.lastGood directory).2,
      (persistLastGood spec snapshot now image state persisted directory).2.2]
  | .save records forcedKillCount write =>
    [(perform persisted directory (.save records forcedKillCount write)).2]

/-- `open_for_build`, which saves the state of another build. -/
def start (buildId : String) (write : Write) (directory : Directory) : Session :=
  match load directory with
  | .error _ => ⟨none, directory⟩
  | .ok state =>
    if state.buildId = some buildId then ⟨some state, directory⟩
    else
      match save write (openForBuild state buildId) directory with
      | (.error _, directory) => ⟨none, directory⟩
      | (.ok (), directory) => ⟨some (openForBuild state buildId), directory⟩

inductive Command
  | start (buildId : String) (write : Write)
  | perform (operation : Operation)
  /-- The daemon ends after a file operation of `operation`, or before the
  first. -/
  | crash (operation : Operation) (completed : Nat)

def step (session : Session) : Command → Session
  | .start buildId write => start buildId write session.directory
  | .perform operation =>
    match session.persisted with
    | none => session
    | some persisted =>
      let (persisted, directory) := perform persisted session.directory operation
      ⟨some persisted, directory⟩
  | .crash operation completed =>
    match session.persisted with
    | none => session
    | some persisted =>
      ⟨none, ((session.directory :: fileOperations persisted session.directory operation)[completed]?).getD
        session.directory⟩

/-- The handler of the supervisor comes to the same state. -/
theorem persistLastGood_handler {io : Io} {spec : StartSpec} {snapshot : Frames.FrameSnapshot}
    {image : Write} {s : State} {directory : Directory}
    (hfile : io.saveLastGood =
      (saveLastGood image snapshot s.persisted.lastGood directory).1.map fun _ => ()) :
    (Supervisor.persistLastGood io spec
        ⟨snapshot.spec.width, snapshot.spec.height, snapshot.sequence⟩ s).toOption.map
          (·.persisted.lastGood) =
      (persistLastGood spec snapshot io.unixSeconds image (io.save 0) s.persisted
        directory).1.toOption.map fun _ =>
          (persistLastGood spec snapshot io.unixSeconds image (io.save 0) s.persisted
            directory).2.1.lastGood := by
  have hnext : ∀ file, (saveLastGood image snapshot s.persisted.lastGood directory).1 = .ok file →
      file = nextLastGoodFile s.persisted.lastGood := by
    intro file h
    unfold saveLastGood at h
    cases hppm : encodePpm snapshot <;> rw [hppm] at h
    · cases h
    · cases image <;> cases h
      rfl
  unfold Supervisor.persistLastGood persistLastGood
  rw [hfile]
  dsimp only
  generalize saveLastGood image snapshot s.persisted.lastGood directory = saved at hnext
  obtain ⟨result, written⟩ := saved
  cases result with
  | error detail => rfl
  | ok file =>
    obtain rfl := hnext file rfl
    simp only [Except.map, saveState, save]
    cases io.save 0 <;> rfl

/-! ## What a record shows -/

/-- The frame of the record, and its image in the file that the record names. -/
structure Shown (directory : Directory) (record : LastGoodRecord) (snapshot : Frames.FrameSnapshot) :
    Prop where
  width : snapshot.spec.width = record.width
  height : snapshot.spec.height = record.height
  sequence : snapshot.sequence = record.sequence
  image : ∃ ppm, encodePpm snapshot = .ok ppm ∧ directory.image record.file = some ppm

/-- The record on disk, if there is one, shows a frame. -/
def Directory.Right (directory : Directory) : Prop :=
  ∀ record, directory.lastGood = some record → ∃ snapshot, Shown directory record snapshot

/-- The record in memory is the one on disk. -/
structure Session.Safe (session : Session) : Prop where
  right : session.directory.Right
  agrees : ∀ persisted, session.persisted = some persisted →
    persisted.lastGood = session.directory.lastGood

theorem Directory.right_empty : Directory.empty.Right := fun _ h => nomatch h

/-- Another record or no other image: the directory stays right. -/
theorem Directory.Right.congr {directory after : Directory} (h : directory.Right)
    (hrecord : after.lastGood = directory.lastGood)
    (himage : ∀ record, directory.lastGood = some record →
      after.image record.file = directory.image record.file) : after.Right := by
  intro record hafter
  rw [hrecord] at hafter
  obtain ⟨snapshot, hshown⟩ := h record hafter
  obtain ⟨ppm, hppm, hfile⟩ := hshown.image
  exact ⟨snapshot, hshown.width, hshown.height, hshown.sequence, ppm, hppm,
    (himage record hafter).trans hfile⟩

/-! ## Writes -/

/-- The next file is not the one that the record names. -/
theorem nextLastGoodFile_ne (record : LastGoodRecord) :
    nextLastGoodFile (some record) ≠ record.file := by
  rw [nextLastGoodFile, Option.map_some]
  split
  next h =>
    rw [Option.some.inj h]
    decide
  next h => exact fun heq => h (congrArg some heq.symm)

theorem save_right (write : Write) {persisted : PersistedState} {directory : Directory}
    (hright : directory.Right) (hagrees : persisted.lastGood = directory.lastGood) :
    (save write persisted directory).2.Right ∧
      (save write persisted directory).2.lastGood = directory.lastGood := by
  cases write with
  | error detail => exact ⟨hright, rfl⟩
  | ok _ => exact ⟨hright.congr hagrees fun _ _ => rfl, hagrees⟩

theorem saveLastGood_right (write : Write) (snapshot : Frames.FrameSnapshot)
    {directory : Directory} (hright : directory.Right) :
    (saveLastGood write snapshot directory.lastGood directory).2.Right ∧
      (saveLastGood write snapshot directory.lastGood directory).2.lastGood =
        directory.lastGood := by
  unfold saveLastGood
  cases encodePpm snapshot with
  | error detail => exact ⟨hright, rfl⟩
  | ok ppm =>
    cases write with
    | error detail => exact ⟨hright, rfl⟩
    | ok _ =>
      refine ⟨hright.congr rfl fun record hrecord => ?_, rfl⟩
      exact if_neg (by rw [hrecord]; exact (nextLastGoodFile_ne record).symm)

/-- A file that was written holds the image of the frame. -/
theorem saveLastGood_ok {write : Write} {snapshot : Frames.FrameSnapshot}
    {current : Option LastGoodRecord} {directory : Directory} {file : String}
    (h : (saveLastGood write snapshot current directory).1 = .ok file) :
    ∃ ppm, encodePpm snapshot = .ok ppm ∧
      (saveLastGood write snapshot current directory).2.image file = some ppm := by
  unfold saveLastGood at h ⊢
  cases hppm : encodePpm snapshot with
  | error detail => rw [hppm] at h; cases h
  | ok ppm =>
    rw [hppm] at h
    cases write with
    | error detail => cases h
    | ok _ =>
      obtain rfl := Except.ok.inj h
      exact ⟨ppm, rfl, if_pos rfl⟩

theorem persistLastGood_right (spec : StartSpec) (snapshot : Frames.FrameSnapshot) (now : Nat)
    (image state : Write) {persisted : PersistedState} {directory : Directory}
    (hright : directory.Right) (hagrees : persisted.lastGood = directory.lastGood) :
    let after := (persistLastGood spec snapshot now image state persisted directory).2
    after.2.Right ∧ after.1.lastGood = after.2.lastGood := by
  have hsaved := saveLastGood_right image snapshot hright
  have hok := fun file => @saveLastGood_ok image snapshot directory.lastGood directory file
  dsimp only
  rw [persistLastGood, hagrees]
  generalize saveLastGood image snapshot directory.lastGood directory = saved at hsaved hok
  obtain ⟨result, written⟩ := saved
  cases result with
  | error detail => exact ⟨hsaved.1, hagrees.trans hsaved.2.symm⟩
  | ok file =>
    cases state with
    | error detail => exact ⟨hsaved.1, hsaved.2.symm⟩
    | ok _ =>
      refine ⟨fun record hrecord => ?_, rfl⟩
      obtain rfl := Option.some.inj hrecord
      exact ⟨snapshot, rfl, rfl, rfl, hok file rfl⟩

/-! ## Steps and runs -/

theorem fileOperations_right {persisted : PersistedState} {directory : Directory}
    (hright : directory.Right) (hagrees : persisted.lastGood = directory.lastGood)
    (operation : Operation) :
    ∀ after ∈ fileOperations persisted directory operation, after.Right := by
  cases operation with
  | persist spec snapshot now image state =>
    simp only [fileOperations, List.forall_mem_cons, List.not_mem_nil, false_implies,
      implies_true, and_true]
    refine ⟨?_, (persistLastGood_right spec snapshot now image state hright hagrees).1⟩
    rw [hagrees]
    exact (saveLastGood_right image snapshot hright).1
  | save records forcedKillCount write =>
    simp only [fileOperations, List.forall_mem_cons, List.not_mem_nil, false_implies,
      implies_true, and_true]
    have hkept : { persisted with records, forcedKillCount }.lastGood = directory.lastGood := hagrees
    exact (save_right write hright hkept).1

theorem start_safe {buildId : String} {write : Write} {directory : Directory}
    (hright : directory.Right) : (start buildId write directory).Safe := by
  have hload : ∀ state, load directory = .ok state → state.lastGood = directory.lastGood := by
    intro state h
    unfold load at h
    split at h
    next hnone =>
      obtain rfl := Except.ok.inj h
      simp [Directory.lastGood, hnone, PersistedState.empty]
    next disk hsome =>
      split at h
      next => cases h
      next =>
        obtain rfl := Except.ok.inj h
        simp [Directory.lastGood, hsome]
  unfold start
  split
  · exact ⟨hright, fun _ h => by cases h⟩
  next state hstate =>
    have hagrees := hload state hstate
    split
    · refine ⟨hright, fun persisted h => ?_⟩
      obtain rfl := Option.some.inj h
      exact hagrees
    next hbuild =>
      have hopen : (openForBuild state buildId).lastGood = directory.lastGood := by
        rw [openForBuild, if_neg hbuild]
        exact hagrees
      obtain ⟨hafter, hkept⟩ := save_right write hright hopen
      generalize save write (openForBuild state buildId) directory = saved at hafter hkept
      obtain ⟨result, after⟩ := saved
      cases result with
      | error detail => exact ⟨hafter, fun _ h => by cases h⟩
      | ok _ =>
        refine ⟨hafter, fun persisted h => ?_⟩
        obtain rfl := Option.some.inj h
        exact hopen.trans hkept.symm

theorem step_safe (session : Session) (command : Command) (h : session.Safe) :
    (step session command).Safe := by
  obtain ⟨running, directory⟩ := session
  cases command with
  | start buildId write => exact start_safe h.right
  | perform operation =>
    cases running with
    | none => exact h
    | some persisted =>
      have hagrees := h.agrees persisted rfl
      cases operation with
      | persist spec snapshot now image state =>
        obtain ⟨hright, hsame⟩ := persistLastGood_right spec snapshot now image state h.right
          hagrees
        refine ⟨hright, fun after hafter => ?_⟩
        obtain rfl := Option.some.inj hafter
        exact hsame
      | save records forcedKillCount write =>
        have hsame : { persisted with records, forcedKillCount }.lastGood = directory.lastGood :=
          hagrees
        obtain ⟨hright, hkept⟩ := save_right write h.right hsame
        refine ⟨hright, fun after hafter => ?_⟩
        obtain rfl := Option.some.inj hafter
        exact hagrees.trans hkept.symm
  | crash operation completed =>
    cases running with
    | none => exact h
    | some persisted =>
      refine ⟨?_, fun _ hafter => nomatch hafter⟩
      have hall : ∀ after ∈ directory :: fileOperations persisted directory operation,
          after.Right := by
        rw [List.forall_mem_cons]
        exact ⟨h.right, fileOperations_right h.right (h.agrees persisted rfl) operation⟩
      simp only [step]
      cases hat : (directory :: fileOperations persisted directory operation)[completed]? with
      | none => exact h.right
      | some after => exact hall after (List.mem_of_getElem? hat)

end Kwe.Supervisor.Durable
