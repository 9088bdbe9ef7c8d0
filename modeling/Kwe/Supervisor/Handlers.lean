import Kwe.Supervisor.Model

/-!
The handlers of the supervisor thread, each a function of the state and of
what the world answered (`Io`, `Probe`), and the loop that calls them: one
command if one arrived, then one tick.

A tick is the five checks `tick` makes, in order; each of them is an input of
its own, so that a run is a list of inputs.
-/

namespace Kwe.Supervisor

/-- The reply of a command: the status, or the text of the error. -/
abbrev Reply := Except String WorkerStatus

def State.emit (e : Event) (s : State) : State := { s with events := s.events ++ [e] }

/-- `truncate_detail`. -/
def truncateDetail (detail : String) : String := String.ofList (detail.toList.take 256)

def advanceGeneration (s : State) : State :=
  { s.emit (.advanced s.displayGeneration) with
    displayGeneration := nextGeneration s.displayGeneration }

/-! ## The state store -/

/-- `store.save(&self.persisted)`. -/
def saveState (outcome : Except String Unit) (s : State) : Except String State :=
  match outcome with
  | .ok _ => .ok { s with disk := s.persisted }
  | .error detail => .error detail

/-- A save whose failure is only logged. -/
def saveOrLog (outcome : Except String Unit) (s : State) : State :=
  match saveState outcome s with
  | .ok saved => saved
  | .error _ => s

/-- The slot `save_last_good` writes next. -/
def nextLastGoodFile (current : Option LastGoodRecord) : String :=
  if current.map LastGoodRecord.file = some "last-good-a.ppm" then "last-good-b.ppm"
  else "last-good-a.ppm"

def persistLastGood (io : Io) (spec : StartSpec) (snapshot : FrameSnapshot) (s : State) :
    Except String State :=
  match io.saveLastGood with
  | .error detail => .error detail
  | .ok _ =>
    let record : LastGoodRecord :=
      { wallpaperId := spec.wallpaperId
        contentHash := spec.contentHash
        width := snapshot.width
        height := snapshot.height
        sequence := snapshot.sequence
        file := nextLastGoodFile s.persisted.lastGood
        updatedUnixSeconds := io.unixSeconds }
    saveState (io.save 0) { s with persisted := { s.persisted with lastGood := some record } }

/-! ## Stopping and launching -/

/-- The bookkeeping of `stop_worker`, for the `k`-th worker the handler stops. -/
def stopWorker (io : Io) (k : Nat) (countForced : Bool) (s : State) : State :=
  if io.forced k && countForced then
    { s with persisted :=
        { s.persisted with forcedKillCount := saturatingSucc64 s.persisted.forcedKillCount } }
  else s

def stopCandidate (io : Io) (countForced : Bool) (s : State) : State :=
  match s.candidate with
  | none => s
  | some _ => stopWorker io 0 countForced { s with candidate := none }

def stopAll (io : Io) (countForced : Bool) (s : State) : State :=
  let s := stopCandidate io countForced s
  let s := match s.retired with
    | none => s
    | some _ => stopWorker io 1 countForced { s with retired := none }
  match s.active with
  | none => s
  | some _ => stopWorker io 2 countForced { s with active := none }

/-- A worker just launched at time `now`. -/
def Worker.launched (spec : StartSpec) (child launch now : Nat) : Worker where
  spec := spec
  child := child
  launch := launch
  reader := false
  started := now
  lastProgress := now
  lastResidentCheck := now
  lastSnapshotSaved := none
  sequence := 0
  inputSequence := 0
  pendingInput := none
  inputCoalesced := 0
  inputProtocolErrors := 0
  pointerInside := false
  pointerX := 0
  pointerY := 0
  pendingAudio := none
  audioCoalesced := 0
  pendingMedia := none
  mediaCoalesced := 0

def spawnWorker (io : Io) (spec : StartSpec) (s : State) : Except String Worker × State :=
  let s := { s with launchSerial := (s.launchSerial + 1) % 2 ^ 64 }
  match io.spawn with
  | .error detail => (.error detail, s)
  | .ok _ =>
    (.ok (Worker.launched spec s.children s.launchSerial (io.clock 0)),
      ({ s with children := s.children + 1 }).emit (.spawned spec))

/-! ## Failures -/

/-- The record a failure of `spec` updates: its own, or a fresh one. -/
def Records.entry (records : Records) (kind : FailureKind) (spec : StartSpec) : FailureRecord :=
  records[spec.identity]?.getD
    { wallpaperId := spec.wallpaperId
      contentHash := spec.contentHash
      failures := 0
      quarantined := false
      lastFailure := kind
      lastDetail := ""
      updatedUnixSeconds := 0 }

/-- The updated record of one more failure. -/
def FailureRecord.strike (cfg : Config) (now : Nat) (kind : FailureKind) (detail : String)
    (record : FailureRecord) : FailureRecord :=
  { record with
    failures := saturatingSucc32 record.failures
    quarantined := decide (cfg.maxFailures ≤ saturatingSucc32 record.failures)
    lastFailure := kind
    lastDetail := truncateDetail detail
    updatedUnixSeconds := now }

def emitEviction (victim : Option String) (s : State) : State :=
  match victim with
  | none => s
  | some key => s.emit (.evicted key)

/-- Whether the identity is quarantined now, and the state with the failure on
record. -/
def recordFailure (cfg : Config) (io : Io) (kind : FailureKind) (detail : String)
    (spec : StartSpec) (s : State) : Bool × State :=
  let migrated := s.persisted.records.migrate spec
  let evicted := migrated.evict spec
  let record := (evicted.entry kind spec).strike cfg io.unixSeconds kind detail
  let records := evicted.insert spec.identity record
  let s := emitEviction (migrated.victim spec) s
  let s := { s with
    persisted := { s.persisted with records := records }
    lastFailure := some (kind, record.lastDetail) }
  (record.quarantined, saveOrLog (io.save 1) s)

def clearSuccessRecord (io : Io) (spec : StartSpec) (s : State) : State :=
  saveOrLog (io.save 2)
    { s.emit (.cleared spec) with
      persisted := { s.persisted with
        records := (s.persisted.records.erase spec.identity).erase spec.legacyIdentity }
      lastFailure := none }

def scheduleRestart (cfg : Config) (io : Io) (spec : StartSpec) (s : State) : State :=
  { s with
    restartCount := saturatingSucc32 s.restartCount
    phase := .restarting
    pending := some ⟨spec, io.clock 1 + cfg.restartDelay⟩ }

def handleCandidateFailure (cfg : Config) (io : Io) (kind : FailureKind) (detail : String)
    (spec : StartSpec) (s : State) : State :=
  if kind = .refused then
    { s.emit (.refused spec) with
      lastFailure := some (kind, truncateDetail detail)
      pending := none
      requested := some spec
      phase := s.rolledBackOr .stopped }
  else
    match recordFailure cfg io kind detail spec s with
    | (true, s) => { s with phase := s.rolledBackOr .quarantined, pending := none }
    | (false, s) => scheduleRestart cfg io spec s

/-- An exit 73 or 74 after the first frame is a crash like any other. -/
def FailureKind.afterFirstFrame (kind : FailureKind) : FailureKind :=
  if kind = .refused then .processExit else kind

def handleActiveFailure (cfg : Config) (io : Io) (kind : FailureKind) (detail : String)
    (s : State) : State :=
  match s.active with
  | none => s
  | some worker =>
    let kind := kind.afterFirstFrame
    let spec := worker.spec
    let s := stopWorker io 0 false { s with active := none }
    match s.retired with
    | some retired =>
      let s := advanceGeneration { s with retired := none, active := some retired.worker }
      match recordFailure cfg io kind detail spec { s with requested := some spec } with
      | (true, s) => { s with phase := .rolledBack, pending := none }
      | (false, s) => scheduleRestart cfg io spec s
    | none =>
      match recordFailure cfg io kind detail spec s with
      | (quarantined, s) =>
        if s.candidate.isSome then { s with phase := .starting }
        else if quarantined then
          -- `pending` is left as it is.
          { s with requested := some spec, phase := .quarantined }
        else scheduleRestart cfg io spec { s with requested := some spec }

/-! ## Commands -/

/-- Spawns the candidate, or fails it when no process could be launched. -/
def launchCandidate (cfg : Config) (io : Io) (spec : StartSpec) (s : State) : State :=
  match spawnWorker io spec s with
  | (.ok worker, s) => { s with candidate := some worker, phase := s.launchPhase }
  | (.error detail, s) => handleCandidateFailure cfg io .launchFailed detail spec s

def startSelected (cfg : Config) (io : Io) (spec : StartSpec) (clearFailure : Bool) (s : State) :
    Reply × State :=
  if s.retired.isSome then
    (.error "display handoff is still awaiting acknowledgement", s)
  else
    let s := { stopCandidate io false s with
      pending := none, restartCount := 0, lastFailure := none }
    if clearFailure then
      let s := { s with persisted := { s.persisted with
        records := (s.persisted.records.erase spec.identity).erase spec.legacyIdentity } }
      match saveState (io.save 0) s with
      | .error detail => (.error detail, s)
      | .ok s =>
        let s := launchCandidate cfg io spec { s with requested := some spec }
        (.ok (status s), s)
    else
      match (s.persisted.records.lookup spec).filter FailureRecord.quarantined with
      | some record =>
        let s := { s with
          lastFailure := some (record.lastFailure, record.lastDetail)
          requested := some spec
          phase := s.rolledBackOr .quarantined }
        (.ok (status s), s)
      | none =>
        let s := launchCandidate cfg io spec { s with requested := some spec }
        (.ok (status s), s)

def stopSelected (io : Io) (s : State) : Reply × State :=
  let s := { stopAll io true { s with pending := none } with phase := .stopped }
  match saveState (io.save 0) s with
  | .error detail => (.error detail, s)
  | .ok s => (.ok (status s), s)

/-- `Live`, when an active worker has no candidate beside it. -/
def settleLive (s : State) : State :=
  if s.active.isSome && s.candidate.isNone then { s with phase := .live } else s

/-- The generation an acknowledgement has to name. -/
def Slots.expectedGeneration (s : Slots) : Nat :=
  (s.retired.map RetiredWorker.generation).getD s.displayGeneration

def acknowledgeDisplay (io : Io) (generation : Nat) (s : State) : Reply × State :=
  let expected := s.expectedGeneration
  if generation ≠ expected then
    (.error ("display generation mismatch: current is " ++ toString expected), s)
  else
    match s.retired with
    | none => let s := settleLive s; (.ok (status s), s)
    | some retired =>
      match s.active with
      | none => (.error "cannot acknowledge a handoff without an active renderer", s)
      | some worker =>
        match persistLastGood io worker.spec retired.promotionSnapshot { s with retired := none } with
        | .error detail =>
          (.error ("persist promoted fallback before acknowledgement: " ++ detail), s)
        | .ok s =>
          let s := settleLive (clearSuccessRecord io worker.spec (stopWorker io 0 true s))
          (.ok (status s), s)

/-! ## Control messages to the active worker -/

inductive PipeWrite
  | written | wouldBlock | error (detail : String)
  deriving DecidableEq, Repr

/-- `queue_control_message`: the pending line, the coalesced count, and whether
the write failed. -/
def queueControlMessage (pipe : PipeWrite) (line : ControlLine) (pending : Option ControlLine)
    (coalesced : Nat) : Except String Unit × Option ControlLine × Nat :=
  let coalesced := if pending.isSome then saturatingSucc64 coalesced else coalesced
  match pipe with
  | .written => (.ok (), none, coalesced)
  | .wouldBlock => (.ok (), some line, coalesced)
  | .error detail => (.error detail, none, coalesced)

/-- `flush_pending`: one write attempt for a line that is still waiting. -/
def flushPending (pipe : PipeWrite) (pending : Option ControlLine) (protocolErrors : Nat) :
    Option ControlLine × Nat :=
  match pending with
  | none => (none, protocolErrors)
  | some line =>
    match pipe with
    | .written => (none, protocolErrors)
    | .wouldBlock => (some line, protocolErrors)
    | .error _ => (none, saturatingSucc64 protocolErrors)

/-- `PointerMessage::from_normalized`; `quantized` is the outcome of quantizing
the two coordinates. -/
def fromNormalized (sequence : Nat) (phase : PointerPhase) (quantized : Option (Nat × Nat)) :
    Except String PointerMessage :=
  if sequence = 0 then .error "input sequence must be non-zero"
  else match quantized with
    | none => .error "normalized pointer coordinate must be finite and in 0..=1"
    | some (x, y) => .ok ⟨sequence, phase, x, y, none⟩

/-- The message of a pointer input, checked as `button_event` and
`encode_pointer_line` check it. -/
def pointerMessage (sequence : Nat) (phase : PointerPhase) (button : Option PointerButton)
    (quantized : Option (Nat × Nat)) : Except String PointerMessage :=
  let pressed := decide (phase = .down ∨ phase = .up)
  match button with
  | some button =>
    if !pressed then .error "pointer button is required only for down/up phases"
    else (fromNormalized sequence phase quantized).map fun m => { m with button := some button }
  | none =>
    match fromNormalized sequence phase quantized with
    | .error detail => .error detail
    | .ok message =>
      if pressed then .error "pointer button is required only for down/up phases"
      else .ok message

/-- `raise_ack_ceiling`. -/
def Worker.raiseAckCeiling (sequence : Nat) (w : Worker) : Worker :=
  { w with inputSequence := max w.inputSequence sequence }

def forwardPointerInput (generation : Nat) (phase : PointerPhase) (button : Option PointerButton)
    (quantized : Option (Nat × Nat)) (pipe : PipeWrite) (s : State) : Reply × State :=
  if generation = 0 ∨ generation ≠ s.displayGeneration then
    (.error "pointer input display generation is stale or invalid", s)
  else match s.active with
  | none => (.error "no promoted renderer is available for pointer input", s)
  | some worker =>
    if worker.inputSequence + 1 = 2 ^ 64 then (.error "pointer input sequence exhausted", s)
    else match pointerMessage (worker.inputSequence + 1) phase button quantized with
    | .error detail => (.error detail, s)
    | .ok message =>
      match queueControlMessage pipe (.pointer message) worker.pendingInput worker.inputCoalesced with
      | (.error detail, pending, coalesced) =>
        (.error detail, { s with
          active := some { worker with pendingInput := pending, inputCoalesced := coalesced } })
      | (.ok _, pending, coalesced) =>
        let s := { s with active := some { worker with
          pendingInput := pending
          inputCoalesced := coalesced
          inputSequence := worker.inputSequence + 1
          pointerInside := decide (phase ≠ .leave)
          pointerX := message.x
          pointerY := message.y } }
        (.ok (status s), s)

/-- `granted` is the audio grant of the active wallpaper, `line` the outcome of
encoding the frame. -/
def forwardAudioFrame (generation : Nat) (granted : Bool) (line : Except String (List UInt8))
    (pipe : PipeWrite) (s : State) : Reply × State :=
  if generation = 0 ∨ generation ≠ s.displayGeneration then
    (.error "audio frame display generation is stale or invalid", s)
  else match s.active with
  | none => (.error "no promoted renderer is available for audio forwarding", s)
  | some worker =>
    if !granted then
      let s := { s with audioGrantDropped := saturatingSucc64 s.audioGrantDropped }
      (.ok (status s), s)
    else match line with
    | .error detail => (.error detail, s)
    | .ok bytes =>
      match queueControlMessage pipe (.audio bytes) worker.pendingAudio worker.audioCoalesced with
      | (.error detail, pending, coalesced) =>
        (.error detail, { s with
          active := some { worker with pendingAudio := pending, audioCoalesced := coalesced } })
      | (.ok _, pending, coalesced) =>
        let s := { s with active := some (Worker.raiseAckCeiling generation { worker with
          pendingAudio := pending, audioCoalesced := coalesced }) }
        (.ok (status s), s)

def forwardMediaState (generation : Nat) (line : Except String (List UInt8)) (pipe : PipeWrite)
    (s : State) : Reply × State :=
  if generation = 0 ∨ generation ≠ s.displayGeneration then
    (.error "media state display generation is stale or invalid", s)
  else match s.active with
  | none => (.error "no promoted renderer is available for media state", s)
  | some worker =>
    match line with
    | .error detail => (.error detail, s)
    | .ok bytes =>
      match queueControlMessage pipe (.media bytes) worker.pendingMedia worker.mediaCoalesced with
      | (.error detail, pending, coalesced) =>
        (.error detail, { s with
          active := some { worker with pendingMedia := pending, mediaCoalesced := coalesced } })
      | (.ok _, pending, coalesced) =>
        let s := { s with active := some (Worker.raiseAckCeiling generation { worker with
          pendingMedia := pending, mediaCoalesced := coalesced }) }
        (.ok (status s), s)

/-! ## Observing a worker -/

inductive WorkerObservation
  | progress (snapshot : FrameSnapshot)
  | failure (kind : FailureKind) (detail : String)
  deriving DecidableEq, Repr

/-- `append_stderr_tail`: the last eight diagnostic lines, bounded. -/
def appendStderrTail (detail : String) (tail : List String) : String :=
  if tail.isEmpty then detail
  else
    let last := (tail.reverse.take 8).reverse
    detail ++ " stderr=[" ++ truncateDetail (" | ".intercalate last) ++ "]"

/-- The detail of an exit that is no declared resource limit. -/
def ExitStatus.detail : ExitStatus → String
  | .code n => "exit_code_" ++ toString n
  | .signal n => "signal_" ++ toString n
  | .unknown => "unknown_exit"

/-- `EXIT_BACKEND_REJECT` and `EXIT_NO_DRAWABLE_CONTENT` refuse; every other
exit is a crash. -/
def ExitStatus.kind : ExitStatus → FailureKind
  | .code n => if n = 73 ∨ n = 74 then .refused else .processExit
  | _ => .processExit

/-- Exit code 71 and `SIGXFSZ` declare a resource limit. -/
def observeExit (tail : List String) (exit : ExitStatus) : WorkerObservation :=
  if exit = .code 71 then .failure .resourceLimit "memory_allocation_denied"
  else if exit = .signal 25 then .failure .resourceLimit "file_size_limit_exceeded"
  else .failure exit.kind (appendStderrTail exit.detail tail)

def residentBudget (cfg : Config) (kind : RendererKind) : Nat :=
  min (min (cfg.addressSpaceMib kind) macosResidentBudgetMib * (1024 * 1024)) (2 ^ 64 - 1)

/-- The resident-set watchdog: its failure, and the worker with the check on
record. -/
def checkResident (cfg : Config) (probe : Probe) (w : Worker) :
    Option WorkerObservation × Worker :=
  if cfg.addressSpaceLimitEnforced ∨ probe.now - w.lastResidentCheck < residentCheckInterval then
    (none, w)
  else
    let budget := residentBudget cfg w.spec.kind
    let w := { w with lastResidentCheck := probe.now }
    match probe.resident with
    | some resident =>
      if budget < resident then
        (some (.failure .resourceLimit
          ("resident_set_exceeded:" ++ toString (resident / (1024 * 1024)) ++ "MiB>" ++
            toString (budget / (1024 * 1024)) ++ "MiB")), w)
      else (none, w)
    | none => (none, w)

/-- The deadlines a worker that shows no new frame can miss. -/
def checkDeadlines (cfg : Config) (probe : Probe) (w : Worker) : Option WorkerObservation :=
  if w.sequence = 0 ∧ cfg.startupTimeout w.spec.kind ≤ probe.now - w.started then
    some (.failure .startupTimeout "no_valid_frame")
  else if 0 < w.sequence ∧ cfg.frameTimeout ≤ probe.now - w.lastProgress then
    some (.failure .frameTimeout "frame_sequence_stalled")
  else none

/-- The frame the worker shows, once its file can be opened. -/
def checkFrame (cfg : Config) (probe : Probe) (w : Worker) : Option WorkerObservation × Worker :=
  let w := { w with reader := w.reader || probe.opens }
  if w.reader then
    match probe.snapshot with
    | .frame snapshot =>
      if w.sequence < snapshot.sequence then
        (some (.progress snapshot),
          { w with sequence := snapshot.sequence, lastProgress := probe.now })
      else (checkDeadlines cfg probe w, w)
    | .busy => (checkDeadlines cfg probe w, w)
    | .error detail =>
      if w.sequence = 0 then
        if cfg.startupTimeout w.spec.kind ≤ probe.now - w.started then
          (some (.failure .startupTimeout detail), w)
        else (checkDeadlines cfg probe w, w)
      else (some (.failure .invalidFrame detail), w)
  else (checkDeadlines cfg probe w, w)

def inspectWorker (cfg : Config) (probe : Probe) (w : Worker) :
    Option WorkerObservation × Worker :=
  match probe.child with
  | .exited exit => (some (observeExit probe.stderrTail exit), w)
  | .waitError detail =>
    (some (.failure .processExit (appendStderrTail ("wait_error:" ++ detail) probe.stderrTail)), w)
  | .running =>
    match checkResident cfg probe w with
    | (some failure, w) => (some failure, w)
    | (none, w) => checkFrame cfg probe w

/-! ## The tick -/

/-- The write attempts of `service_active_input`, one for each stream. -/
def serviceActiveInput (input audio media : PipeWrite) (s : State) : State :=
  match s.active with
  | none => s
  | some worker =>
    let (pendingInput, errors) := flushPending input worker.pendingInput worker.inputProtocolErrors
    let (pendingAudio, errors) := flushPending audio worker.pendingAudio errors
    let (pendingMedia, errors) := flushPending media worker.pendingMedia errors
    { s with active := some { worker with
      pendingInput := pendingInput
      pendingAudio := pendingAudio
      pendingMedia := pendingMedia
      inputProtocolErrors := errors } }

def completeHandoffTimeout (cfg : Config) (io : Io) (s : State) : State :=
  match s.retired with
  | none => s
  | some retired =>
    let s := { s with retired := none }
    match s.active with
    | none => { s with active := some retired.worker, phase := .rolledBack }
    | some failed =>
      match persistLastGood io failed.spec retired.promotionSnapshot s with
      | .ok s => { clearSuccessRecord io failed.spec (stopWorker io 0 true s) with phase := .live }
      | .error detail =>
        let s := stopWorker io 0 false { s with active := none }
        let s := advanceGeneration { s with active := some retired.worker }
        handleCandidateFailure cfg io .invalidFrame ("persist_last_good:" ++ detail) failed.spec s

/-- The first check of a tick: has the open handoff run out of time? -/
def checkHandoff (cfg : Config) (now : Nat) (io : Io) (s : State) : State :=
  match s.retired with
  | none => s
  | some retired => if retired.deadline ≤ now then completeHandoffTimeout cfg io s else s

/-- The second: is a restart due? -/
def checkPending (cfg : Config) (now : Nat) (io : Io) (s : State) : State :=
  if s.candidate.isSome then s
  else match s.pending with
  | none => s
  | some pending =>
    if now < pending.at_ then s
    else launchCandidate cfg io pending.spec { s with pending := none }

/-- Whether a progressing active worker's frame is due to be saved. -/
def snapshotDue (now : Nat) (w : Worker) (s : State) : Bool :=
  s.retired.isNone &&
    (w.lastSnapshotSaved.isNone ||
      decide (snapshotInterval ≤ now - w.lastSnapshotSaved.getD 0))

/-- The third: what became of the active worker? -/
def checkActive (cfg : Config) (probe : Probe) (io : Io) (s : State) : State :=
  match s.active with
  | none => s
  | some worker =>
    match inspectWorker cfg probe worker with
    | (none, worker) => { s with active := some worker }
    | (some (.failure kind detail), worker) =>
      handleActiveFailure cfg io kind detail { s with active := some worker }
    | (some (.progress snapshot), worker) =>
      if snapshotDue (io.clock 0) worker s then
        let s := { s with active := some { worker with lastSnapshotSaved := some (io.clock 1) } }
        match persistLastGood io worker.spec snapshot s with
        | .ok s => s
        | .error _ => s
      else { s with active := some worker }

def promoteCandidate (cfg : Config) (io : Io) (snapshot : FrameSnapshot) (s : State) : State :=
  match s.candidate with
  | none => s
  | some candidate =>
    let promoted := { candidate with lastSnapshotSaved := some (io.clock 2) }
    match s.active with
    | none =>
      let s := { s with candidate := none }
      match persistLastGood io promoted.spec snapshot s with
      | .error detail =>
        handleCandidateFailure cfg io .invalidFrame ("persist_last_good:" ++ detail) promoted.spec
          (stopWorker io 0 false s)
      | .ok s =>
        let s := advanceGeneration { s with active := some promoted }
        { clearSuccessRecord io promoted.spec { s with pending := none, restartCount := 0 } with
          phase := .live }
    | some previous =>
      let s := advanceGeneration { s with candidate := none, active := some promoted }
      { s with
        pending := none
        restartCount := 0
        retired := some ⟨previous, s.displayGeneration, io.clock 3 + cfg.handoffTimeout, snapshot⟩
        phase := .awaitingAck }

/-- Three frames, over the whole canary interval. -/
def promotable (cfg : Config) (now : Nat) (w : Worker) : Bool :=
  decide (3 ≤ w.sequence) && decide (cfg.canaryDuration ≤ now - w.started)

/-- The last: what became of the candidate? -/
def checkCandidate (cfg : Config) (probe : Probe) (io : Io) (s : State) : State :=
  match s.candidate with
  | none => s
  | some worker =>
    match inspectWorker cfg probe worker with
    | (none, worker) => { s with candidate := some worker }
    | (some (.progress snapshot), worker) =>
      let s := { s with candidate := some worker }
      if promotable cfg (io.clock 0) worker then promoteCandidate cfg io snapshot s
      else if s.active.isSome then { s with phase := .canary } else s
    | (some (.failure kind detail), worker) =>
      handleCandidateFailure cfg io kind detail worker.spec
        (stopCandidate io false { s with candidate := some worker })

/-! ## The loop -/

/-- One input of the supervisor thread: a command, or one check of a tick.
Commands that only read (`Status`, `QuarantinedIds`, the grant commands) leave
this state as it is and are left out. -/
inductive Input
  | start (spec : StartSpec) (io : Io)
  | retry (spec : StartSpec) (io : Io)
  | stop (io : Io)
  | acknowledge (generation : Nat) (io : Io)
  | pointerInput (generation : Nat) (phase : PointerPhase) (button : Option PointerButton)
      (quantized : Option (Nat × Nat)) (pipe : PipeWrite)
  | audioFrame (generation : Nat) (granted : Bool) (line : Except String (List UInt8))
      (pipe : PipeWrite)
  | mediaState (generation : Nat) (line : Except String (List UInt8)) (pipe : PipeWrite)
  | serviceInput (input audio media : PipeWrite)
  | handoffDeadline (now : Nat) (io : Io)
  | pendingRestart (now : Nat) (io : Io)
  | inspectActive (probe : Probe) (io : Io)
  | inspectCandidate (probe : Probe) (io : Io)

/-- The reply of an input and the state after it; a check of a tick answers
nobody. -/
def perform (cfg : Config) (s : State) : Input → Option Reply × State
  | .start spec io => (startSelected cfg io spec false s).map some id
  | .retry spec io => (startSelected cfg io spec true s).map some id
  | .stop io => (stopSelected io s).map some id
  | .acknowledge generation io => (acknowledgeDisplay io generation s).map some id
  | .pointerInput generation phase button quantized pipe =>
      (forwardPointerInput generation phase button quantized pipe s).map some id
  | .audioFrame generation granted line pipe =>
      (forwardAudioFrame generation granted line pipe s).map some id
  | .mediaState generation line pipe => (forwardMediaState generation line pipe s).map some id
  | .serviceInput input audio media => (none, serviceActiveInput input audio media s)
  | .handoffDeadline now io => (none, checkHandoff cfg now io s)
  | .pendingRestart now io => (none, checkPending cfg now io s)
  | .inspectActive probe io => (none, checkActive cfg probe io s)
  | .inspectCandidate probe io => (none, checkCandidate cfg probe io s)

/-- One input, with the events of earlier inputs forgotten. -/
def step (cfg : Config) (s : State) (i : Input) : State :=
  (perform cfg { s with events := [] } i).2

/-- The reply to an input. -/
def reply (cfg : Config) (s : State) (i : Input) : Option Reply :=
  (perform cfg { s with events := [] } i).1

/-- What the world answers to one tick. -/
structure TickIo where
  input : PipeWrite
  audio : PipeWrite
  media : PipeWrite
  handoffNow : Nat
  handoff : Io
  pendingNow : Nat
  pending : Io
  activeProbe : Probe
  active : Io
  candidateProbe : Probe
  candidate : Io

/-- `tick`, as the inputs it consists of. -/
def tick (io : TickIo) : List Input :=
  [.serviceInput io.input io.audio io.media,
   .handoffDeadline io.handoffNow io.handoff,
   .pendingRestart io.pendingNow io.pending,
   .inspectActive io.activeProbe io.active,
   .inspectCandidate io.candidateProbe io.candidate]

/-- One turn of `run`: at most one command, then a tick. -/
structure Turn where
  command : Option Input
  tickIo : TickIo

def Turn.inputs (turn : Turn) : List Input := turn.command.toList ++ tick turn.tickIo

/-! ## Sample runs -/

/-- A configuration that quarantines at the second failure. -/
def Config.sample : Config where
  restartDelay := 1000
  canaryDuration := 500
  handoffTimeout := 5000
  frameTimeout := 5000
  startupTimeout := fun _ => 10000
  addressSpaceMib := fun _ => 4096
  addressSpaceLimitEnforced := true
  maxFailures := 2
  maxFailures_pos := by decide
  maxFailures_le := by decide

/-- A video wallpaper. -/
def StartSpec.sample (wallpaperId : String) (h : identityPart wallpaperId = true) : StartSpec where
  wallpaperId := wallpaperId
  contentHash := "hash"
  width := 960
  height := 540
  fps := 30
  kind := .video
  content := none
  scaling := .aspect
  capabilityLimitations := []
  wallpaperId_ok := h
  contentHash_ok := by decide

def specA : StartSpec := .sample "a" (by decide)

def specB : StartSpec := .sample "b" (by decide)

/-- A running worker whose newest frame is `sequence`. -/
def Probe.frame (now sequence : Nat) : Probe :=
  ⟨now, .running, [], none, true, .frame ⟨960, 540, sequence⟩⟩

/-- A worker that crashed. -/
def Probe.crash (now : Nat) : Probe := ⟨now, .exited (.code 1), [], none, true, .busy⟩

/-- A first start, and the look at the candidate that promotes it. -/
def firstPromotion : List Input :=
  [.start specA (.quiet 0), .inspectCandidate (.frame 1000 5) (.quiet 1000)]

/-- A turn at time `now` in which every write succeeds. -/
def Turn.sample (command : Option Input) (now : Nat) (active candidate : Probe) : Turn where
  command := command
  tickIo :=
    { input := .written
      audio := .written
      media := .written
      handoffNow := now
      handoff := .quiet now
      pendingNow := now
      pending := .quiet now
      activeProbe := active
      active := .quiet now
      candidateProbe := candidate
      candidate := .quiet now }

/-- `a` starts and goes live. -/
def liveA : List Turn :=
  [.sample (some (.start specA (.quiet 0))) 0 (.frame 0 1) (.frame 0 1),
   .sample none 1000 (.frame 1000 1) (.frame 1000 5)]

/-- `a` is live with one failure on record, `b` waits for its restart, and the
second failure of `a` quarantines it; then `b` is promoted. -/
def quarantineBesideRestart : List Turn :=
  liveA ++
  [.sample (some (.start specA (.quiet 2000))) 2000 (.frame 2000 9) (.crash 2000),
   .sample (some (.start specB (.quiet 2100))) 2100 (.frame 2100 10) (.crash 2100),
   .sample none 2200 (.crash 2200) (.frame 2200 0),
   .sample none 3200 (.frame 3200 0) (.frame 3200 1),
   .sample none 4200 (.frame 4200 0) (.frame 4200 5)]

end Kwe.Supervisor
