import Kwe.Foundation.EcmaScript
import Kwe.Foundation.Runs
import Kwe.Manager.Clients

/-!
The client of the manager that applies wallpapers: one request at a time, a bounded
queue, a deadline for each request, and a failure that Try Again replays.

* `step_inv`: what every step keeps that mixes no two failures;
* `retry_replays`: in runs of such steps Try Again sends the request that failed;
* `quarantine_cleared`: a deadline missed after a refusal, replayed with its flag.
-/

namespace Kwe.Manager.Applying

open Foundation Foundation.Runs
open Kwe.Manager (maxQueuedOperations)

/-- The code units of a `QString`. -/
abbrev QString := List Nat

def latin (text : String) : QString := EcmaScript.utf16 text.toList

def maxIdentityBytes : Nat := 128

def maxContentBytes : Nat := 4096

/-! ## Requests -/

inductive Method
  | listOutputs | apply | restore | assignments
  deriving DecidableEq, Repr

structure Pending where
  method : Method
  output : QString
  wallpaperId : QString
  kind : QString
  content : QString
  retry : Bool
  scaling : QString
  fps : Int
  deriving DecidableEq, Repr

def Pending.listOutputs : Pending := ⟨.listOutputs, [], [], [], [], false, [], 0⟩

def Pending.assignments : Pending := ⟨.assignments, [], [], [], [], false, [], 0⟩

def Pending.restoring (output : QString) : Pending := ⟨.restore, output, [], [], [], false, [], 0⟩

inductive Value
  | text (value : QString)
  | flag (value : Bool)
  | number (value : Int)
  deriving DecidableEq, Repr

def methodName : Method → String
  | .listOutputs => "wallpaper.outputs"
  | .apply => "wallpaper.apply"
  | .restore => "wallpaper.restore"
  | .assignments => "wallpaper.assignments"

def wireContent (content : QString) : List (String × Value) :=
  if content = [] then [] else [("content", .text content)]

def wireScaling (scaling : QString) : List (String × Value) :=
  if scaling = [] ∨ scaling = latin "aspect" then [] else [("scaling", .text scaling)]

def wireFps (fps : Int) : List (String × Value) :=
  if 0 < fps ∧ fps ≠ 30 then [("fps", .number fps)] else []

def Pending.params (p : Pending) : List (String × Value) :=
  match p.method with
  | .apply =>
    [("output", .text p.output), ("wallpaper_id", .text p.wallpaperId), ("kind", .text p.kind)] ++
      wireContent p.content ++ (if p.retry then [("retry", .flag true)] else []) ++
      wireScaling p.scaling ++ wireFps p.fps
  | .restore => [("output", .text p.output)]
  | .listOutputs | .assignments => []

/-- `writeRequest`. -/
def Pending.request (p : Pending) : String × List (String × Value) := (methodName p.method, p.params)

/-! ## Checks -/

/-- A character of an identity; other code units become `?` in Latin-1 or stay no letter. -/
def identityUnit (u : Nat) : Bool :=
  (0x61 ≤ u && u ≤ 0x7A) || (0x41 ≤ u && u ≤ 0x5A) || (0x30 ≤ u && u ≤ 0x39) || u = 0x2E ||
    u = 0x5F || u = 0x2D

def validIdentity (value : QString) : Bool :=
  value ≠ [] && value.length ≤ maxIdentityBytes && value.all identityUnit

def validKind (kind : QString) : Bool :=
  kind = latin "video" || kind = latin "web" || kind = latin "scene"

def validScaling (scaling : QString) : Bool :=
  scaling = [] || scaling = latin "aspect" || scaling = latin "fill" || scaling = latin "stretch"

/-! ## The client -/

inductive State
  | idle | listingOutputs | applying | restoring | applied | failed
  deriving DecidableEq, Repr

/-- The client, and the user's operation that failed last, with whether the daemon answered
it with `apply_quarantined`. -/
structure Client where
  state : State
  current : Option Pending
  /-- There is a connection, or one is being made. -/
  connected : Bool
  queue : List Pending
  retryActive : Bool
  failedMethod : Option Method
  lastFailedMethod : Option Method
  lastFailedOutput : QString
  lastFailedWallpaperId : QString
  lastFailedKind : QString
  lastFailedContent : QString
  lastFailedScaling : QString
  lastFailedFps : Int
  lastFailedQuarantined : Bool
  failed : Option (Pending × Bool)
  deriving DecidableEq

def Client.new : Client where
  state := .idle
  current := none
  connected := false
  queue := []
  retryActive := false
  failedMethod := none
  lastFailedMethod := none
  lastFailedOutput := []
  lastFailedWallpaperId := []
  lastFailedKind := []
  lastFailedContent := []
  lastFailedScaling := []
  lastFailedFps := 0
  lastFailedQuarantined := false
  failed := none

/-- The method that Try Again is offered for. -/
def offered (retryable : Bool) : Method → Option Method
  | .apply => if retryable then some .apply else none
  | .restore => some .restore
  | .listOutputs | .assignments => none

namespace Client

def busy (c : Client) : Bool := c.current.isSome || !c.queue.isEmpty

def clearResult (c : Client) : Client := { c with failedMethod := none }

def setState (c : Client) (state : State) : Client := { c with state := state }

/-- A user's operation has failed. -/
def note (c : Client) (p : Pending) (quarantined : Bool) : Client :=
  if p.method = .assignments then c else { c with failed := some (p, quarantined) }

def begin (c : Client) (p : Pending) : Client :=
  let c := { c with current := some p, connected := true }
  match p.method with
  | .listOutputs => c.clearResult.setState .listingOutputs
  | .apply => c.clearResult.setState .applying
  | .restore => c.clearResult.setState .restoring
  | .assignments => c

def drainQueue (c : Client) : Client :=
  match c.queue with
  | [] => c
  | next :: queue => { c with queue := queue }.begin next

def retryLater (c : Client) : Client := { c with retryActive := true }

def send (p : Pending) (c : Client) : Client :=
  if c.busy = false then c.begin p
  else if p.method = .assignments then
    if maxQueuedOperations ≤ c.queue.length then c else { c with queue := c.queue ++ [p] }
  else if maxQueuedOperations ≤ c.queue.length then (c.note p false).setState .failed
  else { c with queue := c.queue ++ [p] }

def refreshAssignments (c : Client) : Client := c.send .assignments

/-- `finish` with a failure. -/
def fail (quarantined incompatible : Bool) (p : Pending) (c : Client) : Client :=
  if p.method = .assignments then c
  else
    { (c.note p quarantined).clearResult with
      lastFailedMethod := some p.method
      lastFailedOutput := p.output
      lastFailedWallpaperId := p.wallpaperId
      lastFailedKind := p.kind
      lastFailedContent := p.content
      lastFailedScaling := if p.scaling = [] then latin "aspect" else p.scaling
      lastFailedFps := p.fps
      lastFailedQuarantined := quarantined
      failedMethod := offered (!incompatible) p.method }.setState .failed

/-- `finish` with a success. -/
def succeed (p : Pending) (c : Client) : Client :=
  match p.method with
  | .listOutputs => c.setState .idle
  | .apply => (c.setState .applied).refreshAssignments
  | .restore => (c.setState .idle).refreshAssignments
  | .assignments => c

def finish (ok : Bool) (errorCode : QString) (c : Client) : Client :=
  match c.current with
  | none => c
  | some p =>
    let c := { c with current := none, connected := false }
    (if ok then c.succeed p
      else c.fail (decide (errorCode = latin "apply_quarantined"))
        (decide (errorCode = latin "apply_incompatible")) p).drainQueue

/-- The failure of an abandoned operation. -/
def recordFailure (p : Pending) (c : Client) : Client :=
  { c with
    lastFailedMethod := some p.method
    lastFailedOutput := p.output
    lastFailedWallpaperId := p.wallpaperId
    lastFailedKind := p.kind
    lastFailedContent := p.content
    failedMethod := offered true p.method }

/-- The last operation of a full queue makes room. -/
def makeRoom (c : Client) : Client :=
  if maxQueuedOperations ≤ c.queue.length then
    match c.queue.getLast? with
    | none => c
    | some dropped => { c.note dropped false with queue := c.queue.dropLast }
  else c

/-- `failCurrent` of an operation that is tried again. -/
def requeueCurrent (c : Client) : Client :=
  match c.current with
  | none => { c with connected := false }.retryLater
  | some p =>
    let c := c.makeRoom
    let c := { c with queue := p :: c.queue, current := none, connected := false }
    if p.method = .assignments then c.retryLater
    else ((c.note p false).clearResult.setState .failed).retryLater

/-- `failCurrent` of an operation that is abandoned. -/
def abandonCurrent (c : Client) : Client :=
  match c.current with
  | none => c
  | some p =>
    let c := { c with connected := false, current := none }
    if p.method = .assignments then c.drainQueue
    else (((c.note p false).clearResult.recordFailure p).setState .failed).drainQueue

def retryTimeout (c : Client) : Client :=
  let c := { c with retryActive := false }
  if c.current.isSome then c else c.drainQueue

end Client

/-! ## Calls -/

section Urls

variable {Url : Type} (toLocalFile : Url → QString) (fromLocalFile : QString → Url)

/-- The path of a local file, or nothing. -/
def contentPath (content : Url) : QString :=
  let path := toLocalFile content
  if maxContentBytes < path.length ∨ path.head? ≠ some 0x2F then [] else path

/-- The operation of `sendApply`, if its arguments are valid. -/
def applyOperation (output wallpaperId kind : QString) (content : Url) (scaling : QString)
    (fps : Int) (retry : Bool) : Option Pending :=
  if validScaling scaling = false then none
  else if fps < 0 ∨ 240 < fps then none
  else if validIdentity output = false ∨ validIdentity wallpaperId = false then none
  else if validKind kind = false then none
  else some ⟨.apply, output, wallpaperId, kind, contentPath toLocalFile content, retry, scaling, fps⟩

def restoreOperation (output : QString) : Option Pending :=
  if validIdentity output = false then none else some (.restoring output)

/-- A request is sent, or its arguments are refused. -/
def Client.sendValid (p : Option Pending) (c : Client) : Client :=
  match p with
  | none => c.setState .failed
  | some p => c.send p

/-- The operation of `retry`, if there is something to replay. -/
def Client.replayed (c : Client) : Option (Option Pending) :=
  match c.lastFailedMethod with
  | some .apply =>
    some (applyOperation toLocalFile c.lastFailedOutput c.lastFailedWallpaperId c.lastFailedKind
      (fromLocalFile c.lastFailedContent) c.lastFailedScaling c.lastFailedFps
      c.lastFailedQuarantined)
  | some .restore => some (restoreOperation c.lastFailedOutput)
  | some .listOutputs => some (some .listOutputs)
  | some .assignments | none => none

def Client.retry (c : Client) : Client :=
  match c.replayed toLocalFile fromLocalFile with
  | none => c
  | some p => c.sendValid p

def Client.resetStatus (c : Client) : Client :=
  let c := c.clearResult
  if c.busy then c else c.setState .idle

inductive Event (Url : Type)
  | listOutputs
  | applyWallpaper (output wallpaperId kind : QString) (content : Url) (scaling : QString) (fps : Int)
  | restoreWallpaper (output : QString)
  | refreshAssignments
  | resetStatus
  | retry
  | connectionError
  /-- A reply that is too large or no JSON object. -/
  | badReply
  | reply (ok : Bool) (errorCode : QString)
  | requestTimeout
  | retryTimeout

def Client.step (c : Client) : Event Url → Client
  | .listOutputs => c.send .listOutputs
  | .applyWallpaper output wallpaperId kind content scaling fps =>
    c.sendValid (applyOperation toLocalFile output wallpaperId kind content scaling fps false)
  | .restoreWallpaper output => c.sendValid (restoreOperation output)
  | .refreshAssignments => c.refreshAssignments
  | .resetStatus => c.resetStatus
  | .retry => c.retry toLocalFile fromLocalFile
  | .connectionError => c.requeueCurrent
  | .badReply => if c.connected then c.requeueCurrent else c
  | .reply ok errorCode => if c.connected then c.finish ok errorCode else c
  | .requestTimeout => c.abandonCurrent
  | .retryTimeout => if c.retryActive then c.retryTimeout else c

/-! ## What a retry replays -/

/-- A path that is no network share. -/
def localPath (path : QString) : Bool :=
  path = [] || (path.head? = some 0x2F && path[1]? ≠ some 0x2F)

/-- The paths of local files come back from their URLs. -/
def RoundTrips : Prop :=
  ∀ path : QString, localPath path = true → path.length ≤ maxContentBytes →
    toLocalFile (fromLocalFile path) = path

def userFacing (p : Pending) : Bool := p.method ≠ .assignments

/-- Nothing that waits takes the offer of a retry back. -/
def Client.offerStays (c : Client) (queue : List Pending) : Bool :=
  c.failedMethod.isSome && queue.all fun p => !userFacing p

/-- The operation that a call sends. -/
def Client.operation (c : Client) : Event Url → Option Pending
  | .listOutputs => some .listOutputs
  | .applyWallpaper output wallpaperId kind content scaling fps =>
    applyOperation toLocalFile output wallpaperId kind content scaling fps false
  | .restoreWallpaper output => restoreOperation output
  | .retry => (c.replayed toLocalFile fromLocalFile).join
  | _ => none

/-- A step after which Try Again may replay something else than the operation that failed
last: a missed deadline of an apply whose scaling, frame rate or refusal are not those that
were remembered before, a user's operation that is refused or dropped for want of room while
an older one is offered, and a path that is a network share. -/
def Mixes (c : Client) (e : Event Url) : Prop :=
  (∃ p, c.operation toLocalFile fromLocalFile e = some p ∧
    (maxQueuedOperations ≤ c.queue.length ∧ c.offerStays c.queue = true ∨
      localPath p.content = false)) ∨
  match e with
  | .requestTimeout => ∃ p, c.current = some p ∧ p.method = .apply ∧
      (wireScaling c.lastFailedScaling ≠ wireScaling p.scaling ∨
        wireFps c.lastFailedFps ≠ wireFps p.fps ∨ c.lastFailedQuarantined = true)
  | .connectionError | .badReply => ∃ p dropped, c.current = some p ∧
      maxQueuedOperations ≤ c.queue.length ∧ c.queue.getLast? = some dropped ∧
      userFacing dropped = true ∧ userFacing p = false ∧ c.offerStays c.queue.dropLast = true
  | _ => False

/-- The arguments of an operation are valid. -/
def Good (p : Pending) : Prop :=
  (p.method = .apply → validScaling p.scaling = true ∧ 0 ≤ p.fps ∧ p.fps ≤ 240 ∧
    validIdentity p.output = true ∧ validIdentity p.wallpaperId = true ∧ validKind p.kind = true ∧
    localPath p.content = true ∧ p.content.length ≤ maxContentBytes) ∧
  (p.method = .restore → p = .restoring p.output ∧ validIdentity p.output = true) ∧
  (p.method = .listOutputs → p = .listOutputs)

/-- What is remembered is the operation that failed last. -/
structure Matches (c : Client) (m : Method) (op : Pending) (quarantined : Bool) : Prop where
  failed : c.failed = some (op, quarantined)
  method : op.method = m
  last : c.lastFailedMethod = some m
  output : c.lastFailedOutput = op.output
  apply : m = .apply → c.lastFailedWallpaperId = op.wallpaperId ∧ c.lastFailedKind = op.kind ∧
    c.lastFailedContent = op.content ∧ wireScaling c.lastFailedScaling = wireScaling op.scaling ∧
    wireFps c.lastFailedFps = wireFps op.fps ∧ c.lastFailedQuarantined = quarantined

/-- A retry that is offered replays what failed last, or is taken back before the queue is
empty. -/
def Offered (c : Client) (m : Method) : Prop :=
  (∃ op q, Matches c m op q) ∨ ∃ p ∈ c.queue, userFacing p = true

structure Inv (c : Client) : Prop where
  connected : c.connected = c.current.isSome
  current : ∀ p, c.current = some p → Good p ∧ (userFacing p = true → c.failedMethod = none)
  queue : ∀ p ∈ c.queue, Good p
  scaling : validScaling c.lastFailedScaling = true
  fps : 0 ≤ c.lastFailedFps ∧ c.lastFailedFps ≤ 240
  content : localPath c.lastFailedContent = true ∧ c.lastFailedContent.length ≤ maxContentBytes
  failed : ∀ op q, c.failed = some (op, q) → Good op
  method : ∀ m, c.failedMethod = some m → m = .apply ∨ m = .restore
  offered : ∀ m, c.failedMethod = some m → Offered c m

/-- What is remembered does not depend on what is in flight or waits. -/
theorem Matches.moved {c : Client} {m : Method} {op : Pending} {q : Bool} (h : Matches c m op q)
    (state : State) (current : Option Pending) (connected : Bool) (queue : List Pending)
    (retryActive : Bool) : Matches { c with
      state := state, current := current, connected := connected, queue := queue
      retryActive := retryActive } m op q :=
  ⟨h.failed, h.method, h.last, h.output, h.apply⟩

theorem Offered.moved {c : Client} {m : Method} (h : Offered c m) (state : State)
    (current : Option Pending) (connected retryActive : Bool) : Offered { c with
      state := state, current := current, connected := connected, retryActive := retryActive } m := by
  refine h.imp_left ?_
  rintro ⟨op, q, hmatch⟩
  exact ⟨op, q, hmatch.moved ..⟩

theorem new_inv : Inv .new :=
  ⟨rfl, nofun, nofun, rfl, by decide, by decide, nofun, nofun, nofun⟩

theorem userFacing_iff {p : Pending} : userFacing p = true ↔ p.method ≠ .assignments := by
  simp [userFacing]

/-! ## Beginning and queueing -/

theorem begin_inv {c : Client} {p : Pending} {queue : List Pending} (h : Inv c) (hp : Good p)
    (hsub : ∀ x ∈ queue, x ∈ c.queue)
    (huser : ∀ x ∈ c.queue, userFacing x = true → x = p ∨ x ∈ queue) :
    Inv ({ c with queue := queue }.begin p) := by
  have hqueue : ∀ x ∈ queue, Good x := fun x hx => h.queue x (hsub x hx)
  unfold Client.begin
  dsimp only
  split
  case h_4 hmethod =>
    refine ⟨rfl, ?_, hqueue, h.scaling, h.fps, h.content, h.failed, h.method, ?_⟩
    · rintro _ ⟨⟩
      exact ⟨hp, fun huser => absurd hmethod (userFacing_iff.mp huser)⟩
    · intro m hm
      rcases h.offered m hm with ⟨op, q, hmatch⟩ | ⟨x, hx, hxuser⟩
      · exact .inl ⟨op, q, hmatch.moved ..⟩
      · rcases huser x hx hxuser with rfl | hx
        · exact absurd hmethod (userFacing_iff.mp hxuser)
        · exact .inr ⟨x, hx, hxuser⟩
  all_goals
    refine ⟨rfl, ?_, hqueue, h.scaling, h.fps, h.content, h.failed, nofun, nofun⟩
    rintro _ ⟨⟩
    exact ⟨hp, fun _ => rfl⟩

theorem drain_inv {c : Client} (h : Inv c) : Inv c.drainQueue := by
  unfold Client.drainQueue
  split
  · exact h
  next next queue hqueue =>
    refine begin_inv h (h.queue next (by simp [hqueue])) (fun x hx => by simp [hqueue, hx]) ?_
    intro x hx _
    rwa [hqueue, List.mem_cons] at hx

theorem push_inv {c : Client} {p : Pending} (h : Inv c) (hp : Good p) :
    Inv { c with queue := c.queue ++ [p] } := by
  refine ⟨h.connected, h.current, ?_, h.scaling, h.fps, h.content, h.failed, h.method, ?_⟩
  · intro x hx
    rcases List.mem_append.mp hx with hx | hx
    · exact h.queue x hx
    · exact List.mem_singleton.mp hx ▸ hp
  · intro m hm
    rcases h.offered m hm with ⟨op, q, hmatch⟩ | ⟨x, hx, hxuser⟩
    · exact .inl ⟨op, q, hmatch.moved ..⟩
    · exact .inr ⟨x, List.mem_append_left _ hx, hxuser⟩

theorem exists_user {c : Client} {queue : List Pending} {m : Method} (hm : c.failedMethod = some m)
    (h : c.offerStays queue = false) : ∃ x ∈ queue, userFacing x = true := by
  simpa [Client.offerStays, hm] using h

theorem send_inv {c : Client} {p : Pending} (h : Inv c) (hp : Good p)
    (hroom : userFacing p = true → maxQueuedOperations ≤ c.queue.length →
      c.offerStays c.queue = false) : Inv (c.send p) := by
  unfold Client.send
  split
  · exact begin_inv h hp (fun _ hx => hx) (fun x hx _ => .inr hx)
  · split
    · split
      · exact h
      · exact push_inv h hp
    next hmethod =>
      split
      next hfull =>
        rw [Client.note, if_neg hmethod]
        refine ⟨h.connected, h.current, h.queue, h.scaling, h.fps, h.content, ?_, h.method, ?_⟩
        · rintro _ _ ⟨⟩
          exact hp
        · intro m hm
          exact .inr (exists_user hm (hroom (userFacing_iff.mpr hmethod) hfull))
      · exact push_inv h hp

/-! ## Answers -/

theorem Inv.idle {c : Client} (h : Inv c) : Inv { c with current := none, connected := false } :=
  ⟨rfl, nofun, h.queue, h.scaling, h.fps, h.content, h.failed, h.method,
    fun m hm => (h.offered m hm).moved ..⟩

theorem Inv.withState {c : Client} (h : Inv c) (state : State) : Inv (c.setState state) :=
  ⟨h.connected, h.current, h.queue, h.scaling, h.fps, h.content, h.failed, h.method,
    fun m hm => (h.offered m hm).moved ..⟩

theorem Inv.later {c : Client} (h : Inv c) : Inv c.retryLater :=
  ⟨h.connected, h.current, h.queue, h.scaling, h.fps, h.content, h.failed, h.method,
    fun m hm => (h.offered m hm).moved ..⟩

/-- What can be remembered of a user's operation is valid. -/
theorem Good.remembered {p : Pending} (h : Good p) (huser : userFacing p = true) :
    validScaling p.scaling = true ∧ (0 ≤ p.fps ∧ p.fps ≤ 240) ∧ localPath p.content = true ∧
      p.content.length ≤ maxContentBytes := by
  obtain ⟨happly, hrestore, hlist⟩ := h
  cases hmethod : p.method with
  | apply =>
    obtain ⟨hscaling, hlow, hhigh, -, -, -, hlocal, hlength⟩ := happly hmethod
    exact ⟨hscaling, ⟨hlow, hhigh⟩, hlocal, hlength⟩
  | restore =>
    rw [(hrestore hmethod).1]
    exact ⟨rfl, by simp [Pending.restoring], rfl, by simp [Pending.restoring]⟩
  | listOutputs =>
    rw [hlist hmethod]
    exact ⟨rfl, by decide, rfl, by decide⟩
  | assignments => exact absurd hmethod (userFacing_iff.mp huser)

theorem wireScaling_aspect (scaling : QString) :
    wireScaling (if scaling = [] then latin "aspect" else scaling) = wireScaling scaling := by
  by_cases hempty : scaling = [] <;> simp [wireScaling, hempty]

theorem offered_eq_some {retryable : Bool} {method m : Method}
    (h : offered retryable method = some m) : method = m ∧ (m = .apply ∨ m = .restore) := by
  cases method <;> cases retryable <;> simp [offered] at h <;> subst h <;> simp

theorem fail_inv {c : Client} {p : Pending} (h : Inv c) (hidle : c.current = none) (hp : Good p)
    (quarantined incompatible : Bool) : Inv (c.fail quarantined incompatible p) := by
  unfold Client.fail
  split
  · exact h
  next hmethod =>
    obtain ⟨hscaling, hfps, hcontent⟩ := hp.remembered (userFacing_iff.mpr hmethod)
    rw [Client.note, if_neg hmethod]
    refine ⟨h.connected, ?_, h.queue, ?_, hfps, hcontent, ?_, ?_, ?_⟩
    · simp [Client.clearResult, Client.setState, hidle]
    · simp only [Client.clearResult, Client.setState]
      split
      · decide
      · exact hscaling
    · rintro _ _ ⟨⟩
      exact hp
    · intro m hm
      exact (offered_eq_some hm).2
    · intro m hm
      exact .inl ⟨p, quarantined, rfl, (offered_eq_some hm).1, by rw [← (offered_eq_some hm).1]; rfl,
        rfl, fun _ => ⟨rfl, rfl, rfl, wireScaling_aspect p.scaling, rfl, rfl⟩⟩

theorem succeed_inv {c : Client} (h : Inv c) (p : Pending) : Inv (c.succeed p) := by
  have hgood : Good .assignments := ⟨nofun, nofun, nofun⟩
  unfold Client.succeed
  split
  · exact h.withState _
  · exact send_inv (h.withState _) hgood nofun
  · exact send_inv (h.withState _) hgood nofun
  · exact h

theorem finish_inv {c : Client} (h : Inv c) (ok : Bool) (errorCode : QString) :
    Inv (c.finish ok errorCode) := by
  unfold Client.finish
  split
  · exact h
  next p hcurrent =>
    dsimp only
    split
    · exact drain_inv (succeed_inv h.idle p)
    · exact drain_inv (fail_inv h.idle rfl (h.current p hcurrent).1 _ _)

/-! ## Failures -/

theorem makeRoom_inv {c : Client} {p : Pending} (h : Inv c) (hcurrent : c.current = some p)
    (hroom : userFacing p = false → maxQueuedOperations ≤ c.queue.length → ∀ dropped,
      c.queue.getLast? = some dropped → userFacing dropped = true →
        c.offerStays c.queue.dropLast = false) :
    Inv c.makeRoom ∧ c.makeRoom.current = some p := by
  unfold Client.makeRoom
  split
  next hfull =>
    split
    next => exact ⟨h, hcurrent⟩
    next dropped hlast =>
      obtain ⟨queue, hqueue⟩ := List.getLast?_eq_some_iff.mp hlast
      have hdrop : c.queue.dropLast = queue := by simp [hqueue]
      have hgood : ∀ x ∈ queue, Good x := fun x hx => h.queue x (by simp [hqueue, hx])
      rw [hdrop] at hroom ⊢
      unfold Client.note
      split
      next hmethod =>
        refine ⟨⟨h.connected, h.current, hgood, h.scaling, h.fps, h.content, h.failed, h.method, ?_⟩,
          hcurrent⟩
        intro m hm
        rcases h.offered m hm with ⟨op, q, hmatch⟩ | ⟨x, hx, hxuser⟩
        · exact .inl ⟨op, q, hmatch.moved ..⟩
        · rw [hqueue, List.mem_append, List.mem_singleton] at hx
          rcases hx with hx | rfl
          · exact .inr ⟨x, hx, hxuser⟩
          · exact absurd hmethod (userFacing_iff.mp hxuser)
      next hmethod =>
        refine ⟨⟨h.connected, h.current, hgood, h.scaling, h.fps, h.content, ?_, h.method, ?_⟩,
          hcurrent⟩
        · rintro _ _ ⟨⟩
          exact h.queue dropped (by simp [hqueue])
        · intro m hm
          cases huser : userFacing p with
          | true =>
            have hnone : c.failedMethod = none := (h.current p hcurrent).2 huser
            have hm : c.failedMethod = some m := hm
            rw [hnone] at hm
            cases hm
          | false =>
            exact .inr (exists_user hm (hroom huser hfull dropped hlast (userFacing_iff.mpr hmethod)))
  next => exact ⟨h, hcurrent⟩

theorem requeue_inv {c : Client} (h : Inv c) (hroom : ∀ p, c.current = some p →
    userFacing p = false → maxQueuedOperations ≤ c.queue.length → ∀ dropped,
      c.queue.getLast? = some dropped → userFacing dropped = true →
        c.offerStays c.queue.dropLast = false) : Inv c.requeueCurrent := by
  unfold Client.requeueCurrent
  split
  next hcurrent =>
    refine ⟨by simp [Client.retryLater, hcurrent], ?_, h.queue, h.scaling, h.fps, h.content,
      h.failed, h.method, fun m hm => (h.offered m hm).moved ..⟩
    simp [Client.retryLater, hcurrent]
  next p hcurrent =>
    have hp := (h.current p hcurrent).1
    obtain ⟨hroomy, -⟩ := makeRoom_inv h hcurrent (hroom p hcurrent)
    have hqueue : ∀ x ∈ p :: c.makeRoom.queue, Good x := by
      intro x hx
      rcases List.mem_cons.mp hx with rfl | hx
      · exact hp
      · exact hroomy.queue x hx
    dsimp only
    split
    next =>
      refine ⟨rfl, nofun, hqueue, hroomy.scaling, hroomy.fps, hroomy.content, hroomy.failed,
        hroomy.method, ?_⟩
      intro m hm
      rcases hroomy.offered m hm with ⟨op, q, hmatch⟩ | ⟨x, hx, hxuser⟩
      · exact .inl ⟨op, q, hmatch.moved ..⟩
      · exact .inr ⟨x, List.mem_cons_of_mem _ hx, hxuser⟩
    next hmethod =>
      rw [Client.note, if_neg hmethod]
      refine ⟨rfl, nofun, hqueue, hroomy.scaling, hroomy.fps, hroomy.content, ?_, nofun, nofun⟩
      rintro _ _ ⟨⟩
      exact hp

theorem abandon_inv {c : Client} (h : Inv c) (hkept : ∀ p, c.current = some p → p.method = .apply →
    wireScaling c.lastFailedScaling = wireScaling p.scaling ∧
      wireFps c.lastFailedFps = wireFps p.fps ∧ c.lastFailedQuarantined = false) :
    Inv c.abandonCurrent := by
  unfold Client.abandonCurrent
  split
  · exact h
  next p hcurrent =>
    have hp := (h.current p hcurrent).1
    dsimp only
    split
    · exact drain_inv h.idle
    next hmethod =>
      obtain ⟨-, -, hcontent⟩ := hp.remembered (userFacing_iff.mpr hmethod)
      rw [Client.note, if_neg hmethod]
      refine drain_inv ⟨rfl, nofun, h.queue, h.scaling, h.fps, hcontent, ?_, ?_, ?_⟩
      · rintro _ _ ⟨⟩
        exact hp
      · intro m hm
        exact (offered_eq_some hm).2
      · intro m hm
        obtain ⟨rfl, -⟩ := offered_eq_some hm
        refine .inl ⟨p, false, rfl, rfl, rfl, rfl, fun happly => ?_⟩
        obtain ⟨hscaling, hfps, hquarantined⟩ := hkept p hcurrent happly
        exact ⟨rfl, rfl, rfl, hscaling, hfps, hquarantined⟩

theorem retryTimeout_inv {c : Client} (h : Inv c) : Inv c.retryTimeout := by
  have hw : Inv { c with retryActive := false } :=
    ⟨h.connected, h.current, h.queue, h.scaling, h.fps, h.content, h.failed, h.method,
      fun m hm => (h.offered m hm).moved ..⟩
  unfold Client.retryTimeout
  dsimp only
  split
  · exact hw
  · exact drain_inv hw

/-! ## Steps -/

theorem local_contentPath {content : Url} {path : QString}
    (h : contentPath toLocalFile content = path) : path.length ≤ maxContentBytes := by
  subst h
  unfold contentPath
  dsimp only
  split
  · simp
  next hgood => omega

theorem applyOperation_good {output wallpaperId kind scaling : QString} {content : Url} {fps : Int}
    {retry : Bool} {p : Pending}
    (h : applyOperation toLocalFile output wallpaperId kind content scaling fps retry = some p)
    (hlocal : localPath p.content = true) : Good p := by
  unfold applyOperation at h
  split_ifs at h with hscaling hfps hidentity hkind
  obtain rfl := Option.some.inj h
  simp only [not_or, Bool.not_eq_false, Int.not_lt] at hscaling hfps hidentity hkind
  exact ⟨fun _ => ⟨hscaling, hfps.1, hfps.2, hidentity.1, hidentity.2, hkind, hlocal,
    local_contentPath toLocalFile rfl⟩, nofun, nofun⟩

theorem restoreOperation_good {output : QString} {p : Pending}
    (h : restoreOperation output = some p) : Good p := by
  unfold restoreOperation at h
  split_ifs at h with hidentity
  obtain rfl := Option.some.inj h
  exact ⟨nofun, fun _ => ⟨rfl, Bool.eq_true_of_not_eq_false hidentity⟩, nofun⟩

theorem replayed_good {c : Client} {p : Pending}
    (h : (c.replayed toLocalFile fromLocalFile).join = some p)
    (hlocal : localPath p.content = true) : Good p := by
  unfold Client.replayed at h
  split at h
  · exact applyOperation_good toLocalFile h hlocal
  · exact restoreOperation_good h
  · obtain rfl := Option.some.inj h
    exact ⟨nofun, nofun, fun _ => rfl⟩
  · cases h
  · cases h

/-- An operation whose arguments are refused is not sent. -/
theorem sendValid_inv {c : Client} {p : Option Pending} (h : Inv c)
    (hp : ∀ x, p = some x → Good x ∧ (maxQueuedOperations ≤ c.queue.length →
      c.offerStays c.queue = false)) : Inv (c.sendValid p) := by
  unfold Client.sendValid
  split
  · exact h.withState _
  next x =>
    obtain ⟨hgood, hroom⟩ := hp x rfl
    exact send_inv h hgood fun _ => hroom

/-- **One step.** -/
theorem step_inv {c : Client} {e : Event Url} (h : Inv c)
    (hkept : ¬ Mixes toLocalFile fromLocalFile c e) :
    Inv (c.step toLocalFile fromLocalFile e) := by
  obtain ⟨hcall, hcase⟩ := not_or.mp hkept
  have hsent (p : Pending) (hp : c.operation toLocalFile fromLocalFile e = some p) :
      localPath p.content = true ∧
        (maxQueuedOperations ≤ c.queue.length → c.offerStays c.queue = false) := by
    constructor
    · by_contra hshare
      exact hcall ⟨p, hp, .inr (by simpa using hshare)⟩
    · intro hfull
      by_contra hstays
      exact hcall ⟨p, hp, .inl ⟨hfull, by simpa using hstays⟩⟩
  have hroom (hfails : e = .connectionError ∨ e = .badReply) (p : Pending)
      (hcurrent : c.current = some p) (huser : userFacing p = false)
      (hfull : maxQueuedOperations ≤ c.queue.length) (dropped : Pending)
      (hlast : c.queue.getLast? = some dropped) (hdropped : userFacing dropped = true) :
      c.offerStays c.queue.dropLast = false := by
    by_contra hstays
    have hstays : c.offerStays c.queue.dropLast = true := by simpa using hstays
    rcases hfails with rfl | rfl
    · exact hcase ⟨p, dropped, hcurrent, hfull, hlast, hdropped, huser, hstays⟩
    · exact hcase ⟨p, dropped, hcurrent, hfull, hlast, hdropped, huser, hstays⟩
  cases e with
  | listOutputs =>
    exact send_inv h ⟨nofun, nofun, fun _ => rfl⟩ fun _ => (hsent .listOutputs rfl).2
  | applyWallpaper output wallpaperId kind content scaling fps =>
    refine sendValid_inv h fun x hx => ?_
    exact ⟨applyOperation_good toLocalFile hx (hsent x hx).1, (hsent x hx).2⟩
  | restoreWallpaper output =>
    exact sendValid_inv h fun x hx => ⟨restoreOperation_good hx, (hsent x hx).2⟩
  | refreshAssignments => exact send_inv h ⟨nofun, nofun, nofun⟩ nofun
  | resetStatus =>
    have hclear : Inv c.clearResult :=
      ⟨h.connected, fun p hp => ⟨(h.current p hp).1, fun _ => rfl⟩, h.queue, h.scaling, h.fps,
        h.content, h.failed, nofun, nofun⟩
    unfold Client.step Client.resetStatus
    dsimp only
    split
    · exact hclear
    · exact hclear.withState _
  | retry =>
    unfold Client.step Client.retry
    dsimp only
    split
    · exact h
    next p hp =>
      refine sendValid_inv h fun x hx => ?_
      have hjoin : (c.replayed toLocalFile fromLocalFile).join = some x := by rw [hp, hx]; rfl
      exact ⟨replayed_good toLocalFile fromLocalFile hjoin (hsent x hjoin).1, (hsent x hjoin).2⟩
  | connectionError => exact requeue_inv h (hroom (.inl rfl))
  | badReply =>
    unfold Client.step
    dsimp only
    split
    · exact requeue_inv h (hroom (.inr rfl))
    · exact h
  | reply ok errorCode =>
    unfold Client.step
    dsimp only
    split
    · exact finish_inv h ok errorCode
    · exact h
  | requestTimeout =>
    refine abandon_inv h fun p hcurrent happly => ?_
    by_contra hbad
    refine hcase ⟨p, hcurrent, happly, ?_⟩
    by_contra hsame
    simp only [not_or, ne_eq, not_not, Bool.not_eq_true] at hsame
    exact hbad hsame
  | retryTimeout =>
    unfold Client.step
    dsimp only
    split
    · exact retryTimeout_inv h
    · exact h

/-- The operation that a retry is to repeat. -/
def Pending.again (op : Pending) (quarantined : Bool) : Pending := { op with retry := quarantined }

theorem contentPath_local (hurl : RoundTrips toLocalFile fromLocalFile) {path : QString}
    (hlocal : localPath path = true) (hlength : path.length ≤ maxContentBytes) :
    contentPath toLocalFile (fromLocalFile path) = path := by
  unfold contentPath
  rw [hurl path hlocal hlength]
  dsimp only
  split
  next hbad =>
    simp only [localPath, Bool.or_eq_true, Bool.and_eq_true, decide_eq_true_eq] at hlocal
    rcases hbad with hlong | hhead
    · omega
    · rcases hlocal with hnil | ⟨hslash, -⟩
      · exact hnil.symm
      · exact absurd hslash hhead
  next => rfl

/-- What is sent when nothing is in flight. -/
theorem send_idle {c : Client} (hcurrent : c.current = none) (hqueue : c.queue = []) (p : Pending) :
    (c.send p).current = some p := by
  have hbusy : c.busy = false := by simp [Client.busy, hcurrent, hqueue]
  unfold Client.send
  rw [if_pos hbusy]
  unfold Client.begin
  dsimp only
  split <;> rfl

theorem applyOperation_of_valid {output wallpaperId kind scaling : QString} {content : Url}
    {fps : Int} (retry : Bool) (hscaling : validScaling scaling = true) (hfps : 0 ≤ fps ∧ fps ≤ 240)
    (houtput : validIdentity output = true) (hid : validIdentity wallpaperId = true)
    (hkind : validKind kind = true) :
    applyOperation toLocalFile output wallpaperId kind content scaling fps retry =
      some ⟨.apply, output, wallpaperId, kind, contentPath toLocalFile content, retry, scaling, fps⟩ := by
  unfold applyOperation
  rw [if_neg (by simp [hscaling]), if_neg (by omega), if_neg (by simp [houtput, hid]),
    if_neg (by simp [hkind])]

theorem retry_sends {c : Client} {p : Pending} (hcurrent : c.current = none) (hqueue : c.queue = [])
    (h : c.replayed toLocalFile fromLocalFile = some (some p)) :
    (c.retry toLocalFile fromLocalFile).current = some p := by
  unfold Client.retry
  rw [h]
  exact send_idle hcurrent hqueue p

theorem retry_spec (hurl : RoundTrips toLocalFile fromLocalFile) {c : Client} (h : Inv c)
    {m : Method} (hm : c.failedMethod = some m) (hcurrent : c.current = none)
    (hqueue : c.queue = []) : ∃ op q, c.failed = some (op, q) ∧
      ∃ p, (c.retry toLocalFile fromLocalFile).current = some p ∧
        p.request = (op.again q).request := by
  rcases h.offered m hm with ⟨op, q, hmatch⟩ | ⟨x, hx, -⟩
  case inr => simp [hqueue] at hx
  have hgood := h.failed op q hmatch.failed
  have hlast := hmatch.last
  have houtput := hmatch.output
  refine ⟨op, q, hmatch.failed, ?_⟩
  rcases h.method m hm with rfl | rfl
  · obtain ⟨hid, hkind, hcontent, hscaling, hfps, hquarantined⟩ := hmatch.apply rfl
    obtain ⟨-, -, -, hvalidOutput, hvalidId, hvalidKind, hlocal, hlength⟩ := hgood.1 hmatch.method
    have hreplayed : c.replayed toLocalFile fromLocalFile = some (some ⟨.apply, op.output,
        op.wallpaperId, op.kind, op.content, q, c.lastFailedScaling, c.lastFailedFps⟩) := by
      unfold Client.replayed
      rw [hlast]
      dsimp only
      rw [houtput, hid, hkind, hcontent, hquarantined, applyOperation_of_valid toLocalFile q
        h.scaling h.fps hvalidOutput hvalidId hvalidKind,
        contentPath_local toLocalFile fromLocalFile hurl hlocal hlength]
    refine ⟨_, retry_sends toLocalFile fromLocalFile hcurrent hqueue hreplayed, ?_⟩
    simp [Pending.request, Pending.params, Pending.again, hmatch.method, hscaling, hfps]
  · obtain ⟨hop, hvalidOutput⟩ := hgood.2.1 hmatch.method
    have hreplayed : c.replayed toLocalFile fromLocalFile = some (some (.restoring op.output)) := by
      unfold Client.replayed restoreOperation
      rw [hlast]
      dsimp only
      rw [houtput, if_neg (by simp [hvalidOutput])]
    refine ⟨_, retry_sends toLocalFile fromLocalFile hcurrent hqueue hreplayed, ?_⟩
    rw [hop]
    rfl

/-- **Runs.**  While no step mixes two failures, a retry that is offered in an idle lane sends
the request of the user's operation that failed last, with the flag just when the daemon
answered that operation with `apply_quarantined`. -/
theorem retry_replays (hurl : RoundTrips toLocalFile fromLocalFile) (events : List (Event Url))
    (h : Along (Client.step toLocalFile fromLocalFile)
      (fun c e => ¬ Mixes toLocalFile fromLocalFile c e) .new events) :
    let c := run (Client.step toLocalFile fromLocalFile) .new events
    c.failedMethod ≠ none → c.busy = false → ∃ op q, c.failed = some (op, q) ∧
      ∃ p, (c.retry toLocalFile fromLocalFile).current = some p ∧
        p.request = (op.again q).request := by
  intro c hoffer hidle
  have hc : Inv c := invariant_run
    (fun _ _ hs hkept => step_inv toLocalFile fromLocalFile hs hkept) new_inv h
  obtain ⟨m, hm⟩ := Option.ne_none_iff_exists'.mp hoffer
  simp only [Client.busy, Bool.or_eq_false_iff, Option.isSome_eq_false_iff, Option.isNone_iff_eq_none,
    Bool.not_eq_false', List.isEmpty_iff] at hidle
  exact retry_spec toLocalFile fromLocalFile hurl hc hm hidle.1 hidle.2

end Urls

def pathOf (url : QString) : QString := url.drop 7

def fileUrl (path : QString) : QString := if path = [] then [] else latin "file://" ++ path

theorem fileUrl_roundTrips : RoundTrips pathOf fileUrl := by
  intro path _ _
  unfold pathOf fileUrl
  split
  next hempty => rw [hempty]; rfl
  next => rfl

def applying (wallpaperId scaling : String) (fps : Int) : Event QString :=
  .applyWallpaper (latin "DP-1") (latin wallpaperId) (latin "web")
    (fileUrl (latin "/w/a")) (latin scaling) fps

theorem retry_replays_refused :
    ∃ op q, (run (Client.step pathOf fileUrl) .new
        [applying "7" "fill" 60, .reply false (latin "apply_quarantined")]).failed = some (op, q) ∧
      ∃ p, ((run (Client.step pathOf fileUrl) .new
        [applying "7" "fill" 60, .reply false (latin "apply_quarantined")]).retry pathOf
          fileUrl).current = some p ∧ p.request = (op.again q).request := by
  refine retry_replays pathOf fileUrl fileUrl_roundTrips
    [applying "7" "fill" 60, .reply false (latin "apply_quarantined")] ⟨?_, ?_, trivial⟩
    (by decide +kernel) (by decide +kernel)
  · rintro (⟨p, hp, ⟨hfull, -⟩ | hshare⟩ | hcase)
    · exact absurd hfull (by decide)
    · obtain rfl := Option.some.inj hp
      exact absurd hshare (by decide +kernel)
    · exact hcase
  · rintro (⟨p, hp, -⟩ | hcase)
    · cases hp
    · exact hcase

/-- Wallpaper 7 is refused as quarantined; then wallpaper 8 gets no answer in time, and is
replayed as wallpaper 7 would be. -/
theorem quarantine_cleared :
    let c := run (Client.step pathOf fileUrl) .new
      [applying "7" "fill" 60, .reply false (latin "apply_quarantined"),
        applying "8" "aspect" 30, .requestTimeout]
    let eight : Pending := ⟨.apply, latin "DP-1", latin "8", latin "web", latin "/w/a", false,
      latin "aspect", 30⟩
    c.failedMethod = some .apply ∧ c.busy = false ∧ c.failed = some (eight, false) ∧
      (c.retry pathOf fileUrl).current.map Pending.request = some ("wallpaper.apply",
        (eight.again true).params ++ [("scaling", .text (latin "fill")), ("fps", .number 60)]) := by
  decide +kernel

end Kwe.Manager.Applying
