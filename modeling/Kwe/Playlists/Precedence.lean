import Kwe.Foundation.Runs
import Kwe.Playlists.ApplyLane
import Kwe.Playlists.Refusals
import Kwe.Supervisor.Requested

/-!
A user's choice against the playlist's, over every interleaving of the session,
its apply lane, the user's applies and the commands that take no lock.

* `not_foreign_step`: what brings a renderer that is foreign to the lane;
* `Ordered.step`: the lock and the order of the queue keep the user's applies
  out of the time between the lane's reading of the status and its start;
* `yields_of_undisturbed`: no start of the lane displaces a foreign renderer
  where nothing else comes in between.
-/

namespace Kwe.Playlists

open Foundation
open Kwe.Supervisor (Asks Config Io Slots StartSpec State WorkerStatus status step_command
  step_requested)

/-! ## Foreign renderers -/

/-- The wallpapers that a request may displace. -/
def ApplyRequest.Owns (request : ApplyRequest) (id : String) : Prop :=
  id = request.wallpaperId ∨ some id = request.applied

/-- A foreign renderer is live. -/
def ApplyRequest.Foreign (request : ApplyRequest) (s : State) : Prop :=
  foreignRendererLive (status s) request.wallpaperId request.applied = true

theorem foreign_iff (request : ApplyRequest) (s : State) :
    request.Foreign s ↔ phaseHasLiveWorker s.phase = true ∧
      s.requested.map (·.wallpaperId) ≠ some request.wallpaperId ∧
        s.requested.map (·.wallpaperId) ≠ request.applied := by
  simp [ApplyRequest.Foreign, foreignRendererLive, status, and_assoc]

theorem not_foreign_of_owns {request : ApplyRequest} {s : State} {spec : StartSpec}
    (hrequested : s.requested = some spec) (howns : request.Owns spec.wallpaperId) :
    ¬ request.Foreign s := by
  rw [foreign_iff, hrequested]
  rintro ⟨-, hdesired, happlied⟩
  rcases howns with hid | hid
  · exact hdesired (congrArg some hid)
  · exact happlied hid

/-- A restart is due that waits beside nothing. -/
def RestartDue (s : State) : Supervisor.Input → Prop
  | .pendingRestart now _ => ∃ p, s.pending = some p ∧ p.at_ ≤ now
  | _ => False

/-- Where no worker is live, one comes by a command or by a restart. -/
theorem phase_step {cfg : Config} {s : State} (hs : s.toSlots.Inv) {i : Supervisor.Input}
    (hquiet : phaseHasLiveWorker s.phase = false) (hrequest : i.request = none)
    (hdue : ¬ RestartDue s i) :
    phaseHasLiveWorker (Supervisor.step cfg s i).phase = false := by
  have hempty : s.phase = .idle ∨ s.phase = .stopped ∨ s.phase = .quarantined := by
    cases hphase : s.phase <;> simp [hphase, phaseHasLiveWorker] at hquiet ⊢
  obtain ⟨hactive, hcandidate, hretired⟩ := hs.empty hempty
  cases i with
  | start spec io => cases hrequest
  | retry spec io => cases hrequest
  | stop io =>
    have hrefines : Supervisor.Refines cfg { s with events := [] } (.stop io)
        (Supervisor.stopSelected io { s with events := [] }).2 .stop := Supervisor.stop_refines io rfl
    have hslots := hrefines.slots
    have hphase : (Supervisor.step cfg s (.stop io)).phase = .stopped :=
      congrArg Slots.phase hslots
    rw [hphase]
    rfl
  | acknowledge generation io =>
    simp [Supervisor.step, Supervisor.perform, Supervisor.acknowledgeDisplay, Supervisor.settleLive,
      hactive, hretired]
    split <;> exact hquiet
  | handoffDeadline now io =>
    simpa [Supervisor.step, Supervisor.perform, Supervisor.checkHandoff, hretired] using hquiet
  | pendingRestart now io =>
    cases hpending : s.pending with
    | none =>
      simpa [Supervisor.step, Supervisor.perform, Supervisor.checkPending, hcandidate, hpending]
        using hquiet
    | some p =>
      have hlater : now < p.at_ := by
        by_contra hle
        exact hdue ⟨p, hpending, Nat.not_lt.mp hle⟩
      simpa [Supervisor.step, Supervisor.perform, Supervisor.checkPending, hcandidate, hpending,
        hlater] using hquiet
  | inspectActive probe io =>
    simpa [Supervisor.step, Supervisor.perform, Supervisor.checkActive, hactive] using hquiet
  | inspectCandidate probe io =>
    simpa [Supervisor.step, Supervisor.perform, Supervisor.checkCandidate, hcandidate] using hquiet
  | serviceInput input audio media =>
    simpa [Supervisor.step, Supervisor.perform, Supervisor.serviceActiveInput, hactive] using hquiet
  | pointerInput generation phase button quantized pipe =>
    simp only [Supervisor.step, Supervisor.perform, Supervisor.forwardPointerInput, hactive]
    split <;> exact hquiet
  | audioFrame generation granted line pipe =>
    simp only [Supervisor.step, Supervisor.perform, Supervisor.forwardAudioFrame, hactive]
    split <;> exact hquiet
  | mediaState generation line pipe =>
    simp only [Supervisor.step, Supervisor.perform, Supervisor.forwardMediaState, hactive]
    split <;> exact hquiet

/-- What a step does not do while a start of the lane is under way: it asks
for no foreign wallpaper, and restarts no worker beside the request for one. -/
structure Spares (cfg : Config) (request : ApplyRequest) (s : State) (i : Supervisor.Input) :
    Prop where
  asks : ∀ spec, Asks cfg s i spec → request.Owns spec.wallpaperId
  restarts : RestartDue s i → phaseHasLiveWorker s.phase = false →
    s.requested.map (·.wallpaperId) = some request.wallpaperId ∨
      s.requested.map (·.wallpaperId) = request.applied

/-- **One step of the supervisor.**  It brings no foreign renderer unless it
asks for one or restarts beside the request for one. -/
theorem not_foreign_step {cfg : Config} {request : ApplyRequest} {s : State}
    {i : Supervisor.Input} (hs : s.toSlots.Inv) (hspares : Spares cfg request s i)
    (h : ¬ request.Foreign s) : ¬ request.Foreign (Supervisor.step cfg s i) := by
  rcases step_requested cfg s i with hsame | ⟨spec, hasks, hrequested⟩
  · intro hforeign
    obtain ⟨hlive, hdesired, happlied⟩ := (foreign_iff _ _).mp hforeign
    rw [hsame] at hdesired happlied
    cases hphase : phaseHasLiveWorker s.phase with
    | true => exact h ((foreign_iff _ _).mpr ⟨hphase, hdesired, happlied⟩)
    | false =>
      cases hi : i.request with
      | some spec =>
        rcases step_command cfg (s := s) hi with hrequested | ⟨-, hkept⟩
        · have hfree : s.retired = none := by
            cases hr : s.retired with
            | none => rfl
            | some r =>
              have hawaiting := hs.awaiting.mpr (by rw [hr]; rfl)
              rw [hawaiting] at hphase
              cases hphase
          exact not_foreign_of_owns hrequested (hspares.asks spec (.command hi hfree)) hforeign
        · rw [hkept, hphase] at hlive
          cases hlive
      | none =>
        by_cases hdue : RestartDue s i
        · rcases hspares.restarts hdue hphase with hid | hid
          · exact hdesired hid
          · exact happlied hid
        · rw [phase_step hs hphase hi hdue] at hlive
          cases hlive
  · exact not_foreign_of_owns hrequested (hspares.asks spec hasks)

/-! ## Starts under way -/

/-- The start that a command in the queue has still to make, and whether the
status was read before. -/
def Command.window : Command → Option (ApplyRequest × Bool)
  | .start sent => some (sent.request, sent.answered)
  | _ => none

/-- The start that the transaction has still to send. -/
def Stage.window : Stage → Option (ApplyRequest × Bool)
  | .checked answered request => some (request, answered)
  | _ => none

/-- The transaction has the lock. -/
def Stage.holds : Stage → Bool
  | .ready | .done .. => false
  | _ => true

namespace LaneSystem

variable {cfg : Config} {codec : Codec} {config : LaneConfig}

/-- The starts under way: the lane has read the status, or gave up on it, and
the supervisor has not served the start. -/
def windows (w : LaneSystem) : List (ApplyRequest × Bool) :=
  w.queue.filterMap Command.window ++ w.stage.window.toList

/-- What the lock and the order of the queue are good for. -/
structure Ordered (w : LaneSystem) : Prop where
  slots : w.supervisor.toSlots.Inv
  lock : w.stage.holds = true → w.lock = some .playlist
  fresh : ∀ serial, .status serial ∈ w.queue → serial < w.serial
  /-- Nothing follows the reading of the status. -/
  reading : ∀ serial request, w.stage = .reading serial request →
    ∃ before, w.queue = before ++ [.status serial] ∧ .status serial ∉ before
  /-- Nothing waits once it is answered. -/
  checked : ∀ request, w.stage = .checked true request → w.queue = []
  /-- The start that follows it is served next. -/
  next : ∀ sent, .start sent ∈ w.queue.tail → sent.answered = false

theorem ordered_new (persisted : Supervisor.PersistedState) (session : ApplySystem) :
    (new persisted session).Ordered where
  slots := Slots.inv_new
  lock := fun h => by cases h
  fresh := fun serial h => by cases h
  reading := fun serial request h => by cases h
  checked := fun request h => by cases h
  next := fun sent h => by cases h

/-- A step that leaves the queue, and whose stage neither waits for the status
nor has just read it. -/
theorem Ordered.keepQueue {w w' : LaneSystem} (h : w.Ordered)
    (hslots : w'.supervisor = w.supervisor) (hqueue : w'.queue = w.queue)
    (hserial : w'.serial = w.serial) (hlock : w'.stage.holds = true → w'.lock = some .playlist)
    (hreading : ∀ serial request, w'.stage ≠ .reading serial request)
    (hchecked : ∀ request, w'.stage ≠ .checked true request) : w'.Ordered where
  slots := hslots ▸ h.slots
  lock := hlock
  fresh := by
    rw [hqueue, hserial]
    exact h.fresh
  reading := fun serial request hstage => absurd hstage (hreading serial request)
  checked := fun request hstage => absurd hstage (hchecked request)
  next := hqueue ▸ h.next

theorem mem_tail_append {α : Type*} {a b : α} {l : List α} (h : a ∈ (l ++ [b]).tail) :
    a ∈ l.tail ∨ a = b ∧ l ≠ [] := by
  cases l with
  | nil => cases h
  | cons c l =>
    rcases List.mem_append.mp h with hmem | hmem
    · exact Or.inl hmem
    · exact Or.inr ⟨List.mem_singleton.mp hmem, List.cons_ne_nil _ _⟩

/-- The end of a transaction. -/
theorem Ordered.finish {w : LaneSystem} (h : w.Ordered) (request : ApplyRequest)
    (result : Except ApplyError Unit) : (w.finish request result).Ordered :=
  h.keepQueue rfl rfl rfl (fun hholds => by cases hholds) (fun _ _ => nofun) (fun _ => nofun)

theorem Ordered.move {w : LaneSystem} (h : w.Ordered) (move : LaneMove) :
    (w.move move).Ordered := by
  have hlocked : ∀ {stage : Stage}, w.stage = stage → stage.holds = true →
      w.lock = some .playlist := fun hstage hholds => h.lock (hstage ▸ hholds)
  cases move with
  | take =>
    dsimp only [LaneSystem.move]
    split
    next hstage =>
      refine h.keepQueue rfl rfl rfl h.lock (fun _ _ hs => ?_) (fun _ hs => ?_)
      · rw [show w.stage = _ from hstage] at hs
        cases hs
      · rw [show w.stage = _ from hstage] at hs
        cases hs
    next => exact h
  | acquire =>
    dsimp only [LaneSystem.move]
    split
    next =>
      split
      next => exact h.keepQueue rfl rfl rfl (fun _ => rfl) (fun _ _ => nofun) (fun _ => nofun)
      next =>
        exact h.keepQueue rfl rfl rfl (fun hholds => by cases hholds) (fun _ _ => nofun)
          (fun _ => nofun)
    next => exact h
  | ask full =>
    dsimp only [LaneSystem.move]
    split
    next request hstage =>
      split
      next =>
        exact h.keepQueue rfl rfl rfl (fun _ => hlocked hstage rfl) (fun _ _ => nofun)
          (fun _ => nofun)
      next =>
        have hnew : .status w.serial ∉ w.queue := fun hmem => Nat.lt_irrefl _ (h.fresh _ hmem)
        refine ⟨h.slots, fun _ => hlocked hstage rfl, fun serial hmem => ?_, ?_, nofun, ?_⟩
        · rcases List.mem_append.mp hmem with hold | hlast
          · exact Nat.lt_succ_of_lt (h.fresh serial hold)
          · cases List.mem_singleton.mp hlast
            exact Nat.lt_succ_self _
        · rintro serial request' hreading
          cases hreading
          exact ⟨w.queue, rfl, hnew⟩
        · intro sent hmem
          rcases mem_tail_append hmem with hold | ⟨hlast, -⟩
          · exact h.next sent hold
          · cases hlast
    next => exact h
  | giveUpStatus =>
    dsimp only [LaneSystem.move]
    split
    next hstage =>
      exact h.keepQueue rfl rfl rfl (fun _ => hlocked hstage rfl) (fun _ _ => nofun)
        (fun _ => nofun)
    next => exact h
  | refuse error =>
    dsimp only [LaneSystem.move]
    split
    next => exact h.finish _ _
    next => exact h
  | send spec full =>
    dsimp only [LaneSystem.move]
    split
    next answered request hstage =>
      split
      next => exact h
      next =>
        split
        next =>
          exact h.keepQueue rfl rfl rfl (fun _ => hlocked hstage rfl) (fun _ _ => nofun)
            (fun _ => nofun)
        next =>
          refine ⟨h.slots, fun _ => hlocked hstage rfl, fun serial hmem => ?_, nofun, nofun, ?_⟩
          · rcases List.mem_append.mp hmem with hold | hlast
            · exact Nat.lt_succ_of_lt (h.fresh serial hold)
            · cases List.mem_singleton.mp hlast
          · intro sent hmem
            rcases mem_tail_append hmem with hold | ⟨hlast, hsome⟩
            · exact h.next sent hold
            · cases answered with
              | false => cases hlast; rfl
              | true => exact absurd (h.checked request hstage) hsome
    next => exact h
  | giveUpStart =>
    dsimp only [LaneSystem.move]
    split
    next hstage =>
      exact h.keepQueue rfl rfl rfl (fun _ => hlocked hstage rfl) (fun _ _ => nofun)
        (fun _ => nofun)
    next => exact h
  | promote =>
    dsimp only [LaneSystem.move]
    split
    next hstage =>
      split
      next =>
        exact h.keepQueue rfl rfl rfl (fun _ => hlocked hstage rfl) (fun _ _ => nofun)
          (fun _ => nofun)
      next => exact h
    next => exact h
  | fail error =>
    dsimp only [LaneSystem.move]
    split
    next hstage =>
      exact h.keepQueue rfl rfl rfl (fun _ => hlocked hstage rfl) (fun _ _ => nofun)
        (fun _ => nofun)
    next hstage =>
      exact h.keepQueue rfl rfl rfl (fun _ => hlocked hstage rfl) (fun _ _ => nofun)
        (fun _ => nofun)
    next => exact h
  | complete =>
    dsimp only [LaneSystem.move]
    split
    next =>
      exact h.keepQueue rfl rfl rfl (fun hholds => by cases hholds) (fun _ _ => nofun)
        (fun _ => nofun)
    next => exact h
  | recheck answered =>
    dsimp only [LaneSystem.move]
    split
    next hstage =>
      split
      next =>
        exact h.keepQueue rfl rfl rfl (fun _ => hlocked hstage rfl) (fun _ _ => nofun)
          (fun _ => nofun)
      next => exact h.finish _ _
    next => exact h
  | stop full =>
    dsimp only [LaneSystem.move]
    split
    next =>
      cases full with
      | true => exact h.finish _ _
      | false =>
        refine ⟨h.slots, nofun, fun serial hmem => ?_, nofun, nofun, ?_⟩
        · rcases List.mem_append.mp hmem with hold | hlast
          · exact h.fresh serial hold
          · cases List.mem_singleton.mp hlast
        · intro sent hmem
          rcases mem_tail_append hmem with hold | ⟨hlast, -⟩
          · exact h.next sent hold
          · cases hlast
    next => exact h
  | post =>
    dsimp only [LaneSystem.move]
    split
    next hstage =>
      split
      next =>
        exact h.keepQueue rfl rfl rfl (fun hholds => by cases hholds) (fun _ _ => nofun)
          (fun _ => nofun)
      next => exact h
    next => exact h

theorem Ordered.userMove {w : LaneSystem} (h : w.Ordered) (move : UserMove) :
    (w.userMove move).Ordered := by
  cases move with
  | acquire =>
    dsimp only [LaneSystem.userMove]
    split
    next hfree =>
      have hidle : w.stage.holds = false := by
        by_contra hholds
        rw [h.lock (by simpa using hholds)] at hfree
        cases hfree
      refine ⟨h.slots, fun hholds => ?_, h.fresh, h.reading, h.checked, h.next⟩
      rw [show w.stage.holds = true from hholds] at hidle
      cases hidle
    next => exact h
  | send command =>
    dsimp only [LaneSystem.userMove]
    split
    next huser =>
      have hidle : w.stage.holds = false := by
        by_contra hholds
        rw [h.lock (by simpa using hholds)] at huser
        cases huser
      refine ⟨h.slots, h.lock, fun serial hmem => ?_, fun serial request hstage => ?_,
        fun request hstage => ?_, fun sent hmem => ?_⟩
      · rcases List.mem_append.mp hmem with hold | hlast
        · exact h.fresh serial hold
        · cases List.mem_singleton.mp hlast
      · rw [show w.stage = _ from hstage] at hidle
        cases hidle
      · rw [show w.stage = _ from hstage] at hidle
        cases hidle
      · rcases mem_tail_append hmem with hold | ⟨hlast, -⟩
        · exact h.next sent hold
        · cases hlast
    next => exact h
  | release =>
    dsimp only [LaneSystem.userMove]
    split
    next huser =>
      refine ⟨h.slots, fun hholds => ?_, h.fresh, h.reading, h.checked, h.next⟩
      rw [h.lock hholds] at huser
      cases huser
    next => exact h

/-- The queue without its head, where the head was not the reading that the
lane waits for. -/
theorem Ordered.serveHead {w : LaneSystem} (h : w.Ordered) {command : Command}
    {queue : List Command} (hqueue : w.queue = command :: queue)
    (hother : ∀ serial request, w.stage = .reading serial request → command ≠ .status serial)
    (supervisor : State) (hslots : supervisor.toSlots.Inv) :
    { w with queue := queue, supervisor := supervisor }.Ordered where
  slots := hslots
  lock := h.lock
  fresh := fun serial hmem => h.fresh serial (hqueue ▸ List.mem_cons_of_mem _ hmem)
  reading := fun serial request hstage => by
    obtain ⟨before, hbefore, hnot⟩ := h.reading serial request hstage
    rw [hqueue] at hbefore
    cases before with
    | nil =>
      cases hbefore
      exact absurd rfl (hother serial request hstage)
    | cons first before =>
      cases hbefore
      exact ⟨before, rfl, fun hmem => hnot (List.mem_cons_of_mem _ hmem)⟩
  checked := fun request hstage => by
    rw [h.checked request hstage] at hqueue
    cases hqueue
  next := fun sent hmem => h.next sent (by
    rw [hqueue]
    exact List.mem_of_mem_tail hmem)

theorem Ordered.answer {w : LaneSystem} (h : w.Ordered) {serial : Nat} {queue : List Command}
    (hqueue : w.queue = .status serial :: queue) :
    ({ w with queue := queue }.answer serial).Ordered := by
  unfold LaneSystem.answer
  split
  next current request hstage =>
    have hstage : w.stage = .reading current request := hstage
    have hholds : w.lock = some .playlist := h.lock (by rw [hstage]; rfl)
    split
    next hne =>
      refine h.serveHead hqueue (fun serial' request' hreading => ?_) w.supervisor h.slots
      rw [hstage] at hreading
      cases hreading
      exact fun heq => hne (Command.status.inj heq)
    next heq =>
      obtain rfl : serial = current := not_not.mp heq
      have hlast : queue = [] := by
        obtain ⟨before, hbefore, hnot⟩ := h.reading serial request hstage
        rw [hqueue] at hbefore
        cases before with
        | nil => exact (List.cons.inj hbefore).2
        | cons first before =>
          cases hbefore
          exact absurd List.mem_cons_self hnot
      subst hlast
      dsimp only
      split
      next => exact ⟨h.slots, nofun, nofun, nofun, nofun, nofun⟩
      next => exact ⟨h.slots, fun _ => hholds, nofun, nofun, fun _ _ => rfl, nofun⟩
  next hstage =>
    exact h.serveHead hqueue (fun serial' request hreading => absurd hreading (hstage _ _))
      w.supervisor h.slots

theorem Ordered.reply {w : LaneSystem} (h : w.Ordered) (sent : LaneStart)
    (replied : Option Supervisor.Reply) : (w.reply sent replied).Ordered := by
  unfold LaneSystem.reply
  split
  next current request spec hstage =>
    have hholds : w.lock = some .playlist := h.lock (by rw [hstage]; rfl)
    split
    next => exact h
    next =>
      split
      next =>
        split
        all_goals
          exact h.keepQueue rfl rfl rfl (fun _ => hholds) (fun _ _ => nofun) (fun _ => nofun)
      next => exact h.keepQueue rfl rfl rfl (fun _ => hholds) (fun _ _ => nofun) (fun _ => nofun)
      next => exact h
  next => exact h

theorem Ordered.serve {w : LaneSystem} (h : w.Ordered) (io : Io) : (w.serve cfg io).Ordered := by
  unfold LaneSystem.serve
  split
  next => exact h
  next command queue hqueue =>
    cases command with
    | status serial => exact h.answer hqueue
    | start sent =>
      refine Ordered.reply ?_ sent _
      exact h.serveHead hqueue (fun _ _ _ => nofun) _ (Supervisor.inv_step _ h.slots)
    | stop => exact h.serveHead hqueue (fun _ _ _ => nofun) _ (Supervisor.inv_step _ h.slots)
    | user command =>
      exact h.serveHead hqueue (fun _ _ _ => nofun) _ (Supervisor.inv_step _ h.slots)

theorem Ordered.step {w : LaneSystem} (h : w.Ordered) (e : Event) :
    (step cfg codec config w e).Ordered := by
  cases e with
  | session e =>
    have hkept : ∀ session : ApplySystem, { w with session := session }.Ordered := fun session =>
      ⟨h.slots, h.lock, h.fresh, h.reading, h.checked, h.next⟩
    dsimp only [LaneSystem.step]
    unfold LaneSystem.sessionStep
    split
    next => exact h
    next => exact h
    next => exact hkept _
    next => exact hkept _
  | lane move => exact h.move move
  | user move => exact h.userMove move
  | serve io => exact h.serve io
  | direct input =>
    exact ⟨Supervisor.inv_step _ h.slots, h.lock, h.fresh, h.reading, h.checked, h.next⟩

/-! ## No start displaces a foreign renderer -/

/-- The request of a transaction that goes on without having read the status. -/
def unread (w : LaneSystem) : LaneMove → Option ApplyRequest
  | .ask true =>
    match w.stage with
    | .locked request => some request
    | _ => none
  | .giveUpStatus =>
    match w.stage with
    | .reading _ request => some request
    | _ => none
  | _ => none

/-- What keeps the user's choice.  While a start of the lane is under way, no
command without the lock asks for a foreign wallpaper, and the supervisor
itself does not fall back to one; and a transaction that could not read the
status finds no foreign renderer, and no command that waits brings one. -/
def Undisturbed (cfg : Config) (w : LaneSystem) : Event → Prop
  | .direct input => ∀ start ∈ w.windows, Spares cfg start.1 w.supervisor input
  | .serve io => ∀ command queue input, w.queue = command :: queue →
      command.input io = some input → ∀ request,
        (request, false) ∈ { w with queue := queue }.windows → Spares cfg request w.supervisor input
  | .lane move => ∀ request, w.unread move = some request → ¬ request.Foreign w.supervisor
  | _ => True

/-- A start of the lane that the supervisor serves, with no handoff open,
displaces no foreign renderer. -/
def Precedes (w : LaneSystem) (e : Event) : Prop :=
  ∀ io sent queue, e = .serve io → w.queue = .start sent :: queue →
    w.supervisor.retired = none → ¬ sent.request.Foreign w.supervisor

/-- No start under way has a foreign renderer before it. -/
def Clear (w : LaneSystem) : Prop :=
  ∀ start ∈ w.windows, ¬ start.1.Foreign w.supervisor

theorem Clear.mono {w w' : LaneSystem} (h : w.Clear) (hslots : w'.supervisor = w.supervisor)
    (hwindows : ∀ start ∈ w'.windows, start ∈ w.windows) : w'.Clear := fun start hmem =>
  hslots ▸ h start (hwindows start hmem)

/-- A step that neither starts nor comes to a start. -/
theorem Clear.keep {w w' : LaneSystem} (h : w.Clear) (hslots : w'.supervisor = w.supervisor)
    (hqueue : w'.queue.filterMap Command.window = w.queue.filterMap Command.window)
    (hstage : w'.stage.window = none) : w'.Clear := by
  refine h.mono hslots fun start hmem => ?_
  rw [windows, hqueue, hstage] at hmem
  rw [windows]
  exact List.mem_append_left _ (by simpa using hmem)

/-- A transaction that goes on without the status. -/
theorem Clear.unread {w : LaneSystem} (h : w.Clear) {request : ApplyRequest}
    (hread : ¬ request.Foreign w.supervisor) :
    { w with stage := .checked false request }.Clear := by
  intro start hmem
  rcases List.mem_append.mp hmem with hold | hnew
  · exact h start (List.mem_append_left _ hold)
  · rw [List.mem_singleton.mp hnew]
    exact hread

theorem Clear.move {w : LaneSystem} (h : w.Clear) {move : LaneMove}
    (hread : Undisturbed cfg w (.lane move)) : (w.move move).Clear := by
  cases move with
  | ask full =>
    dsimp only [LaneSystem.move]
    split
    next request hstage =>
      cases full with
      | true => exact h.unread (hread request (by simp [LaneSystem.unread, hstage]))
      | false => exact h.keep rfl (by simp [Command.window]) rfl
    next => exact h
  | giveUpStatus =>
    dsimp only [LaneSystem.move]
    split
    next request hstage => exact h.unread (hread request (by simp [LaneSystem.unread, hstage]))
    next => exact h
  | send spec full =>
    dsimp only [LaneSystem.move]
    split
    next answered request hstage =>
      split
      next => exact h
      next =>
        split
        next => exact h.keep rfl rfl rfl
        next =>
          refine h.mono rfl fun start hmem => ?_
          simpa [windows, Command.window, Stage.window, hstage] using hmem
    next => exact h
  | stop full =>
    dsimp only [LaneSystem.move]
    split
    next =>
      cases full with
      | true => exact h.keep rfl rfl rfl
      | false => exact h.keep rfl (by simp [Command.window, LaneSystem.finish]) rfl
    next => exact h
  | take =>
    dsimp only [LaneSystem.move]
    split <;> exact h
  | acquire =>
    dsimp only [LaneSystem.move]
    split
    next => split <;> exact h.keep rfl rfl rfl
    next => exact h
  | refuse error =>
    dsimp only [LaneSystem.move]
    split
    next => exact h.keep rfl rfl rfl
    next => exact h
  | giveUpStart =>
    dsimp only [LaneSystem.move]
    split
    next => exact h.keep rfl rfl rfl
    next => exact h
  | promote =>
    dsimp only [LaneSystem.move]
    split
    next =>
      split
      next => exact h.keep rfl rfl rfl
      next => exact h
    next => exact h
  | fail error =>
    dsimp only [LaneSystem.move]
    split
    next => exact h.keep rfl rfl rfl
    next => exact h.keep rfl rfl rfl
    next => exact h
  | complete =>
    dsimp only [LaneSystem.move]
    split
    next => exact h.keep rfl rfl rfl
    next => exact h
  | recheck answered =>
    dsimp only [LaneSystem.move]
    split
    next => split <;> exact h.keep rfl rfl rfl
    next => exact h
  | post =>
    dsimp only [LaneSystem.move]
    split
    next =>
      split
      next => exact h.keep rfl rfl rfl
      next => exact h
    next => exact h

/-- A command that is served.  No start whose status was read is behind it. -/
theorem Clear.command {w : LaneSystem} (h : w.Clear) (hordered : w.Ordered) {io : Io}
    (hundisturbed : Undisturbed cfg w (.serve io)) {command : Command} {queue : List Command}
    (hqueue : w.queue = command :: queue) {input : Supervisor.Input}
    (hinput : command.input io = some input) :
    { w with queue := queue, supervisor := Supervisor.step cfg w.supervisor input }.Clear := by
  rintro ⟨request, answered⟩ hmem
  have hwindow : (request, answered) ∈ w.windows := by
    rw [windows, hqueue]
    rcases List.mem_append.mp hmem with hold | hstage
    · refine List.mem_append_left _ ?_
      rw [List.filterMap_cons]
      split
      · exact hold
      · exact List.mem_cons_of_mem _ hold
    · exact List.mem_append_right _ hstage
  refine not_foreign_step hordered.slots ?_ (h _ hwindow)
  cases answered with
  | false => exact hundisturbed command queue input hqueue hinput request hmem
  | true =>
    rcases List.mem_append.mp hmem with hbehind | hstage
    · obtain ⟨start, hstart, hwin⟩ := List.mem_filterMap.mp hbehind
      cases start with
      | start sent =>
        have hnot := hordered.next sent (by rw [hqueue]; exact hstart)
        have hread : sent.answered = true := congrArg Prod.snd (Option.some.inj hwin)
        rw [hnot] at hread
        cases hread
      | _ => cases hwin
    · have hchecked : w.stage = .checked true request := by
        have hwin : w.stage.window = some (request, true) := by simpa using hstage
        revert hwin
        cases w.stage <;> simp [Stage.window]
        rintro rfl rfl
        exact ⟨rfl, rfl⟩
      rw [hordered.checked request hchecked] at hqueue
      cases hqueue

theorem Clear.reply {w : LaneSystem} (h : w.Clear) (sent : LaneStart)
    (replied : Option Supervisor.Reply) : (w.reply sent replied).Clear := by
  unfold LaneSystem.reply
  split
  next =>
    split
    next => exact h
    next =>
      split
      next => split <;> exact h.keep rfl rfl rfl
      next => exact h.keep rfl rfl rfl
      next => exact h
  next => exact h

theorem Clear.answer {w : LaneSystem} (h : w.Clear) (serial : Nat) : (w.answer serial).Clear := by
  unfold LaneSystem.answer
  split
  next current request hstage =>
    split
    next => exact h
    next =>
      dsimp only
      split
      next => exact h.keep rfl rfl rfl
      next hfree =>
        intro start hmem
        rcases List.mem_append.mp hmem with hold | hnew
        · exact h start (List.mem_append_left _ hold)
        · rw [List.mem_singleton.mp hnew]
          exact hfree
  next => exact h

theorem Clear.serve {w : LaneSystem} (h : w.Clear) (hordered : w.Ordered) {io : Io}
    (hundisturbed : Undisturbed cfg w (.serve io)) : (w.serve cfg io).Clear := by
  unfold LaneSystem.serve
  split
  next => exact h
  next command queue hqueue =>
    cases command with
    | status serial =>
      have hkept : { w with queue := queue }.Clear := h.mono rfl fun start hmem => by
        simpa [windows, hqueue, Command.window] using hmem
      exact hkept.answer serial
    | start sent => exact (h.command hordered hundisturbed hqueue rfl).reply sent _
    | stop => exact h.command hordered hundisturbed hqueue rfl
    | user command => exact h.command hordered hundisturbed hqueue rfl

theorem Clear.step {w : LaneSystem} (h : w.Clear) (hordered : w.Ordered) {e : Event}
    (hundisturbed : Undisturbed cfg w e) : (step cfg codec config w e).Clear := by
  cases e with
  | session e =>
    dsimp only [LaneSystem.step]
    unfold LaneSystem.sessionStep
    split <;> exact h
  | lane move => exact h.move hundisturbed
  | user move =>
    cases move with
    | acquire =>
      dsimp only [LaneSystem.step, LaneSystem.userMove]
      split <;> exact h
    | send command =>
      dsimp only [LaneSystem.step, LaneSystem.userMove]
      split
      next => exact h.mono rfl fun start hmem => by simpa [windows, Command.window] using hmem
      next => exact h
    | release =>
      dsimp only [LaneSystem.step, LaneSystem.userMove]
      split <;> exact h
  | serve io => exact h.serve hordered hundisturbed
  | direct input =>
    exact fun start hmem => not_foreign_step hordered.slots (hundisturbed start hmem) (h start hmem)

theorem precedes_of_clear {w : LaneSystem} (h : w.Clear) (e : Event) : w.Precedes e := by
  rintro io sent queue - hqueue -
  exact h (sent.request, sent.answered) (by simp [windows, hqueue, Command.window])

end LaneSystem

/-! ## What the session records -/

/-- The wallpaper is requested and on display, or on its way. -/
structure FoundLive (status : WorkerStatus) (id : String) : Prop where
  live : phaseHasLiveWorker status.phase = true
  requested : status.requestedWallpaperId = some id
  shown : status.phase = .rolledBack ∨ status.phase = .restarting → status.wallpaperId = some id

/-- The current entry of the session. -/
def SessionRuntime.entry (s : SessionRuntime) : Option String :=
  s.lastDecision.bind decisionWallpaperId

theorem foundLive_of_satisfied {applied : Option String} {id : String} {status : WorkerStatus}
    {ready : Bool} (h : applyVerdict applied id status ready = .satisfied) :
    FoundLive status id := by
  unfold applyVerdict at h
  split at h
  next hlive =>
    simp only [Bool.and_eq_true, decide_eq_true_eq] at hlive
    split at h
    next => cases h
    next hshown =>
      refine ⟨hlive.2, hlive.1, fun hphase => ?_⟩
      by_contra hother
      refine hshown ?_
      simpa [hother] using hphase
  next =>
    repeat' split at h
    all_goals cases h

namespace ApplySystem

theorem foldOutcomes_applied {elapsed : Nat} {outcomes : List ApplyOutcome} {s : ApplySystem}
    {id : String} (h : (outcomes.foldl (foldOutcome elapsed) s).apply.appliedWallpaper = some id) :
    s.apply.appliedWallpaper = some id ∨ ⟨id, .ok ()⟩ ∈ outcomes := by
  induction outcomes generalizing s with
  | nil => exact Or.inl h
  | cons outcome outcomes ih =>
    rcases ih h with hfirst | hmem
    · obtain ⟨wallpaperId, result⟩ := outcome
      cases result with
      | ok value =>
        obtain rfl : wallpaperId = id := Option.some.inj hfirst
        exact Or.inr List.mem_cons_self
      | error error =>
        cases error
        case busy => cases hfirst
        case yielded => cases hfirst
        all_goals exact Or.inl hfirst
    · exact Or.inr (List.mem_cons_of_mem _ hmem)

theorem maybeApply_applied {config : LaneConfig} {elapsed : Nat}
    {status : Option (Except String WorkerStatus)} {playlist : Playlist}
    {decision : PlaylistDecision} {s : ApplySystem} {id : String}
    (h : (s.maybeApply config elapsed status playlist decision).apply.appliedWallpaper = some id) :
    s.apply.appliedWallpaper = some id ∨ decisionWallpaperId decision = some id ∧
      ∃ answered, status = some (.ok answered) ∧ FoundLive answered id := by
  unfold maybeApply at h
  split at h
  next => exact Or.inl h
  next entry hentry =>
    split at h
    next => exact Or.inl h
    next => exact Or.inl h
    next answered =>
      dsimp only at h
      split at h
      next hsatisfied =>
        obtain rfl : entry = id := Option.some.inj h
        exact Or.inr ⟨hentry, answered, rfl, foundLive_of_satisfied hsatisfied⟩
      next => cases h
      next => exact Or.inl h
      next => exact Or.inl h
      next =>
        refine Or.inl ?_
        unfold dispatchApply at h
        dsimp only at h
        repeat' split at h
        all_goals exact h

theorem dispatchApply_requests {config : LaneConfig} {id : String} {entries : List String}
    {s : ApplySystem} {request : ApplyRequest}
    (h : request ∈ (s.dispatchApply config id entries).requests) :
    request ∈ s.requests ∨
      request.applied = (s.dispatchApply config id entries).apply.appliedWallpaper := by
  unfold dispatchApply at h ⊢
  split at h
  next => exact Or.inl h
  next hlane =>
    rw [if_neg hlane]
    dsimp only at h ⊢
    split at h
    next hroom =>
      rw [if_pos hroom]
      rcases List.mem_append.mp h with hold | hnew
      · exact Or.inl hold
      · exact Or.inr (congrArg ApplyRequest.applied (List.mem_singleton.mp hnew))
    next => exact Or.inl h

/-- A request carries the wallpaper that the session has on record. -/
theorem maybeApply_requests {config : LaneConfig} {elapsed : Nat}
    {status : Option (Except String WorkerStatus)} {playlist : Playlist}
    {decision : PlaylistDecision} {s : ApplySystem} {request : ApplyRequest}
    (h : request ∈ (s.maybeApply config elapsed status playlist decision).requests) :
    request ∈ s.requests ∨ request.applied =
      (s.maybeApply config elapsed status playlist decision).apply.appliedWallpaper := by
  unfold maybeApply at h ⊢
  cases hentry : decisionWallpaperId decision with
  | none => exact Or.inl (by simpa only [hentry] using h)
  | some entry =>
    simp only [hentry] at h ⊢
    rcases status with _ | (detail | answered)
    · exact Or.inl h
    · exact Or.inl h
    · dsimp only at h ⊢
      split at h
      next => exact Or.inl h
      next => exact Or.inl h
      next => exact Or.inl h
      next => exact Or.inl h
      next =>
        split at h
        next => exact Or.inl h
        next hflight =>
          rw [if_neg hflight]
          exact dispatchApply_requests h

theorem maybePersist_lastDecision (codec : Codec) (elapsed : Nat) (id : String)
    (decision : PlaylistDecision) (now : Nat) (s : SessionRuntime) :
    (s.maybePersist codec elapsed id decision now).1.lastDecision = some decision := by
  unfold SessionRuntime.maybePersist
  dsimp only
  split
  next => rfl
  next =>
    have hkept : ∀ t : SessionRuntime, (t.persistState codec).1.lastDecision = t.lastDecision := by
      intro t
      obtain ⟨snapshots, heq, -⟩ := SessionRuntime.evict_spec codec t
      unfold SessionRuntime.persistState
      dsimp only
      split <;> rw [heq]
    rw [hkept]
    dsimp only
    generalize SessionRuntime.snapshotOf _ _ _ = snapshot
    cases snapshot <;> rfl

variable {codec : Codec} {config : LaneConfig}

theorem tickFolded_applied {elapsed : Nat} {status : Option (Except String WorkerStatus)}
    {s : ApplySystem} {id : String}
    (h : (s.tickFolded codec config elapsed status).apply.appliedWallpaper = some id) :
    s.apply.appliedWallpaper = some id ∨
      (s.tickFolded codec config elapsed status).session.entry = some id ∧
        ∃ answered, status = some (.ok answered) ∧ FoundLive answered id := by
  unfold tickFolded at h ⊢
  split at h
  next => exact Or.inl h
  next playlistId hactive =>
    split at h
    next => cases h
    next playlist hfind =>
      dsimp only at h
      split at h
      next => exact Or.inl h
      next decision hdecision =>
        rcases maybeApply_applied h with hold | ⟨hentry, hfound⟩
        · exact Or.inl hold
        · refine Or.inr ⟨?_, hfound⟩
          dsimp only
          simp only [hdecision]
          rw [maybeApply_session, SessionRuntime.entry, maybePersist_lastDecision]
          exact hentry

/-- **What a tick records.**  A wallpaper that an outcome reports as applied,
or that is live as the current entry. -/
theorem tickSession_applied {elapsed : Nat} {quarantined : Option (List String)}
    {status : Option (Except String WorkerStatus)} {s : ApplySystem} {id : String}
    (h : (s.tickSession codec config elapsed quarantined status).apply.appliedWallpaper = some id) :
    s.apply.appliedWallpaper = some id ∨ ⟨id, .ok ()⟩ ∈ s.completions ∨
      (s.tickSession codec config elapsed quarantined status).session.entry = some id ∧
        ∃ answered, status = some (.ok answered) ∧ FoundLive answered id := by
  rcases tickFolded_applied h with hold | hfound
  · exact (foldOutcomes_applied hold).imp_right Or.inl
  · exact Or.inr (Or.inr hfound)

theorem tickFolded_requests {elapsed : Nat} {status : Option (Except String WorkerStatus)}
    {s : ApplySystem} {request : ApplyRequest}
    (h : request ∈ (s.tickFolded codec config elapsed status).requests) :
    request ∈ s.requests ∨ request.applied =
      (s.tickFolded codec config elapsed status).apply.appliedWallpaper := by
  unfold tickFolded at h ⊢
  split at h
  next => exact Or.inl h
  next playlistId hactive =>
    split at h
    next => exact Or.inl h
    next playlist hfind =>
      dsimp only at h ⊢
      split at h
      next => exact Or.inl h
      next =>
        exact maybeApply_requests h

theorem tickSession_requests {elapsed : Nat} {quarantined : Option (List String)}
    {status : Option (Except String WorkerStatus)} {s : ApplySystem} {request : ApplyRequest}
    (h : request ∈ (s.tickSession codec config elapsed quarantined status).requests) :
    request ∈ s.requests ∨ request.applied =
      (s.tickSession codec config elapsed quarantined status).apply.appliedWallpaper := by
  have hfolded : (foldApplyCompletions elapsed
      { s with session := s.session.refresh quarantined none }).requests = s.requests :=
    congrArg Lane.requests (refreshed_lane elapsed quarantined s).1
  rw [← hfolded]
  exact tickFolded_requests h

end ApplySystem

/-! ## Runs -/

/-- The request of a transaction under way. -/
def Stage.request : Stage → Option ApplyRequest
  | .ready => none
  | .locked request | .reading _ request | .checked _ request | .starting _ request _
  | .promoting request _ | .confirmed request _ | .failing request _ _ | .stopping request _
  | .done request _ => some request

namespace LaneSystem

variable {cfg : Config} {codec : Codec} {config : LaneConfig}

/-- A success that is reported is a transaction of the lane that succeeded. -/
structure Credited (w : LaneSystem) : Prop where
  working : ∀ request, w.stage.request = some request → w.session.working = some request
  done : ∀ request, w.stage = .done request (.ok ()) → request.wallpaperId ∈ w.applied
  completions : ∀ id, ⟨id, .ok ()⟩ ∈ w.session.completions → id ∈ w.applied

theorem credited_new (persisted : Supervisor.PersistedState) {session : ApplySystem}
    (h : session.completions = []) : (new persisted session).Credited where
  working := nofun
  done := nofun
  completions := fun id hmem => by
    rw [show (new persisted session).session.completions = [] from h] at hmem
    cases hmem

/-- The session comes to record a wallpaper that its lane applied, or that it
finds live as the current entry. -/
def Earns (cfg : Config) (codec : Codec) (config : LaneConfig) (w : LaneSystem) (e : Event) :
    Prop :=
  ∀ id, (step cfg codec config w e).session.apply.appliedWallpaper = some id →
    w.session.apply.appliedWallpaper = some id ∨ id ∈ w.applied ∨
      (step cfg codec config w e).session.session.entry = some id ∧
        FoundLive (status w.supervisor) id

/-- A move of the transaction that keeps its request. -/
theorem Credited.keep {w w' : LaneSystem} (h : w.Credited) (hsession : w'.session = w.session)
    (happlied : w'.applied = w.applied)
    (hrequest : ∀ request, w'.stage.request = some request → w.stage.request = some request)
    (hdone : ∀ request, w'.stage ≠ .done request (.ok ())) : w'.Credited where
  working := fun request hstage => hsession ▸ h.working request (hrequest request hstage)
  done := fun request hstage => absurd hstage (hdone request)
  completions := by
    rw [hsession, happlied]
    exact h.completions

/-- A session that keeps the worker's request and reports nothing new. -/
theorem Credited.session {w : LaneSystem} (h : w.Credited) {session : ApplySystem}
    (hworking : session.working = w.session.working)
    (hcompletions : ∀ outcome ∈ session.completions, outcome ∈ w.session.completions) :
    { w with session := session }.Credited where
  working := fun request hstage => hworking.trans (h.working request hstage)
  done := h.done
  completions := fun id hmem => h.completions id (hcompletions _ hmem)

theorem Credited.move {w : LaneSystem} (h : w.Credited) (move : LaneMove) :
    (w.move move).Credited := by
  have hsame {stage : Stage} {request : ApplyRequest} (hstage : w.stage = stage)
      (hrequest : stage.request = some request) :
      ∀ request', some request = some request' → w.stage.request = some request' := by
    rintro request' hsome
    rw [hstage, hrequest, hsome]
  cases move with
  | take =>
    dsimp only [LaneSystem.move]
    split
    next hstage =>
      unfold ApplySystem.take
      split
      next request requests hworking _ =>
        refine ⟨fun request' hrequest => ?_, h.done, h.completions⟩
        rw [show w.stage = _ from hstage] at hrequest
        cases hrequest
      next => exact h
    next => exact h
  | acquire =>
    dsimp only [LaneSystem.move]
    split
    next request hstage hworking =>
      split
      next =>
        refine ⟨fun request' hrequest => ?_, fun _ => nofun, h.completions⟩
        exact hworking.trans hrequest
      next =>
        refine ⟨fun request' hrequest => ?_, fun _ => nofun, h.completions⟩
        exact hworking.trans hrequest
    next => exact h
  | ask full =>
    dsimp only [LaneSystem.move]
    split
    next hstage => split <;> exact h.keep rfl rfl (hsame hstage rfl) (fun _ => nofun)
    next => exact h
  | giveUpStatus =>
    dsimp only [LaneSystem.move]
    split
    next hstage => exact h.keep rfl rfl (hsame hstage rfl) (fun _ => nofun)
    next => exact h
  | refuse error =>
    dsimp only [LaneSystem.move]
    split
    next hstage => exact h.keep rfl rfl (hsame hstage rfl) (fun _ => nofun)
    next => exact h
  | send spec full =>
    dsimp only [LaneSystem.move]
    split
    next hstage =>
      split
      next => exact h
      next => split <;> exact h.keep rfl rfl (hsame hstage rfl) (fun _ => nofun)
    next => exact h
  | giveUpStart =>
    dsimp only [LaneSystem.move]
    split
    next hstage => exact h.keep rfl rfl (hsame hstage rfl) (fun _ => nofun)
    next => exact h
  | promote =>
    dsimp only [LaneSystem.move]
    split
    next hstage =>
      split
      next => exact h.keep rfl rfl (hsame hstage rfl) (fun _ => nofun)
      next => exact h
    next => exact h
  | fail error =>
    dsimp only [LaneSystem.move]
    split
    next hstage => exact h.keep rfl rfl (hsame hstage rfl) (fun _ => nofun)
    next hstage => exact h.keep rfl rfl (hsame hstage rfl) (fun _ => nofun)
    next => exact h
  | complete =>
    dsimp only [LaneSystem.move]
    split
    next request spec hstage =>
      refine ⟨fun request' hrequest => h.working _ (hsame hstage rfl _ hrequest), ?_, ?_⟩
      · rintro request' hdone
        cases hdone
        exact List.mem_append_right _ (List.mem_singleton_self _)
      · exact fun id hmem => List.mem_append_left _ (h.completions id hmem)
    next => exact h
  | recheck answered =>
    dsimp only [LaneSystem.move]
    split
    next hstage => split <;> exact h.keep rfl rfl (hsame hstage rfl) (fun _ => nofun)
    next => exact h
  | stop full =>
    dsimp only [LaneSystem.move]
    split
    next hstage =>
      cases full <;> exact h.keep rfl rfl (hsame hstage rfl) (fun _ => nofun)
    next => exact h
  | post =>
    dsimp only [LaneSystem.move]
    split
    next request result hstage =>
      split
      next =>
        refine ⟨nofun, fun _ => nofun, fun id hmem => ?_⟩
        have hworking := h.working request (by rw [hstage]; rfl)
        unfold ApplySystem.finish at hmem
        simp only [hworking] at hmem
        split at hmem
        next =>
          rcases List.mem_append.mp hmem with hold | hnew
          · exact h.completions id hold
          · cases List.mem_singleton.mp hnew
            exact h.done request hstage
        next => exact h.completions id hmem
      next => exact h
    next => exact h

theorem Credited.reply {w : LaneSystem} (h : w.Credited) (sent : LaneStart)
    (replied : Option Supervisor.Reply) : (w.reply sent replied).Credited := by
  unfold LaneSystem.reply
  split
  next current request spec hstage =>
    have hsame : ∀ request', some request = some request' → w.stage.request = some request' :=
      fun request' hsome => by rw [hstage, ← hsome]; rfl
    split
    next => exact h
    next =>
      split
      next => split <;> exact h.keep rfl rfl hsame (fun _ => nofun)
      next => exact h.keep rfl rfl hsame (fun _ => nofun)
      next => exact h
  next => exact h

theorem Credited.serve {w : LaneSystem} (h : w.Credited) (io : Io) :
    (w.serve cfg io).Credited := by
  unfold LaneSystem.serve
  split
  next => exact h
  next command queue hqueue =>
    cases command with
    | status serial =>
      dsimp only
      unfold LaneSystem.answer
      split
      next current request hstage =>
        have hsame : ∀ request', some request = some request' → w.stage.request = some request' :=
          fun request' hsome => by rw [show w.stage = _ from hstage, ← hsome]; rfl
        split
        next => exact ⟨h.working, h.done, h.completions⟩
        next =>
          dsimp only
          split <;> exact h.keep rfl rfl hsame (fun _ => nofun)
      next => exact ⟨h.working, h.done, h.completions⟩
    | start sent =>
      refine Credited.reply ?_ sent _
      exact ⟨h.working, h.done, h.completions⟩
    | stop => exact ⟨h.working, h.done, h.completions⟩
    | user command => exact ⟨h.working, h.done, h.completions⟩

/-- A tick keeps the worker's request, and leaves no outcome. -/
theorem tickSession_worker (codec : Codec) (config : LaneConfig) (elapsed : Nat)
    (quarantined : Option (List String)) (answered : Option (Except String WorkerStatus)) (s : ApplySystem) :
    (s.tickSession codec config elapsed quarantined answered).working = s.working ∧
      (s.tickSession codec config elapsed quarantined answered).completions = [] := by
  have hlane : ∃ l : Lane, (s.tickSession codec config elapsed quarantined answered).lane = l ∧
      l.working = s.working ∧ l.completions = [] := by
    cases hgone : s.session.activeGone with
    | true =>
      exact ⟨_, ApplySystem.tickSession_gone codec config elapsed quarantined answered hgone, rfl,
        rfl⟩
    | false =>
      rcases ApplySystem.tickSession_lane codec config elapsed quarantined answered hgone with
        heq | ⟨-, request, heq⟩
      · exact ⟨_, heq, rfl, rfl⟩
      · exact ⟨_, heq, rfl, rfl⟩
  obtain ⟨l, heq, hworking, hcompletions⟩ := hlane
  exact ⟨(congrArg Lane.working heq).trans hworking,
    (congrArg Lane.completions heq).trans hcompletions⟩

theorem activatePlaylist_worker (codec : Codec) (elapsed : Nat) (id : Option String)
    (s : ApplySystem) :
    (s.activatePlaylist codec elapsed id).working = s.working ∧
      (s.activatePlaylist codec elapsed id).completions = s.completions := by
  unfold ApplySystem.activatePlaylist
  dsimp only
  split <;> exact ⟨rfl, rfl⟩

theorem Credited.sessionStep {w : LaneSystem} (h : w.Credited) (e : ApplySystem.LaneEvent) :
    (w.sessionStep codec config e).Credited := by
  unfold LaneSystem.sessionStep
  split
  next => exact h
  next => exact h
  next quarantined _ _ =>
    obtain ⟨hworking, hnone⟩ := tickSession_worker codec config e.elapsed
      quarantined (some (.ok (status w.supervisor))) w.session
    exact h.session hworking fun outcome hmem => by rw [hnone] at hmem; cases hmem
  next =>
    unfold ApplySystem.step
    cases haction : e.action with
    | tick quarantined answered =>
      obtain ⟨hworking, hnone⟩ := tickSession_worker codec config e.elapsed
        quarantined answered w.session
      exact h.session hworking fun outcome hmem => by rw [hnone] at hmem; cases hmem
    | activate id =>
      obtain ⟨hworking, hkept⟩ := activatePlaylist_worker codec e.elapsed id w.session
      exact h.session hworking fun outcome hmem => hkept ▸ hmem
    | take => simp_all
    | finish result => simp_all
    | _ => exact h.session rfl fun outcome hmem => hmem

/-- What the session dispatches carries the wallpaper that it has on record. -/
def Dispatches (cfg : Config) (codec : Codec) (config : LaneConfig) (w : LaneSystem) (e : Event) :
    Prop :=
  ∀ request ∈ (step cfg codec config w e).session.requests, request ∈ w.session.requests ∨
    request.applied = (step cfg codec config w e).session.apply.appliedWallpaper

theorem Credited.step {w : LaneSystem} (h : w.Credited) (e : Event) :
    (step cfg codec config w e).Credited := by
  cases e with
  | session e => exact h.sessionStep e
  | lane move => exact h.move move
  | user move =>
    cases move <;> dsimp only [LaneSystem.step, LaneSystem.userMove] <;> split <;>
      exact ⟨h.working, h.done, h.completions⟩
  | serve io => exact h.serve io
  | direct input => exact ⟨h.working, h.done, h.completions⟩

theorem move_recorded (w : LaneSystem) (move : LaneMove) :
    (w.move move).session.apply = w.session.apply := by
  cases move with
  | take =>
    dsimp only [LaneSystem.move]
    split
    next =>
      unfold ApplySystem.take
      split <;> rfl
    next => rfl
  | post =>
    dsimp only [LaneSystem.move]
    split
    next =>
      split
      next =>
        unfold ApplySystem.finish
        repeat' split
        all_goals rfl
      next => rfl
    next => rfl
  | _ =>
    dsimp only [LaneSystem.move]
    repeat' split
    all_goals rfl

theorem serve_recorded (cfg : Config) (w : LaneSystem) (io : Io) :
    (w.serve cfg io).session = w.session := by
  have hreply : ∀ (v : LaneSystem) (sent : LaneStart) (replied : Option Supervisor.Reply),
      (v.reply sent replied).session = v.session := by
    intro v sent replied
    unfold LaneSystem.reply
    repeat' split
    all_goals rfl
  have hanswer : ∀ (v : LaneSystem) (serial : Nat), (v.answer serial).session = v.session := by
    intro v serial
    unfold LaneSystem.answer
    dsimp only
    repeat' split
    all_goals rfl
  unfold LaneSystem.serve
  split
  next => rfl
  next command queue _ =>
    cases command with
    | status serial => exact hanswer _ serial
    | start sent => exact hreply _ sent _
    | stop => rfl
    | user command => rfl

/-- A step of the session that is no tick records nothing. -/
theorem sessionStep_recorded {w : LaneSystem} {e : ApplySystem.LaneEvent} {id : String}
    (h : (w.sessionStep codec config e).session.apply.appliedWallpaper = some id) :
    w.session.apply.appliedWallpaper = some id ∨ ⟨id, .ok ()⟩ ∈ w.session.completions ∨
      (w.sessionStep codec config e).session.session.entry = some id ∧
        FoundLive (status w.supervisor) id := by
  unfold LaneSystem.sessionStep at h ⊢
  split at h
  next => exact Or.inl h
  next => exact Or.inl h
  next =>
    rcases ApplySystem.tickSession_applied h with hold | hreported | ⟨hentry, answered, heq, hlive⟩
    · exact Or.inl hold
    · exact Or.inr (Or.inl hreported)
    · cases heq
      exact Or.inr (Or.inr ⟨hentry, hlive⟩)
  next hnone =>
    unfold ApplySystem.step at h ⊢
    cases haction : e.action with
    | tick quarantined answered =>
      simp only [haction] at h hnone ⊢
      rcases ApplySystem.tickSession_applied h with
        hold | hreported | ⟨hentry, status, rfl, -⟩
      · exact Or.inl hold
      · exact Or.inr (Or.inl hreported)
      · exact absurd rfl (hnone _ _)
    | activate id' =>
      simp only [haction] at h
      unfold ApplySystem.activatePlaylist at h
      dsimp only at h
      split at h
      next => cases h
      next => exact Or.inl h
    | take => simp_all
    | finish result => simp_all
    | _ =>
      simp only [haction] at h
      exact Or.inl h

theorem earns_of_credited {w : LaneSystem} (h : w.Credited) (e : Event) :
    Earns cfg codec config w e := by
  intro id hid
  cases e with
  | session e =>
    rcases sessionStep_recorded hid with hold | hreported | hlive
    · exact Or.inl hold
    · exact Or.inr (Or.inl (h.completions id hreported))
    · exact Or.inr (Or.inr hlive)
  | lane move => exact Or.inl (move_recorded w move ▸ hid)
  | user move =>
    refine Or.inl ?_
    cases move <;> dsimp only [LaneSystem.step, LaneSystem.userMove] at hid <;>
      split at hid <;> exact hid
  | serve io => exact Or.inl (serve_recorded cfg w io ▸ hid)
  | direct input => exact Or.inl hid

theorem sessionStep_requests {w : LaneSystem} {e : ApplySystem.LaneEvent}
    {request : ApplyRequest} (h : request ∈ (w.sessionStep codec config e).session.requests) :
    request ∈ w.session.requests ∨
      request.applied = (w.sessionStep codec config e).session.apply.appliedWallpaper := by
  unfold LaneSystem.sessionStep at h ⊢
  split at h
  next => exact Or.inl h
  next => exact Or.inl h
  next => exact ApplySystem.tickSession_requests h
  next =>
    unfold ApplySystem.step at h ⊢
    cases haction : e.action with
    | tick quarantined answered =>
      simp only [haction] at h ⊢
      exact ApplySystem.tickSession_requests h
    | activate id =>
      simp only [haction] at h
      unfold ApplySystem.activatePlaylist at h
      dsimp only at h
      split at h <;> exact Or.inl h
    | take => simp_all
    | finish result => simp_all
    | _ =>
      simp only [haction] at h
      exact Or.inl h

theorem move_requests {w : LaneSystem} {move : LaneMove} {request : ApplyRequest}
    (h : request ∈ (w.move move).session.requests) : request ∈ w.session.requests := by
  cases move with
  | take =>
    dsimp only [LaneSystem.move] at h
    split at h
    next =>
      unfold ApplySystem.take at h
      split at h
      next first requests _ hrequests =>
        rw [hrequests]
        exact List.mem_cons_of_mem _ h
      next => exact h
    next => exact h
  | post =>
    dsimp only [LaneSystem.move] at h
    split at h
    next =>
      split at h
      next =>
        unfold ApplySystem.finish at h
        repeat' split at h
        all_goals exact h
      next => exact h
    next => exact h
  | _ =>
    dsimp only [LaneSystem.move] at h
    repeat' split at h
    all_goals exact h

theorem dispatches (w : LaneSystem) (e : Event) : Dispatches cfg codec config w e := by
  intro request hmem
  cases e with
  | session e => exact sessionStep_requests hmem
  | lane move => exact Or.inl (move_requests hmem)
  | user move =>
    refine Or.inl ?_
    cases move <;> dsimp only [LaneSystem.step, LaneSystem.userMove] at hmem <;>
      split at hmem <;> exact hmem
  | serve io => exact Or.inl (serve_recorded cfg w io ▸ hmem)
  | direct input => exact Or.inl hmem

/-- What the lane and the session owe the user: no start of the lane displaces
a renderer that is neither its own entry nor what the session had on record,
and the session records what its lane applied or what it finds live. -/
structure Yields (cfg : Config) (codec : Codec) (config : LaneConfig) (w : LaneSystem)
    (e : Event) : Prop where
  precedes : w.Precedes e
  dispatches : Dispatches cfg codec config w e
  earns : Earns cfg codec config w e

/-- **A user's choice beats the playlist's**, in every run in which nothing
brings a foreign renderer between the lane's reading of the status and its
start. -/
theorem yields_of_undisturbed (cfg : Config) (codec : Codec) (config : LaneConfig)
    (persisted : Supervisor.PersistedState) (validIds : List String) (elapsed : Nat)
    (definitions : Except String (List Playlist)) (loaded : LoadedState) (events : List Event)
    (h : Runs.Along (step cfg codec config) (Undisturbed cfg)
      (new persisted (.new validIds elapsed definitions loaded)) events) :
    Runs.Along (step cfg codec config) (Yields cfg codec config)
      (new persisted (.new validIds elapsed definitions loaded)) events := by
  refine Runs.along_of_invariant
    (I := fun w : LaneSystem => w.Ordered ∧ w.Clear ∧ w.Credited) ?_ ?_
    ⟨ordered_new _ _, nofun, credited_new _ rfl⟩ h
  · exact fun w e hw he => ⟨hw.1.step e, hw.2.1.step hw.1 he, hw.2.2.step e⟩
  · exact fun w e hw _ => ⟨precedes_of_clear hw.2.1 e, dispatches w e, earns_of_credited hw.2.2 e⟩

/-! ## A start between the reading and the start -/

/-- The session dispatches its first apply, and the lane asks for the status. -/
def asking : List Event :=
  [.session ⟨.tick none (some (.ok (status (.new .empty)))), 0, .ok ()⟩, .lane .take,
    .lane .acquire, .lane (.ask false)]

/-- The start that the lane sends for the only wallpaper. -/
def startW : StartSpec := .sample "w" (by decide)

/-- The first request carries no wallpaper of the session. -/
theorem first_dispatch (codec : Codec) :
    ∃ request : ApplyRequest, request.wallpaperId = "w" ∧ request.applied = none ∧
      (ApplySystem.beforeSwitch.tickSession codec ⟨none, true⟩ 0 none
        (some (.ok (status (.new .empty))))).lane =
          ApplySystem.beforeSwitch.lane.dispatch request := by
  obtain ⟨request, hid, hlane⟩ := ApplySystem.beforeSwitch_dispatches codec .empty
  refine ⟨request, hid, ?_, hlane⟩
  have hmem : request ∈ (ApplySystem.beforeSwitch.tickSession codec ⟨none, true⟩ 0 none
      (some (.ok (status (.new .empty))))).requests := by
    rw [show ApplySystem.requests _ = _ from congrArg Lane.requests hlane]
    exact List.mem_append_right _ (List.mem_singleton_self _)
  rcases ApplySystem.tickSession_requests hmem with hold | happlied
  · cases hold
  · rw [happlied]
    cases hrecorded : (ApplySystem.beforeSwitch.tickSession codec ⟨none, true⟩ 0 none
        (some (.ok (status (.new .empty))))).apply.appliedWallpaper with
    | none => rfl
    | some id =>
      rcases ApplySystem.tickSession_applied hrecorded with
        hold | hreported | ⟨-, answered, heq, hlive⟩
      · cases hold
      · cases hreported
      · cases heq
        cases hlive.requested

theorem run_asking (codec : Codec) :
    ∃ session request, request.wallpaperId = "w" ∧ request.applied = none ∧
      Runs.run (step .sample codec ⟨none, true⟩) (new .empty ApplySystem.beforeSwitch) asking =
        { new .empty session with
          queue := [.status 0]
          lock := some .playlist
          stage := .reading 0 request
          serial := 1 } := by
  obtain ⟨request, hid, happlied, hlane⟩ := first_dispatch codec
  have hworking := congrArg Lane.working hlane
  have hrequests := congrArg Lane.requests hlane
  unfold asking
  rw [Runs.run_cons, Runs.run_cons, Runs.run_cons, Runs.run_cons, Runs.run_nil]
  simp only [step, sessionStep, new]
  generalize ApplySystem.beforeSwitch.tickSession codec ⟨none, true⟩ 0 none
    (some (.ok (status (.new .empty)))) = session at hworking hrequests
  have htake : session.take = { session with working := some request, requests := [] } := by
    have hworking : session.working = none := hworking
    have hrequests : session.requests = [request] := hrequests
    simp only [ApplySystem.take, hworking, hrequests]
  refine ⟨session.take, request, hid, happlied, ?_⟩
  simp only [LaneSystem.move, htake]
  rfl

/-- A start of another wallpaper comes between the reading and the start. -/
theorem start_displaces :
    ¬ Runs.Along (step .sample serdeCodec ⟨none, true⟩) (Yields .sample serdeCodec ⟨none, true⟩)
      (new .empty ApplySystem.beforeSwitch)
      (asking ++ [.serve (.quiet 0), .direct (.start Supervisor.specA (.quiet 0)),
        .lane (.send startW false), .serve (.quiet 0)]) := by
  obtain ⟨session, ⟨output, id, entries, applied⟩, rfl, rfl, hrun⟩ := run_asking serdeCodec
  rw [Runs.along_append, hrun]
  rintro ⟨-, -, -, -, hyields, -⟩
  refine hyields.precedes (.quiet 0) ⟨1, ⟨output, "w", entries, none⟩, startW, true⟩ [] rfl rfl
    rfl ?_
  rw [foreign_iff]
  refine ⟨rfl, ?_, ?_⟩
  · show some "a" ≠ some "w"
    decide
  · show some "a" ≠ none
    decide

/-- Nothing comes between. -/
theorem undisturbed_start :
    Runs.Along (step .sample serdeCodec ⟨none, true⟩) (Undisturbed .sample)
      (new .empty ApplySystem.beforeSwitch)
      (asking ++ [.serve (.quiet 0), .lane (.send startW false), .serve (.quiet 0)]) := by
  obtain ⟨session, ⟨output, id, entries, applied⟩, rfl, rfl, hrun⟩ := run_asking serdeCodec
  rw [Runs.along_append, hrun]
  refine ⟨⟨trivial, nofun, nofun, nofun, trivial⟩, ?_, nofun, ?_, trivial⟩
  · intro command queue input hqueue hinput
    cases hqueue
    cases hinput
  · intro command queue input hqueue hinput request hmem
    cases hqueue
    cases hmem

theorem yields_undisturbed_start :
    Runs.Along (step .sample serdeCodec ⟨none, true⟩) (Yields .sample serdeCodec ⟨none, true⟩)
      (new .empty ApplySystem.beforeSwitch)
      (asking ++ [.serve (.quiet 0), .lane (.send startW false), .serve (.quiet 0)]) :=
  yields_of_undisturbed .sample serdeCodec ⟨none, true⟩ .empty ["w"] 0
    (.ok [ApplySystem.single "a", ApplySystem.single "b"]) ⟨some "a", ∅, false⟩ _ undisturbed_start

end LaneSystem

end Kwe.Playlists
