import Kwe.Foundation.Runs

/-!
The preview of a web wallpaper: one sandbox process, which is started for what was played
last and started anew when the network grant of that wallpaper changes.

* `step_inv`: what every step keeps that comes in time;
* `preview_right`: in runs of such steps the sandbox is that of the last command, with the
  network that is granted;
* `nothing_plays`, `stopped_plays`: a wallpaper that is played over another, and a grant
  that changes while a stopped sandbox is ending.
-/

namespace Kwe.Manager.Previews

open Foundation Foundation.Runs

/-! ## The mirror of the grants -/

inductive Permission
  | network | audio | pointer
  deriving DecidableEq, Repr

structure Record where
  network : Bool
  audio : Bool
  pointer : Bool
  deriving DecidableEq, Repr

def Record.get (r : Record) : Permission → Bool
  | .network => r.network
  | .audio => r.audio
  | .pointer => r.pointer

/-! ## The process -/

variable {Url Id : Type}

/-- A sandbox: the page and the wallpaper it was started for, and whether it has the
network. -/
structure Instance (Url Id : Type) where
  url : Url
  id : Id
  network : Bool
  deriving DecidableEq, Repr

/-- A `QProcess`; `ending` when it has been killed or asked to terminate. -/
inductive Process (Url Id : Type)
  | notRunning
  | starting (i : Instance Url Id) (ending : Bool)
  | running (i : Instance Url Id) (ending : Bool)
  deriving DecidableEq, Repr

namespace Process

def isRunning : Process Url Id → Bool
  | .notRunning => false
  | .starting .. | .running .. => true

/-- `kill` and `terminate`. -/
def signal : Process Url Id → Process Url Id
  | .notRunning => .notRunning
  | .starting i _ => .starting i true
  | .running i _ => .running i true

/-- A process that is not `NotRunning` refuses to be started. -/
def start (i : Instance Url Id) : Process Url Id → Process Url Id
  | .notRunning => .starting i false
  | p => p

def isEnding : Process Url Id → Bool
  | .notRunning => false
  | .starting _ ending | .running _ ending => ending

/-- No event of the process is outstanding. -/
def quiet : Process Url Id → Bool
  | .notRunning => true
  | .starting .. => false
  | .running _ ending => !ending

def instance? : Process Url Id → Option (Instance Url Id)
  | .notRunning => none
  | .starting i _ | .running i _ => some i

end Process

/-! ## The preview -/

inductive Command (Url Id : Type)
  | play (url : Url) (id : Id)
  | stop
  deriving DecidableEq, Repr

/-- The preview with the mirror, the last command, and whether a sandbox has exited by
itself since. -/
structure Preview (Url Id : Type) where
  process : Process Url Id
  url : Option Url
  wallpaperId : Option Id
  networkAllowed : Bool
  pendingRelaunch : Bool
  grants : Id → Option Record
  last : Option (Command Url Id)
  exitedItself : Bool

def Preview.new : Preview Url Id where
  process := .notRunning
  url := none
  wallpaperId := none
  networkAllowed := false
  pendingRelaunch := false
  grants := fun _ => none
  last := none
  exitedItself := false

inductive Event (Url Id : Type)
  /-- `play` of a local `index.html`. -/
  | play (url : Url) (id : Id)
  | stop
  /-- The client mirrors a record of the daemon. -/
  | granted (id : Id) (record : Record)
  | started
  | exited

namespace Preview

def isGranted (w : Preview Url Id) (id : Id) (permission : Permission) : Bool :=
  ((w.grants id).map (·.get permission)).getD false

def kill (w : Preview Url Id) : Preview Url Id := { w with process := w.process.signal }

def launch (w : Preview Url Id) : Preview Url Id :=
  match w.url, w.wallpaperId with
  | some url, some id =>
    let w := { w with pendingRelaunch := false, networkAllowed := w.isGranted id .network }.kill
    { w with process := w.process.start ⟨url, id, w.networkAllowed⟩ }
  | _, _ => w

def play (url : Url) (id : Id) (w : Preview Url Id) : Preview Url Id :=
  { w with
    url := some url
    wallpaperId := some id
    last := some (.play url id)
    exitedItself := false }.launch

def stop (w : Preview Url Id) : Preview Url Id :=
  { w with pendingRelaunch := false, last := some .stop }.kill

variable [DecidableEq Id]

def wantsGrantRelaunch (permission : Permission) (wallpaperId : Id) (previewId : Option Id)
    (running granted networkAllowed : Bool) : Bool :=
  permission = .network && previewId = some wallpaperId && running && granted != networkAllowed

def grantedChanged (id : Id) (permission : Permission) (granted : Bool) (w : Preview Url Id) :
    Preview Url Id :=
  if wantsGrantRelaunch permission id w.wallpaperId w.process.isRunning granted w.networkAllowed then
    { w with pendingRelaunch := true }.kill
  else w

/-- `applyGranted`, with a signal for each permission that changes. -/
def applyGranted (id : Id) (record : Record) (w : Preview Url Id) : Preview Url Id :=
  let previous := w.grants id
  if previous = some record then w
  else
    [Permission.network, .audio, .pointer].foldl
      (fun w name =>
        if ((previous.map (·.get name)).getD false) ≠ record.get name then
          w.grantedChanged id name (record.get name)
        else w)
      { w with grants := Function.update w.grants id (some record) }

def started (w : Preview Url Id) : Preview Url Id :=
  match w.process with
  | .starting i ending => { w with process := .running i ending }
  | _ => w

/-- The process has died; a relaunch was waiting for that. -/
def exited (w : Preview Url Id) : Preview Url Id :=
  match w.process with
  | .notRunning => w
  | .starting _ ending | .running _ ending =>
    let w := { w with process := .notRunning, exitedItself := w.exitedItself || !ending }
    if w.pendingRelaunch then w.launch else w

def step (w : Preview Url Id) : Event Url Id → Preview Url Id
  | .play url id => w.play url id
  | .stop => w.stop
  | .granted id record => w.applyGranted id record
  | .started => w.started
  | .exited => w.exited

end Preview

/-! ## What is right -/

/-- What holds when no event of the process is outstanding. -/
structure Right (w : Preview Url Id) : Prop where
  played : ∀ url id, w.last = some (.play url id) → w.exitedItself = false →
    w.process = .running ⟨url, id, w.isGranted id .network⟩ false
  stopped : w.last = some .stop → w.process = .notRunning
  revoked : ∀ i, w.process.instance? = some i → i.network = true →
    w.isGranted i.id .network = true

/-- A step that comes while a sandbox is still there that it does not wait for: a play over
another one, and a change of the grant that wants a relaunch of one that was stopped. -/
def Late [DecidableEq Id] (w : Preview Url Id) : Event Url Id → Prop
  | .play .. => w.process.isRunning = true
  | .granted id record => w.last = some .stop ∧ w.isGranted id .network ≠ record.network ∧
      Preview.wantsGrantRelaunch .network id w.wallpaperId w.process.isRunning record.network
        w.networkAllowed = true
  | _ => False

/-! ## The invariant -/

/-- The sandbox that was played, its relaunch, or none that has exited. -/
structure Playing (w : Preview Url Id) (page : Url) (id : Id) : Prop where
  url : w.url = some page
  wallpaperId : w.wallpaperId = some id
  made : ∀ i, w.process.instance? = some i → i = ⟨page, id, w.networkAllowed⟩
  ending : w.process.isRunning = true → w.process.isEnding = w.pendingRelaunch
  granted : w.process.isRunning = true → w.pendingRelaunch = false →
    w.networkAllowed = w.isGranted id .network
  ended : w.process = .notRunning → w.pendingRelaunch = false ∧ w.exitedItself = true

/-- A sandbox that was stopped is ending. -/
structure Stopped (w : Preview Url Id) : Prop where
  ending : w.process.isRunning = true → w.process.isEnding = true
  pending : w.pendingRelaunch = false

def Inv (w : Preview Url Id) : Prop :=
  match w.last with
  | none => w.process = .notRunning ∧ w.pendingRelaunch = false
  | some .stop => Stopped w
  | some (.play url id) => Playing w url id

theorem inv_none {w : Preview Url Id} (h : w.last = none) :
    Inv w ↔ w.process = .notRunning ∧ w.pendingRelaunch = false := by
  simp [Inv, h]

theorem inv_stop {w : Preview Url Id} (h : w.last = some .stop) : Inv w ↔ Stopped w := by
  simp [Inv, h]

theorem inv_play {w : Preview Url Id} {url : Url} {id : Id} (h : w.last = some (.play url id)) :
    Inv w ↔ Playing w url id := by
  simp [Inv, h]

/-! ## Grants -/

section Grants

variable [DecidableEq Id]

theorem grantedChanged_other {w : Preview Url Id} {id : Id} {permission : Permission}
    (h : permission ≠ .network) (granted : Bool) : w.grantedChanged id permission granted = w := by
  simp [Preview.grantedChanged, Preview.wantsGrantRelaunch, h]

/-- The mirror after a record. -/
def Preview.mirrored (w : Preview Url Id) (id : Id) (record : Record) : Preview Url Id :=
  { w with grants := Function.update w.grants id (some record) }

/-- Only a change of the network grant has an effect beside the mirror. -/
theorem applyGranted_eq (w : Preview Url Id) (id : Id) (record : Record) :
    w.applyGranted id record =
      if w.isGranted id .network ≠ record.network then
        (w.mirrored id record).grantedChanged id .network record.network
      else w.mirrored id record := by
  unfold Preview.applyGranted
  dsimp only
  split
  next hsame =>
    have hnetwork : w.isGranted id .network = record.network := by
      simp [Preview.isGranted, hsame, Record.get]
    rw [if_neg (not_not.mpr hnetwork), Preview.mirrored, ← hsame, Function.update_eq_self]
  next =>
    have hother (w : Preview Url Id) (b : Prop) [Decidable b] (permission : Permission)
        (h : permission ≠ .network) (granted : Bool) :
        (if b then w.grantedChanged id permission granted else w) = w := by
      rw [grantedChanged_other h, ite_self]
    simp only [List.foldl_cons, List.foldl_nil]
    rw [hother _ _ .pointer (by decide), hother _ _ .audio (by decide)]
    rfl

theorem isGranted_mirrored (w : Preview Url Id) (id other : Id) (record : Record) :
    (w.mirrored id record).isGranted other .network =
      if other = id then record.network else w.isGranted other .network := by
  by_cases hsame : other = id
  · simp [Preview.isGranted, Preview.mirrored, hsame, Record.get]
  · simp [Preview.isGranted, Preview.mirrored, hsame]

end Grants

/-! ## Steps -/

theorem signal_isRunning (p : Process Url Id) : p.signal.isRunning = p.isRunning := by
  cases p <;> rfl

theorem signal_isEnding (p : Process Url Id) : p.signal.isEnding = p.isRunning := by
  cases p <;> rfl

theorem signal_instance (p : Process Url Id) : p.signal.instance? = p.instance? := by
  cases p <;> rfl

theorem isRunning_eq_false {p : Process Url Id} : p.isRunning = false ↔ p = .notRunning := by
  cases p <;> simp [Process.isRunning]

/-- What is launched when nothing is running. -/
theorem launch_playing {w : Preview Url Id} {url : Url} {id : Id} (hprocess : w.process = .notRunning)
    (hurl : w.url = some url) (hid : w.wallpaperId = some id) :
    w.launch = { w with
      pendingRelaunch := false
      networkAllowed := w.isGranted id .network
      process := .starting ⟨url, id, w.isGranted id .network⟩ false } := by
  simp [Preview.launch, Preview.kill, hurl, hid, hprocess, Process.signal, Process.start]

theorem playing_launched {w : Preview Url Id} {url : Url} {id : Id}
    (hprocess : w.process = .notRunning) (hurl : w.url = some url) (hid : w.wallpaperId = some id) :
    Playing w.launch url id := by
  rw [launch_playing hprocess hurl hid]
  refine ⟨hurl, hid, ?_, fun _ => rfl, fun _ _ => rfl, nofun⟩
  rintro i ⟨⟩
  rfl

theorem launch_last (w : Preview Url Id) : w.launch.last = w.last := by
  unfold Preview.launch
  split <;> rfl

theorem started_inv {w : Preview Url Id} (h : Inv w) : Inv w.started := by
  unfold Preview.started
  split
  next i ending hprocess =>
    unfold Inv at h ⊢
    dsimp only
    split
    next hlast =>
      rw [hlast] at h
      simp [hprocess] at h
    next hlast =>
      rw [hlast] at h
      exact ⟨by simpa [hprocess, Process.isRunning, Process.isEnding] using h.ending, h.pending⟩
    next page id hlast =>
      rw [hlast] at h
      refine ⟨h.url, h.wallpaperId, ?_, ?_, ?_, nofun⟩
      · simpa [hprocess, Process.instance?] using h.made
      · simpa [hprocess, Process.isRunning, Process.isEnding] using h.ending
      · intro _ hpending
        exact h.granted (by simp [hprocess, Process.isRunning]) hpending
  next => exact h

theorem stop_inv (w : Preview Url Id) : Inv w.stop := by
  refine ⟨?_, rfl⟩
  intro h
  simpa [Preview.stop, Preview.kill, signal_isRunning, signal_isEnding] using h

/-- Nothing else is there when a wallpaper is played. -/
theorem play_inv {w : Preview Url Id} (h : w.process.isRunning = false) (url : Url) (id : Id) :
    Inv (w.play url id) := by
  unfold Inv Preview.play
  rw [launch_last]
  exact playing_launched (isRunning_eq_false.mp h) rfl rfl

/-- The process has died, and nothing else has changed. -/
def Preview.died (w : Preview Url Id) : Preview Url Id :=
  { w with
    process := .notRunning
    exitedItself := w.exitedItself || !w.process.isEnding }

theorem exited_eq (w : Preview Url Id) : w.exited =
    if w.process.isRunning then if w.pendingRelaunch then w.died.launch else w.died else w := by
  unfold Preview.exited Preview.died
  cases w.process <;> rfl

theorem exited_inv {w : Preview Url Id} (h : Inv w) : Inv w.exited := by
  rw [exited_eq]
  split
  next hrunning =>
    cases hlast : w.last with
    | none =>
      rw [inv_none hlast] at h
      simp [h.1, Process.isRunning] at hrunning
    | some command =>
      cases command with
      | stop =>
        rw [inv_stop hlast] at h
        rw [h.pending, if_neg Bool.false_ne_true]
        exact (inv_stop (w := w.died) hlast).mpr ⟨nofun, h.pending⟩
      | play url id =>
        rw [inv_play hlast] at h
        split
        next hpending =>
          exact (inv_play (w := w.died.launch) ((launch_last _).trans hlast)).mpr
            (playing_launched rfl h.url h.wallpaperId)
        next hpending =>
          rw [Bool.not_eq_true] at hpending
          have hending : w.process.isEnding = false := (h.ending hrunning).trans hpending
          exact (inv_play (w := w.died) hlast).mpr ⟨h.url, h.wallpaperId, nofun, nofun, nofun,
            fun _ => ⟨hpending, by simp [Preview.died, hending]⟩⟩
  next => exact h

theorem new_inv : Inv (.new : Preview Url Id) := ⟨rfl, rfl⟩

/-- What the invariant says of a quiet process. -/
theorem right_of_inv {w : Preview Url Id} (h : Inv w) (hquiet : w.process.quiet = true) :
    Right w := by
  cases hlast : w.last with
  | none =>
    rw [inv_none hlast] at h
    exact ⟨by simp [hlast], by simp [hlast], by simp [h.1, Process.instance?]⟩
  | some command =>
    cases command with
    | stop =>
      rw [inv_stop hlast] at h
      have hprocess : w.process = .notRunning := by
        have hending := h.ending
        cases hp : w.process <;> simp_all [Process.quiet, Process.isRunning, Process.isEnding]
      exact ⟨by simp [hlast], fun _ => hprocess, by simp [hprocess, Process.instance?]⟩
    | play url id =>
      rw [inv_play hlast] at h
      cases hprocess : w.process with
      | notRunning =>
        refine ⟨fun _ _ _ hexited => ?_, by simp [hlast], by simp [hprocess, Process.instance?]⟩
        rw [(h.ended hprocess).2] at hexited
        cases hexited
      | starting i ending => simp [hprocess, Process.quiet] at hquiet
      | running i ending =>
        obtain rfl : ending = false := by simpa [hprocess, Process.quiet] using hquiet
        have hrunning : w.process.isRunning = true := by rw [hprocess]; rfl
        have hpending : w.pendingRelaunch = false := by
          rw [← h.ending hrunning, hprocess]
          rfl
        have hmade := h.made i (by rw [hprocess]; rfl)
        rw [h.granted hrunning hpending] at hmade
        refine ⟨?_, by simp [hlast], ?_⟩
        · intro page other hplayed _
          rw [hlast] at hplayed
          cases hplayed
          rw [hprocess, hmade]
        · intro j hj hnetwork
          rw [hprocess] at hj
          obtain rfl := Option.some.inj hj
          rw [hmade] at hnetwork ⊢
          exact hnetwork

section Steps

variable [DecidableEq Id]

/-- The mirror has changed, and the sandbox already has the network of the wallpaper that
is played, or will get it. -/
theorem mirrored_inv {w : Preview Url Id} (h : Inv w) (id : Id) (record : Record)
    (hkept : w.isGranted id .network ≠ record.network →
      Preview.wantsGrantRelaunch .network id w.wallpaperId w.process.isRunning record.network
        w.networkAllowed = false) : Inv (w.mirrored id record) := by
  cases hlast : w.last with
  | none => exact (inv_none (w := w.mirrored id record) hlast).mpr ((inv_none hlast).mp h)
  | some command =>
    cases command with
    | stop =>
      rw [inv_stop hlast] at h
      exact (inv_stop (w := w.mirrored id record) hlast).mpr ⟨h.ending, h.pending⟩
    | play url other =>
      rw [inv_play hlast] at h
      refine (inv_play (w := w.mirrored id record) hlast).mpr
        ⟨h.url, h.wallpaperId, h.made, h.ending, ?_, h.ended⟩
      intro hrunning hpending
      have hold : w.networkAllowed = w.isGranted other .network := h.granted hrunning hpending
      rw [isGranted_mirrored]
      split
      next hsame =>
        by_contra hdiffer
        have hdiffer : w.networkAllowed ≠ record.network := hdiffer
        have hwants := hkept (by rw [← hsame, ← hold]; exact hdiffer)
        have hrunning : w.process.isRunning = true := hrunning
        simp [Preview.wantsGrantRelaunch, h.wallpaperId, hsame, hrunning, hdiffer.symm] at hwants
      next => exact hold

theorem granted_inv {w : Preview Url Id} (h : Inv w) (id : Id) (record : Record)
    (hkept : ¬ Late w (.granted id record)) : Inv (w.applyGranted id record) := by
  rw [applyGranted_eq]
  unfold Preview.grantedChanged
  split
  next hchanged =>
    split
    next hwants =>
      -- The sandbox that is to be started anew is that of the last play.
      have hrunning : w.process.isRunning = true := by
        simp only [Preview.wantsGrantRelaunch, Bool.and_eq_true] at hwants
        exact hwants.1.2
      cases hlast : w.last with
      | none =>
        rw [inv_none hlast] at h
        simp [h.1, Process.isRunning] at hrunning
      | some command =>
        cases command with
        | stop => exact absurd ⟨hlast, hchanged, hwants⟩ hkept
        | play url other =>
          rw [inv_play hlast] at h
          refine (inv_play (w := ({ w.mirrored id record with
            pendingRelaunch := true } : Preview Url Id).kill) hlast).mpr
            ⟨h.url, h.wallpaperId, ?_, ?_, nofun, ?_⟩
          · simpa [Preview.kill, Preview.mirrored, signal_instance] using h.made
          · intro hsignalled
            rw [Preview.kill, signal_isRunning] at hsignalled
            rw [Preview.kill, signal_isEnding, hsignalled]
          · intro hprocess
            rw [Preview.kill, ← isRunning_eq_false, signal_isRunning] at hprocess
            exact absurd (hrunning.symm.trans hprocess) nofun
    next hwants => exact mirrored_inv h id record fun _ => Bool.eq_false_iff.mpr hwants
  next hsame => exact mirrored_inv h id record fun hchanged => absurd hchanged hsame

/-- **One step.** -/
theorem step_inv {w : Preview Url Id} {e : Event Url Id} (h : Inv w) (hkept : ¬ Late w e) :
    Inv (w.step e) := by
  cases e with
  | play url id => exact play_inv (by simpa [Late] using hkept) url id
  | stop => exact stop_inv w
  | granted id record => exact granted_inv h id record hkept
  | started => exact started_inv h
  | exited => exact exited_inv h

/-- **Runs.**  While nothing comes late, whenever the process is quiet the sandbox is that of
the last play, with the network that is granted to it, nothing runs after a stop, and no
sandbox has a network that is not granted. -/
theorem preview_right (events : List (Event Url Id))
    (h : Along Preview.step (fun w e => ¬ Late w e) .new events)
    (hquiet : (run Preview.step .new events).process.quiet = true) :
    Right (run Preview.step .new events) :=
  right_of_inv (invariant_run (fun _ _ hs hkept => step_inv hs hkept) new_inv h) hquiet

end Steps

def allowed : Record := ⟨true, false, false⟩

theorem preview_right_granted : Right (run Preview.step (.new : Preview Nat Nat)
    [.play 0 7, .started, .granted 7 allowed, .exited, .started]) :=
  preview_right [.play 0 7, .started, .granted 7 allowed, .exited, .started]
    ⟨by simp [Late, Preview.new, Process.isRunning], id, fun h => absurd h.1 (by decide), id, id,
      trivial⟩ (by decide)

/-- Wallpaper 8 is played over wallpaper 7, and nothing runs. -/
theorem nothing_plays :
    let w : Preview Nat Nat := run Preview.step .new [.play 0 7, .started, .play 1 8, .exited]
    w.process.quiet = true ∧ w.last = some (.play 1 8) ∧ w.exitedItself = false ∧
      w.process = .notRunning := by
  decide

/-- The grant of a wallpaper changes while its sandbox, which was stopped, is ending. -/
theorem stopped_plays :
    let w : Preview Nat Nat := run Preview.step .new
      [.play 0 7, .started, .stop, .granted 7 allowed, .exited, .started]
    w.process.quiet = true ∧ w.last = some .stop ∧ w.process = .running ⟨0, 7, true⟩ false := by
  decide

end Kwe.Manager.Previews
