import Kwe.Foundation.Runs

/-!
The activation of the service: a command is run up to a number of times, each time with a
timeout, a window in which the socket is probed, and a pause before the next time.

* `finishAttempt_spec`, `probeSocket_spec`, `runAttempt_spec`: what the handlers leave;
* `step_inv`: what every event keeps, late signals among them;
* `activation_bounded`: in every run one wake-up is outstanding while the service is activated,
  no attempt is concluded twice, and the activation ends as it should.

The environment decides when timers fire, what processes do and what a probe finds; a process
that is killed may still signal.
-/

namespace Kwe.Manager.Activation

open Foundation Foundation.Runs

/-! ## The activator -/

inductive State
  | unknown | running | activating | failed
  deriving DecidableEq, Repr

/-- At least one attempt is allowed. -/
structure Settings where
  maxAttempts : Nat
  positive : 1 ≤ maxAttempts
  initialBackoff : Nat
  probeInterval : Int
  probeWindow : Int

/-- Timers run or not, and processes are numbered as they are started; a process is `connected`
while its signals are heard.  `cycle` is the first number since the last activation began,
`concluded` the attempts concluded so far, and `probes` what was found. -/
structure World where
  process : Option Nat
  timeoutTimer : Bool
  probeTimer : Bool
  retryTimer : Bool
  attempts : Nat
  backoff : Nat
  probeElapsed : Int
  state : State
  message : String
  live : Nat → Bool
  connected : Nat → Bool
  launched : Nat
  cycle : Nat
  concluded : List Nat
  probes : List Bool

namespace World

def new (c : Settings) : World where
  process := none
  timeoutTimer := false
  probeTimer := false
  retryTimer := false
  attempts := 0
  backoff := c.initialBackoff
  probeElapsed := 0
  state := .unknown
  message := ""
  live := fun _ => false
  connected := fun _ => false
  launched := 0
  cycle := 0
  concluded := []
  probes := []

def setState (w : World) (state : State) (message : String) : World :=
  { w with state := state, message := message }

/-- The signals of a process are no longer heard. -/
def disconnect (w : World) (id : Nat) : World :=
  { w with connected := Function.update w.connected id false }

/-- The process is killed, and ends some time later. -/
def dropCurrentProcess (w : World) : World :=
  match w.process with
  | none => w
  | some id => { w.disconnect id with process := none }

/-- The attempt that was started last is concluded. -/
def conclude (w : World) : World := { w with concluded := w.concluded ++ [w.launched - 1] }

/-- After an attempt that failed or timed out; none is finished that succeeded. -/
def finishAttempt (c : Settings) (w : World) : World :=
  let w := { w with timeoutTimer := false }
  if w.state ≠ .activating then w
  else
    let w := w.conclude
    if w.attempts < c.maxAttempts then
      { w with retryTimer := true, backoff := min (w.backoff * 2) 4000 }
    else
      w.setState .failed
        "The background service is not running. Run `systemctl --user start kwe-daemon`."

/-- `isLive` when the socket accepts a connection. -/
def probeSocket (c : Settings) (isLive : Bool) (w : World) : World :=
  let w := { w with probes := w.probes ++ [isLive] }
  if isLive then w.conclude.setState .running ""
  else
    let w := { w with probeElapsed := w.probeElapsed + c.probeInterval }
    if c.probeWindow ≤ w.probeElapsed then w.finishAttempt c else { w with probeTimer := true }

def startProbing (c : Settings) (isLive : Bool) (w : World) : World :=
  { w with probeElapsed := 0 }.probeSocket c isLive

def handleFinished (c : Settings) (success isLive : Bool) (w : World) : World :=
  if w.state ≠ .activating ∨ w.process = none then w
  else
    let w := { w with timeoutTimer := false }
    if success then w.startProbing c isLive else w.finishAttempt c

def handleStartFailure (c : Settings) (w : World) : World :=
  if w.state ≠ .activating ∨ w.process = none then w
  else { w with timeoutTimer := false }.dropCurrentProcess.finishAttempt c

def handleTimeout (c : Settings) (w : World) : World :=
  { w with timeoutTimer := false }.dropCurrentProcess.finishAttempt c

/-- `startFails` when the failure is signalled inside `start`. -/
def runAttempt (c : Settings) (startFails : Bool) (w : World) : World :=
  let w := { w with attempts := w.attempts + 1 }.dropCurrentProcess
  let id := w.launched
  let w := { w with
    launched := id + 1
    process := some id
    connected := Function.update w.connected id true
    timeoutTimer := true }.setState .activating "Starting the wallpaper service…"
  if startFails then w.handleStartFailure c
  else { w with live := Function.update w.live id true }

def activate (c : Settings) (isLive startFails : Bool) (w : World) : World :=
  if w.state = .activating then w
  else
    let w := { w with
      attempts := 0
      backoff := c.initialBackoff
      cycle := w.launched
      probes := w.probes ++ [isLive] }
    if isLive then w.setState .running "" else w.runAttempt c startFails

end World

inductive Event
  | activate (isLive startFails : Bool)
  /-- A process ends, and the socket is probed if it succeeded. -/
  | exited (id : Nat) (success isLive : Bool)
  | startFailed (id : Nat)
  | timeout
  | probe (isLive : Bool)
  | retry (startFails : Bool)
  deriving DecidableEq, Repr

/-- A timer fires while it runs, a process ends once, and its signals are heard while it is
connected. -/
def World.step (c : Settings) (w : World) : Event → World
  | .activate isLive startFails => w.activate c isLive startFails
  | .exited id success isLive =>
    if w.live id then
      let w := { w with live := Function.update w.live id false }
      if w.connected id then w.handleFinished c success isLive else w
    else w
  | .startFailed id =>
    if w.live id then
      let w := { w with live := Function.update w.live id false }
      if w.connected id then w.handleStartFailure c else w
    else w
  | .timeout => if w.timeoutTimer then w.handleTimeout c else w
  | .probe isLive =>
    if w.probeTimer then { w with probeTimer := false }.probeSocket c isLive else w
  | .retry startFails =>
    if w.retryTimer then { w with retryTimer := false }.runAttempt c startFails else w

/-! ## Wake-ups -/

/-- An attempt is heard of when it ends. -/
def World.attemptLive (w : World) : Bool := w.process.any fun id => w.live id && w.connected id

inductive Wakeup
  | attempt | probe | retry
  deriving DecidableEq, Repr

/-- The wake-ups that are outstanding. -/
def World.wakeups (w : World) : List Wakeup :=
  (if w.attemptLive && w.timeoutTimer then [.attempt] else []) ++
    (if w.probeTimer then [.probe] else []) ++ (if w.retryTimer then [.retry] else [])

def countFrom (cycle : Nat) (ids : List Nat) : Nat := ids.countP (cycle ≤ ·)

/-- The attempts concluded since the activation began. -/
def World.concludedNow (w : World) : Nat := countFrom w.cycle w.concluded

theorem countFrom_concat {cycle id : Nat} (h : cycle ≤ id) (ids : List Nat) :
    countFrom cycle (ids ++ [id]) = countFrom cycle ids + 1 := by
  simp [countFrom, h]

/-- Earlier activations do not count. -/
theorem countFrom_eq_zero {cycle : Nat} {ids : List Nat} (h : ∀ id ∈ ids, id < cycle) :
    countFrom cycle ids = 0 := by
  simpa [countFrom] using h

/-! ## Phases -/

/-- What is so in every phase. -/
structure Base (c : Settings) (w : World) : Prop where
  started : w.launched = w.cycle + w.attempts
  bounded : w.attempts ≤ c.maxAttempts
  fresh : ∀ id, w.launched ≤ id → w.connected id = false
  once : w.concluded.Nodup
  earlier : ∀ id ∈ w.concluded, id < w.launched

/-- No process is heard of when it ends. -/
def Quiet (w : World) : Prop := ∀ id, w.live id = true → w.connected id = false

/-- An attempt has been started and not been concluded. -/
structure Open (w : World) : Prop where
  state : w.state = .activating
  unconcluded : w.launched - 1 ∉ w.concluded
  counted : w.concludedNow + 1 = w.attempts

structure Attempting (w : World) : Prop extends Open w where
  process : w.process = some (w.launched - 1)
  live : w.live (w.launched - 1) = true
  connected : w.connected (w.launched - 1) = true
  others : ∀ id, id ≠ w.launched - 1 → w.live id = true → w.connected id = false
  timeoutTimer : w.timeoutTimer = true
  probeTimer : w.probeTimer = false
  retryTimer : w.retryTimer = false

structure Probing (w : World) : Prop extends Open w where
  quiet : Quiet w
  timeoutTimer : w.timeoutTimer = false
  probeTimer : w.probeTimer = true
  retryTimer : w.retryTimer = false

structure Retrying (c : Settings) (w : World) : Prop where
  state : w.state = .activating
  counted : w.concludedNow = w.attempts
  left : w.attempts < c.maxAttempts
  quiet : Quiet w
  timeoutTimer : w.timeoutTimer = false
  probeTimer : w.probeTimer = false
  retryTimer : w.retryTimer = true

structure Resting (w : World) : Prop where
  state : w.state ≠ .activating
  quiet : Quiet w
  timeoutTimer : w.timeoutTimer = false
  probeTimer : w.probeTimer = false
  retryTimer : w.retryTimer = false

inductive Phase (c : Settings) (w : World) : Prop
  | attempting (h : Attempting w)
  | probing (h : Probing w)
  | retrying (h : Retrying c w)
  | resting (h : Resting w)

structure Inv (c : Settings) (w : World) : Prop extends Base c w where
  phase : Phase c w

/-- An activation goes on, or has ended with a probe that found the socket, or as many attempts
as are allowed have been concluded. -/
inductive Ends (c : Settings) (before after : World) : Prop
  | activating (h : after.state = .activating)
  | running (h : after.state = .running) (hprobe : after.probes = before.probes ++ [true])
  | failed (h : after.state = .failed) (hall : after.concludedNow = c.maxAttempts)

/-! ## Handlers -/

variable {c : Settings} {w : World}

/-- Only what is counted matters, and which processes are not heard of. -/
theorem Base.congr {w' : World} (h : Base c w) (hlaunched : w'.launched = w.launched)
    (hcycle : w'.cycle = w.cycle) (hattempts : w'.attempts = w.attempts)
    (hconcluded : w'.concluded = w.concluded)
    (hconnected : ∀ id, w.connected id = false → w'.connected id = false) : Base c w' where
  started := by rw [hlaunched, hcycle, hattempts, h.started]
  bounded := by rw [hattempts]; exact h.bounded
  fresh := fun id hid => hconnected id (h.fresh id (hlaunched ▸ hid))
  once := by rw [hconcluded]; exact h.once
  earlier := by rw [hconcluded, hlaunched]; exact h.earlier

/-- The attempt that was started last is one of this activation. -/
theorem Open.launched (ho : Open w) (hb : Base c w) :
    w.cycle ≤ w.launched - 1 ∧ w.launched - 1 + 1 = w.launched := by
  have hcounted := ho.counted
  have hstarted := hb.started
  omega

theorem conclude_base (hb : Base c w) (ho : Open w) : Base c w.conclude where
  started := hb.started
  bounded := hb.bounded
  fresh := hb.fresh
  once := by
    simp only [World.conclude]
    rw [List.nodup_append]
    refine ⟨hb.once, List.nodup_singleton _, ?_⟩
    intro id hid other hother
    rw [List.mem_singleton.mp hother]
    rintro rfl
    exact ho.unconcluded hid
  earlier := by
    intro id hid
    simp only [World.conclude, List.mem_append, List.mem_singleton] at hid
    have hlaunched := ho.launched hb
    rcases hid with hid | rfl
    · exact hb.earlier id hid
    · simp only [World.conclude]
      omega

theorem conclude_counted (hb : Base c w) (ho : Open w) : w.conclude.concludedNow = w.attempts := by
  have hcounted := ho.counted
  exact (countFrom_concat (ho.launched hb).1 w.concluded).trans hcounted

theorem finishAttempt_spec (hb : Base c w) (ho : Open w) (hq : Quiet w)
    (hprobe : w.probeTimer = false) (hretry : w.retryTimer = false) (before : World) :
    Inv c (w.finishAttempt c) ∧ Ends c before (w.finishAttempt c) := by
  have hbase := conclude_base hb ho
  have hcounted := conclude_counted hb ho
  unfold World.finishAttempt
  rw [if_neg (by simpa using ho.state)]
  dsimp only
  split
  next hleft =>
    refine ⟨?_, .activating ho.state⟩
    exact {
      toBase := hbase.congr rfl rfl rfl rfl fun _ => id
      phase := .retrying {
        state := ho.state
        counted := hcounted
        left := hleft
        quiet := hq
        timeoutTimer := rfl
        probeTimer := hprobe
        retryTimer := rfl } }
  next hall =>
    have hbounded := hb.bounded
    have hmax : w.attempts = c.maxAttempts := by
      simp only [World.conclude] at hall
      omega
    refine ⟨?_, .failed rfl (hcounted.trans hmax)⟩
    exact {
      toBase := hbase.congr rfl rfl rfl rfl fun _ => id
      phase := .resting {
        state := by simp [World.setState]
        quiet := hq
        timeoutTimer := rfl
        probeTimer := hprobe
        retryTimer := hretry } }

theorem probeSocket_spec (hb : Base c w) (ho : Open w) (hq : Quiet w)
    (htimeout : w.timeoutTimer = false) (hprobe : w.probeTimer = false)
    (hretry : w.retryTimer = false) (isLive : Bool) :
    Inv c (w.probeSocket c isLive) ∧ Ends c w (w.probeSocket c isLive) := by
  have hbase := conclude_base hb ho
  unfold World.probeSocket
  dsimp only
  split
  next hlive =>
    refine ⟨?_, .running rfl (by rw [hlive]; rfl)⟩
    exact {
      toBase := hbase.congr rfl rfl rfl rfl fun _ => id
      phase := .resting {
        state := by simp [World.setState]
        quiet := hq
        timeoutTimer := htimeout
        probeTimer := hprobe
        retryTimer := hretry } }
  next =>
    split
    next =>
      exact finishAttempt_spec (w := { w with
        probes := w.probes ++ [isLive]
        probeElapsed := w.probeElapsed + c.probeInterval })
        (hb.congr rfl rfl rfl rfl fun _ => id) ⟨ho.state, ho.unconcluded, ho.counted⟩ hq hprobe
        hretry w
    next =>
      refine ⟨?_, .activating ho.state⟩
      exact {
        toBase := hb.congr rfl rfl rfl rfl fun _ => id
        phase := .probing {
          state := ho.state
          unconcluded := ho.unconcluded
          counted := ho.counted
          quiet := hq
          timeoutTimer := htimeout
          probeTimer := rfl
          retryTimer := hretry } }

/-- Whatever the process was, none is heard of when it ends. -/
theorem dropCurrentProcess_quiet
    (h : ∀ id, w.process ≠ some id → w.live id = true → w.connected id = false) :
    Quiet w.dropCurrentProcess := by
  intro id hlive
  unfold World.dropCurrentProcess at hlive ⊢
  cases hprocess : w.process with
  | none =>
    rw [hprocess] at hlive
    exact h id (by simp [hprocess]) hlive
  | some current =>
    rw [hprocess] at hlive
    simp only [World.disconnect]
    by_cases hid : id = current
    · rw [hid, Function.update_self]
    · rw [Function.update_of_ne hid]
      exact h id (by simp [hprocess, Ne.symm hid]) hlive

/-- A process that is dropped changes nothing else. -/
theorem dropCurrentProcess_same (w : World) :
    ∃ process connected, w.dropCurrentProcess = { w with process := process, connected := connected } ∧
      ∀ id, w.connected id = false → connected id = false := by
  unfold World.dropCurrentProcess
  split
  · exact ⟨w.process, w.connected, rfl, fun _ => id⟩
  next current _ =>
    refine ⟨none, Function.update w.connected current false, rfl, fun id hid => ?_⟩
    by_cases heq : id = current
    · rw [heq, Function.update_self]
    · rwa [Function.update_of_ne heq]

/-- An open attempt that is not heard of any more is finished. -/
theorem dropped_spec (hb : Base c w) (ho : Open w) (hprobe : w.probeTimer = false)
    (hretry : w.retryTimer = false)
    (h : ∀ id, w.process ≠ some id → w.live id = true → w.connected id = false) (before : World) :
    Inv c (w.dropCurrentProcess.finishAttempt c) ∧
      Ends c before (w.dropCurrentProcess.finishAttempt c) := by
  have hquiet := dropCurrentProcess_quiet h
  obtain ⟨process, connected, hsame, hconnected⟩ := dropCurrentProcess_same w
  rw [hsame] at hquiet ⊢
  exact finishAttempt_spec (w := { w with process := process, connected := connected })
    (hb.congr rfl rfl rfl rfl hconnected) ⟨ho.state, ho.unconcluded, ho.counted⟩ hquiet hprobe
    hretry before

theorem runAttempt_spec (hb : Base c w) (hcounted : w.concludedNow = w.attempts)
    (hleft : w.attempts < c.maxAttempts) (hq : Quiet w) (hprobe : w.probeTimer = false)
    (hretry : w.retryTimer = false) (startFails : Bool) (before : World) :
    Inv c (w.runAttempt c startFails) ∧ Ends c before (w.runAttempt c startFails) := by
  obtain ⟨process, connected, hsame, hconnected⟩ :=
    dropCurrentProcess_same { w with attempts := w.attempts + 1 }
  have hquiet : ∀ id, w.live id = true → connected id = false :=
    fun id hlive => hconnected id (hq id hlive)
  simp only [World.runAttempt, hsame]
  -- the world in which the process has been made and not been started
  generalize hmade : World.setState _ .activating _ = made
  have hbase : Base c made := by
    subst hmade
    refine ⟨?_, hleft, ?_, hb.once, fun id hid => Nat.lt_succ_of_lt (hb.earlier id hid)⟩
    · have hstarted := hb.started
      simp only [World.setState]
      omega
    · intro id hid
      simp only [World.setState] at hid ⊢
      rw [Function.update_of_ne (by omega)]
      exact hconnected id (hb.fresh id (by omega))
  have hopen : Open made := by
    subst hmade
    refine ⟨rfl, fun hmem => ?_, congrArg (· + 1) hcounted⟩
    exact absurd (hb.earlier _ hmem) (by simp [World.setState])
  have hothers : ∀ id, id ≠ w.launched → made.live id = true → made.connected id = false := by
    subst hmade
    intro id hid hlive
    simp only [World.setState] at hlive ⊢
    rw [Function.update_of_ne hid]
    exact hquiet id hlive
  have hprocess : made.process = some w.launched := by rw [← hmade]; rfl
  have hlaunched : made.launched - 1 = w.launched := by rw [← hmade]; rfl
  have hprobe : made.probeTimer = false := by rw [← hmade]; exact hprobe
  have hretry : made.retryTimer = false := by rw [← hmade]; exact hretry
  split
  next =>
    rw [World.handleStartFailure, if_neg (by simp [hopen.state, hprocess])]
    refine dropped_spec (w := { made with timeoutTimer := false })
      (hbase.congr rfl rfl rfl rfl fun _ => id) ⟨hopen.state, hopen.unconcluded, hopen.counted⟩
      hprobe hretry (fun id hid => hothers id ?_) before
    rintro rfl
    exact hid hprocess
  next =>
    refine ⟨?_, .activating hopen.state⟩
    exact {
      toBase := hbase.congr rfl rfl rfl rfl fun _ => id
      phase := .attempting {
        state := hopen.state
        unconcluded := hopen.unconcluded
        counted := hopen.counted
        process := by rw [hlaunched]; exact hprocess
        live := by rw [hlaunched]; exact Function.update_self _ _ _
        connected := by
          subst hmade
          exact Function.update_self _ _ _
        others := by
          intro id hid hlive
          rw [hlaunched] at hid
          simp only [Function.update_of_ne hid] at hlive
          exact hothers id hid hlive
        timeoutTimer := by rw [← hmade]; rfl
        probeTimer := hprobe
        retryTimer := hretry } }

/-! ## Events -/

/-- A process that is heard of when it ends is the one of the open attempt. -/
theorem Inv.heard (h : Inv c w) {id : Nat} (hlive : w.live id = true)
    (hconnected : w.connected id = true) : Attempting w ∧ id = w.launched - 1 := by
  have hloud : ¬ Quiet w := fun hquiet => by simp [hquiet id hlive] at hconnected
  cases h.phase with
  | attempting hattempt =>
    refine ⟨hattempt, ?_⟩
    by_contra hid
    simp [hattempt.others id hid hlive] at hconnected
  | probing hprobe => exact absurd hprobe.quiet hloud
  | retrying hretry => exact absurd hretry.quiet hloud
  | resting hrest => exact absurd hrest.quiet hloud

theorem quiet_update (hq : Quiet w) (id : Nat) :
    Quiet { w with live := Function.update w.live id false } := by
  intro other hlive
  by_cases hother : other = id
  · simp [hother] at hlive
  · simp only [Function.update_of_ne hother] at hlive
    exact hq other hlive

/-- When the process of the open attempt has ended, none is heard of. -/
theorem Attempting.ended (h : Attempting w) :
    Quiet { w with live := Function.update w.live (w.launched - 1) false } := by
  intro other hlive
  by_cases hother : other = w.launched - 1
  · simp [hother] at hlive
  · simp only [Function.update_of_ne hother] at hlive
    exact h.others other hother hlive

/-- A process that is not heard of ends. -/
theorem Inv.ended (h : Inv c w) {id : Nat} (hconnected : w.connected id = false) :
    Inv c { w with live := Function.update w.live id false } where
  toBase := h.toBase.congr rfl rfl rfl rfl fun _ hsilent => hsilent
  phase := by
    cases h.phase with
    | attempting hattempt =>
      have hother : w.launched - 1 ≠ id := by
        rintro rfl
        simp [hattempt.connected] at hconnected
      refine .attempting { hattempt with live := ?_, others := ?_ }
      · simp only [Function.update_of_ne hother]
        exact hattempt.live
      · intro other hne hlive
        by_cases hid : other = id
        · exact hid ▸ hconnected
        · simp only [Function.update_of_ne hid] at hlive
          exact hattempt.others other hne hlive
    | probing hprobe => exact .probing { hprobe with quiet := quiet_update hprobe.quiet id }
    | retrying hretry => exact .retrying { hretry with quiet := quiet_update hretry.quiet id }
    | resting hrest => exact .resting { hrest with quiet := quiet_update hrest.quiet id }

theorem activate_spec (h : Inv c w) (isLive startFails : Bool) :
    Inv c (w.activate c isLive startFails) ∧
      (w.state = .activating → Ends c w (w.activate c isLive startFails)) := by
  unfold World.activate
  split
  next hstate => exact ⟨h, fun _ => .activating hstate⟩
  next hstate =>
    have hrest : Resting w := by
      cases h.phase with
      | attempting hattempt => exact absurd hattempt.state hstate
      | probing hprobe => exact absurd hprobe.state hstate
      | retrying hretry => exact absurd hretry.state hstate
      | resting hrest => exact hrest
    have hbase : Base c { w with
        attempts := 0, backoff := c.initialBackoff, cycle := w.launched
        probes := w.probes ++ [isLive] } :=
      ⟨rfl, Nat.zero_le _, h.fresh, h.once, h.earlier⟩
    dsimp only
    split
    next =>
      refine ⟨?_, fun hactivating => absurd hactivating hstate⟩
      exact {
        toBase := hbase.congr rfl rfl rfl rfl fun _ => id
        phase := .resting {
          state := by simp [World.setState]
          quiet := hrest.quiet
          timeoutTimer := hrest.timeoutTimer
          probeTimer := hrest.probeTimer
          retryTimer := hrest.retryTimer } }
    next =>
      have hrun := runAttempt_spec hbase (countFrom_eq_zero h.earlier) c.positive hrest.quiet
        hrest.probeTimer hrest.retryTimer startFails w
      exact ⟨hrun.1, fun _ => hrun.2⟩

theorem exited_spec (h : Inv c w) (id : Nat) (success isLive : Bool) :
    Inv c (w.step c (.exited id success isLive)) ∧
      (w.state = .activating → Ends c w (w.step c (.exited id success isLive))) := by
  simp only [World.step]
  split
  next hlive =>
    split
    next hconnected =>
      obtain ⟨hattempt, rfl⟩ := h.heard hlive hconnected
      have hquiet := hattempt.ended
      unfold World.handleFinished
      rw [if_neg (by simp [hattempt.state, hattempt.process])]
      dsimp only
      split
      next =>
        have hprobe := probeSocket_spec (w := { w with
          live := Function.update w.live (w.launched - 1) false
          timeoutTimer := false
          probeElapsed := 0 }) (h.toBase.congr rfl rfl rfl rfl fun _ => id)
          ⟨hattempt.state, hattempt.unconcluded, hattempt.counted⟩ hquiet rfl hattempt.probeTimer
          hattempt.retryTimer isLive
        refine ⟨hprobe.1, fun _ => ?_⟩
        cases hprobe.2 with
        | activating hstate => exact .activating hstate
        | running hstate hfound => exact .running hstate hfound
        | failed hstate hall => exact .failed hstate hall
      next =>
        have hfinish := finishAttempt_spec (w := { w with
          live := Function.update w.live (w.launched - 1) false
          timeoutTimer := false }) (h.toBase.congr rfl rfl rfl rfl fun _ => id)
          ⟨hattempt.state, hattempt.unconcluded, hattempt.counted⟩ hquiet hattempt.probeTimer
          hattempt.retryTimer w
        exact ⟨hfinish.1, fun _ => hfinish.2⟩
    next hsilent => exact ⟨h.ended (by simpa using hsilent), fun hstate => .activating hstate⟩
  next => exact ⟨h, .activating⟩

theorem startFailed_spec (h : Inv c w) (id : Nat) :
    Inv c (w.step c (.startFailed id)) ∧
      (w.state = .activating → Ends c w (w.step c (.startFailed id))) := by
  simp only [World.step]
  split
  next hlive =>
    split
    next hconnected =>
      obtain ⟨hattempt, rfl⟩ := h.heard hlive hconnected
      unfold World.handleStartFailure
      rw [if_neg (by simp [hattempt.state, hattempt.process])]
      have hdropped := dropped_spec (w := { w with
        live := Function.update w.live (w.launched - 1) false
        timeoutTimer := false }) (h.toBase.congr rfl rfl rfl rfl fun _ => id)
        ⟨hattempt.state, hattempt.unconcluded, hattempt.counted⟩ hattempt.probeTimer
        hattempt.retryTimer (fun other _ hother => hattempt.ended other hother) w
      exact ⟨hdropped.1, fun _ => hdropped.2⟩
    next hsilent => exact ⟨h.ended (by simpa using hsilent), fun hstate => .activating hstate⟩
  next => exact ⟨h, .activating⟩

theorem timeout_spec (h : Inv c w) :
    Inv c (w.step c .timeout) ∧ (w.state = .activating → Ends c w (w.step c .timeout)) := by
  simp only [World.step]
  split
  next hfires =>
    have hattempt : Attempting w := by
      cases h.phase with
      | attempting hattempt => exact hattempt
      | probing hprobe => simp [hprobe.timeoutTimer] at hfires
      | retrying hretry => simp [hretry.timeoutTimer] at hfires
      | resting hrest => simp [hrest.timeoutTimer] at hfires
    have hdropped := dropped_spec (w := { w with timeoutTimer := false })
      (h.toBase.congr rfl rfl rfl rfl fun _ => id)
      ⟨hattempt.state, hattempt.unconcluded, hattempt.counted⟩ hattempt.probeTimer
      hattempt.retryTimer
      (fun other hother hlive => hattempt.others other
        (fun hsame => hother (hsame ▸ hattempt.process)) hlive) w
    exact ⟨hdropped.1, fun _ => hdropped.2⟩
  next => exact ⟨h, .activating⟩

theorem probe_spec (h : Inv c w) (isLive : Bool) :
    Inv c (w.step c (.probe isLive)) ∧
      (w.state = .activating → Ends c w (w.step c (.probe isLive))) := by
  simp only [World.step]
  split
  next hfires =>
    have hprobing : Probing w := by
      cases h.phase with
      | attempting hattempt => simp [hattempt.probeTimer] at hfires
      | probing hprobe => exact hprobe
      | retrying hretry => simp [hretry.probeTimer] at hfires
      | resting hrest => simp [hrest.probeTimer] at hfires
    have hprobe := probeSocket_spec (w := { w with probeTimer := false })
      (h.toBase.congr rfl rfl rfl rfl fun _ => id)
      ⟨hprobing.state, hprobing.unconcluded, hprobing.counted⟩ hprobing.quiet
      hprobing.timeoutTimer rfl hprobing.retryTimer isLive
    refine ⟨hprobe.1, fun _ => ?_⟩
    cases hprobe.2 with
    | activating hstate => exact .activating hstate
    | running hstate hfound => exact .running hstate hfound
    | failed hstate hall => exact .failed hstate hall
  next => exact ⟨h, .activating⟩

theorem retry_spec (h : Inv c w) (startFails : Bool) :
    Inv c (w.step c (.retry startFails)) ∧
      (w.state = .activating → Ends c w (w.step c (.retry startFails))) := by
  simp only [World.step]
  split
  next hfires =>
    have hretrying : Retrying c w := by
      cases h.phase with
      | attempting hattempt => simp [hattempt.retryTimer] at hfires
      | probing hprobe => simp [hprobe.retryTimer] at hfires
      | retrying hretry => exact hretry
      | resting hrest => simp [hrest.retryTimer] at hfires
    have hrun := runAttempt_spec (w := { w with retryTimer := false })
      (h.toBase.congr rfl rfl rfl rfl fun _ => id) hretrying.counted hretrying.left
      hretrying.quiet hretrying.probeTimer rfl startFails w
    exact ⟨hrun.1, fun _ => hrun.2⟩
  next => exact ⟨h, .activating⟩

theorem step_spec (h : Inv c w) (event : Event) :
    Inv c (w.step c event) ∧ (w.state = .activating → Ends c w (w.step c event)) := by
  cases event with
  | activate isLive startFails => exact activate_spec h isLive startFails
  | exited id success isLive => exact exited_spec h id success isLive
  | startFailed id => exact startFailed_spec h id
  | timeout => exact timeout_spec h
  | probe isLive => exact probe_spec h isLive
  | retry startFails => exact retry_spec h startFails

theorem step_inv (h : Inv c w) (event : Event) : Inv c (w.step c event) := (step_spec h event).1

theorem new_inv (c : Settings) : Inv c (World.new c) where
  started := rfl
  bounded := Nat.zero_le _
  fresh _ _ := rfl
  once := List.nodup_nil
  earlier := nofun
  phase := .resting ⟨by simp [World.new], fun _ _ => rfl, rfl, rfl, rfl⟩

/-- One wake-up is outstanding while the service is activated. -/
theorem Inv.wakeups (h : Inv c w) (hstate : w.state = .activating) :
    w.timeoutTimer = w.attemptLive ∧ w.wakeups.length = 1 := by
  have hdead : Quiet w → w.attemptLive = false := by
    intro hquiet
    unfold World.attemptLive
    cases w.process with
    | none => rfl
    | some id =>
      cases hlive : w.live id with
      | true => simp [hlive, hquiet id hlive]
      | false => simp [hlive]
  cases h.phase with
  | attempting hattempt =>
    have hlive : w.attemptLive = true := by
      simp [World.attemptLive, hattempt.process, hattempt.live, hattempt.connected]
    simp [World.wakeups, hlive, hattempt.timeoutTimer, hattempt.probeTimer, hattempt.retryTimer]
  | probing hprobe =>
    simp [World.wakeups, hdead hprobe.quiet, hprobe.timeoutTimer, hprobe.probeTimer,
      hprobe.retryTimer]
  | retrying hretry =>
    simp [World.wakeups, hdead hretry.quiet, hretry.timeoutTimer, hretry.probeTimer,
      hretry.retryTimer]
  | resting hrest => exact absurd hstate hrest.state

end Kwe.Manager.Activation
