import Kwe.Foundation.Runs

/-!
The main loop of the audio worker: `push_pending`, `refresh_generation` and the timers
between two requests to the daemon.

* `tick_cases`: what one turn of the loop sends and which timer it sets;
* `Inv.step`: what every turn keeps whose push is not answered in a way that no timer
  is set for;
* `requests_spaced`: how far apart the requests are.

Times are nanoseconds.  The windows are analysed by a parameter; the interval between two
emissions, which the code computes from floats, is another.
-/

namespace Kwe.Audio.Emission

open Foundation Foundation.Runs

def loopSleep : Nat := 20 * 1000000

def generationPoll : Nat := 500 * 1000000

def reconnectBase : Nat := 50 * 1000000

def reconnectMax : Nat := 1000 * 1000000

/-- What becomes of a push. -/
inductive PushAnswer
  | accepted
  | supervisorFailed
  /-- Any other answer that is not ok. -/
  | rejected
  /-- No answer. -/
  | failed
  deriving DecidableEq, Repr

/-- What becomes of `renderer.status`. -/
inductive StatusAnswer
  | generation (g : UInt64)
  | failed
  deriving DecidableEq, Repr

structure Worker (φ : Type) where
  pending : Option φ
  generation : UInt64
  requestSerial : UInt64
  framesDropped : Nat
  nextEmit : Nat
  nextGenerationPoll : Nat
  backoff : Nat

namespace Worker

variable {φ : Type}

def new (now : Nat) : Worker φ := ⟨none, 0, 0, 0, now, now, reconnectBase⟩

/-- A window that could be analysed replaces the frame that waits. -/
def analyze (w : Worker φ) : Option φ → Worker φ
  | none => w
  | some frame =>
    { w with
      pending := some frame
      framesDropped :=
        if w.pending.isSome then min (w.framesDropped + 1) (2 ^ 64 - 1) else w.framesDropped }

def serial (w : Worker φ) : Worker φ := { w with requestSerial := w.requestSerial + 1 }

/-- `refresh_generation`, when it is answered `now`. -/
def refreshGeneration (interval : Nat) (w : Worker φ) (now : Nat) : StatusAnswer → Worker φ
  | .generation g =>
    if g ≠ 0 then
      { w with generation := g, backoff := reconnectBase, nextEmit := now + interval }
    else { w with generation := g, nextGenerationPoll := now + generationPoll }
  | .failed => { w with nextGenerationPoll := now + generationPoll }

/-- `push_pending`, when it is answered `now`; a refresh that it needs comes after it. -/
def pushed (interval : Nat) (w : Worker φ) (now : Nat) : PushAnswer → Worker φ
  | .accepted => { w with pending := none, backoff := reconnectBase, nextEmit := now + interval }
  | .supervisorFailed | .rejected => w
  | .failed =>
    { w with nextEmit := now + w.backoff, backoff := min (w.backoff * 2) reconnectMax }

end Worker

/-! ## Runs -/

inductive Request (φ : Type)
  | push (sent : Nat) (generation : UInt64) (frame : φ)
  /-- `renderer.status`; `triggered` by the push before it, or by the loop. -/
  | status (sent : Nat) (triggered : Bool) (answer : StatusAnswer)

namespace Request

variable {φ : Type}

def sent : Request φ → Nat
  | push sent _ _ | status sent _ _ => sent

def triggered : Request φ → Bool
  | push _ _ _ => false
  | status _ triggered _ => triggered

def isPush : Request φ → Bool
  | push _ _ _ => true
  | status _ _ _ => false

/-- The generation that it reported. -/
def reported : Request φ → Option UInt64
  | push _ _ _ => none
  | status _ _ .failed => none
  | status _ _ (.generation g) => some g

end Request

/-- A turn of the loop: the windows, the answers, and how long everything takes. -/
structure Tick (φ : Type) where
  windows : List (Option φ)
  push : PushAnswer
  status : StatusAnswer
  /-- From the end of the sleep to the look at the clock. -/
  working : Nat
  /-- From there to the request, and to its answer. -/
  sending : Nat
  answering : Nat
  /-- From the answer to the refresh, and to its answer. -/
  probing : Nat
  reporting : Nat

/-- The worker, the clock when its next turn begins, and the requests so far. -/
structure World (φ : Type) where
  worker : Worker φ
  clock : Nat
  requests : List (Request φ)

namespace World

variable {φ : Type}

/-- The first refresh, before the loop. -/
def start (interval now sending answering : Nat) (answer : StatusAnswer) : World φ where
  worker := (Worker.new now).serial.refreshGeneration interval (now + sending + answering) answer
  clock := now + sending + answering
  requests := [.status (now + sending) false answer]

/-- The end of a turn. -/
def sleep (w : World φ) : World φ := { w with clock := w.clock + loopSleep }

def probe (interval : Nat) (triggered : Bool) (sending answering : Nat) (answer : StatusAnswer)
    (w : World φ) : World φ where
  worker := w.worker.serial.refreshGeneration interval (w.clock + sending + answering) answer
  clock := w.clock + sending + answering
  requests := w.requests ++ [.status (w.clock + sending) triggered answer]

def push (interval : Nat) (t : Tick φ) (frame : φ) (w : World φ) : World φ where
  worker := w.worker.serial.pushed interval (w.clock + t.sending + t.answering) t.push
  clock := w.clock + t.sending + t.answering
  requests := w.requests ++ [.push (w.clock + t.sending) w.worker.generation frame]

/-- The work of a turn up to its look at the clock. -/
def work (t : Tick φ) (w : World φ) : World φ :=
  { w with worker := t.windows.foldl Worker.analyze w.worker, clock := w.clock + t.working }

/-- The frame that a turn pushes when the clock has been looked at. -/
def due (w : World φ) : Option φ :=
  if w.worker.generation ≠ 0 ∧ w.worker.nextEmit ≤ w.clock then w.worker.pending else none

/-- The requests of a turn. -/
def request (interval : Nat) (t : Tick φ) (w : World φ) : World φ :=
  if w.worker.generation = 0 then
    if w.worker.nextGenerationPoll ≤ w.clock then
      w.probe interval false t.sending t.answering t.status
    else w
  else if w.worker.nextEmit ≤ w.clock then
    match w.worker.pending with
    | none => w
    | some frame =>
      let w := w.push interval t frame
      if t.push = .supervisorFailed then w.probe interval true t.probing t.reporting t.status
      else w
  else w

def step (interval : Nat) (w : World φ) (t : Tick φ) : World φ :=
  ((w.work t).request interval t).sleep

end World

/-- The least distance of two requests. -/
def gap (interval : Nat) : Nat := min interval (min reconnectBase generationPoll)

variable {φ : Type}

/-- A request comes long enough after the one before it, unless that is the push that
triggered it. -/
def Apart (gap : Nat) (r r' : Request φ) : Prop :=
  (r.isPush ∧ r'.triggered) ∨ r.sent + gap ≤ r'.sent

instance (gap : Nat) (r r' : Request φ) : Decidable (Apart gap r r') :=
  inferInstanceAs (Decidable (_ ∨ _))

/-- The generation most recently reported. -/
def latest : UInt64 → List (Request φ) → UInt64
  | g, [] => g
  | g, r :: requests => latest (r.reported.getD g) requests

/-- Every push carries the generation most recently reported. -/
def Carries : UInt64 → List (Request φ) → Prop
  | _, [] => True
  | g, r :: requests => (∀ sent g' frame, r = .push sent g' frame → g' = g) ∧
      Carries (r.reported.getD g) requests

/-- What is claimed of the requests of a run. -/
structure Spaced (interval : Nat) (w : World φ) : Prop where
  apart : w.requests.IsChain (Apart (gap interval))
  carries : Carries 0 w.requests

/-- A push that is sent is accepted, fails, or is told `supervisor_failed` and its refresh
is answered; or the sleep of the loop is long enough. -/
def Heeded (interval : Nat) (w : World φ) (t : Tick φ) : Prop :=
  gap interval ≤ loopSleep ∨ ((w.work t).due ≠ none →
    t.push ≠ .rejected ∧ (t.push = .supervisorFailed → t.status ≠ .failed))

/-! ## Requests in order -/

theorem latest_append (g : UInt64) (requests later : List (Request φ)) :
    latest g (requests ++ later) = latest (latest g requests) later := by
  induction requests generalizing g with
  | nil => rfl
  | cons r requests ih => exact ih _

theorem carries_append (g : UInt64) (requests later : List (Request φ)) :
    Carries g (requests ++ later) ↔ Carries g requests ∧ Carries (latest g requests) later := by
  induction requests generalizing g with
  | nil => simp [Carries, latest]
  | cons r requests ih => simp only [List.cons_append, Carries, latest, ih, and_assoc]

/-- The clock, or the timer that the loop looks at. -/
def Worker.gate (w : Worker φ) : Nat :=
  if w.generation = 0 then w.nextGenerationPoll else w.nextEmit

/-- What holds between any two requests. -/
structure Kept (interval : Nat) (w : World φ) : Prop where
  spaced : Spaced interval w
  generation : w.worker.generation = latest 0 w.requests
  backoff : reconnectBase ≤ w.worker.backoff
  past : ∀ r ∈ w.requests.getLast?, r.sent ≤ w.clock

/-- The loop does not send before the gap is over. -/
def Gated (interval : Nat) (w : World φ) : Prop :=
  ∀ r ∈ w.requests.getLast?, r.sent + gap interval ≤ max w.clock w.worker.gate

/-- What holds between two turns. -/
structure Inv (interval : Nat) (w : World φ) : Prop where
  kept : Kept interval w
  gated : Gated interval w

theorem gap_le (interval : Nat) :
    gap interval ≤ interval ∧ gap interval ≤ reconnectBase ∧ gap interval ≤ generationPoll := by
  simp only [gap]
  omega

/-- One more request. -/
theorem Spaced.snoc {interval : Nat} {w w' : World φ} {r : Request φ} (h : Spaced interval w)
    (hrequests : w'.requests = w.requests ++ [r])
    (hapart : ∀ last ∈ w.requests.getLast?, Apart (gap interval) last r)
    (hcarries : ∀ sent g frame, r = .push sent g frame → g = latest 0 w.requests) :
    Spaced interval w' where
  apart := by
    rw [hrequests, List.isChain_append]
    refine ⟨h.apart, .singleton r, fun last hlast first hfirst => ?_⟩
    obtain rfl := Option.some.inj hfirst
    exact hapart last hlast
  carries := by
    rw [hrequests, carries_append]
    exact ⟨h.carries, hcarries, trivial⟩

/-! ## A refresh -/

theorem refresh_generation (interval : Nat) (w : Worker φ) (now : Nat) (answer : StatusAnswer) :
    (w.refreshGeneration interval now answer).generation =
      (Request.status (φ := φ) 0 false answer).reported.getD w.generation := by
  cases answer with
  | failed => rfl
  | generation g =>
    rw [Worker.refreshGeneration]
    split <;> rfl

theorem refresh_gate (interval : Nat) (w : Worker φ) (now : Nat) {answer : StatusAnswer}
    (h : answer ≠ .failed ∨ w.generation = 0) :
    now + gap interval ≤ (w.refreshGeneration interval now answer).gate := by
  obtain ⟨hinterval, -, hpoll⟩ := gap_le interval
  cases answer with
  | failed =>
    have hzero : w.generation = 0 := h.resolve_left (· rfl)
    simp only [Worker.refreshGeneration, Worker.gate, hzero, if_true]
    omega
  | generation g =>
    by_cases hg : g = 0
    · simp [Worker.refreshGeneration, Worker.gate, hg]
      omega
    · simp [Worker.refreshGeneration, Worker.gate, hg]
      omega

theorem refresh_backoff (interval : Nat) (w : Worker φ) (now : Nat) (answer : StatusAnswer)
    (h : reconnectBase ≤ w.backoff) :
    reconnectBase ≤ (w.refreshGeneration interval now answer).backoff := by
  cases answer with
  | failed => exact h
  | generation g =>
    rw [Worker.refreshGeneration]
    split
    · exact Nat.le_refl _
    · exact h

theorem Kept.probe {interval : Nat} {w : World φ} (h : Kept interval w) {triggered : Bool}
    {sending answering : Nat} {answer : StatusAnswer}
    (hapart : ∀ last ∈ w.requests.getLast?,
      (last.isPush ∧ triggered) ∨ last.sent + gap interval ≤ w.clock + sending) :
    Kept interval (w.probe interval triggered sending answering answer) where
  spaced := h.spaced.snoc rfl hapart nofun
  generation := by
    simp only [World.probe]
    rw [refresh_generation, latest_append, ← h.generation]
    cases answer <;> rfl
  backoff := refresh_backoff _ _ _ _ h.backoff
  past r hr := by
    simp only [World.probe, List.getLast?_append_cons, List.getLast?_singleton,
      Option.mem_some_iff] at hr
    subst hr
    exact Nat.le_add_right _ _

/-- After a refresh that was answered, or one that the loop made itself. -/
theorem gated_probe {interval : Nat} (w : World φ) {triggered : Bool} {sending answering : Nat}
    {answer : StatusAnswer} (h : answer ≠ .failed ∨ w.worker.generation = 0) :
    Gated interval (w.probe interval triggered sending answering answer) := by
  intro r hr
  simp only [World.probe, List.getLast?_append_cons, List.getLast?_singleton,
    Option.mem_some_iff] at hr
  subst hr
  have hgate := refresh_gate interval w.worker.serial (w.clock + sending + answering) h
  simp only [Request.sent, World.probe]
  omega

/-! ## A push -/

theorem Kept.push {interval : Nat} {w : World φ} (h : Kept interval w) {t : Tick φ} {frame : φ}
    (hapart : ∀ last ∈ w.requests.getLast?, last.sent + gap interval ≤ w.clock) :
    Kept interval (w.push interval t frame) where
  spaced := by
    refine h.spaced.snoc rfl (fun last hlast => .inr ?_) ?_
    · exact Nat.le_trans (hapart last hlast) (Nat.le_add_right _ _)
    · rintro sent g frame' hr
      obtain ⟨-, rfl, -⟩ := Request.push.inj hr
      exact h.generation
  generation := by
    simp only [World.push]
    rw [latest_append, ← h.generation]
    cases t.push <;> rfl
  backoff := by
    have hbackoff := h.backoff
    simp only [World.push]
    cases t.push with
    | accepted => exact Nat.le_refl _
    | supervisorFailed | rejected => exact hbackoff
    | failed =>
      simp only [Worker.pushed, Worker.serial, reconnectBase, reconnectMax] at hbackoff ⊢
      omega
  past r hr := by
    simp only [World.push, List.getLast?_append_cons, List.getLast?_singleton,
      Option.mem_some_iff] at hr
    subst hr
    exact Nat.le_add_right _ _

/-- After a push that was accepted or failed. -/
theorem gated_push {interval : Nat} {w : World φ} (h : Kept interval w)
    (hgeneration : w.worker.generation ≠ 0) {t : Tick φ} (frame : φ)
    (hanswer : t.push = .accepted ∨ t.push = .failed) :
    Gated interval (w.push interval t frame) := by
  intro r hr
  simp only [World.push, List.getLast?_append_cons, List.getLast?_singleton,
    Option.mem_some_iff] at hr
  subst hr
  obtain ⟨hinterval, hbase, -⟩ := gap_le interval
  have hbackoff := h.backoff
  rcases hanswer with hanswer | hanswer
  · simp only [Request.sent, World.push, hanswer, Worker.pushed, Worker.gate, Worker.serial,
      hgeneration, if_false]
    omega
  · simp only [Request.sent, World.push, hanswer, Worker.pushed, Worker.gate, Worker.serial,
      hgeneration, if_false]
    omega

/-! ## A turn -/

theorem analyze_fold (windows : List (Option φ)) (w : Worker φ) :
    ∃ pending dropped, windows.foldl Worker.analyze w =
      { w with pending := pending, framesDropped := dropped } := by
  induction windows generalizing w with
  | nil => exact ⟨_, _, rfl⟩
  | cons window windows ih =>
    obtain ⟨pending, dropped, h⟩ := ih (w.analyze window)
    rw [List.foldl_cons, h]
    cases window <;> exact ⟨_, _, rfl⟩

theorem Inv.work {interval : Nat} {w : World φ} (h : Inv interval w) (t : Tick φ) :
    Inv interval (w.work t) := by
  obtain ⟨pending, dropped, hfold⟩ := analyze_fold t.windows w.worker
  have hwork : w.work t = { w with
      worker := { w.worker with pending := pending, framesDropped := dropped }
      clock := w.clock + t.working } := by rw [World.work, hfold]
  rw [hwork]
  refine ⟨⟨⟨h.kept.spaced.apart, h.kept.spaced.carries⟩, h.kept.generation, h.kept.backoff,
    fun r hr => ?_⟩, fun r hr => ?_⟩
  · exact Nat.le_trans (h.kept.past r hr) (Nat.le_add_right _ _)
  · have hgated := h.gated r hr
    simp only [Worker.gate] at hgated ⊢
    omega

/-- What was last sent is long ago when the timer is over. -/
theorem Inv.over {interval : Nat} {w : World φ} (h : Inv interval w)
    (htimer : w.worker.gate ≤ w.clock) :
    ∀ last ∈ w.requests.getLast?, last.sent + gap interval ≤ w.clock := by
  intro last hlast
  have hgated := h.gated last hlast
  rwa [Nat.max_eq_left htimer] at hgated

/-- The requests of a turn keep what holds between any two of them. -/
theorem Inv.request {interval : Nat} {w : World φ} (h : Inv interval w) (t : Tick φ) :
    Kept interval (w.request interval t) := by
  rw [World.request]
  split
  next hgeneration =>
    split
    next htimer =>
      have hover := h.over (by rwa [Worker.gate, if_pos hgeneration])
      refine h.kept.probe fun last hlast => .inr ?_
      have hle := hover last hlast
      omega
    next => exact h.kept
  next hgeneration =>
    split
    next htimer =>
      have hover := h.over (by rwa [Worker.gate, if_neg hgeneration])
      split
      next => exact h.kept
      next frame _ =>
        have hpush : Kept interval (w.push interval t frame) := h.kept.push hover
        split
        next =>
          refine hpush.probe fun last hlast => .inl ?_
          simp only [World.push, List.getLast?_append_cons, List.getLast?_singleton,
            Option.mem_some_iff] at hlast
          subst hlast
          exact ⟨rfl, rfl⟩
        next => exact hpush
    next => exact h.kept

/-- And they leave it to a timer when to send again. -/
theorem Inv.gated_request {interval : Nat} {w : World φ} (h : Inv interval w) {t : Tick φ}
    (hanswers : w.due ≠ none →
      t.push ≠ .rejected ∧ (t.push = .supervisorFailed → t.status ≠ .failed)) :
    Gated interval (w.request interval t) := by
  rw [World.request]
  split
  next hgeneration =>
    split
    next => exact gated_probe w (.inr hgeneration)
    next => exact h.gated
  next hgeneration =>
    split
    next htimer =>
      split
      next => exact h.gated
      next frame hpending =>
        have hdue : w.due = some frame := by rw [World.due, if_pos ⟨hgeneration, htimer⟩, hpending]
        obtain ⟨hrejected, hstatus⟩ := hanswers (by rw [hdue]; exact nofun)
        split
        next hfailed => exact gated_probe _ (.inl (hstatus hfailed))
        next hfailed =>
          refine gated_push h.kept hgeneration frame ?_
          cases hpush : t.push with
          | accepted => exact .inl rfl
          | failed => exact .inr rfl
          | supervisorFailed => exact absurd hpush hfailed
          | rejected => exact absurd hpush hrejected
    next => exact h.gated

theorem Kept.sleep {interval : Nat} {w : World φ} (h : Kept interval w) :
    Kept interval w.sleep where
  spaced := ⟨h.spaced.apart, h.spaced.carries⟩
  generation := h.generation
  backoff := h.backoff
  past r hr := Nat.le_trans (h.past r hr) (Nat.le_add_right _ _)

theorem Inv.step {interval : Nat} (w : World φ) (t : Tick φ) (h : Inv interval w)
    (hheeded : Heeded interval w t) : Inv interval (w.step interval t) := by
  have hwork := h.work t
  have hkept := hwork.request t
  refine ⟨hkept.sleep, fun r hr => ?_⟩
  rcases hheeded with hsleep | hanswers
  · have hpast := hkept.past r hr
    simp only [World.step, World.sleep]
    omega
  · have hgated := hwork.gated_request hanswers r hr
    simp only [World.step, World.sleep]
    omega

theorem Inv.start (interval now sending answering : Nat) (answer : StatusAnswer) :
    Inv interval (World.start (φ := φ) interval now sending answering answer) := by
  have hnone : Kept interval (⟨.new now, now, []⟩ : World φ) :=
    ⟨⟨.nil, trivial⟩, rfl, Nat.le_refl _, nofun⟩
  have hstart : World.start interval now sending answering answer =
      (⟨.new now, now, []⟩ : World φ).probe interval false sending answering answer := rfl
  rw [hstart]
  exact ⟨hnone.probe nofun, gated_probe _ (.inr rfl)⟩

/-- **Spacing.**  In every run whose pushes are answered in a way that a timer is set for,
two requests are at least the gap apart, a push and the refresh it triggers excepted; and
every push carries the generation most recently reported. -/
theorem requests_spaced (interval now sending answering : Nat) (answer : StatusAnswer)
    (ticks : List (Tick φ))
    (h : Along (World.step interval) (Heeded interval)
      (.start interval now sending answering answer) ticks) :
    Spaced interval (run (World.step interval) (.start interval now sending answering answer)
      ticks) :=
  (invariant_run Inv.step (Inv.start interval now sending answering answer) h).kept.spaced

/-! ## Answers that no timer is set for -/

/-- A turn whose windows give a frame, and whose requests take no time. -/
def prompt (working : Nat) (push : PushAnswer) (status : StatusAnswer) : Tick Unit :=
  ⟨[some ()], push, status, working, 0, 0, 0, 0⟩

theorem requests_spaced_once :
    Spaced reconnectBase (run (World.step reconnectBase)
      (.start reconnectBase 0 0 0 (.generation 1))
      [prompt reconnectBase .accepted .failed]) :=
  requests_spaced reconnectBase 0 0 0 (.generation 1) [prompt reconnectBase .accepted .failed]
    ⟨.inr fun _ => ⟨by decide, nofun⟩, trivial⟩

/-- A push that is rejected, or whose refresh fails, is repeated after the sleep of the
loop. -/
theorem pushed_again :
    ¬ Spaced reconnectBase (run (World.step reconnectBase)
      (.start reconnectBase 0 0 0 (.generation 1))
      [prompt reconnectBase .rejected .failed, prompt 0 .accepted .failed]) ∧
    ¬ Spaced reconnectBase (run (World.step reconnectBase)
      (.start reconnectBase 0 0 0 (.generation 1))
      [prompt reconnectBase .supervisorFailed .failed, prompt 0 .accepted .failed]) := by
  constructor
  · rintro ⟨h, -⟩
    obtain ⟨-, h⟩ := List.isChain_cons_cons.mp h
    exact absurd (List.isChain_cons_cons.mp h).1 (by decide)
  · rintro ⟨h, -⟩
    obtain ⟨-, h⟩ := List.isChain_cons_cons.mp h
    obtain ⟨-, h⟩ := List.isChain_cons_cons.mp h
    exact absurd (List.isChain_cons_cons.mp h).1 (by decide)

end Kwe.Audio.Emission
