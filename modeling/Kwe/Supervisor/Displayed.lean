import Kwe.Supervisor.Refinement

/-!
What `Live` and `AwaitingAck` say: the wallpaper that `status` reports as
requested is the one the active worker shows.

* `displayed_step`: every step keeps this, unless it is one of the two that
  `KeepsDisplayed` excludes;
* `promotionPoll_displayed`: where it holds, a poll of `wait_for_promotion`
  answers `Ok` only for the wallpaper on display.
-/

namespace Kwe.Supervisor

open Foundation

/-! ## Waiting for a promotion -/

def phaseName : WorkerPhase → String
  | .idle => "idle"
  | .starting => "starting"
  | .canary => "canary"
  | .live => "live"
  | .restarting => "restarting"
  | .awaitingAck => "awaiting_ack"
  | .rolledBack => "rolled_back"
  | .stopped => "stopped"
  | .quarantined => "quarantined"

def promotionVerdict (phase : WorkerPhase) (ours : Bool) (lastFailureDetail : Option String) :
    Option (Except String Unit) :=
  match phase, ours with
  | .live, true | .awaitingAck, true => some (.ok ())
  | .rolledBack, _ | .quarantined, _ | .stopped, _ =>
      some (.error (lastFailureDetail.getD (phaseName phase)))
  | _, _ => none

/-- `ours` in `wait_for_promotion` and `ensure_ours`. -/
def WorkerStatus.ours (status : WorkerStatus) (wallpaperId contentHash : String) : Bool :=
  decide (status.requestedWallpaperId = some wallpaperId) &&
    decide (status.requestedContentHash = some contentHash)

/-- One poll of `wait_for_promotion`: an answer, or `none` to poll again. -/
def promotionPoll (status : WorkerStatus) (wallpaperId contentHash : String) :
    Option (Except String Unit) :=
  let ours := status.ours wallpaperId contentHash
  if !ours && decide (status.phase ≠ .idle) then
    some (.error ("renderer ownership changed (requested " ++
      status.requestedWallpaperId.getD "none" ++ ":" ++ status.requestedContentHash.getD "none" ++
      ", expected " ++ wallpaperId ++ ":" ++ contentHash ++ ")"))
  else (promotionVerdict status.phase ours status.lastFailureDetail).map
    (Except.mapError fun detail => "renderer did not promote (" ++ detail ++ ")")

/-- `wait_for_promotion`, over the statuses it reads and whether the deadline
had passed at each. -/
def waitForPromotion (wallpaperId contentHash : String) (timeoutMillis : Nat) :
    List (WorkerStatus × Bool) → Option (Except String Unit)
  | [] => none
  | (status, late) :: polls =>
    match promotionPoll status wallpaperId contentHash with
    | some answer => some answer
    | none =>
      if late then
        some (.error ("renderer did not promote within " ++ toString timeoutMillis ++ " ms"))
      else waitForPromotion wallpaperId contentHash timeoutMillis polls

theorem promotionPoll_ok {status : WorkerStatus} {wallpaperId contentHash : String}
    (h : promotionPoll status wallpaperId contentHash = some (.ok ())) :
    (status.phase = .live ∨ status.phase = .awaitingAck) ∧
      status.requestedWallpaperId = some wallpaperId ∧
      status.requestedContentHash = some contentHash := by
  unfold promotionPoll at h
  cases ho : status.ours wallpaperId contentHash with
  | false =>
    by_cases hidle : status.phase = .idle
    · simp [ho, hidle, promotionVerdict] at h
    · simp [ho, hidle] at h
  | true =>
    refine ⟨?_, by simpa [WorkerStatus.ours] using ho⟩
    cases hp : status.phase <;> simp_all [promotionVerdict, Except.mapError]

theorem waitForPromotion_ok {wallpaperId contentHash : String} {timeoutMillis : Nat}
    {polls : List (WorkerStatus × Bool)}
    (h : waitForPromotion wallpaperId contentHash timeoutMillis polls = some (.ok ())) :
    ∃ poll ∈ polls, promotionPoll poll.1 wallpaperId contentHash = some (.ok ()) := by
  induction polls with
  | nil => cases h
  | cons poll polls ih =>
    obtain ⟨status, late⟩ := poll
    unfold waitForPromotion at h
    cases hp : promotionPoll status wallpaperId contentHash with
    | some answer =>
      rw [hp] at h
      exact ⟨_, List.mem_cons_self, by rw [hp]; exact h⟩
    | none =>
      cases late with
      | true => simp [hp] at h
      | false =>
        simp only [hp, Bool.false_eq_true, if_false] at h
        obtain ⟨poll, hmem, hpoll⟩ := ih h
        exact ⟨poll, List.mem_cons_of_mem _ hmem, hpoll⟩

/-! ## The requested wallpaper -/

/-- The same wallpaper with the same content. -/
def StartSpec.SameContent (spec spec' : StartSpec) : Prop :=
  spec.wallpaperId = spec'.wallpaperId ∧ spec.contentHash = spec'.contentHash

theorem StartSpec.SameContent.refl (spec : StartSpec) : spec.SameContent spec := ⟨rfl, rfl⟩

theorem StartSpec.SameContent.trans {a b c : StartSpec} (h : a.SameContent b)
    (h' : b.SameContent c) : a.SameContent c :=
  ⟨h.1.trans h'.1, h.2.trans h'.2⟩

/-- The request on record is for the content of `spec`. -/
def Slots.Asks (s : Slots) (spec : StartSpec) : Prop :=
  ∃ requested, s.requested = some requested ∧ requested.SameContent spec

/-- What is on trial or waiting was requested, and so is what is live. -/
structure Slots.Tracked (s : Slots) : Prop where
  candidate : ∀ w, s.candidate = some w → s.Asks w.spec
  pending : ∀ p, s.pending = some p → s.Asks p.spec
  shown : s.phase = .live ∨ s.phase = .awaitingAck → ∃ w, s.active = some w ∧ s.Asks w.spec

theorem Slots.tracked_new : Slots.new.Tracked := by
  constructor <;> simp [Slots.new]

theorem Slots.Asks.self {s : Slots} {spec : StartSpec} (h : s.requested = some spec) :
    s.Asks spec := ⟨spec, h, .refl spec⟩

/-- Answering a failure of what was requested keeps the request on track. -/
theorem Slots.tracked_fail {s : Slots} (v : Verdict) {spec : StartSpec} (hc : s.candidate = none)
    (hask : s.Asks spec) : (s.fail v spec).Tracked := by
  have hphase : ∀ idlePhase, idlePhase = .stopped ∨ idlePhase = .quarantined →
      s.rolledBackOr idlePhase ≠ .live ∧ s.rolledBackOr idlePhase ≠ .awaitingAck := by
    rintro idlePhase (rfl | rfl) <;> unfold Slots.rolledBackOr <;> split <;> simp
  cases v with
  | refused => constructor <;> simp [Slots.fail, hc, hphase]
  | quarantined => constructor <;> simp [Slots.fail, hc, hphase]
  | restart at_ =>
    refine ⟨by simp [Slots.fail, hc], ?_, by simp [Slots.fail]⟩
    rintro p hp
    obtain rfl : (⟨spec, at_⟩ : PendingRestart) = p := by simpa [Slots.fail] using hp
    exact hask

/-- The two steps that can part the request from the display do not: an
acknowledgement with no handoff open finds the active worker requested, and an
active worker whose failure is its last leaves no other content waiting for a
restart. -/
def KeepsDisplayed (cfg : Config) (s : State) : Input → Prop
  | .acknowledge generation _ =>
      s.retired = none → s.candidate = none → generation = s.displayGeneration →
        ∀ w, s.active = some w → s.Asks w.spec
  | .inspectActive probe _ =>
      s.retired = none → s.candidate = none → ∀ w kind p, s.active = some w →
        Fails cfg probe w kind → s.persisted.records.strikesOut w.spec cfg →
        s.pending = some p → w.spec.SameContent p.spec
  | _ => True

/-- What becomes of the request when the active worker is lost. -/
theorem Slots.tracked_lose {s : Slots} {w : Worker} {v : Verdict} (h : s.Inv) (ht : s.Tracked)
    (hkeep : s.retired = none → s.candidate = none → v = .quarantined →
      ∀ p, s.pending = some p → w.spec.SameContent p.spec) : (s.lose v w).Tracked := by
  unfold Slots.lose
  cases hr : s.retired with
  | some r =>
    exact Slots.tracked_fail v (h.handoff (by simp [hr])).2.1 (.self rfl)
  | none =>
    simp only
    split
    next => exact ⟨ht.candidate, ht.pending, by simp⟩
    next hc =>
      have hc : s.candidate = none := by simpa using hc
      split
      next hv =>
        exact ⟨by simp [hc], fun p hp => ⟨w.spec, rfl, hkeep hr hc hv p hp⟩, by simp⟩
      next => exact Slots.tracked_fail v hc (.self rfl)

/-- What fails on trial or at its restart was requested. -/
theorem Slots.Tracked.failing {s : Slots} {spec : StartSpec} {v : Verdict} (ht : s.Tracked)
    (he : s.Enabled (.failCandidate spec v)) : s.Asks spec := by
  rcases he with ⟨w, hw, rfl⟩ | ⟨-, p, hp, rfl⟩
  · exact ht.candidate w hw
  · exact ht.pending p hp

theorem Slots.tracked_promoted {s : Slots} {w₀ w : Worker} (deadline : Nat)
    (snapshot : FrameSnapshot) (ht : s.Tracked) (hw : s.candidate = some w₀)
    (hsame : w₀.Same w) : (s.promoted w deadline snapshot).Tracked := by
  have hask : s.Asks w.spec := hsame.2 ▸ ht.candidate w₀ hw
  cases ha : s.active with
  | none => constructor <;> simp_all [Slots.promoted, Slots.Asks]
  | some previous => constructor <;> simp_all [Slots.promoted, Slots.Asks]

/-- While a handoff is open the active worker is the requested one. -/
theorem Slots.Tracked.handoff {s : Slots} {w : Worker} (h : s.Inv) (ht : s.Tracked)
    (hr : s.retired.isSome) (ha : s.active = some w) : s.Asks w.spec := by
  obtain ⟨w', hw', hask⟩ := ht.shown (Or.inr (h.awaiting.mpr hr))
  obtain rfl : w = w' := by simpa [ha] using hw'
  exact hask

/-- Turning `Live` keeps the request on track when the active worker was
requested. -/
theorem Slots.tracked_settled {s : Slots} (ht : s.Tracked)
    (hask : s.candidate = none → ∀ w, s.active = some w → s.Asks w.spec) : s.settled.Tracked := by
  unfold Slots.settled
  split
  next hs =>
    rw [Bool.and_eq_true] at hs
    obtain ⟨w, hw⟩ := Option.isSome_iff_exists.mp hs.1
    exact ⟨ht.candidate, ht.pending, fun _ => ⟨w, hw, hask (by simpa using hs.2) w hw⟩⟩
  next => exact ht

theorem tracked_step {cfg : Config} {s : State} {i : Input} (h : s.toSlots.Inv)
    (ht : s.toSlots.Tracked) (hkeep : KeepsDisplayed cfg s i) :
    (step cfg s i).toSlots.Tracked := by
  obtain ⟨a, henabled, hslots, -, -, hexplained⟩ := step_refines cfg s i
  rw [hslots]
  cases hexplained with
  | idle busy records => exact ht
  | touchActive records command =>
    obtain ⟨w₀, hw₀, hsame⟩ := henabled
    refine ⟨ht.candidate, ht.pending, fun hp => ⟨_, rfl, ?_⟩⟩
    obtain ⟨w', hw', hask⟩ := ht.shown hp
    obtain rfl : w₀ = w' := by simpa [hw₀] using hw'
    rw [hsame.2]
    exact hask
  | @touchCandidate _ _ w observed records =>
    obtain ⟨w₀, hw₀, hsame⟩ := henabled
    refine ⟨?_, ht.pending, ?_⟩
    · rintro w' hw'
      obtain rfl : w = w' := by simpa [Slots.apply] using hw'
      rw [hsame.2]
      exact ht.candidate w₀ hw₀
    · simp only [Slots.apply]
      split
      next => simp
      next => exact ht.shown
  | abandon unsaved records => exact ⟨by simp [Slots.apply], by simp [Slots.apply], ht.shown⟩
  | answerQuarantined found quarantined records =>
    refine ⟨by simp [Slots.apply], by simp [Slots.apply], ?_⟩
    simp only [Slots.apply, Slots.rolledBackOr]
    split <;> simp
  | @launch _ spec w records =>
    refine ⟨?_, by simp [Slots.apply], ?_⟩
    · rintro w' hw'
      obtain rfl : w = w' := by simpa [Slots.apply] using hw'
      exact .self (by rw [henabled.2.1]; rfl)
    · simp only [Slots.apply, Slots.launchPhase]
      split <;> simp
  | launchFailed base struck => exact Slots.tracked_fail _ rfl (.self rfl)
  | @relaunch _ _ w records =>
    obtain ⟨hc, p, hp, hspec, -⟩ := henabled
    refine ⟨?_, by simp [Slots.apply], ?_⟩
    · rintro w' hw'
      obtain rfl : w = w' := by simpa [Slots.apply] using hw'
      rw [hspec]
      exact ht.pending p hp
    · simp only [Slots.apply, Slots.launchPhase]
      split <;> simp
  | refuse refused records =>
    have hask := ht.failing henabled
    exact Slots.tracked_fail .refused rfl hask
  | failCandidate struck command counted =>
    have hask := ht.failing henabled
    exact Slots.tracked_fail _ rfl hask
  | loseActive active fails struck =>
    simp only [Slots.apply, active]
    refine Slots.tracked_lose h ht fun hr hc hv p hp => ?_
    exact hkeep hr hc _ _ p active fails (struck.decided.mp hv) hp
  | promoteFirst first cleared records =>
    obtain ⟨w₀, hw₀, hsame⟩ := henabled
    exact Slots.tracked_promoted _ _ ht hw₀ hsame
  | promote records =>
    obtain ⟨w₀, hw₀, hsame⟩ := henabled
    exact Slots.tracked_promoted _ _ ht hw₀ hsame
  | settle current records =>
    exact Slots.tracked_settled ht fun hc => hkeep henabled hc current
  | acknowledge retired active current cleared records =>
    have hask := ht.handoff h henabled.1 active
    refine Slots.tracked_settled ⟨ht.candidate, ht.pending, fun _ => ⟨_, active, hask⟩⟩ ?_
    rintro - w hw
    have hask := ht.handoff h henabled.1 hw
    exact hask
  | commit active cleared records =>
    have hask := ht.handoff h henabled.1 active
    exact ⟨ht.candidate, ht.pending, fun _ => ⟨_, active, hask⟩⟩
  | @revert _ _ w v active struck =>
    have hask := ht.handoff h henabled.1 active
    obtain ⟨r, hr⟩ := Option.isSome_iff_exists.mp henabled.1
    simp only [Slots.apply, hr, active]
    exact Slots.tracked_fail v (h.handoff henabled.1).2.1 hask
  | restore records =>
    have hactive := (h.handoff henabled.1).1
    simp [henabled.2] at hactive
  | stop records => exact ⟨by simp [Slots.apply], by simp [Slots.apply], by simp [Slots.apply]⟩

/-! ## Every run -/

theorem reached_tracked {cfg : Config} {persisted : PersistedState} {is : List Input}
    (h : Runs.Along (step cfg) (KeepsDisplayed cfg) (State.new persisted) is) :
    (reached cfg persisted is).toSlots.Tracked :=
  (Runs.invariant_run (I := fun s : State => s.toSlots.Inv ∧ s.toSlots.Tracked)
    (fun _ i hs hkeep => ⟨inv_step i hs.1, tracked_step hs.1 hs.2 hkeep⟩)
    ⟨Slots.inv_new, Slots.tracked_new⟩ h).2

/-- In `Live` and `AwaitingAck` an active worker shows what `status` reports
as requested. -/
def State.Displayed (s : State) : Prop :=
  s.phase = .live ∨ s.phase = .awaitingAck →
    ∃ w, s.active = some w ∧ (status s).requestedWallpaperId = some w.spec.wallpaperId ∧
      (status s).requestedContentHash = some w.spec.contentHash

/-- The active worker shows this wallpaper and content. -/
def State.Displays (s : State) (wallpaperId contentHash : String) : Prop :=
  ∃ w, s.active = some w ∧ w.spec.wallpaperId = wallpaperId ∧ w.spec.contentHash = contentHash

theorem displayed_of_tracked {s : State} (h : s.toSlots.Tracked) : s.Displayed := by
  intro hphase
  obtain ⟨w, hw, requested, hrequested, hsame⟩ := h.shown hphase
  exact ⟨w, hw, by simp [status, hrequested, hsame.1], by simp [status, hrequested, hsame.2]⟩

/-- Where the display is as reported, a poll answers `Ok` only for what is on
display. -/
theorem promotionPoll_displayed {s : State} {wallpaperId contentHash : String}
    (h : s.Displayed) (hok : promotionPoll (status s) wallpaperId contentHash = some (.ok ())) :
    s.Displays wallpaperId contentHash := by
  obtain ⟨hphase, hid, hhash⟩ := promotionPoll_ok hok
  obtain ⟨w, hw, hid', hhash'⟩ := h hphase
  rw [hid, Option.some.injEq] at hid'
  rw [hhash, Option.some.injEq] at hhash'
  exact ⟨w, hw, hid'.symm, hhash'.symm⟩

/-- **The display is as reported.**  In a run that meets `KeepsDisplayed`,
every state shows what it reports in `Live` and `AwaitingAck`, and whatever
states `wait_for_promotion` polls, its `Ok` is for a wallpaper on display. -/
theorem reached_displayed (cfg : Config) (persisted : PersistedState) (is : List Input)
    (h : Runs.Along (step cfg) (KeepsDisplayed cfg) (State.new persisted) is) :
    (∀ pre, pre <+: is → (reached cfg persisted pre).Displayed) ∧
    ∀ wallpaperId contentHash timeoutMillis polls,
      (∀ poll ∈ polls, ∃ pre, pre <+: is ∧ poll.1 = status (reached cfg persisted pre)) →
      waitForPromotion wallpaperId contentHash timeoutMillis polls = some (.ok ()) →
      ∃ pre, pre <+: is ∧ (reached cfg persisted pre).Displays wallpaperId contentHash := by
  have hdisplayed : ∀ pre, pre <+: is → (reached cfg persisted pre).Displayed := by
    rintro pre ⟨post, rfl⟩
    exact displayed_of_tracked (reached_tracked ((Runs.along_append _ _ _).mp h).1)
  refine ⟨hdisplayed, fun wallpaperId contentHash timeoutMillis polls hpolls hok => ?_⟩
  obtain ⟨poll, hmem, hpoll⟩ := waitForPromotion_ok hok
  obtain ⟨pre, hpre, hstatus⟩ := hpolls poll hmem
  rw [hstatus] at hpoll
  exact ⟨pre, hpre, promotionPoll_displayed (hdisplayed pre hpre) hpoll⟩

theorem reached_displayed_firstPromotion :
    (reached .sample .empty firstPromotion).phase = .live ∧
      (reached .sample .empty firstPromotion).Displayed :=
  ⟨by decide, (reached_displayed .sample .empty firstPromotion ⟨trivial, trivial, trivial⟩).1 _
    (List.prefix_refl _)⟩

/-- `a` is live, `b` crashes on trial, and a repeated acknowledgement of `a`
arrives while `b` waits for its restart. -/
def lateAcknowledgement : List Turn :=
  liveA ++
  [.sample (some (.start specB (.quiet 2000))) 2000 (.frame 2000 9) (.crash 2000),
   .sample (some (.acknowledge 1 (.quiet 2100))) 2100 (.frame 2100 10) (.frame 2100 0)]

theorem not_displayed {s : State} (hphase : s.phase = .live)
    (hne : s.active.map (fun w => w.spec.wallpaperId) ≠ (status s).requestedWallpaperId) :
    ¬ s.Displayed := by
  intro h
  obtain ⟨w, hw, hid, -⟩ := h (Or.inl hphase)
  exact hne (by rw [hw, hid]; rfl)

/-- Either way the supervisor is `Live` and reports one wallpaper as requested
while the other is on display, and `wait_for_promotion` answers `Ok` for the
one that is not. -/
theorem live_misreports :
    (let s := reached .sample .empty (lateAcknowledgement.flatMap Turn.inputs)
     ¬ s.Displayed ∧ s.active.map (·.spec) = some specA ∧
       promotionPoll (status s) "b" "hash" = some (.ok ())) ∧
    (let s := reached .sample .empty (quarantineBesideRestart.flatMap Turn.inputs)
     ¬ s.Displayed ∧ s.active.map (·.spec) = some specB ∧
       promotionPoll (status s) "a" "hash" = some (.ok ())) :=
  ⟨⟨not_displayed (by decide) (by decide), by decide, by decide⟩,
    ⟨not_displayed (by decide) (by decide), by decide, by decide⟩⟩

end Kwe.Supervisor
