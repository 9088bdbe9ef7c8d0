import Kwe.Supervisor.Refinement

/-!
The newest request: once a start or a retry is accepted, its spec stays on
trial, waiting for its restart, or active, until its own refusal or its own
quarantine ends it.

* `serves_of_accepted`: an accepted command puts its spec in place;
* `serves_step`: every step that is no newer command keeps it there, unless it
  is the one that `KeepsRequest` excludes;
* `request_kept`: so does every run.
-/

namespace Kwe.Supervisor

open Foundation

/-- `spec` is on trial, or waits for its restart, or is active with nothing
under way beside it. -/
def Slots.Serves (s : Slots) (spec : StartSpec) : Prop :=
  (∃ w, s.candidate = some w ∧ w.spec = spec) ∨
  (s.candidate = none ∧ ∃ p, s.pending = some p ∧ p.spec = spec) ∨
  (s.candidate = none ∧ s.pending = none ∧ ∃ w, s.active = some w ∧ w.spec = spec)

/-- A lookup for `spec` finds a quarantined record. -/
def Records.Quarantined (records : Records) (spec : StartSpec) : Prop :=
  ∃ record, records.lookup spec = some record ∧ record.quarantined = true

instance (records : Records) (spec : StartSpec) : Decidable (records.Quarantined spec) :=
  decidable_of_iff ((records.lookup spec).any FailureRecord.quarantined = true) <| by
    simp [Records.Quarantined, Option.any_eq_true]

/-- The step of `s` on `i` refuses `spec`, or leaves it quarantined. -/
def EndsRequest (cfg : Config) (spec : StartSpec) (s : State) (i : Input) : Prop :=
  .refused spec ∈ (step cfg s i).events ∨ (step cfg s i).persisted.records.Quarantined spec

instance (cfg : Config) (spec : StartSpec) (s : State) (i : Input) :
    Decidable (EndsRequest cfg spec s i) :=
  inferInstanceAs (Decidable (_ ∨ _))

/-- A newer command takes the place of the request. -/
def Input.Supersedes : Input → Prop
  | .start _ _ | .retry _ _ | .stop _ => True
  | _ => False

/-- The command asks for `spec` and its reply is no error. -/
def Accepted (cfg : Config) (s : State) (command : Input) (spec : StartSpec) : Prop :=
  command.request = some spec ∧ ∃ status, reply cfg s command = some (.ok status)

/-- The one step that can drop the request does not: an active worker that
fails, but not for the last time, beside a waiting restart was asked to show
the same. -/
def KeepsRequest (cfg : Config) (s : State) : Input → Prop
  | .inspectActive probe _ =>
      s.retired = none → s.candidate = none → ∀ w kind p, s.active = some w →
        Fails cfg probe w kind → ¬ s.persisted.records.strikesOut w.spec cfg →
        s.pending = some p → p.spec = w.spec
  | _ => True

/-! ## Accepted commands -/

theorem startSelected_accepted {cfg : Config} {io : Io} {spec : StartSpec} {clearFailure : Bool}
    {s : State} {status : WorkerStatus}
    (h : (startSelected cfg io spec clearFailure s).1 = .ok status) :
    s.retired = none ∧ (clearFailure = true → ∀ detail, io.save 0 ≠ .error detail) := by
  unfold startSelected at h
  by_cases hr : s.retired.isSome
  · simp [hr] at h
  · refine ⟨by simpa using hr, ?_⟩
    rintro rfl detail hsave
    simp [hr, hsave, saveState] at h

theorem Struck.quarantined {cfg : Config} {spec : StartSpec} {records : Records} {s' : State}
    (h : Struck cfg spec .quarantined records s') : s'.persisted.records.Quarantined spec := by
  obtain ⟨now, kind, detail, hrecords⟩ := h.recorded
  obtain ⟨record, hown, hquarantined, -⟩ := records.struck_own spec cfg now kind detail
  refine ⟨record, ?_, hquarantined.mpr (h.decided.mp rfl)⟩
  rw [hrecords, Records.lookup, hown, Option.some_or]

/-- A counted failure of `spec` leaves it waiting for its restart, or
quarantined. -/
theorem serves_fail {cfg : Config} {spec : StartSpec} {v : Verdict} {records : Records}
    {s : Slots} {s' : State} (hc : s.candidate = none) (hv : v ≠ .refused)
    (h : Struck cfg spec v records s') :
    (s.fail v spec).Serves spec ∨ s'.persisted.records.Quarantined spec := by
  cases v with
  | refused => exact absurd rfl hv
  | quarantined => exact Or.inr h.quarantined
  | restart at_ => exact Or.inl (Or.inr (Or.inl ⟨hc, _, rfl, rfl⟩))

theorem serves_of_accepted {cfg : Config} {s : State} {command : Input} {spec : StartSpec}
    (h : Accepted cfg s command spec) :
    (step cfg s command).toSlots.Serves spec ∨ EndsRequest cfg spec s command := by
  obtain ⟨hspec, status, hreply⟩ := h
  have hstart : ∀ {io clearFailure}, reply cfg s command =
      some (startSelected cfg io spec clearFailure { s with events := [] }).1 →
      s.retired = none ∧ (clearFailure = true → ∀ detail, io.save 0 ≠ .error detail) := by
    intro io clearFailure heq
    rw [heq, Option.some.injEq] at hreply
    have haccepted := startSelected_accepted hreply
    exact haccepted
  obtain ⟨a, henabled, hslots, -, -, hexplained⟩ := step_refines cfg s command
  rw [hslots]
  cases hexplained with
  | idle busy records =>
    have hretired : s.retired = none := by
      cases command <;> simp only [Input.request, reduceCtorEq, Option.some.injEq] at hspec <;>
        subst hspec <;> exact (hstart rfl).1
    simp [hspec, hretired] at busy
  | touchActive records command => simp [command] at hspec
  | touchCandidate records => simp [Input.request] at hspec
  | abandon unsaved records =>
    obtain rfl := Option.some.inj hspec
    exact absurd unsaved ((hstart rfl).2 rfl _)
  | answerQuarantined found quarantined records =>
    obtain rfl := Option.some.inj hspec
    exact Or.inr (Or.inr ⟨_, by rw [records]; exact found, quarantined⟩)
  | launch records =>
    obtain rfl := Option.some.inj (records.request.symm.trans hspec)
    exact Or.inl (Or.inl ⟨_, rfl, henabled.2.1⟩)
  | launchFailed base struck =>
    obtain rfl := Option.some.inj (base.request.symm.trans hspec)
    exact (serves_fail rfl henabled.2 struck).imp_right Or.inr
  | failCandidate struck command counted => simp [command] at hspec
  | _ => simp [Input.request] at hspec

/-! ## One step -/

/-- With a candidate or a restart in place, that is what serves the request. -/
theorem Slots.Serves.of_candidate {s : Slots} {spec : StartSpec} {w : Worker}
    (hs : s.Serves spec) (hc : s.candidate = some w) : w.spec = spec := by
  rcases hs with ⟨w', hw', rfl⟩ | ⟨hnone, -⟩ | ⟨hnone, -⟩
  · rw [hc, Option.some.injEq] at hw'
    rw [hw']
  · simp [hc] at hnone
  · simp [hc] at hnone

theorem Slots.Serves.of_pending {s : Slots} {spec : StartSpec} {p : PendingRestart}
    (hs : s.Serves spec) (hc : s.candidate = none) (hp : s.pending = some p) : p.spec = spec := by
  rcases hs with ⟨w', hw', -⟩ | ⟨-, p', hp', rfl⟩ | ⟨-, hnone, -⟩
  · simp [hc] at hw'
  · rw [hp, Option.some.injEq] at hp'
    rw [hp']
  · simp [hp] at hnone

theorem Slots.Serves.of_active {s : Slots} {spec : StartSpec} {w : Worker}
    (hs : s.Serves spec) (hc : s.candidate = none) (hp : s.pending = none)
    (ha : s.active = some w) : w.spec = spec := by
  rcases hs with ⟨w', hw', -⟩ | ⟨-, p', hp', -⟩ | ⟨-, -, w', hw', rfl⟩
  · simp [hc] at hw'
  · simp [hp] at hp'
  · rw [ha, Option.some.injEq] at hw'
    rw [hw']

/-- The spec that fails on trial or at its restart is the one requested. -/
theorem Slots.Serves.failing {s : Slots} {spec spec' : StartSpec} {v : Verdict}
    (hs : s.Serves spec) (he : s.Enabled (.failCandidate spec' v)) : spec' = spec := by
  rcases he with ⟨w, hw, rfl⟩ | ⟨hc, p, hp, rfl⟩
  · exact hs.of_candidate hw
  · exact hs.of_pending hc hp

theorem Slots.serves_promoted {s : Slots} {spec : StartSpec} {w₀ w : Worker} (deadline : Nat)
    (snapshot : FrameSnapshot) (hs : s.Serves spec) (hw : s.candidate = some w₀)
    (hsame : w₀.Same w) : (s.promoted w deadline snapshot).Serves spec := by
  have hspec : w.spec = spec := hsame.2.trans (hs.of_candidate hw)
  unfold Slots.promoted
  cases s.active <;> exact Or.inr (Or.inr ⟨rfl, rfl, w, rfl, hspec⟩)

/-- Only the candidate, the pending restart and the active worker serve a
request. -/
theorem Slots.Serves.congr {s s' : Slots} {spec : StartSpec} (hs : s.Serves spec)
    (hc : s'.candidate = s.candidate) (hp : s'.pending = s.pending)
    (ha : s'.active = s.active) : s'.Serves spec := by
  unfold Slots.Serves
  rw [hc, hp, ha]
  exact hs

theorem serves_lose {cfg : Config} {s : Slots} {w : Worker} {v : Verdict} {spec : StartSpec}
    {records : Records} {s' : State} (h : s.Inv) (hs : s.Serves spec) (ha : s.active = some w)
    (hv : v ≠ .refused) (hstruck : Struck cfg w.spec v records s')
    (hkeep : s.retired = none → s.candidate = none → v ≠ .quarantined →
      ∀ p, s.pending = some p → p.spec = w.spec) :
    (s.lose v w).Serves spec ∨ s'.persisted.records.Quarantined spec := by
  unfold Slots.lose
  cases hr : s.retired with
  | some r =>
    obtain ⟨-, hc, hp⟩ := h.handoff (by simp [hr])
    obtain rfl := hs.of_active hc hp ha
    exact serves_fail hc hv hstruck
  | none =>
    simp only
    split
    next hc =>
      obtain ⟨w', hw'⟩ := Option.isSome_iff_exists.mp hc
      exact Or.inl (Or.inl ⟨w', hw', hs.of_candidate hw'⟩)
    next hc =>
      have hc : s.candidate = none := by simpa using hc
      cases hp : s.pending with
      | none =>
        obtain rfl := hs.of_active hc hp ha
        split
        next hq => exact Or.inr (hq ▸ hstruck).quarantined
        next => exact serves_fail hc hv hstruck
      | some p =>
        obtain rfl := hs.of_pending hc hp
        split
        next => exact Or.inl (Or.inr (Or.inl ⟨hc, p, rfl, rfl⟩))
        next hq =>
          rw [hkeep hr hc hq p hp]
          exact serves_fail hc hv hstruck

theorem serves_step {cfg : Config} {s : State} {i : Input} {spec : StartSpec}
    (h : s.toSlots.Inv) (hs : s.toSlots.Serves spec) (hi : ¬ i.Supersedes)
    (hkeep : KeepsRequest cfg s i) :
    (step cfg s i).toSlots.Serves spec ∨ EndsRequest cfg spec s i := by
  obtain ⟨a, henabled, hslots, -, -, hexplained⟩ := step_refines cfg s i
  rw [hslots]
  cases hexplained with
  | idle busy records => exact Or.inl hs
  | touchActive records command =>
    obtain ⟨w₀, hw₀, hsame⟩ := henabled
    rcases hs with hs | hs | ⟨hc, hp, w', hw', rfl⟩
    · exact Or.inl (Or.inl hs)
    · exact Or.inl (Or.inr (Or.inl hs))
    · rw [hw₀, Option.some.injEq] at hw'
      exact Or.inl (Or.inr (Or.inr ⟨hc, hp, _, rfl, by rw [hsame.2, hw']⟩))
  | touchCandidate records =>
    obtain ⟨w₀, hw₀, hsame⟩ := henabled
    exact Or.inl (Or.inl ⟨_, rfl, hsame.2.trans (hs.of_candidate hw₀)⟩)
  | abandon unsaved records => exact absurd trivial hi
  | answerQuarantined found quarantined records => exact absurd trivial hi
  | launch records => cases i <;> first | exact absurd trivial hi | cases records.request
  | launchFailed base struck =>
    cases i <;> first | exact absurd trivial hi | cases base.request
  | relaunch records =>
    obtain ⟨hc, p, hp, hspec, -⟩ := henabled
    exact Or.inl (Or.inl ⟨_, rfl, hspec.trans (hs.of_pending hc hp)⟩)
  | refuse refused records =>
    obtain rfl := hs.failing henabled
    exact Or.inr (Or.inl refused)
  | failCandidate struck command counted =>
    obtain rfl := hs.failing henabled
    exact (serves_fail rfl counted struck).imp_right Or.inr
  | loseActive active fails struck =>
    simp only [Slots.apply, active]
    refine (serves_lose h hs active henabled.2 struck fun hr hc hq => ?_).imp_right Or.inr
    exact fun p hp => hkeep hr hc _ _ p active fails (fun hd => hq (struck.decided.mpr hd)) hp
  | promoteFirst first cleared records =>
    obtain ⟨w₀, hw₀, hsame⟩ := henabled
    exact Or.inl (Slots.serves_promoted _ _ hs hw₀ hsame)
  | promote records =>
    obtain ⟨w₀, hw₀, hsame⟩ := henabled
    exact Or.inl (Slots.serves_promoted _ _ hs hw₀ hsame)
  | settle current records =>
    obtain ⟨hc, hp, ha⟩ := Slots.settled_slots s.toSlots
    exact Or.inl (hs.congr hc hp ha)
  | acknowledge retired active current cleared records =>
    obtain ⟨hc, hp, ha⟩ := Slots.settled_slots { s.toSlots with retired := none }
    exact Or.inl (hs.congr hc hp ha)
  | commit active cleared records => exact Or.inl (hs.congr rfl rfl rfl)
  | revert active struck =>
    obtain ⟨r, hr⟩ := Option.isSome_iff_exists.mp henabled.1
    obtain ⟨-, hc, hp⟩ := h.handoff henabled.1
    obtain rfl := hs.of_active hc hp active
    simp only [Slots.apply, hr, active]
    refine Or.imp_right Or.inr (serves_fail ?_ henabled.2.2 struck)
    exact hc
  | restore records =>
    have hactive := (h.handoff henabled.1).1
    simp [henabled.2] at hactive
  | stop records => exact absurd trivial hi

/-! ## Every run -/

/-- **The newest request is kept.**  After a command for `spec` is accepted,
and while no newer command arrives, `spec` is served, or some step refused it
or left it quarantined. -/
theorem request_kept (cfg : Config) (persisted : PersistedState) (before after : List Input)
    (command : Input) (spec : StartSpec)
    (haccepted : Accepted cfg (reached cfg persisted before) command spec)
    (hquiet : ∀ i ∈ after, ¬ i.Supersedes)
    (hkeep : Runs.Along (step cfg) (KeepsRequest cfg)
      (reached cfg persisted (before ++ [command])) after) :
    (reached cfg persisted (before ++ command :: after)).toSlots.Serves spec ∨
      Runs.Ended (step cfg) (EndsRequest cfg spec) (reached cfg persisted before)
        (command :: after) := by
  have hinv := reached_inv cfg persisted (before ++ [command])
  have hrun : reached cfg persisted (before ++ command :: after) =
      Runs.run (step cfg) (step cfg (reached cfg persisted before) command) after := by
    rw [reached, Runs.run_append, Runs.run_cons]
  have hstep : reached cfg persisted (before ++ [command]) =
      step cfg (reached cfg persisted before) command := Runs.run_append ..
  rw [hstep] at hkeep hinv
  rw [hrun]
  rcases serves_of_accepted haccepted with hserves | hended
  · refine (Runs.kept_or_ended (P := fun s : State => s.toSlots.Inv ∧ s.toSlots.Serves spec)
      ?_ ⟨hinv, hserves⟩ (hkeep.and_forall hquiet)).imp And.right .tail
    rintro s i ⟨hs, hserved⟩ ⟨hk, hq⟩
    exact (serves_step hs hserved hq hk).imp_left fun h => ⟨inv_step i hs, h⟩
  · exact Or.inr (.head after hended)

/-- `b` is on trial, and no word comes from it. -/
def quietTrial : List Input := [.inspectCandidate (.frame 100 0) (.quiet 100)]

theorem request_kept_quietTrial :
    (reached .sample .empty ([] ++ .start specB (.quiet 0) :: quietTrial)).toSlots.Serves specB ∨
      Runs.Ended (step .sample) (EndsRequest .sample specB) (reached .sample .empty [])
        (.start specB (.quiet 0) :: quietTrial) :=
  request_kept .sample .empty [] quietTrial (.start specB (.quiet 0)) specB
    ⟨rfl, _, rfl⟩ (by simp [quietTrial, Input.Supersedes]) ⟨trivial, trivial⟩

/-- The newer `b` crashes on trial, and before its restart is due `a` crashes
too. -/
def crashBesideRestart : List Turn :=
  [.sample none 2000 (.frame 2000 9) (.crash 2000),
   .sample none 2100 (.crash 2100) (.frame 2100 0)]

/-- The restart of `b` is replaced by one of `a`; `b` was neither refused nor
quarantined. -/
theorem request_dropped :
    let before := liveA.flatMap Turn.inputs
    let after := crashBesideRestart.flatMap Turn.inputs
    let command := Input.start specB (.quiet 2000)
    let final := reached .sample .empty (before ++ command :: after)
    Accepted .sample (reached .sample .empty before) command specB ∧
      (∀ i ∈ after, ¬ i.Supersedes) ∧
      final.pending.map (·.spec) = some specA ∧ ¬ final.toSlots.Serves specB ∧
      ¬ Runs.Ended (step .sample) (EndsRequest .sample specB) (reached .sample .empty before)
          (command :: after) := by
  refine ⟨⟨rfl, _, rfl⟩, ?_, by decide, ?_, Runs.not_ended_of_along (by decide)⟩
  · simp [crashBesideRestart, Turn.sample, Turn.inputs, tick, Input.Supersedes]
  · intro hserves
    have hspec := hserves.of_pending (p := ⟨specA, 3100⟩) (by decide) (by decide)
    exact absurd hspec (by decide)

end Kwe.Supervisor
