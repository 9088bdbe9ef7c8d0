import Kwe.Supervisor.Refinement

/-!
What the supervisor is asked for: the steps that change it.

* `step_requested`: a step leaves the requested spec as it is, or asks for one
  as `Asks` tells.
-/

namespace Kwe.Supervisor

/-- The step asks for this spec: a command that no handoff holds up, the loss
of the active worker that the request falls back to, or a candidate that
refuses to start. -/
inductive Asks (cfg : Config) (s : State) : Input → StartSpec → Prop
  | command {i : Input} {spec : StartSpec} (request : i.request = some spec)
      (free : s.retired = none) : Asks cfg s i spec
  | lost {probe : Probe} {io : Io} {w : Worker} {kind : FailureKind} (active : s.active = some w)
      (fails : Fails cfg probe w kind) (last : s.retired.isSome ∨ s.candidate = none) :
      Asks cfg s (.inspectActive probe io) w.spec
  | refused {probe : Probe} {io : Io} {w : Worker} (candidate : s.candidate = some w)
      (fails : Fails cfg probe w .refused) : Asks cfg s (.inspectCandidate probe io) w.spec

theorem Slots.fail_requested {v : Verdict} (hv : v ≠ .refused) (spec : StartSpec) (s : Slots) :
    (s.fail v spec).requested = s.requested := by
  cases v with
  | refused => exact absurd rfl hv
  | quarantined => rfl
  | restart at_ => rfl

theorem Slots.lose_requested {v : Verdict} (hv : v ≠ .refused) (w : Worker) (s : Slots) :
    (s.lose v w).requested = s.requested ∨
      (s.retired.isSome ∨ s.candidate = none) ∧ (s.lose v w).requested = some w.spec := by
  unfold Slots.lose
  cases hr : s.retired with
  | some retired => exact Or.inr ⟨Or.inl rfl, Slots.fail_requested hv _ _⟩
  | none =>
    cases hc : s.candidate with
    | some candidate => exact Or.inl rfl
    | none =>
      refine Or.inr ⟨Or.inr rfl, ?_⟩
      dsimp only [Option.isSome_none]
      rw [if_neg (by decide)]
      split
      next => rfl
      next => exact Slots.fail_requested hv _ _

section Handlers

variable {cfg : Config} {s : State}

theorem evictions_not_refused {records : Records} {spec spec' : StartSpec} :
    .refused spec' ∉ records.evictions spec := by
  simp [Records.evictions]

theorem promoteCandidate_not_refused (io : Io) (snapshot : FrameSnapshot) (hs : s.events = [])
    (spec : StartSpec) : .refused spec ∉ (promoteCandidate cfg io snapshot s).events := by
  unfold promoteCandidate
  cases s.candidate with
  | none => simp [hs]
  | some w =>
    cases s.active with
    | none =>
      dsimp only
      split
      next detail _ =>
        have hk : FailureKind.invalidFrame ≠ .refused := by decide
        rw [handleCandidateFailure_events _ _ _ _ _ _ hk]
        simp [hs, evictions_not_refused]
      next s' hpersist =>
        obtain ⟨-, -, hevents⟩ := persistLastGood_ok hpersist
        simp [hevents, hs]
    | some previous => simp [hs]

/-- A refusal is a failure of the candidate of that kind. -/
theorem fails_of_refused {probe : Probe} {io : Io} {spec : StartSpec} (hs : s.events = [])
    (h : .refused spec ∈ (checkCandidate cfg probe io s).events) :
    ∃ w, s.candidate = some w ∧ w.spec = spec ∧ Fails cfg probe w .refused := by
  unfold checkCandidate at h
  cases hc : s.candidate with
  | none => simp [hc, hs] at h
  | some w₀ =>
    have hsame := inspectWorker_same cfg probe w₀
    simp only [hc] at h
    split at h
    next => simp [hs] at h
    next snapshot w _ =>
      split at h
      next => exact absurd h (promoteCandidate_not_refused io snapshot (by exact hs) spec)
      next => split at h <;> simp [hs] at h
    next kind detail w hw =>
      by_cases hk : kind = .refused
      · refine ⟨w₀, rfl, ?_, detail, by rw [hw, hk]⟩
        rw [hw] at hsame
        have hspec : spec = w.spec := by
          simpa [handleCandidateFailure, hk, State.emit, hs] using h
        rw [hspec, hsame.2]
      · rw [handleCandidateFailure_events _ _ _ _ _ _ hk] at h
        simp [hs, evictions_not_refused] at h

end Handlers

/-- **What is asked for.**  A step keeps the request or asks for another. -/
theorem step_requested (cfg : Config) (s : State) (i : Input) :
    (step cfg s i).requested = s.requested ∨
      ∃ spec, Asks cfg s i spec ∧ (step cfg s i).requested = some spec := by
  obtain ⟨a, henabled, hslots, -, -, hexplained⟩ := step_refines cfg s i
  have hrequested : (step cfg s i).requested = (s.toSlots.apply a).requested :=
    congrArg Slots.requested hslots
  rw [hrequested]
  cases hexplained with
  | answerQuarantined => exact Or.inr ⟨_, .command rfl henabled, rfl⟩
  | launch records => exact Or.inr ⟨_, .command records.request henabled.1, rfl⟩
  | launchFailed base =>
    exact Or.inr ⟨_, .command base.request henabled.1, Slots.fail_requested henabled.2 _ _⟩
  | refuse refused =>
    obtain ⟨w, hw, rfl, hfails⟩ := fails_of_refused (s := { s with events := [] }) rfl refused
    exact Or.inr ⟨_, .refused hw hfails, rfl⟩
  | failCandidate _ _ counted => exact Or.inl (Slots.fail_requested counted _ _)
  | loseActive active fails =>
    dsimp only [Slots.apply]
    rw [active]
    rcases Slots.lose_requested henabled.2 _ s.toSlots with hsame | ⟨hlast, hlost⟩
    · exact Or.inl hsame
    · exact Or.inr ⟨_, .lost active fails hlast, hlost⟩
  | revert active =>
    obtain ⟨hretired, -, hv⟩ := henabled
    obtain ⟨retired, hr⟩ := Option.isSome_iff_exists.mp hretired
    dsimp only [Slots.apply]
    rw [hr, active]
    exact Or.inl (Slots.fail_requested hv _ _)
  | restore =>
    dsimp only [Slots.apply]
    split <;> exact Or.inl rfl
  | promoteFirst first =>
    dsimp only [Slots.apply, Slots.promoted]
    split <;> exact Or.inl rfl
  | promote =>
    dsimp only [Slots.apply, Slots.promoted]
    split <;> exact Or.inl rfl
  | settle =>
    dsimp only [Slots.apply, Slots.settled]
    split <;> exact Or.inl rfl
  | acknowledge =>
    dsimp only [Slots.apply, Slots.settled]
    split <;> exact Or.inl rfl
  | _ => exact Or.inl rfl

/-- A command asks for its spec, or does nothing to the phase. -/
theorem step_command (cfg : Config) {s : State} {i : Input} {spec : StartSpec}
    (hi : i.request = some spec) :
    (step cfg s i).requested = some spec ∨
      (step cfg s i).requested = s.requested ∧ (step cfg s i).phase = s.phase := by
  obtain ⟨a, henabled, hslots, -, -, hexplained⟩ := step_refines cfg s i
  have hrequested : (step cfg s i).requested = (s.toSlots.apply a).requested :=
    congrArg Slots.requested hslots
  have hphase : (step cfg s i).phase = (s.toSlots.apply a).phase := congrArg Slots.phase hslots
  rw [hrequested, hphase]
  cases hexplained with
  | idle => exact Or.inr ⟨rfl, rfl⟩
  | touchActive => exact Or.inr ⟨rfl, rfl⟩
  | abandon => exact Or.inr ⟨rfl, rfl⟩
  | answerQuarantined => exact Or.inl hi
  | launch records => exact Or.inl (records.request.symm.trans hi)
  | launchFailed base =>
    exact Or.inl ((Slots.fail_requested henabled.2 _ _).trans (base.request.symm.trans hi))
  | failCandidate _ command => rw [command] at hi; cases hi
  | _ => cases hi

end Kwe.Supervisor
