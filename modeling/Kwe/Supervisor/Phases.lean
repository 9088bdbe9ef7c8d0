import Kwe.Supervisor.Refinement

/-!
The phase and the slots: which slots each phase promises to be filled or
empty (`Slots.Consistent`).

* `matched_step`: every step keeps the promises, unless it is one of the two
  that `KeepsPhase` excludes;
* `reached_consistent`: so does every run.
-/

namespace Kwe.Supervisor

open Foundation

/-- What the phase says of the slots. -/
structure Slots.Consistent (s : Slots) : Prop where
  handoff : s.retired.isSome → s.active.isSome ∧ s.candidate = none ∧ s.pending = none
  exclusive : s.candidate = none ∨ s.pending = none
  awaitingAck : s.phase = .awaitingAck ↔ s.retired.isSome
  onTrial : s.phase = .starting ∨ s.phase = .canary → s.candidate.isSome
  restarting : s.phase = .restarting → s.pending.isSome
  rolledBack : s.phase = .rolledBack → s.active.isSome
  empty : s.phase = .stopped ∨ s.phase = .idle ∨ s.phase = .quarantined →
    s.active = none ∧ s.candidate = none ∧ s.retired = none ∧ s.pending = none

/-- The part of `Slots.Consistent` that not every step keeps. -/
structure Slots.Matched (s : Slots) : Prop where
  onTrial : s.phase = .starting ∨ s.phase = .canary → s.candidate.isSome
  restarting : s.phase = .restarting → s.pending.isSome
  quarantined : s.phase = .quarantined → s.pending = none

theorem Slots.consistent {s : Slots} (h : s.Inv) (hm : s.Matched) : s.Consistent where
  handoff := h.handoff
  exclusive := h.exclusive
  awaitingAck := h.awaiting
  onTrial := hm.onTrial
  restarting := hm.restarting
  rolledBack := fun hp => h.shown (Or.inr hp)
  empty := by
    rintro (hp | hp | hp)
    · obtain ⟨ha, hc, hr⟩ := h.empty (Or.inr (Or.inl hp))
      exact ⟨ha, hc, hr, h.quiet (Or.inr hp)⟩
    · obtain ⟨ha, hc, hr⟩ := h.empty (Or.inl hp)
      exact ⟨ha, hc, hr, h.quiet (Or.inl hp)⟩
    · obtain ⟨ha, hc, hr⟩ := h.empty (Or.inr (Or.inr hp))
      exact ⟨ha, hc, hr, hm.quarantined hp⟩

theorem Slots.matched_new : Slots.new.Matched := by
  constructor <;> simp [Slots.new]

/-! ## One step -/

theorem Slots.matched_fail (v : Verdict) (spec : StartSpec) (s : Slots) :
    (s.fail v spec).Matched := by
  cases h : s.active <;> cases v <;> constructor <;>
    simp [Slots.fail, Slots.rolledBackOr, h]

/-- A phase that promises nothing about the slots. -/
theorem Slots.matched_of_free {s : Slots}
    (h : s.phase ≠ .starting ∧ s.phase ≠ .canary ∧ s.phase ≠ .restarting ∧
      s.phase ≠ .quarantined) : s.Matched := by
  obtain ⟨hs, hc, hr, hq⟩ := h
  exact ⟨fun hp => (hp.elim hs hc).elim, fun hp => (hr hp).elim, fun hp => (hq hp).elim⟩

theorem Slots.matched_settled {s : Slots} (hm : s.Matched) : s.settled.Matched := by
  unfold Slots.settled
  split
  next => exact Slots.matched_of_free (by simp)
  next => exact hm

theorem Slots.matched_lose {s : Slots} {w : Worker} {v : Verdict}
    (hkeep : s.retired = none → s.candidate = none → v = .quarantined → s.pending = none) :
    (s.lose v w).Matched := by
  unfold Slots.lose
  cases hr : s.retired with
  | some r => exact Slots.matched_fail ..
  | none =>
    simp only
    split
    next hc => exact ⟨fun _ => hc, by simp, by simp⟩
    next hc =>
      split
      next hv => exact ⟨by simp, by simp, fun _ => hkeep hr (by simpa using hc) hv⟩
      next => exact Slots.matched_fail ..

/-- The two steps that can leave a phase without its slot do not: a retry
whose save fails finds nothing on trial or waiting, and an active worker whose
failure is its last finds no restart waiting. -/
def KeepsPhase (cfg : Config) (s : State) : Input → Prop
  | .retry _ io =>
      s.retired = none → ∀ detail, io.save 0 = .error detail →
        s.phase ≠ .starting ∧ s.phase ≠ .canary ∧ s.phase ≠ .restarting
  | .inspectActive probe _ =>
      s.retired = none → s.candidate = none → ∀ w kind, s.active = some w →
        Fails cfg probe w kind → s.persisted.records.strikesOut w.spec cfg → s.pending = none
  | _ => True

theorem matched_step {cfg : Config} {s : State} {i : Input} (h : s.toSlots.Inv)
    (hm : s.toSlots.Matched) (hkeep : KeepsPhase cfg s i) : (step cfg s i).toSlots.Matched := by
  obtain ⟨a, henabled, hslots, -, -, hexplained⟩ := step_refines cfg s i
  rw [hslots]
  cases hexplained with
  | idle busy records => exact hm
  | touchActive records command => exact ⟨hm.onTrial, hm.restarting, hm.quarantined⟩
  | touchCandidate records =>
    obtain ⟨w₀, hw₀, -⟩ := henabled
    have hpending : s.pending = none := by
      have hexclusive := h.exclusive
      rwa [hw₀, or_iff_right (by simp)] at hexclusive
    refine ⟨fun _ => rfl, ?_, fun _ => hpending⟩
    simp only [Slots.apply]
    split
    next => simp
    next => exact hm.restarting
  | abandon unsaved records =>
    obtain ⟨hstarting, hcanary, hrestarting⟩ := hkeep henabled _ unsaved
    exact ⟨fun hp => (hp.elim hstarting hcanary).elim, fun hp => (hrestarting hp).elim,
      fun _ => rfl⟩
  | answerQuarantined found quarantined records =>
    cases ha : s.active <;> constructor <;> simp [Slots.apply, Slots.rolledBackOr, ha]
  | launch records =>
    cases ha : s.active <;> constructor <;> simp [Slots.apply, Slots.launchPhase, ha]
  | launchFailed base struck => exact Slots.matched_fail ..
  | relaunch records =>
    cases ha : s.active <;> constructor <;> simp [Slots.apply, Slots.launchPhase, ha]
  | refuse refused records => exact Slots.matched_fail .refused _ _
  | failCandidate struck command counted => exact Slots.matched_fail ..
  | loseActive active fails struck =>
    simp only [Slots.apply, active]
    refine Slots.matched_lose fun hr hc hv => ?_
    exact hkeep hr hc _ _ active fails (struck.decided.mp hv)
  | promoteFirst first cleared records =>
    exact Slots.matched_of_free (by simp [Slots.apply, Slots.promoted, first])
  | promote records =>
    cases ha : s.active <;>
      exact Slots.matched_of_free (by simp [Slots.apply, Slots.promoted, ha])
  | settle current records => exact Slots.matched_settled hm
  | acknowledge retired active current cleared records =>
    exact Slots.matched_settled ⟨hm.onTrial, hm.restarting, hm.quarantined⟩
  | commit active cleared records => exact Slots.matched_of_free (by simp [Slots.apply])
  | revert active struck =>
    obtain ⟨r, hr⟩ := Option.isSome_iff_exists.mp henabled.1
    simp only [Slots.apply, hr, active]
    exact Slots.matched_fail ..
  | restore records =>
    obtain ⟨r, hr⟩ := Option.isSome_iff_exists.mp henabled.1
    exact Slots.matched_of_free (by simp [Slots.apply, hr])
  | stop records => exact Slots.matched_of_free (by simp [Slots.apply])

/-! ## Every run -/

/-- **Phase and slots agree** in every state of a run that meets
`KeepsPhase`. -/
theorem reached_consistent (cfg : Config) (persisted : PersistedState) (is : List Input)
    (h : Runs.Along (step cfg) (KeepsPhase cfg) (State.new persisted) is) :
    ∀ pre, pre <+: is → (reached cfg persisted pre).toSlots.Consistent := by
  rintro pre ⟨post, rfl⟩
  have hmatched := Runs.invariant_run (I := fun s : State => s.toSlots.Inv ∧ s.toSlots.Matched)
    (fun _ i hs hkeep => ⟨inv_step i hs.1, matched_step hs.1 hs.2 hkeep⟩)
    ⟨Slots.inv_new, Slots.matched_new⟩ ((Runs.along_append _ _ _).mp h).1
  exact Slots.consistent hmatched.1 hmatched.2

/-- A retry whose save fails, on a fresh supervisor. -/
def failedRetry : List Input :=
  [.retry specA { Io.quiet 0 with save := fun _ => .error "disk full" }]

theorem reached_consistent_failedRetry :
    (reached .sample .empty failedRetry).toSlots.Consistent :=
  reached_consistent .sample .empty failedRetry ⟨fun _ _ _ => by decide, trivial⟩ _
    (List.prefix_refl _)

/-- `a` is on trial when a retry arrives whose save fails. -/
def failedRetryOnTrial : List Turn :=
  [.sample (some (.start specA (.quiet 0))) 0 (.frame 0 0) (.frame 0 1),
   .sample (some (.retry specB { Io.quiet 100 with save := fun _ => .error "disk full" })) 100
     (.frame 100 0) (.frame 100 2)]

/-- After the first run the phase is `Starting` with nothing on trial, after
the second `Quarantined` with a restart waiting. -/
theorem phase_without_slot :
    (let s := reached .sample .empty (failedRetryOnTrial.flatMap Turn.inputs)
     s.phase = .starting ∧ s.candidate = none ∧ ¬ s.toSlots.Consistent) ∧
    (let s := reached .sample .empty ((quarantineBesideRestart.take 5).flatMap Turn.inputs)
     s.phase = .quarantined ∧ s.pending.map (·.spec) = some specB ∧ ¬ s.toSlots.Consistent) := by
  refine ⟨⟨by decide, by decide, fun h => ?_⟩, ⟨by decide, by decide, fun h => ?_⟩⟩
  · exact absurd (h.onTrial (Or.inl (by decide))) (by decide)
  · exact absurd (h.empty (Or.inr (Or.inr (by decide)))).2.2.2 (by decide)

end Kwe.Supervisor
