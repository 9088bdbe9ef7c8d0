import Kwe.Supervisor.Model

/-!
The supervisor as an abstract machine over its slots: which worker shows
frames, which one is on trial, which one waits for the display to let go of
it, and which spec waits for a restart.

An `Action` is what one step does to the slots, with the verdict on a failure
as a parameter; when a failure is a quarantine, and what the clock and the
store answer, is left open.  `Slots.Inv` holds after every enabled action.
-/

namespace Kwe.Supervisor

/-- How a failure is answered. -/
inductive Verdict
  | refused
  | quarantined
  | restart (at_ : Nat)
  deriving DecidableEq

inductive Action
  | idle
  | touchActive (w : Worker)
  | touchCandidate (w : Worker) (observed : Bool)
  | abandon
  | answerQuarantined (spec : StartSpec)
  | launch (spec : StartSpec) (w : Worker)
  | launchFailed (spec : StartSpec) (v : Verdict)
  | relaunch (w : Worker)
  | failCandidate (spec : StartSpec) (v : Verdict)
  | loseActive (v : Verdict)
  | promote (w : Worker) (deadline : Nat) (snapshot : FrameSnapshot)
  | settle
  | acknowledge
  | commit
  | revert (v : Verdict)
  | restore
  | stop

/-- `w` is the worker `w₀`, perhaps with more progress. -/
def Worker.Same (w₀ w : Worker) : Prop := w.child = w₀.child ∧ w.spec = w₀.spec

/-- The slots after a failure of `spec` was answered. -/
def Slots.fail (v : Verdict) (spec : StartSpec) (s : Slots) : Slots :=
  match v with
  | .refused =>
    { s with pending := none, requested := some spec, phase := s.rolledBackOr .stopped }
  | .quarantined => { s with pending := none, phase := s.rolledBackOr .quarantined }
  | .restart at_ => { s with pending := some ⟨spec, at_⟩, phase := .restarting }

/-- The slots after the active worker `w` was lost. -/
def Slots.lose (v : Verdict) (w : Worker) (s : Slots) : Slots :=
  match s.retired with
  | some retired =>
    { s with
      active := some retired.worker
      retired := none
      requested := some w.spec
      displayGeneration := nextGeneration s.displayGeneration : Slots }.fail v w.spec
  | none =>
    if s.candidate.isSome then { s with active := none, phase := .starting }
    else if v = .quarantined then
      { s with active := none, requested := some w.spec, phase := .quarantined }
    else { s with active := none, requested := some w.spec : Slots }.fail v w.spec

/-- The slots after the candidate, now `w`, became the active worker. -/
def Slots.promoted (w : Worker) (deadline : Nat) (snapshot : FrameSnapshot) (s : Slots) : Slots :=
  let s' := { s with
    active := some w
    candidate := none
    pending := none
    displayGeneration := nextGeneration s.displayGeneration }
  match s.active with
  | none => { s' with phase := .live }
  | some previous =>
    { s' with
      retired := some ⟨previous, nextGeneration s.displayGeneration, deadline, snapshot⟩
      phase := .awaitingAck }

def Slots.settled (s : Slots) : Slots :=
  if s.active.isSome && s.candidate.isNone then { s with phase := .live } else s

def Slots.apply (s : Slots) : Action → Slots
  | .idle => s
  | .touchActive w => { s with active := some w }
  | .touchCandidate w observed =>
      { s with
        candidate := some w
        phase := if observed && s.active.isSome then .canary else s.phase }
  | .abandon => { s with candidate := none, pending := none }
  | .answerQuarantined spec =>
      { s with
        candidate := none
        pending := none
        requested := some spec
        phase := s.rolledBackOr .quarantined }
  | .launch spec w =>
      { s with
        candidate := some w
        pending := none
        requested := some spec
        phase := s.launchPhase
        children := s.children + 1 }
  | .launchFailed spec v => { s with candidate := none, requested := some spec : Slots }.fail v spec
  | .relaunch w =>
      { s with
        candidate := some w
        pending := none
        phase := s.launchPhase
        children := s.children + 1 }
  | .failCandidate spec v => { s with candidate := none : Slots }.fail v spec
  | .loseActive v =>
      match s.active with
      | none => s
      | some w => s.lose v w
  | .promote w deadline snapshot => s.promoted w deadline snapshot
  | .settle => s.settled
  | .acknowledge => { s with retired := none : Slots }.settled
  | .commit => { s with retired := none, phase := .live }
  | .revert v =>
      match s.retired, s.active with
      | some retired, some failed =>
        { s with
          active := some retired.worker
          retired := none
          displayGeneration := nextGeneration s.displayGeneration : Slots }.fail v failed.spec
      | _, _ => s
  | .restore =>
      match s.retired with
      | none => s
      | some retired =>
        { s with active := some retired.worker, retired := none, phase := .rolledBack }
  | .stop =>
      { s with active := none, candidate := none, retired := none, pending := none, phase := .stopped }

/-- When an action can happen. -/
def Slots.Enabled (s : Slots) : Action → Prop
  | .idle | .stop => True
  | .touchActive w => ∃ w₀, s.active = some w₀ ∧ w₀.Same w
  | .touchCandidate w _ => ∃ w₀, s.candidate = some w₀ ∧ w₀.Same w
  | .abandon | .answerQuarantined _ => s.retired = none
  | .launch spec w => s.retired = none ∧ w.spec = spec ∧ w.child = s.children
  | .launchFailed _ v => s.retired = none ∧ v ≠ .refused
  | .relaunch w =>
      s.candidate = none ∧ ∃ p, s.pending = some p ∧ w.spec = p.spec ∧ w.child = s.children
  | .failCandidate spec _ =>
      (∃ w, s.candidate = some w ∧ w.spec = spec) ∨
        s.candidate = none ∧ ∃ p, s.pending = some p ∧ p.spec = spec
  | .loseActive v => s.active.isSome ∧ v ≠ .refused
  | .promote w _ _ => ∃ w₀, s.candidate = some w₀ ∧ w₀.Same w
  | .settle => s.retired = none
  | .acknowledge | .commit => s.retired.isSome ∧ s.active.isSome
  | .revert v => s.retired.isSome ∧ s.active.isSome ∧ v ≠ .refused
  | .restore => s.retired.isSome ∧ s.active = none

/-- What holds of the slots in every state. -/
structure Slots.Inv (s : Slots) : Prop where
  /-- An open handoff has an active worker, and nothing else is under way. -/
  handoff : s.retired.isSome → s.active.isSome ∧ s.candidate = none ∧ s.pending = none
  exclusive : s.candidate = none ∨ s.pending = none
  awaiting : s.phase = .awaitingAck ↔ s.retired.isSome
  generation : ∀ r, s.retired = some r → r.generation = s.displayGeneration
  shown : s.phase = .live ∨ s.phase = .rolledBack → s.active.isSome
  empty : s.phase = .idle ∨ s.phase = .stopped ∨ s.phase = .quarantined →
    s.active = none ∧ s.candidate = none ∧ s.retired = none
  quiet : s.phase = .idle ∨ s.phase = .stopped → s.pending = none
  /-- The processes in the slots were launched, each for one slot. -/
  activeChild : ∀ w, s.active = some w → w.child < s.children
  candidateChild : ∀ w, s.candidate = some w →
    w.child < s.children ∧ ∀ a, s.active = some a → a.child ≠ w.child
  retiredChild : ∀ r, s.retired = some r →
    r.worker.child < s.children ∧ ∀ a, s.active = some a → a.child ≠ r.worker.child

theorem Slots.inv_new : Slots.new.Inv := by
  constructor <;> simp [Slots.new]

/-! ## The invariant after each action -/

@[simp] theorem Slots.fail_active (v : Verdict) (spec : StartSpec) (s : Slots) :
    (s.fail v spec).active = s.active := by cases v <;> rfl

@[simp] theorem Slots.fail_candidate (v : Verdict) (spec : StartSpec) (s : Slots) :
    (s.fail v spec).candidate = s.candidate := by cases v <;> rfl

@[simp] theorem Slots.fail_retired (v : Verdict) (spec : StartSpec) (s : Slots) :
    (s.fail v spec).retired = s.retired := by cases v <;> rfl

@[simp] theorem Slots.fail_displayGeneration (v : Verdict) (spec : StartSpec) (s : Slots) :
    (s.fail v spec).displayGeneration = s.displayGeneration := by cases v <;> rfl

@[simp] theorem Slots.fail_children (v : Verdict) (spec : StartSpec) (s : Slots) :
    (s.fail v spec).children = s.children := by cases v <;> rfl

/-- Answering a failure, with no handoff open and no candidate left, restores
the invariant whatever the phase and the pending slot were. -/
theorem Slots.inv_fail {s : Slots} (v : Verdict) (spec : StartSpec)
    (hretired : s.retired = none) (hcandidate : s.candidate = none)
    (hactive : ∀ w, s.active = some w → w.child < s.children) : (s.fail v spec).Inv := by
  cases h : s.active with
  | none => cases v <;> constructor <;> simp_all [Slots.fail, Slots.rolledBackOr]
  | some w => cases v <;> constructor <;> simp_all [Slots.fail, Slots.rolledBackOr]

theorem Slots.inv_settled {s : Slots} (h : s.Inv) (hretired : s.retired = none) :
    s.settled.Inv := by
  unfold Slots.settled
  split
  next hs =>
    rw [Bool.and_eq_true] at hs
    obtain ⟨hh, he, ha, hg, hsh, hem, hq, hac, hcc, hrc⟩ := h
    constructor <;> simp_all
  next => exact h

theorem Slots.inv_lose {s : Slots} {w : Worker} (v : Verdict) (h : s.Inv)
    (hw : s.active = some w) : (s.lose v w).Inv := by
  unfold Slots.lose
  cases hr : s.retired with
  | some r =>
    have hc := (h.handoff (by simp [hr])).2.1
    have hr' := (h.retiredChild r hr).1
    exact Slots.inv_fail _ _ rfl hc (by simpa using hr')
  | none =>
    simp only
    split
    next hc =>
      obtain ⟨hh, he, ha, hg, hsh, hem, hq, hac, hcc, hrc⟩ := h
      constructor <;> simp_all
    next hc =>
      have hc : s.candidate = none := by simpa using hc
      split
      next hq => constructor <;> simp [hc]
      next hq => exact Slots.inv_fail _ _ rfl hc (by simp)

theorem Slots.inv_promoted {s : Slots} {w₀ w : Worker} (deadline : Nat) (snapshot : FrameSnapshot)
    (h : s.Inv) (hw : s.candidate = some w₀) (hsame : w₀.Same w) :
    (s.promoted w deadline snapshot).Inv := by
  have hr : s.retired = none := by
    cases hr : s.retired with
    | none => rfl
    | some r => simpa [hw] using (h.handoff (by simp [hr])).2.1
  have hchild := h.candidateChild w₀ hw
  rw [← hsame.1] at hchild
  cases ha : s.active with
  | none => constructor <;> simp_all [Slots.promoted]
  | some previous =>
    have hp := h.activeChild previous ha
    have hne := hchild.2 previous ha
    constructor <;> simp_all [Slots.promoted]
    exact fun h => hne h.symm

theorem Slots.inv_apply {s : Slots} {a : Action} (h : s.Inv) (he : s.Enabled a) :
    (s.apply a).Inv := by
  cases a with
  | idle => exact h
  | touchActive w =>
    obtain ⟨w₀, hw, hsame⟩ := he
    have hac := h.activeChild w₀ hw
    obtain ⟨hh, hx, ha, hg, hsh, hem, hq, _, hcc, hrc⟩ := h
    constructor <;> simp_all [Slots.apply, Worker.Same]
  | touchCandidate w observed =>
    obtain ⟨w₀, hw, hsame⟩ := he
    have hcand := h.candidateChild w₀ hw
    rw [← hsame.1] at hcand
    have hr : s.retired = none := by
      cases hr : s.retired with
      | none => rfl
      | some r => simpa [hw] using (h.handoff (by simp [hr])).2.1
    obtain ⟨hh, hx, ha, hg, hsh, hem, hq, hac, hcc, hrc⟩ := h
    cases observed <;> cases hact : s.active <;> constructor <;> simp_all [Slots.apply]
  | abandon =>
    have he : s.retired = none := he
    obtain ⟨hh, hx, ha, hg, hsh, hem, hq, hac, hcc, hrc⟩ := h
    constructor <;> simp_all [Slots.apply]
  | answerQuarantined spec =>
    have he : s.retired = none := he
    have hac := h.activeChild
    cases hact : s.active <;> constructor <;> simp_all [Slots.apply, Slots.rolledBackOr]
  | launch spec w =>
    obtain ⟨hr, hspec, hchild⟩ := he
    have hac := h.activeChild
    cases hact : s.active <;> constructor <;> simp_all [Slots.apply, Slots.launchPhase] <;> omega
  | launchFailed spec v => exact Slots.inv_fail _ _ he.1 rfl h.activeChild
  | relaunch w =>
    obtain ⟨hc, p, hp, hspec, hchild⟩ := he
    have hr : s.retired = none := by
      cases hr : s.retired with
      | none => rfl
      | some r => simpa [hp] using (h.handoff (by simp [hr])).2.2
    have hac := h.activeChild
    cases hact : s.active <;> constructor <;> simp_all [Slots.apply, Slots.launchPhase] <;> omega
  | failCandidate spec v =>
    have hr : s.retired = none := by
      cases hr : s.retired with
      | none => rfl
      | some r =>
        obtain ⟨-, hc, hp⟩ := h.handoff (by simp [hr])
        rcases he with ⟨w, hw, -⟩ | ⟨-, p, hp', -⟩
        · simp [hc] at hw
        · simp [hp] at hp'
    exact Slots.inv_fail _ _ hr rfl h.activeChild
  | loseActive v =>
    obtain ⟨w, hw⟩ := Option.isSome_iff_exists.mp he.1
    simp only [Slots.apply, hw]
    exact Slots.inv_lose v h hw
  | promote w deadline snapshot =>
    obtain ⟨w₀, hw, hsame⟩ := he
    exact Slots.inv_promoted deadline snapshot h hw hsame
  | settle => exact Slots.inv_settled h he
  | acknowledge =>
    have hc := h.handoff he.1
    obtain ⟨w, hw⟩ := Option.isSome_iff_exists.mp he.2
    have hac := h.activeChild
    constructor <;> simp_all [Slots.apply, Slots.settled]
  | commit =>
    have hc := h.handoff he.1
    have hac := h.activeChild
    constructor <;> simp_all [Slots.apply]
  | revert v =>
    obtain ⟨r, hr⟩ := Option.isSome_iff_exists.mp he.1
    obtain ⟨w, hw⟩ := Option.isSome_iff_exists.mp he.2.1
    simp only [Slots.apply, hr, hw]
    exact Slots.inv_fail _ _ rfl (h.handoff he.1).2.1 (by simpa using (h.retiredChild r hr).1)
  | restore => simpa [he.2] using (h.handoff he.1).1
  | stop => constructor <;> simp [Slots.apply]

end Kwe.Supervisor
