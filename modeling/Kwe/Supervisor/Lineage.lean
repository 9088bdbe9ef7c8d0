import Kwe.Supervisor.Generations

/-!
Where the workers in the slots come from: a new candidate is a new process,
and a handoff is opened by a candidate only.

`Slots.Descends` says so of one step, `descends_step` proves it for every step
of the supervisor.
-/

namespace Kwe.Supervisor

/-- The candidate is a process that the slots had as one, or a new one; a
handoff that is open was open before with the same process active at the same
generation, or its process was the candidate. -/
structure Slots.Descends (s s' : Slots) : Prop where
  children : s.children ≤ s'.children
  candidate : ∀ w', s'.candidate = some w' →
    w'.child = s.children ∨ ∃ w, s.candidate = some w ∧ w.child = w'.child
  handoff : ∀ w', s'.retired.isSome → s'.active = some w' →
    (s.retired.isSome ∧ s'.displayGeneration = s.displayGeneration ∧
      s.source = some w'.child) ∨
    ∃ w, s.candidate = some w ∧ w.child = w'.child

/-- The slots keep their candidate, the active worker and the generation, and
no handoff is opened. -/
theorem Slots.Descends.of_kept {s s' : Slots} (hchildren : s.children ≤ s'.children)
    (hcandidate : s'.candidate = s.candidate ∨ s'.candidate = none)
    (hretired : s'.retired = none ∨
      s'.retired = s.retired ∧ s'.active = s.active ∧
        s'.displayGeneration = s.displayGeneration) : s.Descends s' := by
  refine ⟨hchildren, ?_, ?_⟩
  · intro w' hw'
    rcases hcandidate with hc | hc
    · exact Or.inr ⟨w', by rw [← hc, hw'], rfl⟩
    · simp [hc] at hw'
  · intro w' hr hw'
    rcases hretired with hnone | ⟨hr', ha, hg⟩
    · simp [hnone] at hr
    · exact Or.inl ⟨hr' ▸ hr, hg, by rw [Slots.source, ← ha, hw']; rfl⟩

theorem Slots.descends_promoted {s : Slots} {w₀ w : Worker} (deadline : Nat)
    (snapshot : FrameSnapshot) (hw : s.candidate = some w₀) (hsame : w₀.Same w) :
    s.Descends (s.promoted w deadline snapshot) := by
  have hcandidate : (s.promoted w deadline snapshot).candidate = none := by
    unfold Slots.promoted
    cases s.active <;> rfl
  have hactive : (s.promoted w deadline snapshot).active = some w := by
    unfold Slots.promoted
    cases s.active <;> rfl
  have hchildren : (s.promoted w deadline snapshot).children = s.children := by
    unfold Slots.promoted
    cases s.active <;> rfl
  refine ⟨hchildren.ge, by simp [hcandidate], ?_⟩
  rintro w' - hw'
  obtain rfl : w = w' := by simpa [hactive] using hw'
  exact Or.inr ⟨w₀, hw, hsame.1.symm⟩

theorem Slots.descends_lose {s : Slots} {w : Worker} (v : Verdict) :
    s.Descends (s.lose v w) := by
  unfold Slots.lose
  cases hr : s.retired with
  | some r => exact .of_kept (by simp) (by simp) (by simp)
  | none =>
    simp only
    split
    · exact .of_kept le_rfl (Or.inl rfl) (by simp)
    · split
      · exact .of_kept le_rfl (Or.inl rfl) (by simp)
      · exact .of_kept (by simp) (by simp) (by simp [hr])

/-- Settling changes the phase only. -/
theorem Slots.settled_eq (s : Slots) : s.settled = { s with phase := s.settled.phase } := by
  unfold Slots.settled
  split <;> rfl

theorem Slots.descends_apply {s : Slots} {a : Action} (h : s.Inv) (he : s.Enabled a) :
    s.Descends (s.apply a) := by
  have hlaunched : ∀ {w : Worker}, w.child = s.children → s.retired = none →
      ∀ {s' : Slots}, s'.candidate = some w → s'.retired = s.retired →
        s'.children = s.children + 1 → s.Descends s' := by
    intro w hchild hretired s' hc hr hchildren
    refine ⟨by omega, ?_, by simp [hr, hretired]⟩
    intro w' hw'
    obtain rfl : w = w' := by simpa [hc] using hw'
    exact Or.inl hchild
  cases a with
  | idle => exact .of_kept le_rfl (Or.inl rfl) (Or.inr ⟨rfl, rfl, rfl⟩)
  | touchActive w =>
    obtain ⟨w₀, hw₀, hsame⟩ := he
    refine ⟨le_rfl, fun w' hw' => Or.inr ⟨w', hw', rfl⟩, fun w' hr hw' => Or.inl ⟨hr, rfl, ?_⟩⟩
    obtain rfl : w = w' := by simpa [Slots.apply] using hw'
    simp [Slots.source, hw₀, hsame.1]
  | touchCandidate w observed =>
    obtain ⟨w₀, hw₀, hsame⟩ := he
    refine ⟨le_rfl, ?_, fun w' hr hw' => Or.inl ⟨hr, rfl, ?_⟩⟩
    · intro w' hw'
      obtain rfl : w = w' := by simpa [Slots.apply] using hw'
      exact Or.inr ⟨w₀, hw₀, hsame.1.symm⟩
    · have hactive : s.active = some w' := hw'
      rw [Slots.source, hactive]
      rfl
  | abandon => exact .of_kept le_rfl (Or.inr rfl) (Or.inr ⟨rfl, rfl, rfl⟩)
  | answerQuarantined spec => exact .of_kept le_rfl (Or.inr rfl) (Or.inr ⟨rfl, rfl, rfl⟩)
  | launch spec w => exact hlaunched he.2.2 he.1 rfl rfl rfl
  | launchFailed spec v =>
    exact .of_kept (by simp [Slots.apply]) (by simp [Slots.apply]) (by simp [Slots.apply])
  | relaunch w =>
    obtain ⟨-, p, hp, -, hchild⟩ := he
    have hretired : s.retired = none := by
      by_contra hr
      simpa [hp] using (h.handoff (Option.isSome_iff_ne_none.mpr hr)).2.2
    exact hlaunched hchild hretired rfl rfl rfl
  | failCandidate spec v =>
    exact .of_kept (by simp [Slots.apply]) (by simp [Slots.apply]) (by simp [Slots.apply])
  | loseActive v =>
    obtain ⟨w, hw⟩ := Option.isSome_iff_exists.mp he.1
    simp only [Slots.apply, hw]
    exact Slots.descends_lose v
  | promote w deadline snapshot =>
    obtain ⟨w₀, hw₀, hsame⟩ := he
    exact Slots.descends_promoted deadline snapshot hw₀ hsame
  | settle =>
    rw [Slots.apply, Slots.settled_eq]
    exact .of_kept le_rfl (Or.inl rfl) (Or.inr ⟨rfl, rfl, rfl⟩)
  | acknowledge =>
    rw [Slots.apply, Slots.settled_eq]
    exact .of_kept le_rfl (Or.inl rfl) (Or.inl rfl)
  | commit => exact .of_kept le_rfl (Or.inl rfl) (Or.inl rfl)
  | revert v =>
    obtain ⟨r, hr⟩ := Option.isSome_iff_exists.mp he.1
    obtain ⟨w, hw⟩ := Option.isSome_iff_exists.mp he.2.1
    simp only [Slots.apply, hr, hw]
    exact .of_kept (by simp) (by simp) (by simp)
  | restore =>
    have hactive := (h.handoff he.1).1
    simp [he.2] at hactive
  | stop => exact .of_kept le_rfl (Or.inr rfl) (Or.inl rfl)

theorem descends_step (cfg : Config) {s : State} (i : Input) (h : s.toSlots.Inv) :
    s.toSlots.Descends (step cfg s i).toSlots := by
  obtain ⟨a, ha⟩ := step_refines cfg s i
  rw [ha.slots]
  exact Slots.descends_apply h ha.enabled

end Kwe.Supervisor
