import Kwe.Foundation.Runs
import Kwe.Supervisor.Records
import Kwe.Supervisor.Slots

/-!
The handlers refine the slot machine: whatever the world answers, a step of
the supervisor does to its slots what one enabled `Action` does
(`step_refines`), and `Explains` records which input and which answers that
action stands for.  With it, `Slots.Inv` holds in every state of every run
(`inv_step`).
-/

namespace Kwe.Supervisor

open Foundation

/-! ## Bookkeeping leaves the slots alone -/

@[simp] theorem State.emit_toSlots (e : Event) (s : State) : (s.emit e).toSlots = s.toSlots := rfl

@[simp] theorem saveOrLog_toSlots (outcome : Except String Unit) (s : State) :
    (saveOrLog outcome s).toSlots = s.toSlots := by
  cases outcome <;> rfl

@[simp] theorem saveOrLog_persisted (outcome : Except String Unit) (s : State) :
    (saveOrLog outcome s).persisted = s.persisted := by
  cases outcome <;> rfl

@[simp] theorem emitEviction_toSlots (victim : Option String) (s : State) :
    (emitEviction victim s).toSlots = s.toSlots := by
  cases victim <;> rfl

@[simp] theorem recordFailure_toSlots (cfg : Config) (io : Io) (kind : FailureKind)
    (detail : String) (spec : StartSpec) (s : State) :
    (recordFailure cfg io kind detail spec s).2.toSlots = s.toSlots := by
  simp [recordFailure]

@[simp] theorem clearSuccessRecord_toSlots (io : Io) (spec : StartSpec) (s : State) :
    (clearSuccessRecord io spec s).toSlots = s.toSlots := by
  simp [clearSuccessRecord]

@[simp] theorem stopWorker_toSlots (io : Io) (k : Nat) (countForced : Bool) (s : State) :
    (stopWorker io k countForced s).toSlots = s.toSlots := by
  unfold stopWorker
  split <;> rfl

@[simp] theorem stopWorker_false (io : Io) (k : Nat) (s : State) :
    stopWorker io k false s = s := by
  simp [stopWorker]

@[simp] theorem stopWorker_records (io : Io) (k : Nat) (countForced : Bool) (s : State) :
    (stopWorker io k countForced s).persisted.records = s.persisted.records := by
  unfold stopWorker
  split <;> rfl

@[simp] theorem advanceGeneration_toSlots (s : State) :
    (advanceGeneration s).toSlots =
      { s.toSlots with displayGeneration := nextGeneration s.displayGeneration } := rfl

@[simp] theorem advanceGeneration_persisted (s : State) :
    (advanceGeneration s).persisted = s.persisted := rfl

theorem saveState_ok {outcome : Except String Unit} {s s' : State}
    (h : saveState outcome s = .ok s') : s' = { s with disk := s.persisted } := by
  cases outcome with
  | error detail => cases h
  | ok _ => exact (Except.ok.inj h).symm

theorem persistLastGood_ok {io : Io} {spec : StartSpec} {snapshot : FrameSnapshot} {s s' : State}
    (h : persistLastGood io spec snapshot s = .ok s') :
    s'.toSlots = s.toSlots ∧ s'.persisted.records = s.persisted.records ∧
      s'.events = s.events := by
  unfold persistLastGood at h
  cases hg : io.saveLastGood with
  | error detail => simp [hg] at h
  | ok _ =>
    simp only [hg] at h
    rw [saveState_ok h]
    exact ⟨rfl, rfl, rfl⟩

@[simp] theorem stopCandidate_toSlots (io : Io) (countForced : Bool) (s : State) :
    (stopCandidate io countForced s).toSlots = { s.toSlots with candidate := none } := by
  unfold stopCandidate
  cases h : s.candidate with
  | none => simp [← h]
  | some w => simp

@[simp] theorem stopCandidate_records (io : Io) (countForced : Bool) (s : State) :
    (stopCandidate io countForced s).persisted.records = s.persisted.records := by
  unfold stopCandidate
  split <;> simp

@[simp] theorem stopAll_toSlots (io : Io) (countForced : Bool) (s : State) :
    (stopAll io countForced s).toSlots =
      { s.toSlots with candidate := none, retired := none, active := none } := by
  unfold stopAll
  cases hr : s.retired <;> cases ha : s.active <;> simp [hr, ha]

@[simp] theorem saveOrLog_events (outcome : Except String Unit) (s : State) :
    (saveOrLog outcome s).events = s.events := by
  cases outcome <;> rfl

@[simp] theorem stopWorker_events (io : Io) (k : Nat) (countForced : Bool) (s : State) :
    (stopWorker io k countForced s).events = s.events := by
  unfold stopWorker
  split <;> rfl

@[simp] theorem stopCandidate_events (io : Io) (countForced : Bool) (s : State) :
    (stopCandidate io countForced s).events = s.events := by
  unfold stopCandidate
  split <;> simp

@[simp] theorem stopAll_records (io : Io) (countForced : Bool) (s : State) :
    (stopAll io countForced s).persisted.records = s.persisted.records := by
  unfold stopAll
  cases hr : s.retired <;> cases ha : s.active <;> simp [hr, ha]

@[simp] theorem stopAll_events (io : Io) (countForced : Bool) (s : State) :
    (stopAll io countForced s).events = s.events := by
  unfold stopAll
  cases hr : s.retired <;> cases ha : s.active <;> simp [hr, ha]

@[simp] theorem advanceGeneration_events (s : State) :
    (advanceGeneration s).events = s.events ++ [.advanced s.displayGeneration] := rfl

@[simp] theorem clearSuccessRecord_records (io : Io) (spec : StartSpec) (s : State) :
    (clearSuccessRecord io spec s).persisted.records = s.persisted.records.clear spec := by
  simp [clearSuccessRecord, Records.clear]

@[simp] theorem clearSuccessRecord_events (io : Io) (spec : StartSpec) (s : State) :
    (clearSuccessRecord io spec s).events = s.events ++ [.cleared spec] := by
  simp [clearSuccessRecord, State.emit]

/-- The evictions a failure of `spec` makes. -/
def Records.evictions (records : Records) (spec : StartSpec) : List Event :=
  ((records.migrate spec).victim spec).toList.map Event.evicted

@[simp] theorem recordFailure_events (cfg : Config) (io : Io) (kind : FailureKind)
    (detail : String) (spec : StartSpec) (s : State) :
    (recordFailure cfg io kind detail spec s).2.events =
      s.events ++ s.persisted.records.evictions spec := by
  unfold recordFailure Records.evictions
  simp only [saveOrLog_events]
  cases (s.persisted.records.migrate spec).victim spec <;> simp [emitEviction, State.emit]

/-! ## Failures -/

/-- How a failure of `spec` of this kind is answered. -/
def verdict (cfg : Config) (io : Io) (kind : FailureKind) (spec : StartSpec) (records : Records) :
    Verdict :=
  if kind = .refused then .refused
  else if records.strikesOut spec cfg then .quarantined
  else .restart (io.clock 1 + cfg.restartDelay)

theorem verdict_ne_refused {cfg : Config} {io : Io} {kind : FailureKind} {spec : StartSpec}
    {records : Records} (h : kind ≠ .refused) : verdict cfg io kind spec records ≠ .refused := by
  unfold verdict
  split
  · contradiction
  · split <;> simp

theorem verdict_quarantined {cfg : Config} {io : Io} {kind : FailureKind} {spec : StartSpec}
    {records : Records} (h : kind ≠ .refused) :
    verdict cfg io kind spec records = .quarantined ↔ records.strikesOut spec cfg := by
  unfold verdict
  rw [if_neg h]
  split <;> simp_all

theorem handleCandidateFailure_toSlots (cfg : Config) (io : Io) (kind : FailureKind)
    (detail : String) (spec : StartSpec) (s : State) :
    (handleCandidateFailure cfg io kind detail spec s).toSlots =
      s.toSlots.fail (verdict cfg io kind spec s.persisted.records) spec := by
  unfold handleCandidateFailure
  by_cases hk : kind = .refused
  · simp [hk, verdict, Slots.fail]
  · rw [if_neg hk, recordFailure_eq]
    by_cases hq : s.persisted.records.strikesOut spec cfg <;>
      simp [hk, hq, verdict, Slots.fail, scheduleRestart]

theorem afterFirstFrame_ne_refused (kind : FailureKind) : kind.afterFirstFrame ≠ .refused := by
  cases kind <;> decide

theorem handleActiveFailure_toSlots (cfg : Config) (io : Io) (kind : FailureKind)
    (detail : String) (s : State) {w : Worker} (hw : s.active = some w) :
    (handleActiveFailure cfg io kind detail s).toSlots =
      s.toSlots.lose (verdict cfg io kind.afterFirstFrame w.spec s.persisted.records) w := by
  have hk := afterFirstFrame_ne_refused kind
  unfold handleActiveFailure Slots.lose
  cases hr : s.retired with
  | some retired =>
    simp only [hw, stopWorker_false]
    rw [recordFailure_eq]
    by_cases hq : s.persisted.records.strikesOut w.spec cfg <;>
      simp [hk, hq, verdict, Slots.fail, Slots.rolledBackOr, scheduleRestart]
  | none =>
    simp only [hw, stopWorker_false]
    rw [recordFailure_eq]
    by_cases hc : s.candidate.isSome <;>
      by_cases hq : s.persisted.records.strikesOut w.spec cfg <;>
      simp [hk, hc, hq, verdict, Slots.fail, scheduleRestart]

/-- A failure of `spec` was put on record and answered by `v`. -/
structure Struck (cfg : Config) (spec : StartSpec) (v : Verdict) (records : Records)
    (s' : State) : Prop where
  decided : v = .quarantined ↔ records.strikesOut spec cfg
  recorded : ∃ now kind detail, s'.persisted.records = records.struck cfg now kind detail spec
  evicted : ∀ e ∈ records.evictions spec, e ∈ s'.events

theorem handleCandidateFailure_records (cfg : Config) (io : Io) (kind : FailureKind)
    (detail : String) (spec : StartSpec) (s : State) (hk : kind ≠ .refused) :
    (handleCandidateFailure cfg io kind detail spec s).persisted.records =
      s.persisted.records.struck cfg io.unixSeconds kind detail spec := by
  unfold handleCandidateFailure
  rw [if_neg hk, recordFailure_eq]
  by_cases hq : s.persisted.records.strikesOut spec cfg <;> simp [hq, scheduleRestart]

theorem handleCandidateFailure_events (cfg : Config) (io : Io) (kind : FailureKind)
    (detail : String) (spec : StartSpec) (s : State) (hk : kind ≠ .refused) :
    (handleCandidateFailure cfg io kind detail spec s).events =
      s.events ++ s.persisted.records.evictions spec := by
  unfold handleCandidateFailure
  rw [if_neg hk, recordFailure_eq]
  by_cases hq : s.persisted.records.strikesOut spec cfg <;> simp [hq, scheduleRestart]

theorem handleCandidateFailure_struck (cfg : Config) (io : Io) (kind : FailureKind)
    (detail : String) (spec : StartSpec) (s : State) (hk : kind ≠ .refused) :
    Struck cfg spec (verdict cfg io kind spec s.persisted.records) s.persisted.records
      (handleCandidateFailure cfg io kind detail spec s) where
  decided := verdict_quarantined hk
  recorded := ⟨_, _, _, handleCandidateFailure_records cfg io kind detail spec s hk⟩
  evicted e he := by
    rw [handleCandidateFailure_events cfg io kind detail spec s hk]
    exact List.mem_append_right _ he

theorem handleActiveFailure_records (cfg : Config) (io : Io) (kind : FailureKind)
    (detail : String) (s : State) {w : Worker} (hw : s.active = some w) :
    (handleActiveFailure cfg io kind detail s).persisted.records =
      s.persisted.records.struck cfg io.unixSeconds kind.afterFirstFrame detail w.spec := by
  unfold handleActiveFailure
  cases hr : s.retired with
  | some retired =>
    simp only [hw, stopWorker_false]
    rw [recordFailure_eq]
    by_cases hq : s.persisted.records.strikesOut w.spec cfg <;> simp [hq, scheduleRestart]
  | none =>
    simp only [hw, stopWorker_false]
    rw [recordFailure_eq]
    by_cases hc : s.candidate.isSome <;>
      by_cases hq : s.persisted.records.strikesOut w.spec cfg <;>
      simp [hc, hq, scheduleRestart]

theorem handleActiveFailure_events (cfg : Config) (io : Io) (kind : FailureKind)
    (detail : String) (s : State) {w : Worker} (hw : s.active = some w) :
    (handleActiveFailure cfg io kind detail s).events =
      s.events ++ (if s.retired.isSome then [.advanced s.displayGeneration] else []) ++
        s.persisted.records.evictions w.spec := by
  unfold handleActiveFailure
  cases hr : s.retired with
  | some retired =>
    simp only [hw, stopWorker_false]
    rw [recordFailure_eq]
    by_cases hq : s.persisted.records.strikesOut w.spec cfg <;> simp [hq, scheduleRestart]
  | none =>
    simp only [hw, stopWorker_false]
    rw [recordFailure_eq]
    by_cases hc : s.candidate.isSome <;>
      by_cases hq : s.persisted.records.strikesOut w.spec cfg <;>
      simp [hc, hq, scheduleRestart]

/-! ## Looking at a worker does not replace it -/

theorem checkFrame_same (cfg : Config) (probe : Probe) (w : Worker) :
    w.Same (checkFrame cfg probe w).2 := by
  unfold checkFrame
  cases probe.snapshot <;> simp only <;> (repeat' split) <;> exact ⟨rfl, rfl⟩

theorem checkResident_same (cfg : Config) (probe : Probe) (w : Worker) :
    w.Same (checkResident cfg probe w).2 := by
  unfold checkResident
  cases probe.resident <;> simp only <;> (repeat' split) <;> exact ⟨rfl, rfl⟩

theorem inspectWorker_same (cfg : Config) (probe : Probe) (w : Worker) :
    w.Same (inspectWorker cfg probe w).2 := by
  unfold inspectWorker
  cases hc : probe.child with
  | exited exit => exact ⟨rfl, rfl⟩
  | waitError detail => exact ⟨rfl, rfl⟩
  | running =>
    have hres := checkResident_same cfg probe w
    cases hr : checkResident cfg probe w with
    | mk failure w' =>
      rw [hr] at hres
      cases failure with
      | some failure => exact hres
      | none =>
        have hframe := checkFrame_same cfg probe w'
        exact ⟨hframe.1.trans hres.1, hframe.2.trans hres.2⟩

/-! ## Refinement -/

/-- The spec a command asks to show. -/
def Input.request : Input → Option StartSpec
  | .start spec _ | .retry spec _ => some spec
  | _ => none

/-- The spec of the process an action launches. -/
def Action.launched : Action → Option StartSpec
  | .launch spec _ => some spec
  | .relaunch w => some w.spec
  | _ => none

/-- The records a request of `spec` launches on: a retry clears its own, a
start launches on no quarantined ones. -/
inductive LaunchRecords (spec : StartSpec) (records : Records) : Input → Records → Prop
  | start (io : Io)
      (free : (records.lookup spec).filter FailureRecord.quarantined = none) :
      LaunchRecords spec records (.start spec io) records
  | retry (io : Io) : LaunchRecords spec records (.retry spec io) (records.clear spec)

theorem LaunchRecords.request {spec : StartSpec} {records launched : Records} {i : Input}
    (h : LaunchRecords spec records i launched) : i.request = some spec := by
  cases h <;> rfl

/-- The worker under inspection fails. -/
def Fails (cfg : Config) (probe : Probe) (w : Worker) (kind : FailureKind) : Prop :=
  ∃ detail, (inspectWorker cfg probe w).1 = some (.failure kind detail)

/-- What input and which answers an action stands for, and what becomes of the
failure records. -/
inductive Explains (cfg : Config) (s : Slots) (before : Records) (s' : State) :
    Input → Action → Prop
  | idle {i} (busy : i.request.isSome → s.retired.isSome)
      (records : s'.persisted.records = before) : Explains cfg s before s' i .idle
  | touchActive {i} {w} (records : s'.persisted.records = before)
      (command : i.request = none) : Explains cfg s before s' i (.touchActive w)
  | touchCandidate {probe io w observed}
      (records : s'.persisted.records = before) :
      Explains cfg s before s' (.inspectCandidate probe io) (.touchCandidate w observed)
  | abandon {spec io detail} (unsaved : io.save 0 = .error detail)
      (records : s'.persisted.records = before.clear spec) :
      Explains cfg s before s' (.retry spec io) .abandon
  | answerQuarantined {spec io record}
      (found : before.lookup spec = some record)
      (quarantined : record.quarantined = true)
      (records : s'.persisted.records = before) :
      Explains cfg s before s' (.start spec io) (.answerQuarantined spec)
  | launch {i spec w}
      (records : LaunchRecords spec before i s'.persisted.records) :
      Explains cfg s before s' i (.launch spec w)
  | launchFailed {i spec v records}
      (base : LaunchRecords spec before i records)
      (struck : Struck cfg spec v records s') : Explains cfg s before s' i (.launchFailed spec v)
  | relaunch {now io w} (records : s'.persisted.records = before) :
      Explains cfg s before s' (.pendingRestart now io) (.relaunch w)
  | refuse {probe io spec} (refused : .refused spec ∈ s'.events)
      (records : s'.persisted.records = before) :
      Explains cfg s before s' (.inspectCandidate probe io) (.failCandidate spec .refused)
  | failCandidate {i spec v} (struck : Struck cfg spec v before s')
      (command : i.request = none) (counted : v ≠ .refused) :
      Explains cfg s before s' i (.failCandidate spec v)
  | loseActive {probe io w kind v} (active : s.active = some w) (fails : Fails cfg probe w kind)
      (struck : Struck cfg w.spec v before s') :
      Explains cfg s before s' (.inspectActive probe io) (.loseActive v)
  | promoteFirst {probe io w deadline snapshot} (first : s.active = none)
      (cleared : .cleared w.spec ∈ s'.events)
      (records : s'.persisted.records = before.clear w.spec) :
      Explains cfg s before s' (.inspectCandidate probe io) (.promote w deadline snapshot)
  | promote {probe io w deadline snapshot}
      (records : s'.persisted.records = before) :
      Explains cfg s before s' (.inspectCandidate probe io) (.promote w deadline snapshot)
  | settle {generation io} (current : generation = s.displayGeneration)
      (records : s'.persisted.records = before) :
      Explains cfg s before s' (.acknowledge generation io) .settle
  | acknowledge {generation io r w} (retired : s.retired = some r) (active : s.active = some w)
      (current : generation = r.generation) (cleared : .cleared w.spec ∈ s'.events)
      (records : s'.persisted.records = before.clear w.spec) :
      Explains cfg s before s' (.acknowledge generation io) .acknowledge
  | commit {now io w} (active : s.active = some w) (cleared : .cleared w.spec ∈ s'.events)
      (records : s'.persisted.records = before.clear w.spec) :
      Explains cfg s before s' (.handoffDeadline now io) .commit
  | revert {now io w v} (active : s.active = some w)
      (struck : Struck cfg w.spec v before s') :
      Explains cfg s before s' (.handoffDeadline now io) (.revert v)
  | restore {now io} (records : s'.persisted.records = before) :
      Explains cfg s before s' (.handoffDeadline now io) .restore
  | stop {io} (records : s'.persisted.records = before) :
      Explains cfg s before s' (.stop io) .stop

/-- The step from `s` to `s'` on input `i` does to the slots what the enabled
action `a` does. -/
structure Refines (cfg : Config) (s : State) (i : Input) (s' : State) (a : Action) : Prop where
  enabled : s.toSlots.Enabled a
  slots : s'.toSlots = s.toSlots.apply a
  spawned : ∀ spec, .spawned spec ∈ s'.events → a.launched = some spec
  advanced : s'.displayGeneration = s.displayGeneration ∨
    .advanced s.displayGeneration ∈ s'.events
  explained : Explains cfg s.toSlots s.persisted.records s' i a

section Handlers

variable {cfg : Config} {s : State}

theorem refines_idle {i : Input} (hs : s.events = []) (hi : i.request.isSome → s.retired.isSome) :
    Refines cfg s i s .idle where
  enabled := trivial
  slots := rfl
  spawned := by simp [hs]
  advanced := Or.inl rfl
  explained := .idle hi rfl

theorem refines_touchActive {i : Input} {s' : State} {w₀ w : Worker} (hi : i.request = none)
    (ha : s.active = some w₀) (hw : w₀.Same w)
    (hslots : s'.toSlots = { s.toSlots with active := some w })
    (hrecords : s'.persisted.records = s.persisted.records) (hevents : s'.events = []) :
    Refines cfg s i s' (.touchActive w) where
  enabled := ⟨w₀, ha, hw⟩
  slots := hslots
  spawned := by simp [hevents]
  advanced := Or.inl (by rw [hslots])
  explained := .touchActive hrecords hi

theorem evictions_not_spawned {records : Records} {spec spec' : StartSpec} :
    .spawned spec' ∉ records.evictions spec := by
  simp [Records.evictions]

/-- A launch either puts a new process into the candidate slot, or is answered
as a failure. -/
theorem launchCandidate_cases (cfg : Config) (io : Io) (spec : StartSpec) (s : State) :
    (∃ w, w.spec = spec ∧ w.child = s.children ∧
      (launchCandidate cfg io spec s).toSlots =
        { s.toSlots with
          candidate := some w, phase := s.launchPhase, children := s.children + 1 } ∧
      (launchCandidate cfg io spec s).persisted.records = s.persisted.records ∧
      (launchCandidate cfg io spec s).events = s.events ++ [.spawned spec]) ∨
    (∃ v, v ≠ .refused ∧ (launchCandidate cfg io spec s).toSlots = s.toSlots.fail v spec ∧
      Struck cfg spec v s.persisted.records (launchCandidate cfg io spec s) ∧
      (launchCandidate cfg io spec s).events =
        s.events ++ s.persisted.records.evictions spec) := by
  unfold launchCandidate spawnWorker
  cases io.spawn with
  | ok child => exact Or.inl ⟨_, rfl, rfl, rfl, rfl, rfl⟩
  | error detail =>
    have hk : FailureKind.launchFailed ≠ .refused := by decide
    exact Or.inr ⟨_, verdict_ne_refused hk, handleCandidateFailure_toSlots ..,
      handleCandidateFailure_struck _ _ _ _ _ _ hk, handleCandidateFailure_events _ _ _ _ _ _ hk⟩

theorem launch_refines {i : Input} {io : Io} {spec : StartSpec} {s₀ : State}
    (hretired : s.retired = none)
    (hslots : s₀.toSlots =
      { s.toSlots with candidate := none, pending := none, requested := some spec })
    (hevents : s₀.events = [])
    (hrecords : LaunchRecords spec s.persisted.records i s₀.persisted.records) :
    ∃ a, Refines cfg s i (launchCandidate cfg io spec s₀) a := by
  have hgen : s₀.displayGeneration = s.displayGeneration := by rw [hslots]
  have hchildren : s₀.children = s.children := by rw [hslots]
  rcases launchCandidate_cases cfg io spec s₀ with
    ⟨w, hspec, hchild, ht, hr, he⟩ | ⟨v, hv, ht, hstruck, he⟩
  · refine ⟨.launch spec w, ⟨hretired, hspec, hchild.trans hchildren⟩, ?_, ?_, ?_, ?_⟩
    · rw [ht, hslots]
      rfl
    · simp [he, hevents, Action.launched]
    · exact Or.inl (by rw [ht, hgen])
    · exact .launch (by rw [hr]; exact hrecords)
  · refine ⟨.launchFailed spec v, ⟨hretired, hv⟩, ?_, ?_, ?_, ?_⟩
    · rw [ht, hslots]
      rfl
    · intro spec' hmem
      rw [he, hevents, List.nil_append] at hmem
      exact absurd hmem evictions_not_spawned
    · exact Or.inl (by rw [ht, Slots.fail_displayGeneration, hgen])
    · exact .launchFailed hrecords hstruck

theorem start_refines (spec : StartSpec) (io : Io) (hs : s.events = []) :
    ∃ a, Refines cfg s (.start spec io) (startSelected cfg io spec false s).2 a := by
  unfold startSelected
  by_cases hr : s.retired.isSome
  · rw [if_pos hr]
    exact ⟨.idle, refines_idle hs (fun _ => hr)⟩
  have hretired : s.retired = none := by simpa using hr
  rw [if_neg hr]
  cases hq : (s.persisted.records.lookup spec).filter FailureRecord.quarantined with
  | some record =>
    obtain ⟨hfound, hquarantined⟩ := Option.filter_eq_some_iff.mp hq
    refine ⟨.answerQuarantined spec, ?_⟩
    simp only [Bool.false_eq_true, if_false, stopCandidate_records, hq]
    refine ⟨hretired, by simp [Slots.apply, Slots.rolledBackOr], by simp [hs], Or.inl (by simp), ?_⟩
    exact .answerQuarantined hfound hquarantined (by simp)
  | none =>
    simp only [Bool.false_eq_true, if_false, stopCandidate_records, hq]
    refine launch_refines hretired (by simp) (by simp [hs]) ?_
    simpa using LaunchRecords.start io hq

theorem retry_refines (spec : StartSpec) (io : Io) (hs : s.events = []) :
    ∃ a, Refines cfg s (.retry spec io) (startSelected cfg io spec true s).2 a := by
  unfold startSelected
  by_cases hr : s.retired.isSome
  · rw [if_pos hr]
    exact ⟨.idle, refines_idle hs (fun _ => hr)⟩
  have hretired : s.retired = none := by simpa using hr
  rw [if_neg hr]
  cases hsave : io.save 0 with
  | error detail =>
    refine ⟨.abandon, ?_⟩
    simp only [if_true, saveState]
    refine ⟨hretired, by simp [Slots.apply], by simp [hs], Or.inl (by simp), ?_⟩
    exact .abandon hsave (by simp [Records.clear])
  | ok _ =>
    simp only [if_true, saveState]
    refine launch_refines hretired (by simp) (by simp [hs]) ?_
    have hrecords := @LaunchRecords.retry spec s.persisted.records
    simpa [Records.clear] using hrecords io

theorem stop_refines (io : Io) (hs : s.events = []) :
    Refines cfg s (.stop io) (stopSelected io s).2 .stop := by
  unfold stopSelected saveState
  cases hsave : io.save 0 <;>
    exact ⟨trivial, by simp [Slots.apply], by simp [hs], Or.inl (by simp), .stop (by simp)⟩

@[simp] theorem settleLive_toSlots (s : State) : (settleLive s).toSlots = s.toSlots.settled := by
  unfold settleLive Slots.settled
  split <;> rfl

@[simp] theorem settleLive_persisted (s : State) : (settleLive s).persisted = s.persisted := by
  unfold settleLive
  split <;> rfl

@[simp] theorem settleLive_events (s : State) : (settleLive s).events = s.events := by
  unfold settleLive
  split <;> rfl

@[simp] theorem Slots.settled_displayGeneration (s : Slots) :
    s.settled.displayGeneration = s.displayGeneration := by
  unfold Slots.settled
  split <;> rfl

theorem Slots.settled_slots (s : Slots) :
    s.settled.candidate = s.candidate ∧ s.settled.pending = s.pending ∧
      s.settled.active = s.active := by
  unfold Slots.settled
  split <;> simp

theorem acknowledge_refines (generation : Nat) (io : Io) (hs : s.events = []) :
    ∃ a, Refines cfg s (.acknowledge generation io) (acknowledgeDisplay io generation s).2 a := by
  have hidle : Refines cfg s (.acknowledge generation io) s .idle :=
    refines_idle hs (fun h => by simp [Input.request] at h)
  unfold acknowledgeDisplay
  by_cases hcurrent : generation = s.expectedGeneration
  · simp only [ne_eq, if_neg (not_not_intro hcurrent)]
    unfold Slots.expectedGeneration at hcurrent
    cases hr : s.retired with
    | none =>
      rw [hr] at hcurrent
      refine ⟨.settle, hr, by simp [Slots.apply], by simp [hs], Or.inl (by simp), ?_⟩
      exact .settle hcurrent (by simp)
    | some r =>
      rw [hr] at hcurrent
      cases ha : s.active with
      | none => exact ⟨_, hidle⟩
      | some w =>
        simp only
        split
        next => exact ⟨_, hidle⟩
        next s' hpersist =>
          obtain ⟨hslots, hrecords, hevents⟩ := persistLastGood_ok hpersist
          refine ⟨.acknowledge, ⟨by simp [hr], by simp [ha]⟩, ?_, ?_, Or.inl ?_, ?_⟩
          · simp [hslots, Slots.apply, ha]
          · simp [hevents, hs]
          · simp [hslots]
          · exact .acknowledge hr ha hcurrent (by simp) (by simp [hrecords])
  · simp only [ne_eq, hcurrent, not_false_eq_true, if_true]
    exact ⟨_, hidle⟩

theorem handoffDeadline_refines (now : Nat) (io : Io) (hs : s.events = []) :
    ∃ a, Refines cfg s (.handoffDeadline now io) (checkHandoff cfg now io s) a := by
  have hidle : Refines cfg s (.handoffDeadline now io) s .idle :=
    refines_idle hs (fun h => by simp [Input.request] at h)
  unfold checkHandoff
  cases hr : s.retired with
  | none => exact ⟨_, hidle⟩
  | some r =>
    simp only
    split
    next hdue =>
      unfold completeHandoffTimeout
      simp only [hr]
      cases ha : s.active with
      | none =>
        refine ⟨.restore, ⟨by simp [hr], ha⟩, by simp [Slots.apply, hr], by simp [hs],
          Or.inl (by simp), .restore (by simp)⟩
      | some w =>
        simp only
        split
        next s' hpersist =>
          obtain ⟨hslots, hrecords, hevents⟩ := persistLastGood_ok hpersist
          refine ⟨.commit, ⟨by simp [hr], by simp [ha]⟩, ?_, ?_, Or.inl ?_, ?_⟩
          · simp [hslots, Slots.apply, ha]
          · simp [hevents, hs]
          · simp [hslots]
          · exact .commit ha (by simp) (by simp [hrecords])
        next detail hpersist =>
          have hk : FailureKind.invalidFrame ≠ .refused := by decide
          simp only [stopWorker_false]
          refine ⟨.revert (verdict cfg io .invalidFrame w.spec s.persisted.records),
            ⟨by simp [hr], by simp [ha], verdict_ne_refused hk⟩, ?_, ?_, Or.inr ?_, ?_⟩
          · simp [handleCandidateFailure_toSlots, Slots.apply, hr, ha]
          · intro spec' hmem
            rw [handleCandidateFailure_events _ _ _ _ _ _ hk] at hmem
            simp [hs, evictions_not_spawned] at hmem
          · rw [handleCandidateFailure_events _ _ _ _ _ _ hk]
            simp [hs]
          · exact .revert ha (handleCandidateFailure_struck cfg io _ _ w.spec
              (advanceGeneration { s with active := some r.worker, retired := none }) hk)
    next => exact ⟨_, hidle⟩

theorem pendingRestart_refines (now : Nat) (io : Io) (hs : s.events = []) :
    ∃ a, Refines cfg s (.pendingRestart now io) (checkPending cfg now io s) a := by
  have hidle : Refines cfg s (.pendingRestart now io) s .idle :=
    refines_idle hs (fun h => by simp [Input.request] at h)
  unfold checkPending
  split
  next => exact ⟨_, hidle⟩
  next hc =>
    have hc : s.candidate = none := by simpa using hc
    cases hp : s.pending with
    | none => exact ⟨_, hidle⟩
    | some p =>
      simp only
      split
      next => exact ⟨_, hidle⟩
      next =>
        rcases launchCandidate_cases cfg io p.spec { s with pending := none } with
          ⟨w, hspec, hchild, ht, hr, he⟩ | ⟨v, hv, ht, hstruck, he⟩
        · refine ⟨.relaunch w, ⟨hc, p, hp, hspec, hchild⟩, ?_, ?_, ?_, .relaunch hr⟩
          · rw [ht]
            rfl
          · rw [he]
            simp [hs, Action.launched, hspec]
          · exact Or.inl (by rw [ht])
        · refine ⟨.failCandidate p.spec v, Or.inr ⟨hc, p, hp, rfl⟩, ?_, ?_, ?_, ?_⟩
          · rw [ht]
            cases v <;> simp [Slots.apply, Slots.fail, Slots.rolledBackOr, hc]
          · intro spec' hmem
            rw [he, hs, List.nil_append] at hmem
            exact absurd hmem evictions_not_spawned
          · exact Or.inl (by rw [ht, Slots.fail_displayGeneration])
          · exact .failCandidate hstruck rfl hv

/-- Losing the active worker reads only its spec. -/
theorem lose_congr {slots : Slots} {active : Option Worker} {v : Verdict} {w₀ w : Worker}
    (h : w.spec = w₀.spec) :
    ({ slots with active := active } : Slots).lose v w = slots.lose v w₀ := by
  unfold Slots.lose
  rw [h]

theorem inspectActive_refines (probe : Probe) (io : Io) (hs : s.events = []) :
    ∃ a, Refines cfg s (.inspectActive probe io) (checkActive cfg probe io s) a := by
  unfold checkActive
  cases ha : s.active with
  | none => exact ⟨.idle, refines_idle hs (fun h => by simp [Input.request] at h)⟩
  | some w₀ =>
    have hsame := inspectWorker_same cfg probe w₀
    simp only
    split
    next w hw =>
      rw [hw] at hsame
      exact ⟨_, refines_touchActive rfl ha hsame rfl rfl hs⟩
    next kind detail w hw =>
      rw [hw] at hsame
      refine ⟨.loseActive (verdict cfg io kind.afterFirstFrame w.spec s.persisted.records),
        ⟨by simp [ha], verdict_ne_refused (afterFirstFrame_ne_refused kind)⟩, ?_, ?_, ?_, ?_⟩
      · rw [handleActiveFailure_toSlots cfg io kind detail _ rfl]
        simp only [Slots.apply, ha]
        exact lose_congr hsame.2
      · intro spec' hmem
        rw [handleActiveFailure_events cfg io kind detail _ rfl] at hmem
        simp [hs, evictions_not_spawned] at hmem
      · rw [handleActiveFailure_toSlots cfg io kind detail _ rfl,
          handleActiveFailure_events cfg io kind detail _ rfl]
        unfold Slots.lose
        cases hr : s.retired with
        | some r => exact Or.inr (by simp)
        | none =>
          refine Or.inl ?_
          simp only
          repeat' split
          all_goals simp
      · refine .loseActive ha ⟨detail, by rw [hw]⟩ ⟨?_, ?_, ?_⟩
        · rw [hsame.2]
          exact verdict_quarantined (afterFirstFrame_ne_refused kind)
        · exact ⟨_, _, _, hsame.2 ▸ handleActiveFailure_records cfg io kind detail _ rfl⟩
        · intro e he
          rw [handleActiveFailure_events cfg io kind detail _ rfl, hsame.2]
          exact List.mem_append_right _ he
    next snapshot w hw =>
      rw [hw] at hsame
      have hsaved : w₀.Same { w with lastSnapshotSaved := some (io.clock 1) } := hsame
      split
      next =>
        split
        next s' hpersist =>
          obtain ⟨hslots, hrecords, hevents⟩ := persistLastGood_ok hpersist
          exact ⟨_, refines_touchActive rfl ha hsaved hslots hrecords (hevents.trans hs)⟩
        next => exact ⟨_, refines_touchActive rfl ha hsaved rfl rfl hs⟩
      next => exact ⟨_, refines_touchActive rfl ha hsame rfl rfl hs⟩

theorem promoteCandidate_refines (probe : Probe) (io : Io) (snapshot : FrameSnapshot)
    {w₀ w : Worker} (hs : s.events = []) (hc : s.candidate = some w₀) (hsame : w₀.Same w) :
    ∃ a, Refines cfg s (.inspectCandidate probe io)
      (promoteCandidate cfg io snapshot { s with candidate := some w }) a := by
  have hpromoted : w₀.Same { w with lastSnapshotSaved := some (io.clock 2) } := hsame
  unfold promoteCandidate
  simp only
  cases ha : s.active with
  | none =>
    simp only
    split
    next detail hpersist =>
      have hk : FailureKind.invalidFrame ≠ .refused := by decide
      simp only [stopWorker_false]
      refine ⟨.failCandidate w.spec (verdict cfg io .invalidFrame w.spec s.persisted.records),
        Or.inl ⟨w₀, hc, hsame.2.symm⟩, ?_, ?_, ?_, ?_⟩
      · simp [handleCandidateFailure_toSlots, Slots.apply, ha]
      · intro spec' hmem
        rw [handleCandidateFailure_events _ _ _ _ _ _ hk] at hmem
        simp [hs, evictions_not_spawned] at hmem
      · exact Or.inl (by simp [handleCandidateFailure_toSlots])
      · exact .failCandidate (handleCandidateFailure_struck cfg io _ _ w.spec
          { s with candidate := none, active := none } hk) rfl (verdict_ne_refused hk)
    next s' hpersist =>
      obtain ⟨hslots, hrecords, hevents⟩ := persistLastGood_ok hpersist
      refine ⟨.promote _ 0 snapshot, ⟨w₀, hc, hpromoted⟩, ?_, ?_, Or.inr ?_,
        .promoteFirst ha ?_ ?_⟩
      · simp [hslots, Slots.apply, Slots.promoted, ha]
      · simp [hevents, hs]
      · simp [hevents, hslots]
      · simp
      · simp [hrecords]
  | some previous =>
    refine ⟨.promote _ (io.clock 3 + cfg.handoffTimeout) snapshot, ⟨w₀, hc, hpromoted⟩, ?_, ?_,
      Or.inr ?_, .promote rfl⟩
    · simp [Slots.apply, Slots.promoted, ha]
    · simp [hs]
    · simp

theorem inspectCandidate_refines (probe : Probe) (io : Io) (hs : s.events = []) :
    ∃ a, Refines cfg s (.inspectCandidate probe io) (checkCandidate cfg probe io s) a := by
  unfold checkCandidate
  cases hc : s.candidate with
  | none => exact ⟨.idle, refines_idle hs (fun h => by simp [Input.request] at h)⟩
  | some w₀ =>
    have hsame := inspectWorker_same cfg probe w₀
    simp only
    split
    next w hw =>
      rw [hw] at hsame
      exact ⟨.touchCandidate w false, ⟨w₀, hc, hsame⟩, by simp [Slots.apply], by simp [hs],
        Or.inl rfl, .touchCandidate rfl⟩
    next snapshot w hw =>
      rw [hw] at hsame
      split
      next => exact promoteCandidate_refines probe io snapshot hs hc hsame
      next =>
        refine ⟨.touchCandidate w true, ⟨w₀, hc, hsame⟩, ?_, ?_, Or.inl ?_, .touchCandidate ?_⟩
        all_goals split <;> simp_all [Slots.apply]
    next kind detail w hw =>
      rw [hw] at hsame
      refine ⟨.failCandidate w.spec (verdict cfg io kind w.spec s.persisted.records),
        Or.inl ⟨w₀, hc, hsame.2.symm⟩, ?_, ?_, ?_, ?_⟩
      · simp [handleCandidateFailure_toSlots, Slots.apply]
      · intro spec' hmem
        by_cases hk : kind = .refused
        · simp [handleCandidateFailure, hk, State.emit, hs] at hmem
        · rw [handleCandidateFailure_events _ _ _ _ _ _ hk] at hmem
          simp [hs, evictions_not_spawned] at hmem
      · exact Or.inl (by simp [handleCandidateFailure_toSlots])
      · by_cases hk : kind = .refused
        · rw [show verdict cfg io kind w.spec s.persisted.records = .refused from if_pos hk]
          exact .refuse (by simp [handleCandidateFailure, hk, State.emit])
            (by simp [handleCandidateFailure, hk, State.emit])
        · refine .failCandidate ?_ rfl (verdict_ne_refused hk)
          have hstruck := handleCandidateFailure_struck cfg io kind detail w.spec
            (stopCandidate io false { s with candidate := some w }) hk
          rwa [stopCandidate_records] at hstruck

/-! ## Control messages -/

/-- `s'` differs from `s` in the state of the active worker and in counters. -/
def Touched (s s' : State) : Prop :=
  s'.persisted.records = s.persisted.records ∧ s'.events = s.events ∧
    (s'.toSlots = s.toSlots ∨ ∃ w₀ w, s.active = some w₀ ∧ w₀.Same w ∧
      s'.toSlots = { s.toSlots with active := some w })

theorem refines_touched {i : Input} {s' : State} (hi : i.request = none) (hs : s.events = [])
    (h : Touched s s') : ∃ a, Refines cfg s i s' a := by
  obtain ⟨hrecords, hevents, hslots | ⟨w₀, w, ha, hw, hslots⟩⟩ := h
  · exact ⟨.idle, trivial, hslots, by simp [hevents, hs], Or.inl (by rw [hslots]),
      .idle (by simp [hi]) hrecords⟩
  · exact ⟨_, refines_touchActive hi ha hw hslots hrecords (hevents.trans hs)⟩

theorem Touched.refl (s : State) : Touched s s := ⟨rfl, rfl, Or.inl rfl⟩

theorem Touched.active {s : State} {w₀ w : Worker} (ha : s.active = some w₀) (hw : w₀.Same w) :
    Touched s { s with active := some w } :=
  ⟨rfl, rfl, Or.inr ⟨w₀, w, ha, hw, rfl⟩⟩

theorem forwardPointerInput_touched (generation : Nat) (phase : PointerPhase)
    (button : Option PointerButton) (quantized : Option (Nat × Nat)) (pipe : PipeWrite)
    (s : State) : Touched s (forwardPointerInput generation phase button quantized pipe s).2 := by
  unfold forwardPointerInput
  split
  next => exact .refl s
  next =>
    cases ha : s.active with
    | none => exact .refl s
    | some w =>
      simp only
      repeat' split
      all_goals first
        | exact .refl s
        | exact .active ha ⟨rfl, rfl⟩

theorem forwardAudioFrame_touched (generation : Nat) (granted : Bool)
    (line : Except String (List UInt8)) (pipe : PipeWrite) (s : State) :
    Touched s (forwardAudioFrame generation granted line pipe s).2 := by
  unfold forwardAudioFrame
  split
  next => exact .refl s
  next =>
    cases ha : s.active with
    | none => exact .refl s
    | some w =>
      simp only
      repeat' split
      all_goals first
        | exact .refl s
        | exact ⟨rfl, rfl, Or.inl (by rw [← ha])⟩
        | exact .active ha ⟨rfl, rfl⟩

theorem forwardMediaState_touched (generation : Nat) (line : Except String (List UInt8))
    (pipe : PipeWrite) (s : State) : Touched s (forwardMediaState generation line pipe s).2 := by
  unfold forwardMediaState
  split
  next => exact .refl s
  next =>
    cases ha : s.active with
    | none => exact .refl s
    | some w =>
      simp only
      repeat' split
      all_goals first
        | exact .refl s
        | exact .active ha ⟨rfl, rfl⟩

theorem serviceActiveInput_touched (input audio media : PipeWrite) (s : State) :
    Touched s (serviceActiveInput input audio media s) := by
  unfold serviceActiveInput
  cases ha : s.active with
  | none => exact .refl s
  | some w => exact .active ha ⟨rfl, rfl⟩

end Handlers

/-- **Refinement.**  Every step does to the slots what one enabled action
does. -/
theorem step_refines (cfg : Config) (s : State) (i : Input) :
    ∃ a, Refines cfg s i (step cfg s i) a := by
  suffices h : ∃ a, Refines cfg { s with events := [] } i (step cfg s i) a by
    obtain ⟨a, henabled, hslots, hspawned, hadvanced, hexplained⟩ := h
    exact ⟨a, henabled, hslots, hspawned, hadvanced, hexplained⟩
  have touched {i : Input} {s' : State} (hi : i.request = none)
      (h : Touched { s with events := [] } s') :
      ∃ a, Refines cfg { s with events := [] } i s' a := refines_touched hi rfl h
  cases i with
  | start spec io => exact start_refines spec io rfl
  | retry spec io => exact retry_refines spec io rfl
  | stop io => exact ⟨_, stop_refines io rfl⟩
  | acknowledge generation io => exact acknowledge_refines generation io rfl
  | pointerInput generation phase button quantized pipe =>
    exact touched rfl (forwardPointerInput_touched ..)
  | audioFrame generation granted line pipe => exact touched rfl (forwardAudioFrame_touched ..)
  | mediaState generation line pipe => exact touched rfl (forwardMediaState_touched ..)
  | serviceInput input audio media => exact touched rfl (serviceActiveInput_touched ..)
  | handoffDeadline now io => exact handoffDeadline_refines now io rfl
  | pendingRestart now io => exact pendingRestart_refines now io rfl
  | inspectActive probe io => exact inspectActive_refines probe io rfl
  | inspectCandidate probe io => exact inspectCandidate_refines probe io rfl

/-- Every step keeps the invariant of the slots. -/
theorem inv_step {cfg : Config} {s : State} (i : Input) (h : s.toSlots.Inv) :
    (step cfg s i).toSlots.Inv := by
  obtain ⟨a, ha⟩ := step_refines cfg s i
  rw [ha.slots]
  exact Slots.inv_apply h ha.enabled

/-- The state after a run from a fresh start on the records `persisted`. -/
abbrev reached (cfg : Config) (persisted : PersistedState) (is : List Input) : State :=
  Runs.run (step cfg) (State.new persisted) is

theorem reached_inv (cfg : Config) (persisted : PersistedState) (is : List Input) :
    (reached cfg persisted is).toSlots.Inv :=
  Runs.invariant_run_all (I := fun s : State => s.toSlots.Inv) (fun _ i h => inv_step i h)
    Slots.inv_new is

end Kwe.Supervisor
