import Kwe.Supervisor.Refinement

/-!
Quarantine holds: once the record of an identity is quarantined, no process is
launched for it until a retry, a promotion that clears the record, or a new
build.  Three one-step facts carry this:

* `not_spawned`: a launch needs a record that is not quarantined;
* `guarded_step`: a quarantined identity never waits for a restart, and its
  next failure strikes it out again;
* `quarantined_step`: the record stays quarantined.

A run here is a run of the daemon: it may end and start again from what
`supervisor-v1.json` holds.
-/

namespace Kwe.Supervisor

open Foundation

/-! ## The daemon over its restarts -/

/-- `StateStore::open_for_build`: the records of another build are dropped. -/
def openForBuild (disk : PersistedState) (buildId : String) : PersistedState :=
  if disk.buildId = some buildId then disk
  else { disk with records := ∅, buildId := some buildId }

structure Daemon where
  cfg : Config
  state : State

inductive DaemonInput
  | supervisor (i : Input)
  | restart (cfg : Config) (buildId : String)

def Daemon.step (d : Daemon) : DaemonInput → Daemon
  | .supervisor i => { d with state := Supervisor.step d.cfg d.state i }
  | .restart cfg buildId => ⟨cfg, .new (openForBuild d.state.disk buildId)⟩

/-- The daemon after `is`, from a fresh start on `persisted`. -/
abbrev Daemon.reached (cfg : Config) (persisted : PersistedState) (is : List DaemonInput) :
    Daemon :=
  Runs.run Daemon.step ⟨cfg, .new persisted⟩ is

/-! ## Quarantined identities -/

/-- The record under `key` is quarantined. -/
def Records.QuarantinedAt (records : Records) (key : String) : Prop :=
  ∃ record, records[key]? = some record ∧ record.quarantined = true

instance (records : Records) (key : String) : Decidable (records.QuarantinedAt key) :=
  decidable_of_iff (records[key]?.any FailureRecord.quarantined = true) <| by
    simp [Records.QuarantinedAt, Option.any_eq_true]

/-- A worker of the identity runs. -/
def Slots.Runs (s : Slots) (key : String) : Prop :=
  (∃ w, s.active = some w ∧ w.spec.identity = key) ∨
  (∃ w, s.candidate = some w ∧ w.spec.identity = key) ∨
  (∃ r, s.retired = some r ∧ r.worker.spec.identity = key)

/-- What holds beside a quarantined record. -/
structure Guarded (cfg : Config) (key : String) (s : State) : Prop where
  /-- Another failure of a worker that still runs is a strike-out again. -/
  struck : ∀ record, s.persisted.records[key]? = some record → record.quarantined = true →
    cfg.maxFailures ≤ record.failures ∨ ¬ s.toSlots.Runs key
  waiting : s.persisted.records.QuarantinedAt key →
    ∀ p, s.pending = some p → p.spec.identity ≠ key

theorem guarded_new (cfg : Config) (key : String) (persisted : PersistedState) :
    Guarded cfg key (State.new persisted) := by
  constructor <;> simp [State.new, Slots.new, Slots.Runs]

/-! ## Records after a failure -/

/-- A failure of another identity keeps the record, or evicts it. -/
theorem Records.struck_other_or {cfg : Config} {now : Nat} {kind : FailureKind} {detail : String}
    {spec : StartSpec} {key : String} (records : Records) (hkey : ∃ spec' : StartSpec, spec'.identity = key)
    (hne : spec.identity ≠ key) :
    (records.struck cfg now kind detail spec)[key]? = records[key]? ∨
      (records.struck cfg now kind detail spec)[key]? = none ∧
        .evicted key ∈ records.evictions spec := by
  obtain ⟨spec', rfl⟩ := hkey
  by_cases hv : (records.migrate spec).victim spec = some spec'.identity
  · refine Or.inr ⟨?_, by simp [Records.evictions, hv]⟩
    simp [Records.struck, Records.evict, hv, hne]
  · exact Or.inl (Records.struck_other _ _ _ hne.symm hv)

/-- With a quarantined record that was struck out, so is the next failure. -/
theorem strikesOut_of_own {cfg : Config} {records : Records} {spec : StartSpec}
    {record : FailureRecord} (hown : records[spec.identity]? = some record)
    (h : cfg.maxFailures ≤ record.failures) : records.strikesOut spec cfg := by
  unfold Records.strikesOut Records.failures Records.lookup
  rw [hown, Option.some_or]
  exact Nat.le_succ_of_le h

theorem Struck.own {cfg : Config} {spec : StartSpec} {v : Verdict} {records : Records}
    {s' : State} (h : Struck cfg spec v records s') :
    ∃ record, s'.persisted.records[spec.identity]? = some record ∧
      (record.quarantined = true ↔ v = .quarantined) ∧
      (record.quarantined = true → cfg.maxFailures ≤ record.failures) := by
  obtain ⟨now, kind, detail, hrecords⟩ := h.recorded
  obtain ⟨record, hown, hquarantined, hfailures⟩ := records.struck_own spec cfg now kind detail
  exact ⟨record, by rw [hrecords]; exact hown, hquarantined.trans h.decided.symm, hfailures⟩

theorem Struck.other {cfg : Config} {spec : StartSpec} {v : Verdict} {records : Records}
    {s' : State} {key : String} (h : Struck cfg spec v records s')
    (hkey : ∃ spec' : StartSpec, spec'.identity = key) (hne : spec.identity ≠ key) :
    s'.persisted.records[key]? = records[key]? ∨
      s'.persisted.records[key]? = none ∧ .evicted key ∈ s'.events := by
  obtain ⟨now, kind, detail, hrecords⟩ := h.recorded
  rw [hrecords]
  exact (records.struck_other_or hkey hne).imp_right fun ⟨hnone, hmem⟩ => ⟨hnone, h.evicted _ hmem⟩

/-! ## The guard, case by case -/

section Guard

variable {cfg : Config} {key : String} {s s' : State}

/-- No quarantined record: nothing to guard. -/
theorem guarded_of_free (h : ¬ s'.persisted.records.QuarantinedAt key) : Guarded cfg key s' :=
  ⟨fun record hr hq => (h ⟨record, hr, hq⟩).elim, fun hq => (h hq).elim⟩

/-- The record is as before, and nothing of its identity was added. -/
theorem Guarded.kept (hs : Guarded cfg key s)
    (hrecord : s'.persisted.records[key]? = s.persisted.records[key]?)
    (hruns : s'.toSlots.Runs key → s.toSlots.Runs key)
    (hpending : ∀ p, s'.pending = some p → p.spec.identity = key → s.pending = some p) :
    Guarded cfg key s' := by
  refine ⟨fun record hr hq => ?_, fun ⟨record, hr, hq⟩ p hp hid => ?_⟩
  · rw [hrecord] at hr
    exact (hs.struck record hr hq).imp_right fun hnot hrun => hnot (hruns hrun)
  · rw [hrecord] at hr
    exact hs.waiting ⟨record, hr, hq⟩ p (hpending p hp hid) hid

/-- `spec` failed on top of the records `base`. -/
theorem Guarded.struck_by {spec : StartSpec} {v : Verdict} {base : Records}
    (hs : Guarded cfg key s) (hkey : ∃ spec' : StartSpec, spec'.identity = key)
    (hstruck : Struck cfg spec v base s')
    (hbase : spec.identity ≠ key → base[key]? = s.persisted.records[key]?)
    (hruns : s'.toSlots.Runs key → s.toSlots.Runs key)
    (hpending : ∀ p, s'.pending = some p → p.spec.identity = key →
      (s.pending = some p ∧ (spec.identity = key → v ≠ .quarantined)) ∨
      (p.spec = spec ∧ v ≠ .quarantined)) :
    Guarded cfg key s' := by
  by_cases hid : spec.identity = key
  · subst hid
    obtain ⟨own, hown, hquarantined, hfailures⟩ := hstruck.own
    refine ⟨fun record hr hq => ?_, fun ⟨record, hr, hq⟩ p hp hid => ?_⟩
    · obtain rfl : own = record := by simpa [hown] using hr
      exact Or.inl (hfailures hq)
    · obtain rfl : own = record := by simpa [hown] using hr
      have hv := hquarantined.mp hq
      rcases hpending p hp hid with ⟨-, hne⟩ | ⟨-, hne⟩
      · exact hne rfl hv
      · exact hne hv
  · rcases hstruck.other hkey hid with hkept | ⟨hnone, -⟩
    · refine hs.kept (hkept.trans (hbase hid)) hruns fun p hp hpid => ?_
      rcases hpending p hp hpid with ⟨hold, -⟩ | ⟨hspec, -⟩
      · exact hold
      · rw [hspec] at hpid
        exact absurd hpid hid
    · refine guarded_of_free ?_
      rintro ⟨record, hr, -⟩
      simp [hnone] at hr

/-- The records of `spec` were cleared. -/
theorem Guarded.cleared {spec : StartSpec} (hs : Guarded cfg key s)
    (hkey : ∃ spec' : StartSpec, spec'.identity = key)
    (hrecords : s'.persisted.records = s.persisted.records.clear spec)
    (hruns : spec.identity ≠ key → s'.toSlots.Runs key → s.toSlots.Runs key)
    (hpending : ∀ p, s'.pending = some p → s.pending = some p) : Guarded cfg key s' := by
  by_cases hid : spec.identity = key
  · refine guarded_of_free ?_
    rintro ⟨record, hr, -⟩
    rw [hrecords, ← hid, Records.clear_own] at hr
    cases hr
  · obtain ⟨spec', rfl⟩ := hkey
    refine hs.kept ?_ (hruns hid) fun p hp _ => hpending p hp
    rw [hrecords, Records.clear_other _ _ _ (Ne.symm hid)]

/-- The records a launch of `spec` starts from, at other keys and at its own. -/
theorem LaunchRecords.other {spec : StartSpec} {records launched : Records} {i : Input}
    (h : LaunchRecords spec records i launched)
    (hkey : ∃ spec' : StartSpec, spec'.identity = key) (hne : spec.identity ≠ key) :
    launched[key]? = records[key]? := by
  obtain ⟨spec', rfl⟩ := hkey
  cases h with
  | start io free => rfl
  | retry io => exact Records.clear_other _ _ _ (Ne.symm hne)

theorem lookup_not_quarantined {spec : StartSpec} {records : Records}
    (free : (records.lookup spec).filter FailureRecord.quarantined = none) :
    ¬ records.QuarantinedAt spec.identity := by
  rintro ⟨record, hr, hq⟩
  simp [Records.lookup, hr, Option.filter, hq] at free

theorem LaunchRecords.own_of_not_retry {spec : StartSpec} {records launched : Records} {i : Input}
    (h : LaunchRecords spec records i launched) (hi : ∀ io, i ≠ .retry spec io) :
    ¬ records.QuarantinedAt spec.identity := by
  cases h with
  | start io free => exact lookup_not_quarantined free
  | retry io => exact absurd rfl (hi io)

theorem LaunchRecords.own {spec : StartSpec} {records launched : Records} {i : Input}
    (h : LaunchRecords spec records i launched) : ¬ launched.QuarantinedAt spec.identity := by
  cases h with
  | start io free => exact lookup_not_quarantined free
  | retry io =>
    rintro ⟨record, hr, -⟩
    simp [Records.clear_own] at hr

end Guard

/-! ## One step -/

/-- The two ways a step breaks a quarantine are not taken: an active worker
whose failure is its last leaves no restart of its own identity waiting, and a
quarantined record is not evicted. -/
def KeepsQuarantine (cfg : Config) (key : String) (s : State) (i : Input) : Prop :=
  (∀ probe io, i = .inspectActive probe io → s.retired = none → s.candidate = none →
    ∀ w kind p, s.active = some w → Fails cfg probe w kind →
      s.persisted.records.strikesOut w.spec cfg → w.spec.identity = key →
      s.pending = some p → p.spec.identity ≠ key) ∧
  (s.persisted.records.QuarantinedAt key → .evicted key ∉ (step cfg s i).events)

@[simp] theorem Slots.runs_fail {v : Verdict} {spec : StartSpec} {s : Slots} {key : String} :
    (s.fail v spec).Runs key ↔ s.Runs key := by
  simp [Slots.Runs]

/-- A failure answered by `v` leaves nothing waiting but, perhaps, the restart
of what failed. -/
theorem Slots.fail_pending {v : Verdict} {spec : StartSpec} {s : Slots} {p : PendingRestart}
    (h : (s.fail v spec).pending = some p) : p.spec = spec ∧ v ≠ .quarantined := by
  cases v with
  | refused => simp [Slots.fail] at h
  | quarantined => simp [Slots.fail] at h
  | restart at_ =>
    simp only [Slots.fail, Option.some.injEq] at h
    exact ⟨by rw [← h], by simp⟩

/-- Emptying the candidate slot runs nothing new. -/
theorem Slots.runs_drop_candidate {s : Slots} {pending : Option PendingRestart}
    {requested : Option StartSpec} {phase : WorkerPhase} {key : String}
    (h : ({ s with
      candidate := none, pending := pending, requested := requested, phase := phase } :
        Slots).Runs key) : s.Runs key := by
  rcases h with h | ⟨w, hw, -⟩ | h
  · exact Or.inl h
  · cases hw
  · exact Or.inr (Or.inr h)

/-- Putting `w` into the candidate slot runs nothing new but `w`. -/
theorem Slots.runs_set_candidate {s : Slots} {w : Worker} {pending : Option PendingRestart}
    {requested : Option StartSpec} {phase : WorkerPhase} {children : Nat} {key : String}
    (hne : w.spec.identity ≠ key)
    (h : ({ s with
      candidate := some w, pending := pending, requested := requested, phase := phase,
      children := children } : Slots).Runs key) : s.Runs key := by
  rcases h with h | ⟨w', hw', hid⟩ | h
  · exact Or.inl h
  · exact absurd (Option.some.inj hw' ▸ hid) hne
  · exact Or.inr (Or.inr h)

/-- Closing a handoff runs nothing new. -/
theorem Slots.runs_drop_retired {s : Slots} {phase : WorkerPhase} {key : String}
    (h : ({ s with retired := none, phase := phase } : Slots).Runs key) : s.Runs key := by
  rcases h with h | h | ⟨r, hr, -⟩
  · exact Or.inl h
  · exact Or.inr (Or.inl h)
  · cases hr

theorem Slots.runs_settled {s : Slots} {key : String} (h : s.settled.Runs key) : s.Runs key := by
  unfold Slots.settled at h
  split at h <;> exact h

theorem Slots.runs_promoted {s : Slots} {w₀ w : Worker} {deadline : Nat}
    {snapshot : FrameSnapshot} {key : String} (hw : s.candidate = some w₀) (hsame : w₀.Same w)
    (h : (s.promoted w deadline snapshot).Runs key) : s.Runs key := by
  have hcandidate : w.spec.identity = key → s.Runs key := fun hid =>
    Or.inr (Or.inl ⟨w₀, hw, by rw [← hsame.2, hid]⟩)
  unfold Slots.promoted at h
  cases ha : s.active with
  | none =>
    simp only [ha] at h
    rcases h with ⟨w', hw', hid⟩ | ⟨w', hw', -⟩ | h
    · exact hcandidate (Option.some.inj hw' ▸ hid)
    · cases hw'
    · exact Or.inr (Or.inr h)
  | some previous =>
    simp only [ha] at h
    rcases h with ⟨w', hw', hid⟩ | ⟨w', hw', -⟩ | ⟨r, hr, hid⟩
    · exact hcandidate (Option.some.inj hw' ▸ hid)
    · cases hw'
    · exact Or.inl ⟨previous, ha, by rw [← Option.some.inj hr] at hid; exact hid⟩

theorem Slots.runs_lose {s : Slots} {w : Worker} {v : Verdict} {key : String}
    (h : (s.lose v w).Runs key) : s.Runs key := by
  unfold Slots.lose at h
  cases hr : s.retired with
  | some r =>
    simp only [hr, Slots.runs_fail] at h
    rcases h with ⟨w', hw', hid⟩ | h | ⟨r', hr', -⟩
    · obtain rfl : r.worker = w' := by simpa using hw'
      exact Or.inr (Or.inr ⟨r, hr, hid⟩)
    · exact Or.inr (Or.inl h)
    · cases hr'
  | none =>
    simp only [hr] at h
    split at h
    next => simp_all [Slots.Runs]
    next =>
      split at h <;> simp_all [Slots.Runs]

theorem guarded_lose {cfg : Config} {key : String} {s s' : State} {w : Worker} {v : Verdict}
    (h : s.toSlots.Inv) (hs : Guarded cfg key s)
    (hkey : ∃ spec' : StartSpec, spec'.identity = key)
    (hslots : s'.toSlots = s.toSlots.lose v w)
    (hstruck : Struck cfg w.spec v s.persisted.records s')
    (hkeep : s.retired = none → s.candidate = none → v = .quarantined → w.spec.identity = key →
      ∀ p, s.pending = some p → p.spec.identity ≠ key) : Guarded cfg key s' := by
  refine hs.struck_by hkey hstruck (fun _ => rfl) (by rw [hslots]; exact Slots.runs_lose) ?_
  intro p hp hid
  rw [hslots] at hp
  unfold Slots.lose at hp
  cases hr : s.retired with
  | some r =>
    simp only [hr] at hp
    exact Or.inr (Slots.fail_pending hp)
  | none =>
    simp only [hr] at hp
    split at hp
    next hc =>
      have hnone : s.pending = none := by
        rcases h.exclusive with hc' | hp'
        · simp [hc'] at hc
        · exact hp'
      simp [hnone] at hp
    next hc =>
      split at hp
      next hv =>
        refine Or.inl ⟨hp, fun hw _ => ?_⟩
        exact hkeep hr (by simpa using hc) hv hw p hp hid
      next => exact Or.inr (Slots.fail_pending hp)

theorem guarded_step {cfg : Config} {key : String} {s : State} {i : Input} (h : s.toSlots.Inv)
    (hs : Guarded cfg key s) (hkey : ∃ spec' : StartSpec, spec'.identity = key)
    (hkeep : KeepsQuarantine cfg key s i) : Guarded cfg key (step cfg s i) := by
  obtain ⟨a, henabled, hslots, -, -, hexplained⟩ := step_refines cfg s i
  cases hexplained with
  | idle busy records =>
    exact hs.kept (by rw [records]) (by rw [hslots]; exact id) (by rw [hslots]; exact fun p hp _ => hp)
  | touchActive records command =>
    obtain ⟨w₀, hw₀, hsame⟩ := henabled
    refine hs.kept (by rw [records]) ?_ (by rw [hslots]; exact fun p hp _ => hp)
    rw [hslots]
    simp_all [Slots.Runs, Slots.apply, hsame.2]
  | touchCandidate records =>
    obtain ⟨w₀, hw₀, hsame⟩ := henabled
    refine hs.kept (by rw [records]) ?_ (by rw [hslots]; exact fun p hp _ => hp)
    rw [hslots]
    simp_all [Slots.Runs, Slots.apply, hsame.2]
  | abandon unsaved records =>
    refine hs.cleared hkey records (fun _ => ?_) ?_
    · rw [hslots]
      exact Slots.runs_drop_candidate
    · rw [hslots]
      simp [Slots.apply]
  | answerQuarantined found quarantined records =>
    refine hs.kept (by rw [records]) ?_ ?_
    · rw [hslots]
      exact Slots.runs_drop_candidate
    · rw [hslots]
      simp [Slots.apply]
  | @launch _ spec w records =>
    by_cases hid : spec.identity = key
    · exact guarded_of_free (hid ▸ records.own)
    · refine hs.kept (records.other hkey hid) ?_ ?_
      · rw [hslots]
        exact Slots.runs_set_candidate (by rw [henabled.2.1]; exact hid)
      · rw [hslots]
        simp [Slots.apply]
  | launchFailed base struck =>
    refine hs.struck_by hkey struck (base.other hkey) ?_ ?_
    · rw [hslots]
      simp only [Slots.apply, Slots.runs_fail]
      exact Slots.runs_drop_candidate
    · rw [hslots]
      exact fun p hp _ => Or.inr (Slots.fail_pending hp)
  | relaunch records =>
    obtain ⟨hc, p, hp, hspec, -⟩ := henabled
    by_cases hid : p.spec.identity = key
    · refine guarded_of_free fun hq => ?_
      rw [records] at hq
      exact hs.waiting hq p hp hid
    · refine hs.kept (by rw [records]) ?_ ?_
      · rw [hslots]
        exact Slots.runs_set_candidate (by rw [hspec]; exact hid)
      · rw [hslots]
        simp [Slots.apply]
  | refuse refused records =>
    refine hs.kept (by rw [records]) ?_ ?_
    · rw [hslots]
      simp only [Slots.apply, Slots.runs_fail]
      exact Slots.runs_drop_candidate
    · rw [hslots]
      simp [Slots.apply, Slots.fail]
  | failCandidate struck command counted =>
    refine hs.struck_by hkey struck (fun _ => rfl) ?_ ?_
    · rw [hslots]
      simp only [Slots.apply, Slots.runs_fail]
      exact Slots.runs_drop_candidate
    · rw [hslots]
      exact fun p hp _ => Or.inr (Slots.fail_pending hp)
  | loseActive active fails struck =>
    simp only [Slots.apply, active] at hslots
    refine guarded_lose h hs hkey hslots struck fun hr hc hv hw p hp => ?_
    exact hkeep.1 _ _ rfl hr hc _ _ p active fails (struck.decided.mp hv) hw hp
  | promoteFirst first cleared records =>
    obtain ⟨w₀, hw₀, hsame⟩ := henabled
    refine hs.cleared hkey records (fun _ => ?_) ?_
    · rw [hslots]
      exact Slots.runs_promoted hw₀ hsame
    · rw [hslots]
      simp [Slots.apply, Slots.promoted, first]
  | promote records =>
    obtain ⟨w₀, hw₀, hsame⟩ := henabled
    refine hs.kept (by rw [records]) ?_ ?_
    · rw [hslots]
      exact Slots.runs_promoted hw₀ hsame
    · rw [hslots]
      unfold Slots.apply Slots.promoted
      cases s.active <;> simp
  | settle current records =>
    refine hs.kept (by rw [records]) ?_ ?_
    · rw [hslots]
      exact Slots.runs_settled
    · rw [hslots]
      exact fun p hp _ => (Slots.settled_slots s.toSlots).2.1 ▸ hp
  | acknowledge retired active current cleared records =>
    refine hs.cleared hkey records (fun _ => ?_) ?_
    · rw [hslots]
      exact fun hrun => Slots.runs_drop_retired (Slots.runs_settled hrun)
    · rw [hslots]
      exact fun p hp => (Slots.settled_slots { s.toSlots with retired := none }).2.1 ▸ hp
  | commit active cleared records =>
    refine hs.cleared hkey records (fun _ => ?_) ?_
    · rw [hslots]
      exact Slots.runs_drop_retired
    · rw [hslots]
      exact fun p hp => hp
  | revert active struck =>
    obtain ⟨r, hr⟩ := Option.isSome_iff_exists.mp henabled.1
    simp only [Slots.apply, hr, active] at hslots
    refine hs.struck_by hkey struck (fun _ => rfl) ?_ ?_
    · rw [hslots, Slots.runs_fail]
      rintro (⟨w', hw', hid⟩ | hrun | ⟨r', hr', -⟩)
      · exact Or.inr (Or.inr ⟨r, hr, Option.some.inj hw' ▸ hid⟩)
      · exact Or.inr (Or.inl hrun)
      · cases hr'
    · rw [hslots]
      exact fun p hp _ => Or.inr (Slots.fail_pending hp)
  | restore records =>
    have hactive := (h.handoff henabled.1).1
    simp [henabled.2] at hactive
  | stop records =>
    refine hs.kept (by rw [records]) ?_ ?_ <;> rw [hslots] <;> simp [Slots.apply, Slots.Runs]

/-- What ends a quarantine: a retry of the identity, or a promotion that clears
its record. -/
def Lifts (cfg : Config) (key : String) (s : State) (i : Input) : Prop :=
  (∃ spec io, i = .retry spec io ∧ spec.identity = key) ∨
    ∃ spec, spec.identity = key ∧ .cleared spec ∈ (step cfg s i).events

theorem Struck.still_quarantined {cfg : Config} {spec : StartSpec} {v : Verdict}
    {records : Records} {s' : State} {key : String} (h : Struck cfg spec v records s')
    (hkey : ∃ spec' : StartSpec, spec'.identity = key) (hq : records.QuarantinedAt key)
    (hstruck : spec.identity = key → ∀ record, records[key]? = some record →
      record.quarantined = true → cfg.maxFailures ≤ record.failures)
    (hkeep : .evicted key ∉ s'.events) : s'.persisted.records.QuarantinedAt key := by
  by_cases hid : spec.identity = key
  · subst hid
    obtain ⟨record, hr, hquarantined⟩ := hq
    obtain ⟨own, hown, hiff, -⟩ := h.own
    refine ⟨own, hown, hiff.mpr (h.decided.mpr ?_)⟩
    exact strikesOut_of_own hr (hstruck rfl record hr hquarantined)
  · rcases h.other hkey hid with hkept | ⟨-, hevicted⟩
    · obtain ⟨record, hr, hquarantined⟩ := hq
      exact ⟨record, hkept.trans hr, hquarantined⟩
    · exact absurd hevicted hkeep

theorem quarantinedAt_clear {records : Records} {spec : StartSpec} {key : String}
    (hkey : ∃ spec' : StartSpec, spec'.identity = key) (hne : spec.identity ≠ key)
    (hq : records.QuarantinedAt key) : (records.clear spec).QuarantinedAt key := by
  obtain ⟨spec', rfl⟩ := hkey
  obtain ⟨record, hr, hquarantined⟩ := hq
  exact ⟨record, by rw [Records.clear_other _ _ _ (Ne.symm hne), hr], hquarantined⟩

theorem quarantined_step {cfg : Config} {key : String} {s : State} {i : Input}
    (hs : Guarded cfg key s) (hkey : ∃ spec' : StartSpec, spec'.identity = key)
    (hq : s.persisted.records.QuarantinedAt key) (hkeep : .evicted key ∉ (step cfg s i).events)
    (hlift : ¬ Lifts cfg key s i) : (step cfg s i).persisted.records.QuarantinedAt key := by
  have running : ∀ {spec : StartSpec}, (spec.identity = key → s.toSlots.Runs key) →
      spec.identity = key → ∀ record, s.persisted.records[key]? = some record →
      record.quarantined = true → cfg.maxFailures ≤ record.failures := by
    intro spec hruns hid record hr hquarantined
    exact (hs.struck record hr hquarantined).resolve_right fun hnot => hnot (hruns hid)
  have cleared : ∀ {spec : StartSpec}, .cleared spec ∈ (step cfg s i).events →
      (step cfg s i).persisted.records = s.persisted.records.clear spec →
      (step cfg s i).persisted.records.QuarantinedAt key := by
    intro spec hmem hrecords
    rw [hrecords]
    exact quarantinedAt_clear hkey (fun hid => hlift (Or.inr ⟨spec, hid, hmem⟩)) hq
  obtain ⟨a, henabled, hslots, -, -, hexplained⟩ := step_refines cfg s i
  cases hexplained with
  | @abandon spec io detail unsaved records =>
    rw [records]
    exact quarantinedAt_clear hkey (fun hid => hlift (Or.inl ⟨spec, io, rfl, hid⟩)) hq
  | @launch _ spec w records =>
    by_cases hid : spec.identity = key
    · exact absurd hq (hid ▸ records.own_of_not_retry fun io hi => hlift (Or.inl ⟨_, io, hi, hid⟩))
    · obtain ⟨record, hr, hquarantined⟩ := hq
      exact ⟨record, (records.other hkey hid).trans hr, hquarantined⟩
  | @launchFailed _ spec v base hbase struck =>
    have hne : spec.identity ≠ key := fun hid =>
      absurd hq (hid ▸ hbase.own_of_not_retry fun io hi => hlift (Or.inl ⟨_, io, hi, hid⟩))
    obtain ⟨record, hr, hquarantined⟩ := hq
    exact struck.still_quarantined hkey ⟨record, (hbase.other hkey hne).trans hr, hquarantined⟩
      (fun hid => absurd hid hne) hkeep
  | failCandidate struck command counted =>
    refine struck.still_quarantined hkey hq (fun hid => running (fun _ => ?_) hid) hkeep
    rcases henabled with ⟨w, hw, rfl⟩ | ⟨-, p, hp, rfl⟩
    · exact Or.inr (Or.inl ⟨w, hw, hid⟩)
    · exact absurd hid (hs.waiting hq p hp)
  | loseActive active fails struck =>
    exact struck.still_quarantined hkey hq (running fun hid => Or.inl ⟨_, active, hid⟩) hkeep
  | revert active struck =>
    exact struck.still_quarantined hkey hq (running fun hid => Or.inl ⟨_, active, hid⟩) hkeep
  | promoteFirst first hcleared records => exact cleared hcleared records
  | acknowledge retired active current hcleared records => exact cleared hcleared records
  | commit active hcleared records => exact cleared hcleared records
  | idle _ records | touchActive records | touchCandidate records | answerQuarantined _ _ records
  | relaunch records | refuse _ records | promote records | settle _ records | restore records
  | stop records => rwa [records]

/-- **No launch under quarantine**, except by a retry. -/
theorem not_spawned {cfg : Config} {spec : StartSpec} {s : State} {i : Input}
    (hs : Guarded cfg spec.identity s) (hq : s.persisted.records.QuarantinedAt spec.identity)
    (hlift : ¬ Lifts cfg spec.identity s i) {spec' : StartSpec}
    (hid : spec'.identity = spec.identity) : .spawned spec' ∉ (step cfg s i).events := by
  intro hmem
  obtain ⟨a, henabled, -, hspawned, -, hexplained⟩ := step_refines cfg s i
  have hlaunched := hspawned spec' hmem
  cases hexplained with
  | launch records =>
    obtain rfl := Option.some.inj hlaunched
    refine absurd hq (hid ▸ records.own_of_not_retry fun io hi => ?_)
    exact hlift (Or.inl ⟨_, io, hi, hid⟩)
  | relaunch records =>
    obtain rfl := Option.some.inj hlaunched
    obtain ⟨-, p, hp, hspec, -⟩ := henabled
    exact hs.waiting hq p hp (by rw [← hspec, hid])
  | _ => simp [Action.launched] at hlaunched

/-! ## Every run -/

/-- `KeepsQuarantine`, and a restart of the same build finds on disk the
quarantine that was in memory. -/
def Daemon.Keeps (key : String) (d : Daemon) : DaemonInput → Prop
  | .supervisor i => KeepsQuarantine d.cfg key d.state i
  | .restart _ buildId =>
      d.state.persisted.records.QuarantinedAt key → d.state.disk.buildId = some buildId →
        d.state.disk.records.QuarantinedAt key

/-- A retry, a clearing promotion, or a new build. -/
def Daemon.Lifts (key : String) (d : Daemon) : DaemonInput → Prop
  | .supervisor i => Supervisor.Lifts d.cfg key d.state i
  | .restart _ buildId => d.state.disk.buildId ≠ some buildId

/-- The step launches a process of the identity. -/
def Daemon.Spawns (key : String) (d : Daemon) : DaemonInput → Prop
  | .supervisor i =>
      ∃ spec, spec.identity = key ∧ .spawned spec ∈ (Supervisor.step d.cfg d.state i).events
  | .restart _ _ => False

/-- The invariants of the state the daemon runs on. -/
def Daemon.Sound (key : String) (d : Daemon) : Prop :=
  d.state.toSlots.Inv ∧ Guarded d.cfg key d.state

theorem Daemon.sound_step {key : String} {d : Daemon} {i : DaemonInput}
    (hkey : ∃ spec : StartSpec, spec.identity = key) (h : d.Sound key) (hkeep : d.Keeps key i) :
    (d.step i).Sound key := by
  cases i with
  | supervisor i => exact ⟨inv_step i h.1, guarded_step h.1 h.2 hkey hkeep⟩
  | restart cfg buildId => exact ⟨Slots.inv_new, guarded_new cfg key _⟩

theorem Daemon.quarantined_step {key : String} {d : Daemon} {i : DaemonInput}
    (hkey : ∃ spec : StartSpec, spec.identity = key) (h : d.Sound key) (hkeep : d.Keeps key i)
    (hq : d.state.persisted.records.QuarantinedAt key) (hlift : ¬ d.Lifts key i) :
    (d.step i).state.persisted.records.QuarantinedAt key := by
  cases i with
  | supervisor i => exact Supervisor.quarantined_step h.2 hkey hq (hkeep.2 hq) hlift
  | restart cfg buildId =>
    have hbuild : d.state.disk.buildId = some buildId := not_not.mp hlift
    have hdisk := hkeep hq hbuild
    show (openForBuild d.state.disk buildId).records.QuarantinedAt key
    rwa [openForBuild, if_pos hbuild]

/-- **Quarantine holds.**  In a run of the daemon that meets `Daemon.Keeps`,
once the record of an identity is quarantined, no step launches a process for
it as long as nothing lifts the quarantine. -/
theorem quarantine_holds (cfg : Config) (persisted : PersistedState) (spec : StartSpec)
    (before after : List DaemonInput)
    (hkeep : Runs.Along Daemon.step (Daemon.Keeps spec.identity) ⟨cfg, .new persisted⟩
      (before ++ after))
    (hq : (Daemon.reached cfg persisted before).state.persisted.records.QuarantinedAt
      spec.identity)
    (hlift : Runs.Along Daemon.step (fun d i => ¬ d.Lifts spec.identity i)
      (Daemon.reached cfg persisted before) after) :
    Runs.Along Daemon.step (fun d i => ¬ d.Spawns spec.identity i)
      (Daemon.reached cfg persisted before) after := by
  have hkey : ∃ spec' : StartSpec, spec'.identity = spec.identity := ⟨spec, rfl⟩
  obtain ⟨hbefore, hafter⟩ := (Runs.along_append _ _ _).mp hkeep
  have hsound : (Daemon.reached cfg persisted before).Sound spec.identity :=
    Runs.invariant_run (fun d i h hk => Daemon.sound_step hkey h hk)
      ⟨Slots.inv_new, guarded_new cfg _ _⟩ hbefore
  refine Runs.along_of_invariant
    (I := fun d : Daemon => d.Sound spec.identity ∧
      d.state.persisted.records.QuarantinedAt spec.identity)
    (fun d i h hc => ⟨Daemon.sound_step hkey h.1 hc.1,
      Daemon.quarantined_step hkey h.1 hc.1 h.2 hc.2⟩) ?_ ⟨hsound, hq⟩ (hafter.and hlift)
  rintro d i ⟨hd, hq⟩ ⟨-, hl⟩ hspawns
  cases i with
  | supervisor i =>
    obtain ⟨spec', hid, hmem⟩ := hspawns
    exact not_spawned hd.2 hq hl hid hmem
  | restart cfg buildId => exact hspawns

/-- `a` crashes twice on trial. -/
def twoCrashes : List DaemonInput :=
  [.supervisor (.start specA (.quiet 0)),
   .supervisor (.inspectCandidate (.crash 100) (.quiet 100)),
   .supervisor (.pendingRestart 1200 (.quiet 1200)),
   .supervisor (.inspectCandidate (.crash 1300) (.quiet 1300))]

theorem quarantine_holds_twoCrashes :
    Runs.Along Daemon.step (fun d i => ¬ d.Spawns specA.identity i)
      (Daemon.reached .sample .empty twoCrashes) [.supervisor (.start specA (.quiet 2000))] := by
  refine quarantine_holds .sample .empty specA twoCrashes _ ?_ (by decide) ?_
  · refine ⟨⟨?_, by decide⟩, ⟨?_, by decide⟩, ⟨?_, by decide⟩, ⟨?_, by decide⟩, ⟨?_, by decide⟩,
      trivial⟩ <;>
      exact fun _ _ hi => by cases hi
  · refine ⟨?_, trivial⟩
    rintro (⟨spec, io, hi, -⟩ | ⟨spec, -, hmem⟩)
    · cases hi
    · have hnone : (step (Daemon.reached .sample .empty twoCrashes).cfg
          (Daemon.reached .sample .empty twoCrashes).state (.start specA (.quiet 2000))).events =
          [] := by
        decide
      rw [hnone] at hmem
      cases hmem

/-- `a` is live with one failure on record and waits for a restart when it
crashes again, which quarantines it. -/
def quarantineWithRestart : List Turn :=
  liveA ++
  [.sample (some (.start specA (.quiet 2000))) 2000 (.frame 2000 9) (.crash 2000),
   .sample none 2200 (.crash 2200) (.frame 2200 0)]

/-- The next tick after the quarantine in which the restart is due launches
`a`, with no retry, promotion or restart of the daemon in between. -/
theorem quarantined_restarted :
    let s := reached .sample .empty (quarantineWithRestart.flatMap Turn.inputs)
    let turn := Turn.sample none 3200 (.frame 3200 0) (.frame 3200 0)
    s.persisted.records.QuarantinedAt specA.identity ∧
      Runs.Ended (step .sample) (fun s i => .spawned specA ∈ (step .sample s i).events) s
        turn.inputs := by
  refine ⟨by decide, [.serviceInput .written .written .written, .handoffDeadline 3200 (.quiet 3200)],
    .pendingRestart 3200 (.quiet 3200), _, rfl, by decide⟩

end Kwe.Supervisor
