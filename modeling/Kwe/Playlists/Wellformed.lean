import Kwe.Playlists.Model

/-!
What holds of every reachable runtime (`PlaylistRuntime.Wf`), and that its
snapshots are therefore always valid (`snapshot_ok`).
-/

namespace Kwe.Playlists

/-! ## Valid playlists -/

/-- What `Playlist.validate` checks, as far as the runtime relies on it. -/
structure Playlist.Valid (playlist : Playlist) : Prop where
  id : boundedName playlist.id = true
  size : playlist.entries.length ≤ maxEntries
  names : ∀ entry ∈ playlist.entries, boundedName entry = true
  nodup : playlist.entries.Nodup
  duration : playlist.durationSeconds ≤ maxDurationSeconds

theorem Playlist.valid_of_validate {playlist : Playlist} (h : playlist.validate = .ok ()) :
    playlist.Valid := by
  unfold Playlist.validate at h
  split at h
  next => cases h
  next hid =>
    split at h
    next => cases h
    next hsize =>
      split at h
      next => cases h
      next hentries =>
        split at h
        next => cases h
        next htiming =>
          simp only [Bool.or_eq_true, not_or, Bool.not_eq_true', Bool.not_eq_false] at hid
          simp only [Bool.or_eq_true, not_or, Bool.not_eq_true', Bool.not_eq_false,
            List.all_eq_true, decide_eq_true_eq] at hentries
          simp only [Bool.or_eq_true, not_or, Bool.not_eq_true', Bool.not_eq_false,
            Bool.and_eq_true, decide_eq_true_eq] at htiming
          exact ⟨hid.1.1, by omega, hentries.1, hentries.2, htiming.1.1.2⟩

theorem Playlist.nextEligibleIndex_lt {playlist : Playlist} {current : Option Nat}
    {seed : UInt64} {excluded : List String} {index : Nat}
    (h : playlist.nextEligibleIndex current seed excluded = some index) :
    index < playlist.entries.length := by
  unfold Playlist.nextEligibleIndex at h
  simp only at h
  split at h
  next => cases h
  next hn =>
    split at h
    next =>
      split at h
      next =>
        have hcurrent := Option.eq_some_of_filter_eq_some h
        exact of_decide_eq_true (Option.filter_eq_some_iff.mp hcurrent).2
      next =>
        have hmem := List.mem_of_getElem? h
        exact List.mem_range.mp (List.mem_filter.mp hmem).1
    next =>
      obtain ⟨unwrapped, -, rfl⟩ := List.mem_map.mp (List.mem_of_find?_eq_some h)
      exact Nat.mod_lt _ (Nat.pos_of_ne_zero hn)

theorem Playlist.entry_mem {playlist : Playlist} {index : Nat}
    (h : index < playlist.entries.length) : playlist.entry index ∈ playlist.entries := by
  simp [Playlist.entry, List.getD_eq_getElem?_getD, h]

/-! ## Reachable runtimes -/

/-- The runtimes that operations lead to from a new one, failed operations
included. -/
inductive PlaylistRuntime.Reachable : PlaylistRuntime → Prop
  | new (seed) : Reachable (.new seed)
  | start {r} (playlist now unavailable) (h : Reachable r) :
      Reachable (r.start playlist now unavailable).2
  | tick {r} (playlist now unavailable) (h : Reachable r) :
      Reachable (r.tick playlist now unavailable).2
  | pause {r} (playlist now) (h : Reachable r) : Reachable (r.pause playlist now).2
  | resume {r} (playlist now) (h : Reachable r) : Reachable (r.resume playlist now).2
  | restore {r} (snapshot playlist now) (h : Reachable r) :
      Reachable (r.restore snapshot playlist now).2

/-- The current entry: none, with no timing left, or one at a bounded index,
with a name and a timing. -/
def PlaylistRuntime.Positioned (r : PlaylistRuntime) : Prop :=
  (r.currentIndex = none ∧ r.currentWallpaperId = none ∧ r.deadlineMs = none ∧
    r.pausedRemainingMs = none) ∨
  ∃ index name, r.currentIndex = some index ∧ r.currentWallpaperId = some name ∧
    index < maxEntries ∧ boundedName name = true ∧
    (r.deadlineMs.isSome ∨ r.pausedRemainingMs.isSome)

/-- What holds of every reachable runtime. -/
structure PlaylistRuntime.Wf (r : PlaylistRuntime) : Prop where
  positioned : r.Positioned
  historySize : r.history.length ≤ maxEntries
  historyNames : ∀ entry ∈ r.history, boundedName entry = true
  deadline : ∀ d, r.deadlineMs = some d →
    ∃ last, r.lastNowMs = some last ∧ d ≤ last + maxSnapshotRemainingMs
  paused : ∀ remaining, r.pausedRemainingMs = some remaining → remaining ≤ maxSnapshotRemainingMs

namespace PlaylistRuntime

theorem wf_new (seed : UInt64) : (new seed).Wf := by
  constructor <;> simp [new, Positioned]

theorem wf_reconcileCurrent {playlist : Playlist} {r : PlaylistRuntime} (hv : playlist.Valid)
    (h : r.Wf) : (reconcileCurrent playlist r).Wf := by
  unfold reconcileCurrent
  rcases h.positioned with ⟨hi, hid, hd, hp⟩ | ⟨index, id, hi, hid, hlt, hname, htiming⟩
  · rw [hid]
    exact ⟨Or.inl ⟨rfl, rfl, hd, hp⟩, h.historySize, h.historyNames, h.deadline, h.paused⟩
  · rw [hid]
    simp only
    split
    next => exact h
    next =>
      split
      next j hj =>
        have hj := (List.findIdx?_eq_some_iff_findIdx_eq.mp hj).1
        exact ⟨Or.inr ⟨j, id, rfl, rfl, Nat.lt_of_lt_of_le hj hv.size, hname, htiming⟩,
          h.historySize, h.historyNames, h.deadline, h.paused⟩
      next =>
        exact ⟨Or.inl ⟨rfl, rfl, rfl, rfl⟩, h.historySize, h.historyNames, by simp, by simp⟩

theorem length_pushHistory_le (history : List String) (entry : String) :
    (pushHistory history entry).length ≤ maxEntries := by
  unfold pushHistory
  rw [List.length_drop]
  omega

theorem mem_pushHistory {history : List String} {entry seen : String}
    (h : seen ∈ pushHistory history entry) : seen ∈ history ∨ seen = entry := by
  unfold pushHistory at h
  simpa using List.mem_of_mem_drop h

theorem saturatingAdd64_le (a b : Nat) : saturatingAdd64 a b ≤ a + b := Nat.min_le_left _ _

theorem saturatingAdd64_eq {a b : Nat} (h : a + b < 2 ^ 64) : saturatingAdd64 a b = a + b := by
  unfold saturatingAdd64
  omega

theorem wf_select {playlist : Playlist} {now : Nat} {unavailable : List String} {starting : Bool}
    {r : PlaylistRuntime} (hv : playlist.Valid) (h : r.Wf) (hnow : r.lastNowMs = some now) :
    (select playlist now unavailable starting r).2.Wf := by
  unfold select
  split
  next =>
    exact ⟨Or.inl ⟨rfl, rfl, rfl, rfl⟩, h.historySize, h.historyNames, by simp, by simp⟩
  next index hindex =>
    have hlt := Playlist.nextEligibleIndex_lt hindex
    have hname := hv.names _ (Playlist.entry_mem hlt)
    have hsize := length_pushHistory_le r.history (playlist.entry index)
    refine ⟨Or.inr ⟨index, playlist.entry index, rfl, rfl, Nat.lt_of_lt_of_le hlt hv.size, hname,
      Or.inl rfl⟩, ?_, ?_, ?_, by simp⟩
    · dsimp only
      exact hsize
    · dsimp only
      intro entry hentry
      rcases mem_pushHistory hentry with hold | rfl
      · exact h.historyNames entry hold
      · exact hname
    · rintro d hd
      refine ⟨now, hnow, ?_⟩
      have hd : saturatingAdd64 now (playlist.durationSeconds * 1000) = d := Option.some.inj hd
      have hle := saturatingAdd64_le now (playlist.durationSeconds * 1000)
      have hduration := hv.duration
      unfold maxDurationSeconds at hduration
      unfold maxSnapshotRemainingMs
      omega

@[simp] theorem reconcileCurrent_lastNowMs (playlist : Playlist) (r : PlaylistRuntime) :
    (reconcileCurrent playlist r).lastNowMs = r.lastNowMs := by
  unfold reconcileCurrent
  repeat' split
  all_goals rfl

/-- Observing a time and reconciling keeps the invariant. -/
theorem wf_observe {playlist : Playlist} {now : Nat} {r r' : PlaylistRuntime}
    (hv : playlist.Valid) (h : r.Wf) (ho : r.observe playlist now = .ok r') :
    r'.Wf ∧ r'.lastNowMs = some now := by
  unfold observe at ho
  split at ho
  next => cases ho
  next hlate =>
    obtain rfl := Except.ok.inj ho
    refine ⟨wf_reconcileCurrent hv ⟨h.positioned, h.historySize, h.historyNames, ?_, h.paused⟩,
      by simp⟩
    intro d hd
    obtain ⟨last, hlast, hle⟩ := h.deadline d hd
    have hlate : ¬ now < last := by simpa [regressed, hlast] using hlate
    exact ⟨now, rfl, by omega⟩

theorem wf_start {playlist : Playlist} {now : Nat} {unavailable : List String}
    {r : PlaylistRuntime} (h : r.Wf) : (r.start playlist now unavailable).2.Wf := by
  unfold start
  split
  next => exact h
  next => exact h
  next hp _ =>
    refine wf_select (Playlist.valid_of_validate hp) ?_ rfl
    exact ⟨Or.inl ⟨rfl, rfl, rfl, rfl⟩, Nat.zero_le _, by simp, by simp, by simp⟩

theorem wf_tickReconciled {playlist : Playlist} {now : Nat} {unavailable : List String}
    {r : PlaylistRuntime} (hv : playlist.Valid) (h : r.Wf) (hnow : r.lastNowMs = some now) :
    (tickReconciled playlist now unavailable r).2.Wf := by
  unfold tickReconciled
  repeat' split
  all_goals first
    | exact h
    | exact wf_select hv h hnow

theorem wf_tick {playlist : Playlist} {now : Nat} {unavailable : List String}
    {r : PlaylistRuntime} (h : r.Wf) : (r.tick playlist now unavailable).2.Wf := by
  unfold tick
  split
  next => exact h
  next => exact h
  next hp _ =>
    split
    next => exact h
    next r' ho =>
      have hv := Playlist.valid_of_validate hp
      obtain ⟨hwf, hnow⟩ := wf_observe hv h ho
      exact wf_tickReconciled hv hwf hnow

/-- The remaining time of a playing entry is bounded. -/
theorem remaining_le {now : Nat} {r : PlaylistRuntime} (h : r.Wf) (hnow : r.lastNowMs = some now) :
    r.deadlineMs.getD now - now ≤ maxSnapshotRemainingMs := by
  cases hd : r.deadlineMs with
  | none => simp
  | some d =>
    obtain ⟨last, hlast, hle⟩ := h.deadline d hd
    rw [hnow] at hlast
    have hlast := Option.some.inj hlast
    simp only [Option.getD_some]
    omega

theorem wf_pauseReconciled {playlist : Playlist} {now : Nat} {r : PlaylistRuntime} (h : r.Wf)
    (hnow : r.lastNowMs = some now) : (pauseReconciled playlist now r).2.Wf := by
  unfold pauseReconciled
  split
  next => exact h
  next index hi =>
    rcases h.positioned with ⟨hnone, -⟩ | ⟨j, name, hj, hname, hlt, hbounded, -⟩
    · simp [hi] at hnone
    · refine ⟨Or.inr ⟨j, name, hj, hname, hlt, hbounded, Or.inr rfl⟩, h.historySize,
        h.historyNames, h.deadline, ?_⟩
      intro remaining hremaining
      rw [← Option.some.inj hremaining]
      cases hp : r.pausedRemainingMs with
      | some ms => exact h.paused ms hp
      | none => exact remaining_le h hnow

theorem wf_pause {playlist : Playlist} {now : Nat} {r : PlaylistRuntime} (h : r.Wf) :
    (r.pause playlist now).2.Wf := by
  unfold pause
  split
  next => exact h
  next hp =>
    split
    next => exact h
    next r' ho =>
      obtain ⟨hwf, hnow⟩ := wf_observe (Playlist.valid_of_validate hp) h ho
      exact wf_pauseReconciled hwf hnow

theorem wf_resumeReconciled {playlist : Playlist} {now : Nat} {r : PlaylistRuntime} (h : r.Wf)
    (hnow : r.lastNowMs = some now) : (resumeReconciled playlist now r).2.Wf := by
  unfold resumeReconciled
  split
  next => exact h
  next index hi =>
    rcases h.positioned with ⟨hnone, -⟩ | ⟨j, name, hj, hname, hlt, hbounded, -⟩
    · simp [hi] at hnone
    · simp only
      split
      next ms hp =>
        refine ⟨Or.inr ⟨j, name, hj, hname, hlt, hbounded, Or.inl rfl⟩, h.historySize,
          h.historyNames, ?_, by simp⟩
        intro d hd
        have hd : saturatingAdd64 now ms = d := Option.some.inj hd
        have hle := saturatingAdd64_le now ms
        have hms := h.paused ms hp
        exact ⟨now, hnow, by omega⟩
      next => exact h

theorem wf_resume {playlist : Playlist} {now : Nat} {r : PlaylistRuntime} (h : r.Wf) :
    (r.resume playlist now).2.Wf := by
  unfold resume
  split
  next => exact h
  next hp =>
    split
    next => exact h
    next r' ho =>
      obtain ⟨hwf, hnow⟩ := wf_observe (Playlist.valid_of_validate hp) h ho
      exact wf_resumeReconciled hwf hnow

end PlaylistRuntime

/-! ## Snapshots -/

/-- What `PlaylistRuntimeSnapshot.validate` checks. -/
structure PlaylistRuntimeSnapshot.Valid (snapshot : PlaylistRuntimeSnapshot) : Prop where
  schema : snapshot.schemaVersion = snapshotSchemaVersion
  playlistId : boundedName snapshot.playlistId = true
  historySize : snapshot.history.length ≤ maxEntries
  historyNames : ∀ entry ∈ snapshot.history, boundedName entry = true
  position : (snapshot.currentIndex = none ∧ snapshot.currentWallpaperId = none ∧
      snapshot.remainingMs = none ∧ snapshot.pausedRemainingMs = none) ∨
    ∃ index name, snapshot.currentIndex = some index ∧ snapshot.currentWallpaperId = some name ∧
      index < maxEntries ∧ boundedName name = true ∧
      (snapshot.remainingMs.isSome = !snapshot.pausedRemainingMs.isSome)
  remaining : ∀ ms, snapshot.remainingMs = some ms → ms ≤ maxSnapshotRemainingMs
  paused : ∀ ms, snapshot.pausedRemainingMs = some ms → ms ≤ maxSnapshotRemainingMs

theorem PlaylistRuntimeSnapshot.validateTiming_ok_iff (snapshot : PlaylistRuntimeSnapshot) :
    snapshot.validateTiming = .ok () ↔
      (if snapshot.currentIndex.isSome then
        snapshot.remainingMs.isSome = !snapshot.pausedRemainingMs.isSome
      else snapshot.remainingMs = none ∧ snapshot.pausedRemainingMs = none) ∧
      (∀ ms, snapshot.remainingMs = some ms → ms ≤ maxSnapshotRemainingMs) ∧
      (∀ ms, snapshot.pausedRemainingMs = some ms → ms ≤ maxSnapshotRemainingMs) := by
  unfold validateTiming
  cases snapshot.currentIndex <;> cases snapshot.remainingMs <;>
    cases snapshot.pausedRemainingMs <;> simp

theorem PlaylistRuntimeSnapshot.validatePosition_ok_iff (snapshot : PlaylistRuntimeSnapshot) :
    snapshot.validatePosition = .ok () ↔
      (snapshot.currentIndex = none ∧ snapshot.currentWallpaperId = none) ∨
      ∃ index name, snapshot.currentIndex = some index ∧
        snapshot.currentWallpaperId = some name ∧ index < maxEntries ∧
        boundedName name = true := by
  unfold validatePosition
  cases snapshot.currentIndex <;> cases snapshot.currentWallpaperId <;> simp

theorem PlaylistRuntimeSnapshot.validate_ok_iff (snapshot : PlaylistRuntimeSnapshot) :
    snapshot.validate = .ok () ↔ snapshot.Valid := by
  have hp := snapshot.validatePosition_ok_iff
  have ht := snapshot.validateTiming_ok_iff
  unfold validate
  constructor
  · intro h
    split at h
    next => cases h
    next hschema =>
      split at h
      next => cases h
      next hid =>
        split at h
        next => cases h
        next hhistory =>
          split at h
          next => cases h
          next hposition =>
            obtain ⟨htiming, hremaining, hpaused⟩ := ht.mp h
            simp only [Bool.or_eq_true, decide_eq_true_eq, not_or, Bool.not_eq_true',
              Bool.not_eq_false, List.all_eq_true, Nat.not_lt] at hhistory
            refine ⟨not_not.mp hschema, by simpa using hid, hhistory.1, hhistory.2, ?_,
              hremaining, hpaused⟩
            rcases hp.mp hposition with ⟨hi, hname⟩ | ⟨index, name, hi, hname, hlt, hbounded⟩
            · rw [hi] at htiming
              exact Or.inl ⟨hi, hname, htiming⟩
            · rw [hi] at htiming
              exact Or.inr ⟨index, name, hi, hname, hlt, hbounded, htiming⟩
  · rintro ⟨hschema, hid, hsize, hnames, hposition, hremaining, hpaused⟩
    have hvalid : snapshot.validatePosition = .ok () ∧ snapshot.validateTiming = .ok () := by
      rw [hp, ht]
      rcases hposition with ⟨hi, hname, htiming⟩ | ⟨index, name, hi, hname, hlt, hbounded, htiming⟩
      · exact ⟨Or.inl ⟨hi, hname⟩, by simp [hi, htiming], hremaining, hpaused⟩
      · exact ⟨Or.inr ⟨index, name, hi, hname, hlt, hbounded⟩, by simp [hi, htiming], hremaining,
          hpaused⟩
    rw [if_neg (not_not_intro hschema), if_neg (by simp [hid]), if_neg ?_, hvalid.1]
    · exact hvalid.2
    · simpa [hsize] using hnames

namespace PlaylistRuntime

theorem wf_restore {snapshot : PlaylistRuntimeSnapshot} {playlist : Playlist} {now : Nat}
    {r : PlaylistRuntime} (h : r.Wf) : (r.restore snapshot playlist now).2.Wf := by
  unfold restore
  split
  next => exact h
  next => exact h
  next hs hp =>
    split
    next => exact h
    next =>
      have hvalid := snapshot.validate_ok_iff.mp hs
      refine wf_reconcileCurrent (Playlist.valid_of_validate hp) ⟨?_, hvalid.historySize,
        hvalid.historyNames, ?_, hvalid.paused⟩
      · rcases hvalid.position with ⟨hi, hname, hr, hpaused⟩ |
          ⟨index, name, hi, hname, hlt, hbounded, htiming⟩
        · exact Or.inl ⟨hi, hname, by simp [anchor, hr], hpaused⟩
        · refine Or.inr ⟨index, name, hi, hname, hlt, hbounded, ?_⟩
          cases hpaused : snapshot.pausedRemainingMs <;> simp_all [anchor]
      · intro d hd
        obtain ⟨ms, hms, rfl⟩ := Option.map_eq_some_iff.mp hd
        have hle := saturatingAdd64_le now ms
        have hbound := hvalid.remaining ms hms
        exact ⟨now, rfl, by omega⟩

theorem Reachable.wf {r : PlaylistRuntime} (h : r.Reachable) : r.Wf := by
  induction h with
  | new seed => exact wf_new seed
  | start playlist now unavailable _ ih => exact wf_start ih
  | tick playlist now unavailable _ ih => exact wf_tick ih
  | pause playlist now _ ih => exact wf_pause ih
  | resume playlist now _ ih => exact wf_resume ih
  | restore snapshot playlist now _ ih => exact wf_restore ih

/-- **Snapshots succeed**, and are valid. -/
theorem snapshot_ok {playlist : Playlist} {now : Nat} {r : PlaylistRuntime} (h : r.Wf)
    (hp : playlist.validate = .ok ()) (hnow : r.regressed now = false) :
    r.snapshot playlist now = .ok (r.capture playlist now) ∧
      (r.capture playlist now).validate = .ok () := by
  have hvalid : (r.capture playlist now).Valid := by
    refine ⟨rfl, (Playlist.valid_of_validate hp).id, h.historySize, h.historyNames, ?_, ?_,
      h.paused⟩
    · rcases h.positioned with ⟨hi, hname, hd, hpaused⟩ |
        ⟨index, name, hi, hname, hlt, hbounded, htiming⟩
      · exact Or.inl ⟨hi, hname, by simp [capture, hi], hpaused⟩
      · refine Or.inr ⟨index, name, hi, hname, hlt, hbounded, ?_⟩
        cases hpaused : r.pausedRemainingMs <;> simp_all [capture]
    · intro ms hms
      unfold capture at hms
      split at hms
      next => cases hms
      next =>
        split at hms
        next =>
          obtain ⟨d, hd, rfl⟩ := Option.map_eq_some_iff.mp hms
          obtain ⟨last, hlast, hle⟩ := h.deadline d hd
          have hlate : ¬ now < last := by simpa [regressed, hlast] using hnow
          omega
        next => cases hms
  have hok := (PlaylistRuntimeSnapshot.validate_ok_iff _).mpr hvalid
  refine ⟨?_, hok⟩
  unfold snapshot
  rw [hp, hnow, hok]
  rfl

end PlaylistRuntime

end Kwe.Playlists
