import Kwe.Playlists.StateFormat

/-!
What the session persists, the next start reads back
(`SessionRuntime.Persistable`, `KeepsState`).

* `persisted_step`: a step that finds room for the snapshot it adds keeps the
  session persistable, and what it writes loads back;
* `reached_accepted`: so does every step of a run.
-/

namespace Kwe.Playlists

open Foundation
open Std (ExtTreeMap)

/-- Snapshots that all validate. -/
def Snapshots.Valid (snapshots : Snapshots) : Prop :=
  ∀ (id : String) (snapshot : PlaylistRuntimeSnapshot), snapshots[id]? = some snapshot →
    snapshot.validate = .ok ()

/-- The active playlist has a snapshot. -/
def Snapshots.Covers (snapshots : Snapshots) (active : Option String) : Prop :=
  ∀ id, active = some id → id ∈ snapshots

/-- Room for the snapshot of `id`. -/
def Snapshots.Room (snapshots : Snapshots) (id : String) : Prop :=
  id ∈ snapshots ∨ snapshots.size < maxSnapshotEntries

/-- What every command and tick keeps. -/
structure SessionRuntime.Settled (s : SessionRuntime) : Prop where
  valid : s.snapshots.Valid
  size : s.snapshots.size ≤ maxSnapshotEntries
  runtimes : ∀ (id : String) (r : PlaylistRuntime), s.runtimes[id]? = some r → r.Wf
  playlists : ∀ playlist ∈ s.playlists, playlist.validate = .ok ()

structure SessionRuntime.Persistable (s : SessionRuntime) : Prop extends s.Settled where
  covers : s.snapshots.Covers s.active

/-- The bytes, when there are any, load back as what `s` holds. -/
def SessionRuntime.Reads (codec : Codec) (s : SessionRuntime) (state : Option ByteArray) : Prop :=
  ∀ bytes, state = some bytes →
    loadRuntimeState codec (some bytes) none = ⟨s.active, s.snapshots, false⟩

/-- A session that the next step may start from, beside bytes that load back
as it. -/
def SessionRuntime.Kept (codec : Codec) (p : SessionRuntime × Option ByteArray) : Prop :=
  p.1.Persistable ∧ p.1.Reads codec p.2

/-! ## Maps of snapshots -/

theorem Snapshots.Valid.insert {snapshots : Snapshots} (h : snapshots.Valid) {id : String}
    {snapshot : PlaylistRuntimeSnapshot} (hs : snapshot.validate = .ok ()) :
    Valid (snapshots.insert id snapshot) := by
  intro id' snapshot' h'
  rw [ExtTreeMap.getElem?_insert] at h'
  split at h'
  next => exact Option.some.inj h' ▸ hs
  next => exact h id' snapshot' h'

theorem Snapshots.Valid.erase {snapshots : Snapshots} (h : snapshots.Valid) (id : String) :
    Valid (snapshots.erase id) := by
  intro id' snapshot' h'
  rw [ExtTreeMap.getElem?_erase] at h'
  split at h'
  next => cases h'
  next => exact h id' snapshot' h'

theorem Snapshots.Room.size_insert {snapshots : Snapshots} {id : String} (h : snapshots.Room id)
    (hsize : snapshots.size ≤ maxSnapshotEntries) (snapshot : PlaylistRuntimeSnapshot) :
    (snapshots.insert id snapshot).size ≤ maxSnapshotEntries := by
  rw [ExtTreeMap.size_insert]
  rcases h with h | h
  · rw [if_pos (ExtTreeMap.contains_iff_mem.mpr h)]
    exact hsize
  · split <;> omega

/-! ## Loading -/

theorem loaded_valid (codec : Codec) (file : Option ByteArray) (fault : Option ReadFault) :
    (loadRuntimeState codec file fault).snapshots.Valid ∧
      (loadRuntimeState codec file fault).snapshots.size ≤ maxSnapshotEntries := by
  have hempty : ∀ quarantined, (LoadedState.empty quarantined).snapshots.Valid ∧
      (LoadedState.empty quarantined).snapshots.size ≤ maxSnapshotEntries := fun quarantined =>
    ⟨fun id snapshot h => by simp [LoadedState.empty] at h, Nat.zero_le _⟩
  unfold loadRuntimeState
  repeat' split
  all_goals first | exact hempty _ | skip
  next state _ hstate =>
    rw [Bool.and_eq_true] at hstate
    refine ⟨fun id snapshot h => ?_,
      Nat.le_trans ExtTreeMap.size_filter_le_size (of_decide_eq_true hstate.2)⟩
    rw [ExtTreeMap.getElem?_filter', Option.filter_eq_some_iff] at h
    cases hv : snapshot.validate with
    | ok _ => rfl
    | error detail =>
      rw [hv] at h
      cases h.2

theorem loaded_fault (codec : Codec) (file : Option ByteArray) (fault : ReadFault) :
    ∃ quarantined, loadRuntimeState codec file (some fault) = .empty quarantined := by
  unfold loadRuntimeState
  cases fault <;> repeat' split
  all_goals first | exact ⟨_, rfl⟩ | contradiction

theorem filter_valid {snapshots : Snapshots} (h : snapshots.Valid) :
    snapshots.filter (fun _ snapshot => snapshot.validate.isOk) = snapshots := by
  rw [ExtTreeMap.filter_eq_self_iff]
  intro id hid
  have hvalid := h id _ (ExtTreeMap.getElem?_eq_some_getElem hid)
  rw [hvalid]
  rfl

/-- What a session with valid snapshots encodes within the size bound loads back. -/
theorem load_encodeState {codec : Codec} (hcodec : codec.RoundTrip) {s : SessionRuntime}
    (hvalid : s.snapshots.Valid) (hsize : s.snapshots.size ≤ maxSnapshotEntries)
    (hbytes : (s.encodeState codec).size ≤ maxRuntimeStateBytes) :
    loadRuntimeState codec (some (s.encodeState codec)) none =
      ⟨s.active, s.snapshots, false⟩ := by
  have hdecode : codec.fromSlice (s.encodeState codec) = .ok s.persisted :=
    hcodec s.persisted ⟨rfl, hvalid⟩
  unfold loadRuntimeState
  simp only [if_neg (Nat.not_lt.mpr hbytes), hdecode]
  simp [SessionRuntime.persisted, hsize, filter_valid hvalid]

theorem checkIds_valid {ids : List String} {playlists : List Playlist}
    (h : PlaylistStore.checkIds ids playlists = .ok ()) :
    ∀ playlist ∈ playlists, playlist.validate = .ok () := by
  induction playlists generalizing ids with
  | nil => exact fun _ hp => absurd hp List.not_mem_nil
  | cons p ps ih =>
    unfold PlaylistStore.checkIds at h
    split at h
    next => cases h
    next hv =>
      split at h
      next => cases h
      next =>
        intro playlist hp
        rcases List.mem_cons.mp hp with rfl | hp
        · exact hv
        · exact ih h playlist hp

theorem check_valid {playlists : List Playlist} (h : PlaylistStore.check playlists = .ok ()) :
    ∀ playlist ∈ playlists, playlist.validate = .ok () := by
  unfold PlaylistStore.check at h
  split at h
  next => cases h
  next => exact checkIds_valid h

theorem load_valid (file : DefinitionsFile) :
    ∀ playlist ∈ (PlaylistStore.load file).toOption.getD [], playlist.validate = .ok () := by
  unfold PlaylistStore.load
  split
  next => exact fun _ hp => absurd hp List.not_mem_nil
  next => exact fun _ hp => absurd hp List.not_mem_nil
  next playlists =>
    cases h : PlaylistStore.check playlists with
    | error detail => exact fun _ hp => absurd hp List.not_mem_nil
    | ok _ => exact check_valid h

theorem save_valid {stored : Except String Unit} {playlists : List Playlist}
    (h : PlaylistStore.save stored playlists = .ok ()) :
    ∀ playlist ∈ playlists, playlist.validate = .ok () := by
  unfold PlaylistStore.save at h
  split at h
  next => cases h
  next hcheck => exact check_valid hcheck

namespace SessionRuntime

/-! ## Persisting -/

theorem evict_spec (codec : Codec) (s : SessionRuntime) :
    ∃ snapshots : Snapshots, s.evict codec = { s with snapshots := snapshots } ∧
      (s.snapshots.Valid → snapshots.Valid) ∧ snapshots.size ≤ s.snapshots.size ∧
      (s.snapshots.Covers s.active → snapshots.Covers s.active) := by
  induction s using evict.induct codec with
  | case1 s hlarge id hid ih =>
    obtain ⟨snapshots, heq, hvalid, hsize, hcovers⟩ := ih
    have hmem := evictable_mem hid
    refine ⟨snapshots, ?_, fun h => hvalid (h.erase id),
      Nat.le_trans hsize (Nat.le_of_lt (size_erase_lt hmem.1)), fun h => hcovers fun id' hactive => ?_⟩
    · rw [evict, if_pos hlarge]
      split
      next id' hid' =>
        obtain rfl : id = id' := Option.some.inj (hid.symm.trans hid')
        exact heq
      next hnone => cases hid.symm.trans hnone
    · refine ExtTreeMap.mem_erase.mpr ⟨fun hcmp => ?_, h id' hactive⟩
      rw [Std.LawfulEqCmp.eq_of_compare hcmp] at hmem
      exact hmem.2 hactive.symm
  | case2 s hlarge hnone =>
    refine ⟨s.snapshots, ?_, id, Nat.le_refl _, id⟩
    rw [evict, if_pos hlarge]
    split
    next id' hid' => cases hid'.symm.trans hnone
    next => rfl
  | case3 s hsmall => exact ⟨s.snapshots, by rw [evict, if_neg hsmall], id, Nat.le_refl _, id⟩

/-- **Persisting.**  What `persist_state` writes loads back. -/
theorem persistState_spec {codec : Codec} (hcodec : codec.RoundTrip) {s : SessionRuntime}
    (h : s.Persistable) : Kept codec (s.persistState codec) := by
  obtain ⟨snapshots, heq, hvalid, hsize, hcovers⟩ := evict_spec codec s
  have hs : (s.evict codec).Persistable := by
    rw [heq]
    exact ⟨⟨hvalid h.valid, Nat.le_trans hsize h.size, h.runtimes, h.playlists⟩, hcovers h.covers⟩
  unfold persistState
  dsimp only
  split
  next => exact ⟨hs, fun _ hb => by cases hb⟩
  next hbytes =>
    refine ⟨hs, fun bytes hb => ?_⟩
    obtain rfl := Option.some.inj hb
    exact load_encodeState hcodec hs.valid hs.size (Nat.not_lt.mp hbytes)

/-! ## Runtimes and their snapshots -/

theorem Settled.runtimeOf {s : SessionRuntime} (h : s.Settled) (id : String) :
    (s.runtimeOf id).Wf := by
  unfold SessionRuntime.runtimeOf
  rw [ExtTreeMap.getD_eq_getD_getElem?]
  cases hr : s.runtimes[id]? with
  | none => exact PlaylistRuntime.wf_new 0
  | some r => exact h.runtimes id r hr

theorem Settled.setRuntime {s : SessionRuntime} (h : s.Settled) (id : String)
    {r : PlaylistRuntime} (hr : r.Wf) : (s.setRuntime id r).Settled := by
  refine ⟨h.valid, h.size, fun id' r' h' => ?_, h.playlists⟩
  rw [SessionRuntime.setRuntime, ExtTreeMap.getElem?_insert] at h'
  split at h'
  next => exact Option.some.inj h' ▸ hr
  next => exact h.runtimes id' r' h'

theorem snapshot_valid {r : PlaylistRuntime} {playlist : Playlist} {now : Nat}
    {snapshot : PlaylistRuntimeSnapshot} (h : (r.snapshot playlist now).toOption = some snapshot) :
    snapshot.validate = .ok () := by
  unfold PlaylistRuntime.snapshot at h
  repeat' split at h
  all_goals first | cases h; done | skip
  next hvalid =>
    cases h
    exact hvalid

theorem snapshotOf_valid {s : SessionRuntime} {id : String} {now : Nat}
    {snapshot : PlaylistRuntimeSnapshot} (h : s.snapshotOf id now = some snapshot) :
    snapshot.validate = .ok () := by
  unfold snapshotOf at h
  obtain ⟨playlist, -, h⟩ := Option.bind_eq_some_iff.mp h
  obtain ⟨r, -, h⟩ := Option.bind_eq_some_iff.mp h
  exact snapshot_valid h

theorem Settled.keepSnapshot {s : SessionRuntime} (h : s.Settled) {id : String}
    (hroom : s.snapshots.Room id) {snapshot : Option PlaylistRuntimeSnapshot}
    (hsnapshot : ∀ x, snapshot = some x → x.validate = .ok ()) :
    (s.keepSnapshot id snapshot).Settled := by
  cases snapshot with
  | none => exact h
  | some x =>
    exact ⟨h.valid.insert (hsnapshot x rfl), hroom.size_insert h.size x, h.runtimes, h.playlists⟩

theorem Covers.keepSnapshot {s : SessionRuntime} (h : s.snapshots.Covers s.active) (id : String)
    (snapshot : Option PlaylistRuntimeSnapshot) :
    (s.keepSnapshot id snapshot).snapshots.Covers (s.keepSnapshot id snapshot).active := by
  cases snapshot with
  | none => exact h
  | some x => exact fun id' hactive => ExtTreeMap.mem_insert.mpr (Or.inr (h id' hactive))

/-- A new snapshot of the active playlist has its place already. -/
theorem Persistable.keepActive {s : SessionRuntime} (h : s.Persistable) {id : String}
    (hid : s.active = some id) (now : Nat) :
    (s.keepSnapshot id (s.snapshotOf id now)).Persistable :=
  ⟨h.toSettled.keepSnapshot (Or.inl (h.covers id hid)) (fun _ hx => snapshotOf_valid hx),
    Covers.keepSnapshot h.covers id _⟩

theorem find_valid {s : SessionRuntime} (h : s.Settled) {id : String} {playlist : Playlist}
    (hfind : s.find id = some playlist) : playlist.validate = .ok () :=
  h.playlists playlist (List.mem_of_find?_eq_some hfind)

/-! ## Ticks -/

theorem maybePersist_spec {codec : Codec} (hcodec : codec.RoundTrip) {s : SessionRuntime}
    (h : s.Persistable) {id : String} (hid : s.active = some id) (elapsed : Nat)
    (decision : PlaylistDecision) (now : Nat) :
    Kept codec (s.maybePersist codec elapsed id decision now) := by
  unfold maybePersist
  dsimp only
  split
  next => exact ⟨⟨⟨h.valid, h.size, h.runtimes, h.playlists⟩, h.covers⟩, fun _ hb => by cases hb⟩
  next =>
    have hkept := Persistable.keepActive (s := { s with lastDecision := some decision })
      ⟨⟨h.valid, h.size, h.runtimes, h.playlists⟩, h.covers⟩ hid now
    exact persistState_spec hcodec
      ⟨⟨hkept.valid, hkept.size, hkept.runtimes, hkept.playlists⟩, hkept.covers⟩

theorem tickSession_spec {codec : Codec} (hcodec : codec.RoundTrip) {s : SessionRuntime}
    (h : s.Persistable) (elapsed : Nat) (quarantined : Option (List String))
    (refused : Option String) : Kept codec (s.tickSession codec elapsed quarantined refused) := by
  have hs : (s.refresh quarantined refused).Persistable :=
    ⟨⟨h.valid, h.size, h.runtimes, h.playlists⟩, h.covers⟩
  unfold tickSession
  dsimp only
  split
  next => exact ⟨hs, fun _ hb => by cases hb⟩
  next id hid =>
    split
    next =>
      exact persistState_spec hcodec
        ⟨⟨hs.valid, hs.size, hs.runtimes, hs.playlists⟩, fun _ hactive => by cases hactive⟩
    next playlist hfind =>
      have hset : ∀ {r : PlaylistRuntime}, r.Wf →
          ((s.refresh quarantined refused).setRuntime id r).Persistable :=
        fun hr => ⟨hs.toSettled.setRuntime id hr, hs.covers⟩
      have hr := hs.toSettled.runtimeOf id
      split
      next => exact ⟨hset (PlaylistRuntime.wf_tick hr), fun _ hb => by cases hb⟩
      next decision _ =>
        exact maybePersist_spec hcodec (hset (PlaylistRuntime.wf_tick hr)) hid elapsed decision _

theorem shutdown_spec {codec : Codec} (hcodec : codec.RoundTrip) {s : SessionRuntime}
    (h : s.Persistable) (elapsed : Nat) : Kept codec (s.shutdown codec elapsed) := by
  unfold shutdown
  split
  next => exact persistState_spec hcodec h
  next id hid => exact persistState_spec hcodec (h.keepActive hid _)

/-! ## Commands -/

theorem refuse_spec (codec : Codec) {α : Type} {s : SessionRuntime} (h : s.Persistable)
    (error : SessionError) :
    Kept codec ((s.refuse error : Done α).session, (s.refuse error : Done α).state) :=
  ⟨h, fun _ hb => by cases hb⟩

theorem putPlaylist_spec (codec : Codec) {s : SessionRuntime} (h : s.Persistable)
    (stored : Except String Unit) (playlist : Playlist) :
    Kept codec ((s.putPlaylist stored playlist).session, (s.putPlaylist stored playlist).state) := by
  unfold putPlaylist
  dsimp only
  repeat' split
  all_goals first | exact refuse_spec codec h _ | skip
  next hsave =>
    exact ⟨⟨⟨h.valid, h.size, h.runtimes, save_valid hsave⟩, h.covers⟩, fun _ hb => by cases hb⟩

theorem importPlaylists_spec (codec : Codec) {s : SessionRuntime} (h : s.Persistable)
    (stored : Except String Unit) (legacy : List ImportPlaylist) :
    Kept codec ((s.importPlaylists stored legacy).session,
      (s.importPlaylists stored legacy).state) := by
  unfold importPlaylists
  dsimp only
  repeat' split
  all_goals first | exact refuse_spec codec h _ | skip
  next hsave =>
    exact ⟨⟨⟨h.valid, h.size, h.runtimes, save_valid hsave⟩, h.covers⟩, fun _ hb => by cases hb⟩

theorem removePlaylist_spec {codec : Codec} (hcodec : codec.RoundTrip) {s : SessionRuntime}
    (h : s.Persistable) (stored : Except String Unit) (id : String) :
    Kept codec ((s.removePlaylist codec stored id).session,
      (s.removePlaylist codec stored id).state) := by
  unfold removePlaylist
  dsimp only
  split
  next => exact refuse_spec codec h _
  next =>
    split
    next => exact refuse_spec codec h _
    next =>
      split
      next => exact refuse_spec codec h _
      next hsave =>
        have hruntimes : ∀ (id' : String) (r : PlaylistRuntime),
            (s.runtimes.erase id)[id']? = some r → r.Wf := fun id' r hr => by
          rw [ExtTreeMap.getElem?_erase] at hr
          split at hr
          next => cases hr
          next => exact h.runtimes id' r hr
        have hsize := Nat.le_trans (ExtTreeMap.size_erase_le (t := s.snapshots) (k := id)) h.size
        split
        next =>
          exact persistState_spec hcodec
            ⟨⟨h.valid.erase id, hsize, hruntimes, save_valid hsave⟩, fun _ ha => by cases ha⟩
        next hactive =>
          refine persistState_spec hcodec
            ⟨⟨h.valid.erase id, hsize, hruntimes, save_valid hsave⟩, fun id' ha => ?_⟩
          refine ExtTreeMap.mem_erase.mpr ⟨fun hcmp => ?_, h.covers id' ha⟩
          exact hactive (Std.LawfulEqCmp.eq_of_compare hcmp ▸ ha)

theorem Persistable.reanchor {s : SessionRuntime} (h : s.Persistable) (now : Nat)
    (frozen : Option PlaylistRuntimeSnapshot) : (s.reanchor now frozen).Persistable := by
  unfold SessionRuntime.reanchor
  split
  next id snapshot _ =>
    have hset : ∀ r : PlaylistRuntime, r.Wf → (s.setRuntime id r).Persistable :=
      fun r hr => ⟨h.toSettled.setRuntime id hr, h.covers⟩
    split
    next playlist r _ hr =>
      have hrestored : (r.restore snapshot playlist now).2.Wf :=
        PlaylistRuntime.wf_restore (h.runtimes id r hr)
      split
      next heq =>
        rw [heq] at hrestored
        exact hset _ hrestored
      next r' heq =>
        rw [heq] at hrestored
        have hticked : (r'.tick playlist now (s.unavailableFor playlist)).2.Wf :=
          PlaylistRuntime.wf_tick hrestored
        split
        next heq =>
          rw [heq] at hticked
          have hk := hset _ hticked
          exact ⟨⟨hk.valid, hk.size, hk.runtimes, hk.playlists⟩, hk.covers⟩
        next heq =>
          rw [heq] at hticked
          exact hset _ hticked
    next => exact h
  next => exact h

theorem debugClockSkip_spec (codec : Codec) {s : SessionRuntime} (h : s.Persistable)
    (elapsed ms : Nat) :
    Kept codec ((s.debugClockSkip elapsed ms).session, (s.debugClockSkip elapsed ms).state) := by
  unfold debugClockSkip
  dsimp only
  split
  next => exact refuse_spec codec h _
  next =>
    have hjumped : ({ s with
        clockOffsetMs := s.clockOffsetMs + ms
        clockSkippedMs := s.clockSkippedMs + ms } : SessionRuntime).Persistable :=
      ⟨⟨h.valid, h.size, h.runtimes, h.playlists⟩, h.covers⟩
    exact ⟨hjumped.reanchor _ _, fun _ hb => by cases hb⟩

/-! ## Activation -/

theorem unavailableFor_ok (s : SessionRuntime) {playlist : Playlist}
    (hp : playlist.validate = .ok ()) :
    validateUnavailable (s.unavailableFor playlist) = .ok () := by
  have hvalid := Playlist.valid_of_validate hp
  have hsub : ∀ id ∈ s.unavailableFor playlist, id ∈ playlist.entries := fun id hid => by
    unfold unavailableFor at hid
    rw [List.mem_dedup, List.mem_mergeSort] at hid
    exact List.mem_of_mem_filter hid
  have hlen : (s.unavailableFor playlist).length ≤ maxEntries := by
    refine Nat.le_trans ?_ hvalid.size
    unfold unavailableFor
    refine Nat.le_trans (List.dedup_sublist _).length_le ?_
    rw [List.length_mergeSort]
    exact List.length_filter_le _ _
  unfold validateUnavailable
  have hnames : (s.unavailableFor playlist).all boundedName = true :=
    List.all_eq_true.mpr fun id hid => hvalid.names id (hsub id hid)
  simp [hnames, hlen]

theorem select_lastNowMs (playlist : Playlist) (now : Nat) (unavailable : List String)
    (starting : Bool) (r : PlaylistRuntime) :
    (r.select playlist now unavailable starting).2.lastNowMs = r.lastNowMs := by
  unfold PlaylistRuntime.select
  split <;> rfl

theorem start_lastNowMs {playlist : Playlist} {unavailable : List String}
    (hp : playlist.validate = .ok ()) (hu : validateUnavailable unavailable = .ok ()) (now : Nat)
    (r : PlaylistRuntime) : (r.start playlist now unavailable).2.lastNowMs = some now := by
  unfold PlaylistRuntime.start
  rw [hp, hu]
  exact select_lastNowMs playlist now unavailable true _

theorem tick_lastNowMs {playlist : Playlist} {unavailable : List String} {now : Nat}
    {r : PlaylistRuntime} (hr : r.lastNowMs = some now) :
    (r.tick playlist now unavailable).2.lastNowMs = some now := by
  unfold PlaylistRuntime.tick
  repeat' split
  all_goals first | exact hr | skip
  next r' hobserved =>
    have hr' : r'.lastNowMs = some now := by
      unfold PlaylistRuntime.observe at hobserved
      split at hobserved
      next => cases hobserved
      next =>
        cases hobserved
        exact PlaylistRuntime.reconcileCurrent_lastNowMs playlist _
    show (r'.tickReconciled playlist now unavailable).2.lastNowMs = some now
    unfold PlaylistRuntime.tickReconciled
    repeat' split
    all_goals first | exact hr' | exact (select_lastNowMs _ _ _ _ _).trans hr'

theorem restore_lastNowMs {snapshot : PlaylistRuntimeSnapshot} {playlist : Playlist} {now : Nat}
    {r r' : PlaylistRuntime} (h : r.restore snapshot playlist now = (.ok (), r')) :
    r'.lastNowMs = some now := by
  unfold PlaylistRuntime.restore at h
  repeat' split at h
  all_goals first | cases h; done | skip
  cases h
  exact PlaylistRuntime.reconcileCurrent_lastNowMs playlist _

/-- A runtime that becomes active has observed the time of its activation. -/
theorem resumeOrStart_spec {s : SessionRuntime} (h : s.Settled) {playlist : Playlist}
    (hp : playlist.validate = .ok ()) {unavailable : List String}
    (hu : validateUnavailable unavailable = .ok ()) {id : String} (hroom : s.snapshots.Room id)
    (now : Nat) :
    (s.resumeOrStart playlist now unavailable id).2.Settled ∧
      (s.resumeOrStart playlist now unavailable id).2.snapshots.Room id ∧
      ((s.resumeOrStart playlist now unavailable id).2.runtimeOf id).lastNowMs = some now := by
  have hset : ∀ (s : SessionRuntime) (r : PlaylistRuntime), (s.setRuntime id r).runtimeOf id = r :=
    fun s r => by simp [setRuntime, SessionRuntime.runtimeOf]
  have hr := h.runtimeOf id
  unfold resumeOrStart
  dsimp only
  split
  next =>
    refine ⟨h.setRuntime id (PlaylistRuntime.wf_start hr), hroom, ?_⟩
    rw [hset]
    exact start_lastNowMs hp hu now _
  next snapshot hsnapshot =>
    have hrestored : ((s.runtimeOf id).restore snapshot playlist now).2.Wf :=
      PlaylistRuntime.wf_restore hr
    split
    next r' heq =>
      rw [heq] at hrestored
      refine ⟨h.setRuntime id (PlaylistRuntime.wf_tick hrestored), hroom, ?_⟩
      rw [hset]
      exact tick_lastNowMs (restore_lastNowMs heq)
    next r' heq =>
      rw [heq] at hrestored
      have hmem : id ∈ s.snapshots := ExtTreeMap.mem_iff_isSome_getElem?.mpr (by simp [hsnapshot])
      have hlt := size_erase_lt hmem
      have herased : ({ s with snapshots := s.snapshots.erase id } : SessionRuntime).Settled :=
        ⟨h.valid.erase id, Nat.le_trans (Nat.le_of_lt hlt) h.size, h.runtimes, h.playlists⟩
      refine ⟨herased.setRuntime id (PlaylistRuntime.wf_start hrestored),
        Or.inr (Nat.lt_of_lt_of_le hlt h.size), ?_⟩
      rw [hset]
      exact start_lastNowMs hp hu now _

theorem resetApply_persistable {s : SessionRuntime} (h : s.Persistable) :
    s.resetApply.Persistable :=
  ⟨⟨h.valid, h.size, h.runtimes, h.playlists⟩, h.covers⟩

/-- A playlist becomes active together with its snapshot. -/
theorem Settled.activate {s : SessionRuntime} (h : s.Settled) {id : String}
    (hroom : s.snapshots.Room id) {playlist : Playlist} (hp : playlist.validate = .ok ())
    {now : Nat} (hlast : (s.runtimeOf id).lastNowMs = some now) (decision : PlaylistDecision) :
    (SessionRuntime.keepSnapshot id ((s.runtimeOf id).snapshot playlist now).toOption
      { s with active := some id, lastDecision := some decision }).Persistable := by
  have hnow : (s.runtimeOf id).regressed now = false := by
    simp [PlaylistRuntime.regressed, hlast]
  obtain ⟨hsnapshot, hvalid⟩ := PlaylistRuntime.snapshot_ok (h.runtimeOf id) hp hnow
  rw [hsnapshot]
  refine ⟨⟨h.valid.insert hvalid, hroom.size_insert h.size _, h.runtimes, h.playlists⟩, ?_⟩
  intro id' hactive
  obtain rfl : id = id' := Option.some.inj hactive
  exact ExtTreeMap.mem_insert_self

/-- An activation adds a snapshot only where there is room for it. -/
theorem activatePlaylist_spec {codec : Codec} (hcodec : codec.RoundTrip) {s : SessionRuntime}
    (h : s.Persistable) (elapsed : Nat) (id : Option String)
    (hroom : ∀ name playlist, id = some name → s.storeError = none →
      s.find name = some playlist → s.active ≠ id → s.snapshots.Room name) :
    Kept codec ((s.activatePlaylist codec elapsed id).session,
      (s.activatePlaylist codec elapsed id).state) := by
  unfold activatePlaylist
  split
  next => exact refuse_spec codec h _
  next hstore =>
    split
    next =>
      exact persistState_spec hcodec
        ⟨⟨h.valid, h.size, h.runtimes, h.playlists⟩, fun _ hactive => by cases hactive⟩
    next name =>
      split
      next => exact refuse_spec codec h _
      next playlist hfind =>
        split
        next => exact ⟨h, fun _ hb => by cases hb⟩
        next hactive =>
          have hp := find_valid h.toSettled hfind
          obtain ⟨hsettled, hroom', hlast⟩ := resumeOrStart_spec
            (resetApply_persistable h).toSettled hp (s.resetApply.unavailableFor_ok hp)
            (hroom name playlist rfl hstore hfind hactive) (s.resetApply.nowMs elapsed)
          dsimp only
          generalize s.resetApply.resumeOrStart playlist (s.resetApply.nowMs elapsed)
            (s.resetApply.unavailableFor playlist) name = resumed at hsettled hroom' hlast ⊢
          obtain ⟨decision, s'⟩ := resumed
          exact persistState_spec hcodec (hsettled.activate hroom' hp hlast decision)

end SessionRuntime

/-! ## The daemon -/

theorem new_persistable (validIds : List String) (elapsed : Nat) (file : DefinitionsFile)
    {loaded : LoadedState} (hvalid : loaded.snapshots.Valid)
    (hsize : loaded.snapshots.size ≤ maxSnapshotEntries)
    (hcovers : loaded.snapshots.Covers loaded.active) :
    (SessionRuntime.new validIds elapsed (PlaylistStore.load file) loaded).Persistable := by
  have hactive : loaded.snapshots.Covers (loaded.active.filter fun id =>
      ((PlaylistStore.load file).toOption.getD []).any (·.id = id)) := fun id h =>
    hcovers id (Option.eq_some_of_filter_eq_some h)
  unfold SessionRuntime.new
  dsimp only
  generalize hs : SessionRuntime.mk _ _ _ _ _ _ _ _ _ _ _ _ = s
  have hpersistable : s.Persistable := by
    subst hs
    exact ⟨⟨hvalid, hsize, fun id r h => by simp at h, load_valid file⟩, hactive⟩
  have hset : ∀ (id : String) {r : PlaylistRuntime}, r.Wf → (s.setRuntime id r).Persistable :=
    fun id r hr => ⟨hpersistable.toSettled.setRuntime id hr, hpersistable.covers⟩
  have hr := hpersistable.toSettled.runtimeOf
  split
  next => exact hpersistable
  next id _ =>
    split
    next => exact hpersistable
    next =>
      split
      next => exact hset id (hr id)
      next => exact hset id (PlaylistRuntime.wf_restore (hr id))

/-- What a stopped daemon left loads back as a session may start from it. -/
def World.FileKept (codec : Codec) (w : World) : Prop :=
  ∀ bytes, w.stateFile = some bytes →
    (loadRuntimeState codec (some bytes) none).snapshots.Covers
      (loadRuntimeState codec (some bytes) none).active

structure World.Kept (codec : Codec) (w : World) : Prop where
  session : w.session.Persistable
  file : w.FileKept codec

theorem World.FileKept.loaded {codec : Codec} {w : World} (h : w.FileKept codec)
    (fault : Option ReadFault) :
    (loadRuntimeState codec w.stateFile fault).snapshots.Covers
      (loadRuntimeState codec w.stateFile fault).active := by
  have hempty : ∀ quarantined, (LoadedState.empty quarantined).snapshots.Covers
      (LoadedState.empty quarantined).active := fun _ _ hactive => by cases hactive
  cases fault with
  | some fault =>
    obtain ⟨quarantined, hq⟩ := loaded_fault codec w.stateFile fault
    rw [hq]
    exact hempty quarantined
  | none =>
    cases hfile : w.stateFile with
    | none => exact hempty false
    | some bytes => exact h bytes hfile

/-- A step that adds a snapshot finds room for it: an activation of a playlist
that has none in memory finds fewer than 256 of them. -/
def World.FindsRoom (w : World) (e : Event) : Prop :=
  match e.input with
  | .activate (some id) =>
    w.running = true → w.session.storeError = none → (w.session.find id).isSome →
      w.session.active ≠ some id → w.session.snapshots.Room id
  | _ => True

/-- The runtime state that the step writes is accepted by the next start, and
is what the session holds. -/
def World.KeepsState (codec : Codec) (w : World) (e : Event) : Prop :=
  (w.handle codec e).session.Reads codec (w.handle codec e).state

theorem handle_kept {codec : Codec} (hcodec : codec.RoundTrip) {w : World}
    (h : w.session.Persistable) {e : Event} (hroom : w.FindsRoom e) :
    SessionRuntime.Kept codec ((w.handle codec e).session, (w.handle codec e).state) := by
  have hidle : ∀ s : SessionRuntime, s.Persistable → SessionRuntime.Kept codec (s, none) :=
    fun s hs => ⟨hs, fun _ hb => by cases hb⟩
  unfold World.handle
  split
  next hrunning =>
    obtain ⟨input, elapsed, stored, written⟩ := e
    cases input with
    | put playlist => exact SessionRuntime.putPlaylist_spec codec h stored playlist
    | remove id => exact SessionRuntime.removePlaylist_spec hcodec h stored id
    | activate id =>
      refine SessionRuntime.activatePlaylist_spec hcodec h elapsed id ?_
      rintro name playlist rfl hstore hfind hactive
      exact hroom hrunning hstore (by simp [hfind]) hactive
    | importPlaylists legacy => exact SessionRuntime.importPlaylists_spec codec h stored legacy
    | debugClockSkip ms => exact SessionRuntime.debugClockSkip_spec codec h elapsed ms
    | availability validIds =>
      exact hidle _ ⟨⟨h.valid, h.size, h.runtimes, h.playlists⟩, h.covers⟩
    | tick quarantined refused =>
      exact SessionRuntime.tickSession_spec hcodec h elapsed quarantined refused
    | shutdown => exact SessionRuntime.shutdown_spec hcodec h elapsed
    | start validIds fault => exact hidle _ h
    | definitions file => exact hidle _ h
  next => exact hidle _ h

theorem absorb_kept {codec : Codec} {w : World} (h : w.Kept codec) (e : Event)
    {handled : Handled} (hkept : SessionRuntime.Kept codec (handled.session, handled.state)) :
    (w.absorb e handled).Kept codec := by
  refine ⟨hkept.1, fun bytes hb => ?_⟩
  have hnew : ∀ b, handled.state = some b → (loadRuntimeState codec (some b) none).snapshots.Covers
      (loadRuntimeState codec (some b) none).active := fun b hstate => by
    rw [hkept.2 b hstate]
    exact hkept.1.covers
  unfold World.absorb at hb
  dsimp only at hb
  split at hb
  next =>
    rcases Option.or_eq_some_iff.mp hb with hstate | ⟨-, hold⟩
    · exact hnew bytes hstate
    · exact h.file bytes hold
  next => exact h.file bytes hb

/-- **One step.**  A step that finds room for its snapshot keeps the session
and the file it may start from. -/
theorem step_kept {codec : Codec} (hcodec : codec.RoundTrip) {w : World} (h : w.Kept codec)
    {e : Event} (hroom : w.FindsRoom e) : (w.step codec e).Kept codec := by
  have habsorb := absorb_kept h e (handle_kept hcodec h.session hroom)
  unfold World.step
  split
  next validIds fault _ =>
    obtain ⟨hvalid, hsize⟩ := loaded_valid codec w.stateFile fault
    refine ⟨new_persistable validIds e.elapsed w.definitions hvalid hsize (h.file.loaded fault),
      fun bytes hb => ?_⟩
    unfold World.start at hb
    dsimp only at hb
    split at hb
    next => cases hb
    next => exact h.file bytes hb
  next file _ => exact ⟨h.session, h.file⟩
  next => exact habsorb

theorem kept_fresh (codec : Codec) (definitions : DefinitionsFile) :
    (World.fresh definitions).Kept codec := by
  obtain ⟨hvalid, hsize⟩ := loaded_valid codec none none
  exact ⟨new_persistable [] 0 none hvalid hsize fun _ h => (by cases h),
    fun _ hb => by cases hb⟩

/-- **The state file.**  From a first start, every runtime-state file that the
session writes is accepted by the next start and holds the active playlist and
the snapshots of the session, as long as no playlist without a snapshot is
activated while 256 snapshots are held. -/
theorem reached_accepted (codec : Codec) (hcodec : codec.RoundTrip) (definitions : DefinitionsFile)
    (events : List Event)
    (hroom : Runs.Along (World.step codec) World.FindsRoom (World.fresh definitions) events) :
    Runs.Along (World.step codec) (World.KeepsState codec) (World.fresh definitions) events :=
  Runs.along_of_invariant (I := World.Kept codec)
    (fun _ _ h hr => step_kept hcodec h hr)
    (fun _ _ h hr => (handle_kept hcodec h.session hr).2)
    (kept_fresh codec definitions) hroom

/-- The next start reads the state file back instead of setting it aside. -/
def World.FileAccepted (codec : Codec) (w : World) : Prop :=
  ∀ bytes, w.stateFile = some bytes → (loadRuntimeState codec (some bytes) none).quarantined = false

theorem accepted_step {codec : Codec} {w : World} (h : w.FileAccepted codec) {e : Event}
    (hkeeps : w.KeepsState codec e) : (w.step codec e).FileAccepted codec := by
  have habsorb : (w.absorb e (w.handle codec e)).FileAccepted codec := by
    intro bytes hb
    unfold World.absorb at hb
    dsimp only at hb
    split at hb
    next =>
      rcases Option.or_eq_some_iff.mp hb with hstate | ⟨-, hold⟩
      · rw [hkeeps bytes hstate]
      · exact h bytes hold
    next => exact h bytes hb
  unfold World.step
  split
  next validIds fault _ =>
    intro bytes hb
    unfold World.start at hb
    dsimp only at hb
    split at hb
    next => cases hb
    next => exact h bytes hb
  next => exact h
  next => exact habsorb

/-- A run that writes only what loads back leaves a file that the next start
accepts. -/
theorem reached_fileAccepted {codec : Codec} {definitions : DefinitionsFile} {events : List Event}
    (h : Runs.Along (World.step codec) (World.KeepsState codec) (World.fresh definitions) events) :
    (Runs.run (World.step codec) (World.fresh definitions) events).FileAccepted codec :=
  Runs.invariant_run (I := World.FileAccepted codec) (fun _ _ hw hk => accepted_step hw hk)
    (fun _ hb => by cases hb) h

/-- An empty playlist of its own for each number. -/
def Playlist.numbered (n : Nat) : Playlist where
  id := Nat.repr n
  title := "numbered"
  entries := []
  shuffle := false
  repeat_ := true
  durationSeconds := 300
  transition := .none
  transitionSeconds := 0

/-- An input at time 0, with both files writable. -/
def Event.of (input : Input) : Event := ⟨input, 0, .ok (), true⟩

theorem reached_accepted_oneActivation :
    Runs.Along (World.step serdeCodec) (World.KeepsState serdeCodec) (World.fresh none)
      [.of (.start [] none), .of (.put (.numbered 0)), .of (.activate (some "0")),
        .of (.tick none none), .of .shutdown, .of (.start [] none)] := by
  refine reached_accepted serdeCodec serdeCodec_roundTrip none _
    ⟨trivial, trivial, ?_, trivial, trivial, trivial, trivial⟩
  intro _ _ _ _
  exact Or.inr (by decide +kernel)

/-! ## 257 snapshots -/

/-- The snapshot of a numbered playlist; it has no entry to play. -/
def blankSnapshot (n : Nat) : PlaylistRuntimeSnapshot where
  schemaVersion := snapshotSchemaVersion
  playlistId := Nat.repr n
  seed := 0
  currentIndex := none
  currentWallpaperId := none
  remainingMs := none
  pausedRemainingMs := none
  history := []

/-- The numbers of at most three digits. -/
theorem length_repr_le {n : Nat} (h : n < 257) : (Nat.repr n).length ≤ 3 :=
  (Nat.length_repr_le_iff (by decide)).mpr (by omega)

theorem numbered_valid {n : Nat} (h : n < 257) : (Playlist.numbered n).validate = .ok () := by
  have hsize := size_le_of_length_le (length_repr_le h)
  have hpos : Nat.repr n ≠ "" := fun heq => by
    have := Nat.length_repr_pos (n := n)
    rw [heq] at this
    exact absurd this (by decide)
  have hid : boundedName (Nat.repr n) = true := by
    rw [boundedName, Bool.and_eq_true, decide_eq_true_eq]
    exact ⟨by simp [hpos], by omega⟩
  have htitle : isWhiteSpace 'n' = false := by decide
  simp [Playlist.validate, Playlist.numbered, hid, htitle, minDurationSeconds, maxDurationSeconds]

theorem length_blankText_le {n : Nat} (h : n < 257) :
    (entryText.write (Nat.repr n, blankSnapshot n)).length ≤ 400 := by
  have hid := Format.length_quoted_le (Nat.repr n)
  have hlen := length_repr_le h
  have htext := length_entryText (Nat.repr n) (blankSnapshot n)
  have hempty : (entryText.write
      ("", { blankSnapshot n with playlistId := "" })).length ≤ 300 := by
    show (entryText.write ("", { blankSnapshot 0 with playlistId := "" })).length ≤ 300
    decide +kernel
  simp only [blankSnapshot] at htext hempty ⊢
  omega

theorem repr_inj {m n : Nat} (h : Nat.repr m = Nat.repr n) : m = n := by
  have hdigits : Nat.toDigits 10 m = Nat.toDigits 10 n := by
    simpa [Nat.repr] using congrArg String.toList h
  rw [← Nat.ofDigitChars_ten_toDigits (n := m), hdigits, Nat.ofDigitChars_ten_toDigits]

/-- The session has numbered playlists, all below `k`. -/
def SessionRuntime.Listed (k : Nat) (s : SessionRuntime) : Prop :=
  ∃ l : List Nat, s.playlists = l.map .numbered ∧ l.Nodup ∧ ∀ n ∈ l, n < k

/-- It holds the blank snapshots of the numbers below `k`. -/
structure SessionRuntime.Numbered (k : Nat) (s : SessionRuntime) : Prop where
  store : s.storeError = none
  snapshots : ∀ (id : String) (x : PlaylistRuntimeSnapshot), s.snapshots[id]? = some x →
    ∃ n < k, id = Nat.repr n ∧ x = blankSnapshot n
  size : s.snapshots.size = k
  runtimes : ∀ id ∈ s.runtimes, ∃ n < k, id = Nat.repr n
  active : ∀ id, s.active = some id → ∃ n < k, id = Nat.repr n

theorem checkIds_ok {playlists : List Playlist} (hvalid : ∀ p ∈ playlists, p.validate = .ok ())
    (hnodup : (playlists.map (·.id)).Nodup) {ids : List String}
    (hids : ∀ p ∈ playlists, p.id ∉ ids) : PlaylistStore.checkIds ids playlists = .ok () := by
  induction playlists generalizing ids with
  | nil => rfl
  | cons p ps ih =>
    rw [List.map_cons, List.nodup_cons] at hnodup
    unfold PlaylistStore.checkIds
    rw [hvalid p List.mem_cons_self]
    have hp : ids.contains p.id = false := by simpa using hids p List.mem_cons_self
    simp only [hp, Bool.false_eq_true, if_false]
    refine ih (fun q hq => hvalid q (List.mem_cons_of_mem p hq)) hnodup.2 fun q hq => ?_
    intro hmem
    rcases List.mem_cons.mp hmem with heq | hmem
    · exact hnodup.1 (heq ▸ List.mem_map_of_mem hq)
    · exact hids q (List.mem_cons_of_mem p hq) hmem

theorem SessionRuntime.Listed.append {k : Nat} {s : SessionRuntime} (h : s.Listed k) :
    SessionRuntime.Listed (k + 1) { s with playlists := s.playlists ++ [.numbered k] } := by
  obtain ⟨l, hl, hnodup, hlt⟩ := h
  refine ⟨l ++ [k], ?_, ?_, fun n hn => ?_⟩
  · show s.playlists ++ [.numbered k] = _
    rw [hl, List.map_append]
    rfl
  · refine List.Nodup.append hnodup (List.nodup_singleton k) fun n hn hk => ?_
    exact absurd (List.mem_singleton.mp hk) (Nat.ne_of_lt (hlt n hn))
  · rcases List.mem_append.mp hn with hn | hn
    · exact Nat.lt_succ_of_lt (hlt n hn)
    · rw [List.mem_singleton.mp hn]
      exact Nat.lt_succ_self k

theorem SessionRuntime.Listed.fresh {k : Nat} {s : SessionRuntime} (h : s.Listed k) :
    ∀ p ∈ s.playlists, p.id ≠ (Playlist.numbered k).id := by
  obtain ⟨l, hl, -, hlt⟩ := h
  intro p hp heq
  rw [hl] at hp
  obtain ⟨n, hn, rfl⟩ := List.mem_map.mp hp
  exact absurd (repr_inj heq) (Nat.ne_of_lt (hlt n hn))

theorem SessionRuntime.Listed.check {k : Nat} (hk : k ≤ 257) {s : SessionRuntime} (h : s.Listed k)
    (hcount : s.playlists.length ≤ maxPlaylists) : PlaylistStore.check s.playlists = .ok () := by
  obtain ⟨l, hl, hnodup, hlt⟩ := h
  unfold PlaylistStore.check
  rw [if_neg (Nat.not_lt.mpr hcount), hl]
  refine checkIds_ok (fun p hp => ?_) ?_ fun _ _ => List.not_mem_nil
  · obtain ⟨n, hn, rfl⟩ := List.mem_map.mp hp
    exact numbered_valid (Nat.lt_of_lt_of_le (hlt n hn) hk)
  · rw [List.map_map]
    exact hnodup.map fun m n heq => repr_inj heq

/-- Putting the next numbered playlist appends it. -/
theorem put_numbered {k : Nat} (hk : k < 257) {s : SessionRuntime} (hstore : s.storeError = none)
    (h : s.Listed k) (hcount : s.playlists.length < maxPlaylists) :
    (s.putPlaylist (.ok ()) (.numbered k)).session =
      { s with playlists := s.playlists ++ [.numbered k] } := by
  have hfilter : s.playlists.filter (·.id ≠ (Playlist.numbered k).id) = s.playlists :=
    List.filter_eq_self.mpr fun p hp => decide_eq_true (h.fresh p hp)
  have hcheck : PlaylistStore.check (s.playlists ++ [.numbered k]) = .ok () :=
    h.append.check (Nat.succ_le_of_lt hk) (by
      show (s.playlists ++ [Playlist.numbered k]).length ≤ _
      rw [List.length_append, List.length_singleton]
      omega)
  unfold SessionRuntime.putPlaylist PlaylistStore.save
  rw [hstore, numbered_valid hk]
  dsimp only
  rw [hfilter, hcheck]

theorem start_numbered {k : Nat} (hk : k < 257) {unavailable : List String}
    (hu : validateUnavailable unavailable = .ok ()) (now : Nat) :
    (PlaylistRuntime.new 0).start (.numbered k) now unavailable =
      (.ok .noEligible, { PlaylistRuntime.new 0 with lastNowMs := some now }) := by
  unfold PlaylistRuntime.start
  rw [numbered_valid hk, hu]
  rfl

theorem snapshot_numbered {k : Nat} (hk : k < 257) (now : Nat) :
    ({ PlaylistRuntime.new 0 with lastNowMs := some now } : PlaylistRuntime).snapshot
      (.numbered k) now = .ok (blankSnapshot k) ∧ (blankSnapshot k).validate = .ok () := by
  have hwf : ({ PlaylistRuntime.new 0 with lastNowMs := some now } : PlaylistRuntime).Wf := by
    constructor <;> simp [PlaylistRuntime.new, PlaylistRuntime.Positioned]
  exact PlaylistRuntime.snapshot_ok hwf (numbered_valid hk) (by simp [PlaylistRuntime.regressed])

theorem SessionRuntime.Numbered.valid {k : Nat} (hk : k ≤ 257) {s : SessionRuntime}
    (h : s.Numbered k) : s.snapshots.Valid := by
  intro id x hx
  obtain ⟨n, hn, -, rfl⟩ := h.snapshots id x hx
  exact (snapshot_numbered (Nat.lt_of_lt_of_le hn hk) 0).2

/-- The file of up to 257 blank snapshots is small. -/
theorem SessionRuntime.Numbered.size_encodeState {k : Nat} (hk : k ≤ 257) {s : SessionRuntime}
    (h : s.Numbered k) : (s.encodeState serdeCodec).size ≤ maxRuntimeStateBytes := by
  have hactive : (optionalText.write s.active).length ≤ 30 := by
    cases ha : s.active with
    | none => decide
    | some id =>
      obtain ⟨n, hn, rfl⟩ := h.active id ha
      have hid := Format.length_quoted_le (Nat.repr n)
      have hlen := length_repr_le (Nat.lt_of_lt_of_le hn hk)
      show (Format.quoted.write (Nat.repr n) ++ [',']).length ≤ 30
      rw [List.length_append, List.length_singleton]
      omega
  have hentries : ∀ entry ∈ s.snapshots.toList, (entryText.write entry).length ≤ 400 := by
    rintro ⟨id, x⟩ hentry
    obtain ⟨n, hn, rfl, rfl⟩ := h.snapshots id x
      (ExtTreeMap.mem_toList_iff_getElem?_eq_some.mp hentry)
    exact length_blankText_le (Nat.lt_of_lt_of_le hn hk)
  have hsize : (s.encodeState serdeCodec).size ≤ 4 * (100 + 30 + s.snapshots.size * (6 + 400)) :=
    size_serdeCodec_le hactive rfl hentries
  rw [h.size] at hsize
  unfold maxRuntimeStateBytes
  omega

theorem SessionRuntime.Numbered.persistState {k : Nat} (hk : k ≤ 257) {s : SessionRuntime}
    (h : s.Numbered k) : s.persistState serdeCodec = (s, some (s.encodeState serdeCodec)) := by
  have hsmall := Nat.not_lt.mpr (h.size_encodeState hk)
  have hevict : s.evict serdeCodec = s := by rw [SessionRuntime.evict, if_neg hsmall]
  unfold SessionRuntime.persistState
  rw [hevict]
  exact if_neg hsmall

theorem SessionRuntime.Numbered.absent {k : Nat} {s : SessionRuntime} (h : s.Numbered k) :
    s.snapshots[Nat.repr k]? = none ∧ s.runtimeOf (Nat.repr k) = .new 0 ∧
      s.active ≠ some (Nat.repr k) := by
  have hne : ∀ n < k, Nat.repr k ≠ Nat.repr n := fun n hn heq =>
    absurd (repr_inj heq) (Nat.ne_of_gt hn)
  refine ⟨?_, ?_, fun ha => ?_⟩
  · cases hx : s.snapshots[Nat.repr k]? with
    | none => rfl
    | some x =>
      obtain ⟨n, hn, heq, -⟩ := h.snapshots _ x hx
      exact absurd heq (hne n hn)
  · have hr : Nat.repr k ∉ s.runtimes := fun hmem => by
      obtain ⟨n, hn, heq⟩ := h.runtimes _ hmem
      exact hne n hn heq
    exact ExtTreeMap.getD_eq_fallback hr
  · obtain ⟨n, hn, heq⟩ := h.active _ ha
    exact hne n hn heq

/-- Activating a numbered playlist for the first time finds no entry to play. -/
theorem resumeOrStart_numbered {k : Nat} (hk : k < 257) {s : SessionRuntime}
    (habsent : s.snapshots[Nat.repr k]? = none) (hruntime : s.runtimeOf (Nat.repr k) = .new 0)
    (now : Nat) :
    s.resumeOrStart (.numbered k) now (s.unavailableFor (.numbered k)) (Nat.repr k) =
      (.noEligible, s.setRuntime (Nat.repr k)
        { PlaylistRuntime.new 0 with lastNowMs := some now }) := by
  unfold SessionRuntime.resumeOrStart
  rw [habsent, hruntime]
  dsimp only
  rw [start_numbered hk (s.unavailableFor_ok (numbered_valid hk))]

theorem SessionRuntime.Listed.find {k : Nat} {s : SessionRuntime} (h : s.Listed k) :
    SessionRuntime.find { s with playlists := s.playlists ++ [.numbered k] } (Nat.repr k) =
      some (.numbered k) := by
  have hnone : s.playlists.find? (·.id = Nat.repr k) = none :=
    List.find?_eq_none.mpr fun p hp hid => h.fresh p hp (of_decide_eq_true hid)
  show List.find? (fun p : Playlist => decide (p.id = Nat.repr k))
    (s.playlists ++ [Playlist.numbered k]) = _
  rw [List.find?_append, hnone]
  simp [Playlist.numbered]

/-- What an activation that is not refused does. -/
theorem activatePlaylist_eq (codec : Codec) {s : SessionRuntime} {id : String}
    {playlist : Playlist} (hstore : s.storeError = none) (hfind : s.find id = some playlist)
    (hactive : s.active ≠ some id) {now : Nat} (hnow : now = s.nowMs 0)
    {decision : PlaylistDecision} {t : SessionRuntime}
    (hresumed : s.resetApply.resumeOrStart playlist now (s.resetApply.unavailableFor playlist) id =
      (decision, t)) :
    (s.activatePlaylist codec 0 (some id)).handled.session = (SessionRuntime.persistState codec
        (SessionRuntime.keepSnapshot id ((t.runtimeOf id).snapshot playlist now).toOption
          { t with active := some id, lastDecision := some decision })).1 ∧
      (s.activatePlaylist codec 0 (some id)).handled.state = (SessionRuntime.persistState codec
        (SessionRuntime.keepSnapshot id ((t.runtimeOf id).snapshot playlist now).toOption
          { t with active := some id, lastDecision := some decision })).2 := by
  subst hnow
  have hreset : s.resetApply.nowMs 0 = s.nowMs 0 := rfl
  unfold SessionRuntime.activatePlaylist
  rw [hstore]
  dsimp only
  rw [hfind]
  dsimp only
  rw [if_neg hactive, hreset, hresumed]
  exact ⟨rfl, rfl⟩

/-- Activating the next numbered playlist adds its snapshot, and writes a file
of all of them. -/
theorem activate_numbered {k : Nat} (hk : k < 257) {s : SessionRuntime} (h : s.Numbered k)
    (hfind : s.find (Nat.repr k) = some (.numbered k)) :
    ∃ t : SessionRuntime, t.Numbered (k + 1) ∧ t.playlists = s.playlists ∧
      (s.activatePlaylist serdeCodec 0 (some (Nat.repr k))).handled.session = t ∧
      (s.activatePlaylist serdeCodec 0 (some (Nat.repr k))).handled.state =
        some (t.encodeState serdeCodec) := by
  obtain ⟨habsent, hruntime, hactive⟩ := h.absent
  obtain ⟨hsnapshot, -⟩ := snapshot_numbered hk (s.nowMs 0)
  have hresumed := resumeOrStart_numbered (s := s.resetApply) hk habsent hruntime (s.nowMs 0)
  obtain ⟨hsession, hstate⟩ :=
    activatePlaylist_eq serdeCodec h.store hfind hactive rfl hresumed
  have hof : (s.resetApply.setRuntime (Nat.repr k)
      { PlaylistRuntime.new 0 with lastNowMs := some (s.nowMs 0) }).runtimeOf (Nat.repr k) =
      { PlaylistRuntime.new 0 with lastNowMs := some (s.nowMs 0) } := by
    simp [SessionRuntime.setRuntime, SessionRuntime.runtimeOf]
  rw [hof, hsnapshot] at hsession hstate
  generalize ht : SessionRuntime.keepSnapshot (Nat.repr k) (Except.ok (blankSnapshot k)).toOption
    { s.resetApply.setRuntime (Nat.repr k)
        { PlaylistRuntime.new 0 with lastNowMs := some (s.nowMs 0) } with
      active := some (Nat.repr k)
      lastDecision := some .noEligible } = t at hsession hstate
  have hnumbered : t.Numbered (k + 1) := by
    subst ht
    refine ⟨h.store, fun id x hx => ?_, ?_, fun id hid => ?_, ?_⟩
    · replace hx := ExtTreeMap.getElem?_insert.symm.trans hx
      split at hx
      next heq =>
        exact ⟨k, Nat.lt_succ_self k, (Std.LawfulEqCmp.eq_of_compare heq).symm,
          (Option.some.inj hx).symm⟩
      next =>
        obtain ⟨n, hn, hid, hblank⟩ := h.snapshots id x hx
        exact ⟨n, Nat.lt_succ_of_lt hn, hid, hblank⟩
    · show (s.snapshots.insert (Nat.repr k) (blankSnapshot k)).size = k + 1
      rw [ExtTreeMap.size_insert, ExtTreeMap.contains_eq_isSome_getElem?, habsent, h.size]
      rfl
    · rcases ExtTreeMap.mem_insert.mp hid with heq | hid
      · exact ⟨k, Nat.lt_succ_self k, (Std.LawfulEqCmp.eq_of_compare heq).symm⟩
      · obtain ⟨n, hn, heq⟩ := h.runtimes id hid
        exact ⟨n, Nat.lt_succ_of_lt hn, heq⟩
    · rintro id ⟨⟩
      exact ⟨k, Nat.lt_succ_self k, rfl⟩
  rw [hnumbered.persistState (Nat.succ_le_of_lt hk)] at hsession hstate
  refine ⟨t, hnumbered, ?_, hsession, hstate⟩
  subst ht
  rfl

/-- Puts and activates the numbered playlist `n`. -/
def putAndActivate (n : Nat) : List Event :=
  [.of (.put (.numbered n)), .of (.activate (some (Nat.repr n)))]

/-- A running daemon that put and activated the playlists below `k`, some of
them since it started. -/
structure World.Numbered (k : Nat) (w : World) : Prop where
  running : w.running = true
  session : w.session.Numbered k
  listed : w.session.Listed k

theorem putAndActivate_numbered {k : Nat} (hk : k < 257) {w : World} (h : w.Numbered k)
    (hcount : w.session.playlists.length < maxPlaylists) :
    (Runs.run (World.step serdeCodec) w (putAndActivate k)).Numbered (k + 1) ∧
      (Runs.run (World.step serdeCodec) w (putAndActivate k)).session.playlists.length =
        w.session.playlists.length + 1 ∧
      (Runs.run (World.step serdeCodec) w (putAndActivate k)).stateFile = some
        ((Runs.run (World.step serdeCodec) w (putAndActivate k)).session.encodeState
          serdeCodec) := by
  have hput : (w.step serdeCodec (.of (.put (.numbered k)))).session =
      { w.session with playlists := w.session.playlists ++ [.numbered k] } := by
    show (w.handle serdeCodec _).session = _
    rw [World.handle, if_pos h.running]
    exact put_numbered hk h.session.store h.listed hcount
  have hrunning : (w.step serdeCodec (.of (.put (.numbered k)))).running = true := by
    show (w.running && true) = true
    rw [h.running]
    rfl
  unfold putAndActivate
  rw [Runs.run_cons, Runs.run_cons, Runs.run_nil]
  generalize w.step serdeCodec (.of (.put (.numbered k))) = w' at hput hrunning ⊢
  have hnumbered : w'.session.Numbered k := by
    rw [hput]
    exact ⟨h.session.store, h.session.snapshots, h.session.size, h.session.runtimes,
      h.session.active⟩
  obtain ⟨t, ht, hplaylists, hsession, hstate⟩ :=
    activate_numbered hk hnumbered (by rw [hput]; exact h.listed.find)
  have hhandle : w'.handle serdeCodec (.of (.activate (some (Nat.repr k)))) =
      (w'.session.activatePlaylist serdeCodec 0 (some (Nat.repr k))).handled := by
    rw [World.handle, if_pos hrunning]
    rfl
  have hlast : (w'.step serdeCodec (.of (.activate (some (Nat.repr k))))).session = t := by
    show (w'.handle serdeCodec _).session = t
    rw [hhandle, hsession]
  have hlisted : t.Listed (k + 1) := by
    obtain ⟨l, hl, hnodup, hlt⟩ := h.listed.append
    exact ⟨l, hplaylists.trans (by rw [hput]; exact hl), hnodup, hlt⟩
  refine ⟨⟨?_, hlast ▸ ht, hlast ▸ hlisted⟩, ?_, ?_⟩
  · show (w'.running && true) = true
    rw [hrunning]
    rfl
  · rw [hlast, hplaylists, hput, List.length_append]
    rfl
  · rw [hlast]
    show (w'.handle serdeCodec _).state.or w'.stateFile = _
    rw [hhandle, hstate]
    rfl

/-- The playlists below `n` put and activated one by one. -/
theorem putAndActivateAll_numbered {w : World} (h : w.Numbered 0)
    (hnone : w.session.playlists = []) {n : Nat} (hn : n ≤ maxPlaylists) :
    (Runs.run (World.step serdeCodec) w ((List.range n).flatMap putAndActivate)).Numbered n ∧
      (Runs.run (World.step serdeCodec) w
        ((List.range n).flatMap putAndActivate)).session.playlists.length = n ∧
      (0 < n → (Runs.run (World.step serdeCodec) w
          ((List.range n).flatMap putAndActivate)).stateFile = some
        ((Runs.run (World.step serdeCodec) w
          ((List.range n).flatMap putAndActivate)).session.encodeState serdeCodec)) := by
  induction n with
  | zero => exact ⟨h, congrArg List.length hnone, fun h0 => absurd h0 (Nat.lt_irrefl 0)⟩
  | succ n ih =>
    have hlt : n < 257 := Nat.lt_of_lt_of_le (Nat.lt_of_succ_le hn) (by decide)
    obtain ⟨hnumbered, hcount, -⟩ := ih (Nat.le_of_succ_le hn)
    rw [List.range_succ, List.flatMap_append, Runs.run_append, List.flatMap_singleton]
    obtain ⟨hnext, hlen, hfile⟩ := putAndActivate_numbered hlt hnumbered (by omega)
    exact ⟨hnext, by omega, fun _ => hfile⟩

/-- The definitions file is removed and the daemon restarts. -/
def loseDefinitions : List Event := [.of (.definitions none), .of (.start [] none)]

/-- The snapshots outlive the definitions. -/
theorem loseDefinitions_numbered {k : Nat} (hmax : k ≤ maxSnapshotEntries) {w : World}
    (h : w.Numbered k) (hfile : w.stateFile = some (w.session.encodeState serdeCodec)) :
    (Runs.run (World.step serdeCodec) w loseDefinitions).Numbered k ∧
      (Runs.run (World.step serdeCodec) w loseDefinitions).session.playlists = [] := by
  have hk' : k ≤ 257 := Nat.le_trans hmax (by decide)
  have hload : loadRuntimeState serdeCodec w.stateFile none =
      ⟨w.session.active, w.session.snapshots, false⟩ := by
    rw [hfile]
    exact load_encodeState serdeCodec_roundTrip (h.session.valid hk') (h.session.size ▸ hmax)
      (h.session.size_encodeState hk')
  have hstart : Runs.run (World.step serdeCodec) w loseDefinitions =
      World.start serdeCodec [] none 0 { w with definitions := none } := rfl
  have hactive : (w.session.active.filter fun id =>
      (([] : List Playlist).any (·.id = id))) = none := by
    cases w.session.active <;> rfl
  have hsession : (Runs.run (World.step serdeCodec) w loseDefinitions).session =
      { SessionRuntime.new [] 0 (.ok []) (.empty false) with
        snapshots := w.session.snapshots } := by
    rw [hstart]
    show SessionRuntime.new [] 0 (.ok []) (loadRuntimeState serdeCodec w.stateFile none) = _
    rw [hload]
    unfold SessionRuntime.new
    dsimp only [Except.toOption, Option.getD]
    rw [hactive]
    rfl
  refine ⟨⟨rfl, ?_, ?_⟩, ?_⟩
  · rw [hsession]
    exact ⟨rfl, h.session.snapshots, h.session.size, fun _ hid => absurd hid ExtTreeMap.not_mem_empty,
      fun _ ha => by cases ha⟩
  · rw [hsession]
    exact ⟨[], rfl, List.nodup_nil, fun _ hn => absurd hn List.not_mem_nil⟩
  · rw [hsession]
    rfl

/-- The daemon's first start, 256 playlists put and activated, the definitions
lost, and one more playlist. -/
def overfill : List Event :=
  .of (.start [] none) :: (List.range maxPlaylists).flatMap putAndActivate ++ loseDefinitions ++
    putAndActivate maxPlaylists

theorem start_numbered_zero :
    (World.step serdeCodec (World.fresh none) (.of (.start [] none))).Numbered 0 ∧
      (World.step serdeCodec (World.fresh none) (.of (.start [] none))).session.playlists = [] := by
  refine ⟨⟨rfl, ⟨rfl, fun id x hx => ?_, rfl, fun _ hid => absurd hid ExtTreeMap.not_mem_empty,
    fun _ ha => by cases ha⟩, ⟨[], rfl, List.nodup_nil, fun _ hn => absurd hn List.not_mem_nil⟩⟩, rfl⟩
  cases (ExtTreeMap.getElem?_empty (a := id)).symm.trans hx

theorem overfill_numbered :
    (Runs.run (World.step serdeCodec) (World.fresh none) overfill).Numbered 257 ∧
      (Runs.run (World.step serdeCodec) (World.fresh none) overfill).stateFile = some
        ((Runs.run (World.step serdeCodec) (World.fresh none) overfill).session.encodeState
          serdeCodec) := by
  obtain ⟨hstart, hnone⟩ := start_numbered_zero
  obtain ⟨hfull, -, hfile⟩ := putAndActivateAll_numbered hstart hnone (Nat.le_refl maxPlaylists)
  obtain ⟨hlost, hempty⟩ := loseDefinitions_numbered (show maxPlaylists ≤ maxSnapshotEntries by
    decide) hfull (hfile (by decide))
  obtain ⟨hlast, -, hwritten⟩ := putAndActivate_numbered (show maxPlaylists < 257 by decide) hlost
    (by rw [hempty]; decide)
  unfold overfill
  rw [Runs.run_append, Runs.run_append, Runs.run_cons]
  exact ⟨hlast, hwritten⟩

/-- The reader's bound on the number of snapshots. -/
theorem load_numbered {s : SessionRuntime} (h : s.Numbered 257) :
    loadRuntimeState serdeCodec (some (s.encodeState serdeCodec)) none = .empty true := by
  have hdecode : serdeCodec.fromSlice (s.encodeState serdeCodec) = .ok s.persisted :=
    serdeCodec_roundTrip s.persisted ⟨rfl, h.valid (Nat.le_refl _)⟩
  unfold loadRuntimeState
  simp only [if_neg (Nat.not_lt.mpr (h.size_encodeState (Nat.le_refl _))), hdecode]
  simp [SessionRuntime.persisted, h.size, maxSnapshotEntries]

/-- The state file that the daemon leaves then holds 257 snapshots, and is set
aside by the next start. -/
theorem stateFile_rejected :
    ∃ bytes, (Runs.run (World.step serdeCodec) (World.fresh none) overfill).stateFile = some bytes ∧
      loadRuntimeState serdeCodec (some bytes) none = .empty true ∧
      ¬ Runs.Along (World.step serdeCodec) (World.KeepsState serdeCodec) (World.fresh none)
        overfill := by
  obtain ⟨hnumbered, hfile⟩ := overfill_numbered
  have hload := load_numbered hnumbered.session
  refine ⟨_, hfile, hload, fun hkeeps => ?_⟩
  have haccepted := reached_fileAccepted hkeeps _ hfile
  rw [hload] at haccepted
  cases haccepted

end Kwe.Playlists
