import Kwe.Playlists.ApplyWorker
import Kwe.Playlists.Persistence

/-!
The messages between the playlist session and its apply worker:

* `step_lane`: what a step of either does to the queues is one of seven moves;
* `Lane.Sound`: at most one request is outstanding, and what was dispatched is
  what was folded followed by what is outstanding;
* `folded_of_served`: a worker that takes and finishes, and a tick after that,
  leave nothing of what was dispatched before unfolded;
* `applies_folded_once`: every refusal is of an apply dispatched after the last
  `reset_apply`, if and only if no tick folds a refusal of an earlier one.
-/

namespace Kwe.Playlists

open Foundation Kwe.Supervisor

/-! ## What a command leaves alone -/

/-- `t` has the definitions, the active playlist and the refusals of `s`. -/
structure SessionRuntime.Same (s t : SessionRuntime) : Prop where
  playlists : t.playlists = s.playlists
  storeError : t.storeError = s.storeError
  active : t.active = s.active
  refused : t.gateRefusedIds = s.gateRefusedIds

namespace SessionRuntime.Same

variable {s t u : SessionRuntime}

theorem refl (s : SessionRuntime) : s.Same s := ⟨rfl, rfl, rfl, rfl⟩

theorem trans (h : s.Same t) (h' : t.Same u) : s.Same u :=
  ⟨h'.playlists.trans h.playlists, h'.storeError.trans h.storeError, h'.active.trans h.active,
    h'.refused.trans h.refused⟩

theorem find (h : s.Same t) (id : String) : t.find id = s.find id := by
  rw [SessionRuntime.find, SessionRuntime.find, h.playlists]

theorem activeGone (h : s.Same t) : t.activeGone = s.activeGone := by
  simp only [SessionRuntime.activeGone, h.active, h.find]

theorem evict (codec : Codec) (s : SessionRuntime) : s.Same (s.evict codec) := by
  obtain ⟨snapshots, heq, -⟩ := SessionRuntime.evict_spec codec s
  rw [heq]
  exact ⟨rfl, rfl, rfl, rfl⟩

theorem persistState (codec : Codec) (s : SessionRuntime) :
    s.Same (s.persistState codec).1 := by
  unfold SessionRuntime.persistState
  dsimp only
  split <;> exact evict codec s

theorem keepSnapshot (id : String) (snapshot : Option PlaylistRuntimeSnapshot)
    (s : SessionRuntime) : s.Same (s.keepSnapshot id snapshot) := by
  cases snapshot <;> exact ⟨rfl, rfl, rfl, rfl⟩

theorem maybePersist (codec : Codec) (elapsed : Nat) (id : String) (decision : PlaylistDecision)
    (now : Nat) (s : SessionRuntime) : s.Same (s.maybePersist codec elapsed id decision now).1 := by
  unfold SessionRuntime.maybePersist
  dsimp only
  split
  next => exact ⟨rfl, rfl, rfl, rfl⟩
  next =>
    refine trans ?_ (persistState codec _)
    have hkept := keepSnapshot id
      (snapshotOf id now { s with lastDecision := some decision })
      { s with lastDecision := some decision }
    exact ⟨hkept.playlists, hkept.storeError, hkept.active, hkept.refused⟩

theorem resumeOrStart (playlist : Playlist) (now : Nat) (unavailable : List String) (id : String)
    (s : SessionRuntime) : s.Same (s.resumeOrStart playlist now unavailable id).2 := by
  unfold SessionRuntime.resumeOrStart
  dsimp only
  split
  next => exact ⟨rfl, rfl, rfl, rfl⟩
  next => split <;> exact ⟨rfl, rfl, rfl, rfl⟩

theorem reanchor (now : Nat) (frozen : Option PlaylistRuntimeSnapshot) (s : SessionRuntime) :
    s.Same (s.reanchor now frozen) := by
  unfold SessionRuntime.reanchor
  repeat' split
  all_goals exact ⟨rfl, rfl, rfl, rfl⟩

end SessionRuntime.Same

namespace SessionRuntime

theorem putPlaylist_refused (stored : Except String Unit) (playlist : Playlist)
    (s : SessionRuntime) :
    (s.putPlaylist stored playlist).session.gateRefusedIds = s.gateRefusedIds := by
  unfold putPlaylist
  dsimp only
  repeat' split
  all_goals rfl

theorem importPlaylists_refused (stored : Except String Unit) (legacy : List ImportPlaylist)
    (s : SessionRuntime) :
    (s.importPlaylists stored legacy).session.gateRefusedIds = s.gateRefusedIds := by
  unfold importPlaylists
  dsimp only
  repeat' split
  all_goals rfl

theorem removePlaylist_refused (codec : Codec) (stored : Except String Unit) (id : String)
    (s : SessionRuntime) :
    (s.removePlaylist codec stored id).session.gateRefusedIds = s.gateRefusedIds := by
  unfold removePlaylist
  dsimp only
  split
  next => rfl
  next =>
    split
    next => rfl
    next =>
      split
      next => rfl
      next =>
        rw [(Same.persistState codec _).refused]
        split <;> rfl

theorem debugClockSkip_refused (elapsed ms : Nat) (s : SessionRuntime) :
    (s.debugClockSkip elapsed ms).session.gateRefusedIds = s.gateRefusedIds := by
  unfold debugClockSkip
  split
  next => rfl
  next => exact (Same.reanchor _ _ _).refused

/-- An activation that does not start afresh changes nothing. -/
theorem activatePlaylist_same (codec : Codec) (elapsed : Nat) {id : Option String}
    {s : SessionRuntime} (h : s.startsAfresh id = false) :
    (s.activatePlaylist codec elapsed id).session = s := by
  unfold activatePlaylist
  split
  next => rfl
  next hstore =>
    cases id with
    | none => simp [startsAfresh, hstore] at h
    | some id =>
      dsimp only
      split
      next => rfl
      next playlist hfind =>
        split
        next => rfl
        next hactive => simp [startsAfresh, hstore, hfind, hactive] at h

/-- An activation that starts afresh shows the playlist it was asked for. -/
theorem activatePlaylist_fresh (codec : Codec) (elapsed : Nat) {id : Option String}
    {s : SessionRuntime} (h : s.startsAfresh id = true) :
    { s.resetApply with active := id }.Same (s.activatePlaylist codec elapsed id).session := by
  unfold activatePlaylist
  split
  next detail hstore => cases id <;> simp [startsAfresh, hstore] at h
  next hstore =>
    cases id with
    | none =>
      dsimp only
      refine Same.trans ?_ (Same.persistState codec _)
      exact ⟨rfl, rfl, rfl, rfl⟩
    | some id =>
      dsimp only
      split
      next hfind => simp [startsAfresh, hstore, hfind] at h
      next playlist hfind =>
        split
        next hactive => simp [startsAfresh, hstore, hfind, hactive] at h
        next hactive =>
          refine Same.trans ?_ (Same.persistState codec _)
          refine Same.trans ?_ (Same.keepSnapshot _ _ _)
          have hresumed := Same.resumeOrStart playlist (s.resetApply.nowMs elapsed)
            (s.resetApply.unavailableFor playlist) id s.resetApply
          exact ⟨hresumed.playlists, hresumed.storeError, rfl, hresumed.refused⟩

end SessionRuntime

/-! ## The lane -/

/-- What the session and the worker share, the refusals, and the ledger. -/
structure Lane where
  inFlight : Bool
  requests : List ApplyRequest
  working : Option ApplyRequest
  completions : List ApplyOutcome
  refused : List String
  ledger : Ledger

namespace Lane

/-- The wallpapers of the requests that are dispatched and not yet folded. -/
def outstanding (l : Lane) : List String :=
  l.completions.map (·.wallpaperId) ++ l.working.toList.map (·.wallpaperId) ++
    l.requests.map (·.wallpaperId)

def fold (l : Lane) : Lane :=
  { l with
    inFlight := l.inFlight && l.completions.isEmpty
    completions := []
    refused := (l.completions.filterMap ApplyOutcome.refused).reverse ++ l.refused
    ledger := { l.ledger with folded := l.ledger.folded ++ l.completions } }

def dispatch (request : ApplyRequest) (l : Lane) : Lane :=
  { l with
    inFlight := true
    requests := l.requests ++ [request]
    ledger := { l.ledger with dispatched := l.ledger.dispatched ++ [request.wallpaperId] } }

def forget (l : Lane) : Lane :=
  { l with
    refused := []
    ledger := { l.ledger with reset := l.ledger.dispatched.length } }

/-- A move of the worker, or of the session between two ticks. -/
inductive Quiet (l : Lane) : Lane → Prop
  | idle : Quiet l l
  | forget : Quiet l l.forget
  | take (request : ApplyRequest) (rest : List ApplyRequest) (hw : l.working = none)
      (hr : l.requests = request :: rest) :
      Quiet l { l with working := some request, requests := rest }
  | finish (request : ApplyRequest) (result : Except ApplyError Unit)
      (hw : l.working = some request) :
      Quiet l { l with
        working := none
        completions := l.completions ++ [⟨request.wallpaperId, result⟩] }

/-- A move of the session or of the worker. -/
inductive Step (l : Lane) : Lane → Prop
  | quiet {l' : Lane} (h : l.Quiet l') : Step l l'
  | fold : Step l l.fold
  | foldForget : Step l l.fold.forget
  | dispatch (request : ApplyRequest) (h : l.fold.inFlight = false) :
      Step l (l.fold.dispatch request)

end Lane

namespace ApplySystem

def lane (s : ApplySystem) : Lane where
  inFlight := s.apply.applyInFlight
  requests := s.requests
  working := s.working
  completions := s.completions
  refused := s.session.gateRefusedIds
  ledger := s.ledger

theorem foldOutcome_lane (elapsed : Nat) (s : ApplySystem) (outcome : ApplyOutcome) :
    (s.foldOutcome elapsed outcome).lane =
      { s.lane with
        inFlight := false
        refused := outcome.refused.toList ++ s.lane.refused
        ledger := { s.ledger with folded := s.ledger.folded ++ [outcome] } } := by
  obtain ⟨id, result⟩ := outcome
  rcases result with error | value
  · cases error <;> rfl
  · rfl

theorem foldOutcomes_lane (elapsed : Nat) (outcomes : List ApplyOutcome) (s : ApplySystem) :
    (outcomes.foldl (foldOutcome elapsed) s).lane =
      { s.lane with
        inFlight := s.lane.inFlight && outcomes.isEmpty
        refused := (outcomes.filterMap ApplyOutcome.refused).reverse ++ s.lane.refused
        ledger := { s.ledger with folded := s.ledger.folded ++ outcomes } } := by
  induction outcomes generalizing s with
  | nil => simp [lane]
  | cons outcome outcomes ih =>
    have hledger : (s.foldOutcome elapsed outcome).ledger =
        { s.ledger with folded := s.ledger.folded ++ [outcome] } :=
      congrArg Lane.ledger (foldOutcome_lane elapsed s outcome)
    rw [List.foldl_cons, ih, foldOutcome_lane, hledger]
    cases h : outcome.refused <;> simp [h]

theorem foldApplyCompletions_lane (elapsed : Nat) (s : ApplySystem) :
    (s.foldApplyCompletions elapsed).lane = s.lane.fold := by
  have h := foldOutcomes_lane elapsed s.completions s
  unfold foldApplyCompletions Lane.fold
  exact congrArg (fun l : Lane => { l with completions := [] }) h

theorem foldOutcome_session (elapsed : Nat) (s : ApplySystem) (outcome : ApplyOutcome) :
    (s.foldOutcome elapsed outcome).session =
      { s.session with gateRefusedIds := outcome.refused.toList ++ s.session.gateRefusedIds } := by
  obtain ⟨id, result⟩ := outcome
  rcases result with error | value
  · cases error <;> rfl
  · rfl

theorem foldApplyCompletions_session (elapsed : Nat) (s : ApplySystem) :
    (s.foldApplyCompletions elapsed).session =
      { s.session with gateRefusedIds := s.lane.fold.refused } := by
  show (s.completions.foldl (foldOutcome elapsed) s).session = { s.session with
    gateRefusedIds := (s.completions.filterMap ApplyOutcome.refused).reverse ++
      s.session.gateRefusedIds }
  generalize s.completions = outcomes
  induction outcomes generalizing s with
  | nil => simp
  | cons outcome outcomes ih =>
    rw [List.foldl_cons, ih, foldOutcome_session]
    cases h : outcome.refused <;> simp [h]

theorem dispatchApply_lane (config : LaneConfig) (id : String) (entries : List String)
    (s : ApplySystem) :
    (s.dispatchApply config id entries).lane = s.lane ∨
      ∃ request, (s.dispatchApply config id entries).lane = s.lane.dispatch request := by
  unfold dispatchApply
  dsimp only
  split
  next => exact Or.inl rfl
  next =>
    split
    next => exact Or.inr ⟨_, rfl⟩
    next => exact Or.inl rfl

theorem maybeApply_lane (config : LaneConfig) (elapsed : Nat)
    (status : Option (Except String WorkerStatus)) (playlist : Playlist)
    (decision : PlaylistDecision) (s : ApplySystem) :
    (s.maybeApply config elapsed status playlist decision).lane = s.lane ∨
      s.lane.inFlight = false ∧
        ∃ request, (s.maybeApply config elapsed status playlist decision).lane =
          s.lane.dispatch request := by
  unfold maybeApply
  split
  next => exact Or.inl rfl
  next id _ =>
    split
    next => exact Or.inl rfl
    next => exact Or.inl rfl
    next status =>
      dsimp only
      split
      next => exact Or.inl rfl
      next => exact Or.inl rfl
      next => exact Or.inl rfl
      next => exact Or.inl rfl
      next =>
        split
        next => exact Or.inl rfl
        next hflight =>
          rcases dispatchApply_lane config id playlist.entries
            { s with apply := { s.apply with lastStatusError := none } } with h | ⟨request, h⟩
          · exact Or.inl h
          · exact Or.inr ⟨Bool.eq_false_iff.mpr hflight, request, h⟩

/-- The lane after the session has changed, up to its refusals. -/
theorem lane_of_refused {s t : ApplySystem} (session : SessionRuntime)
    (h : session.gateRefusedIds = s.session.gateRefusedIds) (ht : t = { s with session := session }) :
    t.lane = s.lane := by
  subst ht
  simp only [lane, h]

variable (codec : Codec) (config : LaneConfig)

theorem tickFolded_gone (elapsed : Nat) (status : Option (Except String WorkerStatus))
    {s : ApplySystem} (h : s.session.activeGone = true) :
    (s.tickFolded codec config elapsed status).lane = s.lane.forget ∧
      (s.tickFolded codec config elapsed status).session.active = none := by
  unfold SessionRuntime.activeGone at h
  split at h
  next => cases h
  next id hactive =>
    unfold tickFolded
    simp only [hactive, Option.isNone_iff_eq_none.mp h]
    exact ⟨lane_of_refused _ (SessionRuntime.Same.persistState codec _).refused rfl,
      (SessionRuntime.Same.persistState codec _).active⟩

theorem maybeApply_session (elapsed : Nat) (status : Option (Except String WorkerStatus))
    (playlist : Playlist) (decision : PlaylistDecision) (s : ApplySystem) :
    (s.maybeApply config elapsed status playlist decision).session = s.session := by
  unfold maybeApply
  split
  next => rfl
  next =>
    split
    next => rfl
    next => rfl
    next =>
      dsimp only
      split
      next => rfl
      next => rfl
      next => rfl
      next => rfl
      next =>
        unfold dispatchApply
        dsimp only
        repeat' split
        all_goals rfl

theorem tickFolded_lane (elapsed : Nat) (status : Option (Except String WorkerStatus))
    {s : ApplySystem} (h : s.session.activeGone = false) :
    s.session.Same (s.tickFolded codec config elapsed status).session ∧
      ((s.tickFolded codec config elapsed status).lane = s.lane ∨
        s.lane.inFlight = false ∧ ∃ request,
          (s.tickFolded codec config elapsed status).lane = s.lane.dispatch request) := by
  unfold SessionRuntime.activeGone at h
  unfold tickFolded
  split
  next => exact ⟨.refl _, Or.inl rfl⟩
  next id hactive =>
    rw [hactive] at h
    split
    next hfind => simp [hfind] at h
    next playlist _ =>
      dsimp only
      split
      next => exact ⟨⟨rfl, rfl, rfl, rfl⟩, Or.inl rfl⟩
      next decision _ =>
        have hpersist := SessionRuntime.Same.maybePersist codec elapsed id decision
          (s.session.nowMs elapsed) (s.session.setRuntime id
            ((s.session.runtimeOf id).tick playlist (s.session.nowMs elapsed)
              (s.session.unavailableFor playlist)).2)
        have hsame := lane_of_refused (s := s) _ hpersist.refused rfl
        rw [← hsame, maybeApply_session]
        exact ⟨⟨hpersist.playlists, hpersist.storeError, hpersist.active, hpersist.refused⟩,
          maybeApply_lane ..⟩

/-- What a tick folds, and what it leaves of the session. -/
theorem refreshed_lane (elapsed : Nat) (quarantined : Option (List String)) (s : ApplySystem) :
    (foldApplyCompletions elapsed
        { s with session := s.session.refresh quarantined none }).lane = s.lane.fold ∧
      (foldApplyCompletions elapsed
        { s with session := s.session.refresh quarantined none }).session.activeGone =
          s.session.activeGone := by
  refine ⟨foldApplyCompletions_lane .., ?_⟩
  rw [foldApplyCompletions_session]
  rfl

/-- **A tick that forgets.**  Its active playlist is gone. -/
theorem tickSession_gone (elapsed : Nat) (quarantined : Option (List String))
    (status : Option (Except String WorkerStatus)) {s : ApplySystem}
    (h : s.session.activeGone = true) :
    (s.tickSession codec config elapsed quarantined status).lane = s.lane.fold.forget := by
  obtain ⟨hlane, hgone⟩ := refreshed_lane elapsed quarantined s
  rw [← hlane]
  exact (tickFolded_gone codec config elapsed status (hgone.trans h)).1

/-- **A tick that does not forget** folds, and then may dispatch. -/
theorem tickSession_lane (elapsed : Nat) (quarantined : Option (List String))
    (status : Option (Except String WorkerStatus)) {s : ApplySystem}
    (h : s.session.activeGone = false) :
    (s.tickSession codec config elapsed quarantined status).lane = s.lane.fold ∨
      s.lane.fold.inFlight = false ∧ ∃ request,
        (s.tickSession codec config elapsed quarantined status).lane =
          s.lane.fold.dispatch request := by
  obtain ⟨hlane, hgone⟩ := refreshed_lane elapsed quarantined s
  rw [← hlane]
  exact (tickFolded_lane codec config elapsed status (hgone.trans h)).2

/-- What a tick that does not forget leaves of the session. -/
theorem tickSession_same (elapsed : Nat) (quarantined : Option (List String))
    (status : Option (Except String WorkerStatus)) {s : ApplySystem}
    (h : s.session.activeGone = false) :
    { s.session with gateRefusedIds := s.lane.fold.refused }.Same
      (s.tickSession codec config elapsed quarantined status).session := by
  have hsession := foldApplyCompletions_session elapsed
    { s with session := s.session.refresh quarantined none }
  have hsame := (tickFolded_lane codec config elapsed status
    ((refreshed_lane elapsed quarantined s).2.trans h)).1
  rw [hsession] at hsame
  exact ⟨hsame.playlists, hsame.storeError, hsame.active, hsame.refused⟩

/-- **The session of the lane.**  A tick of the lane is a tick of the session
that learns the refusal in the completion queue. -/
theorem tickSession_session (elapsed : Nat) (quarantined : Option (List String))
    (status : Option (Except String WorkerStatus)) {s : ApplySystem}
    (h : s.completions.length ≤ 1) :
    (s.tickSession codec config elapsed quarantined status).session =
      (s.session.tickSession codec elapsed quarantined
        (s.completions.head?.bind ApplyOutcome.refused)).1 := by
  have hrefused : s.lane.fold.refused =
      (s.completions.head?.bind ApplyOutcome.refused).toList ++ s.session.gateRefusedIds := by
    show (s.completions.filterMap ApplyOutcome.refused).reverse ++ _ = _
    cases hc : s.completions with
    | nil => rfl
    | cons outcome rest =>
      obtain rfl : rest = [] := List.length_eq_zero_iff.mp (by
        rw [hc, List.length_cons] at h
        omega)
      cases hr : outcome.refused <;> simp [hr, lane]
  have hsession : (foldApplyCompletions elapsed
      { s with session := s.session.refresh quarantined none }).session =
        s.session.refresh quarantined (s.completions.head?.bind ApplyOutcome.refused) := by
    rw [foldApplyCompletions_session]
    show { s.session.refresh quarantined none with gateRefusedIds := s.lane.fold.refused } = _
    rw [hrefused]
    rfl
  unfold tickSession SessionRuntime.tickSession
  rw [← hsession]
  dsimp only
  generalize foldApplyCompletions elapsed
    { s with session := s.session.refresh quarantined none } = t
  unfold tickFolded
  cases t.session.active with
  | none => rfl
  | some id =>
    dsimp only
    cases t.session.find id with
    | none => rfl
    | some playlist =>
      dsimp only
      cases ((t.session.runtimeOf id).tick playlist (t.session.nowMs elapsed)
        (t.session.unavailableFor playlist)).1 with
      | error detail => rfl
      | ok decision => exact maybeApply_session ..

theorem activatePlaylist_lane (elapsed : Nat) (id : Option String) (s : ApplySystem) :
    (s.activatePlaylist codec elapsed id).lane =
      if s.session.startsAfresh id then s.lane.forget else s.lane := by
  unfold activatePlaylist
  dsimp only
  split
  next => rfl
  next h =>
    rw [SessionRuntime.activatePlaylist_same codec elapsed (Bool.eq_false_iff.mpr h)]

theorem take_lane (s : ApplySystem) : s.lane.Quiet s.take.lane := by
  unfold take
  split
  next request requests hw hr => exact .take request requests hw hr
  next => exact .idle

theorem finish_lane (result : Except ApplyError Unit) (s : ApplySystem) :
    s.lane.Quiet (s.finish result).lane := by
  unfold finish
  split
  next => exact .idle
  next request hw =>
    split
    next => exact .finish request result hw
    next => exact .idle

/-- The outcome folded by this event is of an apply dispatched after the last
`reset_apply`: a tick finds no refusal of an earlier one in the queue, unless
it forgets all refusals itself. -/
def Prompt (s : ApplySystem) (e : LaneEvent) : Prop :=
  match e.action with
  | .tick .. => (∃ outcome ∈ s.completions, outcome.refused.isSome) →
      s.session.activeGone = true ∨ s.ledger.reset < s.ledger.dispatched.length
  | _ => True

/-- Every refused wallpaper is one that was dispatched after the last
`reset_apply` and whose outcome, the one of the same number, is the refusal of
the capability gate. -/
def Fresh (s : ApplySystem) : Prop :=
  ∀ id ∈ s.session.gateRefusedIds, ∃ k outcome, s.ledger.reset ≤ k ∧
    s.ledger.dispatched[k]? = some id ∧ s.ledger.folded[k]? = some outcome ∧
    outcome.refused = some id

theorem step_quiet (s : ApplySystem) {e : LaneEvent}
    (h : ∀ quarantined status, e.action ≠ .tick quarantined status) :
    s.lane.Quiet (s.step codec config e).lane := by
  have hkept : ∀ session : SessionRuntime, session.gateRefusedIds = s.session.gateRefusedIds →
      s.lane.Quiet { s with session := session }.lane := fun session h => by
    rw [lane_of_refused (s := s) session h rfl]
    exact .idle
  unfold step
  cases haction : e.action with
  | put playlist => exact hkept _ (SessionRuntime.putPlaylist_refused ..)
  | remove id => exact hkept _ (SessionRuntime.removePlaylist_refused ..)
  | importPlaylists legacy => exact hkept _ (SessionRuntime.importPlaylists_refused ..)
  | debugClockSkip ms => exact hkept _ (SessionRuntime.debugClockSkip_refused ..)
  | availability validIds => exact .idle
  | take => exact take_lane s
  | finish result => exact finish_lane result s
  | activate id =>
    dsimp only
    rw [activatePlaylist_lane]
    split
    next => exact .forget
    next => exact .idle
  | tick quarantined status => exact absurd haction (h quarantined status)

/-- **Steps.**  A step of the session or of the worker is a move of the lane. -/
theorem step_lane (s : ApplySystem) (e : LaneEvent) :
    s.lane.Step (s.step codec config e).lane := by
  by_cases h : ∀ quarantined status, e.action ≠ .tick quarantined status
  · exact .quiet (step_quiet codec config s h)
  · push Not at h
    obtain ⟨quarantined, status, haction⟩ := h
    simp only [step, haction]
    cases hgone : s.session.activeGone with
    | true =>
      rw [tickSession_gone codec config e.elapsed quarantined status hgone]
      exact .foldForget
    | false =>
      rcases tickSession_lane codec config e.elapsed quarantined status hgone with
        h | ⟨hflight, request, h⟩
      · rw [h]
        exact .fold
      · rw [h]
        exact .dispatch request hflight

end ApplySystem

/-! ## The messages -/

namespace Lane

/-- At most one request is outstanding, while the flag is up; what is
dispatched is what is folded, then what is outstanding. -/
structure Sound (l : Lane) : Prop where
  count : l.outstanding.length = if l.inFlight then 1 else 0
  account : l.ledger.dispatched = l.ledger.folded.map (·.wallpaperId) ++ l.outstanding
  reset : l.ledger.reset ≤ l.ledger.dispatched.length

theorem Sound.le_one {l : Lane} (h : l.Sound) :
    l.completions.length + l.working.toList.length + l.requests.length ≤ 1 := by
  have := h.count
  simp only [outstanding, List.length_append, List.length_map] at this
  split at this <;> omega

/-- An outcome in the queue is the only request outstanding. -/
theorem Sound.completed {l : Lane} (h : l.Sound) (hc : l.completions ≠ []) :
    ∃ outcome, l.completions = [outcome] ∧ l.working = none ∧ l.requests = [] := by
  have hle := h.le_one
  have hpos := List.length_pos_iff.mpr hc
  obtain ⟨outcome, ho⟩ := List.length_eq_one_iff.mp (show l.completions.length = 1 by omega)
  have hw : l.working.toList = [] := List.length_eq_zero_iff.mp (by omega)
  exact ⟨outcome, ho, by simpa using hw, List.length_eq_zero_iff.mp (by omega)⟩

theorem Sound.fold {l : Lane} (h : l.Sound) : l.fold.Sound := by
  by_cases hc : l.completions = []
  · have heq : l.fold = l := by
      obtain ⟨inFlight, requests, working, completions, refused, ledger⟩ := l
      obtain rfl : completions = [] := hc
      simp [Lane.fold]
    rw [heq]
    exact h
  · obtain ⟨outcome, ho, hw, hr⟩ := h.completed hc
    have haccount := h.account
    simp only [outstanding, ho, hw, hr] at haccount
    refine ⟨?_, ?_, h.reset⟩
    · simp [Lane.fold, outstanding, ho, hw, hr]
    · simpa [Lane.fold, outstanding, ho, hw, hr] using haccount

theorem Sound.forget {l : Lane} (h : l.Sound) : l.forget.Sound :=
  ⟨h.count, h.account, Nat.le_refl _⟩

theorem Sound.dispatch {l : Lane} (h : l.Sound) (request : ApplyRequest)
    (hflight : l.inFlight = false) : (l.dispatch request).Sound := by
  have hnone : l.outstanding = [] := List.length_eq_zero_iff.mp (by rw [h.count, hflight]; rfl)
  have hout : (l.dispatch request).outstanding = [request.wallpaperId] := by
    have hmore : (l.dispatch request).outstanding = l.outstanding ++ [request.wallpaperId] := by
      simp [Lane.dispatch, outstanding]
    rw [hmore, hnone]
    rfl
  refine ⟨?_, ?_, ?_⟩
  · rw [hout]
    rfl
  · rw [hout]
    show l.ledger.dispatched ++ _ = _
    rw [h.account, hnone, List.append_nil]
    rfl
  · have := h.reset
    simp only [Lane.dispatch, List.length_append]
    omega

theorem Sound.quiet {l l' : Lane} (h : l.Sound) (hs : l.Quiet l') : l'.Sound := by
  cases hs with
  | idle => exact h
  | forget => exact h.forget
  | take request rest hw hr =>
    have hout : Lane.outstanding { l with working := some request, requests := rest } =
        l.outstanding := by simp [outstanding, hw, hr]
    exact ⟨by rw [hout]; exact h.count, by rw [hout]; exact h.account, h.reset⟩
  | finish request result hw =>
    have hle := h.le_one
    rw [hw] at hle
    have hc : l.completions = [] := List.length_eq_zero_iff.mp (by simp at hle; omega)
    have hout : Lane.outstanding { l with
        working := none
        completions := l.completions ++ [⟨request.wallpaperId, result⟩] } = l.outstanding := by
      simp [outstanding, hw, hc]
    exact ⟨by rw [hout]; exact h.count, by rw [hout]; exact h.account, h.reset⟩

/-- **Messages.**  Every move keeps the account. -/
theorem Sound.step {l l' : Lane} (h : l.Sound) (hs : l.Step l') : l'.Sound := by
  cases hs with
  | quiet hs => exact h.quiet hs
  | fold => exact h.fold
  | foldForget => exact h.fold.forget
  | dispatch request hflight => exact h.fold.dispatch request hflight

theorem Sound.folded_dispatched {l : Lane} (h : l.Sound) :
    l.ledger.folded.map (·.wallpaperId) <+: l.ledger.dispatched := by
  rw [h.account]
  exact List.prefix_append _ _

theorem Sound.folded_le {l : Lane} (h : l.Sound) :
    l.ledger.folded.length ≤ l.ledger.dispatched.length := by
  simpa using h.folded_dispatched.length_le

theorem Quiet.ledger {l l' : Lane} (hs : l.Quiet l') :
    l'.ledger.dispatched = l.ledger.dispatched ∧ l'.ledger.folded = l.ledger.folded := by
  cases hs <;> exact ⟨rfl, rfl⟩

theorem Step.dispatched_grows {l l' : Lane} (hs : l.Step l') :
    l.ledger.dispatched <+: l'.ledger.dispatched := by
  cases hs with
  | quiet hs => exact hs.ledger.1 ▸ List.prefix_rfl
  | dispatch request => exact List.prefix_append _ _
  | fold | foldForget => exact List.prefix_rfl

theorem Step.folded_le {l l' : Lane} (hs : l.Step l') :
    l.ledger.folded.length ≤ l'.ledger.folded.length := by
  cases hs with
  | quiet hs => rw [hs.ledger.2]
  | fold | foldForget | dispatch => simp [Lane.fold, Lane.forget, Lane.dispatch]

/-! ### Progress -/

/-- Of the first `n` requests, none waits for the worker. -/
def Taken (n : Nat) (l : Lane) : Prop := n ≤ l.ledger.folded.length ∨ l.requests = []

/-- Of the first `n` requests, none waits for the worker or is with it. -/
def Posted (n : Nat) (l : Lane) : Prop :=
  n ≤ l.ledger.folded.length ∨ (l.requests = [] ∧ l.working = none)

/-- A dispatch follows the fold of every earlier request. -/
theorem Sound.folded_of_idle {l : Lane} (h : l.Sound) (hflight : l.inFlight = false) :
    l.ledger.folded.length = l.ledger.dispatched.length := by
  have hnone : l.outstanding = [] := List.length_eq_zero_iff.mp (by rw [h.count, hflight]; rfl)
  rw [h.account, hnone, List.append_nil, List.length_map]

theorem Taken.step {n : Nat} {l l' : Lane} (h : l.Taken n) (hl : l.Sound)
    (hn : n ≤ l.ledger.dispatched.length) (hs : l.Step l') : l'.Taken n := by
  rcases h with h | h
  · exact Or.inl (Nat.le_trans h hs.folded_le)
  cases hs with
  | dispatch request hflight =>
    exact Or.inl (Nat.le_trans hn (Nat.le_of_eq (hl.fold.folded_of_idle hflight).symm))
  | fold | foldForget => exact Or.inr h
  | quiet hs =>
    cases hs with
    | take request rest hw hr => rw [h] at hr; cases hr
    | idle | forget | finish => exact Or.inr h

theorem Posted.step {n : Nat} {l l' : Lane} (h : l.Posted n) (hl : l.Sound)
    (hn : n ≤ l.ledger.dispatched.length) (hs : l.Step l') : l'.Posted n := by
  rcases h with h | ⟨hrequests, hworking⟩
  · exact Or.inl (Nat.le_trans h hs.folded_le)
  cases hs with
  | dispatch request hflight =>
    exact Or.inl (Nat.le_trans hn (Nat.le_of_eq (hl.fold.folded_of_idle hflight).symm))
  | fold | foldForget => exact Or.inr ⟨hrequests, hworking⟩
  | quiet hs =>
    cases hs with
    | take request rest hw hr => rw [hrequests] at hr; cases hr
    | finish request result hw => rw [hworking] at hw; cases hw
    | idle | forget => exact Or.inr ⟨hrequests, hworking⟩

theorem Posted.fold {n : Nat} {l : Lane} (h : l.Posted n) (hl : l.Sound)
    (hn : n ≤ l.ledger.dispatched.length) : n ≤ l.fold.ledger.folded.length := by
  rcases h with h | ⟨hrequests, hworking⟩
  · exact Nat.le_trans h (by simp [Lane.fold])
  · have haccount := congrArg List.length hl.account
    simp only [outstanding, hrequests, hworking, List.length_append, List.length_map,
      Option.toList_none, List.map_nil, List.length_nil] at haccount
    simp only [Lane.fold, List.length_append]
    omega

/-! ### Refusals -/

/-- Every refusal is of a request dispatched after the last `forget`. -/
def Fresh (l : Lane) : Prop :=
  ∀ id ∈ l.refused, ∃ k outcome, l.ledger.reset ≤ k ∧ l.ledger.dispatched[k]? = some id ∧
    l.ledger.folded[k]? = some outcome ∧ outcome.refused = some id

theorem Fresh.forget (l : Lane) : l.forget.Fresh := fun _ hid => absurd hid List.not_mem_nil

theorem Fresh.quiet {l l' : Lane} (h : l.Fresh) (hs : l.Quiet l') : l'.Fresh := by
  cases hs with
  | forget => exact Fresh.forget l
  | idle | take | finish => exact h

theorem Fresh.dispatch {l : Lane} (h : l.Fresh) (request : ApplyRequest) :
    (l.dispatch request).Fresh := by
  intro id hid
  obtain ⟨k, outcome, hk, hdispatched, hfolded, hrefused⟩ := h id hid
  refine ⟨k, outcome, hk, ?_, hfolded, hrefused⟩
  obtain ⟨hlt, -⟩ := List.getElem?_eq_some_iff.mp hdispatched
  show (l.ledger.dispatched ++ [request.wallpaperId])[k]? = some id
  rw [List.getElem?_append_left hlt]
  exact hdispatched

/-- A refusal that is there was folded after the last `forget`. -/
theorem Fresh.reset_lt {l : Lane} (h : l.Fresh) (hne : l.refused ≠ []) :
    l.ledger.reset < l.ledger.folded.length := by
  obtain ⟨id, hid⟩ := List.exists_mem_of_ne_nil _ hne
  obtain ⟨k, outcome, hk, -, hfolded, -⟩ := h id hid
  obtain ⟨hlt, -⟩ := List.getElem?_eq_some_iff.mp hfolded
  omega

/-- Folding keeps the refusals fresh when the one it may add is. -/
theorem Fresh.fold {l : Lane} (h : l.Fresh) (hl : l.Sound)
    (hprompt : (∃ outcome ∈ l.completions, outcome.refused.isSome) →
      l.ledger.reset < l.ledger.dispatched.length) : l.fold.Fresh := by
  intro id hid
  rcases List.mem_append.mp hid with hnew | hold
  · obtain ⟨outcome, hmem, hrefused⟩ := List.mem_filterMap.mp (List.mem_reverse.mp hnew)
    have hlt := hprompt ⟨outcome, hmem, by rw [hrefused]; rfl⟩
    obtain ⟨only, honly, hw, hr⟩ := hl.completed (List.ne_nil_of_mem hmem)
    obtain rfl : outcome = only := by simpa [honly] using hmem
    have hid : outcome.wallpaperId = id := by
      unfold ApplyOutcome.refused at hrefused
      split at hrefused
      next => exact Option.some.inj hrefused
      next => cases hrefused
    have haccount := hl.account
    simp only [outstanding, honly, hw, hr, List.map_cons, List.map_nil, Option.toList_none,
      List.append_nil] at haccount
    have hlength := congrArg List.length haccount
    simp only [List.length_append, List.length_map, List.length_singleton] at hlength
    refine ⟨l.ledger.folded.length, outcome, ?_, ?_, ?_, hrefused⟩
    · show l.ledger.reset ≤ l.ledger.folded.length
      omega
    · show l.ledger.dispatched[l.ledger.folded.length]? = some id
      rw [haccount, List.getElem?_append_right (by simp), hid]
      simp
    · show (l.ledger.folded ++ l.completions)[l.ledger.folded.length]? = some outcome
      rw [honly, List.getElem?_append_right (Nat.le_refl _)]
      simp
  · obtain ⟨k, outcome, hk, hdispatched, hfolded, hrefused⟩ := h id hold
    refine ⟨k, outcome, hk, hdispatched, ?_, hrefused⟩
    obtain ⟨hlt, -⟩ := List.getElem?_eq_some_iff.mp hfolded
    show (l.ledger.folded ++ l.completions)[k]? = some outcome
    rw [List.getElem?_append_left hlt]
    exact hfolded

theorem refused_fold_ne_nil {l : Lane} {outcome : ApplyOutcome} (hmem : outcome ∈ l.completions)
    (hrefused : outcome.refused.isSome) : l.fold.refused ≠ [] := by
  obtain ⟨id, hid⟩ := Option.isSome_iff_exists.mp hrefused
  refine List.ne_nil_of_mem (List.mem_append_left _ ?_ : id ∈ l.fold.refused)
  exact List.mem_reverse.mpr (List.mem_filterMap.mpr ⟨outcome, hmem, hid⟩)

end Lane

/-! ## Runs -/

namespace ApplySystem

section Runs

variable (codec : Codec) (config : LaneConfig)

theorem new_sound (validIds : List String) (elapsed : Nat)
    (definitions : Except String (List Playlist)) (loaded : LoadedState) :
    (new validIds elapsed definitions loaded).lane.Sound := ⟨rfl, rfl, Nat.le_refl 0⟩

theorem new_refused (validIds : List String) (elapsed : Nat)
    (definitions : Except String (List Playlist)) (loaded : LoadedState) :
    (SessionRuntime.new validIds elapsed definitions loaded).gateRefusedIds = [] := by
  unfold SessionRuntime.new
  dsimp only
  repeat' split
  all_goals rfl

theorem new_fresh (validIds : List String) (elapsed : Nat)
    (definitions : Except String (List Playlist)) (loaded : LoadedState) :
    (new validIds elapsed definitions loaded).Fresh := by
  intro id hid
  rw [show (new validIds elapsed definitions loaded).session.gateRefusedIds = [] from
    new_refused validIds elapsed definitions loaded] at hid
  exact absurd hid List.not_mem_nil

theorem run_sound {s : ApplySystem} (h : s.lane.Sound) (es : List LaneEvent) :
    (Runs.run (step codec config) s es).lane.Sound :=
  Runs.invariant_run_all (I := fun s : ApplySystem => s.lane.Sound)
    (fun s e hs => hs.step (step_lane codec config s e)) h es

/-! ### Every request is folded -/

/-- What every move keeps of the first `n` requests holds at the end of a run
when it holds after one of its steps. -/
theorem run_kept {P : Lane → Prop} {n : Nat}
    (hP : ∀ l l' : Lane, P l → l.Sound → n ≤ l.ledger.dispatched.length → l.Step l' → P l')
    {s : ApplySystem} (hs : s.lane.Sound) (hn : n ≤ s.ledger.dispatched.length)
    (before : List LaneEvent) (e : LaneEvent) (after : List LaneEvent)
    (hp : P ((Runs.run (step codec config) s before).step codec config e).lane) :
    P (Runs.run (step codec config) s (before ++ e :: after)).lane := by
  have hstep : ∀ t e, t.lane.Sound ∧ n ≤ t.lane.ledger.dispatched.length →
      (step codec config t e).lane.Sound ∧
        n ≤ (step codec config t e).lane.ledger.dispatched.length := fun t e h =>
    have hmove := step_lane codec config t e
    ⟨h.1.step hmove, Nat.le_trans h.2 hmove.dispatched_grows.length_le⟩
  have hbefore : (Runs.run (step codec config) s before).lane.Sound ∧
      n ≤ (Runs.run (step codec config) s before).lane.ledger.dispatched.length :=
    Runs.invariant_run_all
      (I := fun t : ApplySystem => t.lane.Sound ∧ n ≤ t.lane.ledger.dispatched.length)
      hstep ⟨hs, hn⟩ before
  rw [Runs.run_append, Runs.run_cons]
  exact (Runs.invariant_run_all
    (I := fun t : ApplySystem => (t.lane.Sound ∧ n ≤ t.lane.ledger.dispatched.length) ∧ P t.lane)
    (fun t e h => ⟨hstep t e h.1, hP _ _ h.2 h.1.1 h.1.2 (step_lane codec config t e)⟩)
    ⟨hstep _ e hbefore, hp⟩ after).2

theorem run_dispatched (s : ApplySystem) (es : List LaneEvent) :
    s.ledger.dispatched <+: (Runs.run (step codec config) s es).ledger.dispatched :=
  Runs.invariant_run_all (I := fun t : ApplySystem => s.ledger.dispatched <+: t.ledger.dispatched)
    (fun t e ht => ht.trans (step_lane codec config t e).dispatched_grows)
    List.prefix_rfl es

theorem take_taken {s : ApplySystem} (hs : s.lane.Sound) (n : Nat) : s.take.lane.Taken n := by
  have hle := hs.le_one
  unfold take
  split
  next request requests hw hr =>
    refine Or.inr (List.length_eq_zero_iff.mp ?_)
    simp only [lane, hw, hr, List.length_cons, Option.toList_none, List.length_nil] at hle ⊢
    omega
  next hnot =>
    refine Or.inr ?_
    cases hw : s.working with
    | none =>
      cases hr : s.requests with
      | nil => exact hr
      | cons request requests => exact absurd hr (hnot request requests hw)
    | some request =>
      simp only [lane, hw, Option.toList_some, List.length_singleton] at hle
      exact List.length_eq_zero_iff.mp (show s.requests.length = 0 by omega)

theorem finish_posted {s : ApplySystem} (hs : s.lane.Sound) {n : Nat} (h : s.lane.Taken n)
    (result : Except ApplyError Unit) : (s.finish result).lane.Posted n := by
  rcases h with h | h
  · exact Or.inl (Nat.le_trans h (Lane.Step.quiet (finish_lane result s)).folded_le)
  · have hle := hs.le_one
    refine Or.inr ?_
    unfold finish
    split
    next hw => exact ⟨h, hw⟩
    next request hw =>
      simp only [lane, hw, Option.toList_some, List.length_singleton] at hle
      rw [if_pos (show s.completions.length < applyQueueCapacity by
        unfold applyQueueCapacity
        omega)]
      exact ⟨h, rfl⟩

theorem tickSession_folded (elapsed : Nat) (quarantined : Option (List String))
    (status : Option (Except String WorkerStatus)) (s : ApplySystem) :
    (s.tickSession codec config elapsed quarantined status).ledger.folded =
      s.lane.fold.ledger.folded := by
  show (s.tickSession codec config elapsed quarantined status).lane.ledger.folded = _
  cases hgone : s.session.activeGone with
  | true =>
    rw [tickSession_gone codec config elapsed quarantined status hgone]
    rfl
  | false =>
    rcases tickSession_lane codec config elapsed quarantined status hgone with h | ⟨-, request, h⟩
    · rw [h]
    · rw [h]
      rfl

/-- Somewhere in `es` the worker takes a request, later it finishes, and later
still the session ticks. -/
def Serves (es : List LaneEvent) : Prop :=
  ∃ before taken between finished waiting ticked after,
    es = before ++ taken :: between ++ finished :: waiting ++ ticked :: after ∧
    taken.action = .take ∧ (∃ result, finished.action = .finish result) ∧
    ∃ quarantined status, ticked.action = .tick quarantined status

/-- **Progress.**  A worker that serves its queue and a session that ticks
fold every request. -/
theorem folded_of_served {s : ApplySystem} (hs : s.lane.Sound) {es : List LaneEvent}
    (h : Serves es) :
    s.ledger.dispatched <+:
      (Runs.run (step codec config) s es).ledger.folded.map (·.wallpaperId) := by
  obtain ⟨before, taken, between, finished, waiting, ticked, after, rfl, htake, ⟨result, hfinish⟩,
    quarantined, status, htick⟩ := h
  set n := s.ledger.dispatched.length
  have hsound : ∀ es, (Runs.run (step codec config) s es).lane.Sound :=
    fun es => run_sound codec config hs es
  have hcount : ∀ es, n ≤ (Runs.run (step codec config) s es).ledger.dispatched.length :=
    fun es => (run_dispatched codec config s es).length_le
  -- The request leaves the queue, then the worker, then the completion queue.
  have htaken : (Runs.run (step codec config) s (before ++ taken :: between)).lane.Taken n := by
    refine run_kept codec config (P := Lane.Taken n) (fun _ _ h => h.step) hs (Nat.le_refl n)
      before taken between ?_
    simp only [step, htake]
    exact take_taken (hsound before) n
  have hposted : (Runs.run (step codec config) s
      (before ++ taken :: between ++ finished :: waiting)).lane.Posted n := by
    refine run_kept codec config (P := Lane.Posted n) (fun _ _ h => h.step) hs (Nat.le_refl n)
      (before ++ taken :: between) finished waiting ?_
    simp only [step, hfinish]
    exact finish_posted (hsound _) htaken result
  have hfolded : n ≤ (Runs.run (step codec config) s
      (before ++ taken :: between ++ finished :: waiting ++ ticked :: after)).ledger.folded.length := by
    refine run_kept codec config (P := fun l => n ≤ l.ledger.folded.length)
      (fun _ _ h _ _ hs => Nat.le_trans h hs.folded_le) hs (Nat.le_refl n)
      (before ++ taken :: between ++ finished :: waiting) ticked after ?_
    simp only [step, htick]
    show n ≤ (tickSession codec config _ _ _ _).ledger.folded.length
    rw [tickSession_folded]
    exact hposted.fold (hsound _) (run_dispatched codec config s _).length_le
  exact List.prefix_of_prefix_length_le (run_dispatched codec config s _)
    (hsound _).folded_dispatched (by simpa using hfolded)

/-! ### Refusals -/

theorem fresh_iff (s : ApplySystem) : s.Fresh ↔ s.lane.Fresh := Iff.rfl

theorem step_fresh {s : ApplySystem} (hs : s.lane.Sound) (h : s.Fresh) {e : LaneEvent}
    (hprompt : s.Prompt e) : (s.step codec config e).Fresh := by
  by_cases haction : ∀ quarantined status, e.action ≠ .tick quarantined status
  · exact Lane.Fresh.quiet (l := s.lane) h (step_quiet codec config s haction)
  · push Not at haction
    obtain ⟨quarantined, status, haction⟩ := haction
    unfold Prompt at hprompt
    rw [haction] at hprompt
    rw [fresh_iff]
    simp only [step, haction]
    cases hgone : s.session.activeGone with
    | true =>
      rw [tickSession_gone codec config e.elapsed quarantined status hgone]
      exact Lane.Fresh.forget _
    | false =>
      have hfold : s.lane.fold.Fresh := Lane.Fresh.fold h hs fun hc =>
        (hprompt hc).resolve_left (Bool.eq_false_iff.mp hgone)
      rcases tickSession_lane codec config e.elapsed quarantined status hgone with
        heq | ⟨-, request, heq⟩
      · rw [heq]
        exact hfold
      · rw [heq]
        exact hfold.dispatch request

theorem prompt_of_fresh {s : ApplySystem} (hs : s.lane.Sound) {e : LaneEvent}
    (h : (s.step codec config e).Fresh) : s.Prompt e := by
  unfold Prompt
  split
  next quarantined status haction =>
    rintro ⟨outcome, hmem, hrefused⟩
    cases hgone : s.session.activeGone with
    | true => exact Or.inl rfl
    | false =>
      have hne := Lane.refused_fold_ne_nil (l := s.lane) hmem hrefused
      have hfold := hs.fold.folded_le
      have hfresh := (fresh_iff _).mp h
      simp only [step, haction] at hfresh
      refine Or.inr (Nat.lt_of_lt_of_le ?_ hfold)
      rcases tickSession_lane codec config e.elapsed quarantined status hgone with
        heq | ⟨-, request, heq⟩
      · rw [heq] at hfresh
        exact hfresh.reset_lt hne
      · rw [heq] at hfresh
        exact hfresh.reset_lt hne
  next => trivial

/-- **Applies.**  At every point of every run of a session at most one request
is queued or running, and what was dispatched is what was folded followed by
what is outstanding; whatever happens next, a worker that takes its request and
finishes it, and a tick after that, fold all of it.  Every refusal, wherever
the run is stopped, is of an apply dispatched after the last `reset_apply`, if
and only if no tick of the run finds the refusal of an earlier one. -/
theorem applies_folded_once (validIds : List String) (elapsed : Nat)
    (definitions : Except String (List Playlist)) (loaded : LoadedState) (es : List LaneEvent) :
    let start := new validIds elapsed definitions loaded
    let s := Runs.run (step codec config) start es
    (s.requests.length + s.working.toList.length ≤ 1 ∧
      s.ledger.dispatched = s.ledger.folded.map (·.wallpaperId) ++ s.lane.outstanding) ∧
    (∀ more, Serves more → s.ledger.dispatched <+:
      (Runs.run (step codec config) s more).ledger.folded.map (·.wallpaperId)) ∧
    ((∀ pre, pre <+: es → (Runs.run (step codec config) start pre).Fresh) ↔
      Runs.Along (step codec config) Prompt start es) := by
  intro start s
  have hstart : start.lane.Sound := new_sound validIds elapsed definitions loaded
  have hsound : s.lane.Sound := run_sound codec config hstart es
  refine ⟨⟨?_, hsound.account⟩, fun more hmore => folded_of_served codec config hsound hmore, ?_, ?_⟩
  · have hle : s.completions.length + s.working.toList.length + s.requests.length ≤ 1 :=
      hsound.le_one
    omega
  · intro hfresh
    refine (Runs.along_iff_forall_initial start es).mpr fun pre e hpre => ?_
    refine prompt_of_fresh codec config (run_sound codec config hstart pre) ?_
    have hnext := hfresh (pre ++ [e]) hpre
    rwa [Runs.run_append] at hnext
  · intro hprompt pre hpre
    exact (Runs.invariant_run (I := fun t : ApplySystem => t.lane.Sound ∧ t.Fresh)
      (fun t e ht he => ⟨ht.1.step (step_lane codec config t e),
        step_fresh codec config ht.1 ht.2 he⟩)
      ⟨hstart, new_fresh validIds elapsed definitions loaded⟩ (hprompt.of_initial hpre)).2

/-- An apply is in flight when this event runs `reset_apply`; a tick folds
first, so it counts what the worker still has. -/
def ResetsInFlight (s : ApplySystem) (e : LaneEvent) : Prop :=
  match e.action with
  | .activate id => s.session.startsAfresh id = true ∧ s.apply.applyInFlight = true
  | .tick .. => s.session.activeGone = true ∧ s.lane.fold.inFlight = true
  | _ => False

/-- The request in flight was dispatched after the last `reset_apply`. -/
def Recent (s : ApplySystem) : Prop :=
  s.lane.inFlight = true → s.ledger.reset < s.ledger.dispatched.length

theorem take_ledger (s : ApplySystem) :
    s.take.lane.inFlight = s.lane.inFlight ∧ s.take.ledger = s.ledger := by
  unfold take
  split <;> exact ⟨rfl, rfl⟩

theorem finish_ledger (result : Except ApplyError Unit) (s : ApplySystem) :
    (s.finish result).lane.inFlight = s.lane.inFlight ∧ (s.finish result).ledger = s.ledger := by
  unfold finish
  split
  next => exact ⟨rfl, rfl⟩
  next => split <;> exact ⟨rfl, rfl⟩

theorem step_recent {s : ApplySystem} (hs : s.lane.Sound) (h : s.Recent) {e : LaneEvent}
    (hreset : ¬ s.ResetsInFlight e) : (s.step codec config e).Recent := by
  intro hflight
  show (s.step codec config e).lane.ledger.reset < (s.step codec config e).lane.ledger.dispatched.length
  unfold ResetsInFlight at hreset
  unfold step at hflight ⊢
  cases haction : e.action with
  | put | remove | importPlaylists | debugClockSkip | availability =>
    rw [haction] at hflight
    exact h hflight
  | take =>
    rw [haction] at hflight
    obtain ⟨hsame, hledger⟩ := take_ledger s
    show s.take.ledger.reset < s.take.ledger.dispatched.length
    rw [hledger]
    exact h (hsame ▸ hflight)
  | finish result =>
    rw [haction] at hflight
    obtain ⟨hsame, hledger⟩ := finish_ledger result s
    show (s.finish result).ledger.reset < (s.finish result).ledger.dispatched.length
    rw [hledger]
    exact h (hsame ▸ hflight)
  | activate id =>
    rw [haction] at hreset hflight
    dsimp only at hreset hflight ⊢
    rw [activatePlaylist_lane] at hflight ⊢
    split at hflight
    next hfresh => exact absurd ⟨hfresh, hflight⟩ hreset
    next hsame =>
      rw [if_neg hsame]
      exact h hflight
  | tick quarantined status =>
    rw [haction] at hreset hflight
    dsimp only at hreset hflight ⊢
    cases hgone : s.session.activeGone with
    | true =>
      rw [tickSession_gone codec config e.elapsed quarantined status hgone] at hflight
      exact absurd ⟨hgone, hflight⟩ hreset
    | false =>
      rcases tickSession_lane codec config e.elapsed quarantined status hgone with
        heq | ⟨-, request, heq⟩
      · rw [heq] at hflight ⊢
        exact h (Bool.and_eq_true_iff.mp hflight).1
      · rw [heq]
        have := hs.reset
        simp only [Lane.dispatch, Lane.fold, List.length_append, List.length_singleton]
        omega

theorem prompt_of_recent {s : ApplySystem} (hs : s.lane.Sound) (h : s.Recent) (e : LaneEvent) :
    s.Prompt e := by
  unfold Prompt
  split
  next =>
    rintro ⟨outcome, hmem, -⟩
    refine Or.inr (h ?_)
    have hcount := hs.count
    have hpos : 0 < s.lane.completions.length := List.length_pos_of_mem hmem
    simp only [Lane.outstanding, List.length_append, List.length_map] at hcount
    split at hcount
    next hflight => exact hflight
    next => omega
  next => trivial

/-- When no event runs `reset_apply` while an apply is in flight, no tick finds
the refusal of an apply of an earlier activation. -/
theorem prompt_of_idle_resets {s : ApplySystem} (hs : s.lane.Sound) (h : s.Recent)
    {es : List LaneEvent}
    (hresets : Runs.Along (step codec config) (fun s e => ¬ s.ResetsInFlight e) s es) :
    Runs.Along (step codec config) Prompt s es :=
  Runs.along_of_invariant (I := fun t : ApplySystem => t.lane.Sound ∧ t.Recent)
    (fun t e ht he => ⟨ht.1.step (step_lane codec config t e), step_recent codec config ht.1 ht.2 he⟩)
    (fun _ e ht _ => prompt_of_recent ht.1 ht.2 e) ⟨hs, h⟩ hresets

end Runs

/-! ## A refusal that outlives its activation -/

/-- A playlist of one wallpaper. -/
def single (id : String) : Playlist where
  id := id
  title := "single"
  entries := ["w"]
  shuffle := false
  repeat_ := true
  durationSeconds := 60
  transition := .none
  transitionSeconds := 0

/-- Two playlists of the same wallpaper; the first is active. -/
def beforeSwitch : ApplySystem := new ["w"] 0 (.ok [single "a", single "b"]) ⟨some "a", ∅, false⟩

/-- The first playlist's apply is dispatched; the second playlist is activated
while it runs; the gate refuses it. -/
def switchInFlight : List LaneEvent :=
  [⟨.tick none (some (.ok (status (.new .empty)))), 0, .ok ()⟩, ⟨.take, 0, .ok ()⟩,
    ⟨.activate (some "b"), 0, .ok ()⟩, ⟨.finish (.error (.capabilityGate "" [] none)), 0, .ok ()⟩,
    ⟨.tick none none, 0, .ok ()⟩]

theorem beforeSwitch_session : beforeSwitch.session =
    { playlists := [single "a", single "b"]
      storeError := none
      runtimes := (∅ : Std.ExtTreeMap String PlaylistRuntime).insert "a" (.new 0)
      snapshots := ∅
      active := some "a"
      lastDecision := none
      lastWaitingPersist := 0
      validIds := ["w"]
      quarantinedIds := []
      gateRefusedIds := []
      clockOffsetMs := 0
      clockSkippedMs := 0 } := by
  have hfind : List.find? (fun x => decide (x.id = "a")) [single "a", single "b"] =
      some (single "a") := rfl
  have hactive : (some "a").filter (fun id => [single "a", single "b"].any (·.id = id)) =
      some "a" := by decide
  unfold beforeSwitch new SessionRuntime.new
  dsimp only [Except.toOption, Option.getD]
  rw [hactive]
  dsimp only [SessionRuntime.find]
  rw [hfind]
  rfl

/-- The first tick of the runtime advances to the only wallpaper. -/
theorem single_tick (id : String) (hid : boundedName id = true) :
    ((PlaylistRuntime.new 0).tick (single id) 0 []).1 = .ok (.advanced "w" 0 60000) := by
  have hentry : boundedName "w" = true := by decide
  have hspace : isWhiteSpace 's' = false := by decide
  have hvalid : (single id).validate = .ok () := by
    simp [Playlist.validate, single, hid, hentry, hspace, maxEntries, minDurationSeconds,
      maxDurationSeconds, maxTransitionSeconds]
  have hunavailable : validateUnavailable [] = .ok () := by decide
  have hobserve : (PlaylistRuntime.new 0).observe (single id) 0 =
      .ok { PlaylistRuntime.new 0 with lastNowMs := some 0 } := rfl
  have hnext : (single id).nextEligibleIndex none 0 [] = some 0 := by
    simp [Playlist.nextEligibleIndex, single]
  have hdeadline : saturatingAdd64 0 ((single id).durationSeconds * 1000) = 60000 := by
    have hduration : (single id).durationSeconds = 60 := rfl
    rw [hduration]
    decide
  have hexclusions : PlaylistRuntime.exclusions (single id) []
      { PlaylistRuntime.new 0 with lastNowMs := some 0 } = [] := by
    simp [PlaylistRuntime.exclusions, PlaylistRuntime.new]
  have hselect : (PlaylistRuntime.select (single id) 0 [] false
      { PlaylistRuntime.new 0 with lastNowMs := some 0 }).1 = .advanced "w" 0 60000 := by
    unfold PlaylistRuntime.select
    rw [hexclusions]
    simp only [PlaylistRuntime.new, hnext, hdeadline]
    rfl
  simp only [PlaylistRuntime.tick, hvalid, hunavailable, hobserve]
  exact congrArg Except.ok hselect

/-- The first tick dispatches the only wallpaper. -/
theorem beforeSwitch_dispatches (codec : Codec) (persisted : PersistedState) :
    ∃ request : ApplyRequest, request.wallpaperId = "w" ∧
      (beforeSwitch.tickSession codec ⟨none, true⟩ 0 none
        (some (.ok (status (.new persisted))))).lane = beforeSwitch.lane.dispatch request := by
  have hfind : beforeSwitch.session.find "a" = some (single "a") := by
    rw [beforeSwitch_session]
    rfl
  have hactive : beforeSwitch.session.active = some "a" := by rw [beforeSwitch_session]
  have hunavailable : beforeSwitch.session.unavailableFor (single "a") = [] := by
    rw [beforeSwitch_session]
    simp [SessionRuntime.unavailableFor, single]
  have hruntime : beforeSwitch.session.runtimeOf "a" = .new 0 := by
    rw [beforeSwitch_session]
    simp [SessionRuntime.runtimeOf]
  have hnow : beforeSwitch.session.nowMs 0 = 0 := by
    rw [beforeSwitch_session]
    rfl
  have htick := single_tick "a" (by decide)
  have hrefreshed : foldApplyCompletions 0
      { beforeSwitch with session := beforeSwitch.session.refresh none none } = beforeSwitch := rfl
  unfold tickSession
  simp only [hrefreshed]
  unfold tickFolded
  simp only [hactive, hfind, hunavailable, hruntime, hnow, htick]
  have hpersist := (SessionRuntime.Same.maybePersist codec 0 "a" (.advanced "w" 0 60000) 0
    (beforeSwitch.session.setRuntime "a" ((PlaylistRuntime.new 0).tick (single "a") 0 []).2)).refused
  have hsame := lane_of_refused (s := beforeSwitch) _ hpersist rfl
  rw [← hsame]
  exact ⟨_, rfl, rfl⟩

/-- The rest of `switchInFlight`, from a state with one request in the queue. -/
theorem switched_lane (codec : Codec) {s : ApplySystem}
    {request : ApplyRequest} (hlane : s.lane = beforeSwitch.lane.dispatch request)
    (hplaylists : s.session.playlists = [single "a", single "b"])
    (hstore : s.session.storeError = none) (hactive : s.session.active = some "a") :
    let t := (s.take.activatePlaylist codec 0 (some "b")).finish
      (.error (.capabilityGate "" [] none))
    t.lane.completions = [⟨request.wallpaperId, .error (.capabilityGate "" [] none)⟩] ∧
      t.ledger = ⟨[request.wallpaperId], [], 1⟩ ∧
      t.session.playlists = [single "a", single "b"] ∧ t.session.active = some "b" := by
  intro t
  have htake : s.take = { s with working := some request, requests := [] } := by
    have hworking : s.working = none := congrArg Lane.working hlane
    have hrequests : s.requests = [request] := congrArg Lane.requests hlane
    simp only [take, hworking, hrequests]
  have hfresh : s.take.session.startsAfresh (some "b") = true := by
    rw [htake]
    simp [SessionRuntime.startsAfresh, SessionRuntime.find, hstore, hactive, hplaylists, single]
  have hswitched := activatePlaylist_lane codec 0 (some "b") s.take
  rw [if_pos hfresh] at hswitched
  have hsession := SessionRuntime.activatePlaylist_fresh codec 0 hfresh
  have hsame : (s.take.activatePlaylist codec 0 (some "b")).session.playlists =
      (s.take.session.activatePlaylist codec 0 (some "b")).session.playlists ∧
      (s.take.activatePlaylist codec 0 (some "b")).session.active =
      (s.take.session.activatePlaylist codec 0 (some "b")).session.active := by
    unfold activatePlaylist
    rw [if_pos hfresh]
    exact ⟨rfl, rfl⟩
  have hworking : (s.take.activatePlaylist codec 0 (some "b")).working = some request := by
    refine (congrArg Lane.working hswitched).trans ?_
    rw [htake]
    rfl
  have hcompletions : (s.take.activatePlaylist codec 0 (some "b")).completions = [] := by
    refine (congrArg Lane.completions hswitched).trans ?_
    rw [htake]
    exact congrArg Lane.completions hlane
  have hledger : (s.take.activatePlaylist codec 0 (some "b")).ledger =
      ⟨[request.wallpaperId], [], 1⟩ := by
    refine (congrArg Lane.ledger hswitched).trans ?_
    rw [htake]
    show (Lane.forget { s.lane with working := some request, requests := [] }).ledger = _
    rw [hlane]
    rfl
  have hfinish : t = { s.take.activatePlaylist codec 0 (some "b") with
      working := none
      completions := [⟨request.wallpaperId, .error (.capabilityGate "" [] none)⟩] } := by
    show ApplySystem.finish _ _ = _
    unfold finish
    rw [hworking, hcompletions]
    rfl
  rw [hfinish]
  refine ⟨rfl, hledger, ?_, ?_⟩
  · refine hsame.1.trans (hsession.playlists.trans ?_)
    rw [htake]
    exact hplaylists
  · exact hsame.2.trans hsession.active

/-- The tick that folds the refusal of a request dispatched before the switch. -/
theorem folded_after_switch (codec : Codec) (config : LaneConfig) {s : ApplySystem}
    {outcome : ApplyOutcome} (hcompletions : s.lane.completions = [outcome])
    (hrefused : outcome.refused = some "w") (hledger : s.ledger = ⟨["w"], [], 1⟩)
    (hplaylists : s.session.playlists = [single "a", single "b"])
    (hactive : s.session.active = some "b") :
    let t := s.tickSession codec config 0 none none
    t.session.active = some "b" ∧ "w" ∈ t.session.unavailableFor (single "b") ∧ ¬ t.Fresh := by
  intro t
  have hgone : s.session.activeGone = false := by
    simp [SessionRuntime.activeGone, SessionRuntime.find, hactive, hplaylists, single]
  have hsame := tickSession_same codec config 0 none none hgone
  have hmem : "w" ∈ s.lane.fold.refused := by
    simp [Lane.fold, hcompletions, hrefused]
  have hreset : ¬ s.lane.fold.ledger.reset < s.lane.fold.ledger.folded.length := by
    simp [Lane.fold, lane, hledger, show s.completions = [outcome] from hcompletions]
  refine ⟨hsame.active.trans hactive, ?_, fun hfresh => hreset ?_⟩
  · simp only [SessionRuntime.unavailableFor, List.mem_dedup, List.mem_mergeSort, List.mem_filter]
    refine ⟨List.mem_singleton_self "w", ?_⟩
    rw [hsame.refused, List.contains_iff_mem.mpr hmem, Bool.or_true]
  · rw [fresh_iff] at hfresh
    rcases tickSession_lane codec config 0 none none hgone with heq | ⟨-, later, heq⟩
    · rw [show t.lane = _ from heq] at hfresh
      exact hfresh.reset_lt (List.ne_nil_of_mem hmem)
    · rw [show t.lane = _ from heq] at hfresh
      exact hfresh.reset_lt (List.ne_nil_of_mem hmem)

/-- The second playlist is active, its wallpaper is left out, and no apply was
dispatched since it became active. -/
theorem refused_after_switch :
    let s := Runs.run (step serdeCodec ⟨none, true⟩) beforeSwitch switchInFlight
    s.session.active = some "b" ∧ "w" ∈ s.session.unavailableFor (single "b") ∧ ¬ s.Fresh := by
  generalize serdeCodec = codec
  obtain ⟨request, hw, hdispatched⟩ := beforeSwitch_dispatches codec .empty
  have hkept := tickSession_same codec ⟨none, true⟩ 0 none
    (some (.ok (status (.new .empty)))) (s := beforeSwitch) (by rw [beforeSwitch_session]; rfl)
  unfold switchInFlight
  rw [Runs.run_cons, Runs.run_cons, Runs.run_cons, Runs.run_cons, Runs.run_cons, Runs.run_nil]
  simp only [step]
  generalize beforeSwitch.tickSession codec _ 0 none _ = s at hdispatched hkept ⊢
  have hplaylists := hkept.playlists
  have hstore := hkept.storeError
  have hactive := hkept.active
  rw [beforeSwitch_session] at hplaylists hstore hactive
  obtain ⟨hcompletions, hledger, hplaylists, hactive⟩ :=
    switched_lane codec hdispatched hplaylists hstore hactive
  exact folded_after_switch codec ⟨none, true⟩ hcompletions (congrArg some hw) (hw ▸ hledger)
    hplaylists hactive

end ApplySystem

end Kwe.Playlists
