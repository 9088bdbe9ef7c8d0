import Kwe.Playlists.Selection

/-!
The time an entry plays: a runtime against a clock that counts only the time
it is not paused.

* `tracks_call`, `tracks_calls`: a runtime keeps to its clock through ticks,
  pauses and resumes.
* `tick_timed`: a tick waits, stays paused or makes the next selection as the
  clock says.
-/

namespace Kwe.Playlists

/-! ## The clock -/

inductive PlaylistCall
  | tick (unavailable : List String)
  | pause
  | resume
  deriving DecidableEq, Repr

/-- The time since a selection that was not paused, up to `last`. -/
structure PlayClock where
  played : Nat
  paused : Bool
  last : Nat
  deriving DecidableEq, Repr

namespace PlayClock

def start (now : Nat) : PlayClock where
  played := 0
  paused := false
  last := now

def observe (clock : PlayClock) (now : Nat) : PlayClock where
  played := if clock.paused then clock.played else clock.played + (now - clock.last)
  paused := clock.paused
  last := now

def call (clock : PlayClock) (now : Nat) : PlaylistCall → PlayClock
  | .tick _ => clock.observe now
  | .pause => { clock.observe now with paused := true }
  | .resume => { clock.observe now with paused := false }

def calls (clock : PlayClock) (run : List (Nat × PlaylistCall)) : PlayClock :=
  run.foldl (fun clock call => clock.call call.1 call.2) clock

end PlayClock

/-- How long an entry plays, in milliseconds. -/
def Playlist.durationMs (playlist : Playlist) : Nat := playlist.durationSeconds * 1000

/-! ## Runs -/

namespace PlaylistRuntime

def call (playlist : Playlist) (now : Nat) (r : PlaylistRuntime) : PlaylistCall → Outcome
  | .tick unavailable => r.tick playlist now unavailable
  | .pause => r.pause playlist now
  | .resume => r.resume playlist now

def calls (playlist : Playlist) (r : PlaylistRuntime) (run : List (Nat × PlaylistCall)) :
    PlaylistRuntime :=
  run.foldl (fun r call => (r.call playlist call.1 call.2).2) r

/-- The operation that led to `r` selected the entry at `i` at the time `now`. -/
inductive Selected (playlist : Playlist) (now i : Nat) : PlaylistRuntime → Prop
  | started {before after : PlaylistRuntime} {unavailable : List String} {id : String}
      {deadline : Nat}
      (h : before.start playlist now unavailable = (.ok (.started id i deadline), after)) :
      Selected playlist now i after
  | advanced {before after : PlaylistRuntime} {unavailable : List String} {id : String}
      {deadline : Nat}
      (h : before.tick playlist now unavailable = (.ok (.advanced id i deadline), after)) :
      Selected playlist now i after

/-- A tick with this list is accepted, and finds the entry at `i` available. -/
def Keeps (playlist : Playlist) (i : Nat) (unavailable : List String) : Prop :=
  validateUnavailable unavailable = .ok () ∧ playlist.entry i ∉ unavailable

/-- A run in which time does not go back, no deadline saturates, the entry at
`i` stays available, and no tick is due. -/
def Early (playlist : Playlist) (i : Nat) : PlayClock → List (Nat × PlaylistCall) → Prop
  | _, [] => True
  | clock, (now, call) :: rest =>
    clock.last ≤ now ∧ now + playlist.durationMs < 2 ^ 64 ∧
      (match call with
        | .tick unavailable => Keeps playlist i unavailable ∧
          ((clock.observe now).paused = false → (clock.observe now).played < playlist.durationMs)
        | _ => True) ∧
      Early playlist i (clock.call now call) rest

/-- The runtime plays the entry at `i` as `clock` says. -/
structure Tracks (playlist : Playlist) (i : Nat) (history : List String) (clock : PlayClock)
    (r : PlaylistRuntime) : Prop where
  range : i < playlist.entries.length
  index : r.currentIndex = some i
  name : r.currentWallpaperId = some (playlist.entry i)
  last : r.lastNowMs = some clock.last
  history : r.history = history
  timing : if clock.paused then r.pausedRemainingMs = some (playlist.durationMs - clock.played)
    else r.pausedRemainingMs = none ∧ ∃ deadline, r.deadlineMs = some deadline ∧
      deadline - clock.last = playlist.durationMs - clock.played

variable {playlist : Playlist} {i now : Nat} {history : List String} {clock : PlayClock}
  {r : PlaylistRuntime}

/-- Observing a later time keeps the runtime on its clock. -/
theorem tracks_observe (h : Tracks playlist i history clock r) (hnow : clock.last ≤ now) :
    r.observe playlist now = .ok { r with lastNowMs := some now } ∧
      Tracks playlist i history (clock.observe now) { r with lastNowMs := some now } := by
  have hlate : r.regressed now = false := by
    unfold regressed
    rw [h.last]
    simpa using hnow
  refine ⟨?_, h.range, h.index, h.name, rfl, h.history, ?_⟩
  · have hsame := reconcileCurrent_eq (r := { r with lastNowMs := some now }) h.range h.index h.name
    rw [observe, hlate, hsame]
    rfl
  · have htiming := h.timing
    unfold PlayClock.observe
    cases hpaused : clock.paused with
    | true => simpa [hpaused] using htiming
    | false =>
      simp only [hpaused, Bool.false_eq_true, if_false] at htiming ⊢
      obtain ⟨hnone, deadline, hdeadline, hleft⟩ := htiming
      exact ⟨hnone, deadline, hdeadline, by omega⟩

/-! ### Operations -/

/-- **A tick on the clock** leaves the runtime alone until it is due, and then
selects. -/
theorem tickReconciled_tracked {unavailable : List String} (h : Tracks playlist i history clock r)
    (havailable : playlist.entry i ∉ unavailable) :
    tickReconciled playlist clock.last unavailable r =
      if clock.paused then
        (.paused (playlist.entry i) i (playlist.durationMs - clock.played), r)
      else if clock.played < playlist.durationMs then
        (.waiting (playlist.entry i) i (playlist.durationMs - clock.played), r)
      else select playlist clock.last unavailable false r := by
  have htiming := h.timing
  unfold tickReconciled
  rw [h.index]
  cases hpaused : clock.paused with
  | true =>
    rw [if_pos hpaused] at htiming
    rw [htiming]
    rfl
  | false =>
    rw [hpaused, if_neg Bool.false_ne_true] at htiming
    obtain ⟨hnone, deadline, hdeadline, hleft⟩ := htiming
    have hdue : clock.last < deadline ↔ clock.played < playlist.durationMs := by omega
    rw [hnone, hdeadline]
    simp [havailable, hdue, hleft]

/-- A paused runtime keeps what was left, also when it is paused again. -/
theorem pauseReconciled_tracked (h : Tracks playlist i history clock r) :
    (pauseReconciled playlist clock.last r).1 =
        .paused (playlist.entry i) i (playlist.durationMs - clock.played) ∧
      Tracks playlist i history { clock with paused := true }
        (pauseReconciled playlist clock.last r).2 := by
  have hleft : r.pausedRemainingMs.getD (r.deadlineMs.getD clock.last - clock.last) =
      playlist.durationMs - clock.played := by
    have htiming := h.timing
    cases hpaused : clock.paused with
    | true =>
      rw [if_pos hpaused] at htiming
      rw [htiming]
      rfl
    | false =>
      rw [hpaused, if_neg Bool.false_ne_true] at htiming
      obtain ⟨hnone, deadline, hdeadline, hleft⟩ := htiming
      rw [hnone, hdeadline]
      exact hleft
  unfold pauseReconciled
  rw [h.index]
  simp only [hleft]
  exact ⟨trivial, h.range, rfl, h.name, h.last, h.history, rfl⟩

/-- A resumed runtime has what was left before it again. -/
theorem resumeReconciled_tracked (h : Tracks playlist i history clock r)
    (hsafe : clock.last + playlist.durationMs < 2 ^ 64) :
    Tracks playlist i history { clock with paused := false }
      (resumeReconciled playlist clock.last r).2 := by
  have htiming := h.timing
  unfold resumeReconciled
  rw [h.index]
  cases hpaused : clock.paused with
  | true =>
    rw [if_pos hpaused] at htiming
    simp only [htiming]
    refine ⟨h.range, rfl, h.name, h.last, h.history, rfl, _, rfl, ?_⟩
    rw [saturatingAdd64_eq (by omega)]
    dsimp only
    omega
  | false =>
    rw [hpaused, if_neg Bool.false_ne_true] at htiming
    simp only [htiming.1]
    exact ⟨h.range, h.index, h.name, h.last, h.history, htiming⟩

theorem tick_tracked {unavailable : List String} (hp : playlist.validate = .ok ())
    (hkeeps : Keeps playlist i unavailable) (h : Tracks playlist i history clock r)
    (hnow : clock.last ≤ now) :
    r.tick playlist now unavailable =
      (tickReconciled playlist now unavailable { r with lastNowMs := some now }).map .ok id := by
  rw [tick, hp, hkeeps.1, (tracks_observe h hnow).1]

/-- **One call** keeps the runtime on its clock, unless it is a tick that is
due. -/
theorem tracks_call {call : PlaylistCall} {rest : List (Nat × PlaylistCall)}
    (hp : playlist.validate = .ok ()) (h : Tracks playlist i history clock r)
    (hearly : Early playlist i clock ((now, call) :: rest)) :
    Tracks playlist i history (clock.call now call) (r.call playlist now call).2 := by
  obtain ⟨hnow, hsafe, hcall, -⟩ := hearly
  obtain ⟨hobserve, htracks⟩ := tracks_observe h hnow
  cases call with
  | tick unavailable =>
    obtain ⟨hkeeps, hwaits⟩ := hcall
    have hstays : (tickReconciled playlist now unavailable { r with lastNowMs := some now }).2 =
        { r with lastNowMs := some now } := by
      have htick : tickReconciled playlist now unavailable { r with lastNowMs := some now } = _ :=
        tickReconciled_tracked htracks hkeeps.2
      rw [htick]
      split
      next => rfl
      next hrunning => rw [if_pos (hwaits (Bool.eq_false_iff.mpr hrunning))]
    change Tracks playlist i history (clock.observe now) (r.tick playlist now unavailable).2
    rw [tick_tracked hp hkeeps h hnow, Prod.map_snd, id, hstays]
    exact htracks
  | pause =>
    change Tracks playlist i history { clock.observe now with paused := true }
      (r.pause playlist now).2
    rw [pause, hp, hobserve]
    exact (pauseReconciled_tracked htracks).2
  | resume =>
    change Tracks playlist i history { clock.observe now with paused := false }
      (r.resume playlist now).2
    rw [resume, hp, hobserve]
    exact resumeReconciled_tracked htracks hsafe

/-- **A run** in which no tick is due keeps the runtime on its clock. -/
theorem tracks_calls {run : List (Nat × PlaylistCall)} (hp : playlist.validate = .ok ())
    (h : Tracks playlist i history clock r) (hearly : Early playlist i clock run) :
    Tracks playlist i history (clock.calls run) (r.calls playlist run) := by
  induction run generalizing clock r with
  | nil => exact h
  | cons call rest ih => exact ih (tracks_call hp h hearly) hearly.2.2.2

/-! ### Selections -/

/-- What a selection leaves behind. -/
theorem tracks_select {starting : Bool} {unavailable : List String} {id : String} {deadline : Nat}
    {decision : PlaylistDecision} (hlast : r.lastNowMs = some now)
    (hsafe : now + playlist.durationMs < 2 ^ 64)
    (h : (select playlist now unavailable starting r).1 = decision)
    (hdecision : decision = .started id i deadline ∨ decision = .advanced id i deadline) :
    ∃ history ≠ [], Tracks playlist i history (.start now)
      (select playlist now unavailable starting r).2 := by
  revert h
  unfold select
  split
  next =>
    intro h
    dsimp only [emptyDecision] at h
    split at h
    all_goals
      subst h
      rcases hdecision with hdecision | hdecision
      all_goals cases hdecision
  next index hindex =>
    intro h
    have hi : index = i := by
      cases starting
      all_goals
        subst h
        rcases hdecision with hdecision | hdecision
        all_goals cases hdecision
        rfl
    subst hi
    have hpushed : pushHistory r.history (playlist.entry index) ≠ [] := by
      rw [ne_eq, ← List.length_eq_zero_iff, pushHistory, List.length_drop, List.length_append]
      simp [maxEntries]
      omega
    refine ⟨pushHistory r.history (playlist.entry index), hpushed, ?_⟩
    have hdeadline : saturatingAdd64 now (playlist.durationSeconds * 1000) =
        now + playlist.durationMs := saturatingAdd64_eq hsafe
    rw [hdeadline]
    exact {
      range := Playlist.nextEligibleIndex_lt hindex
      index := rfl
      name := rfl
      last := hlast
      history := by dsimp only
      timing := ⟨rfl, now + playlist.durationMs, rfl, Nat.add_sub_cancel_left _ _⟩ }

/-- A tick advances by a selection. -/
theorem tickReconciled_advanced {unavailable : List String} {id : String} {deadline : Nat}
    (h : (tickReconciled playlist now unavailable r).1 = .advanced id i deadline) :
    tickReconciled playlist now unavailable r = select playlist now unavailable false r := by
  revert h
  unfold tickReconciled
  repeat' split
  all_goals
    intro h
    first
      | cases h
      | rfl

/-- Just after a selection the clock starts. -/
theorem Selected.tracks (h : Selected playlist now i r)
    (hsafe : now + playlist.durationMs < 2 ^ 64) :
    playlist.validate = .ok () ∧ ∃ history ≠ [], Tracks playlist i history (.start now) r := by
  cases h with
  | @started before after unavailable id deadline h =>
    unfold start at h
    split at h
    next => cases h
    next => cases h
    next hp _ =>
      obtain ⟨hdecision, hafter⟩ := Prod.mk.inj h
      obtain ⟨history, hne, htracks⟩ := tracks_select rfl hsafe (Except.ok.inj hdecision)
        (Or.inl rfl)
      exact ⟨hp, history, hne, hafter ▸ htracks⟩
  | @advanced before after unavailable id deadline h =>
    rcases tick_cases playlist now unavailable before with ⟨⟨detail, hfail⟩, -⟩ | ⟨⟨hp, -, -⟩, hok⟩
    · rw [h] at hfail
      cases hfail
    · rw [h] at hok
      have hdecision : (tickReconciled playlist now unavailable (before.observed playlist now)).1 =
          .advanced id i deadline := (Except.ok.inj (congrArg Prod.fst hok)).symm
      have hafter : (tickReconciled playlist now unavailable (before.observed playlist now)).2 =
          r := (congrArg Prod.snd hok).symm
      have hselects := tickReconciled_advanced hdecision
      rw [hselects] at hdecision hafter
      obtain ⟨history, hne, htracks⟩ := tracks_select rfl hsafe hdecision (Or.inr rfl)
      exact ⟨hp, history, hne, hafter ▸ htracks⟩

/-- What a due tick answers: the next entry in reach, or that the playlist is
exhausted when none is. -/
def Succeeds (playlist : Playlist) (now i : Nat) (unavailable : List String) (r : PlaylistRuntime)
    (outcome : Except String PlaylistDecision) : Prop :=
  (∃ index, r.Eligible playlist unavailable index ∧ playlist.InReach (some i) index ∧
      outcome = .ok (.advanced (playlist.entry index) index (now + playlist.durationMs))) ∨
    (¬ ∃ index, r.Eligible playlist unavailable index ∧ playlist.InReach (some i) index) ∧
      outcome = .ok .exhausted

/-- **The next selection.** -/
theorem select_succeeds {unavailable : List String} (hp : playlist.validate = .ok ())
    (hne : history ≠ []) (h : Tracks playlist i history clock r)
    (havailable : playlist.entry i ∉ unavailable)
    (hsafe : now + playlist.durationMs < 2 ^ 64) :
    r.Succeeds playlist now i unavailable (.ok (select playlist now unavailable false r).1) := by
  have hsize := length_exclusions_le (Playlist.valid_of_validate hp) unavailable r
  have hcurrent : ∀ j, r.currentIndex = some j → j < playlist.entries.length := by
    intro j hj
    rw [h.index] at hj
    exact Option.some.inj hj ▸ h.range
  unfold select
  split
  next hnone =>
    rw [h.index] at hnone hcurrent
    have hout : ¬ ∃ index, r.Eligible playlist unavailable index ∧
        playlist.InReach (some i) index := by
      rintro ⟨index, heligible, hreach⟩
      exact Playlist.nextEligibleIndex_complete hsize hcurrent hnone heligible.1
        ((mem_exclusions heligible.1).mpr heligible) hreach
    -- With repeat the current entry itself would be in reach.
    have honce : playlist.repeat_ = false := Bool.eq_false_iff.mpr fun hrepeat =>
      hout ⟨i, ⟨h.range, havailable, by simp [hrepeat]⟩, Or.inl hrepeat⟩
    refine Or.inr ⟨hout, ?_⟩
    dsimp only [emptyDecision]
    rw [honce, h.history, List.isEmpty_eq_false_iff.mpr hne]
    rfl
  next index hsome =>
    rw [h.index] at hsome hcurrent
    obtain ⟨hlt, hkept, hreach⟩ := Playlist.nextEligibleIndex_sound hsize hcurrent hsome
    refine Or.inl ⟨index, (mem_exclusions hlt).mp hkept, hreach, ?_⟩
    have hdeadline : saturatingAdd64 now (playlist.durationSeconds * 1000) =
        now + playlist.durationMs := saturatingAdd64_eq hsafe
    rw [hdeadline]
    rfl

end PlaylistRuntime

/-! ## Ticks on time -/

open PlaylistRuntime in
/-- **Pause-aware timing.**  After the entry at `i` was selected at `start`, and
a run in which no tick was due, a tick stays paused, waits, or makes the next
selection, as the time that was not paused says. -/
theorem tick_timed {playlist : Playlist} {start now i : Nat} {selected : PlaylistRuntime}
    {run : List (Nat × PlaylistCall)} {unavailable : List String}
    (hselected : Selected playlist start i selected)
    (hearly : Early playlist i (.start start) run)
    (hstart : start + playlist.durationMs < 2 ^ 64)
    (hlate : ((PlayClock.start start).calls run).last ≤ now)
    (hsafe : now + playlist.durationMs < 2 ^ 64) (hkeeps : Keeps playlist i unavailable) :
    let clock := ((PlayClock.start start).calls run).observe now
    let outcome := ((selected.calls playlist run).tick playlist now unavailable).1
    if clock.paused then
      outcome = .ok (.paused (playlist.entry i) i (playlist.durationMs - clock.played))
    else if clock.played < playlist.durationMs then
      outcome = .ok (.waiting (playlist.entry i) i (playlist.durationMs - clock.played))
    else selected.Succeeds playlist now i unavailable outcome := by
  intro clock outcome
  obtain ⟨hp, history, hne, hstarted⟩ := hselected.tracks hstart
  have hrun := tracks_calls hp hstarted hearly
  obtain ⟨-, htracks⟩ := tracks_observe hrun hlate
  have htick : outcome = .ok (tickReconciled playlist now unavailable
      { selected.calls playlist run with lastNowMs := some now }).1 :=
    congrArg Prod.fst (tick_tracked hp hkeeps hrun hlate)
  have hreconciled : tickReconciled playlist now unavailable
      { selected.calls playlist run with lastNowMs := some now } = _ :=
    tickReconciled_tracked htracks hkeeps.2
  rw [htick, hreconciled]
  split
  next => rfl
  next =>
    split
    next => rfl
    next =>
      have hnext := select_succeeds hp hne htracks hkeeps.2 hsafe
      unfold Succeeds at hnext ⊢
      rwa [eligible_congr (htracks.history.trans hstarted.history.symm)] at hnext

open PlaylistRuntime in
/-- Ten seconds that are paused from the second to the fifth are not over after
twelve. -/
theorem tick_timed_paused :
    ((((new 7).start onceInOrder 0 []).2.calls onceInOrder
      [(2000, .pause), (5000, .resume)]).tick onceInOrder 12000 []).1 =
        .ok (.waiting "one" 0 1000) := by
  have hdecision : ((new 7).start onceInOrder 0 []).1 = .ok (.started "one" 0 10000) := by
    decide +kernel
  have hstarted : (new 7).start onceInOrder 0 [] =
      (.ok (.started "one" 0 10000), ((new 7).start onceInOrder 0 []).2) := Prod.ext hdecision rfl
  generalize ((new 7).start onceInOrder 0 []).2 = selected at hstarted ⊢
  have hclock : ((PlayClock.start 0).calls [(2000, .pause), (5000, .resume)]).observe 12000 =
      ⟨9000, false, 12000⟩ := by decide
  have hduration : onceInOrder.durationMs = 10000 := by decide
  have hentry : onceInOrder.entry 0 = "one" := rfl
  have hearly : Early onceInOrder 0 (.start 0) [(2000, .pause), (5000, .resume)] :=
    ⟨by decide, by decide, trivial, by decide, by decide, trivial, trivial⟩
  have hlate : ((PlayClock.start 0).calls [(2000, .pause), (5000, .resume)]).last ≤ 12000 := by
    decide
  have hkeeps : Keeps onceInOrder 0 [] := ⟨by decide, by decide⟩
  have htimed := tick_timed (.started hstarted) hearly (by decide) hlate (by decide) hkeeps
  simpa [hclock, hduration, hentry] using htimed

/-- One entry that is played once. -/
def onceOnly : Playlist := { onceInOrder with entries := ["one"] }

open PlaylistRuntime in
/-- When the last entry of a playlist without repeat is over, no tick advances. -/
theorem tick_timed_exhausted : ¬ ∀ (playlist : Playlist) (start now i : Nat)
    (selected : PlaylistRuntime) (unavailable : List String),
    Selected playlist start i selected → Keeps playlist i unavailable →
      start + playlist.durationMs ≤ now → now + playlist.durationMs < 2 ^ 64 →
        ∃ id index deadline,
          (selected.tick playlist now unavailable).1 = .ok (.advanced id index deadline) := by
  intro h
  have hdecision : ((new 7).start onceOnly 0 []).1 = .ok (.started "one" 0 10000) := by
    decide +kernel
  have hexhausted : (((new 7).start onceOnly 0 []).2.tick onceOnly 10000 []).1 = .ok .exhausted := by
    decide +kernel
  have hstarted : (new 7).start onceOnly 0 [] =
      (.ok (.started "one" 0 10000), ((new 7).start onceOnly 0 []).2) := Prod.ext hdecision rfl
  generalize ((new 7).start onceOnly 0 []).2 = selected at hstarted hexhausted
  obtain ⟨id, index, deadline, hadvanced⟩ := h onceOnly 0 10000 0 selected [] (.started hstarted)
    ⟨by decide, by decide⟩ (by decide) (by decide)
  rw [hexhausted] at hadvanced
  cases hadvanced

end Kwe.Playlists
