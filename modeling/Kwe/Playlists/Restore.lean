import Kwe.Foundation.Simulation
import Kwe.Playlists.Wellformed

/-!
A restored runtime continues the one its snapshot was taken of, at another
time.

* `Shifted`: two runtimes whose times count from two bases but agree otherwise,
  expired deadlines and the deadline left over under a pause apart;
* `shifted_perform`: shifted runtimes answer every call alike and stay shifted;
* `restore_snapshot`: a restored runtime is the original, reconciled against
  the playlist given to `restore`, shifted.
-/

namespace Kwe.Playlists

open Foundation

/-! ## Calls and their answers -/

/-- A call, at a time given as the offset from the base of the clock. -/
inductive Call
  | tick (playlist : Playlist) (offset : Nat) (unavailable : List String)
  | pause (playlist : Playlist) (offset : Nat)
  | resume (playlist : Playlist) (offset : Nat)
  | snapshot (playlist : Playlist) (offset : Nat)
  deriving DecidableEq, Repr

inductive Answer
  | decision (outcome : Except String PlaylistDecision)
  | captured (outcome : Except String PlaylistRuntimeSnapshot)
  deriving DecidableEq

def Call.perform (base : Nat) (r : PlaylistRuntime) : Call → Answer × PlaylistRuntime
  | .tick playlist offset unavailable =>
      (r.tick playlist (base + offset) unavailable).map .decision id
  | .pause playlist offset => (r.pause playlist (base + offset)).map .decision id
  | .resume playlist offset => (r.resume playlist (base + offset)).map .decision id
  | .snapshot playlist offset => (.captured (r.snapshot playlist (base + offset)), r)

/-- The same decision, with its deadline counted from the other base. -/
inductive PlaylistDecision.Shifted (base base' : Nat) : PlaylistDecision → PlaylistDecision → Prop
  | started {wallpaperId index deadline deadline'} (h : deadline' + base = deadline + base') :
      Shifted base base' (.started wallpaperId index deadline)
        (.started wallpaperId index deadline')
  | advanced {wallpaperId index deadline deadline'} (h : deadline' + base = deadline + base') :
      Shifted base base' (.advanced wallpaperId index deadline)
        (.advanced wallpaperId index deadline')
  | waiting {wallpaperId index remaining} :
      Shifted base base' (.waiting wallpaperId index remaining)
        (.waiting wallpaperId index remaining)
  | paused {wallpaperId index remaining} :
      Shifted base base' (.paused wallpaperId index remaining)
        (.paused wallpaperId index remaining)
  | exhausted : Shifted base base' .exhausted .exhausted
  | noEligible : Shifted base base' .noEligible .noEligible

/-- The same answer: the same error, snapshot, or shifted decision. -/
inductive Answer.Shifted (base base' : Nat) : Answer → Answer → Prop
  | decision {d d'} (h : d.Shifted base base' d') :
      Shifted base base' (.decision (.ok d)) (.decision (.ok d'))
  | failed {detail} : Shifted base base' (.decision (.error detail)) (.decision (.error detail))
  | captured {outcome} : Shifted base base' (.captured outcome) (.captured outcome)

/-- No deadline the call sets saturates. -/
def Call.Fits (base : Nat) (r : PlaylistRuntime) : Call → Prop
  | .tick playlist offset _ => base + offset + playlist.durationSeconds * 1000 < 2 ^ 64
  | .resume _ offset =>
      ∀ remaining, r.pausedRemainingMs = some remaining → base + offset + remaining < 2 ^ 64
  | _ => True

/-! ## Shifted runtimes -/

/-- `r` counts its times from `base` and `r'` from `base'`; they agree
otherwise.  A deadline before the base is as good as one at the base, and the
deadline of a paused runtime counts for nothing. -/
structure PlaylistRuntime.Shifted (base base' : Nat) (r r' : PlaylistRuntime) : Prop where
  currentIndex : r'.currentIndex = r.currentIndex
  currentWallpaperId : r'.currentWallpaperId = r.currentWallpaperId
  pausedRemainingMs : r'.pausedRemainingMs = r.pausedRemainingMs
  seed : r'.seed = r.seed
  history : r'.history = r.history
  deadline : r.pausedRemainingMs = none →
    r'.deadlineMs.map (· - base') = r.deadlineMs.map (· - base)
  regressed : ∀ offset, r'.regressed (base' + offset) = r.regressed (base + offset)

namespace PlaylistRuntime

variable {base base' : Nat} {r r' : PlaylistRuntime}

theorem shifted_reconcileCurrent (playlist : Playlist) (h : r.Shifted base base' r') :
    (reconcileCurrent playlist r).Shifted base base' (reconcileCurrent playlist r') := by
  obtain ⟨hi, hname, hp, hs, hh, hd, ht⟩ := h
  unfold reconcileCurrent
  rw [hname, hi]
  repeat' split
  · exact ⟨rfl, rfl, hp, hs, hh, hd, ht⟩
  · exact ⟨hi, hname, hp, hs, hh, hd, ht⟩
  · exact ⟨rfl, rfl, hp, hs, hh, hd, ht⟩
  · exact ⟨rfl, rfl, rfl, hs, hh, fun _ => rfl, ht⟩

theorem shifted_observed (offset : Nat) (h : r.Shifted base base' r') :
    ({ r with lastNowMs := some (base + offset) } : PlaylistRuntime).Shifted base base'
      { r' with lastNowMs := some (base' + offset) } := by
  refine ⟨h.currentIndex, h.currentWallpaperId, h.pausedRemainingMs, h.seed, h.history,
    h.deadline, fun offset' => ?_⟩
  simp [regressed]

/-- Observing a time fails on both, or leaves both shifted. -/
theorem shifted_observe (playlist : Playlist) (offset : Nat) (h : r.Shifted base base' r') :
    (∃ detail, r.observe playlist (base + offset) = .error detail ∧
      r'.observe playlist (base' + offset) = .error detail) ∨
    ∃ s s', r.observe playlist (base + offset) = .ok s ∧
      r'.observe playlist (base' + offset) = .ok s' ∧ s.Shifted base base' s' ∧
      (s.pausedRemainingMs = r.pausedRemainingMs ∨ s.pausedRemainingMs = none) := by
  unfold observe
  rw [h.regressed offset]
  split
  next => exact Or.inl ⟨_, rfl, rfl⟩
  next =>
    refine Or.inr ⟨_, _, rfl, rfl, shifted_reconcileCurrent _ (shifted_observed offset h), ?_⟩
    unfold reconcileCurrent
    repeat' split
    all_goals simp

theorem shifted_emptyDecision (playlist : Playlist) (h : r.Shifted base base' r') :
    (r.emptyDecision playlist).Shifted base base' (r'.emptyDecision playlist) := by
  unfold emptyDecision
  rw [h.history]
  split
  · exact .exhausted
  · exact .noEligible

theorem shifted_select (playlist : Playlist) (offset : Nat) (unavailable : List String)
    (h : r.Shifted base base' r')
    (hfits : base + offset + playlist.durationSeconds * 1000 < 2 ^ 64)
    (hfits' : base' + offset + playlist.durationSeconds * 1000 < 2 ^ 64) :
    (select playlist (base + offset) unavailable false r).1.Shifted base base'
        (select playlist (base' + offset) unavailable false r').1 ∧
      (select playlist (base + offset) unavailable false r).2.Shifted base base'
        (select playlist (base' + offset) unavailable false r').2 := by
  have hnext : playlist.nextEligibleIndex r'.currentIndex r'.seed
        (r'.exclusions playlist unavailable) =
      playlist.nextEligibleIndex r.currentIndex r.seed (r.exclusions playlist unavailable) := by
    rw [h.currentIndex, h.seed, exclusions, h.history, exclusions]
  unfold select
  rw [hnext]
  split
  next =>
    have hcleared : Shifted base base'
        { r with currentIndex := none, currentWallpaperId := none, deadlineMs := none,
                 pausedRemainingMs := none }
        { r' with currentIndex := none, currentWallpaperId := none, deadlineMs := none,
                  pausedRemainingMs := none } :=
      ⟨rfl, rfl, rfl, h.seed, h.history, fun _ => rfl, h.regressed⟩
    exact ⟨shifted_emptyDecision playlist hcleared, hcleared⟩
  next index _ =>
    rw [saturatingAdd64_eq hfits, saturatingAdd64_eq hfits']
    refine ⟨.advanced (by omega), rfl, rfl, rfl, ?_, ?_, fun _ => ?_, h.regressed⟩
    · rw [h.seed]
    · rw [h.history]
    simp only [Option.map_some, Option.some.injEq]
    omega

/-- Both play without a deadline, or to deadlines as far from their bases. -/
theorem Shifted.deadlines (h : r.Shifted base base' r') (hp : r.pausedRemainingMs = none) :
    (r.deadlineMs = none ∧ r'.deadlineMs = none) ∨
      ∃ d d', r.deadlineMs = some d ∧ r'.deadlineMs = some d' ∧ d' - base' = d - base := by
  have hd := h.deadline hp
  cases hr : r.deadlineMs <;> cases hr' : r'.deadlineMs <;> simp_all

theorem shifted_tickReconciled (playlist : Playlist) (offset : Nat) (unavailable : List String)
    (h : r.Shifted base base' r')
    (hfits : base + offset + playlist.durationSeconds * 1000 < 2 ^ 64)
    (hfits' : base' + offset + playlist.durationSeconds * 1000 < 2 ^ 64) :
    (tickReconciled playlist (base + offset) unavailable r).1.Shifted base base'
        (tickReconciled playlist (base' + offset) unavailable r').1 ∧
      (tickReconciled playlist (base + offset) unavailable r).2.Shifted base base'
        (tickReconciled playlist (base' + offset) unavailable r').2 := by
  have hselect := shifted_select playlist offset unavailable h hfits hfits'
  unfold tickReconciled
  rw [h.currentIndex, h.pausedRemainingMs]
  cases hi : r.currentIndex with
  | none => exact hselect
  | some index =>
    cases hp : r.pausedRemainingMs with
    | some remaining => exact ⟨.paused, h⟩
    | none =>
      rcases h.deadlines hp with ⟨hd, hd'⟩ | ⟨d, d', hd, hd', hshift⟩
      · simp only [hd, hd']
        exact hselect
      · have hlt : decide (base' + offset < d') = decide (base + offset < d) :=
          decide_eq_decide.mpr (by omega)
        have hremaining : d' - (base' + offset) = d - (base + offset) := by omega
        simp only [hd, hd', hlt, hremaining]
        split
        · exact ⟨.waiting, h⟩
        · exact hselect

theorem shifted_pauseReconciled (playlist : Playlist) (offset : Nat)
    (h : r.Shifted base base' r') :
    (pauseReconciled playlist (base + offset) r).1.Shifted base base'
        (pauseReconciled playlist (base' + offset) r').1 ∧
      (pauseReconciled playlist (base + offset) r).2.Shifted base base'
        (pauseReconciled playlist (base' + offset) r').2 := by
  have hremaining : r'.pausedRemainingMs.getD
        (r'.deadlineMs.getD (base' + offset) - (base' + offset)) =
      r.pausedRemainingMs.getD (r.deadlineMs.getD (base + offset) - (base + offset)) := by
    rw [h.pausedRemainingMs]
    cases hp : r.pausedRemainingMs with
    | some remaining => rfl
    | none =>
      rcases h.deadlines hp with ⟨hd, hd'⟩ | ⟨d, d', hd, hd', hshift⟩
      · simp [hd, hd']
      · simp only [hd, hd', Option.getD_none, Option.getD_some]
        omega
  unfold pauseReconciled
  rw [hremaining, h.currentIndex]
  split
  next => exact ⟨shifted_emptyDecision playlist h, h⟩
  next index hi =>
    exact ⟨.paused, rfl, h.currentWallpaperId, rfl, h.seed, h.history, nofun, h.regressed⟩

theorem shifted_resumeReconciled (playlist : Playlist) (offset : Nat)
    (h : r.Shifted base base' r')
    (hfits : ∀ remaining, r.pausedRemainingMs = some remaining →
      base + offset + remaining < 2 ^ 64)
    (hfits' : ∀ remaining, r.pausedRemainingMs = some remaining →
      base' + offset + remaining < 2 ^ 64) :
    (resumeReconciled playlist (base + offset) r).1.Shifted base base'
        (resumeReconciled playlist (base' + offset) r').1 ∧
      (resumeReconciled playlist (base + offset) r).2.Shifted base base'
        (resumeReconciled playlist (base' + offset) r').2 := by
  unfold resumeReconciled
  rw [h.currentIndex, h.pausedRemainingMs]
  split
  next => exact ⟨shifted_emptyDecision playlist h, h⟩
  next index hi =>
    cases hp : r.pausedRemainingMs with
    | some remaining =>
      simp only [saturatingAdd64_eq (hfits remaining hp), saturatingAdd64_eq (hfits' remaining hp),
        Option.getD_some, Nat.add_sub_cancel_left]
      refine ⟨.waiting, rfl, h.currentWallpaperId, rfl, h.seed, h.history, fun _ => ?_,
        h.regressed⟩
      simp only [Option.map_some, Option.some.injEq]
      omega
    | none =>
      refine ⟨?_, h⟩
      rcases h.deadlines hp with ⟨hd, hd'⟩ | ⟨d, d', hd, hd', hshift⟩
      · simp only [hd, hd', Option.getD_none, Nat.sub_self]
        exact .waiting
      · have hremaining : d' - (base' + offset) = d - (base + offset) := by omega
        simp only [hd, hd', Option.getD_some, hremaining]
        exact .waiting

/-- Shifted runtimes have one snapshot. -/
theorem shifted_snapshot (playlist : Playlist) (offset : Nat) (h : r.Shifted base base' r') :
    r'.snapshot playlist (base' + offset) = r.snapshot playlist (base + offset) := by
  have hcapture : r'.capture playlist (base' + offset) = r.capture playlist (base + offset) := by
    unfold capture
    rw [h.currentIndex, h.currentWallpaperId, h.pausedRemainingMs, h.seed, h.history]
    cases hp : r.pausedRemainingMs with
    | some remaining => rfl
    | none =>
      rcases h.deadlines hp with ⟨hd, hd'⟩ | ⟨d, d', hd, hd', hshift⟩
      · simp [hd, hd']
      · have hremaining : d' - (base' + offset) = d - (base + offset) := by omega
        simp only [hd, hd', Option.map_some, hremaining]
  unfold snapshot
  rw [h.regressed offset, hcapture]

end PlaylistRuntime

/-! ## One call -/

theorem shifted_perform {base base' : Nat} {r r' : PlaylistRuntime} (c : Call)
    (h : r.Shifted base base' r') (hfits : c.Fits base r ∧ c.Fits base' r) :
    (c.perform base r).1.Shifted base base' (c.perform base' r').1 ∧
      (c.perform base r).2.Shifted base base' (c.perform base' r').2 := by
  cases c with
  | tick playlist offset unavailable =>
    simp only [Call.perform, PlaylistRuntime.tick]
    split
    next => exact ⟨.failed, h⟩
    next => exact ⟨.failed, h⟩
    next =>
      rcases PlaylistRuntime.shifted_observe playlist offset h with
        ⟨detail, ho, ho'⟩ | ⟨s, s', ho, ho', hs, -⟩
      · rw [ho, ho']
        exact ⟨.failed, h⟩
      · rw [ho, ho']
        obtain ⟨hd, hr⟩ := PlaylistRuntime.shifted_tickReconciled playlist offset unavailable hs
          hfits.1 hfits.2
        exact ⟨.decision hd, hr⟩
  | pause playlist offset =>
    simp only [Call.perform, PlaylistRuntime.pause]
    split
    next => exact ⟨.failed, h⟩
    next =>
      rcases PlaylistRuntime.shifted_observe playlist offset h with
        ⟨detail, ho, ho'⟩ | ⟨s, s', ho, ho', hs, -⟩
      · rw [ho, ho']
        exact ⟨.failed, h⟩
      · rw [ho, ho']
        obtain ⟨hd, hr⟩ := PlaylistRuntime.shifted_pauseReconciled playlist offset hs
        exact ⟨.decision hd, hr⟩
  | resume playlist offset =>
    simp only [Call.perform, PlaylistRuntime.resume]
    split
    next => exact ⟨.failed, h⟩
    next =>
      rcases PlaylistRuntime.shifted_observe playlist offset h with
        ⟨detail, ho, ho'⟩ | ⟨s, s', ho, ho', hs, hpaused⟩
      · rw [ho, ho']
        exact ⟨.failed, h⟩
      · rw [ho, ho']
        have fits : ∀ b, Call.Fits b r (.resume playlist offset) →
            ∀ remaining, s.pausedRemainingMs = some remaining → b + offset + remaining < 2 ^ 64 := by
          intro b hb remaining hremaining
          rcases hpaused with hsame | hnone
          · exact hb remaining (hsame ▸ hremaining)
          · simp [hnone] at hremaining
        obtain ⟨hd, hr⟩ := PlaylistRuntime.shifted_resumeReconciled playlist offset hs
          (fits base hfits.1) (fits base' hfits.2)
        exact ⟨.decision hd, hr⟩
  | snapshot playlist offset =>
    simp only [Call.perform]
    rw [PlaylistRuntime.shifted_snapshot playlist offset h]
    exact ⟨.captured, h⟩

/-! ## Restoring -/

/-- The runtime anchored at `now'` is the one its snapshot was taken of at
`now`, shifted. -/
theorem shifted_anchor {playlist : Playlist} {now now' : Nat} {r : PlaylistRuntime} (h : r.Wf)
    (hnow : r.regressed now = false)
    (hfits : r.pausedRemainingMs = none → ∀ d, r.deadlineMs = some d → now' + (d - now) < 2 ^ 64) :
    r.Shifted now now' (.anchor (r.capture playlist now) now') := by
  refine ⟨rfl, rfl, rfl, rfl, rfl, fun hp => ?_, fun offset => ?_⟩
  · rcases h.positioned with ⟨hi, -, hd, -⟩ | ⟨index, name, hi, -, -, -, htiming⟩
    · simp [PlaylistRuntime.anchor, PlaylistRuntime.capture, hi, hd]
    · obtain ⟨d, hd⟩ := Option.isSome_iff_exists.mp (htiming.resolve_right (by simp [hp]))
      have heq := PlaylistRuntime.saturatingAdd64_eq (hfits hp d hd)
      simp only [PlaylistRuntime.anchor, PlaylistRuntime.capture, hi, hd, hp, Option.isSome_none,
        Bool.false_eq_true, if_false, Option.isSome_some, if_true, Option.map_some, heq,
        Option.some.injEq]
      omega
  · have hlast : ∀ last, r.lastNowMs = some last → ¬ now + offset < last := by
      intro last hlast
      have hle : ¬ now < last := by simpa [PlaylistRuntime.regressed, hlast] using hnow
      omega
    cases hl : r.lastNowMs with
    | none => simp [PlaylistRuntime.regressed, PlaylistRuntime.anchor, hl]
    | some last =>
      have hle := hlast last hl
      simp only [PlaylistRuntime.regressed, PlaylistRuntime.anchor, hl, Option.any_some]
      exact decide_eq_decide.mpr ⟨fun hlt => by omega, fun hlt => absurd hlt hle⟩

/-- The current entry stands at its index in the playlist. -/
def PlaylistRuntime.InPlace (playlist : Playlist) (r : PlaylistRuntime) : Prop :=
  ∀ name, r.currentWallpaperId = some name →
    ∃ index, r.currentIndex = some index ∧ playlist.entries[index]? = some name

theorem PlaylistRuntime.reconcileCurrent_inPlace {playlist : Playlist} {r : PlaylistRuntime}
    (h : r.Wf) (hplace : r.InPlace playlist) : reconcileCurrent playlist r = r := by
  unfold reconcileCurrent
  rcases h.positioned with ⟨hi, hname, -, -⟩ | ⟨index, name, hi, hname, -⟩
  · cases r
    simp_all
  · obtain ⟨index', hi', hentry⟩ := hplace name hname
    rw [hname]
    simp [hi', hentry]

/-- The answers to the calls of a runtime whose clock counts from `base`. -/
def answers (base : Nat) (r : PlaylistRuntime) (calls : List Call) : List Answer :=
  Simulation.outputs (fun r c => Call.perform base r c) r calls

/-- **Restoring continues.**  At any time that does not regress, the snapshot
of a reachable runtime succeeds and is valid, and any runtime restored from it
answers every later sequence of calls as the original does once it is
reconciled against the playlist given to `restore`; where the current entry
stands at its index in that playlist, as the original itself does. -/
theorem restore_snapshot (r into : PlaylistRuntime) (playlist playlist' : Playlist)
    (now now' : Nat) (calls : List Call) (hr : r.Reachable)
    (hp : playlist.validate = .ok ()) (hp' : playlist'.validate = .ok ())
    (hid : playlist'.id = playlist.id) (hnow : r.regressed now = false)
    (hanchor : r.pausedRemainingMs = none →
      ∀ d, r.deadlineMs = some d → now' + (d - now) < 2 ^ 64)
    (hfits : Runs.Along (fun r c => (Call.perform now r c).2)
      (fun r c => c.Fits now r ∧ c.Fits now' r) (r.reconcileCurrent playlist') calls) :
    ∃ snapshot restored, r.snapshot playlist now = .ok snapshot ∧ snapshot.validate = .ok () ∧
      into.restore snapshot playlist' now' = (.ok (), restored) ∧
      List.Forall₂ (Answer.Shifted now now') (answers now (r.reconcileCurrent playlist') calls)
        (answers now' restored calls) ∧
      (r.InPlace playlist' → r.reconcileCurrent playlist' = r) := by
  obtain ⟨hsnapshot, hvalid⟩ := PlaylistRuntime.snapshot_ok hr.wf hp hnow
  refine ⟨_, (PlaylistRuntime.anchor (r.capture playlist now) now').reconcileCurrent playlist',
    hsnapshot, hvalid, ?_, ?_, PlaylistRuntime.reconcileCurrent_inPlace hr.wf⟩
  · unfold PlaylistRuntime.restore
    rw [hvalid, hp']
    exact if_neg (not_not_intro hid.symm)
  · refine Simulation.outputs_related
      (R := PlaylistRuntime.Shifted now now') (fun s t c h hc => shifted_perform c h hc) ?_ hfits
    exact PlaylistRuntime.shifted_reconcileCurrent playlist'
      (shifted_anchor hr.wf hnow hanchor)

/-- The playlist `daily`, five minutes an entry. -/
def Playlist.daily (entries : List String) : Playlist where
  id := "daily"
  title := "Daily"
  entries := entries
  shuffle := false
  repeat_ := true
  durationSeconds := 300
  transition := .none
  transitionSeconds := 0

/-- A runtime that plays `b`, the second entry, since `300000`. -/
def playingB : PlaylistRuntime :=
  (((PlaylistRuntime.new 7).start (.daily ["a", "b"]) 0 []).2.tick (.daily ["a", "b"]) 300000 []).2

theorem reachable_playingB : playingB.Reachable :=
  .tick _ _ _ (.start _ _ _ (.new 7))

theorem restore_snapshot_playingB :
    ∃ snapshot restored, playingB.snapshot (.daily ["a", "b"]) 310000 = .ok snapshot ∧
      snapshot.validate = .ok () ∧
      (PlaylistRuntime.new 0).restore snapshot (.daily ["b", "c"]) 1000 = (.ok (), restored) ∧
      List.Forall₂ (Answer.Shifted 310000 1000)
        (answers 310000 (playingB.reconcileCurrent (.daily ["b", "c"]))
          [.pause (.daily ["b", "c"]) 500, .tick (.daily ["b", "c"]) 9000 []])
        (answers 1000 restored
          [.pause (.daily ["b", "c"]) 500, .tick (.daily ["b", "c"]) 9000 []]) ∧
      (playingB.InPlace (.daily ["b", "c"]) →
        playingB.reconcileCurrent (.daily ["b", "c"]) = playingB) := by
  refine restore_snapshot playingB (.new 0) _ _ 310000 1000 _ reachable_playingB (by decide)
    (by decide) rfl (by decide) ?_ ⟨⟨trivial, trivial⟩, ⟨?_, ?_⟩, trivial⟩
  · intro _ d hd
    obtain rfl : 600000 = d := by
      rw [show playingB.deadlineMs = some 600000 by decide] at hd
      exact Option.some.inj hd
    decide
  · show 310000 + 9000 + 300 * 1000 < 2 ^ 64
    decide
  · show 1000 + 9000 + 300 * 1000 < 2 ^ 64
    decide

/-- A snapshot taken and restored while `b` is out of the playlist forgets
`b`; the original still plays it once it is back. -/
theorem restore_forgets_missing_entry :
    ∃ snapshot restored, playingB.snapshot (.daily ["a"]) 310000 = .ok snapshot ∧
      (PlaylistRuntime.new 0).restore snapshot (.daily ["a"]) 1000 = (.ok (), restored) ∧
      answers 310000 playingB [.tick (.daily ["a", "b"]) 0 []] =
        [.decision (.ok (.waiting "b" 1 290000))] ∧
      answers 1000 restored [.tick (.daily ["a", "b"]) 0 []] =
        [.decision (.ok (.advanced "a" 0 301000))] ∧
      ¬ List.Forall₂ (Answer.Shifted 310000 1000)
        (answers 310000 playingB [.tick (.daily ["a", "b"]) 0 []])
        (answers 1000 restored [.tick (.daily ["a", "b"]) 0 []]) := by
  have horiginal : answers 310000 playingB [.tick (.daily ["a", "b"]) 0 []] =
      [.decision (.ok (.waiting "b" 1 290000))] := by
    decide
  have hrestored : answers 1000 ((PlaylistRuntime.new 0).restore
      (playingB.capture (.daily ["a"]) 310000) (.daily ["a"]) 1000).2
      [.tick (.daily ["a", "b"]) 0 []] = [.decision (.ok (.advanced "a" 0 301000))] := by
    decide +kernel
  refine ⟨playingB.capture (.daily ["a"]) 310000, _, by decide, by decide, horiginal, hrestored, ?_⟩
  rw [horiginal, hrestored]
  rintro (_ | ⟨⟨h⟩, _⟩)
  cases h

end Kwe.Playlists
