import Kwe.Playlists.Wellformed

/-!
Which entries a tick selects from.

* `nextEligibleIndex_sound`, `nextEligibleIndex_eq_none_iff`: what is selected
  is eligible and in reach, and nothing is selected only when nothing is.
* `tick_truthful`: a tick reports an empty playlist truthfully, unless every
  eligible entry lies behind the current one.
-/

namespace Kwe.Playlists

/-! ## Reach -/

/-- The entry at `index` is in reach of the selection from `current`: without
repeat a shuffle leaves the current entry out, and the scan starts after it. -/
def Playlist.InReach (playlist : Playlist) (current : Option Nat) (index : Nat) : Prop :=
  playlist.repeat_ = true ∨
    ∀ i, current = some i → if playlist.shuffle then index ≠ i else i < index

theorem filter_current {current : Option Nat} {n : Nat}
    (h : ∀ i, current = some i → i < n) :
    (current.filter fun index => decide (index < n)) = current := by
  cases current with
  | none => rfl
  | some i => simp [Option.filter, h i rfl]

/-- An index is left out when its entry is excluded. -/
private theorem eligible_iff {playlist : Playlist} {excluded : List String} {index : Nat}
    (hsize : excluded.length ≤ maxEntries) :
    (!(excluded.take maxEntries).contains (playlist.entries.getD index "")) = true ↔
      playlist.entry index ∉ excluded := by
  rw [List.take_of_length_le hsize]
  simp [Playlist.entry]

/-- The indices a sequential scan visits. -/
private theorem mem_scan {playlist : Playlist} {n start index : Nat} (hstart : start ≤ n) :
    index ∈ ((((List.range n).map (start + ·)).takeWhile fun i =>
      playlist.repeat_ || decide (i < n)).map (· % n)) ↔
      index < n ∧ (playlist.repeat_ = true ∨ start ≤ index) := by
  cases hrepeat : playlist.repeat_ with
  | true =>
    have hall : ((List.range n).map (start + ·)).takeWhile (fun i => true || decide (i < n)) =
        (List.range n).map (start + ·) := by
      rw [List.takeWhile_eq_self_iff]
      simp
    rw [hall]
    simp only [List.map_map, List.mem_map, List.mem_range, Function.comp_apply, true_or, and_true]
    constructor
    · rintro ⟨offset, hoffset, rfl⟩
      exact Nat.mod_lt _ (by omega)
    · intro hindex
      -- The offset that wraps around to `index`.
      by_cases hle : start ≤ index
      · exact ⟨index - start, by omega, by
          rw [Nat.add_sub_cancel' hle, Nat.mod_eq_of_lt hindex]⟩
      · refine ⟨index + n - start, by omega, ?_⟩
        rw [Nat.add_sub_cancel' (by omega), Nat.add_mod_right, Nat.mod_eq_of_lt hindex]
  | false =>
    have hcut : ((List.range n).map (start + ·)).takeWhile (fun i => false || decide (i < n)) =
        (List.range (n - start)).map (start + ·) := by
      have hsplit : List.range n = List.range (n - start) ++
          (List.range start).map (n - start + ·) := by
        rw [← List.range_add, Nat.sub_add_cancel hstart]
      rw [hsplit, List.map_append, List.takeWhile_append_of_pos]
      · rw [List.append_right_eq_self, List.takeWhile_eq_nil_iff]
        intro hpos
        simp
        omega
      · intro i hi
        simp only [List.mem_map, List.mem_range] at hi
        obtain ⟨offset, hoffset, rfl⟩ := hi
        simp
        omega
    rw [hcut]
    simp only [List.map_map, List.mem_map, List.mem_range, Function.comp_apply, Bool.false_eq_true,
      false_or]
    constructor
    · rintro ⟨offset, hoffset, rfl⟩
      rw [Nat.mod_eq_of_lt (by omega)]
      omega
    · rintro ⟨hindex, hle⟩
      exact ⟨index - start, by omega, by
        rw [Nat.add_sub_cancel' hle, Nat.mod_eq_of_lt hindex]⟩

private theorem scan_start {current : Option Nat} {n : Nat} (h : ∀ i, current = some i → i < n) :
    (current.map (· + 1)).getD 0 ≤ n := by
  cases current with
  | none => exact Nat.zero_le n
  | some i => exact h i rfl

/-- What is selected is in the playlist, not excluded and in reach. -/
theorem Playlist.nextEligibleIndex_sound {playlist : Playlist} {current : Option Nat}
    {seed : UInt64} {excluded : List String} {index : Nat}
    (hsize : excluded.length ≤ maxEntries)
    (hcurrent : ∀ i, current = some i → i < playlist.entries.length)
    (h : playlist.nextEligibleIndex current seed excluded = some index) :
    index < playlist.entries.length ∧ playlist.entry index ∉ excluded ∧
      playlist.InReach current index := by
  refine ⟨nextEligibleIndex_lt h, ?_⟩
  unfold nextEligibleIndex at h
  simp only [filter_current hcurrent] at h
  split at h
  next => cases h
  next hn =>
    split at h
    next hshuffle =>
      split at h
      next =>
        obtain ⟨hindex, hkeep⟩ := Option.filter_eq_some_iff.mp h
        rw [Bool.and_eq_true, eligible_iff hsize] at hkeep
        exact ⟨hkeep.2, Or.inl hkeep.1⟩
      next =>
        have hmem := (List.mem_filter.mp (List.mem_of_getElem? h)).2
        rw [Bool.and_eq_true, eligible_iff hsize, decide_eq_true_eq] at hmem
        refine ⟨hmem.2, Or.inr fun i hi => ?_⟩
        rw [if_pos hshuffle]
        rintro rfl
        exact hmem.1 hi.symm
    next hshuffle =>
      have heligible := List.find?_some h
      rw [eligible_iff hsize] at heligible
      refine ⟨heligible, ?_⟩
      have hscan := (mem_scan (scan_start hcurrent)).mp (List.mem_of_find?_eq_some h)
      refine hscan.2.imp_right fun hstart i hi => ?_
      rw [if_neg hshuffle]
      rw [hi] at hstart
      exact hstart

/-- Nothing is selected only when nothing in reach is left. -/
theorem Playlist.nextEligibleIndex_complete {playlist : Playlist} {current : Option Nat}
    {seed : UInt64} {excluded : List String} (hsize : excluded.length ≤ maxEntries)
    (hcurrent : ∀ i, current = some i → i < playlist.entries.length)
    (h : playlist.nextEligibleIndex current seed excluded = none) {index : Nat}
    (hindex : index < playlist.entries.length) (heligible : playlist.entry index ∉ excluded) :
    ¬ playlist.InReach current index := by
  rw [← eligible_iff hsize] at heligible
  unfold nextEligibleIndex at h
  simp only [filter_current hcurrent] at h
  rw [if_neg (by omega)] at h
  split at h
  next hshuffle =>
    split at h
    next hempty =>
      -- Only the current entry is left, and it may not be selected again.
      have hself : current = some index := by
        have hleft := List.filter_eq_nil_iff.mp (List.isEmpty_iff.mp hempty) index
          (List.mem_range.mpr hindex)
        rw [heligible, Bool.and_true, decide_eq_true_eq, not_not] at hleft
        exact hleft.symm
      rw [hself, Option.filter_some, heligible, Bool.and_true] at h
      rintro (hrepeat | hreach)
      · rw [hrepeat] at h
        cases h
      · exact (if_pos hshuffle ▸ hreach index hself) rfl
    next hsome =>
      rw [List.isEmpty_iff, ← List.length_eq_zero_iff] at hsome
      rw [List.getElem?_eq_none_iff] at h
      have hlt := Nat.mod_lt (mixSeed seed).toNat (Nat.pos_of_ne_zero hsome)
      exact absurd h (Nat.not_le.mpr hlt)
  next hshuffle =>
    intro hreach
    refine List.find?_eq_none.mp h index ((mem_scan (scan_start hcurrent)).mpr
      ⟨hindex, hreach.imp_right fun hafter => ?_⟩) heligible
    cases hi : current with
    | none => exact Nat.zero_le _
    | some i =>
      have hlt := hafter i hi
      rw [if_neg hshuffle] at hlt
      exact hlt

/-! ## Ticks -/

/-- Three entries played once, in order. -/
def onceInOrder : Playlist where
  id := "daily"
  title := "Daily"
  entries := ["one", "two", "three"]
  shuffle := false
  repeat_ := false
  durationSeconds := 10
  transition := .none
  transitionSeconds := 0

namespace PlaylistRuntime

/-- The entry at `index` may be selected. -/
def Eligible (playlist : Playlist) (unavailable : List String) (r : PlaylistRuntime)
    (index : Nat) : Prop :=
  index < playlist.entries.length ∧ playlist.entry index ∉ unavailable ∧
    (playlist.repeat_ = false → playlist.entry index ∉ r.history)

/-- What the outcome of a tick says of the eligible entries is so. -/
def Truthful (playlist : Playlist) (unavailable : List String) (r : PlaylistRuntime) :
    Except String PlaylistDecision → Prop
  | .ok (.advanced id index _) =>
    r.Eligible playlist unavailable index ∧ id = playlist.entry index
  | .ok .exhausted | .ok .noEligible => ∀ index, ¬ r.Eligible playlist unavailable index
  | _ => True

/-- A tick at `now` is accepted and has to replace the current entry `i`: it is
not paused, and its deadline is over or it is unavailable. -/
structure Due (playlist : Playlist) (now : Nat) (unavailable : List String) (r : PlaylistRuntime)
    (i : Nat) : Prop where
  valid : playlist.validate = .ok ()
  bounded : validateUnavailable unavailable = .ok ()
  time : r.regressed now = false
  current : (reconcileCurrent playlist r).currentIndex = some i
  running : r.pausedRemainingMs = none
  expired : ∀ deadline, r.deadlineMs = some deadline → now < deadline →
    playlist.entry i ∈ unavailable

/-- Without repeat, every eligible entry lies behind the current one: at or
before it in a sequence, and at it in a shuffle. -/
structure Overlooks (playlist : Playlist) (now : Nat) (unavailable : List String)
    (r : PlaylistRuntime) : Prop where
  once : playlist.repeat_ = false
  left : ∃ index, r.Eligible playlist unavailable index
  behind : ∃ i, r.Due playlist now unavailable i ∧
    ∀ index, r.Eligible playlist unavailable index →
      if playlist.shuffle then index = i else index ≤ i

theorem mem_exclusions {playlist : Playlist} {unavailable : List String} {r : PlaylistRuntime}
    {index : Nat} (hindex : index < playlist.entries.length) :
    playlist.entry index ∉ r.exclusions playlist unavailable ↔
      r.Eligible playlist unavailable index := by
  have hmem := Playlist.entry_mem hindex
  simp [exclusions, Eligible, hmem, hindex]

theorem length_exclusions_le {playlist : Playlist} (hv : playlist.Valid)
    (unavailable : List String) (r : PlaylistRuntime) :
    (r.exclusions playlist unavailable).length ≤ maxEntries :=
  Nat.le_trans (List.length_filter_le _ _) hv.size

/-- **A selection is truthful** unless every eligible entry is out of reach. -/
theorem select_truthful {playlist : Playlist} {unavailable : List String} {r : PlaylistRuntime}
    (hv : playlist.Valid) (now : Nat)
    (hcurrent : ∀ i, r.currentIndex = some i → i < playlist.entries.length) :
    r.Truthful playlist unavailable (.ok (select playlist now unavailable false r).1) ↔
      ¬ ((∃ index, r.Eligible playlist unavailable index) ∧
        ∀ index, r.Eligible playlist unavailable index →
          ¬ playlist.InReach r.currentIndex index) := by
  have hsize := length_exclusions_le hv unavailable r
  unfold select
  split
  next hnone =>
    have hout : ∀ index, r.Eligible playlist unavailable index →
        ¬ playlist.InReach r.currentIndex index := fun index h =>
      Playlist.nextEligibleIndex_complete hsize hcurrent hnone h.1 ((mem_exclusions h.1).mpr h)
    have hempty : r.Truthful playlist unavailable (.ok (emptyDecision playlist r)) ↔
        ∀ index, ¬ r.Eligible playlist unavailable index := by
      unfold emptyDecision
      split <;> rfl
    refine hempty.trans ⟨fun h hleft => ?_, fun h index hindex => h ⟨⟨index, hindex⟩, hout⟩⟩
    obtain ⟨index, hindex⟩ := hleft.1
    exact h index hindex
  next index hsome =>
    obtain ⟨hlt, hkept, hreach⟩ := Playlist.nextEligibleIndex_sound hsize hcurrent hsome
    have heligible := (mem_exclusions hlt).mp hkept
    exact iff_of_true ⟨heligible, rfl⟩ fun h => h.2 index heligible hreach

/-- Reconciling finds the current entry again, or forgets it. -/
theorem reconcileCurrent_cases (playlist : Playlist) (r : PlaylistRuntime) :
    (reconcileCurrent playlist r).currentIndex = none ∨
      ∃ i, (reconcileCurrent playlist r).currentIndex = some i ∧ i < playlist.entries.length ∧
        (reconcileCurrent playlist r).deadlineMs = r.deadlineMs ∧
        (reconcileCurrent playlist r).pausedRemainingMs = r.pausedRemainingMs := by
  unfold reconcileCurrent
  split
  next => exact Or.inl rfl
  next id _ =>
    split
    next hat =>
      cases hi : r.currentIndex with
      | none => simp [hi] at hat
      | some i =>
        rw [hi, Option.any_some, decide_eq_true_eq] at hat
        have hlt := (List.getElem?_eq_some_iff.mp hat).1
        exact Or.inr ⟨i, rfl, hlt, rfl, rfl⟩
    next =>
      split
      next j hj =>
        have hj := (List.findIdx?_eq_some_iff_findIdx_eq.mp hj).1
        exact Or.inr ⟨j, rfl, hj, rfl, rfl⟩
      next => exact Or.inl rfl

/-- A valid current entry is left alone. -/
theorem reconcileCurrent_eq {playlist : Playlist} {r : PlaylistRuntime} {i : Nat}
    (hrange : i < playlist.entries.length) (hindex : r.currentIndex = some i)
    (hname : r.currentWallpaperId = some (playlist.entry i)) :
    reconcileCurrent playlist r = r := by
  have hentry : playlist.entries[i]? = some (playlist.entry i) := by
    simp [Playlist.entry, List.getD_eq_getElem?_getD, hrange]
  unfold reconcileCurrent
  rw [hname, hindex]
  simp [hentry]

/-- The runtime an accepted operation acts on. -/
def observed (playlist : Playlist) (now : Nat) (r : PlaylistRuntime) : PlaylistRuntime :=
  { reconcileCurrent playlist r with lastNowMs := some now }

@[simp] theorem observed_history (playlist : Playlist) (now : Nat) (r : PlaylistRuntime) :
    (r.observed playlist now).history = r.history := by
  unfold observed reconcileCurrent
  repeat' split
  all_goals rfl

theorem observe_eq (playlist : Playlist) (now : Nat) (r : PlaylistRuntime) :
    r.observe playlist now =
      if r.regressed now then .error "playlist monotonic time regressed"
      else .ok (r.observed playlist now) := by
  have hsame : reconcileCurrent playlist { r with lastNowMs := some now } =
      r.observed playlist now := by
    unfold observed reconcileCurrent
    cases hw : r.currentWallpaperId with
    | none => simp
    | some id =>
      dsimp only
      cases r.currentIndex.any fun index => decide (playlist.entries[index]? = some id) with
      | true => simp [hw]
      | false => cases playlist.entries.findIdx? (· = id) <;> simp
  rw [observe, hsame]

/-- A tick fails, or acts on the reconciled runtime. -/
theorem tick_cases (playlist : Playlist) (now : Nat) (unavailable : List String)
    (r : PlaylistRuntime) :
    ((∃ detail, (r.tick playlist now unavailable).1 = .error detail) ∧
        ¬ (playlist.validate = .ok () ∧ validateUnavailable unavailable = .ok () ∧
          r.regressed now = false)) ∨
      ((playlist.validate = .ok () ∧ validateUnavailable unavailable = .ok () ∧
          r.regressed now = false) ∧
        r.tick playlist now unavailable =
          (tickReconciled playlist now unavailable (r.observed playlist now)).map .ok id) := by
  unfold tick
  rw [observe_eq]
  cases hp : playlist.validate with
  | error detail => exact Or.inl ⟨⟨detail, rfl⟩, by simp⟩
  | ok =>
    cases hu : validateUnavailable unavailable with
    | error detail => exact Or.inl ⟨⟨detail, rfl⟩, by simp⟩
    | ok =>
      cases ht : r.regressed now with
      | true => exact Or.inl ⟨⟨_, rfl⟩, by simp⟩
      | false => exact Or.inr ⟨⟨rfl, rfl, rfl⟩, rfl⟩

/-- The current entry `i` is not paused and has to be replaced. -/
private def MustReplace (playlist : Playlist) (now : Nat) (unavailable : List String)
    (r : PlaylistRuntime) (i : Nat) : Prop :=
  r.currentIndex = some i ∧ r.pausedRemainingMs = none ∧
    ∀ deadline, r.deadlineMs = some deadline → now < deadline → playlist.entry i ∈ unavailable

private theorem tickReconciled_truthful {playlist : Playlist} {unavailable : List String}
    {r : PlaylistRuntime} (hv : playlist.Valid) (now : Nat)
    (hcurrent : ∀ i, r.currentIndex = some i → i < playlist.entries.length) :
    r.Truthful playlist unavailable (.ok (tickReconciled playlist now unavailable r).1) ↔
      ¬ ((∃ index, r.Eligible playlist unavailable index) ∧
        ∃ i, r.MustReplace playlist now unavailable i ∧
          ∀ index, r.Eligible playlist unavailable index →
            ¬ playlist.InReach (some i) index) := by
  have hselect : r.Truthful playlist unavailable (.ok (select playlist now unavailable false r).1) ↔
      _ := select_truthful hv now hcurrent
  unfold tickReconciled
  cases hi : r.currentIndex with
  | none =>
    rw [hi] at hselect
    refine hselect.trans (iff_of_true (fun h => ?_) fun h => ?_)
    · obtain ⟨⟨index, hindex⟩, hout⟩ := h
      exact hout index hindex (Or.inr nofun)
    · obtain ⟨-, i, ⟨hcurrent, -⟩, -⟩ := h
      simp [hi] at hcurrent
  | some i =>
    have hchosen : r.pausedRemainingMs = none →
        (∀ deadline, r.deadlineMs = some deadline → now < deadline →
          playlist.entry i ∈ unavailable) →
        (r.Truthful playlist unavailable (.ok (select playlist now unavailable false r).1) ↔
          ¬ ((∃ index, r.Eligible playlist unavailable index) ∧
            ∃ i, r.MustReplace playlist now unavailable i ∧
              ∀ index, r.Eligible playlist unavailable index →
                ¬ playlist.InReach (some i) index)) := by
      intro hpaused hexpired
      rw [hi] at hselect
      refine hselect.trans (not_congr (and_congr_right fun _ => ⟨fun hout => ?_, ?_⟩))
      · exact ⟨i, ⟨hi, hpaused, hexpired⟩, hout⟩
      · rintro ⟨j, ⟨hj, -⟩, hout⟩
        rw [hi] at hj
        exact Option.some.inj hj ▸ hout
    cases hpaused : r.pausedRemainingMs with
    | some remaining =>
      refine iff_of_true trivial ?_
      rintro ⟨-, j, ⟨-, hnone, -⟩, -⟩
      simp [hpaused] at hnone
    | none =>
      cases hd : r.deadlineMs with
      | none => exact hchosen hpaused (by simp [hd])
      | some deadline =>
        dsimp only
        split
        next hwait =>
          rw [Bool.and_eq_true, decide_eq_true_eq, Bool.not_eq_true'] at hwait
          refine iff_of_true trivial ?_
          rintro ⟨-, j, ⟨hj, -, hexpired⟩, -⟩
          have hmem := hexpired deadline hd hwait.1
          rw [hi] at hj
          rw [← Option.some.inj hj, ← List.contains_iff_mem, hwait.2] at hmem
          cases hmem
        next hdue =>
          refine hchosen hpaused fun d hsame hnow => ?_
          rw [hd] at hsame
          rw [← Option.some.inj hsame] at hnow
          simpa [hnow] using hdue

theorem not_inReach {playlist : Playlist} (hrepeat : playlist.repeat_ = false) (i index : Nat) :
    ¬ playlist.InReach (some i) index ↔ if playlist.shuffle then index = i else index ≤ i := by
  unfold Playlist.InReach
  rw [hrepeat]
  cases playlist.shuffle <;> simp

theorem eligible_congr {playlist : Playlist} {unavailable : List String}
    {r r' : PlaylistRuntime} (h : r'.history = r.history) :
    r'.Eligible playlist unavailable = r.Eligible playlist unavailable := by
  funext index
  unfold Eligible
  rw [h]

private theorem truthful_congr {playlist : Playlist} {unavailable : List String}
    {r r' : PlaylistRuntime} (h : r'.history = r.history) :
    r'.Truthful playlist unavailable = r.Truthful playlist unavailable := by
  funext outcome
  unfold Truthful
  rw [eligible_congr h]

/-- **A tick is truthful** exactly when it overlooks no eligible entry. -/
theorem tick_truthful (playlist : Playlist) (now : Nat) (unavailable : List String)
    (r : PlaylistRuntime) :
    r.Truthful playlist unavailable (r.tick playlist now unavailable).1 ↔
      ¬ r.Overlooks playlist now unavailable := by
  rcases tick_cases playlist now unavailable r with ⟨⟨detail, hfail⟩, hbad⟩ | ⟨⟨hp, hu, ht⟩, hok⟩
  · rw [hfail]
    refine iff_of_true trivial fun h => ?_
    obtain ⟨i, hdue, -⟩ := h.behind
    exact hbad ⟨hdue.valid, hdue.bounded, hdue.time⟩
  · have hcurrent := reconcileCurrent_cases playlist r
    have hrange : ∀ i, (r.observed playlist now).currentIndex = some i →
        i < playlist.entries.length := by
      intro i hi
      rcases hcurrent with hnone | ⟨j, hj, hlt, -⟩
      · cases hnone.symm.trans hi
      · exact Option.some.inj (hj.symm.trans hi) ▸ hlt
    have hreconciled : (r.observed playlist now).Truthful playlist unavailable
        (.ok (tickReconciled playlist now unavailable (r.observed playlist now)).1) ↔ _ :=
      tickReconciled_truthful (Playlist.valid_of_validate hp) now hrange
    rw [truthful_congr (observed_history playlist now r),
      eligible_congr (observed_history playlist now r)] at hreconciled
    rw [hok]
    refine hreconciled.trans (not_congr ⟨?_, fun h => ?_⟩)
    · rintro ⟨⟨index, hindex⟩, i, ⟨hi, hpaused, hexpired⟩, hout⟩
      have hrepeat : playlist.repeat_ = false :=
        Bool.eq_false_iff.mpr fun h => hout index hindex (Or.inl h)
      rcases hcurrent with hnone | ⟨j, hj, -, hdeadline, hremaining⟩
      · cases hnone.symm.trans hi
      · exact ⟨hrepeat, ⟨index, hindex⟩, i,
          ⟨hp, hu, ht, hi, hremaining ▸ hpaused, hdeadline ▸ hexpired⟩,
          fun index hindex => (not_inReach hrepeat i index).mp (hout index hindex)⟩
    · obtain ⟨i, hdue, hbehind⟩ := h.behind
      rcases hcurrent with hnone | ⟨j, hj, -, hdeadline, hremaining⟩
      · cases hnone.symm.trans hdue.current
      · exact ⟨h.left, i, ⟨hdue.current, hremaining ▸ hdue.running, hdeadline ▸ hdue.expired⟩,
          fun index hindex => (not_inReach h.once i index).mpr (hbehind index hindex)⟩

/-- "three" plays because "one" and "two" are away; when they come back, the
scan after "three" finds nothing, and the playlist is said to be exhausted. -/
theorem tick_overlooks : ¬ ∀ (r : PlaylistRuntime) (playlist : Playlist) (now : Nat)
    (unavailable : List String), r.Reachable → playlist.validate = .ok () →
      r.Truthful playlist unavailable (r.tick playlist now unavailable).1 := by
  intro h
  obtain ⟨skipped, hreachable, hexhausted, hunplayed⟩ : ∃ r : PlaylistRuntime, r.Reachable ∧
      (r.tick onceInOrder 11000 []).1 = .ok .exhausted ∧ "two" ∉ r.history := by
    let started := ((new 7).start onceInOrder 0 []).2
    have hreachable : Reachable (started.tick onceInOrder 1000 ["one", "two"]).2 :=
      .tick onceInOrder 1000 ["one", "two"] (.start onceInOrder 0 [] (.new 7))
    exact ⟨_, hreachable, by decide +kernel, by decide +kernel⟩
  have hvalid : onceInOrder.validate = .ok () := by decide +kernel
  have htruthful := h skipped onceInOrder 11000 [] hreachable hvalid
  rw [hexhausted] at htruthful
  exact htruthful 1 ⟨by decide, List.not_mem_nil, fun _ => hunplayed⟩

end PlaylistRuntime

end Kwe.Playlists
