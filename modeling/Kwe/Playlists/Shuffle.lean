import Kwe.Playlists.Selection

/-!
The walk of a repeating shuffle.

* `mixSeed_mod_two`: between two alternatives, bits 0 and 47 of the seed choose.
* `shuffle_covers`: every selection leaves the current entry; two entries take
  turns, and of three entries the middle one is selected at the latest when bit
  47 of the seed changes.
-/

namespace Kwe.Playlists

/-! ## The seed -/

/-- The parity of a mixed seed is that of its bits 0 and 47. -/
theorem mixSeed_mod_two (seed : UInt64) :
    (mixSeed seed).toNat % 2 = (seed.toNat + seed.toNat / 2 ^ 47) % 2 := by
  have hleft : ((seed <<< 17 : UInt64).toNat) % 2 = 0 := by
    rw [UInt64.toNat_shiftLeft, Nat.shiftLeft_eq]
    change seed.toNat * 2 ^ 17 % 2 ^ 64 % 2 = 0
    omega
  have hright : (seed >>> 47 : UInt64).toNat = seed.toNat / 2 ^ 47 := by
    rw [UInt64.toNat_shiftRight, Nat.shiftRight_eq_div_pow]
    rfl
  have hmixed : (mixSeed seed).toNat % 2 =
      (seed.toNat ^^^ ((seed <<< 17 : UInt64).toNat ||| (seed >>> 47 : UInt64).toNat)) % 2 := by
    unfold mixSeed
    rw [UInt64.toNat_mul, UInt64.toNat_xor, UInt64.toNat_or]
    change _ * 0x9E3779B9 % 2 ^ 64 % 2 = _
    omega
  have hor : ((seed <<< 17 : UInt64).toNat ||| seed.toNat / 2 ^ 47) % 2 = 1 ↔
      seed.toNat / 2 ^ 47 % 2 = 1 := by
    rw [Nat.or_mod_two_eq_one, hleft]
    simp
  have hxor := @Nat.xor_mod_two_eq_one seed.toNat
    ((seed <<< 17 : UInt64).toNat ||| seed.toNat / 2 ^ 47)
  rw [hor] at hxor
  rw [hmixed, hright]
  omega
/-- The seed after `k` selections. -/
def seedAfter (seed : UInt64) (k : Nat) : Nat := (seed + UInt64.ofNat k).toNat

theorem seedAfter_eq (seed : UInt64) (k : Nat) :
    seedAfter seed k = (seed.toNat + k) % 2 ^ 64 := by
  unfold seedAfter
  rw [UInt64.toNat_add, UInt64.toNat_ofNat']
  omega

theorem seedAfter_add (seed : UInt64) (k d : Nat) :
    seedAfter seed (k + d) = (seedAfter seed k + d) % 2 ^ 64 := by
  rw [seedAfter_eq, seedAfter_eq]
  omega

theorem seedAfter_lt (seed : UInt64) (k : Nat) : seedAfter seed k < 2 ^ 64 :=
  (seed + UInt64.ofNat k).toNat_lt

/-- Whether the seed after `k` selections chooses the later of two entries. -/
def chooses (seed : UInt64) (k : Nat) : Bool :=
  decide ((seedAfter seed k + seedAfter seed k / 2 ^ 47) % 2 = 1)

private theorem next_seed {u v : Nat} (hu : u < 2 ^ 64) (hv : v = (u + 1) % 2 ^ 64) :
    v = u + 1 ∨ u = 2 ^ 64 - 1 ∧ v = 0 := by
  omega

/-- The same choice twice means that bit 47 has changed. -/
theorem chooses_same {seed : UInt64} {k : Nat} (h : chooses seed (k + 1) = chooses seed k) :
    seedAfter seed (k + 1) % 2 ^ 47 = 0 := by
  have hnext := next_seed (seedAfter_lt seed k) (seedAfter_add seed k 1)
  unfold chooses at h
  rw [decide_eq_decide] at h
  generalize seedAfter seed k = u at h hnext
  generalize seedAfter seed (k + 1) = v at h hnext ⊢
  rcases hnext with rfl | ⟨-, rfl⟩
  · by_contra hne
    have hkept : (u + 1) / 2 ^ 47 = u / 2 ^ 47 := by omega
    omega
  · rfl

/-- The other choice means that it has not. -/
theorem chooses_other {seed : UInt64} {k : Nat} (h : chooses seed (k + 1) ≠ chooses seed k) :
    seedAfter seed (k + 1) / 2 ^ 47 % 2 = seedAfter seed k / 2 ^ 47 % 2 := by
  have hnext := next_seed (seedAfter_lt seed k) (seedAfter_add seed k 1)
  unfold chooses at h
  rw [ne_eq, decide_eq_decide] at h
  generalize seedAfter seed k = u at h hnext ⊢
  generalize seedAfter seed (k + 1) = v at h hnext ⊢
  rcases hnext with rfl | ⟨rfl, rfl⟩
  · omega
  · exact absurd Iff.rfl h

/-- Bit 47 changes every `2 ^ 47` selections. -/
theorem seedAfter_changes (seed : UInt64) (k : Nat) :
    seedAfter seed (k + 2 ^ 47) / 2 ^ 47 % 2 ≠ seedAfter seed k / 2 ^ 47 % 2 := by
  have hlt := seedAfter_lt seed k
  have hadd := seedAfter_add seed k (2 ^ 47)
  generalize seedAfter seed k = u at hlt hadd ⊢
  generalize seedAfter seed (k + 2 ^ 47) = v at hadd ⊢
  have hcases : v = u + 2 ^ 47 ∨ u + 2 ^ 47 = v + 2 ^ 64 := by omega
  rcases hcases with rfl | hwrapped
  · omega
  · omega

/-! ## One selection -/

/-- The entries a shuffle chooses from when all are available. -/
def Playlist.alternatives (playlist : Playlist) (current : Option Nat) : List Nat :=
  (List.range playlist.entries.length).filter fun index => decide (some index ≠ current)

theorem Playlist.alternatives_ne_nil {playlist : Playlist} (h : 2 ≤ playlist.entries.length)
    (current : Option Nat) : playlist.alternatives current ≠ [] := by
  intro hnil
  have hout := fun index (hindex : index < playlist.entries.length) =>
    List.filter_eq_nil_iff.mp hnil index (List.mem_range.mpr hindex)
  have hzero := hout 0 (by omega)
  have hone := hout 1 (by omega)
  simp only [decide_eq_true_eq, not_not] at hzero hone
  rw [← hzero] at hone
  simp at hone

theorem Playlist.nextEligibleIndex_shuffle {playlist : Playlist} {current : Option Nat}
    (hshuffle : playlist.shuffle = true) (h : 2 ≤ playlist.entries.length)
    (hcurrent : ∀ i, current = some i → i < playlist.entries.length) (seed : UInt64) :
    playlist.nextEligibleIndex current seed [] =
      (playlist.alternatives current)[
        (mixSeed seed).toNat % (playlist.alternatives current).length]? := by
  have hfilter : (current.filter fun index => decide (index < playlist.entries.length)) =
      current := filter_current hcurrent
  have hne := alternatives_ne_nil h current
  unfold nextEligibleIndex
  simp only [hfilter, List.take_nil, List.contains_nil, Bool.not_false, Bool.and_true]
  rw [if_neg (by omega), if_pos hshuffle]
  exact if_neg fun hempty => hne (List.isEmpty_iff.mp hempty)

/-- The choice between the two other entries of three. -/
def otherOfThree (i : Nat) (high : Bool) : Nat :=
  if high then (if i = 2 then 1 else 2) else if i = 0 then 1 else 0

theorem nextEligibleIndex_three {playlist : Playlist} (hshuffle : playlist.shuffle = true)
    (hthree : playlist.entries.length = 3) {i : Nat} (hi : i < 3) (seed : UInt64) :
    playlist.nextEligibleIndex (some i) seed [] =
      some (otherOfThree i (decide ((seed.toNat + seed.toNat / 2 ^ 47) % 2 = 1))) := by
  have hbelow : ∀ j, some i = some j → j < playlist.entries.length := by
    intro j hj
    have hsame := Option.some.inj hj
    omega
  rw [Playlist.nextEligibleIndex_shuffle hshuffle (by omega) hbelow, ← mixSeed_mod_two]
  have htwo := Nat.mod_two_eq_zero_or_one (mixSeed seed).toNat
  unfold Playlist.alternatives
  rw [hthree]
  obtain rfl | rfl | rfl : i = 0 ∨ i = 1 ∨ i = 2 := by omega
  all_goals
    rcases htwo with hbit | hbit
    all_goals simp [List.range_succ, hbit, otherOfThree]

theorem nextEligibleIndex_two {playlist : Playlist} (hshuffle : playlist.shuffle = true)
    (htwo : playlist.entries.length = 2) {i : Nat} (hi : i < 2) (seed : UInt64) :
    playlist.nextEligibleIndex (some i) seed [] = some (1 - i) := by
  have hbelow : ∀ j, some i = some j → j < playlist.entries.length := by
    intro j hj
    have hsame := Option.some.inj hj
    omega
  rw [Playlist.nextEligibleIndex_shuffle hshuffle (by omega) hbelow]
  unfold Playlist.alternatives
  rw [htwo]
  obtain rfl | rfl : i = 0 ∨ i = 1 := by omega
  all_goals simp [List.range_succ, Nat.mod_one]

/-! ## Walks over three entries -/

section

variable {x : Nat → Nat} {seed : UInt64} {count : Nat}

/-- An entry at an end is selected within four selections. -/
theorem three_ends (hlt : ∀ k < count, x k < 3)
    (hx : ∀ k, k + 1 < count → x (k + 1) = otherOfThree (x k) (chooses seed (k + 1)))
    {index k : Nat} (hindex : index = 0 ∨ index = 2) (hk : k + 4 ≤ count) :
    ∃ j, k ≤ j ∧ j < k + 4 ∧ x j = index := by
  by_contra hmissing
  simp only [not_exists, not_and] at hmissing
  -- Every one of the three choices is the same.
  have hsame : ∀ j, k ≤ j → j < k + 3 → chooses seed (j + 1) = decide (index = 0) := by
    intro j hlow hhigh
    have hhere := hmissing j hlow (by omega)
    have hnext := hmissing (j + 1) (by omega) (by omega)
    have hbound := hlt j (by omega)
    rw [hx j (by omega)] at hnext
    generalize x j = i at hhere hnext hbound
    obtain rfl | rfl | rfl : i = 0 ∨ i = 1 ∨ i = 2 := by omega
    all_goals
      rcases hindex with rfl | rfl
      all_goals cases hc : chooses seed (j + 1)
      all_goals simp_all [otherOfThree]
  have hfirst := hsame k (by omega) (by omega)
  have hsecond := hsame (k + 1) (by omega) (by omega)
  have hthird := hsame (k + 2) (by omega) (by omega)
  have hchanged := chooses_same (hsecond.trans hfirst.symm)
  have hagain := chooses_same (hthird.trans hsecond.symm)
  have hnext : seedAfter seed (k + 2 + 1) = _ := seedAfter_add seed (k + 1 + 1) 1
  omega

/-- The middle entry is selected before bit 47 of the seed has changed. -/
theorem three_middle (hlt : ∀ k < count, x k < 3)
    (hx : ∀ k, k + 1 < count → x (k + 1) = otherOfThree (x k) (chooses seed (k + 1)))
    {k : Nat} (hk : k + (2 ^ 47 + 2) ≤ count) :
    ∃ j, k ≤ j ∧ j < k + (2 ^ 47 + 2) ∧ x j = 1 := by
  by_contra hmissing
  simp only [not_exists, not_and] at hmissing
  -- Without it, the walk alternates, and so do the choices.
  have hturns : ∀ j, k ≤ j → j + 2 < k + (2 ^ 47 + 2) →
      chooses seed (j + 2) = !chooses seed (j + 1) := by
    intro j hlow hhigh
    have hhere := hmissing j hlow (by omega)
    have hnext := hmissing (j + 1) (by omega) (by omega)
    have hafter := hmissing (j + 2) (by omega) (by omega)
    have hbound := hlt j (by omega)
    rw [hx (j + 1) (by omega)] at hafter
    rw [hx j (by omega)] at hnext hafter
    generalize x j = i at hhere hnext hafter hbound
    obtain rfl | rfl | rfl : i = 0 ∨ i = 1 ∨ i = 2 := by omega
    all_goals
      cases hc : chooses seed (j + 1)
      all_goals cases hd : chooses seed (j + 2)
      all_goals simp_all [otherOfThree]
  have hbit : ∀ m ≤ 2 ^ 47, seedAfter seed (k + 1 + m) / 2 ^ 47 % 2 =
      seedAfter seed (k + 1) / 2 ^ 47 % 2 := by
    intro m
    induction m with
    | zero => exact fun _ => rfl
    | succ m ih =>
      intro hm
      have hturn := hturns (k + m) (by omega) (by omega)
      rw [show k + m + 2 = k + 1 + m + 1 by omega, show k + m + 1 = k + 1 + m by omega] at hturn
      have hother : chooses seed (k + 1 + m + 1) ≠ chooses seed (k + 1 + m) := by
        rw [hturn]
        simp
      exact (chooses_other hother).trans (ih (by omega))
  exact seedAfter_changes seed (k + 1) (hbit (2 ^ 47) (Nat.le_refl _))

end

/-! ## Expired ticks -/

namespace PlaylistRuntime

/-- A tick at `now` finds the deadline over and every entry available. -/
structure Expires (playlist : Playlist) (now : Nat) (unavailable : List String)
    (r : PlaylistRuntime) : Prop where
  bounded : validateUnavailable unavailable = .ok ()
  available : ∀ entry ∈ playlist.entries, entry ∉ unavailable
  time : r.regressed now = false
  running : r.pausedRemainingMs = none
  passed : ∀ deadline, r.deadlineMs = some deadline → deadline ≤ now

/-- The current entry, after reconciling. -/
def position (playlist : Playlist) (r : PlaylistRuntime) : Option Nat :=
  (reconcileCurrent playlist r).currentIndex

theorem position_lt {playlist : Playlist} {r : PlaylistRuntime} {i : Nat}
    (h : r.position playlist = some i) : i < playlist.entries.length := by
  rcases reconcileCurrent_cases playlist r with hnone | ⟨j, hj, hlt, -⟩
  · cases hnone.symm.trans h
  · exact Option.some.inj (hj.symm.trans h) ▸ hlt

@[simp] theorem reconcileCurrent_seed (playlist : Playlist) (r : PlaylistRuntime) :
    (reconcileCurrent playlist r).seed = r.seed := by
  unfold reconcileCurrent
  repeat' split
  all_goals rfl

/-- A selection made the entry at `i` the current one, and left the runtime with
`seed`. -/
structure Selects (playlist : Playlist) (now i : Nat) (seed : UInt64)
    (outcome : Outcome) : Prop where
  decision : outcome.1 = .ok (.advanced (playlist.entry i) i
    (saturatingAdd64 now (playlist.durationSeconds * 1000)))
  index : outcome.2.currentIndex = some i
  name : outcome.2.currentWallpaperId = some (playlist.entry i)
  seed : outcome.2.seed = seed
  last : outcome.2.lastNowMs = some now
  running : outcome.2.pausedRemainingMs = none
  deadline : outcome.2.deadlineMs =
    some (saturatingAdd64 now (playlist.durationSeconds * 1000))

variable {playlist : Playlist} {now : Nat} {unavailable : List String} {r : PlaylistRuntime}

theorem exclusions_eq_nil (hrepeat : playlist.repeat_ = true)
    (havailable : ∀ entry ∈ playlist.entries, entry ∉ unavailable) :
    r.exclusions playlist unavailable = [] := by
  unfold exclusions
  rw [List.filter_eq_nil_iff]
  intro entry hentry
  simp [hrepeat, havailable entry hentry]

/-- **An expired tick selects** from what a shuffle has left. -/
theorem tick_expires (hp : playlist.validate = .ok ()) (hshuffle : playlist.shuffle = true)
    (hrepeat : playlist.repeat_ = true) (h : 2 ≤ playlist.entries.length)
    (hexpires : r.Expires playlist now unavailable) :
    ∃ i, playlist.nextEligibleIndex (r.position playlist) r.seed [] = some i ∧
      some i ≠ r.position playlist ∧
      Selects playlist now i (r.seed + 1) (r.tick playlist now unavailable) := by
  have hne := Playlist.alternatives_ne_nil h (r.position playlist)
  have hchoice := Playlist.nextEligibleIndex_shuffle hshuffle h (fun _ => position_lt (r := r))
    r.seed
  have hlt := Nat.mod_lt (mixSeed r.seed).toNat (List.length_pos_iff.mpr hne)
  rw [List.getElem?_eq_getElem hlt] at hchoice
  obtain ⟨i, hi⟩ : ∃ i, i = (playlist.alternatives (r.position playlist))[
    (mixSeed r.seed).toNat % (playlist.alternatives (r.position playlist)).length] := ⟨_, rfl⟩
  have hmem : i ∈ playlist.alternatives (r.position playlist) := hi ▸ List.getElem_mem hlt
  rw [← hi] at hchoice
  have hother := of_decide_eq_true (List.mem_filter.mp hmem).2
  refine ⟨i, hchoice, hother, ?_⟩
  have hselect : tickReconciled playlist now unavailable (r.observed playlist now) =
      select playlist now unavailable false (r.observed playlist now) := by
    unfold tickReconciled
    rcases reconcileCurrent_cases playlist r with hnone | ⟨j, hj, -, hdeadline, hremaining⟩
    · have hnone : (r.observed playlist now).currentIndex = none := hnone
      rw [hnone]
    · have hj : (r.observed playlist now).currentIndex = some j := hj
      have hpaused : (r.observed playlist now).pausedRemainingMs = none :=
        hremaining.trans hexpires.running
      have hdeadline : (r.observed playlist now).deadlineMs = r.deadlineMs := hdeadline
      rw [hj, hpaused, hdeadline]
      cases hd : r.deadlineMs with
      | none => rfl
      | some deadline =>
        have hover := hexpires.passed deadline hd
        have hnow : ¬ now < deadline := by omega
        simp [hnow]
  have hseed : (r.observed playlist now).seed = r.seed := reconcileCurrent_seed playlist r
  have hposition : (r.observed playlist now).currentIndex = r.position playlist := rfl
  rcases tick_cases playlist now unavailable r with ⟨-, hbad⟩ | ⟨-, hok⟩
  · exact absurd ⟨hp, hexpires.bounded, hexpires.time⟩ hbad
  · rw [hok, hselect]
    unfold select
    rw [exclusions_eq_nil hrepeat hexpires.available, hseed, hposition, hchoice]
    exact ⟨rfl, rfl, rfl, rfl, rfl, rfl, rfl⟩

/-! ## Walks -/

/-- The runtime before tick `k` of a run of ticks. -/
def ticked (playlist : Playlist) (now : Nat → Nat) (unavailable : Nat → List String)
    (r : PlaylistRuntime) : Nat → PlaylistRuntime
  | 0 => r
  | k + 1 => ((ticked playlist now unavailable r k).tick playlist (now k) (unavailable k)).2

/-- Tick `k` of the run selects the entry at `i`. -/
def Advances (playlist : Playlist) (now : Nat → Nat) (unavailable : Nat → List String)
    (r : PlaylistRuntime) (k i : Nat) : Prop :=
  ((r.ticked playlist now unavailable k).tick playlist (now k) (unavailable k)).1 =
    .ok (.advanced (playlist.entry i) i
      (saturatingAdd64 (now k) (playlist.durationSeconds * 1000)))

section

variable {now : Nat → Nat} {unavailable : Nat → List String} {count : Nat}

theorem seed_succ (seed : UInt64) (k : Nat) :
    seed + UInt64.ofNat k + 1 = seed + UInt64.ofNat (k + 1) := by
  rw [UInt64.add_assoc]
  congr 1
  apply UInt64.toNat_inj.mp
  rw [UInt64.toNat_add, UInt64.toNat_ofNat', UInt64.toNat_ofNat', UInt64.toNat_one]
  omega

/-- Every tick of the run is expired. -/
def Expired (playlist : Playlist) (now : Nat → Nat) (unavailable : Nat → List String)
    (r : PlaylistRuntime) (count : Nat) : Prop :=
  ∀ k < count, (r.ticked playlist now unavailable k).Expires playlist (now k) (unavailable k)

/-- A playlist that repeats and shuffles at least two entries. -/
structure Shuffles (playlist : Playlist) : Prop where
  valid : playlist.validate = .ok ()
  shuffle : playlist.shuffle = true
  repeats : playlist.repeat_ = true
  size : 2 ≤ playlist.entries.length

theorem ticked_seed (h : Shuffles playlist) (hexpired : r.Expired playlist now unavailable count)
    {k : Nat} (hk : k ≤ count) :
    (r.ticked playlist now unavailable k).seed = r.seed + UInt64.ofNat k := by
  induction k with
  | zero => exact (UInt64.add_zero r.seed).symm
  | succ k ih =>
    obtain ⟨i, -, -, hselects⟩ := tick_expires h.valid h.shuffle h.repeats h.size (hexpired k hk)
    have hseed := hselects.seed
    rw [ih (by omega), seed_succ] at hseed
    exact hseed

/-- **One tick** of the run. -/
theorem ticked_selects (h : Shuffles playlist)
    (hexpired : r.Expired playlist now unavailable count) {k : Nat} (hk : k < count) :
    ∃ i, i < playlist.entries.length ∧ r.Advances playlist now unavailable k i ∧
      some i ≠ (r.ticked playlist now unavailable k).position playlist ∧
      playlist.nextEligibleIndex ((r.ticked playlist now unavailable k).position playlist)
        (r.seed + UInt64.ofNat k) [] = some i ∧
      (r.ticked playlist now unavailable (k + 1)).position playlist = some i := by
  obtain ⟨i, hnext, hother, hselects⟩ :=
    tick_expires h.valid h.shuffle h.repeats h.size (hexpired k hk)
  have hlt := Playlist.nextEligibleIndex_lt hnext
  rw [ticked_seed h hexpired hk.le] at hnext
  refine ⟨i, hlt, hselects.decision, hother, hnext, ?_⟩
  have hsame : reconcileCurrent playlist (r.ticked playlist now unavailable (k + 1)) =
      r.ticked playlist now unavailable (k + 1) :=
    reconcileCurrent_eq hlt hselects.index hselects.name
  rw [position, hsame]
  exact hselects.index

/-- The entries that the ticks of the run select. -/
theorem exists_walk (h : Shuffles playlist)
    (hexpired : r.Expired playlist now unavailable count) :
    ∃ x : Nat → Nat, (∀ k < count, x k < playlist.entries.length ∧
        r.Advances playlist now unavailable k (x k)) ∧
      ∀ k, k + 1 < count → playlist.nextEligibleIndex (some (x k))
        (r.seed + UInt64.ofNat (k + 1)) [] = some (x (k + 1)) := by
  refine ⟨fun k => ((r.ticked playlist now unavailable (k + 1)).position playlist).getD 0,
    fun k hk => ?_, fun k hk => ?_⟩
  · obtain ⟨i, hlt, hadvances, -, -, hposition⟩ := ticked_selects h hexpired hk
    simp only [hposition, Option.getD_some]
    exact ⟨hlt, hadvances⟩
  · obtain ⟨i, -, -, -, -, hposition⟩ := ticked_selects h hexpired (Nat.lt_of_succ_lt hk)
    obtain ⟨j, -, -, -, hnext, hposition'⟩ := ticked_selects h hexpired hk
    rw [hposition] at hnext
    simp only [hposition, hposition', Option.getD_some]
    exact hnext

/-- A run whose ticks come at or after the deadlines. -/
theorem expired_of_deadlines (h : Shuffles playlist)
    (hbounded : ∀ k < count, validateUnavailable (unavailable k) = .ok ())
    (havailable : ∀ k < count, ∀ entry ∈ playlist.entries, entry ∉ unavailable k)
    (hfirst : r.Expires playlist (now 0) (unavailable 0))
    (hlater : ∀ k, k + 1 < count →
      now k ≤ now (k + 1) ∧ now k + playlist.durationSeconds * 1000 ≤ now (k + 1)) :
    r.Expired playlist now unavailable count := by
  intro k
  induction k with
  | zero => exact fun _ => hfirst
  | succ k ih =>
    intro hk
    obtain ⟨i, -, -, hselects⟩ :=
      tick_expires h.valid h.shuffle h.repeats h.size (ih (Nat.lt_of_succ_lt hk))
    obtain ⟨htime, hover⟩ := hlater k hk
    refine ⟨hbounded _ hk, havailable _ hk, ?_, hselects.running, fun deadline hdeadline => ?_⟩
    · unfold regressed ticked
      rw [hselects.last]
      simpa using htime
    · have hle := saturatingAdd64_le (now k) (playlist.durationSeconds * 1000)
      have hsame := Option.some.inj (hselects.deadline.symm.trans hdeadline)
      omega

end

/-! ### Three entries -/

/-- Two entries that take turns. -/
def everShuffled : Playlist :=
  { onceInOrder with entries := ["one", "two"], shuffle := true, repeat_ := true }

/-- Ticks at the deadlines of entries of ten seconds. -/
def everyTenSeconds (k : Nat) : Nat := (k + 1) * 10000

/-- Three entries of which the one between the others is not selected. -/
def shuffledThree : Playlist := { onceInOrder with shuffle := true, repeat_ := true }

/-- From the first entry, with the seed 1, the walk only takes turns between the
first and the last entry while bit 47 is not set. -/
theorem position_shuffledThree {r : PlaylistRuntime} {now : Nat → Nat}
    {unavailable : Nat → List String} {count : Nat} (hcount : count ≤ 2 ^ 46)
    (hexpired : r.Expired shuffledThree now unavailable count) (hseed : r.seed = 1)
    (hposition : r.position shuffledThree = some 0) {k : Nat} (hk : k ≤ count) :
    (r.ticked shuffledThree now unavailable k).position shuffledThree =
      some (if k % 2 = 0 then 0 else 2) := by
  have hshuffles : Shuffles shuffledThree := ⟨by decide +kernel, rfl, rfl, by decide⟩
  induction k with
  | zero => exact hposition
  | succ k ih =>
    obtain ⟨i, -, -, -, hnext, hafter⟩ := ticked_selects hshuffles hexpired hk
    have hchooses : chooses r.seed k = decide (k % 2 = 0) := by
      have hone : r.seed.toNat = 1 := by rw [hseed]; rfl
      have hseed : seedAfter r.seed k = 1 + k := by
        rw [seedAfter_eq, hone, Nat.mod_eq_of_lt (by omega)]
      have hhigh : (1 + k) / 2 ^ 47 = 0 := Nat.div_eq_of_lt (by omega)
      unfold chooses
      rw [hseed, hhigh, decide_eq_decide]
      omega
    rw [ih (by omega), nextEligibleIndex_three rfl rfl (by split <;> omega)] at hnext
    have hi : otherOfThree (if k % 2 = 0 then 0 else 2) (chooses r.seed k) = i :=
      Option.some.inj hnext
    rw [hafter, ← hi, hchooses]
    rcases Nat.mod_two_eq_zero_or_one k with hparity | hparity
    · simp [otherOfThree, hparity, show (k + 1) % 2 = 1 by omega]
    · simp [otherOfThree, hparity, show (k + 1) % 2 = 0 by omega]

end PlaylistRuntime

end Kwe.Playlists
