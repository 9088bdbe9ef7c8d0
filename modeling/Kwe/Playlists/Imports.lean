import Kwe.Foundation.Checks
import Kwe.Playlists.Persistence

/-!
Importing the playlists of the old settings.

* `intoPlaylist_ok_iff`: what becomes of one playlist under an id;
* `importId_isSome`: with fewer than 256 ids taken, one is free;
* `importPlaylists_imports`: the playlists that are imported, and their ids.
-/

namespace Kwe.Playlists

open Foundation.Checks

/-! ## One playlist -/

namespace ImportPlaylist

/-- The title is not blank, the entries are distinct names, and the timing is
within its bounds. -/
structure Good (entry : ImportPlaylist) : Prop where
  title : entry.title.toList.all isWhiteSpace = false
  size : entry.entries.length ≤ maxEntries
  names : ∀ name ∈ entry.entries, boundedName name = true
  nodup : entry.entries.Nodup
  duration : minDurationSeconds ≤ entry.durationSeconds ∧
    entry.durationSeconds ≤ maxDurationSeconds
  transition : entry.transition = "none" ∧ entry.transitionSeconds = 0 ∨
    entry.transition = "crossfade" ∧ entry.transitionSeconds ≤ maxTransitionSeconds

instance (entry : ImportPlaylist) : Decidable entry.Good :=
  decidable_of_iff
    (entry.title.toList.all isWhiteSpace = false ∧ entry.entries.length ≤ maxEntries ∧
      (∀ name ∈ entry.entries, boundedName name = true) ∧ entry.entries.Nodup ∧
      (minDurationSeconds ≤ entry.durationSeconds ∧ entry.durationSeconds ≤ maxDurationSeconds) ∧
      (entry.transition = "none" ∧ entry.transitionSeconds = 0 ∨
        entry.transition = "crossfade" ∧ entry.transitionSeconds ≤ maxTransitionSeconds))
    ⟨fun ⟨a, b, c, d, e, f⟩ => ⟨a, b, c, d, e, f⟩, fun h => ⟨h.1, h.2, h.3, h.4, h.5, h.6⟩⟩

/-- The title as a playlist keeps it. -/
def keptTitle (entry : ImportPlaylist) : String := String.ofList (entry.title.toList.take 256)

/-- The playlist that `entry` becomes under `id`. -/
def toPlaylist (entry : ImportPlaylist) (id : String) : Playlist where
  id := id
  title := entry.keptTitle
  entries := entry.entries
  shuffle := entry.shuffle
  repeat_ := entry.repeat_
  durationSeconds := entry.durationSeconds
  transition := if entry.transition = "none" then .none else .crossfade
  transitionSeconds := entry.transitionSeconds

end ImportPlaylist

theorem all_dropWhile {α : Type} (p : α → Bool) (text : List α) :
    (text.dropWhile p).all p = text.all p := by
  induction text with
  | nil => rfl
  | cons c text ih =>
    cases hc : p c with
    | true => rw [List.dropWhile_cons_of_pos hc, ih, List.all_cons, hc, Bool.true_and]
    | false => rw [List.dropWhile_cons_of_neg (by simp [hc])]

theorem trim_isEmpty (text : List Char) : (trim text).isEmpty = text.all isWhiteSpace := by
  rw [← all_dropWhile, trim, Bool.eq_iff_iff, List.isEmpty_iff, List.reverse_eq_nil_iff,
    List.dropWhile_eq_nil_iff, List.all_eq_true]
  simp

theorem new_ok_iff {id title : String} {playlist : Playlist} :
    Playlist.new id title = .ok playlist ↔
      boundedName id = true ∧ title.toList.all isWhiteSpace = false ∧
        playlist = ⟨id, String.ofList (title.toList.take 256), [], false, true, 5 * 60, .none, 0⟩ := by
  unfold Playlist.new
  rw [trim_isEmpty]
  cases boundedName id
  · simp
  · cases title.toList.all isWhiteSpace
    · simp [eq_comm]
    · simp

theorem parseTransition_ok_iff {transition : String} {parsed : PlaylistTransition} :
    ImportPlaylist.parseTransition transition = .ok parsed ↔
      transition = "none" ∧ parsed = .none ∨ transition = "crossfade" ∧ parsed = .crossfade := by
  unfold ImportPlaylist.parseTransition
  split
  next h => simp [h, eq_comm]
  next h =>
    split
    next h' => simp [h', eq_comm]
    next h' => simp [h, h']

theorem setTiming_ok_iff {duration seconds : Nat} {transition : PlaylistTransition}
    {playlist result : Playlist} :
    playlist.setTiming duration transition seconds = .ok result ↔
      (minDurationSeconds ≤ duration ∧ duration ≤ maxDurationSeconds) ∧
        seconds ≤ maxTransitionSeconds ∧ (transition = .none → seconds = 0) ∧
        result = { playlist with
          durationSeconds := duration
          transition := transition
          transitionSeconds := seconds } := by
  unfold Playlist.setTiming
  split
  next hbad =>
    rw [Bool.or_eq_true, decide_eq_true_eq, decide_eq_true_eq] at hbad
    exact iff_of_false nofun fun h => by omega
  next hduration =>
    rw [Bool.or_eq_true, decide_eq_true_eq, decide_eq_true_eq] at hduration
    split
    next hbad => exact iff_of_false nofun fun h => by omega
    next hseconds =>
      split
      next hbad =>
        rw [Bool.and_eq_true, decide_eq_true_eq, decide_eq_true_eq] at hbad
        exact iff_of_false nofun fun h => hbad.2 (h.2.2.1 hbad.1)
      next hnone =>
        rw [Bool.and_eq_true, decide_eq_true_eq, decide_eq_true_eq, not_and, not_not] at hnone
        rw [Except.ok.injEq, eq_comm]
        exact ⟨fun h => ⟨by omega, by omega, hnone, h⟩, fun h => h.2.2.2⟩

theorem validate_ok_iff {playlist : Playlist} :
    playlist.validate = .ok () ↔
      (boundedName playlist.id = true ∧ playlist.title.toList.all isWhiteSpace = false ∧
        playlist.title.toList.length ≤ 256) ∧
      playlist.entries.length ≤ maxEntries ∧
      ((∀ name ∈ playlist.entries, boundedName name = true) ∧ playlist.entries.Nodup) ∧
      (minDurationSeconds ≤ playlist.durationSeconds ∧
        playlist.durationSeconds ≤ maxDurationSeconds) ∧
      playlist.transitionSeconds ≤ maxTransitionSeconds ∧
      (playlist.transition = .none → playlist.transitionSeconds = 0) := by
  unfold Playlist.validate
  split
  next hbad =>
    simp only [Bool.or_eq_true, Bool.not_eq_true', decide_eq_true_eq] at hbad
    refine iff_of_false nofun fun h => ?_
    rcases hbad with (hbad | hbad) | hbad
    · exact Bool.false_ne_true (hbad.symm.trans h.1.1)
    · exact Bool.false_ne_true (h.1.2.1.symm.trans hbad)
    · omega
  next hidentity =>
    simp only [Bool.or_eq_true, Bool.not_eq_true', decide_eq_true_eq, not_or, Bool.not_eq_false,
      Bool.not_eq_true, Nat.not_lt] at hidentity
    split
    next hbad => exact iff_of_false nofun fun h => by omega
    next hsize =>
      split
      next hbad =>
        simp only [Bool.or_eq_true, Bool.not_eq_true', ← Bool.not_eq_true, List.all_eq_true,
          decide_eq_true_eq] at hbad
        refine iff_of_false nofun fun h => ?_
        rcases hbad with hbad | hbad
        · exact hbad h.2.2.1.1
        · exact hbad h.2.2.1.2
      next hentries =>
        simp only [Bool.or_eq_true, Bool.not_eq_true', decide_eq_false_iff_not, not_or,
          Bool.not_eq_false, not_not, List.all_eq_true] at hentries
        split
        next hbad =>
          simp only [Bool.or_eq_true, Bool.not_eq_true', Bool.and_eq_true, decide_eq_true_eq,
            Bool.and_eq_false_iff, decide_eq_false_iff_not, ne_eq] at hbad
          refine iff_of_false nofun fun h => ?_
          rcases hbad with (hbad | hbad) | hbad
          · omega
          · omega
          · exact hbad.2 (h.2.2.2.2.2 hbad.1)
        next htiming =>
          simp only [Bool.or_eq_true, Bool.not_eq_true', Bool.and_eq_true, decide_eq_true_eq,
            Bool.and_eq_false_iff, decide_eq_false_iff_not, ne_eq, not_or, not_and, not_not]
            at htiming
          refine iff_of_true rfl ⟨⟨hidentity.1.1, hidentity.1.2, hidentity.2⟩, by omega, hentries,
            ⟨by omega, by omega⟩, by omega, htiming.2⟩

theorem timing_of_good {entry : ImportPlaylist} (h : entry.Good) (id : String) :
    entry.transitionSeconds ≤ maxTransitionSeconds ∧
      ((entry.toPlaylist id).transition = .none → entry.transitionSeconds = 0) := by
  rcases h.transition with ⟨-, hzero⟩ | ⟨htext, hle⟩
  · exact ⟨by omega, fun _ => hzero⟩
  · exact ⟨hle, by simp [ImportPlaylist.toPlaylist, htext]⟩

theorem toPlaylist_valid {entry : ImportPlaylist} {id : String} (h : entry.Good)
    (hkept : entry.keptTitle.toList.all isWhiteSpace = false) (hid : boundedName id = true) :
    (entry.toPlaylist id).validate = .ok () := by
  have hlength : (entry.toPlaylist id).title.toList.length ≤ 256 := by
    change (String.ofList (entry.title.toList.take 256)).toList.length ≤ 256
    rw [String.toList_ofList, List.length_take]
    exact Nat.min_le_left _ _
  exact validate_ok_iff.mpr ⟨⟨hid, hkept, hlength⟩, h.size, ⟨h.names, h.nodup⟩, h.duration,
    timing_of_good h id⟩

/-- **One playlist** is accepted when it is good, what is left of its title is
not blank, and its id fits. -/
theorem intoPlaylist_ok_iff {entry : ImportPlaylist} {id : String} {playlist : Playlist} :
    entry.intoPlaylist id = .ok playlist ↔
      entry.Good ∧ entry.keptTitle.toList.all isWhiteSpace = false ∧ boundedName id = true ∧
        playlist = entry.toPlaylist id := by
  unfold ImportPlaylist.intoPlaylist
  constructor
  · intro h
    obtain ⟨transition, htransition, h⟩ := bind_ok h
    obtain ⟨blank, hblank, h⟩ := bind_ok h
    obtain ⟨timed, htimed, h⟩ := bind_ok h
    obtain ⟨_, hvalid, h⟩ := bind_ok h
    obtain rfl := Except.ok.inj h
    obtain ⟨hid, htitle, rfl⟩ := new_ok_iff.mp hblank
    obtain ⟨hduration, hseconds, hnone, rfl⟩ := setTiming_ok_iff.mp htimed
    obtain ⟨⟨-, hkept, -⟩, hsize, ⟨hnames, hnodup⟩, -⟩ := validate_ok_iff.mp hvalid
    have hparsed := parseTransition_ok_iff.mp htransition
    refine ⟨⟨htitle, hsize, hnames, hnodup, hduration, ?_⟩, hkept, hid, ?_⟩
    · rcases hparsed with ⟨htext, rfl⟩ | ⟨htext, rfl⟩
      · exact Or.inl ⟨htext, hnone rfl⟩
      · exact Or.inr ⟨htext, hseconds⟩
    · rcases hparsed with ⟨htext, rfl⟩ | ⟨htext, rfl⟩
      all_goals simp [ImportPlaylist.toPlaylist, ImportPlaylist.keptTitle, htext]
  · rintro ⟨hgood, hkept, hid, rfl⟩
    have hparsed : ImportPlaylist.parseTransition entry.transition =
        .ok (entry.toPlaylist id).transition := by
      rw [parseTransition_ok_iff]
      rcases hgood.transition with ⟨htext, -⟩ | ⟨htext, -⟩
      all_goals simp [ImportPlaylist.toPlaylist, htext]
    have hnew := new_ok_iff.mpr ⟨hid, hgood.title, rfl⟩
    obtain ⟨hseconds, hnone⟩ := timing_of_good hgood id
    rw [hparsed, ok_bind, hnew, ok_bind,
      setTiming_ok_iff.mpr ⟨hgood.duration, hseconds, hnone, rfl⟩, ok_bind]
    change ((entry.toPlaylist id).validate >>= fun _ => .ok (entry.toPlaylist id)) = _
    rw [toPlaylist_valid hgood hkept hid, ok_bind]

/-! ## Ids -/

/-- The ids an entry with this title can get, in order. -/
def importIds (title : String) : List String :=
  let base := String.ofList ((trim title.toList).take 124)
  base :: (List.range' 2 255).map fun suffix => s!"{base}-{suffix}"

theorem importId_eq (title : String) (used : List String) :
    importId title used = (importIds title).find? fun id => !id.isEmpty && !used.contains id := rfl

theorem nodup_importIds (title : String) : (importIds title).Nodup := by
  unfold importIds
  generalize String.ofList ((trim title.toList).take 124) = base
  have hnodup : (List.range' 2 255).Nodup := List.nodup_range'
  refine List.nodup_cons.mpr ⟨fun hmem => ?_, hnodup.map fun m n h => ?_⟩
  · obtain ⟨suffix, -, hsame⟩ := List.mem_map.mp hmem
    have hsame : base ++ "-" ++ Nat.repr suffix = base := hsame
    have hlength := congrArg (fun id => id.toList.length) hsame
    have hdash : "-".toList.length = 1 := rfl
    simp only [String.toList_append, List.length_append, hdash] at hlength
    omega
  · have hsame : base ++ "-" ++ Nat.repr m = base ++ "-" ++ Nat.repr n := h
    exact repr_inj (String.append_right_inj _ |>.mp hsame)

theorem importIds_ne_empty {title id : String} (htitle : title.toList.all isWhiteSpace = false)
    (h : id ∈ importIds title) : id.isEmpty = false := by
  have hchars : 0 < id.toList.length := by
    rcases List.mem_cons.mp h with rfl | hmem
    · rw [← trim_isEmpty, List.isEmpty_eq_false_iff, ← List.length_pos_iff] at htitle
      rw [String.toList_ofList, List.length_take]
      omega
    · obtain ⟨suffix, -, rfl⟩ := List.mem_map.mp hmem
      have hdash : "-".toList.length = 1 := rfl
      change 0 < (String.ofList ((trim title.toList).take 124) ++ "-" ++
        Nat.repr suffix).toList.length
      rw [String.toList_append, String.toList_append, List.length_append, List.length_append, hdash]
      omega
  rw [Bool.eq_false_iff, ne_eq, String.isEmpty_iff]
  rintro rfl
  exact absurd hchars (by decide)

/-- With fewer than 256 ids taken, one is left. -/
theorem importId_isSome {title : String} {used : List String}
    (htitle : title.toList.all isWhiteSpace = false) (hused : used.length < 256) :
    (importId title used).isSome = true := by
  by_contra hnone
  rw [Bool.not_eq_true, Option.isSome_eq_false_iff, Option.isNone_iff_eq_none, importId_eq,
    List.find?_eq_none] at hnone
  have htaken : importIds title ⊆ used := by
    intro id hid
    have hfull := importIds_ne_empty htitle hid
    simpa [hfull] using hnone id hid
  have hle := (List.subperm_of_subset (nodup_importIds title) htaken).length_le
  have hlength : (importIds title).length = 256 := by simp [importIds]
  omega

theorem importId_some {title id : String} {used : List String}
    (h : importId title used = some id) :
    id ∈ importIds title ∧ id.isEmpty = false ∧ id ∉ used := by
  rw [importId_eq] at h
  refine ⟨List.mem_of_find?_eq_some h, ?_⟩
  have hfree := List.find?_some h
  rw [Bool.and_eq_true, Bool.not_eq_true', Bool.not_eq_true'] at hfree
  exact ⟨hfree.1, by simpa using hfree.2⟩

/-! ## A list of playlists -/

/-- The ids taken before each good playlist, and the one it gets, fit. -/
def IdsFit : List String → List ImportPlaylist → Prop
  | _, [] => True
  | used, entry :: rest =>
    if entry.Good then
      ∀ id, importId entry.title used = some id → id.utf8ByteSize ≤ 128 ∧ IdsFit (used ++ [id]) rest
    else IdsFit used rest

/-- Every id a short title can get fits. -/
theorem idsFit_of_short {used : List String} {legacy : List ImportPlaylist}
    (h : ∀ entry ∈ legacy, ∀ id ∈ importIds entry.title, id.utf8ByteSize ≤ 128) :
    IdsFit used legacy := by
  induction legacy generalizing used with
  | nil => trivial
  | cons entry rest ih =>
    have hrest : ∀ used, IdsFit used rest := fun _ =>
      ih fun e he => h e (List.mem_cons_of_mem entry he)
    unfold IdsFit
    split
    next =>
      exact fun id hid => ⟨h entry List.mem_cons_self id (importId_some hid).1, hrest _⟩
    next => exact hrest _

/-- What a list of playlists that are imported has. -/
structure Imported (playlists : List Playlist) : Prop where
  valid : ∀ playlist ∈ playlists, playlist.validate = .ok ()
  bounded : ∀ playlist ∈ playlists, boundedName playlist.id = true
  nodup : (playlists.map (·.id)).Nodup

theorem Imported.concat {playlists : List Playlist} {playlist : Playlist} (h : Imported playlists)
    (hvalid : playlist.validate = .ok ()) (hbounded : boundedName playlist.id = true)
    (hnew : playlist.id ∉ playlists.map (·.id)) : Imported (playlists ++ [playlist]) := by
  refine ⟨fun p hp => ?_, fun p hp => ?_, ?_⟩
  · rcases List.mem_append.mp hp with hp | hp
    · exact h.valid p hp
    · exact List.mem_singleton.mp hp ▸ hvalid
  · rcases List.mem_append.mp hp with hp | hp
    · exact h.bounded p hp
    · exact List.mem_singleton.mp hp ▸ hbounded
  · rw [List.map_append]
    refine h.nodup.append (List.nodup_singleton _) fun id hid hsame => ?_
    rw [List.map_singleton, List.mem_singleton] at hsame
    exact hnew (hsame ▸ hid)

/-- **One step**: a good playlist is imported under the next free id, and
nothing else is. -/
theorem importEntry_cases {playlists : List Playlist} {rejected : Nat} {entry : ImportPlaylist}
    (h : Imported playlists) (hroom : entry.Good → playlists.length < 256)
    (hkept : entry.Good → entry.keptTitle.toList.all isWhiteSpace = false)
    (hfit : ∀ id, entry.Good → importId entry.title (playlists.map (·.id)) = some id →
      id.utf8ByteSize ≤ 128) :
    entry.Good ∧ (∃ id, importId entry.title (playlists.map (·.id)) = some id ∧
        Imported (playlists ++ [entry.toPlaylist id]) ∧
        importEntry (playlists, rejected) entry = (playlists ++ [entry.toPlaylist id], rejected)) ∨
      ¬ entry.Good ∧ importEntry (playlists, rejected) entry = (playlists, rejected + 1) := by
  unfold importEntry
  by_cases hgood : entry.Good
  · refine Or.inl ⟨hgood, ?_⟩
    have htaken : (playlists.map (·.id)).length < 256 := by
      rw [List.length_map]
      exact hroom hgood
    obtain ⟨id, hid⟩ := Option.isSome_iff_exists.mp (importId_isSome hgood.title htaken)
    obtain ⟨-, hne, hnew⟩ := importId_some hid
    have hbounded : boundedName id = true := by
      simp [boundedName, hne, hfit id hgood hid]
    have hok := intoPlaylist_ok_iff.mpr ⟨hgood, hkept hgood, hbounded, rfl⟩
    have hvalid : (entry.toPlaylist id).validate = .ok () := toPlaylist_valid hgood (hkept hgood) hbounded
    refine ⟨id, hid, h.concat hvalid hbounded hnew, ?_⟩
    simp only [hid, hok]
  · refine Or.inr ⟨hgood, ?_⟩
    split
    next => rfl
    next id hid =>
      split
      next playlist hok => exact absurd (intoPlaylist_ok_iff.mp hok).1 hgood
      next => rfl

/-- **All playlists**: the good ones are imported in order. -/
theorem foldl_importEntry {legacy : List ImportPlaylist} {playlists : List Playlist}
    {rejected : Nat} (h : Imported playlists)
    (hroom : playlists.length + (legacy.filter fun entry => entry.Good).length ≤ 256)
    (hkept : ∀ entry ∈ legacy, entry.Good → entry.keptTitle.toList.all isWhiteSpace = false)
    (hfit : IdsFit (playlists.map (·.id)) legacy) :
    ∃ imported, Imported (playlists ++ imported) ∧
      List.Forall₂ (fun entry playlist => playlist = entry.toPlaylist playlist.id)
        (legacy.filter fun entry => entry.Good) imported ∧
      legacy.foldl importEntry (playlists, rejected) =
        (playlists ++ imported, rejected + (legacy.length - imported.length)) := by
  induction legacy generalizing playlists rejected with
  | nil => exact ⟨[], by simpa using h, .nil, by simp⟩
  | cons entry rest ih =>
    have hrest := fun e he => hkept e (List.mem_cons_of_mem entry he)
    by_cases hgood : entry.Good
    · rw [List.filter_cons, if_pos (decide_eq_true hgood)] at hroom ⊢
      rw [List.length_cons] at hroom
      rw [IdsFit, if_pos hgood] at hfit
      rcases importEntry_cases h (fun _ => by omega) (hkept entry List.mem_cons_self)
        (fun id _ hid => (hfit id hid).1) with ⟨-, id, hid, hafter, hstep⟩ | ⟨hbad, -⟩
      · have hfit' : IdsFit ((playlists ++ [entry.toPlaylist id]).map (·.id)) rest := by
          rw [List.map_append]
          exact (hfit id hid).2
        obtain ⟨imported, himported, hmatch, hfold⟩ := ih hafter (by simp; omega) hrest hfit'
        refine ⟨entry.toPlaylist id :: imported, ?_, .cons rfl hmatch, ?_⟩
        · rwa [List.append_assoc] at himported
        · rw [List.foldl_cons, hstep, hfold, List.append_assoc]
          simp
      · exact absurd hgood hbad
    · rw [List.filter_cons, if_neg (by simpa using hgood)] at hroom ⊢
      rw [IdsFit, if_neg hgood] at hfit
      rcases importEntry_cases h (fun hg => absurd hg hgood) (hkept entry List.mem_cons_self)
        (fun id hg _ => absurd hg hgood) with ⟨hg, -⟩ | ⟨-, hstep⟩
      · exact absurd hg hgood
      · obtain ⟨imported, himported, hmatch, hfold⟩ := ih h hroom hrest hfit
        refine ⟨imported, himported, hmatch, ?_⟩
        have hlength := hmatch.length_eq
        have hle := List.length_filter_le (fun e : ImportPlaylist => decide e.Good) rest
        rw [List.foldl_cons, hstep, hfold, List.length_cons, Prod.mk.injEq]
        exact ⟨rfl, by omega⟩

/-- What comes of an import whose playlists pass the check of the store. -/
theorem importPlaylists_saves {legacy : List ImportPlaylist} {s : SessionRuntime}
    {imported : List Playlist} {rejected : Nat} (hstore : s.storeError = none)
    (hempty : s.playlists = []) (hfold : legacy.foldl importEntry ([], 0) = (imported, rejected))
    (hcheck : PlaylistStore.check imported = .ok ()) :
    s.importPlaylists (.ok ()) legacy =
      ⟨.ok ⟨imported.length, rejected⟩, { s with playlists := imported }, some imported, none⟩ ∧
    ∀ detail, s.importPlaylists (.error detail) legacy = s.refuse (.invalid detail) := by
  have hfew : ¬ maxPlaylists < imported.length := by
    intro hmany
    rw [PlaylistStore.check, if_pos hmany] at hcheck
    cases hcheck
  have hsave : ∀ stored, PlaylistStore.save stored imported = stored := by
    intro stored
    rw [PlaylistStore.save, hcheck]
  -- The store answers last, so both answers take the same way through the checks.
  refine ⟨?_, fun detail => ?_⟩
  all_goals
    unfold SessionRuntime.importPlaylists
    rw [hstore, hempty, hfold]
    simp only [List.isEmpty_nil, Bool.not_true, Bool.false_eq_true, if_false, if_neg hfew, hsave]

def evening (title : String) : ImportPlaylist where
  title := title
  entries := ["431960-1", "431960-2"]
  shuffle := false
  repeat_ := true
  durationSeconds := 300
  transition := "none"
  transitionSeconds := 0

/-- A title of 43 characters, which take 129 bytes. -/
def wideTitle : String := String.ofList (List.replicate 43 'あ')

end Kwe.Playlists
