import Kwe.Foundation.Utf16
import Kwe.Playlists.Imports

/-!
The playlist editor of the manager: the view that the controller keeps of the
daemon's playlists, by title, and what each edit changes in it and sends.

* `applyList_shows`: after a list of valid playlists that are shown under different
  titles, the view is that of these playlists.

A `QString` is its UTF-16 code units.
-/

namespace Kwe.Playlists.Editor

open Foundation
open Foundation.EcmaScript (utf16Char)

abbrev QString := List Nat

/-- `MaxPlaylists`. -/
def maxPlaylists : Nat := 256

/-- `MaxNameLength`, in code units. -/
def maxNameLength : Nat := 128

def defaultDurationSeconds : Int := 5 * 60

def utf16 (text : String) : QString := EcmaScript.utf16 text.toList

/-- `QChar::isSpace`. -/
def isSpace (u : Nat) : Bool :=
  (9 ≤ u && u ≤ 13) || u = 0x20 || u = 0x85 || u = 0xA0 || u = 0x1680 ||
    (0x2000 ≤ u && u ≤ 0x200A) || u = 0x2028 || u = 0x2029 || u = 0x202F || u = 0x205F ||
    u = 0x3000

def trimmed (s : QString) : QString := (s.dropWhile isSpace).rdropWhile isSpace

def noTransition : QString := utf16 "none"

def isTransition (value : QString) : Bool := value = noTransition || value = utf16 "crossfade"

/-! ## The view -/

/-- The maps of the controller, by title. -/
structure View where
  names : List QString
  ids : QString → Option QString
  entries : QString → Option (List QString)
  shuffle : QString → Option Bool
  repeat_ : QString → Option Bool
  durationSeconds : QString → Option Int
  transition : QString → Option QString
  transitionSeconds : QString → Option Int

def View.empty : View :=
  ⟨[], fun _ => none, fun _ => none, fun _ => none, fun _ => none, fun _ => none, fun _ => none,
    fun _ => none⟩

/-- An object of the list as Qt converts its fields: an entry that is no string is
`none`, and so is a setting that is absent or of another type. -/
structure Record where
  id : QString
  title : QString
  entries : List (Option QString)
  shuffle : Option Bool
  repeat_ : Option Bool
  durationSeconds : Option Int
  transition : Option QString
  transitionSeconds : Option Int
  deriving DecidableEq, Repr

/-- The entries that are shown. -/
def readEntry (shown : List QString) (entry : Option QString) : List QString :=
  match entry with
  | none => shown
  | some entry =>
    if entry = [] ∨ 128 < entry.length ∨ entry ∈ shown then shown else shown ++ [entry]

def addRecord (view : View) (value : Option Record) : View :=
  match value with
  | none => view
  | some r =>
    let title := trimmed r.title
    if title = [] ∨ r.id = [] ∨ title ∈ view.names then view
    else
      { names := view.names ++ [title]
        ids := Function.update view.ids title (some r.id)
        entries := Function.update view.entries title (some (r.entries.foldl readEntry []))
        shuffle := Function.update view.shuffle title (some (r.shuffle.getD false))
        repeat_ := Function.update view.repeat_ title (some (r.repeat_.getD true))
        durationSeconds := Function.update view.durationSeconds title
          (some (r.durationSeconds.getD defaultDurationSeconds))
        transition := Function.update view.transition title
          (some (r.transition.getD noTransition))
        transitionSeconds := Function.update view.transitionSeconds title
          (some (r.transitionSeconds.getD 0)) }

/-- The array of a reply; an element that is no object is `none`. -/
def applyList (playlists : List (Option Record)) : View := playlists.foldl addRecord .empty

/-! ## Edits -/

/-- `playlistObject`. -/
structure PlaylistObject where
  id : QString
  title : QString
  entries : List QString
  shuffle : Bool
  repeat_ : Bool
  durationSeconds : Int
  transition : QString
  transitionSeconds : Int
  deriving DecidableEq, Repr

inductive Edit
  | put (playlist : PlaylistObject)
  | remove (id : QString)
  deriving DecidableEq, Repr

inductive Call
  | create (name : QString)
  | remove (name : QString)
  | add (name workshopId : QString)
  | removeEntry (name workshopId : QString)
  | setShuffle (name : QString) (value : Bool)
  | setRepeat (name : QString) (value : Bool)
  | setDurationSeconds (name : QString) (value : Int)
  | setTransition (name value : QString)
  | setTransitionSeconds (name : QString) (value : Int)
  deriving DecidableEq, Repr

/-- The name that a create asks for. -/
def cleanName (name : QString) : QString := (trimmed name).take maxNameLength

/-- The title that a call is about. -/
def Call.title : Call → QString
  | .create name => cleanName name
  | .remove name | .add name _ | .removeEntry name _ | .setShuffle name _ | .setRepeat name _
  | .setDurationSeconds name _ | .setTransition name _ | .setTransitionSeconds name _ => name

def Call.isCreate : Call → Bool
  | .create _ => true
  | _ => false

namespace View

def playlistObject (view : View) (name : QString) : PlaylistObject where
  id := (view.ids name).getD (name.take maxNameLength)
  title := name
  entries := (view.entries name).getD []
  shuffle := (view.shuffle name).getD false
  repeat_ := (view.repeat_ name).getD true
  durationSeconds := (view.durationSeconds name).getD defaultDurationSeconds
  transition := (view.transition name).getD noTransition
  transitionSeconds := (view.transitionSeconds name).getD 0

/-- The view is sent after it has been changed. -/
def sent (view : View) (name : QString) : View × Option Edit :=
  (view, some (.put (view.playlistObject name)))

def create (loaded : Bool) (name : QString) (view : View) : View × Option Edit :=
  let clean := cleanName name
  if loaded = false then (view, none)
  else if clean = [] ∨ clean ∈ view.names then (view, none)
  else if maxPlaylists ≤ view.names.length then (view, none)
  else
    { view with
      names := view.names ++ [clean]
      ids := Function.update view.ids clean (some (clean.take maxNameLength))
      durationSeconds := Function.update view.durationSeconds clean (some defaultDurationSeconds)
      transition := Function.update view.transition clean (some noTransition)
      transitionSeconds := Function.update view.transitionSeconds clean (some 0) }.sent clean

def remove (name : QString) (view : View) : View × Option Edit :=
  if name ∉ view.names then (view, none)
  else
    ({ names := view.names.erase name
       ids := Function.update view.ids name none
       entries := Function.update view.entries name none
       shuffle := Function.update view.shuffle name none
       repeat_ := Function.update view.repeat_ name none
       durationSeconds := Function.update view.durationSeconds name none
       transition := Function.update view.transition name none
       transitionSeconds := Function.update view.transitionSeconds name none },
      some (.remove ((view.ids name).getD [])))

def setEntries (view : View) (name : QString) (entries : List QString) : View :=
  { view with entries := Function.update view.entries name (some entries) }

/-- `m_entries[name]` adds an empty list for a title that has none. -/
def add (name workshopId : QString) (view : View) : View × Option Edit :=
  if name ∉ view.names ∨ workshopId = [] ∨ 128 < workshopId.length then (view, none)
  else
    let entries := (view.entries name).getD []
    if workshopId ∉ entries ∧ maxEntries ≤ entries.length then (view.setEntries name entries, none)
    else
      (view.setEntries name
        (if workshopId ∈ entries then entries else entries ++ [workshopId])).sent name

def removeEntry (name workshopId : QString) (view : View) : View × Option Edit :=
  match view.entries name with
  | none => (view, none)
  | some entries =>
    if workshopId ∉ entries then (view, none)
    else (view.setEntries name (entries.erase workshopId)).sent name

def setShuffle (name : QString) (value : Bool) (view : View) : View × Option Edit :=
  if name ∉ view.names then (view, none)
  else { view with shuffle := Function.update view.shuffle name (some value) }.sent name

def setRepeat (name : QString) (value : Bool) (view : View) : View × Option Edit :=
  if name ∉ view.names then (view, none)
  else { view with repeat_ := Function.update view.repeat_ name (some value) }.sent name

def setDurationSeconds (name : QString) (value : Int) (view : View) : View × Option Edit :=
  if name ∉ view.names ∨ value < minDurationSeconds ∨ maxDurationSeconds < value then (view, none)
  else
    { view with
      durationSeconds := Function.update view.durationSeconds name (some value) }.sent name

def setTransition (name value : QString) (view : View) : View × Option Edit :=
  if name ∉ view.names ∨ isTransition value = false then (view, none)
  else
    { view with
      transition := Function.update view.transition name (some value)
      transitionSeconds :=
        if value = noTransition then Function.update view.transitionSeconds name (some 0)
        else view.transitionSeconds }.sent name

def setTransitionSeconds (name : QString) (value : Int) (view : View) : View × Option Edit :=
  if name ∉ view.names ∨ value < 0 ∨ maxTransitionSeconds < value ∨
      ((view.transition name).getD noTransition = noTransition ∧ value ≠ 0) then (view, none)
  else
    { view with
      transitionSeconds := Function.update view.transitionSeconds name (some value) }.sent name

/-- What a call changes in the view and sends. -/
def edit (loaded : Bool) (view : View) : Call → View × Option Edit
  | .create name => view.create loaded name
  | .remove name => view.remove name
  | .add name workshopId => view.add name workshopId
  | .removeEntry name workshopId => view.removeEntry name workshopId
  | .setShuffle name value => view.setShuffle name value
  | .setRepeat name value => view.setRepeat name value
  | .setDurationSeconds name value => view.setDurationSeconds name value
  | .setTransition name value => view.setTransition name value
  | .setTransitionSeconds name value => view.setTransitionSeconds name value

end View

/-! ## What a call does -/

/-- The playlist `clean` is new. -/
structure View.Created (view view' : View) (clean : QString) : Prop where
  ne_nil : clean ≠ []
  notMem : clean ∉ view.names
  size : view.names.length < maxPlaylists
  names : view'.names = view.names ++ [clean]
  ids : view'.ids = Function.update view.ids clean (some clean)
  entries : view'.entries = view.entries

/-- The playlist `name` is changed. -/
structure View.Changed (view view' : View) (name : QString) : Prop where
  known : name ∈ view.names ∨ (view.entries name).isSome = true
  names : view'.names = view.names
  ids : view'.ids = view.ids
  entries : ∀ other, other ≠ name → view'.entries other = view.entries other

/-- The playlist `name` is gone. -/
structure View.Removed (view view' : View) (name : QString) : Prop where
  mem : name ∈ view.names
  names : view'.names = view.names.erase name
  ids : view'.ids = Function.update view.ids name none
  entries : view'.entries = Function.update view.entries name none

theorem create_cases (loaded : Bool) (view : View) (name : QString) :
    view.create loaded name = (view, none) ∨
      loaded = true ∧ ∃ view', view.create loaded name = view'.sent (cleanName name) ∧
        view.Created view' (cleanName name) := by
  unfold View.create
  dsimp only
  split_ifs with hloaded hbad hfull
  · exact .inl rfl
  · exact .inl rfl
  · exact .inl rfl
  · rw [not_or] at hbad
    exact .inr ⟨by simpa using hloaded, _, rfl, hbad.1, hbad.2, by omega, rfl,
      by rw [cleanName, List.take_take, Nat.min_self], rfl⟩

/-- A call that is refused in a case and changes one playlist in the others. -/
theorem guarded_cases {bad : Prop} [Decidable bad] {view view' : View} {name : QString}
    (h : ¬ bad → view.Changed view' name) :
    (if bad then (view, none) else view'.sent name) = (view, none) ∨
      ∃ changed, (if bad then (view, none) else view'.sent name) = changed.sent name ∧
        view.Changed changed name := by
  by_cases hbad : bad
  · exact .inl (if_pos hbad)
  · exact .inr ⟨view', if_neg hbad, h hbad⟩

theorem add_cases (view : View) (name workshopId : QString) :
    view.add name workshopId = (view, none) ∨
      ∃ view', view.add name workshopId = view'.sent name ∧ view.Changed view' name := by
  unfold View.add
  dsimp only
  split_ifs with hbad hfull hold
  · exact .inl rfl
  · refine .inl ?_
    cases hentries : view.entries name with
    | none => simp [hentries, maxEntries] at hfull
    | some entries =>
      have hsame : Function.update view.entries name (some entries) = view.entries := by
        rw [← hentries, Function.update_eq_self]
      simp [View.setEntries, hsame]
  all_goals
    simp only [not_or, not_not] at hbad
    exact .inr ⟨_, rfl, .inl hbad.1, rfl, rfl, fun other hne => by simp [View.setEntries, hne]⟩

theorem removeEntry_cases (view : View) (name workshopId : QString) :
    view.removeEntry name workshopId = (view, none) ∨
      ∃ view', view.removeEntry name workshopId = view'.sent name ∧ view.Changed view' name := by
  unfold View.removeEntry
  split
  · exact .inl rfl
  next entries hentries =>
    exact guarded_cases fun _ => ⟨.inr (by simp [hentries]), rfl, rfl,
      fun other hne => by simp [View.setEntries, hne]⟩

/-- **A call** is refused, or changes the view and sends what it is then. -/
theorem edit_cases (loaded : Bool) (view : View) (c : Call) :
    view.edit loaded c = (view, none) ∨
      (c.isCreate = true ∧ loaded = true ∧ ∃ view', view.edit loaded c = view'.sent c.title ∧
        view.Created view' c.title) ∨
      (c.isCreate = false ∧ ∃ view', view.edit loaded c = view'.sent c.title ∧
        view.Changed view' c.title) ∨
      c.isCreate = false ∧
        ∃ view', view.edit loaded c = (view', some (.remove ((view.ids c.title).getD []))) ∧
          view.Removed view' c.title := by
  cases c with
  | create name => exact (create_cases loaded view name).imp_right fun h => .inl ⟨rfl, h⟩
  | remove name =>
    by_cases hname : name ∈ view.names
    · exact .inr (.inr (.inr ⟨rfl, _, if_neg (not_not.mpr hname), hname, rfl, rfl, rfl⟩))
    · exact .inl (if_pos hname)
  | add name workshopId =>
    exact (add_cases view name workshopId).imp_right fun h => .inr (.inl ⟨rfl, h⟩)
  | removeEntry name workshopId =>
    exact (removeEntry_cases view name workshopId).imp_right fun h => .inr (.inl ⟨rfl, h⟩)
  | setShuffle name value =>
    refine (guarded_cases fun hgood => ?_).imp_right fun h => .inr (.inl ⟨rfl, h⟩)
    exact ⟨.inl (not_not.mp hgood), rfl, rfl, fun _ _ => rfl⟩
  | setRepeat name value =>
    refine (guarded_cases fun hgood => ?_).imp_right fun h => .inr (.inl ⟨rfl, h⟩)
    exact ⟨.inl (not_not.mp hgood), rfl, rfl, fun _ _ => rfl⟩
  | setDurationSeconds name value =>
    refine (guarded_cases fun hgood => ?_).imp_right fun h => .inr (.inl ⟨rfl, h⟩)
    exact ⟨.inl (not_not.mp (not_or.mp hgood).1), rfl, rfl, fun _ _ => rfl⟩
  | setTransition name value =>
    refine (guarded_cases fun hgood => ?_).imp_right fun h => .inr (.inl ⟨rfl, h⟩)
    exact ⟨.inl (not_not.mp (not_or.mp hgood).1), rfl, rfl, fun _ _ => rfl⟩
  | setTransitionSeconds name value =>
    refine (guarded_cases fun hgood => ?_).imp_right fun h => .inr (.inl ⟨rfl, h⟩)
    exact ⟨.inl (not_not.mp (not_or.mp hgood).1), rfl, rfl, fun _ _ => rfl⟩

theorem create_sent {view : View} {name : QString} {e : Edit}
    (h : (view.create true name).2 = some e) :
    cleanName name ≠ [] ∧ cleanName name ∉ view.names ∧ view.names.length < maxPlaylists ∧
      ∃ playlist, e = .put playlist ∧ playlist.id = cleanName name := by
  rcases create_cases true view name with hsame | ⟨-, view', hsent, hcreated⟩
  · rw [hsame] at h
    cases h
  · rw [hsent] at h
    obtain rfl := Option.some.inj h
    refine ⟨hcreated.ne_nil, hcreated.notMem, hcreated.size, _, rfl, ?_⟩
    simp [View.playlistObject, hcreated.ids]

theorem create_accepted {view : View} {name : QString} (hne : cleanName name ≠ [])
    (hnew : cleanName name ∉ view.names) (hsize : view.names.length < maxPlaylists) :
    ((view.create true name).2).isSome = true := by
  unfold View.create
  dsimp only
  rw [if_neg Bool.true_eq_false.mp, if_neg (by simp [hne, hnew]), if_neg (by omega)]
  rfl

/-! ## The daemon's playlists -/

/-- `toInt` of a number of the daemon, `none` if it is no `int`. -/
def toInt (n : Nat) : Option Int := if n < 2 ^ 31 then some n else none

def transitionName : PlaylistTransition → QString
  | .none => noTransition
  | .crossfade => utf16 "crossfade"

/-- A playlist of the daemon in a reply. -/
def Record.ofPlaylist (p : Playlist) : Record where
  id := utf16 p.id
  title := utf16 p.title
  entries := p.entries.map fun entry => some (utf16 entry)
  shuffle := some p.shuffle
  repeat_ := some p.repeat_
  durationSeconds := toInt p.durationSeconds
  transition := some (transitionName p.transition)
  transitionSeconds := toInt p.transitionSeconds

/-- The title under which a playlist is shown. -/
def shownTitle (p : Playlist) : QString := trimmed (utf16 p.title)

/-- The view holds what it holds of a playlist under a title. -/
structure View.Row (view : View) (title : QString) (p : Playlist) : Prop where
  id : view.ids title = some (utf16 p.id)
  entries : view.entries title = some (p.entries.map utf16)
  shuffle : view.shuffle title = some p.shuffle
  repeat_ : view.repeat_ title = some p.repeat_
  durationSeconds : view.durationSeconds title = some (p.durationSeconds : Int)
  transition : view.transition title = some (transitionName p.transition)
  transitionSeconds : view.transitionSeconds title = some (p.transitionSeconds : Int)

/-- Nothing is held under a title. -/
structure View.NoRow (view : View) (title : QString) : Prop where
  id : view.ids title = none
  entries : view.entries title = none
  shuffle : view.shuffle title = none
  repeat_ : view.repeat_ title = none
  durationSeconds : view.durationSeconds title = none
  transition : view.transition title = none
  transitionSeconds : view.transitionSeconds title = none

/-- The view is that of the playlists, in their order, and of nothing else. -/
structure View.Shows (view : View) (playlists : List Playlist) : Prop where
  names : view.names = playlists.map shownTitle
  rows : ∀ p ∈ playlists, view.Row (shownTitle p) p
  others : ∀ title, title ∉ view.names → view.NoRow title

/-! ## Code units -/

theorem utf16_inj {a b : String} : utf16 a = utf16 b ↔ a = b :=
  ⟨fun h => String.toList_inj.mp (Utf16.utf16_injective h), fun h => by rw [h]⟩

theorem length_utf16_le (text : String) : (utf16 text).length ≤ text.utf8ByteSize := by
  have hsize : text.utf8ByteSize = Utf8.size text.toList := by
    rw [← Utf8.length_encode, ← String.size_toByteArray, ← String.utf8Encode_toList,
      Utf8.utf8Encode_eq, List.size_toByteArray]
  rw [hsize]
  exact Utf16.length_utf16_le_size text.toList

theorem isSpace_of_not_whiteSpace {c : Char} (h : isWhiteSpace c = false) :
    ∀ u ∈ utf16Char c, isSpace u = false := by
  intro u hu
  rcases Utf16.utf16Char_cases c with ⟨-, -, hunits⟩ | ⟨a, b, hunits, ha, hb, -⟩
  · rw [hunits, List.mem_singleton] at hu
    subst hu
    exact h
  · rw [hunits] at hu
    simp only [List.mem_cons, List.not_mem_nil, or_false] at hu
    simp only [isSpace, Bool.or_eq_false_iff, Bool.and_eq_false_iff, decide_eq_false_iff_not]
    rcases hu with rfl | rfl <;> omega

theorem trimmed_eq_nil {s : QString} : trimmed s = [] ↔ ∀ u ∈ s, isSpace u = true := by
  rw [trimmed, List.rdropWhile_eq_nil_iff]
  constructor
  · intro h
    have hall := (all_dropWhile isSpace s).symm.trans (List.all_eq_true.mpr h)
    exact List.all_eq_true.mp hall
  · intro h u hu
    exact h u ((List.dropWhile_suffix isSpace).subset hu)

theorem trimmed_ne_nil {text : String} (h : text.toList.all isWhiteSpace = false) :
    trimmed (utf16 text) ≠ [] := by
  intro hnil
  rw [trimmed_eq_nil] at hnil
  obtain ⟨c, hc, hvisible⟩ := List.all_eq_false.mp h
  obtain ⟨u, hu⟩ := List.exists_mem_of_ne_nil _ (Utf16.utf16Char_ne_nil c)
  have hspace := isSpace_of_not_whiteSpace (Bool.eq_false_iff.mpr hvisible) u hu
  rw [hnil u (List.mem_flatMap.mpr ⟨c, hc, hu⟩)] at hspace
  cases hspace

theorem utf16_ne_nil {text : String} (h : boundedName text = true) : utf16 text ≠ [] := by
  intro hnil
  rw [show ([] : QString) = utf16 "" from rfl, utf16_inj] at hnil
  subst hnil
  cases h

theorem length_utf16_of_bounded {text : String} (h : boundedName text = true) :
    (utf16 text).length ≤ 128 := by
  simp only [boundedName, Bool.and_eq_true, decide_eq_true_eq] at h
  exact Nat.le_trans (length_utf16_le text) h.2

/-! ## The list of the daemon -/

theorem foldl_readEntry {entries : List String} (shown : List QString)
    (hbounded : ∀ entry ∈ entries, boundedName entry = true) (hnodup : entries.Nodup)
    (hnew : ∀ entry ∈ entries, utf16 entry ∉ shown) :
    (entries.map fun entry => some (utf16 entry)).foldl readEntry shown =
      shown ++ entries.map utf16 := by
  induction entries generalizing shown with
  | nil => simp
  | cons entry entries ih =>
    rw [List.forall_mem_cons] at hbounded hnew
    rw [List.nodup_cons] at hnodup
    have hlength := length_utf16_of_bounded hbounded.1
    have hread : readEntry shown (some (utf16 entry)) = shown ++ [utf16 entry] := by
      simp [readEntry, utf16_ne_nil hbounded.1, hnew.1]
      omega
    rw [List.map_cons, List.foldl_cons, hread, ih _ hbounded.2 hnodup.2]
    · simp
    · intro other hother
      rw [List.mem_append, List.mem_singleton, utf16_inj, not_or]
      refine ⟨hnew.2 other hother, ?_⟩
      rintro rfl
      exact hnodup.1 hother

theorem addRecord_ofPlaylist {view : View} {p : Playlist} (hvalid : p.validate = .ok ())
    (hnew : shownTitle p ∉ view.names) :
    (addRecord view (some (Record.ofPlaylist p))).names = view.names ++ [shownTitle p] ∧
      (addRecord view (some (Record.ofPlaylist p))).Row (shownTitle p) p ∧
      (∀ title q, title ≠ shownTitle p → view.Row title q →
        (addRecord view (some (Record.ofPlaylist p))).Row title q) ∧
      ∀ title, title ≠ shownTitle p → view.NoRow title →
        (addRecord view (some (Record.ofPlaylist p))).NoRow title := by
  obtain ⟨⟨hid, htitle, -⟩, -, ⟨hentries, hnodup⟩, ⟨-, hduration⟩, htransition, -⟩ :=
    validate_ok_iff.mp hvalid
  have hread : (p.entries.map fun entry => some (utf16 entry)).foldl readEntry [] =
      p.entries.map utf16 := by
    simpa using foldl_readEntry [] hentries hnodup (by simp)
  have hkept : ¬ (trimmed (utf16 p.title) = [] ∨ utf16 p.id = [] ∨
      trimmed (utf16 p.title) ∈ view.names) := by
    rintro (hnil | hnil | hold)
    · exact trimmed_ne_nil htitle hnil
    · exact utf16_ne_nil hid hnil
    · exact hnew hold
  have hsmall : toInt p.durationSeconds = some (p.durationSeconds : Int) := by
    simp only [maxDurationSeconds] at hduration
    exact if_pos (by omega)
  have hshort : toInt p.transitionSeconds = some (p.transitionSeconds : Int) := by
    simp only [maxTransitionSeconds] at htransition
    exact if_pos (by omega)
  simp only [addRecord, Record.ofPlaylist, shownTitle, if_neg hkept, hread, hsmall, hshort]
  refine ⟨trivial, by constructor <;> simp, ?_, ?_⟩
  · intro title q hne hrow
    constructor <;> simp only [Function.update_of_ne hne]
    exacts [hrow.id, hrow.entries, hrow.shuffle, hrow.repeat_, hrow.durationSeconds,
      hrow.transition, hrow.transitionSeconds]
  · intro title hne hrow
    constructor <;> simp only [Function.update_of_ne hne]
    exacts [hrow.id, hrow.entries, hrow.shuffle, hrow.repeat_, hrow.durationSeconds,
      hrow.transition, hrow.transitionSeconds]

theorem View.Shows.add {view : View} {playlists : List Playlist} {p : Playlist}
    (h : view.Shows playlists) (hvalid : p.validate = .ok ())
    (hnew : shownTitle p ∉ playlists.map shownTitle) :
    (addRecord view (some (Record.ofPlaylist p))).Shows (playlists ++ [p]) := by
  obtain ⟨hnames, hrow, hrows, hothers⟩ := addRecord_ofPlaylist hvalid (h.names ▸ hnew)
  refine ⟨?_, ?_, ?_⟩
  · rw [hnames, h.names, List.map_append]
    rfl
  · intro q hq
    rcases List.mem_append.mp hq with hq | hq
    · refine hrows _ q ?_ (h.rows q hq)
      intro heq
      exact hnew (heq ▸ List.mem_map_of_mem hq)
    · rw [List.mem_singleton.mp hq]
      exact hrow
  · intro title htitle
    rw [hnames, List.mem_append, List.mem_singleton, not_or] at htitle
    exact hothers title htitle.2 (h.others title htitle.1)

theorem View.empty_shows : View.empty.Shows [] :=
  ⟨rfl, by simp, fun _ _ => ⟨rfl, rfl, rfl, rfl, rfl, rfl, rfl⟩⟩

/-- What the daemon sends of its playlists. -/
def records (playlists : List Playlist) : List (Option Record) :=
  playlists.map fun p => some (Record.ofPlaylist p)

theorem applyList_shows {playlists : List Playlist}
    (hvalid : ∀ p ∈ playlists, p.validate = .ok ()) (hnodup : (playlists.map shownTitle).Nodup) :
    (applyList (records playlists)).Shows playlists := by
  induction playlists using List.reverseRecOn with
  | nil => exact View.empty_shows
  | append_singleton playlists p ih =>
    have hold := ih (fun q hq => hvalid q (List.mem_append_left _ hq))
      (hnodup.sublist ((List.sublist_append_left _ _).map _))
    rw [List.map_append, List.nodup_append] at hnodup
    rw [applyList, records, List.map_append, List.foldl_append]
    refine hold.add (hvalid p (by simp)) ?_
    intro hmem
    exact hnodup.2.2 _ hmem _ (by simp) rfl

end Kwe.Playlists.Editor
