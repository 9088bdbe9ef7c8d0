import Kwe.Foundation.Runs
import Kwe.Playlists.Editor
import Kwe.Playlists.Persistence

/-!
The ids under which the editor sends its playlists, and the playlists of the daemon
that these ids name.

* `step_held`: what an edit that is proper keeps of the view and the store;
* `edits_proper_iff`: the edits of a run are proper just when every name that is created
  is a short text that is no id of the store;
* `mix_overwritten`: a create that overwrites a playlist hidden by another one.
-/

namespace Kwe.Playlists.Editor

open Foundation Foundation.Runs

/-! ## What the daemon reads -/

/-- The text of code units; a lone surrogate has none. -/
def text (s : QString) : Option String := (Utf16.decode s).map String.ofList

def readTransition (value : QString) : Option PlaylistTransition :=
  if value = noTransition then some .none
  else if value = utf16 "crossfade" then some .crossfade
  else none

/-- An unsigned number up to `limit`. -/
def readNumber (limit : Nat) (n : Int) : Option Nat :=
  if 0 ≤ n ∧ n ≤ limit then some n.toNat else none

def PlaylistObject.read (o : PlaylistObject) : Option Playlist := do
  let id ← text o.id
  let title ← text o.title
  let entries ← o.entries.mapM text
  let durationSeconds ← readNumber (2 ^ 32 - 1) o.durationSeconds
  let transition ← readTransition o.transition
  let transitionSeconds ← readNumber (2 ^ 8 - 1) o.transitionSeconds
  return ⟨id, title, entries, o.shuffle, o.repeat_, durationSeconds, transition, transitionSeconds⟩

/-- The session after an edit; `stored` is the outcome of writing the definitions. -/
def handle (codec : Codec) (stored : Except String Unit) (e : Edit) (s : SessionRuntime) :
    SessionRuntime :=
  match e with
  | .put playlist =>
    match playlist.read with
    | none => s
    | some playlist => (s.putPlaylist stored playlist).session
  | .remove id =>
    match text id with
    | none => s
    | some id => (s.removePlaylist codec stored id).session

/-! ## A controller and its daemon -/

structure Editing where
  view : View
  session : SessionRuntime

inductive Step
  /-- A call, and how the daemon handles its edit; `none` if it never does. -/
  | call (c : Call) (stored : Option (Except String Unit))
  /-- The list is loaded again. -/
  | reload

namespace Editing

def store (w : Editing) : List Playlist := w.session.playlists

/-- The list has been loaded. -/
def loaded (session : SessionRuntime) : Editing :=
  ⟨applyList (records session.playlists), session⟩

def step (codec : Codec) (w : Editing) : Step → Editing
  | .call c stored =>
    let (view, edit) := w.view.edit true c
    match edit, stored with
    | some e, some stored => ⟨view, handle codec stored e w.session⟩
    | _, _ => ⟨view, w.session⟩
  | .reload =>
    match w.session.storeError with
    | some _ => w
    | none => loaded w.session

end Editing

/-! ## Proper edits -/

def Edit.id : Edit → QString
  | .put playlist => playlist.id
  | .remove id => id

/-- The playlist has been given this title, or is listed under it. -/
def ShownAs (p : Playlist) (title : QString) : Prop := utf16 p.title = title ∨ shownTitle p = title

/-- No playlist of the store has the id. -/
def Fresh (store : List Playlist) (id : QString) : Prop := ∀ p ∈ store, utf16 p.id ≠ id

/-- The id is the one displayed under the title, and names no other playlist. -/
def Named (w : Editing) (title id : QString) : Prop :=
  w.view.ids title = some id ∧ ∀ p ∈ w.store, utf16 p.id = id → ShownAs p title

/-- An id of the daemon. -/
def Bounded (id : QString) : Prop := ∃ t, text id = some t ∧ boundedName t = true

/-- The edit of a call creates a playlist under a new id or is about the playlist that is
displayed; and a create does the former, under an id of the daemon. -/
def Proper (w : Editing) : Step → Prop
  | .call c _ => ∀ e, (w.view.edit true c).2 = some e →
      ((∃ playlist, e = .put playlist) ∧ Fresh w.store e.id ∨ Named w c.title e.id) ∧
      (c.isCreate = true → Fresh w.store e.id ∧ Bounded e.id)
  | .reload => True

/-- A name that is accepted is a text of at most 128 bytes, and no id of the store. -/
def NewName (w : Editing) : Step → Prop
  | .call (.create name) _ =>
      cleanName name ≠ [] → cleanName name ∉ w.view.names → w.view.names.length < maxPlaylists →
        (∃ t, text (cleanName name) = some t ∧ t.utf8ByteSize ≤ 128) ∧
          ∀ p ∈ w.store, utf16 p.id ≠ cleanName name
  | _ => True

/-! ## The store -/

theorem text_eq_some {s : QString} {t : String} (h : text s = some t) : utf16 t = s := by
  obtain ⟨chars, hchars, rfl⟩ := Option.map_eq_some_iff.mp h
  rw [utf16, String.toList_ofList]
  exact Utf16.utf16_of_decode hchars

theorem text_utf16 (t : String) : text (utf16 t) = some t := by
  rw [text, utf16, Utf16.decode_utf16, Option.map_some, String.ofList_toList]

theorem read_spec {o : PlaylistObject} {p : Playlist} (h : o.read = some p) :
    utf16 p.id = o.id ∧ utf16 p.title = o.title := by
  simp only [PlaylistObject.read, Option.bind_eq_bind, Option.bind_eq_some_iff, Option.pure_def,
    Option.some.injEq] at h
  obtain ⟨id, hid, title, htitle, entries, -, durationSeconds, -, transition, -,
    transitionSeconds, -, rfl⟩ := h
  exact ⟨text_eq_some hid, text_eq_some htitle⟩

theorem putPlaylist_store (stored : Except String Unit) (p : Playlist) (s : SessionRuntime) :
    (s.putPlaylist stored p).session.playlists = s.playlists ∨
      (s.putPlaylist stored p).session.playlists = s.playlists.filter (·.id ≠ p.id) ++ [p] := by
  unfold SessionRuntime.putPlaylist
  split
  · exact .inl rfl
  · split
    · exact .inl rfl
    · dsimp only
      split
      · exact .inl rfl
      · exact .inr rfl

theorem persistState_store (codec : Codec) (s : SessionRuntime) :
    (s.persistState codec).1.playlists = s.playlists := by
  obtain ⟨snapshots, heq, -⟩ := SessionRuntime.evict_spec codec s
  unfold SessionRuntime.persistState
  dsimp only
  split <;> rw [heq]

theorem removePlaylist_store (codec : Codec) (stored : Except String Unit) (id : String)
    (s : SessionRuntime) :
    (s.removePlaylist codec stored id).session.playlists = s.playlists ∨
      (s.removePlaylist codec stored id).session.playlists = s.playlists.filter (·.id ≠ id) := by
  unfold SessionRuntime.removePlaylist
  split
  · exact .inl rfl
  · split
    · exact .inl rfl
    · dsimp only
      split
      · exact .inl rfl
      · refine .inr ?_
        dsimp only
        rw [persistState_store]
        split <;> rfl

/-- The store after a playlist with this id and title has been put or refused. -/
def Put (store store' : List Playlist) (id title : QString) : Prop :=
  store' = store ∨ ∃ p : Playlist, utf16 p.id = id ∧ utf16 p.title = title ∧
    store' = store.filter (fun q => q.id ≠ p.id) ++ [p]

/-- The store after the playlist with this id has been removed, or nothing was. -/
def Took (store store' : List Playlist) (id : QString) : Prop :=
  store' = store ∨ ∃ t : String, utf16 t = id ∧ store' = store.filter fun q => q.id ≠ t

theorem handle_put (codec : Codec) (stored : Except String Unit) (o : PlaylistObject)
    (s : SessionRuntime) :
    Put s.playlists (handle codec stored (.put o) s).playlists o.id o.title := by
  unfold handle
  dsimp only
  split
  · exact .inl rfl
  next p hread =>
    obtain ⟨hid, htitle⟩ := read_spec hread
    exact (putPlaylist_store stored p s).imp_right fun h => ⟨p, hid, htitle, h⟩

theorem handle_remove (codec : Codec) (stored : Except String Unit) (id : QString)
    (s : SessionRuntime) : Took s.playlists (handle codec stored (.remove id) s).playlists id := by
  unfold handle
  dsimp only
  split
  · exact .inl rfl
  next t htext =>
    exact (removePlaylist_store codec stored t s).imp_right fun h => ⟨t, text_eq_some htext, h⟩

/-! ## The invariant -/

structure Held (view : View) (store : List Playlist) : Prop where
  ids : (store.map (·.id)).Nodup
  names : view.names.Nodup
  dom : ∀ title, (view.ids title).isSome = true ↔ title ∈ view.names
  entries : ∀ title, (view.entries title).isSome = true → title ∈ view.names
  /-- Two titles have different ids. -/
  inj : ∀ title other id, view.ids title = some id → view.ids other = some id → title = other
  /-- An id is a title that has been created, or is in the store. -/
  known : ∀ title id, view.ids title = some id → id = title ∨ ∃ p ∈ store, utf16 p.id = id
  shown : ∀ title id, view.ids title = some id → ∀ p ∈ store, utf16 p.id = id → ShownAs p title

theorem Held.named {view : View} (session : SessionRuntime) (h : Held view session.playlists)
    {title : QString} (htitle : title ∈ view.names) :
    Named ⟨view, session⟩ title ((view.ids title).getD []) := by
  obtain ⟨id, hid⟩ := Option.isSome_iff_exists.mp ((h.dom title).mpr htitle)
  have hview : view.ids title = some ((view.ids title).getD []) := by simp [hid]
  exact ⟨hview, h.shown title _ hview⟩

theorem mem_put {store : List Playlist} {p q : Playlist} :
    q ∈ store.filter (fun q => q.id ≠ p.id) ++ [p] ↔ q ∈ store ∧ q.id ≠ p.id ∨ q = p := by
  simp

theorem nodup_put {store : List Playlist} (h : (store.map (·.id)).Nodup) (p : Playlist) :
    ((store.filter (fun q => q.id ≠ p.id) ++ [p]).map (·.id)).Nodup := by
  rw [List.map_append, List.nodup_append]
  refine ⟨h.sublist (List.filter_sublist.map _), by simp, ?_⟩
  intro id hid other hother
  obtain ⟨q, hq, rfl⟩ := List.mem_map.mp hid
  obtain rfl : other = p.id := by simpa using hother
  simpa using (List.mem_filter.mp hq).2

/-- What a put keeps, whose title is displayed with its id. -/
theorem Held.put {view : View} {store store' : List Playlist} {title id : QString}
    (h : Held view store) (hput : Put store store' id title) (hid : view.ids title = some id) :
    Held view store' := by
  rcases hput with rfl | ⟨p, rfl, rfl, rfl⟩
  · exact h
  · refine { h with ids := nodup_put h.ids p, known := ?_, shown := ?_ }
    · intro other i hother
      rcases h.known other i hother with rfl | ⟨q, hq, rfl⟩
      · exact .inl rfl
      · by_cases hsame : q.id = p.id
        · exact .inr ⟨p, mem_put.mpr (.inr rfl), by rw [hsame]⟩
        · exact .inr ⟨q, mem_put.mpr (.inl ⟨hq, hsame⟩), rfl⟩
    · intro other i hother q hq hqid
      rcases mem_put.mp hq with ⟨hold, -⟩ | rfl
      · exact h.shown other i hother q hold hqid
      · subst hqid
        exact .inl (h.inj _ _ _ hid hother)

theorem Held.changed {view view' : View} {store : List Playlist} {title : QString}
    (h : Held view store) (hchanged : view.Changed view' title) : Held view' store := by
  have hmem : title ∈ view.names := hchanged.known.elim id (h.entries title)
  refine ⟨h.ids, hchanged.names ▸ h.names, ?_, ?_, ?_, ?_, ?_⟩
  · rw [hchanged.names, hchanged.ids]
    exact h.dom
  · intro other hother
    rw [hchanged.names]
    by_cases hsame : other = title
    · exact hsame ▸ hmem
    · rw [hchanged.entries other hsame] at hother
      exact h.entries other hother
  · rw [hchanged.ids]
    exact h.inj
  · rw [hchanged.ids]
    exact h.known
  · rw [hchanged.ids]
    exact h.shown

/-- A new title that is no id of the store. -/
theorem Held.created {view view' : View} {store : List Playlist} {title : QString}
    (h : Held view store) (hcreated : view.Created view' title) (hnew : Fresh store title) :
    Held view' store := by
  have hids (other id : QString) (hother : view'.ids other = some id) :
      other = title ∧ id = title ∨ other ≠ title ∧ id ≠ title ∧ view.ids other = some id := by
    rw [hcreated.ids] at hother
    by_cases hsame : other = title
    · rw [hsame, Function.update_self] at hother
      exact .inl ⟨hsame, (Option.some.inj hother).symm⟩
    · rw [Function.update_of_ne hsame] at hother
      refine .inr ⟨hsame, ?_, hother⟩
      rintro rfl
      rcases h.known other id hother with heq | ⟨p, hp, hpid⟩
      · exact hsame heq.symm
      · exact hnew p hp hpid
  refine ⟨h.ids, ?_, ?_, ?_, ?_, ?_, ?_⟩
  · rw [hcreated.names]
    exact List.nodup_append.mpr ⟨h.names, by simp, by
      rintro a ha b hb rfl
      exact hcreated.notMem (List.mem_singleton.mp hb ▸ ha)⟩
  · intro other
    rw [hcreated.names, hcreated.ids, List.mem_append, List.mem_singleton]
    by_cases hsame : other = title
    · simp [hsame]
    · simp [hsame, h.dom]
  · intro other hother
    rw [hcreated.entries] at hother
    rw [hcreated.names]
    exact List.mem_append_left _ (h.entries other hother)
  · intro a b id ha hb
    rcases hids a id ha with ⟨rfl, rfl⟩ | ⟨-, hne, ha⟩ <;>
      rcases hids b _ hb with ⟨rfl, hid⟩ | ⟨-, hne', hb⟩
    · rfl
    · exact absurd rfl hne'
    · exact absurd hid hne
    · exact h.inj a b id ha hb
  · intro other id hother
    rcases hids other id hother with ⟨rfl, rfl⟩ | ⟨-, -, hold⟩
    · exact .inl rfl
    · exact h.known other id hold
  · intro other id hother p hp hpid
    rcases hids other id hother with ⟨rfl, rfl⟩ | ⟨-, -, hold⟩
    · exact absurd hpid (hnew p hp)
    · exact h.shown other id hold p hp hpid

theorem Held.removed {view view' : View} {store store' : List Playlist} {title : QString}
    (h : Held view store) (hremoved : view.Removed view' title)
    (htook : Took store store' ((view.ids title).getD [])) : Held view' store' := by
  obtain ⟨id, hid⟩ := Option.isSome_iff_exists.mp ((h.dom title).mpr hremoved.mem)
  rw [hid, Option.getD_some] at htook
  have hids (other i : QString) (hother : view'.ids other = some i) :
      view.ids other = some i ∧ i ≠ id := by
    rw [hremoved.ids] at hother
    by_cases hsame : other = title
    · rw [hsame, Function.update_self] at hother
      cases hother
    · rw [Function.update_of_ne hsame] at hother
      refine ⟨hother, ?_⟩
      rintro rfl
      exact hsame (h.inj other title i hother hid)
  have hsub : store' ⊆ store ∧ (store'.map (·.id)).Nodup := by
    rcases htook with rfl | ⟨t, -, rfl⟩
    · exact ⟨fun _ hp => hp, h.ids⟩
    · exact ⟨List.filter_sublist.subset, h.ids.sublist (List.filter_sublist.map _)⟩
  have hkept (p : Playlist) (hp : p ∈ store) (hne : utf16 p.id ≠ id) : p ∈ store' := by
    rcases htook with rfl | ⟨t, ht, rfl⟩
    · exact hp
    · refine List.mem_filter.mpr ⟨hp, ?_⟩
      rw [decide_eq_true_eq]
      rintro rfl
      exact hne ht
  refine ⟨hsub.2, hremoved.names ▸ h.names.erase title, ?_, ?_, ?_, ?_, ?_⟩
  · intro other
    rw [hremoved.names, hremoved.ids, h.names.mem_erase_iff]
    by_cases hsame : other = title
    · simp [hsame]
    · simp [hsame, h.dom]
  · intro other hother
    rw [hremoved.entries] at hother
    rw [hremoved.names, h.names.mem_erase_iff]
    by_cases hsame : other = title
    · simp [hsame] at hother
    · rw [Function.update_of_ne hsame] at hother
      exact ⟨hsame, h.entries other hother⟩
  · intro a b i ha hb
    exact h.inj a b i (hids a i ha).1 (hids b i hb).1
  · intro other i hother
    obtain ⟨hold, hne⟩ := hids other i hother
    refine (h.known other i hold).imp_right ?_
    rintro ⟨p, hp, rfl⟩
    exact ⟨p, hkept p hp hne, rfl⟩
  · intro other i hother p hp
    exact h.shown other i (hids other i hother).1 p (hsub.1 hp)

/-- The titles and ids that a list has given the view. -/
structure Listed (view : View) (list : List (Option Record)) : Prop where
  names : view.names.Nodup
  dom : ∀ title, (view.ids title).isSome = true ↔ title ∈ view.names
  entries : ∀ title, (view.entries title).isSome = true → title ∈ view.names
  ids : ∀ title id, view.ids title = some id →
    ∃ r, some r ∈ list ∧ trimmed r.title = title ∧ r.id = id

theorem Listed.mono {view : View} {list : List (Option Record)} (h : Listed view list)
    (value : Option Record) : Listed view (list ++ [value]) := by
  refine { h with ids := fun title id hid => ?_ }
  obtain ⟨r, hr, htitle⟩ := h.ids title id hid
  exact ⟨r, List.mem_append_left _ hr, htitle⟩

theorem Listed.add {view : View} {list : List (Option Record)} (h : Listed view list)
    (value : Option Record) : Listed (addRecord view value) (list ++ [value]) := by
  cases value with
  | none => exact h.mono none
  | some r =>
    unfold addRecord
    dsimp only
    split
    next => exact h.mono (some r)
    next hgood =>
      simp only [not_or] at hgood
      refine ⟨?_, ?_, ?_, ?_⟩
      · refine List.nodup_append.mpr ⟨h.names, by simp, ?_⟩
        rintro a ha b hb rfl
        exact hgood.2.2 (List.mem_singleton.mp hb ▸ ha)
      · intro other
        by_cases hsame : other = trimmed r.title
        · simp [hsame]
        · simp [hsame, h.dom]
      · intro other hother
        dsimp only at hother
        by_cases hsame : other = trimmed r.title
        · simp [hsame]
        · rw [Function.update_of_ne hsame] at hother
          exact List.mem_append_left _ (h.entries other hother)
      · intro other id hother
        dsimp only at hother
        by_cases hsame : other = trimmed r.title
        · rw [hsame, Function.update_self] at hother
          exact ⟨r, by simp, hsame.symm, Option.some.inj hother⟩
        · rw [Function.update_of_ne hsame] at hother
          exact (h.mono (some r)).ids other id hother

theorem applyList_listed (list : List (Option Record)) : Listed (applyList list) list := by
  induction list using List.reverseRecOn with
  | nil => exact ⟨List.nodup_nil, by simp [applyList, View.empty], by simp [applyList, View.empty],
      by simp [applyList, View.empty]⟩
  | append_singleton list value ih =>
    rw [applyList, List.foldl_append]
    exact ih.add value

theorem eq_of_utf16_id {store : List Playlist} (h : (store.map (·.id)).Nodup) {p q : Playlist}
    (hp : p ∈ store) (hq : q ∈ store) (hid : utf16 p.id = utf16 q.id) : p = q :=
  List.inj_on_of_nodup_map h hp hq (utf16_inj.mp hid)

theorem loaded_held {store : List Playlist} (h : (store.map (·.id)).Nodup) :
    Held (applyList (records store)) store := by
  have hlisted := applyList_listed (records store)
  have hids (title id : QString) (hid : (applyList (records store)).ids title = some id) :
      ∃ p ∈ store, shownTitle p = title ∧ utf16 p.id = id := by
    obtain ⟨r, hr, htitle, hrid⟩ := hlisted.ids title id hid
    obtain ⟨p, hp, hrecord⟩ := List.mem_map.mp hr
    obtain rfl := Option.some.inj hrecord
    exact ⟨p, hp, htitle, hrid⟩
  refine ⟨h, hlisted.names, hlisted.dom, hlisted.entries, ?_, ?_, ?_⟩
  · intro title other id htitle hother
    obtain ⟨p, hp, rfl, hpid⟩ := hids title id htitle
    obtain ⟨q, hq, rfl, hqid⟩ := hids other id hother
    rw [eq_of_utf16_id h hp hq (hpid.trans hqid.symm)]
  · intro title id htitle
    obtain ⟨p, hp, -, hpid⟩ := hids title id htitle
    exact .inr ⟨p, hp, hpid⟩
  · intro title id htitle p hp hpid
    obtain ⟨q, hq, hshown, hqid⟩ := hids title id htitle
    rw [eq_of_utf16_id h hp hq (hpid.trans hqid.symm)]
    exact .inr hshown

/-! ## Runs -/

theorem Held.named_changed {w : Editing} (h : Held w.view w.store) {view' : View}
    {title : QString} (hchanged : w.view.Changed view' title) :
    Named w title (view'.playlistObject title).id ∧
      w.view.ids title = some (view'.playlistObject title).id := by
  have hmem : title ∈ w.view.names := hchanged.known.elim id (h.entries title)
  obtain ⟨id, hid⟩ := Option.isSome_iff_exists.mp ((h.dom title).mpr hmem)
  have hsent : (view'.playlistObject title).id = id := by
    simp [View.playlistObject, hchanged.ids, hid]
  rw [hsent]
  exact ⟨⟨hid, h.shown title id hid⟩, hid⟩

theorem bounded_iff {id : QString} (hne : id ≠ []) :
    Bounded id ↔ ∃ t, text id = some t ∧ t.utf8ByteSize ≤ 128 := by
  refine exists_congr fun t => and_congr_right fun ht => ?_
  have hfull : t.isEmpty = false := by
    by_contra hempty
    obtain rfl : t = "" := by simpa using hempty
    exact hne (text_eq_some ht).symm
  simp [boundedName, hfull]

/-- **One edit.** -/
theorem proper_iff {w : Editing} (h : Held w.view w.store) (s : Step) :
    Proper w s ↔ NewName w s := by
  cases s with
  | reload => exact Iff.rfl
  | call c stored =>
    constructor
    · intro hproper
      cases c with
      | create name =>
        intro hne hnew hsize
        obtain ⟨e, he⟩ := Option.isSome_iff_exists.mp (create_accepted hne hnew hsize)
        obtain ⟨-, -, -, playlist, rfl, hid⟩ := create_sent he
        obtain ⟨hfresh, hbounded⟩ := (hproper _ he).2 rfl
        simp only [Edit.id, hid] at hfresh hbounded
        exact ⟨(bounded_iff hne).mp hbounded, hfresh⟩
      | _ => trivial
    · intro hname e he
      rcases edit_cases true w.view c with
        hsame | ⟨hcreate, -⟩ | ⟨hcreate, view', hsent, hchanged⟩ | ⟨hcreate, view', hsent, hremoved⟩
      · rw [hsame] at he
        cases he
      · cases c with
        | create name =>
          obtain ⟨hne, hnew, hsize, playlist, rfl, hid⟩ := create_sent he
          obtain ⟨hshort, hfresh⟩ := hname hne hnew hsize
          have hbounded := (bounded_iff hne).mpr hshort
          simp only [Edit.id, hid]
          exact ⟨.inl ⟨⟨playlist, rfl⟩, hfresh⟩, fun _ => ⟨hfresh, hbounded⟩⟩
        | _ => cases hcreate
      · rw [hsent] at he
        obtain rfl := Option.some.inj he
        exact ⟨.inr (h.named_changed hchanged).1, fun htrue => by rw [hcreate] at htrue; cases htrue⟩
      · rw [hsent] at he
        obtain rfl := Option.some.inj he
        exact ⟨.inr (Held.named w.session h hremoved.mem),
          fun htrue => by rw [hcreate] at htrue; cases htrue⟩

theorem step_call (codec : Codec) (w : Editing) (c : Call) (stored : Option (Except String Unit)) :
    (w.step codec (.call c stored)).view = (w.view.edit true c).1 ∧
      ((w.step codec (.call c stored)).store = w.store ∨
        ∃ e stored', (w.view.edit true c).2 = some e ∧
          (w.step codec (.call c stored)).store = (handle codec stored' e w.session).playlists) := by
  simp only [Editing.step]
  split
  next e stored' he => exact ⟨rfl, .inr ⟨e, stored', he, rfl⟩⟩
  next => exact ⟨rfl, .inl rfl⟩

/-- **One step.** -/
theorem step_held {codec : Codec} {w : Editing} (h : Held w.view w.store) {s : Step}
    (hproper : Proper w s) : Held (w.step codec s).view (w.step codec s).store := by
  cases s with
  | reload =>
    unfold Editing.step
    dsimp only
    split
    · exact h
    · exact loaded_held h.ids
  | call c stored =>
    obtain ⟨hview, hstore⟩ := step_call codec w c stored
    rw [hview]
    rcases edit_cases true w.view c with
      hsame | ⟨hcreate, -, view', hsent, hcreated⟩ | ⟨-, view', hsent, hchanged⟩ |
      ⟨-, view', hsent, hremoved⟩
    · rw [hsame] at hstore ⊢
      rcases hstore with hstore | ⟨e, -, he, -⟩
      · rw [hstore]
        exact h
      · cases he
    · have hfresh : Fresh w.store c.title := by
        have hid : (view'.playlistObject c.title).id = c.title := by
          simp [View.playlistObject, hcreated.ids]
        rw [← hid]
        exact ((hproper (.put (view'.playlistObject c.title)) (by rw [hsent]; rfl)).2 hcreate).1
      have hheld := h.created hcreated hfresh
      rw [hsent] at hstore ⊢
      rcases hstore with hstore | ⟨e, stored', he, hstore⟩
      · rw [hstore]
        exact hheld
      · obtain rfl := Option.some.inj he
        rw [hstore]
        exact hheld.put (handle_put codec stored' _ w.session)
          (by simp [View.playlistObject, hcreated.ids])
    · have hid := (h.named_changed hchanged).2
      have hheld := h.changed hchanged
      rw [hsent] at hstore ⊢
      rcases hstore with hstore | ⟨e, stored', he, hstore⟩
      · rw [hstore]
        exact hheld
      · obtain rfl := Option.some.inj he
        rw [hstore]
        exact hheld.put (handle_put codec stored' _ w.session) (hchanged.ids ▸ hid)
    · rw [hsent] at hstore ⊢
      rcases hstore with hstore | ⟨e, stored', he, hstore⟩
      · rw [hstore]
        exact h.removed hremoved (.inl rfl)
      · obtain rfl := Option.some.inj he
        rw [hstore]
        exact h.removed hremoved (handle_remove codec stored' _ w.session)

/-- **Runs.**  Every edit of a controller is proper just when every name that it creates is
a short text that is no id of the store. -/
theorem edits_proper_iff (codec : Codec) (session : SessionRuntime) (steps : List Step)
    (hids : (session.playlists.map (·.id)).Nodup) :
    Along (Editing.step codec) Proper (.loaded session) steps ↔
      Along (Editing.step codec) NewName (.loaded session) steps := by
  refine along_congr (I := fun w => Held w.view w.store) (C := fun _ _ => True)
    (fun _ _ h _ hproper => step_held h hproper) (fun _ s h _ => proper_iff h s) ?_
    (along_of_forall (fun _ _ => trivial) _ _)
  exact loaded_held hids

def mix (wallpaper : String) : ImportPlaylist :=
  ⟨"Mix", [wallpaper], false, true, 60, "none", 0⟩

/-- Two playlists that were stored under one title have been imported. -/
def imported : SessionRuntime :=
  ((SessionRuntime.new [] 0 (.ok []) (.empty false)).importPlaylists (.ok ()) [mix "1", mix "2"]).session

theorem imported_ids : imported.playlists.map (·.id) = ["Mix", "Mix-2"] := by decide +kernel

example : imported.playlists.map (·.entries) = [["1"], ["2"]] := by decide +kernel

theorem edits_proper_imported :
    Along (Editing.step serdeCodec) Proper (.loaded imported)
      [.call (.create (utf16 "Night")) (some (.ok ())), .call (.remove (utf16 "Mix")) (some (.ok ())),
        .reload, .call (.setShuffle (utf16 "Mix") true) (some (.ok ()))] := by
  refine (edits_proper_iff serdeCodec imported _ (by rw [imported_ids]; decide)).mpr
    ⟨fun _ _ _ => ⟨⟨"Night", by decide +kernel, by decide⟩, ?_⟩, trivial, trivial, trivial, trivial⟩
  intro p hp
  have hid : p.id ∈ imported.playlists.map (·.id) := List.mem_map_of_mem hp
  rw [imported_ids] at hid
  rw [show cleanName (utf16 "Night") = utf16 "Night" by decide +kernel, ne_eq, utf16_inj]
  intro heq
  rw [heq] at hid
  revert hid
  decide

theorem mix_overwritten :
    ¬ Proper (.loaded imported) (.call (.create (utf16 "Mix-2")) (some (.ok ()))) ∧
      imported.playlists.map (fun p => (p.id, p.entries)) = [("Mix", ["1"]), ("Mix-2", ["2"])] ∧
      ((Editing.loaded imported).step serdeCodec
        (.call (.create (utf16 "Mix-2")) (some (.ok ())))).store.map (fun p => (p.id, p.entries)) =
          [("Mix", ["1"]), ("Mix-2", [])] := by
  refine ⟨?_, by decide +kernel, by decide +kernel⟩
  intro hproper
  have hids : (imported.playlists.map (·.id)).Nodup := by
    rw [imported_ids]
    decide
  have hname := (proper_iff (w := .loaded imported) (loaded_held hids) _).mp hproper
  obtain ⟨p, hp, hid⟩ := List.mem_map.mp
    (show "Mix-2" ∈ imported.playlists.map (·.id) by rw [imported_ids]; decide)
  refine (hname (by decide +kernel) (by decide +kernel) (by decide +kernel)).2 p hp ?_
  rw [hid]
  decide +kernel

end Kwe.Playlists.Editor
