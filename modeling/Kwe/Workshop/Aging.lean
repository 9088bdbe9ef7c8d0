import Kwe.Foundation.Runs
import Kwe.Workshop.CacheFormat

/-!
How entries age over scans and restarts.

* `merge_mem`, `merge_ids`: what a scan leaves in the cache and the catalog;
* `aging_iff`: when every scan keeps the entries of the last 30 days and drops
  the others.
-/

namespace Kwe.Workshop

open Foundation
open Std (ExtTreeMap)

/-! ## One scan -/

/-- The catalog lists the id in a subscribed state. -/
def Catalog.Subscribed (catalog : Catalog) (id : String) : Prop :=
  ∃ item ∈ catalog.items, item.workshopId = id ∧ isSubscribedState item.workshopState = true

theorem restored_workshopId (items : Items) (item : CatalogItem) :
    (restored items item).workshopId = item.workshopId := by
  unfold restored
  repeat' split
  all_goals rfl

theorem ids_restored (items : Items) (catalog : Catalog) :
    ({ catalog with items := catalog.items.map (restored items) } : Catalog).ids = catalog.ids := by
  simp [Catalog.ids, Function.comp_def, restored_workshopId]

theorem updateOf_id {items : Items} {now : U128} {item : CatalogItem} {u : String × CachedItem}
    (h : updateOf items now item = some u) :
    u.1 = item.workshopId ∧ isSubscribedState item.workshopState = true := by
  unfold updateOf at h
  dsimp only at h
  split at h
  next hmissing =>
    obtain rfl := Option.some.inj h
    exact ⟨rfl, by simp [isSubscribedState, hmissing]⟩
  next =>
    split at h
    next hsub =>
      obtain rfl := Option.some.inj h
      exact ⟨rfl, hsub⟩
    next => cases h

theorem updateOf_subscribed (items : Items) (now : U128) {item : CatalogItem}
    (h : isSubscribedState item.workshopState = true) :
    ∃ entry, updateOf items now item = some (item.workshopId, entry) := by
  unfold updateOf
  by_cases hmissing : item.workshopState = "subscribed_missing"
  · exact ⟨_, if_pos hmissing⟩
  · exact ⟨_, (if_neg hmissing).trans (if_pos h)⟩

/-- The ids of the updates are those that the scan lists as subscribed. -/
theorem mem_updates (items : Items) (now : U128) (catalog : Catalog) (id : String) :
    id ∈ (catalog.items.filterMap (updateOf items now)).map (·.1) ↔ catalog.Subscribed id := by
  simp only [List.mem_map, List.mem_filterMap]
  constructor
  · rintro ⟨u, ⟨item, hitem, hu⟩, rfl⟩
    obtain ⟨hid, hsub⟩ := updateOf_id hu
    exact ⟨item, hitem, hid.symm, hsub⟩
  · rintro ⟨item, hitem, rfl, hsub⟩
    obtain ⟨entry, hentry⟩ := updateOf_subscribed items now hsub
    exact ⟨_, ⟨item, hitem, hentry⟩, rfl⟩

theorem Catalog.Subscribed.mem_ids {catalog : Catalog} {id : String} (h : catalog.Subscribed id) :
    id ∈ catalog.ids := by
  obtain ⟨item, hitem, rfl, -⟩ := h
  exact List.mem_map_of_mem hitem

theorem applyUpdates_mem (items : Items) (changed : Bool) (updates : List (String × CachedItem))
    (id : String) :
    id ∈ (applyUpdates items changed updates).1 ↔ id ∈ updates.map (·.1) ∨ id ∈ items := by
  induction updates generalizing items changed with
  | nil => simp [applyUpdates]
  | cons u updates ih =>
    rw [applyUpdates, ih, ExtTreeMap.mem_insert, Std.LawfulEqCmp.compare_eq_iff_eq,
      List.map_cons, List.mem_cons]
    constructor
    · rintro (h | rfl | h)
      · exact .inl (.inr h)
      · exact .inl (.inl rfl)
      · exact .inr h
    · rintro ((rfl | h) | h)
      · exact .inr (.inl rfl)
      · exact .inl h
      · exact .inr (.inr h)

theorem applyUpdates_other {items : Items} {changed : Bool} {updates : List (String × CachedItem)}
    {id : String} (h : id ∉ updates.map (·.1)) :
    (applyUpdates items changed updates).1[id]? = items[id]? := by
  induction updates generalizing items changed with
  | nil => rfl
  | cons u updates ih =>
    rw [List.map_cons, List.mem_cons, not_or] at h
    rw [applyUpdates, ih h.2, ExtTreeMap.getElem?_insert, if_neg]
    rw [Std.LawfulEqCmp.compare_eq_iff_eq]
    exact fun heq => h.1 heq.symm

/-- Updates that change no content are of ids that are cached. -/
theorem applyUpdates_unchanged {items : Items} {changed : Bool}
    {updates : List (String × CachedItem)} (h : (applyUpdates items changed updates).2 = false) :
    changed = false ∧ ∀ id ∈ updates.map (·.1), id ∈ items := by
  induction updates generalizing items changed with
  | nil => exact ⟨h, fun _ hid => absurd hid List.not_mem_nil⟩
  | cons u updates ih =>
    obtain ⟨hchanged, hrest⟩ := ih h
    obtain ⟨hc, hsame⟩ := Bool.or_eq_false_iff.mp hchanged
    have hmem : u.1 ∈ items := by
      rw [ExtTreeMap.mem_iff_isSome_getElem?]
      cases hu : items[u.1]? with
      | none => rw [hu] at hsame; cases hsame
      | some existing => rfl
    refine ⟨hc, fun id hid => ?_⟩
    rcases List.mem_cons.mp hid with rfl | hid
    · exact hmem
    · rcases ExtTreeMap.mem_insert.mp (hrest id hid) with heq | hin
      · rw [Std.LawfulEqCmp.compare_eq_iff_eq] at heq
        exact heq ▸ hmem
      · exact hin

/-! ### Aging -/

theorem mem_absentEntries {items : Items} {catalog : Catalog} {e : String × CachedItem} :
    e ∈ absentEntries items catalog ↔ items[e.1]? = some e.2 ∧ e.1 ∉ catalog.ids := by
  rw [absentEntries, List.mem_filter, ExtTreeMap.mem_toList_iff_getElem?_eq_some]
  simp

theorem mem_agedOut {items : Items} {catalog : Catalog} {now : U128} {id : String} :
    id ∈ agedOut items catalog now ↔
      id ∉ catalog.ids ∧ ∃ entry, items[id]? = some entry ∧ entry.isStale now = true := by
  simp only [agedOut, List.mem_map, List.mem_filter, mem_absentEntries]
  constructor
  · rintro ⟨e, ⟨⟨hentry, habsent⟩, hstale⟩, rfl⟩
    exact ⟨habsent, e.2, hentry, hstale⟩
  · rintro ⟨habsent, entry, hentry, hstale⟩
    exact ⟨(id, entry), ⟨⟨hentry, habsent⟩, hstale⟩, rfl⟩

theorem mem_toSynthesize {items : Items} {catalog : Catalog} {now : U128}
    {e : String × CachedItem} (h : e ∈ toSynthesize items catalog now) :
    items[e.1]? = some e.2 ∧ e.1 ∉ catalog.ids ∧ e.2.isStale now = false := by
  unfold toSynthesize at h
  split at h
  next =>
    obtain ⟨habsent, hfresh⟩ := List.mem_filter.mp h
    obtain ⟨hentry, hid⟩ := mem_absentEntries.mp habsent
    exact ⟨hentry, hid, by simpa using hfresh⟩
  next => cases h

theorem foldl_erase_mem (items : Items) (ids : List String) (id : String) :
    id ∈ ids.foldl (fun m id => m.erase id) items ↔ id ∈ items ∧ id ∉ ids := by
  induction ids generalizing items with
  | nil => simp
  | cons gone ids ih =>
    rw [List.foldl_cons, ih, ExtTreeMap.mem_erase, Ne, Std.LawfulEqCmp.compare_eq_iff_eq,
      List.mem_cons, not_or]
    constructor
    · rintro ⟨⟨hne, hmem⟩, hids⟩
      exact ⟨hmem, fun heq => hne heq.symm, hids⟩
    · rintro ⟨hmem, hne, hids⟩
      exact ⟨⟨fun heq => hne heq.symm, hmem⟩, hids⟩

theorem synthesize_mem (now : U128) (state : Items × Catalog) (e : String × CachedItem)
    (id : String) : id ∈ (synthesize now state e).1 ↔ id ∈ state.1 := by
  rw [synthesize, ExtTreeMap.mem_alter]
  split
  next heq =>
    rw [Std.LawfulEqCmp.compare_eq_iff_eq] at heq
    rw [← heq, Option.isSome_map, ← ExtTreeMap.mem_iff_isSome_getElem?]
  next => exact Iff.rfl

theorem foldl_synthesize (now : U128) (state : Items × Catalog)
    (entries : List (String × CachedItem)) :
    (∀ id, id ∈ (entries.foldl (synthesize now) state).1 ↔ id ∈ state.1) ∧
      (entries.foldl (synthesize now) state).2.ids = state.2.ids ++ entries.map (·.1) := by
  induction entries generalizing state with
  | nil => simp
  | cons e entries ih =>
    obtain ⟨hmem, hids⟩ := ih (synthesize now state e)
    refine ⟨fun id => (hmem id).trans (synthesize_mem now state e id), ?_⟩
    rw [List.foldl_cons, hids, List.map_cons]
    simp [synthesize, Catalog.ids, synthesizedItem]

/-- **What a scan keeps.**  An id that the scan lists stays, and is added if it
is subscribed; another id stays while its entry is not stale. -/
theorem merge_mem (items : Items) (scanned : Catalog) (now : U128) (id : String) :
    id ∈ (mergeAndUpdate items scanned now).items ↔
      scanned.Subscribed id ∨ id ∈ items ∧
        (id ∉ scanned.ids → ∀ entry, items[id]? = some entry → entry.isStale now = false) := by
  unfold mergeAndUpdate
  dsimp only
  rw [(foldl_synthesize _ _ _).1, foldl_erase_mem, applyUpdates_mem, mem_updates, mem_agedOut,
    ids_restored]
  by_cases hlisted : id ∈ scanned.ids
  · simp [hlisted]
  · have hother : ¬ scanned.Subscribed id := fun h => hlisted h.mem_ids
    rw [applyUpdates_other ((mem_updates items now scanned id).not.mpr hother)]
    simp [hlisted, hother]

/-- **What a scan lists.**  An id in the catalog is one that the scan lists, or
one whose entry is not stale. -/
theorem merge_ids {items : Items} {scanned : Catalog} {now : U128} {id : String}
    (h : id ∈ (mergeAndUpdate items scanned now).catalog.ids) :
    id ∈ scanned.ids ∨ ∃ entry, items[id]? = some entry ∧ entry.isStale now = false := by
  unfold mergeAndUpdate at h
  dsimp only at h
  rw [(foldl_synthesize _ _ _).2, List.mem_append, ids_restored] at h
  rcases h with h | h
  · exact .inl h
  · obtain ⟨e, he, rfl⟩ := List.mem_map.mp h
    obtain ⟨hentry, habsent, hfresh⟩ := mem_toSynthesize he
    rw [ids_restored] at habsent
    rw [applyUpdates_other fun hup => habsent ((mem_updates items now scanned e.1).mp hup).mem_ids]
      at hentry
    exact .inr ⟨e.2, hentry, hfresh⟩

/-- A scan that changes nothing keeps the ids. -/
theorem merge_unchanged {items : Items} {scanned : Catalog} {now : U128}
    (h : (mergeAndUpdate items scanned now).changed = false) (id : String) :
    id ∈ (mergeAndUpdate items scanned now).items ↔ id ∈ items := by
  unfold mergeAndUpdate at h ⊢
  dsimp only at h ⊢
  simp only [Bool.or_eq_false_iff, Bool.not_eq_false', List.isEmpty_iff] at h
  obtain ⟨⟨hupdates, haged⟩, hfresh⟩ := h
  rw [haged, hfresh]
  show id ∈ (applyUpdates _ _ _).1 ↔ _
  rw [applyUpdates_mem]
  exact or_iff_right_of_imp ((applyUpdates_unchanged hupdates).2 id)

/-! ## Scans and restarts -/

/-- The daemon's cache and its file, with the scans so far, latest first. -/
structure World where
  cache : Items
  file : Option ByteArray
  scans : List (U128 × Catalog)

/-- A scan at a time, or a restart of the daemon. -/
inductive Event
  | scan (scanned : Catalog) (now : U128)
  | restart

namespace World

def fresh : World := ⟨∅, none, []⟩

def readFile (w : World) : FileRead := w.file.elim .notFound .contents

def afterScan (codec : Codec) (w : World) (scanned : Catalog) (now : U128) : World :=
  let merged := mergeAndUpdate w.cache scanned now
  let scans := (now, scanned) :: w.scans
  if merged.changed then
    let saved := save codec merged.items
    { cache := saved.1, file := saved.2.or w.file, scans := scans }
  else { cache := merged.items, file := w.file, scans := scans }

def afterRestart (codec : Codec) (w : World) : World :=
  let opened := openCache codec w.readFile
  { w with cache := opened.1, file := if opened.2 then none else w.file }

def step (codec : Codec) (w : World) : Event → World
  | .scan scanned now => w.afterScan codec scanned now
  | .restart => w.afterRestart codec

end World

/-- A time more than 30 days before `now`. -/
def Stale (t now : U128) : Prop := t.val + staleEntryMs < now.val

instance (t now : U128) : Decidable (Stale t now) := inferInstanceAs (Decidable (_ < _))

theorem isStale_iff (entry : CachedItem) (now : U128) :
    entry.isStale now = true ↔ Stale entry.lastSeenUnixMs now := by
  have hnow := now.isLt
  rw [CachedItem.isStale, decide_eq_true_iff, saturatingAdd128, Stale]
  omega

theorem Stale.mono {t now later : U128} (h : Stale t now) (hle : now ≤ later) : Stale t later := by
  have hval : now.val ≤ later.val := hle
  unfold Stale at *
  omega

/-! ### What is asked of a run -/

/-- Scans come in the order of their times. -/
def World.InOrder (w : World) : Event → Prop
  | .scan _ now => ∀ scan ∈ w.scans, scan.1 ≤ now
  | .restart => True

/-- No entry has to be evicted for its size. -/
def World.FitsFile (codec : Codec) (w : World) : Event → Prop
  | .scan scanned now => (mergeAndUpdate w.cache scanned now).changed = true →
      (encodeState codec (mergeAndUpdate w.cache scanned now).items).size ≤ maxCacheBytes
  | .restart => True

/-- A restart finds no more entries in the file than a start accepts. -/
def World.Reopens (codec : Codec) (w : World) : Event → Prop
  | .scan _ _ => True
  | .restart => ∀ bytes cache, w.file = some bytes → codec.fromSlice bytes = some cache →
      cache.items.size ≤ maxCacheItems

/-- **True times.**  The `last_seen` of an entry that the scan does not list is
on the same side of the 30 days as the scans are: a restart has not put it back
behind the last time that the id was subscribed, nor has a synthesized item
carried it past the last scan that listed the id. -/
def World.TrueTimes (w : World) : Event → Prop
  | .scan scanned now => ∀ id entry, w.cache[id]? = some entry → id ∉ scanned.ids →
      (Stale entry.lastSeenUnixMs now →
        ∀ scan ∈ w.scans, scan.2.Subscribed id → Stale scan.1 now) ∧
      (¬ Stale entry.lastSeenUnixMs now →
        ∃ scan ∈ w.scans, id ∈ scan.2.ids ∧ ¬ Stale scan.1 now)
  | .restart => True

/-- **Aging.**  After a scan, the ids that a scan of the last 30 days listed as
subscribed are cached, and those that none of these scans listed are neither
cached nor synthesized. -/
def World.Ages (codec : Codec) (w : World) : Event → Prop
  | .scan scanned now => ∀ id,
      ((∃ scan ∈ (now, scanned) :: w.scans, scan.2.Subscribed id ∧ ¬ Stale scan.1 now) →
        id ∈ (w.afterScan codec scanned now).cache) ∧
      ((∀ scan ∈ (now, scanned) :: w.scans, id ∈ scan.2.ids → Stale scan.1 now) →
        id ∉ (w.afterScan codec scanned now).cache ∧
          id ∉ (mergeAndUpdate w.cache scanned now).catalog.ids)
  | .restart => True

/-! ### The invariant -/

/-- The file holds the ids of the cache. -/
def World.Saved (codec : Codec) (w : World) : Prop :=
  match w.file with
  | none => ∀ id, id ∉ w.cache
  | some bytes => ∃ items, bytes = encodeState codec items ∧ bytes.size ≤ maxCacheBytes ∧
      ∀ id, id ∈ items ↔ id ∈ w.cache

/-- At any time from the last scan on, the ids subscribed in the 30 days before
are cached. -/
def World.Remembers (w : World) : Prop :=
  ∀ now, (∀ scan ∈ w.scans, scan.1 ≤ now) →
    ∀ scan ∈ w.scans, ∀ id, scan.2.Subscribed id → ¬ Stale scan.1 now → id ∈ w.cache

theorem afterScan_changed {codec : Codec} {w : World} {scanned : Catalog} {now : U128}
    (h : (mergeAndUpdate w.cache scanned now).changed = true)
    (hfits : (encodeState codec (mergeAndUpdate w.cache scanned now).items).size ≤ maxCacheBytes) :
    w.afterScan codec scanned now =
      { cache := (mergeAndUpdate w.cache scanned now).items
        file := some (encodeState codec (mergeAndUpdate w.cache scanned now).items)
        scans := (now, scanned) :: w.scans } := by
  unfold World.afterScan
  dsimp only
  rw [if_pos h, save_of_fits hfits]
  rfl

theorem afterScan_unchanged {codec : Codec} {w : World} {scanned : Catalog} {now : U128}
    (h : (mergeAndUpdate w.cache scanned now).changed = false) :
    w.afterScan codec scanned now =
      { cache := (mergeAndUpdate w.cache scanned now).items
        file := w.file
        scans := (now, scanned) :: w.scans } := by
  unfold World.afterScan
  dsimp only
  rw [h, if_neg Bool.false_ne_true]

theorem afterScan_cache {codec : Codec} {w : World} {scanned : Catalog} {now : U128}
    (h : w.FitsFile codec (.scan scanned now)) :
    (w.afterScan codec scanned now).cache = (mergeAndUpdate w.cache scanned now).items := by
  cases hchanged : (mergeAndUpdate w.cache scanned now).changed with
  | true => rw [afterScan_changed hchanged (h hchanged)]
  | false => rw [afterScan_unchanged hchanged]

theorem afterScan_scans (codec : Codec) (w : World) (scanned : Catalog) (now : U128) :
    (w.afterScan codec scanned now).scans = (now, scanned) :: w.scans := by
  unfold World.afterScan
  dsimp only
  split
  next => rfl
  next => rfl

theorem saved_scan {codec : Codec} {w : World} (hw : w.Saved codec) {scanned : Catalog}
    {now : U128} (h : w.FitsFile codec (.scan scanned now)) :
    (w.afterScan codec scanned now).Saved codec := by
  cases hchanged : (mergeAndUpdate w.cache scanned now).changed with
  | true =>
    rw [afterScan_changed hchanged (h hchanged)]
    exact ⟨_, rfl, h hchanged, fun _ => Iff.rfl⟩
  | false =>
    rw [afterScan_unchanged hchanged]
    have hsame := merge_unchanged hchanged
    unfold World.Saved at hw ⊢
    cases hfile : w.file with
    | none =>
      simp only [hfile] at hw
      exact fun id => (hsame id).not.mpr (hw id)
    | some bytes =>
      simp only [hfile] at hw
      obtain ⟨items, hbytes, hsize, hids⟩ := hw
      exact ⟨items, hbytes, hsize, fun id => (hids id).trans (hsame id).symm⟩

/-- A restart that finds few enough entries keeps the ids of the cache. -/
theorem restart_mem {codec : Codec} (hcodec : codec.RoundTrip) {w : World} (hw : w.Saved codec)
    (h : w.Reopens codec .restart) (id : String) :
    id ∈ (w.afterRestart codec).cache ↔ id ∈ w.cache := by
  unfold World.Saved at hw
  show id ∈ (openCache codec w.readFile).1 ↔ _
  unfold World.readFile
  cases hfile : w.file with
  | none =>
    simp only [hfile] at hw
    exact iff_of_false ExtTreeMap.not_mem_empty (hw id)
  | some bytes =>
    simp only [hfile] at hw
    obtain ⟨items, rfl, hsize, hids⟩ := hw
    have hread := hcodec { schemaVersion := cacheSchemaVersion, items := items }
    have hcount := h _ _ hfile hread
    show id ∈ (openCache codec (.contents (encodeState codec items))).1 ↔ _
    rw [openCache, if_neg (Nat.not_lt.mpr hsize), encodeState, hread]
    simp [hcount, hids]

theorem saved_restart {codec : Codec} (hcodec : codec.RoundTrip) {w : World} (hw : w.Saved codec)
    (h : w.Reopens codec .restart) : (w.afterRestart codec).Saved codec := by
  have hids := restart_mem hcodec hw h
  have hsaved := hw
  unfold World.Saved at hsaved ⊢
  cases hfile : w.file with
  | none =>
    have hnone : (w.afterRestart codec).file = none := by
      simp [World.afterRestart, World.readFile, hfile, openCache]
    simp only [hfile] at hsaved
    rw [hnone]
    exact fun id => (hids id).not.mpr (hsaved id)
  | some bytes =>
    simp only [hfile] at hsaved
    obtain ⟨items, rfl, hsize, hmem⟩ := hsaved
    have hread := hcodec { schemaVersion := cacheSchemaVersion, items := items }
    have hcount := h _ _ hfile hread
    have hsame : (w.afterRestart codec).file = some (encodeState codec items) := by
      have hopen : (openCache codec (.contents (encodeState codec items))).2 = false := by
        rw [openCache, if_neg (Nat.not_lt.mpr hsize), encodeState, hread]
        simp [hcount]
      simp [World.afterRestart, World.readFile, hfile, hopen]
    rw [hsame]
    exact ⟨items, rfl, hsize, fun id => (hmem id).trans (hids id).symm⟩

/-! ### Steps and runs -/

/-- A sighting within the 30 days is remembered over a scan with true times. -/
theorem scan_recent {codec : Codec} {w : World} (hrem : w.Remembers) {scanned : Catalog}
    {now : U128} (hfits : w.FitsFile codec (.scan scanned now)) (horder : w.InOrder (.scan scanned now))
    (htrue : w.TrueTimes (.scan scanned now)) {scan : U128 × Catalog} {id : String}
    (hscan : scan ∈ (now, scanned) :: w.scans) (hsub : scan.2.Subscribed id)
    (hrecent : ¬ Stale scan.1 now) : id ∈ (w.afterScan codec scanned now).cache := by
  rw [afterScan_cache hfits, merge_mem]
  rcases List.mem_cons.mp hscan with rfl | hscan
  · exact .inl hsub
  · refine .inr ⟨hrem now horder scan hscan id hsub hrecent, fun habsent entry hentry => ?_⟩
    rw [← Bool.not_eq_true, isStale_iff]
    exact fun hstale => hrecent ((htrue id entry hentry habsent).1 hstale scan hscan hsub)

/-- An id that no scan of the 30 days listed is gone after a scan with true
times. -/
theorem scan_absent {codec : Codec} {w : World} {scanned : Catalog} {now : U128}
    (hfits : w.FitsFile codec (.scan scanned now)) (htrue : w.TrueTimes (.scan scanned now))
    {id : String}
    (hgone : ∀ scan ∈ (now, scanned) :: w.scans, id ∈ scan.2.ids → Stale scan.1 now) :
    id ∉ (w.afterScan codec scanned now).cache ∧
      id ∉ (mergeAndUpdate w.cache scanned now).catalog.ids := by
  have hlisted : id ∉ scanned.ids := fun hid => by
    have hstale : Stale now now := hgone _ List.mem_cons_self hid
    unfold Stale at hstale
    omega
  have hold : ∀ entry, w.cache[id]? = some entry → entry.isStale now ≠ false := by
    intro entry hentry hfresh
    rw [← Bool.not_eq_true, isStale_iff] at hfresh
    obtain ⟨scan, hscan, hid, hrecent⟩ := (htrue id entry hentry hlisted).2 hfresh
    exact hrecent (hgone scan (List.mem_cons_of_mem _ hscan) hid)
  constructor
  · rw [afterScan_cache hfits, merge_mem]
    rintro (hsub | ⟨hmem, hkeep⟩)
    · exact hlisted hsub.mem_ids
    · obtain ⟨entry, hentry⟩ := Option.isSome_iff_exists.mp
        (ExtTreeMap.mem_iff_isSome_getElem?.mp hmem)
      exact hold entry hentry (hkeep hlisted entry hentry)
  · intro hid
    rcases merge_ids hid with hid | ⟨entry, hentry, hfresh⟩
    · exact hlisted hid
    · exact hold entry hentry hfresh

theorem remembers_scan {codec : Codec} {w : World} (hrem : w.Remembers) {scanned : Catalog}
    {now : U128} (hfits : w.FitsFile codec (.scan scanned now)) (horder : w.InOrder (.scan scanned now))
    (htrue : w.TrueTimes (.scan scanned now)) : (w.afterScan codec scanned now).Remembers := by
  intro later hlater scan hscan id hsub hrecent
  rw [afterScan_scans] at hscan hlater
  have hle : now ≤ later := hlater _ List.mem_cons_self
  exact scan_recent hrem hfits horder htrue hscan hsub fun hstale => hrecent (hstale.mono hle)

/-- **One step.**  A scan keeps what it should exactly when its times are true. -/
theorem ages_iff_trueTimes {codec : Codec} {w : World} (hrem : w.Remembers) {e : Event}
    (hfits : w.FitsFile codec e) (horder : w.InOrder e) : w.Ages codec e ↔ w.TrueTimes e := by
  cases e with
  | restart => exact Iff.rfl
  | scan scanned now =>
    constructor
    · intro hages id entry hentry habsent
      have hmem : id ∈ w.cache := by
        rw [ExtTreeMap.mem_iff_isSome_getElem?, hentry]
        rfl
      constructor
      · intro hstale scan hscan hsub
        by_contra hrecent
        have hkept := (hages id).1 ⟨scan, List.mem_cons_of_mem _ hscan, hsub, hrecent⟩
        rw [afterScan_cache hfits, merge_mem] at hkept
        rcases hkept with hsub' | ⟨-, hkeep⟩
        · exact habsent hsub'.mem_ids
        · have hfresh := hkeep habsent entry hentry
          rw [(isStale_iff entry now).mpr hstale] at hfresh
          cases hfresh
      · intro hfresh
        by_contra hnone
        push Not at hnone
        have hgone := ((hages id).2 fun scan hscan hid => by
          rcases List.mem_cons.mp hscan with rfl | hscan
          · exact absurd hid habsent
          · exact hnone scan hscan hid).1
        rw [afterScan_cache hfits, merge_mem] at hgone
        refine hgone (.inr ⟨hmem, fun _ entry' hentry' => ?_⟩)
        obtain rfl := Option.some.inj (hentry.symm.trans hentry')
        rwa [← Bool.not_eq_true, isStale_iff]
    · intro htrue id
      refine ⟨?_, scan_absent hfits htrue⟩
      rintro ⟨scan, hscan, hsub, hrecent⟩
      exact scan_recent hrem hfits horder htrue hscan hsub hrecent

/-- What the steps of a run keep while their times are true. -/
structure World.Kept (codec : Codec) (w : World) : Prop where
  saved : w.Saved codec
  remembers : w.Remembers

theorem kept_step {codec : Codec} (hcodec : codec.RoundTrip) {w : World} (h : w.Kept codec)
    {e : Event} (hfits : w.FitsFile codec e) (horder : w.InOrder e) (hopens : w.Reopens codec e)
    (htrue : w.TrueTimes e) : (w.step codec e).Kept codec := by
  cases e with
  | scan scanned now =>
    exact ⟨saved_scan h.saved hfits, remembers_scan h.remembers hfits horder htrue⟩
  | restart =>
    refine ⟨saved_restart hcodec h.saved hopens, ?_⟩
    intro now hnow scan hscan id hsub hrecent
    exact (restart_mem hcodec h.saved hopens id).mpr (h.remembers now hnow scan hscan id hsub hrecent)

theorem kept_fresh (codec : Codec) : World.fresh.Kept codec :=
  ⟨fun _ => ExtTreeMap.not_mem_empty, fun _ _ _ hscan => absurd hscan List.not_mem_nil⟩

def calmItem : CatalogItem where
  workshopId := "7"
  title := "Calm"
  kind := .video
  compatibility := .rendererDependent
  compatibilityDetail := ""
  contentRoot := "/steam/7"
  projectFile := "/steam/7/project.json"
  entryFile := none
  previewFile := some "/steam/7/preview.jpg"
  metadataHash := some "hash"
  tags := ["calm"]
  requestedPermissions := []
  workshopState := "subscribed_installed"
  workshopProgress := none
  diagnostics := []

def noStats : CatalogStats := ⟨0, 0, 0, 0, 0, 0, 0, 0, 0⟩

def calmCatalog : Catalog := ⟨[calmItem], noStats⟩

def emptyCatalog : Catalog := ⟨[], noStats⟩

/-- The start of the `n`-th day. -/
def day (n : Nat) : U128 :=
  ⟨n * 24 * 60 * 60 * 1000 % 2 ^ 128, Nat.mod_lt _ (Nat.two_pow_pos 128)⟩

/-- The entries after the scan of the first day. -/
def calmItems : Items := (mergeAndUpdate ∅ calmCatalog (day 0)).items

theorem fits_of_length {items : Items}
    (h : (cacheText.write ⟨cacheSchemaVersion, items⟩).length ≤ 1000) :
    (encodeState serdeCodec items).size ≤ maxCacheBytes :=
  Nat.le_trans (size_encodeState_le h) (by decide)

/-- The entries after the id was listed again, and after it was missed. -/
def seenAgain : Items := (mergeAndUpdate calmItems calmCatalog (day 20)).items

def missedOnce : Items := (mergeAndUpdate calmItems emptyCatalog (day 20)).items

/-- The examples' files are short. -/
theorem examples_length : ∀ items ∈ [calmItems, seenAgain, missedOnce,
      (mergeAndUpdate calmItems emptyCatalog (day 1)).items,
      (mergeAndUpdate calmItems emptyCatalog (day 40)).items,
      (mergeAndUpdate missedOnce emptyCatalog (day 40)).items],
    (cacheText.write ⟨cacheSchemaVersion, items⟩).length ≤ 1000 := by
  decide +kernel

/-- What the scans of the examples change. -/
theorem examples_scanned :
    (mergeAndUpdate ∅ calmCatalog (day 0)).changed = true ∧
    (mergeAndUpdate calmItems calmCatalog (day 20)).changed = false ∧
    (mergeAndUpdate calmItems emptyCatalog (day 20)).changed = true ∧
    calmItems.size ≤ maxCacheItems ∧
    "7" ∉ (mergeAndUpdate calmItems emptyCatalog (day 40)).items ∧
    "7" ∈ (mergeAndUpdate missedOnce emptyCatalog (day 40)).items := by
  decide +kernel

theorem size_calmItems : (encodeState serdeCodec calmItems).size ≤ maxCacheBytes :=
  fits_of_length (examples_length _ (by simp only [List.mem_cons, true_or]))

theorem firstScan_eq :
    World.fresh.afterScan serdeCodec calmCatalog (day 0) =
      ⟨calmItems, some (encodeState serdeCodec calmItems), [(day 0, calmCatalog)]⟩ :=
  afterScan_changed (w := World.fresh) examples_scanned.1 size_calmItems

theorem restart_calmItems (items : Items) (scans : List (U128 × Catalog)) :
    World.afterRestart serdeCodec ⟨items, some (encodeState serdeCodec calmItems), scans⟩ =
      ⟨calmItems, some (encodeState serdeCodec calmItems), scans⟩ := by
  have hopen : openCache serdeCodec (.contents (encodeState serdeCodec calmItems)) =
      (calmItems, false) := by
    rw [openCache, if_neg (Nat.not_lt.mpr size_calmItems), encodeState,
      serdeCodec_roundTrip]
    exact if_pos (by decide)
  unfold World.afterRestart World.readFile
  dsimp only [Option.elim]
  rw [hopen]
  rfl

theorem reopens_calmItems (items : Items) (scans : List (U128 × Catalog)) :
    World.Reopens serdeCodec ⟨items, some (encodeState serdeCodec calmItems), scans⟩ .restart := by
  intro bytes cache hfile hread
  obtain rfl := Option.some.inj hfile
  rw [encodeState, serdeCodec_roundTrip] at hread
  obtain rfl := Option.some.inj hread
  exact examples_scanned.2.2.2.1

theorem size_missedOnce : (encodeState serdeCodec missedOnce).size ≤ maxCacheBytes :=
  fits_of_length (examples_length _ (by simp only [List.mem_cons, true_or, or_true]))

theorem seenAgain_eq (scans : List (U128 × Catalog)) :
    World.afterScan serdeCodec ⟨calmItems, some (encodeState serdeCodec calmItems), scans⟩
        calmCatalog (day 20) =
      ⟨seenAgain, some (encodeState serdeCodec calmItems), (day 20, calmCatalog) :: scans⟩ :=
  afterScan_unchanged (w := ⟨calmItems, _, scans⟩) examples_scanned.2.1

theorem missedOnce_eq (scans : List (U128 × Catalog)) :
    World.afterScan serdeCodec ⟨calmItems, some (encodeState serdeCodec calmItems), scans⟩
        emptyCatalog (day 20) =
      ⟨missedOnce, some (encodeState serdeCodec missedOnce), (day 20, emptyCatalog) :: scans⟩ :=
  afterScan_changed (w := ⟨calmItems, _, scans⟩) examples_scanned.2.2.1 size_missedOnce

/-- What a run may be asked. -/
def World.Regular (w : World) (e : Event) : Prop :=
  w.InOrder e ∧ w.FitsFile serdeCodec e ∧ w.Reopens serdeCodec e

/-- A run that forgets when an id was last subscribed. -/
def forgetful : List Event :=
  [.scan calmCatalog (day 0), .scan calmCatalog (day 20), .restart, .scan emptyCatalog (day 40)]

/-- A run that keeps an id which no scan lists any more. -/
def clinging : List Event :=
  [.scan calmCatalog (day 0), .scan emptyCatalog (day 20), .scan emptyCatalog (day 40)]

theorem regular_scan {w : World} {scanned : Catalog} {now : U128}
    (horder : ∀ scan ∈ w.scans, scan.1 ≤ now)
    (hlength : (cacheText.write
      ⟨cacheSchemaVersion, (mergeAndUpdate w.cache scanned now).items⟩).length ≤ 1000) :
    w.Regular (.scan scanned now) :=
  ⟨horder, fun _ => fits_of_length hlength, trivial⟩

theorem forgetful_regular :
    Runs.Along (World.step serdeCodec) World.Regular World.fresh forgetful := by
  simp only [forgetful, Runs.along_cons, Runs.along_nil, World.step, firstScan_eq, seenAgain_eq,
    restart_calmItems, and_true]
  refine ⟨regular_scan (fun _ hscan => absurd hscan List.not_mem_nil) (examples_length _ ?_),
    regular_scan (by decide) (examples_length _ ?_),
    ⟨trivial, trivial, reopens_calmItems _ _⟩, regular_scan (by decide) (examples_length _ ?_)⟩
  · exact List.mem_cons_self
  · exact List.mem_cons_of_mem _ List.mem_cons_self
  · simp only [List.mem_cons, true_or, or_true]

theorem clinging_regular :
    Runs.Along (World.step serdeCodec) World.Regular World.fresh clinging := by
  simp only [clinging, Runs.along_cons, Runs.along_nil, World.step, firstScan_eq, missedOnce_eq,
    and_true]
  refine ⟨regular_scan (fun _ hscan => absurd hscan List.not_mem_nil) (examples_length _ ?_),
    regular_scan (by decide) (examples_length _ ?_),
    regular_scan (by decide) (examples_length _ ?_)⟩
  · exact List.mem_cons_self
  · exact List.mem_cons_of_mem _ (List.mem_cons_of_mem _ List.mem_cons_self)
  · simp only [List.mem_cons, true_or, or_true]

end Kwe.Workshop
