import Kwe.Workshop.Aging
import Kwe.Workshop.Scanned

/-!
The catalog after a merge, and the file after a save.

* `fromItems_append`: the statistics of a catalog add up;
* `stats_iff`, `length_iff`, `opens_iff`: when each of them is right;
* `accurate_iff`: when they are right over a run.
-/

namespace Kwe.Workshop

open Foundation
open Std (ExtTreeMap)

/-! ## Statistics -/

def CatalogStats.add (a b : CatalogStats) : CatalogStats where
  total := a.total + b.total
  scene := a.scene + b.scene
  video := a.video + b.video
  web := a.web + b.web
  unknown := a.unknown + b.unknown
  invalid := a.invalid + b.invalid
  subscribed := a.subscribed + b.subscribed
  missing := a.missing + b.missing
  downloading := a.downloading + b.downloading

theorem CatalogStats.add_comm (a b : CatalogStats) : a.add b = b.add a := by
  simp [add, Nat.add_comm]

theorem CatalogStats.add_assoc (a b c : CatalogStats) : (a.add b).add c = a.add (b.add c) := by
  simp [add, Nat.add_assoc]

theorem CatalogStats.add_right_cancel {a b c : CatalogStats} (h : a.add c = b.add c) : a = b := by
  cases a
  cases b
  simpa [add] using h

/-- The numbers that a synthesized item may raise are at most `n`. -/
structure CatalogStats.AtMost (stats : CatalogStats) (n : Nat) : Prop where
  total : stats.total ≤ n
  scene : stats.scene ≤ n
  video : stats.video ≤ n
  web : stats.web ≤ n
  unknown : stats.unknown ≤ n
  invalid : stats.invalid ≤ n
  missing : stats.missing ≤ n

theorem CatalogStats.addKind_add (a b : CatalogStats) (kind : ProjectKind) :
    (a.add b).addKind kind = a.add (b.addKind kind) := by
  cases kind <;> rfl

theorem CatalogStats.addState_add (a b : CatalogStats) (state : String) :
    (a.add b).addState state = a.add (b.addState state) := by
  unfold addState
  repeat' split
  all_goals rfl

theorem CatalogStats.foldl_add (a b : CatalogStats) (items : List CatalogItem) :
    items.foldl (fun stats item => (stats.addKind item.kind).addState item.workshopState) (a.add b) =
      a.add (items.foldl (fun stats item => (stats.addKind item.kind).addState item.workshopState)
        b) := by
  induction items generalizing b with
  | nil => rfl
  | cons item items ih => rw [List.foldl_cons, addKind_add, addState_add, ih, List.foldl_cons]

theorem CatalogStats.fromItems_append (items more : List CatalogItem) :
    fromItems (items ++ more) = (fromItems items).add (fromItems more) := by
  have htotal : { zero with total := (items ++ more).length } =
      add { zero with total := more.length } { zero with total := items.length } := by
    simp [add, zero, Nat.add_comm]
  rw [fromItems, htotal, List.foldl_append, foldl_add, add_comm, foldl_add]
  rfl

theorem CatalogStats.fromItems_cons (item : CatalogItem) (items : List CatalogItem) :
    fromItems (item :: items) = (fromItems [item]).add (fromItems items) :=
  fromItems_append [item] items

theorem CatalogStats.AtMost.add {a b : CatalogStats} {m n : Nat} (ha : a.AtMost m)
    (hb : b.AtMost n) : (a.add b).AtMost (m + n) :=
  ⟨Nat.add_le_add ha.total hb.total, Nat.add_le_add ha.scene hb.scene,
    Nat.add_le_add ha.video hb.video, Nat.add_le_add ha.web hb.web,
    Nat.add_le_add ha.unknown hb.unknown, Nat.add_le_add ha.invalid hb.invalid,
    Nat.add_le_add ha.missing hb.missing⟩

theorem CatalogStats.atMost_one (item : CatalogItem) : (fromItems [item]).AtMost 1 := by
  have hkind : ({ zero with total := 1 }.addKind item.kind).AtMost 1 ∧
      ({ zero with total := 1 }.addKind item.kind).missing = 0 := by
    cases item.kind <;> exact ⟨by constructor <;> decide, rfl⟩
  obtain ⟨h, hmissing⟩ := hkind
  rw [fromItems, List.foldl_cons, List.foldl_nil, addState]
  repeat' split
  · exact { h with }
  · exact { h with missing := by simp [hmissing] }
  · exact { h with }
  · exact h

theorem CatalogStats.atMost_length (items : List CatalogItem) :
    (fromItems items).AtMost items.length := by
  induction items with
  | nil => constructor <;> decide
  | cons item items ih =>
    rw [fromItems_cons, List.length_cons, Nat.add_comm]
    exact (atMost_one item).add ih

/-- A missing item is counted as one that is synthesized, up to the limit of the
numbers. -/
theorem CatalogStats.addMissing_eq {stats : CatalogStats} {n : Nat} (h : stats.AtMost n)
    (hn : n + 1 < 2 ^ 64) (item : CatalogItem) (hstate : item.workshopState = "subscribed_missing") :
    stats.addMissing item.kind = stats.add (fromItems [item]) := by
  have hsucc : ∀ m ≤ n, saturatingSuccUsize m = m + 1 := fun m hm => by
    rw [saturatingSuccUsize]
    omega
  unfold addMissing
  rw [fromItems, List.foldl_cons, List.foldl_nil, addState, if_neg (by rw [hstate]; decide),
    if_pos hstate, hsucc _ h.total, hsucc _ h.missing]
  cases item.kind with
  | scene => simp [add, addKind, zero, hsucc _ h.scene]
  | video => simp [add, addKind, zero, hsucc _ h.video]
  | web => simp [add, addKind, zero, hsucc _ h.web]
  | unknown => simp [add, addKind, zero, hsucc _ h.unknown]
  | invalid => simp [add, addKind, zero, hsucc _ h.invalid]

theorem foldl_synthesize_stats (now : U128) {entries : List (String × CachedItem)}
    {state : Items × Catalog} {n : Nat} (h : state.2.stats.AtMost n)
    (hn : n + entries.length < 2 ^ 64) :
    (entries.foldl (synthesize now) state).2.stats = state.2.stats.add
      (.fromItems (entries.map fun e => synthesizedItem e.1 e.2)) := by
  induction entries generalizing state n with
  | nil => rfl
  | cons e entries ih =>
    rw [List.length_cons] at hn
    have hone : (synthesize now state e).2.stats =
        state.2.stats.add (.fromItems [synthesizedItem e.1 e.2]) :=
      CatalogStats.addMissing_eq h (by omega) (synthesizedItem e.1 e.2) rfl
    have hmost : (synthesize now state e).2.stats.AtMost (n + 1) := by
      rw [hone]
      exact h.add (CatalogStats.atMost_one _)
    rw [List.foldl_cons, ih hmost (by omega), hone, List.map_cons, CatalogStats.add_assoc,
      ← CatalogStats.fromItems_cons]

theorem foldl_synthesize_items (now : U128) (entries : List (String × CachedItem))
    (state : Items × Catalog) :
    (entries.foldl (synthesize now) state).2.items =
      state.2.items ++ entries.map fun e => synthesizedItem e.1 e.2 := by
  induction entries generalizing state with
  | nil => simp
  | cons e entries ih =>
    rw [List.foldl_cons, ih, synthesize]
    simp

/-! ## Merging -/

/-- The absent entries that are not stale. -/
def freshEntries (items : Items) (scanned : Catalog) (now : U128) : List (String × CachedItem) :=
  (absentEntries items scanned).filter fun e => !e.2.isStale now

/-- A cached kind fills that of a missing item. -/
def Restores (items : Items) (item : CatalogItem) : Prop :=
  item.workshopState = "subscribed_missing" ∧ item.kind = .invalid ∧
    ∃ cached, items[item.workshopId]? = some cached ∧ cached.kind ≠ .invalid

theorem restored_state (items : Items) (item : CatalogItem) :
    (restored items item).workshopState = item.workshopState := by
  unfold restored
  repeat' split
  all_goals rfl

theorem overlay_kind (item : CatalogItem) (cached : CachedItem) : (overlay item cached).kind =
    if item.kind = .invalid && cached.kind ≠ .invalid then cached.kind else item.kind := rfl

theorem restored_of_restores {items : Items} {item : CatalogItem} (h : Restores items item) :
    (restored items item).kind ≠ .invalid := by
  obtain ⟨hstate, hkind, cached, hcached, hother⟩ := h
  rw [restored, if_pos hstate, hcached]
  simp [overlay_kind, hkind, hother]

theorem restored_kind {items : Items} {item : CatalogItem} (h : ¬ Restores items item) :
    (restored items item).kind = item.kind := by
  unfold restored
  split
  next hstate =>
    split
    next cached hcached =>
      rw [overlay_kind, if_neg]
      intro hfill
      simp only [ne_eq, Bool.and_eq_true, decide_eq_true_eq] at hfill
      exact h ⟨hstate, hfill.1, cached, hcached, hfill.2⟩
    next => rfl
  next => rfl

theorem invalid_of_restored {items : Items} {item : CatalogItem}
    (h : (restored items item).kind = .invalid) : item.kind = .invalid := by
  by_cases hrestores : Restores items item
  · exact hrestores.2.1
  · exact (restored_kind hrestores).symm.trans h

theorem fromItems_invalid (items : List CatalogItem) :
    (CatalogStats.fromItems items).invalid = items.countP (·.kind = .invalid) := by
  induction items with
  | nil => rfl
  | cons item items ih =>
    have hone : (CatalogStats.fromItems [item]).invalid = if item.kind = .invalid then 1 else 0 := by
      have hstate : ∀ (stats : CatalogStats) (state : String),
          (stats.addState state).invalid = stats.invalid := by
        intro stats state
        unfold CatalogStats.addState
        repeat' split
        all_goals rfl
      rw [CatalogStats.fromItems, List.foldl_cons, List.foldl_nil, hstate]
      cases item.kind <;> rfl
    rw [CatalogStats.fromItems_cons, CatalogStats.add, hone, ih, List.countP_cons]
    simp [Nat.add_comm]

/-- The invalid items become fewer where a kind is filled. -/
theorem countP_invalid_lt {items : Items} {scanned : List CatalogItem} {item : CatalogItem}
    (hitem : item ∈ scanned) (h : Restores items item) :
    (scanned.map (restored items)).countP (·.kind = .invalid) <
      scanned.countP (·.kind = .invalid) := by
  obtain ⟨before, after, rfl⟩ := List.append_of_mem hitem
  have hle : ∀ scanned : List CatalogItem, (scanned.map (restored items)).countP
      (·.kind = .invalid) ≤ scanned.countP (·.kind = .invalid) := by
    intro scanned
    rw [List.countP_map]
    refine List.countP_mono_left fun item _ hinvalid => ?_
    simpa using invalid_of_restored (by simpa using hinvalid)
  have hbefore := hle before
  have hafter := hle after
  simp only [List.map_append, List.map_cons, List.countP_append, List.countP_cons,
    restored_of_restores h, h.2.1]
  simp only [decide_true, decide_false, if_true, Bool.false_eq_true, if_false]
  omega

/-- The statistics stay right just if no kind is filled. -/
theorem fromItems_restored_iff (items : Items) (scanned : List CatalogItem) :
    CatalogStats.fromItems (scanned.map (restored items)) = .fromItems scanned ↔
      ∀ item ∈ scanned, ¬ Restores items item := by
  constructor
  · intro heq item hitem hrestores
    have hcount := congrArg CatalogStats.invalid heq
    rw [fromItems_invalid, fromItems_invalid] at hcount
    exact (countP_invalid_lt hitem hrestores).ne hcount
  · intro h
    induction scanned with
    | nil => rfl
    | cons item scanned ih =>
      obtain ⟨hitem, hscanned⟩ := List.forall_mem_cons.mp h
      have hone : CatalogStats.fromItems [restored items item] = .fromItems [item] := by
        simp [CatalogStats.fromItems, restored_kind hitem, restored_state]
      rw [List.map_cons, CatalogStats.fromItems_cons, ih hscanned, hone,
        ← CatalogStats.fromItems_cons]

/-- The entries after the updates of a scan. -/
def updatedItems (items : Items) (scanned : Catalog) (now : U128) : Items :=
  (applyUpdates items false (scanned.items.filterMap (updateOf items now))).1

theorem absentEntries_nodup (items : Items) (catalog : Catalog) :
    ((absentEntries items catalog).map (·.1)).Nodup := by
  have hkeys : (items.toList.map (·.1)).Nodup := by
    rw [List.Nodup, List.pairwise_map]
    exact items.distinct_keys_toList.imp fun hne heq => hne (Std.LawfulEqCmp.compare_eq_iff_eq.mpr heq)
  exact hkeys.sublist (List.filter_sublist.map _)

/-- The updates are of ids that the scan lists. -/
theorem absentEntries_updated_perm (items : Items) (scanned : Catalog) (now : U128) :
    (absentEntries (updatedItems items scanned now)
      { scanned with items := scanned.items.map (restored items) }).Perm
      (absentEntries items scanned) := by
  refine (List.perm_ext_iff_of_nodup (absentEntries_nodup _ _).of_map
    (absentEntries_nodup _ _).of_map).mpr fun e => ?_
  rw [mem_absentEntries, mem_absentEntries, ids_restored]
  refine and_congr_left fun habsent => ?_
  have hother : e.1 ∉ (scanned.items.filterMap (updateOf items now)).map (·.1) := fun hup =>
    habsent ((mem_updates items now scanned e.1).mp hup).mem_ids
  rw [updatedItems, applyUpdates_other hother]

/-- The entries that a merge puts in the catalog. -/
def putEntries (items : Items) (scanned : Catalog) (now : U128) : List (String × CachedItem) :=
  toSynthesize (updatedItems items scanned now)
    { scanned with items := scanned.items.map (restored items) } now

theorem putEntries_length (items : Items) (scanned : Catalog) (now : U128) :
    (putEntries items scanned now).length = if scanned.items.length < maxCatalogItems then
      (freshEntries items scanned now).length else 0 := by
  rw [putEntries, toSynthesize, List.length_map]
  split
  · exact ((absentEntries_updated_perm items scanned now).filter _).length_eq
  · rfl

theorem putEntries_ids (items : Items) (scanned : Catalog) (now : U128) :
    ((putEntries items scanned now).map (·.1)).Nodup ∧
      ∀ id ∈ (putEntries items scanned now).map (·.1), id ∉ scanned.ids := by
  constructor
  · unfold putEntries toSynthesize
    split
    · exact (absentEntries_nodup _ _).sublist (List.filter_sublist.map _)
    · exact List.nodup_nil
  · intro id hid
    obtain ⟨e, he, rfl⟩ := List.mem_map.mp hid
    have habsent := (mem_toSynthesize he).2.1
    rwa [ids_restored] at habsent

/-- **What a merge gives.**  The scanned items with their placeholders filled,
and after them the items that it puts in. -/
theorem mergeAndUpdate_items (items : Items) (scanned : Catalog) (now : U128) :
    (mergeAndUpdate items scanned now).catalog.items = scanned.items.map (restored items) ++
      (putEntries items scanned now).map fun e => synthesizedItem e.1 e.2 :=
  foldl_synthesize_items now (putEntries items scanned now) _

theorem mergeAndUpdate_ids (items : Items) (scanned : Catalog) (now : U128) :
    (mergeAndUpdate items scanned now).catalog.ids =
      scanned.ids ++ (putEntries items scanned now).map (·.1) := by
  rw [Catalog.ids, mergeAndUpdate_items, List.map_append, List.map_map, List.map_map]
  simp [Catalog.ids, Function.comp_def, restored_workshopId, synthesizedItem]

theorem mergeAndUpdate_length (items : Items) (scanned : Catalog) (now : U128) :
    (mergeAndUpdate items scanned now).catalog.items.length =
      scanned.items.length + (putEntries items scanned now).length := by
  rw [mergeAndUpdate_items, List.length_append, List.length_map, List.length_map]

theorem mergeAndUpdate_stats {items : Items} {scanned : Catalog} {now : U128}
    (hstats : scanned.stats = .fromItems scanned.items)
    (hfew : putEntries items scanned now = [] ∨
      scanned.items.length + (putEntries items scanned now).length < 2 ^ 64) :
    (mergeAndUpdate items scanned now).catalog.stats = scanned.stats.add
      (.fromItems ((putEntries items scanned now).map fun e => synthesizedItem e.1 e.2)) := by
  have hmost : scanned.stats.AtMost scanned.items.length := by
    rw [hstats]
    exact CatalogStats.atMost_length _
  show ((putEntries items scanned now).foldl (synthesize now) _).2.stats = _
  rcases hfew with hnone | hfew
  · rw [hnone]
    rfl
  · exact foldl_synthesize_stats now hmost hfew

/-! ## What is asked of a run -/

/-- The items of a merge fit the catalog. -/
def CatalogFits (items : Items) (scanned : Catalog) (now : U128) : Prop :=
  scanned.items.length < maxCatalogItems →
    scanned.items.length + (freshEntries items scanned now).length ≤ maxCatalogItems

theorem length_iff (items : Items) (scanned : Catalog) (now : U128) :
    (mergeAndUpdate items scanned now).catalog.items.length ≤
      max scanned.items.length maxCatalogItems ↔ CatalogFits items scanned now := by
  rw [mergeAndUpdate_length, putEntries_length, CatalogFits]
  split
  next hfew =>
    simp only [hfew, true_imp_iff]
    omega
  next hmany =>
    simp only [hmany, false_imp_iff, iff_true]
    omega

theorem stats_iff {items : Items} {scanned : Catalog} {now : U128}
    (hstats : scanned.stats = .fromItems scanned.items) (hfits : CatalogFits items scanned now) :
    (mergeAndUpdate items scanned now).catalog.stats =
        .fromItems (mergeAndUpdate items scanned now).catalog.items ↔
      ∀ item ∈ scanned.items, ¬ Restores items item := by
  have hfew : putEntries items scanned now = [] ∨
      scanned.items.length + (putEntries items scanned now).length < 2 ^ 64 := by
    have hlength := putEntries_length items scanned now
    split at hlength
    next hfew =>
      have := hfits hfew
      simp only [maxCatalogItems] at this
      exact .inr (by omega)
    next => exact .inl (List.eq_nil_of_length_eq_zero hlength)
  rw [mergeAndUpdate_stats hstats hfew, mergeAndUpdate_items, CatalogStats.fromItems_append, hstats,
    ← fromItems_restored_iff]
  exact ⟨fun h => (CatalogStats.add_right_cancel h).symm, fun h => by rw [h]⟩

/-- A text stays too long only with no entry left. -/
theorem size_fitItems (codec : Codec) (items : Items)
    (h : maxCacheBytes < (encodeState codec (fitItems codec items)).size) :
    (fitItems codec items).size = 0 := by
  fun_induction fitItems codec items with
  | case1 items size hlarge ih => exact ih h
  | case2 items size hfits =>
    by_contra hsome
    exact hfits ⟨h, Nat.pos_of_ne_zero hsome⟩

/-- What is written opens as what is kept just if the entries that are kept are
not too many. -/
theorem opens_iff {codec : Codec} (hcodec : codec.RoundTrip) (items : Items) :
    (∀ bytes, (save codec items).2 = some bytes →
      openCache codec (.contents bytes) = ((save codec items).1, false)) ↔
      (fitItems codec items).size ≤ maxCacheItems := by
  simp only [save]
  by_cases hlarge : maxCacheBytes < (encodeState codec (fitItems codec items)).size
  · simp [hlarge, size_fitItems codec items hlarge]
  · simp only [if_neg hlarge, Option.some.injEq, forall_eq']
    rw [openCache, if_neg hlarge, encodeState, hcodec]
    by_cases hsize : (fitItems codec items).size ≤ maxCacheItems
    · simp [hsize]
    · simp [hsize]

/-- **The catalog and the file are right.**  The statistics are those of the
items, the ids that are put in are new and all different, the catalog does not
grow past its limit, and what is written opens as the entries that are kept. -/
structure Accurate (codec : Codec) (items : Items) (scanned : Catalog) (now : U128) : Prop where
  stats : (mergeAndUpdate items scanned now).catalog.stats =
    .fromItems (mergeAndUpdate items scanned now).catalog.items
  added : ∃ ids, (mergeAndUpdate items scanned now).catalog.ids = scanned.ids ++ ids ∧
    ids.Nodup ∧ ∀ id ∈ ids, id ∉ scanned.ids
  length : (mergeAndUpdate items scanned now).catalog.items.length ≤
    max scanned.items.length maxCatalogItems
  opens : (mergeAndUpdate items scanned now).changed = true →
    ∀ bytes, (save codec (mergeAndUpdate items scanned now).items).2 = some bytes →
      openCache codec (.contents bytes) =
        ((save codec (mergeAndUpdate items scanned now).items).1, false)

/-- No missing item has a cached kind, the catalog has room for the entries, and
those that are left after the eviction for size are not too many. -/
structure Room (codec : Codec) (items : Items) (scanned : Catalog) (now : U128) : Prop where
  kinds : ∀ item ∈ scanned.items, ¬ Restores items item
  catalog : CatalogFits items scanned now
  file : (mergeAndUpdate items scanned now).changed = true →
    (fitItems codec (mergeAndUpdate items scanned now).items).size ≤ maxCacheItems

theorem accurate_iff_room {codec : Codec} (hcodec : codec.RoundTrip) {items : Items}
    {scanned : Catalog} {now : U128} (hstats : scanned.stats = .fromItems scanned.items) :
    Accurate codec items scanned now ↔ Room codec items scanned now := by
  constructor
  · intro h
    have hfits := (length_iff items scanned now).mp h.length
    exact ⟨(stats_iff hstats hfits).mp h.stats, hfits,
      fun hchanged => (opens_iff hcodec _).mp (h.opens hchanged)⟩
  · intro h
    have hids := putEntries_ids items scanned now
    exact ⟨(stats_iff hstats h.catalog).mpr h.kinds,
      ⟨_, mergeAndUpdate_ids items scanned now, hids.1, hids.2⟩,
      (length_iff items scanned now).mpr h.catalog,
      fun hchanged => (opens_iff hcodec _).mpr (h.file hchanged)⟩

def World.Accurate (codec : Codec) (w : World) : Event → Prop
  | .scan scanned now => Workshop.Accurate codec w.cache scanned now
  | .restart => True

def World.Room (codec : Codec) (w : World) : Event → Prop
  | .scan scanned now => Workshop.Room codec w.cache scanned now
  | .restart => True

section Runs

variable (fromSlice : List UInt8 → Except String Json) (sha256 : List UInt8 → String)
  (toLowercase : String → String) (limits : ScanLimits)

/-- What is scanned is what `scan_installed` gives for some libraries. -/
def Event.Scanned : Event → Prop
  | .scan scanned _ => ∃ libraries subscriptions, List.Forall₂ Reads libraries subscriptions ∧
      scanned = scanInstalled fromSlice sha256 toLowercase limits libraries subscriptions
  | .restart => True

end Runs

/-! ## A library that goes away -/

def sceneJson : List UInt8 := Vdf.text "\x7b\"title\":\"Calm\",\"type\":\"scene\"\x7d"

/-- A reader that knows one text. -/
def readSceneJson (bytes : List UInt8) : Except String Json :=
  if bytes = sceneJson then .ok (.object [("title", .string "Calm"), ("type", .string "scene")])
  else .error "expected value at line 1 column 1"

def sceneHash (_ : List UInt8) : String :=
  "20ce53b01f1712a8bda016116404ed9d35b28843bfa35c5ea91cc33b96ab01a3"

def lowerTitle (title : String) : String := String.ofList (title.toList.map Char.toLower)

def sceneDir : ProjectDir :=
  ⟨Vdf.text "123", "/123", .file sceneJson.length (.ok sceneJson), fun _ => .absent, none⟩

/-- A library that subscribes to one item. -/
def sceneLibrary (projects : List ProjectDir) : ScannedLibrary :=
  { loadedLibrary "50" with projects := .ok projects }

def sceneScan (projects : List ProjectDir) : Catalog :=
  scanInstalled readSceneJson sceneHash lowerTitle .default [sceneLibrary projects]
    [.ok (treeSubscriptions (.object (loadedItem "50")))]

theorem sceneScan_scanned (projects : List ProjectDir) (now : U128) :
    Event.Scanned readSceneJson sceneHash lowerTitle .default (.scan (sceneScan projects) now) := by
  have hparsed : Parsed (sceneLibrary projects) (some (.object (loadedItem "50"))) := by
    have hutf8 : readUtf8Limited (8 * 1024 * 1024) (sceneLibrary projects).manifests.plain =
        .ok (some (Vdf.print (fun _ => []) (loadedItem "50"))) := by
      refine readUtf8Limited_file (by decide) (decode_of_text (s :=
        "\"AppWorkshop\"\x7b\"WorkshopItems\"\x7b\"123\"\x7b" ++
          "\"downloadedbytes\"\"50\"\"size\"\"50\"\x7d\x7d\x7d") (by decide +kernel))
    rw [Parsed, hutf8]
    exact ⟨_, Vdf.parse_print (by decide) (by decide), rfl⟩
  obtain ⟨⟨s, hs⟩, htells⟩ := reads_iff hparsed
  obtain rfl : s = .ok _ := htells s hs
  exact ⟨_, _, .cons hs .nil, rfl⟩

/-- The entries after the first scan. -/
def sceneItems : Items := (mergeAndUpdate ∅ (sceneScan [sceneDir]) (day 0)).items

theorem sceneItems_scanned :
    (mergeAndUpdate ∅ (sceneScan [sceneDir]) (day 0)).changed = true ∧
    (cacheText.write ⟨cacheSchemaVersion, sceneItems⟩).length ≤ 1000 ∧
    sceneItems.size ≤ maxCacheItems ∧
    (sceneScan [sceneDir]).items.map (·.workshopState) = ["subscribed_installed"] ∧
    (freshEntries ∅ (sceneScan [sceneDir]) (day 0)).length = 0 := by
  decide +kernel

end Kwe.Workshop
