import Kwe.Workshop.Scan
import Kwe.Workshop.Subscriptions

/-!
What a scan must tell of the items in all libraries, and when it does.

* `workshopProgress_eq`: the progress of a manifest is by bytes, or the
  percentage that it states;
* `scan_correct_iff`: which libraries are scanned correctly.
-/

namespace Kwe.Workshop

open Foundation Kwe.Vdf

/-! ## Manifests -/

def stateField (object : List (Text × KvValue)) (names : List String) : Option Text :=
  names.findSome? fun name =>
    (object.find? fun e => eqIgnoreAsciiCase e.1 (text name)).bind fun e => stringOf e.2

/-- The bytes that are there, and all bytes, if the entry records both. -/
def byteCounts (value : KvValue) : Option (Nat × Nat) := do
  let object ← objectOf value
  let done ← (stateField object ["downloadedbytes", "downloaded", "bytesdownloaded"]).bind
    (parseUnsigned (2 ^ 64))
  let total ← (stateField object ["size", "totalbytes", "total"]).bind (parseUnsigned (2 ^ 64))
  if 0 < total ∧ done ≤ total then some (done, total) else none

/-- The percentage that the entry states. -/
def statedPercent (value : KvValue) : Option Nat := do
  let object ← objectOf value
  ((stateField object ["downloadprogress", "progress"]).bind (parseUnsigned (2 ^ 8))).filter
    (· ≤ 100)

theorem workshopProgress_eq (value : KvValue) :
    workshopProgress value =
      match byteCounts value with
      | some (done, total) => some (min (done * 100) (2 ^ 64 - 1) / total % 2 ^ 8)
      | none => statedPercent value := by
  cases value with
  | string s => rfl
  | object fields =>
    simp only [workshopProgress, byteCounts, statedPercent, objectOf, Option.bind_some,
      Option.bind_eq_bind, stateField]
    cases hdone : (List.findSome? (fun name =>
        (fields.find? fun e => eqIgnoreAsciiCase e.1 (text name)).bind fun e => stringOf e.2)
        ["downloadedbytes", "downloaded", "bytesdownloaded"]).bind (parseUnsigned (2 ^ 64)) with
    | none => rfl
    | some done =>
      cases htotal : (List.findSome? (fun name =>
          (fields.find? fun e => eqIgnoreAsciiCase e.1 (text name)).bind fun e => stringOf e.2)
          ["size", "totalbytes", "total"]).bind (parseUnsigned (2 ^ 64)) with
      | none => rfl
      | some total =>
        dsimp only [Option.bind_some]
        split <;> rfl

/-- The entry of an id in the section of a manifest. -/
def entryOf (tree : KvValue) (id : String) : Option KvValue :=
  ((((workshopItems tree).getD []).reverse.find? fun e =>
    subscriptionKey e.1 && idText e.1 = id)).map (·.2)

/-- The entry that the last library with the id has. -/
def lastEntry (trees : List KvValue) (id : String) : Option KvValue :=
  trees.reverse.findSome? (entryOf · id)

/-- The byte counts of all libraries that record any. -/
def recordedBytes (trees : List KvValue) (id : String) : List (Nat × Nat) :=
  trees.filterMap fun tree => (entryOf tree id).bind byteCounts

/-- The ids of a manifest. -/
def listedIds (tree : KvValue) : List String :=
  (((workshopItems tree).getD []).filter fun e => subscriptionKey e.1).map fun e => idText e.1

/-! ## The law of a scan -/

/-- The project directories of a library. -/
def ScannedLibrary.dirs (lib : ScannedLibrary) : List ProjectDir :=
  if lib.workshopAvailable then
    match lib.projects with
    | .ok entries => entries
    | .error _ => []
  else []

def projectIds (libraries : List ScannedLibrary) : List String :=
  libraries.flatMap fun lib => lib.dirs.map ProjectDir.workshopId

/-- What a catalog must say of the libraries. -/
structure Catalog.Correct (catalog : Catalog) (trees : List KvValue)
    (libraries : List ScannedLibrary) : Prop where
  once : ∀ id, id ∈ trees.flatMap listedIds ∨ id ∈ projectIds libraries → catalog.ids.count id = 1
  downloading : ∀ item ∈ catalog.items,
    item.workshopState = "downloading" ↔ item.workshopProgress.any (· < 100)
  progress : ∀ item ∈ catalog.items, ∀ done total,
    recordedBytes trees item.workshopId = [(done, total)] →
      item.workshopProgress.map UInt8.toNat = some (done * 100 / total)

/-! ## What the code allows -/

/-- The subscribed ids that have no project directory. -/
def absentIds (trees : List KvValue) (libraries : List ScannedLibrary) : List String :=
  (trees.flatMap listedIds).dedup.filter (· ∉ projectIds libraries)

/-- An entry states the percentage of the byte counts: it records them, and the
product does not leave 64 bits, or it records none and states a percentage. -/
def States (value : KvValue) (done total : Nat) : Prop :=
  (byteCounts value).isSome ∧ done * 100 / total * total < 2 ^ 64 ∨
    byteCounts value = none ∧ statedPercent value = some (done * 100 / total)

/-- The percentage of an entry whose download has begun is 100. -/
def Complete (value : KvValue) : Prop := ∀ p, workshopProgress value = some p → 100 ≤ p

structure ScanFits (limits : ScanLimits) (trees : List KvValue)
    (libraries : List ScannedLibrary) : Prop where
  /-- No id has two project directories. -/
  single : (projectIds libraries).Nodup
  room : (absentIds trees libraries).length ≤ limits.maxProjects
  complete : ∀ id ∈ absentIds trees libraries, ∀ value, lastEntry trees id = some value →
    Complete value
  last : ∀ id done total, recordedBytes trees id = [(done, total)] →
    ∀ value, lastEntry trees id = some value → States value done total

/-! ## Ids -/

theorem toNat_idChar (b : UInt8) : (Char.ofNat b.toNat).toNat = b.toNat := by
  have hb := b.toNat_lt
  have hvalid : b.toNat.isValidChar := Or.inl (by omega)
  rw [Char.ofNat, dif_pos hvalid]
  rfl

theorem idChar_lt (a b : UInt8) : Char.ofNat a.toNat < Char.ofNat b.toNat ↔ a < b := by
  rw [Char.lt_def, UInt32.lt_iff_toNat_lt, UInt8.lt_iff_toNat_lt]
  change (Char.ofNat a.toNat).toNat < (Char.ofNat b.toNat).toNat ↔ _
  rw [toNat_idChar, toNat_idChar]

theorem idChar_injective {a b : UInt8} (h : Char.ofNat a.toNat = Char.ofNat b.toNat) : a = b := by
  have hnat := congrArg Char.toNat h
  rw [toNat_idChar, toNat_idChar] at hnat
  exact UInt8.toNat_inj.mp hnat

theorem idText_injective : Function.Injective idText := by
  intro a b h
  have hlist := String.ofList_injective h
  exact List.map_injective_iff.mpr (fun _ _ => idChar_injective) hlist

theorem idText_lt (a b : Text) : idText a < idText b ↔ a < b := by
  rw [String.lt_iff, idText, idText, String.toList_ofList, String.toList_ofList]
  induction a generalizing b with
  | nil =>
    cases b with
    | nil => simp
    | cons c b => simp
  | cons c a ih =>
    cases b with
    | nil => simp
    | cons d b =>
      rw [List.map_cons, List.map_cons, List.cons_lt_cons_iff, List.cons_lt_cons_iff, idChar_lt, ih]
      have heq : Char.ofNat c.toNat = Char.ofNat d.toNat ↔ c = d :=
        ⟨idChar_injective, fun h => h ▸ rfl⟩
      rw [heq]

/-! ## Subscriptions -/

/-- The entries that a manifest adds to the progress of all. -/
def told : Subscriptions → List (String × Option UInt8)
  | .ok items => items.map fun e => (idText e.1, e.2.map UInt8.ofNat)
  | .error _ => []

theorem workshopProgressOf_eq (subscriptions : List Subscriptions) :
    workshopProgressOf subscriptions =
      subscriptions.foldl (fun progress s => SortedMap.insertAll progress (told s)) [] := by
  rw [workshopProgressOf]
  congr 1
  funext progress s
  cases s <;> rfl

theorem sorted_workshopProgressOf (subscriptions : List Subscriptions) :
    SortedMap.Sorted (workshopProgressOf subscriptions) := by
  rw [workshopProgressOf_eq]
  have h : ∀ m : List (String × Option UInt8), SortedMap.Sorted m → SortedMap.Sorted
      (subscriptions.foldl (fun progress s => SortedMap.insertAll progress (told s)) m) := by
    induction subscriptions with
    | nil => exact fun m hm => hm
    | cons s subscriptions ih => exact fun m hm => ih _ (hm.insertAll _)
  exact h [] List.Pairwise.nil

theorem get_workshopProgressOf (subscriptions : List Subscriptions) (id : String) :
    SortedMap.get (workshopProgressOf subscriptions) id =
      subscriptions.reverse.findSome? fun s =>
        ((told s).reverse.find? fun e => e.1 = id).map (·.2) := by
  rw [workshopProgressOf_eq]
  have h : ∀ m : List (String × Option UInt8), SortedMap.get
      (subscriptions.foldl (fun progress s => SortedMap.insertAll progress (told s)) m) id =
      (subscriptions.reverse.findSome? fun s =>
        ((told s).reverse.find? fun e => e.1 = id).map (·.2)).or (SortedMap.get m id) := by
    induction subscriptions with
    | nil => exact fun m => rfl
    | cons s subscriptions ih =>
      intro m
      rw [List.foldl_cons, ih, SortedMap.get_insertAll, List.reverse_cons, List.findSome?_append,
        Option.or_assoc]
      congr 1
      cases hfind : (told s).reverse.find? fun e => e.1 = id <;> simp [hfind]
  rw [h]
  exact Option.or_none

/-- The section of a manifest, without what is no id. -/
def listedItems (tree : KvValue) : List (Text × KvValue) :=
  ((workshopItems tree).getD []).filter fun e => subscriptionKey e.1

theorem treeSubscriptions_eq (tree : KvValue) :
    treeSubscriptions tree = SortedMap.ofList
      ((listedItems tree).map fun e => (e.1, workshopProgress e.2)) := by
  rw [treeSubscriptions, listedItems, SortedMap.ofList, SortedMap.insertAll]
  generalize (workshopItems tree).getD [] = items
  generalize ([] : List (Text × Option Nat)) = start
  induction items generalizing start with
  | nil => rfl
  | cons e items ih =>
    rw [List.foldl_cons, ih]
    by_cases h : subscriptionKey e.1 = true
    · simp [h]
    · simp [h]

/-- The progress that the entry of an id gives. -/
def progressOf (value : KvValue) : Option UInt8 := (workshopProgress value).map UInt8.ofNat

theorem told_find (tree : KvValue) (id : String) :
    ((told (.ok (treeSubscriptions tree))).reverse.find? fun e => e.1 = id).map (·.2) =
      (entryOf tree id).map progressOf := by
  have hmap : told (.ok (treeSubscriptions tree)) = SortedMap.ofList
      ((listedItems tree).map fun e => (idText e.1, progressOf e.2)) := by
    rw [told, treeSubscriptions_eq]
    have hprod : (fun e : Text × Option Nat => (idText e.1, e.2.map UInt8.ofNat)) =
        Prod.map idText (Option.map UInt8.ofNat) := rfl
    rw [hprod, ← SortedMap.ofList_map idText_injective idText_lt, List.map_map]
    rfl
  have hsorted : SortedMap.Sorted (told (.ok (treeSubscriptions tree))) := by
    rw [hmap]
    exact SortedMap.Sorted.insertAll List.Pairwise.nil _
  have hget : SortedMap.get (told (.ok (treeSubscriptions tree))) id =
      ((told (.ok (treeSubscriptions tree))).reverse.find? fun e => e.1 = id).map (·.2) := by
    conv_lhs => rw [← SortedMap.ofList_sorted hsorted, SortedMap.ofList, SortedMap.get_insertAll]
    exact Option.or_none
  rw [← hget, hmap, SortedMap.ofList, SortedMap.get_insertAll, entryOf, listedItems,
    ← List.map_reverse, ← List.filter_reverse, List.find?_map, List.find?_filter]
  have hpredicate : (fun e : Text × KvValue => decide (subscriptionKey e.1 = true ∧
      ((fun e => decide (e.1 = id)) ∘ fun e : Text × KvValue =>
        (idText e.1, progressOf e.2)) e = true)) =
      fun e => subscriptionKey e.1 && idText e.1 = id := by
    funext e
    simp
  rw [hpredicate, Option.map_map, Option.map_map]
  exact Option.or_none

/-! ## Reading the manifests -/

def Reads (lib : ScannedLibrary) (s : Subscriptions) : Prop :=
  ∃ fuel, workshopSubscriptions fuel lib.manifests = some s

/-- The tree of a library's manifest, if there is one that can be read. -/
def Parsed (lib : ScannedLibrary) (tree : Option KvValue) : Prop :=
  match readUtf8Limited (8 * 1024 * 1024) lib.manifests.plain with
  | .ok (some contents) => ∃ r, Returns contents r ∧ tree = r.toOption
  | _ => tree = none

/-- No form feed stands outside the strings and comments of the manifest. -/
def ScannedLibrary.NoFormFeed (lib : ScannedLibrary) : Prop :=
  match readUtf8Limited (8 * 1024 * 1024) lib.manifests.plain with
  | .ok (some contents) => bareFormFeed .outside contents = false
  | _ => True

/-- The subscriptions are those of the tree. -/
def Tells (tree : Option KvValue) (s : Subscriptions) : Prop :=
  match tree with
  | some tree => s = .ok (treeSubscriptions tree)
  | none => told s = []

theorem readUtf8Limited_length {limit : Nat} {entry : Entry} {contents : List UInt8}
    (h : readUtf8Limited limit entry = .ok (some contents)) : contents.length ≤ limit := by
  unfold readUtf8Limited at h
  split at h
  · cases h
  · cases h
  · cases h
  · split at h
    · cases h
    · next hlength =>
      split at h
      · cases h
        exact Nat.not_lt.mp hlength
      · cases h

theorem readUtf8Limited_file {limit : Nat} {contents : List UInt8} (hlength : contents.length ≤ limit)
    (hutf8 : (Utf8.decode contents).isSome = true) :
    readUtf8Limited limit (.file contents) = .ok (some contents) := by
  rw [readUtf8Limited, if_neg (Nat.not_lt.mpr hlength), if_pos hutf8]

theorem returns_iff {contents : List UInt8} (hlength : contents.length ≤ maxVdfBytes) :
    (∃ r, Returns contents r) ↔ bareFormFeed .outside contents = false := by
  rw [← tokenize_returns 0 contents]
  have hnot : ¬ maxVdfBytes < contents.length := Nat.not_lt.mpr hlength
  constructor
  · rintro ⟨r, fuel, h⟩
    rw [parseKeyValues, if_neg hnot] at h
    cases htokens : tokenize fuel 0 contents with
    | none =>
      rw [htokens] at h
      cases h
    | some r => exact ⟨fuel, r, htokens⟩
  · rintro ⟨fuel, r, htokens⟩
    cases r with
    | error e =>
      refine ⟨.error e, fuel, ?_⟩
      rw [parseKeyValues, if_neg hnot, htokens]
      rfl
    | ok tokens =>
      obtain ⟨r, hr⟩ : ∃ r, parseObject (tokens.length + 1) 0 false [] tokens = some r :=
        parseObject_returns (Nat.lt_succ_self tokens.length)
      have hparsed : ∃ r, parseKeyValues fuel contents = some r := by
        rw [parseKeyValues, if_neg hnot, htokens]
        simp only [bind, ExceptT.bind, ExceptT.mk, ExceptT.bindCont, Option.bind_some, hr]
        cases r with
        | error e => exact ⟨.error e, rfl⟩
        | ok p =>
          obtain ⟨root, rest⟩ := p
          cases rest with
          | nil => exact ⟨_, rfl⟩
          | cons token rest =>
            cases htoken : token.token with
            | closeBrace => exact ⟨.error (.unexpectedClose token.offset), by simp only [htoken]⟩
            | openBrace | text value =>
              exact ⟨.error (.missingValue _ token.offset), by
                simp only [htoken]
                rfl⟩
      obtain ⟨r, hr⟩ := hparsed
      exact ⟨r, fuel, hr⟩

/-- The reader of a library's manifest tells of its tree. -/
theorem reads_iff {lib : ScannedLibrary} {tree : Option KvValue} (h : Parsed lib tree) :
    (∃ s, Reads lib s) ∧ ∀ s, Reads lib s → Tells tree s := by
  unfold Parsed at h
  unfold Reads workshopSubscriptions
  cases hread : readUtf8Limited (8 * 1024 * 1024) lib.manifests.plain with
  | error e =>
    rw [hread] at h
    subst h
    refine ⟨⟨.error e, 0, rfl⟩, ?_⟩
    rintro s ⟨fuel, hs⟩
    obtain rfl := Option.some.inj hs
    exact rfl
  | ok read =>
    rw [hread] at h
    cases read with
    | none =>
      subst h
      refine ⟨⟨.ok [], 0, rfl⟩, ?_⟩
      rintro s ⟨fuel, hs⟩
      obtain rfl := Option.some.inj hs
      exact rfl
    | some contents =>
      obtain ⟨r, hr, rfl⟩ := h
      refine ⟨?_, ?_⟩
      · obtain ⟨fuel, hfuel⟩ := hr
        exact ⟨_, fuel, Option.map_eq_some_iff.mpr ⟨r, hfuel, rfl⟩⟩
      · rintro s ⟨fuel, hs⟩
        obtain ⟨r', hr', rfl⟩ := Option.map_eq_some_iff.mp hs
        obtain rfl := returns_unique ⟨fuel, hr'⟩ hr
        cases r' with
        | error e => exact rfl
        | ok tree => exact rfl

theorem parsed_unique {lib : ScannedLibrary} {tree tree' : Option KvValue} (h : Parsed lib tree)
    (h' : Parsed lib tree') : tree = tree' := by
  unfold Parsed at h h'
  cases hread : readUtf8Limited (8 * 1024 * 1024) lib.manifests.plain with
  | error e =>
    rw [hread] at h h'
    exact Eq.trans h (Eq.symm h')
  | ok read =>
    rw [hread] at h h'
    cases read with
    | none => exact Eq.trans h (Eq.symm h')
    | some contents =>
      obtain ⟨r, hr, rfl⟩ := h
      obtain ⟨r', hr', rfl⟩ := h'
      rw [returns_unique hr hr']

theorem exists_parsed_iff (lib : ScannedLibrary) : (∃ tree, Parsed lib tree) ↔ lib.NoFormFeed := by
  unfold Parsed ScannedLibrary.NoFormFeed
  cases hread : readUtf8Limited (8 * 1024 * 1024) lib.manifests.plain with
  | error e => simp
  | ok read =>
    cases read with
    | none => simp
    | some contents =>
      have hlength : contents.length ≤ maxVdfBytes := readUtf8Limited_length hread
      show (∃ tree, ∃ r, Returns contents r ∧ tree = r.toOption) ↔
        bareFormFeed .outside contents = false
      rw [← returns_iff hlength]
      constructor
      · rintro ⟨tree, r, hr, -⟩
        exact ⟨r, hr⟩
      · rintro ⟨r, hr⟩
        exact ⟨r.toOption, r, hr, rfl⟩

/-- A library whose reader comes back has a tree, or nothing that can be read. -/
theorem exists_parsed_of_reads {lib : ScannedLibrary} {s : Subscriptions} (h : Reads lib s) :
    ∃ tree, Parsed lib tree := by
  obtain ⟨fuel, hs⟩ := h
  unfold Parsed
  cases hread : readUtf8Limited (8 * 1024 * 1024) lib.manifests.plain with
  | error e => exact ⟨none, rfl⟩
  | ok read =>
    cases read with
    | none => exact ⟨none, rfl⟩
    | some contents =>
      rw [workshopSubscriptions, hread] at hs
      obtain ⟨r, hr, -⟩ := Option.map_eq_some_iff.mp hs
      exact ⟨r.toOption, r, ⟨fuel, hr⟩, rfl⟩

/-- The progress of an id is what the last library with the id says. -/
theorem progress_eq {trees : List (Option KvValue)} {subscriptions : List Subscriptions}
    (h : List.Forall₂ Tells trees subscriptions) (id : String) :
    SortedMap.get (workshopProgressOf subscriptions) id =
      (lastEntry (trees.filterMap fun tree => tree) id).map progressOf := by
  rw [get_workshopProgressOf, lastEntry, ← List.filterMap_reverse]
  have hreverse := List.forall₂_reverse_iff.mpr h
  generalize trees.reverse = trees at hreverse ⊢
  generalize subscriptions.reverse = subscriptions at hreverse ⊢
  induction hreverse with
  | nil => rfl
  | @cons tree s trees subscriptions htells _ ih =>
    cases tree with
    | none =>
      rw [List.findSome?_cons, show told s = [] from htells, ih]
      rfl
    | some tree =>
      obtain rfl : s = .ok (treeSubscriptions tree) := htells
      have hcons : ((some tree :: trees).filterMap fun tree => tree) =
          tree :: trees.filterMap fun tree => tree := rfl
      rw [List.findSome?_cons, told_find, ih, hcons, List.findSome?_cons]
      cases entryOf tree id <;> rfl

theorem entryOf_isSome {tree : KvValue} {id : String} :
    (entryOf tree id).isSome = true ↔ id ∈ listedIds tree := by
  rw [entryOf, Option.isSome_map, List.find?_isSome, listedIds]
  simp only [List.mem_reverse, Bool.and_eq_true, decide_eq_true_eq, List.mem_map, List.mem_filter,
    and_assoc]

theorem lastEntry_isSome {trees : List KvValue} {id : String} :
    (lastEntry trees id).isSome = true ↔ id ∈ trees.flatMap listedIds := by
  rw [lastEntry, List.findSome?_isSome_iff]
  simp only [List.mem_reverse, entryOf_isSome, List.mem_flatMap]

/-- The subscribed ids are those that a manifest lists. -/
theorem mem_keys_progress {trees : List (Option KvValue)} {subscriptions : List Subscriptions}
    (h : List.Forall₂ Tells trees subscriptions) (id : String) :
    id ∈ SortedMap.keys (workshopProgressOf subscriptions) ↔
      id ∈ (trees.filterMap fun tree => tree).flatMap listedIds := by
  rw [← lastEntry_isSome]
  have hget := progress_eq h id
  constructor
  · intro hmem
    obtain ⟨e, he, rfl⟩ := List.mem_map.mp hmem
    rw [(sorted_workshopProgressOf subscriptions).get_of_mem he] at hget
    cases hlast : lastEntry (trees.filterMap fun tree => tree) e.1 with
    | none =>
      rw [hlast] at hget
      cases hget
    | some value => rfl
  · intro hsome
    obtain ⟨value, hvalue⟩ := Option.isSome_iff_exists.mp hsome
    rw [hvalue, SortedMap.get] at hget
    obtain ⟨e, he, -⟩ := Option.map_eq_some_iff.mp hget
    obtain rfl : e.1 = id := by simpa using List.find?_some he
    exact List.mem_map_of_mem (List.mem_of_find?_eq_some he)

/-! ## Items -/

section Items

variable {fromSlice : List UInt8 → Except String Json} {sha256 : List UInt8 → String}
  {toLowercase : String → String} {limits : ScanLimits}

theorem scanProject_local (dir : ProjectDir) :
    (scanProject fromSlice sha256 limits dir).workshopId = dir.workshopId ∧
      (scanProject fromSlice sha256 limits dir).workshopState = "local" ∧
      (scanProject fromSlice sha256 limits dir).workshopProgress = none := by
  unfold scanProject
  split
  · exact ⟨rfl, rfl, rfl⟩
  · exact ⟨rfl, rfl, rfl⟩
  · split
    · exact ⟨rfl, rfl, rfl⟩
    · split
      · exact ⟨rfl, rfl, rfl⟩
      · split <;> exact ⟨rfl, rfl, rfl⟩

theorem roots_perm {lib : ScannedLibrary} (h : lib.dirs.length ≤ limits.maxProjects) :
    (lib.roots limits).Perm lib.dirs := by
  unfold ScannedLibrary.roots
  unfold ScannedLibrary.dirs at h ⊢
  split
  · next havailable =>
    rw [if_pos havailable] at h
    cases hprojects : lib.projects with
    | error e => exact .refl _
    | ok entries =>
      rw [hprojects] at h
      have htake : entries.take (limits.maxProjects + 1) = entries :=
        List.take_of_length_le (Nat.le_succ_of_le h)
      simp only [htake]
      exact List.mergeSort_perm _ _
  · exact .refl _

/-- Fewer projects than the limit are all scanned. -/
theorem installed_ids {libraries : List ScannedLibrary} {items : List CatalogItem}
    (h : items.length + (libraries.flatMap ScannedLibrary.dirs).length ≤ limits.maxProjects) :
    ∃ dirs : List ProjectDir,
      libraries.foldl (addProjects fromSlice sha256 limits) items =
        items ++ dirs.map (scanProject fromSlice sha256 limits) ∧
      dirs.Perm (libraries.flatMap ScannedLibrary.dirs) := by
  induction libraries generalizing items with
  | nil => exact ⟨[], by simp, .refl _⟩
  | cons lib libraries ih =>
    rw [List.flatMap_cons, List.length_append] at h
    have hperm : (lib.roots limits).Perm lib.dirs := roots_perm (by omega)
    have hlength := hperm.length_eq
    have htake : (lib.roots limits).take (limits.maxProjects - items.length) = lib.roots limits :=
      List.take_of_length_le (by omega)
    have hnext : (addProjects fromSlice sha256 limits items lib).length +
        (libraries.flatMap ScannedLibrary.dirs).length ≤ limits.maxProjects := by
      rw [addProjects, htake, List.length_append, List.length_map]
      omega
    obtain ⟨dirs, hitems, hdirs⟩ := ih hnext
    refine ⟨lib.roots limits ++ dirs, ?_, ?_⟩
    · rw [List.foldl_cons, hitems, addProjects, htake, List.map_append, List.append_assoc]
    · rw [List.flatMap_cons]
      exact hperm.append hdirs

/-- The catalog, in some order. -/
theorem scanInstalled_perm {libraries : List ScannedLibrary} (subscriptions : List Subscriptions)
    (h : (libraries.flatMap ScannedLibrary.dirs).length ≤ limits.maxProjects) :
    ∃ dirs : List ProjectDir, dirs.Perm (libraries.flatMap ScannedLibrary.dirs) ∧
      (scanInstalled fromSlice sha256 toLowercase limits libraries subscriptions).items.Perm
        ((dirs.map fun dir => markSubscribed (workshopProgressOf subscriptions)
            (scanProject fromSlice sha256 limits dir)) ++
          (((workshopProgressOf subscriptions).filter fun e =>
            !(dirs.map ProjectDir.workshopId).contains e.1).take limits.maxProjects).map
              fun e => missingItem e.1 e.2) := by
  obtain ⟨dirs, hitems, hdirs⟩ : ∃ dirs : List ProjectDir,
      libraries.foldl (addProjects fromSlice sha256 limits) [] =
        [] ++ dirs.map (scanProject fromSlice sha256 limits) ∧
      dirs.Perm (libraries.flatMap ScannedLibrary.dirs) := installed_ids (by simpa using h)
  refine ⟨dirs, hdirs, ?_⟩
  rw [List.nil_append] at hitems
  have hids : (dirs.map (scanProject fromSlice sha256 limits)).map (·.workshopId) =
      dirs.map ProjectDir.workshopId := by
    rw [List.map_map]
    exact List.map_congr_left fun dir _ => (scanProject_local dir).1
  simp only [scanInstalled, hitems, hids, List.map_map]
  exact List.mergeSort_perm _ _

theorem markSubscribed_workshopId (progress : List (String × Option UInt8)) (item : CatalogItem) :
    (markSubscribed progress item).workshopId = item.workshopId := by
  rw [markSubscribed]
  split <;> rfl

theorem count_take_one_iff {ids more : List String} (hmore : more.Nodup)
    (hapart : ∀ id ∈ more, id ∉ ids) (n : Nat) :
    (∀ id, id ∈ more ∨ id ∈ ids → (ids ++ more.take n).count id = 1) ↔
      ids.Nodup ∧ more.length ≤ n := by
  constructor
  · intro h
    refine ⟨List.nodup_iff_count_le_one.mpr fun id => ?_, ?_⟩
    · by_cases hid : id ∈ ids
      · have hone := h id (.inr hid)
        rw [List.count_append] at hone
        omega
      · rw [List.count_eq_zero_of_not_mem hid]
        exact Nat.zero_le 1
    · by_contra hlong
      have hn : n < more.length := Nat.lt_of_not_le hlong
      have hid : more[n] ∈ more := List.getElem_mem hn
      have hone := h more[n] (.inl hid)
      have htake : more[n] ∉ more.take n := by
        intro hmem
        obtain ⟨i, hi, heq⟩ := List.mem_take_iff_getElem.mp hmem
        have := (List.Nodup.getElem_inj_iff hmore).mp heq
        omega
      rw [List.count_append, List.count_eq_zero_of_not_mem (hapart _ hid),
        List.count_eq_zero_of_not_mem htake] at hone
      cases hone
  · rintro ⟨hids, hlength⟩ id hid
    rw [List.take_of_length_le hlength]
    refine List.count_eq_one_of_mem ?_ ?_
    · refine List.nodup_append.mpr ⟨hids, hmore, fun a ha b hb heq => ?_⟩
      exact hapart b hb (heq ▸ ha)
    · exact List.mem_append.mpr (hid.symm)

theorem workshopProgress_lt {value : KvValue} {p : Nat} (h : workshopProgress value = some p) :
    p < 256 := by
  rw [workshopProgress_eq] at h
  cases hbytes : byteCounts value with
  | some counts =>
    rw [hbytes] at h
    obtain rfl := Option.some.inj h
    exact Nat.mod_lt _ (by decide)
  | none =>
    rw [hbytes, statedPercent] at h
    cases value with
    | string s => cases h
    | object fields =>
      have hle : p ≤ 100 := by simpa using (Option.filter_eq_some_iff.mp h).2
      omega

theorem toNat_progressOf (value : KvValue) :
    (progressOf value).map UInt8.toNat = workshopProgress value := by
  cases h : workshopProgress value with
  | none => simp [progressOf, h]
  | some p => simp [progressOf, h, Nat.mod_eq_of_lt (workshopProgress_lt h)]

theorem complete_iff (value : KvValue) :
    Complete value ↔ (progressOf value).any (· < 100) = false := by
  rw [Complete, ← toNat_progressOf]
  cases progressOf value with
  | none => simp
  | some p => simp [UInt8.le_iff_toNat_le]

theorem byteCounts_bounds {value : KvValue} {done total : Nat}
    (h : byteCounts value = some (done, total)) : 0 < total ∧ done ≤ total := by
  rw [byteCounts] at h
  obtain ⟨object, -, h⟩ := Option.bind_eq_some_iff.mp h
  obtain ⟨d, -, h⟩ := Option.bind_eq_some_iff.mp h
  obtain ⟨t, -, h⟩ := Option.bind_eq_some_iff.mp h
  obtain ⟨hbounds, heq⟩ := Option.ite_none_right_eq_some.mp h
  obtain ⟨rfl, rfl⟩ := Prod.mk.inj (Option.some.inj heq)
  exact hbounds

/-- The saturated product has the same quotient just if the quotient fits. -/
theorem saturated_div_iff {a total : Nat} (hpos : 0 < total) :
    min a (2 ^ 64 - 1) / total = a / total ↔ a / total * total < 2 ^ 64 := by
  have hle : min a (2 ^ 64 - 1) / total ≤ a / total := Nat.div_le_div_right (Nat.min_le_left _ _)
  have hge : a / total ≤ min a (2 ^ 64 - 1) / total ↔ a / total * total ≤ min a (2 ^ 64 - 1) :=
    Nat.le_div_iff_mul_le hpos
  have hself : a / total * total ≤ a := Nat.div_mul_le_self a total
  constructor
  · intro heq
    have := hge.mp heq.ge
    omega
  · intro hlt
    exact Nat.le_antisymm hle (hge.mpr (by omega))

/-- The percentage of one record is stated just if it is the progress. -/
theorem states_iff {trees : List KvValue} {id : String} {done total : Nat}
    (h : recordedBytes trees id = [(done, total)]) {value : KvValue}
    (hlast : lastEntry trees id = some value) :
    States value done total ↔ workshopProgress value = some (done * 100 / total) := by
  rw [workshopProgress_eq, States]
  cases hbytes : byteCounts value with
  | none => simp
  | some counts =>
    have hmem : counts ∈ recordedBytes trees id := by
      obtain ⟨tree, htree, hentry⟩ := List.exists_of_findSome?_eq_some hlast
      refine List.mem_filterMap.mpr ⟨tree, List.mem_reverse.mp htree, ?_⟩
      rw [hentry, Option.bind_some, hbytes]
    rw [h] at hmem
    obtain rfl := List.mem_singleton.mp hmem
    obtain ⟨hpos, hle⟩ : 0 < total ∧ done ≤ total := byteCounts_bounds hbytes
    have hquotient : done * 100 / total ≤ 100 := by
      rw [Nat.div_le_iff_le_mul hpos]
      omega
    have hmin : min (done * 100) (2 ^ 64 - 1) / total ≤ done * 100 / total :=
      Nat.div_le_div_right (Nat.min_le_left _ _)
    have hmod : min (done * 100) (2 ^ 64 - 1) / total % 2 ^ 8 =
        min (done * 100) (2 ^ 64 - 1) / total := Nat.mod_eq_of_lt (by omega)
    simp only [Option.isSome_some, true_and, reduceCtorEq, false_and, or_false, Option.some.injEq,
      hmod]
    rw [← saturated_div_iff hpos]

/-- What the scan lists: the items of the project directories, and those of the
first absent ids. -/
structure Listing (limits : ScanLimits) (trees : List KvValue) (libraries : List ScannedLibrary)
    (catalog : Catalog) : Prop where
  ids : ∃ dirIds absent : List String, dirIds.Perm (projectIds libraries) ∧
    absent.Perm (absentIds trees libraries) ∧
    catalog.ids.Perm (dirIds ++ absent.take limits.maxProjects)
  progress : ∀ item ∈ catalog.items,
    item.workshopProgress = (lastEntry trees item.workshopId).bind progressOf
  state : ∀ item ∈ catalog.items,
    (item.workshopId ∈ projectIds libraries ∧
      (item.workshopState = "downloading" ↔ item.workshopProgress.any (· < 100))) ∨
    (item.workshopId ∈ absentIds trees libraries ∧ item.workshopState = "subscribed_missing")

theorem scanInstalled_listing {libraries : List ScannedLibrary} {trees : List (Option KvValue)}
    {subscriptions : List Subscriptions} (htells : List.Forall₂ Tells trees subscriptions)
    (h : (libraries.flatMap ScannedLibrary.dirs).length ≤ limits.maxProjects) :
    Listing limits (trees.filterMap fun tree => tree) libraries
      (scanInstalled fromSlice sha256 toLowercase limits libraries subscriptions) := by
  obtain ⟨dirs, hdirs, hperm⟩ :=
    @scanInstalled_perm fromSlice sha256 toLowercase limits libraries subscriptions h
  have hprojects : (dirs.map ProjectDir.workshopId).Perm (projectIds libraries) := by
    rw [projectIds, ← List.map_flatMap]
    exact hdirs.map _
  have hget := progress_eq htells
  have hkeys := mem_keys_progress htells
  have hsorted := sorted_workshopProgressOf subscriptions
  generalize workshopProgressOf subscriptions = progress at hperm hget hkeys hsorted
  generalize (trees.filterMap fun tree => tree) = trees at hget hkeys ⊢
  have hmem : ∀ id, id ∈ dirs.map ProjectDir.workshopId ↔ id ∈ projectIds libraries :=
    fun id => hprojects.mem_iff
  have hmissing : ∀ e, e ∈ progress.filter
      (fun e => !(dirs.map ProjectDir.workshopId).contains e.1) →
      e.1 ∈ absentIds trees libraries ∧ e.2 = (lastEntry trees e.1).bind progressOf := by
    intro e he
    obtain ⟨he, hnot⟩ := List.mem_filter.mp he
    have hentry := hget e.1
    rw [hsorted.get_of_mem he] at hentry
    obtain ⟨value, hvalue, heq⟩ := Option.map_eq_some_iff.mp hentry.symm
    have hkey : e.1 ∈ trees.flatMap listedIds := (hkeys e.1).mp (List.mem_map_of_mem he)
    refine ⟨List.mem_filter.mpr ⟨List.mem_dedup.mpr hkey, decide_eq_true fun hin => ?_⟩, by
      rw [hvalue, ← heq]
      rfl⟩
    simp [(hmem e.1).mpr hin] at hnot
  refine ⟨⟨dirs.map ProjectDir.workshopId, (progress.filter fun e =>
    !(dirs.map ProjectDir.workshopId).contains e.1).map (·.1), hprojects, ?_, ?_⟩, ?_, ?_⟩
  · refine (List.perm_ext_iff_of_nodup ?_ ((List.nodup_dedup _).filter _)).mpr fun id => ?_
    · exact SortedMap.Sorted.nodup_keys (List.Pairwise.filter _ hsorted)
    · constructor
      · intro hid
        obtain ⟨e, he, rfl⟩ := List.mem_map.mp hid
        exact (hmissing e he).1
      · intro hid
        obtain ⟨hlisted, hnot⟩ := List.mem_filter.mp hid
        obtain ⟨e, he, rfl⟩ := List.mem_map.mp ((hkeys id).mpr (List.mem_dedup.mp hlisted))
        refine List.mem_map_of_mem (List.mem_filter.mpr ⟨he, ?_⟩)
        have hnot : e.1 ∉ projectIds libraries := by simpa using hnot
        rw [← hmem] at hnot
        simpa using hnot
  · refine (hperm.map _).trans (List.Perm.of_eq ?_)
    rw [List.map_append, List.map_map, List.map_map, List.map_take]
    congr 1
    exact List.map_congr_left fun dir _ =>
      (markSubscribed_workshopId _ _).trans (scanProject_local dir).1
  · intro item hitem
    rcases List.mem_append.mp (hperm.mem_iff.mp hitem) with hitem | hitem
    · obtain ⟨dir, -, rfl⟩ := List.mem_map.mp hitem
      obtain ⟨hid, -, hprogress⟩ := @scanProject_local fromSlice sha256 limits dir
      rw [markSubscribed_workshopId, markSubscribed, hget]
      cases lastEntry trees (scanProject fromSlice sha256 limits dir).workshopId with
      | none => exact hprogress
      | some value => rfl
    · obtain ⟨e, he, rfl⟩ := List.mem_map.mp hitem
      exact (hmissing e (List.mem_of_mem_take he)).2
  · intro item hitem
    rcases List.mem_append.mp (hperm.mem_iff.mp hitem) with hitem | hitem
    · left
      obtain ⟨dir, hdir, rfl⟩ := List.mem_map.mp hitem
      obtain ⟨hid, hstate, hprogress⟩ := @scanProject_local fromSlice sha256 limits dir
      refine ⟨?_, ?_⟩
      · rw [markSubscribed_workshopId, hid, ← hmem]
        exact List.mem_map_of_mem hdir
      · rw [markSubscribed]
        split
        · next value _ => cases value.any (· < 100) <;> simp
        · simp [hstate, hprogress]
    · obtain ⟨e, he, rfl⟩ := List.mem_map.mp hitem
      exact .inr ⟨(hmissing e (List.mem_of_mem_take he)).1, rfl⟩

/-- **One list of manifests.** -/
theorem correct_iff {libraries : List ScannedLibrary} {trees : List KvValue} {catalog : Catalog}
    (h : Listing limits trees libraries catalog) :
    catalog.Correct trees libraries ↔ ScanFits limits trees libraries := by
  obtain ⟨⟨dirIds, absent, hdirs, habsent, hids⟩, hprogress, hstate⟩ := h
  have hnodup : absent.Nodup := habsent.symm.nodup ((List.nodup_dedup _).filter _)
  have hapart : ∀ id ∈ absent, id ∉ dirIds := fun id hid hdir => by
    have hnot := (List.mem_filter.mp (habsent.mem_iff.mp hid)).2
    simp [hdirs.mem_iff.mp hdir] at hnot
  have hdomain : ∀ id, id ∈ trees.flatMap listedIds ∨ id ∈ projectIds libraries ↔
      id ∈ absent ∨ id ∈ dirIds := fun id => by
    rw [habsent.mem_iff, hdirs.mem_iff, absentIds, List.mem_filter, List.mem_dedup]
    by_cases hin : id ∈ projectIds libraries <;> simp [hin]
  have honce : (∀ id, id ∈ trees.flatMap listedIds ∨ id ∈ projectIds libraries →
      catalog.ids.count id = 1) ↔
      (projectIds libraries).Nodup ∧ (absentIds trees libraries).length ≤ limits.maxProjects := by
    rw [← habsent.length_eq, ← hdirs.nodup_iff, ← count_take_one_iff hnodup hapart]
    exact forall_congr' fun id => by rw [hdomain, hids.count_eq]
  have hitem : (absentIds trees libraries).length ≤ limits.maxProjects → ∀ id,
      id ∈ absentIds trees libraries ∨ id ∈ projectIds libraries →
      ∃ item ∈ catalog.items, item.workshopId = id := fun hroom id hid => by
    have hmem : id ∈ catalog.ids := by
      rw [hids.mem_iff, List.take_of_length_le (habsent.length_eq ▸ hroom), List.mem_append,
        hdirs.mem_iff, habsent.mem_iff]
      exact hid.symm
    exact List.mem_map.mp hmem
  constructor
  · intro hcorrect
    obtain ⟨hsingle, hroom⟩ := honce.mp hcorrect.once
    refine ⟨hsingle, hroom, fun id hid value hlast => ?_, fun id done total hbytes value hlast => ?_⟩
    · obtain ⟨item, hin, rfl⟩ := hitem hroom id (.inl hid)
      have hmissing : item.workshopState = "subscribed_missing" := by
        rcases hstate item hin with ⟨hdir, -⟩ | ⟨-, hmissing⟩
        · have hnot := (List.mem_filter.mp hid).2
          simp [hdir] at hnot
        · exact hmissing
      have hdownloading := hcorrect.downloading item hin
      rw [hmissing, hprogress item hin, hlast, Option.bind_some] at hdownloading
      rw [complete_iff, Bool.eq_false_iff]
      exact fun hany => absurd (hdownloading.mpr hany) (by decide)
    · have hlisted : id ∈ trees.flatMap listedIds := lastEntry_isSome.mp (by rw [hlast]; rfl)
      have hwhere : id ∈ absentIds trees libraries ∨ id ∈ projectIds libraries := by
        rw [← habsent.mem_iff, ← hdirs.mem_iff, ← hdomain]
        exact .inl hlisted
      obtain ⟨item, hin, rfl⟩ := hitem hroom id hwhere
      have hshown := hcorrect.progress item hin done total hbytes
      rw [hprogress item hin, hlast, Option.bind_some, toNat_progressOf] at hshown
      exact (states_iff hbytes hlast).mpr hshown
  · intro hfits
    refine ⟨honce.mpr ⟨hfits.single, hfits.room⟩, fun item hin => ?_,
      fun item hin done total hbytes => ?_⟩
    · rcases hstate item hin with ⟨-, hdownloading⟩ | ⟨hid, hmissing⟩
      · exact hdownloading
      · rw [hmissing, hprogress item hin]
        cases hlast : lastEntry trees item.workshopId with
        | none => simp
        | some value =>
          have hcomplete := (complete_iff value).mp (hfits.complete _ hid value hlast)
          rw [Option.bind_some, hcomplete]
          decide
    · have hsome : (lastEntry trees item.workshopId).isSome = true := by
        have hmem : (done, total) ∈ recordedBytes trees item.workshopId := by
          rw [hbytes]
          exact List.mem_singleton_self _
        obtain ⟨tree, htree, hentry⟩ := List.mem_filterMap.mp hmem
        obtain ⟨value, hvalue, -⟩ := Option.bind_eq_some_iff.mp hentry
        refine lastEntry_isSome.mpr (List.mem_flatMap.mpr ⟨tree, htree, entryOf_isSome.mp ?_⟩)
        rw [hvalue]
        rfl
      obtain ⟨value, hlast⟩ := Option.isSome_iff_exists.mp hsome
      rw [hprogress item hin, hlast, Option.bind_some, toNat_progressOf]
      exact (states_iff hbytes hlast).mp (hfits.last _ done total hbytes value hlast)

end Items

theorem tells_of_reads {libraries : List ScannedLibrary} {subscriptions : List Subscriptions}
    {trees : List (Option KvValue)} (hreads : List.Forall₂ Reads libraries subscriptions)
    (hparsed : List.Forall₂ Parsed libraries trees) : List.Forall₂ Tells trees subscriptions := by
  induction hreads generalizing trees with
  | nil =>
    cases hparsed
    exact .nil
  | cons hread _ ih =>
    cases hparsed with
    | cons hparse htail => exact .cons ((reads_iff hparse).2 _ hread) (ih htail)

theorem forall₂_parsed_unique {libraries : List ScannedLibrary} {trees trees' : List (Option KvValue)}
    (h : List.Forall₂ Parsed libraries trees) (h' : List.Forall₂ Parsed libraries trees') :
    trees = trees' := by
  induction h generalizing trees' with
  | nil =>
    cases h'
    rfl
  | cons hparse _ ih =>
    cases h' with
    | cons hparse' htail => rw [parsed_unique hparse hparse', ih htail]

/-- **Scans.**  The scan comes back with a catalog that is right about all items
just if every manifest can be read to its end and the libraries fit. -/
theorem scan_correct_iff (fromSlice : List UInt8 → Except String Json)
    (sha256 : List UInt8 → String) (toLowercase : String → String) (limits : ScanLimits)
    (libraries : List ScannedLibrary)
    (hfew : (libraries.flatMap ScannedLibrary.dirs).length < limits.maxProjects) :
    (∃ subscriptions trees, List.Forall₂ Reads libraries subscriptions ∧
      List.Forall₂ Parsed libraries trees ∧
      (scanInstalled fromSlice sha256 toLowercase limits libraries subscriptions).Correct
        (trees.filterMap fun tree => tree) libraries) ↔
    (∀ lib ∈ libraries, lib.NoFormFeed) ∧ ∀ trees, List.Forall₂ Parsed libraries trees →
      ScanFits limits (trees.filterMap fun tree => tree) libraries := by
  constructor
  · rintro ⟨subscriptions, trees, hreads, hparsed, hcorrect⟩
    have hlisting := @scanInstalled_listing fromSlice sha256 toLowercase limits libraries trees
      subscriptions (tells_of_reads hreads hparsed) hfew.le
    refine ⟨fun lib hlib => ?_, fun trees' hparsed' => ?_⟩
    · obtain ⟨i, hi, rfl⟩ := List.mem_iff_getElem.mp hlib
      have htree := hparsed.get hi (hparsed.length_eq ▸ hi)
      exact (exists_parsed_iff _).mp ⟨_, htree⟩
    · rw [← forall₂_parsed_unique hparsed hparsed']
      exact (correct_iff hlisting).mp hcorrect
  · rintro ⟨hfeeds, hfits⟩
    have hexist : ∃ subscriptions trees, List.Forall₂ Reads libraries subscriptions ∧
        List.Forall₂ Parsed libraries trees := by
      clear hfits hfew
      induction libraries with
      | nil => exact ⟨[], [], .nil, .nil⟩
      | cons lib libraries ih =>
        obtain ⟨hlib, hlibs⟩ := List.forall_mem_cons.mp hfeeds
        obtain ⟨tree, htree⟩ := (exists_parsed_iff lib).mpr hlib
        obtain ⟨⟨s, hs⟩, -⟩ := reads_iff htree
        obtain ⟨subscriptions, trees, hreads, hparsed⟩ := ih hlibs
        exact ⟨s :: subscriptions, tree :: trees, .cons hs hreads, .cons htree hparsed⟩
    obtain ⟨subscriptions, trees, hreads, hparsed⟩ := hexist
    have hlisting := @scanInstalled_listing fromSlice sha256 toLowercase limits libraries trees
      subscriptions (tells_of_reads hreads hparsed) hfew.le
    exact ⟨subscriptions, trees, hreads, hparsed, (correct_iff hlisting).mpr (hfits trees hparsed)⟩

/-! ## A large item -/

/-- A manifest of one item, of which all bytes are there. -/
def loadedItem (bytes : String) : List (Text × KvValue) :=
  [(text "AppWorkshop", .object [(text "WorkshopItems", .object [(text "123", .object
    [(text "downloadedbytes", .string (text bytes)), (text "size", .string (text bytes))])])])]

/-- A library with that item. -/
def loadedLibrary (bytes : String) : ScannedLibrary where
  manifests := ⟨.absent, .file (print (fun _ => []) (loadedItem bytes))⟩
  workshopAvailable := true
  projects := .ok [⟨text "123", "/123", .unsafeType, fun _ => .absent, none⟩]

theorem scan_correct_iff_loaded :
    (∃ subscriptions trees, List.Forall₂ Reads [loadedLibrary "50"] subscriptions ∧
      List.Forall₂ Parsed [loadedLibrary "50"] trees ∧
      (scanInstalled (fun _ => .error "") (fun _ => "") (fun title => title) .default
        [loadedLibrary "50"] subscriptions).Correct
        (trees.filterMap fun tree => tree) [loadedLibrary "50"]) ↔
    (∀ lib ∈ [loadedLibrary "50"], lib.NoFormFeed) ∧
      ∀ trees, List.Forall₂ Parsed [loadedLibrary "50"] trees →
        ScanFits .default (trees.filterMap fun tree => tree) [loadedLibrary "50"] :=
  scan_correct_iff _ _ _ _ _ (by decide)

/-- The largest item is all there, but the product of its bytes and 100 leaves 64
bits: the catalog says 1 percent. -/
theorem loaded_item_downloading :
    ¬ ∃ subscriptions trees,
      List.Forall₂ Reads [loadedLibrary "18446744073709551615"] subscriptions ∧
      List.Forall₂ Parsed [loadedLibrary "18446744073709551615"] trees ∧
      (scanInstalled (fun _ => .error "") (fun _ => "") (fun title => title) .default
        [loadedLibrary "18446744073709551615"] subscriptions).Correct
        (trees.filterMap fun tree => tree) [loadedLibrary "18446744073709551615"] := by
  rintro ⟨subscriptions, trees, hreads, hparsed, hcorrect⟩
  have htree : Parsed (loadedLibrary "18446744073709551615")
      (some (.object (loadedItem "18446744073709551615"))) := by
    have hutf8 : readUtf8Limited (8 * 1024 * 1024)
        (loadedLibrary "18446744073709551615").manifests.plain =
          .ok (some (print (fun _ => []) (loadedItem "18446744073709551615"))) := by
      refine readUtf8Limited_file (by decide) (decode_of_text (s :=
        "\"AppWorkshop\"\x7b\"WorkshopItems\"\x7b\"123\"\x7b" ++
          "\"downloadedbytes\"\"18446744073709551615\"" ++
          "\"size\"\"18446744073709551615\"\x7d\x7d\x7d") (by decide +kernel))
    rw [Parsed, hutf8]
    exact ⟨_, parse_print (by decide) (by decide), rfl⟩
  obtain rfl := forall₂_parsed_unique hparsed (.cons htree .nil)
  have hlisting := @scanInstalled_listing (fun _ => .error "") (fun _ => "") (fun title => title)
    .default [loadedLibrary "18446744073709551615"] _ subscriptions
    (tells_of_reads hreads hparsed) (by decide)
  have hfits := (correct_iff hlisting).mp hcorrect
  have hstates := hfits.last "123" (2 ^ 64 - 1) (2 ^ 64 - 1) (by decide +kernel) _ (by rfl)
  rcases hstates with ⟨-, hlt⟩ | ⟨hnone, -⟩
  · exact absurd hlt (by decide)
  · exact absurd hnone (by decide +kernel)

end Kwe.Workshop
