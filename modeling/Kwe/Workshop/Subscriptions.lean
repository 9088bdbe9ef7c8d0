import Kwe.Workshop.Manifest

/-!
Whether the two readers of the manifest of a library find the same items.

* `mem_treeSubscriptions`, `mem_sectionSubscriptions`: what each reader takes
  from a tree;
* `agree_iff`: the readers agree on a library if and only if the sections that
  the one reads list what the section of the other does.
-/

namespace Kwe.Workshop

open Foundation Foundation.SortedMap Kwe.Vdf

/-! ## Ids -/

theorem isAsciiDigit_iff {b : UInt8} : isAsciiDigit b = true ↔ 0x30 ≤ b.toNat ∧ b.toNat ≤ 0x39 := by
  simp [isAsciiDigit, UInt8.le_iff_toNat_le]

/-- The characters of ASCII bytes. -/
def asciiChars (t : Text) : List Char := t.map fun b => Char.ofNat b.toNat

theorem encode_asciiChars (t : Text) : Utf8.encode (asciiChars t) = widenText t := by
  rw [Utf8.encode, asciiChars, List.flatMap_map]
  rfl

theorem decode_digits {t : Text} (h : t.all isAsciiDigit = true) :
    Utf8.decode t = some (asciiChars t) ∧ Utf8.encode (asciiChars t) = t := by
  have hascii : widenText t = t := (widenText_eq_iff t).mpr fun b hb => by
    have hdigit := isAsciiDigit_iff.mp (List.all_eq_true.mp h b hb)
    rw [UInt8.lt_iff_toNat_lt]
    exact Nat.lt_of_le_of_lt hdigit.2 (by decide)
  have hencode := (encode_asciiChars t).trans hascii
  refine ⟨?_, hencode⟩
  have hdecode := Utf8.decode_encode (asciiChars t)
  rwa [hencode] at hdecode

/-- The characters of digits are none that an id is cut at. -/
theorem digit_char {c : Char} {t : Text} (h : t.all isAsciiDigit = true) (hc : c ∈ asciiChars t) :
    0x30 ≤ c.toNat ∧ c.toNat ≤ 0x39 := by
  obtain ⟨b, hb, rfl⟩ := List.mem_map.mp hc
  have hdigit := isAsciiDigit_iff.mp (List.all_eq_true.mp h b hb)
  have hvalid : Nat.isValidChar b.toNat := .inl (by omega)
  have hnat : (Char.ofNat b.toNat).toNat = b.toNat := by
    rw [Char.ofNat, dif_pos hvalid]
    rfl
  rwa [hnat]

theorem trim_eq_self {key : List Char} (h : ∀ c ∈ key, isWhitespace c = false) : trim key = key := by
  have hdrop : ∀ l : List Char, (∀ c ∈ l, isWhitespace c = false) →
      l.dropWhile isWhitespace = l := by
    intro l hl
    cases l with
    | nil => rfl
    | cons c l => rw [List.dropWhile_cons_of_neg (by simp [hl c List.mem_cons_self])]
  rw [trim, hdrop key h, hdrop _ fun c hc => h c (List.mem_reverse.mp hc), List.reverse_reverse]

/-- A valid id is the id of its own key. -/
theorem keyItemId_self {id : Text} (h : validItemId id = true) : keyItemId id = some id := by
  have hdigits : id.all isAsciiDigit = true := by
    unfold validItemId at h
    simp only [Bool.and_eq_true] at h
    exact h.1.2
  obtain ⟨hdecode, hencode⟩ := decode_digits hdigits
  have hchars := fun c (hc : c ∈ asciiChars id) => digit_char hdigits hc
  have htrim : trim (asciiChars id) = asciiChars id := trim_eq_self fun c hc => by
    have hdigit := hchars c hc
    simp [isWhitespace]
    omega
  have hplain : (decide ("://".toList <:+: asciiChars id) || (asciiChars id).contains '?') = false := by
    rw [Bool.or_eq_false_iff, decide_eq_false_iff_not]
    constructor
    · intro hwithin
      exact absurd (hchars ':' (hwithin.subset (by decide))) (by decide)
    · rw [← Bool.not_eq_true, List.contains_iff_mem]
      intro hmem
      exact absurd (hchars '?' hmem) (by decide)
  rw [keyItemId, hdecode, Option.bind_some, parseItemId, htrim]
  rw [hplain, if_neg Bool.false_ne_true, Option.map_some, hencode, Option.filter_some, if_pos h]

theorem keyItemId_valid {key id : Text} (h : keyItemId key = some id) : validItemId id = true := by
  obtain ⟨chars, -, hparse⟩ := Option.bind_eq_some_iff.mp h
  exact (Option.filter_eq_some_iff.mp hparse).2

/-- A key that names no item, but passes the filter of the scanner. -/
def Blank (key : Text) : Prop := key.length ≤ 20 ∧ key.all (· == 0x30) = true ∧ key ≠ text "0"

theorem subscriptionKey_iff {key : Text} :
    subscriptionKey key = true ↔ validItemId key = true ∨ Blank key := by
  have hzero : key.all (· == 0x30) = true ↔ ¬ key.any (· != 0x30) = true := by
    simp
  have hdigits : key.all (· == 0x30) = true → key.all isAsciiDigit = true := by
    intro h
    refine List.all_eq_true.mpr fun b hb => ?_
    rw [eq_of_beq (List.all_eq_true.mp h b hb)]
    rfl
  have hempty : key.any (· != 0x30) = true → key.isEmpty = false ∧ key ≠ text "0" := by
    intro h
    constructor
    · cases key with
      | nil => simp at h
      | cons b key => rfl
    · rintro rfl
      revert h
      decide
  unfold subscriptionKey validItemId Blank
  simp only [Bool.and_eq_true, decide_eq_true_eq, Bool.not_eq_true', bne_iff_ne]
  constructor
  · rintro ⟨⟨hlength, hkey⟩, hne⟩
    by_cases hany : key.any (· != 0x30) = true
    · exact .inl ⟨⟨⟨(hempty hany).1, hlength⟩, hkey⟩, hany⟩
    · exact .inr ⟨hlength, hzero.mpr hany, hne⟩
  · rintro (⟨⟨⟨-, hlength⟩, hkey⟩, hany⟩ | ⟨hlength, hall, hne⟩)
    · exact ⟨⟨hlength, hkey⟩, (hempty hany).2⟩
    · exact ⟨⟨hlength, hdigits hall⟩, hne⟩

theorem blank_not_valid {key : Text} (h : Blank key) : validItemId key = false := by
  have hnone : key.any (· != 0x30) = false := by
    simpa using h.2.1
  simp [validItemId, hnone]

/-! ## What the readers take from a tree -/

/-- The keys of the section that the scanner reads. -/
def firstItems (tree : KvValue) : List Text := keys ((workshopItems tree).getD [])

/-- The keys of all sections that the download command reads. -/
def listed (tree : KvValue) : List Text :=
  (((appWorkshop tree).getD []).filter fun e => manifestSection e.1).flatMap fun e =>
    keys ((objectOf e.2).getD [])

theorem mem_keys {m : List (Text × KvValue)} {k : Text} : k ∈ keys m ↔ ∃ e ∈ m, e.1 = k :=
  List.mem_map

theorem mem_treeSubscriptions (tree : KvValue) (id : Text) :
    id ∈ keys (treeSubscriptions tree) ↔ subscriptionKey id = true ∧ id ∈ firstItems tree := by
  unfold treeSubscriptions
  rw [mem_keys_foldl (P := fun e k => subscriptionKey e.1 = true ∧ e.1 = k)]
  · rw [firstItems, mem_keys]
    constructor
    · rintro (h | ⟨e, he, hkey, rfl⟩)
      · cases h
      · exact ⟨hkey, e, he, rfl⟩
    · rintro ⟨hkey, e, he, rfl⟩
      exact .inr ⟨e, he, hkey, rfl⟩
  · intro m e k
    split
    next h => simp [mem_keys_insert, h, eq_comm]
    next h => simp [h]

theorem mem_keys_insertItem (ids : List (Text × Unit)) (e : Text × KvValue) (id : Text) :
    id ∈ keys (insertItem ids e) ↔ id ∈ keys ids ∨ keyItemId e.1 = some id := by
  unfold insertItem
  split
  next h => rw [mem_keys_insert, h, Option.some_inj, eq_comm (a := id)]
  next h => simp [h]

theorem mem_sectionSubscriptions {tree : KvValue} {app : List (Text × KvValue)}
    (happ : appWorkshop tree = some app) (id : Text) :
    id ∈ keys (sectionSubscriptions app) ↔ ∃ key ∈ listed tree, keyItemId key = some id := by
  unfold sectionSubscriptions
  rw [mem_keys_foldl (P := fun e k => manifestSection e.1 = true ∧
    ∃ item ∈ (objectOf e.2).getD [], keyItemId item.1 = some k)]
  · rw [listed, happ, Option.getD_some]
    constructor
    · rintro (h | ⟨e, he, hsection, item, hitem, hid⟩)
      · cases h
      · exact ⟨item.1, List.mem_flatMap.mpr ⟨e, List.mem_filter.mpr ⟨he, hsection⟩,
          mem_keys.mpr ⟨item, hitem, rfl⟩⟩, hid⟩
    · rintro ⟨key, hkey, hid⟩
      obtain ⟨e, he, hkey⟩ := List.mem_flatMap.mp hkey
      obtain ⟨he, hsection⟩ := List.mem_filter.mp he
      obtain ⟨item, hitem, rfl⟩ := mem_keys.mp hkey
      exact .inr ⟨e, he, hsection, item, hitem, hid⟩
  · intro m e k
    split
    next h => rw [mem_keys_foldl mem_keys_insertItem]; simp [h]
    next h => simp [h]

/-- The section of the scanner is one of those of the download command. -/
theorem firstItems_subset (tree : KvValue) : firstItems tree ⊆ listed tree := by
  intro key hkey
  unfold firstItems workshopItems at hkey
  cases happ : appWorkshop tree with
  | none => simp [happ, keys] at hkey
  | some app =>
    rw [happ, Option.bind_some] at hkey
    cases hfind : app.find? fun e => eqIgnoreAsciiCase e.1 (text "workshopitems") with
    | none => simp [hfind, keys] at hkey
    | some e =>
      rw [hfind, Option.bind_some] at hkey
      have hname : manifestSection e.1 = true := by
        have hsame := List.find?_some hfind
        have hlower : toAsciiLowercase (text "workshopitems") = text "workshopitems" := by decide
        unfold eqIgnoreAsciiCase at hsame
        rw [hlower] at hsame
        unfold manifestSection
        rw [hsame, Bool.or_true]
      rw [listed, happ, Option.getD_some]
      exact List.mem_flatMap.mpr ⟨e, List.mem_filter.mpr ⟨List.mem_of_find?_eq_some hfind, hname⟩, hkey⟩

/-! ## The readers -/

/-- A place holds no manifest, or one that the parser reads as a tree. -/
def Holds : Entry → Option KvValue → Prop
  | .absent, tree => tree = none
  | .file contents, some tree => (Utf8.decode contents).isSome ∧ Returns contents (.ok tree)
  | _, _ => False

/-- Both readers come back, with the same items. -/
def Agree (lib : Library) : Prop :=
  ∃ fuel fuel' items ids, workshopSubscriptions fuel lib = some (.ok items) ∧
    manifestSubscriptions fuel' lib = some (.ok ids) ∧ ∀ id, id ∈ keys items ↔ id ∈ keys (ids.getD [])

/-- The keys of no manifest are none. -/
def treeKeys (keysOf : KvValue → List Text) (tree : Option KvValue) : List Text :=
  (tree.map keysOf).getD []

/-- The manifest that is read lists what the section of the scanner does: it has
sections, the items they name are keys of that section, which has no blank
keys, and they name its items where they are those of another file. -/
structure Listed (workshop plain : Option KvValue) : Prop where
  sections : ∀ tree ∈ workshop.or plain, (appWorkshop tree).isSome = true
  named : ∀ key ∈ treeKeys listed (workshop.or plain), ∀ id ∈ keyItemId key,
    id ∈ treeKeys firstItems plain
  blank : ∀ key ∈ treeKeys firstItems plain, ¬ Blank key
  complete : workshop.isSome = true → ∀ key ∈ treeKeys firstItems plain, validItemId key = true →
    ∃ key' ∈ treeKeys listed workshop, keyItemId key' = some key

theorem Holds.read {e : Entry} {tree : Option KvValue} (h : Holds e tree) :
    (tree = none ∧ e = .absent) ∨ ∃ contents t, tree = some t ∧ e = .file contents ∧
      contents.length ≤ 8 * 1024 * 1024 ∧ (Utf8.decode contents).isSome = true ∧
        Returns contents (.ok t) := by
  match e, tree, h with
  | .absent, _, h => exact .inl ⟨h, rfl⟩
  | .file contents, some t, ⟨hutf8, hparse⟩ =>
    exact .inr ⟨contents, t, rfl, rfl, ((returns_ok_iff _ _).mp hparse).1, hutf8, hparse⟩

/-- A call of the parser, followed by `f`. -/
theorem parsed_iff {contents : List UInt8} {t : KvValue} (h : Returns contents (.ok t)) {β : Type}
    {f : Except KvError KvValue → β} {b : β} :
    (∃ fuel, (parseKeyValues fuel contents).run.map f = some b) ↔ f (.ok t) = b := by
  constructor
  · rintro ⟨fuel, hrun⟩
    obtain ⟨r, hr, hb⟩ := Option.map_eq_some_iff.mp hrun
    rwa [returns_unique ⟨fuel, hr⟩ h] at hb
  · rintro rfl
    obtain ⟨fuel, hrun⟩ := h
    exact ⟨fuel, Option.map_eq_some_iff.mpr ⟨_, hrun, rfl⟩⟩

/-- What the scanner finds. -/
theorem scanner_iff {lib : Library} {tree : Option KvValue} (h : Holds lib.plain tree)
    {items : List (Text × Option Nat)} :
    (∃ fuel, workshopSubscriptions fuel lib = some (.ok items)) ↔
      (tree.map treeSubscriptions).getD [] = items := by
  unfold workshopSubscriptions
  rcases h.read with ⟨rfl, hplain⟩ | ⟨contents, t, rfl, hplain, hlength, hutf8, hparse⟩
  · rw [hplain]
    simp [readUtf8Limited]
  · rw [hplain, readUtf8Limited, if_neg (Nat.not_lt.mpr hlength), if_pos hutf8]
    exact (parsed_iff hparse).trans (by simp)

/-- What the download command finds. -/
theorem command_iff {lib : Library} {workshop plain : Option KvValue}
    (hworkshop : Holds lib.workshop workshop) (hplain : Holds lib.plain plain)
    {ids : Option (List (Text × Unit))} :
    (∃ fuel, manifestSubscriptions fuel lib = some (.ok ids)) ↔
      match workshop.or plain with
      | none => ids = none
      | some tree => ∃ app, appWorkshop tree = some app ∧ ids = some (sectionSubscriptions app) := by
  have hread : (workshop.or plain = none ∧ lib.manifest = none) ∨ ∃ contents t,
      workshop.or plain = some t ∧ lib.manifest = some contents ∧
        contents.length ≤ 8 * 1024 * 1024 ∧ (Utf8.decode contents).isSome = true ∧
          Returns contents (.ok t) := by
    unfold Library.manifest
    rcases hworkshop.read with ⟨rfl, hw⟩ | ⟨contents, t, rfl, hw, h⟩
    · rcases hplain.read with ⟨rfl, hp⟩ | ⟨contents, t, rfl, hp, h⟩
      · exact .inl ⟨rfl, by rw [hw, hp]; rfl⟩
      · exact .inr ⟨contents, t, rfl, by rw [hw, hp]; rfl, h⟩
    · exact .inr ⟨contents, t, rfl, by rw [hw]; rfl, h⟩
  unfold manifestSubscriptions
  rcases hread with ⟨htree, hmanifest⟩ | ⟨contents, t, htree, hmanifest, hlength, hutf8, hparse⟩
  · rw [htree, hmanifest]
    simp [eq_comm]
  · have hshort : ¬ maxManifestBytes < contents.length := by
      unfold maxManifestBytes
      omega
    rw [htree, hmanifest]
    have htext : ¬ (Utf8.decode contents).isNone = true := by
      rw [← Option.not_isSome, hutf8]
      exact Bool.false_ne_true
    simp only [if_neg hshort, if_neg htext]
    refine (parsed_iff hparse).trans ?_
    dsimp only
    cases happ : appWorkshop t with
    | none => simp
    | some app => simp [eq_comm]

theorem mem_scanned (plain : Option KvValue) (id : Text) :
    id ∈ keys ((plain.map treeSubscriptions).getD []) ↔
      subscriptionKey id = true ∧ id ∈ treeKeys firstItems plain := by
  cases plain with
  | none => simp [treeKeys, keys]
  | some tree => exact mem_treeSubscriptions tree id

/-- **Both readers.**  They agree where the keys of the one name the items of
the other. -/
theorem agree_iff_keys {lib : Library} {workshop plain : Option KvValue}
    (hworkshop : Holds lib.workshop workshop) (hplain : Holds lib.plain plain) :
    Agree lib ↔ (∀ tree ∈ workshop.or plain, (appWorkshop tree).isSome = true) ∧
      ∀ id, subscriptionKey id = true ∧ id ∈ treeKeys firstItems plain ↔
        ∃ key ∈ treeKeys listed (workshop.or plain), keyItemId key = some id := by
  have hcommand := @command_iff lib workshop plain hworkshop hplain
  constructor
  · rintro ⟨fuel, fuel', items, ids, hitems, hids, hsame⟩
    obtain rfl := (scanner_iff hplain).mp ⟨fuel, hitems⟩
    have hids := hcommand.mp ⟨fuel', hids⟩
    cases htree : workshop.or plain with
    | none =>
      simp only [htree] at hids
      refine ⟨nofun, fun id => ?_⟩
      rw [← mem_scanned, hsame, hids]
      simp [treeKeys, keys]
    | some tree =>
      simp only [htree] at hids
      obtain ⟨app, happ, rfl⟩ := hids
      refine ⟨fun t ht => ?_, fun id => ?_⟩
      · obtain rfl := Option.some.inj ht
        simp [happ]
      · rw [← mem_scanned, hsame, Option.getD_some, mem_sectionSubscriptions happ]
        rfl
  · rintro ⟨hsections, hsame⟩
    obtain ⟨fuel, hitems⟩ := (scanner_iff hplain).mpr rfl
    cases htree : workshop.or plain with
    | none =>
      obtain ⟨fuel', hids⟩ := hcommand.mpr (by rw [htree])
      refine ⟨fuel, fuel', _, none, hitems, hids, fun id => ?_⟩
      rw [mem_scanned, hsame, htree]
      simp [treeKeys, keys]
    | some tree =>
      obtain ⟨app, happ⟩ := Option.isSome_iff_exists.mp (hsections tree htree)
      obtain ⟨fuel', hids⟩ := hcommand.mpr (by rw [htree]; exact ⟨app, happ, rfl⟩)
      refine ⟨fuel, fuel', _, _, hitems, hids, fun id => ?_⟩
      rw [mem_scanned, hsame, htree, Option.getD_some, mem_sectionSubscriptions happ]
      rfl

/-- **Manifests.**  Of every library whose manifests can be read, the scanner and
the download command find the same items if and only if the sections that the
one reads list what the section of the other does. -/
theorem agree_iff {lib : Library} {workshop plain : Option KvValue}
    (hworkshop : Holds lib.workshop workshop) (hplain : Holds lib.plain plain) :
    Agree lib ↔ Listed workshop plain := by
  rw [agree_iff_keys hworkshop hplain]
  constructor
  · rintro ⟨hsections, hsame⟩
    refine ⟨hsections, ?_, ?_, ?_⟩
    · intro key hkey id hid
      exact ((hsame id).mpr ⟨key, hkey, hid⟩).2
    · intro key hkey hblank
      obtain ⟨key', -, hid⟩ := (hsame key).mp ⟨subscriptionKey_iff.mpr (.inr hblank), hkey⟩
      have hvalid := keyItemId_valid hid
      rw [blank_not_valid hblank] at hvalid
      cases hvalid
    · intro hsome key hkey hvalid
      have hmanifest : workshop.or plain = workshop := by
        cases workshop with
        | none => cases hsome
        | some tree => rfl
      have hnamed := (hsame key).mp ⟨subscriptionKey_iff.mpr (.inl hvalid), hkey⟩
      rwa [hmanifest] at hnamed
  · intro h
    refine ⟨h.sections, fun id => ⟨?_, ?_⟩⟩
    · rintro ⟨hid, hkey⟩
      have hvalid := (subscriptionKey_iff.mp hid).resolve_right (h.blank id hkey)
      cases workshop with
      | some tree => exact h.complete rfl id hkey hvalid
      | none =>
        -- The one manifest is read by both.
        cases plain with
        | none => simp [treeKeys] at hkey
        | some tree => exact ⟨id, firstItems_subset tree hkey, keyItemId_self hvalid⟩
    · rintro ⟨key, hkey, hid⟩
      exact ⟨subscriptionKey_iff.mpr (.inl (keyItemId_valid hid)), h.named key hkey id hid⟩

/-- A manifest with one subscription, in a section of the given name. -/
def oneItem (name : String) : List (Text × KvValue) :=
  [(text "AppWorkshop", .object [(text name, .object [(text "123", .object [])])])]

theorem holds_absent : Holds .absent none := rfl

theorem decode_of_text {contents : List UInt8} {s : String} (h : contents = text s) :
    (Utf8.decode contents).isSome = true := by
  rw [h, text, Utf8.decode_encode]
  rfl

theorem holds_workshopItems :
    Holds (.file (print (fun _ => []) (oneItem "WorkshopItems")))
      (some (.object (oneItem "WorkshopItems"))) :=
  ⟨decode_of_text (s := "\"AppWorkshop\"\x7b\"WorkshopItems\"\x7b\"123\"\x7b\x7d\x7d\x7d") (by decide),
    parse_print (by decide) (by decide)⟩

theorem holds_workshopItemDetails :
    Holds (.file (print (fun _ => []) (oneItem "WorkshopItemDetails")))
      (some (.object (oneItem "WorkshopItemDetails"))) :=
  ⟨decode_of_text (s := "\"AppWorkshop\"\x7b\"WorkshopItemDetails\"\x7b\"123\"\x7b\x7d\x7d\x7d")
      (by decide), parse_print (by decide) (by decide)⟩

/-- A copy of a manifest, with the section that the scanner reads. -/
theorem agree_copy : Agree ⟨.absent, .file (print (fun _ => []) (oneItem "WorkshopItems"))⟩ := by
  refine (agree_iff holds_absent holds_workshopItems).mpr ⟨?_, ?_, ?_, nofun⟩
  · intro tree htree
    obtain rfl := Option.some.inj htree
    rfl
  · intro key hkey id hid
    obtain rfl : key = text "123" := List.mem_singleton.mp hkey
    have hself : keyItemId (text "123") = some (text "123") := keyItemId_self (by decide)
    obtain rfl : text "123" = id := Option.some.inj (hself.symm.trans hid)
    exact hkey
  · intro key hkey hblank
    obtain rfl : key = text "123" := List.mem_singleton.mp hkey
    exact absurd hblank.2.1 (by decide)

/-- The manifest that Steam writes is not the one that the scanner looks for,
and it would not read its section. -/
theorem scanner_misses_steam :
    ¬ Agree ⟨.file (print (fun _ => []) (oneItem "WorkshopItemDetails")), .absent⟩ ∧
      ¬ Agree ⟨.absent, .file (print (fun _ => []) (oneItem "WorkshopItemDetails"))⟩ := by
  have hlisted : ∃ key ∈ listed (.object (oneItem "WorkshopItemDetails")),
      keyItemId key = some (text "123") := ⟨text "123", by decide, keyItemId_self (by decide)⟩
  constructor
  · intro h
    obtain ⟨-, hsame⟩ := (agree_iff_keys holds_workshopItemDetails holds_absent).mp h
    exact absurd ((hsame (text "123")).mpr hlisted).2 (by decide)
  · intro h
    obtain ⟨-, hsame⟩ := (agree_iff_keys holds_absent holds_workshopItemDetails).mp h
    exact absurd ((hsame (text "123")).mpr hlisted).2 (by decide)

end Kwe.Workshop
