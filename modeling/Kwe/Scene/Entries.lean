import Kwe.Scene.Vfs

/-!
References to the entries of a package: scripts, assets, images and videos.

* `isMatch_iff`: a reference matches its own path, and the paths of which it is
  a tail;
* `resolvePkgEntry_iff`: what resolves is the only match;
* `resolvePkgEntry_added`: entries that do not match change nothing.
-/

namespace Kwe.Scene

open Foundation Foundation.Checks

/-! ## The lookups -/

def PkgLookupError.message (what reference : String) : PkgLookupError → String
  | .outside => "scene " ++ what ++ " \"" ++ reference ++ "\" must stay inside the package"
  | .notAnEntry =>
    "scene " ++ what ++ " \"" ++ reference ++ "\" is not an entry of the package"
  | .severalEntries count =>
    "scene " ++ what ++ " \"" ++ reference ++ "\" matches " ++ toString count ++
      " package entries; exactly one is required"

def resolveAs (what reference : String) (entries : List PkgEntry) : Except String Nat :=
  (resolvePkgEntry reference entries).mapError (PkgLookupError.message what reference)

def endsWith (reference : String) (ending : List Char) : Bool :=
  ending.isSuffixOf (toAsciiLowercase reference.toList)

def scriptEntry (reference : String) (entries : List PkgEntry) : Except String Nat :=
  if reference = "" then .error "scene.json \"general.script\" must not be empty"
  else if endsWith reference ".pkg".toList then
    .error "scene script must not reference \"scene.pkg\" (the archive itself)"
  else if !endsWith reference ".js".toList then
    .error ("scene script must be a .js file, got \"" ++ reference ++ "\"")
  else resolveAs "script" reference entries

/-- The lookup of what may have any extension. -/
def namedEntry (what empty reference : String) (entries : List PkgEntry) : Except String Nat :=
  if reference = "" then .error empty else resolveAs what reference entries

def assetEntry (reference : String) (entries : List PkgEntry) : Except String Nat :=
  namedEntry "asset" "scene asset reference must not be empty" reference entries

def imageEntry (reference : String) (entries : List PkgEntry) : Except String Nat :=
  namedEntry "image" "scene layer image reference must not be empty" reference entries

def videoEntry (reference : String) (entries : List PkgEntry) : Except String Nat :=
  namedEntry "video" "scene layer video reference must not be empty" reference entries

/-! ## What a reference names -/

/-- The parts of a path between its slashes, ignoring ASCII case. -/
def pathComponents (path : String) : List (List Char) :=
  (toAsciiLowercase path.toList).splitOn '/'

/-- A reference is relative, and has no `..`, backslash or NUL. -/
structure Legal (reference : String) : Prop where
  relative : reference.toList.head? ≠ some '/'
  backslash : '\\' ∉ reference.toList
  nul : '\x00' ∉ reference.toList
  inside : ['.', '.'] ∉ reference.toList.splitOn '/'

def SamePath (reference : String) (e : PkgEntry) : Prop :=
  pathComponents e.path = pathComponents reference

/-- The reference is what the path ends with after some directory. -/
def HasTail (reference : String) (e : PkgEntry) : Prop :=
  ∃ dir ≠ [], pathComponents e.path = dir ++ pathComponents reference

instance (reference : String) (e : PkgEntry) : Decidable (SamePath reference e) :=
  inferInstanceAs (Decidable (_ = _))

/-- The entry at `i` meets `P`, and no other does. -/
def Only (P : PkgEntry → Prop) (entries : List PkgEntry) (i : Nat) : Prop :=
  (∃ e, entries[i]? = some e ∧ P e) ∧ ∀ j e, entries[j]? = some e → P e → j = i

theorem intercalate_append {sep : Char} {dir rest : List (List Char)} (hdir : dir ≠ [])
    (hrest : rest ≠ []) :
    [sep].intercalate (dir ++ rest) = [sep].intercalate dir ++ sep :: [sep].intercalate rest := by
  induction dir with
  | nil => exact absurd rfl hdir
  | cons part dir ih =>
    cases dir with
    | nil => simp [List.intercalate_cons_of_ne_nil hrest]
    | cons next dir =>
      have hnext := ih (List.cons_ne_nil _ _)
      rw [List.cons_append, List.cons_append, List.intercalate_cons_cons, ← List.cons_append, hnext,
        List.intercalate_cons_cons, List.append_assoc, List.append_assoc, List.append_assoc]

theorem splitOn_slash_injective {a b : List Char} (h : a.splitOn '/' = b.splitOn '/') : a = b := by
  have hjoin := congrArg ['/'].intercalate h
  rwa [List.intercalate_splitOn, List.intercalate_splitOn] at hjoin

theorem samePath_iff (reference : String) (e : PkgEntry) :
    SamePath reference e ↔
      toAsciiLowercase e.path.toList = toAsciiLowercase reference.toList :=
  ⟨splitOn_slash_injective, fun h => congrArg (List.splitOn '/') h⟩

theorem hasTail_iff (reference : String) (e : PkgEntry) :
    HasTail reference e ↔
      ('/' :: toAsciiLowercase reference.toList) <:+ toAsciiLowercase e.path.toList := by
  constructor
  · rintro ⟨dir, hdir, h⟩
    refine ⟨['/'].intercalate dir, ?_⟩
    have hpath : ['/'].intercalate ((toAsciiLowercase e.path.toList).splitOn '/') =
        toAsciiLowercase e.path.toList := List.intercalate_splitOn '/'
    rw [← pathComponents, h, pathComponents, intercalate_append hdir (List.splitOn_ne_nil _ _),
      List.intercalate_splitOn] at hpath
    exact hpath
  · rintro ⟨dir, h⟩
    refine ⟨dir.splitOn '/', List.splitOn_ne_nil _ _, ?_⟩
    rw [pathComponents, ← h, List.splitOn_append_cons_self]
    rfl

instance (reference : String) (e : PkgEntry) : Decidable (HasTail reference e) :=
  decidable_of_iff _ (hasTail_iff reference e).symm

theorem isMatch_iff (reference : String) (e : PkgEntry) :
    isMatch reference e = true ↔ SamePath reference e ∨ HasTail reference e := by
  simp [isMatch, samePath_iff, hasTail_iff]

/-- No path is at once the reference and one that ends with it. -/
theorem SamePath.not_hasTail {reference : String} {e : PkgEntry} (h : SamePath reference e) :
    ¬ HasTail reference e := by
  rintro ⟨dir, hdir, htail⟩
  rw [SamePath, htail] at h
  exact hdir (List.append_left_eq_self.mp h)

/-! ## Matches -/

theorem mem_pkgMatches {reference : String} {entries : List PkgEntry} {i : Nat} :
    i ∈ pkgMatches reference entries ↔ ∃ e, entries[i]? = some e ∧ isMatch reference e = true := by
  rw [pkgMatches, List.mem_filter, List.mem_range, Option.any_eq_true]
  refine and_iff_right_of_imp ?_
  rintro ⟨e, he, -⟩
  exact (List.getElem?_eq_some_iff.mp he).1

theorem pkgMatches_eq_singleton_iff {reference : String} {entries : List PkgEntry} {i : Nat} :
    pkgMatches reference entries = [i] ↔ Only (isMatch reference · = true) entries i := by
  have hnodup : (pkgMatches reference entries).Nodup := List.nodup_range.filter _
  constructor
  · intro h
    refine ⟨mem_pkgMatches.mp (h ▸ List.mem_singleton_self i), fun j e he hmatch => ?_⟩
    have hj : j ∈ pkgMatches reference entries := mem_pkgMatches.mpr ⟨e, he, hmatch⟩
    rwa [h, List.mem_singleton] at hj
  · rintro ⟨hi, honly⟩
    have hsingle : [i].Nodup := List.nodup_cons.mpr ⟨List.not_mem_nil, .nil⟩
    refine List.perm_singleton.mp ((List.perm_ext_iff_of_nodup hnodup hsingle).mpr fun j => ?_)
    rw [List.mem_singleton]
    constructor
    · intro hj
      obtain ⟨e, he, hmatch⟩ := mem_pkgMatches.mp hj
      exact honly j e he hmatch
    · rintro rfl
      exact mem_pkgMatches.mpr hi

theorem resolvePkgEntry_legal {reference : String} (h : Legal reference) (entries : List PkgEntry) :
    resolvePkgEntry reference entries =
      match pkgMatches reference entries with
      | [] => .error .notAnEntry
      | [idx] => .ok idx
      | several => .error (.severalEntries several.length) := by
  have hinside : ¬ (reference.toList.head? = some '/' ∨ '\\' ∈ reference.toList ∨
      '\x00' ∈ reference.toList ∨ ['.', '.'] ∈ reference.toList.splitOn '/') := by
    rintro (hbad | hbad | hbad | hbad)
    · exact h.relative hbad
    · exact h.backslash hbad
    · exact h.nul hbad
    · exact h.inside hbad
  rcases hm : pkgMatches reference entries with _ | ⟨idx, _ | ⟨other, rest⟩⟩
  · simp only [resolvePkgEntry, if_neg hinside, hm]
  · simp only [resolvePkgEntry, if_neg hinside, hm]
  · simp only [resolvePkgEntry, if_neg hinside, hm]

/-- **Resolution.**  A legal reference resolves to its only match. -/
theorem resolvePkgEntry_iff {reference : String} (h : Legal reference) (entries : List PkgEntry)
    (i : Nat) : resolvePkgEntry reference entries = .ok i ↔
      Only (fun e => SamePath reference e ∨ HasTail reference e) entries i := by
  have honly : Only (isMatch reference · = true) entries i ↔
      Only (fun e => SamePath reference e ∨ HasTail reference e) entries i := by
    simp only [Only, isMatch_iff]
  rw [← honly, ← pkgMatches_eq_singleton_iff, resolvePkgEntry_legal h]
  rcases pkgMatches reference entries with _ | ⟨idx, _ | ⟨other, rest⟩⟩
  · simp
  · simp
  · simp

theorem pkgMatches_append (reference : String) (entries more : List PkgEntry) :
    pkgMatches reference (entries ++ more) =
      pkgMatches reference entries ++ (pkgMatches reference more).map (entries.length + ·) := by
  rw [pkgMatches, List.length_append, List.range_add, List.filter_append, List.filter_map]
  congr 1
  · refine List.filter_congr fun i hi => ?_
    rw [List.getElem?_append_left (List.mem_range.mp hi)]
  · refine congrArg _ (List.filter_congr fun i _ => ?_)
    simp [List.getElem?_append_right]

theorem pkgMatches_eq_nil {reference : String} {entries : List PkgEntry}
    (h : ∀ e ∈ entries, isMatch reference e = false) : pkgMatches reference entries = [] := by
  rw [List.eq_nil_iff_forall_not_mem]
  intro i hi
  obtain ⟨e, he, hmatch⟩ := mem_pkgMatches.mp hi
  rw [h e (List.mem_of_getElem? he)] at hmatch
  cases hmatch

/-- The index of an entry once `count` entries are put in at `start`. -/
def shifted (start count i : Nat) : Nat := if i < start then i else i + count

theorem pkgMatches_added {reference : String} {added : List PkgEntry}
    (h : ∀ e ∈ added, isMatch reference e = false) (before after : List PkgEntry) :
    pkgMatches reference (before ++ added ++ after) =
      (pkgMatches reference (before ++ after)).map (shifted before.length added.length) := by
  rw [pkgMatches_append, pkgMatches_append, pkgMatches_append, pkgMatches_eq_nil h,
    List.map_nil, List.append_nil, List.map_append, List.map_map]
  congr 1
  · have hbefore : ∀ i ∈ pkgMatches reference before, i = shifted before.length added.length i := by
      intro i hi
      obtain ⟨e, he, -⟩ := mem_pkgMatches.mp hi
      exact (if_pos (List.getElem?_eq_some_iff.mp he).1).symm
    rw [← List.map_congr_left hbefore, List.map_id']
  · refine List.map_congr_left fun i _ => ?_
    simp [shifted, Nat.add_right_comm]

/-- **Unrelated entries.**  Entries that the reference does not match, wherever
they are put in, change nothing but the index. -/
theorem resolvePkgEntry_added {reference : String} (h : Legal reference) {added : List PkgEntry}
    (hadded : ∀ e ∈ added, ¬ SamePath reference e ∧ ¬ HasTail reference e)
    (before after : List PkgEntry) :
    resolvePkgEntry reference (before ++ added ++ after) =
      (resolvePkgEntry reference (before ++ after)).map (shifted before.length added.length) := by
  have hnone : ∀ e ∈ added, isMatch reference e = false := by
    intro e he
    rw [← Bool.not_eq_true, isMatch_iff, not_or]
    exact hadded e he
  rw [resolvePkgEntry_legal h, resolvePkgEntry_legal h, pkgMatches_added hnone]
  rcases pkgMatches reference (before ++ after) with _ | ⟨idx, _ | ⟨other, rest⟩⟩
  · rfl
  · rfl
  · simp [Except.map]

/-! ## The lookups resolve -/

theorem resolveAs_iff (what reference : String) (entries : List PkgEntry) (i : Nat) :
    resolveAs what reference entries = .ok i ↔ resolvePkgEntry reference entries = .ok i := by
  unfold resolveAs
  cases resolvePkgEntry reference entries <;> simp [Except.mapError]

theorem namedEntry_iff (what empty reference : String) (entries : List PkgEntry) (i : Nat) :
    namedEntry what empty reference entries = .ok i ↔
      reference ≠ "" ∧ resolvePkgEntry reference entries = .ok i := by
  unfold namedEntry
  by_cases hempty : reference = ""
  · simp [hempty]
  · simp [hempty, resolveAs_iff]

theorem scriptEntry_iff (reference : String) (entries : List PkgEntry) (i : Nat) :
    scriptEntry reference entries = .ok i ↔
      endsWith reference ".js".toList = true ∧ resolvePkgEntry reference entries = .ok i := by
  unfold scriptEntry
  by_cases hempty : reference = ""
  · subst hempty
    simp [endsWith, toAsciiLowercase]
  rw [if_neg hempty]
  by_cases hpkg : endsWith reference ".pkg".toList = true
  · have hjs : endsWith reference ".js".toList = false := by
      rw [← Bool.not_eq_true]
      intro hjs
      have hpkg := List.isSuffixOf_iff_suffix.mp hpkg
      have hjs := List.isSuffixOf_iff_suffix.mp hjs
      have hboth := List.suffix_of_suffix_length_le hjs hpkg (by decide)
      exact absurd hboth (by decide)
    rw [if_pos hpkg, hjs]
    simp
  · rw [if_neg hpkg]
    by_cases hjs : endsWith reference ".js".toList = true
    · rw [hjs, if_neg (by decide), resolveAs_iff]
      simp
    · rw [Bool.not_eq_true] at hjs
      rw [hjs, if_pos (by decide)]
      simp

/-- **References.**  A legal reference that is the path of one entry resolves to
it just if no path ends with it, a reference that is no path resolves to the only
path that ends with it, and one that is the path of several does not resolve.
Entries that the reference does not match change nothing but the index. -/
theorem resolvePkgEntry_paths (reference : String) (h : Legal reference) :
    (∀ entries i, Only (SamePath reference) entries i →
      (resolvePkgEntry reference entries = .ok i ↔ ∀ e ∈ entries, ¬ HasTail reference e)) ∧
    (∀ entries, (∀ e ∈ entries, ¬ SamePath reference e) → ∀ i,
      (resolvePkgEntry reference entries = .ok i ↔ Only (HasTail reference) entries i)) ∧
    (∀ (entries : List PkgEntry) (i j : Nat) (e f : PkgEntry), entries[i]? = some e →
      entries[j]? = some f → i ≠ j → SamePath reference e → SamePath reference f →
        ∀ k, resolvePkgEntry reference entries ≠ .ok k) ∧
    (∀ before added after, (∀ e ∈ added, ¬ SamePath reference e ∧ ¬ HasTail reference e) →
      resolvePkgEntry reference (before ++ added ++ after) =
        (resolvePkgEntry reference (before ++ after)).map
          (shifted before.length added.length)) ∧
    ∀ entries i,
      (assetEntry reference entries = .ok i ↔
        reference ≠ "" ∧ resolvePkgEntry reference entries = .ok i) ∧
      (imageEntry reference entries = .ok i ↔
        reference ≠ "" ∧ resolvePkgEntry reference entries = .ok i) ∧
      (videoEntry reference entries = .ok i ↔
        reference ≠ "" ∧ resolvePkgEntry reference entries = .ok i) ∧
      (scriptEntry reference entries = .ok i ↔
        endsWith reference ".js".toList = true ∧ resolvePkgEntry reference entries = .ok i) := by
  refine ⟨?_, ?_, ?_, fun before added after hadded => resolvePkgEntry_added h hadded before after,
    fun entries i => ⟨namedEntry_iff _ _ _ _ _, namedEntry_iff _ _ _ _ _, namedEntry_iff _ _ _ _ _,
      scriptEntry_iff _ _ _⟩⟩
  · rintro entries i ⟨⟨e, he, hsame⟩, hone⟩
    rw [resolvePkgEntry_iff h]
    constructor
    · rintro ⟨-, honly⟩ f hf htail
      obtain ⟨j, hj⟩ := List.getElem?_of_mem hf
      obtain rfl := honly j f hj (.inr htail)
      obtain rfl := Option.some.inj (he.symm.trans hj)
      exact hsame.not_hasTail htail
    · intro hnone
      refine ⟨⟨e, he, .inl hsame⟩, fun j f hj hmatch => ?_⟩
      rcases hmatch with hf | htail
      · exact hone j f hj hf
      · exact absurd htail (hnone f (List.mem_of_getElem? hj))
  · intro entries hnone i
    rw [resolvePkgEntry_iff h]
    have hmatch : ∀ j e, entries[j]? = some e →
        ((SamePath reference e ∨ HasTail reference e) ↔ HasTail reference e) := fun j e he =>
      or_iff_right (hnone e (List.mem_of_getElem? he))
    constructor
    · rintro ⟨⟨e, he, hi⟩, honly⟩
      exact ⟨⟨e, he, (hmatch i e he).mp hi⟩, fun j f hj hf => honly j f hj (.inr hf)⟩
    · rintro ⟨⟨e, he, hi⟩, honly⟩
      exact ⟨⟨e, he, .inr hi⟩, fun j f hj hf => honly j f hj ((hmatch j f hj).mp hf)⟩
  · intro entries i j e f he hf hne hsame hsame' k hk
    obtain ⟨-, honly⟩ := (resolvePkgEntry_iff h entries k).mp hk
    exact hne ((honly i e he (.inl hsame)).trans (honly j f hf (.inl hsame')).symm)

/-! ## Two folders with a file of one name -/

def entryAt (path : String) : PkgEntry := ⟨path, 0, 0, false⟩

theorem legal_png : Legal "a.png" := ⟨by decide, by decide, by decide, by decide⟩

theorem resolvePkgEntry_paths_png :
    resolvePkgEntry "a.png" [entryAt "b/c.png", entryAt "A.png"] = .ok 1 := by
  refine ((resolvePkgEntry_paths "a.png" legal_png).1 _ 1 ⟨⟨_, rfl, by decide⟩, ?_⟩).mpr ?_
  · rintro (_ | _ | j) e he hsame
    · obtain rfl := Option.some.inj he
      exact absurd hsame (by decide)
    · rfl
    · cases he
  · decide

/-- An entry in another folder makes the full path of the first ambiguous. -/
theorem full_path_ambiguous :
    Legal "a.png" ∧ Only (SamePath "a.png") [entryAt "a.png", entryAt "b/a.png"] 0 ∧
      resolvePkgEntry "a.png" [entryAt "a.png"] = .ok 0 ∧
      resolvePkgEntry "a.png" [entryAt "a.png", entryAt "b/a.png"] =
        .error (.severalEntries 2) := by
  refine ⟨legal_png, ⟨⟨_, rfl, rfl⟩, ?_⟩, by decide, by decide⟩
  rintro (_ | _ | j) e he hsame
  · rfl
  · obtain rfl := Option.some.inj he
    exact absurd hsame (by decide)
  · cases he

end Kwe.Scene
