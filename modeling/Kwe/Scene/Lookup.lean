import Kwe.Scene.Layout
import Kwe.Scene.Entries

/-!
Which source answers for a reference.

* `resolve_first_source`: the first source that contains the reference decides
  both operations, but where it is several entries of the package and a
  directory has it too; the two operations agree on the directories; and a
  path that is returned is a file that no link leads to.
-/

namespace Kwe.Scene

open Foundation Foundation.Checks

/-! ## What a directory contains -/

/-- What stands at the end of a path of real directories. -/
inductive At : List (String × Node) → List String → Node → Prop
  | leaf {children : List (String × Node)} {name : String} {node : Node} :
      children.lookup name = some node → At children [name] node
  | inside {children sub : List (String × Node)} {name next : String} {rest : List String}
      {node : Node} : children.lookup name = some (.dir sub) → At sub (next :: rest) node →
      At children (name :: next :: rest) node

/-- A link stands on the way, or at its end. -/
def HasLink (children : List (String × Node)) (path : List String) : Prop :=
  ∃ front, front <+: path ∧ At children front .symlink

def Contains (root : Root) (components : List String) : Prop :=
  (∃ content, At root.children components (.file content)) ∨ HasLink root.children components

theorem at_leaf_iff {children : List (String × Node)} {name : String} {node : Node} :
    At children [name] node ↔ children.lookup name = some node :=
  ⟨fun h => by cases h; assumption, .leaf⟩

theorem at_inside_iff {children : List (String × Node)} {name next : String} {rest : List String}
    {node : Node} : At children (name :: next :: rest) node ↔
      ∃ sub, children.lookup name = some (.dir sub) ∧ At sub (next :: rest) node :=
  ⟨fun h => by cases h; exact ⟨_, by assumption, by assumption⟩, fun ⟨_, hsub, h⟩ => .inside hsub h⟩

theorem hasLink_leaf_iff {children : List (String × Node)} {name : String} :
    HasLink children [name] ↔ children.lookup name = some .symlink := by
  constructor
  · rintro ⟨front, hfront, h⟩
    rcases List.prefix_cons_iff.mp hfront with rfl | ⟨rest, rfl, hrest⟩
    · cases h
    · obtain rfl := List.prefix_nil.mp hrest
      exact at_leaf_iff.mp h
  · exact fun h => ⟨[name], List.prefix_rfl, .leaf h⟩

theorem hasLink_inside_iff {children : List (String × Node)} {name next : String}
    {rest : List String} : HasLink children (name :: next :: rest) ↔
      children.lookup name = some .symlink ∨
        ∃ sub, children.lookup name = some (.dir sub) ∧ HasLink sub (next :: rest) := by
  constructor
  · rintro ⟨front, hfront, h⟩
    rcases List.prefix_cons_iff.mp hfront with rfl | ⟨tail, rfl, htail⟩
    · cases h
    · cases tail with
      | nil => exact .inl (at_leaf_iff.mp h)
      | cons c tail =>
        obtain ⟨sub, hsub, h⟩ := at_inside_iff.mp h
        exact .inr ⟨sub, hsub, _, htail, h⟩
  · rintro (h | ⟨sub, hsub, front, hfront, h⟩)
    · exact ⟨[name], List.prefix_append [name] _, .leaf h⟩
    · cases front with
      | nil => cases h
      | cons c front =>
        refine ⟨name :: c :: front, List.cons_prefix_cons.mpr ⟨rfl, hfront⟩, ?_⟩
        exact at_inside_iff.mpr ⟨sub, hsub, h⟩

/-- What the walk of a path comes to. -/
theorem walk_spec (children : List (String × Node)) (path : List String) :
    (∀ content, walk children path = .ok content ↔ At children path (.file content)) ∧
      (walk children path = .error .symlinkRejected ↔ HasLink children path) ∧
      ∀ e, walk children path = .error e → e = .notFound ∨ e = .symlinkRejected := by
  induction path generalizing children with
  | nil =>
    refine ⟨fun content => ?_, ?_, fun e h => ?_⟩
    · exact ⟨fun h => by simp [walk] at h, fun h => by cases h⟩
    · refine ⟨fun h => by simp [walk] at h, ?_⟩
      rintro ⟨front, hfront, h⟩
      obtain rfl := List.prefix_nil.mp hfront
      cases h
    · exact .inl (by simpa [walk] using h.symm)
  | cons name rest ih =>
    cases rest with
    | nil =>
      simp only [at_leaf_iff, hasLink_leaf_iff]
      rw [walk]
      cases children.lookup name with
      | none => simp
      | some node => cases node <;> simp
    | cons next rest =>
      simp only [at_inside_iff, hasLink_inside_iff]
      rw [walk]
      cases children.lookup name with
      | none => simp
      | some node =>
        cases node with
        | dir sub => simpa using ih sub
        | file content => simp
        | symlink => simp
        | other => simp

theorem At.not_hasLink {children : List (String × Node)} {path : List String}
    {content : FileBytes} (h : At children path (.file content)) : ¬ HasLink children path := by
  intro hlink
  have hok := ((walk_spec children path).1 content).mpr h
  rw [(walk_spec children path).2.1.mpr hlink] at hok
  simp at hok

theorem At.file_unique {children : List (String × Node)} {path : List String}
    {content content' : FileBytes} (h : At children path (.file content))
    (h' : At children path (.file content')) : content = content' :=
  Except.ok.inj ((((walk_spec children path).1 content).mpr h).symm.trans
    (((walk_spec children path).1 content').mpr h'))

theorem walk_notFound {root : Root} {components : List String} (h : ¬ Contains root components) :
    walk root.children components = .error .notFound := by
  obtain ⟨hok, hlink, hother⟩ := walk_spec root.children components
  cases hwalk : walk root.children components with
  | ok content => exact absurd (.inl ⟨content, (hok content).mp hwalk⟩) h
  | error e =>
    rcases hother e hwalk with rfl | rfl
    · rfl
    · exact absurd (.inr (hlink.mp hwalk)) h

/-! ## Both directories -/

/-- The first of the two directories that contains a reference, and its file. -/
def Vfs.search (vfs : Vfs) (components : List String) :
    Except VfsError (Root × VfsSource × FileBytes) :=
  vfs.tryDirs fun root source =>
    resolveInDir root components fun _ content => .ok (root, source, content)

theorem tryDirs_bind {α β : Type} (vfs : Vfs)
    (attempt : Root → VfsSource → Option (Except VfsError α)) (g : α → Except VfsError β) :
    (vfs.tryDirs fun root source => (attempt root source).map (· >>= g)) =
      vfs.tryDirs attempt >>= g := by
  rw [Vfs.tryDirs, Vfs.tryDirs]
  cases attempt vfs.sceneRoot .sceneDir with
  | some outcome => rfl
  | none =>
    cases vfs.assetsRoot with
    | none => rfl
    | some root =>
      simp only [Option.map_none, Option.bind_some]
      cases attempt root .assetsRoot <;> rfl

theorem resolveInDir_eq {α : Type} (root : Root) (components : List String)
    (answer : List String → FileBytes → Except VfsError α) :
    resolveInDir root components answer =
      match walk root.children components with
      | .ok content => some (answer (root.path ++ components) content)
      | .error .notFound => none
      | .error other => some (.error other) := by
  rw [resolveInDir, confinedLeaf]
  cases walk root.children components with
  | ok content => rfl
  | error e => cases e <;> rfl

/-- An attempt of any kind is the search, and then its answer. -/
theorem tryDirs_eq {α : Type} (vfs : Vfs) (components : List String)
    (answer : Root → VfsSource → List String → FileBytes → Except VfsError α) :
    (vfs.tryDirs fun root source => resolveInDir root components (answer root source)) =
      vfs.search components >>= fun (root, source, content) =>
        answer root source (root.path ++ components) content := by
  rw [Vfs.search, ← tryDirs_bind]
  congr 1
  funext root source
  rw [resolveInDir_eq, resolveInDir_eq]
  cases walk root.children components with
  | ok content => rfl
  | error e => cases e <;> rfl

/-- The search finds the file of the first directory that contains the
reference, or its link. -/
theorem search_spec (vfs : Vfs) (components : List String) :
    (∀ content, At vfs.sceneRoot.children components (.file content) →
      vfs.search components = .ok (vfs.sceneRoot, .sceneDir, content)) ∧
    (HasLink vfs.sceneRoot.children components →
      vfs.search components = .error .symlinkRejected) ∧
    (¬ Contains vfs.sceneRoot components →
      (∀ root, vfs.assetsRoot = some root →
        (∀ content, At root.children components (.file content) →
          vfs.search components = .ok (root, .assetsRoot, content)) ∧
        (HasLink root.children components →
          vfs.search components = .error .symlinkRejected)) ∧
      ((∀ root, vfs.assetsRoot = some root → ¬ Contains root components) →
        vfs.search components = .error .notFound)) := by
  obtain ⟨hok, hlink, -⟩ := walk_spec vfs.sceneRoot.children components
  refine ⟨fun content h => ?_, fun h => ?_, fun h => ⟨fun root hroot => ⟨fun content hat => ?_,
    fun hassets => ?_⟩, fun hassets => ?_⟩⟩
  · rw [Vfs.search, Vfs.tryDirs, resolveInDir_eq, (hok content).mpr h]
  · rw [Vfs.search, Vfs.tryDirs, resolveInDir_eq, hlink.mpr h]
  · rw [Vfs.search, Vfs.tryDirs, resolveInDir_eq, walk_notFound h, hroot]
    simp only [Option.bind_some, resolveInDir_eq, ((walk_spec root.children _).1 content).mpr hat]
  · rw [Vfs.search, Vfs.tryDirs, resolveInDir_eq, walk_notFound h, hroot]
    simp only [Option.bind_some, resolveInDir_eq, (walk_spec root.children _).2.1.mpr hassets]
  · rw [Vfs.search, Vfs.tryDirs, resolveInDir_eq, walk_notFound h]
    cases hroot : vfs.assetsRoot with
    | none => rfl
    | some root =>
      simp only [Option.bind_some, resolveInDir_eq, walk_notFound (hassets root hroot)]

/-- What was found is a file, in the directory it names. -/
theorem search_ok {vfs : Vfs} {components : List String} {root : Root} {source : VfsSource}
    {content : FileBytes} (h : vfs.search components = .ok (root, source, content)) :
    (source = .sceneDir ∧ root = vfs.sceneRoot ∨
      source = .assetsRoot ∧ vfs.assetsRoot = some root ∧ ¬ Contains vfs.sceneRoot components) ∧
    At root.children components (.file content) := by
  obtain ⟨hfile, hlink, hrest⟩ := search_spec vfs components
  by_cases hscene : Contains vfs.sceneRoot components
  · rcases hscene with ⟨found, hat⟩ | hlinked
    · obtain ⟨rfl, rfl, rfl⟩ : vfs.sceneRoot = root ∧ VfsSource.sceneDir = source ∧
          found = content := by simpa using (hfile found hat).symm.trans h
      exact ⟨.inl ⟨rfl, rfl⟩, hat⟩
    · exact absurd ((hlink hlinked).symm.trans h) (by simp)
  · obtain ⟨hassets, hnowhere⟩ := hrest hscene
    by_cases hin : ∃ assets, vfs.assetsRoot = some assets ∧ Contains assets components
    · obtain ⟨assets, hroot, ⟨found, hat⟩ | hlinked⟩ := hin
      · obtain ⟨rfl, rfl, rfl⟩ : assets = root ∧ VfsSource.assetsRoot = source ∧
            found = content := by simpa using ((hassets assets hroot).1 found hat).symm.trans h
        exact ⟨.inr ⟨rfl, hroot, hscene⟩, hat⟩
      · exact absurd (((hassets assets hroot).2 hlinked).symm.trans h) (by simp)
    · push Not at hin
      exact absurd ((hnowhere hin).symm.trans h) (by simp)

/-- A file that was found, within the cap. -/
def withinCap {α : Type} (cap : Nat) (category : AssetCategory)
    (onFile : Root → VfsSource → FileBytes → α) :
    Root × VfsSource × FileBytes → Except VfsError α :=
  fun (root, source, content) =>
    if cap < content.bytes.length then .error (.oversize category cap)
    else .ok (onFile root source content)

theorem capFor_lt (vfs : Vfs) (category : AssetCategory) : vfs.capFor category < 2 ^ 64 := by
  cases category <;> exact UInt64.toNat_lt _

theorem readLeafBytes_eq (content : FileBytes) {cap : Nat} (hcap : cap < 2 ^ 64)
    (category : AssetCategory) :
    readLeafBytes content cap category =
      if cap < content.bytes.length then .error (.oversize category cap)
      else .ok content.bytes := by
  have hlength := content.length_lt
  rw [readLeafBytes]
  by_cases hlong : cap < content.bytes.length
  · rw [if_pos hlong, if_pos (by rw [List.length_take]; omega)]
  · rw [if_neg hlong, List.take_of_length_le (by omega), if_neg hlong]

section Operations

variable {decode : List UInt8 → Decoded} {vfs : Vfs} {reference : String}
  {components : List String} {category : AssetCategory}

theorem resolve_dirs (hvideo : category ≠ .video)
    (hnormal : normalizeReference reference = .ok components)
    (hpkg : vfs.pkgEntry reference = none) :
    vfs.resolve decode reference category =
      vfs.search components >>= withinCap (vfs.capFor category) category
        fun _ source content => ⟨reference, source, content.bytes⟩ := by
  rw [Vfs.resolve, if_neg hvideo, hnormal, ok_bind]
  simp only [hpkg, resolveBytesInDir]
  refine (tryDirs_eq vfs components _).trans ?_
  congr 1
  funext ⟨root, source, content⟩
  dsimp only [withinCap]
  rw [readLeafBytes_eq content (capFor_lt vfs category)]
  split
  next => rfl
  next => rfl

theorem resolvePath_dirs (hnormal : normalizeReference reference = .ok components)
    (hpkg : vfs.pkgEntry reference = none) :
    vfs.resolvePath reference category =
      vfs.search components >>= withinCap (vfs.capFor category) category
        fun root source _ => ⟨reference, source, root.path ++ components⟩ := by
  rw [Vfs.resolvePath, hnormal, ok_bind]
  simp only [hpkg, resolvePathInDir]
  exact tryDirs_eq vfs components _

/-! ## The first source decides -/

/-- Some entry of the package matches the reference. -/
def Vfs.PackageContains (vfs : Vfs) (reference : String) : Prop :=
  ∃ reader, vfs.pkg = some reader ∧ pkgMatches reference reader.entries ≠ []

/-- More than one does. -/
def Vfs.Ambiguous (vfs : Vfs) (reference : String) : Prop :=
  ∃ reader, vfs.pkg = some reader ∧ 2 ≤ (pkgMatches reference reader.entries).length

/-- The first directory that contains the reference has a file there, within
the cap. -/
def Vfs.DirectoryAnswers (vfs : Vfs) (components : List String) (cap : Nat) : Prop :=
  (∃ content, At vfs.sceneRoot.children components (.file content) ∧
    content.bytes.length ≤ cap) ∨
  ¬ Contains vfs.sceneRoot components ∧ ∃ root, vfs.assetsRoot = some root ∧
    ∃ content, At root.children components (.file content) ∧ content.bytes.length ≤ cap

/-- What a directory that contains the reference says. -/
structure DirDecides {α : Type} (root : Root) (components : List String) (cap : Nat)
    (category : AssetCategory) (onFile : FileBytes → α) (result : Except VfsError α) : Prop where
  file : ∀ content, At root.children components (.file content) → result =
    if cap < content.bytes.length then .error (.oversize category cap) else .ok (onFile content)
  link : HasLink root.children components → result = .error .symlinkRejected

/-- The result is what the first source that contains the reference says:
what `onEntry` makes of an entry of the package and `onFile` of a file. -/
structure FirstDecides {α : Type} (vfs : Vfs) (reference : String) (components : List String)
    (category : AssetCategory) (onEntry : PkgReader → Nat → Except VfsError α)
    (onFile : Root → VfsSource → FileBytes → α) (result : Except VfsError α) : Prop where
  entry : ∀ reader idx, vfs.pkg = some reader → pkgMatches reference reader.entries = [idx] →
    result = onEntry reader idx
  ambiguous : vfs.Ambiguous reference → ∃ e, result = .error e
  scene : ¬ vfs.PackageContains reference → Contains vfs.sceneRoot components →
    DirDecides vfs.sceneRoot components (vfs.capFor category) category
      (onFile vfs.sceneRoot .sceneDir) result
  assets : ¬ vfs.PackageContains reference → ¬ Contains vfs.sceneRoot components →
    ∀ root, vfs.assetsRoot = some root → Contains root components →
      DirDecides root components (vfs.capFor category) category (onFile root .assetsRoot) result
  nowhere : ¬ vfs.PackageContains reference → ¬ Contains vfs.sceneRoot components →
    (∀ root, vfs.assetsRoot = some root → ¬ Contains root components) → result = .error .notFound

theorem checkParts_ok {parts : List (List Char)} {components : List String}
    (h : checkParts parts = .ok components) :
    components = parts.map String.ofList ∧
      ∀ part ∈ parts, part ≠ [] ∧ part ≠ ['.'] ∧ part ≠ ['.', '.'] := by
  induction parts generalizing components with
  | nil => exact ⟨(Except.ok.inj h).symm, by simp⟩
  | cons part parts ih =>
    rw [checkParts] at h
    obtain ⟨hempty, h⟩ := check_ok h
    obtain ⟨hdots, h⟩ := check_ok h
    obtain ⟨rest, hrest, h⟩ := bind_ok h
    obtain rfl := Except.ok.inj h
    obtain ⟨rfl, hparts⟩ := ih hrest
    push Not at hdots
    exact ⟨rfl, List.forall_mem_cons.mpr ⟨⟨hempty, hdots⟩, hparts⟩⟩

/-- What a reference is that reaches a source. -/
theorem normalizeReference_ok (h : normalizeReference reference = .ok components) :
    '\x00' ∉ reference.toList ∧ '\\' ∉ reference.toList ∧ reference.toList.head? ≠ some '/' ∧
      components = (reference.toList.splitOn '/').map String.ofList ∧
      ∀ part ∈ reference.toList.splitOn '/', part ≠ [] ∧ part ≠ ['.'] ∧ part ≠ ['.', '.'] := by
  obtain ⟨-, h⟩ := check_ok h
  obtain ⟨-, h⟩ := check_ok h
  obtain ⟨hnul, h⟩ := check_ok h
  obtain ⟨hbackslash, h⟩ := check_ok h
  obtain ⟨habsolute, h⟩ := check_ok h
  exact ⟨hnul, hbackslash, habsolute, checkParts_ok h⟩

theorem resolvePkgEntry_normal (hnormal : normalizeReference reference = .ok components)
    (entries : List PkgEntry) :
    resolvePkgEntry reference entries =
      match pkgMatches reference entries with
      | [] => .error .notAnEntry
      | [idx] => .ok idx
      | several => .error (.severalEntries several.length) := by
  obtain ⟨hnul, hbackslash, habsolute, -, hparts⟩ := normalizeReference_ok hnormal
  exact resolvePkgEntry_legal ⟨habsolute, hbackslash, hnul, fun h => (hparts _ h).2.2 rfl⟩ entries

theorem pkgEntry_some (hnormal : normalizeReference reference = .ok components)
    {reader : PkgReader} (hreader : vfs.pkg = some reader) {idx : Nat}
    (hone : pkgMatches reference reader.entries = [idx]) :
    vfs.pkgEntry reference = some (reader, idx) := by
  rw [Vfs.pkgEntry, hreader, Option.bind_some, resolvePkgEntry_normal hnormal, hone]

theorem pkgEntry_none (hnormal : normalizeReference reference = .ok components)
    (h : ∀ reader idx, vfs.pkg = some reader → pkgMatches reference reader.entries ≠ [idx]) :
    vfs.pkgEntry reference = none := by
  cases hreader : vfs.pkg with
  | none => rw [Vfs.pkgEntry, hreader, Option.bind_none]
  | some reader =>
    rw [Vfs.pkgEntry, hreader, Option.bind_some, resolvePkgEntry_normal hnormal]
    have hnot := fun idx => h reader idx hreader
    revert hnot
    cases pkgMatches reference reader.entries with
    | nil => exact fun _ => rfl
    | cons idx rest =>
      cases rest with
      | nil => exact fun hnot => absurd rfl (hnot idx)
      | cons other rest => exact fun _ => rfl

theorem search_within_ok {α : Type} {onFile : Root → VfsSource → FileBytes → α} {cap : Nat} :
    (∃ a, vfs.search components >>= withinCap cap category onFile = .ok a) ↔
      vfs.DirectoryAnswers components cap := by
  obtain ⟨hfile, hlink, hrest⟩ := search_spec vfs components
  constructor
  · rintro ⟨a, h⟩
    obtain ⟨⟨root, source, content⟩, hfound, h⟩ := bind_ok h
    obtain ⟨hlong, -⟩ := check_ok h
    rcases search_ok hfound with ⟨⟨-, rfl⟩ | ⟨-, hroot, hscene⟩, hat⟩
    · exact .inl ⟨content, hat, Nat.le_of_not_lt hlong⟩
    · exact .inr ⟨hscene, root, hroot, content, hat, Nat.le_of_not_lt hlong⟩
  · rintro (⟨content, hat, hle⟩ | ⟨hscene, root, hroot, content, hat, hle⟩)
    · refine ⟨onFile vfs.sceneRoot .sceneDir content, ?_⟩
      rw [hfile content hat, ok_bind, withinCap]
      exact if_neg (Nat.not_lt.mpr hle)
    · refine ⟨onFile root .assetsRoot content, ?_⟩
      rw [((hrest hscene).1 root hroot).1 content hat, ok_bind, withinCap]
      exact if_neg (Nat.not_lt.mpr hle)

/-- Where the package has no single entry, the directories are asked; then the
first source decides just when not several entries and a directory answer. -/
theorem firstDecides_search {α : Type} {onEntry : PkgReader → Nat → Except VfsError α}
    {onFile : Root → VfsSource → FileBytes → α}
    (h : ∀ reader idx, vfs.pkg = some reader → pkgMatches reference reader.entries ≠ [idx]) :
    FirstDecides vfs reference components category onEntry onFile
        (vfs.search components >>= withinCap (vfs.capFor category) category onFile) ↔
      ¬ (vfs.Ambiguous reference ∧ vfs.DirectoryAnswers components (vfs.capFor category)) := by
  obtain ⟨hfile, hlink, hrest⟩ := search_spec vfs components
  constructor
  · rintro hdecides ⟨hambiguous, hanswers⟩
    obtain ⟨a, ha⟩ := search_within_ok.mpr hanswers
    obtain ⟨e, he⟩ := hdecides.ambiguous hambiguous
    exact absurd (ha.symm.trans he) (by simp)
  · intro hnot
    refine ⟨fun reader idx hreader hone => absurd hone (h reader idx hreader), fun hambiguous => ?_,
      fun _ _ => ⟨fun content hat => ?_, fun hlinked => ?_⟩,
      fun _ hscene root hroot _ => ⟨fun content hat => ?_, fun hlinked => ?_⟩,
      fun _ hscene hassets => ?_⟩
    · cases hresult : vfs.search components >>= withinCap (vfs.capFor category) category onFile with
      | error e => exact ⟨e, rfl⟩
      | ok a => exact absurd ⟨hambiguous, search_within_ok.mp ⟨a, hresult⟩⟩ hnot
    · rw [hfile content hat, ok_bind, withinCap]
    · rw [hlink hlinked, error_bind]
    · rw [((hrest hscene).1 root hroot).1 content hat, ok_bind, withinCap]
    · rw [((hrest hscene).1 root hroot).2 hlinked, error_bind]
    · rw [(hrest hscene).2 hassets, error_bind]

/-- What `resolve` makes of an entry. -/
def entryAnswer (decode : List UInt8 → Decoded) (reference : String) (cap : Nat)
    (category : AssetCategory) (reader : PkgReader) (idx : Nat) : Except VfsError ResolvedAsset :=
  match readEntryBounded decode reader idx cap with
  | .ok bytes => .ok ⟨reference, .pkgEntry, bytes⟩
  | .error (.error e) => if e.kind = .bounds then .error (.oversize category cap) else .error (.io e)
  | .error .overflow => .error .overflow

theorem resolve_entry (hvideo : category ≠ .video)
    (hnormal : normalizeReference reference = .ok components) {reader : PkgReader} {idx : Nat}
    (hpkg : vfs.pkgEntry reference = some (reader, idx)) :
    vfs.resolve decode reference category =
      entryAnswer decode reference (vfs.capFor category) category reader idx := by
  rw [Vfs.resolve, if_neg hvideo, hnormal, ok_bind]
  simp only [hpkg]
  rfl

theorem resolvePath_entry (hnormal : normalizeReference reference = .ok components)
    {found : PkgReader × Nat} (hpkg : vfs.pkgEntry reference = some found) :
    vfs.resolvePath reference category = .error .notAddressable := by
  rw [Vfs.resolvePath, hnormal, ok_bind]
  simp only [hpkg]

/-- The single entry of a reference decides. -/
theorem firstDecides_entry {α : Type} {onEntry : PkgReader → Nat → Except VfsError α}
    {onFile : Root → VfsSource → FileBytes → α} {reader : PkgReader} {idx : Nat}
    (hreader : vfs.pkg = some reader) (hone : pkgMatches reference reader.entries = [idx]) :
    FirstDecides vfs reference components category onEntry onFile (onEntry reader idx) := by
  have hcontains : vfs.PackageContains reference := ⟨reader, hreader, by simp [hone]⟩
  refine ⟨fun reader' idx' hreader' hone' => ?_, ?_, fun h => absurd hcontains h,
    fun h => absurd hcontains h, fun h => absurd hcontains h⟩
  · obtain rfl := Option.some.inj (hreader.symm.trans hreader')
    obtain rfl : idx = idx' := by simpa using hone.symm.trans hone'
    rfl
  · rintro ⟨reader', hreader', hmany⟩
    obtain rfl := Option.some.inj (hreader.symm.trans hreader')
    simp [hone] at hmany

/-- A part is empty or a dot or two, or the reference is absolute or has a
backslash or a NUL. -/
def Malformed (reference : String) : Prop :=
  (∃ part ∈ reference.toList.splitOn '/', part = [] ∨ part = ['.'] ∨ part = ['.', '.']) ∨
    reference.toList.head? = some '/' ∨ '\\' ∈ reference.toList ∨ '\x00' ∈ reference.toList

theorem Malformed.not_normal (h : Malformed reference) :
    normalizeReference reference ≠ .ok components := by
  intro hnormal
  obtain ⟨hnul, hbackslash, habsolute, -, hparts⟩ := normalizeReference_ok hnormal
  rcases h with ⟨part, hpart, hbad⟩ | h | h | h
  · obtain ⟨hempty, hdot, hdots⟩ := hparts part hpart
    rcases hbad with rfl | rfl | rfl
    · exact hempty rfl
    · exact hdot rfl
    · exact hdots rfl
  · exact habsolute h
  · exact hbackslash h
  · exact hnul h

theorem normal_of_resolve {a : ResolvedAsset}
    (h : vfs.resolve decode reference category = .ok a) :
    category ≠ .video ∧ ∃ components, normalizeReference reference = .ok components := by
  obtain ⟨hvideo, h⟩ := check_ok h
  obtain ⟨components, hnormal, -⟩ := bind_ok h
  exact ⟨hvideo, components, hnormal⟩

theorem normal_of_resolvePath {p : ResolvedPath}
    (h : vfs.resolvePath reference category = .ok p) :
    ∃ components, normalizeReference reference = .ok components ∧
      vfs.pkgEntry reference = none := by
  obtain ⟨components, hnormal, h⟩ := bind_ok h
  refine ⟨components, hnormal, ?_⟩
  cases hpkg : vfs.pkgEntry reference with
  | none => rfl
  | some found => simp [hpkg] at h

/-- A returned path. -/
theorem resolvePath_confined {p : ResolvedPath}
    (h : vfs.resolvePath reference category = .ok p) :
    ∃ root components, (p.source = .sceneDir ∧ root = vfs.sceneRoot ∨
        p.source = .assetsRoot ∧ vfs.assetsRoot = some root) ∧
      components ≠ [] ∧ p.path = root.path ++ components ∧
      (∃ content, At root.children components (.file content)) ∧
      ¬ HasLink root.children components := by
  obtain ⟨components, hnormal, hpkg⟩ := normal_of_resolvePath h
  rw [resolvePath_dirs hnormal hpkg] at h
  obtain ⟨⟨root, source, content⟩, hfound, h⟩ := bind_ok h
  obtain ⟨-, h⟩ := check_ok h
  obtain rfl := Except.ok.inj h
  obtain ⟨hsource, hat⟩ := search_ok hfound
  refine ⟨root, components, ?_, ?_, rfl, ⟨content, hat⟩, hat.not_hasLink⟩
  · exact hsource.imp id fun ⟨hs, hroot, _⟩ => ⟨hs, hroot⟩
  · rintro rfl
    cases hat

/-- Both operations on the directories. -/
theorem resolve_agrees (hvideo : category ≠ .video)
    (hpkg : vfs.pkgEntry reference = none) :
    (∀ source, (∃ a, vfs.resolve decode reference category = .ok a ∧ a.source = source) ↔
      ∃ p, vfs.resolvePath reference category = .ok p ∧ p.source = source) ∧
    (vfs.resolve decode reference category = .error (.oversize category (vfs.capFor category)) ↔
      vfs.resolvePath reference category =
        .error (.oversize category (vfs.capFor category))) := by
  cases hnormal : normalizeReference reference with
  | error e =>
    have hresolve : vfs.resolve decode reference category = .error e := by
      rw [Vfs.resolve, if_neg hvideo, hnormal, error_bind]
    have hpath : vfs.resolvePath reference category = .error e := by
      rw [Vfs.resolvePath, hnormal, error_bind]
    simp [hresolve, hpath]
  | ok components =>
    rw [resolve_dirs hvideo hnormal hpkg, resolvePath_dirs hnormal hpkg]
    cases vfs.search components with
    | error e => simp
    | ok found =>
      obtain ⟨root, source, content⟩ := found
      simp only [ok_bind, withinCap]
      split
      next => simp
      next => simp

/-- **Which source answers.**  Malformed references never resolve; a returned
path is confined; the operations agree on the directories; and the first source
that contains a reference decides, just when not several entries of the package
match it while a directory answers. -/
theorem resolve_first_source (decode : List UInt8 → Decoded) (vfs : Vfs) (reference : String)
    (category : AssetCategory) :
    (Malformed reference → (∀ a, vfs.resolve decode reference category ≠ .ok a) ∧
      ∀ p, vfs.resolvePath reference category ≠ .ok p) ∧
    (∀ p, vfs.resolvePath reference category = .ok p →
      ∃ root components, (p.source = .sceneDir ∧ root = vfs.sceneRoot ∨
          p.source = .assetsRoot ∧ vfs.assetsRoot = some root) ∧
        components ≠ [] ∧ p.path = root.path ++ components ∧
        (∃ content, At root.children components (.file content)) ∧
        ¬ HasLink root.children components) ∧
    (category ≠ .video →
      (∀ a p, vfs.resolve decode reference category = .ok a →
        vfs.resolvePath reference category = .ok p → a.source = p.source) ∧
      (vfs.pkgEntry reference = none →
        (∀ source, (∃ a, vfs.resolve decode reference category = .ok a ∧ a.source = source) ↔
          ∃ p, vfs.resolvePath reference category = .ok p ∧ p.source = source) ∧
        (vfs.resolve decode reference category =
            .error (.oversize category (vfs.capFor category)) ↔
          vfs.resolvePath reference category =
            .error (.oversize category (vfs.capFor category))))) ∧
    ∀ components, normalizeReference reference = .ok components →
      ((category ≠ .video → FirstDecides vfs reference components category
          (entryAnswer decode reference (vfs.capFor category) category)
          (fun _ source content => ⟨reference, source, content.bytes⟩)
          (vfs.resolve decode reference category)) ∧
        FirstDecides vfs reference components category (fun _ _ => .error .notAddressable)
          (fun root source _ => ⟨reference, source, root.path ++ components⟩)
          (vfs.resolvePath reference category) ↔
        ¬ (vfs.Ambiguous reference ∧
          vfs.DirectoryAnswers components (vfs.capFor category))) := by
  refine ⟨fun hbad => ⟨fun a ha => ?_, fun p hp => ?_⟩, fun p hp => resolvePath_confined hp,
    fun hvideo => ⟨fun a p ha hp => ?_, resolve_agrees hvideo⟩, fun components hnormal => ?_⟩
  · obtain ⟨-, components, hnormal⟩ := normal_of_resolve ha
    exact hbad.not_normal hnormal
  · obtain ⟨components, hnormal, -⟩ := normal_of_resolvePath hp
    exact hbad.not_normal hnormal
  · obtain ⟨-, -, hpkg⟩ := normal_of_resolvePath hp
    obtain ⟨p', hp', hsource⟩ := ((resolve_agrees hvideo hpkg).1 a.source).mp ⟨a, ha, rfl⟩
    obtain rfl := Except.ok.inj (hp.symm.trans hp')
    exact hsource.symm
  · by_cases hone : ∃ reader idx, vfs.pkg = some reader ∧
        pkgMatches reference reader.entries = [idx]
    · obtain ⟨reader, idx, hreader, hone⟩ := hone
      have hpkg := pkgEntry_some hnormal hreader hone
      have hnot : ¬ vfs.Ambiguous reference := by
        rintro ⟨reader', hreader', hmany⟩
        obtain rfl := Option.some.inj (hreader.symm.trans hreader')
        simp [hone] at hmany
      refine ⟨fun _ h => hnot h.1, fun _ => ⟨fun hvideo => ?_, ?_⟩⟩
      · rw [resolve_entry hvideo hnormal hpkg]
        exact firstDecides_entry hreader hone
      · rw [resolvePath_entry hnormal hpkg]
        exact (firstDecides_entry hreader hone : FirstDecides vfs reference components category
          (fun _ _ => .error .notAddressable) _ _)
    · push Not at hone
      have hpkg := pkgEntry_none hnormal hone
      rw [resolvePath_dirs hnormal hpkg]
      refine ⟨fun h => (firstDecides_search hone).mp h.2, fun h => ⟨fun hvideo => ?_, ?_⟩⟩
      · rw [resolve_dirs hvideo hnormal hpkg]
        exact (firstDecides_search hone).mpr h
      · exact (firstDecides_search hone).mpr h

end Operations

/-! ## A texture -/

/-- A texture in the scene directory. -/
def textureRoot : Root := ⟨["scene"], [("a.png", .file ⟨[1, 2], by decide⟩)]⟩

def smallCaps : VfsCaps := ⟨4, 4, 4, 4, 4, 4, 4⟩

theorem resolve_first_source_texture :
    Vfs.resolve (fun _ => ⟨[], true⟩) ⟨none, textureRoot, none, smallCaps⟩ "a.png" .texture =
      .ok ⟨"a.png", .sceneDir, [1, 2]⟩ := by
  have hnone : ¬ Vfs.PackageContains ⟨none, textureRoot, none, smallCaps⟩ "a.png" := by
    rintro ⟨reader, hreader, -⟩
    exact absurd hreader (by simp)
  have hnot : ¬ Vfs.Ambiguous ⟨none, textureRoot, none, smallCaps⟩ "a.png" := by
    rintro ⟨reader, hreader, -⟩
    exact absurd hreader (by simp)
  have hat : At textureRoot.children ["a.png"] (.file ⟨[1, 2], by decide⟩) := .leaf rfl
  have hdecides := ((resolve_first_source (fun _ => ⟨[], true⟩)
    ⟨none, textureRoot, none, smallCaps⟩ "a.png" .texture).2.2.2 ["a.png"] (by decide)).mpr
      fun h => hnot h.1
  exact ((hdecides.1 (by decide)).scene hnone (.inl ⟨_, hat⟩)).file _ hat

/-- Two entries of the package match, and the scene directory answers. -/
theorem resolve_past_ambiguous :
    ∃ reader, openPackage (build version0001 [("x/a.png", [1]), ("y/a.png", [2])]) = .ok reader ∧
      Vfs.Ambiguous ⟨some reader, textureRoot, none, smallCaps⟩ "a.png" ∧
      Vfs.resolve (fun _ => ⟨[], true⟩) ⟨some reader, textureRoot, none, smallCaps⟩ "a.png"
        .texture = .ok ⟨"a.png", .sceneDir, [1, 2]⟩ ∧
      Vfs.resolvePath ⟨some reader, textureRoot, none, smallCaps⟩ "a.png" .texture =
        .ok ⟨"a.png", .sceneDir, ["scene", "a.png"]⟩ := by
  refine ⟨_, openPackage_build ⟨version0001_digits, by decide, ?_, by decide⟩, ⟨_, rfl, by decide⟩,
    by decide, by decide⟩
  simp only [List.forall_mem_cons, List.not_mem_nil, IsEmpty.forall_iff, implies_true, and_true]
  exact ⟨⟨(validatePath_iff _).mp (by decide), by decide⟩, (validatePath_iff _).mp (by decide),
    by decide⟩

end Kwe.Scene
