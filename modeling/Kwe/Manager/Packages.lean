import Kwe.Foundation.Json
import Kwe.Foundation.Runs

/-!
The display package: it is copied beside its name and renamed into place, a previous one is
kept for rollback, and safe mode renames it away.

* `installFrom_cases`: what an installation leaves under the names;
* `call_proper_iff`, `calls_proper_iff`: a call leaves a failed package alone and reports what
  the disk holds if and only if it does not misplace a tree;
* `installed_in_safe_mode`: a package that is installed while another is disabled.

A rename takes effect or fails, and so does each copy; a removal that fails may have removed
part of its tree.
-/

namespace Kwe.Manager.Packages

open Foundation Foundation.Runs

/-! ## The disk -/

structure File where
  path : String
  contents : List UInt8
  deriving DecidableEq, Repr

/-- `whole` when nothing is missing from it and nothing of another is in it. -/
structure Tree where
  files : List File
  whole : Bool
  deriving DecidableEq, Repr

/-- The package and its `.new`, `.previous` and `.disabled` names. -/
inductive Name
  | package | new | previous | disabled
  deriving DecidableEq, Repr

/-- How `removeRecursively` ends. -/
inductive Removal
  | all
  /-- It fails, and these files are left. -/
  | stopped (keep : File → Bool)

def Removal.left : Removal → Option Tree → Option Tree
  | .all, _ => none
  | .stopped keep, tree => tree.map fun t => ⟨t.files.filter keep, t.whole && t.files.all keep⟩

/-- A file that the iteration over a source finds. -/
structure Entry where
  path : String
  isSymLink : Bool
  isFile : Bool
  contents : List UInt8
  deriving DecidableEq, Repr

structure Source where
  isDir : Bool
  isSymLink : Bool
  /-- `metadata.json` can be opened. -/
  readable : Bool
  entries : List Entry
  deriving DecidableEq, Repr

inductive State
  | unavailable | ready | installed | safeMode | failed
  deriving DecidableEq, Repr

/-- `system` when a package is installed system-wide. -/
structure World where
  disk : Name → Option Tree
  system : Bool
  state : State
  message : String

/-- A call that is refused may have failed to roll back as well. -/
inductive Outcome
  | done | refused | stranded
  deriving DecidableEq, Repr

/-- How the operations of an installation end. -/
structure InstallIo where
  parent : Bool
  stale : Removal
  directory : Bool
  file : String → Bool
  cleanup : Removal
  old : Removal
  backup : Bool
  activate : Bool
  rollback : Bool

/-! ## The installer -/

def packageId : String := "org.kde.kwe.wallpaper"

/-- `value(name).toString(fallback)`. -/
def toString (value : Json) (name fallback : String) : String :=
  ((value.field name).bind Json.asStr).getD fallback

def Source.regular (source : Source) (path : String) : Option Entry :=
  (source.entries.find? (·.path = path)).filter fun entry => entry.isFile && !entry.isSymLink

/-- `fromJson` reads a document. -/
def validatePackage (fromJson : List UInt8 → Option Json) (source : Source) : Except String Unit :=
  if !source.isDir || source.isSymLink then .error "Package source is not a real directory."
  else
    match source.regular "metadata.json", source.regular "contents/ui/main.qml" with
    | some metadata, some _ =>
      if !source.readable then .error "Could not read package metadata."
      else
        match fromJson (metadata.contents.take (256 * 1024)) with
        | some (.object fields) =>
          let root := Json.object fields
          if toString root "KPackageStructure" "" ≠ "Plasma/Wallpaper" then
            .error "Package metadata is invalid or is not a Plasma wallpaper."
          else
            let plugin := (root.field "KPlugin").getD .null
            if toString plugin "Id" (toString root "Id" "") ≠ packageId then
              .error "Package ID does not match the KDE Wallpaper Engine package."
            else .ok ()
        | _ => .error "Package metadata is invalid or is not a Plasma wallpaper."
    | _, _ => .error "Package is missing metadata.json or contents/ui/main.qml."

/-- `QFile::copy` does not replace a file. -/
def copyFiles (file : String → Bool) : List Entry → List File → Except String Unit × List File
  | [], files => (.ok (), files)
  | entry :: entries, files =>
    if entry.isSymLink || !entry.isFile then
      (.error "Package contains an unsafe symbolic link or non-file.", files)
    else if file entry.path && !files.any (·.path = entry.path) then
      copyFiles file entries (files ++ [⟨entry.path, entry.contents⟩])
    else (.error ("Could not copy package file: " ++ entry.path), files)

/-- The copy goes into what was left under its name. -/
def copyPackage (source : Source) (io : InstallIo) (tree : Option Tree) :
    Except String Unit × Option Tree :=
  if io.directory then
    let before := (tree.map (·.files)).getD []
    match copyFiles io.file source.entries before with
    | (.ok (), files) => (.ok (), some ⟨files, before.isEmpty⟩)
    | (.error error, files) => (.error error, some ⟨files, false⟩)
  else (.error "Could not create the temporary package directory.", tree)

namespace World

def setState (w : World) (state : State) (message : String) : World :=
  { w with state := state, message := message }

def put (w : World) (name : Name) (tree : Option Tree) : World :=
  { w with disk := Function.update w.disk name tree }

def remove (w : World) (removal : Removal) (name : Name) : World :=
  w.put name (removal.left (w.disk name))

/-- `QDir::rename` does not replace what exists. -/
def rename (w : World) (ok : Bool) (source target : Name) : Option World :=
  if ok && (w.disk source).isSome && (w.disk target).isNone then
    some ((w.put target (w.disk source)).put source none)
  else none

def refuse (w : World) (message : String) : Outcome × World :=
  (.refused, w.setState .failed message)

/-- The state of a manager that starts. -/
def restart (w : World) : World :=
  if (w.disk .disabled).isSome then
    w.setState .safeMode "The Plasma package is disabled in safe mode."
  else if (w.disk .package).isSome then
    w.setState .installed "The Plasma display package is installed."
  else if w.system then
    w.setState .installed "The Plasma display package is installed system-wide."
  else w.setState .unavailable "The Plasma display package is not installed."

def userPackagePresent (w : World) : Bool :=
  (w.disk .package).isSome || (w.disk .disabled).isSome

/-- The package that exists is kept for rollback. -/
def retain (w : World) (io : InstallIo) : Option World :=
  if (w.disk .package).isSome then w.rename io.backup .package .previous else some w

/-- What is kept is put back. -/
def rollback (w : World) (io : InstallIo) : Outcome × World :=
  if (w.disk .previous).isSome then
    match w.rename io.rollback .previous .package with
    | some w => (.refused, w)
    | none => (.stranded, w)
  else (.refused, w)

def installFrom (fromJson : List UInt8 → Option Json) (source : Source) (io : InstallIo)
    (w : World) : Outcome × World :=
  match validatePackage fromJson source with
  | .error error => w.refuse error
  | .ok () =>
    if !io.parent then w.refuse "Could not create the Plasma package directory."
    else
      match copyPackage source io (io.stale.left (w.disk .new)) with
      | (.error error, new) => ((w.put .new new).remove io.cleanup .new).refuse error
      | (.ok (), new) =>
        let w := (w.put .new new).remove io.old .previous
        match w.retain io with
        | none =>
          (w.remove io.cleanup .new).refuse "Could not retain the previous package for rollback."
        | some w =>
          match w.rename io.activate .new .package with
          | none =>
            let (outcome, w) := w.rollback io
            (outcome, (w.remove io.cleanup .new).setState .failed
              "Could not activate the new package.")
          | some w =>
            (.done, w.setState .installed "The Plasma display package was installed safely.")

def enterSafeMode (ok : Bool) (w : World) : Outcome × World :=
  if w.state = .safeMode then (.done, w)
  else if !w.userPackagePresent then
    w.refuse ("Safe mode requires a user-local Plasma package; " ++
      "only the system-wide package is present.")
  else
    match w.rename ok .package .disabled with
    | none => w.refuse "Could not disable the Plasma package for safe mode."
    | some w => (.done, w.setState .safeMode "Safe mode is active; KDE will not load this package.")

def leaveSafeMode (ok : Bool) (w : World) : Outcome × World :=
  if w.state ≠ .safeMode then (if w.state = .installed then .done else .refused, w)
  else
    match w.rename ok .disabled .package with
    | none => w.refuse "Could not restore the Plasma package from safe mode."
    | some w => (.done, w.setState .installed "The Plasma display package is enabled again.")

end World

inductive Call
  /-- The manager starts anew. -/
  | restart
  | installFrom (source : Source) (io : InstallIo)
  | enterSafeMode (ok : Bool)
  | leaveSafeMode (ok : Bool)

def World.call (fromJson : List UInt8 → Option Json) (w : World) : Call → Outcome × World
  | .restart => (.done, w.restart)
  | .installFrom source io => w.installFrom fromJson source io
  | .enterSafeMode ok => w.enterSafeMode ok
  | .leaveSafeMode ok => w.leaveSafeMode ok

def World.step (fromJson : List UInt8 → Option Json) (w : World) (call : Call) : World :=
  (w.call fromJson call).2

/-- A manager that starts where a package is installed, or none. -/
def World.start (files : Option (List File)) (system : Bool) : World :=
  World.restart {
    disk := fun name => if name = .package then files.map (⟨·, true⟩) else none
    system := system
    state := .unavailable
    message := "" }

/-! ## Renames -/

namespace World

variable {w w' : World}

@[simp] theorem put_disk (w : World) (name : Name) (tree : Option Tree) :
    (w.put name tree).disk = Function.update w.disk name tree := rfl

@[simp] theorem remove_disk (w : World) (removal : Removal) (name : Name) :
    (w.remove removal name).disk = Function.update w.disk name (removal.left (w.disk name)) := rfl

@[simp] theorem setState_disk (w : World) (state : State) (message : String) :
    (w.setState state message).disk = w.disk := rfl

@[simp] theorem setState_state (w : World) (state : State) (message : String) :
    (w.setState state message).state = state := rfl

@[simp] theorem setState_system (w : World) (state : State) (message : String) :
    (w.setState state message).system = w.system := rfl

theorem rename_some {ok : Bool} {source target : Name} (h : w.rename ok source target = some w') :
    ok = true ∧ (w.disk source).isSome = true ∧ w.disk target = none ∧
      w' = (w.put target (w.disk source)).put source none := by
  unfold rename at h
  split at h
  next hok =>
    simp only [Bool.and_eq_true, Option.isNone_iff_eq_none] at hok
    exact ⟨hok.1.1, hok.1.2, hok.2, (Option.some.inj h).symm⟩
  next => cases h

theorem rename_none {ok : Bool} {source target : Name} (h : w.rename ok source target = none) :
    ok = false ∨ w.disk source = none ∨ (w.disk target).isSome = true := by
  unfold rename at h
  split at h
  next => cases h
  next hok =>
    by_contra hnot
    push Not at hnot
    apply hok
    simp only [Bool.and_eq_true, Option.isNone_iff_eq_none]
    refine ⟨⟨by simpa using hnot.1, Option.isSome_iff_ne_none.mpr hnot.2.1⟩, by simpa using hnot.2.2⟩

end World

/-! ## Copies -/

theorem copyFiles_ok_iff {file : String → Bool} {entries : List Entry} {files : List File} :
    (copyFiles file entries files).1 = .ok () ↔
      (∀ entry ∈ entries, entry.isSymLink = false ∧ entry.isFile = true ∧ file entry.path = true) ∧
        (entries.map (·.path)).Nodup ∧
          ∀ entry ∈ entries, ∀ f ∈ files, f.path ≠ entry.path := by
  induction entries generalizing files with
  | nil => simp [copyFiles]
  | cons entry entries ih =>
    rw [copyFiles]
    split
    next hunsafe =>
      refine iff_of_false (by simp) fun h => ?_
      have hentry := h.1 entry List.mem_cons_self
      simp [hentry.1, hentry.2.1] at hunsafe
    next hsafe =>
      have hregular : entry.isSymLink = false ∧ entry.isFile = true := by simpa using hsafe
      split
      next hcopied =>
        have hfile : file entry.path = true ∧ ∀ f ∈ files, f.path ≠ entry.path := by
          simpa using hcopied
        rw [ih]
        constructor
        · rintro ⟨hfiles, hnodup, hfresh⟩
          refine ⟨?_, ?_, ?_⟩
          · exact List.forall_mem_cons.mpr ⟨⟨hregular.1, hregular.2, hfile.1⟩, hfiles⟩
          · rw [List.map_cons, List.nodup_cons]
            refine ⟨?_, hnodup⟩
            intro hmem
            obtain ⟨other, hother, hpath⟩ := List.mem_map.mp hmem
            exact hfresh other hother ⟨entry.path, entry.contents⟩ (by simp) hpath.symm
          · refine List.forall_mem_cons.mpr ⟨hfile.2, fun other hother f hf => ?_⟩
            exact hfresh other hother f (List.mem_append_left _ hf)
        · rintro ⟨hfiles, hnodup, hfresh⟩
          rw [List.map_cons, List.nodup_cons] at hnodup
          refine ⟨fun other hother => hfiles other (List.mem_cons_of_mem _ hother), hnodup.2, ?_⟩
          intro other hother f hf
          rcases List.mem_append.mp hf with hf | hf
          · exact hfresh other (List.mem_cons_of_mem _ hother) f hf
          · obtain rfl := List.mem_singleton.mp hf
            intro hpath
            exact hnodup.1 (List.mem_map.mpr ⟨other, hother, hpath.symm⟩)
      next hfailed =>
        refine iff_of_false (by simp) fun h => hfailed ?_
        have hentry := h.1 entry List.mem_cons_self
        have hfresh := h.2.2 entry List.mem_cons_self
        simpa [hentry.2.2] using hfresh

/-- The files that the removal of `.new` leaves. -/
def World.stale (w : World) (io : InstallIo) : List File :=
  ((io.stale.left (w.disk .new)).map (·.files)).getD []

/-- What the removal of `.previous` leaves. -/
def World.old (w : World) (io : InstallIo) : Option Tree := io.old.left (w.disk .previous)

variable {fromJson : List UInt8 → Option Json} {w : World} {source : Source} {io : InstallIo}

/-- The source is valid, and nothing stands in the way of its copy. -/
structure Copies (fromJson : List UInt8 → Option Json) (w : World) (source : Source)
    (io : InstallIo) : Prop where
  valid : validatePackage fromJson source = .ok ()
  parent : io.parent = true
  directory : io.directory = true
  files : ∀ entry ∈ source.entries,
    entry.isSymLink = false ∧ entry.isFile = true ∧ io.file entry.path = true
  paths : (source.entries.map (·.path)).Nodup
  fresh : ∀ entry ∈ source.entries, ∀ f ∈ w.stale io, f.path ≠ entry.path

/-- A copy that succeeds is whole if nothing was left under its name. -/
theorem copyPackage_ok {new : Option Tree}
    (h : copyPackage source io (io.stale.left (w.disk .new)) = (.ok (), new)) :
    ∃ files, new = some ⟨files, (w.stale io).isEmpty⟩ := by
  unfold copyPackage at h
  split at h
  · dsimp only at h
    split at h
    · exact ⟨_, (Prod.mk.inj h).2.symm⟩
    · cases (Prod.mk.inj h).1
  · cases (Prod.mk.inj h).1

theorem copies_iff :
    Copies fromJson w source io ↔ validatePackage fromJson source = .ok () ∧ io.parent = true ∧
      (copyPackage source io (io.stale.left (w.disk .new))).1 = .ok () := by
  have hcopy : (copyPackage source io (io.stale.left (w.disk .new))).1 = .ok () ↔
      io.directory = true ∧ (copyFiles io.file source.entries (w.stale io)).1 = .ok () := by
    unfold copyPackage World.stale
    split
    next hdirectory =>
      simp only [hdirectory, true_and]
      split
      next hfiles => simp [hfiles]
      next hfiles => simp [hfiles]
    next hdirectory => simp [hdirectory]
  rw [hcopy, copyFiles_ok_iff]
  exact ⟨fun h => ⟨h.valid, h.parent, h.directory, h.files, h.paths, h.fresh⟩,
    fun h => ⟨h.1, h.2.1, h.2.2.1, h.2.2.2.1, h.2.2.2.2.1, h.2.2.2.2.2⟩⟩

/-! ## Installations -/

/-- No package is in the way, or it is kept for rollback. -/
def Retains (w : World) (io : InstallIo) : Prop :=
  w.disk .package = none ∨ (w.old io = none ∧ io.backup = true)

/-- What is put back when the new package cannot be activated. -/
def World.kept (w : World) (io : InstallIo) : Option Tree := (w.disk .package).or (w.old io)

/-- A call ends like this, and leaves the disabled package alone. -/
structure Leaves (w : World) (result : Outcome × World) (outcome : Outcome) (package : Option Tree)
    (state : State) : Prop where
  outcome : result.1 = outcome
  package : result.2.disk .package = package
  disabled : result.2.disk .disabled = w.disk .disabled
  system : result.2.system = w.system
  state : result.2.state = state

/-- The package is out of the way: it, or what was there of a previous one, can be put back. -/
structure Cleared (w : World) (io : InstallIo) (new : Option Tree) (cleared : World) : Prop where
  package : cleared.disk .package = none
  new : cleared.disk .new = new
  previous : cleared.disk .previous = w.kept io
  disabled : cleared.disk .disabled = w.disk .disabled
  system : cleared.system = w.system

theorem retain_some (new : Option Tree) (h : Retains w io) :
    ∃ cleared, ((w.put .new new).remove io.old .previous).retain io = some cleared ∧
      Cleared w io new cleared := by
  unfold World.retain
  cases hpackage : w.disk .package with
  | none =>
    refine ⟨(w.put .new new).remove io.old .previous, by simp [hpackage], ?_⟩
    exact {
      package := by simpa using hpackage
      new := by simp
      previous := by simp [World.kept, World.old, hpackage]
      disabled := by simp
      system := rfl }
  | some package =>
    obtain ⟨hold, hbackup⟩ := h.resolve_left (by simp [hpackage])
    rw [World.old] at hold
    refine ⟨(((w.put .new new).remove io.old .previous).put .previous (some package)).put .package
      none, by simp [World.rename, hpackage, hold, hbackup], ?_⟩
    exact {
      package := by simp
      new := by simp
      previous := by simp [World.kept, hpackage]
      disabled := by simp
      system := rfl }

theorem retain_none (new : Option Tree) (h : ¬ Retains w io) :
    ((w.put .new new).remove io.old .previous).retain io = none := by
  rw [Retains, not_or] at h
  obtain ⟨package, hpackage⟩ := Option.ne_none_iff_exists'.mp h.1
  unfold World.retain World.rename
  rw [if_pos (by simp [hpackage]), if_neg]
  intro hrename
  refine h.2 ?_
  simp only [Bool.and_eq_true, Option.isNone_iff_eq_none] at hrename
  exact ⟨by simpa [World.old] using hrename.2, hrename.1.1⟩

theorem install_refused (h : ¬ (Copies fromJson w source io ∧ Retains w io)) :
    Leaves w (w.installFrom fromJson source io) .refused (w.disk .package) .failed := by
  unfold World.installFrom
  split
  · exact ⟨rfl, rfl, rfl, rfl, rfl⟩
  next hvalid =>
    split
    · exact ⟨rfl, rfl, rfl, rfl, rfl⟩
    next hparent =>
      split
      · exact ⟨rfl, by simp [World.refuse], by simp [World.refuse], rfl, rfl⟩
      next new hcopy =>
        have hcopies : Copies fromJson w source io :=
          copies_iff.mpr ⟨hvalid, by simpa using hparent, by rw [hcopy]⟩
        dsimp only
        rw [retain_none new fun hretains => h ⟨hcopies, hretains⟩]
        exact ⟨rfl, by simp [World.refuse], by simp [World.refuse], rfl, rfl⟩

/-- A package that is copied is activated, or what was kept is put back. -/
theorem install_cleared (hcopies : Copies fromJson w source io) (hretains : Retains w io) :
    ∃ files cleared, Cleared w io (some ⟨files, (w.stale io).isEmpty⟩) cleared ∧
      w.installFrom fromJson source io =
        match cleared.rename io.activate .new .package with
        | none =>
          ((cleared.rollback io).1, ((cleared.rollback io).2.remove io.cleanup .new).setState .failed
            "Could not activate the new package.")
        | some w =>
          (.done, w.setState .installed "The Plasma display package was installed safely.") := by
  obtain ⟨hvalid, hparent, hcopy⟩ := copies_iff.mp hcopies
  cases hresult : copyPackage source io (io.stale.left (w.disk .new)) with
  | mk result new =>
    rw [hresult] at hcopy
    obtain rfl : result = .ok () := hcopy
    obtain ⟨files, rfl⟩ := copyPackage_ok hresult
    obtain ⟨cleared, hretain, hcleared⟩ :=
      retain_some (some ⟨files, (w.stale io).isEmpty⟩) hretains
    refine ⟨files, cleared, hcleared, ?_⟩
    simp only [World.installFrom, hvalid, hparent, hresult, hretain, Bool.not_true, Bool.false_eq_true,
      if_false]

theorem install_done (hcopies : Copies fromJson w source io) (hretains : Retains w io)
    (hactivate : io.activate = true) :
    ∃ files, Leaves w (w.installFrom fromJson source io) .done
      (some ⟨files, (w.stale io).isEmpty⟩) .installed := by
  obtain ⟨files, cleared, hcleared, heq⟩ := install_cleared hcopies hretains
  refine ⟨files, ?_⟩
  have hrename : cleared.rename io.activate .new .package =
      some ((cleared.put .package (some ⟨files, (w.stale io).isEmpty⟩)).put .new none) := by
    simp [World.rename, hactivate, hcleared.new, hcleared.package]
  rw [heq, hrename]
  exact ⟨rfl, by simp, by simp [hcleared.disabled], hcleared.system, rfl⟩

theorem install_failed (hcopies : Copies fromJson w source io) (hretains : Retains w io)
    (hactivate : io.activate = false) :
    Leaves w (w.installFrom fromJson source io)
      (if (w.kept io).isSome ∧ io.rollback = false then .stranded else .refused)
      (if io.rollback = true then w.kept io else none) .failed := by
  obtain ⟨files, cleared, hcleared, heq⟩ := install_cleared hcopies hretains
  have hrename : cleared.rename io.activate .new .package = none := by
    simp [World.rename, hactivate]
  rw [heq, hrename]
  dsimp only [World.rollback]
  cases hkept : w.kept io with
  | none =>
    have hprevious : cleared.disk .previous = none := hcleared.previous.trans hkept
    simp only [hprevious, Option.isSome_none, Bool.false_eq_true, if_false, false_and, ite_self]
    exact ⟨rfl, by simpa using hcleared.package, by simpa using hcleared.disabled,
      hcleared.system, rfl⟩
  | some tree =>
    have hprevious : cleared.disk .previous = some tree := hcleared.previous.trans hkept
    cases hrollback : io.rollback with
    | true =>
      have hback : cleared.rename true .previous .package =
          some ((cleared.put .package (some tree)).put .previous none) := by
        simp [World.rename, hprevious, hcleared.package]
      simp only [hprevious, hback, Option.isSome_some, if_true]
      exact ⟨by simp, by simp, by simpa using hcleared.disabled, hcleared.system, rfl⟩
    | false =>
      have hback : cleared.rename false .previous .package = none := by simp [World.rename]
      simp only [hprevious, hback, Option.isSome_some, if_true]
      exact ⟨by simp, by simpa using hcleared.package, by simpa using hcleared.disabled,
        hcleared.system, rfl⟩

/-! ## What is reported -/

theorem restart_disk (w : World) : w.restart.disk = w.disk := by
  unfold World.restart
  repeat' split
  all_goals rfl

theorem restart_state (w : World) :
    w.restart.state =
      if (w.disk .disabled).isSome then .safeMode
      else if (w.disk .package).isSome ∨ w.system = true then .installed
      else .unavailable := by
  unfold World.restart
  repeat' split
  all_goals simp_all

theorem restart_restart (w : World) : w.restart.restart.state = w.restart.state := by
  have hsystem : w.restart.system = w.system := by
    unfold World.restart
    repeat' split
    all_goals rfl
  rw [restart_state w.restart, restart_disk, hsystem, ← restart_state]

/-- The state that is reported is that of the disk, and of a manager that starts. -/
structure Agrees (w : World) : Prop where
  installed : w.state = .installed →
    (∃ t, w.disk .package = some t ∧ t.whole = true) ∨ w.system = true
  safeMode : w.state = .safeMode → w.disk .package = none
  restarted : w.state ≠ .failed → w.state = w.restart.state

/-- A call that fails leaves the package as it was unless its rollback fails, what is under the
name is whole, the state agrees, and safe mode is not refused. -/
structure Proper (fromJson : List UInt8 → Option Json) (w : World) (call : Call) : Prop where
  kept : (w.call fromJson call).1 = .refused →
    (w.step fromJson call).disk .package = w.disk .package
  whole : ∀ t, (w.step fromJson call).disk .package = some t → t.whole = true
  agrees : Agrees (w.step fromJson call)
  disables : call = .enterSafeMode true → (w.step fromJson call).disk .package = none ∧
    (w.disk .package ≠ none →
      (w.call fromJson call).1 = .done ∧ (w.step fromJson call).state = .safeMode)

/-- An installation that is copied and has the old package kept is activated while another is
disabled or over what was left of an earlier copy, or fails to be activated and puts a
previous package back where there was none. -/
def Misplaces (fromJson : List UInt8 → Option Json) (w : World) : Call → Prop
  | .installFrom source io => Copies fromJson w source io ∧ Retains w io ∧
    ((io.activate = true ∧ ((w.disk .disabled).isSome = true ∨ w.stale io ≠ [])) ∨
      (io.activate = false ∧ io.rollback = true ∧ w.disk .package = none ∧ w.old io ≠ none))
  | _ => False

/-- No package is there beside a disabled one, and both are whole. -/
structure Placed (w : World) : Prop where
  whole : ∀ t, w.disk .package = some t → t.whole = true
  disabled : ∀ t, w.disk .disabled = some t → t.whole = true
  apart : w.disk .package = none ∨ w.disk .disabled = none

structure Inv (w : World) : Prop extends Placed w where
  restarted : w.state ≠ .failed → w.state = w.restart.state

theorem Inv.agrees (h : Inv w) : Agrees w where
  installed hstate := by
    have hrestarted := h.restarted (by simp [hstate])
    rw [hstate, restart_state] at hrestarted
    split at hrestarted
    · cases hrestarted
    · split at hrestarted
      next hpresent =>
        refine hpresent.imp (fun hsome => ?_) id
        obtain ⟨t, ht⟩ := Option.isSome_iff_exists.mp hsome
        exact ⟨t, ht, h.whole t ht⟩
      next => cases hrestarted
  safeMode hstate := by
    have hrestarted := h.restarted (by simp [hstate])
    rw [hstate, restart_state] at hrestarted
    split at hrestarted
    next hdisabled => exact h.apart.resolve_right (Option.isSome_iff_ne_none.mp hdisabled)
    next => split at hrestarted <;> cases hrestarted
  restarted := h.restarted

/-! ## Calls -/

theorem Placed.restart (h : Placed w) : Inv w.restart where
  whole := by simpa [restart_disk] using h.whole
  disabled := by simpa [restart_disk] using h.disabled
  apart := by simpa [restart_disk] using h.apart
  restarted _ := (restart_restart w).symm

theorem Inv.refuse (h : Inv w) (message : String) : Inv (w.refuse message).2 where
  whole := h.whole
  disabled := h.disabled
  apart := h.apart
  restarted hstate := absurd rfl hstate

theorem enterSafeMode_spec (h : Inv w) (ok : Bool) :
    Inv (w.enterSafeMode ok).2 ∧
      ((w.enterSafeMode ok).1 = .refused →
        (w.enterSafeMode ok).2.disk .package = w.disk .package) ∧
      (ok = true → (w.enterSafeMode ok).2.disk .package = none ∧
        (w.disk .package ≠ none →
          (w.enterSafeMode ok).1 = .done ∧ (w.enterSafeMode ok).2.state = .safeMode)) := by
  unfold World.enterSafeMode
  split
  next hstate => exact ⟨h, fun _ => rfl, fun _ => ⟨h.agrees.safeMode hstate, fun _ => ⟨rfl, hstate⟩⟩⟩
  split
  next habsent =>
    have hpackage : w.disk .package = none := by
      simp only [World.userPackagePresent, Bool.not_eq_true', Bool.or_eq_false_iff] at habsent
      simpa using habsent.1
    exact ⟨h.refuse _, fun _ => rfl, fun _ => ⟨hpackage, fun hne => absurd hpackage hne⟩⟩
  next =>
    split
    next hrename =>
      refine ⟨h.refuse _, fun _ => rfl, fun hok => ?_⟩
      rcases World.rename_none hrename with hfailed | hpackage | hdisabled
      · rw [hok] at hfailed
        cases hfailed
      · exact ⟨hpackage, fun hne => absurd hpackage hne⟩
      · have hpackage := h.apart.resolve_right (Option.isSome_iff_ne_none.mp hdisabled)
        exact ⟨hpackage, fun hne => absurd hpackage hne⟩
    next w' hrename =>
      obtain ⟨-, hpackage, hdisabled, rfl⟩ := World.rename_some hrename
      refine ⟨?_, (by cases ·), fun _ => ⟨by simp, fun _ => ⟨rfl, rfl⟩⟩⟩
      exact {
        whole := by simp
        disabled := by simpa using h.whole
        apart := by simp
        restarted := fun _ => by simp [restart_state, hpackage] }

theorem leaveSafeMode_spec (h : Inv w) (ok : Bool) :
    Inv (w.leaveSafeMode ok).2 ∧
      ((w.leaveSafeMode ok).1 = .refused →
        (w.leaveSafeMode ok).2.disk .package = w.disk .package) := by
  unfold World.leaveSafeMode
  split
  · exact ⟨h, fun _ => rfl⟩
  · split
    next => exact ⟨h.refuse _, fun _ => rfl⟩
    next w' hrename =>
      obtain ⟨-, hdisabled, hpackage, rfl⟩ := World.rename_some hrename
      refine ⟨?_, (by cases ·)⟩
      exact {
        whole := by simpa using h.disabled
        disabled := by simp
        apart := by simp
        restarted := fun _ => by simp [restart_state, hdisabled] }

/-- What a call leaves is as before when it is refused. -/
theorem Leaves.inv {result : Outcome × World} {outcome : Outcome} {package : Option Tree}
    (h : Inv w) (hleaves : Leaves w result outcome package .failed)
    (hwhole : ∀ t, package = some t → t.whole = true)
    (hapart : package = none ∨ w.disk .disabled = none) : Inv result.2 where
  whole := by
    rw [hleaves.package]
    exact hwhole
  disabled := by
    rw [hleaves.disabled]
    exact h.disabled
  apart := by
    rw [hleaves.package, hleaves.disabled]
    exact hapart
  restarted hstate := absurd hleaves.state hstate

theorem installFrom_spec (h : Inv w) (hplaced : ¬ Misplaces fromJson w (.installFrom source io)) :
    Inv (w.installFrom fromJson source io).2 ∧
      ((w.installFrom fromJson source io).1 = .refused →
        (w.installFrom fromJson source io).2.disk .package = w.disk .package) := by
  by_cases hready : Copies fromJson w source io ∧ Retains w io
  · have hplaced : ¬ ((io.activate = true ∧ ((w.disk .disabled).isSome = true ∨ w.stale io ≠ [])) ∨
        (io.activate = false ∧ io.rollback = true ∧ w.disk .package = none ∧ w.old io ≠ none)) :=
      fun hbad => hplaced ⟨hready.1, hready.2, hbad⟩
    rw [not_or] at hplaced
    cases hactivate : io.activate with
    | true =>
      have hclean : w.disk .disabled = none ∧ w.stale io = [] := by
        have hclean := fun hbad => hplaced.1 ⟨hactivate, hbad⟩
        rw [imp_false, not_or] at hclean
        exact ⟨by simpa using hclean.1, by simpa using hclean.2⟩
      obtain ⟨files, hleaves⟩ := install_done hready.1 hready.2 hactivate
      refine ⟨?_, fun hrefused => ?_⟩
      · exact {
          whole := by simp [hleaves.package, hclean.2]
          disabled := by simp [hleaves.disabled, hclean.1]
          apart := Or.inr (hleaves.disabled.trans hclean.1)
          restarted := fun _ => by
            simp [restart_state, hleaves.state, hleaves.disabled, hclean.1, hleaves.package] }
      · rw [hleaves.outcome] at hrefused
        cases hrefused
    | false =>
      have hleaves := install_failed hready.1 hready.2 hactivate
      cases hrollback : io.rollback with
      | true =>
        -- nothing was left of a previous package, or there was a package to be put back
        have hkept : w.kept io = w.disk .package := by
          rw [World.kept]
          cases hpackage : w.disk .package with
          | some package => rfl
          | none =>
            have hold : w.old io = none := by
              by_contra hold
              exact hplaced.2 ⟨hactivate, hrollback, hpackage, hold⟩
            rw [hold, Option.or_none]
        rw [hrollback, if_pos rfl, hkept] at hleaves
        exact ⟨hleaves.inv h h.whole h.apart, fun _ => hleaves.package⟩
      | false =>
        rw [hrollback, if_neg Bool.false_ne_true] at hleaves
        refine ⟨hleaves.inv h (by simp) (Or.inl rfl), fun hrefused => ?_⟩
        rw [hleaves.outcome] at hrefused
        split at hrefused
        · cases hrefused
        next hkept =>
          rw [hleaves.package]
          simp only [World.kept] at hkept
          cases hpackage : w.disk .package with
          | none => rfl
          | some package => simp [hpackage] at hkept
  · have hleaves := install_refused hready
    exact ⟨hleaves.inv h h.whole h.apart, fun _ => hleaves.package⟩

theorem inv_step {call : Call} (h : Inv w) (hplaced : ¬ Misplaces fromJson w call) :
    Inv (w.step fromJson call) := by
  cases call with
  | restart => exact h.toPlaced.restart
  | installFrom source io => exact (installFrom_spec h hplaced).1
  | enterSafeMode ok => exact (enterSafeMode_spec h ok).1
  | leaveSafeMode ok => exact (leaveSafeMode_spec h ok).1

theorem proper_of_placed {call : Call} (h : Inv w) (hplaced : ¬ Misplaces fromJson w call) :
    Proper fromJson w call where
  whole := (inv_step h hplaced).whole
  agrees := (inv_step h hplaced).agrees
  kept := by
    cases call with
    | restart => exact nofun
    | installFrom source io => exact (installFrom_spec h hplaced).2
    | enterSafeMode ok => exact (enterSafeMode_spec h ok).2.1
    | leaveSafeMode ok => exact (leaveSafeMode_spec h ok).2
  disables := by
    rintro rfl
    exact (enterSafeMode_spec h true).2.2 rfl

theorem not_proper_of_misplaces {call : Call} (hbad : Misplaces fromJson w call) :
    ¬ Proper fromJson w call := by
  intro hproper
  cases call with
  | restart => exact hbad
  | enterSafeMode ok => exact hbad
  | leaveSafeMode ok => exact hbad
  | installFrom source io =>
    obtain ⟨hcopies, hretains, ⟨hactivate, hover⟩ | ⟨hactivate, hrollback, hpackage, hold⟩⟩ := hbad
    · obtain ⟨files, hleaves⟩ := install_done hcopies hretains hactivate
      rcases hover with hdisabled | hstale
      · -- a manager that starts finds the disabled package first
        have hstate : (w.step fromJson (.installFrom source io)).state = .installed := hleaves.state
        have hrestarted := hproper.agrees.restarted (by simp [hstate])
        have hstill : (w.step fromJson (.installFrom source io)).disk .disabled = w.disk .disabled :=
          hleaves.disabled
        rw [hstate, restart_state, hstill, if_pos hdisabled] at hrestarted
        cases hrestarted
      · have hwhole := hproper.whole _ hleaves.package
        simp [hstale] at hwhole
    · have hleaves := install_failed hcopies hretains hactivate
      rw [hrollback, if_pos rfl] at hleaves
      have hrefused := hleaves.outcome
      simp only [Bool.true_eq_false, and_false, if_false] at hrefused
      have hkept := hproper.kept hrefused
      have hback : (w.step fromJson (.installFrom source io)).disk .package = w.kept io :=
        hleaves.package
      rw [hback, World.kept, hpackage, Option.none_or] at hkept
      exact hold hkept

theorem call_proper_iff {call : Call} (h : Inv w) :
    Proper fromJson w call ↔ ¬ Misplaces fromJson w call :=
  ⟨fun hproper hbad => not_proper_of_misplaces hbad hproper, proper_of_placed h⟩

/-! ## Runs -/

theorem start_inv (files : Option (List File)) (system : Bool) : Inv (World.start files system) := by
  apply Placed.restart
  exact {
    whole := by
      intro t ht
      obtain ⟨files, -, rfl⟩ := Option.map_eq_some_iff.mp ht
      rfl
    disabled := nofun
    apart := Or.inr rfl }

/-- **Calls.**  In every run every call is proper if and only if no installation misplaces a
tree. -/
theorem calls_proper_iff (fromJson : List UInt8 → Option Json) (files : Option (List File))
    (system : Bool) (calls : List Call) :
    Agrees (World.start files system) ∧
      (Along (World.step fromJson) (Proper fromJson) (World.start files system) calls ↔
        Along (World.step fromJson) (fun w call => ¬ Misplaces fromJson w call)
          (World.start files system) calls) := by
  refine ⟨(start_inv files system).agrees, ?_⟩
  exact along_congr (C := fun _ _ => True) (I := Inv)
    (fun w call h _ hproper => inv_step h ((call_proper_iff h).mp hproper))
    (fun w call h _ => call_proper_iff h) (start_inv files system)
    (along_of_forall (fun _ _ => trivial) _ _)

/-- The package that is shipped. -/
def shipped : Source where
  isDir := true
  isSymLink := false
  readable := true
  entries := [
    ⟨"metadata.json", false, true, ("\x7b\"KPackageStructure\":\"Plasma/Wallpaper\"," ++
      "\"KPlugin\":\x7b\"Id\":\"org.kde.kwe.wallpaper\"\x7d\x7d").toUTF8.toList⟩,
    ⟨"contents/ui/main.qml", false, true, []⟩]

/-- Nothing fails. -/
def smooth : InstallIo := ⟨true, .all, true, fun _ => true, .all, .all, true, true, true⟩

/-- The package is installed, disabled, and installed again. -/
def twice : List Call :=
  [.installFrom shipped smooth, .enterSafeMode true, .installFrom shipped smooth]

/-- A manager that starts takes the package for disabled, and it cannot be disabled again. -/
theorem installed_in_safe_mode :
    let w := run (World.step Json.ofBytes) (World.start none false) twice
    w.state = .installed ∧ w.restart.state = .safeMode ∧
      (w.enterSafeMode true).1 = .refused ∧ (w.enterSafeMode true).2.disk .package ≠ none ∧
      (w.restart.enterSafeMode true).1 = .done ∧
      (w.restart.enterSafeMode true).2.disk .package ≠ none := by
  decide +kernel

end Kwe.Manager.Packages
