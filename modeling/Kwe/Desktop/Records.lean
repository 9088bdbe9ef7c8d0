import Kwe.Daemon.StoreFormat
import Kwe.Desktop.Understood
import Kwe.Foundation.Runs

/-!
The records of the macOS desktops: `apply_switch`, which changes one under the lock and
saves a snapshot outside it, `load_state` and `save_state`.

* `Inv.step`: what every step keeps, of calls that run beside each other;
* `records_survive`: when the file holds the records once all calls have returned.

Every save succeeds.  Of a display only its name is kept.
-/

namespace Kwe.Desktop

open Foundation Foundation.Runs Supervisor
open Daemon (Codec)
open Std (ExtTreeMap)

def maxStateBytes : Nat := 64 * 1024

structure Display where
  name : String
  deriving DecidableEq, Repr

structure DesktopRecord where
  plugin : String
  image : Option String
  deriving DecidableEq, Repr

def DesktopRecord.default : DesktopRecord := ⟨"", none⟩

abbrev Desktops := ExtTreeMap String DesktopRecord

structure PersistedState where
  version : UInt32
  desktops : Desktops

/-- What `load_state` finds at the path. -/
def loadState (codec : Codec PersistedState) : Option ByteArray → Desktops
  | none => ∅
  | some bytes =>
    if maxStateBytes < bytes.size then ∅
    else
      match codec.fromSlice bytes with
      | none => ∅
      | some state => if state.version = 1 then state.desktops else ∅

/-- What `save_state` leaves there. -/
def saveState (codec : Codec PersistedState) (desktops : Desktops) : ByteArray :=
  codec.toVecPretty ⟨1, desktops⟩

/-- The record that a command changes. -/
def recordSwitch (desktops : Desktops) (name : String) (command : SwitchCommand) : Desktops :=
  let record := desktops[name]?.getD .default
  desktops.insert name
    ⟨command.plugin, if command.touchesImage then command.image else record.image⟩

/-- The display of a switch script and its command. -/
def switchOf (displays : List Display) (script : Text) : Option (String × SwitchCommand) :=
  match readScript script with
  | .ok (.switch command) => displays[command.desktopIndex]?.map fun d => (d.name, command)
  | .ok .probe | .error _ => none

/-! ## Calls beside each other -/

/-- Where a call of `evaluate_script` is. -/
inductive Phase
  /-- The displays are listed. -/
  | listed (displays : List Display) (script : Text)
  /-- The records are changed, by the update of this number; the snapshot is not saved. -/
  | updated (number : Nat) (snapshot : Desktops)

/-- The records and the file, and where every call is; how many updates there were so far,
and the number of the one whose snapshot was saved last. -/
structure Probe where
  desktops : Desktops
  file : Option ByteArray
  calls : Nat → Option Phase
  updates : Nat
  saved : Nat

inductive ProbeStep
  /-- A new call lists the displays, if they can be listed. -/
  | list (call : Nat) (displays : Option (List Display)) (script : Text)
  | update (call : Nat)
  | save (call : Nat)

namespace Probe

variable (codec : Codec PersistedState)

def start (file : Option ByteArray) : Probe :=
  ⟨loadState codec file, file, fun _ => none, 0, 0⟩

def step (p : Probe) : ProbeStep → Probe
  | .list call displays script =>
    match p.calls call, displays with
    | none, some displays =>
      { p with calls := Function.update p.calls call (some (.listed displays script)) }
    | _, _ => p
  | .update call =>
    match p.calls call with
    | some (.listed displays script) =>
      match switchOf displays script with
      | none => { p with calls := Function.update p.calls call none }
      | some (name, command) =>
        let desktops := recordSwitch p.desktops name command
        { p with
          desktops := desktops
          calls := Function.update p.calls call (some (.updated (p.updates + 1) desktops))
          updates := p.updates + 1 }
    | _ => p
  | .save call =>
    match p.calls call with
    | some (.updated number snapshot) =>
      { p with
        file := some (saveState codec snapshot)
        calls := Function.update p.calls call none
        saved := number }
    | _ => p

/-- When all calls have returned, the file holds the records and they are read back. -/
def Survives (p : Probe) : Prop :=
  (∀ call, p.calls call = none) →
    (0 < p.updates → p.file = some (saveState codec p.desktops)) ∧
      loadState codec p.file = p.desktops

/-- A snapshot is not saved after a later one, and it is small enough to be read. -/
def InOrder (p : Probe) : ProbeStep → Prop
  | .save call => ∀ number snapshot, p.calls call = some (.updated number snapshot) →
    p.saved < number ∧ (saveState codec snapshot).size ≤ maxStateBytes
  | .list _ _ _ | .update _ => True

/-- The last update is saved, or its call is about to save it. -/
structure Inv (p : Probe) : Prop where
  saved_le : p.saved ≤ p.updates
  numbers : ∀ call number snapshot, p.calls call = some (.updated number snapshot) →
    number ≤ p.updates ∧ (number = p.updates → snapshot = p.desktops)
  settled : p.saved = p.updates →
    (0 < p.updates → p.file = some (saveState codec p.desktops)) ∧
      loadState codec p.file = p.desktops
  unsaved : p.saved ≠ p.updates → ∃ call, p.calls call = some (.updated p.updates p.desktops)

variable {codec}

theorem loadState_saveState (hcodec : codec.RoundTrip) {desktops : Desktops}
    (h : (saveState codec desktops).size ≤ maxStateBytes) :
    loadState codec (some (saveState codec desktops)) = desktops := by
  have hread : codec.fromSlice (saveState codec desktops) = some ⟨1, desktops⟩ := hcodec _
  rw [loadState, if_neg (Nat.not_lt.mpr h), hread]
  exact if_pos rfl

theorem Inv.start (file : Option ByteArray) : Inv codec (.start codec file) where
  saved_le := Nat.le_refl _
  numbers := nofun
  settled _ := ⟨nofun, rfl⟩
  unsaved h := absurd rfl h

/-- Another call is where it was. -/
theorem update_other {calls : Nat → Option Phase} {call other : Nat} {phase found : Option Phase}
    (h : Function.update calls call phase other = found) (hne : phase ≠ found) :
    other ≠ call ∧ calls other = found := by
  by_cases heq : other = call
  · subst heq
    rw [Function.update_self] at h
    exact absurd h hne
  · rw [Function.update_of_ne heq] at h
    exact ⟨heq, h⟩

theorem Inv.update {p : Probe} (h : Inv codec p) (call : Nat) (name : String)
    (command : SwitchCommand) :
    Inv codec { p with
      desktops := recordSwitch p.desktops name command
      calls := Function.update p.calls call
        (some (.updated (p.updates + 1) (recordSwitch p.desktops name command)))
      updates := p.updates + 1 } where
  saved_le := Nat.le_succ_of_le h.saved_le
  numbers other number snapshot hother := by
    simp only at hother
    by_cases heq : other = call
    · subst heq
      rw [Function.update_self] at hother
      obtain ⟨rfl, rfl⟩ := Phase.updated.inj (Option.some.inj hother)
      exact ⟨Nat.le_refl _, fun _ => rfl⟩
    · rw [Function.update_of_ne heq] at hother
      have hle := (h.numbers other number snapshot hother).1
      refine ⟨Nat.le_succ_of_le hle, fun hlast => ?_⟩
      simp only at hlast
      omega
  settled hsaved := by
    have hle := h.saved_le
    simp only at hsaved
    omega
  unsaved _ := ⟨call, Function.update_self ..⟩

/-- A call that has not changed the records begins or ends. -/
theorem Inv.replace {p : Probe} (h : Inv codec p) {call : Nat} {phase : Option Phase}
    (hbefore : ∀ number snapshot, p.calls call ≠ some (.updated number snapshot))
    (hafter : ∀ number snapshot, phase ≠ some (.updated number snapshot)) :
    Inv codec { p with calls := Function.update p.calls call phase } where
  saved_le := h.saved_le
  numbers other number snapshot hother :=
    h.numbers other number snapshot (update_other hother (hafter number snapshot)).2
  settled := h.settled
  unsaved hsaved := by
    obtain ⟨other, hother⟩ := h.unsaved hsaved
    have hne : other ≠ call := by
      rintro rfl
      exact hbefore _ _ hother
    exact ⟨other, (Function.update_of_ne hne ..).trans hother⟩

theorem Inv.save (hcodec : codec.RoundTrip) {p : Probe} (h : Inv codec p) {call number : Nat}
    {snapshot : Desktops} (hcall : p.calls call = some (.updated number snapshot))
    (horder : p.saved < number) (hsize : (saveState codec snapshot).size ≤ maxStateBytes) :
    Inv codec { p with
      file := some (saveState codec snapshot)
      calls := Function.update p.calls call none
      saved := number } where
  saved_le := (h.numbers call number snapshot hcall).1
  numbers other number' snapshot' hother :=
    h.numbers other number' snapshot' (update_other hother nofun).2
  settled hlast := by
    obtain rfl := (h.numbers call number snapshot hcall).2 hlast
    exact ⟨fun _ => rfl, loadState_saveState hcodec hsize⟩
  unsaved hlast := by
    have hle := (h.numbers call number snapshot hcall).1
    obtain ⟨other, hother⟩ := h.unsaved (by simp only at hlast; omega)
    have hne : other ≠ call := by
      rintro rfl
      obtain ⟨rfl, -⟩ := Phase.updated.inj (Option.some.inj (hcall.symm.trans hother))
      exact hlast rfl
    exact ⟨other, (Function.update_of_ne hne ..).trans hother⟩

theorem Inv.step (hcodec : codec.RoundTrip) (p : Probe) (s : ProbeStep) (h : Inv codec p)
    (horder : InOrder codec p s) : Inv codec (p.step codec s) := by
  cases s with
  | list call displays script =>
    simp only [Probe.step]
    split
    next hcall => exact h.replace (by rw [hcall]; exact nofun) nofun
    next => exact h
  | update call =>
    simp only [Probe.step]
    split
    next displays script hcall =>
      split
      next => exact h.replace (by rw [hcall]; exact nofun) nofun
      next name command _ => exact h.update call name command
    next => exact h
  | save call =>
    simp only [Probe.step]
    split
    next number snapshot hcall =>
      obtain ⟨hlt, hsize⟩ := horder number snapshot hcall
      exact h.save hcodec hcall hlt hsize
    next => exact h

theorem Inv.survives {p : Probe} (h : Inv codec p) : p.Survives codec := by
  intro hidle
  refine h.settled (Decidable.byContradiction fun hsaved => ?_)
  obtain ⟨call, hcall⟩ := h.unsaved hsaved
  rw [hidle call] at hcall
  exact nomatch hcall

end Probe

/-- **Records.**  In every run in which no snapshot is saved after a later one, and every
snapshot is small enough to be read, the file holds the records whenever all calls have
returned, and they are read back. -/
theorem records_survive (codec : Codec PersistedState) (hcodec : codec.RoundTrip)
    (file : Option ByteArray) (steps : List ProbeStep)
    (h : Along (Probe.step codec) (Probe.InOrder codec) (.start codec file) steps) :
    (run (Probe.step codec) (.start codec file) steps).Survives codec :=
  (invariant_run (Probe.Inv.step hcodec) (.start file) h).survives

/-! ## The text of the file -/

section Text

open Foundation.Format

/-- The image, which is left out when there is none. -/
def imageFieldText : Format (Option String) :=
  Format.optional "\n".toList
    ((Format.quoted.after "\n".toList).before ",\n      \"image\": ".toList)
    (avoids_before _ fun _ => rfl)

def recordText : Format DesktopRecord :=
  (((Format.quoted.before "\n      \"plugin\": ".toList).seq imageFieldText).iso
    (fun (r : DesktopRecord) => (r.plugin, r.image)) (fun p => ⟨p.1, p.2⟩)
    fun _ => rfl).after "    \x7d".toList

def persistedText : Format PersistedState :=
  ((((Daemon.u32Text ',' Playlists.isDigit_comma).before "\x7b\n  \"version\": ".toList).seq
    ((Daemon.recordsText recordText).before "\n  \"desktops\": ".toList)).iso
    (fun (s : PersistedState) => (s.version, s.desktops)) (fun p => ⟨p.1, p.2⟩)
    fun _ => rfl).after "\n\x7d".toList

end Text

/-- The codec of `to_vec_pretty`. -/
def persistedCodec : Codec PersistedState := Daemon.codecOf persistedText

theorem persistedCodec_roundTrip : persistedCodec.RoundTrip := Daemon.codecOf_roundTrip _

/-! ## Two switches of one display -/

theorem switchOf_apply (name : String) {plugin : Text} (hne : plugin ≠ [])
    (hall : ∀ c ∈ plugin, identityChar c = true) :
    switchOf [⟨name⟩] (applyText 0 plugin) =
      some (name, ⟨0, String.ofList plugin, false, none⟩) := by
  have hread : readScript (applyText 0 plugin) =
      .ok (.switch ⟨0, String.ofList plugin, false, none⟩) := by
    have hparse := parse_applyText 0 hne hall
    rw [readScript_switch (applyText_eq 0 plugin)]
    exact congrArg (Except.map Request.switch) hparse
  rw [switchOf, hread]
  rfl

/-- A call that switches the only display. -/
def switchTo (call : Nat) (plugin : String) : ProbeStep :=
  .list call (some [⟨"A"⟩]) (applyText 0 plugin.toList)

/-- The records when the display was switched. -/
def switchedTo (desktops : Desktops) (plugin : String) : Desktops :=
  recordSwitch desktops "A" ⟨0, plugin, false, none⟩

theorem update_switchTo {p : Probe} {call : Nat} {plugin : String}
    (hcall : p.calls call = some (.listed [⟨"A"⟩] (applyText 0 plugin.toList)))
    (hne : plugin.toList ≠ []) (hall : plugin.toList.all identityChar = true) :
    p.step persistedCodec (.update call) =
      { p with
        desktops := switchedTo p.desktops plugin
        calls := Function.update p.calls call
          (some (.updated (p.updates + 1) (switchedTo p.desktops plugin)))
        updates := p.updates + 1 } := by
  simp only [Probe.step, hcall, switchOf_apply "A" hne (List.all_eq_true.mp hall),
    String.ofList_toList]
  rfl

/-- The text of one record. -/
theorem write_switchedTo : persistedText.write ⟨1, switchedTo ∅ "kwe"⟩ =
    ("\x7b\n  \"version\": 1,\n  \"desktops\": \x7b\n    \"A\": \x7b\n" ++
      "      \"plugin\": \"kwe\"\n    \x7d\n  \x7d\n\x7d").toList := by
  decide +kernel

theorem size_switchedTo :
    (saveState persistedCodec (switchedTo ∅ "kwe")).size ≤ maxStateBytes := by
  refine Nat.le_trans (Daemon.size_codecOf_le persistedText _) ?_
  rw [write_switchedTo]
  decide +kernel

theorem records_survive_once :
    (run (Probe.step persistedCodec) (.start persistedCodec none)
      [switchTo 0 "kwe", .update 0, .save 0]).Survives persistedCodec := by
  refine records_survive persistedCodec persistedCodec_roundTrip none _
    ⟨trivial, trivial, fun number snapshot hcall => ?_, trivial⟩
  rw [update_switchTo (p := (Probe.start persistedCodec none).step persistedCodec
    (switchTo 0 "kwe")) rfl (by decide) (by decide)] at hcall
  simp only [Function.update_self] at hcall
  obtain ⟨rfl, rfl⟩ := Phase.updated.inj (Option.some.inj hcall)
  exact ⟨by decide, size_switchedTo⟩

/-- Two switches of one display are under way. -/
def bothListed : Probe :=
  run (Probe.step persistedCodec) (.start persistedCodec none) [switchTo 0 "kwe", switchTo 1 "image"]

/-- The first to change the records is the last to save. -/
def overtaken : List ProbeStep := [.update 0, .update 1, .save 1, .save 0]

theorem run_overtaken : run (Probe.step persistedCodec) bothListed overtaken =
    { desktops := switchedTo (switchedTo ∅ "kwe") "image"
      file := some (saveState persistedCodec (switchedTo ∅ "kwe"))
      calls := fun _ => none
      updates := 2
      saved := 1 } := by
  have hlisted : bothListed.calls 0 = some (.listed [⟨"A"⟩] (applyText 0 "kwe".toList)) := rfl
  have hfirst := update_switchTo hlisted (by decide) (by decide)
  have hother : (bothListed.step persistedCodec (.update 0)).calls 1 =
      some (.listed [⟨"A"⟩] (applyText 0 "image".toList)) := by
    rw [hfirst]
    rfl
  have hsecond := update_switchTo hother (by decide) (by decide)
  have hnone : ∀ call, call ≠ 0 → call ≠ 1 → bothListed.calls call = none := by
    intro call h₀ h₁
    simp [bothListed, switchTo, Probe.step, Probe.start, Function.update_of_ne, h₀, h₁]
  rw [overtaken, run_cons, run_cons, hsecond, hfirst]
  simp only [run_cons, run_nil, Probe.step, Function.update_self, Function.update_of_ne,
    ne_eq, Nat.zero_ne_one, not_false_eq_true]
  congr 1
  funext call
  by_cases h₀ : call = 0
  · simp [h₀]
  · by_cases h₁ : call = 1
    · simp [h₁]
    · simp [Function.update_of_ne, h₀, h₁, hnone call h₀ h₁]

theorem records_overtaken :
    ¬ (run (Probe.step persistedCodec) (.start persistedCodec none)
      (switchTo 0 "kwe" :: switchTo 1 "image" :: overtaken)).Survives persistedCodec := by
  intro h
  have hrun : run (Probe.step persistedCodec) (.start persistedCodec none)
      (switchTo 0 "kwe" :: switchTo 1 "image" :: overtaken) = _ := run_overtaken
  rw [hrun] at h
  have hfile := (h fun _ => rfl).1 (by decide)
  have hsame := persistedCodec_roundTrip ⟨1, switchedTo (switchedTo ∅ "kwe") "image"⟩
  rw [show persistedCodec.toVecPretty _ = _ from (Option.some.inj hfile).symm] at hsame
  have hstate := hsame.symm.trans (persistedCodec_roundTrip ⟨1, switchedTo ∅ "kwe"⟩)
  have hdesktops := congrArg PersistedState.desktops (Option.some.inj hstate)
  have hplugin := congrArg (fun (d : Desktops) => d["A"]?.map DesktopRecord.plugin) hdesktops
  simp [switchedTo, recordSwitch] at hplugin

end Kwe.Desktop
