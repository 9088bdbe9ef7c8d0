import Kwe.Frames.Readers

/-!
The item of the desktop over time: how old the picture is that it shows as live.

* `pollFrame_inconclusive`: the polls that end before the age of the frame is looked at;
* `Inv.step`: what every step keeps;
* `never_live_iff`: the runs in which a stalled picture is never shown as live.

Times are milliseconds.
-/

namespace Kwe.Frames

open Foundation.Runs

def frozenAfterMilliseconds : Nat := 1500

inductive ItemEvent
  | poll (path : String) (now : Nat) (views : Nat → List UInt8)
  | openFrameFile (path : String) (now : Nat) (entry : FrameItem.PathEntry) (views : Nat → List UInt8)
  /-- `setFrameFile` with an empty path. -/
  | closeFrameFile

/-- The item and its timer `m_frameAge`: when the last frame came. -/
structure AgedItem where
  item : FrameItem
  frameAge : Option Nat

namespace AgedItem

def new : AgedItem := ⟨.new, none⟩

def aged (w : AgedItem) (now : Nat) : Bool :=
  match w.frameAge with
  | none => false
  | some came => frozenAfterMilliseconds < now - came

/-- A frame is installed when the item had none or shows another one. -/
def installed (item item' : FrameItem) : Bool :=
  item'.receivedSequence && (!item.receivedSequence || item'.sequence != item.sequence)

def step (w : AgedItem) : ItemEvent → AgedItem
  | .poll path now views =>
    let item := w.item.pollFrame path (w.aged now) views
    ⟨item, if installed w.item item then some now else w.frameAge⟩
  | .openFrameFile path now entry views =>
    let item := w.item.openFrameFile path entry views
    ⟨item, if installed w.item.closeFrameFile item then some now else w.frameAge⟩
  | .closeFrameFile => ⟨w.item.closeFrameFile.setStatus .waiting "", w.frameAge⟩

/-- After a poll of an open file, the status is not live when the last frame is old. -/
def Honest (w : AgedItem) : ItemEvent → Prop
  | .poll path now views =>
    let w' := w.step (.poll path now views)
    w'.item.isOpen = true → (∀ came ∈ w'.frameAge, frozenAfterMilliseconds < now - came) →
      w'.item.status ≠ .live
  | .openFrameFile _ _ _ _ | .closeFrameFile => True

/-- A poll of a live picture that is old finds out whether there is a new frame. -/
def Conclusive (w : AgedItem) : ItemEvent → Prop
  | .poll _ now views => w.item.isOpen = true → w.item.status = .live → w.aged now = true →
      ¬ Inconclusive w.item views
  | .openFrameFile _ _ _ _ | .closeFrameFile => True

end AgedItem

open AgedItem

/-! ## One poll -/

/-- Such a poll ends before the age of the frame is looked at. -/
theorem pollFrame_inconclusive (path : String) (aged : Bool) {views : Nat → List UInt8}
    {item : FrameItem} (h : Inconclusive item views) :
    item.pollFrame path aged views = item := by
  obtain ⟨hsize, ⟨current, hcurrent, hlayout⟩, before, hbefore, h⟩ := h
  by_cases hopen : item.isOpen = true
  · rcases h with hodd | ⟨⟨state, hstate⟩, hfresh, slot, hslot, hlt, hinside, ⟨pixels, hpixels⟩,
      after, hafter, htorn⟩
    · simp [FrameItem.pollFrame, hopen, hsize, hcurrent, hlayout, hbefore, hodd]
    · by_cases heven : before % 2 = 0
      · simp only [FrameItem.pollFrame, hopen, hsize, hcurrent, hlayout, hbefore, heven, hstate,
          hfresh, hslot, Nat.not_le.mpr hlt, Nat.not_lt.mpr hinside, hpixels, hafter, htorn,
          not_true, ne_eq, if_true, if_false]
      · simp [FrameItem.pollFrame, hopen, hsize, hcurrent, hlayout, hbefore, heven]
  · exact pollFrame_closed path aged views hopen

theorem installed_self (item : FrameItem) : installed item item = false := by
  cases h : item.receivedSequence <;> simp [installed, h]

theorem installed_setStatus (item : FrameItem) (status : Status) (error : String) :
    installed item (item.setStatus status error) = false := installed_self item

theorem Sees.installed {item : FrameItem} {views : Nat → List UInt8} {before slot : Nat}
    {pixels : List UInt8} (h : Sees item views before slot pixels) (path : String) (state : Nat) :
    installed item (item.install path pixels before state) = true := by
  have hfresh := h.fresh
  cases hreceived : item.receivedSequence with
  | false => simp [AgedItem.installed, FrameItem.install, hreceived]
  | true => simpa [AgedItem.installed, FrameItem.install, hreceived] using hfresh

/-! ## Runs -/

/-- A live picture has come at some time. -/
def Timed (w : AgedItem) : Prop := w.item.status = .live → w.frameAge.isSome = true

theorem Timed.poll {w : AgedItem} (h : Timed w) (path : String) (now : Nat)
    (views : Nat → List UInt8) : Timed (w.step (.poll path now views)) := by
  by_cases hopen : w.item.isOpen = true
  · have hpolled := pollFrame_polled path (w.aged now) views hopen
    rw [Timed, AgedItem.step]
    generalize w.item.pollFrame path (w.aged now) views = item at hpolled ⊢
    cases hpolled with
    | told status error hstatus => exact fun hlive => absurd hlive hstatus
    | again _ =>
      intro hlive
      simpa [installed_self] using h hlive
    | inconclusive _ =>
      intro hlive
      simpa [installed_self] using h hlive
    | shown before slot pixels state hsees =>
      intro _
      simp [hsees.installed path state]
  · have hsame := pollFrame_closed path (w.aged now) views hopen
    intro hlive
    simp only [AgedItem.step, hsame] at hlive ⊢
    simpa [installed_self] using h hlive

/-- A file that is opened is polled at once. -/
theorem openFrameFile_cases (path : String) (entry : FrameItem.PathEntry)
    (views : Nat → List UInt8) (item : FrameItem) :
    (item.openFrameFile path entry views).status = .invalid ∨
      ∃ fresh : FrameItem, fresh.isOpen = true ∧ fresh.status = .waiting ∧
        item.openFrameFile path entry views =
          fresh.pollFrame path false fun k => views (2 + k) := by
  cases entry with
  | missing error => exact .inl rfl
  | notRegular => exact .inl rfl
  | file =>
    simp only [FrameItem.openFrameFile]
    split
    next => exact .inl rfl
    next =>
      split
      next => exact .inl rfl
      next layout _ => exact .inr ⟨_, rfl, rfl, rfl⟩

theorem openFrameFile_live {path : String} {entry : FrameItem.PathEntry}
    {views : Nat → List UInt8} {item : FrameItem}
    (hlive : (item.openFrameFile path entry views).status = .live) :
    installed item.closeFrameFile (item.openFrameFile path entry views) = true := by
  rcases openFrameFile_cases path entry views item with hinvalid | ⟨fresh, hopen, hwaiting, hpoll⟩
  · exact absurd (hlive.symm.trans hinvalid) nofun
  · have hpolled := pollFrame_polled path false (fun k => views (2 + k)) hopen
    rw [← hpoll] at hpolled
    generalize item.openFrameFile path entry views = opened at hlive hpolled ⊢
    cases hpolled with
    | told status error hstatus => exact absurd hlive hstatus
    | again _ => exact absurd (hlive.symm.trans hwaiting) nofun
    | inconclusive _ => exact absurd (hlive.symm.trans hwaiting) nofun
    | shown before slot pixels state _ => rfl

theorem Timed.step (w : AgedItem) (event : ItemEvent) (h : Timed w) : Timed (w.step event) := by
  cases event with
  | poll path now views => exact h.poll path now views
  | openFrameFile path now entry views =>
    intro hlive
    simp only [AgedItem.step, openFrameFile_live hlive, if_true]
    rfl
  | closeFrameFile => exact nofun

/-- The timer of a frame that came says how old it is. -/
theorem aged_of_old {w : AgedItem} (h : Timed w) (hlive : w.item.status = .live) {now : Nat}
    (hold : ∀ came ∈ w.frameAge, frozenAfterMilliseconds < now - came) : w.aged now = true := by
  obtain ⟨came, hcame⟩ := Option.isSome_iff_exists.mp (h hlive)
  simpa [aged, hcame] using hold came hcame

theorem old_of_aged {w : AgedItem} {now : Nat} (h : w.aged now = true) :
    ∀ came ∈ w.frameAge, frozenAfterMilliseconds < now - came := by
  intro came hcame
  rw [Option.mem_def] at hcame
  simpa [aged, hcame] using h

theorem honest_iff (w : AgedItem) (event : ItemEvent) (h : Timed w) :
    w.Honest event ↔ w.Conclusive event := by
  cases event with
  | openFrameFile path now entry views => exact Iff.rfl
  | closeFrameFile => exact Iff.rfl
  | poll path now views =>
    constructor
    · intro hhonest hopen hlive haged hinconclusive
      have hsame := pollFrame_inconclusive path (w.aged now) hinconclusive
      simp only [Honest, AgedItem.step, hsame, installed_self] at hhonest
      exact hhonest hopen (old_of_aged haged) hlive
    · intro hconclusive hopen hold hlive
      simp only [AgedItem.step] at hopen hold hlive
      by_cases hwas : w.item.isOpen = true
      · have hpolled := pollFrame_polled path (w.aged now) views hwas
        generalize w.item.pollFrame path (w.aged now) views = item at hopen hold hlive hpolled
        cases hpolled with
        | told status error hstatus => exact hstatus hlive
        | again hyoung =>
          rw [installed_self] at hold
          exact absurd (hyoung.symm.trans (aged_of_old h hlive hold)) nofun
        | inconclusive hinconclusive =>
          rw [installed_self] at hold
          exact hconclusive hwas hlive (aged_of_old h hlive hold) hinconclusive
        | shown before slot pixels state hsees =>
          have hnow := hold now (by simp [hsees.installed path state])
          rw [Nat.sub_self] at hnow
          exact absurd hnow (by decide)
      · rw [pollFrame_closed path (w.aged now) views hwas] at hopen
        exact hwas hopen

/-- **Staleness.**  After every poll of an open file the status is not live when the last
frame came more than 1.5 s ago, just when no poll of a live picture that is old finds a
frame being written, or one that is replaced before it is copied. -/
theorem never_live_iff (events : List ItemEvent) :
    Along AgedItem.step Honest .new events ↔ Along AgedItem.step Conclusive .new events :=
  along_congr (I := Timed) (C := fun _ _ => True) (fun w event h _ _ => h.step w event)
    (fun w event h _ => honest_iff w event h) nofun (along_of_forall (fun _ _ => trivial) _ _)

/-! ## A producer that is killed, and one that is too fast -/

/-- The steps of `publish` of one pixel. -/
def publishOnePixel : List Action :=
  [.publish [1, 2, 3, 4], .write [], .write [(0, 4)], .write [], .write [], .write [], .write []]

/-- The file of one pixel after these steps of its producer. -/
def onePixelFile (actions : List Action) : List UInt8 :=
  (run (step ⟨1, 1, 4, 4, 72⟩) (State.new ⟨1, 1, 4, 4, 72⟩) actions).mapping

/-- Opened when one frame is there. -/
def openedOnePixel : ItemEvent :=
  .openFrameFile "frame" 0 .file fun _ => onePixelFile publishOnePixel

/-- The next publish stores its odd generation and does nothing more; or another frame
comes during every copy. -/
theorem stalled_shown_as_live :
    ¬ Along AgedItem.step Honest .new [openedOnePixel, .poll "frame" 2000
      fun _ => onePixelFile (publishOnePixel ++ [.publish [5, 6, 7, 8], .write []])] ∧
    ¬ Along AgedItem.step Honest .new [openedOnePixel, .poll "frame" 2000 fun k =>
      if k < 6 then onePixelFile (publishOnePixel ++ publishOnePixel)
      else onePixelFile (publishOnePixel ++ publishOnePixel ++ publishOnePixel)] := by
  constructor
  · rintro ⟨-, h, -⟩
    exact h (by decide +kernel) (by decide +kernel) (by decide +kernel)
  · rintro ⟨-, h, -⟩
    exact h (by decide +kernel) (by decide +kernel) (by decide +kernel)

end Kwe.Frames
