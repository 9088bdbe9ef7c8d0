import Kwe.Foundation.Runs

/-!
The desktop surfaces of the display agent, one for each screen: which output of the service
each one is, and the pointer phases it forwards.

* `unshared_iff`: no output is given to two screens if and only if no two screens have the
  size of exactly one output;
* `matchOutput_current`: a screen whose output is current is given it, or none;
* `Inv.step`: what every reply and pointer position keeps;
* `surfaces_matched_iff`: all of it in every run;
* `output_shared`: two equal displays, one of which the service reports without geometry.

The reading of replies and the drawing of frames are left out.
-/

namespace Kwe.Display.Surfaces

open Foundation Foundation.Runs

/-! ## Matching -/

structure Rect where
  x : Int
  y : Int
  width : Int
  height : Int
  deriving DecidableEq, Repr

def Rect.size (r : Rect) : Int × Int := (r.width, r.height)

/-- The geometry counts when `hasGeometry`. -/
structure OutputRecord where
  name : String
  geometry : Rect
  hasGeometry : Bool
  wallpaperPlugin : String
  deriving DecidableEq, Repr

def isExact (geometry : Rect) (output : OutputRecord) : Bool :=
  output.hasGeometry && decide (output.geometry = geometry)

def isSameSize (size : Int × Int) (output : OutputRecord) : Bool :=
  output.hasGeometry && decide (output.geometry.size = size)

/-- Displays that are mirrored have the same geometry, and none of them is taken. -/
def matchOutput (screenGeometry : Rect) (screenCount : Nat) (outputs : List OutputRecord) :
    String :=
  match outputs.filter (isExact screenGeometry) with
  | [exact] => exact.name
  | _ :: _ :: _ => ""
  | [] =>
    match outputs.filter (isSameSize screenGeometry.size) with
    | [sameSize] => sameSize.name
    | _ =>
      match screenCount, outputs with
      | 1, [output] => output.name
      | _, _ => ""

/-- The screens, none where another is. -/
structure Screens where
  geometries : List Rect
  distinct : geometries.Nodup

/-- The outputs of a reply, of which those without a name are left out. -/
structure Outputs where
  records : List OutputRecord
  named : ∀ output ∈ records, output.name ≠ ""
  distinct : (records.map (·.name)).Nodup

/-- Two screens have the size of exactly one output. -/
def Ambiguous (screens : Screens) (outputs : Outputs) : Prop :=
  ∃ g ∈ screens.geometries, ∃ g' ∈ screens.geometries, g ≠ g' ∧ g.size = g'.size ∧
    (outputs.records.filter (isSameSize g.size)).length = 1

section Matching

variable {geometry : Rect} {n : Nat} {outputs : List OutputRecord} {output : OutputRecord}

theorem isSameSize_of_isExact (h : isExact geometry output = true) :
    isSameSize geometry.size output = true := by
  simp only [isExact, isSameSize, Bool.and_eq_true, decide_eq_true_eq] at h ⊢
  exact ⟨h.1, congrArg Rect.size h.2⟩

/-- The output that is the only one of its size is taken. -/
theorem matchOutput_sameSize (h : outputs.filter (isSameSize geometry.size) = [output]) :
    matchOutput geometry n outputs = output.name := by
  have hexact : outputs.filter (isExact geometry) = [output].filter (isExact geometry) := by
    rw [← h, List.filter_filter]
    refine List.filter_congr fun o _ => ?_
    cases hexact : isExact geometry o with
    | true => simp [isSameSize_of_isExact hexact]
    | false => simp
  unfold matchOutput
  rw [hexact, h]
  cases hgeometry : isExact geometry output <;> simp [hgeometry]

/-- What is taken is the only output there, the only one of the size, or the only one. -/
theorem matchOutput_cases (h : matchOutput geometry n outputs ≠ "") :
    ∃ output ∈ outputs, matchOutput geometry n outputs = output.name ∧
      (n = 1 ∨
        (output.geometry.size = geometry.size ∧
          (output.geometry = geometry ∨
            outputs.filter (isSameSize geometry.size) = [output]))) := by
  have hmem : ∀ {p : OutputRecord → Bool} {o : OutputRecord}, outputs.filter p = [o] →
      o ∈ outputs ∧ p o = true := by
    intro p o hfilter
    exact List.mem_filter.mp (hfilter ▸ List.mem_singleton_self o)
  unfold matchOutput at h ⊢
  cases hexact : outputs.filter (isExact geometry) with
  | cons exact others =>
    cases others with
    | cons => simp [hexact] at h
    | nil =>
      obtain ⟨hexactmem, hp⟩ := hmem hexact
      simp only [isExact, Bool.and_eq_true, decide_eq_true_eq] at hp
      exact ⟨exact, hexactmem, rfl, .inr ⟨congrArg Rect.size hp.2, .inl hp.2⟩⟩
  | nil =>
    simp only [hexact] at h
    dsimp only
    split at h
    next sameSize hsame =>
      obtain ⟨hsamemem, hp⟩ := hmem hsame
      simp only [isSameSize, Bool.and_eq_true, decide_eq_true_eq] at hp
      exact ⟨sameSize, hsamemem, rfl, .inr ⟨hp.2, .inr hsame⟩⟩
    next =>
      split at h
      next only _ => exact ⟨only, List.mem_singleton_self only, rfl, .inl rfl⟩
      next => exact absurd rfl h

/-- A screen whose output is current is given it, unless another one is in the same place. -/
theorem matchOutput_current (houtputs : outputs.Nodup) (hmem : output ∈ outputs)
    (hcurrent : isExact geometry output = true) :
    ((∃ other ∈ outputs, other ≠ output ∧ isExact geometry other = true) →
      matchOutput geometry n outputs = "") ∧
    ((∀ other ∈ outputs, isExact geometry other = true → other = output) →
      matchOutput geometry n outputs = output.name) := by
  have hin : output ∈ outputs.filter (isExact geometry) := List.mem_filter.mpr ⟨hmem, hcurrent⟩
  have hnodup : (outputs.filter (isExact geometry)).Nodup := houtputs.filter _
  unfold matchOutput
  cases hexact : outputs.filter (isExact geometry) with
  | nil => simp [hexact] at hin
  | cons first others =>
    cases others with
    | nil =>
      rw [hexact, List.mem_singleton] at hin
      subst hin
      refine ⟨?_, fun _ => rfl⟩
      rintro ⟨other, hother, hne, hp⟩
      have hsame : other ∈ [output] := hexact ▸ List.mem_filter.mpr ⟨hother, hp⟩
      exact absurd (List.mem_singleton.mp hsame) hne
    | cons second others =>
      refine ⟨fun _ => rfl, fun hall => ?_⟩
      have hall : ∀ other ∈ first :: second :: others, other = output := by
        intro other hother
        rw [← hexact, List.mem_filter] at hother
        exact hall other hother.1 hother.2
      rw [hexact, List.nodup_cons] at hnodup
      have hsame : first = second :=
        (hall first List.mem_cons_self).trans (hall second (by simp)).symm
      exact absurd (by simp [hsame]) hnodup.1

end Matching

/-- No output is given to two screens if and only if no two screens have the size of exactly
one output. -/
theorem unshared_iff (screens : Screens) (outputs : Outputs) :
    (∀ g ∈ screens.geometries, ∀ g' ∈ screens.geometries,
      matchOutput g screens.geometries.length outputs.records ≠ "" →
      matchOutput g screens.geometries.length outputs.records =
        matchOutput g' screens.geometries.length outputs.records → g = g') ↔
      ¬ Ambiguous screens outputs := by
  constructor
  · rintro hunshared ⟨g, hg, g', hg', hne, hsize, hlength⟩
    obtain ⟨output, hsame⟩ := List.length_eq_one_iff.mp hlength
    have hmem : output ∈ outputs.records :=
      List.mem_of_mem_filter (hsame ▸ List.mem_singleton_self output)
    have hfirst := matchOutput_sameSize (n := screens.geometries.length) hsame
    have hsecond := matchOutput_sameSize (n := screens.geometries.length)
      (hsize ▸ hsame)
    refine hne (hunshared g hg g' hg' ?_ (hfirst.trans hsecond.symm))
    rw [hfirst]
    exact outputs.named output hmem
  · intro hclear g hg g' hg' hnamed hsame
    by_contra hne
    obtain ⟨output, hmem, hname, hfirst⟩ := matchOutput_cases hnamed
    obtain ⟨output', hmem', hname', hsecond⟩ := matchOutput_cases (hsame ▸ hnamed)
    obtain rfl : output = output' :=
      List.inj_on_of_nodup_map outputs.distinct hmem hmem' (by rw [← hname, hsame, hname'])
    have hmany : screens.geometries.length ≠ 1 := by
      intro hone
      obtain ⟨only, honly⟩ := List.length_eq_one_iff.mp hone
      rw [honly, List.mem_singleton] at hg hg'
      exact hne (hg.trans hg'.symm)
    obtain ⟨hsize, hfirst⟩ := hfirst.resolve_left hmany
    obtain ⟨hsize', hsecond⟩ := hsecond.resolve_left hmany
    refine hclear ⟨g, hg, g', hg', hne, hsize.symm.trans hsize', ?_⟩
    rcases hfirst with hfirst | hfirst
    · rcases hsecond with hsecond | hsecond
      · exact absurd (hfirst.symm.trans hsecond) hne
      · rw [← hsize, hsize', hsecond]
        rfl
    · rw [hfirst]
      rfl

/-! ## Surfaces -/

inductive Phase
  | enter | move | leave
  deriving DecidableEq, Repr

/-- A phase with its position in the surface. -/
structure Forwarded where
  phase : Phase
  x : Rat
  y : Rat
  deriving DecidableEq, Repr

/-- `geometry` is that of the window; nothing is forwarded without a `root`. -/
structure Surface where
  screen : Rect
  desktopLevel : Bool
  root : Bool
  geometry : Rect
  outputName : String
  covering : Bool
  pointerInside : Bool
  forwarded : List Forwarded
  deriving DecidableEq, Repr

def kwePlugin : String := "org.kde.kwe.wallpaper"

/-- Half a size, rounded away from zero. -/
def half (size : Int) : Int := if 0 ≤ size then (size + 1) / 2 else -((1 - size) / 2)

/-- A window covers its screen, or a quarter of it when it is an ordinary one. -/
def windowGeometry (screen : Rect) (desktopLevel : Bool) : Rect :=
  if desktopLevel then screen
  else ⟨screen.x + 40, screen.y + 40, half screen.width, half screen.height⟩

/-- `contains` of one side; its ends count. -/
def isBetween (start size : Int) (position : Rat) : Bool :=
  decide (size ≠ 0) && decide (min start (start + size) ≤ position) &&
    decide (position ≤ max start (start + size))

def Rect.contains (r : Rect) (x y : Rat) : Bool :=
  isBetween r.x r.width x && isBetween r.y r.height y

namespace Surface

def new (desktopLevel root : Bool) (screen : Rect) : Surface where
  screen := screen
  desktopLevel := desktopLevel
  root := root
  geometry := windowGeometry screen desktopLevel
  outputName := ""
  covering := false
  pointerInside := false
  forwarded := []

def syncGeometry (s : Surface) : Surface :=
  { s with geometry := windowGeometry s.screen s.desktopLevel }

def forwardPointer (s : Surface) (phase : Phase) (x y : Rat) : Surface :=
  if s.root then { s with forwarded := s.forwarded ++ [⟨phase, x, y⟩] } else s

def pointerLeft (s : Surface) : Surface :=
  if s.pointerInside then
    { s with pointerInside := false }.forwardPointer .leave (1 / 2) (1 / 2)
  else s

/-- The plugin of the first output of this name covers the screen. -/
def covers (outputName : String) (outputs : List OutputRecord) : Bool :=
  decide (outputName ≠ "") &&
    (outputs.find? (·.name = outputName)).any (·.wallpaperPlugin = kwePlugin)

def applyOutputs (screenCount : Nat) (outputs : List OutputRecord) (available : Bool)
    (s : Surface) : Surface :=
  let outputName := if available then matchOutput s.screen screenCount outputs else ""
  let s := { s with outputName := outputName }
  if covers outputName outputs = s.covering then s
  else if covers outputName outputs then { s with covering := true }.syncGeometry
  else { s with covering := false }.pointerLeft

/-- `visible` as the window is. -/
def forwardGlobalPointer (visible : Bool) (x y : Rat) (s : Surface) : Surface :=
  if !s.covering || !visible then s
  else if !s.geometry.contains x y then s.pointerLeft
  else
    { s.forwardPointer (if s.pointerInside then .move else .enter)
        ((x - s.geometry.x) / s.geometry.width) ((y - s.geometry.y) / s.geometry.height) with
      pointerInside := true }

end Surface

/-- The surfaces and the watcher of the outputs. -/
structure World where
  surfaces : List Surface
  available : Bool
  outputs : Outputs

namespace World

def noOutputs : Outputs := ⟨[], nofun, List.nodup_nil⟩

def start (screens : Screens) (desktopLevel root : Bool) : World where
  surfaces := screens.geometries.map (Surface.new desktopLevel root)
  available := false
  outputs := noOutputs

def reapply (w : World) : World :=
  { w with
    surfaces := w.surfaces.map
      (Surface.applyOutputs w.surfaces.length w.outputs.records w.available) }

/-- The surfaces are told when the service comes or goes, then when outputs differ. -/
def finish (w : World) (ok : Bool) (outputs : Outputs) : World :=
  let w := if ok ≠ w.available then { w with available := ok }.reapply else w
  if outputs.records ≠ w.outputs.records then { w with outputs := outputs }.reapply else w

end World

inductive Event
  /-- The service answers with its outputs, none if it cannot tell. -/
  | answered (outputs : Outputs)
  | failed
  /-- A position of the pointer, and which windows are visible. -/
  | pointer (x y : Rat) (visible : Rect → Bool)

def World.step (w : World) : Event → World
  | .answered outputs => w.finish true outputs
  | .failed => w.finish false noOutputs
  | .pointer x y visible =>
    { w with surfaces := w.surfaces.map fun s => s.forwardGlobalPointer (visible s.screen) x y }

/-! ## Strokes -/

/-- Each stroke is an enter, any moves and a leave; the last one may not be over. -/
inductive Strokes : List Phase → Bool → Prop
  | none : Strokes [] false
  | enter {phases : List Phase} : Strokes phases false → Strokes (phases ++ [.enter]) true
  | move {phases : List Phase} : Strokes phases true → Strokes (phases ++ [.move]) true
  | leave {phases : List Phase} : Strokes phases true → Strokes (phases ++ [.leave]) false

/-- The phases are strokes, over when the surface does not cover its screen. -/
structure Surface.Stroked (s : Surface) : Prop where
  strokes : Strokes (s.forwarded.map (·.phase)) (s.root && s.pointerInside)
  left : s.covering = false → s.pointerInside = false

namespace Surface.Stroked

variable {s : Surface}

theorem new (desktopLevel root : Bool) (screen : Rect) :
    (Surface.new desktopLevel root screen).Stroked where
  strokes := by simpa [Surface.new] using Strokes.none
  left _ := rfl

theorem pointerLeft
    (h : Strokes (s.forwarded.map (·.phase)) (s.root && s.pointerInside)) :
    s.pointerLeft.Stroked := by
  unfold Surface.pointerLeft
  split
  next hinside =>
    unfold Surface.forwardPointer
    dsimp only
    split
    next hroot =>
      refine ⟨?_, fun _ => rfl⟩
      rw [hroot, hinside] at h
      simpa [hroot] using h.leave
    next hroot => exact ⟨by simpa [hroot] using h, fun _ => rfl⟩
  next hinside => exact ⟨h, fun _ => by simpa using hinside⟩

theorem applyOutputs (h : s.Stroked) (n : Nat) (outputs : List OutputRecord) (available : Bool) :
    (s.applyOutputs n outputs available).Stroked := by
  unfold Surface.applyOutputs
  generalize (if available then matchOutput s.screen n outputs else "") = outputName
  dsimp only
  split
  · exact ⟨h.strokes, h.left⟩
  · split
    · exact ⟨h.strokes, nofun⟩
    · exact pointerLeft h.strokes

theorem forwardGlobalPointer (h : s.Stroked) (visible : Bool) (x y : Rat) :
    (s.forwardGlobalPointer visible x y).Stroked := by
  unfold Surface.forwardGlobalPointer
  split
  · exact h
  next hcovering =>
    have hcovering : s.covering = true := by
      simp only [Bool.or_eq_true, not_or, Bool.not_eq_true', Bool.not_eq_false] at hcovering
      exact hcovering.1
    split
    · exact pointerLeft h.strokes
    · have hstrokes := h.strokes
      unfold Surface.forwardPointer
      split
      next hroot =>
        refine ⟨?_, by simp [hcovering]⟩
        cases hinside : s.pointerInside with
        | true =>
          rw [hroot, hinside] at hstrokes
          simpa [hroot, hinside] using hstrokes.move
        | false =>
          rw [hroot, hinside] at hstrokes
          simpa [hroot, hinside] using hstrokes.enter
      next hroot => exact ⟨by simpa [hroot] using hstrokes, by simp [hcovering]⟩

end Surface.Stroked

/-! ## Runs -/

theorem forwardPointer_name (s : Surface) (phase : Phase) (x y : Rat) :
    (s.forwardPointer phase x y).screen = s.screen ∧
      (s.forwardPointer phase x y).outputName = s.outputName := by
  unfold Surface.forwardPointer
  split <;> exact ⟨rfl, rfl⟩

theorem pointerLeft_name (s : Surface) :
    s.pointerLeft.screen = s.screen ∧ s.pointerLeft.outputName = s.outputName := by
  unfold Surface.pointerLeft
  split
  · exact forwardPointer_name _ _ _ _
  · exact ⟨rfl, rfl⟩

theorem forwardGlobalPointer_name (s : Surface) (visible : Bool) (x y : Rat) :
    (s.forwardGlobalPointer visible x y).screen = s.screen ∧
      (s.forwardGlobalPointer visible x y).outputName = s.outputName := by
  unfold Surface.forwardGlobalPointer
  split
  · exact ⟨rfl, rfl⟩
  split
  · exact pointerLeft_name s
  · exact forwardPointer_name s _ _ _

theorem applyOutputs_name (s : Surface) (n : Nat) (outputs : List OutputRecord) (available : Bool) :
    (s.applyOutputs n outputs available).screen = s.screen ∧
      (s.applyOutputs n outputs available).outputName =
        if available then matchOutput s.screen n outputs else "" := by
  unfold Surface.applyOutputs
  generalize (if available then matchOutput s.screen n outputs else "") = outputName
  dsimp only
  split
  · exact ⟨rfl, rfl⟩
  split
  · exact ⟨rfl, rfl⟩
  · exact pointerLeft_name _

/-- Every surface has the output that its screen is matched with, none when the service is
away, and its phases are strokes. -/
structure Shown (screens : Screens) (w : World) : Prop where
  same : w.surfaces.map (·.screen) = screens.geometries
  matched : ∀ s ∈ w.surfaces, s.outputName =
    if w.available then matchOutput s.screen screens.geometries.length w.outputs.records else ""
  stroked : ∀ s ∈ w.surfaces, s.Stroked

/-- A service that is away has no outputs. -/
structure Inv (screens : Screens) (w : World) : Prop extends Shown screens w where
  away : w.available = false → w.outputs.records = []

section Run

variable {screens : Screens} {w : World}

theorem Shown.reapply (hsame : w.surfaces.map (·.screen) = screens.geometries)
    (hstroked : ∀ s ∈ w.surfaces, s.Stroked) : Shown screens w.reapply where
  same := by
    rw [← hsame, World.reapply, List.map_map]
    exact List.map_congr_left fun s _ => (applyOutputs_name s _ _ _).1
  matched := by
    intro s hs
    obtain ⟨s, -, rfl⟩ := List.mem_map.mp hs
    rw [(applyOutputs_name s _ _ _).1, (applyOutputs_name s _ _ _).2, ← hsame, List.length_map]
    rfl
  stroked := by
    intro s hs
    obtain ⟨s, hmem, rfl⟩ := List.mem_map.mp hs
    exact (hstroked s hmem).applyOutputs _ _ _

/-- What a reply leaves is shown, whether the surfaces are told or nothing differs. -/
theorem Shown.finish (h : Shown screens w) (ok : Bool) (outputs : Outputs) :
    Shown screens (w.finish ok outputs) ∧ (w.finish ok outputs).available = ok ∧
      (w.finish ok outputs).outputs.records = outputs.records := by
  have htold : ∃ told, told = (if ok ≠ w.available then { w with available := ok }.reapply else w) ∧
      Shown screens told ∧ told.available = ok := by
    refine ⟨_, rfl, ?_⟩
    split
    next => exact ⟨Shown.reapply h.same h.stroked, rfl⟩
    next hsame => exact ⟨h, (not_not.mp hsame).symm⟩
  obtain ⟨told, heq, hshown, havailable⟩ := htold
  simp only [World.finish, ← heq]
  split
  next => exact ⟨Shown.reapply hshown.same hshown.stroked, havailable, rfl⟩
  next hsame => exact ⟨hshown, havailable, (not_not.mp hsame).symm⟩

theorem Inv.step (h : Inv screens w) (event : Event) : Inv screens (w.step event) := by
  cases event with
  | answered outputs =>
    obtain ⟨hshown, havailable, -⟩ := h.toShown.finish true outputs
    exact { hshown with away := fun haway => absurd (havailable.symm.trans haway) (by decide) }
  | failed =>
    obtain ⟨hshown, -, hrecords⟩ := h.toShown.finish false World.noOutputs
    exact { hshown with away := fun _ => hrecords }
  | pointer x y visible =>
    refine { same := ?_, matched := ?_, stroked := ?_, away := h.away }
    · rw [← h.same, World.step, List.map_map]
      exact List.map_congr_left fun s _ => (forwardGlobalPointer_name s _ _ _).1
    · intro s hs
      obtain ⟨s, hmem, rfl⟩ := List.mem_map.mp hs
      rw [(forwardGlobalPointer_name s _ _ _).1, (forwardGlobalPointer_name s _ _ _).2]
      exact h.matched s hmem
    · intro s hs
      obtain ⟨s, hmem, rfl⟩ := List.mem_map.mp hs
      exact (h.stroked s hmem).forwardGlobalPointer _ _ _

theorem start_inv (screens : Screens) (desktopLevel root : Bool) :
    Inv screens (World.start screens desktopLevel root) where
  same := by
    rw [World.start, List.map_map]
    exact List.map_id _
  matched := by
    intro s hs
    obtain ⟨screen, -, rfl⟩ := List.mem_map.mp hs
    rfl
  stroked := by
    intro s hs
    obtain ⟨screen, -, rfl⟩ := List.mem_map.mp hs
    exact Surface.Stroked.new desktopLevel root screen
  away _ := rfl

/-- A service that is away matches nothing. -/
theorem Inv.outputName (h : Inv screens w) {s : Surface} (hs : s ∈ w.surfaces) :
    s.outputName = matchOutput s.screen screens.geometries.length w.outputs.records := by
  rw [h.matched s hs]
  split
  next => rfl
  next haway =>
    rw [h.away (by simpa using haway)]
    simp [matchOutput]

/-- No output is shown on two surfaces. -/
def Unshared (w : World) : Prop :=
  ∀ s ∈ w.surfaces, ∀ t ∈ w.surfaces, s.outputName ≠ "" → s.outputName = t.outputName →
    s.screen = t.screen

theorem Inv.unshared_iff (h : Inv screens w) : Unshared w ↔ ¬ Ambiguous screens w.outputs := by
  rw [← Surfaces.unshared_iff]
  constructor
  · intro hunshared g hg g' hg' hnamed hsame
    rw [← h.same] at hg hg'
    obtain ⟨s, hs, rfl⟩ := List.mem_map.mp hg
    obtain ⟨t, ht, rfl⟩ := List.mem_map.mp hg'
    rw [← h.outputName hs, ← h.outputName ht] at hsame
    rw [← h.outputName hs] at hnamed
    exact hunshared s hs t ht hnamed hsame
  · intro hmatched s hs t ht hnamed hsame
    rw [h.outputName hs] at hnamed
    rw [h.outputName hs, h.outputName ht] at hsame
    exact hmatched s.screen (h.same ▸ List.mem_map_of_mem hs) t.screen
      (h.same ▸ List.mem_map_of_mem ht) hnamed hsame

end Run

/-- **Surfaces.**  In every run no output is shown on two screens if and only if no two screens
have the size of exactly one output; a screen whose output is current has it, or none where
another one is in the same place; and the phases of every surface are strokes, over when it
does not cover its screen. -/
theorem surfaces_matched_iff (screens : Screens) (desktopLevel root : Bool) (events : List Event) :
    let w := run World.step (World.start screens desktopLevel root) events
    (Unshared w ↔ ¬ Ambiguous screens w.outputs) ∧
      (∀ s ∈ w.surfaces, ∀ output ∈ w.outputs.records, isExact s.screen output = true →
        ((∃ other ∈ w.outputs.records, other ≠ output ∧ isExact s.screen other = true) →
          s.outputName = "") ∧
        ((∀ other ∈ w.outputs.records, isExact s.screen other = true → other = output) →
          s.outputName = output.name)) ∧
      ∀ s ∈ w.surfaces, s.Stroked := by
  intro w
  have hinv : Inv screens w :=
    invariant_run_all (I := Inv screens) (fun _ event h => h.step event)
      (start_inv screens desktopLevel root) events
  refine ⟨hinv.unshared_iff, ?_, hinv.stroked⟩
  intro s hs output houtput hcurrent
  rw [hinv.outputName hs]
  exact matchOutput_current (List.Nodup.of_map _ w.outputs.distinct) houtput hcurrent

/-- Two displays beside each other. -/
def displays : Screens := ⟨[⟨0, 0, 1920, 1080⟩, ⟨1920, 0, 1920, 1080⟩], by decide⟩

/-- The first display is current; the second one has no geometry and another wallpaper. -/
def reported : Outputs where
  records := [⟨"left", ⟨0, 0, 1920, 1080⟩, true, kwePlugin⟩,
    ⟨"right", ⟨0, 0, 0, 0⟩, false, "org.kde.image"⟩]
  named := by decide
  distinct := by decide

/-- Both screens are taken for the first display, and covered. -/
theorem output_shared :
    (run World.step (World.start displays true true) [.answered reported]).surfaces.map
      (fun s => (s.outputName, s.covering)) = [("left", true), ("left", true)] := by
  decide +kernel

end Kwe.Display.Surfaces
