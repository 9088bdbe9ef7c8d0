import Kwe.Frames.Header
import Kwe.Supervisor.Model

/-!
The size of the frames of an apply: the size that the request is validated with,
and the size that the output gives afterwards.

* `frameSizeFor_fits_iff`: the requests whose second size keeps the limits that
  the first was checked against.
-/

namespace Kwe.Apply

open Foundation.Checks Kwe.Frames Kwe.Supervisor

/-- `MAX_SUPERVISED_MAPPING_BYTES`. -/
def maxSupervisedMappingBytes : Nat := 128 * 1024 * 1024

/-- `MAX_CONTENT_CHARS`. -/
def maxContentChars : Nat := 4096

/-- `MAX_FRAME_EDGE`. -/
def maxFrameEdge : Nat := 2560

/-- `MIN_FRAME_EDGE`. -/
def minFrameEdge : Nat := 64

def defaultApplyWidth : Nat := 960

def defaultApplyHeight : Nat := 540

/-! ## The request -/

/-- The parameters of an apply that its spec is built from. -/
structure ApplyWallpaperParams where
  wallpaperId : String
  kind : RendererKind
  content : Option String
  width : Option Nat
  height : Option Nat
  fps : Nat
  scaling : ScalingMode

/-- A spec that is not validated yet.  An apply leaves `test_fault` and
`stderr_lines` empty. -/
structure Draft where
  wallpaperId : String
  contentHash : String
  width : Nat
  height : Nat
  fps : Nat
  kind : RendererKind
  content : Option ContentSpec
  scaling : ScalingMode
  capabilityLimitations : List String

structure PreflightReport where
  safe : Bool
  reasons : List String

/-- What the content on disk answers. -/
structure Disk where
  preflight : ContentSpec → PreflightReport
  canonicalize : String → Except String String

inductive ApplyError
  | invalid (detail : String)
  | protocol (e : ProtocolError)
  deriving DecidableEq

def ContentSpec.kind : ContentSpec → RendererKind
  | .video _ => .video
  | .web _ => .web
  | .scene _ => .scene

def ContentSpec.path : ContentSpec → String
  | .video path => path
  | .web root => root
  | .scene path => path

/-- The content of a spec: of the kind of the spec, and safe. -/
def Draft.validateContent (spec : Draft) (disk : Disk) : Except ApplyError Unit :=
  match spec.content with
  | none =>
    if spec.kind = .test then .ok ()
    else .error (.invalid ("renderer kind " ++ spec.kind.asStr ++
      " requires matching content (test takes none)"))
  | some content =>
    if ContentSpec.kind content ≠ spec.kind then
      .error (.invalid ("renderer kind " ++ spec.kind.asStr ++
        " requires matching content (test takes none)"))
    else if (disk.preflight content).safe then .ok ()
    else .error (.invalid (spec.kind.asStr ++ " preflight rejected " ++ ContentSpec.path content ++
      ": " ++ "; ".intercalate (disk.preflight content).reasons))

/-- `StartSpec::validate`. -/
def Draft.validate (spec : Draft) (disk : Disk) : Except ApplyError Unit := do
  (validateIdentityPart "wallpaper_id" spec.wallpaperId).mapError .invalid
  (validateIdentityPart "content_hash" spec.contentHash).mapError .invalid
  let frameSpec ← (FrameSpec.new spec.width spec.height).mapError .protocol
  if maxSupervisedMappingBytes < frameSpec.fileBytes then
    .error (.invalid "supervised frame mapping exceeds 128 MiB safety budget")
  else if ¬(1 ≤ spec.fps ∧ spec.fps ≤ 240) then .error (.invalid "fps must be in 1..=240")
  else spec.validateContent disk

/-- `StartSpec::into_validated`: the path of a video is resolved. -/
def Draft.intoValidated (spec : Draft) (disk : Disk) : Except ApplyError Draft := do
  spec.validate disk
  match spec.content with
  | some (.video path) =>
    let resolved ← (disk.canonicalize path).mapError .invalid
    .ok { spec with content := some (.video resolved) }
  | _ => .ok spec

def contentSpecFor (kind : RendererKind) (path : String) : Option ContentSpec :=
  match kind with
  | .video => some (.video path)
  | .web => some (.web path)
  | .scene => some (.scene path)
  | .test => none

def ApplyWallpaperParams.draft (params : ApplyWallpaperParams) (content : Option ContentSpec) :
    Draft where
  wallpaperId := params.wallpaperId
  contentHash := "pending"
  width := params.width.getD defaultApplyWidth
  height := params.height.getD defaultApplyHeight
  fps := params.fps
  kind := params.kind
  content := content
  scaling := params.scaling
  capabilityLimitations := []

def buildApplySpec (params : ApplyWallpaperParams) (disk : Disk) : Except ApplyError Draft :=
  if params.kind = .test then
    .error (.invalid "wallpaper.apply does not accept the test renderer kind")
  else match params.content with
  | none => .ok (params.draft none)
  | some path =>
    if path.length = 0 ∨ maxContentChars < path.length then
      .error (.invalid "content path must be 1..=4096 characters")
    else (params.draft (contentSpecFor params.kind path)).intoValidated disk

/-- The spec of an apply once the catalog has named the content. -/
def applySpec (params : ApplyWallpaperParams) (catalogContent : String) (disk : Disk) :
    Except ApplyError Draft := do
  let spec ← buildApplySpec params disk
  if maxContentChars < catalogContent.length then
    .error (.invalid "catalog content path exceeds 4096 characters")
  else Draft.intoValidated { spec with content := contentSpecFor params.kind catalogContent } disk

/-! ## The size of the output -/

/-- The rectangle of an output: its place, its width and its height. -/
structure Geometry where
  x : Int32
  y : Int32
  width : Int32
  height : Int32
  deriving DecidableEq, Repr

/-- One edge of the output, scaled down with the longer one when that is too
long.  The products of two such numbers fit 64 bits. -/
def scaledEdge (long edge : Nat) : Nat :=
  let edge := if maxFrameEdge < long then edge * maxFrameEdge / long / 2 * 2 else edge
  max minFrameEdge (min edge maxFrameEdge)

def frameSizeFor (width height : Option Nat) (geometry : Option Geometry) : Nat × Nat :=
  match width, height with
  | some width, some height => (width, height)
  | width, height =>
    match geometry with
    | none => (width.getD defaultApplyWidth, height.getD defaultApplyHeight)
    | some g =>
      if g.width ≤ 0 ∨ g.height ≤ 0 then
        (width.getD defaultApplyWidth, height.getD defaultApplyHeight)
      else
        let w := g.width.toInt.toNat
        let h := g.height.toInt.toNat
        (width.getD (scaledEdge (max w h) w), height.getD (scaledEdge (max w h) h))

theorem frameSizeFor_open {width height : Option Nat} (h : ¬ (width.isSome ∧ height.isSome))
    (geometry : Option Geometry) :
    frameSizeFor width height geometry =
      match geometry with
      | none => (width.getD defaultApplyWidth, height.getD defaultApplyHeight)
      | some g =>
        if g.width ≤ 0 ∨ g.height ≤ 0 then
          (width.getD defaultApplyWidth, height.getD defaultApplyHeight)
        else
          let w := g.width.toInt.toNat
          let h := g.height.toInt.toNat
          (width.getD (scaledEdge (max w h) w), height.getD (scaledEdge (max w h) h)) := by
  cases width with
  | none => rfl
  | some width =>
    cases height with
    | none => rfl
    | some height => exact absurd ⟨rfl, rfl⟩ h

/-! ## The limits -/

/-- A size that the frame protocol and the supervisor accept. -/
def FitsMapping (size : Nat × Nat) : Prop :=
  ∃ spec, FrameSpec.new size.1 size.2 = .ok spec ∧ spec.fileBytes ≤ maxSupervisedMappingBytes

/-- The pixels of a frame that two slots of the mapping have room for. -/
def pixelBudget : Nat := (maxSupervisedMappingBytes - headerBytes) / (bytesPerPixel * slotCount)

theorem fitsMapping_iff (w h : Nat) :
    FitsMapping (w, h) ↔
      (0 < w ∧ w ≤ maxDimension) ∧ (0 < h ∧ h ≤ maxDimension) ∧ w * h ≤ pixelBudget := by
  have hbytes : ∀ n, headerBytes + n * bytesPerPixel * slotCount ≤ maxSupervisedMappingBytes ↔
      n ≤ pixelBudget := by
    intro n
    have hbudget : pixelBudget = 16777208 := by decide
    have hmapping : maxSupervisedMappingBytes = 134217728 := by decide
    rw [hbudget, hmapping]
    unfold headerBytes bytesPerPixel slotCount
    omega
  constructor
  · rintro ⟨spec, hspec, hfile⟩
    obtain ⟨hw, hh, hvalid⟩ := new_ok hspec
    dsimp only at hw hh
    refine ⟨⟨hw ▸ hvalid.width_pos, hw ▸ hvalid.width_le⟩,
      ⟨hh ▸ hvalid.height_pos, hh ▸ hvalid.height_le⟩, (hbytes _).mp ?_⟩
    rw [hvalid.fileBytes_eq, hvalid.slotBytes_eq, hvalid.stride_eq, hw, hh] at hfile
    rwa [Nat.mul_right_comm w h]
  · rintro ⟨⟨hw, hw'⟩, ⟨hh, hh'⟩, hpixels⟩
    have hfile := (hbytes _).mpr hpixels
    have hvalid : FrameSpec.Valid ⟨w, h, w * bytesPerPixel, w * bytesPerPixel * h,
        headerBytes + w * bytesPerPixel * h * slotCount⟩ := by
      refine ⟨hw, hw', hh, hh', rfl, rfl, rfl, ?_⟩
      rw [Nat.mul_right_comm w bytesPerPixel]
      exact Nat.le_trans hfile (by decide)
    refine ⟨_, hvalid.new_eq, ?_⟩
    rwa [Nat.mul_right_comm w bytesPerPixel]

/-! ## The edge of the output beside a pinned one -/

/-- The longest edge that fits beside a pinned one. -/
def room (pinned : Nat) : Nat := pixelBudget / pinned

/-- The edge of an output is too long to be put beside a pinned one.  When the
output is scaled down, its edge is the even number below the scaled one. -/
def TooLong (pinned long edge : Nat) : Prop :=
  if maxFrameEdge < long then long * (2 * (room pinned / 2 + 1)) ≤ edge * maxFrameEdge
  else room pinned < edge

instance (pinned long edge : Nat) : Decidable (TooLong pinned long edge) :=
  inferInstanceAs (Decidable (if maxFrameEdge < long then
    long * (2 * (room pinned / 2 + 1)) ≤ edge * maxFrameEdge else room pinned < edge))

theorem scaledEdge_bounds (long edge : Nat) :
    minFrameEdge ≤ scaledEdge long edge ∧ scaledEdge long edge ≤ maxFrameEdge := by
  unfold scaledEdge
  exact ⟨le_max_left _ _, max_le (by decide) (min_le_right _ _)⟩

theorem scaledEdge_fits_iff {pinned long edge : Nat} (hpos : 0 < pinned)
    (hpinned : pinned ≤ maxDimension) (hlong : 0 < long) (hedge : edge ≤ long) :
    pinned * scaledEdge long edge ≤ pixelBudget ↔ ¬ TooLong pinned long edge := by
  have hmin : minFrameEdge ≤ room pinned := by
    refine (Nat.le_div_iff_mul_le hpos).mpr ?_
    exact Nat.le_trans (Nat.mul_le_mul_left _ hpinned) (by decide)
  have hroom : pinned * scaledEdge long edge ≤ pixelBudget ↔ scaledEdge long edge ≤ room pinned := by
    rw [room, Nat.le_div_iff_mul_le hpos, Nat.mul_comm]
  rw [hroom]
  unfold minFrameEdge at hmin
  by_cases hscaled : maxFrameEdge < long
  · have hle : edge * maxFrameEdge / long ≤ maxFrameEdge := by
      refine Nat.div_le_of_le_mul ?_
      exact Nat.mul_le_mul_right _ hedge
    have hlt : ¬ TooLong pinned long edge ↔
        edge * maxFrameEdge / long < 2 * (room pinned / 2 + 1) := by
      rw [TooLong, if_pos hscaled, Nat.not_le, Nat.div_lt_iff_lt_mul hlong, Nat.mul_comm long]
    rw [hlt]
    unfold scaledEdge
    simp only [if_pos hscaled]
    unfold maxFrameEdge minFrameEdge at *
    omega
  · unfold scaledEdge TooLong
    simp only [if_neg hscaled]
    unfold maxFrameEdge minFrameEdge at *
    omega

/-! ## The size that is validated -/

theorem mapError_ok {ε ε' α : Type} {x : Except ε α} {f : ε → ε'} {a : α}
    (h : x.mapError f = .ok a) : x = .ok a := by
  cases x with
  | error e => simp [Except.mapError] at h
  | ok b => simpa [Except.mapError] using h

theorem validate_fits {spec : Draft} {disk : Disk} (h : spec.validate disk = .ok ()) :
    FitsMapping (spec.width, spec.height) := by
  unfold Draft.validate at h
  obtain ⟨-, -, h⟩ := bind_ok h
  obtain ⟨-, -, h⟩ := bind_ok h
  obtain ⟨frameSpec, hnew, h⟩ := bind_ok h
  obtain ⟨hfile, -⟩ := check_ok h
  exact ⟨frameSpec, mapError_ok hnew, Nat.not_lt.mp hfile⟩

theorem intoValidated_fits {spec validated : Draft} {disk : Disk}
    (h : spec.intoValidated disk = .ok validated) : FitsMapping (spec.width, spec.height) := by
  unfold Draft.intoValidated at h
  obtain ⟨⟨⟩, hvalid, -⟩ := bind_ok h
  exact validate_fits hvalid

theorem intoValidated_size {spec validated : Draft} {disk : Disk}
    (h : spec.intoValidated disk = .ok validated) :
    validated.width = spec.width ∧ validated.height = spec.height := by
  unfold Draft.intoValidated at h
  obtain ⟨-, -, h⟩ := bind_ok h
  split at h
  next path hcontent =>
    obtain ⟨resolved, -, h⟩ := bind_ok h
    obtain rfl := Except.ok.inj h
    exact ⟨rfl, rfl⟩
  next =>
    obtain rfl := Except.ok.inj h
    exact ⟨rfl, rfl⟩

theorem buildApplySpec_size {params : ApplyWallpaperParams} {disk : Disk} {spec : Draft}
    (h : buildApplySpec params disk = .ok spec) :
    spec.width = params.width.getD defaultApplyWidth ∧
      spec.height = params.height.getD defaultApplyHeight := by
  unfold buildApplySpec at h
  obtain ⟨-, h⟩ := check_ok h
  split at h
  next =>
    obtain rfl := Except.ok.inj h
    exact ⟨rfl, rfl⟩
  next path =>
    obtain ⟨-, h⟩ := check_ok h
    exact intoValidated_size h

theorem applySpec_fits {params : ApplyWallpaperParams} {catalogContent : String} {disk : Disk}
    {spec : Draft} (h : applySpec params catalogContent disk = .ok spec) :
    FitsMapping (params.width.getD defaultApplyWidth, params.height.getD defaultApplyHeight) := by
  unfold applySpec at h
  obtain ⟨built, hbuilt, h⟩ := bind_ok h
  obtain ⟨-, h⟩ := check_ok h
  obtain ⟨hwidth, hheight⟩ := buildApplySpec_size hbuilt
  have hfits := intoValidated_fits h
  rwa [hwidth, hheight] at hfits

/-! ## The size that is used -/

/-- One edge is pinned, and that of the output is too long beside it. -/
def Misfit (width height : Option Nat) (geometry : Option Geometry) : Prop :=
  ∃ g, geometry = some g ∧ 0 < g.width ∧ 0 < g.height ∧
    let w := g.width.toInt.toNat
    let h := g.height.toInt.toNat
    (∃ pinned, width = some pinned ∧ height = none ∧ TooLong pinned (max w h) h) ∨
      ∃ pinned, width = none ∧ height = some pinned ∧ TooLong pinned (max w h) w

theorem scaledEdge_dimension (long edge : Nat) :
    0 < scaledEdge long edge ∧ scaledEdge long edge ≤ maxDimension := by
  obtain ⟨hmin, hmax⟩ := scaledEdge_bounds long edge
  exact ⟨Nat.lt_of_lt_of_le (by decide) hmin, Nat.le_trans hmax (by decide)⟩

theorem misfit_some {width height : Option Nat} {g : Geometry} (hw : 0 < g.width)
    (hh : 0 < g.height) (w h : Nat) (hw' : w = g.width.toInt.toNat)
    (hh' : h = g.height.toInt.toNat) :
    Misfit width height (some g) ↔
      (∃ pinned, width = some pinned ∧ height = none ∧ TooLong pinned (max w h) h) ∨
        ∃ pinned, width = none ∧ height = some pinned ∧ TooLong pinned (max w h) w := by
  subst hw' hh'
  constructor
  · rintro ⟨g', hg, -, -, h⟩
    obtain rfl := Option.some.inj hg
    exact h
  · intro h
    exact ⟨g, rfl, hw, hh, h⟩

theorem toNat_pos {n : Int32} (h : 0 < n) : 0 < n.toInt.toNat := by
  rw [Int32.lt_iff_toInt_lt, Int32.toInt_zero] at h
  omega

/-- What an output of `w` by `h` gives. -/
theorem outputSize_fits_iff {width height : Option Nat} {w h : Nat} (hw : 0 < w)
    (hfits : FitsMapping (width.getD defaultApplyWidth, height.getD defaultApplyHeight))
    (hopen : ¬ (width.isSome ∧ height.isSome)) :
    FitsMapping (width.getD (scaledEdge (max w h) w), height.getD (scaledEdge (max w h) h)) ↔
      ¬ ((∃ pinned, width = some pinned ∧ height = none ∧ TooLong pinned (max w h) h) ∨
        ∃ pinned, width = none ∧ height = some pinned ∧ TooLong pinned (max w h) w) := by
  have hlong : 0 < max w h := lt_max_of_lt_left hw
  have hwide := scaledEdge_dimension (max w h) w
  have hhigh := scaledEdge_dimension (max w h) h
  cases width with
  | none =>
    cases height with
    | none =>
      refine iff_of_true ((fitsMapping_iff _ _).mpr ⟨hwide, hhigh, ?_⟩) (by simp)
      exact Nat.le_trans (Nat.mul_le_mul (scaledEdge_bounds _ _).2 (scaledEdge_bounds _ _).2)
        (by decide)
    | some pinned =>
      obtain ⟨-, hpinned, -⟩ := (fitsMapping_iff _ _).mp hfits
      have hiff := scaledEdge_fits_iff hpinned.1 hpinned.2 hlong (le_max_left w h)
      rw [Nat.mul_comm] at hiff
      rw [fitsMapping_iff]
      simpa [hwide, show 0 < pinned ∧ pinned ≤ maxDimension from hpinned] using hiff
  | some pinned =>
    cases height with
    | none =>
      obtain ⟨hpinned, -, -⟩ := (fitsMapping_iff _ _).mp hfits
      have hiff := scaledEdge_fits_iff hpinned.1 hpinned.2 hlong (le_max_right w h)
      rw [fitsMapping_iff]
      simpa [hhigh, show 0 < pinned ∧ pinned ≤ maxDimension from hpinned] using hiff
    | some => exact absurd ⟨rfl, rfl⟩ hopen

/-- **The canvas.**  The size that an accepted request gets from its output
keeps the limits of the mapping, unless one edge is pinned and the other side of
the output is too long for what is left. -/
theorem frameSizeFor_fits_iff {params : ApplyWallpaperParams} {catalogContent : String}
    {disk : Disk} {spec : Draft} (hok : applySpec params catalogContent disk = .ok spec)
    (geometry : Option Geometry) :
    FitsMapping (frameSizeFor params.width params.height geometry) ↔
      ¬ Misfit params.width params.height geometry := by
  have hfits := applySpec_fits hok
  by_cases hopen : params.width.isSome ∧ params.height.isSome
  · obtain ⟨⟨w, hw⟩, ⟨h, hh⟩⟩ := And.imp Option.isSome_iff_exists.mp Option.isSome_iff_exists.mp hopen
    rw [hw, hh] at hfits ⊢
    refine iff_of_true hfits ?_
    rintro ⟨g, -, -, -, ⟨pinned, -, hnone, -⟩ | ⟨pinned, hnone, -, -⟩⟩
    · cases hnone
    · cases hnone
  rw [frameSizeFor_open hopen]
  cases geometry with
  | none =>
    refine iff_of_true hfits ?_
    rintro ⟨g, hg, -⟩
    cases hg
  | some g =>
    dsimp only
    split
    next hempty =>
      refine iff_of_true hfits ?_
      rintro ⟨g', hg, hw, hh, -⟩
      obtain rfl := Option.some.inj hg
      rcases hempty with h | h
      · exact absurd hw (Int32.not_lt.mpr h)
      · exact absurd hh (Int32.not_lt.mpr h)
    next hsize =>
      obtain ⟨hw, hh⟩ := not_or.mp hsize
      rw [Int32.not_le] at hw hh
      rw [misfit_some hw hh _ _ rfl rfl]
      exact outputSize_fits_iff (toNat_pos hw) hfits hopen

/-! ### Example requests -/

def goodDisk : Disk where
  preflight := fun _ => ⟨true, []⟩
  canonicalize := .ok

/-- A request for a video, with one edge or both pinned. -/
def videoRequest (width height : Option Nat) : ApplyWallpaperParams where
  wallpaperId := "431960-7"
  kind := .video
  content := none
  width := width
  height := height
  fps := 30
  scaling := .aspect

def landscape : Geometry := ⟨0, 0, 3840, 2160⟩

theorem videoRequest_accepted :
    (applySpec (videoRequest none (some 2160)) "/v.mp4" goodDisk).toBool = true ∧
      (applySpec (videoRequest none (some 8192)) "/v.mp4" goodDisk).toBool = true := by
  decide +kernel

theorem toBool_ok {ε α : Type} {x : Except ε α} (h : x.toBool = true) : ∃ a, x = .ok a := by
  cases x with
  | error e => cases h
  | ok a => exact ⟨a, rfl⟩

/-- On an output of 3840 by 2160, a frame of 2160 lines gets a width that fits. -/
theorem frameSizeFor_fits_landscape :
    FitsMapping (frameSizeFor none (some 2160) (some landscape)) := by
  obtain ⟨spec, hok⟩ := toBool_ok videoRequest_accepted.1
  refine (frameSizeFor_fits_iff hok (some landscape)).mpr ?_
  rintro ⟨g, hg, -, -, ⟨pinned, hnone, -⟩ | ⟨pinned, -, hpinned, hlong⟩⟩
  · cases hnone
  · obtain rfl := Option.some.inj hg
    obtain rfl := Option.some.inj hpinned
    revert hlong
    decide +kernel

/-- A frame of 8192 lines does not fit there any more, although the request was
accepted. -/
theorem frameSizeFor_overflows :
    (∃ spec, applySpec (videoRequest none (some 8192)) "/v.mp4" goodDisk = .ok spec) ∧
      ¬ FitsMapping (frameSizeFor none (some 8192) (some landscape)) := by
  refine ⟨toBool_ok videoRequest_accepted.2, fun h => ?_⟩
  rw [show frameSizeFor none (some 8192) (some landscape) = (2560, 8192) by decide,
    fitsMapping_iff] at h
  exact absurd h.2.2 (by decide)

end Kwe.Apply
