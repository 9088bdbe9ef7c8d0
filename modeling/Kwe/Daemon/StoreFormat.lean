import Kwe.Daemon.Stores
import Kwe.Playlists.StateFormat

/-!
The texts of the two stores as `to_vec_pretty` lays them out, and the codecs that write
them and read them back.
-/

namespace Kwe.Daemon

open Foundation Kwe.Supervisor
open Playlists (field optionalText ofList_toList isDigit_comma expect_braces expect_brace
  expect_brackets expect_bracket expect_false)
open Std (ExtTreeMap)

def rendererKindOf (name : String) : RendererKind :=
  if name = "test" then .test
  else if name = "video" then .video
  else if name = "web" then .web
  else .scene

theorem rendererKindOf_asStr (kind : RendererKind) : rendererKindOf kind.asStr = kind := by
  cases kind <;> rfl

def scalingName : ScalingMode → String
  | .aspect => "aspect"
  | .fill => "fill"
  | .stretch => "stretch"

def scalingOf (name : String) : ScalingMode :=
  if name = "aspect" then .aspect else if name = "fill" then .fill else .stretch

theorem scalingOf_name (mode : ScalingMode) : scalingOf (scalingName mode) = mode := by
  cases mode <;> rfl

section Text

open Foundation.Format

def u32Text (stop : Char) (h : stop.isDigit = false) : Format UInt32 :=
  (digits stop h).iso UInt32.toNat UInt32.ofNat fun _ => UInt32.ofNat_toNat

def u64Text (stop : Char) (h : stop.isDigit = false) : Format UInt64 :=
  (digits stop h).iso UInt64.toNat UInt64.ofNat fun _ => UInt64.ofNat_toNat

def limitationsText : Format (List String) :=
  list "[],".toList "[\n        ".toList ",\n        ".toList "\n      ],".toList quoted
    expect_brackets expect_bracket

/-- A field, at the indentation of the fields of a previous wallpaper. -/
def innerField {α : Type} (name : String) (f : Format α) : Format α :=
  f.before ("\n        \"".toList ++ name.toList ++ "\": ".toList)

def configGroupText : Format (List String) :=
  list "[],".toList "[\n          ".toList ",\n          ".toList "\n        ],".toList quoted
    (fun _ => rfl) (fun _ => rfl)

/-- An optional string that ends an object. -/
def lastOptionalText : Format (Option String) :=
  optional "null\n".toList (quoted.after "\n".toList)
    (avoids_after _ (avoids_quoted (c := 'n') "ull\n".toList (by decide)))

def previousText : Format PreviousWallpaper :=
  ((((innerField "wallpaper_plugin" (quoted.after ",".toList)).seq <|
    (innerField "config_group" configGroupText).seq <|
    innerField "image" lastOptionalText).iso
    (fun (p : PreviousWallpaper) => (p.wallpaperPlugin, p.configGroup, p.image))
    (fun p => ⟨p.1, p.2.1, p.2.2⟩)
    fun _ => rfl).after "      \x7d\n".toList).before "\x7b".toList

def assignmentText : Format Assignment :=
  (((field "wallpaper_id" (quoted.after ",".toList)).seq <|
    (field "kind" ((quoted.after ",".toList).iso RendererKind.asStr rendererKindOf
      rendererKindOf_asStr)).seq <|
    (field "content" (quoted.after ",".toList)).seq <|
    (field "width" (u32Text ',' isDigit_comma)).seq <|
    (field "height" (u32Text ',' isDigit_comma)).seq <|
    (field "fps" (u32Text ',' isDigit_comma)).seq <|
    (field "scaling" ((quoted.after ",".toList).iso scalingName scalingOf scalingOf_name)).seq <|
    (field "capability_limitations" limitationsText).seq <|
    (field "applied_at_unix_seconds" (u64Text ',' isDigit_comma)).seq <|
    field "previous" (optional "null\n".toList previousText
      (avoids_before _ fun _ => rfl))).iso
    (fun (a : Assignment) => (a.wallpaperId, a.kind, a.content, a.width, a.height, a.fps,
      a.scaling, a.capabilityLimitations, a.appliedAtUnixSeconds, a.previous))
    (fun p => ⟨p.1, p.2.1, p.2.2.1, p.2.2.2.1, p.2.2.2.2.1, p.2.2.2.2.2.1, p.2.2.2.2.2.2.1,
      p.2.2.2.2.2.2.2.1, p.2.2.2.2.2.2.2.2.1, p.2.2.2.2.2.2.2.2.2⟩)
    fun _ => rfl).after "    \x7d".toList

def grantText : Format Grant :=
  (((field "network" (flag "true,".toList "false,".toList expect_false)).seq <|
    (field "audio" (flag "true,".toList "false,".toList expect_false)).seq <|
    field "pointer" (flag "true\n".toList "false\n".toList fun _ => rfl)).iso
    (fun (g : Grant) => (g.network, g.audio, g.pointer))
    (fun p => ⟨p.1, p.2.1, p.2.2⟩)
    fun _ => rfl).after "    \x7d".toList

/-- The records of a map, under their keys. -/
def recordsText {β : Type} (f : Format β) : Format (ExtTreeMap String β) :=
  (list "\x7b\x7d".toList "\x7b\n    ".toList ",\n    ".toList "\n  \x7d".toList
    ((quoted.after ": \x7b".toList).seq f) expect_braces expect_brace).iso
    (fun (m : ExtTreeMap String β) => m.toList) (fun l => ExtTreeMap.ofList l compare) ofList_toList

/-- A file of this schema: its version and a map. -/
def fileText {β : Type} (name : String) (f : Format β) :
    Format (UInt32 × ExtTreeMap String β) :=
  (((u32Text ',' isDigit_comma).before "\x7b\n  \"schema_version\": ".toList).seq
    ((recordsText f).before ("\n  \"".toList ++ name.toList ++ "\": ".toList))).after
    "\n\x7d".toList

def assignmentsText : Format PersistedAssignments :=
  (fileText "outputs" assignmentText).iso (fun (s : PersistedAssignments) => (s.schemaVersion, s.outputs))
    (fun p => ⟨p.1, p.2⟩) fun _ => rfl

def grantsText : Format PersistedGrants :=
  (fileText "grants" grantText).iso (fun (s : PersistedGrants) => (s.schemaVersion, s.grants))
    (fun p => ⟨p.1, p.2⟩) fun _ => rfl

end Text

/-- The codec of a text; it reads nothing but such texts. -/
def codecOf {σ : Type} (f : Format σ) : Codec σ where
  toVecPretty s := (String.ofList (f.write s)).toUTF8
  fromSlice bytes :=
    match bytes.utf8Decode?.bind fun text => f.read text.toList with
    | some (s, []) => some s
    | _ => none

theorem codecOf_roundTrip {σ : Type} (f : Format σ) : (codecOf f).RoundTrip := by
  intro s
  have hread := f.read_write s []
  rw [List.append_nil] at hread
  simp [codecOf, List.utf8Decode?_utf8Encode, hread]

theorem size_codecOf_le {σ : Type} (f : Format σ) (s : σ) :
    ((codecOf f).toVecPretty s).size ≤ 4 * (f.write s).length :=
  Playlists.size_utf8_le _

/-- Records of bounded text make a file of bounded size. -/
theorem length_fileText_le {β : Type} {name : String} {f : Format β} {m : ExtTreeMap String β}
    {n : Nat} (hname : name.length ≤ 20)
    (h : ∀ entry ∈ m.toList,
      (((Format.quoted.after ": \x7b".toList).seq f).write entry).length ≤ n) :
    ((fileText name f).write (1, m)).length ≤ 100 + m.size * (6 + n) := by
  have hlist : ((recordsText f).write m).length ≤ 2 + 6 + 4 + m.toList.length * (6 + n) :=
    Format.length_list_le (fun _ => rfl) (fun _ => rfl) h
  have hversion : ((u32Text ',' isDigit_comma).write 1).length = 2 := by decide
  have hwords : "\x7b\n  \"schema_version\": ".toList.length + "\n  \"".toList.length +
      "\": ".toList.length + "\n\x7d".toList.length ≤ 48 := by decide
  rw [ExtTreeMap.length_toList] at hlist
  simp only [fileText, Format.write_seq, Format.write_after, Format.write_before,
    List.length_append, hversion, String.length_toList] at hwords ⊢
  omega

end Kwe.Daemon
