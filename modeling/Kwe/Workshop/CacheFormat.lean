import Kwe.Playlists.StateFormat
import Kwe.Workshop.Cache

/-!
The text of the cache file as `to_vec_pretty` lays it out, and the codec that
writes it and reads it back.
-/

namespace Kwe.Workshop

open Foundation
open Playlists (field optionalText ofList_toList isDigit_comma expect_braces expect_brace
  expect_brackets expect_bracket expect_false)
open Std (ExtTreeMap)

def ProjectKind.name : ProjectKind → String
  | .scene => "scene"
  | .video => "video"
  | .web => "web"
  | .unknown => "unknown"
  | .invalid => "invalid"

def ProjectKind.ofName (name : String) : ProjectKind :=
  if name = "scene" then .scene
  else if name = "video" then .video
  else if name = "web" then .web
  else if name = "unknown" then .unknown
  else .invalid

theorem ProjectKind.ofName_name (kind : ProjectKind) : ofName kind.name = kind := by
  cases kind <;> rfl

section Text

open Foundation.Format

def kindText : Format ProjectKind :=
  (quoted.after ",".toList).iso ProjectKind.name ProjectKind.ofName ProjectKind.ofName_name

def tagsText : Format (List String) :=
  list "[],".toList "[\n        ".toList ",\n        ".toList "\n      ],".toList quoted
    expect_brackets expect_bracket

def progressText : Format (Option UInt8) :=
  optional "null,".toList
    ((digits ',' isDigit_comma).iso UInt8.toNat UInt8.ofNat fun _ => UInt8.ofNat_toNat)
    (avoids_iso _ _ _ (avoids_digits (c := 'n') "ull,".toList rfl ',' isDigit_comma))

def cachedItemText : Format CachedItem :=
  (((field "title" (quoted.after ",".toList)).seq <|
    (field "kind" kindText).seq <|
    (field "tags" tagsText).seq <|
    (field "preview_present" (flag "true,".toList "false,".toList expect_false)).seq <|
    (field "metadata_hash" optionalText).seq <|
    (field "workshop_state" (quoted.after ",".toList)).seq <|
    (field "workshop_progress" progressText).seq <|
    field "last_seen_unix_ms" ((digits '\n' rfl).iso Fin.val (Fin.ofNat (2 ^ 128))
      fun t => Fin.ofNat_val_eq_self t)).iso
    (fun (e : CachedItem) => (e.title, e.kind, e.tags, e.previewPresent, e.metadataHash,
      e.workshopState, e.workshopProgress, e.lastSeenUnixMs))
    (fun p => ⟨p.1, p.2.1, p.2.2.1, p.2.2.2.1, p.2.2.2.2.1, p.2.2.2.2.2.1, p.2.2.2.2.2.2.1,
      p.2.2.2.2.2.2.2⟩)
    fun _ => rfl).after "    \x7d".toList

def itemsText : Format (List (String × CachedItem)) :=
  list "\x7b\x7d".toList "\x7b\n    ".toList ",\n    ".toList "\n  \x7d".toList
    ((quoted.after ": \x7b".toList).seq cachedItemText) expect_braces expect_brace

def cacheText : Format PersistedCache :=
  ((((digits ',' isDigit_comma).before "\x7b\n  \"schema_version\": ".toList).seq <|
    (itemsText.iso (fun (items : Items) => items.toList)
      (fun l => ExtTreeMap.ofList l compare) ofList_toList).before "\n  \"items\": ".toList).iso
    (fun (c : PersistedCache) => (c.schemaVersion, c.items))
    (fun p => ⟨p.1, p.2⟩)
    fun _ => rfl).after "\n\x7d".toList

end Text

/-- A codec for the text of a cache; it reads nothing but such texts. -/
def serdeCodec : Codec where
  toVecPretty cache := (String.ofList (cacheText.write cache)).toUTF8
  fromSlice bytes :=
    match bytes.utf8Decode?.bind fun text => cacheText.read text.toList with
    | some (cache, []) => some cache
    | _ => none

theorem serdeCodec_roundTrip : serdeCodec.RoundTrip := by
  intro cache
  have hread := cacheText.read_write cache []
  rw [List.append_nil] at hread
  simp [serdeCodec, List.utf8Decode?_utf8Encode, hread]

theorem size_encodeState_le {items : Items} {n : Nat}
    (h : (cacheText.write ⟨cacheSchemaVersion, items⟩).length ≤ n) :
    (encodeState serdeCodec items).size ≤ 4 * n :=
  Nat.le_trans (Playlists.size_utf8_le _) (Nat.mul_le_mul_left 4 h)

end Kwe.Workshop
