import Kwe.Foundation.Format
import Kwe.Playlists.Session

/-!
The text of a runtime-state file as `to_vec_pretty` lays it out: two spaces a
level, fields in the order of their declaration, empty lists and maps closed
at once.

* `serdeCodec`: the codec that writes this text, and reads it;
* `serdeCodec_roundTrip`: it reads every state that it wrote;
* `size_serdeCodec_le`: a bound on the size of the file.
-/

namespace Kwe.Playlists

open Foundation
open Std (ExtTreeMap)

section Text

open Foundation.Format

theorem isDigit_comma : ','.isDigit = false := rfl

/-- An object with entries is not taken for an empty one. -/
theorem expect_braces (rest : List Char) :
    expect "\x7b\x7d".toList ("\x7b\n    ".toList ++ rest) = none := rfl

/-- A further entry is not taken for the end of the object. -/
theorem expect_brace (rest : List Char) :
    expect "\n  \x7d".toList (",\n    ".toList ++ rest) = none := rfl

theorem expect_brackets (rest : List Char) :
    expect "[],".toList ("[\n        ".toList ++ rest) = none := rfl

theorem expect_bracket (rest : List Char) :
    expect "\n      ],".toList (",\n        ".toList ++ rest) = none := rfl

theorem expect_false (rest : List Char) :
    expect "false,".toList ("true,".toList ++ rest) = none := rfl

theorem avoids_null_quoted : Avoids "null,".toList (quoted.after ",".toList) :=
  avoids_after _ (avoids_quoted (c := 'n') "ull,".toList (by decide))

/-- The value of an optional string field, with the comma after it. -/
def optionalText : Format (Option String) :=
  optional "null,".toList (quoted.after ",".toList) avoids_null_quoted

def optionalNumber : Format (Option Nat) :=
  optional "null,".toList (digits ',' isDigit_comma)
    (avoids_digits (c := 'n') "ull,".toList rfl ',' isDigit_comma)

def historyText : Format (List String) :=
  list "[]".toList "[\n        ".toList ",\n        ".toList "\n      ]".toList quoted
    (fun _ => rfl) (fun _ => rfl)

/-- A field, at the indentation of a snapshot's fields. -/
def field {α : Type} (name : String) (f : Format α) : Format α :=
  f.before ("\n      \"".toList ++ name.toList ++ "\": ".toList)

def snapshotText : Format PlaylistRuntimeSnapshot :=
  (((field "schema_version" (digits ',' isDigit_comma)).seq <|
    (field "playlist_id" (quoted.after ",".toList)).seq <|
    (field "seed" ((digits ',' isDigit_comma).iso UInt64.toNat UInt64.ofNat
      fun _ => UInt64.ofNat_toNat)).seq <|
    (field "current_index" optionalNumber).seq <|
    (field "current_wallpaper_id" optionalText).seq <|
    (field "remaining_ms" optionalNumber).seq <|
    (field "paused_remaining_ms" optionalNumber).seq <|
    field "history" historyText).iso
    (fun (s : PlaylistRuntimeSnapshot) => (s.schemaVersion, s.playlistId, s.seed, s.currentIndex,
      s.currentWallpaperId, s.remainingMs, s.pausedRemainingMs, s.history))
    (fun p => ⟨p.1, p.2.1, p.2.2.1, p.2.2.2.1, p.2.2.2.2.1, p.2.2.2.2.2.1, p.2.2.2.2.2.2.1,
      p.2.2.2.2.2.2.2⟩)
    fun _ => rfl).after "\n    \x7d".toList

def entryText : Format (String × PlaylistRuntimeSnapshot) :=
  (quoted.after ": \x7b".toList).seq snapshotText

def entriesText : Format (List (String × PlaylistRuntimeSnapshot)) :=
  list "\x7b\x7d".toList "\x7b\n    ".toList ",\n    ".toList "\n  \x7d".toList entryText
    expect_braces expect_brace

theorem ofList_toList {β : Type} (m : ExtTreeMap String β) :
    ExtTreeMap.ofList m.toList compare = m := by
  have hdistinct := ExtTreeMap.distinct_keys_toList (t := m)
  refine ExtTreeMap.ext_getElem? fun id => ?_
  cases h : m[id]? with
  | some v =>
    exact ExtTreeMap.getElem?_ofList_of_mem Std.ReflCmp.compare_self hdistinct
      (ExtTreeMap.mem_toList_iff_getElem?_eq_some.mpr h)
  | none =>
    refine ExtTreeMap.getElem?_ofList_of_contains_eq_false ?_
    rw [ExtTreeMap.map_fst_toList_eq_keys, ExtTreeMap.contains_keys,
      ExtTreeMap.contains_eq_isSome_getElem?, h]
    rfl

def stateText : Format PersistedSessionState :=
  ((((digits ',' isDigit_comma).before "\x7b\n  \"schema_version\": ".toList).seq <|
    (optionalText.before "\n  \"active_playlist_id\": ".toList).seq <|
    (entriesText.iso (fun (snapshots : Snapshots) => snapshots.toList)
      (fun l => ExtTreeMap.ofList l compare) ofList_toList).before "\n  \"snapshots\": ".toList).iso
    (fun (s : PersistedSessionState) => (s.schemaVersion, s.activePlaylistId, s.snapshots))
    (fun p => ⟨p.1, p.2.1, p.2.2⟩)
    fun _ => rfl).after "\n\x7d".toList

end Text

/-- A codec for the text of a state; it reads nothing but such texts. -/
def serdeCodec : Codec where
  toVecPretty state := (String.ofList (stateText.write state)).toUTF8
  fromSlice bytes :=
    match bytes.utf8Decode?.bind fun text => stateText.read text.toList with
    | some (state, []) => .ok state
    | _ => .error "invalid runtime state"

theorem serdeCodec_roundTrip : serdeCodec.RoundTrip := by
  intro state _
  have hread := stateText.read_write state []
  rw [List.append_nil] at hread
  simp [serdeCodec, List.utf8Decode?_utf8Encode, hread]

/-! ## Size -/

theorem size_utf8_le (text : List Char) : (String.ofList text).toUTF8.size ≤ 4 * text.length := by
  rw [String.toUTF8_eq_toByteArray, String.toByteArray_ofList]
  induction text with
  | nil => simp
  | cons c text ih =>
    have hc := Char.utf8Size_le_four c
    have hcons : (c :: text).utf8Encode.size = c.utf8Size + text.utf8Encode.size := by
      simp [List.utf8Encode]
    rw [hcons, List.length_cons]
    omega

theorem size_le_of_length_le {s : String} {n : Nat} (h : s.length ≤ n) : s.utf8ByteSize ≤ 4 * n := by
  have hsize := size_utf8_le s.toList
  rw [String.ofList_toList, String.toUTF8_eq_toByteArray, String.size_toByteArray,
    String.length_toList] at hsize
  omega

/-- How the text of an entry grows with the name of its playlist. -/
theorem length_entryText (id : String) (x : PlaylistRuntimeSnapshot) :
    (entryText.write (id, { x with playlistId := id })).length + 4 =
      (entryText.write ("", { x with playlistId := "" })).length +
        2 * (Format.quoted.write id).length := by
  have hempty : (Format.quoted.write "").length = 2 := by decide
  simp only [entryText, snapshotText, field, Format.write_seq, Format.write_after,
    Format.write_before, Format.write_iso, List.length_append, hempty]
  omega

/-- Entries of bounded text make a file of bounded size. -/
theorem size_serdeCodec_le {state : PersistedSessionState} {a b : Nat}
    (hactive : (optionalText.write state.activePlaylistId).length ≤ a)
    (hschema : state.schemaVersion = runtimeStateSchemaVersion)
    (hentries : ∀ entry ∈ state.snapshots.toList, (entryText.write entry).length ≤ b) :
    (serdeCodec.toVecPretty state).size ≤ 4 * (100 + a + state.snapshots.size * (6 + b)) := by
  refine Nat.le_trans (size_utf8_le _) (Nat.mul_le_mul_left 4 ?_)
  have hlist : (entriesText.write state.snapshots.toList).length ≤
      2 + 6 + 4 + state.snapshots.toList.length * (6 + b) :=
    Format.length_list_le (fun _ => rfl) (fun _ => rfl) hentries
  have htext : stateText.write state =
      "\x7b\n  \"schema_version\": ".toList ++ (Nat.toDigits 10 state.schemaVersion ++ [',']) ++
        ("\n  \"active_playlist_id\": ".toList ++ optionalText.write state.activePlaylistId ++
          ("\n  \"snapshots\": ".toList ++ entriesText.write state.snapshots.toList)) ++
        "\n\x7d".toList := rfl
  rw [ExtTreeMap.length_toList] at hlist
  rw [htext, hschema]
  simp only [List.length_append, List.length_cons, List.length_nil, runtimeStateSchemaVersion,
    Nat.toDigits_of_lt_base (show 1 < 10 by decide)]
  have hwords : "\x7b\n  \"schema_version\": ".toList.length +
      "\n  \"active_playlist_id\": ".toList.length + "\n  \"snapshots\": ".toList.length +
      "\n\x7d".toList.length ≤ 80 := by decide
  omega

end Kwe.Playlists
