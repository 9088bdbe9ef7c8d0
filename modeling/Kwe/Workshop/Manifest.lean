import Kwe.Vdf.RoundTrip

/-!
The two readers of Steam's manifest of Workshop subscriptions: the one of the
scanner, and the one of the command that downloads items.

A manifest is found at either of two places under the root of a library.
-/

namespace Kwe.Workshop

open Foundation Kwe.Vdf

/-! ## Key/value trees -/

def asciiLower (b : UInt8) : UInt8 := if 0x41 ≤ b ∧ b ≤ 0x5A then b + 0x20 else b

def toAsciiLowercase (t : Text) : Text := t.map asciiLower

def eqIgnoreAsciiCase (a b : Text) : Bool := toAsciiLowercase a = toAsciiLowercase b

/-- `KvValue::object`. -/
def objectOf : KvValue → Option (List (Text × KvValue))
  | .object fields => some fields
  | .string _ => none

/-- `KvValue::string`. -/
def stringOf : KvValue → Option Text
  | .string value => some value
  | .object _ => none

def getCaseInsensitive (value : KvValue) (key : Text) : Option KvValue :=
  (objectOf value).bind fun fields =>
    fields.findSome? fun e => if eqIgnoreAsciiCase e.1 key then some e.2 else none

/-! ## Files -/

/-- What is at a path.  A link leads to a file with the given contents. -/
inductive Entry
  | absent
  | file (contents : List UInt8)
  | link (contents : List UInt8)
  | other

/-- The manifests under the root of a library. -/
structure Library where
  /-- `steamapps/workshop/appworkshop_431960.acf` -/
  workshop : Entry
  /-- `steamapps/appworkshop_431960.acf` -/
  plain : Entry

inductive ManifestError
  | open
  | tooLarge
  | notUtf8
  | keyValues (error : KvError)
  | noSection

/-! ## The scanner -/

def isAsciiDigit (b : UInt8) : Bool := 0x30 ≤ b && b ≤ 0x39

/-- `str::parse` to an unsigned integer: digits, a plus sign before them. -/
def parseUnsigned (bound : Nat) (t : Text) : Option Nat :=
  let digits := match t with
    | 0x2B :: digits => digits
    | digits => digits
  if digits ≠ [] ∧ digits.all isAsciiDigit then
    let value := digits.foldl (fun n b => n * 10 + (b.toNat - 0x30)) 0
    if value < bound then some value else none
  else none

def workshopProgress (value : KvValue) : Option Nat :=
  (objectOf value).bind fun object =>
    let field (names : List String) : Option Text :=
      names.findSome? fun name =>
        (object.find? fun e => eqIgnoreAsciiCase e.1 (text name)).bind fun e => stringOf e.2
    let downloaded := (field ["downloadedbytes", "downloaded", "bytesdownloaded"]).bind
      (parseUnsigned (2 ^ 64))
    let total := (field ["size", "totalbytes", "total"]).bind (parseUnsigned (2 ^ 64))
    let percent := ((field ["downloadprogress", "progress"]).bind (parseUnsigned (2 ^ 8))).filter
      (· ≤ 100)
    match downloaded, total with
    | some done, some total =>
      if 0 < total ∧ done ≤ total then some (min (done * 100) (2 ^ 64 - 1) / total % 2 ^ 8)
      else percent
    | _, _ => percent

/-- The filter of `read_workshop_subscriptions`. -/
def subscriptionKey (key : Text) : Bool :=
  decide (key.length ≤ 20) && key.all isAsciiDigit && key != text "0"

def appWorkshop (tree : KvValue) : Option (List (Text × KvValue)) :=
  (getCaseInsensitive tree (text "appworkshop")).bind objectOf

/-- The first section of that name, if it is an object. -/
def workshopItems (tree : KvValue) : Option (List (Text × KvValue)) :=
  (appWorkshop tree).bind fun fields =>
    (fields.find? fun e => eqIgnoreAsciiCase e.1 (text "workshopitems")).bind fun e => objectOf e.2

def treeSubscriptions (tree : KvValue) : List (Text × Option Nat) :=
  ((workshopItems tree).getD []).foldl
    (fun ids e => if subscriptionKey e.1 then SortedMap.insert ids e.1 (workshopProgress e.2) else ids) []

/-- `read_utf8_limited`: links are not followed, and what is absent is told
apart. -/
def readUtf8Limited (limit : Nat) : Entry → Except ManifestError (Option (List UInt8))
  | .absent => .ok none
  | .link _ | .other => .error .open
  | .file contents =>
    if limit < contents.length then .error .tooLarge
    else if (Utf8.decode contents).isSome then .ok (some contents)
    else .error .notUtf8

/-- The outer level is that of the parser, which may run on. -/
def workshopSubscriptions (fuel : Nat) (lib : Library) :
    Option (Except ManifestError (List (Text × Option Nat))) :=
  match readUtf8Limited (8 * 1024 * 1024) lib.plain with
  | .error e => some (.error e)
  | .ok none => some (.ok [])
  | .ok (some contents) =>
    (parseKeyValues fuel contents).run.map fun
      | .error e => .error (.keyValues e)
      | .ok tree => .ok (treeSubscriptions tree)

/-! ## The download command -/

def maxManifestBytes : Nat := 16 * 1024 * 1024

/-- `char::is_whitespace`. -/
def isWhitespace (c : Char) : Bool :=
  (0x9 ≤ c.toNat && c.toNat ≤ 0xD) || c.toNat = 0x20 || c.toNat = 0x85 || c.toNat = 0xA0 ||
    c.toNat = 0x1680 || (0x2000 ≤ c.toNat && c.toNat ≤ 0x200A) || c.toNat = 0x2028 ||
    c.toNat = 0x2029 || c.toNat = 0x202F || c.toNat = 0x205F || c.toNat = 0x3000

/-- `str::trim`. -/
def trim (text : List Char) : List Char :=
  ((text.dropWhile isWhitespace).reverse.dropWhile isWhitespace).reverse

def validItemId (candidate : Text) : Bool :=
  !candidate.isEmpty && decide (candidate.length ≤ 20) && candidate.all isAsciiDigit &&
    candidate.any (· != 0x30)

/-- `parse_item_id`. -/
def parseItemId (key : List Char) : Option Text :=
  let trimmed := trim key
  let candidate :=
    if decide ("://".toList <:+: trimmed) || trimmed.contains '?' then
      (trimmed.splitOnP fun c => c = '?' || c = '&').findSome? fun part =>
        "id=".toList.isPrefixOf? part
    else some trimmed
  (candidate.map Utf8.encode).filter validItemId

/-- A key is a `String`, so its bytes are those of a text. -/
def keyItemId (key : Text) : Option Text := (Utf8.decode key).bind parseItemId

def manifestSection (key : Text) : Bool :=
  toAsciiLowercase key = text "workshopitemdetails" ||
    toAsciiLowercase key = text "workshopitemsinstalled" ||
      toAsciiLowercase key = text "workshopitems"

def insertItem (ids : List (Text × Unit)) (e : Text × KvValue) : List (Text × Unit) :=
  match keyItemId e.1 with
  | some id => SortedMap.insert ids id ()
  | none => ids

/-- The ids under the application, as a set in order. -/
def sectionSubscriptions (app : List (Text × KvValue)) : List (Text × Unit) :=
  app.foldl
    (fun ids e =>
      if manifestSection e.1 then ((objectOf e.2).getD []).foldl insertItem ids else ids) []

/-- `is_file`, with the contents. -/
def Entry.isFile : Entry → Option (List UInt8)
  | .file contents | .link contents => some contents
  | .absent | .other => none

/-- `manifest_candidates`, and the first of them that is a file. -/
def Library.manifest (lib : Library) : Option (List UInt8) :=
  [lib.workshop, lib.plain].findSome? Entry.isFile

def manifestSubscriptions (fuel : Nat) (lib : Library) :
    Option (Except ManifestError (Option (List (Text × Unit)))) :=
  match lib.manifest with
  | none => some (.ok none)
  | some contents =>
    if maxManifestBytes < contents.length then some (.error .tooLarge)
    else if (Utf8.decode contents).isNone then some (.error .notUtf8)
    else
      (parseKeyValues fuel contents).run.map fun
        | .error e => .error (.keyValues e)
        | .ok tree =>
          match appWorkshop tree with
          | none => .error .noSection
          | some app => .ok (some (sectionSubscriptions app))

end Kwe.Workshop
