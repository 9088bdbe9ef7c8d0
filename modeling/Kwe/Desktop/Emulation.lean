import Kwe.Desktop.Scripts

/-!
The desktop emulation, which reads the scripts of the apply lane back.
-/

namespace Kwe.Desktop

open Foundation Foundation.Search Kwe.Supervisor

/-- `PROBE_TEMPLATE_PREFIX`. -/
def probeTemplatePrefix : Text := "var d = desktops();\nvar out = [];".toList

structure SwitchCommand where
  desktopIndex : Nat
  plugin : String
  /-- The script is one that restores. -/
  touchesImage : Bool
  image : Option String
  deriving DecidableEq, Repr

/-! ## String literals -/

/-- The text up to the quote that closes a literal. -/
def untilQuote (escaped : Bool) : Text → Option Text
  | [] => none
  | ch :: rest =>
    if escaped then (untilQuote false rest).map (ch :: ·)
    else if ch = '\\' then (untilQuote true rest).map (ch :: ·)
    else if ch = '"' then some []
    else (untilQuote false rest).map (ch :: ·)

def quotedAfter (script marker : Text) : Option Text := (after marker script).bind (untilQuote false)

def hexDigit (c : Char) : Option Nat :=
  if c.isDigit then some (c.toNat - '0'.toNat)
  else if 'a' ≤ c ∧ c ≤ 'f' then some (c.toNat - 'a'.toNat + 10)
  else if 'A' ≤ c ∧ c ≤ 'F' then some (c.toNat - 'A'.toNat + 10)
  else none

/-- A leading plus sign is left out. -/
def unsigned (text : Text) : Text :=
  match text with
  | '+' :: digits => digits
  | _ => text

/-- `u32::from_str_radix` at 16, of at most four characters. -/
def fromHex (text : Text) : Option Nat :=
  if unsigned text = [] then none
  else (unsigned text).foldlM (fun n c => (hexDigit c).map (16 * n + ·)) 0

/-- `char::from_u32`. -/
def charFromU32 (n : Nat) : Option Char := if n.isValidChar then some (Char.ofNat n) else none

/-- What the up to four characters after a `\u` stand for. -/
def decodeCode (code : Text) : Text :=
  match (fromHex code).bind charFromU32 with
  | some decoded => [decoded]
  | none => '\\' :: 'u' :: code

mutual

def unescapeJs : Text → Text
  | [] => []
  | ch :: rest => if ch = '\\' then unescapeEscape rest else ch :: unescapeJs rest

/-- After a backslash. -/
def unescapeEscape : Text → Text
  | [] => ['\\']
  | ch :: rest =>
    if ch = 'n' then '\n' :: unescapeJs rest
    else if ch = 'r' then '\r' :: unescapeJs rest
    else if ch = 'u' then unescapeCode 4 [] rest
    else ch :: unescapeJs rest

/-- After `\u` and `code`, with as many characters left. -/
def unescapeCode (left : Nat) (code : Text) : Text → Text
  | [] => decodeCode code
  | ch :: rest =>
    if left ≤ 1 then decodeCode (code ++ [ch]) ++ unescapeJs rest
    else unescapeCode (left - 1) (code ++ [ch]) rest

end

/-! ## Reading a script -/

def parseUsize (text : Text) : Option Nat :=
  if unsigned text ≠ [] ∧ (unsigned text).all Char.isDigit then
    let n := Nat.ofDigitChars 10 (unsigned text) 0
    if n < 2 ^ 64 then some n else none
  else none

def reject {α : Type} (detail : String) : Except String α :=
  .error ("unsupported desktop script: " ++ detail)

/-- The text between the brackets after `desktops()`. -/
def indexText (script : Text) : Except String Text :=
  match after "desktops()[".toList script with
  | none => reject "no desktop index"
  | some rest =>
    if ']' ∈ rest then .ok (rest.takeWhile (· ≠ ']')) else reject "unterminated desktop index"

def parseSwitchScript (script : Text) : Except String SwitchCommand := do
  let index ← indexText script
  match parseUsize index with
  | none => reject "desktop index is not a number"
  | some desktopIndex =>
    match quotedAfter script "wallpaperPlugin = \"".toList with
    | none => reject "no plugin"
    | some plugin =>
      if plugin = [] ∨ ¬ plugin.all identityChar then reject "plugin is not an identity"
      else
        .ok {
          desktopIndex := desktopIndex
          plugin := String.ofList plugin
          touchesImage := (after "currentConfigGroup = [".toList script).isSome
          image := (quotedAfter script "writeConfig(\"Image\", \"".toList).map fun image =>
            String.ofList (unescapeJs image) }

inductive Request
  | probe
  | switch (command : SwitchCommand)
  deriving DecidableEq

/-- What `evaluate_script` takes a script for. -/
def readScript (script : Text) : Except String Request :=
  if probeTemplatePrefix <+: script then .ok .probe
  else (parseSwitchScript script).map .switch

end Kwe.Desktop
