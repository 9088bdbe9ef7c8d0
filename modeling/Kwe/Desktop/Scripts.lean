import Kwe.Foundation.Search
import Kwe.Supervisor.Model

/-!
The scripts that the apply lane has the desktop run: the switch to a plugin, the
switch back to a saved one, and the read-only probe.

A script is the list of its characters.
-/

namespace Kwe.Desktop

open Foundation Kwe.Supervisor

abbrev Text := List Char

/-- `MAX_IMAGE_CHARS`; it bounds bytes. -/
def maxImageChars : Nat := 4096

/-- The index of a desktop, a `usize`. -/
abbrev DesktopIndex := Fin (2 ^ 64)

def decimal (n : Nat) : Text := Nat.toDigits 10 n

def quoted (part : Text) : Text := '"' :: part ++ ['"']

/-- What the apply script is put together to. -/
def applyText (desktopIndex : Nat) (plugin : Text) : Text :=
  "var d = desktops()[".toList ++ decimal desktopIndex ++ "]; if (!d) throw ".toList ++
    quoted ("no desktop ".toList ++ decimal desktopIndex) ++ "; d.wallpaperPlugin = ".toList ++
    quoted plugin ++ [';']

def applyScript (desktopIndex : DesktopIndex) (plugin : String) : Except String Text := do
  validateIdentityPart "wallpaper_plugin" plugin
  .ok (applyText desktopIndex plugin.toList)

/-! ## Restoring -/

def escapeChar (ch : Char) : Text :=
  if ch = '\\' then ['\\', '\\']
  else if ch = '"' then ['\\', '"']
  else if ch = '\n' then ['\\', 'n']
  else if ch = '\r' then ['\\', 'r']
  else if ch = '\u2028' then "\\u2028".toList
  else if ch = '\u2029' then "\\u2029".toList
  else [ch]

def escapeJsString (value : Text) : Text := value.flatMap escapeChar

/-- The members of a config group, each of them an identity part. -/
def groupText : List String → Except String Text
  | [] => .ok []
  | part :: parts => do
    validateIdentityPart "config_group" part
    let rest ← groupText parts
    .ok (if parts = [] then quoted part.toList else quoted part.toList ++ ", ".toList ++ rest)

/-- The line that writes the saved image, when there is one. -/
def imageText : Option String → Except String Text
  | none => .ok []
  | some image =>
    if image.isEmpty ∨ maxImageChars < image.utf8ByteSize then
      .error "image must be a bounded image path"
    else
      .ok ("d.writeConfig(".toList ++ quoted "Image".toList ++ ", ".toList ++
        quoted (escapeJsString image.toList) ++ ");\n".toList)

/-- What the restore script is put together to. -/
def restoreText (desktopIndex : Nat) (plugin group image : Text) : Text :=
  "var d = desktops()[".toList ++ decimal desktopIndex ++ "];\nif (!d) throw ".toList ++
    quoted ("no desktop ".toList ++ decimal desktopIndex) ++
    ";\nd.currentConfigGroup = [".toList ++ group ++ "];\n".toList ++ image ++
    "d.wallpaperPlugin = ".toList ++ quoted plugin ++ [';']

def restoreScript (desktopIndex : DesktopIndex) (plugin : String) (configGroup : List String)
    (image : Option String) : Except String Text := do
  validateIdentityPart "wallpaper_plugin" plugin
  if configGroup = [] ∨ 4 < configGroup.length then
    .error "config_group must be a bounded config group"
  else
    let group ← groupText configGroup
    let image ← imageText image
    .ok (restoreText desktopIndex plugin.toList group image)

/-! ## The probe -/

/-- `DESKTOP_PROBE_TEMPLATE`. -/
def desktopProbeTemplate : Text :=
  "var d = desktops();\n".toList ++
    "var out = [];\n".toList ++
    "for (var i = 0; i < d.length; i++) \x7b\n".toList ++
    "  var image = null;\n".toList ++
    "  var wp = d[i].wallpaperPlugin;\n".toList ++
    "  if (/^[A-Za-z0-9._-]+$/.test(wp)) \x7b\n".toList ++
    "    var g = d[i].currentConfigGroup;\n".toList ++
    "    try \x7b\n".toList ++
    "      d[i].currentConfigGroup = [\"Wallpaper\", wp, \"General\"];\n".toList ++
    "      image = d[i].readConfig(\"Image\");\n".toList ++
    "    \x7d catch (e) \x7b \x7d\n".toList ++
    "    d[i].currentConfigGroup = g;\n".toList ++
    "  \x7d\n".toList ++
    "  out.push(\x7bindex: i, id: d[i].id, screen: d[i].screen, wp: wp, image: image\x7d);\n".toList ++
    "\x7d\n".toList ++
    "var c = \x7b__CONNECTORS__\x7d;\n".toList ++
    "print(JSON.stringify(\x7bdesktops: out, connectors: c\x7d));".toList

/-- The entries of the connector map, one a name. -/
def connectorEntries : List String → Except String (List Text)
  | [] => .ok []
  | name :: names => do
    validateIdentityPart "connector" name
    let entries ← connectorEntries names
    .ok ((quoted name.toList ++ ": screenForConnector(".toList ++ quoted name.toList ++ [')']) ::
      entries)

def probeScript (connectorNames : List String) : Except String Text := do
  let entries ← connectorEntries connectorNames
  let connectorMap :=
    if entries = [] then "\x7b\x7d".toList
    else '\x7b' :: List.intercalate ", ".toList entries ++ ['\x7d']
  .ok (Search.replace "\x7b__CONNECTORS__\x7d".toList connectorMap desktopProbeTemplate)

end Kwe.Desktop
