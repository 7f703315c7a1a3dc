import Flightdeck.Errors
import Flightdeck.Foundation.Lines
import Flightdeck.Foundation.Search
import Flightdeck.Foundation.Unicode
import Flightdeck.Graphics.Settings
import Mathlib.Data.List.DropRight

/-!
# The devices that Winebus opens itself

`mobiflight/winebus.rs` reads the list of devices from a registry text, as Wine keeps it or as
`reg export` writes it, and adds the four that it needs.
-/

namespace Flightdeck.Winebus

open Foundation
open GraphicsSettings (trim)

abbrev Text := List Char

def IDS : List Text :=
  ["4098:BB3E".toList, "4098:BC1E".toList, "4098:B920".toList, "4098:BC28".toList]

def INVALID :=
  "Die vorhandenen Winebus-Einstellungen sind unbekannt oder zu groß. Sie bleiben unverändert."

def DISABLED :=
  "HID-Zugriff ist in diesem Profil ausdrücklich deaktiviert. " ++
    "Flightdeck überschreibt diese Geräte-Einstellung nicht."

/-- `game_package::INVALID` -/
def UNREADABLE := "Die heruntergeladene Spielkonfiguration ist ungültig."

/-- `ok_or(Error::Invalid(INVALID))` -/
def orInvalid {α : Type} : Option α → Except Error α
  | some a => .ok a
  | none => .error (.invalid INVALID)

/-! ## Numbers -/

/-- `is_ascii_hexdigit` -/
def isHexDigit (c : Char) : Bool :=
  c.isDigit || ('a' ≤ c && c ≤ 'f') || ('A' ≤ c && c ≤ 'F')

def hexValue (c : Char) : Nat :=
  if c.isDigit then c.toNat - '0'.toNat
  else if 'a' ≤ c then c.toNat - 'a'.toNat + 10
  else c.toNat - 'A'.toNat + 10

def hexNumber (digits : Text) : Nat := digits.foldl (fun n c => 16 * n + hexValue c) 0

def unsigned : Text → Text
  | '+' :: digits => digits
  | digits => digits

/-- `from_str_radix` with base 16, for a type with so many values. -/
def fromHex (values : Nat) (text : Text) : Option Nat :=
  if unsigned text ≠ [] ∧ (unsigned text).all isHexDigit ∧ hexNumber (unsigned text) < values then
    some (hexNumber (unsigned text))
  else none

/-! ## One value -/

def validId : Text → Bool
  | [a, b, c, d, colon, e, f, g, h] => colon == ':' && [a, b, c, d, e, f, g, h].all isHexDigit
  | _ => false

/-- The text without a prefix, if it has it. -/
def stripPrefix (start text : Text) : Option Text :=
  if start.isPrefixOf text then some (text.drop start.length) else none

def stripSuffix (c : Char) (text : Text) : Option Text :=
  if text.getLast? = some c then some text.dropLast else none

/-- The bytes of a value that is written in hexadecimal. -/
def hexBytes (value : Text) : Option Bytes :=
  (value.splitOn ',').mapM fun part => (fromHex 256 (trim part)).map UInt8.ofNat

/-- `replace(r"\0", "\0")` -/
def unescape : Text → Text
  | '\\' :: '0' :: text => '\x00' :: unescape text
  | c :: text => c :: unescape text
  | [] => []

def utf8Length (text : Text) : Nat := (text.map Char.utf8Size).sum

def HEX : Text := "hex(7):".toList
def STR : Text := "str(7):\"".toList

def valueText (value : Text) : Except Error Text := do
  match stripPrefix HEX value with
  | some digits =>
    let bytes ← orInvalid (hexBytes digits)
    require (bytes.length ≤ 1024 && bytes.length % 2 == 0 && [0, 0, 0, 0].isSuffixOf bytes)
      (.invalid INVALID)
    orInvalid (fromUtf16 (toUnits true bytes))
  | none =>
    match (stripPrefix STR value).bind (stripSuffix '"') with
    | some quoted =>
      require (utf8Length quoted ≤ 1024 && (quoted.isEmpty || ['\\', '0'].isSuffixOf quoted))
        (.invalid INVALID)
      return unescape quoted
    | none => throw (.invalid INVALID)

def isNul (c : Char) : Bool := c == '\x00'

/-- The texts between the ends of a `REG_MULTI_SZ`. -/
def pieces (text : Text) : List Text :=
  ((text.rdropWhile isNul).splitOn '\x00').filter (!·.isEmpty)

def decode (value : Text) : Except Error (List Text) := do
  let text ← valueText value
  require ((pieces text).length ≤ 48 && (pieces text).all validId) (.invalid INVALID)
  return pieces text

/-! ## The registry text -/

/-- `game_package::text` -/
def text (bytes : Bytes) : Except Error Text :=
  match bytes with
  | 0xFF :: 0xFE :: rest => units true rest
  | 0xFE :: 0xFF :: rest => units false rest
  | 0xEF :: 0xBB :: 0xBF :: rest => plain rest
  | _ => plain bytes
where
  units (little : Bool) (rest : Bytes) : Except Error Text := do
    require (rest.length % 2 == 0) (.invalid UNREADABLE)
    match fromUtf16 (toUnits little rest) with
    | some text => return text
    | none => throw (.invalid UNREADABLE)
  plain (rest : Bytes) : Except Error Text :=
    match utf8Chars rest with
    | some text => .ok text
    | none => .error (.invalid UNREADABLE)

/-- `str::lines` -/
def lines (text : Text) : List Text :=
  let (ended, rest) := cutLines '\n' text
  ended.map (fun line => (stripSuffix '\r' line).getD line) ++ if rest = [] then [] else [rest]

/-- The lines, each with those that continue it.  None if the text ends within one. -/
def logical (pending : Text) : List Text → Option (List Text)
  | [] => if pending = [] then some [] else none
  | line :: rest =>
    match stripSuffix '\\' (trim line) with
    | some body => logical (pending ++ body) rest
    | none => (logical [] rest).map ((pending ++ trim line) :: ·)

def lower (text : Text) : Text := text.map Char.toLower

/-- `replace("\\\\", "\\")` -/
def single : Text → Text
  | '\\' :: '\\' :: text => '\\' :: single text
  | c :: text => c :: single text
  | [] => []

def MACHINE : Text := "hkey_local_machine\\".toList

/-- The name of a section, of what follows its first bracket. -/
def sectionName (rest : Text) : Text :=
  let name := single (lower (rest.takeWhile (· ≠ ']')))
  (stripPrefix MACHINE name).getD name

def MAIN : List Text :=
  ["system\\currentcontrolset\\services\\winebus".toList,
    "system\\controlset001\\services\\winebus".toList]

def VENDOR : Text := "\\services\\winebus\\devices\\4098".toList

/-- `split_once('=')` -/
def splitOnce (line : Text) : Option (Text × Text) :=
  if '=' ∈ line then some (line.takeWhile (· ≠ '='), (line.dropWhile (· ≠ '=')).tail) else none

/-- The state of the loop of `settings`: `found`, `section` and `result.disabled`. -/
structure Reading where
  found : Option (List Text) := none
  current : Text := []
  disabled : Bool := false

local instance lawfulText : LawfulBEq Text := inferInstanceAs (LawfulBEq (List Char))

def readValue (state : Reading) (name value : Text) : Except Error Reading :=
  if state.current ∈ MAIN ∧ name = "\"enablehidraw\"".toList then do
    let ids ← decode value
    require (state.found.all (· == ids)) (.invalid INVALID)
    return { state with found := some ids }
  else if state.current ∈ MAIN ∧ name = "\"disablehidraw\"".toList then do
    let digits ← orInvalid (stripPrefix "dword:".toList value)
    let n ← orInvalid (fromHex (2 ^ 32) digits)
    return { state with disabled := state.disabled || n != 0 }
  else if occurs VENDOR state.current ∧ name = "\"hidraw\"".toList then
    return { state with
      disabled := state.disabled || lower value == "dword:00000000".toList }
  else return state

def readLine (state : Reading) (line : Text) : Except Error Reading :=
  match line with
  | '[' :: rest => return { state with current := sectionName rest }
  | _ =>
    match splitOnce line with
    | some (name, value) => readValue state (lower name) value
    | none => return state

structure Settings where
  ids : List Text
  disabled : Bool

def settings (raw : Bytes) : Except Error Settings := do
  require (raw.length ≤ 64 * 1024 * 1024) (.invalid INVALID)
  let text ← text raw
  let rows ← orInvalid (logical [] (lines text))
  let state ← rows.foldlM readLine {}
  return { ids := state.found.getD [], disabled := state.disabled }

/-! ## The merge -/

/-- `eq_ignore_ascii_case` -/
def sameId (a b : Text) : Bool := lower a == lower b

/-- One turn of the loop over the ids that are needed. -/
def addId (state : List Text × Bool) (id : Text) : List Text × Bool :=
  if state.1.any (sameId · id) then state else (state.1 ++ [id], true)

def join (ids : List Text) : Text := ['\\', '0'].intercalate ids

/-- What follows the loop, with the list and whether it changed. -/
def listed (merged : List Text × Bool) : Except Error (Option Text) := do
  require (merged.1.length ≤ 48) (.invalid INVALID)
  return if merged.2 then some (join merged.1) else none

def mergedAllowlist (raw : Bytes) : Except Error (Option Text) := do
  let settings ← settings raw
  require (!settings.disabled) (.invalid DISABLED)
  listed (IDS.foldl addId (settings.ids, false))

end Flightdeck.Winebus
