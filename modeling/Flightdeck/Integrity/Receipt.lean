import Flightdeck.Installations.Registry
import Flightdeck.Installer.Release
import Flightdeck.Json.Strict

/-!
# The receipt of an installation

`integrity.rs`: the download tool seals an index of the game's files.  A receipt beside it keeps the
identity that was installed, bound to the digest of the index.
-/

namespace Flightdeck.Integrity

open Foundation
open StrictJson (Value)
open Cloud (jsonString)
open Installer (relative)

def UNAVAILABLE := Error.invalid
  "Vollständiger Download-Prüfnachweis fehlt oder ist ungültig. Eine vollständige Reparatur ist erforderlich."

structure Entry where
  name : String
  length : Nat
  sha256 : String

structure Index where
  format : Nat
  source : String
  package_sha256 : String
  files : List Entry

structure Package where
  format : Nat
  package_sha256 : String

/-! ## `Baseline::open` -/

def STREAMING := ".xodus-streaming.msixvc"

def Entry.valid (row : Entry) : Bool :=
  relative row.name && (!row.name.startsWith ".xodus-" || row.name == STREAMING) &&
    row.length < 8 * 1024 ^ 4 && hexDigest row.sha256

/-- The checks of `Baseline::open` on `integrity.json` and `package.json`. -/
def openBaseline (index : Index) (package : Package) : Except Error Index := do
  require (index.format == 1 && index.source == "xodus-completed-download-v1" &&
    hexDigest index.package_sha256 && package.format == 1 &&
    package.package_sha256 == index.package_sha256 && !index.files.isEmpty &&
    index.files.length ≤ 100001) UNAVAILABLE
  require (index.files.all Entry.valid && (index.files.map Entry.name).Nodup) UNAVAILABLE
  require (index.files.any (·.name == STREAMING)) UNAVAILABLE
  return index

/-! ## The digest of an index -/

/-- `serde_json::to_value`: the members in the order of the struct, which `preserve_order` keeps. -/
def Entry.toValue (row : Entry) : Value :=
  .object [("name", .string row.name), ("length", .number (toString row.length)),
    ("sha256", .string row.sha256)]

def Index.toValue (index : Index) : Value :=
  .object [("format", .number (toString index.format)), ("source", .string index.source),
    ("package_sha256", .string index.package_sha256),
    ("files", .array (index.files.map Entry.toValue))]

mutual

/-- `serde_json::to_vec`, as text. -/
def toText : Value → String
  | .null => "null"
  | .bool b => toString b
  | .number text => text
  | .string text => jsonString text
  | .array items => "[" ++ ",".intercalate (itemTexts items) ++ "]"
  | .object fields => "\x7b" ++ ",".intercalate (fieldTexts fields) ++ "\x7d"

def itemTexts : List Value → List String
  | [] => []
  | item :: items => toText item :: itemTexts items

def fieldTexts : List (String × Value) → List String
  | [] => []
  | (key, value) :: fields => (jsonString key ++ ":" ++ toText value) :: fieldTexts fields

end

section digests

variable [Sha256]

def indexDigest (index : Index) : String := sha256 (utf8 (toText index.toValue))

/-! ## The receipt -/

structure Identity where
  name : String
  publisher : String
  version : String
  deriving DecidableEq

/-- `game_package::version` -/
def version (value : String) : Except Error (List Nat) := do
  let parts := value.toList.splitOn '.'
  require (parts.length == 4 && parts.all fun part =>
    !part.isEmpty && part.length ≤ 5 && part.all Char.isDigit) INVALID
  let numbers := parts.map fun part => part.foldl (fun n c => 10 * n + (c.toNat - '0'.toNat)) 0
  require (numbers.all (· < 2 ^ 16)) INVALID
  return numbers
where
  INVALID := .invalid "Die Spielversion ist nicht eindeutig lesbar."

/-- A member of an object. -/
def member : Value → String → Option Value
  | .object fields, key => (fields.find? (·.1 == key)).map Prod.snd
  | _, _ => none

/-- The number of members of an object. -/
def size : Value → Option Nat
  | .object fields => some fields.length
  | _ => none

def isString (value : Option Value) (text : String) : Bool :=
  match value with
  | some (.string found) => found == text
  | _ => false

def isNumber (value : Option Value) (n : Nat) : Bool :=
  match value with
  | some (.number found) => found == toString n
  | _ => false

def text (value : Option Value) : Except Error String :=
  match value with
  | some (.string found) => .ok found
  | _ => .error .json

/-- The identity in a receipt. -/
def identity (value : Value) : Except Error Identity := do
  return { name := ← text (member value "name"), publisher := ← text (member value "publisher"),
           version := ← text (member value "version") }

/-- What a receipt says about the game: the first format is that of one game only. -/
def forGame (saved : Value) (game : Game) : Bool :=
  size saved == some (if isNumber (member saved "format") 1 then 3 else 4) &&
    ((isNumber (member saved "format") 1 && game == .msfs2024) ||
      (isNumber (member saved "format") 2 && isString (member saved "game_id") game.id))

/-- The fallback of `installed_identity`: what the receipt says, if it is for this index. -/
def fallback (index : Index) (package : Package) (saved : Value) (game : Game) :
    Except Error Identity := do
  let baseline ← openBaseline index package
  let identityValue := (member saved "identity").getD .null
  require (forGame saved game && isString (member saved "index_sha256") (indexDigest baseline) &&
    size identityValue == some 3) UNAVAILABLE
  let found ← identity identityValue
  require (found.name != "" && found.publisher != "") UNAVAILABLE
  let _ ← version found.version
  return found

def Identity.toValue (found : Identity) : Value :=
  .object [("name", .string found.name), ("publisher", .string found.publisher),
    ("version", .string found.version)]

/-- The receipt that `record_installation` writes for an identity. -/
def receipt (index : Index) (found : Identity) : Game → Value
  | .msfs2024 => .object [("format", .number "1"), ("index_sha256", .string (indexDigest index)),
    ("identity", found.toValue)]
  | game => .object [("format", .number "2"), ("index_sha256", .string (indexDigest index)),
    ("identity", found.toValue), ("game_id", .string game.id)]

/-! ## Canonical JSON -/

mutual

/-- The keys of every object in sorted order. -/
def sortKeys : Value → Value
  | .array items => .array (sortItems items)
  | .object fields => .object ((sortFields fields).insertionSort fun a b => a.1 ≤ b.1)
  | .null => .null
  | .bool b => .bool b
  | .number text => .number text
  | .string text => .string text

def sortItems : List Value → List Value
  | [] => []
  | item :: items => sortKeys item :: sortItems items

def sortFields : List (String × Value) → List (String × Value)
  | [] => []
  | (key, value) :: fields => (key, sortKeys value) :: sortFields fields

end

/-- The canonical text of an index. -/
def canonical (index : Index) : String := toText (sortKeys index.toValue)

end digests

/-! ## An index of the streaming file only -/

section

local instance receiptSha256 : Sha256 := standardSha256

def zeros := "0000000000000000000000000000000000000000000000000000000000000000"

def streaming : Index where
  format := 1
  source := "xodus-completed-download-v1"
  package_sha256 := zeros
  files := [{ name := STREAMING, length := 0, sha256 := zeros }]

end

end Flightdeck.Integrity
