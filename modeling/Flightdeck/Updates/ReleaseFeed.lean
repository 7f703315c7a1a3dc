import Flightdeck.Foundation.Highest
import Flightdeck.Json.Strict
import Flightdeck.Updates.Fenix

/-!
# Release feeds

The launcher and the add-on are looked up in the feeds of their projects: JSON arrays of at most
fifty releases, in whatever order they arrive.  The launcher searches the highest version first and
checks the release that has it; for the add-on every newer release is checked before the highest one
is taken.
-/

namespace Flightdeck.Updates

open StrictJson (Value)
open Fenix (Version STABLE stable decimal launcherVersion version)

/-! ## Reading a release -/

/-- `value[key]` -/
def field (value : Value) (key : String) : Value :=
  match value with
  | .object fields => (fields.lookup key).getD .null
  | _ => .null

def asBool : Value → Option Bool
  | .bool b => some b
  | _ => none

def asText : Value → Option String
  | .string text => some text
  | _ => none

def asArray : Value → Option (List Value)
  | .array items => some items
  | _ => none

/-- `as_u64`: the text of a number that has neither sign, fraction nor exponent. -/
def asU64 : Value → Option Nat
  | .number text =>
    let digits := text.toList
    if digits ≠ [] ∧ digits.all Char.isDigit ∧ decimal digits < 2 ^ 64 then some (decimal digits)
    else none
  | _ => none

/-- `backend::string` -/
def string (value : Value) (key : String) : Except Error String :=
  match asText (field value key) with
  | some text => .ok text
  | none => .error (.invalid "Ungültige Anfrageparameter.")

/-- The assets of a release that have this name. -/
def named (file : String) (raw : Value) : List Value :=
  ((asArray (field raw "assets")).getD []).filter fun asset =>
    asText (field asset "name") == some file

def carries (file : String) (raw : Value) : Bool :=
  (asArray (field raw "assets")).any fun assets =>
    assets.any fun asset => asText (field asset "name") == some file

/-- The only row of a list: the check of its length, and its first row. -/
def single {α : Type} (error : Error) : List α → Except Error α
  | [row] => .ok row
  | _ => .error error

/-- `tag.trim_start_matches('v')` -/
def withoutV (tag : String) : String := String.ofList (tag.toList.dropWhile (· == 'v'))

def downloadUrl (project file tag : String) : String :=
  project ++ "/releases/download/" ++ tag ++ "/" ++ file

/-- The checks that both lookups make of an asset; what passes them is its digest. -/
def checkAsset (project file : String) (limit : Nat) (invalid tag : String) (asset : Value) :
    Except Error String := do
  let digest ← string asset "digest"
  match "sha256:".toList.isPrefixOf? digest.toList with
  | none => throw (.invalid invalid)
  | some rest =>
    let checksum := String.ofList rest
    require (asText (field asset "browser_download_url") == some (downloadUrl project file tag) &&
      asText (field asset "state") == some "uploaded" &&
      (asU64 (field asset "size")).any (fun n => decide (0 < n ∧ n ≤ limit)) &&
      hexDigest checksum) (.invalid invalid)
    return checksum

/-! ## The launcher -/

namespace Launcher

def PROJECT := "https://github.com/marselnenaj/flightdeck-msfs-2024-linux-xbox"
def ASSET := "Flightdeck-Linux-x86_64.tar.gz"
def MAX_ARCHIVE : Nat := 256 * 1024 * 1024
def INVALID := "Das GitHub-Updatepaket hat keine gültigen Prüfdaten."
def UNPUBLISHED := "GitHub meldet keine veröffentlichte Flightdeck-Version."
def INCOMPLETE := "Das vollständige Linux-Updatepaket fehlt in diesem Release."

def published (raw : Value) : Bool :=
  asBool (field raw "draft") == some false && asBool (field raw "prerelease") == some false

/-- `launcher_update::release_metadata` -/
def releaseMetadata (raw : Value) : Except Error Value := do
  require (published raw) (.invalid UNPUBLISHED)
  let tag ← string raw "tag_name"
  let _ ← launcherVersion tag.toList
  let asset ← single (.invalid INCOMPLETE) (named ASSET raw)
  let checksum ← checkAsset PROJECT ASSET MAX_ARCHIVE INVALID tag asset
  return .object [("version", .string (withoutV tag)), ("tag", .string tag),
    ("url", .string (downloadUrl PROJECT ASSET tag)), ("sha256", .string checksum),
    ("size", field asset "size"),
    ("release_url", .string (PROJECT ++ "/releases/tag/" ++ tag)),
    ("notes", .string (String.ofList (((asText (field raw "body")).getD "").toList.take 12000)))]

/-- The version of a release among those that are not left out, and the release itself. -/
def candidate (raw : Value) : Option (List Nat × Value) :=
  (asText (field raw "tag_name")).bind fun tag =>
    (launcherVersion tag.toList).toOption.map fun number => (number, raw)

def candidates (releases : List Value) : List (List Nat × Value) :=
  ((releases.filter published).filter (carries ASSET)).filterMap candidate

/-- `stable_release` -/
def stableRelease (raw : Value) : Except Error Value := do
  match asArray raw with
  | none => throw (.invalid INVALID)
  | some releases =>
    require (releases.length ≤ 50) (.invalid INVALID)
    match ((candidates releases).map Prod.fst).max? with
    | none => throw (.invalid UNPUBLISHED)
    | some newest =>
      let row ← single (.invalid INVALID) ((candidates releases).filter fun row => row.1 = newest)
      releaseMetadata row.2

/-- `release_feed` -/
def releaseFeed [StrictJson.Library] (data : StrictJson.Bytes) : Except Error Value := do
  require (data.length ≤ 2 * 1024 * 1024) (.invalid "Die GitHub-Antwort ist zu groß.")
  match StrictJson.decode data with
  | none => throw (.invalid INVALID)
  | some raw => stableRelease raw

end Launcher

/-! ## The add-on -/

namespace Fenix

def ASSET := "flightdeck-update.json"
def LIMIT : Nat := 2 * 1024 * 1024

/-- The rest of a turn, for a release that no comparison passes over. -/
def advertised (number : Version) (tag : String) (raw : Value) :
    Except Error (Option (Version × Value)) := do
  require (asBool (field raw "prerelease") == some (!stable number)) (.invalid INVALID)
  if (named ASSET raw).isEmpty then return none
  else
    let asset ← single (.invalid INVALID) (named ASSET raw)
    let digest ← checkAsset PROJECT ASSET LIMIT INVALID tag asset
    return some (number, .object [("version", .string (withoutV tag)), ("tag", .string tag),
      ("url", .string (downloadUrl PROJECT ASSET tag)), ("sha256", .string digest),
      ("size", field asset "size")])

/-- One turn of the loop of `release_metadata`: nothing for a release that is passed over. -/
def offer (current : Version) (raw : Value) : Except Error (Option (Version × Value)) :=
  if asBool (field raw "draft") ≠ some false then return none
  else match asText (field raw "tag_name") with
  | none => return none
  | some tag =>
    match version tag with
    | .error _ => return none
    | .ok number =>
      if number ≤ current ∨ (stable current = true ∧ stable number = false) then return none
      else advertised number tag raw

/-- The loop, which ends with the first release that is refused. -/
def offers (current : Version) (entries : List Value) : Except Error (List (Version × Value)) :=
  return (← entries.mapM (offer current)).reduceOption

/-- `(v.0.1 == u32::MAX, v.0)` -/
def key (number : Version) : Bool ×ₗ Version := toLex (stable number, number)

/-- `fenix_update::release_metadata` -/
def releaseMetadata (feed : Value) (current : String) : Except Error (Option Value) := do
  let current ← version current
  match asArray feed with
  | none => throw (.invalid INVALID)
  | some entries =>
    require (entries.length ≤ 50) (.invalid INVALID)
    let candidates ← offers current entries
    match (Foundation.sortedBy (fun row => key row.1) candidates).getLast? with
    | none => return none
    | some last =>
      require (candidates.countP (fun row => row.1 = last.1) == 1) (.invalid INVALID)
      return some last.2

end Fenix

end Flightdeck.Updates
