import Flightdeck.Backend.Coordinator
import Flightdeck.Foundation.Search
import Flightdeck.Installer.Release

/-!
# The add-on of a Steam installation

`steam_fenix.rs` keeps the description of the release that an installation got in a file of its own,
beside the state that the patch program keeps.  The patch program is a package of its own: here it
either does what it was called for or fails and changes nothing.
-/

namespace Flightdeck.Updates.Fenix

open Foundation
open Backend (Value)
open Installer (relative)

def INVALID := "Die Fenix-Updatebeschreibung ist ungültig. Der installierte Patch bleibt erhalten."
def UPGRADE := "Für diesen Fenix-Patch ist zuerst ein Flightdeck-Update erforderlich."
def PROJECT := "https://github.com/marselnenaj/fenix-a320-linux-patch"

/-! ## Versions -/

/-- `([u32; 3], u32)`, in the order of its parts. -/
abbrev Version := List Nat

def STABLE : Nat := 2 ^ 32 - 1

def decimal (digits : List Char) : Nat :=
  digits.foldl (fun n c => 10 * n + (c.toNat - '0'.toNat)) 0

/-- `(0|[1-9][0-9]{0,5})` -/
def number (text : List Char) : Option Nat :=
  if text = ['0'] then some 0
  else if text ≠ [] ∧ text.length ≤ 6 ∧ text.all Char.isDigit ∧ text.head? ≠ some '0' then
    some (decimal text)
  else none

def stripV : List Char → List Char
  | 'v' :: text => text
  | text => text

/-- `launcher_update::version` -/
def launcherVersion (text : List Char) : Except Error (List Nat) :=
  match ((stripV text).splitOn '.').mapM number with
  | some [major, minor, patch] => .ok [major, minor, patch]
  | _ => .error (.invalid "GitHub meldet eine ungültige Flightdeck-Version.")

/-- `fenix_update::version` -/
def version (text : String) : Except Error Version := do
  let text := stripV text.toList
  match breakOn "-preview.".toList text with
  | some (base, n) =>
    require (n ≠ [] && n.length ≤ 6 && n.head? ≠ some '0' && n.all Char.isDigit) (.invalid INVALID)
    return (← launcherVersion base) ++ [decimal n]
  | none => return (← launcherVersion text) ++ [STABLE]

/-- It is no preview. -/
def stable (v : Version) : Bool := v.getLast? == some STABLE

/-! ## Bundles -/

/-- A JSON object of checksums, in the order of its names. -/
abbrev Checksums := List (String × String)

/-- `bundle.json`, without the changes of a variant. -/
structure Manifest where
  format : Nat
  repository : String
  version : String
  runnerVersion : String
  runnerFiles : Checksums
  files : Checksums
  integration : Checksums
  prefixFiles : Checksums
  /-- what only the other checks of a manifest and the patch program read -/
  rest : List (String × Value) := []

/-- `release.json` -/
structure Release where
  version : String
  url : String
  sha256 : String
  archiveRoot : String
  size : Option Nat := none

/-- What `selected` returns. -/
structure Target where
  bundle : Manifest
  release : Release

/-- `fenix-patch-release.json` -/
structure Record where
  version : String
  bundleManifest : Manifest
  bundleRelease : Release

mutual

def valueText : Value → Pretty
  | .null => fun _ => "null"
  | .bool b => fun _ => if b then "true" else "false"
  | .number n => fun _ => toString n
  | .string text => prettyString text
  | .array rows => prettyArray (rowTexts rows)
  | .object fields => prettyObject (fieldTexts fields)

def rowTexts : List Value → List Pretty
  | [] => []
  | row :: rows => valueText row :: rowTexts rows

def fieldTexts : List (String × Value) → List (String × Pretty)
  | [] => []
  | (key, value) :: fields => (key, valueText value) :: fieldTexts fields

end

def checksumsText (map : Checksums) : Pretty :=
  prettyObject (map.map fun (name, hash) => (name, prettyString hash))

def Manifest.text (m : Manifest) : Pretty :=
  prettyObject ([("format", prettyNumber m.format), ("repository", prettyString m.repository),
    ("version", prettyString m.version), ("runner_version", prettyString m.runnerVersion),
    ("runner_files", checksumsText m.runnerFiles), ("files", checksumsText m.files),
    ("integration", checksumsText m.integration), ("prefix_files", checksumsText m.prefixFiles)] ++
    fieldTexts m.rest)

def Release.text (r : Release) : Pretty :=
  prettyObject ([("version", prettyString r.version), ("url", prettyString r.url),
    ("sha256", prettyString r.sha256), ("archive_root", prettyString r.archiveRoot)] ++
    (r.size.map fun size => ("size", prettyNumber size)).toList)

def Record.text (r : Record) : Pretty :=
  prettyObject [("version", prettyString r.version), ("bundle_manifest", r.bundleManifest.text),
    ("bundle_release", r.bundleRelease.text)]

/-- The objects of a manifest that `installed_manifest` checks. -/
def Manifest.checked (m : Manifest) : List Checksums :=
  [m.files, m.runnerFiles, m.prefixFiles, m.integration]

/-- The check of one of them. -/
def sound (map : Checksums) : Bool :=
  !map.isEmpty && map.length ≤ 256 && map.all fun (name, hash) => relative name && hexDigest hash

/-- `installed_manifest`, for a state that has a manifest. -/
def installedManifest (state : Record) : Except Error Manifest := do
  let snapshot := state.bundleManifest
  require (snapshot.format == 1 && snapshot.repository == PROJECT) (.invalid INVALID)
  require (state.version == snapshot.version) (.invalid INVALID)
  let _ ← version state.version
  require (snapshot.checked.all sound) (.invalid INVALID)
  return snapshot

def names (map : Checksums) : List String := map.map Prod.fst

/-- What the launcher comes with; its own manifest passes the check of an installed one. -/
structure Bundled extends Target where
  checked : bundle.checked.all sound = true

variable (bundled : Bundled)

/-- `compatible_manifest`; the checks of the variants, of earlier releases and of the setup policy
can only refuse more. -/
def compatibleManifest (policy : Except Error Unit) (lock : Manifest) : Except Error Unit := do
  let known := bundled.bundle
  require (lock.format == 1 && lock.repository == PROJECT) (.invalid INVALID)
  let _ ← version lock.version
  require (lock.runnerFiles == known.runnerFiles && lock.runnerVersion == known.runnerVersion)
    (.invalid UPGRADE)
  [(lock.files, known.files), (lock.integration, known.integration),
    (lock.prefixFiles, known.prefixFiles)].forM fun (mine, embedded) => do
      require (names mine == names embedded) (.invalid UPGRADE)
      require (mine.all fun row => hexDigest row.2) (.invalid INVALID)
  policy

/-! ## The state -/

structure State where
  /-- what lies at `private/fenix-patch-release.json` of the installation -/
  file : Option (Document Record) := none
  /-- the bundle from which the installed patch was made, as the patch program knows it -/
  patch : Option Manifest := none
  /-- `fenix_updates` -/
  candidate : Option Target := none
  baseline : String := ""
  /-- the version that the running check looks for newer ones than -/
  worker : Option String := none

/-- `recorded` -/
def recorded (s : State) : Except Error Record :=
  match s.file with
  | none => .ok ⟨bundled.bundle.version, bundled.bundle, bundled.release⟩
  | some file => do
    let value ← readDocument Record.text (2 * 1024 * 1024) (some file)
    let _ ← installedManifest value
    return value

/-- `engine`: the manifest with which the patch program is called. -/
def engine (s : State) : Except Error Manifest := return (← recorded bundled s).bundleManifest

/-- The version that `check` starts from. -/
def current (s : State) : Except Error String := return (← recorded bundled s).version

/-- The marker of a runtime that is selected too, when it says that a bundle is installed, and the
verdict of `installed_manifest` on it. -/
abbrev Marker := Option (Record × Except Error Unit)

def markerTarget (marker : Marker) (selected : Target) : Except Error Target := do
  let some (state, verdict) := marker | return selected
  if (← version selected.release.version) < (← version state.version) then
    verdict
    return ⟨state.bundleManifest, state.bundleRelease⟩
  return selected

/-- `selected` -/
def selected (marker : Except Error Marker) (s : State) : Except Error Target := do
  let record ← recorded bundled s
  let embedded := bundled.toTarget
  let own := if (← version embedded.release.version) < (← version record.version) then
    ⟨record.bundleManifest, record.bundleRelease⟩ else embedded
  let selected ← markerTarget (← marker) own
  let some candidate := s.candidate | return selected
  let latest ← version candidate.release.version
  let installed ← version selected.release.version
  if installed < latest && (!stable installed || stable latest) then
    return candidate
  return selected

/-! ## The operations -/

abbrev Run := EStateM (Stop Error) State

/-- How a job goes, where its own data do not decide it. -/
structure Course where
  /-- the selected installation, Steam and its processes, before anything else -/
  prepared : Except Error Unit := .ok ()
  marker : Except Error Marker := .ok none
  /-- what a check reports while the job runs -/
  reported : Option (Option Target) := none
  /-- the payload of the selected bundle is supplied or downloaded, and verified -/
  payload : Except Error Unit := .ok ()
  policy : Except Error Unit := .ok ()
  folder : Except Error Unit := .ok ()
  write : Fault := .none
  /-- what the patch program returns -/
  patch : Except Error Unit := .ok ()

def report (reported : Option (Option Target)) (s : State) : State :=
  match reported with
  | none => s
  | some candidate => { s with candidate }

/-- `start`, up to what it writes; the bundle is selected once more when it is obtained. -/
def prepare (course : Course) (s : State) : Except Error Record := do
  course.prepared
  let chosen ← selected bundled course.marker s
  let obtained ← selected bundled course.marker (report course.reported s)
  course.payload
  compatibleManifest bundled course.policy obtained.bundle
  course.folder
  return ⟨obtained.bundle.version, obtained.bundle, chosen.release⟩

/-- `start` for `install` -/
def install (course : Course) : Run Unit := do
  let s ← get
  modify (report course.reported)
  let record ← prepare bundled course s
  perform course.write .io (modify fun s => { s with file := some (.value record) })
  course.patch
  modify fun s => { s with patch := some record.bundleManifest }

/-- `start` for `restore` -/
def restore (course : Course) : Run Unit := do
  course.prepared
  let _ ← engine bundled (← get)
  course.patch
  modify fun s => { s with patch := none }

/-- `start` for an operation that changes only how the patch is set up. -/
def configure (course : Course) : Run Unit := do
  course.prepared
  let _ ← engine bundled (← get)
  course.patch

/-- `fenix_update::check`; `due` is `retry_due`, or that the check is forced. -/
def check (due : Bool) : Run Unit := do
  let s ← get
  let current ← current bundled s
  unless s.worker.isSome || (!due && s.baseline == current) do
    set { s with baseline := current, worker := some current }

/-- The end of the check's thread, with what `discover` finds. -/
def endCheck (discover : String → Except Error (Option Target)) : Run Unit := do
  let s ← get
  let some current := s.worker | return
  match discover current with
  | .ok candidate => set { s with candidate, worker := none }
  | .error _ => set { s with worker := none }

inductive Operation where
  | install (course : Course)
  | restore (course : Course)
  | configure (course : Course)
  | check (due : Bool)
  | endCheck (discover : String → Except Error (Option Target))

def Operation.run : Operation → Run Unit
  | .install course => Fenix.install bundled course
  | .restore course => Fenix.restore bundled course
  | .configure course => Fenix.configure bundled course
  | .check due => Fenix.check bundled due
  | .endCheck discover => Fenix.endCheck discover

/-- The state after operations that succeeded, failed or stopped. -/
def after (s : State) : List Operation → State
  | [] => s
  | op :: ops => after (stateOf (op.run bundled s)) ops

end Flightdeck.Updates.Fenix
