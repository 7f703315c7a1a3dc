import Flightdeck.Cloud.Exports
import Flightdeck.Components.Files

/-!
# Component updates

`refresh_with` exchanges the managed files of a runtime under the journal `component-update.json`,
and `recover` finishes or undoes an exchange that was cut off.
-/

namespace Flightdeck.Components

open Foundation
open Cloud (identifier simpleUuid identifier_uuid)

/-! ## Manifests -/

structure Artifacts where
  format : Nat := 1
  files : Rows
  features : String
  cliFeatures : String
  nativeArchiveSha256 : String
  deriving DecidableEq

/-- `import-manifest.json`; `rest` is the text of all that an update does not touch. -/
structure Record where
  format : Nat
  artifacts : Artifacts
  runtimeFiles : Option Rows
  rest : String
  deriving DecidableEq

/-- How `serde_json` reads and writes manifests. -/
class ManifestText where
  parse : Bytes → Option Record
  toVec : Record → Bytes

/-- `component-update.json`. -/
structure Journal where
  format : Nat
  backup : String
  before : Rows
  after : Rows
  manifestSha256 : String
  scriptsBefore : Rows
  scriptsAfter : Rows
  deriving DecidableEq

/-- What a journal tells once it is checked. Without scripts only the components are updated. -/
structure Pending where
  backup : String
  before : Hashes Component
  after : Hashes Component
  manifestSha256 : String
  scripts : Option (Hashes Script × Hashes Script)

def Pending.journal (p : Pending) : Journal where
  format := if p.scripts.isSome then 2 else 1
  backup := p.backup
  before := p.before.rows
  after := p.after.rows
  manifestSha256 := p.manifestSha256
  scriptsBefore := (p.scripts.map fun scripts => Hashes.rows scripts.1).getD []
  scriptsAfter := (p.scripts.map fun scripts => Hashes.rows scripts.2).getD []

def INVALID_JOURNAL : Error := .invalid "Ungültiges Komponentenjournal."

def Journal.check (journal : Journal) : Except Error Pending := do
  require ((journal.format == 1 || journal.format == 2) &&
      identifier journal.backup ".component-")
    (.invalid "Das unterbrochene Komponentenupdate hat ungültige Metadaten.")
  let before ← hashes journal.before
  let after ← hashes journal.after
  let scripts ← if journal.format == 2 then do
      let scriptsBefore ← hashes journal.scriptsBefore
      let scriptsAfter ← hashes journal.scriptsAfter
      pure (some (scriptsBefore, scriptsAfter))
    else pure none
  require (hexDigest journal.manifestSha256) INVALID_JOURNAL
  return { backup := journal.backup, before, after, manifestSha256 := journal.manifestSha256, scripts }

/-! ## The disk -/

structure Disk where
  journal : Option (Document Journal) := none
  /-- the folders in `private` -/
  folders : String → Option Folder := fun _ => none
  files : Folder

/-- Why a backup folder is removed. -/
inductive Phase where
  | installed
  | restored
  | abandoned
  deriving DecidableEq

/-- The places where an update changes the disk. -/
inductive Site where
  | makeFolder
  | copy (m : Managed)
  | journal
  | install (m : Managed)
  | permit (s : Script)
  | restore (m : Managed)
  | openFolder (phase : Phase)
  | removeFile (phase : Phase) (m : Managed)
  | removeFolder (phase : Phase)
  | removeJournal (phase : Phase)
  | sync (phase : Phase)
  deriving DecidableEq

/-- What befalls a run: its faults, and the order in which a folder lists its files. -/
structure Course where
  fault : Site → Fault
  order : List Managed
  mem_order (m : Managed) : m ∈ order

abbrev Durable := EStateM (Stop Error) Disk

def Disk.write (disk : Disk) (m : Managed) (file : File) : Disk :=
  { disk with files := Function.update disk.files m (some file) }

/-- `transaction::owned_file`. -/
def owned (file : Option File) : Except Error File :=
  match file with
  | some file => .ok file
  | none => .error .io

variable [Sha256]

/-- The file has this hash. -/
def File.is (file : File) (hash : String) : Bool := sha256 file.bytes == hash

def BACKUP_CHANGED : Error := .invalid "Die Sicherung des Komponentenupdates wurde verändert."

def CHANGED : Error :=
  .invalid "Eine Runtime-Komponente wurde verändert. Es wird nichts überschrieben."

def SCRIPT_CHANGED : Error :=
  .invalid "Ein Runtime-Skript wurde verändert. Es wird nichts überschrieben."

def verifyTargets (files : Folder) (expected : Hashes Component) : Except Error Unit :=
  Target.all.forM fun t => do
    let file ← owned (files (.target t))
    require (file.is (expected t.component)) CHANGED

def verifyScripts (files : Folder) (expected : Option (Hashes Script)) : Except Error Unit :=
  match expected with
  | none => pure ()
  | some expected => (Named.all : List Script).forM fun s => do
    let file ← owned (files (.script s))
    require (file.executable && file.is (expected s)) SCRIPT_CHANGED

def manifestLimit : Nat := 2 * 1024 * 1024

def readManifest [ManifestText] (files : Folder) : Except Error (Record × Hashes Component) := do
  let file ← owned (files .manifest)
  require (file.bytes.length ≤ manifestLimit)
    (.invalid "Datei oder Ordner ist nicht sicher zugänglich.")
  let some record := ManifestText.parse file.bytes | throw .json
  require (record.format == 1)
    (.invalid "Die Runtime-Komponentenbeschreibung ist ungültig.")
  let installed ← hashes record.artifacts.files
  return (record, installed)

/-! ## Recovery -/

/-- `remove_dir_all`. -/
def removeAll (course : Course) (phase : Phase) (name : String) : Durable Unit := do
  course.order.forM fun m => do
    let disk ← get
    match disk.folders name with
    | none => pure ()
    | some folder =>
      if (folder m).isSome then
        perform (course.fault (.removeFile phase m)) .io (modify fun disk =>
          { disk with
            folders := Function.update disk.folders name (some (Function.update folder m none)) })
  perform (course.fault (.removeFolder phase)) .io (modify fun disk =>
    { disk with folders := Function.update disk.folders name none })

def removeJournal (course : Course) (phase : Phase) : Durable Unit := do
  perform (course.fault (.removeJournal phase)) .io (modify fun disk =>
    { disk with journal := none })
  perform (course.fault (.sync phase)) .io (pure ())

def cleanup (course : Course) (phase : Phase) (backup : String) : Durable Unit := do
  let disk ← get
  if (disk.folders backup).isSome then
    perform (course.fault (.openFolder phase)) .io (pure ())
    removeAll course phase backup
  removeJournal course phase

/-- The files that an update with or without scripts manages. -/
def scope (scripts : Bool) : List Managed :=
  Target.all.map .target ++ (if scripts then (Named.all : List Script).map .script else []) ++
    [.manifest]

/-- The hash that a file of the scope had before the update. -/
def Pending.expected (p : Pending) : Managed → String
  | .target t => p.before t.component
  | .script s => (p.scripts.map fun scripts => scripts.1 s).getD ""
  | .manifest => p.manifestSha256

/-- Everything is in its new version. -/
def Pending.installed [ManifestText] (p : Pending) (files : Folder) : Bool :=
  (match readManifest files with
    | .ok (record, current) =>
      current == p.after && p.scripts.all fun scripts =>
        record.runtimeFiles.any fun rows => Hashes.sameRows scripts.2 rows
    | .error _ => false) &&
  (verifyTargets files p.after).isOk && (verifyScripts files (p.scripts.map Prod.snd)).isOk

/-- The backup is complete, and no file that it restores is missing. -/
def Pending.verifyBackup (p : Pending) (backup files : Folder) : Except Error Unit := do
  let manifest ← owned (backup .manifest)
  require (manifest.is p.manifestSha256) BACKUP_CHANGED
  verifyScripts backup (p.scripts.map Prod.fst)
  if p.scripts.isSome then
    (Named.all : List Script).forM fun s => discard (owned (files (.script s)))
  Target.all.forM fun t => do
    let file ← owned (backup (.target t))
    require (file.is (p.before t.component)) BACKUP_CHANGED
    discard (owned (files (.target t)))

/-- `transaction::copy` from the backup to the place of the file. -/
def restoreFile (course : Course) (p : Pending) (m : Managed) : Durable Unit := do
  let disk ← get
  let some folder := disk.folders p.backup | throw (.error .io)
  let file ← owned (folder m)
  require (file.is (p.expected m))
    (Error.invalid "Eine Komponente wurde während der Kopie verändert.")
  perform (course.fault (.restore m)) .io (modify fun disk => disk.write m file)

def recover [ManifestText] (course : Course) : Durable Unit := do
  let disk ← get
  let some file := disk.journal | return
  let .value journal := file | throw (.error .json)
  let p ← journal.check
  if p.installed disk.files then
    cleanup course .installed p.backup
  else
    let some folder := disk.folders p.backup | throw (.error .io)
    p.verifyBackup folder disk.files
    (scope p.scripts.isSome).forM (restoreFile course p)
    cleanup course .restored p.backup

/-! ## Updating -/

structure ScriptLock where
  files : Rows
  upgradeFrom : Option (List Rows)

/-- `compat/bootstrap.lock.json`. -/
structure Lock where
  files : Rows
  upgradeFrom : Option (List Rows)
  features : String
  cliFeatures : String
  archiveSha256 : String
  runtimeScripts : Option ScriptLock

/-- What an update brings along and finds outside of the files it manages. -/
structure Host where
  lock : Lock
  native : Component → Option File
  /-- `resources::asset` of the start scripts -/
  asset : Script → Option Bytes
  /-- the launch scripts of the Fenix releases, from `compat/fenix/bundle.json` -/
  overlay : Except Error (Script → List String)
  protonSwitch : Bool
  /-- `resources::ensure_helper` -/
  ensureHelper : Except Error Unit
  uuid : Nat

/-- The scripts are those of one release, but for variants of the overlay. -/
def overlaySet (overlay : Except Error (Script → List String)) (actual : Hashes Script)
    (releases : List (Hashes Script)) : Except Error Bool := do
  let known ← overlay
  return releases.any fun release => (Named.all : List Script).all fun s =>
    actual s == release s || (known s).contains (actual s)

/-- The hashes of the scripts as they are installed. -/
def scriptHashes (files : Folder) : Except Error (Hashes Script) := do
  (Named.all : List Script).forM fun s => do
    let file ← owned (files (.script s))
    require file.executable (.invalid "Ein Runtime-Skript ist nicht ausführbar.")
  return fun s => ((files (.script s)).map fun file => sha256 file.bytes).getD ""

/-- The scripts that the manifest records. -/
def recordedScripts (record : Record) : Except Error (Option (Hashes Script)) :=
  match record.runtimeFiles with
  | none => pure none
  | some rows => some <$> hashes rows

/-- The installed scripts are the recorded ones, and those of a known release. -/
def recognized (host : Host) (actual : Hashes Script) (recorded : Option (Hashes Script))
    (releases : List (Hashes Script)) : Except Error Bool :=
  if recorded.any (· != actual) then pure false
  else if releases.contains actual then pure true
  else overlaySet host.overlay actual releases

/-- The hashes of the scripts before and after the update. Without a list of scripts, or with
scripts that are no known release, none are updated. -/
def scripts (host : Host) (files : Folder) (record : Record) :
    Except Error (Option (Hashes Script × Hashes Script)) := do
  let some lock := host.lock.runtimeScripts | return none
  let current ← hashes lock.files
  let some rows := lock.upgradeFrom
    | throw (.invalid "Die Runtime-Skriptbeschreibung ist ungültig.")
  let previous ← rows.mapM hashes
  let actual ← scriptHashes files
  let recorded ← recordedScripts record
  let known ← recognized host actual recorded (previous ++ [current])
  return if known then some (actual, current) else none

/-- An update that is to be made. -/
structure Plan where
  record : Record
  pending : Pending

def Plan.newRecord (plan : Plan) (host : Host) : Record :=
  { plan.record with
    artifacts := {
      files := plan.pending.after.rows
      features := host.lock.features
      cliFeatures := host.lock.cliFeatures
      nativeArchiveSha256 := host.lock.archiveSha256 }
    runtimeFiles := match plan.pending.scripts with
      | some scripts => some (Hashes.rows scripts.2)
      | none => plan.record.runtimeFiles }

/-- The launcher brings the new scripts along. -/
def checkAssets (host : Host) (scripts : Option (Hashes Script × Hashes Script)) :
    Except Error Unit :=
  match scripts with
  | none => pure ()
  | some (_, newScripts) => do
    (Named.all : List Script).forM fun s =>
      require ((host.asset s).any fun bytes => sha256 bytes == newScripts s)
        (.invalid "Ein neues Runtime-Skript stimmt nicht mit dem geprüften Launcher überein.")
    host.ensureHelper

/-- The checks of `refresh_with` before it changes anything; nothing is to be done when everything
is current. -/
def prepare [ManifestText] (host : Host) (files : Folder) : Except Error (Option Plan) := do
  require (!host.protonSwitch) (.invalid "Der Proton-Wechsel muss zuerst abgeschlossen werden.")
  let new ← hashes host.lock.files
  let some rows := host.lock.upgradeFrom | throw (.invalid "Ungültige Komponentenliste.")
  let previous ← rows.mapM hashes
  (Named.all : List Component).forM fun c => do
    let file ← owned (host.native c)
    require (file.is (new c))
      (.invalid "Das geprüfte neue Kompatibilitätspaket fehlt. Bitte den vollständigen Launcher installieren.")
  let (record, old) ← readManifest files
  verifyTargets files old
  require (old == new || previous.contains old)
    (.invalid "Diese Runtime verwendet eigene oder unbekannte Komponenten. Das automatische Update ist dafür nicht freigegeben.")
  let scripts ← scripts host files record
  checkAssets host scripts
  if old == new && scripts.all fun scripts => scripts.1 == scripts.2 then
    return none
  let manifest ← owned (files .manifest)
  return some {
    record
    pending := {
      backup := ".component-" ++ simpleUuid host.uuid
      before := old
      after := new
      manifestSha256 := sha256 manifest.bytes
      scripts } }

/-- `transaction::copy` of a managed file into the backup. -/
def backupFile (course : Course) (p : Pending) (m : Managed) : Durable Unit := do
  let disk ← get
  let file ← owned (disk.files m)
  require (file.is (p.expected m))
    (Error.invalid "Eine Komponente wurde während der Kopie verändert.")
  perform (course.fault (.copy m)) .io (modify fun disk =>
    { disk with
      folders := Function.update disk.folders p.backup
        (some (Function.update ((disk.folders p.backup).getD fun _ => none) m (some file))) })

/-- The backup and the journal. -/
def stage (course : Course) (p : Pending) : Durable Unit := do
  (scope p.scripts.isSome).forM (backupFile course p)
  perform (course.fault .journal) .io (modify fun disk =>
    { disk with journal := some (.value p.journal) })

def installTarget (course : Course) (host : Host) (p : Pending) (t : Target) : Durable Unit := do
  let file ← owned (host.native t.component)
  require (file.is (p.after t.component))
    (Error.invalid "Eine Komponente wurde während der Kopie verändert.")
  perform (course.fault (.install (.target t))) .io (modify fun disk => disk.write (.target t) file)

/-- The script is written unreadable to others and becomes executable in a second step. -/
def installScript (course : Course) (host : Host) (s : Script) : Durable Unit := do
  let some bytes := host.asset s | throw (.error (.invalid "Ein Startskript fehlt."))
  perform (course.fault (.install (.script s))) .io (modify fun disk =>
    disk.write (.script s) { bytes, executable := false })
  perform (course.fault (.permit s)) .io (modify fun disk =>
    disk.write (.script s) { bytes, executable := true })

def exchange [ManifestText] (course : Course) (host : Host) (plan : Plan) : Durable Unit := do
  let p := plan.pending
  Target.all.forM (installTarget course host p)
  if p.scripts.isSome then
    (Named.all : List Script).forM (installScript course host)
  perform (course.fault (.install .manifest)) .io (modify fun disk =>
    disk.write .manifest
      { bytes := ManifestText.toVec (plan.newRecord host), executable := false })
  let disk ← get
  verifyTargets disk.files p.after
  verifyScripts disk.files (p.scripts.map Prod.snd)
  cleanup course .installed p.backup

/-- What befalls an update: the recovery that it starts with, the update, and the recovery that
follows when the exchange fails. -/
structure Courses where
  before : Course
  main : Course
  undo : Course

def update [ManifestText] (courses : Courses) (host : Host) (plan : Plan) : Durable Bool := do
  match ← outcome (stage courses.main plan.pending) with
  | .error e =>
    let _ ← outcome (removeAll courses.main .abandoned plan.pending.backup)
    throw (.error e)
  | .ok () =>
    match ← outcome (exchange courses.main host plan) with
    | .error e =>
      recover courses.undo
      throw (.error e)
    | .ok () => return true

def refreshWith [ManifestText] (courses : Courses) (host : Host) : Durable Bool := do
  recover courses.before
  let disk ← get
  let some plan ← prepare host disk.files | return false
  let backup := plan.pending.backup
  require (disk.folders backup).isNone Error.io
  perform (courses.main.fault .makeFolder) .io (modify fun disk =>
    { disk with folders := Function.update disk.folders backup (some fun _ => none) })
  update courses host plan

end Flightdeck.Components
