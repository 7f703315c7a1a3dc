import Flightdeck.Cloud.Import

/-!
# The private folder and the session journal

What the launcher keeps on the disk for one account and one title, and what the cloud modules read
from it.  A journal is never proof that an upload succeeded: every digest it names is checked
against a snapshot or a backup.
-/

namespace Flightdeck.Cloud.Session

open Foundation SaveState

inductive Phase where
  | prepared | playing | uploading | pending
  deriving DecidableEq, Repr

def Phase.text : Phase → String
  | .prepared => "prepared"
  | .playing => "playing"
  | .uploading => "uploading"
  | .pending => "pending"

structure Reference where
  id : String
  manifestSha256 : String
  containerCount : Nat
  blobCount : Nat
  totalBytes : Nat
  deriving DecidableEq

structure Record where
  schema : Nat := 1
  scopeBinding : String
  «namespace» : String
  sessionId : String
  revision : Nat
  phase : Phase
  snapshot : Reference
  originalRemoteDigest : String
  beforeRemoteDigest : String
  preLocalDigest : String
  preLocalSha256 : String
  initialBackupId : String
  targetDigest : String
  targetSha256 : String
  targetLocalSha256 : String
  targetBackupId : String
  generation : UInt64
  confirmedBackupId : Option String
  deriving DecidableEq

def Reference.json (r : Reference) : String :=
  jsonObject [("id", jsonString r.id), ("manifest_sha256", jsonString r.manifestSha256),
    ("container_count", jsonNumber r.containerCount), ("blob_count", jsonNumber r.blobCount),
    ("total_bytes", jsonNumber r.totalBytes)]

/-- The bytes of the journal. -/
@[irreducible] def Record.toVec (r : Record) : Bytes :=
  utf8 (jsonObject [("schema", jsonNumber r.schema), ("scope_binding", jsonString r.scopeBinding),
    ("namespace", jsonString r.namespace), ("session_id", jsonString r.sessionId),
    ("revision", jsonNumber r.revision), ("phase", jsonString r.phase.text),
    ("snapshot", r.snapshot.json), ("original_remote_digest", jsonString r.originalRemoteDigest),
    ("before_remote_digest", jsonString r.beforeRemoteDigest),
    ("pre_local_digest", jsonString r.preLocalDigest),
    ("pre_local_sha256", jsonString r.preLocalSha256),
    ("initial_backup_id", jsonString r.initialBackupId),
    ("target_digest", jsonString r.targetDigest), ("target_sha256", jsonString r.targetSha256),
    ("target_local_sha256", jsonString r.targetLocalSha256),
    ("target_backup_id", jsonString r.targetBackupId),
    ("generation", jsonNumber r.generation.toNat),
    ("confirmed_backup_id", jsonOption r.confirmedBackupId)])

/-- The files of one namespace, and the folders it shares with others.  The locks that the source
takes before it reads or writes keep every other process of the launcher and the game away. -/
structure Disk where
  /-- Whether `local-saves.enabled` exists. -/
  enabled : Bool := true
  stateBin : Option Bytes := none
  baseline : Option Import.Pointer := none
  receipts : TextMap Import.CommonReceipt := ∅
  backups : TextMap Import.Backup := ∅
  snapshots : TextMap Storage.Folder := ∅
  journal : Option Record := none
  /-- `cloud-offline.pending`. -/
  offline : Option Bytes := none
  /-- The bytes that each replacement of `state.bin` overwrote; nothing reads them. -/
  replaced : List (Option Bytes) := []

/-! ## Local saves -/

/-- `Local::open` and `Local::state`. -/
def Disk.state [Sha256] (disk : Disk) : Except Failure (Option Bytes × State) := do
  Cloud.require disk.enabled .unsupported
  Cloud.require (disk.stateBin.all (·.length ≤ Import.MAX_STATE)) .unsupported
  return (disk.stateBin, ← Import.decodeOption disk.stateBin)

def loadBaseline [Sha256] (scope : Scope) (disk : Disk) : Except Failure (Option Import.Baseline) :=
  let load : Except Failure (Option Import.Baseline) := do
    let «namespace» ← scope.namespace
    Cloud.require disk.enabled .unsupported
    match disk.baseline with
    | none => return none
    | some pointer =>
      some <$> Import.provenBaseline disk.receipts disk.backups scope.binding «namespace» pointer
  load.mapError fun _ => .new .invalidPlan

def prepare [Sha256] (scope : Scope) (snap : Storage.Snapshot) (baseline : Option Import.Baseline)
    (disk : Disk) : Except Failure Import.Plan := do
  let binding := scope.binding
  let «namespace» ← scope.namespace
  Cloud.require (baseline.all (·.binding == binding)) .invalidScope
  let remote ← Import.snapshot disk.snapshots binding snap
  let (raw, state) ← disk.state
  let left ← Import.containers state
  let right ← Import.containers remote.state
  return {
    binding, «namespace»
    localDigest := Import.rawDigest raw
    remoteDigest := ← Import.digest remote.state
    snapshotDigest := remote.digest
    generation := state.generation
    decisions := Import.decisions left right (baseline.map (·.containers))
    snapshot := snap
    baseline
    counts := (snap.containerCount, snap.blobCount, snap.totalBytes, state.containers.size) }

structure LocalExport where
  binding : String
  «namespace» : String
  rawDigest : String
  contentDigest : String
  generation : UInt64
  encoded : Bytes
  deriving DecidableEq

def LocalExport.state [Sha256] (e : LocalExport) : Except Failure State := Import.decode e.encoded

/-- `export_local`, after the cancel flag. -/
def exportFrom [Sha256] (scope : Scope) (disk : Disk) : Except Failure LocalExport := do
  let «namespace» ← scope.namespace
  let (raw, state) ← disk.state
  return {
    binding := scope.binding
    «namespace»
    rawDigest := Import.rawDigest raw
    contentDigest := ← Import.digest state
    generation := state.generation
    encoded := ← match raw with
      | some raw => .ok raw
      | none => Import.encode state }

def LocalExport.unchanged [Sha256] (e : LocalExport) (disk : Disk) : Except Failure Unit := do
  let (raw, _) ← disk.state
  Cloud.require (Import.rawDigest raw == e.rawDigest) .changed

/-! ## The journal -/

def I64_MAX : Nat := 2 ^ 63 - 1

def missingOrDigest (value : String) : Bool := value == "missing" || hexDigest value

/-- The snapshot a record refers to. -/
def Reference.snapshot (r : Reference) (binding : String) : Storage.Snapshot where
  id := r.id
  scopeBinding := binding
  containerCount := r.containerCount
  blobCount := r.blobCount
  totalBytes := r.totalBytes
  consistency := Storage.CONSISTENCY

/-- `save_state::decode` where its error becomes a `Failure`. -/
def decodeState [Sha256] (raw : Bytes) : Except Failure State :=
  (SaveState.decode raw).mapError Failure.ofError

/-- The state that a backup saved. -/
def initialState [Sha256] (original : Option Bytes) : Except Failure State :=
  match original with
  | some original => decodeState original
  | none => .ok {}

/-- The check of the remote digest that an upload must find. -/
def validConfirmed [Sha256] (disk : Disk) (binding «namespace» : String) (r : Record) :
    Except Failure Unit :=
  match r.confirmedBackupId with
  | some id => do
    let confirmed ← Import.backupData disk.backups binding «namespace» id
    Cloud.require ((← Import.digest (← decodeState confirmed.imported)) == r.beforeRemoteDigest)
      .invalidSession
  | none => Cloud.require (r.beforeRemoteDigest == r.originalRemoteDigest) .invalidSession

/-- `Access::validated`. -/
def validated [Sha256] (disk : Disk) (binding «namespace» : String) (r : Record) :
    Except Failure Record := do
  Cloud.require (r.schema == 1 && r.scopeBinding == binding && r.namespace == «namespace» &&
    identifier r.sessionId "" && r.revision ≤ I64_MAX) .invalidSession
  Cloud.require ([r.originalRemoteDigest, r.beforeRemoteDigest, r.preLocalDigest, r.targetDigest,
    r.targetSha256].all hexDigest) .invalidSession
  Cloud.require ([r.preLocalSha256, r.targetLocalSha256].all missingOrDigest) .invalidSession
  Cloud.require (identifier r.snapshot.id "snapshot-" && hexDigest r.snapshot.manifestSha256)
    .invalidSession
  let remote ← Import.snapshot disk.snapshots binding (r.snapshot.snapshot binding)
  Cloud.require (remote.digest == r.snapshot.manifestSha256 &&
    (← Import.digest remote.state) == r.originalRemoteDigest) .invalidSession
  let initial ← Import.backupData disk.backups binding «namespace» r.initialBackupId
  Cloud.require (Import.rawDigest initial.original == r.preLocalSha256 &&
    (← Import.digest (← initialState initial.original)) == r.preLocalDigest) .invalidSession
  let target ← Import.backupData disk.backups binding «namespace» r.targetBackupId
  let state ← decodeState target.imported
  Cloud.require (sha256 target.imported == r.targetSha256 && state.generation == r.generation &&
    (← Import.digest state) == r.targetDigest &&
    target.metadata.stateSha256.getD "missing" == r.targetLocalSha256) .invalidSession
  validConfirmed disk binding «namespace» r
  return r

def load [Sha256] (scope : Scope) (disk : Disk) : Except Failure (Option Record) := do
  let «namespace» ← scope.namespace
  match disk.journal with
  | none => return none
  | some r => some <$> validated disk scope.binding «namespace» r

/-- `Access::current`. -/
def current [Sha256] (scope : Scope) (r : Record) (disk : Disk) : Except Failure Unit := do
  Cloud.require ((← load scope disk) == some r) .changed
  Cloud.require (r.revision < I64_MAX) .invalidSession

/-! ## The pending local session -/

def OFFLINE_BODY : Bytes := utf8 "Flightdeck local session pending\n"

/-- `offline` without `set`. -/
def offline (disk : Disk) : Except Failure Bool := do
  match disk.offline with
  | none => return false
  | some bytes => do
    Cloud.require (bytes.length ≤ 128) .unsupported
    Cloud.require (bytes == OFFLINE_BODY) .localStorage
    return true

end Flightdeck.Cloud.Session
