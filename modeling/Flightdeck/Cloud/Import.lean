import Flightdeck.Cloud.Policy
import Flightdeck.Cloud.Snapshot

/-!
# Plans and backups

The comparison of the local state with a snapshot, the choices a plan leaves open, and what is read
back from the private folder of the launcher: backups, receipts and the baseline they prove.
-/

namespace Flightdeck.Cloud.Import

open Foundation SaveState

/-! ## Comparing -/

def rawDigest [Sha256] (raw : Option Bytes) : String := (raw.map sha256).getD "missing"

/-- The content digest of every container on its own. -/
def containers [Sha256] (state : State) : Except Failure (TextMap String) :=
  state.containers.toList.foldlM (fun (digests : TextMap String) entry => do
    return digests.insert entry.1 (← digest (single entry.1 entry.2))) ∅

structure Baseline where
  binding : String
  containers : TextMap String
  deriving DecidableEq

def Baseline.saveSet (baseline : Baseline) : Except Failure SaveSet :=
  (SaveSet.new baseline.binding baseline.containers).mapError Failure.ofError

def baseline [Sha256] (binding : String) (state : State) : Except Failure Baseline := do
  return { binding, containers := ← containers state }

/-- The actions of a plan, as the source spells them. -/
inductive PlanAction where
  | unchanged | cloud | «local» | conflict
  deriving DecidableEq, Repr

structure Decision where
  name : String
  action : PlanAction
  «local» : Bool
  remote : Bool
  deriving DecidableEq

structure Plan where
  binding : String
  «namespace» : String
  localDigest : String
  remoteDigest : String
  snapshotDigest : String
  generation : UInt64
  decisions : List Decision
  snapshot : Storage.Snapshot
  baseline : Option Baseline
  counts : Nat × Nat × Nat × Nat
  deriving DecidableEq

/-- What the plan does with one name. -/
def planAction (left right : TextMap String) (old : Option (TextMap String)) (name : String) :
    PlanAction :=
  let a := left[name]?
  let b := right[name]?
  let before := old.bind (·[name]?)
  if a = b then .unchanged
  else if (old.isSome && a == before) || (old.isNone && a.isNone) then .cloud
  else if old.isSome && b == before then .local
  else .conflict

def decisions (left right : TextMap String) (old : Option (TextMap String)) : List Decision :=
  (unionNames left right old).map fun name =>
    { name, action := planAction left right old name, «local» := left[name]?.isSome,
      remote := right[name]?.isSome }

inductive Choice where
  | automatic
  | cloud
  | «local»
  | conflicts (choices : TextMap Bool)

def Plan.conflicts (plan : Plan) : List String :=
  (plan.decisions.filter fun d => d.action = .conflict).map Decision.name

/-- One turn of the loop over the decisions. -/
def selectEntry («local» remote : State) (choices : TextMap Bool) (selected : TextMap Container)
    (d : Decision) : TextMap Container :=
  let fromCloud := choices[d.name]?.getD (d.action = .cloud)
  match (if fromCloud then remote else «local»).containers[d.name]? with
  | some entry => selected.insert d.name entry
  | none => selected

def selectAll («local» remote : State) (plan : Plan) (choices : TextMap Bool) :
    Except Failure State := do
  Cloud.require (choices.keys == (insertAll (∅ : TextSet)
    (plan.conflicts.map fun name => (name, ()))).keys) .conflict
  return { «local» with
    containers := plan.decisions.foldl (selectEntry «local» remote choices) ∅ }

def select («local» remote : State) (plan : Plan) : Choice → Except Failure State
  | .cloud => .ok { «local» with containers := remote.containers }
  | .local => .ok «local»
  | .conflicts choices => selectAll «local» remote plan choices
  | .automatic => selectAll «local» remote plan ∅

/-! ## The private folder -/

def encode [Sha256] (state : State) : Except Failure Bytes :=
  (SaveState.encode state).mapError fun _ => .new .unsupported

def decode [Sha256] (raw : Bytes) : Except Failure State :=
  (SaveState.decode raw).mapError fun _ => .new .unsupported

/-- A missing file is the empty state. -/
def decodeOption [Sha256] (raw : Option Bytes) : Except Failure State :=
  match raw with
  | some raw => decode raw
  | none => .ok {}

def MAX_STATE : Nat := QUOTA + METADATA_LIMIT + 32

structure BackupMetadata where
  schema : Nat := 1
  scopeBinding : String
  «namespace» : String
  existed : Bool
  stateSha256 : Option String
  generation : UInt64
  replacementSha256 : String
  snapshotSha256 : Option String
  deriving DecidableEq

/-- A published backup directory: `manifest.json`, `state.bin` and `imported.bin`. -/
structure Backup where
  metadata : BackupMetadata
  original : Option Bytes
  imported : Bytes
  deriving DecidableEq

/-- What `backup` publishes. -/
def Backup.of [Sha256] (binding «namespace» : String) (raw : Option Bytes) (replacement : Bytes)
    (snapshotDigest : Option String) : Except Failure Backup := do
  let generation := (← decodeOption raw).generation
  return {
    metadata := {
      scopeBinding := binding, «namespace», existed := raw.isSome,
      stateSha256 := raw.map sha256, generation,
      replacementSha256 := sha256 replacement, snapshotSha256 := snapshotDigest }
    original := raw
    imported := replacement }

def backupData [Sha256] (backups : TextMap Backup) (binding «namespace» id : String) :
    Except Failure Backup := do
  Cloud.require (identifier id "backup-") .invalidPlan
  let some backup := backups[id]? | throw (.new .localStorage)
  let m := backup.metadata
  Cloud.require (m.schema == 1 && m.scopeBinding == binding && m.namespace == «namespace» &&
    hexDigest m.replacementSha256 && m.snapshotSha256.all hexDigest) .invalidPlan
  Cloud.require (backup.original.isSome == m.existed) .invalidPlan
  Cloud.require (backup.original.all (·.length ≤ MAX_STATE) && backup.imported.length ≤ MAX_STATE)
    .unsupported
  Cloud.require (backup.original.map sha256 == m.stateSha256 &&
    sha256 backup.imported == m.replacementSha256) .invalidPlan
  Cloud.require ((← decodeOption backup.original).generation == m.generation) .invalidPlan
  let _ ← decode backup.imported
  return backup

/-- `cloud-baseline.json`. -/
structure Pointer where
  schema : Nat := 1
  scopeBinding : String
  «namespace» : String
  receipt : String
  sha256 : String
  deriving DecidableEq

/-- A file of `cloud-import-receipts`. -/
structure CommonReceipt where
  schema : Nat := 1
  kind : String
  scopeBinding : String
  «namespace» : String
  backupId : String
  importedSha256 : String
  contentDigest : String
  deriving DecidableEq

/-- `serde_json` writes the keys of a `json!` object in their order. -/
@[irreducible] def CommonReceipt.toVec (receipt : CommonReceipt) : Bytes :=
  utf8 (jsonObject [("backup_id", jsonString receipt.backupId),
    ("content_digest", jsonString receipt.contentDigest),
    ("imported_sha256", jsonString receipt.importedSha256), ("kind", jsonString receipt.kind),
    ("namespace", jsonString receipt.namespace), ("schema", jsonNumber receipt.schema),
    ("scope_binding", jsonString receipt.scopeBinding)])

/-- The file name of the receipt for a backup. -/
def receiptName (id : String) : String := id ++ ".json"

/-- The closure of `load_baseline` once the pointer is read. -/
def provenBaseline [Sha256] (receipts : TextMap CommonReceipt) (backups : TextMap Backup)
    (binding «namespace» : String) (pointer : Pointer) : Except Failure Baseline := do
  Cloud.require (pointer.schema == 1 && pointer.scopeBinding == binding &&
    pointer.namespace == «namespace» &&
    (stripSuffix pointer.receipt ".json").any (identifier · "backup-")) .invalidPlan
  let some receipt := receipts[pointer.receipt]? | throw (.new .localStorage)
  Cloud.require (Flightdeck.sha256 receipt.toVec == pointer.sha256) .invalidPlan
  Cloud.require (receipt.schema == 1 && (receipt.kind == "import" || receipt.kind == "sync") &&
    receipt.scopeBinding == binding && receipt.namespace == «namespace» &&
    receiptName receipt.backupId == pointer.receipt) .invalidPlan
  let backup ← backupData backups binding «namespace» receipt.backupId
  let state ← decode backup.imported
  Cloud.require (receipt.importedSha256 == backup.metadata.replacementSha256 &&
    receipt.contentDigest == (← digest state)) .invalidPlan
  baseline binding state

end Flightdeck.Cloud.Import
