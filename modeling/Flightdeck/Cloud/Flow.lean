import Flightdeck.Cloud.World

/-!
# Cloud-first sessions

What happens before and after the game runs: the comparison with the cloud, the import, the journal
and the upload.
-/

namespace Flightdeck.Cloud.Flow

open Foundation SaveState Session

variable [Sha256] (service : Service) (scope : Scope)

/-! ## Imports -/

/-- `backup`, with the id of what it publishes. -/
def backup («namespace» : String) (raw : Option Bytes) (replacement : Bytes)
    (snapshotDigest : Option String) : EStateM Failure World String := do
  let value ← Import.Backup.of scope.binding «namespace» raw replacement snapshotDigest
  writing service fun uuid disk =>
    let id := "backup-" ++ uuid
    if disk.backups.contains id then .error (.new .localStorage)
    else .ok (id, { disk with backups := disk.backups.insert id value })

/-- `renameat` over `state.bin`. -/
def rename (encoded : Bytes) : EStateM Failure World Unit :=
  systemCall service fun _ disk =>
    .ok ((), { disk with stateBin := some encoded, replaced := disk.stateBin :: disk.replaced })

/-- `Local::commit`: whether the new state is durable. -/
def commit (previous : String) (encoded : Bytes) : EStateM Failure World Bool := do
  reading fun _ => .ok ()
  cancelCheck
  let (fresh, _) ← reading Disk.state
  Cloud.require (Import.rawDigest fresh == previous) .changed
  rename service encoded
  match ← attempt (reading fun _ => .ok ()) with
  | .ok () => return true
  | .error _ => return false

def publishCommon («namespace» id : String) (encoded : Bytes) (kind : String) :
    EStateM Failure World Unit := do
  let receipt : Import.CommonReceipt := {
    kind, scopeBinding := scope.binding, «namespace», backupId := id
    importedSha256 := sha256 encoded
    contentDigest := ← Import.digest (← Import.decode encoded) }
  let name := Import.receiptName id
  writing service fun _ disk =>
    if disk.receipts.contains name then .error (.new .localStorage)
    else .ok ((), { disk with receipts := disk.receipts.insert name receipt })
  writing service fun _ disk =>
    .ok ((), { disk with baseline := some {
      scopeBinding := scope.binding, «namespace», receipt := name
      sha256 := Flightdeck.sha256 receipt.toVec } })

structure ImportResult where
  imported : Bool
  backupId : Option String
  generation : UInt64
  containerCount : Nat
  blobCount : Nat
  totalBytes : Nat
  durabilityConfirmed : Bool
  baseline : Option Import.Baseline

/-- The part of `apply` that replaces the local state by the selected one. -/
def replaceLocal (plan : Import.Plan) (raw : Option Bytes) (selected : State) :
    EStateM Failure World ImportResult := do
  let encoded ← Import.encode selected
  cancelCheck
  let id ← backup service scope plan.namespace raw encoded (some plan.snapshotDigest)
  let durable ← commit service plan.localDigest encoded
  let (c, b, t) := Import.counts selected
  let result : ImportResult := {
    imported := true, backupId := some id, generation := selected.generation
    containerCount := c, blobCount := b, totalBytes := t
    durabilityConfirmed := durable, baseline := none }
  if (← Import.digest selected) == plan.remoteDigest then
    match ← attempt (publishCommon service scope plan.namespace id encoded "import") with
    | .ok () => return { result with baseline := some (← Import.baseline scope.binding selected) }
    | .error _ => return { result with durabilityConfirmed := false }
  else
    return result

def apply (plan : Import.Plan) (choice : Import.Choice) : EStateM Failure World ImportResult := do
  let «namespace» ← scope.namespace
  Cloud.require (plan.binding == scope.binding && plan.namespace == «namespace») .invalidScope
  cancelCheck
  let remote ← reading fun disk => Import.snapshot disk.snapshots scope.binding plan.snapshot
  Cloud.require (remote.digest == plan.snapshotDigest &&
    (← Import.digest remote.state) == plan.remoteDigest) .changed
  let (raw, state) ← reading Disk.state
  Cloud.require (Import.rawDigest raw == plan.localDigest && state.generation == plan.generation)
    .changed
  let selected ← Import.select state remote.state plan choice
  if (← Import.digest selected) == (← Import.digest state) then
    let (c, b, t) := Import.counts selected
    return {
      imported := false, backupId := none, generation := state.generation
      containerCount := c, blobCount := b, totalBytes := t
      durabilityConfirmed := true, baseline := plan.baseline }
  else
    Cloud.require (state.generation.toNat + 1 < 2 ^ 64) .unsupported
    replaceLocal service scope plan raw { selected with generation := state.generation + 1 }

def restore (id : String) : EStateM Failure World ImportResult := do
  let «namespace» ← scope.namespace
  cancelCheck
  let old ← reading fun disk => Import.backupData disk.backups scope.binding «namespace» id
  let (raw, state) ← reading Disk.state
  Cloud.require (raw.isSome && Import.rawDigest raw == old.metadata.replacementSha256) .changed
  let original ← Import.decodeOption old.original
  Cloud.require (state.generation.toNat + 1 < 2 ^ 64) .unsupported
  let restored := { original with generation := state.generation + 1 }
  let encoded ← Import.encode restored
  let saved ← backup service scope «namespace» raw encoded none
  let durable ← commit service (Import.rawDigest raw) encoded
  let (c, b, t) := Import.counts restored
  return {
    imported := true, backupId := some saved, generation := restored.generation
    containerCount := c, blobCount := b, totalBytes := t
    durabilityConfirmed := durable, baseline := none }

def exportLocal : EStateM Failure World LocalExport := do
  cancelCheck
  reading (exportFrom scope)

def assertUnchanged (e : LocalExport) : EStateM Failure World Unit := reading e.unchanged

/-- The bytes of `state.bin` when the export was made. -/
def LocalExport.raw (e : LocalExport) : Option Bytes :=
  if e.rawDigest = "missing" then none else some e.encoded

def recordCommon (e : LocalExport) (receipt : Write.Receipt) :
    EStateM Failure World Import.Baseline := do
  assertUnchanged e
  Cloud.require (receipt.binding == e.binding && receipt.source == e.contentDigest) .invalidPlan
  let (raw, state) ← reading Disk.state
  let id ← backup service scope e.namespace raw e.encoded none
  assertUnchanged e
  publishCommon service scope e.namespace id e.encoded "sync"
  Import.baseline e.binding state

/-! ## The journal -/

/-- `Access::new`. -/
def access (e : Option LocalExport) : EStateM Failure World Unit := do
  let «namespace» ← scope.namespace
  match e with
  | some e => do
    assertUnchanged e
    Cloud.require (e.binding == scope.binding && e.namespace == «namespace») .invalidScope
  | none => pure ()

/-- A backup that holds the exported state on both sides. -/
def capture (e : LocalExport) : EStateM Failure World (String × String) := do
  assertUnchanged e
  let id ← backup service scope e.namespace (LocalExport.raw e) e.encoded none
  assertUnchanged e
  return (id, sha256 e.encoded)

/-- `Access::store`. -/
def store (r : Record) (new : Bool) : EStateM Failure World Unit := do
  Cloud.require (r.toVec.length ≤ 32768) .invalidSession
  writing service fun _ disk =>
    if new && disk.journal.isSome then .error (.new .localStorage)
    else .ok ((), { disk with journal := some r })

/-- The record of a new session; `id` and `hash` are what `capture` returned. -/
def Record.first («namespace» sessionId id hash remoteDigest : String) (snap : Storage.Snapshot)
    (remote : Import.Validated) (e : LocalExport) (phase : Phase) : Record where
  scopeBinding := scope.binding
  «namespace» := «namespace»
  sessionId
  revision := 0
  phase
  snapshot := {
    id := snap.id
    manifestSha256 := remote.digest
    containerCount := snap.containerCount
    blobCount := snap.blobCount
    totalBytes := snap.totalBytes }
  originalRemoteDigest := remoteDigest
  beforeRemoteDigest := remoteDigest
  preLocalDigest := e.contentDigest
  preLocalSha256 := e.rawDigest
  initialBackupId := id
  targetDigest := e.contentDigest
  targetSha256 := hash
  targetLocalSha256 := e.rawDigest
  targetBackupId := id
  generation := e.generation
  confirmedBackupId := none

def begin (snap : Storage.Snapshot) (e : LocalExport) (phase : Phase) :
    EStateM Failure World Record := do
  Cloud.require (phase = .prepared ∨ phase = .playing) .invalidSession
  access scope (some e)
  let existing ← reading (Session.load scope)
  Cloud.require existing.isNone .busy
  let remote ← reading fun disk => Import.snapshot disk.snapshots scope.binding snap
  let (id, hash) ← capture service scope e
  let remoteDigest ← Import.digest remote.state
  let sessionId ← writing service fun uuid disk => .ok (uuid, disk)
  let «namespace» ← scope.namespace
  let r := Record.first scope «namespace» sessionId id hash remoteDigest snap remote e phase
  store service r true
  return r

/-- A record with the export as its target. -/
def Record.retarget (r : Record) (e : LocalExport) (id hash : String) : Record :=
  { r with
    targetBackupId := id
    targetSha256 := hash
    targetDigest := e.contentDigest
    targetLocalSha256 := e.rawDigest
    generation := e.generation }

/-- The record with a captured export as its target. -/
def target (r : Record) : Option LocalExport → EStateM Failure World Record
  | some e => do
    let (id, hash) ← capture service scope e
    return Record.retarget r e id hash
  | none => return r

def update (r : Record) (phase : Phase) (e : Option LocalExport) :
    EStateM Failure World Record := do
  Cloud.require (phase ≠ .uploading ∨ e.isSome) .invalidSession
  access scope e
  reading (Session.current scope r)
  let value := { ← target service scope r e with phase, revision := r.revision + 1 }
  store service value false
  return value

/-- `confirmed`. -/
def confirmed (r : Record) (e : LocalExport) (receipt : Write.Receipt) :
    EStateM Failure World Unit := do
  assertUnchanged e
  Cloud.require (e.contentDigest == r.targetDigest && e.rawDigest == r.targetLocalSha256 &&
    sha256 e.encoded == r.targetSha256) .changed
  Cloud.require (receipt.binding == e.binding && receipt.source == r.targetDigest) .invalidReceipt

def checkpoint (r : Record) (e : LocalExport) (receipt : Write.Receipt) :
    EStateM Failure World Record := do
  access scope (some e)
  reading (Session.current scope r)
  confirmed r e receipt
  let value := { r with
    beforeRemoteDigest := r.targetDigest
    confirmedBackupId := some r.targetBackupId
    phase := .playing
    revision := r.revision + 1 }
  store service value false
  return value

def complete (r : Record) (e : LocalExport) (receipt : Write.Receipt) :
    EStateM Failure World Unit := do
  access scope (some e)
  reading (Session.current scope r)
  confirmed r e receipt
  writing service fun _ disk => .ok ((), { disk with journal := none })

/-! ## Sessions -/

structure Attention where
  error : Failure
  plan : Option Import.Plan := none

def Attention.conflict (plan : Import.Plan) : Attention where
  error := .new .conflict
  plan := some plan

/-- `impl From<Failure> for Attention`. -/
instance {σ : Type} : MonadLift (EStateM Failure σ) (EStateM Attention σ) where
  monadLift m := fun s => match m s with
    | .ok a s => .ok a s
    | .error error s => .error { error } s

/-- The upload of `finish`, with the file of the export as the local state. -/
def upload (e : LocalExport) («local» : State) (expected : String) :
    EStateM Failure World Write.Receipt :=
  Write.upload scope (operations service scope) «local» expected (ambient (assertUnchanged e)) {}

def finish (record : Record) (expected : String) (playing : Bool) : EStateM Attention World Unit := do
  let e ← exportLocal scope
  let record ← update service scope record .uploading (some e)
  let receipt ← upload service scope e (← liftM (LocalExport.state e)) expected
  let _ ← recordCommon service scope e receipt
  liftM (Cloud.require receipt.released .leaseLost)
  if playing then
    let _ ← checkpoint service scope record e receipt
  else
    complete service scope record e receipt

def reviewed (plan review : Import.Plan) : Bool :=
  plan.binding == review.binding && plan.remoteDigest == review.remoteDigest &&
    plan.localDigest == review.localDigest

/-- What `before` reads before it decides anything. -/
structure Inputs where
  snap : Storage.Snapshot
  remote : State
  baseline : Option Import.Baseline
  plan : Import.Plan
  record : Option Record
  «local» : State
  localDigest : String

def inputs : EStateM Failure World Inputs := do
  let snap ← download service scope
  let remote ← reading fun disk => Import.snapshot disk.snapshots scope.binding snap
  let baseline ← reading (loadBaseline scope)
  let plan ← reading (prepare scope snap baseline)
  let record ← reading (Session.load scope)
  let e ← exportLocal scope
  let «local» ← LocalExport.state e
  return { snap, remote := remote.state, baseline, plan, record, «local», localDigest := ← Import.digest «local» }

/-- An import whose durability must be confirmed. -/
def applyDurably (plan : Import.Plan) (choice : Import.Choice) : EStateM Failure World Unit := do
  let result ← apply service scope plan choice
  Cloud.require result.durabilityConfirmed .localStorage

/-- The review that both `before` and `after` accept. -/
def acceptReview (plan review : Import.Plan) (choice : Import.Choice) :
    EStateM Attention World Unit := do
  if !reviewed plan review then
    throw (.conflict plan)
  match choice with
  | .cloud => applyDurably service scope plan .cloud
  | _ => pure ()

def beforeReviewed (i : Inputs) (review : Import.Plan) (choice : Import.Choice) :
    EStateM Attention World Unit := do
  acceptReview service scope i.plan review choice
  match i.record with
  | some record => finish service scope record i.plan.remoteDigest true
  | none => do
    let e ← exportLocal scope
    let record ← begin service scope i.snap e .prepared
    finish service scope record i.plan.remoteDigest true

/-- `before` where an earlier session left a record. -/
def beforeRecorded (i : Inputs) (record : Record) : EStateM Attention World Unit := do
  if i.plan.remoteDigest ≠ record.beforeRemoteDigest ∧
      i.plan.remoteDigest ≠ record.targetDigest then
    throw (.conflict i.plan)
  if record.phase ≠ .playing ∧ i.localDigest ≠ record.targetDigest then
    throw (.conflict i.plan)
  if i.plan.remoteDigest = record.targetDigest ∧
      i.plan.remoteDigest ≠ record.beforeRemoteDigest then
    if i.localDigest ≠ record.targetDigest then
      throw (.conflict i.plan)
    finish service scope record i.plan.remoteDigest true
  else
    let e ← exportLocal scope
    let _ ← update service scope record .playing (some e)

/-- The decision of `before` about the three save sets. -/
def policy (i : Inputs) : Except Failure Decision := do
  let left ← (SaveSet.fromState scope.binding i.local).mapError Failure.ofError
  let right ← (SaveSet.fromState scope.binding i.remote).mapError Failure.ofError
  let old ← i.baseline.mapM Import.Baseline.saveSet
  (Cloud.decide scope.binding (some left) (some right) old).mapError Failure.ofError

/-- The branch of `before` that matches a decision. -/
def perform (plan : Import.Plan) (action : Action) : EStateM Failure World Unit :=
  match action with
  | .importCloud => applyDurably service scope plan .cloud
  | .merge => applyDurably service scope plan .automatic
  | _ => pure ()

/-- The save set of the local state is the target of the decision. -/
def assertTarget (e : LocalExport) (decision : Decision) : Except Failure Unit := do
  let set ← (SaveSet.fromState scope.binding (← LocalExport.state e)).mapError Failure.ofError
  Cloud.require (some set == decision.target) .changed

def beforeFresh (i : Inputs) : EStateM Attention World Unit := do
  let pending ← reading offline
  if pending && i.baseline.isNone && !i.local.containers.isEmpty &&
      i.localDigest != i.plan.remoteDigest && !i.remote.containers.isEmpty then
    throw (.conflict i.plan)
  let decision ← liftM (policy scope i)
  if decision.action = .conflict ∨ decision.action = .blocked then
    throw (.conflict i.plan)
  perform service scope i.plan decision.action
  let e ← exportLocal scope
  liftM (assertTarget scope e decision)
  let record ← begin service scope i.snap e .prepared
  let _ ← update service scope record .playing (some e)

def before (review : Option (Import.Plan × Import.Choice)) : EStateM Attention World Unit := do
  let i ← inputs service scope
  match review with
  | some (review, choice) => beforeReviewed service scope i review choice
  | none =>
    match i.record with
    | some record => beforeRecorded service scope i record
    | none => beforeFresh service scope i

/-- What `after` reads before it decides anything. -/
structure AfterInputs where
  plan : Import.Plan
  record : Record
  localDigest : String

def afterInputs : EStateM Failure World AfterInputs := do
  let snap ← download service scope
  let baseline ← reading (loadBaseline scope)
  let plan ← reading (prepare scope snap baseline)
  let some record ← reading (Session.load scope) | throw (.new .invalidScope)
  let e ← exportLocal scope
  return { plan, record, localDigest := e.contentDigest }

def after (review : Option (Import.Plan × Import.Choice)) (expectedBinding : Option String) :
    EStateM Attention World Unit := do
  liftM (Cloud.require (expectedBinding.all (· == scope.binding)) .invalidScope)
  let i ← afterInputs service scope
  match review with
  | some (review, choice) => acceptReview service scope i.plan review choice
  | none =>
    if i.plan.remoteDigest ≠ i.record.beforeRemoteDigest ∧ i.plan.remoteDigest ≠ i.localDigest then
      throw (.conflict i.plan)
  finish service scope i.record i.plan.remoteDigest false

end Flightdeck.Cloud.Flow
