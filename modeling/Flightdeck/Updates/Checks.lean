import Flightdeck.Backend.Coordinator
import Flightdeck.Backend.Interleavings
import Flightdeck.Foundation.TextMap

/-!
# Checks in the background

The launcher, the add-on and the game are each checked for updates by a thread of their own.  A
request takes the slot of the check under the lock, gives the lock back, and starts the thread that
clears the slot; what it does in between may fail.
-/

namespace Flightdeck.Updates

open Foundation
open Backend (Context Flag Job Value)

/-! ## The state -/

inductive Operation where
  | check
  | install
  | rollback
  deriving DecidableEq

def Operation.text : Operation → String
  | .check => "check"
  | .install => "install"
  | .rollback => "rollback"

/-- `launcher_update::State` -/
structure LauncherUpdates where
  /-- the root of the installation and the release that runs from it -/
  context : Option (String × String)
  contextError : String
  release : Value
  checkId : Option String
  checkedAt : Option String
  job : Job
  worker : Option Flag
  attempted : Option Nat
  /-- whether the child that opens the launcher again has not been waited for -/
  restart : Bool

/-- `fenix_update::State` -/
structure FenixUpdates where
  baseline : String
  attempted : Option Nat
  worker : Option Flag
  status : Job
  candidate : Value

/-- `startup_updates::Record` -/
structure Record where
  attempt : Nat
  value : Job

/-- `startup_updates::State` -/
structure StartupUpdates where
  records : TextMap Record
  worker : Option Flag

inductive Slot where
  | launcher
  | fenix
  | startup
  deriving DecidableEq

/-- What a thread was started for. -/
inductive Task where
  | launcher (id : String) (operation : Operation) (ctx : Option Context)
  | fenix (current : String)
  | startup (root startedAt : String)
  deriving DecidableEq

def Task.slot : Task → Slot
  | .launcher .. => .launcher
  | .fenix _ => .fenix
  | .startup .. => .startup

/-- How far it got: the request has taken the slot, `on_startup` has returned, the thread is at work,
has reported its result, and has given its reservation back. -/
inductive Stage where
  | taken
  | audited
  | working
  | reported
  | finished
  deriving DecidableEq

structure Thread where
  task : Task
  flag : Flag
  stage : Stage
  deriving DecidableEq

structure Service where
  sys : Backend.System
  launcher : LauncherUpdates
  fenix : FenixUpdates
  startup : StartupUpdates
  threads : List Thread

def Service.slot (s : Service) : Slot → Option Flag
  | .launcher => s.launcher.worker
  | .fenix => s.fenix.worker
  | .startup => s.startup.worker

/-- What `installer::load` returns of an installation. -/
structure Installed where
  current : String
  previous : Option String

/-- What an operation sees of the world while it holds the lock. -/
structure World where
  base : Backend.World
  /-- seconds -/
  instant : Nat
  uuid : String
  /-- what `installer::load` returns, or the text of its error -/
  installed : Except String (Option Installed)
  /-- whether a release is newer than the running one -/
  newer : Value → Bool
  restartEnded : Bool
  /-- the state of `cloud_sync::automatic` -/
  automatic : String
  /-- whether the selected runtime has an add-on marker -/
  hasPatch : Bool
  /-- the version of the add-on that a newer one is looked for, as `fenix_update::check` reads it
  from the bundled manifest, the Steam record and the marker of the runtime -/
  fenixCurrent : Except Error String
  /-- whether the runtime has copies of Proton -/
  hasTests : Bool
  /-- whether a change of Proton was interrupted -/
  switching : Bool

abbrev Run := EStateM Error Service

def UNAVAILABLE := "Dieser Launcher-Updatevorgang ist gerade nicht verfügbar."
def CHECK_FIRST := "Bitte die Flightdeck-Updates zuerst erneut prüfen."
def CLOUD_PENDING := "Bitte zuerst den ausstehenden Cloud-Abgleich abschließen."
def NOT_CANCELLABLE := "Dieser Launcher-Updatevorgang kann nicht mehr abgebrochen werden."

variable (world : World)

/-- An operation of the coordinator. -/
def backend {α : Type} (m : Backend.Run α) : Run α :=
  zoom (fun s => s.sys.state) (fun state s => { s with sys := { s.sys with state } }) m

/-- `Arc::new(AtomicBool::new(false))` -/
def newFlag : Run Flag := do
  let s ← get
  let state := s.sys.state
  set { s with sys := { s.sys with state := { state with
    flags := Function.update state.flags state.created false
    created := state.created + 1 } } }
  return state.created

/-- A reservation of the coordinator, with the worker that owns it. -/
def reserve (kind operation : String) (needsRuntime : Bool) : Run Context := do
  let ctx ← backend (Backend.reserveLocked world.base kind operation needsRuntime)
  modify fun s => { s with sys := { s.sys with
    workers := ⟨ctx, .task⟩ :: s.sys.workers
    uuids := ctx.id :: s.sys.uuids } }
  return ctx

/-! ## The launcher -/

def installed (u : LauncherUpdates) : Option Installed :=
  if u.context.isSome then world.installed.toOption.join else none

def pending (u : LauncherUpdates) : Bool :=
  (installed world u).any fun v => u.context.any (v.current != ·.2)

def restartFailed : Job :=
  Job.extend (fun _ => .null) [("id", .string world.uuid), ("operation", .string "restart"),
    ("state", .string "failed"), ("phase", .string "restart"), ("can_cancel", .bool false),
    ("message", .string ""),
    ("error", .string "Flightdeck konnte nicht neu geöffnet werden. Bitte beende Spiel und Einrichtung und versuche es erneut.")]

/-- The error with which the installation was read is kept. -/
def noteError (u : LauncherUpdates) : LauncherUpdates :=
  match world.installed with
  | .error text => if u.context.isSome then { u with contextError := text } else u
  | .ok _ => u

/-- The child that should have opened the launcher again has ended. -/
def waitRestart (u : LauncherUpdates) : LauncherUpdates :=
  if u.restart && world.restartEnded then
    { u with
      restart := false
      job := if pending world u then restartFailed world else u.job }
  else u

/-- What `snapshot_locked` changes. -/
def snapshotUpdates (u : LauncherUpdates) : LauncherUpdates := waitRestart world (noteError world u)

def snapshotLocked (s : Service) : Service :=
  { s with
    sys := { s.sys with state := Backend.poll world.base s.sys.state }
    launcher := snapshotUpdates world s.launcher }

/-- `can_check`, `can_install` and `can_rollback` -/
def permitted (s : Service) (operation : Operation) : Bool :=
  let state := s.sys.state
  let u := s.launcher
  let idle := state.active.isNone && !state.process && !state.closing &&
    !Backend.external world.base state
  let ready := u.worker.isNone && !pending world u
  match operation with
  | .check => ready && !state.closing
  | .install => (installed world u).isSome && world.newer u.release && idle && ready
  | .rollback => (installed world u).any (·.previous.isSome) && idle && ready

def startupDue (u : LauncherUpdates) : Bool :=
  let failed := (u.job "operation").is "check" && (u.job "state").is "failed"
  let delay := if failed then 300 else 1800
  u.worker.isNone && u.attempted.all fun attempt => delay ≤ world.instant - attempt

def cloudIdle : Except Error Unit := require (world.automatic != "attention") (.invalid CLOUD_PENDING)

/-- An install and a rollback reserve the coordinator; a check only needs a flag. -/
def claim : Operation → Run (Option Context × Flag)
  | .check => do
    let flag ← newFlag
    return (none, flag)
  | operation => do
    cloudIdle world
    let ctx ← reserve world "launcher-update" operation.text false
    return (some ctx, ctx.cancel)

def runningJob (operation : Operation) : Job :=
  Job.extend (fun _ => .null) [("id", .string world.uuid), ("operation", .string operation.text),
    ("state", .string "running"),
    ("phase", .string (if operation = .check then "checking" else "preparing")),
    ("message", .string (if operation = .check then "GitHub wird nach Flightdeck-Updates gefragt …"
      else "Launcher-Update wird vorbereitet …")),
    ("progress", .null), ("received", .number 0), ("total", .null), ("error", .string ""),
    ("can_cancel", .bool (operation != .rollback))]

/-- What `begin` writes once the coordinator is reserved. -/
def begun (operation : Operation) (flag : Flag) (u : LauncherUpdates) : LauncherUpdates :=
  let u := if operation = .check then
      { u with release := .null, checkId := none, attempted := some world.instant }
    else u
  { u with job := runningJob world operation, worker := some flag }

/-- The end of `begin`, under the lock: the thread that is to be started. -/
def beginPermitted (operation : Operation) (checkId : Option String) : Run Thread := do
  let s ← get
  require (operation != .install || checkId.isSome && checkId == s.launcher.checkId)
    (Error.invalid CHECK_FIRST)
  let (ctx, flag) ← claim world operation
  modify fun s => { s with launcher := begun world operation flag s.launcher }
  return ⟨.launcher world.uuid operation ctx, flag, .taken⟩

/-- `launcher_update::begin`; a check at the start that is not due or not possible does nothing. -/
def «begin» (operation : Operation) (checkId : Option String) (startup : Bool) :
    Run (Option Thread) := do
  let s ← get
  Backend.isOpen s.sys.state
  if startup && !startupDue world s.launcher then
    return none
  modify (snapshotLocked world)
  let s ← get
  if startup && !permitted world s operation then
    return none
  require (permitted world s operation) (Error.invalid UNAVAILABLE)
  some <$> beginPermitted world operation checkId

/-- `launcher_update::change` -/
def change (id : String) (patch : List (String × Value)) (u : LauncherUpdates) : LauncherUpdates :=
  if (u.job "id").is id then { u with job := u.job.extend patch } else u

/-- `launcher_update::commit` -/
def commit (id : String) (flag : Flag) : Run Unit := do
  let s ← get
  require (!s.sys.state.flags flag) Error.cancelled
  require ((s.launcher.job "id").is id) (Error.invalid UNAVAILABLE)
  set { s with launcher := { s.launcher with
    job := s.launcher.job.extend [("can_cancel", .bool false), ("phase", .string "installing")] } }

/-- A check has found a release. -/
def found (id : String) (release : Value) : Run Unit := do
  let s ← get
  require ((s.launcher.job "id").is id) (Error.invalid UNAVAILABLE)
  set { s with launcher := { s.launcher with
    release, checkId := some world.uuid, checkedAt := some world.base.now } }

/-- `launcher_update::cancel` -/
def cancel (id : String) : Run Unit := do
  let s ← get
  let u := s.launcher
  require ((u.job "id").is id && (u.job "state").is "running" &&
    (match u.job "can_cancel" with | .bool b => b | _ => false)) (Error.invalid NOT_CANCELLABLE)
  match u.worker with
  | none => throw (Error.invalid UNAVAILABLE)
  | some flag =>
    set { s with
      sys := { s.sys with state := { s.sys.state with
        flags := Function.update s.sys.state.flags flag true } }
      launcher := { u with job := u.job.extend [("can_cancel", .bool false),
        ("message", .string "Launcher-Update wird abgebrochen …")] } }

/-- What the thread reports of the job. -/
def outcome (result : Except Error String) : List (String × Value) :=
  match result with
  | .ok message => [("state", .string "complete"), ("phase", .string "complete"),
      ("message", .string message), ("progress", .number 100), ("can_cancel", .bool false)]
  | .error .cancelled => [("state", .string "cancelled"), ("can_cancel", .bool false)]
  | .error _ => [("state", .string "failed"), ("can_cancel", .bool false)]

/-! ## The add-on -/

def fenixRetryDue (u : FenixUpdates) : Bool :=
  let delay := if (u.status "state").is "failed" then 300 else 1800
  u.worker.isNone && u.attempted.all fun attempt => delay ≤ world.instant - attempt

/-- `fenix_update::check` -/
def checkFenix (force : Bool) : Run (Option Thread) := do
  let s ← get
  Backend.isOpen s.sys.state
  if !force && s.sys.state.steam.isNone && !(s.sys.state.runtime.isSome && world.hasPatch) then
    return none
  let current ← world.fenixCurrent
  if s.fenix.worker.isSome ||
      (!force && s.fenix.baseline == current && !fenixRetryDue world s.fenix) then
    return none
  let flag ← newFlag
  modify fun s => { s with fenix := { s.fenix with
    baseline := current, worker := some flag, attempted := some world.instant
    status := Job.extend (fun _ => .null) [("state", .string "checking")] } }
  return some ⟨.fenix current, flag, .taken⟩

/-- The end of the thread; `requires` says that the error asks for a newer launcher. -/
def endFenix (requires : Bool) (flag : Flag) (result : Except String Value) (s : Service) :
    Service :=
  let u := if !s.sys.state.closing && !s.sys.state.flags flag then
      match result with
      | .ok candidate => { s.fenix with
          candidate
          status := Job.extend (fun _ => .null) [("state", .string "complete"),
            ("checked_at", .string world.base.now)] }
      | .error message => { s.fenix with
          status := Job.extend (fun _ => .null) [("state", .string "failed"),
            ("requires_launcher_update", .bool requires), ("error", .string message),
            ("checked_at", .string world.base.now)] }
    else s.fenix
  { s with fenix := { u with worker := none } }

/-! ## The game -/

def retryDue (record : Record) : Bool :=
  let delay := if (record.value "state").is "failed" then 300 else 1800
  delay ≤ world.instant - record.attempt

/-- `game_update::terminal_job` -/
def terminalJob (job : Job) : Bool :=
  (job "state").is "complete" || (job "state").is "failed" || (job "state").is "cancelled"

/-- The runtime was checked a while ago, or an update of it is being set up. -/
def settled (root : String) (s : Service) : Bool :=
  s.startup.records[root]?.any (fun record => !retryDue world record) ||
    Backend.hasJob s.sys.state "setup" fun job =>
      (job "mode").is "update" && (job "runtime_path").is root && !terminalJob job

/-- At most 128 records are kept: the oldest one goes. -/
def evict (records : TextMap Record) : TextMap Record :=
  if 128 ≤ records.size then
    match records.toList.argmin (fun row => row.2.attempt) with
    | some (root, _) => records.erase root
    | none => records
  else records

def checkingRecord : Record :=
  ⟨world.instant, Job.extend (fun _ => .null) [("state", .string "checking"),
    ("started_at", .string world.base.now)]⟩

def takeStartup (root : String) : Run Thread := do
  let flag ← newFlag
  modify fun s => { s with startup := {
    records := (evict s.startup.records).insert root (checkingRecord world)
    worker := some flag } }
  return ⟨.startup root world.base.now, flag, .taken⟩

def checkRuntime (root : String) : Run (Option Thread) := do
  let idle ← attempt (backend (Backend.idle world.base))
  let s ← get
  if !idle.isOk || s.startup.worker.isSome then
    return none
  if settled world root s then
    return none
  some <$> takeStartup world root

/-- `startup_updates::check`, after it has called `begin` for a check at the start and
`fenix_update::check`, up to where it gives the lock back. -/
def checkStartup : Run (Option Thread) := do
  let s ← get
  Backend.isOpen s.sys.state
  if s.sys.state.steam.isSome then
    return none
  match s.sys.state.runtime with
  | none => return none
  | some root => checkRuntime world root

/-- Whether `on_startup` has nothing to clean up, as far as it knows before it looks for a running
game. -/
def unaudited (root : String) (s : Service) : Bool :=
  Backend.hasJob s.sys.state "proton-cleanup" (fun job => (job "runtime_path").is root) ||
    !world.hasTests || world.switching

/-- `proton_storage::on_startup`; the thread that cleans up is a worker of the coordinator. -/
def onStartup : Run Unit := do
  let s ← get
  match s.sys.state.runtime with
  | none => return
  | some root =>
    if unaudited world root s then
      return
    let idle ← attempt (backend (Backend.idle world.base))
    if !idle.isOk || ["syncing", "playing", "attention"].contains world.automatic then
      return
    discard <| reserve world "proton-cleanup" "cleanup" true

/-- The end of the thread: what was discovered, or the fields of the failure. -/
def endStartup (root startedAt : String) (flag : Flag) (value : List (String × Value))
    (s : Service) : Service :=
  let value : Job := Job.extend (fun _ => .null) (value ++ [("started_at", .string startedAt)])
  let records := if !s.sys.state.flags flag && !s.sys.state.closing then
      s.startup.records.modify root fun record => { record with value }
    else s.startup.records
  { s with startup := { records, worker := none } }

/-! ## Closing and opening again -/

def setFlag (flag : Option Flag) (state : Backend.State) : Backend.State :=
  match flag with
  | none => state
  | some flag => { state with flags := Function.update state.flags flag true }

/-- `Launcher::close` -/
def close (beforeStart : Bool) (s : Service) : Service :=
  let state := setFlag s.fenix.worker (setFlag s.startup.worker s.sys.state)
  let cancels := match s.launcher.job "can_cancel" with | .bool b => b | _ => false
  let state := if cancels then setFlag s.launcher.worker state else state
  { s with sys := Backend.next { s.sys with state } (.close beforeStart) }

/-- The job of `launcher_update::restart` -/
def restartJob : Job :=
  Job.extend (fun _ => .null) [("id", .string world.uuid), ("operation", .string "restart"),
    ("state", .string "running"), ("phase", .string "restart"), ("can_cancel", .bool false),
    ("message", .string "Flightdeck wird neu geöffnet …"), ("error", .string "")]

def BUSY := "Bitte beende Spiel und Einrichtung vor dem Launcher-Neustart."

/-- `launcher_update::restart`; `child` is how the checks of the installed launcher and the start of
the child end. -/
def restart (child : Except Error Unit) : Run Unit := do
  modify (snapshotLocked world)
  let s ← get
  let state := s.sys.state
  require (pending world s.launcher && state.active.isNone && !state.process && !state.closing &&
    !Backend.external world.base state && s.launcher.worker.isNone && !s.launcher.restart)
    (Error.invalid BUSY)
  cloudIdle world
  child
  modify fun s => { s with launcher := { s.launcher with restart := true, job := restartJob world } }

end Flightdeck.Updates
