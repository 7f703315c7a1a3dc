import Flightdeck.Backend.Exclusivity

/-!
# The session of a game

One reservation spans the comparison with the cloud, the game and the upload of what was played.  Its
worker reads the cancel flag between its steps, and a request may set the flag as long as the status
says that the game has not started.
-/

namespace Flightdeck.Backend.Auto

open Foundation

/-! ## The status -/

inductive CloudState where
  | idle
  | syncing
  | playing
  | attention
  | local
  | synced
  deriving DecidableEq

inductive Phase where
  | beforeStart
  | afterExit
  | recovery
  deriving DecidableEq

/-- `State::cloud`, as far as a request is decided by it. -/
structure Status where
  state : CloudState
  phase : Option Phase
  errorCode : Option String
  requestId : Option String
  deriving DecidableEq

/-- The steps of the worker: the job is reserved, the status says so, the comparison is done, the
profile is marked, the start is prepared, the cancel flag was read for the last time, the game runs,
the status says so, the game has ended, the profile is not marked any more, the upload has begun, and
the result is reported. -/
inductive Stage where
  | reserved
  | begun
  | compared
  | marked
  | checked
  | spawned
  | playing
  | exited
  | cleared
  | uploading
  | recovering
  | ended
  deriving DecidableEq

structure Session where
  ctx : Context
  /-- where it begins -/
  phase : Phase
  localOnly : Bool
  stage : Stage
  deriving DecidableEq

/-- `accepted` is a `cancel-auto` that was answered with ok. -/
inductive Event where
  | accepted (id : String)
  | spawned (id : String)
  deriving DecidableEq

structure Service where
  sys : System
  cloud : Status
  autoRuntime : Option String
  sessions : List Session
  /-- newest first -/
  history : List Event

/-- What an operation sees of the world. -/
structure World where
  base : Backend.World
  /-- `cloud_runtime::available` -/
  available : Bool
  /-- the session that was interrupted, by the fence of the runtime -/
  pending : Option String
  /-- `runtime::ready` -/
  ready : Bool
  /-- whether two save states wait for a decision -/
  review : Bool

def CHANGED := "Dieser Cloud-Vorgang ist nicht mehr aktuell. Bitte den Status neu laden."
def NOT_CURRENT := "Dieser Cloud-Vorgang ist nicht mehr aktuell."
def NOT_READY := "Die Runtime ist nicht startbereit oder das Spiel läuft bereits."
def EXPIRED := "Der Spielstandvergleich ist abgelaufen. Bitte erneut versuchen."
def NOT_LOCAL := "Diese lokale Sitzung kann nicht gestartet werden."

structure Automatic where
  status : Status
  canRetry : Bool
  canPlayLocal : Bool
  canCancel : Bool

variable (world : World)

/-- The interrupted session that is shown. -/
def shownPending (s : Service) : Option String :=
  let state := s.sys.state
  if state.active.isNone && !state.process && !state.closing && state.runtime.isSome then
    world.pending
  else none

def isCurrent (s : Service) : Bool := s.autoRuntime == s.sys.state.runtime

/-- A session of the selected runtime is at work. -/
def isActive (s : Service) : Bool :=
  isCurrent s && s.sys.state.active.any (·.kind == "cloud-auto")

def shownStatus (s : Service) : Status :=
  let value := if isCurrent s then s.cloud else ⟨.idle, none, none, none⟩
  match shownPending world s with
  | none => value
  | some id =>
    { state := .attention, phase := some .beforeStart, errorCode := some "unsafe_session"
      requestId := if !isCurrent s || value.errorCode != some "unsafe_session" then some id
        else value.requestId }

/-- The errors after which the game may be played without the cloud. -/
def mayPlayLocal (status : Status) : Bool :=
  let code := status.errorCode.getD ""
  status.phase == some .beforeStart &&
      !(["unsafe_session", "display", "graphics", "framework", "launch"].contains code) ||
    status.phase == some .afterExit &&
      ["authentication", "auth_required", "unauthorized", "forbidden", "lease_lost", "transport",
        "deadline", "readback", "quota", "failed", "cancelled"].contains code

/-- `cloud_sync::automatic` -/
def automatic (s : Service) : Automatic :=
  let status := shownStatus world s
  let pending := (shownPending world s).isSome
  let current := isCurrent s
  let attention :=
    (world.available || pending || current && status.errorCode == some "unsafe_session") &&
      (current || pending) && status.state == .attention && !isActive s && !s.sys.state.closing
  { status
    canRetry := attention
    canPlayLocal := attention && !(current && !pending && world.review) && mayPlayLocal status
    canCancel := isActive s && status.state == .syncing && status.phase == some .beforeStart }

/-! ## Requests -/

/-- `launch`, and the actions that go on after a session that needs attention. -/
inductive Request where
  | launch
  | retry (id : String)
  /-- `current` says that the choice is between the states that are still there -/
  | resolve (id : String) (current : Bool)
  | playLocal (id : String)

abbrev Run := EStateM Error Service

def backend {α : Type} (m : Backend.Run α) : Run α :=
  zoom (fun s => s.sys.state) (fun state s => { s with sys := { s.sys with state } }) m

def retried (id : String) (s : Service) : Except Error Phase := do
  let status := automatic world s
  require (status.status.requestId == some id && status.canRetry) CHANGED
  return status.status.phase.getD .beforeStart

/-- Where the session begins, and whether it leaves the cloud alone. -/
def admitted (request : Request) (s : Service) : Except Error (Phase × Bool) :=
  match request with
  | .launch => return (.beforeStart, !world.available)
  | .retry id => do
    let phase ← retried world id s
    return (phase, false)
  | .resolve id current => do
    let phase ← retried world id s
    require current EXPIRED
    return (phase, false)
  | .playLocal id => do
    let _ ← retried world id s
    require (automatic world s).canPlayLocal NOT_LOCAL
    return (.beforeStart, true)

/-- A reservation for a session, with the worker that owns it. -/
def reserve (operation : String) (phase : Phase) (localOnly : Bool) (stage : Stage) :
    Run Context := do
  let ctx ← backend (Backend.reserveLocked world.base "cloud-auto" operation true)
  modify fun s => { s with
    sys := { s.sys with
      workers := ⟨ctx, .task⟩ :: s.sys.workers
      uuids := ctx.id :: s.sys.uuids }
    sessions := ⟨ctx, phase, localOnly, stage⟩ :: s.sessions }
  return ctx

/-- `cloud_auto::start`, up to where it gives the lock back for the first time. -/
def start (request : Request) : Run Unit := do
  backend (Backend.idle world.base)
  let s ← get
  require s.sys.state.runtime.isSome Backend.NO_RUNTIME
  require world.ready NOT_READY
  let (phase, localOnly) ← admitted world request s
  let _ ← reserve world "session" phase localOnly .reserved

/-- `cloud_auto::recover` -/
def recover (id : String) : Run Unit := do
  backend (Backend.idle world.base)
  let s ← get
  let status := automatic world s
  require (status.status.state == .attention && status.status.errorCode == some "unsafe_session" &&
    status.canRetry && status.status.requestId == some id) CHANGED
  let ctx ← reserve world "recover" .recovery false .recovering
  modify fun s => { s with
    autoRuntime := s.sys.state.runtime
    cloud := { status.status with
      state := .syncing, phase := some .recovery, requestId := some ctx.id } }

/-- `cancel-auto` -/
def cancelAuto (id : String) : Run Unit := do
  let s ← get
  let status := automatic world s
  require (status.status.requestId == some id && status.canCancel) CHANGED
  require s.sys.state.active.isSome NOT_CURRENT
  set { s with
    sys := Backend.next s.sys .interrupt
    history := .accepted id :: s.history }

/-- `Launcher::close` -/
def close (s : Service) : Service :=
  { s with sys := Backend.next s.sys (.close (s.cloud.phase == some .beforeStart)) }

/-! ## The worker -/

def at_ (t : Session) (stage : Stage) (s : Service) : Service :=
  { s with sessions := s.sessions.map fun u => if u = t then { u with stage } else u }

/-- `cloud_auto::set`: the phase stays where none is given. -/
def setStatus (t : Session) (state : CloudState) (edit : Status → Status) (s : Service) : Service :=
  if current s.sys.state t.ctx.id then { s with cloud := edit { s.cloud with state } } else s

/-- `attention`: the session ends with an error. -/
def attention (t : Session) (phase : Phase) (code : String) (s : Service) : Service :=
  let state := if code == "cancelled" && phase == .beforeStart then .idle else .attention
  at_ t .ended (setStatus t state
    (fun status => { status with phase := some phase, errorCode := some code }) s)

/-- `ctx.interrupted()?` -/
def unlessCancelled (t : Session) (phase : Phase) (go : Service → Service) (s : Service) : Service :=
  if s.sys.state.flags t.ctx.cancel then attention t phase "cancelled" s else go s

/-- The end of `spawn_reserved`, under the lock. -/
def spawn (t : Session) (failure : Option String) (s : Service) : Service :=
  let state := s.sys.state
  if current state t.ctx.id && !state.process && !state.closing then
    match failure with
    | some code => attention t .beforeStart code s
    | none =>
      let started : Action := .elsewhere state.steam state.runtime true false none
      at_ t .spawned { s with
        sys := Backend.next s.sys started
        history := .spawned t.ctx.id :: s.history }
  else attention t .beforeStart "launch" s

/-- The game has ended with a code, or was killed. -/
def exited (t : Session) (code : Option Int) (s : Service) : Service :=
  let state := s.sys.state
  let ended : Action :=
    .elsewhere state.steam state.runtime false false (some (code.getD (-1)))
  let s := { s with sys := Backend.next s.sys ended }
  if code.isSome then at_ t .exited s else attention t .afterExit "unsafe_session" s

/-- The next step of the worker; what it does between two stages may fail with a code.  A session
that begins after the game goes straight to the upload. -/
def step (t : Session) (failure : Option String) (code : Option Int) (s : Service) : Service :=
  match t.stage with
  | .reserved =>
    at_ t .begun { s with
      autoRuntime := t.ctx.runtime
      cloud := ⟨.syncing, some t.phase, none, some t.ctx.id⟩ }
  | .begun =>
    match failure with
    | some code => attention t t.phase code s
    | none => if t.phase = .beforeStart then at_ t .compared s
        else unlessCancelled t t.phase (at_ t .uploading) s
  | .compared =>
    unlessCancelled t .beforeStart (fun s =>
      match failure with
      | some code => attention t .beforeStart code s
      | none => at_ t .marked (setStatus t .syncing id s)) s
  | .marked =>
    match failure with
    | some code => attention t .beforeStart code s
    | none => unlessCancelled t .beforeStart (at_ t .checked) s
  | .checked => spawn t failure s
  | .spawned => at_ t .playing (setStatus t .playing id s)
  | .playing => exited t code s
  | .exited =>
    -- between the end of the game and this step the status still says `playing`
    match failure with
    | some code => attention t .afterExit code s
    | none => at_ t .cleared (setStatus t .syncing
        (fun status => { status with phase := some .afterExit }) s)
  | .cleared =>
    match failure with
    | some code => attention t .afterExit code s
    | none =>
      if t.localOnly then
        at_ t .ended (setStatus t .local (fun status => { status with phase := none }) s)
      else unlessCancelled t .afterExit (at_ t .uploading) s
  | .uploading =>
    match failure with
    | some code => attention t (if t.phase = .beforeStart then .afterExit else t.phase) code s
    | none => at_ t .ended (setStatus t .synced (fun status => { status with phase := none }) s)
  | .recovering =>
    match failure with
    | some code => attention t .beforeStart code s
    | none => at_ t .ended (setStatus t .idle (fun _ => ⟨.idle, none, none, none⟩) s)
  | .ended => s

/-- The worker gives its reservation back. -/
def finish (t : Session) (s : Service) : Service :=
  { s with
    sys := Backend.next s.sys
      (.finish world.base ⟨t.ctx, .task⟩ (.ok [("state", .string "succeeded")]))
    sessions := s.sessions.filter (· ≠ t) }

end Flightdeck.Backend.Auto
