import Flightdeck.Errors
import Flightdeck.Foundation.Effects

/-!
# The coordinator

One coordinator owns the selected runtime, the jobs and the reservation.  A request reserves it for
a job, a worker does the job with the context it was given, and a job that was prepared is continued
by a later request.  Every operation here is one critical section of the state's mutex.
-/

namespace Flightdeck.Backend

open Foundation

/-- A JSON value. -/
inductive Value where
  | null
  | bool (b : Bool)
  | number (n : Int)
  | string (text : String)
  | array (rows : List Value)
  | object (fields : List (String × Value))

/-- `value == "text"` -/
def Value.is (value : Value) (text : String) : Bool :=
  match value with
  | .string s => s == text
  | _ => false

@[simp] theorem Value.is_string (s text : String) : (Value.string s).is text = (s == text) := rfl

/-- A job is a JSON object; a field that it does not have reads as `null`. -/
abbrev Job := String → Value

/-- `job[key] = value` -/
def Job.set (job : Job) (key : String) (value : Value) : Job := Function.update job key value

@[simp] theorem Job.set_same (job : Job) (key : String) (value : Value) :
    job.set key value key = value := Function.update_self ..

theorem Job.set_other (job : Job) {key other : String} (value : Value) (h : other ≠ key) :
    job.set key value other = job other := Function.update_of_ne h ..

/-- The rows are inserted one after the other, as `extend` does. -/
def Job.extend (job : Job) (rows : List (String × Value)) : Job :=
  rows.foldl (fun job row => job.set row.1 row.2) job

/-- `crate::Error` -/
inductive WorkError where
  | invalid (message : String)
  | io
  | json
  | cancelled
  | authRequired (message : String)
  | cloud (failure : Failure) (nativeHresult : Option Nat) (detail : Value)
  | framework (error : WorkError)
  | graphics (error : WorkError)

/-- The text that `cloud::Failure` is shown with. -/
def failureText : Code → String
  | .authentication => "Die Xbox-Anmeldung muss erneuert werden."
  | .changed => "Die Spielstände haben sich geändert. Bitte erneut vergleichen."
  | .localChanged => "Die Spielstände haben sich geändert. Bitte erneut vergleichen."
  | .conflict => "Die Spielstände unterscheiden sich. Bitte einen Stand auswählen."
  | .invalidScope => "Das Xbox-Spielprofil hat sich geändert. Bitte erneut vergleichen."
  | .busy => "Die Spielstände werden gerade verwendet. Bitte den Simulator beenden."
  | .leaseLost =>
      "Die Xbox-Cloud-Sperre ist nicht mehr verfügbar. Bitte später erneut vergleichen."
  | .quota => "Der verfügbare Xbox-Cloud-Speicher reicht für diese Spielstände nicht aus."
  | .cancelled => "Der Cloud-Vorgang wurde abgebrochen."
  | .deadline => "Der Cloud-Vorgang hat sein Zeitlimit überschritten."
  | .invalidSnapshot => "Die Cloud-Kopie ist ungültig. Bitte erneut herunterladen."
  | .invalidPlan => "Dieser Spielstandvergleich ist nicht mehr gültig. Bitte erneut vergleichen."
  | .localStorage => "Die Spielstandsicherung konnte nicht sicher abgeschlossen werden."
  | .durabilityUnknown => "Die Spielstandsicherung konnte nicht sicher abgeschlossen werden."
  | _ =>
      "Der Cloud-Abgleich konnte nicht bestätigt werden. Lokale Sicherungen bleiben erhalten."

def WorkError.text : WorkError → String
  | .invalid message => message
  | .authRequired message => message
  | .io => "Der lokale Vorgang ist fehlgeschlagen. Bitte Pfad und Schreibrechte prüfen."
  | .json => "Ungültige oder beschädigte Konfigurationsdaten."
  | .cancelled => "Vorgang abgebrochen."
  | .cloud failure _ _ => failureText failure.code
  | .framework error => error.text
  | .graphics error => error.text

def WorkError.isCancelled : WorkError → Bool
  | .cancelled => true
  | _ => false

def WorkError.isAuthRequired : WorkError → Bool
  | .authRequired _ => true
  | _ => false

/-! ## The state -/

/-- The number of an `Arc<AtomicBool>`; a reservation and its contexts share one. -/
abbrev Flag := Nat

structure Active where
  id : String
  kind : String
  runtime : Option String
  /-- the path of the lock that is held -/
  lease : Option String
  cancel : Flag
  deriving DecidableEq

structure Context where
  id : String
  kind : String
  runtime : Option String
  cancel : Flag
  deriving DecidableEq

/-- The selected Steam installation. -/
structure Installation where
  id : String
  context : String

structure State where
  steam : Option Installation
  runtime : Option String
  /-- whether a game started by the launcher has not been waited for -/
  process : Bool
  exitCode : Option Int
  stopping : Bool
  closing : Bool
  active : Option Active
  jobs : String → Option Job
  plans : String → Option Value
  flags : Flag → Bool
  /-- the number of flags that were created -/
  created : Nat

/-- What an operation sees of the world while it holds the mutex. -/
structure World where
  /-- the exit code of the game, if it has ended -/
  exited : Option Int
  /-- what `steam_session` and `steam_companions` see running -/
  steamRunning : Bool
  /-- whether another process holds the lock of the selected runtime -/
  locked : Bool
  /-- how taking that lock ends -/
  lease : Except Error Unit
  /-- what `Uuid::new_v4` returns -/
  uuid : String
  now : String

variable (world : World)

def OPEN :=
  "Der Launcher wird für ein Update neu gestartet. Bitte gleich erneut versuchen."
def IDLE := "Die Einrichtung benötigt ein beendetes Spiel und darf nur einmal laufen."
def NO_RUNTIME := "Zuerst eine Runtime auswählen."
def STALE := "Dieser Vorgang ist nicht mehr aktuell."
def RECHECK := "Bitte die ausgewählten Dateien zuerst erneut prüfen."
def CHANGED := "Das installierte Spiel hat sich geändert. Bitte Updates erneut prüfen."
def SWITCHING :=
  "Der atomare Spielwechsel wird gerade abgeschlossen. Bitte kurz warten."

def lock (root : String) : String := root ++ "/private/play.lock"

abbrev Run := EStateM Error State

def require (condition : Bool) (message : String) : Except Error Unit :=
  Flightdeck.require condition (.invalid message)

/-- `Launcher::open` -/
def isOpen (s : State) : Except Error Unit := require (!s.closing) OPEN

def poll (s : State) : State :=
  if s.process then
    match world.exited with
    | none => s
    | some code =>
      { s with
        exitCode := some code
        stopping := false
        process := s.active.any (·.kind == "cloud-auto") }
  else s

def external (s : State) : Bool :=
  if s.steam.isSome then world.steamRunning
  else
    match s.runtime with
    | none => false
    | some root =>
      if s.process || s.active.any (fun a => a.runtime == some root && a.lease.isSome) then false
      else world.locked

def idle : Run Unit := do
  isOpen (← get)
  modify (poll world)
  let s ← get
  require (s.active.isNone && !s.process && !external world s) IDLE

/-- `files::Lease::acquire` on the lock of a runtime -/
def acquire (root : String) : Except Error String := do
  world.lease
  return lock root

def jobContext (s : State) : Value :=
  match s.steam with
  | some item => .string item.context
  | none => (s.runtime.map Value.string).getD .null

/-- The job as a reservation writes it. -/
def newJob (s : State) (operation : String) : Job :=
  Job.extend (fun _ => .null) [("id", .string world.uuid), ("operation", .string operation),
    ("state", .string "running"), ("runtime_path", jobContext s),
    ("installation_id", (s.steam.map fun item => Value.string item.id).getD .null),
    ("message", .string "Vorgang wird vorbereitet …"), ("started_at", .string world.now)]

/-- The part of `reserve_locked` after its checks. -/
def reserved (kind operation : String) (root lease : Option String) (s : State) : State :=
  { s with
    jobs := Function.update s.jobs kind (newJob world s operation)
    active := some ⟨world.uuid, kind, root, lease, s.created⟩
    flags := Function.update s.flags s.created false
    created := s.created + 1 }

def takeLease (needsRuntime : Bool) (root : Option String) : Except Error (Option String) :=
  if needsRuntime then
    match root with
    | none => .error (.invalid NO_RUNTIME)
    | some root => some <$> acquire world root
  else .ok none

def reserveLocked (kind operation : String) (needsRuntime : Bool) : Run Context := do
  idle world
  let s ← get
  let root := if s.steam.isSome then none else s.runtime
  require (!needsRuntime || root.isSome) NO_RUNTIME
  let lease ← takeLease world needsRuntime root
  modify (reserved world kind operation root lease)
  return ⟨world.uuid, kind, root, s.created⟩

/-! ## The operations of a context -/

def current (s : State) (id : String) : Bool := s.active.any (·.id == id)

def interrupted (ctx : Context) (s : State) : Except Error Unit :=
  if s.flags ctx.cancel then .error .cancelled else .ok ()

/-- `s.jobs.get_mut(kind)` -/
def editJob (kind : String) (edit : Job → Job) (s : State) : State :=
  { s with jobs := Function.update s.jobs kind ((s.jobs kind).map edit) }

def hasJob (s : State) (kind : String) (test : Job → Bool) : Bool := (s.jobs kind).any test

/-- `Context::update`; `Context::progress` is the update of the message. -/
def update (ctx : Context) (patch : List (String × Value)) (s : State) : State :=
  if hasJob s ctx.kind (fun job => (job "id").is ctx.id) then
    editJob ctx.kind (fun job => job.extend patch) s
  else s

def beginCommit (ctx : Context) (phase message : String) : Run Unit := do
  let s ← get
  interrupted ctx s
  require (current s ctx.id) STALE
  require (s.jobs ctx.kind).isSome STALE
  set (editJob ctx.kind (fun job => job.extend [("phase", .string phase),
    ("message", .string message), ("can_pause", .bool false), ("can_resume", .bool false),
    ("can_cancel", .bool false)]) s)

/-- `Launcher::activate`; `committed` is how `installations::commit_selection` ends, which has a
model of its own. -/
def activate (ctx : Context) (root : Except Error String) (committed : Except Error Unit) :
    Run Unit := do
  let root ← root
  let s ← get
  interrupted ctx s
  require (current s ctx.id) STALE
  committed
  set { s with runtime := some root, steam := none, exitCode := none }

def failedState (error : WorkError) : String :=
  if error.isCancelled then "cancelled" else "failed"

/-- The fields of a job that failed, whatever the error. -/
def failedFields (error : WorkError) (job : Job) : Job :=
  let job := job.extend [("state", .string (failedState error)), ("message", .string error.text),
    ("error", .string error.text)]
  let job := if (job "phase").is "download_failed" then job
    else job.set "failure_phase" (job "phase")
  job.extend [("phase", job "state"), ("can_pause", .bool false), ("can_resume", .bool false),
    ("can_retry", .bool false), ("transfer", .null), ("auth_required", .bool error.isAuthRequired)]

/-- The fields that an error of the cloud changes again. -/
def cloudFields (failure : Failure) (nativeHresult : Option Nat) (detail : Value) :
    List (String × Value) :=
  let number (n : Option Nat) := (n.map fun n => Value.number n).getD .null
  let details := [("http_status", number (failure.httpStatus.map UInt16.toNat)),
    ("native_hresult", number nativeHresult)]
  [("state", .string (if failure.code = .cancelled ∧ failure.recoveryRequired = false
      then "cancelled" else "failed")),
    ("error_code", .string failure.code.text),
    ("recovery_required", .bool failure.recoveryRequired),
    ("committed_containers", .number failure.committedContainers),
    ("result", .null), ("finished_at", .string world.now),
    ("error_details", .object (match detail with
      | .object rows => details ++ rows
      | _ => details)),
    ("auth_required", .bool (failure.code = .authentication))]

def failedJob (error : WorkError) (job : Job) : Job :=
  match error with
  | .cloud failure nativeHresult detail =>
    (failedFields error job).extend (cloudFields world failure nativeHresult detail)
  | _ => failedFields error job

def completedJob (extra : List (String × Value)) (retain : Bool) (job : Job) : Job :=
  let job := job.extend extra
  let job := if (job "state").is "running" then job.set "state" (.string "complete") else job
  if retain then job else job.set "completed_at" (.string world.now)

/-- What a worker ends with; an `extra` that is no object adds nothing. -/
abbrev Outcome := Except WorkError (List (String × Value))

def outcomeJob (outcome : Outcome) (retain : Bool) : Job → Job :=
  match outcome with
  | .ok extra => completedJob world extra retain
  | .error error => failedJob world error

def finish (ctx : Context) (outcome : Outcome) (retain : Bool) (s : State) : State :=
  if current s ctx.id then
    let s := editJob ctx.kind (outcomeJob world outcome retain) s
    if !retain || hasJob s ctx.kind (fun job =>
        (job "state").is "failed" || (job "state").is "cancelled") then
      { s with active := none }
    else s
  else s

/-- The end of `mods::removal_plan`: the plan and the ready state are published under the lock. -/
def publish (ctx : Context) (result : List (String × Value)) : Run Unit := do
  let s ← get
  interrupted ctx s
  require (current s ctx.id) STALE
  set (editJob ctx.kind (fun job => job.extend result) s)

/-! ## Requests about a job -/

def isReady (job : Job) : Bool := (job "state").is "ready"

/-- A prepared game update, which gave its reservation back. -/
def isReadyUpdate (id : String) (job : Job) : Bool :=
  (job "id").is id && (job "mode").is "update" && isReady job

/-- The branch of `continuation` that reserves a prepared update again. -/
def reserveUpdate (kind id : String) : Run Unit := do
  let s ← get
  require (hasJob s kind fun job =>
    (job "mode").is "update" && s.runtime.any (job "runtime_path").is) CHANGED
  idle world
  let s ← get
  match s.runtime with
  | none => throw (.invalid NO_RUNTIME)
  | some root =>
    let lease ← acquire world root
    set { s with
      active := some ⟨id, kind, some root, some lease, s.created⟩
      flags := Function.update s.flags s.created false
      created := s.created + 1 }

/-- The reservation that a continuation of the job goes on with. -/
def continued (kind id : String) (s : State) : Option Active :=
  s.active.filter fun a => a.kind == kind && a.id == id && !s.flags a.cancel

/-- A job whose reservation is gone is reserved again. -/
def reserveAgain (kind id : String) : Run Unit := do
  if (← get).active.isNone then reserveUpdate world kind id

def continuation (kind id : String) : Run Context := do
  let s ← get
  isOpen s
  require (hasJob s kind fun job => (job "id").is id && isReady job) RECHECK
  reserveAgain world kind id
  let s ← get
  match continued kind id s with
  | none => throw (.invalid STALE)
  | some active =>
    set (editJob kind (fun job => job.extend [("state", .string "installing"),
      ("phase", .string "recheck"),
      ("message", .string "Eingaben werden vor der Übernahme erneut geprüft …")]) s)
    return ⟨id, kind, active.runtime, active.cancel⟩

/-- A job that can no longer be cancelled. -/
def isSwitching (id : String) (job : Job) : Bool :=
  (job "id").is id && ((job "phase").is "switch_update" || (job "phase").is "publish_runtime" ||
    (job "phase").is "removing")

/-- A prepared update without a reservation is cancelled. -/
def cancelUpdate (kind : String) (s : State) : State :=
  { editJob kind (fun job => job.extend [("state", .string "cancelled"),
      ("message", .string "Einrichtung abgebrochen.")]) s with
    plans := Function.update s.plans kind none }

/-- The reservation is cancelled; a prepared job ends there. -/
def cancelActive (active : Active) (kind : String) (s : State) : State :=
  let ready := hasJob s kind isReady
  let job := fun job : Job =>
    let job := job.extend [("can_cancel", .bool false),
      ("message", .string "Vorgang wird abgebrochen …")]
    if ready then job.set "state" (.string "cancelled") else job
  let s := { editJob kind job s with flags := Function.update s.flags active.cancel true }
  if ready then { s with active := none, plans := Function.update s.plans kind none } else s

def cancel (kind id : String) : Run Unit := do
  let s ← get
  require (!hasJob s kind (isSwitching id)) SWITCHING
  if hasJob s kind (isReadyUpdate id) && !current s id then set (cancelUpdate kind s)
  else
    match s.active.filter fun a => a.kind == kind && a.id == id with
    | none => throw (.invalid STALE)
    | some active => set (cancelActive active kind s)

/-- `Launcher::refresh` -/
def refresh : Run Unit := do
  idle world
  modify fun s => { s with closing := true }

/-- The part of `Launcher::close` about a prepared job. -/
def closeReady (s : State) : State :=
  match s.active with
  | none => s
  | some a =>
    if hasJob s a.kind isReady then
      { editJob a.kind (fun job => job.set "state" (.string "cancelled")) s with
        flags := Function.update s.flags a.cancel true
        plans := Function.update s.plans a.kind none
        active := none }
    else s

/-- `Launcher::close`; `beforeStart` says that the cloud is at work before the game starts. -/
def close (beforeStart : Bool) (s : State) : State :=
  let s := closeReady { s with closing := true }
  match s.active with
  | none => s
  | some a =>
    if a.kind != "cloud-auto" || (beforeStart && !s.process) then
      { s with flags := Function.update s.flags a.cancel true }
    else s

/-! ## What each operation can do -/

section

variable {world : World} {s : State}

@[simp] theorem poll_active : (poll world s).active = s.active := by
  unfold poll
  split
  · split <;> rfl
  · rfl

@[simp] theorem poll_jobs : (poll world s).jobs = s.jobs := by
  unfold poll
  split
  · split <;> rfl
  · rfl

@[simp] theorem poll_flags : (poll world s).flags = s.flags := by
  unfold poll
  split
  · split <;> rfl
  · rfl

@[simp] theorem poll_runtime : (poll world s).runtime = s.runtime := by
  unfold poll
  split
  · split <;> rfl
  · rfl

theorem hasJob_iff {kind : String} {test : Job → Bool} :
    hasJob s kind test = true ↔ ∃ job, s.jobs kind = some job ∧ test job = true := by
  unfold hasJob
  cases s.jobs kind with
  | none => simp
  | some job => simp

/-- A check that failed leaves the state as it was. -/
theorem require_triple {α : Type} {condition : Bool} {message : String} {m : Run α}
    {Q : α → State → Prop} {E : Error → State → Prop}
    (hm : condition = true → Triple (fun t => t = s) m Q E) (he : E (.invalid message) s) :
    Triple (fun t => t = s) (liftM (require condition message) >>= fun _ => m) Q E := by
  cases condition with
  | true => exact hm rfl
  | false =>
    rintro t rfl
    exact he

theorem interrupted_triple {α : Type} {ctx : Context} {m : Run α} {Q : α → State → Prop}
    {E : Error → State → Prop}
    (hm : s.flags ctx.cancel = false → Triple (fun t => t = s) m Q E) (he : E .cancelled s) :
    Triple (fun t => t = s) (liftM (interrupted ctx s) >>= fun _ => m) Q E := by
  unfold interrupted
  cases hflag : s.flags ctx.cancel with
  | true =>
    rintro t rfl
    exact he
  | false => exact hm hflag

/-- An operation that failed has at most noticed that the game has ended. -/
def Untouched (world : World) (s s' : State) : Prop := s' = s ∨ s' = poll world s

theorem idle_triple : Triple (fun t => t = s) (idle world)
    (fun _ t => t = poll world s ∧ s.active = none) (fun _ => Untouched world s) := by
  unfold idle
  apply Triple.get_bind
  rintro t rfl
  apply require_triple
  · intro _
    apply Triple.bind (Q := fun _ u => u = poll world t)
    · apply Triple.update
      rintro u rfl
      rfl
    · intro _
      apply Triple.get_bind
      rintro u rfl
      rintro v rfl
      cases hidle : (poll world t).active.isNone && !(poll world t).process &&
          !external world (poll world t) with
      | false => exact .inr rfl
      | true =>
        simp only [Bool.and_eq_true, Option.isNone_iff_eq_none, poll_active] at hidle
        exact ⟨rfl, hidle.1.1⟩
  · exact .inl rfl

/-- The runtime that a reservation is for; a Steam installation has none. -/
def selectedRoot (s : State) : Option String := if s.steam.isSome then none else s.runtime

variable (world) in
theorem reserveLocked_root (kind operation : String) (needsRuntime : Bool) :
    Triple (fun t => t = s) (reserveLocked world kind operation needsRuntime)
      (fun ctx t => s.active = none ∧ ∃ lease,
        t = reserved world kind operation (selectedRoot (poll world s)) lease (poll world s) ∧
          ctx = ⟨world.uuid, kind, selectedRoot (poll world s), (poll world s).created⟩)
      (fun _ => Untouched world s) := by
  unfold reserveLocked
  apply Triple.bind idle_triple
  intro _
  apply Triple.get_bind
  rintro t ⟨rfl, hactive⟩
  apply require_triple
  · intro _
    apply Triple.bind (Q := fun _ t => t = poll world s)
    · apply Triple.lift
      · rintro lease t rfl _
        rfl
      · rintro e t rfl _
        exact .inr rfl
    · rintro lease u rfl
      exact ⟨hactive, lease, rfl, rfl⟩
  · exact .inr rfl

variable (world) in
theorem reserveLocked_triple (kind operation : String) (needsRuntime : Bool) :
    Triple (fun t => t = s) (reserveLocked world kind operation needsRuntime)
      (fun ctx t => s.active = none ∧ ∃ root lease,
        t = reserved world kind operation root lease (poll world s) ∧
          ctx = ⟨world.uuid, kind, root, (poll world s).created⟩)
      (fun _ => Untouched world s) := by
  apply (reserveLocked_root world kind operation needsRuntime).post
  rintro ctx t ⟨hactive, lease, ht, hctx⟩
  exact ⟨hactive, _, lease, ht, hctx⟩

theorem beginCommit_triple (ctx : Context) (phase message : String) :
    Triple (fun t => t = s) (beginCommit ctx phase message)
      (fun _ t => s.flags ctx.cancel = false ∧ current s ctx.id = true ∧
        t = editJob ctx.kind (fun job => job.extend [("phase", .string phase),
          ("message", .string message), ("can_pause", .bool false), ("can_resume", .bool false),
          ("can_cancel", .bool false)]) s)
      (fun _ t => t = s) := by
  unfold beginCommit
  apply Triple.get_bind
  rintro t rfl
  apply interrupted_triple
  · intro hflag
    apply require_triple
    · intro hcurrent
      apply require_triple
      · intro _
        rintro u rfl
        exact ⟨hflag, hcurrent, rfl⟩
      · rfl
    · rfl
  · rfl

theorem activate_triple (ctx : Context) (root : Except Error String)
    (committed : Except Error Unit) :
    Triple (fun t => t = s) (activate ctx root committed)
      (fun _ t => s.flags ctx.cancel = false ∧ current s ctx.id = true ∧
        ∃ path, t = { s with runtime := some path, steam := none, exitCode := none })
      (fun _ t => t = s) := by
  unfold activate
  cases root with
  | error e =>
    rintro t rfl
    rfl
  | ok path =>
    apply Triple.lift_bind rfl
    apply Triple.get_bind
    rintro t rfl
    apply interrupted_triple
    · intro hflag
      apply require_triple
      · intro hcurrent
        cases committed with
        | error e =>
          rintro u rfl
          rfl
        | ok _ =>
          rintro u rfl
          exact ⟨hflag, hcurrent, path, rfl⟩
      · rfl
    · rfl

theorem publish_triple (ctx : Context) (result : List (String × Value)) :
    Triple (fun t => t = s) (publish ctx result)
      (fun _ t => s.flags ctx.cancel = false ∧ current s ctx.id = true ∧
        t = editJob ctx.kind (fun job => job.extend result) s)
      (fun _ t => t = s) := by
  unfold publish
  apply Triple.get_bind
  rintro t rfl
  apply interrupted_triple
  · intro hflag
    apply require_triple
    · intro hcurrent
      rintro u rfl
      exact ⟨hflag, hcurrent, rfl⟩
    · rfl
  · rfl

/-- What a prepared update is reserved with again. -/
def reservedUpdate (kind id root : String) (s : State) : State :=
  { s with
    active := some ⟨id, kind, some root, some (lock root), s.created⟩
    flags := Function.update s.flags s.created false
    created := s.created + 1 }

theorem reserveUpdate_triple (kind id : String) :
    Triple (fun t => t = s) (reserveUpdate world kind id)
      (fun _ t => s.active = none ∧ hasJob s kind (fun job => (job "mode").is "update" &&
          s.runtime.any (job "runtime_path").is) = true ∧
        ∃ root, s.runtime = some root ∧ t = reservedUpdate kind id root (poll world s))
      (fun _ => Untouched world s) := by
  unfold reserveUpdate
  apply Triple.get_bind
  rintro t rfl
  apply require_triple
  · intro hjob
    apply Triple.bind idle_triple
    intro _
    apply Triple.get_bind
    rintro u ⟨rfl, hactive⟩
    rintro v rfl
    cases hroot : (poll world t).runtime with
    | none => exact .inr rfl
    | some root =>
      cases hlease : world.lease with
      | error e =>
        simp only [acquire, hlease]
        exact .inr rfl
      | ok _ =>
        simp only [acquire, hlease]
        refine ⟨hactive, hjob, root, ?_, ?_⟩
        · rw [← hroot, poll_runtime]
        · rw [reservedUpdate, hroot]
  · exact .inl rfl

/-- The job after a continuation. -/
def installing (kind : String) : State → State :=
  editJob kind fun job => job.extend [("state", .string "installing"),
    ("phase", .string "recheck"),
    ("message", .string "Eingaben werden vor der Übernahme erneut geprüft …")]

variable (world) in
/-- A continuation goes on with the reservation, or reserves a prepared update for the selected
runtime again. -/
theorem continuation_root (kind id : String) :
    Triple (fun t => t = s) (continuation world kind id)
      (fun ctx t => hasJob s kind (fun job => (job "id").is id && isReady job) = true ∧
        ∃ now a, continued kind id now = some a ∧ t = installing kind now ∧
          ctx = ⟨id, kind, a.runtime, a.cancel⟩ ∧
          (now = s ∨ s.active = none ∧ hasJob s kind (fun job => (job "mode").is "update" &&
              s.runtime.any (job "runtime_path").is) = true ∧
            ∃ root, s.runtime = some root ∧ now = reservedUpdate kind id root (poll world s)))
      (fun _ => Untouched world s) := by
  unfold continuation
  apply Triple.get_bind
  rintro t rfl
  apply require_triple
  · intro _
    apply require_triple
    · intro hready
      apply Triple.bind (Q := fun _ now => now = t ∨ t.active = none ∧
        hasJob t kind (fun job => (job "mode").is "update" &&
          t.runtime.any (job "runtime_path").is) = true ∧
        ∃ root, t.runtime = some root ∧ now = reservedUpdate kind id root (poll world t))
      · unfold reserveAgain
        apply Triple.get_bind
        rintro u rfl
        apply Triple.ite
        · intro _
          exact reserveUpdate_triple kind id |>.post fun _ _ h => .inr h
        · rintro _ v rfl
          exact .inl rfl
      · intro _
        apply Triple.get_bind
        rintro now hnow
        rintro u rfl
        cases hgo : continued kind id u with
        | none =>
          rcases hnow with rfl | ⟨_, _, root, _, rfl⟩
          · exact .inl rfl
          · -- the flag of the new reservation is not set
            simp [continued, reservedUpdate, Option.filter] at hgo
        | some a => exact ⟨hready, u, a, hgo, rfl, rfl, hnow⟩
    · exact .inl rfl
  · exact .inl rfl

variable (world) in
theorem continuation_triple (kind id : String) :
    Triple (fun t => t = s) (continuation world kind id)
      (fun ctx t => hasJob s kind (fun job => (job "id").is id && isReady job) = true ∧
        ∃ now a, continued kind id now = some a ∧ t = installing kind now ∧
          ctx = ⟨id, kind, a.runtime, a.cancel⟩ ∧
          (now = s ∨ s.active = none ∧ hasJob s kind (fun job => (job "mode").is "update" &&
              s.runtime.any (job "runtime_path").is) = true ∧
            ∃ root, now = reservedUpdate kind id root (poll world s)))
      (fun _ => Untouched world s) := by
  apply (continuation_root world kind id).post
  rintro ctx t ⟨hready, now, a, hgo, ht, hctx, hnow⟩
  refine ⟨hready, now, a, hgo, ht, hctx, hnow.imp_right ?_⟩
  rintro ⟨hnone, hmode, root, _, hroot⟩
  exact ⟨hnone, hmode, root, hroot⟩

/-- What is cancelled is the reservation, or a prepared update that is not reserved. -/
theorem cancel_triple (kind id : String) :
    Triple (fun t => t = s) (cancel kind id)
      (fun _ t =>
        (hasJob s kind (isReadyUpdate id) = true ∧ current s id = false ∧
          t = cancelUpdate kind s) ∨
        ∃ a, s.active = some a ∧ a.kind = kind ∧ a.id = id ∧ t = cancelActive a kind s)
      (fun _ t => t = s) := by
  unfold cancel
  apply Triple.get_bind
  rintro t rfl
  apply require_triple
  · intro _
    apply Triple.ite
    · intro h
      rw [Bool.and_eq_true, Bool.not_eq_true'] at h
      rintro u rfl
      exact .inl ⟨h.1, h.2, rfl⟩
    · rintro _ u rfl
      cases hactive : u.active.filter fun a => a.kind == kind && a.id == id with
      | none => rfl
      | some a =>
        obtain ⟨ha, hmatch⟩ := Option.filter_eq_some_iff.mp hactive
        rw [Bool.and_eq_true] at hmatch
        exact .inr ⟨a, ha, eq_of_beq hmatch.1, eq_of_beq hmatch.2, rfl⟩
  · rfl

theorem finish_of_not_current {ctx : Context} (outcome : Outcome) (retain : Bool)
    (h : current s ctx.id = false) : finish world ctx outcome retain s = s := by
  unfold finish
  rw [h]
  rfl

end

end Flightdeck.Backend
