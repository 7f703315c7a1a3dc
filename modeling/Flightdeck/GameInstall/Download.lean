import Flightdeck.GameInstall.Requests

/-!
# The worker of a download

`game_install.rs`: `download` runs the Xodus CLI to sign in and to stream the game, and supervises
it while requests come in.  Every access to what the requests share is a step of its own, so a
request may fall between any two of them.
-/

namespace Flightdeck.GameInstall

open Backend (WorkError)

/-! ## The request -/

/-- The fields of `Request` that decide what the worker does; files are outcomes of its steps. -/
structure Request where
  /-- the id of the job, from the context -/
  ctx : String
  features : List String
  signIn : Bool
  expectedPackage : Option String

def Request.feature (r : Request) (name : String) : Bool := r.features.contains name

def Request.resume (r : Request) : Bool := r.feature "streaming-resume-files-v1"

def isDigestChar (c : Char) : Bool := c.isDigit || ('a' ≤ c && c ≤ 'f')

/-- `files::hex_digest` -/
def hexDigest (value : String) : Bool :=
  value.utf8ByteSize == 64 && value.toList.all isDigestChar

def NO_SAFE_UPDATES :=
  "Diese Flightdeck-Komponenten unterstützen noch keine sicheren Spielupdates. Bitte Flightdeck aktualisieren."

/-- The arguments for an expected package need components that know them. -/
def Request.packageArgs (r : Request) : Except WorkError Unit :=
  match r.expectedPackage with
  | none => .ok ()
  | some package =>
    require (r.resume && r.feature "package-info-json-v1" && hexDigest package) NO_SAFE_UPDATES

/-! ## Exit codes -/

inductive Exit where
  | code (code : Int)
  | paused
  deriving DecidableEq

def loginMessage (code : Int) : String :=
  match code with
  | 70 => "Das Microsoft-Anmeldefenster oder der Anmeldeablauf ist fehlgeschlagen. Flightdeck aus der grafischen Sitzung starten und erneut versuchen."
  | 71 => "Die Microsoft-Anmeldung konnte nicht vorbereitet werden. Schlüsselbund und Netzwerk prüfen und erneut versuchen."
  | 72 => "Die Microsoft-Anmeldedaten konnten nicht gespeichert werden. Den Linux-Schlüsselbund prüfen und erneut versuchen."
  | 73 => "Die Verbindung zu Microsoft ist während der Anmeldung fehlgeschlagen (Anmeldecode 73). Bitte die Verbindung prüfen und erneut versuchen."
  | 74 => "Die Microsoft-Anmeldeantwort konnte nicht verarbeitet werden (Anmeldecode 74). Bitte diesen Code beim Fehlerbericht angeben."
  | 75 => "Microsoft hat die Anmeldung ohne einen unterstützten Verifizierungsschritt abgelehnt (Anmeldecode 75). Bitte diesen Code beim Fehlerbericht angeben."
  | 76 => "Bitte mit demselben Microsoft-Konto wie zuvor anmelden (Anmeldecode 76)."
  | 79 => "Microsoft hat keinen unterstützten Verifizierungsschritt zurückgegeben (Anmeldecode 79). Bitte diesen Code beim Fehlerbericht angeben."
  | 80 => "Die Microsoft-Tokenanfrage konnte nicht erstellt werden (Anmeldecode 80)."
  | 81 => "Die Microsoft-Anmeldeantwort überschreitet das Größenlimit (Anmeldecode 81)."
  | 82 => "Die Textkodierung der Microsoft-Anmeldeantwort ist ungültig (Anmeldecode 82)."
  | 83 => "Die XML-Struktur der Microsoft-Anmeldeantwort konnte nicht gelesen werden (Anmeldecode 83)."
  | 84 => "Die Signatur der Microsoft-Anmeldeantwort konnte nicht geprüft werden (Anmeldecode 84)."
  | 85 => "Der Microsoft-Verifizierungsschritt konnte nicht entschlüsselt werden (Anmeldecode 85)."
  | 86 => "Der entschlüsselte Microsoft-Verifizierungsschritt konnte nicht gelesen werden (Anmeldecode 86)."
  | 87 => "Die Microsoft-Tokenantwort konnte nicht entschlüsselt werden (Anmeldecode 87)."
  | 88 => "Die entschlüsselte Microsoft-Tokenantwort konnte nicht gelesen werden (Anmeldecode 88)."
  | 89 => "Die Microsoft-Tokenantwort ist unvollständig (Anmeldecode 89)."
  | 90 => "Der Microsoft-Anmeldedienst hat einen HTTP-Fehler zurückgegeben (Anmeldecode 90)."
  | 91 => "Microsoft hat kein gültiges Haupt-Anmeldetoken zurückgegeben (Anmeldecode 91)."
  | 92 => "Die Microsoft-Tokenanfrage hat das Zeitlimit überschritten (Anmeldecode 92)."
  | 93 => "Microsoft hat zu viele Anmeldeversuche gemeldet. Bitte vor dem nächsten Versuch warten (Anmeldecode 93)."
  | 101 => "Die Microsoft-Anmeldung wurde unerwartet beendet. Grafische Sitzung, GTK/WebKitGTK und Schlüsselbund prüfen und erneut versuchen."
  | _ => "Die Microsoft-Anmeldung wurde nicht abgeschlossen. Bitte erneut versuchen."

def loginResult (code : Int) : Except WorkError Unit := require (code == 0) (loginMessage code)

/-! ## Where the worker is -/

/-- Where it signs in: before the first download, and when a session has expired. -/
inductive Place where
  | first
  | session
  deriving DecidableEq

inductive Cli where
  | login (place : Place)
  | streaming
  deriving DecidableEq

/-- Where `wait_for_retry` is called. -/
inductive Failed where
  | authentication (place : Place)
  | download
  deriving DecidableEq

/-- The argument `phase` of `wait_for_retry`. -/
def Failed.phase : Failed → JobPhase
  | .authentication _ => .authentication
  | .download => .download

inductive Wait where
  | paused
  | retry (failed : Failed)
  deriving DecidableEq

inductive Stage where
  /-- the checks before anything is shared -/
  | checks
  | announce
  | package
  /-- the closure `login` up to `verify_cli` -/
  | login (place : Place)
  | prompt (place : Place)
  | verify (cli : Cli)
  /-- the head of the download loop, and what it shows before it runs the CLI -/
  | loop
  | attempt
  | show (attempt : Nat)
  | requesting
  /-- `run_cli` -/
  | enter (cli : Cli)
  | spawn (cli : Cli)
  | poll (cli : Cli) (exited : Option Int)
  | tryWait (cli : Cli)
  | look (cli : Cli)
  /-- what `run_cli` returned -/
  | ended (cli : Cli) (outcome : Except WorkError Exit)
  /-- `wait_for_retry` -/
  | fail (failed : Failed) (error : WorkError)
  | setPause (failed : Failed) (error : WorkError)
  | offerRetry (failed : Failed) (error : WorkError)
  | offerResume
  | waiting (wait : Wait)
  | waitingCancel (wait : Wait)
  | left (failed : Failed)
  | again (failed : Failed)
  /-- after the loop -/
  | finished
  | validate
  | integrity
  /-- the two last statements, and the end -/
  | closing (result : Except WorkError Unit)
  | withdraw (result : Except WorkError Unit)
  | returned (result : Except WorkError Unit)

inductive Child where
  | running
  | exited (code : Int)
  deriving DecidableEq

/-- What the worker does, and the requests that were accepted. -/
inductive Event where
  | verified
  | spawned (cli : Cli)
  | exited (cli : Cli) (code : Int)
  | validated
  /-- it leaves a wait -/
  | left
  | accepted (operation : String)
  deriving DecidableEq

structure System where
  shared : Shared
  stage : Stage := .checks
  authenticated : Bool := false
  child : Option Child := none
  /-- the CLI processes that run -/
  running : Nat := 0
  /-- the last event first -/
  history : List Event := []

namespace System

def goto (stage : Stage) (s : System) : System := { s with stage }

def log (event : Event) (s : System) : System := { s with history := event :: s.history }

def update (r : Request) (patch : Job → Job) (s : System) : System :=
  { s with shared := s.shared.update r.ctx patch }

def storePause (pause : Bool) (s : System) : System := { s with shared := { s.shared with pause } }

/-- The child is no longer there; one that ran was counted. -/
def reap (s : System) : System :=
  { s with
    child := none
    running := if s.child = some .running then s.running - 1 else s.running }

end System

/-! ## The steps -/

def LOGIN_TIMEOUT := "Die Microsoft-Anmeldung hat zu lange gedauert. Bitte erneut versuchen."
def LOGIN_PAUSED := "Die Anmeldung kann nicht pausiert werden."
def OTHER_REVISION :=
  "Im Store ist inzwischen eine andere Paketrevision verfügbar. Bitte das Update erneut prüfen; die bisherige Installation bleibt erhalten."
def CODE_94 :=
  "Die Xbox-Authentifizierung für den Spieldownload ist fehlgeschlagen. Das kann auch nach erfolgreicher Microsoft-Anmeldung passieren. Bitte diesen Fehler mit Downloadcode 94 melden."
def NOT_COMPLETED :=
  "Der Spieldownload wurde nicht abgeschlossen. Bitte Kaufberechtigung, Speicherplatz und Verbindung prüfen."

/-- Goes on unless the job was cancelled. -/
def unlessCancelled (s : System) (next cancelled : Stage) : Stage :=
  if s.shared.cancel then cancelled else next

/-- `login` returned an error. -/
def loginFailed (r : Request) (place : Place) (e : WorkError) : Stage :=
  if e.isCancelled then .closing (.error .cancelled)
  else
    match place with
    | .first => if r.resume then .fail (.authentication .first) e else .closing (.error e)
    | .session => .fail (.authentication .session) e

/-- `login` returned. -/
def loginReturned (r : Request) (place : Place) (result : Except WorkError Unit) (s : System) :
    System :=
  match result with
  | .error e => s.goto (loginFailed r place e)
  | .ok () =>
    match place with
    | .first => s.goto .loop
    | .session => { s with authenticated := true }.goto .loop

/-- The arms for an exit code of the download. -/
def downloadCode (r : Request) (authenticated : Bool) (code : Int) : Stage :=
  if code = 77 ∧ r.resume ∧ !authenticated then .login .session
  else if code = 78 ∧ r.expectedPackage.isSome then .closing (.error (.invalid OTHER_REVISION))
  else if code = 0 then .finished
  else
    let error := .invalid (if code = 94 then CODE_94 else NOT_COMPLETED)
    if r.resume then .fail .download error else .closing (.error error)

/-- `run_cli` returned an error to the download loop. -/
def downloadFailed (r : Request) (e : WorkError) : Stage :=
  if e.isCancelled then .closing (.error .cancelled)
  else if r.resume then .fail .download e
  else .closing (.error e)

/-- `options.pausable` -/
def pausable (r : Request) (cli : Cli) : Bool := cli == .streaming && r.resume

/-- Where `verify_cli` leads. -/
def verified (r : Request) (cli : Cli) (outcome : Except WorkError Unit) (s : System) : System :=
  match outcome, cli with
  | .ok (), .login place => (s.log .verified).goto (.enter (.login place))
  | .ok (), .streaming => (s.log .verified).goto .attempt
  | .error e, .login place => s.goto (loginFailed r place e)
  | .error e, .streaming => s.goto (.closing (.error e))

/-- What the caller does with the outcome of `run_cli`. -/
def returnedCli (r : Request) (cli : Cli) (outcome : Except WorkError Exit) (s : System) : System :=
  match cli, outcome with
  | .login place, .ok (.code code) =>
    loginReturned r place (loginResult code)
      (s.update r fun job => { job with loginExitCode := some code })
  | .login place, .ok .paused => s.goto (loginFailed r place (.invalid LOGIN_PAUSED))
  | .login place, .error e => s.goto (loginFailed r place e)
  | .streaming, .ok (.code code) =>
    (s.update r fun job => { job with downloadExitCode := some code }).goto
      (downloadCode r s.authenticated code)
  | .streaming, .ok .paused => s.goto .offerResume
  | .streaming, .error e => s.goto (downloadFailed r e)

/-- The wait is over. -/
def leave (wait : Wait) (s : System) : System :=
  match wait with
  | .paused => { s.log .left with authenticated := false }.goto .loop
  | .retry failed => (s.log .left).goto (.left failed)

/-- `wait_for_retry` returned. -/
def retried (failed : Failed) (s : System) : System :=
  match failed with
  | .authentication .first => s.goto (.login .first)
  | _ => { s with authenticated := false }.goto .loop

/-- One step of the worker.  `outcome` is how the operation of the step on files, processes or pipes
ends, and `late` says whether the time limit of the sign-in has passed. -/
def advance (r : Request) (outcome : Except WorkError Unit) (late : Bool) (s : System) : System :=
  match s.stage with
  | .checks =>
    match outcome with
    | .ok () => s.goto .announce
    | .error e => s.goto (.returned (.error e))
  | .announce =>
    (s.update r fun job =>
      { job with
        downloadAttempt := 0
        downloadExitCode := none
        loginExitCode := none
        canRetry := false }).goto .package
  | .package =>
    match r.packageArgs with
    | .ok () => s.goto (if r.signIn then .login .first else .loop)
    | .error e => s.goto (.returned (.error e))
  | .login place =>
    (s.update r fun job =>
      { job with phase := .authentication, canPause := false, canResume := false }).goto
      (.prompt place)
  | .prompt place =>
    (s.update r fun job =>
      { job with
        message := "Bitte im Microsoft-Fenster mit dem Konto anmelden, das MSFS besitzt." }).goto
      (.verify (.login place))
  | .verify cli => verified r cli outcome s
  | .loop => s.goto (unlessCancelled s (.verify .streaming) (.closing (.error .cancelled)))
  | .attempt =>
    s.goto (.show (min ((s.shared.job.elim 0 Job.downloadAttempt) + 1) 1000000))
  | .show attempt =>
    (s.update r fun job =>
      { job with
        state := .installing
        phase := .download
        canPause := r.resume
        canResume := false
        canRetry := false
        downloadAttempt := attempt }).goto .requesting
  | .requesting =>
    (s.update r fun job =>
      { job with
        message := "MSFS wird über Xodus angefordert, die Lizenz geprüft und das Spiel heruntergeladen. Das kann längere Zeit dauern …" }).goto
      (.enter .streaming)
  | .enter cli => s.goto (unlessCancelled s (.spawn cli) (.ended cli (.error .cancelled)))
  | .spawn cli =>
    match outcome with
    | .ok () =>
      { s.log (.spawned cli) with child := some .running, running := s.running + 1 }.goto
        (.poll cli none)
    | .error e => s.goto (.ended cli (.error e))
  | .poll cli exited =>
    if s.shared.cancel then s.reap.goto (.ended cli (.error .cancelled))
    else
      match outcome, exited with
      | .error e, _ => s.reap.goto (.ended cli (.error e))
      | .ok (), some code => (s.reap.log (.exited cli code)).goto (.ended cli (.ok (.code code)))
      | .ok (), none => s.goto (.tryWait cli)
  | .tryWait cli =>
    match outcome, s.child with
    | .error e, _ => s.reap.goto (.ended cli (.error e))
    | .ok (), some (.exited code) => s.goto (.poll cli (some code))
    | .ok (), _ => s.goto (.look cli)
  | .look cli =>
    if pausable r cli && s.shared.pause then
      match outcome with
      | .ok () => s.reap.goto (.ended cli (.ok .paused))
      | .error e => s.reap.goto (.ended cli (.error e))
    else if cli != .streaming && late then
      s.reap.goto (.ended cli (.error (.invalid LOGIN_TIMEOUT)))
    else s.goto (.poll cli none)
  | .ended cli outcome => returnedCli r cli outcome s
  | .fail failed e =>
    s.goto (unlessCancelled s (.setPause failed e) (.closing (.error .cancelled)))
  | .setPause failed e => (s.storePause true).goto (.offerRetry failed e)
  | .offerRetry failed e =>
    (s.update r fun job =>
      { job with
        state := .failed
        phase := .downloadFailed
        failurePhase := some failed.phase
        canPause := false
        canResume := false
        canRetry := true
        error := some e.text
        message := "Der Download wurde unterbrochen. Erneut versuchen verwendet bereits vollständig geladene Dateien nach erneuter Prüfung weiter." }).goto
      (.waiting (.retry failed))
  | .offerResume =>
    (s.update r fun job =>
      { job with
        phase := .paused
        canPause := false
        canResume := true
        message := "Download pausiert. Flightdeck geöffnet lassen. Vollständige Dateien bleiben erhalten; die unvollständige Datei beginnt beim Fortsetzen erneut." }).goto
      (.waiting .paused)
  | .waiting wait => if s.shared.pause then s.goto (.waitingCancel wait) else leave wait s
  | .waitingCancel wait =>
    if s.shared.cancel then (s.log .left).goto (.closing (.error .cancelled))
    else s.goto (.waiting wait)
  | .left failed =>
    s.goto (unlessCancelled s (.again failed) (.closing (.error .cancelled)))
  | .again failed =>
    retried failed <| s.update r fun job =>
      { job with state := .installing, phase := failed.phase, canRetry := false, error := none }
  | .finished => s.goto (unlessCancelled s .validate (.closing (.error .cancelled)))
  | .validate =>
    match outcome with
    | .ok () =>
      (s.log .validated).goto
        (if r.feature "streaming-integrity-index-v1" then .integrity else .closing (.ok ()))
    | .error e => s.goto (.closing (.error e))
  | .integrity => s.goto (.closing outcome)
  | .closing result => (s.storePause false).goto (.withdraw result)
  | .withdraw result =>
    (s.update r fun job =>
      { job with canPause := false, canResume := false, canRetry := false }).goto
      (.returned result)
  | .returned _ => s

/-! ## The interleavings -/

inductive Action where
  | work (outcome : Except WorkError Unit) (late : Bool)
  /-- the CLI exits by itself -/
  | exit (code : Int)
  /-- `download_action` -/
  | request (id operation : String)
  | cancel (id : String)
  | close

def exit (code : Int) (s : System) : System :=
  if s.child = some .running then
    { s with child := some (.exited code), running := s.running - 1 }
  else s

/-- A request to pause, resume or retry. -/
def request (id operation : String) (s : System) : System :=
  match downloadAction id operation s.shared with
  | .ok _ shared => { s with shared }.log (.accepted operation)
  | .error _ shared => { s with shared }

def next (r : Request) (s : System) : Action → System
  | .work outcome late => advance r outcome late s
  | .exit code => exit code s
  | .request id operation => request id operation s
  | .cancel id => { s with shared := Foundation.stateOf (cancel id s.shared) }
  | .close => { s with shared := close s.shared }

/-- What the callers of `download` promise: the job is theirs and is being installed, and nobody was
offered anything yet. -/
structure Started (r : Request) (s : System) : Prop where
  shared : ∃ job, s.shared.active = some ⟨"setup", r.ctx⟩ ∧ s.shared.job = some job ∧
    job.id = r.ctx ∧ job.state = .installing ∧ job.canPause = false ∧ job.canResume = false ∧
    job.canRetry = false
  pause : s.shared.pause = false
  fresh : s = { shared := s.shared }

/-- The runs whose steps all meet a condition. -/
inductive Runs (meets : System → Action → Prop) (r : Request) : System → Prop where
  | start {s : System} : Started r s → Runs meets r s
  | step {s : System} {action : Action} : Runs meets r s → meets s action →
      Runs meets r (next r s action)

end Flightdeck.GameInstall
