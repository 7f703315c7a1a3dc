import Mathlib.Data.List.Basic

/-!
# The interface's controller

`update` answers one message: it changes the application and starts tasks, whose replies come back
as messages.  Only one poll or one request of the user runs at a time, and a reply carries the
generation in which its task was started.
-/

namespace Flightdeck.UserInterface

inductive Edition where
  | msfs2020
  | msfs2024
  deriving DecidableEq, Repr

inductive Language where
  | de
  | en
  deriving DecidableEq, Repr

def Language.code : Language → String
  | .de => "de"
  | .en => "en"

inductive Page where
  | overview
  | setup
  | updates
  | saves
  | mods
  | diagnostics
  | credits
  deriving DecidableEq, Repr

inductive Action where
  | preferences (language : String)
  | launch
  | stop
  | select (edition : Edition)
  | selectInstallation (id : String)
  | steamOpen
  | addSteamRoot
  | xboxSetup
  | backup
  | graphics
  | vrSave
  | vrCheck
  | setupCheck
  | setupStart
  | setupControl (op : String)
  | pick (field : String)
  | game (op : String)
  | launcher (op : String)
  | cloud (op : String)
  | automatic (op : String)
  | fenix (op : String)
  | fenixPick (kind : String)
  | gsx (op : String)
  | navigraph (op : String)
  | navigraphPick (app : String)
  | orbx (op : String)
  | mobiflight (op : String)
  | proton
  | protonDefault
  | protonCancel
  | maintenance (op : String)
  | maintenanceStart
  | maintenanceDiscard
  | modsOpen
  | modsPreview (id : String)
  | modsRemove
  | modsDiscard
  | store (op : String)
  | report
  | reportDiscard
  | startup
  deriving DecidableEq, Repr

structure Request (Value : Type) where
  path : String
  body : Value
  runtime : String
  confirmation : Option String
  deriving DecidableEq

/-- The setup job of the service, as far as the controller reads it. -/
structure SetupJob where
  id : String
  state : String
  mode : String

/-- What the controller hands on without reading it: the contents on screen (snapshot, discoveries,
forms, notice and report text), and what a snapshot, a result or an edit does to them. -/
structure Surface where
  Contents : Type
  Snapshot : Type
  Value : Type
  Client : Type
  Connector : Type
  Edit : Type
  valueEq : DecidableEq Value
  /-- `json!({})`. -/
  object : Value
  /-- What `request` answers below its gate, apart from the startup check. -/
  table : Contents → Action → Option (Request Value)
  runtime : Contents → String
  hasStatus : Contents → Bool
  /-- The game, the cloud or a job is active: the part of `poll_interval` that reads a snapshot. -/
  busy : Contents → Bool
  keys : Contents → Page → Bool → List String
  setupJob : Contents → SetupJob
  snapshotRoot : Snapshot → String
  clear : Contents → Contents
  extend : Snapshot → Contents → Contents
  /-- The forms of an installation that is new on screen, or of the first snapshot. -/
  reset : Bool → Contents → Contents
  keepDiscoveries : Snapshot → Contents → Contents
  discovered : Contents → String → Bool
  clearDiscoveries : Contents → Contents
  discovery : String → Except String Value → Contents → Contents
  notice : Option String → Contents → Contents
  completed : Action → Value → Contents → Contents
  deferred : Value → Bool
  jobId : Value → Option String
  checksExisting : Contents → Bool
  selectable : Contents → Edition → Bool
  chooseEdition : Edition → Contents → Contents
  toggle : String → Contents → Contents
  edit : Edit → Contents → Contents
  /-- What `can_edit_field` asks beyond `pending`; the flag is `online`. -/
  canEdit : Contents → Bool → String → Bool
  /-- `none`: the choice is refused, and the message leaves everything as it is. -/
  field : String → String → Contents → Option Contents
  flag : String → Bool → Contents → Contents
  planReady : Contents → Bool
  mailUri : Contents → Bool → Option String
  reportText : Contents → Bool → Option String
  diagnosticsText : Contents → Bool → Option String
  safeUrl : String → Bool
  translate : Language → String → String

instance (S : Surface) : DecidableEq S.Value := S.valueEq

/-- Work that an update starts.  The last three answer with no message of a generation. -/
inductive Task (S : Surface) where
  | poll (generation : Nat) (client : S.Client) (language : Language) (keys : List String)
  | reconnect (generation : Nat) (connector : S.Connector)
  | post (generation : Nat) (action : Action) (request : Request S.Value)
  | discover (generation : Nat) (path : String)
  | startup (sequence : Nat) (runtime : String) (request : Request S.Value)
  | desktop
  | widget
  | exit

inductive Message (S : Surface) where
  | select (edition : Edition)
  | language (language : Language)
  | navigate (page : Page)
  | toggle (part : String)
  | openHelp (link : String)
  | openReleaseLink (url : String)
  | action (action : Action)
  | tick
  | refresh
  | loaded (generation : Nat) (result : Except String S.Snapshot)
  | reconnected (generation : Nat) (result : Except String S.Client)
  | completed (generation : Nat) (action : Action) (result : Except String S.Value)
  | startupCompleted (sequence : Nat) (runtime : String) (result : Except String S.Value)
  | field (field value : String)
  | flag (field : String) (value : Bool)
  | discover (path : String)
  | discovered (generation : Nat) (path : String) (result : Except String S.Value)
  | confirm
  | cancelConfirm
  | copyReport
  | mailReport
  | editDescription (edit : S.Edit)
  | saveReport
  | saveDiagnostics
  | copyDiagnostics
  | focus (previous : Bool)
  | exported (result : Except String (Option String))
  | dismiss

/-- The application.  `next` numbers the tasks: it stands for the handle of the next one.
Generations and sequences are counted without the width of their machine word. -/
structure App (S : Surface) where
  language : Language
  page : Page
  client : Option S.Client
  connector : Option S.Connector
  contents : S.Contents
  online : Bool
  pending : Bool
  pending_action : Option Action
  polling : Bool
  poll_task : Option Nat
  poll_count : Nat
  generation : Nat
  reconnect : Bool
  confirmation : Option (Action × Request S.Value)
  startup_checked : Bool
  startup_attempt : Option Nat
  startup_inflight : Option Nat
  startup_sequence : Nat
  startup_retry : Bool
  restarting : Bool
  connect_after_check : Option String
  exporting : Bool
  next : Nat

variable {S : Surface}

/-- What an update leaves: the application and the tasks it started, by their numbers. -/
abbrev Step (S : Surface) := App S × List (Nat × Task S)

namespace App

/-- `App::new`, as the program then fills it in. -/
def new (language : Language) (client : Option S.Client) (connector : Option S.Connector)
    (contents : S.Contents) : App S :=
  { language := language, page := .overview, client := client, connector := connector,
    contents := contents, online := false, pending := false, pending_action := none,
    polling := false, poll_task := none, poll_count := 0, generation := 0, reconnect := false,
    confirmation := none, startup_checked := false, startup_attempt := none,
    startup_inflight := none, startup_sequence := 0, startup_retry := false,
    restarting := false, connect_after_check := none, exporting := false, next := 0 }

/-- Start a task under the next number. -/
def perform (app : App S) (task : Task S) : Step S :=
  ({ app with next := app.next + 1 }, [(app.next, task)])

def quiet (app : App S) : Step S := (app, [])

def tr (app : App S) (de en : String) : String :=
  match app.language with
  | .de => de
  | .en => en

/-- `poll_interval` is ten seconds, and not two. -/
def slowPoll (app : App S) : Bool := app.online && !app.pending && !S.busy app.contents

def startPoll (app : App S) (client : S.Client) : Step S :=
  let heavy := app.slowPoll || app.poll_count % 5 == 0
  perform
    { app with
      polling := true
      poll_task := some app.next
      poll_count := (app.poll_count + 1) % 256 }
    (.poll app.generation client app.language (S.keys app.contents app.page heavy))

def refresh (app : App S) : Step S :=
  if app.polling || app.pending || app.restarting then app.quiet
  else
    match app.reconnect, app.connector, app.client with
    | true, some connector, _ =>
      perform { app with polling := true } (.reconnect app.generation connector)
    | _, _, some client => app.startPoll client
    | _, _, none => app.quiet

def startup_due (app : App S) (now : Nat) : Bool :=
  !app.restarting && app.startup_inflight.isNone &&
    (!app.startup_checked ||
      match app.startup_attempt with
      | some attempt => decide ((if app.startup_retry then 30 else 300) ≤ now - attempt)
      | none => false)

/-- The request of an action in the present state, if it may be sent. -/
def request (app : App S) (now : Nat) (action : Action) : Option (Request S.Value) :=
  if !app.online || app.pending then none
  else if action = .startup then
    if app.startup_due now then
      some ⟨"updates/check-startup", S.object, S.runtime app.contents, none⟩
    else none
  else S.table app.contents action

def submit (app : App S) (action : Action) (request : Request S.Value) : Step S :=
  match app.client with
  | none => app.quiet
  | some _ =>
    perform
      { app with
        pending := true
        pending_action := some action
        confirmation := none
        generation := app.generation + 1
        polling := false
        poll_task := none }
      (.post (app.generation + 1) action request)

def reset_startup_check (app : App S) : App S :=
  { app with
    startup_checked := false
    startup_attempt := none
    startup_inflight := none
    startup_retry := false }

def check_startup (app : App S) (now : Nat) : Step S :=
  match app.request now .startup, app.client with
  | some request, some _ =>
    perform
      { app with
        startup_sequence := app.startup_sequence + 1
        startup_inflight := some (app.startup_sequence + 1)
        startup_checked := true
        startup_attempt := some now }
      (.startup (app.startup_sequence + 1) request.runtime request)
  | _, _ => app.quiet

def can_edit_field (app : App S) (field : String) : Bool :=
  !app.pending && S.canEdit app.contents app.online field

/-- The second of two tasks that an update starts together. -/
def also (first : Step S) (second : App S → Step S) : Step S :=
  ((second first.1).1, first.2 ++ (second first.1).2)

/-- `Message::Action`. -/
def act (app : App S) (now : Nat) (action : Action) : Step S :=
  if app.confirmation.isSome then app.quiet
  else if action = .startup then app.check_startup now
  else
    match app.request now action with
    | none => app.quiet
    | some request =>
      if request.confirmation.isSome then
        { app with confirmation := some (action, request) }.quiet
      else app.submit action request

def confirm (app : App S) (now : Nat) : Step S :=
  match app.confirmation with
  | none => app.quiet
  | some (action, reviewed) =>
    if request { app with confirmation := none } now action = some reviewed then
      submit { app with confirmation := none } action reviewed
    else
      { app with
        confirmation := none
        contents := S.notice
          (some (app.tr "Der Status hat sich geändert. Bitte die Aktion erneut prüfen."
            "The state changed. Please review the action again.")) app.contents }.quiet

/-- What a snapshot leaves on screen, and whether the checks of the last one are void. -/
def showSnapshot (app : App S) (snapshot : S.Snapshot) : App S :=
  let old := S.runtime app.contents
  let first := !S.hasStatus app.contents
  let cleared :=
    if old ≠ S.snapshotRoot snapshot then
      reset_startup_check { app with contents := S.clear app.contents, poll_count := 0 }
    else app
  let extended :=
    { cleared with contents := S.extend snapshot cleared.contents, online := true }
  let fresh :=
    if old ≠ S.runtime extended.contents || first then
      { extended with confirmation := none, contents := S.reset first extended.contents }
    else extended
  { fresh with contents := S.keepDiscoveries snapshot fresh.contents }

/-- The tasks after a snapshot: the startup check, and on the setup page a second poll. -/
def checkAfterSnapshot (app : App S) (now : Nat) : Step S :=
  if app.page = .setup && !S.discovered app.contents "proton/discover" then
    also (app.check_startup now) refresh
  else app.check_startup now

/-- The installation that a finished check was for is connected. -/
def connectChecked (app : App S) (now : Nat) : Step S :=
  match app.connect_after_check with
  | none => app.checkAfterSnapshot now
  | some id =>
    let job := S.setupJob app.contents
    if job.id ≠ id || ["failed", "cancelled", "complete"].contains job.state then
      { app with connect_after_check := none }.checkAfterSnapshot now
    else if job.state = "ready" && job.mode = "existing" then
      { app with connect_after_check := none }.act now .setupStart
    else app.checkAfterSnapshot now

def loaded (app : App S) (now : Nat) (result : Except String S.Snapshot) : Step S :=
  let answered := { app with polling := false, poll_task := none, pending_action := none }
  match result with
  | .ok snapshot => (answered.showSnapshot snapshot).connectChecked now
  | .error error =>
    { answered with
      online := false
      reconnect := true
      confirmation := none
      contents := S.notice (some error) answered.contents }.quiet

def reconnected (app : App S) (result : Except String S.Client) : Step S :=
  match result with
  | .ok client =>
    (reset_startup_check
      { app with
        polling := false
        client := some client
        reconnect := false
        contents := S.clear app.contents
        confirmation := none
        connect_after_check := none }).refresh
  | .error error =>
    { app with polling := false, contents := S.notice (some error) app.contents }.quiet

/-- A POST result is not a new status: actions wait for the snapshot after it. -/
def awaitSnapshot (app : App S) : Step S := { app with online := false }.refresh

def completed (app : App S) (action : Action) (result : Except String S.Value) : Step S :=
  let answered := { app with pending := false, poll_count := 0 }
  match result with
  | .error error =>
    { answered with
      pending_action := none
      contents := S.notice (some error) answered.contents }.awaitSnapshot
  | .ok value =>
    let shown := { answered with contents := S.completed action value answered.contents }
    match action with
    | .setupCheck =>
      if S.checksExisting answered.contents then
        { shown with connect_after_check := S.jobId value }.awaitSnapshot
      else shown.awaitSnapshot
    | .xboxSetup => { shown with page := .setup }.awaitSnapshot
    | .launcher op =>
      -- The application ends here, before the status is marked as old.
      if op = "restart" then { shown with restarting := true }.perform .exit
      else shown.awaitSnapshot
    | _ => shown.awaitSnapshot

def startupCompleted (app : App S) (result : Except String S.Value) : Step S :=
  let retry := match result with
    | .ok value => S.deferred value
    | .error _ => true
  { app with startup_inflight := none, startup_retry := retry }.refresh

def select (app : App S) (now : Nat) (edition : Edition) : Step S :=
  match app.request now (.select edition) with
  | none => app.quiet
  | some _ =>
    if S.selectable app.contents edition then app.act now (.select edition)
    else { app with page := .setup, contents := S.chooseEdition edition app.contents }.quiet

def chooseLanguage (app : App S) (now : Nat) (language : Language) : Step S :=
  if app.pending then app.quiet
  else
    let chosen :=
      { app with
        language := language
        confirmation := none
        contents := S.notice none app.contents }
    match chosen.request now (.preferences language.code) with
    | some request => chosen.submit (.preferences language.code) request
    | none =>
      { chosen with
        generation := chosen.generation + 1
        polling := false
        online := false }.refresh

def navigate (app : App S) (page : Page) : Step S :=
  let shown := { app with page := page, confirmation := none, poll_count := 0 }
  if shown.pending then shown.refresh
  else
    { shown with
      generation := shown.generation + 1
      polling := false
      poll_task := none }.refresh

def edit (app : App S) (edit : S.Edit) : Step S :=
  if app.pending || app.confirmation.isSome then app.quiet
  else { app with contents := S.edit edit app.contents }.quiet

def setField (app : App S) (field value : String) : Step S :=
  if !app.can_edit_field field then app.quiet
  else
    match S.field field value app.contents with
    | none => app.quiet
    | some contents => { app with confirmation := none, contents := contents }.quiet

def setFlag (app : App S) (now : Nat) (field : String) (value : Bool) : Step S :=
  if app.pending then app.quiet
  else
    let open' := { app with confirmation := none }
    if ["keep_data", "delete_packages"].contains field && S.planReady open'.contents then
      -- A reviewed destructive plan is discarded before any option changes.
      let discarded := open'.act now .maintenanceDiscard
      ({ discarded.1 with contents := S.flag field value discarded.1.contents }, discarded.2)
    else { open' with contents := S.flag field value open'.contents }.quiet

def discover (app : App S) (path : String) : Step S :=
  if !(["setup/discover", "proton/discover"].contains path) || app.pending || !app.online ||
      (path == "proton/discover" && !app.can_edit_field "proton") then app.quiet
  else
    match app.client with
    | none => app.quiet
    | some _ =>
      perform
        { app with pending := true, generation := app.generation + 1, polling := false }
        (.discover (app.generation + 1) path)

def discovered (app : App S) (path : String) (result : Except String S.Value) : Step S :=
  { app with pending := false, contents := S.discovery path result app.contents }.refresh

/-- A window of the desktop is opened; only one at a time. -/
def openDesktop (app : App S) (possible : Bool) (message : Option String) : Step S :=
  if app.exporting || !possible then app.quiet
  else
    perform
      { app with
        exporting := true
        contents := match message with
          | some text => S.notice (some text) app.contents
          | none => app.contents }
      .desktop

def exported (app : App S) (result : Except String (Option String)) : Step S :=
  let closed := { app with exporting := false }
  match result with
  | .ok none => closed.quiet
  | .ok (some path) =>
    { closed with
      contents := S.notice (some (app.tr "Gespeichert" "Saved" ++ ": " ++ path))
        closed.contents }.quiet
  | .error error =>
    { closed with
      contents := S.notice (some (S.translate app.language error)) closed.contents }.quiet

end App

/-- While a confirmation is open these messages do nothing. -/
def Message.heldBack : Message S → Bool
  | .action _ => true
  | .field _ _ => true
  | .editDescription _ => true
  | .flag _ _ => true
  | .select _ => true
  | .navigate _ => true
  | .toggle _ => true
  | .language _ => true
  | _ => false

/-- Answer one message that is not held back. -/
def handle (now : Nat) (app : App S) : Message S → Step S
  | .reconnected generation result =>
    if generation ≠ app.generation then app.quiet else app.reconnected result
  | .focus _ => app.perform .widget
  | .tick => app.refresh
  | .refresh =>
    App.refresh
      { app with
        poll_count := 0
        contents :=
          if app.page = .setup && !app.pending then S.clearDiscoveries app.contents
          else app.contents }
  | .loaded generation result =>
    if generation ≠ app.generation then app.quiet else app.loaded now result
  | .action action => app.act now action
  | .confirm => app.confirm now
  | .cancelConfirm => { app with confirmation := none }.quiet
  | .startupCompleted sequence runtime result =>
    if app.startup_inflight ≠ some sequence || S.runtime app.contents ≠ runtime then app.quiet
    else app.startupCompleted result
  | .completed generation action result =>
    if generation ≠ app.generation then app.quiet else app.completed action result
  | .select edition => app.select now edition
  | .language language => app.chooseLanguage now language
  | .navigate page => app.navigate page
  | .toggle part => { app with contents := S.toggle part app.contents }.quiet
  | .editDescription edit => app.edit edit
  | .field field value => app.setField field value
  | .flag field value => app.setFlag now field value
  | .discover path => app.discover path
  | .discovered generation path result =>
    if generation ≠ app.generation then app.quiet else app.discovered path result
  | .mailReport =>
    app.openDesktop (S.mailUri app.contents app.online).isSome
      (some (app.tr
        "Der E-Mail-Entwurf wird geöffnet. Prüfe ihn im Mailprogramm vor dem Senden."
        "Opening an email draft. Review it in your mail application before sending."))
  | .openHelp _ => app.openDesktop true none
  | .openReleaseLink url => app.openDesktop (S.safeUrl url) none
  | .copyReport =>
    if (S.reportText app.contents app.online).isSome then app.perform .widget else app.quiet
  | .copyDiagnostics =>
    if (S.diagnosticsText app.contents app.online).isSome then app.perform .widget else app.quiet
  | .saveReport => app.openDesktop (S.reportText app.contents app.online).isSome none
  | .saveDiagnostics => app.openDesktop (S.diagnosticsText app.contents app.online).isSome none
  | .exported result => app.exported result
  | .dismiss => { app with contents := S.notice none app.contents }.quiet

def update (now : Nat) (app : App S) (message : Message S) : Step S :=
  if app.confirmation.isSome && message.heldBack then app.quiet else handle now app message

end Flightdeck.UserInterface
