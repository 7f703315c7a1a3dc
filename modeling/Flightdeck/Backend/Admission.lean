import Flightdeck.Backend.Commit

/-!
# Admission

A POST request holds one lock from the comparison of its context until it is answered, so that no
other request comes between.  The workers do not take that lock, and two of them select another
installation: an installer that activates the runtime it set up, and an uninstall.
-/

namespace Flightdeck.Backend

open Foundation

/-- `Launcher::context` -/
def context (s : State) : String :=
  match s.steam with
  | some item => item.context
  | none => s.runtime.getD ""

/-! ## The operations of requests and workers -/

def RELOAD :=
  "Die ausgewählte Installation hat sich geändert. Bitte den Status neu laden."
def SETTING := "Ungültige Einstellung."
def NO_BACKUP :=
  "Ein Backup benötigt vorhandene lokale Spielstände und ein beendetes Spiel."
def NO_STEAM := "Keine Steam-Installation ausgewählt."
def UNRESERVED := "Die Runtime ist nicht für diesen Spielstart reserviert."

/-- The comparison in `handle`. -/
def expects (expected : Option String) (s : State) : Except Error Unit :=
  match expected with
  | none => .ok ()
  | some expected => require (context s == expected) RELOAD

structure Setting where
  root : String
  file : String
  key : String
  value : String

/-- The runtime that an operation without a job acts on. -/
def configured (s : State) : Except Error String :=
  match s.runtime with
  | none => .error (.invalid NO_RUNTIME)
  | some root => .ok root

/-- `Launcher::configure_setting`; `written` is how `atomic_json` ends. -/
def configureSetting (world : World) (written : Except Error Unit) (selected value file key : String)
    (choices : List String) : Run Setting := do
  require (choices.contains value) SETTING
  idle world
  let root ← configured (← get)
  require (root == selected) RELOAD
  let _ ← acquire world root
  written
  return ⟨root, file, key, value⟩

/-- `Launcher::save_backup`; `copied` is how `runtime::backup` ends. -/
def saveBackup (world : World) (canBackup : Bool) (copied : Except Error Unit) : Run String := do
  idle world
  let root ← configured (← get)
  require canBackup NO_BACKUP
  let _ ← acquire world root
  copied
  return root

/-- `steam_session::launch`; `spawned` is how its checks of the installation and `process::spawn`
end. -/
def launchSteam (world : World) (spawned : Except Error Unit) : Run Installation := do
  idle world
  match (← get).steam with
  | none => throw (.invalid NO_STEAM)
  | some item =>
    spawned
    modify fun s => { s with exitCode := none }
    return item

/-- What `select`, `configure` and `xbox_setup` do to the selection, once `stored` it. -/
def selectInstallation (world : World) (steam : Option Installation) (runtime : Option String)
    (stored : Except Error Unit) : Run Unit := do
  idle world
  stored
  modify fun s => { s with steam, runtime, exitCode := none }

/-- The end of `supervisor::start`, where the worker of a session spawns the game. -/
def spawnGame (ctx : Context) (spawned : Except Error Unit) : Run String := do
  match ctx.runtime with
  | none => throw (.invalid NO_RUNTIME)
  | some root =>
    let s ← get
    require (current s ctx.id && !s.process && !s.closing) UNRESERVED
    spawned
    set { s with process := true, stopping := false, exitCode := none }
    return root

/-! ## The server -/

/-- How far a request has come in `handle`. -/
inductive Stage where
  | compared
  | opened
  /-- whether `steam::post` found a Steam installation selected -/
  | routed (steam : Bool)
  deriving DecidableEq

/-- The request that holds `MUTATIONS`. -/
structure Admission where
  expected : Option String
  stage : Stage
  /-- whether another installation was selected since the comparison -/
  moved : Bool
  deriving DecidableEq

/-- What a request did, with the context of the installation that it did it to and the context that
was selected then. -/
structure Effect where
  expected : Option String
  target : String
  selected : String
  deriving DecidableEq

structure Server where
  sys : System
  admission : Option Admission
  /-- what the request expected that created a flag -/
  origin : Flag → Option String
  /-- newest first -/
  effects : List Effect

inductive Step where
  /-- a request takes the lock and compares its context -/
  | compare (expected : Option String)
  /-- `Launcher::open` in `handle` -/
  | opened
  | route
  | reserve (world : World) (kind operation : String) (needsRuntime : Bool) (work : Work)
  | resume (world : World) (kind id : String)
  | configure (world : World) (written : Except Error Unit) (selected value file key : String)
      (choices : List String)
  | backup (world : World) (canBackup : Bool) (copied : Except Error Unit)
  | launch (world : World) (spawned : Except Error Unit)
  | select (world : World) (steam : Option Installation) (runtime : Option String)
      (stored : Except Error Unit)
  /-- the request is answered -/
  | leave
  | activate (worker : Worker) (root : Except Error String) (committed : Except Error Unit)
  /-- the end of `maintenance::uninstall`, after its `begin_commit` -/
  | uninstall (worker : Worker) (selected : Option String)
  | play (worker : Worker) (spawned : Except Error Unit)
  /-- what selects nothing and reserves nothing -/
  | other (action : Action)

namespace Server

/-- The selection as far as a request sees it. -/
def selection (s : State) : String × Bool := (context s, s.steam.isSome)

/-- The server after a step that may have selected another installation. -/
def moved (srv : Server) (sys : System) : Server :=
  { srv with
    sys
    admission := srv.admission.map fun a =>
      { a with moved := a.moved || selection sys.state != selection srv.sys.state } }

def expected (srv : Server) : Option String := srv.admission.bind (·.expected)

/-- The request had its effect on the installation of this context. -/
def acted (srv : Server) (sys : System) (target : String) : Server :=
  { srv with sys, effects := ⟨srv.expected, target, context sys.state⟩ :: srv.effects }

def withState (srv : Server) (state : State) : Server := { srv with sys := { srv.sys with state } }

/-- The text that a job's `runtime_path` names an installation by. -/
def pathText : Value → String
  | .string path => path
  | _ => ""

/-- The installation of the job that was reserved. -/
def jobTarget (s : State) (kind : String) : String :=
  match s.jobs kind with
  | some job => pathText (job "runtime_path")
  | none => ""

def next (srv : Server) : Step → Server
  | .compare expected =>
    match expects expected srv.sys.state with
    | .ok _ => { srv with admission := some ⟨expected, .compared, false⟩ }
    | .error _ => srv
  | .opened =>
    match isOpen srv.sys.state with
    | .ok _ => { srv with admission := srv.admission.map fun a => { a with stage := .opened } }
    | .error _ => { srv with admission := none }
  | .route =>
    { srv with
      admission := srv.admission.map fun a =>
        { a with stage := .routed srv.sys.state.steam.isSome } }
  | .reserve world kind operation needsRuntime work =>
    let sys := Backend.next srv.sys (.request world kind operation needsRuntime work)
    match reserveLocked world kind operation needsRuntime srv.sys.state with
    | .ok ctx _ =>
      { srv.acted sys (jobTarget sys.state kind) with
        origin := Function.update srv.origin ctx.cancel srv.expected }
    | .error _ _ => { srv with sys }
  | .resume world kind id =>
    let sys := Backend.next srv.sys (.continuation world kind id)
    match continuation world kind id srv.sys.state with
    | .ok ctx _ => srv.acted sys (ctx.runtime.getD "")
    | .error _ _ => { srv with sys }
  | .configure world written selected value file key choices =>
    match configureSetting world written selected value file key choices srv.sys.state with
    | .ok setting s => srv.acted { srv.sys with state := s } setting.root
    | .error _ s => srv.withState s
  | .backup world canBackup copied =>
    match saveBackup world canBackup copied srv.sys.state with
    | .ok root s => srv.acted { srv.sys with state := s } root
    | .error _ s => srv.withState s
  | .launch world spawned =>
    match launchSteam world spawned srv.sys.state with
    | .ok item s => srv.acted { srv.sys with state := s } item.context
    | .error _ s => srv.withState s
  | .select world steam runtime stored =>
    srv.moved { srv.sys with
      state := stateOf (selectInstallation world steam runtime stored srv.sys.state) }
  | .leave => { srv with admission := none }
  | .activate worker root committed =>
    srv.moved (Backend.next srv.sys (.activate worker root committed))
  | .uninstall _ selected =>
    srv.moved { srv.sys with state := { srv.sys.state with runtime := selected } }
  | .play worker spawned =>
    match spawnGame worker.ctx spawned srv.sys.state with
    | .ok root s =>
      { srv with
        sys := { srv.sys with state := s }
        effects := ⟨srv.origin worker.ctx.cancel, root, context s⟩ :: srv.effects }
    | .error _ s => srv.withState s
  | .other action => { srv with sys := Backend.next srv.sys action }

/-- A step of the coordinator that neither selects an installation nor goes on with a prepared job.
-/
def Quiet (s : State) : Action → Prop
  | .continuation .. => False
  | .activate .. => False
  | .elsewhere steam runtime .. => steam = s.steam ∧ runtime = s.runtime
  | _ => True

/-- The request has come to its operation; `steam::post` lets it through to one that belongs to the
kind of installation. -/
def Routed (srv : Server) (steam : Bool) : Prop :=
  ∃ a, srv.admission = some a ∧ a.stage = .routed steam

/-- Who takes which step, and when: the lock is taken once, and an installer activates a runtime,
an uninstall takes one away and a session starts the game. -/
def Possible (srv : Server) : Step → Prop
  | .compare _ => srv.admission = none
  | .opened => ∃ a, srv.admission = some a ∧ a.stage = .compared
  | .route => ∃ a, srv.admission = some a ∧ a.stage = .opened
  | .reserve world kind operation needsRuntime work =>
    (∃ steam, srv.Routed steam) ∧
      Backend.Possible srv.sys (.request world kind operation needsRuntime work)
  | .resume .. => srv.Routed false
  | .configure .. => srv.Routed false
  | .backup .. => srv.Routed false
  | .launch .. => srv.Routed true
  | .select .. => ∃ steam, srv.Routed steam
  | .leave => srv.admission.isSome
  | .activate worker _ _ => worker ∈ srv.sys.workers ∧ worker.work = .install
  | .uninstall worker _ =>
    worker ∈ srv.sys.workers ∧ worker.work = .task ∧ worker.ctx.kind = "maintenance"
  | .play worker _ =>
    worker ∈ srv.sys.workers ∧ worker.work = .task ∧ worker.ctx.kind = "cloud-auto"
  | .other action => Backend.Possible srv.sys action ∧ Quiet srv.sys.state action

structure Started (srv : Server) : Prop where
  sys : Backend.Started srv.sys
  admission : srv.admission = none
  origin : ∀ f, srv.origin f = none
  effects : srv.effects = []

/-- The runs of a server whose steps all meet a condition. -/
inductive Runs (meets : Server → Step → Prop) : Server → Prop where
  | start {srv : Server} : Started srv → Runs meets srv
  | step {srv : Server} {step : Step} : Runs meets srv → Possible srv step → meets srv step →
      Runs meets (srv.next step)

/-- Every effect of a request that named a context is on the installation of that context, which was
the selected one when the effect took place. -/
def Aimed (srv : Server) : Prop :=
  ∀ e ∈ srv.effects, ∀ c, e.expected = some c → e.target = c ∧ e.selected = c

/-- Nothing was selected since the context of the request was compared. -/
def Unmoved (srv : Server) : Prop :=
  ∀ a, srv.admission = some a → a.expected.isSome → a.moved = false

/-- No other installation is selected between the comparison and an effect of the request. -/
def Steady (srv : Server) : Step → Prop
  | .reserve .. => srv.Unmoved
  | .resume .. => srv.Unmoved
  | .configure .. => srv.Unmoved
  | .backup .. => srv.Unmoved
  | .launch .. => srv.Unmoved
  | _ => True

end Server

/-! ## What keeps the selection -/

variable {sys : System} {s s' : State} {world : World} {srv : Server}

/-- Nothing was selected or reserved. -/
structure Passive (s s' : State) : Prop where
  steam : s'.steam = s.steam
  runtime : s'.runtime = s.runtime
  active : s'.active = s.active ∨ s'.active = none
  created : s'.created = s.created

theorem context_eq (hsteam : s'.steam = s.steam) (hruntime : s'.runtime = s.runtime) :
    context s' = context s := by
  unfold context
  rw [hsteam, hruntime]

theorem Passive.refl (s : State) : Passive s s := ⟨rfl, rfl, .inl rfl, rfl⟩

theorem Passive.context (h : Passive s s') : context s' = context s :=
  context_eq h.steam h.runtime

@[simp] theorem poll_steam : (poll world s).steam = s.steam := by
  unfold poll
  split
  · split <;> rfl
  · rfl

theorem Passive.poll : Passive s (poll world s) :=
  ⟨poll_steam, poll_runtime, .inl poll_active, poll_created⟩

theorem Untouched.passive (h : Untouched world s s') : Passive s s' := by
  rcases h with rfl | rfl
  · exact .refl _
  · exact .poll

theorem Passive.edit {kind : String} {edit : Job → Job} : Passive s (editJob kind edit s) :=
  ⟨rfl, rfl, .inl rfl, rfl⟩

theorem Passive.finish (ctx : Context) (outcome : Outcome) (retain : Bool) :
    Passive s (finish world ctx outcome retain s) := by
  unfold Backend.finish
  dsimp only
  split
  · split
    · exact ⟨rfl, rfl, .inr rfl, rfl⟩
    · exact .edit
  · exact .refl s

theorem Passive.cancelActive (a : Active) (kind : String) : Passive s (cancelActive a kind s) := by
  unfold Backend.cancelActive
  dsimp only
  split
  · exact ⟨rfl, rfl, .inr rfl, rfl⟩
  · exact ⟨rfl, rfl, .inl rfl, rfl⟩

theorem Passive.close (beforeStart : Bool) : Passive s (close beforeStart s) := by
  cases ha : s.active with
  | none =>
    rw [close_none ha]
    exact ⟨rfl, rfl, .inl rfl, rfl⟩
  | some a =>
    cases hready : hasJob s a.kind isReady with
    | true =>
      rw [close_ready ha hready]
      exact ⟨rfl, rfl, .inr rfl, rfl⟩
    | false =>
      rcases close_working beforeStart ha hready with h | h <;> rw [h] <;>
        exact ⟨rfl, rfl, .inl rfl, rfl⟩

/-- A step that makes no reservation and takes no worker on. -/
def Reserves : Action → Prop
  | .request .. => True
  | .continuation .. => True
  | _ => False

theorem Passive.next {action : Action} (hquiet : Server.Quiet sys.state action)
    (hnew : ¬ Reserves action) : Passive sys.state (next sys action).state := by
  cases action with
  | request world kind operation needsRuntime work => exact absurd trivial hnew
  | update worker patch =>
    change Passive sys.state (update worker.ctx patch sys.state)
    unfold update
    split
    · exact .edit
    · exact .refl _
  | finish world worker outcome => exact .finish ..
  | publish worker result =>
    have hends := publish_triple worker.ctx result sys.state rfl
    unfold Backend.next
    dsimp only
    cases hrun : publish worker.ctx result sys.state with
    | ok u t =>
      rw [hrun] at hends
      obtain ⟨_, _, rfl⟩ := hends
      exact .edit
    | error e t =>
      rw [hrun] at hends
      cases hends
      exact .refl _
  | beginCommit worker phase message =>
    have hends := beginCommit_triple worker.ctx phase message sys.state rfl
    unfold Backend.next
    dsimp only
    cases hrun : beginCommit worker.ctx phase message sys.state with
    | ok u t =>
      rw [hrun] at hends
      obtain ⟨_, _, rfl⟩ := hends
      exact .edit
    | error e t =>
      rw [hrun] at hends
      cases hends
      exact .refl _
  | activate worker root committed => exact absurd hquiet id
  | continuation world kind id => exact absurd trivial hnew
  | cancel kind id =>
    have hends := cancel_triple kind id sys.state rfl
    unfold Backend.next
    dsimp only
    cases hrun : cancel kind id sys.state with
    | ok u t =>
      rw [hrun] at hends
      rcases hends with ⟨_, _, rfl⟩ | ⟨a, _, _, _, rfl⟩
      · exact ⟨rfl, rfl, .inl rfl, rfl⟩
      · exact .cancelActive a kind
    | error e t =>
      rw [hrun] at hends
      cases hends
      exact .refl _
  | interrupt =>
    change Passive sys.state (interrupt sys.state)
    unfold interrupt
    split
    · exact .refl _
    · exact ⟨rfl, rfl, .inl rfl, rfl⟩
  | refresh world =>
    have hends : Triple (fun t => t = sys.state) (refresh world)
        (fun _ t => Passive sys.state t) (fun _ t => Passive sys.state t) := by
      apply Triple.bind ((idle_triple (s := sys.state)).mono (fun _ h => h) (fun _ _ h => h)
        fun _ _ h => Untouched.passive h)
      intro _
      apply Triple.update
      rintro t ⟨rfl, _⟩
      exact ⟨poll_steam, poll_runtime, .inl poll_active, poll_created⟩
    exact (hends sys.state rfl).stateOf
  | close beforeStart => exact .close beforeStart
  | poll world => exact .poll
  | edit kind rows => exact .edit
  | forget kind => exact ⟨rfl, rfl, .inl rfl, rfl⟩
  | plan kind value => exact ⟨rfl, rfl, .inl rfl, rfl⟩
  | elsewhere steam runtime process stopping exitCode => exact ⟨hquiet.1, hquiet.2, .inl rfl, rfl⟩

/-! ## The operations keep the selection -/

/-- What the world answers changes nothing. -/
theorem lift_polled {α : Type} {x : Except Error α} :
    Triple (fun t => t = poll world s) (liftM x : Run α) (fun _ t => t = poll world s)
      (fun _ => Untouched world s) := by
  apply Triple.lift
  · rintro _ t rfl _
    rfl
  · rintro _ t rfl _
    exact .inr rfl

/-- The runtime of an operation without a job is the selected one. -/
theorem configured_triple {α : Type} {f : String → Run α} {Q : α → State → Prop}
    (hf : ∀ root, s.runtime = some root →
      Triple (fun t => t = poll world s) (f root) Q (fun _ => Untouched world s)) :
    Triple (fun t => t = poll world s) (liftM (configured (poll world s)) >>= f) Q
      (fun _ => Untouched world s) := by
  cases hroot : s.runtime with
  | none =>
    rintro t rfl
    rw [configured, poll_runtime, hroot]
    exact .inr rfl
  | some root =>
    apply Triple.lift_bind (a := root)
    · rw [configured, poll_runtime, hroot]
    · exact hf root hroot

variable (world) in
theorem configureSetting_triple (written : Except Error Unit) (selected value file key : String)
    (choices : List String) :
    Triple (fun t => t = s) (configureSetting world written selected value file key choices)
      (fun setting t => Untouched world s t ∧ s.runtime = some setting.root)
      (fun _ => Untouched world s) := by
  unfold configureSetting
  apply require_triple
  · intro _
    apply Triple.bind idle_triple
    intro _
    apply Triple.get_bind
    rintro t ⟨rfl, _⟩
    apply configured_triple
    intro root hroot
    apply require_triple
    · intro _
      apply Triple.bind lift_polled
      intro _
      apply Triple.bind lift_polled
      rintro _ t rfl
      exact ⟨.inr rfl, hroot⟩
    · exact .inr rfl
  · exact .inl rfl

variable (world) in
theorem saveBackup_triple (canBackup : Bool) (copied : Except Error Unit) :
    Triple (fun t => t = s) (saveBackup world canBackup copied)
      (fun root t => Untouched world s t ∧ s.runtime = some root) (fun _ => Untouched world s) := by
  unfold saveBackup
  apply Triple.bind idle_triple
  intro _
  apply Triple.get_bind
  rintro t ⟨rfl, _⟩
  apply configured_triple
  intro root hroot
  apply require_triple
  · intro _
    apply Triple.bind lift_polled
    intro _
    apply Triple.bind lift_polled
    rintro _ t rfl
    exact ⟨.inr rfl, hroot⟩
  · exact .inr rfl

variable (world) in
theorem launchSteam_triple (spawned : Except Error Unit) :
    Triple (fun t => t = s) (launchSteam world spawned)
      (fun item t => s.steam = some item ∧ t = { poll world s with exitCode := none })
      (fun _ => Untouched world s) := by
  unfold launchSteam
  apply Triple.bind idle_triple
  intro _
  apply Triple.get_bind
  rintro t ⟨rfl, _⟩
  cases hitem : (poll world s).steam with
  | none =>
    rintro t rfl
    exact .inr rfl
  | some item =>
    apply Triple.bind lift_polled
    rintro _ t rfl
    rw [poll_steam] at hitem
    exact ⟨hitem, rfl⟩

variable (world) in
/-- Another installation is selected while nothing is reserved. -/
theorem selectInstallation_triple (steam : Option Installation) (runtime : Option String)
    (stored : Except Error Unit) :
    Triple (fun t => t = s) (selectInstallation world steam runtime stored)
      (fun _ t => s.active = none ∧ t = { poll world s with steam, runtime, exitCode := none })
      (fun _ => Untouched world s) := by
  unfold selectInstallation
  apply Triple.bind idle_triple
  intro _
  cases stored with
  | error e =>
    rintro t ⟨rfl, _⟩
    exact .inr rfl
  | ok _ =>
    rintro t ⟨rfl, hactive⟩
    exact ⟨hactive, rfl⟩

theorem spawnGame_triple (ctx : Context) (spawned : Except Error Unit) :
    Triple (fun t => t = s) (spawnGame ctx spawned)
      (fun root t => ctx.runtime = some root ∧
        t = { s with process := true, stopping := false, exitCode := none })
      (fun _ t => t = s) := by
  unfold spawnGame
  cases hroot : ctx.runtime with
  | none =>
    rintro t rfl
    rfl
  | some root =>
    apply Triple.get_bind
    rintro t rfl
    apply require_triple
    · intro _
      cases spawned with
      | error e =>
        rintro u rfl
        rfl
      | ok _ =>
        rintro u rfl
        exact ⟨rfl, rfl⟩
    · rfl

/-! ## The invariant -/

/-- The workers that select another installation. -/
def Worker.Selects (w : Worker) : Prop :=
  w.work = .install ∨ w.work = .task ∧ w.ctx.kind = "maintenance"

/-- A session is for the installation that was reserved, which stays selected. -/
structure Session (s : State) (origin : Flag → Option String) (ctx : Context) : Prop where
  runtime : ∀ root, ctx.runtime = some root → context s = root
  origin : ∀ c, origin ctx.cancel = some c → context s = c

/-- The reservation is for the selected installation, unless its own worker selects another. -/
structure Tied (sys : System) (origin : Flag → Option String) : Prop where
  exclusive : Exclusive sys
  held : ∀ a, sys.state.active = some a → sys.state.steam = none →
    (∀ w ∈ sys.workers, ¬ w.Selects) → a.runtime = sys.state.runtime
  session : ∀ w ∈ sys.workers, w.work = .task → w.ctx.kind = "cloud-auto" →
    Session sys.state origin w.ctx
  /-- a flag that was not created is no request's -/
  unborn : ∀ f, sys.state.created ≤ f → origin f = none

/-- The selection is the one that the request saw. -/
structure Seen (s : State) (a : Admission) : Prop where
  expected : ∀ c, a.expected = some c → context s = c
  routed : ∀ steam, a.stage = .routed steam → s.steam.isSome = steam

structure Sound (srv : Server) : Prop where
  tied : Tied srv.sys srv.origin
  seen : ∀ a, srv.admission = some a → a.moved = false → Seen srv.sys.state a
  aimed : srv.Aimed

variable {origin : Flag → Option String}

theorem Exclusive.same (h : Exclusive sys) (hactive : s.active = sys.state.active)
    (hjobs : s.jobs = sys.state.jobs) (hflags : s.flags = sys.state.flags) :
    Exclusive { sys with state := s } := by
  apply h.tame hactive
  · rw [hjobs]
    exact .refl _
  · rw [hflags]
    exact fun _ hf => hf

/-- Nothing was selected or reserved, and a worker that selects left with its reservation. -/
theorem Tied.passive (h : Tied sys origin) {sys' : System} (hex : Exclusive sys')
    (hp : Passive sys.state sys'.state) (hworkers : ∀ w ∈ sys'.workers, w ∈ sys.workers)
    (hleft : ∀ w ∈ sys.workers, w.Selects → w ∈ sys'.workers ∨ sys'.state.active = none) :
    Tied sys' origin := by
  constructor
  · exact hex
  · intro a ha hsteam hnone
    rcases hp.active with hsame | hgone
    · rw [hp.runtime]
      apply h.held a
      · rw [← hsame]
        exact ha
      · rw [← hp.steam]
        exact hsteam
      · intro w hw hselects
        rcases hleft w hw hselects with hstays | hgone
        · exact hnone w hstays hselects
        · rw [ha] at hgone
          cases hgone
    · rw [ha] at hgone
      cases hgone
  · intro w hw hwork hkind
    have hsession := h.session w (hworkers w hw) hwork hkind
    constructor
    · rw [hp.context]
      exact hsession.runtime
    · rw [hp.context]
      exact hsession.origin
  · rw [hp.created]
    exact h.unborn

theorem Tied.state (h : Tied sys origin) (hex : Exclusive { sys with state := s })
    (hp : Passive sys.state s) : Tied { sys with state := s } origin :=
  h.passive hex hp (fun _ hw => hw) fun _ hw _ => .inl hw

theorem Tied.untouched (h : Tied sys origin) (hs : Untouched world sys.state s) :
    Tied { sys with state := s } origin :=
  h.state (h.exclusive.untouched hs) hs.passive

/-- Nothing is reserved, so nobody is at work. -/
theorem Tied.idle (hex : Exclusive sys) (hactive : sys.state.active = none)
    (hunborn : ∀ f, sys.state.created ≤ f → origin f = none) : Tied sys origin := by
  have hno : sys.workers = [] := by
    apply hex.no_workers
    rw [hactive]
    nofun
  constructor
  · exact hex
  · rw [hactive]
    nofun
  · rw [hno]
    nofun
  · exact hunborn

/-- The only worker selects another installation. -/
theorem Tied.selecting (h : Tied sys origin) {sys' : System} (hex : Exclusive sys') {w : Worker}
    (hw : w ∈ sys'.workers) (hselects : w.Selects)
    (hcreated : sys.state.created ≤ sys'.state.created) : Tied sys' origin := by
  constructor
  · exact hex
  · intro a _ _ hnone
    exact absurd hselects (hnone w hw)
  · intro v hv hwork hkind
    rw [hex.worker_eq hv hw] at hwork hkind
    rcases hselects with hinstall | ⟨_, hmaintenance⟩
    · rw [hwork] at hinstall
      cases hinstall
    · rw [hkind] at hmaintenance
      exact absurd hmaintenance (by decide)
  · intro f hf
    exact h.unborn f (hcreated.trans hf)

theorem context_of_selectedRoot {root : String} (h : selectedRoot s = some root) :
    context s = root := by
  unfold selectedRoot at h
  unfold context
  cases hsteam : s.steam with
  | none =>
    rw [hsteam] at h
    change s.runtime = some root at h
    rw [h]
    rfl
  | some item =>
    rw [hsteam] at h
    cases h

/-- A new reservation is for the selected installation. -/
theorem Tied.reserved {kind operation : String} {lease : Option String} {workers : List Worker}
    {w : Worker} {uuids : List String} {history : List Event}
    (hex : Exclusive ⟨Backend.reserved world kind operation (selectedRoot s) lease s, workers, uuids,
      history⟩)
    (hw : w ∈ workers) (hctx : w.ctx = ⟨world.uuid, kind, selectedRoot s, s.created⟩)
    (horigin : ∀ c, origin s.created = some c → context s = c)
    (hunborn : ∀ f, s.created < f → origin f = none) :
    Tied ⟨Backend.reserved world kind operation (selectedRoot s) lease s, workers, uuids, history⟩
      origin := by
  constructor
  · exact hex
  · intro a ha hsteam _
    cases ha
    change s.steam = none at hsteam
    change selectedRoot s = s.runtime
    rw [selectedRoot, hsteam]
    rfl
  · intro v hv _ _
    rw [hex.worker_eq hv hw, hctx]
    constructor
    · exact fun root hroot => context_of_selectedRoot hroot
    · exact horigin
  · exact fun f hf => hunborn f hf

/-! ## The coordinator's steps -/

variable (sys) in
/-- Only the end of a worker takes it away. -/
theorem next_workers {action : Action} (hnew : ¬ Reserves action) :
    (next sys action).workers = sys.workers ∨
      ∃ w, (next sys action).workers = sys.workers.erase w ∧
        ((∃ world outcome, action = .finish world w outcome) ∨
          ∃ result, action = .publish w result) := by
  unfold Backend.next
  cases action with
  | request world kind operation needsRuntime work => exact absurd trivial hnew
  | continuation world kind id => exact absurd trivial hnew
  | finish world worker outcome => exact .inr ⟨worker, rfl, .inl ⟨world, outcome, rfl⟩⟩
  | publish worker result =>
    dsimp only
    cases publish worker.ctx result sys.state with
    | ok u t => exact .inr ⟨worker, rfl, .inr ⟨result, rfl⟩⟩
    | error e t => exact .inl rfl
  | beginCommit worker phase message =>
    left
    dsimp only
    cases beginCommit worker.ctx phase message sys.state <;> rfl
  | activate worker root committed =>
    left
    dsimp only
    cases activate worker.ctx root committed sys.state <;> rfl
  | cancel kind id =>
    left
    dsimp only
    cases cancel kind id sys.state <;> rfl
  | update worker patch => exact .inl rfl
  | interrupt => exact .inl rfl
  | refresh world => exact .inl rfl
  | close beforeStart => exact .inl rfl
  | poll world => exact .inl rfl
  | edit kind rows => exact .inl rfl
  | forget kind => exact .inl rfl
  | plan kind value => exact .inl rfl
  | elsewhere steam runtime process stopping exitCode => exact .inl rfl

theorem finish_released {ctx : Context} (outcome : Outcome) (h : current s ctx.id = true) :
    (finish world ctx outcome false s).active = none := by
  unfold finish
  rw [if_pos h]
  rfl

theorem Exclusive.current (h : Exclusive sys) {w : Worker} (hw : w ∈ sys.workers) :
    current sys.state w.ctx.id = true := by
  obtain ⟨a, ha, hid, _⟩ := h.owned w hw
  rw [Backend.current, ha, ← hid]
  exact beq_self_eq_true a.id

theorem Worker.Selects.not_retains {w : Worker} (h : w.Selects) : w.work.retains = false := by
  rcases h with hwork | ⟨hwork, _⟩ <;> rw [hwork] <;> rfl

/-- Whatever selects nothing and reserves nothing. -/
theorem Tied.quiet (h : Tied sys origin) {action : Action} (hp : Possible sys action)
    (hquiet : Server.Quiet sys.state action) (hnew : ¬ Reserves action) :
    Tied (next sys action) origin := by
  have hex : Exclusive (next sys action) := h.exclusive.next hp
  have hpassive : Passive sys.state (next sys action).state := .next hquiet hnew
  rcases next_workers sys hnew with hsame | ⟨w, herase, hends⟩
  · apply h.passive hex hpassive
    · rw [hsame]
      exact fun _ hw => hw
    · rw [hsame]
      exact fun _ hw _ => .inl hw
  · apply h.passive hex hpassive
    · rw [herase]
      exact fun _ hv => List.mem_of_mem_erase hv
    · intro v hv hselects
      right
      rcases hends with ⟨world, outcome, rfl⟩ | ⟨result, rfl⟩
      · have hw : w ∈ sys.workers := hp.1
        rw [h.exclusive.worker_eq hv hw] at hselects
        change (Backend.finish world w.ctx outcome w.work.retains sys.state).active = none
        rw [hselects.not_retains]
        exact finish_released outcome (h.exclusive.current hw)
      · have hpreview : w.work = .preview := hp.2.1
        rw [h.exclusive.worker_eq hv hp.1] at hselects
        rcases hselects with hwork | ⟨hwork, _⟩ <;> rw [hpreview] at hwork <;> cases hwork

/-- What a request that reserves does to the coordinator. -/
theorem Tied.request (h : Tied sys origin) {kind operation : String} {needsRuntime : Bool}
    {work : Work} (hp : Possible sys (.request world kind operation needsRuntime work)) {ctx : Context}
    {t : State} (hrun : reserveLocked world kind operation needsRuntime sys.state = .ok ctx t)
    {origin' : Flag → Option String}
    (horigin : ∀ c, origin' sys.state.created = some c → context sys.state = c)
    (hunborn : ∀ f, sys.state.created < f → origin' f = none) :
    Tied (next sys (.request world kind operation needsRuntime work)) origin' := by
  have hex := h.exclusive.next hp
  have hends := reserveLocked_root world kind operation needsRuntime sys.state rfl
  rw [hrun] at hends
  obtain ⟨_, lease, rfl, rfl⟩ := hends
  have hnext : next sys (.request world kind operation needsRuntime work) =
      ⟨Backend.reserved world kind operation (selectedRoot (poll world sys.state)) lease
        (poll world sys.state),
        ⟨⟨world.uuid, kind, selectedRoot (poll world sys.state), (poll world sys.state).created⟩,
          work⟩ :: sys.workers, world.uuid :: sys.uuids, sys.history⟩ := by
    unfold Backend.next
    dsimp only
    rw [hrun]
  rw [hnext] at hex ⊢
  apply Tied.reserved hex List.mem_cons_self rfl
  · intro c hc
    rw [poll_created] at hc
    rw [Passive.poll.context]
    exact horigin c hc
  · intro f hf
    rw [poll_created] at hf
    exact hunborn f hf

/-- A request that is refused a reservation. -/
theorem Tied.refused (h : Tied sys origin) {kind operation : String} {needsRuntime : Bool}
    (work : Work) {e : Error} {t : State}
    (hrun : reserveLocked world kind operation needsRuntime sys.state = .error e t) :
    Tied (next sys (.request world kind operation needsRuntime work)) origin ∧
      Passive sys.state (next sys (.request world kind operation needsRuntime work)).state := by
  have hends := reserveLocked_triple world kind operation needsRuntime sys.state rfl
  rw [hrun] at hends
  have hnext : next sys (.request world kind operation needsRuntime work) =
      { sys with state := t } := by
    unfold Backend.next
    dsimp only
    rw [hrun]
  rw [hnext]
  exact ⟨h.untouched hends, Untouched.passive hends⟩

/-- A continuation goes on with the reservation of the selected runtime. -/
theorem Tied.resume (h : Tied sys origin) {kind id : String} {ctx : Context} {t : State}
    (hrun : continuation world kind id sys.state = .ok ctx t) :
    sys.state.steam = none → ctx.runtime = sys.state.runtime := by
  have hends := continuation_root world kind id sys.state rfl
  rw [hrun] at hends
  obtain ⟨hready, now, a, hgo, _, rfl, hnow⟩ := hends
  intro hsteam
  rcases hnow with rfl | ⟨_, _, root, hroot, rfl⟩
  · obtain ⟨ha, hmatch⟩ := Option.filter_eq_some_iff.mp hgo
    rw [Bool.and_eq_true, Bool.and_eq_true, beq_iff_eq] at hmatch
    have hno : sys.workers = [] := by
      apply h.exclusive.no_workers
      intro b hb
      rw [ha] at hb
      cases hb
      obtain ⟨job, hjob, htest⟩ := hasJob_iff.mp hready
      rw [Bool.and_eq_true] at htest
      rw [hmatch.1.1]
      exact hasJob_iff.mpr ⟨job, hjob, htest.2⟩
    apply h.held a ha hsteam
    rw [hno]
    nofun
  · obtain ⟨ha, _⟩ := Option.filter_eq_some_iff.mp hgo
    cases ha
    exact hroot.symm

theorem Tied.resumed (h : Tied sys origin) {kind id : String} {ctx : Context} {t : State}
    (hp : Possible sys (.continuation world kind id))
    (hrun : continuation world kind id sys.state = .ok ctx t) :
    Tied (next sys (.continuation world kind id)) origin ∧
      (next sys (.continuation world kind id)).state.steam = sys.state.steam ∧
      (next sys (.continuation world kind id)).state.runtime = sys.state.runtime := by
  have hex := h.exclusive.next hp
  have hends := continuation_triple world kind id sys.state rfl
  rw [hrun] at hends
  obtain ⟨_, now, a, _, rfl, rfl, hnow⟩ := hends
  have hnext : next sys (.continuation world kind id) =
      ⟨installing kind now, ⟨⟨id, kind, a.runtime, a.cancel⟩, .install⟩ :: sys.workers, sys.uuids,
        .continued id :: sys.history⟩ := by
    unfold Backend.next
    dsimp only
    rw [hrun]
  rw [hnext] at hex ⊢
  constructor
  · apply h.selecting hex List.mem_cons_self (.inl rfl)
    show sys.state.created ≤ now.created
    rcases hnow with rfl | ⟨_, _, root, rfl⟩
    · exact le_rfl
    · show sys.state.created ≤ (poll world sys.state).created + 1
      rw [poll_created]
      exact Nat.le_succ _
  · rcases hnow with rfl | ⟨_, _, root, rfl⟩
    · exact ⟨rfl, rfl⟩
    · exact ⟨poll_steam, poll_runtime⟩

/-! ## The server's steps -/

theorem Seen.same {a : Admission} (h : Seen s a) (hsteam : s'.steam = s.steam)
    (hruntime : s'.runtime = s.runtime) : Seen s' a := by
  constructor
  · rw [context_eq hsteam hruntime]
    exact h.expected
  · rw [hsteam]
    exact h.routed

theorem Sound.kept (h : Sound srv) {sys' : System} (htied : Tied sys' srv.origin)
    (hsteam : sys'.state.steam = srv.sys.state.steam)
    (hruntime : sys'.state.runtime = srv.sys.state.runtime) : Sound { srv with sys := sys' } := by
  constructor
  · exact htied
  · exact fun a ha hmoved => (h.seen a ha hmoved).same hsteam hruntime
  · exact h.aimed

theorem Sound.passive (h : Sound srv) {sys' : System} (htied : Tied sys' srv.origin)
    (hp : Passive srv.sys.state sys'.state) : Sound { srv with sys := sys' } :=
  h.kept htied hp.steam hp.runtime

/-- The request that named a context has seen the selection as it is. -/
theorem Sound.unmoved (h : Sound srv) (hsteady : srv.Unmoved) {c : String}
    (hc : srv.expected = some c) :
    context srv.sys.state = c ∧
      ∀ steam, srv.Routed steam → srv.sys.state.steam.isSome = steam := by
  obtain ⟨a, ha, hexpected⟩ := Option.bind_eq_some_iff.mp hc
  have hmoved : a.moved = false := by
    apply hsteady a ha
    rw [hexpected]
    rfl
  have hseen : Seen srv.sys.state a := h.seen a ha hmoved
  constructor
  · exact hseen.expected c hexpected
  · rintro steam ⟨b, hb, hstage⟩
    rw [ha] at hb
    cases hb
    exact hseen.routed steam hstage

theorem Sound.acted (h : Sound srv) (hsteady : srv.Unmoved) {sys' : System} {target : String}
    (htied : Tied sys' origin) (hsteam : sys'.state.steam = srv.sys.state.steam)
    (hruntime : sys'.state.runtime = srv.sys.state.runtime)
    (htarget : ∀ c, srv.expected = some c → target = c) :
    Sound { srv.acted sys' target with origin } := by
  constructor
  · exact htied
  · exact fun a ha hmoved => (h.seen a ha hmoved).same hsteam hruntime
  · intro e he c hc
    rcases List.mem_cons.mp he with rfl | hold
    · refine ⟨htarget c hc, ?_⟩
      show context sys'.state = c
      rw [context_eq hsteam hruntime]
      exact (h.unmoved hsteady hc).1
    · exact h.aimed e hold c hc

/-- The runtime is what a request acts on that was let through as one for a runtime. -/
theorem Sound.runtime_target (h : Sound srv) (hsteady : srv.Unmoved) (hrouted : srv.Routed false)
    (runtime : Option String)
    (hruntime : srv.sys.state.steam = none → runtime = srv.sys.state.runtime) {c : String}
    (hc : srv.expected = some c) : runtime.getD "" = c := by
  obtain ⟨hcontext, hsteam⟩ := h.unmoved hsteady hc
  have hnone : srv.sys.state.steam = none := by
    have hfalse := hsteam false hrouted
    rw [Option.isSome_eq_false_iff, Option.isNone_iff_eq_none] at hfalse
    exact hfalse
  rw [hruntime hnone, ← hcontext, context, hnone]

theorem Sound.moved (h : Sound srv) {sys' : System} (htied : Tied sys' srv.origin) :
    Sound (srv.moved sys') := by
  constructor
  · exact htied
  · intro a ha hmoved
    obtain ⟨b, hb, rfl⟩ := Option.map_eq_some_iff.mp ha
    rw [Bool.or_eq_false_iff, bne_eq_false_iff_eq] at hmoved
    obtain ⟨hstill, hsame⟩ := hmoved
    have hseen : Seen srv.sys.state b := h.seen b hb hstill
    have hcontext := congrArg Prod.fst hsame
    have hsteam := congrArg Prod.snd hsame
    constructor
    · intro c hc
      exact hcontext.trans (hseen.expected c hc)
    · intro steam hstage
      exact hsteam.trans (hseen.routed steam hstage)
  · exact h.aimed

theorem Seen.staged {a : Admission} (h : Seen s a) {stage : Stage}
    (hstage : ∀ steam, stage = .routed steam → s.steam.isSome = steam) :
    Seen s { a with stage } := ⟨h.expected, hstage⟩

theorem Sound.compare (h : Sound srv) (expected : Option String) :
    Sound (srv.next (.compare expected)) := by
  unfold Server.next
  dsimp only
  cases hcompare : expects expected srv.sys.state with
  | error e => exact h
  | ok _ =>
    refine ⟨h.tied, ?_, h.aimed⟩
    intro a ha _
    cases ha
    refine ⟨?_, nofun⟩
    rintro c rfl
    exact eq_of_beq (require_eq_ok.mp hcompare)

theorem Sound.opened (h : Sound srv) : Sound (srv.next .opened) := by
  unfold Server.next
  dsimp only
  cases isOpen srv.sys.state with
  | error e => exact ⟨h.tied, nofun, h.aimed⟩
  | ok _ =>
    refine ⟨h.tied, ?_, h.aimed⟩
    intro a ha hmoved
    obtain ⟨b, hb, rfl⟩ := Option.map_eq_some_iff.mp ha
    exact (h.seen b hb hmoved).staged nofun

theorem Sound.route (h : Sound srv) : Sound (srv.next .route) := by
  refine ⟨h.tied, ?_, h.aimed⟩
  intro a ha hmoved
  obtain ⟨b, hb, rfl⟩ := Option.map_eq_some_iff.mp ha
  apply (h.seen b hb hmoved).staged
  rintro steam hsteam
  cases hsteam
  rfl

theorem pathText_jobContext (s : State) : Server.pathText (jobContext s) = context s := by
  unfold jobContext context
  cases s.steam with
  | some item => rfl
  | none => cases s.runtime <;> rfl

/-- The job of a reservation names the selected installation. -/
theorem jobTarget_reserved (kind operation : String) (root lease : Option String) :
    Server.jobTarget (Backend.reserved world kind operation root lease s) kind = context s := by
  unfold Server.jobTarget Backend.reserved
  dsimp only
  rw [Function.update_self, ← pathText_jobContext]
  simp [newJob, Job.extend, Job.set, Function.update]

theorem Sound.reserve (h : Sound srv) (hsteady : srv.Unmoved) {kind operation : String}
    {needsRuntime : Bool} {work : Work}
    (hp : Possible srv.sys (.request world kind operation needsRuntime work)) :
    Sound (srv.next (.reserve world kind operation needsRuntime work)) := by
  unfold Server.next
  dsimp only
  cases hrun : reserveLocked world kind operation needsRuntime srv.sys.state with
  | error e t =>
    obtain ⟨htied, hpassive⟩ := h.tied.refused work hrun
    exact h.passive htied hpassive
  | ok ctx t =>
    have hends := reserveLocked_root world kind operation needsRuntime srv.sys.state rfl
    rw [hrun] at hends
    obtain ⟨_, lease, ht, rfl⟩ := hends
    have hstate : (next srv.sys (.request world kind operation needsRuntime work)).state = t := by
      unfold Backend.next
      dsimp only
      rw [hrun]
    apply h.acted hsteady
    · apply h.tied.request hp hrun
      · intro c hc
        rw [poll_created, Function.update_self] at hc
        exact (h.unmoved hsteady hc).1
      · intro f hf
        rw [poll_created, Function.update_of_ne (Nat.ne_of_gt hf)]
        exact h.tied.unborn f hf.le
    · rw [hstate, ht]
      exact poll_steam
    · rw [hstate, ht]
      exact poll_runtime
    · intro c hc
      rw [hstate, ht, jobTarget_reserved, Passive.poll.context]
      exact (h.unmoved hsteady hc).1

theorem Sound.resume (h : Sound srv) (hsteady : srv.Unmoved) (hrouted : srv.Routed false)
    (kind id : String) : Sound (srv.next (.resume world kind id)) := by
  unfold Server.next
  dsimp only
  cases hrun : continuation world kind id srv.sys.state with
  | error e t =>
    have hends := continuation_triple world kind id srv.sys.state rfl
    rw [hrun] at hends
    have hnext : next srv.sys (.continuation world kind id) = { srv.sys with state := t } := by
      unfold Backend.next
      dsimp only
      rw [hrun]
    rw [hnext]
    exact h.passive (h.tied.untouched hends) (Untouched.passive hends)
  | ok ctx t =>
    obtain ⟨htied, hsteam, hruntime⟩ := h.tied.resumed trivial hrun
    apply h.acted hsteady htied hsteam hruntime
    intro c hc
    exact h.runtime_target hsteady hrouted ctx.runtime (h.tied.resume hrun) hc

theorem Sound.configure (h : Sound srv) (hsteady : srv.Unmoved) (hrouted : srv.Routed false)
    (written : Except Error Unit) (selected value file key : String) (choices : List String) :
    Sound (srv.next (.configure world written selected value file key choices)) := by
  have hends :=
    configureSetting_triple world written selected value file key choices srv.sys.state rfl
  unfold Server.next
  dsimp only
  cases hrun : configureSetting world written selected value file key choices srv.sys.state with
  | error e t =>
    rw [hrun] at hends
    exact h.passive (h.tied.untouched hends) (Untouched.passive hends)
  | ok setting t =>
    rw [hrun] at hends
    obtain ⟨huntouched, hroot⟩ := hends
    apply h.acted hsteady (h.tied.untouched huntouched) huntouched.passive.steam
      huntouched.passive.runtime
    intro c hc
    exact h.runtime_target hsteady hrouted (some setting.root) (fun _ => hroot.symm) hc

theorem Sound.backup (h : Sound srv) (hsteady : srv.Unmoved) (hrouted : srv.Routed false)
    (canBackup : Bool) (copied : Except Error Unit) :
    Sound (srv.next (.backup world canBackup copied)) := by
  have hends := saveBackup_triple world canBackup copied srv.sys.state rfl
  unfold Server.next
  dsimp only
  cases hrun : saveBackup world canBackup copied srv.sys.state with
  | error e t =>
    rw [hrun] at hends
    exact h.passive (h.tied.untouched hends) (Untouched.passive hends)
  | ok root t =>
    rw [hrun] at hends
    obtain ⟨huntouched, hroot⟩ := hends
    apply h.acted hsteady (h.tied.untouched huntouched) huntouched.passive.steam
      huntouched.passive.runtime
    intro c hc
    exact h.runtime_target hsteady hrouted (some root) (fun _ => hroot.symm) hc

theorem Sound.launch (h : Sound srv) (hsteady : srv.Unmoved) (spawned : Except Error Unit) :
    Sound (srv.next (.launch world spawned)) := by
  have hends := launchSteam_triple world spawned srv.sys.state rfl
  unfold Server.next
  dsimp only
  cases hrun : launchSteam world spawned srv.sys.state with
  | error e t =>
    rw [hrun] at hends
    exact h.passive (h.tied.untouched hends) (Untouched.passive hends)
  | ok item t =>
    rw [hrun] at hends
    obtain ⟨hitem, rfl⟩ := hends
    apply h.acted hsteady
    · apply h.tied.state
      · exact h.tied.exclusive.same poll_active poll_jobs poll_flags
      · exact ⟨poll_steam, poll_runtime, .inl poll_active, poll_created⟩
    · exact poll_steam
    · exact poll_runtime
    · intro c hc
      have hcontext := (h.unmoved hsteady hc).1
      rw [context, hitem] at hcontext
      exact hcontext

theorem Sound.select (h : Sound srv) (steam : Option Installation) (runtime : Option String)
    (stored : Except Error Unit) : Sound (srv.next (.select world steam runtime stored)) := by
  have hends := selectInstallation_triple world steam runtime stored srv.sys.state rfl
  apply h.moved
  cases hrun : selectInstallation world steam runtime stored srv.sys.state with
  | error e t =>
    rw [hrun] at hends
    exact h.tied.untouched hends
  | ok _ t =>
    rw [hrun] at hends
    obtain ⟨hactive, rfl⟩ := hends
    apply Tied.idle
    · exact h.tied.exclusive.same poll_active poll_jobs poll_flags
    · exact poll_active.trans hactive
    · intro f hf
      have hcreated : (poll world srv.sys.state).created = srv.sys.state.created := poll_created
      exact h.tied.unborn f (hcreated ▸ hf)

theorem Sound.activate (h : Sound srv) {worker : Worker} (hw : worker ∈ srv.sys.workers)
    (hinstall : worker.work = .install) (root : Except Error String)
    (committed : Except Error Unit) : Sound (srv.next (.activate worker root committed)) := by
  apply h.moved
  have hex : Exclusive (next srv.sys (.activate worker root committed)) :=
    h.tied.exclusive.next (show Backend.Possible srv.sys (.activate worker root committed) from hw)
  apply h.tied.selecting hex (w := worker)
  · have hsame : (next srv.sys (.activate worker root committed)).workers = srv.sys.workers := by
      unfold Backend.next
      dsimp only
      cases Backend.activate worker.ctx root committed srv.sys.state <;> rfl
    rw [hsame]
    exact hw
  · exact .inl hinstall
  · exact (Aged.next srv.sys (.activate worker root committed)).created

theorem Sound.uninstall (h : Sound srv) {worker : Worker} (hw : worker ∈ srv.sys.workers)
    (hselects : worker.Selects) (selected : Option String) :
    Sound (srv.next (.uninstall worker selected)) := by
  apply h.moved
  have hex : Exclusive { srv.sys with state := { srv.sys.state with runtime := selected } } :=
    h.tied.exclusive.same rfl rfl rfl
  exact h.tied.selecting hex hw hselects le_rfl

/-- The game is started for the installation that its session was reserved for. -/
theorem Sound.play (h : Sound srv) {worker : Worker} (hw : worker ∈ srv.sys.workers)
    (hwork : worker.work = .task) (hkind : worker.ctx.kind = "cloud-auto")
    (spawned : Except Error Unit) : Sound (srv.next (.play worker spawned)) := by
  have hends := spawnGame_triple (s := srv.sys.state) worker.ctx spawned srv.sys.state rfl
  have hsession := h.tied.session worker hw hwork hkind
  unfold Server.next
  dsimp only
  cases hrun : spawnGame worker.ctx spawned srv.sys.state with
  | error e t =>
    rw [hrun] at hends
    cases hends
    exact h
  | ok root t =>
    rw [hrun] at hends
    obtain ⟨hroot, rfl⟩ := hends
    constructor
    · apply h.tied.state
      · exact h.tied.exclusive.same rfl rfl rfl
      · exact ⟨rfl, rfl, .inl rfl, rfl⟩
    · exact fun a ha hmoved => (h.seen a ha hmoved).same rfl rfl
    · intro e he c hc
      rcases List.mem_cons.mp he with rfl | hold
      · have hcontext := hsession.origin c hc
        constructor
        · exact (hsession.runtime root hroot).symm.trans hcontext
        · exact hcontext
      · exact h.aimed e hold c hc

theorem Sound.other (h : Sound srv) {action : Action} (hp : Possible srv.sys action)
    (hquiet : Server.Quiet srv.sys.state action) : Sound (srv.next (.other action)) := by
  by_cases hnew : Reserves action
  · cases action with
    | request world kind operation needsRuntime work =>
      cases hrun : reserveLocked world kind operation needsRuntime srv.sys.state with
      | error e t =>
        obtain ⟨htied, hpassive⟩ := h.tied.refused work hrun
        exact h.passive htied hpassive
      | ok ctx t =>
        have hends := reserveLocked_triple world kind operation needsRuntime srv.sys.state rfl
        rw [hrun] at hends
        obtain ⟨_, root, lease, ht, _⟩ := hends
        have hstate :
            (next srv.sys (.request world kind operation needsRuntime work)).state = t := by
          unfold Backend.next
          dsimp only
          rw [hrun]
        apply h.kept
        · apply h.tied.request hp hrun
          · intro c hc
            rw [h.tied.unborn _ le_rfl] at hc
            cases hc
          · exact fun f hf => h.tied.unborn f hf.le
        · show (next srv.sys (.request world kind operation needsRuntime work)).state.steam = _
          rw [hstate, ht]
          exact poll_steam
        · show (next srv.sys (.request world kind operation needsRuntime work)).state.runtime = _
          rw [hstate, ht]
          exact poll_runtime
    | continuation world kind id => exact absurd hquiet (fun h => h)
    | _ => exact absurd hnew (fun h => h)
  · exact h.passive (h.tied.quiet hp hquiet hnew) (.next hquiet hnew)

theorem Sound.next (h : Sound srv) {step : Step} (hp : srv.Possible step)
    (hsteady : srv.Steady step) : Sound (srv.next step) := by
  cases step with
  | compare expected => exact h.compare expected
  | opened => exact h.opened
  | route => exact h.route
  | reserve world kind operation needsRuntime work => exact h.reserve hsteady hp.2
  | resume world kind id => exact h.resume hsteady hp kind id
  | configure world written selected value file key choices =>
    exact h.configure hsteady hp written selected value file key choices
  | backup world canBackup copied => exact h.backup hsteady hp canBackup copied
  | launch world spawned => exact h.launch hsteady spawned
  | select world steam runtime stored => exact h.select steam runtime stored
  | leave => exact ⟨h.tied, nofun, h.aimed⟩
  | activate worker root committed => exact h.activate hp.1 hp.2 root committed
  | uninstall worker selected => exact h.uninstall hp.1 (.inr hp.2) selected
  | play worker spawned => exact h.play hp.1 hp.2.1 hp.2.2 spawned
  | other action => exact h.other hp.1 hp.2

theorem Sound.of_started (h : srv.Started) : Sound srv := by
  constructor
  · apply Tied.idle (.of_started h.sys) h.sys.active
    exact fun f _ => h.origin f
  · rw [h.admission]
    nofun
  · intro e he
    rw [h.effects] at he
    cases he

theorem Sound.of_runs (h : Server.Runs Server.Steady srv) : Sound srv := by
  induction h with
  | start hstarted => exact .of_started hstarted
  | step _ hp hsteady ih => exact ih.next hp hsteady

/-- In a run that selects no other installation between the comparison and an effect of a request,
every effect is on the installation that the request named, which is the selected one. -/
theorem admission_aimed {srv : Server} (h : Server.Runs Server.Steady srv) : srv.Aimed :=
  (Sound.of_runs h).aimed

/-! ## A worker between the comparison and the reservation -/

section

/-- The launcher has one runtime, and is asked to set up another. -/
def started : Server := ⟨fresh, none, fun _ => none, []⟩

theorem started_started : started.Started := ⟨fresh_started, rfl, fun _ => rfl, rfl⟩

def later : World := { calm with uuid := "2" }

def settingUp : Worker := ⟨⟨"1", "setup", some "/games/msfs", 0⟩, .check true⟩

def installer : Worker := ⟨⟨"1", "setup", some "/games/msfs", 0⟩, .install⟩

/-- A request with the context of the first runtime comes to its operation. -/
def arrived (srv : Server) : Server :=
  ((srv.next (.compare (some "/games/msfs"))).next .opened).next .route

/-- The other runtime was checked. -/
def checked2020 : Server :=
  (((arrived started).next (.reserve calm "setup" "check" false (.check true))).next .leave).next
    (.other (.finish calm settingUp (.ok [("state", .string "ready")])))

/-- It is being installed. -/
def installing2020 : Server := ((arrived checked2020).next (.resume calm "setup" "1")).next .leave

/-- It is activated after another request was admitted. -/
def overtaken : Server :=
  ((arrived installing2020).next (.activate installer (.ok "/games/msfs2020") (.ok ()))).next
    (.other (.finish calm installer (.ok [])))

variable {meets : Server → Step → Prop}

theorem Server.Runs.arrived (h : Server.Runs meets srv)
    (hmeets : ∀ srv step, Server.Steady srv step → meets srv step) (hfree : srv.admission = none)
    (hcontext : context srv.sys.state = "/games/msfs") (hclosing : srv.sys.state.closing = false) :
    Server.Runs meets (arrived srv) := by
  have hcompared : srv.next (.compare (some "/games/msfs")) =
      { srv with admission := some ⟨some "/games/msfs", .compared, false⟩ } := by
    rw [Server.next, expects, hcontext]
    rfl
  have hopened : (srv.next (.compare (some "/games/msfs"))).next .opened =
      { srv with admission := some ⟨some "/games/msfs", .opened, false⟩ } := by
    rw [hcompared, Server.next, isOpen]
    dsimp only
    rw [hclosing]
    rfl
  apply Server.Runs.step
  · apply Server.Runs.step
    · exact h.step hfree (hmeets _ _ trivial)
    · rw [hcompared]
      exact ⟨_, rfl, rfl⟩
    · exact hmeets _ _ trivial
  · rw [hopened]
    exact ⟨_, rfl, rfl⟩
  · exact hmeets _ _ trivial

theorem installing2020_runs (hmeets : ∀ srv step, Server.Steady srv step → meets srv step) :
    Server.Runs meets installing2020 := by
  have hadmitted : Server.Runs meets (arrived started) :=
    (Server.Runs.start started_started).arrived hmeets rfl rfl rfl
  have hchecked : Server.Runs meets checked2020 := by
    apply Server.Runs.step
    · apply Server.Runs.step
      · apply hadmitted.step
        · exact ⟨⟨false, _, rfl, rfl⟩, by decide, by decide⟩
        · apply hmeets
          rintro a ha _
          cases ha
          rfl
      · exact rfl
      · exact hmeets _ _ trivial
    · refine ⟨⟨List.mem_cons_self, ?_⟩, trivial⟩
      simp [Reports, settingUp]
    · exact hmeets _ _ trivial
  have hagain : Server.Runs meets (arrived checked2020) := hchecked.arrived hmeets rfl rfl rfl
  apply Server.Runs.step
  · apply hagain.step
    · exact ⟨_, rfl, rfl⟩
    · apply hmeets
      rintro a ha _
      cases ha
      rfl
  · exact rfl
  · exact hmeets _ _ trivial

theorem admission_aimed_installing :
    installing2020.effects = [⟨some "/games/msfs", "/games/msfs", "/games/msfs"⟩,
      ⟨some "/games/msfs", "/games/msfs", "/games/msfs"⟩] ∧ installing2020.Aimed :=
  ⟨by decide, admission_aimed (installing2020_runs fun _ _ h => h)⟩

/-- A request whose context was compared reserves the runtime that a worker activated since. -/
theorem overtaken_reserves :
    ¬ ∀ srv, Server.Runs (fun _ _ => True) srv → srv.Aimed := by
  intro h
  have hadmitted : Server.Runs (fun _ _ => True) (arrived installing2020) :=
    (installing2020_runs fun _ _ _ => trivial).arrived (fun _ _ _ => trivial) rfl rfl rfl
  have hovertaken : Server.Runs (fun _ _ => True) overtaken := by
    apply Server.Runs.step
    · apply hadmitted.step
      · exact ⟨List.mem_cons_self, rfl⟩
      · trivial
    · refine ⟨⟨List.mem_cons_self, ?_⟩, trivial⟩
      constructor <;> simp
    · trivial
  have hruns : Server.Runs (fun _ _ => True)
      (overtaken.next (.reserve later "cloud-auto" "session" true .task)) := by
    apply hovertaken.step
    · exact ⟨⟨false, _, rfl, rfl⟩, by decide, by decide⟩
    · trivial
  have hreserved : ⟨some "/games/msfs", "/games/msfs2020", "/games/msfs2020"⟩ ∈
      (overtaken.next (.reserve later "cloud-auto" "session" true .task)).effects := by
    decide
  exact absurd (h _ hruns _ hreserved "/games/msfs" rfl).1 (by decide)

end

end Flightdeck.Backend
