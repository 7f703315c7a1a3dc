import Flightdeck.GameInstall.Download

/-!
# Supervision

What holds of a download whatever the CLI does and whenever the requests come.  The worker resets
the flag before it withdraws what the job offers, so a pause that is accepted between the two
survives the download, and a wait that was cancelled is still offered for a moment.
-/

namespace Flightdeck.GameInstall

open Foundation
open Backend (WorkError)

/-! ## What is promised -/

def isWork : Event → Bool
  | .accepted _ => false
  | _ => true

/-- The requests that let the worker go on. -/
def goesOn (operation : String) : Bool := operation == "resume" || operation == "retry"

def isRequest : Event → Bool
  | .accepted operation => goesOn operation
  | _ => false

def isSignIn : Event → Bool
  | .spawned (.login _) => true
  | _ => false

def isDownload : Event → Bool
  | .spawned .streaming => true
  | _ => false

/-- What happened since the last of these requests, or since the start. -/
def sinceRequest (history : List Event) : List Event := history.takeWhile fun e => !isRequest e

def signIns (history : List Event) : Nat := (sinceRequest history).countP isSignIn

def downloads (history : List Event) : Nat := (sinceRequest history).countP isDownload

/-- The CLI runs directly after its digest was verified. -/
def Permitted (older : List Event) : Event → Prop
  | .spawned _ => (older.filter isWork).head? = some .verified
  | _ => True

def Stage.waits : Stage → Option Wait
  | .waiting wait => some wait
  | .waitingCancel wait => some wait
  | _ => none

/-- The phase that an operation belongs to. -/
def InPhase (s : System) (operation : String) : Prop :=
  (operation = "pause" ∧ s.stage.waits = none ∧ s.shared.job.any (·.canPause) = true) ∨
    (operation = "resume" ∧ s.stage.waits = some .paused ∧ s.shared.pause = true) ∨
    (operation = "retry" ∧ ∃ failed, s.stage.waits = some (.retry failed) ∧ s.shared.pause = true)

def workSteps (actions : List Action) : Nat :=
  actions.countP fun | .work _ _ => true | _ => false

def runAll (r : Request) (s : System) (actions : List Action) : System := actions.foldl (next r) s

/-- After a request that was accepted, two steps of the worker take it out of its wait. -/
def Answered (r : Request) (s : System) (id operation : String) : Prop :=
  (request id operation s).history = .accepted operation :: s.history →
    ∀ actions, 2 ≤ workSteps actions → ∃ later,
      (runAll r (request id operation s) actions).history =
        later ++ .accepted operation :: s.history ∧ .left ∈ later

/-- What holds in every run. -/
structure Supervised (r : Request) (s : System) : Prop where
  verified : EachStep Permitted s.history
  single : s.running ≤ 1
  signIns : signIns s.history ≤ 2
  downloads : downloads s.history ≤ 2
  answered : ∀ id operation, goesOn operation = true → Answered r s id operation
  refused : ∀ id operation, id ≠ r.ctx ∨ s.shared.cancel = true ∨ ¬ InPhase s operation →
    request id operation s = s
  stale : ∀ id, id ≠ r.ctx → next r s (.cancel id) = s
  validated : s.stage = .returned (.ok ()) →
    ∃ older, s.history.filter isWork = .validated :: .exited .streaming 0 :: older

/-- What the job shows, and what a download leaves. -/
structure Presented (s : System) : Prop where
  shown : s.shared.job.any (fun job => job.canResume || job.canRetry) = true →
    s.stage.waits.isSome = true ∧ s.shared.pause = true
  clean : ∀ result, s.stage = .returned result →
    s.shared.pause = false ∧
      s.shared.job.all (fun job => !job.canPause && !job.canResume && !job.canRetry) = true

/-- No pause is accepted between the reset of the flag and the withdrawal of what the job offers,
and a worker that waits does not find itself cancelled. -/
def Orderly (s : System) : Action → Prop
  | .work _ _ => ∀ wait, s.stage = .waitingCancel wait → s.shared.cancel = false
  | .request id operation => checked id operation s.shared = .ok () → operation = "pause" →
      ∀ result, s.stage ≠ .withdraw result
  | _ => True

variable {r : Request} {s : System} {job : Job} {calm : Prop}

/-! ## The parts of the state after an operation -/

section Parts

variable (stage : Stage) (event : Event) (patch : Job → Job) (pause : Bool)

@[simp] theorem goto_stage : (s.goto stage).stage = stage := rfl
@[simp] theorem goto_shared : (s.goto stage).shared = s.shared := rfl
@[simp] theorem goto_authenticated : (s.goto stage).authenticated = s.authenticated := rfl
@[simp] theorem goto_child : (s.goto stage).child = s.child := rfl
@[simp] theorem goto_running : (s.goto stage).running = s.running := rfl
@[simp] theorem goto_history : (s.goto stage).history = s.history := rfl

@[simp] theorem log_stage : (s.log event).stage = s.stage := rfl
@[simp] theorem log_shared : (s.log event).shared = s.shared := rfl
@[simp] theorem log_authenticated : (s.log event).authenticated = s.authenticated := rfl
@[simp] theorem log_child : (s.log event).child = s.child := rfl
@[simp] theorem log_running : (s.log event).running = s.running := rfl
@[simp] theorem log_history : (s.log event).history = event :: s.history := rfl

@[simp] theorem update_stage : (s.update r patch).stage = s.stage := rfl
@[simp] theorem update_shared : (s.update r patch).shared = s.shared.update r.ctx patch := rfl
@[simp] theorem update_authenticated : (s.update r patch).authenticated = s.authenticated := rfl
@[simp] theorem update_child : (s.update r patch).child = s.child := rfl
@[simp] theorem update_running : (s.update r patch).running = s.running := rfl
@[simp] theorem update_history : (s.update r patch).history = s.history := rfl

@[simp] theorem storePause_stage : (s.storePause pause).stage = s.stage := rfl
@[simp] theorem storePause_shared : (s.storePause pause).shared = { s.shared with pause } := rfl
@[simp] theorem storePause_authenticated :
    (s.storePause pause).authenticated = s.authenticated := rfl
@[simp] theorem storePause_child : (s.storePause pause).child = s.child := rfl
@[simp] theorem storePause_running : (s.storePause pause).running = s.running := rfl
@[simp] theorem storePause_history : (s.storePause pause).history = s.history := rfl

@[simp] theorem reap_stage : s.reap.stage = s.stage := rfl
@[simp] theorem reap_shared : s.reap.shared = s.shared := rfl
@[simp] theorem reap_authenticated : s.reap.authenticated = s.authenticated := rfl
@[simp] theorem reap_child : s.reap.child = none := rfl
@[simp] theorem reap_history : s.reap.history = s.history := rfl

end Parts

@[simp] theorem shared_update_pause (ctx : String) (patch : Job → Job) (s : Shared) :
    (s.update ctx patch).pause = s.pause := rfl

@[simp] theorem shared_update_cancel (ctx : String) (patch : Job → Job) (s : Shared) :
    (s.update ctx patch).cancel = s.cancel := rfl

@[simp] theorem shared_update_active (ctx : String) (patch : Job → Job) (s : Shared) :
    (s.update ctx patch).active = s.active := rfl

theorem shared_update_job {ctx : String} {patch : Job → Job} {s : Shared} (h : s.job = some job)
    (hid : job.id = ctx) : (s.update ctx patch).job = some (patch job) := by
  unfold Shared.update
  rw [h, Option.map_some, if_pos hid]

/-! ## Where a step leads -/

theorem loginFailed_cases (r : Request) (place : Place) (e : WorkError) :
    (∃ e', loginFailed r place e = .closing (.error e')) ∨
      loginFailed r place e = .fail (.authentication place) e := by
  unfold loginFailed
  by_cases hcancelled : e.isCancelled = true
  · rw [if_pos hcancelled]
    exact .inl ⟨_, rfl⟩
  · rw [if_neg hcancelled]
    cases place with
    | session => exact .inr rfl
    | first =>
      by_cases hresume : r.resume = true
      · exact .inr (if_pos hresume)
      · exact .inl ⟨e, if_neg hresume⟩

theorem downloadFailed_cases (r : Request) (e : WorkError) :
    (∃ e', downloadFailed r e = .closing (.error e')) ∨ downloadFailed r e = .fail .download e := by
  unfold downloadFailed
  by_cases hcancelled : e.isCancelled = true
  · rw [if_pos hcancelled]
    exact .inl ⟨_, rfl⟩
  · rw [if_neg hcancelled]
    by_cases hresume : r.resume = true
    · exact .inr (if_pos hresume)
    · exact .inl ⟨e, if_neg hresume⟩

/-- An exit code of the download leads to a sign-in once, to the end, or to a wait. -/
theorem downloadCode_cases (r : Request) (authenticated : Bool) (code : Int) :
    (downloadCode r authenticated code = .login .session ∧ authenticated = false) ∨
      (∃ e, downloadCode r authenticated code = .closing (.error e)) ∨
      (downloadCode r authenticated code = .finished ∧ code = 0) ∨
      ∃ e, downloadCode r authenticated code = .fail .download e := by
  unfold downloadCode
  by_cases hexpired : code = 77 ∧ r.resume ∧ !authenticated
  · rw [if_pos hexpired]
    exact .inl ⟨rfl, by simpa using hexpired.2.2⟩
  · rw [if_neg hexpired]
    apply Or.inr
    by_cases hrevision : code = 78 ∧ r.expectedPackage.isSome
    · rw [if_pos hrevision]
      exact .inl ⟨_, rfl⟩
    · rw [if_neg hrevision]
      by_cases hzero : code = 0
      · rw [if_pos hzero]
        exact .inr (.inl ⟨rfl, hzero⟩)
      · rw [if_neg hzero]
        by_cases hresume : r.resume = true
        · exact .inr (.inr ⟨_, if_pos hresume⟩)
        · exact .inl ⟨_, if_neg hresume⟩

theorem unlessCancelled_cases (s : System) (next cancelled : Stage) :
    unlessCancelled s next cancelled = next ∨
      unlessCancelled s next cancelled = cancelled ∧ s.shared.cancel = true := by
  unfold unlessCancelled
  by_cases hcancel : s.shared.cancel = true
  · exact .inr ⟨if_pos hcancel, hcancel⟩
  · exact .inl (if_neg hcancel)

/-! ## Counting -/

section Counting

variable {event : Event} {history : List Event}

theorem signIns_request (h : isRequest event = true) : signIns (event :: history) = 0 := by
  simp [signIns, sinceRequest, h]

theorem downloads_request (h : isRequest event = true) : downloads (event :: history) = 0 := by
  simp [downloads, sinceRequest, h]

theorem signIns_cons (h : isRequest event = false) :
    signIns (event :: history) = signIns history + if isSignIn event then 1 else 0 := by
  simp [signIns, sinceRequest, h, List.countP_cons]

theorem downloads_cons (h : isRequest event = false) :
    downloads (event :: history) = downloads history + if isDownload event then 1 else 0 := by
  simp [downloads, sinceRequest, h, List.countP_cons]

end Counting

/-- At most so many since the last request. -/
def Within (s : System) (budget : Nat × Nat) : Prop :=
  signIns s.history ≤ budget.1 ∧ downloads s.history ≤ budget.2

/-- How many there may have been before a run begins. -/
def Cli.before (authenticated : Bool) : Cli → Nat × Nat
  | .login .first => (0, 0)
  | .login .session => (1, 1)
  | .streaming => if authenticated then (2, 1) else (1, 0)

def Cli.after (authenticated : Bool) : Cli → Nat × Nat
  | .login .first => (1, 0)
  | .login .session => (2, 1)
  | .streaming => if authenticated then (2, 2) else (1, 1)

theorem Within.mono {a b : Nat × Nat} (h : Within s a) (hab : a.1 ≤ b.1 ∧ a.2 ≤ b.2) :
    Within s b := ⟨h.1.trans hab.1, h.2.trans hab.2⟩

theorem Within.log {event : Event} {budget : Nat × Nat} (h : Within s budget)
    (hrequest : isRequest event = false) (hsignIn : isSignIn event = false)
    (hdownload : isDownload event = false) : Within (s.log event) budget := by
  unfold Within
  rw [log_history, signIns_cons hrequest, downloads_cons hrequest, hsignIn, hdownload]
  exact h

theorem Within.spawned {cli : Cli} {authenticated : Bool}
    (h : Within s (cli.before authenticated)) :
    Within (s.log (.spawned cli)) (cli.after authenticated) := by
  unfold Within at h ⊢
  rw [log_history, signIns_cons rfl, downloads_cons rfl]
  cases cli with
  | login place =>
    have hkind : isSignIn (.spawned (.login place)) = true ∧
        isDownload (.spawned (.login place)) = false := ⟨rfl, rfl⟩
    rw [hkind.1, hkind.2]
    cases place <;> simp only [Cli.before, Cli.after] at h ⊢ <;> simp <;> omega
  | streaming =>
    have hkind : isSignIn (.spawned .streaming) = false ∧
        isDownload (.spawned .streaming) = true := ⟨rfl, rfl⟩
    rw [hkind.1, hkind.2]
    cases authenticated <;> simp [Cli.before, Cli.after] at h ⊢ <;> omega

theorem Within.after {cli : Cli} {authenticated : Bool} (h : Within s (cli.after authenticated)) :
    Within s (2, 2) := by
  apply h.mono
  cases cli with
  | login place => cases place <;> simp [Cli.after]
  | streaming => cases authenticated <;> simp [Cli.after]

theorem Within.before {cli : Cli} {authenticated : Bool}
    (h : Within s (cli.before authenticated)) : Within s (2, 2) := by
  apply h.mono
  cases cli with
  | login place => cases place <;> simp [Cli.before]
  | streaming => cases authenticated <;> simp [Cli.before]

theorem Within.ahead {cli : Cli} {authenticated : Bool}
    (h : Within s (cli.before authenticated)) : Within s (cli.after authenticated) := by
  apply h.mono
  cases cli with
  | login place => cases place <;> simp [Cli.before, Cli.after]
  | streaming => cases authenticated <;> simp [Cli.before, Cli.after]

/-- After the first sign-in the download may begin, whoever was signed in before. -/
theorem Within.first {authenticated : Bool}
    (h : Within s ((Cli.login .first).after authenticated)) :
    Within s (Cli.streaming.before authenticated) := by
  apply h.mono
  cases authenticated <;> simp [Cli.before, Cli.after]

/-- Nothing was counted yet, so whatever comes first may begin. -/
theorem Within.fresh {budget : Nat × Nat} (h : Within s (0, 0)) : Within s budget :=
  h.mono ⟨Nat.zero_le _, Nat.zero_le _⟩

/-! ## The invariant -/

/-- No process runs. -/
def Idle (s : System) : Prop := s.child ≠ some .running ∧ s.running = 0

/-- The one process that may run is the child. -/
def Busy (s : System) : Prop :=
  s.child = some .running ∧ s.running = 1 ∨ (∃ code, s.child = some (.exited code)) ∧ s.running = 0

/-- The user may neither resume nor retry. -/
def Hidden (job : Job) : Prop := job.canResume = false ∧ job.canRetry = false

/-- The last thing that the worker did. -/
def Last (s : System) (event : Event) : Prop := (s.history.filter isWork).head? = some event

def Validated (s : System) : Prop :=
  ∃ older, s.history.filter isWork = .validated :: .exited .streaming 0 :: older

/-- What holds at each stage; in a run that is `calm`, no pause comes between the last two writes of
the worker, and it is not cancelled while it waits. -/
def Fits (calm : Prop) (s : System) (job : Job) : Prop :=
  match s.stage with
  | .checks | .announce | .package | .left _ | .again _ =>
    Idle s ∧ Hidden job ∧ Within s (0, 0) ∧ job.canPause = false ∧ s.shared.pause = false
  | .login place | .prompt place =>
    Idle s ∧ Hidden job ∧ Within s ((Cli.login place).before s.authenticated)
  | .verify cli => Idle s ∧ Hidden job ∧ Within s (cli.before s.authenticated)
  | .loop => Idle s ∧ Hidden job ∧ Within s (Cli.streaming.before s.authenticated)
  | .attempt | .show _ | .requesting =>
    Idle s ∧ Hidden job ∧ Within s (Cli.streaming.before s.authenticated) ∧ Last s .verified
  | .enter cli | .spawn cli =>
    Idle s ∧ Hidden job ∧ Within s (cli.before s.authenticated) ∧ Last s .verified
  | .poll cli none | .tryWait cli | .look cli =>
    Busy s ∧ Hidden job ∧ Within s (cli.after s.authenticated)
  | .poll cli (some _) => Idle s ∧ Hidden job ∧ Within s (cli.after s.authenticated)
  | .ended cli outcome =>
    Idle s ∧ Hidden job ∧ Within s (cli.after s.authenticated) ∧
      (∀ code, cli = .streaming → outcome = .ok (.code code) → Last s (.exited .streaming code)) ∧
      (cli = .streaming → outcome = .ok .paused → s.shared.pause = true)
  | .fail _ _ | .setPause _ _ => Idle s ∧ Hidden job ∧ Within s (2, 2)
  | .offerRetry _ _ | .offerResume =>
    Idle s ∧ Hidden job ∧ Within s (2, 2) ∧ s.shared.pause = true
  | .waiting wait | .waitingCancel wait =>
    Idle s ∧ job.canPause = false ∧ job.canResume = (s.shared.pause && wait == .paused) ∧
      job.canRetry = (s.shared.pause && wait != .paused) ∧ Within s (2, 2) ∧
      (s.shared.pause = false → Within s (0, 0))
  | .finished | .validate =>
    Idle s ∧ Hidden job ∧ Within s (2, 2) ∧ Last s (.exited .streaming 0)
  | .integrity => Idle s ∧ Hidden job ∧ Within s (2, 2) ∧ Validated s
  | .closing result =>
    Idle s ∧ (Hidden job ∨ s.shared.cancel = true ∧ ¬ calm) ∧ Within s (2, 2) ∧
      (result = .ok () → Validated s)
  | .withdraw result =>
    Idle s ∧ (Hidden job ∨ s.shared.cancel = true ∧ ¬ calm) ∧ Within s (2, 2) ∧
      (result = .ok () → Validated s) ∧ (calm → s.shared.pause = false)
  | .returned result =>
    Idle s ∧ Hidden job ∧ Within s (2, 2) ∧ (result = .ok () → Validated s) ∧
      job.canPause = false ∧ (calm → s.shared.pause = false)

/-- The job is the worker's own. -/
structure Own (r : Request) (s : Shared) (job : Job) : Prop where
  active : s.active = some ⟨"setup", r.ctx⟩
  found : s.job = some job
  id : job.id = r.ctx
  state : job.state = .installing ∨ job.state = .failed

def Inv (calm : Prop) (r : Request) (s : System) : Prop :=
  ∃ job, Own r s.shared job ∧ Fits calm s job

/-! ## The worker -/

/-- The worker writes into its own job. -/
theorem Own.update (h : Own r s.shared job) (patch : Job → Job) (hid : (patch job).id = job.id)
    (hstate : (patch job).state = .installing ∨ (patch job).state = .failed) :
    Own r (s.update r patch).shared (patch job) :=
  ⟨h.active, shared_update_job h.found h.id, hid.trans h.id, hstate⟩

theorem Idle.reaped (h : Busy s) : Idle s.reap := by
  apply And.intro
  · exact nofun
  · unfold System.reap
    obtain ⟨hchild, hrunning⟩ | ⟨⟨code, hchild⟩, hrunning⟩ := h
    · rw [hchild, hrunning]
      rfl
    · rw [hchild, hrunning]
      rfl

theorem Idle.reap (h : Idle s) : Idle s.reap := by
  apply And.intro
  · exact nofun
  · unfold System.reap
    rw [if_neg h.1]
    exact h.2

/-- A run that ended without an exit code or a pause. -/
theorem Fits.error {cli : Cli} {e : WorkError} (hidle : Idle s) (hhidden : Hidden job)
    (hwithin : Within s (cli.after s.authenticated)) :
    Fits calm (s.goto (.ended cli (.error e))) job := by
  refine ⟨hidle, hhidden, hwithin, ?_, ?_⟩
  · intro code _ h
    cases h
  · intro _ h
    cases h

theorem Fits.closing {e : WorkError} (hidle : Idle s) (hhidden : Hidden job)
    (hwithin : Within s (2, 2)) : Fits calm (s.goto (.closing (.error e))) job := by
  refine ⟨hidle, .inl hhidden, hwithin, ?_⟩
  intro h
  cases h

theorem Fits.loginFailed {place : Place} {e : WorkError} (hidle : Idle s) (hhidden : Hidden job)
    (hwithin : Within s (2, 2)) : Fits calm (s.goto (loginFailed r place e)) job := by
  obtain ⟨e', h⟩ | h := loginFailed_cases r place e
  · rw [h]
    exact .closing hidle hhidden hwithin
  · rw [h]
    exact ⟨hidle, hhidden, hwithin⟩

theorem Fits.downloadFailed {e : WorkError} (hidle : Idle s) (hhidden : Hidden job)
    (hwithin : Within s (2, 2)) : Fits calm (s.goto (downloadFailed r e)) job := by
  obtain ⟨e', h⟩ | h := downloadFailed_cases r e
  · rw [h]
    exact .closing hidle hhidden hwithin
  · rw [h]
    exact ⟨hidle, hhidden, hwithin⟩

theorem Fits.downloadCode {code : Int} (hidle : Idle s) (hhidden : Hidden job)
    (hwithin : Within s (Cli.streaming.after s.authenticated))
    (hlast : Last s (.exited .streaming code)) :
    Fits calm (s.goto (downloadCode r s.authenticated code)) job := by
  have hmost := hwithin.after
  obtain ⟨h, hauthenticated⟩ | ⟨e, h⟩ | ⟨h, rfl⟩ | ⟨e, h⟩ :=
    downloadCode_cases r s.authenticated code
  · rw [h]
    rw [hauthenticated] at hwithin
    exact ⟨hidle, hhidden, hwithin⟩
  · rw [h]
    exact .closing hidle hhidden hmost
  · rw [h]
    exact ⟨hidle, hhidden, hmost, hlast⟩
  · rw [h]
    exact ⟨hidle, hhidden, hmost⟩

theorem Fits.verified {cli : Cli} {outcome : Except WorkError Unit} (hidle : Idle s)
    (hhidden : Hidden job) (hwithin : Within s (cli.before s.authenticated)) :
    Fits calm (verified r cli outcome s) job := by
  have hmost := hwithin.before
  have hlogged : Within (s.log .verified) (cli.before s.authenticated) := hwithin.log rfl rfl rfl
  cases outcome with
  | ok u => cases cli <;> exact ⟨hidle, hhidden, hlogged, rfl⟩
  | error e =>
    cases cli with
    | login place => exact .loginFailed hidle hhidden hmost
    | streaming => exact .closing hidle hhidden hmost

theorem Fits.loginReturned {place : Place} {result : Except WorkError Unit} (hidle : Idle s)
    (hhidden : Hidden job) (hwithin : Within s ((Cli.login place).after s.authenticated)) :
    Fits calm (loginReturned r place result s) job := by
  cases result with
  | error e => exact .loginFailed hidle hhidden hwithin.after
  | ok u =>
    cases place with
    | session => exact ⟨hidle, hhidden, hwithin⟩
    | first => exact ⟨hidle, hhidden, hwithin.first⟩

theorem loginReturned_shared (place : Place) (result : Except WorkError Unit) :
    (loginReturned r place result s).shared = s.shared := by
  cases result with
  | error e => rfl
  | ok u => cases place <;> rfl

theorem Inv.returnedCli {cli : Cli} {outcome : Except WorkError Exit} (hown : Own r s.shared job)
    (hidle : Idle s) (hhidden : Hidden job) (hwithin : Within s (cli.after s.authenticated))
    (hlast : ∀ code, cli = .streaming → outcome = .ok (.code code) →
      Last s (.exited .streaming code))
    (hpause : cli = .streaming → outcome = .ok .paused → s.shared.pause = true) :
    Inv calm r (returnedCli r cli outcome s) := by
  cases cli with
  | login place =>
    cases outcome with
    | error e => exact ⟨job, hown, .loginFailed hidle hhidden hwithin.after⟩
    | ok exit =>
      cases exit with
      | paused => exact ⟨job, hown, .loginFailed hidle hhidden hwithin.after⟩
      | code code =>
        refine ⟨{ job with loginExitCode := some code }, ?_, ?_⟩
        · change Own r (loginReturned r place _ (s.update r _)).shared _
          rw [loginReturned_shared]
          exact hown.update (fun job => { job with loginExitCode := some code }) rfl hown.state
        · exact Fits.loginReturned (s := s.update r _) hidle hhidden hwithin
  | streaming =>
    cases outcome with
    | error e => exact ⟨job, hown, .downloadFailed hidle hhidden hwithin.after⟩
    | ok exit =>
      cases exit with
      | paused => exact ⟨job, hown, hidle, hhidden, hwithin.after, hpause rfl rfl⟩
      | code code =>
        refine ⟨_, hown.update _ rfl hown.state, ?_⟩
        exact Fits.downloadCode (s := s.update r _) hidle hhidden hwithin (hlast code rfl rfl)

theorem Fits.unlessCancelled {next cancelled : Stage} (hnext : Fits calm (s.goto next) job)
    (hcancelled : Fits calm (s.goto cancelled) job) :
    Fits calm (s.goto (unlessCancelled s next cancelled)) job := by
  obtain h | ⟨h, -⟩ := unlessCancelled_cases s next cancelled
  · rw [h]
    exact hnext
  · rw [h]
    exact hcancelled

theorem Inv.leave {wait : Wait} (hown : Own r s.shared job) (hidle : Idle s) (hhidden : Hidden job)
    (hwithin : Within s (0, 0)) (hpause : job.canPause = false) (hflag : s.shared.pause = false) :
    Inv calm r (leave wait s) := by
  have hleft : Within (s.log .left) (0, 0) := hwithin.log rfl rfl rfl
  cases wait with
  | paused => exact ⟨job, hown, hidle, hhidden, hleft.fresh⟩
  | retry failed => exact ⟨job, hown, hidle, hhidden, hleft, hpause, hflag⟩

theorem Inv.retried {failed : Failed} (hown : Own r s.shared job) (hidle : Idle s)
    (hhidden : Hidden job) (hwithin : Within s (0, 0)) : Inv calm r (retried failed s) := by
  cases failed with
  | download => exact ⟨job, hown, hidle, hhidden, hwithin.fresh⟩
  | authentication place => cases place <;> exact ⟨job, hown, hidle, hhidden, hwithin.fresh⟩

theorem Validated.of_last (h : Last s (.exited .streaming 0)) : Validated (s.log .validated) := by
  obtain ⟨older, hwork⟩ := List.head?_eq_some_iff.mp h
  refine ⟨older, ?_⟩
  rw [log_history, List.filter_cons_of_pos (by rfl), hwork]

/-- One step of the worker, whatever its operations return. -/
theorem Inv.advance {outcome : Except WorkError Unit} {late : Bool} (h : Inv calm r s)
    (hcalm : calm → Orderly s (.work outcome late)) : Inv calm r (advance r outcome late s) := by
  obtain ⟨job, hown, h⟩ := h
  unfold Fits at h
  unfold GameInstall.advance
  cases hstage : s.stage with
  | checks =>
    rw [hstage] at h
    obtain ⟨hidle, hhidden, hwithin, hpause, hflag⟩ := h
    cases outcome with
    | ok u => exact ⟨job, hown, hidle, hhidden, hwithin, hpause, hflag⟩
    | error e => exact ⟨job, hown, hidle, hhidden, hwithin.fresh, nofun, hpause, fun _ => hflag⟩
  | announce =>
    rw [hstage] at h
    obtain ⟨hidle, hhidden, hwithin, hpause, hflag⟩ := h
    exact ⟨_, hown.update _ rfl hown.state, hidle, ⟨hhidden.1, rfl⟩, hwithin, hpause, hflag⟩
  -- the first sign-in comes only where the request asks for it
  | package =>
    rw [hstage] at h
    obtain ⟨hidle, hhidden, hwithin, hpause, hflag⟩ := h
    dsimp only
    cases r.packageArgs with
    | error e => exact ⟨job, hown, hidle, hhidden, hwithin.fresh, nofun, hpause, fun _ => hflag⟩
    | ok u =>
      cases hsign : r.signIn with
      | true => exact ⟨job, hown, hidle, hhidden, hwithin.fresh⟩
      | false => exact ⟨job, hown, hidle, hhidden, hwithin.fresh⟩
  | login place =>
    rw [hstage] at h
    obtain ⟨hidle, hhidden, hwithin⟩ := h
    exact ⟨_, hown.update _ rfl hown.state, hidle, ⟨rfl, hhidden.2⟩, hwithin⟩
  | prompt place =>
    rw [hstage] at h
    obtain ⟨hidle, hhidden, hwithin⟩ := h
    exact ⟨_, hown.update _ rfl hown.state, hidle, hhidden, hwithin⟩
  | verify cli =>
    rw [hstage] at h
    obtain ⟨hidle, hhidden, hwithin⟩ := h
    refine ⟨job, ?_, .verified hidle hhidden hwithin⟩
    cases outcome <;> cases cli <;> exact hown
  | loop =>
    rw [hstage] at h
    obtain ⟨hidle, hhidden, hwithin⟩ := h
    refine ⟨job, hown, .unlessCancelled ?_ (.closing hidle hhidden hwithin.before)⟩
    exact ⟨hidle, hhidden, hwithin⟩
  | attempt =>
    rw [hstage] at h
    exact ⟨job, hown, h⟩
  | «show» attempt =>
    rw [hstage] at h
    obtain ⟨hidle, hhidden, hwithin, hlast⟩ := h
    exact ⟨_, hown.update _ rfl (.inl rfl), hidle, ⟨rfl, rfl⟩, hwithin, hlast⟩
  | requesting =>
    rw [hstage] at h
    obtain ⟨hidle, hhidden, hwithin, hlast⟩ := h
    exact ⟨_, hown.update _ rfl hown.state, hidle, hhidden, hwithin, hlast⟩
  | enter cli =>
    rw [hstage] at h
    obtain ⟨hidle, hhidden, hwithin, hlast⟩ := h
    refine ⟨job, hown, .unlessCancelled ?_ (.error hidle hhidden hwithin.ahead)⟩
    exact ⟨hidle, hhidden, hwithin, hlast⟩
  | spawn cli =>
    rw [hstage] at h
    obtain ⟨hidle, hhidden, hwithin, hlast⟩ := h
    cases outcome with
    | error e => exact ⟨job, hown, .error hidle hhidden hwithin.ahead⟩
    | ok u =>
      have hbusy : s.running + 1 = 1 := congrArg (· + 1) hidle.2
      exact ⟨job, hown, .inl ⟨rfl, hbusy⟩, hhidden, hwithin.spawned⟩
  | poll cli exited =>
    rw [hstage] at h
    -- a child that exited is taken out, one that runs is killed first
    have hfacts : Idle s.reap ∧ Hidden job ∧ Within s (cli.after s.authenticated) := by
      cases exited with
      | none => exact ⟨.reaped h.1, h.2⟩
      | some code => exact ⟨.reap h.1, h.2⟩
    obtain ⟨hidle, hhidden, hwithin⟩ := hfacts
    dsimp only
    -- the flag is looked at before the outcome of the poll
    by_cases hcancel : s.shared.cancel = true
    · rw [if_pos hcancel]
      exact ⟨job, hown, .error hidle hhidden hwithin⟩
    · rw [if_neg hcancel]
      cases outcome with
      | error e => exact ⟨job, hown, .error hidle hhidden hwithin⟩
      | ok u =>
        cases exited with
        | none => exact ⟨job, hown, h⟩
        | some code =>
          refine ⟨job, hown, hidle, hhidden, hwithin.log rfl rfl rfl, ?_, ?_⟩
          · intro code' hcli hcode
            cases hcli
            cases hcode
            rfl
          · intro _ h
            cases h
  | tryWait cli =>
    rw [hstage] at h
    obtain ⟨hbusy, hhidden, hwithin⟩ := h
    cases outcome with
    | error e => exact ⟨job, hown, .error (.reaped hbusy) hhidden hwithin⟩
    | ok u =>
      dsimp only
      obtain ⟨hchild, hrunning⟩ | ⟨⟨code, hchild⟩, hrunning⟩ := hbusy
      · rw [hchild]
        exact ⟨job, hown, .inl ⟨hchild, hrunning⟩, hhidden, hwithin⟩
      · rw [hchild]
        have hidle : s.child ≠ some .running := by
          rw [hchild]
          exact nofun
        exact ⟨job, hown, ⟨hidle, hrunning⟩, hhidden, hwithin⟩
  | look cli =>
    rw [hstage] at h
    obtain ⟨hbusy, hhidden, hwithin⟩ := h
    dsimp only
    -- the pause is looked at before the deadline
    by_cases hpaused : (pausable r cli && s.shared.pause) = true
    · rw [if_pos hpaused]
      cases outcome with
      | error e => exact ⟨job, hown, .error (.reaped hbusy) hhidden hwithin⟩
      | ok u =>
        refine ⟨job, hown, .reaped hbusy, hhidden, hwithin, ?_, ?_⟩
        · intro code _ h
          cases h
        · intro _ _
          exact (Bool.and_eq_true_iff.mp hpaused).2
    · rw [if_neg hpaused]
      by_cases hlate : (cli != .streaming && late) = true
      · rw [if_pos hlate]
        exact ⟨job, hown, .error (.reaped hbusy) hhidden hwithin⟩
      · rw [if_neg hlate]
        exact ⟨job, hown, hbusy, hhidden, hwithin⟩
  | ended cli result =>
    rw [hstage] at h
    obtain ⟨hidle, hhidden, hwithin, hlast, hpause⟩ := h
    exact .returnedCli hown hidle hhidden hwithin hlast hpause
  | fail failed e =>
    rw [hstage] at h
    obtain ⟨hidle, hhidden, hwithin⟩ := h
    refine ⟨job, hown, .unlessCancelled ?_ (.closing hidle hhidden hwithin)⟩
    exact ⟨hidle, hhidden, hwithin⟩
  -- the pause flag is set first, then the job offers a retry
  | setPause failed e =>
    rw [hstage] at h
    obtain ⟨hidle, hhidden, hwithin⟩ := h
    exact ⟨job, ⟨hown.active, hown.found, hown.id, hown.state⟩, hidle, hhidden, hwithin, rfl⟩
  | offerRetry failed e =>
    rw [hstage] at h
    obtain ⟨hidle, hhidden, hwithin, hflag⟩ := h
    refine ⟨_, hown.update _ rfl (.inr rfl), hidle, rfl, ?_, ?_, hwithin, ?_⟩
    · simp
    · simp [hflag]
    · intro h
      simp [hflag] at h
  | offerResume =>
    rw [hstage] at h
    obtain ⟨hidle, hhidden, hwithin, hflag⟩ := h
    refine ⟨_, hown.update _ rfl hown.state, hidle, rfl, ?_, ?_, hwithin, ?_⟩
    · simp [hflag]
    · simpa using hhidden.2
    · intro h
      simp [hflag] at h
  | waiting wait =>
    rw [hstage] at h
    obtain ⟨hidle, hpause, hresume, hretry, hmost, hwithin⟩ := h
    dsimp only
    by_cases hflag : s.shared.pause = true
    · rw [if_pos hflag]
      exact ⟨job, hown, hidle, hpause, hresume, hretry, hmost, hwithin⟩
    · rw [if_neg hflag]
      rw [Bool.not_eq_true] at hflag
      rw [hflag, Bool.false_and] at hresume hretry
      exact .leave hown hidle ⟨hresume, hretry⟩ (hwithin hflag) hpause hflag
  | waitingCancel wait =>
    rw [hstage] at h
    obtain ⟨hidle, hpause, hresume, hretry, hmost, hwithin⟩ := h
    dsimp only
    by_cases hcancel : s.shared.cancel = true
    · rw [if_pos hcancel]
      -- an orderly run is never cancelled while it waits
      have hloud : ¬ calm := by
        intro h
        rw [hcalm h wait hstage] at hcancel
        cases hcancel
      exact ⟨job, hown, hidle, .inr ⟨hcancel, hloud⟩, hmost.log rfl rfl rfl, nofun⟩
    · rw [if_neg hcancel]
      exact ⟨job, hown, hidle, hpause, hresume, hretry, hmost, hwithin⟩
  | left failed =>
    rw [hstage] at h
    obtain ⟨hidle, hhidden, hwithin, hpause, hflag⟩ := h
    refine ⟨job, hown, .unlessCancelled ?_ (.closing hidle hhidden hwithin.fresh)⟩
    exact ⟨hidle, hhidden, hwithin, hpause, hflag⟩
  | again failed =>
    rw [hstage] at h
    obtain ⟨hidle, hhidden, hwithin, hpause, hflag⟩ := h
    exact .retried (hown.update _ rfl (.inl rfl)) hidle ⟨hhidden.1, rfl⟩ hwithin
  | finished =>
    rw [hstage] at h
    obtain ⟨hidle, hhidden, hwithin, hlast⟩ := h
    refine ⟨job, hown, .unlessCancelled ?_ (.closing hidle hhidden hwithin)⟩
    exact ⟨hidle, hhidden, hwithin, hlast⟩
  | validate =>
    rw [hstage] at h
    obtain ⟨hidle, hhidden, hwithin, hlast⟩ := h
    cases outcome with
    | error e => exact ⟨job, hown, .closing hidle hhidden hwithin⟩
    | ok u =>
      have hlogged : Within (s.log .validated) (2, 2) := hwithin.log rfl rfl rfl
      dsimp only
      -- without an index the validation was the last pass over the files
      by_cases hindex : r.feature "streaming-integrity-index-v1" = true
      · rw [if_pos hindex]
        exact ⟨job, hown, hidle, hhidden, hlogged, .of_last hlast⟩
      · rw [if_neg hindex]
        exact ⟨job, hown, hidle, .inl hhidden, hlogged, fun _ => .of_last hlast⟩
  | integrity =>
    rw [hstage] at h
    obtain ⟨hidle, hhidden, hwithin, hvalid⟩ := h
    exact ⟨job, hown, hidle, .inl hhidden, hwithin, fun _ => hvalid⟩
  | closing result =>
    rw [hstage] at h
    obtain ⟨hidle, hhidden, hwithin, hvalid⟩ := h
    refine ⟨job, ⟨hown.active, hown.found, hown.id, hown.state⟩, ?_⟩
    exact ⟨hidle, hhidden, hwithin, hvalid, fun _ => rfl⟩
  | withdraw result =>
    rw [hstage] at h
    obtain ⟨hidle, -, hwithin, hvalid, hflag⟩ := h
    exact ⟨_, hown.update _ rfl hown.state, hidle, ⟨rfl, rfl⟩, hwithin, hvalid, rfl, hflag⟩
  | returned result =>
    refine ⟨job, hown, ?_⟩
    unfold Fits
    rw [hstage] at h ⊢
    exact h

/-! ## The other steps -/

theorem exit_same (code : Int) (s : System) :
    (exit code s).stage = s.stage ∧ (exit code s).shared = s.shared ∧
      (exit code s).history = s.history := by
  unfold exit
  by_cases hchild : s.child = some .running
  · rw [if_pos hchild]
    exact ⟨rfl, rfl, rfl⟩
  · rw [if_neg hchild]
    exact ⟨rfl, rfl, rfl⟩

theorem Inv.exit {code : Int} (h : Inv calm r s) : Inv calm r (exit code s) := by
  unfold GameInstall.exit
  by_cases hchild : s.child = some .running
  · rw [if_pos hchild]
    obtain ⟨job, hown, h⟩ := h
    refine ⟨job, hown, ?_⟩
    have hexited : Busy s → Busy { s with
        child := some (.exited code)
        running := s.running - 1 } := by
      intro hbusy
      obtain ⟨-, hrunning⟩ | ⟨⟨code', hother⟩, -⟩ := hbusy
      · exact .inr ⟨⟨code, rfl⟩, congrArg (· - 1) hrunning⟩
      · rw [hother] at hchild
        cases hchild
    unfold Fits at h ⊢
    cases hstage : s.stage with
    | poll cli exited =>
      rw [hstage] at h
      cases exited with
      | none => exact ⟨hexited h.1, h.2⟩
      | some code => exact absurd hchild h.1.1
    | tryWait cli =>
      rw [hstage] at h
      exact ⟨hexited h.1, h.2⟩
    | look cli =>
      rw [hstage] at h
      exact ⟨hexited h.1, h.2⟩
    | _ =>
      rw [hstage] at h
      exact absurd hchild h.1.1
  · rw [if_neg hchild]
    exact h

/-- A change of what is shared that leaves the flag and the offers alone. -/
theorem Fits.shared {shared : Shared} {job' : Job} (h : Fits calm s job)
    (hflag : shared.pause = s.shared.pause)
    (hcancel : s.shared.cancel = true → shared.cancel = true)
    (hpause : job'.canPause = job.canPause) (hresume : job'.canResume = job.canResume)
    (hretry : job'.canRetry = job.canRetry) : Fits calm { s with shared } job' := by
  unfold Fits Hidden at h ⊢
  simp only [hflag, hpause, hresume, hretry]
  cases hstage : s.stage with
  | closing result =>
    rw [hstage] at h
    exact ⟨h.1, h.2.1.imp_right (.imp_left hcancel), h.2.2⟩
  | withdraw result =>
    rw [hstage] at h
    exact ⟨h.1, h.2.1.imp_right (.imp_left hcancel), h.2.2⟩
  | poll cli exited =>
    rw [hstage] at h
    cases exited <;> exact h
  | _ =>
    rw [hstage] at h
    exact h

theorem Own.not_ready {shared : Shared} (h : Own r shared job) :
    (job.state == .ready) = false := by
  obtain h | h := h.state <;> rw [h] <;> rfl

/-- A cancellation is refused, or sets the flag of the job. -/
theorem Own.cancel_cases (h : Own r s.shared job) (id : String) :
    stateOf (cancel id s.shared) = s.shared ∨
      stateOf (cancel id s.shared) =
        { s.shared with
          cancel := true
          job := some { job with
            canCancel := false
            message := "Vorgang wird abgebrochen …" } } := by
  have hready : s.shared.ready = false := by
    unfold Shared.ready
    rw [h.found]
    exact h.not_ready
  have hprepared : s.shared.prepared id = false := by
    unfold Shared.prepared
    rw [h.found, Option.any_some, h.not_ready, Bool.and_false, Bool.false_and]
  have hcancelled : s.shared.cancelled =
      { s.shared with
        cancel := true
        job := some { job with canCancel := false, message := "Vorgang wird abgebrochen …" } } := by
    unfold Shared.cancelled
    rw [h.found, hready]
    rfl
  rw [cancel_eq, hprepared, hcancelled]
  cases s.shared.switching id with
  | true => exact .inl rfl
  | false =>
    cases s.shared.reserved id with
    | true => exact .inr rfl
    | false => exact .inl rfl

theorem Inv.cancel {id : String} (h : Inv calm r s) :
    Inv calm r { s with shared := stateOf (cancel id s.shared) } := by
  obtain ⟨job, hown, h⟩ := h
  obtain heq | heq := hown.cancel_cases id
  · rw [heq]
    exact ⟨job, hown, h⟩
  · rw [heq]
    exact ⟨_, ⟨hown.active, rfl, hown.id, hown.state⟩, h.shared rfl (fun _ => rfl) rfl rfl rfl⟩

theorem Inv.close (h : Inv calm r s) : Inv calm r { s with shared := close s.shared } := by
  obtain ⟨job, hown, h⟩ := h
  have hready := hown.not_ready
  refine ⟨job, ?_, h.shared rfl ?_ rfl rfl rfl⟩
  · constructor
    · simp [GameInstall.close, Shared.ready, hown.active, hown.found, hready]
    · simp [GameInstall.close, Shared.ready, hown.active, hown.found, hready]
    · exact hown.id
    · exact hown.state
  · intro hcancel
    simp [GameInstall.close, hcancel]

theorem Stage.waits_eq_some {stage : Stage} {wait : Wait} (h : stage.waits = some wait) :
    stage = .waiting wait ∨ stage = .waitingCancel wait := by
  cases stage <;> simp only [Stage.waits, Option.some.injEq, reduceCtorEq] at h <;> subst h
  · exact .inl rfl
  · exact .inr rfl

/-- Only a job that waits offers to go on, unless it was cancelled. -/
theorem Fits.waits (h : Fits calm s job) (hcancel : s.shared.cancel = false ∨ calm)
    (hshown : job.canResume = true ∨ job.canRetry = true) :
    ∃ wait, s.stage.waits = some wait ∧ s.shared.pause = true ∧ job.canPause = false ∧
      (job.canResume = true → wait = .paused) ∧ (job.canRetry = true → wait ≠ .paused) := by
  have hhidden : ¬ Hidden job := by
    intro hhidden
    rw [hhidden.1, hhidden.2] at hshown
    simp at hshown
  have hwait : ∀ wait : Wait, (Idle s ∧ job.canPause = false ∧
      job.canResume = (s.shared.pause && wait == .paused) ∧
      job.canRetry = (s.shared.pause && wait != .paused) ∧ Within s (2, 2) ∧
      (s.shared.pause = false → Within s (0, 0))) → s.shared.pause = true ∧ job.canPause = false ∧
      (job.canResume = true → wait = .paused) ∧ (job.canRetry = true → wait ≠ .paused) := by
    intro wait ⟨_, hpause, hresume, hretry, _⟩
    rw [hresume, hretry] at hshown ⊢
    cases hflag : s.shared.pause with
    | false => simp [hflag] at hshown
    | true => simp [hpause]
  unfold Fits at h
  cases hstage : s.stage with
  | waiting wait =>
    rw [hstage] at h
    exact ⟨wait, rfl, hwait wait h⟩
  | waitingCancel wait =>
    rw [hstage] at h
    exact ⟨wait, rfl, hwait wait h⟩
  | closing result =>
    rw [hstage] at h
    obtain h | ⟨h, hloud⟩ := h.2.1
    · exact absurd h hhidden
    · rw [hcancel.resolve_right hloud] at h
      cases h
  | withdraw result =>
    rw [hstage] at h
    obtain h | ⟨h, hloud⟩ := h.2.1
    · exact absurd h hhidden
    · rw [hcancel.resolve_right hloud] at h
      cases h
  | poll cli exited =>
    rw [hstage] at h
    cases exited <;> exact absurd h.2.1 hhidden
  | _ =>
    rw [hstage] at h
    exact absurd h.2.1 hhidden

theorem Fits.not_waiting (h : Fits calm s job) (hpause : job.canPause = true) :
    s.stage.waits = none := by
  unfold Fits at h
  cases hstage : s.stage with
  | waiting wait =>
    rw [hstage] at h
    rw [h.2.1] at hpause
    cases hpause
  | waitingCancel wait =>
    rw [hstage] at h
    rw [h.2.1] at hpause
    cases hpause
  | _ => rfl

/-- A request is accepted in its phase only. -/
theorem Accepts.inPhase {id operation : String} (h : Accepts s.shared id operation job)
    (hfits : Fits calm s job) : InPhase s operation := by
  have hoffers := h.offers
  unfold Job.offers at hoffers
  by_cases hpause : operation = "pause"
  · rw [if_pos hpause] at hoffers
    refine .inl ⟨hpause, hfits.not_waiting hoffers, ?_⟩
    rw [h.found]
    exact hoffers
  · rw [if_neg hpause] at hoffers
    by_cases hresume : operation = "resume"
    · rw [if_pos hresume] at hoffers
      obtain ⟨wait, hwait, hflag, -, hpaused, -⟩ := hfits.waits (.inl h.notCancelled) (.inl hoffers)
      rw [hpaused hoffers] at hwait
      exact .inr (.inl ⟨hresume, hwait, hflag⟩)
    · rw [if_neg hresume] at hoffers
      by_cases hretry : operation = "retry"
      · rw [if_pos hretry, Bool.and_eq_true] at hoffers
        obtain ⟨wait, hwait, hflag, -, -, hfailed⟩ :=
          hfits.waits (.inl h.notCancelled) (.inr hoffers.1)
        cases wait with
        | paused => exact absurd rfl (hfailed hoffers.1)
        | retry failed => exact .inr (.inr ⟨hretry, failed, hwait, hflag⟩)
      · rw [if_neg hretry] at hoffers
        cases hoffers

/-- A request is refused and changes nothing, or it is accepted. -/
theorem request_cases (id operation : String) (s : System) :
    (request id operation s = s ∧ ∀ job, ¬ Accepts s.shared id operation job) ∨
      (request id operation s = { s with shared := s.shared.acted operation }.log
        (.accepted operation) ∧ ∃ job, Accepts s.shared id operation job) := by
  unfold GameInstall.request
  rw [downloadAction_eq]
  cases h : checked id operation s.shared with
  | error e =>
    refine .inl ⟨rfl, ?_⟩
    intro job haccepts
    rw [checked_eq_ok.mpr ⟨job, haccepts⟩] at h
    cases h
  | ok u => exact .inr ⟨rfl, checked_eq_ok.mp h⟩

theorem Own.acted {operation : String} (h : Own r s.shared job) :
    Own r (s.shared.acted operation) (job.act operation) := by
  refine ⟨h.active, ?_, h.id, ?_⟩
  · unfold Shared.acted
    rw [h.found]
    rfl
  · unfold Job.act
    dsimp only
    by_cases hretry : operation = "retry"
    · rw [if_pos hretry]
      exact .inl rfl
    · rw [if_neg hretry]
      exact h.state

/-- A pause leaves the worker where it is. -/
theorem Fits.pause (h : Fits calm s job) (hpause : job.canPause = true)
    (hcalm : calm → ∀ result, s.stage ≠ .withdraw result) :
    Fits calm ({ s with shared := s.shared.acted "pause" }.log (.accepted "pause"))
      (job.act "pause") := by
  have hnever : ¬ job.canPause = false := by
    rw [hpause]
    exact nofun
  have hlogged : ∀ budget, Within s budget →
      Within ({ s with shared := s.shared.acted "pause" }.log (.accepted "pause")) budget :=
    fun budget hwithin => Within.log (s := { s with shared := s.shared.acted "pause" }) hwithin
      (by decide) rfl rfl
  unfold Fits at h ⊢
  cases hstage : s.stage with
  | poll cli exited =>
    rw [hstage] at h
    cases exited <;> exact ⟨h.1, ⟨rfl, rfl⟩, hlogged _ h.2.2⟩
  | withdraw result =>
    rw [hstage] at h
    have hloud : calm → (s.shared.acted "pause").pause = false := fun h => absurd hstage (hcalm h _)
    exact ⟨h.1, .inl ⟨rfl, rfl⟩, hlogged _ h.2.2.1, h.2.2.2.1, hloud⟩
  | _ =>
    rw [hstage] at h
    -- the stages in which nothing is offered, and those that a pause leaves alone
    first
      | exact absurd h.2.1 hnever
      | exact absurd h.2.2.2.1 hnever
      | exact absurd h.2.2.2.2.1 hnever
      | exact ⟨h.1, ⟨rfl, rfl⟩, hlogged _ h.2.2⟩
      | exact ⟨h.1, ⟨rfl, rfl⟩, hlogged _ h.2.2.1, h.2.2.2⟩
      | exact ⟨h.1, ⟨rfl, rfl⟩, hlogged _ h.2.2.1, rfl⟩
      | exact ⟨h.1, ⟨rfl, rfl⟩, hlogged _ h.2.2.1, h.2.2.2.1, fun _ _ => rfl⟩
      | exact ⟨h.1, .inl ⟨rfl, rfl⟩, hlogged _ h.2.2.1, h.2.2.2⟩

theorem pause_of_goesOn {operation : String} (h : goesOn operation = true) :
    (operation == "pause") = false := by
  rw [goesOn, Bool.or_eq_true, beq_iff_eq, beq_iff_eq] at h
  obtain rfl | rfl := h <;> decide

/-- A request to go on clears the flag of the wait, and counting begins anew. -/
theorem Fits.goOn {operation : String} {wait : Wait} (h : Fits calm s job)
    (hoperation : goesOn operation = true) (hwait : s.stage.waits = some wait) :
    Fits calm ({ s with shared := s.shared.acted operation }.log (.accepted operation))
      (job.act operation) := by
  have hflag : (s.shared.acted operation).pause = false := pause_of_goesOn hoperation
  have hwithin : Within ({ s with shared := s.shared.acted operation }.log (.accepted operation))
      (0, 0) := by
    have hrequest : isRequest (.accepted operation) = true := hoperation
    exact ⟨(signIns_request hrequest).le, (downloads_request hrequest).le⟩
  obtain hstage | hstage := Stage.waits_eq_some hwait
  · unfold Fits at h ⊢
    simp only [log_stage, log_shared, hstage, hflag] at h ⊢
    exact ⟨h.1, rfl, rfl, rfl, hwithin.fresh, fun _ => hwithin⟩
  · unfold Fits at h ⊢
    simp only [log_stage, log_shared, hstage, hflag] at h ⊢
    exact ⟨h.1, rfl, rfl, rfl, hwithin.fresh, fun _ => hwithin⟩

theorem Inv.request {id operation : String} (h : Inv calm r s)
    (hcalm : calm → Orderly s (.request id operation)) : Inv calm r (request id operation s) := by
  obtain ⟨job, hown, h⟩ := h
  obtain ⟨heq, -⟩ | ⟨heq, job', haccepts⟩ := request_cases id operation s
  · rw [heq]
    exact ⟨job, hown, h⟩
  · have hjob : job' = job := Option.some.inj (haccepts.found.symm.trans hown.found)
    subst hjob
    rw [heq]
    refine ⟨job'.act operation, hown.acted, ?_⟩
    obtain ⟨rfl, -, hpause⟩ | ⟨rfl, hwait, -⟩ | ⟨rfl, failed, hwait, -⟩ := haccepts.inPhase h
    · rw [hown.found] at hpause
      exact h.pause hpause fun h => hcalm h (checked_eq_ok.mpr ⟨job', haccepts⟩) rfl
    · exact h.goOn (by decide) hwait
    · exact h.goOn (by decide) hwait

theorem Inv.next {action : Action} (h : Inv calm r s) (hcalm : calm → Orderly s action) :
    Inv calm r (next r s action) := by
  cases action with
  | work outcome late => exact h.advance hcalm
  | exit code => exact h.exit
  | request id operation => exact h.request hcalm
  | cancel id => exact h.cancel
  | close => exact h.close

theorem Started.inv (h : Started r s) : Inv calm r s := by
  obtain ⟨job, hactive, hfound, hid, hstate, hpause, hresume, hretry⟩ := h.shared
  refine ⟨job, ⟨hactive, hfound, hid, .inl hstate⟩, ?_⟩
  have hflag := h.pause
  rw [h.fresh]
  exact ⟨⟨nofun, rfl⟩, ⟨hresume, hretry⟩, ⟨Nat.le_refl 0, Nat.le_refl 0⟩, hpause, hflag⟩

theorem Runs.inv {meets : System → Action → Prop} (h : Runs meets r s)
    (hcalm : calm → ∀ s action, meets s action → Orderly s action) : Inv calm r s := by
  induction h with
  | start h => exact h.inv
  | step _ hmeets ih => exact ih.next fun h => hcalm h _ _ hmeets

/-! ## The history -/

theorem history_returnedCli (cli : Cli) (outcome : Except WorkError Exit) :
    (returnedCli r cli outcome s).history = s.history := by
  cases cli with
  | streaming =>
    cases outcome with
    | error e => rfl
    | ok exit => cases exit <;> rfl
  | login place =>
    cases outcome with
    | error e => rfl
    | ok exit =>
      cases exit with
      | paused => rfl
      | code code =>
        change (loginReturned r place (loginResult code) _).history = _
        cases loginResult code with
        | error e => rfl
        | ok u => cases place <;> rfl

/-- A step of the worker adds an event at most, and runs the CLI only where it was verified. -/
theorem history_advance (outcome : Except WorkError Unit) (late : Bool) (h : Inv calm r s) :
    (advance r outcome late s).history = s.history ∨
      ∃ event, (advance r outcome late s).history = event :: s.history ∧
        Permitted s.history event := by
  obtain ⟨job, hown, h⟩ := h
  unfold Fits at h
  unfold advance
  cases hstage : s.stage with
  | checks => cases outcome <;> exact .inl rfl
  | package =>
    dsimp only
    cases r.packageArgs <;> exact .inl rfl
  | verify cli =>
    cases outcome with
    | error e => cases cli <;> exact .inl rfl
    | ok u => cases cli <;> exact .inr ⟨_, rfl, trivial⟩
  | spawn cli =>
    rw [hstage] at h
    cases outcome with
    | error e => exact .inl rfl
    | ok u => exact .inr ⟨_, rfl, h.2.2.2⟩
  | poll cli exited =>
    dsimp only
    by_cases hcancel : s.shared.cancel = true
    · rw [if_pos hcancel]
      exact .inl rfl
    · rw [if_neg hcancel]
      cases outcome with
      | error e => exact .inl rfl
      | ok u =>
        cases exited with
        | none => exact .inl rfl
        | some code => exact .inr ⟨_, rfl, trivial⟩
  | tryWait cli =>
    cases outcome with
    | error e => exact .inl rfl
    | ok u =>
      dsimp only
      cases s.child with
      | none => exact .inl rfl
      | some child => cases child <;> exact .inl rfl
  | look cli =>
    dsimp only
    by_cases hpaused : (pausable r cli && s.shared.pause) = true
    · rw [if_pos hpaused]
      cases outcome <;> exact .inl rfl
    · rw [if_neg hpaused]
      by_cases hlate : (cli != .streaming && late) = true
      · rw [if_pos hlate]
        exact .inl rfl
      · rw [if_neg hlate]
        exact .inl rfl
  | ended cli result => exact .inl (history_returnedCli cli result)
  | waiting wait =>
    dsimp only
    by_cases hflag : s.shared.pause = true
    · rw [if_pos hflag]
      exact .inl rfl
    · rw [if_neg hflag]
      cases wait <;> exact .inr ⟨_, rfl, trivial⟩
  | waitingCancel wait =>
    dsimp only
    by_cases hcancel : s.shared.cancel = true
    · rw [if_pos hcancel]
      exact .inr ⟨_, rfl, trivial⟩
    · rw [if_neg hcancel]
      exact .inl rfl
  | again failed =>
    cases failed with
    | download => exact .inl rfl
    | authentication place => cases place <;> exact .inl rfl
  | validate =>
    cases outcome with
    | error e => exact .inl rfl
    | ok u => exact .inr ⟨_, rfl, trivial⟩
  | _ => exact .inl rfl

/-- Whatever happens adds an event at most. -/
theorem history_next (action : Action) (h : Inv calm r s) :
    (next r s action).history = s.history ∨
      ∃ event, (next r s action).history = event :: s.history ∧ Permitted s.history event := by
  cases action with
  | work outcome late => exact history_advance outcome late h
  | exit code => exact .inl (exit_same code s).2.2
  | request id operation =>
    obtain ⟨heq, -⟩ | ⟨heq, -⟩ := request_cases id operation s
    · exact .inl (congrArg System.history heq)
    · exact .inr ⟨_, congrArg System.history heq, trivial⟩
  | cancel id => exact .inl rfl
  | close => exact .inl rfl

theorem Runs.permitted {meets : System → Action → Prop} (h : Runs meets r s) :
    EachStep Permitted s.history := by
  induction h with
  | start h =>
    rw [h.fresh]
    trivial
  | step h _ ih =>
    have hinv : Inv False r _ := h.inv False.elim
    obtain heq | ⟨event, heq, hpermitted⟩ := history_next _ hinv
    · rw [heq]
      exact ih
    · rw [heq]
      exact ⟨hpermitted, ih⟩

/-! ## A request is answered -/

/-- The wait is over once the worker looks at the flag. -/
def Answering (s : System) : Prop := s.stage.waits.isSome = true ∧ s.shared.pause = false

theorem runAll_history (actions : List Action) (h : Inv False r s) :
    ∃ later, (runAll r s actions).history = later ++ s.history := by
  induction actions generalizing s with
  | nil => exact ⟨[], rfl⟩
  | cons action actions ih =>
    obtain ⟨later, hlater⟩ := ih (s := next r s action) (h.next False.elim)
    obtain heq | ⟨event, heq, -⟩ := history_next action h
    · exact ⟨later, hlater.trans (by rw [heq])⟩
    · exact ⟨later ++ [event], hlater.trans (by rw [heq, List.append_assoc]; rfl)⟩

/-- No request is accepted once the worker was told to go on. -/
theorem Answering.request (h : Answering s) (hinv : Inv False r s) (id operation : String) :
    request id operation s = s := by
  obtain ⟨job, hown, hfits⟩ := hinv
  obtain ⟨heq, -⟩ | ⟨-, job', haccepts⟩ := request_cases id operation s
  · exact heq
  · have hjob : job' = job := Option.some.inj (haccepts.found.symm.trans hown.found)
    subst hjob
    obtain ⟨-, hwait, -⟩ | ⟨-, -, hflag⟩ | ⟨-, failed, -, hflag⟩ := haccepts.inPhase hfits
    · rw [Answering, hwait] at h
      cases h.1
    · rw [h.2] at hflag
      cases hflag
    · rw [h.2] at hflag
      cases hflag

theorem cancel_pause (id : String) (h : Inv calm r s) :
    (stateOf (cancel id s.shared)).pause = s.shared.pause := by
  obtain ⟨job, hown, -⟩ := h
  obtain heq | heq := hown.cancel_cases id
  · rw [heq]
  · rw [heq]

/-- Whatever is not a step of the worker leaves it where it is. -/
theorem Answering.other {action : Action} (h : Answering s) (hinv : Inv False r s)
    (hother : workSteps [action] = 0) :
    (next r s action).stage = s.stage ∧ (next r s action).shared.pause = false ∧
      (next r s action).history = s.history := by
  cases action with
  | work outcome late => cases hother
  | exit code =>
    obtain ⟨hstage, hshared, hhistory⟩ := exit_same code s
    exact ⟨hstage, (congrArg Shared.pause hshared).trans h.2, hhistory⟩
  | request id operation =>
    change (GameInstall.request id operation s).stage = s.stage ∧
      (GameInstall.request id operation s).shared.pause = false ∧
      (GameInstall.request id operation s).history = s.history
    rw [h.request hinv id operation]
    exact ⟨rfl, h.2, rfl⟩
  | cancel id => exact ⟨rfl, (cancel_pause id hinv).trans h.2, rfl⟩
  | close => exact ⟨rfl, h.2, rfl⟩

theorem workSteps_cons (action : Action) (actions : List Action) :
    workSteps (action :: actions) = workSteps [action] + workSteps actions := by
  unfold workSteps
  rw [List.countP_cons, List.countP_singleton]
  omega

/-- The worker takes a step, or something else happens. -/
theorem work_or_other (action : Action) :
    (∃ outcome late, action = .work outcome late) ∨ workSteps [action] = 0 := by
  cases action with
  | work outcome late => exact .inl ⟨outcome, late, rfl⟩
  | exit code => exact .inr rfl
  | request id operation => exact .inr rfl
  | cancel id => exact .inr rfl
  | close => exact .inr rfl

/-- A worker that has left its wait keeps that in its history. -/
theorem left_of_logged {s' : System} (actions : List Action) (h : Inv False r s')
    (hleft : s'.history = .left :: s.history) :
    ∃ later, (runAll r s' actions).history = later ++ s.history ∧ .left ∈ later := by
  obtain ⟨later, hlater⟩ := runAll_history actions h
  refine ⟨later ++ [.left], ?_, ?_⟩
  · rw [hlater, hleft, List.append_assoc]
    rfl
  · exact List.mem_append_right later (List.mem_singleton_self _)

theorem left_of_waiting {wait : Wait} {actions : List Action} (hinv : Inv False r s)
    (hstage : s.stage = .waiting wait) (hflag : s.shared.pause = false)
    (hwork : 1 ≤ workSteps actions) :
    ∃ later, (runAll r s actions).history = later ++ s.history ∧ .left ∈ later := by
  induction actions generalizing s with
  | nil => cases hwork
  | cons action actions ih =>
    obtain ⟨outcome, late, rfl⟩ | hother := work_or_other action
    · apply left_of_logged actions (hinv.next False.elim)
      change (advance r outcome late s).history = _
      unfold advance
      rw [hstage]
      dsimp only
      rw [hflag]
      cases wait <;> rfl
    · have hanswering : Answering s := ⟨by rw [hstage]; rfl, hflag⟩
      obtain ⟨hstage', hflag', hhistory⟩ := hanswering.other hinv hother
      rw [workSteps_cons, hother, Nat.zero_add] at hwork
      obtain ⟨later, hlater, hleft⟩ :=
        ih (hinv.next False.elim) (hstage'.trans hstage) hflag' hwork
      exact ⟨later, hlater.trans (by rw [hhistory]), hleft⟩

theorem left_of_waitingCancel {wait : Wait} {actions : List Action} (hinv : Inv False r s)
    (hstage : s.stage = .waitingCancel wait) (hflag : s.shared.pause = false)
    (hwork : 2 ≤ workSteps actions) :
    ∃ later, (runAll r s actions).history = later ++ s.history ∧ .left ∈ later := by
  induction actions generalizing s with
  | nil => cases hwork
  | cons action actions ih =>
    rw [workSteps_cons] at hwork
    obtain ⟨outcome, late, rfl⟩ | hother := work_or_other action
    · have hinv' : Inv False r (next r s (.work outcome late)) := hinv.next False.elim
      have hnext : next r s (.work outcome late) =
          if s.shared.cancel then (s.log .left).goto (.closing (.error .cancelled))
          else s.goto (.waiting wait) := by
        unfold next advance
        rw [hstage]
      by_cases hcancel : s.shared.cancel = true
      · rw [if_pos hcancel] at hnext
        exact left_of_logged actions hinv' (congrArg System.history hnext)
      · rw [if_neg hcancel] at hnext
        have hrest : 1 ≤ workSteps actions := by
          change 2 ≤ 1 + workSteps actions at hwork
          omega
        change ∃ later, (runAll r (next r s (.work outcome late)) actions).history = _ ∧ _
        rw [hnext] at hinv' ⊢
        exact left_of_waiting hinv' rfl hflag hrest
    · have hanswering : Answering s := ⟨by rw [hstage]; rfl, hflag⟩
      obtain ⟨hstage', hflag', hhistory⟩ := hanswering.other hinv hother
      rw [hother, Nat.zero_add] at hwork
      obtain ⟨later, hlater, hleft⟩ :=
        ih (hinv.next False.elim) (hstage'.trans hstage) hflag' hwork
      exact ⟨later, hlater.trans (by rw [hhistory]), hleft⟩

theorem Inv.answered {id operation : String} (hinv : Inv False r s)
    (hoperation : goesOn operation = true) : Answered r s id operation := by
  intro hlogged actions hwork
  have hinv' : Inv False r (GameInstall.request id operation s) := hinv.request False.elim
  obtain ⟨job, hown, hfits⟩ := hinv
  obtain ⟨heq, -⟩ | ⟨heq, job', haccepts⟩ := request_cases id operation s
  · rw [heq] at hlogged
    exact absurd (congrArg List.length hlogged) (by simp)
  · have hjob : job' = job := Option.some.inj (haccepts.found.symm.trans hown.found)
    subst hjob
    have hflag : (GameInstall.request id operation s).shared.pause = false := by
      rw [heq]
      exact pause_of_goesOn hoperation
    have hwaits : ∃ wait, (GameInstall.request id operation s).stage.waits = some wait := by
      rw [heq]
      obtain ⟨rfl, -⟩ | ⟨-, hwait, -⟩ | ⟨-, failed, hwait, -⟩ := haccepts.inPhase hfits
      · exact absurd hoperation (by decide)
      · exact ⟨_, hwait⟩
      · exact ⟨_, hwait⟩
    obtain ⟨wait, hwait⟩ := hwaits
    rw [← hlogged]
    obtain hstage | hstage := Stage.waits_eq_some hwait
    · exact left_of_waiting hinv' hstage hflag (by omega)
    · exact left_of_waitingCancel hinv' hstage hflag hwork

/-! ## Supervision -/

/-- At most two processes of each kind, and one at a time. -/
theorem Fits.bounds (h : Fits calm s job) : s.running ≤ 1 ∧ Within s (2, 2) := by
  have hidle : Idle s → s.running ≤ 1 := fun hidle => hidle.2.le.trans (Nat.zero_le 1)
  have hbusy : Busy s → s.running ≤ 1 := by
    intro hbusy
    obtain ⟨-, h⟩ | ⟨-, h⟩ := hbusy
    · exact h.le
    · exact h.le.trans (Nat.zero_le 1)
  unfold Fits at h
  cases hstage : s.stage with
  | poll cli exited =>
    rw [hstage] at h
    cases exited with
    | none => exact ⟨hbusy h.1, h.2.2.after⟩
    | some code => exact ⟨hidle h.1, h.2.2.after⟩
  | tryWait cli =>
    rw [hstage] at h
    exact ⟨hbusy h.1, h.2.2.after⟩
  | look cli =>
    rw [hstage] at h
    exact ⟨hbusy h.1, h.2.2.after⟩
  | ended cli outcome =>
    rw [hstage] at h
    exact ⟨hidle h.1, h.2.2.1.after⟩
  | waiting wait =>
    rw [hstage] at h
    exact ⟨hidle h.1, h.2.2.2.2.1⟩
  | waitingCancel wait =>
    rw [hstage] at h
    exact ⟨hidle h.1, h.2.2.2.2.1⟩
  | login place =>
    rw [hstage] at h
    exact ⟨hidle h.1, h.2.2.before⟩
  | prompt place =>
    rw [hstage] at h
    exact ⟨hidle h.1, h.2.2.before⟩
  | verify cli =>
    rw [hstage] at h
    exact ⟨hidle h.1, h.2.2.before⟩
  | loop =>
    rw [hstage] at h
    exact ⟨hidle h.1, h.2.2.before⟩
  | fail failed e =>
    rw [hstage] at h
    exact ⟨hidle h.1, h.2.2⟩
  | setPause failed e =>
    rw [hstage] at h
    exact ⟨hidle h.1, h.2.2⟩
  | _ =>
    rw [hstage] at h
    first
      | exact ⟨hidle h.1, h.2.2.1.fresh⟩
      | exact ⟨hidle h.1, h.2.2.1.before⟩
      | exact ⟨hidle h.1, h.2.2.1⟩

theorem Inv.refused {id operation : String} (h : Inv False r s)
    (hwrong : id ≠ r.ctx ∨ s.shared.cancel = true ∨ ¬ InPhase s operation) :
    GameInstall.request id operation s = s := by
  obtain ⟨job, hown, hfits⟩ := h
  obtain ⟨heq, -⟩ | ⟨-, job', haccepts⟩ := request_cases id operation s
  · exact heq
  · have hjob : job' = job := Option.some.inj (haccepts.found.symm.trans hown.found)
    subst hjob
    obtain hid | hcancel | hphase := hwrong
    · obtain ⟨active, hactive, -, hown'⟩ := haccepts.own
      rw [hown.active, Option.some.injEq] at hactive
      rw [← hactive] at hown'
      exact absurd hown'.symm hid
    · rw [haccepts.notCancelled] at hcancel
      cases hcancel
    · exact absurd (haccepts.inPhase hfits) hphase

theorem Inv.stale {id : String} (h : Inv False r s) (hid : id ≠ r.ctx) :
    GameInstall.next r s (.cancel id) = s := by
  obtain ⟨job, hown, -⟩ := h
  have hother : (r.ctx == id) = false := beq_false_of_ne hid.symm
  have hswitching : s.shared.switching id = false := by
    unfold Shared.switching
    rw [hown.found, Option.any_some, hown.id, hother, Bool.false_and]
  have hprepared : s.shared.prepared id = false := by
    unfold Shared.prepared
    rw [hown.found, Option.any_some, hown.id, hother, Bool.false_and, Bool.false_and,
      Bool.false_and]
  have hreserved : s.shared.reserved id = false := by
    unfold Shared.reserved
    rw [hown.active, Option.any_some, hother, Bool.and_false]
  have hsame : stateOf (GameInstall.cancel id s.shared) = s.shared := by
    rw [cancel_eq, hswitching, hprepared, hreserved]
    rfl
  change { s with shared := stateOf (GameInstall.cancel id s.shared) } = s
  rw [hsame]

theorem Runs.supervised {meets : System → Action → Prop} (h : Runs meets r s) : Supervised r s := by
  have hinv : Inv False r s := h.inv False.elim
  obtain ⟨job, hown, hfits⟩ := hinv
  have hbounds := hfits.bounds
  constructor
  · exact h.permitted
  · exact hbounds.1
  · exact hbounds.2.1
  · exact hbounds.2.2
  · intro id operation hoperation
    exact Inv.answered ⟨job, hown, hfits⟩ hoperation
  · intro id operation hwrong
    exact Inv.refused ⟨job, hown, hfits⟩ hwrong
  · intro id hid
    exact Inv.stale ⟨job, hown, hfits⟩ hid
  · intro hstage
    unfold Fits at hfits
    rw [hstage] at hfits
    exact hfits.2.2.2.1 rfl

theorem Runs.presented (h : Runs Orderly r s) : Presented s := by
  have hinv : Inv True r s := h.inv fun _ _ _ horderly => horderly
  obtain ⟨job, hown, hfits⟩ := hinv
  constructor
  · intro hshown
    rw [hown.found, Option.any_some, Bool.or_eq_true] at hshown
    obtain ⟨wait, hwait, hflag, -⟩ := hfits.waits (.inr trivial) hshown
    rw [hwait]
    exact ⟨rfl, hflag⟩
  · intro result hstage
    unfold Fits at hfits
    rw [hstage] at hfits
    obtain ⟨-, hhidden, -, -, hpause, hflag⟩ := hfits
    rw [hown.found, Option.all_some, hpause, hhidden.1, hhidden.2]
    exact ⟨hflag trivial, rfl⟩

/-! ## Runs of the worker -/

theorem Runs.runAll (actions : List Action) (h : Runs (fun _ _ => True) r s) :
    Runs (fun _ _ => True) r (runAll r s actions) := by
  induction actions generalizing s with
  | nil => exact h
  | cons action actions ih => exact ih (h.step trivial)

/-- A download that may be resumed, for a user who is signed in. -/
def plainRequest : Request where
  ctx := "job"
  features := ["streaming-resume-files-v1"]
  signIn := false
  expectedPackage := none

def plainStart : System where
  shared :=
    { active := some ⟨"setup", "job"⟩
      job := some { id := "job", mode := .install, state := .installing, phase := .bootstrap } }

theorem plainStart_started : Started plainRequest plainStart :=
  ⟨⟨_, rfl, rfl, rfl, rfl, rfl, rfl, rfl⟩, rfl, rfl⟩

def works (n : Nat) : List Action := List.replicate n (.work (.ok ()) false)

/-- The CLI is started, and exits with a code; the worker has seen that. -/
def runTo (code : Int) (steps : Nat) : List Action := works steps ++ [.exit code] ++ works 3

/-- A download is supervised in every run; and where no pause comes between the last two writes of
the worker and no wait is cancelled, it offers to go on only while it waits, and leaves nothing
behind. -/
theorem download_supervised (h : Runs (fun _ _ => True) r s) :
    Supervised r s ∧ (Runs Orderly r s → Presented s) := ⟨h.supervised, Runs.presented⟩

/-- The CLI fails, the user retries, and then the download ends well. -/
def retried42 : List Action :=
  runTo 42 10 ++ works 4 ++ [.request "job" "retry"] ++ runTo 0 10 ++ works 5

theorem download_supervised_retried :
    (Supervised plainRequest (runAll plainRequest plainStart retried42) ∧
      (Runs Orderly plainRequest (runAll plainRequest plainStart retried42) →
        Presented (runAll plainRequest plainStart retried42))) ∧
      (runAll plainRequest plainStart retried42).history =
        [.validated, .exited .streaming 0, .spawned .streaming, .verified, .left,
          .accepted "retry", .exited .streaming 42, .spawned .streaming, .verified] := by
  apply And.intro
  · exact download_supervised ((Runs.start plainStart_started).runAll retried42)
  · decide +kernel

/-- The download ends well, and a pause is accepted after the flag was reset. -/
def pausedLate : List Action := runTo 0 10 ++ works 4 ++ [.request "job" "pause"] ++ works 1

/-- The flag is still set when the download has returned. -/
theorem download_leaves_pause :
    ¬ ∀ r s, Runs (fun _ _ => True) r s → Supervised r s ∧ Presented s := by
  intro h
  have hclean := (h _ _ ((Runs.start plainStart_started).runAll pausedLate)).2.clean (.ok ()) rfl
  have hflag : (runAll plainRequest plainStart pausedLate).shared.pause = true := by
    decide +kernel
  rw [hflag] at hclean
  cases hclean.1

/-- A failed download is cancelled while the worker waits, and still offers to retry when the worker
has reset the flag. -/
example :
    let s := runAll plainRequest plainStart
      (runTo 42 10 ++ works 5 ++ [.cancel "job"] ++ works 2)
    s.stage.waits = none ∧ s.shared.pause = false ∧ s.shared.job.any (·.canRetry) = true := by
  decide +kernel

end Flightdeck.GameInstall
