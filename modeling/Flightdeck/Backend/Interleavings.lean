import Flightdeck.Backend.Coordinator

/-!
# Interleavings of the coordinator

Requests, workers, continuations and cancellations in any order, with the workers that have not ended
and the history of what was continued, committed and cancelled.
-/

namespace Flightdeck.Backend

open Foundation

/-! ## Jobs and their fields -/

theorem Job.extend_at (job : Job) (rows : List (String × Value)) (key : String) :
    job.extend rows key = job key ∨ ∃ row ∈ rows, row.1 = key ∧ job.extend rows key = row.2 := by
  induction rows generalizing job with
  | nil => exact .inl rfl
  | cons row rows ih =>
    change (Job.extend (job.set row.1 row.2) rows) key = _ ∨
      ∃ r ∈ row :: rows, r.1 = key ∧ (Job.extend (job.set row.1 row.2) rows) key = r.2
    rcases ih (job.set row.1 row.2) with h | ⟨r, hr, hkey, h⟩
    · by_cases hrow : row.1 = key
      · right
        refine ⟨row, List.mem_cons_self, hrow, ?_⟩
        rw [h, ← hrow, Job.set_same]
      · left
        rw [h, Job.set_other _ _ (Ne.symm hrow)]
    · exact .inr ⟨r, List.mem_cons_of_mem _ hr, hkey, h⟩

theorem Job.extend_other {job : Job} {rows : List (String × Value)} {key : String}
    (h : ∀ row ∈ rows, row.1 ≠ key) : job.extend rows key = job key := by
  rcases job.extend_at rows key with hsame | ⟨row, hrow, hkey, _⟩
  · exact hsame
  · exact absurd hkey (h row hrow)

/-- The rows leave the job's id alone and do not make it ready. -/
structure Plain (id : Value) (rows : List (String × Value)) : Prop where
  id : ∀ row ∈ rows, row.1 = "id" → row.2 = id
  state : ∀ row ∈ rows, row.1 = "state" → row.2.is "ready" = false

theorem extend_id {job : Job} {rows : List (String × Value)}
    (h : ∀ row ∈ rows, row.1 = "id" → row.2 = job "id") : job.extend rows "id" = job "id" := by
  rcases job.extend_at rows "id" with hsame | ⟨row, hrow, hkey, hvalue⟩
  · exact hsame
  · rw [hvalue, h row hrow hkey]

theorem isReady_extend {job : Job} {rows : List (String × Value)}
    (h : ∀ row ∈ rows, row.1 = "state" → row.2.is "ready" = false)
    (hready : isReady (job.extend rows) = true) : isReady job = true := by
  unfold isReady at hready ⊢
  rcases job.extend_at rows "state" with hsame | ⟨row, hrow, hkey, hvalue⟩
  · rw [← hsame]
    exact hready
  · rw [hvalue, h row hrow hkey] at hready
    cases hready

theorem Value.eq_of_is {value : Value} {text : String} (h : value.is text = true) :
    value = .string text := by
  cases value with
  | string s => rw [eq_of_beq h]
  | _ => cases h

theorem Value.is_inj {value : Value} {text other : String} (h : value.is text = true)
    (h' : value.is other = true) : text = other := by
  rw [Value.eq_of_is h] at h'
  exact eq_of_beq h'

/-- What becomes of the jobs when nothing is prepared: none gets another id, or ready. -/
def Tame (before after : String → Option Job) : Prop :=
  ∀ kind job, after kind = some job → ∃ old, before kind = some old ∧ job "id" = old "id" ∧
    (isReady job = true → isReady old = true)

theorem Tame.refl (jobs : String → Option Job) : Tame jobs jobs :=
  fun _ job h => ⟨job, h, rfl, id⟩

theorem Tame.edit {s : State} {kind : String} {edit : Job → Job}
    (h : ∀ job, s.jobs kind = some job → edit job "id" = job "id" ∧
      (isReady (edit job) = true → isReady job = true)) :
    Tame s.jobs (editJob kind edit s).jobs := by
  intro k job hjob
  change Function.update s.jobs kind ((s.jobs kind).map edit) k = some job at hjob
  by_cases hk : k = kind
  · subst hk
    rw [Function.update_self] at hjob
    obtain ⟨old, hold, rfl⟩ := Option.map_eq_some_iff.mp hjob
    exact ⟨old, hold, h old hold⟩
  · rw [Function.update_of_ne hk] at hjob
    exact ⟨job, hjob, rfl, id⟩

theorem Tame.extend {s : State} {kind : String} {rows : List (String × Value)}
    (h : ∀ job, s.jobs kind = some job → Plain (job "id") rows) :
    Tame s.jobs (editJob kind (fun job => job.extend rows) s).jobs :=
  .edit fun job hjob => ⟨extend_id (h job hjob).id, isReady_extend (h job hjob).state⟩

/-! ## The interleavings -/

/-- What the owner of a context does with it: a task does its job at once, a check prepares a job
and keeps the reservation if it `retain`s it, a preview prepares a removal that it publishes itself,
and an install goes on with a prepared job. -/
inductive Work where
  | task
  | check (retain : Bool)
  | preview
  | install
  deriving DecidableEq

/-- The last argument of `finish`. -/
def Work.retains : Work → Bool
  | .check retain => retain
  | _ => false

structure Worker where
  ctx : Context
  work : Work
  deriving DecidableEq

/-- `checking` marks a cancellation that was accepted while the job was still checked for an update
by a worker that gives its reservation back. -/
inductive Event where
  | continued (id : String)
  | committed (id : String)
  | cancelled (id : String) (checking : Bool)
  deriving DecidableEq

structure System where
  state : State
  workers : List Worker
  /-- the ids that `Uuid::new_v4` has returned -/
  uuids : List String
  /-- newest first -/
  history : List Event

inductive Action where
  | request (world : World) (kind operation : String) (needsRuntime : Bool) (work : Work)
  | update (worker : Worker) (patch : List (String × Value))
  | finish (world : World) (worker : Worker) (outcome : Outcome)
  | publish (worker : Worker) (result : List (String × Value))
  | beginCommit (worker : Worker) (phase message : String)
  | activate (worker : Worker) (root : Except Error String) (committed : Except Error Unit)
  | continuation (world : World) (kind id : String)
  | cancel (kind id : String)
  /-- the flag of the reservation is set without `cancel`, as `fenix` and `steam_fenix` do -/
  | interrupt
  | refresh (world : World)
  | close (beforeStart : Bool)
  /-- `status` and every failed attempt to use the coordinator look whether the game has ended -/
  | poll (world : World)
  /-- other code changes a job, without preparing one -/
  | edit (kind : String) (rows : List (String × Value))
  /-- `game_update::rollback` -/
  | forget (kind : String)
  | plan (kind : String) (value : Option Value)
  /-- the game is started or ends, or another installation is selected -/
  | elsewhere (steam : Option Installation) (runtime : Option String) (process stopping : Bool)
      (exitCode : Option Int)

/-- Whether the job is still being checked by a worker that gives its reservation back. -/
def System.checking (sys : System) (id : String) : Bool :=
  sys.workers.any fun w => w.ctx.id == id && w.work == .check false

/-- The reservation's flag was set. -/
def System.flagged (sys : System) (s : State) : List Event :=
  match sys.state.active with
  | none => sys.history
  | some a =>
    if s.flags a.cancel then .cancelled a.id (sys.checking a.id) :: sys.history else sys.history

def interrupt (s : State) : State :=
  match s.active with
  | none => s
  | some a => { s with flags := Function.update s.flags a.cancel true }

def next (sys : System) : Action → System
  | .request world kind operation needsRuntime work =>
    match reserveLocked world kind operation needsRuntime sys.state with
    | .ok ctx s =>
      { sys with state := s, workers := ⟨ctx, work⟩ :: sys.workers, uuids := ctx.id :: sys.uuids }
    | .error _ s => { sys with state := s }
  | .update worker patch => { sys with state := update worker.ctx patch sys.state }
  | .finish world worker outcome =>
    { sys with
      state := finish world worker.ctx outcome worker.work.retains sys.state
      workers := sys.workers.erase worker }
  | .publish worker result =>
    match publish worker.ctx result sys.state with
    | .ok _ s => { sys with state := s, workers := sys.workers.erase worker }
    | .error _ s => { sys with state := s }
  | .beginCommit worker phase message =>
    match beginCommit worker.ctx phase message sys.state with
    | .ok _ s => { sys with state := s, history := .committed worker.ctx.id :: sys.history }
    | .error _ s => { sys with state := s }
  | .activate worker root committed =>
    match activate worker.ctx root committed sys.state with
    | .ok _ s => { sys with state := s, history := .committed worker.ctx.id :: sys.history }
    | .error _ s => { sys with state := s }
  | .continuation world kind id =>
    match continuation world kind id sys.state with
    | .ok ctx s =>
      { sys with
        state := s
        workers := ⟨ctx, .install⟩ :: sys.workers
        history := .continued id :: sys.history }
    | .error _ s => { sys with state := s }
  | .cancel kind id =>
    match cancel kind id sys.state with
    | .ok _ s =>
      { sys with state := s, history := .cancelled id (sys.checking id) :: sys.history }
    | .error _ s => { sys with state := s }
  | .interrupt =>
    { sys with state := interrupt sys.state, history := sys.flagged (interrupt sys.state) }
  | .refresh world => { sys with state := stateOf (refresh world sys.state) }
  | .close beforeStart =>
    { sys with
      state := close beforeStart sys.state
      history := sys.flagged (close beforeStart sys.state) }
  | .poll world => { sys with state := poll world sys.state }
  | .edit kind rows =>
    { sys with state := editJob kind (fun job => job.extend rows) sys.state }
  | .forget kind =>
    { sys with state := { sys.state with jobs := Function.update sys.state.jobs kind none } }
  | .plan kind value =>
    { sys with state := { sys.state with plans := Function.update sys.state.plans kind value } }
  | .elsewhere steam runtime process stopping exitCode =>
    { sys with state := { sys.state with steam, runtime, process, stopping, exitCode } }

/-- How a worker can end: only a check reports a prepared job, and a preview that succeeds has
published it. -/
def Reports (worker : Worker) : Outcome → Prop
  | .error _ => True
  | .ok extra =>
    match worker.work with
    | .check _ => ∀ row ∈ extra, row.1 = "id" → row.2 = .string worker.ctx.id
    | .preview => False
    | _ => Plain (.string worker.ctx.id) extra

/-- What the callers of the coordinator promise: an action of a worker is one of a worker that has
not ended, `Uuid::new_v4` does not repeat an id, and only a check or a preview prepares a job. -/
def Possible (sys : System) : Action → Prop
  | .request world _ _ _ work => world.uuid ∉ sys.uuids ∧ work ≠ .install
  | .update worker patch => worker ∈ sys.workers ∧ Plain (.string worker.ctx.id) patch
  | .finish _ worker outcome => worker ∈ sys.workers ∧ Reports worker outcome
  | .publish worker result =>
    worker ∈ sys.workers ∧ worker.work = .preview ∧
      ∀ row ∈ result, row.1 = "id" → row.2 = .string worker.ctx.id
  | .beginCommit worker _ _ => worker ∈ sys.workers
  | .activate worker _ _ => worker ∈ sys.workers
  | .edit kind rows => ∀ job, sys.state.jobs kind = some job → Plain (job "id") rows
  | .forget kind => ∀ a, sys.state.active = some a → a.kind ≠ kind
  | _ => True

/-- A launcher that was just started. -/
structure Started (sys : System) : Prop where
  workers : sys.workers = []
  uuids : sys.uuids = []
  history : sys.history = []
  active : sys.state.active = none
  jobs : ∀ kind, sys.state.jobs kind = none

inductive Reachable : System → Prop where
  | start {sys : System} : Started sys → Reachable sys
  | step {sys : System} {action : Action} : Reachable sys → Possible sys action →
      Reachable (next sys action)

end Flightdeck.Backend
