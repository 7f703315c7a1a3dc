import Flightdeck.Backend.Coordinator
import Flightdeck.Foundation.Outcome

/-!
# Requests to a download

What a worker that downloads the game shares with the requests of the user: the flags of its
reservation and the job, under the lock of the state.  `setup.rs` pauses, resumes and retries,
`backend.rs` cancels.
-/

namespace Flightdeck.GameInstall

open Foundation
open Backend (WorkError)

inductive JobState where
  | running | checking | ready | installing | complete | failed | cancelled
  deriving DecidableEq

inductive JobPhase where
  | recheck | bootstrap | authentication | download | pausing | paused | downloadFailed
  | switchUpdate | publishRuntime | removing
  | ready | complete | failed | cancelled
  deriving DecidableEq

inductive Mode where
  | existing | prepare | install | update
  deriving DecidableEq

/-- The fields of a setup job that its worker and the requests read or write. -/
structure Job where
  id : String
  mode : Mode
  state : JobState
  phase : JobPhase
  failurePhase : Option JobPhase := none
  message : String := ""
  error : Option String := none
  canCancel : Bool := true
  canPause : Bool := false
  canResume : Bool := false
  canRetry : Bool := false
  downloadAttempt : Nat := 0
  downloadExitCode : Option Int := none
  loginExitCode : Option Int := none

/-- `State.active`; the flags of the reservation are in `Shared`. -/
structure Active where
  kind : String
  id : String

/-- The state behind the lock, as far as the job `"setup"` goes, and the flags that the reservation
and the context of the worker share. -/
structure Shared where
  closing : Bool := false
  active : Option Active
  job : Option Job
  cancel : Bool := false
  pause : Bool := false

/-! ## The operations of the context -/

/-- `Context::update`; `Context::progress` is the update of the message. -/
def Shared.update (ctx : String) (patch : Job → Job) (s : Shared) : Shared :=
  { s with job := s.job.map fun job => if job.id = ctx then patch job else job }

/-- `Context::interrupted` -/
def interrupted (s : Shared) : Except WorkError Unit :=
  if s.cancel then .error .cancelled else .ok ()

/-! ## `download_action` -/

def NO_SETUP := "Es gibt keine passende laufende Einrichtung."
def WRONG_PHASE := "Dieser Download kann gerade nicht pausiert oder fortgesetzt werden."

def require (condition : Bool) (message : String) : Except WorkError Unit :=
  if condition then .ok () else .error (.invalid message)

/-- What the job offers. -/
def Job.offers (job : Job) (operation : String) : Bool :=
  if operation = "pause" then job.canPause
  else if operation = "resume" then job.canResume
  else if operation = "retry" then job.canRetry && job.phase == .downloadFailed
  else false

def ownSetup (id : String) (s : Shared) (active : Active) : Bool :=
  active.kind == "setup" && active.id == id && !s.cancel

/-- The checks of a request. -/
def checked (id operation : String) (s : Shared) : Except WorkError Unit := do
  require (!s.closing) Backend.OPEN
  require (s.active.any (ownSetup id s)) NO_SETUP
  require s.job.isSome NO_SETUP
  require (s.job.any fun job =>
    (job.state == .installing || (job.state == .failed && operation == "retry")) &&
      job.offers operation) WRONG_PHASE

/-- What a request that was accepted writes into the job. -/
def Job.act (operation : String) (job : Job) : Job :=
  { job with
    canPause := false
    canResume := false
    canRetry := false
    state := if operation = "retry" then .installing else job.state
    error := if operation = "retry" then none else job.error
    phase := if operation = "pause" then .pausing else .download
    message :=
      if operation = "pause" then
        "Download wird pausiert. Der laufende Teil wird sicher beendet …"
      else "Der Download wird fortgesetzt …" }

def downloadAction (id operation : String) : EStateM WorkError Shared (Option Job) := do
  checked id operation (← get)
  modify fun s => { s with pause := operation == "pause" }
  modify fun s => { s with job := s.job.map (Job.act operation) }
  return (← get).job

/-- The state after a request that was accepted. -/
def Shared.acted (operation : String) (s : Shared) : Shared :=
  { s with pause := operation == "pause", job := s.job.map (Job.act operation) }

/-- A request does the whole of it, or nothing. -/
theorem downloadAction_eq (id operation : String) (s : Shared) :
    downloadAction id operation s =
      match checked id operation s with
      | .ok _ => .ok (s.job.map (Job.act operation)) (s.acted operation)
      | .error e => .error e s := by
  unfold downloadAction
  rw [get_bind]
  cases h : checked id operation s with
  | ok u => rfl
  | error e => rfl

theorem require_eq_ok {condition : Bool} {message : String} {u : Unit} :
    require condition message = .ok u ↔ condition = true := by
  cases condition <;> simp [require]

/-- When a request is accepted. -/
structure Accepts (s : Shared) (id operation : String) (job : Job) : Prop where
  isOpen : s.closing = false
  notCancelled : s.cancel = false
  own : ∃ active, s.active = some active ∧ active.kind = "setup" ∧ active.id = id
  found : s.job = some job
  state : job.state = .installing ∨ job.state = .failed ∧ operation = "retry"
  offers : job.offers operation = true

theorem checked_eq_ok {s : Shared} {id operation : String} :
    checked id operation s = .ok () ↔ ∃ job, Accepts s id operation job := by
  simp only [checked, bind_eq_ok, require_eq_ok, exists_const]
  constructor
  · intro ⟨hopen, hactive, hsome, hjob⟩
    cases hs : s.active with
    | none =>
      rw [hs] at hactive
      cases hactive
    | some active =>
      cases hj : s.job with
      | none =>
        rw [hj] at hsome
        cases hsome
      | some job =>
        rw [hs] at hactive
        rw [hj] at hjob
        simp only [Option.any_some, ownSetup, Bool.and_eq_true, Bool.or_eq_true, beq_iff_eq,
          Bool.not_eq_true'] at hopen hactive hjob
        exact ⟨job, hopen, hactive.2, ⟨active, hs, hactive.1.1, hactive.1.2⟩, hj, hjob.1, hjob.2⟩
  · intro ⟨job, h⟩
    obtain ⟨active, hs, hkind, hid⟩ := h.own
    simp only [hs, h.found, h.isOpen, Option.any_some, Option.isSome_some, ownSetup, hkind, hid,
      h.notCancelled, h.offers, beq_self_eq_true, Bool.not_false, Bool.and_true, Bool.and_eq_true,
      Bool.or_eq_true, beq_iff_eq, true_and]
    exact h.state

/-! ## `Launcher::cancel` and `Launcher::close` -/

/-- The job is at its atomic switch. -/
def Shared.switching (id : String) (s : Shared) : Bool :=
  s.job.any fun job => job.id == id &&
    (job.phase == .switchUpdate || job.phase == .publishRuntime || job.phase == .removing)

/-- An update that was only checked, and reserves nothing. -/
def Shared.prepared (id : String) (s : Shared) : Bool :=
  (s.job.any fun job => job.id == id && job.mode == .update && job.state == .ready) &&
    !s.active.any (·.id == id)

def Shared.reserved (id : String) (s : Shared) : Bool :=
  s.active.any fun active => active.kind == "setup" && active.id == id

def Shared.ready (s : Shared) : Bool := s.job.any (·.state == .ready)

def Shared.discarded (s : Shared) : Shared :=
  { s with
    job := s.job.map fun job =>
      { job with state := .cancelled, message := "Einrichtung abgebrochen." } }

def Shared.cancelled (s : Shared) : Shared :=
  { s with
    cancel := true
    job := s.job.map fun job =>
      { job with
        canCancel := false
        message := "Vorgang wird abgebrochen …"
        state := if s.ready then .cancelled else job.state }
    active := if s.ready then none else s.active }

/-- `Launcher::cancel("setup", id)` -/
def cancel (id : String) : EStateM WorkError Shared Unit := do
  require (!(← get).switching id) Backend.SWITCHING
  if (← get).prepared id then
    modify Shared.discarded
  else
    require ((← get).reserved id) Backend.STALE
    modify Shared.cancelled

/-- A cancellation is refused, discards what was prepared, or sets the flag of the job. -/
theorem cancel_eq (id : String) (s : Shared) :
    stateOf (cancel id s) =
      if s.switching id then s
      else if s.prepared id then s.discarded
      else if s.reserved id then s.cancelled
      else s := by
  unfold cancel
  rw [get_bind]
  cases hswitching : s.switching id with
  | true => rfl
  | false =>
    have hfree : require (!false) Backend.SWITCHING = .ok () := rfl
    rw [hfree, lift_ok_bind, get_bind]
    cases hprepared : s.prepared id with
    | true => rfl
    | false =>
      simp only [Bool.false_eq_true, ↓reduceIte]
      rw [get_bind]
      cases hreserved : s.reserved id with
      | true => rfl
      | false => rfl

/-- `Launcher::close` -/
def close (s : Shared) : Shared :=
  let ready := s.active.isSome && s.ready
  { s with
    closing := true
    cancel := s.cancel || s.active.isSome
    job := if ready then s.job.map fun job => { job with state := .cancelled } else s.job
    active := if ready then none else s.active }

end Flightdeck.GameInstall
