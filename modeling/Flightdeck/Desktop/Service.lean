import Mathlib.Logic.Function.Basic
import Mathlib.Tactic

/-!
# The background service

`desktop.rs`: the windows find the service that runs for a settings directory through a record and a
lock.  Three pieces of evidence are written and read apart: the record, the lock on
`desktop-service.lock`, and the process that answers.  A headless service writes the same record
without the lock, and whoever asks whether the lock is held takes it for a moment.
-/

namespace Flightdeck.Desktop

abbrev Pid := Nat

/-- `desktop-service.json`; a release is known by a number, and so is a token. -/
structure Record where
  pid : Pid
  start : Nat
  port : Nat
  token : Nat
  release : Nat
  deriving DecidableEq

/-! ## Services -/

inductive Phase where
  | begun
  /-- a desktop service holds the lock -/
  | locked
  /-- it listens on its port, and has a token -/
  | bound
  /-- the record is written, and requests are answered -/
  | serving
  deriving DecidableEq

/-- A service, with the lock or headless. -/
structure Process where
  start : Nat
  desktop : Bool
  release : Nat
  phase : Phase := .begun
  port : Nat := 0
  token : Nat := 0
  deriving DecidableEq

/-- What `write_record` writes. -/
def Process.record (p : Process) (pid : Pid) : Record := ⟨pid, p.start, p.port, p.token, p.release⟩

/-! ## Callers -/

/-- Who called `verified`: a window that connects again, and `ensure_service` before and after it
started a service. -/
inductive Goal where
  | window
  | first
  | child
  deriving DecidableEq

/-- Where `service_locked` is called. -/
inductive Use where
  | verified (goal : Goal) (record : Record)
  /-- while the old service ends -/
  | restart
  /-- before a service is started, and after one did not come up -/
  | before
  | after
  deriving DecidableEq

inductive Stage where
  /-- `ensure_service` waits for `desktop-start.lock` -/
  | starting
  /-- the steps of `verified` -/
  | read (goal : Goal)
  | checkStart (goal : Goal) (record : Record)
  | probe (use : Use)
  /-- the lock was free, and is held for a moment -/
  | drop (use : Use)
  | request (goal : Goal) (record : Record)
  | checkAgain (goal : Goal) (record : Record)
  /-- the service is of another release -/
  | refresh (record : Record)
  /-- the selected runtime is sent to the service -/
  | config (record : Record)
  | spawn
  | waiting
  | terminate
  | returned (record : Option Record)
  | failed
  deriving DecidableEq

structure Caller where
  stage : Stage
  /-- the release that `ensure_service` wants -/
  identity : Nat := 0
  /-- a runtime was selected -/
  runtime : Bool := false
  /-- ports that are still to be tried -/
  attempts : Nat := 0
  /-- the child that it has started and not waited for, with its start time -/
  child : Option (Pid × Nat) := none
  /-- the services that have answered it with the token of the record that it has read -/
  answered : List Record := []
  spawned : List (Pid × Nat) := []
  killed : List (Pid × Nat) := []

inductive Holder where
  | service (pid : Pid)
  | probe (caller : Nat)
  deriving DecidableEq

structure State where
  processes : Pid → Option Process := fun _ => none
  callers : Nat → Option Caller := fun _ => none
  lock : Option Holder := none
  /-- who holds `desktop-start.lock` -/
  starter : Option Nat := none
  record : Option Record := none
  /-- start times and tokens are never drawn twice -/
  serial : Nat := 0
  /-- the numbers of ended children that nobody has waited for are not given out again -/
  reserved : List Pid := []
  /-- the identities that services have had since they listened -/
  issued : List Record := []
  /-- who held the lock when a service could not be started for it -/
  refusals : List Holder := []
  /-- A headless service has written the record while a desktop service was serving. -/
  replaced : Bool := false

/-! ## Services take steps -/

def State.setProcess (s : State) (pid : Pid) (p : Option Process) : State :=
  { s with processes := Function.update s.processes pid p }

/-- The process ends, and the kernel gives its lock back. -/
def State.endProcess (s : State) (pid : Pid) : State :=
  { s.setProcess pid none with
    lock := if s.lock = some (.service pid) then none else s.lock }

def State.fresh (s : State) (pid : Pid) : Bool :=
  (s.processes pid).isNone && !s.reserved.contains pid

def State.create (s : State) (pid : Pid) (desktop : Bool) (release : Nat) : State :=
  { s.setProcess pid (some { start := s.serial, desktop, release }) with serial := s.serial + 1 }

/-- A desktop service is serving; only one that holds the lock is. -/
def State.served (s : State) : Bool :=
  match s.lock with
  | some (.service pid) => (s.processes pid).any (·.phase = .serving)
  | _ => false

/-- `Lease::acquire` of a desktop service, without which it ends. -/
def tryLock (s : State) (pid : Pid) (p : Process) : Option State :=
  if p.desktop ∧ p.phase = .begun then
    match s.lock with
    | none =>
      some { s.setProcess pid (some { p with phase := .locked }) with lock := some (.service pid) }
    | some holder => some { s.endProcess pid with refusals := holder :: s.refusals }
  else none

/-- `serve` listens, and draws its token. -/
def bind (s : State) (pid port : Nat) (p : Process) : Option State :=
  if p.phase = if p.desktop then .locked else .begun then
    let p := { p with phase := .bound, port, token := s.serial }
    some { s.setProcess pid (some p) with
      serial := s.serial + 1, issued := p.record pid :: s.issued }
  else none

/-- `write_record`, after which requests are answered. -/
def publish (s : State) (pid : Pid) (p : Process) : Option State :=
  if p.phase = .bound then
    some { s.setProcess pid (some { p with phase := .serving }) with
      record := some (p.record pid), replaced := s.replaced || !p.desktop && s.served }
  else none

/-! ## Callers take steps -/

def State.setCaller (s : State) (id : Nat) (c : Option Caller) : State :=
  { s with callers := Function.update s.callers id c }

/-- The caller goes on to a stage. -/
def State.goto (s : State) (id : Nat) (c : Caller) (stage : Stage) : State :=
  s.setCaller id (some { c with stage })

/-- A child that has been waited for has a number that may be given out again. -/
def State.release (s : State) (c : Caller) : State :=
  { s with reserved := s.reserved.filter fun pid => c.child.map Prod.fst ≠ some pid }

/-- `desktop-start.lock` is given back. -/
def State.unlockStart (s : State) (id : Nat) : State :=
  { s with starter := if s.starter = some id then none else s.starter }

/-- What `verified` returned. -/
def verifiedResult (c : Caller) : Goal → Option Record → Stage
  | .window, record => .returned record
  | .first, none => .probe .before
  | .first, some record => if record.release ≠ c.identity then .refresh record else .config record
  | .child, none => .waiting
  | .child, some record =>
    if record.release = c.identity then .returned (some record) else .waiting

/-- What `service_locked` returned. -/
def locked (c : Caller) : Use → Bool → Stage
  | .verified goal record, true => .request goal record
  | .verified goal _, false => verifiedResult c goal none
  | .restart, true => .probe .restart
  | .restart, false => .probe .before
  | .before, true => .failed
  | .before, false => .spawn
  | .after, true => .failed
  | .after, false => if c.attempts = 0 then .failed else .spawn

/-- A held lock makes the start of a service fail here. -/
def Use.refuses : Use → Bool
  | .before | .after => true
  | _ => false

/-- How the next step of a caller goes, where the state does not decide it. -/
inductive Choice where
  | ok
  /-- an error, a deadline, or no answer -/
  | fail
  /-- the service that answers -/
  | answer (pid : Pid)
  | restarting
  | spawn (pid : Pid)
  deriving DecidableEq

/-- The call is over; a child that runs is waited for by a thread of its own. -/
def finish (s : State) (id : Nat) (c : Caller) (stage : Stage) : State :=
  match stage with
  | .returned _ => ((s.unlockStart id).release c).goto id { c with child := none } stage
  | .failed => (s.unlockStart id).goto id c stage
  | _ => s.goto id c stage

def startOf (s : State) (pid : Pid) : Option Nat := (s.processes pid).map Process.start

/-- The answer of a service that listens on the port of the record. -/
def answer (s : State) (id : Nat) (c : Caller) (goal : Goal) (record : Record) (pid : Pid) :
    Option State :=
  match s.processes pid with
  | none => none
  | some p =>
    if p.phase = .serving ∧ p.port = record.port then
      if p.token = record.token ∧ p.release = record.release then
        some (s.goto id { c with answered := p.record pid :: c.answered } (.checkAgain goal record))
      else some (finish s id c (verifiedResult c goal none))
    else none

/-- The child is waited for. -/
def reap (s : State) (id : Nat) (c : Caller) (stage : Stage) : State :=
  (s.release c).goto id { c with child := none } stage

/-- `process::terminate` -/
def terminate (s : State) (id : Nat) (c : Caller) : State :=
  match c.child with
  | none => s.goto id c (.probe .after)
  | some (pid, _) =>
    match s.processes pid with
    | none => reap s id c (.probe .after)
    | some p =>
      reap (s.endProcess pid) id { c with killed := (pid, p.start) :: c.killed } (.probe .after)

/-- The child has ended. -/
def ended (s : State) (c : Caller) : Bool :=
  c.child.all fun child => startOf s child.1 ≠ some child.2

def advance (s : State) (id : Nat) (c : Caller) (choice : Choice) : Option State :=
  match c.stage with
  | .starting =>
    if choice = .fail then some (finish s id c .failed)
    else if s.starter = none then some ({ s with starter := some id }.goto id c (.read .first))
    else none
  | .read goal =>
    if choice = .fail then some (finish s id c .failed)
    else
      match s.record with
      | none => some (finish s id c (verifiedResult c goal none))
      | some record => some (s.goto id c (.checkStart goal record))
  | .checkStart goal record =>
    if startOf s record.pid = some record.start then
      some (s.goto id c (.probe (.verified goal record)))
    else some (finish s id c (verifiedResult c goal none))
  | .probe use =>
    if choice = .fail ∧ use = .restart then some (finish s id c .failed)
    else
      match s.lock with
      | none => some ({ s with lock := some (.probe id) }.goto id c (.drop use))
      | some holder =>
        some (finish { s with
          refusals := if use.refuses then holder :: s.refusals else s.refusals } id c
            (locked c use true))
  | .drop use => some (finish { s with lock := none } id c (locked c use false))
  | .request goal record =>
    match choice with
    | .answer pid => answer s id c goal record pid
    | .fail => some (finish s id c (verifiedResult c goal none))
    | _ => none
  | .checkAgain goal record =>
    if startOf s record.pid = some record.start then
      some (finish s id c (verifiedResult c goal (some record)))
    else some (finish s id c (verifiedResult c goal none))
  | .refresh record =>
    if choice = .restarting then some (s.goto id c (.probe .restart))
    else some (s.goto id c (.config record))
  | .config record =>
    if c.runtime ∧ choice = .fail then some (finish s id c .failed)
    else some (finish s id c (.returned (some record)))
  | .spawn =>
    match choice with
    | .spawn pid =>
      if s.fresh pid then
        some ({ s.create pid true c.identity with reserved := pid :: s.reserved }.goto id
          { c with
            attempts := c.attempts - 1
            child := some (pid, s.serial)
            spawned := (pid, s.serial) :: c.spawned } .waiting)
      else none
    | .fail => some (finish s id c .failed)
    | _ => none
  | .waiting =>
    if ended s c then some (reap s id c .terminate)
    else if choice = .fail then some (s.goto id c .terminate)
    else some (s.goto id c (.read .child))
  | .terminate => some (terminate s id c)
  | .returned _ => none
  | .failed => none

inductive Action where
  | launch (pid : Pid) (desktop : Bool) (release : Nat)
  | tryLock (pid : Pid)
  | bind (pid port : Nat)
  | publish (pid : Pid)
  | exit (pid : Pid)
  | verify (id : Nat)
  | ensure (id : Nat) (identity : Nat) (runtime : Bool) (attempts : Nat)
  | advance (id : Nat) (choice : Choice)
  /-- the program of a caller ends -/
  | leave (id : Nat)
  deriving DecidableEq

def enter (s : State) (id : Nat) (c : Caller) : Option State :=
  if (s.callers id).isNone then some (s.setCaller id (some c)) else none

/-- A caller's program ends; the kernel gives its locks back and its child to another parent. -/
def leave (s : State) (id : Nat) (c : Caller) : State :=
  { ((s.unlockStart id).release c).setCaller id none with
    lock := if s.lock = some (.probe id) then none else s.lock }

def step (s : State) : Action → Option State
  | .launch pid desktop release => if s.fresh pid then some (s.create pid desktop release) else none
  | .tryLock pid => (s.processes pid).bind fun p => tryLock s pid p
  | .bind pid port => (s.processes pid).bind fun p => bind s pid port p
  | .publish pid => (s.processes pid).bind fun p => publish s pid p
  | .exit pid => (s.processes pid).map fun _ => s.endProcess pid
  | .verify id => enter s id { stage := .read .window }
  | .ensure id identity runtime attempts =>
    enter s id { stage := .starting, identity, runtime, attempts }
  | .advance id choice => (s.callers id).bind fun c => advance s id c choice
  | .leave id => (s.callers id).map fun c => leave s id c

/-- The states of the runs whose steps are all allowed. -/
inductive Run (Allowed : State → Action → Prop) : State → Prop where
  | start : Run Allowed {}
  | step {s s' : State} (action : Action) (h : Run Allowed s) (hallowed : Allowed s action)
      (hstep : step s action = some s') : Run Allowed s'

end Flightdeck.Desktop
