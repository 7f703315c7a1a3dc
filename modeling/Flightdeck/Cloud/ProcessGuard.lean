import Flightdeck.Foundation.Effects

/-!
# The fence of a game session

`cloud_process_guard.rs`: a file that names the boot in which a session was started.  It is written
before the game starts, and taken away once a scan of the processes found nothing of the session.
The lease on `play.lock` lets one job at a time work on it.  A scan reads the process directory in
pieces and looks at its rows one after the other, while the processes go on.
-/

namespace Flightdeck.Cloud.ProcessGuard

open Foundation

abbrev Pid := Nat

/-- A process that `scan` holds against the session, wherever it looks at it. -/
structure Process where
  pid : Pid
  /-- its environment names the runtime -/
  confirmed : Bool := true
  /-- another Windows application in the profile -/
  application : Bool := false
  deriving DecidableEq

/-- `cloud-interrupted-process.json`: the boot that its record names, and the device, the inode and
the time of change of the file. -/
structure Fence where
  boot : Nat
  identity : Nat
  deriving DecidableEq

/-! ## The stages of a job -/

/-- A scan: the process directory has been read up to a number or to its end. -/
structure Scan where
  listed : Pid := 0
  complete : Bool := false
  pending : List Pid := []
  writers : List Process := []
  deriving DecidableEq

inductive Purpose where
  | clear
  | recover
  deriving DecidableEq

inductive Place where
  /-- a scan of `terminate`, for the second signal if `again` -/
  | terminate (again : Bool) (scan : Scan)
  /-- the signals are sent -/
  | wait (again : Bool)
  /-- `quiescent`; a backup follows unless it is the last -/
  | quiescent (last : Bool) (scan : Scan)
  | backup
  | recheck
  | remove
  | sync
  deriving DecidableEq

inductive Stage where
  | resting
  /-- `check` has read the record of an earlier boot -/
  | reread (previous : Nat)
  | removeOld (previous : Nat)
  /-- `mark` has read the record of an earlier boot, or none, and writes its own -/
  | write (previous : Option Nat)
  | publish (previous : Option Nat)
  | published
  /-- `clear` or `recover`, with the identity and the record of the fence that it has read -/
  | sweep (purpose : Purpose) (identity : Option Nat) (value : Option Nat) (place : Place)
  deriving DecidableEq

/-- A job with the lease. -/
structure Job where
  stage : Stage := .resting
  /-- `check` or `clear` has returned, and what it guards may run -/
  guarded : Bool := false
  /-- `mark` has returned, and the game may be started -/
  marked : Bool := false
  deriving DecidableEq

inductive Event where
  /-- the end of a scan of `quiescent`, with the identity of the fence and what was found -/
  | scanned (purpose : Purpose) (identity : Option Nat) (writers : List Process)
  /-- a fence is taken away, in a boot, by `clear` or `recover` or by `check` -/
  | removed (purpose : Option Purpose) (fence : Fence) (boot : Nat)

structure State where
  boot : Nat := 0
  fence : Option Fence := none
  /-- the identity that the next file gets -/
  serial : Nat := 0
  processes : List Process := []
  job : Option Job := none
  history : List Event := []
  /-- In this boot a process of the session was started behind the last scan of an operation, which
  had found nothing yet. -/
  missed : Bool := false

def State.record (s : State) : Option Nat := s.fence.map Fence.boot

def State.identity (s : State) : Option Nat := s.fence.map Fence.identity

def State.find (s : State) (pid : Pid) : Option Process := s.processes.find? (·.pid == pid)

/-! ## Steps -/

inductive Action where
  /-- a job gets the lease, or its process ends in whatever it does -/
  | acquire
  | leave
  /-- what was not synchronised may be lost -/
  | reboot (kept : Option Fence)
  | check
  | mark
  | clear
  | recover
  /-- the next step of the operation, and its failure -/
  | proceed
  | fail
  /-- the next rows of the process directory, or all that are left -/
  | list (upto : Option Pid)
  | inspect
  | spawn (child : Process)
  | fork (parent : Pid) (child : Process)
  /-- a process runs another program -/
  | exec (changed : Process)
  | exit (pid : Pid)
  deriving DecidableEq

def State.at (s : State) (stage : Stage) : State := { s with job := some { stage } }

def State.unlink (s : State) (purpose : Option Purpose) : State :=
  { s with
    fence := none
    history := (s.fence.map fun fence => Event.removed purpose fence s.boot).toList ++ s.history }

/-- The beginning of `check`, up to the record that it has read. -/
def beginCheck (s : State) : State :=
  match s.record with
  | none => { s with job := some { guarded := true } }
  | some previous => if previous = s.boot then s.at .resting else s.at (.reread previous)

def beginMark (s : State) : State :=
  if s.record = some s.boot then { s with job := some { marked := true } }
  else s.at (.write s.record)

def beginSweep (s : State) (purpose : Purpose) : State :=
  if purpose = .clear ∧ s.record ≠ some s.boot then s.at .resting
  else s.at (.sweep purpose s.identity s.record (.terminate false {}))

/-- The end of a scan in `terminate`. -/
def terminated (purpose : Purpose) (again : Bool) (writers : List Process) : Option Place :=
  if purpose = .clear ∧ writers.any Process.application then none
  else if writers.any Process.confirmed then some (.wait again)
  else some (.quiescent (purpose = .clear) {})

def Scan.done (scan : Scan) : Bool := scan.complete && scan.pending.isEmpty

/-- A step of `clear` or `recover`; a scan has to be done. -/
def sweepStep (s : State) (purpose : Purpose) (identity value : Option Nat) :
    Place → Option State
  | .terminate again scan =>
    if scan.done then
      match terminated purpose again scan.writers with
      | none => some (s.at .resting)
      | some place => some (s.at (.sweep purpose identity value place))
    else none
  | .wait again =>
    if again then some (s.at (.sweep purpose identity value (.quiescent (purpose = .clear) {})))
    else some (s.at (.sweep purpose identity value (.terminate true {})))
  | .quiescent last scan =>
    if scan.done then
      let s := { s with history := .scanned purpose s.identity scan.writers :: s.history }
      if scan.writers ≠ [] then some (s.at .resting)
      else if last then some (s.at (.sweep purpose identity value .recheck))
      else some (s.at (.sweep purpose identity value .backup))
    else none
  | .backup => some (s.at (.sweep purpose identity value (.quiescent true {})))
  | .recheck =>
    if s.record = value ∧ s.identity = identity then
      -- `clear` has required a record, and `recover` takes away the one it found.
      if value.isSome then some (s.at (.sweep purpose identity value .remove))
      else some (s.at .resting)
    else some (s.at .resting)
  | .remove => some ((s.unlink (some purpose)).at (.sweep purpose identity value .sync))
  | .sync => some { s with job := some { guarded := purpose = .clear } }

/-- The next step of the operation that a job is in. -/
def proceed (s : State) : Stage → Option State
  | .resting => none
  | .reread previous =>
    if s.record = some previous then some (s.at (.removeOld previous)) else some (s.at .resting)
  | .removeOld _ => some { s.unlink none with job := some { guarded := true } }
  | .write previous =>
    if s.record = previous then some (s.at (.publish previous)) else some (s.at .resting)
  | .publish previous =>
    -- The first fence is linked only where none is, and an old one is replaced.
    if previous = none ∧ s.fence ≠ none then some (s.at .resting)
    else some ({ s with
      fence := some ⟨s.boot, s.serial⟩, serial := s.serial + 1 }.at .published)
  | .published => some { s with job := some { marked := true } }
  | .sweep purpose identity value place => sweepStep s purpose identity value place

/-- The scan that a job is in. -/
def Stage.scan : Stage → Option Scan
  | .sweep _ _ _ (.terminate _ scan) => some scan
  | .sweep _ _ _ (.quiescent _ scan) => some scan
  | _ => none

def Stage.setScan (scan : Scan) : Stage → Stage
  | .sweep purpose identity value (.terminate again _) =>
    .sweep purpose identity value (.terminate again scan)
  | .sweep purpose identity value (.quiescent last _) =>
    .sweep purpose identity value (.quiescent last scan)
  | stage => stage

/-- The next rows of the directory. -/
def Scan.list (scan : Scan) (s : State) (upto : Option Pid) : Scan :=
  let rows := (s.processes.map Process.pid).filter fun pid =>
    scan.listed ≤ pid && upto.all (pid < ·)
  { scan with
    listed := max scan.listed (upto.getD 0)
    complete := upto.isNone
    pending := scan.pending ++ rows }

/-- A look at the first row; the process may have exited. -/
def Scan.inspect (scan : Scan) (s : State) : Scan :=
  match scan.pending with
  | [] => scan
  | pid :: pending => { scan with pending, writers := scan.writers ++ (s.find pid).toList }

/-- The last scan before the fence is taken away, while it has found nothing. -/
def Stage.lastScan : Stage → Option Scan
  | .sweep _ _ _ (.quiescent true scan) => if scan.writers = [] then some scan else none
  | _ => none

/-- A process with this number is not going to be listed by the last scan. -/
def State.behind (s : State) (pid : Pid) : Bool :=
  match s.job.bind fun job => job.stage.lastScan with
  | none => false
  | some scan => scan.complete || pid < scan.listed

def step (s : State) : Action → Option State
  | .acquire => if s.job = none then some (s.at .resting) else none
  | .leave => some { s with job := none }
  | .reboot kept =>
    if kept.all (·.boot ≤ s.boot) then
      some { s with boot := s.boot + 1, fence := kept, processes := [], job := none, missed := false }
    else none
  | .check => if s.job.any (·.stage = .resting) then some (beginCheck s) else none
  | .mark => if s.job.any (·.stage = .resting) then some (beginMark s) else none
  | .clear => if s.job.any (·.stage = .resting) then some (beginSweep s .clear) else none
  | .recover => if s.job.any (·.stage = .resting) then some (beginSweep s .recover) else none
  | .proceed => s.job.bind fun job => proceed s job.stage
  | .fail => if s.job.isSome then some (s.at .resting) else none
  | .list upto =>
    s.job.bind fun job => job.stage.scan.bind fun scan =>
      if scan.complete then none else some (s.at (job.stage.setScan (scan.list s upto)))
  | .inspect =>
    s.job.bind fun job => job.stage.scan.bind fun scan =>
      some (s.at (job.stage.setScan (scan.inspect s)))
  | .spawn child =>
    if s.job.any (·.marked) ∧ s.find child.pid = none then
      some { s with processes := child :: s.processes }
    else none
  | .fork parent child =>
    if s.find parent ≠ none ∧ s.find child.pid = none then
      some { s with
        processes := child :: s.processes, missed := s.missed || s.behind child.pid }
    else none
  | .exec changed =>
    some { s with
      processes := s.processes.map fun p => if p.pid = changed.pid then changed else p }
  | .exit pid => some { s with processes := s.processes.filter (·.pid ≠ pid) }

/-- The states of every run. -/
inductive Reachable : State → Prop where
  | start : Reachable {}
  | step {s s' : State} (action : Action) (h : Reachable s) (hstep : step s action = some s') :
      Reachable s'

end Flightdeck.Cloud.ProcessGuard
