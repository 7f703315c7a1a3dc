import Flightdeck.HResults
import Mathlib.Logic.Function.Basic
import Mathlib.Tactic

/-!
# Connectivity notifications

A registration is told of the connectivity hint that was read for it, and then of every change that
a poll finds.  Timer callbacks, the game's calls and its callbacks run on threads of their own; what
runs under a lock is one step, and between two steps any other thread may go on.
-/

namespace Flightdeck.Network.Connectivity

abbrev Token := Nat

/-- `XNetworkingConnectivityHint` -/
structure Hint where
  connectivityLevel : UInt32
  connectivityCost : UInt32
  ianaInterfaceType : UInt32
  networkInitialized : Bool
  approachingDataLimit : Bool
  overDataLimit : Bool
  roaming : Bool
  deriving DecidableEq

/-- `same_hint` compares every field. -/
def sameHint (a b : Hint) : Bool :=
  a.connectivityLevel == b.connectivityLevel && a.connectivityCost == b.connectivityCost &&
    a.ianaInterfaceType == b.ianaInterfaceType && a.networkInitialized == b.networkInitialized &&
    a.approachingDataLimit == b.approachingDataLimit && a.overDataLimit == b.overDataLimit &&
    a.roaming == b.roaming

/-- `queue`, `context` and `callback` decide only where a notification runs. -/
structure Registration where
  active : Bool := true
  initialEnqueued : Bool := false
  running : Nat := 0
  last : Hint

/-- Every registration that a thread may still refer to, and which of them are in the manager's
map. -/
structure Manager where
  registrations : Token → Option Registration
  listed : List Token
  nextToken : Token
  stopped : Bool
  stopping : Bool

/-- What happened to a registration. -/
inductive Event where
  | registered (hint : Hint)
  | queued (hint : Hint)
  /-- a poll saw the hint while the registration was active, and found it changed or not -/
  | compared (hint : Hint) (changed : Bool)
  | started
  | returned
  /-- an unregistration with `wait` returned `TRUE` -/
  | unregistered
  /-- an unregistration waits for the callback that it was called from -/
  | waitsForItself
  deriving DecidableEq

/-- Where a thread is in the call that it is in. -/
inductive Thread where
  /-- `register_hint` has read the hint -/
  | register (hint : Hint)
  /-- `submit_hint` for the first hint, and its call of `XTaskQueueSubmitCallback` -/
  | submitFirst (t : Token) (hint : Hint)
  | sendFirst (t : Token) (hint : Hint)
  | enqueued (t : Token) (succeeded : Bool)
  /-- the first hint could not be queued, and the registration leaves the map -/
  | forget (t : Token)
  /-- `poll_registrations` has read the hint -/
  | snapshot (hint : Hint)
  | compare (rest : List Token) (hint : Hint)
  /-- `submit_hint` for a change, and its call of `XTaskQueueSubmitCallback` -/
  | submit (t : Token) (rest : List Token) (hint : Hint)
  | send (t : Token) (rest : List Token) (hint : Hint)
  | callback (t : Token) (hint : Hint)
  /-- `unregister_hint` has found the registration; `own` says that a callback of it called -/
  | unregister (t : Token) (wait own : Bool)
  | waiting (t : Token)
  | erase (t : Token) (wait : Bool)
  /-- `NetworkRuntimeShutdown` waits for callbacks; with each registration, how many of them it was
  called from -/
  | draining (retired : List (Token × Nat))
  deriving DecidableEq

structure Process where
  manager : Manager
  threads : List Thread
  /-- the notifications in task queues -/
  jobs : List (Token × Hint)
  /-- what happened to each registration, newest first -/
  past : Token → List Event

namespace Process

def log (sys : Process) (t : Token) (e : Event) : Process :=
  { sys with past := Function.update sys.past t (e :: sys.past t) }

def edit (sys : Process) (t : Token) (f : Registration → Registration) : Process :=
  { sys with
    manager := { sys.manager with
      registrations := Function.update sys.manager.registrations t
        ((sys.manager.registrations t).map f) } }

def deactivate (sys : Process) (t : Token) : Process :=
  sys.edit t fun reg => { reg with active := false }

def unlist (sys : Process) (t : Token) : Process :=
  { sys with manager := { sys.manager with listed := sys.manager.listed.erase t } }

def isActive (sys : Process) (t : Token) : Bool :=
  (sys.manager.registrations t).any (·.active)

/-- Whether no callback of the registration runs. -/
def isIdle (sys : Process) (t : Token) : Bool :=
  (sys.manager.registrations t).all (·.running == 0)

/-- `XTaskQueueSubmitCallback` -/
def enqueue (sys : Process) (t : Token) (hint : Hint) : Process :=
  { sys with jobs := (t, hint) :: sys.jobs }.log t (.queued hint)

/-- The second part of `register_hint`. -/
def insert (sys : Process) (hint : Hint) : List Thread × Process :=
  let m := sys.manager
  if m.stopping then ([], sys)
  else
    ([.submitFirst m.nextToken hint],
      { sys with
        manager := { m with
          stopped := false
          registrations := Function.update m.registrations m.nextToken (some { last := hint })
          listed := m.listed ++ [m.nextToken]
          nextToken := m.nextToken + 1 } }.log m.nextToken (.registered hint))

/-- What the snapshot of `poll_registrations` keeps. -/
def kept (sys : Process) (t : Token) : Bool := sys.isActive t || !sys.isIdle t

/-- The comparison in `poll_registrations`. -/
def compare (sys : Process) (t : Token) (rest : List Token) (hint : Hint) :
    List Thread × Process :=
  match sys.manager.registrations t with
  | none => ([.compare rest hint], sys)
  | some reg =>
    if reg.active && reg.initialEnqueued then
      if sameHint reg.last hint then ([.compare rest hint], sys.log t (.compared hint false))
      else
        ([.submit t rest hint],
          (sys.edit t fun reg => { reg with last := hint }).log t (.compared hint true))
    else ([.compare rest hint], sys)

/-- The second part of `unregister_hint`. -/
def unregister (sys : Process) (t : Token) (wait own : Bool) : List Thread × Process :=
  let sys := sys.deactivate t
  if sys.isIdle t then ([.erase t wait], sys)
  else if wait then ([.waiting t], if own then sys.log t .waitsForItself else sys)
  else ([], sys)

/-- The thread's next step, with where it goes on; `none` if it has to wait.  `submitted` is what
`XTaskQueueSubmitCallback` returns, or why there is no memory for the job. -/
def turn (sys : Process) (submitted : HResult) : Thread → Option (List Thread × Process)
  | .register hint => some (sys.insert hint)
  | .submitFirst t hint =>
    if sys.isActive t then some ([.sendFirst t hint], sys) else some ([.enqueued t true], sys)
  | .sendFirst t hint =>
    if failed submitted then some ([.enqueued t false], sys)
    else some ([.enqueued t true], sys.enqueue t hint)
  | .enqueued t succeeded =>
    let sys := sys.edit t fun reg => { reg with initialEnqueued := succeeded }
    if succeeded then some ([], sys) else some ([.forget t], sys.deactivate t)
  | .forget t => some ([], sys.unlist t)
  | .snapshot hint =>
    let snapshot := sys.manager.listed.filter sys.kept
    some ([.compare snapshot hint],
      { sys with manager := { sys.manager with listed := snapshot } })
  | .compare [] _ => some ([], sys)
  | .compare (t :: rest) hint => some (sys.compare t rest hint)
  | .submit t rest hint =>
    if sys.isActive t then some ([.send t rest hint], sys) else some ([.compare rest hint], sys)
  | .send t rest hint =>
    if failed submitted then some ([.compare rest hint], sys)
    else some ([.compare rest hint], sys.enqueue t hint)
  | .callback t _ =>
    some ([], (sys.edit t fun reg => { reg with running := reg.running - 1 }).log t .returned)
  | .unregister t wait own => some (sys.unregister t wait own)
  | .waiting t => if sys.isIdle t then some ([.erase t true], sys) else none
  | .erase t wait =>
    let sys := sys.unlist t
    some ([], if wait then sys.log t .unregistered else sys)
  | .draining [] =>
    some ([], { sys with manager := { sys.manager with stopped := true, stopping := false } })
  | .draining ((t, depth) :: rest) =>
    if (sys.manager.registrations t).all (·.running ≤ depth) then some ([.draining rest], sys)
    else none

/-- `notification_callback`: a queued job runs, or is cancelled by its queue. -/
def notification (sys : Process) (t : Token) (hint : Hint) (cancelled : Bool) : Process :=
  if cancelled || !sys.isActive t then sys
  else
    let sys := (sys.edit t fun reg => { reg with running := reg.running + 1 }).log t .started
    { sys with threads := .callback t hint :: sys.threads }

/-- The first part of `unregister_hint`; a registration that is not in the map is done with. -/
def startUnregister (sys : Process) (t : Token) (wait own : Bool) : Process :=
  if t ∈ sys.manager.listed then
    { sys with threads := .unregister t wait own :: sys.threads }
  else if wait && (sys.manager.registrations t).isSome then sys.log t .unregistered
  else sys

/-- The first part of `NetworkRuntimeShutdown`; `depth` counts the callbacks that it is called
from. -/
def shutdown (sys : Process) (depth : Token → Nat) : Process :=
  let m := sys.manager
  if m.stopping || m.stopped then sys
  else
    { sys with
      manager := { m with
        stopping := true
        listed := []
        registrations := fun t =>
          if t ∈ m.listed then
            (m.registrations t).map fun reg => { reg with active := false }
          else m.registrations t }
      threads := .draining (m.listed.map fun t => (t, depth t)) :: sys.threads }

end Process

/-- A step of any thread, of the game, or of the timer. -/
inductive Action where
  /-- `index` is the position of the thread -/
  | turn (index : Nat) (submitted : HResult)
  /-- a poll runs out of memory after it looked at some registrations for its snapshot -/
  | abandon (index looked : Nat)
  | register (hint : Hint)
  | poll (hint : Hint)
  | notification (t : Token) (hint : Hint) (cancelled : Bool)
  | unregister (t : Token) (wait own : Bool)
  | shutdown (depth : Token → Nat)

namespace Process

def perform (sys : Process) : Action → Process
  | .turn index submitted =>
    match sys.threads[index]? with
    | none => sys
    | some u =>
      match sys.turn submitted u with
      | none => sys
      | some (next, sys') =>
        { sys' with threads := sys.threads.take index ++ next ++ sys.threads.drop (index + 1) }
  | .abandon index looked =>
    match sys.threads[index]? with
    | some (.snapshot _) =>
      let listed := sys.manager.listed
      { sys with
        manager := { sys.manager with
          listed := (listed.take looked).filter sys.kept ++ listed.drop looked }
        threads := sys.threads.take index ++ [] ++ sys.threads.drop (index + 1) }
    | _ => sys
  | .register hint => { sys with threads := .register hint :: sys.threads }
  | .poll hint => { sys with threads := .snapshot hint :: sys.threads }
  | .notification t hint cancelled =>
    if (t, hint) ∈ sys.jobs then
      { sys with jobs := sys.jobs.erase (t, hint) }.notification t hint cancelled
    else sys
  | .unregister t wait own =>
    -- a callback that calls is one that runs
    if own && sys.isIdle t then sys else sys.startUnregister t wait own
  | .shutdown depth => sys.shutdown depth

end Process

/-- The runtime was just loaded. -/
structure Loaded (sys : Process) : Prop where
  registrations : ∀ t, sys.manager.registrations t = none
  listed : sys.manager.listed = []
  stopped : sys.manager.stopped = true
  stopping : sys.manager.stopping = false
  threads : sys.threads = []
  past : ∀ t, sys.past t = []

/-- What a process can become by actions of which each meets `P`. -/
inductive Reachable (P : Process → Action → Prop) : Process → Prop where
  | start {sys : Process} : Loaded sys → Reachable P sys
  | perform {sys : Process} (action : Action) : Reachable P sys → P sys action →
      Reachable P (sys.perform action)

/-! ## What is promised -/

/-- The hint that was queued last. -/
def newestQueued : List Event → Option Hint
  | [] => none
  | .queued hint :: _ => some hint
  | _ :: older => newestQueued older

/-- The hint that was read for the registration. -/
def firstHint : List Event → Option Hint
  | [] => none
  | .registered hint :: _ => some hint
  | _ :: older => firstHint older

/-- The first hint that is queued is the one that was read for the registration, and each other one
differs from the one before; a poll finds a change exactly when its hint is not the one that was
queued last; no callback runs when an unregistration with `wait` returns `TRUE`, and none starts
after it; and none waits for itself. -/
def Allowed (older : List Event) : Event → Prop
  | .queued hint =>
    match newestQueued older with
    | none => firstHint older = some hint
    | some before => sameHint before hint = false
  | .compared hint changed =>
    ∃ before, newestQueued older = some before ∧ changed = !sameHint before hint
  | .started => .unregistered ∉ older
  | .unregistered => older.count .started ≤ older.count .returned
  | .waitsForItself => False
  | _ => True

/-! ## When it is kept -/

/-- The thread is about to queue a change for the registration. -/
def Thread.changes (t : Token) : Thread → Bool
  | .submit t' _ _ => t' == t
  | .send t' _ _ => t' == t
  | _ => false

/-- No submission of a poll fails, no poll looks at a registration for which another one is about to
queue a change, and an unregistration with `wait` is called from no callback of its registration and
does not find it retired by a shutdown while one runs. -/
def Steady (sys : Process) : Action → Prop
  | .turn index submitted =>
    match sys.threads[index]? with
    | some (.send _ _ _) => failed submitted = false
    | some (.compare (t :: _) _) => ∀ u ∈ sys.threads, u.changes t = false
    | _ => True
  | .unregister t wait own => wait = true →
      own = false ∧ (t ∈ sys.manager.listed ∨ sys.isIdle t = true)
  | _ => True

end Flightdeck.Network.Connectivity
