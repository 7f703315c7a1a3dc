import Flightdeck.Store.DurableLicense

/-!
# License events

A registration keeps the license that was last seen.  A timer polls the registrations, and queues a
notification when the license that it reads is another one; the game registers and unregisters from
any thread, also from a callback.  What runs under a lock is one step, and between two steps any
other thread may go on.
-/

namespace Flightdeck.Store.LicenseEvents

open Foundation

abbrev StoreHandle := Nat

/-- `same_license`: the countdown of a trial is no change, but its end is. -/
def sameLicense (a b : GameLicense) : Bool :=
  cstring a.skuStoreId == cstring b.skuStoreId &&
    cstring a.trialUniqueId == cstring b.trialUniqueId &&
    a.isActive == b.isActive && a.isTrial == b.isTrial &&
    a.isTrialOwnedByThisUser == b.isTrialOwnedByThisUser &&
    a.isDiscLicense == b.isDiscLicense && a.expirationDate == b.expirationDate &&
    (a.isTrial == 0 ||
      (a.trialTimeRemainingInSeconds == 0) == (b.trialTimeRemainingInSeconds == 0))

/-- What `XodusStoreReadGameLicenseObservation` reads while other threads run. -/
structure Observation where
  openBefore : Bool
  /-- what `query_game_license` returns and writes, if the provider has it -/
  result : Option (HResult × GameLicense)
  openAfter : Bool

/-- `XodusStoreReadGameLicenseObservation` -/
def readGameLicense (o : Observation) : Except HResult GameLicense :=
  if !o.openBefore then .error E_ABORT
  else
    match o.result with
    | none => .error E_NOTIMPL
    | some (hr, observed) =>
      if !o.openAfter then .error E_ABORT
      else if failed hr then .error hr
      else if !observed.skuStoreId.contains 0 || !observed.trialUniqueId.contains 0 ||
          decide (1 < observed.isActive) || decide (1 < observed.isTrialOwnedByThisUser) ||
          decide (1 < observed.isDiscLicense) || decide (1 < observed.isTrial) then
        .error INVALID_DATA
      else .ok observed

/-- `queue`, `context` and `callback` decide only where a notification runs. -/
structure Registration where
  store : StoreHandle
  owner : ContextId
  active : Bool := true
  polling : Bool := false
  running : Nat := 0
  last : GameLicense

/-- Every registration that a thread may still refer to, and which of them are in the manager's
map. -/
structure Manager where
  registrations : Token → Option Registration
  listed : List Token
  next : Token
  stopped : Bool
  isOpen : ContextId → Bool

/-- What happened to a registration. -/
inductive Event where
  | registered (last : GameLicense)
  /-- a poll read the license, or failed to -/
  | read (result : Except HResult GameLicense)
  | queued (license : GameLicense)
  /-- the license became the one that was last seen -/
  | stored (license : GameLicense)
  | started
  /-- an unregistration returned `TRUE` -/
  | unregistered

/-- Where a thread is in the call that it is in. -/
inductive Thread where
  /-- `XodusStoreRegisterGameLicenseChanged` has read the license -/
  | register (store : StoreHandle) (owner : ContextId) (license : GameLicense)
  | poll (rest : List Token)
  /-- the poll has claimed the registration -/
  | read (t : Token) (rest : List Token)
  | compare (t : Token) (rest : List Token) (result : Except HResult GameLicense)
  | submit (t : Token) (rest : List Token) (license : GameLicense)
  /-- with the license of the notification that was queued -/
  | finish (t : Token) (rest : List Token) (license : Option GameLicense)
  /-- `notification` has counted the callback, which starts next -/
  | claimed (t : Token)
  | callback (t : Token)
  /-- `XodusStoreUnregisterGameLicenseChanged` has found the registration; `own` says that a callback
  of it called -/
  | unregister (t : Token) (wait own : Bool)
  /-- it waits until no callback runs -/
  | draining (t : Token)
  /-- `erase_if_idle`; `answers` says that an unregistration returns `TRUE` after it -/
  | eraseIfIdle (t : Token) (answers : Bool)
  /-- the loop of `XodusStoreLicenseEventsContextClosed` -/
  | contextClosed (store : StoreHandle) (cursor : Token)
  | contextClosing (store : StoreHandle) (t : Token)
  /-- the loop of `XodusStoreLicenseEventsShutdown` -/
  | shutdown (cursor : Token)

structure Process where
  manager : Manager
  threads : List Thread
  /-- the notifications in task queues -/
  jobs : List Token
  /-- what happened to each registration, newest first -/
  past : Token → List Event

namespace Process

def log (sys : Process) (t : Token) (e : Event) : Process :=
  { sys with past := Function.update sys.past t (e :: sys.past t) }

def edit (sys : Process) (t : Token) (f : Registration → Registration) : Process :=
  { sys with
    manager := { sys.manager with
      registrations := Function.update sys.manager.registrations t
        ((sys.manager.registrations t).map f) } }

/-- `reg->active = false` -/
def deactivate (sys : Process) (t : Token) : Process :=
  sys.edit t fun reg => { reg with active := false }

def eraseIfIdle (sys : Process) (t : Token) : Process :=
  if (sys.manager.registrations t).any fun reg => !reg.active && reg.running == 0 then
    { sys with manager := { sys.manager with listed := sys.manager.listed.erase t } }
  else sys

/-- `notification`: a queued job runs, or is cancelled by its queue. -/
def notification (sys : Process) (t : Token) (cancelled : Bool) : Process :=
  match sys.manager.registrations t with
  | none => sys
  | some reg =>
    if cancelled || !reg.active || !sys.manager.isOpen reg.owner then sys
    else
      let sys := sys.edit t fun reg => { reg with running := reg.running + 1 }
      { sys with threads := .claimed t :: sys.threads }

/-- The second part of `XodusStoreRegisterGameLicenseChanged`. -/
def insert (sys : Process) (store : StoreHandle) (owner : ContextId) (license : GameLicense) :
    Process :=
  let m := sys.manager
  if m.stopped || !m.isOpen owner || m.next == 2 ^ 64 - 1 then sys
  else
    { sys with
      manager := { m with
        registrations := Function.update m.registrations m.next
          (some { store, owner, last := license })
        listed := m.listed ++ [m.next]
        next := m.next + 1 } }.log m.next (.registered license)

/-- The first part of `XodusStoreUnregisterGameLicenseChanged`. -/
def unregister (sys : Process) (store : StoreHandle) (t : Token) (wait own : Bool) : Process :=
  match sys.manager.registrations t with
  | none => sys
  | some reg =>
    if t ∉ sys.manager.listed then sys.log t .unregistered
    else if reg.store ≠ store then sys
    else { sys with threads := .unregister t wait own :: sys.threads }

/-- What a thread gets from outside. -/
structure Input where
  observation : Observation
  /-- what `XTaskQueueSubmitCallback` returns, or why there is no memory for the job -/
  submitted : HResult

/-- The thread's next step, with where it goes on; `none` if it has to wait. -/
def turn (sys : Process) (input : Input) : Thread → Option (List Thread × Process)
  | .register store owner license => some ([], sys.insert store owner license)
  | .poll [] => some ([], sys)
  | .poll (t :: rest) =>
    match sys.manager.registrations t with
    | none => some ([.poll rest], sys)
    | some reg =>
      if !reg.active || reg.polling || !sys.manager.isOpen reg.owner then some ([.poll rest], sys)
      else some ([.read t rest], sys.edit t fun reg => { reg with polling := true })
  | .read t rest =>
    let result := readGameLicense input.observation
    some ([.compare t rest result], sys.log t (.read result))
  | .compare t rest result =>
    match sys.manager.registrations t, result with
    | some reg, .ok next =>
      if reg.active && sys.manager.isOpen reg.owner && !sameLicense reg.last next then
        some ([.submit t rest next], sys)
      else some ([.finish t rest none], sys)
    | _, _ => some ([.finish t rest none], sys)
  | .submit t rest license =>
    if failed input.submitted then some ([.finish t rest none], sys)
    else
      some ([.finish t rest (some license)],
        { sys with jobs := t :: sys.jobs }.log t (.queued license))
  | .finish t rest none =>
    some ([.poll rest], sys.edit t fun reg => { reg with polling := false })
  | .finish t rest (some license) =>
    some ([.poll rest],
      (sys.edit t fun reg => { reg with last := license, polling := false }).log t
        (.stored license))
  | .claimed t => some ([.callback t], sys.log t .started)
  | .callback t =>
    some ([.eraseIfIdle t false], sys.edit t fun reg => { reg with running := reg.running - 1 })
  | .unregister t wait own =>
    let sys := sys.deactivate t
    if wait && !own then some ([.draining t], sys)
    else if (sys.manager.registrations t).any (·.running == 0) then
      some ([.eraseIfIdle t true], sys)
    else some ([], sys)
  | .draining t =>
    if (sys.manager.registrations t).any (·.running == 0) then some ([.eraseIfIdle t true], sys)
    else none
  | .eraseIfIdle t answers =>
    let sys := sys.eraseIfIdle t
    some ([], if answers then sys.log t .unregistered else sys)
  | .contextClosed store cursor =>
    match sys.manager.listed.find? fun t => decide (cursor < t) &&
        (sys.manager.registrations t).any (·.store == store) with
    | none => some ([], sys)
    | some t => some ([.contextClosing store t], sys.deactivate t)
  -- waiting for a callback that runs only delays what comes next
  | .contextClosing store t => some ([.contextClosed store t], sys.eraseIfIdle t)
  | .shutdown cursor =>
    match sys.manager.listed.find? fun t => decide (cursor < t) with
    | none => some ([], sys)
    | some t => some ([.shutdown t], sys.eraseIfIdle t)

end Process

/-- A step of any thread, of the game, or of the timer. -/
inductive Step (sys : Process) : Process → Prop where
  | turn (input : Process.Input) (before after next : List Thread) (thread : Thread)
      (sys' : Process) : sys.threads = before ++ thread :: after →
      sys.turn input thread = some (next, sys') →
      Step sys { sys' with threads := before ++ next ++ after }
  /-- `XodusStoreRegisterGameLicenseChanged` has a queue and reads the license -/
  | register (store : StoreHandle) (owner : ContextId) (o : Observation) (license : GameLicense) :
      readGameLicense o = .ok license →
      Step sys { sys with threads := .register store owner license :: sys.threads }
  | poll : sys.manager.stopped = false →
      Step sys { sys with threads := .poll sys.manager.listed :: sys.threads }
  /-- a poll runs out of memory while it reads -/
  | thrown (before after : List Thread) (t : Token) (rest : List Token) :
      sys.threads = before ++ .read t rest :: after →
      Step sys { sys with threads := before ++ after }
  | notification (t : Token) (cancelled : Bool) : t ∈ sys.jobs →
      Step sys ({ sys with jobs := sys.jobs.erase t }.notification t cancelled)
  | unregister (store : StoreHandle) (t : Token) (wait own : Bool) :
      (own = true → .callback t ∈ sys.threads) → Step sys (sys.unregister store t wait own)
  /-- `XodusStoreContextClose` -/
  | closeContext (store : StoreHandle) (c : ContextId) :
      Step sys { sys with
        manager := { sys.manager with isOpen := Function.update sys.manager.isOpen c false }
        threads := .contextClosed store 0 :: sys.threads }
  | shutdown :
      Step sys { sys with
        manager := { sys.manager with
          stopped := true
          registrations := fun t =>
            if t ∈ sys.manager.listed then
              (sys.manager.registrations t).map fun reg => { reg with active := false }
            else sys.manager.registrations t }
        threads := .shutdown 0 :: sys.threads }

/-- The runtime was just loaded. -/
structure Loaded (sys : Process) : Prop where
  registrations : ∀ t, sys.manager.registrations t = none
  listed : sys.manager.listed = []
  threads : sys.threads = []
  past : ∀ t, sys.past t = []

inductive Reachable : Process → Prop where
  | start {sys : Process} : Loaded sys → Reachable sys
  | step {sys sys' : Process} : Reachable sys → Step sys sys' → Reachable sys'

end Flightdeck.Store.LicenseEvents
