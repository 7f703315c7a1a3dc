import Flightdeck.Foundation.Effects
import Flightdeck.Foundation.TextMap
import Flightdeck.HResults

/-!
# Durable licenses

Every handle starts with a signed grant, is renewed while it is held, and expires for good once that
proof is stale.  Threads poll, open and close handles, and deliver notifications; what runs under a
lock is one step, and between two steps any other thread may go on.
-/

namespace Flightdeck.Store

open Foundation

/-- `XStoreGameLicense`; `skuStoreId` holds its 18 bytes and `trialUniqueId` its 64. -/
structure GameLicense where
  skuStoreId : Bytes
  isActive : UInt8
  isTrialOwnedByThisUser : UInt8
  isDiscLicense : UInt8
  isTrial : UInt8
  trialTimeRemainingInSeconds : UInt32
  trialUniqueId : Bytes
  expirationDate : Int
  deriving DecidableEq

abbrev Handle := Nat
abbrev Token := Nat
abbrev ContextId := Nat

structure License where
  owner : ContextId
  product : Bytes
  proof : GameLicense
  deadline : UInt64
  renewAt : UInt64
  closed : Bool
  lost : Bool
  polling : Bool
  cancelled : Bool
  deriving DecidableEq

/-- What `utc()` and `ticks()` return, and whether another thread closes the license's context just
before it is looked at. -/
structure Reading where
  closes : Bool
  utc : Int
  ticks : UInt64
  deriving DecidableEq

/-- `valid_locked` -/
def validLocked (isOpen : Bool) (r : Reading) (license : License) : Bool × License :=
  if license.closed || license.lost then (false, license)
  else if !isOpen || license.proof.expirationDate ≤ r.utc || license.deadline ≤ r.ticks then
    (false, { license with lost := true, cancelled := true })
  else (true, license)

/-- `set_proof`, with `none` for a proof that is not accepted -/
def setProof (r : Reading) (proof : GameLicense) (license : License) : Option License :=
  let seconds := proof.expirationDate - r.utc
  if seconds ≤ 0 ∨ 60 < seconds then none
  else
    let remaining := UInt64.ofNat seconds.toNat * 1000
    some { license with
      proof
      deadline := r.ticks + remaining
      renewAt := r.ticks + min 20000 (remaining / 3) }

/-- Whether the byte is one of `A` to `Z` and `0` to `9`. -/
def isAlphanumeric (b : UInt8) : Bool := (65 ≤ b && b ≤ 90) || (48 ≤ b && b ≤ 57)

/-- The bytes of a C string. -/
def cstring (bytes : Bytes) : Bytes := bytes.takeWhile (· != 0)

/-- What `observe` reads while other threads run. -/
structure Observation where
  openBefore : Bool
  cancelledBefore : Bool
  /-- what `query_durable_license` returns and writes, if the provider has it -/
  result : Option (HResult × GameLicense)
  openAfter : Bool
  cancelledAfter : Bool
  now : Int

/-- The proof is an active, full license of the product that expires within a minute. -/
def acceptable (product : Bytes) (proof : GameLicense) (now : Int) : Bool :=
  let sku := cstring proof.skuStoreId
  sku.length == 17 && sku.take 12 == product && sku.getD 12 0 == 47 &&
    (sku.drop 13).all isAlphanumeric && proof.isActive == 1 && proof.isTrial == 0 &&
    proof.isTrialOwnedByThisUser == 0 && proof.isDiscLicense == 0 &&
    proof.trialTimeRemainingInSeconds == 0 && proof.trialUniqueId.getD 0 0 == 0 &&
    decide (now < proof.expirationDate) && decide (proof.expirationDate ≤ now + 60)

def observe (product : Bytes) (o : Observation) : Except HResult GameLicense :=
  if !o.openBefore || o.cancelledBefore then .error E_ABORT
  else
    match o.result with
    | none => .error E_NOTIMPL
    | some (hr, proof) =>
      if !o.openAfter || o.cancelledAfter then .error E_ABORT
      else if failed hr then .error hr
      else if acceptable product proof o.now then .ok proof
      else .error INVALID_DATA

/-- `queue`, `context` and `callback` decide only where a notification runs. -/
structure Registration where
  handle : Handle
  active : Bool
  queued : Bool
  delivered : Bool
  running : Nat

/-- Every license and registration that a thread may still refer to, and which of them are in the
manager's maps. -/
structure Manager where
  licenses : Handle → Option License
  held : List Handle
  registrations : Token → Option Registration
  listed : List Token
  nextHandle : Nat
  nextToken : Nat
  stopped : Bool
  isOpen : ContextId → Bool

def Manager.editLicense (m : Manager) (h : Handle) (f : License → License) : Manager :=
  { m with licenses := Function.update m.licenses h ((m.licenses h).map f) }

def Manager.editRegistration (m : Manager) (t : Token) (f : Registration → Registration) :
    Manager :=
  { m with registrations := Function.update m.registrations t ((m.registrations t).map f) }

/-- When a proof was accepted, and until when it lasts. -/
structure Proved where
  utc : Int
  ticks : UInt64
  expirationDate : Int
  deriving DecidableEq

inductive Event where
  | proved (h : Handle) (owner : ContextId) (p : Proved)
  | valid (h : Handle) (r : Reading)
  | invalid (h : Handle)
  | closed (h : Handle)
  | contextClosed (c : ContextId)
  | delivered (t : Token) (h : Handle)
  deriving DecidableEq

/-- Where a thread is in the call that it is in. -/
inductive Thread where
  /-- `XodusStoreDurableAcquire` has accepted the proof -/
  | acquire (license : License) (p : Proved)
  /-- `XodusStoreIsLicenseValid` has found the license -/
  | isValid (h : Handle)
  /-- the loop of `XodusStoreCloseLicenseHandle` -/
  | close (h : Handle) (cursor : Token)
  /-- that loop has deactivated a registration -/
  | closing (h : Handle) (t : Token)
  /-- `XodusStoreUnregisterPackageLicenseLost` has found the registration -/
  | unregister (t : Token)
  | eraseIfIdle (t : Token)
  /-- `XodusStoreContextClose` calls `XodusStoreDurableContextClosed` -/
  | contextClosing (c : ContextId)
  /-- that call, and the licenses that are left to it -/
  | contextClosed (c : ContextId) (rest : List Handle)
  | poll (rest : List Handle)
  | observe (h : Handle) (rest : List Handle)
  | notifyLost (h : Handle) (rest : List Handle)
  /-- the second loop of `notify_lost` -/
  | submit (tokens : List Token) (rest : List Handle)
  /-- a registration is queued and `XTaskQueueSubmitCallback` is called -/
  | submitted (t : Token) (tokens : List Token) (rest : List Handle)
  | callback (t : Token)
  deriving DecidableEq

structure Process where
  manager : Manager
  threads : List Thread
  /-- the notifications in task queues -/
  jobs : List Token
  /-- newest first -/
  history : List Event

namespace Process

def log (sys : Process) (e : Event) : Process := { sys with history := e :: sys.history }

def spawn (sys : Process) (t : Thread) : Process := { sys with threads := t :: sys.threads }

/-- The thread's step is over; where it goes on is spawned again. -/
def leave (sys : Process) (t : Thread) : Process := { sys with threads := sys.threads.erase t }

def edit (sys : Process) (f : Manager → Manager) : Process := { sys with manager := f sys.manager }

/-- `XodusStoreContextClose`: the flag is set, and the licenses are told in a call of its own. -/
def closeContext (sys : Process) (c : ContextId) : Process :=
  ((sys.edit fun m => { m with isOpen := Function.update m.isOpen c false }).log
    (.contextClosed c)).spawn (.contextClosing c)

def examine (sys : Process) (h : Handle) (r : Reading) (license : License) : Bool × Process :=
  let found := validLocked (sys.manager.isOpen license.owner) r license
  (found.1, (sys.edit fun m => m.editLicense h fun _ => found.2).log
    (if found.1 then .valid h r else .invalid h))

/-- `valid_locked` on the license of a handle. -/
def look (sys : Process) (h : Handle) (r : Reading) : Bool × Process :=
  match sys.manager.licenses h with
  | none => (false, sys)
  | some license => (if r.closes then sys.closeContext license.owner else sys).examine h r license

/-! ## Handles -/

def newLicense (owner : ContextId) (product : Bytes) (proof : GameLicense) : License :=
  { owner, product, proof, deadline := 0, renewAt := 0, closed := false, lost := false
    polling := false, cancelled := false }

/-- The first part of `XodusStoreDurableAcquire`: the product is observed and its proof accepted. -/
def acquire (sys : Process) (owner : ContextId) (product : Bytes) (o : Observation) (r : Reading) :
    Process :=
  if product.length = 12 ∧ product.all isAlphanumeric then
    match observe product o with
    | .error _ => sys
    | .ok proof =>
      match setProof r proof (newLicense owner product proof) with
      | none => sys
      | some license => sys.spawn (.acquire license ⟨r.utc, r.ticks, proof.expirationDate⟩)
  else sys

/-- The second part: the license gets its handle. `initialized` and `cancelled` are what it reads of
the manager's timer and the caller. -/
def insert (sys : Process) (license : License) (p : Proved) (initialized cancelled : Bool) :
    Process :=
  let m := sys.manager
  if !initialized || m.stopped || !m.isOpen license.owner || cancelled then sys
  else if 128 ≤ m.held.length || 2 ^ 64 - 1 ≤ m.nextHandle then sys
  else
    (sys.edit fun m => { m with
      licenses := Function.update m.licenses m.nextHandle (some license)
      held := m.held ++ [m.nextHandle]
      nextHandle := m.nextHandle + 1 }).log (.proved m.nextHandle license.owner p)

/-- `XodusStoreIsLicenseValid`: a handle that was closed is not valid. -/
def isValid (sys : Process) (h : Handle) : Process :=
  if h ∈ sys.manager.held then sys.spawn (.isValid h)
  else if (sys.manager.licenses h).isSome then sys.log (.invalid h)
  else sys

/-- The first part of `XodusStoreCloseLicenseHandle`. -/
def closeHandle (sys : Process) (h : Handle) : Process :=
  if h ∈ sys.manager.held then
    ((sys.edit fun m =>
      { m.editLicense h (fun l => { l with closed := true, cancelled := true }) with
        held := m.held.erase h }).log (.closed h)).spawn (.close h 0)
  else sys

def hasHandle (m : Manager) (h : Handle) (t : Token) : Bool :=
  (m.registrations t).any (·.handle == h)

/-- `deactivate`; waiting for a callback that runs only delays what comes next. -/
def deactivate (sys : Process) (t : Token) : Process :=
  sys.edit fun m => m.editRegistration t fun reg => { reg with active := false }

/-- The next round of the loop in `XodusStoreCloseLicenseHandle`. -/
def closeNext (sys : Process) (h : Handle) (cursor : Token) : Process :=
  match sys.manager.listed.find? fun t => decide (cursor < t) && hasHandle sys.manager h t with
  | none => sys
  | some t => (sys.deactivate t).spawn (.closing h t)

def eraseIfIdle (sys : Process) (t : Token) : Process :=
  if (sys.manager.registrations t).any fun reg => !reg.active && reg.running == 0 then
    sys.edit fun m => { m with listed := m.listed.erase t }
  else sys

/-! ## Registrations -/

/-- `XodusStoreRegisterPackageLicenseLost`; `queued` says that it got a task queue. -/
def register (sys : Process) (h : Handle) (queued : Bool) : Process :=
  let m := sys.manager
  if !queued || m.stopped || !decide (h ∈ m.held) then sys
  else if m.nextToken = 2 ^ 64 - 1 ∨ 1024 ≤ m.listed.length then sys
  else
    sys.edit fun m => { m with
      registrations := Function.update m.registrations m.nextToken
        (some ⟨h, true, false, false, 0⟩)
      listed := m.listed ++ [m.nextToken]
      nextToken := m.nextToken + 1 }

def unregister (sys : Process) (h : Handle) (t : Token) : Process :=
  if t ∈ sys.manager.listed ∧ hasHandle sys.manager h t then sys.spawn (.unregister t) else sys

/-- `notification`: a queued job runs, or is cancelled by its queue. -/
def notification (sys : Process) (t : Token) (cancelled : Bool) : Process :=
  match sys.manager.registrations t with
  | none => sys
  | some reg =>
    let sys := sys.edit fun m => m.editRegistration t fun reg => { reg with queued := false }
    if cancelled || !reg.active || reg.delivered then sys
    else
      ((sys.edit fun m => m.editRegistration t fun reg =>
        { reg with delivered := true, running := reg.running + 1 }).log
        (.delivered t reg.handle)).spawn (.callback t)

/-! ## Polls -/

/-- The first part of `poll` for a license. -/
def pollLook (sys : Process) (h : Handle) (rest : List Handle) (r : Reading) (ticks : UInt64) :
    Process :=
  let (valid, sys) := sys.look h r
  match sys.manager.licenses h with
  | none => sys.spawn (.poll rest)
  | some license =>
    if !valid then sys.spawn (.notifyLost h rest)
    else if !license.polling && license.renewAt ≤ ticks then
      (sys.edit fun m => m.editLicense h fun l => { l with polling := true }).spawn
        (.observe h rest)
    else sys.spawn (.poll rest)

/-- The proof of a renewal is accepted, or the next one is put off. -/
def renew (sys : Process) (h : Handle) (valid : Bool) (result : Except HResult GameLicense)
    (r : Reading) : Process :=
  match sys.manager.licenses h, result with
  | some license, .ok proof =>
    if valid then
      match setProof r proof license with
      | some license =>
        (sys.edit fun m => m.editLicense h fun _ => license).log
          (.proved h license.owner ⟨r.utc, r.ticks, proof.expirationDate⟩)
      | none => sys.edit fun m => m.editLicense h fun l => { l with renewAt := r.ticks + 1000 }
    else sys
  | some _, .error _ =>
    sys.edit fun m => m.editLicense h fun l => { l with renewAt := r.ticks + 5000 }
  | none, _ => sys

/-- The second part of `poll` for a license: a handle that expired or was lost during the read is
not revived. -/
def pollRenew (sys : Process) (h : Handle) (rest : List Handle)
    (result : Except HResult GameLicense) (before now after : Reading) : Process :=
  let (valid, sys) := sys.look h before
  let sys := sys.renew h valid result now
  let sys := sys.edit fun m => m.editLicense h fun l => { l with polling := false }
  let (valid, sys) := sys.look h after
  match sys.manager.licenses h with
  | none => sys.spawn (.poll rest)
  | some _ => if valid then sys.spawn (.poll rest) else sys.spawn (.notifyLost h rest)

/-- The snapshot of `notify_lost`. -/
def notifyLost (sys : Process) (h : Handle) (rest : List Handle) : Process :=
  if sys.manager.stopped then sys.spawn (.poll rest)
  else sys.spawn (.submit (sys.manager.listed.filter (hasHandle sys.manager h)) rest)

def submit (sys : Process) (t : Token) (tokens : List Token) (rest : List Handle) : Process :=
  if (sys.manager.registrations t).any fun reg =>
      reg.active && !reg.queued && !reg.delivered then
    (sys.edit fun m => m.editRegistration t fun reg => { reg with queued := true }).spawn
      (.submitted t tokens rest)
  else sys.spawn (.submit tokens rest)

/-- How `XTaskQueueSubmitCallback` ends. -/
def submitted (sys : Process) (t : Token) (tokens : List Token) (rest : List Handle)
    (hr : HResult) : Process :=
  if failed hr then
    (sys.edit fun m => m.editRegistration t fun reg => { reg with queued := false }).spawn
      (.submit tokens rest)
  else { sys with jobs := t :: sys.jobs }.spawn (.submit tokens rest)

/-- One license of `XodusStoreDurableContextClosed`. -/
def loseLicense (sys : Process) (c : ContextId) (h : Handle) : Process :=
  sys.edit fun m => m.editLicense h fun l =>
    if l.owner = c then { l with lost := true, cancelled := true } else l

end Process

/-- A step of any thread, of the game, or of the clocks. -/
inductive Step (sys : Process) : Process → Prop where
  | acquire (owner : ContextId) (product : Bytes) (o : Observation) (r : Reading) :
      Step sys (sys.acquire owner product o r)
  | insert (license : License) (p : Proved) (initialized cancelled : Bool) :
      .acquire license p ∈ sys.threads →
      Step sys ((sys.leave (.acquire license p)).insert license p initialized cancelled)
  | isValid (h : Handle) : Step sys (sys.isValid h)
  | isValidLook (h : Handle) (r : Reading) : .isValid h ∈ sys.threads →
      Step sys ((sys.leave (.isValid h)).look h r).2
  | closeHandle (h : Handle) : Step sys (sys.closeHandle h)
  | closeNext (h : Handle) (cursor : Token) : .close h cursor ∈ sys.threads →
      Step sys ((sys.leave (.close h cursor)).closeNext h cursor)
  | closing (h : Handle) (t : Token) : .closing h t ∈ sys.threads →
      Step sys (((sys.leave (.closing h t)).eraseIfIdle t).spawn (.close h t))
  | register (h : Handle) (queued : Bool) : Step sys (sys.register h queued)
  | unregister (h : Handle) (t : Token) : Step sys (sys.unregister h t)
  | deactivate (t : Token) : .unregister t ∈ sys.threads →
      Step sys (((sys.leave (.unregister t)).deactivate t).spawn (.eraseIfIdle t))
  | eraseIfIdle (t : Token) : .eraseIfIdle t ∈ sys.threads →
      Step sys ((sys.leave (.eraseIfIdle t)).eraseIfIdle t)
  | closeContext (c : ContextId) : Step sys (sys.closeContext c)
  | contextClosing (c : ContextId) : .contextClosing c ∈ sys.threads →
      Step sys ((sys.leave (.contextClosing c)).spawn (.contextClosed c sys.manager.held))
  | loseLicense (c : ContextId) (h : Handle) (rest : List Handle) :
      .contextClosed c (h :: rest) ∈ sys.threads →
      Step sys (((sys.leave (.contextClosed c (h :: rest))).loseLicense c h).spawn
        (.contextClosed c rest))
  | shutdown : Step sys (sys.edit fun m => { m with stopped := true })
  | poll : Step sys (if sys.manager.stopped then sys else sys.spawn (.poll sys.manager.held))
  | pollLook (h : Handle) (rest : List Handle) (r : Reading) (ticks : UInt64) :
      .poll (h :: rest) ∈ sys.threads →
      Step sys ((sys.leave (.poll (h :: rest))).pollLook h rest r ticks)
  | pollRenew (h : Handle) (rest : List Handle) (o : Observation) (before now after : Reading)
      (license : License) : .observe h rest ∈ sys.threads →
      sys.manager.licenses h = some license →
      Step sys ((sys.leave (.observe h rest)).pollRenew h rest (observe license.product o)
        before now after)
  /-- `observe` threw -/
  | pollThrown (h : Handle) (rest : List Handle) (hr : HResult) (before now after : Reading) :
      .observe h rest ∈ sys.threads →
      Step sys ((sys.leave (.observe h rest)).pollRenew h rest (.error hr) before now after)
  | notifyLost (h : Handle) (rest : List Handle) : .notifyLost h rest ∈ sys.threads →
      Step sys ((sys.leave (.notifyLost h rest)).notifyLost h rest)
  | submit (t : Token) (tokens : List Token) (rest : List Handle) :
      .submit (t :: tokens) rest ∈ sys.threads →
      Step sys ((sys.leave (.submit (t :: tokens) rest)).submit t tokens rest)
  | submitLast (rest : List Handle) : .submit [] rest ∈ sys.threads →
      Step sys ((sys.leave (.submit [] rest)).spawn (.poll rest))
  | submitted (t : Token) (tokens : List Token) (rest : List Handle) (hr : HResult) :
      .submitted t tokens rest ∈ sys.threads →
      Step sys ((sys.leave (.submitted t tokens rest)).submitted t tokens rest hr)
  | notification (t : Token) (cancelled : Bool) : t ∈ sys.jobs →
      Step sys ({ sys with jobs := sys.jobs.erase t }.notification t cancelled)
  | callback (t : Token) : .callback t ∈ sys.threads →
      Step sys (((sys.leave (.callback t)).edit fun m => m.editRegistration t fun reg =>
        { reg with running := reg.running - 1 }).spawn (.eraseIfIdle t))
  /-- a thread that polls runs out of memory -/
  | abandon (t : Thread) : Step sys (sys.leave t)

/-- The runtime was just loaded. -/
structure Loaded (sys : Process) : Prop where
  licenses : ∀ h, sys.manager.licenses h = none
  held : sys.manager.held = []
  registrations : ∀ t, sys.manager.registrations t = none
  threads : sys.threads = []
  jobs : sys.jobs = []
  history : sys.history = []

inductive Reachable : Process → Prop where
  | start {sys : Process} : Loaded sys → Reachable sys
  | step {sys sys' : Process} : Reachable sys → Step sys sys' → Reachable sys'

end Flightdeck.Store
