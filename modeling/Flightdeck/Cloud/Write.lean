import Flightdeck.Cloud.Policy
import Flightdeck.Cloud.Protocol

/-!
# Exclusive cloud writes

`upload` replaces the cloud content by a local state: one container after the other under a lease
that is renewed before every mutation, each read back before the next.  The server is whatever
answers the operations; it and its surroundings act on a state of their own.
-/

namespace Flightdeck.Cloud.Write

open Foundation SaveState

structure LeaseReply where
  status : UInt16
  ownerChangeId : String
  quotaBytes : UInt64
  deriving DecidableEq

/-- The trait `Operations` over the state `σ` of the other side. -/
structure Operations (σ : Type) where
  scope : Scope
  acquire : (timeout : Nat) → EStateM Failure σ LeaseReply
  renew : (timeout : Nat) → EStateM Failure σ LeaseReply
  release : (timeout : Nat) → EStateM Failure σ UInt16
  uploadAtom : (payload : Bytes) → (timeout : Nat) → EStateM Failure σ String
  putContainer : (name display : String) → (modified : UInt64) → (atoms : TextMap String) →
    (timeout : Nat) → EStateM Failure σ UInt16
  deleteContainer : (name : String) → (timeout : Nat) → EStateM Failure σ UInt16
  remote : (timeout : Nat) → (force : TextSet) → EStateM Failure σ State

structure Limits where
  operations : Nat := 8192
  blobBytes : Nat := 64 * 1024 * 1024
  totalBytes : Nat := QUOTA
  timeout : Nat := seconds 30
  deadline : Nat := seconds 600
  cleanup : Nat := seconds 10

structure Receipt where
  binding : String
  source : String
  before : String
  changed : Nat
  containers : Nat
  blobs : Nat
  total : Nat
  released : Bool
  deriving DecidableEq

def entryDigest [Sha256] (name : String) (entry : Option Container) :
    Except Failure (Option String) :=
  match entry with
  | none => .ok none
  | some entry => some <$> Import.digest (single name entry)

/-- The fields of the source's `Write` that never change. -/
structure Context (σ : Type) where
  ops : Operations σ
  env : Ambient σ
  limits : Limits
  deadline : Nat

/-- The fields of the source's `Write` that change, and the other side. -/
structure Run (σ : Type) where
  world : σ
  operations : Nat := 0
  committed : Nat := 0
  mutationAttempted : Bool := false
  acquired : Bool := false
  owner : Option String := none
  mutated : TextSet := ∅

variable {σ : Type}

/-- A call that only the other side sees. -/
def call {α : Type} (m : EStateM Failure σ α) : EStateM Failure (Run σ) α :=
  zoom Run.world (fun world run => { run with world }) m

variable (c : Context σ)

def check : EStateM Failure (Run σ) Nat := do
  let left ← call (remaining c.env c.deadline)
  match ← attempt (call c.env.assertLocal) with
  | .ok () => return left
  | .error _ => throw (.new .localChanged)

def budget : EStateM Failure (Run σ) Nat := do
  let left := min (← check c) c.limits.timeout
  modify fun run => { run with operations := run.operations + 1 }
  require ((← get).operations ≤ c.limits.operations) .bounds
  return left

def remote [Sha256] (force : TextSet) : EStateM Failure (Run σ) State := do
  let timeout ← check c
  let state ← call (c.ops.remote timeout force)
  let _ ← liftM ((encode state).mapError fun _ => Failure.new .invalidInput)
  let _ ← check c
  return state

/-- The fields of a lease reply that an accepting answer must have. -/
def LeaseReply.wellFormed (reply : LeaseReply) : Bool :=
  !reply.ownerChangeId.isEmpty && (utf8 reply.ownerChangeId).length ≤ 1024 &&
    !reply.ownerChangeId.toList.any (fun c => c < ' ' || c == Char.ofNat 127) &&
    0 < reply.quotaBytes

def setAcquired (acquired : Bool) : EStateM Failure (Run σ) Unit :=
  modify fun run => { run with acquired }

def lease (reply : LeaseReply) (first : Bool) : EStateM Failure (Run σ) UInt64 := do
  if reply.status = 401 ∨ reply.status = 403 then
    setAcquired false
    throw ((Failure.new .authentication).status reply.status)
  if reply.status = 409 then
    setAcquired false
    throw ((Failure.new .leaseLost).status 409)
  if ¬ (reply.status = 200 ∨ reply.status = 201) then
    throw ((Failure.new .transport).status reply.status)
  require reply.wellFormed .invalidResponse
  if first then
    modify fun run => { run with owner := some reply.ownerChangeId, acquired := true }
  else if reply.status = 201 then
    setAcquired true
    throw (.new .leaseLost)
  else if (← get).owner ≠ some reply.ownerChangeId then
    setAcquired false
    throw (.new .leaseLost)
  else
    setAcquired true
  let _ ← check c
  return reply.quotaBytes

/-- An unconfirmed renewal must never release a possibly foreign lease. -/
def renew : EStateM Failure (Run σ) Unit := do
  let timeout ← budget c
  setAcquired false
  let reply ← call (c.ops.renew timeout)
  let _ ← lease c reply false

def textSet (name : String) : TextSet := (∅ : TextSet).insert name ()

def confirm [Sha256] (name : String) (expected : Option Container) :
    EStateM Failure (Run σ) Unit := do
  renew c
  let actual ← remote c (textSet name)
  require ((← entryDigest name actual.containers[name]?) == (← entryDigest name expected))
    .readback
  renew c
  modify fun run => { run with committed := run.committed + 1 }

def wireName (name : String) : String := name ++ ",savedgame"

def mutate (name : String) (entry : Option Container) (atoms : TextMap String) (timeout : Nat) :
    EStateM Failure σ UInt16 :=
  match entry with
  | some entry => c.ops.putContainer (wireName name) entry.displayName entry.modified atoms timeout
  | none => c.ops.deleteContainer (wireName name) timeout

def commit [Sha256] (name : String) (entry : Option Container) (atoms : TextMap String) :
    EStateM Failure (Run σ) Unit := do
  renew c
  let _ ← check c
  modify fun run =>
    { run with mutationAttempted := true, mutated := run.mutated.insert name () }
  let timeout ← budget c
  let reply ← attempt (call (mutate c name entry atoms timeout))
  match reply with
  | .ok status =>
    if status = 409 then
      setAcquired false
      throw ((Failure.new .leaseLost).status 409)
    if status = 401 ∨ status = 403 then
      setAcquired false
      throw ((Failure.new .authentication).status status)
  -- A lost or negative response may follow a successful commit.
  | .error _ => pure ()
  confirm c name entry

/-- One turn of the loop over the blobs: the atoms so far and their lower-case ids. -/
def uploadBlob (done : TextMap String × TextSet) (blob : String × Bytes) :
    EStateM Failure (Run σ) (TextMap String × TextSet) := do
  let timeout ← budget c
  let atom ← call (c.ops.uploadAtom blob.2 timeout)
  require (guid atom && !done.2.contains atom.toLower) .invalidResponse
  let done := (done.1.insert blob.1 atom, done.2.insert atom.toLower ())
  let _ ← check c
  return done

/-- Both sides have the container, with the same content. -/
def sameEntry [Sha256] (name : String) (target old : Option Container) : Except Failure Bool :=
  match target, old with
  | some target, some old => do
    return (← entryDigest name (some target)) == (← entryDigest name (some old))
  | _, _ => .ok false

/-- One turn of the loop over the names. -/
def uploadName [Sha256] («local» remote : State) (name : String) :
    EStateM Failure (Run σ) Unit := do
  let target := «local».containers[name]?
  let old := remote.containers[name]?
  if ← sameEntry name target old then
    return
  let atoms ← match target with
    | some target => do
      renew c
      let (atoms, _) ← target.blobs.toList.foldlM (uploadBlob c) (∅, ∅)
      pure atoms
    | none => pure ∅
  commit c name target atoms

/-- The names of both states, each once and in byte order. -/
def uploadNames («local» remote : State) : List String :=
  unionNames «local».containers remote.containers none

/-- The closure of `upload`. -/
def body [Sha256] («local» : State) (expected source : String) (total : Nat) :
    EStateM Failure (Run σ) Unit := do
  let timeout ← budget c
  let reply ← call (c.ops.acquire timeout)
  let quota ← lease c reply true
  require (total ≤ quota.toNat) .quota
  let first ← remote c ∅
  require ((← Import.digest first) == expected) .conflict
  renew c
  (uploadNames «local» first).forM (uploadName c «local» first)
  renew c
  let forced := (← get).mutated
  let last ← remote c forced
  require ((← Import.digest last) == source) .readback
  renew c

/-- A failure whose status says that the lease is gone. -/
def lostStatus (error : Failure) : Bool :=
  error.httpStatus == some 401 || error.httpStatus == some 403 || error.httpStatus == some 409

/-- Release the lease if it is ours; whether the server answered that it is gone. -/
def release (acquired : Bool) : EStateM Failure σ Bool := do
  if acquired then
    match ← attempt (c.ops.release c.limits.cleanup) with
    | .ok status => return status == 200 || status == 204
    | .error _ => return false
  else
    return false

/-- The receipt of an upload that went through, or the failure with what it leaves behind. -/
def report [Sha256] (scope : Scope) («local» : State) (expected source : String)
    (result : Except Failure Unit) (run : Run σ) (released : Bool) : Except Failure Receipt :=
  match result with
  | .error error =>
    .error { error with
      committedContainers := run.committed
      recoveryRequired := run.mutationAttempted }
  | .ok () =>
    let (containers, blobs, total) := Import.counts «local»
    .ok {
      binding := scope.binding
      source
      before := expected
      changed := run.committed
      containers, blobs, total, released }

/-- The end of `upload`. -/
def finish [Sha256] (scope : Scope) («local» : State) (expected source : String)
    (result : Except Failure Unit) (run : Run σ) : EStateM Failure σ Receipt := do
  let acquired := match result with
    | .ok () => run.acquired
    | .error error => run.acquired && !lostStatus error
  let released ← release c acquired
  report scope «local» expected source result run released

/-- The body, with its result as a value and the other side left in the state it reached. -/
def runBody [Sha256] («local» : State) (expected source : String) (total : Nat) :
    EStateM Failure σ (Except Failure Unit × Run σ) := fun world =>
  match body c «local» expected source total { world } with
  | .ok () run => .ok (.ok (), run) run.world
  | .error error run => .ok (.error error, run) run.world

def upload [Sha256] (scope : Scope) (ops : Operations σ) («local» : State) (expected : String)
    (env : Ambient σ) (limits : Limits) : EStateM Failure σ Receipt := do
  require (ops.scope == scope) .invalidScope
  require (hexDigest expected) .invalidInput
  let _ ← liftM ((encode «local»).mapError fun _ => Failure.new .invalidInput)
  let source ← Import.digest «local»
  let (_, _, total) := Import.counts «local»
  require (total ≤ limits.totalBytes && ((values «local».containers).flatMap
    fun c => values c.blobs).all fun b => b.length ≤ limits.blobBytes) .bounds
  let now ← env.instant
  let c : Context σ := { ops, env, limits, deadline := now + limits.deadline }
  let (result, run) ← runBody c «local» expected source total
  finish c scope «local» expected source result run

end Flightdeck.Cloud.Write
