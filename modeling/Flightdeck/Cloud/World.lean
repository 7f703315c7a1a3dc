import Flightdeck.Cloud.Session
import Flightdeck.Cloud.Write

/-!
# The world of a session

Two devices share a cloud: this one, whose disk and whose calls are modelled, and the others, which
replace the content whenever nobody holds the lease.  Every effect of the program takes the next
`Move`, which says what fails and what the others do just before.

A lease may expire before any call except a mutation: between the renewal that confirmed it and the
mutation after it, this device holds it.  The server grants every lease under a new owner id.
-/

namespace Flightdeck.Cloud

open Foundation SaveState Session

/-- Whether an effect is lost, before or after it happened. -/
inductive Fault where
  | none | before | after
  deriving DecidableEq

/-- What surrounds the next effect. -/
structure Move where
  fault : Fault := .none
  /-- The program ends with the fault. -/
  crash : Bool := false
  expire : Bool := false
  /-- The content that the other devices leave in the cloud. -/
  edit : Option State := none
  cancel : Bool := false
  /-- Nanoseconds until the clock is read. -/
  pause : Nat := 0
  refuse : Bool := false
  /-- A renewal creates a new lease. -/
  regrant : Bool := false
  status : UInt16 := 200
  quota : UInt64 := 1073741824

/-- What the server and the system choose: owner ids, atom ids, UUIDs, and the snapshot that a
download of some content publishes. -/
structure Service where
  owner : Nat → String
  distinct : Function.Injective owner
  atom : Nat → String
  uuid : Nat → Nat
  folder : State → String → Storage.Folder

/-- A service that counts. -/
def countingService (folder : State → String → Storage.Folder) : Service where
  owner n := String.ofList (List.replicate n 'o')
  distinct m n h := by
    have hlength := congrArg (fun s : String => s.toList.length) h
    simpa using hlength
  atom n := String.ofList (List.replicate n 'a')
  uuid n := n
  folder

/-- A change of the cloud: the new content of one container. -/
abbrev Mutation := String × Option Container

def Mutation.run (m : Mutation) (cloud : State) : State :=
  { cloud with containers := match m.2 with
    | some entry => cloud.containers.insert m.1 entry
    | none => cloud.containers.erase m.1 }

/-- The content of the cloud when a lease was granted, and the journal at that time. -/
structure Opened where
  content : State
  record : Option Record

/-- A mutation that this device sent: what the cloud and the journal held at that time, and what
this device had changed under the lease before. -/
structure Sent where
  name : String
  cloud : State
  record : Option Record
  opened : Option Opened
  own : List Mutation

/-- The cloud, with what is recorded of this device. -/
structure Server where
  cloud : State := {}
  atoms : List (String × Bytes) := []
  /-- The number of the lease that is held. -/
  lease : Option Nat := none
  grants : Nat := 0
  /-- For the last lease that was granted. -/
  opened : Option Opened := none
  /-- The mutations since the last lease was granted, newest first. -/
  own : List Mutation := []
  sent : List Sent := []

namespace Server

/-- The other devices act, if they may. -/
def others (move : Move) (s : Server) : Server :=
  match s.lease, move.edit with
  | none, some cloud => { s with cloud }
  | _, _ => s

def expiring (move : Move) (s : Server) : Server :=
  if move.expire then { s with lease := none } else s

def arrive (move : Move) (s : Server) : Server := others move (expiring move s)

def grant (journal : Option Record) (s : Server) : Server :=
  { s with
    lease := some s.grants
    grants := s.grants + 1
    opened := some ⟨s.cloud, journal⟩
    own := [] }

def mutate (m : Mutation) (s : Server) : Server :=
  { s with cloud := m.run s.cloud, own := m :: s.own }

def send (name : String) (journal : Option Record) (s : Server) : Server :=
  { s with sent :=
    { name, cloud := s.cloud, record := journal, opened := s.opened, own := s.own } :: s.sent }

end Server

structure World where
  disk : Disk := {}
  server : Server := {}
  clock : Nat := 0
  draws : Nat := 0
  alive : Bool := true
  moves : List Move := []

def World.next (w : World) : Move × World :=
  match w.moves with
  | [] => ({}, w)
  | move :: moves => (move, { w with moves })

variable {α : Type}

/-- A call that reports an error only if it changed nothing: its result is lost only in a crash. -/
def Move.sure (move : Move) : Fault :=
  if move.fault = .after ∧ move.crash = false then .none else move.fault

/-- One effect of the program; `arrive` is what happens before it can fail. -/
def effect (code : Code) (fault : Move → Fault) (arrive : Move → World → World)
    (act : Move → World → Except Failure α × World) : EStateM Failure World α := fun w =>
  if w.alive then
    let (move, w) := w.next
    let w := arrive move w
    match fault move with
    | .none =>
      match act move w with
      | (.ok a, w) => .ok a w
      | (.error e, w) => .error e w
    | .before => .error (.new code) { w with alive := !move.crash }
    | .after => .error (.new code) { (act move w).2 with alive := !move.crash }
  else
    .error (.new code) w

/-! ## The disk -/

def diskEffect (act : Move → World → Except Failure α × World) : EStateM Failure World α :=
  effect .localStorage Move.fault (fun _ w => w) act

def reading (f : Disk → Except Failure α) : EStateM Failure World α :=
  diskEffect fun _ w => (f w.disk, w)

def write (service : Service) (f : String → Disk → Except Failure (α × Disk)) (_ : Move)
    (w : World) : Except Failure α × World :=
  match f (simpleUuid (service.uuid w.draws)) w.disk with
  | .ok (a, disk) => (.ok a, { w with disk, draws := w.draws + 1 })
  | .error e => (.error e, w)

/-- One atomic change of the disk, which may use a new UUID and whose result may be lost: a flush
may fail after the change. -/
def writing (service : Service) (f : String → Disk → Except Failure (α × Disk)) :
    EStateM Failure World α :=
  diskEffect (write service f)

/-- One system call that changes the disk. -/
def systemCall (service : Service) (f : String → Disk → Except Failure (α × Disk)) :
    EStateM Failure World α :=
  effect .localStorage Move.sure (fun _ w => w) (write service f)

/-- What a run reads of the cancel flag and the clock. -/
def ambient (assertLocal : EStateM Failure World Unit) : Ambient World where
  cancelled w :=
    let (move, w) := w.next
    (move.cancel, w)
  now w :=
    let (move, w) := w.next
    (w.clock + move.pause, { w with clock := w.clock + move.pause })
  assertLocal

def cancelCheck : EStateM Failure World Unit := Cloud.check (ambient (return))

/-! ## The server -/

/-- An effect on the server only. -/
def serverEffect (act : Move → Option Record → Server → Except Failure α × Server) :
    EStateM Failure World α :=
  effect .transport Move.fault (fun move w => { w with server := w.server.arrive move }) fun move w =>
    let (result, server) := act move w.disk.journal w.server
    (result, { w with server })

def granted (service : Service) (move : Move) (journal : Option Record) (s : Server) :
    Except Failure Write.LeaseReply × Server :=
  (.ok ⟨move.status, service.owner s.grants, move.quota⟩, s.grant journal)

/-- An answer that grants nothing names no owner. -/
def refused (move : Move) : Write.LeaseReply := ⟨move.status, "", 0⟩

def renewed (service : Service) (move : Move) (s : Server) :
    Except Failure Write.LeaseReply × Server :=
  match s.lease with
  | some n => (.ok ⟨move.status, service.owner n, move.quota⟩, s)
  | none => (.ok (refused move), s)

/-- The blobs that the atoms of a container refer to. -/
def resolve (stored : List (String × Bytes)) (atoms : TextMap String) : Option (TextMap Bytes) :=
  atoms.toList.foldlM (fun (blobs : TextMap Bytes) row =>
    (stored.lookup row.2).map (blobs.insert row.1 ·)) ∅

def containerKey (wire : String) : String := (Import.stripSuffix wire ",savedgame").getD wire

/-- A mutation is sent before anything can happen to it. -/
def mutationEffect (name : String) (mutation : Server → Option Mutation) :
    EStateM Failure World UInt16 :=
  effect .transport Move.fault
    (fun move w => { w with server := (w.server.others move).send name w.disk.journal })
    fun move w =>
      match mutation w.server with
      | some m =>
        (.ok move.status, if move.refuse then w else { w with server := w.server.mutate m })
      | none => (.ok move.status, w)

def operations (service : Service) (scope : Scope) : Write.Operations World where
  scope
  acquire _ := serverEffect fun move journal s =>
    if move.refuse then (.ok (refused move), s) else granted service move journal s
  renew _ := serverEffect fun move journal s =>
    if move.refuse then (.ok (refused move), s)
    else if move.regrant then granted service move journal s
    else renewed service move s
  release _ := serverEffect fun move _ s =>
    (.ok move.status, if move.refuse then s else { s with lease := none })
  uploadAtom payload _ := serverEffect fun move _ s =>
    if move.refuse then (.error (.new .transport), s)
    else (.ok (service.atom s.atoms.length),
      { s with atoms := (service.atom s.atoms.length, payload) :: s.atoms })
  putContainer name displayName modified atoms _ := mutationEffect name fun s =>
    (resolve s.atoms atoms).map fun blobs =>
      (containerKey name, some { displayName, modified, blobs })
  deleteContainer name _ := mutationEffect name fun _ => some (containerKey name, none)
  remote _ _ := serverEffect fun move _ s =>
    if move.refuse then (.error (.new .transport), s) else (.ok s.cloud, s)

/-- The snapshot that a folder is published as. -/
def snapshotOf (binding id : String) (folder : Storage.Folder) : Storage.Snapshot where
  id
  scopeBinding := binding
  containerCount := folder.manifest.containers.length
  blobCount := (folder.manifest.containers.map fun row => row.blobs.length).sum
  totalBytes := (folder.manifest.containers.map fun row => row.size).sum
  consistency := Storage.CONSISTENCY

/-- The content that the cloud has at one instant. -/
def current : EStateM Failure World State :=
  serverEffect fun move _ s => if move.refuse then (.error (.new .transport), s) else (.ok s.cloud, s)

/-- `cloud_cache::download`: publish a snapshot of the content that the cloud has at one instant. -/
def download [Sha256] (service : Service) (scope : Scope) :
    EStateM Failure World Storage.Snapshot := do
  let cloud ← current
  writing service fun uuid disk =>
    let id := "snapshot-" ++ uuid
    let folder := service.folder cloud uuid
    let snap := snapshotOf scope.binding id folder
    let snapshots := disk.snapshots.insert id folder
    if disk.snapshots.contains id then .error (.new .localStorage)
    else match Import.snapshot snapshots scope.binding snap with
      | .error e => .error e
      | .ok v =>
        if v.state.containers = cloud.containers then .ok (snap, { disk with snapshots })
        else .error (.new .changed)

end Flightdeck.Cloud
