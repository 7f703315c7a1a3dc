import Flightdeck.Foundation.Faults
import Flightdeck.Packages.Gsx

/-!
# Installing a GSX update

`install_with` decodes the packages into a new folder and then lays their files over the folder of
the manager.  Every call of the system can fail or be cut off, before or after it took effect.
-/

namespace Flightdeck.GsxEngine

open Foundation
open Installer (components)
open Packages

/-- The names from the root to a place in the file tree. -/
abbrev Place := List String

/-- What is at a place. -/
inductive Node where
  | file (own : Bool) (links : Nat) (bytes : Bytes)
  | folder (own : Bool)
  | other

abbrev Tree := Place → Option Node

/-- The file tree, and how many calls were made. -/
structure Disk where
  tree : Tree
  clock : Nat

abbrev M := EStateM (Stop Error) Disk

/-- The tree with something at a place. -/
def put (place : Place) (node : Option Node) (disk : Disk) : Disk :=
  { disk with tree := Function.update disk.tree place node }

/-- What is given to the installer. -/
structure Setup where
  lower : String → String
  manager : Place
  work : Place
  /-- the closure, with the file that is opened and read afterwards -/
  fetch : Package → Except Error Source
  /-- the name of the temporary file beside a file, from a fresh UUID -/
  temporary : String → String

section

-- the fault that strikes at each call
variable (faults : Nat → Fault)

/-- A call of the system. -/
def act {α : Type} (m : M α) : M α := do
  let now ← get
  set { now with clock := now.clock + 1 }
  perform (faults now.clock) .io m

/-- `tx::interrupted`, or another call that changes nothing. -/
def look : M Unit := act faults (pure ())

def isOpened (directory : Bool) : Option Node → Bool
  | some (.folder own) => directory && own
  | some (.file own links _) => !directory && own && links == 1
  | _ => false

/-- `files::open_at` -/
def openAt (directory : Bool) (place : Place) : M Unit :=
  act faults do liftM (require (isOpened directory ((← get).tree place)) (Error.invalid INVALID))

/-- `mkdirat`, where a folder may be there. -/
def makeFolder (place : Place) : M Unit :=
  act faults do
    match (← get).tree place with
    | none => modify (put place (some (.folder true)))
    | some _ => pure ()

/-- `openat` for a new file. -/
def createFile (place : Place) : M Unit :=
  act faults do
    match (← get).tree place with
    | none => modify (put place (some (.file true 1 [])))
    | some _ => throw (.error .io)

/-- The loop that copies, into a file that was created. -/
def writeFile (place : Place) (bytes : Bytes) : M Unit :=
  act faults (modify (put place (some (.file true 1 bytes))))

/-- The loop of `directory`. -/
def walk (create : Bool) : Place → List String → M Place
  | current, [] => pure current
  | current, part :: rest => do
    if create then makeFolder faults (current ++ [part]) else pure ()
    openAt faults true (current ++ [part])
    walk create (current ++ [part]) rest

def checkName (relative : String) : M Unit :=
  liftM (require (validName relative) (Error.invalid INVALID))

def directory (create : Bool) (root : Place) (parts : List String) : M Place := do
  if parts.isEmpty then pure root
  else do
    checkName ("/".intercalate parts)
    walk faults create root parts

/-- The folder of a path. -/
def parent (create : Bool) (root : Place) (relative : String) : M Place := do
  checkName relative
  directory faults create root (components relative).dropLast

def leaf (relative : String) : String := (components relative).getLast?.getD ""

/-! ## Before the overlay -/

variable (setup : Setup)

/-- The loop over the packages. -/
def planAll : Planned → List Package → M Planned
  | state, [] => pure state
  | state, package :: packages => do
    look faults
    let source ← act faults (liftM (setup.fetch package))
    look faults
    let state ← liftM (planPackage setup.lower state (package, source))
    planAll state packages

/-- The loop over the parts of a path that is to be written: what is there must be a folder, or a
file at the end. -/
def checkPath (dir : Bool) : Place → List String → M Unit
  | _, [] => pure ()
  | current, part :: rest => do
    look faults
    match (← get).tree (current ++ [part]) with
    | none => pure ()
    | some _ => do
      openAt faults (!rest.isEmpty || dir) (current ++ [part])
      checkPath dir (current ++ [part]) rest

/-- The decoded bytes of a member, if they are as many as the plan says. -/
def decoded (entry : Entry) : Except Error Bytes := do
  let bytes ← orInvalid INVALID entry.member.content
  require (bytes.length == entry.member.size) (.invalid INVALID)
  return bytes

def extractFile (entry : Entry) : M Unit := do
  let folder ← parent faults true setup.work entry.path
  createFile faults (folder ++ [leaf entry.path])
  let bytes ← liftM (decoded entry)
  writeFile faults (folder ++ [leaf entry.path]) bytes
  look faults

def extractEntry (entry : Entry) : M Unit := do
  look faults
  if entry.dir then do
    checkName entry.path
    let _ ← directory faults true setup.work (components entry.path)
  else extractFile faults setup entry

def extractPlan (planned : Plan) : M Unit := do
  planned.entries.forM (extractEntry faults setup)
  -- the digest of the archive is read once more
  look faults

/-- The paths that were copied to the work folder. -/
def copied (plans : List Plan) : List Entry :=
  plans.flatMap fun planned => planned.entries.filter fun entry => !entry.dir

/-- Everything up to the overlay. -/
def stage (packages : List Package) : M (List Entry) := do
  look faults
  openAt faults true setup.manager
  liftM (require (((← get).tree setup.work).isNone && !packages.isEmpty && packages.length ≤ 7)
    (Error.invalid INVALID))
  let planned ← planAll faults setup start packages
  (values planned.shared.paths).forM fun (relative, dir) =>
    checkPath faults dir setup.manager (components relative)
  look faults
  openAt faults true setup.work.dropLast
  createFolder
  openAt faults true setup.work
  planned.plans.forM (extractPlan faults setup)
  return copied planned.plans
where
  /-- `mkdirat`, where nothing may be there -/
  createFolder : M Unit :=
    act faults do
      match (← get).tree setup.work with
      | none => modify (put setup.work (some (.folder true)))
      | some _ => throw (.error .io)

/-! ## The overlay -/

/-- The bytes of a file that can be opened. -/
def contentOf : Option Node → Option Bytes
  | some (.file true 1 bytes) => some bytes
  | _ => none

/-- `files::beneath`, and the bytes of the file. -/
def beneath (relative : String) : M Bytes := do
  liftM (require (Installer.relative relative) (Error.invalid INVALID))
  let folder ← walk faults false setup.work (components relative).dropLast
  act faults do
    liftM (orInvalid INVALID (contentOf ((← get).tree (folder ++ [leaf relative]))))

/-- `renameat`: a file does not replace a folder. -/
def rename (source target : Place) : M Unit :=
  act faults do
    let tree := (← get).tree
    match tree target with
    | some (.folder _) => throw (.error .io)
    | _ => modify fun disk => put source none (put target (tree source) disk)

def overlayFile (relative : String) : M Unit := do
  look faults
  let bytes ← beneath faults setup relative
  let folder ← parent faults true setup.manager relative
  let temporary := folder ++ [setup.temporary relative]
  let result ← outcome do
    createFile faults temporary
    writeFile faults temporary bytes
    look faults
    rename faults temporary (folder ++ [leaf relative])
    look faults
  let _ ← outcome (act faults (modify (put temporary none)))
  liftM result

def overlay (files : List Entry) : M Unit := do
  files.forM fun entry => overlayFile faults setup entry.path
  look faults

def installWith (packages : List Package) : M Unit := do
  let files ← stage faults setup packages
  overlay faults setup files

end

end Flightdeck.GsxEngine
