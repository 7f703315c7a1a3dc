import Flightdeck.Errors
import Flightdeck.Foundation.Effects
import Flightdeck.Foundation.Links

/-!
# Extraction of component archives

`bootstrap.rs`: `extract_reader` checks every entry of an archive and has the tar library unpack it.
The library is not part of the repository: what it does to the tree is a parameter.
-/

namespace Flightdeck.Bootstrap

open Foundation

/-! ## Entries -/

/-- A path by its components. -/
abbrev Path := List (Component String)

inductive Kind where
  | file | dir | symlink | hardLink | other
  deriving DecidableEq

/-- What the library reads of an entry; a name may be one that it cannot read. -/
structure Entry where
  path : Except Error Path
  size : Nat
  kind : Kind
  linkName : Except Error (Option Path)

/-- The tree under the root of the file system; a file is known by its number. -/
abbrev World := LinkTree String Nat

def isAbsolute (path : Path) : Bool := path.head? == some .root

def archivePath (path : Path) : Bool :=
  !isAbsolute path && path.all fun | .name _ => true | .current => true | _ => false

/-- The directories that the path of an entry names. -/
def depth (path : Path) : Nat := path.dropLast.countP fun | .name _ => true | _ => false

/-- The loop of `safe_link` over the components of a target. -/
def countParts : Nat → Path → Bool
  | _, [] => true
  | depth, .parent :: rest => depth != 0 && countParts (depth - 1) rest
  | depth, .name _ :: rest => countParts (depth + 1) rest
  | depth, .current :: rest => countParts depth rest
  | _, .root :: _ => false

def safeLink (path target : Path) (hard : Bool) : Bool :=
  !isAbsolute target && countParts (if hard then 0 else depth path) target

/-! ## `extract_reader` -/

def TOO_MANY := "Das Komponentenarchiv enthält zu viele Dateien."
def INVALID_PATH := "Das Komponentenarchiv enthält einen ungültigen Pfad."
def TOO_LARGE := "Das Komponentenarchiv ist zu groß."
def OVER_SIZE := "Das Komponentenarchiv überschreitet die erwartete Größe."
def FORBIDDEN := "Das Komponentenarchiv enthält unzulässige Dateien."
def INVALID_LINK := "Ungültige Archivverknüpfung."
def UNSAFE_LINK := "Das Komponentenarchiv enthält eine unsichere Verknüpfung."

def require (condition : Bool) (message : String) : Except Error Unit :=
  if condition then .ok () else .error (.invalid message)

def checkLink (entry : Entry) (path : Path) : Except Error Unit := do
  if entry.kind = .symlink ∨ entry.kind = .hardLink then
    match ← entry.linkName with
    | none => .error (.invalid INVALID_LINK)
    | some target => require (safeLink path target (entry.kind = .hardLink)) UNSAFE_LINK

/-- The checks of an entry; they return the sizes added up. -/
def checkEntry (total : Nat) (entry : Entry) : Except Error Nat := do
  let path ← entry.path
  require (archivePath path) INVALID_PATH
  require (total + entry.size < 2 ^ 64) TOO_LARGE
  require (total + entry.size ≤ 6 * 1024 * 1024 * 1024) OVER_SIZE
  require (entry.kind ≠ .other) FORBIDDEN
  checkLink entry path
  return total + entry.size

/-- `Entry::unpack_in` of the tar library, with the destination: whether the entry was unpacked. -/
abbrev UnpackIn := Entry → EStateM Error World Bool

variable (unpackIn : UnpackIn) (cancelled : Nat → Bool)

def extractEntry (count total : Nat) (entry : Except Error Entry) : EStateM Error World Nat := do
  if cancelled count then throw .cancelled
  liftM (require (count < 30000) TOO_MANY)
  let entry ← liftM entry
  let total ← liftM (checkEntry total entry)
  let unpacked ← unpackIn entry
  liftM (require unpacked INVALID_PATH)
  return total

def extractEntries (count total : Nat) : List (Except Error Entry) → EStateM Error World Unit
  | [] => return
  | entry :: entries => do
    let total ← extractEntry unpackIn cancelled count total entry
    extractEntries (count + 1) total entries

/-- `directory` is whether the destination is a private directory, and `entries` what the library
reads of the archive. -/
def extractReader (directory : Except Error Unit)
    (entries : Except Error (List (Except Error Entry))) : EStateM Error World Unit := do
  liftM directory
  let entries ← liftM entries
  extractEntries unpackIn cancelled 0 0 entries

/-! ## What the library does to the tree -/

/-- Directories are added below the destination. -/
inductive Grown (base : List String) : World → World → Prop
  | refl (w : World) : Grown base w w
  | mkdir {w w' : World} {dir : List String} {n : String} : Grown base w w' → base <+: dir →
      w' (dir ++ [n]) = none → Grown base w (Function.update w' (dir ++ [n]) (some .dir))

/-- The directory into which an entry is put, its links followed, and its name. -/
structure Place (base : List String) (w : World) (path : Path) (dir : List String) (n : String) :
    Prop where
  walk : ∃ fuel, walk w fuel base path.dropLast = some dir
  last : path.getLast? = some (.name n)

/-- What an entry of a kind is in the tree. -/
inductive Content (base : List String) (w : World) (entry : Entry) : Node String Nat → Prop
  | file {number : Nat} : entry.kind = .file → (∀ p, w p ≠ some (.file number)) →
      Content base w entry (.file number)
  | dir : entry.kind = .dir → Content base w entry .dir
  | symlink {target : Path} : entry.kind = .symlink → entry.linkName = .ok (some target) →
      Content base w entry (.link target)
  | hardLink {target : Path} {dir : List String} {n : String} {node : Node String Nat} :
      entry.kind = .hardLink → entry.linkName = .ok (some target) → Place base w target dir n →
      w (dir ++ [n]) = some node → node ≠ .dir → Content base w entry node

/-- `unpack_in` creates the directories that are missing, and then the entry, in the place of one
that is no directory, if its parent lies inside the destination; or it stops on the way. -/
inductive Unpacked (base : List String) (entry : Entry) (w : World) : World → Prop
  | stopped {w' : World} : Grown base w w' → Unpacked base entry w w'
  | removed {w' : World} {path : Path} {dir : List String} {n : String} : Grown base w w' →
      entry.path = .ok path → Place base w' path dir n → base <+: dir →
      w' (dir ++ [n]) ≠ some .dir → Unpacked base entry w (Function.update w' (dir ++ [n]) none)
  | placed {w' : World} {path : Path} {dir : List String} {n : String} {node : Node String Nat} :
      Grown base w w' → entry.path = .ok path → Place base w' path dir n → base <+: dir →
      w' (dir ++ [n]) ≠ some .dir → Content base w' entry node →
      Unpacked base entry w (Function.update w' (dir ++ [n]) (some node))

end Flightdeck.Bootstrap
