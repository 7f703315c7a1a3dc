import Flightdeck.Documents
import Flightdeck.Files
import Mathlib.Data.List.AList

/-!
# Releases of the launcher

`installer.rs`: the data directory with its releases, the roles of the entries that start the
selected one, and the names of files.
-/

namespace Flightdeck.Installer

open Foundation

/-! ## Paths -/

/-- An absolute path, by its components. -/
abbrev Path := List String

def Path.text (path : Path) : String :=
  if path = [] then "/" else String.join (path.map fun part => "/" ++ part)

/-- No line ends in a shell script's path. -/
def plain (text : String) : Bool :=
  text.toList.all fun c => c.toNat ≠ 10 && c.toNat ≠ 13 && c.toNat ≠ 0

/-- The data directory, as `absolute` leaves it. -/
structure Root where
  path : Path
  parts_plain : ∀ part ∈ path, plain part = true

def Root.releases (root : Root) : Path := root.path ++ ["releases"]

def Root.release (root : Root) (id : String) : Path := root.releases ++ [id]

/-- The roles of entries. -/
inductive Role where
  | desktop
  | launcher
  deriving DecidableEq

def INVALID : Error := .invalid "Die installierte Flightdeck-Version konnte nicht zugeordnet werden."

/-! ## Names of files -/

def components (name : String) : List String := (name.toList.splitOn '/').map String.ofList

def isControl (c : Char) : Bool := c.toNat < 32 || (127 ≤ c.toNat && c.toNat < 160)

/-- `files::relative`; a component of a relative path is normal unless it is empty, `.` or `..`. -/
def relative (name : String) : Bool :=
  name != "" && (utf8 name).length ≤ 4096 &&
    (name.toList.all fun c => c ≠ '\\' && c ≠ ':' && c.toNat ≠ 0) &&
    (components name).all fun part => part != "" && part != "." && part != ".."

end Flightdeck.Installer
