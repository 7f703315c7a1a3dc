import Flightdeck.Documents
import Flightdeck.Files

/-!
# The installation registry

Which installations are known and which one is selected.  The registry is saved in
`installations.json`; a selection that also changes `config.json` goes through the redo journal
`installation-selection.json`, which `recover` replays.
-/

namespace Flightdeck

/-- `games::Game`. -/
inductive Game where
  | msfs2024
  | msfs2020
  deriving DecidableEq, Repr

def Game.id : Game → String
  | .msfs2024 => "msfs2024"
  | .msfs2020 => "msfs2020"

def Game.select : String → Except Error Game
  | "msfs2024" => .ok .msfs2024
  | "msfs2020" => .ok .msfs2020
  | _ => .error (.invalid "Unbekannte MSFS-Version.")

def Game.directory : Game → String
  | .msfs2024 => "MSFS2024"
  | .msfs2020 => "MSFS2020"

end Flightdeck

namespace Flightdeck.Installations

open Foundation
open Cloud (jsonString jsonNumber jsonOption jsonObject)

def INVALID : String := "Die Installationsauswahl ist ungültig. Bitte Installationen erneut suchen."

/-- A path is kept as its text: one that is not UTF-8 cannot be written to a document. -/
abbrev Path := String

inductive Client where
  | native
  | flatpak
  | snap
  deriving DecidableEq, Repr

def Client.text : Client → String
  | .native => "native"
  | .flatpak => "flatpak"
  | .snap => "snap"

inductive Source where
  | xbox (path : Path)
  | steam (client : Client) (root library : Path) (installDir : String)
  deriving DecidableEq, Repr

structure Installation where
  id : String
  game : Game
  source : Source
  deriving DecidableEq, Repr

structure SteamRoot where
  client : Client
  path : Path
  deriving DecidableEq, Repr

structure Registry where
  schema : Nat := 1
  selected : Option String := none
  entries : List Installation := []
  steamRoots : List SteamRoot := []
  deriving DecidableEq, Repr

/-- What `config.json` holds. -/
structure Legacy where
  schema : Nat := 1
  runtimePath : Option Path
  runtimes : List (String × Path)
  deriving DecidableEq, Repr

/-- What `installation-selection.json` holds. -/
structure Redo where
  schema : Nat := 1
  registry : Registry
  legacy : Legacy
  deriving DecidableEq, Repr

/-! ## Their texts -/

def Source.json : Source → String
  | .xbox path => jsonObject [("kind", jsonString "xbox"), ("path", jsonString path)]
  | .steam client root library installDir =>
    jsonObject [("kind", jsonString "steam"), ("client", jsonString client.text),
      ("root", jsonString root), ("library", jsonString library),
      ("install_dir", jsonString installDir)]

def Source.pretty : Source → Pretty
  | .xbox path => prettyObject [("kind", prettyString "xbox"), ("path", prettyString path)]
  | .steam client root library installDir =>
    prettyObject [("kind", prettyString "steam"), ("client", prettyString client.text),
      ("root", prettyString root), ("library", prettyString library),
      ("install_dir", prettyString installDir)]

def Installation.pretty (item : Installation) : Pretty :=
  prettyObject [("id", prettyString item.id), ("game", prettyString item.game.id),
    ("source", item.source.pretty)]

def SteamRoot.pretty (root : SteamRoot) : Pretty :=
  prettyObject [("client", prettyString root.client.text), ("path", prettyString root.path)]

def Registry.pretty (registry : Registry) : Pretty :=
  prettyObject [("schema", prettyNumber registry.schema),
    ("selected", prettyOption registry.selected),
    ("entries", prettyArray (registry.entries.map Installation.pretty)),
    ("steam_roots", prettyArray (registry.steamRoots.map SteamRoot.pretty))]

def Legacy.pretty (legacy : Legacy) : Pretty :=
  prettyObject [("schema", prettyNumber legacy.schema),
    ("runtime_path", prettyOption legacy.runtimePath),
    ("runtimes", prettyObject (legacy.runtimes.map fun (id, path) => (id, prettyString path)))]

def Redo.pretty (redo : Redo) : Pretty :=
  prettyObject [("schema", prettyNumber redo.schema), ("registry", redo.registry.pretty),
    ("legacy", redo.legacy.pretty)]

/-! ## Checks -/

/-- Absolute, with no component but the root and plain names. -/
def clean (path : Path) : Bool :=
  path.toList.head? == some '/' && (path.toList.splitOn '/').all (· != ['.', '.'])

/-- `char::is_control`. -/
def isControl (c : Char) : Bool := c.toNat < 32 || (127 ≤ c.toNat && c.toNat < 160)

def singleName (name : String) : Bool :=
  name != "" && (utf8 name).length ≤ 255 && !name.toList.any isControl &&
    name != "." && name != ".." && !name.toList.any fun c => c == '/' || c == '\\'

def isAsciiHexdigit (b : UInt8) : Bool :=
  isAsciiDigit b || (65 ≤ b && b ≤ 70) || (97 ≤ b && b ≤ 102)

def validId (id : String) : Bool := (utf8 id).length == 32 && (utf8 id).all isAsciiHexdigit

def Source.clean : Source → Bool
  | .xbox path => Installations.clean path
  | .steam _ root library installDir =>
    Installations.clean root && Installations.clean library && singleName installDir

/-- The ids are well formed and no two are equal, and every source has a clean path. -/
def validEntries : List Installation → List String → Bool
  | [], _ => true
  | item :: rest, seen =>
    validId item.id && !seen.contains item.id && item.source.clean &&
      validEntries rest (item.id :: seen)

def validateRegistry (registry : Registry) : Except Error Unit := do
  require (registry.schema == 1 && registry.entries.length ≤ 128 &&
    registry.steamRoots.length ≤ 16) (.invalid INVALID)
  require (validEntries registry.entries []) (.invalid INVALID)
  require (registry.selected.all fun id => registry.entries.any (·.id == id)) (.invalid INVALID)
  require (registry.steamRoots.all fun root => clean root.path) (.invalid INVALID)

/-! ## The state directory -/

/-- What happened to the registry: a redo journal with it reached the disk, or an operation
reported it as saved. -/
inductive Event where
  | journalled (registry : Registry)
  | reported (registry : Registry)
  deriving DecidableEq

/-- `history`, newest first, is what the properties are about; no operation reads it. -/
structure Disk where
  journal : Option (Document Redo) := none
  config : Option (Document Legacy) := none
  registry : Option (Document Registry) := none
  history : List Event := []
  deriving DecidableEq

/-- The places where an operation changes the state directory. -/
inductive Site where
  | journal
  | config
  | registry
  | removeJournal
  | syncState
  | save
  deriving DecidableEq

abbrev Faults := Site → Fault

abbrev Durable := EStateM (Stop Error) Disk

def registryLimit : Nat := 1024 * 1024

def configLimit : Nat := 1024 * 1024

def journalLimit : Nat := 2 * 1024 * 1024

def recover (faults : Faults) : Durable Unit := do
  let disk ← get
  if disk.journal.isNone then
    return
  let redo ← readDocument Redo.pretty journalLimit disk.journal
  require (redo.schema == 1) (Error.invalid INVALID)
  validateRegistry redo.registry
  perform (faults .config) .io (modify fun disk =>
    { disk with config := some (.value redo.legacy) })
  perform (faults .registry) .io (modify fun disk =>
    { disk with registry := some (.value redo.registry) })
  perform (faults .removeJournal) .io (modify fun disk => { disk with journal := none })
  perform (faults .syncState) .io (pure ())

def load : Durable Registry := do
  let disk ← get
  if disk.registry.isNone then
    return {}
  let registry ← readDocument Registry.pretty registryLimit disk.registry
  validateRegistry registry
  return registry

def save (faults : Faults) (registry : Registry) : Durable Unit := do
  validateRegistry registry
  perform (faults .save) .io (modify fun disk =>
    { disk with registry := some (.value registry) })

def commitSelection (faults : Faults) (registry : Registry) (legacy : Legacy) : Durable Unit := do
  validateRegistry registry
  perform (faults .journal) .io (modify fun disk =>
    { disk with
      journal := some (.value { registry, legacy })
      history := .journalled registry :: disk.history })
  recover faults

end Flightdeck.Installations
