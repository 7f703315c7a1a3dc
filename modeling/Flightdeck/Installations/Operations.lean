import Flightdeck.Installations.Registry

/-!
# Operations on the registry

How the launcher starts from the state directory, and the operations that change the registry while
it runs.  What a call observes outside of the state directory (the file system, running processes,
the clock) is a `Host`.
-/

namespace Flightdeck.Installations

open Foundation
open Cloud (jsonString jsonObject)

variable [Sha256]

/-- `Installation::new`. -/
def Installation.new (game : Game) (source : Source) : Installation where
  id := String.ofList ((sha256 (utf8 (jsonObject
    [("game", jsonString game.id), ("source", source.json)]))).toList.take 32)
  game
  source

def Installation.steam (item : Installation) : Bool :=
  match item.source with
  | .steam .. => true
  | .xbox _ => false

/-- The entry is an Xbox installation at this path. -/
def Installation.at (item : Installation) (path : Path) : Bool :=
  item.source == .xbox path

/-- What the launcher keeps in memory of the installations. -/
structure State where
  installations : Registry
  steam : Option Installation
  runtime : Option Path
  known : List (String × Path)
  deriving DecidableEq

structure Host where
  /-- `runtime::validate` -/
  validate : String → Except Error Path
  /-- `Game::for_runtime` -/
  forRuntime : Path → Except Error Game
  /-- `runtime::ready` -/
  ready : Path → Bool
  /-- `Launcher::open` -/
  «open» : Except Error Unit
  /-- `Launcher::idle` -/
  idle : Except Error Unit
  /-- `discover`, from the registry, the known runtimes and the runtime in use -/
  discover : Registry → List (String × Path) → Option Path → List Installation
  /-- `Installation::context` -/
  context : Installation → String
  /-- `Installation::validate` -/
  check : Installation → Except Error Unit
  /-- the Steam client folder that a request names: expanded, canonical and with its files -/
  steamRoot : String → Except Error Path
  /-- `client_binding` -/
  clientBinding : Client → Path → Except Error Unit

/-! ## Starting -/

/-- `BTreeMap::insert` on the known runtimes. -/
def insertKnown (known : List (String × Path)) (id : String) (path : Path) :
    List (String × Path) :=
  match known with
  | [] => [(id, path)]
  | (key, old) :: rest =>
    match byteOrder id key with
    | .lt => (id, path) :: (key, old) :: rest
    | .eq => (id, path) :: rest
    | .gt => (key, old) :: insertKnown rest id path

/-- The runtimes of `config.json` that still hold the game they are listed for. -/
def knownRuntimes (host : Host) (rows : List (String × Path)) : List (String × Path) :=
  rows.foldl (fun known (id, path) =>
    match Game.select id, host.validate path with
    | .ok game, .ok path =>
      if (host.forRuntime path).toOption = some game then insertKnown known id path else known
    | _, _ => known) []

/-- The Xbox installations that the registry lacks. -/
def addMissing (host : Host) (entries : List Installation) (paths : List Path) :
    List Installation :=
  paths.foldl (fun entries path =>
    match host.forRuntime path with
    | .ok game =>
      if entries.any (·.at path) then entries
      else entries ++ [Installation.new game (.xbox path)]
    | .error _ => entries) entries

/-- The registry that a start goes on with, migrated from the older configuration. -/
def migrate (host : Host) (registry : Registry) (known : List (String × Path))
    (runtime : Option Path) : Registry × Bool :=
  let entries := addMissing host registry.entries (known.map Prod.snd ++ runtime.toList)
  let migrated := entries.length != registry.entries.length
  match registry.selected, runtime with
  | none, some path =>
    ({ registry with
      entries
      selected := (entries.find? (·.at path)).map Installation.id }, true)
  | _, _ => ({ registry with entries }, migrated)

/-- The memory of a launcher that starts with this configuration and registry, and whether the
registry has to be saved again. -/
def restore (host : Host) (config : Option (Document Legacy)) (registry : Registry) :
    State × Bool :=
  let legacy := (readDocument Legacy.pretty configLimit config).toOption
  let runtime := (legacy.bind Legacy.runtimePath).bind fun path => (host.validate path).toOption
  let listed := knownRuntimes host ((legacy.map Legacy.runtimes).getD [])
  let known := match runtime with
    | some root => match host.forRuntime root with
      | .ok game => insertKnown listed game.id root
      | .error _ => listed
    | none => listed
  let (installations, migrated) := migrate host registry known runtime
  let steam := installations.entries.find? fun item =>
    some item.id == installations.selected && item.steam
  ({ installations, steam, runtime, known }, migrated)

def readState (host : Host) (faults : Faults) : Durable (State × Bool) := do
  recover faults
  let disk ← get
  let registry ← load
  return restore host disk.config registry

/-- `Launcher::new` without a path on the command line; with one, `configure` follows. -/
def start (host : Host) (faults : Faults) : Durable State := do
  let (state, migrated) ← readState host faults
  if migrated then
    save faults state.installations
  return state

/-! ## The operations -/

/-- The memory of the launcher once an operation stored its registry.  With a configuration the
registry goes through the redo journal, without one it is saved directly. -/
structure Change where
  state : State
  legacy : Option Legacy

/-- The entry takes the place of one with its id, at the end. -/
def Registry.put (registry : Registry) (item : Installation) : Registry :=
  { registry with entries := registry.entries.filter (·.id != item.id) ++ [item] }

def configure (host : Host) (s : State) (path : String) : Except Error Change := do
  let selected ← host.validate path
  host.idle
  let game ← host.forRuntime selected
  let known := insertKnown s.known game.id selected
  let item := Installation.new game (.xbox selected)
  let registry := { s.installations.put item with selected := some item.id }
  return {
    state := { installations := registry, steam := none, runtime := some selected, known }
    legacy := some { runtimePath := some selected, runtimes := known } }

def register (host : Host) (s : State) (path : String) : Except Error Change := do
  let selected ← host.validate path
  let game ← host.forRuntime selected
  require (host.ready selected) (.invalid "Diese MSFS-Installation ist noch nicht startbereit.")
  host.open
  if s.runtime.isNone then
    configure host s path
  else
    let known := insertKnown s.known game.id selected
    let registry := s.installations.put (Installation.new game (.xbox selected))
    return {
      state := { s with known, installations := registry }
      legacy := some { runtimePath := s.runtime, runtimes := known } }

def select (host : Host) (s : State) (id : String) (binding : Option String) :
    Except Error Change := do
  host.idle
  let items := host.discover s.installations s.known s.runtime
  let some item := items.find? (·.id == id) | throw (.invalid INVALID)
  require (binding == some (host.context item))
    (.invalid "Die Installation hat sich geändert. Bitte erneut suchen.")
  host.check item
  match item.source with
  | .steam .. =>
    let registry := { s.installations.put item with selected := some id }
    return { state := { s with installations := registry, steam := some item }, legacy := none }
  | .xbox path => configure host s path

def addRoot (host : Host) (s : State) (path : String) (client : Option Client) :
    Except Error Change := do
  let path ← host.steamRoot path
  let some client := client | throw (.invalid INVALID)
  host.clientBinding client path
  host.idle
  let steamRoots := s.installations.steamRoots.filter (·.path != path)
  require (steamRoots.length < 16) (.invalid INVALID)
  let registry := { s.installations with steamRoots := steamRoots ++ [{ client, path }] }
  return { state := { s with installations := registry }, legacy := none }

def xboxSetup (host : Host) (s : State) : Except Error Change := do
  host.idle
  let selected := s.runtime.bind fun path =>
    (s.installations.entries.find? (·.at path)).map Installation.id
  let registry := { s.installations with selected }
  return { state := { s with installations := registry, steam := none }, legacy := none }

inductive Request where
  | select (id : String) (binding : Option String)
  | addRoot (path : String) (client : Option Client)
  | xboxSetup
  | configure (path : String)
  | register (path : String)

def prepare (host : Host) (s : State) : Request → Except Error Change
  | .select id binding => select host s id binding
  | .addRoot path client => addRoot host s path client
  | .xboxSetup => xboxSetup host s
  | .configure path => configure host s path
  | .register path => register host s path

def store (faults : Faults) (change : Change) : Durable State := do
  match change.legacy with
  | some legacy => commitSelection faults change.state.installations legacy
  | none => save faults change.state.installations
  return change.state

def handle (host : Host) (faults : Faults) (s : State) (request : Request) : Durable State := do
  let change ← prepare host s request
  store faults change

end Flightdeck.Installations
