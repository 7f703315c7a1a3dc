import Flightdeck.Installations.Operations

/-!
# Discovery

Which installations there are: the Xbox runtimes that are known, what the Steam clients and their
libraries hold, and the entries of the registry that were not found.  A game that is found keeps the
id of an entry that describes it, or of one that has lost its manifest.
-/

namespace Flightdeck.Installations

open Foundation

/-! ## What Steam wrote -/

/-- `vdf::Item`; a block is the list of its entries. -/
inductive Item where
  | text (value : String)
  | block (entries : List (String × Item))

abbrev Block := List (String × Item)

/-- The file system while it is searched. -/
structure Layout where
  home : Path
  /-- `canonicalize` -/
  canonical : Path → Except Error Path
  isDir : Path → Bool
  /-- `files::exists` -/
  present : Path → Bool
  /-- `Path::exists`, which follows a link -/
  reachable : Path → Bool
  /-- `parse`, which does not -/
  parse : Path → Except Error Block
  /-- `files::directory` -/
  directory : Path → Except Error Unit
  parsed : ∀ {path block}, parse path = .ok block → reachable path = true

def join (path : Path) (name : String) : Path :=
  if path.toList.getLast? == some '/' then path ++ name else path ++ "/" ++ name

def components (path : Path) : List (List Char) := (path.toList.splitOn '/').filter (· ≠ [])

/-- `Path::starts_with` -/
def startsWith (path base : Path) : Bool := (components base).isPrefixOf (components path)

/-- `Path::cmp` -/
def pathOrder (a b : Path) : Ordering :=
  compare ((components a).map fun name => utf8 (String.ofList name))
    ((components b).map fun name => utf8 (String.ofList name))

/-- `BTreeSet::insert` -/
def insertPath (path : Path) : List Path → List Path
  | [] => [path]
  | old :: rest =>
    match pathOrder path old with
    | .lt => path :: old :: rest
    | .eq => old :: rest
    | .gt => old :: insertPath path rest

def asciiLowercase (text : String) : List UInt8 :=
  (utf8 text).map fun b => if 65 ≤ b && b ≤ 90 then b + 32 else b

/-- The value of a key, which may stand in the block once. -/
def entry (block : Block) (key : String) : Except Error (Option Item) :=
  match block.filter fun row => asciiLowercase row.1 == asciiLowercase key with
  | [] => .ok none
  | [row] => .ok (some row.2)
  | _ => .error (.invalid INVALID)

def text (block : Block) (key : String) : Except Error (Option String) := do
  match ← entry block key with
  | some (.text value) => return some value
  | none => return none
  | _ => throw (.invalid INVALID)

variable (host : Host) (layout : Layout)

def addLibrary (found : List Path) (row : String × Item) : Except Error (List Path) := do
  if !(utf8 row.1).all isAsciiDigit then
    return found
  let value ← match row.2 with
    | .text value => pure (some value)
    | .block block => text block "path"
  let some value := value | return found
  if clean value then
    match layout.canonical value with
    | .ok path => return if layout.isDir (join path "steamapps") then insertPath path found else found
    | .error _ => return found
  else return found

def libraries (root : Path) : Except Error (List Path) := do
  let path := join root "steamapps/libraryfolders.vdf"
  if !layout.present path then
    return [root]
  let doc ← layout.parse path
  let some (.block block) ← entry doc "libraryfolders" | throw (.invalid INVALID)
  require (block.length ≤ 256) (.invalid INVALID)
  block.foldlM (addLibrary layout) [root]

def Game.appid : Game → String
  | .msfs2020 => "1250410"
  | .msfs2024 => "2537590"

def manifestPath (game : Game) (library : Path) : Path :=
  join (join library "steamapps") ("appmanifest_" ++ Game.appid game ++ ".acf")

/-- The folder in which the library holds the game. -/
def manifest (game : Game) (library : Path) : Except Error (Option String) := do
  let path := manifestPath game library
  if !layout.present path then
    return none
  let doc ← layout.parse path
  let some (.block app) ← entry doc "AppState" | throw (.invalid INVALID)
  require ((← text app "appid") == some (Game.appid game)) (.invalid INVALID)
  let some name ← text app "installdir" | throw (.invalid INVALID)
  require (singleName name) (.invalid INVALID)
  let common := join library "steamapps/common"
  let folder := join common name
  if !layout.isDir folder then
    return none
  require (startsWith (← layout.canonical folder) (← layout.canonical common)) (.invalid INVALID)
  return some name

/-! ## The clients -/

def candidates (extra : List SteamRoot) : List SteamRoot :=
  [⟨.native, join layout.home ".local/share/Steam"⟩, ⟨.native, join layout.home ".steam/root"⟩,
    ⟨.native, join layout.home ".steam/steam"⟩,
    ⟨.flatpak, join layout.home ".var/app/com.valvesoftware.Steam/.local/share/Steam"⟩,
    ⟨.flatpak, join layout.home ".var/app/com.valvesoftware.Steam/data/.local/share/Steam"⟩,
    ⟨.snap, join layout.home "snap/steam/common/.local/share/Steam"⟩] ++ extra

/-- The folders that are clients, each once. -/
def distinctRoots : List SteamRoot → List Path → List SteamRoot
  | [], _ => []
  | root :: rest, seen =>
    match layout.canonical root.path with
    | .error _ => distinctRoots rest seen
    | .ok path =>
      if layout.isDir (join path "steamapps") && !seen.contains path then
        { root with path } :: distinctRoots rest (path :: seen)
      else distinctRoots rest seen

def roots (extra : List SteamRoot) : List SteamRoot :=
  (distinctRoots layout (candidates layout extra) []).take 32

def NOT_BOUND := "Dieser Steam-Ordner gehört nicht zum gewählten Flatpak- oder Snap-Client. " ++
  "Wähle den passenden Client und seinen Datenordner."

def clientBinding (client : Client) (root : Path) : Except Error Unit :=
  let aliases := match client with
    | .native => none
    | .flatpak => some [".var/app/com.valvesoftware.Steam/.local/share/Steam",
        ".var/app/com.valvesoftware.Steam/data/.local/share/Steam"]
    | .snap => some ["snap/steam/common/.local/share/Steam"]
  match aliases with
  | none => .ok ()
  | some aliases =>
    require (aliases.any fun name =>
      (layout.canonical (join layout.home name)).toOption == some root) (.invalid NOT_BOUND)

/-! ## The search -/

/-- An edition and where it was found. -/
abbrev Found := Game × Source

/-- The games that the libraries of the clients hold. -/
def installed (steamRoots : List SteamRoot) : List Found :=
  (roots layout steamRoots).flatMap fun root =>
    match libraries layout root.path with
    | .error _ => []
    | .ok libraries => libraries.flatMap fun library =>
      [Game.msfs2024, Game.msfs2020].filterMap fun game =>
        match manifest layout game library with
        | .ok (some installDir) => some (game, .steam root.client root.path library installDir)
        | _ => none

/-- The Xbox installations that are known or in use. -/
def prepared (known : List (String × Path)) (selected : Option Path) : List Found :=
  let found := known.filterMap fun (id, path) =>
    match Game.select id, host.validate path with
    | .ok game, .ok path => some (game, Source.xbox path)
    | _, _ => none
  match selected with
  | none => found
  | some path =>
    match host.forRuntime path, host.validate path with
    | .ok game, .ok path =>
      if found.any (·.2 == .xbox path) then found else found ++ [(game, .xbox path)]
    | _, _ => found

/-- The entry is of the library, or of one of the client's that has lost the manifest. -/
def takes (found : Found) (old : Installation) : Bool :=
  old.game == found.1 &&
    match old.source, found.2 with
    | .steam _ root library _, .steam _ root' library' _ =>
      root == root' &&
        (library == library' || !layout.reachable (manifestPath old.game library))
    | _, _ => false

variable [Sha256]

/-- The game with its own id, or with that of the first entry that takes it. -/
def identify (entries : List Installation) (found : Found) : Installation :=
  let item := Installation.new found.1 found.2
  match entries.find? (takes layout found) with
  | some old => { item with id := old.id }
  | none => item

/-- The entry is listed where nothing has its id. -/
def addEntry (result : List Installation) (old : Installation) : List Installation :=
  if result.any (·.id == old.id) then result else result ++ [old]

def discover (registry : Registry) (known : List (String × Path)) (selected : Option Path) :
    List Installation :=
  let result := (prepared host known selected).map fun (game, source) =>
    Installation.new game source
  let result := result ++
    (installed layout registry.steamRoots).map (identify layout registry.entries)
  (registry.entries.foldl addEntry result).take 128

def NOT_REGISTERED :=
  "Die Steam-Bibliothek ist nicht mehr registriert. Bitte erneut suchen."
def AMBIGUOUS := "Diese Steam-App ist in mehreren Bibliotheken registriert. Bereinige zuerst " ++
  "die veraltete Installation in Steam und suche dann erneut."
def MOVED := "Die Steam-Installation wurde verschoben oder geändert. Bitte erneut suchen."

/-- `Installation::validate` -/
def check (item : Installation) : Except Error Unit := do
  require (validId item.id) (.invalid INVALID)
  match item.source with
  | .xbox path =>
    let _ ← host.validate path
    require ((← host.forRuntime path) == item.game) (.invalid INVALID)
  | .steam client root library installDir =>
    require (clean root && clean library) (.invalid INVALID)
    require ((← layout.canonical root) == root) (.invalid INVALID)
    require ((← layout.canonical library) == library) (.invalid INVALID)
    layout.directory root
    layout.directory library
    clientBinding layout client root
    require (singleName installDir) (.invalid INVALID)
    let registered ← libraries layout root
    require (registered.contains library) (.invalid NOT_REGISTERED)
    -- a client starts a game by its number, not by its library
    (registered.filter (· != library)).forM fun other => do
      require ((← manifest layout item.game other).isNone) (.invalid AMBIGUOUS)
    let found ← manifest layout item.game library
    require (found == some installDir) (.invalid MOVED)

/-- The host whose search reads this file system. -/
def searching : Host :=
  { host with
    discover := discover host layout
    check := check host layout
    clientBinding := clientBinding layout }

end Flightdeck.Installations
