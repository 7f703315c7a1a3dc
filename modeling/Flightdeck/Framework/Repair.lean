import Flightdeck.Errors
import Flightdeck.Foundation.Calls
import Flightdeck.Foundation.Lines

/-!
# Preparing .NET in a prefix

`framework_repair.rs` installs or repairs Microsoft .NET with the installers of Microsoft, and
removes Wine Mono before.  Wine is reached through an adapter; what the adapter leaves in the prefix
is read again after each step.
-/

namespace Flightdeck.FrameworkRepair

open Foundation

structure Architecture where
  release : Nat
  clr : Bool

/-- What `framework::status` reads from the prefix. -/
structure Status where
  x86 : Architecture
  x64 : Architecture

def Status.ready (status : Status) : Bool :=
  [status.x64, status.x86].all fun a => 528040 ≤ a.release && a.clr

/-- What is asked of the adapter `SetupWine`, and of the two callbacks. -/
inductive Call where
  | run (args : List String) (installer : Bool) (seconds : Nat)
  | reg (key name value kind : String)
  | stop
  | list
  | obtain (name url hash : String)
  | progress (text : String)
  deriving DecidableEq

abbrev Trace := List (Event Call Error)

/-- The answers of the adapter and what it leaves in the prefix, after the calls so far. -/
structure Adapter where
  answer : Trace → Call → Option Error
  listing : Trace → String
  /-- where a package was put -/
  package : Trace → String → String
  status : Trace → Status
  /-- `framework::framework_path` for the compiler of an architecture -/
  compiler : Trace → String → Option String
  /-- `fenix_patch::clr_loader::MSCOREE_OVERRIDE` -/
  mscoreeOverride : String
  /-- `Uuid::parse_str` on 36 bytes -/
  isUuid : List Char → Bool

abbrev M := Calls Call Error

def PACKAGES : List (String × String × String) :=
  [("dotNetFx40_Full_x86_x64.exe",
    "https://download.microsoft.com/download/9/5/A/95A9616B-7A37-4AF6-BC36-D6EA96C8DAAE/dotNetFx40_Full_x86_x64.exe",
    "65e064258f2e418816b304f646ff9e87af101e4c9552ab064bb74d281c38659f"),
   ("NDP48-x86-x64-AllOS-ENU.exe",
    "https://download.microsoft.com/download/f/3/a/f3a6af84-da23-40a5-8d1c-49cc10c8e76f/NDP48-x86-x64-AllOS-ENU.exe",
    "0a3a390c47e639d0f7fc65b21195fee6b7f65b066f80f70c60fab191d14b7e40")]

def WINE := "HKCU\\Software\\Wine"

def OVERRIDES := "HKCU\\Software\\Wine\\DllOverrides"

def CLR := "HKLM\\Software\\Microsoft\\.NETFramework"

def CLR32 := "HKLM\\Software\\Wow6432Node\\Microsoft\\.NETFramework"

def NEWER :=
  "A newer .NET Framework is installed; the pinned 4.8 package cannot repair it safely."

def UNREPAIRED := "Microsoft .NET Framework 4.8 could not be repaired automatically. The original profile is unchanged. See the private Fenix setup log."

section

variable (wine : Adapter)

def ask (c : Call) : M Unit := callOut wine.answer c

def onlyIf (condition : Bool) (m : M Unit) : M Unit := if condition then m else pure ()

/-- The callback cannot fail. -/
def progress (text : String) : M Unit := callOut (fun _ _ => none) (.progress text)

def settings : M Unit := do
  ask wine (.reg OVERRIDES "mscoree" wine.mscoreeOverride "REG_SZ")
  ask wine (.reg CLR "OnlyUseLatestCLR" "1" "REG_DWORD")
  ask wine (.reg CLR32 "OnlyUseLatestCLR" "1" "REG_DWORD")

def windows (version : String) : M Unit := ask wine (.reg WINE "Version" version "REG_SZ")

def help (compiler : String) : Call := .run [compiler, "/nologo", "/help"] false 120

/-- The loop of `probe` over the architectures. -/
def probeAll : List String → M Bool
  | [] => pure true
  | architecture :: rest => do
    match wine.compiler (← get) architecture with
    | none => pure false
    | some compiler =>
      match ← attempt (ask wine (help compiler)) with
      | .ok () => probeAll rest
      | .error .cancelled => throw .cancelled
      | .error _ => pure false

def probe : M Bool := do
  if (wine.status (← get)).ready then probeAll wine ["Framework", "Framework64"] else pure false

def restart : M Unit := do
  ask wine (.run ["wineboot", "-r"] false 180)
  ask wine .stop

def newer (status : Status) : Bool :=
  [status.x86, status.x64].any fun v => 533320 ≤ v.release && v.clr

def installer (package : String) (args : List String) : M Unit :=
  ask wine (.run (package :: args) true 1800)

def install40 (package first_version : String) : M Unit := do
  windows wine first_version
  installer wine package ["/q", "/c:install.exe /q /norestart"]
  restart wine

/-- `require(!newer(wine), NEWER)` -/
def requireOlder : M Unit := do
  if newer (wine.status (← get)) then throw (.invalid NEWER) else pure ()

/-- `settings` if the framework is there. -/
def settingsIfReady : M Unit := do
  onlyIf (wine.status (← get)).ready (settings wine)

end

/-- `str::lines` -/
def lines (text : String) : List (List Char) :=
  let (ended, rest) := cutLines '\n' text.toList
  ended.map (fun line => if line.getLast? = some '\r' then line.dropLast else line) ++
    if rest = [] then [] else [rest]

/-- The id of Wine Mono, if the line of the list of `uninstaller` is about it. -/
def mono (isUuid : List Char → Bool) (line : List Char) : Option String :=
  let guid := line.takeWhile (· ≠ '|')
  match line.dropWhile (· ≠ '|') with
  | [] => none
  | _ :: title =>
    if "Wine Mono".toList.isPrefixOf title && (String.ofList guid).utf8ByteSize == 38 &&
        guid.head? == some '\x7b' && guid.getLast? == some '\x7d' &&
        isUuid guid.tail.dropLast then
      some (String.ofList guid)
    else none

section

variable (wine : Adapter)

/-- Whether anything was removed. -/
def removeMono : List (List Char) → M Bool
  | [] => pure false
  | line :: rest => do
    match mono wine.isUuid line with
    | none => removeMono rest
    | some guid =>
      ask wine (.run ["uninstaller", "--silent", "--remove", guid] false 1800)
      let _ ← removeMono rest
      pure true

def listing : M (List (List Char)) := do
  ask wine .list
  return lines (wine.listing (← get))

/-- The packages, in the order of their names. -/
def obtainAll : List (String × String × String) → M (List String)
  | [] => pure []
  | (name, url, hash) :: rest => do
    progress (if name.startsWith "dotNet" then "Downloading Microsoft .NET Framework 4.0 …"
      else "Downloading Microsoft .NET Framework 4.8 …")
    ask wine (.obtain name url hash)
    let path := wine.package (← get) name
    return path :: (← obtainAll rest)

def uninstall48 (package48 : String) : M Unit := do
  installer wine package48 ["/uninstall", "/q", "/norestart"]
  restart wine

/-- What a second attempt does before the installer. -/
def reinstall (package40 package48 first_version : String) (repair : Bool) : M Unit := do
  requireOlder wine
  progress "Reinstalling Microsoft .NET in the copied profile to complete the repair …"
  onlyIf repair (uninstall48 wine package48)
  install40 wine package40 first_version
  settings wine
  windows wine "win7"

/-- The closure of `attempt_result`. -/
def installAttempt (package40 package48 first_version : String) (number : Nat) (repair : Bool) :
    M Unit := do
  onlyIf (0 < number) (reinstall wine package40 package48 first_version repair)
  installer wine package48
    (if repair && number == 0 then ["/repair", "/q", "/norestart"] else ["/q", "/norestart"])

/-- What follows an attempt, until the framework is probed. -/
def afterAttempt (result : Except Error Unit) : M Unit := do
  match result with
  | .ok () => pure ()
  | .error .cancelled => throw .cancelled
  | .error _ => ask wine .stop
  settings wine
  restart wine

def repairing (status : Status) : Bool :=
  528040 ≤ status.x86.release || 528040 ≤ status.x64.release

/-- The loop over the attempts. -/
def attempts (package40 package48 first_version : String) : List Nat → M Unit
  | [] => throw (.invalid UNREPAIRED)
  | number :: rest => do
    let repair := repairing (wine.status (← get))
    onlyIf (0 < number || repair)
      (progress "Repairing Microsoft .NET Framework 4.8 automatically …")
    afterAttempt wine
      (← attempt (installAttempt wine package40 package48 first_version number repair))
    if ← probe wine then
      progress "Microsoft .NET Framework 4.8 was verified for 32-bit and 64-bit applications."
    else attempts package40 package48 first_version rest

/-- The closure of `result`. -/
def install (package40 package48 first_version : String) : M Unit := do
  let initial := wine.status (← get)
  onlyIf (!initial.x86.clr && !initial.x64.clr) (install40 wine package40 first_version)
  settings wine
  windows wine "win7"
  attempts wine package40 package48 first_version [0, 1]

/-- `result.and(reset).and(stopped)`, after the version was set back and the server stopped. -/
def cleanUp (result : Except Error Unit) : M Unit := do
  let reset ← attempt (windows wine "win10")
  let stopped ← attempt (ask wine .stop)
  match result with
  | .error e => throw e
  | .ok () => match reset with
    | .error e => throw e
    | .ok () => match stopped with
      | .error e => throw e
      | .ok () => pure ()

def prepare_with_version (first_version : String) : M Unit := do
  if first_version = "winxp" ∨ first_version = "win7" then do
    settingsIfReady wine
    if ← probe wine then
      progress "Microsoft .NET Framework 4.8 is already installed."
    else do
      progress "Checking and completing pending Microsoft .NET setup …"
      ask wine .stop
      restart wine
      settingsIfReady wine
      if ← probe wine then
        progress "Microsoft .NET Framework 4.8 is ready."
      else do
        let removed ← removeMono wine (← listing wine)
        onlyIf removed (ask wine .stop)
        requireOlder wine
        match ← obtainAll wine PACKAGES with
        | [package40, package48] =>
          progress "Installing Microsoft .NET Framework. This can take several minutes …"
          cleanUp wine (← attempt (install wine package40 package48 first_version))
        | _ => throw .arithmetic
  else throw (.invalid "Invalid .NET preparation version.")

def prepare : M Unit := prepare_with_version wine "winxp"

end

end Flightdeck.FrameworkRepair
