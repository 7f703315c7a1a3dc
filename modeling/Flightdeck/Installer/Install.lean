import Flightdeck.Installer.Release

/-!
# The entries that start a release

The texts of the launcher script and of the desktop entry.
-/

namespace Flightdeck.Installer

open Foundation

def shell (path : Path) : Except Error String := do
  require (plain path.text) INVALID
  return "'" ++ String.ofList (path.text.toList.flatMap fun c =>
    if c.toNat = 39 then "'\\''".toList else [c]) ++ "'"

def launcherBytes (root : Root) (manager : String) : Except Error Bytes := do
  require (hexDigest manager) INVALID
  let executable ← shell (root.release manager ++ ["bin", "flightdeck"])
  let directory ← shell root.path
  return utf8 ("#!/bin/sh\n# Managed by Flightdeck; SPDX-License-Identifier: MIT\nexec " ++
    executable ++ " --managed-root " ++ directory ++ " \"$@\"\n")

/-- A character of a path in a double-quoted argument of a desktop entry. -/
def execChar (c : Char) : List Char :=
  if c = '\\' then "\\\\\\\\".toList
  else if c = '"' ∨ c.toNat = 96 ∨ c = '$' then "\\\\".toList ++ [c]
  else if c = '%' then "%%".toList
  else [c]

def execArgument (path : Path) : String := String.ofList (path.text.toList.flatMap execChar)

def desktopBytes (launcher icon : Path) (language : String) : Bytes :=
  utf8 ("[Desktop Entry]\nType=Application\nVersion=1.0\nName=Flightdeck\nComment=" ++
    (if language == "de" then "MSFS Xbox PC unter Linux starten"
      else "Launch MSFS Xbox PC on Linux") ++
    "\nComment[de]=MSFS Xbox PC unter Linux starten\nComment[en]=Launch MSFS Xbox PC on Linux\nExec=\"" ++
    execArgument launcher ++ "\"\nIcon=" ++ icon.text ++
    "\nTerminal=false\nCategories=Game;Simulation;\nStartupNotify=false\n")

/-- An entry that is to be written. -/
structure NewEntry where
  role : Role
  path : Path
  bytes : Bytes
  mode : Nat

def desktopEntry (root : Root) (current language : String) (launcher path : Path) : NewEntry where
  role := .desktop
  path := path
  bytes := desktopBytes launcher (root.release current ++ ["ui", "mark.svg"]) language
  mode := 0o644

end Flightdeck.Installer
