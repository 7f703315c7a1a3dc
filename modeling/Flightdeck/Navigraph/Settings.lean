import Flightdeck.Foundation.Faults
import Flightdeck.Foundation.Lossy
import Flightdeck.Framework.Repair
import Flightdeck.Graphics.Settings

/-!
# The settings of Simlink

`navigraph.rs` reads the settings file of another program, and turns off the login start there.  The
file is taken as text, whatever its bytes are; the lines that are kept are written as that text.
-/

namespace Flightdeck.Navigraph

open Foundation
open FrameworkRepair (lines)
open GraphicsSettings (Text isWhitespace trim)

/-- `split_once('=')` -/
def splitOnce (text : Text) : Option (Text × Text) :=
  match text.dropWhile (· != '=') with
  | [] => none
  | _ :: value => some (text.takeWhile (· != '='), value)

/-- `starts_with('[')` -/
def header (line : Text) : Bool := line.head? == some '['

def bracketed (name : Text) : Text := '[' :: name ++ [']']

/-! ## `ini_value` -/

/-- The loop over the lines, inside the section or not. -/
def iniValueFrom (sec key : Text) : Bool → List Text → Option Text
  | _, [] => none
  | inside, line :: rest =>
    if header (trim line) then iniValueFrom sec key (trim line == bracketed sec) rest
    else match inside, splitOnce (trim line) with
      | true, some (name, value) =>
        if trim name == key then some (trim value) else iniValueFrom sec key inside rest
      | _, _ => iniValueFrom sec key inside rest

def iniValue (text : Text) (sec key : Text) : Option Text :=
  iniValueFrom sec key false (lines (String.ofList text))

/-! ## `without_login_start` -/

def SIMLINK : Text := "simlink".toList

def AUTOSTART : Text := "autostart_app".toList

def OFF : Text := "autostart_app=0".toList

/-- `str::trim_end` -/
def trimEnd (line : Text) : Text := (line.reverse.dropWhile isWhitespace).reverse

/-- `&line[line.trim_end().len()..]` -/
def ending (line : Text) : Text := line.drop (trimEnd line).length

/-- The value that a line gives to `autostart_app`. -/
def autostart (line : Text) : Option Text :=
  match splitOnce (trim line) with
  | some (name, value) => if trim name == AUTOSTART then some (trim value) else none
  | none => none

/-- A line that turns the login start on, where it stands in the section. -/
def turnsOn (line : Text) : Bool := (autostart line).any (· != ['0'])

/-- The loop over the lines: the lines to write, and whether one was changed. -/
def turnedOff : Bool → List Text → List Text × Bool
  | _, [] => ([], false)
  | inside, line :: rest =>
    if header (trim line) then
      (line :: (turnedOff (trim line == bracketed SIMLINK) rest).1,
        (turnedOff (trim line == bracketed SIMLINK) rest).2)
    else if inside && turnsOn line then
      ((OFF ++ ending line) :: (turnedOff inside rest).1, true)
    else (line :: (turnedOff inside rest).1, (turnedOff inside rest).2)

def withoutLoginStart (text : Text) : Option Text :=
  if (turnedOff false (splitInclusive '\n' text)).2 then
    some (turnedOff false (splitInclusive '\n' text)).1.flatten
  else none

/-! ## `simlink_without_login_start` -/

def INVALID := "Datei oder Ordner ist nicht sicher zugänglich."

def MAX_SETTINGS : Nat := 1024 * 1024

/-- The files of the prefix, and how many calls of the system were made. -/
structure Disk where
  files : String → Option Bytes
  clock : Nat

abbrev M := EStateM (Stop Error) Disk

section

-- the fault that strikes at each call
variable (faults : Nat → Fault)

def act {α : Type} (m : M α) : M α := do
  let now ← get
  set { now with clock := now.clock + 1 }
  perform (faults now.clock) .io m

/-- `files::read` -/
def read (path : String) : M Bytes :=
  act faults do
    match (← get).files path with
    | none => throw (.error .io)
    | some bytes => do
      liftM (require (bytes.length ≤ MAX_SETTINGS) (Error.invalid INVALID))
      return bytes

/-- `files::atomic` -/
def atomic (path : String) (bytes : Bytes) : M Unit :=
  act faults (modify fun disk =>
    { disk with files := Function.update disk.files path (some bytes) })

/-- The body of the loop over the settings files. -/
def editFile (path : String) : M Unit := do
  let raw ← read faults path
  match withoutLoginStart (lossyChars raw) with
  | some text => atomic faults path (utf8 (String.ofList text))
  | none => pure ()

/-- `settings` is what `simlink_settings` found. -/
def simlinkWithoutLoginStart (settings : Except Error (List String)) : M Unit := do
  let found ← liftM settings
  found.forM (editFile faults)

end

/-- A file after the run, if nothing failed. -/
def edited (raw : Bytes) : Bytes :=
  match withoutLoginStart (lossyChars raw) with
  | some text => utf8 (String.ofList text)
  | none => raw

end Flightdeck.Navigraph
