import Flightdeck.Documents
import Flightdeck.Fenix.Hooks
import Flightdeck.Framework.Repair
import Flightdeck.Json.Strict

/-!
# The registry of a prefix

`fenix_environment::prepare` repairs the override of the CLR loader and the two values of
`DOTNET_STARTUP_HOOKS`.  What it changes it first adds to a record beside the prefix.  Every command
and every step on the record can fail or be cut off, before or after it took effect.
-/

namespace Flightdeck.FenixEnvironment

open Foundation
open FrameworkRepair (lines)
open GraphicsSettings (Text isWhitespace trim)
open StrictJson (Value)

/-! ## The record -/

mutual

/-- The text of a value in a document. -/
def valueText : Value → Pretty
  | .null => fun _ => "null"
  | .bool b => fun _ => if b then "true" else "false"
  | .number text => fun _ => text
  | .string text => prettyString text
  | .array items => prettyArray (itemTexts items)
  | .object fields => prettyObject (fieldTexts fields)

def itemTexts : List Value → List Pretty
  | [] => []
  | item :: items => valueText item :: itemTexts items

def fieldTexts : List (String × Value) → List (String × Pretty)
  | [] => []
  | (key, value) :: fields => (key, valueText value) :: fieldTexts fields

end

/-- `record[key]` -/
def index (record : Value) (key : String) : Value :=
  match record with
  | .object fields => ((fields.find? fun field => field.1 == key).map Prod.snd).getD .null
  | _ => .null

def asArray : Value → Option (List Value)
  | .array items => some items
  | _ => none

def changes (record : Value) : Option (List Value) := asArray (index record "changes")

/-- `record["schema"] == 1` -/
def hasSchema (record : Value) : Bool :=
  match index record "schema" with
  | .number text => text == "1"
  | _ => false

def usable (record : Value) : Bool :=
  hasSchema record && (changes record).any fun rows => rows.length < 32

def pushTo (change : Value) : Value → Value
  | .array items => .array (items ++ [change])
  | value => value

def pushField (change : Value) (field : String × Value) : String × Value :=
  if field.1 == "changes" then (field.1, pushTo change field.2) else field

/-- `record["changes"].push(change)` -/
def addChange (record change : Value) : Value :=
  match record with
  | .object fields => .object (fields.map (pushField change))
  | value => value

def NEW_RECORD : Value := .object [("schema", .number "1"), ("changes", .array [])]

def UNVERIFIED := "Die Sicherung der Fenix-Umgebung konnte nicht geprüft werden."

/-! ## The registry -/

inductive Kind where
  | sz | expandSz | binary | dword | multiSz | qword | none
  deriving DecidableEq

def Kind.name : Kind → String
  | .sz => "REG_SZ"
  | .expandSz => "REG_EXPAND_SZ"
  | .binary => "REG_BINARY"
  | .dword => "REG_DWORD"
  | .multiSz => "REG_MULTI_SZ"
  | .qword => "REG_QWORD"
  | .none => "REG_NONE"

/-- A value: its kind, and its data as a text. -/
structure Entry where
  kind : Kind
  data : Text

/-- The values that are looked at. -/
inductive Place where
  | loader | user | machine
  deriving DecidableEq

def Place.key : Place → String
  | .loader => "HKCU\\Software\\Wine\\DllOverrides"
  | .user => "HKCU\\Environment"
  | .machine => "HKLM\\SYSTEM\\CurrentControlSet\\Control\\Session Manager\\Environment"

def HOOKS := "DOTNET_STARTUP_HOOKS"

def Place.valueName : Place → String
  | .loader => "mscoree"
  | _ => HOOKS

structure World where
  registry : Place → Option Entry
  /-- `.flightdeck-fenix-environment.json` -/
  record : Option (Document Value)

/-- What is not part of the repository or of the registry. -/
structure System where
  tree : Tree
  /-- what `reg query` prints for a value that is there -/
  print : Place → Entry → Bytes
  /-- `fenix_patch::clr_loader::native_only` -/
  nativeOnly : Text → Option Text
  /-- `fenix_patch::clr_loader::MSCOREE_OVERRIDE` -/
  mscoreeOverride : Text

inductive Step where
  | query (place : Place)
  | read (place : Place)
  | save (place : Place)
  | change (place : Place)

/-- How the steps of a run go. -/
structure Steps where
  fault : Step → Fault
  /-- the query of a value that is there exits with success -/
  answers : Place → Bool
  /-- `files::now` -/
  now : Place → String

abbrev M := EStateM (Stop Error) World

section

variable (system : System) (steps : Steps)

/-- The output of `reg query`, as a text, if it exits with success. -/
def query (place : Place) : M (Option Text) :=
  perform (steps.fault (.query place)) .io do
    match (← get).registry place with
    | none => pure none
    | some entry =>
      let output := system.print place entry
      liftM (require (output.length ≤ 16384) (Error.invalid "Die Prozessausgabe ist zu groß."))
      pure (if steps.answers place then some (lossyChars output) else none)

def readRecord (place : Place) : M Value := do
  match (← get).record with
  | none => pure NEW_RECORD
  | some file =>
    perform (steps.fault (.read place)) .io (liftM (readDocument valueText 65536 (some file)))

def backup (place : Place) (change : Value) : M Unit := do
  let record ← readRecord steps place
  liftM (require (usable record) (Error.invalid UNVERIFIED))
  perform (steps.fault (.save place)) .io
    (modify fun world => { world with record := some (.value (addChange record change)) })

def change (place : Place) (kind : Kind) (before after : Text) : Value :=
  .object [("key", .string place.key), ("name", .string place.valueName),
    ("kind", .string kind.name), ("before", .string (String.ofList before)),
    ("after", .string (String.ofList after)), ("at", .string (steps.now place))]

/-- `reg add`, or `reg delete` for no value. -/
def store (place : Place) (entry : Option Entry) : M Unit :=
  perform (steps.fault (.change place)) .io
    (modify fun world => { world with registry := Function.update world.registry place entry })

def repairLoader : M Unit := do
  match (← query system steps .loader).bind system.nativeOnly with
  | none => pure ()
  | some before =>
    backup steps .loader (change steps .loader .sz before system.mscoreeOverride)
    store steps .loader (some ⟨.sz, system.mscoreeOverride⟩)

end

/-! ## The hooks of a place -/

/-- `split_once(char::is_whitespace)` -/
def splitOnce (text : Text) : Option (Text × Text) :=
  match text.dropWhile fun c => !isWhitespace c with
  | [] => none
  | _ :: rest => some (text.takeWhile fun c => !isWhitespace c, rest)

def kindOf (name : Text) : Option Kind :=
  if name == "REG_SZ".toList then some .sz
  else if name == "REG_EXPAND_SZ".toList then some .expandSz
  else none

/-- The kind and the value in a line of the output. -/
def hookLine (line : Text) : Option (Kind × Text) := do
  let (name, rest) ← splitOnce (trimStart line)
  if sameLetters name HOOKS.toList then
    let (kind, value) ← splitOnce (trimStart rest)
    let kind ← kindOf kind
    return (kind, trimStart value)
  else none

def hookEntry (output : Text) : Option (Kind × Text) :=
  (lines (String.ofList output)).findSome? hookLine

/-- The value without its dead hooks: none if none is left. -/
def stored (kind : Kind) (text : Text) : Option Entry :=
  if text = [] then none else some ⟨kind, text⟩

section

variable (system : System) (steps : Steps)

def repairHooks (place : Place) : M Unit := do
  match (← query system steps place).bind hookEntry with
  | none => pure ()
  | some (kind, value) =>
    match filtered system.tree value with
    | none => pure ()
    | some replacement =>
      backup steps place (change steps place kind value replacement)
      store steps place (stored kind replacement)

def prepare : M Unit := do
  repairLoader system steps
  [Place.user, Place.machine].forM (repairHooks system steps)

end

end Flightdeck.FenixEnvironment
