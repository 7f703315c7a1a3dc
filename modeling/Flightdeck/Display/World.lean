import Flightdeck.Files
import Flightdeck.Foundation.Faults
import Flightdeck.Foundation.Search
import Flightdeck.Network.Json

/-!
# The desktop of the display preflight

`display_preflight.rs` and `display_repair.rs`: the user's `hyprland.lua`, the private files next to
it, and the compositor as its adapter presents it.  Between any two steps of the program a moment
passes in which the user may save the file, the compositor answers anew, and the program may fail or
stop.
-/

namespace Flightdeck.Display

open Foundation
open Network (Json)

/-! ## Failures -/

inductive Failure where
  | unsupported
  | busy
  | unsafeConfig
  | configErrors
  | restorePending

def Failure.text : Failure → String
  | .unsupported => "X11 ist nicht erreichbar. Eine automatische Reparatur ist nur für die geprüfte Hyprland-0.56.2-Sitzung mit Omarchy-Lua-Konfiguration möglich. Bitte die Grafiksitzung reparieren und erneut starten."
  | .busy => "X11 ist nicht erreichbar, aber X11-Fenster oder ein XWayland-Prozess sind noch vorhanden. Flightdeck verändert diese Sitzung nicht. Bitte die betroffenen Programme schließen oder die Sitzung prüfen und erneut starten."
  | .unsafeConfig => "Die Hyprland-Konfiguration wurde geändert oder ist nicht sicher zugänglich. Flightdeck hat die automatische X11-Reparatur angehalten; bitte die Konfiguration prüfen und erneut starten."
  | .configErrors => "Hyprland meldet Konfigurationsfehler. Bitte diese beheben und den Start erneut versuchen; Flightdeck setzt die Desktop-Konfiguration nicht zurück."
  | .restorePending => "Die vorübergehende X11-Reparatur muss noch wiederhergestellt werden. Bitte Flightdeck in derselben Sitzung erneut öffnen. Eigene Konfigurationsänderungen und die private Sicherung bleiben erhalten."

def failure (kind : Failure) : Error := .invalid kind.text

def check (value : Bool) (kind : Failure) : Except Error Unit := require value (failure kind)

/-! ## Paths -/

/-- A path as `Path` compares it, by its components. -/
structure Path where
  absolute : Bool
  parts : List Bytes
  deriving DecidableEq

/-- `Path::new` -/
def Path.new (text : Bytes) : Path where
  absolute := text.head? == some 47
  parts := (text.splitOn 47).filter fun part => part ≠ [] && part ≠ utf8 "."

def Path.join (path : Path) (name : String) : Path := { path with parts := path.parts ++ [utf8 name] }

/-! ## Replies -/

structure Desktop where
  home : Path
  configHome : Path
  runtimeDir : Path
  signature : Bytes

structure Compositor where
  uid : Nat
  trustedExecutable : Bool
  arguments : List Bytes
  environment : List (String × Bytes)
  x11Displays : List Nat

/-- What `stat` says of the file besides its content. -/
structure Identity where
  device : Nat
  inode : Nat
  mode : Nat
  length : Nat
  modified : Int
  nanos : Int
  changed : Int
  changedNanos : Int
  deriving DecidableEq

/-- The file as it is found: the identities of its folder and of itself. -/
structure Found where
  parent : Nat × Nat
  identity : Identity
  deriving DecidableEq

/-- What a step of the program meets with. -/
structure Moment where
  /-- What the user saves before the step, knowing the file and the token of the override. -/
  edit : Option String → Bytes → Option Bytes
  fault : Fault
  /-- `secure_directory` of the folders and `stat` of the file, if they are safe. -/
  found : Except Error Found
  /-- The owner of the runtime folder, if it is safe. -/
  runtimeOwner : Except Error Nat
  desktop : Except Error Desktop
  trustedHyprctl : Bool
  hyprctl : List String → Except Error Bytes
  compositor : Nat → Except Error Compositor
  xwaylandPresent : Except Error Bool
  cancelled : Bool
  /-- `Uuid::new_v4`, for a file as it is. -/
  token : Bytes → String

/-! ## The files -/

inductive Phase where
  | prepared
  | installed
  | restoring
  | completed
  deriving DecidableEq

structure Journal where
  schema : Nat
  token : String
  home : Path
  originalSha256 : String
  originalMode : Nat
  phase : Phase

def MARKER : Bytes := utf8 "-- flightdeck-x11-repair:"

def block (token : String) : Bytes :=
  utf8 "\n" ++ MARKER ++ utf8 token ++
    utf8 ":begin\nhl.config(\x7b xwayland = \x7b enabled = false \x7d \x7d)\n" ++ MARKER ++
    utf8 token ++ utf8 ":end\n"

/-- The moments of a run, and what is fixed in it. -/
structure Env where
  moment : Nat → Moment
  uid : Nat
  /-- `serde_json::from_slice` -/
  fromSlice : Bytes → Option Json
  /-- No text has the block of a token yet to be drawn. -/
  fresh : ∀ n text, ¬block ((moment n).token text) <:+: text

/-- The file, the private files, and two values that no program keeps: the token of the last override
and the file as the user has written it. -/
structure World where
  config : Bytes
  journal : Option Journal
  backup : Option Bytes
  owned : Option String
  user : Bytes
  tick : Nat

/-- The user's part of a text. -/
def withoutOwned (owned : Option String) (text : Bytes) : Bytes :=
  match owned with
  | none => text
  | some token => takeOut (block token) text

/-- A moment passes. -/
def World.pass (env : Env) (s : World) : World :=
  match (env.moment s.tick).edit s.owned s.config with
  | none => { s with tick := s.tick + 1 }
  | some text =>
    { s with config := text, user := withoutOwned s.owned text, tick := s.tick + 1 }

abbrev Run := EStateM (Stop Error) World

section

variable {α : Type} (env : Env)

/-- A step that may write, at the moment after the last one. -/
def act (step : Moment → Run α) : Run α := do
  let s ← get
  modify (World.pass env)
  perform (env.moment s.tick).fault .io (step (env.moment s.tick))

/-- A step that reads. -/
def observe (read : Moment → Except Error α) : Run α := act env fun now => liftM (read now)

/-! ## The compositor -/

def hyprctl (arguments : List String) : Run Bytes := observe env fun now => now.hyprctl arguments

def query (arguments : List String) : Run Json := do
  let bytes ← hyprctl env arguments
  match env.fromSlice bytes with
  | some value => pure value
  | none => throw (.error (failure .unsupported))

/-- `u8::is_ascii_whitespace` -/
def isAsciiWhitespace (b : UInt8) : Bool := b ∈ ([32, 9, 10, 12, 13] : List UInt8)

def configClean : Run Unit := do
  let bytes ← hyprctl env ["configerrors"]
  liftM (check (bytes.all isAsciiWhitespace) .configErrors)

/-- `validate_desktop` -/
def validateDesktop (desktop : Desktop) : Run Unit := do
  liftM (check
    (desktop.home.absolute && desktop.configHome == desktop.home.join ".config" &&
      desktop.runtimeDir.absolute && desktop.signature ≠ [] && desktop.signature.length ≤ 160 &&
      desktop.signature.all fun b => isAsciiAlphanumeric b || b ∈ utf8 "_-.")
    .unsupported)
  let owner ← observe env (·.runtimeOwner)
  liftM (check (owner == env.uid) .unsupported)

def VERSION : Bytes := utf8 "0.56.2"

def COMMIT : Bytes := utf8 "efb50993780079460b0cbed1363e2166a2de1d9f"

/-- `Value::as_array` -/
def asArray : Json → Option (List Json)
  | .array rows => some rows
  | _ => none

/-- `value[key] == flag` -/
def isBool (value : Json) (key : String) (flag : Bool) : Bool :=
  match value.get key with
  | some (.boolean b) => b == flag
  | _ => false

/-- `Value::as_u64` -/
def asU64 : Option Json → Option Nat
  | some (.unsigned n) => some n.toNat
  | _ => none

def isVersion (version : Json) : Bool :=
  version.stringAt "version" == some VERSION && version.stringAt "commit" == some COMMIT &&
    isBool version "dirty" false

/-- The process of the instance with that signature. -/
def instancePid (instances : Json) (signature : Bytes) : Except Error Nat :=
  match asArray instances with
  | none => .error (failure .unsupported)
  | some rows =>
    match rows.filter fun row => row.stringAt "instance" == some signature with
    | [row] =>
      match asU64 (row.get "pid") with
      | some n => if 0 < n ∧ n ≤ 2147483647 then .ok n else .error (failure .unsupported)
      | none => .error (failure .unsupported)
    | _ => .error (failure .unsupported)

/-- The compositor reads the configuration of this home. -/
def readsConfig (compositor : Compositor) (desktop : Desktop) : Bool :=
  (compositor.arguments.drop 1).all (fun argument =>
      !(utf8 "-c").isPrefixOf argument && argument ≠ utf8 "--config" &&
        !(utf8 "--config=").isPrefixOf argument) &&
    (compositor.environment.lookup "HOME").any (fun p => Path.new p == desktop.home) &&
    (compositor.environment.lookup "XDG_CONFIG_HOME").all
      (fun p => Path.new p == desktop.configHome) &&
    (compositor.environment.lookup "OMARCHY_PATH").all (· == utf8 "/usr/share/omarchy")

def currentCompositor (desktop : Desktop) : Run Compositor := do
  validateDesktop env desktop
  let trusted ← observe env fun now => .ok now.trustedHyprctl
  liftM (check trusted .unsupported)
  let version ← query env ["-j", "version"]
  liftM (check (isVersion version) .unsupported)
  let instances ← query env ["-j", "instances"]
  let pid ← liftM (instancePid instances desktop.signature)
  let compositor ← observe env fun now => now.compositor pid
  liftM (check
    (compositor.uid == env.uid && compositor.trustedExecutable && !compositor.arguments.isEmpty &&
      readsConfig compositor desktop)
    .unsupported)
  return compositor

def noX11Clients : Run Unit := do
  let clients ← query env ["-j", "clients"]
  match asArray clients with
  | none => throw (.error (failure .unsupported))
  | some clients =>
    liftM (check (clients.length ≤ 65536 && clients.all fun client => isBool client "xwayland" false)
      .busy)
    let present ← observe env (·.xwaylandPresent)
    liftM (check (!present) .busy)

/-- `Value::as_i64` -/
def asI64 : Option Json → Option Int
  | some (.unsigned n) => if n.toNat < 2 ^ 63 then some n.toNat else none
  | some (.integer n) => some n.toInt
  | _ => none

/-- The option of the reply to `getoption`. -/
def optionValue (option : Json) : Except Error Bool :=
  match asI64 (option.get "int") with
  | some value => if value = 0 ∨ value = 1 then .ok (value == 1) else .error (failure .unsupported)
  | none =>
    match option.get "bool" with
    | some (.boolean b) => .ok b
    | _ => .error (failure .unsupported)

def enabled : Run Bool := do
  let option ← query env ["-j", "getoption", "xwayland:enabled"]
  liftM (optionValue option)

/-- `char::is_whitespace` -/
def isWhitespace (c : Char) : Bool :=
  (9 ≤ c.toNat && c.toNat ≤ 13) || (0x2000 ≤ c.toNat && c.toNat ≤ 0x200A) ||
    c.toNat ∈ [0x20, 0x85, 0xA0, 0x1680, 0x2028, 0x2029, 0x202F, 0x205F, 0x3000]

/-- `str::trim` -/
def trim (text : List Char) : List Char :=
  ((text.dropWhile isWhitespace).reverse.dropWhile isWhitespace).reverse

/-- `std::str::from_utf8`, as characters. -/
def fromUtf8 (bytes : Bytes) : Option (List Char) :=
  (String.fromUTF8? ⟨bytes.toArray⟩).map String.toList

/-- `std::str::from_utf8(bytes).is_ok()`; a text of ASCII bytes needs no decoding. -/
def isUtf8 (bytes : Bytes) : Bool := (bytes.all (· < 0x80)) || (fromUtf8 bytes).isSome

def reload : Run Unit := do
  let bytes ← hyprctl env ["reload", "config-only"]
  -- a reply that is not UTF-8 keeps a replacement character
  liftM (check ((fromUtf8 bytes).map trim == some "ok".toList) .restorePending)
  configClean env

end

end Flightdeck.Display
