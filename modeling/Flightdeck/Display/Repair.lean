import Flightdeck.Display.World

/-!
# The display override

`display_repair.rs`: a marked block is appended to the user's `hyprland.lua`, the compositor reloads
it, and the block is taken out again.  A journal and a backup in the launcher's folder stand for the
block as long as it may be in the file.
-/

namespace Flightdeck.Display

open Foundation

def MAX_CONFIG : Nat := 1024 * 1024

/-- The file as it was read. -/
structure Config where
  bytes : Bytes
  found : Found

/-- `Config::read_current` -/
def readCurrent (found : Except Error Found) (bytes : Bytes) : Except Error Config := do
  let found ← found
  check (bytes.length ≤ MAX_CONFIG && isUtf8 bytes && !bytes.contains 0) .unsafeConfig
  return ⟨bytes, found⟩

/-- `Config::current`: the file is still the one that was read. -/
def Config.current (config : Config) (found : Except Error Found) (bytes : Bytes) :
    Except Error Unit := do
  let now ← readCurrent found bytes
  check (now.found == config.found && now.bytes == config.bytes) .unsafeConfig

section

variable {α : Type} (env : Env)

/-- `Config::open` -/
def openConfig : Run Config := act env fun now => do
  let s ← get
  liftM (readCurrent now.found s.config)

/-- `Config::replace`. No moment passes between the last check and the rename. -/
def replace (config : Config) (bytes : Bytes) : Run Unit := do
  act env fun now => do
    let s ← get
    liftM (config.current now.found s.config)
  -- the replacement is written under a name of its own
  act env fun _ => pure ()
  act env fun now => do
    let s ← get
    liftM (config.current now.found s.config)
    modify fun s => { s with config := bytes }

/-! ## The journal -/

def save (journal : Journal) : Run Unit :=
  act env fun _ => modify fun s => { s with journal := some journal }

/-- The backup goes first, so the journal is there as long as anything is. -/
def clear : Run Unit := do
  act env fun _ => modify fun s => { s with backup := none }
  act env fun _ => modify fun s => { s with journal := none }

def readBackup : Run Bytes := act env fun _ => do
  let s ← get
  match s.backup with
  | some bytes => if bytes.length ≤ MAX_CONFIG then pure bytes else throw (.error .io)
  | none => throw (.error .io)

def isToken (token : String) : Bool :=
  (utf8 token).length == 32 && (utf8 token).all fun b => isAsciiDigit b || (97 ≤ b && b ≤ 102)

def validJournal (journal : Journal) : Bool :=
  journal.schema == 1 && isToken journal.token && hexDigest journal.originalSha256 &&
    journal.originalMode &&& 0o777 == journal.originalMode && journal.originalMode &&& 0o022 == 0

/-- The errors of a step under one failure. -/
def orFail (kind : Failure) (step : Run α) : Run α := fun s =>
  match step s with
  | .ok a s => .ok a s
  | .error (.error _) s => .error (.error (failure kind)) s
  | .error .crash s => .error .crash s

/-! ## Restoring -/

def complete (journal : Journal) (result : Bool) : Run Bool := do
  save env { journal with phase := .completed }
  clear env
  return result

/-- Take the block, if it is there, out of the file as it was read. -/
def removeBlock (journal : Journal) (config : Config) : Run Unit :=
  if places (block journal.token) config.bytes = 1 then do
    save env { journal with phase := .restoring }
    replace env config (takeOut (block journal.token) config.bytes)
  else pure ()

def undo [Sha256] (journal : Journal) (desktop : Desktop) (config : Config) : Run Bool := do
  let backup ← readBackup env
  liftM (check (sha256 backup == journal.originalSha256) .restorePending)
  -- a block that the user edited is left for him
  liftM (check (places (block journal.token) config.bytes == 1 ||
    !occurs (utf8 journal.token) config.bytes) .restorePending)
  removeBlock env journal config
  let _ ← currentCompositor env desktop
  reload env
  complete env journal true

def restoreConfig [Sha256] (journal : Journal) (desktop : Desktop) : Run Bool := do
  let config ← openConfig env
  liftM (check (places (block journal.token) config.bytes ≤ 1) .restorePending)
  if places (block journal.token) config.bytes = 0 ∧ journal.phase = .prepared ∧
      occurs (utf8 journal.token) config.bytes = false then
    complete env journal false
  else undo env journal desktop config

def restoreJournal [Sha256] (journal : Journal) : Run Bool := do
  liftM (check (validJournal journal) .restorePending)
  let desktop ← observe env (·.desktop)
  liftM (check (desktop.home == journal.home) .restorePending)
  if journal.phase = .completed then do
    clear env
    return false
  else restoreConfig env journal desktop

def restore [Sha256] : Run Bool := do
  let s ← get
  match s.journal with
  | none => return false
  | some journal => orFail .restorePending (restoreJournal env journal)

/-! ## Repairing -/

/-- Without the lines that are comments. The end of a line falls to `trim`. -/
def luaOmarchy (bytes : Bytes) : Bool :=
  match fromUtf8 bytes with
  | none => false
  | some text =>
    let lines := ((text.splitOn '\n').map trim).filter fun line => !"--".toList.isPrefixOf line
    (lines.any fun line =>
        line == "require(\"default.hypr.omarchy\")".toList ||
          line == "require('default.hypr.omarchy')".toList) &&
      lines.any fun line =>
        occurs "/default/hypr/bootstrap.lua".toList line && "dofile(".toList.isPrefixOf line &&
          occurs "/usr/share/omarchy".toList line

def notCancelled : Run Unit := do
  let cancelled ← observe env fun now => .ok now.cancelled
  liftM (require (!cancelled) Error.cancelled)

/-- The checks before anything is written. -/
def inspect (display : Nat) : Run (Desktop × Config) := do
  let desktop ← orFail .unsupported (observe env (·.desktop))
  let compositor ← orFail .unsupported (currentCompositor env desktop)
  liftM (check (compositor.x11Displays.contains display) .unsupported)
  configClean env
  noX11Clients env
  let on ← enabled env
  liftM (check on .unsupported)
  let config ← orFail .unsafeConfig (openConfig env)
  liftM (check (luaOmarchy config.bytes && !occurs MARKER config.bytes) .unsafeConfig)
  notCancelled env
  return (desktop, config)

/-- The journal at this moment. -/
def newJournal [Sha256] (now : Moment) (text : Bytes) (desktop : Desktop) (config : Config) :
    Journal :=
  { schema := 1, token := now.token text, home := desktop.home,
    originalSha256 := sha256 config.bytes, originalMode := config.found.identity.mode,
    phase := .prepared }

/-- The journal and then the backup. The token is the program's own from here on. -/
def prepare [Sha256] (desktop : Desktop) (config : Config) : Run Journal := do
  let s ← get
  liftM (check (s.journal.isNone && s.backup.isNone) .restorePending)
  let journal ← act env fun now => do
    let s ← get
    let journal := newJournal now s.config desktop config
    modify fun s => { s with journal := some journal, owned := some journal.token }
    return journal
  act env fun _ => modify fun s => { s with backup := some config.bytes }
  return journal

def install (display : Nat) (desktop : Desktop) (config : Config) (journal : Journal) :
    Run Unit := do
  noX11Clients env
  let compositor ← currentCompositor env desktop
  liftM (check (compositor.x11Displays.contains display) .unsupported)
  notCancelled env
  replace env config (config.bytes ++ block journal.token)
  save env { journal with phase := .installed }
  reload env
  let on ← enabled env
  liftM (check (!on) .restorePending)

/-- The clean-up runs whatever became of the installation. -/
def repair [Sha256] (display : Nat) : Run Unit := do
  let (desktop, config) ← inspect env display
  let journal ← prepare env desktop config
  let operation ← outcome (install env display desktop config journal)
  let _ ← restore env
  liftM operation
  notCancelled env

end

end Flightdeck.Display
