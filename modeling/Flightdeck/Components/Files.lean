import Flightdeck.Documents
import Flightdeck.Files

/-!
# Component files of a runtime

The compatibility components, the start scripts and the manifest that names their hashes.  A version
of the components is given by these hashes.
-/

namespace Flightdeck.Components

open Foundation

/-- A fixed list of names. -/
class Named (α : Type) where
  all : List α
  mem_all (a : α) : a ∈ all
  name : α → String
  names_nodup : (all.map name).Nodup

/-- `FILES`. -/
inductive Component where
  | cli
  | service
  | connectedStorage
  | gameRuntime
  | storeDll
  | storeSo
  deriving DecidableEq

def Component.file : Component → String
  | .cli => "bin/xodus-cli"
  | .service => "bin/xodus-service"
  | .connectedStorage => "bin/flightdeck-connected-storage.exe"
  | .gameRuntime => "runtime/xgameruntime.dll"
  | .storeDll => "builtin/x86_64-windows/xodus_store_test.dll"
  | .storeSo => "builtin/x86_64-unix/xodus_store_test.so"

instance : Named Component where
  all := [.cli, .service, .connectedStorage, .gameRuntime, .storeDll, .storeSo]
  mem_all a := by cases a <;> decide
  name := Component.file
  names_nodup := by decide

/-- `SCRIPTS`. -/
inductive Script where
  | launchMsfs
  | playMsfs
  | runtimeEnv
  | xodus
  | xodusService
  | xodusWineLaunch
  deriving DecidableEq

def Script.file : Script → String
  | .launchMsfs => "launch-msfs.sh"
  | .playMsfs => "play-msfs.sh"
  | .runtimeEnv => "runtime-env.sh"
  | .xodus => "xodus.sh"
  | .xodusService => "xodus-service.sh"
  | .xodusWineLaunch => "xodus-wine-launch"

instance : Named Script where
  all := [.launchMsfs, .playMsfs, .runtimeEnv, .xodus, .xodusService, .xodusWineLaunch]
  mem_all a := by cases a <;> decide
  name := Script.file
  names_nodup := by decide

/-- The places of `targets` at which components are installed. -/
inductive Target where
  | cli
  | service
  | connectedStorage
  | gameRuntime
  | storeDllRuntime
  | storeDllSystem
  | storeSo
  deriving DecidableEq

def Target.component : Target → Component
  | .cli => .cli
  | .service => .service
  | .connectedStorage => .connectedStorage
  | .gameRuntime => .gameRuntime
  | .storeDllRuntime => .storeDll
  | .storeDllSystem => .storeDll
  | .storeSo => .storeSo

def Target.all : List Target :=
  [.cli, .service, .connectedStorage, .gameRuntime, .storeDllRuntime, .storeDllSystem, .storeSo]

theorem Target.mem_all (t : Target) : t ∈ Target.all := by cases t <;> decide

/-- A file that an update manages.  A backup folder keeps each of them under a name of its own. -/
inductive Managed where
  | target (t : Target)
  | script (s : Script)
  | manifest
  deriving DecidableEq

structure File where
  bytes : Bytes
  executable : Bool
  deriving DecidableEq

abbrev Folder := Managed → Option File

/-! ## Hashes -/

/-- A JSON object from names to texts. -/
abbrev Rows := List (String × String)

/-- `Hashes`, checked for these names. -/
abbrev Hashes (α : Type) := α → String

section

variable {α : Type} [Named α]

def hashes (rows : Rows) : Except Error (Hashes α) := do
  require (rows.length == (Named.all : List α).length &&
    (Named.all : List α).all fun a => (rows.lookup (Named.name a)).any hexDigest)
    (.invalid "Die Runtime hat keine vollständig geprüfte Komponentenliste.")
  return fun a => (rows.lookup (Named.name a)).getD ""

instance : DecidableEq (Hashes α) := fun f g =>
  decidable_of_iff (∀ a ∈ (Named.all : List α), f a = g a)
    ⟨fun h => funext fun a => h a (Named.mem_all a), fun h a _ => congrFun h a⟩

/-- The object that holds the hashes. -/
def Hashes.rows (h : Hashes α) : Rows := Named.all.map fun a => (Named.name a, h a)

/-- A JSON object is the one that holds the hashes, in whatever order. -/
def Hashes.sameRows (h : Hashes α) (rows : Rows) : Bool :=
  rows.length == (Named.all : List α).length &&
    (Named.all : List α).all fun a => rows.lookup (Named.name a) == some (h a)

theorem lookup_map_of_nodup {names : List α} {h : Hashes α} {a : α} (ha : a ∈ names)
    (hnodup : (names.map Named.name).Nodup) :
    (names.map fun a => (Named.name a, h a)).lookup (Named.name a) = some (h a) := by
  induction names with
  | nil => cases ha
  | cons b names ih =>
    rw [List.map_cons, List.nodup_cons] at hnodup
    rw [List.map_cons, List.lookup_cons]
    rcases List.mem_cons.mp ha with rfl | ha
    · rw [beq_self_eq_true]
    · have hne : Named.name a ≠ Named.name b := by
        intro h
        exact hnodup.1 (h ▸ List.mem_map_of_mem ha)
      rw [beq_false_of_ne hne]
      exact ih ha hnodup.2

theorem lookup_rows (h : Hashes α) (a : α) : h.rows.lookup (Named.name a) = some (h a) :=
  lookup_map_of_nodup (Named.mem_all a) Named.names_nodup

theorem hashes_rows {h : Hashes α} (hhex : ∀ a, hexDigest (h a) = true) :
    hashes h.rows = .ok h := by
  have hall : (h.rows.length == (Named.all : List α).length &&
      (Named.all : List α).all fun a => (h.rows.lookup (Named.name a)).any hexDigest) = true := by
    rw [Bool.and_eq_true, List.all_eq_true]
    refine ⟨by simp [Hashes.rows], fun a _ => ?_⟩
    rw [lookup_rows]
    exact hhex a
  unfold hashes
  rw [hall]
  change Except.ok (fun a => (h.rows.lookup (Named.name a)).getD "") = _
  simp only [lookup_rows, Option.getD_some]

theorem hexDigest_of_hashes {rows : Rows} {h : Hashes α} (hok : hashes rows = .ok h) (a : α) :
    hexDigest (h a) = true := by
  unfold hashes at hok
  obtain ⟨_, hall, hok⟩ := bind_eq_ok.mp hok
  rw [require_eq_ok, Bool.and_eq_true, List.all_eq_true] at hall
  cases hok
  have ha := hall.2 a (Named.mem_all a)
  change hexDigest ((rows.lookup (Named.name a)).getD "") = true
  cases hrow : rows.lookup (Named.name a) with
  | none =>
    rw [hrow] at ha
    cases ha
  | some value =>
    rw [hrow] at ha
    exact ha

theorem sameRows_rows (h : Hashes α) : h.sameRows h.rows = true := by
  unfold Hashes.sameRows
  rw [Bool.and_eq_true, List.all_eq_true]
  refine ⟨by simp [Hashes.rows], fun a _ => ?_⟩
  rw [lookup_rows, beq_self_eq_true]

end

end Flightdeck.Components
