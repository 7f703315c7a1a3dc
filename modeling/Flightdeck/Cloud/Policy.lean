import Flightdeck.Foundation.ThreeWay
import Flightdeck.SaveState.Format

/-!
# The comparison policy

What `cloud_policy` decides about two save sets and the baseline they share.  A save set holds one
content digest for each container; its fields have passed the checks of `SaveSet::new`.
-/

namespace Flightdeck.Cloud

open Foundation SaveState

def SYNC_DATA : Error := .invalid "Ungültige Cloud-Sync-Daten."
def SYNC_BINDING : Error := .invalid "Ungültige Cloud-Sync-Zuordnung."

/-- The checks of `SaveSet::new`. -/
def SaveSet.check (binding : String) (containers : TextMap String) : Except Error Unit := do
  Flightdeck.require (hexDigest binding && containers.size ≤ CONTAINER_LIMIT) SYNC_DATA
  containers.toList.forM fun entry => do
    SaveState.name entry.1 true
    Flightdeck.require (hexDigest entry.2) SYNC_DATA

structure SaveSet where
  binding : String
  containers : TextMap String
  checked : SaveSet.check binding containers = .ok ()
  deriving DecidableEq

def SaveSet.new (binding : String) (containers : TextMap String) : Except Error SaveSet :=
  match h : SaveSet.check binding containers with
  | .ok () => .ok ⟨binding, containers, h⟩
  | .error e => .error e

/-- The state with one container only. -/
def single (key : String) (entry : Container) : State where
  containers := (∅ : TextMap Container).insert key entry

def SaveSet.fromState [Sha256] (binding : String) (state : State) : Except Error SaveSet := do
  let _ ← encode state
  let containers ← state.containers.toList.foldlM (fun (containers : TextMap String) entry => do
    return containers.insert entry.1 (← contentDigest (single entry.1 entry.2))) ∅
  SaveSet.new binding containers

inductive Action where
  | noop | importCloud | uploadLocal | merge | conflict | blocked
  deriving DecidableEq, Repr

inductive Source where
  | «local» | cloud
  deriving DecidableEq, Repr

structure Selection where
  name : String
  source : Source
  digest : Option String
  deriving DecidableEq

structure Decision where
  action : Action
  reason : String
  target : Option SaveSet := none
  selections : List Selection := []
  conflicts : List String := []
  backupRequired : Bool := false
  baselineRequired : Bool := false
  deriving DecidableEq

def Decision.new (action : Action) (reason : String) : Decision := { action, reason }

/-- The names of up to three maps, each once and in byte order. -/
def unionNames {β : Type} (left right : TextMap β) (old : Option (TextMap β)) : List String :=
  (insertAll (∅ : TextSet) ((left.keys ++ right.keys ++ (old.map (·.keys)).getD []).map
    fun name => (name, ()))).keys

/-- The variables that the loop over the names changes. -/
structure Merged where
  selections : List Selection := []
  conflicts : List String := []
  target : TextMap String := ∅

def Merged.take (m : Merged) (name : String) (source : Source) (digest : Option String) :
    Merged where
  selections := m.selections ++ [⟨name, source, digest⟩]
  conflicts := m.conflicts
  target := match digest with
    | some digest => m.target.insert name digest
    | none => m.target

/-- One turn of the loop over the names. -/
def mergeName (left right old : TextMap String) (m : Merged) (name : String) : Merged :=
  let a := left[name]?
  let b := right[name]?
  let previous := old[name]?
  if a = b then m.take name .local a
  else if a = previous then m.take name .cloud b
  else if b = previous then m.take name .local a
  else { m with conflicts := m.conflicts ++ [name] }

def decide (binding : String) («local» remote baseline : Option SaveSet) :
    Except Error Decision := do
  Flightdeck.require (hexDigest binding) SYNC_BINDING
  if [«local», remote, baseline].any (fun value => value.any (·.binding != binding)) then
    return .new .blocked "scope_mismatch"
  let some «local» := «local» | return .new .blocked "local_unavailable"
  let some remote := remote | return .new .blocked "remote_unavailable"
  let left := «local».containers
  let right := remote.containers
  let old := baseline.map (·.containers)
  let names := unionNames left right old
  if left = right then
    return { Decision.new .noop "already_equal" with
      target := some «local»
      baselineRequired := old != some left
      selections := names.map fun name => ⟨name, .local, left[name]?⟩ }
  let some old := old |
    let (selected, source, action, reason) :=
      if right.isEmpty then («local», Source.local, Action.uploadLocal, "first_local")
      else (remote, Source.cloud, Action.importCloud, "first_cloud")
    return { Decision.new action reason with
      target := some selected
      backupRequired := true
      baselineRequired := true
      selections := names.map fun name => ⟨name, source, selected.containers[name]?⟩ }
  let m := names.foldl (mergeName left right old) {}
  if !m.conflicts.isEmpty then
    return { Decision.new .conflict "diverged" with conflicts := m.conflicts }
  if m.target.size > CONTAINER_LIMIT then
    return .new .blocked "bounds"
  let (action, reason) :=
    if m.target = right then (Action.importCloud, "remote_changed")
    else if m.target = left then (Action.uploadLocal, "local_changed")
    else (Action.merge, "independent_changes")
  let target ← SaveSet.new binding m.target
  return { Decision.new action reason with
    target := some target
    selections := m.selections
    backupRequired := true
    baselineRequired := true }

end Flightdeck.Cloud
