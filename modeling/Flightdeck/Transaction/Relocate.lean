import Flightdeck.Errors
import Flightdeck.Foundation.Faults
import Flightdeck.Foundation.Outcome
import Flightdeck.Foundation.Paths

/-!
# Links of a copied prefix

`relocate_prefix_links` makes the links of a copied prefix relative: a link to a place below the
source leads to the same place below the destination.  The places are those below the destination.
-/

namespace Flightdeck.Transaction

open Foundation

/-- The names from the destination to a place below it. -/
abbrev Place := List Bytes

inductive Node where
  | folder
  | file
  | link (target : Bytes)
  deriving DecidableEq

/-- The tree below the destination, with what is listed of each folder. -/
structure Tree where
  nodes : Place → Option Node
  entries : Place → List Bytes
  rooted : ∀ place name, nodes (place ++ [name]) ≠ none → nodes place = some .folder
  listed : ∀ place name, nodes (place ++ [name]) ≠ none → name ∈ entries place

def TOO_MANY := "Der Profilordner enthält zu viele Dateien."

def INVALID_PATH := "Ungültiger Profilpfad."

def LIMIT : Nat := 1000000

/-! ## `walk` -/

/-- The loop over the entries of a folder: the folders that are still to be read, and the entries
found. -/
def visit (tree : Tree) (folder : Place) : List Bytes → List Place → List Place →
    Except Error (List Place × List Place)
  | [], folders, entries => .ok (folders, entries)
  | name :: names, folders, entries =>
    if entries.length < LIMIT then
      visit tree folder names
        (if tree.nodes (folder ++ [name]) = some .folder then (folder ++ [name]) :: folders
          else folders)
        (entries ++ [folder ++ [name]])
    else .error (.invalid TOO_MANY)

theorem visit_ok {tree : Tree} {folder : Place} {names : List Bytes} {folders entries : List Place}
    {state : List Place × List Place} (done : visit tree folder names folders entries = .ok state) :
    state.2.length = entries.length + names.length ∧ (names ≠ [] → entries.length < LIMIT) ∧
      (names = [] → state = (folders, entries)) := by
  induction names generalizing folders entries with
  | nil =>
    cases done
    exact ⟨rfl, by nofun, fun _ => rfl⟩
  | cons name names ih =>
    unfold visit at done
    by_cases room : entries.length < LIMIT
    · rw [if_pos room] at done
      have ⟨length, _, _⟩ := ih done
      rw [List.length_append, List.length_singleton] at length
      refine ⟨?_, fun _ => room, by nofun⟩
      rw [length, List.length_cons]
      omega
    · rw [if_neg room] at done
      cases done

/-- The loop over the folders. -/
def walkFrom (tree : Tree) : List Place → List Place → Except Error (List Place)
  | [], entries => .ok entries
  | folder :: folders, entries =>
    match _visited : visit tree folder (tree.entries folder) folders entries with
    | .error e => .error e
    | .ok state => walkFrom tree state.1 state.2
termination_by folders entries => (LIMIT - entries.length, folders.length)
decreasing_by
  have ⟨length, room, same⟩ := visit_ok _visited
  by_cases none : tree.entries folder = []
  · rw [same none]
    exact Prod.Lex.right _ (Nat.lt_succ_self _)
  · apply Prod.Lex.left
    have some := List.length_pos_of_ne_nil none
    have bound := room none
    omega

def walk (tree : Tree) : Except Error (List Place) := do
  -- `files::directory`; another owner is a fault of the call
  require (tree.nodes [] = some .folder) .io
  walkFrom tree [[]] []

/-! ## `relocate_prefix_links` -/

/-- `Path::strip_prefix` -/
def stripPrefix (path base : List (Component Bytes)) : Option (List (Component Bytes)) :=
  base.isPrefixOf? path

/-- How many components two paths have in common at the beginning. -/
def commonParts (a b : List (Component Bytes)) : Nat :=
  ((a.zip b).takeWhile fun (x, y) => x == y).length

/-- The parts that are pushed to the new target of a link in a folder. -/
def newParts (parentParts targetParts : List (Component Bytes)) : List (Component Bytes) :=
  List.replicate (parentParts.length - commonParts targetParts parentParts) .parent ++
    targetParts.drop (commonParts targetParts parentParts)

def newTarget (parentParts targetParts : List (Component Bytes)) : Bytes :=
  if pushAll [] (newParts parentParts targetParts) = [] then [DOT]
  else pushAll [] (newParts parentParts targetParts)

/-- The nodes below the destination, and how many calls of the system were made. -/
structure Disk where
  nodes : Place → Option Node
  clock : Nat

abbrev M := EStateM (Stop Error) Disk

section

-- the fault that strikes at each call
variable (faults : Nat → Fault)

def act {α : Type} (m : M α) : M α := do
  let now ← get
  set { now with clock := now.clock + 1 }
  perform (faults now.clock) .io m

/-- `symlink_metadata`, and `read_link` where it is a link. -/
def readLink (place : Place) : M (Option Bytes) := do
  let node ← act faults do
    match (← get).nodes place with
    | none => throw (.error .io)
    | some node => return node
  match node with
  | .link target => act faults (return some target)
  | _ => return none

def setNode (place : Place) (node : Option Node) : M Unit :=
  act faults (modify fun disk => { disk with nodes := Function.update disk.nodes place node })

/-- The body of the loop over the links. -/
def relocateLink (source : Bytes) (place : Place) : M Unit := do
  match ← readLink faults place with
  | none => pure ()
  | some target =>
    match stripPrefix (components target) (components source) with
    | none => pure ()
    | some relative => do
      liftM (require (!place.isEmpty) (Error.invalid INVALID_PATH))
      setNode faults place none
      setNode faults place (some (.link (newTarget (place.dropLast.map .name) relative)))

/-- The calls of `walk` change nothing: one fault stands for all of theirs. -/
def relocatePrefixLinks (tree : Tree) (source : Bytes) : M Unit := do
  let links ← act faults (liftM (walk tree))
  links.forM (relocateLink faults source)

end

end Flightdeck.Transaction
