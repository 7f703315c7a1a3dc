import Flightdeck.Errors
import Flightdeck.Foundation.Filling
import Flightdeck.Foundation.Outcome
import Flightdeck.Installer.Release

/-!
# Names in archives

What the planners of `orbx/archive.rs` and `gsx_engine.rs` have in common: the parts of a name that
Windows and Unix read alike, and the map of the paths that were seen, each with all its prefixes
under its form in small letters.
-/

namespace Flightdeck.Packages

open Foundation
open Installer (components isControl)

/-- `part.split('.').next().unwrap_or("").to_ascii_uppercase()` -/
def base (part : String) : List Char := (part.toList.takeWhile (· ≠ '.')).map Char.toUpper

local instance lawfulText : LawfulBEq (List Char) := inferInstance

/-- A device of Windows. -/
def reserved (base : List Char) : Bool :=
  base ∈ ["CON".toList, "PRN".toList, "AUX".toList, "NUL".toList] ||
    match base with
    | [a, b, c, digit] => ([a, b, c] == "COM".toList || [a, b, c] == "LPT".toList) &&
        '1' ≤ digit && digit ≤ '9'
    | _ => false

def isSpecial (c : Char) : Bool :=
  c == ':' || c == '*' || c == '?' || c == '"' || c == '<' || c == '>' || c == '|'

/-- The tests on a part that both planners make. -/
def portable (part : String) : Bool :=
  part.toList.getLast? ≠ some '.' && part.toList.getLast? ≠ some ' ' &&
    !part.toList.any isSpecial && !reserved (base part)

/-! ## The paths that were seen -/

/-- The spelling of a path and whether it is a directory, by its form in small letters. -/
abbrev Paths := TextMap (String × Bool)

def extend (current part : String) : String :=
  (if current = "" then current else current ++ "/") ++ part

/-- The prefixes of a path, each with whether it is a directory. -/
def prefixes (dir : Bool) : String → List String → List (String × Bool)
  | _, [] => []
  | current, part :: rest =>
    (extend current part, !rest.isEmpty || dir) :: prefixes dir (extend current part) rest

section

-- `str::to_lowercase`
variable (lower : String → String)

/-- The loop over the components of a path. -/
def registerParts (dir : Bool) : Paths → String → List String → Option Paths
  | paths, _, [] => some paths
  | paths, current, part :: rest =>
    match paths[lower (extend current part)]? with
    | some (spelling, priorDir) =>
      if spelling = extend current part ∧ priorDir = (!rest.isEmpty || dir) then
        registerParts dir paths (extend current part) rest
      else none
    | none =>
      registerParts dir
        (paths.insert (lower (extend current part)) (extend current part, !rest.isEmpty || dir))
        (extend current part) rest

def register (paths : Paths) (path : String) (dir : Bool) : Option Paths :=
  registerParts lower dir paths "" (components path)

/-- The entries of the map for a path. -/
def rows (path : String) (dir : Bool) : List (String × (String × Bool)) :=
  (prefixes dir "" (components path)).map fun p => (lower p.1, p)

theorem registerParts_eq (dir : Bool) (paths : Paths) (current : String) (parts : List String) :
    registerParts lower dir paths current parts =
      ((prefixes dir current parts).map fun p => (lower p.1, p)).foldlM addAgreeing paths := by
  induction parts generalizing paths current with
  | nil => rfl
  | cons part rest ih =>
    unfold registerParts prefixes
    rw [List.map_cons, List.foldlM_cons]
    unfold addAgreeing
    dsimp only
    cases known : paths[lower (extend current part)]? with
    | none =>
      dsimp only
      rw [ih]
      rfl
    | some prior =>
      have ⟨spelling, priorDir⟩ := prior
      dsimp only
      by_cases same : spelling = extend current part ∧ priorDir = (!rest.isEmpty || dir)
      · rw [if_pos same, if_pos (by rw [same.1, same.2]), ih]
        rfl
      · rw [if_neg same, if_neg (by rwa [Prod.mk.injEq])]
        rfl

theorem register_eq (paths : Paths) (path : String) (dir : Bool) :
    register lower paths path dir = (rows lower path dir).foldlM addAgreeing paths :=
  registerParts_eq lower dir paths "" (components path)

end

/-- A check that yields a value. -/
def orInvalid {α : Type} (message : String) : Option α → Except Error α
  | some a => .ok a
  | none => .error (.invalid message)

theorem orInvalid_eq_ok {α : Type} {message : String} {x : Option α} {a : α} :
    orInvalid message x = .ok a ↔ x = some a := by
  cases x <;> simp [orInvalid]

/-- Two prefixes of the same letters are spelled alike, and both directories or both files. -/
def Consistent (lower : String → String) (paths : List (String × Bool)) : Prop :=
  ∀ a ∈ paths, ∀ b ∈ paths, lower a.1 = lower b.1 → a.1 = b.1 ∧ a.2 = b.2

theorem functional_rows (lower : String → String) (paths : List (String × Bool)) :
    Functional (paths.map fun p => (lower p.1, p)) ↔ Consistent lower paths := by
  constructor
  · intro h a there b there' same
    have equal := h _ (List.mem_map_of_mem there) _ (List.mem_map_of_mem there') same
    exact Prod.mk.inj equal
  · intro h a there b there' same
    have ⟨p, inside, shape⟩ := List.mem_map.mp there
    have ⟨q, inside', shape'⟩ := List.mem_map.mp there'
    subst shape shape'
    exact Prod.ext_iff.mpr (h p inside q inside' same)

end Flightdeck.Packages
