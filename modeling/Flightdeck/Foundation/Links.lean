import Mathlib.Data.List.Basic
import Mathlib.Data.List.Infix
import Mathlib.Tactic

/-!
# Trees with links

Directories, files and symbolic links under paths of names, and where a path leads when the links on
its way are followed.  A link that begins with its steps upwards, and has no more of them than there
are directories above it, cannot lead out of a directory; a tree of such links is confined to it.
-/

namespace Foundation

/-- A component of a path. -/
inductive Component (Name : Type) where
  | root
  | current
  | parent
  | name (n : Name)
  deriving DecidableEq

/-- What a place of the tree holds; a file is known by its data. -/
inductive Node (Name Data : Type) where
  | dir
  | file (data : Data)
  | link (target : List (Component Name))
  deriving DecidableEq

/-- A tree, by the names that lead to a place from the root. -/
abbrev LinkTree (Name Data : Type) := List Name → Option (Node Name Data)

variable {Name Data : Type}

/-- Where a path leads from a directory.  The last component need not exist. -/
def walk (tree : LinkTree Name Data) : Nat → List Name → List (Component Name) → Option (List Name)
  | _, place, [] => some place
  | 0, _, _ :: _ => none
  | fuel + 1, _, .root :: rest => walk tree fuel [] rest
  | fuel + 1, place, .current :: rest => walk tree fuel place rest
  | fuel + 1, place, .parent :: rest => walk tree fuel place.dropLast rest
  | fuel + 1, place, .name n :: rest =>
    match tree (place ++ [n]) with
    | some (.link target) => walk tree fuel place (target ++ rest)
    | some .dir => walk tree fuel (place ++ [n]) rest
    | _ => if rest.isEmpty then some (place ++ [n]) else none

/-- Names only. -/
def Downward : List (Component Name) → Prop
  | [] => True
  | .current :: rest => Downward rest
  | .name _ :: rest => Downward rest
  | _ => False

/-- At most so many steps upwards, and all of them first. -/
def Stays : Nat → List (Component Name) → Prop
  | _, [] => True
  | depth, .current :: rest => Stays depth rest
  | depth + 1, .parent :: rest => Stays depth rest
  | _, .name _ :: rest => Downward rest
  | _, _ => False

/-- Every link below a directory stays below it. -/
def Confined (base : List Name) (tree : LinkTree Name Data) : Prop :=
  ∀ dir n target, base <+: dir → tree (dir ++ [n]) = some (.link target) →
    Stays (dir.length - base.length) target

theorem Downward.stays {parts : List (Component Name)} (h : Downward parts) (depth : Nat) :
    Stays depth parts := by
  induction parts with
  | nil => trivial
  | cons part rest ih =>
    cases part with
    | root => exact h.elim
    | parent => exact h.elim
    | current => exact ih h
    | name n => exact h

theorem Downward.append {first rest : List (Component Name)} (hfirst : Downward first)
    (hrest : Downward rest) : Downward (first ++ rest) := by
  induction first with
  | nil => exact hrest
  | cons part first ih =>
    cases part with
    | root => exact hfirst.elim
    | parent => exact hfirst.elim
    | current => exact ih hfirst
    | name n => exact ih hfirst

theorem Downward.dropLast {parts : List (Component Name)} (h : Downward parts) :
    Downward parts.dropLast := by
  induction parts with
  | nil => trivial
  | cons part rest ih =>
    cases rest with
    | nil => trivial
    | cons next rest =>
      cases part with
      | root => exact h.elim
      | parent => exact h.elim
      | current => exact ih h
      | name n => exact ih h

/-- What follows a link may go on downwards. -/
theorem Stays.append {depth : Nat} {first rest : List (Component Name)} (hfirst : Stays depth first)
    (hrest : Downward rest) : Stays depth (first ++ rest) := by
  induction first generalizing depth with
  | nil => exact hrest.stays depth
  | cons part first ih =>
    cases part with
    | root => exact hfirst.elim
    | current => exact ih hfirst
    | name n => exact Downward.append hfirst hrest
    | parent =>
      cases depth with
      | zero => exact hfirst.elim
      | succ depth =>
        change Stays depth first at hfirst
        exact ih hfirst

/-- What stays and never goes upwards consists of names. -/
theorem Stays.downward {depth : Nat} {parts : List (Component Name)} (h : Stays depth parts)
    (hparent : .parent ∉ parts) : Downward parts := by
  induction parts with
  | nil => trivial
  | cons part rest ih =>
    have hrest : .parent ∉ rest := fun hmem => hparent (List.mem_cons_of_mem _ hmem)
    cases part with
    | root => exact h.elim
    | parent => exact absurd List.mem_cons_self hparent
    | current => exact ih h hrest
    | name n => exact h

theorem prefix_dropLast {base place : List Name} (h : base <+: place)
    (hlength : base.length < place.length) : base <+: place.dropLast := by
  obtain ⟨rest, rfl⟩ := h
  have hrest : rest ≠ [] := by
    intro hnil
    rw [hnil, List.append_nil] at hlength
    exact Nat.lt_irrefl _ hlength
  rw [List.dropLast_append_of_ne_nil hrest]
  exact List.prefix_append base rest.dropLast

/-- In a confined tree a path that stays leads to a place below the directory. -/
theorem Confined.walk {base : List Name} {tree : LinkTree Name Data} (h : Confined base tree)
    {fuel : Nat} {place q : List Name} {parts : List (Component Name)} (hplace : base <+: place)
    (hstays : Stays (place.length - base.length) parts)
    (hwalk : Foundation.walk tree fuel place parts = some q) : base <+: q := by
  induction fuel generalizing place parts with
  | zero =>
    cases parts with
    | nil =>
      cases hwalk
      exact hplace
    | cons part rest => cases hwalk
  | succ fuel ih =>
    cases parts with
    | nil =>
      cases hwalk
      exact hplace
    | cons part rest =>
      cases part with
      | root => exact hstays.elim
      | current =>
        change Stays _ rest at hstays
        exact ih hplace hstays hwalk
      | parent =>
        cases hdepth : place.length - base.length with
        | zero =>
          rw [hdepth] at hstays
          exact hstays.elim
        | succ depth =>
          rw [hdepth] at hstays
          have hlast : place.dropLast.length - base.length = depth := by
            rw [List.length_dropLast]
            omega
          apply ih (prefix_dropLast hplace (by omega)) _ hwalk
          rw [hlast]
          exact hstays
      | name n =>
        have hbelow : base <+: place ++ [n] := hplace.trans (List.prefix_append place [n])
        change Downward rest at hstays
        rw [Foundation.walk] at hwalk
        cases hnode : tree (place ++ [n]) with
        | none =>
          rw [hnode] at hwalk
          cases rest with
          | nil =>
            cases hwalk
            exact hbelow
          | cons next rest => cases hwalk
        | some node =>
          rw [hnode] at hwalk
          cases node with
          | dir => exact ih hbelow (hstays.stays _) hwalk
          | link target => exact ih hplace ((h place n target hplace hnode).append hstays) hwalk
          | file data =>
            cases rest with
            | nil =>
              cases hwalk
              exact hbelow
            | cons next rest => cases hwalk

/-- The names of a path. -/
def names : List (Component Name) → List Name
  | [] => []
  | .name n :: rest => n :: names rest
  | _ :: rest => names rest

/-- A path with no link on its way leads where its names say. -/
theorem walk_plain {tree : LinkTree Name Data} {fuel : Nat} {place q : List Name}
    {parts : List (Component Name)} (hdown : Downward parts)
    (hplain : ∀ first, first <+: parts → ∀ target,
      tree (place ++ names first) ≠ some (.link target))
    (hwalk : walk tree fuel place parts = some q) : q = place ++ names parts := by
  induction fuel generalizing place parts with
  | zero =>
    cases parts with
    | nil =>
      cases hwalk
      exact (List.append_nil _).symm
    | cons part rest => cases hwalk
  | succ fuel ih =>
    cases parts with
    | nil =>
      cases hwalk
      exact (List.append_nil _).symm
    | cons part rest =>
      cases part with
      | root => exact hdown.elim
      | parent => exact hdown.elim
      | current =>
        change Downward rest at hdown
        apply ih hdown _ hwalk
        intro first hfirst
        exact hplain (.current :: first) (List.cons_prefix_cons.mpr ⟨rfl, hfirst⟩)
      | name n =>
        have hlink : ∀ target, tree (place ++ [n]) ≠ some (.link target) :=
          hplain [.name n] (List.cons_prefix_cons.mpr ⟨rfl, List.nil_prefix⟩)
        rw [walk] at hwalk
        have happend : place ++ names (.name n :: rest) = place ++ [n] ++ names rest := by
          rw [List.append_assoc]
          rfl
        rw [happend]
        have hend : (if rest.isEmpty then some (place ++ [n]) else none) = some q →
            q = place ++ [n] ++ names rest := by
          intro h
          cases rest with
          | nil =>
            cases h
            exact (List.append_nil _).symm
          | cons next rest => cases h
        cases hnode : tree (place ++ [n]) with
        | none =>
          rw [hnode] at hwalk
          exact hend hwalk
        | some node =>
          rw [hnode] at hwalk
          cases node with
          | link target => exact absurd hnode (hlink target)
          | file data => exact hend hwalk
          | dir =>
            change Downward rest at hdown
            apply ih hdown _ hwalk
            intro first hfirst target
            rw [List.append_assoc]
            exact hplain (.name n :: first) (List.cons_prefix_cons.mpr ⟨rfl, hfirst⟩) target

end Foundation
