import Flightdeck.Foundation.Lossy
import Flightdeck.Graphics.Settings
import Mathlib.Data.List.DropRight

/-!
# Startup hooks

`fenix_environment.rs` takes the entries out of `DOTNET_STARTUP_HOOKS` that name no file of the
prefix.  A hook is followed below `drive_c`, on a file system that tells letters apart: at each
folder, the first entry that is spelled alike in ASCII letters is taken.
-/

namespace Flightdeck.FenixEnvironment

open Foundation
open GraphicsSettings (Text isWhitespace trim)

/-- The names below `drive_c`, outermost first. -/
abbrev Path := List Bytes

/-- What the system answers about a path. -/
inductive Answer (α : Type) where
  | found (a : α)
  | notFound
  | failed

/-- The files below `drive_c`.  An entry of a folder that could not be read is `none`. -/
structure Tree where
  readDir : Path → Answer (List (Option Bytes))
  metadata : Path → Answer Unit
  /-- A file is listed by every folder on the way to it, as far as the folder can be read. -/
  listed : ∀ path name rest, metadata (path ++ name :: rest) = .found () →
    readDir path = .failed ∨
      ∃ entries, readDir path = .found entries ∧ (some name ∈ entries ∨ none ∈ entries)

/-! ## `missing` -/

/-- `eq_ignore_ascii_case` -/
def sameLetters (a b : Text) : Bool := a.map Char.toLower == b.map Char.toLower

/-- An entry with this name is taken for this part of a hook. -/
def spells (name : Bytes) (part : Text) : Bool := sameLetters (lossyChars name) part

/-- An absolute path of the drive `C:`, without a variable. -/
def absolute (hook : Text) : Bool :=
  hook.all (fun c => c.toNat < 128) &&
    (match hook with
      | drive :: colon :: slash :: _ =>
        drive.toLower == 'c' && colon == ':' && (slash == '\\' || slash == '/')
      | _ => false) &&
    !hook.any fun c => c == '%' || c.toNat == 0 || c == '\n' || c == '\r'

def parts (hook : Text) : List Text := (hook.drop 3).splitOnP fun c => c == '\\' || c == '/'

def skipped (part : Text) : Bool := part == [] || part == ['.']

/-- A part that Windows may read as another name. -/
def ambiguous (part : Text) : Bool :=
  part == ['.', '.'] || part.getLast? == some '.' || part.getLast? == some ' ' ||
    part.any fun c => c == '*' || c == '?' || c == '<' || c == '>' || c == '|' || c == ':' ||
      c == '"'

inductive Scan where
  | unsure
  | nothing
  | taken (name : Bytes)

/-- The loop over the entries of a folder, from an entry with this number on. -/
def scan (part : Text) : Nat → List (Option Bytes) → Scan
  | _, [] => .nothing
  | count, entry :: entries =>
    if 100000 ≤ count then .unsure
    else match entry with
      | none => .unsure
      | some name => if spells name part then .taken name else scan part (count + 1) entries

def scanFolder (part : Text) (entries : List (Option Bytes)) : Scan :=
  scan part 0 (entries.take 100001)

/-- The loop over the parts of a hook: whether it ends at no file. -/
def resolve (tree : Tree) : Path → List Text → Bool
  | path, [] =>
    match tree.metadata path with
    | .notFound => true
    | _ => false
  | path, part :: rest =>
    if skipped part then resolve tree path rest
    else if ambiguous part then false
    else match tree.readDir path with
      | .notFound => true
      | .failed => false
      | .found entries =>
        match scanFolder part entries with
        | .unsure => false
        | .nothing => true
        | .taken name => resolve tree (path ++ [name]) rest

def missing (tree : Tree) (hook : Text) : Bool := absolute hook && resolve tree [] (parts hook)

/-! ## `filtered` -/

def hooks (value : Text) : List Text := value.splitOn ';'

def keeps (tree : Tree) (hook : Text) : Bool := !missing tree (trim hook)

/-- The hooks that are kept, if some are not. -/
def filtered (tree : Tree) (value : Text) : Option Text :=
  let kept := (hooks value).filter (keeps tree)
  if kept.length ≠ (hooks value).length then some ([';'].intercalate kept) else none

/-! ## Hooks without a file -/

def components (hook : Text) : List Text := (parts hook).filter fun part => !skipped part

/-- Some spelling of the parts leads to a file, or to where the file system does not tell. -/
inductive Reaches (tree : Tree) : Path → List Text → Prop
  | file {path} : tree.metadata path ≠ .notFound → Reaches tree path []
  | folder {path part rest} : tree.readDir path = .failed → Reaches tree path (part :: rest)
  | entry {path part rest entries} : tree.readDir path = .found entries → none ∈ entries →
      Reaches tree path (part :: rest)
  | through {path part rest entries name} : tree.readDir path = .found entries →
      some name ∈ entries → spells name part = true → Reaches tree (path ++ [name]) rest →
      Reaches tree path (part :: rest)

/-- An absolute hook that names no file, however its parts are spelled. -/
structure Dead (tree : Tree) (hook : Text) : Prop where
  absolute : absolute hook = true
  plain : ∀ part ∈ components hook, ambiguous part = false
  absent : ∀ names, List.Forall₂ (fun name part => spells name part = true) names
    (components hook) → tree.metadata names ≠ .found ()
  readable : ¬ Reaches tree [] (components hook)

/-- The loop ends before it has seen what keeps a hook: an ambiguous part behind one that is not
there, or another entry than the one that was taken, which leads nowhere. -/
inductive Overlooked (tree : Tree) : Path → List Text → Prop
  | behind {path part rest later} : ambiguous part = false →
      (tree.readDir path = .notFound ∨
        ∃ entries, tree.readDir path = .found entries ∧ scanFolder part entries = .nothing) →
      later ∈ rest → ambiguous later = true → Overlooked tree path (part :: rest)
  | unread {path part rest entries name} : ambiguous part = false →
      tree.readDir path = .found entries → scanFolder part entries = .taken name →
      resolve tree (path ++ [name]) rest = true → none ∈ entries →
      Overlooked tree path (part :: rest)
  | beside {path part rest entries name other} : ambiguous part = false →
      tree.readDir path = .found entries → scanFolder part entries = .taken name →
      resolve tree (path ++ [name]) rest = true → some other ∈ entries → other ≠ name →
      spells other part = true → Reaches tree (path ++ [other]) rest →
      Overlooked tree path (part :: rest)
  | deeper {path part rest entries name} : ambiguous part = false →
      tree.readDir path = .found entries → scanFolder part entries = .taken name →
      Overlooked tree (path ++ [name]) rest → Overlooked tree path (part :: rest)

variable {tree : Tree} {path : Path} {part : Text} {rest : List Text}
  {entries : List (Option Bytes)} {name : Bytes}

/-- A hook that is absolute, and of which the loop overlooks something. -/
def Mistaken (tree : Tree) (hook : Text) : Prop :=
  absolute hook = true ∧ Overlooked tree [] (components hook)

/-- `str::trim_start` -/
def trimStart (text : Text) : Text := text.dropWhile isWhitespace

theorem trim_snoc {c : Char} (blank : isWhitespace c = true) (text : Text) :
    trim (text ++ [c]) = trim text := by
  unfold trim
  induction text with
  | nil => simp [blank]
  | cons first text ih =>
    rw [List.cons_append, List.dropWhile_cons, List.dropWhile_cons]
    by_cases start : isWhitespace first = true
    · rw [if_pos start, if_pos start]
      exact ih
    · rw [if_neg start, if_neg start, List.reverse_cons, List.reverse_append]
      simp [blank]

end Flightdeck.FenixEnvironment
