import Flightdeck.Packages.Names

/-!
# The plan of an Orbx archive

`orbx/archive.rs` checks every entry of a 7z archive before anything is extracted.
-/

namespace Flightdeck.OrbxArchive

open Foundation
open Installer (components isControl)
open Packages

def INVALID := "Das Orbx-Programmpaket enthält ungültige Dateien."

def MAX_TOTAL : Nat := 2 * 1024 * 1024 * 1024

def MAX_FILE : Nat := 512 * 1024 * 1024

def MAX_ENTRIES : Nat := 12000

/-- `sevenz_rust2::ArchiveEntry`, as far as it is read. -/
structure ArchiveEntry where
  name : String
  windowsAttributes : UInt32
  isAntiItem : Bool
  isDirectory : Bool
  hasStream : Bool
  size : UInt64
  deriving DecidableEq

/-- `raw.replace('\\', "/")` -/
def slashed (raw : String) : String :=
  String.ofList (raw.toList.map fun c => if c = '\\' then '/' else c)

/-- A name that both systems read alike. -/
def validName (name : String) : Bool :=
  name ≠ "" && (utf8 name).length ≤ 2048 && name.toList.head? ≠ some '/' &&
    !name.toList.any isControl && (components name).length ≤ 32 &&
    (components name).all fun part =>
      part ≠ "" && part ≠ "." && part ≠ ".." && portable part

def name (raw : String) : Except Error String := do
  require (validName (slashed raw)) (.invalid INVALID)
  return slashed raw

/-- The type of file in the upper half of the attributes, where a Unix archiver left one. -/
def unixKind (attributes : UInt32) : UInt32 := (attributes >>> 16) &&& 0o170000

/-- A file or a directory and nothing else, of a size that is accepted. -/
def plain (entry : ArchiveEntry) : Bool :=
  !entry.isAntiItem && entry.windowsAttributes &&& 0x400 == 0 &&
    (unixKind entry.windowsAttributes == 0 ||
      unixKind entry.windowsAttributes == if entry.isDirectory then 0o040000 else 0o100000) &&
    entry.size.toNat ≤ MAX_FILE && (!entry.isDirectory || entry.size == 0) &&
    (entry.hasStream || entry.size == 0)

abbrev Entries := TextMap (Bool × Nat)

structure State where
  paths : Paths
  actual : Entries
  total : Nat

variable (lower : String → String)

/-- One turn of the loop.  A sum beyond 64 bits is beyond the limit as well. -/
def planEntry (state : State) (entry : ArchiveEntry) : Except Error State := do
  let path ← name entry.name
  require (plain entry) (.invalid INVALID)
  let actual ← orInvalid INVALID
    (addNew state.actual (path, (entry.isDirectory, entry.size.toNat)))
  let paths ← orInvalid INVALID (register lower state.paths path entry.isDirectory)
  require (state.total + entry.size.toNat ≤ MAX_TOTAL) (.invalid INVALID)
  return { paths, actual, total := state.total + entry.size.toNat }

def plan (entries : List ArchiveEntry) : Except Error (Entries × Nat) := do
  require (!entries.isEmpty && entries.length ≤ MAX_ENTRIES) (.invalid INVALID)
  let state ← entries.foldlM (planEntry lower) { paths := ∅, actual := ∅, total := 0 }
  return (state.actual, state.total)

/-! ## What is accepted -/

/-- The path of an entry. -/
def path (entry : ArchiveEntry) : String := slashed entry.name

def fileRow (entry : ArchiveEntry) : String × (Bool × Nat) :=
  (path entry, (entry.isDirectory, entry.size.toNat))

def totalSize (entries : List ArchiveEntry) : Nat := (entries.map fun e => e.size.toNat).sum

/-- The prefixes of the paths of all entries. -/
def allPrefixes (entries : List ArchiveEntry) : List (String × Bool) :=
  entries.flatMap fun entry => prefixes entry.isDirectory "" (components (path entry))

/-- The condition on the archive as a whole. -/
structure Accepted (entries : List ArchiveEntry) : Prop where
  count : entries ≠ [] ∧ entries.length ≤ MAX_ENTRIES
  named : ∀ entry ∈ entries, validName (path entry) = true
  plain : ∀ entry ∈ entries, plain entry = true
  once : (entries.map path).Nodup
  consistent : Consistent lower (allPrefixes entries)
  total : totalSize entries ≤ MAX_TOTAL

theorem name_eq_ok {raw found : String} :
    name raw = .ok found ↔ validName (slashed raw) = true ∧ found = slashed raw := by
  unfold name
  rw [bind_eq_ok]
  constructor
  · rintro ⟨_, valid, ended⟩
    rw [require_eq_ok] at valid
    cases ended
    exact ⟨valid, rfl⟩
  · rintro ⟨valid, rfl⟩
    exact ⟨(), require_eq_ok.mpr valid, rfl⟩

theorem planEntry_eq_ok {state next : State} {entry : ArchiveEntry} :
    planEntry lower state entry = .ok next ↔
      (validName (path entry) = true ∧ plain entry = true) ∧
      addNew state.actual (fileRow entry) = some next.actual ∧
      (Packages.rows lower (path entry) entry.isDirectory).foldlM addAgreeing state.paths =
        some next.paths ∧
      next.total = state.total + entry.size.toNat ∧ next.total ≤ MAX_TOTAL := by
  unfold planEntry
  constructor
  · intro done
    obtain ⟨_, named, done⟩ := bind_eq_ok.mp done
    obtain ⟨valid, rfl⟩ := name_eq_ok.mp named
    obtain ⟨_, isPlain, done⟩ := bind_eq_ok.mp done
    obtain ⟨actual, added, done⟩ := bind_eq_ok.mp done
    obtain ⟨paths, registered, done⟩ := bind_eq_ok.mp done
    obtain ⟨_, bounded, done⟩ := bind_eq_ok.mp done
    rw [require_eq_ok] at isPlain bounded
    rw [orInvalid_eq_ok] at added registered
    rw [register_eq] at registered
    cases done
    exact ⟨⟨valid, isPlain⟩, added, registered, rfl, of_decide_eq_true bounded⟩
  · rintro ⟨⟨valid, isPlain⟩, added, registered, sum, bounded⟩
    rw [← register_eq] at registered
    rw [sum] at bounded
    apply bind_eq_ok.mpr
    refine ⟨_, name_eq_ok.mpr ⟨valid, rfl⟩, bind_eq_ok.mpr ⟨(), require_eq_ok.mpr isPlain,
      bind_eq_ok.mpr ⟨_, orInvalid_eq_ok.mpr added, bind_eq_ok.mpr ⟨_,
      orInvalid_eq_ok.mpr registered, bind_eq_ok.mpr ⟨(),
      require_eq_ok.mpr (decide_eq_true bounded), ?_⟩⟩⟩⟩⟩
    rw [← sum]
    rfl

/-- The loop: each entry for itself, the rows of all entries in the two maps, and the sum. -/
theorem planEntries_eq_ok {state final : State} {entries : List ArchiveEntry} :
    entries.foldlM (planEntry lower) state = .ok final ↔
      (∀ entry ∈ entries, validName (path entry) = true ∧ plain entry = true) ∧
      (entries.map fileRow).foldlM addNew state.actual = some final.actual ∧
      (entries.flatMap fun entry => Packages.rows lower (path entry) entry.isDirectory).foldlM
        addAgreeing state.paths = some final.paths ∧
      final.total = state.total + totalSize entries ∧ (entries = [] ∨ final.total ≤ MAX_TOTAL) := by
  induction entries generalizing state with
  | nil =>
    constructor
    · intro same
      cases same
      exact ⟨nofun, rfl, rfl, rfl, .inl rfl⟩
    · rintro ⟨_, actual, paths, total, _⟩
      have ⟨paths', actual', total'⟩ := final
      cases actual
      cases paths
      cases total
      rfl
  | cons entry entries ih =>
    rw [List.foldlM_cons, bind_eq_ok, List.map_cons, List.flatMap_cons, List.foldlM_cons,
      List.foldlM_append, List.forall_mem_cons]
    have sum : totalSize (entry :: entries) = entry.size.toNat + totalSize entries :=
      List.sum_cons
    rw [sum]
    constructor
    · rintro ⟨next, first, later⟩
      obtain ⟨valid, added, registered, total, bounded⟩ := (planEntry_eq_ok lower).mp first
      obtain ⟨each, actual, paths, last, bound⟩ := ih.mp later
      refine ⟨⟨valid, each⟩, Option.bind_eq_some_iff.mpr ⟨_, added, actual⟩,
        Option.bind_eq_some_iff.mpr ⟨_, registered, paths⟩, by omega, .inr ?_⟩
      rcases bound with rfl | bound
      · have none : totalSize [] = 0 := rfl
        omega
      · exact bound
    · rintro ⟨⟨valid, each⟩, actual, paths, total, bound⟩
      obtain ⟨nextActual, added, actual⟩ := Option.bind_eq_some_iff.mp actual
      obtain ⟨nextPaths, registered, paths⟩ := Option.bind_eq_some_iff.mp paths
      have bounded : final.total ≤ MAX_TOTAL := by
        rcases bound with empty | bound
        · cases empty
        · exact bound
      refine ⟨⟨nextPaths, nextActual, state.total + entry.size.toNat⟩, ?_, ?_⟩
      · exact (planEntry_eq_ok lower).mpr ⟨valid, added, registered, rfl, by
          show state.total + entry.size.toNat ≤ _
          omega⟩
      · refine ih.mpr ⟨each, actual, paths, ?_, .inr bounded⟩
        show final.total = state.total + entry.size.toNat + _
        omega

/-- Planning succeeds exactly on the archives that are accepted as a whole, with every entry in the
map and the sum of the sizes. -/
theorem plan_eq_ok {entries : List ArchiveEntry} {actual : Entries} {total : Nat} :
    plan lower entries = .ok (actual, total) ↔ Accepted lower entries ∧
      actual = insertAll ∅ (entries.map fileRow) ∧ total = totalSize entries := by
  have keys : (entries.map fileRow).map Prod.fst = entries.map path := by
    rw [List.map_map]
    rfl
  have all : (entries.flatMap fun entry =>
      Packages.rows lower (path entry) entry.isDirectory) =
      (allPrefixes entries).map fun p => (lower p.1, p) := by
    rw [allPrefixes, List.map_flatMap]
    rfl
  unfold plan
  rw [bind_eq_ok]
  constructor
  · rintro ⟨_, counted, done⟩
    obtain ⟨final, folded, ended⟩ := bind_eq_ok.mp done
    obtain ⟨each, added, registered, sum, bound⟩ := (planEntries_eq_ok lower).mp folded
    rw [require_eq_ok, Bool.and_eq_true, Bool.not_eq_true', List.isEmpty_eq_false_iff,
      decide_eq_true_eq] at counted
    obtain ⟨_, nodup, whole⟩ := foldlM_addNew.mp added
    rw [all] at registered
    obtain ⟨_, functional, _⟩ := foldlM_addAgreeing.mp registered
    have bounded := bound.resolve_left counted.1
    rw [keys] at nodup
    rw [Nat.zero_add] at sum
    cases ended
    refine ⟨⟨counted, fun e there => (each e there).1, fun e there => (each e there).2, nodup,
      (functional_rows lower _).mp functional, ?_⟩, whole, sum⟩
    rw [← sum]
    exact bounded
  · rintro ⟨accepted, rfl, rfl⟩
    refine ⟨(), ?_, bind_eq_ok.mpr ⟨⟨insertAll ∅ ((allPrefixes entries).map fun p => (lower p.1, p)),
      insertAll ∅ (entries.map fileRow), totalSize entries⟩, ?_, rfl⟩⟩
    · rw [require_eq_ok, Bool.and_eq_true, Bool.not_eq_true', List.isEmpty_eq_false_iff,
        decide_eq_true_eq]
      exact accepted.count
    · apply (planEntries_eq_ok lower).mpr
      refine ⟨fun e there => ⟨accepted.named e there, accepted.plain e there⟩, ?_, ?_,
        (Nat.zero_add _).symm, .inr accepted.total⟩
      · apply foldlM_addNew.mpr
        refine ⟨by simp, ?_, rfl⟩
        rw [keys]
        exact accepted.once
      · rw [all]
        apply foldlM_addAgreeing.mpr
        exact ⟨by simp, (functional_rows lower _).mpr accepted.consistent, rfl⟩

/-! ## The order of the entries -/

variable {lower}

theorem totalSize_perm {entries entries' : List ArchiveEntry} (perm : entries.Perm entries') :
    totalSize entries = totalSize entries' := by
  unfold totalSize
  exact (perm.map _).sum_eq

theorem Accepted.perm {entries entries' : List ArchiveEntry} (accepted : Accepted lower entries)
    (perm : entries.Perm entries') : Accepted lower entries' where
  count := by
    have ⟨filled, short⟩ := accepted.count
    exact ⟨fun empty => filled (List.perm_nil.mp (empty ▸ perm)), perm.length_eq ▸ short⟩
  named entry there := accepted.named entry (perm.mem_iff.mpr there)
  plain entry there := accepted.plain entry (perm.mem_iff.mpr there)
  once := (perm.map path).nodup_iff.mp accepted.once
  consistent a there b there' := by
    have same : ∀ p, p ∈ allPrefixes entries ↔ p ∈ allPrefixes entries' := fun p =>
      (perm.flatMap_right _).mem_iff
    exact accepted.consistent a ((same a).mpr there) b ((same b).mpr there')
  total := totalSize_perm perm ▸ accepted.total

/-- Whatever is refused is refused with one error. -/
theorem plan_error (entries : List ArchiveEntry) :
    Outcome (plan lower entries) (fun _ => True) (· = .invalid INVALID) := by
  have checked : ∀ condition, Outcome (require condition (Error.invalid INVALID)) (fun _ => True)
      (· = .invalid INVALID) := by
    intro condition
    cases condition
    · rfl
    · trivial
  have found : ∀ {α : Type} (x : Option α), Outcome (orInvalid INVALID x) (fun _ => True)
      (· = .invalid INVALID) := by
    intro α x
    cases x
    · rfl
    · trivial
  have step : ∀ state entry, True → Outcome (planEntry lower state entry) (fun _ => True)
      (· = .invalid INVALID) := by
    intro state entry _
    apply Outcome.bind (Q := fun _ => True)
    · exact (checked _).bind fun _ _ => trivial
    · intro path _
      apply (checked _).bind
      intro _ _
      apply (found _).bind
      intro actual _
      apply (found _).bind
      intro paths _
      exact (checked _).bind fun _ _ => trivial
  apply (checked _).bind
  intro _ _
  exact (Outcome.foldlM step entries trivial).bind fun _ _ => trivial

/-- The order of the entries does not matter. -/
theorem plan_perm {entries entries' : List ArchiveEntry} (perm : entries.Perm entries') :
    plan lower entries = plan lower entries' := by
  have moved : ∀ {a b : List ArchiveEntry}, a.Perm b → ∀ {result},
      plan lower a = .ok result → plan lower b = .ok result := by
    intro a b perm result done
    have ⟨actual, total⟩ := result
    obtain ⟨accepted, rfl, rfl⟩ := (plan_eq_ok lower).mp done
    have keys : ((a.map fileRow).map Prod.fst).Nodup := by
      rw [List.map_map]
      exact accepted.once
    exact (plan_eq_ok lower).mpr ⟨accepted.perm perm,
      insertAll_perm (functional_of_nodup keys) (perm.map fileRow),
      totalSize_perm perm⟩
  have failed := @plan_error lower entries
  have failed' := @plan_error lower entries'
  cases done : plan lower entries with
  | ok result => rw [moved perm done]
  | error e =>
    cases done' : plan lower entries' with
    | ok result =>
      rw [moved perm.symm done'] at done
      cases done
    | error e' =>
      rw [done] at failed
      rw [done'] at failed'
      have first : e = .invalid INVALID := failed
      have second : e' = .invalid INVALID := failed'
      rw [first, second]

end Flightdeck.OrbxArchive
