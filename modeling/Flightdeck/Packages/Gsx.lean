import Flightdeck.Packages.Names

/-!
# The plan of a GSX update

`gsx_engine.rs` reads all packages before it changes anything.  They share the map of the paths and
the set of the files, so what one package declares is checked against the others.
-/

namespace Flightdeck.GsxEngine

open Foundation
open Installer (components isControl)
open Packages

def INVALID := "Das GSX-Engine-Paket enthält ungültige Dateien."

def MAX_ENTRIES : Nat := 8000

def MAX_TOTAL : Nat := 768 * 1024 * 1024

def MAX_FILE : Nat := 128 * 1024 * 1024

def MAX_PACKAGE : Nat := 256 * 1024 * 1024

structure Package where
  name : String
  target : String
  bytes : Nat
  sha256 : String
  entries : Nat
  unpackedBytes : Nat

/-- A file of the archive, as `zip` reads it; a name that cannot be read is `none`. -/
structure Member where
  name : Option String
  isDir : Bool
  isSymlink : Bool
  encrypted : Bool
  externalAttributes : UInt32
  unixMode : Option UInt32
  size : Nat
  /-- what it is decoded to, if its checksum is right -/
  content : Option Bytes

/-- A file that was fetched. -/
structure Source where
  length : Nat
  /-- `files::digest` -/
  digest : String
  /-- the members of the archive, if it is one -/
  archive : Option (List (Option Member))
  consistent : Bool

structure Entry where
  member : Member
  path : String
  dir : Bool

structure Plan where
  package : Package
  entries : List Entry

/-- A name that both systems read alike. -/
def validName (raw : String) : Bool :=
  Installer.relative raw && (utf8 raw).length ≤ 1024 && (components raw).length ≤ 32 &&
    (components raw).all fun part => portable part && !part.toList.any isControl

def name (raw : String) : Except Error String := do
  require (validName raw) (.invalid INVALID)
  return raw

/-- The name of a member without the slash of a directory. -/
def rawName (member : Member) : Option String :=
  member.name.bind fun name =>
    if member.isDir then
      if name.toList.getLast? = some '/' then some (String.ofList name.toList.dropLast) else none
    else some name

def unixKind (member : Member) : UInt32 := member.unixMode.getD 0 &&& 0o170000

/-- A file or a directory and nothing else, of a size that is accepted. -/
def plain (member : Member) : Bool :=
  !member.encrypted && !member.isSymlink && member.externalAttributes &&& 0x400 == 0 &&
    (unixKind member == 0 || unixKind member == if member.isDir then 0o040000 else 0o100000) &&
    member.size ≤ MAX_FILE && (!member.isDir || member.size == 0)

/-- What the packages share. -/
structure Shared where
  paths : Paths
  declaredFiles : TextSet

/-- The state of the loop over the members of one archive. -/
structure State where
  shared : Shared
  seen : TextSet
  total : Nat
  entries : List Entry

def pathOf (target relative : String) : String := target ++ "/" ++ relative

variable (lower : String → String)

/-- `dir || declared_files.insert(path)` -/
def declare (files : TextSet) (path : String) (dir : Bool) : Option TextSet :=
  if dir then some files else addNew files (path, ())

def planMember (target : String) (state : State) (row : Option Member) : Except Error State := do
  let member ← orInvalid INVALID row
  let raw ← orInvalid INVALID (rawName member)
  let relative ← name raw
  require (plain member) (.invalid INVALID)
  let seen ← orInvalid INVALID (addNew state.seen (relative, ()))
  let path := pathOf target relative
  let declaredFiles ← orInvalid INVALID (declare state.shared.declaredFiles path member.isDir)
  let paths ← orInvalid INVALID (register lower state.shared.paths path member.isDir)
  require (state.total + member.size ≤ MAX_TOTAL) (.invalid INVALID)
  return { shared := { paths, declaredFiles }, seen, total := state.total + member.size,
           entries := state.entries ++ [{ member, path, dir := member.isDir }] }

/-- What is checked before the members are read. -/
def validPackage (package : Package) (source : Source) : Bool :=
  validName package.name && validName package.target && !package.name.toList.contains '/' &&
    package.bytes ≤ MAX_PACKAGE && 0 < package.bytes && hexDigest package.sha256 &&
    source.length == package.bytes && source.digest == package.sha256

def plan (package : Package) (source : Source) (shared : Shared) :
    Except Error (Plan × Shared) := do
  require (validPackage package source) (.invalid INVALID)
  let members ← orInvalid INVALID source.archive
  require (members.length == package.entries && members.length ≤ MAX_ENTRIES) (.invalid INVALID)
  require source.consistent (.invalid INVALID)
  let state ← members.foldlM (planMember lower package.target)
    { shared, seen := ∅, total := 0, entries := [] }
  require (state.total == package.unpackedBytes && !state.entries.isEmpty) (.invalid INVALID)
  return ({ package, entries := state.entries }, state.shared)

/-- The state of the loop over the packages. -/
structure Planned where
  shared : Shared
  plans : List Plan
  total : Nat
  count : Nat

def start : Planned :=
  { shared := { paths := ∅, declaredFiles := ∅ }, plans := [], total := 0, count := 0 }

/-- One turn of the loop, for a package that was fetched. -/
def planPackage (state : Planned) (row : Package × Source) : Except Error Planned := do
  let (planned, shared) ← plan lower row.1 row.2 state.shared
  require (state.total + row.1.unpackedBytes ≤ MAX_TOTAL) (.invalid INVALID)
  require (state.count + row.1.entries ≤ MAX_ENTRIES) (.invalid INVALID)
  return { shared, plans := state.plans ++ [planned], total := state.total + row.1.unpackedBytes,
           count := state.count + row.1.entries }

/-! ## What is accepted -/

/-- The path of a member below the folder that its package is unpacked to. -/
def relative (member : Member) : String := (rawName member).getD ""

def pathIn (package : Package) (member : Member) : String :=
  pathOf package.target (relative member)

def entryOf (package : Package) (member : Member) : Entry :=
  { member, path := pathIn package member, dir := member.isDir }

def membersOf (source : Source) : List Member := (source.archive.getD []).filterMap id

/-- A member that is accepted for itself. -/
def validMember (member : Member) : Prop :=
  (∃ raw, rawName member = some raw ∧ validName raw = true) ∧ plain member = true

def sizeOf (members : List Member) : Nat := (members.map Member.size).sum

/-- The rows of the files of a package, without its directories. -/
def fileRows (package : Package) (members : List Member) : List (String × Unit) :=
  (members.filter fun member => !member.isDir).map fun member => (pathIn package member, ())

def prefixesIn (package : Package) (members : List Member) : List (String × Bool) :=
  members.flatMap fun member => prefixes member.isDir "" (components (pathIn package member))

def pathRows (package : Package) (members : List Member) : List (String × (String × Bool)) :=
  (prefixesIn package members).map fun p => (lower p.1, p)

/-- A package that is accepted for itself. -/
structure ValidPackage (package : Package) (source : Source) (members : List Member) : Prop where
  header : validPackage package source = true
  archive : source.archive = some (members.map some)
  consistent : source.consistent = true
  count : members.length = package.entries ∧ members.length ≤ MAX_ENTRIES
  filled : members ≠ []
  each : ∀ member ∈ members, validMember member
  once : (members.map relative).Nodup
  total : sizeOf members = package.unpackedBytes ∧ sizeOf members ≤ MAX_TOTAL

theorem name_eq_ok {raw found : String} :
    name raw = .ok found ↔ validName raw = true ∧ found = raw := by
  unfold name
  rw [bind_eq_ok]
  constructor
  · rintro ⟨_, valid, ended⟩
    rw [require_eq_ok] at valid
    cases ended
    exact ⟨valid, rfl⟩
  · rintro ⟨valid, rfl⟩
    exact ⟨(), require_eq_ok.mpr valid, rfl⟩

theorem fileRows_cons (package : Package) (member : Member) (members : List Member) :
    fileRows package (member :: members) =
      fileRows package [member] ++ fileRows package members := by
  unfold fileRows
  rw [← List.map_append, ← List.filter_append]
  rfl

theorem declare_eq (package : Package) (member : Member) (files : TextSet) :
    declare files (pathIn package member) member.isDir =
      (fileRows package [member]).foldlM addNew files := by
  unfold declare fileRows
  cases dir : member.isDir with
  | false =>
    rw [List.filter_cons_of_pos (by rw [dir]; rfl)]
    show addNew _ _ = (addNew _ _ >>= fun next => some next)
    cases addNew files (pathIn package member, ()) <;> rfl
  | true =>
    rw [List.filter_cons_of_neg (by rw [dir]; decide)]
    rfl

theorem planMember_eq_ok {package : Package} {state next : State} {member : Member} :
    planMember lower package.target state (some member) = .ok next ↔ validMember member ∧
      addNew state.seen (relative member, ()) = some next.seen ∧
      (fileRows package [member]).foldlM addNew state.shared.declaredFiles =
        some next.shared.declaredFiles ∧
      (pathRows lower package [member]).foldlM addAgreeing state.shared.paths =
        some next.shared.paths ∧
      next.total = state.total + member.size ∧ next.total ≤ MAX_TOTAL ∧
      next.entries = state.entries ++ [entryOf package member] := by
  have rows : pathRows lower package [member] =
      Packages.rows lower (pathIn package member) member.isDir := by
    unfold pathRows prefixesIn Packages.rows
    rw [List.flatMap_singleton]
  rw [rows, ← register_eq, ← declare_eq]
  unfold planMember
  constructor
  · intro done
    obtain ⟨_, same, done⟩ := bind_eq_ok.mp done
    rw [orInvalid_eq_ok, Option.some.injEq] at same
    rw [← same] at done
    obtain ⟨raw, read, done⟩ := bind_eq_ok.mp done
    rw [orInvalid_eq_ok] at read
    obtain ⟨_, named, done⟩ := bind_eq_ok.mp done
    obtain ⟨valid, equal⟩ := name_eq_ok.mp named
    rw [equal] at done
    obtain ⟨_, isPlain, done⟩ := bind_eq_ok.mp done
    obtain ⟨seen, new, done⟩ := bind_eq_ok.mp done
    obtain ⟨files, declared, done⟩ := bind_eq_ok.mp done
    obtain ⟨paths, registered, done⟩ := bind_eq_ok.mp done
    obtain ⟨_, bounded, done⟩ := bind_eq_ok.mp done
    rw [require_eq_ok] at isPlain bounded
    rw [orInvalid_eq_ok] at new declared registered
    have own : relative member = raw := by rw [relative, read]; rfl
    cases done
    refine ⟨⟨⟨raw, read, valid⟩, isPlain⟩, ?_, ?_, ?_, rfl, of_decide_eq_true bounded, ?_⟩
    · rw [own]
      exact new
    · rw [pathIn, own]
      exact declared
    · rw [pathIn, own]
      exact registered
    · rw [entryOf, pathIn, own]
  · rintro ⟨⟨⟨raw, read, valid⟩, isPlain⟩, new, declared, registered, sum, bounded, last⟩
    have own : relative member = raw := by rw [relative, read]; rfl
    rw [own] at new
    rw [pathIn, own] at declared registered
    rw [sum] at bounded
    apply bind_eq_ok.mpr
    refine ⟨_, orInvalid_eq_ok.mpr rfl, bind_eq_ok.mpr ⟨_, orInvalid_eq_ok.mpr read,
      bind_eq_ok.mpr ⟨_, name_eq_ok.mpr ⟨valid, rfl⟩, bind_eq_ok.mpr ⟨(),
      require_eq_ok.mpr isPlain, bind_eq_ok.mpr ⟨_, orInvalid_eq_ok.mpr new, bind_eq_ok.mpr ⟨_,
      orInvalid_eq_ok.mpr declared, bind_eq_ok.mpr ⟨_, orInvalid_eq_ok.mpr registered,
      bind_eq_ok.mpr ⟨(), require_eq_ok.mpr (decide_eq_true bounded), ?_⟩⟩⟩⟩⟩⟩⟩⟩
    rw [entryOf, pathIn, own] at last
    rw [← sum, ← last]
    rfl

theorem sizeOf_cons (member : Member) (members : List Member) :
    sizeOf (member :: members) = member.size + sizeOf members := List.sum_cons

theorem pathRows_cons (package : Package) (member : Member) (members : List Member) :
    pathRows lower package (member :: members) =
      pathRows lower package [member] ++ pathRows lower package members := by
  unfold pathRows prefixesIn
  rw [List.flatMap_cons, List.map_append, List.flatMap_singleton]

/-- The loop over the members of an archive. -/
theorem planMembers_eq_ok {package : Package} {state final : State} {list : List (Option Member)} :
    list.foldlM (planMember lower package.target) state = .ok final ↔
      ∃ members, list = members.map some ∧ (∀ member ∈ members, validMember member) ∧
        (members.map fun member => (relative member, ())).foldlM addNew state.seen =
          some final.seen ∧
        (fileRows package members).foldlM addNew state.shared.declaredFiles =
          some final.shared.declaredFiles ∧
        (pathRows lower package members).foldlM addAgreeing state.shared.paths =
          some final.shared.paths ∧
        final.total = state.total + sizeOf members ∧
        (members = [] ∨ final.total ≤ MAX_TOTAL) ∧
        final.entries = state.entries ++ members.map (entryOf package) := by
  induction list generalizing state with
  | nil =>
    constructor
    · intro same
      cases same
      exact ⟨[], rfl, nofun, rfl, rfl, rfl, rfl, .inl rfl, (List.append_nil _).symm⟩
    · rintro ⟨members, empty, _, seen, files, paths, total, _, entries⟩
      cases List.map_eq_nil_iff.mp empty.symm
      have ⟨⟨paths', files'⟩, seen', total', entries'⟩ := final
      rw [List.map_nil, List.append_nil] at entries
      cases seen
      cases files
      cases paths
      cases total
      cases entries
      rfl
  | cons row list ih =>
    rw [List.foldlM_cons, bind_eq_ok]
    constructor
    · rintro ⟨next, first, later⟩
      -- a member that cannot be read fails the plan
      cases row with
      | none => cases first
      | some member =>
        obtain ⟨valid, seen, files, paths, total, bound, entries⟩ :=
          (planMember_eq_ok lower).mp first
        obtain ⟨members, rfl, each, seen', files', paths', total', bound', entries'⟩ :=
          ih.mp later
        refine ⟨member :: members, rfl, List.forall_mem_cons.mpr ⟨valid, each⟩, ?_, ?_, ?_, ?_,
          .inr ?_, ?_⟩
        · rw [List.map_cons, List.foldlM_cons]
          exact Option.bind_eq_some_iff.mpr ⟨_, seen, seen'⟩
        · rw [fileRows_cons, List.foldlM_append]
          exact Option.bind_eq_some_iff.mpr ⟨_, files, files'⟩
        · rw [pathRows_cons, List.foldlM_append]
          exact Option.bind_eq_some_iff.mpr ⟨_, paths, paths'⟩
        · rw [sizeOf_cons, total', total, Nat.add_assoc]
        · rcases bound' with rfl | bound'
          · have none : sizeOf [] = 0 := rfl
            omega
          · exact bound'
        · rw [entries', entries, List.append_assoc, List.map_cons]
          rfl
    · rintro ⟨members, shape, each, seen, files, paths, total, bound, entries⟩
      cases members with
      | nil => cases shape
      | cons member members =>
        rw [List.map_cons, List.cons.injEq] at shape
        obtain ⟨rfl, rfl⟩ := shape
        rw [List.map_cons, List.foldlM_cons] at seen
        rw [fileRows_cons, List.foldlM_append] at files
        rw [pathRows_cons, List.foldlM_append] at paths
        rw [List.map_cons] at entries
        rw [sizeOf_cons] at total
        obtain ⟨nextSeen, seen, seen'⟩ := Option.bind_eq_some_iff.mp seen
        obtain ⟨nextFiles, files, files'⟩ := Option.bind_eq_some_iff.mp files
        obtain ⟨nextPaths, paths, paths'⟩ := Option.bind_eq_some_iff.mp paths
        obtain ⟨valid, each⟩ := List.forall_mem_cons.mp each
        -- the sum only grows, so the bound at the end holds at every turn
        have bounded : final.total ≤ MAX_TOTAL := by
          rcases bound with empty | bound
          · cases empty
          · exact bound
        refine ⟨⟨⟨nextPaths, nextFiles⟩, nextSeen, state.total + member.size,
          state.entries ++ [entryOf package member]⟩, ?_, ?_⟩
        · refine (planMember_eq_ok lower).mpr ⟨valid, seen, files, paths, rfl, ?_, rfl⟩
          show state.total + member.size ≤ _
          omega
        · refine ih.mpr ⟨members, rfl, each, seen', files', paths', ?_, .inr bounded, ?_⟩
          · show final.total = state.total + member.size + _
            omega
          · rw [entries, List.append_assoc]
            rfl

/-- A package, with what it adds to what the packages share. -/
theorem plan_eq_ok {package : Package} {source : Source} {shared next : Shared} {planned : Plan} :
    plan lower package source shared = .ok (planned, next) ↔
      ValidPackage package source (membersOf source) ∧
      (fileRows package (membersOf source)).foldlM addNew shared.declaredFiles =
        some next.declaredFiles ∧
      (pathRows lower package (membersOf source)).foldlM addAgreeing shared.paths =
        some next.paths ∧
      planned = { package, entries := (membersOf source).map (entryOf package) } := by
  have read : ∀ members : List Member, source.archive = some (members.map some) →
      membersOf source = members := by
    intro members archive
    unfold membersOf
    rw [archive]
    show (members.map some).filterMap id = members
    rw [List.filterMap_map]
    exact List.filterMap_some
  unfold plan
  constructor
  · intro done
    obtain ⟨_, header, done⟩ := bind_eq_ok.mp done
    obtain ⟨list, opened, done⟩ := bind_eq_ok.mp done
    obtain ⟨_, counted, done⟩ := bind_eq_ok.mp done
    obtain ⟨_, consistent, done⟩ := bind_eq_ok.mp done
    obtain ⟨final, folded, done⟩ := bind_eq_ok.mp done
    obtain ⟨_, ended, done⟩ := bind_eq_ok.mp done
    rw [require_eq_ok] at header counted consistent ended
    rw [orInvalid_eq_ok] at opened
    obtain ⟨members, shape, each, seen, files, paths, total, bound, entries⟩ :=
      (planMembers_eq_ok lower).mp folded
    obtain ⟨_, once, _⟩ := foldlM_addNew.mp seen
    rw [shape] at opened counted
    rw [read members opened]
    rw [Bool.and_eq_true, beq_iff_eq, decide_eq_true_eq, List.length_map] at counted
    rw [Bool.and_eq_true, beq_iff_eq, Bool.not_eq_true', List.isEmpty_eq_false_iff] at ended
    rw [Nat.zero_add] at total
    rw [List.nil_append] at entries
    rw [List.map_map] at once
    have filled : members ≠ [] := by
      rintro rfl
      exact ended.2 entries
    cases done
    refine ⟨⟨header, opened, consistent, counted, filled, each, once, ?_⟩, files, paths, ?_⟩
    · rw [← total]
      exact ⟨ended.1, bound.resolve_left filled⟩
    · rw [entries]
  · rintro ⟨valid, files, paths, rfl⟩
    have counted : (((membersOf source).map some).length == package.entries &&
        decide (((membersOf source).map some).length ≤ MAX_ENTRIES)) = true := by
      rw [List.length_map]
      simp only [Bool.and_eq_true, beq_iff_eq, decide_eq_true_eq]
      exact valid.count
    refine bind_eq_ok.mpr ⟨(), require_eq_ok.mpr valid.header, bind_eq_ok.mpr ⟨_,
      orInvalid_eq_ok.mpr valid.archive, bind_eq_ok.mpr ⟨(), require_eq_ok.mpr counted,
      bind_eq_ok.mpr ⟨(), require_eq_ok.mpr valid.consistent, bind_eq_ok.mpr ⟨⟨next,
        insertAll ∅ ((membersOf source).map fun member => (relative member, ())),
        sizeOf (membersOf source), (membersOf source).map (entryOf package)⟩, ?_,
      bind_eq_ok.mpr ⟨(), ?_, rfl⟩⟩⟩⟩⟩⟩
    · refine (planMembers_eq_ok lower).mpr ⟨membersOf source, rfl, valid.each, ?_, files, paths,
        (Nat.zero_add _).symm, .inr valid.total.2, rfl⟩
      apply foldlM_addNew.mpr
      refine ⟨by simp, ?_, rfl⟩
      rw [List.map_map]
      exact valid.once
    · rw [require_eq_ok, Bool.and_eq_true, beq_iff_eq, Bool.not_eq_true',
        List.isEmpty_eq_false_iff]
      refine ⟨valid.total.1, fun empty => valid.filled (List.map_eq_nil_iff.mp empty)⟩

/-! ## All packages -/

def allFileRows (rows : List (Package × Source)) : List (String × Unit) :=
  rows.flatMap fun row => fileRows row.1 (membersOf row.2)

def allPrefixes (rows : List (Package × Source)) : List (String × Bool) :=
  rows.flatMap fun row => prefixesIn row.1 (membersOf row.2)

def allPathRows (rows : List (Package × Source)) : List (String × (String × Bool)) :=
  rows.flatMap fun row => pathRows lower row.1 (membersOf row.2)

def allPlans (rows : List (Package × Source)) : List Plan :=
  rows.map fun row => { package := row.1, entries := (membersOf row.2).map (entryOf row.1) }

def totalOf (rows : List (Package × Source)) : Nat := (rows.map fun row => row.1.unpackedBytes).sum

def countOf (rows : List (Package × Source)) : Nat := (rows.map fun row => row.1.entries).sum

theorem planPackage_eq_ok {state next : Planned} {row : Package × Source} :
    planPackage lower state row = .ok next ↔ ValidPackage row.1 row.2 (membersOf row.2) ∧
      (fileRows row.1 (membersOf row.2)).foldlM addNew state.shared.declaredFiles =
        some next.shared.declaredFiles ∧
      (pathRows lower row.1 (membersOf row.2)).foldlM addAgreeing state.shared.paths =
        some next.shared.paths ∧
      (next.total = state.total + row.1.unpackedBytes ∧ next.total ≤ MAX_TOTAL) ∧
      (next.count = state.count + row.1.entries ∧ next.count ≤ MAX_ENTRIES) ∧
      next.plans = state.plans ++
        [{ package := row.1, entries := (membersOf row.2).map (entryOf row.1) }] := by
  unfold planPackage
  constructor
  · intro done
    obtain ⟨⟨planned, shared⟩, first, done⟩ := bind_eq_ok.mp done
    obtain ⟨_, small, done⟩ := bind_eq_ok.mp done
    obtain ⟨_, few, done⟩ := bind_eq_ok.mp done
    obtain ⟨valid, files, paths, shape⟩ := (plan_eq_ok lower).mp first
    rw [require_eq_ok, decide_eq_true_eq] at small few
    cases done
    exact ⟨valid, files, paths, ⟨rfl, small⟩, ⟨rfl, few⟩, by rw [shape]⟩
  · rintro ⟨valid, files, paths, ⟨total, small⟩, ⟨count, few⟩, plans⟩
    rw [total] at small
    rw [count] at few
    refine bind_eq_ok.mpr ⟨(_, next.shared), (plan_eq_ok lower).mpr ⟨valid, files, paths, rfl⟩,
      bind_eq_ok.mpr ⟨(), require_eq_ok.mpr (decide_eq_true small), bind_eq_ok.mpr ⟨(),
      require_eq_ok.mpr (decide_eq_true few), ?_⟩⟩⟩
    rw [← plans, ← total, ← count]
    rfl

theorem planPackages_eq_ok {state final : Planned} {rows : List (Package × Source)} :
    rows.foldlM (planPackage lower) state = .ok final ↔
      (∀ row ∈ rows, ValidPackage row.1 row.2 (membersOf row.2)) ∧
      (allFileRows rows).foldlM addNew state.shared.declaredFiles =
        some final.shared.declaredFiles ∧
      (allPathRows lower rows).foldlM addAgreeing state.shared.paths = some final.shared.paths ∧
      (final.total = state.total + totalOf rows ∧ (rows = [] ∨ final.total ≤ MAX_TOTAL)) ∧
      (final.count = state.count + countOf rows ∧ (rows = [] ∨ final.count ≤ MAX_ENTRIES)) ∧
      final.plans = state.plans ++ allPlans rows := by
  induction rows generalizing state with
  | nil =>
    constructor
    · intro same
      cases same
      exact ⟨nofun, rfl, rfl, ⟨rfl, .inl rfl⟩, ⟨rfl, .inl rfl⟩, (List.append_nil _).symm⟩
    · rintro ⟨_, files, paths, ⟨total, _⟩, ⟨count, _⟩, plans⟩
      have ⟨⟨paths', files'⟩, plans', total', count'⟩ := final
      rw [allPlans, List.map_nil, List.append_nil] at plans
      cases files
      cases paths
      cases total
      cases count
      cases plans
      rfl
  | cons row rows ih =>
    have files_cons : allFileRows (row :: rows) =
        fileRows row.1 (membersOf row.2) ++ allFileRows rows := List.flatMap_cons
    have paths_cons : allPathRows lower (row :: rows) =
        pathRows lower row.1 (membersOf row.2) ++ allPathRows lower rows := List.flatMap_cons
    have total_cons : totalOf (row :: rows) = row.1.unpackedBytes + totalOf rows := List.sum_cons
    have count_cons : countOf (row :: rows) = row.1.entries + countOf rows := List.sum_cons
    rw [List.foldlM_cons, bind_eq_ok, files_cons, paths_cons, total_cons, count_cons,
      List.foldlM_append, List.foldlM_append, List.forall_mem_cons]
    constructor
    · rintro ⟨next, first, later⟩
      obtain ⟨valid, files, paths, ⟨total, small⟩, ⟨count, few⟩, plans⟩ :=
        (planPackage_eq_ok lower).mp first
      obtain ⟨each, files', paths', ⟨total', small'⟩, ⟨count', few'⟩, plans'⟩ := ih.mp later
      refine ⟨⟨valid, each⟩, Option.bind_eq_some_iff.mpr ⟨_, files, files'⟩,
        Option.bind_eq_some_iff.mpr ⟨_, paths, paths'⟩, ⟨by omega, .inr ?_⟩,
        ⟨by omega, .inr ?_⟩, ?_⟩
      · rcases small' with rfl | small'
        · have none : totalOf [] = 0 := rfl
          omega
        · exact small'
      · rcases few' with rfl | few'
        · have none : countOf [] = 0 := rfl
          omega
        · exact few'
      · rw [plans', plans, List.append_assoc]
        rfl
    · rintro ⟨⟨valid, each⟩, files, paths, ⟨total, small⟩, ⟨count, few⟩, plans⟩
      obtain ⟨nextFiles, files, files'⟩ := Option.bind_eq_some_iff.mp files
      obtain ⟨nextPaths, paths, paths'⟩ := Option.bind_eq_some_iff.mp paths
      have small := small.resolve_left (by simp)
      have few := few.resolve_left (by simp)
      refine ⟨⟨⟨nextPaths, nextFiles⟩, _, state.total + row.1.unpackedBytes,
        state.count + row.1.entries⟩, (planPackage_eq_ok lower).mpr ⟨valid, files, paths,
          ⟨rfl, ?_⟩, ⟨rfl, ?_⟩, rfl⟩, ih.mpr ⟨each, files', paths', ⟨?_, .inr small⟩,
          ⟨?_, .inr few⟩, ?_⟩⟩
      · show state.total + _ ≤ _
        omega
      · show state.count + _ ≤ _
        omega
      · show final.total = state.total + _ + _
        omega
      · show final.count = state.count + _ + _
        omega
      · rw [plans, List.append_assoc]
        rfl

/-- The condition on all packages together. -/
structure Accepted (rows : List (Package × Source)) : Prop where
  packages : ∀ row ∈ rows, ValidPackage row.1 row.2 (membersOf row.2)
  files : ((allFileRows rows).map Prod.fst).Nodup
  consistent : Consistent lower (allPrefixes rows)
  total : totalOf rows ≤ MAX_TOTAL
  count : countOf rows ≤ MAX_ENTRIES

/-- What all packages together declare. -/
def planned (rows : List (Package × Source)) : Planned where
  shared := { paths := insertAll ∅ (allPathRows lower rows),
              declaredFiles := insertAll ∅ (allFileRows rows) }
  plans := allPlans rows
  total := totalOf rows
  count := countOf rows

theorem allPathRows_eq (rows : List (Package × Source)) :
    allPathRows lower rows = (allPrefixes rows).map fun p => (lower p.1, p) := by
  unfold allPathRows allPrefixes pathRows
  rw [List.map_flatMap]

theorem planAll_eq_ok {rows : List (Package × Source)} {final : Planned} :
    rows.foldlM (planPackage lower) start = .ok final ↔
      Accepted lower rows ∧ final = planned lower rows := by
  rw [planPackages_eq_ok, foldlM_addNew, foldlM_addAgreeing, allPathRows_eq, functional_rows]
  constructor
  · rintro ⟨each, ⟨_, files, declared⟩, ⟨_, consistent, paths⟩, ⟨total, small⟩, ⟨count, few⟩,
      plans⟩
    have total : final.total = totalOf rows := total.trans (Nat.zero_add _)
    have count : final.count = countOf rows := count.trans (Nat.zero_add _)
    constructor
    · refine ⟨each, files, consistent, ?_, ?_⟩
      · rcases small with rfl | small
        · exact Nat.zero_le _
        · rw [← total]
          exact small
      · rcases few with rfl | few
        · exact Nat.zero_le _
        · rw [← count]
          exact few
    · have shape : final = ⟨⟨final.shared.paths, final.shared.declaredFiles⟩, final.plans,
        final.total, final.count⟩ := rfl
      rw [shape, declared, paths, plans, total, count, planned, allPathRows_eq]
      rfl
  · rintro ⟨accepted, rfl⟩
    refine ⟨accepted.packages, ⟨by simp [start], accepted.files, rfl⟩,
      ⟨by simp [start], accepted.consistent, ?_⟩, ⟨(Nat.zero_add _).symm, .inr accepted.total⟩,
      ⟨(Nat.zero_add _).symm, .inr accepted.count⟩, rfl⟩
    rw [planned, allPathRows_eq]
    rfl

/-! ## The order of packages and members -/

/-- Packages that differ in the order of their members alone.  The archive is another file then, with
a digest of its own. -/
structure SamePackage (a b : Package × Source) : Prop where
  target : a.1.target = b.1.target
  entries : a.1.entries = b.1.entries
  unpackedBytes : a.1.unpackedBytes = b.1.unpackedBytes
  header : validPackage a.1 a.2 = validPackage b.1 b.2
  consistent : a.2.consistent = b.2.consistent
  archive : Option.Rel List.Perm a.2.archive b.2.archive

/-- The packages in another order, each with its members in another order. -/
def Reordered (rows rows' : List (Package × Source)) : Prop :=
  ∃ between, rows.Perm between ∧ List.Forall₂ SamePackage between rows'

theorem forall₂_flatMap_perm {α β γ : Type} {R : α → β → Prop} {f : α → List γ} {g : β → List γ}
    (same : ∀ a b, R a b → (f a).Perm (g b)) {l : List α} {l' : List β}
    (related : List.Forall₂ R l l') : (l.flatMap f).Perm (l'.flatMap g) := by
  induction related with
  | nil => exact .refl _
  | cons first _ ih => exact (same _ _ first).append ih

theorem map_some_filterMap {α : Type} {list : List (Option α)}
    (each : ∀ row ∈ list, ∃ a, row = some a) : (list.filterMap id).map some = list := by
  induction list with
  | nil => rfl
  | cons row list ih =>
    have ⟨a, shape⟩ := each row (List.mem_cons_self ..)
    rw [shape]
    show some a :: (list.filterMap id).map some = some a :: list
    rw [ih fun row there => each row (List.mem_cons_of_mem _ there)]

theorem forall₂_transfer {α β : Type} {R : α → β → Prop} {P : α → Prop} {Q : β → Prop}
    (carries : ∀ a b, R a b → P a → Q b) {l : List α} {l' : List β} (related : List.Forall₂ R l l')
    (holds : ∀ a ∈ l, P a) : ∀ b ∈ l', Q b := by
  induction related with
  | nil => exact nofun
  | cons first _ ih =>
    have ⟨head, rest⟩ := List.forall_mem_cons.mp holds
    exact List.forall_mem_cons.mpr ⟨carries _ _ first head, ih rest⟩

theorem SamePackage.members {a b : Package × Source} (same : SamePackage a b) :
    (membersOf a.2).Perm (membersOf b.2) := by
  have related := same.archive
  unfold membersOf
  generalize a.2.archive = before at related ⊢
  generalize b.2.archive = after at related ⊢
  cases related with
  | some perm => exact perm.filterMap id
  | none => exact .refl _

theorem sizeOf_perm {members members' : List Member} (perm : members.Perm members') :
    sizeOf members = sizeOf members' := by
  unfold sizeOf
  exact (perm.map _).sum_eq

theorem SamePackage.valid {a b : Package × Source} (same : SamePackage a b)
    (valid : ValidPackage a.1 a.2 (membersOf a.2)) : ValidPackage b.1 b.2 (membersOf b.2) where
  header := same.header ▸ valid.header
  archive := by
    have opened := valid.archive
    have related := same.archive
    rw [opened] at related
    cases known : b.2.archive with
    | none =>
      rw [known] at related
      cases related
    | some list =>
      rw [known] at related
      cases related with
      | some perm =>
        have each : ∀ row ∈ list, ∃ member, row = some member := by
          intro row there
          have ⟨member, _, shape⟩ := List.mem_map.mp (perm.mem_iff.mpr there)
          exact ⟨member, shape.symm⟩
        unfold membersOf
        rw [known]
        show some list = some ((list.filterMap id).map some)
        rw [map_some_filterMap each]
  consistent := same.consistent ▸ valid.consistent
  count := by
    rw [← same.members.length_eq, ← same.entries]
    exact valid.count
  filled empty := valid.filled (List.perm_nil.mp (empty ▸ same.members))
  each member there := valid.each member (same.members.mem_iff.mpr there)
  once := (same.members.map relative).nodup_iff.mp valid.once
  total := by
    rw [← sizeOf_perm same.members, ← same.unpackedBytes]
    exact valid.total

theorem SamePackage.files {a b : Package × Source} (same : SamePackage a b) :
    (fileRows a.1 (membersOf a.2)).Perm (fileRows b.1 (membersOf b.2)) := by
  have path : pathIn a.1 = pathIn b.1 := by
    unfold pathIn
    rw [same.target]
  unfold fileRows
  rw [path]
  exact (same.members.filter _).map _

theorem SamePackage.prefixes {a b : Package × Source} (same : SamePackage a b) :
    (prefixesIn a.1 (membersOf a.2)).Perm (prefixesIn b.1 (membersOf b.2)) := by
  have path : pathIn a.1 = pathIn b.1 := by
    unfold pathIn
    rw [same.target]
  unfold prefixesIn
  rw [path]
  exact same.members.flatMap_right _

variable {lower} {rows rows' : List (Package × Source)}

theorem Reordered.files (reordered : Reordered rows rows') :
    (allFileRows rows).Perm (allFileRows rows') := by
  have ⟨between, perm, same⟩ := reordered
  exact (perm.flatMap_right _).trans
    (forall₂_flatMap_perm (fun _ _ same => SamePackage.files same) same)

theorem Reordered.prefixes (reordered : Reordered rows rows') :
    (allPrefixes rows).Perm (allPrefixes rows') := by
  have ⟨between, perm, same⟩ := reordered
  exact (perm.flatMap_right _).trans
    (forall₂_flatMap_perm (fun _ _ same => SamePackage.prefixes same) same)

theorem Reordered.sums (reordered : Reordered rows rows') :
    totalOf rows = totalOf rows' ∧ countOf rows = countOf rows' := by
  have ⟨between, perm, same⟩ := reordered
  have first : totalOf rows = totalOf between ∧ countOf rows = countOf between := by
    unfold totalOf countOf
    exact ⟨(perm.map _).sum_eq, (perm.map _).sum_eq⟩
  have second : totalOf between = totalOf rows' ∧ countOf between = countOf rows' := by
    clear perm first reordered
    induction same with
    | nil => exact ⟨rfl, rfl⟩
    | cons one _ ih =>
      unfold totalOf countOf at ih ⊢
      rw [List.map_cons, List.map_cons, List.map_cons, List.map_cons, List.sum_cons,
        List.sum_cons, List.sum_cons, List.sum_cons, one.unpackedBytes, one.entries, ih.1, ih.2]
      exact ⟨rfl, rfl⟩
  exact ⟨first.1.trans second.1, first.2.trans second.2⟩

theorem Reordered.accepted (reordered : Reordered rows rows') (accepted : Accepted lower rows) :
    Accepted lower rows' where
  packages := by
    have ⟨between, perm, same⟩ := reordered
    have carried : ∀ a b, SamePackage a b → ValidPackage a.1 a.2 (membersOf a.2) →
        ValidPackage b.1 b.2 (membersOf b.2) := fun _ _ same valid => same.valid valid
    exact forall₂_transfer carried same fun row there =>
      accepted.packages row (perm.mem_iff.mpr there)
  files := (reordered.files.map Prod.fst).nodup_iff.mp accepted.files
  consistent a there b there' :=
    accepted.consistent a (reordered.prefixes.mem_iff.mpr there) b
      (reordered.prefixes.mem_iff.mpr there')
  total := reordered.sums.1 ▸ accepted.total
  count := reordered.sums.2 ▸ accepted.count

/-- The order of the packages and of their members does not matter for what they declare. -/
theorem planAll_reordered (reordered : Reordered rows rows') {final : Planned}
    (done : rows.foldlM (planPackage lower) start = .ok final) :
    ∃ final', rows'.foldlM (planPackage lower) start = .ok final' ∧
      final'.shared = final.shared ∧ final'.total = final.total ∧ final'.count = final.count := by
  have ⟨accepted, shape⟩ := (planAll_eq_ok lower).mp done
  refine ⟨planned lower rows', (planAll_eq_ok lower).mpr ⟨reordered.accepted accepted, rfl⟩, ?_⟩
  rw [shape]
  refine ⟨?_, reordered.sums.1.symm, reordered.sums.2.symm⟩
  unfold planned
  dsimp only
  rw [insertAll_perm (functional_of_nodup accepted.files) reordered.files, allPathRows_eq,
    allPathRows_eq, insertAll_perm ((functional_rows lower _).mpr accepted.consistent)
      (reordered.prefixes.map _)]

end Flightdeck.GsxEngine
