import Flightdeck.Packages.Orbx
import Flightdeck.Packages.Overlay

/-!
# What the installer leaves behind

Until the overlay only the work folder changes, and it grows.  The overlay puts what was decoded
into the folder of the manager.
-/

namespace Flightdeck.GsxEngine

open Foundation
open Installer (components)
open Packages

variable {α β : Type} {P E : Tree → Prop} {Q : α → Tree → Prop} {faults : Nat → Fault}
  {t t' origin : Tree} {root place : Place} {setup : Setup}

/-! ## Single files -/

theorem createFile_spec (closed : Closed root E) (below : root <+: place) (fine : E t) :
    On (· = t) (createFile faults place)
      (fun _ t' => t place = none ∧ t' = Function.update t place (some (.file true 1 []))) E := by
  apply On.act
  · apply On.read
    rintro disk rfl
    cases here : disk.tree place with
    | none =>
      apply On.edit
      intro _ same
      refine ⟨rfl, ?_⟩
      show Function.update _ place _ = _
      rw [same]
    | some node => exact On.throw fun _ same => same ▸ fine
  · exact fun _ same => same ▸ fine
  · rintro _ _ ⟨_, rfl⟩
    exact closed _ _ _ fine below

theorem writeFile_spec (closed : Closed root E) (below : root <+: place) (bytes : Bytes)
    (fine : E t) :
    On (· = t) (writeFile faults place bytes)
      (fun _ t' => t' = Function.update t place (some (.file true 1 bytes))) E := by
  apply On.act
  · apply On.edit
    intro _ same
    show Function.update _ place _ = _
    rw [same]
  · exact fun _ same => same ▸ fine
  · rintro _ _ rfl
    exact closed _ _ _ fine below

/-! ## The work folder -/

/-- Nothing that was there is changed. -/
def Kept (t t' : Tree) : Prop := ∀ place, t place ≠ none → t' place = t place

theorem Kept.refl (t : Tree) : Kept t t := fun _ _ => rfl

theorem Kept.trans {t'' : Tree} (first : Kept t t') (second : Kept t' t'') : Kept t t'' := by
  intro place taken
  have still := first place taken
  rw [second place (still ▸ taken), still]

theorem kept_withFolders (t : Tree) (places : List Place) : Kept t (withFolders t places) := by
  intro place taken
  apply if_neg
  rintro ⟨_, free⟩
  exact taken (Option.isNone_iff_eq_none.mp free)

theorem kept_update (node : Option Node) (free : t place = none) :
    Kept t (Function.update t place node) := by
  intro other taken
  apply Function.update_of_ne
  rintro rfl
  exact taken free

/-- The trees agree outside the folder. -/
def Outside (root : Place) (origin t : Tree) : Prop :=
  ∀ place, ¬root <+: place → t place = origin place

theorem closed_outside (root : Place) (origin : Tree) : Closed root (Outside root origin) := by
  intro t place node same below other outside
  rw [← same other outside]
  apply Function.update_of_ne
  rintro rfl
  exact outside below

/-- The bytes that a file of the plan is decoded to. -/
def bytesOf (entry : Entry) : Bytes := (decoded entry).toOption.getD []

/-- The file of an entry was decoded and lies below the folder. -/
def Holds (root : Place) (t : Tree) (entry : Entry) : Prop :=
  decoded entry = .ok (bytesOf entry) ∧
    t (root ++ components entry.path) = some (.file true 1 (bytesOf entry))

theorem Holds.kept {entry : Entry} (holds : Holds root t entry) (kept : Kept t t') :
    Holds root t' entry := by
  refine ⟨holds.1, ?_⟩
  rw [kept _ (by rw [holds.2]; nofun), holds.2]

theorem extractFile_spec (entry : Entry) (fine : Outside setup.work origin t) :
    On (· = t) (extractFile faults setup entry)
      (fun _ t' => Outside setup.work origin t' ∧ Kept t t' ∧ Holds setup.work t' entry)
      (Outside setup.work origin) := by
  have closed := closed_outside setup.work origin
  apply On.bind (parent_spec closed entry.path fine)
  intro folder
  apply On.at
  rintro _ ⟨rfl, rfl, fine⟩
  rw [folder_leaf]
  have below : setup.work <+: setup.work ++ components entry.path := List.prefix_append _ _
  apply On.bind (createFile_spec closed below fine)
  intro _
  apply On.at
  rintro _ ⟨free, rfl⟩
  have created := closed _ _ (some (.file true 1 [])) fine below
  apply On.bind (Q := fun bytes t' => t' = _ ∧ decoded entry = .ok bytes)
  · exact On.check (fun _ _ same found => ⟨same, found⟩) fun _ same => same ▸ created
  · intro bytes
    apply On.at
    rintro _ ⟨rfl, found⟩
    apply On.bind (writeFile_spec closed below bytes created)
    intro _
    apply On.at
    rintro _ rfl
    have written := closed _ _ (some (.file true 1 bytes)) created below
    apply (look_spec fun _ same => same ▸ written).post
    rintro _ _ rfl
    refine ⟨written, ?_, ?_⟩
    · rw [Function.update_idem]
      exact (kept_withFolders _ _).trans (kept_update _ free)
    · have same : bytesOf entry = bytes := by
        rw [bytesOf, found]
        rfl
      rw [Holds, same, Function.update_self]
      exact ⟨found, rfl⟩

theorem extractEntry_spec (entry : Entry) (fine : Outside setup.work origin t) :
    On (· = t) (extractEntry faults setup entry)
      (fun _ t' => Outside setup.work origin t' ∧ Kept t t' ∧
        (entry.dir = false → Holds setup.work t' entry)) (Outside setup.work origin) := by
  apply On.bind (look_spec fun _ same => same ▸ fine)
  intro _
  cases dir : entry.dir with
  | false =>
    apply (extractFile_spec entry fine).post
    exact fun _ _ ⟨outside, kept, holds⟩ => ⟨outside, kept, fun _ => holds⟩
  | true =>
    apply On.bind (checkName_spec _ fun _ same => same ▸ fine)
    intro _
    apply On.at
    rintro _ ⟨rfl, _⟩
    apply On.bind (directory_spec (closed_outside _ _) _ fine)
    intro _
    apply On.pure
    rintro _ ⟨_, rfl, outside⟩
    exact ⟨outside, kept_withFolders _ _, nofun⟩

/-- A loop that makes something hold for each row and changes nothing that was there. -/
theorem On.grows {ρ : Type} {body : ρ → M Unit} {H : ρ → Tree → Prop}
    (each : ∀ row t, E t → On (· = t) (body row) (fun _ t' => E t' ∧ Kept t t' ∧ H row t') E)
    (stable : ∀ row t t', H row t → Kept t t' → H row t') (rows : List ρ) (fine : E t) :
    On (· = t) (rows.forM body)
      (fun _ t' => E t' ∧ Kept t t' ∧ ∀ row ∈ rows, H row t') E := by
  induction rows generalizing t with
  | nil =>
    apply On.pure
    rintro _ rfl
    exact ⟨fine, Kept.refl _, nofun⟩
  | cons row rows ih =>
    apply On.bind (each row t fine)
    intro _
    apply On.at
    rintro t₁ ⟨fine, kept, first⟩
    apply (ih fine).post
    rintro _ t₂ ⟨fine, kept', rest⟩
    exact ⟨fine, kept.trans kept', List.forall_mem_cons.mpr ⟨stable _ _ _ first kept', rest⟩⟩

/-- A loop that only looks. -/
theorem On.unchanged {ρ : Type} {body : ρ → M Unit}
    (each : ∀ row, On (· = t) (body row) (fun _ t' => t' = t) E) (rows : List ρ) :
    On (· = t) (rows.forM body) (fun _ t' => t' = t) E := by
  induction rows with
  | nil => exact On.pure fun _ same => same
  | cons row rows ih => exact On.bind (each row) fun _ => ih

/-- The files of a plan lie in the folder. -/
def Unpacked (root : Place) (planned : Plan) (t : Tree) : Prop :=
  ∀ entry ∈ planned.entries, entry.dir = false → Holds root t entry

theorem extractPlan_spec (planned : Plan) (fine : Outside setup.work origin t) :
    On (· = t) (extractPlan faults setup planned)
      (fun _ t' => Outside setup.work origin t' ∧ Kept t t' ∧ Unpacked setup.work planned t')
      (Outside setup.work origin) := by
  let H : Entry → Tree → Prop := fun entry t => entry.dir = false → Holds setup.work t entry
  have each : ∀ entry t, Outside setup.work origin t →
      On (· = t) (extractEntry faults setup entry)
        (fun _ t' => Outside setup.work origin t' ∧ Kept t t' ∧ H entry t')
        (Outside setup.work origin) :=
    fun entry _ fine => extractEntry_spec entry fine
  have stable : ∀ entry t t', H entry t → Kept t t' → H entry t' :=
    fun _ _ _ holds kept file => (holds file).kept kept
  apply On.bind (On.grows each stable planned.entries fine)
  intro _
  apply On.at
  rintro _ ⟨outside, kept, all⟩
  apply (look_spec fun _ same => same ▸ outside).post
  rintro _ _ rfl
  exact ⟨outside, kept, all⟩

theorem checkPath_spec (dir : Bool) {current : Place} (parts : List String) (fine : E t) :
    On (· = t) (checkPath faults dir current parts) (fun _ t' => t' = t) E := by
  induction parts generalizing current with
  | nil => exact On.pure fun _ same => same
  | cons part rest ih =>
    apply On.bind (look_spec fun _ same => same ▸ fine)
    intro _
    apply On.read
    rintro disk rfl
    cases disk.tree (current ++ [part]) with
    | none => exact On.pure fun _ same => same
    | some node =>
      apply On.bind (openAt_spec _ _ fine)
      intro _
      apply On.at
      rintro _ ⟨rfl, _⟩
      exact ih

/-- The packages were fetched and planned one after the other. -/
theorem planAll_spec {state : Planned} (packages : List Package) (fine : E t) :
    On (· = t) (planAll faults setup state packages)
      (fun final t' => t' = t ∧ ∃ rows : List (Package × Source), rows.map Prod.fst = packages ∧
        (∀ row ∈ rows, setup.fetch row.1 = .ok row.2) ∧
        rows.foldlM (planPackage setup.lower) state = .ok final) E := by
  induction packages generalizing state with
  | nil =>
    apply On.pure
    intro _ same
    exact ⟨same, [], rfl, nofun, rfl⟩
  | cons package packages ih =>
    apply On.bind (look_spec fun _ same => same ▸ fine)
    intro _
    apply On.bind (Q := fun source t' => t' = t ∧ setup.fetch package = .ok source)
    · apply On.act
      · exact On.check (fun _ _ same found => ⟨same, found⟩) fun _ same => same ▸ fine
      · exact fun _ same => same ▸ fine
      · exact fun _ _ holds => holds.1 ▸ fine
    · intro source
      apply On.at
      rintro _ ⟨rfl, fetched⟩
      apply On.bind (look_spec fun _ same => same ▸ fine)
      intro _
      apply On.bind (Q := fun next t' => t' = _ ∧
        planPackage setup.lower state (package, source) = .ok next)
      · exact On.check (fun _ _ same found => ⟨same, found⟩) fun _ same => same ▸ fine
      · intro next
        apply On.at
        rintro _ ⟨rfl, planned⟩
        apply ih.post
        rintro final _ ⟨same, rows, names, all, folded⟩
        refine ⟨same, (package, source) :: rows, by rw [List.map_cons, names],
          List.forall_mem_cons.mpr ⟨fetched, all⟩, ?_⟩
        rw [List.foldlM_cons, planned]
        exact folded

theorem createFolder_spec (fine : Outside setup.work origin t) :
    On (· = t) (stage.createFolder faults setup)
      (fun _ t' => Outside setup.work origin t') (Outside setup.work origin) := by
  have made := closed_outside setup.work origin t setup.work (some (.folder true)) fine
    List.prefix_rfl
  apply On.act
  · apply On.read
    rintro disk rfl
    cases here : disk.tree setup.work with
    | none =>
      apply On.edit
      intro _ same
      show Outside _ _ (Function.update _ _ _)
      rw [same]
      exact made
    | some node => exact On.throw fun _ same => same ▸ fine
  · exact fun _ same => same ▸ fine
  · exact fun _ _ holds => holds

/-- What the files of the packages are, once everything is decoded. -/
structure Staged (setup : Setup) (packages : List Package) (files : List Entry)
    (rows : List (Package × Source)) : Prop where
  names : rows.map Prod.fst = packages
  number : packages ≠ [] ∧ packages.length ≤ 7
  fetched : ∀ row ∈ rows, setup.fetch row.1 = .ok row.2
  accepted : Accepted setup.lower rows
  files : files = copied (allPlans rows)

/-- Before the overlay nothing changes outside the work folder, whether that succeeds or not. -/
theorem stage_spec (packages : List Package) :
    On (· = origin) (stage faults setup packages)
      (fun files t' => Outside setup.work origin t' ∧
        (∃ rows, Staged setup packages files rows) ∧ ∀ entry ∈ files, Holds setup.work t' entry)
      (Outside setup.work origin) := by
  have same : Outside setup.work origin origin := fun _ _ => rfl
  apply On.bind (look_spec fun _ here => here ▸ same)
  intro _
  apply On.bind (openAt_spec true setup.manager same)
  intro _
  apply On.at
  rintro origin ⟨rfl, _⟩
  apply On.read
  rintro disk rfl
  apply On.bind (Q := fun _ t' => t' = disk.tree ∧ packages ≠ [] ∧ packages.length ≤ 7)
  · apply On.check
    · intro _ t' there counted
      rw [require_eq_ok, Bool.and_eq_true, Bool.and_eq_true, Bool.not_eq_true',
        List.isEmpty_eq_false_iff, decide_eq_true_eq] at counted
      exact ⟨there, counted.1.2, counted.2⟩
    · exact fun _ there => there ▸ same
  intro _
  apply On.at
  rintro _ ⟨rfl, number⟩
  apply On.bind (planAll_spec packages same)
  intro final
  apply On.at
  rintro _ ⟨rfl, rows, names, fetched, folded⟩
  obtain ⟨accepted, rfl⟩ := (planAll_eq_ok setup.lower).mp folded
  apply On.bind (On.unchanged (fun _ => checkPath_spec _ _ same) _)
  intro _
  apply On.bind (look_spec fun _ here => here ▸ same)
  intro _
  apply On.bind (openAt_spec true _ same)
  intro _
  apply On.at
  rintro _ ⟨rfl, _⟩
  apply On.bind (createFolder_spec same)
  intro _
  apply On.at
  intro t fine
  apply On.bind (openAt_spec true _ fine)
  intro _
  apply On.at
  rintro _ ⟨rfl, _⟩
  have each : ∀ planned t, Outside setup.work disk.tree t →
      On (· = t) (extractPlan faults setup planned)
        (fun _ t' => Outside setup.work disk.tree t' ∧ Kept t t' ∧ Unpacked setup.work planned t')
        (Outside setup.work disk.tree) := fun planned _ fine => extractPlan_spec planned fine
  have stable : ∀ planned t t', Unpacked setup.work planned t → Kept t t' →
      Unpacked setup.work planned t' :=
    fun _ _ _ all kept entry there file => (all entry there file).kept kept
  apply On.bind (On.grows each stable _ fine)
  intro _
  apply On.pure
  rintro t' ⟨outside, _, all⟩
  refine ⟨outside, ⟨rows, names, number, fetched, accepted, rfl⟩, ?_⟩
  intro entry there
  obtain ⟨planned, inPlans, there⟩ := List.mem_flatMap.mp there
  obtain ⟨inPlan, file⟩ := List.mem_filter.mp there
  exact all planned inPlans entry inPlan (by simpa using file)

/-! ## The overlay -/

def fileAt (root : Place) (entry : Entry) : Place := root ++ components entry.path

/-- The folders on the way to the file. -/
def wayTo (root : Place) (entry : Entry) : List Place :=
  folderPlaces root (components entry.path).dropLast

/-- The tree with the file of an entry over what was there. -/
def layOver (manager : Place) (t : Tree) (entry : Entry) : Tree :=
  Function.update (withFolders t (wayTo manager entry)) (fileAt manager entry)
    (some (.file true 1 (bytesOf entry)))

theorem beneath_spec (entry : Entry) (holds : Holds setup.work t entry) (fine : E t) :
    On (· = t) (beneath faults setup entry.path)
      (fun bytes t' => t' = t ∧ bytes = bytesOf entry) E := by
  apply On.bind (Q := fun _ t' => t' = t)
  · exact On.check (fun _ _ same _ => same) fun _ same => same ▸ fine
  intro _
  apply On.bind (follow_spec _ fine)
  intro folder
  apply On.at
  rintro _ ⟨rfl, rfl⟩
  rw [folder_leaf]
  apply On.act
  · apply On.read
    rintro disk rfl
    apply On.check
    · intro bytes t' same found
      rw [orInvalid_eq_ok, holds.2] at found
      exact ⟨same, (Option.some.inj found).symm⟩
    · exact fun _ same => same ▸ fine
  · exact fun _ same => same ▸ fine
  · exact fun _ _ same => same.1 ▸ fine

theorem On.outcome {F : Tree → Prop} {m : M α} {Q : Except Error α → Tree → Prop}
    (inner : On P m (fun a => Q (.ok a)) F) (failed : ∀ e t, F t → Q (.error e) t)
    (crashed : ∀ t, F t → E t) : On P (Foundation.outcome m) Q E := by
  intro disk here
  have ended := inner disk here
  unfold Foundation.outcome
  cases done : m disk with
  | ok a after =>
    rw [done] at ended
    exact ended
  | error stop after =>
    rw [done] at ended
    cases stop with
    | error e => exact failed e _ ended
    | crash => exact crashed _ ended

theorem On.weaken {F : Tree → Prop} {m : M α} (spec : On P m Q E) (weaker : ∀ t, E t → F t) :
    On P m Q F :=
  Triple.mono spec (fun _ here => here) (fun _ _ done => done) fun _ disk stopped =>
    weaker disk.tree stopped

theorem rename_spec {source target : Place} :
    On (· = t) (rename faults source target)
      (fun _ t' => t' = Function.update (Function.update t target (t source)) source none)
      fun _ => True := by
  apply On.act
  · apply On.read
    rintro disk rfl
    dsimp only
    split
    · exact On.throw fun _ _ => trivial
    · apply On.edit
      intro _ same
      show Function.update (Function.update _ _ _) _ _ = _
      rw [same]
  · exact fun _ _ => trivial
  · exact fun _ _ _ => trivial

/-- The new file takes the place of the old one, and nothing is left of the temporary one. -/
theorem replaced {temporary target : Place} {first second : Option Node} (free : t temporary = none)
    (apart : temporary ≠ target) :
    Function.update (Function.update (Function.update (Function.update t temporary first) temporary
      second) target second) temporary none = Function.update t target second := by
  funext other
  by_cases here : other = temporary
  · subst here
    rw [Function.update_self, Function.update_of_ne apart, free]
  · rw [Function.update_of_ne here]
    by_cases there : other = target
    · subst there
      rw [Function.update_self, Function.update_self]
    · rw [Function.update_of_ne there, Function.update_of_ne here, Function.update_of_ne here,
        Function.update_of_ne there]

theorem overlayFile_spec (entry : Entry) (holds : Holds setup.work t entry)
    (fresh : setup.temporary entry.path ≠ leaf entry.path) :
    On (· = t) (overlayFile faults setup entry.path)
      (fun _ t' => t' = layOver setup.manager t entry) fun _ => True := by
  have closed : Closed [] fun _ => True := fun _ _ _ _ _ => trivial
  apply On.bind (look_spec fun _ _ => trivial)
  intro _
  apply On.bind (beneath_spec entry holds trivial)
  intro bytes
  apply On.at
  rintro t ⟨rfl, rfl⟩
  have free : Closed setup.manager fun _ => True := fun _ _ _ _ _ => trivial
  apply On.bind (parent_spec free entry.path trivial)
  intro folder
  apply On.at
  rintro t₁ ⟨rfl, shape, _⟩
  rw [folder_leaf]
  generalize here : setup.manager ++ (components entry.path).dropLast ++
    [setup.temporary entry.path] = temporary
  have apart : temporary ≠ setup.manager ++ components entry.path := by
    rw [← here, ← folder_leaf]
    intro same
    exact fresh (List.singleton_inj.mp (List.append_cancel_left same))
  apply On.bind (Q := fun result t' => ∀ done : Unit, result = .ok done →
    t' = layOver setup.manager t entry ∧ t' temporary = none)
  · apply On.outcome (F := fun _ => True)
    · apply On.bind (createFile_spec closed (List.nil_prefix) trivial)
      intro _
      apply On.at
      rintro _ ⟨free, rfl⟩
      apply On.bind (writeFile_spec closed (List.nil_prefix) _ trivial)
      intro _
      apply On.at
      rintro _ rfl
      apply On.bind (look_spec fun _ _ => trivial)
      intro _
      apply On.bind rename_spec
      intro _
      apply (look_spec fun _ _ => trivial).post
      rintro _ _ rfl _ _
      rw [Function.update_self, replaced free apart]
      refine ⟨by rw [layOver, wayTo, fileAt, shape], ?_⟩
      rw [Function.update_of_ne apart, free]
    · exact fun _ _ _ _ => nofun
    · exact fun _ _ => trivial
  · intro result
    apply On.at
    intro t₂ ended
    cases result with
    | error e =>
      apply On.bind (Q := fun _ _ => True)
      · apply On.outcome (F := fun _ => True)
        · apply On.act (On.edit fun _ _ => trivial) (fun _ _ => trivial) fun _ _ _ => trivial
        · exact fun _ _ _ => trivial
        · exact fun _ _ => trivial
      · exact fun _ => On.check (fun _ _ _ => nofun) fun _ _ => trivial
    | ok done =>
      obtain ⟨laid, free⟩ := ended done rfl
      have removed : Function.update t₂ temporary none = t₂ := by
        rw [← free, Function.update_eq_self]
      apply On.bind (Q := fun _ t' => t' = t₂)
      · apply On.outcome (F := (· = t₂))
        · apply On.act (Q := fun _ t' => t' = t₂)
          · apply On.edit
            intro _ same
            show Function.update _ _ _ = _
            rw [same, removed]
          · exact fun _ same => same
          · exact fun _ _ same => same
        · exact fun _ _ same => same
        · exact fun _ _ => trivial
      · intro _
        apply On.check
        · intro _ _ same _
          rw [same, laid]
        · exact fun _ _ => trivial

/-! ## The whole overlay -/

/-- The work folder and the folder of the manager lie apart, and a temporary file is not named as
the file that it replaces. -/
structure Separate (setup : Setup) : Prop where
  outside : ¬setup.manager <+: setup.work
  inside : ¬setup.work <+: setup.manager
  fresh : ∀ relative, setup.temporary relative ≠ leaf relative

theorem Separate.apart (separate : Separate setup) (inManager : setup.manager <+: place) :
    ¬setup.work <+: place := by
  intro inWork
  rcases List.prefix_or_prefix_of_prefix inManager inWork with outer | inner
  · exact separate.outside outer
  · exact separate.inside inner

theorem layOver_outside {manager : Place} {entry : Entry} (outside : ¬manager <+: place) :
    layOver manager t entry place = t place := by
  have notFile : place ≠ fileAt manager entry := by
    rintro rfl
    exact outside (List.prefix_append _ _)
  rw [layOver, Function.update_of_ne notFile]
  exact if_neg fun there => outside (prefix_of_mem_folderPlaces there.1)

theorem Holds.layOver (separate : Separate setup) {entry other : Entry}
    (holds : Holds setup.work t entry) :
    Holds setup.work (layOver setup.manager t other) entry := by
  refine ⟨holds.1, ?_⟩
  rw [layOver_outside, holds.2]
  exact fun inManager => separate.apart inManager (List.prefix_append _ _)

theorem overlay_spec (separate : Separate setup) (files : List Entry)
    (all : ∀ entry ∈ files, Holds setup.work t entry) :
    On (· = t) (overlay faults setup files)
      (fun _ t' => t' = files.foldl (layOver setup.manager) t) fun _ => True := by
  have loop : On (· = t) (files.forM fun entry => overlayFile faults setup entry.path)
      (fun _ t' => t' = files.foldl (layOver setup.manager) t) fun _ => True := by
    induction files generalizing t with
    | nil => exact On.pure fun _ same => same
    | cons entry files ih =>
      obtain ⟨first, rest⟩ := List.forall_mem_cons.mp all
      apply On.bind (overlayFile_spec entry first (separate.fresh _))
      intro _
      apply On.at
      rintro _ rfl
      exact ih fun other there => (rest other there).layOver separate
  exact On.bind loop fun _ => look_spec fun _ _ => trivial

/-- What was there with files over it: each file at its place, and folders on the way to it where
nothing was. -/
def overlaid (manager : Place) (files : List Entry) (t : Tree) : Tree := fun place =>
  match files.find? fun entry => fileAt manager entry = place with
  | some entry => some (.file true 1 (bytesOf entry))
  | none => withFolders t (files.flatMap (wayTo manager)) place

theorem components_injective {a b : String} (same : components a = components b) : a = b := by
  have pieces : a.toList.splitOn '/' = b.toList.splitOn '/' :=
    List.map_injective_iff.mpr (fun _ _ => String.ofList_injective) same
  have joined := congrArg (['/'].intercalate ·) pieces
  simp only [List.intercalate_splitOn] at joined
  exact String.toList_injective joined

theorem withFolders_congr {places : List Place} (same : t place = t' place) :
    withFolders t places place = withFolders t' places place := by
  unfold withFolders
  rw [same]

theorem overlaid_file {manager : Place} {files : List Entry} {entry : Entry}
    (known : files.find? (fun entry => fileAt manager entry = place) = some entry) :
    overlaid manager files t place = some (.file true 1 (bytesOf entry)) := by
  unfold overlaid
  rw [known]

theorem overlaid_other {manager : Place} {files : List Entry}
    (none : files.find? (fun entry => fileAt manager entry = place) = none) :
    overlaid manager files t place = withFolders t (files.flatMap (wayTo manager)) place := by
  unfold overlaid
  rw [none]

theorem layOver_overlaid {manager : Place} {files : List Entry} {entry : Entry}
    (new : ∀ other ∈ files, other.path ≠ entry.path) :
    layOver manager (overlaid manager files t) entry = overlaid manager (files ++ [entry]) t := by
  funext place
  by_cases here : fileAt manager entry = place
  · have absent : files.find? (fun other => decide (fileAt manager other = place)) =
        none := by
      rw [List.find?_eq_none]
      intro other there same
      have whole : fileAt manager other = fileAt manager entry :=
        (of_decide_eq_true same).trans here.symm
      exact new other there (components_injective (List.append_cancel_left whole))
    have found : (files ++ [entry]).find?
        (fun other => decide (fileAt manager other = place)) = some entry := by
      rw [List.find?_append, absent, List.find?_cons_of_pos (by simpa using here)]
      rfl
    rw [overlaid_file found, layOver, ← here, Function.update_self]
  · rw [layOver, Function.update_of_ne (Ne.symm here)]
    have later : (files ++ [entry]).find?
        (fun other => decide (fileAt manager other = place)) =
          files.find? fun other => decide (fileAt manager other = place) := by
      rw [List.find?_append, List.find?_cons_of_neg (by simpa using here), List.find?_nil,
        Option.or_none]
    cases known : files.find? fun other => decide (fileAt manager other = place) with
    | some other =>
      have file := overlaid_file (t := t) known
      rw [overlaid_file (later.trans known), kept_withFolders _ _ _ (by rw [file]; nofun), file]
    | none =>
      rw [overlaid_other (later.trans known), withFolders_congr (overlaid_other known),
        withFolders_append, List.flatMap_append, List.flatMap_singleton]

theorem foldl_layOver {manager : Place} {files : List Entry}
    (nodup : (files.map Entry.path).Nodup) :
    files.foldl (layOver manager) t = overlaid manager files t := by
  induction files using List.reverseRecOn with
  | nil => exact (withFolders_nil t).symm
  | append_singleton files entry ih =>
    rw [List.map_append, List.nodup_append'] at nodup
    have new : ∀ other ∈ files, other.path ≠ entry.path := by
      intro other there same
      exact nodup.2.2 (List.mem_map_of_mem there) (same ▸ List.mem_singleton_self _)
    rw [List.foldl_append, ih nodup.1]
    exact layOver_overlaid new

theorem copied_paths (rows : List (Package × Source)) :
    (copied (allPlans rows)).map Entry.path = (allFileRows rows).map Prod.fst := by
  unfold copied allPlans allFileRows
  rw [List.flatMap_map, List.map_flatMap, List.map_flatMap]
  refine List.flatMap_congr fun row _ => ?_
  unfold fileRows
  rw [List.filter_map, List.map_map, List.map_map]
  rfl

theorem Staged.nodup {packages : List Package} {files : List Entry}
    {rows : List (Package × Source)} (staged : Staged setup packages files rows) :
    (files.map Entry.path).Nodup := by
  rw [staged.files, copied_paths]
  exact staged.accepted.files

/-- An installation that succeeds changes nothing but the files of the packages, the folders on the
way to them, and the work folder. -/
theorem installWith_spec (separate : Separate setup) (packages : List Package) :
    On (· = origin) (installWith faults setup packages)
      (fun _ t' => ∃ files rows, Staged setup packages files rows ∧
        (∀ entry ∈ files, decoded entry = .ok (bytesOf entry)) ∧
        ∀ place, ¬setup.work <+: place → t' place = overlaid setup.manager files origin place)
      fun _ => True := by
  have staged : On (· = origin) (stage faults setup packages) _ _ := stage_spec packages
  apply On.bind (staged.weaken fun _ _ => trivial)
  intro files
  apply On.at
  rintro t ⟨outside, ⟨rows, staged⟩, all⟩
  apply (overlay_spec separate files all).post
  rintro _ _ rfl
  refine ⟨files, rows, staged, fun entry there => (all entry there).1, fun place notWork => ?_⟩
  rw [foldl_layOver staged.nodup]
  unfold overlaid withFolders
  rw [outside place notWork]

/-- Whatever goes wrong before the overlay, the folder of the manager is as it was. -/
theorem stage_failed (separate : Separate setup) {packages : List Package} {disk disk' : Disk}
    {stop : Stop Error} (failed : stage faults setup packages disk = .error stop disk')
    (inManager : setup.manager <+: place) : disk'.tree place = disk.tree place := by
  have spec : On (· = disk.tree) (stage faults setup packages) _ _ := stage_spec packages
  have ended := spec disk rfl
  rw [failed] at ended
  exact ended place (separate.apart inManager)

end Flightdeck.GsxEngine

namespace Flightdeck.Packages

open Foundation
open GsxEngine (Place)

/-- Archives are planned as a whole, in whatever order they name their entries, and what is planned
is what an installation leaves behind. -/
theorem archives_planned :
    (∀ lower entries actual total, OrbxArchive.plan lower entries = .ok (actual, total) ↔
      OrbxArchive.Accepted lower entries ∧
        actual = insertAll ∅ (entries.map OrbxArchive.fileRow) ∧
        total = OrbxArchive.totalSize entries) ∧
    (∀ lower (entries entries' : List OrbxArchive.ArchiveEntry), entries.Perm entries' →
      OrbxArchive.plan lower entries = OrbxArchive.plan lower entries') ∧
    (∀ lower rows final, rows.foldlM (GsxEngine.planPackage lower) GsxEngine.start = .ok final ↔
      GsxEngine.Accepted lower rows ∧ final = GsxEngine.planned lower rows) ∧
    (∀ lower rows rows' final, GsxEngine.Reordered rows rows' →
      rows.foldlM (GsxEngine.planPackage lower) GsxEngine.start = .ok final →
      ∃ final', rows'.foldlM (GsxEngine.planPackage lower) GsxEngine.start = .ok final' ∧
        final'.shared = final.shared ∧ final'.total = final.total ∧ final'.count = final.count) ∧
    (∀ faults setup packages disk stop disk', GsxEngine.Separate setup →
      GsxEngine.stage faults setup packages disk = .error stop disk' →
      GsxEngine.installWith faults setup packages disk = .error stop disk' ∧
        ∀ place, setup.manager <+: place → disk'.tree place = disk.tree place) ∧
    (∀ faults setup packages disk disk', GsxEngine.Separate setup →
      GsxEngine.installWith faults setup packages disk = .ok () disk' →
      ∃ files rows, GsxEngine.Staged setup packages files rows ∧
        (∀ entry ∈ files, GsxEngine.decoded entry = .ok (GsxEngine.bytesOf entry)) ∧
        ∀ place, ¬setup.work <+: place →
          disk'.tree place = GsxEngine.overlaid setup.manager files disk.tree place) := by
  refine ⟨fun lower _ _ _ => OrbxArchive.plan_eq_ok lower, fun _ _ _ => OrbxArchive.plan_perm,
    fun lower _ _ => GsxEngine.planAll_eq_ok lower,
    fun _ _ _ _ reordered => GsxEngine.planAll_reordered reordered, ?_, ?_⟩
  · intro faults setup packages disk stop disk' separate failed
    refine ⟨?_, fun place => GsxEngine.stage_failed separate failed⟩
    show EStateM.bind _ _ disk = _
    unfold EStateM.bind
    rw [failed]
  · intro faults setup packages disk disk' separate done
    have spec : GsxEngine.On (· = disk.tree) (GsxEngine.installWith faults setup packages) _ _ :=
      GsxEngine.installWith_spec separate packages
    have ended := spec disk rfl
    rw [done] at ended
    exact ended

/-- The conditions on the entries of an archive, without the bounds on how many they are. -/
structure Described (lower : String → String) (entries : List OrbxArchive.ArchiveEntry) : Prop where
  named : ∀ entry ∈ entries, OrbxArchive.validName (OrbxArchive.path entry) = true
  plain : ∀ entry ∈ entries, OrbxArchive.plain entry = true
  once : (entries.map OrbxArchive.path).Nodup
  consistent : Consistent lower (OrbxArchive.allPrefixes entries)
  total : OrbxArchive.totalSize entries ≤ OrbxArchive.MAX_TOTAL

/-- An archive without entries breaks none of them, and is refused. -/
theorem empty_archive_refused :
    ¬∀ lower entries, (∃ result, OrbxArchive.plan lower entries = .ok result) ↔
      Described lower entries := by
  intro h
  have described : Described id [] := ⟨nofun, nofun, List.nodup_nil, nofun, Nat.zero_le _⟩
  obtain ⟨_, accepted⟩ := (h id []).mpr described
  cases accepted

end Flightdeck.Packages
