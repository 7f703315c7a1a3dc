import Flightdeck.Packages.Install

/-!
# The calls of the installer

What each call does to the file tree, and that the folders on a way are made where nothing was.
-/

namespace Flightdeck.GsxEngine

open Foundation
open Installer (components)
open Packages

/-- A specification about the file tree alone. -/
def On {α : Type} (P : Tree → Prop) (m : M α) (Q : α → Tree → Prop) (E : Tree → Prop) : Prop :=
  Triple (fun disk => P disk.tree) m (fun a disk => Q a disk.tree) fun _ disk => E disk.tree

variable {α β : Type} {P E : Tree → Prop} {Q : α → Tree → Prop} {R : β → Tree → Prop}
  {faults : Nat → Fault} {t : Tree} {root place : Place}

theorem On.bind {m : M α} {f : α → M β} (first : On P m Q E) (then_ : ∀ a, On (Q a) (f a) R E) :
    On P (m >>= f) R E :=
  Triple.bind first then_

theorem On.at {m : M α} (each : ∀ t, P t → On (· = t) m Q E) : On P m Q E :=
  fun disk holds => each disk.tree holds disk rfl

theorem On.post {Q' : α → Tree → Prop} {m : M α} (spec : On P m Q E)
    (weaker : ∀ a t, Q a t → Q' a t) : On P m Q' E :=
  Triple.post spec fun a disk holds => weaker a disk.tree holds

/-- A computation that starts with a look at the tree. -/
theorem On.read {f : Disk → M α}
    (each : ∀ disk : Disk, P disk.tree → On (· = disk.tree) (f disk) Q E) :
    On P (MonadState.get >>= f) Q E :=
  fun disk holds => each disk holds disk rfl

theorem On.edit {change : Disk → Disk} {Q : Unit → Tree → Prop}
    (holds : ∀ disk : Disk, P disk.tree → Q () (change disk).tree) :
    On P (modify change : M Unit) Q E :=
  fun disk start => holds disk start

theorem On.throw {e : Stop Error} (holds : ∀ t, P t → E t) :
    On P (MonadExcept.throw e : M α) Q E :=
  fun disk start => holds disk.tree start

theorem On.pure {a : α} (holds : ∀ t, P t → Q a t) : On P (Pure.pure a) Q E :=
  fun disk start => holds disk.tree start

theorem On.check {x : Except Error α} (good : ∀ a t, P t → x = .ok a → Q a t)
    (bad : ∀ t, P t → E t) : On P (liftM x) Q E :=
  Triple.check (fun a disk start found => good a disk.tree start found)
    fun _ disk start _ => bad disk.tree start

/-- A call: its fault leaves what held before it or after it. -/
theorem On.act {m : M α} (step : On P m Q E) (before : ∀ t, P t → E t)
    (after : ∀ a t, Q a t → E t) : On P (act faults m) Q E := by
  intro disk start
  show Ends (perform (faults disk.clock) Error.io m { disk with clock := disk.clock + 1 }) _ _
  have called : Triple (fun disk => P disk.tree) (perform (faults disk.clock) Error.io m)
      (fun a disk => Q a disk.tree) fun _ disk => E disk.tree := by
    apply Triple.perform
    · exact fun _ => step
    · exact fun _ disk start => ⟨before _ start, before _ start⟩
    · exact fun _ _ a disk done => ⟨after a _ done, after a _ done⟩
  exact called _ start

/-! ## Folders -/

/-- The places of the folders on a way. -/
def folderPlaces : Place → List String → List Place
  | _, [] => []
  | current, part :: rest => (current ++ [part]) :: folderPlaces (current ++ [part]) rest

/-- The tree with folders at places where nothing is. -/
def withFolders (t : Tree) (places : List Place) : Tree := fun place =>
  if place ∈ places ∧ (t place).isNone then some (.folder true) else t place

/-- What stays true when something changes below a folder. -/
def Closed (root : Place) (E : Tree → Prop) : Prop :=
  ∀ t place node, E t → root <+: place → E (Function.update t place node)

theorem withFolders_nil (t : Tree) : withFolders t [] = t := by
  funext place
  exact if_neg fun there => List.not_mem_nil there.1

theorem withFolders_append (t : Tree) (first second : List Place) :
    withFolders (withFolders t first) second = withFolders t (first ++ second) := by
  funext place
  unfold withFolders
  by_cases early : place ∈ first ∧ (t place).isNone
  · have all : place ∈ first ++ second ∧ (t place).isNone :=
      ⟨List.mem_append_left _ early.1, early.2⟩
    rw [if_pos early, if_pos all]
    exact if_neg fun there => by cases there.2
  · rw [if_neg early]
    by_cases late : place ∈ second ∧ (t place).isNone
    · rw [if_pos late, if_pos ⟨List.mem_append_right _ late.1, late.2⟩]
    · rw [if_neg late, if_neg]
      rintro ⟨there, free⟩
      rcases List.mem_append.mp there with there | there
      · exact early ⟨there, free⟩
      · exact late ⟨there, free⟩

theorem withFolders_single (t : Tree) (place : Place) (free : t place = none) :
    withFolders t [place] = Function.update t place (some (.folder true)) := by
  funext other
  unfold withFolders
  by_cases same : other = place
  · subst same
    rw [Function.update_self, if_pos ⟨List.mem_singleton_self _, by rw [free]; rfl⟩]
  · rw [Function.update_of_ne same, if_neg fun there => same (List.mem_singleton.mp there.1)]

theorem withFolders_taken (t : Tree) (place : Place) (taken : t place ≠ none) :
    withFolders t [place] = t := by
  funext other
  apply if_neg
  rintro ⟨there, free⟩
  rw [List.mem_singleton.mp there] at free
  exact taken (Option.isNone_iff_eq_none.mp free)

theorem prefix_of_mem_folderPlaces {current : Place} {parts : List String}
    (there : place ∈ folderPlaces current parts) : current <+: place := by
  induction parts generalizing current with
  | nil => cases there
  | cons part rest ih =>
    rcases List.mem_cons.mp there with rfl | there
    · exact List.prefix_append _ _
    · exact (List.prefix_append _ _).trans (ih there)

theorem look_spec (fine : ∀ t, P t → E t) : On P (look faults) (fun _ => P) E :=
  On.act (On.pure fun _ holds => holds) fine fun _ => fine

theorem openAt_spec (dir : Bool) (place : Place) (fine : E t) :
    On (· = t) (openAt faults dir place) (fun _ t' => t' = t ∧ isOpened dir (t place) = true) E := by
  apply On.act
  · apply On.read
    rintro disk rfl
    apply On.check
    · intro _ _ same opened
      rw [require_eq_ok] at opened
      exact ⟨same, opened⟩
    · exact fun _ same => same ▸ fine
  · exact fun _ same => same ▸ fine
  · exact fun _ _ holds => holds.1 ▸ fine

theorem makeFolder_spec (place : Place) (fine : E t) (made : E (withFolders t [place])) :
    On (· = t) (makeFolder faults place) (fun _ t' => t' = withFolders t [place]) E := by
  apply On.act
  · apply On.read
    rintro disk rfl
    cases here : disk.tree place with
    | none =>
      apply On.edit
      intro _ same
      show Function.update _ place _ = _
      rw [same, withFolders_single _ _ here]
    | some node =>
      apply On.pure
      intro _ same
      rw [same, withFolders_taken _ _ (by rw [here]; nofun)]
  · exact fun _ same => same ▸ fine
  · exact fun _ _ same => same ▸ made

theorem closed_withFolders (closed : Closed root E) {places : List Place}
    (below : ∀ place ∈ places, root <+: place) (fine : E t) : E (withFolders t places) := by
  induction places generalizing t with
  | nil => rwa [withFolders_nil]
  | cons place places ih =>
    have ⟨first, rest⟩ := List.forall_mem_cons.mp below
    rw [← List.singleton_append, ← withFolders_append]
    apply ih rest
    cases here : t place with
    | none =>
      rw [withFolders_single _ _ here]
      exact closed t place _ fine first
    | some node => rwa [withFolders_taken _ _ (by rw [here]; nofun)]

/-- The folders on a way are made, and where something is it can be opened as a folder. -/
theorem walk_spec (closed : Closed root E) {current : Place} (parts : List String)
    (below : root <+: current) (fine : E t) :
    On (· = t) (walk faults true current parts)
      (fun folder t' => folder = current ++ parts ∧
        t' = withFolders t (folderPlaces current parts) ∧ E t') E := by
  induction parts generalizing current t with
  | nil =>
    apply On.pure
    intro _ same
    rw [List.append_nil]
    exact ⟨rfl, by rw [same]; exact (withFolders_nil t).symm, same ▸ fine⟩
  | cons part rest ih =>
    have deeper : root <+: current ++ [part] := below.trans (List.prefix_append _ _)
    have made : E (withFolders t [current ++ [part]]) := by
      apply closed_withFolders closed _ fine
      intro place there
      rw [List.mem_singleton.mp there]
      exact deeper
    apply On.bind (makeFolder_spec _ fine made)
    intro _
    apply On.at
    rintro _ rfl
    apply On.bind (openAt_spec true _ made)
    intro _
    apply On.at
    rintro _ ⟨rfl, _⟩
    apply (ih deeper made).post
    rintro folder t' ⟨rfl, shape, holds⟩
    rw [withFolders_append] at shape
    exact ⟨by rw [List.append_assoc]; rfl, shape, holds⟩

/-- A way that is only followed. -/
theorem follow_spec {current : Place} (parts : List String) (fine : E t) :
    On (· = t) (walk faults false current parts)
      (fun folder t' => folder = current ++ parts ∧ t' = t) E := by
  induction parts generalizing current with
  | nil =>
    apply On.pure
    intro _ same
    rw [List.append_nil]
    exact ⟨rfl, same⟩
  | cons part rest ih =>
    apply On.bind (openAt_spec true _ fine)
    intro _
    apply On.at
    rintro _ ⟨rfl, _⟩
    apply ih.post
    rintro folder t' ⟨rfl, same⟩
    exact ⟨by rw [List.append_assoc]; rfl, same⟩

theorem checkName_spec (relative : String) (fine : ∀ t, P t → E t) :
    On P (checkName relative) (fun _ t => P t ∧ validName relative = true) E := by
  apply On.check
  · intro _ _ holds valid
    rw [require_eq_ok] at valid
    exact ⟨holds, valid⟩
  · exact fine

theorem directory_spec (closed : Closed root E) (parts : List String) (fine : E t) :
    On (· = t) (directory faults true root parts)
      (fun folder t' => folder = root ++ parts ∧
        t' = withFolders t (folderPlaces root parts) ∧ E t') E := by
  unfold directory
  cases parts with
  | nil =>
    apply On.pure
    intro _ same
    rw [List.append_nil]
    exact ⟨rfl, by rw [same]; exact (withFolders_nil t).symm, same ▸ fine⟩
  | cons part rest =>
    apply On.bind (checkName_spec _ fun _ same => same ▸ fine)
    intro _
    apply On.at
    rintro _ ⟨rfl, _⟩
    exact walk_spec closed (part :: rest) List.prefix_rfl fine

theorem parent_spec (closed : Closed root E) (relative : String) (fine : E t) :
    On (· = t) (parent faults true root relative)
      (fun folder t' => folder = root ++ (components relative).dropLast ∧
        t' = withFolders t (folderPlaces root (components relative).dropLast) ∧ E t') E := by
  apply On.bind (checkName_spec _ fun _ same => same ▸ fine)
  intro _
  apply On.at
  rintro _ ⟨rfl, _⟩
  exact directory_spec closed _ fine

/-- The place of a path is its leaf in its folder. -/
theorem folder_leaf (root : Place) (relative : String) :
    root ++ (components relative).dropLast ++ [leaf relative] = root ++ components relative := by
  have some : components relative ≠ [] := by
    intro none
    exact List.splitOn_ne_nil '/' relative.toList (List.map_eq_nil_iff.mp none)
  rw [List.append_assoc, leaf, List.getLast?_eq_some_getLast some, Option.getD_some,
    List.dropLast_append_getLast some]

end Flightdeck.GsxEngine
