import Flightdeck.Transaction.Relocate

/-!
# Where relocated links lead

A link below the source leads to the same place below the destination, wherever the destination is,
unless its old target stepped out of the source again.
-/

namespace Flightdeck.Transaction

open Foundation

/-! ## The parts of a new target -/

theorem commonParts_take (a b : List (Component Bytes)) :
    a.take (commonParts a b) = b.take (commonParts a b) ∧ commonParts a b ≤ b.length := by
  induction a generalizing b with
  | nil => exact ⟨by cases b <;> rfl, Nat.zero_le _⟩
  | cons x a ih =>
    cases b with
    | nil => exact ⟨rfl, Nat.zero_le _⟩
    | cons y b =>
      have ⟨same, bound⟩ := ih b
      unfold commonParts at same bound ⊢
      rw [List.zip_cons_cons, List.takeWhile_cons]
      by_cases equal : x == y
      · rw [if_pos equal, List.length_cons, List.take_succ_cons, List.take_succ_cons, same,
          beq_iff_eq.mp equal]
        exact ⟨rfl, Nat.succ_le_succ bound⟩
      · rw [if_neg equal]
        exact ⟨rfl, Nat.zero_le _⟩

theorem plain_newParts {parentParts targetParts : List (Component Bytes)}
    (plain : ∀ part ∈ targetParts, PlainPart part) :
    ∀ part ∈ newParts parentParts targetParts, PlainPart part := by
  intro part there
  rcases List.mem_append.mp there with up | rest
  · rw [List.eq_of_mem_replicate up]
    trivial
  · exact plain part (List.mem_of_mem_drop rest)

/-- The text that is written is read as the parts; a single dot stands for none. -/
theorem components_newTarget {parentParts targetParts : List (Component Bytes)}
    (plain : ∀ part ∈ targetParts, PlainPart part) :
    components (newTarget parentParts targetParts) =
      if newParts parentParts targetParts = [] then [.current]
      else newParts parentParts targetParts := by
  unfold newTarget
  by_cases none : newParts parentParts targetParts = []
  · rw [none]
    decide
  · have read := components_pushAll none (plain_newParts plain)
    have filled : pushAll [] (newParts parentParts targetParts) ≠ [] := by
      intro empty
      rw [empty] at read
      exact none (read.symm.trans (by decide))
    rw [if_neg none, if_neg filled, read]

theorem resolve_newParts (base names : List Bytes) (relative : List (Component Bytes)) :
    resolve (base ++ names) (newParts (names.map .name) relative) = resolve base relative := by
  have ⟨same, bound⟩ := commonParts_take relative (names.map .name)
  unfold newParts
  generalize commonParts relative (names.map .name) = k at same bound
  rw [List.length_map] at bound ⊢
  have ups : names.length - k = (names.drop k).length := List.length_drop.symm
  have cut : base ++ names = base ++ names.take k ++ names.drop k := by
    rw [List.append_assoc, List.take_append_drop]
  rw [cut, ups, resolve_append, resolve_parents]
  conv_rhs => rw [← List.take_append_drop k relative, same, ← List.map_take, resolve_append,
    resolve_names]

/-- From the folder of the link the new target leads where the old one led from the source. -/
theorem resolve_newTarget (base names : List Bytes) {relative : List (Component Bytes)}
    (plain : ∀ part ∈ relative, PlainPart part) :
    resolve (base ++ names) (components (newTarget (names.map .name) relative)) =
      resolve base relative := by
  rw [components_newTarget plain]
  have leads := resolve_newParts base names relative
  by_cases none : newParts (names.map .name) relative = []
  · rw [if_pos none]
    rw [none] at leads
    exact leads
  · rwa [if_neg none]

/-! ## A link and its new target -/

theorem stripPrefix_eq_some {path base relative : List (Component Bytes)} :
    stripPrefix path base = some relative ↔ base ++ relative = path :=
  List.isPrefixOf?_eq_some_iff_append_eq

theorem components_absolute {text : Bytes} (absolute : text.head? = some SLASH) :
    components text = .root :: (text.splitOn SLASH).filterMap componentOf := by
  have start : prefixOf text = [.root] := if_pos absolute
  unfold components
  rw [start]
  rfl

/-- What comes after an absolute source is plain. -/
theorem plain_relative {source target : Bytes} (absolute : source.head? = some SLASH)
    {relative : List (Component Bytes)}
    (below : stripPrefix (components target) (components source) = some relative) :
    ∀ part ∈ relative, PlainPart part := by
  rw [stripPrefix_eq_some, components_absolute absolute, List.cons_append] at below
  have pieces : ∀ part ∈ relative, part ∈ (target.splitOn SLASH).filterMap componentOf := by
    intro part there
    have start : prefixOf target = [.root] ∨ prefixOf target = [.current] ∨
        prefixOf target = [] := by
      unfold prefixOf
      split
      · exact .inl rfl
      · split
        · exact .inr (.inl rfl)
        · exact .inr (.inr rfl)
    unfold components at below
    rcases start with start | start | start
    · rw [start] at below
      have rest : _ ++ relative = (target.splitOn SLASH).filterMap componentOf :=
        (List.cons.inj below).2
      rw [← rest]
      exact List.mem_append_right _ there
    · rw [start] at below
      cases (List.cons.inj below).1
    · rw [start, List.nil_append] at below
      have first : Component.root ∈ (target.splitOn SLASH).filterMap componentOf := by
        rw [← below]
        exact List.mem_cons_self ..
      exact (plain_pieces first).elim
  exact fun part there => plain_pieces (pieces part there)

/-- A new target has no root in it. -/
theorem root_notMem_newTarget {parentParts relative : List (Component Bytes)}
    (plain : ∀ part ∈ relative, PlainPart part) :
    Component.root ∉ components (newTarget parentParts relative) := by
  rw [components_newTarget plain]
  by_cases none : newParts parentParts relative = []
  · rw [if_pos none]
    decide
  · rw [if_neg none]
    exact fun there => plain_newParts plain _ there

/-- What is at a place after the run. -/
def relocatedNode (source : Bytes) (place : Place) : Option Node → Option Node
  | some (.link target) =>
    match stripPrefix (components target) (components source) with
    | some relative => some (.link (newTarget (place.dropLast.map .name) relative))
    | none => some (.link target)
  | node => node

theorem relocatedNode_link (source : Bytes) (place : Place) (target : Bytes) :
    relocatedNode source place (some (.link target)) =
      match stripPrefix (components target) (components source) with
      | some relative => some (.link (newTarget (place.dropLast.map .name) relative))
      | none => some (.link target) := rfl

theorem relocatedNode_below {source target : Bytes} {relative : List (Component Bytes)}
    (below : stripPrefix (components target) (components source) = some relative) (place : Place) :
    relocatedNode source place (some (.link target)) =
      some (.link (newTarget (place.dropLast.map .name) relative)) := by
  rw [relocatedNode_link, below]

theorem relocatedNode_elsewhere {source target : Bytes}
    (elsewhere : stripPrefix (components target) (components source) = none) (place : Place) :
    relocatedNode source place (some (.link target)) = some (.link target) := by
  rw [relocatedNode_link, elsewhere]

theorem relocatedNode_twice {source : Bytes} (absolute : source.head? = some SLASH) (place : Place)
    (node : Option Node) :
    relocatedNode source place (relocatedNode source place node) =
      relocatedNode source place node := by
  cases node with
  | none => rfl
  | some node =>
    cases node with
    | folder => rfl
    | file => rfl
    | link target =>
      cases below : stripPrefix (components target) (components source) with
      | none => rw [relocatedNode_elsewhere below, relocatedNode_elsewhere below]
      | some relative =>
        have plain := plain_relative absolute below
        have clean : Component.root ∉
            components (newTarget (place.dropLast.map .name) relative) :=
          root_notMem_newTarget plain
        rw [relocatedNode_below below]
        apply relocatedNode_elsewhere
        cases found : stripPrefix (components (newTarget (place.dropLast.map .name) relative))
            (components source) with
        | none => rfl
        | some rest =>
          rw [stripPrefix_eq_some, components_absolute absolute] at found
          rw [← found] at clean
          exact absurd (List.mem_cons_self ..) clean

/-! ## The walk -/

/-- Of the folders found so far, the entries have been found too or the folder is still to be
read. -/
def Covered (tree : Tree) (folders entries : List Place) : Prop :=
  ∀ place, place = [] ∨ place ∈ entries → tree.nodes place = some .folder →
    place ∈ folders ∨ ∀ name, tree.nodes (place ++ [name]) ≠ none → place ++ [name] ∈ entries

theorem visit_spec {tree : Tree} {folder : Place} {names : List Bytes}
    {folders entries : List Place} {state : List Place × List Place}
    (done : visit tree folder names folders entries = .ok state) :
    entries ⊆ state.2 ∧ folders ⊆ state.1 ∧ (∀ name ∈ names, folder ++ [name] ∈ state.2) ∧
      ∀ place ∈ state.2, place ∈ entries ∨
        (tree.nodes place = some .folder → place ∈ state.1) := by
  induction names generalizing folders entries with
  | nil =>
    cases done
    exact ⟨List.Subset.refl _, List.Subset.refl _, fun _ there => absurd there List.not_mem_nil,
      fun _ there => .inl there⟩
  | cons name names ih =>
    unfold visit at done
    by_cases room : entries.length < LIMIT
    · rw [if_pos room] at done
      obtain ⟨kept, held, found, fresh⟩ := ih done
      refine ⟨?_, ?_, ?_, ?_⟩
      · exact fun place there => kept (List.mem_append_left _ there)
      · intro place there
        apply held
        split
        · exact List.mem_cons_of_mem _ there
        · exact there
      · intro other there
        rcases List.mem_cons.mp there with rfl | later
        · exact kept (List.mem_append_right _ (List.mem_singleton_self _))
        · exact found other later
      · intro place there
        rcases fresh place there with early | late
        · rcases List.mem_append.mp early with early | last
          · exact .inl early
          · apply Or.inr
            intro isFolder
            apply held
            rw [List.mem_singleton.mp last] at isFolder ⊢
            rw [if_pos isFolder]
            exact List.mem_cons_self ..
        · exact .inr late
    · rw [if_neg room] at done
      cases done

theorem Covered.visited {tree : Tree} {folder : Place} {folders entries : List Place}
    (covered : Covered tree (folder :: folders) entries) {state : List Place × List Place}
    (done : visit tree folder (tree.entries folder) folders entries = .ok state) :
    Covered tree state.1 state.2 := by
  have ⟨kept, held, found, fresh⟩ := visit_spec done
  have old : ∀ place, place = [] ∨ place ∈ entries → tree.nodes place = some .folder →
      place ∈ state.1 ∨
        ∀ name, tree.nodes (place ++ [name]) ≠ none → place ++ [name] ∈ state.2 := by
    intro place known isFolder
    rcases covered place known isFolder with waiting | complete
    · rcases List.mem_cons.mp waiting with rfl | waiting
      · exact .inr fun name there => found name (tree.listed _ _ there)
      · exact .inl (held waiting)
    · exact .inr fun name there => kept (complete name there)
  intro place known isFolder
  rcases known with top | there
  · exact old place (.inl top) isFolder
  · rcases fresh place there with early | late
    · exact old place (.inr early) isFolder
    · exact .inl (late isFolder)

theorem walkFrom_covered {tree : Tree} {folders entries links : List Place}
    (covered : Covered tree folders entries) (done : walkFrom tree folders entries = .ok links) :
    Covered tree [] links := by
  induction folders, entries using walkFrom.induct tree with
  | case1 entries =>
    rw [walkFrom] at done
    cases done
    exact covered
  | case2 folder folders entries e visited =>
    rw [walkFrom] at done
    split at done
    · cases done
    · next state again =>
      rw [visited] at again
      cases again
  | case3 folder folders entries state visited ih =>
    rw [walkFrom] at done
    split at done
    · cases done
    · next state' again =>
      rw [visited] at again
      cases again
      exact ih (covered.visited visited) done

theorem walk_eq_ok {tree : Tree} {links : List Place} (done : walk tree = .ok links) :
    tree.nodes [] = some .folder ∧ walkFrom tree [[]] [] = .ok links := by
  have ⟨_, root, walked⟩ := bind_eq_ok.mp done
  rw [require_eq_ok, decide_eq_true_eq] at root
  exact ⟨root, walked⟩

theorem walk_complete {tree : Tree} {links : List Place} (done : walk tree = .ok links)
    {place : Place} (deep : place ≠ []) (there : tree.nodes place ≠ none) : place ∈ links := by
  have start : Covered tree [[]] [] := by
    intro place known _
    rcases known with rfl | there
    · exact .inl (List.mem_singleton_self _)
    · cases there
  have covered := walkFrom_covered start (walk_eq_ok done).2
  induction place using List.reverseRecOn with
  | nil => contradiction
  | append_singleton place name ih =>
    have isFolder := tree.rooted place name there
    have known : place = [] ∨ place ∈ links := by
      by_cases top : place = []
      · exact .inl top
      · exact .inr (ih top (by rw [isFolder]; nofun))
    rcases covered place known isFolder with waiting | complete
    · cases waiting
    · exact complete name there

/-! ## The run -/

abbrev Nodes := Place → Option Node

section

variable {faults : Nat → Fault} {nodes : Nodes}

theorem act_spec {α : Type} {m : M α} {P E : Nodes → Prop} {Q : α → Nodes → Prop}
    (step : Triple (fun disk => P disk.nodes) m (fun a disk => Q a disk.nodes)
      fun _ disk => E disk.nodes)
    (before : ∀ nodes, P nodes → E nodes) (after : ∀ a nodes, Q a nodes → E nodes) :
    Triple (fun disk => P disk.nodes) (act faults m) (fun a disk => Q a disk.nodes)
      fun _ disk => E disk.nodes := by
  intro disk start
  have called : Triple (fun disk => P disk.nodes) (perform (faults disk.clock) Error.io m)
      (fun a disk => Q a disk.nodes) fun _ disk => E disk.nodes := by
    apply Triple.perform
    · exact fun _ => step
    · exact fun _ _ holds => ⟨before _ holds, before _ holds⟩
    · exact fun _ _ a _ done => ⟨after a _ done, after a _ done⟩
  exact called { disk with clock := disk.clock + 1 } start

/-- The target of a node, if it is a link. -/
def targetOf : Option Node → Option Bytes
  | some (.link target) => some target
  | _ => none

theorem targetOf_eq_some {node : Option Node} {target : Bytes} :
    targetOf node = some target ↔ node = some (.link target) := by
  constructor
  · intro found
    cases node with
    | none => cases found
    | some node =>
      cases node with
      | folder => cases found
      | file => cases found
      | link other => rw [Option.some.inj found]
  · rintro rfl
    rfl

theorem relocatedNode_other {node : Option Node} (found : targetOf node = none) (source : Bytes)
    (place : Place) : relocatedNode source place node = node := by
  cases node with
  | none => rfl
  | some node =>
    cases node with
    | folder => rfl
    | file => rfl
    | link target => cases found

theorem readLink_spec (place : Place) :
    Triple (fun disk => disk.nodes = nodes) (readLink faults place)
      (fun target disk => disk.nodes = nodes ∧ target = targetOf (nodes place))
      fun _ disk => disk.nodes = nodes := by
  apply Triple.bind (Q := fun node disk => disk.nodes = nodes ∧ nodes place = some node)
  · apply act_spec (P := fun now => now = nodes) (Q := fun node now => now = nodes ∧ _ = some node)
      (E := fun now => now = nodes)
    · apply Triple.get_bind
      rintro disk rfl
      cases here : disk.nodes place with
      | none => exact Triple.throw fun _ same => by rw [same]
      | some node => exact fun _ same => ⟨by rw [same], rfl⟩
    · exact fun _ same => same
    · exact fun _ _ done => done.1
  · intro node disk ⟨same, here⟩
    rw [here]
    cases node with
    | folder => exact ⟨same, rfl⟩
    | file => exact ⟨same, rfl⟩
    | link target =>
      have read : Triple (fun disk => disk.nodes = nodes) (act faults (pure (some target)))
          (fun found disk => disk.nodes = nodes ∧ found = some target)
          fun _ disk => disk.nodes = nodes := by
        apply act_spec (P := fun now => now = nodes)
          (Q := fun found now => now = nodes ∧ found = some target) (E := fun now => now = nodes)
        · exact fun _ same => ⟨same, rfl⟩
        · exact fun _ same => same
        · exact fun _ _ done => done.1
      exact read disk same

theorem setNode_spec (place : Place) (node : Option Node) :
    Triple (fun disk => disk.nodes = nodes) (setNode faults place node)
      (fun _ disk => disk.nodes = Function.update nodes place node) fun _ disk =>
        disk.nodes = nodes ∨ disk.nodes = Function.update nodes place node := by
  apply act_spec (P := fun now => now = nodes)
    (Q := fun _ now => now = Function.update nodes place node)
    (E := fun now => now = nodes ∨ now = Function.update nodes place node)
  · apply Triple.update
    rintro disk rfl
    rfl
  · exact fun _ same => .inl same
  · exact fun _ _ done => .inr done

/-- The nodes after a link was worked on, or after that broke off: between the two calls the link is
missing. -/
def LinkStep (source : Bytes) (place : Place) (nodes after : Nodes) : Prop :=
  after = nodes ∨ after = Function.update nodes place (relocatedNode source place (nodes place)) ∨
    relocatedNode source place (nodes place) ≠ nodes place ∧
      after = Function.update nodes place none

theorem relocateLink_spec {source : Bytes} (absolute : source.head? = some SLASH) (place : Place) :
    Triple (fun disk => disk.nodes = nodes) (relocateLink faults source place)
      (fun _ disk =>
        disk.nodes = Function.update nodes place (relocatedNode source place (nodes place)))
      fun _ disk => LinkStep source place nodes disk.nodes := by
  apply Triple.bind
  · exact (readLink_spec place).mono (fun _ start => start) (fun _ _ holds => holds)
      fun _ _ same => .inl same
  · rintro target disk ⟨same, rfl⟩
    have unchanged (kept : relocatedNode source place (nodes place) = nodes place) : disk.nodes =
        Function.update nodes place (relocatedNode source place (nodes place)) := by
      rw [kept, Function.update_eq_self, same]
    cases found : targetOf (nodes place) with
    | none => exact unchanged (relocatedNode_other found source place)
    | some target =>
      have here := targetOf_eq_some.mp found
      dsimp only
      cases below : stripPrefix (components target) (components source) with
      | none => exact unchanged (by rw [here, relocatedNode_elsewhere below])
      | some relative =>
        have new := relocatedNode_below below place
        have changes : relocatedNode source place (nodes place) ≠ nodes place := by
          rw [here, new]
          intro same
          have text := Node.link.inj (Option.some.inj same)
          have plain := plain_relative absolute below
          have clean : Component.root ∉
              components (newTarget (place.dropLast.map .name) relative) :=
            root_notMem_newTarget plain
          rw [text, ← stripPrefix_eq_some.mp below, components_absolute absolute] at clean
          exact clean (List.mem_cons_self ..)
        have removed : Function.update (Function.update nodes place none) place
            (some (.link (newTarget (place.dropLast.map .name) relative))) =
            Function.update nodes place (relocatedNode source place (nodes place)) := by
          rw [Function.update_idem, here, new]
        apply Triple.bind (P := fun disk => disk.nodes = nodes) (Q := fun _ disk =>
          disk.nodes = nodes) _ _ disk same
        · apply Triple.check
          · exact fun _ _ same _ => same
          · exact fun _ _ same _ => .inl same
        · intro _
          apply Triple.bind
          · apply (setNode_spec place none).mono (fun _ start => start) fun _ _ holds => holds
            intro _ disk either
            rcases either with same | gone
            · exact .inl same
            · exact .inr (.inr ⟨changes, gone⟩)
          · intro _
            apply (setNode_spec place _).mono (fun _ start => start)
            · intro _ disk written
              rw [written, removed]
            · intro _ disk either
              rcases either with gone | written
              · exact .inr (.inr ⟨changes, gone⟩)
              · exact .inr (.inl (by rw [written, removed]))

/-- These places have been worked on, and the others are as they were. -/
def RelocatedIn (source : Bytes) (before after : Nodes) (done : List Place) : Prop :=
  ∀ place, after place =
    if place ∈ done then relocatedNode source place (before place) else before place

theorem RelocatedIn.next {source : Bytes} (absolute : source.head? = some SLASH)
    {before after : Nodes} {done : List Place} (kept : RelocatedIn source before after done)
    (place : Place) :
    RelocatedIn source before
      (Function.update after place (relocatedNode source place (after place)))
      (done ++ [place]) := by
  intro other
  by_cases same : other = place
  · subst same
    rw [Function.update_self, kept other,
      if_pos (List.mem_append_right _ (List.mem_singleton_self _))]
    by_cases again : other ∈ done
    · rw [if_pos again, relocatedNode_twice absolute]
    · rw [if_neg again]
  · have listed : other ∈ done ++ [place] ↔ other ∈ done := by
      rw [List.mem_append, List.mem_singleton]
      exact or_iff_left same
    rw [Function.update_of_ne same, kept other]
    by_cases there : other ∈ done
    · rw [if_pos there, if_pos (listed.mpr there)]
    · rw [if_neg there, if_neg fun either => there (listed.mp either)]

/-- A run that breaks off: each place is as before, or relocated, or a link that is missing and
would have been relocated. -/
def Stopped (source : Bytes) (before after : Nodes) : Prop :=
  ∀ place, after place = before place ∨ after place = relocatedNode source place (before place) ∨
    relocatedNode source place (before place) ≠ before place ∧ after place = none

theorem RelocatedIn.stopped {source : Bytes} {before after : Nodes} {done : List Place}
    (kept : RelocatedIn source before after done) : Stopped source before after := by
  intro place
  rw [kept place]
  by_cases there : place ∈ done
  · rw [if_pos there]
    exact .inr (.inl rfl)
  · rw [if_neg there]
    exact .inl rfl

theorem LinkStep.stopped {source : Bytes} (absolute : source.head? = some SLASH)
    {before nodes after : Nodes} {done : List Place} {place : Place}
    (kept : RelocatedIn source before nodes done) (step : LinkStep source place nodes after) :
    Stopped source before after := by
  rcases step with rfl | rfl | ⟨changes, rfl⟩
  · exact kept.stopped
  · exact (kept.next absolute place).stopped
  · intro other
    by_cases same : other = place
    · subst same
      rw [Function.update_self]
      rw [kept other] at changes
      by_cases there : other ∈ done
      · rw [if_pos there, relocatedNode_twice absolute] at changes
        exact absurd rfl changes
      · rw [if_neg there] at changes
        exact .inr (.inr ⟨changes, rfl⟩)
    · rw [Function.update_of_ne same]
      exact kept.stopped other

theorem relocatePrefixLinks_spec (tree : Tree) {source : Bytes}
    (absolute : source.head? = some SLASH) :
    Triple (fun disk => disk.nodes = tree.nodes) (relocatePrefixLinks faults tree source)
      (fun _ disk => ∃ links, walk tree = .ok links ∧
        RelocatedIn source tree.nodes disk.nodes links)
      fun _ disk => Stopped source tree.nodes disk.nodes := by
  have start : RelocatedIn source tree.nodes tree.nodes [] := fun _ => rfl
  apply Triple.bind (Q := fun links disk => disk.nodes = tree.nodes ∧ walk tree = .ok links)
  · apply act_spec (P := fun now => now = tree.nodes)
      (Q := fun links now => now = tree.nodes ∧ walk tree = .ok links)
      (E := fun now => Stopped source tree.nodes now)
    · apply Triple.check
      · exact fun _ _ same found => ⟨same, found⟩
      · intro _ _ same _
        rw [same]
        exact start.stopped
    · rintro _ rfl
      exact start.stopped
    · rintro _ _ ⟨rfl, _⟩
      exact start.stopped
  · intro links disk ⟨same, found⟩
    have begun : RelocatedIn source tree.nodes disk.nodes [] := by
      rw [same]
      exact start
    have loop : Triple (fun disk => RelocatedIn source tree.nodes disk.nodes [])
        (links.forM (relocateLink faults source))
        (fun _ disk => RelocatedIn source tree.nodes disk.nodes links)
        fun _ disk => Stopped source tree.nodes disk.nodes := by
      apply Triple.forM
        (I := fun done (disk : Disk) => RelocatedIn source tree.nodes disk.nodes done)
      intro done place rest _ disk kept
      apply (relocateLink_spec absolute place disk rfl).mono
      · intro _ after written
        rw [written]
        exact kept.next absolute place
      · exact fun _ after step => step.stopped absolute kept
    exact (loop disk begun).mono (fun _ _ all => ⟨links, found, all⟩) fun _ _ stopped => stopped

end

/-! ## Where the links lead -/

/-- From the folder of the link the text leads below the destination to what the old target was
below the source, wherever the destination is. -/
def LeadsBelow (place : Place) (text : Bytes) (relative : List (Component Bytes)) : Prop :=
  ∀ base : List Bytes,
    resolve (base ++ place.dropLast) (components text) = base ++ resolve [] relative

/-- The name that a component is. -/
def ownName : Component Bytes → Option Bytes
  | .name n => some n
  | _ => none

/-- What is true of a target below the source. -/
theorem leadsBelow_iff (place : Place) {relative : List (Component Bytes)}
    (plain : ∀ part ∈ relative, PlainPart part) :
    LeadsBelow place (newTarget (place.dropLast.map .name) relative) relative ↔
      Inside 0 relative := by
  constructor
  · intro leads
    by_contra outside
    obtain ⟨n, fresh⟩ := Infinite.exists_notMem_finset (relative.filterMap ownName).toFinset
    have absent : Component.name n ∉ relative := by
      intro there
      apply fresh
      rw [List.mem_toFinset]
      exact List.mem_filterMap.mpr ⟨_, there, rfl⟩
    have below := leads [n]
    rw [resolve_newTarget [n] _ plain] at below
    have leaves : ¬ [n] <+: resolve ([n] ++ []) relative := not_inside absent outside
    apply leaves
    rw [List.append_nil]
    have lands : resolve [n] relative = [n] ++ resolve [] relative := below
    rw [lands]
    exact List.prefix_append _ _
  · intro inside base
    rw [resolve_newTarget _ _ plain]
    have same : resolve (base ++ []) relative = base ++ resolve [] relative := resolve_inside inside
    rwa [List.append_nil] at same

/-- After a run each link below the source leads to the same place below the destination, also after
the destination got another name, exactly if its old target never stepped out of the source; other
links are as they were.  After a run that broke off the same is true but for a link that may be
missing. -/
theorem links_relocated (faults : Nat → Fault) (tree : Tree) (source : Bytes)
    (absolute : source.head? = some SLASH) (clock : Nat) :
    Ends (relocatePrefixLinks faults tree source ⟨tree.nodes, clock⟩)
      (fun _ after => ∀ place node, tree.nodes place = some node →
        match node with
        | .link target =>
          match stripPrefix (components target) (components source) with
          | some relative => ∃ text, after.nodes place = some (.link text) ∧
              .root ∉ components text ∧ (LeadsBelow place text relative ↔ Inside 0 relative)
          | none => after.nodes place = some (.link target)
        | other => after.nodes place = some other)
      fun _ after => Stopped source tree.nodes after.nodes := by
  apply (relocatePrefixLinks_spec tree absolute _ rfl).mono
  · intro _ after ⟨links, walked, all⟩ place node here
    have same : after.nodes place = relocatedNode source place (some node) := by
      rw [all place]
      by_cases listed : place ∈ links
      · rw [if_pos listed, here]
      · have top : place = [] := by
          by_contra deep
          exact listed (walk_complete walked deep (by rw [here]; nofun))
        rw [if_neg listed, here]
        rw [top, (walk_eq_ok walked).1] at here
        rw [← Option.some.inj here]
        rfl
    cases node with
    | folder => exact same
    | file => exact same
    | link target =>
      dsimp only
      cases below : stripPrefix (components target) (components source) with
      | none => rwa [relocatedNode_elsewhere below] at same
      | some relative =>
        rw [relocatedNode_below below] at same
        have plain := plain_relative absolute below
        exact ⟨_, same, root_notMem_newTarget plain, leadsBelow_iff place plain⟩
  · exact fun _ _ stopped => stopped

/-! ## A link that steps out of the source -/

def outwardTarget : Bytes := utf8 "/s/../x"

/-- One link, below the source by its first components. -/
def outwardTree : Tree where
  nodes place :=
    if place = [] then some .folder
    else if place = [utf8 "l"] then some (.link outwardTarget)
    else none
  entries place := if place = [] then [utf8 "l"] else []
  rooted := by
    intro place name there
    by_cases first : place ++ [name] = [utf8 "l"]
    · have top : place = [] := (List.append_eq_singleton_iff.mp first).elim (·.1) fun h => by
        cases h.2
      rw [top]
      rfl
    · rw [if_neg (by simp), if_neg first] at there
      exact absurd rfl there
  listed := by
    intro place name there
    by_cases first : place ++ [name] = [utf8 "l"]
    · have top : place = [] := (List.append_eq_singleton_iff.mp first).elim (·.1) fun h => by
        cases h.2
      rw [top] at first ⊢
      exact List.mem_singleton.mpr (List.cons.inj first).1
    · rw [if_neg (by simp), if_neg first] at there
      exact absurd rfl there

theorem links_relocated_sample : Ends
    (relocatePrefixLinks (fun _ => .none) outwardTree (utf8 "/s") ⟨outwardTree.nodes, 0⟩)
      (fun _ after => ∀ place node, outwardTree.nodes place = some node →
        match node with
        | .link target =>
          match stripPrefix (components target) (components (utf8 "/s")) with
          | some relative => ∃ text, after.nodes place = some (.link text) ∧
              .root ∉ components text ∧ (LeadsBelow place text relative ↔ Inside 0 relative)
          | none => after.nodes place = some (.link target)
        | other => after.nodes place = some other)
      fun _ after => Stopped (utf8 "/s") outwardTree.nodes after.nodes :=
  links_relocated (fun _ => .none) outwardTree (utf8 "/s") (by decide) 0

theorem walk_outward : walk outwardTree = .ok [[utf8 "l"]] := by
  show walkFrom outwardTree [[]] [] = _
  have visited : visit outwardTree [] (outwardTree.entries []) [] [] = .ok ([], [[utf8 "l"]]) := by
    decide
  rw [walkFrom]
  split
  · next e failed =>
    rw [visited] at failed
    cases failed
  · next state done =>
    rw [visited] at done
    rw [← Except.ok.inj done, walkFrom]

/-- The link leads to a place beside the destination. -/
theorem link_leaves_destination : ∃ after text,
    relocatePrefixLinks (fun _ => .none) outwardTree (utf8 "/s") ⟨outwardTree.nodes, 0⟩ =
      .ok () after ∧ after.nodes [utf8 "l"] = some (.link text) ∧
    resolve [utf8 "d"] (components text) = [utf8 "x"] ∧
    ¬ [utf8 "d"] <+: resolve [utf8 "d"] (components text) := by
  have below : stripPrefix (components outwardTarget) (components (utf8 "/s")) =
      some [.parent, .name (utf8 "x")] := by decide
  have text : newTarget [] [.parent, .name (utf8 "x")] = utf8 "../x" := by decide
  refine ⟨⟨Function.update (Function.update outwardTree.nodes [utf8 "l"] none) [utf8 "l"]
    (some (.link (utf8 "../x"))), 5⟩, utf8 "../x", ?_, ?_, by decide, by decide⟩
  · have listed : act (fun _ => .none) (liftM (walk outwardTree)) ⟨outwardTree.nodes, 0⟩ =
        .ok [[utf8 "l"]] ⟨outwardTree.nodes, 1⟩ := by
      rw [walk_outward]
      rfl
    have body : relocateLink (fun _ => .none) (utf8 "/s") [utf8 "l"] ⟨outwardTree.nodes, 1⟩ =
        .ok () ⟨Function.update (Function.update outwardTree.nodes [utf8 "l"] none) [utf8 "l"]
          (some (.link (utf8 "../x"))), 5⟩ := by
      have read : readLink (fun _ => .none) [utf8 "l"] ⟨outwardTree.nodes, 1⟩ =
          .ok (some outwardTarget) ⟨outwardTree.nodes, 3⟩ := rfl
      unfold relocateLink
      rw [run_bind read]
      dsimp only
      rw [below]
      dsimp only
      rw [← text]
      rfl
    unfold relocatePrefixLinks
    rw [run_bind listed]
    exact run_bind body
  · show Function.update (Function.update outwardTree.nodes [utf8 "l"] none) [utf8 "l"]
      (some (.link (utf8 "../x"))) [utf8 "l"] = _
    rw [Function.update_self]

end Flightdeck.Transaction
