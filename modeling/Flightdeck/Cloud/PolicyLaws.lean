import Flightdeck.Cloud.Policy

/-!
# Laws of the comparison policy

The loop of `decide` merges every name on its own.  Its decisions are therefore a pointwise
three-way merge: conflicts are the names that differ pairwise, a swap of the sides mirrors the
action, and a retry decides the same again.
-/

namespace Flightdeck.Cloud

open Foundation SaveState

theorem SaveSet.check_eq_ok {binding : String} {containers : TextMap String} :
    SaveSet.check binding containers = .ok () ↔ hexDigest binding = true ∧
      containers.size ≤ CONTAINER_LIMIT ∧ ∀ (name digest : String),
        containers[name]? = some digest →
          SaveState.name name true = .ok () ∧ hexDigest digest = true := by
  simp only [SaveSet.check, bind_eq_ok, Flightdeck.require_eq_ok, Bool.and_eq_true, decide_eq_true_eq,
    forM_eq_ok]
  constructor
  · rintro ⟨-, ⟨hbinding, hsize⟩, hentries⟩
    refine ⟨hbinding, hsize, fun name digest hentry => ?_⟩
    obtain ⟨⟨⟩, hname, hdigest⟩ :=
      hentries (name, digest) (Std.ExtTreeMap.mem_toList_iff_getElem?_eq_some.mpr hentry)
    exact ⟨hname, hdigest⟩
  · rintro ⟨hbinding, hsize, hentries⟩
    refine ⟨(), ⟨hbinding, hsize⟩, fun entry hentry => ?_⟩
    have h := hentries entry.1 entry.2 (Std.ExtTreeMap.mem_toList_iff_getElem?_eq_some.mp hentry)
    exact ⟨(), h.1, h.2⟩

theorem SaveSet.new_eq_ok {binding : String} {containers : TextMap String}
    (h : SaveSet.check binding containers = .ok ()) :
    SaveSet.new binding containers = .ok ⟨binding, containers, h⟩ := by
  unfold SaveSet.new
  split
  · rfl
  · rename_i e he
    rw [h] at he
    cases he

theorem SaveSet.of_new {binding : String} {containers : TextMap String} {s : SaveSet}
    (h : SaveSet.new binding containers = .ok s) :
    s.binding = binding ∧ s.containers = containers := by
  unfold SaveSet.new at h
  split at h
  · cases h
    exact ⟨rfl, rfl⟩
  · cases h

theorem SaveSet.ext {s t : SaveSet} (hbinding : s.binding = t.binding)
    (hcontainers : s.containers = t.containers) : s = t := by
  cases s
  cases t
  cases hbinding
  cases hcontainers
  rfl

/-! ## Names -/

section

variable {β : Type} (left right : TextMap β) (old : Option (TextMap β))

theorem mem_unionNames {name : String} :
    name ∈ unionNames left right old ↔
      name ∈ left ∨ name ∈ right ∨ ∃ o, old = some o ∧ name ∈ o := by
  have hold : name ∈ (old.map (·.keys)).getD [] ↔ ∃ o, old = some o ∧ name ∈ o := by
    cases old with
    | none => simp
    | some o => simp [Std.ExtTreeMap.mem_keys]
  unfold unionNames
  rw [Std.ExtTreeMap.mem_keys, mem_insertAll, List.map_map]
  simp only [Std.ExtTreeMap.not_mem_empty, false_or, Function.comp_def, List.map_id',
    List.mem_append, Std.ExtTreeMap.mem_keys, hold, or_assoc]

theorem nodup_unionNames : (unionNames left right old).Nodup :=
  Std.ExtTreeMap.nodup_keys

theorem unionNames_comm : unionNames left right old = unionNames right left old := by
  have hsets (xs ys : List String) (h : ∀ name, name ∈ xs ↔ name ∈ ys) :
      insertAll (∅ : TextSet) (xs.map fun name => (name, ())) =
        insertAll ∅ (ys.map fun name => (name, ())) := by
    apply Std.ExtTreeMap.ext_getElem?
    intro name
    have hmem : name ∈ insertAll (∅ : TextSet) (xs.map fun name => (name, ())) ↔
        name ∈ insertAll (∅ : TextSet) (ys.map fun name => (name, ())) := by
      simp only [mem_insertAll, List.map_map, Function.comp_def, List.map_id', h]
    rw [Std.ExtTreeMap.mem_iff_isSome_getElem?, Std.ExtTreeMap.mem_iff_isSome_getElem?] at hmem
    cases hx : (insertAll (∅ : TextSet) (xs.map fun name => (name, ())))[name]? <;>
      cases hy : (insertAll (∅ : TextSet) (ys.map fun name => (name, ())))[name]? <;>
      simp_all
  unfold unionNames
  rw [hsets]
  intro name
  simp only [List.mem_append]
  rw [or_comm (a := name ∈ left.keys)]

end

/-! ## The loop -/

section

variable (left right old : TextMap String)

/-- The merge of one name. -/
def mergedAt (name : String) : Option (Option String) :=
  ThreeWay.merge left[name]? right[name]? old[name]?

theorem mergeName_of_none {m : Merged} {name : String} (h : mergedAt left right old name = none) :
    mergeName left right old m name = { m with conflicts := m.conflicts ++ [name] } := by
  obtain ⟨hlr, hlo, hro⟩ := ThreeWay.merge_eq_none.mp h
  simp only [mergeName, if_neg hlr, if_neg hlo, if_neg hro]

theorem mergeName_of_some {m : Merged} {name : String} {digest : Option String}
    (h : mergedAt left right old name = some digest) :
    ∃ source, mergeName left right old m name = m.take name source digest := by
  unfold mergedAt ThreeWay.merge at h
  unfold mergeName
  by_cases hlr : left[name]? = right[name]?
  · rw [if_pos hlr] at h
    cases h
    exact ⟨.local, by rw [if_pos hlr]⟩
  · by_cases hlo : left[name]? = old[name]?
    · rw [if_neg hlr, if_pos hlo] at h
      cases h
      exact ⟨.cloud, by rw [if_neg hlr, if_pos hlo]⟩
    · by_cases hro : right[name]? = old[name]?
      · rw [if_neg hlr, if_neg hlo, if_pos hro] at h
        cases h
        exact ⟨.local, by rw [if_neg hlr, if_neg hlo, if_pos hro]⟩
      · rw [if_neg hlr, if_neg hlo, if_neg hro] at h
        cases h

theorem foldl_mergeName_conflicts (names : List String) (m : Merged) :
    (names.foldl (mergeName left right old) m).conflicts =
      m.conflicts ++ names.filter fun name => mergedAt left right old name = none := by
  induction names generalizing m with
  | nil => simp
  | cons name names ih =>
    rw [List.foldl_cons, ih, List.filter_cons]
    cases h : mergedAt left right old name with
    | none =>
      rw [mergeName_of_none left right old h]
      simp
    | some digest =>
      obtain ⟨source, hname⟩ := mergeName_of_some left right old (m := m) h
      rw [hname]
      simp [Merged.take]

/-- A selection of the loop carries the merge of its name. -/
theorem foldl_mergeName_selections (names : List String) (m : Merged) {s : Selection}
    (hs : s ∈ (names.foldl (mergeName left right old) m).selections) :
    s ∈ m.selections ∨ mergedAt left right old s.name = some s.digest := by
  induction names generalizing m with
  | nil => exact Or.inl hs
  | cons name names ih =>
    rw [List.foldl_cons] at hs
    rcases ih _ hs with hs | hs
    · cases h : mergedAt left right old name with
      | none =>
        rw [mergeName_of_none left right old h] at hs
        exact Or.inl hs
      | some digest =>
        obtain ⟨source, hname⟩ := mergeName_of_some left right old (m := m) h
        rw [hname] at hs
        rcases List.mem_append.mp hs with hs | hs
        · exact Or.inl hs
        · rw [List.mem_singleton] at hs
          right
          rw [hs]
          exact h
    · exact Or.inr hs

theorem getElem?_take_target (m : Merged) (name other : String) (source : Source)
    (digest : Option String) :
    (m.take name source digest).target[other]? =
      if name = other then digest.or m.target[other]? else m.target[other]? := by
  cases digest with
  | none => simp [Merged.take]
  | some digest =>
    change (m.target.insert name digest)[other]? = _
    rw [getElem?_insert_eq]
    rfl

/-- After the loop, each merged name holds its merge. -/
theorem foldl_mergeName_target {names : List String} (hnames : names.Nodup) (m : Merged)
    (name : String) :
    (names.foldl (mergeName left right old) m).target[name]? =
      if name ∈ names then (mergedAt left right old name).join.or m.target[name]?
      else m.target[name]? := by
  induction names generalizing m with
  | nil => simp
  | cons first names ih =>
    rw [List.nodup_cons] at hnames
    rw [List.foldl_cons, ih hnames.2]
    have hfirst : (mergeName left right old m first).target[name]? =
        if first = name then (mergedAt left right old name).join.or m.target[name]?
        else m.target[name]? := by
      cases h : mergedAt left right old first with
      | none =>
        rw [mergeName_of_none left right old h]
        by_cases heq : first = name
        · rw [if_pos heq, ← heq, h]
          rfl
        · rw [if_neg heq]
      | some digest =>
        obtain ⟨source, hname⟩ := mergeName_of_some left right old (m := m) h
        rw [hname, getElem?_take_target]
        by_cases heq : first = name
        · rw [if_pos heq, if_pos heq, ← heq, h]
          rfl
        · rw [if_neg heq, if_neg heq]
    by_cases hin : name ∈ names
    · have hne : first ≠ name := fun heq => hnames.1 (heq ▸ hin)
      rw [if_pos hin, if_pos (List.mem_cons_of_mem _ hin), hfirst, if_neg hne]
    · rw [if_neg hin, hfirst]
      by_cases heq : first = name
      · rw [if_pos heq, if_pos (by rw [heq]; exact List.mem_cons_self)]
      · have hnot : name ∉ first :: names := by
          simp only [List.mem_cons, not_or]
          exact ⟨Ne.symm heq, hin⟩
        rw [if_neg heq, if_neg hnot]

end

/-! ## The decision by cases -/

section

variable {left right old : SaveSet}

/-- The names of the three sets. -/
def namesOf (left right old : SaveSet) : List String :=
  unionNames left.containers right.containers (some old.containers)

def mergedSets (left right old : SaveSet) : Merged :=
  (namesOf left right old).foldl
    (mergeName left.containers right.containers old.containers) {}

/-- The merge of one name of three sets. -/
abbrev SaveSet.mergedAt (left right old : SaveSet) (name : String) :
    Option (Option String) :=
  Cloud.mergedAt left.containers right.containers old.containers name

theorem mergedSets_conflicts (left right old : SaveSet) :
    (mergedSets left right old).conflicts =
      (namesOf left right old).filter
        fun name => SaveSet.mergedAt left right old name = none := by
  rw [mergedSets, foldl_mergeName_conflicts]
  rfl

theorem mem_mergedSets_conflicts {name : String} :
    name ∈ (mergedSets left right old).conflicts ↔
      SaveSet.mergedAt left right old name = none := by
  rw [mergedSets_conflicts, List.mem_filter, decide_eq_true_eq]
  constructor
  · exact And.right
  · intro h
    refine ⟨?_, h⟩
    rw [namesOf, mem_unionNames]
    by_contra hnot
    simp only [not_or, not_exists, not_and] at hnot
    obtain ⟨hl, hr, -⟩ := hnot
    apply (ThreeWay.merge_eq_none.mp h).1
    rw [Std.ExtTreeMap.getElem?_eq_none hl, Std.ExtTreeMap.getElem?_eq_none hr]

theorem mergedSets_target {name : String} {digest : Option String}
    (h : SaveSet.mergedAt left right old name = some digest) :
    (mergedSets left right old).target[name]? = digest := by
  have hmerged : mergedAt left.containers right.containers old.containers name = some digest := h
  rw [mergedSets, namesOf, foldl_mergeName_target _ _ _ (nodup_unionNames _ _ _), hmerged]
  by_cases hin : name ∈ unionNames left.containers right.containers (some old.containers)
  · rw [if_pos hin]
    simp
  · rw [if_neg hin]
    simp only [mem_unionNames, not_or] at hin
    rcases ThreeWay.merge_mem h with rfl | rfl
    · rw [Std.ExtTreeMap.getElem?_eq_none hin.1]
      rfl
    · rw [Std.ExtTreeMap.getElem?_eq_none hin.2.1]
      rfl

theorem SaveSet.binding_hexDigest (s : SaveSet) : hexDigest s.binding = true :=
  (SaveSet.check_eq_ok.mp s.checked).1

/-- What `decide` publishes when no name is in conflict and the sides differ. -/
def mergedDecision (left right old target : SaveSet) : Decision where
  action :=
    if target.containers = right.containers then .importCloud
    else if target.containers = left.containers then .uploadLocal
    else .merge
  reason :=
    if target.containers = right.containers then "remote_changed"
    else if target.containers = left.containers then "local_changed"
    else "independent_changes"
  target := some target
  selections := (mergedSets left right old).selections
  backupRequired := true
  baselineRequired := true

/-- `decide` on three sets of one binding. -/
theorem decide_of_bindings (hright : right.binding = left.binding)
    (hold : old.binding = left.binding) :
    Cloud.decide left.binding (some left) (some right) (some old) =
      if left.containers = right.containers then
        .ok { Decision.new .noop "already_equal" with
          target := some left
          baselineRequired := some old.containers != some left.containers
          selections := (namesOf left right old).map
            fun name => ⟨name, .local, left.containers[name]?⟩ }
      else if (mergedSets left right old).conflicts ≠ [] then
        .ok { Decision.new .conflict "diverged" with
          conflicts := (mergedSets left right old).conflicts }
      else if (mergedSets left right old).target.size > CONTAINER_LIMIT then
        .ok (Decision.new .blocked "bounds")
      else do
        let target ← SaveSet.new left.binding (mergedSets left right old).target
        return mergedDecision left right old target := by
  have hhex := left.binding_hexDigest
  have hany : [some left, some right, some old].any
      (fun value => value.any (·.binding != left.binding)) = false := by
    simp [hright, hold]
  unfold Cloud.decide
  rw [hhex, hany]
  by_cases heq : left.containers = right.containers
  · simp only [require_true, Option.map_some, heq, if_true, namesOf]
    rfl
  · simp only [require_true, Option.map_some, heq, if_false]
    have hloop : (unionNames left.containers right.containers (some old.containers)).foldl
        (mergeName left.containers right.containers old.containers) {} =
        mergedSets left right old := rfl
    simp only [hloop]
    by_cases hconflicts : (mergedSets left right old).conflicts = []
    · rw [hconflicts]
      by_cases hsize : (mergedSets left right old).target.size > CONTAINER_LIMIT
      · simp only [hsize, if_true]
        rfl
      · simp only [hsize, if_false]
        cases hnew : SaveSet.new left.binding (mergedSets left right old).target with
        | error e => rfl
        | ok target =>
          have htarget := (SaveSet.of_new hnew).2
          change Except.ok _ = Except.ok (mergedDecision left right old target)
          simp only [mergedDecision, htarget]
          by_cases hr : (mergedSets left right old).target = right.containers
          · simp only [hr, if_true]
            rfl
          · by_cases hl : (mergedSets left right old).target = left.containers
            · simp only [hl, heq, if_true, if_false]
              rfl
            · simp only [hl, hr, if_false]
              rfl
    · have hnonempty : (mergedSets left right old).conflicts.isEmpty = false := by
        rw [← Bool.not_eq_true, List.isEmpty_iff]
        exact hconflicts
      rw [hnonempty, if_pos hconflicts]
      rfl

/-- `target` is the pointwise three-way merge of the sets. -/
structure Merges (left right old target : SaveSet) : Prop where
  binding : target.binding = left.binding
  each (name : String) : SaveSet.mergedAt left right old name = some target.containers[name]?

theorem Merges.unique {target target' : SaveSet} (h : Merges left right old target)
    (h' : Merges left right old target') : target = target' := by
  apply SaveSet.ext
  · rw [h.binding, h'.binding]
  · apply Std.ExtTreeMap.ext_getElem?
    intro name
    exact Option.some.inj ((h.each name).symm.trans (h'.each name))

theorem Merges.swap {target : SaveSet} (hright : right.binding = left.binding)
    (h : Merges left right old target) : Merges right left old target where
  binding := h.binding.trans hright.symm
  each name := (ThreeWay.merge_comm _ _ _).trans (h.each name)

/-- One side has taken the target over before the retry. -/
theorem Merges.retry {target : SaveSet} (h : Merges left right old target) :
    Merges target right old target where
  binding := rfl
  each name := ThreeWay.merge_retry (h.each name)

theorem Merges.settled (target old : SaveSet) : Merges target target old target where
  binding := rfl
  each _ := ThreeWay.merge_self _ _

theorem Merges.eq_left {target : SaveSet} (h : Merges left right old target)
    (heq : left.containers = right.containers) : target = left := by
  apply SaveSet.ext h.binding
  apply Std.ExtTreeMap.ext_getElem?
  intro name
  have hname := h.each name
  rw [SaveSet.mergedAt, mergedAt, heq, ThreeWay.merge_self] at hname
  rw [heq]
  exact (Option.some.inj hname).symm

theorem Merges.conflicts {target : SaveSet} (h : Merges left right old target) :
    (mergedSets left right old).conflicts = [] := by
  apply List.eq_nil_iff_forall_not_mem.mpr
  intro name hname
  have hnone := mem_mergedSets_conflicts.mp hname
  rw [h.each name] at hnone
  cases hnone

theorem Merges.target_eq {target : SaveSet} (h : Merges left right old target) :
    (mergedSets left right old).target = target.containers := by
  apply Std.ExtTreeMap.ext_getElem?
  intro name
  exact mergedSets_target (h.each name)

/-- The action of a merge, from whole-map comparisons. -/
def actionOf (left right target : SaveSet) : Action :=
  if left.containers = right.containers then .noop
  else if target.containers = right.containers then .importCloud
  else if target.containers = left.containers then .uploadLocal
  else .merge

/-- Where the merge exists, `decide` publishes it. -/
theorem decide_of_merges {target : SaveSet} (hright : right.binding = left.binding)
    (hold : old.binding = left.binding) (h : Merges left right old target) :
    ∃ d, Cloud.decide left.binding (some left) (some right) (some old) = .ok d ∧
      d.action = actionOf left right target ∧ d.target = some target ∧ d.conflicts = [] ∧
      ∀ s ∈ d.selections, s.digest = target.containers[s.name]? := by
  rw [decide_of_bindings hright hold]
  by_cases heq : left.containers = right.containers
  · rw [if_pos heq]
    refine ⟨_, rfl, ?_, ?_, rfl, ?_⟩
    · rw [actionOf, if_pos heq]
      rfl
    · rw [h.eq_left heq]
    · intro s hs
      obtain ⟨name, -, rfl⟩ := List.mem_map.mp hs
      rw [h.eq_left heq]
  · have hsize : ¬ target.containers.size > CONTAINER_LIMIT :=
      Nat.not_lt.mpr (SaveSet.check_eq_ok.mp target.checked).2.1
    have hcheck : SaveSet.check left.binding target.containers = .ok () := by
      rw [← h.binding]
      exact target.checked
    have htarget : (⟨left.binding, target.containers, hcheck⟩ : SaveSet) = target :=
      SaveSet.ext h.binding.symm rfl
    rw [if_neg heq, h.conflicts, if_neg (not_not_intro rfl), h.target_eq, if_neg hsize,
      SaveSet.new_eq_ok hcheck, htarget]
    refine ⟨_, rfl, ?_, rfl, rfl, ?_⟩
    · rw [actionOf, if_neg heq]
      rfl
    · intro s hs
      rcases foldl_mergeName_selections _ _ _ _ _ hs with hs | hs
      · cases hs
      · exact Option.some.inj (hs.symm.trans (h.each s.name))

/-- Where some name has no merge, `decide` names the conflicts and publishes nothing else. -/
theorem decide_of_conflict (hright : right.binding = left.binding)
    (hold : old.binding = left.binding)
    (h : ∃ name, SaveSet.mergedAt left right old name = none) :
    Cloud.decide left.binding (some left) (some right) (some old) =
      .ok { Decision.new .conflict "diverged" with
        conflicts := (mergedSets left right old).conflicts } := by
  obtain ⟨name, hname⟩ := h
  have hne : left.containers ≠ right.containers := by
    intro heq
    apply (ThreeWay.merge_eq_none.mp hname).1
    rw [heq]
  have hconflicts : (mergedSets left right old).conflicts ≠ [] :=
    List.ne_nil_of_mem (mem_mergedSets_conflicts.mpr hname)
  rw [decide_of_bindings hright hold, if_neg hne, if_pos hconflicts]

theorem decide_of_too_many (hright : right.binding = left.binding)
    (hold : old.binding = left.binding)
    (hmerged : ∀ name, SaveSet.mergedAt left right old name ≠ none)
    (hsize : (mergedSets left right old).target.size > CONTAINER_LIMIT) :
    Cloud.decide left.binding (some left) (some right) (some old) =
      .ok (.new .blocked "bounds") := by
  have hconflicts : (mergedSets left right old).conflicts = [] :=
    List.eq_nil_iff_forall_not_mem.mpr fun name hname =>
      hmerged name (mem_mergedSets_conflicts.mp hname)
  have hne : left.containers ≠ right.containers := by
    intro heq
    have hleft : (mergedSets left right old).target = left.containers := by
      apply Std.ExtTreeMap.ext_getElem?
      intro name
      apply mergedSets_target
      rw [SaveSet.mergedAt, mergedAt, heq, ThreeWay.merge_self]
    rw [hleft] at hsize
    have hle := (SaveSet.check_eq_ok.mp left.checked).2.1
    omega
  rw [decide_of_bindings hright hold, if_neg hne, hconflicts, if_neg (not_not_intro rfl),
    if_pos hsize]

/-- The entries of a merge come from the sides, so their names and digests are well formed. -/
theorem exists_merges
    (hmerged : ∀ name, SaveSet.mergedAt left right old name ≠ none)
    (hsize : (mergedSets left right old).target.size ≤ CONTAINER_LIMIT) :
    ∃ target, Merges left right old target := by
  have hentry (name : String) : SaveSet.mergedAt left right old name =
      some (mergedSets left right old).target[name]? := by
    cases h : SaveSet.mergedAt left right old name with
    | none => exact absurd h (hmerged name)
    | some digest => rw [mergedSets_target h]
  have hcheck : SaveSet.check left.binding (mergedSets left right old).target = .ok () := by
    refine SaveSet.check_eq_ok.mpr ⟨left.binding_hexDigest, hsize, fun name digest hname => ?_⟩
    have hmerge := hentry name
    rw [hname] at hmerge
    rcases ThreeWay.merge_mem hmerge with hside | hside
    · exact (SaveSet.check_eq_ok.mp left.checked).2.2 name digest hside.symm
    · exact (SaveSet.check_eq_ok.mp right.checked).2.2 name digest hside.symm
  exact ⟨⟨left.binding, _, hcheck⟩, ⟨rfl, hentry⟩⟩

/-- A conflict, a merge, or a merge with too many containers. -/
theorem decide_cases (left right old : SaveSet) :
    (∃ name, SaveSet.mergedAt left right old name = none) ∨
    (∃ target, Merges left right old target) ∨
    ((∀ name, SaveSet.mergedAt left right old name ≠ none) ∧
      (mergedSets left right old).target.size > CONTAINER_LIMIT) := by
  by_cases hconflict : ∃ name, SaveSet.mergedAt left right old name = none
  · exact Or.inl hconflict
  · have hmerged : ∀ name, SaveSet.mergedAt left right old name ≠ none :=
      fun name hname => hconflict ⟨name, hname⟩
    by_cases hsize : (mergedSets left right old).target.size > CONTAINER_LIMIT
    · exact Or.inr (Or.inr ⟨hmerged, hsize⟩)
    · exact Or.inr (Or.inl (exists_merges hmerged (Nat.not_lt.mp hsize)))

/-! ## Swapped sides -/

/-- The action seen from the other side. -/
def Action.mirror : Action → Action
  | .importCloud => .uploadLocal
  | .uploadLocal => .importCloud
  | action => action

theorem actionOf_swap (left right target : SaveSet) :
    actionOf right left target = (actionOf left right target).mirror := by
  unfold actionOf
  by_cases heq : left.containers = right.containers
  · rw [if_pos heq, if_pos heq.symm]
    rfl
  · rw [if_neg heq, if_neg (Ne.symm heq)]
    by_cases hr : target.containers = right.containers
    · have hl : target.containers ≠ left.containers := fun h => heq (h.symm.trans hr)
      rw [if_neg hl, if_pos hr, if_pos hr]
      rfl
    · by_cases hl : target.containers = left.containers
      · rw [if_pos hl, if_neg hr, if_pos hl]
        rfl
      · rw [if_neg hl, if_neg hr, if_neg hr, if_neg hl]
        rfl

theorem mergedAt_swap (left right old : SaveSet) (name : String) :
    SaveSet.mergedAt right left old name = SaveSet.mergedAt left right old name :=
  ThreeWay.merge_comm _ _ _

theorem mergedSets_conflicts_swap (left right old : SaveSet) :
    (mergedSets right left old).conflicts = (mergedSets left right old).conflicts := by
  rw [mergedSets_conflicts, mergedSets_conflicts, namesOf, namesOf, unionNames_comm]
  simp only [mergedAt_swap]

theorem mergedSets_target_swap
    (hmerged : ∀ name, SaveSet.mergedAt left right old name ≠ none) :
    (mergedSets right left old).target = (mergedSets left right old).target := by
  apply Std.ExtTreeMap.ext_getElem?
  intro name
  cases h : SaveSet.mergedAt left right old name with
  | none => exact absurd h (hmerged name)
  | some digest => rw [mergedSets_target h, mergedSets_target ((mergedAt_swap _ _ _ _).trans h)]

theorem actionOf_ne (left right target : SaveSet) :
    actionOf left right target ≠ .conflict ∧ actionOf left right target ≠ .blocked := by
  unfold actionOf
  split_ifs <;> exact ⟨nofun, nofun⟩

/-- The three kinds of decisions, read off the decision. -/
theorem decide_eq_cases (hright : right.binding = left.binding)
    (hold : old.binding = left.binding) {d : Decision}
    (hd : Cloud.decide left.binding (some left) (some right) (some old) = .ok d) :
    ((∃ name, SaveSet.mergedAt left right old name = none) ∧ d.action = .conflict ∧
      d.target = none ∧ d.selections = []) ∨
    (∃ target, Merges left right old target ∧ d.action = actionOf left right target ∧
      d.target = some target ∧ ∀ s ∈ d.selections, s.digest = target.containers[s.name]?) ∨
    ((∀ name, SaveSet.mergedAt left right old name ≠ none) ∧ d.action = .blocked ∧
      d.target = none) := by
  rcases decide_cases left right old with hconflict | ⟨target, h⟩ | ⟨hmerged, hsize⟩
  · rw [decide_of_conflict hright hold hconflict] at hd
    cases hd
    exact Or.inl ⟨hconflict, rfl, rfl, rfl⟩
  · obtain ⟨d', hd', haction, htarget, -, hselections⟩ := decide_of_merges hright hold h
    rw [hd'] at hd
    cases hd
    exact Or.inr (Or.inl ⟨target, h, haction, htarget, hselections⟩)
  · rw [decide_of_too_many hright hold hmerged hsize] at hd
    cases hd
    exact Or.inr (Or.inr ⟨hmerged, rfl, rfl⟩)

theorem decide_swap (hright : right.binding = left.binding) (hold : old.binding = left.binding) :
    ∃ d d', Cloud.decide left.binding (some left) (some right) (some old) = .ok d ∧
      Cloud.decide left.binding (some right) (some left) (some old) = .ok d' ∧
      d'.action = d.action.mirror ∧ d'.target = d.target ∧ d'.conflicts = d.conflicts := by
  have hold' : old.binding = right.binding := hold.trans hright.symm
  rw [← hright]
  rcases decide_cases left right old with hconflict | ⟨target, h⟩ | ⟨hmerged, hsize⟩
  · have hconflict' : ∃ name, SaveSet.mergedAt right left old name = none := by
      obtain ⟨name, hname⟩ := hconflict
      exact ⟨name, (mergedAt_swap _ _ _ _).trans hname⟩
    have hl := decide_of_conflict hright hold hconflict
    rw [← hright] at hl
    exact ⟨_, _, hl, decide_of_conflict hright.symm hold' hconflict', rfl, rfl,
      mergedSets_conflicts_swap left right old⟩
  · obtain ⟨d, hd, haction, htarget, hconflicts, -⟩ := decide_of_merges hright hold h
    obtain ⟨d', hd', haction', htarget', hconflicts', -⟩ :=
      decide_of_merges hright.symm hold' (h.swap hright)
    rw [← hright] at hd
    refine ⟨d, d', hd, hd', ?_, ?_, ?_⟩
    · rw [haction, haction', actionOf_swap]
    · rw [htarget, htarget']
    · rw [hconflicts, hconflicts']
  · have hmerged' : ∀ name, SaveSet.mergedAt right left old name ≠ none :=
      fun name hname => hmerged name ((mergedAt_swap _ _ _ _).symm.trans hname)
    have hsize' : (mergedSets right left old).target.size > CONTAINER_LIMIT := by
      rw [mergedSets_target_swap hmerged]
      exact hsize
    have hl := decide_of_too_many hright hold hmerged hsize
    rw [← hright] at hl
    exact ⟨_, _, hl, decide_of_too_many hright.symm hold' hmerged' hsize', rfl, rfl, rfl⟩

end

/-! ## The laws -/

theorem Merges.laws {left right old target : SaveSet} (h : Merges left right old target)
    (name : String) :
    (left.containers[name]? = right.containers[name]? →
      target.containers[name]? = left.containers[name]?) ∧
    (left.containers[name]? = old.containers[name]? →
      target.containers[name]? = right.containers[name]?) ∧
    (right.containers[name]? = old.containers[name]? →
      target.containers[name]? = left.containers[name]?) := by
  have hname := h.each name
  unfold SaveSet.mergedAt mergedAt at hname
  refine ⟨fun heq => ?_, fun heq => ?_, fun heq => ?_⟩
  · rw [← heq, ThreeWay.merge_self] at hname
    exact (Option.some.inj hname).symm
  · rw [heq, ThreeWay.merge_left_unchanged] at hname
    exact (Option.some.inj hname).symm
  · rw [heq, ThreeWay.merge_right_unchanged] at hname
    exact (Option.some.inj hname).symm

/-- Whatever `decide` does with three sets of a binding, it obeys the laws of a three-way merge. -/
theorem decide_three_way (left right old : SaveSet) (hright : right.binding = left.binding)
    (hold : old.binding = left.binding) :
    ∃ d, Cloud.decide left.binding (some left) (some right) (some old) = .ok d ∧
      (d.action ≠ .conflict → d.action ≠ .blocked →
        ∃ t, d.target = some t ∧ t.binding = left.binding ∧
          (∀ s ∈ d.selections, s.digest = t.containers[s.name]?) ∧
          ∀ name : String,
            (left.containers[name]? = right.containers[name]? →
              t.containers[name]? = left.containers[name]?) ∧
            (left.containers[name]? = old.containers[name]? →
              t.containers[name]? = right.containers[name]?) ∧
            (right.containers[name]? = old.containers[name]? →
              t.containers[name]? = left.containers[name]?)) ∧
      (d.action = .conflict ↔ ∃ name : String,
        left.containers[name]? ≠ right.containers[name]? ∧
        left.containers[name]? ≠ old.containers[name]? ∧
        right.containers[name]? ≠ old.containers[name]?) ∧
      (d.action = .conflict → d.target = none ∧ d.selections = []) ∧
      (∃ d', Cloud.decide left.binding (some right) (some left) (some old) = .ok d' ∧
        d'.action = d.action.mirror ∧ d'.target = d.target ∧ d'.conflicts = d.conflicts) ∧
      (∀ t, d.target = some t →
        (∃ d₁, Cloud.decide left.binding (some t) (some right) (some old) = .ok d₁ ∧
          d₁.target = some t) ∧
        (∃ d₂, Cloud.decide left.binding (some left) (some t) (some old) = .ok d₂ ∧
          d₂.target = some t) ∧
        (∃ d₃, Cloud.decide left.binding (some t) (some t) (some old) = .ok d₃ ∧
          d₃.action = .noop ∧ d₃.target = some t)) := by
  -- Each part below is read off the three ways a decision ends: conflict, target, too large.
  obtain ⟨d, d', hd, hd', hswap⟩ := decide_swap hright hold
  refine ⟨d, hd, ?_, ?_, ?_, ⟨d', hd', hswap⟩, ?_⟩
  · intro hnoconflict hnoblocked
    rcases decide_eq_cases hright hold hd with ⟨-, h, -⟩ | ⟨t, h, -, ht, hs⟩ | ⟨-, h, -⟩
    · exact absurd h hnoconflict
    · exact ⟨t, ht, h.binding, hs, h.laws⟩
    · exact absurd h hnoblocked
  · constructor
    · intro hconflict
      rcases decide_eq_cases hright hold hd with ⟨⟨name, h⟩, -⟩ | ⟨t, -, h, -⟩ | ⟨-, h, -⟩
      · exact ⟨name, ThreeWay.merge_eq_none.mp h⟩
      · exact absurd (h.symm.trans hconflict) (actionOf_ne _ _ _).1
      · rw [h] at hconflict
        cases hconflict
    · rintro ⟨name, hname⟩
      have hnone := ThreeWay.merge_eq_none.mpr hname
      rcases decide_eq_cases hright hold hd with ⟨-, h, -⟩ | ⟨t, h, -⟩ | ⟨h, -⟩
      · exact h
      · cases hnone.symm.trans (h.each name)
      · exact absurd hnone (h name)
  · intro hconflict
    rcases decide_eq_cases hright hold hd with ⟨-, -, h⟩ | ⟨t, -, h, -⟩ | ⟨-, h, -⟩
    · exact h
    · exact absurd (h.symm.trans hconflict) (actionOf_ne _ _ _).1
    · rw [h] at hconflict
      cases hconflict
  · intro t ht
    rcases decide_eq_cases hright hold hd with ⟨-, -, h, -⟩ | ⟨t', h, -, ht', -⟩ | ⟨-, -, h⟩
    · rw [h] at ht
      cases ht
    · rw [ht'] at ht
      cases ht
      have hbinding : t.binding = left.binding := h.binding
      refine ⟨?_, ?_, ?_⟩
      · obtain ⟨d₁, hd₁, -, ht₁, -⟩ := decide_of_merges (hright.trans hbinding.symm)
          (hold.trans hbinding.symm) h.retry
        exact ⟨d₁, hbinding ▸ hd₁, ht₁⟩
      · -- the law for the other side by swapping, replaying and swapping back
        have h₂ : Merges left t old t := (((h.swap hright).retry).swap (hbinding.symm))
        obtain ⟨d₂, hd₂, -, ht₂, -⟩ := decide_of_merges hbinding hold h₂
        exact ⟨d₂, hd₂, ht₂⟩
      · obtain ⟨d₃, hd₃, haction, ht₃, -⟩ := decide_of_merges rfl (hold.trans hbinding.symm)
          (Merges.settled t old)
        refine ⟨d₃, hbinding ▸ hd₃, ?_, ht₃⟩
        rw [haction, actionOf, if_pos rfl]
    · rw [h] at ht
      cases ht

/-- A digest whose digits are all the same. -/
def repeatedDigest (c : Char) : String := String.ofList (List.replicate 64 c)

def pairSet (a b : Char) : TextMap String :=
  ((∅ : TextMap String).insert "a" (repeatedDigest a)).insert "b" (repeatedDigest b)

def disjointOld : SaveSet := ⟨repeatedDigest 'a', pairSet '0' '0', by decide +kernel⟩

def disjointLocal : SaveSet := ⟨repeatedDigest 'a', pairSet '1' '0', by decide +kernel⟩

def disjointRemote : SaveSet := ⟨repeatedDigest 'a', pairSet '0' '2', by decide +kernel⟩

theorem decide_three_way_disjoint :
    ∃ d, Cloud.decide (repeatedDigest 'a') (some disjointLocal) (some disjointRemote)
        (some disjointOld) = .ok d ∧
      (d.action = .conflict → d.target = none ∧ d.selections = []) := by
  obtain ⟨d, hd, -, -, hconflict, -⟩ :=
    decide_three_way disjointLocal disjointRemote disjointOld rfl rfl
  exact ⟨d, hd, hconflict⟩

end Flightdeck.Cloud
