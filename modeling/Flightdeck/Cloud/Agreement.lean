import Flightdeck.Cloud.ImportRestore

/-!
# Decisions and their execution

The policy compares save sets, a plan compares the same digests once more, and an import takes
containers by the plan.  They agree: a plan leaves open exactly the conflicts of the decision, and
what an import writes has the save set that the decision published.
-/

namespace Flightdeck.Cloud.Flow

open Foundation SaveState Session

/-! ## Plans -/

section

variable {left right old : TextMap String} {name : String}

theorem planAction_conflict :
    Import.planAction left right (some old) name = .conflict ↔
      mergedAt left right old name = none := by
  have hbind : (some old).bind (·[name]?) = old[name]? := rfl
  unfold mergedAt
  rw [ThreeWay.merge_eq_none]
  simp only [Import.planAction, hbind, Option.isSome_some, Option.isNone_some, Bool.true_and,
    Bool.false_and, Bool.or_false, beq_iff_eq]
  split_ifs <;> simp_all

theorem plan_conflicts (names : List String) :
    ((names.map fun name => ({
        name, action := Import.planAction left right (some old) name,
        «local» := left[name]?.isSome, remote := right[name]?.isSome } : Import.Decision)).filter
      fun d => d.action = .conflict).map Import.Decision.name =
    names.filter fun name => mergedAt left right old name = none := by
  induction names with
  | nil => rfl
  | cons first names ih =>
    by_cases h : mergedAt left right old first = none
    · rw [List.map_cons, List.filter_cons_of_pos (by simpa using planAction_conflict.mpr h),
        List.filter_cons_of_pos (by simpa using h), List.map_cons, ih]
    · rw [List.map_cons, List.filter_cons_of_neg (by simpa using mt planAction_conflict.mp h),
        List.filter_cons_of_neg (by simpa using h), ih]

end

/-! ## Selections -/

section

variable {«local» remote : State}

/-- The side that a decision takes its container from. -/
def side («local» remote : State) (action : Import.PlanAction) : State :=
  if action = .cloud then remote else «local»

end

section

variable [Sha256]

section

variable {scope : Scope} {«local» remote selected : State} {plan : Import.Plan}
  {left right : TextMap String} {old : TextMap String}

end

/-! ## The target of a decision -/

/-- The local state has the save set of the decision, so that a session can begin. -/
def AtTarget (scope : Scope) (decision : Decision) (d : Disk) : Prop :=
  ∃ e, exportFrom scope d = .ok e ∧ assertTarget scope e decision = .ok ()

section

variable {scope : Scope} {decision : Decision} {disk d : Disk} {«namespace» : String} {s : State}
  {target : SaveSet}

end

/-! ## Imports that must be durable -/

section

variable {service : Service} {scope : Scope} {disk : Disk} {plan : Import.Plan}
  {choice : Import.Choice}

end

/-! ## What `before` decides about -/

/-- The comparison, with the save sets of the sides. -/
structure Sides (scope : Scope) (disk : Disk) (i : Inputs) (decision : Decision)
    (left right : SaveSet) : Prop where
  named : ∃ «namespace», scope.namespace = .ok «namespace»
  «local» : disk.state = .ok (disk.stateBin, i.local)
  remote : ∃ v, Import.snapshot disk.snapshots scope.binding i.plan.snapshot = .ok v ∧
    v.state = i.remote
  leftSet : left.binding = scope.binding ∧ Digests i.local left.containers
  rightSet : right.binding = scope.binding ∧ Digests i.remote right.containers
  decisions : i.plan.decisions =
    Import.decisions left.containers right.containers (i.baseline.map (·.containers))
  first : i.baseline = none →
    Cloud.decide scope.binding (some left) (some right) none = .ok decision
  later : ∀ b, i.baseline = some b → ∃ old : SaveSet, old.binding = scope.binding ∧
    old.containers = b.containers ∧
    Cloud.decide scope.binding (some left) (some right) (some old) = .ok decision

section

variable {service : Service} {scope : Scope} {disk : Disk} {i : Inputs} {decision : Decision}
  {left right : SaveSet}

theorem Sides.conflicts (h : Sides scope disk i decision left right) {b : Import.Baseline}
    (hb : i.baseline = some b) : decision.conflicts = i.plan.conflicts ∧
      (decision.action = .conflict ↔ i.plan.conflicts ≠ []) := by
  obtain ⟨old, holdBinding, holdContainers, hdecide⟩ := h.later b hb
  rw [← h.leftSet.1] at hdecide
  have hright : right.binding = left.binding := h.rightSet.1.trans h.leftSet.1.symm
  have hold : old.binding = left.binding := holdBinding.trans h.leftSet.1.symm
  have hplan : i.plan.conflicts = (mergedSets left right old).conflicts := by
    rw [Import.Plan.conflicts, h.decisions, hb, Option.map_some, ← holdContainers,
      Import.decisions, plan_conflicts, mergedSets_conflicts]
    rfl
  rw [hplan]
  rcases decide_cases left right old with hconflict | ⟨target, hmerges⟩ | ⟨hmerged, hsize⟩
  · rw [decide_of_conflict hright hold hconflict] at hdecide
    obtain ⟨name, hname⟩ := hconflict
    have hmem := mem_mergedSets_conflicts.mpr hname
    cases hdecide
    exact ⟨rfl, fun _ => List.ne_nil_of_mem hmem, fun _ => rfl⟩
  · obtain ⟨d, hd, haction, -, hnone, -⟩ := decide_of_merges hright hold hmerges
    obtain rfl := Except.ok.inj (hd.symm.trans hdecide)
    rw [hnone, hmerges.conflicts, haction]
    exact ⟨rfl, fun hc => absurd hc (actionOf_ne _ _ _).1, fun hne => absurd rfl hne⟩
  · rw [decide_of_too_many hright hold hmerged hsize] at hdecide
    have hnone : (mergedSets left right old).conflicts = [] :=
      List.eq_nil_iff_forall_not_mem.mpr fun name hname =>
        hmerged name (mem_mergedSets_conflicts.mp hname)
    cases hdecide
    rw [hnone]
    exact ⟨rfl, fun hc => (nomatch hc), fun hne => absurd rfl hne⟩

end

end

section

local instance : Sha256 := standardSha256

end

end Flightdeck.Cloud.Flow
