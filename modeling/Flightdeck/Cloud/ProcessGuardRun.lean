import Flightdeck.Cloud.ProcessGuard

/-!
# What the fence guards

A fence of the current boot is taken away only after a scan that found nothing, and what `check`
guards runs only while there is none.  A scan that found nothing also means that nothing of the
session is left, unless a process was started behind it.
-/

namespace Flightdeck.Cloud.ProcessGuard

open Foundation

/-! ## What is asked of the history -/

/-- A fence of the boot is taken away by `clear` or `recover` right after a scan of its own, which
found nothing while the same fence was there. -/
def Allowed (older : List Event) : Event → Prop
  | .scanned .. => True
  | .removed purpose fence boot => fence.boot = boot → ∃ sweeper rest,
      purpose = some sweeper ∧ older = .scanned sweeper (some fence.identity) [] :: rest

/-! ## The invariant -/

/-- Whatever is alive is going to be looked at. -/
def Scan.Covers (scan : Scan) (s : State) : Prop :=
  ∀ p ∈ s.processes, p.pid ∈ scan.pending ∨ scan.complete = false ∧ scan.listed ≤ p.pid

/-- Nothing of the session is left, as far as no process was missed. -/
def State.Quiet (s : State) : Prop := s.missed = false → s.processes = []

def State.Scanned (s : State) (purpose : Purpose) : Prop :=
  ∃ rest, s.history = .scanned purpose s.identity [] :: rest

def Place.Sound (s : State) (purpose : Purpose) (identity value : Option Nat) : Place → Prop
  | .quiescent true scan => s.record = value ∧ s.identity = identity ∧
      (s.missed = false → scan.writers = [] → scan.Covers s)
  | .recheck => s.record = value ∧ s.identity = identity ∧ s.Scanned purpose ∧ s.Quiet
  | .remove => s.Scanned purpose ∧ s.Quiet
  | .sync => s.fence = none ∧ s.Quiet
  | _ => s.record = value ∧ s.identity = identity

def Stage.Sound (s : State) : Stage → Prop
  | .resting => True
  | .reread previous => previous ≠ s.boot
  | .removeOld previous => previous ≠ s.boot ∧ s.record = some previous
  | .write previous => previous ≠ some s.boot
  | .publish _ => True
  | .published => s.record = some s.boot
  | .sweep purpose identity value place => place.Sound s purpose identity value

structure Job.Sound (s : State) (job : Job) : Prop where
  guarded : job.guarded = true → s.record ≠ some s.boot
  marked : job.marked = true → s.record = some s.boot
  resting : job.marked = true → job.stage = .resting
  stage : job.stage.Sound s

structure Inv (s : State) : Prop where
  history : EachStep Allowed s.history
  fenced : s.missed = false → s.processes ≠ [] → s.record = some s.boot
  job : ∀ job, s.job = some job → job.Sound s

variable {s s' : State}

/-! ## Steps of the job -/

/-- While no fence of the boot is there, nothing of the session is left. -/
theorem Inv.quiet (h : Inv s) (hrecord : s.record ≠ some s.boot) : s.Quiet := by
  intro hmissed
  by_contra hprocesses
  exact hrecord (h.fenced hmissed hprocesses)

/-- The job goes on to a stage, and nothing else changes. -/
theorem Inv.at (h : Inv s) {stage : Stage} (hstage : stage.Sound s) : Inv (s.at stage) where
  history := h.history
  fenced := h.fenced
  job := by
    intro job hjob
    cases hjob
    exact ⟨nofun, nofun, nofun, by cases stage <;> exact hstage⟩

theorem Inv.guard (h : Inv s) (hrecord : s.record ≠ some s.boot) :
    Inv { s with job := some { guarded := true } } where
  history := h.history
  fenced := h.fenced
  job := by
    intro job hjob
    cases hjob
    exact ⟨fun _ => hrecord, nofun, nofun, trivial⟩

theorem Inv.beginCheck (h : Inv s) : Inv (beginCheck s) := by
  unfold ProcessGuard.beginCheck
  cases hrecord : s.record with
  | none => exact h.guard (by rw [hrecord]; nofun)
  | some previous =>
    show Inv (if previous = s.boot then _ else _)
    by_cases hboot : previous = s.boot
    · rw [if_pos hboot]
      exact h.at trivial
    · rw [if_neg hboot]
      exact h.at hboot

theorem Inv.beginMark (h : Inv s) : Inv (beginMark s) := by
  unfold ProcessGuard.beginMark
  by_cases hrecord : s.record = some s.boot
  · rw [if_pos hrecord]
    refine ⟨h.history, h.fenced, ?_⟩
    intro job hjob
    cases hjob
    exact ⟨nofun, fun _ => hrecord, fun _ => rfl, trivial⟩
  · rw [if_neg hrecord]
    exact h.at hrecord

theorem Inv.beginSweep (h : Inv s) (purpose : Purpose) : Inv (beginSweep s purpose) := by
  unfold ProcessGuard.beginSweep
  by_cases hrefused : purpose = .clear ∧ s.record ≠ some s.boot
  · rw [if_pos hrefused]
    exact h.at trivial
  · rw [if_neg hrefused]
    exact h.at ⟨rfl, rfl⟩

theorem record_of_fence {fence : Fence} (h : s.fence = some fence) :
    s.record = some fence.boot ∧ s.identity = some fence.identity := by
  rw [State.record, State.identity, h]
  exact ⟨rfl, rfl⟩

/-- A fence is taken away while nothing of the session is left. -/
theorem Inv.unlink (h : Inv s) (hquiet : s.Quiet) {purpose : Option Purpose}
    (hallowed : ∀ fence, s.fence = some fence →
      Allowed s.history (.removed purpose fence s.boot)) {job : Job}
    (hjob : job.Sound { s.unlink purpose with job := some job }) :
    Inv { s.unlink purpose with job := some job } where
  history := by
    show EachStep Allowed ((s.fence.map _).toList ++ s.history)
    cases hfence : s.fence with
    | none => exact h.history
    | some fence => exact ⟨hallowed fence hfence, h.history⟩
  fenced := fun hmissed hprocesses => absurd (hquiet hmissed) hprocesses
  job := by
    intro job' hjob'
    cases hjob'
    exact hjob

/-- A done scan that has found nothing has looked at everything. -/
theorem quiet_of_covers {scan : Scan} (hdone : scan.done = true) (h : scan.Covers s) :
    s.processes = [] := by
  obtain ⟨hcomplete, hpending⟩ := (Bool.and_eq_true _ _).mp hdone
  apply List.eq_nil_iff_forall_not_mem.mpr
  intro p hp
  cases h p hp with
  | inl hmem =>
    rw [List.isEmpty_iff.mp hpending] at hmem
    cases hmem
  | inr hlisted =>
    rw [hcomplete] at hlisted
    cases hlisted.1

/-- A scan that has not begun. -/
theorem fresh_sound {purpose : Purpose} {last : Bool} {identity value : Option Nat}
    (hrecord : s.record = value) (hidentity : s.identity = identity) :
    (Place.quiescent last {}).Sound s purpose identity value := by
  cases last with
  | true => exact ⟨hrecord, hidentity, fun _ _ p _ => .inr ⟨rfl, Nat.zero_le _⟩⟩
  | false => exact ⟨hrecord, hidentity⟩

/-- The end of a scan of `quiescent`. -/
theorem Inv.scanned (h : Inv s) {purpose : Purpose} {identity value : Option Nat} {last : Bool}
    {scan : Scan} (hsound : (Place.quiescent last scan).Sound s purpose identity value)
    (hstep : sweepStep s purpose identity value (.quiescent last scan) = some s') : Inv s' := by
  simp only [ProcessGuard.sweepStep] at hstep
  by_cases hdone : scan.done = true
  · rw [if_pos hdone] at hstep
    have hnext : Inv { s with
        history := .scanned purpose s.identity scan.writers :: s.history, job := none } :=
      ⟨⟨trivial, h.history⟩, h.fenced, nofun⟩
    by_cases hfound : scan.writers ≠ []
    · rw [if_pos hfound] at hstep
      cases hstep
      exact hnext.at trivial
    · rw [if_neg hfound] at hstep
      have hnone : scan.writers = [] := not_not.mp hfound
      cases last with
      | false =>
        cases hstep
        exact hnext.at hsound
      | true =>
        obtain ⟨hrecord, hidentity, hcovers⟩ := hsound
        cases hstep
        refine hnext.at ⟨hrecord, hidentity, ⟨s.history, ?_⟩, ?_⟩
        · rw [hnone]
          rfl
        · exact fun hmissed => quiet_of_covers hdone (hcovers hmissed hnone)
  · rw [if_neg hdone] at hstep
    cases hstep

/-- The place after a scan of `terminate` asks only that the fence is still the same. -/
theorem terminated_sound {purpose : Purpose} {again : Bool} {writers : List Process} {place : Place}
    {identity value : Option Nat} (hplace : terminated purpose again writers = some place)
    (hrecord : s.record = value) (hidentity : s.identity = identity) :
    place.Sound s purpose identity value := by
  unfold terminated at hplace
  by_cases happlication : purpose = .clear ∧ writers.any Process.application
  · rw [if_pos happlication] at hplace
    cases hplace
  · rw [if_neg happlication] at hplace
    by_cases hconfirmed : writers.any Process.confirmed
    · rw [if_pos hconfirmed] at hplace
      cases hplace
      exact ⟨hrecord, hidentity⟩
    · rw [if_neg hconfirmed] at hplace
      cases hplace
      exact fresh_sound hrecord hidentity

theorem Inv.sweepStep (h : Inv s) {purpose : Purpose} {identity value : Option Nat} {place : Place}
    (hsound : place.Sound s purpose identity value)
    (hstep : sweepStep s purpose identity value place = some s') : Inv s' := by
  cases place with
  | terminate again scan =>
    obtain ⟨hrecord, hidentity⟩ := hsound
    simp only [ProcessGuard.sweepStep] at hstep
    by_cases hdone : scan.done = true
    · rw [if_pos hdone] at hstep
      cases hplace : terminated purpose again scan.writers with
      | none =>
        rw [hplace] at hstep
        cases hstep
        exact h.at trivial
      | some place =>
        rw [hplace] at hstep
        cases hstep
        exact h.at (terminated_sound hplace hrecord hidentity)
    · rw [if_neg hdone] at hstep
      cases hstep
  | wait again =>
    obtain ⟨hrecord, hidentity⟩ := hsound
    cases again with
    | true =>
      cases hstep
      exact h.at (fresh_sound hrecord hidentity)
    | false =>
      cases hstep
      exact h.at ⟨hrecord, hidentity⟩
  | quiescent last scan => exact h.scanned hsound hstep
  | backup =>
    obtain ⟨hrecord, hidentity⟩ := hsound
    have hfresh : (Place.quiescent true {}).Sound s purpose identity value :=
      fresh_sound hrecord hidentity
    cases hstep
    exact h.at hfresh
  | recheck =>
    obtain ⟨hrecord, hidentity, hscanned, hquiet⟩ := hsound
    simp only [ProcessGuard.sweepStep, if_pos (And.intro hrecord hidentity)] at hstep
    by_cases hvalue : value.isSome = true
    · rw [if_pos hvalue] at hstep
      cases hstep
      exact h.at ⟨hscanned, hquiet⟩
    · rw [if_neg hvalue] at hstep
      cases hstep
      exact h.at trivial
  | remove =>
    obtain ⟨⟨rest, hscanned⟩, hquiet⟩ := hsound
    cases hstep
    apply h.unlink hquiet
    · intro fence hfence _
      rw [(record_of_fence hfence).2] at hscanned
      exact ⟨purpose, rest, rfl, hscanned⟩
    · exact ⟨nofun, nofun, nofun, rfl, hquiet⟩
  | sync =>
    obtain ⟨hfence, _⟩ := hsound
    cases hstep
    refine ⟨h.history, h.fenced, ?_⟩
    intro job hjob
    cases hjob
    exact ⟨fun _ => by rw [State.record, hfence]; nofun, nofun, nofun, trivial⟩

/-! ## Steps of the operations -/

theorem Inv.proceed (h : Inv s) {stage : Stage} (hsound : stage.Sound s)
    (hstep : proceed s stage = some s') : Inv s' := by
  cases stage with
  | resting => cases hstep
  | reread previous =>
    simp only [ProcessGuard.proceed] at hstep
    by_cases hrecord : s.record = some previous
    · rw [if_pos hrecord] at hstep
      cases hstep
      exact h.at ⟨hsound, hrecord⟩
    · rw [if_neg hrecord] at hstep
      cases hstep
      exact h.at trivial
  | removeOld previous =>
    obtain ⟨hold, hrecord⟩ := hsound
    have hother : s.record ≠ some s.boot := by
      rw [hrecord]
      exact fun hsame => hold (Option.some.inj hsame)
    cases hstep
    apply h.unlink (h.quiet hother)
    · intro fence hfence hboot
      rw [(record_of_fence hfence).1, hboot] at hother
      exact absurd rfl hother
    · exact ⟨fun _ => nofun, nofun, nofun, trivial⟩
  | write previous =>
    simp only [ProcessGuard.proceed] at hstep
    by_cases hrecord : s.record = previous
    · rw [if_pos hrecord] at hstep
      cases hstep
      exact h.at trivial
    · rw [if_neg hrecord] at hstep
      cases hstep
      exact h.at trivial
  | publish previous =>
    simp only [ProcessGuard.proceed] at hstep
    by_cases hthere : previous = none ∧ s.fence ≠ none
    · rw [if_pos hthere] at hstep
      cases hstep
      exact h.at trivial
    · rw [if_neg hthere] at hstep
      cases hstep
      refine ⟨h.history, fun _ _ => rfl, ?_⟩
      intro job hjob
      cases hjob
      exact ⟨nofun, nofun, nofun, rfl⟩
  | published =>
    cases hstep
    refine ⟨h.history, h.fenced, ?_⟩
    intro job hjob
    cases hjob
    exact ⟨nofun, fun _ => hsound, fun _ => rfl, trivial⟩
  | sweep purpose identity value place => exact h.sweepStep hsound hstep

/-! ## Steps of a scan -/

/-- A stage with another scan that covers no less. -/
theorem sound_setScan {stage : Stage} {scan scan' : Scan} (hscan : stage.scan = some scan)
    (hsound : stage.Sound s) (hwriters : scan'.writers = [] → scan.writers = [])
    (hcovers : scan'.writers = [] → scan.Covers s → scan'.Covers s) :
    (stage.setScan scan').Sound s := by
  cases stage with
  | sweep purpose identity value place =>
    cases place with
    | terminate again scan => exact hsound
    | quiescent last found =>
      cases hscan
      cases last with
      | false => exact hsound
      | true =>
        obtain ⟨hrecord, hidentity, hfound⟩ := hsound
        refine ⟨hrecord, hidentity, fun hmissed hnone => ?_⟩
        exact hcovers hnone (hfound hmissed (hwriters hnone))
    | _ => cases hscan
  | _ => cases hscan

theorem covers_list {scan : Scan} {upto : Option Pid} (h : scan.Covers s) :
    (scan.list s upto).Covers s := by
  intro p hp
  show p.pid ∈ scan.pending ++ _ ∨ upto.isNone = false ∧ max scan.listed (upto.getD 0) ≤ p.pid
  cases h p hp with
  | inl hmem => exact .inl (List.mem_append_left _ hmem)
  | inr hlisted =>
    by_cases hrow : upto.all (p.pid < ·) = true
    · apply Or.inl
      apply List.mem_append_right
      rw [List.mem_filter, Bool.and_eq_true, decide_eq_true_eq]
      exact ⟨List.mem_map_of_mem hp, hlisted.2, hrow⟩
    · cases upto with
      | none => exact absurd rfl hrow
      | some pid =>
        have hle : pid ≤ p.pid := by
          rw [Option.all_some, decide_eq_true_eq] at hrow
          exact Nat.le_of_not_lt hrow
        exact .inr ⟨rfl, max_le hlisted.2 hle⟩

/-- A process that is not found at its number is not alive. -/
theorem ne_of_find_none {pid : Pid} (h : s.find pid = none) {p : Process}
    (hp : p ∈ s.processes) : p.pid ≠ pid := by
  have hnone := List.find?_eq_none.mp h p hp
  intro hsame
  exact hnone (beq_iff_eq.mpr hsame)

theorem covers_inspect {scan : Scan} (hnone : (scan.inspect s).writers = [])
    (h : scan.Covers s) : (scan.inspect s).Covers s := by
  unfold Scan.inspect at hnone ⊢
  cases hpending : scan.pending with
  | nil => exact h
  | cons pid pending =>
    rw [hpending] at hnone
    obtain ⟨_, hfind⟩ := List.append_eq_nil_iff.mp hnone
    have hgone : s.find pid = none := Option.toList_eq_nil_iff.mp hfind
    intro p hp
    cases h p hp with
    | inl hmem =>
      rw [hpending] at hmem
      exact .inl ((List.mem_cons.mp hmem).resolve_left (ne_of_find_none hgone hp))
    | inr hlisted => exact .inr hlisted

theorem writers_inspect {scan : Scan} (h : (scan.inspect s).writers = []) : scan.writers = [] := by
  unfold Scan.inspect at h
  cases hpending : scan.pending with
  | nil =>
    rw [hpending] at h
    exact h
  | cons pid pending =>
    rw [hpending] at h
    exact (List.append_eq_nil_iff.mp h).1

/-! ## Steps of the processes -/

/-- The processes change; a stage of the job asks no more than before. -/
theorem Inv.processes (h : Inv s) {processes : List Process} {missed : Bool}
    (hmissed : missed = false → s.missed = false)
    (hfenced : missed = false → processes ≠ [] → s.record = some s.boot)
    (hquiet : missed = false → s.processes = [] → processes = [])
    (hcovers : missed = false → ∀ job scan, s.job = some job → job.stage.lastScan = some scan →
      scan.Covers s → scan.Covers { s with processes, missed }) :
    Inv { s with processes, missed } where
  history := h.history
  fenced := hfenced
  job := by
    intro job hjob
    obtain ⟨hguarded, hmarked, hresting, hstage⟩ := h.job job hjob
    refine ⟨hguarded, hmarked, hresting, ?_⟩
    have hkeeps : s.Quiet → State.Quiet { s with processes, missed } :=
      fun hq hm => hquiet hm (hq (hmissed hm))
    cases hcase : job.stage with
    | sweep purpose identity value place =>
      rw [hcase] at hstage
      cases place with
      | quiescent last scan =>
        cases last with
        | false => exact hstage
        | true =>
          obtain ⟨hrecord, hidentity, hfound⟩ := hstage
          refine ⟨hrecord, hidentity, fun hm hnone => ?_⟩
          apply hcovers hm job scan hjob _ (hfound (hmissed hm) hnone)
          rw [hcase, Stage.lastScan, if_pos hnone]
      | recheck =>
        obtain ⟨hrecord, hidentity, hscanned, hq⟩ := hstage
        exact ⟨hrecord, hidentity, hscanned, hkeeps hq⟩
      | remove => exact ⟨hstage.1, hkeeps hstage.2⟩
      | sync => exact ⟨hstage.1, hkeeps hstage.2⟩
      | _ => exact hstage
    | _ =>
      rw [hcase] at hstage
      exact hstage

theorem Inv.spawn (h : Inv s) {child : Process} (hmarked : s.job.any (·.marked) = true) :
    Inv { s with processes := child :: s.processes } := by
  obtain ⟨job, hjob, hmark⟩ := (Option.any_eq_true _ _).mp hmarked
  have hsound := h.job job hjob
  refine ⟨h.history, fun _ _ => hsound.marked hmark, ?_⟩
  intro job' hjob'
  cases hjob.symm.trans hjob'
  refine ⟨hsound.guarded, hsound.marked, hsound.resting, ?_⟩
  rw [hsound.resting hmark]
  trivial

theorem Inv.fork (h : Inv s) {parent : Pid} {child : Process} (hparent : s.find parent ≠ none) :
    Inv { s with
      processes := child :: s.processes, missed := s.missed || s.behind child.pid } := by
  have hsome : s.processes ≠ [] := by
    intro hnone
    rw [State.find, hnone] at hparent
    exact hparent rfl
  have hold : (s.missed || s.behind child.pid) = false → s.missed = false :=
    fun hm => (Bool.or_eq_false_iff.mp hm).1
  apply h.processes hold
  · exact fun hm _ => h.fenced (hold hm) hsome
  · exact fun _ hnone => absurd hnone hsome
  · intro hm job scan hjob hlast hcovers p hp
    cases List.mem_cons.mp hp with
    | inr hmem => exact hcovers p hmem
    | inl hchild =>
      have hbehind := (Bool.or_eq_false_iff.mp hm).2
      rw [State.behind, hjob] at hbehind
      simp only [Option.bind_some, hlast, Bool.or_eq_false_iff, decide_eq_false_iff_not,
        not_lt] at hbehind
      rw [hchild]
      exact .inr hbehind

theorem Inv.exec (h : Inv s) (changed : Process) :
    Inv { s with
      processes := s.processes.map fun p => if p.pid = changed.pid then changed else p } := by
  have hpid : ∀ p : Process, (if p.pid = changed.pid then changed else p).pid = p.pid := by
    intro p
    by_cases hsame : p.pid = changed.pid
    · rw [if_pos hsame, hsame]
    · rw [if_neg hsame]
  apply h.processes id
  · exact fun hm hsome => h.fenced hm fun hnone => hsome (by rw [hnone]; rfl)
  · exact fun _ hnone => by rw [hnone]; rfl
  · intro _ job scan _ _ hcovers p hp
    obtain ⟨p', hp', rfl⟩ := List.mem_map.mp hp
    rw [hpid]
    exact hcovers p' hp'

theorem Inv.exit (h : Inv s) (pid : Pid) :
    Inv { s with processes := s.processes.filter (·.pid ≠ pid) } := by
  apply h.processes id
  · exact fun hm hsome => h.fenced hm fun hnone => hsome (by rw [hnone]; rfl)
  · exact fun _ hnone => by rw [hnone]; rfl
  · exact fun _ job scan _ _ hcovers p hp => hcovers p (List.mem_of_mem_filter hp)

theorem Inv.reboot (h : Inv s) {kept : Option Fence} :
    Inv { s with
      boot := s.boot + 1, fence := kept, processes := [], job := none, missed := false } :=
  ⟨h.history, fun _ hsome => absurd rfl hsome, nofun⟩

/-! ## Every run -/

theorem Inv.step (h : Inv s) {action : Action} (hstep : step s action = some s') : Inv s' := by
  cases action with
  | acquire =>
    simp only [ProcessGuard.step] at hstep
    split at hstep
    · cases hstep
      exact h.at trivial
    · cases hstep
  | leave =>
    cases hstep
    exact ⟨h.history, h.fenced, nofun⟩
  | reboot kept =>
    simp only [ProcessGuard.step] at hstep
    split at hstep
    · cases hstep
      exact h.reboot
    · cases hstep
  | check =>
    simp only [ProcessGuard.step] at hstep
    split at hstep
    · cases hstep
      exact h.beginCheck
    · cases hstep
  | mark =>
    simp only [ProcessGuard.step] at hstep
    split at hstep
    · cases hstep
      exact h.beginMark
    · cases hstep
  | clear =>
    simp only [ProcessGuard.step] at hstep
    split at hstep
    · cases hstep
      exact h.beginSweep .clear
    · cases hstep
  | recover =>
    simp only [ProcessGuard.step] at hstep
    split at hstep
    · cases hstep
      exact h.beginSweep .recover
    · cases hstep
  | proceed =>
    obtain ⟨job, hjob, hproceed⟩ := Option.bind_eq_some_iff.mp hstep
    exact h.proceed (h.job job hjob).stage hproceed
  | fail =>
    simp only [ProcessGuard.step] at hstep
    split at hstep
    · cases hstep
      exact h.at trivial
    · cases hstep
  | list upto =>
    obtain ⟨job, hjob, hrows⟩ := Option.bind_eq_some_iff.mp hstep
    obtain ⟨scan, hscan, hlist⟩ := Option.bind_eq_some_iff.mp hrows
    by_cases hcomplete : scan.complete = true
    · rw [if_pos hcomplete] at hlist
      cases hlist
    · rw [if_neg hcomplete] at hlist
      cases hlist
      exact h.at (sound_setScan hscan (h.job job hjob).stage id fun _ => covers_list)
  | inspect =>
    obtain ⟨job, hjob, hrows⟩ := Option.bind_eq_some_iff.mp hstep
    obtain ⟨scan, hscan, hinspect⟩ := Option.bind_eq_some_iff.mp hrows
    cases hinspect
    exact h.at (sound_setScan hscan (h.job job hjob).stage writers_inspect covers_inspect)
  | spawn child =>
    simp only [ProcessGuard.step] at hstep
    split at hstep
    · rename_i hspawn
      cases hstep
      exact h.spawn hspawn.1
    · cases hstep
  | fork parent child =>
    simp only [ProcessGuard.step] at hstep
    split at hstep
    · rename_i hfork
      cases hstep
      exact h.fork hfork.1
    · cases hstep
  | exec changed =>
    cases hstep
    exact h.exec changed
  | exit pid =>
    cases hstep
    exact h.exit pid

theorem Reachable.inv (h : Reachable s) : Inv s := by
  induction h with
  | start => exact ⟨trivial, fun _ hsome => absurd rfl hsome, nofun⟩
  | step action _ hstep ih => exact ih.step hstep

def runAll (s : State) (actions : List Action) : Option State := actions.foldlM step s

theorem Reachable.runAll {actions : List Action} (h : Reachable s)
    (hrun : runAll s actions = some s') : Reachable s' := by
  induction actions generalizing s with
  | nil =>
    cases hrun
    exact h
  | cons action actions ih =>
    obtain ⟨next, hstep, hrest⟩ := Option.bind_eq_some_iff.mp hrun
    exact ih (h.step action hstep) hrest

/-- A session whose game has ended. -/
def session : List Action :=
  [.acquire, .mark, .proceed, .proceed, .proceed, .spawn { pid := 10 }, .exit 10, .clear,
    .list none, .proceed, .list none, .proceed, .proceed, .proceed, .proceed]

/-- Each process of the game starts another one and ends after a scan has listed it. -/
def escape : List Action :=
  [.acquire, .mark, .proceed, .proceed, .proceed, .spawn { pid := 10 }, .clear,
    -- the scan before the first signal finds the game
    .list none, .inspect, .proceed, .proceed,
    -- the scan before the second signal finds nothing
    .list none, .fork 10 { pid := 11 }, .exit 10, .inspect, .proceed,
    -- the last scan finds nothing
    .list none, .fork 11 { pid := 12 }, .exit 11, .inspect, .proceed,
    .proceed, .proceed, .proceed]

end Flightdeck.Cloud.ProcessGuard
