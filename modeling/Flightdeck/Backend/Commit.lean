import Flightdeck.Backend.Exclusivity

/-!
# The point of no return

`cancel` refuses a job by the name of its phase, and `begin_commit` takes any name.  A job that
began to commit is out of reach of a cancellation as long as its phase is one of three names.
-/

namespace Flightdeck.Backend

open Foundation

/-! ## What began to commit -/

/-- The phases that `cancel` refuses. -/
def protects (phase : Value) : Bool :=
  phase.is "switch_update" || phase.is "publish_runtime" || phase.is "removing"

theorem isSwitching_eq (id : String) (job : Job) :
    isSwitching id job = (hasId id job && protects (job "phase")) := rfl

/-- The coordinator with the flags of the reservations whose `begin_commit` returned. -/
structure Tracked where
  sys : System
  commits : List Flag

namespace Tracked

def next (t : Tracked) (action : Action) : Tracked where
  sys := Backend.next t.sys action
  commits :=
    match action with
    | .beginCommit worker phase message =>
      if succeeded (beginCommit worker.ctx phase message t.sys.state) then
        worker.ctx.cancel :: t.commits
      else t.commits
    | _ => t.commits

def run (t : Tracked) (actions : List Action) : Tracked := actions.foldl next t

end Tracked

/-- The reservation's job began to commit, and `finish` has not given the reservation back. -/
def Committed (t : Tracked) (a : Active) : Prop :=
  t.sys.state.active = some a ∧ a.cancel ∈ t.commits

/-- Only a task or an install begins to commit: a check and a preview change no files. -/
def Commits : Action → Prop
  | .beginCommit worker _ _ => worker.work = .task ∨ worker.work = .install
  | _ => True

/-- The runs of a launcher whose steps all meet a condition. -/
inductive Runs (meets : Tracked → Action → Prop) : Tracked → Prop where
  | start {sys : System} : Started sys → Runs meets ⟨sys, []⟩
  | step {t : Tracked} {action : Action} : Runs meets t → Possible t.sys action →
      Commits action → meets t action → Runs meets (t.next action)

/-- The rows leave the phase alone, or set one that `cancel` refuses. -/
def KeepsPhase (rows : List (String × Value)) : Prop :=
  ∀ row ∈ rows, row.1 = "phase" → protects row.2 = true

/-- A job begins to commit under a phase that `cancel` refuses, has such a phase until it ends, and
nobody but `close` sets its flag. -/
def Meets (t : Tracked) : Action → Prop
  | .beginCommit _ phase _ => protects (.string phase) = true
  | .update worker patch => worker.ctx.cancel ∈ t.commits → KeepsPhase patch
  | .edit kind rows => ∀ a, Committed t a → a.kind = kind → KeepsPhase rows
  | .interrupt => ∀ a, ¬ Committed t a
  | _ => True

variable {sys : System} {s s' : State} {world : World} {t : Tracked} {a : Active}

/-- A flag that was set stays set, and a new reservation has a new flag. -/
structure Aged (s s' : State) : Prop where
  created : s.created ≤ s'.created
  flags : ∀ f, f < s.created → s.flags f = true → s'.flags f = true
  active : ∀ a, s'.active = some a →
    s.active = some a ∨ s.created ≤ a.cancel ∧ a.cancel < s'.created

theorem Aged.of_same (hcreated : s'.created = s.created)
    (hflags : ∀ f, s.flags f = true → s'.flags f = true)
    (hactive : s'.active = s.active ∨ s'.active = none) : Aged s s' := by
  constructor
  · rw [hcreated]
  · exact fun f _ hf => hflags f hf
  · intro a ha
    rcases hactive with h | h
    · exact .inl (h ▸ ha)
    · rw [h] at ha
      cases ha

theorem Aged.refl (s : State) : Aged s s := .of_same rfl (fun _ h => h) (.inl rfl)

@[simp] theorem poll_created : (poll world s).created = s.created := by
  unfold poll
  split
  · split <;> rfl
  · rfl

@[simp] theorem poll_closing : (poll world s).closing = s.closing := by
  unfold poll
  split
  · split <;> rfl
  · rfl

theorem Untouched.aged (h : Untouched world s s') : Aged s s' := by
  rcases h with rfl | rfl
  · exact .refl _
  · apply Aged.of_same poll_created
    · rw [poll_flags]
      exact fun _ hf => hf
    · exact .inl poll_active

/-- A reservation is made with the next flag. -/
theorem Aged.of_new (old : State) (hcreated : old.created = s.created)
    (hflags : old.flags = s.flags) (hnow : s'.created = old.created + 1)
    (hset : s'.flags = Function.update old.flags old.created false)
    (hactive : ∀ a, s'.active = some a → a.cancel = old.created) : Aged s s' := by
  constructor
  · omega
  · intro f hf hset'
    have hne : f ≠ old.created := Nat.ne_of_lt (by omega)
    rw [hset, Function.update_of_ne hne, hflags]
    exact hset'
  · intro a ha
    right
    rw [hactive a ha, hnow]
    exact ⟨hcreated.ge, Nat.lt_succ_self _⟩

theorem Aged.edit {kind : String} {edit : Job → Job} : Aged s (editJob kind edit s) :=
  .of_same rfl (fun _ h => h) (.inl rfl)

theorem Aged.next_continuation (sys : System) (kind id : String) :
    Aged sys.state (next sys (.continuation world kind id)).state := by
  have hends := continuation_triple world kind id sys.state rfl
  unfold Backend.next
  dsimp only
  cases hrun : continuation world kind id sys.state with
  | error e s =>
    rw [hrun] at hends
    exact Untouched.aged hends
  | ok ctx s =>
    rw [hrun] at hends
    obtain ⟨_, now, a, _, rfl, _, rfl | ⟨_, _, root, rfl⟩⟩ := hends
    · exact .edit
    · apply Aged.of_new (poll world sys.state) poll_created poll_flags
      · rfl
      · rfl
      · intro b hb
        cases hb
        rfl

theorem Aged.close (beforeStart : Bool) (s : State) : Aged s (close beforeStart s) := by
  cases ha : s.active with
  | none =>
    rw [close_none ha]
    exact .of_same rfl (fun _ h => h) (.inl rfl)
  | some a =>
    cases hready : hasJob s a.kind isReady with
    | true =>
      rw [close_ready ha hready]
      exact .of_same rfl (fun _ => update_flags) (.inr rfl)
    | false =>
      rcases close_working beforeStart ha hready with h | h
      · rw [h]
        exact .of_same rfl (fun _ h => h) (.inl rfl)
      · rw [h]
        exact .of_same rfl (fun _ => update_flags) (.inl rfl)

theorem Aged.cancel (kind id : String) (s : State) : Aged s (stateOf (cancel kind id s)) := by
  have hends := cancel_triple kind id s rfl
  cases hrun : Backend.cancel kind id s with
  | error e s' =>
    rw [hrun] at hends
    cases hends
    exact .refl s
  | ok u s' =>
    rw [hrun] at hends
    rcases hends with ⟨_, _, rfl⟩ | ⟨a, _, _, _, rfl⟩
    · exact .of_same rfl (fun _ h => h) (.inl rfl)
    · change Aged s (cancelActive a kind s)
      unfold cancelActive
      dsimp only
      split
      · exact .of_same rfl (fun _ => update_flags) (.inr rfl)
      · exact .of_same rfl (fun _ => update_flags) (.inl rfl)

theorem Aged.finish (ctx : Context) (outcome : Outcome) (retain : Bool) (s : State) :
    Aged s (finish world ctx outcome retain s) := by
  unfold Backend.finish
  dsimp only
  split
  · split
    · exact .of_same rfl (fun _ h => h) (.inr rfl)
    · exact .edit
  · exact .refl s

theorem next_cancel_state (sys : System) (kind id : String) :
    (next sys (.cancel kind id)).state = stateOf (cancel kind id sys.state) := by
  unfold Backend.next
  dsimp only
  cases cancel kind id sys.state <;> rfl

theorem Aged.next (sys : System) (action : Action) : Aged sys.state (next sys action).state := by
  cases action with
  | request world kind operation needsRuntime work =>
    have hends := reserveLocked_triple world kind operation needsRuntime sys.state rfl
    unfold Backend.next
    dsimp only
    cases hrun : reserveLocked world kind operation needsRuntime sys.state with
    | error e s =>
      rw [hrun] at hends
      exact Untouched.aged hends
    | ok ctx s =>
      rw [hrun] at hends
      obtain ⟨_, root, lease, rfl, _⟩ := hends
      apply Aged.of_new (poll world sys.state) poll_created poll_flags
      · rfl
      · rfl
      · intro b hb
        cases hb
        rfl
  | update worker patch =>
    change Aged sys.state (update worker.ctx patch sys.state)
    unfold update
    split
    · exact .edit
    · exact .refl _
  | finish world worker outcome => exact .finish ..
  | publish worker result =>
    have hends := publish_triple worker.ctx result sys.state rfl
    unfold Backend.next
    dsimp only
    cases hrun : publish worker.ctx result sys.state with
    | ok u s =>
      rw [hrun] at hends
      obtain ⟨_, _, rfl⟩ := hends
      exact .edit
    | error e s =>
      rw [hrun] at hends
      cases hends
      exact .refl _
  | beginCommit worker phase message =>
    have hends := beginCommit_triple worker.ctx phase message sys.state rfl
    unfold Backend.next
    dsimp only
    cases hrun : beginCommit worker.ctx phase message sys.state with
    | ok u s =>
      rw [hrun] at hends
      obtain ⟨_, _, rfl⟩ := hends
      exact .edit
    | error e s =>
      rw [hrun] at hends
      cases hends
      exact .refl _
  | activate worker root committed =>
    have hends := activate_triple worker.ctx root committed sys.state rfl
    unfold Backend.next
    dsimp only
    cases hrun : activate worker.ctx root committed sys.state with
    | ok u s =>
      rw [hrun] at hends
      obtain ⟨_, _, path, rfl⟩ := hends
      exact .of_same rfl (fun _ h => h) (.inl rfl)
    | error e s =>
      rw [hrun] at hends
      cases hends
      exact .refl _
  | continuation world kind id => exact .next_continuation sys kind id
  | cancel kind id =>
    rw [next_cancel_state]
    exact .cancel kind id sys.state
  | interrupt =>
    change Aged sys.state (interrupt sys.state)
    unfold interrupt
    split
    · exact .refl _
    · exact .of_same rfl (fun _ => update_flags) (.inl rfl)
  | refresh world =>
    have hends : Triple (fun t => t = sys.state) (refresh world)
        (fun _ t => Aged sys.state t) (fun _ t => Aged sys.state t) := by
      apply Triple.bind ((idle_triple (s := sys.state)).mono (fun _ h => h) (fun _ _ h => h)
        fun _ _ h => Untouched.aged h)
      intro _
      apply Triple.update
      rintro t ⟨rfl, _⟩
      have haged : Aged sys.state (poll world sys.state) := Untouched.aged (.inr rfl)
      exact ⟨haged.created, haged.flags, haged.active⟩
    exact (hends sys.state rfl).stateOf
  | close beforeStart => exact .close beforeStart sys.state
  | poll world => exact Untouched.aged (.inr rfl)
  | edit kind rows => exact .edit
  | forget kind => exact .of_same rfl (fun _ h => h) (.inl rfl)
  | plan kind value => exact .of_same rfl (fun _ h => h) (.inl rfl)
  | elsewhere steam runtime process stopping exitCode =>
    exact .of_same rfl (fun _ h => h) (.inl rfl)

/-- The reservation's job is out of reach of `cancel`, and its worker gives the reservation back.
-/
structure Guarded (sys : System) (a : Active) : Prop where
  phase : ∃ job, sys.state.jobs a.kind = some job ∧ protects (job "phase") = true
  ends : ∃ w ∈ sys.workers, w.work = .task ∨ w.work = .install
  closes : sys.state.flags a.cancel = true → sys.state.closing = true

structure Held (t : Tracked) : Prop where
  exclusive : Exclusive t.sys
  flags : ∀ f ∈ t.commits, f < t.sys.state.created
  active : ∀ a, t.sys.state.active = some a → a.cancel < t.sys.state.created
  guarded : ∀ a, Committed t a → Guarded t.sys a

/-- A step that leaves the worker at work and the phase alone. -/
theorem Guarded.same (h : Guarded sys a) (hjobs : s.jobs a.kind = sys.state.jobs a.kind)
    (hflag : s.flags a.cancel = true → sys.state.flags a.cancel = true ∨ s.closing = true)
    (hclosing : sys.state.closing = true → s.closing = true) :
    Guarded { sys with state := s } a := by
  refine ⟨?_, h.ends, ?_⟩
  · obtain ⟨job, hjob, hprotects⟩ := h.phase
    exact ⟨job, hjobs.trans hjob, hprotects⟩
  · intro hset
    rcases hflag hset with hold | hnow
    · exact hclosing (h.closes hold)
    · exact hnow

theorem Guarded.untouched (h : Guarded sys a) (hs : Untouched world sys.state s) :
    Guarded { sys with state := s } a := by
  rcases hs with rfl | rfl
  · exact h
  · apply h.same
    · rw [poll_jobs]
    · rw [poll_flags]
      exact .inl
    · rw [poll_closing]
      exact id

/-- The job is edited, and keeps a phase that `cancel` refuses. -/
theorem Guarded.edited (h : Guarded sys a) (kind : String) (edit : Job → Job)
    (hedit : a.kind = kind → ∀ job, protects (job "phase") = true →
      protects (edit job "phase") = true) :
    Guarded { sys with state := editJob kind edit sys.state } a := by
  refine ⟨?_, h.ends, h.closes⟩
  obtain ⟨job, hjob, hprotects⟩ := h.phase
  change ∃ job, Function.update sys.state.jobs kind ((sys.state.jobs kind).map edit) a.kind =
    some job ∧ _
  by_cases hkind : a.kind = kind
  · rw [← hkind, Function.update_self, hjob]
    exact ⟨edit job, rfl, hedit hkind job hprotects⟩
  · rw [Function.update_of_ne hkind]
    exact ⟨job, hjob, hprotects⟩

theorem protects_extend {job : Job} {rows : List (String × Value)} (h : KeepsPhase rows)
    (hjob : protects (job "phase") = true) : protects (job.extend rows "phase") = true := by
  rcases job.extend_at rows "phase" with hsame | ⟨row, hrow, hkey, hvalue⟩
  · rw [hsame]
    exact hjob
  · rw [hvalue]
    exact h row hrow hkey

theorem Held.refused (h : Held t) (hc : Committed t a) :
    cancel a.kind a.id t.sys.state = .error (.invalid SWITCHING) t.sys.state := by
  obtain ⟨job, hjob, hprotects⟩ := (h.guarded a hc).phase
  have hswitching : hasJob t.sys.state a.kind (isSwitching a.id) = true := by
    apply hasJob_iff.mpr
    refine ⟨job, hjob, ?_⟩
    rw [isSwitching_eq, h.exclusive.own a hc.1 job hjob, hprotects]
    rfl
  unfold cancel
  rw [get_bind, hswitching]
  rfl

/-- Nothing of the reservation is changed by a cancellation that is accepted. -/
theorem Held.guarded_cancel (h : Held t) (hc : Committed t a) (kind id : String) :
    Guarded (next t.sys (.cancel kind id)) a := by
  have hguarded := h.guarded a hc
  have hends := cancel_triple kind id t.sys.state rfl
  unfold Backend.next
  dsimp only
  cases hrun : cancel kind id t.sys.state with
  | error e s =>
    rw [hrun] at hends
    cases hends
    exact hguarded
  | ok u s =>
    rw [hrun] at hends
    rcases hends with ⟨hready, hother, rfl⟩ | ⟨b, hb, rfl, rfl, rfl⟩
    · have hedit : ∀ job : Job, protects (job "phase") = true →
          protects (job.extend [("state", .string "cancelled"),
            ("message", .string "Einrichtung abgebrochen.")] "phase") = true := by
        intro job hprotects
        rw [Job.extend_other (by simp)]
        exact hprotects
      have hedited := hguarded.edited kind _ fun _ : a.kind = kind => hedit
      exact ⟨hedited.phase, hedited.ends, hedited.closes⟩
    · rw [hc.1] at hb
      cases hb
      rw [h.refused hc] at hrun
      cases hrun

theorem Held.guarded_finish (h : Held t) (hc : Committed t a) {worker : Worker}
    {outcome : Outcome} (hw : worker ∈ t.sys.workers) :
    (next t.sys (.finish world worker outcome)).state.active = none := by
  obtain ⟨w, hw', hwork⟩ := (h.guarded a hc).ends
  obtain ⟨b, hb, hid, _⟩ := h.exclusive.owned worker hw
  rw [h.exclusive.worker_eq hw' hw] at hwork
  have hcurrent : current t.sys.state worker.ctx.id = true := by
    rw [current, hb, Option.any_some, hid, beq_self_eq_true]
  have hretains : worker.work.retains = false := by
    rcases hwork with h | h <;> rw [h] <;> rfl
  change (finish world worker.ctx outcome worker.work.retains t.sys.state).active = none
  unfold finish
  rw [if_pos hcurrent, hretains]
  rfl

theorem Held.guarded_close (h : Held t) (hc : Committed t a) (beforeStart : Bool) :
    Guarded (next t.sys (.close beforeStart)) a := by
  have hguarded := h.guarded a hc
  obtain ⟨w, hw, _⟩ := hguarded.ends
  obtain ⟨b, hb, _, hkind, _⟩ := h.exclusive.owned w hw
  have hready : hasJob t.sys.state a.kind isReady = false := by
    rw [hc.1] at hb
    cases hb
    cases hjob : hasJob t.sys.state a.kind isReady with
    | false => rfl
    | true =>
      obtain ⟨job, hjob', hisready⟩ := hasJob_iff.mp hjob
      rw [hkind] at hjob'
      rw [h.exclusive.working w hw job hjob'] at hisready
      cases hisready
  have hsame : ∀ s, s.jobs = t.sys.state.jobs → s.closing = true →
      Guarded { t.sys with state := s } a := by
    intro s hjobs hclosing
    apply hguarded.same
    · rw [hjobs]
    · exact fun _ => .inr hclosing
    · exact fun _ => hclosing
  rcases close_working beforeStart hc.1 hready with hclose | hclose
  · have := hsame (close beforeStart t.sys.state) (by rw [hclose]) (by rw [hclose])
    exact ⟨this.phase, this.ends, this.closes⟩
  · have := hsame (close beforeStart t.sys.state) (by rw [hclose]) (by rw [hclose])
    exact ⟨this.phase, this.ends, this.closes⟩

/-- What began to commit stays out of reach until its reservation is given back. -/
theorem Held.guarded_next (h : Held t) {action : Action} (hp : Possible t.sys action)
    (hm : Meets t action) (hc : Committed t a)
    (hkept : (next t.sys action).state.active = some a) : Guarded (next t.sys action) a := by
  have hguarded := h.guarded a hc
  cases action with
  | request world kind operation needsRuntime work =>
    have hends := reserveLocked_triple world kind operation needsRuntime t.sys.state rfl
    unfold Backend.next
    dsimp only
    cases hrun : reserveLocked world kind operation needsRuntime t.sys.state with
    | error e s =>
      rw [hrun] at hends
      exact hguarded.untouched hends
    | ok ctx s =>
      rw [hrun] at hends
      obtain ⟨hnone, _⟩ := hends
      -- a new job needs a free reservation, and `a` holds it
      rw [hc.1] at hnone
      cases hnone
  | update worker patch =>
    change Guarded { t.sys with state := update worker.ctx patch t.sys.state } a
    unfold update
    split
    · apply hguarded.edited
      intro hkind job
      obtain ⟨b, hb, _, _, hcancel⟩ := h.exclusive.owned worker hp.1
      rw [hc.1] at hb
      cases hb
      exact protects_extend (hm (hcancel ▸ hc.2))
    · exact hguarded
  | finish world worker outcome =>
    -- the end of the worker gives the reservation back
    rw [h.guarded_finish hc hp.1] at hkept
    cases hkept
  | publish worker result =>
    -- only a preview publishes, and the worker that commits is a task or an install
    obtain ⟨w, hw, hwork⟩ := hguarded.ends
    rw [h.exclusive.worker_eq hw hp.1, hp.2.1] at hwork
    rcases hwork with hno | hno <;> cases hno
  | beginCommit worker phase message =>
    have hends := beginCommit_triple worker.ctx phase message t.sys.state rfl
    unfold Backend.next
    dsimp only
    cases hrun : beginCommit worker.ctx phase message t.sys.state with
    | ok u s =>
      rw [hrun] at hends
      obtain ⟨_, _, rfl⟩ := hends
      have hedited := hguarded.edited worker.ctx.kind
        (fun job => job.extend [("phase", .string phase), ("message", .string message),
          ("can_pause", .bool false), ("can_resume", .bool false), ("can_cancel", .bool false)]) ?_
      · exact ⟨hedited.phase, hedited.ends, hedited.closes⟩
      · intro _ job
        apply protects_extend
        intro row hrow hkey
        simp only [List.mem_cons, List.not_mem_nil, or_false] at hrow
        rcases hrow with rfl | rfl | rfl | rfl | rfl
        · exact hm
        all_goals simp at hkey
    | error e s =>
      rw [hrun] at hends
      cases hends
      exact hguarded
  | activate worker root committed =>
    have hends := activate_triple worker.ctx root committed t.sys.state rfl
    unfold Backend.next
    dsimp only
    cases hrun : activate worker.ctx root committed t.sys.state with
    | ok u s =>
      rw [hrun] at hends
      obtain ⟨_, _, path, rfl⟩ := hends
      exact ⟨hguarded.phase, hguarded.ends, hguarded.closes⟩
    | error e s =>
      rw [hrun] at hends
      cases hends
      exact hguarded
  | continuation world kind id =>
    have hends := continuation_triple world kind id t.sys.state rfl
    unfold Backend.next
    dsimp only
    cases hrun : continuation world kind id t.sys.state with
    | error e s =>
      rw [hrun] at hends
      exact hguarded.untouched hends
    | ok ctx s =>
      rw [hrun] at hends
      obtain ⟨hready, now, b, hgo, rfl, rfl, rfl | ⟨hnone, _⟩⟩ := hends
      · -- the job at work is not prepared
        obtain ⟨hb, hmatch⟩ := Option.filter_eq_some_iff.mp hgo
        simp only [Bool.and_eq_true, Bool.not_eq_true', beq_iff_eq] at hmatch
        obtain ⟨w, hw, _⟩ := hguarded.ends
        obtain ⟨c, hc', _, hkind, _⟩ := h.exclusive.owned w hw
        rw [hb] at hc'
        cases hc'
        obtain ⟨job, hjob, htest⟩ := hasJob_iff.mp hready
        rw [← hmatch.1.1, hkind] at hjob
        rw [h.exclusive.working w hw job hjob, Bool.and_false] at htest
        cases htest
      · rw [hc.1] at hnone
        cases hnone
  | cancel kind id => exact h.guarded_cancel hc kind id
  -- the run is not interrupted between a commit and its end
  | interrupt => exact absurd hc (hm a)
  | refresh world =>
    have hends : Triple (fun s => s = t.sys.state) (refresh world) (fun _ _ => False)
        (fun _ => Untouched world t.sys.state) := by
      apply Triple.bind (idle_triple (s := t.sys.state))
      rintro _ s ⟨_, hnone⟩
      rw [hc.1] at hnone
      cases hnone
    have hrefused := hends t.sys.state rfl
    change Guarded { t.sys with state := stateOf (refresh world t.sys.state) } a
    cases hrun : refresh world t.sys.state with
    | ok u s =>
      rw [hrun] at hrefused
      cases hrefused
    | error e s =>
      rw [hrun] at hrefused
      exact hguarded.untouched hrefused
  | close beforeStart => exact h.guarded_close hc beforeStart
  | poll world => exact hguarded.untouched (.inr rfl)
  | edit kind rows =>
    apply hguarded.edited
    intro hkind job
    exact protects_extend (hm a hc hkind)
  | forget kind =>
    -- a job that is reserved is not forgotten
    have hne : a.kind ≠ kind := hp a hc.1
    apply hguarded.same
    · exact Function.update_of_ne hne ..
    · exact .inl
    · exact id
  | plan kind value => exact ⟨hguarded.phase, hguarded.ends, hguarded.closes⟩
  | elsewhere steam runtime process stopping exitCode =>
    exact ⟨hguarded.phase, hguarded.ends, hguarded.closes⟩

theorem Held.of_started (h : Started sys) : Held ⟨sys, []⟩ := by
  refine ⟨.of_started h, nofun, ?_, ?_⟩
  · intro a ha
    rw [h.active] at ha
    cases ha
  · rintro a ⟨_, hmem⟩
    cases hmem

theorem beginCommit_job (ctx : Context) (phase message : String) :
    Triple (fun t => t = s) (beginCommit ctx phase message)
      (fun _ _ => ∃ job, s.jobs ctx.kind = some job) fun _ _ => True := by
  unfold beginCommit
  apply Triple.get_bind
  rintro t rfl
  apply interrupted_triple
  · intro _
    apply require_triple
    · intro _
      apply require_triple
      · rintro hjob u rfl
        exact Option.isSome_iff_exists.mp hjob
      · trivial
    · trivial
  · trivial

/-- The job that begins to commit. -/
def committedJob (phase message : String) (job : Job) : Job :=
  job.extend [("phase", .string phase), ("message", .string message), ("can_pause", .bool false),
    ("can_resume", .bool false), ("can_cancel", .bool false)]

/-- What a `begin_commit` that returns leaves behind. -/
theorem Held.begun (h : Held t) {worker : Worker} {phase message : String}
    (hw : worker ∈ t.sys.workers) (hwork : worker.work = .task ∨ worker.work = .install)
    (hphase : protects (.string phase) = true)
    (hrun : succeeded (beginCommit worker.ctx phase message t.sys.state) = true)
    (ha : t.sys.state.active = some a) :
    Guarded (next t.sys (.beginCommit worker phase message)) a := by
  obtain ⟨b, hb, _, hkind, hcancel⟩ := h.exclusive.owned worker hw
  rw [ha] at hb
  cases hb
  obtain ⟨u, s, hok⟩ := exists_of_succeeded hrun
  have hends := beginCommit_triple worker.ctx phase message t.sys.state rfl
  have hjob := beginCommit_job worker.ctx phase message t.sys.state rfl
  rw [hok] at hends hjob
  obtain ⟨hflag, _, hs⟩ := hends
  obtain ⟨job, hjob⟩ := hjob
  unfold Backend.next
  dsimp only
  rw [hok, hs]
  refine ⟨?_, ⟨worker, hw, hwork⟩, ?_⟩
  · refine ⟨committedJob phase message job, ?_, ?_⟩
    · change Function.update t.sys.state.jobs worker.ctx.kind _ a.kind = _
      rw [hkind, Function.update_self, hjob]
      rfl
    · have hsame : committedJob phase message job "phase" = .string phase := rfl
      rw [hsame]
      exact hphase
  · intro hset
    change t.sys.state.flags a.cancel = true at hset
    rw [hcancel, hflag] at hset
    cases hset

theorem next_commits (t : Tracked) (action : Action) {f : Flag} (h : f ∈ (t.next action).commits) :
    f ∈ t.commits ∨ ∃ worker phase message, action = .beginCommit worker phase message ∧
      f = worker.ctx.cancel ∧
        succeeded (beginCommit worker.ctx phase message t.sys.state) = true := by
  cases action with
  | beginCommit worker phase message =>
    change f ∈ ite _ _ _ at h
    split at h
    · rename_i hrun
      rcases List.mem_cons.mp h with rfl | hold
      · exact .inr ⟨worker, phase, message, rfl, rfl, hrun⟩
      · exact .inl hold
    · exact .inl h
  | _ => exact .inl h

theorem Held.next (h : Held t) {action : Action} (hp : Possible t.sys action)
    (hcommits : Commits action) (hm : Meets t action) : Held (t.next action) := by
  have haged : Aged t.sys.state (t.next action).sys.state := .next t.sys action
  have hlt : ∀ f ∈ (t.next action).commits, f < t.sys.state.created := by
    intro f hf
    rcases next_commits t action hf with hold | ⟨worker, phase, message, rfl, rfl, _⟩
    · exact h.flags f hold
    · obtain ⟨b, hb, _, _, hcancel⟩ := h.exclusive.owned worker hp
      rw [← hcancel]
      exact h.active b hb
  refine ⟨h.exclusive.next hp, ?_, ?_, ?_⟩
  · exact fun f hf => lt_of_lt_of_le (hlt f hf) haged.created
  · intro a ha
    rcases haged.active a ha with hold | ⟨_, hnew⟩
    · exact lt_of_lt_of_le (h.active a hold) haged.created
    · exact hnew
  · rintro a ⟨ha, hmem⟩
    have hold : t.sys.state.active = some a := by
      rcases haged.active a ha with hold | ⟨hnew, _⟩
      · exact hold
      · exact absurd (hlt _ hmem) (not_lt.mpr hnew)
    rcases next_commits t action hmem with hwas | ⟨worker, phase, message, rfl, _, hrun⟩
    · exact h.guarded_next hp hm ⟨hold, hwas⟩ ha
    · exact h.begun hp hcommits hm hrun hold

theorem Held.of_runs (h : Runs Meets t) : Held t := by
  induction h with
  | start hstarted => exact .of_started hstarted
  | step _ hp hcommits hm ih => exact ih.next hp hcommits hm

/-! ## No return -/

theorem Held.untouched (h : Held t) (hc : Committed t a) (kind id : String) :
    (stateOf (cancel kind id t.sys.state)).flags a.cancel = t.sys.state.flags a.cancel := by
  have hends := cancel_triple kind id t.sys.state rfl
  cases hrun : cancel kind id t.sys.state with
  | error e s =>
    rw [hrun] at hends
    cases hends
    rfl
  | ok u s =>
    rw [hrun] at hends
    rcases hends with ⟨_, _, rfl⟩ | ⟨b, hb, rfl, rfl, _⟩
    · rfl
    · rw [hc.1] at hb
      cases hb
      rw [h.refused hc] at hrun
      cases hrun

section

end

end Flightdeck.Backend
