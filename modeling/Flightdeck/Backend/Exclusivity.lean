import Flightdeck.Backend.Interleavings

/-!
# One reservation at a time

The invariant relates the reservation to the one worker that owns it, and the jobs to what was
continued and cancelled before.
-/

namespace Flightdeck.Backend

open Foundation

/-! ## The invariant -/

/-- A job is continued at most once, and neither continued nor committed once it was cancelled. -/
def Allowed (older : List Event) : Event → Prop
  | .continued id => .continued id ∉ older ∧ .cancelled id false ∉ older
  | .committed id => .cancelled id false ∉ older
  | .cancelled _ _ => True

/-- What was continued or cancelled. -/
def Event.id : Event → String
  | .continued id => id
  | .committed id => id
  | .cancelled id _ => id

def hasId (id : String) (job : Job) : Bool := (job "id").is id

/-- The worker's context is that of the reservation. -/
def Owns (s : State) (ctx : Context) : Prop :=
  ∃ a, s.active = some a ∧ a.id = ctx.id ∧ a.kind = ctx.kind ∧ a.cancel = ctx.cancel

structure Exclusive (sys : System) : Prop where
  one : sys.workers.length ≤ 1
  owned : ∀ w ∈ sys.workers, Owns sys.state w.ctx
  working : ∀ w ∈ sys.workers, ∀ job, sys.state.jobs w.ctx.kind = some job → isReady job = false
  own : ∀ a, sys.state.active = some a → ∀ job, sys.state.jobs a.kind = some job →
    hasId a.id job = true
  placed : ∀ a, sys.state.active = some a → ∀ k job, sys.state.jobs k = some job →
    hasId a.id job = true → k = a.kind
  /-- no two jobs share an id -/
  distinct : ∀ id k k' job job', sys.state.jobs k = some job → sys.state.jobs k' = some job' →
    hasId id job = true → hasId id job' = true → k = k'
  jobs : ∀ id k job, sys.state.jobs k = some job → hasId id job = true → id ∈ sys.uuids
  active : ∀ a, sys.state.active = some a → a.id ∈ sys.uuids
  events : ∀ e ∈ sys.history, e.id ∈ sys.uuids
  once : ∀ id, .continued id ∈ sys.history →
    (∀ k job, sys.state.jobs k = some job → hasId id job = true → isReady job = false) ∧
      ∀ w ∈ sys.workers, w.ctx.id = id → w.work = .install
  ended : ∀ id, .cancelled id false ∈ sys.history →
    (∀ a, sys.state.active = some a → a.id = id → sys.state.flags a.cancel = true) ∧
      (∀ k job, sys.state.jobs k = some job → hasId id job = true → isReady job = true →
        ∃ a, sys.state.active = some a ∧ a.id = id) ∧
      ∀ w ∈ sys.workers, w.ctx.id = id → w.work ≠ .check false
  order : EachStep Allowed sys.history

variable {sys : System} {s : State} {world : World}

theorem Exclusive.of_started (h : Started sys) : Exclusive sys := by
  have hno : ∀ {k job}, ¬ sys.state.jobs k = some job := by
    intro k job hjob
    rw [h.jobs] at hjob
    cases hjob
  constructor
  · rw [h.workers]
    decide
  · rw [h.workers]
    nofun
  · rw [h.workers]
    nofun
  · rw [h.active]
    nofun
  · rw [h.active]
    nofun
  · exact fun _ _ _ _ _ hjob => absurd hjob hno
  · exact fun _ _ _ hjob => absurd hjob hno
  · rw [h.active]
    nofun
  · rw [h.history]
    nofun
  · rw [h.history]
    nofun
  · rw [h.history]
    nofun
  · rw [h.history]
    trivial

/-! ## Kinds of steps -/

/-- Nothing is prepared, reserved or released. -/
theorem Exclusive.tame (h : Exclusive sys) (hactive : s.active = sys.state.active)
    (hjobs : Tame sys.state.jobs s.jobs)
    (hflags : ∀ f, sys.state.flags f = true → s.flags f = true) :
    Exclusive { sys with state := s } := by
  have hid : ∀ {id k job}, s.jobs k = some job → hasId id job = true →
      ∃ old, sys.state.jobs k = some old ∧ hasId id old = true ∧
        (isReady job = true → isReady old = true) := by
    intro id k job hjob hhas
    obtain ⟨old, hold, hsame, hready⟩ := hjobs k job hjob
    exact ⟨old, hold, by rw [hasId, ← hsame]; exact hhas, hready⟩
  constructor
  · exact h.one
  · intro w hw
    obtain ⟨a, ha, howned⟩ := h.owned w hw
    exact ⟨a, hactive.trans ha, howned⟩
  · intro w hw job hjob
    obtain ⟨old, hold, _, hready⟩ := hjobs _ job hjob
    by_contra hcontra
    rw [Bool.not_eq_false] at hcontra
    rw [h.working w hw old hold] at hready
    exact absurd (hready hcontra) (by decide)
  · intro a ha job hjob
    obtain ⟨old, hold, hsame, _⟩ := hjobs _ job hjob
    rw [hasId, hsame]
    exact h.own a (hactive ▸ ha) old hold
  · intro a ha k job hjob hhas
    obtain ⟨old, hold, hasold, _⟩ := hid hjob hhas
    exact h.placed a (hactive ▸ ha) k old hold hasold
  · intro id k k' job job' hjob hjob' hhas hhas'
    obtain ⟨old, hold, hasold, _⟩ := hid hjob hhas
    obtain ⟨old', hold', hasold', _⟩ := hid hjob' hhas'
    exact h.distinct id k k' old old' hold hold' hasold hasold'
  · intro id k job hjob hhas
    obtain ⟨old, hold, hasold, _⟩ := hid hjob hhas
    exact h.jobs id k old hold hasold
  · intro a ha
    exact h.active a (hactive ▸ ha)
  · exact h.events
  · intro id hid'
    refine ⟨fun k job hjob hhas => ?_, (h.once id hid').2⟩
    obtain ⟨old, hold, hasold, hready⟩ := hid hjob hhas
    by_contra hcontra
    rw [Bool.not_eq_false] at hcontra
    rw [(h.once id hid').1 k old hold hasold] at hready
    exact absurd (hready hcontra) (by decide)
  · intro id hid'
    obtain ⟨hflag, hheld, hwork⟩ := h.ended id hid'
    refine ⟨fun a ha hsame => hflags _ (hflag a (hactive ▸ ha) hsame), ?_, hwork⟩
    intro k job hjob hhas hready
    obtain ⟨old, hold, hasold, hwas⟩ := hid hjob hhas
    rw [hactive]
    exact hheld k old hold hasold (hwas hready)
  · exact h.order

/-- The jobs that were not edited keep what the invariant says of them; the edited one kept its id.
-/
theorem mem_editJob {kind : String} {edit : Job → Job} {k : String} {job : Job}
    (h : (editJob kind edit s).jobs k = some job) :
    ∃ old, s.jobs k = some old ∧ job = if k = kind then edit old else old := by
  change Function.update s.jobs kind ((s.jobs kind).map edit) k = some job at h
  by_cases hk : k = kind
  · subst hk
    rw [Function.update_self] at h
    obtain ⟨old, hold, rfl⟩ := Option.map_eq_some_iff.mp h
    exact ⟨old, hold, (if_pos rfl).symm⟩
  · rw [Function.update_of_ne hk] at h
    exact ⟨job, h, (if_neg hk).symm⟩

theorem Exclusive.worker_eq (h : Exclusive sys) {w w' : Worker} (hw : w ∈ sys.workers)
    (hw' : w' ∈ sys.workers) : w = w' := by
  match hworkers : sys.workers, h.one with
  | [], _ => rw [hworkers] at hw; cases hw
  | [v], _ =>
    rw [hworkers, List.mem_singleton] at hw hw'
    rw [hw, hw']

theorem Exclusive.erase_worker (h : Exclusive sys) {w : Worker} (hw : w ∈ sys.workers) :
    sys.workers.erase w = [] := by
  match hworkers : sys.workers, h.one with
  | [], _ => rw [hworkers] at hw; cases hw
  | [v], _ =>
    rw [hworkers, List.mem_singleton] at hw
    rw [hw]
    exact List.erase_cons_head ..

/-- A worker of the reservation that nobody owns any more. -/
theorem Exclusive.no_workers (h : Exclusive sys)
    (hready : ∀ a, sys.state.active = some a → hasJob sys.state a.kind isReady = true) :
    sys.workers = [] := by
  match hworkers : sys.workers with
  | [] => rfl
  | w :: _ =>
    have hw : w ∈ sys.workers := by
      rw [hworkers]
      exact List.mem_cons_self
    obtain ⟨a, ha, _, hkind, _⟩ := h.owned w hw
    obtain ⟨job, hjob, hisready⟩ := hasJob_iff.mp (hready a ha)
    rw [hkind] at hjob
    rw [h.working w hw job hjob] at hisready
    cases hisready

/-- The worker ends, its job keeps its id, and the reservation is kept or given back. -/
theorem Exclusive.end_worker (h : Exclusive sys) {w : Worker} (hw : w ∈ sys.workers)
    {edit : Job → Job} {active : Option Active}
    (hkept : active = sys.state.active ∨ active = none)
    (hid : ∀ job, edit job "id" = job "id" ∨ edit job "id" = .string w.ctx.id)
    (hprepared : ∀ job, sys.state.jobs w.ctx.kind = some job → isReady (edit job) = true →
      w.work ≠ .task ∧ w.work ≠ .install ∧
        (active = none → .cancelled w.ctx.id false ∉ sys.history)) :
    Exclusive { sys with
      state := { editJob w.ctx.kind edit sys.state with active }
      workers := sys.workers.erase w } := by
  obtain ⟨a, ha, hsame, hkind, hcancel⟩ := h.owned w hw
  have hactive : ∀ {b}, active = some b → sys.state.active = some b := by
    intro b hb
    rcases hkept with hk | hk
    · rw [← hk]
      exact hb
    · rw [hk] at hb
      cases hb
  -- A job with an id is the old one, or the one that the worker edited under its own id.
  have hmem : ∀ {k job id}, (editJob w.ctx.kind edit sys.state).jobs k = some job →
      hasId id job = true → ∃ old, sys.state.jobs k = some old ∧ hasId id old = true ∧
        ((job = old ∧ k ≠ w.ctx.kind) ∨ (k = w.ctx.kind ∧ job = edit old ∧ id = w.ctx.id)) := by
    intro k job id hjob hhas
    obtain ⟨old, hold, rfl⟩ := mem_editJob hjob
    by_cases hk : k = w.ctx.kind
    · have hown : hasId w.ctx.id old = true := by
        rw [← hsame]
        exact h.own a ha old (by rw [hkind, ← hk]; exact hold)
      rw [if_pos hk] at hhas
      have hidw : id = w.ctx.id := by
        rcases hid old with he | he
        · rw [hasId, he] at hhas
          exact Value.is_inj hhas hown
        · rw [hasId, he] at hhas
          exact (eq_of_beq hhas).symm
      rw [if_pos hk]
      exact ⟨old, hold, by rw [hidw]; exact hown, .inr ⟨hk, rfl, hidw⟩⟩
    · rw [if_neg hk] at hhas ⊢
      exact ⟨old, hold, hhas, .inl ⟨rfl, hk⟩⟩
  -- No other worker is left, so what is said of workers is empty.
  have hnone : sys.workers.erase w = [] := h.erase_worker hw
  constructor
  · change (sys.workers.erase w).length ≤ 1
    rw [hnone]
    decide
  · change ∀ v ∈ sys.workers.erase w, _
    rw [hnone]
    nofun
  · change ∀ v ∈ sys.workers.erase w, _
    rw [hnone]
    nofun
  · intro b hb job hjob
    have hb' := hactive hb
    rw [ha] at hb'
    cases hb'
    obtain ⟨old, hold, rfl⟩ := mem_editJob hjob
    have hown := h.own a ha old hold
    rw [if_pos hkind]
    rcases hid old with he | he
    · rw [hasId, he]
      exact hown
    · rw [hasId, he, hsame]
      exact beq_self_eq_true _
  · intro b hb k job hjob hhas
    obtain ⟨old, hold, hasold, _⟩ := hmem hjob hhas
    exact h.placed b (hactive hb) k old hold hasold
  · intro id k k' job job' hjob hjob' hhas hhas'
    obtain ⟨old, hold, hasold, _⟩ := hmem hjob hhas
    obtain ⟨old', hold', hasold', _⟩ := hmem hjob' hhas'
    exact h.distinct id k k' old old' hold hold' hasold hasold'
  · intro id k job hjob hhas
    obtain ⟨old, hold, hasold, _⟩ := hmem hjob hhas
    exact h.jobs id k old hold hasold
  · intro b hb
    exact h.active b (hactive hb)
  · exact h.events
  · intro id hcontinued
    obtain ⟨hnever, hinstall⟩ := h.once id hcontinued
    constructor
    · intro k job hjob hhas
      obtain ⟨old, hold, hasold, ⟨rfl, _⟩ | ⟨hk, rfl, hidw⟩⟩ := hmem hjob hhas
      · exact hnever k job hold hasold
      · by_contra hcontra
        rw [Bool.not_eq_false] at hcontra
        obtain ⟨_, hno, _⟩ := hprepared old (by rw [← hk]; exact hold) hcontra
        exact hno (hinstall w hw hidw.symm)
    · change ∀ v ∈ sys.workers.erase w, _
      rw [hnone]
      nofun
  · intro id hcancelled
    obtain ⟨hflag, hheld, _⟩ := h.ended id hcancelled
    refine ⟨fun b hb => hflag b (hactive hb), ?_, ?_⟩
    · intro k job hjob hhas hready
      obtain ⟨old, hold, hasold, ⟨rfl, hk⟩ | ⟨hk, rfl, hidw⟩⟩ := hmem hjob hhas
      · obtain ⟨b, hb, hbid⟩ := hheld k job hold hasold hready
        rw [ha] at hb
        cases hb
        rw [← hbid] at hasold
        -- the reservation's job stands under the kind of the worker that ends
        exact absurd ((h.placed a ha k job hold hasold).trans hkind) hk
      · obtain ⟨_, _, hkeeps⟩ := hprepared old (by rw [← hk]; exact hold) hready
        rcases hkept with hkeep | hgone
        · refine ⟨a, hkeep.trans ha, ?_⟩
          rw [hidw, hsame]
        · exact absurd (hidw ▸ hcancelled) (hkeeps hgone)
    · change ∀ v ∈ sys.workers.erase w, _
      rw [hnone]
      nofun
  · exact h.order

/-- The reservation of a prepared job is given back, and the job is not prepared any more. -/
theorem Exclusive.release (h : Exclusive sys) (hno : sys.workers = []) (hactive : s.active = none)
    (hjobs : Tame sys.state.jobs s.jobs)
    (hunready : ∀ a, sys.state.active = some a → ∀ job, s.jobs a.kind = some job →
      isReady job = false) :
    Exclusive { sys with state := s } := by
  have hid : ∀ {id k job}, s.jobs k = some job → hasId id job = true →
      ∃ old, sys.state.jobs k = some old ∧ hasId id old = true ∧
        (isReady job = true → isReady old = true) := by
    intro id k job hjob hhas
    obtain ⟨old, hold, hsame, hready⟩ := hjobs k job hjob
    exact ⟨old, hold, by rw [hasId, ← hsame]; exact hhas, hready⟩
  constructor
  · exact h.one
  · change ∀ w ∈ sys.workers, _
    rw [hno]
    nofun
  · change ∀ w ∈ sys.workers, _
    rw [hno]
    nofun
  · intro a ha
    rw [hactive] at ha
    cases ha
  · intro a ha
    rw [hactive] at ha
    cases ha
  · intro id k k' job job' hjob hjob' hhas hhas'
    obtain ⟨old, hold, hasold, _⟩ := hid hjob hhas
    obtain ⟨old', hold', hasold', _⟩ := hid hjob' hhas'
    exact h.distinct id k k' old old' hold hold' hasold hasold'
  · intro id k job hjob hhas
    obtain ⟨old, hold, hasold, _⟩ := hid hjob hhas
    exact h.jobs id k old hold hasold
  · intro a ha
    rw [hactive] at ha
    cases ha
  · exact h.events
  · intro id hcontinued
    refine ⟨fun k job hjob hhas => ?_, (h.once id hcontinued).2⟩
    obtain ⟨old, hold, hasold, hready⟩ := hid hjob hhas
    by_contra hcontra
    rw [Bool.not_eq_false] at hcontra
    rw [(h.once id hcontinued).1 k old hold hasold] at hready
    exact absurd (hready hcontra) (by decide)
  · intro id hcancelled
    obtain ⟨_, hheld, hwork⟩ := h.ended id hcancelled
    have hnone : ∀ a, s.active = some a → a.id = id → s.flags a.cancel = true := by
      rw [hactive]
      nofun
    refine ⟨hnone, ?_, hwork⟩
    intro k job hjob hhas hready
    obtain ⟨old, hold, hasold, hwas⟩ := hid hjob hhas
    -- a cancelled job that is prepared is the reservation's, which is not prepared any more
    obtain ⟨a, ha, haid⟩ := hheld k old hold hasold (hwas hready)
    rw [← haid] at hasold
    have hkind := h.placed a ha k old hold hasold
    rw [hkind] at hjob
    rw [hunready a ha job hjob] at hready
    cases hready
  · exact h.order

/-- A new reservation comes with its worker. -/
theorem Exclusive.request (h : Exclusive sys) {kind operation : String}
    {root lease : Option String} {work : Work} (hnone : sys.state.active = none)
    (hfresh : world.uuid ∉ sys.uuids) (hjobs : s.jobs = sys.state.jobs) :
    Exclusive { sys with
      state := reserved world kind operation root lease s
      workers := ⟨⟨world.uuid, kind, root, s.created⟩, work⟩ :: sys.workers
      uuids := world.uuid :: sys.uuids } := by
  have hno : sys.workers = [] := by
    apply h.no_workers
    rw [hnone]
    nofun
  have hnew : hasId world.uuid (newJob world s operation) = true := by
    simp [hasId, newJob, Job.extend, Job.set, Value.is, Function.update]
  have hunready : isReady (newJob world s operation) = false := by
    simp [isReady, newJob, Job.extend, Job.set, Value.is, Function.update]
  -- Every job is the new one or an old one.
  have hmem : ∀ {k job}, (reserved world kind operation root lease s).jobs k = some job →
      (k = kind ∧ job = newJob world s operation) ∨ sys.state.jobs k = some job := by
    intro k job hjob
    change Function.update s.jobs kind (some (newJob world s operation)) k = some job at hjob
    by_cases hk : k = kind
    · subst hk
      rw [Function.update_self] at hjob
      exact .inl ⟨rfl, (Option.some.inj hjob).symm⟩
    · rw [Function.update_of_ne hk, hjobs] at hjob
      exact .inr hjob
  -- The new id was never drawn, so no job and no event has it.
  have hother : ∀ {k job}, sys.state.jobs k = some job → hasId world.uuid job = true → False :=
    fun hjob hhas => hfresh (h.jobs _ _ _ hjob hhas)
  have hid : ∀ {id}, hasId id (newJob world s operation) = true → id = world.uuid :=
    fun hhas => Value.is_inj hhas hnew
  have hmine : ∀ {id}, id ∈ sys.uuids → id ≠ world.uuid := by
    rintro id hid rfl
    exact hfresh hid
  constructor
  · change (_ :: sys.workers).length ≤ 1
    rw [hno, List.length_singleton]
  · change ∀ w ∈ _ :: sys.workers, _
    rw [hno]
    intro w hw
    rw [List.mem_singleton] at hw
    subst hw
    exact ⟨_, rfl, rfl, rfl, rfl⟩
  · change ∀ w ∈ _ :: sys.workers, _
    rw [hno]
    intro w hw job hjob
    rw [List.mem_singleton] at hw
    subst hw
    change Function.update s.jobs kind (some (newJob world s operation)) kind = some job at hjob
    rw [Function.update_self] at hjob
    cases hjob
    exact hunready
  · intro a ha job hjob
    cases ha
    change Function.update s.jobs kind (some (newJob world s operation)) kind = some job at hjob
    rw [Function.update_self] at hjob
    cases hjob
    exact hnew
  · intro a ha k job hjob hhas
    cases ha
    rcases hmem hjob with ⟨hk, _⟩ | hold
    · exact hk
    · exact (hother hold hhas).elim
  · intro id k k' job job' hjob hjob' hhas hhas'
    rcases hmem hjob with ⟨hk, rfl⟩ | hold <;> rcases hmem hjob' with ⟨hk', rfl⟩ | hold'
    · rw [hk, hk']
    · exact (hother hold' (hid hhas ▸ hhas')).elim
    · exact (hother hold (hid hhas' ▸ hhas)).elim
    · exact h.distinct id k k' job job' hold hold' hhas hhas'
  · intro id k job hjob hhas
    rcases hmem hjob with ⟨_, rfl⟩ | hold
    · rw [hid hhas]
      exact List.mem_cons_self
    · exact List.mem_cons_of_mem _ (h.jobs id k job hold hhas)
  · intro a ha
    cases ha
    exact List.mem_cons_self
  · exact fun e he => List.mem_cons_of_mem _ (h.events e he)
  · intro id hcontinued
    have hne := hmine (h.events _ hcontinued)
    constructor
    · intro k job hjob hhas
      rcases hmem hjob with ⟨_, rfl⟩ | hold
      · exact hunready
      · exact (h.once id hcontinued).1 k job hold hhas
    · change ∀ w ∈ _ :: sys.workers, _
      rw [hno]
      intro w hw
      rw [List.mem_singleton] at hw
      subst hw
      exact fun hsame => absurd hsame.symm hne
  · intro id hcancelled
    have hne := hmine (h.events _ hcancelled)
    refine ⟨?_, ?_, ?_⟩
    · intro a ha hsame
      cases ha
      exact absurd hsame.symm hne
    · intro k job hjob hhas hready
      rcases hmem hjob with ⟨_, rfl⟩ | hold
      · rw [hunready] at hready
        cases hready
      · obtain ⟨a, ha, _⟩ := (h.ended id hcancelled).2.1 k job hold hhas hready
        rw [hnone] at ha
        cases ha
    · change ∀ w ∈ _ :: sys.workers, _
      rw [hno]
      intro w hw
      rw [List.mem_singleton] at hw
      subst hw
      exact fun hsame => absurd hsame.symm hne
  · exact h.order

/-- A prepared update that was not cancelled is reserved again. -/
theorem Exclusive.reserveAgain (h : Exclusive sys) {a : Active} (hnone : sys.state.active = none)
    (hactive : s.active = some a) (hjobs : s.jobs = sys.state.jobs)
    (hready : hasJob sys.state a.kind (fun job => hasId a.id job && isReady job) = true) :
    Exclusive { sys with state := s } := by
  obtain ⟨job₀, hjob₀, htest⟩ := hasJob_iff.mp hready
  obtain ⟨hhas₀, hready₀⟩ := Bool.and_eq_true_iff.mp htest
  have hno : sys.workers = [] := by
    apply h.no_workers
    rw [hnone]
    nofun
  constructor
  · exact h.one
  · change ∀ w ∈ sys.workers, _
    rw [hno]
    nofun
  · change ∀ w ∈ sys.workers, _
    rw [hno]
    nofun
  · intro b hb job hjob
    rw [hactive] at hb
    cases hb
    rw [hjobs, hjob₀] at hjob
    cases hjob
    exact hhas₀
  · intro b hb k job hjob hhas
    rw [hactive] at hb
    cases hb
    rw [hjobs] at hjob
    exact h.distinct _ _ _ _ _ hjob hjob₀ hhas hhas₀
  · rw [hjobs]
    exact h.distinct
  · rw [hjobs]
    exact h.jobs
  · intro b hb
    rw [hactive] at hb
    cases hb
    exact h.jobs _ _ _ hjob₀ hhas₀
  · exact h.events
  · rw [hjobs]
    exact h.once
  · intro id hcancelled
    obtain ⟨_, hheld, hwork⟩ := h.ended id hcancelled
    have hnever : ∀ k job, sys.state.jobs k = some job → hasId id job = true →
        isReady job ≠ true := by
      intro k job hjob hhas hisready
      obtain ⟨b, hb, _⟩ := hheld k job hjob hhas hisready
      rw [hnone] at hb
      cases hb
    refine ⟨?_, ?_, hwork⟩
    · rintro b hb rfl
      rw [hactive] at hb
      cases hb
      exact absurd hready₀ (hnever _ _ hjob₀ hhas₀)
    · intro k job hjob hhas hisready
      rw [hjobs] at hjob
      exact absurd hisready (hnever k job hjob hhas)
  · exact h.order

/-- The event is added to the history. -/
theorem Exclusive.logged (h : Exclusive sys) {e : Event} (hid : e.id ∈ sys.uuids)
    (hallowed : Allowed sys.history e)
    (honce : ∀ id, e = .continued id →
      (∀ k job, sys.state.jobs k = some job → hasId id job = true → isReady job = false) ∧
        ∀ w ∈ sys.workers, w.ctx.id = id → w.work = .install)
    (hended : ∀ id, e = .cancelled id false →
      (∀ a, sys.state.active = some a → a.id = id → sys.state.flags a.cancel = true) ∧
        (∀ k job, sys.state.jobs k = some job → hasId id job = true → isReady job = true →
          ∃ a, sys.state.active = some a ∧ a.id = id) ∧
        ∀ w ∈ sys.workers, w.ctx.id = id → w.work ≠ .check false) :
    Exclusive { sys with history := e :: sys.history } := by
  refine ⟨h.one, h.owned, h.working, h.own, h.placed, h.distinct, h.jobs, h.active, ?_, ?_, ?_,
    hallowed, h.order⟩
  · intro e' he'
    rcases List.mem_cons.mp he' with rfl | hold
    · exact hid
    · exact h.events e' hold
  · intro id hcontinued
    rcases List.mem_cons.mp hcontinued with heq | hold
    · exact honce id heq.symm
    · exact h.once id hold
  · intro id hcancelled
    rcases List.mem_cons.mp hcancelled with heq | hold
    · exact hended id heq.symm
    · exact h.ended id hold

/-- The reservation's prepared job gets a worker that installs it. -/
theorem Exclusive.continued (h : Exclusive sys) {a : Active} (hactive : sys.state.active = some a)
    (hflag : sys.state.flags a.cancel = false)
    (hready : hasJob sys.state a.kind (fun job => hasId a.id job && isReady job) = true) :
    Exclusive { sys with
      state := installing a.kind sys.state
      workers := ⟨⟨a.id, a.kind, a.runtime, a.cancel⟩, .install⟩ :: sys.workers
      history := .continued a.id :: sys.history } := by
  obtain ⟨job₀, hjob₀, htest⟩ := hasJob_iff.mp hready
  obtain ⟨hhas₀, hready₀⟩ := Bool.and_eq_true_iff.mp htest
  have hno : sys.workers = [] := by
    apply h.no_workers
    intro b hb
    rw [hactive] at hb
    cases hb
    exact hasJob_iff.mpr ⟨job₀, hjob₀, hready₀⟩
  have hfirst : .continued a.id ∉ sys.history := by
    intro hcontinued
    rw [(h.once _ hcontinued).1 _ _ hjob₀ hhas₀] at hready₀
    cases hready₀
  have hlive : .cancelled a.id false ∉ sys.history := by
    intro hcancelled
    rw [(h.ended _ hcancelled).1 a hactive rfl] at hflag
    cases hflag
  have hunready : ∀ job, (installing a.kind sys.state).jobs a.kind = some job →
      isReady job = false := by
    intro job hjob
    obtain ⟨old, _, rfl⟩ := mem_editJob hjob
    simp [isReady, Job.extend, Job.set, Value.is, Function.update]
  have htame : Exclusive { sys with state := installing a.kind sys.state } := by
    refine h.tame (s := installing a.kind sys.state) rfl (Tame.edit ?_) fun _ hf => hf
    intro job _
    simp [isReady, Job.extend, Job.set, Value.is, Function.update]
  have hworker : Exclusive { sys with
      state := installing a.kind sys.state
      workers := ⟨⟨a.id, a.kind, a.runtime, a.cancel⟩, .install⟩ :: sys.workers } := by
    refine ⟨?_, ?_, ?_, htame.own, htame.placed, htame.distinct, htame.jobs, htame.active,
      htame.events, ?_, ?_, htame.order⟩
    · change (_ :: sys.workers).length ≤ 1
      rw [hno, List.length_singleton]
    · change ∀ w ∈ _ :: sys.workers, _
      rw [hno]
      intro w hw
      rw [List.mem_singleton] at hw
      subst hw
      exact ⟨a, hactive, rfl, rfl, rfl⟩
    · change ∀ w ∈ _ :: sys.workers, _
      rw [hno]
      intro w hw
      rw [List.mem_singleton] at hw
      subst hw
      exact hunready
    · intro id hcontinued
      refine ⟨(htame.once id hcontinued).1, ?_⟩
      change ∀ w ∈ _ :: sys.workers, _
      rw [hno]
      intro w hw _
      rw [List.mem_singleton] at hw
      rw [hw]
    · intro id hcancelled
      obtain ⟨hflags, hheld, _⟩ := htame.ended id hcancelled
      refine ⟨hflags, hheld, ?_⟩
      change ∀ w ∈ _ :: sys.workers, _
      rw [hno]
      intro w hw _
      rw [List.mem_singleton] at hw
      rw [hw]
      nofun
  apply hworker.logged
  · exact h.active a hactive
  · exact ⟨hfirst, hlive⟩
  · intro id hid
    cases hid
    constructor
    · intro k job hjob hhas
      have hkind : k = a.kind := hworker.placed a hactive k job hjob hhas
      exact hunready job (hkind ▸ hjob)
    · change ∀ w ∈ _ :: sys.workers, _
      rw [hno]
      intro w hw _
      rw [List.mem_singleton] at hw
      rw [hw]
  · nofun

/-! ## Every step -/

theorem failedFields_id (error : WorkError) (job : Job) :
    failedFields error job "id" = job "id" := by
  unfold failedFields
  rw [Job.extend_other (by simp)]
  split
  · rw [Job.extend_other (by simp)]
  · rw [Job.set_other _ _ (by decide), Job.extend_other (by simp)]

theorem failedFields_state (error : WorkError) (job : Job) :
    failedFields error job "state" = .string (failedState error) := by
  unfold failedFields
  rw [Job.extend_other (by simp)]
  split
  · simp [Job.extend, Job.set, Function.update]
  · rw [Job.set_other _ _ (by decide)]
    simp [Job.extend, Job.set, Function.update]

theorem failedJob_id (error : WorkError) (job : Job) :
    failedJob world error job "id" = job "id" := by
  unfold failedJob
  split
  · rw [Job.extend_other (by simp [cloudFields]), failedFields_id]
  · exact failedFields_id error job

theorem isReady_failedJob (error : WorkError) (job : Job) :
    isReady (failedJob world error job) = false := by
  unfold isReady failedJob
  split
  · rename_i failure _ _
    by_cases hcancelled : failure.code = .cancelled ∧ failure.recoveryRequired = false <;>
      simp [cloudFields, Job.extend, Job.set, Function.update, Value.is, hcancelled]
  · rw [failedFields_state, Value.is_string, failedState]
    split <;> rfl

theorem completedJob_id {extra : List (String × Value)} {retain : Bool} (job : Job) :
    completedJob world extra retain job "id" = job.extend extra "id" := by
  unfold completedJob
  by_cases hrunning : (job.extend extra "state").is "running" = true <;>
    cases retain <;> simp [hrunning, Job.set, Function.update]

theorem isReady_completedJob {extra : List (String × Value)} {retain : Bool} (job : Job)
    (hready : isReady (completedJob world extra retain job) = true) :
    isReady (job.extend extra) = true := by
  unfold completedJob isReady at hready
  by_cases hrunning : (job.extend extra "state").is "running" = true
  · cases retain <;> simp [hrunning, Job.set, Function.update] at hready
  · cases retain <;> simp [hrunning, Job.set] at hready <;> exact hready

theorem outcome_id (world : World) {outcome : Outcome} (retain : Bool) {w : Worker}
    (h : Reports w outcome) (job : Job) : outcomeJob world outcome retain job "id" = job "id" ∨
      outcomeJob world outcome retain job "id" = .string w.ctx.id := by
  cases outcome with
  | error error => exact .inl (failedJob_id error job)
  | ok extra =>
    have hids : ∀ row ∈ extra, row.1 = "id" → row.2 = .string w.ctx.id := by
      cases hwork : w.work with
      | check retain =>
        simp only [Reports, hwork] at h
        exact h
      | preview =>
        simp only [Reports, hwork] at h
      | task =>
        simp only [Reports, hwork] at h
        exact h.id
      | install =>
        simp only [Reports, hwork] at h
        exact h.id
    change completedJob world extra retain job "id" = _ ∨
      completedJob world extra retain job "id" = _
    rw [completedJob_id]
    rcases job.extend_at extra "id" with hsame | ⟨row, hrow, hkey, hvalue⟩
    · exact .inl hsame
    · exact .inr (hvalue.trans (hids row hrow hkey))

theorem outcome_ready {outcome : Outcome} {retain : Bool} {w : Worker} (h : Reports w outcome)
    {job : Job} (hjob : isReady job = false)
    (hready : isReady (outcomeJob world outcome retain job) = true) :
    ∃ r, w.work = .check r := by
  cases outcome with
  | error error =>
    change isReady (failedJob world error job) = true at hready
    rw [isReady_failedJob] at hready
    cases hready
  | ok extra =>
    have hextended := isReady_completedJob job hready
    cases hwork : w.work with
    | check retain => exact ⟨retain, rfl⟩
    | preview =>
      simp only [Reports, hwork] at h
    | task =>
      simp only [Reports, hwork] at h
      rw [isReady_extend h.state hextended] at hjob
      cases hjob
    | install =>
      simp only [Reports, hwork] at h
      rw [isReady_extend h.state hextended] at hjob
      cases hjob

theorem Exclusive.untouched (h : Exclusive sys) (hs : Untouched world sys.state s) :
    Exclusive { sys with state := s } := by
  rcases hs with rfl | rfl
  · exact h
  · apply h.tame poll_active
    · rw [poll_jobs]
      exact Tame.refl _
    · rw [poll_flags]
      exact fun _ hf => hf

theorem update_flags {flags : Flag → Bool} {flag f : Flag} (h : flags f = true) :
    Function.update flags flag true f = true := by
  by_cases hf : f = flag
  · rw [hf, Function.update_self]
  · rw [Function.update_of_ne hf, h]

/-- The flag of the reservation is set. -/
theorem Exclusive.flag (h : Exclusive sys) {a : Active} (hactive : sys.state.active = some a)
    (hs : s.active = some a) (hjobs : Tame sys.state.jobs s.jobs)
    (hflags : s.flags = Function.update sys.state.flags a.cancel true) :
    Exclusive { sys with
      state := s
      history := .cancelled a.id (sys.checking a.id) :: sys.history } := by
  have hset : Exclusive { sys with state := s } := by
    apply h.tame (hs.trans hactive.symm) hjobs
    rw [hflags]
    exact fun _ => update_flags
  apply hset.logged
  · exact h.active a hactive
  · trivial
  · nofun
  · intro id hid
    have hchecking : a.id = id ∧ sys.checking a.id = false := by
      cases hc : sys.checking a.id <;> simp_all
    refine ⟨?_, ?_, ?_⟩
    · intro b hb _
      change s.active = some b at hb
      rw [hs] at hb
      cases hb
      change s.flags a.cancel = true
      rw [hflags, Function.update_self]
    · intro k job hjob hhas _
      exact ⟨a, hs, hchecking.1⟩
    · intro w hw hsame hwork
      have hno := hchecking.2
      unfold System.checking at hno
      rw [List.any_eq_false] at hno
      apply hno w hw
      rw [hsame, hwork, hchecking.1, beq_self_eq_true, beq_self_eq_true]
      rfl

/-- A prepared job of the reservation is cancelled, which gives the reservation back. -/
theorem Exclusive.cancelReady (h : Exclusive sys) {a : Active} {event : Event}
    (hactive : sys.state.active = some a) (hready : hasJob sys.state a.kind isReady = true)
    (hs : s.active = none) (hjobs : Tame sys.state.jobs s.jobs)
    (hunready : ∀ job, s.jobs a.kind = some job → isReady job = false)
    (hevent : ∃ checking, event = .cancelled a.id checking) :
    Exclusive { sys with state := s, history := event :: sys.history } := by
  obtain ⟨checking, rfl⟩ := hevent
  have hno : sys.workers = [] := by
    apply h.no_workers
    intro b hb
    rw [hactive] at hb
    cases hb
    exact hready
  have hreleased : Exclusive { sys with state := s } := by
    apply h.release hno hs hjobs
    intro b hb
    rw [hactive] at hb
    cases hb
    exact hunready
  apply hreleased.logged
  · exact h.active a hactive
  · trivial
  · nofun
  · intro id hid
    cases hid
    refine ⟨?_, ?_, ?_⟩
    · intro b hb
      change s.active = some b at hb
      rw [hs] at hb
      cases hb
    · intro k job hjob hhas hisready
      obtain ⟨old, hold, hsame, _⟩ := hjobs k job hjob
      have hkind : k = a.kind := by
        apply h.placed a hactive k old hold
        rw [hasId, ← hsame]
        exact hhas
      subst hkind
      rw [hunready job hjob] at hisready
      cases hisready
    · change ∀ w ∈ sys.workers, _
      rw [hno]
      nofun

theorem Exclusive.next_continuation (h : Exclusive sys) (kind id : String) :
    Exclusive (next sys (.continuation world kind id)) := by
  have hends := continuation_triple world kind id sys.state rfl
  unfold Backend.next
  dsimp only
  cases hrun : continuation world kind id sys.state with
  | error e s =>
    rw [hrun] at hends
    exact h.untouched hends
  | ok ctx s =>
    rw [hrun] at hends
    obtain ⟨hready, now, a, hgo, rfl, rfl, hnow⟩ := hends
    obtain ⟨ha, hmatch⟩ := Option.filter_eq_some_iff.mp hgo
    simp only [Bool.and_eq_true, Bool.not_eq_true', beq_iff_eq] at hmatch
    obtain ⟨⟨rfl, rfl⟩, hflag⟩ := hmatch
    rcases hnow with rfl | ⟨hnone, _, root, rfl⟩
    · exact h.continued ha hflag hready
    · have hjobs : (reservedUpdate a.kind a.id root (poll world sys.state)).jobs =
          sys.state.jobs := poll_jobs
      have hagain := h.reserveAgain hnone ha hjobs hready
      apply hagain.continued ha hflag
      change hasJob (reservedUpdate a.kind a.id root (poll world sys.state)) _ _ = true
      unfold hasJob at hready ⊢
      rw [hjobs]
      exact hready

theorem Exclusive.cancelUpdate (h : Exclusive sys) {kind id : String} (checking : Bool)
    (hready : hasJob sys.state kind (isReadyUpdate id) = true)
    (hother : current sys.state id = false) :
    Exclusive { sys with
      state := cancelUpdate kind sys.state
      history := .cancelled id checking :: sys.history } := by
  obtain ⟨job₀, hjob₀, htest⟩ := hasJob_iff.mp hready
  have hhas₀ : hasId id job₀ = true := (Bool.and_eq_true_iff.mp (Bool.and_eq_true_iff.mp htest).1).1
  have hnot : ∀ a, sys.state.active = some a → a.id ≠ id := by
    rintro a ha rfl
    rw [current, ha, Option.any_some, beq_self_eq_true] at hother
    cases hother
  have hunready : ∀ job, (Backend.cancelUpdate kind sys.state).jobs kind = some job →
      isReady job = false := by
    intro job hjob
    obtain ⟨old, _, rfl⟩ := mem_editJob hjob
    simp [isReady, Job.extend, Job.set, Value.is, Function.update]
  have hset : Exclusive { sys with state := Backend.cancelUpdate kind sys.state } := by
    refine h.tame (s := Backend.cancelUpdate kind sys.state) rfl (Tame.edit ?_) fun _ hf => hf
    intro job _
    simp [isReady, Job.extend, Job.set, Value.is, Function.update]
  apply hset.logged
  · exact h.jobs _ _ _ hjob₀ hhas₀
  · trivial
  · nofun
  · intro id' hid
    cases hid
    refine ⟨fun a ha hsame => absurd hsame (hnot a ha), ?_, ?_⟩
    · intro k job hjob hhas hisready
      obtain ⟨old, hold, heq⟩ := mem_editJob hjob
      by_cases hk : k = kind
      · subst hk
        rw [hunready job hjob] at hisready
        cases hisready
      · rw [if_neg hk] at heq
        subst heq
        exact absurd (h.distinct id k kind job job₀ hold hjob₀ hhas hhas₀) hk
    · intro w hw hsame
      obtain ⟨a, ha, haid, _⟩ := h.owned w hw
      exact absurd (haid.trans hsame) (hnot a ha)

theorem Exclusive.cancelActive (h : Exclusive sys) {a : Active}
    (hactive : sys.state.active = some a) :
    Exclusive { sys with
      state := cancelActive a a.kind sys.state
      history := .cancelled a.id (sys.checking a.id) :: sys.history } := by
  unfold Backend.cancelActive
  dsimp only
  by_cases hready : hasJob sys.state a.kind isReady = true
  · rw [if_pos hready]
    apply h.cancelReady hactive hready
    · rfl
    · apply Tame.edit
      intro job _
      simp [hready, isReady, Job.extend, Job.set, Value.is, Function.update]
    · intro job hjob
      obtain ⟨old, _, rfl⟩ := mem_editJob hjob
      simp [hready, isReady, Job.set, Value.is]
    · exact ⟨_, rfl⟩
  · rw [if_neg hready]
    apply h.flag hactive
    · exact hactive
    · apply Tame.edit
      intro job _
      simp [hready, isReady, Job.extend, Job.set, Function.update]
    · rfl

theorem Exclusive.next_cancel (h : Exclusive sys) (kind id : String) :
    Exclusive (next sys (.cancel kind id)) := by
  have hends := cancel_triple kind id sys.state rfl
  unfold Backend.next
  dsimp only
  cases hrun : cancel kind id sys.state with
  | error e s =>
    rw [hrun] at hends
    cases hends
    exact h
  | ok u s =>
    rw [hrun] at hends
    rcases hends with ⟨hready, hother, rfl⟩ | ⟨a, ha, rfl, rfl, rfl⟩
    · exact h.cancelUpdate _ hready hother
    · exact h.cancelActive ha

/-- A worker commits only while its reservation is not cancelled. -/
theorem Exclusive.commit (h : Exclusive sys) {w : Worker} (hw : w ∈ sys.workers)
    (hflag : sys.state.flags w.ctx.cancel = false) (hactive : s.active = sys.state.active)
    (hjobs : Tame sys.state.jobs s.jobs) (hflags : s.flags = sys.state.flags) :
    Exclusive { sys with state := s, history := .committed w.ctx.id :: sys.history } := by
  obtain ⟨a, ha, haid, _, hcancel⟩ := h.owned w hw
  have hset : Exclusive { sys with state := s } := by
    apply h.tame hactive hjobs
    rw [hflags]
    exact fun _ hf => hf
  apply hset.logged
  · rw [Event.id, ← haid]
    exact h.active a ha
  · intro hcancelled
    have hset := (h.ended _ hcancelled).1 a ha haid
    rw [hcancel, hflag] at hset
    cases hset
  · nofun
  · nofun

theorem Exclusive.next_beginCommit (h : Exclusive sys) {w : Worker} (hw : w ∈ sys.workers)
    (phase message : String) : Exclusive (next sys (.beginCommit w phase message)) := by
  have hends := beginCommit_triple w.ctx phase message sys.state rfl
  unfold Backend.next
  dsimp only
  cases hrun : beginCommit w.ctx phase message sys.state with
  | error e s =>
    rw [hrun] at hends
    cases hends
    exact h
  | ok u s =>
    rw [hrun] at hends
    obtain ⟨hflag, _, rfl⟩ := hends
    apply h.commit hw hflag
    · rfl
    · apply Tame.edit
      intro job _
      simp [isReady, Job.extend, Job.set, Function.update]
    · rfl

theorem Exclusive.next_activate (h : Exclusive sys) {w : Worker} (hw : w ∈ sys.workers)
    (root : Except Error String) (committed : Except Error Unit) :
    Exclusive (next sys (.activate w root committed)) := by
  have hends := activate_triple w.ctx root committed sys.state rfl
  unfold Backend.next
  dsimp only
  cases hrun : activate w.ctx root committed sys.state with
  | error e s =>
    rw [hrun] at hends
    cases hends
    exact h
  | ok u s =>
    rw [hrun] at hends
    obtain ⟨hflag, _, path, rfl⟩ := hends
    exact h.commit hw hflag rfl (Tame.refl _) rfl

theorem Exclusive.next_publish (h : Exclusive sys) {w : Worker} (hw : w ∈ sys.workers)
    {result : List (String × Value)} (hwork : w.work = .preview)
    (hid : ∀ row ∈ result, row.1 = "id" → row.2 = .string w.ctx.id) :
    Exclusive (next sys (.publish w result)) := by
  have hends := publish_triple w.ctx result sys.state rfl
  unfold Backend.next
  dsimp only
  cases hrun : publish w.ctx result sys.state with
  | error e s =>
    rw [hrun] at hends
    cases hends
    exact h
  | ok u s =>
    rw [hrun] at hends
    obtain ⟨_, _, rfl⟩ := hends
    apply h.end_worker hw (.inl rfl)
    · intro job
      rcases job.extend_at result "id" with hsame | ⟨row, hrow, hkey, hvalue⟩
      · exact .inl hsame
      · exact .inr (hvalue.trans (hid row hrow hkey))
    · intro job _ _
      rw [hwork]
      refine ⟨nofun, nofun, fun hnone => ?_⟩
      obtain ⟨a, ha, _⟩ := h.owned w hw
      rw [ha] at hnone
      cases hnone

theorem Exclusive.next_finish (h : Exclusive sys) {w : Worker} (hw : w ∈ sys.workers)
    {outcome : Outcome} (hreports : Reports w outcome) :
    Exclusive (next sys (.finish world w outcome)) := by
  obtain ⟨a, ha, haid, hkind, _⟩ := h.owned w hw
  have hcurrent : current sys.state w.ctx.id = true := by
    rw [current, ha, Option.any_some, haid, beq_self_eq_true]
  have hids := outcome_id world w.work.retains hreports
  have hprepared : ∀ job, sys.state.jobs w.ctx.kind = some job →
      isReady (outcomeJob world outcome w.work.retains job) = true → ∃ r, w.work = .check r :=
    fun job hjob => outcome_ready hreports (h.working w hw job hjob)
  change Exclusive { sys with
    state := finish world w.ctx outcome w.work.retains sys.state
    workers := sys.workers.erase w }
  unfold finish
  rw [if_pos hcurrent]
  dsimp only
  split
  · rename_i hgives
    apply h.end_worker hw (.inr rfl) hids
    intro job hjob hready
    obtain ⟨r, hr⟩ := hprepared job hjob hready
    refine ⟨by rw [hr]; nofun, by rw [hr]; nofun, fun _ hcancelled => ?_⟩
    have hnot := (h.ended _ hcancelled).2.2 w hw rfl
    cases r with
    | false => exact hnot hr
    | true =>
      -- the reservation of a retained check is given back only when its job is not prepared
      rw [hr, Work.retains, Bool.not_true, Bool.false_or, hasJob_iff] at hgives
      obtain ⟨job', hjob', hstate⟩ := hgives
      change Function.update _ _ _ _ = _ at hjob'
      rw [Function.update_self, hjob] at hjob'
      cases hjob'
      rw [hr] at hready
      change isReady (outcomeJob world outcome true job) = true at hready
      rw [Value.eq_of_is hready] at hstate
      exact absurd hstate (by decide)
  · apply h.end_worker hw (.inl rfl) hids
    intro job hjob hready
    obtain ⟨r, hr⟩ := hprepared job hjob hready
    refine ⟨by rw [hr]; nofun, by rw [hr]; nofun, fun hnone => ?_⟩
    rw [ha] at hnone
    cases hnone

theorem flagged_of_set {a : Active} (ha : sys.state.active = some a)
    (hset : s.flags a.cancel = true) :
    sys.flagged s = .cancelled a.id (sys.checking a.id) :: sys.history := by
  unfold System.flagged
  rw [ha]
  exact if_pos hset

theorem flagged_none (ha : sys.state.active = none) : sys.flagged s = sys.history := by
  unfold System.flagged
  rw [ha]

theorem flagged_of_unset {a : Active} (ha : sys.state.active = some a)
    (hunset : s.flags a.cancel ≠ true) : sys.flagged s = sys.history := by
  unfold System.flagged
  rw [ha]
  exact if_neg hunset

theorem Exclusive.next_interrupt (h : Exclusive sys) : Exclusive (next sys .interrupt) := by
  change Exclusive { sys with
    state := interrupt sys.state
    history := sys.flagged (interrupt sys.state) }
  cases ha : sys.state.active with
  | none =>
    have hsame : interrupt sys.state = sys.state := by
      unfold interrupt
      rw [ha]
    rw [hsame, flagged_none ha]
    exact h
  | some a =>
    have hflag : interrupt sys.state =
        { sys.state with flags := Function.update sys.state.flags a.cancel true } := by
      unfold interrupt
      split
      · simp_all
      · simp_all
    rw [hflag, flagged_of_set ha (Function.update_self ..)]
    exact h.flag ha ha (Tame.refl _) rfl

theorem closeReady_of_ready {a : Active} (ha : s.active = some a)
    (hready : hasJob s a.kind isReady = true) :
    closeReady s =
      { editJob a.kind (fun job => job.set "state" (.string "cancelled")) s with
        flags := Function.update s.flags a.cancel true
        plans := Function.update s.plans a.kind none
        active := none } := by
  unfold closeReady
  split
  · simp_all
  · rename_i b hb
    rw [ha] at hb
    cases hb
    rw [if_pos hready]

theorem closeReady_of_not {a : Active} (ha : s.active = some a)
    (hready : hasJob s a.kind isReady = false) : closeReady s = s := by
  unfold closeReady
  split
  · rfl
  · rename_i b hb
    rw [ha] at hb
    cases hb
    rw [hready]
    rfl

theorem close_none {beforeStart : Bool} (ha : s.active = none) :
    close beforeStart s = { s with closing := true } := by
  unfold close closeReady
  simp only [ha]

theorem close_ready {beforeStart : Bool} {a : Active} (ha : s.active = some a)
    (hready : hasJob s a.kind isReady = true) :
    close beforeStart s =
      { editJob a.kind (fun job => job.set "state" (.string "cancelled"))
          { s with closing := true } with
        flags := Function.update s.flags a.cancel true
        plans := Function.update s.plans a.kind none
        active := none } := by
  unfold close
  rw [closeReady_of_ready (s := { s with closing := true }) ha hready]

theorem close_working (beforeStart : Bool) {a : Active} (ha : s.active = some a)
    (hready : hasJob s a.kind isReady = false) :
    close beforeStart s = { s with closing := true } ∨
      close beforeStart s =
        { s with closing := true, flags := Function.update s.flags a.cancel true } := by
  unfold close
  rw [closeReady_of_not (s := { s with closing := true }) ha hready]
  dsimp only
  split
  · exact .inl rfl
  · rename_i b hb
    rw [ha] at hb
    cases hb
    split
    · exact .inr rfl
    · exact .inl rfl

theorem Exclusive.next_close (h : Exclusive sys) (beforeStart : Bool) :
    Exclusive (next sys (.close beforeStart)) := by
  change Exclusive { sys with
    state := close beforeStart sys.state
    history := sys.flagged (close beforeStart sys.state) }
  have hclosing : Exclusive { sys with state := { sys.state with closing := true } } :=
    h.tame (s := { sys.state with closing := true }) rfl (Tame.refl _) fun _ hf => hf
  cases ha : sys.state.active with
  | none =>
    rw [close_none ha, flagged_none ha]
    exact hclosing
  | some a =>
    cases hready : hasJob sys.state a.kind isReady with
    | true =>
      rw [close_ready ha hready, flagged_of_set ha (Function.update_self ..)]
      apply h.cancelReady ha hready
      · rfl
      · refine Tame.edit (s := { sys.state with closing := true }) ?_
        intro job _
        simp [isReady, Job.set, Value.is, Function.update]
      · intro job hjob
        obtain ⟨old, _, rfl⟩ := mem_editJob (s := { sys.state with closing := true }) hjob
        simp [isReady, Job.set, Value.is]
      · exact ⟨_, rfl⟩
    | false =>
      rcases close_working beforeStart ha hready with hsame | hset
      · rw [hsame]
        by_cases hflag : sys.state.flags a.cancel = true
        · rw [flagged_of_set (s := { sys.state with closing := true }) ha hflag]
          apply h.flag ha
          · exact ha
          · exact Tame.refl _
          · change sys.state.flags = _
            rw [← hflag, Function.update_eq_self]
        · rw [flagged_of_unset (s := { sys.state with closing := true }) ha hflag]
          exact hclosing
      · rw [hset, flagged_of_set ha (Function.update_self ..)]
        exact h.flag ha ha (Tame.refl _) rfl

theorem Exclusive.next (h : Exclusive sys) {action : Action} (hp : Possible sys action) :
    Exclusive (next sys action) := by
  cases action with
  | request world kind operation needsRuntime work =>
    have hends := reserveLocked_triple world kind operation needsRuntime sys.state rfl
    unfold Backend.next
    dsimp only
    cases hrun : reserveLocked world kind operation needsRuntime sys.state with
    | ok ctx s =>
      rw [hrun] at hends
      obtain ⟨hnone, root, lease, rfl, rfl⟩ := hends
      exact h.request hnone hp.1 poll_jobs
    | error e s =>
      rw [hrun] at hends
      exact h.untouched hends
  | update worker patch =>
    obtain ⟨hw, hplain⟩ := hp
    change Exclusive { sys with state := update worker.ctx patch sys.state }
    unfold update
    by_cases hmine :
        hasJob sys.state worker.ctx.kind (fun job => (job "id").is worker.ctx.id) = true
    · rw [if_pos hmine]
      refine h.tame (s := editJob worker.ctx.kind (fun job => job.extend patch) sys.state) rfl
        (Tame.extend ?_) fun _ hf => hf
      intro job hjob
      obtain ⟨job', hjob', hhas⟩ := hasJob_iff.mp hmine
      rw [hjob] at hjob'
      cases hjob'
      rw [Value.eq_of_is hhas]
      exact hplain
    · rw [if_neg hmine]
      exact h
  | finish world worker outcome => exact h.next_finish hp.1 hp.2
  | publish worker result => exact h.next_publish hp.1 hp.2.1 hp.2.2
  | beginCommit worker phase message => exact h.next_beginCommit hp phase message
  | activate worker root committed => exact h.next_activate hp root committed
  | continuation world kind id => exact h.next_continuation kind id
  | cancel kind id => exact h.next_cancel kind id
  | interrupt => exact h.next_interrupt
  | refresh world =>
    change Exclusive { sys with state := stateOf (refresh world sys.state) }
    have hends : Ends (refresh world sys.state)
        (fun _ s => s = { poll world sys.state with closing := true })
        (fun _ => Untouched world sys.state) := by
      apply Triple.bind (idle_triple (s := sys.state)) _ _ rfl
      intro _
      apply Triple.update
      rintro s ⟨rfl, _⟩
      rfl
    cases hrun : refresh world sys.state with
    | error e s =>
      rw [hrun] at hends
      exact h.untouched hends
    | ok u s =>
      rw [hrun] at hends
      cases hends
      apply h.tame (s := { poll world sys.state with closing := true }) poll_active
      · rw [show ({ poll world sys.state with closing := true } : State).jobs =
          sys.state.jobs from poll_jobs]
        exact Tame.refl _
      · rw [show ({ poll world sys.state with closing := true } : State).flags =
          sys.state.flags from poll_flags]
        exact fun _ hf => hf
  | close beforeStart => exact h.next_close beforeStart
  | poll world => exact h.untouched (.inr rfl)
  | edit kind rows =>
    exact h.tame (s := editJob kind (fun job => job.extend rows) sys.state) rfl (Tame.extend hp)
      fun _ hf => hf
  | forget kind =>
    refine h.tame (s := { sys.state with jobs := Function.update sys.state.jobs kind none }) rfl
      ?_ fun _ hf => hf
    intro k job hjob
    change Function.update sys.state.jobs kind none k = some job at hjob
    by_cases hk : k = kind
    · rw [hk, Function.update_self] at hjob
      cases hjob
    · rw [Function.update_of_ne hk] at hjob
      exact ⟨job, hjob, rfl, id⟩
  | plan kind value =>
    exact h.tame (s := { sys.state with plans := Function.update sys.state.plans kind value }) rfl
      (Tame.refl _) fun _ hf => hf
  | elsewhere steam runtime process stopping exitCode =>
    exact h.tame (s := { sys.state with steam, runtime, process, stopping, exitCode }) rfl
      (Tame.refl _) fun _ hf => hf

theorem Exclusive.of_reachable (h : Reachable sys) : Exclusive sys := by
  induction h with
  | start hstarted => exact .of_started hstarted
  | step _ hp ih => exact ih.next hp

/-! ## The reservation -/

theorem finish_active (ctx : Context) (outcome : Outcome) (retain : Bool) :
    (finish world ctx outcome retain s).active = s.active ∨
      (finish world ctx outcome retain s).active = none := by
  unfold finish
  dsimp only
  split
  · split
    · exact .inr rfl
    · exact .inl rfl
  · exact .inl rfl

theorem cancelActive_active (a : Active) (kind : String) :
    (cancelActive a kind s).active = s.active ∨ (cancelActive a kind s).active = none := by
  unfold cancelActive
  dsimp only
  split
  · exact .inr rfl
  · exact .inl rfl

theorem close_active (beforeStart : Bool) :
    (close beforeStart s).active = s.active ∨ (close beforeStart s).active = none := by
  cases ha : s.active with
  | none =>
    rw [close_none ha]
    exact .inl ha
  | some a =>
    cases hready : hasJob s a.kind isReady with
    | true =>
      rw [close_ready ha hready]
      exact .inr rfl
    | false =>
      rcases close_working beforeStart ha hready with h | h <;>
        rw [h] <;> exact .inl ha

theorem Untouched.active {s s' : State} (h : Untouched world s s') : s'.active = s.active := by
  rcases h with rfl | rfl
  · rfl
  · exact poll_active

/-- The reservation is the old one or none, unless there was none. -/
def Kept (s s' : State) : Prop := s.active = none ∨ s'.active = s.active ∨ s'.active = none

theorem Untouched.kept {s s' : State} (h : Untouched world s s') : Kept s s' := .inr (.inl h.active)

theorem next_kept (sys : System) (action : Action) :
    Kept sys.state (next sys action).state := by
  unfold Backend.next
  cases action with
  | request world kind operation needsRuntime work =>
    have hends := reserveLocked_triple world kind operation needsRuntime sys.state rfl
    dsimp only
    cases hrun : reserveLocked world kind operation needsRuntime sys.state with
    | ok ctx s =>
      rw [hrun] at hends
      exact .inl hends.1
    | error e s =>
      rw [hrun] at hends
      exact Untouched.kept hends
  | update worker patch =>
    right
    left
    change (update worker.ctx patch sys.state).active = sys.state.active
    unfold update
    split <;> rfl
  | finish world worker outcome => exact .inr (finish_active ..)
  | publish worker result =>
    have hends := publish_triple worker.ctx result sys.state rfl
    dsimp only
    cases hrun : publish worker.ctx result sys.state with
    | ok u s =>
      rw [hrun] at hends
      obtain ⟨_, _, rfl⟩ := hends
      exact .inr (.inl rfl)
    | error e s =>
      rw [hrun] at hends
      cases hends
      exact .inr (.inl rfl)
  | beginCommit worker phase message =>
    have hends := beginCommit_triple worker.ctx phase message sys.state rfl
    dsimp only
    cases hrun : beginCommit worker.ctx phase message sys.state with
    | ok u s =>
      rw [hrun] at hends
      obtain ⟨_, _, rfl⟩ := hends
      exact .inr (.inl rfl)
    | error e s =>
      rw [hrun] at hends
      cases hends
      exact .inr (.inl rfl)
  | activate worker root committed =>
    have hends := activate_triple worker.ctx root committed sys.state rfl
    dsimp only
    cases hrun : activate worker.ctx root committed sys.state with
    | ok u s =>
      rw [hrun] at hends
      obtain ⟨_, _, path, rfl⟩ := hends
      exact .inr (.inl rfl)
    | error e s =>
      rw [hrun] at hends
      cases hends
      exact .inr (.inl rfl)
  | continuation world kind id =>
    have hends := continuation_triple world kind id sys.state rfl
    dsimp only
    cases hrun : continuation world kind id sys.state with
    | ok ctx s =>
      rw [hrun] at hends
      obtain ⟨_, now, a, _, rfl, _, rfl | ⟨hnone, _⟩⟩ := hends
      · exact .inr (.inl rfl)
      · exact .inl hnone
    | error e s =>
      rw [hrun] at hends
      exact Untouched.kept hends
  | cancel kind id =>
    have hends := cancel_triple kind id sys.state rfl
    dsimp only
    cases hrun : cancel kind id sys.state with
    | ok u s =>
      rw [hrun] at hends
      rcases hends with ⟨_, _, rfl⟩ | ⟨a, _, _, _, rfl⟩
      · exact .inr (.inl rfl)
      · exact .inr (cancelActive_active a kind)
    | error e s =>
      rw [hrun] at hends
      cases hends
      exact .inr (.inl rfl)
  | interrupt =>
    right
    left
    change (interrupt sys.state).active = sys.state.active
    unfold interrupt
    split <;> rfl
  | refresh world =>
    have hends : Triple (fun t => t = sys.state) (refresh world)
        (fun _ t => Kept sys.state t) (fun _ t => Kept sys.state t) := by
      apply Triple.bind ((idle_triple (s := sys.state)).mono (fun _ h => h) (fun _ _ h => h)
        fun _ _ h => Untouched.kept h)
      intro _
      apply Triple.update
      rintro t ⟨rfl, _⟩
      exact .inr (.inl poll_active)
    exact (hends sys.state rfl).stateOf
  | close beforeStart => exact .inr (close_active beforeStart)
  | poll world => exact .inr (.inl poll_active)
  | edit kind rows => exact .inr (.inl rfl)
  | forget kind => exact .inr (.inl rfl)
  | plan kind value => exact .inr (.inl rfl)
  | elsewhere steam runtime process stopping exitCode => exact .inr (.inl rfl)

/-! ## What is not the reservation's -/

/-- The reservation is the job's. -/
def Reserved (s : State) (kind id : String) : Prop :=
  ∃ a, s.active = some a ∧ a.kind = kind ∧ a.id = id

/-- A context that is not the reservation's changes nothing, and neither does an id that is not,
unless it is that of a prepared game update: it gave its reservation back, and is reserved again or
cancelled without one. -/
structure StaleRefused (s : State) : Prop where
  finish : ∀ world ctx outcome retain, current s ctx.id = false →
    finish world ctx outcome retain s = s
  beginCommit : ∀ ctx phase message, current s ctx.id = false →
    Ends (beginCommit ctx phase message s) (fun _ _ => False) fun _ s' => s' = s
  activate : ∀ ctx root committed, current s ctx.id = false →
    Ends (activate ctx root committed s) (fun _ _ => False) fun _ s' => s' = s
  publish : ∀ ctx result, current s ctx.id = false →
    Ends (publish ctx result s) (fun _ _ => False) fun _ s' => s' = s
  continuation : ∀ world kind id, ¬ Reserved s kind id →
    Ends (continuation world kind id s)
      (fun _ s' => s.active = none ∧ hasJob s kind (isReadyUpdate id) = true ∧
        Reserved s' kind id)
      fun _ s' => Untouched world s s'
  cancel : ∀ kind id, ¬ Reserved s kind id →
    Ends (cancel kind id s)
      (fun _ s' => current s id = false ∧ hasJob s kind (isReadyUpdate id) = true ∧
        s' = cancelUpdate kind s)
      fun _ s' => s' = s

theorem staleRefused (s : State) : StaleRefused s := by
  constructor
  · intro world ctx outcome retain h
    exact finish_of_not_current outcome retain h
  · intro ctx phase message h
    apply (beginCommit_triple ctx phase message s rfl).mono _ fun _ _ h => h
    rintro _ t ⟨_, hcurrent, _⟩
    rw [h] at hcurrent
    cases hcurrent
  · intro ctx root committed h
    apply (activate_triple ctx root committed s rfl).mono _ fun _ _ h => h
    rintro _ t ⟨_, hcurrent, _⟩
    rw [h] at hcurrent
    cases hcurrent
  · intro ctx result h
    apply (publish_triple ctx result s rfl).mono _ fun _ _ h => h
    rintro _ t ⟨_, hcurrent, _⟩
    rw [h] at hcurrent
    cases hcurrent
  · intro world kind id h
    apply (continuation_triple world kind id s rfl).mono _ fun _ _ h => h
    rintro ctx t ⟨hready, now, a, hgo, rfl, _, rfl | ⟨hnone, hmode, root, rfl⟩⟩
    · obtain ⟨ha, hmatch⟩ := Option.filter_eq_some_iff.mp hgo
      simp only [Bool.and_eq_true, Bool.not_eq_true', beq_iff_eq] at hmatch
      exact absurd ⟨a, ha, hmatch.1⟩ h
    · refine ⟨hnone, ?_, _, rfl, rfl, rfl⟩
      obtain ⟨job, hjob, htest⟩ := hasJob_iff.mp hready
      obtain ⟨job', hjob', htest'⟩ := hasJob_iff.mp hmode
      rw [hjob] at hjob'
      cases hjob'
      apply hasJob_iff.mpr
      refine ⟨job, hjob, ?_⟩
      rw [Bool.and_eq_true] at htest htest'
      rw [isReadyUpdate, htest.1, htest'.1, htest.2]
      rfl
  · intro kind id h
    apply (cancel_triple kind id s rfl).mono _ fun _ _ h => h
    rintro _ t (⟨hready, hother, ht⟩ | ⟨a, ha, hkind, hid, _⟩)
    · exact ⟨hother, hready, ht⟩
    · exact absurd ⟨a, ha, hkind, hid⟩ h

/-! ## The coordinator -/

/-- At most one worker is at work, and it holds the reservation, which no step overwrites; what is
not the reservation's is refused; and the history has each job continued at most once, and neither
continued nor committed after it was cancelled. -/
theorem coordinator_exclusive {sys : System} (h : Reachable sys) :
    (sys.workers.length ≤ 1 ∧ ∀ w ∈ sys.workers, Owns sys.state w.ctx) ∧
      (∀ action a b, sys.state.active = some a → (next sys action).state.active = some b →
        b = a) ∧
      StaleRefused sys.state ∧ EachStep Allowed sys.history := by
  have hinv : Exclusive sys := .of_reachable h
  refine ⟨⟨hinv.one, hinv.owned⟩, ?_, staleRefused sys.state, hinv.order⟩
  intro action a b ha hb
  rcases next_kept sys action with hnone | hsame | hnone
  · rw [ha] at hnone
    cases hnone
  · rw [hb, ha] at hsame
    exact Option.some.inj hsame
  · rw [hb] at hnone
    cases hnone

/-! ## A prepared game update -/

section

def calm : World := ⟨none, false, false, .ok (), "1", "2024-01-01T00:00:00Z"⟩

/-- The launcher with a runtime, just started. -/
def fresh : System :=
  { state := {
      steam := none, runtime := some "/games/msfs", process := false, exitCode := none
      stopping := false, closing := false, active := none, jobs := fun _ => none
      plans := fun _ => none, flags := fun _ => false, created := 0 }
    workers := [], uuids := [], history := [] }

theorem fresh_started : Started fresh := ⟨rfl, rfl, rfl, rfl, fun _ => rfl⟩

def checker : Worker := ⟨⟨"1", "setup", some "/games/msfs", 0⟩, .check false⟩

def requested : System := next fresh (.request calm "setup" "check" true (.check false))

def checking : System :=
  next requested (.update checker [("state", .string "checking"), ("mode", .string "update")])

/-- The update was found, and the check has given its reservation back. -/
def prepared : System :=
  next checking (.finish calm checker (.ok [("state", .string "ready")]))

theorem prepared_reachable : Reachable prepared := by
  have hrequested : Reachable requested := by
    apply (Reachable.start fresh_started).step
    exact ⟨by decide, by decide⟩
  have hchecking : Reachable checking := by
    apply hrequested.step
    refine ⟨by decide, ?_, ?_⟩ <;> simp [Value.is]
  apply hchecking.step
  refine ⟨by decide, ?_⟩
  simp [Reports, checker]

/-- A cancellation that is not the reservation's changes a job: nothing is reserved any more, and
the prepared update is cancelled. -/
theorem cancelled_without_reservation :
    ¬ ∀ sys, Reachable sys → ∀ kind id, ¬ Reserved sys.state kind id →
      stateOf (cancel kind id sys.state) = sys.state := by
  intro h
  have hnone : ¬ Reserved prepared.state "setup" "1" := by
    rintro ⟨a, ha, _⟩
    have hno : prepared.state.active.isNone = true := by decide
    rw [ha] at hno
    cases hno
  have hsame := h prepared prepared_reachable "setup" "1" hnone
  have hbefore : hasJob prepared.state "setup" isReady = true := by decide
  have hafter : hasJob (stateOf (cancel "setup" "1" prepared.state)) "setup" isReady = false := by
    decide
  rw [hsame, hbefore] at hafter
  cases hafter

/-- The same after the prepared update was continued. -/
theorem coordinator_exclusive_continued :
    let sys := next prepared (.continuation calm "setup" "1")
    sys.history = [.continued "1"] ∧
      (sys.workers.length ≤ 1 ∧ ∀ w ∈ sys.workers, Owns sys.state w.ctx) ∧
      (∀ action a b, sys.state.active = some a → (next sys action).state.active = some b →
        b = a) ∧
      StaleRefused sys.state ∧ EachStep Allowed sys.history :=
  ⟨by decide, coordinator_exclusive (prepared_reachable.step trivial)⟩

end

end Flightdeck.Backend
