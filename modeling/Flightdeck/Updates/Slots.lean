import Flightdeck.Updates.Checks

/-!
# The slots of the checks

Requests, threads and jobs in any order, any of which may fail.  A slot is taken as long as a thread
is alive that will clear it, if the steps between the lock and the start of the thread succeed.
-/

namespace Flightdeck.Updates

open Foundation
open Backend (Context Flag Job Value)

/-! ## The interleavings -/

inductive Action where
  | begin (world : World) (operation : Operation) (checkId : Option String) (startup : Bool)
  | checkFenix (world : World) (force : Bool)
  | checkStartup (world : World)
  | onStartup (world : World) (thread : Thread)
  /-- `std::thread::spawn`, which panics where no thread can be started -/
  | spawn (thread : Thread) (started : Bool)
  | change (thread : Thread) (patch : List (String × Value))
  | commit (thread : Thread)
  | found (world : World) (thread : Thread) (release : Value)
  /-- the work of the launcher's thread has returned, failed or panicked -/
  | report (thread : Thread) (result : Except Error String)
  | finish (world : World) (thread : Thread) (outcome : Backend.Outcome)
  | clear (thread : Thread)
  | endFenix (world : World) (thread : Thread) (requires : Bool) (result : Except String Value)
  | endStartup (thread : Thread) (value : List (String × Value))
  | cancel (id : String)
  | snapshot (world : World)
  | restart (world : World) (child : Except Error Unit)
  | close (beforeStart : Bool)
  /-- a job of the coordinator, or a request about one -/
  | other (action : Backend.Action)

variable {s s' : Service} {world : World} {th : Thread}

/-- The thread that a request is about to start. -/
def taken (r : EStateM.Result Error Service (Option Thread)) : Service :=
  match r with
  | .ok (some thread) s => { s with threads := thread :: s.threads }
  | .ok none s => s
  | .error _ s => s

def drop (thread : Thread) (s : Service) : Service :=
  { s with threads := s.threads.filter (· ≠ thread) }

def advance (thread : Thread) (stage : Stage) (s : Service) : Service :=
  { s with threads := s.threads.map fun t => if t = thread then { t with stage } else t }

def setSlot (slot : Slot) (s : Service) : Service :=
  match slot with
  | .launcher => { s with launcher := { s.launcher with worker := none } }
  | .fenix => { s with fenix := { s.fenix with worker := none } }
  | .startup => { s with startup := { s.startup with worker := none } }

/-- The reservation of an install or a rollback is given back. -/
def giveBack (world : World) (thread : Thread) (outcome : Backend.Outcome) (s : Service) : Service :=
  match thread.task with
  | .launcher _ _ (some ctx) =>
    { s with sys := Backend.next s.sys (.finish world.base ⟨ctx, .task⟩ outcome) }
  | _ => s

def Task.id : Task → String
  | .launcher id _ _ => id
  | .fenix current => current
  | .startup root _ => root

def Task.startedAt : Task → String
  | .startup _ startedAt => startedAt
  | _ => ""

def next (s : Service) : Action → Service
  | .begin world operation checkId startup => taken («begin» world operation checkId startup s)
  | .checkFenix world force => taken (checkFenix world force s)
  | .checkStartup world => taken (checkStartup world s)
  | .onStartup world thread =>
    match onStartup world s with
    | .ok _ s => advance thread .audited s
    | .error _ s => drop thread s
  | .spawn thread started => if started then advance thread .working s else drop thread s
  | .change thread patch => { s with launcher := change thread.task.id patch s.launcher }
  | .commit thread => stateOf (commit thread.task.id thread.flag s)
  | .found world thread release => stateOf (found world thread.task.id release s)
  | .report thread result =>
    advance thread .reported
      { s with launcher := change thread.task.id (outcome result) s.launcher }
  | .finish world thread outcome => advance thread .finished (giveBack world thread outcome s)
  | .clear thread => drop thread (setSlot .launcher s)
  | .endFenix world thread requires result =>
    drop thread (endFenix world requires thread.flag result s)
  | .endStartup thread value =>
    drop thread (endStartup thread.task.id thread.task.startedAt thread.flag value s)
  | .cancel id => stateOf (cancel id s)
  | .snapshot world => snapshotLocked world s
  | .restart world child => stateOf (restart world child s)
  | .close beforeStart => close beforeStart s
  | .other action => { s with sys := Backend.next s.sys action }

/-- A thread of the slot is at the stage. -/
def At (s : Service) (th : Thread) (slot : Slot) (stage : Stage) : Prop :=
  th ∈ s.threads ∧ th.task.slot = slot ∧ th.stage = stage

/-- A thread takes its steps in order, and what it writes of its job while it is at work leaves the
id, the state and the operation alone. -/
def Possible (s : Service) : Action → Prop
  | .onStartup _ th => At s th .startup .taken
  | .spawn th _ => At s th .launcher .taken ∨ At s th .fenix .taken ∨ At s th .startup .audited
  | .change th patch => At s th .launcher .working ∧
      ∀ row ∈ patch, row.1 ≠ "id" ∧ row.1 ≠ "state" ∧ row.1 ≠ "operation"
  | .commit th => At s th .launcher .working
  | .found _ th _ => At s th .launcher .working
  | .report th _ => At s th .launcher .working
  | .finish _ th _ => At s th .launcher .reported
  | .clear th => At s th .launcher .finished
  | .endFenix _ th _ _ => At s th .fenix .working
  | .endStartup th value => At s th .startup .working ∧
      ∀ row ∈ value, row.1 = "state" → row.2.is "checking" = false
  | _ => True

/-- A service that was just started. -/
structure Started (s : Service) : Prop where
  threads : s.threads = []
  slots : ∀ slot, s.slot slot = none
  job : s.launcher.job = fun _ => .null
  status : s.fenix.status = fun _ => .null
  records : s.startup.records = ∅

/-- The runs whose steps all meet a condition. -/
inductive Runs (meets : Service → Action → Prop) : Service → Prop where
  | start {s : Service} : Started s → Runs meets s
  | step {s : Service} {action : Action} : Runs meets s → Possible s action → meets s action →
      Runs meets (next s action)

/-- The cleanup of Proton copies is about to be reserved. -/
def Audits (world : World) (s : Service) : Prop :=
  ∃ root, s.sys.state.runtime = some root ∧ unaudited world root s = false ∧
    (["syncing", "playing", "attention"].contains world.automatic) = false

/-- Between the lock and the start of the thread nothing fails: when the cleanup is reserved, Xbox is
selected and its lock can be taken, and a thread can be started. -/
def Starts (s : Service) : Action → Prop
  | .onStartup world _ => Audits world s → s.sys.state.steam = none ∧ world.base.lease = .ok ()
  | .spawn _ started => started = true
  | _ => True

/-- Besides, no check ends after the launcher began to close. -/
def Open (s : Service) (action : Action) : Prop :=
  Starts s action ∧ match action with
    | .endFenix _ th _ _ => s.sys.state.closing = false ∧ s.sys.state.flags th.flag = false
    | .endStartup th _ => s.sys.state.closing = false ∧ s.sys.state.flags th.flag = false
    | _ => True

/-! ## What the operations leave alone -/

def isRunning (s : Service) : Bool := (s.launcher.job "state").is "running"

def isChecking (job : Job) : Bool := (job "state").is "checking"

/-- The job that runs is the one that ran before, or opens the launcher again. -/
def SameJob (u u' : LauncherUpdates) : Prop :=
  (u'.job "state").is "running" = true → (u'.job "operation").is "restart" = true ∨
    u'.job "id" = u.job "id" ∧ (u.job "state").is "running" = true ∧
      (u.job "operation").is "restart" = false

/-- No slot is taken or cleared, and nothing begins to run or to check. -/
structure Calm (s s' : Service) : Prop where
  threads : s'.threads = s.threads
  launcher : s'.launcher.worker = s.launcher.worker
  job : SameJob s.launcher s'.launcher
  fenix : s'.fenix = s.fenix
  startup : s'.startup = s.startup

theorem SameJob.refl (u : LauncherUpdates) : SameJob u u := by
  intro h
  cases hrestart : (u.job "operation").is "restart" with
  | true => exact .inl rfl
  | false => exact .inr ⟨rfl, h, rfl⟩

theorem SameJob.trans {u v w : LauncherUpdates} (h : SameJob u v) (h' : SameJob v w) :
    SameJob u w := by
  intro hw
  rcases h' hw with hrestart | ⟨hid, hv, hno⟩
  · exact .inl hrestart
  · rcases h hv with hrestart | ⟨hid', hu, hno'⟩
    · rw [hno] at hrestart
      cases hrestart
    · exact .inr ⟨hid.trans hid', hu, hno'⟩

theorem Calm.refl (s : Service) : Calm s s := ⟨rfl, rfl, .refl _, rfl, rfl⟩

theorem Calm.trans {t : Service} (h : Calm s s') (h' : Calm s' t) : Calm s t :=
  ⟨h'.threads.trans h.threads, h'.launcher.trans h.launcher, h.job.trans h'.job,
    h'.fenix.trans h.fenix, h'.startup.trans h.startup⟩

theorem Calm.of_sys (s : Service) (sys : Backend.System) : Calm s { s with sys } :=
  ⟨rfl, rfl, .refl _, rfl, rfl⟩

theorem backend_triple {α : Type} (m : Backend.Run α) :
    Triple (fun t => t = s) (backend m) (fun _ => Calm s) fun _ => Calm s := by
  apply Triple.zoom
  rintro t rfl
  cases m t.sys.state with
  | ok a state => exact .of_sys t _
  | error e state => exact .of_sys t _

theorem noteError_eq (world : World) (u : LauncherUpdates) :
    (noteError world u).worker = u.worker ∧ (noteError world u).job = u.job := by
  unfold noteError
  split
  · split <;> exact ⟨rfl, rfl⟩
  · exact ⟨rfl, rfl⟩

theorem snapshotUpdates_worker (u : LauncherUpdates) :
    (snapshotUpdates world u).worker = u.worker := by
  rw [← (noteError_eq world u).1]
  unfold snapshotUpdates waitRestart
  split <;> rfl

theorem snapshotUpdates_job (world : World) (u : LauncherUpdates) :
    (snapshotUpdates world u).job = u.job ∨ (snapshotUpdates world u).job = restartFailed world := by
  rw [← (noteError_eq world u).2]
  unfold snapshotUpdates waitRestart
  split
  · dsimp only
    split
    · exact .inr rfl
    · exact .inl rfl
  · exact .inl rfl

theorem snapshotLocked_calm : Calm s (snapshotLocked world s) := by
  refine ⟨rfl, snapshotUpdates_worker _, ?_, rfl, rfl⟩
  intro hrunning
  rcases snapshotUpdates_job world s.launcher with hsame | hfailed
  · change ((snapshotUpdates world s.launcher).job "state").is "running" = true at hrunning
    rw [hsame] at hrunning
    rcases SameJob.refl s.launcher hrunning with h | h
    · left
      change ((snapshotUpdates world s.launcher).job "operation").is "restart" = true
      rw [hsame]
      exact h
    · right
      refine ⟨?_, h.2⟩
      change (snapshotUpdates world s.launcher).job "id" = _
      rw [hsame]
  · change ((snapshotUpdates world s.launcher).job "state").is "running" = true at hrunning
    rw [hfailed] at hrunning
    simp [restartFailed, Job.extend, Job.set, Function.update] at hrunning

/-! ## What takes a slot -/

/-- The slot was free, and is taken for a thread that is to be started. -/
structure Took (s s' : Service) (th : Thread) : Prop where
  free : s.slot th.task.slot = none
  stage : th.stage = .taken
  threads : s'.threads = s.threads
  slot : s'.slot th.task.slot = some th.flag
  others : ∀ slot, slot ≠ th.task.slot → s'.slot slot = s.slot slot
  job : SameJob s.launcher s'.launcher ∨
    th.task.slot = .launcher ∧ (s'.launcher.job "id").is th.task.id = true
  status : s'.fenix = s.fenix ∨ th.task.slot = .fenix
  records : s'.startup = s.startup ∨ ∃ startedAt root, th.task = .startup root startedAt ∧
    ∀ other record, s'.startup.records[other]? = some record → other = root ∨
      s.startup.records[other]? = some record

theorem Took.of_calm {t : Service} (h : Calm s t) (h' : Took t s' th) : Took s s' th := by
  have hslot : ∀ slot, t.slot slot = s.slot slot := by
    intro slot
    cases slot with
    | launcher => exact h.launcher
    | fenix => exact congrArg FenixUpdates.worker h.fenix
    | startup => exact congrArg StartupUpdates.worker h.startup
  refine ⟨(hslot _).symm.trans h'.free, h'.stage, h'.threads.trans h.threads, h'.slot, ?_, ?_, ?_,
    ?_⟩
  · exact fun slot hne => (h'.others slot hne).trans (hslot slot)
  · exact h'.job.imp h.job.trans id
  · exact h'.status.imp (fun hsame => hsame.trans h.fenix) id
  · rw [← h.startup]
    exact h'.records

theorem newFlag_triple : Triple (fun t => t = s) newFlag (fun _ => Calm s) fun _ => Calm s := by
  unfold newFlag
  apply Triple.get_bind
  rintro t rfl
  rintro u rfl
  exact .of_sys u _

theorem require_triple {α : Type} {condition : Bool} {error : Error} {m : Run α}
    {Q : α → Service → Prop} {E : Error → Service → Prop}
    (hm : condition = true → Triple (fun t => t = s) m Q E) (he : E error s) :
    Triple (fun t => t = s) (liftM (require condition error) >>= fun _ => m) Q E := by
  cases condition with
  | true => exact hm rfl
  | false =>
    rintro t rfl
    exact he

theorem reserve_triple (world : World) (kind operation : String) (needsRuntime : Bool) :
    Triple (fun t => t = s) (reserve world kind operation needsRuntime)
      (fun _ => Calm s) fun _ => Calm s := by
  unfold reserve
  apply Triple.bind (backend_triple _)
  intro ctx
  apply Triple.bind (Q := fun _ => Calm s)
  · apply Triple.update
    exact fun t ht => ht.trans (.of_sys t _)
  · exact fun _ t ht => ht

theorem claim_triple (operation : Operation) :
    Triple (fun t => t = s) (claim world operation) (fun _ => Calm s) fun _ => Calm s := by
  have hreserve : Triple (fun t => t = s)
      (do
        cloudIdle world
        let ctx ← reserve world "launcher-update" operation.text false
        return ((some ctx, ctx.cancel) : Option Context × Flag) : Run _)
      (fun _ => Calm s) fun _ => Calm s := by
    apply require_triple
    · intro _
      apply Triple.bind (reserve_triple _ _ _ _)
      exact fun ctx t ht => ht
    · exact .refl s
  cases operation with
  | check =>
    unfold claim
    apply Triple.bind newFlag_triple
    exact fun flag t ht => ht
  | install => exact hreserve
  | rollback => exact hreserve

theorem begun_took {t : Service} {operation : Operation} {ctx : Option Context} {flag : Flag}
    (h : Calm s t) (hfree : s.launcher.worker = none) :
    Took s { t with launcher := begun world operation flag t.launcher }
      ⟨.launcher world.uuid operation ctx, flag, .taken⟩ := by
  have hworker : (begun world operation flag t.launcher).worker = some flag := by
    unfold begun
    split <;> rfl
  have hjob : (begun world operation flag t.launcher).job = runningJob world operation := by
    unfold begun
    split <;> rfl
  refine ⟨hfree, rfl, h.threads, hworker, ?_, .inr ⟨rfl, ?_⟩, .inl h.fenix, .inl h.startup⟩
  · intro slot hne
    cases slot with
    | launcher => exact absurd rfl hne
    | fenix => exact congrArg FenixUpdates.worker h.fenix
    | startup => exact congrArg StartupUpdates.worker h.startup
  · change ((begun world operation flag t.launcher).job "id").is world.uuid = true
    rw [hjob]
    simp [runningJob, Job.extend, Job.set, Function.update]

theorem beginPermitted_triple (operation : Operation) (checkId : Option String)
    (hfree : s.launcher.worker = none) :
    Triple (fun t => t = s) (beginPermitted world operation checkId)
      (fun th t => Took s t th) fun _ => Calm s := by
  unfold beginPermitted
  apply Triple.get_bind
  rintro t rfl
  apply require_triple
  · intro _
    apply Triple.bind (claim_triple operation)
    rintro ⟨ctx, flag⟩
    apply Triple.bind (Q := fun _ v => ∃ u, Calm t u ∧
      v = { u with launcher := begun world operation flag u.launcher })
    · apply Triple.update
      exact fun u hu => ⟨u, hu, rfl⟩
    · rintro _ v ⟨u, hu, rfl⟩
      exact begun_took hu hfree
  · exact .refl t

theorem permitted_free {operation : Operation} (h : permitted world s operation = true) :
    s.launcher.worker = none := by
  unfold permitted at h
  cases operation <;> simp_all

/-- What the operations that take a slot end with. -/
def Begins (s : Service) (thread : Option Thread) (t : Service) : Prop :=
  match thread with
  | none => Calm s t
  | some th => Took s t th

theorem begin_triple (operation : Operation) (checkId : Option String) (startup : Bool) :
    Triple (fun t => t = s) («begin» world operation checkId startup) (Begins s)
      fun _ => Calm s := by
  unfold «begin»
  apply Triple.get_bind
  rintro t rfl
  apply require_triple (s := t)
  · intro _
    apply Triple.ite
    · rintro _ u rfl
      exact .refl u
    · intro _
      apply Triple.bind (Q := fun _ u => u = snapshotLocked world t)
      · apply Triple.update
        rintro u rfl
        rfl
      · intro _
        apply Triple.get_bind
        rintro u rfl
        apply Triple.ite
        · rintro _ v rfl
          exact snapshotLocked_calm
        · intro _
          apply require_triple
          · intro hpermitted
            apply Triple.map
            apply (beginPermitted_triple operation checkId (permitted_free hpermitted)).mono
            · exact fun v hv => hv
            · exact fun th v hv => hv.of_calm snapshotLocked_calm
            · exact fun e v hv => snapshotLocked_calm.trans hv
          · exact snapshotLocked_calm
  · exact .refl t

theorem checkFenix_triple (force : Bool) :
    Triple (fun t => t = s) (checkFenix world force) (Begins s) fun _ => Calm s := by
  unfold checkFenix
  apply Triple.get_bind
  rintro t rfl
  apply require_triple (s := t)
  · intro _
    apply Triple.ite
    · rintro _ u rfl
      exact .refl u
    · intro _
      apply Triple.bind (Q := fun _ u => u = t)
      · apply Triple.lift
        · rintro current u rfl _
          rfl
        · rintro e u rfl _
          exact .refl u
      · intro current
        apply Triple.ite
        · rintro _ u rfl
          exact .refl u
        · intro hdue
          have hfree : t.fenix.worker = none := by
            cases hworker : t.fenix.worker with
            | none => rfl
            | some flag =>
              rw [hworker] at hdue
              exact absurd rfl hdue
          apply Triple.bind newFlag_triple
          intro flag
          apply Triple.bind (Q := fun _ v => ∃ u, Calm t u ∧ v.threads = t.threads ∧
            v.launcher = u.launcher ∧ v.fenix.worker = some flag ∧ v.startup = t.startup)
          · apply Triple.update
            exact fun u hu => ⟨u, hu, hu.threads, rfl, rfl, hu.startup⟩
          · rintro _ v ⟨u, hu, hthreads, hlauncher, hworker, hstartup⟩
            refine ⟨hfree, rfl, hthreads, hworker, ?_, .inl ?_, .inr rfl, .inl hstartup⟩
            · intro slot hne
              cases slot with
              | launcher => exact (congrArg LauncherUpdates.worker hlauncher).trans hu.launcher
              | fenix => exact absurd rfl hne
              | startup => exact congrArg StartupUpdates.worker hstartup
            · rw [hlauncher]
              exact hu.job
  · exact .refl t

theorem getElem?_evict {records : TextMap Record} {root : String} {record : Record}
    (h : (evict records)[root]? = some record) : records[root]? = some record := by
  unfold evict at h
  split at h
  · split at h
    · rw [getElem?_erase_eq] at h
      split at h
      · cases h
      · exact h
    · exact h
  · exact h

theorem takeStartup_triple (root : String) (hfree : s.startup.worker = none) :
    Triple (fun t => t = s) (takeStartup world root) (fun th t => Took s t th)
      fun _ => Calm s := by
  unfold takeStartup
  apply Triple.bind newFlag_triple
  intro flag
  apply Triple.bind (Q := fun _ v => ∃ u, Calm s u ∧ v = { u with startup := {
    records := (evict u.startup.records).insert root (checkingRecord world)
    worker := some flag } })
  · apply Triple.update
    exact fun u hu => ⟨u, hu, rfl⟩
  · rintro _ v ⟨u, hu, rfl⟩
    refine ⟨hfree, rfl, hu.threads, rfl, ?_, .inl hu.job, .inl hu.fenix, .inr ⟨_, root, rfl, ?_⟩⟩
    · intro slot hne
      cases slot with
      | launcher => exact hu.launcher
      | fenix => exact congrArg FenixUpdates.worker hu.fenix
      | startup => exact absurd rfl hne
    · intro other record hrecord
      change ((evict u.startup.records).insert root (checkingRecord world))[other]? = _ at hrecord
      rw [getElem?_insert_eq] at hrecord
      split at hrecord
      · rename_i hsame
        exact .inl hsame.symm
      · right
        rw [← hu.startup]
        exact getElem?_evict hrecord

theorem idle_triple : Triple (fun t => t = s) (attempt (backend (Backend.idle world.base)))
    (fun (_ : Except Error Unit) => Calm s) fun (_ : Error) => Calm s :=
  Triple.attempt (backend_triple _)

theorem checkRuntime_triple (root : String) :
    Triple (fun t => t = s) (checkRuntime world root) (Begins s) fun _ => Calm s := by
  unfold checkRuntime
  apply Triple.bind idle_triple
  intro idle
  apply Triple.get_bind
  intro t ht
  apply Triple.ite
  · rintro _ u rfl
    exact ht
  · intro hidle
    have hfree : t.startup.worker = none := by
      cases hworker : t.startup.worker with
      | none => rfl
      | some flag =>
        rw [hworker, Option.isSome_some, Bool.or_true] at hidle
        exact absurd rfl hidle
    apply Triple.ite
    · rintro _ u rfl
      exact ht
    · intro _
      apply Triple.map
      apply (takeStartup_triple root hfree).mono
      · exact fun u hu => hu
      · exact fun th u hu => hu.of_calm ht
      · exact fun e u hu => ht.trans hu

theorem checkStartup_triple :
    Triple (fun t => t = s) (checkStartup world) (Begins s) fun _ => Calm s := by
  unfold checkStartup
  apply Triple.get_bind
  rintro t rfl
  apply require_triple (s := t)
  · intro _
    apply Triple.ite
    · rintro _ u rfl
      exact .refl u
    · intro _
      cases t.sys.state.runtime with
      | none =>
        rintro u rfl
        exact .refl u
      | some root => exact checkRuntime_triple root
  · exact .refl t

/-- Nothing is reserved and no game runs. -/
def isIdle (base : Backend.World) (state : Backend.State) : Bool :=
  state.active.isNone && !state.process && !Backend.external base state

theorem poll_of_isIdle {base : Backend.World} {state : Backend.State}
    (h : isIdle base state = true) : Backend.poll base state = state := by
  unfold isIdle at h
  simp only [Bool.and_eq_true, Bool.not_eq_true'] at h
  unfold Backend.poll
  rw [h.1.2]
  rfl

theorem idle_of_isIdle {base : Backend.World} {state : Backend.State}
    (hopen : state.closing = false) (hidle : isIdle base state = true) :
    Backend.idle base state = .ok () state := by
  simp only [Backend.idle, get_bind, Backend.isOpen, hopen]
  change (liftM (Backend.require (isIdle base (Backend.poll base state)) Backend.IDLE) :
    Backend.Run Unit) (Backend.poll base state) = _
  rw [poll_of_isIdle hidle, hidle]
  rfl

/-- What `Launcher::idle` has found when it succeeds. -/
theorem isIdle_of_idle {base : Backend.World} {state : Backend.State} :
    Triple (fun t => t = state) (Backend.idle base)
      (fun _ t => t = Backend.poll base state ∧ t.closing = false ∧ isIdle base t = true)
      fun _ _ => True := by
  unfold Backend.idle
  apply Triple.get_bind
  rintro t rfl
  apply Backend.require_triple
  · intro hopen
    apply Triple.bind (Q := fun _ u => u = Backend.poll base t)
    · apply Triple.update
      rintro u rfl
      rfl
    · intro _
      apply Triple.get_bind
      rintro u rfl
      rintro v rfl
      have hclosing : (Backend.poll base t).closing = false := by
        have hsame : (Backend.poll base t).closing = t.closing := by
          unfold Backend.poll
          split
          · split <;> rfl
          · rfl
        rw [hsame]
        exact Bool.not_eq_true' _ ▸ hopen
      cases hidle : (Backend.poll base t).active.isNone && !(Backend.poll base t).process &&
          !Backend.external base (Backend.poll base t) with
      | false => trivial
      | true => exact ⟨rfl, hclosing, hidle⟩
  · trivial

/-- A coordinator that is idle can be reserved, if the lock of the runtime can be taken. -/
theorem reserveLocked_of_idle {base : Backend.World} {state : Backend.State} {root : String}
    (hopen : state.closing = false) (hidle : isIdle base state = true)
    (hsteam : state.steam = none) (hroot : state.runtime = some root)
    (hlease : base.lease = .ok ()) (kind operation : String) :
    succeeded (Backend.reserveLocked base kind operation true state) = true := by
  unfold Backend.reserveLocked
  rw [run_bind (idle_of_isIdle hopen hidle), get_bind]
  simp only [hsteam, hroot, Backend.takeLease, Backend.acquire, hlease]
  rfl

theorem reserve_of_idle {root : String} (hopen : s.sys.state.closing = false)
    (hidle : isIdle world.base s.sys.state = true) (hsteam : s.sys.state.steam = none)
    (hroot : s.sys.state.runtime = some root) (hlease : world.base.lease = .ok ())
    (kind operation : String) : succeeded (reserve world kind operation true s) = true := by
  obtain ⟨ctx, state, hok⟩ :=
    exists_of_succeeded (reserveLocked_of_idle hopen hidle hsteam hroot hlease kind operation)
  have hrun : backend (Backend.reserveLocked world.base kind operation true) s =
      .ok ctx { s with sys := { s.sys with state } } := by
    unfold backend zoom
    rw [hok]
  unfold reserve
  rw [run_bind hrun]
  rfl

theorem onStartup_triple (h : Starts s (.onStartup world th)) :
    Triple (fun t => t = s) (onStartup world) (fun _ => Calm s) fun _ _ => False := by
  unfold onStartup
  apply Triple.get_bind
  rintro t rfl
  cases hroot : t.sys.state.runtime with
  | none =>
    rintro u rfl
    exact .refl u
  | some root =>
    apply Triple.ite
    · rintro _ u rfl
      exact .refl u
    · intro hdue
      rw [Bool.not_eq_true] at hdue
      apply Triple.bind (Q := fun (idle : Except Error Unit) u => Calm t u ∧
        (idle.isOk = true → u.sys.state.closing = false ∧ isIdle world.base u.sys.state = true ∧
          u.sys.state.steam = t.sys.state.steam ∧ u.sys.state.runtime = t.sys.state.runtime))
      · apply Triple.attempt
        apply Triple.zoom
        rintro u rfl
        apply (isIdle_of_idle u.sys.state rfl).mono
        · rintro _ state ⟨rfl, hopen, hidle⟩
          refine ⟨.of_sys u _, fun _ => ⟨hopen, hidle, ?_, Backend.poll_runtime⟩⟩
          change (Backend.poll world.base u.sys.state).steam = u.sys.state.steam
          unfold Backend.poll
          split
          · split <;> rfl
          · rfl
        · exact fun e state _ => ⟨.of_sys u _, nofun⟩
      · intro idle
        apply Triple.ite
        · rintro _ u ⟨hcalm, _⟩
          exact hcalm
        · intro hgo
          simp only [Bool.or_eq_true, not_or, Bool.not_eq_true', Bool.not_eq_false,
            Bool.not_eq_true] at hgo
          obtain ⟨hsteam, hlease⟩ := h ⟨root, hroot, hdue, hgo.2⟩
          rintro u ⟨hcalm, hidle⟩
          obtain ⟨hopen, hisidle, hsame, hruntime⟩ := hidle hgo.1
          obtain ⟨ctx, v, hok⟩ := exists_of_succeeded (reserve_of_idle hopen hisidle
            (hsame.trans hsteam) (hruntime.trans hroot) hlease "proton-cleanup" "cleanup")
          have hv := reserve_triple world "proton-cleanup" "cleanup" true u rfl
          rw [hok] at hv
          have hrun : (discard (reserve world "proton-cleanup" "cleanup" true)) u = .ok () v := by
            change EStateM.map _ _ u = _
            unfold EStateM.map
            rw [hok]
          change Ends ((discard (reserve world "proton-cleanup" "cleanup" true)) u) _ _
          rw [hrun]
          exact hcalm.trans hv

/-! ## The invariant -/

/-- The stages that a thread of the slot goes through. -/
def Staged (th : Thread) : Prop :=
  match th.task.slot with
  | .launcher => th.stage ≠ .audited
  | .fenix => th.stage = .taken ∨ th.stage = .working
  | .startup => th.stage = .taken ∨ th.stage = .audited ∨ th.stage = .working

/-- The thread has not reported the result of its job. -/
def Unreported (th : Thread) : Prop :=
  th.task.slot = .launcher ∧ (th.stage = .taken ∨ th.stage = .working)

structure Held (s : Service) : Prop where
  claimed : ∀ th ∈ s.threads, s.slot th.task.slot = some th.flag
  one : ∀ th ∈ s.threads, ∀ th' ∈ s.threads, th.task.slot = th'.task.slot → th = th'
  staged : ∀ th ∈ s.threads, Staged th
  owned : ∀ slot flag, s.slot slot = some flag → ∃ th ∈ s.threads, th.task.slot = slot
  job : isRunning s = true → (s.launcher.job "operation").is "restart" = true ∨
    ∃ th ∈ s.threads, Unreported th ∧ (s.launcher.job "id").is th.task.id = true

/-- A record that still says `checking` is that of a thread. -/
structure Recorded (s : Service) : Prop where
  status : isChecking s.fenix.status = true → ∃ th ∈ s.threads, th.task.slot = .fenix
  records : ∀ (root : String) record, s.startup.records[root]? = some record →
    isChecking record.value = true → ∃ th ∈ s.threads, ∃ startedAt,
      th.task = .startup root startedAt

theorem Held.of_started (h : Started s) : Held s := by
  have hno : ∀ th, th ∉ s.threads := by
    rw [h.threads]
    nofun
  refine ⟨?_, ?_, ?_, ?_, ?_⟩
  · exact fun th hth => absurd hth (hno th)
  · exact fun th hth => absurd hth (hno th)
  · exact fun th hth => absurd hth (hno th)
  · intro slot flag hslot
    rw [h.slots] at hslot
    cases hslot
  · intro hrunning
    rw [isRunning, h.job] at hrunning
    cases hrunning

theorem Recorded.of_started (h : Started s) : Recorded s := by
  constructor
  · intro hchecking
    rw [h.status] at hchecking
    cases hchecking
  · intro root record hrecord
    rw [h.records] at hrecord
    simp at hrecord

theorem Calm.slot (h : Calm s s') (slot : Slot) : s'.slot slot = s.slot slot := by
  cases slot with
  | launcher => exact h.launcher
  | fenix => exact congrArg FenixUpdates.worker h.fenix
  | startup => exact congrArg StartupUpdates.worker h.startup

theorem Held.calm (h : Held s) (hs : Calm s s') : Held s' := by
  refine ⟨?_, ?_, ?_, ?_, ?_⟩
  · intro th hth
    rw [hs.slot]
    exact h.claimed th (hs.threads ▸ hth)
  · rw [hs.threads]
    exact h.one
  · rw [hs.threads]
    exact h.staged
  · intro slot flag hslot
    rw [hs.slot] at hslot
    rw [hs.threads]
    exact h.owned slot flag hslot
  · intro hrunning
    rcases hs.job hrunning with hrestart | ⟨hid, hran, hno⟩
    · exact .inl hrestart
    · rcases h.job hran with hrestart | ⟨th, hth, hstage, hsame⟩
      · rw [hno] at hrestart
        cases hrestart
      · refine .inr ⟨th, hs.threads ▸ hth, hstage, ?_⟩
        rw [hid]
        exact hsame

theorem Recorded.calm (h : Recorded s) (hs : Calm s s') : Recorded s' := by
  constructor
  · rw [hs.fenix, hs.threads]
    exact h.status
  · rw [hs.startup, hs.threads]
    exact h.records

/-- A thread that is to be started holds the slot that was free. -/
theorem Held.took (h : Held s) (hs : Took s s' th) :
    Held { s' with threads := th :: s'.threads } := by
  have hother : ∀ t ∈ s.threads, t.task.slot ≠ th.task.slot := by
    intro t ht hsame
    have hclaimed := h.claimed t ht
    rw [hsame, hs.free] at hclaimed
    cases hclaimed
  have hmem : ∀ t ∈ th :: s'.threads, t = th ∨ t ∈ s.threads := by
    intro t ht
    rw [hs.threads] at ht
    exact List.mem_cons.mp ht
  refine ⟨?_, ?_, ?_, ?_, ?_⟩
  · intro t ht
    change s'.slot t.task.slot = some t.flag
    rcases hmem t ht with rfl | hold
    · exact hs.slot
    · rw [hs.others _ (hother t hold)]
      exact h.claimed t hold
  · intro t ht t' ht' hsame
    rcases hmem t ht with rfl | hold <;> rcases hmem t' ht' with rfl | hold'
    · rfl
    · exact absurd hsame.symm (hother t' hold')
    · exact absurd hsame (hother t hold)
    · exact h.one t hold t' hold' hsame
  · intro t ht
    rcases hmem t ht with rfl | hold
    · unfold Staged
      rw [hs.stage]
      cases t.task.slot with
      | launcher => exact Stage.noConfusion
      | fenix => exact .inl rfl
      | startup => exact .inl rfl
    · exact h.staged t hold
  · intro slot flag hslot
    change s'.slot slot = some flag at hslot
    by_cases hsame : slot = th.task.slot
    · exact ⟨th, List.mem_cons_self, hsame.symm⟩
    · rw [hs.others _ hsame] at hslot
      obtain ⟨t, ht, htask⟩ := h.owned slot flag hslot
      refine ⟨t, List.mem_cons_of_mem _ ?_, htask⟩
      rw [hs.threads]
      exact ht
  · intro hrunning
    rcases hs.job with hsame | ⟨hslot, hid⟩
    · rcases hsame hrunning with hrestart | ⟨hid, hran, hno⟩
      · exact .inl hrestart
      · rcases h.job hran with hrestart | ⟨t, ht, hstage, hmine⟩
        · rw [hno] at hrestart
          cases hrestart
        · refine .inr ⟨t, List.mem_cons_of_mem _ (hs.threads ▸ ht), hstage, ?_⟩
          change (s'.launcher.job "id").is t.task.id = true
          rw [hid]
          exact hmine
    · exact .inr ⟨th, List.mem_cons_self, ⟨hslot, .inl hs.stage⟩, hid⟩

theorem Recorded.took (h : Recorded s) (hs : Took s s' th) :
    Recorded { s' with threads := th :: s'.threads } := by
  have hmem : ∀ t ∈ s.threads, t ∈ th :: s'.threads := by
    intro t ht
    rw [hs.threads]
    exact List.mem_cons_of_mem _ ht
  constructor
  · intro hchecking
    rcases hs.status with hsame | hslot
    · rw [hsame] at hchecking
      obtain ⟨t, ht, htask⟩ := h.status hchecking
      exact ⟨t, hmem t ht, htask⟩
    · exact ⟨th, List.mem_cons_self, hslot⟩
  · intro root record hrecord hchecking
    rcases hs.records with hsame | ⟨startedAt, other, htask, hrecords⟩
    · rw [hsame] at hrecord
      obtain ⟨t, ht, htask⟩ := h.records root record hrecord hchecking
      exact ⟨t, hmem t ht, htask⟩
    · rcases hrecords root record hrecord with rfl | hold
      · exact ⟨th, List.mem_cons_self, startedAt, htask⟩
      · obtain ⟨t, ht, hsame⟩ := h.records root record hold hchecking
        exact ⟨t, hmem t ht, hsame⟩

/-! ## Steps of a thread -/

theorem mem_advance {stage : Stage} {t : Thread} (ht : t ∈ (advance th stage s).threads) :
    t ∈ s.threads ∧ t ≠ th ∨ t = { th with stage } := by
  obtain ⟨u, hu, rfl⟩ := List.mem_map.mp ht
  by_cases hsame : u = th
  · rw [if_pos hsame, hsame]
    exact .inr rfl
  · rw [if_neg hsame]
    exact .inl ⟨hu, hsame⟩

theorem advance_mem {stage : Stage} (hth : th ∈ s.threads) :
    { th with stage } ∈ (advance th stage s).threads :=
  List.mem_map.mpr ⟨th, hth, if_pos rfl⟩

theorem advance_other {stage : Stage} {t : Thread} (ht : t ∈ s.threads) (hne : t ≠ th) :
    t ∈ (advance th stage s).threads := List.mem_map.mpr ⟨t, ht, if_neg hne⟩

theorem Held.advance (h : Held s) {stage : Stage} (hth : th ∈ s.threads)
    (hstaged : Staged { th with stage })
    (hjob : Unreported th → Unreported { th with stage } ∨
      (isRunning s = true → (s.launcher.job "id").is th.task.id = false)) :
    Held (advance th stage s) := by
  refine ⟨?_, ?_, ?_, ?_, ?_⟩
  · intro t ht
    rcases mem_advance ht with ⟨hold, _⟩ | rfl
    · exact h.claimed t hold
    · exact h.claimed th hth
  · intro t ht t' ht' hsame
    rcases mem_advance ht with ⟨hold, hne⟩ | rfl <;>
      rcases mem_advance ht' with ⟨hold', hne'⟩ | rfl
    · exact h.one t hold t' hold' hsame
    · exact absurd (h.one t hold th hth hsame) hne
    · exact absurd (h.one th hth t' hold' hsame).symm hne'
    · rfl
  · intro t ht
    rcases mem_advance ht with ⟨hold, _⟩ | rfl
    · exact h.staged t hold
    · exact hstaged
  · intro slot flag hslot
    obtain ⟨t, ht, htask⟩ := h.owned slot flag hslot
    by_cases hsame : t = th
    · exact ⟨_, advance_mem hth, by rw [← hsame]; exact htask⟩
    · exact ⟨t, advance_other ht hsame, htask⟩
  · intro hrunning
    rcases h.job hrunning with hrestart | ⟨t, ht, hstage, hid⟩
    · exact .inl hrestart
    · by_cases hsame : t = th
      · rw [hsame] at hid hstage
        rcases hjob hstage with hstill | hdone
        · exact .inr ⟨_, advance_mem hth, hstill, hid⟩
        · have hother : (s.launcher.job "id").is th.task.id = false := hdone hrunning
          rw [hid] at hother
          cases hother
      · exact .inr ⟨t, advance_other ht hsame, hstage, hid⟩

theorem Recorded.advance (h : Recorded s) {stage : Stage} (hth : th ∈ s.threads) :
    Recorded (advance th stage s) := by
  constructor
  · intro hchecking
    obtain ⟨t, ht, htask⟩ := h.status hchecking
    by_cases hsame : t = th
    · exact ⟨_, advance_mem hth, by rw [← hsame]; exact htask⟩
    · exact ⟨t, advance_other ht hsame, htask⟩
  · intro root record hrecord hchecking
    obtain ⟨t, ht, startedAt, htask⟩ := h.records root record hrecord hchecking
    by_cases hsame : t = th
    · exact ⟨_, advance_mem hth, startedAt, by rw [← hsame]; exact htask⟩
    · exact ⟨t, advance_other ht hsame, startedAt, htask⟩

/-- A thread's last step clears its slot. -/
structure Cleared (s s' : Service) (th : Thread) : Prop where
  threads : s'.threads = s.threads
  slot : s'.slot th.task.slot = none
  others : ∀ slot, slot ≠ th.task.slot → s'.slot slot = s.slot slot
  job : s'.launcher.job = s.launcher.job

theorem mem_drop {t : Thread} : t ∈ (drop th s).threads ↔ t ∈ s.threads ∧ t ≠ th := by
  unfold drop
  simp

theorem Held.drop (h : Held s) (hs : Cleared s s' th) (hth : th ∈ s.threads)
    (hdone : ¬ Unreported th) : Held (drop th s') := by
  have hold : ∀ t ∈ (Updates.drop th s').threads, t ∈ s.threads ∧ t ≠ th := by
    intro t ht
    obtain ⟨hmem, hne⟩ := mem_drop.mp ht
    exact ⟨hs.threads ▸ hmem, hne⟩
  have hkept : ∀ t ∈ s.threads, t ≠ th → t ∈ (Updates.drop th s').threads := by
    intro t ht hne
    exact mem_drop.mpr ⟨hs.threads ▸ ht, hne⟩
  refine ⟨?_, ?_, ?_, ?_, ?_⟩
  · intro t ht
    obtain ⟨hmem, hne⟩ := hold t ht
    change s'.slot t.task.slot = some t.flag
    rw [hs.others _ fun hsame => hne (h.one t hmem th hth hsame)]
    exact h.claimed t hmem
  · exact fun t ht t' ht' => h.one t (hold t ht).1 t' (hold t' ht').1
  · exact fun t ht => h.staged t (hold t ht).1
  · intro slot flag hslot
    change s'.slot slot = some flag at hslot
    by_cases hsame : slot = th.task.slot
    · rw [hsame, hs.slot] at hslot
      cases hslot
    · rw [hs.others _ hsame] at hslot
      obtain ⟨t, ht, htask⟩ := h.owned slot flag hslot
      refine ⟨t, hkept t ht ?_, htask⟩
      rintro rfl
      exact hsame htask.symm
  · intro hrunning
    have hran : isRunning s = true := by
      unfold isRunning
      rw [← hs.job]
      exact hrunning
    change (s'.launcher.job "operation").is "restart" = true ∨ ∃ t ∈ _, _ ∧
      (s'.launcher.job "id").is _ = true
    rw [hs.job]
    rcases h.job hran with hrestart | ⟨t, ht, hstage, hid⟩
    · exact .inl hrestart
    · refine .inr ⟨t, hkept t ht ?_, hstage, hid⟩
      rintro rfl
      exact hdone hstage

theorem setSlot_cleared (hslot : th.task.slot = .launcher) :
    Cleared s (setSlot .launcher s) th := by
  refine ⟨rfl, ?_, ?_, rfl⟩
  · rw [hslot]
    rfl
  · rw [hslot]
    intro slot hne
    cases slot with
    | launcher => exact absurd rfl hne
    | fenix => rfl
    | startup => rfl

theorem endFenix_cleared {requires : Bool} {flag : Flag} {result : Except String Value}
    (hslot : th.task.slot = .fenix) : Cleared s (endFenix world requires flag result s) th := by
  refine ⟨rfl, ?_, ?_, rfl⟩
  · rw [hslot]
    rfl
  · rw [hslot]
    intro slot hne
    cases slot with
    | launcher => rfl
    | fenix => exact absurd rfl hne
    | startup => rfl

theorem endStartup_cleared {root startedAt : String} {flag : Flag} {value : List (String × Value)}
    (hslot : th.task.slot = .startup) : Cleared s (endStartup root startedAt flag value s) th := by
  refine ⟨rfl, ?_, ?_, rfl⟩
  · rw [hslot]
    rfl
  · rw [hslot]
    intro slot hne
    cases slot with
    | launcher => rfl
    | fenix => rfl
    | startup => exact absurd rfl hne

theorem Recorded.drop_launcher (h : Recorded s) (hslot : th.task.slot = .launcher) :
    Recorded (drop th (setSlot .launcher s)) := by
  constructor
  · intro hchecking
    obtain ⟨t, ht, htask⟩ := h.status hchecking
    refine ⟨t, mem_drop.mpr ⟨ht, ?_⟩, htask⟩
    rintro rfl
    rw [hslot] at htask
    cases htask
  · intro root record hrecord hchecking
    obtain ⟨t, ht, startedAt, htask⟩ := h.records root record hrecord hchecking
    refine ⟨t, mem_drop.mpr ⟨ht, ?_⟩, startedAt, htask⟩
    rintro rfl
    rw [htask] at hslot
    cases hslot

theorem Recorded.drop_fenix (h : Recorded s) {requires : Bool} {result : Except String Value}
    (hslot : th.task.slot = .fenix) (hopen : s.sys.state.closing = false)
    (hflag : s.sys.state.flags th.flag = false) :
    Recorded (drop th (endFenix world requires th.flag result s)) := by
  constructor
  · intro hchecking
    unfold drop endFenix at hchecking
    rw [hopen, hflag] at hchecking
    cases result <;> simp [isChecking, Job.extend, Job.set, Function.update] at hchecking
  · intro root record hrecord hchecking
    obtain ⟨t, ht, startedAt, htask⟩ := h.records root record hrecord hchecking
    refine ⟨t, mem_drop.mpr ⟨ht, ?_⟩, startedAt, htask⟩
    rintro rfl
    rw [htask] at hslot
    cases hslot

/-- The record of the thread is replaced: it was the only one that was being checked. -/
theorem Recorded.drop_startup (h : Recorded s) (hheld : Held s) {value : List (String × Value)}
    (hth : th ∈ s.threads) (hslot : th.task.slot = .startup)
    (hopen : s.sys.state.closing = false) (hflag : s.sys.state.flags th.flag = false)
    (hvalue : ∀ row ∈ value, row.1 = "state" → row.2.is "checking" = false) :
    Recorded (drop th (endStartup th.task.id th.task.startedAt th.flag value s)) := by
  have hends : isChecking (Job.extend (fun _ => .null)
      (value ++ [("started_at", .string th.task.startedAt)])) = false := by
    unfold isChecking
    rcases Job.extend_at (fun _ => .null) (value ++ [("started_at", .string th.task.startedAt)])
        "state" with hsame | ⟨row, hrow, hkey, hsame⟩
    · rw [hsame]
      rfl
    · rw [hsame]
      rcases List.mem_append.mp hrow with hmine | hlast
      · exact hvalue row hmine hkey
      · rw [List.mem_singleton] at hlast
        subst hlast
        simp at hkey
  constructor
  · intro hchecking
    obtain ⟨t, ht, htask⟩ := h.status hchecking
    refine ⟨t, mem_drop.mpr ⟨ht, ?_⟩, htask⟩
    rintro rfl
    rw [hslot] at htask
    cases htask
  · intro root record hrecord hchecking
    unfold drop endStartup at hrecord
    rw [hopen, hflag] at hrecord
    change (s.startup.records.modify th.task.id _)[root]? = some record at hrecord
    rw [Std.ExtTreeMap.getElem?_modify] at hrecord
    split at hrecord
    · obtain ⟨old, _, rfl⟩ := Option.map_eq_some_iff.mp hrecord
      rw [hends] at hchecking
      cases hchecking
    · rename_i hother
      obtain ⟨t, ht, startedAt, htask⟩ := h.records root record hrecord hchecking
      have hsame : t = th := hheld.one t ht th hth (by rw [htask, hslot]; rfl)
      rw [← hsame, htask, Std.LawfulEqCmp.compare_eq_iff_eq] at hother
      exact absurd rfl hother

/-! ## Every step -/

theorem SameJob.of_eq {u u' : LauncherUpdates} (hid : u'.job "id" = u.job "id")
    (hstate : u'.job "state" = u.job "state")
    (hoperation : u'.job "operation" = u.job "operation") : SameJob u u' := by
  intro hrunning
  rw [hstate] at hrunning
  rcases SameJob.refl u hrunning with hrestart | ⟨_, hran, hno⟩
  · rw [hoperation]
    exact .inl hrestart
  · exact .inr ⟨hid, hran, hno⟩

theorem SameJob.extend {u u' : LauncherUpdates} {rows : List (String × Value)}
    (hjob : u'.job = u.job.extend rows)
    (h : ∀ row ∈ rows, row.1 ≠ "id" ∧ row.1 ≠ "state" ∧ row.1 ≠ "operation") : SameJob u u' := by
  apply SameJob.of_eq <;> rw [hjob] <;> apply Job.extend_other
  · exact fun row hrow => (h row hrow).1
  · exact fun row hrow => (h row hrow).2.1
  · exact fun row hrow => (h row hrow).2.2

theorem change_calm {id : String} {patch : List (String × Value)}
    (h : ∀ row ∈ patch, row.1 ≠ "id" ∧ row.1 ≠ "state" ∧ row.1 ≠ "operation") :
    Calm s { s with launcher := change id patch s.launcher } := by
  unfold change
  split
  · exact ⟨rfl, rfl, .extend rfl h, rfl, rfl⟩
  · exact .refl s

theorem commit_calm (id : String) (flag : Flag) : Calm s (stateOf (commit id flag s)) := by
  have hends : Triple (fun t => t = s) (commit id flag) (fun _ => Calm s) fun _ => Calm s := by
    unfold commit
    apply Triple.get_bind
    rintro t rfl
    apply require_triple
    · intro _
      apply require_triple
      · rintro _ u rfl
        refine ⟨rfl, rfl, .extend rfl ?_, rfl, rfl⟩
        decide
      · exact .refl t
    · exact .refl t
  exact (hends s rfl).stateOf

theorem found_calm (id : String) (release : Value) :
    Calm s (stateOf (found world id release s)) := by
  have hends : Triple (fun t => t = s) (found world id release) (fun _ => Calm s)
      fun _ => Calm s := by
    unfold found
    apply Triple.get_bind
    rintro t rfl
    apply require_triple
    · rintro _ u rfl
      exact ⟨rfl, rfl, .of_eq rfl rfl rfl, rfl, rfl⟩
    · exact .refl t
  exact (hends s rfl).stateOf

theorem cancel_calm (id : String) : Calm s (stateOf (cancel id s)) := by
  have hends : Triple (fun t => t = s) (cancel id) (fun _ => Calm s) fun _ => Calm s := by
    unfold cancel
    apply Triple.get_bind
    rintro t rfl
    apply require_triple
    · intro _
      cases hworker : t.launcher.worker with
      | none =>
        rintro u rfl
        exact .refl u
      | some flag =>
        rintro u rfl
        refine ⟨rfl, hworker.symm, .extend rfl ?_, rfl, rfl⟩
        decide
    · exact .refl t
  exact (hends s rfl).stateOf

theorem restart_calm (child : Except Error Unit) :
    Calm s (stateOf (restart world child s)) := by
  have hends : Triple (fun t => t = s) (restart world child) (fun _ => Calm s)
      fun _ => Calm s := by
    unfold restart
    apply Triple.bind (Q := fun _ u => u = snapshotLocked world s)
    · apply Triple.update
      rintro u rfl
      rfl
    · intro _
      apply Triple.get_bind
      rintro t rfl
      apply require_triple
      · intro _
        apply require_triple
        · intro _
          cases child with
          | error e =>
            rintro u rfl
            exact snapshotLocked_calm
          | ok _ =>
            rintro u rfl
            refine snapshotLocked_calm.trans ⟨rfl, rfl, fun _ => .inl ?_, rfl, rfl⟩
            simp [restartJob, Job.extend, Job.set, Function.update]
        · exact snapshotLocked_calm
      · exact snapshotLocked_calm
  exact (hends s rfl).stateOf

theorem giveBack_calm (outcome : Backend.Outcome) : Calm s (giveBack world th outcome s) := by
  unfold giveBack
  split
  · exact .of_sys s _
  · exact .refl s

theorem Held.taken (h : Held s) {r : EStateM.Result Error Service (Option Thread)}
    (hr : Ends r (Begins s) fun _ => Calm s) : Held (taken r) := by
  match r with
  | .error e t => exact h.calm hr
  | .ok none t => exact h.calm hr
  | .ok (some th) t => exact h.took hr

theorem Recorded.taken (h : Recorded s) {r : EStateM.Result Error Service (Option Thread)}
    (hr : Ends r (Begins s) fun _ => Calm s) : Recorded (taken r) := by
  match r with
  | .error e t => exact h.calm hr
  | .ok none t => exact h.calm hr
  | .ok (some th) t => exact h.took hr

/-- What the audit ends with when nothing fails. -/
theorem next_onStartup (hstarts : Starts s (.onStartup world th)) :
    ∃ t, Calm s t ∧ next s (.onStartup world th) = advance th .audited t := by
  have hends := onStartup_triple hstarts s rfl
  unfold next
  dsimp only
  cases hrun : onStartup world s with
  | error e t =>
    rw [hrun] at hends
    cases hends
  | ok u t =>
    rw [hrun] at hends
    exact ⟨t, hends, rfl⟩

/-- The thread reports how its job ended. -/
theorem report_calm (result : Except Error String) (id : String) :
    Calm s { s with launcher := change id (outcome result) s.launcher } ∧
      (isRunning { s with launcher := change id (outcome result) s.launcher } = true →
        (s.launcher.job "id").is id = false) := by
  have hstate : ((s.launcher.job.extend (outcome result)) "state").is "running" = false := by
    unfold outcome
    split <;> simp [Job.extend, Job.set, Function.update]
  unfold change
  cases hsame : (s.launcher.job "id").is id with
  | false => exact ⟨.refl s, fun _ => rfl⟩
  | true =>
    rw [if_pos rfl]
    refine ⟨⟨rfl, rfl, fun hrunning => ?_, rfl, rfl⟩, fun hrunning => ?_⟩
    · rw [hstate] at hrunning
      cases hrunning
    · rw [isRunning, hstate] at hrunning
      cases hrunning

theorem Unreported.of_slot (hslot : th.task.slot ≠ .launcher) : ¬ Unreported th :=
  fun h => hslot h.1

theorem Held.next (h : Held s) {action : Action} (hp : Possible s action)
    (hm : Starts s action) : Held (next s action) := by
  cases action with
  | begin world operation checkId startup => exact h.taken (begin_triple _ _ _ s rfl)
  | checkFenix world force => exact h.taken (checkFenix_triple _ s rfl)
  | checkStartup world => exact h.taken (checkStartup_triple s rfl)
  | onStartup world thread =>
    obtain ⟨t, hcalm, hnext⟩ := next_onStartup hm
    obtain ⟨hmem, hslot, hstage⟩ := hp
    rw [hnext]
    apply (h.calm hcalm).advance (hcalm.threads ▸ hmem)
    · unfold Staged
      rw [hslot]
      exact .inr (.inl rfl)
    · intro hno
      rw [hno.1] at hslot
      cases hslot
  | spawn thread started =>
    subst hm
    have hmem : thread ∈ s.threads := by
      rcases hp with hp | hp | hp <;> exact hp.1
    change Held (Updates.advance thread .working s)
    apply h.advance hmem
    · unfold Staged
      dsimp only
      split
      · exact Stage.noConfusion
      · exact .inr rfl
      · exact .inr (.inr rfl)
    · exact fun hstage => .inl ⟨hstage.1, .inr rfl⟩
  | change thread patch => exact h.calm (change_calm hp.2)
  | commit thread => exact h.calm (commit_calm ..)
  | found world thread release => exact h.calm (found_calm ..)
  | report thread result =>
    obtain ⟨hmem, hslot, hstage⟩ := hp
    obtain ⟨hcalm, hjob⟩ := report_calm (s := s) result thread.task.id
    apply (h.calm hcalm).advance hmem
    · unfold Staged
      rw [hslot]
      exact Stage.noConfusion
    · intro _
      right
      intro hrunning
      cases hid : (s.launcher.job "id").is thread.task.id with
      | true =>
        rw [hjob hrunning] at hid
        cases hid
      | false =>
        unfold change
        rw [hid]
        exact hid
  | finish world thread outcome =>
    obtain ⟨hmem, hslot, hstage⟩ := hp
    have hcalm : Calm s (giveBack world thread outcome s) := giveBack_calm outcome
    apply (h.calm hcalm).advance (hcalm.threads ▸ hmem)
    · unfold Staged
      rw [hslot]
      exact Stage.noConfusion
    · rintro ⟨_, hno⟩
      rw [hstage] at hno
      rcases hno with hno | hno <;> cases hno
  | clear thread =>
    obtain ⟨hmem, hslot, hstage⟩ := hp
    apply h.drop (setSlot_cleared hslot) hmem
    rintro ⟨_, hno⟩
    rw [hstage] at hno
    rcases hno with hno | hno <;> cases hno
  | endFenix world thread requires result =>
    obtain ⟨hmem, hslot, hstage⟩ := hp
    apply h.drop (endFenix_cleared hslot) hmem
    apply Unreported.of_slot
    rw [hslot]
    exact Slot.noConfusion
  | endStartup thread value =>
    obtain ⟨⟨hmem, hslot, hstage⟩, _⟩ := hp
    apply h.drop (endStartup_cleared hslot) hmem
    apply Unreported.of_slot
    rw [hslot]
    exact Slot.noConfusion
  | cancel id => exact h.calm (cancel_calm id)
  | snapshot world => exact h.calm snapshotLocked_calm
  | restart world child => exact h.calm (restart_calm child)
  | close beforeStart => exact h.calm (.of_sys s _)
  | other action => exact h.calm (.of_sys s _)

theorem Recorded.next (h : Recorded s) (hheld : Held s) {action : Action}
    (hp : Possible s action) (hm : Open s action) : Recorded (next s action) := by
  cases action with
  | begin world operation checkId startup => exact h.taken (begin_triple _ _ _ s rfl)
  | checkFenix world force => exact h.taken (checkFenix_triple _ s rfl)
  | checkStartup world => exact h.taken (checkStartup_triple s rfl)
  | onStartup world thread =>
    obtain ⟨t, hcalm, hnext⟩ := next_onStartup hm.1
    rw [hnext]
    exact (h.calm hcalm).advance (hcalm.threads ▸ hp.1)
  | spawn thread started =>
    obtain ⟨rfl, _⟩ := hm
    apply h.advance
    rcases hp with hp | hp | hp <;> exact hp.1
  | change thread patch => exact h.calm (change_calm hp.2)
  | commit thread => exact h.calm (commit_calm ..)
  | found world thread release => exact h.calm (found_calm ..)
  | report thread result => exact (h.calm (report_calm result _).1).advance hp.1
  | finish world thread outcome =>
    have hcalm : Calm s (giveBack world thread outcome s) := giveBack_calm outcome
    exact (h.calm hcalm).advance (hcalm.threads ▸ hp.1)
  | clear thread => exact h.drop_launcher hp.2.1
  | endFenix world thread requires result => exact h.drop_fenix hp.2.1 hm.2.1 hm.2.2
  | endStartup thread value =>
    exact h.drop_startup hheld hp.1.1 hp.1.2.1 hm.2.1 hm.2.2 hp.2
  | cancel id => exact h.calm (cancel_calm id)
  | snapshot world => exact h.calm snapshotLocked_calm
  | restart world child => exact h.calm (restart_calm child)
  | close beforeStart => exact h.calm (.of_sys s _)
  | other action => exact h.calm (.of_sys s _)

theorem Held.of_runs (h : Runs Starts s) : Held s := by
  induction h with
  | start hstarted => exact .of_started hstarted
  | step _ hp hm ih => exact ih.next hp hm

theorem Runs.starts (h : Runs Open s) : Runs Starts s := by
  induction h with
  | start hstarted => exact .start hstarted
  | step _ hp hm ih => exact ih.step hp hm.1

theorem Recorded.of_runs (h : Runs Open s) : Recorded s := by
  induction h with
  | start hstarted => exact .of_started hstarted
  | step hruns hp hm ih => exact ih.next (.of_runs hruns.starts) hp hm

/-! ## The slots are released -/

/-- The steps that a thread takes itself. -/
def Own (th : Thread) : Action → Prop
  | .onStartup _ t => t = th
  | .spawn t _ => t = th
  | .report t _ => t = th
  | .finish _ t _ => t = th
  | .clear t => t = th
  | .endFenix _ t _ _ => t = th
  | .endStartup t _ => t = th
  | _ => False

/-- How many stages are left, at most. -/
def Stage.rest : Stage → Nat
  | .taken => 5
  | .audited => 4
  | .working => 3
  | .reported => 2
  | .finished => 1

/-- An action without a step of the thread in it; any world will do. -/
theorem Held.enabled (h : Held s) (world : World) (hth : th ∈ s.threads) :
    ∃ action, Own th action ∧ Possible s action := by
  have hstaged := h.staged th hth
  unfold Staged at hstaged
  cases hslot : th.task.slot with
  | launcher =>
    rw [hslot] at hstaged
    cases hstage : th.stage with
    | taken => exact ⟨.spawn th true, rfl, .inl ⟨hth, hslot, hstage⟩⟩
    | audited => exact absurd hstage hstaged
    | working => exact ⟨.report th (.ok ""), rfl, hth, hslot, hstage⟩
    | reported => exact ⟨.finish world th (.ok []), rfl, hth, hslot, hstage⟩
    | finished => exact ⟨.clear th, rfl, hth, hslot, hstage⟩
  | fenix =>
    rw [hslot] at hstaged
    rcases hstaged with hstage | hstage
    · exact ⟨.spawn th true, rfl, .inr (.inl ⟨hth, hslot, hstage⟩)⟩
    · exact ⟨.endFenix world th false (.ok .null), rfl, hth, hslot, hstage⟩
  | startup =>
    rw [hslot] at hstaged
    rcases hstaged with hstage | hstage | hstage
    · exact ⟨.onStartup world th, rfl, hth, hslot, hstage⟩
    · exact ⟨.spawn th true, rfl, .inr (.inr ⟨hth, hslot, hstage⟩)⟩
    · exact ⟨.endStartup th [], rfl, ⟨hth, hslot, hstage⟩, nofun⟩

theorem taken_kept {r : EStateM.Result Error Service (Option Thread)}
    (hr : Ends r (Begins s) fun _ => Calm s) (hth : th ∈ s.threads) : th ∈ (taken r).threads := by
  match r with
  | .error e t => exact (show Calm s t from hr).threads ▸ hth
  | .ok none t => exact (show Calm s t from hr).threads ▸ hth
  | .ok (some new) t =>
    have htook : Took s t new := hr
    exact List.mem_cons_of_mem _ (htook.threads ▸ hth)

theorem Calm.kept (h : Calm s s') (hth : th ∈ s.threads) : th ∈ s'.threads := h.threads ▸ hth

theorem next_kept (hth : th ∈ s.threads) {action : Action} (hother : ¬ Own th action)
    (hp : Possible s action) (hm : Starts s action) : th ∈ (next s action).threads := by
  cases action with
  | begin world operation checkId startup => exact taken_kept (begin_triple _ _ _ s rfl) hth
  | checkFenix world force => exact taken_kept (checkFenix_triple _ s rfl) hth
  | checkStartup world => exact taken_kept (checkStartup_triple s rfl) hth
  | onStartup world thread =>
    obtain ⟨t, hcalm, hnext⟩ := next_onStartup hm
    rw [hnext]
    exact advance_other (hcalm.kept hth) (Ne.symm hother)
  | spawn thread started =>
    subst hm
    exact advance_other hth (Ne.symm hother)
  | change thread patch => exact (change_calm hp.2).kept hth
  | commit thread => exact (commit_calm ..).kept hth
  | found world thread release => exact (found_calm ..).kept hth
  | report thread result => exact advance_other hth (Ne.symm hother)
  | finish world thread outcome =>
    exact advance_other ((giveBack_calm outcome).kept hth) (Ne.symm hother)
  | clear thread => exact mem_drop.mpr ⟨hth, Ne.symm hother⟩
  | endFenix world thread requires result => exact mem_drop.mpr ⟨hth, Ne.symm hother⟩
  | endStartup thread value => exact mem_drop.mpr ⟨hth, Ne.symm hother⟩
  | cancel id => exact (cancel_calm id).kept hth
  | snapshot world => exact snapshotLocked_calm.kept hth
  | restart world child => exact (restart_calm child).kept hth
  | close beforeStart => exact hth
  | other action => exact hth

/-- A world in which nothing happens and the lock of the runtime is free. -/
def quiet (lease : Except Error Unit) : World :=
  ⟨⟨none, false, false, lease, "1", "2024-01-01T00:00:00Z"⟩, 0, "1", .ok none, fun _ => false,
    false, "idle", false, .ok "1.0.0", true, false⟩

section

/-- The service of a runtime with copies of Proton, just started. -/
def fresh : Service where
  sys := {
    state := {
      steam := none, runtime := some "/games/msfs", process := false, exitCode := none
      stopping := false, closing := false, active := none, jobs := fun _ => none
      plans := fun _ => none, flags := fun _ => false, created := 0 }
    workers := [], uuids := [], history := [] }
  launcher := {
    context := none, contextError := "", release := .null, checkId := none, checkedAt := none
    job := fun _ => .null, worker := none, attempted := none, restart := false }
  fenix := {
    baseline := "", attempted := none, worker := none, status := fun _ => .null
    candidate := .null }
  startup := { records := ∅, worker := none }
  threads := []

theorem fresh_started : Started fresh := by
  refine ⟨rfl, ?_, rfl, rfl, rfl⟩
  intro slot
  cases slot <;> rfl

/-- The check of the game has taken its slot. -/
def checking : Service := next fresh (.checkStartup (quiet (.ok ())))

def checker : Thread := ⟨.startup "/games/msfs" "2024-01-01T00:00:00Z", 0, .taken⟩

end

end Flightdeck.Updates
