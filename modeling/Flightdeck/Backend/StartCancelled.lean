import Flightdeck.Backend.AutoSession
import Flightdeck.Backend.Commit

/-!
# A start that is cancelled

Requests and the worker of a session in any order.  A cancellation that was accepted keeps the game
from starting, and a game that was played is uploaded, unless the request comes between the last look
at the flag and the status that says the game runs.
-/

namespace Flightdeck.Backend.Auto

open Foundation

/-! ## The interleavings -/

inductive Action where
  | start (world : World) (request : Request)
  | recover (world : World) (id : String)
  | cancelAuto (world : World) (id : String)
  | close
  | step (t : Session) (failure : Option String) (code : Option Int)
  | finish (world : World) (t : Session)
  | other (action : Backend.Action)

def next (s : Service) : Action → Service
  | .start world request => stateOf (start world request s)
  | .recover world id => stateOf (recover world id s)
  | .cancelAuto world id => stateOf (cancelAuto world id s)
  | .close => close s
  | .step t failure code => step t failure code s
  | .finish world t => finish world t s
  | .other action => { s with sys := Backend.next s.sys action }

/-- The other jobs and requests: they have other kinds, and a worker ends its own job. -/
def Foreign (s : Service) : Backend.Action → Prop
  | .request _ kind _ _ _ => kind ≠ "cloud-auto"
  | .continuation _ kind _ => kind ≠ "cloud-auto"
  | .cancel kind _ => kind ≠ "cloud-auto"
  | .finish _ worker _ => ∀ t ∈ s.sessions, worker.ctx ≠ t.ctx
  | .interrupt => ∀ a, s.sys.state.active = some a → a.kind ≠ "cloud-auto"
  | .close _ => False
  | _ => True

def Possible (s : Service) : Action → Prop
  | .start world _ => world.base.uuid ∉ s.sys.uuids
  | .recover world _ => world.base.uuid ∉ s.sys.uuids
  | .step t _ _ => t ∈ s.sessions
  | .finish _ t => t ∈ s.sessions ∧ t.stage = .ended
  | .other action => Backend.Possible s.sys action ∧ Foreign s action
  | _ => True

/-- A launcher that was just started. -/
structure Started (s : Service) : Prop where
  sys : Backend.Started s.sys
  cloud : s.cloud = ⟨.idle, none, none, none⟩
  sessions : s.sessions = []
  history : s.history = []

/-- The runs whose steps all meet a condition. -/
inductive Runs (meets : Service → Action → Prop) : Service → Prop where
  | start {s : Service} : Started s → Runs meets s
  | step {s : Service} {action : Action} : Runs meets s → Possible s action → meets s action →
      Runs meets (next s action)

/-- No `cancel-auto` comes between the last look at the flag and the status that says the game runs.
-/
def InTime (s : Service) : Action → Prop
  | .cancelAuto _ _ => ∀ t ∈ s.sessions, t.stage ≠ .checked ∧ t.stage ≠ .spawned
  | _ => True

/-- A game is not started after its start was cancelled. -/
def Permitted (older : List Event) : Event → Prop
  | .spawned id => .accepted id ∉ older
  | .accepted _ => True

/-- A cancellation that was accepted keeps the game from starting; and what was played is uploaded:
nobody but `close` has set the flag of a session whose game has ended. -/
structure Honoured (s : Service) : Prop where
  order : EachStep Permitted s.history
  played : ∀ t ∈ s.sessions, t.stage = .exited ∨ t.stage = .cleared →
    .accepted t.ctx.id ∉ s.history ∧
      (s.sys.state.closing = false → interrupted t.ctx s.sys.state = .ok ())
  uploads : ∀ t ∈ s.sessions, t.stage = .cleared → t.localOnly = false →
    s.sys.state.closing = false → ∀ code, { t with stage := .uploading } ∈ (step t none code s).sessions

variable {s : Service} {sys : System} {world : World} {t : Session}

/-! ## What the other jobs leave alone -/

/-- The worker of the session goes on, nobody has set its flag, and a launcher that closes does not
stop to. -/
structure Beside (sys sys' : System) (w : Worker) : Prop where
  worker : w ∈ sys'.workers
  flag : sys'.state.flags w.ctx.cancel = sys.state.flags w.ctx.cancel
  closing : sys.state.closing = true → sys'.state.closing = true

theorem Beside.of_same {sys' : System} {w : Worker} (hw : w ∈ sys.workers)
    (hworkers : sys'.workers = sys.workers) (hflags : sys'.state.flags = sys.state.flags)
    (hclosing : sys'.state.closing = sys.state.closing) : Beside sys sys' w := by
  constructor
  · rw [hworkers]
    exact hw
  · rw [hflags]
  · rw [hclosing]
    exact id

theorem Beside.of_untouched {base : Backend.World} {state : State} {w : Worker}
    (hw : w ∈ sys.workers) (h : Untouched base sys.state state) :
    Beside sys { sys with state } w := by
  rcases h with rfl | rfl
  · exact .of_same hw rfl rfl rfl
  · exact .of_same hw rfl poll_flags poll_closing

theorem finish_flags {base : Backend.World} (worker : Worker) (outcome : Outcome) :
    (Backend.next sys (.finish base worker outcome)).state.flags = sys.state.flags := by
  change (Backend.finish base worker.ctx outcome worker.work.retains sys.state).flags = _
  unfold Backend.finish
  dsimp only
  split
  · split <;> rfl
  · rfl

theorem finish_closing {base : Backend.World} (worker : Worker) (outcome : Outcome) :
    (Backend.next sys (.finish base worker outcome)).state.closing = sys.state.closing := by
  change (Backend.finish base worker.ctx outcome worker.work.retains sys.state).closing = _
  unfold Backend.finish
  dsimp only
  split
  · split <;> rfl
  · rfl

/-- The worker's flag is that of the reservation, so no other job shares it. -/
theorem next_beside (h : Exclusive s.sys) (ht : t ∈ s.sessions)
    (hw : ⟨t.ctx, .task⟩ ∈ s.sys.workers) (hkind : t.ctx.kind = "cloud-auto")
    {action : Backend.Action} (hpossible : Backend.Possible s.sys action)
    (hforeign : Foreign s action) :
    Beside s.sys (Backend.next s.sys action) ⟨t.ctx, .task⟩ := by
  obtain ⟨a, ha, _, hakind, _⟩ := h.owned _ hw
  have hsome : s.sys.state.active ≠ none := by
    rw [ha]
    exact Option.some_ne_none a
  cases action with
  | request base kind operation needsRuntime work =>
    have hends := reserveLocked_triple base kind operation needsRuntime s.sys.state rfl
    unfold Backend.next
    dsimp only
    cases hrun : reserveLocked base kind operation needsRuntime s.sys.state with
    | ok ctx state =>
      rw [hrun] at hends
      exact absurd hends.1 hsome
    | error e state =>
      rw [hrun] at hends
      exact .of_untouched hw hends
  | update worker patch =>
    change Beside s.sys { s.sys with state := update worker.ctx patch s.sys.state } _
    unfold update
    split
    · exact .of_same hw rfl rfl rfl
    · exact .of_same hw rfl rfl rfl
  | finish base worker outcome =>
    constructor
    · -- it is another worker that ends
      have hne : ⟨t.ctx, .task⟩ ≠ worker := by
        intro hsame
        exact hforeign t ht (congrArg Worker.ctx hsame).symm
      exact (List.mem_erase_of_ne hne).mpr hw
    · rw [finish_flags]
    · rw [finish_closing]
      exact id
  | publish worker result =>
    -- a preview publishes, and the one worker is a task
    have hsame : worker = ⟨t.ctx, .task⟩ := h.worker_eq hpossible.1 hw
    have hpreview := hpossible.2.1
    rw [hsame] at hpreview
    cases hpreview
  | beginCommit worker phase message =>
    have hends := beginCommit_triple worker.ctx phase message s.sys.state rfl
    unfold Backend.next
    dsimp only
    cases hrun : beginCommit worker.ctx phase message s.sys.state with
    | ok u state =>
      rw [hrun] at hends
      obtain ⟨_, _, rfl⟩ := hends
      exact .of_same hw rfl rfl rfl
    | error e state =>
      rw [hrun] at hends
      cases hends
      exact .of_same hw rfl rfl rfl
  | activate worker root committed =>
    have hends := activate_triple worker.ctx root committed s.sys.state rfl
    unfold Backend.next
    dsimp only
    cases hrun : activate worker.ctx root committed s.sys.state with
    | ok u state =>
      rw [hrun] at hends
      obtain ⟨_, _, path, rfl⟩ := hends
      exact .of_same hw rfl rfl rfl
    | error e state =>
      rw [hrun] at hends
      cases hends
      exact .of_same hw rfl rfl rfl
  | continuation base kind id =>
    have hends := continuation_triple base kind id s.sys.state rfl
    unfold Backend.next
    dsimp only
    cases hrun : continuation base kind id s.sys.state with
    | ok ctx state =>
      rw [hrun] at hends
      obtain ⟨_, now, b, _, rfl, _, rfl | ⟨hnone, _⟩⟩ := hends
      · exact ⟨List.mem_cons_of_mem _ hw, rfl, fun hclosing => hclosing⟩
      · exact absurd hnone hsome
    | error e state =>
      rw [hrun] at hends
      exact .of_untouched hw hends
  | cancel kind id =>
    have hends := cancel_triple kind id s.sys.state rfl
    unfold Backend.next
    dsimp only
    cases hrun : cancel kind id s.sys.state with
    | ok u state =>
      rw [hrun] at hends
      rcases hends with ⟨_, _, rfl⟩ | ⟨b, hb, hbkind, _⟩
      · exact .of_same hw rfl rfl rfl
      · rw [ha] at hb
        cases hb
        exact absurd (hbkind.symm.trans (hakind.trans hkind)) hforeign
    | error e state =>
      rw [hrun] at hends
      cases hends
      exact .of_same hw rfl rfl rfl
  | interrupt => exact absurd (hakind.trans hkind) (hforeign a ha)
  | refresh base =>
    have hends : Triple (fun state => state = s.sys.state) (refresh base) (fun _ _ => False)
        (fun _ => Untouched base s.sys.state) := by
      apply Triple.bind (idle_triple (s := s.sys.state))
      rintro _ state ⟨_, hnone⟩
      exact absurd hnone hsome
    have hrefused := hends s.sys.state rfl
    change Beside s.sys { s.sys with state := stateOf (refresh base s.sys.state) } _
    cases hrun : refresh base s.sys.state with
    | ok u state =>
      rw [hrun] at hrefused
      cases hrefused
    | error e state =>
      rw [hrun] at hrefused
      exact .of_untouched hw hrefused
  | close beforeStart => cases hforeign
  | poll base => exact .of_untouched hw (.inr rfl)
  | edit kind rows => exact .of_same hw rfl rfl rfl
  | forget kind => exact .of_same hw rfl rfl rfl
  | plan kind value => exact .of_same hw rfl rfl rfl
  | elsewhere steam runtime process stopping exitCode => exact .of_same hw rfl rfl rfl

/-! ## The invariant -/

/-- The status says that the game of the session has not started. -/
def Stage.starting : Stage → Bool
  | .begun | .compared | .marked | .checked | .spawned => true
  | _ => false

/-- The worker has looked at its flag for the last time before the game or the upload. -/
def Stage.committed : Stage → Bool
  | .checked | .spawned | .playing | .exited | .cleared | .uploading => true
  | _ => false

def Event.id : Event → String
  | .accepted id => id
  | .spawned id => id

/-- The one session is the worker of the reservation, and the status is that of its stage. -/
structure Coherent (s : Service) : Prop where
  exclusive : Exclusive s.sys
  one : ∀ t ∈ s.sessions, ∀ u ∈ s.sessions, u = t
  working : ∀ t ∈ s.sessions, ⟨t.ctx, .task⟩ ∈ s.sys.workers
  kind : ∀ t ∈ s.sessions, t.ctx.kind = "cloud-auto"
  starting : ∀ t ∈ s.sessions, t.stage.starting = true →
    s.cloud.requestId = some t.ctx.id ∧ s.cloud.phase = some t.phase ∧
      (t.stage ≠ .begun → t.phase = .beforeStart)
  syncing : s.cloud.state = .syncing → s.cloud.phase = some .beforeStart →
    ∃ t ∈ s.sessions, t.stage.starting = true
  known : ∀ e ∈ s.history, e.id ∈ s.sys.uuids
  accepted : ∀ t ∈ s.sessions, .accepted t.ctx.id ∈ s.history →
    s.sys.state.flags t.ctx.cancel = true ∧ t.stage.committed = false
  closing : ∀ t ∈ s.sessions, t.stage.committed = true →
    s.sys.state.flags t.ctx.cancel = true → s.sys.state.closing = true
  order : EachStep Permitted s.history

theorem Coherent.of_started (h : Started s) : Coherent s := by
  have hno : ∀ {t}, t ∉ s.sessions := by
    intro t
    rw [h.sessions]
    exact List.not_mem_nil
  constructor
  · exact .of_started h.sys
  · exact fun t ht => absurd ht hno
  · exact fun t ht => absurd ht hno
  · exact fun t ht => absurd ht hno
  · exact fun t ht => absurd ht hno
  · rw [h.cloud]
    nofun
  · rw [h.history]
    nofun
  · exact fun t ht => absurd ht hno
  · exact fun t ht => absurd ht hno
  · rw [h.history]
    trivial

/-- Without a reservation there is no session. -/
theorem Coherent.no_sessions (h : Coherent s) (hnone : s.sys.state.active = none) :
    s.sessions = [] := by
  apply List.eq_nil_iff_forall_not_mem.mpr
  intro t ht
  obtain ⟨a, ha, _⟩ := h.exclusive.owned _ (h.working t ht)
  rw [hnone] at ha
  cases ha

theorem Coherent.current (h : Coherent s) (ht : t ∈ s.sessions) :
    current s.sys.state t.ctx.id = true := by
  obtain ⟨a, ha, hid, _⟩ := h.exclusive.owned _ (h.working t ht)
  unfold Backend.current
  rw [ha]
  exact beq_iff_eq.mpr hid

/-! ## Steps of the other jobs -/

theorem next_uuids (sys : System) (action : Backend.Action) {id : String} (h : id ∈ sys.uuids) :
    id ∈ (Backend.next sys action).uuids := by
  unfold Backend.next
  cases action with
  | request base kind operation needsRuntime work =>
    dsimp only
    split
    · exact List.mem_cons_of_mem _ h
    · exact h
  | publish worker result => dsimp only; split <;> exact h
  | beginCommit worker phase message => dsimp only; split <;> exact h
  | activate worker root committed => dsimp only; split <;> exact h
  | continuation base kind id => dsimp only; split <;> exact h
  | cancel kind id => dsimp only; split <;> exact h
  | _ => exact h

theorem Coherent.other (h : Coherent s) (action : Backend.Action)
    (hpossible : Backend.Possible s.sys action) (hforeign : Foreign s action) :
    Coherent { s with sys := Backend.next s.sys action } := by
  have hbeside : ∀ t ∈ s.sessions, Beside s.sys (Backend.next s.sys action) ⟨t.ctx, .task⟩ :=
    fun t ht =>
      next_beside h.exclusive ht (h.working t ht) (h.kind t ht) hpossible hforeign
  constructor
  · exact h.exclusive.next hpossible
  · exact h.one
  · exact fun t ht => (hbeside t ht).worker
  · exact h.kind
  · exact h.starting
  · exact h.syncing
  · exact fun e he => next_uuids s.sys action (h.known e he)
  · intro t ht haccepted
    have hflag := (hbeside t ht).flag
    exact ⟨hflag.trans (h.accepted t ht haccepted).1, (h.accepted t ht haccepted).2⟩
  · intro t ht hcommitted hset
    have hflag := (hbeside t ht).flag
    exact (hbeside t ht).closing (h.closing t ht hcommitted (hflag.symm.trans hset))
  · exact h.order

theorem Coherent.untouched (h : Coherent s) {base : Backend.World} {state : State}
    (hstate : Untouched base s.sys.state state) :
    Coherent { s with sys := { s.sys with state } } := by
  rcases hstate with rfl | rfl
  · exact h
  · exact h.other (.poll base) trivial trivial

/-! ## Steps of the worker -/

theorem Coherent.setStatus_eq (h : Coherent s) (ht : t ∈ s.sessions) (state : CloudState)
    (edit : Status → Status) :
    setStatus t state edit s = { s with cloud := edit { s.cloud with state } } := by
  unfold setStatus
  rw [if_pos (h.current ht)]

/-- The session goes on to a stage with a status that fits it. -/
theorem Coherent.at_ (h : Coherent s) (ht : t ∈ s.sessions) {stage : Stage} {cloud : Status}
    {autoRuntime : Option String}
    (hstarting : stage.starting = true → cloud.requestId = some t.ctx.id ∧
      cloud.phase = some t.phase ∧ (stage ≠ .begun → t.phase = .beforeStart))
    (hsyncing : cloud.state = .syncing → cloud.phase = some .beforeStart → stage.starting = true)
    (hcommitted : stage.committed = true →
      t.stage.committed = true ∨ s.sys.state.flags t.ctx.cancel = false) :
    Coherent (at_ t stage { s with cloud, autoRuntime }) := by
  have hmem : ∀ u ∈ (Auto.at_ t stage { s with cloud, autoRuntime }).sessions,
      u = { t with stage } := by
    intro u hu
    obtain ⟨v, hv, hsame⟩ := List.mem_map.mp hu
    rw [← hsame, if_pos (h.one t ht v hv), h.one t ht v hv]
  constructor
  · exact h.exclusive
  · intro u hu v hv
    rw [hmem u hu, hmem v hv]
  · intro u hu
    rw [hmem u hu]
    exact h.working t ht
  · intro u hu
    rw [hmem u hu]
    exact h.kind t ht
  · intro u hu
    rw [hmem u hu]
    exact hstarting
  · intro hstate hphase
    refine ⟨{ t with stage }, ?_, hsyncing hstate hphase⟩
    exact List.mem_map.mpr ⟨t, ht, if_pos rfl⟩
  · exact h.known
  · intro u hu haccepted
    rw [hmem u hu] at haccepted ⊢
    obtain ⟨hflag, hstage⟩ := h.accepted t ht haccepted
    refine ⟨hflag, ?_⟩
    by_contra hcontra
    rw [Bool.not_eq_false] at hcontra
    rcases hcommitted hcontra with hearlier | hunset
    · rw [hstage] at hearlier
      cases hearlier
    · exact absurd (hflag.symm.trans hunset) (by decide)
  · intro u hu
    rw [hmem u hu]
    intro hstage hset
    rcases hcommitted hstage with hearlier | hunset
    · exact h.closing t ht hearlier hset
    · exact absurd (hset.symm.trans hunset) (by decide)
  · exact h.order

theorem Coherent.attention (h : Coherent s) (ht : t ∈ s.sessions) (phase : Phase) (code : String) :
    Coherent (attention t phase code s) := by
  unfold Auto.attention
  dsimp only
  rw [h.setStatus_eq ht]
  apply h.at_ ht
  · nofun
  · intro hstate _
    dsimp only at hstate
    split at hstate
    · cases hstate
    · cases hstate
  · nofun

theorem Coherent.unlessCancelled (h : Coherent s) (ht : t ∈ s.sessions) (phase : Phase)
    {go : Service → Service}
    (hgo : s.sys.state.flags t.ctx.cancel = false → Coherent (go s)) :
    Coherent (unlessCancelled t phase go s) := by
  unfold Auto.unlessCancelled
  by_cases hset : s.sys.state.flags t.ctx.cancel = true
  · rw [if_pos hset]
    exact h.attention ht phase "cancelled"
  · rw [if_neg hset]
    exact hgo (Bool.not_eq_true _ ▸ hset)

/-- The session goes on under the status there is, from one stage before the start to another. -/
theorem Coherent.goes_on (h : Coherent s) (ht : t ∈ s.sessions) {stage : Stage}
    (hstage : t.stage.starting = true) (hphase : t.phase = .beforeStart)
    (hstarting : stage.starting = true) (hcommitted : stage.committed = true →
      t.stage.committed = true ∨ s.sys.state.flags t.ctx.cancel = false) :
    Coherent (Auto.at_ t stage s) := by
  obtain ⟨hid, hcloud, _⟩ := h.starting t ht hstage
  exact h.at_ ht (fun _ => ⟨hid, hcloud, fun _ => hphase⟩) (fun _ _ => hstarting) hcommitted

/-- The session leaves the start behind it, or had none. -/
theorem Coherent.syncs_no_start (h : Coherent s) (ht : t ∈ s.sessions)
    (hstage : t.stage.starting = true → t.phase ≠ .beforeStart) :
    ¬ (s.cloud.state = .syncing ∧ s.cloud.phase = some .beforeStart) := by
  rintro ⟨hstate, hphase⟩
  obtain ⟨u, hu, hstarting⟩ := h.syncing hstate hphase
  rw [h.one t ht u hu] at hstarting
  obtain ⟨_, hcloud, _⟩ := h.starting t ht hstarting
  rw [hphase] at hcloud
  exact hstage hstarting (Option.some.inj hcloud).symm

theorem Coherent.spawn (h : Coherent s) (ht : t ∈ s.sessions) (hstage : t.stage = .checked)
    (failure : Option String) : Coherent (spawn t failure s) := by
  unfold Auto.spawn
  dsimp only
  split
  · cases failure with
    | some code => exact h.attention ht .beforeStart code
    | none =>
      have hstarted := h.other (.elsewhere s.sys.state.steam s.sys.state.runtime true
        false none) trivial trivial
      have hlogged : Coherent { s with
          sys := Backend.next s.sys (.elsewhere s.sys.state.steam s.sys.state.runtime true false
            none)
          history := .spawned t.ctx.id :: s.history } := by
        constructor
        · exact hstarted.exclusive
        · exact h.one
        · exact hstarted.working
        · exact h.kind
        · exact h.starting
        · exact h.syncing
        · intro e he
          rcases List.mem_cons.mp he with rfl | he
          · obtain ⟨a, ha, hid, _⟩ := h.exclusive.owned _ (h.working t ht)
            have hknown := h.exclusive.active a ha
            rw [hid] at hknown
            exact hknown
          · exact h.known e he
        · intro u hu haccepted
          rcases List.mem_cons.mp haccepted with hsame | haccepted
          · cases hsame
          · exact hstarted.accepted u hu haccepted
        · exact hstarted.closing
        · refine ⟨fun haccepted => ?_, h.order⟩
          -- a cancellation was accepted before the last look at the flag, and that look saw it
          have hearly := (h.accepted t ht haccepted).2
          rw [hstage] at hearly
          cases hearly
      obtain ⟨_, _, hphase⟩ := h.starting t ht (by rw [hstage]; rfl)
      apply hlogged.goes_on ht
      · rw [hstage]
        rfl
      · apply hphase
        rw [hstage]
        decide
      · rfl
      · exact fun _ => .inl (by rw [hstage]; rfl)
  · exact h.attention ht .beforeStart "launch"

theorem Coherent.exited (h : Coherent s) (ht : t ∈ s.sessions) (hstage : t.stage = .playing)
    (code : Option Int) : Coherent (exited t code s) := by
  have hended := h.other (.elsewhere s.sys.state.steam s.sys.state.runtime false false
    (some (code.getD (-1)))) trivial trivial
  unfold Auto.exited
  dsimp only
  split
  · apply hended.at_ ht
    · nofun
    · intro hstate hphase
      have hno := h.syncs_no_start ht (by rw [hstage]; nofun)
      exact absurd ⟨hstate, hphase⟩ hno
    · exact fun _ => .inl (by rw [hstage]; rfl)
  · exact hended.attention ht .afterExit "unsafe_session"

theorem Coherent.step (h : Coherent s) (ht : t ∈ s.sessions) (failure : Option String)
    (code : Option Int) : Coherent (step t failure code s) := by
  unfold Auto.step
  cases hstage : t.stage with
  | reserved =>
    dsimp only
    apply h.at_ ht
    · exact fun _ => ⟨rfl, rfl, fun hne => absurd rfl hne⟩
    · exact fun _ _ => rfl
    · nofun
  | begun =>
    dsimp only
    cases failure with
    | some code => exact h.attention ht t.phase code
    | none =>
      dsimp only
      -- a session that begins after the game goes straight to the upload
      by_cases hphase : t.phase = .beforeStart
      · rw [if_pos hphase]
        exact h.goes_on ht (by rw [hstage]; rfl) hphase rfl nofun
      · rw [if_neg hphase]
        apply h.unlessCancelled ht
        intro hunset
        apply h.at_ ht
        · nofun
        · exact fun hstate hcloud => absurd ⟨hstate, hcloud⟩ (h.syncs_no_start ht fun _ => hphase)
        · exact fun _ => .inr hunset
  | compared =>
    dsimp only
    apply h.unlessCancelled ht
    intro hunset
    cases failure with
    | some code => exact h.attention ht .beforeStart code
    | none =>
      dsimp only
      rw [h.setStatus_eq ht]
      obtain ⟨hid, hcloud, hphase⟩ := h.starting t ht (by rw [hstage]; rfl)
      apply h.at_ ht
      · exact fun _ => ⟨hid, hcloud, fun _ => hphase (by rw [hstage]; decide)⟩
      · exact fun _ _ => rfl
      · nofun
  | marked =>
    dsimp only
    cases failure with
    | some code => exact h.attention ht .beforeStart code
    | none =>
      apply h.unlessCancelled ht
      intro hunset
      obtain ⟨_, _, hphase⟩ := h.starting t ht (by rw [hstage]; rfl)
      apply h.goes_on ht
      · rw [hstage]
        rfl
      · apply hphase
        rw [hstage]
        decide
      · rfl
      · exact fun _ => .inr hunset
  | checked => exact h.spawn ht hstage failure
  | spawned =>
    dsimp only
    rw [h.setStatus_eq ht]
    apply h.at_ ht
    · nofun
    · nofun
    · exact fun _ => .inl (by rw [hstage]; rfl)
  | playing => exact h.exited ht hstage code
  | exited =>
    dsimp only
    cases failure with
    | some code => exact h.attention ht .afterExit code
    | none =>
      dsimp only
      rw [h.setStatus_eq ht]
      apply h.at_ ht
      · nofun
      · nofun
      · exact fun _ => .inl (by rw [hstage]; rfl)
  | cleared =>
    dsimp only
    cases failure with
    | some code => exact h.attention ht .afterExit code
    | none =>
      dsimp only
      -- a session without the cloud ends here
      by_cases hlocal : t.localOnly = true
      · rw [if_pos hlocal, h.setStatus_eq ht]
        apply h.at_ ht
        · nofun
        · nofun
        · nofun
      · rw [if_neg hlocal]
        apply h.unlessCancelled ht
        intro hunset
        apply h.at_ ht
        · nofun
        · intro hstate hcloud
          exact absurd ⟨hstate, hcloud⟩ (h.syncs_no_start ht (by rw [hstage]; nofun))
        · exact fun _ => .inr hunset
  | uploading =>
    dsimp only
    cases failure with
    | some code => exact h.attention ht _ code
    | none =>
      dsimp only
      rw [h.setStatus_eq ht]
      apply h.at_ ht
      · nofun
      · nofun
      · nofun
  | recovering =>
    dsimp only
    cases failure with
    | some code => exact h.attention ht .beforeStart code
    | none =>
      dsimp only
      rw [h.setStatus_eq ht]
      apply h.at_ ht
      · nofun
      · nofun
      · nofun
  | ended => exact h

/-- The worker has ended, and gives its reservation back. -/
theorem Coherent.finish (h : Coherent s) (ht : t ∈ s.sessions) (hended : t.stage = .ended) :
    Coherent (finish world t s) := by
  have hno : ∀ {u}, u ∉ (Auto.finish world t s).sessions := by
    intro u hu
    obtain ⟨hu, hne⟩ := List.mem_filter.mp hu
    exact absurd (h.one t ht u hu) (of_decide_eq_true hne)
  constructor
  · have hplain : Plain (.string t.ctx.id) [("state", .string "succeeded")] := by
      constructor
      · simp
      · simp [Value.is]
    have hpossible : Backend.Possible s.sys (.finish world.base ⟨t.ctx, .task⟩
        (.ok [("state", .string "succeeded")])) := ⟨h.working t ht, hplain⟩
    exact h.exclusive.next hpossible
  · exact fun u hu => absurd hu hno
  · exact fun u hu => absurd hu hno
  · exact fun u hu => absurd hu hno
  · exact fun u hu => absurd hu hno
  · intro hstate hphase
    exact absurd ⟨hstate, hphase⟩ (h.syncs_no_start ht (by rw [hended]; intro same; cases same))
  · exact fun e he => next_uuids s.sys _ (h.known e he)
  · exact fun u hu => absurd hu hno
  · exact fun u hu => absurd hu hno
  · exact h.order

/-! ## Requests -/

theorem backend_triple {m : Backend.Run Unit} {base : Backend.World}
    (hm : ∀ state, Triple (fun u => u = state) m (fun _ u => Untouched base state u)
      fun _ u => Untouched base state u) :
    Triple (fun u => Coherent u ∧ base.uuid ∉ u.sys.uuids) (backend m)
      (fun _ u => Coherent u ∧ base.uuid ∉ u.sys.uuids) (fun _ => Coherent) := by
  apply Triple.zoom
  intro u hu
  exact (hm u.sys.state u.sys.state rfl).mono
    (fun _ _ hstate => ⟨hu.1.untouched hstate, hu.2⟩) (fun _ _ hstate => hu.1.untouched hstate)

theorem idle_untouched (base : Backend.World) (state : State) :
    Triple (fun u => u = state) (Backend.idle base) (fun _ u => Untouched base state u)
      fun _ u => Untouched base state u :=
  idle_triple.post fun _ _ h => .inr h.1

/-- The reservation was made, and its worker has not begun. -/
structure Reserving (ctx : Context) (u : Service) : Prop where
  exclusive : Exclusive { u.sys with
    workers := ⟨ctx, .task⟩ :: u.sys.workers
    uuids := ctx.id :: u.sys.uuids }
  sessions : u.sessions = []
  kind : ctx.kind = "cloud-auto"
  fresh : ctx.id ∉ u.sys.uuids
  syncing : ¬ (u.cloud.state = .syncing ∧ u.cloud.phase = some .beforeStart)
  known : ∀ e ∈ u.history, e.id ∈ u.sys.uuids
  order : EachStep Permitted u.history

theorem reserving_triple (operation : String) :
    Triple (fun u => Coherent u ∧ world.base.uuid ∉ u.sys.uuids)
      (backend (reserveLocked world.base "cloud-auto" operation true)) Reserving
      (fun _ => Coherent) := by
  apply Triple.zoom
  rintro u ⟨h, hfresh⟩
  have hends := reserveLocked_triple world.base "cloud-auto" operation true u.sys.state rfl
  have hpossible : Backend.Possible u.sys (.request world.base "cloud-auto" operation true .task) :=
    ⟨hfresh, nofun⟩
  have hexclusive := h.exclusive.next hpossible
  unfold Backend.next at hexclusive
  dsimp only at hexclusive
  cases hrun : reserveLocked world.base "cloud-auto" operation true u.sys.state with
  | error e state =>
    rw [hrun] at hends
    exact h.untouched hends
  | ok ctx state =>
    rw [hrun] at hends hexclusive
    obtain ⟨hnone, root, lease, rfl, rfl⟩ := hends
    have hsessions := h.no_sessions hnone
    refine ⟨hexclusive, hsessions, rfl, hfresh, ?_, h.known, h.order⟩
    rintro ⟨hstate, hphase⟩
    obtain ⟨t, ht, _⟩ := h.syncing hstate hphase
    rw [hsessions] at ht
    cases ht

theorem reserve_triple (operation : String) (phase : Phase) (localOnly : Bool) {stage : Stage}
    (hstarting : stage.starting = false) (hcommitted : stage.committed = false) :
    Triple (fun u => Coherent u ∧ world.base.uuid ∉ u.sys.uuids)
      (reserve world operation phase localOnly stage)
      (fun _ u => Coherent u ∧ ∀ t ∈ u.sessions, t.stage.starting = false)
      (fun _ => Coherent) := by
  unfold reserve
  apply Triple.bind (reserving_triple operation)
  intro ctx
  apply Triple.bind (Q := fun _ u => Coherent u ∧ ∀ t ∈ u.sessions, t.stage.starting = false)
  · apply Triple.update
    intro u h
    have hmem : ∀ {t new}, t ∈ new :: u.sessions → t = new := by
      intro t new ht
      rw [h.sessions] at ht
      exact List.mem_singleton.mp ht
    refine ⟨⟨h.exclusive, ?_, ?_, ?_, ?_, ?_, ?_, ?_, ?_, h.order⟩, ?_⟩
    · intro t ht v hv
      rw [hmem ht, hmem hv]
    · intro t ht
      rw [hmem ht]
      exact List.mem_cons_self
    · intro t ht
      rw [hmem ht]
      exact h.kind
    · intro t ht hstage
      rw [hmem ht, hstarting] at hstage
      cases hstage
    · exact fun hstate hphase => absurd ⟨hstate, hphase⟩ h.syncing
    · exact fun e he => List.mem_cons_of_mem _ (h.known e he)
    · intro t ht haccepted
      rw [hmem ht] at haccepted
      exact absurd (h.known _ haccepted) h.fresh
    · intro t ht hstage
      rw [hmem ht, hcommitted] at hstage
      cases hstage
    · intro t ht
      rw [hmem ht]
      exact hstarting
  · exact fun _ _ hu => hu

/-- A request that is refused changes nothing. -/
theorem required_triple {α : Type} {condition : Bool} {message : String} {m : Run α} {v : Service}
    {Q : α → Service → Prop} {E : Error → Service → Prop}
    (hm : condition = true → Triple (fun u => u = v) m Q E) (he : E (.invalid message) v) :
    Triple (fun u => u = v) (liftM (Backend.require condition message) >>= fun _ => m) Q E := by
  cases condition with
  | true => exact hm rfl
  | false =>
    rintro u rfl
    exact he

theorem start_triple (request : Request) :
    Triple (fun u => Coherent u ∧ world.base.uuid ∉ u.sys.uuids) (start world request)
      (fun _ => Coherent) (fun _ => Coherent) := by
  unfold start
  apply Triple.bind (backend_triple (idle_untouched world.base))
  intro _
  apply Triple.get_bind
  intro v hv
  refine required_triple (fun _ => required_triple (fun _ => ?_) hv.1) hv.1
  apply Triple.bind (Q := fun _ u => u = v)
  · exact Triple.lift (fun _ _ hu _ => hu) fun _ _ hu _ => hu ▸ hv.1
  · intro admitted
    apply Triple.bind ((reserve_triple "session" admitted.1 admitted.2 rfl rfl).pre fun u hu => hu ▸ hv)
    intro _
    exact fun _ hu => hu.1

theorem recover_triple (id : String) :
    Triple (fun u => Coherent u ∧ world.base.uuid ∉ u.sys.uuids) (recover world id)
      (fun _ => Coherent) (fun _ => Coherent) := by
  unfold recover
  apply Triple.bind (backend_triple (idle_untouched world.base))
  intro _
  apply Triple.get_bind
  intro v hv
  refine required_triple (fun _ => ?_) hv.1
  apply Triple.bind ((reserve_triple "recover" .recovery false rfl rfl).pre fun u hu => hu ▸ hv)
  intro ctx
  apply Triple.update
  rintro u ⟨h, hstarting⟩
  refine ⟨h.exclusive, h.one, h.working, h.kind, ?_, nofun, h.known, h.accepted, h.closing, h.order⟩
  intro t ht hstage
  rw [hstarting t ht] at hstage
  cases hstage

/-- The flag that a cancellation sets is that of the session that the status shows, and the session
has not looked at it for the last time. -/
theorem cancelAuto_triple (id : String) :
    Triple (fun u => Coherent u ∧ ∀ t ∈ u.sessions, t.stage ≠ .checked ∧ t.stage ≠ .spawned)
      (cancelAuto world id) (fun _ => Coherent) (fun _ => Coherent) := by
  unfold cancelAuto
  apply Triple.get_bind
  rintro v ⟨h, hintime⟩
  apply required_triple
  · intro hcurrent
    apply required_triple
    · intro hsome
      rintro u rfl
      rw [Bool.and_eq_true] at hcurrent
      obtain ⟨hid, hcancel⟩ := hcurrent
      unfold automatic at hid hcancel
      dsimp only at hid hcancel
      rw [Bool.and_eq_true, Bool.and_eq_true] at hcancel
      obtain ⟨⟨hactive, hstate⟩, hphase⟩ := hcancel
      have hshown : shownStatus world u = u.cloud := by
        unfold shownStatus shownPending
        unfold isActive at hactive
        rw [Bool.and_eq_true] at hactive
        rw [Option.isSome_iff_exists] at hsome
        obtain ⟨a, ha⟩ := hsome
        rw [if_pos hactive.1]
        dsimp only
        rw [ha]
        rfl
      rw [hshown] at hid hstate hphase
      obtain ⟨t, ht, hstarting⟩ := h.syncing (eq_of_beq hstate) (eq_of_beq hphase)
      have hrequest := (h.starting t ht hstarting).1
      have hsame : id = t.ctx.id := by
        rw [hrequest] at hid
        exact (Option.some.inj (eq_of_beq hid)).symm
      have hearly : t.stage.committed = false := by
        obtain ⟨hchecked, hspawned⟩ := hintime t ht
        revert hstarting hchecked hspawned
        cases t.stage <;> decide
      obtain ⟨a, ha, howned, _, hflag⟩ := h.exclusive.owned _ (h.working t ht)
      have hset : (Backend.next u.sys .interrupt).state.flags t.ctx.cancel = true := by
        change (interrupt u.sys.state).flags _ = true
        unfold interrupt
        rw [ha]
        change Function.update u.sys.state.flags a.cancel true t.ctx.cancel = true
        rw [hflag, Function.update_self]
      constructor
      · exact h.exclusive.next_interrupt
      · exact h.one
      · exact h.working
      · exact h.kind
      · exact h.starting
      · exact h.syncing
      · intro e he
        rcases List.mem_cons.mp he with rfl | he
        · have hknown := h.exclusive.active a ha
          rw [howned] at hknown
          rw [hsame]
          exact hknown
        · exact h.known e he
      · intro w hw _
        rw [h.one t ht w hw]
        exact ⟨hset, hearly⟩
      · intro w hw hcommitted
        rw [h.one t ht w hw, hearly] at hcommitted
        cases hcommitted
      · exact ⟨trivial, h.order⟩
    · exact h
  · exact h

theorem close_flags {beforeStart : Bool} {state : State} {f : Flag} (h : state.flags f = true) :
    (Backend.close beforeStart state).flags f = true := by
  cases ha : state.active with
  | none =>
    rw [close_none ha]
    exact h
  | some a =>
    cases hready : hasJob state a.kind isReady with
    | true =>
      rw [close_ready ha hready]
      exact update_flags h
    | false =>
      rcases close_working beforeStart ha hready with hclose | hclose
      · rw [hclose]
        exact h
      · rw [hclose]
        exact update_flags h

theorem close_closing (beforeStart : Bool) (state : State) :
    (Backend.close beforeStart state).closing = true := by
  cases ha : state.active with
  | none => rw [close_none ha]
  | some a =>
    cases hready : hasJob state a.kind isReady with
    | true =>
      rw [close_ready ha hready]
      rfl
    | false =>
      rcases close_working beforeStart ha hready with hclose | hclose <;> rw [hclose]

theorem Coherent.close (h : Coherent s) : Coherent (close s) := by
  constructor
  · exact h.exclusive.next_close _
  · exact h.one
  · exact h.working
  · exact h.kind
  · exact h.starting
  · exact h.syncing
  · exact h.known
  · intro t ht haccepted
    exact ⟨close_flags (h.accepted t ht haccepted).1, (h.accepted t ht haccepted).2⟩
  · exact fun _ _ _ _ => close_closing _ _
  · exact h.order

theorem Coherent.next (h : Coherent s) {action : Action} (hpossible : Possible s action)
    (hintime : InTime s action) : Coherent (next s action) := by
  cases action with
  | start world request =>
    exact (start_triple request s ⟨h, hpossible⟩).stateOf
  | recover world id => exact (recover_triple id s ⟨h, hpossible⟩).stateOf
  | cancelAuto world id => exact (cancelAuto_triple id s ⟨h, hintime⟩).stateOf
  | close => exact h.close
  | step t failure code => exact h.step hpossible failure code
  | finish world t => exact h.finish hpossible.1 hpossible.2
  | other action => exact h.other action hpossible.1 hpossible.2

theorem Coherent.of_runs (h : Runs InTime s) : Coherent s := by
  induction h with
  | start hstarted => exact .of_started hstarted
  | step _ hpossible hintime ih => exact ih.next hpossible hintime

theorem Coherent.honoured (h : Coherent s) : Honoured s := by
  have hunset : ∀ t ∈ s.sessions, t.stage.committed = true → s.sys.state.closing = false →
      s.sys.state.flags t.ctx.cancel = false := by
    intro t ht hcommitted hopen
    by_contra hset
    rw [Bool.not_eq_false] at hset
    rw [h.closing t ht hcommitted hset] at hopen
    cases hopen
  constructor
  · exact h.order
  · intro t ht hstage
    have hcommitted : t.stage.committed = true := by
      rcases hstage with hstage | hstage <;> rw [hstage] <;> rfl
    constructor
    · intro haccepted
      have hearly := (h.accepted t ht haccepted).2
      rw [hcommitted] at hearly
      cases hearly
    · intro hopen
      unfold interrupted
      rw [hunset t ht hcommitted hopen]
      rfl
  · intro t ht hstage hlocal hopen code
    have hflag := hunset t ht (by rw [hstage]; rfl) hopen
    unfold Auto.step
    rw [hstage]
    dsimp only
    rw [if_neg (by rw [hlocal]; decide)]
    unfold Auto.unlessCancelled
    rw [if_neg (by rw [hflag]; decide)]
    exact List.mem_map.mpr ⟨t, ht, if_pos rfl⟩

/-- In every run in which no cancellation comes between the last look at the flag and the status that
says the game runs, an accepted cancellation is honoured and what was played is uploaded. -/
theorem cancelled_in_time (h : Runs InTime s) : Honoured s := (Coherent.of_runs h).honoured

/-! ## A cancellation that comes late -/

section

def ready : World := ⟨calm, true, none, true, false⟩

/-- The launcher with a runtime that is ready, just started. -/
def opened : Service := ⟨fresh, ⟨.idle, none, none, none⟩, none, [], []⟩

theorem opened_started : Started opened := ⟨fresh_started, rfl, rfl, rfl⟩

def playing (stage : Stage) : Session :=
  ⟨⟨"1", "cloud-auto", some "/games/msfs", 0⟩, .beforeStart, false, stage⟩

/-- The worker goes on from a stage. -/
def moved (s : Service) (stage : Stage) : Service := next s (.step (playing stage) none none)

/-- The session is reserved, and its worker compares and marks the profile. -/
def launching : Service :=
  moved (moved (moved (next opened (.start ready .launch)) .reserved) .begun) .compared

theorem moved_runs {meets : Service → Action → Prop} (h : Runs meets s) {stage : Stage}
    (hmem : playing stage ∈ s.sessions) (hmeets : meets s (.step (playing stage) none none)) :
    Runs meets (moved s stage) := h.step hmem hmeets

theorem launching_runs {meets : Service → Action → Prop}
    (hstart : ∀ s world request, meets s (.start world request))
    (hstep : ∀ s t failure code, meets s (.step t failure code)) : Runs meets launching := by
  have hreserved : Runs meets (next opened (.start ready .launch)) := by
    apply (Runs.start opened_started).step
    · show "1" ∉ []
      decide
    · exact hstart ..
  have hbegun : Runs meets (moved (next opened (.start ready .launch)) .reserved) :=
    moved_runs hreserved (by decide) (hstep ..)
  exact moved_runs (moved_runs hbegun (by decide) (hstep ..)) (by decide) (hstep ..)

/-- The cancellation comes after the last look at the flag, and the game starts. -/
theorem cancelled_then_spawned : ¬ ∀ s, Runs (fun _ _ => True) s → Honoured s := by
  intro h
  have hlaunching : Runs (fun _ _ => True) launching :=
    launching_runs (fun _ _ _ => trivial) fun _ _ _ _ => trivial
  have hchecked : Runs (fun _ _ => True) (moved launching .marked) :=
    moved_runs hlaunching (by decide) trivial
  have hcancelled : Runs (fun _ _ => True)
      (next (moved launching .marked) (.cancelAuto ready "1")) := hchecked.step trivial trivial
  have hlate : Runs (fun _ _ => True)
      (moved (next (moved launching .marked) (.cancelAuto ready "1")) .checked) :=
    moved_runs hcancelled (by decide) trivial
  have horder := (h _ hlate).order
  have hhistory : (moved (next (moved launching .marked) (.cancelAuto ready "1"))
      .checked).history = [.spawned "1", .accepted "1"] := by decide
  rw [hhistory] at horder
  exact horder.1 List.mem_cons_self

/-- The cancellation comes before the last look at the flag: the worker sees it, and no game starts.
-/
theorem cancelled_in_time_marked :
    let s := moved (next launching (.cancelAuto ready "1")) .marked
    s.history = [.accepted "1"] ∧ s.sessions = [playing .ended] ∧ Honoured s := by
  refine ⟨by decide, by decide, cancelled_in_time ?_⟩
  have hlaunching : Runs InTime launching :=
    launching_runs (fun _ _ _ => trivial) fun _ _ _ _ => trivial
  have hcancelled : Runs InTime (next launching (.cancelAuto ready "1")) := by
    apply Runs.step hlaunching
    · trivial
    · show ∀ t ∈ launching.sessions, t.stage ≠ .checked ∧ t.stage ≠ .spawned
      decide
  exact moved_runs hcancelled (by decide) trivial

end

end Flightdeck.Backend.Auto
