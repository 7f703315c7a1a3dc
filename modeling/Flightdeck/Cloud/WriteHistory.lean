import Flightdeck.Cloud.Write
import Flightdeck.Foundation.Outcome

/-!
# Histories of an upload

What a server and a local file see of an upload, newest first, and what each step of the upload
adds to it.  The server may answer anything.
-/

namespace Flightdeck.Cloud.Write

open Foundation SaveState

/-- A call and its answer. -/
inductive Event where
  | acquire (reply : Except Failure LeaseReply)
  | renew (reply : Except Failure LeaseReply)
  | release (reply : Except Failure UInt16)
  | uploadAtom (payload : Bytes) (reply : Except Failure String)
  | putContainer (name display : String) (modified : UInt64) (atoms : TextMap String)
      (reply : Except Failure UInt16)
  | deleteContainer (name : String) (reply : Except Failure UInt16)
  | remote (force : TextSet) (reply : Except Failure State)
  | assertLocal (reply : Except Failure Unit)
  deriving DecidableEq

/-- A call of `Operations`. -/
def Event.isCall : Event → Bool
  | .assertLocal _ => false
  | _ => true

def Event.isAcquire : Event → Bool
  | .acquire _ => true
  | _ => false

def Event.isLease : Event → Bool
  | .acquire _ | .renew _ => true
  | _ => false

def Event.isRelease : Event → Bool
  | .release _ => true
  | _ => false

/-- The wire name of the container that a call replaces or deletes. -/
def Event.mutation : Event → Option String
  | .putContainer name _ _ _ _ | .deleteContainer name _ => some name
  | _ => none

def Event.read : Event → Option (TextSet × Except Failure State)
  | .remote force reply => some (force, reply)
  | _ => none

variable {σ α : Type}

def recorded (event : Except Failure α → Event) (m : EStateM Failure σ α) :
    EStateM Failure (σ × List Event) α := fun s =>
  match m s.1 with
  | .ok a world => .ok a (world, event (.ok a) :: s.2)
  | .error e world => .error e (world, event (.error e) :: s.2)

/-- The same server, which also keeps a history of the calls. -/
def Operations.recorded (ops : Operations σ) : Operations (σ × List Event) where
  scope := ops.scope
  acquire timeout := Write.recorded .acquire (ops.acquire timeout)
  renew timeout := Write.recorded .renew (ops.renew timeout)
  release timeout := Write.recorded .release (ops.release timeout)
  uploadAtom payload timeout :=
    Write.recorded (.uploadAtom payload) (ops.uploadAtom payload timeout)
  putContainer name display modified atoms timeout :=
    Write.recorded (.putContainer name display modified atoms)
      (ops.putContainer name display modified atoms timeout)
  deleteContainer name timeout :=
    Write.recorded (.deleteContainer name) (ops.deleteContainer name timeout)
  remote timeout force := Write.recorded (.remote force) (ops.remote timeout force)

def recordedEnv (env : Ambient σ) : Ambient (σ × List Event) where
  cancelled s := ((env.cancelled s.1).1, (env.cancelled s.1).2, s.2)
  now s := ((env.now s.1).1, (env.now s.1).2, s.2)
  assertLocal := recorded .assertLocal env.assertLocal

def Context.recorded (c : Context σ) : Context (σ × List Event) where
  ops := c.ops.recorded
  env := recordedEnv c.env
  limits := c.limits
  deadline := c.deadline

/-- What matters of a run but the server and the operation count. -/
structure Log where
  history : List Event
  committed : Nat
  mutationAttempted : Bool
  acquired : Bool
  owner : Option String
  mutated : TextSet

def Run.log (run : Run (σ × List Event)) : Log where
  history := run.world.2
  committed := run.committed
  mutationAttempted := run.mutationAttempted
  acquired := run.acquired
  owner := run.owner
  mutated := run.mutated

def Log.add (l : Log) (e : Event) : Log := { l with history := e :: l.history }

@[simp] theorem Log.add_history (l : Log) (e : Event) : (l.add e).history = e :: l.history := rfl
@[simp] theorem Log.add_committed (l : Log) (e : Event) : (l.add e).committed = l.committed := rfl
@[simp] theorem Log.add_attempted (l : Log) (e : Event) :
    (l.add e).mutationAttempted = l.mutationAttempted := rfl
@[simp] theorem Log.add_acquired (l : Log) (e : Event) : (l.add e).acquired = l.acquired := rfl
@[simp] theorem Log.add_owner (l : Log) (e : Event) : (l.add e).owner = l.owner := rfl
@[simp] theorem Log.add_mutated (l : Log) (e : Event) : (l.add e).mutated = l.mutated := rfl

/-- A triple about the log only. -/
def Logged (P : Log → Prop) (m : EStateM Failure (Run (σ × List Event)) α) (Q : α → Log → Prop)
    (E : Failure → Log → Prop) : Prop :=
  Triple (fun run => P run.log) m (fun a run => Q a run.log) (fun e run => E e run.log)

namespace Logged

variable {β : Type} {P P' : Log → Prop} {Q Q' : α → Log → Prop} {R : β → Log → Prop}
  {E E' : Failure → Log → Prop} {m : EStateM Failure (Run (σ × List Event)) α}
  {f : α → EStateM Failure (Run (σ × List Event)) β}

theorem pure (a : α) (h : ∀ l, P l → Q a l) :
    Logged P (Pure.pure a : EStateM Failure (Run (σ × List Event)) α) Q E :=
  fun run hrun => h run.log hrun

theorem bind (hm : Logged P m Q E) (hf : ∀ a, Logged (Q a) (f a) R E) :
    Logged P (m >>= f) R E :=
  Triple.bind hm hf

theorem mono (hm : Logged P m Q E) (hP : ∀ l, P' l → P l) (hQ : ∀ a l, Q a l → Q' a l)
    (hE : ∀ e l, E e l → E' e l) : Logged P' m Q' E' :=
  Triple.mono hm (fun _ h => hP _ h) (fun _ _ h => hQ _ _ h) (fun _ _ h => hE _ _ h)

theorem lift {x : Except Failure α} (hok : ∀ a l, P l → x = .ok a → Q a l)
    (herror : ∀ e l, P l → x = .error e → E e l) :
    Logged P (liftM x : EStateM Failure (Run (σ × List Event)) α) Q E :=
  Triple.lift (fun a run h hx => hok a run.log h hx) fun e run h hx => herror e run.log h hx

theorem throw {e : Failure} (h : ∀ l, P l → E e l) :
    Logged P (MonadExcept.throw e : EStateM Failure (Run (σ × List Event)) α) Q E :=
  fun run hrun => h run.log hrun

/-- A call adds one event. -/
theorem recorded {event : Except Failure α → Event} {m : EStateM Failure σ α}
    (hok : ∀ a l, P l → Q a (l.add (event (.ok a))))
    (herror : ∀ e l, P l → E e (l.add (event (.error e)))) :
    Logged P (call (Write.recorded event m)) Q E := by
  intro run hrun
  unfold call zoom Write.recorded
  cases m run.world.1 with
  | ok a world => exact hok a run.log hrun
  | error e world => exact herror e run.log hrun

theorem attempt {m : EStateM Failure (Run (σ × List Event)) α}
    {Q : Except Failure α → Log → Prop} (hm : Logged P m (fun a => Q (.ok a)) fun e => Q (.error e)) :
    Logged P (Foundation.attempt m) Q E :=
  Triple.attempt hm

theorem foldlM {ρ : Type} {step : β → ρ → EStateM Failure (Run (σ × List Event)) β}
    {I : Log → Prop} (hstep : ∀ b row, Logged I (step b row) (fun _ => I) E) (rows : List ρ)
    (b : β) : Logged I (rows.foldlM step b) (fun _ => I) E :=
  Triple.foldlM (I := fun _ _ (run : Run (σ × List Event)) => I run.log)
    (fun _ row _ b _ => hstep b row) b

/-- A loop whose invariant knows the rows that are done. -/
theorem forM {ρ : Type} {body : ρ → EStateM Failure (Run (σ × List Event)) Unit}
    {I : List ρ → Log → Prop} {rows : List ρ}
    (hbody : ∀ done row rest, rows = done ++ row :: rest →
      Logged (I done) (body row) (fun _ => I (done ++ [row])) E) :
    Logged (I []) (rows.forM body) (fun _ => I rows) E :=
  Triple.forM (I := fun done (run : Run (σ × List Event)) => I done run.log) hbody

/-- The precondition may be fixed to one log. -/
theorem of_each (h : ∀ l₀, P l₀ → Logged (· = l₀) m Q E) : Logged P m Q E :=
  fun run hrun => h run.log hrun run rfl

end Logged

/-! ## Steps -/

/-- A check passed: the local file was compared last. -/
def Log.checked (l : Log) : Log := l.add (.assertLocal (.ok ()))

/-- A check failed, before or at the comparison of the local file. -/
inductive CheckFailed (l : Log) : Log → Prop
  | early : CheckFailed l l
  | changed (e : Failure) : CheckFailed l (l.add (.assertLocal (.error e)))

variable (c : Context σ)

/-- Neither the cancel flag nor the clock is part of the history. -/
theorem remaining_logged (P : Log → Prop) :
    Logged P (call (remaining c.recorded.env c.deadline)) (fun _ => P) (fun _ => P) := by
  have hworld (h : List Event) : Triple (fun s : σ × List Event => s.2 = h)
      (remaining c.recorded.env c.deadline) (fun _ s => s.2 = h) (fun _ s => s.2 = h) := by
    have hload : Triple (fun s : σ × List Event => s.2 = h) c.recorded.env.load
        (fun _ s => s.2 = h) (fun _ s => s.2 = h) := fun _ hs => hs
    have hinstant : Triple (fun s : σ × List Event => s.2 = h) c.recorded.env.instant
        (fun _ s => s.2 = h) (fun _ s => s.2 = h) := fun _ hs => hs
    have hrequire (ok : Bool) (code : Code) : Triple (fun s : σ × List Event => s.2 = h)
        (liftM (Cloud.require ok code) : EStateM Failure (σ × List Event) Unit)
        (fun _ s => s.2 = h) (fun _ s => s.2 = h) :=
      Triple.lift (fun _ _ hs _ => hs) fun _ _ hs _ => hs
    refine (hload.bind fun flag => hrequire _ _).bind fun _ => hinstant.bind fun now => ?_
    exact (hrequire _ _).bind fun _ => Triple.pure (Q := fun _ (s : σ × List Event) => s.2 = h) _
  refine Triple.zoom fun run hrun => ?_
  have hlog (s : σ × List Event) (hs : s.2 = run.world.2) :
      ({ run with world := s } : Run (σ × List Event)).log = run.log := by
    simp only [Run.log, hs]
  exact (hworld run.world.2 run.world rfl).mono (fun _ s hs => by rw [hlog s hs]; exact hrun)
    fun _ s hs => by rw [hlog s hs]; exact hrun

theorem check_logged (l₀ : Log) :
    Logged (· = l₀) (check c.recorded) (fun _ l => l = l₀.checked) (fun _ l => CheckFailed l₀ l) := by
  refine Logged.bind ((remaining_logged c (· = l₀)).mono (fun _ h => h) (fun _ _ h => h) ?_)
    fun left => ?_
  · rintro e l rfl
    exact .early
  · have hlocal : Logged (· = l₀) (attempt (call c.recorded.env.assertLocal))
        (fun reply l => l = l₀.add (.assertLocal reply)) (fun _ l => CheckFailed l₀ l) := by
      apply Logged.attempt
      exact Logged.recorded (by rintro a l rfl; rfl) (by rintro e l rfl; rfl)
    refine hlocal.bind fun reply => ?_
    cases reply with
    | ok u => exact Logged.pure left fun l hl => hl
    | error e => exact Logged.throw fun l hl => hl ▸ .changed e

theorem budget_logged (l₀ : Log) :
    Logged (· = l₀) (budget c.recorded) (fun _ l => l = l₀.checked)
      (fun _ l => CheckFailed l₀ l ∨ l = l₀.checked) := by
  refine Logged.bind ((check_logged c l₀).mono (fun _ h => h) (fun _ _ h => h)
    fun _ _ h => Or.inl h) fun left => ?_
  refine Logged.bind (Q := fun _ l => l = l₀.checked) (fun run hrun => hrun) fun _ => ?_
  refine Logged.bind (Q := fun _ l => l = l₀.checked) (fun run hrun => hrun) fun run => ?_
  refine Logged.bind (Q := fun _ l => l = l₀.checked) (Logged.lift (fun _ _ hl _ => hl)
    fun _ _ hl _ => Or.inr hl) fun _ => Logged.pure _ fun _ hl => hl

/-- An answer that grants or confirms a lease. -/
def LeaseReply.Granted (reply : LeaseReply) : Prop :=
  (reply.status = 200 ∨ reply.status = 201) ∧ reply.wellFormed = true

/-- The answer to a renewal by the owner of the lease. -/
structure LeaseReply.Renews (reply : LeaseReply) (owner : Option String) : Prop where
  granted : reply.Granted
  status : reply.status = 200
  owner : owner = some reply.ownerChangeId

/-- The log of a renewal that was not answered by the owner: a lease of ours only if the server
created a new one. -/
structure Refused (l : Log) (reply : LeaseReply) (l' : Log) : Prop where
  foreign : ¬ reply.Renews l.owner
  fresh : l'.acquired = true → reply.Granted ∧ reply.status = 201
  same : l' = { l with acquired := l'.acquired }

theorem Refused.mk' {l : Log} {reply : LeaseReply} {acquired : Bool}
    (hreply : ¬ reply.Renews l.owner)
    (hfresh : acquired = true → reply.Granted ∧ reply.status = 201) :
    Refused l reply { l with acquired } := ⟨hreply, hfresh, rfl⟩

theorem lease_logged (reply : LeaseReply) (l₀ : Log) (hacquired : l₀.acquired = false) :
    Logged (· = l₀) (lease c.recorded reply false)
      (fun _ l => reply.Renews l₀.owner ∧ l = { l₀ with acquired := true }.checked)
      (fun _ l => Refused l₀ reply l ∨
        (reply.Renews l₀.owner ∧ CheckFailed { l₀ with acquired := true } l)) := by
  rintro run rfl
  have hcleared (h : ¬ reply.Renews run.log.owner) :
      Refused run.log reply { run.log with acquired := false } := .mk' h nofun
  have hkept (h : ¬ reply.Renews run.log.owner) : Refused run.log reply run.log := by
    have hsame : { run.log with acquired := false } = run.log := by rw [← hacquired]
    exact hsame ▸ hcleared h
  unfold lease
  by_cases h401 : reply.status = 401 ∨ reply.status = 403
  · have hreply : ¬ reply.Renews run.log.owner := by
      intro h
      rcases h401 with h401 | h401 <;> rw [h.status] at h401 <;> exact absurd h401 (by decide)
    simp only [if_pos h401]
    exact Or.inl (hcleared hreply)
  simp only [if_neg h401]
  by_cases h409 : reply.status = 409
  · have hreply : ¬ reply.Renews run.log.owner := by
      intro h
      rw [h.status] at h409
      exact absurd h409 (by decide)
    simp only [if_pos h409]
    exact Or.inl (hcleared hreply)
  simp only [if_neg h409]
  by_cases h200 : reply.status = 200 ∨ reply.status = 201
  · simp only [h200, not_true_eq_false, if_false]
    cases hwell : reply.wellFormed with
    | false =>
      refine Or.inl (hkept fun h => ?_)
      have hgranted := h.granted.2
      rw [hwell] at hgranted
      cases hgranted
    | true =>
      have hgranted : reply.Granted := ⟨h200, hwell⟩
      by_cases h201 : reply.status = 201
      · have hreply : ¬ reply.Renews run.log.owner := by
          intro h
          rw [h.status] at h201
          exact absurd h201 (by decide)
        have hfresh : Refused run.log reply { run.log with acquired := true } :=
          .mk' hreply fun _ => ⟨hgranted, h201⟩
        simp only [if_pos h201]
        exact Or.inl hfresh
      · have hstatus : reply.status = 200 := h200.resolve_right h201
        simp only [if_neg h201, Cloud.require_true, lift_ok_bind, Bool.false_eq_true, if_false]
        rw [get_bind]
        by_cases howner : run.owner = some reply.ownerChangeId
        · simp only [howner, ne_eq, not_true_eq_false, if_false]
          have hrenews : reply.Renews run.log.owner := ⟨hgranted, hstatus, howner⟩
          have hcheck : Logged (· = { run.log with acquired := true })
              (do let _ ← check c.recorded; return reply.quotaBytes)
              (fun _ l => reply.Renews run.log.owner ∧ l = { run.log with acquired := true }.checked)
              (fun _ l => Refused run.log reply l ∨
                (reply.Renews run.log.owner ∧ CheckFailed { run.log with acquired := true } l)) :=
            ((check_logged c _).mono (fun _ h => h) (fun _ l hl => ⟨hrenews, hl⟩)
              fun _ l hl => Or.inr ⟨hrenews, hl⟩).bind fun _ => Logged.pure _ fun _ h => h
          exact hcheck { run with acquired := true } rfl
        · simp only [howner, ne_eq, not_false_eq_true, if_true]
          exact Or.inl (hcleared fun h => howner h.owner)
  · simp only [h200, not_false_eq_true, if_true]
    exact Or.inl (hkept fun h => h200 h.granted.1)

/-- The first reply makes the run the owner of the lease. -/
theorem first_lease_logged (reply : LeaseReply) (l₀ : Log) (hacquired : l₀.acquired = false) :
    Logged (· = l₀) (lease c.recorded reply true)
      (fun _ l => reply.Granted ∧
        l = { l₀ with owner := some reply.ownerChangeId, acquired := true }.checked)
      (fun _ l => l = l₀ ∨ (reply.Granted ∧
        CheckFailed { l₀ with owner := some reply.ownerChangeId, acquired := true } l)) := by
  rintro run rfl
  have hsame : { run.log with acquired := false } = run.log := by rw [← hacquired]
  unfold lease
  by_cases h401 : reply.status = 401 ∨ reply.status = 403
  · simp only [if_pos h401]
    exact Or.inl hsame
  simp only [if_neg h401]
  by_cases h409 : reply.status = 409
  · simp only [if_pos h409]
    exact Or.inl hsame
  simp only [if_neg h409]
  by_cases h200 : reply.status = 200 ∨ reply.status = 201
  · simp only [h200, not_true_eq_false, if_false]
    cases hwell : reply.wellFormed with
    | false => exact Or.inl rfl
    | true =>
      simp only [Cloud.require_true, lift_ok_bind, if_true]
      have hgranted : reply.Granted := ⟨h200, hwell⟩
      have hcheck : Logged
          (· = { run.log with owner := some reply.ownerChangeId, acquired := true })
          (do let _ ← check c.recorded; return reply.quotaBytes)
          (fun _ l => reply.Granted ∧
            l = { run.log with owner := some reply.ownerChangeId, acquired := true }.checked)
          (fun _ l => l = run.log ∨ (reply.Granted ∧
            CheckFailed { run.log with owner := some reply.ownerChangeId, acquired := true } l)) :=
        ((check_logged c _).mono (fun _ h => h) (fun _ l hl => ⟨hgranted, hl⟩)
          fun _ l hl => Or.inr ⟨hgranted, hl⟩).bind fun _ => Logged.pure _ fun _ h => h
      exact hcheck { run with owner := some reply.ownerChangeId, acquired := true } rfl
  · simp only [h200, not_false_eq_true, if_true]
    exact Or.inl rfl

/-! ### Renewals -/

/-- The log before the answer to a renewal. -/
def Log.renewing (l : Log) : Log := { l.checked with acquired := false }

/-- How a renewal can fail. -/
inductive RenewFailed (l : Log) : Log → Prop
  | unchecked {l'} (h : CheckFailed l l') : RenewFailed l l'
  | bounds : RenewFailed l l.checked
  | lost (e : Failure) : RenewFailed l (l.renewing.add (.renew (.error e)))
  | refused (reply : LeaseReply) {l'} (h : Refused (l.renewing.add (.renew (.ok reply))) reply l') :
      RenewFailed l l'
  | unconfirmed (reply : LeaseReply) {l'} (hreply : reply.Renews l.owner)
      (h : CheckFailed { l.renewing.add (.renew (.ok reply)) with acquired := true } l') :
      RenewFailed l l'

/-- The log of a renewal that went through. -/
def Log.renewed (l : Log) (reply : LeaseReply) : Log :=
  { l.renewing.add (.renew (.ok reply)) with acquired := true }.checked

theorem renew_logged (l₀ : Log) :
    Logged (· = l₀) (renew c.recorded)
      (fun _ l => ∃ reply, reply.Renews l₀.owner ∧ l = l₀.renewed reply)
      (fun _ l => RenewFailed l₀ l) := by
  refine Logged.bind ((budget_logged c l₀).mono (fun _ h => h) (fun _ _ h => h) ?_)
    fun timeout => ?_
  · rintro e l (h | rfl)
    · exact .unchecked h
    · exact .bounds
  refine Logged.bind (Q := fun _ l => l = l₀.renewing) ?_ fun _ => ?_
  · rintro run hrun
    change { run.log with acquired := false } = l₀.renewing
    rw [hrun]
    rfl
  refine Logged.bind (Q := fun reply l => l = l₀.renewing.add (.renew (.ok reply)))
    (Logged.recorded (by rintro reply l rfl; rfl) (by rintro e l rfl; exact .lost e))
    fun reply => ?_
  refine Logged.bind ((lease_logged c reply _ rfl).mono (fun _ h => h)
    (fun _ l hl => ⟨reply, hl⟩) ?_) fun _ => Logged.pure _ fun _ h => h
  rintro e l (h | ⟨hreply, h⟩)
  · exact .refused reply h
  · exact .unconfirmed reply hreply h

/-! ### Reads -/

/-- How a read of the whole cloud state can fail. -/
inductive ReadFailed (l : Log) (force : TextSet) : Log → Prop
  | unchecked {l'} (h : CheckFailed l l') : ReadFailed l force l'
  | lost (e : Failure) : ReadFailed l force (l.checked.add (.remote force (.error e)))
  | invalid (state : State) : ReadFailed l force (l.checked.add (.remote force (.ok state)))
  | unconfirmed (state : State) {l'} (h : CheckFailed (l.checked.add (.remote force (.ok state))) l') :
      ReadFailed l force l'

/-- The log of a read that went through. -/
def Log.readBack (l : Log) (force : TextSet) (state : State) : Log :=
  (l.checked.add (.remote force (.ok state))).checked

theorem remote_logged [Sha256] (l₀ : Log) (force : TextSet) :
    Logged (· = l₀) (remote c.recorded force)
      (fun state l => (∃ data, encode state = .ok data) ∧ l = l₀.readBack force state)
      (fun _ l => ReadFailed l₀ force l) := by
  refine Logged.bind ((check_logged c l₀).mono (fun _ h => h) (fun _ _ h => h)
    fun _ _ h => .unchecked h) fun timeout => ?_
  refine Logged.bind (Q := fun state l => l = l₀.checked.add (.remote force (.ok state)))
    (Logged.recorded (by rintro state l rfl; rfl) (by rintro e l rfl; exact .lost e))
    fun state => ?_
  refine Logged.bind (Q := fun _ l => (∃ data, encode state = .ok data) ∧
    l = l₀.checked.add (.remote force (.ok state))) (Logged.lift ?_ ?_) fun _ => ?_
  · rintro data l rfl hdata
    exact ⟨⟨data, mapError_eq_ok.mp hdata⟩, rfl⟩
  · rintro e l rfl -
    exact .invalid state
  · apply Logged.of_each
    rintro l ⟨hencode, rfl⟩
    exact ((check_logged c _).mono (fun _ h => h) (fun _ l hl => ⟨hencode, hl⟩)
      fun _ l hl => .unconfirmed state hl).bind fun _ => Logged.pure _ fun _ h => h

end Flightdeck.Cloud.Write
