import Flightdeck.Foundation.Effects

/-!
# Effects that break off

A program whose effects are written to a disk can fail at each of them, before or after the effect
took place, and the machine can stop there.  A failure is an error that the program may catch; a
crash ends it.  Every effect takes the fault that strikes it as an argument, so a schedule of faults
is a function from the places of a program to their faults.
-/

namespace Foundation

variable {ε σ α β : Type}

/-- How a program ends that does not return a value. -/
inductive Stop (ε : Type) where
  | error (e : ε)
  | crash
  deriving DecidableEq

/-- What goes wrong at one place. A `late` fault strikes after the effect took place. -/
inductive Fault where
  | none
  | fails (late : Bool)
  | stops (late : Bool)
  deriving DecidableEq

/-- The effect takes place. -/
def Fault.passes : Fault → Bool
  | .none => true
  | .fails late => late
  | .stops late => late

@[simp] theorem Fault.passes_none : Fault.none.passes = true := rfl

theorem Fault.ne_none_of_passes {fault : Fault} (h : fault.passes = false) : fault ≠ .none := by
  rintro rfl
  cases h

/-- The effect `m` at a place with this fault. -/
def perform (fault : Fault) (e : ε) (m : EStateM (Stop ε) σ α) : EStateM (Stop ε) σ α :=
  match fault with
  | .none => m
  | .fails true => m >>= fun _ => throw (.error e)
  | .fails false => throw (.error e)
  | .stops true => m >>= fun _ => throw .crash
  | .stops false => throw .crash

@[simp] theorem perform_none (e : ε) (m : EStateM (Stop ε) σ α) : perform .none e m = m := rfl

/-- A check or a computation without effects. -/
instance : MonadLift (Except ε) (EStateM (Stop ε) σ) where
  monadLift x := fun s => match x with
    | .ok a => .ok a s
    | .error e => .error (.error e) s

/-- The outcome of a program as a value; a crash is not caught. -/
def outcome (m : EStateM (Stop ε) σ α) : EStateM (Stop ε) σ (Except ε α) := fun s =>
  match m s with
  | .ok a s => .ok (.ok a) s
  | .error (.error e) s => .ok (.error e) s
  | .error .crash s => .error .crash s

/-- What holds of the outcome of a program that was run for its value. -/
def OnOutcome (good : α → σ → Prop) (bad : ε → σ → Prop) : Except ε α → σ → Prop
  | .ok a, s => good a s
  | .error e, s => bad e s

namespace Triple

variable {P : σ → Prop} {Q : α → σ → Prop} {R : β → σ → Prop} {E : Stop ε → σ → Prop}
  {m : EStateM (Stop ε) σ α} {f : α → EStateM (Stop ε) σ β}

/-- A fault leaves the state before the effect or the state after it. -/
theorem perform {fault : Fault} {e : ε} (hm : fault.passes = true → Triple P m Q E)
    (hbefore : fault.passes = false → ∀ s, P s → E (.error e) s ∧ E .crash s)
    (hafter : fault.passes = true → fault ≠ .none → ∀ a s, Q a s →
      E (.error e) s ∧ E .crash s) :
    Triple P (Foundation.perform fault e m) Q E := by
  cases fault with
  | none => exact hm rfl
  | fails late =>
    cases late with
    | false => exact fun s hs => (hbefore rfl s hs).1
    | true => exact (hm rfl).bind fun a s hs => (hafter rfl nofun a s hs).1
  | stops late =>
    cases late with
    | false => exact fun s hs => (hbefore rfl s hs).2
    | true => exact (hm rfl).bind fun a s hs => (hafter rfl nofun a s hs).2

theorem check {x : Except ε α} (hok : ∀ a s, P s → x = .ok a → Q a s)
    (herror : ∀ e s, P s → x = .error e → E (.error e) s) :
    Triple P (liftM x : EStateM (Stop ε) σ α) Q E := by
  intro s hs
  cases x with
  | ok a => exact hok a s hs rfl
  | error e => exact herror e s hs rfl

theorem outcome {Q : Except ε α → σ → Prop} {E' : Stop ε → σ → Prop}
    (hm : Triple P m (fun a s => Q (.ok a) s) fun stop s =>
      match stop with
      | .error e => Q (.error e) s
      | .crash => E' .crash s) :
    Triple P (Foundation.outcome m) Q E' := by
  intro s hs
  have h := hm s hs
  unfold Foundation.outcome
  cases hms : m s with
  | ok a s' =>
    rw [hms] at h
    exact h
  | error stop s' =>
    rw [hms] at h
    cases stop with
    | error e => exact h
    | crash => exact h

theorem onOutcome (hm : Triple P m Q E) :
    Triple P (Foundation.outcome m) (OnOutcome Q fun e => E (.error e)) E := by
  refine outcome (hm.mono (fun _ h => h) (fun _ _ h => h) fun stop s h => ?_)
  cases stop <;> exact h

/-- The value and the state that a run from a known state ends with are those of that run. -/
theorem known {ε : Type} {P : σ → Prop} {Q : α → σ → Prop} {E : ε → σ → Prop} {m : EStateM ε σ α}
    (hm : Triple P m Q E) (start : σ) :
    Triple (fun s => s = start ∧ P s) m (fun a s => m start = .ok a s ∧ Q a s) E := by
  rintro s ⟨rfl, hs⟩
  have h := hm s hs
  cases hms : m s with
  | ok a s' =>
    rw [hms] at h
    exact ⟨rfl, h⟩
  | error e s' =>
    rw [hms] at h
    exact h

end Triple

theorem check_ok_bind (a : α) (f : α → EStateM (Stop ε) σ β) :
    (liftM (Except.ok a : Except ε α) >>= f) = f a := rfl

/-! ## Runs that succeed -/

theorem run_bind_eq_ok {ε : Type} {m : EStateM ε σ α} {f : α → EStateM ε σ β} {b : β}
    {s after : σ} :
    (m >>= f) s = .ok b after ↔ ∃ a now, m s = .ok a now ∧ f a now = .ok b after := by
  change EStateM.bind m f s = _ ↔ _
  unfold EStateM.bind
  cases hm : m s with
  | ok a now =>
    constructor
    · exact fun h => ⟨a, now, rfl, h⟩
    · rintro ⟨_, _, h, hf⟩
      cases h
      exact hf
  | error e now =>
    constructor
    · nofun
    · rintro ⟨_, _, h, _⟩
      cases h

theorem check_eq_ok {x : Except ε α} {a : α} {s after : σ} :
    (liftM x : EStateM (Stop ε) σ α) s = .ok a after ↔ x = .ok a ∧ after = s := by
  cases x with
  | ok b =>
    change EStateM.Result.ok b s = _ ↔ _
    simp [eq_comm]
  | error e =>
    change EStateM.Result.error (Stop.error e) s = _ ↔ _
    simp

theorem throw_apply (e : ε) (s : σ) : (throw e : EStateM ε σ α) s = .error e s := rfl

theorem perform_eq_ok {fault : Fault} {e : ε} {m : EStateM (Stop ε) σ α} {a : α} {s after : σ} :
    perform fault e m s = .ok a after ↔ fault = .none ∧ m s = .ok a after := by
  cases fault with
  | none => simp
  | fails late =>
    cases late with
    | false => simp [perform, throw_apply]
    | true =>
      simp only [perform, run_bind_eq_ok]
      simp [throw_apply]
  | stops late =>
    cases late with
    | false => simp [perform, throw_apply]
    | true =>
      simp only [perform, run_bind_eq_ok]
      simp [throw_apply]

end Foundation
