import Mathlib.Tactic

/-!
# Effects that may fail

Programs over a state that end with a value or an error, and the rules to reason about both ends.
`Triple P m Q E` says that `m`, started where `P` holds, ends with `Q` of its value and state, or
with `E` of its error and state.
-/

namespace Foundation

variable {ε σ τ α β : Type}

instance exceptLift : MonadLift (Except ε) (EStateM ε σ) where
  monadLift x := fun s => match x with
    | .ok a => .ok a s
    | .error e => .error e s

/-- The result of a computation as a value. -/
def attempt {ε' : Type} (m : EStateM ε σ α) : EStateM ε' σ (Except ε α) := fun s =>
  match m s with
  | .ok a s => .ok (.ok a) s
  | .error e s => .ok (.error e) s

/-- A computation on a part of the state. -/
def zoom (get : τ → σ) (set : σ → τ → τ) (m : EStateM ε σ α) : EStateM ε τ α := fun t =>
  match m (get t) with
  | .ok a s => .ok a (set s t)
  | .error e s => .error e (set s t)

/-- What holds after a run, however it ends. -/
def Ends (r : EStateM.Result ε σ α) (Q : α → σ → Prop) (E : ε → σ → Prop) : Prop :=
  match r with
  | .ok a s => Q a s
  | .error e s => E e s

/-- Whether a run succeeded, for runs on fixed inputs. -/
def succeeded (r : EStateM.Result ε σ α) : Bool :=
  match r with
  | .ok _ _ => true
  | .error _ _ => false

/-- The state in which a run ends. -/
def stateOf (r : EStateM.Result ε σ α) : σ :=
  match r with
  | .ok _ s => s
  | .error _ s => s

theorem exists_of_succeeded {r : EStateM.Result ε σ α} (h : succeeded r = true) :
    ∃ a s, r = .ok a s := by
  cases r with
  | ok a s => exact ⟨a, s, rfl⟩
  | error e s => cases h

theorem get_bind (f : σ → EStateM ε σ α) (s : σ) : (get >>= f) s = f s s := rfl

theorem lift_ok_bind (a : α) (f : α → EStateM ε σ β) :
    (liftM (Except.ok a : Except ε α) >>= f) = f a := rfl

theorem modify_bind (g : σ → σ) (f : Unit → EStateM ε σ α) (s : σ) :
    (modify g >>= f) s = f () (g s) := rfl

/-- A step that is known to succeed. -/
theorem run_bind {m : EStateM ε σ α} {f : α → EStateM ε σ β} {s s' : σ} {a : α}
    (h : m s = .ok a s') : (m >>= f) s = f a s' := by
  change EStateM.bind m f s = _
  unfold EStateM.bind
  rw [h]

theorem Ends.mono {r : EStateM.Result ε σ α} {Q Q' : α → σ → Prop} {E E' : ε → σ → Prop}
    (h : Ends r Q E) (hQ : ∀ a s, Q a s → Q' a s) (hE : ∀ e s, E e s → E' e s) :
    Ends r Q' E' := by
  cases r with
  | ok a s => exact hQ a s h
  | error e s => exact hE e s h

theorem Ends.stateOf {r : EStateM.Result ε σ α} {P : σ → Prop}
    (h : Ends r (fun _ => P) fun _ => P) : P (Foundation.stateOf r) := by
  cases r with
  | ok a s => exact h
  | error e s => exact h

def Triple (P : σ → Prop) (m : EStateM ε σ α) (Q : α → σ → Prop) (E : ε → σ → Prop) : Prop :=
  ∀ s, P s → Ends (m s) Q E

namespace Triple

variable {P P' : σ → Prop} {Q Q' : α → σ → Prop} {R : β → σ → Prop} {E E' : ε → σ → Prop}
  {m : EStateM ε σ α} {f : α → EStateM ε σ β}

theorem pure (a : α) : Triple (Q a) (Pure.pure a : EStateM ε σ α) Q E := fun _ h => h

theorem bind (hm : Triple P m Q E) (hf : ∀ a, Triple (Q a) (f a) R E) :
    Triple P (m >>= f) R E := by
  intro s hs
  have h := hm s hs
  change Ends (EStateM.bind m f s) R E
  unfold EStateM.bind
  cases hms : m s with
  | ok a s' =>
    rw [hms] at h
    exact hf a s' h
  | error e s' =>
    rw [hms] at h
    exact h

theorem mono (hm : Triple P m Q E) (hP : ∀ s, P' s → P s) (hQ : ∀ a s, Q a s → Q' a s)
    (hE : ∀ e s, E e s → E' e s) : Triple P' m Q' E' :=
  fun s hs => (hm s (hP s hs)).mono hQ hE

theorem pre (hm : Triple P m Q E) (hP : ∀ s, P' s → P s) : Triple P' m Q E :=
  hm.mono hP (fun _ _ h => h) (fun _ _ h => h)

theorem post (hm : Triple P m Q E) (hQ : ∀ a s, Q a s → Q' a s) : Triple P m Q' E :=
  hm.mono (fun _ h => h) hQ (fun _ _ h => h)

/-- A check or a computation without effects. -/
theorem lift {x : Except ε α} (hok : ∀ a s, P s → x = .ok a → Q a s)
    (herror : ∀ e s, P s → x = .error e → E e s) :
    Triple P (liftM x : EStateM ε σ α) Q E := by
  intro s hs
  cases x with
  | ok a => exact hok a s hs rfl
  | error e => exact herror e s hs rfl

/-- A computation without effects that succeeds. -/
theorem lift_bind {x : Except ε α} {a : α} (hx : x = .ok a) (h : Triple P (f a) R E) :
    Triple P (liftM x >>= f) R E := by
  rw [hx]
  exact h

theorem ite {c : Prop} [Decidable c] {n : EStateM ε σ α} (hm : c → Triple P m Q E)
    (hn : ¬ c → Triple P n Q E) : Triple P (if c then m else n) Q E := by
  by_cases h : c
  · rw [if_pos h]
    exact hm h
  · rw [if_neg h]
    exact hn h

/-- A computation that starts with the state in hand. -/
theorem get_bind {f : σ → EStateM ε σ α}
    (h : ∀ s, P s → Triple (fun t => t = s) (f s) Q E) :
    Triple P (MonadState.get >>= f) Q E := fun s hs => h s hs s rfl

theorem map {g : α → β} (hm : Triple P m (fun a s => R (g a) s) E) :
    Triple P (g <$> m) R E := by
  intro s hs
  have h := hm s hs
  change Ends (EStateM.map g m s) R E
  unfold EStateM.map
  cases hms : m s with
  | ok a s' =>
    rw [hms] at h
    exact h
  | error e s' =>
    rw [hms] at h
    exact h

theorem update {g : σ → σ} {Q : Unit → σ → Prop} (h : ∀ s, P s → Q () (g s)) :
    Triple P (modify g : EStateM ε σ Unit) Q E := fun s hs => h s hs

theorem throw {e : ε} (h : ∀ s, P s → E e s) :
    Triple P (MonadExcept.throw e : EStateM ε σ α) Q E := fun s hs => h s hs

theorem attempt {ε' : Type} {Q : Except ε α → σ → Prop} {E' : ε' → σ → Prop}
    (hm : Triple P m (fun a s => Q (.ok a) s) (fun e s => Q (.error e) s)) :
    Triple P (Foundation.attempt m : EStateM ε' σ (Except ε α)) Q E' := by
  intro s hs
  have h := hm s hs
  unfold Foundation.attempt
  cases hms : m s with
  | ok a s' =>
    rw [hms] at h
    exact h
  | error e s' =>
    rw [hms] at h
    exact h

theorem zoom {get : τ → σ} {set : σ → τ → τ} {P : τ → Prop} {Q : α → τ → Prop}
    {E : ε → τ → Prop}
    (h : ∀ t, P t → Ends (m (get t)) (fun a s => Q a (set s t)) fun e s => E e (set s t)) :
    Triple P (Foundation.zoom get set m) Q E := by
  intro t ht
  have hm := h t ht
  unfold Foundation.zoom
  cases hms : m (get t) with
  | ok a s =>
    rw [hms] at hm
    exact hm
  | error e s =>
    rw [hms] at hm
    exact hm

/-- A computation that always succeeds. -/
theorem total (h : ∀ s, P s → ∃ a s', m s = .ok a s' ∧ Q a s') : Triple P m Q E := by
  intro s hs
  obtain ⟨a, s', hm, hQ⟩ := h s hs
  rw [hm]
  exact hQ

theorem exists_pre {ι : Sort*} {P : ι → σ → Prop} (h : ∀ i, Triple (P i) m Q E) :
    Triple (fun s => ∃ i, P i s) m Q E := fun s ⟨i, hs⟩ => h i s hs

theorem forall_pre {ι : Sort*} {P : ι → σ → Prop} {Q : ι → α → σ → Prop} {E : ι → ε → σ → Prop}
    (h : ∀ i, Triple (P i) m (Q i) (E i)) :
    Triple (fun s => ∀ i, P i s) m (fun a s => ∀ i, Q i a s) fun e s => ∀ i, E i e s := by
  intro s hs
  cases hms : m s with
  | ok a s' =>
    intro i
    have hi := h i s (hs i)
    rw [hms] at hi
    exact hi
  | error e s' =>
    intro i
    have hi := h i s (hs i)
    rw [hms] at hi
    exact hi

/-- A loop over a list, with an invariant of what is done and what is left to do. -/
theorem foldlM {ρ : Type} {step : β → ρ → EStateM ε σ β} {I : List ρ → β → σ → Prop}
    {rows : List ρ}
    (hstep : ∀ done row rest b, rows = done ++ row :: rest →
      Triple (I done b) (step b row) (I (done ++ [row])) E) (b : β) :
    Triple (I [] b) (rows.foldlM step b) (I rows) E := by
  suffices h : ∀ rest done b, rows = done ++ rest →
      Triple (I done b) (rest.foldlM step b) (I rows) E from h rows [] b rfl
  intro rest
  induction rest with
  | nil =>
    intro done b hrows
    rw [List.append_nil] at hrows
    rw [hrows]
    exact Triple.pure b
  | cons row rest ih =>
    intro done b hrows
    rw [List.foldlM_cons]
    refine (hstep done row rest b hrows).bind fun b' => ?_
    exact ih (done ++ [row]) b' (by rw [hrows, List.append_assoc]; rfl)

theorem forM {ρ : Type} {body : ρ → EStateM ε σ Unit} {I : List ρ → σ → Prop} {rows : List ρ}
    (hbody : ∀ done row rest, rows = done ++ row :: rest →
      Triple (I done) (body row) (fun _ => I (done ++ [row])) E) :
    Triple (I []) (rows.forM body) (fun _ => I rows) E := by
  suffices h : ∀ rest done, rows = done ++ rest →
      Triple (I done) (rest.forM body) (fun _ => I rows) E from h rows [] rfl
  intro rest
  induction rest with
  | nil =>
    intro done hrows
    rw [List.append_nil] at hrows
    rw [hrows]
    change Triple (I done) (Pure.pure ()) (fun _ => I done) E
    exact fun _ h => h
  | cons row rest ih =>
    intro done hrows
    change Triple (I done) (body row >>= fun _ => rest.forM body) (fun _ => I rows) E
    refine (hbody done row rest hrows).bind fun _ => ?_
    exact ih (done ++ [row]) (by rw [hrows, List.append_assoc]; rfl)

end Triple

/-! ## Histories -/

/-- Every event of a history, newest first, was allowed after the older ones. -/
def EachStep {ω : Type} (allowed : List ω → ω → Prop) : List ω → Prop
  | [] => True
  | event :: older => allowed older event ∧ EachStep allowed older

theorem EachStep.at {ω : Type} {allowed : List ω → ω → Prop} {newer older : List ω} {event : ω}
    (h : EachStep allowed (newer ++ event :: older)) : allowed older event := by
  induction newer with
  | nil => exact h.1
  | cons e newer ih => exact ih h.2

end Foundation
