import Flightdeck.Foundation.Effects

/-!
# Calls and their order

Programs that do nothing but call out, where each call may be answered with an error.  A program is
orderly for an error `stop` if it calls nothing any more once a call was answered with it: the error
is passed on at once.  The rules also bound what is called, and how often.
-/

namespace Foundation

variable {C ε α β : Type}

/-- A call with the error it was answered with, if any. -/
structure Event (C ε : Type) where
  call : C
  error : Option ε

/-- The calls are kept, the latest first. -/
abbrev Calls (C ε α : Type) := EStateM ε (List (Event C ε)) α

def callOut (answer : List (Event C ε) → C → Option ε) (c : C) : Calls C ε Unit := fun t =>
  match answer t c with
  | none => .ok () (⟨c, none⟩ :: t)
  | some e => .error e (⟨c, some e⟩ :: t)

/-- No call was answered with `stop`. -/
def Calm (stop : ε) (new : List (Event C ε)) : Prop := ∀ e ∈ new, e.error ≠ some stop

/-- The last call was the first to be answered with `stop`. -/
def Stopped (stop : ε) (new : List (Event C ε)) : Prop :=
  ∃ c rest, new = ⟨c, some stop⟩ :: rest ∧ Calm stop rest

/-- What may be called, and how often the calls that count. -/
structure Within (P : C → Prop) (counts : C → Bool) (n : Nat) (new : List (Event C ε)) :
    Prop where
  calls : ∀ e ∈ new, P e.call
  few : new.countP (fun e => counts e.call) ≤ n

/-- The new calls of a run that ends with a value. -/
def Orderly (stop : ε) (P : C → Prop) (counts : C → Bool) (n : Nat) (m : Calls C ε α)
    (Q : α → List (Event C ε) → List (Event C ε) → Prop) : Prop :=
  ∀ t, match m t with
    | .ok a t' => ∃ new, t' = new ++ t ∧ Within P counts n new ∧ Calm stop new ∧ Q a new t
    | .error e t' => ∃ new, t' = new ++ t ∧ Within P counts n new ∧
        (e = stop → Stopped stop new) ∧ (e ≠ stop → Calm stop new)

variable {stop : ε} {P P' : C → Prop} {counts : C → Bool} {n k : Nat}

theorem Calm.nil : Calm stop ([] : List (Event C ε)) := by simp [Calm]

theorem Calm.append {new old : List (Event C ε)} (second : Calm stop new)
    (first : Calm stop old) : Calm stop (new ++ old) := by
  intro e there
  rcases List.mem_append.mp there with there | there
  · exact second e there
  · exact first e there

theorem Stopped.append {new old : List (Event C ε)} (second : Stopped stop new)
    (first : Calm stop old) : Stopped stop (new ++ old) := by
  have ⟨c, rest, same, calm⟩ := second
  exact ⟨c, rest ++ old, by rw [same, List.cons_append], calm.append first⟩

theorem Within.nil : Within P counts n ([] : List (Event C ε)) := ⟨by simp, Nat.zero_le _⟩

theorem Within.append {new old : List (Event C ε)} (second : Within P counts k new)
    (first : Within P counts n old) : Within P counts (n + k) (new ++ old) where
  calls e there := by
    rcases List.mem_append.mp there with there | there
    · exact second.calls e there
    · exact first.calls e there
  few := by
    have one := first.few
    have two := second.few
    rw [List.countP_append]
    omega

theorem Within.mono {new : List (Event C ε)} (within : Within P counts n new)
    (weaker : ∀ c, P c → P' c) (more : n ≤ k) : Within P' counts k new :=
  ⟨fun e there => weaker _ (within.calls e there), Nat.le_trans within.few more⟩

namespace Orderly

variable {Q Q' : α → List (Event C ε) → List (Event C ε) → Prop}
  {R : α → β → List (Event C ε) → List (Event C ε) → Prop}
  {E S : β → List (Event C ε) → List (Event C ε) → Prop}
  {m : Calls C ε α} {f : α → Calls C ε β}

theorem pure {a : α} (done : ∀ t, Q a [] t) :
    Orderly stop P counts n (Pure.pure a : Calls C ε α) Q := by
  intro t
  exact ⟨[], rfl, .nil, .nil, done t⟩

theorem throw {e : ε} (other : e ≠ stop) :
    Orderly stop P counts n (MonadExcept.throw e : Calls C ε α) Q := by
  intro t
  exact ⟨[], rfl, .nil, fun same => absurd same other, fun _ => .nil⟩

theorem mono (hm : Orderly stop P counts n m Q) (weaker : ∀ c, P c → P' c) (more : n ≤ k)
    (post : ∀ a new t, Q a new t → Q' a new t) : Orderly stop P' counts k m Q' := by
  intro t
  have run := hm t
  cases result : m t with
  | ok a t' =>
    rw [result] at run
    have ⟨new, same, within, calm, holds⟩ := run
    exact ⟨new, same, within.mono weaker more, calm, post a new t holds⟩
  | error e t' =>
    rw [result] at run
    have ⟨new, same, within, ends⟩ := run
    exact ⟨new, same, within.mono weaker more, ends⟩

/-- The second part, after a first part that ended with a value. -/
theorem after {m : Calls C ε β} {first t : List (Event C ε)} (run : Orderly stop P counts k m E)
    (within : Within P counts n first) (calm : Calm stop first)
    (post : ∀ b second, E b second (first ++ t) → S b (second ++ first) t) :
    match m (first ++ t) with
    | .ok b t' => ∃ new, t' = new ++ t ∧ Within P counts (n + k) new ∧ Calm stop new ∧ S b new t
    | .error e t' => ∃ new, t' = new ++ t ∧ Within P counts (n + k) new ∧
        (e = stop → Stopped stop new) ∧ (e ≠ stop → Calm stop new) := by
  have next := run (first ++ t)
  cases result : m (first ++ t) with
  | ok b t' =>
    rw [result] at next
    have ⟨second, same, within', calm', holds⟩ := next
    exact ⟨second ++ first, by rw [same, List.append_assoc], within'.append within,
      calm'.append calm, post b second holds⟩
  | error e t' =>
    rw [result] at next
    have ⟨second, same, within', stopped, other⟩ := next
    exact ⟨second ++ first, by rw [same, List.append_assoc], within'.append within,
      fun same => (stopped same).append calm, fun different => (other different).append calm⟩

theorem bind (hm : Orderly stop P counts n m Q) (hf : ∀ a, Orderly stop P counts k (f a) (R a))
    (post : ∀ a b first second t, Q a first t → R a b second (first ++ t) →
      S b (second ++ first) t) : Orderly stop P counts (n + k) (m >>= f) S := by
  intro t
  have run := hm t
  change match EStateM.bind m f t with
    | .ok a t' => _
    | .error e t' => _
  unfold EStateM.bind
  cases result : m t with
  | error e t' =>
    rw [result] at run
    have ⟨new, same, within, ends⟩ := run
    exact ⟨new, same, within.mono (fun _ fine => fine) (Nat.le_add_right ..), ends⟩
  | ok a t' =>
    rw [result] at run
    have ⟨first, same, within, calm, holds⟩ := run
    subst same
    exact (hf a).after within calm fun b second => post a b first second t holds

/-- A part whose calls alone are of interest. -/
theorem andThen (hm : Orderly stop P counts n m Q)
    (hf : ∀ a, Orderly stop P counts k (f a) fun _ _ _ => True) :
    Orderly stop P counts (n + k) (m >>= f) fun _ _ _ => True :=
  hm.bind hf fun _ _ _ _ _ _ _ => trivial

/-- An error other than `stop` is handled. -/
theorem attempt {f : Except ε α → Calls C ε β} (hm : Orderly stop P counts n m Q)
    (ok : ∀ a, Orderly stop P counts k (f (.ok a)) (R a))
    (error : ∀ e, e ≠ stop → Orderly stop P counts k (f (.error e)) E)
    (rethrown : f (.error stop) = MonadExcept.throw stop)
    (post : ∀ a b first second t, Q a first t → R a b second (first ++ t) →
      S b (second ++ first) t)
    (post' : ∀ b first second t, E b second (first ++ t) → S b (second ++ first) t) :
    Orderly stop P counts (n + k) (Foundation.attempt m >>= f) S := by
  intro t
  have run := hm t
  change match EStateM.bind (Foundation.attempt m) f t with
    | .ok a t' => _
    | .error e t' => _
  unfold EStateM.bind Foundation.attempt
  cases result : m t with
  | ok a t' =>
    rw [result] at run
    have ⟨first, same, within, calm, holds⟩ := run
    subst same
    exact (ok a).after within calm fun b second => post a b first second t holds
  | error e t' =>
    rw [result] at run
    have ⟨first, same, within, stopped, other⟩ := run
    subst same
    dsimp only
    by_cases ended : e = stop
    · subst ended
      rw [rethrown]
      exact ⟨first, rfl, within.mono (fun _ fine => fine) (Nat.le_add_right ..), stopped,
        fun different => absurd rfl different⟩
    · exact (error e ended).after within (other ended) fun b second => post' b first second t

/-- One call. -/
theorem callOut {answer : List (Event C ε) → C → Option ε} {c : C} (may : P c)
    (counted : counts c = true → 0 < n) :
    Orderly stop P counts n (Foundation.callOut answer c) fun _ new _ => new = [⟨c, none⟩] := by
  intro t
  have within : ∀ error, Within P counts n [(⟨c, error⟩ : Event C ε)] := by
    intro error
    apply Within.mk
    · simpa using may
    · by_cases counts : counts c = true
      · have positive := counted counts
        simp [counts]
        omega
      · simp [counts]
  unfold Foundation.callOut
  cases answer t c with
  | none => exact ⟨[⟨c, none⟩], rfl, within none, by simp [Calm], rfl⟩
  | some e =>
    apply Exists.intro [⟨c, some e⟩]
    apply And.intro rfl
    apply And.intro (within (some e))
    apply And.intro
    · intro same
      rw [same]
      exact ⟨c, [], rfl, .nil⟩
    · intro different
      simpa [Calm] using different

/-- What is done may depend on the calls so far. -/
theorem get {f : List (Event C ε) → Calls C ε β}
    (hf : ∀ t, Orderly stop P counts n (f t) fun b new t' => t' = t → S b new t') :
    Orderly stop P counts n (MonadState.get >>= f) S := by
  intro t
  have run := hf t t
  show match f t t with
    | .ok b t' => _
    | .error e t' => _
  cases result : f t t with
  | ok b t' =>
    rw [result] at run
    have ⟨new, same, within, calm, holds⟩ := run
    exact ⟨new, same, within, calm, holds rfl⟩
  | error e t' =>
    rw [result] at run
    exact run

theorem getThen {f : List (Event C ε) → Calls C ε β}
    (hf : ∀ t, Orderly stop P counts n (f t) fun _ _ _ => True) :
    Orderly stop P counts n (MonadState.get >>= f) fun _ _ _ => True :=
  get fun t => (hf t).mono (fun _ fine => fine) (Nat.le_refl _) fun _ _ _ _ _ => trivial

theorem ite {c : Prop} [Decidable c] {m' : Calls C ε α} (yes : c → Orderly stop P counts n m Q)
    (no : ¬ c → Orderly stop P counts n m' Q) :
    Orderly stop P counts n (if c then m else m') Q := by
  by_cases holds : c
  · rw [if_pos holds]
    exact yes holds
  · rw [if_neg holds]
    exact no holds

end Orderly

end Foundation
