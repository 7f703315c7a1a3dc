import Mathlib.Tactic

/-!
# Computations that may fail

When a chain of fallible steps succeeds, and what holds of the value or of the error it ends with.
-/

namespace Foundation

variable {ε α β : Type}

theorem bind_eq_ok {x : Except ε α} {f : α → Except ε β} {b : β} :
    (x >>= f) = .ok b ↔ ∃ a, x = .ok a ∧ f a = .ok b := by
  cases x with
  | error e =>
    constructor
    · intro h; cases h
    · rintro ⟨_, h, _⟩; cases h
  | ok v =>
    change f v = _ ↔ _
    simp

theorem pure_eq_ok {a b : α} : (pure a : Except ε α) = .ok b ↔ a = b := by
  change Except.ok a = .ok b ↔ _
  simp

theorem map_eq_ok {x : Except ε α} {f : α → β} {b : β} :
    (f <$> x) = .ok b ↔ ∃ a, x = .ok a ∧ f a = b := by
  cases x with
  | error e =>
    change Except.error e = _ ↔ _
    simp
  | ok v =>
    change Except.ok (f v) = _ ↔ _
    simp

theorem exists_eq_ok {x : Except ε α} (h : x.isOk = true) : ∃ a, x = .ok a := by
  cases x with
  | ok a => exact ⟨a, rfl⟩
  | error e => cases h

theorem mapError_eq_ok {ε' : Type} {x : Except ε α} {f : ε → ε'} {a : α} :
    x.mapError f = .ok a ↔ x = .ok a := by
  cases x <;> simp [Except.mapError]

theorem mapError_eq_error {ε' : Type} {x : Except ε α} {f : ε → ε'} {e' : ε'} :
    x.mapError f = .error e' ↔ ∃ e, x = .error e ∧ f e = e' := by
  cases x <;> simp [Except.mapError]

/-- A loop of checks succeeds exactly when every check does. -/
theorem forM_eq_ok {ρ : Type} {check : ρ → Except ε Unit} (rows : List ρ) :
    rows.forM check = .ok () ↔ ∀ row ∈ rows, check row = .ok () := by
  induction rows with
  | nil => simp [Pure.pure, Except.pure]
  | cons row rows ih =>
    change (check row >>= fun _ => rows.forM check) = .ok () ↔ _
    rw [bind_eq_ok, List.forall_mem_cons, ← ih]
    exact ⟨fun ⟨_, hrow, hrows⟩ => ⟨hrow, hrows⟩, fun ⟨hrow, hrows⟩ => ⟨(), hrow, hrows⟩⟩

/-- `Q` of the value, or `E` of the error. -/
def Outcome (x : Except ε α) (Q : α → Prop) (E : ε → Prop) : Prop :=
  match x with
  | .ok a => Q a
  | .error e => E e

namespace Outcome

variable {Q : α → Prop} {R : β → Prop} {E : ε → Prop}

theorem pure {a : α} (h : Q a) : Outcome (Pure.pure a : Except ε α) Q E := h

theorem bind {x : Except ε α} {f : α → Except ε β} (hx : Outcome x Q E)
    (hf : ∀ a, Q a → Outcome (f a) R E) : Outcome (x >>= f) R E := by
  cases x with
  | error e => exact hx
  | ok a => exact hf a hx

/-- An invariant of every turn is an invariant of the loop. -/
theorem foldlM {ρ : Type} {step : β → ρ → Except ε β} {I : β → Prop}
    (hstep : ∀ b row, I b → Outcome (step b row) I E) (rows : List ρ) {b : β} (hb : I b) :
    Outcome (rows.foldlM step b) I E := by
  induction rows generalizing b with
  | nil => exact hb
  | cons row rows ih =>
    rw [List.foldlM_cons]
    exact (hstep b row hb).bind fun b' hb' => ih hb'

end Outcome

/-- Every row is admissible after the rows before it. -/
def Admits {ρ : Type} (ok : β → ρ → Prop) (next : β → ρ → β) : β → List ρ → Prop
  | _, [] => True
  | b, row :: rows => ok b row ∧ Admits ok next (next b row) rows

theorem Admits.map {ρ ρ' : Type} {ok : β → ρ → Prop} {next : β → ρ → β} (f : ρ' → ρ) (b : β)
    (rows : List ρ') :
    Admits (fun b row => ok b (f row)) (fun b row => next b (f row)) b rows ↔
      Admits ok next b (rows.map f) := by
  induction rows generalizing b with
  | nil => rfl
  | cons row rows ih => simp only [Admits, List.map_cons, ih]

/-- A loop succeeds exactly when each turn does. -/
theorem foldlM_eq_ok {ρ : Type} {step : β → ρ → Except ε β} {ok : β → ρ → Prop}
    {next : β → ρ → β} (hstep : ∀ b row b', step b row = .ok b' ↔ ok b row ∧ b' = next b row)
    (rows : List ρ) {b b' : β} :
    rows.foldlM step b = .ok b' ↔ Admits ok next b rows ∧ b' = rows.foldl next b := by
  induction rows generalizing b with
  | nil =>
    change Except.ok b = .ok b' ↔ _
    simp [Admits, eq_comm]
  | cons row rows ih =>
    simp only [List.foldlM_cons, bind_eq_ok, hstep, ih, Admits, List.foldl_cons]
    constructor
    · rintro ⟨_, ⟨hok, rfl⟩, hrest, hb⟩
      exact ⟨⟨hok, hrest⟩, hb⟩
    · rintro ⟨⟨hok, hrest⟩, hb⟩
      exact ⟨_, ⟨hok, rfl⟩, hrest, hb⟩

end Foundation
