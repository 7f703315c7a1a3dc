import Flightdeck.Foundation.Outcome

/-!
# Cursors over a token string

A cursor is a position inside a fixed token string.  A reader is a partial function on cursors;
`Accepts p R` says exactly which prefixes of the remaining input `p` consumes and what it returns
for them.  Readers compose, so the language of a whole decoder follows from its fields.
-/

namespace Foundation

/-- A position that never leaves the string it walks over. -/
@[ext] structure Cursor (τ : Type) where
  data : List τ
  position : Nat
  inside : position ≤ data.length

namespace Cursor

variable {τ α β ρ ε : Type}

/-- The cursor at a position of a string, or at its end if the string is shorter. -/
def startAt (data : List τ) (position : Nat) : Cursor τ :=
  ⟨data, min position data.length, Nat.min_le_right _ _⟩

def rest (c : Cursor τ) : List τ := c.data.drop c.position

theorem startAt_rest (data : List τ) (position : Nat) :
    (startAt data position).rest = data.drop position := by
  change data.drop (min position data.length) = data.drop position
  rcases Nat.le_total position data.length with h | h
  · rw [Nat.min_eq_left h]
  · rw [Nat.min_eq_right h, List.drop_length, List.drop_eq_nil_of_le h]

/-- `c'` is `c` after exactly the tokens `bs`. -/
def Reads (c : Cursor τ) (bs : List τ) (c' : Cursor τ) : Prop :=
  c'.data = c.data ∧ c.rest = bs ++ c'.rest

theorem rest_length (c : Cursor τ) : c.rest.length = c.data.length - c.position := by
  simp [rest]

theorem Reads.position {c c' : Cursor τ} {bs : List τ} (h : c.Reads bs c') :
    c'.position = c.position + bs.length := by
  have hlen := congrArg List.length h.2
  rw [List.length_append, rest_length, rest_length, h.1] at hlen
  have hc := c.inside
  have hc' := c'.inside
  rw [h.1] at hc'
  omega

theorem Reads.unique {c c₁ c₂ : Cursor τ} {bs : List τ} (h₁ : c.Reads bs c₁)
    (h₂ : c.Reads bs c₂) : c₁ = c₂ := by
  ext1
  · rw [h₁.1, h₂.1]
  · rw [h₁.position, h₂.position]

theorem Reads.refl (c : Cursor τ) : c.Reads [] c := ⟨rfl, rfl⟩

theorem Reads.eq_of_nil {c c' : Cursor τ} (h : c.Reads [] c') : c' = c :=
  h.unique (Reads.refl c)

theorem Reads.trans {c c₁ c₂ : Cursor τ} {xs ys : List τ} (h₁ : c.Reads xs c₁)
    (h₂ : c₁.Reads ys c₂) : c.Reads (xs ++ ys) c₂ :=
  ⟨h₂.1.trans h₁.1, by rw [h₁.2, h₂.2, List.append_assoc]⟩

/-- A prefix of the remaining input can always be read. -/
theorem exists_reads {c : Cursor τ} {xs ys : List τ} (h : c.rest = xs ++ ys) :
    ∃ c', c.Reads xs c' ∧ c'.rest = ys := by
  have hlen := congrArg List.length h
  rw [List.length_append, rest_length] at hlen
  have hrest : c.data.drop (c.position + xs.length) = ys := by
    rw [← List.drop_drop]
    change c.rest.drop xs.length = ys
    rw [h, List.drop_left]
  have hc := c.inside
  refine ⟨⟨c.data, c.position + xs.length, by omega⟩, ⟨rfl, ?_⟩, hrest⟩
  rw [h]
  exact congrArg (xs ++ ·) hrest.symm

theorem Reads.split {c c₂ : Cursor τ} {xs ys : List τ} (h : c.Reads (xs ++ ys) c₂) :
    ∃ c₁, c.Reads xs c₁ ∧ c₁.Reads ys c₂ := by
  have hxs : c.rest = xs ++ (ys ++ c₂.rest) := by rw [h.2, List.append_assoc]
  obtain ⟨c₁, h₁, hrest⟩ := exists_reads hxs
  exact ⟨c₁, h₁, h.1.trans h₁.1.symm, hrest⟩

end Cursor

/-- A reader over tokens `τ` that fails with `ε`. -/
abbrev Reading (τ ε : Type) := StateT (Cursor τ) (Except ε)

/-- `p` succeeds exactly on the inputs that start with some `bs` such that `R a bs`, consumes
that `bs` and returns `a`. -/
def Accepts {τ ε α : Type} (p : Reading τ ε α) (R : α → List τ → Prop) : Prop :=
  ∀ c a c', p c = .ok (a, c') ↔ ∃ bs, R a bs ∧ c.Reads bs c'

namespace Accepts

variable {τ α β ρ ε : Type}

theorem congr {p : Reading τ ε α} {R S : α → List τ → Prop} (h : Accepts p R)
    (hRS : ∀ a bs, R a bs ↔ S a bs) : Accepts p S := by
  intro c a c'
  simp only [h c a c', hRS]

theorem pure (a : α) : Accepts (Pure.pure a : Reading τ ε α) (fun a' bs => a' = a ∧ bs = []) := by
  intro c a' c'
  constructor
  · intro h
    cases h
    exact ⟨[], ⟨rfl, rfl⟩, Cursor.Reads.refl c⟩
  · rintro ⟨bs, ⟨rfl, rfl⟩, h⟩
    rw [h.eq_of_nil]
    rfl

/-- First one reader, then the other on what is left. -/
theorem bind {p : Reading τ ε α} {f : α → Reading τ ε β} {R : α → List τ → Prop}
    {S : α → β → List τ → Prop} (hp : Accepts p R) (hf : ∀ a, Accepts (f a) (S a)) :
    Accepts (p >>= f) (fun b bs => ∃ a xs ys, R a xs ∧ bs = xs ++ ys ∧ S a b ys) := by
  intro c b c'
  have hrun : (p >>= f) c = (p c).bind fun x => f x.1 x.2 := rfl
  rw [hrun]
  constructor
  · intro h
    cases hpc : p c with
    | error e => rw [hpc] at h; cases h
    | ok x =>
      rw [hpc] at h
      obtain ⟨xs, hR, h₁⟩ := (hp c x.1 x.2).mp hpc
      obtain ⟨ys, hS, h₂⟩ := (hf x.1 x.2 b c').mp h
      exact ⟨xs ++ ys, ⟨x.1, xs, ys, hR, rfl, hS⟩, h₁.trans h₂⟩
  · rintro ⟨_, ⟨a, xs, ys, hR, rfl, hS⟩, h⟩
    obtain ⟨c₁, h₁, h₂⟩ := h.split
    rw [(hp c a c₁).mpr ⟨xs, hR, h₁⟩]
    exact (hf a c₁ b c').mpr ⟨ys, hS, h₂⟩

/-- A check, or a computation that may fail, moves nothing. -/
theorem lift {x : Except ε α} {f : α → Reading τ ε β} {S : α → β → List τ → Prop}
    (hf : ∀ a, Accepts (f a) (S a)) :
    Accepts ((liftM x : Reading τ ε α) >>= f) (fun b bs => ∃ a, x = .ok a ∧ S a b bs) := by
  intro c b c'
  cases x with
  | error e =>
    constructor
    · intro h; cases h
    · rintro ⟨_, ⟨_, h, _⟩, _⟩; cases h
  | ok v =>
    change f v c = _ ↔ _
    rw [hf v c b c']
    simp

end Accepts

/-- Whatever the cursor, `Q` holds of the value read, or `E` of the error. -/
def Ensures {τ ε α : Type} (p : Reading τ ε α) (Q : α → Prop) (E : ε → Prop) : Prop :=
  ∀ c, Outcome (p c) (fun x => Q x.1) E

namespace Ensures

variable {τ α β ε : Type} {Q : α → Prop} {R : β → Prop} {E : ε → Prop}

theorem pure {a : α} (h : Q a) : Ensures (Pure.pure a : Reading τ ε α) Q E := fun _ => h

theorem bind {p : Reading τ ε α} {f : α → Reading τ ε β} (hp : Ensures p Q E)
    (hf : ∀ a, Q a → Ensures (f a) R E) : Ensures (p >>= f) R E :=
  fun c => (hp c).bind fun x hx => hf x.1 hx x.2

theorem lift {x : Except ε α} {f : α → Reading τ ε β} (hx : Outcome x Q E)
    (hf : ∀ a, Q a → Ensures (f a) R E) : Ensures ((liftM x : Reading τ ε α) >>= f) R E := by
  intro c
  cases x with
  | error e => exact hx
  | ok a => exact hf a hx c

end Ensures

/-! ## Counted loops -/

/-- `for _ in 0..count` with an accumulator. -/
def forCount {m : Type → Type} [Monad m] {β : Type} (step : β → m β) : Nat → β → m β
  | 0, b => pure b
  | n + 1, b => do forCount step n (← step b)

/-- A counted loop whose body reads one row reads that many rows, one after the other. -/
theorem Accepts.forCount {τ ε β ρ : Type} {step : β → Reading τ ε β} {ok : β → ρ → Prop}
    {next : β → ρ → β} {layout : ρ → List τ}
    (hstep : ∀ b, Accepts (step b)
      (fun b' bs => ∃ row, ok b row ∧ b' = next b row ∧ bs = layout row)) (n : Nat) (b : β) :
    Accepts (forCount step n b) (fun b' bs => ∃ rows : List ρ, rows.length = n ∧
      Admits ok next b rows ∧ b' = rows.foldl next b ∧ bs = rows.flatMap layout) := by
  induction n generalizing b with
  | zero =>
    refine (Accepts.pure b).congr fun b' bs => ?_
    constructor
    · rintro ⟨rfl, rfl⟩
      exact ⟨[], rfl, trivial, rfl, rfl⟩
    · rintro ⟨rows, hn, -, hb, hbs⟩
      cases List.eq_nil_of_length_eq_zero hn
      exact ⟨hb, hbs⟩
  | succ n ih =>
    refine ((hstep b).bind fun b₁ => ih b₁).congr fun b' bs => ?_
    constructor
    · rintro ⟨_, _, _, ⟨row, hok, rfl, rfl⟩, rfl, ⟨rows, hn, hrows, hb, rfl⟩⟩
      exact ⟨row :: rows, by simp [hn], ⟨hok, hrows⟩, hb, rfl⟩
    · rintro ⟨rows, hn, hrows, hb, rfl⟩
      cases rows with
      | nil => cases hn
      | cons row rows =>
        exact ⟨_, _, _, ⟨row, hrows.1, rfl, rfl⟩, rfl,
          ⟨rows, Nat.succ.inj hn, hrows.2, hb, rfl⟩⟩

/-- An invariant of every turn is an invariant of the loop. -/
theorem Ensures.forCount {τ ε β : Type} {step : β → Reading τ ε β} {I : β → Prop} {E : ε → Prop}
    (hstep : ∀ b, I b → Ensures (step b) I E) (n : Nat) {b : β} (hb : I b) :
    Ensures (Foundation.forCount step n b) I E := by
  induction n generalizing b with
  | zero => exact Ensures.pure hb
  | succ n ih => exact (hstep b hb).bind fun b' hb' => ih hb'

end Foundation
