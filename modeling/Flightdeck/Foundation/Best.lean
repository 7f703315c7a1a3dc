import Mathlib.Order.Lattice
import Mathlib.Tactic

/-!
# The best of a list

One pass over ranked rows keeps the first row of the highest rank, and whether another row of that
rank differs from it.
-/

namespace Foundation

variable {α ρ : Type} [LinearOrder ρ]

structure Best (α ρ : Type) where
  value : α
  rank : ρ
  ambiguous : Bool

/-- The next row; `same` compares it with the best one so far. -/
def Best.consider (same : α → α → Bool) (best : Option (Best α ρ)) (value : α) (rank : ρ) :
    Option (Best α ρ) :=
  match best with
  | none => some ⟨value, rank, false⟩
  | some b =>
    if b.rank < rank then some ⟨value, rank, false⟩
    else if rank = b.rank ∧ same value b.value = false then some { b with ambiguous := true }
    else some b

def best (same : α → α → Bool) (rows : List (α × ρ)) : Option (Best α ρ) :=
  rows.foldl (fun b row => Best.consider same b row.1 row.2) none

variable {same : α → α → Bool} {rows rows' : List (α × ρ)} {b b' : Best α ρ}

theorem best_concat (rows : List (α × ρ)) (row : α × ρ) :
    best same (rows ++ [row]) = Best.consider same (best same rows) row.1 row.2 := by
  unfold best
  rw [List.foldl_append]
  rfl

theorem consider_isSome (best : Option (Best α ρ)) (value : α) (rank : ρ) :
    (Best.consider same best value rank).isSome := by
  unfold Best.consider
  split
  · rfl
  · split
    · rfl
    · split <;> rfl

theorem best_eq_none : best same rows = none ↔ rows = [] := by
  constructor
  · intro h
    induction rows using List.reverseRecOn with
    | nil => rfl
    | append_singleton rows row _ =>
      have hsome : (Best.consider same (best same rows) row.1 row.2).isSome := consider_isSome ..
      rw [← best_concat, h] at hsome
      cases hsome
  · rintro rfl
    rfl

/-- The best row is the first of its rank, none ranks higher, and it is ambiguous when a later row of
its rank differs. -/
structure Best.IsBest (same : α → α → Bool) (rows : List (α × ρ)) (b : Best α ρ) : Prop where
  split : ∃ before after, rows = before ++ (b.value, b.rank) :: after ∧
    (∀ row ∈ before, row.2 < b.rank) ∧ (∀ row ∈ after, row.2 ≤ b.rank) ∧
    (b.ambiguous = true ↔ ∃ row ∈ after, row.2 = b.rank ∧ same row.1 b.value = false)

theorem best_isBest (h : best same rows = some b) : b.IsBest same rows := by
  induction rows using List.reverseRecOn generalizing b with
  | nil => cases h
  | append_singleton rows row ih =>
    rw [best_concat] at h
    cases hold : best same rows with
    | none =>
      rw [hold] at h
      cases h
      rw [best_eq_none] at hold
      subst hold
      exact ⟨[], [], rfl, by simp, by simp, by simp⟩
    | some old =>
      obtain ⟨before, after, rfl, hbefore, hafter, hambiguous⟩ := (ih hold).split
      rw [hold] at h
      unfold Best.consider at h
      dsimp only at h
      split at h
      · -- the new row ranks higher
        rename_i hhigher
        cases h
        refine ⟨_, [], rfl, ?_, by simp, by simp⟩
        intro r hr
        rcases List.mem_append.mp hr with hr | hr
        · exact (hbefore r hr).trans hhigher
        · rcases List.mem_cons.mp hr with rfl | hr
          · exact hhigher
          · exact (hafter r hr).trans_lt hhigher
      · rename_i hnot
        have hrank : ∀ r ∈ after ++ [row], r.2 ≤ old.rank := by
          intro r hr
          rcases List.mem_append.mp hr with hr | hr
          · exact hafter r hr
          · rw [List.mem_singleton.mp hr]
            exact not_lt.mp hnot
        split at h
        · rename_i hdiffers
          cases h
          refine ⟨before, after ++ [row], by simp, hbefore, hrank, ?_⟩
          constructor
          · intro _
            exact ⟨row, List.mem_append_right _ List.mem_cons_self, hdiffers⟩
          · exact fun _ => rfl
        · rename_i hsame
          cases h
          refine ⟨before, after ++ [row], by simp, hbefore, hrank, hambiguous.trans ?_⟩
          constructor
          · rintro ⟨r, hr, hdiffers⟩
            exact ⟨r, List.mem_append_left _ hr, hdiffers⟩
          · rintro ⟨r, hr, hdiffers⟩
            rcases List.mem_append.mp hr with hr | hr
            · exact ⟨r, hr, hdiffers⟩
            · rw [List.mem_singleton.mp hr] at hdiffers
              exact absurd hdiffers hsame

theorem Best.IsBest.mem (h : b.IsBest same rows) : (b.value, b.rank) ∈ rows := by
  obtain ⟨before, after, rfl, _⟩ := h.split
  exact List.mem_append_right _ List.mem_cons_self

theorem Best.IsBest.le (h : b.IsBest same rows) : ∀ row ∈ rows, row.2 ≤ b.rank := by
  obtain ⟨before, after, rfl, hbefore, hafter, _⟩ := h.split
  intro row hrow
  rcases List.mem_append.mp hrow with hrow | hrow
  · exact (hbefore row hrow).le
  · rcases List.mem_cons.mp hrow with rfl | hrow
    · exact le_rfl
    · exact hafter row hrow

/-- Where rows that are the same are equal, ambiguity does not depend on which row came first. -/
theorem Best.IsBest.ambiguous_iff (h : b.IsBest same rows)
    (hsame : ∀ r ∈ rows, ∀ r' ∈ rows, same r.1 r'.1 = true ↔ r.1 = r'.1) :
    b.ambiguous = true ↔
      ∃ r ∈ rows, ∃ r' ∈ rows, r.2 = b.rank ∧ r'.2 = b.rank ∧ r.1 ≠ r'.1 := by
  have hmem := h.mem
  obtain ⟨before, after, heq, hbefore, hafter, hambiguous⟩ := h.split
  rw [hambiguous]
  have hin : ∀ r ∈ after, r ∈ rows := by
    intro r hr
    rw [heq]
    exact List.mem_append_right _ (List.mem_cons_of_mem _ hr)
  constructor
  · rintro ⟨r, hr, hrank, hdiffers⟩
    refine ⟨r, hin r hr, _, hmem, hrank, rfl, fun hvalue => ?_⟩
    rw [(hsame r (hin r hr) _ hmem).mpr hvalue] at hdiffers
    cases hdiffers
  · rintro ⟨r, hr, r', hr', hrank, hrank', hne⟩
    -- one of the two rows is not the best one, so it comes later
    have hlater : ∀ r ∈ rows, r.2 = b.rank → r.1 ≠ b.value → ∃ r ∈ after, r.2 = b.rank ∧
        same r.1 b.value = false := by
      intro r hr hrank hvalue
      have hr' := hr
      rw [heq] at hr'
      rcases List.mem_append.mp hr' with hr' | hr'
      · exact absurd hrank (hbefore r hr').ne
      · rcases List.mem_cons.mp hr' with rfl | hr'
        · exact absurd rfl hvalue
        · refine ⟨r, hr', hrank, ?_⟩
          rw [← Bool.not_eq_true, hsame r hr _ hmem]
          exact hvalue
    by_cases hvalue : r.1 = b.value
    · exact hlater r' hr' hrank' fun h' => hne (hvalue.trans h'.symm)
    · exact hlater r hr hrank hvalue

/-- The order of the rows matters neither for the rank nor for ambiguity nor, without it, for the
value. -/
theorem best_perm (hperm : rows.Perm rows')
    (hsame : ∀ r ∈ rows, ∀ r' ∈ rows, same r.1 r'.1 = true ↔ r.1 = r'.1)
    (h : best same rows = some b) (h' : best same rows' = some b') :
    b.rank = b'.rank ∧ b.ambiguous = b'.ambiguous ∧ (b.ambiguous = false → b.value = b'.value) := by
  have hbest := best_isBest h
  have hbest' := best_isBest h'
  have hin : ∀ r, r ∈ rows ↔ r ∈ rows' := fun r => hperm.mem_iff
  have hrank : b.rank = b'.rank := by
    apply le_antisymm
    · exact hbest'.le _ ((hin _).mp hbest.mem)
    · exact hbest.le _ ((hin _).mpr hbest'.mem)
  have hsame' : ∀ r ∈ rows', ∀ r' ∈ rows', same r.1 r'.1 = true ↔ r.1 = r'.1 :=
    fun r hr r' hr' => hsame r ((hin r).mpr hr) r' ((hin r').mpr hr')
  have hambiguous : b.ambiguous = true ↔ b'.ambiguous = true := by
    rw [hbest.ambiguous_iff hsame, hbest'.ambiguous_iff hsame']
    simp only [hin, hrank]
  refine ⟨hrank, Bool.eq_iff_iff.mpr hambiguous, fun hunique => ?_⟩
  by_contra hne
  have htrue := (hbest.ambiguous_iff hsame).mpr
    ⟨_, hbest.mem, _, (hin _).mpr hbest'.mem, rfl, hrank.symm, hne⟩
  rw [hunique] at htrue
  cases htrue

end Foundation
