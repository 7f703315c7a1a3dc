import Mathlib.Data.List.Sort
import Mathlib.Tactic

/-!
# The row above all others

Not every row of a list has a rank.  The highest row is the one that all others with a rank lie
strictly below, wherever it stands: searching the maximum and sorting both find it.
-/

namespace Foundation

variable {α ρ : Type} [LinearOrder ρ] {rank : α → Option ρ} {rows rows' : List α} {row row' : α}
  {top top' : ρ}

/-- `row` has the rank `top`, and every other row with a rank lies below it. -/
def Highest (rank : α → Option ρ) (rows : List α) (row : α) (top : ρ) : Prop :=
  rank row = some top ∧
    ∃ others, rows.Perm (row :: others) ∧ ∀ other ∈ others, ∀ r, rank other = some r → r < top

namespace Highest

theorem mem (h : Highest rank rows row top) : row ∈ rows := by
  obtain ⟨_, others, hperm, _⟩ := h
  exact hperm.mem_iff.mpr List.mem_cons_self

/-- The order of the rows does not matter. -/
theorem perm (h : Highest rank rows row top) (hperm : rows.Perm rows') :
    Highest rank rows' row top := by
  obtain ⟨hrank, others, hrows, hbelow⟩ := h
  exact ⟨hrank, others, hperm.symm.trans hrows, hbelow⟩

/-- Only the ranks of the rows matter. -/
theorem congr {rank' : α → Option ρ} (hsame : ∀ other ∈ rows, rank other = rank' other) :
    Highest rank rows row top ↔ Highest rank' rows row top := by
  have transfer : ∀ {f g : α → Option ρ}, (∀ other ∈ rows, f other = g other) →
      Highest f rows row top → Highest g rows row top := by
    rintro f g hfg ⟨hrow, others, hperm, hbelow⟩
    have hmem : row ∈ rows := hperm.mem_iff.mpr List.mem_cons_self
    refine ⟨(hfg row hmem).symm.trans hrow, others, hperm, fun other hother r hr => ?_⟩
    have hin : other ∈ rows := hperm.mem_iff.mpr (List.mem_cons_of_mem _ hother)
    exact hbelow other hother r ((hfg other hin).trans hr)
  exact ⟨transfer hsame, transfer fun other hother => (hsame other hother).symm⟩

theorem below {others : List α} (h : Highest rank rows row top) (hperm : rows.Perm (row :: others))
    (hmem : row' ∈ others) (hrank : rank row' = some top') : top' < top := by
  obtain ⟨_, rest, hrest, hbelow⟩ := h
  have hothers : others.Perm rest := (hperm.symm.trans hrest).cons_inv
  exact hbelow row' (hothers.mem_iff.mp hmem) top' hrank

theorem eq_or_lt (h : Highest rank rows row top) (hmem : row' ∈ rows)
    (hrank : rank row' = some top') : row' = row ∨ top' < top := by
  obtain ⟨_, others, hperm, hbelow⟩ := h
  rcases List.mem_cons.mp (hperm.mem_iff.mp hmem) with rfl | hother
  · exact .inl rfl
  · exact .inr (hbelow row' hother top' hrank)

theorem le (h : Highest rank rows row top) (hmem : row' ∈ rows) (hrank : rank row' = some top') :
    top' ≤ top := by
  rcases h.eq_or_lt hmem hrank with rfl | hlt
  · rw [h.1] at hrank
    cases hrank
    exact le_rfl
  · exact hlt.le

end Highest

/-! ## Rows that all have a rank -/

section Ranked

variable {key : α → ρ}

/-- A rank that no row exceeds belongs to one row only: that is the highest one. -/
theorem filter_eq_singleton_iff [DecidableEq ρ] (hbound : ∀ other ∈ rows, key other ≤ top) :
    rows.filter (fun other => key other = top) = [row] ↔ Highest (some ∘ key) rows row top := by
  constructor
  · intro h
    have hrow : row ∈ rows.filter (fun other => key other = top) := by
      rw [h]
      exact List.mem_singleton_self row
    have hkey : key row = top := by simpa using (List.mem_filter.mp hrow).2
    have hperm := (List.filter_append_perm (fun other => decide (key other = top)) rows).symm
    rw [h] at hperm
    refine ⟨congrArg some hkey, _, hperm, ?_⟩
    intro other hother r hr
    obtain ⟨hmem, hne⟩ := List.mem_filter.mp hother
    cases hr
    exact lt_of_le_of_ne (hbound other hmem) (by simpa using hne)
  · rintro ⟨hrow, others, hperm, hbelow⟩
    have hkey : key row = top := Option.some.inj hrow
    have hothers : others.filter (fun other => decide (key other = top)) = [] := by
      rw [List.filter_eq_nil_iff]
      intro other hother heq
      exact absurd (hbelow other hother _ rfl) (by simpa using (of_decide_eq_true heq).ge)
    have hfiltered := hperm.filter (fun other => decide (key other = top))
    rw [List.filter_cons_of_pos (by simpa using hkey), hothers] at hfiltered
    exact List.perm_singleton.mp hfiltered

/-- The maximum is searched first, then the rows that have it. -/
theorem filter_max_iff [DecidableEq ρ] (htop : (rows.map key).max? = some top) :
    rows.filter (fun other => key other = top) = [row] ↔ Highest (some ∘ key) rows row top := by
  refine filter_eq_singleton_iff fun other hother => ?_
  exact (List.max?_eq_some_iff.mp htop).2 _ (List.mem_map_of_mem hother)

theorem Highest.max (h : Highest (some ∘ key) rows row top) : (rows.map key).max? = some top := by
  rw [List.max?_eq_some_iff]
  constructor
  · rw [← Option.some.inj h.1]
    exact List.mem_map_of_mem h.mem
  · intro r hr
    obtain ⟨other, hother, rfl⟩ := List.mem_map.mp hr
    exact h.le hother rfl

def sortedBy (key : α → ρ) (rows : List α) : List α :=
  rows.mergeSort fun a b => decide (key a ≤ key b)

theorem sortedBy_perm (key : α → ρ) (rows : List α) : (sortedBy key rows).Perm rows :=
  List.mergeSort_perm ..

theorem getLast?_sortedBy_eq_none : (sortedBy key rows).getLast? = none ↔ rows = [] := by
  rw [List.getLast?_eq_none_iff]
  constructor
  · intro hnil
    have hperm := sortedBy_perm key rows
    rw [hnil] at hperm
    exact hperm.nil_eq.symm
  · rintro rfl
    exact List.mergeSort_nil

/-- Nothing lies above the last row. -/
theorem le_last (hlast : (sortedBy key rows).getLast? = some row) (hmem : row' ∈ rows) :
    key row' ≤ key row := by
  have hsorted : (sortedBy key rows).Pairwise fun a b => decide (key a ≤ key b) = true := by
    refine List.pairwise_mergeSort (fun a b c hab hbc => ?_) (fun a b => ?_) rows
    · rw [decide_eq_true_eq] at hab hbc ⊢
      exact hab.trans hbc
    · rw [Bool.or_eq_true, decide_eq_true_eq, decide_eq_true_eq]
      exact le_total _ _
  obtain ⟨before, hbefore⟩ := List.getLast?_eq_some_iff.mp hlast
  have hrow' : row' ∈ before ++ [row] := by
    rw [← hbefore]
    exact (sortedBy_perm key rows).mem_iff.mpr hmem
  rw [hbefore, List.pairwise_append] at hsorted
  rcases List.mem_append.mp hrow' with hin | hin
  · exact of_decide_eq_true (hsorted.2.2 row' hin row (List.mem_singleton_self row))
  · rw [List.mem_singleton.mp hin]

/-- The last of the sorted rows, alone with its rank, is the highest one. -/
theorem last_highest_iff [DecidableEq ρ] :
    ((sortedBy key rows).getLast? = some row ∧
      rows.countP (fun other => key other = key row) = 1) ↔
        Highest (some ∘ key) rows row (key row) := by
  constructor
  · rintro ⟨hlast, hone⟩
    have hmem : row ∈ rows :=
      (sortedBy_perm key rows).mem_iff.mp (List.mem_of_getLast? hlast)
    rw [List.countP_eq_length_filter, List.length_eq_one_iff] at hone
    obtain ⟨only, honly⟩ := hone
    have hrow : row ∈ rows.filter (fun other => key other = key row) :=
      List.mem_filter.mpr ⟨hmem, by simp⟩
    rw [honly, List.mem_singleton] at hrow
    subst hrow
    exact (filter_eq_singleton_iff fun other hother => le_last hlast hother).mp honly
  · intro h
    have hone := (filter_eq_singleton_iff fun other hother => h.le hother rfl).mpr h
    refine ⟨?_, by rw [List.countP_eq_length_filter, hone]; rfl⟩
    cases hlast : (sortedBy key rows).getLast? with
    | none =>
      have hmem := h.mem
      rw [getLast?_sortedBy_eq_none.mp hlast] at hmem
      cases hmem
    | some last =>
      have hmem : last ∈ rows :=
        (sortedBy_perm key rows).mem_iff.mp (List.mem_of_getLast? hlast)
      rcases h.eq_or_lt hmem rfl with rfl | hlt
      · rfl
      · exact absurd hlt (not_lt.mpr (le_last hlast h.mem))

end Ranked

/-! ## Leaving out the rows without a rank -/

/-- A list of ranked values, made from the rows one by one, has a highest value exactly when the
row it is made from is the highest. -/
theorem highest_filterMap {β : Type} {key : β → ρ} (make : α → Option β) (rows : List α)
    (value : β) :
    Highest (some ∘ key) (rows.filterMap make) value top ↔
      ∃ row, make row = some value ∧ Highest (fun r => (make r).map key) rows row top := by
  constructor
  · rintro ⟨hkey, others, hperm, hbelow⟩
    obtain ⟨row, hrow, hmake⟩ :=
      List.mem_filterMap.mp (hperm.mem_iff.mpr List.mem_cons_self)
    obtain ⟨before, after, rfl⟩ := List.append_of_mem hrow
    have hrows : (before ++ row :: after).Perm (row :: (before ++ after)) := List.perm_middle
    have hothers : others.Perm ((before ++ after).filterMap make) := by
      refine List.Perm.cons_inv (a := value) (hperm.symm.trans ?_)
      refine (hrows.filterMap make).trans ?_
      rw [List.filterMap_cons_some hmake]
    have hrank : (make row).map key = some top := by
      rw [hmake]
      exact hkey
    refine ⟨row, hmake, hrank, _, hrows, ?_⟩
    intro other hother r hr
    obtain ⟨made, hmade, rfl⟩ := Option.map_eq_some_iff.mp hr
    exact hbelow made (hothers.mem_iff.mpr (List.mem_filterMap.mpr ⟨other, hother, hmade⟩)) _ rfl
  · rintro ⟨row, hmake, hrank, others, hperm, hbelow⟩
    have hkey : (some value).map key = some top := by
      rw [← hmake]
      exact hrank
    refine ⟨hkey, others.filterMap make, ?_, ?_⟩
    · refine (hperm.filterMap make).trans ?_
      rw [List.filterMap_cons_some hmake]
    · intro made hmade r hr
      obtain ⟨other, hother, hfrom⟩ := List.mem_filterMap.mp hmade
      refine hbelow other hother r ?_
      show (make other).map key = some r
      rw [hfrom]
      exact hr

end Foundation
