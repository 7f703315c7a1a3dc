import Mathlib.Data.Nat.Bitwise
import Mathlib.Tactic

/-!
# Numbers put together from bits

A sum of bits at different places has just these bits, and a list that is written at different
places holds just what was written.
-/

namespace Foundation

/-- One bit, moved. -/
theorem bit_shift (i p b : Nat) : ((i >>> p) &&& 1) <<< b = (i.testBit p).toNat * 2 ^ b := by
  rw [Nat.and_one_is_mod, Nat.shiftLeft_eq, Nat.testBit_eq_decide_div_mod_eq,
    Nat.shiftRight_eq_div_pow]
  rcases Nat.mod_two_eq_zero_or_one (i / 2 ^ p) with h | h <;> simp [h]

/-- A power of two whose bit is free sets that bit alone. -/
theorem testBit_two_pow_add_of_free {rest p : Nat} (h : rest.testBit p = false) (q : Nat) :
    (2 ^ p + rest).testBit q = (decide (p = q) || rest.testBit q) := by
  rcases Nat.lt_trichotomy q p with hlt | rfl | hgt
  · rw [Nat.testBit_two_pow_add_gt hlt]
    simp [Nat.ne_of_gt hlt]
  · rw [Nat.testBit_two_pow_add_eq, h]
    simp
  · -- no carry leaves place `p`
    have hhalf : rest / 2 ^ p % 2 = 0 := by
      rw [Nat.testBit_eq_decide_div_mod_eq, decide_eq_false_iff_not] at h
      omega
    obtain ⟨d, rfl⟩ := Nat.exists_eq_add_of_lt hgt
    have hquot : (2 ^ p + rest) / 2 ^ p = rest / 2 ^ p + 1 := by
      rw [Nat.add_comm, Nat.add_div_right _ (Nat.two_pow_pos p)]
    have hplace (n : Nat) : n.testBit (p + d + 1) = (n / 2 ^ p / 2).testBit d := by
      rw [← Nat.testBit_succ, Nat.testBit_div_two_pow, Nat.add_assoc]
      congr 1
      omega
    rw [hplace, hplace, hquot]
    have hne : p ≠ p + d + 1 := by omega
    have hsame : (rest / 2 ^ p + 1) / 2 = rest / 2 ^ p / 2 := by omega
    simp [hne, hsame]

/-- The bits of a sum of bits at different places. -/
theorem testBit_sum (terms : List (Bool × Nat)) (hplaces : (terms.map Prod.snd).Nodup) (q : Nat) :
    (terms.map fun t : Bool × Nat => t.1.toNat * 2 ^ t.2).sum.testBit q =
      terms.any fun t => t.1 && t.2 == q := by
  induction terms generalizing q with
  | nil => simp
  | cons t terms ih =>
    obtain ⟨bit, p⟩ := t
    rw [List.map_cons, List.nodup_cons] at hplaces
    rw [List.map_cons, List.sum_cons, List.any_cons]
    cases bit with
    | false => simpa using ih hplaces.2 q
    | true =>
      have hfree : (terms.map fun t : Bool × Nat => t.1.toNat * 2 ^ t.2).sum.testBit p = false := by
        rw [ih hplaces.2, List.any_eq_false]
        intro t ht hp
        simp only [Bool.and_eq_true, beq_iff_eq] at hp
        exact hplaces.1 (List.mem_map.mpr ⟨t, ht, hp.2⟩)
      show (1 * 2 ^ p + _).testBit q = _
      rw [Nat.one_mul, testBit_two_pow_add_of_free hfree, ih hplaces.2]
      rfl

/-- Blocks of one length, one after the other. -/
theorem flatMap_range {α : Type} (f : Nat → α) (m k : Nat) :
    (List.range m).flatMap (fun r => (List.range k).map fun c => f (r * k + c)) =
      (List.range (m * k)).map f := by
  induction m with
  | zero => simp
  | succ m ih =>
    rw [List.range_succ, List.flatMap_append, ih, Nat.succ_mul, List.range_add, List.map_append]
    simp

/-- The values are written one after the other; `none` if a place lies outside. -/
def writeEach {α β : Type} (place : Nat → Nat) (value : β → α) (items : List (β × Nat))
    (values : List α) : Option (List α) :=
  items.foldlM (fun values item =>
    if place item.2 < values.length then some (values.set (place item.2) (value item.1))
    else none) values

section

variable {α β : Type} {place : Nat → Nat} {value : β → α}

/-- What is written stays when the later places differ. -/
theorem writeEach_other {items : List (β × Nat)} {values : List α} {q : Nat}
    (hplaces : ∀ item ∈ items, place item.2 < values.length)
    (hq : ∀ item ∈ items, place item.2 ≠ q) :
    ∃ result, writeEach place value items values = some result ∧ result.length = values.length ∧
      result[q]? = values[q]? := by
  induction items generalizing values with
  | nil => exact ⟨values, rfl, rfl, rfl⟩
  | cons item items ih =>
    have hfirst := hplaces item List.mem_cons_self
    have hother := hq item List.mem_cons_self
    have hrest : ∀ i ∈ items, place i.2 < (values.set (place item.2) (value item.1)).length := by
      intro i hi
      rw [List.length_set]
      exact hplaces i (List.mem_cons_of_mem _ hi)
    obtain ⟨result, hresult, hlength, hvalue⟩ :=
      ih hrest fun i hi => hq i (List.mem_cons_of_mem _ hi)
    refine ⟨result, ?_, by rw [hlength, List.length_set], ?_⟩
    · unfold writeEach at hresult ⊢
      rw [List.foldlM_cons, if_pos hfirst]
      exact hresult
    · rw [hvalue, List.getElem?_set_ne hother]

/-- At different places each value is found where it was written. -/
theorem writeEach_at {items : List (β × Nat)} {values : List α}
    (hplaces : ∀ item ∈ items, place item.2 < values.length)
    (hdistinct : (items.map fun item => place item.2).Nodup) :
    ∃ result, writeEach place value items values = some result ∧ result.length = values.length ∧
      ∀ item ∈ items, result[place item.2]? = some (value item.1) := by
  induction items generalizing values with
  | nil => exact ⟨values, rfl, rfl, nofun⟩
  | cons item items ih =>
    rw [List.map_cons, List.nodup_cons] at hdistinct
    have hfirst := hplaces item List.mem_cons_self
    have hrest : ∀ i ∈ items, place i.2 < (values.set (place item.2) (value item.1)).length := by
      intro i hi
      rw [List.length_set]
      exact hplaces i (List.mem_cons_of_mem _ hi)
    have hother : ∀ i ∈ items, place i.2 ≠ place item.2 := by
      intro i hi heq
      exact hdistinct.1 (List.mem_map.mpr ⟨i, hi, heq⟩)
    obtain ⟨result, hresult, hlength, hvalues⟩ := ih hrest hdistinct.2
    obtain ⟨again, hagain, -, hkept⟩ := writeEach_other hrest hother
    rw [hresult] at hagain
    cases hagain
    refine ⟨result, ?_, by rw [hlength, List.length_set], ?_⟩
    · unfold writeEach at hresult ⊢
      rw [List.foldlM_cons, if_pos hfirst]
      exact hresult
    · intro i hi
      rcases List.mem_cons.mp hi with rfl | hi
      · rw [hkept, List.getElem?_set_self hfirst]
      · exact hvalues i hi

end

end Foundation
