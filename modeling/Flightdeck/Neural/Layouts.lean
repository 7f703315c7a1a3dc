import Flightdeck.Foundation.Bits
import Flightdeck.Foundation.TextMap

/-!
# Coefficient layouts of the neural weights

`neural_decode.rs`: a coefficient lies at an index whose bits belong to the row or to the column.
`matrix` goes through the rows and columns and looks each coefficient up; `sparse` goes through the
coefficients and writes each at its row and column.  A panic is `none`.
-/

namespace Flightdeck.Neural

open Foundation

/-- An `f32` by its bits. -/
abbrev F32 := UInt32

/-- `f32::from(m) / 512.0` for the three bits of a subnormal. -/
def small (m : UInt32) : F32 :=
  if m = 0 then 0
  else
    let k := UInt32.ofNat m.toNat.log2
    (k + 118) <<< 23 ||| (m - 1 <<< k) <<< (23 - k)

def negate (v : F32) : F32 := v ^^^ 0x80000000

def fp8 (b : UInt8) : F32 :=
  let e := (b >>> 3) &&& 15
  let m := b &&& 7
  let v : F32 :=
    if e = 15 ∧ m = 7 then 0x7fc00000
    else if e = 0 then small m.toUInt32
    else (e.toUInt32 + 120) <<< 23 ||| m.toUInt32 <<< 20
  if b &&& 128 ≠ 0 then negate v else v

def gatherBits (i : Nat) (positions : List Nat) : Nat :=
  (positions.zipIdx.map fun (p, b) => ((i >>> p) &&& 1) <<< b).sum

def scatterBits (i : Nat) (positions : List Nat) : Nat :=
  (positions.zipIdx.map fun (p, b) => ((i >>> b) &&& 1) <<< p).sum

def matrix (raw : Bytes) (rb cb : List Nat) : Option (List F32) := do
  if raw.length ≠ 1 <<< (rb.length + cb.length) then none
  let columns := (List.range (1 <<< cb.length)).map fun i => scatterBits i cb
  let rows ← (List.range (1 <<< rb.length)).mapM fun r =>
    let row := scatterBits r rb
    columns.mapM fun c => raw[row ||| c]?.map fp8
  return rows.flatten

def sparse (raw : Bytes) (rows cols : Nat) (rb cb : List Nat) : Option (List F32) :=
  writeEach (fun i => gatherBits i rb * cols + gatherBits i cb) fp8 raw.zipIdx
    (List.replicate (rows * cols) 0)

/-! ## Bits -/

variable {positions rb cb : List Nat} {i r c q b n : Nat}

theorem testBit_gatherBits :
    (gatherBits i positions).testBit b = true ↔
      ∃ p, positions[b]? = some p ∧ i.testBit p = true := by
  have hterms : gatherBits i positions =
      ((positions.zipIdx.map fun e => (i.testBit e.1, e.2)).map fun t : Bool × Nat =>
        t.1.toNat * 2 ^ t.2).sum := by
    rw [List.map_map]
    exact congrArg List.sum (List.map_congr_left fun e _ => bit_shift i e.1 e.2)
  have hplaces : ((positions.zipIdx.map fun e => (i.testBit e.1, e.2)).map Prod.snd).Nodup := by
    rw [List.map_map]
    show (positions.zipIdx.map Prod.snd).Nodup
    rw [List.zipIdx_map_snd]
    exact List.nodup_range'
  rw [hterms, testBit_sum _ hplaces]
  simp only [List.any_map, List.any_eq_true, Function.comp, Bool.and_eq_true, beq_iff_eq,
    Prod.exists, List.mem_zipIdx_iff_getElem?]
  constructor
  · rintro ⟨p, k, hp, hbit, rfl⟩
    exact ⟨p, hp, hbit⟩
  · rintro ⟨p, hp, hbit⟩
    exact ⟨p, b, hp, hbit, rfl⟩

theorem testBit_scatterBits (hpositions : positions.Nodup) :
    (scatterBits i positions).testBit q = true ↔
      ∃ b, positions[b]? = some q ∧ i.testBit b = true := by
  have hterms : scatterBits i positions =
      ((positions.zipIdx.map fun e => (i.testBit e.2, e.1)).map fun t : Bool × Nat =>
        t.1.toNat * 2 ^ t.2).sum := by
    rw [List.map_map]
    exact congrArg List.sum (List.map_congr_left fun e _ => bit_shift i e.2 e.1)
  have hplaces : ((positions.zipIdx.map fun e => (i.testBit e.2, e.1)).map Prod.snd).Nodup := by
    rw [List.map_map]
    show (positions.zipIdx.map Prod.fst).Nodup
    rw [List.zipIdx_map_fst]
    exact hpositions
  rw [hterms, testBit_sum _ hplaces]
  simp only [List.any_map, List.any_eq_true, Function.comp, Bool.and_eq_true, beq_iff_eq,
    Prod.exists, List.mem_zipIdx_iff_getElem?]
  constructor
  · rintro ⟨p, k, hp, hbit, rfl⟩
    exact ⟨k, hp, hbit⟩
  · rintro ⟨k, hk, hbit⟩
    exact ⟨q, k, hk, hbit, rfl⟩

/-- A number is known by the bits that are set. -/
theorem eq_of_bits {x y : Nat} (h : ∀ b, x.testBit b = true ↔ y.testBit b = true) : x = y :=
  Nat.eq_of_testBit_eq fun b => Bool.eq_iff_iff.mpr (h b)

theorem lt_of_bits {x : Nat} (h : ∀ b, x.testBit b = true → b < n) : x < 2 ^ n := by
  apply Nat.lt_pow_two_of_testBit
  intro b hb
  by_contra hbit
  rw [Bool.not_eq_false] at hbit
  have := h b hbit
  omega

theorem bit_lt {x : Nat} (hx : x < 2 ^ n) (hbit : x.testBit b = true) : b < n := by
  by_contra hb
  have hlt : x < 2 ^ b := hx.trans_le (Nat.pow_le_pow_right (by decide) (by omega))
  rw [Nat.testBit_lt_two_pow hlt] at hbit
  cases hbit

theorem gatherBits_lt : gatherBits i positions < 2 ^ positions.length := by
  apply lt_of_bits
  intro b hb
  obtain ⟨p, hp, -⟩ := testBit_gatherBits.mp hb
  exact (List.getElem?_eq_some_iff.mp hp).1

/-- Gathering takes back what was scattered, whatever other positions hold. -/
theorem gatherBits_or (hpositions : positions.Nodup) (hr : r < 2 ^ positions.length) {other : Nat}
    (hother : ∀ p ∈ positions, other.testBit p = false) :
    gatherBits (scatterBits r positions ||| other) positions = r := by
  apply eq_of_bits
  intro b
  rw [testBit_gatherBits]
  constructor
  · rintro ⟨p, hp, hbit⟩
    rw [Nat.testBit_or, hother p (List.mem_of_getElem? hp), Bool.or_false,
      testBit_scatterBits hpositions] at hbit
    obtain ⟨k, hk, hbit⟩ := hbit
    have hsame : b = k :=
      (List.getElem?_inj (List.getElem?_eq_some_iff.mp hp).1 hpositions).mp (hp.trans hk.symm)
    rw [hsame]
    exact hbit
  · intro hbit
    have hb : b < positions.length := bit_lt hr hbit
    refine ⟨positions[b], List.getElem?_eq_getElem hb, ?_⟩
    rw [Nat.testBit_or, (testBit_scatterBits hpositions).mpr
      ⟨b, List.getElem?_eq_getElem hb, hbit⟩, Bool.true_or]

theorem gatherBits_scatterBits (hpositions : positions.Nodup) (hr : r < 2 ^ positions.length) :
    gatherBits (scatterBits r positions) positions = r := by
  have h := gatherBits_or hpositions hr (fun p _ => Nat.zero_testBit p)
  rwa [Nat.or_zero] at h

/-- Scattering puts the gathered bits back and clears the others. -/
theorem testBit_scatterBits_gatherBits (hpositions : positions.Nodup) :
    (scatterBits (gatherBits i positions) positions).testBit q = true ↔
      q ∈ positions ∧ i.testBit q = true := by
  rw [testBit_scatterBits hpositions]
  simp only [testBit_gatherBits]
  constructor
  · rintro ⟨b, hb, p, hp, hbit⟩
    rw [hb] at hp
    cases hp
    exact ⟨List.mem_of_getElem? hb, hbit⟩
  · rintro ⟨hq, hbit⟩
    obtain ⟨b, hb⟩ := List.mem_iff_getElem?.mp hq
    exact ⟨b, hb, q, hb, hbit⟩

/-! ## Positions that share out the bits of an index -/

/-- The positions are those of the bits of an index, each once. -/
def Partition (rb cb : List Nat) : Prop :=
  (rb ++ cb).Perm (List.range (rb.length + cb.length))

instance : Decidable (Partition rb cb) := inferInstanceAs (Decidable (List.Perm _ _))

namespace Partition

variable (h : Partition rb cb)

include h

theorem nodup : (rb ++ cb).Nodup := h.nodup_iff.mpr List.nodup_range

theorem mem_iff : q ∈ rb ∨ q ∈ cb ↔ q < rb.length + cb.length := by
  rw [← List.mem_append, List.Perm.mem_iff h, List.mem_range]

theorem symm : Partition cb rb := by
  unfold Partition
  rw [Nat.add_comm]
  exact List.perm_append_comm.trans h

/-- The column has no bit at a position of the row. -/
theorem free : ∀ p ∈ rb, (scatterBits c cb).testBit p = false := by
  intro p hp
  have hnodup := List.nodup_append.mp h.nodup
  cases hbit : (scatterBits c cb).testBit p with
  | false => rfl
  | true =>
    obtain ⟨b, hb, -⟩ := (testBit_scatterBits hnodup.2.1).mp hbit
    exact absurd rfl (hnodup.2.2 p hp p (List.mem_of_getElem? hb))

theorem row (hr : r < 2 ^ rb.length) : gatherBits (scatterBits r rb ||| scatterBits c cb) rb = r :=
  gatherBits_or (List.nodup_append.mp h.nodup).1 hr h.free

theorem column (hc : c < 2 ^ cb.length) :
    gatherBits (scatterBits r rb ||| scatterBits c cb) cb = c := by
  rw [Nat.or_comm]
  exact h.symm.row hc

/-- An index is its row and its column. -/
theorem rejoin (hi : i < 2 ^ (rb.length + cb.length)) :
    scatterBits (gatherBits i rb) rb ||| scatterBits (gatherBits i cb) cb = i := by
  obtain ⟨hrb, hcb, -⟩ := List.nodup_append.mp h.nodup
  apply eq_of_bits
  intro q
  rw [Nat.testBit_or, Bool.or_eq_true, testBit_scatterBits_gatherBits hrb,
    testBit_scatterBits_gatherBits hcb, ← or_and_right, h.mem_iff]
  constructor
  · exact And.right
  · intro hbit
    exact ⟨bit_lt hi hbit, hbit⟩

theorem join_lt : scatterBits r rb ||| scatterBits c cb < 2 ^ (rb.length + cb.length) := by
  obtain ⟨hrb, hcb, -⟩ := List.nodup_append.mp h.nodup
  apply lt_of_bits
  intro q hq
  rw [Nat.testBit_or, Bool.or_eq_true, testBit_scatterBits hrb, testBit_scatterBits hcb] at hq
  apply h.mem_iff.mp
  rcases hq with ⟨b, hb, -⟩ | ⟨b, hb, -⟩
  · exact .inl (List.mem_of_getElem? hb)
  · exact .inr (List.mem_of_getElem? hb)

end Partition

/-- Where `sparse` writes the coefficient of an index. -/
def cell (rb cb : List Nat) (i : Nat) : Nat :=
  gatherBits i rb * 2 ^ cb.length + gatherBits i cb

theorem cell_lt : cell rb cb i < 2 ^ rb.length * 2 ^ cb.length := by
  have hrow : gatherBits i rb + 1 ≤ 2 ^ rb.length := gatherBits_lt
  have hcolumn : gatherBits i cb < 2 ^ cb.length := gatherBits_lt
  calc cell rb cb i < gatherBits i rb * 2 ^ cb.length + 2 ^ cb.length := by
        unfold cell
        omega
    _ = (gatherBits i rb + 1) * 2 ^ cb.length := by ring
    _ ≤ 2 ^ rb.length * 2 ^ cb.length := Nat.mul_le_mul_right _ hrow

/-- The row of a cell, and its column. -/
theorem cell_div : cell rb cb i / 2 ^ cb.length = gatherBits i rb := by
  unfold cell
  rw [Nat.mul_comm, Nat.mul_add_div (Nat.two_pow_pos _), Nat.div_eq_of_lt gatherBits_lt,
    Nat.add_zero]

theorem cell_mod : cell rb cb i % 2 ^ cb.length = gatherBits i cb := by
  unfold cell
  rw [Nat.mul_comm, Nat.mul_add_mod, Nat.mod_eq_of_lt gatherBits_lt]

/-- No two coefficients are written at one place. -/
theorem Partition.cell_inj (h : Partition rb cb) {j : Nat} (hi : i < 2 ^ (rb.length + cb.length))
    (hj : j < 2 ^ (rb.length + cb.length)) (hcell : cell rb cb i = cell rb cb j) : i = j := by
  have hrow : gatherBits i rb = gatherBits j rb := by rw [← cell_div, hcell, cell_div]
  have hcolumn : gatherBits i cb = gatherBits j cb := by rw [← cell_mod, hcell, cell_mod]
  rw [← h.rejoin hi, hrow, hcolumn, h.rejoin hj]

/-! ## The two layouts -/

variable {raw : Bytes}

/-- The table that both functions make. -/
def table (raw : Bytes) (rb cb : List Nat) : List F32 :=
  (List.range (2 ^ rb.length * 2 ^ cb.length)).map fun j =>
    fp8 (raw.getD (scatterBits (j / 2 ^ cb.length) rb ||| scatterBits (j % 2 ^ cb.length) cb) 0)

theorem mapM_some {α β : Type} {f : α → Option β} {g : α → β} {l : List α}
    (h : ∀ a ∈ l, f a = some (g a)) : l.mapM f = some (l.map g) := by
  induction l with
  | nil => rfl
  | cons a l ih =>
    rw [List.mapM_cons, h a List.mem_cons_self, ih fun b hb => h b (List.mem_cons_of_mem _ hb)]
    rfl

theorem matrix_eq (h : Partition rb cb) (hraw : raw.length = 2 ^ (rb.length + cb.length)) :
    matrix raw rb cb = some (table raw rb cb) := by
  have hrow (r : Nat) : ((List.range (2 ^ cb.length)).map fun c => scatterBits c cb).mapM
      (fun c => raw[scatterBits r rb ||| c]?.map fp8) = some ((List.range (2 ^ cb.length)).map
        fun c => fp8 (raw.getD (scatterBits r rb ||| scatterBits c cb) 0)) := by
    have hlookup : ∀ c ∈ (List.range (2 ^ cb.length)).map fun c => scatterBits c cb,
        raw[scatterBits r rb ||| c]?.map fp8 =
          some (fp8 (raw.getD (scatterBits r rb ||| c) 0)) := by
      intro p hp
      obtain ⟨c, -, rfl⟩ := List.mem_map.mp hp
      have hlt : scatterBits r rb ||| scatterBits c cb < raw.length := hraw ▸ h.join_lt
      rw [List.getD_eq_getElem?_getD, List.getElem?_eq_getElem hlt]
      rfl
    rw [mapM_some hlookup, List.map_map]
    rfl
  unfold matrix
  rw [Nat.one_shiftLeft, Nat.one_shiftLeft, Nat.one_shiftLeft, if_neg (not_not.mpr hraw)]
  show ((List.range (2 ^ rb.length)).mapM fun r => _) >>= _ = _
  rw [mapM_some fun r _ => hrow r]
  show some _ = some _
  rw [← List.flatMap_def]
  have hblocks := flatMap_range (fun j => fp8 (raw.getD
    (scatterBits (j / 2 ^ cb.length) rb ||| scatterBits (j % 2 ^ cb.length) cb) 0))
    (2 ^ rb.length) (2 ^ cb.length)
  unfold table
  rw [← hblocks]
  congr 1
  apply List.flatMap_congr
  intro r _
  apply List.map_congr_left
  intro c hc
  have hlt : c < 2 ^ cb.length := List.mem_range.mp hc
  rw [Nat.mul_comm, Nat.mul_add_div (Nat.two_pow_pos _), Nat.div_eq_of_lt hlt, Nat.add_zero,
    Nat.mul_add_mod, Nat.mod_eq_of_lt hlt]

theorem sparse_eq (h : Partition rb cb) (hraw : raw.length = 2 ^ (rb.length + cb.length)) :
    sparse raw (2 ^ rb.length) (2 ^ cb.length) rb cb = some (table raw rb cb) := by
  have hcells : ∀ item ∈ raw.zipIdx, cell rb cb item.2 < (List.replicate
      (2 ^ rb.length * 2 ^ cb.length) (0 : F32)).length := by
    intro item _
    rw [List.length_replicate]
    exact cell_lt
  have hdistinct : (raw.zipIdx.map fun item => cell rb cb item.2).Nodup := by
    rw [show (fun item : UInt8 × Nat => cell rb cb item.2) = cell rb cb ∘ Prod.snd from rfl,
      ← List.map_map, List.zipIdx_map_snd]
    apply List.Nodup.map_on _ List.nodup_range'
    intro i hi j hj hcell
    simp only [List.mem_range'_1] at hi hj
    exact h.cell_inj (by omega) (by omega) hcell
  obtain ⟨result, hresult, hlength, hvalues⟩ :
      ∃ result, sparse raw (2 ^ rb.length) (2 ^ cb.length) rb cb = some result ∧ _ ∧ _ :=
    writeEach_at hcells hdistinct
  rw [List.length_replicate] at hlength
  rw [hresult]
  congr 1
  apply List.ext_getElem?
  intro j
  by_cases hj : j < 2 ^ rb.length * 2 ^ cb.length
  · -- the index whose row and column are those of place `j`
    obtain ⟨i, hi⟩ : ∃ i, i =
      scatterBits (j / 2 ^ cb.length) rb ||| scatterBits (j % 2 ^ cb.length) cb := ⟨_, rfl⟩
    have hlt : i < raw.length := by
      rw [hi, hraw]
      exact h.join_lt
    have hrow : gatherBits i rb = j / 2 ^ cb.length := by
      rw [hi]
      exact h.row (Nat.div_lt_of_lt_mul (Nat.mul_comm _ _ ▸ hj))
    have hcolumn : gatherBits i cb = j % 2 ^ cb.length := by
      rw [hi]
      exact h.column (Nat.mod_lt _ (Nat.two_pow_pos _))
    have hcell : cell rb cb i = j := by
      unfold cell
      rw [hrow, hcolumn, Nat.mul_comm, Nat.div_add_mod]
    have hvalue := hvalues (raw[i], i)
      (List.mem_zipIdx_iff_getElem?.mpr (List.getElem?_eq_getElem hlt))
    have htable : (table raw rb cb)[j]? = some (fp8 raw[i]) := by
      unfold table
      rw [List.getElem?_map, List.getElem?_range hj, Option.map_some, ← hi,
        List.getD_eq_getElem?_getD, List.getElem?_eq_getElem hlt]
      rfl
    rw [htable, ← hcell]
    exact hvalue
  · have hout : (table raw rb cb).length ≤ j := by
      unfold table
      rw [List.length_map, List.length_range]
      omega
    rw [List.getElem?_eq_none (by omega), List.getElem?_eq_none hout]

/-- Both layouts read each coefficient once and put it at the same place. -/
theorem sparse_agrees_matrix (h : Partition rb cb)
    (hraw : raw.length = 2 ^ (rb.length + cb.length)) :
    (∃ values, sparse raw (2 ^ rb.length) (2 ^ cb.length) rb cb = some values ∧
      matrix raw rb cb = some values) ∧
    (∀ i < raw.length, scatterBits (gatherBits i rb) rb ||| scatterBits (gatherBits i cb) cb = i) ∧
    (∀ r < 2 ^ rb.length, ∀ c < 2 ^ cb.length,
      gatherBits (scatterBits r rb ||| scatterBits c cb) rb = r ∧
      gatherBits (scatterBits r rb ||| scatterBits c cb) cb = c) ∧
    (∀ i < raw.length, scatterBits (gatherBits i (rb ++ cb)) (rb ++ cb) = i ∧
      gatherBits (scatterBits i (rb ++ cb)) (rb ++ cb) = i) ∧
    ∀ positions ∈ [rb, cb, rb ++ cb],
      (∀ r < 2 ^ positions.length, gatherBits (scatterBits r positions) positions = r) ∧
      Set.InjOn (scatterBits · positions) { r | r < 2 ^ positions.length } := by
  obtain ⟨hrb, hcb, -⟩ := List.nodup_append.mp h.nodup
  have hwhole : (rb ++ cb).length = rb.length + cb.length := List.length_append
  refine ⟨⟨_, sparse_eq h hraw, matrix_eq h hraw⟩, ?_, ?_, ?_, ?_⟩
  · intro i hi
    exact h.rejoin (hraw ▸ hi)
  · intro r hr c hc
    exact ⟨h.row hr, h.column hc⟩
  · intro i hi
    rw [hraw] at hi
    refine ⟨?_, gatherBits_scatterBits h.nodup (hwhole ▸ hi)⟩
    apply eq_of_bits
    intro q
    rw [testBit_scatterBits_gatherBits h.nodup, List.mem_append, h.mem_iff]
    exact ⟨And.right, fun hbit => ⟨bit_lt hi hbit, hbit⟩⟩
  · intro positions hpositions
    have hnodup : positions.Nodup := by
      simp only [List.mem_cons, List.not_mem_nil, or_false] at hpositions
      rcases hpositions with rfl | rfl | rfl
      · exact hrb
      · exact hcb
      · exact h.nodup
    refine ⟨fun r hr => gatherBits_scatterBits hnodup hr, ?_⟩
    intro r hr s hs heq
    rw [← gatherBits_scatterBits hnodup hr, ← gatherBits_scatterBits hnodup hs]
    exact congrArg (gatherBits · positions) heq

/-- A table of eight coefficients, with the middle bit for the row. -/
theorem sparse_agrees_matrix_eight :
    ∃ values, sparse [1, 2, 3, 4, 5, 6, 7, 8] 2 4 [1] [0, 2] = some values ∧
      matrix [1, 2, 3, 4, 5, 6, 7, 8] [1] [0, 2] = some values :=
  (sparse_agrees_matrix (show Partition [1] [0, 2] by decide) rfl).1

end Flightdeck.Neural
