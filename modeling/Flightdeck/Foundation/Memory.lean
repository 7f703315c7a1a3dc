import Flightdeck.Foundation.LittleEndian
import Flightdeck.Foundation.TextMap

/-!
# Stores to memory

A program that only writes is the list of its stores.  Where no byte is written twice, each store
can be read back after all of them, and every other byte is as it was.
-/

namespace Foundation

/-- The bytes at all addresses. -/
abbrev Memory := Nat → UInt8

structure Store where
  address : Nat
  bytes : Bytes

namespace Store

/-- The addresses that are written. -/
def cells (s : Store) : List Nat := List.range' s.address s.bytes.length

def apply (s : Store) (memory : Memory) : Memory := fun a =>
  if s.address ≤ a then s.bytes[a - s.address]?.getD (memory a) else memory a

end Store

def cellsOf (stores : List Store) : List Nat := stores.flatMap Store.cells

def storeAll (memory : Memory) (stores : List Store) : Memory :=
  stores.foldl (fun memory s => s.apply memory) memory

def load (memory : Memory) (address length : Nat) : Bytes :=
  (List.range length).map fun k => memory (address + k)

def loadNat (memory : Memory) (address length : Nat) : Nat := leNat (load memory address length)

/-- A text without a zero, and the zero that ends it. -/
def CString (memory : Memory) (address : Nat) (text : Bytes) : Prop :=
  0 ∉ text ∧ load memory address (text.length + 1) = text ++ [0]

theorem Store.mem_cells {s : Store} {a : Nat} :
    a ∈ s.cells ↔ s.address ≤ a ∧ a < s.address + s.bytes.length := by
  unfold cells
  rw [List.mem_range'_1]

theorem Store.apply_other {s : Store} {a : Nat} (outside : a ∉ s.cells) (memory : Memory) :
    s.apply memory a = memory a := by
  rw [mem_cells] at outside
  unfold apply
  by_cases after : s.address ≤ a
  · rw [if_pos after, List.getElem?_eq_none (by omega)]
    rfl
  · rw [if_neg after]

theorem storeAll_other {stores : List Store} {a : Nat} (outside : a ∉ cellsOf stores)
    (memory : Memory) : storeAll memory stores a = memory a := by
  induction stores generalizing memory with
  | nil => rfl
  | cons s rest ih =>
    rw [cellsOf, List.flatMap_cons, List.mem_append, not_or] at outside
    show storeAll (s.apply memory) rest a = _
    rw [ih outside.2, Store.apply_other outside.1]

@[simp] theorem load_length (memory : Memory) (address length : Nat) :
    (load memory address length).length = length := by
  rw [load, List.length_map, List.length_range]

theorem load_congr {memory memory' : Memory} {address length : Nat}
    (same : ∀ a, address ≤ a → a < address + length → memory a = memory' a) :
    load memory address length = load memory' address length := by
  apply List.map_congr_left
  intro k inside
  rw [List.mem_range] at inside
  exact same _ (by omega) (by omega)

theorem Store.load_apply (s : Store) (memory : Memory) :
    load (s.apply memory) s.address s.bytes.length = s.bytes := by
  apply List.ext_getElem
  · exact load_length ..
  · intro k _ inside
    have there : s.apply memory (s.address + k) = s.bytes[k] := by
      unfold apply
      rw [if_pos (by omega), Nat.add_sub_cancel_left, List.getElem?_eq_getElem inside]
      rfl
    simpa [load] using there

/-- What was stored is there at the end. -/
theorem load_storeAll {stores : List Store} (distinct : (cellsOf stores).Nodup) {s : Store}
    (there : s ∈ stores) (memory : Memory) :
    load (storeAll memory stores) s.address s.bytes.length = s.bytes := by
  induction stores generalizing memory with
  | nil => cases there
  | cons first rest ih =>
    rw [cellsOf, List.flatMap_cons, List.nodup_append] at distinct
    have ⟨_, later, apart⟩ := distinct
    rcases List.mem_cons.mp there with rfl | there
    · have kept : load (storeAll (s.apply memory) rest) s.address s.bytes.length =
          load (s.apply memory) s.address s.bytes.length := by
        apply load_congr
        intro a low high
        apply storeAll_other
        intro written
        exact apart a (Store.mem_cells.mpr ⟨low, high⟩) a written rfl
      exact kept.trans (s.load_apply memory)
    · exact ih later there _

theorem length_cellsOf (stores : List Store) :
    (cellsOf stores).length = (stores.map fun s => s.bytes.length).sum := by
  induction stores with
  | nil => rfl
  | cons s rest ih =>
    rw [cellsOf, List.flatMap_cons, List.length_append, List.map_cons, List.sum_cons]
    unfold cellsOf at ih
    rw [ih, Store.cells, List.length_range']

end Foundation
