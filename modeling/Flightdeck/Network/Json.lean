import Flightdeck.Foundation.TextMap

/-!
# JSON values as the policy code compares them

The vendored library keeps whole numbers apart by sign and compares numbers of different kinds by
converting one of them.
-/

namespace Flightdeck.Network

open Foundation

/-- `nlohmann::json`; a parsed `double` is a rational number, and an object's fields are in the order
of its map. -/
inductive Json where
  | null
  | boolean (b : Bool)
  | string (text : Bytes)
  | unsigned (n : UInt64)
  | integer (n : Int64)
  | float (x : ℚ)
  | array (rows : List Json)
  | object (fields : List (String × Json))

/-- The `double` nearest to a whole number, and the even one of two. -/
def toDouble (n : Int) : ℚ :=
  let m := n.natAbs
  let unit := 2 ^ (m.log2 - 52)
  let q := m / unit
  let r := m % unit
  let rounded := if unit < 2 * r ∨ (unit = 2 * r ∧ q % 2 = 1) then q + 1 else q
  (n.sign * (rounded * unit : Nat) : Int)

mutual

/-- `operator==` -/
def Json.same : Json → Json → Bool
  | .null, .null => true
  | .boolean a, .boolean b => a == b
  | .string a, .string b => a == b
  | .unsigned a, .unsigned b => a == b
  | .integer a, .integer b => a == b
  | .float a, .float b => a == b
  | .array a, .array b => sameRows a b
  | .object a, .object b => sameFields a b
  | .integer a, .float b => toDouble a.toInt == b
  | .float a, .integer b => a == toDouble b.toInt
  | .unsigned a, .float b => toDouble a.toNat == b
  | .float a, .unsigned b => a == toDouble b.toNat
  | .unsigned a, .integer b => a.toInt64 == b
  | .integer a, .unsigned b => a == b.toInt64
  | _, _ => false

def sameRows : List Json → List Json → Bool
  | [], [] => true
  | a :: as, b :: bs => a.same b && sameRows as bs
  | _, _ => false

def sameFields : List (String × Json) → List (String × Json) → Bool
  | [], [] => true
  | (k, a) :: as, (l, b) :: bs => k == l && a.same b && sameFields as bs
  | _, _ => false

end

mutual

theorem Json.same_refl : ∀ a : Json, a.same a = true
  | .null => rfl
  | .boolean b => by simp [Json.same]
  | .string text => by simp [Json.same]
  | .unsigned n => by simp [Json.same]
  | .integer n => by simp [Json.same]
  | .float x => by simp [Json.same]
  | .array rows => by
    rw [Json.same]
    exact sameRows_refl rows
  | .object fields => by
    rw [Json.same]
    exact sameFields_refl fields

theorem sameRows_refl : ∀ rows : List Json, sameRows rows rows = true
  | [] => rfl
  | a :: as => by rw [sameRows, a.same_refl, sameRows_refl as, Bool.and_self]

theorem sameFields_refl : ∀ fields : List (String × Json), sameFields fields fields = true
  | [] => rfl
  | (k, a) :: as => by
    rw [sameFields, beq_self_eq_true, a.same_refl, sameFields_refl as, Bool.and_self, Bool.and_self]

end

mutual

theorem Json.same_comm : ∀ a b : Json, a.same b = b.same a := by
  intro a b
  cases a with
  | array rows =>
    cases b with
    | array rows' =>
      rw [Json.same, Json.same]
      exact sameRows_comm rows rows'
    | _ => rfl
  | object fields =>
    cases b with
    | object fields' =>
      rw [Json.same, Json.same]
      exact sameFields_comm fields fields'
    | _ => rfl
  | _ => cases b <;> simp [Json.same, Bool.beq_comm]

theorem sameRows_comm : ∀ a b : List Json, sameRows a b = sameRows b a
  | [], [] => rfl
  | [], _ :: _ => rfl
  | _ :: _, [] => rfl
  | a :: as, b :: bs => by rw [sameRows, sameRows, a.same_comm b, sameRows_comm as bs]

theorem sameFields_comm : ∀ a b : List (String × Json), sameFields a b = sameFields b a
  | [], [] => rfl
  | [], _ :: _ => rfl
  | _ :: _, [] => rfl
  | (k, a) :: as, (l, b) :: bs => by
    rw [sameFields, sameFields, a.same_comm b, sameFields_comm as bs, Bool.beq_comm]

end

/-! ## Access -/

/-- `value.contains(key)` and `value[key]` -/
def Json.get (value : Json) (key : String) : Option Json :=
  match value with
  | .object fields => fields.lookup key
  | _ => none

/-- `value[key] = inner`, for a key the value has. -/
def Json.set (value : Json) (key : String) (inner : Json) : Json :=
  match value with
  | .object fields => .object (fields.map fun field => if field.1 = key then (key, inner) else field)
  | _ => value

/-- The string under a key. -/
def Json.stringAt (value : Json) (key : String) : Option Bytes :=
  match value.get key with
  | some (.string text) => some text
  | _ => none

/-- `value.size()` of an object -/
def Json.size : Json → Nat
  | .object fields => fields.length
  | _ => 0

/-- `is_number_integer`, and the value as `get<long long>` -/
def Json.longLong : Json → Option Int
  | .unsigned n => some n.toInt64.toInt
  | .integer n => some n.toInt
  | _ => none

theorem Json.get_set_self {value inner : Json} {key : String} (h : (value.get key).isSome) :
    (value.set key inner).get key = some inner := by
  cases value with
  | object fields =>
    simp only [Json.get, Json.set] at h ⊢
    induction fields with
    | nil => cases h
    | cons field fields ih =>
      rw [List.map_cons]
      by_cases hkey : field.1 = key
      · rw [if_pos hkey, List.lookup_cons, beq_self_eq_true]
      · have hne : (key == field.1) = false := beq_eq_false_iff_ne.mpr (Ne.symm hkey)
        rw [List.lookup_cons, hne] at h
        rw [if_neg hkey, List.lookup_cons, hne]
        exact ih h
  | _ => cases h

theorem Json.get_set_of_ne {value inner : Json} {key other : String} (h : other ≠ key) :
    (value.set key inner).get other = value.get other := by
  cases value with
  | object fields =>
    simp only [Json.get, Json.set]
    induction fields with
    | nil => rfl
    | cons field fields ih =>
      rw [List.map_cons, List.lookup_cons, List.lookup_cons, ih]
      by_cases hkey : field.1 = key
      · rw [if_pos hkey, hkey, beq_eq_false_iff_ne.mpr h]
      · rw [if_neg hkey]
  | _ => rfl

/-! ## Parsed documents -/

mutual

/-- A parsed object is a map, which keeps its fields in ascending order. -/
def Json.ordered : Json → Bool
  | .array rows => orderedRows rows
  | .object fields =>
    decide ((fields.map Prod.fst).Pairwise fun k l => byteOrder k l = .lt) && orderedFields fields
  | _ => true

def orderedRows : List Json → Bool
  | [] => true
  | row :: rows => row.ordered && orderedRows rows

def orderedFields : List (String × Json) → Bool
  | [] => true
  | (_, value) :: fields => value.ordered && orderedFields fields

end

/-- What the parser returns. -/
structure Document where
  json : Json
  ordered : json.ordered = true

theorem ordered_of_mem_rows {rows : List Json} {row : Json} (h : orderedRows rows = true)
    (hrow : row ∈ rows) : row.ordered = true := by
  induction rows with
  | nil => cases hrow
  | cons first rows ih =>
    rw [orderedRows, Bool.and_eq_true] at h
    rcases List.mem_cons.mp hrow with rfl | hrow
    · exact h.1
    · exact ih h.2 hrow

theorem ordered_of_lookup {fields : List (String × Json)} {key : String} {value : Json}
    (h : orderedFields fields = true) (hvalue : fields.lookup key = some value) :
    value.ordered = true := by
  induction fields with
  | nil => cases hvalue
  | cons field fields ih =>
    rw [orderedFields, Bool.and_eq_true] at h
    rw [List.lookup_cons] at hvalue
    split at hvalue
    · cases hvalue
      exact h.1
    · exact ih h.2 hvalue

theorem Json.ordered_of_get {value inner : Json} {key : String} (h : value.ordered = true)
    (hinner : value.get key = some inner) : inner.ordered = true := by
  cases value with
  | object fields =>
    rw [Json.ordered, Bool.and_eq_true] at h
    exact ordered_of_lookup h.2 hinner
  | _ => cases hinner

/-- An object with no more fields than the names it is known to have. -/
theorem Json.fields_of_size {fields : List (String × Json)} {names : List String}
    (h : (Json.object fields).ordered = true)
    (hnames : names.Pairwise fun k l => byteOrder k l = .lt)
    (hsome : ∀ name ∈ names, ((Json.object fields).get name).isSome)
    (hsize : fields.length ≤ names.length) : fields.map Prod.fst = names := by
  rw [Json.ordered, Bool.and_eq_true, decide_eq_true_eq] at h
  have hirrefl : ∀ k l : String, byteOrder k l = .lt → k ≠ l := by
    rintro k l hlt rfl
    have heq : byteOrder k k = .eq := Std.ReflCmp.compare_self
    rw [heq] at hlt
    cases hlt
  have hsubset : names ⊆ fields.map Prod.fst := by
    intro name hname
    have hlookup := hsome name hname
    simp only [Json.get] at hlookup
    by_contra hnot
    rw [List.lookup_eq_none_iff.mpr] at hlookup
    · cases hlookup
    · intro field hfield
      rw [bne_iff_ne]
      rintro rfl
      exact hnot (List.mem_map_of_mem hfield)
  have hnodup : names.Nodup := hnames.imp fun hlt => hirrefl _ _ hlt
  have hperm : names.Perm (fields.map Prod.fst) :=
    (List.subperm_of_subset hnodup hsubset).perm_of_length_le (by simpa using hsize)
  have hasymm : ∀ k l : String, byteOrder k l = .lt → byteOrder l k = .lt → k = l := by
    intro k l hlt hgt
    have hswap : byteOrder k l = (byteOrder l k).swap := Std.OrientedCmp.eq_swap
    rw [hlt, hgt] at hswap
    cases hswap
  exact (hperm.eq_of_pairwise (fun k l _ _ => hasymm k l) hnames h.1).symm

end Flightdeck.Network
