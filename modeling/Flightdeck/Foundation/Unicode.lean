import Flightdeck.Foundation.TextMap

/-!
# UTF-8 and UTF-16

A text as bytes, or as units of 16 bits whose bytes stand in either order.
-/

namespace Foundation

/-! ## UTF-8 -/

/-- `String::from_utf8`, as characters. -/
def utf8Chars (bytes : Bytes) : Option (List Char) :=
  (String.fromUTF8? ⟨bytes.toArray⟩).map String.toList

theorem utf8Chars_encode (text : List Char) :
    utf8Chars (text.flatMap String.utf8EncodeChar) = some text := by
  have same : (⟨(text.flatMap String.utf8EncodeChar).toArray⟩ : ByteArray) =
      (String.ofList text).toByteArray := by
    rw [← utf8_ofList]
    simp [utf8]
  unfold utf8Chars String.fromUTF8?
  rw [same, dif_pos (String.ofList text).isValidUTF8]
  exact congrArg some (String.toList_ofList)

theorem utf8Chars_utf8 (text : String) : utf8Chars (utf8 text) = some text.toList := by
  have encoded := utf8_ofList text.toList
  rw [String.ofList_toList] at encoded
  rw [encoded]
  exact utf8Chars_encode text.toList

theorem encode_utf8Chars {bytes : Bytes} {text : List Char}
    (decoded : utf8Chars bytes = some text) : text.flatMap String.utf8EncodeChar = bytes := by
  unfold utf8Chars String.fromUTF8? at decoded
  by_cases valid : (⟨bytes.toArray⟩ : ByteArray).IsValidUTF8
  · rw [dif_pos valid, Option.map_some, Option.some.injEq] at decoded
    rw [← utf8_ofList, ← decoded, String.ofList_toList]
    rfl
  · rw [dif_neg valid] at decoded
    contradiction

/-! ## UTF-16 -/

/-- The units of a character: a code point beyond the first plane is a pair of surrogates. -/
def utf16Units (c : Char) : List Nat :=
  if c.toNat < 0x10000 then [c.toNat]
  else [0xD800 + (c.toNat - 0x10000) / 0x400, 0xDC00 + (c.toNat - 0x10000) % 0x400]

/-- The text of some units; a surrogate that is no half of a pair has none. -/
def fromUtf16 : List Nat → Option (List Char)
  | [] => some []
  | w :: rest =>
    if w < 0xD800 ∨ 0xE000 ≤ w then (fromUtf16 rest).map (Char.ofNat w :: ·)
    else if w < 0xDC00 then
      match rest with
      | [] => none
      | low :: rest =>
        if 0xDC00 ≤ low ∧ low < 0xE000 then
          (fromUtf16 rest).map
            (Char.ofNat (0x10000 + (w - 0xD800) * 0x400 + (low - 0xDC00)) :: ·)
        else none
    else none

theorem toNat_ofNat_of_valid {n : Nat} (valid : n.isValidChar) : (Char.ofNat n).toNat = n := by
  unfold Char.ofNat
  rw [dif_pos valid]
  rfl

theorem utf16Units_lt (c : Char) : ∀ w ∈ utf16Units c, w < 0x10000 := by
  have valid := c.valid
  have bound : c.toNat < 0x110000 := by
    rcases valid with low | high
    · exact Nat.lt_trans low (by omega)
    · exact high.2
  unfold utf16Units
  split
  · simpa
  · intro w member
    simp only [List.mem_cons, List.not_mem_nil, or_false] at member
    omega

theorem fromUtf16_units (c : Char) (rest : List Nat) :
    fromUtf16 (utf16Units c ++ rest) = (fromUtf16 rest).map (c :: ·) := by
  have bounds : c.toNat < 0xD800 ∨ 0xDFFF < c.toNat ∧ c.toNat < 0x110000 := c.valid
  unfold utf16Units
  by_cases first : c.toNat < 0x10000
  · rw [if_pos first, List.singleton_append, fromUtf16.eq_def]
    dsimp only
    rw [if_pos (by omega), Char.ofNat_toNat]
  · rw [if_neg first]
    have code : 0x10000 + (0xD800 + (c.toNat - 0x10000) / 0x400 - 0xD800) * 0x400 +
        (0xDC00 + (c.toNat - 0x10000) % 0x400 - 0xDC00) = c.toNat := by omega
    rw [List.cons_append, List.singleton_append, fromUtf16.eq_def]
    dsimp only
    rw [if_neg (by omega), if_pos (by omega), if_pos (by omega), code, Char.ofNat_toNat]

/-- Encoding and decoding a text gives it back. -/
theorem fromUtf16_encode (text : List Char) :
    fromUtf16 (text.flatMap utf16Units) = some text := by
  induction text with
  | nil => rfl
  | cons c text ih => rw [List.flatMap_cons, fromUtf16_units, ih, Option.map_some]

theorem units_single {w : Nat} (bound : w < 0x10000) (plain : w < 0xD800 ∨ 0xE000 ≤ w) :
    utf16Units (Char.ofNat w) = [w] := by
  have valid : w.isValidChar := by
    rcases plain with low | high
    · exact .inl low
    · exact .inr ⟨by omega, by omega⟩
  unfold utf16Units
  rw [toNat_ofNat_of_valid valid, if_pos bound]

theorem units_pair {w low : Nat} (high : ¬ (w < 0xD800 ∨ 0xE000 ≤ w)) (lead : w < 0xDC00)
    (trail : 0xDC00 ≤ low ∧ low < 0xE000) :
    utf16Units (Char.ofNat (0x10000 + (w - 0xD800) * 0x400 + (low - 0xDC00))) = [w, low] := by
  have valid : (0x10000 + (w - 0xD800) * 0x400 + (low - 0xDC00)).isValidChar :=
    .inr ⟨by omega, by omega⟩
  unfold utf16Units
  rw [toNat_ofNat_of_valid valid, if_neg (by omega)]
  have first :
      0xD800 + (0x10000 + (w - 0xD800) * 0x400 + (low - 0xDC00) - 0x10000) / 0x400 = w := by
    omega
  have second :
      0xDC00 + (0x10000 + (w - 0xD800) * 0x400 + (low - 0xDC00) - 0x10000) % 0x400 = low := by
    omega
  rw [first, second]

/-- Decoding and encoding gives the units back. -/
theorem encode_fromUtf16 (units : List Nat) (bounds : ∀ w ∈ units, w < 0x10000)
    (text : List Char) (decoded : fromUtf16 units = some text) :
    text.flatMap utf16Units = units := by
  induction units using fromUtf16.induct generalizing text with
  | case1 =>
      obtain rfl := Option.some.inj decoded
      rfl
  | case2 w rest plain ih =>
      rw [fromUtf16.eq_def] at decoded
      dsimp only at decoded
      rw [if_pos plain, Option.map_eq_some_iff] at decoded
      obtain ⟨tail, found, rfl⟩ := decoded
      rw [List.flatMap_cons, units_single (bounds w List.mem_cons_self) plain,
        ih (fun v member => bounds v (List.mem_cons_of_mem w member)) tail found]
      rfl
  | case3 w high lead =>
      rw [fromUtf16.eq_def] at decoded
      dsimp only at decoded
      rw [if_neg high, if_pos lead] at decoded
      contradiction
  | case4 w high lead low rest trail ih =>
      rw [fromUtf16.eq_def] at decoded
      dsimp only at decoded
      rw [if_neg high, if_pos lead, if_pos trail, Option.map_eq_some_iff] at decoded
      obtain ⟨tail, found, rfl⟩ := decoded
      rw [List.flatMap_cons, units_pair high lead trail,
        ih (fun v member => bounds v (List.mem_cons_of_mem w (List.mem_cons_of_mem low member)))
          tail found]
      rfl
  | case5 w high lead low rest other =>
      rw [fromUtf16.eq_def] at decoded
      dsimp only at decoded
      rw [if_neg high, if_pos lead, if_neg other] at decoded
      contradiction
  | case6 w rest high trail =>
      rw [fromUtf16.eq_def] at decoded
      dsimp only at decoded
      rw [if_neg high, if_neg trail] at decoded
      contradiction

/-! ## Units as bytes -/

/-- `to_le_bytes` or `to_be_bytes` of a unit. -/
def unitBytes (little : Bool) (w : Nat) : Bytes :=
  if little then [UInt8.ofNat (w % 256), UInt8.ofNat (w / 256)]
  else [UInt8.ofNat (w / 256), UInt8.ofNat (w % 256)]

/-- `from_le_bytes` or `from_be_bytes` of every two bytes. -/
def toUnits (little : Bool) : Bytes → List Nat
  | a :: b :: rest =>
    (if little then a.toNat + 256 * b.toNat else 256 * a.toNat + b.toNat) :: toUnits little rest
  | _ => []

theorem toUnits_bytes (little : Bool) {w : Nat} (bound : w < 0x10000) (rest : Bytes) :
    toUnits little (unitBytes little w ++ rest) = w :: toUnits little rest := by
  have high : (UInt8.ofNat (w / 256)).toNat = w / 256 := by
    rw [UInt8.toNat_ofNat']
    omega
  have low : (UInt8.ofNat (w % 256)).toNat = w % 256 := by
    rw [UInt8.toNat_ofNat']
    omega
  cases little with
  | true =>
      simp only [unitBytes, if_true, List.cons_append, List.nil_append, toUnits, high, low]
      congr 1
      omega
  | false =>
      simp only [unitBytes, Bool.false_eq_true, if_false, List.cons_append, List.nil_append,
        toUnits, high, low]
      congr 1
      omega

theorem toUnits_flatMap (little : Bool) (units : List Nat) (bounds : ∀ w ∈ units, w < 0x10000) :
    toUnits little (units.flatMap (unitBytes little)) = units := by
  induction units with
  | nil => rfl
  | cons w units ih =>
      rw [List.flatMap_cons, toUnits_bytes little (bounds w List.mem_cons_self),
        ih fun v member => bounds v (List.mem_cons_of_mem w member)]

theorem toUnits_lt (little : Bool) (bytes : Bytes) : ∀ w ∈ toUnits little bytes, w < 0x10000 := by
  induction bytes using toUnits.induct with
  | case1 a b rest ih =>
      intro w member
      rw [toUnits, List.mem_cons] at member
      rcases member with rfl | later
      · have ha := a.toNat_lt
        have hb := b.toNat_lt
        split <;> omega
      · exact ih w later
  | case2 bytes short =>
      intro w member
      unfold toUnits at member
      split at member
      · exact absurd rfl (short _ _ _)
      · contradiction

theorem unitBytes_toUnit (little : Bool) (a b : UInt8) :
    unitBytes little (if little then a.toNat + 256 * b.toNat else 256 * a.toNat + b.toNat) =
      [a, b] := by
  have ha := a.toNat_lt
  have hb := b.toNat_lt
  cases little with
  | true =>
      have low : (a.toNat + 256 * b.toNat) % 256 = a.toNat := by omega
      have high : (a.toNat + 256 * b.toNat) / 256 = b.toNat := by omega
      simp [unitBytes, low, high]
  | false =>
      have low : (256 * a.toNat + b.toNat) % 256 = b.toNat := by omega
      have high : (256 * a.toNat + b.toNat) / 256 = a.toNat := by omega
      simp [unitBytes, low, high]

theorem flatMap_toUnits (little : Bool) (bytes : Bytes) (even : bytes.length % 2 = 0) :
    (toUnits little bytes).flatMap (unitBytes little) = bytes := by
  induction bytes using toUnits.induct with
  | case1 a b rest ih =>
      have rest_even : rest.length % 2 = 0 := by
        simp only [List.length_cons] at even
        omega
      rw [toUnits, List.flatMap_cons, unitBytes_toUnit, ih rest_even]
      rfl
  | case2 bytes short =>
      match bytes, short with
      | [], _ => rfl
      | [_], _ => simp at even
      | a :: b :: rest, short => exact absurd rfl (short a b rest)

end Foundation
