import Flightdeck.Foundation.Lines
import Flightdeck.Foundation.TextMap

/-!
# Bytes as text

`String::from_utf8_lossy`: each longest part that could begin a character but does not complete it
becomes one replacement character.
-/

namespace Flightdeck

open Foundation

/-- How many bytes lie in the ranges, one after the other. -/
def matched : List (UInt8 × UInt8) → Bytes → Nat
  | (low, high) :: ranges, b :: bytes =>
    if low ≤ b ∧ b ≤ high then matched ranges bytes + 1 else 0
  | _, _ => 0

/-- The bits of a first byte of several, and the ranges of the bytes that follow it. -/
def lead (b : UInt8) : Option (Nat × List (UInt8 × UInt8)) :=
  let any : UInt8 × UInt8 := (0x80, 0xBF)
  if 0xC2 ≤ b ∧ b ≤ 0xDF then some (b.toNat - 0xC0, [any])
  else if b = 0xE0 then some (0, [(0xA0, 0xBF), any])
  else if b = 0xED then some (0xD, [(0x80, 0x9F), any])
  else if 0xE1 ≤ b ∧ b ≤ 0xEF then some (b.toNat - 0xE0, [any, any])
  else if b = 0xF0 then some (0, [(0x90, 0xBF), any, any])
  else if 0xF1 ≤ b ∧ b ≤ 0xF3 then some (b.toNat - 0xF0, [any, any, any])
  else if b = 0xF4 then some (4, [(0x80, 0x8F), any, any])
  else none

/-- The first character, and how many bytes follow its first one. -/
def firstChar (b : UInt8) (bytes : Bytes) : Option Char × Nat :=
  if b < 0x80 then (some (Char.ofNat b.toNat), 0)
  else match lead b with
    | none => (none, 0)
    | some (bits, ranges) =>
      let n := matched ranges bytes
      if n = ranges.length then
        (some (Char.ofNat ((bytes.take n).foldl (fun v b => 64 * v + (b.toNat - 0x80)) bits)), n)
      else (none, n)

def lossyChars : Bytes → List Char
  | [] => []
  | b :: bytes =>
    (firstChar b bytes).1.getD '\uFFFD' :: lossyChars (bytes.drop (firstChar b bytes).2)
termination_by bytes => bytes.length
decreasing_by simp

def lossy (bytes : Bytes) : String := String.ofList (lossyChars bytes)

/-! ## Line breaks -/

/-- A line break is in none of the ranges. -/
theorem matched_newline {ranges : List (UInt8 × UInt8)} (above : ∀ range ∈ ranges, 0x80 ≤ range.1)
    (before after : Bytes) :
    matched ranges (before ++ NEWLINE :: after) = matched ranges before := by
  induction ranges generalizing before with
  | nil => cases before <;> rfl
  | cons range ranges ih =>
    have ⟨low, high⟩ := range
    cases before with
    | nil =>
      apply if_neg
      intro inside
      have lower : (0x80 : UInt8) ≤ low := above (low, high) (List.mem_cons_self ..)
      have reached : (0x80 : UInt8) ≤ NEWLINE := UInt8.le_trans lower inside.1
      exact absurd reached (by decide)
    | cons b before =>
      have rest := ih (fun range there => above range (List.mem_cons_of_mem _ there)) before
      show (if low ≤ b ∧ b ≤ high then matched ranges (before ++ NEWLINE :: after) + 1 else 0) = _
      rw [rest]
      rfl

theorem matched_le (ranges : List (UInt8 × UInt8)) (bytes : Bytes) :
    matched ranges bytes ≤ bytes.length := by
  induction ranges generalizing bytes with
  | nil => cases bytes <;> exact Nat.zero_le _
  | cons range ranges ih =>
    cases bytes with
    | nil => exact Nat.zero_le _
    | cons b bytes =>
      have := ih bytes
      have ⟨low, high⟩ := range
      show (if low ≤ b ∧ b ≤ high then matched ranges bytes + 1 else 0) ≤ bytes.length + 1
      split
      · omega
      · exact Nat.zero_le _

theorem lead_above {b : UInt8} {bits : Nat} {ranges : List (UInt8 × UInt8)}
    (found : lead b = some (bits, ranges)) : ∀ range ∈ ranges, 0x80 ≤ range.1 := by
  unfold lead at found
  simp only at found
  repeat' split at found
  all_goals first
    | contradiction
    | (rw [← (Prod.mk.inj (Option.some.inj found)).2]
       intro range there
       simp only [List.mem_cons, List.not_mem_nil, or_false] at there
       rcases there with rfl | rfl | rfl <;> decide)

theorem firstChar_newline (b : UInt8) (before after : Bytes) :
    firstChar b (before ++ NEWLINE :: after) = firstChar b before := by
  unfold firstChar
  split
  · rfl
  · cases found : lead b with
    | none => rfl
    | some row =>
      have ⟨bits, ranges⟩ := row
      have bound := matched_le ranges before
      simp only [matched_newline (lead_above found), List.take_append_of_le_length bound]

theorem firstChar_le (b : UInt8) (bytes : Bytes) : (firstChar b bytes).2 ≤ bytes.length := by
  unfold firstChar
  split
  · exact Nat.zero_le _
  · split
    · exact Nat.zero_le _
    · simp only
      split
      · exact matched_le _ _
      · exact matched_le _ _

/-- Text ends at a line break: what follows does not change it.  By induction on the bytes before
the line break. -/
theorem lossyChars_newline (before after : Bytes) :
    lossyChars (before ++ NEWLINE :: after) =
      lossyChars before ++ '\n' :: lossyChars after := by
  induction before using lossyChars.induct with
  | case1 =>
    rw [List.nil_append, lossyChars, lossyChars]
    rfl
  | case2 b before ih =>
    have bound := firstChar_le b before
    rw [List.cons_append, lossyChars, firstChar_newline, List.drop_append_of_le_length bound, ih]
    rw [lossyChars, List.cons_append]

/-- Whole lines are converted one by one. -/
theorem lossyChars_lines (lines : List Bytes) (after : Bytes) :
    lossyChars ((lines.map (· ++ [NEWLINE])).flatten ++ after) =
      (lines.flatMap fun line => lossyChars line ++ ['\n']) ++ lossyChars after := by
  induction lines with
  | nil => rfl
  | cons line lines ih =>
    have split : ((line :: lines).map (· ++ [NEWLINE])).flatten ++ after =
        line ++ NEWLINE :: ((lines.map (· ++ [NEWLINE])).flatten ++ after) := by simp
    rw [split, lossyChars_newline, ih]
    simp

/-! ## Texts that were encoded -/

theorem toNat_byte {n : Nat} (small : n < 256) : (UInt8.ofNat n).toNat = n := by
  rw [UInt8.toNat_ofNat']
  exact Nat.mod_eq_of_lt small

/-- A byte that continues a character. -/
def continuation (n : Nat) : UInt8 := UInt8.ofNat (n % 64 + 128)

theorem toNat_continuation (n : Nat) : (continuation n).toNat = n % 64 + 128 :=
  toNat_byte (by omega)

theorem continuation_inside (n : Nat) :
    (0x80 : UInt8).toNat ≤ (continuation n).toNat ∧
      (continuation n).toNat ≤ (0xBF : UInt8).toNat := by
  rw [toNat_continuation]
  show 128 ≤ _ ∧ _ ≤ 191
  omega

theorem matched_cons {low high b : UInt8} (inside : low.toNat ≤ b.toNat ∧ b.toNat ≤ high.toNat)
    (ranges : List (UInt8 × UInt8)) (bytes : Bytes) :
    matched ((low, high) :: ranges) (b :: bytes) = matched ranges bytes + 1 :=
  if_pos ⟨UInt8.le_iff_toNat_le.mpr inside.1, UInt8.le_iff_toNat_le.mpr inside.2⟩

/-- What a first byte says, as a number. -/
theorem lead_eq {b : UInt8} {n : Nat} (value : b.toNat = n) : lead b =
    if 0xC2 ≤ n ∧ n ≤ 0xDF then some (n - 0xC0, [(0x80, 0xBF)])
    else if n = 0xE0 then some (0, [(0xA0, 0xBF), (0x80, 0xBF)])
    else if n = 0xED then some (0xD, [(0x80, 0x9F), (0x80, 0xBF)])
    else if 0xE1 ≤ n ∧ n ≤ 0xEF then some (n - 0xE0, [(0x80, 0xBF), (0x80, 0xBF)])
    else if n = 0xF0 then some (0, [(0x90, 0xBF), (0x80, 0xBF), (0x80, 0xBF)])
    else if 0xF1 ≤ n ∧ n ≤ 0xF3 then
      some (n - 0xF0, [(0x80, 0xBF), (0x80, 0xBF), (0x80, 0xBF)])
    else if n = 0xF4 then some (4, [(0x80, 0x8F), (0x80, 0xBF), (0x80, 0xBF)])
    else none := by
  subst value
  simp only [lead, UInt8.le_iff_toNat_le, ← UInt8.toNat_inj]
  rfl

theorem firstChar_several {b : UInt8} {bytes rest : Bytes} {bits : Nat}
    {ranges : List (UInt8 × UInt8)} {c : Char} (high : 0x80 ≤ b.toNat)
    (leads : lead b = some (bits, ranges)) (all : matched ranges (bytes ++ rest) = ranges.length)
    (length : bytes.length = ranges.length)
    (value : bytes.foldl (fun v b => 64 * v + (b.toNat - 0x80)) bits = c.toNat) :
    firstChar b (bytes ++ rest) = (some c, bytes.length) := by
  have several : ¬ b < 0x80 := by
    rw [UInt8.lt_iff_toNat_lt]
    exact Nat.not_lt.mpr high
  unfold firstChar
  rw [if_neg several, leads]
  dsimp only
  rw [if_pos all, all, ← length, List.take_left, value, Char.ofNat_toNat]

theorem firstChar_encode (c : Char) (rest : Bytes) :
    ∃ b bytes, String.utf8EncodeChar c = b :: bytes ∧
      firstChar b (bytes ++ rest) = (some c, bytes.length) := by
  have valid : c.toNat < 0xD800 ∨ 0xDFFF < c.toNat ∧ c.toNat < 0x110000 := c.valid
  have code : c.val.toNat = c.toNat := rfl
  unfold String.utf8EncodeChar
  simp only [code]
  by_cases one : c.toNat ≤ 0x7f
  · rw [if_pos one]
    refine ⟨_, [], rfl, ?_⟩
    have low : UInt8.ofNat c.toNat < 0x80 := by
      rw [UInt8.lt_iff_toNat_lt, toNat_byte (by omega)]
      exact Nat.lt_succ_of_le one
    unfold firstChar
    rw [if_pos low, toNat_byte (by omega), Char.ofNat_toNat]
    rfl
  · rw [if_neg one]
    by_cases two : c.toNat ≤ 0x7ff
    · rw [if_pos two]
      refine ⟨_, [continuation c.toNat], rfl, ?_⟩
      have first := toNat_byte (show c.toNat / 64 % 0x20 + 0xc0 < 256 by omega)
      have ranges : lead (UInt8.ofNat (c.toNat / 64 % 0x20 + 0xc0)) =
          some (c.toNat / 64, [(0x80, 0xBF)]) := by
        rw [lead_eq first, if_pos (by omega)]
        have : c.toNat / 64 % 0x20 + 0xc0 - 0xC0 = c.toNat / 64 := by omega
        rw [this]
      apply firstChar_several (by omega) ranges
      · rw [List.singleton_append, matched_cons (continuation_inside _)]
        rfl
      · rfl
      · simp only [List.foldl_cons, List.foldl_nil, toNat_continuation]
        omega
    · rw [if_neg two]
      by_cases three : c.toNat ≤ 0xffff
      · rw [if_pos three]
        refine ⟨_, [continuation (c.toNat / 64), continuation c.toNat], rfl, ?_⟩
        have first := toNat_byte (show c.toNat / 4096 % 0x10 + 0xe0 < 256 by omega)
        have ranges : ∃ low high, lead (UInt8.ofNat (c.toNat / 4096 % 0x10 + 0xe0)) =
              some (c.toNat / 4096, [(low, high), (0x80, 0xBF)]) ∧
            low.toNat ≤ c.toNat / 64 % 64 + 128 ∧ c.toNat / 64 % 64 + 128 ≤ high.toNat := by
          rw [lead_eq first, if_neg (by omega)]
          -- the second byte has a range of its own below U+1000 and before the surrogates
          by_cases lowest : c.toNat / 4096 = 0
          · refine ⟨0xA0, 0xBF, ?_, ?_, ?_⟩
            · rw [if_pos (by omega), lowest]
            · show 0xA0 ≤ _
              omega
            · show _ ≤ 0xBF
              omega
          · rw [if_neg (by omega)]
            by_cases before : c.toNat / 4096 = 13
            · refine ⟨0x80, 0x9F, ?_, ?_, ?_⟩
              · rw [if_pos (by omega), before]
              · show 0x80 ≤ _
                omega
              · show _ ≤ 0x9F
                omega
            · refine ⟨0x80, 0xBF, ?_, ?_, ?_⟩
              · rw [if_neg (by omega), if_pos (by omega)]
                have bits : c.toNat / 4096 % 0x10 + 0xe0 - 0xE0 = c.toNat / 4096 := by omega
                rw [bits]
              · show 0x80 ≤ _
                omega
              · show _ ≤ 0xBF
                omega
        have ⟨low, high, leads, inside⟩ := ranges
        apply firstChar_several (by omega) leads
        · rw [List.cons_append, List.singleton_append,
            matched_cons (by rw [toNat_continuation]; exact inside),
            matched_cons (continuation_inside _)]
          rfl
        · rfl
        · simp only [List.foldl_cons, List.foldl_nil, toNat_continuation]
          omega
      · rw [if_neg three]
        refine ⟨_, [continuation (c.toNat / 4096), continuation (c.toNat / 64),
          continuation c.toNat], rfl, ?_⟩
        have first := toNat_byte (show c.toNat / 262144 % 0x08 + 0xf0 < 256 by omega)
        have ranges : ∃ low high, lead (UInt8.ofNat (c.toNat / 262144 % 0x08 + 0xf0)) =
              some (c.toNat / 262144, [(low, high), (0x80, 0xBF), (0x80, 0xBF)]) ∧
            low.toNat ≤ c.toNat / 4096 % 64 + 128 ∧ c.toNat / 4096 % 64 + 128 ≤ high.toNat := by
          rw [lead_eq first, if_neg (by omega), if_neg (by omega), if_neg (by omega),
            if_neg (by omega)]
          -- and here below U+40000 and at the last plane
          by_cases lowest : c.toNat / 262144 = 0
          · refine ⟨0x90, 0xBF, ?_, ?_, ?_⟩
            · rw [if_pos (by omega), lowest]
            · show 0x90 ≤ _
              omega
            · show _ ≤ 0xBF
              omega
          · rw [if_neg (by omega)]
            by_cases last : c.toNat / 262144 = 4
            · refine ⟨0x80, 0x8F, ?_, ?_, ?_⟩
              · rw [if_neg (by omega), if_pos (by omega), last]
              · show 0x80 ≤ _
                omega
              · show _ ≤ 0x8F
                omega
            · refine ⟨0x80, 0xBF, ?_, ?_, ?_⟩
              · rw [if_pos (by omega)]
                have bits : c.toNat / 262144 % 0x08 + 0xf0 - 0xF0 = c.toNat / 262144 := by omega
                rw [bits]
              · show 0x80 ≤ _
                omega
              · show _ ≤ 0xBF
                omega
        have ⟨low, high, leads, inside⟩ := ranges
        apply firstChar_several (by omega) leads
        · rw [List.cons_append, List.cons_append, List.singleton_append,
            matched_cons (by rw [toNat_continuation]; exact inside),
            matched_cons (continuation_inside _), matched_cons (continuation_inside _)]
          rfl
        · rfl
        · simp only [List.foldl_cons, List.foldl_nil, toNat_continuation]
          omega

/-- A text that was encoded is decoded again. -/
theorem lossyChars_encode (text : List Char) :
    lossyChars (text.flatMap String.utf8EncodeChar) = text := by
  induction text with
  | nil => rw [List.flatMap_nil, lossyChars]
  | cons c text ih =>
    have ⟨b, bytes, encoded, first⟩ := firstChar_encode c (text.flatMap String.utf8EncodeChar)
    rw [List.flatMap_cons, encoded, List.cons_append, lossyChars, first]
    dsimp only
    rw [List.drop_left, ih]
    rfl

/-! ## Texts that were read -/

theorem toNat_ofNat_char {n : Nat} (valid : n < 0xD800 ∨ 0xDFFF < n ∧ n < 0x110000) :
    (Char.ofNat n).val.toNat = n := by
  unfold Char.ofNat
  rw [dif_pos valid]
  rfl

/-- Bytes that lie in the ranges, one after the other. -/
theorem matched_all {low high : UInt8} {ranges : List (UInt8 × UInt8)} {bytes : Bytes}
    (all : matched ((low, high) :: ranges) bytes = ranges.length + 1) :
    ∃ b rest, bytes = b :: rest ∧ (low.toNat ≤ b.toNat ∧ b.toNat ≤ high.toNat) ∧
      matched ranges rest = ranges.length := by
  cases bytes with
  | nil => cases all
  | cons b rest =>
    by_cases inside : low ≤ b ∧ b ≤ high
    · have next : matched ranges rest + 1 = ranges.length + 1 := by
        rw [← all]
        exact (if_pos inside).symm
      exact ⟨b, rest, rfl, ⟨UInt8.le_iff_toNat_le.mp inside.1, UInt8.le_iff_toNat_le.mp inside.2⟩,
        Nat.succ.inj next⟩
    · have none : matched ((low, high) :: ranges) (b :: rest) = 0 := if_neg inside
      rw [none] at all
      cases all

theorem ofNat_eq {b : UInt8} {n : Nat} (value : b.toNat = n) : UInt8.ofNat n = b := by
  rw [← value, UInt8.ofNat_toNat]

/-- What a first byte of several says: how many follow, and between which values. -/
theorem lead_cases {b : UInt8} {bits : Nat} {ranges : List (UInt8 × UInt8)}
    (found : lead b = some (bits, ranges)) :
    (ranges = [(0x80, 0xBF)] ∧ b.toNat = bits + 0xC0 ∧ 2 ≤ bits ∧ bits < 0x20) ∨
    (∃ low high : UInt8, ranges = [(low, high), (0x80, 0xBF)] ∧ b.toNat = bits + 0xE0 ∧
      bits < 0x10 ∧ 128 ≤ low.toNat ∧ high.toNat ≤ 191 ∧ (bits = 0 → 160 ≤ low.toNat) ∧
      (bits = 0xD → high.toNat ≤ 159)) ∨
    ∃ low high : UInt8, ranges = [(low, high), (0x80, 0xBF), (0x80, 0xBF)] ∧
      b.toNat = bits + 0xF0 ∧ bits < 5 ∧ 128 ≤ low.toNat ∧ high.toNat ≤ 191 ∧
      (bits = 0 → 144 ≤ low.toNat) ∧ (bits = 4 → high.toNat ≤ 143) := by
  rw [lead_eq rfl] at found
  repeat' split at found
  all_goals first
    | contradiction
    | (have ⟨first, second⟩ := Prod.mk.inj (Option.some.inj found)
       subst first second)
  · exact .inl ⟨rfl, by omega⟩
  · exact .inr (.inl ⟨0xA0, 0xBF, rfl, by omega, by decide⟩)
  · exact .inr (.inl ⟨0x80, 0x9F, rfl, by omega, by decide⟩)
  · refine .inr (.inl ⟨0x80, 0xBF, rfl, by omega, by omega, by decide, by decide, ?_, ?_⟩)
    · intro zero
      omega
    · intro surrogates
      omega
  · exact .inr (.inr ⟨0x90, 0xBF, rfl, by omega, by decide⟩)
  · refine .inr (.inr ⟨0x80, 0xBF, rfl, by omega, by omega, by decide, by decide, ?_, ?_⟩)
    · intro zero
      omega
    · intro last
      omega
  · exact .inr (.inr ⟨0x80, 0x8F, rfl, by omega, by decide⟩)

theorem encode_two {c : Char} {b x : UInt8} {bits : Nat}
    (first : b.toNat = bits + 0xC0 ∧ 2 ≤ bits ∧ bits < 0x20)
    (second : 0x80 ≤ x.toNat ∧ x.toNat ≤ 0xBF)
    (value : c.val.toNat = 64 * bits + (x.toNat - 0x80)) : String.utf8EncodeChar c = [b, x] := by
  unfold String.utf8EncodeChar
  simp only [value]
  rw [if_neg (by omega), if_pos (by omega), ofNat_eq (b := b) (by omega),
    ofNat_eq (b := x) (by omega)]

theorem encode_three {c : Char} {b x y : UInt8} {bits : Nat}
    (first : b.toNat = bits + 0xE0 ∧ bits < 0x10) (second : 0x80 ≤ x.toNat ∧ x.toNat ≤ 0xBF)
    (third : 0x80 ≤ y.toNat ∧ y.toNat ≤ 0xBF) (least : bits = 0 → 0xA0 ≤ x.toNat)
    (value : c.val.toNat = 64 * (64 * bits + (x.toNat - 0x80)) + (y.toNat - 0x80)) :
    String.utf8EncodeChar c = [b, x, y] := by
  unfold String.utf8EncodeChar
  simp only [value]
  rw [if_neg (by omega), if_neg (by omega), if_pos (by omega), ofNat_eq (b := b) (by omega),
    ofNat_eq (b := x) (by omega), ofNat_eq (b := y) (by omega)]

theorem encode_four {c : Char} {b x y z : UInt8} {bits : Nat}
    (first : b.toNat = bits + 0xF0 ∧ bits < 5) (second : 0x80 ≤ x.toNat ∧ x.toNat ≤ 0xBF)
    (third : 0x80 ≤ y.toNat ∧ y.toNat ≤ 0xBF) (fourth : 0x80 ≤ z.toNat ∧ z.toNat ≤ 0xBF)
    (least : bits = 0 → 0x90 ≤ x.toNat)
    (value : c.val.toNat =
      64 * (64 * (64 * bits + (x.toNat - 0x80)) + (y.toNat - 0x80)) + (z.toNat - 0x80)) :
    String.utf8EncodeChar c = [b, x, y, z] := by
  unfold String.utf8EncodeChar
  simp only [value]
  rw [if_neg (by omega), if_neg (by omega), if_neg (by omega), ofNat_eq (b := b) (by omega),
    ofNat_eq (b := x) (by omega), ofNat_eq (b := y) (by omega), ofNat_eq (b := z) (by omega)]

/-- The bytes of a character that was read are those it is encoded to. -/
theorem encode_firstChar {b : UInt8} {bytes : Bytes} {c : Char}
    (read : (firstChar b bytes).1 = some c) :
    String.utf8EncodeChar c = b :: bytes.take (firstChar b bytes).2 := by
  unfold firstChar at read ⊢
  by_cases single : b < 0x80
  · rw [if_pos single] at read ⊢
    have low : b.toNat < 128 := UInt8.lt_iff_toNat_lt.mp single
    have value : c.val.toNat = b.toNat := by
      rw [← Option.some.inj read]
      exact toNat_ofNat_char (by omega)
    unfold String.utf8EncodeChar
    simp only [value]
    rw [if_pos (by omega), UInt8.ofNat_toNat]
    rfl
  · rw [if_neg single] at read ⊢
    cases found : lead b with
    | none =>
      rw [found] at read
      cases read
    | some row =>
      have ⟨bits, ranges⟩ := row
      rw [found] at read
      dsimp only at read ⊢
      by_cases all : matched ranges bytes = ranges.length
      · rw [if_pos all, all] at read ⊢
        have value := Option.some.inj read
        rcases lead_cases found with ⟨rfl, first, small⟩ | ⟨low, high, rfl, first, small, bounds⟩ |
          ⟨low, high, rfl, first, small, bounds⟩
        · have ⟨x, rest, here, second, _⟩ := matched_all all
          subst here
          have second : 128 ≤ x.toNat ∧ x.toNat ≤ 191 := second
          apply encode_two ⟨first, small⟩ second
          have valid : ∀ v, v = 64 * bits + (x.toNat - 0x80) → v < 0xD800 := by omega
          rw [← value]
          exact toNat_ofNat_char (.inl (valid _ rfl))
        · have ⟨x, more, here, second, one⟩ := matched_all all
          subst here
          have ⟨y, rest, here, third, _⟩ := matched_all one
          subst here
          have third : 128 ≤ y.toNat ∧ y.toNat ≤ 191 := third
          have inside : 128 ≤ x.toNat ∧ x.toNat ≤ 191 := by omega
          apply encode_three ⟨first, small⟩ inside third (by omega)
          have valid : ∀ v, v = 64 * (64 * bits + (x.toNat - 0x80)) + (y.toNat - 0x80) →
              v < 0xD800 ∨ 0xDFFF < v ∧ v < 0x110000 := by omega
          rw [← value]
          exact toNat_ofNat_char (valid _ rfl)
        · have ⟨x, more, here, second, two⟩ := matched_all all
          subst here
          have ⟨y, more, here, third, one⟩ := matched_all two
          subst here
          have ⟨z, rest, here, fourth, _⟩ := matched_all one
          subst here
          have third : 128 ≤ y.toNat ∧ y.toNat ≤ 191 := third
          have fourth : 128 ≤ z.toNat ∧ z.toNat ≤ 191 := fourth
          have inside : 128 ≤ x.toNat ∧ x.toNat ≤ 191 := by omega
          apply encode_four ⟨first, small⟩ inside third fourth (by omega)
          have valid : ∀ v, v = 64 * (64 * (64 * bits + (x.toNat - 0x80)) + (y.toNat - 0x80)) +
              (z.toNat - 0x80) → 0xDFFF < v ∧ v < 0x110000 := by omega
          rw [← value]
          exact toNat_ofNat_char (.inr (valid _ rfl))
      · rw [if_neg all] at read
        cases read

/-- A line break is read from a line break alone. -/
theorem notMem_lossyChars {bytes : Bytes} (absent : NEWLINE ∉ bytes) : '\n' ∉ lossyChars bytes := by
  induction bytes using lossyChars.induct with
  | case1 =>
    rw [lossyChars]
    exact List.not_mem_nil
  | case2 b bytes ih =>
    rw [lossyChars, List.mem_cons, not_or]
    rw [List.mem_cons, not_or] at absent
    constructor
    · intro same
      cases read : (firstChar b bytes).1 with
      | none =>
        rw [read] at same
        cases same
      | some c =>
        rw [read] at same
        have encoded := encode_firstChar read
        rw [show c = '\n' from same.symm] at encoded
        exact absent.1 (List.cons.inj encoded).1
    · exact ih fun there => absent.2 (List.mem_of_mem_drop there)

/-- A text without a replacement character is the bytes it was read from. -/
theorem encode_lossyChars {bytes : Bytes} (clean : '\uFFFD' ∉ lossyChars bytes) :
    (lossyChars bytes).flatMap String.utf8EncodeChar = bytes := by
  induction bytes using lossyChars.induct with
  | case1 => rw [lossyChars, List.flatMap_nil]
  | case2 b bytes ih =>
    rw [lossyChars, List.mem_cons, not_or] at clean
    rw [lossyChars, List.flatMap_cons, ih clean.2]
    cases read : (firstChar b bytes).1 with
    | none => exact absurd (by rw [read]; rfl) clean.1
    | some c =>
      show String.utf8EncodeChar c ++ _ = _
      rw [encode_firstChar read, List.cons_append, List.take_append_drop]

/-- What was read at the end stood there, if all of it could be read. -/
theorem suffix_of_lossyChars {bytes : Bytes} {before after : List Char}
    (read : lossyChars bytes = before ++ after) (clean : '\uFFFD' ∉ after) :
    after.flatMap String.utf8EncodeChar <:+ bytes := by
  induction bytes using lossyChars.induct generalizing before with
  | case1 =>
    rw [lossyChars] at read
    rw [(List.append_eq_nil_iff.mp read.symm).2]
    exact List.suffix_rfl
  | case2 b bytes ih =>
    cases before with
    | nil =>
      have all : lossyChars (b :: bytes) = after := read
      rw [← all] at clean ⊢
      rw [encode_lossyChars clean]
    | cons c before =>
      rw [lossyChars] at read
      have later : bytes.drop (firstChar b bytes).2 <:+ b :: bytes :=
        (List.drop_suffix _ _).trans (List.suffix_cons _ _)
      exact (ih (List.cons.inj read).2).trans later

/-- The lines of a text are read one by one. -/
theorem splitInclusive_lossyChars (bytes : Bytes) :
    splitInclusive '\n' (lossyChars bytes) = (splitInclusive NEWLINE bytes).map lossyChars := by
  conv_lhs => rw [← flatten_splitInclusive NEWLINE bytes]
  have cut := cut_splitInclusive NEWLINE bytes
  generalize splitInclusive NEWLINE bytes = lines at cut
  induction lines with
  | nil =>
    show splitInclusive _ (lossyChars []) = _
    rw [lossyChars]
    rfl
  | cons line lines ih =>
    rcases cut with ⟨⟨body, absent, rfl⟩, later⟩ | ⟨⟨some, absent⟩, rfl⟩
    · rw [List.flatten_cons, List.append_assoc, List.singleton_append, lossyChars_newline,
        List.map_cons, lossyChars_newline]
      have nothing : lossyChars [] = [] := by rw [lossyChars]
      rw [nothing, ← ih later, ← List.singleton_append, ← List.append_assoc]
      exact splitInclusive_ended '\n' ⟨_, notMem_lossyChars absent, rfl⟩ _
    · rw [List.flatten_cons, List.flatten_nil, List.append_nil]
      apply splitInclusive_open '\n' _ (notMem_lossyChars absent)
      cases line with
      | nil => contradiction
      | cons b bytes =>
        rw [lossyChars]
        exact List.cons_ne_nil _ _

theorem notMem_encode {text : List Char} (absent : '\n' ∉ text) :
    NEWLINE ∉ text.flatMap String.utf8EncodeChar := by
  intro there
  have ⟨before, after, split⟩ := List.append_of_mem there
  have read := lossyChars_encode text
  rw [split, lossyChars_newline] at read
  rw [← read] at absent
  exact absent (List.mem_append_right _ (List.mem_cons_self ..))

theorem cut_encode {lines : List (List Char)} (cut : Cut '\n' lines) :
    Cut NEWLINE (lines.map fun line => line.flatMap String.utf8EncodeChar) := by
  induction lines with
  | nil => trivial
  | cons line lines ih =>
    rcases cut with ⟨⟨body, absent, rfl⟩, later⟩ | ⟨⟨some, absent⟩, rfl⟩
    · apply Or.inl
      refine ⟨⟨body.flatMap String.utf8EncodeChar, notMem_encode absent, ?_⟩, ih later⟩
      exact List.flatMap_append ..
    · apply Or.inr
      refine ⟨⟨?_, notMem_encode absent⟩, rfl⟩
      intro none
      have nothing : line.flatMap String.utf8EncodeChar = [] := none
      have read := lossyChars_encode line
      rw [nothing, lossyChars] at read
      exact some read.symm

/-- The lines of a text are encoded one by one. -/
theorem splitInclusive_encode (text : List Char) :
    splitInclusive NEWLINE (text.flatMap String.utf8EncodeChar) =
      (splitInclusive '\n' text).map fun line => line.flatMap String.utf8EncodeChar := by
  have cut := cut_encode (cut_splitInclusive '\n' text)
  have whole := splitInclusive_flatten NEWLINE _ cut
  rw [← List.flatMap_def, ← List.flatMap_assoc, List.flatMap_id', flatten_splitInclusive] at whole
  exact whole

end Flightdeck
