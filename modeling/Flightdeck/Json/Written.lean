import Flightdeck.Json.Grammar

/-!
# Values and their spellings

What `from_value` makes of a value, and what value is written then: a number keeps its text but for
the spelling of a floating-point one, which reads as the same number.
-/

namespace Flightdeck.OrderedJson

open StrictJson (Value Bytes Library DEPTH kind strict decode utf8)
open StrictJson.Library Texts

variable {F : Type} [Texts F]

/-! ## Values -/

/-- What a number of a `Value` is, and that a map has no key twice. -/
inductive Sound : Value → Prop
  | null : Sound .null
  | bool (b : Bool) : Sound (.bool b)
  | number {text : String} : isNumber text.toList = true → Sound (.number text)
  | string (text : String) : Sound (.string text)
  | array {values : List Value} : (∀ value ∈ values, Sound value) → Sound (.array values)
  | object {fields : List (String × Value)} : (fields.map Prod.fst).Nodup →
      (∀ field ∈ fields, Sound field.2) → Sound (.object fields)

/-- All numbers of a value. -/
inductive Numbers (P : String → Prop) : Value → Prop
  | null : Numbers P .null
  | bool (b : Bool) : Numbers P (.bool b)
  | number {text : String} : P text → Numbers P (.number text)
  | string (text : String) : Numbers P (.string text)
  | array {values : List Value} : (∀ value ∈ values, Numbers P value) → Numbers P (.array values)
  | object {fields : List (String × Value)} : (∀ field ∈ fields, Numbers P field.2) →
      Numbers P (.object fields)

/-- No number is written with a point or an exponent. -/
def Integral (value : Value) : Prop := Numbers (fun text => isIntegral text = true) value

/-! ## Ordered values -/

mutual

/-- The value that is written. -/
def written : Ordered F → Value
  | .null => .null
  | .bool b => .bool b
  | .integer text => .number text
  | .float f => .number (String.ofList (floatText f))
  | .string text => .string text
  | .array values => .array (writtenItems values)
  | .object fields => .object (writtenFields fields)

def writtenItems : List (Ordered F) → List Value
  | [] => []
  | value :: values => written value :: writtenItems values

def writtenFields : List (String × Ordered F) → List (String × Value)
  | [] => []
  | field :: fields => writtenField field :: writtenFields fields

def writtenField : String × Ordered F → String × Value
  | (key, value) => (key, written value)

end

theorem writtenItems_eq (values : List (Ordered F)) : writtenItems values = values.map written := by
  induction values with
  | nil => rfl
  | cons value values ih => rw [writtenItems, ih, List.map_cons]

theorem writtenFields_eq (fields : List (String × Ordered F)) :
    writtenFields fields = fields.map fun field => (field.1, written field.2) := by
  induction fields with
  | nil => rfl
  | cons field fields ih =>
    have ⟨key, value⟩ := field
    rw [writtenFields, ih, List.map_cons, writtenField]

/-- What `from_value` makes of a sound value. -/
inductive Good : Ordered F → Prop
  | null : Good .null
  | bool (b : Bool) : Good (.bool b)
  | integer {text : String} : isNumber text.toList = true → isIntegral text = true →
      Good (.integer text)
  | float (f : F) : Good (.float f)
  | string (text : String) : Good (.string text)
  | array {values : List (Ordered F)} : (∀ value ∈ values, Good value) → Good (.array values)
  | object {fields : List (String × Ordered F)} : (fields.map Prod.fst).Nodup →
      (∀ field ∈ fields, Good field.2) → Good (.object fields)

theorem fromValues_eq (values : List Value) (os : List (Ordered F)) :
    fromValues values = some os ↔
      List.Forall₂ (fun value o => fromValue value = some o) values os := by
  induction values generalizing os with
  | nil => simp [fromValues, eq_comm]
  | cons value values ih =>
    rw [List.forall₂_cons_left_iff]
    simp only [fromValues, Option.bind_eq_bind, Option.bind_eq_some_iff, Option.pure_def,
      Option.some.injEq]
    apply Iff.intro
    · intro ⟨o, first, os', rest, same⟩
      exact ⟨o, os', first, (ih os').mp rest, same.symm⟩
    · intro ⟨o, os', first, rest, same⟩
      exact ⟨o, first, os', (ih os').mpr rest, same.symm⟩

theorem fromFields_eq (fields : List (String × Value)) (os : List (String × Ordered F)) :
    fromFields fields = some os ↔
      List.Forall₂ (fun field o => field.1 = o.1 ∧ fromValue field.2 = some o.2) fields os := by
  induction fields generalizing os with
  | nil => simp [fromFields, eq_comm]
  | cons field fields ih =>
    have ⟨key, value⟩ := field
    rw [List.forall₂_cons_left_iff]
    simp only [fromFields, fromField, Option.bind_eq_bind, Option.bind_eq_some_iff,
      Option.pure_def, Option.some.injEq]
    apply Iff.intro
    · intro ⟨o, ⟨o', first, same⟩, os', rest, same'⟩
      subst same
      exact ⟨(key, o'), os', ⟨rfl, first⟩, (ih os').mp rest, same'.symm⟩
    · intro ⟨o, os', first, rest, same⟩
      exact ⟨(key, o.2), ⟨o.2, first.2, rfl⟩, os', (ih os').mpr rest, by rw [same, first.1]⟩

theorem isIntegral_or_asFinite {text : String} {o : Ordered F}
    (read : fromValue (.number text) = some o) :
    isIntegral text = true ∧ o = .integer text ∨
      isIntegral text = false ∧ ∃ f, asFinite text = some f ∧ o = .float f := by
  unfold fromValue at read
  cases integral : isIntegral text with
  | true =>
    rw [integral, if_pos rfl, Option.some.injEq] at read
    exact .inl ⟨rfl, read.symm⟩
  | false =>
    rw [integral, if_neg (by decide)] at read
    have ⟨f, known, same⟩ := Option.map_eq_some_iff.mp read
    exact .inr ⟨rfl, f, known, same.symm⟩

/-- A sound value is taken in, if its floating-point numbers are finite. -/
theorem fromValue_some {value : Value} (sound : Sound value)
    (finite : Numbers (fun text => isIntegral text = true ∨ (asFinite (F := F) text).isSome = true)
      value) : ∃ o : Ordered F, fromValue value = some o := by
  induction sound with
  | null => exact ⟨_, rfl⟩
  | bool b => exact ⟨_, rfl⟩
  | @number text fine =>
    cases finite with
    | number known =>
      unfold fromValue
      rcases known with integral | known
      · exact ⟨_, if_pos integral⟩
      · have ⟨f, found⟩ := Option.isSome_iff_exists.mp known
        by_cases integral : isIntegral text = true
        · exact ⟨_, if_pos integral⟩
        · rw [if_neg integral, found]
          exact ⟨_, rfl⟩
  | string text => exact ⟨_, rfl⟩
  | array fine ih =>
    cases finite with
    | array known =>
      have ⟨os, read⟩ := StrictJson.exists_forall₂.mpr fun value there =>
        ih value there (known value there)
      rw [← fromValues_eq] at read
      exact ⟨.array os, by rw [fromValue, read]; rfl⟩
  | object distinct fine ih =>
    cases finite with
    | object known =>
      have ⟨os, read⟩ := StrictJson.exists_forall₂.mpr fun field there =>
        have ⟨o, first⟩ := ih field there (known field there)
        (⟨(field.1, o), rfl, first⟩ : ∃ o' : String × Ordered F,
          field.1 = o'.1 ∧ fromValue field.2 = some o'.2)
      rw [← fromFields_eq] at read
      exact ⟨.object os, by rw [fromValue, read]; rfl⟩

theorem keys_forall₂ {fields : List (String × Value)} {os : List (String × Ordered F)}
    (read : List.Forall₂ (fun field o => field.1 = o.1 ∧ fromValue field.2 = some o.2) fields os) :
    os.map Prod.fst = fields.map Prod.fst := by
  induction read with
  | nil => rfl
  | cons first rest ih => rw [List.map_cons, List.map_cons, ih, first.1]

theorem forall₂_right {α β : Type} {R : α → β → Prop} {as : List α} {bs : List β}
    (all : List.Forall₂ R as bs) : ∀ b ∈ bs, ∃ a ∈ as, R a b := by
  induction all with
  | nil => simp
  | cons first rest ih =>
    intro b there
    rcases List.mem_cons.mp there with rfl | there
    · exact ⟨_, List.mem_cons_self .., first⟩
    · have ⟨a, inside, holds⟩ := ih b there
      exact ⟨a, List.mem_cons_of_mem _ inside, holds⟩

/-- What is taken in of a sound value. -/
theorem good_of_sound {value : Value} (sound : Sound value) :
    ∀ {o : Ordered F}, fromValue value = some o → Good o := by
  induction sound with
  | null =>
    intro o read
    cases read
    exact .null
  | bool b =>
    intro o read
    cases read
    exact .bool b
  | number fine =>
    intro o read
    rcases isIntegral_or_asFinite read with ⟨integral, same⟩ | ⟨_, f, _, same⟩
    · rw [same]
      exact .integer fine integral
    · rw [same]
      exact .float f
  | string text =>
    intro o read
    cases read
    exact .string text
  | array fine ih =>
    intro o read
    have ⟨os, known, same⟩ := Option.map_eq_some_iff.mp read
    rw [fromValues_eq] at known
    rw [← same]
    apply Good.array
    intro o there
    have ⟨value, inside, first⟩ := forall₂_right known o there
    exact ih value inside first
  | object distinct fine ih =>
    intro o read
    have ⟨os, known, same⟩ := Option.map_eq_some_iff.mp read
    rw [fromFields_eq] at known
    rw [← same]
    apply Good.object
    · rw [keys_forall₂ known]
      exact distinct
    · intro o there
      have ⟨field, inside, _, first⟩ := forall₂_right known o there
      exact ih field inside first

/-- Without floating-point numbers, what is written is the value. -/
theorem written_integral {value : Value} (sound : Sound value) (integral : Integral value) :
    ∀ {o : Ordered F}, fromValue value = some o → written o = value := by
  induction sound with
  | null =>
    intro o read
    cases read
    rfl
  | bool b =>
    intro o read
    cases read
    rfl
  | number fine =>
    intro o read
    cases integral with
    | number integral =>
      rcases isIntegral_or_asFinite read with ⟨_, same⟩ | ⟨other, _⟩
      · rw [same]
        rfl
      · rw [integral] at other
        cases other
  | string text =>
    intro o read
    cases read
    rfl
  | array fine ih =>
    intro o read
    have ⟨os, known, same⟩ := Option.map_eq_some_iff.mp read
    rw [fromValues_eq] at known
    rw [← same, written, writtenItems_eq]
    congr 1
    cases integral with
    | array integral =>
      clear read same
      induction known with
      | nil => rfl
      | cons first rest ih' =>
        rw [List.map_cons, ih _ (List.mem_cons_self ..) (integral _ (List.mem_cons_self ..)) first,
          ih' (fun value there => fine value (List.mem_cons_of_mem _ there))
            (fun value there => ih value (List.mem_cons_of_mem _ there))
            (fun value there => integral value (List.mem_cons_of_mem _ there))]
  | object distinct fine ih =>
    intro o read
    have ⟨os, known, same⟩ := Option.map_eq_some_iff.mp read
    rw [fromFields_eq] at known
    rw [← same, written, writtenFields_eq]
    congr 1
    cases integral with
    | object integral =>
      clear read same distinct
      induction known with
      | nil => rfl
      | cons first rest ih' =>
        rw [List.map_cons, ← first.1,
          ih _ (List.mem_cons_self ..) (integral _ (List.mem_cons_self ..)) first.2,
          ih' (fun value there => fine value (List.mem_cons_of_mem _ there))
            (fun value there => ih value (List.mem_cons_of_mem _ there))
            (fun value there => integral value (List.mem_cons_of_mem _ there))]

/-! ## Spellings of numbers -/

theorem isDigits_twoDigits (n : Nat) : isDigits (twoDigits n) = true := by
  have digits : (Nat.toDigits 10 n).all Char.isDigit = true := by
    rw [List.all_eq_true]
    intro c there
    exact Nat.isDigit_of_mem_toDigits (by decide) (by decide) there
  have some : Nat.toDigits 10 n ≠ [] := Nat.toDigits_ne_nil
  unfold twoDigits isDigits
  by_cases small : n < 10
  · simp [if_pos small, digits]
  · simp [if_neg small, digits, some]

theorem ofDigitChars_twoDigits (n : Nat) : Nat.ofDigitChars 10 (twoDigits n) 0 = n := by
  unfold twoDigits
  by_cases small : n < 10
  · rw [if_pos small, Nat.ofDigitChars_cons]
    exact Nat.ofDigitChars_ten_toDigits
  · rw [if_neg small]
    exact Nat.ofDigitChars_ten_toDigits

/-- The exponent as it is written. -/
def exponentText (e : Int) : List Char :=
  'e' :: (if e < 0 then '-' else '+') :: twoDigits e.natAbs

theorem isExponent_exponentText (e : Int) : isExponent (exponentText e) = true := by
  have digits := isDigits_twoDigits e.natAbs
  unfold exponentText isExponent
  by_cases negative : e < 0
  · simp [negative, digits]
  · simp [negative, digits]

theorem takeWhile_before {text rest : List Char} (other : rest.head?.any Char.isDigit = false) :
    (text ++ rest).takeWhile Char.isDigit = text.takeWhile Char.isDigit := by
  induction text with
  | nil =>
    cases rest with
    | nil => rfl
    | cons c rest => exact List.takeWhile_cons_of_neg (by simpa using other)
  | cons c text ih =>
    by_cases digit : c.isDigit = true
    · rw [List.cons_append, List.takeWhile_cons_of_pos digit, List.takeWhile_cons_of_pos digit, ih]
    · rw [List.cons_append, List.takeWhile_cons_of_neg digit, List.takeWhile_cons_of_neg digit]

theorem dropWhile_before {text rest : List Char} (other : rest.head?.any Char.isDigit = false) :
    (text ++ rest).dropWhile Char.isDigit = text.dropWhile Char.isDigit ++ rest := by
  induction text with
  | nil =>
    cases rest with
    | nil => rfl
    | cons c rest => exact List.dropWhile_cons_of_neg (by simpa using other)
  | cons c text ih =>
    by_cases digit : c.isDigit = true
    · rw [List.cons_append, List.dropWhile_cons_of_pos digit, List.dropWhile_cons_of_pos digit, ih]
    · rw [List.cons_append, List.dropWhile_cons_of_neg digit, List.dropWhile_cons_of_neg digit]
      rfl

theorem exponent_cons {c : Char} {text : List Char} (exponent : isExponent (c :: text) = true) :
    c = 'e' ∨ c = 'E' := by
  unfold isExponent at exponent
  rw [Bool.and_eq_true] at exponent
  simpa using exponent.1

theorem isFraction_cons (c : Char) (rest : List Char) : isFraction (c :: rest) =
    if c = '.' then
      isDigits (rest.takeWhile Char.isDigit) && isExponent (rest.dropWhile Char.isDigit)
    else isExponent (c :: rest) := rfl

/-- A fraction without an exponent may be followed by one. -/
theorem isFraction_append {text rest : List Char} (fraction : isFraction text = true)
    (lower : 'e' ∉ text) (upper : 'E' ∉ text) (exponent : isExponent rest = true)
    (other : rest.head?.any Char.isDigit = false) (point : rest.head? ≠ some '.') :
    isFraction (text ++ rest) = true := by
  have start : ∀ {c : Char} {more : List Char}, isExponent (c :: more) = true →
      c = 'e' ∨ c = 'E' := exponent_cons
  cases text with
  | nil =>
    cases rest with
    | nil => rfl
    | cons c rest =>
      rw [List.nil_append, isFraction_cons, if_neg (by simpa using point)]
      exact exponent
  | cons c text =>
    rw [List.mem_cons, not_or] at lower upper
    rw [isFraction_cons] at fraction
    rw [List.cons_append, isFraction_cons]
    by_cases dot : c = '.'
    · rw [if_pos dot, Bool.and_eq_true] at fraction
      rw [if_pos dot, takeWhile_before other, dropWhile_before other,
        fraction.1, Bool.true_and]
      cases left : text.dropWhile Char.isDigit with
      | nil => exact exponent
      | cons d more =>
        rw [left] at fraction
        have there : d ∈ text := by
          apply (List.dropWhile_suffix Char.isDigit).subset
          rw [left]
          exact List.mem_cons_self ..
        rcases start fraction.2 with rfl | rfl
        · exact absurd there lower.2
        · exact absurd there upper.2
    · rw [if_neg dot] at fraction
      rcases start fraction with rfl | rfl
      · exact absurd rfl lower.1
      · exact absurd rfl upper.1

theorem isUnsigned_append {text rest : List Char} (number : isUnsigned text = true)
    (lower : 'e' ∉ text) (upper : 'E' ∉ text) (exponent : isExponent rest = true)
    (other : rest.head?.any Char.isDigit = false) (point : rest.head? ≠ some '.') :
    isUnsigned (text ++ rest) = true := by
  have inside := (List.dropWhile_suffix (l := text) Char.isDigit).subset
  unfold isUnsigned at number ⊢
  rw [Bool.and_eq_true] at number ⊢
  rw [takeWhile_before other, dropWhile_before other]
  exact ⟨number.1, isFraction_append number.2 (fun there => lower (inside there))
    (fun there => upper (inside there)) exponent other point⟩

theorem isNumber_cons (c : Char) (text : List Char) : isNumber (c :: text) =
    if c = '-' then isUnsigned text else isUnsigned (c :: text) := rfl

theorem isNumber_append {text rest : List Char} (number : isNumber text = true)
    (lower : 'e' ∉ text) (upper : 'E' ∉ text) (exponent : isExponent rest = true)
    (other : rest.head?.any Char.isDigit = false) (point : rest.head? ≠ some '.') :
    isNumber (text ++ rest) = true := by
  cases text with
  | nil => cases number
  | cons c text =>
    have more := (List.mem_cons (a := 'e') (b := c) (l := text)).not.mp lower
    have more' := (List.mem_cons (a := 'E') (b := c) (l := text)).not.mp upper
    rw [not_or] at more more'
    rw [isNumber_cons] at number
    rw [List.cons_append, isNumber_cons]
    by_cases negative : c = '-'
    · rw [if_pos negative] at number ⊢
      exact isUnsigned_append number more.2 more'.2 exponent other point
    · rw [if_neg negative] at number ⊢
      exact isUnsigned_append number lower upper exponent other point

section

variable [Spells F]

omit [Spells F] in
theorem floatText_eq (f : F) : floatText f = (debug f).1 ++ ((debug f).2.elim [] exponentText) := by
  unfold floatText
  cases known : debug f with
  | mk significand exponent =>
    cases exponent with
    | none => exact (List.append_nil _).symm
    | some e => rfl

omit [Spells F] in
theorem floatText_none {f : F} (known : (debug f).2 = none) : floatText f = (debug f).1 := by
  rw [floatText_eq, known, Option.elim_none, List.append_nil]

omit [Spells F] in
theorem floatText_some {f : F} {e : Int} (known : (debug f).2 = some e) :
    floatText f = (debug f).1 ++ exponentText e := by
  rw [floatText_eq, known, Option.elim_some]

theorem asFinite_floatText (f : F) : asFinite (String.ofList (floatText f)) = some f := by
  cases known : (debug f).2 with
  | none =>
    rw [floatText_none known]
    exact Spells.plain f known
  | some e =>
    rw [floatText_some known]
    exact Spells.exponent f e (twoDigits e.natAbs) known (isDigits_twoDigits _)
      (ofDigitChars_twoDigits _)

theorem isIntegral_floatText (f : F) : isIntegral (String.ofList (floatText f)) = false := by
  have special : ∃ c ∈ floatText f, (c ≠ '.' && c ≠ 'e' && c ≠ 'E') = false := by
    cases known : (debug f).2 with
    | none =>
      rw [floatText_none known]
      exact ⟨'.', Spells.point f known, by decide⟩
    | some e =>
      rw [floatText_some known]
      exact ⟨'e', List.mem_append_right _ (List.mem_cons_self ..), by decide⟩
  have ⟨c, there, fails⟩ := special
  unfold isIntegral
  rw [String.toList_ofList, List.all_eq_false]
  exact ⟨c, there, by simpa using fails⟩

theorem isNumber_floatText (f : F) : isNumber (floatText f) = true := by
  have ⟨number, lower, upper⟩ := Spells.significand f
  cases known : (debug f).2 with
  | none =>
    rw [floatText_none known]
    exact number
  | some e =>
    rw [floatText_some known]
    exact isNumber_append number lower upper (isExponent_exponentText e) rfl
      (by simp [exponentText])

/-- What is written is taken in as it was. -/
theorem fromValue_written {o : Ordered F} (good : Good o) : fromValue (written o) = some o := by
  induction good with
  | null => rfl
  | bool b => rfl
  | integer fine integral =>
    rw [written, fromValue, if_pos integral]
  | float f =>
    rw [written, fromValue, isIntegral_floatText, if_neg (by decide), asFinite_floatText]
    rfl
  | string text => rfl
  | @array values fine ih =>
    have all : fromValues (writtenItems values) = some values := by
      rw [fromValues_eq, writtenItems_eq, List.forall₂_map_left_iff]
      exact List.forall₂_same.mpr ih
    rw [written, fromValue, all]
    rfl
  | @object fields distinct fine ih =>
    have all : fromFields (writtenFields fields) = some fields := by
      rw [fromFields_eq, writtenFields_eq, List.forall₂_map_left_iff]
      exact List.forall₂_same.mpr fun field there => ⟨rfl, ih field there⟩
    rw [written, fromValue, all]
    rfl

end

end Flightdeck.OrderedJson
