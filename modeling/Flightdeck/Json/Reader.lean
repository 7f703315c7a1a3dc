import Flightdeck.Foundation.Unicode
import Flightdeck.Json.RoundTrip
import Mathlib.Data.List.DropRight

/-!
# A reader of JSON

A reader that takes a text apart at its outermost commas.  It reads every text of JSON as the
library documents it, with quotes and backslashes as the only characters that are escaped.
-/

namespace Flightdeck.OrderedJson

open StrictJson (Value Bytes Library DEPTH kind decode utf8)
open StrictJson.Library Texts

/-! ## Taking a text apart -/

inductive Mode where
  | out | inString | escaped
  deriving DecidableEq

structure Scanner where
  mode : Mode := .out
  depth : Nat := 0
  parts : List (List Char) := []
  part : List Char := []

/-- The characters that a scanner looks at outside of strings. -/
def isStructural (c : Char) : Bool :=
  c = '"' || c = '[' || c = ']' || c = '\x7b' || c = '\x7d' || c = ','

def Scanner.step (s : Scanner) (c : Char) : Scanner :=
  match s.mode with
  | .escaped => { s with mode := .inString, part := s.part ++ [c] }
  | .inString =>
    { s with
      mode := if c = '\\' then .escaped else if c = '"' then .out else .inString
      part := s.part ++ [c] }
  | .out =>
    if c = '"' then { s with mode := .inString, part := s.part ++ [c] }
    else if c = '[' ∨ c = '\x7b' then { s with depth := s.depth + 1, part := s.part ++ [c] }
    else if c = ']' ∨ c = '\x7d' then { s with depth := s.depth - 1, part := s.part ++ [c] }
    else if c = ',' ∧ s.depth = 0 then { s with parts := s.parts ++ [s.part], part := [] }
    else { s with part := s.part ++ [c] }

def Scanner.run (s : Scanner) (text : List Char) : Scanner := text.foldl Scanner.step s

def splitTop (text : List Char) : List (List Char) :=
  let s := Scanner.run {} text
  s.parts ++ [s.part]

def trim (text : List Char) : List Char := (text.dropWhile isBlank).rdropWhile isBlank

/-- What stands between the brackets. -/
def inner (text : List Char) : List Char := text.tail.dropLast

/-- A quoted text after its opening quote, and what follows it. -/
def unquote : List Char → Option (List Char × List Char)
  | [] => none
  | [c] => if c = '"' then some ([], []) else none
  | c :: d :: rest =>
    if c = '"' then some ([], d :: rest)
    else if c = '\\' then (unquote rest).map fun (text, rest) => (d :: text, rest)
    else (unquote (d :: rest)).map fun (text, rest) => (c :: text, rest)

/-- A member that a part consists of. -/
def readMember (part : List Char) : Option (String × String) :=
  match part.dropWhile isBlank with
  | '"' :: rest => do
    let (key, rest) ← unquote rest
    match rest.dropWhile isBlank with
    | ':' :: value => some (String.ofList key, String.ofList (trim value))
    | _ => none
  | _ => none

def readScalar (text : String) : Option Value :=
  if isNumber text.toList then some (.number text)
  else if text = "null" then some .null
  else if text = "true" then some (.bool true)
  else if text = "false" then some (.bool false)
  else do
    let (content, _) ← unquote text.toList.tail
    return .string (String.ofList content)

/-- The characters that are escaped. -/
def quoteChar (c : Char) : List Char := if c = '"' ∨ c = '\\' then ['\\', c] else [c]

/-- The texts of strings; an integer of at most 308 digits is finite. -/
@[reducible] def sampleTexts : Texts Unit where
  quote text := '"' :: (text.toList.flatMap quoteChar ++ ['"'])
  asFinite text := if text.length ≤ 308 then some () else none
  debug _ := ("0.0".toList, none)

@[reducible] def reader : Library where
  capture bytes := (Foundation.utf8Chars bytes).map fun text => String.ofList (trim text)
  items text :=
    let body := inner text.toList
    if body.all isBlank then some []
    else some ((splitTop body).map fun part => String.ofList (trim part))
  members text :=
    let body := inner text.toList
    if body.all isBlank then some [] else (splitTop body).mapM readMember
  parse _ := readScalar
  isFinite text := text.length ≤ 308

attribute [local instance] sampleTexts reader

/-! ## Texts that are one part -/

theorem run_append (s : Scanner) (a b : List Char) : s.run (a ++ b) = (s.run a).run b :=
  List.foldl_append

def Scanner.add (s : Scanner) (text : List Char) : Scanner := { s with part := s.part ++ text }

@[simp] theorem Scanner.add_add (s : Scanner) (a b : List Char) :
    (s.add a).add b = s.add (a ++ b) := by
  simp [Scanner.add]

/-- The scanner only collects the text. -/
def Neutral (text : List Char) : Prop := ∀ s : Scanner, s.mode = .out → s.run text = s.add text

/-- The scanner only collects the text within brackets. -/
def Deep (text : List Char) : Prop :=
  ∀ s : Scanner, s.mode = .out → 0 < s.depth → s.run text = s.add text

theorem Neutral.deep {text : List Char} (neutral : Neutral text) : Deep text :=
  fun s out _ => neutral s out

theorem Neutral.append {a b : List Char} (first : Neutral a) (second : Neutral b) :
    Neutral (a ++ b) := by
  intro s out
  rw [run_append, first s out, second (s.add a) out, Scanner.add_add]

theorem Deep.append {a b : List Char} (first : Deep a) (second : Deep b) : Deep (a ++ b) := by
  intro s out deep
  rw [run_append, first s out deep, second (s.add a) out deep, Scanner.add_add]

theorem neutral_nil : Neutral [] := by
  intro s _
  simp [Scanner.run, Scanner.add]

theorem neutral_plain {text : List Char} (plain : text.all (fun c => !isStructural c) = true) :
    Neutral text := by
  induction text with
  | nil => exact neutral_nil
  | cons c text ih =>
    rw [List.all_cons, Bool.and_eq_true] at plain
    have other := plain.1
    simp only [isStructural, Bool.not_eq_true', Bool.or_eq_false_iff, decide_eq_false_iff_not]
      at other
    have one : Neutral [c] := by
      intro s out
      simp [Scanner.run, Scanner.step, Scanner.add, out, other]
    exact one.append (ih plain.2)

theorem deep_comma : Deep [','] := by
  intro s out deep
  have positive : s.depth ≠ 0 := by omega
  simp [Scanner.run, Scanner.step, Scanner.add, out, positive]

theorem Deep.joined {parts : List (List Char)} (all : ∀ part ∈ parts, Deep part) :
    Deep (joined parts) := by
  induction parts with
  | nil => exact neutral_nil.deep
  | cons part parts ih =>
    have first := all part (List.mem_cons_self ..)
    cases parts with
    | nil => exact first
    | cons next parts =>
      rw [joined_cons part (by simp)]
      have rest := ih fun part there => all part (List.mem_cons_of_mem _ there)
      exact first.append (deep_comma.append rest)

/-- A text between an opening and a closing bracket. -/
theorem neutral_between {first last : Char} {body : List Char} (deep : Deep body)
    (opens : first = '[' ∨ first = '\x7b') (closes : last = ']' ∨ last = '\x7d') :
    Neutral (first :: (body ++ [last])) := by
  intro s out
  let inside : Scanner := { s with depth := s.depth + 1, part := s.part ++ [first] }
  have opened : s.run [first] = inside := by
    rcases opens with rfl | rfl
    · simp [Scanner.run, Scanner.step, out, inside]
    · simp [Scanner.run, Scanner.step, out, inside]
  show s.run ([first] ++ (body ++ [last])) = _
  rw [run_append, run_append, opened, deep inside out (by simp [inside])]
  rcases closes with rfl | rfl
  · simp [Scanner.run, Scanner.step, Scanner.add, out, inside]
  · simp [Scanner.run, Scanner.step, Scanner.add, out, inside]

theorem run_quoteChars (text : List Char) (s : Scanner) (inside : s.mode = .inString) :
    s.run (text.flatMap quoteChar) = s.add (text.flatMap quoteChar) := by
  induction text generalizing s with
  | nil => simp [Scanner.run, Scanner.add]
  | cons c text ih =>
    have one : s.run (quoteChar c) = s.add (quoteChar c) := by
      unfold quoteChar
      by_cases special : c = '"' ∨ c = '\\'
      · rw [if_pos special]
        simp [Scanner.run, Scanner.step, Scanner.add, inside]
      · rw [if_neg special]
        rw [not_or] at special
        simp [Scanner.run, Scanner.step, Scanner.add, inside, special]
    rw [List.flatMap_cons, run_append, one, ih (s.add (quoteChar c)) inside, Scanner.add_add]

theorem neutral_quote (text : String) : Neutral (quote Unit text) := by
  intro s out
  let inside : Scanner := { s with mode := .inString, part := s.part ++ ['"'] }
  have opened : s.run ['"'] = inside := by
    simp [Scanner.run, Scanner.step, out, inside]
  show s.run (['"'] ++ (text.toList.flatMap quoteChar ++ ['"'])) = _
  rw [run_append, run_append, opened, run_quoteChars _ inside rfl]
  simp [Scanner.run, Scanner.step, Scanner.add, out, inside]
  rfl

/-! ## Numbers -/

/-- The characters of numbers. -/
def isNumberChar (c : Char) : Bool :=
  c.isDigit || c = '-' || c = '+' || c = '.' || c = 'e' || c = 'E'

theorem all_digits {text : List Char} (digits : isDigits text = true) :
    text.all isNumberChar = true := by
  unfold isDigits at digits
  rw [Bool.and_eq_true, List.all_eq_true] at digits
  rw [List.all_eq_true]
  intro c there
  unfold isNumberChar
  rw [digits.2 c there]
  rfl

theorem all_exponent {text : List Char} (exponent : isExponent text = true) :
    text.all isNumberChar = true := by
  cases text with
  | nil => rfl
  | cons c text =>
    have start : isNumberChar c = true := by
      rcases exponent_cons exponent with rfl | rfl
      · rfl
      · rfl
    unfold isExponent at exponent
    rw [Bool.and_eq_true] at exponent
    rw [List.all_cons, start, Bool.true_and]
    have digits := all_digits exponent.2
    cases text with
    | nil => rfl
    | cons d text =>
      by_cases sign : d = '-' ∨ d = '+'
      · have known : isNumberChar d = true := by
          rcases sign with rfl | rfl
          · rfl
          · rfl
        simp only [List.head?_cons, Option.some.injEq, if_pos sign, List.tail_cons] at digits
        rw [List.all_cons, known, digits]
        rfl
      · simp only [List.head?_cons, Option.some.injEq, if_neg sign] at digits
        exact digits

theorem all_fraction {text : List Char} (fraction : isFraction text = true) :
    text.all isNumberChar = true := by
  cases text with
  | nil => rfl
  | cons c text =>
    rw [isFraction_cons] at fraction
    by_cases dot : c = '.'
    · rw [if_pos dot, Bool.and_eq_true] at fraction
      have known : isNumberChar c = true := by
        subst dot
        rfl
      rw [List.all_cons, known, Bool.true_and,
        ← List.takeWhile_append_dropWhile (p := Char.isDigit) (l := text), List.all_append,
        all_digits fraction.1, all_exponent fraction.2]
      rfl
    · rw [if_neg dot] at fraction
      exact all_exponent fraction

theorem all_unsigned {text : List Char} (number : isUnsigned text = true) :
    text.all isNumberChar = true := by
  unfold isUnsigned at number
  rw [Bool.and_eq_true] at number
  rw [← List.takeWhile_append_dropWhile (p := Char.isDigit) (l := text), List.all_append,
    all_fraction number.2, Bool.and_true, List.all_eq_true]
  intro c there
  have digit := List.mem_takeWhile_imp there
  unfold isNumberChar
  rw [digit]
  rfl

theorem all_number {text : List Char} (number : isNumber text = true) :
    text.all isNumberChar = true := by
  cases text with
  | nil => rfl
  | cons c text =>
    rw [isNumber_cons] at number
    by_cases negative : c = '-'
    · rw [if_pos negative] at number
      have known : isNumberChar c = true := by
        subst negative
        rfl
      rw [List.all_cons, known, all_unsigned number]
      rfl
    · rw [if_neg negative] at number
      exact all_unsigned number

theorem structural_cases {c : Char} (structural : isStructural c = true) :
    isNumberChar c = false ∧ isBlank c = false := by
  have known : c = '"' ∨ c = '[' ∨ c = ']' ∨ c = '\x7b' ∨ c = '\x7d' ∨ c = ',' := by
    simpa [isStructural, or_assoc] using structural
  rcases known with rfl | rfl | rfl | rfl | rfl | rfl
  all_goals decide

theorem blank_cases {c : Char} (blank : isBlank c = true) : isNumberChar c = false := by
  have known : c = ' ' ∨ c = '\n' ∨ c = '\r' ∨ c = '\t' := by
    simpa [isBlank, or_assoc] using blank
  rcases known with rfl | rfl | rfl | rfl
  all_goals decide

theorem neutral_number {text : List Char} (number : isNumber text = true) : Neutral text := by
  apply neutral_plain
  rw [List.all_eq_true]
  intro c there
  have known := List.all_eq_true.mp (all_number number) c there
  cases structural : isStructural c with
  | false => rfl
  | true =>
    rw [(structural_cases structural).1] at known
    cases known

theorem neutral_blank {text : List Char} (blank : text.all isBlank = true) : Neutral text := by
  apply neutral_plain
  rw [List.all_eq_true]
  intro c there
  have known := List.all_eq_true.mp blank c there
  cases structural : isStructural c with
  | false => rfl
  | true =>
    rw [(structural_cases structural).2] at known
    cases known

theorem neutral_item {item : Item} (spaced : item.Spaced) (text : Neutral item.text) :
    Neutral item.chars :=
  ((neutral_blank spaced.1).append text).append (neutral_blank spaced.2)

theorem neutral_member {member : Member} (spaced : member.Spaced)
    (text : Neutral member.value.text) : Neutral (member.chars Unit) := by
  have colon : Neutral [':'] := neutral_plain rfl
  have value := colon.append (neutral_item spaced.2.2 text)
  exact (((neutral_blank spaced.1).append (neutral_quote member.key)).append
    (neutral_blank spaced.2.1)).append value

/-- A text of JSON is one part. -/
theorem neutral_json {text : List Char} (json : Json Unit text) : Neutral text := by
  induction json with
  | null => exact neutral_plain (by decide)
  | false => exact neutral_plain (by decide)
  | true => exact neutral_plain (by decide)
  | number number => exact neutral_number number
  | string text => exact neutral_quote text
  | noItems blank => exact neutral_between (neutral_blank blank).deep (.inl rfl) (.inl rfl)
  | @array items some spaced _ ih =>
    apply neutral_between _ (.inl rfl) (.inl rfl)
    apply Deep.joined
    intro part there
    have ⟨item, inside, same⟩ := List.mem_map.mp there
    rw [← same]
    exact (neutral_item (spaced item inside) (ih item inside)).deep
  | noMembers blank => exact neutral_between (neutral_blank blank).deep (.inr rfl) (.inr rfl)
  | @object members some spaced _ ih =>
    apply neutral_between _ (.inr rfl) (.inr rfl)
    apply Deep.joined
    intro part there
    have ⟨member, inside, same⟩ := List.mem_map.mp there
    rw [← same]
    exact (neutral_member (spaced member inside) (ih member inside)).deep

/-- Parts with commas between them are taken apart where the commas are. -/
theorem run_joined {parts : List (List Char)} (some : parts ≠ [])
    (neutral : ∀ part ∈ parts, Neutral part) : ∀ s : Scanner, s.mode = .out → s.depth = 0 →
      s.part = [] → (s.run (joined parts)).parts ++ [(s.run (joined parts)).part] =
        s.parts ++ parts := by
  induction parts with
  | nil => exact absurd rfl some
  | cons part parts ih =>
    intro s out top fresh
    have first := neutral part (List.mem_cons_self ..) s out
    cases parts with
    | nil =>
      rw [OrderedJson.joined, first]
      simp [Scanner.add, fresh]
    | cons next parts =>
      let later : Scanner := { s with parts := s.parts ++ [part], part := [] }
      have cut : (s.add part).run [','] = later := by
        simp [Scanner.run, Scanner.step, Scanner.add, out, top, fresh, later]
      have rest := ih (by simp) (fun part there => neutral part (List.mem_cons_of_mem _ there))
        later out top rfl
      rw [joined_cons part (by simp), run_append, first]
      show ((s.add part).run ([','] ++ joined (next :: parts))).parts ++
        [((s.add part).run ([','] ++ joined (next :: parts))).part] = _
      rw [run_append, cut, rest]
      simp [later]

theorem splitTop_joined {parts : List (List Char)} (some : parts ≠ [])
    (neutral : ∀ part ∈ parts, Neutral part) : splitTop (joined parts) = parts := by
  have all := run_joined some neutral {} rfl rfl rfl
  rw [List.nil_append] at all
  exact all

/-! ## Blanks -/

/-- A text that begins and ends with a character that is no blank. -/
def Tight (text : List Char) : Prop :=
  (∃ c rest, text = c :: rest ∧ isBlank c = false) ∧
    ∃ front c, text = front ++ [c] ∧ isBlank c = false

theorem trim_blanks {before text after : List Char} (blank : before.all isBlank = true)
    (tight : Tight text) (blank' : after.all isBlank = true) :
    trim (before ++ text ++ after) = text := by
  have ⟨⟨c, rest, same, other⟩, front, d, same', other'⟩ := tight
  have start : (before ++ text ++ after).dropWhile isBlank = text ++ after := by
    rw [List.append_assoc, List.dropWhile_append_of_pos (List.all_eq_true.mp blank), same,
      List.cons_append, List.dropWhile_cons_of_neg (by simp [other])]
  have back : ∀ c ∈ after.reverse, isBlank c = true := by
    intro c there
    exact List.all_eq_true.mp blank' c (List.mem_reverse.mp there)
  unfold trim
  rw [start, List.rdropWhile, List.reverse_append, List.dropWhile_append_of_pos back]
  conv_lhs => rw [same', List.reverse_append, List.reverse_singleton, List.singleton_append,
    List.dropWhile_cons_of_neg (by simp [other'])]
  rw [List.reverse_cons, List.reverse_reverse, same']

theorem tight_of_all {text : List Char} (some : text ≠ [])
    (all : text.all (fun c => !isBlank c) = true) : Tight text := by
  have each : ∀ c ∈ text, isBlank c = false := by
    intro c there
    have plain := List.all_eq_true.mp all c there
    rwa [Bool.not_eq_true'] at plain
  cases text with
  | nil => exact absurd rfl some
  | cons c rest =>
    apply And.intro
    · exact ⟨c, rest, rfl, each c (List.mem_cons_self ..)⟩
    · exact ⟨_, _, (List.dropLast_append_getLast some).symm, each _ (List.getLast_mem some)⟩

theorem tight_between {first last : Char} (body : List Char) (left : isBlank first = false)
    (right : isBlank last = false) : Tight (first :: (body ++ [last])) :=
  ⟨⟨first, body ++ [last], rfl, left⟩, first :: body, last, rfl, right⟩

theorem tight_json {text : List Char} (json : Json Unit text) : Tight text := by
  cases json with
  | null => exact tight_of_all (by decide) (by decide)
  | false => exact tight_of_all (by decide) (by decide)
  | true => exact tight_of_all (by decide) (by decide)
  | number number =>
    apply tight_of_all
    · intro empty
      subst empty
      cases number
    · apply List.all_eq_true.mpr
      intro c there
      have known := List.all_eq_true.mp (all_number number) c there
      cases blank : isBlank c with
      | false => rfl
      | true =>
        rw [blank_cases blank] at known
        cases known
  | string text => exact tight_between _ (by decide) (by decide)
  | noItems _ => exact tight_between _ (by decide) (by decide)
  | array _ _ _ => exact tight_between _ (by decide) (by decide)
  | noMembers _ => exact tight_between _ (by decide) (by decide)
  | object _ _ _ => exact tight_between _ (by decide) (by decide)

/-! ## The reader -/

theorem inner_between (first last : Char) (body : List Char) :
    inner (first :: (body ++ [last])) = body := by
  unfold inner
  rw [List.tail_cons, List.dropLast_concat]

theorem mem_joined {parts : List (List Char)} {part : List Char} (there : part ∈ parts) {c : Char}
    (inside : c ∈ part) : c ∈ joined parts := by
  induction parts with
  | nil => cases there
  | cons first parts ih =>
    cases parts with
    | nil =>
      rw [List.mem_singleton.mp there] at inside
      exact inside
    | cons next parts =>
      rw [joined_cons first (by simp), List.mem_append, List.mem_cons]
      rcases List.mem_cons.mp there with rfl | there
      · exact .inl inside
      · exact .inr (.inr (ih there))

/-- Something stands between the brackets. -/
theorem joined_not_blank {parts : List (List Char)} {part before text after : List Char}
    (there : part ∈ parts) (same : part = before ++ text ++ after) (tight : Tight text) :
    (joined parts).all isBlank = false := by
  have ⟨⟨c, rest, first, other⟩, _⟩ := tight
  rw [List.all_eq_false]
  refine ⟨c, mem_joined there ?_, by simp [other]⟩
  simp [same, first]

theorem unquote_quoteChars (text rest : List Char) :
    unquote (text.flatMap quoteChar ++ '"' :: rest) = some (text, rest) := by
  induction text with
  | nil =>
    cases rest with
    | nil => rfl
    | cons d rest => rfl
  | cons c text ih =>
    rw [List.flatMap_cons, List.append_assoc]
    unfold quoteChar
    by_cases special : c = '"' ∨ c = '\\'
    · rw [if_pos special]
      show unquote ('\\' :: c :: (text.flatMap quoteChar ++ '"' :: rest)) = _
      unfold unquote
      rw [if_neg (by decide), if_pos rfl, ih]
      rfl
    · rw [if_neg special]
      rw [not_or] at special
      show unquote (c :: (text.flatMap quoteChar ++ '"' :: rest)) = _
      cases more : text.flatMap quoteChar ++ '"' :: rest with
      | nil => simp at more
      | cons d left =>
        rw [more] at ih
        unfold unquote
        rw [if_neg special.1, if_neg special.2, ih]
        rfl

theorem readMember_chars {member : Member} (spaced : member.Spaced)
    (tight : Tight member.value.text) : readMember (member.chars Unit) =
      some (member.key, String.ofList member.value.text) := by
  have value := trim_blanks spaced.2.2.1 tight spaced.2.2.2
  have start : (member.chars Unit).dropWhile isBlank = '"' ::
      (member.key.toList.flatMap quoteChar ++
        '"' :: (member.between ++ ':' :: member.value.chars)) := by
    unfold Member.chars
    rw [List.append_assoc, List.append_assoc, List.dropWhile_append_of_pos
      (List.all_eq_true.mp spaced.1)]
    show ('"' :: (_ ++ ['"']) ++ (member.between ++ _)).dropWhile isBlank = _
    rw [List.cons_append, List.dropWhile_cons_of_neg (by decide), List.append_assoc]
    rfl
  have colon : (member.between ++ ':' :: member.value.chars).dropWhile isBlank =
      ':' :: member.value.chars := by
    rw [List.dropWhile_append_of_pos (List.all_eq_true.mp spaced.2.1),
      List.dropWhile_cons_of_neg (by decide)]
  unfold readMember
  rw [start]
  simp only [unquote_quoteChars, Option.bind_eq_bind, Option.bind_some, colon]
  unfold Item.chars
  rw [value, String.ofList_toList]

theorem isNumber_quote (text : String) : isNumber (quote Unit text) = false := rfl

theorem documented_reader : Documented Unit where
  quote_head _ := rfl
  capture before text after blank json blank' := by
    show (Foundation.utf8Chars (Foundation.utf8 _)).map _ = _
    rw [Foundation.utf8Chars_utf8, Option.map_some, String.toList_ofList,
      trim_blanks blank (tight_json json) blank']
  noItems blanks blank := by
    show (if (inner _).all isBlank = true then _ else _) = _
    rw [String.toList_ofList, bracketed, inner_between, if_pos blank]
  someItems rows some spaced json := by
    obtain ⟨first, there⟩ := List.exists_mem_of_ne_nil rows some
    have listed : first.before ++ first.text ++ first.after ∈ rows.map Item.chars :=
      List.mem_map.mpr ⟨first, there, rfl⟩
    have full := joined_not_blank listed rfl (tight_json (json first there))
    have parts : rows.map Item.chars ≠ [] := by simpa using some
    have cut := splitTop_joined parts (by
      intro part inside
      obtain ⟨row, listed, same⟩ := List.mem_map.mp inside
      rw [← same]
      exact neutral_item (spaced row listed) (neutral_json (json row listed)))
    show (if (inner _).all isBlank = true then _ else _) = _
    rw [String.toList_ofList, bracketed, inner_between, if_neg (by simp [full]), cut, List.map_map]
    congr 1
    apply List.map_congr_left
    intro row listed
    exact congrArg String.ofList
      (trim_blanks (spaced row listed).1 (tight_json (json row listed)) (spaced row listed).2)
  noMembers blanks blank := by
    show (if (inner _).all isBlank = true then _ else _) = _
    rw [String.toList_ofList, braced, inner_between, if_pos blank]
  someMembers rows some spaced json := by
    obtain ⟨first, there⟩ := List.exists_mem_of_ne_nil rows some
    have quoted : Tight (quote Unit first.key) := tight_between _ (by decide) (by decide)
    have listed : first.before ++ quote Unit first.key ++
        (first.between ++ ':' :: first.value.chars) ∈ rows.map (Member.chars Unit) := by
      refine List.mem_map.mpr ⟨first, there, ?_⟩
      simp [Member.chars]
    have full := joined_not_blank listed rfl quoted
    have parts : rows.map (Member.chars Unit) ≠ [] := by simpa using some
    have cut := splitTop_joined parts (by
      intro part inside
      obtain ⟨row, listed, same⟩ := List.mem_map.mp inside
      rw [← same]
      exact neutral_member (spaced row listed) (neutral_json (json row listed)))
    show (if (inner _).all isBlank = true then _ else _) = _
    rw [String.toList_ofList, braced, inner_between, if_neg (by simp [full]), cut]
    apply StrictJson.mapM_of_forall₂
    rw [List.forall₂_map_left_iff, List.forall₂_map_right_iff]
    apply List.forall₂_same.mpr
    intro row listed
    exact readMember_chars (spaced row listed) (tight_json (json row listed))
  null := by
    show readScalar "null" = _
    unfold readScalar
    rw [if_neg (by decide), if_pos rfl]
  bool b := by
    cases b with
    | true =>
      show readScalar "true" = _
      unfold readScalar
      rw [if_neg (by decide), if_neg (by decide), if_pos (by decide)]
    | false =>
      show readScalar "false" = _
      unfold readScalar
      rw [if_neg (by decide), if_neg (by decide), if_neg (by decide), if_pos (by decide)]
  number text number := if_pos number
  string text := by
    have other : ∀ word : String, word.toList.head? ≠ some '"' →
        String.ofList (quote Unit text) ≠ word := by
      intro word different same
      rw [← same, String.toList_ofList] at different
      exact different rfl
    have content := unquote_quoteChars text.toList []
    show readScalar _ = _
    unfold readScalar
    rw [String.toList_ofList, isNumber_quote, if_neg (by decide),
      if_neg (other "null" (by decide)), if_neg (other "true" (by decide)),
      if_neg (other "false" (by decide))]
    show (unquote (text.toList.flatMap quoteChar ++ ['"']) >>= _) = _
    rw [content, Option.bind_eq_bind, Option.bind_some]
    simp

theorem spells_sample : Spells Unit where
  significand _ := ⟨rfl, by simp [debug], by simp [debug]⟩
  point _ _ := by simp [debug]
  plain f _ := by
    cases f
    decide +kernel
  exponent _ _ _ known := by cases known

/-! ## Values at the ends of the range -/

/-- A draft with its report. -/
def sampleDraft : Value := .object
  [("version", .number "18446744073709551616"),
    ("report", .object [("name", .string "a \"b\""), ("list", .array [.null, .array []])])]

theorem sound_sampleDraft : Sound sampleDraft := by
  have list : Sound (.array [.null, .array []]) := by
    apply Sound.array
    simp only [List.forall_mem_cons]
    exact ⟨.null, .array nofun, nofun⟩
  have report : Sound
      (.object [("name", .string "a \"b\""), ("list", .array [.null, .array []])]) := by
    apply Sound.object (by decide)
    simp only [List.forall_mem_cons]
    exact ⟨.string _, list, nofun⟩
  apply Sound.object (by decide)
  simp only [List.forall_mem_cons]
  exact ⟨.number (by decide), report, nofun⟩

theorem numbers_sampleDraft {P : String → Prop} (holds : P "18446744073709551616") :
    Numbers P sampleDraft := by
  have list : Numbers P (.array [.null, .array []]) := by
    apply Numbers.array
    simp only [List.forall_mem_cons]
    exact ⟨.null, .array nofun, nofun⟩
  have report : Numbers P
      (.object [("name", .string "a \"b\""), ("list", .array [.null, .array []])]) := by
    apply Numbers.object
    simp only [List.forall_mem_cons]
    exact ⟨.string _, list, nofun⟩
  apply Numbers.object
  simp only [List.forall_mem_cons]
  exact ⟨.number holds, report, nofun⟩

theorem ordered_round_trip_sample : ∃ draft bytes, encoded Unit sampleDraft = some draft ∧
    decode draft = some sampleDraft ∧ reportBytes Unit draft = some bytes := by
  have known : ∀ text, reader.isFinite text = (sampleTexts.asFinite text).isSome := by
    intro text
    by_cases short : text.length ≤ 308
    · simp [asFinite, isFinite, short]
    · simp [asFinite, isFinite, short]
  have finite : Finite sampleDraft := numbers_sampleDraft (by decide)
  have integral : Integral sampleDraft := numbers_sampleDraft (by decide)
  have ⟨trip, _, report⟩ :=
    @ordered_round_trip Unit _ spells_sample _ documented_reader known _ sound_sampleDraft
  have ⟨draft, written, read, _⟩ := trip integral finite
  have ⟨draft', bytes, written', _, sent⟩ := report _ _ rfl rfl finite
  have same : draft = draft' := Option.some.inj (written.symm.trans written')
  exact ⟨draft, bytes, written, read, same ▸ sent⟩

/-- An integer that is no floating-point number. -/
def largeDigits : List Char := '1' :: List.replicate 309 '0'

def largeInteger : Value := .number (String.ofList largeDigits)

theorem number_largeDigits : isNumber largeDigits = true := by decide +kernel

theorem integral_largeDigits : isIntegral (String.ofList largeDigits) = true := by
  unfold isIntegral
  rw [String.toList_ofList]
  decide +kernel

theorem length_largeDigits : (String.ofList largeDigits).length = 310 := by
  rw [String.length_ofList]
  decide +kernel

theorem decode_unadmitted {digits : List Char} (number : isNumber digits = true)
    (large : isFinite (String.ofList digits) = false) :
    decode (encodedOrdered (F := Unit) (.integer (String.ofList digits))) = none := by
  have captured := documented_reader.capture [] digits ['\n'] rfl (.number number) rfl
  rw [List.nil_append] at captured
  unfold decode encodedOrdered
  rw [render, String.toList_ofList]
  show capture (utf8 (String.ofList (digits ++ ['\n']))) >>= _ = _
  rw [captured]
  show StrictJson.strict (_ + 1) (String.ofList digits) = none
  rw [Option.eq_none_iff_forall_ne_some]
  intro value read
  obtain ⟨parsed, admitted⟩ := (StrictJson.strict_scalar (kind_number number)).mp read
  have text : isNumber (String.ofList digits).toList = true := by
    rw [String.toList_ofList]
    exact number
  rw [documented_reader.number _ text, Option.some.injEq] at parsed
  rw [← parsed] at admitted
  exact absurd (large.symm.trans admitted) (by decide)

/-- It is written, and what is written is refused. -/
theorem large_integer_refused : Sound largeInteger ∧ Integral largeInteger ∧
    ∃ bytes, encoded Unit largeInteger = some bytes ∧ decode bytes = none := by
  have number : isNumber (String.ofList largeDigits).toList = true := by
    rw [String.toList_ofList]
    exact number_largeDigits
  have taken : fromValue (F := Unit) largeInteger =
      some (.integer (String.ofList largeDigits)) := by
    unfold largeInteger
    rw [fromValue, if_pos integral_largeDigits]
  have large : isFinite (String.ofList largeDigits) = false := by
    show decide ((String.ofList largeDigits).length ≤ 308) = false
    rw [length_largeDigits]
    rfl
  have written : encoded Unit largeInteger =
      some (encodedOrdered (F := Unit) (.integer (String.ofList largeDigits))) := by
    unfold encoded
    rw [taken]
    rfl
  exact ⟨.number number, .number integral_largeDigits, _, written,
    decode_unadmitted number_largeDigits large⟩

end Flightdeck.OrderedJson
