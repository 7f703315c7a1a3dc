import Flightdeck.Foundation.Lines
import Flightdeck.Foundation.Unicode
import Mathlib.Data.List.DropRight

/-!
# Desktop entries

A desktop entry file is lines of `key=value` below the header of their group.  Values of strings
have escapes of their own, and the value of `Exec` is a command line of quoted arguments in which
per cent signs start field codes.
-/

namespace Foundation.DesktopEntry

open Flightdeck

structure Item where
  group : List Char
  key : List Char
  value : List Char
  deriving DecidableEq

/-- `key=value`; blanks beside the equals sign do not count. -/
def splitItem (group line : List Char) : Option Item :=
  match line.dropWhile (· ≠ '=') with
  | [] => none
  | _ :: value => some ⟨group, (line.takeWhile (· ≠ '=')).rdropWhile (· = ' '),
      value.dropWhile (· = ' ')⟩

/-- The items of the lines, below a header if there was one. -/
def items : Option (List Char) → List (List Char) → Option (List Item)
  | _, [] => some []
  | group, [] :: lines => items group lines
  | group, (c :: line) :: lines =>
    if c = '#' then items group lines
    else if c = '[' then
      if line.getLast? = some ']' then items (some line.dropLast) lines else none
    else match group with
      | none => none
      | some name => do return (← splitItem name (c :: line)) :: (← items group lines)

/-- The items of a file; its last line is ended. -/
def read (file : List UInt8) : Option (List Item) := do
  let (lines, rest) := cutLines '\n' (← utf8Chars file)
  if rest = [] then items none lines else none

def valueOf (items : List Item) (group key : List Char) : Option (List Char) :=
  (items.find? fun item => item.group = group ∧ item.key = key).map Item.value

/-- A key that is read as it is written. -/
def isKey (key : List Char) : Bool :=
  key.head?.any (fun c => c ≠ '#' && c ≠ '[') && key.all (fun c => c ≠ '=' && c ≠ ' ')

/-- A line of a file. -/
def lineOf : List Char × List Char → List Char
  | (key, value) => key ++ '=' :: value

theorem splitItem_line (group : List Char) {key value : List Char} (fine : isKey key = true)
    (start : value.head? ≠ some ' ') :
    splitItem group (lineOf (key, value)) = some ⟨group, key, value⟩ := by
  have chars : ∀ c ∈ key, (c ≠ '=' && c ≠ ' ') = true := by
    unfold isKey at fine
    rw [Bool.and_eq_true, List.all_eq_true] at fine
    exact fine.2
  have before : ∀ c ∈ key, decide (c ≠ '=') = true := by
    intro c there
    have both := chars c there
    rw [Bool.and_eq_true] at both
    exact both.1
  have left : (lineOf (key, value)).takeWhile (· ≠ '=') = key := by
    unfold lineOf
    rw [List.takeWhile_append_of_pos before, List.takeWhile_cons_of_neg (by simp), List.append_nil]
  have right : (lineOf (key, value)).dropWhile (· ≠ '=') = '=' :: value := by
    unfold lineOf
    rw [List.dropWhile_append_of_pos before, List.dropWhile_cons_of_neg (by simp)]
  have trimmed : key.rdropWhile (· = ' ') = key := by
    rw [List.rdropWhile_eq_self_iff]
    intro some last
    have both := chars _ (List.getLast_mem some)
    simp only [decide_eq_true_eq] at last
    rw [last] at both
    cases both
  have kept : value.dropWhile (· = ' ') = value := by
    cases value with
    | nil => rfl
    | cons c value =>
      apply List.dropWhile_cons_of_neg
      simpa using start
  unfold splitItem
  rw [left, right, trimmed]
  dsimp only
  rw [kept]

/-- Lines of keys and values are read as they are written. -/
theorem items_lines (group : List Char) (pairs : List (List Char × List Char))
    (keys : ∀ pair ∈ pairs, isKey pair.1 = true)
    (values : ∀ pair ∈ pairs, pair.2.head? ≠ some ' ') :
    items (some group) (pairs.map lineOf) =
      some (pairs.map fun pair => ⟨group, pair.1, pair.2⟩) := by
  induction pairs with
  | nil => rfl
  | cons pair pairs ih =>
    have ⟨key, value⟩ := pair
    have fine := keys (key, value) (List.mem_cons_self ..)
    have split := splitItem_line group fine (values (key, value) (List.mem_cons_self ..))
    have rest := ih (fun pair there => keys pair (List.mem_cons_of_mem _ there)) fun pair there =>
      values pair (List.mem_cons_of_mem _ there)
    cases key with
    | nil => cases fine
    | cons c key =>
      have first : c ≠ '#' ∧ c ≠ '[' := by
        simp only [isKey, List.head?_cons, Option.any_some, Bool.and_eq_true,
          decide_eq_true_eq] at fine
        exact fine.1
      simp only [lineOf, List.cons_append] at split
      simp only [List.map_cons, lineOf, List.cons_append, items, if_neg first.1, if_neg first.2]
      rw [split, rest]
      rfl

/-! ## Values -/

/-- What stands after a backslash in a string. -/
def escape : Char → Option Char
  | 's' => some ' '
  | 'n' => some '\n'
  | 't' => some '\t'
  | 'r' => some '\r'
  | '\\' => some '\\'
  | _ => none

/-- The text of a value of type string. -/
def unescape : List Char → Option (List Char)
  | [] => some []
  | [c] => if c = '\\' then none else some [c]
  | c :: d :: rest =>
    if c = '\\' then (escape d).bind fun e => (unescape rest).map (e :: ·)
    else (unescape (d :: rest)).map (c :: ·)

/-- The characters that stand for themselves in an argument without quotes. -/
def isUnreserved (c : Char) : Bool :=
  c.isAlphanum || c = '/' || c = '.' || c = '_' || c = '-' || c = '%'

/-- The characters that a backslash must precede between quotes. -/
def isQuoted (c : Char) : Bool := c = '"' || c = '\\' || c = '$' || c.toNat = 96

/-- One more character of an argument. -/
def addTo (c : Char) : List Char × List Char → List Char × List Char
  | (argument, rest) => (c :: argument, rest)

/-- What a double quote opens, up to the one that closes it, and what follows. -/
def quoted : List Char → Option (List Char × List Char)
  | [] => none
  | [c] => if c = '"' then some ([], []) else none
  | c :: d :: rest =>
    if c = '"' then some ([], d :: rest)
    else if c = '\\' then if isQuoted d then (quoted rest).map (addTo d) else none
    else if isQuoted c then none
    else (quoted (d :: rest)).map (addTo c)

/-- The arguments of a command line, of which the first `fuel` are read. -/
def arguments : Nat → List Char → Option (List (List Char))
  | 0, _ => none
  | _ + 1, [] => some []
  | fuel + 1, ' ' :: rest => arguments fuel rest
  | fuel + 1, '"' :: rest => do
    let (argument, rest) ← quoted rest
    if rest.head?.all (· = ' ') then return argument :: (← arguments fuel rest) else none
  | fuel + 1, c :: rest => do
    let argument := (c :: rest).takeWhile isUnreserved
    let rest := (c :: rest).dropWhile isUnreserved
    if argument ≠ [] ∧ rest.head?.all (· = ' ') then
      return argument :: (← arguments fuel rest)
    else none

/-- The field codes that stand for files, which there are none of, and for a per cent sign. -/
def fieldCodes : List Char → Option (List Char)
  | [] => some []
  | [c] => if c = '%' then none else some [c]
  | c :: d :: rest =>
    if c = '%' then
      if d = '%' then (fieldCodes rest).map ('%' :: ·)
      else if d = 'f' ∨ d = 'F' ∨ d = 'u' ∨ d = 'U' then fieldCodes rest
      else none
    else (fieldCodes (d :: rest)).map (c :: ·)

/-- The command line in the value of `Exec`. -/
def commandLine (value : List Char) : Option (List (List Char)) := do
  let text ← unescape value
  (← arguments (text.length + 1) text).mapM fieldCodes

/-! ## Texts without escapes -/

theorem unescape_plain {c : Char} (plain : c ≠ '\\') (rest : List Char) :
    unescape (c :: rest) = (unescape rest).map (c :: ·) := by
  cases rest with
  | nil =>
    unfold unescape
    rw [if_neg plain]
    rfl
  | cons d rest =>
    conv_lhs => unfold unescape
    rw [if_neg plain]

theorem unescape_escape (d : Char) (rest : List Char) :
    unescape ('\\' :: d :: rest) =
      (escape d).bind fun e => (unescape rest).map (e :: ·) := by
  conv_lhs => unfold unescape
  rw [if_pos rfl]

theorem quoted_plain {c : Char} (plain : isQuoted c = false) {rest : List Char} (some : rest ≠ []) :
    quoted (c :: rest) = (quoted rest).map (addTo c) := by
  have quote : c ≠ '"' := by
    intro same
    rw [same] at plain
    cases plain
  have backslash : c ≠ '\\' := by
    intro same
    rw [same] at plain
    cases plain
  cases rest with
  | nil => exact absurd rfl some
  | cons d rest =>
    conv_lhs => unfold quoted
    rw [if_neg quote, if_neg backslash, if_neg (by simp [plain])]

theorem quoted_escaped {d : Char} (special : isQuoted d = true) (rest : List Char) :
    quoted ('\\' :: d :: rest) = (quoted rest).map (addTo d) := by
  conv_lhs => unfold quoted
  rw [if_neg (by decide), if_pos rfl, if_pos special]

theorem fieldCodes_plain {c : Char} (plain : c ≠ '%') (rest : List Char) :
    fieldCodes (c :: rest) = (fieldCodes rest).map (c :: ·) := by
  cases rest with
  | nil =>
    unfold fieldCodes
    rw [if_neg plain]
    rfl
  | cons d rest =>
    conv_lhs => unfold fieldCodes
    rw [if_neg plain]

theorem fieldCodes_percent (rest : List Char) :
    fieldCodes ('%' :: '%' :: rest) = (fieldCodes rest).map ('%' :: ·) := by
  conv_lhs => unfold fieldCodes
  rw [if_pos rfl, if_pos rfl]

theorem unescape_of_plain {text : List Char} (plain : '\\' ∉ text) :
    unescape text = some text := by
  induction text with
  | nil => rfl
  | cons c text ih =>
    rw [List.mem_cons, not_or] at plain
    rw [unescape_plain (Ne.symm plain.1), ih plain.2]
    rfl

/-- An escape is shorter once it is read. -/
theorem unescape_length (text : List Char) : ∀ {result : List Char}, unescape text = some result →
    result.length + (if '\\' ∈ text then 1 else 0) ≤ text.length := by
  induction text using unescape.induct with
  | case1 =>
    intro result read
    cases read
    decide
  | case2 =>
    intro result read
    cases read
  | case3 c plain =>
    intro result read
    rw [unescape_plain plain] at read
    cases read
    simp [Ne.symm plain]
  | case4 d rest ih =>
    intro result read
    rw [unescape_escape] at read
    cases known : escape d with
    | none => simp [known] at read
    | some e =>
      cases more : unescape rest with
      | none => simp [known, more] at read
      | some text =>
        simp only [known, more, Option.bind_some, Option.map_some, Option.some.injEq] at read
        have shorter := ih more
        subst read
        simp only [List.length_cons, List.mem_cons, true_or, if_true]
        omega
  | case5 c d rest plain ih =>
    intro result read
    rw [unescape_plain plain] at read
    cases more : unescape (d :: rest) with
    | none => simp [more] at read
    | some text =>
      rw [more, Option.map_some, Option.some.injEq] at read
      have shorter := ih more
      have same : ('\\' ∈ c :: d :: rest) ↔ '\\' ∈ d :: rest := by
        rw [List.mem_cons, or_iff_right (Ne.symm plain)]
      subst read
      simp only [same, List.length_cons] at shorter ⊢
      omega

/-- A text with a backslash in it is not read as it stands. -/
theorem unescape_same (text : List Char) : unescape text = some text ↔ '\\' ∉ text := by
  apply Iff.intro
  · intro read backslash
    have shorter := unescape_length text read
    rw [if_pos backslash] at shorter
    omega
  · exact unescape_of_plain

/-! ## A quoted argument -/

/-- A per cent sign that starts no field code. -/
def percentChar (c : Char) : List Char := if c = '%' then ['%', '%'] else [c]

/-- A character between quotes. -/
def quotedChar (c : Char) : List Char := if isQuoted c then ['\\', c] else [c]

theorem fieldCodes_percentChars (text : List Char) :
    fieldCodes (text.flatMap percentChar) = some text := by
  induction text with
  | nil => rfl
  | cons c text ih =>
    rw [List.flatMap_cons]
    unfold percentChar
    by_cases percent : c = '%'
    · rw [if_pos percent, percent]
      show fieldCodes ('%' :: '%' :: text.flatMap percentChar) = _
      rw [fieldCodes_percent, ih]
      rfl
    · rw [if_neg percent]
      show fieldCodes (c :: text.flatMap percentChar) = _
      rw [fieldCodes_plain percent, ih]
      rfl

theorem quoted_quotedChars (text rest : List Char) :
    quoted (text.flatMap quotedChar ++ '"' :: rest) = some (text, rest) := by
  induction text with
  | nil =>
    cases rest with
    | nil => rfl
    | cons d rest => rfl
  | cons c text ih =>
    rw [List.flatMap_cons, List.append_assoc]
    unfold quotedChar
    by_cases special : isQuoted c = true
    · rw [if_pos special]
      show quoted ('\\' :: c :: (text.flatMap quotedChar ++ '"' :: rest)) = _
      rw [quoted_escaped special, ih]
      rfl
    · rw [if_neg special]
      show quoted (c :: (text.flatMap quotedChar ++ '"' :: rest)) = _
      rw [quoted_plain (by simpa using special) (by simp), ih]
      rfl

/-- A command line of one argument in quotes. -/
theorem commandLine_quoted {value text : List Char}
    (escaped : unescape value =
      some ('"' :: ((text.flatMap percentChar).flatMap quotedChar ++ ['"']))) :
    commandLine value = some [text] := by
  unfold commandLine
  rw [escaped, Option.bind_eq_bind, Option.bind_some]
  have first := quoted_quotedChars (text.flatMap percentChar) []
  have one : ∀ fuel, arguments (fuel + 2)
      ('"' :: ((text.flatMap percentChar).flatMap quotedChar ++ ['"'])) =
        some [text.flatMap percentChar] := by
    intro fuel
    simp [arguments, first]
  have enough : ∃ fuel, ('"' :: ((text.flatMap percentChar).flatMap quotedChar ++ ['"'])).length +
      1 = fuel + 2 := ⟨_, by rw [List.length_cons]⟩
  have ⟨fuel, same⟩ := enough
  rw [same, one]
  simp [fieldCodes_percentChars]

end Foundation.DesktopEntry
