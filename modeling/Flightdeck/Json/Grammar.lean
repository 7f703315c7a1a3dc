import Flightdeck.Json.Ordered

/-!
# The texts of JSON

Which texts are JSON, and what the library documents of them: a value with blanks around it is
captured, an array and an object are opened into their parts, and scalars are read.
-/

namespace Flightdeck.OrderedJson

open StrictJson (Value Bytes Library DEPTH decode utf8)
open StrictJson.Library Texts

def isBlank (c : Char) : Bool := c = ' ' || c = '\n' || c = '\r' || c = '\t'

/-- The digits of an exponent. -/
def isDigits (text : List Char) : Bool := text ≠ [] && text.all Char.isDigit

def isExponent : List Char → Bool
  | [] => true
  | c :: rest => (c = 'e' || c = 'E') &&
      isDigits (if rest.head? = some '-' ∨ rest.head? = some '+' then rest.tail else rest)

def isFraction : List Char → Bool
  | [] => true
  | c :: rest =>
    if c = '.' then
      isDigits (rest.takeWhile Char.isDigit) && isExponent (rest.dropWhile Char.isDigit)
    else isExponent (c :: rest)

/-- The digits before the point. -/
def isWhole (digits : List Char) : Bool :=
  digits ≠ [] && (digits = ['0'] || digits.head? ≠ some '0')

def isUnsigned (text : List Char) : Bool :=
  isWhole (text.takeWhile Char.isDigit) && isFraction (text.dropWhile Char.isDigit)

/-- The grammar of a number. -/
def isNumber : List Char → Bool
  | [] => false
  | c :: text => if c = '-' then isUnsigned text else isUnsigned (c :: text)

/-- An item of an array with the blanks around it. -/
structure Item where
  before : List Char
  text : List Char
  after : List Char

def Item.chars (item : Item) : List Char := item.before ++ item.text ++ item.after

def Item.Spaced (item : Item) : Prop :=
  item.before.all isBlank = true ∧ item.after.all isBlank = true

/-- A member of an object: its key, and its value as an item. -/
structure Member where
  before : List Char
  key : String
  between : List Char
  value : Item

def Member.chars (F : Type) [Texts F] (member : Member) : List Char :=
  member.before ++ quote F member.key ++ member.between ++ ':' :: member.value.chars

def Member.Spaced (member : Member) : Prop :=
  member.before.all isBlank = true ∧ member.between.all isBlank = true ∧ member.value.Spaced

/-- The parts with commas between them. -/
def joined : List (List Char) → List Char
  | [] => []
  | [part] => part
  | part :: next :: parts => part ++ ',' :: joined (next :: parts)

def bracketed (body : List Char) : List Char := '[' :: (body ++ [']'])

def braced (body : List Char) : List Char := '\x7b' :: (body ++ ['\x7d'])

/-- The texts of JSON. -/
inductive Json (F : Type) [Texts F] : List Char → Prop
  | null : Json F "null".toList
  | false : Json F "false".toList
  | true : Json F "true".toList
  | number {text : List Char} : isNumber text = Bool.true → Json F text
  | string (text : String) : Json F (quote F text)
  | noItems {blanks : List Char} : blanks.all isBlank = Bool.true → Json F (bracketed blanks)
  | array {items : List Item} : items ≠ [] → (∀ item ∈ items, item.Spaced) →
      (∀ item ∈ items, Json F item.text) → Json F (bracketed (joined (items.map Item.chars)))
  | noMembers {blanks : List Char} : blanks.all isBlank = Bool.true → Json F (braced blanks)
  | object {members : List Member} : members ≠ [] → (∀ member ∈ members, member.Spaced) →
      (∀ member ∈ members, Json F member.value.text) →
      Json F (braced (joined (members.map (Member.chars F))))

/-- What the library documents. -/
class Documented (F : Type) [Texts F] [Library] : Prop where
  quote_head : ∀ text, (quote F text).head? = some '"'
  capture : ∀ before text after, before.all isBlank = true → Json F text →
    after.all isBlank = true →
      capture (utf8 (String.ofList (before ++ text ++ after))) = some (String.ofList text)
  noItems : ∀ blanks, blanks.all isBlank = true →
    items (String.ofList (bracketed blanks)) = some []
  someItems : ∀ rows : List Item, rows ≠ [] → (∀ row ∈ rows, row.Spaced) →
    (∀ row ∈ rows, Json F row.text) →
      items (String.ofList (bracketed (joined (rows.map Item.chars)))) =
        some (rows.map fun row => String.ofList row.text)
  noMembers : ∀ blanks, blanks.all isBlank = true →
    members (String.ofList (braced blanks)) = some []
  someMembers : ∀ rows : List Member, rows ≠ [] → (∀ row ∈ rows, row.Spaced) →
    (∀ row ∈ rows, Json F row.value.text) →
      members (String.ofList (braced (joined (rows.map (Member.chars F))))) =
        some (rows.map fun row => (row.key, String.ofList row.value.text))
  null : parse DEPTH "null" = some .null
  bool : ∀ b, parse DEPTH (if b then "true" else "false") = some (.bool b)
  number : ∀ text, isNumber text.toList = true → parse DEPTH text = some (.number text)
  string : ∀ text, parse DEPTH (String.ofList (quote F text)) = some (.string text)

/-- What the language documents of floating-point numbers: `{:?}` has a point or an exponent, and
reads as the same number, however the exponent is spelled. -/
class Spells (F : Type) [Texts F] : Prop where
  significand : ∀ f : F, isNumber (debug f).1 = true ∧ 'e' ∉ (debug f).1 ∧ 'E' ∉ (debug f).1
  point : ∀ f : F, (debug f).2 = none → '.' ∈ (debug f).1
  plain : ∀ f : F, (debug f).2 = none → asFinite (String.ofList (debug f).1) = some f
  exponent : ∀ (f : F) (e : Int) (digits : List Char), (debug f).2 = some e →
    isDigits digits = true → Nat.ofDigitChars 10 digits 0 = e.natAbs →
      asFinite (String.ofList ((debug f).1 ++ 'e' :: (if e < 0 then '-' else '+') :: digits)) =
        some f

end Flightdeck.OrderedJson
