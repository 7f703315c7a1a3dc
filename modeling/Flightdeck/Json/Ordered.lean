import Flightdeck.Json.Strict

/-!
# JSON in its own order

`ordered_json.rs` writes a value with the order of its members and the digits of its integers, as
the support reports are signed; a floating-point number is spelled as the older encoder did.  The
library's own texts of strings and floating-point numbers are parameters.
-/

namespace Flightdeck.OrderedJson

open StrictJson (Value Bytes Library decode utf8)

/-- What the library writes: strings with their escapes, and floating-point numbers. -/
class Texts (F : Type) where
  quote : String → List Char
  /-- `Number::as_f64`, if it is finite -/
  asFinite : String → Option F
  /-- `{:?}` of a finite number: the part before the `e`, and the exponent if there is an `e` -/
  debug : F → List Char × Option Int

inductive Ordered (F : Type) where
  | null
  | bool (b : Bool)
  | integer (text : String)
  | float (f : F)
  | string (text : String)
  | array (values : List (Ordered F))
  | object (fields : List (String × Ordered F))

variable {F : Type} [Texts F]

open Texts

def isIntegral (raw : String) : Bool :=
  raw.toList.all fun c => c ≠ '.' && c ≠ 'e' && c ≠ 'E'

mutual

def fromValue : Value → Option (Ordered F)
  | .null => some .null
  | .bool b => some (.bool b)
  | .string text => some (.string text)
  | .number raw => if isIntegral raw then some (.integer raw) else (asFinite raw).map .float
  | .array values => (fromValues values).map .array
  | .object fields => (fromFields fields).map .object

def fromValues : List Value → Option (List (Ordered F))
  | [] => some []
  | value :: values => do return (← fromValue value) :: (← fromValues values)

def fromFields : List (String × Value) → Option (List (String × Ordered F))
  | [] => some []
  | field :: fields => do return (← fromField field) :: (← fromFields fields)

def fromField : String × Value → Option (String × Ordered F)
  | (key, value) => do return (key, ← fromValue value)

end

def indent (depth : Nat) : List Char := (List.replicate depth "  ".toList).flatten

/-- `{number:02}` -/
def twoDigits (n : Nat) : List Char :=
  if n < 10 then '0' :: Nat.toDigits 10 n else Nat.toDigits 10 n

def floatText (f : F) : List Char :=
  let (significand, exponent) := debug f
  match exponent with
  | none => significand
  | some e => significand ++ 'e' :: (if e < 0 then '-' else '+') :: twoDigits e.natAbs

/-- What stands before an item or a member. -/
def separator (first : Bool) (depth : Nat) : List Char :=
  (if first then "\n".toList else ",\n".toList) ++ indent (depth + 1)

/-- What stands before the closing bracket. -/
def ending (empty : Bool) (depth : Nat) : List Char :=
  if empty then [] else '\n' :: indent depth

mutual

def render : Ordered F → Nat → List Char
  | .null, _ => "null".toList
  | .bool b, _ => if b then "true".toList else "false".toList
  | .integer text, _ => text.toList
  | .float f, _ => floatText f
  | .string text, _ => quote F text
  | .array values, depth =>
    '[' :: (renderItems values true depth ++ ending values.isEmpty depth ++ [']'])
  | .object fields, depth =>
    '\x7b' :: (renderFields fields true depth ++ ending fields.isEmpty depth ++ ['\x7d'])

def renderItems : List (Ordered F) → Bool → Nat → List Char
  | [], _, _ => []
  | value :: values, first, depth =>
    separator first depth ++ render value (depth + 1) ++ renderItems values false depth

def renderFields : List (String × Ordered F) → Bool → Nat → List Char
  | [], _, _ => []
  | field :: fields, first, depth =>
    separator first depth ++ renderField field depth ++ renderFields fields false depth

def renderField : String × Ordered F → Nat → List Char
  | (key, value), depth => quote F key ++ ": ".toList ++ render value (depth + 1)

end

def encodedOrdered (value : Ordered F) : Bytes :=
  utf8 (String.ofList (render value 0 ++ "\n".toList))

def encoded (F : Type) [Texts F] (value : Value) : Option Bytes :=
  (fromValue (F := F) value).map encodedOrdered

/-- `report_bytes` -/
def reportBytes (F : Type) [Texts F] [Library] (draft : Bytes) : Option Bytes := do
  match ← fromValue (F := F) (← decode draft) with
  | .object entries =>
    let report ← entries.find? (·.1 == "report")
    return encodedOrdered report.2
  | _ => none

end Flightdeck.OrderedJson
