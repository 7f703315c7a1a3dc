import Flightdeck.Cloud.Storage
import Flightdeck.Foundation.Faults

/-!
# Documents on disk

A file that `files::atomic_json` wrote is kept as the value it holds, and any other file as
`unreadable`.  The text of a document matters only for its length, which bounds what is read back.
-/

namespace Flightdeck

open Foundation
open Cloud (jsonString jsonNumber jsonOption)

/-- What lies at the path of a JSON file. -/
inductive Document (α : Type) where
  | value (content : α)
  | unreadable
  deriving DecidableEq

/-! ## The text of a document, as `serde_json::to_vec_pretty` lays it out -/

def indentation (depth : Nat) : String := String.ofList (List.replicate (2 * depth) ' ')

/-- The text of a value at a depth. -/
abbrev Pretty := Nat → String

def prettyRows (opening closing : String) (rows : List Pretty) : Pretty := fun depth =>
  if rows.isEmpty then opening ++ closing
  else opening ++ "\n" ++
    ",\n".intercalate (rows.map fun row => indentation (depth + 1) ++ row (depth + 1)) ++
    "\n" ++ indentation depth ++ closing

def prettyObject (fields : List (String × Pretty)) : Pretty :=
  prettyRows "\x7b" "\x7d" (fields.map fun (key, value) depth =>
    jsonString key ++ ": " ++ value depth)

def prettyArray (rows : List Pretty) : Pretty := prettyRows "[" "]" rows

def prettyString (value : String) : Pretty := fun _ => jsonString value

def prettyNumber (n : Nat) : Pretty := fun _ => jsonNumber n

def prettyOption (value : Option String) : Pretty := fun _ => jsonOption value

/-- The bytes that `files::atomic_json` writes. -/
def documentBytes (text : Pretty) : Bytes := utf8 (text 0 ++ "\n")

/-- `files::json`: the document at a path, if it is no longer than `maximum`. -/
def readDocument {α : Type} (text : α → Pretty) (maximum : Nat) (file : Option (Document α)) :
    Except Error α := do
  let some file := file | throw .io
  let .value content := file | throw .json
  require ((documentBytes (text content)).length ≤ maximum) (.invalid INVALID_FILE)
  return content
where
  INVALID_FILE := "Datei oder Ordner ist nicht sicher zugänglich."

theorem readDocument_value {α : Type} {text : α → Pretty} {maximum : Nat} {content : α}
    (h : (documentBytes (text content)).length ≤ maximum) :
    readDocument text maximum (some (.value content)) = .ok content := by
  change (require (Decidable.decide _) _ >>= fun _ => pure content) = _
  rw [decide_eq_true h]
  rfl

theorem readDocument_eq_ok {α : Type} {text : α → Pretty} {maximum : Nat}
    {file : Option (Document α)} {content : α} :
    readDocument text maximum file = .ok content ↔
      file = some (.value content) ∧ (documentBytes (text content)).length ≤ maximum := by
  constructor
  · intro h
    match file, h with
    | some (.value found), h =>
      change (require (Decidable.decide _) _ >>= fun _ => pure found) = _ at h
      obtain ⟨_, hlength, hfound⟩ := bind_eq_ok.mp h
      rw [require_eq_ok, decide_eq_true_eq] at hlength
      cases hfound
      exact ⟨rfl, hlength⟩
  · rintro ⟨rfl, hlength⟩
    exact readDocument_value hlength

end Flightdeck
