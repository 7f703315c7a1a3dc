import Flightdeck.Foundation.Lines
import Flightdeck.Foundation.Unicode

/-!
# Saved graphics options

`graphics_settings.rs`: the NVIDIA options of a `UserCfg.opt`, which a launch without them replaces
by safe values, with an undo for each option.
-/

namespace Flightdeck.GraphicsSettings

open Foundation

/-- The most bytes of a settings file. -/
def LIMIT : Nat := 1024 * 1024

def INVALID : String := "Die gespeicherten Grafikeinstellungen sind nicht eindeutig lesbar."

abbrev Text := List Char

/-- The values that were replaced, by their options. -/
abbrev Undo := TextMap String

def stripSuffix (key suffix : Text) : Option Text :=
  if suffix.isSuffixOf key then some (key.take (key.length - suffix.length)) else none

/-- The values of an option that need NVIDIA support, and the safe one. -/
def option (key : Text) : Option (List Text × Text) :=
  let base := (stripSuffix key "VR".toList).getD key
  if base = "AntiAliasing".toList then some (["DLSS".toList], "TAA".toList)
  else if base = "Reflex".toList then
    some (["ON".toList, "BOOST".toList, "ONBOOST".toList, "ON+BOOST".toList], "OFF".toList)
  else if base = "FrameGeneration".toList then some (["DLSSG".toList], "NONE".toList)
  else none

/-! ## Encodings -/

inductive Encoding where
  | utf8
  | utf8Bom
  | utf16 (little : Bool)
  deriving DecidableEq, Repr

def BOM : Bytes := [0xef, 0xbb, 0xbf]

def LITTLE : Bytes := [0xff, 0xfe]

def BIG : Bytes := [0xfe, 0xff]

def decode (bytes : Bytes) : Option (Text × Encoding) :=
  if LITTLE.isPrefixOf bytes || BIG.isPrefixOf bytes then
    if bytes.length % 2 ≠ 0 then none
    else
      let little := LITTLE.isPrefixOf bytes
      (fromUtf16 (toUnits little (bytes.drop 2))).map (·, .utf16 little)
  else if BOM.isPrefixOf bytes then (utf8Chars (bytes.drop 3)).map (·, .utf8Bom)
  else (utf8Chars bytes).map (·, .utf8)

/-- The mark at the beginning of a file. -/
def Encoding.mark : Encoding → Bytes
  | .utf8 => []
  | .utf8Bom => BOM
  | .utf16 little => if little then LITTLE else BIG

def Encoding.char : Encoding → Char → Bytes
  | .utf8, c => String.utf8EncodeChar c
  | .utf8Bom, c => String.utf8EncodeChar c
  | .utf16 little, c => (utf16Units c).flatMap (unitBytes little)

/-- The bytes of a piece of text, in the middle of a file. -/
def Encoding.text (encoding : Encoding) (text : Text) : Bytes := text.flatMap encoding.char

def encode (text : Text) (encoding : Encoding) : Bytes := encoding.mark ++ encoding.text text

/-! ## Lines -/

/-- `char::is_whitespace` -/
def isWhitespace (c : Char) : Bool :=
  (9 ≤ c.toNat && c.toNat ≤ 13) || (0x2000 ≤ c.toNat && c.toNat ≤ 0x200A) ||
    c.toNat ∈ [0x20, 0x85, 0xA0, 0x1680, 0x2028, 0x2029, 0x202F, 0x205F, 0x3000]

/-- `str::trim` -/
def trim (text : Text) : Text :=
  ((text.dropWhile isWhitespace).reverse.dropWhile isWhitespace).reverse

/-- `[ \t]` -/
def blank (c : Char) : Bool := c == ' ' || c == '\t'

/-- `\w`, of which an option's name needs only letters. -/
def word (c : Char) : Bool := c.isAlphanum || c == '_'

/-- `[^ \t\r\n]` -/
def solid (c : Char) : Bool := !blank c && c != '\r' && c != '\n'

/-- One line with an option, in its parts. -/
structure Field where
  indent : Text
  key : Text
  space : Text
  value : Text
  trailing : Text
  newline : Text
  deriving DecidableEq

def Field.text (f : Field) : Text :=
  f.indent ++ f.key ++ f.space ++ f.value ++ f.trailing ++ f.newline

/-- `^([ \t]*)(\w+)([ \t]+)([^ \t\r\n]{1,32})([ \t]*)(\r?\n)?$`: no two neighbouring parts have a
character in common, so each takes what it can. -/
def captures (line : Text) : Option Field :=
  let afterIndent := line.dropWhile blank
  let afterKey := afterIndent.dropWhile word
  let afterSpace := afterKey.dropWhile blank
  let afterValue := afterSpace.dropWhile solid
  let field : Field :=
    { indent := line.takeWhile blank
      key := afterIndent.takeWhile word
      space := afterKey.takeWhile blank
      value := afterSpace.takeWhile solid
      trailing := afterValue.takeWhile blank
      newline := afterValue.dropWhile blank }
  if field.key ≠ [] ∧ field.space ≠ [] ∧ field.value ≠ [] ∧ field.value.length ≤ 32 ∧
      field.newline ∈ [[], ['\n'], ['\r', '\n']] then some field
  else none

/-- A line of the file: an option of the Video block, or any other. -/
inductive Row where
  | plain (line : Text)
  | field (f : Field)

def Row.text : Row → Text
  | .plain line => line
  | .field f => f.text

def Row.field? : Row → Option Field
  | .plain _ => none
  | .field f => some f

structure State where
  depth : Int
  video : Bool
  found : Bool
  keys : List Text

def State.start : State := ⟨0, false, false, []⟩

/-- The first word of a trimmed line. -/
def firstWord (stripped : Text) : Text := stripped.takeWhile fun c => !blank c

/-- One line of the scan.  A failure is the error `INVALID`. -/
def scanLine (s : State) (line : Text) : Option (State × Row) :=
  let stripped := trim line
  if stripped.head? = some '\x7b' then
    if s.video then none
    else if stripped = "\x7bVideo".toList ∧ s.depth = 0 then
      if s.found then none
      else some ({ s with depth := s.depth + 1, video := true, found := true }, .plain line)
    else some ({ s with depth := s.depth + 1 }, .plain line)
  else if stripped = ['\x7d'] then
    if s.depth - 1 < 0 then none
    else some ({ s with depth := s.depth - 1, video := false }, .plain line)
  else if s.video ∧ (option (firstWord stripped)).isSome then
    match captures line with
    | none => none
    | some f =>
      if f.key ∈ s.keys then none
      else some ({ s with keys := f.key :: s.keys }, .field f)
  else some (s, .plain line)

def scan (s : State) : List Text → Option (State × List Row)
  | [] => some (s, [])
  | line :: lines =>
    match scanLine s line with
    | none => none
    | some (next, row) =>
      match scan next lines with
      | none => none
      | some (last, rows) => some (last, row :: rows)

/-! ## The document -/

structure Document where
  rows : List Row
  encoding : Encoding

namespace Document

def fields (d : Document) : List Field := d.rows.filterMap Row.field?

def bytes (d : Document) : Bytes := encode (d.rows.map Row.text).flatten d.encoding

end Document

/-- The document of a file, where the scan accepts it. -/
def parse (bytes : Bytes) : Option Document :=
  match decode bytes with
  | none => none
  | some (text, encoding) =>
    match scan .start (splitInclusive '\n' text) with
    | none => none
    | some (last, rows) =>
      let document : Document := ⟨rows, encoding⟩
      if last.found ∧ last.depth = 0 ∧
          document.fields.all (fun f => (option f.key).isSome) = true then some document
      else none

/-! ## The transformation -/

def Field.name (f : Field) : String := String.ofList f.key

/-- What is saved for an option, and the value that it gets. -/
def adjust (original : Undo) (compatibility : Bool) (f : Field) : Option String × Text :=
  match option f.key with
  | none => (none, f.value)
  | some (unsupported, safe) =>
    if compatibility then
      if f.value ∈ unsupported then (some (String.ofList f.value), safe)
      else if f.value = safe then (original[f.name]?, f.value)
      else (none, f.value)
    else if f.value = safe then
      match original[f.name]? with
      | some old => (none, old.toList)
      | none => (none, f.value)
    else (none, f.value)

def Row.replace (value : Field → Text) : Row → Row
  | .plain line => .plain line
  | .field f => .field { f with value := value f }

namespace Document

/-- Every option gets its value. -/
def replace (d : Document) (value : Field → Text) : Document :=
  { d with rows := d.rows.map (Row.replace value) }

def edited (d : Document) (original : Undo) (compatibility : Bool) : Document :=
  d.replace fun f => (adjust original compatibility f).2

def saved (d : Document) (original : Undo) (compatibility : Bool) : Undo :=
  insertAll ∅ (d.fields.filterMap fun f =>
    (adjust original compatibility f).1.map fun value => (f.name, value))

def changed (d : Document) (original : Undo) (compatibility : Bool) : TextSet :=
  insertAll ∅ ((d.fields.filter fun f =>
    decide ((adjust original compatibility f).2 ≠ f.value)).map fun f => (f.name, ()))

end Document

/-- Every entry of an undo is a value that its option can have had. -/
def validUndo (original : Undo) : Bool :=
  original.toList.all fun entry =>
    match option entry.1.toList with
    | some (unsupported, _) => decide (entry.2.toList ∈ unsupported)
    | none => false

/-- The new bytes, the undo and the options that changed. -/
def transform (bytes : Bytes) (original : Undo) (compatibility : Bool) :
    Option (Bytes × Undo × List String) :=
  if validUndo original then
    match parse bytes with
    | none => none
    | some d =>
      some ((d.edited original compatibility).bytes, d.saved original compatibility,
        (d.changed original compatibility).keys)
  else none

end Flightdeck.GraphicsSettings
