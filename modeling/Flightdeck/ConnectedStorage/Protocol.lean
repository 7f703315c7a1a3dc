import Flightdeck.Foundation.Effects
import Flightdeck.Foundation.TextMap

/-!
# The requests of the connected-storage helper

What the helper accepts from its parent and how it spells a read on the wire.  Its strings are
bytes.  The JSON library is a parameter: a parser, which answers `discarded` to bad text, and a
printer, which refuses strings that are not UTF-8.
-/

namespace Flightdeck.ConnectedStorage

open Foundation

def frameLimit : Nat := 256 * 1024

def jsonLimit : Nat := 4 * 1024 * 1024

def blobLimit : Nat := 64 * 1024 * 1024

/-- What is thrown: `Invalid`, or anything else. -/
inductive Thrown where
  | invalid | other
  deriving DecidableEq

inductive Json where
  | null
  | bool (b : Bool)
  | unsigned (n : UInt64)
  | integer (n : Int64)
  | float
  | string (s : Bytes)
  | array (items : List Json)
  | object (members : List (Bytes × Json))
  | discarded

class JsonText where
  parse : Bytes → Json
  dump : Json → Except Thrown Bytes

namespace Json

def isObject : Json → Bool
  | .object _ => true
  | _ => false

/-- Nothing is found in what is no object. -/
def find (j : Json) (key : String) : Option Json :=
  match j with
  | .object members => members.lookup (utf8 key)
  | _ => none

def contains (j : Json) (key : String) : Bool := (j.find key).isSome

def isNull : Json → Bool
  | .null => true
  | _ => false

def equalsText (j : Json) (s : Bytes) : Bool :=
  match j with
  | .string t => t == s
  | _ => false

end Json

def invalid {α : Type} : Except Thrown α := .error .invalid

def require (ok : Bool) : Except Thrown Unit := if ok then .ok () else invalid

def text (s : Bytes) (maximum : Nat) : Bool :=
  !s.isEmpty && s.length ≤ maximum && s.all fun c => !(c < 32 || c == 127)

def isDigit (c : UInt8) : Bool := 48 ≤ c && c ≤ 57

def isUpper (c : UInt8) : Bool := 65 ≤ c && c ≤ 90

def isLower (c : UInt8) : Bool := 97 ≤ c && c ≤ 122

def guid (s : Bytes) : Bool :=
  s.length == 36 && s.zipIdx.all fun (c, i) =>
    if i = 8 ∨ i = 13 ∨ i = 18 ∨ i = 23 then c == 45 else isDigit c || (97 ≤ c && c ≤ 102)

def pfn (s : Bytes) : Bool :=
  text s 255 && s.all fun c => isLower c || isUpper c || isDigit c || c == 46 || c == 95 || c == 45

/-- The hexadecimal capitals in lower case. -/
def lowerHex (s : Bytes) : Bytes := s.map fun c => if 65 ≤ c && c ≤ 70 then c + 32 else c

def atomGuid (s : Bytes) : Bool := guid (lowerHex s)

def keys (j : Json) (allowed : List String) : Except Thrown Unit :=
  match j with
  | .object members => require (members.all fun m => (allowed.map utf8).contains m.1)
  | _ => invalid

def string (j : Json) (k : String) : Except Thrown Bytes :=
  match j.find k with
  | some (.string s) => .ok s
  | _ => invalid

def number (j : Json) (k : String) (maximum : Nat) : Except Thrown UInt64 :=
  match j.find k with
  | some (.unsigned n) => if maximum < n.toNat then invalid else .ok n
  | _ => invalid

def upperHexDigit (n : UInt8) : UInt8 := if n < 10 then 48 + n else 55 + n

def percent (s : Bytes) : Bytes :=
  s.flatMap fun c =>
    if isLower c || isUpper c || isDigit c || c == 45 || c == 95 || c == 46 || c == 126 then [c]
    else [37, upperHexDigit (c / 16), upperHexDigit (c % 16)]

/-- `std::to_string`. -/
def decimal (n : Nat) : Bytes := utf8 (toString n)

def hasSuffix (s suffix : Bytes) : Bool := suffix.length < s.length && suffix.isSuffixOf s

/-- A string without the last characters of it. -/
def dropRight (s suffix : Bytes) : Bytes := s.take (s.length - suffix.length)

structure Init where
  config : Bytes
  scid : Bytes
  family : Bytes
  title : UInt64
  deviceFile : Bytes := []

def deviceFile (j : Json) : Except Thrown Bytes :=
  if j.contains "device_file" then do
    let file ← string j "device_file"
    require (text file 32760 && (utf8 "Z:/").isPrefixOf file)
    return file
  else
    return []

/-- `initialize`. -/
def initRequest (j : Json) : Except Thrown Init := do
  keys j ["op", "config", "scid", "pfn", "title_id", "device_file"]
  let op ← string j "op"
  require (op == utf8 "init")
  let config ← string j "config"
  let scid ← string j "scid"
  let family ← string j "pfn"
  let title ← number j "title_id" (2 ^ 32 - 1)
  require (title != 0 && !config.isEmpty && config.length ≤ 128 * 1024 && !config.contains 0 &&
    (scid.isEmpty || guid scid) && pfn family)
  let file ← deviceFile j
  return ⟨config, scid, family, title, file⟩

/-! ## The service configuration id -/

/-- A field that would mean that more titles follow. -/
def continues (j : Json) (k : String) : Bool :=
  match j.find k with
  | none => false
  | some v => !(v.isNull || v.equalsText [])

def pagingInfo (j : Json) (titles : Nat) : Except Thrown Unit :=
  match j.find "pagingInfo" with
  | none => .ok ()
  | some paging => do
    require paging.isObject
    require (!continues paging "continuationToken")
    match paging.find "totalItems" with
    | none => return
    | some (.unsigned n) => require (n.toNat == titles)
    | some _ => invalid

def otherUser (j : Json) (xuid : Bytes) (k : String) : Bool :=
  match j.find k with
  | none => false
  | some v => !v.equalsText xuid

def isTitle (title : UInt64) : Json → Bool
  | .unsigned n => n == title
  | .string s => s == decimal title.toNat
  | _ => false

/-- The id of a title that matches, after those found before. -/
def titleMatch (title : UInt64) (family : Bytes) (found : Option Bytes) (item : Json) :
    Except Thrown (Option Bytes) := do
  require item.isObject
  match item.find "titleId", item.find "pfn" with
  | some t, some (.string p) =>
    if isTitle title t && p == family then
      let scid ← string item "serviceConfigId"
      require (guid (lowerHex scid) && found.isNone)
      return some (lowerHex scid)
    else
      return found
  | _, _ => return found

def titleScid (j : Json) (title : UInt64) (family xuid : Bytes) : Except Thrown Bytes :=
  match j.find "titles" with
  | some (.array titles) => do
    require (titles.length ≤ 4096)
    require (["continuationToken", "nextLink"].all fun k => !continues j k)
    pagingInfo j titles.length
    require (["xuid", "xboxUserId"].all fun k => !otherUser j xuid k)
    match ← titles.foldlM (titleMatch title family) none with
    | some found => return found
    | none => invalid
  | _ => invalid

/-! ## Reads -/

structure Read where
  path : Bytes
  maximum : Nat

def nameSuffix : Bytes := utf8 ",savedgame"

/-- `container_name`: a wire name without its suffix. -/
def containerName (wire : Bytes) : Except Thrown Bytes := do
  require (text wire 1024 && hasSuffix wire nameSuffix)
  let name := dropRight wire nameSuffix
  require (name != utf8 "." && name != utf8 "..")
  return name

/-- The page that an index request continues at. -/
def indexPage (j : Json) : Except Thrown Bytes :=
  if j.contains "skip_items" || j.contains "continuation_token" then do
    let skip ← number j "skip_items" 4096
    let token ← string j "continuation_token"
    require (skip != 0 && text token 8192)
    return utf8 "?skipItems=" ++ decimal skip.toNat ++ utf8 "&continuationToken=" ++ percent token
  else
    return []

/-- `request`, for the operation `op` of `j`. -/
def request (j : Json) (base op : Bytes) : Except Thrown Read :=
  if op = utf8 "index" then do
    keys j ["op", "max_bytes", "skip_items", "continuation_token"]
    let page ← indexPage j
    let maximum ← number j "max_bytes" jsonLimit
    return ⟨base ++ page, maximum.toNat⟩
  else if op = utf8 "container" then do
    keys j ["op", "wire_name", "max_bytes"]
    let name ← string j "wire_name"
    require (text name 1024 && name != utf8 "." && name != utf8 "..")
    require (hasSuffix name nameSuffix)
    let maximum ← number j "max_bytes" jsonLimit
    return ⟨base ++ utf8 "/" ++ percent (dropRight name nameSuffix) ++ nameSuffix, maximum.toNat⟩
  else if op = utf8 "atom" then do
    keys j ["op", "atom", "max_bytes"]
    let atom ← string j "atom"
    require (atomGuid atom)
    let maximum ← number j "max_bytes" blobLimit
    return ⟨base ++ utf8 "/" ++ atom ++ utf8 ",binary", maximum.toNat⟩
  else
    invalid

end Flightdeck.ConnectedStorage
