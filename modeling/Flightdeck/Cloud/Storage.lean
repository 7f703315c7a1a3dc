import Flightdeck.Cloud.Protocol

/-!
# Snapshots of the cloud

The containers that the storage service lists, and the manifest with which a snapshot of them is
published.  A document that `serde_json` writes is kept as the value it holds; its bytes matter only
where they are hashed or measured, and `jsonObject` writes those.
-/

namespace Flightdeck.Cloud

open Foundation SaveState

/-- `cloud::identifier`: 32 lower-case hexadecimal digits after `start`. -/
def identifier (value start : String) : Bool :=
  let bytes := (utf8 value).drop (utf8 start).length
  (utf8 start).isPrefixOf (utf8 value) && bytes.length == 32 &&
    bytes.all fun c => isAsciiDigit c || (97 ≤ c && c ≤ 102)

/-- The spelling of a random UUID without hyphens. -/
def simpleUuid (n : Nat) : String := hexEncode (leBytes 16 n)

/-! ## JSON -/

/-- A character inside a JSON string, escaped as `serde_json` does it. -/
def jsonChar (c : Char) : List Char :=
  if c = '"' then ['\\', '"']
  else if c = '\\' then ['\\', '\\']
  else if c = '\n' then ['\\', 'n']
  else if c = '\r' then ['\\', 'r']
  else if c = '\t' then ['\\', 't']
  else if c = Char.ofNat 8 then ['\\', 'b']
  else if c = Char.ofNat 12 then ['\\', 'f']
  else if c < ' ' then
    ['\\', 'u', '0', '0', hexDigit (UInt8.ofNat (c.toNat / 16)), hexDigit (UInt8.ofNat (c.toNat % 16))]
  else [c]

def jsonString (value : String) : String :=
  "\"" ++ String.ofList (value.toList.flatMap jsonChar) ++ "\""

def jsonNumber (n : Nat) : String := toString n

def jsonOption (value : Option String) : String := (value.map jsonString).getD "null"

/-- An object of fields that are already written. -/
def jsonObject (fields : List (String × String)) : String :=
  "\x7b" ++ ",".intercalate (fields.map fun (key, value) => jsonString key ++ ":" ++ value) ++ "\x7d"

def jsonArray (rows : List String) : String := "[" ++ ",".intercalate rows ++ "]"

/-! ## Scopes -/

def invalidScope : Failure := .new .invalidScope

/-- `save_state::namespace_key`: a GUID is its own hyphenated lower-case spelling. -/
def namespaceKey [Sha256] (titleId : UInt32) (scid : String) (xuid : Nat) : Except Error String := do
  Flightdeck.require (titleId != 0 && xuid != 0) INVALID
  Flightdeck.require (guid scid) INVALID
  return sha256 (utf8 "xodus.localgamesave.namespace.v1\x00" ++
    (leBytes 4 titleId.toNat).reverse ++ utf8 scid.toLower ++ [1] ++ (leBytes 8 xuid).reverse)

/-- `str::parse::<u64>` on the digits of a user id. -/
def parseU64 (value : String) : Option Nat :=
  let bytes := utf8 value
  let n := bytes.foldl (fun n b => 10 * n + (b.toNat - 48)) 0
  if !bytes.isEmpty && bytes.all isAsciiDigit && n < 2 ^ 64 then some n else none

def Scope.namespace [Sha256] (scope : Scope) : Except Failure String := do
  let some xuid := parseU64 scope.xuid | throw (.new .invalidScope)
  (namespaceKey scope.titleId scope.scid xuid).mapError fun _ => .new .invalidScope

end Flightdeck.Cloud

namespace Flightdeck.Cloud.Storage

open Foundation SaveState

/-- What the index tells of a container. -/
structure Container where
  name : String
  displayName : String
  etag : String
  clientFileTime : Nat
  size : Nat
  deriving DecidableEq

structure Atom where
  atom : String
  name : String
  size : Option Nat
  deriving DecidableEq

structure Snapshot where
  /-- The last component of `path`; every snapshot lies in `private/cloud-saves`. -/
  id : String
  scopeBinding : String
  containerCount : Nat
  blobCount : Nat
  totalBytes : Nat
  consistency : String
  deriving DecidableEq

structure SavedBlob where
  name : String
  atom : String
  file : String
  size : Nat
  sha256 : String
  deriving DecidableEq

structure SavedContainer where
  name : String
  displayName : String
  etag : String
  clientFileTime : Nat
  size : Nat
  blobs : List SavedBlob
  deriving DecidableEq

def SavedContainer.metadata (row : SavedContainer) : Container where
  name := row.name
  displayName := row.displayName
  etag := row.etag
  clientFileTime := row.clientFileTime
  size := row.size

structure Manifest where
  schema : Nat
  scopeBinding : String
  consistency : String
  containers : List SavedContainer
  deriving DecidableEq

def CONSISTENCY : String := "rechecked-unlocked"

structure CachedContainer where
  metadata : Container
  blobs : List (Atom × Bytes)
  deriving DecidableEq

structure Cache where
  binding : String
  containers : TextMap CachedContainer
  deriving DecidableEq

def SavedBlob.json (blob : SavedBlob) : String :=
  jsonObject [("name", jsonString blob.name), ("atom", jsonString blob.atom),
    ("file", jsonString blob.file), ("size", jsonNumber blob.size),
    ("sha256", jsonString blob.sha256)]

def SavedContainer.json (row : SavedContainer) : String :=
  jsonObject [("name", jsonString row.name), ("display_name", jsonString row.displayName),
    ("etag", jsonString row.etag), ("client_file_time", jsonNumber row.clientFileTime),
    ("size", jsonNumber row.size), ("blobs", jsonArray (row.blobs.map SavedBlob.json))]

/-- The bytes of `manifest.json`. -/
@[irreducible] def Manifest.toVec (manifest : Manifest) : Bytes :=
  utf8 (jsonObject [("schema", jsonNumber manifest.schema),
    ("scope_binding", jsonString manifest.scopeBinding),
    ("consistency", jsonString manifest.consistency),
    ("containers", jsonArray (manifest.containers.map SavedContainer.json))] ++ "\n")

/-- A published snapshot directory: `manifest.json` and the files under `blobs`. -/
structure Folder where
  manifest : Manifest
  blobs : TextMap Bytes

/-- The name of a blob file. -/
def blobFile (n : Nat) : String :=
  String.ofList ((Nat.toDigits 16 n).leftpad 8 '0') ++ ".bin"

end Flightdeck.Cloud.Storage
