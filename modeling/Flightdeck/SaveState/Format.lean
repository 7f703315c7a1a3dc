import Flightdeck.Files
import Flightdeck.Foundation.Cursor
import Flightdeck.Foundation.LittleEndian

/-!
# The local save file

Binary interchange with the native GameSave provider: what a saved state is, how `encode` writes it
and how `decode` reads it back.  A string is its UTF-8 bytes and a `BTreeMap` is a `TextMap`, so the
entries of a map are visited in the byte order of their names.
-/

namespace Flightdeck.SaveState

open Foundation

def QUOTA : Nat := 256 * 1024 * 1024
def METADATA_LIMIT : Nat := 32 * 1024 * 1024
def CONTAINER_LIMIT : Nat := 4096
def BLOB_LIMIT : Nat := 65536
def I64_MAX : Nat := 2 ^ 63 - 1

def INVALID : Error := .invalid "Ungültiger oder beschädigter Spielstand."
def CHECKSUM : Error := .invalid "Prüfsumme des Spielstands stimmt nicht."
def MAGIC : Bytes := utf8 "XDLOCAL1"

local instance lawfulBytes : LawfulBEq Bytes := inferInstanceAs (LawfulBEq (List UInt8))

structure Container where
  displayName : String
  modified : UInt64
  blobs : TextMap Bytes
  deriving DecidableEq

structure State where
  generation : UInt64 := 0
  containers : TextMap Container := ∅
  deriving DecidableEq

/-! ## Names -/

/-- The loop over the parts of a name.  Only the last part may hold dots and hyphens, and only a
container has more than one part. -/
def nameParts (container : Bool) : List Bytes → Except Error Unit
  | [] => .ok ()
  | part :: rest => do
    require (!part.isEmpty) INVALID
    let parent := !rest.isEmpty
    require (!parent || container) INVALID
    require (part.all fun b => isAsciiAlphanumeric b || b == 95 ||
      (!parent && (b == 46 || b == 45))) INVALID
    nameParts container rest

def name (value : String) (container : Bool) : Except Error Unit := do
  let bytes := utf8 value
  require (!bytes.isEmpty && bytes.length ≤ 256 && !decide ([46, 46] <:+: bytes) &&
    bytes.getLast? != some 46) INVALID
  nameParts container (bytes.splitOn 47)

/-! ## Reading -/

/-- The source's `Reader`: a position in the body of the file. -/
abbrev Reader (α : Type) := Reading UInt8 Error α

/-- A slice is shorter than `2 ^ 63` bytes, so `checked_add` cannot fail where `get` succeeds. -/
def take (size : Nat) : Reader Bytes := fun r =>
  if h : r.position + size ≤ r.data.length then
    .ok ((r.data.drop r.position).take size, ⟨r.data, r.position + size, h⟩)
  else
    .error INVALID

def readU32 : Reader UInt32 := do
  return UInt32.ofNat (leNat (← take 4))

def readU64 : Reader UInt64 := do
  return UInt64.ofNat (leNat (← take 8))

/-- `std::str::from_utf8`. -/
def fromUtf8 (bytes : Bytes) : Except Error String :=
  match String.fromUTF8? ⟨bytes.toArray⟩ with
  | some value => .ok value
  | none => .error INVALID

def readText (limit : Nat) : Reader String := do
  let size := (← readU32).toNat
  require (size ≤ limit) INVALID
  let text ← fromUtf8 (← take size)
  require (!(utf8 text).contains 0) INVALID
  return text

/-- One turn of the loop over the blobs of a container; `used` is shared by the whole file. -/
def decodeBlob : Container × Nat → Reader (Container × Nat)
  | (entry, used) => do
    let key ← readText 256
    name key false
    require (!entry.blobs.contains key) INVALID
    let size := (← readU32).toNat
    require (size ≤ (← checkedSub QUOTA used)) INVALID
    let bytes ← take size
    return ({ entry with blobs := entry.blobs.insert key bytes }, used + size)

/-- The variables of `decode` that the loop over the containers changes. -/
structure Decoded where
  state : State
  used : Nat
  blobs : Nat

def decodeContainer (d : Decoded) : Reader Decoded := do
  let key ← readText 256
  name key true
  require (!d.state.containers.contains key) INVALID
  let displayName ← readText 4096
  let modified ← readU64
  require (modified.toNat ≤ I64_MAX) INVALID
  let count := (← readU32).toNat
  require (count ≤ (← checkedSub BLOB_LIMIT d.blobs)) INVALID
  let (entry, used) ← forCount decodeBlob count ({ displayName, modified, blobs := ∅ }, d.used)
  return {
    state := { d.state with containers := d.state.containers.insert key entry }
    used
    blobs := d.blobs + count }

def decodeBody : Reader State := do
  require ((← readU32) == 1) INVALID
  let generation ← readU64
  let count := (← readU32).toNat
  require (count ≤ CONTAINER_LIMIT) INVALID
  let d ← forCount decodeContainer count { state := { generation }, used := 0, blobs := 0 }
  let reader ← get
  require (reader.position == reader.data.length) INVALID
  return d.state

def decode [Sha256] (data : Bytes) : Except Error State := do
  require (56 ≤ data.length && data.length ≤ QUOTA + METADATA_LIMIT + 32 &&
    MAGIC.isPrefixOf data) INVALID
  let cut ← checkedSub data.length 32
  let (body, checksum) := data.splitAt cut
  require (Sha256.digest body == checksum) CHECKSUM
  let (state, _) ← decodeBody (.startAt body 8)
  return state

/-! ## Writing -/

def writeText (output : Bytes) (value : String) (maximum : Nat) : Except Error Bytes := do
  require ((utf8 value).length ≤ maximum && !(utf8 value).contains 0) INVALID
  return output ++ leBytes 4 (utf8 value).length ++ utf8 value

/-- The variables of `encode`. -/
structure Encoded where
  output : Bytes
  used : Nat
  blobs : Nat

def encodeBlob (e : Encoded) : String × Bytes → Except Error Encoded
  | (key, bytes) => do
    name key false
    require (bytes.length ≤ (← checkedSub QUOTA e.used)) INVALID
    let output ← writeText e.output key 256
    return { e with
      output := output ++ leBytes 4 bytes.length ++ bytes
      used := e.used + bytes.length }

def encodeContainer (e : Encoded) : String × Container → Except Error Encoded
  | (key, entry) => do
    name key true
    require (entry.modified.toNat ≤ I64_MAX) INVALID
    require (entry.blobs.size ≤ (← checkedSub BLOB_LIMIT e.blobs)) INVALID
    let output ← writeText e.output key 256
    let output ← writeText output entry.displayName 4096
    let output := output ++ leBytes 8 entry.modified.toNat ++ leBytes 4 entry.blobs.size
    let e ← entry.blobs.toList.foldlM encodeBlob
      { output, used := e.used, blobs := e.blobs + entry.blobs.size }
    require (e.output.length ≤ QUOTA + METADATA_LIMIT) INVALID
    return e

def encode [Sha256] (state : State) : Except Error Bytes := do
  require (state.containers.size ≤ CONTAINER_LIMIT) INVALID
  let output := MAGIC ++ leBytes 4 1 ++ leBytes 8 state.generation.toNat ++
    leBytes 4 state.containers.size
  let e ← state.containers.toList.foldlM encodeContainer { output, used := 0, blobs := 0 }
  return e.output ++ Sha256.digest e.output

/-- The state without what a content digest ignores. -/
def canonical (state : State) : State where
  generation := 0
  containers := state.containers.map fun _ entry => { entry with modified := 0 }

def contentDigest [Sha256] (state : State) : Except Error String := do
  return sha256 (← encode (canonical state))

end Flightdeck.SaveState
