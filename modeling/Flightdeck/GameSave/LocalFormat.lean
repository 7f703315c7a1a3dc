import Flightdeck.HResults
import Flightdeck.SaveState.RoundTrip

/-!
# The save file of the native provider

`GameSaveLocalCore.cpp` reads and writes the local save file on its own, with checks of its own in
an order of its own.  Its texts are strings of bytes; those that pass its checks are UTF-8.
-/

namespace Flightdeck.GameSave.LocalSave

open Foundation SaveState

def DEFAULT_QUOTA : Nat := 256 * 1024 * 1024
def MAX_CONTAINERS : Nat := 4096
def MAX_BLOBS : Nat := 65536
def MAX_METADATA : Nat := 32 * 1024 * 1024
def ULONG_MAX : Nat := 2 ^ 32 - 1
def E_INVALIDARG : HResult := 0x80070057
def QUOTA_EXCEEDED : HResult := 0x80830006

/-- What a session accepts as its quota. -/
abbrev Quota := { quota : Nat // 0 < quota ∧ quota ≤ DEFAULT_QUOTA }

def Quota.of? (quota : Nat) : Option Quota :=
  if valid : 0 < quota ∧ quota ≤ DEFAULT_QUOTA then some ⟨quota, valid⟩ else none

/-! ## Names -/

def asciiBase (c : UInt8) : Bool := isAsciiAlphanumeric c || c == 95

/-- `std::string::find_last_of` -/
def findLastOf (c : UInt8) : Bytes → Option Nat
  | [] => none
  | b :: s =>
    match findLastOf c s with
    | some i => some (i + 1)
    | none => if b == c then some 0 else none

def validName (s : Bytes) (container : Bool) : Bool :=
  if s.isEmpty || 256 < s.length || s.getLast? == some 46 || decide ([46, 46] <:+: s) then
    false
  else
    let slash := if container then findLastOf 47 s else none
    if slash.isSome && (s.head? == some 47 || slash == some (s.length - 1) ||
        decide ([47, 47] <:+: s)) then
      false
    else
      s.zipIdx.all fun x =>
        if slash.any (x.2 ≤ ·) then asciiBase x.1 || x.1 == 47
        else asciiBase x.1 || x.1 == 46 || x.1 == 45

/-! ## Reading -/

abbrev Reader (α : Type) := Reading UInt8 HResult α

/-- A step of the other reader, which moves over the same bytes.  Here every failure is one code. -/
def native {α : Type} (r : SaveState.Reader α) : Reader α := fun c =>
  (r c).mapError fun _ => INVALID_DATA

def bytes (n : Nat) : Reader Bytes := native (take n)
def take32 : Reader UInt32 := native readU32
def take64 : Reader UInt64 := native readU64

def text (max : Nat) : Reader Bytes := do
  let n := (← take32).toNat
  require (n ≤ max) INVALID_DATA
  -- `bytes` fails when fewer than `n` are left, which the source asks first
  let x ← bytes n
  require (!x.contains 0) INVALID_DATA
  return x

/-- `valid_utf8`, with the text it finds. -/
def utf8Text (x : Bytes) : Except HResult String := (fromUtf8 x).mapError fun _ => INVALID_DATA

def readName (container : Bool) : Reader String := do
  let x ← text 256
  require (validName x container) INVALID_DATA
  utf8Text x

def readBlob (quota : Nat) : Container × Nat → Reader (Container × Nat)
  | (c, used) => do
    let key ← readName false
    let n := (← take32).toNat
    let data ← bytes n
    require (n ≤ quota - used) INVALID_DATA
    require (!c.blobs.contains key) INVALID_DATA
    return ({ c with blobs := c.blobs.insert key data }, used + n)

def readContainer (quota : Nat) (d : Decoded) : Reader Decoded := do
  let key ← readName true
  let displayName ← utf8Text (← text 4096)
  let modified ← take64
  require (modified.toNat ≤ I64_MAX) INVALID_DATA
  let blobs := (← take32).toNat
  -- the budget of blobs is spent on what a row announces, before they are read
  require (blobs ≤ MAX_BLOBS - d.blobs) INVALID_DATA
  let (c, used) ← forCount (readBlob quota) blobs ({ displayName, modified, blobs := ∅ }, d.used)
  require (!d.state.containers.contains key) INVALID_DATA
  return {
    state := { d.state with containers := d.state.containers.insert key c }
    used
    blobs := d.blobs + blobs }

def readContainers (quota : Nat) : Reader Decoded := do
  require ((← take32) == 1) INVALID_DATA
  let generation ← take64
  let count := (← take32).toNat
  require (count ≤ MAX_CONTAINERS) INVALID_DATA
  forCount (readContainer quota) count { state := { generation }, used := 0, blobs := 0 }

variable [Sha256]

def sha256 (data : Bytes) : Except HResult Bytes := do
  require (data.length ≤ ULONG_MAX) E_INVALIDARG
  return Sha256.digest data

def deserialize (quota : Nat) (v : Bytes) : Except HResult State := do
  require (56 ≤ v.length && MAGIC.isPrefixOf v) INVALID_DATA
  let body := v.take (v.length - 32)
  -- the digest covers the magic too, which the reader then skips
  let digest ← sha256 body
  require (digest == v.drop (v.length - 32)) INVALID_DATA
  let (d, r) ← readContainers quota (.startAt body 8)
  require (r.position == r.data.length) INVALID_DATA
  return d.state

/-- The file of a directory, if it has one. -/
def load (quota : Nat) : Option Bytes → Except HResult State
  | none => .ok {}
  | some v => do
    require (v.length ≤ quota + MAX_METADATA + 32) INVALID_DATA
    deserialize quota v

/-! ## Writing -/

def usedBytes (state : State) : Nat :=
  (state.containers.toList.map fun c => (c.2.blobs.toList.map fun b => b.2.length).sum).sum

def blobCount (state : State) : Nat := (state.containers.toList.map fun c => c.2.blobs.size).sum

def putstr (v : Bytes) (s : String) : Bytes := v ++ leBytes 4 (utf8 s).length ++ utf8 s

def putBlob (v : Bytes) (b : String × Bytes) : Bytes :=
  putstr v b.1 ++ leBytes 4 b.2.length ++ b.2

def putContainer (quota : Nat) (v : Bytes) (c : String × Container) : Except HResult Bytes := do
  let v := putstr (putstr v c.1) c.2.displayName ++ leBytes 8 c.2.modified.toNat ++
    leBytes 4 c.2.blobs.size
  -- one check a container, after all of its blobs are written
  let v := c.2.blobs.toList.foldl putBlob v
  require (v.length ≤ quota + MAX_METADATA) QUOTA_EXCEEDED
  return v

def serialize (quota : Nat) (state : State) : Except HResult Bytes := do
  require (state.containers.size ≤ MAX_CONTAINERS && blobCount state ≤ MAX_BLOBS) QUOTA_EXCEEDED
  require (usedBytes state ≤ quota) QUOTA_EXCEEDED
  let v := MAGIC ++ leBytes 4 1 ++ leBytes 8 state.generation.toNat ++
    leBytes 4 state.containers.size
  let v ← state.containers.toList.foldlM (putContainer quota) v
  return v ++ (← sha256 v)

end Flightdeck.GameSave.LocalSave
