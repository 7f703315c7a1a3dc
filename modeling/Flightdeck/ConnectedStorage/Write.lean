import Flightdeck.ConnectedStorage.Protocol

/-!
# Writes and the lease of the connected-storage helper

What the helper accepts as a write, the URL it takes for a blob, and the lease it writes under.
-/

namespace Flightdeck.ConnectedStorage

open Foundation

structure Write where
  op : Bytes
  path : Bytes := []
  method : Bytes := []
  body : Bytes := []
  input : Nat := 0
  maximum : Nat

/-- A time stamp such as `2024-01-01T00:00:00Z`. -/
def clientFileTime (modified : Bytes) : Bool :=
  modified.length == 20 && modified.zipIdx.all fun (c, i) =>
    if i = 4 ∨ i = 7 then c == 45
    else if i = 10 then c == 84
    else if i = 13 ∨ i = 16 then c == 58
    else if i = 19 then c == 90
    else isDigit c

def atomRow (row : Bytes × Json) : Except Thrown Json :=
  match row.2 with
  | .string atom => do
    require (text row.1 256 && atomGuid atom)
    return .object [(utf8 "name", .string row.1), (utf8 "atom", .string atom)]
  | _ => invalid

def atomList (j : Json) : Except Thrown (List Json) :=
  match j.find "atoms" with
  | some (.object atoms) => do
    require (atoms.length ≤ 16384)
    atoms.mapM atomRow
  | _ => invalid

def leasePath (base : Bytes) : Bytes := base ++ utf8 "/lock"

def grantPath (base : Bytes) : Bytes := leasePath base ++ utf8 "?friendlyName=Flightdeck"

def containerPath (base name : Bytes) : Bytes := base ++ utf8 "/savedgames/" ++ percent name

def containerPut [JsonText] (j : Json) (w : Write) : Except Thrown Write := do
  keys j ["op", "wire_name", "display_name", "modified", "atoms", "max_bytes", "body_bytes"]
  let _ ← number j "body_bytes" 0
  let display ← string j "display_name"
  let modified ← string j "modified"
  require ((display.isEmpty || text display 1024) && clientFileTime modified)
  let list ← atomList j
  let body ← JsonText.dump (.object [(utf8 "atoms", .array list)])
  require (body.length ≤ jsonLimit)
  let displayName := if display.isEmpty then [] else utf8 "&displayName=" ++ percent display
  return { w with
    body, method := utf8 "PUT"
    path := w.path ++ (utf8 "?clientFileTime=" ++ percent modified) ++ displayName }

/-- `write_request`, for the operation `op` of `j`. -/
def writeRequest [JsonText] (j : Json) (base op : Bytes) : Except Thrown Write := do
  let limit ← number j "max_bytes" jsonLimit
  let w : Write := { op, maximum := limit.toNat }
  if op = utf8 "lease_acquire" ∨ op = utf8 "lease_renew" ∨ op = utf8 "lease_release" then do
    keys j ["op", "max_bytes", "body_bytes"]
    let _ ← number j "body_bytes" 0
    if op = utf8 "lease_release" then
      return { w with path := leasePath base, method := utf8 "DELETE" }
    else
      return { w with path := grantPath base, method := utf8 "PUT" }
  else if op = utf8 "atom_upload" then do
    keys j ["op", "max_bytes", "body_bytes"]
    let input ← number j "body_bytes" blobLimit
    return { w with input := input.toNat }
  else if op = utf8 "container_put" ∨ op = utf8 "container_delete" then do
    let wire ← string j "wire_name"
    let name ← containerName wire
    let w := { w with path := containerPath base name }
    if op = utf8 "container_delete" then do
      keys j ["op", "wire_name", "max_bytes", "body_bytes"]
      let _ ← number j "body_bytes" 0
      return { w with method := utf8 "DELETE" }
    else
      containerPut j w
  else
    invalid

/-! ## The URL of a blob -/

def unhex (c : UInt8) : Option UInt8 :=
  if isDigit c then some (c - 48)
  else if 65 ≤ c && c ≤ 70 then some (c - 55)
  else if 97 ≤ c && c ≤ 102 then some (c - 87)
  else none

def unpercent : Bytes → Except Thrown Bytes
  | [] => .ok []
  | c :: rest =>
    if c = 37 then
      match rest with
      | a :: b :: rest =>
        match unhex a, unhex b with
        | some a, some b => ((a * 16 + b) :: ·) <$> unpercent rest
        | _, _ => invalid
      | _ => invalid
    else
      (c :: ·) <$> unpercent rest

/-- What stands before and after the first occurrence of a character. -/
def splitAt? (c : UInt8) (s : Bytes) : Option (Bytes × Bytes) :=
  if s.contains c then some (s.takeWhile (· != c), (s.dropWhile (· != c)).tail) else none

def lowerCase (s : Bytes) : Bytes := s.map fun c => if isUpper c then c + 32 else c

/-- One pair of a query, after the keys seen before and whether one was the signature. -/
def queryPair (acc : List Bytes × Bool) (pair : Bytes) : Except Thrown (List Bytes × Bool) :=
  match splitAt? 61 pair with
  | none => invalid
  | some (k, v) => do
    let key ← unpercent k
    let value ← unpercent v
    let lower := lowerCase key
    require (!acc.1.contains lower && text key 64 && text value 8192 && lower != utf8 "comp" &&
      lower != utf8 "blockid")
    return (lower :: acc.1, acc.2 || key == utf8 "sig")

structure Azure where
  host : Bytes
  path : Bytes

def azureSuffix : Bytes := utf8 ".blob.core.windows.net"

def azureHost (host : Bytes) : Bool :=
  let account := dropRight host azureSuffix
  hasSuffix host azureSuffix && 3 ≤ account.length && account.length ≤ 24 &&
    account.all fun c => isLower c || isDigit c

/-- `azure_url`: only the HTTPS URL of a storage account, with a signature. -/
def azureUrl (url : Bytes) : Except Thrown Azure := do
  require ((utf8 "https://").isPrefixOf url && text url 16384)
  match splitAt? 47 (url.drop 8) with
  | none => invalid
  | some (host, tail) =>
    let path := 47 :: tail
    require (azureHost host)
    require (!path.contains 35 && !path.contains 92)
    match splitAt? 63 path with
    | none => invalid
    | some (resource, query) =>
      require (2 ≤ resource.length && !query.contains 63)
      let pairs ← (query.splitOn 38).foldlM queryPair ([], false)
      require pairs.2
      return ⟨host, path⟩

/-! ## The lease -/

structure Lease where
  held : Bool := false
  uncertain : Bool := false
  owner : Bytes := []
  quota : UInt64 := 0

namespace Lease

def lost (l : Lease) : Lease := { l with held := false, uncertain := true }

/-- The owner and the quota that an answer grants. -/
def granted (body : Json) : Except Thrown (Bytes × UInt64) := do
  let next ← string body "ownerChangeId"
  require (text next 256)
  let limit ← if body.contains "quotaBytes" then number body "quotaBytes" (2 ^ 64 - 1)
    else pure (256 * 1024 * 1024)
  require (limit != 0)
  return (next, limit)

/-- `Lease::result`: the lease after the answer to a request for it. -/
def result (l : Lease) (status : UInt32) (body : Json) (renewal : Bool) :
    Lease × Except Thrown Unit :=
  if status ≠ 200 ∧ status ≠ 201 then
    (l.lost, .ok ())
  else
    match granted body with
    | .error e => (l.lost, .error e)
    | .ok (next, limit) =>
      if renewal ∧ (status ≠ 200 ∨ l.held = false ∨ next ≠ l.owner) then
        (l.lost, .ok ())
      else
        ({ held := true, uncertain := false, owner := next, quota := limit }, .ok ())

end Lease

end Flightdeck.ConnectedStorage
