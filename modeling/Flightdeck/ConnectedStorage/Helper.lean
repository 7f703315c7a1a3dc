import Flightdeck.ConnectedStorage.Write
import Flightdeck.Files
import Flightdeck.Foundation.LittleEndian

/-!
# The connected-storage helper

The process between the program and the storage service: it reads requests from a pipe, sends HTTP
requests with the token of one user, and keeps the lease.  Windows, the network and the allocator
are `Outside`: they answer the calls of the process in the order in which it makes them, in any way.
-/

namespace Flightdeck.ConnectedStorage

open Foundation

/-! ## Results -/

abbrev HResult := UInt32

def S_OK : HResult := 0

def E_NOTIMPL : HResult := 0x80004001

def E_FAIL : HResult := 0x80004005

def E_ACCESSDENIED : HResult := 0x80070005

def E_INVALIDARG : HResult := 0x80070057

def failed (hr : HResult) : Bool := 0x80000000 ≤ hr

/-- `HRESULT_FROM_WIN32`. -/
def win32 (error : UInt32) : HResult :=
  if error = 0 ∨ failed error then error else (error &&& 0xffff) ||| 0x80070000

def accepted (status : UInt32) : Bool := 200 ≤ status && status < 300

/-! ## Outside the process -/

/-- The outcome of asking for a token: of the call, of the wait (the process exits if it cannot even
be cancelled), of the two calls for the result. -/
structure Token where
  start : HResult := S_OK
  wait : Option HResult := some S_OK
  sized : HResult := S_OK
  fits : Bool := true
  result : HResult := S_OK
  token : Bytes
  signature : Bytes

/-- What happens to an HTTP request. -/
inductive Answer where
  | thrown
  | unanswered (error status : UInt32)
  | answered (status : UInt32) (headers : Json) (body : Bytes)

inductive DeviceFile where
  | badPath | unopened | unreadable
  | value (seed : Bytes)

structure Runtime where
  id : UInt64
  cloudWrite : Bool

/-- The answers to the calls, by the number of the call. -/
structure Outside where
  init : Nat → Except HResult Runtime
  throws : Nat → Bool
  userId : Nat → HResult × UInt64
  token : Nat → Token
  http : Nat → Answer
  deviceFile : Nat → DeviceFile
  guid : Nat → Option Bytes
  wrote : Nat → Bool

structure Request where
  host : Bytes
  method : Bytes
  path : Bytes
  fields : List (Bytes × Bytes)
  input : Bytes
  maximum : Nat

/-- What `connected_request` hands back. -/
structure Received where
  hr : HResult
  status : UInt32
  headers : Json
  body : Bytes

/-- A request that was sent, what came back unless something was thrown, and the lease then. -/
structure Exchange where
  request : Request
  received : Option Received
  lease : Lease

/-! ## The process -/

structure Process where
  input : Bytes
  calls : Nat := 0
  lease : Lease := {}
  lockExt : Bytes := []
  /-- The path of the storage of the account and the title, once it is known. -/
  base : Bytes := []
  /-- Every value that the lease had before, newest first. -/
  leases : List Lease := []
  exchanges : List Exchange := []
  replies : List (Json × Bytes) := []

/-- How the process leaves a computation: by an exception, or by ending. -/
inductive Exit where
  | thrown (t : Thrown)
  | process

abbrev Run := EStateM Exit Process

def compute {α : Type} (x : Except Thrown α) : Run α := liftM (x.mapError Exit.thrown)

def setLease (l : Lease) : Run Unit :=
  modify fun p => { p with lease := l, leases := p.lease :: p.leases }

def loseLease : Run Unit := do setLease (← get).lease.lost

def call {α : Type} (answers : Nat → α) : Run α := fun p =>
  .ok (answers p.calls) { p with calls := p.calls + 1 }

def object (members : List (String × Json)) : Json :=
  .object (members.map fun m => (utf8 m.1, m.2))

structure Context where
  outside : Outside
  runtime : Runtime
  init : Init

/-- The out-parameters of a request. -/
structure Out where
  status : UInt32 := 0
  headers : Json := .object []
  body : Bytes := []

/-- A place where an allocation may throw. -/
def risk (outside : Outside) : Run Unit := do
  if ← call outside.throws then throw (.thrown .other)

def Answer.received (maximum : Nat) : Answer → Option Received
  | .thrown => none
  | .unanswered error status =>
    some ⟨win32 (if error = 0 then 31 else error), status, .object [], []⟩
  | .answered status headers body =>
    if !accepted status then
      some ⟨S_OK, status, headers, []⟩
    else if ((headers.find "content-encoding").map (·.equalsText (utf8 "identity"))) = some false then
      some ⟨win32 13, status, headers, []⟩
    else if maximum < body.length then
      some ⟨win32 122, status, headers, []⟩
    else
      some ⟨S_OK, status, headers, body⟩

def recordExchange (request : Request) (received : Option Received) : Run Unit :=
  modify fun p => { p with exchanges := ⟨request, received, p.lease⟩ :: p.exchanges }

def connectedRequest (outside : Outside) (request : Request) : Run Received := do
  if request.fields.all fun field => text field.1 128 && text field.2 (128 * 1024) then
    let answer ← call outside.http
    let received := answer.received request.maximum
    recordExchange request received
    match received with
    | some received => return received
    | none => throw (.thrown .other)
  else
    return ⟨E_INVALIDARG, 0, .object [], []⟩

/-! ## Requests with a token -/

def storageHost : Bytes := utf8 "titlestorage.xboxlive.com"

def titlehubHost : Bytes := utf8 "titlehub.xboxlive.com"

def Context.host (titlehub : Bool) : Bytes := if titlehub then titlehubHost else storageHost

def fields (family lockExt method input : Bytes) (titlehub fenced : Bool) :
    List (Bytes × Bytes) :=
  [(utf8 "x-xbl-contract-version", utf8 (if titlehub then "2" else "107")),
    if titlehub then (utf8 "Accept-Language", utf8 "en-US") else (utf8 "x-xbl-pfn", family),
    (utf8 "Accept-Encoding", utf8 "identity")] ++
  (if fenced then [(utf8 "x-xbl-lock-ext", lockExt), (utf8 "x-xbl-lock-ver", utf8 "1")] else []) ++
  (if method = utf8 "POST" ∨ (input ≠ [] ∧ method = utf8 "PUT") then
    [(utf8 "Content-Type", utf8 "application/json")] else [])

variable (c : Context)

/-- Whether the user is still the one that the process was started for. -/
def sameUser : Run Bool := do
  let (hr, current) ← call c.outside.userId
  return !failed hr && current == c.runtime.id

/-- The token and the signature of a request.  The outer error ends the request at once, the inner
one only after the user was checked again. -/
def authorize (method : Bytes) (titlehub : Bool) :
    Run (Except HResult (Except HResult (Bytes × Bytes))) := do
  if !titlehub && method != utf8 "GET" && !c.runtime.cloudWrite then
    return .error E_NOTIMPL
  else
    let t ← call c.outside.token
    if failed t.start then return .error t.start
    else match t.wait with
      | none => throw .process
      | some hr =>
        if failed hr then return .error hr
        else if failed t.sized || !t.fits then
          return .error (if failed t.sized then t.sized else E_FAIL)
        else if failed t.result then return .ok (.error t.result)
        else if t.token.isEmpty || t.signature.isEmpty then return .ok (.error E_ACCESSDENIED)
        else return .ok (.ok (t.token, t.signature))

def transmit (request : Request) (authorized : Except HResult (Bytes × Bytes)) (out : Out) :
    Run (HResult × Out) := do
  match authorized with
  | .error hr => return (hr, out)
  | .ok (token, signature) =>
    let r ← connectedRequest c.outside { request with
      fields := request.fields ++
        [(utf8 "Authorization", token), (utf8 "Signature", signature)] }
    return (r.hr, ⟨r.status, r.headers, r.body⟩)

/-- What happens to the lease after a request. -/
def settle (hr : HResult) (out : Out) (lock : Bool) : Run (HResult × Out) := do
  if ← sameUser c then
    let held := (← get).lease.held
    if (lock || held) && (failed hr || out.status == 403 || out.status == 409) then loseLease
    return (hr, out)
  else
    loseLease
    return (E_ACCESSDENIED, { out with body := [] })

/-- The rest of `send`, for a user that was checked. -/
def sendFields (method : Bytes) (r : Read) (input : Bytes) (out : Out) (titlehub lock : Bool) :
    Run (HResult × Out) := do
  let p ← get
  let fenced := !titlehub && (lock || p.lease.held)
  if fenced && p.lockExt.isEmpty then
    return (E_ACCESSDENIED, out)
  else
    risk c.outside
    match ← authorize c method titlehub with
    | .error hr => return (hr, out)
    | .ok authorized =>
      let request : Request :=
        { host := Context.host titlehub, method, path := r.path
          fields := fields c.init.family p.lockExt method input titlehub fenced
          input, maximum := r.maximum }
      let (hr, out) ← transmit c request authorized out
      risk c.outside
      settle c hr out lock

def send (method : Bytes) (r : Read) (input : Bytes) (out : Out) (titlehub lock : Bool) :
    Run (HResult × Out) := do
  if ← sameUser c then
    sendFields c method r input out titlehub lock
  else
    loseLease
    return (E_ACCESSDENIED, out)

def getRequest (r : Read) (out : Out) (titlehub : Bool) : Run (HResult × Out) :=
  send c (utf8 "GET") r [] out titlehub false

/-! ## The lease -/

def seed : Run HResult := do
  let p ← get
  if !p.lockExt.isEmpty then return S_OK
  else if c.init.deviceFile.isEmpty then return E_ACCESSDENIED
  else match ← call c.outside.deviceFile with
    | .badPath => return E_INVALIDARG
    | .unopened => return E_ACCESSDENIED
    | .unreadable => return E_FAIL
    | .value value =>
      let lockExt := utf8 (hexEncode value) ++ utf8 "_" ++ decimal c.runtime.id.toNat
      modify fun p => { p with lockExt }
      return S_OK

variable [JsonText]

/-- The answer to a request for the lease: what of it is passed on. -/
def leaseAnswer (status : UInt32) (body : Bytes) (renewal : Bool) (safe : Json) : Run Json := do
  risk c.outside
  let j := JsonText.parse body
  let (l, result) := (← get).lease.result status j renewal
  setLease l
  compute result
  risk c.outside
  if status = 200 ∨ status = 201 then
    let owner ← compute (string j "ownerChangeId")
    let quota := (j.find "quotaBytes").getD (.unsigned (256 * 1024 * 1024))
    return object [("owner_change_id", .string owner), ("quota_bytes", quota)]
  else
    return safe

/-- An exception while the answer is read loses the lease. -/
def leaseAnswered (out : Out) (renewal : Bool) (safe : Json) : Run (HResult × UInt32 × Json) := do
  match ← attempt (leaseAnswer c out.status out.body renewal safe) with
  | .ok safe => return (S_OK, out.status, safe)
  | .error .process => throw .process
  | .error (.thrown _) =>
    loseLease
    return (E_FAIL, out.status, safe)

def lockSend (base : Bytes) (renewal : Bool) (status : UInt32) (safe : Json) :
    Run (HResult × UInt32 × Json) := do
  let (hr, out) ← send c (utf8 "PUT") ⟨grantPath base, jsonLimit⟩ [] { status } false true
  if failed hr then
    return (hr, out.status, safe)
  else
    leaseAnswered c out renewal safe

def lockRequest (base : Bytes) (renewal : Bool) (status : UInt32) (safe : Json) :
    Run (HResult × UInt32 × Json) := do
  if c.runtime.cloudWrite then
    let hr ← seed c
    let p ← get
    if failed hr || (renewal && !p.lease.held) then
      return (E_ACCESSDENIED, status, safe)
    else
      lockSend c base renewal status safe
  else
    return (E_ACCESSDENIED, status, safe)

/-! ## Atoms -/

def blockSize : Nat := 4 * 1024 * 1024

/-- The blocks of a payload, of which there is at least one. -/
def blocks (payload : Bytes) : List (Nat × Bytes) :=
  (List.range (max 1 ((payload.length + blockSize - 1) / blockSize))).map fun index =>
    (index, (payload.drop (index * blockSize)).take blockSize)

def base64Digit (n : UInt8) : UInt8 :=
  (utf8 "ABCDEFGHIJKLMNOPQRSTUVWXYZabcdefghijklmnopqrstuvwxyz0123456789+/").getD n.toNat 0

/-- The base64 of the four bytes of an index. -/
def blockId (index : Nat) : Bytes :=
  match leBytes 4 index with
  | [a, b, c, d] =>
    [base64Digit (a >>> 2), base64Digit ((a &&& 3) <<< 4 ||| b >>> 4),
      base64Digit ((b &&& 15) <<< 2 ||| c >>> 6), base64Digit (c &&& 63),
      base64Digit (d >>> 2), base64Digit ((d &&& 3) <<< 4), 61, 61]
  | _ => []

/-- The path of a blob with the parameters of a block in front of its query. -/
def blockTarget (path : Bytes) (index : Nat) : Bytes :=
  path.takeWhile (· != 63) ++ [63] ++ utf8 "comp=block&blockid=" ++ percent (blockId index) ++
    utf8 "&" ++ (path.dropWhile (· != 63)).tail

/-- The block ids, or the answer that ended the upload. -/
def uploadBlocks (azure : Azure) :
    List (Nat × Bytes) → List Json → Run (Except (HResult × UInt32) (List Json))
  | [], ids => return .ok ids
  | (index, block) :: rest, ids => do
    risk c.outside
    let r ← connectedRequest c.outside
      { host := azure.host, method := utf8 "PUT", path := blockTarget azure.path index
        fields := [(utf8 "x-ms-blob-type", utf8 "BlockBlob")]
        input := block, maximum := jsonLimit }
    if failed r.hr || !accepted r.status then
      loseLease
      return .error (r.hr, r.status)
    else
      uploadBlocks azure rest (ids ++ [.string (blockId index)])

/-- The URL that the service allocated. -/
def allocatedUrl (body : Bytes) : Run Azure := do
  risk c.outside
  let url ← compute (string (JsonText.parse body) "blobUri")
  compute (azureUrl url)

/-- The commit of an atom whose blocks are stored. -/
def atomCommit (base path atom payload : Bytes) (ids : List Json) (status : UInt32) :
    Run (HResult × UInt32 × Json) := do
  let (hr, status, _) ← lockRequest c base true status .null
  let p ← get
  if failed hr || status != 200 || !p.lease.held then
    return (if failed hr then hr else E_ACCESSDENIED, status, .object [])
  else
    let input ← compute (JsonText.dump
      (object [("blockIds", .array ids), ("size", .unsigned (UInt64.ofNat payload.length))]))
    let (hr, out) ← send c (utf8 "POST") ⟨path ++ utf8 "?commit=true", jsonLimit⟩ input
      { status } false true
    if !failed hr && accepted out.status then
      return (hr, out.status, object [("atom", .string atom)])
    else
      return (hr, out.status, .object [])

def atomBlocks (base path atom payload : Bytes) (out : Out) : Run (HResult × UInt32 × Json) := do
  match ← attempt (allocatedUrl c out.body) with
  | .error .process => throw .process
  | .error (.thrown _) =>
    loseLease
    return (E_FAIL, out.status, .object [])
  | .ok azure =>
    match ← uploadBlocks c azure (blocks payload) [] with
    | .error (hr, status) => return (hr, status, .object [])
    | .ok ids => atomCommit c base path atom payload ids out.status

def atomAllocate (base atom payload : Bytes) (status : UInt32) :
    Run (HResult × UInt32 × Json) := do
  let path := base ++ utf8 "/atoms/" ++ atom
  let (hr, out) ← send c (utf8 "POST") ⟨path, jsonLimit⟩
    (utf8 "\x7bsize: " ++ decimal payload.length ++ utf8 "\x7d") { status } false true
  if failed hr || !accepted out.status then
    return (hr, out.status, .object [])
  else
    atomBlocks c base path atom payload out

def atomRenew (base atom payload : Bytes) : Run (HResult × UInt32 × Json) := do
  let (hr, status, _) ← lockRequest c base true 0 .null
  let p ← get
  if failed hr || status != 200 || !p.lease.held then
    return (if failed hr then hr else E_ACCESSDENIED, status, .object [])
  else
    atomAllocate c base atom payload status

def atomUpload (base payload : Bytes) : Run (HResult × UInt32 × Json) := do
  let p ← get
  if !p.lease.held || p.lease.uncertain then
    return (E_ACCESSDENIED, 0, .object [])
  else match ← call c.outside.guid with
    | none => return (E_FAIL, 0, .object [])
    | some atom => atomRenew c base atom payload

/-! ## The requests of the parent -/

def writeReply (outside : Outside) (j : Json) (body : Bytes) : Run Unit := do
  let _ ← compute (JsonText.dump j)
  if ← call outside.wrote then
    modify fun p => { p with replies := (j, body) :: p.replies }
  else
    throw .process

def failure (outside : Outside) (code : String) (hr : HResult) (status : UInt32) : Run Unit :=
  writeReply outside (object
    [("error", .string (utf8 code)), ("hresult", .unsigned (UInt64.ofNat hr.toNat)),
      ("http_status", .unsigned (UInt64.ofNat status.toNat)), ("ok", .bool false)]) []

def readExact (n : Nat) : Run (Option Bytes) := fun p =>
  if n ≤ p.input.length then .ok (some (p.input.take n)) { p with input := p.input.drop n }
  else .ok none { p with input := [] }

def readFrame : Run (Option Json) := do
  match ← readExact 4 with
  | none => return none
  | some length =>
    compute (require (leNat length != 0 && leNat length ≤ frameLimit))
    match ← readExact (leNat length) with
    | none => throw (.thrown .invalid)
    | some data =>
      compute (require (JsonText.parse data).isObject)
      return some (JsonText.parse data)

def serveLease (base : Bytes) (renewal : Bool) : Run (Option (HResult × Out)) := do
  let lease := (← get).lease
  if !renewal && (lease.held || lease.uncertain) then
    return none
  else
    let (hr, status, safe) ← lockRequest c base renewal 0 (.object [])
    let body ← compute (JsonText.dump safe)
    return some (hr, { status, body })

def serveRelease (w : Write) : Run (Option (HResult × Out)) := do
  let p ← get
  if !p.lease.held || p.lease.uncertain || p.lockExt.isEmpty then
    return none
  else
    let (hr, out) ← send c (utf8 "DELETE") ⟨w.path, w.maximum⟩ [] {} false true
    loseLease
    return some (hr, { out with body := [] })

/-- A container is put or deleted after the lease was renewed. -/
def serveContainer (base : Bytes) (w : Write) : Run (HResult × Out) := do
  let (hr, status, _) ← lockRequest c base true 0 (.object [])
  let p ← get
  if !failed hr && status == 200 && p.lease.held then
    send c w.method ⟨w.path, w.maximum⟩ w.body { status } false true
  else
    return (if failed hr then hr else E_ACCESSDENIED, { status })

def serveMutation (base : Bytes) (w : Write) (input : Bytes) : Run (Option (HResult × Out)) := do
  let p ← get
  if !p.lease.held || p.lease.uncertain then
    return none
  else if w.op = utf8 "atom_upload" then
    let (hr, status, safe) ← atomUpload c base input
    let body ← compute (JsonText.dump safe)
    return some (hr, { status, body })
  else
    some <$> serveContainer c base w

/-- A write; nothing if the lease does not allow it. -/
def serveWrite (base : Bytes) (w : Write) (input : Bytes) : Run (Option (HResult × Out)) :=
  if w.op = utf8 "lease_acquire" ∨ w.op = utf8 "lease_renew" then
    serveLease c base (w.op == utf8 "lease_renew")
  else if w.op = utf8 "lease_release" then
    serveRelease c w
  else
    serveMutation c base w input

/-- The body of an answer that is no success is not passed on. -/
def clearBody (hr : HResult) (out : Out) : Out :=
  if failed hr || !accepted out.status then { out with body := [] } else out

def answerWrite (base : Bytes) (w : Write) : Run (Option (HResult × Out)) := do
  match ← readExact w.input with
  | none => throw (.thrown .invalid)
  | some input =>
    let result ← serveWrite c base w input
    return result.map fun (hr, out) => (hr, clearBody hr out)

def serveOperation (base : Bytes) (j : Json) (op : Bytes) : Run (Option (HResult × Out)) := do
  if op = utf8 "index" ∨ op = utf8 "container" ∨ op = utf8 "atom" then
    let r ← compute (request j base op)
    some <$> getRequest c r {} false
  else
    let w ← compute (writeRequest j base op)
    answerWrite c base w

def serve (base : Bytes) (j : Json) : Run Unit := do
  let op ← compute (string j "op")
  risk c.outside
  match ← serveOperation c base j op with
  | none => failure c.outside "lease_state" E_ACCESSDENIED 0
  | some (hr, out) =>
    if failed hr then
      failure c.outside "transport" hr out.status
    else
      writeReply c.outside (object
        [("body_bytes", .unsigned (UInt64.ofNat out.body.length)), ("headers", out.headers),
          ("ok", .bool true), ("status", .unsigned (UInt64.ofNat out.status.toNat))]) out.body

/-- The loop over the requests, of which `left` may still follow. -/
def loop (base : Bytes) : Nat → Run Unit
  | 0 => do
    match ← readFrame with
    | none => return
    | some _ => throw (.thrown .invalid)
  | left + 1 => do
    match ← readFrame with
    | none => return
    | some j =>
      serve c base j
      loop base left

/-! ## The start -/

def xuid (runtime : Runtime) : Bytes := utf8 "xuid(" ++ decimal runtime.id.toNat ++ utf8 ")"

def historyPath (runtime : Runtime) : Bytes :=
  utf8 "/users/" ++ xuid runtime ++
    utf8 "/titles/titlehistory/decoration/scid,image,detail"

/-- The service configuration id, from the title history if it is not given. -/
def findScid : Run (Option Bytes) := do
  if !c.init.scid.isEmpty then
    return some c.init.scid
  else
    let (hr, out) ← getRequest c ⟨historyPath c.runtime, jsonLimit⟩ {} true
    if failed hr || out.status != 200 then
      failure c.outside
        (if out.status = 401 ∨ out.status = 403 then "authentication" else "title_binding")
        (if failed hr then hr else E_ACCESSDENIED) out.status
      return none
    else
      match titleScid (JsonText.parse out.body) c.init.title c.init.family
          (decimal c.runtime.id.toNat) with
      | .ok scid => return some scid
      | .error .invalid =>
        failure c.outside "title_binding" E_INVALIDARG out.status
        return none
      | .error .other => throw (.thrown .other)

def welcome (scid : Bytes) : Json :=
  let features := if c.runtime.cloudWrite then
    ["connected-storage-read-v1", "connected-storage-sync-v1"] else ["connected-storage-read-v1"]
  object
    [("features", .array (features.map fun f => .string (utf8 f))), ("ok", .bool true),
      ("protocol", .unsigned 2),
      ("scope", object
        [("package_family_name", .string c.init.family), ("scid", .string scid),
          ("title_id", .unsigned c.init.title),
          ("xuid", .string (decimal c.runtime.id.toNat))])]

def serveAccount : Run Unit := do
  match ← findScid c with
  | none => return
  | some scid =>
    let base := utf8 "/connectedstorage/users/" ++ xuid c.runtime ++ utf8 "/scids/" ++ scid
    modify fun p => { p with base }
    writeReply c.outside (welcome c scid) []
    loop c base 8192

def main (outside : Outside) : Run Unit := do
  match ← readFrame with
  | none => return
  | some j =>
    let init ← compute (initRequest j)
    match ← call outside.init with
    | .error hr => failure outside "authentication" hr 0
    | .ok runtime => serveAccount ⟨outside, runtime, init⟩

/-- The process when it has ended, after an exception was reported. -/
def run (outside : Outside) (input : Bytes) : Process :=
  match main outside { input } with
  | .ok _ p => p
  | .error .process p => p
  | .error (.thrown .invalid) p => stateOf (failure outside "invalid_request" E_INVALIDARG 0 p)
  | .error (.thrown .other) p => stateOf (failure outside "internal" E_FAIL 0 p)

end Flightdeck.ConnectedStorage
