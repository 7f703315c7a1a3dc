import Flightdeck.Cloud.Snapshot

/-!
# Reading the storage service

`cloud_storage.rs`: the checks on every answer, the paged index, the atoms of a container.  The JSON
library is a parameter.  Nothing here sees the deadline pass or the cancel flag set: the service is
asked at one moment and a run is never cut off.
-/

namespace Flightdeck.Cloud

open Foundation SaveState

/-! ## JSON -/

/-- `serde_json::Value`; of a number only its value as a `u64` is ever read. -/
inductive Json where
  | null
  | bool (b : Bool)
  | number (value : Option UInt64)
  | string (text : String)
  | array (rows : List Json)
  | object (fields : List (String × Json))

/-- `strict_json::decode`. -/
class JsonText where
  decode : Bytes → Option Json

namespace Json

/-- `value["key"]` -/
def get (value : Json) (key : String) : Json :=
  match value with
  | .object fields => (fields.lookup key).getD .null
  | _ => .null

def isNull : Json → Bool
  | .null => true
  | _ => false

def isObject : Json → Bool
  | .object _ => true
  | _ => false

def asObject : Json → Option (List (String × Json))
  | .object fields => some fields
  | _ => none

def asArray : Json → Option (List Json)
  | .array rows => some rows
  | _ => none

def asStr : Json → Option String
  | .string text => some text
  | _ => none

def asU64 : Json → Option Nat
  | .number value => value.map UInt64.toNat
  | _ => none

end Json

/-- `ok_or_else(|| Failure::new(code))` -/
def orElse {α : Type} (value : Option α) (code : Code) : Except Failure α :=
  match value with
  | some a => .ok a
  | none => .error (.new code)

/-- A control character of ASCII. -/
def isControl (c : Char) : Bool := c < ' ' || c == Char.ofNat 127

/-- `cloud::json` -/
def json [JsonText] (bytes : Bytes) : Except Failure Json := do
  let value ← orElse (JsonText.decode bytes) .invalidResponse
  Cloud.require value.isObject .invalidResponse
  return value

/-- `cloud::text` -/
def text (value : Json) (maximum : Nat) (empty : Bool) : Except Failure String := do
  let v ← orElse value.asStr .invalidResponse
  Cloud.require ((empty || !v.isEmpty) && !v.toList.any isControl) .invalidResponse
  Cloud.require ((utf8 v).length ≤ maximum) .bounds
  return v

/-- `cloud::number` -/
def number (value : Json) (maximum : Nat) : Except Failure Nat :=
  orElse (value.asU64.filter (· ≤ maximum)) .invalidResponse

end Flightdeck.Cloud

namespace Flightdeck.Cloud.Storage

open Foundation SaveState

/-! ## File times -/

def isDigit (c : Char) : Bool := '0' ≤ c && c ≤ '9'

/-- What a run of digits spells. -/
def decimal (digits : List Char) : Nat := digits.foldl (fun n c => 10 * n + (c.toNat - 48)) 0

/-- A text of the shape: a `0` there stands for any digit. -/
def fits : (shape text : List Char) → Bool
  | [], [] => true
  | s :: shape, c :: text => (if s = '0' then isDigit c else s == c) && fits shape text
  | _, _ => false

def isLeap (year : Nat) : Bool := (year % 4 == 0 && year % 100 != 0) || year % 400 == 0

def monthDays (year : Nat) : List Nat :=
  [31, if isLeap year then 29 else 28, 31, 30, 31, 30, 31, 31, 30, 31, 30, 31]

/-- The days from the first day of year 1 to the first day of a year. -/
def daysBefore (year : Int) : Int :=
  365 * (year - 1) + (year - 1) / 4 - (year - 1) / 100 + (year - 1) / 400

/-- `timestamp()` of a day: its distance from 1970 in days. -/
def epochDays (year month day : Nat) : Int :=
  daysBefore year - daysBefore 1970 + ((monthDays year).take (month - 1)).sum + day - 1

/-- The seconds since 1970 of the first 19 characters, if the calendar has such a time. -/
def dateTime (text : List Char) : Option Int :=
  let part (start length : Nat) := decimal ((text.drop start).take length)
  let (year, month, day) := (part 0 4, part 5 2, part 8 2)
  let (hour, minute, second) := (part 11 2, part 14 2, part 17 2)
  if 1 ≤ month ∧ month ≤ 12 ∧ 1 ≤ day ∧ day ≤ (monthDays year).getD (month - 1) 0 ∧
      hour < 24 ∧ minute < 60 ∧ second ≤ 60 then
    some (epochDays year month day * 86400 + hour * 3600 + minute * 60 + second)
  else
    none

/-- The seconds that a zone is ahead of UTC. -/
def zoneOffset (zone : List Char) : Except Failure Int :=
  if zone = ['Z'] then
    return 0
  else do
    let hours := decimal ((zone.drop 1).take 2)
    let minutes := decimal ((zone.drop 4).take 2)
    Cloud.require (hours ≤ 14 && minutes < 60 && (hours != 14 || minutes == 0)) .invalidResponse
    return (hours * 60 + minutes) * 60 * if zone.head? = some '+' then 1 else -1

/-- The regular expression of `file_time`: what follows the first 19 characters is a fraction and a
zone. -/
def stamp (text : List Char) : Option (List Char × List Char) :=
  let rest := text.drop 19
  let fraction := if rest.head? = some '.' then (rest.drop 1).takeWhile isDigit else []
  let zone := if rest.head? = some '.' then (rest.drop 1).dropWhile isDigit else rest
  let whole := fits "0000-00-00T00:00:00".toList (text.take 19)
  let ticks := rest.head? != some '.' || (1 ≤ fraction.length && fraction.length ≤ 7)
  let named := zone == ['Z'] || fits "+00:00".toList zone || fits "-00:00".toList zone
  if whole && ticks && named then
    some (fraction, zone)
  else
    none

/-- `file_time`: ticks of 100 nanoseconds since 1601. -/
def fileTime (value : Json) : Except Failure Nat :=
  match value.asU64 with
  | some n => return n
  | none => do
    let s ← orElse value.asStr .invalidResponse
    let (fraction, zone) ← orElse (stamp s.toList) .invalidResponse
    let date ← orElse (dateTime s.toList) .invalidResponse
    -- chrono accepts a leap second, the service does not
    Cloud.require ((s.toList.drop 17).take 2 != ['6', '0']) .invalidResponse
    let offset ← zoneOffset zone
    let ticks := (date - offset + 11644473600) * 10000000 +
      decimal (fraction ++ List.replicate (7 - fraction.length) '0')
    Cloud.require (0 ≤ ticks && ticks < 2 ^ 64) .invalidResponse
    return ticks.toNat

/-! ## Answers -/

inductive ReadOperation where
  | index (skip : Nat) (continuation : Option String)
  | container (name : String)
  | atom (id : String)
  deriving DecidableEq

structure Response where
  status : UInt16
  headers : TextMap String
  body : Bytes

/-- The service as a download finds it: while it does not change, an answer depends on the request
and on the bound that the request carries. -/
structure Server where
  scope : Scope
  read : ReadOperation → Nat → Except Failure Response

structure Limits where
  pages : Nat := 64
  containers : Nat := 4096
  blobs : Nat := 65536
  blobBytes : Nat := 64 * 1024 * 1024
  totalBytes : Nat := 256 * 1024 * 1024
  jsonBytes : Nat := 4 * 1024 * 1024

/-- A computation that sends requests: which ones, and what it comes to. -/
structure Reader (α : Type) where
  requests : List ReadOperation
  result : Except Failure α

namespace Reader

variable {α β : Type}

def bind (x : Reader α) (f : α → Reader β) : Reader β :=
  match x.result with
  | .ok a => ⟨x.requests ++ (f a).requests, (f a).result⟩
  | .error e => ⟨x.requests, .error e⟩

instance : Monad Reader where
  pure a := ⟨[], .ok a⟩
  bind := bind

instance : MonadLift (Except Failure) Reader := ⟨fun x => ⟨[], x⟩⟩

@[simp] theorem result_pure (a : α) : (pure a : Reader α).result = .ok a := rfl

@[simp] theorem result_lift (x : Except Failure α) : (liftM x : Reader α).result = x := rfl

/-- The requests do not matter for the result. -/
@[simp] theorem result_bind (x : Reader α) (f : α → Reader β) :
    (x >>= f).result = x.result >>= fun a => (f a).result := by
  show (bind x f).result = _
  unfold bind
  cases x.result <;> rfl

/-- A loop is a loop of its results. -/
theorem result_foldlM {ρ : Type} (f : β → ρ → Reader β) (rows : List ρ) (b : β) :
    (rows.foldlM f b).result = rows.foldlM (fun b row => (f b row).result) b := by
  induction rows generalizing b with
  | nil => rfl
  | cons row rows ih =>
    simp only [List.foldlM_cons, result_bind, ih]

theorem result_forM {ρ : Type} (f : ρ → Reader Unit) (rows : List ρ) :
    (rows.forM f).result = rows.forM fun row => (f row).result := by
  induction rows with
  | nil => rfl
  | cons row rows ih =>
    show (f row >>= fun _ => rows.forM f).result = ((f row).result >>= fun _ => _)
    rw [result_bind, ih]

theorem mem_bind_left {x : Reader α} {f : α → Reader β} {op : ReadOperation}
    (h : op ∈ x.requests) : op ∈ (x >>= f).requests := by
  show op ∈ (bind x f).requests
  unfold bind
  cases x.result with
  | error e => exact h
  | ok a => exact List.mem_append_left _ h

theorem mem_bind_right {x : Reader α} {f : α → Reader β} {op : ReadOperation} {a : α}
    (hx : x.result = .ok a) (h : op ∈ (f a).requests) : op ∈ (x >>= f).requests := by
  show op ∈ (bind x f).requests
  unfold bind
  rw [hx]
  exact List.mem_append_right _ h

end Reader

/-- `headers`: lower-case names, none of them twice. -/
def headers (values : TextMap String) : Except Failure (TextMap String) :=
  values.toList.foldlM (fun out (name, value) => do
    Cloud.require (!name.isEmpty && (utf8 name).all (fun c => isAsciiAlphanumeric c ||
      (utf8 "!#$%&'*+.^_`|~-").contains c) && !value.toList.any isControl) .invalidResponse
    Cloud.require (!out.contains name.toLower) .invalidResponse
    return out.insert name.toLower value) ∅

/-- `str::parse::<u64>` on digits, as the length of a body is read. -/
def contentLength (length : String) : Except Failure Nat := do
  Cloud.require (!length.isEmpty && (utf8 length).length ≤ 20 && (utf8 length).all isAsciiDigit)
    .invalidResponse
  orElse (parseU64 length) .bounds

/-- What `Reader::get` makes of an answer. -/
def checkResponse (answer : Response) (maximum : Nat) : Except Failure Bytes := do
  if answer.status = 401 ∨ answer.status = 403 then
    throw ((Failure.new .authentication).status answer.status)
  if answer.status = 404 then
    throw ((Failure.new .notFound).status 404)
  if answer.status ≠ 200 then
    throw ((Failure.new .httpError).status answer.status)
  let h ← headers answer.headers
  Cloud.require (h["content-encoding"]?.all fun v => v.toLower == "identity") .invalidResponse
  if let some length := h["content-length"]? then
    let n ← contentLength length
    Cloud.require (n ≤ maximum) .bounds
    Cloud.require (n == answer.body.length) .invalidResponse
  Cloud.require (answer.body.length ≤ maximum) .bounds
  return answer.body

variable [JsonText] (limits : Limits) (server : Server)

/-- `Reader::get` -/
def Server.get (op : ReadOperation) (maximum : Nat) : Reader Bytes where
  requests := [op]
  result := do
    let answer ← server.read op maximum
    checkResponse answer maximum

/-! ## The index -/

/-- The variables that the pages of the index change. -/
structure Listing where
  result : List Container := []
  names : TextSet := ∅
  tokens : TextSet := ∅
  expected : Option Nat := none
  size : Nat := 0
  continuation : Option String := none

def inventoryRow (st : Listing) (row : Json) : Except Failure Listing := do
  let name ← text (row.get "fileName") 1024 false
  Cloud.require (name != "." && name != ".." && !st.names.contains name) .invalidResponse
  let displayName ← text (row.get "displayName") 256 true
  let etag ← text (row.get "etag") 1024 false
  let clientFileTime ← fileTime (row.get "clientFileTime")
  let size ← number (row.get "size") limits.totalBytes
  Cloud.require (st.size + size ≤ limits.totalBytes) .bounds
  return { st with
    result := st.result ++ [{ name, displayName, etag, clientFileTime, size }]
    names := st.names.insert name ()
    size := st.size + size }

/-- The total and the token of a page. -/
def paging (value : Json) : Except Failure (Nat × Option String) := do
  let paging ← orElse (value.get "pagingInfo").asObject .invalidResponse
  let token ← orElse (paging.lookup "continuationToken") .invalidResponse
  let continuation ← if token.isNull then pure none else some <$> text token 8192 false
  let total ← number ((value.get "pagingInfo").get "totalItems") limits.containers
  return (total, continuation)

/-- One page, with the total it names and whether it has rows. -/
def inventoryPage (st : Listing) (data : Bytes) : Except Failure (Listing × Nat × Bool) := do
  let value ← json data
  let rows ← orElse (value.get "blobs").asArray .invalidResponse
  let (total, continuation) ← paging limits value
  Cloud.require (st.expected.all (· == total)) .changed
  Cloud.require (st.result.length + rows.length ≤ total) .invalidResponse
  let st ← rows.foldlM (inventoryRow limits)
    { st with expected := some (st.expected.getD total), continuation }
  return (st, total, !rows.isEmpty)

/-- The loop of `Reader::inventory`. -/
def inventoryLoop : Nat → Listing → Reader (List Container)
  | 0, _ => liftM (m := Except Failure) (throw (.new .bounds))
  | pages + 1, st => do
    let data ← server.get (.index st.result.length st.continuation) limits.jsonBytes
    let (st, total, rows) ← inventoryPage limits st data
    match st.continuation with
    | none =>
      Cloud.require (st.result.length == total) .invalidResponse
      return Import.byName Container.name st.result
    | some token =>
      Cloud.require (rows && st.result.length < total && !st.tokens.contains token) .invalidResponse
      inventoryLoop pages { st with tokens := st.tokens.insert token () }

def inventory : Reader (List Container) := inventoryLoop limits server limits.pages {}

/-! ## The atoms of a container -/

/-- A row of the dictionary form: the name, and the id before `,binary`. -/
def dictionaryAtom (entry : String × Json) : Except Failure Atom := do
  let id ← orElse (entry.2.asStr.bind fun s => Import.stripSuffix s ",binary") .invalidResponse
  return { name := entry.1, atom := id, size := none }

/-- A row of the array form. -/
def arrayAtom (row : Json) : Except Failure Atom := do
  let name ← text (row.get "name") 256 false
  let size ← number (row.get "size") limits.blobBytes
  return { name, atom := (row.get "atom").asStr.getD "", size := some size }

/-- Names and ids that were listed already. -/
structure Listed where
  names : TextSet := ∅
  ids : TextSet := ∅

def checkAtom (seen : Listed) (atom : Atom) : Except Failure Listed := do
  let _ ← text (.string atom.name) 256 false
  Cloud.require (guid atom.atom && !seen.names.contains atom.name &&
    !seen.ids.contains atom.atom.toLower) .invalidResponse
  return { names := seen.names.insert atom.name (), ids := seen.ids.insert atom.atom.toLower () }

/-- What the document of a container lists, and whether it does so in a dictionary. -/
def atomsDocument (data : Bytes) : Except Failure (Bool × List Atom) := do
  let value ← json data
  let (dictionary, atoms) ← match (value.get "atoms").asObject with
    | some map => do
      Cloud.require (map.length ≤ limits.blobs) .bounds
      pure (true, ← map.mapM dictionaryAtom)
    | none => do
      let rows ← orElse (value.get "atoms").asArray .invalidResponse
      Cloud.require (rows.length ≤ limits.blobs) .bounds
      pure (false, ← rows.mapM (arrayAtom limits))
  let _ ← atoms.foldlM checkAtom {}
  return (dictionary, atoms)

/-- What is listed for a container, its size aside. -/
def document (name : String) : Reader (Bool × List Atom) := do
  let data ← server.get (.container name) limits.jsonBytes
  atomsDocument limits data

/-- `Reader::atoms` -/
def atoms (container : Container) : Reader (List Atom) := do
  let (dictionary, atoms) ← document limits server container.name
  Cloud.require (dictionary || (atoms.map fun a => a.size.getD 0).sum == container.size) .changed
  return Import.byName Atom.name atoms

end Flightdeck.Cloud.Storage
