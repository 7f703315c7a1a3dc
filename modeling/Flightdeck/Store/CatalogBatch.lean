import Flightdeck.Foundation.Weights
import Flightdeck.HResults

/-!
# Catalog batches

A `CatalogReader` looks up the products of a query.  Up to four workers share the next index, the
size of what was read and the first failure, and fill the slots of the result; all queries of a
reader share a cache of raw documents, which is bounded in its entries and in their bytes.
-/

namespace Flightdeck.Store.Catalog

open Foundation

def E_FAIL : HResult := 0x80004005
def E_OUTOFMEMORY : HResult := 0x8007000E
def E_INVALIDARG : HResult := 0x80070057
/-- `HRESULT_FROM_WIN32(ERROR_FILE_TOO_LARGE)` -/
def FILE_TOO_LARGE : HResult := 0x800700DF
/-- `HRESULT_FROM_WIN32(ERROR_TIMEOUT)` -/
def TIMEOUT : HResult := 0x800705B4

/-- What `read` looks at of a product. -/
structure Product where
  id : String := ""
  rawJson : Bytes := []
  deriving DecidableEq, Inhabited

/-! ## The cache -/

structure Cached where
  bytes : Bytes
  expires : UInt64

structure State where
  cache : TextMap Cached := ∅
  cacheBytes : UInt64 := 0
  /-- whether more was ever subtracted from `cacheBytes` than it held -/
  underflowed : Bool := false

/-- `std::string::size` -/
def size (bytes : Bytes) : UInt64 := UInt64.ofNat bytes.length

def MAX_ENTRIES := 256
def MAX_BYTES : UInt64 := 16 * 1024 * 1024
def MAX_ENTRY := 4 * 1024 * 1024
/-- of all documents of a query -/
def MAX_BATCH : UInt64 := 32 * 1024 * 1024

namespace State

/-- The entry is erased, and its size subtracted. -/
def remove (s : State) (key : String) (entry : Cached) : State where
  cache := s.cache.erase key
  cacheBytes := s.cacheBytes - size entry.bytes
  underflowed := s.underflowed || decide (s.cacheBytes < size entry.bytes)

def get (s : State) (key : String) (now : UInt64) : Bytes × State :=
  match s.cache[key]? with
  | none => ([], s)
  | some entry => if entry.expires ≤ now then ([], s.remove key entry) else (entry.bytes, s)

/-- The loop in `put`; each turn erases an entry, so that there are no more turns than entries. -/
def evict (bytes : Bytes) : Nat → State → State
  | 0, s => s
  | turns + 1, s =>
    match s.cache.toList.head? with
    | none => s
    | some (key, entry) =>
      if MAX_ENTRIES ≤ s.cache.size ∨ MAX_BYTES < s.cacheBytes + size bytes then
        evict bytes turns (s.remove key entry)
      else s

def replaced (s : State) (key : String) : State :=
  match s.cache[key]? with
  | none => s
  | some old => s.remove key old

/-- `allocated` says that the map has memory for the entry. -/
def put (s : State) (key : String) (bytes : Bytes) (now : UInt64) (allocated : Bool) : State :=
  if bytes.isEmpty || decide (MAX_ENTRY < bytes.length) then s
  else
    let s := s.replaced key
    let s := evict bytes s.cache.size s
    if allocated then
      { s with
        cache := s.cache.insertIfNew key ⟨bytes, now + 60000⟩
        cacheBytes := s.cacheBytes + size bytes }
    else s

end State

/-! ## A query -/

/-- The test of an id in `read`. -/
def productId (id : String) : Bool :=
  (utf8 id).length == 12 && (utf8 id).all fun c => (65 ≤ c && c ≤ 90) || (48 ≤ c && c ≤ 57)

/-- The loop over `ids` that fills `unique`. -/
def collect : List String → TextSet → List String → Except HResult (List String)
  | [], _, unique => .ok unique
  | id :: ids, seen, unique =>
    if !productId id then .error E_INVALIDARG
    else if seen.contains id then collect ids seen unique
    else collect ids (seen.insert id ()) (unique ++ [id])

/-- What comes before the workers: the deadline and the ids to look up. -/
def prepare (ids : List String) (cancelled : Bool) (deadline start now : UInt64) :
    Except HResult (UInt64 × List String) :=
  if ids.isEmpty || decide (100 < ids.length) then .error E_INVALIDARG
  else if cancelled then .error E_ABORT
  else
    let deadline := if deadline = 0 then start + 30000 else deadline
    if deadline ≤ now then .error TIMEOUT
    else (collect ids ∅ []).map fun unique => (deadline, unique)

/-- How a lookup ended. -/
structure Lookup where
  id : String
  hr : HResult
  value : Product

/-- Where a worker stands in its loop. -/
inductive Worker where
  | loop
  | deadline
  | claim
  | lookup (index : Nat)
  | parse (index : Nat) (cached : Bytes)
  | fetch (index : Nat)
  | count (index : Nat) (fetched : Bool) (value : Product)
  | put (index : Nat) (value : Product)
  | fill (index : Nat) (value : Product)
  /-- `fail`, before and after it stored the result -/
  | failing (hr : HResult)
  | stopping
  | leaving
  | done
  deriving DecidableEq

/-- Where the thread stands that called `read`. -/
inductive Caller where
  | spawning (left : Nat)
  | watching
  /-- in `fail`, after it stored the result -/
  | halting
  | joining
  /-- a thread could not be started: in `fail`, and joining the others -/
  | abandoning
  | abandoned
  | returned (result : Except HResult (List Product))

structure Batch where
  ids : List String
  unique : List String
  market : String
  language : String
  deadline : UInt64
  keepRaw : Bool
  products : List Product
  next : Nat := 0
  bytes : UInt64 := 0
  active : Nat := 0
  failure : HResult := S_OK
  stop : Bool := false
  workers : List Worker := []
  caller : Caller
  /-- newest first -/
  lookups : List Lookup := []

/-- What a turn of a worker gets from outside: the clock, an exception, and the answer of
`fetch`. -/
structure Reading where
  now : UInt64
  /-- whether it is `std::bad_alloc` -/
  thrown : Option Bool
  fetched : HResult × Product

/-- The handlers of `work`. -/
def thrownCode (badAlloc : Bool) : HResult := if badAlloc then E_OUTOFMEMORY else E_FAIL

namespace Batch

def id (b : Batch) (index : Nat) : String := b.unique.getD index ""

def key (b : Batch) (index : Nat) : String := b.market ++ "/" ++ b.language ++ "/" ++ b.id index

/-- The first step of `fail`. -/
def refuse (b : Batch) (hr : HResult) : Batch :=
  { b with failure := if b.failure = S_OK then hr else b.failure }

def log (b : Batch) (index : Nat) (hr : HResult) (value : Product) : Batch :=
  { b with lookups := ⟨b.id index, hr, value⟩ :: b.lookups }

/-- The checks of a lookup's result. -/
def answer (b : Batch) (index : Nat) (fetched : Bool) (hr : HResult) (value : Product) :
    Worker × Batch :=
  let b := b.log index hr value
  if failed hr then (.failing hr, b)
  else if value.id != b.id index || value.rawJson.isEmpty then (.failing INVALID_DATA, b)
  else (.count index fetched value, b)

def thrown (b : Batch) (index : Nat) (badAlloc : Bool) : Worker × Batch :=
  (.failing (thrownCode badAlloc), b.log index (thrownCode badAlloc) {})

def claim (b : Batch) : Worker × Batch :=
  (if b.next < b.unique.length then .lookup b.next else .leaving, { b with next := b.next + 1 })

def count (b : Batch) (index : Nat) (fetched : Bool) (value : Product) : Worker × Batch :=
  let total := b.bytes + size value.rawJson
  (if MAX_BATCH < total then .failing FILE_TOO_LARGE
    else if fetched then .put index value
    else .fill index value,
    { b with bytes := total })

def kept (b : Batch) (value : Product) : Product :=
  if b.keepRaw then value else { value with rawJson := [] }

def fill (b : Batch) (index : Nat) (value : Product) : Batch :=
  { b with products := b.products.set index (b.kept value) }

/-- The next step of a worker; `parse` reads a cached document of a product. -/
def turn (parse : Bytes → String → HResult × Product) (s : State) (b : Batch) (r : Reading) :
    Worker → Worker × Batch × State
  | .loop => (if b.stop then .leaving else .deadline, b, s)
  | .deadline => (if b.deadline ≤ r.now then .failing TIMEOUT else .claim, b, s)
  | .claim => (b.claim.1, b.claim.2, s)
  | .lookup index =>
    match r.thrown with
    | some badAlloc => ((b.thrown index badAlloc).1, (b.thrown index badAlloc).2, s)
    | none =>
      let (cached, s) := s.get (b.key index) r.now
      (if cached.isEmpty then .fetch index else .parse index cached, b, s)
  | .parse index cached =>
    let (hr, value) := parse cached (b.id index)
    let (w, b) := b.answer index false hr value
    (w, b, s)
  | .fetch index =>
    match r.thrown with
    | some badAlloc => ((b.thrown index badAlloc).1, (b.thrown index badAlloc).2, s)
    | none =>
      let (w, b) := b.answer index true r.fetched.1 r.fetched.2
      (w, b, s)
  | .count index fetched value =>
    let (w, b) := b.count index fetched value
    (w, b, s)
  | .put index value =>
    let s := s.put (b.key index) value.rawJson r.now r.thrown.isNone
    match r.thrown with
    | some badAlloc => (.failing (thrownCode badAlloc), b, s)
    | none => (.fill index value, b, s)
  | .fill index value => (.loop, b.fill index value, s)
  | .failing hr => (.stopping, b.refuse hr, s)
  | .stopping => (.leaving, { b with stop := true }, s)
  | .leaving => (.done, { b with active := b.active - 1 }, s)
  | .done => (.done, b, s)

/-- A thread is started, or cannot be. -/
def spawn (b : Batch) (started : Bool) : Batch :=
  match b.caller with
  | .spawning 0 => { b with caller := .watching }
  | .spawning (left + 1) =>
    if started then
      { b with
        active := b.active + 1
        workers := b.workers ++ [.loop]
        caller := .spawning left }
    else { b.refuse E_OUTOFMEMORY with caller := .abandoning }
  | _ => b

/-- The caller's loop: while workers are active, it may find that the query was cancelled, or that
its time is up. -/
def watch (b : Batch) (cancelled : Bool) : Batch :=
  match b.caller with
  | .watching =>
    if b.active = 0 then { b with caller := .joining }
    else { b.refuse (if cancelled then E_ABORT else TIMEOUT) with caller := .halting }
  | _ => b

def halt (b : Batch) : Batch :=
  match b.caller with
  | .halting => { b with stop := true, caller := .watching }
  | .abandoning => { b with stop := true, caller := .abandoned }
  | _ => b

/-- The result, once every worker is joined. -/
def outcome (b : Batch) (cancelled : Bool) (now : UInt64) : Except HResult (List Product) :=
  if cancelled then .error E_ABORT
  else if failed b.failure then .error b.failure
  else if b.deadline ≤ now then .error TIMEOUT
  else .ok b.products

def join (b : Batch) (cancelled : Bool) (now : UInt64) : Batch :=
  if b.workers.all (· == .done) then
    match b.caller with
    | .joining => { b with caller := .returned (b.outcome cancelled now) }
    | .abandoned => { b with caller := .returned (.error b.failure) }
    | _ => b
  else b

end Batch

/-! ## A reader -/

structure Reader where
  state : State := {}
  batches : List Batch := []

/-- A step of a thread; `batch` and `worker` are positions. -/
inductive Step where
  | read (ids : List String) (market language : String) (deadline : UInt64) (keepRaw : Bool)
      (cancelled : Bool) (start now : UInt64)
  | spawn (batch : Nat) (started : Bool)
  | work (batch worker : Nat) (r : Reading)
  | watch (batch : Nat) (cancelled : Bool)
  | halt (batch : Nat)
  | join (batch : Nat) (cancelled : Bool) (now : UInt64)

namespace Reader

variable (parse : Bytes → String → HResult × Product)

def edit (reader : Reader) (batch : Nat) (f : Batch → Batch) : Reader :=
  { reader with batches := reader.batches.modify batch f }

def next (reader : Reader) : Step → Reader
  | .read ids market language deadline keepRaw cancelled start now =>
    match prepare ids cancelled deadline start now with
    | .error _ => reader
    | .ok (deadline, unique) =>
      { reader with
        batches := reader.batches ++
          [{ ids, unique, market, language, deadline, keepRaw,
             products := unique.map fun _ => {},
             caller := .spawning (min 4 unique.length) }] }
  | .spawn batch started => reader.edit batch (·.spawn started)
  | .work batch worker r =>
    match reader.batches[batch]? with
    | none => reader
    | some b =>
      match b.workers[worker]? with
      | none => reader
      | some w =>
        let (w', b', state) := b.turn parse reader.state r w
        ⟨state, reader.batches.set batch { b' with workers := b.workers.set worker w' }⟩
  | .watch batch cancelled => reader.edit batch (·.watch cancelled)
  | .halt batch => reader.edit batch (·.halt)
  | .join batch cancelled now => reader.edit batch (·.join cancelled now)

/-- What a reader can be after any steps of any queries. -/
inductive Reachable : Reader → Prop where
  | start : Reachable {}
  | next {reader : Reader} (step : Step) : Reachable reader → Reachable (reader.next parse step)

end Reader

end Flightdeck.Store.Catalog
