import Flightdeck.Cloud.Reader

/-!
# Downloading a snapshot

`download_cached` takes the containers that its cache knows at their listed revision from there and
reads the others, which it lists a second time at the end; `cloud_cache::download` drops the
containers of the force set from the cache first.  The local disk takes every write of a new file.
-/

namespace Flightdeck.Cloud.Storage

open Foundation SaveState

variable [Sha256] [JsonText] (limits : Limits) (server : Server)

/-- What lies under `blobs` so far. -/
structure Stage where
  files : TextMap Bytes := ∅
  filesWritten : Nat := 0
  total : Nat := 0

/-- The variables of the loop over the containers. -/
structure Work where
  stage : Stage := {}
  before : TextMap (List Atom) := ∅
  containers : List SavedContainer := []

/-- The variables of one container. -/
structure Row where
  stage : Stage
  bytes : Nat := 0
  blobs : List SavedBlob := []

/-- `fs::write` makes a new file. -/
def Stage.write (stage : Stage) (filename : String) (data : Bytes) : Except Failure Stage := do
  Cloud.require (!stage.files.contains filename) .localStorage
  return { stage with
    files := stage.files.insert filename data
    filesWritten := stage.filesWritten + 1 }

/-- The end of the loop over the blobs: a payload that was accepted is written. -/
def keepBlob (row : Row) (name atom : String) (data : Bytes) : Except Failure Row := do
  let filename := blobFile row.stage.filesWritten
  let stage ← row.stage.write filename data
  let total := row.stage.total + data.length
  Cloud.require (total ≤ limits.totalBytes) .bounds
  return {
    stage := { stage with total }
    bytes := row.bytes + data.length
    blobs := row.blobs ++
      [{ name, atom, file := "blobs/" ++ filename, size := data.length, sha256 := sha256 data }] }

/-- The most bytes that an atom may have. -/
def atomMaximum (container : Container) (bytes : Nat) (atom : Atom) : Nat :=
  atom.size.getD (min limits.blobBytes (container.size - bytes))

def downloadBlob (previous : Option CachedContainer) (container : Container) (row : Row)
    (entry : Atom × Nat) : Reader Row := do
  let (atom, position) := entry
  let maximum := atomMaximum limits container row.bytes atom
  let data ← match previous with
    | some c => pure ((c.blobs[position]?.map Prod.snd).getD [])
    | none => server.get (.atom atom.atom) maximum
  Cloud.require (atom.size.all (· == data.length) && data.length ≤ maximum) .invalidResponse
  keepBlob limits row atom.name atom.atom data

/-- The atoms of a container, from the cache or from the service; these are kept for the second
listing. -/
def downloadAtoms (previous : Option CachedContainer) (container : Container)
    (before : TextMap (List Atom)) : Reader (List Atom × TextMap (List Atom)) :=
  match previous with
  | some c => return (c.blobs.map Prod.fst, before)
  | none => do
    let atoms ← atoms limits server container
    return (atoms, before.insert container.name atoms)

def savedContainer (container : Container) (blobs : List SavedBlob) : SavedContainer where
  name := container.name
  displayName := container.displayName
  etag := container.etag
  clientFileTime := container.clientFileTime
  size := container.size
  blobs := blobs

/-- The entry of the cache, if it has the revision that is listed now. -/
def previousOf (cache : Option Cache) (container : Container) : Option CachedContainer :=
  (cache.bind fun c => c.containers[container.name]?).filter fun c => c.metadata == container

def downloadContainer (cache : Option Cache) (work : Work) (container : Container) :
    Reader Work := do
  let previous := previousOf cache container
  let (atoms, before) ← downloadAtoms limits server previous container work.before
  Cloud.require (work.stage.filesWritten + atoms.length ≤ limits.blobs) .bounds
  let row ← atoms.zipIdx.foldlM (downloadBlob limits server previous container)
    { stage := work.stage }
  Cloud.require (row.bytes == container.size) .changed
  return {
    stage := row.stage
    before
    containers := work.containers ++ [savedContainer container row.blobs] }

/-- The second listing of a container that was read. -/
def recheck (before : TextMap (List Atom)) (container : Container) : Reader Unit := do
  match before[container.name]? with
  | none => return ()
  | some listed =>
    let again ← atoms limits server container
    Cloud.require (again == listed) .changed

/-- A published snapshot. -/
structure Published where
  folder : Folder
  snapshot : Snapshot

/-- The snapshot is published as `snapshot-` and a random UUID. -/
def downloadCached (cache : Option Cache) (uuid : Nat) : Reader Published := do
  let binding := server.scope.binding
  let cache := cache.filter fun c => c.binding == binding
  let inventory ← Storage.inventory limits server
  let work ← inventory.foldlM (downloadContainer limits server cache) {}
  inventory.forM (recheck limits server work.before)
  let again ← Storage.inventory limits server
  Cloud.require (again == inventory) .changed
  return {
    folder := {
      manifest := {
        schema := 1
        scopeBinding := binding
        consistency := CONSISTENCY
        containers := work.containers }
      blobs := work.stage.files }
    snapshot := {
      id := "snapshot-" ++ simpleUuid uuid
      scopeBinding := binding
      containerCount := inventory.length
      blobCount := work.stage.filesWritten
      totalBytes := work.stage.total
      consistency := CONSISTENCY } }

/-- A name of the force set is no longer cached. -/
def uncache (cached : Option Cache) (name : String) : Except Failure (Option Cache) := do
  (SaveState.name name true).mapError fun _ => Failure.new .invalidRequest
  return cached.map fun c => { c with containers := c.containers.erase (name ++ ",savedgame") }

/-- `cloud_cache::download`, from what `load` found. -/
def download (cached : Option Cache) (force : TextSet) (uuid : Nat) : Reader Published := do
  Cloud.require (force.size ≤ limits.containers * 2) .invalidRequest
  let cached ← (force.keys.foldlM uncache cached : Except Failure (Option Cache))
  downloadCached limits server cached uuid

/-- `read_snapshot` of the folder that was published. -/
def Published.read (published : Published) : Except Failure Import.Validated :=
  Import.snapshot ((∅ : TextMap Folder).insert published.snapshot.id published.folder)
    published.snapshot.scopeBinding published.snapshot

end Flightdeck.Cloud.Storage
