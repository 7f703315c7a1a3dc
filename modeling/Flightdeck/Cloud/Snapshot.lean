import Flightdeck.Cloud.Storage

/-!
# Reading a snapshot

What `cloud_import::snapshot` accepts as a snapshot of the cloud: the manifest and the blob files
agree with each other, with the scope and with the limits of a saved state.
-/

namespace Flightdeck.Cloud.Import

open Foundation SaveState

structure Validated where
  state : State
  digest : String
  cache : Storage.Cache

/-- The variables that the loops of the validation change. -/
structure Rows where
  state : State := {}
  count : Nat := 0
  total : Nat := 0
  cached : TextMap Storage.CachedContainer := ∅

/-- The variables of one container. -/
structure Row where
  entry : Container
  cached : List (Storage.Atom × Bytes) := []
  atoms : TextSet := ∅
  size : Nat := 0
  count : Nat
  total : Nat

def validateBlob [Sha256] (files : TextMap Bytes) (row : Row) (blob : Storage.SavedBlob) :
    Except Failure Row := do
  Cloud.require (blob.size ≤ 64 * 1024 * 1024 && hexDigest blob.sha256 &&
    blob.file == "blobs/" ++ Storage.blobFile row.count && guid blob.atom) .invalidSnapshot
  (name blob.name false).mapError fun _ => Failure.new .invalidSnapshot
  Cloud.require (!row.entry.blobs.contains blob.name && !row.atoms.contains blob.atom.toLower)
    .invalidSnapshot
  let some payload := files[Storage.blobFile row.count]? | throw (.new .localStorage)
  Cloud.require (payload.length == blob.size && sha256 payload == blob.sha256) .invalidSnapshot
  Cloud.require (row.count + 1 ≤ BLOB_LIMIT && row.total + payload.length ≤ QUOTA) .unsupported
  return {
    entry := { row.entry with blobs := row.entry.blobs.insert blob.name payload }
    cached := row.cached ++ [({ atom := blob.atom, name := blob.name, size := some blob.size }, payload)]
    atoms := row.atoms.insert blob.atom.toLower ()
    size := row.size + payload.length
    count := row.count + 1
    total := row.total + payload.length }

/-- `strip_suffix`. -/
def stripSuffix (value suffix : String) : Option String :=
  let bytes := utf8 value
  if (utf8 suffix).isSuffixOf bytes then
    String.fromUTF8? ⟨(bytes.take (bytes.length - (utf8 suffix).length)).toArray⟩
  else
    none

/-- The `i64` seconds of a file time, if the time is not before 1970. -/
def modifiedOf (clientFileTime : Nat) : Option UInt64 :=
  if 11644473600 ≤ clientFileTime / 10000000 then
    some (UInt64.ofNat (clientFileTime / 10000000 - 11644473600))
  else
    none

def byName {α : Type} (name : α → String) (rows : List α) : List α :=
  rows.insertionSort fun a b => (byteOrder (name a) (name b)).isLE

def validateRow [Sha256] (files : TextMap Bytes) (rows : Rows) (row : Storage.SavedContainer) :
    Except Failure Rows := do
  let some key := stripSuffix row.name ",savedgame" | throw (.new .invalidSnapshot)
  (name key true).mapError fun _ => Failure.new .invalidSnapshot
  Cloud.require (!rows.state.containers.contains key && !row.etag.isEmpty &&
    (utf8 row.etag).length ≤ 1024 && row.size ≤ QUOTA &&
    row.blobs.length ≤ BLOB_LIMIT - rows.count) .invalidSnapshot
  let some modified := modifiedOf row.clientFileTime | throw (.new .unsupported)
  let entry : Container := { displayName := row.displayName, modified, blobs := ∅ }
  let r ← row.blobs.foldlM (validateBlob files) { entry, count := rows.count, total := rows.total }
  Cloud.require (r.size == row.size) .invalidSnapshot
  return {
    state := { rows.state with containers := rows.state.containers.insert key r.entry }
    count := r.count
    total := r.total
    cached := rows.cached.insert row.name
      { metadata := row.metadata, blobs := byName (fun b => b.1.name) r.cached } }

/-- The closure of `snapshot`. -/
def validate [Sha256] (folders : TextMap Storage.Folder) (binding : String)
    (snap : Storage.Snapshot) : Except Failure Validated := do
  Cloud.require (snap.scopeBinding == binding && snap.consistency == Storage.CONSISTENCY)
    .invalidScope
  Cloud.require (identifier snap.id "snapshot-") .invalidSnapshot
  let some folder := folders[snap.id]? | throw (.new .localStorage)
  let raw := folder.manifest.toVec
  Cloud.require (raw.length ≤ METADATA_LIMIT) .unsupported
  let manifest := folder.manifest
  Cloud.require (manifest.schema == 1 && manifest.scopeBinding == binding &&
    manifest.consistency == Storage.CONSISTENCY && manifest.containers.length ≤ CONTAINER_LIMIT)
    .invalidSnapshot
  let rows ← manifest.containers.foldlM (validateRow folder.blobs) {}
  Cloud.require ((snap.containerCount, snap.blobCount, snap.totalBytes) ==
      (rows.state.containers.size, rows.count, rows.total) &&
    folder.blobs.keys == (insertAll (∅ : TextSet)
      ((List.range rows.count).map fun n => (Storage.blobFile n, ()))).keys) .invalidSnapshot
  let _ ← (encode rows.state).mapError fun _ => Failure.new .unsupported
  return {
    state := rows.state
    digest := sha256 raw
    cache := { binding, containers := rows.cached } }

/-- Only two codes of the closure are kept. -/
def snapshotFailure (e : Failure) : Failure :=
  if e.code = .invalidScope ∨ e.code = .unsupported then e else .new .invalidSnapshot

def snapshot [Sha256] (folders : TextMap Storage.Folder) (binding : String)
    (snap : Storage.Snapshot) : Except Failure Validated :=
  (validate folders binding snap).mapError snapshotFailure

end Flightdeck.Cloud.Import
