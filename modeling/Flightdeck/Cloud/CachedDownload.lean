import Flightdeck.Cloud.Download
import Flightdeck.Cloud.Exports
import Flightdeck.Cloud.Inventory

/-!
# Cached and cold downloads

A download that takes containers from an earlier snapshot publishes what a download without a cache
publishes, as long as an etag stands for one content of a container.
-/

namespace Flightdeck.Cloud.Storage

open Foundation SaveState

section

variable {limits : Limits} {server : Server} [JsonText]

/-! ## One container -/

/-- The service gives these payloads for these atoms, one after the other. -/
def Served (limits : Limits) (server : Server) (container : Container) :
    Nat → List (Atom × Bytes) → Prop
  | _, [] => True
  | bytes, (atom, data) :: rest =>
    (server.get (.atom atom.atom) (atomMaximum limits container bytes atom)).result = .ok data ∧
    (atom.size.all (· == data.length) &&
      data.length ≤ atomMaximum limits container bytes atom) = true ∧
    Served limits server container (bytes + data.length) rest

/-- The service lists these atoms for a container and gives these payloads for them. -/
structure Fetched (limits : Limits) (server : Server) (container : Container)
    (rows : List (Atom × Bytes)) : Prop where
  listed : (atoms limits server container).result = .ok (rows.map Prod.fst)
  served : Served limits server container 0 rows
  size : (rows.map fun row => row.2.length).sum = container.size

/-- The entry of a cache for a payload that was read. -/
def knownAtom (entry : Atom × Bytes) : Atom × Bytes :=
  ({ entry.1 with size := some entry.2.length }, entry.2)

variable [Sha256]

def keepRow (limits : Limits) (row : Row) (entry : Atom × Bytes) : Except Failure Row :=
  keepBlob limits row entry.1.name entry.1.atom entry.2

omit [JsonText] in
theorem keepBlob_bytes {row row' : Row} {name atom : String} {data : Bytes}
    (h : keepBlob limits row name atom data = .ok row') :
    row'.bytes = row.bytes + data.length := by
  unfold keepBlob at h
  simp only [bind_eq_ok, pure_eq_ok] at h
  obtain ⟨stage, -, _, -, rfl⟩ := h
  rfl

omit [JsonText] in
theorem keepRows_bytes {rows : List (Atom × Bytes)} {row row' : Row}
    (h : rows.foldlM (keepRow limits) row = .ok row') :
    row'.bytes = row.bytes + (rows.map fun entry => entry.2.length).sum := by
  induction rows generalizing row with
  | nil =>
    cases h
    rfl
  | cons entry rows ih =>
    rw [List.foldlM_cons, bind_eq_ok] at h
    obtain ⟨next, hnext, h⟩ := h
    rw [ih h, keepBlob_bytes hnext, List.map_cons, List.sum_cons, Nat.add_assoc]

omit [JsonText] in
/-- Payloads that the service gives are kept. -/
theorem cold_blobs {container : Container} {rows : List (Atom × Bytes)} {row : Row} {k : Nat}
    (h : Served limits server container row.bytes rows) :
    ((rows.map Prod.fst).zipIdx k).foldlM
      (fun row entry => (downloadBlob limits server none container row entry).result) row =
    rows.foldlM (keepRow limits) row := by
  induction rows generalizing row k with
  | nil => rfl
  | cons entry rows ih =>
    obtain ⟨atom, data⟩ := entry
    obtain ⟨hdata, hchecks, hrest⟩ := h
    have hblob : (downloadBlob limits server none container row (atom, k)).result =
        keepRow limits row (atom, data) := by
      unfold downloadBlob
      simp only [Reader.result_bind, hdata, Reader.result_lift]
      show (Cloud.require (atom.size.all (· == data.length) &&
        data.length ≤ atomMaximum limits container row.bytes atom) .invalidResponse >>= fun _ =>
        keepBlob limits row atom.name atom.atom data) = _
      rw [hchecks]
      rfl
    rw [List.map_cons, List.zipIdx_cons, List.foldlM_cons, List.foldlM_cons, hblob]
    cases hkeep : keepRow limits row (atom, data) with
    | error e => rfl
    | ok next =>
      have hbytes : next.bytes = row.bytes + data.length := keepBlob_bytes hkeep
      rw [← hbytes] at hrest
      exact ih hrest

omit [JsonText] in
/-- A loop that succeeds read each of its payloads from the service. -/
theorem cold_blobs_ok {container : Container} {listed : List Atom} {row row' : Row} {k : Nat}
    (h : (listed.zipIdx k).foldlM
      (fun row entry => (downloadBlob limits server none container row entry).result) row =
        .ok row') :
    ∃ rows : List (Atom × Bytes), rows.map Prod.fst = listed ∧
      Served limits server container row.bytes rows ∧
      rows.foldlM (keepRow limits) row = .ok row' := by
  induction listed generalizing row k with
  | nil => exact ⟨[], rfl, trivial, h⟩
  | cons atom listed ih =>
    rw [List.zipIdx_cons, List.foldlM_cons, bind_eq_ok] at h
    obtain ⟨next, hnext, h⟩ := h
    unfold downloadBlob at hnext
    simp only [Reader.result_bind, bind_eq_ok, Reader.result_lift, require_eq_ok] at hnext
    obtain ⟨data, hdata, _, hchecks, hkeep⟩ := hnext
    obtain ⟨rows, rfl, hserved, hrows⟩ := ih h
    rw [keepBlob_bytes hkeep] at hserved
    refine ⟨(atom, data) :: rows, rfl, ⟨hdata, hchecks, hserved⟩, ?_⟩
    rw [List.foldlM_cons]
    exact bind_eq_ok.mpr ⟨next, hkeep, hrows⟩

omit [JsonText] in
/-- Payloads of the cache are kept just so. -/
theorem cached_blobs {container : Container} {c : CachedContainer}
    {done rows : List (Atom × Bytes)} {row : Row}
    (hblobs : c.blobs = done ++ rows.map knownAtom) :
    (((rows.map knownAtom).map Prod.fst).zipIdx done.length).foldlM
      (fun row entry => (downloadBlob limits server (some c) container row entry).result) row =
    rows.foldlM (keepRow limits) row := by
  induction rows generalizing row done with
  | nil => rfl
  | cons entry rows ih =>
    obtain ⟨atom, data⟩ := entry
    have hget : (c.blobs[done.length]?.map Prod.snd).getD [] = data := by
      rw [hblobs]
      simp [knownAtom]
    have hblob : (downloadBlob limits server (some c) container row
        ((knownAtom (atom, data)).1, done.length)).result = keepRow limits row (atom, data) := by
      unfold downloadBlob
      simp only [Reader.result_bind, Reader.result_lift, Reader.result_pure, hget]
      have hchecks : ((some data.length).all (· == data.length) && data.length ≤
          atomMaximum limits container row.bytes (knownAtom (atom, data)).1) = true := by
        simp [knownAtom, atomMaximum]
      show (Cloud.require ((some data.length).all (· == data.length) &&
        data.length ≤ atomMaximum limits container row.bytes (knownAtom (atom, data)).1)
          .invalidResponse >>= fun _ => keepBlob limits row atom.name atom.atom data) = _
      rw [hchecks]
      rfl
    have hrest : c.blobs = (done ++ [knownAtom (atom, data)]) ++ rows.map knownAtom := by
      rw [hblobs, List.map_cons, List.append_assoc, List.singleton_append]
    have hlength : (done ++ [knownAtom (atom, data)]).length = done.length + 1 :=
      List.length_append
    rw [List.map_cons, List.map_cons, List.zipIdx_cons, List.foldlM_cons, List.foldlM_cons, hblob]
    cases hkeep : keepRow limits row (atom, data) with
    | error e => rfl
    | ok next =>
      rw [← hlength]
      exact ih hrest

/-- What the loop does with a container whose payloads are known. -/
def addContainer (limits : Limits) (work : Work) (container : Container)
    (rows : List (Atom × Bytes)) (before : TextMap (List Atom)) : Except Failure Work := do
  Cloud.require (work.stage.filesWritten + rows.length ≤ limits.blobs) .bounds
  let row ← rows.foldlM (keepRow limits) { stage := work.stage }
  return {
    stage := row.stage
    before
    containers := work.containers ++ [savedContainer container row.blobs] }

omit [JsonText] in
/-- The sizes that were kept are those that the index tells. -/
theorem measured {β : Type} {container : Container} {rows : List (Atom × Bytes)} {stage : Stage}
    (hsize : (rows.map fun entry => entry.2.length).sum = container.size)
    (f : Row → Except Failure β) :
    (rows.foldlM (keepRow limits) { stage } >>= fun row =>
      Cloud.require (row.bytes == container.size) .changed >>= fun _ => f row) =
    rows.foldlM (keepRow limits) { stage } >>= f := by
  cases hrow : rows.foldlM (keepRow limits) { stage } with
  | error e => rfl
  | ok row =>
    have hbytes : row.bytes = container.size := by
      rw [keepRows_bytes hrow, hsize, Nat.zero_add]
    show (Cloud.require (row.bytes == container.size) .changed >>= fun _ => f row) = f row
    rw [hbytes, beq_self_eq_true]
    rfl

theorem cold_container {container : Container} {cache : Option Cache} {work : Work}
    {rows : List (Atom × Bytes)} (hmiss : previousOf cache container = none)
    (h : Fetched limits server container rows) :
    (downloadContainer limits server cache work container).result =
      addContainer limits work container rows
        (work.before.insert container.name (rows.map Prod.fst)) := by
  unfold downloadContainer addContainer
  rw [hmiss]
  simp only [downloadAtoms, Reader.result_bind, h.listed, Reader.result_foldlM, Reader.result_lift,
    Reader.result_pure]
  show (Cloud.require (work.stage.filesWritten + (rows.map Prod.fst).length ≤ limits.blobs) .bounds
    >>= fun _ => (rows.map Prod.fst).zipIdx.foldlM _ _ >>= fun row => _ >>= fun _ => _) = _
  rw [cold_blobs h.served, List.length_map]
  congr 1
  funext _
  exact measured h.size _

/-- A container of the cache is kept like one that was read, but is not listed again. -/
theorem cached_container {container : Container} {cache : Option Cache} {work : Work}
    {c : CachedContainer} {rows : List (Atom × Bytes)} (hhit : previousOf cache container = some c)
    (hblobs : c.blobs = rows.map knownAtom)
    (hsize : (rows.map fun entry => entry.2.length).sum = container.size) :
    (downloadContainer limits server cache work container).result =
      addContainer limits work container rows work.before := by
  unfold downloadContainer addContainer
  rw [hhit]
  simp only [downloadAtoms, Reader.result_bind, Reader.result_foldlM, Reader.result_lift,
    Reader.result_pure, hblobs]
  show (Cloud.require (work.stage.filesWritten + ((rows.map knownAtom).map Prod.fst).length ≤
    limits.blobs) .bounds >>= fun _ => ((rows.map knownAtom).map Prod.fst).zipIdx.foldlM _ _ >>=
      fun row => _ >>= fun _ => _) = _
  have hcached : ((rows.map knownAtom).map Prod.fst).zipIdx.foldlM
      (fun row entry => (downloadBlob limits server (some c) container row entry).result)
        { stage := work.stage } = rows.foldlM (keepRow limits) { stage := work.stage } :=
    cached_blobs (show c.blobs = [] ++ rows.map knownAtom from hblobs)
  rw [hcached, List.length_map, List.length_map]
  congr 1
  funext _
  exact measured hsize _

/-- A container that was added without the cache was read from the service. -/
theorem cold_container_ok {container : Container} {cache : Option Cache} {work work' : Work}
    (hmiss : previousOf cache container = none)
    (h : (downloadContainer limits server cache work container).result = .ok work') :
    ∃ rows, Fetched limits server container rows ∧
      addContainer limits work container rows
        (work.before.insert container.name (rows.map Prod.fst)) = .ok work' := by
  have hall := h
  unfold downloadContainer at h
  rw [hmiss] at h
  simp only [downloadAtoms, Reader.result_bind, bind_eq_ok, Reader.result_foldlM,
    Reader.result_lift, Reader.result_pure, require_eq_ok, beq_iff_eq] at h
  obtain ⟨_, ⟨listed, hlisted, hpair⟩, _, -, row, hrow, _, hsize, -⟩ := h
  cases hpair
  obtain ⟨rows, rfl, hserved, hrows⟩ := cold_blobs_ok hrow
  have hfetched : Fetched limits server container rows := by
    refine ⟨hlisted, hserved, ?_⟩
    rw [← hsize, keepRows_bytes hrows, Nat.zero_add]
  exact ⟨rows, hfetched, (cold_container hmiss hfetched).symm.trans hall⟩

/-! ## All containers -/

/-- What of the work is published. -/
def Work.published (work : Work) : Stage × List SavedContainer := (work.stage, work.containers)

/-- The entries that a download takes from the cache are what the service would give. -/
def Truthful (limits : Limits) (server : Server) (cache : Option Cache)
    (listed : List Container) : Prop :=
  ∀ container ∈ listed, ∀ c, previousOf cache container = some c →
    ∃ rows, Fetched limits server container rows ∧ c.blobs = rows.map knownAtom

omit [JsonText] in
theorem addContainer_published {container : Container} {work work' : Work}
    {rows : List (Atom × Bytes)} {before before' : TextMap (List Atom)}
    (h : work.published = work'.published) :
    Work.published <$> addContainer limits work container rows before =
      Work.published <$> addContainer limits work' container rows before' := by
  obtain ⟨hstage, hcontainers⟩ := Prod.mk.inj h
  unfold addContainer
  rw [hstage, hcontainers]
  simp only [map_bind]
  rfl

/-- A container that is not cached is read, whatever the rest of the cache is. -/
theorem missed_published {cache : Option Cache} {container : Container} {work work' : Work}
    (hmiss : previousOf cache container = none) (h : work.published = work'.published) :
    Work.published <$> (downloadContainer limits server cache work container).result =
      Work.published <$> (downloadContainer limits server none work' container).result := by
  obtain ⟨hstage, hcontainers⟩ := Prod.mk.inj h
  have hnone : previousOf none container = none := rfl
  unfold downloadContainer
  rw [hmiss, hnone, hstage, hcontainers]
  simp only [downloadAtoms, Reader.result_bind, Reader.result_lift, Reader.result_pure, map_bind]
  cases (atoms limits server container).result with
  | error e => rfl
  | ok listed => rfl

theorem step_published {cache : Option Cache} {container : Container} {work work' : Work}
    (hcache : ∀ c, previousOf cache container = some c →
      ∃ rows, Fetched limits server container rows ∧ c.blobs = rows.map knownAtom)
    (h : work.published = work'.published) :
    Work.published <$> (downloadContainer limits server cache work container).result =
      Work.published <$> (downloadContainer limits server none work' container).result := by
  cases hprevious : previousOf cache container with
  | none => exact missed_published hprevious h
  | some c =>
    obtain ⟨rows, hrows, hblobs⟩ := hcache c hprevious
    rw [cached_container hprevious hblobs hrows.size, cold_container rfl hrows]
    exact addContainer_published h

/-- One container after the other, with the cache or without. -/
theorem loop_published {cache : Option Cache} {listed : List Container} {work work' : Work}
    (hcache : Truthful limits server cache listed) (h : work.published = work'.published) :
    Work.published <$> (listed.foldlM (downloadContainer limits server cache) work).result =
      Work.published <$> (listed.foldlM (downloadContainer limits server none) work').result := by
  simp only [Reader.result_foldlM]
  induction listed generalizing work work' with
  | nil => exact congrArg Except.ok h
  | cons container listed ih =>
    have hstep := step_published (hcache container List.mem_cons_self) h
    have hrest : Truthful limits server cache listed :=
      fun c hc => hcache c (List.mem_cons_of_mem _ hc)
    rw [List.foldlM_cons, List.foldlM_cons]
    cases hleft : (downloadContainer limits server cache work container).result with
    | error e =>
      cases hright : (downloadContainer limits server none work' container).result with
      | error e' =>
        rw [hleft, hright] at hstep
        cases hstep
        rfl
      | ok next' =>
        rw [hleft, hright] at hstep
        cases hstep
    | ok next =>
      cases hright : (downloadContainer limits server none work' container).result with
      | error e' =>
        rw [hleft, hright] at hstep
        cases hstep
      | ok next' =>
        rw [hleft, hright] at hstep
        have hnext : next.published = next'.published := Except.ok.inj hstep
        exact ih hrest hnext

/-! ## The second listing -/

/-- The listings that are kept are what the service answers. -/
def Relists (limits : Limits) (server : Server) (before : TextMap (List Atom))
    (listed : List Container) : Prop :=
  ∀ container ∈ listed, ∀ rows, before[container.name]? = some rows →
    (atoms limits server container).result = .ok rows

omit [JsonText] in
theorem addContainer_before {container : Container} {work work' : Work}
    {rows : List (Atom × Bytes)} {before : TextMap (List Atom)}
    (h : addContainer limits work container rows before = .ok work') : work'.before = before := by
  unfold addContainer at h
  simp only [bind_eq_ok, pure_eq_ok] at h
  obtain ⟨_, -, row, -, rfl⟩ := h
  rfl

/-- A container leaves the listings alone, or adds what the service answered. -/
theorem step_before {cache : Option Cache} {container : Container} {work work' : Work}
    (hcache : ∀ c, previousOf cache container = some c →
      ∃ rows, Fetched limits server container rows ∧ c.blobs = rows.map knownAtom)
    (h : (downloadContainer limits server cache work container).result = .ok work') :
    work'.before = work.before ∨ ∃ rows, (atoms limits server container).result = .ok rows ∧
      work'.before = work.before.insert container.name rows := by
  cases hprevious : previousOf cache container with
  | none =>
    obtain ⟨rows, hrows, hadd⟩ := cold_container_ok hprevious h
    exact .inr ⟨_, hrows.listed, addContainer_before hadd⟩
  | some c =>
    obtain ⟨rows, hrows, hblobs⟩ := hcache c hprevious
    rw [cached_container hprevious hblobs hrows.size] at h
    exact .inl (addContainer_before h)

theorem step_relists {cache : Option Cache} {listed : List Container} {container : Container}
    {work work' : Work} (hnames : (listed.map Container.name).Nodup) (hmem : container ∈ listed)
    (hcache : Truthful limits server cache listed)
    (hwork : Relists limits server work.before listed)
    (h : (downloadContainer limits server cache work container).result = .ok work') :
    Relists limits server work'.before listed := by
  intro other hother rows hrows
  rcases step_before (hcache container hmem) h with hbefore | ⟨found, hfound, hbefore⟩
  · rw [hbefore] at hrows
    exact hwork other hother rows hrows
  · rw [hbefore, getElem?_insert_eq] at hrows
    by_cases hname : container.name = other.name
    · rw [if_pos hname] at hrows
      cases hrows
      rw [← List.inj_on_of_nodup_map hnames hmem hother hname]
      exact hfound
    · rw [if_neg hname] at hrows
      exact hwork other hother rows hrows

theorem loop_relists {cache : Option Cache} {listed rest : List Container} {work work' : Work}
    (hnames : (listed.map Container.name).Nodup) (hrest : ∀ c ∈ rest, c ∈ listed)
    (hcache : Truthful limits server cache listed)
    (hwork : Relists limits server work.before listed)
    (h : (rest.foldlM (downloadContainer limits server cache) work).result = .ok work') :
    Relists limits server work'.before listed := by
  rw [Reader.result_foldlM] at h
  induction rest generalizing work with
  | nil =>
    cases h
    exact hwork
  | cons container rest ih =>
    rw [List.foldlM_cons, bind_eq_ok] at h
    obtain ⟨next, hnext, h⟩ := h
    have hmem : container ∈ listed := hrest container List.mem_cons_self
    exact ih (fun c hc => hrest c (List.mem_cons_of_mem _ hc))
      (step_relists hnames hmem hcache hwork hnext) h

omit [Sha256] in
/-- A service that does not change answers the second listing like the first one. -/
theorem recheck_ok {listed : List Container} {before : TextMap (List Atom)}
    (h : Relists limits server before listed) :
    (listed.forM (recheck limits server before)).result = .ok () := by
  rw [Reader.result_forM, forM_eq_ok]
  intro container hmem
  unfold recheck
  cases hrows : before[container.name]? with
  | none => rfl
  | some rows =>
    simp only [Reader.result_bind, h container hmem rows hrows, Reader.result_lift]
    show Cloud.require (rows == rows) .changed = .ok ()
    rw [beq_self_eq_true]
    rfl

/-! ## Downloads -/

def publish (server : Server) (uuid : Nat) (listed : List Container)
    (work : Stage × List SavedContainer) : Published where
  folder := {
    manifest := {
      schema := 1
      scopeBinding := server.scope.binding
      consistency := CONSISTENCY
      containers := work.2 }
    blobs := work.1.files }
  snapshot := {
    id := "snapshot-" ++ simpleUuid uuid
    scopeBinding := server.scope.binding
    containerCount := listed.length
    blobCount := work.1.filesWritten
    totalBytes := work.1.total
    consistency := CONSISTENCY }

omit [JsonText] in
theorem publish_folder {uuid : Nat} {listed : List Container} {work : Stage × List SavedContainer} :
    (publish server uuid listed work).folder =
      ⟨⟨1, server.scope.binding, CONSISTENCY, work.2⟩, work.1.files⟩ := rfl

/-- The cache as `download_cached` uses it. -/
def boundCache (server : Server) (cache : Option Cache) : Option Cache :=
  cache.filter fun c => c.binding == server.scope.binding

theorem downloadCached_result {cache : Option Cache} {uuid : Nat} {listed : List Container}
    (hlisted : (inventory limits server).result = .ok listed)
    (hcache : Truthful limits server (boundCache server cache) listed) :
    (downloadCached limits server cache uuid).result =
      publish server uuid listed <$> (Work.published <$>
        (listed.foldlM (downloadContainer limits server (boundCache server cache)) {}).result) := by
  unfold downloadCached
  simp only [Reader.result_bind, hlisted, Reader.result_lift, Reader.result_pure]
  show ((listed.foldlM (downloadContainer limits server (boundCache server cache)) {}).result >>=
    fun work => (listed.forM (recheck limits server work.before)).result >>= fun _ =>
      Cloud.require (listed == listed) .changed >>= fun _ => _) = _
  cases hwork :
      (listed.foldlM (downloadContainer limits server (boundCache server cache)) {}).result with
  | error e => rfl
  | ok work =>
    have hrelists : Relists limits server work.before listed := by
      refine loop_relists (inventory_nodup hlisted) (fun _ hc => hc) hcache ?_ hwork
      intro c hc rows hrows
      simp at hrows
    show ((listed.forM (recheck limits server work.before)).result >>= fun _ =>
      Cloud.require (listed == listed) .changed >>= fun _ => _) = _
    rw [recheck_ok hrelists, beq_self_eq_true]
    rfl

theorem downloadCached_error {cache : Option Cache} {uuid : Nat} {e : Failure}
    (hlisted : (inventory limits server).result = .error e) :
    (downloadCached limits server cache uuid).result = .error e := by
  unfold downloadCached
  rw [Reader.result_bind, hlisted]
  rfl

theorem truthful_none {listed : List Container} :
    Truthful limits server (boundCache server none) listed :=
  fun _ _ _ h => by cases h

/-- With entries that the service would give, a download comes to what a cold one comes to. -/
theorem downloadCached_eq {cache : Option Cache} {uuid : Nat}
    (hcache : ∀ listed, (inventory limits server).result = .ok listed →
      Truthful limits server (boundCache server cache) listed) :
    (downloadCached limits server cache uuid).result =
      (downloadCached limits server none uuid).result := by
  cases hlisted : (inventory limits server).result with
  | error e => rw [downloadCached_error hlisted, downloadCached_error hlisted]
  | ok listed =>
    have hloop := loop_published (hcache listed hlisted) (rfl : ({} : Work).published = _)
    rw [downloadCached_result hlisted (hcache listed hlisted), hloop,
      downloadCached_result hlisted truthful_none]
    rfl

/-! ## What a snapshot records -/

/-- A blob of the manifest, and the file with its payload. -/
def Stored (files : TextMap Bytes) (blob : SavedBlob) (entry : Atom × Bytes) : Prop :=
  blob.name = entry.1.name ∧ blob.atom = entry.1.atom ∧ blob.size = entry.2.length ∧
    ∃ n, blob.file = "blobs/" ++ blobFile n ∧ files[blobFile n]? = some entry.2

/-- A container of the manifest holds what the service gave for it. -/
def Recorded (limits : Limits) (server : Server) (files : TextMap Bytes) (listed : List Container)
    (row : SavedContainer) : Prop :=
  row.metadata ∈ listed ∧ ∃ rows, Fetched limits server row.metadata rows ∧
    List.Forall₂ (Stored files) row.blobs rows

omit [JsonText] [Sha256] in
theorem Stored.mono {files files' : TextMap Bytes} {blob : SavedBlob} {entry : Atom × Bytes}
    (h : Stored files blob entry) (hfiles : Included files files') : Stored files' blob entry := by
  obtain ⟨hname, hatom, hsize, n, hfile, hdata⟩ := h
  exact ⟨hname, hatom, hsize, n, hfile, hfiles _ _ hdata⟩

omit [Sha256] in
theorem Recorded.mono {files files' : TextMap Bytes} {listed : List Container}
    {row : SavedContainer} (h : Recorded limits server files listed row)
    (hfiles : Included files files') : Recorded limits server files' listed row := by
  obtain ⟨hmem, rows, hrows, hblobs⟩ := h
  exact ⟨hmem, rows, hrows, hblobs.imp fun _ _ hstored => hstored.mono hfiles⟩

omit [JsonText] in
theorem keepRow_stored {row row' : Row} {entry : Atom × Bytes}
    (h : keepRow limits row entry = .ok row') :
    Included row.stage.files row'.stage.files ∧
      ∃ blob, row'.blobs = row.blobs ++ [blob] ∧ Stored row'.stage.files blob entry := by
  unfold keepRow keepBlob Stage.write at h
  simp only [bind_eq_ok, pure_eq_ok, require_eq_ok, Bool.not_eq_true'] at h
  obtain ⟨_, ⟨_, hfresh, rfl⟩, _, -, rfl⟩ := h
  refine ⟨Included.insert _ hfresh, _, rfl, rfl, rfl, rfl, row.stage.filesWritten, rfl, ?_⟩
  rw [getElem?_insert_eq, if_pos rfl]

omit [JsonText] in
theorem keepRows_stored {rows : List (Atom × Bytes)} {row row' : Row}
    (h : rows.foldlM (keepRow limits) row = .ok row') :
    Included row.stage.files row'.stage.files ∧
      ∃ blobs, row'.blobs = row.blobs ++ blobs ∧
        List.Forall₂ (Stored row'.stage.files) blobs rows := by
  induction rows generalizing row with
  | nil =>
    cases h
    exact ⟨Included.refl _, [], (List.append_nil _).symm, .nil⟩
  | cons entry rows ih =>
    rw [List.foldlM_cons, bind_eq_ok] at h
    obtain ⟨next, hnext, h⟩ := h
    obtain ⟨hfirst, blob, hblob, hstored⟩ := keepRow_stored hnext
    obtain ⟨hlater, blobs, hblobs, hall⟩ := ih h
    refine ⟨hfirst.trans hlater, blob :: blobs, ?_, .cons (hstored.mono hlater) hall⟩
    rw [hblobs, hblob, List.append_assoc, List.singleton_append]

theorem addContainer_recorded {container : Container} {listed : List Container}
    {work work' : Work} {rows : List (Atom × Bytes)} {before : TextMap (List Atom)}
    (hmem : container ∈ listed) (hrows : Fetched limits server container rows)
    (hwork : ∀ row ∈ work.containers, Recorded limits server work.stage.files listed row)
    (h : addContainer limits work container rows before = .ok work') :
    ∀ row ∈ work'.containers, Recorded limits server work'.stage.files listed row := by
  unfold addContainer at h
  simp only [bind_eq_ok, pure_eq_ok] at h
  obtain ⟨_, -, added, hadded, rfl⟩ := h
  obtain ⟨hfiles, blobs, hblobs, hstored⟩ := keepRows_stored hadded
  intro row hrow
  rcases List.mem_append.mp hrow with hrow | hrow
  · exact (hwork row hrow).mono hfiles
  · cases List.mem_singleton.mp hrow
    refine ⟨hmem, rows, hrows, ?_⟩
    show List.Forall₂ _ added.blobs rows
    rw [hblobs]
    exact hstored

/-- Every container of a cold download is recorded as the service gave it. -/
theorem cold_recorded {listed rest : List Container} {work work' : Work}
    (hrest : ∀ c ∈ rest, c ∈ listed)
    (hwork : ∀ row ∈ work.containers, Recorded limits server work.stage.files listed row)
    (h : (rest.foldlM (downloadContainer limits server none) work).result = .ok work') :
    ∀ row ∈ work'.containers, Recorded limits server work'.stage.files listed row := by
  rw [Reader.result_foldlM] at h
  induction rest generalizing work with
  | nil =>
    cases h
    exact hwork
  | cons container rest ih =>
    rw [List.foldlM_cons, bind_eq_ok] at h
    obtain ⟨next, hnext, h⟩ := h
    obtain ⟨rows, hrows, hadd⟩ := cold_container_ok rfl hnext
    exact ih (fun c hc => hrest c (List.mem_cons_of_mem _ hc))
      (addContainer_recorded (hrest container List.mem_cons_self) hrows hwork hadd) h

theorem published_recorded {uuid : Nat} {published : Published}
    (h : (downloadCached limits server none uuid).result = .ok published) :
    ∃ listed, (inventory limits server).result = .ok listed ∧
      published.snapshot.scopeBinding = server.scope.binding ∧
      ∀ row ∈ published.folder.manifest.containers,
        Recorded limits server published.folder.blobs listed row := by
  cases hlisted : (inventory limits server).result with
  | error e =>
    rw [downloadCached_error hlisted] at h
    cases h
  | ok listed =>
    rw [downloadCached_result hlisted truthful_none, map_eq_ok] at h
    obtain ⟨pair, hpair, rfl⟩ := h
    obtain ⟨work, hwork, rfl⟩ := map_eq_ok.mp hpair
    exact ⟨listed, rfl, rfl, cold_recorded (fun _ hc => hc) (fun _ hrow => by cases hrow) hwork⟩

/-! ## The cache of a validated snapshot -/

/-- A blob of the manifest as a cache holds it. -/
def CachedAs (files : TextMap Bytes) (blob : SavedBlob) (entry : Atom × Bytes) : Prop :=
  entry.1 = { atom := blob.atom, name := blob.name, size := some blob.size } ∧
    ∃ n, blob.file = "blobs/" ++ blobFile n ∧ files[blobFile n]? = some entry.2

omit [JsonText] in
theorem validateBlob_cached {files : TextMap Bytes} {row row' : Import.Row} {blob : SavedBlob}
    (h : Import.validateBlob files row blob = .ok row') :
    ∃ entry, row'.cached = row.cached ++ [entry] ∧ CachedAs files blob entry := by
  unfold Import.validateBlob at h
  obtain ⟨_, hchecks, h⟩ := bind_eq_ok.mp h
  obtain ⟨_, -, h⟩ := bind_eq_ok.mp h
  obtain ⟨_, -, h⟩ := bind_eq_ok.mp h
  cases hpayload : files[blobFile row.count]? with
  | none =>
    rw [hpayload] at h
    cases h
  | some payload =>
    rw [hpayload] at h
    simp only [bind_eq_ok, pure_eq_ok] at h
    obtain ⟨_, -, _, -, rfl⟩ := h
    simp only [require_eq_ok, Bool.and_eq_true, beq_iff_eq] at hchecks
    exact ⟨_, rfl, rfl, row.count, hchecks.1.2, hpayload⟩

omit [JsonText] in
theorem validateBlobs_cached {files : TextMap Bytes} {blobs : List SavedBlob}
    {row row' : Import.Row} (h : blobs.foldlM (Import.validateBlob files) row = .ok row') :
    ∃ entries, row'.cached = row.cached ++ entries ∧
      List.Forall₂ (CachedAs files) blobs entries := by
  induction blobs generalizing row with
  | nil =>
    cases h
    exact ⟨[], (List.append_nil _).symm, .nil⟩
  | cons blob blobs ih =>
    rw [List.foldlM_cons, bind_eq_ok] at h
    obtain ⟨next, hnext, h⟩ := h
    obtain ⟨entry, hentry, hcached⟩ := validateBlob_cached hnext
    obtain ⟨entries, hentries, hall⟩ := ih h
    refine ⟨entry :: entries, ?_, .cons hcached hall⟩
    rw [hentries, hentry, List.append_assoc, List.singleton_append]

omit [JsonText] [Sha256] in
/-- The file of a blob has one payload. -/
theorem Stored.known {files : TextMap Bytes} {blob : SavedBlob} {entry known : Atom × Bytes}
    (h : Stored files blob entry) (hcached : CachedAs files blob known) :
    known = knownAtom entry := by
  obtain ⟨hname, hatom, hsize, n, hfile, hdata⟩ := h
  obtain ⟨hknown, m, hfile', hdata'⟩ := hcached
  have hsame : blobFile n = blobFile m := by
    rw [hfile, ← utf8_inj, utf8_append, utf8_append] at hfile'
    exact utf8_inj.mp (List.append_cancel_left hfile')
  rw [← hsame, hdata] at hdata'
  obtain ⟨atom, data⟩ := known
  cases hdata'
  show (atom, entry.2) = _
  rw [show atom = _ from hknown, hname, hatom, hsize]
  rfl

omit [JsonText] [Sha256] in
theorem knowns {files : TextMap Bytes} {blobs : List SavedBlob} {rows entries : List (Atom × Bytes)}
    (hstored : List.Forall₂ (Stored files) blobs rows)
    (hcached : List.Forall₂ (CachedAs files) blobs entries) : entries = rows.map knownAtom := by
  induction hstored generalizing entries with
  | nil =>
    cases hcached
    rfl
  | cons hfirst _ ih =>
    cases hcached with
    | cons hcached hrest =>
      rw [hfirst.known hcached, ih hrest]
      rfl

omit [Sha256] in
/-- What the service lists is in the order of the names already. -/
theorem Fetched.sorted {container : Container} {rows : List (Atom × Bytes)}
    (h : Fetched limits server container rows) :
    Import.byName (fun entry : Atom × Bytes => entry.1.name) (rows.map knownAtom) =
      rows.map knownAtom := by
  have hlisted := h.listed
  unfold atoms at hlisted
  simp only [Reader.result_bind, bind_eq_ok, Reader.result_lift, Reader.result_pure, Prod.exists,
    Except.ok.injEq] at hlisted
  obtain ⟨dictionary, found, -, _, -, hfound⟩ := hlisted
  have hpairs := byName_pairwise Atom.name found
  rw [hfound, List.pairwise_map] at hpairs
  apply List.Pairwise.insertionSort_eq
  rw [List.pairwise_map]
  exact hpairs

/-- An entry of a cache is what some cold read of its container gave. -/
def Genuine (limits : Limits) (server : Server) (listed : List Container) (c : CachedContainer) :
    Prop :=
  c.metadata ∈ listed ∧
    ∃ rows, Fetched limits server c.metadata rows ∧ c.blobs = rows.map knownAtom

theorem validateRow_genuine {files : TextMap Bytes} {listed : List Container}
    {rows rows' : Import.Rows} {row : SavedContainer}
    (hrow : Recorded limits server files listed row)
    (hrows : ∀ (key : String) c, rows.cached[key]? = some c → Genuine limits server listed c)
    (h : Import.validateRow files rows row = .ok rows') :
    ∀ (key : String) c, rows'.cached[key]? = some c → Genuine limits server listed c := by
  unfold Import.validateRow at h
  cases hkey : Import.stripSuffix row.name ",savedgame" with
  | none =>
    rw [hkey] at h
    cases h
  | some key =>
    rw [hkey] at h
    obtain ⟨_, -, h⟩ := bind_eq_ok.mp h
    obtain ⟨_, -, h⟩ := bind_eq_ok.mp h
    cases hmodified : Import.modifiedOf row.clientFileTime with
    | none =>
      rw [hmodified] at h
      cases h
    | some modified =>
      rw [hmodified] at h
      simp only [bind_eq_ok, pure_eq_ok] at h
      obtain ⟨r, hr, _, -, rfl⟩ := h
      intro key' c hc
      rw [getElem?_insert_eq] at hc
      by_cases hname : row.name = key'
      · rw [if_pos hname] at hc
        cases hc
        obtain ⟨hmem, fetched, hfetched, hstored⟩ := hrow
        obtain ⟨entries, hentries, hcached⟩ := validateBlobs_cached hr
        refine ⟨hmem, fetched, hfetched, ?_⟩
        show Import.byName _ r.cached = _
        rw [hentries, List.nil_append, knowns hstored hcached, hfetched.sorted]
      · rw [if_neg hname] at hc
        exact hrows key' c hc

theorem validateRows_genuine {files : TextMap Bytes} {listed : List Container}
    {containers : List SavedContainer} {rows rows' : Import.Rows}
    (hcontainers : ∀ row ∈ containers, Recorded limits server files listed row)
    (hrows : ∀ (key : String) c, rows.cached[key]? = some c → Genuine limits server listed c)
    (h : containers.foldlM (Import.validateRow files) rows = .ok rows') :
    ∀ (key : String) c, rows'.cached[key]? = some c → Genuine limits server listed c := by
  induction containers generalizing rows with
  | nil =>
    cases h
    exact hrows
  | cons row containers ih =>
    rw [List.foldlM_cons, bind_eq_ok] at h
    obtain ⟨next, hnext, h⟩ := h
    exact ih (fun r hr => hcontainers r (List.mem_cons_of_mem _ hr))
      (validateRow_genuine (hcontainers row List.mem_cons_self) hrows hnext) h

/-- The cache of a snapshot that was validated holds what the service gave. -/
theorem read_genuine {listed : List Container} {published : Published} {v : Import.Validated}
    (hrecorded : ∀ row ∈ published.folder.manifest.containers,
      Recorded limits server published.folder.blobs listed row)
    (h : published.read = .ok v) :
    v.cache.binding = published.snapshot.scopeBinding ∧
      ∀ (key : String) c, v.cache.containers[key]? = some c → Genuine limits server listed c := by
  unfold Published.read Import.snapshot at h
  rw [mapError_eq_ok] at h
  unfold Import.validate at h
  rw [getElem?_insert_eq, if_pos rfl] at h
  simp only [bind_eq_ok, pure_eq_ok] at h
  obtain ⟨_, -, _, -, _, -, _, -, rows, hrows, _, -, _, -, rfl⟩ := h
  refine ⟨rfl, validateRows_genuine hrecorded ?_ hrows⟩
  intro key c hc
  simp at hc

/-! ## Requests -/

/-- The document of a container and its atoms were asked for. -/
def Requested (requests : List ReadOperation) (row : SavedContainer) : Prop :=
  .container row.name ∈ requests ∧ ∀ blob ∈ row.blobs, .atom blob.atom ∈ requests

omit [JsonText] in
theorem keepBlob_blobs {row row' : Row} {name atom : String} {data : Bytes}
    (h : keepBlob limits row name atom data = .ok row') {blob : SavedBlob}
    (hblob : blob ∈ row'.blobs) : blob ∈ row.blobs ∨ blob.atom = atom := by
  unfold keepBlob at h
  simp only [bind_eq_ok, pure_eq_ok] at h
  obtain ⟨stage, -, _, -, rfl⟩ := h
  rcases List.mem_append.mp hblob with hold | hnew
  · exact .inl hold
  · rw [List.mem_singleton.mp hnew]
    exact .inr rfl

omit [JsonText] in
theorem blobs_requested {container : Container} {entries : List (Atom × Nat)} {row row' : Row}
    (h : (entries.foldlM (downloadBlob limits server none container) row).result = .ok row')
    {blob : SavedBlob} (hblob : blob ∈ row'.blobs) :
    blob ∈ row.blobs ∨
      .atom blob.atom ∈
        (entries.foldlM (downloadBlob limits server none container) row).requests := by
  induction entries generalizing row with
  | nil =>
    cases h
    exact .inl hblob
  | cons entry entries ih =>
    obtain ⟨atom, position⟩ := entry
    rw [List.foldlM_cons] at h ⊢
    rw [Reader.result_bind, bind_eq_ok] at h
    obtain ⟨next, hnext, h⟩ := h
    rcases ih h with hold | hnew
    · have hkeep := hnext
      unfold downloadBlob at hkeep
      simp only [Reader.result_bind, bind_eq_ok, Reader.result_lift] at hkeep
      obtain ⟨data, hdata, _, -, hkeep⟩ := hkeep
      rcases keepBlob_blobs hkeep hold with hold | hatom
      · exact .inl hold
      · apply Or.inr
        apply Reader.mem_bind_left
        unfold downloadBlob
        apply Reader.mem_bind_left
        rw [hatom]
        exact List.mem_singleton_self _
    · exact .inr (Reader.mem_bind_right hnext hnew)

/-- A container that is not cached is asked for. -/
theorem container_requested {cache : Option Cache} {container : Container} {work work' : Work}
    (h : (downloadContainer limits server cache work container).result = .ok work') :
    ∃ row, work'.containers = work.containers ++ [row] ∧ row.metadata = container ∧
      (previousOf cache container = none →
        Requested (downloadContainer limits server cache work container).requests row) := by
  have hall := h
  unfold downloadContainer at h
  simp only [Reader.result_bind, bind_eq_ok, Reader.result_lift, Reader.result_pure, Prod.exists,
    Except.ok.injEq] at h
  obtain ⟨found, before, hatoms, _, hbound, row, hrow, _, hsize, rfl⟩ := h
  refine ⟨savedContainer container row.blobs, rfl, rfl, ?_⟩
  intro hmiss
  constructor
  · unfold downloadContainer
    apply Reader.mem_bind_left
    rw [hmiss]
    unfold downloadAtoms atoms document Server.get
    apply Reader.mem_bind_left
    apply Reader.mem_bind_left
    apply Reader.mem_bind_left
    exact List.mem_singleton_self _
  · intro blob hblob
    unfold downloadContainer
    refine Reader.mem_bind_right hatoms ?_
    refine Reader.mem_bind_right hbound ?_
    refine Reader.mem_bind_left ?_
    rw [hmiss] at hrow ⊢
    rcases blobs_requested hrow hblob with hold | hnew
    · cases hold
    · exact hnew

theorem loop_requested {cache : Option Cache} {listed : List Container} {work work' : Work}
    (h : (listed.foldlM (downloadContainer limits server cache) work).result = .ok work')
    {row : SavedContainer} (hrow : row ∈ work'.containers) :
    row ∈ work.containers ∨ (previousOf cache row.metadata = none →
      Requested (listed.foldlM (downloadContainer limits server cache) work).requests row) := by
  induction listed generalizing work with
  | nil =>
    cases h
    exact .inl hrow
  | cons container listed ih =>
    rw [List.foldlM_cons] at h ⊢
    rw [Reader.result_bind, bind_eq_ok] at h
    obtain ⟨next, hnext, h⟩ := h
    obtain ⟨added, hadded, hmetadata, hrequested⟩ := container_requested hnext
    rcases ih h with hold | hnew
    · rw [hadded] at hold
      rcases List.mem_append.mp hold with hold | hlast
      · exact .inl hold
      · apply Or.inr
        intro hmiss
        rw [List.mem_singleton.mp hlast] at hmiss ⊢
        obtain ⟨hcontainer, hblobs⟩ := hrequested (hmetadata ▸ hmiss)
        exact ⟨Reader.mem_bind_left hcontainer, fun b hb => Reader.mem_bind_left (hblobs b hb)⟩
    · apply Or.inr
      intro hmiss
      obtain ⟨hcontainer, hblobs⟩ := hnew hmiss
      exact ⟨Reader.mem_bind_right hnext hcontainer,
        fun b hb => Reader.mem_bind_right hnext (hblobs b hb)⟩

theorem download_requested {cache : Option Cache} {uuid : Nat} {published : Published}
    (h : (downloadCached limits server cache uuid).result = .ok published)
    {row : SavedContainer} (hrow : row ∈ published.folder.manifest.containers)
    (hmiss : previousOf (boundCache server cache) row.metadata = none) :
    Requested (downloadCached limits server cache uuid).requests row := by
  unfold downloadCached at h ⊢
  simp only [Reader.result_bind, bind_eq_ok, Reader.result_lift, Reader.result_pure,
    Except.ok.injEq] at h
  obtain ⟨listed, hlisted, work, hwork, _, -, _, -, _, -, rfl⟩ := h
  rcases loop_requested hwork hrow with hold | hnew
  · cases hold
  · obtain ⟨hcontainer, hblobs⟩ := hnew hmiss
    exact ⟨Reader.mem_bind_right hlisted (Reader.mem_bind_left hcontainer),
      fun b hb => Reader.mem_bind_right hlisted (Reader.mem_bind_left (hblobs b hb))⟩

/-! ## Agreement -/

/-- The index of the service shows the container. -/
def Lists (limits : Limits) (server : Server) (container : Container) : Prop :=
  ∃ listed, (inventory limits server).result = .ok listed ∧ container ∈ listed

/-- Whenever the service showed a container under one name and etag, it listed the same atoms for it
and answered the same for each of them. -/
def EtagsDetermine (limits : Limits) (history : Set Server) : Prop :=
  ∀ server ∈ history, ∀ earlier ∈ history, earlier.scope.binding = server.scope.binding →
    ∀ container before, Lists limits server container → Lists limits earlier before →
      before.name = container.name → before.etag = container.etag →
        (document limits earlier container.name).result =
          (document limits server container.name).result ∧
        ∀ dictionary found,
          (document limits server container.name).result = .ok (dictionary, found) →
            ∀ atom ∈ found, ∀ maximum, (earlier.get (.atom atom.atom) maximum).result =
              (server.get (.atom atom.atom) maximum).result

/-- The caches that come from the snapshots of earlier downloads: a snapshot is validated, and names
may be dropped from its cache. -/
inductive FromSnapshot (limits : Limits) (history : Set Server) : Cache → Prop
  | read {server : Server} {cache : Option Cache} {uuid : Nat} {published : Published}
      {v : Import.Validated} (hserver : server ∈ history)
      (hcache : ∀ c, cache = some c → FromSnapshot limits history c)
      (hpublished : (downloadCached limits server cache uuid).result = .ok published)
      (hread : published.read = .ok v) : FromSnapshot limits history v.cache
  | erase {cache : Cache} (name : String) (hcache : FromSnapshot limits history cache) :
      FromSnapshot limits history { cache with containers := cache.containers.erase name }

/-- Each entry is what a service of the history gave for it. -/
def Known (limits : Limits) (history : Set Server) (cache : Cache) : Prop :=
  ∀ (key : String) c, cache.containers[key]? = some c → ∃ earlier ∈ history,
    earlier.scope.binding = cache.binding ∧ ∃ listed,
      (inventory limits earlier).result = .ok listed ∧ Genuine limits earlier listed c

variable {history : Set Server}

omit [JsonText] [Sha256] in
/-- With equal answers the same payloads are given. -/
theorem Served.congr {earlier : Server} {container : Container} {bytes : Nat}
    {rows : List (Atom × Bytes)} (h : Served limits earlier container bytes rows)
    (hanswers : ∀ atom ∈ rows.map Prod.fst, ∀ maximum,
      (earlier.get (.atom atom.atom) maximum).result =
        (server.get (.atom atom.atom) maximum).result) :
    Served limits server container bytes rows := by
  induction rows generalizing bytes with
  | nil => trivial
  | cons entry rows ih =>
    obtain ⟨atom, data⟩ := entry
    obtain ⟨hdata, hchecks, hrest⟩ := h
    refine ⟨?_, hchecks, ih hrest fun a ha => hanswers a (List.mem_cons_of_mem _ ha)⟩
    rw [← hanswers atom List.mem_cons_self]
    exact hdata

/-- What was read at an earlier time is read again under the same etag. -/
theorem Fetched.again {earlier : Server} {container : Container} {rows : List (Atom × Bytes)}
    (hetags : EtagsDetermine limits history) (hserver : server ∈ history)
    (hearlier : earlier ∈ history) (hbinding : earlier.scope.binding = server.scope.binding)
    (hnow : Lists limits server container) (hthen : Lists limits earlier container)
    (h : Fetched limits earlier container rows) : Fetched limits server container rows := by
  obtain ⟨hdocument, hanswers⟩ :=
    hetags server hserver earlier hearlier hbinding container container hnow hthen rfl rfl
  have hatoms : (atoms limits server container).result =
      (atoms limits earlier container).result := by
    unfold atoms
    rw [Reader.result_bind, Reader.result_bind, hdocument]
  refine ⟨hatoms.trans h.listed, h.served.congr ?_, h.size⟩
  have hlisted := h.listed
  unfold atoms at hlisted
  simp only [Reader.result_bind, bind_eq_ok, Reader.result_lift, Reader.result_pure, Prod.exists,
    Except.ok.injEq] at hlisted
  obtain ⟨dictionary, found, hfound, _, -, hrows⟩ := hlisted
  rw [hdocument] at hfound
  intro atom hatom
  rw [← hrows] at hatom
  exact hanswers dictionary found hfound atom ((byName_perm _ _).mem_iff.mp hatom)

theorem Known.truthful {cache : Cache} {listed : List Container}
    (h : Known limits history cache) (hetags : EtagsDetermine limits history)
    (hserver : server ∈ history) (hlisted : (inventory limits server).result = .ok listed) :
    Truthful limits server (boundCache server (some cache)) listed := by
  intro container hmem c hc
  unfold previousOf boundCache at hc
  simp only [Option.filter_eq_some_iff, Option.bind_eq_some_iff, beq_iff_eq] at hc
  obtain ⟨⟨bound, ⟨hbound, hbinding⟩, hentry⟩, hmetadata⟩ := hc
  cases hbound
  obtain ⟨earlier, hearlier, hsame, before, hbefore, hgenuine, rows, hrows, hblobs⟩ :=
    h container.name c hentry
  rw [hmetadata] at hgenuine hrows
  exact ⟨rows, hrows.again hetags hserver hearlier (hsame.trans hbinding) ⟨listed, hlisted, hmem⟩
    ⟨before, hbefore, hgenuine⟩, hblobs⟩

/-- With a known cache a download comes to what a cold one comes to. -/
theorem Known.agrees {cache : Option Cache} {uuid : Nat}
    (h : ∀ c, cache = some c → Known limits history c) (hetags : EtagsDetermine limits history)
    (hserver : server ∈ history) :
    (downloadCached limits server cache uuid).result =
      (downloadCached limits server none uuid).result := by
  cases cache with
  | none => rfl
  | some cache =>
    exact downloadCached_eq fun listed hlisted => (h cache rfl).truthful hetags hserver hlisted

theorem FromSnapshot.known {cache : Cache} (hetags : EtagsDetermine limits history)
    (h : FromSnapshot limits history cache) : Known limits history cache := by
  induction h with
  | @read server cache uuid published v hserver hcache hpublished hread ih =>
    rw [Known.agrees ih hetags hserver] at hpublished
    obtain ⟨listed, hlisted, hbinding, hrecorded⟩ := published_recorded hpublished
    obtain ⟨hcachebinding, hgenuine⟩ := read_genuine hrecorded hread
    exact fun key c hc => ⟨server, hserver, (hcachebinding.trans hbinding).symm, listed, hlisted,
      hgenuine key c hc⟩
  | @erase cache name hcache ih =>
    intro key c hc
    rw [getElem?_erase_eq] at hc
    by_cases hname : name = key
    · rw [if_pos hname] at hc
      cases hc
    · rw [if_neg hname] at hc
      exact ih key c hc

/-- The state that a snapshot is imported as, and its digest. -/
def Published.contents (published : Published) : Except Failure (State × Except Failure String) :=
  (fun v => (v.state, Import.digest v.state)) <$> published.read

omit [JsonText] in
/-- Two snapshots are read alike that differ in their names only. -/
theorem validate_congr {folders folders' : TextMap Folder} {binding : String}
    {snap snap' : Snapshot} (hid : identifier snap'.id "snapshot-" = identifier snap.id "snapshot-")
    (hfolder : folders'[snap'.id]? = folders[snap.id]?)
    (hrest : { snap' with id := "" } = { snap with id := "" }) :
    Import.validate folders' binding snap' = Import.validate folders binding snap := by
  simp only [Snapshot.mk.injEq] at hrest
  obtain ⟨-, hscope, hcontainers, hblobs, hbytes, hconsistency⟩ := hrest
  unfold Import.validate
  rw [hid, hfolder, hscope, hcontainers, hblobs, hbytes, hconsistency]

omit [JsonText] in
/-- The name under which a snapshot is published does not matter to what is read from it. -/
theorem contents_publish {uuid uuid' : Nat} {listed : List Container}
    {work : Stage × List SavedContainer} :
    (publish server uuid listed work).contents = (publish server uuid' listed work).contents := by
  have hread : (publish server uuid listed work).read =
      (publish server uuid' listed work).read := by
    unfold Published.read Import.snapshot
    refine congrArg (Except.mapError _) (validate_congr ?_ ?_ rfl)
    · show identifier ("snapshot-" ++ simpleUuid uuid) _ =
        identifier ("snapshot-" ++ simpleUuid uuid') _
      rw [identifier_uuid, identifier_uuid]
    · rw [getElem?_insert_eq, if_pos rfl, getElem?_insert_eq, if_pos rfl, publish_folder,
        publish_folder]
  unfold Published.contents
  rw [hread]

/-- Two cold downloads publish the same under their names. -/
theorem cold_downloads (limits : Limits) (server : Server) (uuid uuid' : Nat) :
    Published.folder <$> (downloadCached limits server none uuid).result =
      Published.folder <$> (downloadCached limits server none uuid').result ∧
    ((downloadCached limits server none uuid).result >>= Published.contents) =
      ((downloadCached limits server none uuid').result >>= Published.contents) := by
  cases hlisted : (inventory limits server).result with
  | error e =>
    rw [downloadCached_error hlisted, downloadCached_error hlisted]
    exact ⟨rfl, rfl⟩
  | ok listed =>
    rw [downloadCached_result hlisted truthful_none, downloadCached_result hlisted truthful_none]
    cases (listed.foldlM (downloadContainer limits server (boundCache server none)) {}).result with
    | error e =>
      have hfailed (n : Nat) : publish server n listed <$>
          (Work.published <$> (Except.error e : Except Failure Work)) = .error e := rfl
      rw [hfailed, hfailed]
      exact ⟨rfl, rfl⟩
    | ok work =>
      have hpublish (n : Nat) : publish server n listed <$> (Work.published <$> Except.ok work) =
          (pure (publish server n listed work.published) : Except Failure Published) := rfl
      rw [hpublish, hpublish, pure_bind, pure_bind, map_pure, map_pure]
      rw [publish_folder, publish_folder]
      exact ⟨rfl, contents_publish⟩

/-- Names are dropped from a cache, and nothing is added. -/
theorem uncached {names : List String} {cached cached' : Option Cache} {c' : Cache}
    (h : names.foldlM uncache cached = .ok cached') (hc' : cached' = some c') :
    ∃ c, cached = some c ∧ (FromSnapshot limits history c → FromSnapshot limits history c') ∧
      (∀ key : String, c.containers[key]? = none → c'.containers[key]? = none) ∧
      ∀ name ∈ names, c'.containers[name ++ ",savedgame"]? = none := by
  induction names generalizing cached with
  | nil =>
    cases h
    exact ⟨c', hc', fun h => h, fun _ h => h, nofun⟩
  | cons name names ih =>
    rw [List.foldlM_cons, bind_eq_ok] at h
    obtain ⟨next, hnext, h⟩ := h
    obtain ⟨c, rfl, hfrom, hgone, hnames⟩ := ih h
    unfold uncache at hnext
    simp only [bind_eq_ok, pure_eq_ok, Option.map_eq_some_iff] at hnext
    obtain ⟨_, -, first, hfirst, rfl⟩ := hnext
    have herased (key : String)
        (hkey : first.containers[key]? = none ∨ name ++ ",savedgame" = key) :
        (first.containers.erase (name ++ ",savedgame"))[key]? = none := by
      rw [getElem?_erase_eq]
      by_cases heq : name ++ ",savedgame" = key
      · rw [if_pos heq]
      · rw [if_neg heq]
        exact hkey.resolve_right heq
    refine ⟨first, hfirst, fun h => hfrom (.erase _ h),
      fun key hkey => hgone key (herased key (.inl hkey)), ?_⟩
    intro other hother
    rcases List.mem_cons.mp hother with rfl | hother
    · exact hgone _ (herased _ (.inr rfl))
    · exact hnames other hother

/-- While an etag stands for one content of a container, a download with the cache of an earlier
snapshot ends like a cold one, and publishes the same; a forced container is always asked for. -/
theorem cached_download_agrees {cache : Cache} (hetags : EtagsDetermine limits history)
    (hserver : server ∈ history) (hcache : FromSnapshot limits history cache) :
    (∀ uuid, (downloadCached limits server (some cache) uuid).result =
      (downloadCached limits server none uuid).result) ∧
    (∀ uuid uuid', Published.folder <$> (downloadCached limits server (some cache) uuid).result =
        Published.folder <$> (downloadCached limits server none uuid').result ∧
      ((downloadCached limits server (some cache) uuid).result >>= Published.contents) =
        ((downloadCached limits server none uuid').result >>= Published.contents)) ∧
    ∀ force uuid published,
      (download limits server (some cache) force uuid).result = .ok published →
        (downloadCached limits server none uuid).result = .ok published ∧
        ∀ name ∈ force, ∀ row ∈ published.folder.manifest.containers,
          row.name = name ++ ",savedgame" →
            Requested (download limits server (some cache) force uuid).requests row := by
  have hknown : ∀ c, some cache = some c → Known limits history c := by
    intro c hc
    cases hc
    exact hcache.known hetags
  refine ⟨fun uuid => Known.agrees hknown hetags hserver, ?_, ?_⟩
  · intro uuid uuid'
    rw [Known.agrees hknown hetags hserver]
    exact cold_downloads limits server uuid uuid'
  · intro force uuid published h
    unfold download at h ⊢
    simp only [Reader.result_bind, bind_eq_ok, Reader.result_lift] at h
    obtain ⟨_, hforce, cached, hcached, h⟩ := h
    have hleft : ∀ c, cached = some c → FromSnapshot limits history c ∧
        ∀ name ∈ force.keys, c.containers[name ++ ",savedgame"]? = none := by
      intro c hc
      obtain ⟨first, hfirst, hfrom, -, hnames⟩ := uncached hcached hc
      cases hfirst
      exact ⟨hfrom hcache, hnames⟩
    have hcold : (downloadCached limits server none uuid).result = .ok published := by
      rw [← Known.agrees (fun c hc => (hleft c hc).1.known hetags) hetags hserver]
      exact h
    refine ⟨hcold, ?_⟩
    intro name hname row hrow hrowname
    have hmiss : previousOf (boundCache server cached) row.metadata = none := by
      cases hprevious : previousOf (boundCache server cached) row.metadata with
      | none => rfl
      | some c =>
        unfold previousOf boundCache at hprevious
        simp only [Option.filter_eq_some_iff, Option.bind_eq_some_iff] at hprevious
        obtain ⟨⟨bound, ⟨hbound, -⟩, hentry⟩, -⟩ := hprevious
        have hgone := (hleft bound hbound).2 name (Std.ExtTreeMap.mem_keys.mpr hname)
        rw [← hrowname] at hgone
        rw [show row.metadata.name = row.name from rfl, hgone] at hentry
        cases hentry
    obtain ⟨hcontainer, hblobs⟩ := download_requested h hrow hmiss
    exact ⟨Reader.mem_bind_right hforce (Reader.mem_bind_right hcached hcontainer),
      fun b hb => Reader.mem_bind_right hforce (Reader.mem_bind_right hcached (hblobs b hb))⟩

end

/-! ## A run -/

def profileIndex : String :=
  "\x7b\"blobs\":[\x7b\"fileName\":\"profile,savedgame\"," ++
  "\"displayName\":\"Profile\",\"etag\":\"one\"," ++
  "\"clientFileTime\":133000000000000000,\"size\":3\x7d]," ++
  "\"pagingInfo\":\x7b\"continuationToken\":null,\"totalItems\":1\x7d\x7d"

def profileAtoms : String :=
  "\x7b\"atoms\":\x7b\"data\":\"11111111-2222-3333-4444-555555555555,binary\"\x7d\x7d"

/-- What the two documents decode to. -/
@[reducible] def profileJson : JsonText where
  decode bytes :=
    if bytes = utf8 profileIndex then
      some (.object [
        ("blobs", .array [.object [("fileName", .string "profile,savedgame"),
          ("displayName", .string "Profile"), ("etag", .string "one"),
          ("clientFileTime", .number (some 133000000000000000)), ("size", .number (some 3))]]),
        ("pagingInfo", .object [("continuationToken", .null), ("totalItems", .number (some 1))])])
    else if bytes = utf8 profileAtoms then
      some (.object [("atoms", .object [
        ("data", .string "11111111-2222-3333-4444-555555555555,binary")])])
    else
      none

/-- A service with one container of one atom. -/
def profileServer : Server where
  scope := ⟨"123", "aaaaaaaa-bbbb-cccc-dddd-eeeeeeeeeeee", "Test_abc", 123⟩
  read op _ :=
    match op with
    | .index _ _ => .ok ⟨200, ∅, utf8 profileIndex⟩
    | .container _ => .ok ⟨200, ∅, utf8 profileAtoms⟩
    | .atom _ => .ok ⟨200, ∅, utf8 "new"⟩

attribute [local instance] profileJson standardSha256

/-- What is cached after a first download. -/
def profileCache : Cache :=
  match (downloadCached {} profileServer none 1).result >>= Published.read with
  | .ok v => v.cache
  | .error _ => ⟨"", ∅⟩

theorem profileCache_fromSnapshot : FromSnapshot {} {profileServer} profileCache := by
  have hok : ((downloadCached {} profileServer none 1).result >>= Published.read).isOk = true := by
    decide +kernel
  obtain ⟨v, hv⟩ := exists_eq_ok hok
  have hcache : profileCache = v.cache := by
    unfold profileCache
    rw [hv]
  obtain ⟨published, hpublished, hread⟩ := bind_eq_ok.mp hv
  rw [hcache]
  exact .read (Set.mem_singleton _) (fun _ hc => by cases hc) hpublished hread

/-- The same download with that cache. -/
theorem cached_download_agrees_profile :
    (downloadCached {} profileServer (some profileCache) 2).result =
      (downloadCached {} profileServer none 2).result := by
  have hetags : EtagsDetermine {} {profileServer} := by
    rintro server rfl earlier rfl - container before - - - -
    exact ⟨rfl, fun _ _ _ _ _ _ => rfl⟩
  exact (cached_download_agrees hetags (Set.mem_singleton _) profileCache_fromSnapshot).1 2

end Flightdeck.Cloud.Storage
