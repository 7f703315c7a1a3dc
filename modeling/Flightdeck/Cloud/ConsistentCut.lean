import Flightdeck.Cloud.CachedDownload
import Flightdeck.Foundation.Versions

/-!
# Downloads while the cloud changes

`download_cached` takes no lock: between any two of its requests other devices may put and delete
containers.  What it publishes is what the cloud held at one instant nevertheless, because nothing
is published unless the index says the same at the beginning and at the end.
-/

namespace Flightdeck.Cloud.Storage

open Foundation SaveState

/-! ## Programs in time -/

/-- A program whose requests are sent one after the other, from an instant on. -/
def Timed (α : Type) := Nat → Reader α

namespace Timed

variable {α β ρ : Type}

instance : Monad Timed where
  pure a := fun _ => pure a
  bind x f := fun n => x n >>= fun a => f a (n + (x n).requests.length)

instance : MonadLift (Except Failure) Timed := ⟨fun x _ => liftM x⟩

/-- A request; every request finds the service one instant later. -/
def get (servers : Nat → Server) (op : ReadOperation) (maximum : Nat) : Timed Bytes :=
  fun n => (servers n).get op maximum

end Timed

section

variable [Sha256] [JsonText] (limits : Limits) (servers : Nat → Server)

def timedInventory : Timed (List Container) :=
  fun n => changingInventory limits fun m => servers (n + m)

def timedDocument (name : String) : Timed (Bool × List Atom) := do
  let data ← Timed.get servers (.container name) limits.jsonBytes
  atomsDocument limits data

def timedAtoms (container : Container) : Timed (List Atom) := do
  let (dictionary, atoms) ← timedDocument limits servers container.name
  Cloud.require (dictionary || (atoms.map fun a => a.size.getD 0).sum == container.size) .changed
  return Import.byName Atom.name atoms

def timedBlob (previous : Option CachedContainer) (container : Container) (row : Row)
    (entry : Atom × Nat) : Timed Row := do
  let (atom, position) := entry
  let maximum := atomMaximum limits container row.bytes atom
  -- a cached container is copied by position and asks for nothing
  let data ← match previous with
    | some c => pure ((c.blobs[position]?.map Prod.snd).getD [])
    | none => Timed.get servers (.atom atom.atom) maximum
  Cloud.require (atom.size.all (· == data.length) && data.length ≤ maximum) .invalidResponse
  keepBlob limits row atom.name atom.atom data

def timedListing (previous : Option CachedContainer) (container : Container)
    (before : TextMap (List Atom)) : Timed (List Atom × TextMap (List Atom)) :=
  match previous with
  | some c => return (c.blobs.map Prod.fst, before)
  | none => do
    let atoms ← timedAtoms limits servers container
    return (atoms, before.insert container.name atoms)

def timedContainer (cache : Option Cache) (work : Work) (container : Container) : Timed Work := do
  let previous := previousOf cache container
  let (atoms, before) ← timedListing limits servers previous container work.before
  Cloud.require (work.stage.filesWritten + atoms.length ≤ limits.blobs) .bounds
  let row ← atoms.zipIdx.foldlM (timedBlob limits servers previous container)
    { stage := work.stage }
  Cloud.require (row.bytes == container.size) .changed
  return {
    stage := row.stage
    before
    containers := work.containers ++ [savedContainer container row.blobs] }

def timedRecheck (before : TextMap (List Atom)) (container : Container) : Timed Unit := do
  match before[container.name]? with
  -- what came from the cache was not listed in this download
  | none => return ()
  | some listed =>
    let again ← timedAtoms limits servers container
    Cloud.require (again == listed) .changed

/-- `download_cached` while others change the cloud. -/
def timedDownload (scope : Scope) (cache : Option Cache) (uuid : Nat) : Timed Published := do
  let binding := scope.binding
  let cache := cache.filter fun c => c.binding == binding
  let inventory ← timedInventory limits servers
  let work ← inventory.foldlM (timedContainer limits servers cache) {}
  inventory.forM (timedRecheck limits servers work.before)
  let again ← timedInventory limits servers
  Cloud.require (again == inventory) .changed
  return {
    folder := {
      manifest := {
        schema := 1
        scopeBinding := binding
        consistency := CONSISTENCY
        containers := work.containers }
      blobs := work.stage.files }
    snapshot := {
      id := "snapshot-" ++ simpleUuid uuid
      scopeBinding := binding
      containerCount := inventory.length
      blobCount := work.stage.filesWritten
      totalBytes := work.stage.total
      consistency := CONSISTENCY } }

end

/-! ## What a program has seen when it ends -/

namespace Timed

variable {α β ρ : Type}

/-- If the program succeeds, `Q` holds of the instant at which it ends and of its value. -/
def Ends (n : Nat) (x : Timed α) (Q : Nat → α → Prop) : Prop :=
  ∀ a, (x n).result = .ok a → Q (n + (x n).requests.length) a

variable {n : Nat} {x : Timed α} {f : α → Timed β} {Q : Nat → α → Prop} {R : Nat → β → Prop}

theorem Ends.bind (first : Ends n x Q)
    (rest : ∀ m a, n ≤ m → Q m a → Ends m (f a) R) : Ends n (x >>= f) R := by
  intro b ok
  have ok : ((x n) >>= fun a => f a (n + (x n).requests.length)).result = .ok b := ok
  rw [Reader.result_bind, bind_eq_ok] at ok
  obtain ⟨a, ran, ok⟩ := ok
  have ended := rest _ a (Nat.le_add_right _ _) (first a ran) b ok
  rw [Nat.add_assoc] at ended
  -- the second part starts when the first one's requests are over
  have sent : ((x >>= f) n).requests.length =
      (x n).requests.length + (f a (n + (x n).requests.length)).requests.length := by
    show ((x n) >>= fun a => f a (n + (x n).requests.length)).requests.length = _
    rw [Reader.requests_bind_ok ran, List.length_append]
  rw [sent]
  exact ended

theorem Ends.mono {Q' : Nat → α → Prop} (ends : Ends n x Q)
    (weaker : ∀ m a, n ≤ m → Q m a → Q' m a) : Ends n x Q' :=
  fun a ok => weaker _ a (Nat.le_add_right _ _) (ends a ok)

theorem Ends.pure {a : α} (holds : Q n a) : Ends n (Pure.pure a : Timed α) Q := by
  intro b ok
  obtain rfl := Except.ok.inj ok
  exact holds

theorem Ends.lift {x : Except Failure α} (holds : ∀ a, x = .ok a → Q n a) :
    Ends n (liftM x : Timed α) Q := holds

/-- A loop keeps an invariant over the rows that are done. -/
theorem Ends.foldlM {step : β → ρ → Timed β} {I : Nat → List ρ → β → Prop} {rows : List ρ}
    {done : List ρ} {b : β}
    (each : ∀ m b done row, n ≤ m → row ∈ rows → I m done b →
      Ends m (step b row) fun k => I k (done ++ [row]))
    (start : I n done b) : Ends n (rows.foldlM step b) fun m => I m (done ++ rows) := by
  induction rows generalizing n done b with
  | nil =>
    rw [List.append_nil]
    exact Ends.pure start
  | cons row rows ih =>
    refine (each n b done row (Nat.le_refl n) List.mem_cons_self start).bind
      fun m b' later holds => ?_
    have rest := ih (fun k b done row after there =>
      each k b done row (Nat.le_trans later after) (List.mem_cons_of_mem _ there)) holds
    rw [List.append_assoc] at rest
    exact rest

end Timed

/-! ## The cloud -/

/-- What a container holds between two changes: its row of the index, and its atoms by their names
and ids. -/
structure Revision where
  metadata : Container
  atoms : List (String × String)

/-- The service answers at every instant from what the cloud holds then.  A page of the index is
read at one instant, and the payload of an atom never changes. -/
structure Honest [JsonText] (limits : Limits) (servers : Nat → Server)
    (cloud : Nat → TextMap Revision) (stored : String → Option Bytes) : Prop where
  index (n skip : Nat) (token : Option String) (data : Bytes) (page : Page) :
    ((servers n).get (.index skip token) limits.jsonBytes).result = .ok data →
    Page.read limits data = .ok page →
    page.total = (cloud n).size ∧
      ∀ row ∈ page.rows, ∃ e, (cloud n)[row.name]? = some e ∧ e.metadata = row
  container (n : Nat) (name : String) (data : Bytes) (dictionary : Bool) (listed : List Atom) :
    ((servers n).get (.container name) limits.jsonBytes).result = .ok data →
    atomsDocument limits data = .ok (dictionary, listed) →
    ∃ e, (cloud n)[name]? = some e ∧ (listed.map fun atom => (atom.name, atom.atom)).Perm e.atoms
  atom (n : Nat) (id : String) (maximum : Nat) (data : Bytes) :
    ((servers n).get (.atom id) maximum).result = .ok data → stored id = some data

section

variable [JsonText] {limits : Limits} {servers : Nat → Server} {cloud : Nat → TextMap Revision}
  {stored : String → Option Bytes}

/-- A page that was read at an instant. -/
def PageAt (limits : Limits) (server : Server) (page : Page) : Prop :=
  ∃ skip token data, (server.get (.index skip token) limits.jsonBytes).result = .ok data ∧
    Page.read limits data = .ok page

/-- There is a page for every request of an index, and for every page a request. -/
theorem paged_at {servers : Nat → Server} {skip : Nat} {token : Option String} {pages : List Page}
    {requests : List ReadOperation} (paged : Paged limits servers skip token pages requests) :
    (∀ t < requests.length, ∃ page ∈ pages, PageAt limits (servers t) page) ∧
      ∀ page ∈ pages, ∃ t < requests.length, PageAt limits (servers t) page := by
  -- Pages and requests are consumed together; the rest of them runs one instant later.
  induction pages generalizing servers skip token requests with
  | nil =>
    cases requests with
    | nil => exact ⟨fun t early => absurd early (Nat.not_lt_zero t), fun _ there => by cases there⟩
    | cons op requests => exact paged.elim
  | cons page pages ih =>
    cases requests with
    | nil => exact paged.elim
    | cons op requests =>
      obtain ⟨rfl, ⟨data, got, read⟩, later⟩ := paged
      obtain ⟨answered, asked⟩ := ih later
      have first : PageAt limits (servers 0) page := ⟨_, _, data, got, read⟩
      constructor
      · intro t early
        cases t with
        | zero => exact ⟨page, List.mem_cons_self, first⟩
        | succ t =>
          obtain ⟨other, inside, there⟩ := answered t (Nat.lt_of_succ_lt_succ early)
          exact ⟨other, List.mem_cons_of_mem _ inside, there⟩
      · intro other inside
        rcases List.mem_cons.mp inside with rfl | inside
        · exact ⟨0, Nat.succ_pos _, first⟩
        · obtain ⟨t, early, there⟩ := asked other inside
          exact ⟨t + 1, Nat.succ_lt_succ early, there⟩

theorem changingLoop_asks {servers : Nat → Server} {pages : Nat} {st : Listing}
    {rows : List Container} (ok : (changingLoop limits servers pages st).result = .ok rows) :
    0 < (changingLoop limits servers pages st).requests.length := by
  cases pages with
  | zero => cases ok
  | succ pages =>
    rw [changingLoop] at ok ⊢
    rw [Reader.result_bind, bind_eq_ok] at ok
    obtain ⟨data, got, -⟩ := ok
    rw [Reader.requests_bind_ok got, List.length_append]
    exact Nat.lt_of_lt_of_le Nat.zero_lt_one (Nat.le_add_right _ _)

/-- What an index says about the cloud: each row was there at some instant of its requests, and at
each of them there were as many containers as rows. -/
structure IndexSeen (cloud : Nat → TextMap Revision) (n m : Nat) (rows : List Container) :
    Prop where
  later : n < m
  names : (rows.map Container.name).Nodup
  count : ∀ t, n ≤ t → t < m → (cloud t).size = rows.length
  rows : ∀ row ∈ rows, ∃ t, n ≤ t ∧ t < m ∧ ∃ e, (cloud t)[row.name]? = some e ∧ e.metadata = row

theorem timedInventory_seen (honest : Honest limits servers cloud stored) (n : Nat) :
    Timed.Ends n (timedInventory limits servers) (IndexSeen cloud n) := by
  intro rows ok
  obtain ⟨pages, paged, complete⟩ := (inventory_paged limits fun m => servers (n + m)).2 rows ok
  obtain ⟨answered, asked⟩ := paged_at paged
  have told {t : Nat} {page : Page} (there : PageAt limits (servers t) page) :
      page.total = (cloud t).size ∧
        ∀ row ∈ page.rows, ∃ e, (cloud t)[row.name]? = some e ∧ e.metadata = row := by
    obtain ⟨skip, token, data, got, read⟩ := there
    exact honest.index t skip token data page got read
  refine ⟨Nat.lt_add_of_pos_right (changingLoop_asks ok), complete.names, ?_, ?_⟩
  · intro t early late
    obtain ⟨page, inside, there⟩ := answered (t - n) (by
      unfold timedInventory at late
      omega)
    rw [Nat.add_sub_cancel' early] at there
    rw [← (told there).1, complete.totals page inside]
  · intro row inside
    obtain ⟨page, there, row_of⟩ := List.mem_flatMap.mp (complete.concatenated.mem_iff.mp inside)
    obtain ⟨t, early, seen⟩ := asked page there
    exact ⟨n + t, Nat.le_add_right _ _, Nat.add_lt_add_left early n, (told seen).2 row row_of⟩

/-- An entry of a cache is what the cloud held at some instant before the download. -/
def Remembers (cloud : Nat → TextMap Revision) (stored : String → Option Bytes) (start : Nat)
    (c : CachedContainer) : Prop :=
  ∃ t ≤ start, ∃ e, (cloud t)[c.metadata.name]? = some e ∧ e.metadata = c.metadata ∧
    (c.blobs.map fun b => (b.1.name, b.1.atom)).Perm e.atoms ∧
      ∀ b ∈ c.blobs, stored b.1.atom = some b.2

theorem timedAtoms_seen (honest : Honest limits servers cloud stored) (n : Nat)
    (container : Container) :
    Timed.Ends n (timedAtoms limits servers container) fun m listed => m = n + 1 ∧
      ∃ e, (cloud n)[container.name]? = some e ∧
        (listed.map fun atom => (atom.name, atom.atom)).Perm e.atoms := by
  have document : Timed.Ends n (timedDocument limits servers container.name) fun m listed =>
      m = n + 1 ∧ ∃ e, (cloud n)[container.name]? = some e ∧
        (listed.2.map fun atom => (atom.name, atom.atom)).Perm e.atoms := by
    refine Timed.Ends.bind (Q := fun m data => m = n + 1 ∧
      ((servers n).get (.container container.name) limits.jsonBytes).result = .ok data)
      (fun data got => ⟨rfl, got⟩) fun m data _ got => ?_
    obtain ⟨rfl, got⟩ := got
    refine Timed.Ends.lift fun listed read => ⟨rfl, ?_⟩
    obtain ⟨dictionary, atoms⟩ := listed
    exact honest.container n container.name data dictionary atoms got read
  refine document.bind fun m listed _ seen => ?_
  obtain ⟨dictionary, atoms⟩ := listed
  obtain ⟨rfl, e, here, same⟩ := seen
  refine (Timed.Ends.lift (Q := fun m _ => m = n + 1) fun _ _ => rfl).bind fun m _ _ there => ?_
  subst there
  exact Timed.Ends.pure ⟨rfl, e, here, ((byName_perm Atom.name atoms).map _).trans same⟩

variable [Sha256]

/-- The loop over the atoms of a container that is read. -/
theorem timedBlobs_read (honest : Honest limits servers cloud stored) (n : Nat)
    (container : Container) (listed : List Atom) (k : Nat) (row : Row) :
    Timed.Ends n ((listed.zipIdx k).foldlM (timedBlob limits servers none container) row)
      fun _ row' => ∃ rows : List (Atom × Bytes), rows.map Prod.fst = listed ∧
        (∀ b ∈ rows, stored b.1.atom = some b.2) ∧ rows.foldlM (keepRow limits) row = .ok row' := by
  induction listed generalizing n k row with
  | nil => exact Timed.Ends.pure ⟨[], rfl, fun _ there => (List.not_mem_nil there).elim, rfl⟩
  | cons atom listed ih =>
    have first : Timed.Ends n (timedBlob limits servers none container row (atom, k)) fun _ row' =>
        ∃ data, stored atom.atom = some data ∧ keepRow limits row (atom, data) = .ok row' := by
      refine Timed.Ends.bind (Q := fun _ data => stored atom.atom = some data)
        (fun data got => honest.atom n _ _ data got) fun m data _ there => ?_
      refine (Timed.Ends.lift (Q := fun _ _ => True) fun _ _ => trivial).bind fun m _ _ _ => ?_
      exact Timed.Ends.lift fun row' kept => ⟨data, there, kept⟩
    refine first.bind fun m next _ kept => (ih m (k + 1) next).mono fun _ row' _ rest => ?_
    obtain ⟨data, there, kept⟩ := kept
    obtain ⟨rows, rfl, all, ran⟩ := rest
    refine ⟨(atom, data) :: rows, rfl, List.forall_mem_cons.mpr ⟨there, all⟩, ?_⟩
    rw [List.foldlM_cons, kept]
    exact ran

omit [JsonText] in
/-- The loop over the atoms of a cached container. -/
theorem timedBlobs_cached (n : Nat) (container : Container) (c : CachedContainer)
    {done rest : List (Atom × Bytes)} (blobs : c.blobs = done ++ rest) (row : Row) :
    Timed.Ends n (((rest.map Prod.fst).zipIdx done.length).foldlM
        (timedBlob limits servers (some c) container) row)
      fun _ row' => rest.foldlM (keepRow limits) row = .ok row' := by
  -- `done` keeps the position at which the next cached payload is found
  induction rest generalizing n done row with
  | nil => exact Timed.Ends.pure rfl
  | cons b rest ih =>
    have here : c.blobs[done.length]? = some b := by
      rw [blobs, List.getElem?_append_right (Nat.le_refl _), Nat.sub_self]
      rfl
    have first : Timed.Ends n (timedBlob limits servers (some c) container row (b.1, done.length))
        fun _ row' => keepRow limits row b = .ok row' := by
      unfold timedBlob
      dsimp only
      rw [here]
      refine Timed.Ends.bind (Q := fun _ data => data = b.2) (Timed.Ends.pure rfl)
        fun m data _ same => ?_
      subst same
      refine (Timed.Ends.lift (Q := fun _ _ => True) fun _ _ => trivial).bind fun m _ _ _ => ?_
      exact Timed.Ends.lift fun row' kept => kept
    refine first.bind fun m next _ kept => ?_
    have split : c.blobs = (done ++ [b]) ++ rest := by rw [blobs, List.append_assoc]; rfl
    have later := ih m split next
    rw [List.length_append] at later
    refine later.mono fun _ row' _ ran => ?_
    rw [List.foldlM_cons, kept]
    exact ran

/-- A container of the manifest has the atoms of a revision, and its files hold their payloads. -/
structure Copied (stored : String → Option Bytes) (files : TextMap Bytes) (row : SavedContainer)
    (e : Revision) : Prop where
  atoms : (row.blobs.map fun blob => (blob.name, blob.atom)).Perm e.atoms
  blobs : ∀ blob ∈ row.blobs, ∃ data, stored blob.atom = some data ∧ blob.size = data.length ∧
    ∃ n, blob.file = "blobs/" ++ blobFile n ∧ files[blobFile n]? = some data

omit [Sha256] [JsonText] in
theorem Copied.mono {files files' : TextMap Bytes} {row : SavedContainer} {e : Revision}
    (copied : Copied stored files row e) (grows : Included files files') :
    Copied stored files' row e := by
  refine ⟨copied.atoms, fun blob there => ?_⟩
  obtain ⟨data, payload, size, n, file, held⟩ := copied.blobs blob there
  exact ⟨data, payload, size, n, file, grows _ _ held⟩

omit [Sha256] [JsonText] in
theorem copied_of_stored {files : TextMap Bytes} {container : Container} {blobs : List SavedBlob}
    {rows : List (Atom × Bytes)} {e : Revision} (held : List.Forall₂ (Stored files) blobs rows)
    (atoms : (rows.map fun b => (b.1.name, b.1.atom)).Perm e.atoms)
    (payloads : ∀ b ∈ rows, stored b.1.atom = some b.2) :
    Copied stored files (savedContainer container blobs) e := by
  have names : blobs.map (fun blob => (blob.name, blob.atom)) =
      rows.map fun b => (b.1.name, b.1.atom) := by
    clear atoms payloads
    induction held with
    | nil => rfl
    | cons first _ ih => rw [List.map_cons, List.map_cons, ih, first.1, first.2.1]
  have paired : ∀ blob ∈ blobs, ∃ b ∈ rows, Stored files blob b := by
    clear atoms payloads names
    induction held with
    | nil => exact fun _ there => (List.not_mem_nil there).elim
    | cons first _ ih =>
      refine List.forall_mem_cons.mpr ⟨⟨_, List.mem_cons_self, first⟩, fun blob there => ?_⟩
      obtain ⟨b, inside, pair⟩ := ih blob there
      exact ⟨b, List.mem_cons_of_mem _ inside, pair⟩
  constructor
  · show (blobs.map _).Perm e.atoms
    rw [names]
    exact atoms
  · intro blob there
    obtain ⟨b, inside, -, atom, size, file⟩ := paired blob there
    exact ⟨b.2, by rw [atom]; exact payloads b inside, size, file⟩

/-- Where a container of the manifest comes from: it was read between two instants, or remembered at
its listed revision from before the download. -/
def Taken (cloud : Nat → TextMap Revision) (stored : String → Option Bytes) (start n m : Nat)
    (files : TextMap Bytes) (row : SavedContainer) : Prop :=
  ∃ t e, (cloud t)[row.name]? = some e ∧ Copied stored files row e ∧
    (n ≤ t ∧ t < m ∨ t ≤ start ∧ e.metadata = row.metadata)

omit [Sha256] [JsonText] in
theorem Taken.mono {start n m m' : Nat} {files files' : TextMap Bytes} {row : SavedContainer}
    (taken : Taken cloud stored start n m files row) (grows : Included files files')
    (later : m ≤ m') : Taken cloud stored start n m' files' row := by
  obtain ⟨t, e, there, copied, when⟩ := taken
  refine ⟨t, e, there, copied.mono grows, when.imp_left fun window => ?_⟩
  exact ⟨window.1, Nat.lt_of_lt_of_le window.2 later⟩

theorem timedContainer_taken (honest : Honest limits servers cloud stored) {start n : Nat}
    {cache : Option Cache} {container : Container}
    (remembers : ∀ c, previousOf cache container = some c → Remembers cloud stored start c)
    (work : Work) :
    Timed.Ends n (timedContainer limits servers cache work container) fun m work' => ∃ row,
      work'.containers = work.containers ++ [row] ∧ row.metadata = container ∧
        Included work.stage.files work'.stage.files ∧
        Taken cloud stored start n m work'.stage.files row := by
  -- what the loop over the atoms comes to, whichever way they were found
  have loop (m : Nat) (previous : Option CachedContainer) (atoms : List Atom)
      (taken : List (Atom × Bytes) → Prop)
      (blobs : Timed.Ends m (atoms.zipIdx.foldlM (timedBlob limits servers previous container)
        { stage := work.stage }) fun _ row => ∃ rows, taken rows ∧
          rows.foldlM (keepRow limits) { stage := work.stage } = .ok row)
      (before : TextMap (List Atom)) :
      Timed.Ends m (do
        Cloud.require (work.stage.filesWritten + atoms.length ≤ limits.blobs) .bounds
        let row ← atoms.zipIdx.foldlM (timedBlob limits servers previous container)
          { stage := work.stage }
        Cloud.require (row.bytes == container.size) .changed
        return {
          stage := row.stage
          before
          containers := work.containers ++ [savedContainer container row.blobs] : Work })
        fun _ work' => ∃ rows blobs, taken rows ∧
          work'.containers = work.containers ++ [savedContainer container blobs] ∧
          Included work.stage.files work'.stage.files ∧
          List.Forall₂ (Stored work'.stage.files) blobs rows := by
    refine Timed.Ends.bind (Q := fun k _ => k = m) (Timed.Ends.lift fun _ _ => rfl)
      fun k _ _ same => ?_
    subst same
    refine blobs.bind fun k row _ kept => ?_
    refine (Timed.Ends.lift (Q := fun _ _ => True) fun _ _ => trivial).bind fun k _ _ _ => ?_
    obtain ⟨rows, took, ran⟩ := kept
    obtain ⟨grows, made, same, held⟩ := keepRows_stored ran
    refine Timed.Ends.pure ⟨rows, made, took, ?_, grows, held⟩
    rw [same]
    rfl
  unfold timedContainer timedListing
  -- A cached container was seen before the download began, the other is listed now.
  cases found : previousOf cache container with
  | some c =>
    obtain ⟨t, early, e, there, metadata, atoms, payloads⟩ := remembers c found
    have listed : c.metadata = container := by
      unfold previousOf at found
      exact beq_iff_eq.mp (Option.filter_eq_some_iff.mp found).2
    refine Timed.Ends.bind (Q := fun k row => row.1 = c.blobs.map Prod.fst) (Timed.Ends.pure rfl)
      fun k row _ same => ?_
    obtain ⟨atoms', before⟩ := row
    obtain rfl : atoms' = c.blobs.map Prod.fst := same
    refine (loop k (some c) _ (fun rows => rows = c.blobs) ?_ before).mono fun m work' _ made => ?_
    · exact (timedBlobs_cached k container c (List.nil_append _).symm _).mono fun _ row _ ran =>
        ⟨c.blobs, rfl, ran⟩
    · obtain ⟨rows, blobs, rfl, containers, grows, held⟩ := made
      refine ⟨_, containers, rfl, grows, t, e, ?_, copied_of_stored held atoms payloads,
        .inr ⟨early, ?_⟩⟩
      · show (cloud t)[container.name]? = some e
        rw [← listed]
        exact there
      · rw [metadata, listed]
        rfl
  | none =>
    refine Timed.Ends.bind (Q := fun k row => k = n + 1 ∧ ∃ e, (cloud n)[container.name]? = some e ∧
        (row.1.map fun atom => (atom.name, atom.atom)).Perm e.atoms) ?_ fun k row _ seen => ?_
    · refine (timedAtoms_seen honest n container).bind fun k listed _ seen => ?_
      obtain ⟨rfl, seen⟩ := seen
      exact Timed.Ends.pure ⟨rfl, seen⟩
    · obtain ⟨atoms, before⟩ := row
      obtain ⟨rfl, e, there, same⟩ := seen
      refine (loop (n + 1) none atoms (fun rows => rows.map Prod.fst = atoms ∧
        ∀ b ∈ rows, stored b.1.atom = some b.2) ?_ before).mono fun m work' later made => ?_
      · refine (timedBlobs_read honest (n + 1) container atoms 0 _).mono fun _ row _ read => ?_
        obtain ⟨rows, listed, payloads, ran⟩ := read
        exact ⟨rows, ⟨listed, payloads⟩, ran⟩
      · obtain ⟨rows, blobs, ⟨rfl, payloads⟩, containers, grows, held⟩ := made
        rw [List.map_map] at same
        exact ⟨_, containers, rfl, grows, n, e, there, copied_of_stored held same payloads,
          .inl ⟨Nat.le_refl n, later⟩⟩

theorem timedContainers_taken (honest : Honest limits servers cloud stored) {start n : Nat}
    {cache : Option Cache}
    (remembers : ∀ container c, previousOf cache container = some c →
      Remembers cloud stored start c) (listed : List Container) :
    Timed.Ends n (listed.foldlM (timedContainer limits servers cache) {}) fun m work =>
      work.containers.map SavedContainer.metadata = listed ∧
        ∀ row ∈ work.containers, Taken cloud stored start n m work.stage.files row := by
  have loop : Timed.Ends n (listed.foldlM (timedContainer limits servers cache) {})
      fun m (work : Work) => n ≤ m ∧ work.containers.map SavedContainer.metadata = [] ++ listed ∧
        ∀ row ∈ work.containers, Taken cloud stored start n m work.stage.files row := by
    refine Timed.Ends.foldlM (I := fun m done (work : Work) => n ≤ m ∧
      work.containers.map SavedContainer.metadata = done ∧
      ∀ row ∈ work.containers, Taken cloud stored start n m work.stage.files row)
      ?_ ⟨Nat.le_refl n, rfl, fun _ there => (List.not_mem_nil there).elim⟩
    intro m work done container _ _ holds
    obtain ⟨begun, metadata, taken⟩ := holds
    refine (timedContainer_taken honest (remembers container) work).mono
      fun k work' later made => ?_
    obtain ⟨row, containers, same, grows, new⟩ := made
    refine ⟨Nat.le_trans begun later, ?_, ?_⟩
    · rw [containers, List.map_append, metadata, List.map_singleton, same]
    · intro other inside
      rw [containers] at inside
      rcases List.mem_append.mp inside with inside | inside
      · exact (taken other inside).mono grows later
      · rw [List.mem_singleton.mp inside]
        obtain ⟨t, e, there, copied, when⟩ := new
        refine ⟨t, e, there, copied, when.imp_left fun window => ?_⟩
        exact ⟨Nat.le_trans begun window.1, window.2⟩
  exact loop.mono fun _ _ _ all => all.2

/-! ## The cut -/

/-- Whatever puts a container gives it an etag that its name never had. -/
def FreshEtags (cloud : Nat → TextMap Revision) : Prop :=
  FreshVersions (fun e : Revision => e.metadata.etag) fun n (name : String) => (cloud n)[name]?

/-- A snapshot holds what the cloud holds: the same containers with the same rows of the index, the
same atoms, and their payloads. -/
structure Cut (cloud : TextMap Revision) (stored : String → Option Bytes) (folder : Folder) :
    Prop where
  once : (folder.manifest.containers.map SavedContainer.name).Nodup
  names : ∀ name : String, name ∈ cloud ↔ name ∈ folder.manifest.containers.map SavedContainer.name
  rows : ∀ row ∈ folder.manifest.containers, ∃ e, cloud[row.name]? = some e ∧
    e.metadata = row.metadata ∧ Copied stored folder.blobs row e

omit [Sha256] [JsonText] in
/-- A row that the index shows before and after an instant is there at that instant, and so is what
was taken for it. -/
theorem taken_at (fresh : FreshEtags cloud) {start n m k l : Nat} {files : TextMap Bytes}
    {listed : List Container} {row : SavedContainer}
    (first : IndexSeen cloud start n listed) (last : IndexSeen cloud k l listed)
    (taken : Taken cloud stored start n m files row) (order : n ≤ k ∧ m ≤ k)
    (inside : row.metadata ∈ listed) :
    ∃ e, (cloud (n - 1))[row.name]? = some e ∧ e.metadata = row.metadata ∧
      Copied stored files row e := by
  have later := first.later
  obtain ⟨t, early, before, e, there, metadata⟩ := first.rows row.metadata inside
  obtain ⟨u, after, -, e', there', metadata'⟩ := last.rows row.metadata inside
  have same : e'.metadata.etag = e.metadata.etag := by rw [metadata, metadata']
  -- The same etag at both ends of a span: the row has stood all the time between.
  have stands {s : Nat} (low : t ≤ s) (high : s ≤ u) : (cloud s)[row.name]? = some e :=
    fresh.unchanged there there' same low high
  have here := stands (s := n - 1) (by omega) (by omega)
  obtain ⟨s, e'', found, copied, ⟨low, high⟩ | ⟨old, known⟩⟩ := taken
  · rw [stands (s := s) (by omega) (by omega)] at found
    cases found
    exact ⟨e, here, metadata, copied⟩
  · -- what the cache remembers has stood since then, for the index still lists its etag
    have kept : (cloud (n - 1))[row.name]? = some e'' :=
      fresh.unchanged found there' (by rw [metadata', known]) (by omega) (by omega)
    rw [here] at kept
    cases kept
    exact ⟨e, here, metadata, copied⟩

/-- A download that succeeds publishes what the cloud held at one instant between its first request
and its last. -/
theorem timedDownload_cut (honest : Honest limits servers cloud stored) (fresh : FreshEtags cloud)
    (scope : Scope) (cache : Option Cache) (uuid start : Nat)
    (remembers : ∀ c, cache = some c → c.binding = scope.binding →
      ∀ (key : String) row, c.containers[key]? = some row → Remembers cloud stored start row) :
    Timed.Ends start (timedDownload limits servers scope cache uuid) fun m published =>
      ∃ t, start ≤ t ∧ t < m ∧ Cut (cloud t) stored published.folder := by
  unfold timedDownload
  refine (timedInventory_seen honest start).bind fun n listed _ first => ?_
  have previous : ∀ container row,
      previousOf (cache.filter fun c => c.binding == scope.binding) container = some row →
      Remembers cloud stored start row := by
    intro container row found
    unfold previousOf at found
    simp only [Option.filter_eq_some_iff, Option.bind_eq_some_iff] at found
    obtain ⟨⟨c, ⟨bound, binding⟩, entry⟩, -⟩ := found
    exact remembers c bound (beq_iff_eq.mp binding) _ row entry
  refine Timed.Ends.bind (timedContainers_taken honest previous listed)
    fun m work between made => ?_
  obtain ⟨metadata, taken⟩ := made
  refine Timed.Ends.bind (Q := fun _ _ => True) (fun _ _ => trivial) fun k _ rechecked _ => ?_
  refine (timedInventory_seen honest k).bind fun l again _ last => ?_
  refine Timed.Ends.bind (Q := fun j _ => j = l ∧ again = listed) (Timed.Ends.lift fun _ ok =>
    ⟨rfl, beq_iff_eq.mp (Cloud.require_eq_ok.mp ok)⟩) fun j _ _ same => ?_
  obtain ⟨rfl, rfl⟩ := same
  have names : work.containers.map SavedContainer.name = again.map Container.name := by
    rw [← metadata, List.map_map]
    rfl
  have rows : ∀ row ∈ work.containers, ∃ e, (cloud (n - 1))[row.name]? = some e ∧
      e.metadata = row.metadata ∧ Copied stored work.stage.files row e := by
    intro row inside
    have there : row.metadata ∈ again := by
      rw [← metadata]
      exact List.mem_map_of_mem inside
    exact taken_at fresh first last (taken row inside) ⟨by omega, rechecked⟩ there
  -- The instant is the last one of the first index, when everything listed is there.
  have started := first.later
  have ended := last.later
  refine Timed.Ends.pure ⟨n - 1, by omega, by omega, ?_, ?_, rows⟩
  · show (work.containers.map SavedContainer.name).Nodup
    rw [names]
    exact first.names
  · intro name
    show name ∈ cloud (n - 1) ↔ name ∈ work.containers.map SavedContainer.name
    have there : ∀ name ∈ work.containers.map SavedContainer.name, name ∈ (cloud (n - 1)).keys := by
      intro name inside
      obtain ⟨row, there, rfl⟩ := List.mem_map.mp inside
      obtain ⟨e, here, -⟩ := rows row there
      rw [Std.ExtTreeMap.mem_keys, Std.ExtTreeMap.mem_iff_isSome_getElem?, here]
      rfl
    -- nothing else is there: at that instant there were as many containers as rows
    constructor
    · intro inside
      refine mem_of_length ?_ there ?_ (Std.ExtTreeMap.mem_keys.mpr inside)
      · rw [names]
        exact first.names
      · rw [Std.ExtTreeMap.length_keys, first.count (n - 1) (by omega) (by omega), names,
          List.length_map]
    · exact fun inside => Std.ExtTreeMap.mem_keys.mp (there name inside)

/-! ## What is remembered -/

omit [JsonText] in
/-- What a validated container is cached as satisfies whatever its entries imply. -/
theorem validateRow_cached {files : TextMap Bytes} {P : CachedContainer → Prop}
    {rows rows' : Import.Rows} {row : SavedContainer}
    (made : ∀ entries, List.Forall₂ (CachedAs files) row.blobs entries →
      P ⟨row.metadata, Import.byName (fun b => b.1.name) entries⟩)
    (all : ∀ (key : String) c, rows.cached[key]? = some c → P c)
    (ok : Import.validateRow files rows row = .ok rows') :
    ∀ (key : String) c, rows'.cached[key]? = some c → P c := by
  unfold Import.validateRow at ok
  cases stripped : Import.stripSuffix row.name ",savedgame" with
  | none =>
    rw [stripped] at ok
    cases ok
  | some key =>
    rw [stripped] at ok
    obtain ⟨_, -, ok⟩ := bind_eq_ok.mp ok
    obtain ⟨_, -, ok⟩ := bind_eq_ok.mp ok
    cases modified : Import.modifiedOf row.clientFileTime with
    | none =>
      rw [modified] at ok
      cases ok
    | some modified =>
      rw [‹Import.modifiedOf row.clientFileTime = _›] at ok
      simp only [bind_eq_ok, pure_eq_ok] at ok
      obtain ⟨r, validated, _, -, rfl⟩ := ok
      intro name c found
      rw [getElem?_insert_eq] at found
      by_cases same : row.name = name
      · rw [if_pos same] at found
        cases found
        obtain ⟨entries, cached, paired⟩ := validateBlobs_cached validated
        rw [cached]
        exact made entries paired
      · rw [if_neg same] at found
        exact all name c found

omit [Sha256] [JsonText] in
theorem cached_payloads {files : TextMap Bytes} {blobs : List SavedBlob}
    {entries : List (Atom × Bytes)} (cached : List.Forall₂ (CachedAs files) blobs entries)
    (held : ∀ blob ∈ blobs, ∃ data, stored blob.atom = some data ∧ blob.size = data.length ∧
      ∃ n, blob.file = "blobs/" ++ blobFile n ∧ files[blobFile n]? = some data) :
    entries.map (fun b => (b.1.name, b.1.atom)) = blobs.map (fun blob => (blob.name, blob.atom)) ∧
      ∀ b ∈ entries, stored b.1.atom = some b.2 := by
  induction cached with
  | nil => exact ⟨rfl, fun _ inside => (List.not_mem_nil inside).elim⟩
  | @cons blob b _ _ first _ ih =>
    obtain ⟨⟨data, known, size, file⟩, rest⟩ := List.forall_mem_cons.mp held
    obtain ⟨names, payloads⟩ := ih rest
    have kept : Stored files blob (⟨blob.atom, blob.name, none⟩, data) := ⟨rfl, rfl, size, file⟩
    have same : b = knownAtom (⟨blob.atom, blob.name, none⟩, data) := kept.known first
    constructor
    · rw [List.map_cons, List.map_cons, names, same]
      rfl
    · refine List.forall_mem_cons.mpr ⟨?_, payloads⟩
      rw [same]
      exact known

omit [Sha256] [JsonText] in
/-- The entries of a cut are remembered. -/
theorem Copied.remembers {files : TextMap Bytes} {row : SavedContainer} {e : Revision}
    {t start : Nat} {entries : List (Atom × Bytes)} (copied : Copied stored files row e)
    (there : (cloud t)[row.name]? = some e) (metadata : e.metadata = row.metadata)
    (early : t ≤ start) (cached : List.Forall₂ (CachedAs files) row.blobs entries) :
    Remembers cloud stored start ⟨row.metadata, Import.byName (fun b => b.1.name) entries⟩ := by
  obtain ⟨names, payloads⟩ := cached_payloads cached copied.blobs
  refine ⟨t, early, e, there, metadata, ?_, ?_⟩
  · refine ((byName_perm _ entries).map _).trans ?_
    rw [names]
    exact copied.atoms
  · exact fun b inside => payloads b ((byName_perm _ entries).mem_iff.mp inside)

omit [JsonText] in
theorem Cut.remembers {published : Published} {v : Import.Validated} {t start : Nat}
    (cut : Cut (cloud t) stored published.folder) (early : t ≤ start)
    (read : published.read = .ok v) :
    ∀ (key : String) row, v.cache.containers[key]? = some row →
      Remembers cloud stored start row := by
  unfold Published.read Import.snapshot at read
  rw [mapError_eq_ok] at read
  unfold Import.validate at read
  rw [getElem?_insert_eq, if_pos rfl] at read
  simp only [bind_eq_ok, pure_eq_ok] at read
  obtain ⟨_, -, _, -, _, -, _, -, rows, validated, _, -, _, -, rfl⟩ := read
  -- the manifest is validated row by row, and each adds the entry of its own container
  have loop {saved : List SavedContainer} {before after : Import.Rows}
      (inside : ∀ row ∈ saved, row ∈ published.folder.manifest.containers)
      (all : ∀ (key : String) c, before.cached[key]? = some c → Remembers cloud stored start c)
      (ran : saved.foldlM (Import.validateRow published.folder.blobs) before = .ok after) :
      ∀ (key : String) c, after.cached[key]? = some c → Remembers cloud stored start c := by
    induction saved generalizing before with
    | nil =>
      cases ran
      exact all
    | cons row saved ih =>
      rw [List.foldlM_cons, bind_eq_ok] at ran
      obtain ⟨next, first, ran⟩ := ran
      obtain ⟨here, rest⟩ := List.forall_mem_cons.mp inside
      obtain ⟨e, there, metadata, copied⟩ := cut.rows row here
      exact ih rest (validateRow_cached
        (fun entries cached => copied.remembers there metadata early cached) all first) ran
  exact loop (fun _ inside => inside) (fun key c found => by simp at found) validated

/-- The caches there may be at an instant: of a snapshot that an earlier download published and that
was validated, without some of its containers. -/
inductive CacheAt (limits : Limits) (servers : Nat → Server) (scope : Scope) : Nat → Cache → Prop
  | read {start now uuid : Nat} {cache : Option Cache} {published : Published}
      {v : Import.Validated}
      (cached : ∀ c, cache = some c → CacheAt limits servers scope start c)
      (downloaded : (timedDownload limits servers scope cache uuid start).result = .ok published)
      (done : start + (timedDownload limits servers scope cache uuid start).requests.length ≤ now)
      (validated : published.read = .ok v) : CacheAt limits servers scope now v.cache
  | erase {now : Nat} {cache : Cache} (name : String)
      (cached : CacheAt limits servers scope now cache) :
      CacheAt limits servers scope now { cache with containers := cache.containers.erase name }

theorem CacheAt.remembers (honest : Honest limits servers cloud stored) (fresh : FreshEtags cloud)
    {scope : Scope} {now : Nat} {cache : Cache} (cached : CacheAt limits servers scope now cache) :
    ∀ (key : String) row, cache.containers[key]? = some row → Remembers cloud stored now row := by
  induction cached with
  | @read start now uuid cache published v _ downloaded done validated ih =>
    obtain ⟨t, -, before, cut⟩ := timedDownload_cut honest fresh scope cache uuid start
      (fun c bound _ => ih c bound) published downloaded
    exact cut.remembers (by omega) validated
  | erase name _ ih =>
    intro key row found
    rw [getElem?_erase_eq] at found
    split at found
    · cases found
    · exact ih key row found

/-- Whatever other devices do between the requests: a download that succeeds, with or without a
cache of earlier downloads, publishes what the cloud held at one instant between its first request
and its last. -/
theorem download_consistent (limits : Limits) (servers : Nat → Server)
    (cloud : Nat → TextMap Revision) (stored : String → Option Bytes) (scope : Scope)
    (honest : Honest limits servers cloud stored) (fresh : FreshEtags cloud)
    (start uuid : Nat) (cache : Option Cache)
    (cached : ∀ c, cache = some c → CacheAt limits servers scope start c) (published : Published)
    (downloaded : (timedDownload limits servers scope cache uuid start).result = .ok published) :
    ∃ t, start ≤ t ∧
      t < start + (timedDownload limits servers scope cache uuid start).requests.length ∧
      Cut (cloud t) stored published.folder :=
  timedDownload_cut honest fresh scope cache uuid start
    (fun c bound _ => (cached c bound).remembers honest fresh) published downloaded

end

/-! ## A run -/

section

attribute [local instance] profileJson standardSha256

def profileRow : Container := ⟨"profile,savedgame", "Profile", "one", 133000000000000000, 3⟩

def profileRevision : Revision := ⟨profileRow, [("data", "11111111-2222-3333-4444-555555555555")]⟩

def otherRevision : Revision := ⟨⟨"other,savedgame", "Other", "two", 0, 0⟩, []⟩

/-- Another container is put after the first request and taken away before the last. -/
def profileCloud (n : Nat) : TextMap Revision :=
  let cloud := (∅ : TextMap Revision).insert "profile,savedgame" profileRevision
  if n = 1 ∨ n = 2 ∨ n = 3 then cloud.insert "other,savedgame" otherRevision else cloud

/-- The index cannot be read while the other container is there. -/
def profileAnswer (n : Nat) : ReadOperation → Option Bytes
  | .index _ _ => if n = 1 ∨ n = 2 ∨ n = 3 then none else some (utf8 profileIndex)
  | .container name => if name = "profile,savedgame" then some (utf8 profileAtoms) else none
  | .atom _ => some (utf8 "new")

def profileServers (n : Nat) : Server where
  scope := profileServer.scope
  read op _ :=
    match profileAnswer n op with
    | some body => .ok ⟨200, ∅, body⟩
    | none => .error (.new .transport)

theorem profile_page : ((Page.read {} (utf8 profileIndex)).toOption.map fun page =>
    (page.total, page.rows)) = some (1, [profileRow]) := by decide +kernel

theorem profile_document : (atomsDocument {} (utf8 profileAtoms)).toOption =
    some (true, [⟨"11111111-2222-3333-4444-555555555555", "data", none⟩]) := by decide +kernel

theorem getElem?_profileCloud (n : Nat) (name : String) : (profileCloud n)[name]? =
    if "other,savedgame" = name ∧ (n = 1 ∨ n = 2 ∨ n = 3) then some otherRevision
    else if "profile,savedgame" = name then some profileRevision else none := by
  unfold profileCloud
  by_cases there : n = 1 ∨ n = 2 ∨ n = 3
  · simp only [there, if_true, and_true, getElem?_insert_eq]
    rfl
  · simp only [there, if_false, and_false, getElem?_insert_eq]
    rfl

theorem profile_fresh : FreshEtags profileCloud := by
  intro n name e here new m early e' before
  dsimp only at here new before
  rw [getElem?_profileCloud] at here new before
  split at here
  · rename_i there
    obtain ⟨rfl, there⟩ := there
    obtain rfl := Option.some.inj here
    -- the other container is new at the first instant only
    have first : n = 0 := by
      by_contra later
      exact new (if_pos ⟨rfl, by omega⟩)
    rw [if_neg (by omega), if_neg (by decide)] at before
    cases before
  · split at here
    · rename_i apart same
      obtain rfl := Option.some.inj here
      subst same
      exact absurd (by rw [if_neg fun both => absurd both.1 (by decide), if_pos rfl]) new
    · cases here

theorem checkResponse_body {answer : Response} {maximum : Nat} {data : Bytes}
    (ok : checkResponse answer maximum = .ok data) : data = answer.body := by
  unfold checkResponse at ok
  dsimp only at ok
  by_cases denied : answer.status = 401 ∨ answer.status = 403
  · rw [if_pos denied] at ok
    cases ok
  by_cases missing : answer.status = 404
  · rw [if_neg denied, if_pos missing] at ok
    cases ok
  by_cases failed : answer.status ≠ 200
  · rw [if_neg denied, if_neg missing, if_pos failed] at ok
    cases ok
  rw [if_neg denied, if_neg missing, if_neg failed] at ok
  obtain ⟨h, -, ok⟩ := bind_eq_ok.mp ok
  obtain ⟨_, -, ok⟩ := bind_eq_ok.mp ok
  split at ok
  · obtain ⟨n, -, ok⟩ := bind_eq_ok.mp ok
    obtain ⟨_, -, ok⟩ := bind_eq_ok.mp ok
    obtain ⟨_, -, ok⟩ := bind_eq_ok.mp ok
    obtain ⟨_, -, ok⟩ := bind_eq_ok.mp ok
    exact (pure_eq_ok.mp ok).symm
  · obtain ⟨_, -, ok⟩ := bind_eq_ok.mp ok
    exact (pure_eq_ok.mp ok).symm

theorem profile_got {op : ReadOperation} {maximum n : Nat} {data : Bytes}
    (got : ((profileServers n).get op maximum).result = .ok data) :
    profileAnswer n op = some data := by
  obtain ⟨answer, answered, checked⟩ := bind_eq_ok.mp got
  have body := checkResponse_body checked
  have sent : (profileServers n).read op maximum = (profileAnswer n op).elim
      (.error (.new .transport)) fun body => .ok ⟨200, ∅, body⟩ := by
    unfold profileServers
    dsimp only
    cases profileAnswer n op <;> rfl
  rw [sent] at answered
  cases known : profileAnswer n op with
  | none =>
    rw [known] at answered
    cases answered
  | some bytes =>
    rw [known] at answered
    cases answered
    rw [body]

theorem profile_honest : Honest {} profileServers profileCloud fun _ => some (utf8 "new") where
  index n skip token data page got read := by
    have answered : (if n = 1 ∨ n = 2 ∨ n = 3 then none else some (utf8 profileIndex)) =
        some data := profile_got got
    split at answered
    · cases answered
    · rename_i apart
      cases answered
      have known := profile_page
      rw [read] at known
      obtain ⟨total, rows⟩ := Prod.mk.inj (Option.some.inj known)
      have size : (profileCloud n).size = 1 := by
        unfold profileCloud
        rw [if_neg apart]
        rfl
      refine ⟨total.trans size.symm, fun row inside => ?_⟩
      rw [rows] at inside
      cases List.mem_singleton.mp inside
      refine ⟨profileRevision, ?_, rfl⟩
      rw [getElem?_profileCloud, if_neg fun both => apart both.2]
      exact if_pos rfl
  container n name data dictionary listed got read := by
    have answered : (if name = "profile,savedgame" then some (utf8 profileAtoms) else none) =
        some data := profile_got got
    split at answered
    · rename_i same
      cases answered
      have known := profile_document
      rw [read] at known
      obtain ⟨rfl, rfl⟩ := Prod.mk.inj (Option.some.inj known)
      refine ⟨profileRevision, ?_, List.Perm.refl _⟩
      rw [getElem?_profileCloud, same, if_neg fun both => absurd both.1 (by decide), if_pos rfl]
    · cases answered
  atom n id maximum data got := profile_got got

/-- The download that sees none of the other container. -/
theorem download_consistent_profile : ∃ published t, t < 5 ∧
    (timedDownload {} profileServers profileServer.scope none 1 0).result = .ok published ∧
      Cut (profileCloud t) (fun _ => some (utf8 "new")) published.folder := by
  have ok : (timedDownload {} profileServers profileServer.scope none 1 0).result.isOk = true := by
    decide +kernel
  have sent : (timedDownload {} profileServers profileServer.scope none 1 0).requests.length =
      5 := by decide +kernel
  obtain ⟨published, downloaded⟩ := exists_eq_ok ok
  obtain ⟨t, -, before, cut⟩ := download_consistent {} profileServers profileCloud
    (fun _ => some (utf8 "new")) profileServer.scope profile_honest profile_fresh 0 1 none
    (fun _ none => by cases none) published downloaded
  rw [sent] at before
  exact ⟨published, t, by omega, downloaded, cut⟩

end

end Flightdeck.Cloud.Storage
