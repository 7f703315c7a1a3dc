import Flightdeck.Cloud.WriteResult
import Flightdeck.SaveState.Digest

/-!
# When an upload completes

Against a server that answers every operation as it should, an upload fails for two reasons only:
it runs out of operations, or the cloud holds too much while half of its containers are replaced.
Neither is checked before the first container is replaced.
-/

namespace Flightdeck.Cloud.Write

open Foundation SaveState

/-! ## What an upload needs -/

def changedNames [Sha256] («local» first : State) : List String :=
  (uploadNames «local» first).filter (changed «local» first)

/-- The operations for one container: two renewals, the atoms and the replacement, or one renewal
and the deletion, and the two renewals around the readback. -/
def entryCost : Option Container → Nat
  | some target => target.blobs.size + 5
  | none => 4

def entryAtoms : Option Container → Nat
  | some target => target.blobs.size
  | none => 0

def namesCost («local» : State) (names : List String) : Nat :=
  (names.map fun name => entryCost «local».containers[name]?).sum

def namesAtoms («local» : State) (names : List String) : Nat :=
  (names.map fun name => entryAtoms «local».containers[name]?).sum

theorem namesCost_concat («local» : State) (names : List String) (name : String) :
    namesCost «local» (names ++ [name]) =
      namesCost «local» names + entryCost «local».containers[name]? := by
  simp [namesCost]

theorem namesAtoms_concat («local» : State) (names : List String) (name : String) :
    namesAtoms «local» (names ++ [name]) =
      namesAtoms «local» names + entryAtoms «local».containers[name]? := by
  simp [namesAtoms]

theorem namesCost_le_of_prefix («local» : State) {names names' : List String}
    (h : names <+: names') : namesCost «local» names ≤ namesCost «local» names' := by
  obtain ⟨rest, rfl⟩ := h
  simp [namesCost]

theorem namesAtoms_le_of_prefix («local» : State) {names names' : List String}
    (h : names <+: names') : namesAtoms «local» names ≤ namesAtoms «local» names' := by
  obtain ⟨rest, rfl⟩ := h
  simp [namesAtoms]

/-- The operations of a whole upload: four of them open and close it. -/
def uploadCost [Sha256] («local» remote : State) : Nat :=
  namesCost «local» (changedNames «local» remote) + 4

/-- The cloud content after one container is replaced or deleted. -/
def replace («local» : State) (cloud : State) (name : String) : State where
  generation := cloud.generation
  containers := match «local».containers[name]? with
    | some target => cloud.containers.insert name target
    | none => cloud.containers.erase name

def replaced («local» remote : State) (names : List String) : State :=
  names.foldl (replace «local») remote

/-- The upload has enough operations, every content that the cloud goes through is one that the
readback accepts, and the last one has the local content digest. -/
structure Fits [Sha256] (limits : Limits) («local» remote : State) : Prop where
  operations : uploadCost «local» remote ≤ limits.operations
  contents : ∀ done, done <+: changedNames «local» remote → Encodable (replaced «local» remote done)
  final : Import.digest (replaced «local» remote (changedNames «local» remote)) =
    Import.digest «local»

/-! ## A server without failures -/

variable {σ : Type}

/-- Every operation succeeds and does what it should, nobody cancels or touches the local file, and
the deadline is far away.  `Serves n s` says so of the state `s`, with room for `n` more atoms. -/
structure Honest (ops : Operations σ) (env : Ambient σ) (deadline : Nat) (quota : UInt64) where
  content : σ → State
  atoms : σ → TextMap Bytes
  Serves : Nat → σ → Prop
  owner : String
  cancelled : ∀ n s, Serves n s → (env.cancelled s).1 = false ∧ Serves n (env.cancelled s).2 ∧
    content (env.cancelled s).2 = content s ∧ atoms (env.cancelled s).2 = atoms s
  now : ∀ n s, Serves n s → (env.now s).1 < deadline ∧ Serves n (env.now s).2 ∧
    content (env.now s).2 = content s ∧ atoms (env.now s).2 = atoms s
  assertLocal : ∀ n s, Serves n s → ∃ s', env.assertLocal s = .ok () s' ∧ Serves n s' ∧
    content s' = content s ∧ atoms s' = atoms s
  acquire : ∀ n s timeout, Serves n s → ∃ reply s', ops.acquire timeout s = .ok reply s' ∧
    reply.Granted ∧ reply.ownerChangeId = owner ∧ reply.quotaBytes = quota ∧ Serves n s' ∧
    content s' = content s ∧ atoms s' = atoms s
  renew : ∀ n s timeout, Serves n s → ∃ reply s', ops.renew timeout s = .ok reply s' ∧
    reply.Renews (some owner) ∧ Serves n s' ∧ content s' = content s ∧ atoms s' = atoms s
  remote : ∀ n s timeout force, Serves n s → ∃ s', ops.remote timeout force s = .ok (content s) s' ∧
    Serves n s' ∧ content s' = content s ∧ atoms s' = atoms s
  uploadAtom : ∀ n s payload timeout, Serves (n + 1) s →
    ∃ id s', ops.uploadAtom payload timeout s = .ok id s' ∧ guid id = true ∧
      id.toLower ∉ atoms s ∧ Serves n s' ∧ content s' = content s ∧
      atoms s' = (atoms s).insert id.toLower payload
  putContainer : ∀ n s name display modified ids timeout, Serves n s →
    (∀ (blob id : String), ids[blob]? = some id → id.toLower ∈ atoms s) →
    ∃ status s' entry, ops.putContainer (wireName name) display modified ids timeout s =
        .ok status s' ∧ 200 ≤ status ∧ status < 300 ∧ Serves n s' ∧ atoms s' = atoms s ∧
      content s' = { content s with containers := (content s).containers.insert name entry } ∧
      entry.displayName = display ∧ entry.modified = modified ∧
      ∀ blob : String, entry.blobs[blob]? = ids[blob]?.bind fun id => (atoms s)[id.toLower]?
  deleteContainer : ∀ n s name timeout, Serves n s →
    ∃ status s', ops.deleteContainer (wireName name) timeout s = .ok status s' ∧
      200 ≤ status ∧ status < 300 ∧ Serves n s' ∧ atoms s' = atoms s ∧
      content s' = { content s with containers := (content s).containers.erase name }

section

variable {c : Context σ} {quota : UInt64}

/-- What the server shows: its content, its atoms, and room for `n` more. -/
structure Honest.Shows (server : Honest c.ops c.env c.deadline quota) (n : Nat) (cloud : State)
    (atoms : TextMap Bytes) (s : σ) : Prop where
  serves : server.Serves n s
  content : server.content s = cloud
  atoms : server.atoms s = atoms

/-- A run in the middle of an upload to such a server, with the operations it has used. -/
structure Honest.At (server : Honest c.ops c.env c.deadline quota) (n : Nat) (cloud : State)
    (atoms : TextMap Bytes) (used : Nat) (run : Run σ) : Prop where
  world : server.Shows n cloud atoms run.world
  owner : run.owner = some server.owner
  operations : run.operations = used

variable {server : Honest c.ops c.env c.deadline quota} {n n' used : Nat} {cloud cloud' : State}
  {atoms atoms' : TextMap Bytes}

theorem Honest.Shows.step {s s' : σ} (h : server.Shows n cloud atoms s)
    (hs : server.Serves n s' ∧ server.content s' = server.content s ∧
      server.atoms s' = server.atoms s) : server.Shows n cloud atoms s' :=
  ⟨hs.1, hs.2.1.trans h.content, hs.2.2.trans h.atoms⟩

theorem call_at {α : Type} {m : EStateM Failure σ α} {Q : α → Prop}
    (hm : ∀ s, server.Shows n cloud atoms s →
      ∃ a s', m s = .ok a s' ∧ server.Shows n' cloud' atoms' s' ∧ Q a) :
    Triple (server.At n cloud atoms used) (call m)
      (fun a run => server.At n' cloud' atoms' used run ∧ Q a) (fun _ _ => False) := by
  apply Triple.total
  intro run hrun
  obtain ⟨a, s', heq, hs', hQ⟩ := hm run.world hrun.world
  refine ⟨a, { run with world := s' }, ?_, ⟨hs', hrun.owner, hrun.operations⟩, hQ⟩
  unfold call zoom
  rw [heq]

theorem remaining_shows {s : σ} (hs : server.Shows n cloud atoms s) :
    ∃ left s', remaining c.env c.deadline s = .ok left s' ∧ server.Shows n cloud atoms s' ∧
      True := by
  obtain ⟨hflag, hs₁⟩ := server.cancelled n s hs.serves
  have h₁ := hs.step hs₁
  obtain ⟨hnow, hs₂⟩ := server.now n _ h₁.serves
  exact ⟨_, _, remaining_eq hflag hnow, h₁.step hs₂, trivial⟩

/-- A check changes nothing but the other side. -/
theorem check_run {run : Run σ} (hrun : server.Shows n cloud atoms run.world) :
    ∃ left s', check c run = .ok left { run with world := s' } ∧
      server.Shows n cloud atoms s' := by
  obtain ⟨left, s₁, hleft, hs₁, -⟩ := remaining_shows hrun
  obtain ⟨s₂, hlocal, hs₂⟩ := server.assertLocal n s₁ hs₁.serves
  refine ⟨left, s₂, ?_, hs₁.step hs₂⟩
  have hfirst : call (remaining c.env c.deadline) run = .ok left { run with world := s₁ } := by
    unfold call zoom
    rw [hleft]
  have hsecond : (attempt (call c.env.assertLocal) : EStateM Failure (Run σ) _)
      { run with world := s₁ } = .ok (.ok ()) { run with world := s₂ } := by
    unfold attempt call zoom
    simp only [hlocal]
  unfold check
  rw [run_bind hfirst, run_bind hsecond]
  rfl

/-- One more operation, unless the limit is reached. -/
theorem budget_run {run : Run σ} (hrun : server.Shows n cloud atoms run.world) :
    ∃ left s', server.Shows n cloud atoms s' ∧
      budget c run = if run.operations + 1 ≤ c.limits.operations
        then .ok left { run with world := s', operations := run.operations + 1 }
        else .error (.new .bounds) { run with world := s', operations := run.operations + 1 } := by
  obtain ⟨left, s', hcheck, hs'⟩ := check_run hrun
  refine ⟨min left c.limits.timeout, s', hs', ?_⟩
  unfold budget
  rw [run_bind hcheck, modify_bind, get_bind]
  by_cases hlimit : run.operations + 1 ≤ c.limits.operations
  · simp only [hlimit, decide_true, Cloud.require_true, lift_ok_bind, if_true]
    rfl
  · simp only [hlimit, decide_false, if_false]
    rfl

theorem check_at :
    Triple (server.At n cloud atoms used) (check c) (fun _ => server.At n cloud atoms used)
      (fun _ _ => False) := by
  apply Triple.total
  intro run hrun
  obtain ⟨left, s', hcheck, hs'⟩ := check_run hrun.world
  exact ⟨left, _, hcheck, hs', hrun.owner, hrun.operations⟩

theorem budget_at :
    Triple (server.At n cloud atoms used) (budget c)
      (fun _ run => server.At n cloud atoms (used + 1) run ∧ used + 1 ≤ c.limits.operations)
      (fun _ _ => c.limits.operations < used + 1) := by
  intro run hrun
  obtain ⟨left, s', hs', hbudget⟩ := budget_run hrun.world
  rw [hbudget, hrun.operations]
  by_cases hlimit : used + 1 ≤ c.limits.operations
  · rw [if_pos hlimit]
    exact ⟨⟨hs', hrun.owner, rfl⟩, hlimit⟩
  · rw [if_neg hlimit]
    exact Nat.lt_of_not_le hlimit

theorem lease_at {reply : LeaseReply} (hreply : reply.Renews (some server.owner)) :
    Triple (server.At n cloud atoms used) (lease c reply false)
      (fun _ => server.At n cloud atoms used) (fun _ _ => False) := by
  intro run hrun
  have hstatus := hreply.status
  have howner : run.owner = some reply.ownerChangeId := hrun.owner.trans hreply.owner
  have h401 : ¬ (reply.status = 401 ∨ reply.status = 403) := by rw [hstatus]; decide
  have h409 : ¬ reply.status = 409 := by rw [hstatus]; decide
  have h201 : ¬ reply.status = 201 := by rw [hstatus]; decide
  unfold lease
  simp only [if_neg h401, if_neg h409, hreply.granted.1, not_true_eq_false, if_false,
    hreply.granted.2, Cloud.require_true, lift_ok_bind, Bool.false_eq_true, if_neg h201]
  rw [get_bind]
  simp only [howner, ne_eq, not_true_eq_false, if_false]
  have hnext : server.At n cloud atoms used { run with acquired := true } :=
    ⟨hrun.world, hrun.owner, hrun.operations⟩
  have hlast : Triple (server.At n cloud atoms used)
      (do let _ ← check c; return reply.quotaBytes)
      (fun _ => server.At n cloud atoms used) (fun _ _ => False) :=
    check_at.bind fun _ => fun _ h => h
  exact hlast _ hnext

theorem setAcquired_at (acquired : Bool) :
    Triple (server.At n cloud atoms used) (setAcquired acquired)
      (fun _ => server.At n cloud atoms used) (fun _ _ => False) :=
  fun _ h => ⟨h.world, h.owner, h.operations⟩

theorem renew_at :
    Triple (server.At n cloud atoms used) (renew c)
      (fun _ run => server.At n cloud atoms (used + 1) run ∧ used + 1 ≤ c.limits.operations)
      (fun _ _ => c.limits.operations < used + 1) := by
  refine budget_at.bind fun timeout => ?_
  rintro run ⟨hrun, hlimit⟩
  have hcall : Triple (server.At n cloud atoms (used + 1)) (call (c.ops.renew timeout))
      (fun reply run => server.At n cloud atoms (used + 1) run ∧
        reply.Renews (some server.owner)) (fun _ _ => False) := by
    apply call_at
    intro s hs
    obtain ⟨reply, s', heq, hreply, hs'⟩ := server.renew n s timeout hs.serves
    exact ⟨reply, s', heq, hs.step hs', hreply⟩
  have hrest : Triple (server.At n cloud atoms (used + 1)) (do
        setAcquired false
        let reply ← call (c.ops.renew timeout)
        let _ ← lease c reply false)
      (fun _ => server.At n cloud atoms (used + 1)) (fun _ _ => False) := by
    refine (setAcquired_at false).bind fun _ => hcall.bind fun reply => ?_
    rintro run ⟨hrun, hreply⟩
    have hlast : Triple (server.At n cloud atoms (used + 1))
        (do let _ ← lease c reply false) (fun _ => server.At n cloud atoms (used + 1))
        (fun _ _ => False) := (lease_at hreply).bind fun _ => fun _ h => h
    exact hlast run hrun
  exact (hrest run hrun).mono (fun _ _ h => ⟨h, hlimit⟩) fun _ _ h => h.elim

/-- The atoms behind the ids are the blobs. -/
structure Resolves (ids : TextMap String) (atoms blobs : TextMap Bytes) : Prop where
  known : ∀ (blob id : String), ids[blob]? = some id → id.toLower ∈ atoms
  payload : ∀ blob : String, (ids[blob]?.bind fun id => atoms[id.toLower]?) = blobs[blob]?

theorem mutate_shows («local» : State) {name : String} {ids : TextMap String}
    (hids : ∀ target, «local».containers[name]? = some target → Resolves ids atoms target.blobs)
    (timeout : Nat) {s : σ} (hs : server.Shows n cloud atoms s) :
    ∃ status s', mutate c name «local».containers[name]? ids timeout s = .ok status s' ∧
      server.Shows n (replace «local» cloud name) atoms s' ∧ 200 ≤ status ∧ status < 300 := by
  unfold mutate replace
  cases htarget : «local».containers[name]? with
  | none =>
    obtain ⟨status, s', heq, hlow, hhigh, hserves, hatoms, hcontent⟩ :=
      server.deleteContainer n s name timeout hs.serves
    rw [hs.content] at hcontent
    exact ⟨status, s', heq, ⟨hserves, hcontent, hatoms.trans hs.atoms⟩, hlow, hhigh⟩
  | some target =>
    have hresolves := hids target htarget
    obtain ⟨status, s', entry, heq, hlow, hhigh, hserves, hatoms, hcontent, hdisplay, hmodified,
        hblobs⟩ := server.putContainer n s name target.displayName target.modified ids timeout
      hs.serves (by rw [hs.atoms]; exact hresolves.known)
    have hentry : entry = target := by
      obtain ⟨display, modified, blobs⟩ := entry
      obtain rfl : display = target.displayName := hdisplay
      obtain rfl : modified = target.modified := hmodified
      congr 1
      apply Std.ExtTreeMap.ext_getElem?
      intro blob
      rw [hblobs, hs.atoms]
      exact hresolves.payload blob
    rw [hs.content, hentry] at hcontent
    exact ⟨status, s', heq, ⟨hserves, hcontent, hatoms.trans hs.atoms⟩, hlow, hhigh⟩

theorem replace_getElem? («local» cloud : State) (name other : String) :
    (replace «local» cloud name).containers[other]? =
      if other = name then «local».containers[other]? else cloud.containers[other]? := by
  unfold replace
  cases htarget : «local».containers[name]? with
  | none =>
    simp only [getElem?_erase_eq]
    by_cases heq : other = name
    · rw [if_pos heq.symm, if_pos heq, heq, htarget]
    · rw [if_neg (Ne.symm heq), if_neg heq]
  | some target =>
    simp only [getElem?_insert_eq]
    by_cases heq : other = name
    · rw [if_pos heq.symm, if_pos heq, heq, htarget]
    · rw [if_neg (Ne.symm heq), if_neg heq]

/-- The rows done so far are stored, under ids that the server knows. -/
structure Stored (done : List (String × Bytes)) (b : TextMap String × TextSet)
    (atoms : TextMap Bytes) : Prop where
  ids : ∀ id, id ∈ b.2 → id ∈ atoms
  found : ∀ row ∈ done, ∃ id, b.1[row.1]? = some id ∧ atoms[id.toLower]? = some row.2
  only : ∀ blob : String, blob ∉ done.map Prod.fst → b.1[blob]? = none

theorem Stored.add {done : List (String × Bytes)} {b : TextMap String × TextSet}
    (h : Stored done b atoms) {row : String × Bytes} (hrow : row.1 ∉ done.map Prod.fst)
    {id : String} (hid : id.toLower ∉ atoms) :
    Stored (done ++ [row]) (b.1.insert row.1 id, b.2.insert id.toLower ())
      (atoms.insert id.toLower row.2) where
  ids other hother := by
    rw [Std.ExtTreeMap.mem_insert] at hother ⊢
    exact hother.imp_right (h.ids other)
  found other hother := by
    simp only [getElem?_insert_eq]
    rcases List.mem_append.mp hother with hold | hnew
    · obtain ⟨id', hlookup, hpayload⟩ := h.found other hold
      have hne : row.1 ≠ other.1 := fun heq => hrow (heq ▸ List.mem_map_of_mem hold)
      have hne' : id.toLower ≠ id'.toLower := by
        intro heq
        apply hid
        rw [heq, Std.ExtTreeMap.mem_iff_isSome_getElem?, hpayload]
        rfl
      exact ⟨id', by rw [if_neg hne]; exact hlookup, by rw [if_neg hne']; exact hpayload⟩
    · rw [List.mem_singleton.mp hnew]
      exact ⟨id, if_pos rfl, if_pos rfl⟩
  only blob hblob := by
    rw [List.map_append, List.mem_append, not_or] at hblob
    have hne : row.1 ≠ blob := fun heq => hblob.2 (by rw [← heq]; exact List.mem_singleton_self _)
    rw [getElem?_insert_eq, if_neg hne]
    exact h.only blob hblob.1

theorem Stored.resolves {blobs : TextMap Bytes} {b : TextMap String × TextSet}
    (h : Stored blobs.toList b atoms) : Resolves b.1 atoms blobs where
  known blob id hid := by
    have hmem : blob ∈ blobs.toList.map Prod.fst := by
      by_contra hblob
      rw [h.only blob hblob] at hid
      cases hid
    obtain ⟨row, hrow, rfl⟩ := List.mem_map.mp hmem
    obtain ⟨id', hlookup, hpayload⟩ := h.found row hrow
    rw [hid] at hlookup
    cases hlookup
    rw [Std.ExtTreeMap.mem_iff_isSome_getElem?, hpayload]
    rfl
  payload blob := by
    cases hblob : blobs[blob]? with
    | none =>
      have hnot : blob ∉ blobs.toList.map Prod.fst := by
        intro hmem
        obtain ⟨row, hrow, rfl⟩ := List.mem_map.mp hmem
        rw [Std.ExtTreeMap.mem_toList_iff_getElem?_eq_some.mp hrow] at hblob
        cases hblob
      rw [h.only blob hnot]
      rfl
    | some payload =>
      obtain ⟨id, hlookup, hpayload⟩ :=
        h.found (blob, payload) (Std.ExtTreeMap.mem_toList_iff_getElem?_eq_some.mpr hblob)
      rw [hlookup]
      exact hpayload

theorem uploadBlob_at {done : List (String × Bytes)} {b : TextMap String × TextSet}
    (hstored : Stored done b atoms) {row : String × Bytes} (hrow : row.1 ∉ done.map Prod.fst) :
    Triple (server.At (n + 1) cloud atoms used) (uploadBlob c b row)
      (fun b' run => ∃ atoms', server.At n cloud atoms' (used + 1) run ∧
        used + 1 ≤ c.limits.operations ∧ Stored (done ++ [row]) b' atoms')
      (fun _ _ => c.limits.operations < used + 1) := by
  refine budget_at.bind fun timeout => ?_
  rintro run ⟨hrun, hlimit⟩
  obtain ⟨id, s', heq, hguid, hfresh, hserves, hcontent, hatoms⟩ :=
    server.uploadAtom n run.world row.2 timeout hrun.world.serves
  have hcall : call (c.ops.uploadAtom row.2 timeout) run = .ok id { run with world := s' } := by
    unfold call zoom
    rw [heq]
  rw [hrun.world.atoms] at hfresh hatoms
  have hunused : b.2.contains id.toLower = false := by
    rw [← Bool.not_eq_true, ← Std.ExtTreeMap.mem_iff_contains]
    exact fun hmem => hfresh (hstored.ids _ hmem)
  rw [run_bind hcall]
  simp only [hguid, hunused, Bool.not_false, Bool.and_self, Cloud.require_true, lift_ok_bind]
  have hnext : server.At n cloud (atoms.insert id.toLower row.2) (used + 1)
      { run with world := s' } :=
    ⟨⟨hserves, hcontent.trans hrun.world.content, hatoms⟩, hrun.owner, hrun.operations⟩
  have hlast : Triple (server.At n cloud (atoms.insert id.toLower row.2) (used + 1))
      (do
        let _ ← check c
        return (b.1.insert row.1 id, b.2.insert id.toLower ()))
      (fun b' run => server.At n cloud (atoms.insert id.toLower row.2) (used + 1) run ∧
        b' = (b.1.insert row.1 id, b.2.insert id.toLower ())) (fun _ _ => False) :=
    check_at.bind fun _ => fun _ h => ⟨h, rfl⟩
  refine (hlast _ hnext).mono ?_ fun _ _ h => h.elim
  rintro _ run' ⟨hrun', rfl⟩
  exact ⟨_, hrun', hlimit, hstored.add hrow hfresh⟩

/-- In the middle of the loop over the blobs of a container. -/
structure Honest.InBlobs (server : Honest c.ops c.env c.deadline quota) (blobs : TextMap Bytes)
    (n : Nat) (cloud : State) (used : Nat) (done : List (String × Bytes))
    (b : TextMap String × TextSet) (left : Nat) (atoms : TextMap Bytes) (run : Run σ) : Prop where
  rest : left + done.length = blobs.size
  run : server.At (left + n) cloud atoms (used + done.length) run
  limit : used + done.length ≤ c.limits.operations
  stored : Stored done b atoms

theorem uploadBlobs_at (blobs : TextMap Bytes) (hused : used ≤ c.limits.operations) :
    Triple (server.At (blobs.size + n) cloud atoms used)
      (blobs.toList.foldlM (uploadBlob c) (∅, ∅))
      (fun b run => ∃ atoms', server.At n cloud atoms' (used + blobs.size) run ∧
        used + blobs.size ≤ c.limits.operations ∧ Resolves b.1 atoms' blobs)
      (fun _ _ => c.limits.operations < used + blobs.size) := by
  have hsize : blobs.toList.length = blobs.size := Std.ExtTreeMap.length_toList
  have hstep (done : List (String × Bytes)) (row : String × Bytes) (rest : List (String × Bytes))
      (b : TextMap String × TextSet) (hrows : blobs.toList = done ++ row :: rest) :
      Triple (fun run => ∃ left atoms', server.InBlobs blobs n cloud used done b left atoms' run)
        (uploadBlob c b row)
        (fun b' run => ∃ left atoms',
          server.InBlobs blobs n cloud used (done ++ [row]) b' left atoms' run)
        (fun _ _ => c.limits.operations < used + blobs.size) := by
    have hnodup := nodup_keys_toList blobs
    rw [hrows, List.map_append, List.map_cons] at hnodup
    have hrow : row.1 ∉ done.map Prod.fst := by
      intro hmem
      exact (List.nodup_append.mp hnodup).2.2 _ hmem _ List.mem_cons_self rfl
    have hlength : done.length + 1 ≤ blobs.size := by
      rw [← hsize, hrows, List.length_append, List.length_cons]
      omega
    have hdone : (done ++ [row]).length = done.length + 1 := by simp
    rintro run ⟨left, atoms', hleft, hrun, hlimit, hstored⟩
    obtain ⟨left, rfl⟩ : ∃ m, left = m + 1 := ⟨left - 1, by omega⟩
    rw [Nat.add_right_comm] at hrun
    refine (uploadBlob_at hstored hrow run hrun).mono ?_ fun _ _ h => by omega
    rintro b' run' ⟨atoms'', hrun', hlimit', hstored'⟩
    exact ⟨left, atoms'', by omega, hdone ▸ hrun', by omega, hstored'⟩
  refine (Triple.foldlM hstep (∅, ∅)).mono ?_ ?_ fun _ _ h => h
  · intro run hrun
    refine ⟨blobs.size, atoms, rfl, hrun, hused, fun id hid => ?_, nofun, fun _ _ => ?_⟩
    · simp at hid
    · simp
  · rintro b run ⟨left, atoms', hleft, hrun, hlimit, hstored⟩
    obtain rfl : left = 0 := by omega
    rw [Nat.zero_add, hsize] at hrun
    exact ⟨atoms', hrun, hsize ▸ hlimit, hstored.resolves⟩

theorem release_ok (c : Context σ) (acquired : Bool) (s : σ) :
    ∃ released s', release c acquired s = .ok released s' := by
  unfold release
  cases acquired with
  | false => exact ⟨_, _, rfl⟩
  | true =>
    have hattempt : ∃ reply s', (attempt (c.ops.release c.limits.cleanup) :
        EStateM Failure σ _) s = .ok reply s' := by
      unfold attempt
      cases c.ops.release c.limits.cleanup s <;> exact ⟨_, _, rfl⟩
    obtain ⟨reply, s', heq⟩ := hattempt
    simp only [if_true]
    rw [run_bind heq]
    cases reply <;> exact ⟨_, _, rfl⟩

variable [Sha256]

/-- A read of the whole cloud, which the upload itself checks. -/
theorem remote_at (force : TextSet) :
    Triple (server.At n cloud atoms used) (remote c force)
      (fun state run => server.At n cloud atoms used run ∧ state = cloud ∧ Encodable cloud)
      (fun _ _ => ¬ Encodable cloud) := by
  refine (check_at.mono (fun _ h => h) (fun _ _ h => h) fun _ _ h => h.elim).bind fun timeout => ?_
  have hcall : Triple (server.At n cloud atoms used) (call (c.ops.remote timeout force))
      (fun state run => server.At n cloud atoms used run ∧ state = cloud) (fun _ _ => False) := by
    apply call_at
    intro s hs
    obtain ⟨s', heq, hs'⟩ := server.remote n s timeout force hs.serves
    exact ⟨_, s', heq, hs.step hs', hs.content⟩
  refine (hcall.mono (fun _ h => h) (fun _ _ h => h) fun _ _ h => h.elim).bind fun state => ?_
  refine Triple.bind (Q := fun _ run => (server.At n cloud atoms used run ∧ state = cloud) ∧
    Encodable cloud) (Triple.lift ?_ ?_) fun _ => ?_
  · rintro data run ⟨hrun, rfl⟩ hx
    exact ⟨⟨hrun, rfl⟩, encodable_iff.mp ⟨data, mapError_eq_ok.mp hx⟩⟩
  · rintro e run ⟨hrun, rfl⟩ hx hencodable
    obtain ⟨data, hdata⟩ := encodable_iff.mpr hencodable
    obtain ⟨_, herror, -⟩ := mapError_eq_error.mp hx
    rw [hdata] at herror
    cases herror
  · rintro run ⟨⟨hrun, hstate⟩, hencodable⟩
    have hlast : Triple (server.At n cloud atoms used) (do let _ ← check c; return state)
        (fun state' run => server.At n cloud atoms used run ∧ state' = state)
        (fun _ _ => False) := check_at.bind fun _ => fun _ h => ⟨h, rfl⟩
    exact (hlast run hrun).mono (fun _ _ h => ⟨h.1, h.2.trans hstate, hencodable⟩)
      fun _ _ h => h.elim

/-! ## One container -/

theorem entryDigest_of_encodable {s : State} (hs : Encodable s) (name : String) :
    ∃ digest, entryDigest name s.containers[name]? = .ok digest := by
  cases hentry : s.containers[name]? with
  | none => exact ⟨none, rfl⟩
  | some entry =>
    obtain ⟨digest, hdigest⟩ := contentDigest_of_encodable (hs.single hentry)
    refine ⟨some digest, ?_⟩
    have himport : Import.digest (single name entry) = .ok digest := mapError_eq_ok.mpr hdigest
    rw [entryDigest, himport]
    rfl

theorem confirm_at {name : String} {entry : Option Container}
    (hcloud : cloud.containers[name]? = entry)
    (hdigest : ∃ digest, entryDigest name entry = .ok digest) :
    Triple (server.At n cloud atoms used) (confirm c name entry)
      (fun _ run => server.At n cloud atoms (used + 2) run ∧
        used + 2 ≤ c.limits.operations ∧ Encodable cloud)
      (fun _ _ => c.limits.operations < used + 2 ∨ ¬ Encodable cloud) := by
  obtain ⟨digest, hdigest⟩ := hdigest
  refine (renew_at.mono (fun _ h => h) (fun _ _ h => h.1) fun _ _ h => Or.inl (by omega)).bind
    fun _ => ?_
  refine ((remote_at (textSet name)).mono (fun _ h => h) (fun _ _ h => h)
    fun _ _ h => Or.inr h).bind fun state => ?_
  rintro run ⟨hrun, rfl, hencodable⟩
  rw [hcloud, hdigest]
  simp only [lift_ok_bind, beq_self_eq_true, Cloud.require_true]
  have hlast : Triple (server.At n state atoms (used + 1)) (do
        renew c
        modify fun run => { run with committed := run.committed + 1 })
      (fun _ run => server.At n state atoms (used + 2) run ∧ used + 2 ≤ c.limits.operations)
      (fun _ _ => c.limits.operations < used + 2) :=
    renew_at.bind fun _ => fun _ h => ⟨⟨h.1.world, h.1.owner, h.1.operations⟩, h.2⟩
  exact (hlast run hrun).mono (fun _ _ h => ⟨h.1, h.2, hencodable⟩) fun _ _ h => Or.inl h

theorem commit_at {«local» : State} (hlocal : Encodable «local») {name : String}
    {ids : TextMap String}
    (hids : ∀ target, «local».containers[name]? = some target → Resolves ids atoms target.blobs) :
    Triple (server.At n cloud atoms used) (commit c name «local».containers[name]? ids)
      (fun _ run => server.At n (replace «local» cloud name) atoms (used + 4) run ∧
        used + 4 ≤ c.limits.operations ∧ Encodable (replace «local» cloud name))
      (fun _ _ => c.limits.operations < used + 4 ∨ ¬ Encodable (replace «local» cloud name)) := by
  refine (renew_at.mono (fun _ h => h) (fun _ _ h => h.1) fun _ _ h => Or.inl (by omega)).bind
    fun _ => ?_
  refine (check_at.mono (fun _ h => h) (fun _ _ h => h) fun _ _ h => h.elim).bind fun _ => ?_
  refine Triple.bind (Q := fun _ => server.At n cloud atoms (used + 1))
    (Triple.update fun run h => ⟨h.world, h.owner, h.operations⟩) fun _ => ?_
  refine (budget_at.mono (fun _ h => h) (fun _ _ h => h.1) fun _ _ h => Or.inl (by omega)).bind
    fun timeout => ?_
  have hmutate : Triple (server.At n cloud atoms (used + 2))
      (attempt (call (mutate c name «local».containers[name]? ids timeout)))
      (fun reply run => server.At n (replace «local» cloud name) atoms (used + 2) run ∧
        ∃ status, reply = .ok status ∧ 200 ≤ status ∧ status < 300)
      (fun (_ : Failure) _ => False) := by
    apply Triple.attempt
    refine (call_at fun s hs => mutate_shows «local» hids timeout hs).mono (fun _ h => h)
      (fun status _ h => ⟨h.1, status, rfl, h.2⟩) fun _ _ h => h.elim
  refine (hmutate.mono (fun _ h => h) (fun _ _ h => h) fun _ _ h => h.elim).bind fun reply => ?_
  rintro run ⟨hrun, status, rfl, hlow, hhigh⟩
  have h409 : ¬ status = 409 := by
    rintro rfl
    exact absurd hhigh (by decide +kernel)
  have h401 : ¬ (status = 401 ∨ status = 403) := by
    rintro (rfl | rfl)
    · exact absurd hhigh (by decide +kernel)
    · exact absurd hhigh (by decide +kernel)
  simp only [if_neg h409, if_neg h401]
  have hcloud : (replace «local» cloud name).containers[name]? = «local».containers[name]? := by
    rw [replace_getElem?, if_pos rfl]
  exact (confirm_at hcloud (entryDigest_of_encodable hlocal name)) run hrun

/-! ## All containers -/

theorem sameEntry_of_encodable {«local» first : State} (hlocal : Encodable «local»)
    (hfirst : Encodable first) (name : String) :
    sameEntry name «local».containers[name]? first.containers[name]? =
      .ok (!changed «local» first name) := by
  obtain ⟨digest, hdigest⟩ := entryDigest_of_encodable hlocal name
  obtain ⟨digest', hdigest'⟩ := entryDigest_of_encodable hfirst name
  have hok : ∃ same, sameEntry name «local».containers[name]? first.containers[name]? =
      .ok same := by
    cases htarget : «local».containers[name]? with
    | none => exact ⟨false, rfl⟩
    | some target =>
      cases hold : first.containers[name]? with
      | none => exact ⟨false, rfl⟩
      | some old =>
        rw [htarget] at hdigest
        rw [hold] at hdigest'
        exact ⟨digest == digest', bind_eq_ok.mpr ⟨_, hdigest, bind_eq_ok.mpr ⟨_, hdigest', rfl⟩⟩⟩
  obtain ⟨same, hsame⟩ := hok
  unfold changed
  rw [hsame]
  cases same <;> rfl

theorem uploadName_skip {«local» first : State} (hlocal : Encodable «local»)
    (hfirst : Encodable first) {name : String} (hchanged : changed «local» first name = false)
    (run : Run σ) : uploadName c «local» first name run = .ok () run := by
  unfold uploadName
  simp only [sameEntry_of_encodable hlocal hfirst, hchanged, Bool.not_false, lift_ok_bind, if_true]
  rfl

theorem uploadName_at {«local» first : State} (hlocal : Encodable «local»)
    (hfirst : Encodable first) {name : String} (hchanged : changed «local» first name = true) :
    Triple (server.At (entryAtoms «local».containers[name]? + n) cloud atoms used)
      (uploadName c «local» first name)
      (fun _ run => ∃ atoms', server.At n (replace «local» cloud name) atoms'
          (used + entryCost «local».containers[name]?) run ∧
        used + entryCost «local».containers[name]? ≤ c.limits.operations ∧
        Encodable (replace «local» cloud name))
      (fun _ _ => c.limits.operations < used + entryCost «local».containers[name]? ∨
        ¬ Encodable (replace «local» cloud name)) := by
  unfold uploadName
  simp only [sameEntry_of_encodable hlocal hfirst, hchanged, Bool.not_true, lift_ok_bind,
    Bool.false_eq_true, if_false]
  have hcommit {atoms : TextMap Bytes} {used : Nat} {ids : TextMap String}
      (hids : ∀ target, «local».containers[name]? = some target →
        Resolves ids atoms target.blobs) :
      Triple (server.At n cloud atoms used) (commit c name «local».containers[name]? ids)
        (fun _ run => server.At n (replace «local» cloud name) atoms (used + 4) run ∧
          used + 4 ≤ c.limits.operations ∧ Encodable (replace «local» cloud name))
        (fun _ _ => c.limits.operations < used + 4 ∨ ¬ Encodable (replace «local» cloud name)) :=
    commit_at hlocal hids
  cases htarget : «local».containers[name]? with
  | none =>
    rw [htarget] at hcommit
    have hdelete : Triple (server.At n cloud atoms used) (commit c name none ∅) _ _ :=
      hcommit fun _ h => by cases h
    refine hdelete.mono ?_ (fun _ run h => ⟨atoms, h⟩) fun _ _ h => h
    intro run hrun
    rw [entryAtoms, Nat.zero_add] at hrun
    exact hrun
  | some target =>
    rw [htarget] at hcommit
    refine (renew_at.mono (fun _ h => h) (fun _ _ h => h) fun _ _ h => ?_).bind fun _ => ?_
    · rw [entryCost]
      omega
    rintro run ⟨hrun, hlimit⟩
    have hblobs : Triple (server.At (target.blobs.size + n) cloud atoms (used + 1)) _ _ _ :=
      uploadBlobs_at target.blobs hlimit
    have hrest : Triple (server.At (target.blobs.size + n) cloud atoms (used + 1)) (do
          let ids ← target.blobs.toList.foldlM (uploadBlob c) (∅, ∅)
          commit c name (some target) ids.1)
        (fun _ run => ∃ atoms', server.At n (replace «local» cloud name) atoms'
            (used + entryCost (some target)) run ∧
          used + entryCost (some target) ≤ c.limits.operations ∧
          Encodable (replace «local» cloud name))
        (fun _ _ => c.limits.operations < used + entryCost (some target) ∨
          ¬ Encodable (replace «local» cloud name)) := by
      have hcost (size : Nat) (hsize : target.blobs.size = size) :
          used + entryCost (some target) = used + 1 + size + 4 := by
        rw [entryCost, hsize]
        omega
      rw [hcost _ rfl]
      refine (hblobs.mono (fun _ h => h) (fun _ _ h => h) fun _ _ h => Or.inl (by omega)).bind
        fun b => ?_
      rintro run ⟨atoms', hrun, -, hresolves⟩
      refine (hcommit (fun _ h => ?_) run hrun).mono (fun _ _ h => ⟨atoms', h⟩) fun _ _ h => h
      cases h
      exact hresolves
    exact hrest run hrun

/-- In the middle of the loop over the names: the containers `done` are replaced. -/
structure Honest.InNames (server : Honest c.ops c.env c.deadline quota) («local» first : State)
    (done : List String) (left : Nat) (atoms : TextMap Bytes) (run : Run σ) : Prop where
  rest : left + namesAtoms «local» done = namesAtoms «local» (changedNames «local» first)
  run : server.At left (replaced «local» first done) atoms (2 + namesCost «local» done) run
  limit : 2 + namesCost «local» done ≤ c.limits.operations
  contents : ∀ names, names <+: done → Encodable (replaced «local» first names)

theorem uploadName_inNames {«local» first : State} (hlocal : Encodable «local»)
    {done : List String} {name : String} {rest : List String}
    (hnames : changedNames «local» first = done ++ name :: rest)
    (hchanged : changed «local» first name = true) :
    Triple (fun run => ∃ left atoms, server.InNames «local» first done left atoms run)
      (uploadName c «local» first name)
      (fun _ run => ∃ left atoms, server.InNames «local» first (done ++ [name]) left atoms run)
      (fun _ _ => ¬ Fits c.limits «local» first) := by
  have hinitial : done ++ [name] <+: changedNames «local» first :=
    ⟨rest, by rw [hnames, List.append_assoc]; rfl⟩
  have hreplaced : replaced «local» first (done ++ [name]) =
      replace «local» (replaced «local» first done) name := by
    rw [replaced, List.foldl_append]
    rfl
  have hcost := namesCost_le_of_prefix «local» hinitial
  have hatoms := namesAtoms_le_of_prefix «local» hinitial
  rw [namesCost_concat] at hcost
  rw [namesAtoms_concat] at hatoms
  rintro run ⟨left, atoms, hrest, hrun, hlimit, hcontents⟩
  obtain ⟨left, rfl⟩ : ∃ m, left = entryAtoms «local».containers[name]? + m :=
    ⟨left - entryAtoms «local».containers[name]?, by omega⟩
  have hfirst : Encodable first := hcontents [] (List.nil_prefix)
  refine (uploadName_at hlocal hfirst hchanged run hrun).mono ?_ ?_
  · rintro _ run' ⟨atoms', hrun', hlimit', hencodable⟩
    refine ⟨left, atoms', by rw [namesAtoms_concat]; omega, ?_, ?_, fun names hnames' => ?_⟩
    · rw [hreplaced, namesCost_concat, ← Nat.add_assoc]
      exact hrun'
    · rw [namesCost_concat]
      omega
    · rcases List.prefix_concat_iff.mp hnames' with rfl | hold
      · rw [hreplaced]
        exact hencodable
      · exact hcontents names hold
  · intro _ _ hfailed hfits
    rcases hfailed with hbounds | hencodable
    · have hoperations := hfits.operations
      unfold uploadCost at hoperations
      omega
    · rw [← hreplaced] at hencodable
      exact hencodable (hfits.contents _ hinitial)

theorem uploadNames_at {«local» first : State} (hlocal : Encodable «local»)
    (hfirst : Encodable first) (hlimit : 2 ≤ c.limits.operations) :
    Triple (server.At (namesAtoms «local» (changedNames «local» first)) first atoms 2)
      ((uploadNames «local» first).forM (uploadName c «local» first))
      (fun _ run => ∃ left atoms,
        server.InNames «local» first (changedNames «local» first) left atoms run)
      (fun _ _ => ¬ Fits c.limits «local» first) := by
  have hstep (done : List String) (name : String) (rest : List String)
      (hnames : uploadNames «local» first = done ++ name :: rest) :
      Triple (fun run => ∃ left atoms,
          server.InNames «local» first (done.filter (changed «local» first)) left atoms run)
        (uploadName c «local» first name)
        (fun _ run => ∃ left atoms, server.InNames «local» first
          ((done ++ [name]).filter (changed «local» first)) left atoms run)
        (fun _ _ => ¬ Fits c.limits «local» first) := by
    rw [List.filter_append, List.filter_singleton]
    cases hchanged : changed «local» first name with
    | false =>
      intro run hrun
      rw [uploadName_skip hlocal hfirst hchanged run]
      simp only [cond_false, List.append_nil]
      exact hrun
    | true =>
      have hsplit : changedNames «local» first = done.filter (changed «local» first) ++
          name :: rest.filter (changed «local» first) := by
        rw [changedNames, hnames, List.filter_append, List.filter_cons_of_pos hchanged]
      exact uploadName_inNames hlocal hsplit hchanged
  refine (Triple.forM hstep).mono (fun run hrun => ?_) (fun _ _ h => h) fun _ _ h => h
  refine ⟨_, atoms, rfl, hrun, hlimit, fun names hnames => ?_⟩
  rw [List.prefix_nil.mp hnames]
  exact hfirst

/-! ## The whole upload -/

omit [Sha256] in
theorem first_lease_at {reply : LeaseReply} (hgranted : reply.Granted)
    (howner : reply.ownerChangeId = server.owner) :
    Triple (fun run => server.Shows n cloud atoms run.world ∧ run.operations = used)
      (lease c reply true)
      (fun granted run => server.At n cloud atoms used run ∧ granted = reply.quotaBytes)
      (fun _ _ => False) := by
  rintro run ⟨hrun, hused⟩
  have h401 : ¬ (reply.status = 401 ∨ reply.status = 403) := by
    rcases hgranted.1 with h | h <;> rw [h] <;> decide
  have h409 : ¬ reply.status = 409 := by
    rcases hgranted.1 with h | h <;> rw [h] <;> decide
  unfold lease
  simp only [if_neg h401, if_neg h409, hgranted.1, not_true_eq_false, if_false, hgranted.2,
    Cloud.require_true, lift_ok_bind, if_true]
  have hnext : server.At n cloud atoms used
      { run with owner := some reply.ownerChangeId, acquired := true } :=
    ⟨hrun, congrArg some howner, hused⟩
  have hlast : Triple (server.At n cloud atoms used)
      (do let _ ← check c; return reply.quotaBytes)
      (fun granted run => server.At n cloud atoms used run ∧ granted = reply.quotaBytes)
      (fun _ _ => False) :=
    check_at.bind fun _ => fun _ h => ⟨h, rfl⟩
  exact hlast _ hnext

/-- The end of the closure: the final readback of the whole cloud. -/
theorem last_at {«local» first : State} {source : String}
    (hsource : Import.digest «local» = .ok source) :
    Triple (fun run => ∃ left atoms,
        server.InNames «local» first (changedNames «local» first) left atoms run)
      (do
        renew c
        let forced := (← get).mutated
        let last ← remote c forced
        Cloud.require ((← Import.digest last) == source) .readback
        renew c)
      (fun _ _ => Fits c.limits «local» first) (fun _ _ => ¬ Fits c.limits «local» first) := by
  rintro run ⟨left, atoms, -, hrun, hlimit, hcontents⟩
  have hbounds (k : Nat) (hk : k ≤ 4)
      (hfailed : c.limits.operations < k + namesCost «local» (changedNames «local» first)) :
      ¬ Fits c.limits «local» first := by
    intro hfits
    have hoperations := hfits.operations
    unfold uploadCost at hoperations
    omega
  refine ((renew_at.mono (fun _ h => h) (fun _ _ h => h.1)
    fun _ _ h => hbounds 3 (by omega) (by omega)).bind fun _ => ?_) run hrun
  intro run' hrun'
  rw [get_bind]
  refine (((remote_at run'.mutated).mono (fun _ h => h) (fun _ _ h => h) fun _ _ h hfits =>
    h (hcontents _ List.prefix_rfl)).bind fun last => ?_) run' hrun'
  rintro run'' ⟨hrun'', rfl, hlast⟩
  obtain ⟨digest, hdigest⟩ := contentDigest_of_encodable hlast
  have himport : Import.digest (replaced «local» first (changedNames «local» first)) =
      .ok digest := mapError_eq_ok.mpr hdigest
  by_cases heq : digest = source
  · simp only [himport, lift_ok_bind, heq, beq_self_eq_true, Cloud.require_true]
    refine (renew_at run'' hrun'').mono ?_ fun _ _ h => hbounds 4 (by omega) (by omega)
    rintro _ _ ⟨-, hoperations⟩
    exact ⟨by unfold uploadCost; omega, hcontents, by rw [himport, hsource, heq]⟩
  · simp only [himport, lift_ok_bind, beq_eq_false_iff_ne.mpr heq]
    intro hfits
    have hfinal := hfits.final
    rw [himport, hsource] at hfinal
    exact heq (Except.ok.inj hfinal)

theorem body_at {«local» first : State} {expected source : String} {total : Nat}
    (hlocal : Encodable «local») (hsource : Import.digest «local» = .ok source)
    (hexpected : Import.digest first = .ok expected) (hquota : total ≤ quota.toNat) :
    Triple (fun run => server.Shows (namesAtoms «local» (changedNames «local» first)) first atoms
        run.world ∧ run.operations = 0)
      (body c «local» expected source total)
      (fun _ _ => Fits c.limits «local» first) (fun _ _ => ¬ Fits c.limits «local» first) := by
  have hbounds (k : Nat) (hk : k ≤ 2) (hfailed : c.limits.operations < k) :
      ¬ Fits c.limits «local» first := by
    intro hfits
    have hoperations := hfits.operations
    unfold uploadCost at hoperations
    omega
  have hbudget : Triple (fun run => server.Shows (namesAtoms «local» (changedNames «local» first))
        first atoms run.world ∧ run.operations = 0) (budget c)
      (fun _ run => server.Shows (namesAtoms «local» (changedNames «local» first)) first atoms
        run.world ∧ run.operations = 1)
      (fun _ _ => ¬ Fits c.limits «local» first) := by
    rintro run ⟨hrun, hused⟩
    obtain ⟨left, s', hs', heq⟩ := budget_run hrun
    rw [heq, hused]
    by_cases hlimit : 0 + 1 ≤ c.limits.operations
    · rw [if_pos hlimit]
      exact ⟨hs', rfl⟩
    · rw [if_neg hlimit]
      exact hbounds 1 (by omega) (by omega)
  refine hbudget.bind fun timeout => ?_
  rintro run ⟨hrun, hused⟩
  obtain ⟨reply, s', heq, hgranted, howner, hreply, hs'⟩ :=
    server.acquire _ run.world timeout hrun.serves
  have hcall : call (c.ops.acquire timeout) run = .ok reply { run with world := s' } := by
    unfold call zoom
    rw [heq]
  rw [run_bind hcall]
  refine (((first_lease_at hgranted howner).mono (fun _ h => h) (fun _ _ h => h)
    fun _ _ h => h.elim).bind fun granted => ?_) { run with world := s' } ⟨hrun.step hs', hused⟩
  rintro run ⟨hrun, rfl⟩
  rw [hreply]
  simp only [hquota, decide_true, Cloud.require_true, lift_ok_bind]
  refine (((remote_at ∅).mono (fun _ h => h) (fun _ _ h => h) fun _ _ h hfits =>
    h (hfits.contents [] List.nil_prefix)).bind fun state => ?_) run hrun
  rintro run ⟨hrun, rfl, hfirst⟩
  simp only [hexpected, lift_ok_bind, beq_self_eq_true, Cloud.require_true]
  refine ((renew_at.mono (fun _ h => h) (fun _ _ h => h)
    fun _ _ h => hbounds 2 (by omega) (by omega)).bind fun _ => ?_) run hrun
  rintro run ⟨hrun, hlimit⟩
  exact ((uploadNames_at hlocal hfirst hlimit).bind fun _ => last_at hsource) run hrun

theorem finish_ok (c : Context σ) (scope : Scope) («local» : State) (expected source : String)
    (run : Run σ) (s : σ) :
    ∃ receipt s', finish c scope «local» expected source (.ok ()) run s = .ok receipt s' := by
  obtain ⟨released, s', heq⟩ := release_ok c run.acquired s
  unfold finish
  simp only
  rw [run_bind heq]
  exact ⟨_, _, rfl⟩

theorem finish_error (c : Context σ) (scope : Scope) («local» : State) (expected source : String)
    (e : Failure) (run : Run σ) (s : σ) :
    ∃ error s', finish c scope «local» expected source (.error e) run s = .error error s' := by
  obtain ⟨released, s', heq⟩ := release_ok c (run.acquired && !lostStatus e) s
  unfold finish
  simp only
  rw [run_bind heq]
  exact ⟨_, _, rfl⟩

end

/-- What the program checks before its first request, and the server the upload talks to. -/
structure Admitted [Sha256] {ops : Operations σ} {env : Ambient σ} {limits : Limits}
    {quota : UInt64} {world : σ}
    (server : Honest ops env ((env.now world).1 + limits.deadline) quota) (scope : Scope)
    («local» remote : State) (expected : String) : Prop where
  scope : ops.scope = scope
  encode : ∃ data, encode «local» = .ok data
  total : (Import.counts «local»).2.2 ≤ limits.totalBytes
  blobs : ∀ container ∈ values «local».containers, ∀ blob ∈ values container.blobs,
    blob.length ≤ limits.blobBytes
  quota : (Import.counts «local»).2.2 ≤ quota.toNat
  content : server.content world = remote
  digest : Import.digest remote = .ok expected
  serves : server.Serves (namesAtoms «local» (changedNames «local» remote)) world

theorem upload_fits [Sha256] {scope : Scope} {ops : Operations σ} {env : Ambient σ}
    {limits : Limits} {«local» remote : State} {expected : String} {quota : UInt64} {world : σ}
    {server : Honest ops env ((env.now world).1 + limits.deadline) quota}
    (h : Admitted server scope «local» remote expected) :
    Ends (upload scope ops «local» expected env limits world)
      (fun _ _ => Fits limits «local» remote) (fun _ _ => ¬ Fits limits «local» remote) := by
  have hlocal : Encodable «local» := encodable_iff.mp h.encode
  obtain ⟨data, hdata⟩ := h.encode
  obtain ⟨source, hsource⟩ := contentDigest_of_encodable hlocal
  have himport : Import.digest «local» = .ok source := mapError_eq_ok.mpr hsource
  have hhex : hexDigest expected = true := by
    obtain ⟨_, -, h⟩ := bind_eq_ok.mp (mapError_eq_ok.mp h.digest)
    cases h
    exact hexDigest_sha256 _
  have hblobs : (((values «local».containers).flatMap fun c => values c.blobs).all
      fun b => Decidable.decide (b.length ≤ limits.blobBytes)) = true := by
    rw [List.all_eq_true]
    intro blob hblob
    obtain ⟨container, hcontainer, hmem⟩ := List.mem_flatMap.mp hblob
    exact decide_eq_true (h.blobs container hcontainer blob hmem)
  have hinitial : upload scope ops «local» expected env limits world =
      (do
        let now ← env.instant
        let c : Context σ := { ops, env, limits, deadline := now + limits.deadline }
        let ended ← runBody c «local» expected source (Import.counts «local»).2.2
        finish c scope «local» expected source ended.1 ended.2) world := by
    unfold upload
    simp only [h.scope, beq_self_eq_true, hhex, hdata, Except.mapError, himport, h.total, hblobs,
      decide_true, Bool.and_self, Cloud.require_true, lift_ok_bind]
  let c : Context σ := { ops, env, limits, deadline := (env.now world).1 + limits.deadline }
  let server' : Honest c.ops c.env c.deadline quota := server
  have hstart : server'.Shows (namesAtoms «local» (changedNames «local» remote)) remote
      (server.atoms world) (env.now world).2 := by
    obtain ⟨-, hnow⟩ := server.now _ world h.serves
    exact ⟨hnow.1, hnow.2.1.trans h.content, hnow.2.2⟩
  have hbody : Ends (body c «local» expected source (Import.counts «local»).2.2
      { world := (env.now world).2 })
      (fun _ _ => Fits limits «local» remote) (fun _ _ => ¬ Fits limits «local» remote) :=
    body_at hlocal himport h.digest h.quota _ ⟨hstart, rfl⟩
  have hinstant : env.instant world = .ok (env.now world).1 (env.now world).2 := rfl
  rw [hinitial, run_bind hinstant]
  cases hrun : body c «local» expected source (Import.counts «local»).2.2
      { world := (env.now world).2 } with
  | ok u run =>
    rw [hrun] at hbody
    have hresult : runBody c «local» expected source (Import.counts «local»).2.2
        (env.now world).2 = .ok (.ok (), run) run.world := by
      unfold runBody
      rw [hrun]
    rw [run_bind hresult]
    obtain ⟨receipt, s, heq⟩ := finish_ok c scope «local» expected source run run.world
    change Ends (finish c scope «local» expected source (.ok ()) run run.world) _ _
    rw [heq]
    exact hbody
  | error e run =>
    rw [hrun] at hbody
    have hresult : runBody c «local» expected source (Import.counts «local»).2.2
        (env.now world).2 = .ok (.error e, run) run.world := by
      unfold runBody
      rw [hrun]
    rw [run_bind hresult]
    obtain ⟨error, s, heq⟩ := finish_error c scope «local» expected source e run run.world
    change Ends (finish c scope «local» expected source (.error e) run run.world) _ _
    rw [heq]
    exact hbody

/-- With a server that does what it should, an upload that passes its first checks completes
exactly when it fits: it has enough operations, and every content on the way is acceptable. -/
theorem upload_completes_iff [Sha256] (scope : Scope) (ops : Operations σ) (env : Ambient σ)
    (limits : Limits) («local» remote : State) (expected : String) (quota : UInt64) (world : σ)
    (server : Honest ops env ((env.now world).1 + limits.deadline) quota)
    (hadmitted : Admitted server scope «local» remote expected) :
    (∃ receipt s, upload scope ops «local» expected env limits world = .ok receipt s) ↔
      Fits limits «local» remote := by
  have h := upload_fits hadmitted
  constructor
  · rintro ⟨receipt, s, heq⟩
    rw [heq] at h
    exact h
  · intro hfits
    cases hrun : upload scope ops «local» expected env limits world with
    | ok receipt s => exact ⟨receipt, s, rfl⟩
    | error e s =>
      rw [hrun] at h
      exact absurd hfits h

/-! ## A server in memory -/

/-- Nobody cancels, and no time passes. -/
def undisturbed : Ambient Memory where
  cancelled m := (false, m)
  now m := (0, m)
  assertLocal := return

theorem containerName_wireName (name : String) : containerName (wireName name) = name := by
  have hlength : (wireName name).length - ",savedgame".length = name.toList.length := by
    rw [wireName, String.length_append, Nat.add_sub_cancel, ← String.length_toList]
  rw [containerName, hlength, wireName, String.toList_append, List.take_left, String.ofList_toList]

/-- The server in memory fails no operation; it has no room for atoms. -/
def memoryServer (scope : Scope) {deadline : Nat} (hdeadline : 0 < deadline) :
    Honest (memoryOps scope) undisturbed deadline memoryLease.quotaBytes where
  content m := m.cloud
  atoms _ := ∅
  Serves n _ := n = 0
  owner := memoryLease.ownerChangeId
  cancelled n s hs := ⟨rfl, hs, rfl, rfl⟩
  now n s hs := ⟨hdeadline, hs, rfl, rfl⟩
  assertLocal n s hs := ⟨s, rfl, hs, rfl, rfl⟩
  acquire n s timeout hs :=
    ⟨memoryLease, s, rfl, ⟨Or.inl rfl, by decide +kernel⟩, rfl, rfl, hs, rfl, rfl⟩
  renew n s timeout hs :=
    ⟨memoryLease, _, rfl, ⟨⟨Or.inl rfl, by decide +kernel⟩, rfl, rfl⟩, hs, rfl, rfl⟩
  remote n s timeout force hs := ⟨s, rfl, hs, rfl, rfl⟩
  uploadAtom n s payload timeout hs := absurd hs (Nat.succ_ne_zero n)
  putContainer n s name display modified ids timeout hs hids := by
    refine ⟨201, _, ⟨display, modified, ∅⟩, rfl, by decide, by decide, hs, rfl, ?_, rfl, rfl,
      fun blob => ?_⟩
    · rw [containerName_wireName]
    · cases hid : ids[blob]? with
      | none => simp
      | some id =>
        have hmem := hids blob id hid
        simp at hmem
  deleteContainer n s name timeout hs := by
    refine ⟨204, _, rfl, by decide, by decide, hs, rfl, ?_⟩
    rw [containerName_wireName]

section

local instance : Sha256 := standardSha256

def anyScope : Scope := ⟨"1", "2", "3", 4⟩

/-- The server in memory, with the default limits and from the empty cloud on. -/
abbrev emptyServer :
    Honest (memoryOps anyScope) undisturbed ((undisturbed.now {}).1 + ({} : Limits).deadline)
      memoryLease.quotaBytes :=
  memoryServer anyScope (by decide +kernel)

/-- A local state without blobs is admitted. -/
theorem emptyServer_admits {«local» : State} (hencodable : Encodable «local»)
    (hempty : ∀ (name : String) container, «local».containers[name]? = some container →
      container.blobs = ∅) :
    Admitted emptyServer anyScope «local» {} emptyDigest := by
  have hblobs (container : Container) (hcontainer : container ∈ values «local».containers) :
      container.blobs = ∅ := by
    obtain ⟨name, hname⟩ := mem_values.mp hcontainer
    exact hempty name container hname
  have htotal : (Import.counts «local»).2.2 = 0 := by
    have hnone : ((values «local».containers).flatMap
        fun c => (values c.blobs).map List.length) = [] := by
      rw [List.flatMap_eq_nil_iff]
      intro container hcontainer
      rw [hblobs container hcontainer]
      rfl
    unfold Import.counts
    rw [hnone]
    rfl
  have hatoms (names : List String) : namesAtoms «local» names = 0 := by
    unfold namesAtoms
    rw [List.sum_eq_zero_iff]
    intro count hcount
    obtain ⟨name, -, rfl⟩ := List.mem_map.mp hcount
    cases hentry : «local».containers[name]? with
    | none => rfl
    | some container =>
      rw [entryAtoms, hempty name container hentry]
      rfl
  exact {
    scope := rfl
    encode := encodable_iff.mpr hencodable
    total := htotal ▸ Nat.zero_le _
    blobs := fun container hcontainer blob hblob => by
      rw [hblobs container hcontainer] at hblob
      cases hblob
    quota := htotal ▸ Nat.zero_le _
    content := rfl
    digest := by decide +kernel
    serves := hatoms _ }

theorem upload_completes_one : Fits {} oneContainer {} := by
  have hencodable : Encodable oneContainer :=
    encodable_iff.mp (exists_eq_ok (by decide +kernel))
  have hempty (name : String) (container : Container)
      (hname : oneContainer.containers[name]? = some container) : container.blobs = ∅ := by
    rw [oneContainer, getElem?_insert_eq] at hname
    split at hname
    · cases hname
      rfl
    · simp at hname
  refine (upload_completes_iff anyScope (memoryOps anyScope) undisturbed {} oneContainer {}
    emptyDigest memoryLease.quotaBytes {} emptyServer
    (emptyServer_admits hencodable hempty)).mp (exists_of_succeeded ?_)
  decide +kernel

/-! ### Too many containers -/

/-- Eleven binary digits. -/
def binaryName (i : Nat) : String :=
  String.ofList ((List.range 11).map fun j => if i.testBit j then '1' else '0')

theorem utf8_binaryName (i : Nat) :
    utf8 (binaryName i) = (List.range 11).map fun j => if i.testBit j then 49 else 48 := by
  have hdigit (j : Nat) : String.utf8EncodeChar (if i.testBit j then '1' else '0') =
      [if i.testBit j then 49 else 48] := by
    cases i.testBit j <;> rfl
  rw [binaryName, utf8_ofList, List.flatMap_map, List.map_eq_flatMap]
  exact congrArg (List.flatMap · (List.range 11)) (funext hdigit)

theorem binaryName_inj {i k : Nat} (hi : i < 2048) (hk : k < 2048)
    (h : binaryName i = binaryName k) : i = k := by
  have hbits := List.map_inj_left.mp (String.ofList_injective h)
  apply Nat.eq_of_testBit_eq
  intro j
  by_cases hj : j < 11
  · have hj := hbits j (List.mem_range.mpr hj)
    cases hi : i.testBit j <;> cases hk : k.testBit j <;> simp_all
  · have hpow : 2048 ≤ 2 ^ j := by
      calc 2048 = 2 ^ 11 := rfl
        _ ≤ 2 ^ j := Nat.pow_le_pow_right (by omega) (by omega)
    rw [Nat.testBit_lt_two_pow (by omega), Nat.testBit_lt_two_pow (by omega)]

def manyEntry (i : Nat) : String × Container :=
  (binaryName i, { displayName := "", modified := 0, blobs := ∅ })

def manyRow (i : Nat) : Row := ⟨binaryName i, "", 0, []⟩

/-- 2048 containers without blobs. -/
@[irreducible] def manyContainers : State where
  containers := insertAll ∅ ((List.range 2048).map manyEntry)

theorem manyNames_nodup : ((List.range 2048).map binaryName).Nodup :=
  List.Nodup.map_on (fun _ hi _ hk h =>
    binaryName_inj (List.mem_range.mp hi) (List.mem_range.mp hk) h) List.nodup_range

theorem binaryName_ok (i : Nat) :
    TextOk 256 (binaryName i) ∧ name (binaryName i) true = .ok () := by
  have hlength : (utf8 (binaryName i)).length = 11 := by
    rw [utf8_binaryName]
    simp
  have hdigit (b : UInt8) (hb : b ∈ utf8 (binaryName i)) : b = 49 ∨ b = 48 := by
    rw [utf8_binaryName] at hb
    obtain ⟨j, -, rfl⟩ := List.mem_map.mp hb
    cases i.testBit j <;> simp
  refine ⟨⟨by omega, fun hzero => ?_⟩, name_of_plain ?_ (by omega) (fun b hb => ?_) true⟩
  · rcases hdigit 0 hzero with h | h <;> exact absurd h (by decide)
  · intro hnil
    rw [hnil] at hlength
    cases hlength
  · rcases hdigit b hb with rfl | rfl <;> decide

theorem manyContainers_encodable : Encodable manyContainers := by
  have hrows : ((List.range 2048).map manyEntry).map rowOf = (List.range 2048).map manyRow := by
    rw [List.map_map]
    rfl
  have hlayout (i : Nat) : (rowLayout (manyRow i)).length = 31 := by
    have hlength : (utf8 (binaryName i)).length = 11 := by
      rw [utf8_binaryName]
      simp
    simp only [rowLayout, manyRow, textLayout, List.length_append, leBytes_length, hlength,
      List.flatMap_nil]
    rfl
  unfold manyContainers
  apply encodable_insertAll
  · rw [hrows]
    exact {
      each := by
        intro row hrow
        obtain ⟨i, -, rfl⟩ := List.mem_map.mp hrow
        exact ⟨(binaryName_ok i).1, (binaryName_ok i).2,
          ⟨Nat.zero_le _, List.not_mem_nil⟩, Nat.zero_le _,
          fun _ h => absurd h List.not_mem_nil, List.nodup_nil⟩
      nodup := by
        rw [List.map_map]
        exact manyNames_nodup
      count := by
        rw [List.length_map, List.length_range]
        decide
      blobs := by
        unfold totalBlobs
        rw [List.map_map, List.sum_eq_zero]
        · exact Nat.zero_le _
        · intro count hcount
          obtain ⟨i, -, rfl⟩ := List.mem_map.mp hcount
          rfl
      used := by
        unfold totalBytes
        rw [List.map_map, List.sum_eq_zero]
        · exact Nat.zero_le _
        · intro count hcount
          obtain ⟨i, -, rfl⟩ := List.mem_map.mp hcount
          rfl }
  · rw [hrows]
    have hsum : ((List.range 2048).map fun i => (rowLayout (manyRow i)).length).sum = 2048 * 31 := by
      simp only [hlayout, List.map_const', List.sum_replicate, List.length_range, smul_eq_mul]
    simp only [bodyLayout, headerLayout, List.length_append, leBytes_length, List.length_flatMap,
      List.map_map, Function.comp_def, hsum]
    decide

theorem manyContainers_lookup {i : Nat} (hi : i < 2048) :
    manyContainers.containers[binaryName i]? = some (manyEntry i).2 := by
  unfold manyContainers
  apply getElem?_insertAll_of_mem
  · rw [List.map_map]
    exact manyNames_nodup
  · exact List.mem_map.mpr ⟨i, List.mem_range.mpr hi, rfl⟩

theorem manyContainers_empty (name : String) (container : Container)
    (hname : manyContainers.containers[name]? = some container) : container.blobs = ∅ := by
  by_cases hmem : name ∈ ((List.range 2048).map manyEntry).map Prod.fst
  · rw [List.map_map] at hmem
    obtain ⟨i, hi, rfl⟩ := List.mem_map.mp hmem
    have hlookup := manyContainers_lookup (List.mem_range.mp hi)
    change manyContainers.containers[binaryName i]? = _ at hname
    rw [hlookup] at hname
    cases hname
    rfl
  · have hnone : manyContainers.containers[name]? = (∅ : TextMap Container)[name]? := by
      unfold manyContainers
      apply getElem?_insertAll_of_notMem
      exact hmem
    rw [hnone] at hname
    simp at hname

theorem length_le_namesCost («local» : State) (names : List String) :
    4 * names.length ≤ namesCost «local» names := by
  have hentry (entry : Option Container) : 4 ≤ entryCost entry := by
    cases entry <;> simp [entryCost]
  induction names with
  | nil => exact Nat.zero_le _
  | cons name names ih =>
    have hname := hentry «local».containers[name]?
    simp only [namesCost, List.map_cons, List.sum_cons, List.length_cons] at ih ⊢
    omega

/-- Against an empty cloud every container is replaced. -/
theorem length_le_uploadCost {«local» : State} {names : List String} (hnodup : names.Nodup)
    (hnames : ∀ name ∈ names, ∃ entry, «local».containers[name]? = some entry) :
    4 * names.length + 4 ≤ uploadCost «local» {} := by
  have hsub : names ⊆ changedNames «local» {} := by
    intro name hname
    obtain ⟨entry, hentry⟩ := hnames name hname
    refine mem_changed.mpr ?_
    rintro ⟨digest, hlocal, hfirst⟩
    rw [hentry] at hlocal
    obtain rfl : none = digest := Except.ok.inj hfirst
    exact entryDigest_some_ne _ _ hlocal
  have hlength := (hnodup.subperm hsub).length_le
  have hcost := length_le_namesCost «local» (changedNames «local» {})
  unfold uploadCost
  omega

theorem manyContainers_cost : 8192 < uploadCost manyContainers {} := by
  have hnames : ∀ name ∈ (List.range 2048).map binaryName,
      ∃ entry, manyContainers.containers[name]? = some entry := by
    intro name hname
    obtain ⟨i, hi, rfl⟩ := List.mem_map.mp hname
    exact ⟨_, manyContainers_lookup (List.mem_range.mp hi)⟩
  have hcost := length_le_uploadCost manyNames_nodup hnames
  rw [List.length_map, List.length_range] at hcost
  exact lt_of_lt_of_le (by decide) hcost

/-- The containers pass every check before the first request, and the server fails nothing; still
the upload does not complete. -/
theorem manyContainers_incomplete :
    Admitted emptyServer anyScope manyContainers {} emptyDigest ∧
      ∀ receipt s, upload anyScope (memoryOps anyScope) manyContainers emptyDigest undisturbed {} {} ≠
        .ok receipt s := by
  have hadmitted : Admitted emptyServer anyScope manyContainers {} emptyDigest :=
    emptyServer_admits manyContainers_encodable manyContainers_empty
  refine ⟨hadmitted, fun receipt s heq => ?_⟩
  have hends := upload_fits hadmitted
  rw [heq] at hends
  have hfits : Fits {} manyContainers {} := hends
  have hoperations : uploadCost manyContainers {} ≤ 8192 := hfits.operations
  exact absurd hoperations (Nat.not_le_of_lt manyContainers_cost)

end

end Flightdeck.Cloud.Write
