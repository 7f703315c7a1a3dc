import Flightdeck.Cloud.WriteHistory

/-!
# What an upload may do, and what it counts

The rules that every call of an upload obeys, and the containers that its history confirms.  Both
are invariants of the log, and every step of the upload keeps them, whatever the server answers.
-/

namespace Flightdeck.Cloud.Write

open Foundation SaveState

/-! ## Reading a history -/

/-- The wire names of the mutated containers. -/
def mutations (h : List Event) : List String := h.filterMap Event.mutation

def lastCall (h : List Event) : Option Event := h.find? Event.isCall

def lastLease (h : List Event) : Option Event := h.find? Event.isLease

def reads (h : List Event) : List (TextSet × Except Failure State) := h.filterMap Event.read

/-- The lease was acquired, with this owner id. -/
def AcquiredBy (h : List Event) (owner : String) : Prop :=
  ∃ reply, .acquire (.ok reply) ∈ h ∧ reply.Granted ∧ reply.ownerChangeId = owner

/-- After the lease was acquired, the whole cloud was read and had the expected content. -/
def Opened [Sha256] (expected : String) (h : List Event) (owner : String) (first : State) : Prop :=
  ∃ newer between older reply,
    h = newer ++ .remote ∅ (.ok first) :: (between ++ .acquire (.ok reply) :: older) ∧
    reply.Granted ∧ reply.ownerChangeId = owner ∧ Import.digest first = .ok expected

/-- The last lease call was answered as ours. -/
inductive Ours (h : List Event) : Prop
  | acquired (reply : LeaseReply) (hlast : lastLease h = some (.acquire (.ok reply)))
      (hgranted : reply.Granted)
  | renewed (reply : LeaseReply) (hlast : lastLease h = some (.renew (.ok reply)))
      (hgranted : reply.Granted) (hstatus : reply.status = 200)
      (howner : AcquiredBy h reply.ownerChangeId)
  | recreated (reply : LeaseReply) (hlast : lastLease h = some (.renew (.ok reply)))
      (hgranted : reply.Granted) (hstatus : reply.status = 201)

/-- The last call was a renewal that the owner of the lease got confirmed. -/
def Fenced (h : List Event) (owner : String) : Prop :=
  ∃ reply, lastCall h = some (.renew (.ok reply)) ∧ reply.status = 200 ∧
    reply.ownerChangeId = owner

/-- A call that changes the cloud. -/
def Event.isWrite : Event → Bool
  | .uploadAtom _ _ | .putContainer _ _ _ _ _ | .deleteContainer _ _ => true
  | _ => false

/-- The rules for the next event. -/
structure Allowed [Sha256] (expected : String) (before : List Event) (event : Event) : Prop where
  first : event.isAcquire = true → ∀ e ∈ before, e.isCall = false
  unreleased : event.isCall = true → ∀ e ∈ before, e.isRelease = false
  opened : event.isWrite = true → ∃ owner first, Opened expected before owner first
  fenced : ∀ name, event.mutation = some name →
    ∃ owner first, Opened expected before owner first ∧ Fenced before owner
  once : ∀ name, event.mutation = some name → name ∉ mutations before
  released : event.isRelease = true → Ours before

/-- A passing check at this point confirms a container: it was mutated, the last read was forced for
it and showed the intended entry, and the renewal after the read was answered to the owner. -/
def Confirms [Sha256] («local» : State) (h : List Event) (name : String) : Prop :=
  ∃ reply older state digest, h = .renew (.ok reply) :: older ∧
    reply.Granted ∧ reply.status = 200 ∧ AcquiredBy older reply.ownerChangeId ∧
    wireName name ∈ mutations older ∧
    lastCall older = some (.remote (textSet name) (.ok state)) ∧
    entryDigest name state.containers[name]? = .ok digest ∧
    entryDigest name «local».containers[name]? = .ok digest

/-- A check passed. -/
def Event.passes : Event → Bool
  | .assertLocal (.ok ()) => true
  | _ => false

def Confirmed [Sha256] («local» : State) (name : String) : List Event → Prop
  | [] => False
  | e :: older => (e.passes = true ∧ Confirms «local» older name) ∨ Confirmed «local» name older

/-- The next check does not come right after a renewal. -/
def Settled (h : List Event) : Prop := ∀ reply older, h ≠ .renew reply :: older

section

variable {h : List Event} {e : Event}

theorem AcquiredBy.add {owner : String} (ha : AcquiredBy h owner) (e : Event) :
    AcquiredBy (e :: h) owner := by
  obtain ⟨reply, hmem, hrest⟩ := ha
  exact ⟨reply, List.mem_cons_of_mem _ hmem, hrest⟩

theorem lastLease_add (he : e.isLease = false) : lastLease (e :: h) = lastLease h := by
  rw [lastLease, List.find?_cons_of_neg (by rw [he]; exact Bool.false_ne_true), lastLease]

theorem lastCall_add (he : e.isCall = false) : lastCall (e :: h) = lastCall h := by
  rw [lastCall, List.find?_cons_of_neg (by rw [he]; exact Bool.false_ne_true), lastCall]

theorem lastCall_add_call (he : e.isCall = true) : lastCall (e :: h) = some e := by
  rw [lastCall, List.find?_cons_of_pos he]

theorem mutations_add (he : e.mutation = none) : mutations (e :: h) = mutations h := by
  rw [mutations, List.filterMap_cons_none he, mutations]

theorem Ours.add (ho : Ours h) (he : e.isLease = false) : Ours (e :: h) := by
  cases ho with
  | acquired reply hlast hgranted => exact .acquired reply ((lastLease_add he).trans hlast) hgranted
  | renewed reply hlast hgranted hstatus howner =>
    exact .renewed reply ((lastLease_add he).trans hlast) hgranted hstatus (howner.add e)
  | recreated reply hlast hgranted hstatus =>
    exact .recreated reply ((lastLease_add he).trans hlast) hgranted hstatus

variable [Sha256] {expected : String} {«local» : State}

theorem Opened.add {owner : String} {first : State} (ho : Opened expected h owner first)
    (e : Event) : Opened expected (e :: h) owner first := by
  obtain ⟨newer, between, older, reply, rfl, hrest⟩ := ho
  exact ⟨e :: newer, between, older, reply, rfl, hrest⟩

theorem Settled.not_confirms (hs : Settled h) (name : String) : ¬ Confirms «local» h name := by
  rintro ⟨reply, older, _, _, rfl, _⟩
  exact hs _ _ rfl

/-- A passing check here confirms no container that is not confirmed already. -/
def Quiet («local» : State) (h : List Event) : Prop :=
  ∀ name, Confirms «local» h name → Confirmed «local» name h

theorem Settled.quiet (hs : Settled h) : Quiet «local» h :=
  fun name hconfirms => absurd hconfirms (hs.not_confirms name)

theorem confirmed_add (hnew : e.passes = true → Quiet «local» h) (name : String) :
    Confirmed «local» name (e :: h) ↔ Confirmed «local» name h := by
  constructor
  · rintro (⟨hpass, hconfirms⟩ | hold)
    · exact hnew hpass name hconfirms
    · exact hold
  · exact Or.inr

theorem Confirmed.mutated {name : String} (hc : Confirmed «local» name h) :
    wireName name ∈ mutations h := by
  have hmono (e : Event) (older : List Event) (hm : wireName name ∈ mutations older) :
      wireName name ∈ mutations (e :: older) := by
    unfold mutations at hm ⊢
    rw [List.filterMap_cons]
    cases e.mutation with
    | none => exact hm
    | some other => exact List.mem_cons_of_mem _ hm
  induction h with
  | nil => cases hc
  | cons e older ih =>
    apply hmono
    rcases hc with ⟨-, reply, rest, _, _, rfl, -, -, -, hm, -⟩ | hc
    · exact hmono _ _ hm
    · exact ih hc

end

theorem Event.not_acquire (e : Event) (he : e.isLease = false) : e.isAcquire = false := by
  cases e <;> first | rfl | exact he

/-! ## The invariant -/

/-- Events that neither touch the lease nor the containers. -/
structure Event.Plain (e : Event) : Prop where
  lease : e.isLease = false
  release : e.isRelease = false
  mutation : e.mutation = none

theorem Event.Plain.settled {e : Event} (he : e.Plain) (h : List Event) : Settled (e :: h) := by
  intro reply older heq
  cases heq
  cases he.lease

theorem plain_assertLocal (reply : Except Failure Unit) : (Event.assertLocal reply).Plain :=
  ⟨rfl, rfl, rfl⟩

theorem plain_remote (force : TextSet) (reply : Except Failure State) :
    (Event.remote force reply).Plain := ⟨rfl, rfl, rfl⟩

theorem plain_uploadAtom (payload : Bytes) (reply : Except Failure String) :
    (Event.uploadAtom payload reply).Plain := ⟨rfl, rfl, rfl⟩

theorem checked_settled (l : Log) : Settled l.checked.history :=
  (plain_assertLocal _).settled _

/-- The log of a run obeys the rules and counts what its history confirms. -/
structure Sound [Sha256] (expected : String) («local» : State) (l : Log) : Prop where
  steps : EachStep (Allowed expected) l.history
  unreleased : ∀ e ∈ l.history, e.isRelease = false
  ours : l.acquired = true → Ours l.history
  owner : ∀ owner, l.owner = some owner → AcquiredBy l.history owner
  names : ∀ wire ∈ mutations l.history, ∃ name, name ∈ l.mutated ∧ wireName name = wire
  attempted : mutations l.history ≠ [] → l.mutationAttempted = true
  committed : ∃ names : List String, names.Nodup ∧ names.length = l.committed ∧
    ∀ name, name ∈ names ↔ Confirmed «local» name l.history

section

variable [Sha256] {expected : String} {«local» : State} {l l' : Log}

theorem Allowed.plain {h : List Event} {e : Event} (he : e.Plain)
    (hreleased : ∀ e ∈ h, e.isRelease = false)
    (hwrite : e.isWrite = true → ∃ owner first, Opened expected h owner first) :
    Allowed expected h e where
  first hacquire := absurd hacquire (by rw [e.not_acquire he.lease]; exact Bool.false_ne_true)
  unreleased _ := hreleased
  opened := hwrite
  fenced name hname := by rw [he.mutation] at hname; cases hname
  once name hname := by rw [he.mutation] at hname; cases hname
  released hrelease := by rw [he.release] at hrelease; cases hrelease

theorem Sound.add (hl : Sound expected «local» l) {e : Event} (he : e.Plain)
    (hquiet : e.passes = true → Quiet «local» l.history)
    (hwrite : e.isWrite = true → ∃ owner first, Opened expected l.history owner first) :
    Sound expected «local» (l.add e) where
  steps := ⟨.plain he hl.unreleased hwrite, hl.steps⟩
  unreleased := List.forall_mem_cons.mpr ⟨he.release, hl.unreleased⟩
  ours hacquired := (hl.ours hacquired).add he.lease
  owner owner howner := (hl.owner owner howner).add e
  names := by
    rw [Log.add_history, mutations_add he.mutation]
    exact hl.names
  attempted := by
    rw [Log.add_history, mutations_add he.mutation]
    exact hl.attempted
  committed := by
    obtain ⟨names, hnodup, hlength, hnames⟩ := hl.committed
    exact ⟨names, hnodup, hlength, fun name =>
      (hnames name).trans (confirmed_add hquiet name).symm⟩

/-- Giving the lease up is always sound. -/
theorem Sound.giveUp (hl : Sound expected «local» l) :
    Sound expected «local» { l with acquired := false } :=
  { hl with ours := nofun }

theorem Sound.checked (hl : Sound expected «local» l) (hquiet : Quiet «local» l.history) :
    Sound expected «local» l.checked :=
  hl.add (plain_assertLocal _) (fun _ => hquiet) nofun

theorem Sound.checkFailed (hl : Sound expected «local» l) (h : CheckFailed l l') :
    Sound expected «local» l' := by
  cases h with
  | early => exact hl
  | changed e => exact hl.add (plain_assertLocal _) nofun nofun

/-! ### Lease calls -/

theorem Sound.addAcquire (hl : Sound expected «local» l) (hacquired : l.acquired = false)
    (hfirst : ∀ e ∈ l.history, e.isCall = false) (reply : Except Failure LeaseReply) :
    Sound expected «local» (l.add (.acquire reply)) where
  steps := ⟨⟨fun _ => hfirst, fun _ => hl.unreleased, nofun, nofun, nofun, nofun⟩, hl.steps⟩
  unreleased := List.forall_mem_cons.mpr ⟨rfl, hl.unreleased⟩
  ours h := by
    rw [Log.add_acquired, hacquired] at h
    cases h
  owner owner howner := (hl.owner owner howner).add _
  names := hl.names
  attempted := hl.attempted
  committed := by
    obtain ⟨names, hnodup, hlength, hnames⟩ := hl.committed
    have hquiet : (Event.acquire reply).passes = true → Quiet «local» l.history :=
      fun h => by cases h
    exact ⟨names, hnodup, hlength, fun name =>
      (hnames name).trans (confirmed_add hquiet name).symm⟩

/-- The run that acquired the lease owns it. -/
theorem Sound.grant {reply : LeaseReply} (hl : Sound expected «local» (l.add (.acquire (.ok reply))))
    (hgranted : reply.Granted) :
    Sound expected «local» { l.add (.acquire (.ok reply)) with
      owner := some reply.ownerChangeId, acquired := true } :=
  { hl with
    ours := fun _ => .acquired reply rfl hgranted
    owner := fun owner howner => by
      cases howner
      exact ⟨reply, List.mem_cons_self, hgranted, rfl⟩ }

/-- The answer to a renewal: `acquired` may only be set where the answer makes the lease ours. -/
theorem Sound.addRenew (hl : Sound expected «local» l) {reply : Except Failure LeaseReply}
    {acquired : Bool}
    (hours : acquired = true → Ours (.renew reply :: l.history)) :
    Sound expected «local» { l.add (.renew reply) with acquired } where
  steps := ⟨⟨nofun, fun _ => hl.unreleased, nofun, nofun, nofun, nofun⟩, hl.steps⟩
  unreleased := List.forall_mem_cons.mpr ⟨rfl, hl.unreleased⟩
  ours := hours
  owner owner howner := (hl.owner owner howner).add _
  names := hl.names
  attempted := hl.attempted
  committed := by
    obtain ⟨names, hnodup, hlength, hnames⟩ := hl.committed
    have hquiet : (Event.renew reply).passes = true → Quiet «local» l.history :=
      fun h => by cases h
    exact ⟨names, hnodup, hlength, fun name =>
      (hnames name).trans (confirmed_add hquiet name).symm⟩

theorem Sound.renewing (hl : Sound expected «local» l) (hsettled : Settled l.history) :
    Sound expected «local» l.renewing :=
  (hl.checked hsettled.quiet).giveUp

/-- A renewal answered to the owner makes the lease ours. -/
theorem Sound.ours_renewed (hl : Sound expected «local» l) {reply : LeaseReply}
    (hreply : reply.Renews l.owner) :
    Ours (.renew (.ok reply) :: l.checked.history) :=
  .renewed reply rfl hreply.granted hreply.status
    (((hl.owner _ hreply.owner).add _).add _)

theorem Sound.renewFailed (hl : Sound expected «local» l) (hsettled : Settled l.history)
    (h : RenewFailed l l') : Sound expected «local» l' := by
  cases h with
  | unchecked h => exact hl.checkFailed h
  | bounds => exact hl.checked hsettled.quiet
  | lost e => exact (hl.renewing hsettled).addRenew nofun
  | refused reply h =>
    rw [h.same]
    refine (hl.renewing hsettled).addRenew fun hacquired => ?_
    obtain ⟨hgranted, hstatus⟩ := h.fresh hacquired
    exact .recreated reply rfl hgranted hstatus
  | unconfirmed reply hreply h =>
    exact ((hl.renewing hsettled).addRenew fun _ => hl.ours_renewed hreply).checkFailed h

theorem Sound.readFailed (hl : Sound expected «local» l) (hsettled : Settled l.history)
    {force : TextSet} (h : ReadFailed l force l') : Sound expected «local» l' := by
  have hread (reply : Except Failure State) :
      Sound expected «local» (l.checked.add (.remote force reply)) :=
    (hl.checked hsettled.quiet).add (plain_remote _ _) nofun nofun
  cases h with
  | unchecked h => exact hl.checkFailed h
  | lost e => exact hread _
  | invalid state => exact hread _
  | unconfirmed state h => exact (hread _).checkFailed h

theorem Sound.readBack (hl : Sound expected «local» l) (hsettled : Settled l.history)
    (force : TextSet) (state : State) : Sound expected «local» (l.readBack force state) :=
  ((hl.checked hsettled.quiet).add (plain_remote _ _) nofun nofun).checked
    ((plain_remote _ _).settled _).quiet

end

end Flightdeck.Cloud.Write
