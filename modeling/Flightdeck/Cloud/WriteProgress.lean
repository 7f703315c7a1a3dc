import Flightdeck.Cloud.PolicyLaws
import Flightdeck.Cloud.WriteSafety

/-!
# The progress of an upload

From the first read on, an upload knows which containers it has mutated and which of them its
history confirms.  Every step either carries this on or leaves a sound log.
-/

namespace Flightdeck.Cloud.Write

open Foundation SaveState

theorem wireName_inj {a b : String} (h : wireName a = wireName b) : a = b := by
  have hlist := congrArg String.toList h
  simp only [wireName, String.toList_append] at hlist
  exact String.toList_inj.mp (List.append_cancel_right hlist)

theorem mem_textSet {a b : String} : a ∈ textSet b ↔ a = b := by
  rw [textSet, Std.ExtTreeMap.mem_insert, Std.LawfulEqCmp.compare_eq_iff_eq]
  simp [eq_comm]

theorem textSet_inj {a b : String} (h : textSet a = textSet b) : a = b :=
  mem_textSet.mp (h ▸ mem_textSet.mpr rfl)

theorem uploadNames_nodup («local» remote : State) : (uploadNames «local» remote).Nodup :=
  nodup_unionNames _ _ _

/-- The log of a run that has done nothing. -/
def Log.start : Log where
  history := []
  committed := 0
  mutationAttempted := false
  acquired := false
  owner := none
  mutated := ∅

theorem settled_start : Settled Log.start.history := nofun

theorem settled_acquiring (reply : Except Failure LeaseReply) :
    Settled (Log.start.checked.add (.acquire reply)).history := by
  intro reply' older heq
  cases heq

/-- The containers `names` are mutated, in this order, and `confirmed` of them are confirmed. -/
structure Progress [Sha256] (expected : String) («local» first : State) (holder : String)
    (names confirmed : List String) (l : Log) : Prop where
  sound : Sound expected «local» l
  settled : Settled l.history
  owner : l.owner = some holder
  opened : Opened expected l.history holder first
  mutations : mutations l.history = names.reverse.map wireName
  mutated : ∀ name, name ∈ l.mutated ↔ name ∈ names
  confirmed : ∀ name, Confirmed «local» name l.history ↔ name ∈ confirmed
  firstRead : (reads l.history).getLast? = some (∅, .ok first)

/-- The last call is not a read. -/
def Unread (h : List Event) : Prop := ∀ force reply, lastCall h ≠ some (.remote force reply)

section

variable {first : State} {holder : String} {l : Log}

theorem reads_add {h : List Event} {e : Event} (hread : (reads h).getLast? = some (∅, .ok first)) :
    (reads (e :: h)).getLast? = some (∅, .ok first) := by
  unfold reads at hread ⊢
  rw [List.filterMap_cons]
  cases e.read with
  | none => exact hread
  | some read => rw [List.getLast?_cons, hread]; rfl

theorem Unread.add {h : List Event} {e : Event} (hu : Unread h) (he : e.isCall = false) :
    Unread (e :: h) := by
  intro force reply
  rw [lastCall_add he]
  exact hu force reply

theorem unread_call {h : List Event} {e : Event} (he : e.isCall = true)
    (hread : e.read = none) : Unread (e :: h) := by
  intro force reply heq
  rw [lastCall_add_call he] at heq
  cases heq
  cases hread

theorem Unread.checked (hu : Unread l.history) : Unread l.checked.history := hu.add rfl

theorem renewed_fenced {reply : LeaseReply} (howner : l.owner = some holder)
    (hreply : reply.Renews l.owner) : Fenced (l.renewed reply).history holder := by
  have heq := hreply.owner
  rw [howner] at heq
  exact ⟨reply, rfl, hreply.status, (Option.some.inj heq).symm⟩

theorem renewed_unread (reply : LeaseReply) : Unread (l.renewed reply).history := by
  intro force answer heq
  cases heq

theorem Fenced.checked (hf : Fenced l.history holder) : Fenced l.checked.history holder := by
  obtain ⟨reply, hlast, hrest⟩ := hf
  exact ⟨reply, (lastCall_add rfl).trans hlast, hrest⟩

variable [Sha256] {expected : String} {«local» : State} {names confirmed : List String}

theorem Progress.add (hp : Progress expected «local» first holder names confirmed l) {e : Event}
    (he : e.Plain) : Progress expected «local» first holder names confirmed (l.add e) where
  sound := hp.sound.add he (fun _ => hp.settled.quiet) fun _ => ⟨holder, first, hp.opened⟩
  settled := he.settled _
  owner := hp.owner
  opened := hp.opened.add e
  mutations := (mutations_add he.mutation).trans hp.mutations
  mutated := hp.mutated
  confirmed name := (confirmed_add (fun _ => hp.settled.quiet) name).trans (hp.confirmed name)
  firstRead := reads_add hp.firstRead

theorem Progress.checked (hp : Progress expected «local» first holder names confirmed l) :
    Progress expected «local» first holder names confirmed l.checked :=
  hp.add (plain_assertLocal _)

/-! ## Renewals -/

/-- What a renewal confirms: nothing, unless a forced read came right before it. -/
theorem confirms_renew {reply : LeaseReply} {name : String}
    (h : Confirms «local» (l.renewing.add (.renew (.ok reply))).history name) :
    ∃ state digest, lastCall l.history = some (.remote (textSet name) (.ok state)) ∧
      wireName name ∈ Write.mutations l.history ∧
      entryDigest name state.containers[name]? = .ok digest ∧
      entryDigest name «local».containers[name]? = .ok digest := by
  obtain ⟨reply', older, state, digest, heq, -, -, -, hmutated, hlast, hdigest, hlocal⟩ := h
  cases heq
  exact ⟨state, digest, hlast, hmutated, hdigest, hlocal⟩

/-- A renewal that confirms nothing new. -/
theorem Progress.renewed (hp : Progress expected «local» first holder names confirmed l)
    {reply : LeaseReply} (hreply : reply.Renews l.owner)
    (hquiet : Unread l.history ∨ ∀ name ∈ names, name ∈ confirmed) :
    Progress expected «local» first holder names confirmed (l.renewed reply) := by
  have hsound : Sound expected «local»
      { l.renewing.add (.renew (.ok reply)) with acquired := true } :=
    (hp.sound.renewing hp.settled).addRenew fun _ => hp.sound.ours_renewed hreply
  have hold (name : String) :
      Confirmed «local» name (l.renewing.add (.renew (.ok reply))).history ↔ name ∈ confirmed := by
    have hnew : (Event.renew (.ok reply)).passes = true → Quiet «local» l.renewing.history :=
      fun h => by cases h
    exact (confirmed_add hnew name).trans (hp.checked.confirmed name)
  have hnothing : Quiet «local» (l.renewing.add (.renew (.ok reply))).history := by
    intro name hconfirms
    obtain ⟨state, _, hlast, hmutated, -⟩ := confirms_renew hconfirms
    rcases hquiet with hunread | hall
    · exact absurd hlast (hunread _ _)
    · rw [hp.mutations, List.mem_map] at hmutated
      obtain ⟨name', hname', heq⟩ := hmutated
      rw [List.mem_reverse, wireName_inj heq] at hname'
      exact (hold name).mpr (hall name hname')
  exact {
    sound := hsound.checked hnothing
    settled := checked_settled _
    owner := hp.owner
    opened := ((hp.opened.add _).add _).add _
    mutations := hp.mutations
    mutated := hp.mutated
    confirmed := fun name => (confirmed_add (fun _ => hnothing) name).trans (hold name)
    firstRead := reads_add (reads_add (reads_add hp.firstRead)) }

variable {σ : Type} (c : Context σ)

theorem check_progress :
    Logged (fun l => Progress expected «local» first holder names confirmed l ∧ Unread l.history)
      (check c.recorded)
      (fun _ l => Progress expected «local» first holder names confirmed l ∧ Unread l.history)
      (fun _ l => Sound expected «local» l) := by
  apply Logged.of_each
  rintro l₀ ⟨hp, hu⟩
  refine (check_logged c l₀).mono (fun _ h => h) ?_ fun _ l hl => hp.sound.checkFailed hl
  rintro _ l rfl
  exact ⟨hp.checked, hu.checked⟩

theorem budget_progress :
    Logged (fun l => Progress expected «local» first holder names confirmed l ∧ Unread l.history)
      (budget c.recorded)
      (fun _ l => Progress expected «local» first holder names confirmed l ∧ Unread l.history)
      (fun _ l => Sound expected «local» l) := by
  apply Logged.of_each
  rintro l₀ ⟨hp, hu⟩
  refine (budget_logged c l₀).mono (fun _ h => h) ?_ ?_
  · rintro _ l rfl
    exact ⟨hp.checked, hu.checked⟩
  · rintro e l (hl | rfl)
    · exact hp.sound.checkFailed hl
    · exact hp.checked.sound

theorem renew_progress :
    Logged (fun l => Progress expected «local» first holder names confirmed l ∧
        (Unread l.history ∨ ∀ name ∈ names, name ∈ confirmed))
      (renew c.recorded)
      (fun _ l => Progress expected «local» first holder names confirmed l ∧
        Unread l.history ∧ Fenced l.history holder)
      (fun _ l => Sound expected «local» l) := by
  apply Logged.of_each
  rintro l₀ ⟨hp, hquiet⟩
  refine (renew_logged c l₀).mono (fun _ h => h) ?_
    fun _ l hl => hp.sound.renewFailed hp.settled hl
  rintro _ l ⟨reply, hreply, rfl⟩
  exact ⟨hp.renewed hreply hquiet, renewed_unread reply, renewed_fenced hp.owner hreply⟩

/-! ## Atoms -/

theorem uploadBlob_progress (done : TextMap String × TextSet) (blob : String × Bytes) :
    Logged (fun l => Progress expected «local» first holder names confirmed l ∧ Unread l.history)
      (uploadBlob c.recorded done blob)
      (fun _ l => Progress expected «local» first holder names confirmed l ∧ Unread l.history)
      (fun _ l => Sound expected «local» l) := by
  have hatom (reply : Except Failure String) (l : Log)
      (hl : Progress expected «local» first holder names confirmed l ∧ Unread l.history) :
      Progress expected «local» first holder names confirmed (l.add (.uploadAtom blob.2 reply)) ∧
        Unread (l.add (.uploadAtom blob.2 reply)).history :=
    ⟨hl.1.add (plain_uploadAtom _ _), unread_call rfl rfl⟩
  refine (budget_progress c).bind fun timeout => ?_
  refine Logged.bind (Q := fun _ l => Progress expected «local» first holder names confirmed l ∧
    Unread l.history) (Logged.recorded (fun atom l hl => hatom (.ok atom) l hl)
    fun e l hl => (hatom (.error e) l hl).1.sound) fun atom => ?_
  refine Logged.bind (Q := fun _ l => Progress expected «local» first holder names confirmed l ∧
    Unread l.history) (Logged.lift (fun _ l hl _ => hl) fun _ l hl _ => hl.1.sound) fun _ => ?_
  exact (check_progress c).bind fun _ => Logged.pure _ fun l hl => hl

theorem uploadBlobs_progress (blobs : List (String × Bytes)) :
    Logged (fun l => Progress expected «local» first holder names confirmed l ∧ Unread l.history)
      (blobs.foldlM (uploadBlob c.recorded) (∅, ∅))
      (fun _ l => Progress expected «local» first holder names confirmed l ∧ Unread l.history)
      (fun _ l => Sound expected «local» l) :=
  Logged.foldlM (fun done blob => uploadBlob_progress c done blob) blobs (∅, ∅)

/-! ## One container -/

/-- The renewal after a matching forced read confirms the container. -/
theorem Progress.confirm {name : String} {state : State} {digest : Option String}
    (hp : Progress expected «local» first holder (names ++ [name]) names l) (hname : name ∉ names)
    (hlast : lastCall l.history = some (.remote (textSet name) (.ok state)))
    (hstate : entryDigest name state.containers[name]? = .ok digest)
    (hlocal : entryDigest name «local».containers[name]? = .ok digest)
    {reply : LeaseReply} (hreply : reply.Renews l.owner) :
    Progress expected «local» first holder (names ++ [name]) (names ++ [name])
      { l.renewed reply with committed := l.committed + 1 } := by
  have hsound : Sound expected «local»
      { l.renewing.add (.renew (.ok reply)) with acquired := true } :=
    (hp.sound.renewing hp.settled).addRenew fun _ => hp.sound.ours_renewed hreply
  have hmutated : wireName name ∈ Write.mutations l.history := by
    rw [hp.mutations]
    exact List.mem_map_of_mem (by simp)
  have hconfirms (other : String) :
      Confirms «local» (l.renewing.add (.renew (.ok reply))).history other ↔ other = name := by
    constructor
    · intro h
      obtain ⟨state', _, hlast', -⟩ := confirms_renew h
      rw [hlast] at hlast'
      simp only [Option.some.injEq, Event.remote.injEq] at hlast'
      exact (textSet_inj hlast'.1).symm
    · rintro rfl
      refine ⟨reply, _, state, digest, rfl, hreply.granted, hreply.status, ?_, hmutated, hlast,
        hstate, hlocal⟩
      exact ((hp.sound.owner _ hreply.owner).add _)
  have hold (other : String) :
      Confirmed «local» other (l.renewing.add (.renew (.ok reply))).history ↔ other ∈ names := by
    have hnew : (Event.renew (.ok reply)).passes = true → Quiet «local» l.renewing.history :=
      fun h => by cases h
    exact (confirmed_add hnew other).trans (hp.checked.confirmed other)
  have hall (other : String) :
      Confirmed «local» other (l.renewed reply).history ↔ other = name ∨ other ∈ names := by
    rw [← hconfirms other, ← hold other]
    exact ⟨fun h => h.imp_left And.right, fun h => h.imp_left fun h => ⟨rfl, h⟩⟩
  exact {
    sound := {
      steps := ⟨.plain (plain_assertLocal _) hsound.unreleased nofun, hsound.steps⟩
      unreleased := List.forall_mem_cons.mpr ⟨rfl, hsound.unreleased⟩
      ours := fun _ => (hsound.ours rfl).add rfl
      owner := fun owner howner => (hsound.owner owner howner).add _
      names := hsound.names
      attempted := hsound.attempted
      committed := by
        obtain ⟨counted, hnodup, hlength, hcounted⟩ := hsound.committed
        refine ⟨name :: counted, List.nodup_cons.mpr ⟨?_, hnodup⟩, ?_, fun other => ?_⟩
        · rw [hcounted, hold]
          exact hname
        · rw [List.length_cons, hlength]
          rfl
        · rw [hall, List.mem_cons, hcounted, hold] }
    settled := checked_settled _
    owner := hp.owner
    opened := ((hp.opened.add _).add _).add _
    mutations := hp.mutations
    mutated := hp.mutated
    confirmed := fun other => by
      rw [hall, List.mem_append, List.mem_singleton]
      exact or_comm
    firstRead := reads_add (reads_add (reads_add hp.firstRead)) }

theorem remote_progress (force : TextSet) :
    Logged (fun l => Progress expected «local» first holder names confirmed l)
      (remote c.recorded force)
      (fun state l => Progress expected «local» first holder names confirmed l ∧
        lastCall l.history = some (.remote force (.ok state)) ∧
        (reads l.history).head? = some (force, .ok state))
      (fun _ l => Sound expected «local» l) := by
  apply Logged.of_each
  rintro l₀ hp
  refine (remote_logged c l₀ force).mono (fun _ h => h) ?_
    fun _ l hl => hp.sound.readFailed hp.settled hl
  rintro state l ⟨-, rfl⟩
  exact ⟨(hp.checked.add (plain_remote _ _)).checked, rfl, rfl⟩

/-- After the mutation of a container: it is confirmed, or the log stays sound. -/
theorem confirm_progress {name : String} (hname : name ∉ names) :
    Logged (fun l => Progress expected «local» first holder (names ++ [name]) names l ∧
        Unread l.history)
      (confirm c.recorded name «local».containers[name]?)
      (fun _ l => Progress expected «local» first holder (names ++ [name]) (names ++ [name]) l ∧
        Unread l.history)
      (fun _ l => Sound expected «local» l) := by
  refine ((renew_progress c).mono (fun _ h => ⟨h.1, Or.inl h.2⟩) (fun _ _ h => h.1)
    fun _ _ h => h).bind fun _ => ?_
  refine (remote_progress c (textSet name)).bind fun state => ?_
  refine Logged.bind (Q := fun digest l =>
    (Progress expected «local» first holder (names ++ [name]) names l ∧
      lastCall l.history = some (.remote (textSet name) (.ok state))) ∧
      entryDigest name state.containers[name]? = .ok digest)
    (Logged.lift (fun _ l hl hx => ⟨⟨hl.1, hl.2.1⟩, hx⟩) fun _ l hl _ => hl.1.sound)
    fun digest => ?_
  refine Logged.bind (Q := fun digest' l =>
    ((Progress expected «local» first holder (names ++ [name]) names l ∧
      lastCall l.history = some (.remote (textSet name) (.ok state))) ∧
      entryDigest name state.containers[name]? = .ok digest) ∧
      entryDigest name «local».containers[name]? = .ok digest')
    (Logged.lift (fun _ l hl hx => ⟨hl, hx⟩) fun _ l hl _ => hl.1.1.sound) fun digest' => ?_
  refine Logged.bind (Q := fun _ l =>
    (Progress expected «local» first holder (names ++ [name]) names l ∧
      lastCall l.history = some (.remote (textSet name) (.ok state))) ∧
      entryDigest name state.containers[name]? = .ok digest ∧
      entryDigest name «local».containers[name]? = .ok digest)
    (Logged.lift ?_ fun _ l hl _ => hl.1.1.1.sound) fun _ => ?_
  · rintro _ l ⟨⟨hl, hstate⟩, hlocal⟩ hx
    rw [Cloud.require_eq_ok, beq_iff_eq] at hx
    exact ⟨hl, hstate, hx ▸ hlocal⟩
  apply Logged.of_each
  rintro l₀ ⟨⟨hp, hlast⟩, hstate, hlocal⟩
  refine ((renew_logged c l₀).mono (fun _ h => h) (fun _ _ h => h)
    fun _ l hl => hp.sound.renewFailed hp.settled hl).bind fun _ => ?_
  rintro run ⟨reply, hreply, hrun⟩
  change Progress expected «local» first holder _ _ { run.log with committed := run.log.committed + 1 }
    ∧ Unread run.log.history
  rw [hrun]
  exact ⟨hp.confirm hname hlast hstate hlocal hreply, renewed_unread reply⟩

/-- The mutation of a container is on record before it is sent. -/
def Log.attempt (l : Log) (name : String) : Log :=
  { l with mutationAttempted := true, mutated := l.mutated.insert name () }

theorem Sound.attempt (hl : Sound expected «local» l) (name : String) :
    Sound expected «local» (l.attempt name) where
  steps := hl.steps
  unreleased := hl.unreleased
  ours := hl.ours
  owner := hl.owner
  names wire hwire := by
    obtain ⟨other, hother, heq⟩ := hl.names wire hwire
    exact ⟨other, Std.ExtTreeMap.mem_insert.mpr (Or.inr hother), heq⟩
  attempted _ := rfl
  committed := hl.committed

/-- The call that replaces or deletes a container on record. -/
theorem Progress.mutate {name : String} {e : Event}
    (hp : Progress expected «local» first holder names names l) (hname : name ∉ names)
    (hfenced : Fenced l.history holder) (he : e.mutation = some (wireName name)) :
    Progress expected «local» first holder (names ++ [name]) names ((l.attempt name).add e) := by
  have hlease : e.isLease = false := by cases e <;> first | rfl | cases he
  have hrelease : e.isRelease = false := by cases e <;> first | rfl | cases he
  have hpasses : e.passes = false := by cases e <;> first | rfl | cases he
  have hquiet : e.passes = true → Quiet «local» l.history := by
    rw [hpasses]
    exact nofun
  have hfresh : wireName name ∉ Write.mutations l.history := by
    rw [hp.mutations, List.mem_map]
    rintro ⟨other, hother, heq⟩
    rw [List.mem_reverse, wireName_inj heq] at hother
    exact hname hother
  have hmutations : Write.mutations (e :: l.history) =
      wireName name :: Write.mutations l.history := by
    rw [Write.mutations, List.filterMap_cons_some he, Write.mutations]
  have hmem (other : String) : other ∈ l.mutated.insert name () ↔ other ∈ names ++ [name] := by
    rw [Std.ExtTreeMap.mem_insert, Std.LawfulEqCmp.compare_eq_iff_eq, hp.mutated, List.mem_append,
      List.mem_singleton]
    tauto
  have hattempt := hp.sound.attempt name
  exact {
    sound := {
      steps := ⟨{
        first := fun hacquire =>
          absurd hacquire (by rw [e.not_acquire hlease]; exact Bool.false_ne_true)
        unreleased := fun _ => hp.sound.unreleased
        opened := fun _ => ⟨holder, first, hp.opened⟩
        fenced := fun _ _ => ⟨holder, first, hp.opened, hfenced⟩
        once := fun wire hwire => by
          rw [he] at hwire
          cases hwire
          exact hfresh
        released := fun hreleased => by rw [hrelease] at hreleased; cases hreleased },
        hp.sound.steps⟩
      unreleased := List.forall_mem_cons.mpr ⟨hrelease, hp.sound.unreleased⟩
      ours := fun hacquired => (hp.sound.ours hacquired).add hlease
      owner := fun owner howner => (hp.sound.owner owner howner).add e
      names := by
        rw [Log.add_history, Log.attempt, hmutations, List.forall_mem_cons]
        refine ⟨⟨name, (hmem name).mpr (by simp), rfl⟩, hattempt.names⟩
      attempted := fun _ => rfl
      committed := by
        obtain ⟨counted, hnodup, hlength, hcounted⟩ := hp.sound.committed
        exact ⟨counted, hnodup, hlength, fun other =>
          (hcounted other).trans (confirmed_add hquiet other).symm⟩ }
    settled := by
      rintro reply older heq
      cases heq
      cases he
    owner := hp.owner
    opened := hp.opened.add e
    mutations := by
      rw [Log.add_history, Log.attempt, hmutations, hp.mutations, List.reverse_append]
      rfl
    mutated := hmem
    confirmed := fun other => (confirmed_add hquiet other).trans (hp.confirmed other)
    firstRead := reads_add hp.firstRead }

theorem mutate_progress {name : String} (hname : name ∉ names) (atoms : TextMap String)
    (timeout : Nat) :
    Logged (fun l => ∃ l₁, Progress expected «local» first holder names names l₁ ∧
        Fenced l₁.history holder ∧ l = l₁.attempt name)
      (attempt (call (mutate c.recorded name «local».containers[name]? atoms timeout)))
      (fun _ l => Progress expected «local» first holder (names ++ [name]) names l ∧
        Unread l.history)
      (fun _ l => Sound expected «local» l) := by
  have hevent (e : Event) (he : e.mutation = some (wireName name)) (l : Log)
      (hl : ∃ l₁, Progress expected «local» first holder names names l₁ ∧
        Fenced l₁.history holder ∧ l = l₁.attempt name) :
      Progress expected «local» first holder (names ++ [name]) names (l.add e) ∧
        Unread (l.add e).history := by
    obtain ⟨l₁, hp, hfenced, rfl⟩ := hl
    have hcall : e.isCall = true := by cases e <;> first | rfl | cases he
    have hread : e.read = none := by cases e <;> first | rfl | cases he
    exact ⟨hp.mutate hname hfenced he, unread_call hcall hread⟩
  apply Logged.attempt
  unfold mutate
  cases «local».containers[name]? with
  | none => exact Logged.recorded (fun status l hl => hevent _ rfl l hl) fun e l hl => hevent _ rfl l hl
  | some entry =>
    exact Logged.recorded (fun status l hl => hevent _ rfl l hl) fun e l hl => hevent _ rfl l hl

theorem commit_progress {name : String} (hname : name ∉ names) (atoms : TextMap String) :
    Logged (fun l => Progress expected «local» first holder names names l ∧ Unread l.history)
      (commit c.recorded name «local».containers[name]? atoms)
      (fun _ l => Progress expected «local» first holder (names ++ [name]) (names ++ [name]) l ∧
        Unread l.history)
      (fun _ l => Sound expected «local» l) := by
  refine ((renew_progress c).mono (fun _ h => ⟨h.1, Or.inl h.2⟩) (fun _ _ h => h)
    fun _ _ h => h).bind fun _ => ?_
  refine Logged.bind (Q := fun _ l => Progress expected «local» first holder names names l ∧
    Fenced l.history holder) ?_ fun _ => ?_
  · apply Logged.of_each
    rintro l₀ ⟨hp, -, hfenced⟩
    refine (check_logged c l₀).mono (fun _ h => h) ?_ fun _ l hl => hp.sound.checkFailed hl
    rintro _ l rfl
    exact ⟨hp.checked, hfenced.checked⟩
  refine Logged.bind (Q := fun _ l => ∃ l₁, Progress expected «local» first holder names names l₁ ∧
    Fenced l₁.history holder ∧ l = l₁.attempt name) (fun run hrun => ⟨_, hrun.1, hrun.2, rfl⟩)
    fun _ => ?_
  refine Logged.bind (Q := fun _ l => ∃ l₁, Progress expected «local» first holder names names l₁ ∧
    Fenced l₁.history holder ∧ l = l₁.attempt name) ?_ fun timeout => ?_
  · apply Logged.of_each
    rintro _ ⟨l₁, hp, hfenced, rfl⟩
    refine (budget_logged c _).mono (fun _ h => h) ?_ ?_
    · rintro _ l rfl
      exact ⟨l₁.checked, hp.checked, hfenced.checked, rfl⟩
    · rintro e l (hl | rfl)
      · exact (hp.sound.attempt name).checkFailed hl
      · exact (hp.sound.attempt name).checked hp.settled.quiet
  refine (mutate_progress c hname atoms timeout).bind fun reply => ?_
  have hlost (e : Failure) : Logged
      (fun l => Progress expected «local» first holder (names ++ [name]) names l ∧ Unread l.history)
      (do setAcquired false; throw e : EStateM Failure (Run (σ × List Event)) Unit)
      (fun _ l => Progress expected «local» first holder (names ++ [name]) (names ++ [name]) l ∧
        Unread l.history)
      (fun _ l => Sound expected «local» l) := fun run hrun => hrun.1.sound.giveUp
  cases reply with
  | error e => exact confirm_progress c hname
  | ok status =>
    by_cases h409 : status = 409
    · simp only [if_pos h409]
      exact hlost _
    · by_cases h401 : status = 401 ∨ status = 403
      · simp only [if_neg h409, if_pos h401]
        exact hlost _
      · simp only [if_neg h409, if_neg h401]
        exact confirm_progress c hname

/-- The container differs between the two sides. -/
def changed («local» first : State) (name : String) : Bool :=
  match sameEntry name «local».containers[name]? first.containers[name]? with
  | .ok true => false
  | _ => true

/-- The names of `done` that differ are mutated and confirmed. -/
abbrev Uploaded (expected : String) («local» first : State) (holder : String) (done : List String)
    (l : Log) : Prop :=
  Progress expected «local» first holder (done.filter (changed «local» first))
    (done.filter (changed «local» first)) l ∧ Unread l.history

theorem uploadName_progress {done : List String} {name : String} (hname : name ∉ done) :
    Logged (Uploaded expected «local» first holder done) (uploadName c.recorded «local» first name)
      (fun _ => Uploaded expected «local» first holder (done ++ [name]))
      (fun _ l => Sound expected «local» l) := by
  have hfresh : name ∉ done.filter (changed «local» first) :=
    fun hmem => hname (List.mem_of_mem_filter hmem)
  unfold uploadName
  refine Logged.bind (Q := fun same l => Uploaded expected «local» first holder done l ∧
      sameEntry name «local».containers[name]? first.containers[name]? = .ok same)
    (Logged.lift (fun _ l hl hx => ⟨hl, hx⟩) fun _ l hl _ => hl.1.sound) fun same => ?_
  rintro run ⟨hl, hsame⟩
  cases same with
  | true =>
    have hchanged : changed «local» first name = false := by rw [changed, hsame]
    have hskip : (done ++ [name]).filter (changed «local» first) =
        done.filter (changed «local» first) := by
      rw [List.filter_append, List.filter_singleton, hchanged]
      simp
    change Uploaded expected «local» first holder (done ++ [name]) run.log
    rw [Uploaded, hskip]
    exact hl
  | false =>
    have hchanged : changed «local» first name = true := by rw [changed, hsame]
    have hnext : (done ++ [name]).filter (changed «local» first) =
        done.filter (changed «local» first) ++ [name] := by
      rw [List.filter_append, List.filter_singleton, hchanged]
      rfl
    have hcommit (atoms : TextMap String) :
        Logged (Uploaded expected «local» first holder done)
          (commit c.recorded name «local».containers[name]? atoms)
          (fun _ => Uploaded expected «local» first holder (done ++ [name]))
          (fun _ l => Sound expected «local» l) := by
      unfold Uploaded
      rw [hnext]
      exact commit_progress c hfresh atoms
    cases htarget : «local».containers[name]? with
    | none =>
      rw [htarget] at hcommit
      exact hcommit ∅ run hl
    | some target =>
      rw [htarget] at hcommit
      have hput : Logged (Uploaded expected «local» first holder done)
          (do
            renew c.recorded
            let atoms ← target.blobs.toList.foldlM (uploadBlob c.recorded) (∅, ∅)
            commit c.recorded name (some target) atoms.1)
          (fun _ => Uploaded expected «local» first holder (done ++ [name]))
          (fun _ l => Sound expected «local» l) := by
        have hrenew : Logged (Uploaded expected «local» first holder done) (renew c.recorded)
            (fun _ => Uploaded expected «local» first holder done)
            (fun _ l => Sound expected «local» l) :=
          (renew_progress c).mono (fun _ h => ⟨h.1, Or.inl h.2⟩)
            (fun _ _ h => ⟨h.1, h.2.1⟩) fun _ _ h => h
        exact hrenew.bind fun _ => (uploadBlobs_progress c _).bind fun atoms => hcommit atoms.1
      exact hput run hl

/-! ## The whole upload -/

theorem loop_progress :
    Logged (Uploaded expected «local» first holder [])
      ((uploadNames «local» first).forM (uploadName c.recorded «local» first))
      (fun _ => Uploaded expected «local» first holder (uploadNames «local» first))
      (fun _ l => Sound expected «local» l) := by
  refine Logged.forM fun done name rest hnames => uploadName_progress c ?_
  have hnodup := uploadNames_nodup «local» first
  rw [hnames] at hnodup
  have hdisjoint := (List.nodup_append.mp hnodup).2.2
  exact fun hmem => hdisjoint name hmem name List.mem_cons_self rfl

theorem sound_start : Sound expected «local» .start where
  steps := trivial
  unreleased := nofun
  ours := nofun
  owner := nofun
  names := nofun
  attempted h := absurd rfl h
  committed := ⟨[], List.nodup_nil, rfl, fun _ => ⟨nofun, nofun⟩⟩

/-- Right after the lease was granted: nothing is read or mutated yet. -/
def Log.granted (reply : LeaseReply) : Log :=
  { Log.start.checked.add (.acquire (.ok reply)) with
    owner := some reply.ownerChangeId, acquired := true }

theorem sound_acquiring (reply : Except Failure LeaseReply) :
    Sound expected «local» (Log.start.checked.add (.acquire reply)) :=
  (sound_start.checked settled_start.quiet).addAcquire rfl (by
    intro e he
    rw [List.mem_singleton.mp he]
    rfl) reply

theorem sound_granted {reply : LeaseReply} (hgranted : reply.Granted) :
    Sound expected «local» (Log.granted reply) :=
  (sound_acquiring _).grant hgranted

/-- The first read opens the upload. -/
theorem progress_first {reply : LeaseReply} (hgranted : reply.Granted)
    (hfirst : Import.digest first = .ok expected) :
    Progress expected «local» first reply.ownerChangeId [] []
      ((Log.granted reply).checked.readBack ∅ first) where
  sound := ((sound_granted hgranted).checked (settled_acquiring _).quiet).readBack
    (checked_settled _) ∅ first
  settled := checked_settled _
  owner := rfl
  opened := ⟨[.assertLocal (.ok ())], [.assertLocal (.ok ()), .assertLocal (.ok ())], _, reply, rfl,
    hgranted, rfl, hfirst⟩
  mutations := rfl
  mutated name := by simp [Log.readBack, Log.checked, Log.granted, Log.start, Log.add]
  confirmed name := by
    refine ⟨fun h => ?_, nofun⟩
    have hmutated := h.mutated
    cases hmutated
  firstRead := rfl

/-- What an upload that went through has done. -/
structure Completed (expected source : String) («local» first : State) (holder : String)
    (l : Log) : Prop where
  progress : Progress expected «local» first holder
    ((uploadNames «local» first).filter (changed «local» first))
    ((uploadNames «local» first).filter (changed «local» first)) l
  lastRead : ∃ last, (reads l.history).head? = some (l.mutated, .ok last) ∧
    Import.digest last = .ok source

/-- The final read is forced for everything that was mutated. -/
theorem last_progress (source : String) :
    Logged (Uploaded expected «local» first holder (uploadNames «local» first))
      (do
        renew c.recorded
        let forced := (← get).mutated
        let last ← remote c.recorded forced
        Cloud.require ((← Import.digest last) == source) .readback
        renew c.recorded)
      (fun _ l => Completed expected source «local» first holder l)
      (fun _ l => Sound expected «local» l) := by
  refine ((renew_progress c).mono (fun _ h => ⟨h.1, Or.inl h.2⟩) (fun _ _ h => h.1)
    fun _ _ h => h).bind fun _ => ?_
  intro run hrun
  rw [get_bind]
  have hread : Logged (· = run.log) (remote c.recorded run.mutated)
      (fun last l => Progress expected «local» first holder
          ((uploadNames «local» first).filter (changed «local» first))
          ((uploadNames «local» first).filter (changed «local» first)) l ∧
        (reads l.history).head? = some (l.mutated, .ok last))
      (fun _ l => Sound expected «local» l) := by
    refine (remote_logged c _ _).mono (fun _ h => h) ?_
      fun _ l hl => hrun.sound.readFailed hrun.settled hl
    rintro last l ⟨-, rfl⟩
    exact ⟨(hrun.checked.add (plain_remote _ _)).checked, rfl⟩
  refine (hread.bind fun last => ?_) run rfl
  refine Logged.bind (Q := fun digest l => (Progress expected «local» first holder
        ((uploadNames «local» first).filter (changed «local» first))
        ((uploadNames «local» first).filter (changed «local» first)) l ∧
      (reads l.history).head? = some (l.mutated, .ok last)) ∧ Import.digest last = .ok digest)
    (Logged.lift (fun _ l hl hx => ⟨hl, hx⟩) fun _ l hl _ => hl.1.sound) fun digest => ?_
  refine Logged.bind (Q := fun _ l => (Progress expected «local» first holder
        ((uploadNames «local» first).filter (changed «local» first))
        ((uploadNames «local» first).filter (changed «local» first)) l ∧
      (reads l.history).head? = some (l.mutated, .ok last)) ∧ Import.digest last = .ok source)
    (Logged.lift ?_ fun _ l hl _ => hl.1.1.sound) fun _ => ?_
  · rintro _ l ⟨hl, hdigest⟩ hx
    rw [Cloud.require_eq_ok, beq_iff_eq] at hx
    exact ⟨hl, hx ▸ hdigest⟩
  apply Logged.of_each
  rintro l₀ ⟨⟨hp, hlast⟩, hdigest⟩
  refine (renew_logged c l₀).mono (fun _ h => h) ?_
    fun _ l hl => hp.sound.renewFailed hp.settled hl
  rintro _ l ⟨reply, hreply, rfl⟩
  exact ⟨hp.renewed hreply (Or.inr fun _ h => h), last, hlast, hdigest⟩

theorem body_logged (source : String) (total : Nat) :
    Logged (· = Log.start) (body c.recorded «local» expected source total)
      (fun _ l => ∃ first holder, Completed expected source «local» first holder l)
      (fun _ l => Sound expected «local» l) := by
  have hstart : Sound expected «local» .start := sound_start
  refine ((budget_logged c _).mono (fun _ h => h) (fun _ _ h => h) ?_).bind fun timeout => ?_
  · rintro e l (hl | rfl)
    · exact hstart.checkFailed hl
    · exact hstart.checked settled_start.quiet
  refine Logged.bind (Q := fun reply l => l = Log.start.checked.add (.acquire (.ok reply)))
    (Logged.recorded (by rintro reply l rfl; rfl)
      (by rintro e l rfl; exact sound_acquiring _)) fun reply => ?_
  refine ((first_lease_logged c reply _ rfl).mono (fun _ h => h) (fun _ _ h => h) ?_).bind
    fun quota => ?_
  · rintro e l (rfl | ⟨hgranted, hl⟩)
    · exact sound_acquiring _
    · exact (sound_granted hgranted).checkFailed hl
  refine Logged.bind (Q := fun _ l => reply.Granted ∧ l = (Log.granted reply).checked)
    (Logged.lift (fun _ l hl _ => hl) ?_) fun _ => ?_
  · rintro e l ⟨hgranted, rfl⟩ -
    exact (sound_granted hgranted).checked (settled_acquiring _).quiet
  apply Logged.of_each
  rintro _ ⟨hgranted, rfl⟩
  have hopen : Sound expected «local» (Log.granted reply).checked :=
    (sound_granted hgranted).checked (settled_acquiring _).quiet
  refine ((remote_logged c _ ∅).mono (fun _ h => h) (fun _ _ h => h.2)
    fun _ l hl => hopen.readFailed (checked_settled _) hl).bind fun first => ?_
  refine Logged.bind (Q := fun digest l => l = (Log.granted reply).checked.readBack ∅ first ∧
      Import.digest first = .ok digest) (Logged.lift (fun _ l hl hx => ⟨hl, hx⟩) ?_) fun digest => ?_
  · rintro e l rfl -
    exact hopen.readBack (checked_settled _) ∅ first
  refine Logged.bind (Q := fun _ l => Progress expected «local» first reply.ownerChangeId [] [] l)
    (Logged.lift ?_ ?_) fun _ => ?_
  · rintro _ l ⟨rfl, hdigest⟩ hx
    rw [Cloud.require_eq_ok, beq_iff_eq] at hx
    exact progress_first hgranted (hx ▸ hdigest)
  · rintro e l ⟨rfl, -⟩ -
    exact hopen.readBack (checked_settled _) ∅ first
  have hrenew : Logged (fun l => Progress expected «local» first reply.ownerChangeId [] [] l)
      (renew c.recorded) (fun _ => Uploaded expected «local» first reply.ownerChangeId [])
      (fun _ l => Sound expected «local» l) :=
    (renew_progress c).mono (fun _ h => ⟨h, Or.inr fun _ hmem => hmem⟩)
      (fun _ _ h => ⟨h.1, h.2.1⟩) fun _ _ h => h
  refine hrenew.bind fun _ => (loop_progress c).bind fun _ => ?_
  exact (last_progress c source).mono (fun _ h => h) (fun _ l h => ⟨first, _, h⟩) fun _ _ h => h

end

end Flightdeck.Cloud.Write
