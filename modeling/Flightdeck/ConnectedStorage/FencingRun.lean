import Flightdeck.ConnectedStorage.Fencing
import Flightdeck.Foundation.Outcome

/-!
# The runs of the helper

Every function of the helper keeps the invariant of the lease.
-/

namespace Flightdeck.ConnectedStorage

open Foundation

variable {α β : Type}

/-! ## What leaves the lease and the exchanges alone -/

def Quiet (m : Run α) : Prop := ∀ p, (stateOf (m p)).view = p.view

namespace Quiet

theorem pure (a : α) : Quiet (Pure.pure a : Run α) := fun _ => rfl

theorem throw (e : Exit) : Quiet (MonadExcept.throw e : Run α) := fun _ => rfl

theorem bind {m : Run α} {f : α → Run β} (hm : Quiet m) (hf : ∀ a, Quiet (f a)) :
    Quiet (m >>= f) := by
  intro p
  have h := hm p
  change (stateOf (EStateM.bind m f p)).view = p.view
  unfold EStateM.bind
  cases hms : m p with
  | ok a p' =>
    rw [hms] at h
    exact (hf a p').trans h
  | error e p' =>
    rw [hms] at h
    exact h

theorem ite {c : Prop} [Decidable c] {m n : Run α} (hm : Quiet m) (hn : Quiet n) :
    Quiet (if c then m else n) := by
  by_cases h : c
  · rwa [if_pos h]
  · rwa [if_neg h]

theorem get : Quiet (MonadState.get : Run Process) := fun _ => rfl

theorem call (answers : Nat → α) : Quiet (ConnectedStorage.call answers) := fun _ => rfl

theorem compute (x : Except Thrown α) : Quiet (ConnectedStorage.compute x) := by
  intro p
  cases x <;> rfl

theorem risk (outside : Outside) : Quiet (ConnectedStorage.risk outside) :=
  (call _).bind fun _ => ite (throw _) (pure ())

theorem readExact (n : Nat) : Quiet (ConnectedStorage.readExact n) := by
  intro p
  unfold ConnectedStorage.readExact
  split <;> rfl

variable {c : Context}

theorem sameUser : Quiet (ConnectedStorage.sameUser c) := (call _).bind fun _ => pure _

theorem authorize (method : Bytes) (titlehub : Bool) :
    Quiet (ConnectedStorage.authorize c method titlehub) := by
  refine ite (pure _) ((call _).bind fun t => ite (pure _) ?_)
  split
  · exact throw _
  · exact ite (pure _) (ite (pure _) (ite (pure _) (ite (pure _) (pure _))))

theorem seed : Quiet (ConnectedStorage.seed c) := by
  refine get.bind fun p => ite (pure _) (ite (pure _) ((call _).bind fun file => ?_))
  cases file with
  | value value => exact fun _ => rfl
  | _ => exact pure _

variable [JsonText]

theorem readFrame : Quiet ConnectedStorage.readFrame := by
  refine (readExact 4).bind fun length => ?_
  cases length with
  | none => exact pure _
  | some length =>
    refine (compute _).bind fun _ => (readExact _).bind fun data => ?_
    cases data with
    | none => exact throw _
    | some data => exact (compute _).bind fun _ => pure _

theorem writeReply (outside : Outside) (j : Json) (body : Bytes) :
    Quiet (ConnectedStorage.writeReply outside j body) :=
  (compute _).bind fun _ => (call _).bind fun _ => ite (fun _ => rfl) (throw _)

theorem failure (outside : Outside) (code : String) (hr : HResult) (status : UInt32) :
    Quiet (ConnectedStorage.failure outside code hr status) := writeReply _ _ _

theorem allocatedUrl (body : Bytes) : Quiet (ConnectedStorage.allocatedUrl c body) :=
  (risk _).bind fun _ => (compute _).bind fun _ => compute _

end Quiet

variable [JsonText] {c : Context} {stored base : Bytes} {purpose : Purpose} {l : Lease}

/-- The error end of every rule. -/
def Stopped (stored base : Bytes) (_ : Exit) (p : Process) : Prop := On (Safe stored base) p

theorem Quiet.triple {m : Run α} (hm : Quiet m) {P : View → Prop}
    (hP : ∀ v, P v → Safe stored base v) :
    Triple (On P) m (fun _ => On P) (Stopped stored base) := by
  intro p hp
  have h := hm p
  cases hms : m p with
  | ok a p' =>
    rw [hms] at h
    exact (congrArg P h).mpr hp
  | error e p' =>
    rw [hms] at h
    exact hP _ ((congrArg P h).mpr hp)

omit [JsonText] in
/-- A fact beside the state is a hypothesis. -/
theorem fixed_triple {m : Run α} {P : View → Prop} {fact : Prop} {Q : α → Process → Prop}
    {E : Exit → Process → Prop} (h : fact → Triple (On P) m Q E) :
    Triple (On fun v => P v ∧ fact) m Q E := fun p hp => h hp.2 p hp.1

theorem quiet_fenced {m : Run α} (hm : Quiet m) :
    Triple (On (Fenced stored base)) m (fun _ => On (Fenced stored base)) (Stopped stored base) :=
  hm.triple fun _ h => h.toSafe

theorem loseLease_triple :
    Triple (On (Safe stored base)) loseLease (fun _ => On (Fenced stored base))
      (Stopped stored base) :=
  fun p hp => Safe.lost (v := p.view) hp

/-! ## Requests -/

/-- What is known after a request for `purpose`, made while the lease was `l`. -/
inductive Received.Known (stored base : Bytes) (purpose : Purpose) (l : Lease) (r : Received)
    (v : View) : Prop where
  | unsent (fenced : Fenced stored base v) (lease : v.lease = l) (failed : failed r.hr = true)
  | sent (pending : Pending stored base purpose l r v)

theorem Received.Known.safe {r : Received} {v : View} (h : r.Known stored base purpose l v) :
    Safe stored base v := by
  cases h with
  | unsent fenced => exact fenced.toSafe
  | sent pending => exact pending.toSafe

theorem connectedRequest_triple (outside : Outside) (request : Request)
    (hadmits : Admits (request.purpose base) l) :
    Triple (On fun v => Fenced stored base v ∧ v.lease = l) (connectedRequest outside request)
      (fun r => On (r.Known stored base (request.purpose base) l)) (Stopped stored base) := by
  unfold connectedRequest
  refine Triple.ite (fun _ => ?_) fun _ => ?_
  · refine ((Quiet.call _).triple fun _ h => h.1.toSafe).bind fun answer => ?_
    rintro p ⟨hfenced, rfl⟩
    have hsafe : ∀ received, Safe stored base
        { p.view with exchanges := ⟨request, received, p.lease⟩ :: p.exchanges } := fun received =>
      ⟨hfenced.stays, hfenced.leases, hfenced.allowed rfl hadmits, hfenced.exchanges⟩
    dsimp only
    cases hreceived : answer.received request.maximum with
    | none => exact hsafe none
    | some r =>
      exact .sent ⟨hsafe (some r), rfl, _, p.exchanges, rfl, rfl, rfl, hfenced.agrees⟩
  · rintro p ⟨hfenced, hlease⟩
    exact .unsent hfenced hlease rfl

/-- What is known once the lease was settled. -/
inductive Settled (stored base : Bytes) (purpose : Purpose) (l : Lease) (hr : HResult) (out : Out)
    (v : View) : Prop where
  | failed (fenced : Fenced stored base v) (failed : ConnectedStorage.failed hr = true)
  | refused (fenced : Fenced stored base v) (status : out.status = 403 ∨ out.status = 409)
  | released (safe : Safe stored base v) (purpose : purpose = .release)
  | used (fenced : Fenced stored base v) (other : purpose ≠ .lease) (kept : v.lease = l)
  | answered (asked : purpose = .lease) (succeeded : ConnectedStorage.failed hr = false)
    (pending : Pending stored base purpose l ⟨hr, out.status, out.headers, out.body⟩ v)

variable {hr : HResult} {out : Out} {v : View}

theorem Settled.safe (h : Settled stored base purpose l hr out v) : Safe stored base v := by
  cases h with
  | failed fenced => exact fenced.toSafe
  | refused fenced => exact fenced.toSafe
  | released safe => exact safe
  | used fenced => exact fenced.toSafe
  | answered _ _ pending => exact pending.toSafe

theorem Settled.fenced (h : Settled stored base purpose l hr out v) (hlease : purpose ≠ .lease)
    (hrelease : purpose ≠ .release) : Fenced stored base v := by
  cases h with
  | failed fenced => exact fenced
  | refused fenced => exact fenced
  | released _ h => exact absurd h hrelease
  | used fenced => exact fenced
  | answered h => exact absurd h hlease

/-- A request that was accepted leaves the lease as it was. -/
theorem Settled.kept (h : Settled stored base purpose l hr out v) (hlease : purpose ≠ .lease)
    (hrelease : purpose ≠ .release) (hsucceeded : ConnectedStorage.failed hr = false)
    (haccepted : accepted out.status = true) : Fenced stored base v ∧ v.lease = l := by
  cases h with
  | failed _ hfailed =>
    rw [hsucceeded] at hfailed
    cases hfailed
  | refused _ status =>
    rcases status with h | h <;> rw [h] at haccepted <;> cases haccepted
  | released _ h => exact absurd h hrelease
  | used fenced _ kept => exact ⟨fenced, kept⟩
  | answered h => exact absurd h hlease

theorem settled_of_known {lock : Bool} (hlock : lock = true ∨ purpose = .read)
    (h : (⟨hr, out.status, out.headers, out.body⟩ : Received).Known stored base purpose l v)
    (hkept : ¬ ((lock || v.lease.held) &&
      (failed hr || out.status == 403 || out.status == 409)) = true) :
    Settled stored base purpose l hr out v := by
  cases h with
  | unsent fenced _ hfailed => exact .failed fenced hfailed
  | sent pending =>
    rw [pending.lease] at hkept
    by_cases hlease : purpose = .lease
    · have htrue : lock = true := by
        rcases hlock with h | h
        · exact h
        · rw [hlease] at h
          cases h
      rw [htrue] at hkept
      refine .answered hlease ?_ pending
      cases hhr : failed hr with
      | false => rfl
      | true => simp [hhr] at hkept
    · by_cases hrelease : purpose = .release
      · exact .released pending.toSafe hrelease
      · refine .used (pending.used hlease hrelease fun hheld => ?_) hlease pending.lease
        rw [hheld, Bool.or_true, Bool.true_and] at hkept
        exact eq_false_of_ne_true hkept

theorem settle_triple {lock : Bool} (hlock : lock = true ∨ purpose = .read) :
    Triple (On ((⟨hr, out.status, out.headers, out.body⟩ : Received).Known stored base purpose l))
      (settle c hr out lock)
      (fun result => On (Settled stored base purpose l result.1 result.2))
      (Stopped stored base) := by
  refine (Quiet.sameUser.triple fun _ h => h.safe).bind fun same => Triple.ite (fun _ => ?_) fun _ => ?_
  · refine Triple.get_bind fun p hp => Triple.ite (fun hlost => ?_) fun hkept => ?_
    · have hsafe : ∀ q, q = p → On (Safe stored base) q := by
        rintro q rfl
        exact hp.safe
      refine (loseLease_triple.pre hsafe).bind fun _ => ?_
      rintro q hq
      rcases Bool.or_eq_true_iff.mp (Bool.and_eq_true_iff.mp hlost).2 with h | h
      · rcases Bool.or_eq_true_iff.mp h with h | h
        · exact .failed hq h
        · exact .refused hq (.inl (eq_of_beq h))
      · exact .refused hq (.inr (eq_of_beq h))
    · rintro q rfl
      exact settled_of_known hlock hp hkept
  · refine (loseLease_triple.pre fun _ h => h.safe).bind fun _ => ?_
    intro q hq
    exact .failed hq rfl

/-- An error of `authorize` is a failure. -/
def Failing (authorized : Except HResult (Except HResult (Bytes × Bytes))) : Prop :=
  ∀ hr, authorized = .error hr ∨ authorized = .ok (.error hr) → failed hr = true

omit [JsonText] in
theorem authorize_failing (method : Bytes) (titlehub : Bool) :
    Triple (fun _ => True) (authorize c method titlehub) (fun result _ => Failing result)
      fun _ _ => True := by
  have hend : ∀ {hr : HResult}, failed hr = true → Failing (.error hr) := by
    rintro hr hfailed _ (h | h) <;> cases h
    exact hfailed
  have hlater : ∀ {hr : HResult}, failed hr = true → Failing (.ok (.error hr)) := by
    rintro hr hfailed _ (h | h) <;> cases h
    exact hfailed
  have hcall : Triple (fun _ => True) (call c.outside.token) (fun _ _ => True) fun _ _ => True :=
    fun _ _ => trivial
  refine Triple.ite (fun _ _ _ => hend rfl) fun _ => hcall.bind fun t => ?_
  refine Triple.ite (fun hstart _ _ => hend hstart) fun _ => ?_
  cases t.wait with
  | none => exact fun _ _ => trivial
  | some hr =>
    refine Triple.ite (fun hwait _ _ => hend hwait) fun _ => ?_
    refine Triple.ite (fun _ _ _ => hend ?_) fun _ => ?_
    · split
      · assumption
      · rfl
    · refine Triple.ite (fun hresult _ _ => hlater hresult) fun _ => ?_
      refine Triple.ite (fun _ _ _ => hlater rfl) fun _ _ _ => ?_
      rintro _ (h | h) <;> cases h

theorem authorize_triple (method : Bytes) (titlehub : Bool) {P : View → Prop}
    (hP : ∀ v, P v → Safe stored base v) :
    Triple (On P) (authorize c method titlehub) (fun result => On fun v => P v ∧ Failing result)
      (Stopped stored base) := by
  intro p hp
  have hquiet := (Quiet.authorize (c := c) method titlehub).triple hP p hp
  have hfailing := authorize_failing (c := c) method titlehub p trivial
  cases hrun : authorize c method titlehub p with
  | ok result p' =>
    rw [hrun] at hquiet hfailing
    exact ⟨hquiet, hfailing⟩
  | error e p' =>
    rw [hrun] at hquiet
    exact hquiet

/-- The purpose of a request depends on where it goes only. -/
def Sends (base : Bytes) (titlehub : Bool) (method path : Bytes) (purpose : Purpose) : Prop :=
  ∀ fields input maximum,
    Request.purpose base ⟨Context.host titlehub, method, path, fields, input, maximum⟩ = purpose

theorem transmit_triple {request : Request} {authorized : Except HResult (Bytes × Bytes)}
    (hpurpose : ∀ fields, Request.purpose base { request with fields } = purpose)
    (hadmits : Admits purpose l) (hfailing : Failing (.ok authorized)) :
    Triple (On fun v => Fenced stored base v ∧ v.lease = l) (transmit c request authorized out)
      (fun result => On ((⟨result.1, result.2.status, result.2.headers, result.2.body⟩ :
        Received).Known stored base purpose l)) (Stopped stored base) := by
  cases authorized with
  | error hr =>
    rintro p ⟨hfenced, hlease⟩
    exact .unsent hfenced hlease (hfailing hr (.inr rfl))
  | ok secrets =>
    have hsent : Triple (On fun v => Fenced stored base v ∧ v.lease = l) _ _
        (Stopped stored base) :=
      connectedRequest_triple c.outside
        { request with fields := request.fields ++
          [(utf8 "Authorization", secrets.1), (utf8 "Signature", secrets.2)] }
        (by rw [hpurpose]; exact hadmits)
    rw [hpurpose] at hsent
    exact hsent.bind fun r p hp => hp

theorem send_triple {method input : Bytes} {r : Read} {titlehub lock : Bool}
    (hpurpose : Sends base titlehub method r.path purpose) (hadmits : Admits purpose l)
    (hlock : lock = true ∨ purpose = .read) :
    Triple (On fun v => Fenced stored base v ∧ v.lease = l)
      (send c method r input out titlehub lock)
      (fun result => On (Settled stored base purpose l result.1 result.2))
      (Stopped stored base) := by
  have hsafe : ∀ v, Fenced stored base v ∧ v.lease = l → Safe stored base v :=
    fun _ h => h.1.toSafe
  have hdenied : ∀ p, On (fun v => Fenced stored base v ∧ v.lease = l) p →
      On (Settled stored base purpose l E_ACCESSDENIED out) p := fun p hp => .failed hp.1 rfl
  refine (Quiet.sameUser.triple hsafe).bind fun same => Triple.ite (fun _ => ?_) fun _ => ?_
  · unfold sendFields
    refine Triple.get_bind fun p hp => Triple.ite (fun _ => ?_) fun _ => ?_
    · rintro q rfl
      exact hdenied q hp
    · have hstart : ∀ q, q = p → On (fun v => Fenced stored base v ∧ v.lease = l) q := by
        rintro q rfl
        exact hp
      refine (((Quiet.risk c.outside).triple hsafe).pre hstart).bind fun _ => ?_
      refine (authorize_triple method titlehub hsafe).bind fun result => ?_
      cases result with
      | error hr =>
        rintro q ⟨⟨hfenced, -⟩, hfailing⟩
        exact .failed hfenced (hfailing hr (.inl rfl))
      | ok authorized =>
        refine fixed_triple fun hfailing => ?_
        refine (transmit_triple (fun fields => hpurpose _ _ _) hadmits hfailing).bind fun result => ?_
        exact ((Quiet.risk c.outside).triple fun _ h => h.safe).bind fun _ => settle_triple hlock
  · refine (loseLease_triple.pre fun _ h => h.1.toSafe).bind fun _ => ?_
    intro q hq
    exact .failed hq rfl

/-! ## Where requests go -/

omit [JsonText] in
theorem sends_read {titlehub : Bool} {path : Bytes} :
    Sends base titlehub (utf8 "GET") path .read := fun _ _ _ => if_pos rfl

omit [JsonText] in
theorem sends_lease : Sends base false (utf8 "PUT") (grantPath base) .lease := by
  intro fields input maximum
  have hput : utf8 "PUT" ≠ utf8 "GET" := by decide
  unfold Request.purpose
  rw [if_neg hput, if_neg (fun h => h rfl), if_pos rfl]

omit [JsonText] in
theorem sends_self {titlehub : Bool} {method path : Bytes} :
    Sends base titlehub method path
      (Request.purpose base ⟨Context.host titlehub, method, path, [], [], 0⟩) := fun _ _ _ => rfl

omit [JsonText] in
/-- Only the paths of the lease start with an `l` after the path of the storage. -/
theorem purpose_elsewhere {r : Request} {d : UInt8} {rest : Bytes} (hd : d ≠ 108)
    (hpath : r.path = base ++ 47 :: d :: rest) :
    r.purpose base ≠ .lease ∧ r.purpose base ≠ .release := by
  have hlease : leasePath base = base ++ 47 :: 108 :: [111, 99, 107] := rfl
  have hgrant : ∃ rest', grantPath base = base ++ 47 :: 108 :: rest' :=
    ⟨_, List.append_assoc _ _ _⟩
  obtain ⟨rest', hgrant⟩ := hgrant
  have hother : ∀ {rest'}, r.path ≠ base ++ 47 :: 108 :: rest' := by
    intro rest' h
    rw [hpath] at h
    have htail := List.append_cancel_left h
    injection htail with _ htail
    injection htail with hhead _
    exact hd hhead
  have hne : r.path ≠ grantPath base ∧ r.path ≠ leasePath base := by
    rw [hgrant, hlease]
    exact ⟨hother, hother⟩
  unfold Request.purpose
  rw [if_neg hne.1, if_neg hne.2]
  constructor <;> split_ifs <;> exact fun h => nomatch h

omit [JsonText] in
theorem purpose_block {r : Request} (h : azureHost r.host = true) :
    r.purpose base ≠ .lease ∧ r.purpose base ≠ .release := by
  have hhost : r.host ≠ storageHost := by
    intro hsame
    rw [hsame] at h
    exact absurd h (by decide)
  unfold Request.purpose
  rw [if_pos hhost]
  constructor <;> split_ifs <;> exact fun h => nomatch h

omit [JsonText] in
/-- A lease that is held and not in doubt admits anything. -/
theorem admits_of_held (hheld : l.held = true) (hcertain : l.uncertain = false) :
    Admits purpose l := by
  cases purpose with
  | read => trivial
  | lease => exact hcertain
  | _ => exact hheld

theorem Fenced.certain {v : View} (h : Fenced stored base v) (hheld : v.lease.held = true) :
    v.lease.uncertain = false := by
  by_contra hnot
  exact uncertain_or_not_held h.toSafe ⟨hheld, eq_true_of_ne_false hnot⟩

/-! ## The lease -/

theorem send_fenced {method input : Bytes} {r : Read} {titlehub lock : Bool} {P : View → Prop}
    (hpurpose : Sends base titlehub method r.path purpose) (hlease : purpose ≠ .lease)
    (hrelease : purpose ≠ .release) (hlock : lock = true ∨ purpose = .read)
    (hP : ∀ v, P v → Fenced stored base v ∧ Admits purpose v.lease) :
    Triple (On P) (send c method r input out titlehub lock) (fun _ => On (Fenced stored base))
      (Stopped stored base) := by
  intro p hp
  have hfenced := hP p.view hp
  refine Ends.mono (send_triple (l := p.lease) hpurpose hfenced.2 hlock p ⟨hfenced.1, rfl⟩) ?_ ?_
  · exact fun result p' h => h.fenced hlease hrelease
  · exact fun _ _ h => h

theorem getRequest_triple {r : Read} {titlehub : Bool} :
    Triple (On (Fenced stored base)) (getRequest c r out titlehub)
      (fun _ => On (Fenced stored base)) (Stopped stored base) :=
  send_fenced sends_read (fun h => nomatch h) (fun h => nomatch h) (.inr rfl) fun _ h => ⟨h, trivial⟩

/-- What an answer to a request for the lease makes of it. -/
def Answers (stored base : Bytes) (out : Out) (renewal : Bool) (v : View) : Prop :=
  Safe stored base v ∧ Fenced stored base
    (v.leased (v.lease.result out.status (JsonText.parse out.body) renewal).1)

theorem Settled.answers {renewal : Bool} (h : Settled stored base .lease l hr out v)
    (hcertain : l.uncertain = false) (hfirst : renewal = false → l.held = false)
    (hhr : ConnectedStorage.failed hr = false) : Answers stored base out renewal v := by
  refine ⟨h.safe, ?_⟩
  cases h with
  | failed _ hfailed =>
    rw [hhr] at hfailed
    cases hfailed
  | refused fenced status =>
    have hstatus : out.status ≠ 200 ∧ out.status ≠ 201 := by
      rcases status with h | h <;> rw [h] <;> decide
    rw [result_lost hstatus]
    exact fenced.toSafe.lost
  | released _ h => cases h
  | used _ h => exact absurd rfl h
  | answered _ succeeded pending =>
    rw [pending.lease]
    exact pending.settled hcertain hfirst succeeded

theorem leaseAnswer_triple {renewal : Bool} {safe : Json} :
    Triple (On (Answers stored base out renewal))
      (leaseAnswer c out.status out.body renewal safe)
      (fun _ => On (Fenced stored base)) (Stopped stored base) := by
  refine ((Quiet.risk c.outside).triple fun _ h => h.1).bind fun _ => ?_
  refine Triple.get_bind fun p hp => ?_
  have hset : Triple (fun q => q = p)
      (setLease (p.lease.result out.status (JsonText.parse out.body) renewal).1)
      (fun _ => On (Fenced stored base)) (Stopped stored base) := by
    rintro q rfl
    exact hp.2
  refine hset.bind fun _ => (quiet_fenced (Quiet.compute _)).bind fun _ => ?_
  refine (quiet_fenced (Quiet.risk _)).bind fun _ => Triple.ite (fun _ => ?_) fun _ => ?_
  · exact (quiet_fenced (Quiet.compute _)).bind fun _ => quiet_fenced (Quiet.pure _)
  · exact quiet_fenced (Quiet.pure _)

theorem leaseAnswered_triple {renewal : Bool} {safe : Json} :
    Triple (On (Answers stored base out renewal)) (leaseAnswered c out renewal safe)
      (fun _ => On (Fenced stored base)) (Stopped stored base) := by
  have hattempt : Triple (On (Answers stored base out renewal))
      (attempt (leaseAnswer c out.status out.body renewal safe) : Run _)
      (fun result => On (match result with
        | .ok _ => Fenced stored base
        | .error _ => Safe stored base)) (Stopped stored base) :=
    Triple.attempt leaseAnswer_triple
  refine hattempt.bind fun result => ?_
  match result with
  | .ok safe => exact quiet_fenced (Quiet.pure _)
  | .error .process => exact fun _ h => h
  | .error (.thrown t) =>
    exact loseLease_triple.bind fun _ => quiet_fenced (Quiet.pure _)

theorem lockRequest_triple {renewal : Bool} {status : UInt32} {safe : Json} :
    Triple (On fun v => Fenced stored base v ∧
        (renewal = false → v.lease.held = false ∧ v.lease.uncertain = false))
      (lockRequest c base renewal status safe)
      (fun _ => On (Fenced stored base)) (Stopped stored base) := by
  have hdenied : ∀ result : HResult × UInt32 × Json, Triple (On fun v => Fenced stored base v ∧
      (renewal = false → v.lease.held = false ∧ v.lease.uncertain = false)) (pure result)
      (fun _ => On (Fenced stored base)) (Stopped stored base) := fun _ _ h => h.1
  refine Triple.ite (fun _ => ?_) fun _ => hdenied _
  refine (Quiet.seed.triple fun _ h => h.1.toSafe).bind fun hr => ?_
  refine Triple.get_bind fun p hp => Triple.ite (fun _ => ?_) fun hasked => ?_
  · exact (hdenied _).pre fun q hq => hq ▸ hp
  · have hheld : renewal = true → p.lease.held = true := by
      intro hrenewal
      rw [hrenewal] at hasked
      simpa using (not_or.mp (fun h => hasked (Bool.or_eq_true_iff.mpr h))).2
    have hcertain : p.lease.uncertain = false := by
      cases hrenewal : renewal with
      | true => exact hp.1.certain (hheld hrenewal)
      | false => exact (hp.2 hrenewal).2
    have hstart : ∀ q, q = p → On (fun v => Fenced stored base v ∧ v.lease = p.lease) q := by
      rintro q rfl
      exact ⟨hp.1, rfl⟩
    have hadmits : Admits .lease p.lease := hcertain
    refine ((send_triple sends_lease hadmits (.inl rfl)).pre hstart).bind fun result => ?_
    refine Triple.ite (fun hfailed => ?_) fun hsucceeded => ?_
    · intro q hq
      cases hq with
      | failed fenced => exact fenced
      | refused fenced => exact fenced
      | released _ h => cases h
      | used fenced => exact fenced
      | answered _ succeeded =>
        rw [succeeded] at hfailed
        cases hfailed
    · refine leaseAnswered_triple.pre fun q hq => ?_
      exact hq.answers hcertain (fun hrenewal => (hp.2 hrenewal).1)
        (eq_false_of_ne_true hsucceeded)

/-! ## Atoms -/

theorem compute_triple {x : Except Thrown α} {P : View → Prop}
    (hP : ∀ v, P v → Safe stored base v) :
    Triple (On P) (compute x) (fun a => On fun v => P v ∧ x = .ok a) (Stopped stored base) := by
  cases x with
  | ok a => exact fun _ h => ⟨h, rfl⟩
  | error e => exact fun p h => hP p.view h

omit [JsonText] in
theorem azureUrl_host {url : Bytes} {azure : Azure} (h : azureUrl url = .ok azure) :
    azureHost azure.host = true := by
  obtain ⟨_, -, h⟩ := bind_eq_ok.mp h
  split at h
  · cases h
  · obtain ⟨_, hhost, h⟩ := bind_eq_ok.mp h
    obtain ⟨_, -, h⟩ := bind_eq_ok.mp h
    split at h
    · cases h
    · obtain ⟨_, -, h⟩ := bind_eq_ok.mp h
      obtain ⟨_, -, h⟩ := bind_eq_ok.mp h
      obtain ⟨_, -, h⟩ := bind_eq_ok.mp h
      obtain rfl := pure_eq_ok.mp h
      unfold require at hhost
      by_contra hnot
      rw [if_neg hnot] at hhost
      cases hhost

theorem uploadBlocks_triple {azure : Azure} (hazure : azureHost azure.host = true)
    (hheld : l.held = true) (rows : List (Nat × Bytes)) (ids : List Json) :
    Triple (On fun v => Fenced stored base v ∧ v.lease = l) (uploadBlocks c azure rows ids)
      (fun _ => On (Fenced stored base)) (Stopped stored base) := by
  induction rows generalizing ids with
  | nil => exact fun _ h => h.1
  | cons row rows ih =>
    have hsafe : ∀ v, Fenced stored base v ∧ v.lease = l → Safe stored base v :=
      fun _ h => h.1.toSafe
    refine ((Quiet.risk c.outside).triple hsafe).bind fun _ => ?_
    intro p hp
    have hcertain : l.uncertain = false := by
      have hcertain := hp.1.certain (hp.2 ▸ hheld)
      rwa [hp.2] at hcertain
    refine Triple.bind (connectedRequest_triple c.outside _ (admits_of_held hheld hcertain))
      (fun r => ?_) p hp
    refine Triple.ite (fun _ => ?_) fun hstored => ?_
    · refine (loseLease_triple.pre fun _ h => Received.Known.safe h).bind fun _ => ?_
      exact quiet_fenced (Quiet.pure _)
    · refine (ih _).pre fun q hq => ?_
      rw [Bool.or_eq_true, not_or] at hstored
      have hfailed : failed r.hr = false := eq_false_of_ne_true hstored.1
      have haccepted : accepted r.status = true := by simpa using hstored.2
      cases hq with
      | unsent _ _ h =>
        rw [h] at hfailed
        cases hfailed
      | sent pending =>
        refine ⟨pending.used (And.left (purpose_block hazure)) (And.right (purpose_block hazure))
          fun _ => ?_, pending.lease⟩
        unfold Received.refused
        rw [hfailed, Bool.false_or, Bool.or_eq_false_iff]
        constructor
        · by_contra h
          rw [eq_of_beq (eq_true_of_ne_false h)] at haccepted
          cases haccepted
        · by_contra h
          rw [eq_of_beq (eq_true_of_ne_false h)] at haccepted
          cases haccepted

/-- A renewal needs nothing but the invariant. -/
theorem renew_triple {status : UInt32} {safe : Json} :
    Triple (On (Fenced stored base)) (lockRequest c base true status safe)
      (fun _ => On (Fenced stored base)) (Stopped stored base) :=
  lockRequest_triple.pre fun _ h => ⟨h, fun hfirst => nomatch hfirst⟩

/-- A request outside the lease, in a state that holds it. -/
theorem send_held {method input : Bytes} {r : Read} {p : Process} {d : UInt8} {rest : Bytes}
    (hp : On (Fenced stored base) p) (hheld : p.lease.held = true) (hd : d ≠ 108)
    (hpath : r.path = base ++ 47 :: d :: rest) :
    Triple (fun q => q = p) (send c method r input out false true)
      (fun _ => On (Fenced stored base)) (Stopped stored base) := by
  have hpurpose : Request.purpose base ⟨Context.host false, method, r.path, [], [], 0⟩ ≠ .lease ∧
      Request.purpose base ⟨Context.host false, method, r.path, [], [], 0⟩ ≠ .release :=
    purpose_elsewhere hd hpath
  intro q hq
  refine send_fenced (P := fun v => Fenced stored base v ∧ v.lease = p.lease) sends_self
    hpurpose.1 hpurpose.2 (.inl rfl) (fun v hv => ⟨hv.1, ?_⟩) q ?_
  · rw [hv.2]
    exact admits_of_held hheld (hp.certain hheld)
  · rw [hq]
    exact ⟨hp, rfl⟩

theorem atomCommit_triple {path atom payload rest : Bytes} {ids : List Json} {status : UInt32}
    (hpath : path = base ++ 47 :: 97 :: rest) :
    Triple (On (Fenced stored base)) (atomCommit c base path atom payload ids status)
      (fun _ => On (Fenced stored base)) (Stopped stored base) := by
  refine renew_triple.bind fun result => Triple.get_bind fun p hp => Triple.ite (fun _ => ?_)
    fun hgo => ?_
  · exact fun q hq => hq ▸ hp
  · have hheld : p.lease.held = true := by
      rw [Bool.or_eq_true, not_or] at hgo
      simpa using hgo.2
    have hstart : ∀ q, q = p → On (fun v => Fenced stored base v ∧ v.lease = p.lease) q := by
      rintro q rfl
      exact ⟨hp, rfl⟩
    refine (((Quiet.compute _).triple fun _ h => h.1.toSafe).pre hstart).bind fun input => ?_
    refine Triple.bind (Q := fun _ => On (Fenced stored base)) (fun q hq => ?_) fun _ =>
      Triple.ite (fun _ => quiet_fenced (Quiet.pure _)) fun _ => quiet_fenced (Quiet.pure _)
    have hlease : q.lease = p.lease := hq.2
    have hcommit : path ++ utf8 "?commit=true" =
        base ++ 47 :: 97 :: (rest ++ utf8 "?commit=true") := by
      rw [hpath]
      exact List.append_assoc _ _ _
    exact send_held hq.1 (hlease ▸ hheld) (by decide) hcommit q rfl

theorem allocatedUrl_host (body : Bytes) :
    Triple (fun _ => True) (allocatedUrl c body) (fun azure _ => azureHost azure.host = true)
      (fun _ _ => True) := by
  have hany : ∀ {α : Type} (m : Run α),
      Triple (fun _ => True) m (fun _ _ => True) (fun _ _ => True) := by
    intro α m p _
    cases h : m p <;> trivial
  refine (hany _).bind fun _ => (hany _).bind fun url => ?_
  intro p _
  cases h : azureUrl url with
  | ok azure => exact azureUrl_host h
  | error e => trivial

/-- What is caught, with a fact about what is not. -/
theorem attempt_triple {m : Run α} (hm : Quiet m) {R : α → Prop}
    (hR : Triple (fun _ => True) m (fun a _ => R a) fun _ _ => True) {P : View → Prop} :
    Triple (On P) (attempt m : Run _)
      (fun result => On fun v => P v ∧ ∀ a, result = .ok a → R a) (Stopped stored base) := by
  refine Triple.attempt fun p hp => ?_
  have hquiet := hm p
  have hfact := hR p trivial
  cases hrun : m p with
  | ok a p' =>
    rw [hrun] at hquiet hfact
    refine ⟨(congrArg P hquiet).mpr hp, ?_⟩
    rintro _ ⟨⟩
    exact hfact
  | error e p' =>
    rw [hrun] at hquiet
    refine ⟨(congrArg P hquiet).mpr hp, ?_⟩
    rintro _ ⟨⟩

theorem atomBlocks_triple {path atom payload rest : Bytes}
    (hpath : path = base ++ 47 :: 97 :: rest) (hheld : l.held = true) :
    Triple (On fun v => Fenced stored base v ∧ v.lease = l)
      (atomBlocks c base path atom payload out)
      (fun _ => On (Fenced stored base)) (Stopped stored base) := by
  refine (attempt_triple (Quiet.allocatedUrl _) (allocatedUrl_host _)).bind fun result =>
    fixed_triple fun hazure => ?_
  match result with
  | .error .process => exact fun _ h => h.1.toSafe
  | .error (.thrown t) =>
    refine (loseLease_triple.pre fun _ h => h.1.toSafe).bind fun _ => ?_
    exact quiet_fenced (Quiet.pure _)
  | .ok azure =>
    refine (uploadBlocks_triple (hazure azure rfl) hheld _ _).bind fun stored => ?_
    cases stored with
    | error ended => exact quiet_fenced (Quiet.pure _)
    | ok ids => exact atomCommit_triple hpath

theorem atomAllocate_triple {atom payload : Bytes} {status : UInt32} (hheld : l.held = true) :
    Triple (On fun v => Fenced stored base v ∧ v.lease = l)
      (atomAllocate c base atom payload status)
      (fun _ => On (Fenced stored base)) (Stopped stored base) := by
  have hpath : base ++ utf8 "/atoms/" ++ atom = base ++ 47 :: 97 :: (utf8 "toms/" ++ atom) :=
    List.append_assoc _ _ _
  have helsewhere : ∀ r : Request, r.path = base ++ utf8 "/atoms/" ++ atom →
      r.purpose base ≠ .lease ∧ r.purpose base ≠ .release := fun r hr =>
    purpose_elsewhere (by decide) (hr.trans hpath)
  have hpurpose := helsewhere ⟨Context.host false, utf8 "POST", _, [], [], 0⟩ rfl
  intro p hp
  have hcertain : l.uncertain = false := by
    have hcertain := hp.1.certain (hp.2 ▸ hheld)
    rwa [hp.2] at hcertain
  refine Triple.bind (send_triple sends_self (admits_of_held hheld hcertain) (.inl rfl))
    (fun result => ?_) p hp
  refine Triple.ite (fun _ => ?_) fun haccepted => ?_
  · exact fun q hq => hq.fenced hpurpose.1 hpurpose.2
  · refine (atomBlocks_triple hpath hheld).pre fun q hq => ?_
    rw [Bool.or_eq_true, not_or] at haccepted
    exact hq.kept hpurpose.1 hpurpose.2 (eq_false_of_ne_true haccepted.1) (by simpa using haccepted.2)

theorem atomUpload_triple {payload : Bytes} :
    Triple (On (Fenced stored base)) (atomUpload c base payload)
      (fun _ => On (Fenced stored base)) (Stopped stored base) := by
  have hend : ∀ {p : Process} (result : HResult × UInt32 × Json), On (Fenced stored base) p →
      Triple (fun q => q = p) (pure result : Run _) (fun _ => On (Fenced stored base))
        (Stopped stored base) := fun _ hp q hq => hq ▸ hp
  refine Triple.get_bind fun p hp => Triple.ite (fun _ => hend _ hp) fun _ => ?_
  refine ((quiet_fenced (Quiet.call _)).pre fun q hq => hq ▸ hp).bind fun atom => ?_
  cases atom with
  | none => exact quiet_fenced (Quiet.pure _)
  | some atom =>
    refine renew_triple.bind fun result => Triple.get_bind fun p hp => Triple.ite
      (fun _ => hend _ hp) fun hgo => ?_
    rw [Bool.or_eq_true, not_or] at hgo
    refine (atomAllocate_triple (l := p.lease) (by simpa using hgo.2)).pre ?_
    rintro q rfl
    exact ⟨hp, rfl⟩

/-! ## The requests of the parent -/

omit [JsonText] in
theorem containerPath_eq {name : Bytes} :
    containerPath base name = base ++ 47 :: 115 :: (utf8 "avedgames/" ++ percent name) :=
  List.append_assoc _ _ _

theorem containerPut_path {j : Json} {w w' : Write} (h : containerPut j w = .ok w') :
    ∃ rest, w'.path = w.path ++ rest := by
  unfold containerPut at h
  obtain ⟨_, -, h⟩ := bind_eq_ok.mp h
  obtain ⟨_, -, h⟩ := bind_eq_ok.mp h
  obtain ⟨display, -, h⟩ := bind_eq_ok.mp h
  obtain ⟨modified, -, h⟩ := bind_eq_ok.mp h
  obtain ⟨_, -, h⟩ := bind_eq_ok.mp h
  obtain ⟨list, -, h⟩ := bind_eq_ok.mp h
  obtain ⟨body, -, h⟩ := bind_eq_ok.mp h
  obtain ⟨_, -, h⟩ := bind_eq_ok.mp h
  obtain rfl := pure_eq_ok.mp h
  exact ⟨_, List.append_assoc _ _ _⟩

/-- A write that is neither for the lease nor an upload goes to a container. -/
theorem writeRequest_container {j : Json} {op : Bytes} {w : Write}
    (h : writeRequest j base op = .ok w)
    (hlease : ¬ (w.op = utf8 "lease_acquire" ∨ w.op = utf8 "lease_renew"))
    (hrelease : w.op ≠ utf8 "lease_release") (hatom : w.op ≠ utf8 "atom_upload") :
    ∃ rest, w.path = base ++ 47 :: 115 :: rest := by
  unfold writeRequest at h
  obtain ⟨limit, -, h⟩ := bind_eq_ok.mp h
  dsimp only at h
  split at h
  · rename_i hop
    obtain ⟨_, -, h⟩ := bind_eq_ok.mp h
    obtain ⟨_, -, h⟩ := bind_eq_ok.mp h
    have hsame : w.op = op := by
      split at h <;> exact (pure_eq_ok.mp h) ▸ rfl
    rw [← hsame] at hop
    rcases hop with hop | hop | hop
    · exact absurd (.inl hop) hlease
    · exact absurd (.inr hop) hlease
    · exact absurd hop hrelease
  · split at h
    · rename_i hop
      obtain ⟨_, -, h⟩ := bind_eq_ok.mp h
      obtain ⟨_, -, h⟩ := bind_eq_ok.mp h
      obtain rfl := pure_eq_ok.mp h
      exact absurd hop hatom
    · split at h
      · obtain ⟨wire, -, h⟩ := bind_eq_ok.mp h
        obtain ⟨name, -, h⟩ := bind_eq_ok.mp h
        split at h
        · obtain ⟨_, -, h⟩ := bind_eq_ok.mp h
          obtain ⟨_, -, h⟩ := bind_eq_ok.mp h
          obtain rfl := pure_eq_ok.mp h
          exact ⟨_, containerPath_eq⟩
        · obtain ⟨rest, hrest⟩ := containerPut_path h
          exact ⟨_, hrest.trans (by rw [containerPath_eq]; exact List.append_assoc _ _ _)⟩
      · cases h

theorem serveContainer_triple {w : Write} {rest : Bytes} (hpath : w.path = base ++ 47 :: 115 :: rest) :
    Triple (On (Fenced stored base)) (serveContainer c base w)
      (fun _ => On (Fenced stored base)) (Stopped stored base) := by
  refine renew_triple.bind fun result => Triple.get_bind fun p hp => Triple.ite (fun hgo => ?_)
    fun _ => ?_
  · rw [Bool.and_eq_true] at hgo
    exact send_held hp hgo.2 (by decide) hpath
  · exact fun q hq => hq ▸ hp

theorem serveMutation_triple {w : Write} {input : Bytes}
    (hpath : w.op ≠ utf8 "atom_upload" → ∃ rest, w.path = base ++ 47 :: 115 :: rest) :
    Triple (On (Fenced stored base)) (serveMutation c base w input)
      (fun _ => On (Fenced stored base)) (Stopped stored base) := by
  refine Triple.get_bind fun p hp => Triple.ite (fun _ => ?_) fun _ => ?_
  · exact fun q hq => hq ▸ hp
  · refine Triple.pre (P := On (Fenced stored base)) (Triple.ite (fun _ => ?_) fun hop => ?_)
      fun q hq => hq ▸ hp
    · exact atomUpload_triple.bind fun result => (quiet_fenced (Quiet.compute _)).bind fun _ =>
        quiet_fenced (Quiet.pure _)
    · obtain ⟨rest, hpath⟩ := hpath hop
      exact Triple.map (serveContainer_triple hpath)

theorem serveLease_triple {renewal : Bool} :
    Triple (On (Fenced stored base)) (serveLease c base renewal)
      (fun _ => On (Fenced stored base)) (Stopped stored base) := by
  refine Triple.get_bind fun p hp => Triple.ite (fun _ => ?_) fun hgo => ?_
  · exact fun q hq => hq ▸ hp
  · refine Triple.bind (Q := fun _ => On (Fenced stored base)) ?_ fun result =>
      (quiet_fenced (Quiet.compute _)).bind fun _ => quiet_fenced (Quiet.pure _)
    refine lockRequest_triple.pre ?_
    rintro q rfl
    refine ⟨hp, fun hfirst => ?_⟩
    have hidle : q.lease.held = false ∧ q.lease.uncertain = false := by
      rw [hfirst] at hgo
      simpa using hgo
    exact hidle

/-- Whatever the release was answered, the lease is lost. -/
theorem serveRelease_triple {w : Write} :
    Triple (On (Fenced stored base)) (serveRelease c w)
      (fun _ => On (Fenced stored base)) (Stopped stored base) := by
  refine Triple.get_bind fun p hp => Triple.ite (fun _ => ?_) fun hgo => ?_
  · exact fun q hq => hq ▸ hp
  · have hheld : p.lease.held = true := by
      rw [Bool.or_eq_true, Bool.or_eq_true, not_or, not_or] at hgo
      simpa using hgo.1.1
    have hstart : ∀ q, q = p → On (fun v => Fenced stored base v ∧ v.lease = p.lease) q := by
      rintro q rfl
      exact ⟨hp, rfl⟩
    refine ((send_triple sends_self (admits_of_held hheld (hp.certain hheld)) (.inl rfl)).pre
      hstart).bind fun result => ?_
    refine (loseLease_triple.pre fun _ h => Settled.safe h).bind fun _ => ?_
    exact quiet_fenced (Quiet.pure _)

theorem serveWrite_triple {j : Json} {op input : Bytes} {w : Write}
    (h : writeRequest j base op = .ok w) :
    Triple (On (Fenced stored base)) (serveWrite c base w input)
      (fun _ => On (Fenced stored base)) (Stopped stored base) := by
  refine Triple.ite (fun _ => serveLease_triple) fun hlease => ?_
  refine Triple.ite (fun _ => serveRelease_triple) fun hrelease => ?_
  exact serveMutation_triple (writeRequest_container h hlease hrelease)

theorem serveOperation_triple {j : Json} {op : Bytes} :
    Triple (On (Fenced stored base)) (serveOperation c base j op)
      (fun _ => On (Fenced stored base)) (Stopped stored base) := by
  refine Triple.ite (fun _ => ?_) fun _ => ?_
  · exact (quiet_fenced (Quiet.compute _)).bind fun r => Triple.map getRequest_triple
  · refine (compute_triple fun _ h => h.toSafe).bind fun w => fixed_triple fun hw => ?_
    refine (quiet_fenced (Quiet.readExact _)).bind fun input => ?_
    cases input with
    | none => exact quiet_fenced (Quiet.throw _)
    | some input =>
      exact (serveWrite_triple hw).bind fun result => quiet_fenced (Quiet.pure _)

theorem serve_triple {j : Json} :
    Triple (On (Fenced stored base)) (serve c base j)
      (fun _ => On (Fenced stored base)) (Stopped stored base) := by
  refine (quiet_fenced (Quiet.compute _)).bind fun op => ?_
  refine (quiet_fenced (Quiet.risk _)).bind fun _ => serveOperation_triple.bind fun result => ?_
  match result with
  | none => exact quiet_fenced (Quiet.failure _ _ _ _)
  | some (hr, out) =>
    exact Triple.ite (fun _ => quiet_fenced (Quiet.failure _ _ _ _)) fun _ =>
      quiet_fenced (Quiet.writeReply _ _ _)

/-- Any number of requests, in any order. -/
theorem loop_triple (left : Nat) :
    Triple (On (Fenced stored base)) (loop c base left)
      (fun _ => On (Fenced stored base)) (Stopped stored base) := by
  induction left with
  | zero =>
    refine (quiet_fenced Quiet.readFrame).bind fun frame => ?_
    cases frame with
    | none => exact quiet_fenced (Quiet.pure _)
    | some j => exact quiet_fenced (Quiet.throw _)
  | succ left ih =>
    refine (quiet_fenced Quiet.readFrame).bind fun frame => ?_
    cases frame with
    | none => exact quiet_fenced (Quiet.pure _)
    | some j => exact serve_triple.bind fun _ => ih

/-! ## The whole process -/

theorem findScid_triple :
    Triple (On (Fenced stored base)) (findScid c) (fun _ => On (Fenced stored base))
      (Stopped stored base) := by
  refine Triple.ite (fun _ => quiet_fenced (Quiet.pure _)) fun _ => ?_
  refine getRequest_triple.bind fun result => Triple.ite (fun _ => ?_) fun _ => ?_
  · exact (quiet_fenced (Quiet.failure _ _ _ _)).bind fun _ => quiet_fenced (Quiet.pure _)
  · split
    · exact quiet_fenced (Quiet.pure _)
    · exact (quiet_fenced (Quiet.failure _ _ _ _)).bind fun _ => quiet_fenced (Quiet.pure _)
    · exact quiet_fenced (Quiet.throw _)

/-- The invariant of the process when it ends, however it ends. -/
def Ended (p : Process) : Prop := On (Safe p.base p.base) p

theorem ended_of_safe {p : Process} (h : On (Safe stored stored) p) : Ended p := by
  have hbase : p.base = stored := h.stays
  unfold Ended
  rwa [hbase]

/-- Nothing that happens before the path of the storage is known depends on it. -/
def Starting (p : Process) : Prop := ∀ base, On (Fenced [] base) p

theorem Starting.ended {p : Process} (h : Starting p) : Ended p := ended_of_safe (h []).toSafe

theorem quiet_starting {m : Run α} (hm : Quiet m) :
    Triple Starting m (fun _ => Starting) (fun _ => Ended) :=
  (Triple.forall_pre fun base => (quiet_fenced hm : Triple (On (Fenced [] base)) m _ _)).mono
    (fun _ h => h) (fun _ _ h => h) fun _ _ h => ended_of_safe (h [])

theorem serveAccount_triple :
    Triple Starting (serveAccount c) (fun _ => Ended) (fun _ => Ended) := by
  have hscid : Triple Starting (findScid c) (fun _ => Starting) (fun _ => Ended) :=
    (Triple.forall_pre fun base =>
        (findScid_triple : Triple (On (Fenced [] base)) (findScid c) _ _)).mono
      (fun _ h => h) (fun _ _ h => h) fun _ _ h => ended_of_safe (h [])
  refine hscid.bind fun scid => ?_
  cases scid with
  | none => exact fun _ h => h.ended
  | some scid =>
    set base := utf8 "/connectedstorage/users/" ++ xuid c.runtime ++ utf8 "/scids/" ++ scid
    have hstore : Triple Starting (modify fun p => { p with base } : Run Unit)
        (fun _ => On (Fenced base base)) (fun _ => Ended) := fun p h =>
      { stays := rfl, leases := (h base).leases, exchanges := (h base).exchanges,
        agrees := (h base).agrees }
    refine hstore.bind fun _ => ?_
    have hloop : Triple (On (Fenced base base)) (loop c base 8192)
        (fun _ => On (Fenced base base)) (Stopped base base) := loop_triple 8192
    refine ((quiet_fenced (Quiet.writeReply _ _ _)).bind fun _ => hloop).mono (fun _ h => h)
      (fun _ _ h => ended_of_safe h.toSafe) fun _ _ h => ended_of_safe h

theorem main_triple (outside : Outside) :
    Triple Starting (main outside) (fun _ => Ended) (fun _ => Ended) := by
  refine (quiet_starting Quiet.readFrame).bind fun frame => ?_
  cases frame with
  | none => exact fun _ h => h.ended
  | some j =>
    refine (quiet_starting (Quiet.compute _)).bind fun init => ?_
    refine (quiet_starting (Quiet.call _)).bind fun account => ?_
    cases account with
    | error hr =>
      exact (quiet_starting (Quiet.failure _ _ _ _)).post fun _ _ h => h.ended
    | ok runtime => exact serveAccount_triple

theorem run_ended (outside : Outside) (input : Bytes) : Ended (run outside input) := by
  have hfailure : ∀ code hr p, Ended p → Ended (stateOf (failure outside code hr 0 p)) := by
    intro code hr p h
    have hview := Quiet.failure outside code hr 0 p
    have hbase := congrArg View.base hview
    unfold Ended On at h ⊢
    rw [hview]
    exact (congrArg (fun b => Safe b b p.view) hbase).mpr h
  have hstart : Starting { input } := fun base =>
    { stays := rfl
      leases := ⟨⟨fun h => (nomatch h.1), fun ⟨_, h, _⟩ => (nomatch h)⟩, trivial⟩
      exchanges := trivial
      agrees := .inr rfl }
  have hmain := main_triple outside { input } hstart
  unfold run
  match hrun : main outside { input } with
  | .ok _ p =>
    rw [hrun] at hmain
    exact hmain
  | .error .process p =>
    rw [hrun] at hmain
    exact hmain
  | .error (.thrown .invalid) p =>
    rw [hrun] at hmain
    exact hfailure _ _ p hmain
  | .error (.thrown .other) p =>
    rw [hrun] at hmain
    exact hfailure _ _ p hmain

/-! ## The lease over the life of a process -/

omit [JsonText] in
theorem mem_of_eachStep {ω : Type} {allowed : List ω → ω → Prop} {R : ω → Prop} {events : List ω}
    (h : EachStep allowed events) (hR : ∀ older event, allowed older event → R event) :
    ∀ event ∈ events, R event := by
  intro event hmem
  obtain ⟨newer, older, rfl⟩ := List.append_of_mem hmem
  exact hR older event h.at

theorem standing_gone {older : List Exchange} (h : standing base older = .gone)
    (between : List Exchange) : standing base (between ++ older) = .gone := by
  induction between with
  | nil => exact h
  | cons e between ih =>
    change (standing base (between ++ older)).after base e = .gone
    rw [ih]
    unfold Standing.after
    split <;> rfl

theorem Allowed.certain {older : List Exchange} {e : Exchange} (h : Allowed base older e)
    (hpurpose : e.request.purpose base ≠ .read) : e.lease.uncertain = false := by
  unfold Allowed at h
  cases hp : e.request.purpose base <;> rw [hp] at h hpurpose
  case read => exact absurd rfl hpurpose
  case lease => exact h.2
  all_goals exact h.1

theorem Allowed.read {older : List Exchange} {e : Exchange} (h : Allowed base older e)
    (hgone : standing base older = .gone) : e.request.purpose base = .read := by
  unfold Allowed at h
  rw [hgone] at h
  cases hp : e.request.purpose base <;> rw [hp] at h
  case lease => exact absurd rfl h.1
  all_goals
    obtain ⟨-, owner, hholding, -⟩ := h
    cases hholding

/-- The lease of a process, over all of its life. -/
structure LeaseLaws (p : Process) : Prop where
  exclusive : ∀ l ∈ p.lease :: p.leases, ¬ (l.held = true ∧ l.uncertain = true)
  /-- A lease that was in doubt once stays in doubt. -/
  lasting (newer older : List Lease) (l l' : Lease) :
    p.lease :: p.leases = newer ++ l :: older → l' ∈ older → l'.uncertain = true →
    l.uncertain = true
  /-- The account is changed under the lease of the owner that was confirmed last. -/
  fenced (newer older : List Exchange) (e : Exchange) :
    p.exchanges = newer ++ e :: older →
    e.request.purpose p.base ∈ [Purpose.commit, .put, .delete] →
    ∃ owner, standing p.base older = .holding owner ∧ e.lease.held = true ∧ e.lease.owner = owner
  /-- After an answer that put the lease in doubt, or a release, everything is a read. -/
  silent (newer between older : List Exchange) (e : Exchange) :
    p.exchanges = newer ++ e :: (between ++ older) → standing p.base older = .gone →
    e.request.purpose p.base = .read
  /-- So is everything that is sent while the lease is in doubt. -/
  doubtful : ∀ e ∈ p.exchanges, e.lease.uncertain = true → e.request.purpose p.base = .read

theorem helper_lease (outside : Outside) (input : Bytes) : LeaseLaws (run outside input) := by
  have h := run_ended outside input
  have hexclusive := mem_of_eachStep h.leases fun _ _ hl => hl.1
  have hsends : ∀ e ∈ (run outside input).exchanges, e.lease.uncertain = true →
      e.request.purpose (run outside input).base = .read := by
    refine mem_of_eachStep h.exchanges fun older e he huncertain => ?_
    by_contra hpurpose
    have hcertain := he.certain hpurpose
    rw [huncertain] at hcertain
    cases hcertain
  refine ⟨hexclusive, ?_, ?_, ?_, hsends⟩
  · intro newer older l l' heq hmem hl'
    have hleases := h.leases
    change EachStep LeaseAllowed ((run outside input).lease :: (run outside input).leases) at hleases
    rw [heq] at hleases
    exact hleases.at.2 ⟨l', hmem, hl'⟩
  · intro newer older e heq hpurpose
    have hexchanges := h.exchanges
    change EachStep _ (run outside input).exchanges at hexchanges
    rw [heq] at hexchanges
    have hallowed := hexchanges.at
    unfold Allowed at hallowed
    cases hp : e.request.purpose (run outside input).base <;> rw [hp] at hallowed hpurpose
    case put => exact hallowed.2
    case delete => exact hallowed.2
    case commit => exact hallowed.2
    all_goals exact absurd hpurpose (by decide)
  · intro newer between older e heq hgone
    have hexchanges := h.exchanges
    change EachStep _ (run outside input).exchanges at hexchanges
    rw [heq] at hexchanges
    exact hexchanges.at.read (standing_gone hgone between)

end Flightdeck.ConnectedStorage
