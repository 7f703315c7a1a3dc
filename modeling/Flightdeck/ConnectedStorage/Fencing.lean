import Flightdeck.ConnectedStorage.Helper

/-!
# The lease of the helper

What the answers of the service say about the lease, and that the process agrees: it changes the
account only while it holds the lease of the owner that the service confirmed last, and once an
answer left the lease in doubt it only reads.
-/

namespace Flightdeck.ConnectedStorage

open Foundation

/-! ## What the exchanges say -/

inductive Purpose where
  | read | block | lease | release | put | delete | commit | allocate
  deriving DecidableEq

/-- What a request is for, where the account and the title are stored at `base`. -/
def Request.purpose (base : Bytes) (r : Request) : Purpose :=
  if r.method = utf8 "GET" then .read
  else if r.host ≠ storageHost then .block
  else if r.path = grantPath base then .lease
  else if r.path = leasePath base then .release
  else if (base ++ utf8 "/savedgames/").isPrefixOf r.path then
    if r.method = utf8 "DELETE" then .delete else .put
  else if (utf8 "?commit=true").isSuffixOf r.path then .commit
  else .allocate

/-- The lease by the answers of the service: never asked for, confirmed for an owner, or in doubt
or released for good. -/
inductive Standing where
  | idle
  | holding (owner : Bytes)
  | gone

def Received.refused (r : Received) : Bool := failed r.hr || r.status == 403 || r.status == 409

section

variable [JsonText]

/-- The owner that an answer confirms. -/
def Received.confirmed (r : Received) : Option Bytes :=
  if failed r.hr = false ∧ (r.status = 200 ∨ r.status = 201) then
    (Lease.granted (JsonText.parse r.body)).toOption.map Prod.fst
  else
    none

namespace Standing

/-- A first answer confirms any owner, a later one only the same owner, and not as created. -/
def leased (received : Option Received) : Standing → Standing
  | idle =>
    match received.bind Received.confirmed with
    | some owner => holding owner
    | none => gone
  | holding owner =>
    if received.bind Received.confirmed = some owner ∧ received.map (·.status) = some 200 then
      holding owner
    else
      gone
  | gone => gone

def used (received : Option Received) : Standing → Standing
  | holding owner => if (received.map Received.refused).getD true then gone else holding owner
  | s => s

def after (base : Bytes) (s : Standing) (e : Exchange) : Standing :=
  match e.request.purpose base with
  | .lease => s.leased e.received
  | .release => gone
  | _ => s.used e.received

end Standing

/-- The lease after a history of exchanges, newest first. -/
def standing (base : Bytes) : List Exchange → Standing
  | [] => .idle
  | e :: older => (standing base older).after base e

/-- The lease is asked for only while it is not in doubt, and everything else but a read needs the
lease of the owner that was confirmed last. -/
def Allowed (base : Bytes) (older : List Exchange) (e : Exchange) : Prop :=
  match e.request.purpose base with
  | .read => True
  | .lease => standing base older ≠ .gone ∧ e.lease.uncertain = false
  | _ => e.lease.uncertain = false ∧
      ∃ owner, standing base older = .holding owner ∧ e.lease.held = true ∧ e.lease.owner = owner

/-- A value of the lease is never both held and uncertain, and it stays uncertain. -/
def LeaseAllowed (older : List Lease) (l : Lease) : Prop :=
  ¬ (l.held = true ∧ l.uncertain = true) ∧
    ((∃ l' ∈ older, l'.uncertain = true) → l.uncertain = true)

/-! ## What the process knows -/

/-- The part of the process that the argument is about. -/
structure View where
  base : Bytes
  lease : Lease
  leases : List Lease
  exchanges : List Exchange

def Process.view (p : Process) : View := ⟨p.base, p.lease, p.leases, p.exchanges⟩

/-- `P` of what the argument is about. -/
def On (P : View → Prop) (p : Process) : Prop := P p.view

def Agrees (l : Lease) (s : Standing) : Prop :=
  l.uncertain = true ∨ s = if l.held then .holding l.owner else .idle

/-- The invariant, at any moment; `stored` is the path that the process has stored, and `base` the
one that purposes are read by. -/
structure Safe (stored base : Bytes) (v : View) : Prop where
  stays : v.base = stored
  leases : EachStep LeaseAllowed (v.lease :: v.leases)
  exchanges : EachStep (Allowed base) v.exchanges

/-- The invariant, between requests. -/
structure Fenced (stored base : Bytes) (v : View) : Prop extends Safe stored base v where
  agrees : Agrees v.lease (standing base v.exchanges)

/-- A request that was answered while the lease was `l`, which has not been settled yet. -/
structure Pending (stored base : Bytes) (purpose : Purpose) (l : Lease) (r : Received)
    (v : View) : Prop extends Safe stored base v where
  lease : v.lease = l
  answered : ∃ e older, v.exchanges = e :: older ∧ e.request.purpose base = purpose ∧
    e.received = some r ∧ Agrees l (standing base older)

def Admits (purpose : Purpose) (l : Lease) : Prop :=
  match purpose with
  | .read => True
  | .lease => l.uncertain = false
  | _ => l.held = true

/-! ## One change at a time -/

variable {stored base : Bytes} {purpose : Purpose} {l : Lease} {r : Received} {v : View}
  {e : Exchange} {hr : HResult} {out : Out}

def View.leased (v : View) (l : Lease) : View :=
  { v with lease := l, leases := v.lease :: v.leases }

theorem uncertain_or_not_held (h : Safe stored base v) :
    ¬ (v.lease.held = true ∧ v.lease.uncertain = true) := h.leases.1.1

/-- A new value of the lease that keeps the doubt about the old one. -/
theorem Safe.leased (h : Safe stored base v) (hboth : ¬ (l.held = true ∧ l.uncertain = true))
    (hkeeps : v.lease.uncertain = true → l.uncertain = true) :
    Safe stored base (v.leased l) where
  stays := h.stays
  leases := by
    refine ⟨⟨hboth, ?_⟩, h.leases⟩
    rintro ⟨l', hmem, hl'⟩
    apply hkeeps
    rcases List.mem_cons.mp hmem with rfl | hmem
    · exact hl'
    · exact h.leases.1.2 ⟨l', hmem, hl'⟩
  exchanges := h.exchanges

theorem Safe.lost (h : Safe stored base v) : Fenced stored base (v.leased v.lease.lost) where
  toSafe := h.leased (fun hboth => nomatch hboth.1) fun _ => rfl
  agrees := .inl rfl

theorem Fenced.allowed (h : Fenced stored base v) (hlease : e.lease = v.lease)
    (hadmits : Admits (e.request.purpose base) v.lease) : Allowed base v.exchanges e := by
  have hheld : ∀ (_ : v.lease.held = true), standing base v.exchanges = .holding v.lease.owner := by
    intro hheld
    rcases h.agrees with huncertain | hs
    · exact absurd ⟨hheld, huncertain⟩ (uncertain_or_not_held h.toSafe)
    · rw [hs, if_pos hheld]
  unfold Allowed
  unfold Admits at hadmits
  rw [hlease]
  cases hp : e.request.purpose base <;> rw [hp] at hadmits
  case read => trivial
  case lease =>
    refine ⟨?_, hadmits⟩
    rcases h.agrees with huncertain | hs
    · rw [huncertain] at hadmits
      cases hadmits
    · rw [hs]
      split <;> exact fun hgone => nomatch hgone
  all_goals
    refine ⟨?_, v.lease.owner, hheld hadmits, hadmits, rfl⟩
    by_contra hnot
    exact uncertain_or_not_held h.toSafe ⟨hadmits, eq_true_of_ne_false hnot⟩

/-- A request that needs nothing but the lease as it is leaves the agreement as it is. -/
theorem Pending.used (h : Pending stored base purpose l r v) (hlease : purpose ≠ .lease)
    (hrelease : purpose ≠ .release) (hrefused : l.held = true → r.refused = false) :
    Fenced stored base v where
  toSafe := h.toSafe
  agrees := by
    obtain ⟨e, older, hv, hpurpose, hreceived, hagrees⟩ := h.answered
    have hafter : standing base v.exchanges = (standing base older).used (some r) := by
      rw [hv]
      change (standing base older).after base e = _
      unfold Standing.after
      rw [hpurpose, hreceived]
      cases purpose with
      | lease => exact absurd rfl hlease
      | release => exact absurd rfl hrelease
      | _ => rfl
    rw [hafter, h.lease]
    rcases hagrees with huncertain | hs
    · exact .inl huncertain
    · right
      rw [hs]
      by_cases hheld : l.held = true
      · rw [if_pos hheld]
        change (if r.refused then Standing.gone else .holding l.owner) = _
        rw [hrefused hheld]
        rfl
      · rw [if_neg hheld]
        rfl

omit [JsonText] in
theorem result_lost {status : UInt32} {body : Json} {renewal : Bool}
    (h : status ≠ 200 ∧ status ≠ 201) : (l.result status body renewal).1 = l.lost := by
  unfold Lease.result
  rw [if_pos h]

/-- The lease after an answer to a request for it is the one that the answer confirms. -/
theorem Pending.settled {renewal : Bool} (h : Pending stored base .lease l r v)
    (hcertain : l.uncertain = false) (hfirst : renewal = false → l.held = false)
    (hhr : failed r.hr = false) :
    Fenced stored base (v.leased (l.result r.status (JsonText.parse r.body) renewal).1) := by
  have hlost : Fenced stored base (v.leased l.lost) := h.lease ▸ h.toSafe.lost
  by_cases hstatus : r.status ≠ 200 ∧ r.status ≠ 201
  · rw [result_lost hstatus]
    exact hlost
  · unfold Lease.result
    rw [if_neg hstatus]
    cases hgranted : Lease.granted (JsonText.parse r.body) with
    | error e => exact hlost
    | ok grant =>
      obtain ⟨next, limit⟩ := grant
      dsimp only
      split
      · exact hlost
      · rename_i hgrants
        have hconfirmed : r.confirmed = some next := by
          unfold Received.confirmed
          rw [if_pos ⟨hhr, by by_contra hnot; exact hstatus (not_or.mp hnot)⟩, hgranted]
          rfl
        refine ⟨h.toSafe.leased (fun hboth => nomatch hboth.2) ?_, .inr ?_⟩
        · rw [h.lease, hcertain]
          exact fun huncertain => nomatch huncertain
        · obtain ⟨e, older, hv, hpurpose, hreceived, hagrees⟩ := h.answered
          have hs : standing base older = if l.held then .holding l.owner else .idle := by
            rcases hagrees with huncertain | hs
            · rw [hcertain] at huncertain
              cases huncertain
            · exact hs
          have hafter : standing base v.exchanges = (standing base older).leased (some r) := by
            rw [hv]
            change (standing base older).after base e = _
            unfold Standing.after
            rw [hpurpose, hreceived]
          change standing base v.exchanges = .holding next
          rw [hafter, hs]
          by_cases hheld : l.held = true
          · -- A lease that is held is only asked for again by a renewal.
            have hrenewal : renewal = true := by
              by_contra hnot
              rw [hfirst (eq_false_of_ne_true hnot)] at hheld
              cases hheld
            have hsame : r.status = 200 ∧ next = l.owner := by
              by_contra hnot
              apply hgrants
              rcases not_and_or.mp hnot with hstatus | hnext
              · exact ⟨hrenewal, .inl hstatus⟩
              · exact ⟨hrenewal, .inr (.inr hnext)⟩
            rw [if_pos hheld]
            change (if r.confirmed = some l.owner ∧ some r.status = some 200 then
              Standing.holding l.owner else .gone) = _
            rw [if_pos ⟨hsame.2 ▸ hconfirmed, congrArg some hsame.1⟩, hsame.2]
          · rw [if_neg hheld]
            change (match r.confirmed with
              | some owner => Standing.holding owner
              | none => .gone) = _
            rw [hconfirmed]

end

end Flightdeck.ConnectedStorage
