import Flightdeck.Foundation.Threads
import Flightdeck.Store.LicenseEvents

/-!
# License notifications

What holds of one registration in every run: it is notified of licenses that differ from the one
before, the last-seen license follows the notifications, and nothing starts once it was
unregistered.
-/

namespace Flightdeck.Store.LicenseEvents

open Foundation

/-! ## What the past says -/

/-- The license that the newest notification was about, or else the first one. -/
def newestQueued : List Event → Option GameLicense
  | [] => none
  | .registered license :: _ => some license
  | .queued license :: _ => some license
  | _ :: older => newestQueued older

/-- The license that was stored last, or else the first one. -/
def newestStored : List Event → Option GameLicense
  | [] => none
  | .registered license :: _ => some license
  | .stored license :: _ => some license
  | _ :: older => newestStored older

def newestRead : List Event → Option (Except HResult GameLicense)
  | [] => none
  | .read result :: _ => some result
  | _ :: older => newestRead older

/-- A notification is about the license that was just read, and differs from the one before; what is
stored is what was queued; nothing starts after an unregistration. -/
def Allowed (older : List Event) : Event → Prop
  | .queued license => newestRead older = some (.ok license) ∧
      ∃ before, newestQueued older = some before ∧ sameLicense before license = false
  | .stored license => newestQueued older = some license
  | .started => .unregistered ∉ older
  | _ => True

/-! ## One registration -/

/-- The registration that the thread is about. -/
def Thread.token : Thread → Option Token
  | .read t _ => some t
  | .compare t _ _ => some t
  | .submit t _ _ => some t
  | .finish t _ _ => some t
  | .claimed t => some t
  | .callback t => some t
  | .unregister t _ _ => some t
  | .draining t => some t
  | .eraseIfIdle t _ => some t
  | _ => none

/-- The thread polls its registration. -/
def Thread.polls : Thread → Bool
  | .read _ _ => true
  | .compare _ _ _ => true
  | .submit _ _ _ => true
  | .finish _ _ _ => true
  | _ => false

/-- The thread runs a callback of its registration. -/
def Thread.calls : Thread → Bool
  | .claimed _ => true
  | .callback _ => true
  | _ => false

/-- What the process holds of one registration. -/
structure View where
  reg : Option Registration
  listed : Bool
  past : List Event
  threads : List Thread

def Process.view (sys : Process) (t : Token) : View where
  reg := sys.manager.registrations t
  listed := decide (t ∈ sys.manager.listed)
  past := sys.past t
  threads := about Thread.token t sys.threads

namespace View

/-- No callback runs, and none will. -/
def Idle (reg : Option Registration) : Prop :=
  ∃ r, reg = some r ∧ r.active = false ∧ r.running = 0

def polling (reg : Option Registration) : Nat :=
  match reg with
  | none => 0
  | some r => if r.polling then 1 else 0

def running (reg : Option Registration) : Nat :=
  match reg with
  | none => 0
  | some r => r.running

/-- What is known of a thread that is about the registration. -/
def Sound (reg : Option Registration) (past : List Event) : Thread → Prop
  | .compare _ _ result => newestRead past = some result
  | .submit _ _ license => newestRead past = some (.ok license) ∧
      ∃ r, reg = some r ∧ sameLicense r.last license = false
  | .finish _ _ (some license) => newestQueued past = some license
  | .unregister _ _ _ => reg.isSome
  | .draining _ => ∃ r, reg = some r ∧ r.active = false
  | .eraseIfIdle _ true => Idle reg
  | _ => True

/-- A notification is queued whose license is not stored yet. -/
def Pending (past : List Event) (threads : List Thread) : Prop :=
  ∃ t rest license, Thread.finish t rest (some license) ∈ threads ∧
    newestQueued past = some license

structure Good (v : View) : Prop where
  order : EachStep Allowed v.past
  absent : v.reg = none → v.past = []
  last : ∀ r, v.reg = some r → newestStored v.past = some r.last
  settled : ∀ r, v.reg = some r → newestQueued v.past = some r.last ∨ Pending v.past v.threads
  polls : v.threads.countP Thread.polls ≤ polling v.reg
  calls : v.threads.countP Thread.calls ≤ running v.reg
  ended : .unregistered ∈ v.past → Idle v.reg
  gone : v.listed = false → v.reg.isSome → Idle v.reg
  threads : ∀ u ∈ v.threads, Sound v.reg v.past u

variable {reg : Option Registration} {listed : Bool} {past : List Event}
  {before old new after : List Thread}

/-- What is over for a registration stays over. -/
def Down (r r' : Registration) : Prop :=
  r.active = false → r'.active = false ∧ (r.running = 0 → r'.running = 0)

theorem Idle.map {f : Registration → Registration} (h : Idle reg)
    (hf : ∀ r, reg = some r → Down r (f r)) : Idle (reg.map f) := by
  obtain ⟨r, rfl, hactive, hrunning⟩ := h
  obtain ⟨hdown, hzero⟩ := hf r rfl hactive
  exact ⟨f r, rfl, hdown, hzero hrunning⟩

/-- A step that changes neither what was seen nor what happened. -/
theorem Good.update (g : Good ⟨reg, listed, past, before ++ old ++ after⟩)
    {f : Registration → Registration} (hlast : ∀ r, (f r).last = r.last)
    (hidle : ∀ r, reg = some r → Down r (f r))
    (hpolls : new.countP Thread.polls + polling reg ≤
      old.countP Thread.polls + polling (reg.map f))
    (hcalls : new.countP Thread.calls + running reg ≤
      old.countP Thread.calls + running (reg.map f))
    (hkeep : ∀ t rest license, Thread.finish t rest (some license) ∉ old)
    (hsound : ∀ u ∈ new, Sound (reg.map f) past u) :
    Good ⟨reg.map f, listed, past, before ++ new ++ after⟩ := by
  have hpending (h : Pending past (before ++ old ++ after)) :
      Pending past (before ++ new ++ after) := by
    obtain ⟨t, rest, license, hmem, hqueued⟩ := h
    refine ⟨t, rest, license, ?_, hqueued⟩
    simp only [List.mem_append] at hmem ⊢
    rcases hmem with (hmem | hmem) | hmem
    · exact .inl (.inl hmem)
    · exact absurd hmem (hkeep t rest license)
    · exact .inr hmem
  constructor
  · exact g.order
  · intro hnone
    exact g.absent (Option.map_eq_none_iff.mp hnone)
  · intro r hr
    obtain ⟨r₀, hr₀, rfl⟩ := Option.map_eq_some_iff.mp hr
    rw [hlast]
    exact g.last r₀ hr₀
  · intro r hr
    obtain ⟨r₀, hr₀, rfl⟩ := Option.map_eq_some_iff.mp hr
    rw [hlast]
    exact (g.settled r₀ hr₀).imp_right hpending
  · have := g.polls
    simp only [List.countP_append] at this ⊢
    omega
  · have := g.calls
    simp only [List.countP_append] at this ⊢
    omega
  · intro h
    exact (g.ended h).map hidle
  · intro hlisted hsome
    rw [Option.isSome_map] at hsome
    exact (g.gone hlisted hsome).map hidle
  · intro u hu
    have hold (hu : u ∈ before ++ old ++ after) : Sound (reg.map f) past u := by
      have hsound := g.threads u hu
      cases u with
      | compare t rest result => exact hsound
      | submit t rest license =>
        obtain ⟨hread, r, rfl, hsame⟩ := hsound
        exact ⟨hread, f r, rfl, by rwa [hlast]⟩
      | finish t rest license =>
        cases license with
        | none => trivial
        | some license => exact hsound
      | unregister t wait own =>
        show (reg.map f).isSome
        rw [Option.isSome_map]
        exact hsound
      | draining t =>
        obtain ⟨r, rfl, hactive⟩ := hsound
        exact ⟨f r, rfl, (hidle r rfl hactive).1⟩
      | eraseIfIdle t answers =>
        cases answers with
        | false => trivial
        | true => exact Idle.map hsound hidle
      | _ => trivial
    simp only [List.mem_append] at hu
    rcases hu with (hu | hu) | hu
    · exact hold (by simp [hu])
    · exact hsound u hu
    · exact hold (by simp [hu])

/-- The same, when the registration does not change. -/
theorem Good.move (g : Good ⟨reg, listed, past, before ++ old ++ after⟩)
    (hpolls : new.countP Thread.polls ≤ old.countP Thread.polls)
    (hcalls : new.countP Thread.calls ≤ old.countP Thread.calls)
    (hkeep : ∀ t rest license, Thread.finish t rest (some license) ∉ old)
    (hsound : ∀ u ∈ new, Sound reg past u) :
    Good ⟨reg, listed, past, before ++ new ++ after⟩ := by
  have hid : reg.map (fun r => r) = reg := by cases reg <;> rfl
  have h : Good ⟨reg.map fun r => r, listed, past, before ++ new ++ after⟩ := by
    apply g.update (fun _ => rfl) (fun _ _ hactive => ⟨hactive, fun h => h⟩) _ _ hkeep
    · rwa [hid]
    · rw [hid]
      omega
    · rw [hid]
      omega
  rwa [hid] at h

/-- An event that changes no license. -/
theorem Good.note (g : Good ⟨reg, listed, past, before⟩) {e : Event}
    (hallowed : Allowed past e) (hsome : reg.isSome)
    (hqueued : newestQueued (e :: past) = newestQueued past)
    (hstored : newestStored (e :: past) = newestStored past)
    (hread : newestRead (e :: past) = newestRead past ∨
      ∀ u ∈ before, u.polls = true → ∃ t rest, u = .read t rest)
    (hended : e = .unregistered → Idle reg) : Good ⟨reg, listed, e :: past, before⟩ := by
  constructor
  · exact ⟨hallowed, g.order⟩
  · rintro rfl
    cases hsome
  · intro r hr
    rw [hstored]
    exact g.last r hr
  · intro r hr
    show newestQueued (e :: past) = _ ∨ Pending (e :: past) before
    unfold Pending
    rw [hqueued]
    exact g.settled r hr
  · exact g.polls
  · exact g.calls
  · intro h
    rcases List.mem_cons.mp h with heq | hold
    · exact hended heq.symm
    · exact g.ended hold
  · exact g.gone
  · intro u hu
    have hsound := g.threads u hu
    cases u with
    | compare t rest result =>
      rcases hread with hread | honly
      · exact hread.trans hsound
      · obtain ⟨_, _, h⟩ := honly _ hu rfl
        cases h
    | submit t rest license =>
      rcases hread with hread | honly
      · exact ⟨hread.trans hsound.1, hsound.2⟩
      · obtain ⟨_, _, h⟩ := honly _ hu rfl
        cases h
    | finish t rest license =>
      cases license with
      | none => trivial
      | some license => exact hqueued.trans hsound
    | unregister t wait own => exact hsound
    | draining t => exact hsound
    | eraseIfIdle t answers =>
      cases answers with
      | false => trivial
      | true => exact hsound
    | _ => trivial

/-- The registration is one that is polled by no other thread. -/
theorem Good.alone (g : Good ⟨reg, listed, past, before ++ old ++ after⟩)
    (hold : old.countP Thread.polls = 1) :
    before.countP Thread.polls = 0 ∧ after.countP Thread.polls = 0 := by
  have hpolls := g.polls
  have hle : polling reg ≤ 1 := by
    unfold polling
    cases reg with
    | none => exact Nat.zero_le _
    | some r =>
      show (if r.polling = true then 1 else 0) ≤ 1
      split <;> omega
  simp only [List.countP_append] at hpolls
  omega

/-- Threads that do not poll know nothing of the licenses. -/
theorem Sound.of_quiet {past' : List Event} {reg' : Option Registration} {u : Thread}
    (h : Sound reg past u) (hpolls : u.polls ≠ true)
    (hreg : ∀ r, reg = some r → ∃ r', reg' = some r' ∧ Down r r') : Sound reg' past' u := by
  cases u with
  | compare t rest result => exact absurd rfl hpolls
  | submit t rest license => exact absurd rfl hpolls
  | finish t rest license => exact absurd rfl hpolls
  | unregister t wait own =>
    obtain ⟨r, hr⟩ := Option.isSome_iff_exists.mp h
    obtain ⟨r', hr', _⟩ := hreg r hr
    exact Option.isSome_iff_exists.mpr ⟨r', hr'⟩
  | draining t =>
    obtain ⟨r, hr, hactive⟩ := h
    obtain ⟨r', hr', hdown⟩ := hreg r hr
    exact ⟨r', hr', (hdown hactive).1⟩
  | eraseIfIdle t answers =>
    cases answers with
    | false => trivial
    | true =>
      obtain ⟨r, hr, hactive, hrunning⟩ := h
      obtain ⟨r', hr', hdown⟩ := hreg r hr
      exact ⟨r', hr', (hdown hactive).1, (hdown hactive).2 hrunning⟩
  | _ => trivial

/-- The notification is queued, and its license is stored next. -/
theorem Good.queue {t : Token} {rest : List Token} {license : GameLicense}
    (g : Good ⟨reg, listed, past, before ++ [.submit t rest license] ++ after⟩) :
    Good ⟨reg, listed, .queued license :: past,
      before ++ [.finish t rest (some license)] ++ after⟩ := by
  have hsubmit := g.threads (.submit t rest license) (by simp)
  obtain ⟨hread, r, rfl, hsame⟩ := hsubmit
  obtain ⟨hbefore, hafter⟩ := g.alone rfl
  have hquiet (u : Thread) (hu : u ∈ before ∨ u ∈ after) : u.polls ≠ true := by
    rcases hu with hu | hu
    · exact List.countP_eq_zero.mp hbefore u hu
    · exact List.countP_eq_zero.mp hafter u hu
  have hsame' (r' : Registration) (hr' : some r = some r') :
      ∃ r'', some r = some r'' ∧ Down r' r'' := ⟨r', hr', fun hactive => ⟨hactive, fun h => h⟩⟩
  have hsettled : newestQueued past = some r.last := by
    rcases g.settled r rfl with h | ⟨t', rest', license', hmem, _⟩
    · exact h
    · simp only [List.mem_append, List.mem_singleton] at hmem
      rcases hmem with (hmem | hmem) | hmem
      · exact absurd rfl (hquiet _ (.inl hmem))
      · cases hmem
      · exact absurd rfl (hquiet _ (.inr hmem))
  constructor
  · exact ⟨⟨hread, r.last, hsettled, hsame⟩, g.order⟩
  · nofun
  · exact g.last
  · intro r' hr'
    exact .inr ⟨t, rest, license, by simp, rfl⟩
  · have := g.polls
    simp only [List.countP_append] at this ⊢
    exact this
  · have := g.calls
    simp only [List.countP_append] at this ⊢
    exact this
  · intro h
    rcases List.mem_cons.mp h with heq | hold
    · cases heq
    · exact g.ended hold
  · exact g.gone
  · intro u hu
    simp only [List.mem_append, List.mem_singleton] at hu
    rcases hu with (hu | rfl) | hu
    · exact (g.threads u (by simp [hu])).of_quiet (hquiet u (.inl hu)) hsame'
    · rfl
    · exact (g.threads u (by simp [hu])).of_quiet (hquiet u (.inr hu)) hsame'

/-- The license of the notification is stored, and the poll of the registration is over. -/
theorem Good.store {t : Token} {rest : List Token} {license : GameLicense}
    (g : Good ⟨reg, listed, past, before ++ [.finish t rest (some license)] ++ after⟩)
    (hsome : reg.isSome) :
    Good ⟨reg.map fun r => { r with last := license, polling := false }, listed,
      .stored license :: past, before ++ [] ++ after⟩ := by
  obtain ⟨r, rfl⟩ := Option.isSome_iff_exists.mp hsome
  have hqueued : newestQueued past = some license :=
    g.threads (.finish t rest (some license)) (by simp)
  obtain ⟨hbefore, hafter⟩ := g.alone rfl
  have hidle (h : Idle (some r)) :
      Idle ((some r).map fun r => { r with last := license, polling := false }) :=
    h.map fun _ _ hactive => ⟨hactive, fun h => h⟩
  constructor
  · exact ⟨hqueued, g.order⟩
  · nofun
  · rintro _ ⟨⟩
    rfl
  · rintro _ ⟨⟩
    exact .inl hqueued
  · simp only [List.countP_append, hbefore, hafter]
    exact Nat.zero_le _
  · have := g.calls
    simp only [List.countP_append] at this ⊢
    exact this
  · intro h
    rcases List.mem_cons.mp h with heq | hold
    · cases heq
    · exact hidle (g.ended hold)
  · intro hlisted _
    exact hidle (g.gone hlisted rfl)
  · intro u hu
    simp only [List.append_nil, List.mem_append] at hu
    have hpolls : u.polls ≠ true := by
      rcases hu with hu | hu
      · exact List.countP_eq_zero.mp hbefore u hu
      · exact List.countP_eq_zero.mp hafter u hu
    apply (g.threads u (by simp; tauto)).of_quiet hpolls
    rintro _ ⟨⟩
    exact ⟨_, rfl, fun hactive => ⟨hactive, fun h => h⟩⟩

/-- A poll reads the license. -/
theorem Good.read {t : Token} {rest : List Token}
    (g : Good ⟨reg, listed, past, before ++ [.read t rest] ++ after⟩)
    (result : Except HResult GameLicense) :
    Good ⟨reg, listed, .read result :: past, before ++ [.compare t rest result] ++ after⟩ := by
  obtain ⟨hbefore, hafter⟩ := g.alone rfl
  have hsome : reg.isSome := by
    have := g.polls
    cases reg with
    | none => simp [List.countP_append, Thread.polls, polling] at this
    | some r => rfl
  have hnote : Good ⟨reg, listed, .read result :: past, before ++ [.read t rest] ++ after⟩ := by
    refine g.note (e := .read result) trivial hsome rfl rfl (.inr ?_) nofun
    intro u hu hpolls
    simp only [List.mem_append, List.mem_singleton] at hu
    rcases hu with (hu | rfl) | hu
    · exact absurd hpolls (List.countP_eq_zero.mp hbefore u hu)
    · exact ⟨t, rest, rfl⟩
    · exact absurd hpolls (List.countP_eq_zero.mp hafter u hu)
  refine hnote.move (Nat.le_refl 1) (Nat.le_refl 0) (by simp) ?_
  intro u hu
  rw [List.mem_singleton.mp hu]
  rfl

/-- A callback that was counted starts: its registration is not idle, so that no unregistration has
returned. -/
theorem Good.start {t : Token}
    (g : Good ⟨reg, listed, past, before ++ [.claimed t] ++ after⟩) :
    Good ⟨reg, listed, .started :: past, before ++ [.callback t] ++ after⟩ := by
  have hcalls : 1 ≤ running reg := by
    have := g.calls
    simp only [List.countP_append] at this
    have hone : [Thread.claimed t].countP Thread.calls = 1 := rfl
    omega
  have hsome : reg.isSome := by
    cases reg with
    | none => exact absurd hcalls (by decide)
    | some r => rfl
  have hnote : Good ⟨reg, listed, .started :: past, before ++ [.claimed t] ++ after⟩ := by
    refine g.note (e := .started) ?_ hsome rfl rfl (.inl rfl) nofun
    intro hended
    obtain ⟨r, rfl, _, hrunning⟩ := g.ended hended
    change 1 ≤ r.running at hcalls
    omega
  refine hnote.move (Nat.le_refl 0) (Nat.le_refl 1) (by simp) ?_
  intro u hu
  rw [List.mem_singleton.mp hu]
  trivial

/-- A new registration; nothing is about it yet but what found it gone. -/
theorem Good.insert (g : Good ⟨none, listed, past, before⟩) (store : StoreHandle)
    (owner : ContextId) (license : GameLicense) :
    Good ⟨some { store, owner, last := license }, true, .registered license :: past, before⟩ := by
  have hpast : past = [] := g.absent rfl
  subst hpast
  constructor
  · exact ⟨trivial, trivial⟩
  · nofun
  · rintro _ ⟨⟩
    rfl
  · rintro _ ⟨⟩
    exact .inl rfl
  · exact g.polls
  · exact g.calls
  · nofun
  · nofun
  · intro u hu
    have hpolls : u.polls ≠ true := List.countP_eq_zero.mp (Nat.le_zero.mp g.polls) u hu
    exact (g.threads u hu).of_quiet hpolls nofun

/-- The map no longer matters. -/
theorem Good.relist {v : View} (g : v.Good) (hidle : Idle v.reg) (listed : Bool) :
    Good { v with listed } :=
  { g with gone := fun _ _ => hidle }

end View

/-! ## The process -/

structure Process.Good (sys : Process) : Prop where
  views : ∀ t, (sys.view t).Good
  tokens : ∀ t, sys.manager.next ≤ t → sys.manager.registrations t = none

variable {sys : Process} {before old new after : List Thread}

theorem Process.view_eq (h : sys.threads = before ++ old ++ after) (t : Token) :
    sys.view t = ⟨sys.manager.registrations t, decide (t ∈ sys.manager.listed), sys.past t,
      about Thread.token t before ++ about Thread.token t old ++ about Thread.token t after⟩ := by
  unfold Process.view
  rw [h, about_append, about_append]

theorem Process.view_mk (m : Manager) (jobs : List Token) (past : Token → List Event) (t : Token) :
    Process.view ⟨m, before ++ new ++ after, jobs, past⟩ t =
      ⟨m.registrations t, decide (t ∈ m.listed), past t,
        about Thread.token t before ++ about Thread.token t new ++ about Thread.token t after⟩ :=
  Process.view_eq rfl t

/-- Only the registration `t` is affected. -/
theorem Process.Good.touch (g : sys.Good) (h : sys.threads = before ++ old ++ after)
    {sys' : Process} (t : Token) (hnext : sys'.manager.next = sys.manager.next)
    (hothers : ∀ t', t' ≠ t → about Thread.token t' new = about Thread.token t' old ∧
      sys'.manager.registrations t' = sys.manager.registrations t' ∧
      decide (t' ∈ sys'.manager.listed) = decide (t' ∈ sys.manager.listed) ∧
      sys'.past t' = sys.past t')
    (hsome : (sys'.manager.registrations t).isSome → (sys.manager.registrations t).isSome)
    (hview : View.Good ⟨sys.manager.registrations t, decide (t ∈ sys.manager.listed), sys.past t,
        about Thread.token t before ++ about Thread.token t old ++ about Thread.token t after⟩ →
      View.Good ⟨sys'.manager.registrations t, decide (t ∈ sys'.manager.listed), sys'.past t,
        about Thread.token t before ++ about Thread.token t new ++ about Thread.token t after⟩) :
    Process.Good { sys' with threads := before ++ new ++ after } := by
  constructor
  · intro t'
    have hold := g.views t'
    rw [Process.view_eq h] at hold
    rw [Process.view_mk]
    by_cases ht : t' = t
    · subst ht
      exact hview hold
    · obtain ⟨hnew, hreg, hlisted, hpast⟩ := hothers t' ht
      rw [hnew, hreg, hlisted, hpast]
      exact hold
  · intro t' ht'
    change sys'.manager.next ≤ t' at ht'
    rw [hnext] at ht'
    have hnone := g.tokens t' ht'
    by_cases ht : t' = t
    · subst ht
      by_contra hne
      have := hsome (Option.isSome_iff_ne_none.mpr hne)
      rw [hnone] at this
      cases this
    · show sys'.manager.registrations t' = none
      rw [(hothers t' ht).2.1, hnone]

/-- Threads come and go that are about `t`, and its registration is edited. -/
theorem Process.Good.edit (g : sys.Good) (h : sys.threads = before ++ old ++ after)
    (new : List Thread) (t : Token)
    {f : Registration → Registration}
    (hothers : ∀ t', t' ≠ t → about Thread.token t' new = about Thread.token t' old)
    (hlast : ∀ r, (f r).last = r.last)
    (hidle : ∀ r, sys.manager.registrations t = some r → View.Down r (f r))
    (hpolls : (about Thread.token t new).countP Thread.polls +
        View.polling (sys.manager.registrations t) ≤
      (about Thread.token t old).countP Thread.polls +
        View.polling ((sys.manager.registrations t).map f))
    (hcalls : (about Thread.token t new).countP Thread.calls +
        View.running (sys.manager.registrations t) ≤
      (about Thread.token t old).countP Thread.calls +
        View.running ((sys.manager.registrations t).map f))
    (hkeep : ∀ t' rest license, Thread.finish t' rest (some license) ∉ about Thread.token t old)
    (hsound : ∀ u ∈ about Thread.token t new,
      View.Sound ((sys.manager.registrations t).map f) (sys.past t) u) :
    Process.Good { sys.edit t f with threads := before ++ new ++ after } := by
  have hself : (sys.edit t f).manager.registrations t = (sys.manager.registrations t).map f :=
    Function.update_self ..
  have hnext : (sys.edit t f).manager.next = sys.manager.next := rfl
  apply g.touch h t hnext
  · intro t' ht
    exact ⟨hothers t' ht, Function.update_of_ne ht .., rfl, rfl⟩
  · rw [hself, Option.isSome_map]
    exact id
  · intro hview
    rw [hself]
    exact hview.update hlast hidle hpolls hcalls hkeep hsound

/-- Threads come and go that are about `t`. -/
theorem Process.Good.go (g : sys.Good) (h : sys.threads = before ++ old ++ after)
    (new : List Thread) (t : Token)
    (hothers : ∀ t', t' ≠ t → about Thread.token t' new = about Thread.token t' old)
    (hpolls : (about Thread.token t new).countP Thread.polls ≤
      (about Thread.token t old).countP Thread.polls)
    (hcalls : (about Thread.token t new).countP Thread.calls ≤
      (about Thread.token t old).countP Thread.calls)
    (hkeep : ∀ t' rest license, Thread.finish t' rest (some license) ∉ about Thread.token t old)
    (hsound : ∀ u ∈ about Thread.token t new,
      View.Sound (sys.manager.registrations t) (sys.past t) u) :
    Process.Good { sys with threads := before ++ new ++ after } :=
  g.touch h t rfl (fun t' ht => ⟨hothers t' ht, rfl, rfl, rfl⟩) id
    fun hview => hview.move hpolls hcalls hkeep hsound

/-- Threads come and go that are about no registration. -/
theorem Process.Good.outside (g : sys.Good) (h : sys.threads = before ++ old ++ after)
    (hold : ∀ t, about Thread.token t old = []) (hnew : ∀ t, about Thread.token t new = []) :
    Process.Good { sys with threads := before ++ new ++ after } := by
  apply g.go h new 0
  · intro t' _
    rw [hold, hnew]
  · rw [hold, hnew]
  · rw [hold, hnew]
  · rw [hold]
    nofun
  · rw [hnew]
    nofun

/-! ## Turns of the threads -/

theorem exists_of_any {test : Registration → Bool} {reg : Option Registration}
    (h : reg.any test = true) : ∃ r, reg = some r ∧ test r = true := by
  cases reg with
  | none => cases h
  | some r => exact ⟨r, rfl, h⟩

/-- An entry leaves the map when its registration is idle. -/
theorem Process.Good.eraseIfIdle (g : sys.Good) (t : Token) :
    (sys.eraseIfIdle t).Good := by
  unfold Process.eraseIfIdle
  by_cases hany : ((sys.manager.registrations t).any
      fun reg => !reg.active && reg.running == 0) = true
  · rw [if_pos hany]
    refine ⟨fun t' => ?_, g.tokens⟩
    by_cases ht : t' = t
    · subst ht
      obtain ⟨r, hr, htest⟩ := exists_of_any hany
      simp only [Bool.and_eq_true, Bool.not_eq_true', beq_iff_eq] at htest
      exact (g.views t').relist ⟨r, hr, htest.1, htest.2⟩ _
    · have hsame : decide (t' ∈ sys.manager.listed.erase t) = decide (t' ∈ sys.manager.listed) := by
        rw [decide_eq_decide, List.mem_erase_of_ne ht]
      have hview := g.views t'
      unfold Process.view at hview ⊢
      rw [hsame]
      exact hview
  · rw [if_neg hany]
    exact g

/-- An unregistration returns. -/
theorem Process.Good.unregistered (g : sys.Good) {t : Token}
    (hidle : View.Idle (sys.manager.registrations t)) : (sys.log t .unregistered).Good := by
  refine ⟨fun t' => ?_, g.tokens⟩
  have hview := g.views t'
  by_cases ht : t' = t
  · subst ht
    unfold Process.view Process.log
    simp only [Function.update_self]
    have hsome : (sys.manager.registrations t').isSome := by
      obtain ⟨r, hr, _⟩ := hidle
      rw [hr]
      rfl
    exact hview.note (e := .unregistered) trivial hsome rfl rfl (.inl rfl) fun _ => hidle
  · unfold Process.view Process.log
    simp only [Function.update_of_ne ht]
    exact hview

theorem Process.Good.insert (g : sys.Good) (store : StoreHandle) (owner : ContextId)
    (license : GameLicense) : (sys.insert store owner license).Good := by
  unfold Process.insert
  dsimp only
  split
  · exact g
  have hnone := g.tokens _ le_rfl
  refine ⟨fun t => ?_, fun t ht => ?_⟩
  · have hview := g.views t
    by_cases ht : t = sys.manager.next
    · subst ht
      unfold Process.view Process.log
      simp only [Function.update_self, List.mem_append, List.mem_singleton, or_true, decide_true]
      unfold Process.view at hview
      rw [hnone] at hview
      exact hview.insert store owner license
    · unfold Process.view Process.log
      simp only [Function.update_of_ne ht, List.mem_append, List.mem_singleton, ht, or_false]
      exact hview
  · change sys.manager.next + 1 ≤ t at ht
    show Function.update sys.manager.registrations sys.manager.next _ t = none
    rw [Function.update_of_ne (Nat.ne_of_gt ht)]
    exact g.tokens t (Nat.le_of_succ_le ht)

/-- An edit of a registration that matters to no thread. -/
theorem Process.Good.deactivate (g : sys.Good) (t : Token) : (sys.deactivate t).Good := by
  have h : sys.threads = sys.threads ++ [] ++ [] := by simp
  have hedit := g.edit h [] t (f := fun reg => { reg with active := false })
    (fun _ _ => rfl) (fun _ => rfl) (fun _ _ _ => ⟨rfl, fun h => h⟩)
    (by cases sys.manager.registrations t <;> exact le_rfl)
    (by cases sys.manager.registrations t <;> exact le_rfl) (by nofun) (by nofun)
  rw [List.append_nil, List.append_nil] at hedit
  exact hedit

theorem Process.Good.notification (g : sys.Good) (t : Token) (cancelled : Bool) :
    (sys.notification t cancelled).Good := by
  unfold Process.notification
  cases hreg : sys.manager.registrations t with
  | none => exact g
  | some reg =>
    by_cases hskip : (cancelled || !reg.active || !sys.manager.isOpen reg.owner) = true
    · simp only [if_pos hskip]
      exact g
    · simp only [if_neg hskip]
      have hactive : reg.active = true := by
        cases hactive : reg.active with
        | true => rfl
        | false => simp [hactive] at hskip
      have h : sys.threads = [] ++ [] ++ sys.threads := by simp
      have hedit := g.edit h [.claimed t] t
        (f := fun reg => { reg with running := reg.running + 1 })
        (fun t' ht => about_ne Thread.token rfl ht) (fun _ => rfl)
        (by
          rintro r hr hinactive
          rw [hreg] at hr
          cases hr
          rw [hactive] at hinactive
          cases hinactive)
        (by rw [about_same Thread.token rfl, hreg]; exact le_rfl)
        (by
          rw [about_same Thread.token rfl, hreg]
          show 1 + reg.running ≤ 0 + (reg.running + 1)
          omega)
        (by nofun) (by
          rw [about_same Thread.token rfl]
          intro u hu
          rw [List.mem_singleton.mp hu]
          trivial)
      exact hedit

theorem Process.Good.unregister (g : sys.Good) (store : StoreHandle) (t : Token)
    (wait own : Bool) : (sys.unregister store t wait own).Good := by
  unfold Process.unregister
  cases hreg : sys.manager.registrations t with
  | none => exact g
  | some reg =>
    by_cases hlisted : t ∉ sys.manager.listed
    · simp only [if_pos hlisted]
      apply g.unregistered
      have hsome : (sys.manager.registrations t).isSome := by
        rw [hreg]
        rfl
      exact (g.views t).gone (decide_eq_false hlisted) hsome
    · simp only [if_neg hlisted]
      by_cases hstore : reg.store ≠ store
      · rw [if_pos hstore]
        exact g
      · rw [if_neg hstore]
        have h : sys.threads = [] ++ [] ++ sys.threads := by simp
        apply g.go h [.unregister t wait own] t
        · exact fun t' ht => about_ne Thread.token rfl ht
        · rw [about_same Thread.token rfl]
          exact le_rfl
        · rw [about_same Thread.token rfl]
          exact le_rfl
        · nofun
        · rw [about_same Thread.token rfl]
          intro u hu
          rw [List.mem_singleton.mp hu]
          show (sys.manager.registrations t).isSome
          rw [hreg]
          rfl

/-- The thread is about no registration, and its step is over. -/
theorem Process.Good.drop (g : sys.Good) {u : Thread} (h : sys.threads = before ++ [u] ++ after)
    (hu : u.token = none) : Process.Good { sys with threads := before ++ [] ++ after } :=
  g.outside h (fun _ => about_none Thread.token hu) fun _ => rfl

section Turns

variable {t : Token} {rest : List Token} {input : Process.Input} {sys' : Process}

/-- A thread about `t` goes on as another one, and nothing else changes. -/
theorem Process.Good.advance (g : sys.Good) {u v : Thread}
    (h : sys.threads = before ++ [u] ++ after)
    (hu : u.token = some t) (hv : v.token = some t)
    (hpolls : [v].countP Thread.polls ≤ [u].countP Thread.polls)
    (hcalls : [v].countP Thread.calls ≤ [u].countP Thread.calls)
    (hkeep : ∀ t' rest license, u ≠ .finish t' rest (some license))
    (hsound : View.Sound (sys.manager.registrations t) (sys.past t) v) :
    Process.Good { sys with threads := before ++ [v] ++ after } := by
  apply g.go h [v] t
  · exact fun t' ht => about_pair Thread.token hu hv ht
  · rw [about_same Thread.token hu, about_same Thread.token hv]
    exact hpolls
  · rw [about_same Thread.token hu, about_same Thread.token hv]
    exact hcalls
  · rw [about_same Thread.token hu]
    intro t' rest license hmem
    exact hkeep t' rest license (List.mem_singleton.mp hmem).symm
  · rw [about_same Thread.token hv]
    intro w hw
    rw [List.mem_singleton.mp hw]
    exact hsound

/-- A thread about `t` goes on as another one, and something happened to the registration. -/
theorem Process.Good.happen (g : sys.Good) {u v : Thread} (h : sys.threads = before ++ [u] ++ after)
    (hu : u.token = some t) (hv : v.token = some t) (jobs : List Token) {e : Event}
    (hview : ∀ {reg listed past} {b a : List Thread},
      View.Good ⟨reg, listed, past, b ++ [u] ++ a⟩ →
      View.Good ⟨reg, listed, e :: past, b ++ [v] ++ a⟩) :
    Process.Good { { sys with jobs }.log t e with threads := before ++ [v] ++ after } := by
  have hnext : ({ sys with jobs }.log t e).manager.next = sys.manager.next := rfl
  apply g.touch h t hnext
  · intro t' ht
    exact ⟨about_pair Thread.token hu hv ht, rfl, rfl, Function.update_of_ne ht ..⟩
  · exact id
  · intro hold
    rw [about_same Thread.token hu] at hold
    rw [about_same Thread.token hv]
    have hpast : ({ sys with jobs }.log t e).past t = e :: sys.past t := Function.update_self ..
    rw [hpast]
    exact hview hold

theorem Process.Good.pollTurn (g : sys.Good)
    (h : sys.threads = before ++ [.poll (t :: rest)] ++ after)
    (hturn : sys.turn input (.poll (t :: rest)) = some (new, sys')) :
    Process.Good { sys' with threads := before ++ new ++ after } := by
  have hskip : Process.Good { sys with threads := before ++ [.poll rest] ++ after } :=
    g.outside h (fun _ => rfl) fun _ => rfl
  cases hreg : sys.manager.registrations t with
  | none =>
    simp only [Process.turn, hreg] at hturn
    cases hturn
    exact hskip
  | some reg =>
    simp only [Process.turn, hreg] at hturn
    by_cases hbusy : (!reg.active || reg.polling || !sys.manager.isOpen reg.owner) = true
    · rw [if_pos hbusy] at hturn
      cases hturn
      exact hskip
    · rw [if_neg hbusy] at hturn
      cases hturn
      have hfree : reg.polling = false := by
        cases hpolling : reg.polling with
        | false => rfl
        | true => simp [hpolling] at hbusy
      apply g.edit h [.read t rest] t
      · intro t' ht
        rw [about_ne Thread.token rfl ht]
        rfl
      · exact fun _ => rfl
      · exact fun _ _ hactive => ⟨hactive, fun h => h⟩
      · rw [about_same Thread.token rfl, hreg]
        show 1 + (if reg.polling = true then 1 else 0) ≤ 0 + 1
        rw [hfree]
        decide
      · rw [about_same Thread.token rfl, hreg]
        exact le_rfl
      · nofun
      · rw [about_same Thread.token rfl]
        intro v hv
        rw [List.mem_singleton.mp hv]
        trivial

theorem Process.Good.compareTurn (g : sys.Good) {result : Except HResult GameLicense}
    (h : sys.threads = before ++ [.compare t rest result] ++ after)
    (hturn : sys.turn input (.compare t rest result) = some (new, sys')) :
    Process.Good { sys' with threads := before ++ new ++ after } := by
  have hfinish : Process.Good { sys with threads := before ++ [.finish t rest none] ++ after } :=
    g.advance h rfl rfl (Nat.le_refl 1) (Nat.le_refl 0) nofun trivial
  cases hreg : sys.manager.registrations t with
  | none =>
    simp only [Process.turn, hreg] at hturn
    cases hturn
    exact hfinish
  | some reg =>
    cases result with
    | error hr =>
      simp only [Process.turn, hreg] at hturn
      cases hturn
      exact hfinish
    | ok next =>
      simp only [Process.turn, hreg] at hturn
      by_cases hchanged : (reg.active && sys.manager.isOpen reg.owner &&
          !sameLicense reg.last next) = true
      · rw [if_pos hchanged] at hturn
        cases hturn
        have hview := g.views t
        rw [Process.view_eq h, about_same Thread.token rfl] at hview
        have hread : newestRead (sys.past t) = some (.ok next) :=
          hview.threads (.compare t rest (.ok next)) (by simp)
        simp only [Bool.and_eq_true, Bool.not_eq_true'] at hchanged
        exact g.advance h rfl rfl (Nat.le_refl 1) (Nat.le_refl 0) nofun
          ⟨hread, reg, hreg, hchanged.2⟩
      · rw [if_neg hchanged] at hturn
        cases hturn
        exact hfinish

theorem Process.Good.submitTurn (g : sys.Good) {license : GameLicense}
    (h : sys.threads = before ++ [.submit t rest license] ++ after)
    (hturn : sys.turn input (.submit t rest license) = some (new, sys')) :
    Process.Good { sys' with threads := before ++ new ++ after } := by
  simp only [Process.turn] at hturn
  by_cases hfailed : failed input.submitted = true
  · rw [if_pos hfailed] at hturn
    cases hturn
    exact g.advance h rfl rfl (Nat.le_refl 1) (Nat.le_refl 0) nofun trivial
  · rw [if_neg hfailed] at hturn
    cases hturn
    exact g.happen h rfl rfl (t :: sys.jobs) View.Good.queue

theorem Process.Good.finishTurn (g : sys.Good) {license : Option GameLicense}
    (h : sys.threads = before ++ [.finish t rest license] ++ after)
    (hturn : sys.turn input (.finish t rest license) = some (new, sys')) :
    Process.Good { sys' with threads := before ++ new ++ after } := by
  have hview := g.views t
  rw [Process.view_eq h, about_same Thread.token rfl] at hview
  have hsome : (sys.manager.registrations t).isSome := by
    have hpolls := hview.polls
    cases hreg : sys.manager.registrations t with
    | none => simp [List.countP_append, Thread.polls, View.polling, hreg] at hpolls
    | some r => rfl
  have hothers (t' : Token) (ht : t' ≠ t) :
      about Thread.token t' [.poll rest] = about Thread.token t' [.finish t rest license] := by
    have hnone : about Thread.token t' [.finish t rest license] = [] :=
      about_ne Thread.token rfl ht
    rw [hnone]
    rfl
  have hself : about Thread.token t [.finish t rest license] = [.finish t rest license] :=
    about_same Thread.token rfl
  cases license with
  | none =>
    cases hturn
    apply g.edit h [.poll rest] t hothers
    · exact fun _ => rfl
    · exact fun _ _ hactive => ⟨hactive, fun h => h⟩
    · obtain ⟨r, hr⟩ := Option.isSome_iff_exists.mp hsome
      rw [hself, hr]
      show 0 + (if r.polling = true then 1 else 0) ≤ 1 + 0
      split <;> omega
    · rw [hself]
      cases sys.manager.registrations t <;> exact le_rfl
    · rw [hself]
      intro t' rest' license hmem
      cases List.mem_singleton.mp hmem
    · nofun
  | some license =>
    cases hturn
    have hmap : ((sys.edit t fun reg => { reg with last := license, polling := false }).log t
        (.stored license)).manager.registrations t = (sys.manager.registrations t).map
          fun reg => { reg with last := license, polling := false } := Function.update_self ..
    have hpast : ((sys.edit t fun reg => { reg with last := license, polling := false }).log t
        (.stored license)).past t = .stored license :: sys.past t := Function.update_self ..
    have hnext : ((sys.edit t fun reg => { reg with last := license, polling := false }).log t
        (.stored license)).manager.next = sys.manager.next := rfl
    apply g.touch h t hnext
    · intro t' ht
      exact ⟨hothers t' ht, Function.update_of_ne ht .., rfl, Function.update_of_ne ht ..⟩
    · exact fun _ => hsome
    · intro hold
      rw [hself] at hold
      rw [hpast, hmap]
      exact hold.store hsome

theorem Process.Good.callbackTurn (g : sys.Good)
    (h : sys.threads = before ++ [.callback t] ++ after) :
    Process.Good { sys.edit t fun reg => { reg with running := reg.running - 1 } with
      threads := before ++ [.eraseIfIdle t false] ++ after } := by
  apply g.edit h [.eraseIfIdle t false] t
  · exact fun t' ht => about_pair Thread.token rfl rfl ht
  · exact fun _ => rfl
  · intro r _ hactive
    exact ⟨hactive, fun hrunning => by rw [hrunning]⟩
  · rw [about_same Thread.token rfl, about_same Thread.token rfl]
    cases sys.manager.registrations t <;> exact le_rfl
  · rw [about_same Thread.token rfl, about_same Thread.token rfl]
    cases sys.manager.registrations t with
    | none => exact Nat.zero_le _
    | some r =>
      show 0 + r.running ≤ 1 + (r.running - 1)
      omega
  · rw [about_same Thread.token rfl]
    intro t' rest license hmem
    cases List.mem_singleton.mp hmem
  · rw [about_same Thread.token rfl]
    intro v hv
    rw [List.mem_singleton.mp hv]
    trivial

/-- A thread about `t` is over. -/
theorem Process.Good.leave (g : sys.Good) {u : Thread} (h : sys.threads = before ++ [u] ++ after)
    (hu : u.token = some t) (hkeep : ∀ t' rest license, u ≠ .finish t' rest (some license)) :
    Process.Good { sys with threads := before ++ [] ++ after } := by
  apply g.go h [] t
  · intro t' ht
    rw [about_ne Thread.token hu ht]
    rfl
  · exact Nat.zero_le _
  · exact Nat.zero_le _
  · rw [about_same Thread.token hu]
    intro t' rest license hmem
    exact hkeep t' rest license (List.mem_singleton.mp hmem).symm
  · nofun

/-- What the thread that unregisters finds when no callback runs. -/
theorem idle_of_any {reg : Option Registration} (hactive : ∀ r, reg = some r → r.active = false)
    (h : reg.any (·.running == 0) = true) : View.Idle reg := by
  obtain ⟨r, rfl, hrunning⟩ := exists_of_any h
  exact ⟨r, rfl, hactive r rfl, eq_of_beq hrunning⟩

theorem Process.Good.unregisterTurn (g : sys.Good) {wait own : Bool}
    (h : sys.threads = before ++ [.unregister t wait own] ++ after)
    (hturn : sys.turn input (.unregister t wait own) = some (new, sys')) :
    Process.Good { sys' with threads := before ++ new ++ after } := by
  have gdown := g.deactivate t
  have hview := g.views t
  rw [Process.view_eq h, about_same Thread.token rfl] at hview
  have hsome : (sys.manager.registrations t).isSome :=
    hview.threads (.unregister t wait own) (by simp)
  have hdown (r : Registration) (hr : (sys.deactivate t).manager.registrations t = some r) :
      r.active = false := by
    change Function.update sys.manager.registrations t _ t = some r at hr
    rw [Function.update_self] at hr
    obtain ⟨r₀, _, rfl⟩ := Option.map_eq_some_iff.mp hr
    rfl
  simp only [Process.turn] at hturn
  by_cases hwait : (wait && !own) = true
  · rw [if_pos hwait] at hturn
    cases hturn
    refine gdown.advance h rfl rfl le_rfl le_rfl nofun ?_
    have hself : (sys.deactivate t).manager.registrations t =
        (sys.manager.registrations t).map fun reg => { reg with active := false } :=
      Function.update_self ..
    obtain ⟨r, hr⟩ := Option.isSome_iff_exists.mp hsome
    exact ⟨{ r with active := false }, by rw [hself, hr]; rfl, rfl⟩
  · rw [if_neg hwait] at hturn
    by_cases hidle : ((sys.deactivate t).manager.registrations t).any (·.running == 0) = true
    · rw [if_pos hidle] at hturn
      cases hturn
      exact gdown.advance h rfl rfl le_rfl le_rfl nofun (idle_of_any hdown hidle)
    · rw [if_neg hidle] at hturn
      cases hturn
      exact gdown.leave h rfl nofun

theorem Process.Good.drainingTurn (g : sys.Good)
    (h : sys.threads = before ++ [.draining t] ++ after)
    (hturn : sys.turn input (.draining t) = some (new, sys')) :
    Process.Good { sys' with threads := before ++ new ++ after } := by
  simp only [Process.turn] at hturn
  by_cases hidle : (sys.manager.registrations t).any (·.running == 0) = true
  · rw [if_pos hidle] at hturn
    cases hturn
    have hview := g.views t
    rw [Process.view_eq h, about_same Thread.token rfl] at hview
    obtain ⟨r, hr, hactive⟩ := hview.threads (.draining t) (by simp)
    refine g.advance h rfl rfl le_rfl le_rfl nofun (idle_of_any (fun r' hr' => ?_) hidle)
    change sys.manager.registrations t = some r at hr
    rw [hr] at hr'
    cases hr'
    exact hactive
  · rw [if_neg hidle] at hturn
    cases hturn

theorem eraseIfIdle_threads (sys : Process) (t : Token) :
    (sys.eraseIfIdle t).threads = sys.threads := by
  unfold Process.eraseIfIdle
  split <;> rfl

theorem Process.Good.eraseTurn (g : sys.Good) {answers : Bool}
    (h : sys.threads = before ++ [.eraseIfIdle t answers] ++ after)
    (hturn : sys.turn input (.eraseIfIdle t answers) = some (new, sys')) :
    Process.Good { sys' with threads := before ++ new ++ after } := by
  have herase := g.eraseIfIdle t
  rw [← eraseIfIdle_threads sys t] at h
  cases hturn
  cases answers with
  | false => exact herase.leave h rfl nofun
  | true =>
    have hview := herase.views t
    rw [Process.view_eq h, about_same Thread.token rfl] at hview
    have hidle := hview.threads (.eraseIfIdle t true) (by simp)
    exact (herase.leave h rfl nofun).unregistered hidle

/-- Every turn of a thread. -/
theorem Process.Good.turn (g : sys.Good) {u : Thread}
    (h : sys.threads = before ++ [u] ++ after) (hturn : sys.turn input u = some (new, sys')) :
    Process.Good { sys' with threads := before ++ new ++ after } := by
  cases u with
  | register store owner license =>
    cases hturn
    have hthreads : (sys.insert store owner license).threads = sys.threads := by
      unfold Process.insert
      dsimp only
      split <;> rfl
    rw [← hthreads] at h
    exact (g.insert store owner license).drop h rfl
  | poll tokens =>
    cases tokens with
    | nil =>
      cases hturn
      exact g.drop h rfl
    | cons t rest => exact g.pollTurn h hturn
  | read t rest =>
    cases hturn
    exact g.happen h rfl rfl sys.jobs fun hview => hview.read _
  | compare t rest result => exact g.compareTurn h hturn
  | submit t rest license => exact g.submitTurn h hturn
  | finish t rest license => exact g.finishTurn h hturn
  | claimed t =>
    cases hturn
    exact g.happen h rfl rfl sys.jobs View.Good.start
  | callback t =>
    cases hturn
    exact g.callbackTurn h
  | unregister t wait own => exact g.unregisterTurn h hturn
  | draining t => exact g.drainingTurn h hturn
  | eraseIfIdle t answers => exact g.eraseTurn h hturn
  | contextClosed store cursor =>
    simp only [Process.turn] at hturn
    cases hfind : sys.manager.listed.find? fun t => decide (cursor < t) &&
        (sys.manager.registrations t).any (·.store == store) with
    | none =>
      rw [hfind] at hturn
      cases hturn
      exact g.drop h rfl
    | some t =>
      rw [hfind] at hturn
      cases hturn
      exact (g.deactivate t).outside h (fun _ => rfl) fun _ => rfl
  | contextClosing store t =>
    cases hturn
    rw [← eraseIfIdle_threads sys t] at h
    exact (g.eraseIfIdle t).outside h (fun _ => rfl) fun _ => rfl
  | shutdown cursor =>
    simp only [Process.turn] at hturn
    cases hfind : sys.manager.listed.find? fun t => decide (cursor < t) with
    | none =>
      rw [hfind] at hturn
      cases hturn
      exact g.drop h rfl
    | some t =>
      rw [hfind] at hturn
      cases hturn
      rw [← eraseIfIdle_threads sys t] at h
      exact (g.eraseIfIdle t).outside h (fun _ => rfl) fun _ => rfl

end Turns

/-! ## Every run -/

/-- A thread begins that is about no registration yet. -/
theorem Process.Good.spawn (g : sys.Good) {u : Thread} (hu : u.token = none) :
    Process.Good { sys with threads := u :: sys.threads } := by
  have h : sys.threads = [] ++ [] ++ sys.threads := rfl
  have hspawn : Process.Good { sys with threads := [] ++ [u] ++ sys.threads } :=
    g.outside h (fun _ => rfl) fun _ => about_none Thread.token hu
  exact hspawn

theorem Process.Good.stop (g : sys.Good) :
    Process.Good { sys with
      manager := { sys.manager with
        stopped := true
        registrations := fun t =>
          if t ∈ sys.manager.listed then
            (sys.manager.registrations t).map fun reg => { reg with active := false }
          else sys.manager.registrations t } } := by
  refine ⟨fun t => ?_, fun t ht => ?_⟩
  · by_cases hlisted : t ∈ sys.manager.listed
    · have hview := (g.deactivate t).views t
      unfold Process.view at hview ⊢
      simp only [if_pos hlisted]
      change View.Good ⟨Function.update sys.manager.registrations t _ t, _, _, _⟩ at hview
      rw [Function.update_self] at hview
      exact hview
    · have hview := g.views t
      unfold Process.view at hview ⊢
      simp only [if_neg hlisted]
      exact hview
  · have hnone := g.tokens t ht
    show (if t ∈ sys.manager.listed then
      (sys.manager.registrations t).map fun reg => { reg with active := false }
      else sys.manager.registrations t) = none
    rw [hnone]
    split <;> rfl

theorem Process.Good.step (g : sys.Good) {sys' : Process} (h : Step sys sys') : sys'.Good := by
  cases h with
  | turn input before after next thread sys' hthreads hturn =>
    rw [List.append_cons] at hthreads
    exact g.turn hthreads hturn
  | register store owner o license ho => exact g.spawn rfl
  | poll hrunning => exact g.spawn rfl
  | thrown before after t rest hthreads =>
    rw [List.append_cons] at hthreads
    have hleave := g.leave hthreads rfl nofun
    rw [List.append_nil] at hleave
    exact hleave
  | notification t cancelled hjob =>
    have hjobs : Process.Good { sys with jobs := sys.jobs.erase t } := ⟨g.views, g.tokens⟩
    exact hjobs.notification t cancelled
  | unregister store t wait own hown => exact g.unregister store t wait own
  | closeContext store c =>
    have hclosed : Process.Good { sys with
        manager := { sys.manager with
          isOpen := Function.update sys.manager.isOpen c false } } := ⟨g.views, g.tokens⟩
    exact hclosed.spawn rfl
  | shutdown => exact g.stop.spawn rfl

theorem Process.Good.of_loaded (h : Loaded sys) : sys.Good := by
  refine ⟨fun t => ?_, fun t _ => h.registrations t⟩
  unfold Process.view
  rw [h.registrations, h.past, h.threads]
  exact ⟨trivial, fun _ => rfl, nofun, nofun, Nat.zero_le _, Nat.zero_le _, nofun, nofun, nofun⟩

theorem Process.Good.of_reachable (h : Reachable sys) : sys.Good := by
  induction h with
  | start hloaded => exact .of_loaded hloaded
  | step _ hstep ih => exact ih.step hstep

/-- In every run, the license that a registration saw last is the first one or the one that was
stored last, and only the license of the newest notification is stored; a notification is about a
license that was just read, and which differs from the one of the notification before; and no
callback starts after an unregistration returned `TRUE`. -/
theorem license_notifications (h : Reachable sys) (t : Token) :
    EachStep Allowed (sys.past t) ∧
      ∀ reg, sys.manager.registrations t = some reg →
        newestStored (sys.past t) = some reg.last :=
  ⟨((Process.Good.of_reachable h).views t).order, ((Process.Good.of_reachable h).views t).last⟩

/-! ## A license that is bought -/

section

def loaded : Process :=
  { manager := {
      registrations := fun _ => none, listed := [], next := 1, stopped := false
      isOpen := fun _ => true }
    threads := [], jobs := [], past := fun _ => [] }

/-- The turn of the only thread. -/
def Process.alone (sys : Process) (input : Process.Input) : Process :=
  match sys.threads with
  | [u] =>
    match sys.turn input u with
    | some (next, sys') => { sys' with threads := next }
    | none => sys
  | _ => sys

theorem Reachable.alone (h : Reachable sys) (input : Process.Input) :
    Reachable (sys.alone input) := by
  unfold Process.alone
  cases hthreads : sys.threads with
  | nil => exact h
  | cons u rest =>
    cases rest with
    | cons v rest => exact h
    | nil =>
      cases hturn : sys.turn input u with
      | none =>
        simp only [hturn]
        exact h
      | some next =>
        simp only [hturn]
        have hstep := Step.turn input [] [] next.1 u next.2 hthreads hturn
        simp only [List.nil_append, List.append_nil] at hstep
        exact h.step hstep

def trial : GameLicense :=
  { skuStoreId := utf8 "9NXN8GF8N9HT/0010" ++ [0], isActive := 1, isTrialOwnedByThisUser := 1
    isDiscLicense := 0, isTrial := 1, trialTimeRemainingInSeconds := 600
    trialUniqueId := List.replicate 64 0, expirationDate := 0 }

/-- The trial has counted on, which is no change. -/
def counted : GameLicense := { trial with trialTimeRemainingInSeconds := 540 }

def bought : GameLicense := { trial with isTrial := 0, trialTimeRemainingInSeconds := 0 }

def observing (license : GameLicense) : Process.Input := ⟨⟨true, some (S_OK, license), true⟩, S_OK⟩

def registered : Process :=
  { loaded with threads := [.register 5 7 trial] }.alone (observing trial)

/-- A poll of the only registration. -/
def Process.polled (sys : Process) (license : GameLicense) : Process :=
  let start := { sys with threads := .poll sys.manager.listed :: sys.threads }
  (List.range 6).foldl (fun sys _ => sys.alone (observing license)) start

theorem Reachable.polled (h : Reachable sys) (hrunning : sys.manager.stopped = false)
    (license : GameLicense) : Reachable (sys.polled license) := by
  have hrun (turns : List Nat) (sys : Process) (h : Reachable sys) :
      Reachable (turns.foldl (fun sys _ => sys.alone (observing license)) sys) := by
    induction turns generalizing sys with
    | nil => exact h
    | cons turn turns ih => exact ih _ (h.alone _)
  exact hrun _ _ (h.step (.poll hrunning))

def notified : Process := (registered.polled counted).polled bought

def called : Process :=
  ({ notified with jobs := notified.jobs.erase 1 }.notification 1 false).alone (observing bought)

theorem called_reachable : Reachable called := by
  have hloaded : Reachable loaded := .start ⟨fun _ => rfl, rfl, rfl, fun _ => rfl⟩
  have hread : Reachable { loaded with threads := [.register 5 7 trial] } :=
    hloaded.step (.register 5 7 ⟨true, some (S_OK, trial), true⟩ trial (by decide +kernel))
  have hregistered : Reachable registered := hread.alone _
  have hnotified : Reachable notified :=
    (hregistered.polled rfl counted).polled (by decide +kernel) bought
  exact (hnotified.step (.notification 1 false (by decide +kernel))).alone _

theorem license_notifications_called :
    called.past 1 = [.started, .stored bought, .queued bought, .read (.ok bought),
        .read (.ok counted), .registered trial] ∧
      EachStep Allowed (called.past 1) :=
  ⟨by rfl, (license_notifications called_reachable 1).1⟩

end

end Flightdeck.Store.LicenseEvents
