import Flightdeck.Desktop.Service

/-!
# What the evidence shows

The lock is held by one service at a time, a record that is returned is one whose service has
answered, and only a child is ever terminated.  A desktop service is found through the record as
long as no headless service has written it meanwhile.
-/

namespace Flightdeck.Desktop

/-! ## The invariant -/

/-- The process holds the lock as a service. -/
def Process.Holds (p : Process) : Prop := p.desktop = true ∧ p.phase ≠ .begun

def Process.Listens (p : Process) : Prop := p.phase = .bound ∨ p.phase = .serving

def Use.record : Use → Option Record
  | .verified _ record => some record
  | _ => none

/-- The record that a caller works with. -/
def Stage.record : Stage → Option Record
  | .checkStart _ record => some record
  | .probe use => use.record
  | .drop use => use.record
  | .request _ record => some record
  | .checkAgain _ record => some record
  | .refresh record => some record
  | .config record => some record
  | .returned record => record
  | _ => none

/-- The record whose service must have answered. -/
def Stage.confirmed : Stage → Option Record
  | .checkAgain _ record => some record
  | .refresh record => some record
  | .config record => some record
  | .returned record => record
  | _ => none

/-- Lock, record and services agree. -/
structure Services (s : State) : Prop where
  lock : ∀ pid, s.lock = some (.service pid) ↔ ∃ p, s.processes pid = some p ∧ p.Holds
  drawn : ∀ r ∈ s.issued, r.token < s.serial
  tokens : ∀ r ∈ s.issued, ∀ r' ∈ s.issued, r.token = r'.token → r = r'
  listening : ∀ pid p, s.processes pid = some p → p.Listens → p.record pid ∈ s.issued
  record : ∀ r, s.record = some r → r ∈ s.issued
  found : s.replaced = false → ∀ pid p, s.processes pid = some p → p.desktop = true →
    p.phase = .serving → s.record = some (p.record pid)

structure Caller.Sound (s : State) (id : Nat) (c : Caller) : Prop where
  probe : ∀ use, c.stage = .drop use → s.lock = some (.probe id)
  held : ∀ r, c.stage.record = some r → r ∈ s.issued
  confirmed : ∀ r, c.stage.confirmed = some r → r ∈ c.answered
  child : ∀ pid start, c.child = some (pid, start) → pid ∈ s.reserved ∧ (pid, start) ∈ c.spawned ∧
    ∀ p, s.processes pid = some p → p.start = start
  killed : ∀ k ∈ c.killed, k ∈ c.spawned

structure Inv (s : State) : Prop where
  services : Services s
  callers : ∀ id c, s.callers id = some c → c.Sound s id
  apart : ∀ id id' c c', s.callers id = some c → s.callers id' = some c' → id ≠ id' →
    ∀ pid, c.child.map Prod.fst = some pid → c'.child.map Prod.fst ≠ some pid

variable {s s' : State}

/-! ## What a step leaves to the callers -/

/-- What a caller relies on, except for its lock and its child. -/
structure Leaves (s s' : State) : Prop where
  issued : ∀ r ∈ s.issued, r ∈ s'.issued
  processes : ∀ pid ∈ s.reserved, ∀ p', s'.processes pid = some p' →
    ∃ p, s.processes pid = some p ∧ p.start = p'.start

theorem Leaves.refl (s : State) : Leaves s s := ⟨fun _ h => h, fun _ _ p h => ⟨p, h, rfl⟩⟩

theorem Caller.Sound.leaves {id : Nat} {c : Caller} (h : c.Sound s id) (hleaves : Leaves s s')
    (hlock : s.lock = some (.probe id) → s'.lock = some (.probe id))
    (hreserved : ∀ pid, c.child.map Prod.fst = some pid → pid ∈ s.reserved → pid ∈ s'.reserved) :
    c.Sound s' id where
  probe := fun use huse => hlock (h.probe use huse)
  held := fun r hr => hleaves.issued r (h.held r hr)
  confirmed := h.confirmed
  child := by
    intro pid start hchild
    obtain ⟨hmem, hspawned, hstart⟩ := h.child pid start hchild
    refine ⟨hreserved pid (by rw [hchild]; rfl) hmem, hspawned, fun p' hp' => ?_⟩
    obtain ⟨p, hp, hsame⟩ := hleaves.processes pid hmem p' hp'
    rw [← hsame]
    exact hstart p hp
  killed := h.killed

/-- A step of the services. -/
theorem Inv.services_step (h : Inv s) (hservices : Services s') (hleaves : Leaves s s')
    (hlock : ∀ id, s.lock = some (.probe id) → s'.lock = some (.probe id))
    (hcallers : s'.callers = s.callers) (hreserved : s'.reserved = s.reserved) : Inv s' where
  services := hservices
  callers := by
    intro id c hc
    rw [hcallers] at hc
    apply (h.callers id c hc).leaves hleaves (hlock id)
    intro pid _ hmem
    rwa [hreserved]
  apart := by
    rw [hcallers]
    exact h.apart

/-- A step of one caller. -/
theorem Inv.caller_step (h : Inv s) {id : Nat} {c c' : Caller} (hc : s.callers id = some c)
    (hservices : Services s') (hleaves : Leaves s s')
    (hlock : ∀ id', id' ≠ id → s.lock = some (.probe id') → s'.lock = some (.probe id'))
    (hreserved : ∀ pid, c.child.map Prod.fst ≠ some pid → pid ∈ s.reserved → pid ∈ s'.reserved)
    (hcallers : s'.callers = Function.update s.callers id (some c')) (hsound : c'.Sound s' id)
    (hchild : ∀ pid, c'.child.map Prod.fst = some pid → c.child.map Prod.fst = some pid ∨
      pid ∉ s.reserved) : Inv s' where
  services := hservices
  callers := by
    intro id' d hd
    rw [hcallers] at hd
    by_cases hid : id' = id
    · rw [hid, Function.update_self] at hd
      cases hd
      rw [hid]
      exact hsound
    · rw [Function.update_of_ne hid] at hd
      apply (h.callers id' d hd).leaves hleaves (hlock id' hid)
      intro pid hpid hmem
      exact hreserved pid (h.apart id' id d c hd hc hid pid hpid) hmem
  apart := by
    have hother : ∀ id' d, id' ≠ id → s.callers id' = some d → ∀ pid,
        d.child.map Prod.fst = some pid → c'.child.map Prod.fst ≠ some pid := by
      intro id' d hid hd pid hpid hsame
      cases hchild pid hsame with
      | inl hold => exact h.apart id' id d c hd hc hid pid hpid hold
      | inr hfresh =>
        obtain ⟨row, hrow, rfl⟩ := Option.map_eq_some_iff.mp hpid
        exact hfresh ((h.callers id' d hd).child row.1 row.2 hrow).1
    rw [hcallers]
    intro id₁ id₂ c₁ c₂ h₁ h₂ hne pid hpid
    by_cases hid₁ : id₁ = id
    · have hid₂ : id₂ ≠ id := fun hsame => hne (hid₁.trans hsame.symm)
      rw [hid₁, Function.update_self] at h₁
      rw [Function.update_of_ne hid₂] at h₂
      cases h₁
      intro hsame
      exact hother id₂ c₂ hid₂ h₂ pid hsame hpid
    · rw [Function.update_of_ne hid₁] at h₁
      by_cases hid₂ : id₂ = id
      · rw [hid₂, Function.update_self] at h₂
        cases h₂
        exact hother id₁ c₁ hid₁ h₁ pid hpid
      · rw [Function.update_of_ne hid₂] at h₂
        exact h.apart id₁ id₂ c₁ c₂ h₁ h₂ hne pid hpid

/-! ## Steps of the services -/

theorem processes_setProcess (s : State) (pid q : Pid) (p : Option Process) :
    (s.setProcess pid p).processes q = if q = pid then p else s.processes q :=
  Function.update_apply ..

theorem processes_endProcess (s : State) (pid q : Pid) :
    (s.endProcess pid).processes q = if q = pid then none else s.processes q :=
  Function.update_apply ..

/-- Callers and the lock of a probe make no difference. -/
theorem Services.congr (h : Services s)
    (hlock : ∀ pid, s'.lock = some (.service pid) ↔ s.lock = some (.service pid))
    (hprocesses : s'.processes = s.processes) (hrecord : s'.record = s.record)
    (hissued : s'.issued = s.issued) (hserial : s'.serial = s.serial)
    (hreplaced : s'.replaced = s.replaced) : Services s' where
  lock := by
    intro pid
    rw [hlock, hprocesses]
    exact h.lock pid
  drawn := by
    rw [hissued, hserial]
    exact h.drawn
  tokens := by
    rw [hissued]
    exact h.tokens
  listening := by
    rw [hissued, hprocesses]
    exact h.listening
  record := by
    rw [hissued, hrecord]
    exact h.record
  found := by
    rw [hreplaced, hrecord, hprocesses]
    exact h.found

theorem Services.endProcess (h : Services s) (pid : Pid) : Services (s.endProcess pid) where
  lock := by
    intro q
    rw [processes_endProcess]
    show (if s.lock = some (.service pid) then none else s.lock) = _ ↔ _
    by_cases hq : q = pid
    · rw [if_pos hq, hq]
      constructor
      · intro hheld
        by_cases hpid : s.lock = some (.service pid)
        · rw [if_pos hpid] at hheld
          cases hheld
        · rw [if_neg hpid] at hheld
          exact absurd hheld hpid
      · rintro ⟨p, hp, _⟩
        cases hp
    · rw [if_neg hq]
      by_cases hpid : s.lock = some (.service pid)
      · rw [if_pos hpid, ← h.lock q, hpid]
        constructor
        · intro hnone
          cases hnone
        · intro hsame
          cases hsame
          exact absurd rfl hq
      · rw [if_neg hpid]
        exact h.lock q
  drawn := h.drawn
  tokens := h.tokens
  listening := by
    intro q p hp
    rw [processes_endProcess] at hp
    by_cases hq : q = pid
    · rw [if_pos hq] at hp
      cases hp
    · rw [if_neg hq] at hp
      exact h.listening q p hp
  record := h.record
  found := by
    intro hreplaced q p hp
    rw [processes_endProcess] at hp
    by_cases hq : q = pid
    · rw [if_pos hq] at hp
      cases hp
    · rw [if_neg hq] at hp
      exact h.found hreplaced q p hp

theorem leaves_endProcess (s : State) (pid : Pid) : Leaves s (s.endProcess pid) where
  issued := fun _ h => h
  processes := by
    intro q _ p hp
    rw [processes_endProcess] at hp
    by_cases hq : q = pid
    · rw [if_pos hq] at hp
      cases hp
    · rw [if_neg hq] at hp
      exact ⟨p, hp, rfl⟩

theorem probe_endProcess {pid : Pid} {id : Nat} (h : s.lock = some (.probe id)) :
    (s.endProcess pid).lock = some (.probe id) := by
  show (if s.lock = some (.service pid) then none else s.lock) = _
  rw [h, if_neg nofun]

/-- A process is new: nothing is known of its number. -/
theorem Services.create (h : Services s) {pid : Pid} {desktop : Bool} {release : Nat}
    (hnone : s.processes pid = none) : Services (s.create pid desktop release) where
  lock := by
    intro q
    show s.lock = _ ↔ ∃ p, (s.setProcess pid _).processes q = some p ∧ _
    rw [processes_setProcess, h.lock q]
    by_cases hq : q = pid
    · rw [if_pos hq, hq, hnone]
      constructor
      · rintro ⟨p, hp, _⟩
        cases hp
      · rintro ⟨p, hp, _, hphase⟩
        cases hp
        exact absurd rfl hphase
    · rw [if_neg hq]
  drawn := fun r hr => Nat.lt_succ_of_lt (h.drawn r hr)
  tokens := h.tokens
  listening := by
    intro q p hp hlistens
    change (s.setProcess pid _).processes q = some p at hp
    rw [processes_setProcess] at hp
    by_cases hq : q = pid
    · rw [if_pos hq] at hp
      cases hp
      cases hlistens with
      | inl hphase => cases hphase
      | inr hphase => cases hphase
    · rw [if_neg hq] at hp
      exact h.listening q p hp hlistens
  record := h.record
  found := by
    intro hreplaced q p hp hdesktop hphase
    change (s.setProcess pid _).processes q = some p at hp
    rw [processes_setProcess] at hp
    by_cases hq : q = pid
    · rw [if_pos hq] at hp
      cases hp
      cases hphase
    · rw [if_neg hq] at hp
      exact h.found hreplaced q p hp hdesktop hphase

theorem fresh_iff {pid : Pid} :
    s.fresh pid = true ↔ s.processes pid = none ∧ pid ∉ s.reserved := by
  rw [State.fresh, Bool.and_eq_true, Option.isNone_iff_eq_none, Bool.not_eq_true',
    List.contains_eq_mem, decide_eq_false_iff_not]

theorem leaves_create {pid : Pid} {desktop : Bool} {release : Nat} (hfresh : s.fresh pid = true) :
    Leaves s (s.create pid desktop release) where
  issued := fun _ h => h
  processes := by
    intro q hq p hp
    change (s.setProcess pid _).processes q = some p at hp
    have hne : q ≠ pid := by
      rintro rfl
      exact (fresh_iff.mp hfresh).2 hq
    rw [processes_setProcess, if_neg hne] at hp
    exact ⟨p, hp, rfl⟩

/-- A process goes on to another phase. -/
theorem leaves_setProcess {pid : Pid} {p p' : Process} (hp : s.processes pid = some p)
    (hprocesses : s'.processes = (s.setProcess pid (some p')).processes)
    (hstart : p'.start = p.start) (hissued : ∀ r ∈ s.issued, r ∈ s'.issued) : Leaves s s' where
  issued := hissued
  processes := by
    intro q _ found hfound
    rw [hprocesses, processes_setProcess] at hfound
    by_cases hq : q = pid
    · rw [if_pos hq] at hfound
      cases hfound
      exact ⟨p, by rw [hq, hp], hstart.symm⟩
    · rw [if_neg hq] at hfound
      exact ⟨found, hfound, rfl⟩

/-- A process goes on to another phase, and the lock and the record may change with it. -/
theorem Services.phase (h : Services s) {pid : Pid} {p' : Process}
    (hprocesses : s'.processes = (s.setProcess pid (some p')).processes)
    (hother : ∀ q, q ≠ pid → (s'.lock = some (.service q) ↔ s.lock = some (.service q)))
    (hself : s'.lock = some (.service pid) ↔ p'.Holds)
    (hissued : s'.issued = s.issued ∨
      s'.issued = p'.record pid :: s.issued ∧ p'.token = s.serial ∧ s'.serial = s.serial + 1)
    (hserial : s.serial ≤ s'.serial)
    (hlistens : p'.Listens → p'.record pid ∈ s'.issued)
    (hrecord : ∀ r, s'.record = some r → r ∈ s'.issued)
    (hfound : s'.replaced = false → ∀ q p, s'.processes q = some p → p.desktop = true →
      p.phase = .serving → s'.record = some (p.record q)) : Services s' where
  lock := by
    intro q
    rw [hprocesses, processes_setProcess]
    by_cases hq : q = pid
    · rw [if_pos hq, hq, hself]
      exact ⟨fun hholds => ⟨p', rfl, hholds⟩, fun ⟨p, hp, hholds⟩ => Option.some.inj hp ▸ hholds⟩
    · rw [if_neg hq, hother q hq]
      exact h.lock q
  drawn := by
    intro r hr
    cases hissued with
    | inl hsame =>
      rw [hsame] at hr
      exact Nat.lt_of_lt_of_le (h.drawn r hr) hserial
    | inr hnew =>
      rw [hnew.1] at hr
      rw [hnew.2.2]
      cases List.mem_cons.mp hr with
      | inl hself =>
        rw [hself]
        exact Nat.lt_succ_of_le (Nat.le_of_eq hnew.2.1)
      | inr hold => exact Nat.lt_succ_of_lt (h.drawn r hold)
  tokens := by
    intro r hr r' hr' hsame
    cases hissued with
    | inl hold =>
      rw [hold] at hr hr'
      exact h.tokens r hr r' hr' hsame
    | inr hnew =>
      have hnever : ∀ r ∈ s.issued, r.token ≠ (p'.record pid).token := by
        intro r hr htoken
        have hlt := h.drawn r hr
        rw [htoken] at hlt
        exact Nat.lt_irrefl _ (Nat.lt_of_lt_of_eq hlt hnew.2.1.symm)
      rw [hnew.1] at hr hr'
      cases List.mem_cons.mp hr with
      | inl hself =>
        cases List.mem_cons.mp hr' with
        | inl hself' => rw [hself, hself']
        | inr hold' => exact absurd (hsame.symm.trans (congrArg _ hself)) (hnever r' hold')
      | inr hold =>
        cases List.mem_cons.mp hr' with
        | inl hself' => exact absurd (hsame.trans (congrArg _ hself')) (hnever r hold)
        | inr hold' => exact h.tokens r hold r' hold' hsame
  listening := by
    intro q p hp hl
    rw [hprocesses, processes_setProcess] at hp
    by_cases hq : q = pid
    · rw [if_pos hq] at hp
      cases hp
      rw [hq]
      exact hlistens hl
    · rw [if_neg hq] at hp
      have hmem := h.listening q p hp hl
      cases hissued with
      | inl hsame => rwa [hsame]
      | inr hnew =>
        rw [hnew.1]
        exact List.mem_cons_of_mem _ hmem
  record := hrecord
  found := hfound

/-- A process that is not serving afterwards leaves the services that are. -/
theorem Services.found_of_phase (h : Services s) {pid : Pid} {p' : Process}
    (hphase : p'.phase ≠ .serving) (hreplaced : s.replaced = false) {q : Pid} {p : Process}
    (hp : (s.setProcess pid (some p')).processes q = some p) (hdesktop : p.desktop = true)
    (hserving : p.phase = .serving) : s.record = some (p.record q) := by
  rw [processes_setProcess] at hp
  by_cases hq : q = pid
  · rw [if_pos hq] at hp
    cases hp
    exact absurd hserving hphase
  · rw [if_neg hq] at hp
    exact h.found hreplaced q p hp hdesktop hserving

theorem Inv.tryLock (h : Inv s) {pid : Pid} {p : Process} (hp : s.processes pid = some p)
    (hstep : tryLock s pid p = some s') : Inv s' := by
  unfold Desktop.tryLock at hstep
  by_cases hbegun : p.desktop ∧ p.phase = .begun
  · rw [if_pos hbegun] at hstep
    cases hlock : s.lock with
    | some holder =>
      rw [hlock] at hstep
      cases hstep
      have hended := h.services.endProcess pid
      exact h.services_step (hended.congr (fun _ => Iff.rfl) rfl rfl rfl rfl rfl)
        ⟨(leaves_endProcess s pid).issued, (leaves_endProcess s pid).processes⟩
        (fun _ => probe_endProcess) rfl rfl
    | none =>
      rw [hlock] at hstep
      cases hstep
      refine h.services_step (h.services.phase rfl ?_ ?_ (.inl rfl) (Nat.le_refl _) ?_
        h.services.record ?_) (leaves_setProcess hp rfl rfl fun _ hr => hr) ?_ rfl rfl
      · intro q hq
        rw [hlock]
        exact ⟨fun hsame => absurd (Holder.service.inj (Option.some.inj hsame)).symm hq, nofun⟩
      · exact ⟨fun _ => ⟨hbegun.1, nofun⟩, fun _ => rfl⟩
      · exact fun hlistens => absurd hlistens (by rintro (hphase | hphase) <;> cases hphase)
      · exact fun hreplaced q p' hp' => h.services.found_of_phase
          (show Phase.locked ≠ .serving by nofun) hreplaced hp'
      · intro id hid
        rw [hlock] at hid
        cases hid
  · rw [if_neg hbegun] at hstep
    cases hstep

/-- A service that listens has the lock exactly as before. -/
theorem holds_of_phase {p p' : Process} (hdesktop : p'.desktop = p.desktop)
    (hphase : p'.phase ≠ .begun) (hbefore : p.desktop = true → p.phase ≠ .begun) :
    p.Holds ↔ p'.Holds := by
  constructor
  · exact fun hp => ⟨hdesktop.trans hp.1, hphase⟩
  · exact fun hp => ⟨hdesktop.symm.trans hp.1, hbefore (hdesktop.symm.trans hp.1)⟩

theorem lock_iff (h : Services s) {pid : Pid} {p : Process} (hp : s.processes pid = some p) :
    s.lock = some (.service pid) ↔ p.Holds := by
  rw [h.lock pid, hp]
  exact ⟨fun ⟨_, hsame, hholds⟩ => Option.some.inj hsame ▸ hholds, fun hholds => ⟨p, rfl, hholds⟩⟩

theorem Inv.bind (h : Inv s) {pid port : Nat} {p : Process} (hp : s.processes pid = some p)
    (hstep : bind s pid port p = some s') : Inv s' := by
  unfold Desktop.bind at hstep
  by_cases hphase : p.phase = if p.desktop then .locked else .begun
  · rw [if_pos hphase] at hstep
    cases hstep
    have hbefore : p.desktop = true → p.phase ≠ .begun := by
      intro hdesktop
      rw [hphase, if_pos hdesktop]
      nofun
    refine h.services_step (h.services.phase rfl ?_ ?_ (.inr ⟨rfl, rfl, rfl⟩) (Nat.le_succ _) ?_ ?_
      ?_) (leaves_setProcess hp rfl rfl fun _ hr => List.mem_cons_of_mem _ hr) (fun _ hid => hid)
      rfl rfl
    · exact fun _ _ => Iff.rfl
    · exact (lock_iff h.services hp).trans (holds_of_phase rfl nofun hbefore)
    · exact fun _ => List.mem_cons_self
    · exact fun r hr => List.mem_cons_of_mem _ (h.services.record r hr)
    · exact fun hreplaced q p' hp' => h.services.found_of_phase
        (show Phase.bound ≠ .serving by nofun) hreplaced hp'
  · rw [if_neg hphase] at hstep
    cases hstep

/-- A desktop service that serves has the lock. -/
theorem served_of_serving (h : Services s) {pid : Pid} {p : Process}
    (hp : s.processes pid = some p) (hdesktop : p.desktop = true) (hphase : p.phase = .serving) :
    s.lock = some (.service pid) ∧ s.served = true := by
  have hholds : p.Holds := ⟨hdesktop, by rw [hphase]; nofun⟩
  have hlock := (lock_iff h hp).mpr hholds
  refine ⟨hlock, ?_⟩
  rw [State.served, hlock]
  show (s.processes pid).any (·.phase = .serving) = true
  rw [hp]
  exact decide_eq_true hphase

theorem Inv.publish (h : Inv s) {pid : Pid} {p : Process} (hp : s.processes pid = some p)
    (hstep : publish s pid p = some s') : Inv s' := by
  unfold Desktop.publish at hstep
  by_cases hphase : p.phase = .bound
  · rw [if_pos hphase] at hstep
    cases hstep
    have hissued := h.services.listening pid p hp (.inl hphase)
    have hbefore : p.desktop = true → p.phase ≠ .begun := by
      intro _
      rw [hphase]
      nofun
    refine h.services_step (h.services.phase rfl ?_ ?_ (.inl rfl) (Nat.le_refl _) ?_ ?_ ?_)
      (leaves_setProcess hp rfl rfl fun _ hr => hr) (fun _ hid => hid) rfl rfl
    · exact fun _ _ => Iff.rfl
    · exact (lock_iff h.services hp).trans (holds_of_phase rfl nofun hbefore)
    · exact fun _ => hissued
    · intro r hr
      cases hr
      exact hissued
    · intro hreplaced q p' hp' hdesktop hserving
      rw [processes_setProcess] at hp'
      by_cases hq : q = pid
      · rw [if_pos hq] at hp'
        cases hp'
        rw [hq]
        rfl
      · -- Another desktop service serves, so this one is headless and is counted.
        rw [if_neg hq] at hp'
        obtain ⟨hlock, hserved⟩ := served_of_serving h.services hp' hdesktop hserving
        have hheadless : p.desktop = false := by
          by_contra hother
          have hmine := (lock_iff h.services hp).mpr
            ⟨Bool.eq_true_of_not_eq_false hother, hbefore (Bool.eq_true_of_not_eq_false hother)⟩
          rw [hlock] at hmine
          exact hq (Holder.service.inj (Option.some.inj hmine))
        have hmarked : (s.replaced || !p.desktop && s.served) = false := hreplaced
        rw [hheadless, hserved, Bool.or_eq_false_iff] at hmarked
        cases hmarked.2
  · rw [if_neg hphase] at hstep
    cases hstep

theorem Inv.exit (h : Inv s) (pid : Pid) : Inv (s.endProcess pid) :=
  h.services_step (h.services.endProcess pid) (leaves_endProcess s pid)
    (fun _ => probe_endProcess) rfl rfl

theorem Inv.launch (h : Inv s) {pid : Pid} {desktop : Bool} {release : Nat}
    (hfresh : s.fresh pid = true) : Inv (s.create pid desktop release) :=
  h.services_step (h.services.create (fresh_iff.mp hfresh).1) (leaves_create hfresh)
    (fun _ hid => hid) rfl rfl

/-! ## Steps of the callers -/

/-- What a caller may change of the services when it takes a step. -/
structure Near (s s' : State) (id : Nat) : Prop extends Leaves s s' where
  services : Services s'
  reserved : s'.reserved = s.reserved
  callers : s'.callers = s.callers
  lock : ∀ id', id' ≠ id → s.lock = some (.probe id') → s'.lock = some (.probe id')

theorem Inv.near (h : Inv s) (id : Nat) : Near s s id :=
  ⟨Leaves.refl s, h.services, rfl, rfl, fun _ _ hlock => hlock⟩

/-- A stage asks no more than what the caller knows. -/
structure Stage.Fits (s : State) (id : Nat) (c : Caller) (stage : Stage) : Prop where
  probe : ∀ use, stage = .drop use → s.lock = some (.probe id)
  held : ∀ r, stage.record = some r → r ∈ s.issued
  confirmed : ∀ r, stage.confirmed = some r → r ∈ c.answered

variable {id : Nat} {c c' : Caller} {stage : Stage}

theorem Inv.goto (h : Inv s) (hc : s.callers id = some c) (hnear : Near s s' id)
    (hchild : c'.child = c.child) (hspawned : c'.spawned = c.spawned)
    (hkilled : c'.killed = c.killed) (hfits : stage.Fits s' id c') :
    Inv (s'.goto id c' stage) := by
  have hsound := h.callers id c hc
  have hnew : Caller.Sound (s'.goto id c' stage) id { c' with stage } := by
    refine ⟨hfits.probe, hfits.held, hfits.confirmed, ?_, ?_⟩
    · intro pid start hrow
      obtain ⟨hmem, hstarted, hstart⟩ := hsound.child pid start (hchild.symm.trans hrow)
      refine ⟨?_, ?_, fun p' hp' => ?_⟩
      · show pid ∈ s'.reserved
        rwa [hnear.reserved]
      · show _ ∈ c'.spawned
        rwa [hspawned]
      · obtain ⟨p, hp, hsame⟩ := hnear.processes pid hmem p' hp'
        rw [← hsame]
        exact hstart p hp
    · show ∀ k ∈ c'.killed, k ∈ c'.spawned
      rw [hkilled, hspawned]
      exact hsound.killed
  refine h.caller_step hc (hnear.services.congr (fun _ => Iff.rfl) rfl rfl rfl rfl rfl)
    ⟨hnear.issued, hnear.processes⟩ hnear.lock ?_ ?_ hnew ?_
  · intro pid _ hmem
    show pid ∈ s'.reserved
    rwa [hnear.reserved]
  · show Function.update s'.callers id _ = _
    rw [hnear.callers]
  · intro pid hpid
    exact .inl (hchild ▸ hpid)

/-- The child is waited for, or is no longer of this caller. -/
theorem Inv.reap (h : Inv s) (hc : s.callers id = some c) (hnear : Near s s' id)
    (hchild : c'.child = c.child) (hkilled : ∀ k ∈ c'.killed, k ∈ c'.spawned)
    (hfits : stage.Fits s' id c') : Inv (reap s' id c' stage) := by
  have hnew : Caller.Sound (Desktop.reap s' id c' stage) id { c' with child := none, stage } :=
    ⟨hfits.probe, hfits.held, hfits.confirmed, nofun, hkilled⟩
  refine h.caller_step hc (hnear.services.congr (fun _ => Iff.rfl) rfl rfl rfl rfl rfl)
    ⟨hnear.issued, hnear.processes⟩ hnear.lock ?_ ?_ hnew ?_
  · intro pid hpid hmem
    show pid ∈ s'.reserved.filter fun pid => c'.child.map Prod.fst ≠ some pid
    rw [hnear.reserved, hchild, List.mem_filter]
    exact ⟨hmem, decide_eq_true hpid⟩
  · show Function.update s'.callers id _ = _
    rw [hnear.callers]
  · intro pid hpid
    cases hpid

theorem Near.unlockStart (h : Near s s' id) : Near s (s'.unlockStart id) id :=
  ⟨⟨h.issued, h.processes⟩, h.services.congr (fun _ => Iff.rfl) rfl rfl rfl rfl rfl, h.reserved,
    h.callers, h.lock⟩

theorem Inv.finish (h : Inv s) (hc : s.callers id = some c) (hnear : Near s s' id)
    (hfits : stage.Fits s' id c) : Inv (finish s' id c stage) := by
  have hend := hnear.unlockStart
  have hfits' : stage.Fits (s'.unlockStart id) id c := ⟨hfits.probe, hfits.held, hfits.confirmed⟩
  cases stage with
  | returned record => exact h.reap hc hend rfl (h.callers id c hc).killed hfits'
  | failed => exact h.goto hc hend rfl rfl rfl hfits'
  | _ => exact h.goto hc hnear rfl rfl rfl hfits

/-- A stage without a record. -/
theorem fits_plain (hdrop : ∀ use, stage ≠ .drop use) (hrecord : stage.record = none)
    (hconfirmed : stage.confirmed = none) : stage.Fits s id c where
  probe := fun use huse => absurd huse (hdrop use)
  held := by
    rw [hrecord]
    nofun
  confirmed := by
    rw [hconfirmed]
    nofun

theorem fits_none (goal : Goal) : (verifiedResult c goal none).Fits s id c' := by
  cases goal <;> exact fits_plain nofun rfl rfl

theorem fits_some {goal : Goal} {r : Record} (hheld : r ∈ s.issued) (hanswered : r ∈ c'.answered) :
    (verifiedResult c goal (some r)).Fits s id c' := by
  have hone : ∀ r', some r = some r' → r' ∈ s.issued ∧ r' ∈ c'.answered := by
    intro r' hsame
    cases hsame
    exact ⟨hheld, hanswered⟩
  cases goal with
  | window => exact ⟨nofun, fun r' hr => (hone r' hr).1, fun r' hr => (hone r' hr).2⟩
  | first =>
    simp only [verifiedResult]
    by_cases hother : r.release ≠ c.identity
    · rw [if_pos hother]
      exact ⟨nofun, fun r' hr => (hone r' hr).1, fun r' hr => (hone r' hr).2⟩
    · rw [if_neg hother]
      exact ⟨nofun, fun r' hr => (hone r' hr).1, fun r' hr => (hone r' hr).2⟩
  | child =>
    simp only [verifiedResult]
    by_cases hsame : r.release = c.identity
    · rw [if_pos hsame]
      exact ⟨nofun, fun r' hr => (hone r' hr).1, fun r' hr => (hone r' hr).2⟩
    · rw [if_neg hsame]
      exact fits_plain nofun rfl rfl

/-- After `service_locked`, only a held lock leaves the caller with the record. -/
theorem fits_locked {use : Use} {held : Bool} (h : ∀ r, use.record = some r → r ∈ s.issued) :
    (locked c use held).Fits s id c := by
  cases use with
  | verified goal record =>
    cases held with
    | true => exact ⟨nofun, h, nofun⟩
    | false => exact fits_none goal
  | after =>
    cases held with
    | true => exact fits_plain nofun rfl rfl
    | false =>
      simp only [locked]
      by_cases hattempts : c.attempts = 0
      · rw [if_pos hattempts]
        exact fits_plain nofun rfl rfl
      · rw [if_neg hattempts]
        exact fits_plain nofun rfl rfl
  | _ => cases held <;> exact fits_plain nofun rfl rfl

theorem Inv.answer (h : Inv s) (hc : s.callers id = some c) {goal : Goal} {r : Record} {pid : Pid}
    (hheld : r ∈ s.issued) (hstep : answer s id c goal r pid = some s') : Inv s' := by
  unfold Desktop.answer at hstep
  cases hp : s.processes pid with
  | none =>
    rw [hp] at hstep
    cases hstep
  | some p =>
    simp only [hp] at hstep
    by_cases hlistens : p.phase = .serving ∧ p.port = r.port
    · rw [if_pos hlistens] at hstep
      by_cases htoken : p.token = r.token ∧ p.release = r.release
      · rw [if_pos htoken] at hstep
        cases hstep
        -- No two services have had the token, so the one that answers is the recorded one.
        have hissued := h.services.listening pid p hp (.inr hlistens.1)
        have hsame : r = p.record pid := h.services.tokens r hheld _ hissued htoken.1.symm
        refine h.goto hc (h.near id) rfl rfl rfl ⟨nofun, ?_, ?_⟩
        · intro r' hr'
          cases hr'
          exact hheld
        · intro r' hr'
          cases hr'
          rw [hsame]
          exact List.mem_cons_self
      · rw [if_neg htoken] at hstep
        cases hstep
        exact h.finish hc (h.near id) (fits_none goal)
    · rw [if_neg hlistens] at hstep
      cases hstep

theorem Inv.terminate (h : Inv s) (hc : s.callers id = some c) : Inv (terminate s id c) := by
  have hsound := h.callers id c hc
  unfold Desktop.terminate
  cases hchild : c.child with
  | none => exact h.goto hc (h.near id) rfl rfl rfl (fits_plain nofun rfl rfl)
  | some child =>
    obtain ⟨pid, start⟩ := child
    obtain ⟨_, hspawned, hstart⟩ := hsound.child pid start hchild
    dsimp only
    cases hp : s.processes pid with
    | none =>
      exact h.reap hc (h.near id) rfl hsound.killed (fits_plain nofun rfl rfl)
    | some p =>
      have hended : Near s (s.endProcess pid) id :=
        ⟨leaves_endProcess s pid, h.services.endProcess pid, rfl, rfl, fun _ _ => probe_endProcess⟩
      refine h.reap hc hended hchild.symm ?_ (fits_plain nofun rfl rfl)
      intro k hk
      cases List.mem_cons.mp hk with
      | inl hself =>
        -- The child's number is given to no other process before the child is waited for.
        rw [hself, hstart p hp]
        exact hspawned
      | inr hold => exact hsound.killed k hold

theorem Inv.spawn (h : Inv s) (hc : s.callers id = some c) {pid : Pid} {attempts : Nat}
    (hfresh : s.fresh pid = true) :
    Inv ({ s.create pid true c.identity with reserved := pid :: s.reserved }.goto id
      { c with
        attempts
        child := some (pid, s.serial)
        spawned := (pid, s.serial) :: c.spawned } .waiting) := by
  have hsound := h.callers id c hc
  obtain ⟨hnone, hunreserved⟩ := fresh_iff.mp hfresh
  have hleaves : Leaves s (s.create pid true c.identity) := leaves_create hfresh
  refine h.caller_step hc ((h.services.create hnone).congr (fun _ => Iff.rfl) rfl rfl rfl rfl rfl)
    ⟨hleaves.issued, hleaves.processes⟩ (fun _ _ hid => hid)
    (fun _ _ hmem => List.mem_cons_of_mem _ hmem) rfl ?_ ?_
  · refine ⟨nofun, nofun, nofun, ?_, ?_⟩
    · intro q start hchild
      cases hchild
      refine ⟨List.mem_cons_self, List.mem_cons_self, fun p hp => ?_⟩
      change (s.setProcess pid _).processes pid = some p at hp
      rw [processes_setProcess, if_pos rfl] at hp
      cases hp
      rfl
    · exact fun k hk => List.mem_cons_of_mem _ (hsound.killed k hk)
  · intro q hq
    cases hq
    exact .inr hunreserved

theorem Inv.leave (h : Inv s) (hc : s.callers id = some c) : Inv (leave s id c) where
  services := by
    refine h.services.congr ?_ rfl rfl rfl rfl rfl
    intro pid
    show (if s.lock = some (.probe id) then none else s.lock) = _ ↔ _
    by_cases hprobe : s.lock = some (.probe id)
    · rw [if_pos hprobe, hprobe]
      exact ⟨nofun, nofun⟩
    · rw [if_neg hprobe]
  callers := by
    intro id' d hd
    change Function.update s.callers id none id' = some d at hd
    by_cases hid : id' = id
    · rw [hid, Function.update_self] at hd
      cases hd
    · rw [Function.update_of_ne hid] at hd
      refine (h.callers id' d hd).leaves ⟨fun _ hr => hr, fun _ _ p hp => ⟨p, hp, rfl⟩⟩ ?_ ?_
      · intro hlock
        show (if s.lock = some (.probe id) then none else s.lock) = _
        rw [hlock, if_neg fun hsame => hid (Holder.probe.inj (Option.some.inj hsame))]
      · intro pid hpid hmem
        show pid ∈ s.reserved.filter fun pid => c.child.map Prod.fst ≠ some pid
        rw [List.mem_filter]
        exact ⟨hmem, decide_eq_true (h.apart id' id d c hd hc hid pid hpid)⟩
  apart := by
    intro id₁ id₂ c₁ c₂ h₁ h₂
    change Function.update s.callers id none id₁ = some c₁ at h₁
    change Function.update s.callers id none id₂ = some c₂ at h₂
    by_cases hid₁ : id₁ = id
    · rw [hid₁, Function.update_self] at h₁
      cases h₁
    · by_cases hid₂ : id₂ = id
      · rw [hid₂, Function.update_self] at h₂
        cases h₂
      · rw [Function.update_of_ne hid₁] at h₁
        rw [Function.update_of_ne hid₂] at h₂
        exact h.apart id₁ id₂ c₁ c₂ h₁ h₂

/-- A caller begins. -/
theorem Inv.enter (h : Inv s) (hstage : stage = .starting ∨ stage = .read .window)
    {identity attempts : Nat} {runtime : Bool} :
    Inv (s.setCaller id (some { stage, identity, runtime, attempts })) where
  services := h.services.congr (fun _ => Iff.rfl) rfl rfl rfl rfl rfl
  callers := by
    intro id' d hd
    change Function.update s.callers id _ id' = some d at hd
    by_cases hid : id' = id
    · rw [hid, Function.update_self] at hd
      cases hd
      cases hstage with
      | inl hstarting =>
        rw [hstarting]
        exact ⟨nofun, nofun, nofun, nofun, nofun⟩
      | inr hread =>
        rw [hread]
        exact ⟨nofun, nofun, nofun, nofun, nofun⟩
    · rw [Function.update_of_ne hid] at hd
      have hleaves : Leaves s (s.setCaller id (some { stage, identity, runtime, attempts })) :=
        ⟨fun _ hr => hr, fun _ _ p hp => ⟨p, hp, rfl⟩⟩
      exact (h.callers id' d hd).leaves hleaves (fun hlock => hlock) fun _ _ hmem => hmem
  apart := by
    have hnew : ∀ id' d, id' ≠ id → s.callers id' = some d → ∀ pid : Pid,
        d.child.map Prod.fst = some pid → (none : Option Pid) ≠ some pid := fun _ _ _ _ _ _ => nofun
    intro id₁ id₂ c₁ c₂ h₁ h₂ hne pid hpid
    change Function.update s.callers id _ id₁ = some c₁ at h₁
    change Function.update s.callers id _ id₂ = some c₂ at h₂
    by_cases hid₁ : id₁ = id
    · rw [hid₁, Function.update_self] at h₁
      cases h₁
      cases hpid
    · by_cases hid₂ : id₂ = id
      · rw [hid₂, Function.update_self] at h₂
        cases h₂
        nofun
      · rw [Function.update_of_ne hid₁] at h₁
        rw [Function.update_of_ne hid₂] at h₂
        exact h.apart id₁ id₂ c₁ c₂ h₁ h₂ hne pid hpid

/-! ## Every run -/

/-- The lock was free, or held by this caller for a moment. -/
theorem Inv.relock (h : Inv s) {lock : Option Holder}
    (hbefore : ∀ pid, s.lock ≠ some (.service pid)) (hafter : ∀ pid, lock ≠ some (.service pid))
    (hprobe : ∀ id', id' ≠ id → s.lock ≠ some (.probe id')) : Near s { s with lock } id where
  toLeaves := ⟨fun _ hr => hr, fun _ _ p hp => ⟨p, hp, rfl⟩⟩
  services := h.services.congr
    (fun pid => ⟨fun hsame => absurd hsame (hafter pid), fun hsame => absurd hsame (hbefore pid)⟩)
    rfl rfl rfl rfl rfl
  reserved := rfl
  callers := rfl
  lock := fun id' hid hlock => absurd hlock (hprobe id' hid)

theorem Inv.advance (h : Inv s) (hc : s.callers id = some c) {choice : Choice}
    (hstep : advance s id c choice = some s') : Inv s' := by
  have hsound := h.callers id c hc
  have hnear := h.near id
  unfold Desktop.advance at hstep
  cases hstage : c.stage with
  | starting =>
    simp only [hstage] at hstep
    by_cases hfail : choice = .fail
    · rw [if_pos hfail] at hstep
      cases hstep
      exact h.finish hc hnear (fits_plain nofun rfl rfl)
    · rw [if_neg hfail] at hstep
      by_cases hstarter : s.starter = none
      · rw [if_pos hstarter] at hstep
        cases hstep
        exact h.goto hc ⟨⟨hnear.issued, hnear.processes⟩, h.services.congr (fun _ => Iff.rfl)
          rfl rfl rfl rfl rfl, rfl, rfl, hnear.lock⟩ rfl rfl rfl (fits_plain nofun rfl rfl)
      · rw [if_neg hstarter] at hstep
        cases hstep
  | read goal =>
    simp only [hstage] at hstep
    by_cases hfail : choice = .fail
    · rw [if_pos hfail] at hstep
      cases hstep
      exact h.finish hc hnear (fits_plain nofun rfl rfl)
    · rw [if_neg hfail] at hstep
      cases hrecord : s.record with
      | none =>
        rw [hrecord] at hstep
        cases hstep
        exact h.finish hc hnear (fits_none goal)
      | some r =>
        rw [hrecord] at hstep
        cases hstep
        refine h.goto hc hnear rfl rfl rfl ⟨nofun, ?_, nofun⟩
        intro r' hr'
        cases hr'
        exact h.services.record r hrecord
  | checkStart goal r =>
    have hheld := hsound.held r (by rw [hstage]; rfl)
    simp only [hstage] at hstep
    by_cases hstart : startOf s r.pid = some r.start
    · rw [if_pos hstart] at hstep
      cases hstep
      refine h.goto hc hnear rfl rfl rfl ⟨nofun, ?_, nofun⟩
      intro r' hr'
      cases hr'
      exact hheld
    · rw [if_neg hstart] at hstep
      cases hstep
      exact h.finish hc hnear (fits_none goal)
  | probe use =>
    have hheld : ∀ r, use.record = some r → r ∈ s.issued :=
      fun r hr => hsound.held r (by rw [hstage]; exact hr)
    simp only [hstage] at hstep
    by_cases hfail : choice = .fail ∧ use = .restart
    · rw [if_pos hfail] at hstep
      cases hstep
      exact h.finish hc hnear (fits_plain nofun rfl rfl)
    · rw [if_neg hfail] at hstep
      cases hlock : s.lock with
      | none =>
        rw [hlock] at hstep
        cases hstep
        have hfree : ∀ holder, s.lock ≠ some holder := by
          rw [hlock]
          nofun
        exact h.goto hc (h.relock (fun pid => hfree _) nofun fun id' _ => hfree _) rfl rfl rfl
          ⟨fun _ _ => rfl, hheld, nofun⟩
      | some holder =>
        rw [hlock] at hstep
        cases hstep
        exact h.finish hc ⟨⟨hnear.issued, hnear.processes⟩, h.services.congr
          (fun pid => by rw [hlock]) rfl rfl rfl rfl rfl, rfl, rfl,
          fun id' _ hsame => hlock.symm.trans hsame⟩ (fits_locked hheld)
  | drop use =>
    have hheld : ∀ r, use.record = some r → r ∈ s.issued :=
      fun r hr => hsound.held r (by rw [hstage]; exact hr)
    have hmine := hsound.probe use hstage
    simp only [hstage] at hstep
    cases hstep
    refine h.finish hc (h.relock ?_ nofun ?_) (fits_locked hheld)
    · rw [hmine]
      nofun
    · intro id' hid hsame
      rw [hmine] at hsame
      exact hid (Holder.probe.inj (Option.some.inj hsame)).symm
  | request goal r =>
    simp only [hstage] at hstep
    cases choice with
    | answer pid => exact h.answer hc (hsound.held r (by rw [hstage]; rfl)) hstep
    | fail =>
      cases hstep
      exact h.finish hc hnear (fits_none goal)
    | _ => cases hstep
  | checkAgain goal r =>
    simp only [hstage] at hstep
    by_cases hstart : startOf s r.pid = some r.start
    · rw [if_pos hstart] at hstep
      cases hstep
      exact h.finish hc hnear (fits_some (hsound.held r (by rw [hstage]; rfl))
        (hsound.confirmed r (by rw [hstage]; rfl)))
    · rw [if_neg hstart] at hstep
      cases hstep
      exact h.finish hc hnear (fits_none goal)
  | refresh r =>
    have hheld := hsound.held r (by rw [hstage]; rfl)
    have hconfirmed := hsound.confirmed r (by rw [hstage]; rfl)
    simp only [hstage] at hstep
    by_cases hrestarting : choice = .restarting
    · rw [if_pos hrestarting] at hstep
      cases hstep
      exact h.goto hc hnear rfl rfl rfl (fits_plain nofun rfl rfl)
    · rw [if_neg hrestarting] at hstep
      cases hstep
      refine h.goto hc hnear rfl rfl rfl ⟨nofun, ?_, ?_⟩
      · intro r' hr'
        cases hr'
        exact hheld
      · intro r' hr'
        cases hr'
        exact hconfirmed
  | config r =>
    have hheld := hsound.held r (by rw [hstage]; rfl)
    have hconfirmed := hsound.confirmed r (by rw [hstage]; rfl)
    simp only [hstage] at hstep
    by_cases hfail : c.runtime ∧ choice = .fail
    · rw [if_pos hfail] at hstep
      cases hstep
      exact h.finish hc hnear (fits_plain nofun rfl rfl)
    · rw [if_neg hfail] at hstep
      cases hstep
      refine h.finish hc hnear ⟨nofun, ?_, ?_⟩
      · intro r' hr'
        cases hr'
        exact hheld
      · intro r' hr'
        cases hr'
        exact hconfirmed
  | spawn =>
    simp only [hstage] at hstep
    cases choice with
    | spawn pid =>
      by_cases hfresh : s.fresh pid = true
      · simp only [if_pos hfresh] at hstep
        cases hstep
        exact h.spawn hc hfresh
      · simp only [if_neg hfresh] at hstep
        cases hstep
    | fail =>
      cases hstep
      exact h.finish hc hnear (fits_plain nofun rfl rfl)
    | _ => cases hstep
  | waiting =>
    simp only [hstage] at hstep
    by_cases hended : ended s c = true
    · rw [if_pos hended] at hstep
      cases hstep
      exact h.reap hc hnear rfl hsound.killed (fits_plain nofun rfl rfl)
    · rw [if_neg hended] at hstep
      by_cases hfail : choice = .fail
      · rw [if_pos hfail] at hstep
        cases hstep
        exact h.goto hc hnear rfl rfl rfl (fits_plain nofun rfl rfl)
      · rw [if_neg hfail] at hstep
        cases hstep
        exact h.goto hc hnear rfl rfl rfl (fits_plain nofun rfl rfl)
  | terminate =>
    simp only [hstage] at hstep
    cases hstep
    exact h.terminate hc
  | returned record =>
    simp only [hstage] at hstep
    cases hstep
  | failed =>
    simp only [hstage] at hstep
    cases hstep

theorem Inv.step (h : Inv s) {action : Action} (hstep : step s action = some s') : Inv s' := by
  cases action with
  | launch pid desktop release =>
    simp only [Desktop.step] at hstep
    split at hstep
    · rename_i hfresh
      cases hstep
      exact h.launch hfresh
    · cases hstep
  | tryLock pid =>
    obtain ⟨p, hp, hlock⟩ := Option.bind_eq_some_iff.mp hstep
    exact h.tryLock hp hlock
  | bind pid port =>
    obtain ⟨p, hp, hbind⟩ := Option.bind_eq_some_iff.mp hstep
    exact h.bind hp hbind
  | publish pid =>
    obtain ⟨p, hp, hpublish⟩ := Option.bind_eq_some_iff.mp hstep
    exact h.publish hp hpublish
  | exit pid =>
    obtain ⟨p, _, rfl⟩ := Option.map_eq_some_iff.mp hstep
    exact h.exit pid
  | verify id =>
    simp only [Desktop.step, Desktop.enter] at hstep
    split at hstep
    · cases hstep
      exact h.enter (.inr rfl)
    · cases hstep
  | ensure id identity runtime attempts =>
    simp only [Desktop.step, Desktop.enter] at hstep
    split at hstep
    · cases hstep
      exact h.enter (.inl rfl)
    · cases hstep
  | advance id choice =>
    obtain ⟨c, hc, hadvance⟩ := Option.bind_eq_some_iff.mp hstep
    exact h.advance hc hadvance
  | leave id =>
    obtain ⟨c, hc, rfl⟩ := Option.map_eq_some_iff.mp hstep
    exact h.leave hc

theorem inv_start : Inv {} where
  services :=
    { lock := fun _ => ⟨fun hlock => (by cases hlock), fun ⟨_, hp, _⟩ => (by cases hp)⟩
      drawn := fun _ hr => (by cases hr)
      tokens := fun _ hr => (by cases hr)
      listening := fun _ _ hp => (by cases hp)
      record := fun _ hr => (by cases hr)
      found := fun _ _ _ hp => (by cases hp) }
  callers := fun _ _ hc => (by cases hc)
  apart := fun _ _ _ _ hc => (by cases hc)

/-! ## Runs without a disturbance -/

/-- No headless service writes the record while a desktop service serves, and no start of a service
tries the lock while somebody asks whether it is held. -/
def Undisturbed (s : State) : Action → Prop
  | .publish pid => ∀ p, s.processes pid = some p → p.desktop = false → s.served = false
  | .tryLock _ => ∀ id, s.lock ≠ some (.probe id)
  | .advance id _ => ∀ c use, s.callers id = some c → c.stage = .probe use → use.refuses = true →
      ∀ id', s.lock ≠ some (.probe id')
  | _ => True

/-- No record was replaced, and only services have kept others from starting. -/
structure Calm (s : State) : Prop where
  replaced : s.replaced = false
  refusals : ∀ holder ∈ s.refusals, ∃ pid, holder = .service pid

theorem Calm.same (h : Calm s) (hreplaced : s'.replaced = s.replaced)
    (hrefusals : s'.refusals = s.refusals) : Calm s' :=
  ⟨hreplaced.trans h.replaced, hrefusals ▸ h.refusals⟩

theorem Calm.refuse (h : Calm s) {holder : Holder} (hlock : s.lock = some holder)
    (hfree : ∀ id, s.lock ≠ some (.probe id)) (hreplaced : s'.replaced = s.replaced)
    (hrefusals : s'.refusals = holder :: s.refusals) : Calm s' := by
  refine ⟨hreplaced.trans h.replaced, ?_⟩
  rw [hrefusals]
  intro found hfound
  cases List.mem_cons.mp hfound with
  | inl hself =>
    cases holder with
    | service pid => exact ⟨pid, hself⟩
    | probe id => exact absurd hlock (hfree id)
  | inr hold => exact h.refusals found hold

theorem finish_ghosts (s : State) (id : Nat) (c : Caller) (stage : Stage) :
    (finish s id c stage).replaced = s.replaced ∧
      (finish s id c stage).refusals = s.refusals := by
  cases stage <;> exact ⟨rfl, rfl⟩

theorem Calm.finish (h : Calm s) : Calm (finish s id c stage) :=
  h.same (finish_ghosts s id c stage).1 (finish_ghosts s id c stage).2

theorem Calm.terminate (h : Calm s) : Calm (terminate s id c) := by
  unfold Desktop.terminate
  cases c.child with
  | none => exact h.same rfl rfl
  | some child =>
    dsimp only
    cases s.processes child.1 with
    | none => exact h.same rfl rfl
    | some p => exact h.same rfl rfl

theorem Calm.advance (h : Calm s) {choice : Choice} (hstep : advance s id c choice = some s')
    (hfree : ∀ use, c.stage = .probe use → use.refuses = true →
      ∀ id', s.lock ≠ some (.probe id')) : Calm s' := by
  unfold Desktop.advance at hstep
  cases hstage : c.stage with
  | probe use =>
    simp only [hstage] at hstep
    split at hstep
    · cases hstep
      exact h.finish
    · cases hlock : s.lock with
      | none =>
        rw [hlock] at hstep
        cases hstep
        exact h.same rfl rfl
      | some holder =>
        rw [hlock] at hstep
        cases hstep
        apply Calm.finish
        cases hrefuses : use.refuses with
        | true => exact h.refuse hlock (hfree use hstage hrefuses) rfl rfl
        | false => exact h.same rfl rfl
  | request goal r =>
    simp only [hstage] at hstep
    cases choice with
    | answer pid =>
      simp only [Desktop.answer] at hstep
      split at hstep
      · cases hstep
      · split at hstep
        · split at hstep
          · cases hstep
            exact h.same rfl rfl
          · cases hstep
            exact h.finish
        · cases hstep
    | fail =>
      cases hstep
      exact h.finish
    | _ => cases hstep
  | spawn =>
    simp only [hstage] at hstep
    cases choice with
    | spawn pid =>
      simp only at hstep
      split at hstep
      · cases hstep
        exact h.same rfl rfl
      · cases hstep
    | fail =>
      cases hstep
      exact h.finish
    | _ => cases hstep
  | terminate =>
    simp only [hstage] at hstep
    cases hstep
    exact h.terminate
  | drop use =>
    simp only [hstage] at hstep
    cases hstep
    exact Calm.finish (h.same rfl rfl)
  | starting =>
    simp only [hstage] at hstep
    split at hstep
    · cases hstep
      exact h.finish
    · split at hstep
      · cases hstep
        exact h.same rfl rfl
      · cases hstep
  | read goal =>
    simp only [hstage] at hstep
    split at hstep
    · cases hstep
      exact h.finish
    · split at hstep
      · cases hstep
        exact h.finish
      · cases hstep
        exact h.same rfl rfl
  | checkStart goal r =>
    simp only [hstage] at hstep
    split at hstep
    · cases hstep
      exact h.same rfl rfl
    · cases hstep
      exact h.finish
  | checkAgain goal r =>
    simp only [hstage] at hstep
    split at hstep
    · cases hstep
      exact h.finish
    · cases hstep
      exact h.finish
  | refresh r =>
    simp only [hstage] at hstep
    split at hstep
    · cases hstep
      exact h.same rfl rfl
    · cases hstep
      exact h.same rfl rfl
  | config r =>
    simp only [hstage] at hstep
    split at hstep
    · cases hstep
      exact h.finish
    · cases hstep
      exact h.finish
  | waiting =>
    simp only [hstage] at hstep
    split at hstep
    · cases hstep
      exact h.same rfl rfl
    · split at hstep
      · cases hstep
        exact h.same rfl rfl
      · cases hstep
        exact h.same rfl rfl
  | returned record =>
    simp only [hstage] at hstep
    cases hstep
  | failed =>
    simp only [hstage] at hstep
    cases hstep

theorem Calm.step (h : Calm s) {action : Action} (hundisturbed : Undisturbed s action)
    (hstep : step s action = some s') : Calm s' := by
  cases action with
  | launch pid desktop release =>
    simp only [Desktop.step] at hstep
    split at hstep
    · cases hstep
      exact h.same rfl rfl
    · cases hstep
  | tryLock pid =>
    obtain ⟨p, _, hlock⟩ := Option.bind_eq_some_iff.mp hstep
    unfold Desktop.tryLock at hlock
    split at hlock
    · cases hheld : s.lock with
      | none =>
        rw [hheld] at hlock
        cases hlock
        exact h.same rfl rfl
      | some holder =>
        rw [hheld] at hlock
        cases hlock
        exact h.refuse hheld hundisturbed rfl rfl
    · cases hlock
  | bind pid port =>
    obtain ⟨p, _, hbind⟩ := Option.bind_eq_some_iff.mp hstep
    unfold Desktop.bind at hbind
    by_cases hphase : p.phase = if p.desktop then .locked else .begun
    · rw [if_pos hphase] at hbind
      cases hbind
      exact h.same rfl rfl
    · rw [if_neg hphase] at hbind
      cases hbind
  | publish pid =>
    obtain ⟨p, hp, hpublish⟩ := Option.bind_eq_some_iff.mp hstep
    unfold Desktop.publish at hpublish
    split at hpublish
    · cases hpublish
      refine ⟨?_, h.refusals⟩
      show (s.replaced || !p.desktop && s.served) = false
      cases hdesktop : p.desktop with
      | true => rw [h.replaced]; rfl
      | false => rw [h.replaced, hundisturbed p hp hdesktop]; rfl
    · cases hpublish
  | exit pid =>
    obtain ⟨p, _, rfl⟩ := Option.map_eq_some_iff.mp hstep
    exact h.same rfl rfl
  | verify id =>
    simp only [Desktop.step, Desktop.enter] at hstep
    split at hstep
    · cases hstep
      exact h.same rfl rfl
    · cases hstep
  | ensure id identity runtime attempts =>
    simp only [Desktop.step, Desktop.enter] at hstep
    split at hstep
    · cases hstep
      exact h.same rfl rfl
    · cases hstep
  | advance id choice =>
    obtain ⟨c, hc, hadvance⟩ := Option.bind_eq_some_iff.mp hstep
    exact h.advance hadvance fun use hstage hrefuses => hundisturbed c use hc hstage hrefuses
  | leave id =>
    obtain ⟨c, _, rfl⟩ := Option.map_eq_some_iff.mp hstep
    exact h.same rfl rfl

/-- A desktop service that serves is the one that the record names. -/
def Found (s : State) : Prop :=
  ∀ pid p, s.processes pid = some p → p.desktop = true → p.phase = .serving →
    s.record = some (p.record pid)

theorem Run.inv {P : State → Action → Prop} (h : Run P s) : Inv s := by
  induction h with
  | start => exact inv_start
  | step action _ _ hstep ih => exact ih.step hstep

theorem Run.calm (h : Run Undisturbed s) : Calm s := by
  induction h with
  | start => exact ⟨rfl, fun _ hmem => (by cases hmem)⟩
  | step action _ hundisturbed hstep ih => exact ih.step hundisturbed hstep

theorem Run.mono {P Q : State → Action → Prop} (hle : ∀ s action, P s action → Q s action)
    (h : Run P s) : Run Q s := by
  induction h with
  | start => exact .start
  | step action _ hallowed hstep ih => exact ih.step action (hle _ action hallowed) hstep

/-- In every run, one service at a time holds the lock, a call returns a record only if the service
that it names has answered it, and a caller terminates only what it has spawned.  If no step is
disturbed, the record also names the desktop service that serves, and a service cannot be started
only because another one holds the lock. -/
theorem service_discovery {P : State → Action → Prop} (h : Run P s) :
    (∀ pid p pid' p', s.processes pid = some p → p.Holds → s.processes pid' = some p' → p'.Holds →
      pid = pid') ∧
    (∀ id c r, s.callers id = some c → c.stage = .returned (some r) → r ∈ c.answered) ∧
    (∀ id c, s.callers id = some c → ∀ k ∈ c.killed, k ∈ c.spawned) ∧
    ((∀ s action, P s action → Undisturbed s action) →
      Found s ∧ ∀ holder ∈ s.refusals, ∃ pid, holder = .service pid) := by
  have hinv := h.inv
  refine ⟨?_, ?_, ?_, ?_⟩
  · intro pid p pid' p' hp hholds hp' hholds'
    have hlock := (lock_iff hinv.services hp).mpr hholds
    rw [(lock_iff hinv.services hp').mpr hholds'] at hlock
    exact (Holder.service.inj (Option.some.inj hlock)).symm
  · intro id c r hc hstage
    exact (hinv.callers id c hc).confirmed r (by rw [hstage]; rfl)
  · exact fun id c hc => (hinv.callers id c hc).killed
  · intro hundisturbed
    have hcalm := (h.mono hundisturbed).calm
    exact ⟨hinv.services.found hcalm.replaced, hcalm.refusals⟩

/-! ## Two disturbances -/

def runAll (s : State) (actions : List Action) : Option State := actions.foldlM step s

theorem Run.runAll {actions : List Action} (h : Run (fun _ _ => True) s)
    (hrun : runAll s actions = some s') : Run (fun _ _ => True) s' := by
  induction actions generalizing s with
  | nil =>
    cases hrun
    exact h
  | cons action actions ih =>
    obtain ⟨next, hstep, hrest⟩ := Option.bind_eq_some_iff.mp hrun
    exact ih (h.step action trivial hstep) hrest

/-- A desktop service runs, and a window finds it. -/
def discovery : List Action :=
  [.launch 1 true 7, .tryLock 1, .bind 1 4000, .publish 1, .verify 0, .advance 0 .ok,
    .advance 0 .ok, .advance 0 .ok, .advance 0 (.answer 1), .advance 0 .ok]

theorem service_discovery_found : ∃ s c r, runAll {} discovery = some s ∧
    s.callers 0 = some c ∧ c.stage = .returned (some r) ∧ r ∈ c.answered := by
  have hrun : (runAll {} discovery).map (fun s => (s.callers 0).map (·.stage)) =
      some (some (.returned (some ⟨1, 0, 4000, 1, 7⟩))) := by decide
  obtain ⟨s, hs, hview⟩ := Option.map_eq_some_iff.mp hrun
  obtain ⟨c, hc, hstage⟩ := Option.map_eq_some_iff.mp hview
  exact ⟨s, c, _, hs, hc, hstage,
    (service_discovery (Run.start.runAll hs)).2.1 0 c _ hc hstage⟩

/-- A headless service writes the record and ends, and then a window is to be opened. -/
def replacement : List Action :=
  [.launch 1 true 7, .tryLock 1, .bind 1 4000, .publish 1, .launch 2 false 7, .bind 2 4001,
    .publish 2, .exit 2, .ensure 0 7 false 1, .advance 0 .ok, .advance 0 .ok, .advance 0 .ok,
    .advance 0 .ok]

/-- The first start of a service asks whether one runs while the user starts another. -/
def probing : List Action :=
  [.ensure 0 7 false 1, .advance 0 .ok, .advance 0 .ok, .advance 0 .ok, .launch 1 true 7, .tryLock 1]

/-- The desktop service serves and no window can be opened, and no service comes up. -/
theorem discovery_disturbed :
    (∃ s p, Run (fun _ _ => True) s ∧ s.processes 1 = some p ∧ p.desktop = true ∧
      p.phase = .serving ∧ s.record ≠ some (p.record 1) ∧
      (s.callers 0).map (·.stage) = some .failed) ∧
    (∃ s, Run (fun _ _ => True) s ∧ s.refusals = [.probe 0]) := by
  constructor
  · have hrun : (runAll {} replacement).map
        (fun s => (s.processes 1, s.record, (s.callers 0).map (·.stage))) =
        some (some ⟨0, true, 7, .serving, 4000, 1⟩, some ⟨2, 2, 4001, 3, 7⟩, some .failed) := by
      decide
    obtain ⟨s, hs, hview⟩ := Option.map_eq_some_iff.mp hrun
    have hparts := Prod.mk.inj hview
    have hrest := Prod.mk.inj hparts.2
    refine ⟨s, _, Run.start.runAll hs, hparts.1, rfl, rfl, ?_, hrest.2⟩
    rw [hrest.1]
    decide
  · have hrun : (runAll {} probing).map (·.refusals) = some [.probe 0] := by decide
    obtain ⟨s, hs, hview⟩ := Option.map_eq_some_iff.mp hrun
    exact ⟨s, Run.start.runAll hs, hview⟩

end Flightdeck.Desktop
