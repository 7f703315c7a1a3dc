import Flightdeck.Store.DurableLicense

/-!
# The lifetime of durable licenses

What the history of a process says: a handle that was invalid stays invalid, a valid one has an open
context and a fresh proof, and a registration is notified at most once, of a handle that is invalid.
-/

namespace Flightdeck.Store

open Foundation

/-! ## What the history says -/

/-- The handle was found invalid, or closed. -/
def Ended (history : List Event) (h : Handle) : Prop :=
  .invalid h ∈ history ∨ .closed h ∈ history

/-- The newest accepted proof of a handle, and the context it was acquired in. -/
def lastProof (h : Handle) : List Event → Option (ContextId × Proved)
  | [] => none
  | .proved h' owner p :: older => if h' = h then some (owner, p) else lastProof h older
  | _ :: older => lastProof h older

/-- The proof is no older than a minute and than it lasts, by either clock. -/
def Fresh (p : Proved) (r : Reading) : Prop :=
  let seconds := p.expirationDate - p.utc
  0 < seconds ∧ seconds ≤ 60 ∧ r.utc < p.utc + seconds ∧
    (r.ticks.toNat : Int) < p.ticks.toNat + 1000 * seconds

/-- A valid handle has not ended, and its proof is fresh and its context open; a registration is
notified once, of a handle that has ended. -/
def Allowed (older : List Event) : Event → Prop
  | .valid h r => ¬ Ended older h ∧ ∃ owner p, lastProof h older = some (owner, p) ∧ Fresh p r ∧
      .contextClosed owner ∉ older
  | .delivered t h => (∀ h', .delivered t h' ∉ older) ∧ Ended older h
  | _ => True

/-! ## The invariant -/

/-- The license's deadline is that of the proof. -/
def Proves (p : Proved) (license : License) : Prop :=
  let seconds := p.expirationDate - p.utc
  0 < seconds ∧ seconds ≤ 60 ∧ license.proof.expirationDate = p.expirationDate ∧
    license.deadline = p.ticks + UInt64.ofNat seconds.toNat * 1000

/-- The handles that the event is about. -/
def Event.about : Event → Option Handle
  | .proved h _ _ => some h
  | .valid h _ => some h
  | .invalid h => some h
  | .closed h => some h
  | .contextClosed _ => none
  | .delivered _ _ => none

/-- The registration exists and its handle has ended. -/
def Due (sys : Process) (t : Token) : Prop :=
  ∃ reg, sys.manager.registrations t = some reg ∧ Ended sys.history reg.handle

/-- What is known of a thread. -/
def Sound (sys : Process) : Thread → Prop
  | .acquire license p => Proves p license
  | .notifyLost h _ => Ended sys.history h
  | .submit tokens _ => ∀ t ∈ tokens, Due sys t
  | .submitted t tokens _ => Due sys t ∧ ∀ t ∈ tokens, Due sys t
  | _ => True

structure Good (sys : Process) : Prop where
  handles : ∀ h, sys.manager.nextHandle ≤ h → sys.manager.licenses h = none
  tokens : ∀ t, sys.manager.nextToken ≤ t → sys.manager.registrations t = none
  known : ∀ e ∈ sys.history, ∀ h, e.about = some h → (sys.manager.licenses h).isSome
  present : ∀ h ∈ sys.manager.held, (sys.manager.licenses h).isSome
  held : ∀ h license, sys.manager.licenses h = some license → h ∉ sys.manager.held →
    license.closed = true
  proof : ∀ h license, sys.manager.licenses h = some license →
    ∃ p, lastProof h sys.history = some (license.owner, p) ∧ Proves p license
  ended : ∀ h license, sys.manager.licenses h = some license → Ended sys.history h →
    license.closed = true ∨ license.lost = true
  contexts : ∀ c, .contextClosed c ∈ sys.history → sys.manager.isOpen c = false
  delivered : ∀ t h, .delivered t h ∈ sys.history →
    ∃ reg, sys.manager.registrations t = some reg ∧ reg.delivered = true
  threads : ∀ t ∈ sys.threads, Sound sys t
  jobs : ∀ t ∈ sys.jobs, Due sys t
  order : EachStep Allowed sys.history

variable {sys : Process}

theorem Good.of_loaded (h : Loaded sys) : Good sys := by
  constructor
  · exact fun handle _ => h.licenses handle
  · exact fun t _ => h.registrations t
  · rw [h.history]
    nofun
  · rw [h.held]
    nofun
  · intro handle license hlicense
    rw [h.licenses] at hlicense
    cases hlicense
  · intro handle license hlicense
    rw [h.licenses] at hlicense
    cases hlicense
  · intro handle license hlicense
    rw [h.licenses] at hlicense
    cases hlicense
  · rw [h.history]
    nofun
  · rw [h.history]
    nofun
  · rw [h.threads]
    nofun
  · rw [h.jobs]
    nofun
  · rw [h.history]
    trivial

/-! ## Threads -/

theorem Good.leave (g : Good sys) (t : Thread) : Good (sys.leave t) :=
  { g with threads := fun u hu => g.threads u (List.mem_of_mem_erase hu) }

theorem Good.spawn (g : Good sys) {t : Thread} (ht : Sound sys t) : Good (sys.spawn t) := by
  refine { g with threads := fun u hu => ?_ }
  rcases List.mem_cons.mp hu with rfl | hu
  · exact ht
  · exact g.threads u hu

theorem Ended.mono {history : List Event} {e : Event} {h : Handle} (hended : Ended history h) :
    Ended (e :: history) h :=
  hended.imp (List.mem_cons_of_mem _) (List.mem_cons_of_mem _)

theorem Due.log {t : Token} {e : Event} (hdue : Due sys t) : Due (sys.log e) t := by
  obtain ⟨reg, hreg, hended⟩ := hdue
  exact ⟨reg, hreg, hended.mono⟩

theorem Sound.log {t : Thread} {e : Event} (ht : Sound sys t) : Sound (sys.log e) t := by
  cases t with
  | acquire license p => exact ht
  | notifyLost h rest => exact Ended.mono ht
  | submit tokens rest => exact fun t htoken => (ht t htoken).log
  | submitted t tokens rest => exact ⟨ht.1.log, fun t htoken => (ht.2 t htoken).log⟩
  | _ => trivial

/-! ## Events -/

/-- The event changes no proof and no ending that the licenses do not know of. -/
theorem Good.log (g : Good sys) {e : Event} (hallowed : Allowed sys.history e)
    (hknown : ∀ h, e.about = some h → (sys.manager.licenses h).isSome)
    (hproof : ∀ h, lastProof h (e :: sys.history) = lastProof h sys.history)
    (hended : ∀ h license, sys.manager.licenses h = some license → e = .invalid h ∨ e = .closed h →
      license.closed = true ∨ license.lost = true)
    (hcontext : ∀ c, e = .contextClosed c → sys.manager.isOpen c = false)
    (hdelivered : ∀ t h, e = .delivered t h →
      ∃ reg, sys.manager.registrations t = some reg ∧ reg.delivered = true) :
    Good (sys.log e) := by
  refine ⟨g.handles, g.tokens, ?_, g.present, g.held, ?_, ?_, ?_, ?_, ?_, ?_, hallowed, g.order⟩
  · intro e' he'
    rcases List.mem_cons.mp he' with rfl | hold
    · exact hknown
    · exact g.known e' hold
  · intro h license hlicense
    change ∃ p, lastProof h (e :: sys.history) = _ ∧ _
    rw [hproof]
    exact g.proof h license hlicense
  · rintro h license hlicense (hinvalid | hclosed)
    · rcases List.mem_cons.mp hinvalid with heq | hold
      · exact hended h license hlicense (.inl heq.symm)
      · exact g.ended h license hlicense (.inl hold)
    · rcases List.mem_cons.mp hclosed with heq | hold
      · exact hended h license hlicense (.inr heq.symm)
      · exact g.ended h license hlicense (.inr hold)
  · intro c hc
    rcases List.mem_cons.mp hc with heq | hold
    · exact hcontext c heq.symm
    · exact g.contexts c hold
  · intro t h ht
    rcases List.mem_cons.mp ht with heq | hold
    · exact hdelivered t h heq.symm
    · exact g.delivered t h hold
  · exact fun t ht => (g.threads t ht).log
  · exact fun t ht => (g.jobs t ht).log

/-! ## Edits of the manager -/

/-- The license has the same proof, and is not revived. -/
structure Later (old new : License) : Prop where
  owner : new.owner = old.owner
  proof : new.proof = old.proof
  deadline : new.deadline = old.deadline
  closed : old.closed = true → new.closed = true
  lost : old.lost = true → new.lost = true

theorem Later.refl (license : License) : Later license license := ⟨rfl, rfl, rfl, id, id⟩

/-- No license is revived, no registration forgotten and no context opened. -/
structure Onward (m m' : Manager) : Prop where
  handles : m.nextHandle ≤ m'.nextHandle
  tokens : m.nextToken ≤ m'.nextToken
  back : ∀ h license, m'.licenses h = some license →
    ∃ old, m.licenses h = some old ∧ Later old license
  kept : ∀ h license, m.licenses h = some license → (m'.licenses h).isSome
  present : ∀ h ∈ m'.held, h ∈ m.held
  held : ∀ h license, m'.licenses h = some license → h ∉ m'.held → h ∈ m.held →
    license.closed = true
  news : ∀ t, m'.nextToken ≤ t → m'.registrations t = none
  registrations : ∀ t reg, m.registrations t = some reg →
    ∃ reg', m'.registrations t = some reg' ∧ reg'.handle = reg.handle ∧
      (reg.delivered = true → reg'.delivered = true)
  contexts : ∀ c, m.isOpen c = false → m'.isOpen c = false

theorem Due.edit {f : Manager → Manager} {t : Token} (h : Onward sys.manager (f sys.manager))
    (hdue : Due sys t) : Due (sys.edit f) t := by
  obtain ⟨reg, hreg, hended⟩ := hdue
  obtain ⟨reg', hreg', hhandle, _⟩ := h.registrations t reg hreg
  exact ⟨reg', hreg', hhandle ▸ hended⟩

theorem Sound.edit {f : Manager → Manager} {t : Thread} (h : Onward sys.manager (f sys.manager))
    (ht : Sound sys t) : Sound (sys.edit f) t := by
  cases t with
  | acquire license p => exact ht
  | notifyLost h rest => exact ht
  | submit tokens rest => exact fun t htoken => (ht t htoken).edit h
  | submitted t tokens rest => exact ⟨ht.1.edit h, fun t htoken => (ht.2 t htoken).edit h⟩
  | _ => trivial

theorem Good.edit (g : Good sys) {f : Manager → Manager}
    (h : Onward sys.manager (f sys.manager)) : Good (sys.edit f) := by
  constructor
  · intro handle hle
    by_contra hsome
    obtain ⟨license, hlicense⟩ := Option.ne_none_iff_exists'.mp hsome
    obtain ⟨old, hold, _⟩ := h.back handle license hlicense
    rw [g.handles handle (le_trans h.handles hle)] at hold
    cases hold
  · exact h.news
  · intro e he handle habout
    obtain ⟨license, hlicense⟩ := Option.isSome_iff_exists.mp (g.known e he handle habout)
    exact h.kept handle license hlicense
  · intro handle hheld
    obtain ⟨license, hlicense⟩ := Option.isSome_iff_exists.mp
      (g.present handle (h.present handle hheld))
    exact h.kept handle license hlicense
  · intro handle license hlicense hnot
    by_cases hheld : handle ∈ sys.manager.held
    · exact h.held handle license hlicense hnot hheld
    · obtain ⟨old, hold, hlater⟩ := h.back handle license hlicense
      exact hlater.closed (g.held handle old hold hheld)
  · intro handle license hlicense
    obtain ⟨old, hold, hlater⟩ := h.back handle license hlicense
    obtain ⟨p, hlast, hproves⟩ := g.proof handle old hold
    refine ⟨p, ?_, ?_⟩
    · rw [hlater.owner]
      exact hlast
    · rw [Proves, hlater.proof, hlater.deadline]
      exact hproves
  · intro handle license hlicense hended
    obtain ⟨old, hold, hlater⟩ := h.back handle license hlicense
    exact (g.ended handle old hold hended).imp hlater.closed hlater.lost
  · exact fun c hc => h.contexts c (g.contexts c hc)
  · intro t handle hdelivered
    obtain ⟨reg, hreg, hdone⟩ := g.delivered t handle hdelivered
    obtain ⟨reg', hreg', _, hkept⟩ := h.registrations t reg hreg
    exact ⟨reg', hreg', hkept hdone⟩
  · exact fun t ht => (g.threads t ht).edit h
  · exact fun t ht => (g.jobs t ht).edit h
  · exact g.order

theorem Good.onward_license (g : Good sys) {h : Handle} {f : License → License}
    (hf : ∀ license, sys.manager.licenses h = some license → Later license (f license)) :
    Onward sys.manager (sys.manager.editLicense h f) := by
  constructor
  · exact le_rfl
  · exact le_rfl
  · intro h' license hlicense
    change Function.update sys.manager.licenses h ((sys.manager.licenses h).map f) h' = _
      at hlicense
    by_cases hh : h' = h
    · subst hh
      rw [Function.update_self] at hlicense
      obtain ⟨old, hold, rfl⟩ := Option.map_eq_some_iff.mp hlicense
      exact ⟨old, hold, hf old hold⟩
    · rw [Function.update_of_ne hh] at hlicense
      exact ⟨license, hlicense, .refl license⟩
  · intro h' license hlicense
    change (Function.update sys.manager.licenses h ((sys.manager.licenses h).map f) h').isSome
    by_cases hh : h' = h
    · subst hh
      rw [Function.update_self, hlicense]
      rfl
    · rw [Function.update_of_ne hh, hlicense]
      rfl
  · exact fun _ hheld => hheld
  · exact fun _ _ _ hnot hheld => absurd hheld hnot
  · exact g.tokens
  · exact fun t reg hreg => ⟨reg, hreg, rfl, id⟩
  · exact fun c hc => hc

theorem Good.onward_registration (g : Good sys) {t : Token} {f : Registration → Registration}
    (hf : ∀ reg, (f reg).handle = reg.handle ∧ (reg.delivered = true → (f reg).delivered = true)) :
    Onward sys.manager (sys.manager.editRegistration t f) := by
  constructor
  · exact le_rfl
  · exact le_rfl
  · exact fun h license hlicense => ⟨license, hlicense, .refl license⟩
  · intro h license hlicense
    change (sys.manager.licenses h).isSome
    rw [hlicense]
    rfl
  · exact fun _ hheld => hheld
  · exact fun _ _ _ hnot hheld => absurd hheld hnot
  · intro t' hle
    have hnone : sys.manager.registrations t' = none := g.tokens t' hle
    change Function.update sys.manager.registrations t ((sys.manager.registrations t).map f) t' = _
    by_cases ht : t' = t
    · subst ht
      rw [Function.update_self, hnone]
      rfl
    · rw [Function.update_of_ne ht, hnone]
  · intro t' reg hreg
    change ∃ reg', Function.update sys.manager.registrations t
      ((sys.manager.registrations t).map f) t' = some reg' ∧ _
    by_cases ht : t' = t
    · subst ht
      rw [Function.update_self, hreg]
      exact ⟨f reg, rfl, hf reg⟩
    · rw [Function.update_of_ne ht]
      exact ⟨reg, hreg, rfl, id⟩
  · exact fun c hc => hc

theorem Good.editLicense (g : Good sys) {h : Handle} {f : License → License}
    (hf : ∀ license, sys.manager.licenses h = some license → Later license (f license)) :
    Good (sys.edit fun m => m.editLicense h f) :=
  g.edit (f := fun m => m.editLicense h f) (g.onward_license hf)

theorem Good.editRegistration (g : Good sys) {t : Token} {f : Registration → Registration}
    (hf : ∀ reg, (f reg).handle = reg.handle ∧ (reg.delivered = true → (f reg).delivered = true)) :
    Good (sys.edit fun m => m.editRegistration t f) :=
  g.edit (f := fun m => m.editRegistration t f) (g.onward_registration hf)

/-! ## Looking at a license -/

theorem Good.closeContext (g : Good sys) (c : ContextId) : Good (sys.closeContext c) := by
  apply Good.spawn
  · apply Good.log
    · apply g.edit
      refine ⟨le_rfl, le_rfl, ?_, ?_, fun _ hheld => hheld,
        fun _ _ _ hnot hheld => absurd hheld hnot, g.tokens, ?_, ?_⟩
      · exact fun h license hlicense => ⟨license, hlicense, .refl license⟩
      · intro h license hlicense
        change (sys.manager.licenses h).isSome
        rw [hlicense]
        rfl
      · exact fun t reg hreg => ⟨reg, hreg, rfl, id⟩
      · intro c' hc'
        change Function.update sys.manager.isOpen c false c' = false
        by_cases hc : c' = c
        · rw [hc, Function.update_self]
        · rw [Function.update_of_ne hc, hc']
    · trivial
    · nofun
    · exact fun _ => rfl
    · nofun
    · intro c' hc'
      cases hc'
      exact Function.update_self ..
    · nofun
  · trivial

theorem setProof_proves {r : Reading} {proof : GameLicense} {license new : License}
    (h : setProof r proof license = some new) :
    Proves ⟨r.utc, r.ticks, proof.expirationDate⟩ new ∧ new.owner = license.owner ∧
      new.closed = license.closed ∧ new.lost = license.lost := by
  unfold setProof at h
  dsimp only at h
  split at h
  · cases h
  · rename_i hseconds
    cases h
    push Not at hseconds
    exact ⟨⟨hseconds.1, hseconds.2, rfl, rfl⟩, rfl, rfl, rfl⟩

/-- A license that is valid now has a fresh proof. -/
theorem validLocked_fresh {isOpen : Bool} {r : Reading} {license : License} {p : Proved}
    (hproves : Proves p license) (hvalid : (validLocked isOpen r license).1 = true) :
    license.closed = false ∧ license.lost = false ∧ isOpen = true ∧ Fresh p r := by
  obtain ⟨hpositive, hbound, hexpires, hdeadline⟩ := hproves
  unfold validLocked at hvalid
  split at hvalid
  · cases hvalid
  · rename_i hopen
    split at hvalid
    · cases hvalid
    · rename_i hlive
      simp only [Bool.or_eq_true, Bool.not_eq_true', decide_eq_true_eq, not_or, Bool.not_eq_true,
        Bool.not_eq_false] at hopen hlive
      refine ⟨hopen.1, hopen.2, hlive.1.1, hpositive, hbound, ?_, ?_⟩
      · rw [← hexpires]
        omega
      · have hticks : r.ticks.toNat < license.deadline.toNat := by
          rw [← UInt64.lt_iff_toNat_lt]
          exact UInt64.not_le.mp hlive.2
        rw [hdeadline, UInt64.toNat_add, UInt64.toNat_mul] at hticks
        have hseconds : (UInt64.ofNat (p.expirationDate - p.utc).toNat).toNat =
            (p.expirationDate - p.utc).toNat := by
          rw [UInt64.toNat_ofNat']
          omega
        rw [hseconds] at hticks
        have hthousand : (1000 : UInt64).toNat = 1000 := rfl
        rw [hthousand] at hticks
        have hle := Nat.mod_le (p.ticks.toNat + (p.expirationDate - p.utc).toNat * 1000 % 2 ^ 64)
          (2 ^ 64)
        have hle' := Nat.mod_le ((p.expirationDate - p.utc).toNat * 1000) (2 ^ 64)
        omega

theorem validLocked_later (isOpen : Bool) (r : Reading) (license : License) :
    Later license (validLocked isOpen r license).2 := by
  unfold validLocked
  split
  · exact .refl license
  · split
    · exact ⟨rfl, rfl, rfl, id, fun _ => rfl⟩
    · exact .refl license

theorem validLocked_ends {isOpen : Bool} {r : Reading} {license : License}
    (h : (validLocked isOpen r license).1 = false) :
    (validLocked isOpen r license).2.closed = true ∨
      (validLocked isOpen r license).2.lost = true := by
  unfold validLocked at h ⊢
  split at h
  · rename_i hended
    rw [if_pos hended]
    exact Bool.or_eq_true_iff.mp hended
  · rename_i hlive
    rw [if_neg hlive]
    split at h
    · rename_i hstale
      rw [if_pos hstale]
      exact .inr rfl
    · cases h

theorem Good.examine (g : Good sys) {h : Handle} {license : License} (r : Reading)
    (hlicense : sys.manager.licenses h = some license) : Good (sys.examine h r license).2 := by
  unfold Process.examine
  dsimp only
  generalize hresult : validLocked (sys.manager.isOpen license.owner) r license = found
  have hedit : Good (sys.edit fun m => m.editLicense h fun _ => found.2) := by
    apply g.editLicense
    intro old hold
    rw [hlicense] at hold
    cases hold
    rw [← hresult]
    exact validLocked_later ..
  have hnow : (sys.edit fun m => m.editLicense h fun _ => found.2).manager.licenses h =
      some found.2 := by
    change Function.update sys.manager.licenses h ((sys.manager.licenses h).map _) h = _
    rw [Function.update_self, hlicense]
    rfl
  have hsome : ∀ h', some h = some h' →
      ((sys.edit fun m => m.editLicense h fun _ => found.2).manager.licenses h').isSome := by
    rintro h' hh
    cases hh
    rw [hnow]
    rfl
  cases hfound : found.1 with
  | true =>
    obtain ⟨p, hlast, hproves⟩ := g.proof h license hlicense
    rw [← hresult] at hfound
    obtain ⟨hclosed, hlost, hopen, hfresh⟩ := validLocked_fresh hproves hfound
    apply hedit.log
    · refine ⟨fun hended => ?_, license.owner, p, hlast, hfresh, fun hcontext => ?_⟩
      · rcases g.ended h license hlicense hended with h' | h'
        · rw [hclosed] at h'
          cases h'
        · rw [hlost] at h'
          cases h'
      · rw [g.contexts _ hcontext] at hopen
        cases hopen
    · exact hsome
    · exact fun _ => rfl
    · rintro h' l hl (heq | heq)
      · cases heq
      · cases heq
    · nofun
    · nofun
  | false =>
    apply hedit.log
    · trivial
    · exact hsome
    · exact fun _ => rfl
    · rintro h' l hl (heq | heq)
      · cases heq
        rw [hnow] at hl
        cases hl
        rw [← hresult] at hfound ⊢
        exact validLocked_ends hfound
      · cases heq
    · nofun
    · nofun

/-- A handle that is found invalid has ended. -/
theorem examine_ended {h : Handle} {license : License} {r : Reading}
    (hfound : (sys.examine h r license).1 = false) :
    Ended (sys.examine h r license).2.history h := by
  unfold Process.examine at hfound ⊢
  dsimp only at hfound ⊢
  rw [hfound]
  exact .inl List.mem_cons_self

theorem Good.look (g : Good sys) (h : Handle) (r : Reading) :
    Good (sys.look h r).2 ∧
      ((sys.manager.licenses h).isSome → (sys.look h r).1 = false →
        Ended (sys.look h r).2.history h) := by
  unfold Process.look
  cases hlicense : sys.manager.licenses h with
  | none => exact ⟨g, nofun⟩
  | some license =>
    dsimp only
    constructor
    · apply Good.examine
      · split
        · exact g.closeContext _
        · exact g
      · split
        · exact hlicense
        · exact hlicense
    · exact fun _ hfound => examine_ended hfound

theorem isSome_editLicense (m : Manager) (h h' : Handle) (f : License → License) :
    ((m.editLicense h f).licenses h').isSome = (m.licenses h').isSome := by
  change (Function.update m.licenses h ((m.licenses h).map f) h').isSome = _
  by_cases hh : h' = h
  · rw [hh, Function.update_self, Option.isSome_map]
  · rw [Function.update_of_ne hh]

theorem look_isSome {h : Handle} {r : Reading} (h' : Handle) :
    ((sys.look h r).2.manager.licenses h').isSome = (sys.manager.licenses h').isSome := by
  unfold Process.look
  cases hlicense : sys.manager.licenses h with
  | none => rfl
  | some license =>
    apply Eq.trans (isSome_editLicense ..)
    split <;> rfl

/-! ## Polls -/

theorem Good.pollLook (g : Good sys) (h : Handle) (rest : List Handle) (r : Reading)
    (ticks : UInt64) : Good (sys.pollLook h rest r ticks) := by
  obtain ⟨hlook, hended⟩ := g.look h r
  have hsome : ((sys.look h r).2.manager.licenses h).isSome = (sys.manager.licenses h).isSome :=
    look_isSome h
  unfold Process.pollLook
  generalize sys.look h r = looked at hlook hended hsome ⊢
  obtain ⟨valid, now⟩ := looked
  dsimp only at hlook hended hsome ⊢
  cases hlicense : now.manager.licenses h with
  | none => exact hlook.spawn trivial
  | some license =>
    rw [hlicense] at hsome
    dsimp only
    split
    · rename_i hinvalid
      apply hlook.spawn
      exact hended hsome.symm (by simpa using hinvalid)
    · split
      · apply Good.spawn
        · exact hlook.editLicense fun license _ => ⟨rfl, rfl, rfl, id, id⟩
        · trivial
      · exact hlook.spawn trivial

theorem Sound.of_same {sys' : Process} {t : Thread}
    (hregs : sys'.manager.registrations = sys.manager.registrations)
    (hhistory : sys'.history = sys.history) (ht : Sound sys t) : Sound sys' t := by
  have hdue : ∀ {t}, Due sys t → Due sys' t := by
    rintro t ⟨reg, hreg, hended⟩
    exact ⟨reg, hregs ▸ hreg, hhistory ▸ hended⟩
  cases t with
  | acquire license p => exact ht
  | notifyLost h rest =>
    change Ended sys'.history h
    rw [hhistory]
    exact ht
  | submit tokens rest => exact fun t htoken => hdue (ht t htoken)
  | submitted t tokens rest => exact ⟨hdue ht.1, fun t htoken => hdue (ht.2 t htoken)⟩
  | _ => trivial

/-- A license gets a handle or a new proof: its deadline is that of the proof that is logged. -/
theorem Good.prove (g : Good sys) {m : Manager} {h : Handle} {license : License} {p : Proved}
    (hproves : Proves p license) (hlicense : m.licenses h = some license)
    (hothers : ∀ h', h' ≠ h → m.licenses h' = sys.manager.licenses h')
    (hhandles : ∀ h', m.nextHandle ≤ h' → m.licenses h' = none)
    (hended : Ended sys.history h → license.closed = true ∨ license.lost = true)
    (hheld : ∀ h', h' ∈ sys.manager.held → h' ∈ m.held)
    (hpresent : ∀ h', h' ∈ m.held → h' ≠ h → h' ∈ sys.manager.held)
    (hclosed : h ∉ m.held → license.closed = true) (htokens : m.nextToken = sys.manager.nextToken)
    (hregs : m.registrations = sys.manager.registrations)
    (hopen : m.isOpen = sys.manager.isOpen) :
    Good { sys with manager := m, history := .proved h license.owner p :: sys.history } := by
  have hold : ∀ {e}, e ∈ Event.proved h license.owner p :: sys.history →
      e ≠ .proved h license.owner p → e ∈ sys.history :=
    fun he hne => (List.mem_cons.mp he).resolve_left hne
  constructor
  · exact hhandles
  · intro t hle
    change m.registrations t = none
    rw [hregs]
    exact g.tokens t (htokens ▸ hle)
  · intro e he h' habout
    change (m.licenses h').isSome
    by_cases hh : h' = h
    · rw [hh, hlicense]
      rfl
    · rw [hothers h' hh]
      rcases List.mem_cons.mp he with rfl | hold
      · cases habout
        exact absurd rfl hh
      · exact g.known e hold h' habout
  · intro h' hin
    change (m.licenses h').isSome
    by_cases hh : h' = h
    · rw [hh, hlicense]
      rfl
    · rw [hothers h' hh]
      exact g.present h' (hpresent h' hin hh)
  · intro h' l hl hnot
    change m.licenses h' = some l at hl
    by_cases hh : h' = h
    · subst hh
      rw [hlicense] at hl
      cases hl
      exact hclosed hnot
    · rw [hothers h' hh] at hl
      exact g.held h' l hl fun hin => hnot (hheld h' hin)
  · intro h' l hl
    change m.licenses h' = some l at hl
    change ∃ q, (if h = h' then some (license.owner, p) else lastProof h' sys.history) = _ ∧ _
    by_cases hh : h' = h
    · subst hh
      rw [hlicense] at hl
      cases hl
      rw [if_pos rfl]
      exact ⟨p, rfl, hproves⟩
    · rw [if_neg (Ne.symm hh)]
      rw [hothers h' hh] at hl
      exact g.proof h' l hl
  · intro h' l hl hend
    change m.licenses h' = some l at hl
    have hbefore : Ended sys.history h' := by
      rcases hend with hi | hc
      · exact .inl (hold hi nofun)
      · exact .inr (hold hc nofun)
    by_cases hh : h' = h
    · subst hh
      rw [hlicense] at hl
      cases hl
      exact hended hbefore
    · rw [hothers h' hh] at hl
      exact g.ended h' l hl hbefore
  · intro c hc
    change m.isOpen c = false
    rw [hopen]
    exact g.contexts c (hold hc nofun)
  · intro t h' ht
    change ∃ reg, m.registrations t = some reg ∧ _
    rw [hregs]
    exact g.delivered t h' (hold ht nofun)
  · intro t ht
    have hsame : Sound { sys with manager := m } t := Sound.of_same hregs rfl (g.threads t ht)
    exact hsame.log
  · intro t ht
    obtain ⟨reg, hreg, hend⟩ := g.jobs t ht
    refine ⟨reg, ?_, hend.mono⟩
    change m.registrations t = some reg
    rw [hregs]
    exact hreg
  · exact ⟨trivial, g.order⟩

theorem Good.renew (g : Good sys) (h : Handle) (valid : Bool)
    (result : Except HResult GameLicense) (r : Reading) : Good (sys.renew h valid result r) := by
  unfold Process.renew
  cases hlicense : sys.manager.licenses h with
  | none => exact g
  | some license =>
    cases result with
    | error hr => exact g.editLicense fun license _ => ⟨rfl, rfl, rfl, id, id⟩
    | ok proof =>
      dsimp only
      split
      · cases hset : setProof r proof license with
        | none => exact g.editLicense fun license _ => ⟨rfl, rfl, rfl, id, id⟩
        | some new =>
          obtain ⟨hproves, _, hclosed, hlost⟩ := setProof_proves hset
          have hnew : (sys.manager.editLicense h fun _ => new).licenses h = some new := by
            change Function.update sys.manager.licenses h ((sys.manager.licenses h).map _) h = _
            rw [Function.update_self, hlicense]
            rfl
          apply g.prove hproves hnew
          · exact fun h' hh => Function.update_of_ne hh ..
          · intro h' hle
            have hnone := g.handles h' hle
            have hsame := isSome_editLicense sys.manager h h' fun _ => new
            rw [hnone] at hsame
            exact Option.isNone_iff_eq_none.mp (by simpa using hsame)
          · intro hended
            rw [hclosed, hlost]
            exact g.ended h license hlicense hended
          · exact fun h' hin => hin
          · exact fun h' hin _ => hin
          · intro hnot
            rw [hclosed]
            exact g.held h license hlicense hnot
          · rfl
          · rfl
          · rfl
      · exact g

theorem Good.pollRenew (g : Good sys) (h : Handle) (rest : List Handle)
    (result : Except HResult GameLicense) (before now after : Reading) :
    Good (sys.pollRenew h rest result before now after) := by
  unfold Process.pollRenew
  have hfirst := (g.look h before).1
  generalize sys.look h before = first at hfirst ⊢
  obtain ⟨valid, sys₁⟩ := first
  dsimp only at hfirst ⊢
  have hrenewed := hfirst.renew h valid result now
  have hpolled : Good ((sys₁.renew h valid result now).edit fun m => m.editLicense h fun l =>
      { l with polling := false }) :=
    hrenewed.editLicense fun license _ => ⟨rfl, rfl, rfl, id, id⟩
  generalize (sys₁.renew h valid result now).edit (fun m =>
    m.editLicense h fun l => { l with polling := false }) = polled at hpolled ⊢
  obtain ⟨hlook, hended⟩ := hpolled.look h after
  have hsome : ((polled.look h after).2.manager.licenses h).isSome =
      (polled.manager.licenses h).isSome := look_isSome h
  generalize Process.look polled h after = last at hlook hended hsome ⊢
  obtain ⟨valid', sys₂⟩ := last
  dsimp only at hlook hended hsome ⊢
  cases hlicense : sys₂.manager.licenses h with
  | none => exact hlook.spawn trivial
  | some license =>
    rw [hlicense] at hsome
    cases valid' with
    | true => exact hlook.spawn trivial
    | false => exact hlook.spawn (hended hsome.symm rfl)

/-! ## Handles -/

theorem Good.acquire (g : Good sys) (owner : ContextId) (product : Bytes) (o : Observation)
    (r : Reading) : Good (sys.acquire owner product o r) := by
  unfold Process.acquire
  split
  · split
    · exact g
    · split
      · exact g
      · rename_i license hset
        exact g.spawn (setProof_proves hset).1
  · exact g

theorem Good.insert (g : Good sys) {license : License} {p : Proved} (hproves : Proves p license)
    (initialized cancelled : Bool) : Good (sys.insert license p initialized cancelled) := by
  unfold Process.insert
  dsimp only
  split
  · exact g
  · split
    · exact g
    · have hfresh : ¬ Ended sys.history sys.manager.nextHandle := by
        have hnone := g.handles sys.manager.nextHandle le_rfl
        rintro (hi | hc)
        · have hsome := g.known _ hi _ rfl
          rw [hnone] at hsome
          cases hsome
        · have hsome := g.known _ hc _ rfl
          rw [hnone] at hsome
          cases hsome
      apply g.prove hproves
      · exact Function.update_self ..
      · exact fun h' hh => Function.update_of_ne hh ..
      · intro h' hle
        change sys.manager.nextHandle + 1 ≤ h' at hle
        change Function.update sys.manager.licenses sys.manager.nextHandle _ h' = none
        rw [Function.update_of_ne (Nat.ne_of_gt hle)]
        exact g.handles h' (Nat.le_of_succ_le hle)
      · exact fun hended => absurd hended hfresh
      · exact fun h' hin => List.mem_append_left _ hin
      · intro h' hin hne
        rcases List.mem_append.mp hin with hold | hnew
        · exact hold
        · exact absurd (List.mem_singleton.mp hnew) hne
      · exact fun hnot => absurd (List.mem_append_right _ List.mem_cons_self) hnot
      · rfl
      · rfl
      · rfl

theorem Good.isValid (g : Good sys) (h : Handle) : Good (sys.isValid h) := by
  unfold Process.isValid
  split
  · exact g.spawn trivial
  · rename_i hnot
    split
    · rename_i hsome
      apply g.log
      · trivial
      · rintro h' hh
        cases hh
        exact hsome
      · exact fun _ => rfl
      · rintro h' license hlicense (heq | heq)
        · cases heq
          exact .inl (g.held h license hlicense hnot)
        · cases heq
      · nofun
      · nofun
    · exact g

theorem Good.closeHandle (g : Good sys) (h : Handle) : Good (sys.closeHandle h) := by
  unfold Process.closeHandle
  split
  · rename_i hheld
    apply Good.spawn
    · have hlicense := g.onward_license (h := h)
        (f := fun l => { l with closed := true, cancelled := true })
        fun license _ => ⟨rfl, rfl, rfl, fun _ => rfl, id⟩
      have hclosed : ∀ license, (sys.manager.editLicense h fun l =>
          { l with closed := true, cancelled := true }).licenses h = some license →
          license.closed = true := by
        intro license hl
        change Function.update sys.manager.licenses h ((sys.manager.licenses h).map _) h = _ at hl
        rw [Function.update_self] at hl
        obtain ⟨old, _, rfl⟩ := Option.map_eq_some_iff.mp hl
        rfl
      have hedit : Good (sys.edit fun m =>
          { m.editLicense h (fun l => { l with closed := true, cancelled := true }) with
            held := m.held.erase h }) := by
        apply g.edit
        refine { hlicense with present := fun h' hin => List.mem_of_mem_erase hin, held := ?_ }
        intro h' license hl hnot hheld
        by_cases hh : h' = h
        · subst hh
          exact hclosed license hl
        · exact absurd ((List.mem_erase_of_ne hh).mpr hheld) hnot
      apply hedit.log
      · trivial
      · rintro h' hh
        cases hh
        change ((sys.manager.editLicense h _).licenses h).isSome
        rw [isSome_editLicense]
        exact g.present h hheld
      · exact fun _ => rfl
      · rintro h' license hl (heq | heq)
        · cases heq
        · cases heq
          exact .inl (hclosed license hl)
      · nofun
      · nofun
    · trivial
  · exact g

theorem Good.deactivate (g : Good sys) (t : Token) : Good (sys.deactivate t) :=
  g.editRegistration fun _ => ⟨rfl, id⟩

theorem Good.closeNext (g : Good sys) (h : Handle) (cursor : Token) :
    Good (sys.closeNext h cursor) := by
  unfold Process.closeNext
  split
  · exact g
  · exact (g.deactivate _).spawn trivial

/-- The manager's lists and flags do not matter. -/
theorem Good.onward_listed (g : Good sys) (listed : List Token) (stopped : Bool) :
    Onward sys.manager { sys.manager with listed, stopped } := by
  refine ⟨le_rfl, le_rfl, ?_, ?_, fun _ hheld => hheld,
        fun _ _ _ hnot hheld => absurd hheld hnot, g.tokens, ?_,
    fun _ hc => hc⟩
  · exact fun h license hlicense => ⟨license, hlicense, .refl license⟩
  · intro h license hlicense
    change (sys.manager.licenses h).isSome
    rw [hlicense]
    rfl
  · exact fun t reg hreg => ⟨reg, hreg, rfl, id⟩

theorem Good.eraseIfIdle (g : Good sys) (t : Token) : Good (sys.eraseIfIdle t) := by
  unfold Process.eraseIfIdle
  split
  · exact g.edit (f := fun m => { m with listed := m.listed.erase t })
      (g.onward_listed (sys.manager.listed.erase t) sys.manager.stopped)
  · exact g

theorem Good.loseLicense (g : Good sys) (c : ContextId) (h : Handle) :
    Good (sys.loseLicense c h) := by
  apply g.editLicense
  intro license _
  split
  · exact ⟨rfl, rfl, rfl, id, fun _ => rfl⟩
  · exact .refl license

/-! ## Registrations -/

theorem Good.register (g : Good sys) (h : Handle) (queued : Bool) :
    Good (sys.register h queued) := by
  unfold Process.register
  dsimp only
  split
  · exact g
  · split
    · exact g
    · apply g.edit
      have hnew : sys.manager.registrations sys.manager.nextToken = none :=
        g.tokens _ le_rfl
      refine ⟨le_rfl, Nat.le_succ _, ?_, ?_, fun _ hheld => hheld,
        fun _ _ _ hnot hheld => absurd hheld hnot, ?_, ?_,
        fun _ hc => hc⟩
      · exact fun h license hlicense => ⟨license, hlicense, .refl license⟩
      · intro h license hlicense
        change (sys.manager.licenses h).isSome
        rw [hlicense]
        rfl
      · intro t hle
        change Function.update sys.manager.registrations sys.manager.nextToken _ t = none
        change sys.manager.nextToken + 1 ≤ t at hle
        rw [Function.update_of_ne (Nat.ne_of_gt hle)]
        exact g.tokens t (Nat.le_of_succ_le hle)
      · intro t reg hreg
        refine ⟨reg, ?_, rfl, id⟩
        change Function.update sys.manager.registrations sys.manager.nextToken _ t = _
        have hne : t ≠ sys.manager.nextToken := by
          rintro rfl
          rw [hnew] at hreg
          cases hreg
        rw [Function.update_of_ne hne]
        exact hreg

theorem Good.unregister (g : Good sys) (h : Handle) (t : Token) : Good (sys.unregister h t) := by
  unfold Process.unregister
  split
  · exact g.spawn trivial
  · exact g

/-- A registration is delivered to only once, and only when its job is due. -/
theorem Good.notification (g : Good sys) {t : Token} (hdue : Due sys t) (cancelled : Bool) :
    Good (sys.notification t cancelled) := by
  obtain ⟨reg, hreg, hended⟩ := hdue
  unfold Process.notification
  rw [hreg]
  dsimp only
  have hqueued : Good (sys.edit fun m => m.editRegistration t fun reg =>
      { reg with queued := false }) := g.editRegistration fun _ => ⟨rfl, id⟩
  split
  · exact hqueued
  · rename_i hrun
    simp only [Bool.or_eq_true, Bool.not_eq_true', not_or, Bool.not_eq_true,
      Bool.not_eq_false] at hrun
    have hfirst : ∀ h, .delivered t h ∉ sys.history := by
      intro h hbefore
      obtain ⟨reg', hreg', hdone⟩ := g.delivered t h hbefore
      rw [hreg] at hreg'
      cases hreg'
      rw [hrun.2] at hdone
      cases hdone
    have hrunning := hqueued.editRegistration (t := t)
      (f := fun reg => { reg with delivered := true, running := reg.running + 1 })
      fun _ => ⟨rfl, fun _ => rfl⟩
    apply Good.spawn
    · apply hrunning.log
      · exact ⟨hfirst, hended⟩
      · nofun
      · exact fun _ => rfl
      · rintro h license _ (heq | heq)
        · cases heq
        · cases heq
      · nofun
      · rintro t' h' heq
        cases heq
        refine ⟨{ reg with queued := false, delivered := true, running := reg.running + 1 }, ?_,
          rfl⟩
        change Function.update (Function.update sys.manager.registrations t _) t
          (Option.map _ (Function.update sys.manager.registrations t _ t)) t = _
        rw [Function.update_self, Function.update_self, hreg]
        rfl
    · trivial

theorem Good.notifyLost (g : Good sys) {h : Handle} (hended : Ended sys.history h)
    (rest : List Handle) : Good (sys.notifyLost h rest) := by
  unfold Process.notifyLost
  split
  · exact g.spawn trivial
  · apply g.spawn
    intro t ht
    have hhas := (List.mem_filter.mp ht).2
    unfold Process.hasHandle at hhas
    obtain ⟨reg, hreg, hsame⟩ := (Option.any_eq_true _ _).mp hhas
    exact ⟨reg, hreg, by rw [eq_of_beq hsame]; exact hended⟩

theorem Good.submit (g : Good sys) {t : Token} {tokens : List Token}
    (hdue : ∀ t' ∈ t :: tokens, Due sys t') (rest : List Handle) :
    Good (sys.submit t tokens rest) := by
  unfold Process.submit
  split
  · have honward := g.onward_registration (t := t) (f := fun reg => { reg with queued := true })
      fun _ => ⟨rfl, id⟩
    apply Good.spawn
    · exact g.editRegistration fun _ => ⟨rfl, id⟩
    · exact ⟨(hdue t List.mem_cons_self).edit honward,
        fun t' ht' => (hdue t' (List.mem_cons_of_mem _ ht')).edit honward⟩
  · exact g.spawn fun t' ht' => hdue t' (List.mem_cons_of_mem _ ht')

theorem Good.submitted (g : Good sys) {t : Token} {tokens : List Token} (hdue : Due sys t)
    (hdues : ∀ t' ∈ tokens, Due sys t') (rest : List Handle) (hr : HResult) :
    Good (sys.submitted t tokens rest hr) := by
  unfold Process.submitted
  split
  · have honward := g.onward_registration (t := t) (f := fun reg => { reg with queued := false })
      fun _ => ⟨rfl, id⟩
    apply Good.spawn
    · exact g.editRegistration fun _ => ⟨rfl, id⟩
    · exact fun t' ht' => (hdues t' ht').edit honward
  · have hjob : Good { sys with jobs := t :: sys.jobs } := by
      have hjobs : ∀ t' ∈ t :: sys.jobs, Due sys t' := by
        intro t' ht'
        rcases List.mem_cons.mp ht' with rfl | hold
        · exact hdue
        · exact g.jobs t' hold
      exact { g with
        jobs := hjobs, threads := fun u hu => Sound.of_same rfl rfl (g.threads u hu) }
    exact hjob.spawn hdues

/-! ## Every run -/

theorem Good.step (g : Good sys) {sys' : Process} (h : Step sys sys') : Good sys' := by
  cases h with
  | acquire owner product o r => exact g.acquire owner product o r
  | insert license p initialized cancelled ht =>
    exact (g.leave _).insert (g.threads _ ht) initialized cancelled
  | isValid h => exact g.isValid h
  | isValidLook h r ht => exact ((g.leave _).look h r).1
  | closeHandle h => exact g.closeHandle h
  | closeNext h cursor ht => exact (g.leave _).closeNext h cursor
  | closing h t ht => exact ((g.leave _).eraseIfIdle t).spawn trivial
  | register h queued => exact g.register h queued
  | unregister h t => exact g.unregister h t
  | deactivate t ht => exact ((g.leave _).deactivate t).spawn trivial
  | eraseIfIdle t ht => exact (g.leave _).eraseIfIdle t
  | closeContext c => exact g.closeContext c
  | contextClosing c ht => exact (g.leave _).spawn trivial
  | loseLicense c h rest ht => exact ((g.leave _).loseLicense c h).spawn trivial
  | shutdown =>
    exact g.edit (f := fun m => { m with stopped := true })
      (g.onward_listed sys.manager.listed true)
  | poll =>
    split
    · exact g
    · exact g.spawn trivial
  | pollLook h rest r ticks ht => exact (g.leave _).pollLook h rest r ticks
  | pollRenew h rest o before now after license ht hlicense =>
    exact (g.leave _).pollRenew h rest _ before now after
  | pollThrown h rest hr before now after ht =>
    exact (g.leave _).pollRenew h rest _ before now after
  | notifyLost h rest ht =>
    exact (g.leave _).notifyLost (g.threads _ ht) rest
  | submit t tokens rest ht => exact (g.leave _).submit (g.threads _ ht) rest
  | submitLast rest ht => exact (g.leave _).spawn trivial
  | submitted t tokens rest hr ht =>
    obtain ⟨hdue, hdues⟩ := g.threads _ ht
    exact (g.leave _).submitted hdue hdues rest hr
  | notification t cancelled ht =>
    have hleft : Good { sys with jobs := sys.jobs.erase t } := by
      refine { g with jobs := fun t' ht' => g.jobs t' (List.mem_of_mem_erase ht'), threads := ?_ }
      exact fun u hu => Sound.of_same rfl rfl (g.threads u hu)
    exact hleft.notification (g.jobs t ht) cancelled
  | callback t ht =>
    exact ((g.leave _).editRegistration (f := fun reg => { reg with running := reg.running - 1 })
      fun _ => ⟨rfl, id⟩).spawn trivial
  | abandon t => exact g.leave t

theorem Good.of_reachable (h : Reachable sys) : Good sys := by
  induction h with
  | start hloaded => exact .of_loaded hloaded
  | step _ hstep ih => exact ih.step hstep

/-- In every run a handle that was found invalid or closed is never valid again, a valid handle has
an open context and a proof that is fresh by both clocks, and a registration is notified at most
once, and only of a handle that has ended. -/
theorem durable_license_lifetime (h : Reachable sys) : EachStep Allowed sys.history :=
  (Good.of_reachable h).order

/-! ## A license that is not renewed -/

section

def loaded : Process :=
  { manager := {
      licenses := fun _ => none, held := [], registrations := fun _ => none, listed := []
      nextHandle := 1, nextToken := 1, stopped := false, isOpen := fun _ => true }
    threads := [], jobs := [], history := [] }

theorem loaded_loaded : Loaded loaded := ⟨fun _ => rfl, rfl, fun _ => rfl, rfl, rfl, rfl⟩

def product : Bytes := utf8 "OTHER1234567"

def grant : GameLicense :=
  { skuStoreId := utf8 "OTHER1234567/0001" ++ [0], isActive := 1, isTrialOwnedByThisUser := 0
    isDiscLicense := 0, isTrial := 0, trialTimeRemainingInSeconds := 0
    trialUniqueId := List.replicate 64 0, expirationDate := 1060 }

def granted : Observation := ⟨true, false, some (S_OK, grant), true, false, 1000⟩

def held : License :=
  { Process.newLicense 7 product grant with proof := grant, deadline := 61000, renewAt := 21000 }

def acquired : Process := loaded.acquire 7 product granted ⟨false, 1000, 1000⟩

def inserted : Process :=
  (acquired.leave (.acquire held ⟨1000, 1000, 1060⟩)).insert held ⟨1000, 1000, 1060⟩ true false

/-- The handle is valid after half a minute. -/
def used : Process :=
  (((inserted.isValid 1).leave (.isValid 1)).look 1 ⟨false, 1030, 31000⟩).2

def polled : Process := (used.register 1 true).spawn (.poll [1])

/-- After a minute it is not, although the calendar was set back. -/
def expired : Process :=
  (polled.leave (.poll [1])).pollLook 1 [] ⟨false, 900, 61000⟩ 61000

def notified : Process := (expired.leave (.notifyLost 1 [])).notifyLost 1 []

def queued : Process := (notified.leave (.submit [1] [])).submit 1 [] []

def sent : Process := (queued.leave (.submitted 1 [] [])).submitted 1 [] [] S_OK

def told : Process := { sent with jobs := sent.jobs.erase 1 }.notification 1 false

theorem told_reachable : Reachable told := by
  have hacquired : Reachable acquired :=
    (Reachable.start loaded_loaded).step (.acquire 7 product granted ⟨false, 1000, 1000⟩)
  have hinserted : Reachable inserted :=
    hacquired.step (.insert held ⟨1000, 1000, 1060⟩ true false (by decide +kernel))
  have hused : Reachable used :=
    (hinserted.step (.isValid 1)).step (.isValidLook 1 ⟨false, 1030, 31000⟩ (by decide +kernel))
  have hpolled : Reachable polled := (hused.step (.register 1 true)).step .poll
  have hexpired : Reachable expired :=
    hpolled.step (.pollLook 1 [] ⟨false, 900, 61000⟩ 61000 (by decide +kernel))
  have hnotified : Reachable notified := hexpired.step (.notifyLost 1 [] (by decide +kernel))
  have hqueued : Reachable queued := hnotified.step (.submit 1 [] [] (by decide +kernel))
  have hsent : Reachable sent := hqueued.step (.submitted 1 [] [] S_OK (by decide +kernel))
  exact hsent.step (.notification 1 false (by decide +kernel))

theorem durable_license_lifetime_told :
    told.history = [.delivered 1 1, .invalid 1, .valid 1 ⟨false, 1030, 31000⟩,
        .proved 1 7 ⟨1000, 1000, 1060⟩] ∧
      EachStep Allowed told.history :=
  ⟨by decide +kernel, durable_license_lifetime told_reachable⟩

end

end Flightdeck.Store
