import Flightdeck.Foundation.Effects
import Flightdeck.Foundation.Threads
import Flightdeck.Network.Connectivity

/-!
# Runs of connectivity notifications

What holds of one registration in every run whose actions are steady, and one run for each way in
which an action that is not breaks a promise.
-/

namespace Flightdeck.Network.Connectivity

open Foundation

/-! ## One registration -/

/-- The registration that the thread is about. -/
def Thread.token : Thread → Option Token
  | .submitFirst t _ => some t
  | .sendFirst t _ => some t
  | .enqueued t _ => some t
  | .forget t => some t
  | .submit t _ _ => some t
  | .send t _ _ => some t
  | .callback t _ => some t
  | .unregister t _ _ => some t
  | .waiting t => some t
  | .erase t _ => some t
  | _ => none

/-- The thread is on its way to queue a hint for its registration. -/
def Thread.queues : Thread → Bool
  | .submitFirst _ _ => true
  | .sendFirst _ _ => true
  | .enqueued _ _ => true
  | .submit _ _ _ => true
  | .send _ _ _ => true
  | _ => false

/-- The hint is one that a poll found changed. -/
def Thread.changed : Thread → Bool
  | .submit _ _ _ => true
  | .send _ _ _ => true
  | _ => false

/-- What the process holds of one registration. -/
structure View where
  reg : Option Registration
  listed : Bool
  past : List Event
  threads : List Thread

namespace View

def Inactive (reg : Option Registration) : Prop := ∃ r, reg = some r ∧ r.active = false

/-- No callback runs, and none will. -/
def Idle (reg : Option Registration) : Prop :=
  ∃ r, reg = some r ∧ r.active = false ∧ r.running = 0

/-- What is known of a thread that is about the registration. -/
def Sound (reg : Option Registration) (past : List Event) : Thread → Prop
  | .submitFirst _ hint => newestQueued past = none ∧ firstHint past = some hint ∧
      ∃ r, reg = some r ∧ r.initialEnqueued = false ∧ r.last = hint
  | .sendFirst _ hint => newestQueued past = none ∧ firstHint past = some hint ∧
      ∃ r, reg = some r ∧ r.initialEnqueued = false ∧ r.last = hint
  | .enqueued _ succeeded => ∃ r, reg = some r ∧ r.initialEnqueued = false ∧
      (succeeded = true → r.active = true → newestQueued past = some r.last)
  | .forget _ => Inactive reg
  | .callback _ _ => reg.isSome
  | .submit _ _ hint => ∃ before r, newestQueued past = some before ∧
      sameHint before hint = false ∧ reg = some r ∧ r.initialEnqueued = true ∧ r.last = hint
  | .send _ _ hint => ∃ before r, newestQueued past = some before ∧
      sameHint before hint = false ∧ reg = some r ∧ r.initialEnqueued = true ∧ r.last = hint
  | .unregister _ wait own => reg.isSome ∧ (wait = true → own = false)
  | .waiting _ => Inactive reg
  | .erase _ _ => Idle reg
  | _ => True

structure Good (v : View) : Prop where
  order : EachStep Allowed v.past
  absent : v.reg = none → v.past = []
  queues : v.threads.countP Thread.queues ≤ 1
  settled : ∀ r, v.reg = some r → r.active = true → r.initialEnqueued = true →
    v.threads.countP Thread.changed = 0 → newestQueued v.past = some r.last
  running : ∀ r, v.reg = some r →
    v.past.count .started ≤ v.past.count .returned + r.running
  ended : .unregistered ∈ v.past → Idle v.reg
  gone : v.listed = false → v.reg.isSome → Inactive v.reg
  known : v.listed = true → v.reg.isSome
  threads : ∀ u ∈ v.threads, Sound v.reg v.past u

variable {reg : Option Registration} {listed : Bool} {past : List Event}
  {before old new after : List Thread}

/-- The hints stay, and what is over for a registration stays over. -/
structure Down (r r' : Registration) : Prop where
  last : r'.last = r.last
  initialEnqueued : r'.initialEnqueued = r.initialEnqueued
  active : r.active = false → r'.active = false
  idle : r.active = false → r.running = 0 → r'.running = 0

theorem Down.refl (r : Registration) : Down r r := ⟨rfl, rfl, id, fun _ => id⟩

theorem Inactive.map {f : Registration → Registration} (h : Inactive reg)
    (hf : ∀ r, reg = some r → Down r (f r)) : Inactive (reg.map f) := by
  obtain ⟨r, rfl, hactive⟩ := h
  exact ⟨f r, rfl, (hf r rfl).active hactive⟩

theorem Idle.map {f : Registration → Registration} (h : Idle reg)
    (hf : ∀ r, reg = some r → Down r (f r)) : Idle (reg.map f) := by
  obtain ⟨r, rfl, hactive, hrunning⟩ := h
  exact ⟨f r, rfl, (hf r rfl).active hactive, (hf r rfl).idle hactive hrunning⟩

theorem Idle.inactive (h : Idle reg) : Inactive reg := by
  obtain ⟨r, hr, hactive, _⟩ := h
  exact ⟨r, hr, hactive⟩

theorem Inactive.isSome (h : Inactive reg) : reg.isSome := by
  obtain ⟨r, rfl, _⟩ := h
  rfl

theorem Sound.map {u : Thread} {f : Registration → Registration} (h : Sound reg past u)
    (hf : ∀ r, reg = some r → Down r (f r))
    (hactive : ∀ r, reg = some r → (f r).active = true → r.active = true) :
    Sound (reg.map f) past u := by
  cases u with
  | submitFirst t hint =>
    obtain ⟨hqueued, hfirst, r, rfl, hinitial, hlast⟩ := h
    have hdown := hf r rfl
    exact ⟨hqueued, hfirst, f r, rfl, hdown.initialEnqueued.trans hinitial, hdown.last.trans hlast⟩
  | sendFirst t hint =>
    obtain ⟨hqueued, hfirst, r, rfl, hinitial, hlast⟩ := h
    have hdown := hf r rfl
    exact ⟨hqueued, hfirst, f r, rfl, hdown.initialEnqueued.trans hinitial, hdown.last.trans hlast⟩
  | enqueued t succeeded =>
    obtain ⟨r, rfl, hinitial, hqueued⟩ := h
    have hdown := hf r rfl
    refine ⟨f r, rfl, hdown.initialEnqueued.trans hinitial, fun hok hup => ?_⟩
    rw [hdown.last]
    exact hqueued hok (hactive r rfl hup)
  | forget t => exact Inactive.map h hf
  | callback t hint =>
    show (reg.map f).isSome
    rw [Option.isSome_map]
    exact h
  | submit t rest hint =>
    obtain ⟨b, r, hqueued, hsame, rfl, hinitial, hlast⟩ := h
    have hdown := hf r rfl
    exact ⟨b, f r, hqueued, hsame, rfl, hdown.initialEnqueued.trans hinitial,
      hdown.last.trans hlast⟩
  | send t rest hint =>
    obtain ⟨b, r, hqueued, hsame, rfl, hinitial, hlast⟩ := h
    have hdown := hf r rfl
    exact ⟨b, f r, hqueued, hsame, rfl, hdown.initialEnqueued.trans hinitial,
      hdown.last.trans hlast⟩
  | unregister t wait own =>
    refine ⟨?_, h.2⟩
    rw [Option.isSome_map]
    exact h.1
  | waiting t => exact Inactive.map h hf
  | erase t wait => exact Idle.map h hf
  | _ => trivial

/-- A step after which nothing else was queued or seen. -/
theorem Good.update (g : Good ⟨reg, listed, past, before ++ old ++ after⟩)
    {f : Registration → Registration} (hf : ∀ r, reg = some r → Down r (f r))
    (hactive : ∀ r, reg = some r → (f r).active = true → r.active = true)
    (hrunning : ∀ r, reg = some r → r.running ≤ (f r).running)
    (hqueues : new.countP Thread.queues ≤ old.countP Thread.queues)
    (hchanged : old.countP Thread.changed ≤ new.countP Thread.changed ∨ Inactive (reg.map f))
    (hsound : ∀ u ∈ new, Sound (reg.map f) past u) :
    Good ⟨reg.map f, listed, past, before ++ new ++ after⟩ := by
  constructor
  · exact g.order
  · exact fun hnone => g.absent (Option.map_eq_none_iff.mp hnone)
  · have := g.queues
    simp only [List.countP_append] at this ⊢
    omega
  · intro r hr hup hinitial hnone
    rcases hchanged with hle | ⟨r', hr', hdown⟩
    · obtain ⟨r₀, hr₀, rfl⟩ := Option.map_eq_some_iff.mp hr
      have hdown := hf r₀ hr₀
      rw [hdown.last]
      apply g.settled r₀ hr₀ (hactive r₀ hr₀ hup) (hdown.initialEnqueued ▸ hinitial)
      simp only [List.countP_append] at hnone ⊢
      omega
    · change reg.map f = some r at hr
      rw [hr'] at hr
      cases hr
      rw [hdown] at hup
      cases hup
  · intro r hr
    obtain ⟨r₀, hr₀, rfl⟩ := Option.map_eq_some_iff.mp hr
    have hold : past.count .started ≤ past.count .returned + r₀.running := g.running r₀ hr₀
    show past.count .started ≤ past.count .returned + (f r₀).running
    have := hrunning r₀ hr₀
    omega
  · exact fun h => (g.ended h).map hf
  · intro hlisted hsome
    rw [Option.isSome_map] at hsome
    exact (g.gone hlisted hsome).map hf
  · intro hlisted
    show (reg.map f).isSome
    rw [Option.isSome_map]
    exact g.known hlisted
  · intro u hu
    have hold (hu : u ∈ before ++ old ++ after) : Sound (reg.map f) past u :=
      (g.threads u hu).map hf hactive
    simp only [List.mem_append] at hu
    rcases hu with (hu | hu) | hu
    · exact hold (by simp [hu])
    · exact hsound u hu
    · exact hold (by simp [hu])

theorem Good.move (g : Good ⟨reg, listed, past, before ++ old ++ after⟩)
    (hqueues : new.countP Thread.queues ≤ old.countP Thread.queues)
    (hchanged : old.countP Thread.changed ≤ new.countP Thread.changed ∨ Inactive reg)
    (hsound : ∀ u ∈ new, Sound reg past u) :
    Good ⟨reg, listed, past, before ++ new ++ after⟩ := by
  have hid : reg.map (fun r => r) = reg := by cases reg <;> rfl
  have h : Good ⟨reg.map fun r => r, listed, past, before ++ new ++ after⟩ := by
    apply g.update (fun r _ => .refl r) (fun _ _ h => h) (fun _ _ => le_rfl) hqueues
    · rwa [hid]
    · rwa [hid]
  rwa [hid] at h

/-- No other thread is on its way to queue a hint. -/
theorem Good.alone {u : Thread} (g : Good ⟨reg, listed, past, before ++ [u] ++ after⟩)
    (hu : u.queues = true) : ∀ v, v ∈ before ∨ v ∈ after → v.queues = false := by
  have hqueues := g.queues
  simp only [List.countP_append, List.countP_singleton, hu, if_true] at hqueues
  intro v hv
  rw [← Bool.not_eq_true]
  intro htrue
  rcases hv with hv | hv
  · have := List.countP_pos_iff.mpr ⟨v, hv, htrue⟩
    omega
  · have := List.countP_pos_iff.mpr ⟨v, hv, htrue⟩
    omega

/-- A thread that queues nothing knows nothing of the hints. -/
theorem Sound.of_quiet {past' : List Event} {reg' : Option Registration} {u : Thread}
    (h : Sound reg past u) (hu : u.queues = false)
    (hreg : ∀ r, reg = some r → ∃ r', reg' = some r' ∧ (r.active = false → r'.active = false) ∧
      (r.active = false → r.running = 0 → r'.running = 0)) : Sound reg' past' u := by
  have hinactive (h : Inactive reg) : Inactive reg' := by
    obtain ⟨r, hr, hactive⟩ := h
    obtain ⟨r', hr', hdown, _⟩ := hreg r hr
    exact ⟨r', hr', hdown hactive⟩
  cases u with
  | submitFirst t hint => cases hu
  | sendFirst t hint => cases hu
  | enqueued t succeeded => cases hu
  | submit t rest hint => cases hu
  | send t rest hint => cases hu
  | forget t => exact hinactive h
  | callback t hint =>
    obtain ⟨r, hr⟩ := Option.isSome_iff_exists.mp h
    obtain ⟨r', hr', _⟩ := hreg r hr
    exact Option.isSome_iff_exists.mpr ⟨r', hr'⟩
  | unregister t wait own =>
    obtain ⟨r, hr⟩ := Option.isSome_iff_exists.mp h.1
    obtain ⟨r', hr', _⟩ := hreg r hr
    exact ⟨Option.isSome_iff_exists.mpr ⟨r', hr'⟩, h.2⟩
  | waiting t => exact hinactive h
  | erase t wait =>
    obtain ⟨r, hr, hactive, hrunning⟩ := h
    obtain ⟨r', hr', hdown, hidle⟩ := hreg r hr
    exact ⟨r', hr', hdown hactive, hidle hactive hrunning⟩
  | _ => trivial

theorem Sound.of_past {past' : List Event} {u : Thread} (h : Sound reg past u)
    (hqueued : newestQueued past' = newestQueued past) (hfirst : firstHint past' = firstHint past) :
    Sound reg past' u := by
  cases u with
  | submitFirst t hint => exact ⟨hqueued.trans h.1, hfirst.trans h.2.1, h.2.2⟩
  | sendFirst t hint => exact ⟨hqueued.trans h.1, hfirst.trans h.2.1, h.2.2⟩
  | enqueued t succeeded =>
    obtain ⟨r, hr, hinitial, hlast⟩ := h
    exact ⟨r, hr, hinitial, fun hok hup => hqueued.trans (hlast hok hup)⟩
  | submit t rest hint =>
    obtain ⟨b, r, hb, hrest⟩ := h
    exact ⟨b, r, hqueued.trans hb, hrest⟩
  | send t rest hint =>
    obtain ⟨b, r, hb, hrest⟩ := h
    exact ⟨b, r, hqueued.trans hb, hrest⟩
  | _ => exact h

/-- Something happened that concerns neither hints nor running callbacks. -/
theorem Good.note (g : Good ⟨reg, listed, past, before⟩) {e : Event} (hallowed : Allowed past e)
    (hsome : reg.isSome) (hqueued : newestQueued (e :: past) = newestQueued past)
    (hfirst : firstHint (e :: past) = firstHint past) (hstarted : e ≠ .started)
    (hreturned : e ≠ .returned) (hended : e = .unregistered → Idle reg) :
    Good ⟨reg, listed, e :: past, before⟩ := by
  constructor
  · exact ⟨hallowed, g.order⟩
  · rintro rfl
    cases hsome
  · exact g.queues
  · intro r hr hup hinitial hnone
    rw [hqueued]
    exact g.settled r hr hup hinitial hnone
  · intro r hr
    show (e :: past).count .started ≤ (e :: past).count .returned + r.running
    rw [List.count_cons_of_ne hstarted, List.count_cons_of_ne hreturned]
    exact g.running r hr
  · intro h
    rcases List.mem_cons.mp h with heq | hold
    · exact hended heq.symm
    · exact g.ended hold
  · exact g.gone
  · exact g.known
  · exact fun u hu => (g.threads u hu).of_past hqueued hfirst

/-- A new registration; what was about it found nothing. -/
theorem Good.insert (g : Good ⟨none, listed, past, before ++ after⟩) (t : Token) (hint : Hint) :
    Good ⟨some { last := hint }, true, .registered hint :: past,
      before ++ [.submitFirst t hint] ++ after⟩ := by
  have hpast : past = [] := g.absent rfl
  subst hpast
  have hquiet (u : Thread) (hu : u ∈ before ++ after) : u.queues = false := by
    have hsound := g.threads u hu
    cases u with
    | submitFirst t hint => obtain ⟨_, _, r, hr, _⟩ := hsound; cases hr
    | sendFirst t hint => obtain ⟨_, _, r, hr, _⟩ := hsound; cases hr
    | enqueued t succeeded => obtain ⟨r, hr, _⟩ := hsound; cases hr
    | submit t rest hint => obtain ⟨_, r, _, _, hr, _⟩ := hsound; cases hr
    | send t rest hint => obtain ⟨_, r, _, _, hr, _⟩ := hsound; cases hr
    | _ => rfl
  constructor
  · exact ⟨trivial, trivial⟩
  · nofun
  · have hzero : (before ++ after).countP Thread.queues = 0 :=
      List.countP_eq_zero.mpr fun u hu => by rw [hquiet u hu]; decide
    simp only [List.countP_append] at hzero ⊢
    have hone : [Thread.submitFirst t hint].countP Thread.queues = 1 := rfl
    omega
  · rintro _ ⟨⟩ _ hinitial
    cases hinitial
  · rintro _ ⟨⟩
    exact Nat.zero_le _
  · nofun
  · nofun
  · exact fun _ => rfl
  · intro u hu
    simp only [List.mem_append, List.mem_singleton] at hu
    have hold (hu : u ∈ before ++ after) :
        Sound (some { last := hint }) [.registered hint] u :=
      (g.threads u hu).of_quiet (hquiet u hu) nofun
    rcases hu with (hu | rfl) | hu
    · exact hold (by simp [hu])
    · exact ⟨rfl, rfl, _, rfl, rfl, rfl⟩
    · exact hold (by simp [hu])

/-- A hint is queued, and none is on its way any more. -/
theorem Good.queue {u : Thread} {hint : Hint}
    (g : Good ⟨reg, listed, past, before ++ [u] ++ after⟩) (hu : u.queues = true)
    (hallowed : Allowed past (.queued hint)) {r : Registration} (hr : reg = some r)
    (hlast : r.last = hint) (hnew : new.countP Thread.queues ≤ 1)
    (hsound : ∀ v ∈ new, Sound reg (.queued hint :: past) v) :
    Good ⟨reg, listed, .queued hint :: past, before ++ new ++ after⟩ := by
  have halone := g.alone hu
  have hkeep (v : Thread) (hv : v ∈ before ∨ v ∈ after) : Sound reg (.queued hint :: past) v := by
    apply (g.threads v (by simp; tauto)).of_quiet (halone v hv)
    exact fun r' hr' => ⟨r', hr', id, fun _ => id⟩
  constructor
  · exact ⟨hallowed, g.order⟩
  · rintro rfl
    cases hr
  · have hbefore : before.countP Thread.queues = 0 :=
      List.countP_eq_zero.mpr fun v hv => by rw [halone v (.inl hv)]; decide
    have hafter : after.countP Thread.queues = 0 :=
      List.countP_eq_zero.mpr fun v hv => by rw [halone v (.inr hv)]; decide
    simp only [List.countP_append]
    omega
  · intro r' hr' _ _ _
    rw [hr] at hr'
    cases hr'
    exact congrArg some hlast.symm
  · exact g.running
  · intro h
    rcases List.mem_cons.mp h with heq | hold
    · cases heq
    · exact g.ended hold
  · exact g.gone
  · exact g.known
  · intro v hv
    simp only [List.mem_append] at hv
    rcases hv with (hv | hv) | hv
    · exact hkeep v (.inl hv)
    · exact hsound v hv
    · exact hkeep v (.inr hv)

theorem Good.queueFirst {t : Token} {hint : Hint}
    (g : Good ⟨reg, listed, past, before ++ [.sendFirst t hint] ++ after⟩) :
    Good ⟨reg, listed, .queued hint :: past, before ++ [.enqueued t true] ++ after⟩ := by
  obtain ⟨hnone, hfirst, r, hr, hinitial, hlast⟩ := g.threads (.sendFirst t hint) (by simp)
  refine g.queue rfl ?_ hr hlast ?_ ?_
  · unfold Allowed
    rw [hnone]
    exact hfirst
  · exact Nat.le_refl 1
  · intro v hv
    rw [List.mem_singleton.mp hv]
    exact ⟨r, hr, hinitial, fun _ _ => congrArg some hlast.symm⟩

theorem Good.queueChange {t : Token} {rest : List Token} {hint : Hint}
    (g : Good ⟨reg, listed, past, before ++ [.send t rest hint] ++ after⟩) :
    Good ⟨reg, listed, .queued hint :: past, before ++ [] ++ after⟩ := by
  obtain ⟨b, r, hqueued, hsame, hr, _, hlast⟩ := g.threads (.send t rest hint) (by simp)
  refine g.queue rfl ?_ hr hlast (Nat.zero_le _) fun v hv => absurd hv List.not_mem_nil
  unfold Allowed
  rw [hqueued]
  exact hsame

/-- The first hint was queued, and polls look at the registration from now on. -/
theorem Good.watch {t : Token}
    (g : Good ⟨reg, listed, past, before ++ [.enqueued t true] ++ after⟩) :
    Good ⟨reg.map fun r => { r with initialEnqueued := true }, listed, past,
      before ++ [] ++ after⟩ := by
  obtain ⟨r, rfl, hinitial, hqueued⟩ := g.threads (.enqueued t true) (by simp)
  have halone := g.alone rfl
  constructor
  · exact g.order
  · nofun
  · have := g.queues
    simp only [List.countP_append] at this ⊢
    have hone : [Thread.enqueued t true].countP Thread.queues = 1 := rfl
    have hzero : [].countP Thread.queues = 0 := rfl
    omega
  · rintro _ ⟨⟩ hup _ _
    exact hqueued rfl hup
  · rintro _ ⟨⟩
    exact g.running r rfl
  · intro h
    obtain ⟨_, ⟨⟩, hactive, hrunning⟩ := g.ended h
    exact ⟨_, rfl, hactive, hrunning⟩
  · intro hlisted _
    obtain ⟨_, ⟨⟩, hactive⟩ := g.gone hlisted rfl
    exact ⟨_, rfl, hactive⟩
  · exact fun _ => rfl
  · intro u hu
    simp only [List.append_nil, List.mem_append] at hu
    apply (g.threads u (by simp; tauto)).of_quiet (halone u hu)
    rintro _ ⟨⟩
    exact ⟨_, rfl, id, fun _ => id⟩

/-- A poll compares its hint while no change is on its way to be queued. -/
theorem Good.same {r : Registration} {hint : Hint} (g : Good ⟨some r, listed, past, before⟩)
    (hup : r.active = true) (hinitial : r.initialEnqueued = true)
    (hnone : before.countP Thread.changed = 0) (hsame : sameHint r.last hint = true) :
    Good ⟨some r, listed, .compared hint false :: past, before⟩ := by
  have hsettled := g.settled r rfl hup hinitial hnone
  refine g.note (e := .compared hint false) ?_ rfl rfl rfl nofun nofun nofun
  exact ⟨r.last, hsettled, by rw [hsame]; rfl⟩

theorem Good.change {t : Token} {rest : List Token} {r : Registration} {hint : Hint}
    (g : Good ⟨some r, listed, past, before ++ after⟩)
    (hup : r.active = true) (hinitial : r.initialEnqueued = true)
    (hnone : (before ++ after).countP Thread.changed = 0)
    (hdiffers : sameHint r.last hint = false) :
    Good ⟨some { r with last := hint }, listed, .compared hint true :: past,
      before ++ [.submit t rest hint] ++ after⟩ := by
  have hsettled := g.settled r rfl hup hinitial hnone
  have hquiet (u : Thread) (hu : u ∈ before ++ after) : u.queues = false := by
    have hsound := g.threads u hu
    have hchanged := List.countP_eq_zero.mp hnone u hu
    cases u with
    | submitFirst t hint =>
      obtain ⟨_, _, _, ⟨⟩, hfirst, _⟩ := hsound
      rw [hinitial] at hfirst
      cases hfirst
    | sendFirst t hint =>
      obtain ⟨_, _, _, ⟨⟩, hfirst, _⟩ := hsound
      rw [hinitial] at hfirst
      cases hfirst
    | enqueued t succeeded =>
      obtain ⟨_, ⟨⟩, hfirst, _⟩ := hsound
      rw [hinitial] at hfirst
      cases hfirst
    | submit t rest hint => exact absurd rfl hchanged
    | send t rest hint => exact absurd rfl hchanged
    | _ => rfl
  have hkeep (u : Thread) (hu : u ∈ before ++ after) :
      Sound (some { r with last := hint }) (.compared hint true :: past) u := by
    apply (g.threads u hu).of_quiet (hquiet u hu)
    rintro _ ⟨⟩
    exact ⟨_, rfl, id, fun _ => id⟩
  constructor
  · exact ⟨⟨r.last, hsettled, by rw [hdiffers]; rfl⟩, g.order⟩
  · nofun
  · have hzero : (before ++ after).countP Thread.queues = 0 :=
      List.countP_eq_zero.mpr fun u hu => by rw [hquiet u hu]; decide
    simp only [List.countP_append] at hzero ⊢
    have hone : [Thread.submit t rest hint].countP Thread.queues = 1 := rfl
    omega
  · rintro _ ⟨⟩ _ _ hcount
    have hone : [Thread.submit t rest hint].countP Thread.changed = 1 := rfl
    simp only [List.countP_append] at hcount
    omega
  · rintro _ ⟨⟩
    show (Event.compared hint true :: past).count .started ≤
      (Event.compared hint true :: past).count .returned + r.running
    rw [List.count_cons_of_ne (show Event.compared hint true ≠ .started by nofun),
      List.count_cons_of_ne (show Event.compared hint true ≠ .returned by nofun)]
    exact g.running r rfl
  · intro h
    rcases List.mem_cons.mp h with heq | hold
    · cases heq
    · obtain ⟨_, ⟨⟩, hactive, hrunning⟩ := g.ended hold
      exact ⟨_, rfl, hactive, hrunning⟩
  · intro hlisted _
    obtain ⟨_, ⟨⟩, hactive⟩ := g.gone hlisted rfl
    exact ⟨_, rfl, hactive⟩
  · exact fun _ => rfl
  · intro u hu
    simp only [List.mem_append, List.mem_singleton] at hu
    rcases hu with (hu | rfl) | hu
    · exact hkeep u (by simp [hu])
    · exact ⟨r.last, _, hsettled, hdiffers, rfl, hinitial, rfl⟩
    · exact hkeep u (by simp [hu])

/-- An active registration is called back; no unregistration has returned. -/
theorem Good.start {t : Token} {r : Registration} {hint : Hint}
    (g : Good ⟨some r, listed, past, before⟩) (hup : r.active = true) :
    Good ⟨some { r with running := r.running + 1 }, listed, .started :: past,
      [.callback t hint] ++ before⟩ := by
  have hdown (r' : Registration) (hr' : some r = some r') :
      Down r' { r' with running := r'.running + 1 } := by
    cases hr'
    refine ⟨rfl, rfl, id, fun hactive => ?_⟩
    rw [hup] at hactive
    cases hactive
  have hold : Good ⟨some r, listed, past, [] ++ [] ++ before⟩ := g
  have hmap : Good ⟨(some r).map fun r => { r with running := r.running + 1 }, listed, past,
      [] ++ [.callback t hint] ++ before⟩ := by
    refine hold.update hdown (fun _ _ h => h) (fun r _ => Nat.le_succ r.running) ?_ ?_ ?_
    · exact Nat.le_refl 0
    · exact .inl (Nat.le_refl 0)
    · intro u hu
      rw [List.mem_singleton.mp hu]
      trivial
  constructor
  · refine ⟨fun hended => ?_, g.order⟩
    obtain ⟨_, ⟨⟩, hactive, _⟩ := g.ended hended
    rw [hup] at hactive
    cases hactive
  · nofun
  · exact hmap.queues
  · exact hmap.settled
  · rintro _ ⟨⟩
    show (Event.started :: past).count .started ≤
      (Event.started :: past).count .returned + (r.running + 1)
    rw [List.count_cons_self, List.count_cons_of_ne (show Event.started ≠ .returned by nofun)]
    have : past.count .started ≤ past.count .returned + r.running := g.running r rfl
    omega
  · intro h
    rcases List.mem_cons.mp h with heq | hold
    · cases heq
    · exact hmap.ended hold
  · exact hmap.gone
  · exact hmap.known
  · exact fun u hu => (hmap.threads u hu).of_past rfl rfl

/-- A callback returns. -/
theorem Good.finish {t : Token} {hint : Hint} (hsome : reg.isSome)
    (g : Good ⟨reg, listed, past, before ++ [.callback t hint] ++ after⟩) :
    Good ⟨reg.map fun r => { r with running := r.running - 1 }, listed, .returned :: past,
      before ++ [] ++ after⟩ := by
  obtain ⟨r, rfl⟩ := Option.isSome_iff_exists.mp hsome
  have hdown : Down r { r with running := r.running - 1 } :=
    ⟨rfl, rfl, id, fun _ hrunning => by rw [hrunning]⟩
  have hmove : Good ⟨some r, listed, past, before ++ [] ++ after⟩ :=
    g.move (Nat.le_refl 0) (.inl (Nat.le_refl 0)) nofun
  constructor
  · exact ⟨trivial, g.order⟩
  · nofun
  · exact hmove.queues
  · rintro _ ⟨⟩ hup hinitial hnone
    exact hmove.settled r rfl hup hinitial hnone
  · rintro _ ⟨⟩
    show (Event.returned :: past).count .started ≤
      (Event.returned :: past).count .returned + (r.running - 1)
    rw [List.count_cons_self, List.count_cons_of_ne (show Event.returned ≠ .started by nofun)]
    have : past.count .started ≤ past.count .returned + r.running := g.running r rfl
    omega
  · intro h
    rcases List.mem_cons.mp h with heq | hold
    · cases heq
    · exact (g.ended hold).map (f := fun r => { r with running := r.running - 1 })
        (by rintro _ ⟨⟩; exact hdown)
  · intro hlisted _
    exact (g.gone hlisted rfl).map (f := fun r => { r with running := r.running - 1 })
      (by rintro _ ⟨⟩; exact hdown)
  · exact fun _ => rfl
  · intro u hu
    have hmap := (hmove.threads u hu).map (f := fun r => { r with running := r.running - 1 })
      (by rintro _ ⟨⟩; exact hdown) (fun _ _ h => h)
    exact hmap.of_past rfl rfl

/-- An unregistration returns once no callback runs. -/
theorem Good.unregistered (g : Good ⟨reg, listed, past, before⟩) (hidle : Idle reg) :
    Good ⟨reg, listed, .unregistered :: past, before⟩ := by
  refine g.note (e := .unregistered) ?_ hidle.inactive.isSome rfl rfl nofun nofun fun _ => hidle
  obtain ⟨r, hr, _, hrunning⟩ := hidle
  have hcount : past.count .started ≤ past.count .returned + r.running := g.running r hr
  rw [hrunning] at hcount
  exact hcount

theorem Good.relist {v : View} (g : v.Good) {listed : Bool}
    (h : listed = false → v.listed = false ∨ (v.reg.isSome → Inactive v.reg))
    (hknown : listed = true → v.listed = true) : Good { v with listed } :=
  { g with
    known := fun hlisted => g.known (hknown hlisted)
    gone := fun hlisted hsome => by
      rcases h hlisted with hold | hinactive
      · exact g.gone hold hsome
      · exact hinactive hsome }

end View

/-! ## The process -/

def Process.view (sys : Process) (t : Token) : View where
  reg := sys.manager.registrations t
  listed := decide (t ∈ sys.manager.listed)
  past := sys.past t
  threads := about Thread.token t sys.threads

structure Process.Good (sys : Process) : Prop where
  views : ∀ t, (sys.view t).Good
  tokens : ∀ t, sys.manager.nextToken ≤ t → sys.manager.registrations t = none

variable {sys : Process} {before old new after : List Thread} {t : Token}

theorem Process.view_eq (h : sys.threads = before ++ old ++ after) (t : Token) :
    sys.view t = ⟨sys.manager.registrations t, decide (t ∈ sys.manager.listed), sys.past t,
      about Thread.token t before ++ about Thread.token t old ++ about Thread.token t after⟩ := by
  unfold Process.view
  rw [h, about_append, about_append]

theorem Process.view_mk (m : Manager) (jobs : List (Token × Hint)) (past : Token → List Event)
    (t : Token) :
    Process.view ⟨m, before ++ new ++ after, jobs, past⟩ t =
      ⟨m.registrations t, decide (t ∈ m.listed), past t,
        about Thread.token t before ++ about Thread.token t new ++ about Thread.token t after⟩ :=
  Process.view_eq rfl t

/-- Only the registration `t` is affected. -/
theorem Process.Good.touch (g : sys.Good) (h : sys.threads = before ++ old ++ after)
    {sys' : Process} (t : Token) (hnext : sys'.manager.nextToken = sys.manager.nextToken)
    (hothers : ∀ t', t' ≠ t → about Thread.token t' new = about Thread.token t' old ∧
      sys'.manager.registrations t' = sys.manager.registrations t' ∧
      decide (t' ∈ sys'.manager.listed) = decide (t' ∈ sys.manager.listed) ∧
      sys'.past t' = sys.past t')
    (hsome : (sys'.manager.registrations t).isSome → (sys.manager.registrations t).isSome)
    (hview : View.Good ⟨sys.manager.registrations t, decide (t ∈ sys.manager.listed), sys.past t,
        about Thread.token t before ++ about Thread.token t old ++ about Thread.token t after⟩ →
      View.Good ⟨sys'.manager.registrations t, decide (t ∈ sys'.manager.listed), sys'.past t,
        about Thread.token t before ++ about Thread.token t new ++ about Thread.token t after⟩) :
    Process.Good { sys' with threads := before ++ new ++ after } := by
  constructor
  · intro t'
    have hold := g.views t'
    rw [Process.view_eq h] at hold
    rw [Process.view_mk]
    by_cases ht : t' = t
    · subst ht
      exact hview hold
    · obtain ⟨hnew, hreg, hlisted, hpast⟩ := hothers t' ht
      rw [hnew, hreg, hlisted, hpast]
      exact hold
  · intro t' ht'
    change sys'.manager.nextToken ≤ t' at ht'
    rw [hnext] at ht'
    have hnone := g.tokens t' ht'
    by_cases ht : t' = t
    · subst ht
      by_contra hne
      have := hsome (Option.isSome_iff_ne_none.mpr hne)
      rw [hnone] at this
      cases this
    · show sys'.manager.registrations t' = none
      rw [(hothers t' ht).2.1, hnone]

/-- Threads come and go that are about no registration. -/
theorem Process.Good.outside (g : sys.Good) (h : sys.threads = before ++ old ++ after)
    (hold : ∀ t, about Thread.token t old = []) (hnew : ∀ t, about Thread.token t new = []) :
    Process.Good { sys with threads := before ++ new ++ after } := by
  refine ⟨fun t => ?_, g.tokens⟩
  have hview := g.views t
  rw [Process.view_eq h, hold] at hview
  rw [Process.view_mk, hnew]
  exact hview

/-- The thread `u` goes on as `new`, and only what it is about may change. -/
theorem Process.Good.advance (g : sys.Good) {u : Thread} (h : sys.threads = before ++ [u] ++ after)
    (hu : u.token = some t) (hnew : ∀ v ∈ new, v.token = some t ∨ v.token = none) {sys' : Process}
    (hnext : sys'.manager.nextToken = sys.manager.nextToken)
    (hothers : ∀ t', t' ≠ t →
      sys'.manager.registrations t' = sys.manager.registrations t' ∧
      decide (t' ∈ sys'.manager.listed) = decide (t' ∈ sys.manager.listed) ∧
      sys'.past t' = sys.past t')
    (hsome : (sys'.manager.registrations t).isSome → (sys.manager.registrations t).isSome)
    (hview : ∀ b a : List Thread,
      View.Good ⟨sys.manager.registrations t, decide (t ∈ sys.manager.listed), sys.past t,
        b ++ [u] ++ a⟩ →
      View.Good ⟨sys'.manager.registrations t, decide (t ∈ sys'.manager.listed), sys'.past t,
        b ++ about Thread.token t new ++ a⟩) :
    Process.Good { sys' with threads := before ++ new ++ after } := by
  apply g.touch h t hnext
  · intro t' ht
    refine ⟨?_, hothers t' ht⟩
    rw [about_ne Thread.token hu ht]
    apply List.filter_eq_nil_iff.mpr
    intro v hv
    rcases hnew v hv with hv | hv
    · rw [hv]
      simpa using Ne.symm ht
    · rw [hv]
      nofun
  · exact hsome
  · rw [about_same Thread.token hu]
    exact hview _ _

/-! ## Edits of the process -/

theorem edit_self (sys : Process) (t : Token) (f : Registration → Registration) :
    (sys.edit t f).manager.registrations t = (sys.manager.registrations t).map f :=
  Function.update_self ..

theorem edit_ne (sys : Process) {t t' : Token} (f : Registration → Registration) (h : t' ≠ t) :
    (sys.edit t f).manager.registrations t' = sys.manager.registrations t' :=
  Function.update_of_ne h ..

theorem log_self (sys : Process) (t : Token) (e : Event) :
    (sys.log t e).past t = e :: sys.past t :=
  Function.update_self ..

theorem log_ne (sys : Process) {t t' : Token} (e : Event) (h : t' ≠ t) :
    (sys.log t e).past t' = sys.past t' :=
  Function.update_of_ne h ..

theorem inactive_of_not {reg : Option Registration} (hsome : reg.isSome)
    (h : ¬ reg.any (·.active) = true) : View.Inactive reg := by
  obtain ⟨r, rfl⟩ := Option.isSome_iff_exists.mp hsome
  exact ⟨r, rfl, Bool.not_eq_true _ ▸ h⟩

theorem idle_of_all {reg : Option Registration} (hinactive : View.Inactive reg)
    (h : reg.all (·.running == 0) = true) : View.Idle reg := by
  obtain ⟨r, rfl, hactive⟩ := hinactive
  exact ⟨r, rfl, hactive, eq_of_beq h⟩

theorem Process.Good.deactivate (g : sys.Good) (t : Token) : (sys.deactivate t).Good := by
  refine ⟨fun t' => ?_, fun t' ht' => ?_⟩
  · have hview := g.views t'
    by_cases ht : t' = t
    · subst ht
      have hsplit : View.Good ⟨sys.manager.registrations t', decide (t' ∈ sys.manager.listed),
          sys.past t', [] ++ [] ++ about Thread.token t' sys.threads⟩ := hview
      have hdown : View.Good ⟨(sys.manager.registrations t').map
            fun r => { r with active := false }, decide (t' ∈ sys.manager.listed), sys.past t',
          [] ++ [] ++ about Thread.token t' sys.threads⟩ := by
        refine hsplit.update (fun r _ => ⟨rfl, rfl, fun _ => rfl, fun _ => id⟩) nofun
          (fun _ _ => le_rfl) le_rfl (.inl le_rfl) nofun
      rw [← edit_self] at hdown
      exact hdown
    · have hsame := edit_ne sys (fun r => { r with active := false }) ht
      unfold Process.view at hview ⊢
      show View.Good ⟨(sys.edit t _).manager.registrations t', _, _, _⟩
      rw [hsame]
      exact hview
  · have hnone := g.tokens t' ht'
    by_cases ht : t' = t
    · subst ht
      show (sys.edit t' _).manager.registrations t' = none
      rw [edit_self, hnone]
      rfl
    · show (sys.edit t _).manager.registrations t' = none
      rw [edit_ne _ _ ht, hnone]

theorem deactivate_inactive (hsome : (sys.manager.registrations t).isSome) :
    View.Inactive ((sys.deactivate t).manager.registrations t) := by
  obtain ⟨r, hr⟩ := Option.isSome_iff_exists.mp hsome
  refine ⟨{ r with active := false }, ?_, rfl⟩
  show (sys.edit t _).manager.registrations t = _
  rw [edit_self, hr]
  rfl

/-- Entries leave the map whose registrations are inactive. -/
theorem Process.Good.relist (g : sys.Good) {listed : List Token}
    (hsub : ∀ t ∈ listed, t ∈ sys.manager.listed)
    (h : ∀ t, t ∈ sys.manager.listed → t ∉ listed → (sys.manager.registrations t).isSome →
      View.Inactive (sys.manager.registrations t)) :
    Process.Good { sys with manager := { sys.manager with listed } } := by
  refine ⟨fun t => ?_, g.tokens⟩
  apply (g.views t).relist
  · intro hlisted
    rw [decide_eq_false_iff_not] at hlisted
    by_cases hold : t ∈ sys.manager.listed
    · exact .inr (h t hold hlisted)
    · exact .inl (decide_eq_false hold)
  · intro hlisted
    exact decide_eq_true (hsub t (of_decide_eq_true hlisted))

theorem Process.Good.unlist (g : sys.Good)
    (h : View.Inactive (sys.manager.registrations t)) : (sys.unlist t).Good := by
  apply g.relist fun _ => List.mem_of_mem_erase
  intro t' hold hnew _
  by_cases ht : t' = t
  · rw [ht]
    exact h
  · exact absurd ((List.mem_erase_of_ne ht).mpr hold) hnew

/-- What the snapshot leaves out is inactive. -/
theorem Process.Good.snapshot (g : sys.Good) (looked : Nat) :
    Process.Good { sys with
      manager := { sys.manager with
        listed := (sys.manager.listed.take looked).filter sys.kept ++
          sys.manager.listed.drop looked } } := by
  apply g.relist
  · intro t ht
    rcases List.mem_append.mp ht with ht | ht
    · exact List.mem_of_mem_take (List.mem_filter.mp ht).1
    · exact List.mem_of_mem_drop ht
  intro t hold hnew hsome
  rw [← List.take_append_drop looked sys.manager.listed, List.mem_append] at hold
  rw [List.mem_append, List.mem_filter, not_or] at hnew
  have htake := hold.resolve_right hnew.2
  have hkept : ¬ sys.kept t = true := fun h => hnew.1 ⟨htake, h⟩
  unfold Process.kept at hkept
  rw [Bool.or_eq_true, not_or] at hkept
  exact inactive_of_not hsome hkept.1

/-- An unregistration with `wait` returns. -/
theorem Process.Good.unregistered (g : sys.Good)
    (hidle : View.Idle (sys.manager.registrations t)) : (sys.log t .unregistered).Good := by
  refine ⟨fun t' => ?_, g.tokens⟩
  have hview := g.views t'
  by_cases ht : t' = t
  · subst ht
    unfold Process.view
    rw [log_self]
    exact hview.unregistered hidle
  · unfold Process.view
    rw [log_ne sys _ ht]
    exact hview

theorem Process.Good.insert (g : sys.Good) {u : Thread} {hint : Hint}
    (h : sys.threads = before ++ [u] ++ after) (hu : u.token = none) :
    Process.Good { (sys.insert hint).2 with
      threads := before ++ (sys.insert hint).1 ++ after } := by
  unfold Process.insert
  dsimp only
  split
  · exact g.outside h (fun _ => about_none Thread.token hu) fun _ => rfl
  have hnone := g.tokens _ le_rfl
  refine ⟨fun t => ?_, fun t ht => ?_⟩
  · have hview := g.views t
    rw [Process.view_eq h, about_none Thread.token hu, List.append_nil] at hview
    unfold Process.log
    rw [Process.view_mk]
    by_cases ht : t = sys.manager.nextToken
    · subst ht
      rw [hnone] at hview
      simp only [Function.update_self, List.mem_append, List.mem_singleton, or_true, decide_true]
      rw [about_same Thread.token rfl]
      exact hview.insert _ hint
    · rw [about_ne Thread.token rfl ht, List.append_nil]
      simp only [Function.update_of_ne ht, List.mem_append, List.mem_singleton, ht, or_false]
      exact hview
  · change sys.manager.nextToken + 1 ≤ t at ht
    show Function.update sys.manager.registrations sys.manager.nextToken _ t = none
    rw [Function.update_of_ne (Nat.ne_of_gt ht)]
    exact g.tokens t (Nat.le_of_succ_le ht)

/-! ## Turns of the threads -/

section Turns

variable {rest : List Token} {hint : Hint} {submitted : HResult} {sys' : Process}

theorem Process.Good.soundOf (g : sys.Good) {u : Thread} (h : sys.threads = before ++ [u] ++ after)
    (hu : u.token = some t) : View.Sound (sys.manager.registrations t) (sys.past t) u := by
  have hview := g.views t
  rw [Process.view_eq h, about_same Thread.token hu] at hview
  exact hview.threads u (by simp)

/-- The thread goes on, and nothing else changes. -/
theorem Process.Good.go (g : sys.Good) {u : Thread} (h : sys.threads = before ++ [u] ++ after)
    (hu : u.token = some t) (hnew : ∀ v ∈ new, v.token = some t ∨ v.token = none)
    (hqueues : (about Thread.token t new).countP Thread.queues ≤ [u].countP Thread.queues)
    (hchanged : [u].countP Thread.changed ≤ (about Thread.token t new).countP Thread.changed ∨
      View.Inactive (sys.manager.registrations t))
    (hsound : ∀ v ∈ about Thread.token t new,
      View.Sound (sys.manager.registrations t) (sys.past t) v) :
    Process.Good { sys with threads := before ++ new ++ after } :=
  g.advance h hu hnew rfl (fun _ _ => ⟨rfl, rfl, rfl⟩) id
    fun _ _ hview => hview.move hqueues hchanged hsound

theorem Process.Good.submitFirstTurn (g : sys.Good)
    (h : sys.threads = before ++ [.submitFirst t hint] ++ after)
    (hturn : sys.turn submitted (.submitFirst t hint) = some (new, sys')) :
    Process.Good { sys' with threads := before ++ new ++ after } := by
  have hsound := g.soundOf h rfl
  simp only [Process.turn] at hturn
  by_cases hup : sys.isActive t = true
  · rw [if_pos hup] at hturn
    cases hturn
    apply g.go h rfl
    · intro v hv
      rw [List.mem_singleton.mp hv]
      exact .inl rfl
    · rw [about_same Thread.token rfl]
      exact le_rfl
    · exact .inl (Nat.zero_le _)
    · rw [about_same Thread.token rfl]
      intro v hv
      rw [List.mem_singleton.mp hv]
      exact hsound
  · rw [if_neg hup] at hturn
    cases hturn
    apply g.go h rfl
    · intro v hv
      rw [List.mem_singleton.mp hv]
      exact .inl rfl
    · rw [about_same Thread.token rfl]
      exact le_rfl
    · exact .inl (Nat.zero_le _)
    · rw [about_same Thread.token rfl]
      intro v hv
      rw [List.mem_singleton.mp hv]
      obtain ⟨_, _, r, hr, hinitial, _⟩ := hsound
      refine ⟨r, hr, hinitial, fun _ hactive => ?_⟩
      unfold Process.isActive at hup
      rw [hr] at hup
      exact absurd hactive hup

theorem Process.Good.sendFirstTurn (g : sys.Good)
    (h : sys.threads = before ++ [.sendFirst t hint] ++ after)
    (hturn : sys.turn submitted (.sendFirst t hint) = some (new, sys')) :
    Process.Good { sys' with threads := before ++ new ++ after } := by
  simp only [Process.turn] at hturn
  by_cases hfailed : failed submitted = true
  · rw [if_pos hfailed] at hturn
    cases hturn
    apply g.go h rfl
    · intro v hv
      rw [List.mem_singleton.mp hv]
      exact .inl rfl
    · rw [about_same Thread.token rfl]
      exact le_rfl
    · exact .inl (Nat.zero_le _)
    · rw [about_same Thread.token rfl]
      intro v hv
      rw [List.mem_singleton.mp hv]
      obtain ⟨_, _, r, hr, hinitial, _⟩ := g.soundOf h rfl
      exact ⟨r, hr, hinitial, nofun⟩
  · rw [if_neg hfailed] at hturn
    cases hturn
    have hnext : (sys.enqueue t hint).manager.nextToken = sys.manager.nextToken := rfl
    apply g.advance h rfl _ hnext (fun t' ht => ⟨rfl, rfl, log_ne _ _ ht⟩) id
    · intro b a hview
      rw [about_same Thread.token rfl]
      have hpast : (sys.enqueue t hint).past t = .queued hint :: sys.past t := log_self ..
      rw [hpast]
      exact hview.queueFirst
    · intro v hv
      rw [List.mem_singleton.mp hv]
      exact .inl rfl

theorem Process.Good.enqueuedTurn (g : sys.Good) {succeeded : Bool}
    (h : sys.threads = before ++ [.enqueued t succeeded] ++ after)
    (hturn : sys.turn submitted (.enqueued t succeeded) = some (new, sys')) :
    Process.Good { sys' with threads := before ++ new ++ after } := by
  obtain ⟨r, hr, hinitial, _⟩ := g.soundOf h rfl
  cases succeeded with
  | true =>
    cases hturn
    have hnext (f : Registration → Registration) :
        (sys.edit t f).manager.nextToken = sys.manager.nextToken := rfl
    apply g.advance h rfl (by nofun) (hnext _) (fun t' ht => ⟨edit_ne _ _ ht, rfl, rfl⟩)
    · rw [edit_self, Option.isSome_map]
      exact id
    · intro b a hview
      rw [edit_self]
      exact hview.watch
  | false =>
    cases hturn
    have gforget : Process.Good { sys.edit t fun reg => { reg with initialEnqueued := false } with
        threads := before ++ [.enqueued t false] ++ after } := by
      have hnext (f : Registration → Registration) :
          (sys.edit t f).manager.nextToken = sys.manager.nextToken := rfl
      apply g.advance h rfl _ (hnext _) (fun t' ht => ⟨edit_ne _ _ ht, rfl, rfl⟩)
      · rw [edit_self, Option.isSome_map]
        exact id
      · intro b a hview
        rw [edit_self, about_same Thread.token rfl]
        refine hview.update ?_ (fun _ _ h => h) (fun _ _ => le_rfl) le_rfl (.inl le_rfl) ?_
        · intro r' hr'
          rw [hr] at hr'
          cases hr'
          exact ⟨rfl, hinitial.symm, id, fun _ => id⟩
        · intro v hv
          rw [List.mem_singleton.mp hv, hr]
          exact ⟨_, rfl, rfl, nofun⟩
      · intro v hv
        rw [List.mem_singleton.mp hv]
        exact .inl rfl
    have gdown := gforget.deactivate t
    apply gdown.go (t := t) (u := .enqueued t false) (by rfl) rfl
    · intro v hv
      rw [List.mem_singleton.mp hv]
      exact .inl rfl
    · rw [about_same Thread.token rfl]
      exact Nat.zero_le _
    · exact .inl (Nat.zero_le _)
    · rw [about_same Thread.token rfl]
      intro v hv
      rw [List.mem_singleton.mp hv]
      apply deactivate_inactive
      show ((sys.edit t _).manager.registrations t).isSome
      rw [edit_self, hr]
      rfl

theorem Process.Good.forgetTurn (g : sys.Good)
    (h : sys.threads = before ++ [.forget t] ++ after) :
    Process.Good { sys.unlist t with threads := before ++ [] ++ after } := by
  have hinactive := g.soundOf h rfl
  apply (g.unlist hinactive).go (t := t) (u := .forget t) h rfl (by nofun)
  · exact Nat.zero_le _
  · exact .inl (Nat.zero_le _)
  · nofun

/-- The comparison finds the registration inactive, or its first hint not queued yet. -/
theorem compare_skip {r : Registration} (hr : sys.manager.registrations t = some r)
    (hskip : ¬ (r.active && r.initialEnqueued) = true) :
    sys.compare t rest hint = ([.compare rest hint], sys) := by
  unfold Process.compare
  rw [hr]
  exact if_neg hskip

theorem Process.Good.compareTurn (g : sys.Good)
    (h : sys.threads = before ++ [.compare (t :: rest) hint] ++ after)
    (hquiet : ∀ u ∈ sys.threads, u.changes t = false) :
    Process.Good { (sys.compare t rest hint).2 with
      threads := before ++ (sys.compare t rest hint).1 ++ after } := by
  have hgo : Process.Good { sys with threads := before ++ [.compare rest hint] ++ after } :=
    g.outside h (fun _ => rfl) fun _ => rfl
  cases hr : sys.manager.registrations t with
  | none =>
    have hskip : sys.compare t rest hint = ([.compare rest hint], sys) := by
      unfold Process.compare
      rw [hr]
    rw [hskip]
    exact hgo
  | some r =>
    by_cases hlook : (r.active && r.initialEnqueued) = true
    · rw [Bool.and_eq_true] at hlook
      have hnone : (about Thread.token t sys.threads).countP Thread.changed = 0 := by
        apply List.countP_eq_zero.mpr
        intro u hu
        have htoken := eq_of_beq (List.mem_filter.mp hu).2
        have hchanges := hquiet u (List.mem_filter.mp hu).1
        cases u with
        | submit t' rest' hint' =>
          cases htoken
          simp [Thread.changes] at hchanges
        | send t' rest' hint' =>
          cases htoken
          simp [Thread.changes] at hchanges
        | _ => nofun
      rw [h, about_append, about_append] at hnone
      by_cases hsame : sameHint r.last hint = true
      · have hturn : sys.compare t rest hint =
            ([.compare rest hint], sys.log t (.compared hint false)) := by
          unfold Process.compare
          rw [hr]
          simp [hlook, hsame]
        rw [hturn]
        have hnext : (sys.log t (.compared hint false)).manager.nextToken =
          sys.manager.nextToken := rfl
        apply g.touch h t hnext
        · exact fun t' ht => ⟨rfl, rfl, rfl, log_ne _ _ ht⟩
        · exact id
        · intro hview
          rw [log_self]
          show View.Good ⟨sys.manager.registrations t, _, _, _⟩
          rw [hr] at hview ⊢
          exact hview.same hlook.1 hlook.2 hnone hsame
      · rw [Bool.not_eq_true] at hsame
        have hturn : sys.compare t rest hint = ([.submit t rest hint],
            (sys.edit t fun reg => { reg with last := hint }).log t (.compared hint true)) := by
          unfold Process.compare
          rw [hr]
          simp [hlook, hsame]
        rw [hturn]
        have hnext : ((sys.edit t fun reg => { reg with last := hint }).log t
          (.compared hint true)).manager.nextToken = sys.manager.nextToken := rfl
        apply g.touch h t hnext
        · intro t' ht
          exact ⟨about_ne Thread.token rfl ht, edit_ne _ _ ht, rfl, log_ne _ _ ht⟩
        · rw [hr]
          exact fun _ => rfl
        · intro hview
          have hself : ((sys.edit t fun reg => { reg with last := hint }).log t
              (.compared hint true)).manager.registrations t = some { r with last := hint } := by
            show (sys.edit t _).manager.registrations t = _
            rw [edit_self, hr]
            rfl
          have hpast : ((sys.edit t fun reg => { reg with last := hint }).log t
              (.compared hint true)).past t = .compared hint true :: sys.past t := log_self ..
          rw [hself, hpast, about_same Thread.token rfl]
          have hempty : about Thread.token t [.compare (t :: rest) hint] = [] := rfl
          rw [hempty, List.append_nil] at hview hnone
          rw [hr] at hview
          exact hview.change hlook.1 hlook.2 hnone hsame
    · rw [compare_skip hr hlook]
      exact hgo

theorem Process.Good.submitTurn (g : sys.Good)
    (h : sys.threads = before ++ [.submit t rest hint] ++ after)
    (hturn : sys.turn submitted (.submit t rest hint) = some (new, sys')) :
    Process.Good { sys' with threads := before ++ new ++ after } := by
  have hsound := g.soundOf h rfl
  simp only [Process.turn] at hturn
  by_cases hup : sys.isActive t = true
  · rw [if_pos hup] at hturn
    cases hturn
    apply g.go h rfl
    · intro v hv
      rw [List.mem_singleton.mp hv]
      exact .inl rfl
    · rw [about_same Thread.token rfl]
      exact le_rfl
    · rw [about_same Thread.token rfl]
      exact .inl le_rfl
    · rw [about_same Thread.token rfl]
      intro v hv
      rw [List.mem_singleton.mp hv]
      exact hsound
  · rw [if_neg hup] at hturn
    cases hturn
    obtain ⟨_, r, _, _, hr, _⟩ := hsound
    apply g.go h rfl
    · intro v hv
      rw [List.mem_singleton.mp hv]
      exact .inr rfl
    · exact Nat.zero_le _
    · right
      apply inactive_of_not _ hup
      rw [hr]
      rfl
    · nofun

theorem Process.Good.sendTurn (g : sys.Good)
    (h : sys.threads = before ++ [.send t rest hint] ++ after) (hok : failed submitted = false)
    (hturn : sys.turn submitted (.send t rest hint) = some (new, sys')) :
    Process.Good { sys' with threads := before ++ new ++ after } := by
  simp only [Process.turn, hok] at hturn
  cases hturn
  have hnext : (sys.enqueue t hint).manager.nextToken = sys.manager.nextToken := rfl
  apply g.advance h rfl _ hnext (fun t' ht => ⟨rfl, rfl, log_ne _ _ ht⟩) id
  · intro b a hview
    have hpast : (sys.enqueue t hint).past t = .queued hint :: sys.past t := log_self ..
    rw [hpast]
    exact hview.queueChange
  · intro v hv
    rw [List.mem_singleton.mp hv]
    exact .inr rfl

theorem Process.Good.callbackTurn (g : sys.Good)
    (h : sys.threads = before ++ [.callback t hint] ++ after) :
    Process.Good { (sys.edit t fun reg => { reg with running := reg.running - 1 }).log t
      .returned with threads := before ++ [] ++ after } := by
  have hsome : (sys.manager.registrations t).isSome := g.soundOf h rfl
  have hnext : ((sys.edit t fun reg => { reg with running := reg.running - 1 }).log t
    .returned).manager.nextToken = sys.manager.nextToken := rfl
  have hself : ((sys.edit t fun reg => { reg with running := reg.running - 1 }).log t
      .returned).manager.registrations t =
    (sys.manager.registrations t).map fun reg => { reg with running := reg.running - 1 } :=
    edit_self ..
  have hpast : ((sys.edit t fun reg => { reg with running := reg.running - 1 }).log t
    .returned).past t = .returned :: sys.past t := log_self ..
  apply g.advance h rfl (by nofun) hnext
  · exact fun t' ht => ⟨edit_ne _ _ ht, rfl, log_ne _ _ ht⟩
  · exact fun _ => hsome
  · intro b a hview
    rw [hself, hpast]
    exact hview.finish hsome

theorem Process.Good.unregisterTurn (g : sys.Good) {wait own : Bool}
    (h : sys.threads = before ++ [.unregister t wait own] ++ after) :
    Process.Good { (sys.unregister t wait own).2 with
      threads := before ++ (sys.unregister t wait own).1 ++ after } := by
  have gdown := g.deactivate t
  obtain ⟨hsome, hown⟩ := g.soundOf h rfl
  have hinactive := deactivate_inactive hsome
  have hstep (new : List Thread) (hnew : ∀ v ∈ new, v.token = some t)
      (hqueues : new.countP Thread.queues = 0)
      (hsound : ∀ v ∈ new, View.Sound ((sys.deactivate t).manager.registrations t)
        ((sys.deactivate t).past t) v) :
      Process.Good { sys.deactivate t with threads := before ++ new ++ after } := by
    have hsame : about Thread.token t new = new :=
      List.filter_eq_self.mpr fun v hv => by rw [hnew v hv]; exact beq_self_eq_true _
    apply gdown.go (u := .unregister t wait own) h rfl (fun v hv => .inl (hnew v hv))
    · rw [hsame, hqueues]
      exact Nat.zero_le _
    · exact .inl (Nat.zero_le _)
    · rw [hsame]
      exact hsound
  unfold Process.unregister
  by_cases hidle : (sys.deactivate t).isIdle t = true
  · simp only [if_pos hidle]
    apply hstep _ (by simp [Thread.token]) rfl
    intro v hv
    rw [List.mem_singleton.mp hv]
    exact idle_of_all hinactive hidle
  · simp only [if_neg hidle]
    cases wait with
    | false => exact hstep [] (by nofun) rfl (by nofun)
    | true =>
      rw [hown rfl]
      apply hstep _ (by simp [Thread.token]) rfl
      intro v hv
      rw [List.mem_singleton.mp hv]
      exact hinactive

theorem Process.Good.waitingTurn (g : sys.Good)
    (h : sys.threads = before ++ [.waiting t] ++ after)
    (hturn : sys.turn submitted (.waiting t) = some (new, sys')) :
    Process.Good { sys' with threads := before ++ new ++ after } := by
  simp only [Process.turn] at hturn
  by_cases hidle : sys.isIdle t = true
  · rw [if_pos hidle] at hturn
    cases hturn
    apply g.go h rfl
    · intro v hv
      rw [List.mem_singleton.mp hv]
      exact .inl rfl
    · rw [about_same Thread.token rfl]
      exact le_rfl
    · exact .inl (Nat.zero_le _)
    · rw [about_same Thread.token rfl]
      intro v hv
      rw [List.mem_singleton.mp hv]
      exact idle_of_all (g.soundOf h rfl) hidle
  · rw [if_neg hidle] at hturn
    cases hturn

theorem Process.Good.eraseTurn (g : sys.Good) {wait : Bool}
    (h : sys.threads = before ++ [.erase t wait] ++ after) :
    Process.Good { (if wait = true then (sys.unlist t).log t .unregistered else sys.unlist t) with
      threads := before ++ [] ++ after } := by
  have hidle : View.Idle (sys.manager.registrations t) := g.soundOf h rfl
  have gover : Process.Good { sys.unlist t with threads := before ++ [] ++ after } := by
    apply (g.unlist hidle.inactive).go (u := .erase t wait) h rfl (by nofun)
    · exact Nat.zero_le _
    · exact .inl (Nat.zero_le _)
    · nofun
  cases wait with
  | false => exact gover
  | true => exact gover.unregistered hidle

end Turns

/-! ## Every run -/

/-- A thread begins that is about no registration. -/
theorem Process.Good.spawn (g : sys.Good) {u : Thread} (hu : u.token = none) :
    Process.Good { sys with threads := u :: sys.threads } := by
  have h : sys.threads = [] ++ [] ++ sys.threads := rfl
  have hspawn : Process.Good { sys with threads := [] ++ [u] ++ sys.threads } :=
    g.outside h (fun _ => rfl) fun _ => about_none Thread.token hu
  exact hspawn

theorem Process.Good.turn (g : sys.Good) {index : Nat} {submitted : HResult} {u : Thread}
    (hu : sys.threads[index]? = some u) (hsteady : Steady sys (.turn index submitted))
    {sys' : Process} (hturn : sys.turn submitted u = some (new, sys')) :
    Process.Good { sys' with
      threads := sys.threads.take index ++ new ++ sys.threads.drop (index + 1) } := by
  have h := eq_take_append_drop hu
  simp only [Steady, hu] at hsteady
  cases u with
  | register hint =>
    have hrun : sys.insert hint = (new, sys') := Option.some_inj.mp hturn
    have hinsert : Process.Good { (sys.insert hint).2 with
        threads := sys.threads.take index ++ (sys.insert hint).1 ++
          sys.threads.drop (index + 1) } := g.insert h rfl
    rw [hrun] at hinsert
    exact hinsert
  | submitFirst t hint => exact g.submitFirstTurn h hturn
  | sendFirst t hint => exact g.sendFirstTurn h hturn
  | enqueued t succeeded => exact g.enqueuedTurn h hturn
  | forget t =>
    cases hturn
    exact g.forgetTurn h
  | snapshot hint =>
    cases hturn
    have hsnapshot := g.snapshot sys.manager.listed.length
    rw [List.take_length, List.drop_length, List.append_nil] at hsnapshot
    exact hsnapshot.outside h (fun _ => rfl) fun _ => rfl
  | compare tokens hint =>
    cases tokens with
    | nil =>
      cases hturn
      exact g.outside h (fun _ => rfl) fun _ => rfl
    | cons t rest =>
      have hrun : sys.compare t rest hint = (new, sys') := Option.some_inj.mp hturn
      have hcompare := g.compareTurn h hsteady
      rw [hrun] at hcompare
      exact hcompare
  | submit t rest hint => exact g.submitTurn h hturn
  | send t rest hint => exact g.sendTurn h hsteady hturn
  | callback t hint =>
    cases hturn
    exact g.callbackTurn h
  | unregister t wait own =>
    have hrun : sys.unregister t wait own = (new, sys') := Option.some_inj.mp hturn
    have hunregister := g.unregisterTurn h
    rw [hrun] at hunregister
    exact hunregister
  | waiting t => exact g.waitingTurn h hturn
  | erase t wait =>
    cases hturn
    exact g.eraseTurn h
  | draining retired =>
    cases retired with
    | nil =>
      cases hturn
      have hend : Process.Good { sys with
          manager := { sys.manager with stopped := true, stopping := false } } :=
        ⟨g.views, g.tokens⟩
      exact hend.outside h (fun _ => rfl) fun _ => rfl
    | cons row rest =>
      obtain ⟨t, depth⟩ := row
      simp only [Process.turn] at hturn
      by_cases hdone : (sys.manager.registrations t).all (·.running ≤ depth) = true
      · rw [if_pos hdone] at hturn
        cases hturn
        exact g.outside h (fun _ => rfl) fun _ => rfl
      · rw [if_neg hdone] at hturn
        cases hturn

theorem Process.Good.notification (g : sys.Good) (t : Token) (hint : Hint) (cancelled : Bool) :
    (sys.notification t hint cancelled).Good := by
  unfold Process.notification
  by_cases hskip : (cancelled || !sys.isActive t) = true
  · rw [if_pos hskip]
    exact g
  · rw [if_neg hskip]
    have hup : sys.isActive t = true := by
      cases hup : sys.isActive t with
      | true => rfl
      | false => simp [hup] at hskip
    cases hr : sys.manager.registrations t with
    | none =>
      unfold Process.isActive at hup
      rw [hr] at hup
      cases hup
    | some r =>
      have hactive : r.active = true := by
        unfold Process.isActive at hup
        rw [hr] at hup
        exact hup
      have h : sys.threads = [] ++ [] ++ sys.threads := rfl
      have hnext : ((sys.edit t fun reg => { reg with running := reg.running + 1 }).log t
        .started).manager.nextToken = sys.manager.nextToken := rfl
      have hstart : Process.Good { (sys.edit t fun reg =>
          { reg with running := reg.running + 1 }).log t .started with
            threads := [] ++ [.callback t hint] ++ sys.threads } := by
        apply g.touch h t hnext
        · intro t' ht
          exact ⟨about_ne Thread.token rfl ht, edit_ne _ _ ht, rfl, log_ne _ _ ht⟩
        · rw [hr]
          exact fun _ => rfl
        · intro hview
          have hself : ((sys.edit t fun reg => { reg with running := reg.running + 1 }).log t
              .started).manager.registrations t = some { r with running := r.running + 1 } := by
            show (sys.edit t _).manager.registrations t = _
            rw [edit_self, hr]
            rfl
          have hpast : ((sys.edit t fun reg => { reg with running := reg.running + 1 }).log t
            .started).past t = .started :: sys.past t := log_self ..
          rw [hself, hpast, about_same Thread.token rfl]
          rw [hr] at hview
          exact hview.start hactive
      exact hstart

theorem Process.Good.startUnregister (g : sys.Good) {t : Token} {wait own : Bool}
    (hsteady : wait = true → own = false ∧ (t ∈ sys.manager.listed ∨ sys.isIdle t = true)) :
    (sys.startUnregister t wait own).Good := by
  unfold Process.startUnregister
  cases hr : sys.manager.registrations t with
  | none =>
    by_cases hlisted : t ∈ sys.manager.listed
    · have hsome := (g.views t).known (decide_eq_true hlisted)
      change (sys.manager.registrations t).isSome at hsome
      rw [hr] at hsome
      cases hsome
    · rw [if_neg hlisted, Option.isSome_none, Bool.and_false, if_neg Bool.false_ne_true]
      exact g
  | some r =>
    have hsome : (sys.manager.registrations t).isSome := by
      rw [hr]
      rfl
    by_cases hlisted : t ∈ sys.manager.listed
    · rw [if_pos hlisted]
      have h : sys.threads = [] ++ [] ++ sys.threads := rfl
      have hspawn : Process.Good { sys with
          threads := [] ++ [.unregister t wait own] ++ sys.threads } := by
        apply g.touch h t rfl
        · exact fun t' ht => ⟨about_ne Thread.token rfl ht, rfl, rfl, rfl⟩
        · exact id
        · intro hview
          rw [about_same Thread.token rfl]
          refine hview.move le_rfl (.inl le_rfl) ?_
          intro v hv
          rw [List.mem_singleton.mp hv]
          exact ⟨hsome, fun hwait => (hsteady hwait).1⟩
      exact hspawn
    · rw [if_neg hlisted]
      cases wait with
      | false => exact g
      | true =>
        rw [Option.isSome_some, Bool.and_true, if_pos rfl]
        have hidle := (hsteady rfl).2.resolve_left hlisted
        have hinactive := (g.views t).gone (decide_eq_false hlisted) hsome
        exact g.unregistered (idle_of_all hinactive hidle)

theorem Process.Good.shutdown (g : sys.Good) (depth : Token → Nat) : (sys.shutdown depth).Good := by
  unfold Process.shutdown
  dsimp only
  split
  · exact g
  have hdown : Process.Good { sys with
      manager := { sys.manager with
        stopping := true
        listed := []
        registrations := fun t =>
          if t ∈ sys.manager.listed then
            (sys.manager.registrations t).map fun reg => { reg with active := false }
          else sys.manager.registrations t } } := by
    refine ⟨fun t => ?_, fun t ht => ?_⟩
    · by_cases hlisted : t ∈ sys.manager.listed
      · have hview := (g.deactivate t).views t
        have hself : (sys.deactivate t).manager.registrations t =
            (sys.manager.registrations t).map fun reg => { reg with active := false } :=
          edit_self ..
        unfold Process.view at hview ⊢
        rw [hself] at hview
        simp only [if_pos hlisted]
        show View.Good ⟨_, false, _, _⟩
        refine hview.relist (fun _ => .inr fun hsome => ?_) nofun
        obtain ⟨r, hr⟩ := Option.isSome_iff_exists.mp hsome
        obtain ⟨r₀, _, rfl⟩ := Option.map_eq_some_iff.mp hr
        exact ⟨_, hr, rfl⟩
      · have hview := g.views t
        unfold Process.view at hview ⊢
        simp only [if_neg hlisted]
        exact hview.relist (fun _ => .inl (decide_eq_false hlisted)) nofun
    · have hnone := g.tokens t ht
      show (if t ∈ sys.manager.listed then
        (sys.manager.registrations t).map fun reg => { reg with active := false }
        else sys.manager.registrations t) = none
      rw [hnone]
      split <;> rfl
  exact hdown.spawn rfl

theorem Process.Good.perform (g : sys.Good) {action : Action} (hsteady : Steady sys action) :
    (sys.perform action).Good := by
  cases action with
  | turn index submitted =>
    cases hu : sys.threads[index]? with
    | none =>
      simp only [Process.perform, hu]
      exact g
    | some u =>
      cases hturn : sys.turn submitted u with
      | none =>
        simp only [Process.perform, hu, hturn]
        exact g
      | some result =>
        simp only [Process.perform, hu, hturn]
        exact g.turn hu hsteady hturn
  | abandon index looked =>
    cases hu : sys.threads[index]? with
    | none =>
      simp only [Process.perform, hu]
      exact g
    | some u =>
      cases u with
      | snapshot hint =>
        simp only [Process.perform, hu]
        have h := eq_take_append_drop hu
        exact (g.snapshot looked).outside h (fun _ => rfl) fun _ => rfl
      | _ =>
        simp only [Process.perform, hu]
        exact g
  | register hint => exact g.spawn rfl
  | poll hint => exact g.spawn rfl
  | notification t hint cancelled =>
    unfold Process.perform
    dsimp only
    split
    · have hjobs : Process.Good { sys with jobs := sys.jobs.erase (t, hint) } :=
        ⟨g.views, g.tokens⟩
      exact hjobs.notification t hint cancelled
    · exact g
  | unregister t wait own =>
    unfold Process.perform
    dsimp only
    split
    · exact g
    · exact g.startUnregister hsteady
  | shutdown depth => exact g.shutdown depth

theorem Process.Good.of_reachable (h : Reachable Steady sys) : sys.Good := by
  induction h with
  | start hloaded =>
    refine ⟨fun t => ?_, fun t _ => hloaded.registrations t⟩
    unfold Process.view
    rw [hloaded.registrations, hloaded.past, hloaded.threads, hloaded.listed]
    exact ⟨trivial, fun _ => rfl, Nat.zero_le _, nofun, nofun, nofun, nofun, nofun, nofun⟩
  | perform action _ hsteady ih => exact ih.perform hsteady

section

def loaded : Process :=
  { manager := {
      registrations := fun _ => none, listed := [], nextToken := 1, stopped := true
      stopping := false }
    threads := [], jobs := [], past := fun _ => [] }

theorem loaded_loaded : Loaded loaded := ⟨fun _ => rfl, rfl, rfl, rfl, rfl, fun _ => rfl⟩

def Process.run (sys : Process) (actions : List Action) : Process :=
  actions.foldl Process.perform sys

/-- Every action of the run meets `P`. -/
def EachMeets (P : Process → Action → Prop) : Process → List Action → Prop
  | _, [] => True
  | sys, action :: actions => P sys action ∧ EachMeets P (sys.perform action) actions

theorem Reachable.run {P : Process → Action → Prop} (h : Reachable P sys) (actions : List Action)
    (hmeets : EachMeets P sys actions) : Reachable P (sys.run actions) := by
  induction actions generalizing sys with
  | nil => exact h
  | cons action actions ih => exact ih (h.perform action hmeets.1) hmeets.2

/-- Without a network, and with one. -/
def offline : Hint := ⟨1, 0, 0, true, false, false, false⟩

def online : Hint := ⟨3, 0, 6, true, false, false, false⟩

/-- A registration whose first hint is queued. -/
def enrolled : List Action :=
  [.register offline, .turn 0 S_OK, .turn 0 S_OK, .turn 0 S_OK, .turn 0 S_OK]

/-- A poll of the only registration; `submitted` is what its submission returns. -/
def polled (hint : Hint) (submitted : HResult) : List Action :=
  [.poll hint, .turn 0 S_OK, .turn 0 S_OK, .turn 0 S_OK, .turn 0 submitted, .turn 0 S_OK]

def told : List Action :=
  enrolled ++ polled online S_OK ++ [.notification 1 online false, .turn 0 S_OK,
    .unregister 1 true false, .turn 0 S_OK, .turn 0 S_OK]

/-- The change is not queued, and the next poll, which still sees it, finds none. -/
def lost : List Action := enrolled ++ polled online 0x8007000E ++ polled online S_OK

/-- A shutdown has taken the registration out of the map while its callback runs. -/
def retired : List Action :=
  enrolled ++ [.notification 1 offline false, .shutdown fun _ => 0, .unregister 1 true false]

/-- The callback unregisters itself and waits. -/
def nested : List Action :=
  enrolled ++ [.notification 1 offline false, .unregister 1 true true, .turn 0 S_OK]

end

end Flightdeck.Network.Connectivity
