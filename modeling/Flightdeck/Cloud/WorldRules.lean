import Flightdeck.Cloud.World
import Flightdeck.Foundation.Outcome

/-!
# Rules for the effects of a session

What an effect may change, as triples over the world.  An assertion is steady when it depends only
on the disk, on the server and on what the remaining moves have in common.
-/

namespace Flightdeck.Cloud

open Foundation SaveState Session

/-- `P` does not care about the clock, the draws and the end of the program, and holds with fewer
moves if it holds with more. -/
def Steady (P : World → Prop) : Prop :=
  ∀ ⦃w w' : World⦄, w'.disk = w.disk → w'.server = w.server → w'.moves ⊆ w.moves → P w → P w'

namespace Steady

variable {P Q : World → Prop}

theorem disk (R : Disk → Prop) : Steady fun w => R w.disk := by
  intro w w' hdisk _ _ h
  rw [hdisk]
  exact h

theorem and (hP : Steady P) (hQ : Steady Q) : Steady fun w => P w ∧ Q w :=
  fun _ _ hdisk hserver hmoves h => ⟨hP hdisk hserver hmoves h.1, hQ hdisk hserver hmoves h.2⟩

theorem const (p : Prop) : Steady fun _ => p := fun _ _ _ _ _ h => h

end Steady

@[simp] theorem World.next_disk (w : World) : w.next.2.disk = w.disk := by
  unfold World.next
  split <;> rfl

@[simp] theorem World.next_server (w : World) : w.next.2.server = w.server := by
  unfold World.next
  split <;> rfl

theorem World.next_moves (w : World) : w.next.2.moves ⊆ w.moves := by
  unfold World.next
  split
  · exact fun _ h => h
  · rename_i move moves h
    rw [h]
    exact List.subset_cons_self move moves

theorem World.next_mem {w : World} (h : w.next.1 ∉ w.moves) : w.next.1 = {} := by
  unfold World.next at h ⊢
  split
  · rfl
  · rename_i move moves hmoves
    rw [hmoves] at h
    exact absurd List.mem_cons_self h

theorem Steady.next {P : World → Prop} (hP : Steady P) {w : World} (h : P w) : P w.next.2 :=
  hP w.next_disk w.next_server w.next_moves h

theorem Steady.alive {P : World → Prop} (hP : Steady P) {w : World} (h : P w) (alive : Bool) :
    P { w with alive } := hP (w := w) rfl rfl (fun _ h => h) h

variable {α : Type}

/-- An effect does not happen, fails, or happens and may lose its result. -/
theorem effect_triple {code : Code} {fault : Move → Fault} {arrive : Move → World → World}
    {act : Move → World → Except Failure α × World} {P : World → Prop} {Q : α → World → Prop}
    {E : Failure → World → Prop} (hdead : ∀ w, P w → E (.new code) w)
    (hlost : ∀ w alive, P w →
      E (.new code) { arrive w.next.1 w.next.2 with alive })
    (hact : ∀ w, P w → ∀ a w', act w.next.1 (arrive w.next.1 w.next.2) = (.ok a, w') →
      Q a w' ∧ (fault w.next.1 = .after → E (.new code) { w' with alive := !w.next.1.crash }))
    (hfail : ∀ w, P w → ∀ e w', act w.next.1 (arrive w.next.1 w.next.2) = (.error e, w') →
      E e w' ∧ ∀ alive, E (.new code) { w' with alive }) :
    Triple P (effect code fault arrive act) Q E := by
  intro w hw
  unfold effect
  by_cases halive : w.alive = true
  · rw [if_pos halive]
    cases hfault : fault w.next.1 with
    | none =>
      simp only [hfault]
      cases hresult : act w.next.1 (arrive w.next.1 w.next.2) with
      | mk result w' =>
        cases result with
        | ok a => exact (hact w hw a w' hresult).1
        | error e => exact (hfail w hw e w' hresult).1
    | before =>
      simp only [hfault]
      exact hlost w _ hw
    | after =>
      simp only [hfault]
      cases hresult : act w.next.1 (arrive w.next.1 w.next.2) with
      | mk result w' =>
        cases result with
        | ok a => exact (hact w hw a w' hresult).2 hfault
        | error e => exact (hfail w hw e w' hresult).2 _
  · rw [if_neg halive]
    exact hdead w hw

/-- What a failed read of the disk ends with. -/
def ReadFailed (f : Disk → Except Failure α) (e : Failure) (disk : Disk) : Prop :=
  e = .new .localStorage ∨ f disk = .error e

theorem reading_triple {f : Disk → Except Failure α} {P : World → Prop} (hP : Steady P) :
    Triple P (reading f) (fun a w => P w ∧ f w.disk = .ok a)
      (fun e w => P w ∧ ReadFailed f e w.disk) := by
  unfold reading diskEffect
  refine effect_triple (fun w hw => ⟨hw, Or.inl rfl⟩) (fun w alive hw => ?_)
    (fun w hw a w' hact => ?_) (fun w hw e w' hact => ?_)
  · exact ⟨hP.alive (hP.next hw) alive, Or.inl rfl⟩
  · obtain ⟨hresult, rfl⟩ := Prod.mk.inj hact
    exact ⟨⟨hP.next hw, hresult⟩, fun _ => ⟨hP.alive (hP.next hw) _, Or.inl rfl⟩⟩
  · obtain ⟨hresult, rfl⟩ := Prod.mk.inj hact
    exact ⟨⟨hP.next hw, Or.inr hresult⟩, fun alive => ⟨hP.alive (hP.next hw) alive, Or.inl rfl⟩⟩

section

variable {service : Service} {f : String → Disk → Except Failure (α × Disk)} {P : World → Prop}
  {Q : α → World → Prop} {E : Failure → World → Prop}

/-- A write draws a UUID and changes the disk, or fails and changes nothing. -/
theorem write_cases {move : Move} {w w' : World} {r : Except Failure α}
    (h : write service f move w = (r, w')) :
    (∃ n a disk, f (simpleUuid n) w.disk = .ok (a, disk) ∧ r = .ok a ∧
        w' = { w with disk, draws := w.draws + 1 }) ∨
      ∃ n e, f (simpleUuid n) w.disk = .error e ∧ r = .error e ∧ w' = w := by
  unfold write at h
  cases hf : f (simpleUuid (service.uuid w.draws)) w.disk with
  | ok v =>
    obtain ⟨a, disk⟩ := v
    rw [hf] at h
    obtain ⟨rfl, rfl⟩ := Prod.mk.inj h
    exact Or.inl ⟨_, a, disk, hf, rfl, rfl⟩
  | error e =>
    rw [hf] at h
    obtain ⟨rfl, rfl⟩ := Prod.mk.inj h
    exact Or.inr ⟨_, e, hf, rfl, rfl⟩

/-- The common part of the rules for changes of the disk. -/
theorem write_triple {fault : Move → Fault} (hP : Steady P) (hQ : ∀ a, Steady (Q a))
    (hwrite : ∀ w n a disk, P w → f (simpleUuid n) w.disk = .ok (a, disk) → Q a { w with disk })
    (hlost : ∀ w, P w → E (.new .localStorage) w)
    (hafter : ∀ (a : α) (move : Move) w, fault move = .after → Q a w →
      E (.new .localStorage) { w with alive := !move.crash })
    (hfail : ∀ w n e, P w → f (simpleUuid n) w.disk = .error e → E e w) :
    Triple P (effect .localStorage fault (fun _ w => w) (write service f)) Q E := by
  refine effect_triple (fun w hw => hlost w hw) (fun w alive hw => ?_) (fun w hw a w' hr => ?_)
    (fun w hw e w' hr => ?_)
  · exact hlost _ (hP.alive (hP.next hw) alive)
  · rcases write_cases hr with ⟨n, a', disk, hf, ha, rfl⟩ | ⟨n, e, -, he, -⟩
    · cases ha
      have hq : Q a { w.next.2 with disk } := hwrite _ n a disk (hP.next hw) hf
      have hq' : Q a { w.next.2 with disk, draws := w.next.2.draws + 1 } :=
        hQ a (w := { w.next.2 with disk }) rfl rfl (fun _ h => h) hq
      exact ⟨hq', fun hfault => hafter a _ _ hfault hq'⟩
    · cases he
  · rcases write_cases hr with ⟨n, a, disk, -, ha, -⟩ | ⟨n, e', hf, he, rfl⟩
    · cases ha
    · cases he
      exact ⟨hfail _ n _ (hP.next hw) hf, fun alive => hlost _ (hP.alive (hP.next hw) alive)⟩

/-- A change of the disk: it happens, is lost after it happened, or does not happen. -/
theorem writing_triple (hP : Steady P) (hQ : ∀ a, Steady (Q a))
    (hwrite : ∀ w n a disk, P w → f (simpleUuid n) w.disk = .ok (a, disk) → Q a { w with disk })
    (hlost : ∀ w, P w → E (.new .localStorage) w)
    (hafter : ∀ a w, Q a w → E (.new .localStorage) w)
    (hfail : ∀ w n e, P w → f (simpleUuid n) w.disk = .error e → E e w) :
    Triple P (writing service f) Q E :=
  write_triple hP hQ hwrite hlost (fun a _ _ _ hq => hafter a _ ((hQ a).alive hq _)) hfail

/-- A system call: it happens, or fails and changes nothing; a crash may follow it. -/
theorem systemCall_triple (hP : Steady P) (hQ : ∀ a, Steady (Q a))
    (hwrite : ∀ w n a disk, P w → f (simpleUuid n) w.disk = .ok (a, disk) → Q a { w with disk })
    (hlost : ∀ w, P w → E (.new .localStorage) w)
    (hcrash : ∀ a w, Q a w → w.alive = false → E (.new .localStorage) w)
    (hfail : ∀ w n e, P w → f (simpleUuid n) w.disk = .error e → E e w) :
    Triple P (systemCall service f) Q E := by
  refine write_triple hP hQ hwrite hlost (fun a move w hsure hq => ?_) hfail
  have hmove : move.crash = true := by
    unfold Move.sure at hsure
    by_cases h : move.fault = .after ∧ move.crash = false
    · rw [if_pos h] at hsure
      cases hsure
    · rw [if_neg h] at hsure
      rw [hsure] at h
      simpa using h
  exact hcrash a _ ((hQ a).alive hq _) (by rw [hmove]; rfl)

end

/-- A check that holds. -/
theorem require_bind {σ β : Type} {condition : Bool} {code : Code} {f : Unit → EStateM Failure σ β}
    {P : σ → Prop} {Q : β → σ → Prop} {E : Failure → σ → Prop} (h : condition = true)
    (hrest : Triple P (f ()) Q E) :
    Triple P (liftM (Cloud.require condition code) >>= f) Q E := by
  rw [h]
  exact hrest

/-! ## Assertions about the disk -/

def OnDisk (R : Disk → Prop) (w : World) : Prop := R w.disk

theorem OnDisk.steady (R : Disk → Prop) : Steady (OnDisk R) := Steady.disk R

section

variable {R : Disk → Prop} {E : Failure → World → Prop}

/-- What is known of a fixed disk is known for the rest of the program. -/
theorem fixed_onDisk {disk : Disk} {m : EStateM Failure World α} {Q : α → World → Prop}
    (h : R disk → Triple (OnDisk (· = disk)) m Q E) :
    Triple (OnDisk fun d => d = disk ∧ R d) m Q E := by
  intro w hw
  have hR : R w.disk := hw.2
  rw [show w.disk = disk from hw.1] at hR
  exact h hR w hw.1

/-- A program may be studied for each disk that it can start on. -/
theorem each_onDisk {m : EStateM Failure World α} {Q : α → World → Prop}
    (h : ∀ disk, R disk → Triple (OnDisk (· = disk)) m Q E) : Triple (OnDisk R) m Q E :=
  fun w hw => h w.disk hw w rfl

theorem reading_onDisk {f : Disk → Except Failure α} (hE : ∀ e w, OnDisk R w → E e w) :
    Triple (OnDisk R) (reading f) (fun a => OnDisk fun d => R d ∧ f d = .ok a) E :=
  (reading_triple (OnDisk.steady R)).mono (fun _ h => h) (fun _ _ h => h) fun e w h => hE e w h.1

theorem lift_onDisk {x : Except Failure α} (hE : ∀ e w, OnDisk R w → E e w) :
    Triple (OnDisk R) (liftM x : EStateM Failure World α)
      (fun a => OnDisk fun d => R d ∧ x = .ok a) E :=
  Triple.lift (fun _ _ h hx => ⟨h, hx⟩) (fun e w h _ => hE e w h)

theorem require_onDisk {condition : Bool} {code : Code} (hE : ∀ e w, OnDisk R w → E e w) :
    Triple (OnDisk R) (liftM (Cloud.require condition code) : EStateM Failure World Unit)
      (fun _ => OnDisk fun d => R d ∧ condition = true) E :=
  Triple.lift (fun _ _ h hx => ⟨h, require_eq_ok.mp hx⟩) (fun e w h _ => hE e w h)

theorem writing_onDisk {service : Service} {f : String → Disk → Except Failure (α × Disk)}
    {Q : α → Disk → Prop} (hE : ∀ e w, OnDisk R w → E e w)
    (hafter : ∀ a e w, OnDisk (Q a) w → E e w)
    (hwrite : ∀ d n a d', R d → f (simpleUuid n) d = .ok (a, d') → Q a d') :
    Triple (OnDisk R) (writing service f) (fun a => OnDisk (Q a)) E :=
  writing_triple (OnDisk.steady R) (fun a => OnDisk.steady (Q a))
    (fun w n a d' hw hf => hwrite w.disk n a d' hw hf) (fun w hw => hE _ w hw)
    (fun a w hq => hafter a _ w hq) (fun w _ e hw _ => hE e w hw)

theorem systemCall_onDisk {service : Service} {f : String → Disk → Except Failure (α × Disk)}
    {Q : α → Disk → Prop} (hE : ∀ e w, OnDisk R w → E e w)
    (hcrash : ∀ a e w, OnDisk (Q a) w → w.alive = false → E e w)
    (hwrite : ∀ d n a d', R d → f (simpleUuid n) d = .ok (a, d') → Q a d') :
    Triple (OnDisk R) (systemCall service f) (fun a => OnDisk (Q a)) E :=
  systemCall_triple (OnDisk.steady R) (fun a => OnDisk.steady (Q a))
    (fun w n a d' hw hf => hwrite w.disk n a d' hw hf) (fun w hw => hE _ w hw)
    (fun a w hq hdead => hcrash a _ w hq hdead) (fun w _ e hw _ => hE e w hw)

end

theorem load_ambient {assertLocal : EStateM Failure World Unit} {P : World → Prop}
    (hP : Steady P) {E : Failure → World → Prop} :
    Triple P (ambient assertLocal).load (fun _ => P) E :=
  fun _ hw => hP.next hw

theorem cancelCheck_triple {P : World → Prop} (hP : Steady P) :
    Triple P cancelCheck (fun _ => P) (fun e w => P w ∧ e = .new .cancelled) := by
  refine (load_ambient hP).bind fun cancelled => ?_
  refine Triple.lift (fun _ _ hw _ => hw) fun e w hw he => ⟨hw, ?_⟩
  exact (Cloud.require_eq_error.mp he).2

theorem cancelCheck_onDisk {R : Disk → Prop} {E : Failure → World → Prop}
    (hE : ∀ e w, OnDisk R w → E e w) : Triple (OnDisk R) cancelCheck (fun _ => OnDisk R) E :=
  (cancelCheck_triple (OnDisk.steady R)).mono (fun _ h => h) (fun _ _ h => h) fun e w h => hE e w h.1

/-! ## Runs that nothing disturbs -/

/-- The program is running, and no move fails an effect or cancels it. -/
def Calm (w : World) : Prop :=
  w.alive = true ∧ ∀ move ∈ w.moves, move.fault = .none ∧ move.cancel = false

theorem Calm.next {w : World} (h : Calm w) :
    Calm w.next.2 ∧ w.next.1.fault = .none ∧ w.next.1.cancel = false := by
  unfold World.next
  cases hmoves : w.moves with
  | nil => exact ⟨h, rfl, rfl⟩
  | cons move moves =>
    have hall : ∀ m ∈ move :: moves, m.fault = .none ∧ m.cancel = false := hmoves ▸ h.2
    exact ⟨⟨h.1, fun m hm => hall m (List.mem_cons_of_mem _ hm)⟩, hall move List.mem_cons_self⟩

/-- A calm world whose next UUID is the one with the number `n`. -/
def CalmOn (n : Nat) (R : Disk → Prop) (w : World) : Prop := Calm w ∧ w.draws = n ∧ R w.disk

@[simp] theorem World.next_draws (w : World) : w.next.2.draws = w.draws := by
  unfold World.next
  split <;> rfl

section

variable {n : Nat} {R : Disk → Prop} {E : Failure → World → Prop} {Q : α → Disk → Prop}

theorem CalmOn.next {w : World} (h : CalmOn n R w) : CalmOn n R w.next.2 :=
  ⟨h.1.next.1, w.next_draws.trans h.2.1, by rw [w.next_disk]; exact h.2.2⟩

/-- An effect on the disk happens in a calm world. -/
theorem effect_calm {m : Nat} {fault : Move → Fault} {act : Move → World → Except Failure α × World}
    (hfault : ∀ move, move.fault = .none → fault move = .none)
    (hact : ∀ move w, CalmOn n R w → ∃ a w', act move w = (.ok a, w') ∧ CalmOn m (Q a) w') :
    Triple (CalmOn n R) (effect .localStorage fault (fun _ w => w) act) (fun a => CalmOn m (Q a))
      E := by
  intro w hw
  have hnone : fault w.next.1 = .none := hfault _ hw.1.next.2.1
  obtain ⟨a, w', hresult, hq⟩ := hact w.next.1 w.next.2 hw.next
  unfold effect
  rw [if_pos hw.1.1]
  simp only [hnone, hresult]
  exact hq

theorem reading_calm {f : Disk → Except Failure α} (h : ∀ d, R d → ∃ a, f d = .ok a ∧ Q a d) :
    Triple (CalmOn n R) (reading f) (fun a => CalmOn n (Q a)) E := by
  unfold reading diskEffect
  refine effect_calm (fun _ hmove => hmove) fun move w hw => ?_
  obtain ⟨a, ha, hq⟩ := h w.disk hw.2.2
  exact ⟨a, w, by rw [ha], hw.1, hw.2.1, hq⟩

/-- A read of a known disk. -/
theorem reading_calm_bind {β : Type} {disk : Disk} {f : Disk → Except Failure α} {a : α}
    {k : α → EStateM Failure World β} {Q : β → World → Prop} (ha : f disk = .ok a)
    (h : Triple (CalmOn n (· = disk)) (k a) Q E) :
    Triple (CalmOn n (· = disk)) (reading f >>= k) Q E := by
  have hread : Triple (CalmOn n (· = disk)) (reading f) (fun b => CalmOn n fun d => d = disk ∧ b = a)
      E := reading_calm fun d hd => ⟨a, by rw [hd]; exact ha, hd, rfl⟩
  refine hread.bind fun b w hw => ?_
  have hb : b = a := hw.2.2.2
  rw [hb]
  exact h w ⟨hw.1, hw.2.1, hw.2.2.1⟩

theorem write_calm {service : Service} {f : String → Disk → Except Failure (α × Disk)}
    (h : ∀ d, R d → ∃ a d', f (simpleUuid (service.uuid n)) d = .ok (a, d') ∧ Q a d') (move : Move)
    (w : World) (hw : CalmOn n R w) :
    ∃ a w', write service f move w = (.ok a, w') ∧ CalmOn (n + 1) (Q a) w' := by
  obtain ⟨a, d', ha, hq⟩ := h w.disk hw.2.2
  refine ⟨a, { w with disk := d', draws := w.draws + 1 }, ?_, hw.1, by rw [hw.2.1], hq⟩
  unfold write
  rw [hw.2.1, ha]

theorem writing_calm {service : Service} {f : String → Disk → Except Failure (α × Disk)}
    (h : ∀ d, R d → ∃ a d', f (simpleUuid (service.uuid n)) d = .ok (a, d') ∧ Q a d') :
    Triple (CalmOn n R) (writing service f) (fun a => CalmOn (n + 1) (Q a)) E :=
  effect_calm (fun _ hmove => hmove) (write_calm h)

theorem systemCall_calm {service : Service} {f : String → Disk → Except Failure (α × Disk)}
    (h : ∀ d, R d → ∃ a d', f (simpleUuid (service.uuid n)) d = .ok (a, d') ∧ Q a d') :
    Triple (CalmOn n R) (systemCall service f) (fun a => CalmOn (n + 1) (Q a)) E := by
  refine effect_calm (fun move hmove => ?_) (write_calm h)
  unfold Move.sure
  rw [if_neg (fun h => by rw [hmove] at h; cases h.1)]
  exact hmove

theorem cancelCheck_calm : Triple (CalmOn n R) cancelCheck (fun _ => CalmOn n R) E := by
  intro w hw
  have hcancel : ((ambient (return)).cancelled w).1 = false := hw.1.next.2.2
  change Ends (Cloud.check (ambient (return)) w) _ _
  rw [check_eq hcancel]
  exact hw.next

end

end Flightdeck.Cloud
