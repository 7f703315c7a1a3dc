import Flightdeck.Display.Repair

/-!
# The override is always undone

What holds of the file, the journal and the backup at every point of every run in which the user's
saves leave the program's block as it is.
-/

namespace Flightdeck.Display

open Foundation
open Network (Json)

/-! ## The user's saves -/

/-- The block stays as it is, and no other one appears. -/
def Keeps (owned : Option String) (text text' : Bytes) : Prop :=
  ∀ token, owned = some token →
    (¬block token <:+: text → ¬block token <:+: text') ∧
      (OnePlace (block token) text → OnePlace (block token) text')

def Env.Keeps (env : Env) : Prop :=
  ∀ n owned text text', (env.moment n).edit owned text = some text' →
    Display.Keeps owned text text'

/-- Nobody saves the file. -/
def Env.Untouched (env : Env) : Prop := ∀ n owned text, (env.moment n).edit owned text = none

/-! ## The block -/

theorem newline_notMem_marker : (10 : UInt8) ∉ MARKER := by decide +kernel

theorem block_eq (token : String) : ∃ rest, block token = 10 :: (MARKER ++ rest) := by
  refine ⟨utf8 token ++ (utf8 ":begin\nhl.config(\x7b xwayland = \x7b enabled = false \x7d \x7d)\n" ++
    (MARKER ++ (utf8 token ++ utf8 ":end\n"))), ?_⟩
  simp only [block, List.append_assoc]
  rfl

theorem block_ne_nil (token : String) : block token ≠ [] := by
  obtain ⟨rest, hrest⟩ := block_eq token
  rw [hrest]
  exact List.cons_ne_nil _ _

/-- A text without the marker has no block, not even one that ends in the block after it. -/
theorem append_block {text : Bytes} (token : String) (h : ¬MARKER <:+: text) :
    OnePlace (block token) (text ++ block token) ∧
      takeOut (block token) (text ++ block token) = text := by
  obtain ⟨rest, hrest⟩ := block_eq token
  have hmarker : MARKER <:+: block token := ⟨[10], rest, hrest.symm⟩
  apply onePlace_append
  · exact fun hblock => h (hmarker.trans hblock)
  · intro before after heq
    have hlength := congrArg List.length heq
    rw [List.length_append, List.length_append, List.length_append] at hlength
    by_cases hle : text.length ≤ before.length
    · rw [List.append_assoc] at heq
      exact ((List.append_inj heq (by omega)).1).symm
    · exfalso
      by_cases hin : before.length + 1 + MARKER.length ≤ text.length
      · -- the marker would lie within the text
        have hwhole : before ++ [10] ++ MARKER <+: text ++ block token := by
          refine ⟨rest ++ after, ?_⟩
          rw [heq, hrest]
          simp
        have hprefix : before ++ [10] ++ MARKER <+: text := by
          apply List.prefix_of_prefix_length_le hwhole (List.prefix_append _ _)
          simp only [List.length_append, List.length_cons, List.length_nil]
          omega
        exact h ((List.suffix_append _ _).isInfix.trans hprefix.isInfix)
      · -- the newline of the block would lie within the marker
        have hleft : (text ++ block token)[text.length]? = some 10 := by
          rw [List.getElem?_append_right le_rfl, Nat.sub_self, hrest]
          rfl
        have hright : (text ++ block token)[text.length]? =
            MARKER[text.length - before.length - 1]? := by
          rw [heq, hrest, List.append_assoc, List.getElem?_append_right (by omega),
            List.cons_append, List.getElem?_cons, if_neg (by omega), List.append_assoc,
            List.getElem?_append_left (by omega)]
        rw [hright] at hleft
        exact newline_notMem_marker (List.mem_of_getElem? hleft)

/-! ## The invariant -/

/-- The override is under control: the user's part of the file is what the user wrote, and a block in
the file has a journal that is not completed. -/
structure Good (env : Env) (start : Bytes) (s : World) : Prop where
  user : withoutOwned s.owned s.config = s.user
  original : env.Untouched → s.user = start
  token : ∀ journal, s.journal = some journal → s.owned = some journal.token
  backup : s.journal = none → s.backup = none
  block : ∀ token, s.owned = some token → ¬block token <:+: s.config ∨
    (OnePlace (block token) s.config ∧
      ∃ journal, s.journal = some journal ∧ journal.phase ≠ .completed)

/-- The file has the user's text and nothing else. -/
def Free (s : World) : Prop := ∀ token, s.owned = some token → ¬block token <:+: s.config

section

variable {env : Env} {start : Bytes} {s : World} {α : Type}

theorem withoutOwned_of_free (h : Free s) : withoutOwned s.owned s.config = s.config := by
  cases howned : s.owned with
  | none => rfl
  | some token => exact takeOut_of_absent (h token howned)

theorem pass_owned : (s.pass env).owned = s.owned := by
  unfold World.pass
  split <;> rfl

theorem pass_journal : (s.pass env).journal = s.journal := by
  unfold World.pass
  split <;> rfl

theorem pass_backup : (s.pass env).backup = s.backup := by
  unfold World.pass
  split <;> rfl

theorem Good.pass (hkeeps : env.Keeps) (h : Good env start s) : Good env start (s.pass env) := by
  unfold World.pass
  cases hedit : (env.moment s.tick).edit s.owned s.config with
  | none => exact ⟨h.user, h.original, h.token, h.backup, h.block⟩
  | some text =>
    refine ⟨rfl, fun huntouched => ?_, h.token, h.backup, fun token howned => ?_⟩
    · rw [huntouched] at hedit
      cases hedit
    · obtain ⟨hfree, hplace⟩ := hkeeps _ _ _ _ hedit token howned
      rcases h.block token howned with hblock | ⟨hblock, hjournal⟩
      · exact .inl (hfree hblock)
      · exact .inr ⟨hplace hblock, hjournal⟩

theorem Free.pass (hkeeps : env.Keeps) (h : Free s) : Free (s.pass env) := by
  intro token howned
  rw [pass_owned] at howned
  have hfree := h token howned
  unfold World.pass
  cases hedit : (env.moment s.tick).edit s.owned s.config with
  | none => exact hfree
  | some text => exact (hkeeps _ _ _ _ hedit token howned).1 hfree

/-- With a completed journal, or with none, the file is the user's. -/
theorem Good.free (h : Good env start s)
    (hjournal : ∀ journal, s.journal = some journal → journal.phase = .completed) : Free s := by
  intro token howned
  rcases h.block token howned with hfree | ⟨-, journal, hsome, hphase⟩
  · exact hfree
  · exact absurd (hjournal journal hsome) hphase

theorem Good.config_eq (h : Good env start s) (hfree : Free s) : s.config = s.user := by
  rw [← h.user, withoutOwned_of_free hfree]

/-! ## Steps -/

/-- What holds while time passes, and what is left of it when the program stops. -/
structure Steady (env : Env) (P : World → Prop) (I : World → Prop) : Prop where
  pass : ∀ s, P s → P (s.pass env)
  stop : ∀ s, P s → I s

variable {P I : World → Prop} {Q : α → World → Prop}

theorem act_triple {step : Moment → Run α} (hP : Steady env P I)
    (hstep : ∀ n, Triple P (step (env.moment n)) Q fun _ => I) (hQ : ∀ a s, Q a s → I s) :
    Triple P (act env step) Q fun _ => I := by
  unfold act
  apply Triple.get_bind
  intro s hs
  apply Triple.bind (Triple.update fun t ht => ?_) fun _ => ?_
  · exact fun _ t => P t
  · rw [ht]
    exact hP.pass s hs
  · apply Triple.perform
    · exact fun _ => hstep _
    · exact fun _ t ht => ⟨hP.stop t ht, hP.stop t ht⟩
    · exact fun _ _ a t ht => ⟨hQ a t ht, hQ a t ht⟩

theorem check_triple {value : Bool} {kind : Failure} (hP : Steady env P I) :
    Triple P (liftM (check value kind) : Run Unit) (fun _ s => value = true ∧ P s) fun _ => I := by
  apply Triple.check
  · intro a s hs hok
    exact ⟨require_eq_ok.mp hok, hs⟩
  · exact fun _ s hs _ => hP.stop s hs

theorem lift_triple {x : Except Error α} (hP : Steady env P I) :
    Triple P (liftM x : Run α) (fun _ => P) fun _ => I :=
  Triple.check (fun _ _ hs _ => hs) fun _ s hs _ => hP.stop s hs

theorem observe_triple {read : Moment → Except Error α} (hP : Steady env P I) :
    Triple P (observe env read) (fun _ => P) fun _ => I :=
  act_triple hP (fun _ => lift_triple hP) fun _ s hs => hP.stop s hs

theorem query_triple {arguments : List String} (hP : Steady env P I) :
    Triple P (query env arguments) (fun _ => P) fun _ => I := by
  unfold query
  apply Triple.bind (observe_triple hP)
  intro bytes
  split
  · exact fun _ hs => hs
  · exact Triple.throw hP.stop

theorem checked {value : Bool} {kind : Failure} {rest : Unit → Run α} (hP : Steady env P I)
    (hrest : value = true → Triple P (rest ()) Q fun _ => I) :
    Triple P (liftM (check value kind) >>= rest) Q fun _ => I := by
  apply Triple.bind (check_triple hP)
  rintro _ s ⟨hvalue, hs⟩
  exact hrest hvalue s hs

theorem configClean_triple (hP : Steady env P I) :
    Triple P (configClean env) (fun _ => P) fun _ => I := by
  unfold configClean
  apply Triple.bind (observe_triple hP)
  exact fun _ => lift_triple hP

theorem reload_triple (hP : Steady env P I) : Triple P (reload env) (fun _ => P) fun _ => I := by
  unfold reload
  apply Triple.bind (observe_triple hP)
  intro bytes
  apply Triple.bind (lift_triple hP)
  exact fun _ => configClean_triple hP

theorem enabled_triple (hP : Steady env P I) : Triple P (enabled env) (fun _ => P) fun _ => I := by
  unfold enabled
  apply Triple.bind (query_triple hP)
  exact fun _ => lift_triple hP

theorem noX11Clients_triple (hP : Steady env P I) :
    Triple P (noX11Clients env) (fun _ => P) fun _ => I := by
  unfold noX11Clients
  apply Triple.bind (query_triple hP)
  intro clients
  split
  · exact Triple.throw hP.stop
  · apply Triple.bind (lift_triple hP)
    intro _
    apply Triple.bind (observe_triple hP)
    exact fun _ => lift_triple hP

theorem currentCompositor_triple {desktop : Desktop} (hP : Steady env P I) :
    Triple P (currentCompositor env desktop) (fun _ => P) fun _ => I := by
  have hdesktop : Triple P (validateDesktop env desktop) (fun _ => P) fun _ => I := by
    unfold validateDesktop
    apply Triple.bind (lift_triple hP)
    intro _
    apply Triple.bind (observe_triple hP)
    exact fun _ => lift_triple hP
  unfold currentCompositor
  apply Triple.bind hdesktop
  intro _
  apply Triple.bind (observe_triple hP)
  intro _
  apply Triple.bind (lift_triple hP)
  intro _
  apply Triple.bind (query_triple hP)
  intro _
  apply Triple.bind (lift_triple hP)
  intro _
  apply Triple.bind (query_triple hP)
  intro _
  apply Triple.bind (lift_triple hP)
  intro _
  apply Triple.bind (observe_triple hP)
  intro _
  apply Triple.bind (lift_triple hP)
  exact fun _ _ hs => hs

theorem notCancelled_triple (hP : Steady env P I) :
    Triple P (notCancelled env) (fun _ => P) fun _ => I := by
  unfold notCancelled
  apply Triple.bind (observe_triple hP)
  exact fun _ => lift_triple hP

theorem orFail_triple {kind : Failure} {m : Run α} (hm : Triple P m Q fun _ => I) :
    Triple P (orFail kind m) Q fun stop s =>
      I s ∧ (stop = .crash ∨ stop = .error (failure kind)) := by
  intro s hs
  have h := hm s hs
  unfold orFail
  cases hms : m s with
  | ok a s' =>
    rw [hms] at h
    exact h
  | error stop s' =>
    rw [hms] at h
    cases stop with
    | error e => exact ⟨h, .inr rfl⟩
    | crash => exact ⟨h, .inl rfl⟩

/-! ## Reading and replacing the file -/

theorem readCurrent_bytes {found : Except Error Found} {bytes : Bytes} {config : Config}
    (h : readCurrent found bytes = .ok config) : config.bytes = bytes := by
  unfold readCurrent at h
  cases found with
  | error e => cases h
  | ok found =>
    change (check _ _ >>= fun _ => _) = _ at h
    cases hcheck : check (bytes.length ≤ MAX_CONFIG && isUtf8 bytes &&
        !bytes.contains 0) .unsafeConfig with
    | error e =>
      rw [hcheck] at h
      cases h
    | ok _ =>
      rw [hcheck] at h
      cases h
      rfl

theorem current_bytes {config : Config} {found : Except Error Found} {bytes : Bytes} {u : Unit}
    (h : config.current found bytes = .ok u) : bytes = config.bytes := by
  unfold Config.current at h
  cases hread : readCurrent found bytes with
  | error e =>
    rw [hread] at h
    cases h
  | ok now =>
    rw [hread] at h
    have hcheck := require_eq_ok.mp h
    rw [Bool.and_eq_true, beq_iff_eq, beq_iff_eq] at hcheck
    rw [← readCurrent_bytes hread, hcheck.2]

/-- The file as it is read; what is known of it holds of the file at that moment. -/
theorem openConfig_triple {R : Config → World → Prop} (hP : Steady env P I)
    (hR : ∀ config s, P s → config.bytes = s.config → R config s)
    (hstop : ∀ config s, R config s → I s) : Triple P (openConfig env) R fun _ => I := by
  unfold openConfig
  apply act_triple hP
  · intro now
    apply Triple.get_bind
    intro s hs
    apply Triple.check
    · rintro config t rfl hok
      exact hR config _ hs (readCurrent_bytes hok)
    · rintro e t rfl -
      exact hP.stop _ hs
  · exact hstop

/-- Where the replacement takes place, the file is the one that was read. -/
theorem replace_triple {R : World → Prop} {config : Config} {bytes : Bytes} (hP : Steady env P I)
    (hR : ∀ s, P s → s.config = config.bytes → R { s with config := bytes })
    (hstop : ∀ s, R s → I s) : Triple P (replace env config bytes) (fun _ => R) fun _ => I := by
  have hcheck : ∀ (now : Moment) (s : World), P s →
      Triple (fun t => t = s) (liftM (config.current now.found s.config) : Run Unit)
        (fun _ t => t = s ∧ s.config = config.bytes) fun _ => I := by
    intro now s hs
    apply Triple.check
    · rintro u t rfl hok
      exact ⟨rfl, current_bytes hok⟩
    · rintro e t rfl -
      exact hP.stop _ hs
  unfold replace
  apply Triple.bind (Q := fun _ => P)
  · apply act_triple hP
    · intro n
      apply Triple.get_bind
      intro s hs
      apply (hcheck (env.moment n) s hs).post
      rintro _ t ⟨rfl, -⟩
      exact hs
    · exact fun _ => hP.stop
  · intro _
    apply Triple.bind (Q := fun _ => P)
    · exact act_triple hP (fun _ _ hs => hs) fun _ => hP.stop
    · intro _
      apply act_triple hP
      · intro n
        apply Triple.get_bind
        intro s hs
        apply Triple.bind (hcheck (env.moment n) s hs)
        intro _
        apply Triple.update
        rintro t ⟨rfl, hsame⟩
        exact hR t hs hsame
      · exact fun _ => hstop

end

/-! ## The override -/

section

variable {env : Env} {start : Bytes} {token : String}

/-- The program knows its token. -/
def Owns (env : Env) (start : Bytes) (token : String) (s : World) : Prop :=
  Good env start s ∧ s.owned = some token

/-- The block may be written: its journal is there. -/
def Guarded (env : Env) (start : Bytes) (token : String) (s : World) : Prop :=
  Owns env start token s ∧ ∃ journal, s.journal = some journal ∧ journal.phase ≠ .completed

def Cleared (env : Env) (start : Bytes) (token : String) (s : World) : Prop :=
  Owns env start token s ∧ ¬block token <:+: s.config

/-- Nothing of the override is left. -/
def Undone (env : Env) (start : Bytes) (s : World) : Prop := Good env start s ∧ s.journal = none

variable (hkeeps : env.Keeps)

include hkeeps

theorem good_steady : Steady env (Good env start) (Good env start) where
  pass _ h := h.pass hkeeps
  stop _ h := h

theorem journal_steady (journal : Option Journal) :
    Steady env (fun s => Good env start s ∧ s.journal = journal) (Good env start) where
  pass _ h := ⟨h.1.pass hkeeps, pass_journal.trans h.2⟩
  stop _ h := h.1

theorem owns_steady : Steady env (Owns env start token) (Good env start) where
  pass _ h := ⟨h.1.pass hkeeps, pass_owned.trans h.2⟩
  stop _ h := h.1

theorem guarded_steady : Steady env (Guarded env start token) (Good env start) where
  pass s h := by
    refine ⟨(owns_steady hkeeps).pass s h.1, ?_⟩
    rw [pass_journal]
    exact h.2
  stop _ h := h.1.1

theorem cleared_steady : Steady env (Cleared env start token) (Good env start) where
  pass s h := by
    have howns := (owns_steady hkeeps).pass s h.1
    have hfree : Free s := by
      intro token' howned
      rw [h.1.2, Option.some.injEq] at howned
      subst howned
      exact h.2
    exact ⟨howns, hfree.pass hkeeps token howns.2⟩
  stop _ h := h.1.1

/-- A journal that is not completed may stand for any file. -/
theorem save_triple (journal : Journal) (hphase : journal.phase ≠ .completed) :
    Triple (Owns env start journal.token) (save env journal)
      (fun _ => Guarded env start journal.token) fun _ => Good env start := by
  unfold save
  apply act_triple (owns_steady hkeeps)
  · intro now
    apply Triple.update
    rintro s ⟨h, howned⟩
    refine ⟨⟨⟨h.user, h.original, ?_, nofun, fun token' howned' => ?_⟩, howned⟩,
      journal, rfl, hphase⟩
    · rintro journal' hjournal
      cases hjournal
      exact howned
    · rcases h.block token' howned' with hfree | ⟨hplace, -⟩
      · exact .inl hfree
      · exact .inr ⟨hplace, journal, rfl, hphase⟩
  · exact fun _ s h => h.1.1

theorem clear_triple : Triple (Cleared env start token) (clear env)
    (fun _ => Undone env start) fun _ => Good env start := by
  have hbackup : Steady env (fun s => Cleared env start token s ∧ s.backup = none)
      (Good env start) :=
    { pass := fun s h => ⟨(cleared_steady hkeeps).pass s h.1, pass_backup.trans h.2⟩
      stop := fun s h => h.1.1.1 }
  unfold clear
  apply Triple.bind (Q := fun _ s => Cleared env start token s ∧ s.backup = none)
  · apply act_triple (cleared_steady hkeeps)
    · intro now
      apply Triple.update
      rintro s ⟨⟨h, howned⟩, hfree⟩
      exact ⟨⟨⟨⟨h.user, h.original, h.token, fun _ => rfl, h.block⟩, howned⟩, hfree⟩, rfl⟩
    · exact fun _ => hbackup.stop
  · intro _
    apply act_triple hbackup
    · intro now
      apply Triple.update
      rintro s ⟨⟨⟨h, howned⟩, hfree⟩, hnone⟩
      refine ⟨⟨h.user, h.original, nofun, fun _ => hnone, fun token' howned' => .inl ?_⟩, rfl⟩
      rw [howned, Option.some.injEq] at howned'
      rw [← howned']
      exact hfree
    · exact fun _ s h => h.1

theorem complete_triple {journal : Journal} {result : Bool} :
    Triple (Cleared env start journal.token) (complete env journal result)
      (fun _ => Undone env start) fun _ => Good env start := by
  unfold complete save
  apply Triple.bind (Q := fun _ => Cleared env start journal.token)
  · apply act_triple (cleared_steady hkeeps)
    · intro now
      apply Triple.update
      rintro s ⟨⟨h, howned⟩, hfree⟩
      refine ⟨⟨⟨h.user, h.original, ?_, nofun, fun token' howned' => .inl ?_⟩, howned⟩, hfree⟩
      · rintro journal' hjournal
        cases hjournal
        exact howned
      · change s.owned = some token' at howned'
        rw [howned, Option.some.injEq] at howned'
        rw [← howned']
        exact hfree
    · exact fun _ s h => h.1.1
  · intro _
    apply Triple.bind (clear_triple hkeeps)
    exact fun _ _ h => h

/-- With its block taken out, the file is the user's text. -/
theorem removeBlock_triple {journal : Journal} {config : Config}
    (hplaces : places (block journal.token) config.bytes ≤ 1) :
    Triple (fun s => Owns env start journal.token s ∧
        (¬block journal.token <:+: config.bytes → Cleared env start journal.token s))
      (removeBlock env journal config)
      (fun _ => Cleared env start journal.token) fun _ => Good env start := by
  unfold removeBlock
  apply Triple.ite
  · intro hone
    have hin : block journal.token <:+: config.bytes := by
      by_contra hfree
      rw [← places_eq_zero (block_ne_nil _), hone] at hfree
      cases hfree
    have hsave : Triple (Owns env start journal.token)
        (save env { journal with phase := .restoring })
        (fun _ => Guarded env start journal.token) fun _ => Good env start :=
      save_triple hkeeps { journal with phase := .restoring } nofun
    apply Triple.bind (hsave.pre fun s h => h.1)
    · intro _
      apply replace_triple (guarded_steady hkeeps)
      · rintro s ⟨⟨h, howned⟩, hguarded⟩ hsame
        rcases h.block _ howned with hfree | ⟨hplace, -⟩
        · exact absurd (hsame ▸ hin) hfree
        · have huser := h.user
          rw [howned] at huser
          have hfree : ¬block journal.token <:+: takeOut (block journal.token) config.bytes := by
            rw [← hsame]
            exact hplace.takeOut_free
          refine ⟨⟨⟨?_, h.original, h.token, h.backup, fun token' howned' => .inl ?_⟩, howned⟩,
            hfree⟩
          · change withoutOwned s.owned (takeOut (block journal.token) config.bytes) = s.user
            rw [howned, ← huser, hsame]
            exact takeOut_of_absent hfree
          · change s.owned = some token' at howned'
            rw [howned, Option.some.injEq] at howned'
            rw [← howned']
            exact hfree
      · exact fun s h => h.1.1
  · intro hnot s h
    apply h.2
    rw [← places_eq_zero (block_ne_nil _)]
    omega

/-! ## Restoring -/

variable [Sha256]

theorem undo_triple {journal : Journal} {desktop : Desktop} {config : Config}
    (hplaces : places (block journal.token) config.bytes ≤ 1) :
    Triple (fun s => Owns env start journal.token s ∧
        (¬block journal.token <:+: config.bytes → Cleared env start journal.token s))
      (undo env journal desktop config) (fun _ => Undone env start) fun _ => Good env start := by
  have hsteady : Steady env (fun s => Owns env start journal.token s ∧
      (¬block journal.token <:+: config.bytes → Cleared env start journal.token s))
      (Good env start) :=
    { pass := fun s h => ⟨(owns_steady hkeeps).pass s h.1,
        fun hfree => (cleared_steady hkeeps).pass s (h.2 hfree)⟩
      stop := fun s h => h.1.1 }
  unfold undo
  apply Triple.bind (Q := fun _ s => Owns env start journal.token s ∧
    (¬block journal.token <:+: config.bytes → Cleared env start journal.token s))
  · apply act_triple hsteady
    · intro now
      apply Triple.get_bind
      intro s hs
      split
      · apply Triple.ite
        · rintro - t rfl
          exact hs
        · rintro -
          exact Triple.throw fun t ht => ht ▸ hs.1.1
      · exact Triple.throw fun t ht => ht ▸ hs.1.1
    · exact fun _ s h => h.1.1
  · intro backup
    apply checked hsteady
    rintro -
    apply checked hsteady
    rintro -
    apply Triple.bind (removeBlock_triple hkeeps hplaces)
    intro _
    apply Triple.bind (currentCompositor_triple (cleared_steady hkeeps))
    intro _
    apply Triple.bind (reload_triple (cleared_steady hkeeps))
    exact fun _ => complete_triple hkeeps

theorem restoreConfig_triple {journal : Journal} {desktop : Desktop} :
    Triple (Owns env start journal.token) (restoreConfig env journal desktop)
      (fun _ => Undone env start) fun _ => Good env start := by
  unfold restoreConfig
  apply Triple.bind (Q := fun config s => Owns env start journal.token s ∧
    (¬block journal.token <:+: config.bytes → Cleared env start journal.token s))
  · apply openConfig_triple (owns_steady hkeeps)
    · intro config s h hbytes
      exact ⟨h, fun hfree => ⟨h, hbytes ▸ hfree⟩⟩
    · exact fun _ s h => h.1.1
  · intro config
    apply Triple.bind (Q := fun _ s => places (block journal.token) config.bytes ≤ 1 ∧
      Owns env start journal.token s ∧
      (¬block journal.token <:+: config.bytes → Cleared env start journal.token s))
    · apply Triple.check
      · exact fun _ s h hok => ⟨of_decide_eq_true (require_eq_ok.mp hok), h⟩
      · exact fun _ s h _ => h.1.1
    · intro _
      rintro s ⟨hplaces, h⟩
      revert s
      apply Triple.ite
      · rintro ⟨hzero, -, -⟩ s h
        rw [places_eq_zero (block_ne_nil _)] at hzero
        exact complete_triple hkeeps s (h.2 hzero)
      · exact fun _ => undo_triple hkeeps hplaces

theorem restore_triple :
    Triple (Good env start) (restore env) (fun _ => Undone env start) fun _ => Good env start := by
  unfold restore
  apply Triple.get_bind
  intro s hs
  split
  · rename_i hnone
    rintro t rfl
    exact ⟨hs, hnone⟩
  · rename_i journal hjournal
    have hjournal' : Triple (fun s => Good env start s ∧ s.journal = some journal)
        (restoreJournal env journal) (fun _ => Undone env start) fun _ => Good env start := by
      unfold restoreJournal
      apply checked (journal_steady hkeeps _)
      rintro -
      apply Triple.bind (observe_triple (journal_steady hkeeps _))
      intro desktop
      apply checked (journal_steady hkeeps _)
      rintro -
      apply Triple.ite
      · intro hcompleted
        apply Triple.bind ((clear_triple hkeeps).pre ?_)
        · exact fun _ _ h => h
        · exact journal.token
        · rintro t ⟨h, hsome⟩
          have hfree : Free t := h.free fun other hother => by
            rw [hsome] at hother
            cases hother
            exact hcompleted
          exact ⟨⟨h, h.token _ hsome⟩, hfree _ (h.token _ hsome)⟩
      · rintro -
        exact (restoreConfig_triple hkeeps).pre fun t h => ⟨h.1, h.1.token _ h.2⟩
    apply ((orFail_triple hjournal').pre ?_).mono (fun _ h => h) (fun _ _ h => h) fun _ _ h => h.1
    rintro t rfl
    exact ⟨hs, hjournal⟩

/-! ## Repairing -/

omit [Sha256] in
theorem inspect_triple {display : Nat} :
    Triple (Good env start) (inspect env display)
      (fun found s => ¬MARKER <:+: found.2.bytes ∧ Good env start s) fun _ => Good env start := by
  have hsteady : Steady env (Good env start) (Good env start) := good_steady hkeeps
  have hfail : ∀ {α : Type} {kind : Failure} {m : Run α},
      Triple (Good env start) m (fun _ => Good env start) (fun _ => Good env start) →
      Triple (Good env start) (orFail kind m) (fun _ => Good env start) fun _ => Good env start :=
    fun hm => (orFail_triple hm).mono (fun _ h => h) (fun _ _ h => h) fun _ _ h => h.1
  unfold inspect
  apply Triple.bind (hfail (observe_triple hsteady))
  intro desktop
  apply Triple.bind (hfail (currentCompositor_triple hsteady))
  intro compositor
  apply checked hsteady
  rintro -
  apply Triple.bind (configClean_triple hsteady)
  intro _
  apply Triple.bind (noX11Clients_triple hsteady)
  intro _
  apply Triple.bind (enabled_triple hsteady)
  intro on
  apply checked hsteady
  rintro -
  apply Triple.bind (hfail (openConfig_triple hsteady (fun _ _ h _ => h) fun _ _ h => h))
  intro config
  apply checked hsteady
  intro haccepted
  rw [Bool.and_eq_true, Bool.not_eq_true', ← Bool.not_eq_true, occurs_iff] at haccepted
  apply Triple.bind (notCancelled_triple hsteady)
  exact fun _ _ h => ⟨haccepted.2, h⟩

theorem prepare_triple {desktop : Desktop} {config : Config} :
    Triple (Good env start) (prepare env desktop config)
      (fun journal => Guarded env start journal.token) fun _ => Good env start := by
  unfold prepare
  apply Triple.get_bind
  intro s hs
  apply Triple.bind (Q := fun _ t => Good env start t ∧ t.journal = none)
  · apply Triple.check
    · rintro _ t rfl hok
      have hnone := require_eq_ok.mp hok
      rw [Bool.and_eq_true, Option.isNone_iff_eq_none] at hnone
      exact ⟨hs, hnone.1⟩
    · rintro _ t rfl -
      exact hs
  · intro _
    apply Triple.bind (Q := fun journal => Guarded env start journal.token)
    · apply act_triple (journal_steady hkeeps none)
      · intro n
        apply Triple.get_bind
        rintro t ⟨h, hnone⟩
        have hfresh := env.fresh n t.config
        have hconfig := h.config_eq (h.free fun journal hjournal => by
          rw [hnone] at hjournal
          cases hjournal)
        generalize hnew : newJournal (env.moment n) t.config desktop config = journal
        have htoken : journal.token = (env.moment n).token t.config := by
          rw [← hnew]
          rfl
        have hphase : journal.phase ≠ .completed := by
          rw [← hnew]
          nofun
        rw [← htoken] at hfresh
        apply Triple.bind (Q := fun _ => Guarded env start journal.token)
        · apply Triple.update
          rintro u rfl
          refine ⟨⟨⟨?_, h.original, ?_, nofun, fun token' howned' => .inl ?_⟩, rfl⟩,
            journal, rfl, hphase⟩
          · exact (takeOut_of_absent hfresh).trans hconfig
          · rintro journal' hjournal
            cases hjournal
            rfl
          · cases howned'
            exact hfresh
        · exact fun _ _ h => h
      · exact fun _ s h => h.1.1
    · intro journal
      apply Triple.bind (Q := fun _ => Guarded env start journal.token)
      · apply act_triple (guarded_steady hkeeps)
        · intro now
          apply Triple.update
          rintro t ⟨⟨h, howned⟩, hjournal, hsome, hphase⟩
          refine ⟨⟨⟨h.user, h.original, h.token, fun hnone => ?_, h.block⟩, howned⟩, hjournal, hsome,
            hphase⟩
          change t.journal = none at hnone
          rw [hsome] at hnone
          cases hnone
        · exact fun _ s h => h.1.1
      · exact fun _ _ h => h

omit [Sha256] in
theorem install_triple {display : Nat} {desktop : Desktop} {config : Config} {journal : Journal}
    (haccepted : ¬MARKER <:+: config.bytes) :
    Triple (Guarded env start journal.token) (install env display desktop config journal)
      (fun _ => Good env start) fun _ => Good env start := by
  have hsteady : Steady env (Guarded env start journal.token) (Good env start) :=
    guarded_steady hkeeps
  obtain ⟨hplace, htakeOut⟩ := append_block journal.token haccepted
  unfold install
  apply Triple.bind (noX11Clients_triple hsteady)
  intro _
  apply Triple.bind (currentCompositor_triple hsteady)
  intro compositor
  apply checked hsteady
  rintro -
  apply Triple.bind (notCancelled_triple hsteady)
  intro _
  apply Triple.bind (Q := fun _ => Guarded env start journal.token)
  · apply replace_triple hsteady
    · rintro s ⟨⟨h, howned⟩, hjournal⟩ hsame
      have huser := h.user
      have hfree : ¬block journal.token <:+: s.config := by
        rw [hsame]
        obtain ⟨rest, hrest⟩ := block_eq journal.token
        exact fun hin => haccepted (List.IsInfix.trans ⟨[10], rest, hrest.symm⟩ hin)
      rw [howned] at huser
      refine ⟨⟨⟨?_, h.original, h.token, h.backup, fun token' howned' => .inr ⟨?_, hjournal⟩⟩,
        howned⟩, hjournal⟩
      · change withoutOwned s.owned (config.bytes ++ block journal.token) = s.user
        rw [howned, ← huser]
        change takeOut _ _ = takeOut _ _
        rw [htakeOut, takeOut_of_absent hfree, hsame]
      · change s.owned = some token' at howned'
        rw [howned, Option.some.injEq] at howned'
        rw [← howned']
        exact hplace
    · exact fun s h => h.1.1
  · intro _
    apply Triple.bind
    · exact (save_triple hkeeps { journal with phase := .installed } nofun).pre fun s h => h.1
    · intro _
      apply Triple.bind (reload_triple hsteady)
      intro _
      apply Triple.bind (enabled_triple hsteady)
      intro on
      exact (lift_triple hsteady).post fun _ s h => h.1.1

theorem repair_triple {display : Nat} :
    Triple (Good env start) (repair env display) (fun _ => Good env start)
      fun _ => Good env start := by
  unfold repair
  apply Triple.bind (inspect_triple hkeeps)
  rintro ⟨desktop, config⟩ s ⟨haccepted, hs⟩
  revert s
  apply Triple.bind (prepare_triple hkeeps)
  intro journal
  apply Triple.bind (Q := fun _ => Good env start)
  · apply Triple.outcome
    apply (install_triple hkeeps haccepted).mono (fun _ h => h) (fun _ _ h => h)
    intro stop s h
    cases stop
    · exact h
    · exact h
  · intro operation
    apply Triple.bind (restore_triple hkeeps)
    intro _
    apply Triple.bind (Q := fun _ => Good env start)
    · exact (lift_triple (good_steady hkeeps)).pre fun s h => h.1
    · exact fun _ => notCancelled_triple (good_steady hkeeps)

end

/-! ## A block that the user edited -/

/-- Only time has passed since a world, with whatever the user saved meanwhile. -/
def Passed (env : Env) (from' s : World) : Prop := ∃ n, s = (World.pass env)^[n] from'

section

variable {env : Env} {first : World} {journal : Journal}

variable [Sha256]

end

/-! ## Runs -/

/-- The file before the first repair. -/
def World.initial (config : Bytes) : World where
  config := config
  journal := none
  backup := none
  owned := none
  user := config
  tick := 0

/-- What a sequence of calls leads to, each of which may stop anywhere. -/
inductive Reached [Sha256] (env : Env) (start : Bytes) : World → Prop where
  | initial : Reached env start (.initial start)
  | pass {s : World} (h : Reached env start s) : Reached env start (s.pass env)
  | restore {s : World} (h : Reached env start s) :
      Reached env start (stateOf (Display.restore env s))
  | repair {s : World} (display : Nat) (h : Reached env start s) :
      Reached env start (stateOf (Display.repair env display s))

theorem Reached.good [Sha256] {env : Env} {start : Bytes} {s : World} (hkeeps : env.Keeps)
    (h : Reached env start s) : Good env start s := by
  induction h with
  | initial => exact ⟨rfl, fun _ => rfl, nofun, fun _ => rfl, nofun⟩
  | pass _ ih => exact ih.pass hkeeps
  | restore _ ih =>
    exact ((restore_triple hkeeps _ ih).mono (fun _ _ h => h.1) fun _ _ h => h).stateOf
  | repair display _ ih => exact (repair_triple hkeeps _ ih).stateOf

/-- `hyprland.lua` of Omarchy. -/
def omarchyLua : Bytes :=
  utf8 "dofile(\"/usr/share/omarchy/default/hypr/bootstrap.lua\")\nrequire(\"default.hypr.omarchy\")\n"

def firstToken : String := "0123456789abcdef0123456789abcdef"

/-- A token whose block is not in the text: the usual one, or one that is too long. -/
def drawToken (text : Bytes) : String :=
  if occurs (block firstToken) text then String.ofList (List.replicate text.length '0')
  else firstToken

theorem drawToken_fresh (text : Bytes) : ¬block (drawToken text) <:+: text := by
  unfold drawToken
  split
  · intro hin
    have hle := hin.length_le
    have hzeros : (utf8 (String.ofList (List.replicate text.length '0'))).length = text.length := by
      rw [utf8_ofList]
      simp [String.utf8EncodeChar]
    obtain ⟨rest, hrest⟩ := block_eq (String.ofList (List.replicate text.length '0'))
    simp only [block, List.length_append, hzeros] at hle
    have hnewline : (utf8 "\n").length = 1 := by decide
    omega
  · rename_i hnot
    rw [← occurs_iff]
    exact hnot

/-- The replies of the compositor, as it prints them and as they are read. -/
def replies : List (List String × Bytes × Json) :=
  [(["-j", "version"],
      utf8 "\x7b\"version\":\"0.56.2\",\"commit\":\"efb50993780079460b0cbed1363e2166a2de1d9f\",\"dirty\":false\x7d",
      .object [("commit", .string COMMIT), ("dirty", .boolean false), ("version", .string VERSION)]),
    (["-j", "instances"], utf8 "[\x7b\"instance\":\"s\",\"pid\":7\x7d]",
      .array [.object [("instance", .string (utf8 "s")), ("pid", .unsigned 7)]]),
    (["-j", "clients"], utf8 "[]", .array []),
    (["-j", "getoption", "xwayland:enabled"], utf8 "\x7b\"int\":1\x7d",
      .object [("int", .unsigned 1)])]

/-- A moment in which all goes well. -/
def calm : Moment where
  edit _ _ := none
  fault := .none
  found := .ok ⟨(1, 2), ⟨1, 3, 0o600, 0, 0, 0, 0, 0⟩⟩
  runtimeOwner := .ok 1000
  desktop := .ok ⟨.new (utf8 "/home/a"), .new (utf8 "/home/a/.config"), .new (utf8 "/run/user/1000"),
    utf8 "s"⟩
  trustedHyprctl := true
  hyprctl arguments :=
    match replies.lookup arguments with
    | some (text, _) => .ok text
    | none => .ok (if arguments = ["reload", "config-only"] then utf8 "ok\n" else [])
  compositor _ := .ok ⟨1000, true, [utf8 "Hyprland"], [("HOME", utf8 "/home/a")], [0]⟩
  xwaylandPresent := .ok false
  cancelled := false
  token := drawToken

/-- The program stops once it has noted the installation, and afterwards the user may save. -/
def stopped (saved : Option Bytes) : Env where
  moment n :=
    if n = 25 then { calm with fault := .stops true }
    else if n = 26 then { calm with edit := fun _ _ => saved }
    else calm
  uid := 1000
  fromSlice text := (replies.map Prod.snd).lookup text
  fresh n text := by
    have htoken : ∀ n, ((if n = 25 then { calm with fault := .stops true }
        else if n = 26 then { calm with edit := fun _ _ => saved } else calm : Moment)).token =
        drawToken := by
      intro n
      split
      · rfl
      · split <;> rfl
    rw [htoken]
    exact drawToken_fresh text

/-- The world that the repair leaves. -/
def installed (saved : Option Bytes) : World :=
  stateOf (@repair (stopped saved) standardSha256 0 (.initial omarchyLua))

def restored (saved : Option Bytes) : Option World :=
  match @restore (stopped saved) standardSha256 (installed saved) with
  | .ok true s => some s
  | _ => none

/-- The lines of the block without its marks. -/
def unmarked : Bytes := omarchyLua ++ utf8 "\nhl.config({ xwayland = { enabled = false } })\n"

end Flightdeck.Display
