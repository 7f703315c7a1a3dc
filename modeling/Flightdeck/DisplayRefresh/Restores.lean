import Flightdeck.DisplayRefresh.Worker

/-!
# The preference is restored

What each part of the worker does to the preference and its journal, up to any number of workers of
which each may stop anywhere.
-/

namespace Flightdeck.DisplayRefresh

open Foundation

variable {Id : Type} {original : Bool} {journal : Option Bool} {done : List (Id × World)}

/-- The original value is known, and these refreshes succeeded. -/
def Safe (original : Bool) (done : List (Id × World)) (r : Run Id) : Prop :=
  r.Good original ∧ r.refreshed = done

/-- Moreover, the journal is this. -/
def At (original : Bool) (journal : Option Bool) (done : List (Id × World)) (r : Run Id) : Prop :=
  Safe original done r ∧ r.world.journal = journal

theorem At.step {r : Run Id} (now : At original journal done r) {w : World}
    (step : Step r.world w) : Safe original done (r.next w) :=
  ⟨now.1.1.next step, now.1.2⟩

theorem Safe.at {r : Run Id} (safe : Safe original done r) :
    At original none done r ∨ At original (some original) done r := by
  cases known : r.world.journal with
  | none => exact .inl ⟨safe, known⟩
  | some b =>
    rw [safe.1.world.journal b known] at known
    exact .inr ⟨safe, known⟩

/-! ## The requests -/

theorem query_spec {answer : Answer} (honest : answer.honest = true) :
    Triple (At original journal done) (query answer : Act Id _)
      (fun told r => At original journal done r ∧ r.world.back = told.1 ∧
        ∀ b, told.1 = some b → b = r.world.home)
      (fun _ => Safe original done) := by
  cases answer with
  | stopped => exact .throw fun r now => now.1
  | refused => exact .throw fun r now => now.1
  | told home ready =>
    apply Triple.get_bind
    intro r now
    have truth : ∀ b, home.home r.world.home = some b → b = r.world.home := by
      intro b same
      cases home with
      | current => exact (Option.some.inj same).symm
      | other => contradiction
      | nothing => contradiction
    have step : Step r.world { r.world with back := home.home r.world.home } := .read _ _ truth
    intro t same
    subst same
    exact ⟨⟨now.step step, now.2⟩, rfl, truth⟩

theorem onlyIf_spec {condition : Bool} {act : Act Id Unit} {P : Run Id → Prop}
    {E : Stop Unit → Run Id → Prop} (spec : Triple P act (fun _ => P) E) :
    Triple P (onlyIf condition act) (fun _ => P) E := by
  apply Triple.ite
  · exact fun _ => spec
  · exact fun _ r now => now

theorem setHome_spec (value saved : Bool) (write : Write) :
    Triple (At original (some saved) done) (setHome value write : Act Id Unit)
      (fun _ => At original (some saved) done) (fun _ => Safe original done) := by
  have written : Triple (At original (some saved) done)
      (change (fun w => { w with home := value, back := none }) : Act Id Unit)
      (fun _ => At original (some saved) done) (fun _ => Safe original done) := by
    apply Triple.update
    intro r now
    exact ⟨now.step (.write r.world saved value now.2), now.2⟩
  refine (onlyIf_spec written).bind fun _ => ?_
  cases write.reply with
  | accepted => exact fun r now => now
  | refused => exact .throw fun r now => now.1
  | stopped => exact .throw fun r now => now.1

/-- A place where only an error or a crash may come from. -/
theorem perform_pure {fault : Fault} {P : Run Id → Prop} :
    Triple P (perform fault () (pure ()) : Act Id Unit) (fun _ => P) (fun _ => P) := by
  apply Triple.perform
  · exact fun _ r now => now
  · exact fun _ r now => ⟨now, now⟩
  · exact fun _ _ _ r now => ⟨now, now⟩

/-! ## `recover` -/

/-- The value of the journal was read back, and there is no journal. -/
theorem recover_spec {env : Recovery} (honest : env.answer.honest = true) :
    Triple (At original journal done) (recover env : Act Id Unit)
      (fun _ r => At original none done r ∧
        (journal = some original → r.world.back = some original))
      (fun _ => Safe original done) := by
  apply Triple.get_bind
  intro r now
  cases known : r.world.journal with
  | none =>
    intro t same
    subst same
    refine ⟨⟨now.1, known⟩, ?_⟩
    intro other
    rw [← now.2, known] at other
    contradiction
  | some value =>
    have same := now.1.1.world.journal value known
    subst same
    dsimp only
    apply Triple.ite
    · intro _
      have start : Triple (fun t => t = r) (setHome value env.write : Act Id Unit)
          (fun _ => At value (some value) done) (fun _ => Safe value done) :=
        (setHome_spec value value env.write).pre fun t same => by
          subst same
          exact ⟨now.1, known⟩
      refine start.bind fun _ => (query_spec honest).bind fun answer => ?_
      apply Triple.ite
      · intro told
        have removed : Triple
            (fun t => At value (some value) done t ∧ t.world.back = answer.1 ∧
              ∀ b, answer.1 = some b → b = t.world.home)
            (perform env.removed () (change fun w => { w with journal := none }) : Act Id Unit)
            (fun _ t => At value none done t ∧ t.world.back = some value)
            (fun _ => Safe value done) := by
          apply Triple.perform
          · intro _
            apply Triple.update
            intro t now
            have back := now.2.1.trans told
            exact ⟨⟨now.1.step (.remove t.world value now.1.2 back), rfl⟩, back⟩
          · exact fun _ t now => ⟨now.1.1, now.1.1⟩
          · exact fun _ _ _ t now => ⟨now.1.1, now.1.1⟩
        refine removed.bind fun _ => perform_pure.mono (fun t now => now) ?_ ?_
        · exact fun _ t now => ⟨now.1, fun _ => now.2⟩
        · exact fun _ t now => now.1.1
      · intro _
        exact .throw fun t now => now.1.1
    · intro _
      apply Triple.throw
      intro t same
      subst same
      exact now.1

theorem recover_safe {env : Recovery} (honest : env.answer.honest = true) :
    Triple (Safe original done) (recover env : Act Id Unit)
      (fun _ => At original none done) (fun _ => Safe original done) := by
  intro r safe
  rcases safe.at with now | now
  · exact (recover_spec honest r now).mono (fun _ _ after => after.1) fun _ _ after => after
  · exact (recover_spec honest r now).mono (fun _ _ after => after.1) fun _ _ after => after

/-! ## `refresh` -/

theorem show_spec (env : Attempt) (value : Bool) :
    Triple (At original (some original) done) (show' env value : Act Id Unit)
      (fun _ => At original (some original) done) (fun _ => Safe original done) := by
  refine (setHome_spec _ _ _).bind fun _ => ?_
  exact (onlyIf_spec (setHome_spec _ _ _)).bind fun _ =>
    perform_pure.mono (fun r now => now) (fun _ r now => now) fun _ r now => now.1

/-- The world that a refresh leaves that succeeds. -/
def restored (original : Bool) : World := ⟨original, none, some original⟩

theorem At.restored {r : Run Id} (now : At original none done r)
    (back : r.world.back = some original) : r.world = restored original := by
  have home := now.1.1.world.home now.2
  have journal := now.2
  generalize r.world = w at home journal back
  cases w
  simp_all [DisplayRefresh.restored]

/-- Where the display was shown without an error, the journal is still there. -/
theorem outcome_show (env : Attempt) (value : Bool) :
    Triple (At original (some original) done) (outcome (show' env value) : Act Id _)
      (fun result r => Safe original done r ∧
        (result = .ok () → r.world.journal = some original))
      (fun _ => Safe original done) := by
  apply Triple.outcome
  refine (show_spec env value).mono (fun r now => now) (fun _ r now => ⟨now.1, fun _ => now.2⟩) ?_
  intro stop r safe
  cases stop with
  | error _ => exact ⟨safe, nofun⟩
  | crash => exact safe

theorem outcome_recover {env : Recovery} (honest : env.answer.honest = true)
    (result : Except Unit Unit) :
    Triple
      (fun r : Run Id => Safe original done r ∧
        (result = .ok () → r.world.journal = some original))
      (outcome (recover env) : Act Id _)
      (fun recovered r => Safe original done r ∧
        (result = .ok () → recovered = .ok () → r.world = restored original))
      (fun _ => Safe original done) := by
  apply Triple.outcome
  intro r now
  have spec : Triple (At original r.world.journal done) (recover env : Act Id Unit) _ _ :=
    recover_spec honest
  refine (spec r ⟨now.1, rfl⟩).mono ?_ ?_
  · intro _ t after
    exact ⟨after.1.1, fun shown _ => after.1.restored (after.2 (now.2 shown))⟩
  · intro stop t safe
    cases stop with
    | error _ => exact ⟨safe, fun _ => nofun⟩
    | crash => exact safe

theorem refresh_spec {env : Attempt} (honest : env.honest = true) :
    Triple (At original none done) (refresh env : Act Id Bool)
      (fun success r => Safe original done r ∧ (success = true → r.world = restored original))
      (fun _ => Safe original done) := by
  have ⟨first, last⟩ : env.answer.honest = true ∧ env.recovery.answer.honest = true :=
    Bool.and_eq_true_iff.mp honest
  unfold refresh
  apply Triple.ite
  · intro _
    refine (query_spec first).bind fun told => ?_
    rcases told with ⟨_ | value, ready⟩
    · exact .throw fun r now => now.1.1
    · dsimp only
      apply Triple.ite
      · intro _
        refine perform_pure.mono (fun r now => now) (fun _ r now => now)
          (fun _ r now => now.1.1) |>.bind fun _ => ?_
        apply Triple.ite
        · intro _
          have saved : Triple
              (fun r => At original none done r ∧ r.world.back = some value ∧
                ∀ b, some value = some b → b = r.world.home)
              (perform env.saved () (change fun w => { w with journal := some value }) :
                Act Id Unit)
              (fun _ => At original (some original) done) (fun _ => Safe original done) := by
            apply Triple.perform
            · intro _
              apply Triple.update
              intro r now
              have same := now.2.2 value rfl
              have home := now.1.1.1.world.home now.1.2
              have step : Step r.world { r.world with journal := some value } := by
                rw [same]
                exact .save r.world now.1.2
              have saved : some value = some original := by rw [same, home]
              exact ⟨now.1.step step, saved⟩
            · exact fun _ r now => ⟨now.1.1, now.1.1⟩
            · exact fun _ _ _ r now => ⟨now.1, now.1⟩
          refine saved.bind fun _ => ?_
          refine (outcome_show env value).bind fun result => ?_
          refine (outcome_recover last result).bind fun recovered => ?_
          split
          · intro r now
            exact ⟨now.1, fun _ => now.2 rfl rfl⟩
          · exact .throw fun r now => now.1
        · intro _ r now
          exact ⟨now.1.1, nofun⟩
      · intro _
        exact .throw fun r now => now.1.1
  · intro _
    exact .throw fun r now => now.1

/-! ## The loop -/

/-- No process that another one replaced comes back. -/
def Settled (displays : List Id) : Prop := ∀ a b, [a, b, a].Sublist displays → a = b

/-- Of neighbours that differ, none is there twice where none comes back. -/
theorem nodup_of_chain {displays : List Id} (chain : displays.IsChain (· ≠ ·))
    (settled : Settled displays) : displays.Nodup := by
  induction displays with
  | nil => exact List.nodup_nil
  | cons a rest ih =>
    have later : Settled rest := fun x y there => settled x y (there.cons a)
    refine List.nodup_cons.mpr ⟨?_, ih chain.tail later⟩
    intro again
    cases rest with
    | nil => contradiction
    | cons b rest =>
      have different : a ≠ b := (List.isChain_cons_cons.mp chain).1
      rcases List.mem_cons.mp again with same | again
      · exact different same
      · apply different
        apply settled
        have last : [a].Sublist rest := List.singleton_sublist.mpr again
        exact (last.cons_cons b).cons_cons a

/-- The refreshes that succeeded while these displays were found. -/
structure Tidy (original : Bool) (displays : List Id) (completed : Option Id)
    (done : List (Id × World)) : Prop where
  last : (done.map Prod.fst).head? = completed
  chain : (done.map Prod.fst).IsChain (· ≠ ·)
  worlds : ∀ success ∈ done, success.2 = restored original
  found : (done.map Prod.fst).reverse.Sublist displays

theorem Tidy.start (original : Bool) : Tidy original ([] : List Id) none [] :=
  ⟨rfl, .nil, nofun, .slnil⟩

theorem Tidy.more {displays : List Id} {completed : Option Id}
    (tidy : Tidy original displays completed done) (more : List Id) :
    Tidy original (displays ++ more) completed done :=
  ⟨tidy.last, tidy.chain, tidy.worlds, tidy.found.trans (List.sublist_append_left ..)⟩

theorem Tidy.success {displays : List Id} {completed : Option Id}
    (tidy : Tidy original displays completed done) {display : Id}
    (new : some display ≠ completed) :
    Tidy original (displays ++ [display]) (some display)
      ((display, restored original) :: done) where
  last := rfl
  chain := by
    have before := tidy.chain
    have last := tidy.last
    rw [List.map_cons]
    cases known : done.map Prod.fst with
    | nil => exact .singleton _
    | cons a rest =>
      rw [known] at before last
      refine List.isChain_cons_cons.mpr ⟨?_, before⟩
      intro same
      apply new
      rw [← last]
      exact congrArg some same
  worlds := by
    intro success there
    rcases List.mem_cons.mp there with rfl | there
    · rfl
    · exact tidy.worlds success there
  found := by
    rw [List.map_cons, List.reverse_cons]
    exact tidy.found.append (List.Sublist.refl _)

/-- The run is good, and so are the refreshes of the worker. -/
def Working (original : Bool) (displays : List Id) (completed : Option Id) (r : Run Id) : Prop :=
  r.Good original ∧ Tidy original displays completed r.refreshed

/-- However the worker ended. -/
def Ended (original : Bool) (displays : List Id) (r : Run Id) : Prop :=
  ∃ completed, Working original displays completed r

theorem Working.of_safe {displays : List Id} {completed : Option Id}
    (tidy : Tidy original displays completed done) {r : Run Id} (safe : Safe original done r) :
    Working original displays completed r := by
  refine ⟨safe.1, ?_⟩
  rw [safe.2]
  exact tidy

variable [DecidableEq Id]

omit [DecidableEq Id] in
theorem tryRefresh_spec {env : Attempt} (honest : env.honest = true) {l : Local Id} {display : Id}
    (new : some display ≠ l.completed) {displays : List Id}
    (tidy : Tidy original displays l.completed done) :
    Triple (At original none done) (tryRefresh l display env : Act Id (Local Id))
      (fun l' => Working original (displays ++ [display]) l'.completed)
      (fun _ => Ended original (displays ++ [display])) := by
  have still : ∀ r, Safe original done r →
      Working original (displays ++ [display]) l.completed r :=
    fun _ safe => .of_safe (tidy.more [display]) safe
  have refreshed : Triple (At original none done) (outcome (refresh env) : Act Id _)
      (fun result r => Safe original done r ∧ (result = .ok true → r.world = restored original))
      (fun _ => Safe original done) := by
    apply Triple.outcome
    refine (refresh_spec honest).mono (fun _ now => now) ?_ ?_
    · intro success r after
      exact ⟨after.1, fun same => after.2 (Except.ok.inj same)⟩
    · intro stop r safe
      cases stop with
      | error _ => exact ⟨safe, nofun⟩
      | crash => exact safe
  refine (refreshed.mono (fun _ now => now) (fun _ _ after => after)
    fun _ r safe => ⟨_, still r safe⟩).bind fun result => ?_
  match result with
  | .error _ => exact fun r after => still r after.1
  | .ok false => exact fun r after => still r after.1
  | .ok true =>
    intro r after
    have world : r.world = restored original := after.2 rfl
    refine ⟨⟨after.1.1.steps, after.1.1.known⟩, ?_⟩
    show Tidy original (displays ++ [display]) (some display) ((display, r.world) :: r.refreshed)
    rw [world, after.1.2]
    exact tidy.success new

theorem turn_spec {t : Turn Id} (honest : t.honest = true) (l : Local Id) (displays : List Id) :
    Triple (Working original displays l.completed) (turn l t : Act Id (Local Id))
      (fun l' => Working original (displays ++ t.display.toList) l'.completed)
      (fun _ => Ended original (displays ++ t.display.toList)) := by
  have ⟨first, second⟩ : t.recovery.answer.honest = true ∧ t.attempt.honest = true :=
    Bool.and_eq_true_iff.mp honest
  intro r now
  have tidy := now.2.more t.display.toList
  unfold turn
  cases found : t.display with
  | none =>
    rw [found] at tidy
    exact ⟨now.1, tidy⟩
  | some display =>
    rw [found] at tidy
    dsimp only [Option.toList_some] at tidy ⊢
    have seen : (l.see display).completed = l.completed := by
      unfold Local.see
      split <;> rfl
    rw [← seen] at tidy
    have recovered : Triple (fun r' => r' = r) (outcome (recover t.recovery) : Act Id _)
        (fun result r' => Safe original r.refreshed r' ∧
          (result = .ok () → At original none r.refreshed r'))
        (fun _ => Ended original (displays ++ [display])) := by
      apply Triple.outcome
      have start : ∀ r' : Run Id, r' = r → Safe original r.refreshed r' := by
        intro r' same
        rw [same]
        exact ⟨now.1, rfl⟩
      refine ((recover_safe first).pre start).mono (fun _ same => same)
        (fun _ r' after => ⟨after.1, fun _ => after⟩) ?_
      intro stop r' safe
      cases stop with
      | error _ => exact ⟨safe, nofun⟩
      | crash => exact ⟨_, .of_safe tidy safe⟩
    refine recovered.bind (fun result => ?_) r rfl
    cases result with
    | error _ => exact fun r' after => .of_safe tidy after.1
    | ok _ =>
      apply Triple.ite
      · exact fun _ r' after => .of_safe tidy after.1
      · intro due
        have new : some display ≠ (l.see display).completed := by
          intro same
          simp [same] at due
        have before := now.2
        rw [← seen] at before
        exact (tryRefresh_spec second new before).pre fun r' after => after.2 rfl

/-- The displays that a worker found, round by round. -/
def Life.displays (life : Life Id) : List Id := life.turns.filterMap Turn.display

omit [DecidableEq Id] in
theorem filterMap_append_singleton (turns : List (Turn Id)) (t : Turn Id) :
    (turns ++ [t]).filterMap Turn.display = turns.filterMap Turn.display ++ t.display.toList := by
  rw [List.filterMap_append]
  cases known : t.display with
  | none => simp [known]
  | some display => simp [known]

omit [DecidableEq Id] in
theorem Ended.more {displays : List Id} {r : Run Id} (ended : Ended original displays r)
    {all : List Id} (within : displays.Sublist all) : Ended original all r := by
  have ⟨completed, good, tidy⟩ := ended
  exact ⟨completed, good, tidy.last, tidy.chain, tidy.worlds, tidy.found.trans within⟩

theorem worker_spec {life : Life Id} (honest : life.honest = true) :
    Triple (fun r : Run Id => r.Good original) (worker life)
      (fun _ => Ended original life.displays) (fun _ => Ended original life.displays) := by
  have ⟨turns, last⟩ : life.turns.all Turn.honest = true ∧
      life.last.all (·.answer.honest) = true := Bool.and_eq_true_iff.mp honest
  have fresh : Triple (fun r : Run Id => r.Good original)
      (modify fun r => { r with refreshed := [] } : Act Id Unit)
      (fun _ => Working original [] none) (fun _ => Ended original life.displays) := by
    apply Triple.update
    exact fun r good => ⟨⟨good.steps, good.known⟩, .start original⟩
  have round : ∀ earlier t rest (l : Local Id), life.turns = earlier ++ t :: rest →
      Triple (Working original (earlier.filterMap Turn.display) l.completed) (turn l t)
        (fun l' => Working original ((earlier ++ [t]).filterMap Turn.display) l'.completed)
        (fun _ => Ended original life.displays) := by
    intro earlier t rest l split
    have within : (earlier.filterMap Turn.display ++ t.display.toList).Sublist life.displays := by
      have all : earlier ++ t :: rest = (earlier ++ [t]) ++ rest := by simp
      rw [Life.displays, split, ← filterMap_append_singleton, all]
      exact (List.sublist_append_left ..).filterMap _
    have fine : t.honest = true := List.all_eq_true.mp turns t (by simp [split])
    refine (turn_spec fine l _).mono (fun _ now => now) ?_ fun _ r ended => ended.more within
    intro l' r now
    rw [filterMap_append_singleton]
    exact now
  have rounds : Triple (Working original [] none)
      (life.turns.foldlM turn ⟨none, none, 0⟩ : Act Id (Local Id))
      (fun l => Working original life.displays l.completed)
      (fun _ => Ended original life.displays) :=
    Triple.foldlM (I := fun earlier (l : Local Id) =>
      Working original (earlier.filterMap Turn.display) l.completed) round ⟨none, none, 0⟩
  refine fresh.bind fun _ => rounds.bind fun l => ?_
  cases known : life.last with
  | none => exact fun r now => ⟨_, now⟩
  | some env =>
    have fine : env.answer.honest = true := by
      rw [known] at last
      exact last
    intro r now
    have closed : Triple (fun r' : Run Id => r' = r) (outcome (recover env) : Act Id _)
        (fun _ => Ended original life.displays) (fun _ => Ended original life.displays) := by
      apply Triple.outcome
      have start : ∀ r' : Run Id, r' = r → Safe original r.refreshed r' := by
        intro r' same
        rw [same]
        exact ⟨now.1, rfl⟩
      refine ((recover_safe fine).pre start).mono (fun _ same => same)
        (fun _ r' after => ⟨_, .of_safe now.2 after.1⟩) ?_
      intro stop r' safe
      cases stop with
      | error _ => exact ⟨_, .of_safe now.2 safe⟩
      | crash => exact ⟨_, .of_safe now.2 safe⟩
    have finished : Triple (fun r' => r' = r)
        (outcome (recover env) >>= fun _ => pure () : Act Id Unit)
        (fun _ => Ended original life.displays) (fun _ => Ended original life.displays) :=
      closed.bind fun _ _ ended => ended
    exact finished r rfl

/-- Where no process has started yet and the preference is the original. -/
def Run.start (original : Bool) : Run Id := ⟨⟨original, none, none⟩, [], []⟩

omit [DecidableEq Id] in
theorem Run.Good.start (original : Bool) : (Run.start original : Run Id).Good original where
  steps := .singleton _
  known w there := by
    rw [List.mem_singleton.mp there]
    exact .start original

/-- Workers one after the other, each of which may stop anywhere. -/
theorem lives_good {workers : List (Life Id)} (honest : ∀ life ∈ workers, life.honest = true)
    {r : Run Id} (good : r.Good original) : (lives workers r).Good original := by
  induction workers generalizing r with
  | nil => exact good
  | cons life workers ih =>
    have after := (worker_spec (honest life (List.mem_cons_self ..)) r good).stateOf
    have ⟨_, still, _⟩ := after
    exact ih (fun other there => honest other (List.mem_cons_of_mem _ there)) still

theorem lives_snoc (workers : List (Life Id)) (life : Life Id) (r : Run Id) :
    lives (workers ++ [life]) r = stateOf (worker life (lives workers r)) :=
  List.foldl_append ..

/-- With answers that give the preference as it is, it is restorable at any time: where it is not
the original the journal holds the original, the journal is written only where there is none and
goes only after its value was read back, a refresh succeeds only with the preference restored, and a
worker refreshes no two times in a row for one display process, hence not twice where none comes
back that another one replaced. -/
theorem preference_restorable (original : Bool) (workers : List (Life Id)) (life : Life Id)
    (honest : ∀ other ∈ workers ++ [life], other.honest = true) :
    let r := lives (workers ++ [life]) (Run.start original)
    (∀ w ∈ r.worlds, (w.home ≠ original → w.journal = some original) ∧
      (∀ b, w.journal = some b → b = original) ∧ (w.journal = none → w.home = original)) ∧
    r.worlds.IsChain (fun later earlier => Step earlier later) ∧
    (∀ success ∈ r.refreshed, success.2 = restored original) ∧
    (r.refreshed.map Prod.fst).IsChain (· ≠ ·) ∧
    (Settled life.displays → (r.refreshed.map Prod.fst).Nodup) := by
  intro r
  have before : (lives workers (Run.start original)).Good original :=
    lives_good (fun other there => honest other (List.mem_append_left _ there)) (.start original)
  have fine : life.honest = true := honest life (by simp)
  have ⟨completed, good, tidy⟩ : Ended original life.displays r := by
    have after := (worker_spec fine _ before).stateOf
    rw [← lives_snoc] at after
    exact after
  refine ⟨?_, good.steps, tidy.worlds, tidy.chain, ?_⟩
  · intro w there
    have known := good.known w there
    exact ⟨known.journaled, known.journal, known.home⟩
  · intro settled
    apply nodup_of_chain tidy.chain
    intro a b there
    apply settled a b
    have turned := there.reverse
    exact turned.trans tidy.found

/-! ## A worker that refreshes -/

def sampleRecovery : Recovery :=
  ⟨true, ⟨true, .accepted⟩, .told .current true, .none, .none⟩

/-- A refresh in which all goes well, but for what Fenix first tells of the preference. -/
def sampleAttempt (told : Told) : Attempt :=
  { same := true, answer := .told told true, installed := true, probe := .none, still := true
    saved := .none, flipped := ⟨true, .accepted⟩, flippedBack := ⟨true, .accepted⟩
    helper := .none, recovery := sampleRecovery }

def sampleLife (told : Told) (displays : List Nat) : Life Nat :=
  ⟨displays.map fun display => ⟨some display, sampleRecovery, true, sampleAttempt told⟩, none⟩

/-- A display is refreshed, and the preference is `true` again. -/
theorem preference_restorable_sample :
    let r := lives ([] ++ [sampleLife .current [7]]) (Run.start true)
    (∀ w ∈ r.worlds, (w.home ≠ true → w.journal = some true) ∧
      (∀ b, w.journal = some b → b = true) ∧ (w.journal = none → w.home = true)) ∧
    r.worlds.IsChain (fun later earlier => Step earlier later) ∧
    (∀ success ∈ r.refreshed, success.2 = restored true) ∧
    (r.refreshed.map Prod.fst).IsChain (· ≠ ·) ∧
    (Settled (sampleLife .current [7]).displays → (r.refreshed.map Prod.fst).Nodup) :=
  preference_restorable true [] (sampleLife .current [7]) (by decide)

/-- A wrong answer is restored for good, and of three display processes the first may be refreshed
again. -/
theorem preference_lost :
    (lives [sampleLife .other [7]] (Run.start true)).world = ⟨false, none, some false⟩ ∧
    (lives [sampleLife .current [7, 8, 7]] (Run.start true)).refreshed.map Prod.fst =
      [7, 8, 7] := by
  decide +kernel

end Flightdeck.DisplayRefresh
