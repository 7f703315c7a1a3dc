import Flightdeck.Framework.Repair

/-!
# The trace of a preparation

What the calls of `prepare_with_version` look like at its end, whatever the adapter answers and
leaves in the prefix: a success was probed last, the version of Windows is set back, nothing is
started after a cancellation, and the installer of 4.8 runs at most twice.
-/

namespace Flightdeck.FrameworkRepair

open Foundation

/-! ## Kinds of calls -/

/-- A compiler is started. -/
def Call.probes : Call → Bool
  | .run args false _ => args.tail == ["/nologo", "/help"]
  | _ => false

def Call.installs : Call → Bool
  | .run _ installer _ => installer
  | _ => false

def Call.uninstalls : Call → Bool
  | .run args _ _ => args.head? == some "uninstaller"
  | _ => false

/-- The version of Windows that is written. -/
def Call.version : Call → Option String
  | .reg key name value _ => if key = WINE ∧ name = "Version" then some value else none
  | _ => none

/-- The installer of 4.8 installs or repairs. -/
def Call.round : Call → Bool
  | .run args true _ =>
    args.tail == ["/q", "/norestart"] || args.tail == ["/repair", "/q", "/norestart"]
  | _ => false

/-- Nothing is started that a cancellation forbids. -/
def Call.quiet (c : Call) : Bool := !c.probes && !c.installs && !c.uninstalls

/-! ## The trace at the end -/

/-- The latest calls started the compilers of the architectures, one after the other. -/
def Started (wine : Adapter) : List String → Trace → Trace → Prop
  | [], new, _ => new = []
  | architecture :: rest, new, t => ∃ compiler second,
      wine.compiler t architecture = some compiler ∧
        Started wine rest second (⟨help compiler, none⟩ :: t) ∧
          new = second ++ [⟨help compiler, none⟩]

/-- Both compilers were started by the last probe, and no installer ran since. -/
def Verified (wine : Adapter) (trace : Trace) : Prop :=
  ∃ after started before, trace = after ++ (started ++ before) ∧
    Started wine ["Framework", "Framework64"] started before ∧
      ∀ e ∈ after, e.call.probes = false ∧ e.call.installs = false

/-- The last version that was written is that of Windows 10, and the server was stopped since. -/
def SetBack (trace : Trace) : Prop :=
  ∃ after c error before, trace = after ++ ⟨c, error⟩ :: before ∧ c.version = some "win10" ∧
    (∀ e ∈ after, e.call.version = none) ∧ ∃ e ∈ after, e.call = .stop

structure Final (wine : Adapter) (ok : Bool) (trace : Trace) : Prop where
  verified : ok = true → Verified wine trace
  setBack : (∃ e ∈ trace, ∃ version, e.call.version = some version ∧ version ≠ "win10") →
    SetBack trace
  silent : ∀ after c before, trace = after ++ ⟨c, some .cancelled⟩ :: before →
    ∀ e ∈ after, e.call.quiet = true
  rounds : trace.countP (·.call.round) ≤ 2

/-! ## Parts that write no version -/

/-- The version of Windows is left alone. -/
def Call.Leaves (c : Call) : Prop := c.version = none

/-- The version of Windows is left alone, and the installer of 4.8 does not run. -/
abbrev Plain {α : Type} (m : M α) (Q : α → Trace → Trace → Prop) : Prop :=
  Orderly Error.cancelled Call.Leaves Call.round 0 m Q

/-- The installer of 4.8 runs at most `n` times. -/
abbrev Rounds {α : Type} (n : Nat) (m : M α) (Q : α → Trace → Trace → Prop) : Prop :=
  Orderly Error.cancelled (fun _ => True) Call.round n m Q

variable {wine : Adapter}

theorem rounds_plain {α : Type} {m : M α} {Q : α → Trace → Trace → Prop} {n : Nat}
    (plain : Plain m Q) : Rounds n m Q :=
  plain.mono (fun _ _ => trivial) (Nat.zero_le n) fun _ _ _ holds => holds

/-- One part after another. -/
theorem plain_then {α β : Type} {m : M α} {f : α → M β} {Q : α → Trace → Trace → Prop}
    (first : Plain m Q) (second : ∀ a, Plain (f a) fun _ _ _ => True) :
    Plain (m >>= f) fun _ _ _ => True :=
  Orderly.andThen (n := 0) (k := 0) first second

theorem rounds_then {α β : Type} {m : M α} {f : α → M β} {Q : α → Trace → Trace → Prop} {n : Nat}
    (first : Rounds 0 m Q) (second : ∀ a, Rounds n (f a) fun _ _ _ => True) :
    Rounds n (m >>= f) fun _ _ _ => True :=
  (first.andThen second).mono (fun _ fine => fine) (by omega) fun _ _ _ _ => trivial

theorem rounds_onlyIf {m : M Unit} {condition : Bool} {n : Nat}
    (all : Rounds n m fun _ _ _ => True) : Rounds n (onlyIf condition m) fun _ _ _ => True := by
  apply Orderly.ite
  · intro _
    exact all
  · intro _
    exact Orderly.pure fun _ => trivial

theorem plain_onlyIf {m : M Unit} {condition : Bool} (all : Plain m fun _ _ _ => True) :
    Plain (onlyIf condition m) fun _ _ _ => True := by
  apply Orderly.ite
  · intro _
    exact all
  · intro _
    exact Orderly.pure fun _ => trivial

theorem plain_ask {c : Call} (version : c.Leaves) (round : c.round = false) :
    Plain (ask wine c) fun _ new _ => new = [⟨c, none⟩] := by
  apply Orderly.callOut version
  intro counted
  rw [round] at counted
  cases counted

theorem plain_progress (text : String) :
    Plain (progress text) fun _ new _ => new = [⟨.progress text, none⟩] :=
  Orderly.callOut (P := Call.Leaves) rfl (by simp [Call.round])

/-- A call whose place in the trace is of no interest. -/
theorem plain_call {c : Call} (version : c.Leaves) (round : c.round = false) :
    Plain (ask wine c) fun _ _ _ => True :=
  (plain_ask version round).mono (fun _ fine => fine) (Nat.le_refl _) fun _ _ _ _ => trivial

theorem plain_call_progress (text : String) : Plain (progress text) fun _ _ _ => True :=
  (plain_progress text).mono (fun _ fine => fine) (Nat.le_refl _) fun _ _ _ _ => trivial

theorem leaves_reg {key name value kind : String} (other : key ≠ WINE) :
    (Call.reg key name value kind).Leaves := by
  simp [Call.Leaves, Call.version, other]

theorem plain_settings : Plain (settings wine) fun _ _ _ => True :=
  plain_then (plain_call (leaves_reg (by decide)) rfl) fun _ =>
    plain_then (plain_call (leaves_reg (by decide)) rfl) fun _ =>
      plain_call (leaves_reg (by decide)) rfl

theorem plain_run {args : List String} {seconds : Nat} :
    Plain (ask wine (.run args false seconds)) fun _ _ _ => True :=
  plain_call (c := .run args false seconds) rfl rfl

theorem plain_stop : Plain (ask wine .stop) fun _ _ _ => True :=
  plain_call (c := .stop) rfl rfl

theorem plain_restart : Plain (restart wine) fun _ _ _ => True :=
  plain_then plain_run fun _ => plain_stop

theorem plain_settingsIfReady : Plain (settingsIfReady wine) fun _ _ _ => True := by
  apply Orderly.getThen
  intro t
  exact plain_onlyIf plain_settings

theorem plain_requireOlder : Plain (requireOlder wine) fun _ _ _ => True := by
  apply Orderly.getThen
  intro t
  apply Orderly.ite
  · intro newer
    exact Orderly.throw (by decide)
  · intro older
    exact Orderly.pure fun _ => trivial

theorem plain_probeAll (architectures : List String) : Plain (probeAll wine architectures)
    fun found new t => found = true → Started wine architectures new t := by
  induction architectures with
  | nil => exact Orderly.pure fun _ _ => rfl
  | cons architecture rest ih =>
    unfold probeAll
    apply Orderly.get
    intro t
    cases found : wine.compiler t architecture with
    | none => exact Orderly.pure fun _ _ => by simp
    | some compiler =>
      have asked : Plain (ask wine (help compiler)) fun _ new _ => new = [⟨help compiler, none⟩] :=
        plain_ask rfl rfl
      apply Orderly.attempt (n := 0) (k := 0) asked
        (R := fun _ b second t' => b = true → Started wine rest second t')
        (E := fun b _ _ => b = false)
      · intro a
        exact ih
      · intro e other
        cases e with
        | cancelled => exact absurd rfl other
        | invalid message => exact Orderly.pure fun _ => rfl
        | io => exact Orderly.pure fun _ => rfl
        | json => exact Orderly.pure fun _ => rfl
        | cloud failure => exact Orderly.pure fun _ => rfl
        | arithmetic => exact Orderly.pure fun _ => rfl
      · rfl
      · intro a b first second t' called started same succeeded
        subst called same
        exact ⟨compiler, second, found, started succeeded, rfl⟩
      · intro b first second t' failed same succeeded
        rw [failed] at succeeded
        cases succeeded

theorem plain_probe : Plain (probe wine) fun found new t =>
    found = true → Started wine ["Framework", "Framework64"] new t := by
  apply Orderly.get
  intro t
  apply Orderly.ite
  · intro ready
    exact (plain_probeAll _).mono (fun _ fine => fine) (Nat.le_refl _)
      fun _ _ _ started _ => started
  · intro missing
    exact Orderly.pure fun _ _ => by simp

theorem plain_removeMono (lines : List (List Char)) :
    Plain (removeMono wine lines) fun _ _ _ => True := by
  induction lines with
  | nil => exact Orderly.pure fun _ => trivial
  | cons line rest ih =>
    unfold removeMono
    cases mono wine.isUuid line with
    | none => exact ih
    | some guid =>
      exact plain_then plain_run fun _ => plain_then ih fun _ => Orderly.pure fun _ => trivial

theorem plain_listing : Plain (listing wine) fun _ _ _ => True :=
  plain_then (plain_call (c := .list) rfl rfl) fun _ =>
    Orderly.getThen fun _ => Orderly.pure fun _ => trivial

theorem plain_obtainAll (packages : List (String × String × String)) :
    Plain (obtainAll wine packages) fun _ _ _ => True := by
  induction packages with
  | nil => exact Orderly.pure fun _ => trivial
  | cons package rest ih =>
    have ⟨name, url, hash⟩ := package
    unfold obtainAll
    apply plain_then (plain_progress _)
    intro _
    apply plain_then (plain_call (c := .obtain name url hash) rfl rfl)
    intro _
    apply Orderly.getThen
    intro t
    exact plain_then ih fun _ => Orderly.pure fun _ => trivial

/-! ## The installation -/

theorem rounds_windows (version : String) : Rounds 0 (windows wine version) fun _ _ _ => True :=
  (Orderly.callOut trivial (by simp [Call.round])).mono (fun _ fine => fine) (Nat.le_refl _)
    fun _ _ _ _ => trivial

theorem rounds_installer {package : String} {args : List String} {n : Nat}
    (few : (Call.run (package :: args) true 1800).round = true → 0 < n) :
    Rounds n (installer wine package args) fun _ _ _ => True :=
  (Orderly.callOut trivial few).mono (fun _ fine => fine) (Nat.le_refl _) fun _ _ _ _ => trivial

theorem rounds_install40 (package version : String) :
    Rounds 0 (install40 wine package version) fun _ _ _ => True :=
  rounds_then (rounds_windows version) fun _ =>
    rounds_then (rounds_installer (n := 0) (by simp [Call.round])) fun _ =>
      rounds_plain plain_restart

theorem rounds_uninstall48 (package : String) :
    Rounds 0 (uninstall48 wine package) fun _ _ _ => True :=
  rounds_then (rounds_installer (n := 0) (by simp [Call.round])) fun _ => rounds_plain plain_restart

theorem rounds_reinstall (package40 package48 version : String) (repair : Bool) :
    Rounds 0 (reinstall wine package40 package48 version repair) fun _ _ _ => True := by
  apply rounds_then (rounds_plain plain_requireOlder)
  intro _
  apply rounds_then (rounds_plain (plain_progress _))
  intro _
  exact rounds_then (rounds_onlyIf (rounds_uninstall48 package48)) fun _ =>
    rounds_then (rounds_install40 package40 version) fun _ =>
      rounds_then (rounds_plain plain_settings) fun _ => rounds_windows "win7"

theorem rounds_installAttempt (package40 package48 version : String) (number : Nat)
    (repair : Bool) :
    Rounds 1 (installAttempt wine package40 package48 version number repair)
      fun _ _ _ => True := by
  apply rounds_then (rounds_onlyIf (rounds_reinstall package40 package48 version repair))
  intro _
  exact rounds_installer fun _ => Nat.one_pos

theorem rounds_afterAttempt {result : Except Error Unit} (other : result ≠ .error .cancelled) :
    Rounds 0 (afterAttempt wine result) fun _ _ _ => True := by
  have last : Rounds 0 (do settings wine; restart wine) fun _ _ _ => True :=
    rounds_then (rounds_plain plain_settings) fun _ => rounds_plain plain_restart
  have stopped : Rounds 0 (do ask wine .stop; settings wine; restart wine) fun _ _ _ => True :=
    rounds_then (rounds_plain plain_stop) fun _ => last
  cases result with
  | ok u => exact last
  | error e =>
    cases e with
    | cancelled => exact absurd rfl other
    | invalid message => exact stopped
    | io => exact stopped
    | json => exact stopped
    | cloud failure => exact stopped
    | arithmetic => exact stopped

/-- The calls after the latest probe that succeeded. -/
theorem verified_quiet {new started before : Trace}
    (probed : Started wine ["Framework", "Framework64"] started before)
    (quiet : ∀ e ∈ new, e.call.probes = false ∧ e.call.installs = false) :
    Verified wine (new ++ (started ++ before)) :=
  ⟨new, started, before, rfl, probed, quiet⟩

theorem verified_progress {text : String} {started before : Trace}
    (probed : Started wine ["Framework", "Framework64"] started before) :
    Verified wine ([⟨.progress text, none⟩] ++ (started ++ before)) :=
  verified_quiet probed (by simp [Call.probes, Call.installs])

/-- The end of an attempt: the framework is probed, and another attempt may follow. -/
theorem rounds_probed {next : M Unit} {text : String} {n : Nat}
    (again : Rounds n next fun _ new t => Verified wine (new ++ t)) :
    Rounds n (do if ← probe wine then progress text else next)
      fun _ new t => Verified wine (new ++ t) := by
  have all : Rounds (0 + n) (do if ← probe wine then progress text else next)
      fun _ new t => Verified wine (new ++ t) := by
    apply Orderly.bind (rounds_plain (n := 0) plain_probe)
      (R := fun found _ second t => if found = true then second = [⟨.progress text, none⟩]
        else Verified wine (second ++ t))
    · intro found
      cases found with
      | true => exact rounds_plain (plain_progress text)
      | false => exact again
    · intro found _ first second t started last
      cases found with
      | true =>
        rw [if_pos rfl] at last
        rw [last, List.append_assoc]
        exact verified_progress (started rfl)
      | false =>
        rw [if_neg (by decide)] at last
        rw [List.append_assoc]
        exact last
  rwa [Nat.zero_add] at all

theorem verified_append {new first second t : Trace} (same : new = second ++ first)
    (verified : Verified wine (second ++ (first ++ t))) : Verified wine (new ++ t) := by
  rw [same, List.append_assoc]
  exact verified

/-- A part before the one that is verified. -/
theorem rounds_before {α : Type} {m : M α} {f : α → M Unit} {Q : α → Trace → Trace → Prop}
    {n k : Nat} (first : Rounds n m Q)
    (second : ∀ a, Rounds k (f a) fun _ new t => Verified wine (new ++ t)) :
    Rounds (n + k) (m >>= f) fun _ new t => Verified wine (new ++ t) :=
  first.bind second fun _ _ _ _ _ _ verified => verified_append rfl verified

theorem rounds_get {f : Trace → M Unit} {n k : Nat} (more : n ≤ k)
    (all : ∀ t, Rounds n (f t) fun _ new t => Verified wine (new ++ t)) :
    Rounds k (get >>= f) fun _ new t => Verified wine (new ++ t) := by
  apply Orderly.get
  intro t₀
  exact (all t₀).mono (fun _ fine => fine) more fun _ _ _ verified _ => verified

theorem rounds_attempts (package40 package48 version : String) (numbers : List Nat) :
    Rounds numbers.length (attempts wine package40 package48 version numbers)
      fun _ new t => Verified wine (new ++ t) := by
  induction numbers with
  | nil => exact Orderly.throw (by simp)
  | cons number rest ih =>
    unfold attempts
    apply rounds_get (n := 0 + (1 + rest.length)) (by simp; omega)
    intro t₀
    apply rounds_before (rounds_onlyIf (rounds_plain (plain_call_progress _)))
    intro _
    have after : ∀ result : Except Error Unit, result ≠ .error .cancelled →
        Rounds rest.length (do
          afterAttempt wine result
          if ← probe wine then
            progress "Microsoft .NET Framework 4.8 was verified for 32-bit and 64-bit applications."
          else attempts wine package40 package48 version rest)
          fun _ new t => Verified wine (new ++ t) := by
      intro result other
      rw [← Nat.zero_add rest.length]
      exact rounds_before (rounds_afterAttempt other) fun _ => rounds_probed ih
    apply Orderly.attempt
      (rounds_installAttempt package40 package48 version number
        (repairing (wine.status t₀)))
      (R := fun _ _ new t => Verified wine (new ++ t))
      (E := fun _ new t => Verified wine (new ++ t))
    · intro u
      exact after (.ok u) (by simp)
    · intro e other
      exact after (.error e) (by simpa using other)
    · rfl
    · intro _ _ first second t _ verified
      exact verified_append rfl verified
    · intro _ first second t verified
      exact verified_append rfl verified

theorem rounds_install (package40 package48 version : String) :
    Rounds 2 (install wine package40 package48 version)
      fun _ new t => Verified wine (new ++ t) := by
  apply rounds_get (n := 0 + (0 + (0 + 2))) (by decide)
  intro t₀
  apply rounds_before (rounds_onlyIf (rounds_install40 package40 version))
  intro _
  apply rounds_before (rounds_plain plain_settings)
  intro _
  apply rounds_before (rounds_windows "win7")
  intro _
  exact rounds_attempts package40 package48 version [0, 1]

/-! ## The whole -/

/-- The calls so far: none was answered with a cancellation, and no version was written. -/
structure Begun (t : Trace) : Prop where
  calm : Calm Error.cancelled t
  within : Within Call.Leaves Call.round 0 t

theorem Begun.append {new t : Trace} (begun : Begun t) (calm : Calm Error.cancelled new)
    (within : Within Call.Leaves Call.round 0 new) : Begun (new ++ t) :=
  ⟨calm.append begun.calm, within.append begun.within⟩

/-- Whatever answers the rest of the calls get. -/
def Reaches (wine : Adapter) (m : M Unit) (t : Trace) : Prop :=
  Final wine (succeeded (m t)) (stateOf (m t))

/-- Where a list is cut: the place is in the second part, or in the first. -/
theorem cut_append {α : Type} {more t after before : List α} {a : α}
    (same : more ++ t = after ++ a :: before) :
    (∃ rest, after = more ++ rest ∧ t = rest ++ a :: before) ∨
      ∃ rest, more = after ++ a :: rest := by
  rcases List.append_eq_append_iff.mp same with ⟨rest, first, second⟩ | ⟨rest, first, second⟩
  · exact .inl ⟨rest, first, second⟩
  · cases rest with
    | nil =>
      rw [List.append_nil] at first
      exact .inl ⟨[], by rw [first, List.append_nil], second.symm⟩
    | cons b rest =>
      rw [List.cons_append] at second
      have ⟨head, _⟩ := List.cons.inj second
      subst head
      exact .inr ⟨rest, first⟩

/-- Nothing is started after the first cancellation. -/
def Silent (t : Trace) : Prop := ∀ after c before,
  t = after ++ ⟨c, some .cancelled⟩ :: before → ∀ e ∈ after, e.call.quiet = true

theorem silent_of_calm {t : Trace} (calm : Calm Error.cancelled t) : Silent t := by
  intro after c before same
  have there : (⟨c, some .cancelled⟩ : Event Call Error) ∈ t := by simp [same]
  exact absurd rfl (calm _ there)

theorem silent_of_stopped {t : Trace} (stopped : Stopped Error.cancelled t) : Silent t := by
  have ⟨c₀, rest₀, same₀, calm⟩ := stopped
  intro after c before same
  cases after with
  | nil => simp
  | cons e after =>
    rw [same₀, List.cons_append] at same
    have there : (⟨c, some .cancelled⟩ : Event Call Error) ∈ rest₀ := by
      simp [(List.cons.inj same).2]
    exact absurd rfl (calm _ there)

/-- Quiet calls after a silent trace. -/
theorem Silent.append {more t : Trace} (silent : Silent t)
    (quiet : ∀ e ∈ more, e.call.quiet = true) : Silent (more ++ t) := by
  intro after c before same e there
  rcases cut_append same with ⟨rest, first, second⟩ | ⟨rest, first⟩
  · rw [first] at there
    rcases List.mem_append.mp there with there | there
    · exact quiet e there
    · exact silent rest c before second e there
  · exact quiet e (by simp [first, there])

theorem final_plain {t : Trace} {ok : Bool} (within : Within Call.Leaves Call.round 0 t)
    (silent : Silent t) (verified : ok = true → Verified wine t) : Final wine ok t where
  verified := verified
  setBack := by
    intro ⟨e, there, version, written, _⟩
    have left : e.call.version = none := within.calls e there
    rw [left] at written
    cases written
  silent := silent
  rounds := Nat.le_trans within.few (by decide)

/-- The run ends with an error in a part that writes no version. -/
theorem final_error {t new : Trace} {e : Error} (begun : Begun t)
    (within : Within Call.Leaves Call.round 0 new)
    (stopped : e = .cancelled → Stopped Error.cancelled new)
    (other : e ≠ .cancelled → Calm Error.cancelled new) : Final wine false (new ++ t) := by
  apply final_plain (within.append begun.within)
  · by_cases cancelled : e = .cancelled
    · exact silent_of_stopped ((stopped cancelled).append begun.calm)
    · exact silent_of_calm ((other cancelled).append begun.calm)
  · intro succeeded
    cases succeeded

/-- A part that ends before any version is written. -/
theorem reaches_plain {m : M Unit} {t : Trace} {Q : Unit → Trace → Trace → Prop} (begun : Begun t)
    (plain : Plain m Q) (verified : ∀ new, Q () new t → Verified wine (new ++ t)) :
    Reaches wine m t := by
  have run := plain t
  unfold Reaches
  cases result : m t with
  | ok u t' =>
    rw [result] at run
    have ⟨new, same, within, calm, holds⟩ := run
    subst same
    have all := begun.append calm within
    exact final_plain all.within (silent_of_calm all.calm) fun _ => verified new holds
  | error e t' =>
    rw [result] at run
    have ⟨new, same, within, stopped, other⟩ := run
    subst same
    exact final_error begun within stopped other

theorem reaches_throw {e : Error} {t : Trace} (begun : Begun t) (other : e ≠ .cancelled) :
    Reaches wine (throw e) t :=
  reaches_plain (Q := fun _ _ _ => False) begun (Orderly.throw other) fun _ impossible =>
    impossible.elim

/-- A part before the rest. -/
theorem reaches_bind {α : Type} {m : M α} {f : α → M Unit} {t : Trace}
    {Q : α → Trace → Trace → Prop} (begun : Begun t) (plain : Plain m Q)
    (rest : ∀ a new, Q a new t → Begun (new ++ t) → Reaches wine (f a) (new ++ t)) :
    Reaches wine (m >>= f) t := by
  have run := plain t
  unfold Reaches
  change Final wine (succeeded (EStateM.bind m f t)) (stateOf (EStateM.bind m f t))
  unfold EStateM.bind
  cases result : m t with
  | ok a t' =>
    rw [result] at run
    have ⟨new, same, within, calm, holds⟩ := run
    subst same
    exact rest a new holds (begun.append calm within)
  | error e t' =>
    rw [result] at run
    have ⟨new, same, within, stopped, other⟩ := run
    subst same
    exact final_error begun within stopped other

/-- The last two calls of an installation. -/
def cleaning (error error' : Option Error) : Trace :=
  [⟨.stop, error'⟩, ⟨.reg WINE "Version" "win10" "REG_SZ", error⟩]

theorem attempt_ask (wine : Adapter) (c : Call) (t : Trace) : ∃ result : Except Error Unit,
    (attempt (ask wine c) : M _) t = .ok result (⟨c, wine.answer t c⟩ :: t) := by
  unfold attempt ask callOut
  cases wine.answer t c with
  | none => exact ⟨_, rfl⟩
  | some e => exact ⟨_, rfl⟩

theorem cleanUp_run (wine : Adapter) (result : Except Error Unit) (t : Trace) : ∃ error error',
    stateOf (cleanUp wine result t) = cleaning error error' ++ t ∧
      (succeeded (cleanUp wine result t) = true → result = .ok ()) := by
  let version : Call := .reg WINE "Version" "win10" "REG_SZ"
  have ⟨reset, first⟩ := attempt_ask wine version t
  have ⟨stopped, second⟩ := attempt_ask wine .stop (⟨version, wine.answer t version⟩ :: t)
  apply Exists.intro (wine.answer t version)
  apply Exists.intro (wine.answer (⟨version, wine.answer t version⟩ :: t) .stop)
  unfold cleanUp windows
  rw [run_bind first, run_bind second]
  cases result with
  | error e => exact ⟨rfl, fun done => by cases done⟩
  | ok u =>
    cases reset with
    | error e => exact ⟨rfl, fun _ => rfl⟩
    | ok u =>
      cases stopped with
      | error e => exact ⟨rfl, fun _ => rfl⟩
      | ok u => exact ⟨rfl, fun _ => rfl⟩

theorem quiet_cleaning (error error' : Option Error) :
    ∀ e ∈ cleaning error error', e.call.quiet = true := by
  simp [cleaning, Call.quiet, Call.probes, Call.installs, Call.uninstalls]

/-- However an installation ended, its clean-up sets the version back. -/
theorem final_cleaning {ok : Bool} {t : Trace} (error error' : Option Error) (silent : Silent t)
    (few : t.countP (·.call.round) ≤ 2) (verified : ok = true → Verified wine t) :
    Final wine ok (cleaning error error' ++ t) where
  verified := by
    intro done
    have ⟨after, started, before, same, probed, quiet⟩ := verified done
    rw [same, ← List.append_assoc]
    apply verified_quiet probed
    intro e there
    rcases List.mem_append.mp there with there | there
    · have fine := quiet_cleaning error error' e there
      simp only [Call.quiet, Bool.and_eq_true, Bool.not_eq_true'] at fine
      exact fine.1
    · exact quiet e there
  setBack := fun _ => ⟨[⟨.stop, error'⟩], _, error, t, rfl, by decide, by simp [Call.version],
    by simp⟩
  silent := silent.append (quiet_cleaning error error')
  rounds := by
    rw [List.countP_append]
    simpa [cleaning, Call.round] using few

theorem reaches_cleanUp {m : M Unit} {t : Trace} (begun : Begun t)
    (rounds : Rounds 2 m fun _ new t => Verified wine (new ++ t)) :
    Reaches wine (attempt m >>= cleanUp wine) t := by
  have few : ∀ {new : Trace}, Within (fun _ => True) Call.round 2 new →
      (new ++ t).countP (·.call.round) ≤ 2 := by
    intro new within
    have one := within.few
    have two := begun.within.few
    rw [List.countP_append]
    omega
  have run := rounds t
  unfold Reaches
  change Final wine (succeeded (EStateM.bind (attempt m) (cleanUp wine) t))
    (stateOf (EStateM.bind (attempt m) (cleanUp wine) t))
  unfold EStateM.bind attempt
  cases result : m t with
  | ok u t' =>
    rw [result] at run
    have ⟨new, same, within, calm, verified⟩ := run
    subst same
    have ⟨error, error', same, _⟩ := cleanUp_run wine (.ok u) (new ++ t)
    dsimp only
    rw [same]
    exact final_cleaning error error' (silent_of_calm (calm.append begun.calm)) (few within)
      fun _ => verified
  | error e t' =>
    rw [result] at run
    have ⟨new, same, within, stopped, other⟩ := run
    subst same
    have ⟨error, error', same, failed⟩ := cleanUp_run wine (.error e) (new ++ t)
    dsimp only
    rw [same]
    apply final_cleaning error error' _ (few within)
    · intro succeeded
      cases failed succeeded
    · by_cases cancelled : e = .cancelled
      · exact silent_of_stopped ((stopped cancelled).append begun.calm)
      · exact silent_of_calm ((other cancelled).append begun.calm)

theorem begun_start : Begun [] := ⟨.nil, .nil⟩

/-- What holds of the calls of `prepare_with_version` at its end. -/
theorem prepare_with_version_trace (wine : Adapter) (first_version : String) :
    Final wine (succeeded (prepare_with_version wine first_version []))
      (stateOf (prepare_with_version wine first_version [])) := by
  show Reaches wine (prepare_with_version wine first_version) []
  unfold prepare_with_version
  by_cases known : first_version = "winxp" ∨ first_version = "win7"
  · rw [if_pos known]
    apply reaches_bind begun_start plain_settingsIfReady
    intro _ t₁ _ begun
    apply reaches_bind begun plain_probe
    intro ready t₂ started begun
    cases ready with
    | true =>
      apply reaches_plain begun (plain_progress _)
      intro new same
      rw [same]
      exact verified_progress (started rfl)
    | false =>
      apply reaches_bind begun (plain_call_progress _)
      intro _ t₃ _ begun
      apply reaches_bind begun plain_stop
      intro _ t₄ _ begun
      apply reaches_bind begun plain_restart
      intro _ t₅ _ begun
      apply reaches_bind begun plain_settingsIfReady
      intro _ t₆ _ begun
      apply reaches_bind begun plain_probe
      intro ready t₇ started begun
      cases ready with
      | true =>
        apply reaches_plain begun (plain_progress _)
        intro new same
        rw [same]
        exact verified_progress (started rfl)
      | false =>
        apply reaches_bind begun plain_listing
        intro lines t₈ _ begun
        apply reaches_bind begun (plain_removeMono lines)
        intro removed t₉ _ begun
        apply reaches_bind begun (plain_onlyIf plain_stop)
        intro _ t₁₀ _ begun
        apply reaches_bind begun plain_requireOlder
        intro _ t₁₁ _ begun
        apply reaches_bind begun (plain_obtainAll PACKAGES)
        intro packages t₁₂ _ begun
        rcases packages with _ | ⟨package40, _ | ⟨package48, _ | ⟨_, _⟩⟩⟩
        · exact reaches_throw begun (by decide)
        · exact reaches_throw begun (by decide)
        · apply reaches_bind begun (plain_call_progress _)
          intro _ t₁₃ _ begun
          exact reaches_cleanUp begun (rounds_install package40 package48 first_version)
        · exact reaches_throw begun (by decide)
  · rw [if_neg known]
    exact reaches_throw begun_start (by simp)

end Flightdeck.FrameworkRepair
