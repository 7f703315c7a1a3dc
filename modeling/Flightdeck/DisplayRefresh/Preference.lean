import Flightdeck.Foundation.Faults

/-!
# The display preference

`display_refresh.rs` flips a preference of Fenix to have its displays drawn again.  A journal holds
the value to restore: what may happen to the two, and that the value is never lost.
-/

namespace Flightdeck.DisplayRefresh

/-- The preference as Fenix has it, the journal, and what was read back since the last write. -/
structure World where
  home : Bool
  journal : Option Bool
  back : Option Bool
  deriving DecidableEq

/-- What may happen: a value is written only under a journal, a journal is written only where there
is none and with the value that the preference has, and it goes only after that value was read. -/
inductive Step : World → World → Prop
  | read (w : World) (told : Option Bool) (honest : ∀ b, told = some b → b = w.home) :
      Step w { w with back := told }
  | write (w : World) (saved value : Bool) : w.journal = some saved →
      Step w { w with home := value, back := none }
  | save (w : World) : w.journal = none → Step w { w with journal := some w.home }
  | remove (w : World) (saved : Bool) : w.journal = some saved → w.back = some saved →
      Step w { w with journal := none }

/-- The original value is still known. -/
structure Restorable (original : Bool) (w : World) : Prop where
  journal : ∀ b, w.journal = some b → b = original
  home : w.journal = none → w.home = original
  back : ∀ b, w.back = some b → b = w.home

theorem Restorable.start (original : Bool) : Restorable original ⟨original, none, none⟩ :=
  ⟨nofun, fun _ => rfl, nofun⟩

theorem Step.restorable {original : Bool} {w w' : World} (step : Step w w')
    (known : Restorable original w) : Restorable original w' := by
  cases step with
  | read told honest => exact ⟨known.journal, known.home, honest⟩
  | write saved value journal =>
    refine ⟨known.journal, ?_, nofun⟩
    intro none
    rw [journal] at none
    contradiction
  | save none =>
    refine ⟨?_, nofun, known.back⟩
    intro b same
    rw [← Option.some.inj same]
    exact known.home none
  | remove saved journal back =>
    refine ⟨nofun, fun _ => ?_, known.back⟩
    rw [← known.back saved back]
    exact known.journal saved journal

/-- Where the preference is not the original, the journal holds the original. -/
theorem Restorable.journaled {original : Bool} {w : World} (known : Restorable original w)
    (flipped : w.home ≠ original) : w.journal = some original := by
  cases journal : w.journal with
  | none => exact absurd (known.home journal) flipped
  | some b => rw [known.journal b journal]

/-! ## Histories -/

/-- The world, every world before it, the latest first, and the refreshes of the present worker that
succeeded, each with its display process and the world that it left. -/
structure Run (Id : Type) where
  world : World
  before : List World
  refreshed : List (Id × World)

variable {Id : Type}

def Run.worlds (r : Run Id) : List World := r.world :: r.before

/-- One world has come from the other, and the original value was known all along. -/
structure Run.Good (original : Bool) (r : Run Id) : Prop where
  steps : r.worlds.IsChain fun later earlier => Step earlier later
  known : ∀ w ∈ r.worlds, Restorable original w

theorem Run.Good.world {original : Bool} {r : Run Id} (good : r.Good original) :
    Restorable original r.world :=
  good.known r.world (List.mem_cons_self ..)

/-- The run goes on with a world. -/
def Run.next (world : World) (r : Run Id) : Run Id := ⟨world, r.world :: r.before, r.refreshed⟩

theorem Run.Good.next {original : Bool} {r : Run Id} (good : r.Good original) {world : World}
    (step : Step r.world world) : (r.next world).Good original where
  steps := List.isChain_cons_cons.mpr ⟨step, good.steps⟩
  known w there := by
    rcases List.mem_cons.mp there with rfl | there
    · exact step.restorable good.world
    · exact good.known w there

end Flightdeck.DisplayRefresh
