import Flightdeck.Foundation.Effects
import Flightdeck.SaveState.Format

/-!
# Cloud protocol boundaries

The scope of an account and a title, the checks every cloud module shares, and what a cloud
operation reads of its surroundings: the cancel flag, the clock and the local file.
-/

namespace Flightdeck.Cloud

open Foundation SaveState

/-- `cloud::require`. -/
def require (ok : Bool) (code : Code) : Except Failure Unit :=
  Flightdeck.require ok (Failure.new code)

@[simp] theorem require_true (code : Code) : Cloud.require true code = .ok () := rfl

@[simp] theorem require_eq_ok {ok : Bool} {code : Code} {u : Unit} :
    Cloud.require ok code = .ok u ↔ ok = true := Flightdeck.require_eq_ok

theorem require_eq_error {ok : Bool} {code : Code} {e : Failure} :
    Cloud.require ok code = .error e ↔ ok = false ∧ e = .new code := by
  cases ok
  · simp [Cloud.require, eq_comm]
  · simp [Cloud.require]

def isAsciiHexdigit (b : UInt8) : Bool :=
  isAsciiDigit b || (65 ≤ b && b ≤ 70) || (97 ≤ b && b ≤ 102)

def guid (value : String) : Bool :=
  let bytes := utf8 value
  bytes.length == 36 && bytes.zipIdx.all fun (b, i) =>
    if i = 8 ∨ i = 13 ∨ i = 18 ∨ i = 23 then b == 45 else isAsciiHexdigit b

structure Scope where
  xuid : String
  scid : String
  pfn : String
  titleId : UInt32
  deriving DecidableEq

/-- The fields of a binding, each after its big-endian length. -/
def bindingField (value : String) : Bytes :=
  (leBytes 4 (utf8 value).length).reverse ++ utf8 value

def Scope.binding [Sha256] (scope : Scope) : String :=
  sha256 (utf8 "Flightdeck ConnectedStorage read snapshot v1\x00" ++
    [scope.xuid, scope.scid, scope.pfn, toString scope.titleId.toNat].flatMap bindingField)

/-- A duration in nanoseconds. -/
def seconds (n : Nat) : Nat := n * 1000000000

/-- What the program reads while others change it: the cancel flag, the clock, the local file. -/
structure Ambient (σ : Type) where
  cancelled : σ → Bool × σ
  now : σ → Nat × σ
  assertLocal : EStateM Failure σ Unit

def Ambient.load {σ : Type} (env : Ambient σ) : EStateM Failure σ Bool := fun s =>
  .ok (env.cancelled s).1 (env.cancelled s).2

def Ambient.instant {σ : Type} (env : Ambient σ) : EStateM Failure σ Nat := fun s =>
  .ok (env.now s).1 (env.now s).2

def check {σ : Type} (env : Ambient σ) : EStateM Failure σ Unit := do
  require (!(← env.load)) .cancelled

def remaining {σ : Type} (env : Ambient σ) (deadline : Nat) : EStateM Failure σ Nat := do
  check env
  let now ← env.instant
  require (now < deadline) .deadline
  return deadline - now

theorem check_eq {σ : Type} {env : Ambient σ} {s : σ} (hflag : (env.cancelled s).1 = false) :
    check env s = .ok () (env.cancelled s).2 := by
  have hload : env.load s = .ok false (env.cancelled s).2 := by
    unfold Ambient.load
    rw [hflag]
  rw [check, run_bind hload]
  rfl

theorem remaining_eq {σ : Type} {env : Ambient σ} {deadline : Nat} {s : σ}
    (hflag : (env.cancelled s).1 = false)
    (hnow : (env.now (env.cancelled s).2).1 < deadline) :
    remaining env deadline s = .ok (deadline - (env.now (env.cancelled s).2).1)
      (env.now (env.cancelled s).2).2 := by
  have hinstant : env.instant (env.cancelled s).2 = .ok (env.now (env.cancelled s).2).1
      (env.now (env.cancelled s).2).2 := rfl
  rw [remaining, run_bind (check_eq hflag), run_bind hinstant]
  simp only [hnow, decide_true, Cloud.require_true, lift_ok_bind]
  rfl

end Flightdeck.Cloud

namespace Flightdeck.Cloud.Import

open Foundation SaveState

def digest [Sha256] (state : State) : Except Failure String :=
  (contentDigest state).mapError fun _ => .new .unsupported

/-- Containers, blobs and bytes. -/
def counts (state : State) : Nat × Nat × Nat :=
  (state.containers.size,
    ((values state.containers).map fun c => c.blobs.size).sum,
    ((values state.containers).flatMap fun c => (values c.blobs).map List.length).sum)

end Flightdeck.Cloud.Import
