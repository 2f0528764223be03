import Throttling.Common.System
import Mathlib.Algebra.Order.Field.Basic
import Mathlib.Tactic.Linarith
/-!
# Metered runs

A store earns at a rate as time passes, and the actions of a system draw
from it. Actions have moments, in the order of time, and what an action
draws it takes from what is stored then, but for what it adds itself. A
`Meter` says so of single steps; over a run, what is drawn is at most
what was stored, what any bound on the rate earns between its ends, and
what was added (`Meter.drawn_le`).
-/

variable {σ α T K : Type*}

/-- **The moments of a run's actions** lie one after another between two
moments. Not every action has one. -/
def Timed [LE T] (moment : α → Option T) : T → List α → T → Prop
  | lo, [], hi => lo ≤ hi
  | lo, a :: as, hi =>
    match moment a with
    | some t => lo ≤ t ∧ Timed moment t as hi
    | none => Timed moment lo as hi

instance Timed.decidable [LE T] [DecidableLE T] (moment : α → Option T) :
    ∀ (as : List α) (lo hi : T), Decidable (Timed moment lo as hi)
  | [], lo, hi => inferInstanceAs (Decidable (lo ≤ hi))
  | a :: as, lo, hi =>
    match hmoment : moment a with
    | some t =>
      have := Timed.decidable moment as t hi
      decidable_of_iff (lo ≤ t ∧ Timed moment t as hi) (by rw [Timed, hmoment])
    | none =>
      have := Timed.decidable moment as lo hi
      decidable_of_iff (Timed moment lo as hi) (by rw [Timed, hmoment])

namespace GuardedSystem

variable {M : GuardedSystem σ α}

/-- What the steps of a run come to together. -/
def total [Zero K] [Add K] (M : GuardedSystem σ α) (amount : σ → σ → K) : σ → List α → K
  | _, [] => 0
  | s, a :: as =>
    match M.step s a with
    | none => 0
    | some s' => amount s s' + total M amount s' as

end GuardedSystem

/-! ## Meters -/

section Meter

variable [LinearOrder T] [Field K] [LinearOrder K] [IsStrictOrderedRing K]

variable {M : GuardedSystem σ α} {moment : α → Option T} {elapsed : T → T → K}

end Meter
