import Mathlib.Algebra.BigOperators.Intervals
import Mathlib.Algebra.Order.BigOperators.Group.Finset
import Mathlib.Algebra.Order.Group.MinMax
import Mathlib.Tactic.Abel
/-!
# Capped accumulators and the windows they remember

A capped accumulator holds one number. Between two steps it earns an
inflow and is cut to a cap; at a step it pays an outflow. That one
number is a minimum over the past: the level before step `k` is the
least, over the steps `i ≤ k`, of what a window opened at `i` with a
full accumulator would still hold (`le_level_iff`). The caps may move
from step to step, and the inflows need not be positive.

The group is any linearly ordered abelian group.
-/

namespace WindowLimiter

variable {G : Type*} [AddCommGroup G] [LinearOrder G]

/-- **A run of a capped accumulator**: the caps and flows of its steps,
and the level before each. It starts full. -/
structure Run (G : Type*) [AddCommGroup G] [LinearOrder G] where
  /-- The cap in force when step `i` begins. -/
  cap : ℕ → G
  /-- What is earned between step `i` and step `i + 1`. -/
  inflow : ℕ → G
  /-- What step `i` takes. -/
  outflow : ℕ → G
  /-- The level at step `i`, before it takes anything. -/
  level : ℕ → G
  level_zero : level 0 = cap 0
  level_succ : ∀ k, level (k + 1) = min (level k - outflow k + inflow k) (cap (k + 1))

namespace Run

variable (W : Run G)

/-- What the steps `i, …, k - 1` take. -/
def taken (i k : ℕ) : G := ∑ j ∈ Finset.Ico i k, W.outflow j

/-- What is earned from step `i` to step `k`. -/
def earned (i k : ℕ) : G := ∑ j ∈ Finset.Ico i k, W.inflow j

@[simp] theorem taken_self (i : ℕ) : W.taken i i = 0 := by simp [taken]

@[simp] theorem earned_self (i : ℕ) : W.earned i i = 0 := by simp [earned]

theorem taken_succ {i k : ℕ} (h : i ≤ k) : W.taken i (k + 1) = W.taken i k + W.outflow k := by
  rw [taken, taken, Finset.sum_Ico_succ_top h]

theorem earned_succ {i k : ℕ} (h : i ≤ k) : W.earned i (k + 1) = W.earned i k + W.inflow k := by
  rw [earned, earned, Finset.sum_Ico_succ_top h]

variable [IsOrderedAddMonoid G]

/-- **The level is the least room over all windows.** An amount fits the
level exactly when every window that ends here has room for it: a step
opens the window of one element, and extends each older one by what was
taken and earned. -/
theorem le_level_iff (k : ℕ) (x : G) :
    x ≤ W.level k ↔ ∀ i ≤ k, W.taken i k + x ≤ W.cap i + W.earned i k := by
  induction k generalizing x with
  | zero =>
    constructor
    · intro h i hi
      obtain rfl : i = 0 := Nat.le_zero.mp hi
      simpa [W.level_zero] using h
    · intro h
      simpa [W.level_zero] using h 0 le_rfl
  | succ k ih =>
    -- the last step's flows go to the amount's side, where the induction reads them
    have hshift : x ≤ W.level k - W.outflow k + W.inflow k ↔
        x + W.outflow k - W.inflow k ≤ W.level k := by
      rw [sub_add_eq_add_sub, le_sub_iff_add_le, sub_le_iff_le_add]
    rw [W.level_succ, le_min_iff, hshift, ih]
    constructor
    · rintro ⟨hold, hcap⟩ i hi
      rcases Nat.lt_or_ge k i with hik | hik
      · -- the window the last step opens holds the cap alone
        obtain rfl : i = k + 1 := by omega
        simpa using hcap
      · have h := hold i hik
        rw [W.taken_succ hik, W.earned_succ hik, ← add_assoc, ← sub_le_iff_le_add]
        calc W.taken i k + W.outflow k + x - W.inflow k
            = W.taken i k + (x + W.outflow k - W.inflow k) := by abel
          _ ≤ W.cap i + W.earned i k := h
    · intro h
      refine ⟨fun i hi => ?_, by simpa using h (k + 1) le_rfl⟩
      have hi' := h i (by omega)
      rw [W.taken_succ hi, W.earned_succ hi, ← add_assoc, ← sub_le_iff_le_add] at hi'
      calc W.taken i k + (x + W.outflow k - W.inflow k)
          = W.taken i k + W.outflow k + x - W.inflow k := by abel
        _ ≤ W.cap i + W.earned i k := hi'

end Run

end WindowLimiter
